import ConfidentialBalances.Ledger

/-!
# What each instruction can do

One inversion lemma for every effect on the ledger: the checks an accepted
instruction passed and the ledger it left. Everything later about landed
transactions is derived from these.
-/

namespace ConfidentialBalances

namespace Ledger

variable {cluster : Cluster} {ledger ledger' : Ledger}

/-- Decide an accepted conditional. -/
theorem ite_some {α : Type} {condition : Prop} [Decidable condition] {value result : α}
    (accepted : (if condition then some value else none) = some result) :
    condition ∧ result = value := by
  obtain ⟨holds, same⟩ := Option.ite_none_right_eq_some.mp accepted
  exact ⟨holds, (Option.some.inj same).symm⟩

/-- An account is created at an unused address and funded from the funder. -/
theorem createAccount_some {funder newAccount : Pubkey} {lamports space : Nat} {owner : ProgramId}
    (created : ledger.createAccount funder newAccount lamports space owner = some ledger') :
    ledger.data newAccount = .empty ∧ ledger.lamports newAccount = 0 ∧
      lamports ≤ ledger.lamports funder ∧
      ledger' = (ledger.moveLamports funder newAccount lamports).setData newAccount
        (.uninitialized space owner) := by
  obtain ⟨⟨unused, unfunded, funded⟩, result⟩ := ite_some created
  exact ⟨unused, unfunded, funded, result⟩

/-- An address awaits a context when the proof program owns it uninitialised. -/
theorem awaitsContext_iff (key : Pubkey) :
    ledger.awaitsContext key = true ↔
      ∃ space, ledger.data key = .uninitialized space .zkElGamalProof := by
  unfold awaitsContext
  split
  · rename_i space owner data
    simp [data]
  · rename_i other
    simp only [Bool.false_eq_true, false_iff]
    rintro ⟨space, data⟩
    exact other space _ data

/-- A verified proof is stored with its statement at an address that awaited it. -/
theorem verifyProof_some {proofType : ProofType} {info : ContextStateInfo} {proof : List UInt8}
    (verified : ledger.verifyProof cluster proofType info proof = some ledger') :
    ∃ context space, cluster.verify proofType proof = some context ∧
      ledger.data info.contextStateAccount = .uninitialized space .zkElGamalProof ∧
      ledger' = ledger.setData info.contextStateAccount
        (.proofContext info.contextStateAuthority proof context) := by
  unfold verifyProof at verified
  split at verified
  · rename_i context stated
    obtain ⟨awaits, result⟩ := ite_some verified
    obtain ⟨space, data⟩ := (awaitsContext_iff _).mp awaits
    exact ⟨context, space, stated, data, result⟩
  · contradiction

/-- A closed context was the authority's, and its lamports went to the destination. -/
theorem closeContextState_some {info : ContextStateInfo} {destination : Pubkey}
    (closed : ledger.closeContextState info destination = some ledger') :
    ∃ proof context, ledger.data info.contextStateAccount =
        .proofContext info.contextStateAuthority proof context ∧
      destination ≠ info.contextStateAccount ∧
      ledger' = (ledger.moveLamports info.contextStateAccount destination
        (ledger.lamports info.contextStateAccount)).setData info.contextStateAccount .empty := by
  unfold closeContextState at closed
  split at closed
  · rename_i authority proof context data
    obtain ⟨⟨rfl, elsewhere⟩, result⟩ := ite_some closed
    exact ⟨proof, context, data, elsewhere, result⟩
  · contradiction

/-- A record is initialised where the record program owns an uninitialised account. -/
theorem recordInitialize_some {record authority : Pubkey}
    (initialized : ledger.recordInitialize record authority = some ledger') :
    ∃ space, ledger.data record = .uninitialized space .splRecord ∧ recordDataStart ≤ space ∧
      ledger' = ledger.setData record
        (.record authority (List.replicate (space - recordDataStart) 0)) := by
  unfold recordInitialize at initialized
  split at initialized
  · rename_i space owner data
    obtain ⟨⟨rfl, room⟩, result⟩ := ite_some initialized
    exact ⟨space, data, room, result⟩
  · contradiction

/-- A write is the authority's and stays inside the record's data region. -/
theorem recordWrite_some {record signer : Pubkey} {offset : Nat} {bytes : List UInt8}
    (written : ledger.recordWrite record signer offset bytes = some ledger') :
    ∃ region, ledger.data record = .record signer region ∧
      offset + bytes.length ≤ region.length ∧
      ledger' = ledger.setData record (.record signer (spliceBytes region offset bytes)) := by
  unfold recordWrite at written
  split at written
  · rename_i authority region data
    obtain ⟨⟨rfl, inside⟩, result⟩ := ite_some written
    exact ⟨region, data, inside, result⟩
  · contradiction

/-- A closed record was the signer's, and its lamports went to the receiver. -/
theorem recordCloseAccount_some {record signer receiver : Pubkey}
    (closed : ledger.recordCloseAccount record signer receiver = some ledger') :
    ∃ region, ledger.data record = .record signer region ∧ receiver ≠ record ∧
      ledger' = (ledger.moveLamports record receiver (ledger.lamports record)).setData record
        .empty := by
  unfold recordCloseAccount at closed
  split at closed
  · rename_i authority region data
    obtain ⟨⟨rfl, elsewhere⟩, result⟩ := ite_some closed
    exact ⟨region, data, elsewhere, result⟩
  · contradiction

/-- A reallocated token account is the owner's and keeps everything but its size. -/
theorem reallocate_some {account payer owner : Pubkey}
    (reallocated : ledger.reallocate cluster account payer owner = some ledger') :
    ∃ token, ledger.data account = .token token ∧ token.owner = owner ∧
      cluster.rentExemption (cluster.tokenAccountLength true) - ledger.lamports account ≤
        ledger.lamports payer ∧
      ledger' = (ledger.moveLamports payer account
          (cluster.rentExemption (cluster.tokenAccountLength true) -
            ledger.lamports account)).setData account (.token { token with extended := true }) := by
  simp only [reallocate, Option.bind_eq_bind, Option.bind_eq_some_iff,
    AccountData.token?_eq_some] at reallocated
  obtain ⟨token, data, rest⟩ := reallocated
  obtain ⟨⟨owned, funded⟩, result⟩ := ite_some rest
  exact ⟨token, data, owned, funded, result⟩

/-- A configured account is the authority's own, and was not configured before. -/
theorem configureAccount_some {account mint : Pubkey} {decryptableZeroBalance : AeCiphertext}
    {maximumPendingBalanceCreditCounter : Nat} {authority proofContext : Pubkey}
    (configured : ledger.configureAccount account mint decryptableZeroBalance
      maximumPendingBalanceCreditCounter authority proofContext = some ledger') :
    ∃ token state settings key closer proof, ledger.data account = .token token ∧
      ledger.data mint = .mint state ∧ state.confidential = some settings ∧
      ledger.data proofContext = .proofContext closer proof (.pubkeyValidity key) ∧
      token.owner = authority ∧ token.mint = mint ∧ token.extended = true ∧
      token.confidential = none ∧
      ledger' = ledger.setData account (.token { token with
        confidential := some (.configured settings.autoApproveNewAccounts key
          decryptableZeroBalance maximumPendingBalanceCreditCounter) }) := by
  simp only [configureAccount, Option.bind_eq_bind, Option.bind_eq_some_iff,
    AccountData.token?_eq_some, AccountData.mint?_eq_some,
    AccountData.context?_eq_some] at configured
  obtain ⟨token, tokenData, state, mintData, settings, extension, context,
    ⟨closer, proof, contextData⟩, rest⟩ := configured
  split at rest
  · rename_i key
    obtain ⟨⟨owned, same, extended, fresh⟩, result⟩ := ite_some rest
    exact ⟨token, state, settings, key, closer, proof, tokenData, mintData, extension,
      contextData, owned, same, extended, fresh, result⟩
  · contradiction

/-- A deposit takes the amount from the authority's public balance and credits it. -/
theorem deposit_some {account mint : Pubkey} {amount decimals : Nat} {authority : Pubkey}
    (deposited : ledger.deposit account mint amount decimals authority = some ledger') :
    ∃ token state confidential credited, ledger.data account = .token token ∧
      ledger.data mint = .mint state ∧ token.confidential = some confidential ∧
      confidential.deposit amount = some credited ∧ token.owner = authority ∧
      token.mint = mint ∧ state.decimals = decimals ∧ amount ≤ token.amount ∧
      ledger' = ledger.setData account (.token { token with
        amount := token.amount - amount
        confidential := some credited }) := by
  simp only [deposit, Option.bind_eq_bind, Option.bind_eq_some_iff,
    AccountData.token?_eq_some, AccountData.mint?_eq_some] at deposited
  obtain ⟨token, tokenData, state, mintData, confidential, extension, credited, credit, rest⟩ :=
    deposited
  obtain ⟨⟨owned, same, decimal, funded⟩, result⟩ := ite_some rest
  exact ⟨token, state, confidential, credited, tokenData, mintData, extension, credit, owned,
    same, decimal, funded, result⟩

/-- An apply is the authority's and acts on the confidential part alone. -/
theorem applyPendingBalance_some {account : Pubkey} {expectedCounter : Nat}
    {newDecryptable : AeCiphertext} {authority : Pubkey}
    (landed : ledger.applyPendingBalance account expectedCounter newDecryptable authority =
      some ledger') :
    ∃ token confidential applied, ledger.data account = .token token ∧
      token.confidential = some confidential ∧
      confidential.applyPendingBalance expectedCounter newDecryptable = some applied ∧
      token.owner = authority ∧
      ledger' = ledger.setData account (.token { token with confidential := some applied }) := by
  simp only [applyPendingBalance, Option.bind_eq_bind, Option.bind_eq_some_iff,
    AccountData.token?_eq_some] at landed
  obtain ⟨token, tokenData, confidential, extension, applied, apply, rest⟩ := landed
  obtain ⟨owned, result⟩ := ite_some rest
  exact ⟨token, confidential, applied, tokenData, extension, apply, owned, result⟩

/-- A withdraw is the authority's and moves the amount to its public balance. -/
theorem withdraw_some {account mint : Pubkey} {amount decimals : Nat}
    {newDecryptable : AeCiphertext} {authority equalityContext rangeContext : Pubkey}
    (landed : ledger.withdraw account mint amount decimals newDecryptable authority
      equalityContext rangeContext = some ledger') :
    ∃ token state confidential equality range withdrawn, ledger.data account = .token token ∧
      ledger.data mint = .mint state ∧ token.confidential = some confidential ∧
      (ledger.data equalityContext).context? = some equality ∧
      (ledger.data rangeContext).context? = some range ∧
      confidential.withdraw amount newDecryptable equality range = some withdrawn ∧
      token.owner = authority ∧ token.mint = mint ∧ state.decimals = decimals ∧
      ledger' = ledger.setData account (.token { token with
        amount := token.amount + amount
        confidential := some withdrawn }) := by
  simp only [withdraw, Option.bind_eq_bind, Option.bind_eq_some_iff,
    AccountData.token?_eq_some, AccountData.mint?_eq_some] at landed
  obtain ⟨token, tokenData, state, mintData, confidential, extension, equality, first, range,
    second, withdrawn, withdraw, rest⟩ := landed
  obtain ⟨⟨owned, same, decimal⟩, result⟩ := ite_some rest
  exact ⟨token, state, confidential, equality, range, withdrawn, tokenData, mintData, extension,
    first, second, withdraw, owned, same, decimal, result⟩

/-- The source side of a transfer acts on the sender's confidential part alone. -/
theorem transferOut_some {source mint : Pubkey} {newDecryptable : AeCiphertext}
    {authority : Pubkey} {equality validity range : ProofContext}
    (landed : ledger.transferOut source mint newDecryptable authority equality validity range =
      some ledger') :
    ∃ token confidential debited, ledger.data source = .token token ∧
      token.confidential = some confidential ∧
      confidential.transferOut newDecryptable equality validity range = some debited ∧
      token.owner = authority ∧ token.mint = mint ∧
      ledger' = ledger.setData source (.token { token with confidential := some debited }) := by
  simp only [transferOut, Option.bind_eq_bind, Option.bind_eq_some_iff,
    AccountData.token?_eq_some] at landed
  obtain ⟨token, tokenData, confidential, extension, debited, debit, rest⟩ := landed
  obtain ⟨⟨owned, same⟩, result⟩ := ite_some rest
  exact ⟨token, confidential, debited, tokenData, extension, debit, owned, same, result⟩

/-- The destination side of a transfer acts on the recipient's confidential part alone. -/
theorem transferIn_some {destination mint : Pubkey} {validity : ProofContext}
    (landed : ledger.transferIn destination mint validity = some ledger') :
    ∃ token confidential credited, ledger.data destination = .token token ∧
      token.confidential = some confidential ∧
      confidential.transferIn validity = some credited ∧ token.mint = mint ∧
      ledger' = ledger.setData destination
        (.token { token with confidential := some credited }) := by
  simp only [transferIn, Option.bind_eq_bind, Option.bind_eq_some_iff,
    AccountData.token?_eq_some] at landed
  obtain ⟨token, tokenData, confidential, extension, credited, credit, rest⟩ := landed
  obtain ⟨same, result⟩ := ite_some rest
  exact ⟨token, confidential, credited, tokenData, extension, credit, same, result⟩

/-- A transfer reads its three contexts and runs both of its sides. -/
theorem innerTransfer_some {source mint destination : Pubkey} {newDecryptable : AeCiphertext}
    {authority equalityContext validityContext rangeContext : Pubkey}
    (landed : ledger.innerTransfer source mint destination newDecryptable authority
      equalityContext validityContext rangeContext = some ledger') :
    ∃ equality validity range middle,
      (ledger.data equalityContext).context? = some equality ∧
      (ledger.data validityContext).context? = some validity ∧
      (ledger.data rangeContext).context? = some range ∧
      ledger.transferOut source mint newDecryptable authority equality validity range =
        some middle ∧
      middle.transferIn destination mint validity = some ledger' := by
  simp only [innerTransfer, Option.bind_eq_bind, Option.bind_eq_some_iff] at landed
  obtain ⟨equality, first, validity, second, range, third, middle, debit, credit⟩ := landed
  exact ⟨equality, validity, range, middle, first, second, third, debit, credit⟩

/-- A mint's settings are set on an uninitialised account of the token program. -/
theorem initializeConfidentialTransferMint_some {mint : Pubkey}
    {settings : ConfidentialTransferMint}
    (landed : ledger.initializeConfidentialTransferMint mint settings = some ledger') :
    ∃ space, ledger.data mint = .uninitialized space .splToken2022 ∧
      ledger' = ledger.setData mint (.extendedMint settings) := by
  unfold initializeConfidentialTransferMint at landed
  split at landed
  · rename_i space owner data
    obtain ⟨rfl, result⟩ := ite_some landed
    exact ⟨space, data, result⟩
  · contradiction

/-- A mint is finished from an account with its settings set. -/
theorem initializeMint_some {mint mintAuthority : Pubkey} {decimals : Nat}
    (landed : ledger.initializeMint mint mintAuthority decimals = some ledger') :
    ∃ settings, ledger.data mint = .extendedMint settings ∧
      ledger' = ledger.setData mint (.mint ⟨some mintAuthority, decimals, 0, some settings⟩) := by
  unfold initializeMint at landed
  split at landed
  · rename_i settings data
    exact ⟨settings, data, (Option.some.inj landed).symm⟩
  · contradiction

/-- An associated account is created where none was, or found to be there already. -/
theorem createAssociatedTokenAccountIdempotent_some {funder wallet mint : Pubkey}
    (landed : ledger.createAssociatedTokenAccountIdempotent cluster funder wallet mint =
      some ledger') :
    (∃ token, ledger.data (getAssociatedTokenAddress wallet mint) = .token token ∧
      token.owner = wallet ∧ token.mint = mint ∧ ledger' = ledger) ∨
    (ledger.data (getAssociatedTokenAddress wallet mint) = .empty ∧
      cluster.rentExemption (cluster.tokenAccountLength false) -
        ledger.lamports (getAssociatedTokenAddress wallet mint) ≤ ledger.lamports funder ∧
      (ledger.data mint).mint?.isSome ∧
      ledger' = (ledger.moveLamports funder (getAssociatedTokenAddress wallet mint)
          (cluster.rentExemption (cluster.tokenAccountLength false) -
            ledger.lamports (getAssociatedTokenAddress wallet mint))).setData
        (getAssociatedTokenAddress wallet mint) (.token ⟨mint, wallet, 0, false, none⟩)) := by
  unfold createAssociatedTokenAccountIdempotent at landed
  simp only at landed
  split at landed
  · rename_i data
    obtain ⟨⟨funded, minted⟩, result⟩ := ite_some landed
    exact .inr ⟨data, funded, minted, result⟩
  · rename_i token data
    obtain ⟨⟨owned, same⟩, result⟩ := ite_some landed
    exact .inl ⟨token, data, owned, same, result⟩
  · contradiction

/-- Minting is the mint authority's and raises the supply and one public balance alike. -/
theorem mintTo_some {mint account authority : Pubkey} {amount : Nat}
    (minted : ledger.mintTo mint account authority amount = some ledger') :
    ∃ state token, ledger.data mint = .mint state ∧ ledger.data account = .token token ∧
      state.mintAuthority = some authority ∧ token.mint = mint ∧ state.supply + amount < 2 ^ 64 ∧
      ledger' = (ledger.setData mint (.mint { state with
          supply := state.supply + amount })).setData account
        (.token { token with amount := token.amount + amount }) := by
  simp only [mintTo, Option.bind_eq_bind, Option.bind_eq_some_iff,
    AccountData.token?_eq_some, AccountData.mint?_eq_some] at minted
  obtain ⟨state, mintData, token, tokenData, rest⟩ := minted
  obtain ⟨⟨authorized, same, bounded⟩, result⟩ := ite_some rest
  exact ⟨state, token, mintData, tokenData, authorized, same, bounded, result⟩

end Ledger

end ConfidentialBalances
