import ConfidentialBalances.Frame
import ConfidentialBalances.Readability

/-!
# What accounts hold

A mint's supply and what its accounts hold, in the clear and encrypted, change
together: only minting raises either, and it raises both alike. Because proofs
are of true statements, no encrypted balance falls below zero. So a supply that
covers what any accounts hold goes on to cover it.
-/

namespace ConfidentialBalances

open Effect

/-! ## What is held and what exists -/

/-- The tokens of a token account: public, available and pending. -/
def TokenAccount.holding (token : TokenAccount) : ℤ :=
  token.amount + match token.confidential with
    | some extension => extension.availableBalance.amount + extension.pendingAmount
    | none => 0

namespace AccountData

/-- The tokens of a mint that an address holds. -/
def holding (mint : Pubkey) : AccountData → ℤ
  | .token account => if account.mint = mint then account.holding else 0
  | _ => 0

/-- The tokens that exist of the mint at an address. -/
def supply : AccountData → Nat
  | .mint state => state.supply
  | _ => 0

end AccountData

namespace Instruction

/-- The tokens of a mint that an instruction mints. -/
def mintedOf (mint : Pubkey) : Instruction → Nat
  | .mintTo minted _ _ _ amount => if minted = mint then amount else 0
  | _ => 0

end Instruction

/-- The tokens of a mint that a transaction mints. -/
def Transaction.mintedOf (mint : Pubkey) (transaction : Transaction) : Nat :=
  (transaction.instructions.map (Instruction.mintedOf mint)).sum

namespace Ledger

variable {cluster : Cluster} {ledger ledger' : Ledger} {instruction : Instruction}
variable {mint : Pubkey} {keys : Finset Pubkey}

/-- The tokens of a mint that some addresses hold. -/
def holdings (ledger : Ledger) (mint : Pubkey) (keys : Finset Pubkey) : ℤ :=
  ∑ key ∈ keys, (ledger.data key).holding mint

/-- Only the data counts. -/
theorem holdings_congr (same : ledger'.data = ledger.data) :
    ledger'.holdings mint keys = ledger.holdings mint keys := by
  simp only [holdings, same]

/-- Rewriting an address changes what is held by what it holds. -/
theorem holdings_setData {key : Pubkey} (data : AccountData) (member : key ∈ keys) :
    (ledger.setData key data).holdings mint keys =
      ledger.holdings mint keys - (ledger.data key).holding mint + data.holding mint := by
  have others : ∑ other ∈ keys.erase key, ((ledger.setData key data).data other).holding mint =
      ∑ other ∈ keys.erase key, (ledger.data other).holding mint := by
    refine Finset.sum_congr rfl fun other apart => ?_
    rw [setData_data, Function.update_of_ne (Finset.ne_of_mem_erase apart)]
  have after := Finset.add_sum_erase keys
    (fun other => ((ledger.setData key data).data other).holding mint) member
  have before := Finset.add_sum_erase keys (fun other => (ledger.data other).holding mint) member
  simp only [setData_data, Function.update_self] at after others before
  simp only [holdings, setData_data]
  omega

/-- Rewriting an address that holds as much afterwards changes nothing. -/
theorem holdings_rewritten {key : Pubkey} {data : AccountData}
    (same : data.holding mint = (ledger.data key).holding mint) :
    (ledger.setData key data).holdings mint keys = ledger.holdings mint keys := by
  refine Finset.sum_congr rfl fun other _ => ?_
  by_cases here : other = key
  · rw [setData_data, here, Function.update_self, same]
  · rw [setData_data, Function.update_of_ne here]

/-- How a step changes the supply of every mint, and what addresses that include the touched ones
hold of it. -/
structure Shifts (issued : Pubkey → Nat) (change : Pubkey → ℤ) (touched : List Pubkey)
    (ledger ledger' : Ledger) : Prop where
  /-- The supply. -/
  supply : ∀ mint, (ledger'.data mint).supply = (ledger.data mint).supply + issued mint
  /-- What is held. -/
  holdings : ∀ mint keys, (∀ key ∈ touched, key ∈ keys) →
    ledger'.holdings mint keys = ledger.holdings mint keys + change mint

/-- More addresses may be touched. -/
theorem Shifts.mono {issued : Pubkey → Nat} {change : Pubkey → ℤ} {touched touched' : List Pubkey}
    (shifts : Shifts issued change touched ledger ledger') (more : touched ⊆ touched') :
    Shifts issued change touched' ledger ledger' :=
  ⟨shifts.supply, fun mint keys inside =>
    shifts.holdings mint keys fun key member => inside key (more member)⟩

/-- One step after another. -/
theorem Shifts.trans {issued issued' : Pubkey → Nat} {change change' : Pubkey → ℤ}
    {touched : List Pubkey} {middle : Ledger}
    (first : Shifts issued change touched ledger middle)
    (second : Shifts issued' change' touched middle ledger') :
    Shifts (fun mint => issued mint + issued' mint) (fun mint => change mint + change' mint)
      touched ledger ledger' := by
  refine ⟨fun mint => ?_, fun mint keys inside => ?_⟩
  · rw [second.supply, first.supply, Nat.add_assoc]
  · rw [second.holdings mint keys inside, first.holdings mint keys inside, add_assoc]

/-- One address is rewritten where it is touched, and no supply changes. -/
theorem Shifts.touching {key : Pubkey} {before after : AccountData} {change : Pubkey → ℤ}
    {touched : List Pubkey} (member : key ∈ touched) (was : ledger.data key = before)
    (supply : after.supply = before.supply)
    (holding : ∀ mint, after.holding mint = before.holding mint + change mint) :
    Shifts (fun _ => 0) change touched ledger (ledger.setData key after) := by
  subst was
  refine ⟨fun mint => ?_, fun mint keys inside => ?_⟩
  · by_cases here : mint = key
    · subst here
      simpa using supply
    · simp [here]
  · rw [holdings_setData _ (inside key member), holding]
    ring

/-- One address is rewritten anywhere, and neither the tokens it holds nor a supply change. -/
theorem Shifts.rewriting {moved : Ledger} {key : Pubkey} {before after : AccountData}
    (touched : List Pubkey) (same : moved.data = ledger.data) (was : ledger.data key = before)
    (supply : after.supply = before.supply)
    (holding : ∀ mint, after.holding mint = before.holding mint) :
    Shifts (fun _ => 0) (fun _ => 0) touched ledger (moved.setData key after) := by
  subst was
  rw [← same] at supply holding
  refine ⟨fun mint => ?_, fun mint keys _ => ?_⟩
  · by_cases here : mint = key
    · subst here
      simpa [same] using supply
    · simp [here, same]
  · rw [holdings_rewritten (holding mint), holdings_congr same]
    simp

/-! ## What an instruction does to them -/

/-- A credit adds its amount. -/
theorem credit_holding {account account' : ConfidentialTransferAccount} {lo hi : ElGamalCiphertext}
    (credited : account.credit lo hi = some account') :
    account'.availableBalance.amount + account'.pendingAmount =
      account.availableBalance.amount + account.pendingAmount +
        (lo.amount + 2 ^ pendingBalanceLoBits * hi.amount) := by
  obtain ⟨-, rfl⟩ := ConfidentialTransferAccount.credit_some credited
  simp only [ConfidentialTransferAccount.pendingAmount, ElGamalCiphertext.add_amount]
  ring

/-- A deposit moves its amount within the account. -/
theorem deposit_holding {token : TokenAccount} {account account' : ConfidentialTransferAccount}
    {amount : Nat} (extension : token.confidential = some account)
    (deposited : account.deposit amount = some account') (funded : amount ≤ token.amount) :
    TokenAccount.holding { token with
      amount := token.amount - amount, confidential := some account' } = token.holding := by
  obtain ⟨-, credited⟩ := ConfidentialTransferAccount.deposit_some deposited
  have added := credit_holding credited
  have limbs : (((amount % 2 ^ pendingBalanceLoBits : Nat) : ℤ) +
      2 ^ pendingBalanceLoBits * ((amount / 2 ^ pendingBalanceLoBits : Nat) : ℤ)) = amount := by
    exact_mod_cast Nat.mod_add_div amount (2 ^ pendingBalanceLoBits)
  simp only [ElGamalCiphertext.ofAmount_amount, limbs] at added
  simp only [TokenAccount.holding, extension, added]
  omega

/-- An apply moves the pending balance within the account. -/
theorem applyPendingBalance_holding {account account' : ConfidentialTransferAccount} {counter : Nat}
    {decryptable : AeCiphertext}
    (applied : account.applyPendingBalance counter decryptable = some account') :
    account'.availableBalance.amount + account'.pendingAmount =
      account.availableBalance.amount + account.pendingAmount := by
  obtain ⟨-, rfl⟩ := ConfidentialTransferAccount.applyPendingBalance_some applied
  simp [ConfidentialTransferAccount.pendingAmount, add_assoc]

/-- A withdraw moves its amount within the account. -/
theorem withdraw_holding {token : TokenAccount} {account account' : ConfidentialTransferAccount}
    {amount : Nat} {decryptable : AeCiphertext} {equality range : ProofContext}
    (extension : token.confidential = some account)
    (withdrawn : account.withdraw amount decryptable equality range = some account') :
    TokenAccount.holding { token with
      amount := token.amount + amount, confidential := some account' } = token.holding := by
  obtain ⟨commitment, -, -, rfl⟩ := ConfidentialTransferAccount.withdraw_some withdrawn
  simp only [TokenAccount.holding, extension, ConfidentialTransferAccount.pendingAmount,
    ElGamalCiphertext.sub_amount, ElGamalCiphertext.ofAmount_amount]
  omega

/-- The source side of a transfer takes its amount. -/
theorem transferOut_shifts {source mint : Pubkey} {decryptable : AeCiphertext} {authority : Pubkey}
    {equality range : ProofContext} {transfer : TransferAmount}
    (landed : ledger.transferOut source mint decryptable authority equality (.validity transfer)
      range = some ledger') :
    Shifts (fun _ => 0) (fun other => if mint = other then -transfer.debit.amount else 0) [source]
      ledger ledger' := by
  obtain ⟨token, account, debited, was, extension, out, -, ofMint, rfl⟩ := transferOut_some landed
  obtain ⟨commitment, transfer', -, same, -, rfl⟩ :=
    ConfidentialTransferAccount.transferOut_some out
  cases same
  refine .touching List.mem_cons_self was rfl fun other => ?_
  simp only [AccountData.holding, ofMint]
  split
  · simp only [TokenAccount.holding, extension, ConfidentialTransferAccount.pendingAmount,
      ElGamalCiphertext.sub_amount]
    omega
  · rfl

/-- The destination side of a transfer adds it. -/
theorem transferIn_shifts {destination mint : Pubkey} {transfer : TransferAmount}
    (landed : ledger.transferIn destination mint (.validity transfer) = some ledger') :
    Shifts (fun _ => 0) (fun other => if mint = other then transfer.debit.amount else 0)
      [destination] ledger ledger' := by
  obtain ⟨token, account, credited, was, extension, into, ofMint, rfl⟩ := transferIn_some landed
  obtain ⟨transfer', same, credits⟩ := ConfidentialTransferAccount.transferIn_some into
  cases same
  have added := credit_holding credits
  refine .touching List.mem_cons_self was rfl fun other => ?_
  simp only [AccountData.holding, ofMint]
  split
  · simp only [TokenAccount.holding, extension, added, TransferAmount.debit, TransferAmount.credit]
    omega
  · rfl

/-- A transfer moves its amount from the source to the destination. -/
theorem innerTransfer_shifts {source mint destination : Pubkey} {decryptable : AeCiphertext}
    {authority first second third : Pubkey}
    (landed : ledger.innerTransfer source mint destination decryptable authority first second
      third = some ledger') :
    Shifts (fun _ => 0) (fun _ => 0) [source, destination] ledger ledger' := by
  obtain ⟨equality, validity, range, middle, -, -, -, debit, credit⟩ := innerTransfer_some landed
  obtain ⟨-, account, debited, -, -, out, -⟩ := transferOut_some debit
  obtain ⟨-, transfer, -, rfl, -⟩ := ConfidentialTransferAccount.transferOut_some out
  have moved := ((transferOut_shifts debit).mono (by simp)).trans
    ((transferIn_shifts credit).mono (List.subset_cons_self source [destination]))
  have evens : (fun other => (if mint = other then -transfer.debit.amount else 0) +
      if mint = other then transfer.debit.amount else 0) = fun _ => 0 := by
    funext other
    split <;> simp
  rwa [evens] at moved

/-- Minting raises the supply and what the account holds alike. -/
theorem mintTo_shifts {mint account authority : Pubkey} {amount : Nat}
    (landed : ledger.mintTo mint account authority amount = some ledger') :
    Shifts (fun other => if mint = other then amount else 0)
      (fun other => if mint = other then amount else 0) [account] ledger ledger' := by
  obtain ⟨state, token, was, was', -, ofMint, -, rfl⟩ := mintTo_some landed
  have apart : account ≠ mint := by
    rintro rfl
    rw [was] at was'
    contradiction
  have issues : Shifts (fun other => if mint = other then amount else 0) (fun _ => 0) [account]
      ledger (ledger.setData mint (.mint { state with supply := state.supply + amount })) := by
    refine ⟨fun other => ?_, fun other keys _ => ?_⟩
    · by_cases here : other = mint
      · subst here
        simp [was, AccountData.supply]
      · simp [here, Ne.symm here]
    · rw [holdings_rewritten (by rw [was]; rfl)]
      simp
  have still : (ledger.setData mint (.mint { state with
      supply := state.supply + amount })).data account = .token token := by
    rw [setData_data, Function.update_of_ne apart, was']
  obtain ⟨paid, pays⟩ : ∃ paid : TokenAccount,
      paid = { token with amount := token.amount + amount } := ⟨_, rfl⟩
  rw [← pays]
  have enters : Shifts (fun _ => 0) (fun other => if mint = other then (amount : ℤ) else 0)
      [account] (ledger.setData mint (.mint { state with supply := state.supply + amount }))
      ((ledger.setData mint (.mint { state with supply := state.supply + amount })).setData account
        (.token paid)) := by
    refine .touching List.mem_cons_self still rfl fun other => ?_
    simp only [AccountData.holding, pays, ofMint]
    split
    · simp only [TokenAccount.holding]
      push_cast
      ring
    · rfl
  simpa using issues.trans enters

/-- Every instruction shifts supplies and holdings by what it mints. -/
theorem execInstruction_shifts
    (landed : ledger.execInstruction cluster instruction = some ledger') :
    Shifts (fun mint => instruction.mintedOf mint) (fun mint => instruction.mintedOf mint)
      instruction.tokenWrites ledger ledger' := by
  cases instruction with
  | createAccount funder newAccount lamports space owner =>
    obtain ⟨was, -, -, rfl⟩ := createAccount_some landed
    exact .rewriting _ rfl was rfl fun _ => rfl
  | encodeVerifyProof proofType info proof =>
    obtain ⟨context, space, -, was, rfl⟩ := verifyProof_some landed
    exact .rewriting _ rfl was rfl fun _ => rfl
  | encodeVerifyProofFromAccount proofType info proofAccount offset =>
    obtain ⟨proof, -, verified⟩ := Option.bind_eq_some_iff.mp landed
    obtain ⟨context, space, -, was, rfl⟩ := verifyProof_some verified
    exact .rewriting _ rfl was rfl fun _ => rfl
  | closeContextState info destination =>
    obtain ⟨proof, context, was, -, rfl⟩ := closeContextState_some landed
    exact .rewriting _ rfl was rfl fun _ => rfl
  | recordInitialize record authority =>
    obtain ⟨space, was, -, rfl⟩ := recordInitialize_some landed
    exact .rewriting _ rfl was rfl fun _ => rfl
  | recordWrite record signer offset bytes =>
    obtain ⟨region, was, -, rfl⟩ := recordWrite_some landed
    exact .rewriting _ rfl was rfl fun _ => rfl
  | recordCloseAccount record signer receiver =>
    obtain ⟨region, was, -, rfl⟩ := recordCloseAccount_some landed
    exact .rewriting _ rfl was rfl fun _ => rfl
  | reallocate account payer owner multisigSigners =>
    obtain ⟨token, was, -, -, rfl⟩ := reallocate_some landed
    exact .rewriting _ rfl was rfl fun _ => rfl
  | configureAccount account mint zero maximum authority multisigSigners proofContext =>
    obtain ⟨token, state, settings, pubkey, closer, proof, was, -, -, -, -, -, -, fresh, rfl⟩ :=
      configureAccount_some landed
    refine .rewriting _ rfl was rfl fun _ => ?_
    simp [AccountData.holding, TokenAccount.holding, fresh, ConfidentialTransferAccount.configured,
      ConfidentialTransferAccount.pendingAmount]
  | deposit account mint amount decimals authority multisigSigners =>
    obtain ⟨token, state, confidential, credited, was, -, extension, deposited, -, -, -, funded,
      rfl⟩ := deposit_some landed
    refine .rewriting _ rfl was rfl fun _ => ?_
    simp only [AccountData.holding, deposit_holding extension deposited funded]
  | applyPendingBalance account counter decryptable authority multisigSigners =>
    obtain ⟨token, confidential, applied, was, extension, apply, -, rfl⟩ :=
      applyPendingBalance_some landed
    refine .rewriting _ rfl was rfl fun _ => ?_
    simp only [AccountData.holding, TokenAccount.holding, extension,
      applyPendingBalance_holding apply]
  | withdraw account mint amount decimals decryptable authority multisigSigners first second =>
    obtain ⟨token, state, confidential, equality, range, withdrawn, was, -, extension, -, -,
      accepted, -, -, -, rfl⟩ := withdraw_some landed
    refine .rewriting _ rfl was rfl fun _ => ?_
    simp only [AccountData.holding, withdraw_holding extension accepted]
  | innerTransfer source mint destination decryptable lo hi authority signers first second third =>
    exact innerTransfer_shifts landed
  | initializeConfidentialTransferMint mint authority autoApprove auditor =>
    obtain ⟨space, was, rfl⟩ := initializeConfidentialTransferMint_some landed
    exact .rewriting _ rfl was rfl fun _ => rfl
  | initializeMint mint mintAuthority decimals =>
    obtain ⟨settings, was, rfl⟩ := initializeMint_some landed
    exact .rewriting _ rfl was rfl fun _ => rfl
  | createAssociatedTokenAccountIdempotent funder wallet mint =>
    rcases createAssociatedTokenAccountIdempotent_some landed with
      ⟨token, -, -, -, rfl⟩ | ⟨was, -, -, rfl⟩
    · exact ⟨fun _ => rfl, fun _ _ _ => (add_zero _).symm⟩
    · refine .rewriting _ rfl was rfl fun _ => ?_
      simp [AccountData.holding, TokenAccount.holding]
  | mintTo mint account authority multisigSigners amount =>
    have shifts := mintTo_shifts landed
    simpa [Instruction.mintedOf, Instruction.tokenWrites] using shifts

/-- Instructions in turn shift the accounts that they write. -/
theorem execInstructions_shifts {instructions : List Instruction} {touched : List Pubkey}
    (ran : ledger.execInstructions cluster instructions = some ledger')
    (inside : ∀ instruction ∈ instructions, instruction.tokenWrites ⊆ touched) :
    Shifts (fun mint => (instructions.map (Instruction.mintedOf mint)).sum)
      (fun mint => (instructions.map (Instruction.mintedOf mint)).sum) touched ledger ledger' := by
  induction instructions generalizing ledger with
  | nil =>
    obtain rfl := Option.some.inj ran
    exact ⟨fun _ => rfl, fun _ _ _ => (add_zero _).symm⟩
  | cons instruction rest ih =>
    obtain ⟨next, first, remaining⟩ := Option.bind_eq_some_iff.mp ran
    have here := (execInstruction_shifts first).mono (inside instruction List.mem_cons_self)
    have later := ih remaining fun other member => inside other (.tail _ member)
    simpa using here.trans later

/-- Transactions in turn shift the accounts that they write. -/
theorem execTransactions_shifts {transactions : List Transaction} {touched : List Pubkey}
    (landed : ledger.execTransactions cluster transactions = some ledger')
    (inside : ∀ transaction ∈ transactions, ∀ instruction ∈ transaction.instructions,
      instruction.tokenWrites ⊆ touched) :
    Shifts (fun mint => (transactions.map (Transaction.mintedOf mint)).sum)
      (fun mint => (transactions.map (Transaction.mintedOf mint)).sum) touched ledger ledger' := by
  induction transactions generalizing ledger with
  | nil =>
    obtain rfl := Option.some.inj landed
    exact ⟨fun _ => rfl, fun _ _ _ => (add_zero _).symm⟩
  | cons transaction rest ih =>
    obtain ⟨next, first, remaining⟩ := Option.bind_eq_some_iff.mp landed
    obtain ⟨-, -, ran⟩ := execTransaction_some first
    have charged := execInstructions_shifts ran (inside transaction List.mem_cons_self)
    -- Charging the fee changes lamports only.
    have here : Shifts (fun mint => transaction.mintedOf mint)
        (fun mint => transaction.mintedOf mint) touched ledger next :=
      ⟨charged.supply, charged.holdings⟩
    have later := ih remaining fun other member => inside other (.tail _ member)
    simpa using here.trans later

end Ledger

/-! ## Balances that stand for amounts -/

/-- The balances are amounts under the key that is registered. -/
structure BalancesSound (extension : ConfidentialTransferAccount) : Prop
    extends PendingSound extension where
  /-- The key of the available balance. -/
  availableKey : extension.availableBalance.key = extension.elgamalPubkey
  /-- The available balance. -/
  available : 0 ≤ extension.availableBalance.amount

/-- What an address holds is true: a stored statement, or the balances of a token account. -/
def AccountData.Truthful : AccountData → Prop
  | .proofContext _ _ context => context.Holds
  | .token account => ∀ extension ∈ account.confidential, BalancesSound extension
  | _ => True

/-- Every address holds what is true. -/
def Ledger.Truthful (ledger : Ledger) : Prop := ∀ key, (ledger.data key).Truthful

section Truth

variable {cluster : Cluster} {ledger ledger' : Ledger}
variable {account account' : ConfidentialTransferAccount}

/-- A configured account starts from zeros. -/
theorem balancesSound_configured (approved : Bool) (key : ElGamalPubkey) (zero : AeCiphertext)
    (maximum : Nat) : BalancesSound (.configured approved key zero maximum) :=
  ⟨⟨rfl, rfl, le_rfl, le_rfl⟩, rfl, le_rfl⟩

/-- A credit of amounts under the account's key is sound. -/
theorem BalancesSound.credit (sound : BalancesSound account) {lo hi : ElGamalCiphertext}
    (lo_nonneg : 0 ≤ lo.amount) (hi_nonneg : 0 ≤ hi.amount)
    (credited : account.credit lo hi = some account') : BalancesSound account' := by
  obtain ⟨-, rfl⟩ := ConfidentialTransferAccount.credit_some credited
  exact ⟨⟨sound.loKey, sound.hiKey, add_nonneg sound.lo lo_nonneg, add_nonneg sound.hi hi_nonneg⟩,
    sound.availableKey, sound.available⟩

/-- Balances stay sound when the pending one is applied. -/
theorem BalancesSound.applyPendingBalance (sound : BalancesSound account) {counter : Nat}
    {decryptable : AeCiphertext}
    (applied : account.applyPendingBalance counter decryptable = some account') :
    BalancesSound account' := by
  obtain ⟨-, rfl⟩ := ConfidentialTransferAccount.applyPendingBalance_some applied
  refine ⟨⟨rfl, rfl, le_rfl, le_rfl⟩, sound.availableKey, ?_⟩
  have low := add_nonneg sound.available sound.lo
  exact add_nonneg low (mul_nonneg (Int.natCast_nonneg _) sound.hi)

/-- What a range proof leaves of the available balance is an amount. -/
theorem holds_remaining {ciphertext : ElGamalCiphertext} {commitment : Commitment}
    {others : List (Commitment × Nat)}
    (equality : (ProofContext.equality ciphertext commitment).Holds)
    (range : (ProofContext.range ((commitment, 64) :: others)).Holds) : 0 ≤ ciphertext.amount := by
  have equal : ciphertext.amount = commitment.amount := equality
  rw [equal]
  exact (range _ List.mem_cons_self).1

/-- A withdraw leaves an amount, since its proofs are of true statements. -/
theorem BalancesSound.withdraw (sound : BalancesSound account) {amount : Nat}
    {decryptable : AeCiphertext} {equality range : ProofContext} (first : equality.Holds)
    (second : range.Holds)
    (withdrawn : account.withdraw amount decryptable equality range = some account') :
    BalancesSound account' := by
  obtain ⟨commitment, rfl, rfl, rfl⟩ := ConfidentialTransferAccount.withdraw_some withdrawn
  exact ⟨⟨sound.loKey, sound.hiKey, sound.lo, sound.hi⟩, sound.availableKey,
    holds_remaining first second⟩

/-- Balances stay sound on the source side of a transfer whose proofs hold. -/
theorem BalancesSound.transferOut (sound : BalancesSound account) {decryptable : AeCiphertext}
    {equality validity range : ProofContext} (first : equality.Holds) (second : range.Holds)
    (debited : account.transferOut decryptable equality validity range = some account') :
    BalancesSound account' := by
  obtain ⟨commitment, transfer, rfl, rfl, rfl, rfl⟩ :=
    ConfidentialTransferAccount.transferOut_some debited
  exact ⟨⟨sound.loKey, sound.hiKey, sound.lo, sound.hi⟩, sound.availableKey,
    holds_remaining first second⟩

/-- One address is rewritten with what is true. -/
theorem Ledger.Truthful.setData (truthful : ledger.Truthful) {key : Pubkey} {data : AccountData}
    (holds : data.Truthful) : (ledger.setData key data).Truthful := by
  intro other
  by_cases here : other = key
  · rw [Ledger.setData_data, here, Function.update_self]
    exact holds
  · rw [Ledger.setData_data, Function.update_of_ne here]
    exact truthful other

/-- A stored statement is true. -/
theorem Ledger.Truthful.context (truthful : ledger.Truthful) {key : Pubkey} {context : ProofContext}
    (stored : (ledger.data key).context? = some context) : context.Holds := by
  obtain ⟨authority, proof, data⟩ := AccountData.context?_eq_some.mp stored
  have holds := truthful key
  rwa [data] at holds

/-- The balances of a token account are sound. -/
theorem Ledger.Truthful.balances (truthful : ledger.Truthful) {key : Pubkey} {token : TokenAccount}
    (data : ledger.data key = .token token) (extension : token.confidential = some account) :
    BalancesSound account := by
  have holds := truthful key
  rw [data] at holds
  exact holds account extension

/-- Both sides of a transfer are sound, since its proofs are of true statements. -/
theorem Ledger.Truthful.innerTransfer (truthful : ledger.Truthful)
    {source mint destination : Pubkey} {decryptable : AeCiphertext}
    {authority first second third : Pubkey}
    (landed : ledger.innerTransfer source mint destination decryptable authority first second
      third = some ledger') : ledger'.Truthful := by
  obtain ⟨equality, validity, range, middle, atFirst, -, atThird, debit, credit⟩ :=
    Ledger.innerTransfer_some landed
  have ranged := truthful.context atThird
  obtain ⟨token, before, debited, was, extension, out, -, -, rfl⟩ := Ledger.transferOut_some debit
  have remaining := (truthful.balances was extension).transferOut (truthful.context atFirst) ranged
    out
  have halfway : (ledger.setData source (.token { token with
      confidential := some debited })).Truthful :=
    truthful.setData fun _ same => Option.some.inj same ▸ remaining
  obtain ⟨token', before', credited, was', extension', into, -, rfl⟩ :=
    Ledger.transferIn_some credit
  obtain ⟨transfer, rfl, credits⟩ := ConfidentialTransferAccount.transferIn_some into
  -- The range proof speaks of both limbs, too.
  obtain ⟨commitment, transfer', rfl, same, rfl, -⟩ :=
    ConfidentialTransferAccount.transferOut_some out
  cases same
  have limbs := (halfway.balances was' extension').credit (ranged (transfer.lo, 16) (by simp)).1
    (ranged (transfer.hi, 32) (by simp)).1 credits
  exact halfway.setData fun _ same => Option.some.inj same ▸ limbs

/-- An instruction leaves what is true, when only true statements verify. -/
theorem Ledger.Truthful.instruction (sound : cluster.Sound) (truthful : ledger.Truthful)
    {instruction : Instruction}
    (landed : ledger.execInstruction cluster instruction = some ledger') : ledger'.Truthful := by
  cases instruction with
  | createAccount funder newAccount lamports space owner =>
    obtain ⟨-, -, -, rfl⟩ := Ledger.createAccount_some landed
    exact Ledger.Truthful.setData truthful trivial
  | encodeVerifyProof proofType info proof =>
    obtain ⟨context, space, stated, -, rfl⟩ := Ledger.verifyProof_some landed
    exact truthful.setData (sound _ _ _ stated)
  | encodeVerifyProofFromAccount proofType info proofAccount offset =>
    obtain ⟨proof, -, verified⟩ := Option.bind_eq_some_iff.mp landed
    obtain ⟨context, space, stated, -, rfl⟩ := Ledger.verifyProof_some verified
    exact truthful.setData (sound _ _ _ stated)
  | closeContextState info destination =>
    obtain ⟨proof, context, -, -, rfl⟩ := Ledger.closeContextState_some landed
    exact Ledger.Truthful.setData truthful trivial
  | recordInitialize record authority =>
    obtain ⟨space, -, -, rfl⟩ := Ledger.recordInitialize_some landed
    exact truthful.setData trivial
  | recordWrite record signer offset bytes =>
    obtain ⟨region, -, -, rfl⟩ := Ledger.recordWrite_some landed
    exact truthful.setData trivial
  | recordCloseAccount record signer receiver =>
    obtain ⟨region, -, -, rfl⟩ := Ledger.recordCloseAccount_some landed
    exact Ledger.Truthful.setData truthful trivial
  | reallocate account payer owner multisigSigners =>
    obtain ⟨token, was, -, -, rfl⟩ := Ledger.reallocate_some landed
    exact Ledger.Truthful.setData truthful fun _ extension => truthful.balances was extension
  | configureAccount account mint zero maximum authority multisigSigners proofContext =>
    obtain ⟨token, state, settings, pubkey, closer, proof, -, -, -, -, -, -, -, -, rfl⟩ :=
      Ledger.configureAccount_some landed
    exact truthful.setData fun _ same =>
      Option.some.inj same ▸ balancesSound_configured _ pubkey zero maximum
  | deposit account mint amount decimals authority multisigSigners =>
    obtain ⟨token, state, confidential, credited, was, -, extension, deposited, -, -, -, -, rfl⟩ :=
      Ledger.deposit_some landed
    obtain ⟨-, credits⟩ := ConfidentialTransferAccount.deposit_some deposited
    have after := (truthful.balances was extension).credit (Int.natCast_nonneg _)
      (Int.natCast_nonneg _) credits
    exact truthful.setData fun _ same => Option.some.inj same ▸ after
  | applyPendingBalance account counter decryptable authority multisigSigners =>
    obtain ⟨token, confidential, applied, was, extension, apply, -, rfl⟩ :=
      Ledger.applyPendingBalance_some landed
    have after := (truthful.balances was extension).applyPendingBalance apply
    exact truthful.setData fun _ same => Option.some.inj same ▸ after
  | withdraw account mint amount decimals decryptable authority multisigSigners first second =>
    obtain ⟨token, state, confidential, equality, range, withdrawn, was, -, extension, atFirst,
      atSecond, accepted, -, -, -, rfl⟩ := Ledger.withdraw_some landed
    have after := (truthful.balances was extension).withdraw (truthful.context atFirst)
      (truthful.context atSecond) accepted
    exact truthful.setData fun _ same => Option.some.inj same ▸ after
  | innerTransfer source mint destination decryptable lo hi authority signers first second third =>
    exact truthful.innerTransfer landed
  | initializeConfidentialTransferMint mint authority autoApprove auditor =>
    obtain ⟨space, -, rfl⟩ := Ledger.initializeConfidentialTransferMint_some landed
    exact truthful.setData trivial
  | initializeMint mint mintAuthority decimals =>
    obtain ⟨settings, -, rfl⟩ := Ledger.initializeMint_some landed
    exact truthful.setData trivial
  | createAssociatedTokenAccountIdempotent funder wallet mint =>
    rcases Ledger.createAssociatedTokenAccountIdempotent_some landed with
      ⟨token, -, -, -, rfl⟩ | ⟨-, -, -, rfl⟩
    · exact truthful
    · exact Ledger.Truthful.setData truthful fun _ none => by contradiction
  | mintTo mint account authority multisigSigners amount =>
    obtain ⟨state, token, -, was, -, -, -, rfl⟩ := Ledger.mintTo_some landed
    have halfway : (ledger.setData mint (.mint { state with
        supply := state.supply + amount })).Truthful := truthful.setData trivial
    exact halfway.setData fun _ extension => truthful.balances was extension

/-- Landed transactions leave what is true. -/
theorem Ledger.Truthful.transactions (sound : cluster.Sound) (truthful : ledger.Truthful)
    {transactions : List Transaction}
    (landed : ledger.execTransactions cluster transactions = some ledger') : ledger'.Truthful := by
  refine Ledger.execTransactions_preserves Ledger.Truthful ?_ landed truthful
  intro transaction member before after ran holds
  obtain ⟨-, -, instructions⟩ := Ledger.execTransaction_some ran
  exact Ledger.execInstructions_preserves Ledger.Truthful
    (fun _ _ _ _ executed now => now.instruction sound executed) instructions holds

/-- What is true holds no negative amount. -/
theorem AccountData.Truthful.holding_nonneg {data : AccountData} (truthful : data.Truthful)
    (mint : Pubkey) : 0 ≤ data.holding mint := by
  cases data with
  | token token =>
    simp only [AccountData.holding]
    split
    · cases extension : token.confidential with
      | none => simp [TokenAccount.holding, extension]
      | some account =>
        have sound := truthful account extension
        have pending := sound.toPendingSound.pendingAmount_nonneg
        have available := sound.available
        simp only [TokenAccount.holding, extension]
        omega
    · exact le_rfl
  | _ => exact le_rfl

/-- The supply of a mint covers what any addresses hold of it. -/
def Ledger.Covered (ledger : Ledger) (mint : Pubkey) : Prop :=
  ∀ keys : Finset Pubkey, ledger.holdings mint keys ≤ (ledger.data mint).supply

/-- The supply still covers the accounts when both have shifted alike. -/
theorem Ledger.Covered.shifts {mint : Pubkey} {minted : Pubkey → Nat} {touched : List Pubkey}
    (covered : ledger.Covered mint)
    (shifts : Ledger.Shifts minted (fun mint => minted mint) touched ledger ledger')
    (truthful : ledger'.Truthful) : ledger'.Covered mint := by
  intro keys
  have more : ledger'.holdings mint keys ≤ ledger'.holdings mint (keys ∪ touched.toFinset) :=
    Finset.sum_le_sum_of_subset_of_nonneg Finset.subset_union_left fun key _ _ =>
      (truthful key).holding_nonneg mint
  have all := shifts.holdings mint (keys ∪ touched.toFinset) fun key member => by simp [member]
  have before := covered (keys ∪ touched.toFinset)
  rw [shifts.supply mint]
  push_cast
  omega

end Truth

end ConfidentialBalances
