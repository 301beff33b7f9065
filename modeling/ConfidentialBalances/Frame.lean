import ConfidentialBalances.Effects

/-!
# What transactions leave alone

Every instruction names the addresses whose data it may change, the token
accounts among them, and the addresses between which it may move lamports.
Anything else is framed: unchanged by the instruction, by a transaction made of
such instructions and by any number of these. Lamports are conserved on every
set of addresses that contains the ones named, up to the fees.
-/

namespace ConfidentialBalances

namespace Instruction

/-- The addresses whose data an instruction may change. -/
def writes : Instruction → List Pubkey
  | .createAccount _ newAccount _ _ _ => [newAccount]
  | .encodeVerifyProof _ info _ => [info.contextStateAccount]
  | .encodeVerifyProofFromAccount _ info _ _ => [info.contextStateAccount]
  | .closeContextState info _ => [info.contextStateAccount]
  | .recordInitialize record _ => [record]
  | .recordWrite record _ _ _ => [record]
  | .recordCloseAccount record _ _ => [record]
  | .reallocate account _ _ _ => [account]
  | .configureAccount account _ _ _ _ _ _ => [account]
  | .deposit account _ _ _ _ _ => [account]
  | .applyPendingBalance account _ _ _ _ => [account]
  | .withdraw account _ _ _ _ _ _ _ _ => [account]
  | .innerTransfer source _ destination _ _ _ _ _ _ _ _ => [source, destination]
  | .initializeConfidentialTransferMint mint _ _ _ => [mint]
  | .initializeMint mint _ _ => [mint]
  | .createAssociatedTokenAccountIdempotent _ wallet mint =>
    [getAssociatedTokenAddress wallet mint]
  | .mintTo mint account _ _ _ => [mint, account]

/-- The token accounts an instruction may change. -/
def tokenWrites : Instruction → List Pubkey
  | .reallocate account _ _ _ => [account]
  | .configureAccount account _ _ _ _ _ _ => [account]
  | .deposit account _ _ _ _ _ => [account]
  | .applyPendingBalance account _ _ _ _ => [account]
  | .withdraw account _ _ _ _ _ _ _ _ => [account]
  | .innerTransfer source _ destination _ _ _ _ _ _ _ _ => [source, destination]
  | .createAssociatedTokenAccountIdempotent _ wallet mint =>
    [getAssociatedTokenAddress wallet mint]
  | .mintTo _ account _ _ _ => [account]
  | _ => []

/-- The mints an instruction may change. -/
def mintWrites : Instruction → List Pubkey
  | .mintTo mint _ _ _ _ => [mint]
  | .initializeMint mint _ _ => [mint]
  | _ => []

/-- The addresses between which an instruction may move lamports. -/
def lamportKeys : Instruction → List Pubkey
  | .createAccount funder newAccount _ _ _ => [funder, newAccount]
  | .closeContextState info destination => [info.contextStateAccount, destination]
  | .recordCloseAccount record _ receiver => [record, receiver]
  | .reallocate account payer _ _ => [payer, account]
  | .createAssociatedTokenAccountIdempotent funder wallet mint =>
    [funder, getAssociatedTokenAddress wallet mint]
  | _ => []

/-- The token accounts that it may change are among what it may change. -/
theorem tokenWrites_writes (instruction : Instruction) {key : Pubkey}
    (written : key ∈ instruction.tokenWrites) : key ∈ instruction.writes := by
  cases instruction <;> simp_all [tokenWrites, writes]

/-- How an instruction may leave the data at an address: as it was, rewritten where there is neither
a token account nor a mint before or after, as a mint, or as a token account. -/
inductive Rewrites (instruction : Instruction) (key : Pubkey) : AccountData → AccountData → Prop
  /-- The data stays. -/
  | keeps {data : AccountData} : key ∉ instruction.writes → Rewrites instruction key data data
  /-- The account was neither a token account nor a mint, and is neither. -/
  | plain {before after : AccountData} : key ∈ instruction.writes → key ∉ instruction.tokenWrites →
      before.token? = none ∧ before.mint? = none → after.token? = none ∧ after.mint? = none →
      Rewrites instruction key before after
  /-- A mint. -/
  | mint {before : AccountData} (state : Mint) : key ∈ instruction.writes →
      key ∉ instruction.tokenWrites → key ∈ instruction.mintWrites → before.token? = none →
      Rewrites instruction key before (.mint state)
  /-- A token account. -/
  | token {before : AccountData} (account : TokenAccount) : key ∈ instruction.writes →
      key ∈ instruction.tokenWrites → before.mint? = none →
      Rewrites instruction key before (.token account)

/-- An instruction that rewrites one address as it may leaves every address as it may. -/
theorem Rewrites.update {instruction : Instruction} {data : Pubkey → AccountData} {written : Pubkey}
    {before after : AccountData} (only : instruction.writes = [written])
    (was : data written = before) (rewrites : instruction.Rewrites written before after)
    (key : Pubkey) :
    instruction.Rewrites key (data key) (Function.update data written after key) := by
  by_cases same : key = written
  · subst same
    rwa [was, Function.update_self]
  · rw [Function.update_of_ne same]
    exact .keeps (by simpa [only] using same)

section Apart

variable {instruction : Instruction} {key : Pubkey} {before after : AccountData}

/-- What is not written stays. -/
theorem Rewrites.data (rewrites : instruction.Rewrites key before after)
    (apart : key ∉ instruction.writes) : after = before := by
  cases rewrites with
  | keeps => rfl
  | plain written => exact absurd written apart
  | mint _ written => exact absurd written apart
  | token _ written => exact absurd written apart

/-- Where no token account is written, the token account stays, or there still is none. -/
theorem Rewrites.token? (rewrites : instruction.Rewrites key before after)
    (apart : key ∉ instruction.tokenWrites) : after.token? = before.token? := by
  cases rewrites with
  | keeps => rfl
  | plain _ _ was now => rw [was.1, now.1]
  | mint _ _ _ _ was => exact was.symm
  | token _ _ written => exact absurd written apart

/-- Where a token account is written, there is one. -/
theorem Rewrites.token_of (rewrites : instruction.Rewrites key before after)
    (written : key ∈ instruction.tokenWrites) : ∃ account, after = .token account := by
  cases rewrites with
  | keeps apart => exact absurd (instruction.tokenWrites_writes written) apart
  | plain _ apart => exact absurd written apart
  | mint _ _ apart => exact absurd written apart
  | token account => exact ⟨account, rfl⟩

/-- Where no mint is written, a mint stays. -/
theorem Rewrites.mint? {state : Mint} (rewrites : instruction.Rewrites key before after)
    (held : before = .mint state) (apart : key ∉ instruction.mintWrites) :
    after = .mint state := by
  subst held
  cases rewrites with
  | keeps => rfl
  | plain _ _ was => cases was.2
  | mint _ _ _ written => exact absurd written apart
  | token _ _ _ was => cases was

end Apart

end Instruction

namespace Ledger

variable {cluster : Cluster} {ledger ledger' : Ledger} {instruction : Instruction}

/-- A landed instruction leaves the data at every address as it may. -/
theorem execInstruction_rewrites
    (landed : ledger.execInstruction cluster instruction = some ledger') (key : Pubkey) :
    instruction.Rewrites key (ledger.data key) (ledger'.data key) := by
  cases instruction with
  | createAccount funder newAccount lamports space owner =>
    obtain ⟨was, -, -, rfl⟩ := createAccount_some landed
    exact .update rfl was (.plain (.head _) List.not_mem_nil ⟨rfl, rfl⟩ ⟨rfl, rfl⟩) key
  | encodeVerifyProof proofType info proof =>
    obtain ⟨context, space, -, was, rfl⟩ := verifyProof_some landed
    exact .update rfl was (.plain (.head _) List.not_mem_nil ⟨rfl, rfl⟩ ⟨rfl, rfl⟩) key
  | encodeVerifyProofFromAccount proofType info proofAccount offset =>
    obtain ⟨proof, -, verified⟩ := Option.bind_eq_some_iff.mp landed
    obtain ⟨context, space, -, was, rfl⟩ := verifyProof_some verified
    exact .update rfl was (.plain (.head _) List.not_mem_nil ⟨rfl, rfl⟩ ⟨rfl, rfl⟩) key
  | closeContextState info destination =>
    obtain ⟨proof, context, was, -, rfl⟩ := closeContextState_some landed
    exact .update rfl was (.plain (.head _) List.not_mem_nil ⟨rfl, rfl⟩ ⟨rfl, rfl⟩) key
  | recordInitialize record authority =>
    obtain ⟨space, was, -, rfl⟩ := recordInitialize_some landed
    exact .update rfl was (.plain (.head _) List.not_mem_nil ⟨rfl, rfl⟩ ⟨rfl, rfl⟩) key
  | recordWrite record signer offset bytes =>
    obtain ⟨region, was, -, rfl⟩ := recordWrite_some landed
    exact .update rfl was (.plain (.head _) List.not_mem_nil ⟨rfl, rfl⟩ ⟨rfl, rfl⟩) key
  | recordCloseAccount record signer receiver =>
    obtain ⟨region, was, -, rfl⟩ := recordCloseAccount_some landed
    exact .update rfl was (.plain (.head _) List.not_mem_nil ⟨rfl, rfl⟩ ⟨rfl, rfl⟩) key
  | reallocate account payer owner multisigSigners =>
    obtain ⟨token, was, -, -, rfl⟩ := reallocate_some landed
    exact .update rfl was (.token _ (.head _) (.head _) rfl) key
  | configureAccount account mint zero maximum authority multisigSigners proofContext =>
    obtain ⟨token, state, settings, pubkey, closer, proof, was, -, -, -, -, -, -, -, rfl⟩ :=
      configureAccount_some landed
    exact .update rfl was (.token _ (.head _) (.head _) rfl) key
  | deposit account mint amount decimals authority multisigSigners =>
    obtain ⟨token, state, confidential, credited, was, -, -, -, -, -, -, -, rfl⟩ :=
      deposit_some landed
    exact .update rfl was (.token _ (.head _) (.head _) rfl) key
  | applyPendingBalance account counter decryptable authority multisigSigners =>
    obtain ⟨token, confidential, applied, was, -, -, -, rfl⟩ := applyPendingBalance_some landed
    exact .update rfl was (.token _ (.head _) (.head _) rfl) key
  | withdraw account mint amount decimals decryptable authority multisigSigners first second =>
    obtain ⟨token, state, confidential, equality, range, withdrawn, was, -, -, -, -, -, -, -, -,
      rfl⟩ := withdraw_some landed
    exact .update rfl was (.token _ (.head _) (.head _) rfl) key
  | innerTransfer source mint destination decryptable lo hi authority signers first second third =>
    obtain ⟨equality, validity, range, middle, -, -, -, debit, credit⟩ := innerTransfer_some landed
    obtain ⟨token, confidential, debited, was, -, -, -, -, rfl⟩ := transferOut_some debit
    obtain ⟨token', confidential', credited, was', -, -, -, rfl⟩ := transferIn_some credit
    by_cases atDestination : key = destination
    · subst atDestination
      have before : (ledger.data key).mint? = none := by
        by_cases same : key = source <;> simp_all [AccountData.mint?]
      simpa using .token _ (by simp [Instruction.writes]) (by simp [Instruction.tokenWrites]) before
    by_cases atSource : key = source
    · subst atSource
      simpa [was, atDestination] using .token _ (by simp [Instruction.writes])
        (by simp [Instruction.tokenWrites]) rfl
    · simpa [atSource, atDestination] using .keeps (by simp [Instruction.writes, *])
  | initializeConfidentialTransferMint mint authority autoApprove auditor =>
    obtain ⟨space, was, rfl⟩ := initializeConfidentialTransferMint_some landed
    exact .update rfl was (.plain (.head _) List.not_mem_nil ⟨rfl, rfl⟩ ⟨rfl, rfl⟩) key
  | initializeMint mint mintAuthority decimals =>
    obtain ⟨settings, was, rfl⟩ := initializeMint_some landed
    exact .update rfl was (.mint _ (.head _) List.not_mem_nil (.head _) rfl) key
  | createAssociatedTokenAccountIdempotent funder wallet mint =>
    rcases createAssociatedTokenAccountIdempotent_some landed with
      ⟨token, was, -, -, rfl⟩ | ⟨was, -, -, rfl⟩
    · by_cases here : key = getAssociatedTokenAddress wallet mint
      · subst here
        rw [was]
        exact .token _ (.head _) (.head _) rfl
      · exact .keeps (by simpa [Instruction.writes] using here)
    · exact .update rfl was (.token _ (.head _) (.head _) rfl) key
  | mintTo mint account authority multisigSigners amount =>
    obtain ⟨state, token, was, was', -, -, -, rfl⟩ := mintTo_some landed
    have apart : mint ≠ account := by
      rintro rfl
      rw [was] at was'
      contradiction
    by_cases atAccount : key = account
    · subst atAccount
      have before : (ledger.data key).mint? = none := by rw [was']; rfl
      simpa using .token _ (by simp [Instruction.writes]) (.head _) before
    by_cases atMint : key = mint
    · subst atMint
      have before : (ledger.data key).token? = none := by rw [was]; rfl
      simpa [apart] using .mint _ (.head _) (by simp [Instruction.tokenWrites, apart]) (.head _)
        before
    · simpa [atAccount, atMint] using .keeps (by simp [Instruction.writes, *])

/-- The data at any address a landed instruction does not write is unchanged. -/
theorem execInstruction_data (landed : ledger.execInstruction cluster instruction = some ledger')
    {key : Pubkey} (apart : key ∉ instruction.writes) : ledger'.data key = ledger.data key :=
  (execInstruction_rewrites landed key).data apart

/-- A token account that a landed instruction does not write is unchanged. -/
theorem execInstruction_token? (landed : ledger.execInstruction cluster instruction = some ledger')
    {key : Pubkey} (apart : key ∉ instruction.tokenWrites) :
    (ledger'.data key).token? = (ledger.data key).token? :=
  (execInstruction_rewrites landed key).token? apart

/-- Where a landed instruction may write a token account, there is one. -/
theorem execInstruction_token (landed : ledger.execInstruction cluster instruction = some ledger')
    {key : Pubkey} (written : key ∈ instruction.tokenWrites) :
    ∃ token, ledger'.data key = .token token :=
  (execInstruction_rewrites landed key).token_of written

/-- A mint that a landed instruction does not write is unchanged. -/
theorem execInstruction_mint? (landed : ledger.execInstruction cluster instruction = some ledger')
    {key : Pubkey} {state : Mint} (data : ledger.data key = .mint state)
    (apart : key ∉ instruction.mintWrites) : ledger'.data key = .mint state :=
  (execInstruction_rewrites landed key).mint? data apart

/-! ## Lamports -/

/-- A landed instruction moves lamports between two addresses it names, or none at all. -/
theorem execInstruction_lamports
    (landed : ledger.execInstruction cluster instruction = some ledger') :
    ledger'.lamports = ledger.lamports ∨
      ∃ source ∈ instruction.lamportKeys, ∃ destination ∈ instruction.lamportKeys,
        ∃ amount ≤ ledger.lamports source,
          ledger'.lamports = (ledger.moveLamports source destination amount).lamports := by
  cases instruction with
  | createAccount funder newAccount lamports space owner =>
    obtain ⟨-, -, funded, rfl⟩ := createAccount_some landed
    exact .inr ⟨funder, by simp [Instruction.lamportKeys], newAccount,
      by simp [Instruction.lamportKeys], lamports, funded, rfl⟩
  | encodeVerifyProof proofType info proof =>
    obtain ⟨context, space, -, -, rfl⟩ := verifyProof_some landed
    exact .inl rfl
  | encodeVerifyProofFromAccount proofType info proofAccount offset =>
    obtain ⟨proof, -, verified⟩ := Option.bind_eq_some_iff.mp landed
    obtain ⟨context, space, -, -, rfl⟩ := verifyProof_some verified
    exact .inl rfl
  | closeContextState info destination =>
    obtain ⟨proof, context, -, -, rfl⟩ := closeContextState_some landed
    exact .inr ⟨_, by simp [Instruction.lamportKeys], destination,
      by simp [Instruction.lamportKeys], _, le_refl _, rfl⟩
  | recordInitialize record authority =>
    obtain ⟨space, -, -, rfl⟩ := recordInitialize_some landed
    exact .inl rfl
  | recordWrite record signer offset bytes =>
    obtain ⟨region, -, -, rfl⟩ := recordWrite_some landed
    exact .inl rfl
  | recordCloseAccount record signer receiver =>
    obtain ⟨region, -, -, rfl⟩ := recordCloseAccount_some landed
    exact .inr ⟨record, by simp [Instruction.lamportKeys], receiver,
      by simp [Instruction.lamportKeys], _, le_refl _, rfl⟩
  | reallocate account payer owner multisigSigners =>
    obtain ⟨token, -, -, funded, rfl⟩ := reallocate_some landed
    exact .inr ⟨payer, by simp [Instruction.lamportKeys], account,
      by simp [Instruction.lamportKeys], _, funded, rfl⟩
  | configureAccount account mint zero maximum authority multisigSigners proofContext =>
    obtain ⟨token, state, settings, pubkey, closer, proof, -, -, -, -, -, -, -, -, rfl⟩ :=
      configureAccount_some landed
    exact .inl rfl
  | deposit account mint amount decimals authority multisigSigners =>
    obtain ⟨token, state, confidential, credited, -, -, -, -, -, -, -, -, rfl⟩ :=
      deposit_some landed
    exact .inl rfl
  | applyPendingBalance account counter decryptable authority multisigSigners =>
    obtain ⟨token, confidential, applied, -, -, -, -, rfl⟩ := applyPendingBalance_some landed
    exact .inl rfl
  | withdraw account mint amount decimals decryptable authority multisigSigners first second =>
    obtain ⟨token, state, confidential, equality, range, withdrawn, -, -, -, -, -, -, -, -, -,
      rfl⟩ := withdraw_some landed
    exact .inl rfl
  | innerTransfer source mint destination decryptable lo hi authority signers first second third =>
    obtain ⟨equality, validity, range, middle, -, -, -, debit, credit⟩ := innerTransfer_some landed
    obtain ⟨token, confidential, debited, -, -, -, -, -, rfl⟩ := transferOut_some debit
    obtain ⟨token, confidential, credited, -, -, -, -, rfl⟩ := transferIn_some credit
    exact .inl rfl
  | initializeConfidentialTransferMint mint authority autoApprove auditor =>
    obtain ⟨space, -, rfl⟩ := initializeConfidentialTransferMint_some landed
    exact .inl rfl
  | initializeMint mint mintAuthority decimals =>
    obtain ⟨settings, -, rfl⟩ := initializeMint_some landed
    exact .inl rfl
  | createAssociatedTokenAccountIdempotent funder wallet mint =>
    rcases createAssociatedTokenAccountIdempotent_some landed with
        ⟨token, -, -, -, rfl⟩ | ⟨-, funded, -, rfl⟩
    · exact .inl rfl
    · exact .inr ⟨funder, by simp [Instruction.lamportKeys], _,
        by simp [Instruction.lamportKeys], _, funded, rfl⟩
  | mintTo mint account authority multisigSigners amount =>
    obtain ⟨state, token, -, -, -, -, -, rfl⟩ := mintTo_some landed
    exact .inl rfl

/-- The lamports at any other address than the two of a move are unchanged. -/
theorem moveLamports_other {source destination : Pubkey} {amount : Nat} {key : Pubkey}
    (notSource : key ≠ source) (notDestination : key ≠ destination) :
    (ledger.moveLamports source destination amount).lamports key = ledger.lamports key := by
  simp [moveLamports, notSource, notDestination]

/-- Lamports that an instruction does not name stay where they are. -/
theorem execInstruction_lamports_other
    (landed : ledger.execInstruction cluster instruction = some ledger') {key : Pubkey}
    (apart : key ∉ instruction.lamportKeys) : ledger'.lamports key = ledger.lamports key := by
  rcases execInstruction_lamports landed with
      same | ⟨source, fromHere, destination, toHere, amount, -, moved⟩
  · rw [same]
  · rw [moved]
    exact moveLamports_other (fun same => apart (same ▸ fromHere))
      (fun same => apart (same ▸ toHere))

/-- The lamports a set of addresses holds together. -/
def held (ledger : Ledger) (keys : Finset Pubkey) : Nat := ∑ key ∈ keys, ledger.lamports key

/-- Moving lamports inside a set keeps what the set holds. -/
theorem held_moveLamports {keys : Finset Pubkey} {source destination : Pubkey} {amount : Nat}
    (fromHere : source ∈ keys) (toHere : destination ∈ keys)
    (funded : amount ≤ ledger.lamports source) :
    (ledger.moveLamports source destination amount).held keys = ledger.held keys := by
  have arrived : ∑ key ∈ keys, (if key = destination then amount else 0) = amount := by
    simp [toHere]
  have left : ∑ key ∈ keys, (if key = source then amount else 0) = amount := by
    simp [fromHere]
  have split : ledger.held keys =
      ∑ key ∈ keys, (if key = source then ledger.lamports key - amount else ledger.lamports key) +
        ∑ key ∈ keys, (if key = source then amount else 0) := by
    rw [held, ← Finset.sum_add_distrib]
    refine Finset.sum_congr rfl fun key _ => ?_
    by_cases here : key = source
    · subst here
      simp only [if_true]
      omega
    · simp [here]
  rw [split, left]
  simp only [held, moveLamports, Finset.sum_add_distrib, arrived]

/-- A landed instruction keeps what a set holds when the set contains the addresses it names. -/
theorem execInstruction_held (landed : ledger.execInstruction cluster instruction = some ledger')
    {keys : Finset Pubkey} (inside : ∀ key ∈ instruction.lamportKeys, key ∈ keys) :
    ledger'.held keys = ledger.held keys := by
  rcases execInstruction_lamports landed with
      same | ⟨source, fromHere, destination, toHere, amount, funded, moved⟩
  · simp only [held, same]
  · have moving := held_moveLamports (inside _ fromHere) (inside _ toHere) funded
    simpa only [held, moved] using moving

/-- Charging a fee to a member takes exactly the fee from the set. -/
theorem held_chargeFee {keys : Finset Pubkey} {payer : Pubkey} {fee : Nat} (member : payer ∈ keys)
    (funded : fee ≤ ledger.lamports payer) :
    (ledger.chargeFee payer fee).held keys + fee = ledger.held keys := by
  have before := Finset.add_sum_erase keys ledger.lamports member
  have after := Finset.add_sum_erase keys (ledger.chargeFee payer fee).lamports member
  have others : ∑ key ∈ keys.erase payer, (ledger.chargeFee payer fee).lamports key =
      ∑ key ∈ keys.erase payer, ledger.lamports key := by
    refine Finset.sum_congr rfl fun key inside => ?_
    simp [chargeFee, Finset.ne_of_mem_erase inside]
  have charged : (ledger.chargeFee payer fee).lamports payer = ledger.lamports payer - fee := by
    simp [chargeFee]
  unfold held
  omega

/-! ## Whole transactions -/

/-- What every instruction of a list preserves, running the list preserves. -/
theorem execInstructions_preserves (property : Ledger → Prop) {instructions : List Instruction}
    (step : ∀ instruction ∈ instructions, ∀ before after : Ledger,
      before.execInstruction cluster instruction = some after → property before → property after)
    (landed : ledger.execInstructions cluster instructions = some ledger')
    (start : property ledger) : property ledger' := by
  induction instructions generalizing ledger with
  | nil =>
    obtain rfl := Option.some.inj landed
    exact start
  | cons instruction rest ih =>
    obtain ⟨next, first, remaining⟩ := Option.bind_eq_some_iff.mp landed
    refine ih (fun later member => step later (List.mem_cons_of_mem _ member)) remaining ?_
    exact step instruction List.mem_cons_self _ _ first start

/-- A landed transaction was signed and funded, and its instructions ran after its fee. -/
theorem execTransaction_some {transaction : Transaction}
    (landed : ledger.execTransaction cluster transaction = some ledger') :
    transaction.SignedExactly ∧ cluster.fee transaction ≤ ledger.lamports transaction.payer ∧
      (ledger.chargeFee transaction.payer (cluster.fee transaction)).execInstructions cluster
        transaction.instructions = some ledger' := by
  unfold execTransaction at landed
  split at landed
  · rename_i accepted
    exact ⟨accepted.1, accepted.2, landed⟩
  · contradiction

/-- What every transaction of a list preserves, landing the list preserves. -/
theorem execTransactions_preserves (property : Ledger → Prop) {transactions : List Transaction}
    (step : ∀ transaction ∈ transactions, ∀ before after : Ledger,
      before.execTransaction cluster transaction = some after → property before → property after)
    (landed : ledger.execTransactions cluster transactions = some ledger')
    (start : property ledger) : property ledger' := by
  induction transactions generalizing ledger with
  | nil =>
    obtain rfl := Option.some.inj landed
    exact start
  | cons transaction rest ih =>
    obtain ⟨next, first, remaining⟩ := Option.bind_eq_some_iff.mp landed
    refine ih (fun later member => step later (List.mem_cons_of_mem _ member)) remaining ?_
    exact step transaction List.mem_cons_self _ _ first start

/-- A property of the data alone is preserved by a transaction when its instructions preserve
it. -/
theorem execTransaction_preserves_data (property : (Pubkey → AccountData) → Prop)
    {transaction : Transaction}
    (step : ∀ instruction ∈ transaction.instructions, ∀ before after : Ledger,
      before.execInstruction cluster instruction = some after →
        property before.data → property after.data)
    (landed : ledger.execTransaction cluster transaction = some ledger')
    (start : property ledger.data) : property ledger'.data := by
  obtain ⟨-, -, ran⟩ := execTransaction_some landed
  exact execInstructions_preserves (fun ledger => property ledger.data) step ran start

/-- Addresses that no instruction of a transaction writes keep their data. -/
theorem execTransaction_data {transaction : Transaction}
    (landed : ledger.execTransaction cluster transaction = some ledger') {key : Pubkey}
    (apart : ∀ instruction ∈ transaction.instructions, key ∉ instruction.writes) :
    ledger'.data key = ledger.data key :=
  execTransaction_preserves_data (fun data => data key = ledger.data key)
    (fun instruction member _ _ ran same =>
      (execInstruction_data ran (apart instruction member)).trans same) landed rfl

/-- Token accounts that no instruction of a transaction writes are unchanged. -/
theorem execTransaction_token? {transaction : Transaction}
    (landed : ledger.execTransaction cluster transaction = some ledger') {key : Pubkey}
    (apart : ∀ instruction ∈ transaction.instructions, key ∉ instruction.tokenWrites) :
    (ledger'.data key).token? = (ledger.data key).token? :=
  execTransaction_preserves_data
    (fun data => (data key).token? = (ledger.data key).token?)
    (fun instruction member _ _ ran same =>
      (execInstruction_token? ran (apart instruction member)).trans same) landed rfl

/-- Addresses that no landed transaction writes keep their data. -/
theorem execTransactions_data {transactions : List Transaction}
    (landed : ledger.execTransactions cluster transactions = some ledger') {key : Pubkey}
    (apart : ∀ transaction ∈ transactions, ∀ instruction ∈ transaction.instructions,
      key ∉ instruction.writes) :
    ledger'.data key = ledger.data key :=
  execTransactions_preserves (fun now => now.data key = ledger.data key)
    (fun transaction member _ _ ran same =>
      (execTransaction_data ran (apart transaction member)).trans same) landed rfl

/-- Token accounts that no landed transaction writes are unchanged. -/
theorem execTransactions_token? {transactions : List Transaction}
    (landed : ledger.execTransactions cluster transactions = some ledger') {key : Pubkey}
    (apart : ∀ transaction ∈ transactions, ∀ instruction ∈ transaction.instructions,
      key ∉ instruction.tokenWrites) :
    (ledger'.data key).token? = (ledger.data key).token? :=
  execTransactions_preserves
    (fun now => (now.data key).token? = (ledger.data key).token?)
    (fun transaction member _ _ ran same =>
      (execTransaction_token? ran (apart transaction member)).trans same) landed rfl

/-! ## Traces -/

/-- The executed instructions of a list, each with the ledger it ran on. -/
def executedInstructions (cluster : Cluster) (ledger : Ledger) :
    List Instruction → List (Ledger × Instruction)
  | [] => []
  | instruction :: rest =>
    (ledger, instruction) ::
      match ledger.execInstruction cluster instruction with
      | some next => next.executedInstructions cluster rest
      | none => []

/-- The executed instructions of landed transactions, each with the ledger it ran on. -/
def executed (cluster : Cluster) (ledger : Ledger) :
    List Transaction → List (Ledger × Instruction)
  | [] => []
  | transaction :: rest =>
    (ledger.chargeFee transaction.payer (cluster.fee transaction)).executedInstructions cluster
        transaction.instructions ++
      match ledger.execTransaction cluster transaction with
      | some next => next.executed cluster rest
      | none => []

/-- The trace of a list starts with its first instruction. -/
theorem executedInstructions_cons {instruction : Instruction} (rest : List Instruction)
    {next : Ledger} (ran : ledger.execInstruction cluster instruction = some next) :
    ledger.executedInstructions cluster (instruction :: rest) =
      (ledger, instruction) :: next.executedInstructions cluster rest := by
  simp [executedInstructions, ran]

/-- The trace of landed transactions starts with the first one's. -/
theorem executed_cons {transaction : Transaction} {rest : List Transaction} {next : Ledger}
    (ran : ledger.execTransaction cluster transaction = some next) :
    ledger.executed cluster (transaction :: rest) =
      (ledger.chargeFee transaction.payer (cluster.fee transaction)).executedInstructions cluster
          transaction.instructions ++ next.executed cluster rest := by
  simp [executed, ran]

/-- The trace of a list that ran is the list. -/
theorem executedInstructions_map {instructions : List Instruction}
    (landed : ledger.execInstructions cluster instructions = some ledger') :
    (ledger.executedInstructions cluster instructions).map Prod.snd = instructions := by
  induction instructions generalizing ledger with
  | nil => rfl
  | cons instruction rest ih =>
    obtain ⟨next, first, remaining⟩ := Option.bind_eq_some_iff.mp landed
    rw [executedInstructions_cons _ first, List.map_cons, ih remaining]

/-- The trace of landed transactions is their instructions. -/
theorem executed_map {transactions : List Transaction}
    (landed : ledger.execTransactions cluster transactions = some ledger') :
    (ledger.executed cluster transactions).map Prod.snd =
      transactions.flatMap Transaction.instructions := by
  induction transactions generalizing ledger with
  | nil => rfl
  | cons transaction rest ih =>
    obtain ⟨next, first, remaining⟩ := Option.bind_eq_some_iff.mp landed
    obtain ⟨-, -, ran⟩ := execTransaction_some first
    rw [executed_cons first, List.map_append, executedInstructions_map ran, ih remaining,
      List.flatMap_cons]

/-- The trace of a concatenation is that of its parts, the second from where the first ended. -/
theorem executed_append {first second : List Transaction} {middle : Ledger}
    (landed : ledger.execTransactions cluster first = some middle) :
    ledger.executed cluster (first ++ second) =
      ledger.executed cluster first ++ middle.executed cluster second := by
  induction first generalizing ledger with
  | nil =>
    obtain rfl := Option.some.inj landed
    rfl
  | cons transaction rest ih =>
    obtain ⟨next, ran, remaining⟩ := Option.bind_eq_some_iff.mp landed
    rw [List.cons_append, executed_cons ran, executed_cons ran, ih remaining, List.append_assoc]

/-- A transaction whose instructions write no token account. -/
def TokenQuiet (transaction : Transaction) : Prop :=
  ∀ instruction ∈ transaction.instructions, instruction.tokenWrites = []

/-- Landing transactions that write no token account changes none. -/
theorem execTransactions_quiet {transactions : List Transaction}
    (landed : ledger.execTransactions cluster transactions = some ledger')
    (quiet : ∀ transaction ∈ transactions, TokenQuiet transaction) (key : Pubkey) :
    (ledger'.data key).token? = (ledger.data key).token? :=
  execTransactions_token? landed fun transaction member instruction inside => by
    simp [quiet transaction member instruction inside]

/-- Running a first instruction and then ones that write no token account. -/
theorem execTransaction_head {transaction : Transaction} {first : Instruction}
    {rest : List Instruction} (shape : transaction.instructions = first :: rest)
    (quiet : ∀ instruction ∈ rest, instruction.tokenWrites = [])
    (landed : ledger.execTransaction cluster transaction = some ledger') :
    ∃ middle, (ledger.chargeFee transaction.payer (cluster.fee transaction)).execInstruction
        cluster first = some middle ∧
      ∀ key, (ledger'.data key).token? = (middle.data key).token? := by
  obtain ⟨-, -, ran⟩ := execTransaction_some landed
  rw [shape] at ran
  obtain ⟨middle, executed, remaining⟩ := Option.bind_eq_some_iff.mp ran
  refine ⟨middle, executed, fun key => ?_⟩
  exact execInstructions_preserves
    (fun now => (now.data key).token? = (middle.data key).token?)
    (fun instruction member _ _ ran same =>
      (execInstruction_token? ran (by simp [quiet instruction member])).trans same) remaining rfl

/-- Of a plan with one transaction that writes token accounts, a landed beginning either stops
before it and changes none, or contains it, and then nothing else changes any. -/
theorem execTransactions_around {before after done rest : List Transaction}
    {transaction : Transaction} (split : done ++ rest = before ++ transaction :: after)
    (quietBefore : ∀ transaction ∈ before, TokenQuiet transaction)
    (quietAfter : ∀ transaction ∈ after, TokenQuiet transaction)
    (landed : ledger.execTransactions cluster done = some ledger') :
    (transaction :: after <:+ rest ∧
      ∀ key, (ledger'.data key).token? = (ledger.data key).token?) ∨
    ∃ first second, ledger.execTransactions cluster before = some first ∧
      (∀ key, (first.data key).token? = (ledger.data key).token?) ∧
      first.execTransaction cluster transaction = some second ∧
      ∀ key, (ledger'.data key).token? = (second.data key).token? := by
  rcases List.append_eq_append_iff.mp split with ⟨more, early, rfl⟩ | ⟨more, rfl, late⟩
  · refine .inl ⟨⟨more, rfl⟩, execTransactions_quiet landed fun transaction member => ?_⟩
    exact quietBefore transaction (early ▸ List.mem_append_left more member)
  cases more with
  | nil =>
    rw [List.append_nil] at landed
    refine .inl ⟨⟨[], by simpa using late⟩, execTransactions_quiet landed quietBefore⟩
  | cons head tail =>
    obtain ⟨rfl, rfl⟩ : transaction = head ∧ after = tail ++ rest := by simpa using late
    rw [execTransactions_append] at landed
    obtain ⟨first, ranBefore, ranRest⟩ := Option.bind_eq_some_iff.mp landed
    obtain ⟨second, ran, ranAfter⟩ := Option.bind_eq_some_iff.mp ranRest
    refine .inr ⟨first, second, ranBefore, execTransactions_quiet ranBefore quietBefore, ran, ?_⟩
    exact execTransactions_quiet ranAfter fun transaction member =>
      quietAfter transaction (List.mem_append_left rest member)

/-- The fees of some transactions. -/
def fees (cluster : Cluster) (transactions : List Transaction) : Nat :=
  (transactions.map cluster.fee).sum

/-- The addresses a transaction may take lamports from or give them to. -/
def lamportKeys (transaction : Transaction) : List Pubkey :=
  transaction.payer :: transaction.instructions.flatMap Instruction.lamportKeys

/-- Lamports of an address that no landed transaction names stay where they are. -/
theorem execTransactions_lamports_other {transactions : List Transaction}
    (landed : ledger.execTransactions cluster transactions = some ledger') {key : Pubkey}
    (apart : ∀ transaction ∈ transactions, key ∉ lamportKeys transaction) :
    ledger'.lamports key = ledger.lamports key := by
  refine execTransactions_preserves
    (fun now => now.lamports key = ledger.lamports key) ?_ landed rfl
  intro transaction member before after ran same
  obtain ⟨-, -, rest⟩ := execTransaction_some ran
  have outside := apart transaction member
  simp only [lamportKeys, List.mem_cons, List.mem_flatMap, not_or, not_exists, not_and] at outside
  refine execInstructions_preserves
    (fun now => now.lamports key = ledger.lamports key) ?_ rest ?_
  · intro instruction inside _ _ executed kept
    exact (execInstruction_lamports_other executed (outside.2 instruction inside)).trans kept
  · simpa [chargeFee, outside.1] using same

/-- A set that contains every address some transactions name loses exactly their fees. -/
theorem execTransactions_held {transactions : List Transaction}
    (landed : ledger.execTransactions cluster transactions = some ledger') {keys : Finset Pubkey}
    (inside : ∀ transaction ∈ transactions, ∀ key ∈ lamportKeys transaction, key ∈ keys) :
    ledger'.held keys + fees cluster transactions = ledger.held keys := by
  induction transactions generalizing ledger with
  | nil =>
    obtain rfl := Option.some.inj landed
    simp [fees]
  | cons transaction rest ih =>
    obtain ⟨next, first, remaining⟩ := Option.bind_eq_some_iff.mp landed
    have later := ih remaining fun other member => inside other (List.mem_cons_of_mem _ member)
    obtain ⟨-, funded, ran⟩ := execTransaction_some first
    have named := inside transaction List.mem_cons_self
    simp only [lamportKeys, List.mem_cons, List.mem_flatMap] at named
    have charged : (ledger.chargeFee transaction.payer (cluster.fee transaction)).held keys +
        cluster.fee transaction = ledger.held keys := held_chargeFee (named _ (.inl rfl)) funded
    have kept : next.held keys =
        (ledger.chargeFee transaction.payer (cluster.fee transaction)).held keys :=
      execInstructions_preserves (fun now => now.held keys =
          (ledger.chargeFee transaction.payer (cluster.fee transaction)).held keys)
        (fun instruction member _ _ executed same =>
          (execInstruction_held executed fun key mem =>
            named key (.inr ⟨instruction, member, mem⟩)).trans same) ran rfl
    simp only [fees, List.map_cons, List.sum_cons] at later ⊢
    omega

end Ledger

end ConfidentialBalances
