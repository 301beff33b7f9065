import ConfidentialBalances.Effect.Within
import ConfidentialBalances.Transfer

/-!
# Who pays for a transfer

The requests a transfer makes, however it is answered: what it submits is paid
for by the payer alone, moves no other caller's lamports and writes to no
caller's address. The sender signs and is never charged.
-/

namespace ConfidentialBalances

open Effect

/-- What holds of every reply: a new keypair is a generated one, and what was signed is what was to
be signed. -/
def Call.Promised : (request : Call) → Reply request → Prop
  | .newKeypair, key => ∃ index, key = .generated index
  | .newSignedWithPayer transaction, reply => ∀ signed, reply = .ok signed → signed = transaction
  | _, _ => True

/-- The chain keeps the promise. -/
theorem chain_promises (cluster : Cluster) : (chainSystem cluster).Promises Call.Promised := by
  rintro world request reply world' ⟨choice, answer⟩
  cases request with
  | newKeypair => exact ⟨world.generated, (Prod.mk.inj answer).1.symm⟩
  | newSignedWithPayer transaction =>
    rintro signed rfl
    exact ((transaction.trySign_ok_iff signed).mp (Prod.mk.inj answer).1).2
  | _ => trivial

/-- Who funds the accounts that an instruction creates or enlarges. -/
def Instruction.funders : Instruction → List Pubkey
  | .createAccount funder _ _ _ _ => [funder]
  | .reallocate _ payer _ _ => [payer]
  | .createAssociatedTokenAccountIdempotent funder _ _ => [funder]
  | _ => []

/-- The payer funds what the instruction creates, its lamports move between the payer and generated
accounts, and it writes to no caller's own address. -/
structure Instruction.PaidBy (payer : Wallet) (instruction : Instruction) : Prop where
  /-- The payer is the only funder. -/
  funders : ∀ funder ∈ instruction.funders, funder = payer.pubkey
  /-- Only the payer and generated accounts give or take lamports. -/
  lamports : ∀ key ∈ instruction.lamportKeys, key = payer.pubkey ∨ ∃ index, key = .generated index
  /-- No caller's address is written. -/
  writes : ∀ wallet : Wallet, wallet.pubkey ∉ instruction.writes

/-- The payer pays the fee, and for every instruction. -/
structure Transaction.PaidBy (payer : Wallet) (transaction : Transaction) : Prop where
  /-- The fee payer. -/
  feePayer : transaction.payer = payer.pubkey
  /-- The instructions. -/
  instructions : ∀ instruction ∈ transaction.instructions, instruction.PaidBy payer

/-- The requests of a transfer: it submits what the payer pays for, reads no caller's own account
but the mint's and no balance of lamports, and leaves the event log alone. -/
def Call.PaidBy (payer : Wallet) (mint : Pubkey) : Call → Prop
  | .sendAndConfirmTransaction transaction => transaction.PaidBy payer
  | .getAccount key => ∀ wallet : Wallet, key = wallet.pubkey → key = mint
  | .getBalance _ => False
  | .readEvents => False
  | .writeEvents _ => False
  | _ => True

/-- The program asks for nothing but what a transfer may, and its values are as said. -/
abbrev Charges {α : Type} (payer : Wallet) (mint : Pubkey) (ok : α → Prop)
    (program : Client α) : Prop :=
  program.Within Call.Promised (Call.PaidBy payer mint) ok

section Rules

variable {α : Type} {payer : Wallet} {mint : Pubkey}

/-- Getting an account charges nobody. -/
theorem charges_getAccount {key : Pubkey}
    (apart : ∀ wallet : Wallet, key = wallet.pubkey → key = mint) :
    Charges payer mint (fun _ => True) (getAccount key) :=
  ⟨apart, fun _ _ => Program.within_ofExcept⟩

/-- Asking for the rent charges nobody. -/
theorem charges_rent (length : Nat) :
    Charges payer mint (fun _ => True) (getMinimumBalanceForRentExemption length) :=
  ⟨trivial, fun _ _ => Program.within_ofExcept⟩

/-- Generating a keypair charges nobody. -/
theorem charges_newKeypair :
    Charges payer mint (fun key => ∃ index, key = .generated index) newKeypair :=
  ⟨trivial, fun _ generated => Program.within_pure generated⟩

/-- A progress event charges nobody. -/
theorem charges_emit (sink : ProgressSink) (event : TransferProgress) :
    Charges payer mint (fun _ => True) (emit sink event) := by
  cases sink with
  | none => exact Program.within_pure trivial
  | broadcast => exact ⟨trivial, fun _ _ => Program.within_pure trivial⟩

/-- Deriving keys charges nobody. -/
theorem charges_deriveConfidentialKeys (signer : Wallet) :
    Charges payer mint (fun _ => True) (deriveConfidentialKeys signer) := by
  refine ⟨trivial, fun reply _ => ?_⟩
  cases reply with
  | ok _ => exact Program.within_pure trivial
  | error reason => exact Program.within_fail

/-- Fetching a confidential account charges nobody. -/
theorem charges_fetchConfidential (owner : Pubkey) :
    Charges payer mint (fun _ => True)
      (fetchConfidential (getAssociatedTokenAddress owner mint)) := by
  refine (charges_getAccount fun wallet same => ?_).bind fun _ _ =>
    Program.within_ofExcept.bind fun _ _ => Program.within_ofExcept
  exact absurd same (wallet.pubkey_ne_associated owner mint).symm

/-- `send_tx` submits its own transaction. -/
theorem within_sendTx {allowed : Call → Prop} {instructions : List Instruction}
    {signers : List Pubkey} {feePayer : Pubkey} (blockhash : allowed .getLatestBlockhash)
    (signs : allowed (.newSignedWithPayer ⟨instructions, feePayer, signers⟩))
    (sends : allowed (.sendAndConfirmTransaction ⟨instructions, feePayer, signers⟩)) :
    (sendTx instructions signers feePayer).Within Call.Promised allowed fun _ => True := by
  refine ⟨blockhash, fun _ _ => Program.within_ofExcept.bind fun _ _ => ⟨signs, ?_⟩⟩
  intro signing promised
  cases signing with
  | ok signed =>
    obtain rfl := promised signed rfl
    exact ⟨sends, fun _ _ => Program.within_ofExcept⟩
  | error reason => cases reason <;> exact Program.within_abort

/-- `send_tx` charges the payer when every instruction does. -/
theorem charges_sendTx {instructions : List Instruction} (signers : List Pubkey)
    (paid : ∀ instruction ∈ instructions, instruction.PaidBy payer) :
    Charges payer mint (fun _ => True) (sendTx instructions signers payer.pubkey) :=
  within_sendTx trivial trivial ⟨rfl, paid⟩

end Rules

/-! ## A transfer's instructions -/

section Instructions

variable (sdk : Sdk) (payer sender : Wallet)

/-- An instruction that moves no lamports is paid for by anyone, if it writes to no caller's
address. -/
theorem Instruction.PaidBy.of_free {instruction : Instruction}
    (unfunded : instruction.funders = []) (free : instruction.lamportKeys = [])
    (apart : ∀ wallet : Wallet, wallet.pubkey ∉ instruction.writes) : instruction.PaidBy payer :=
  ⟨by simp [unfunded], by simp [free], apart⟩

/-- Creating a generated account. -/
theorem Instruction.PaidBy.createAccount (index rent space : Nat) (owner : ProgramId) :
    (Instruction.createAccount payer.pubkey (.generated index) rent space owner).PaidBy payer :=
  ⟨by simp [Instruction.funders], by simp [Instruction.lamportKeys], by simp [Instruction.writes]⟩

/-- Closing a generated context. -/
theorem Instruction.PaidBy.closeContextState (index : Nat) :
    (Instruction.closeContextState ⟨.generated index, sender.pubkey⟩ payer.pubkey).PaidBy payer :=
  ⟨by simp [Instruction.funders], by simp [Instruction.lamportKeys], by simp [Instruction.writes]⟩

/-- Closing a generated record. -/
theorem Instruction.PaidBy.recordCloseAccount (index : Nat) :
    (Instruction.recordCloseAccount (.generated index) payer.pubkey payer.pubkey).PaidBy payer :=
  ⟨by simp [Instruction.funders], by simp [Instruction.lamportKeys], by simp [Instruction.writes]⟩

/-- Creating and verifying a context in a generated account. -/
theorem createAndVerify_paidBy (proofType : ProofType) (index rent : Nat) (proof : List UInt8) :
    ∀ instruction ∈ createAndVerify sdk payer sender proofType (.generated index) rent proof,
      instruction.PaidBy payer := by
  simp only [createAndVerify, List.mem_cons, List.not_mem_nil, or_false]
  rintro instruction (rfl | rfl)
  · exact .createAccount payer index _ _ _
  · exact .of_free payer rfl rfl (by simp [Instruction.writes])

/-- Verifying the range proof from a record. -/
theorem rangeInstructions_paidBy (index rent : Nat) (record : Pubkey) :
    ∀ instruction ∈ rangeInstructions sdk payer sender (.generated index) record rent,
      instruction.PaidBy payer := by
  simp only [rangeInstructions, List.mem_cons, List.not_mem_nil, or_false]
  rintro instruction (rfl | rfl)
  · exact .createAccount payer index _ _ _
  · exact .of_free payer rfl rfl (by simp [Instruction.writes])

/-- Writing to a generated record. -/
theorem recordWrite_paidBy (index offset : Nat) (bytes : List UInt8) :
    (Instruction.recordWrite (.generated index) payer.pubkey offset bytes).PaidBy payer :=
  .of_free payer rfl rfl (by simp [Instruction.writes])

/-- Starting a generated record. -/
theorem stageInstructions_paidBy (index rent space : Nat) (first : List UInt8) :
    ∀ instruction ∈ stageInstructions payer (.generated index) rent space first,
      instruction.PaidBy payer := by
  simp only [stageInstructions, List.mem_cons, List.not_mem_nil, or_false]
  rintro instruction (rfl | rfl | rfl)
  · exact .createAccount payer index _ _ _
  · exact .of_free payer rfl rfl (by simp [Instruction.writes])
  · exact recordWrite_paidBy payer index _ _

/-- The transfer with its closes. -/
theorem transferInstructions_paidBy (mint recipient : Pubkey) (decryptable : AeCiphertext)
    (lo hi : ElGamalCiphertext) (equality validity range record : Nat) :
    ∀ instruction ∈ transferInstructions payer sender mint recipient decryptable lo hi
        (.generated equality) (.generated validity) (.generated range) (.generated record),
      instruction.PaidBy payer := by
  simp only [transferInstructions, List.mem_cons, List.not_mem_nil, or_false]
  rintro instruction (rfl | rfl | rfl | rfl | rfl)
  · exact .of_free payer rfl rfl
      (by simp [Instruction.writes, getAssociatedTokenAddress])
  · exact .closeContextState payer sender _
  · exact .closeContextState payer sender _
  · exact .closeContextState payer sender _
  · exact .recordCloseAccount payer _

end Instructions

/-! ## A transfer's requests -/

section Requests

variable (sdk : Sdk) (payer sender : Wallet) {mint : Pubkey}

/-- The loop over the chunks adds a signature for each. -/
theorem charges_writeChunks {trailingIxs : List Instruction} (trailingSigners : List Pubkey)
    (paid : ∀ instruction ∈ trailingIxs, instruction.PaidBy payer) (index : Nat)
    (remaining : List (List UInt8)) (offset : Nat) (sigs : List Signature)
    (trailingAttached : Bool) :
    Charges payer mint (fun result => result.1.length = sigs.length + remaining.length ∧
        result.2 = (trailingAttached || !remaining.isEmpty))
      (writeChunks payer (.generated index) trailingIxs trailingSigners remaining offset sigs
        trailingAttached) := by
  induction remaining generalizing offset sigs trailingAttached with
  | nil => exact Program.within_pure (by simp)
  | cons chunk rest ih =>
    refine Program.Within.bind (charges_sendTx _ ?_) fun sig _ => (ih _ _ _).weaken
      (fun _ holds => holds) ?_
    · simp only [writeInstructions, List.mem_cons]
      rintro instruction (rfl | trailing)
      · exact recordWrite_paidBy payer index _ _
      · cases last : rest.isEmpty with
        | true => exact paid instruction (by simpa [last] using trailing)
        | false => simp [last] at trailing
    · rintro ⟨all, attached⟩ ⟨count, rides⟩
      refine ⟨by simp [count]; omega, ?_⟩
      rw [rides]
      cases rest <;> simp

/-- Staging submits two transactions at least. -/
theorem charges_stageRangeProofRecord {trailingIxs : List Instruction}
    (trailingSigners : List Pubkey)
    (paid : ∀ instruction ∈ trailingIxs, instruction.PaidBy payer) (index : Nat)
    (proofBytes : List UInt8) :
    Charges payer mint (fun sigs => 2 ≤ sigs.length)
      (stageRangeProofRecord payer (.generated index) trailingIxs trailingSigners proofBytes) := by
  refine Program.Within.bind (charges_rent _) fun rent _ => ?_
  split
  · exact Program.within_fail
  refine Program.Within.bind (charges_sendTx _ (stageInstructions_paidBy payer index _ _ _))
    fun sig _ => ?_
  refine Program.Within.bind (charges_writeChunks payer trailingSigners paid index _ _ _ _) ?_
  rintro ⟨sigs, trailingAttached⟩ ⟨count, attached⟩
  cases trailingAttached with
  | false =>
    refine Program.Within.bind (charges_sendTx _ paid) fun last _ => Program.within_pure ?_
    simp only [List.length_append, List.length_singleton] at count ⊢
    omega
  | true =>
    refine Program.within_pure ?_
    have more : 0 < (chunks recordWriteChunk
        (proofBytes.drop (min proofBytes.length recordFirstChunk))).length := by
      rw [List.length_pos_iff]
      rintro none
      simp [none] at attached
    simp only [List.length_singleton] at count
    omega

/-- Emitting the stage events submits nothing. -/
theorem charges_emitStages (progress : ProgressSink) (index : Nat) (sigs : List Signature) :
    Charges payer mint (fun _ => True) (emitStages progress index sigs) := by
  induction sigs generalizing index with
  | nil => exact Program.within_pure trivial
  | cons sig rest ih => exact (charges_emit _ _).bind fun _ _ => ih _

/-- Whatever a transfer is answered, the payer pays for all that it submits; a completed one has
five signatures at least. -/
theorem charges_transfer (mint recipient : Pubkey) (amount : Nat) (progress : ProgressSink) :
    Charges payer mint (fun sigs => 5 ≤ sigs.length)
      (transferConfidentialWithProgress sdk payer sender mint recipient amount progress) := by
  refine Program.Within.bind (charges_emit _ _) fun _ _ => ?_
  refine Program.Within.bind ((charges_fetchConfidential _).bind
    fun _ _ => Program.within_pure trivial) fun _ (_ : True) => ?_
  refine Program.Within.bind ((charges_getAccount fun _ _ => rfl).bind fun _ _ =>
    Program.within_ofExcept.bind fun _ _ => Program.within_ofExcept.bind
      fun _ _ => Program.within_pure trivial) fun _ (_ : True) => ?_
  refine Program.Within.bind (charges_emit _ _) fun _ _ => ?_
  refine Program.Within.bind ((charges_deriveConfidentialKeys sender).mapError _)
    fun keys _ => ?_
  refine Program.Within.bind (charges_fetchConfidential _) fun senderExt _ => ?_
  refine Program.Within.bind (charges_emit _ _) fun _ _ => ?_
  refine Program.Within.bind Program.within_ofExcept fun proofData _ => ?_
  refine Program.Within.bind (charges_emit _ _) fun _ _ => ?_
  -- 1. Equality proof
  refine Program.Within.bind charges_newKeypair ?_
  rintro _ ⟨equality, rfl⟩
  refine Program.Within.bind (charges_rent _) fun _ _ => ?_
  refine Program.Within.bind (charges_sendTx _ (createAndVerify_paidBy sdk payer sender _ _ _ _))
    fun equalitySig _ => ?_
  refine Program.Within.bind (charges_emit _ _) fun _ _ => ?_
  -- 2. Ciphertext validity proof
  refine Program.Within.bind charges_newKeypair ?_
  rintro _ ⟨validity, rfl⟩
  refine Program.Within.bind (charges_rent _) fun _ _ => ?_
  refine Program.Within.bind (charges_sendTx _ (createAndVerify_paidBy sdk payer sender _ _ _ _))
    fun validitySig _ => ?_
  refine Program.Within.bind (charges_emit _ _) fun _ _ => ?_
  -- 3. Range proof
  refine Program.Within.bind charges_newKeypair ?_
  rintro _ ⟨record, rfl⟩
  refine Program.Within.bind charges_newKeypair ?_
  rintro _ ⟨range, rfl⟩
  refine Program.Within.bind (charges_rent _) fun _ _ => ?_
  refine Program.Within.bind (charges_stageRangeProofRecord payer _
    (rangeInstructions_paidBy sdk payer sender _ _ _) _ _) fun recordSigs staged => ?_
  refine Program.Within.bind (charges_emitStages payer _ _ _) fun _ _ => ?_
  refine Program.Within.bind (charges_emit _ _) fun _ _ => ?_
  refine Program.Within.bind Program.within_ofExcept fun newDecryptable _ => ?_
  refine Program.Within.bind (charges_sendTx _
    (transferInstructions_paidBy payer sender _ _ _ _ _ _ _ _ _)) fun sig _ => ?_
  refine Program.Within.bind (charges_emit _ _) fun _ _ => ?_
  refine Program.Within.bind (charges_emit _ _) fun _ _ => ?_
  refine Program.within_pure ?_
  simp only [List.length_append, List.length_cons, List.length_nil]
  omega

end Requests

end ConfidentialBalances
