import ConfidentialBalances.Exchanges
import ConfidentialBalances.IdealProofs
import ConfidentialBalances.Operations

/-!
# Signing

Which of the operations sign every transaction they build with exactly the keys
its message requires. A transaction signed otherwise is never sent: building it
panics.
-/

namespace ConfidentialBalances

open Effect

/-- A request to sign a transaction is in order when the signers are the required ones. -/
def Call.Signed : Call → Prop
  | .newSignedWithPayer transaction => transaction.SignedExactly
  | _ => True

/-- Every transaction the program can build is signed by exactly its required signers. -/
def SignsExactly {α : Type} (program : Client α) : Prop := program.Uses Call.Signed

section Rules

variable {α β : Type}

/-- Returning a computed result signs nothing. -/
theorem signsExactly_ofExcept (result : Except ClientError α) :
    SignsExactly (Program.ofExcept result : Client α) := by
  cases result <;> trivial

/-- A silent program asks for no signature of a transaction. -/
theorem SilentBut.signsExactly {skipped : Exchange Reply → Bool} {program : Client α}
    (silent : SilentBut skipped program) : SignsExactly program := by
  refine silent.uses fun request asks => ?_
  cases request with
  | newSignedWithPayer transaction => exact asks.elim
  | _ => trivial

/-- Emitting an event signs nothing. -/
theorem signsExactly_emit (sink : ProgressSink) (event : TransferProgress) :
    SignsExactly (emit sink event) := by
  cases sink with
  | none => trivial
  | broadcast => exact ⟨trivial, fun _ => trivial⟩

/-- `send_tx` is in order exactly when the signers it is given are the required ones. -/
theorem signsExactly_sendTx (instructions : List Instruction) (signers : List Pubkey)
    (payer : Pubkey) :
    SignsExactly (sendTx instructions signers payer) ↔
      Transaction.SignedExactly ⟨instructions, payer, signers⟩ := by
  constructor
  · intro signs
    exact (signs.2 (.ok ())).1
  · exact fun signed => uses_sendTx trivial signed fun _ => trivial

end Rules

/-! ## The operations' transactions -/

section Transactions

variable (sdk : Sdk) (payer owner : Wallet)

/-- A transaction that creates and verifies a context needs the payer and the new account. -/
theorem createAndVerify_signed (proofType : ProofType) (account : Pubkey) (rent : Nat)
    (proof : List UInt8) (signers : List Pubkey) :
    Transaction.SignedExactly
        ⟨createAndVerify sdk payer owner proofType account rent proof, payer.pubkey, signers⟩ ↔
      ∀ key, key ∈ signers ↔ key = payer.pubkey ∨ key = account := by
  simp [Transaction.SignedExactly, Transaction.requiredSigners, createAndVerify,
    Instruction.signers]

/-- A transaction whose instructions mark the owner alone needs the payer and the owner. -/
theorem owner_signed (instruction : Instruction) (signs : instruction.signers = [owner.pubkey]) :
    Transaction.SignedExactly ⟨[instruction], payer.pubkey, [payer.pubkey, owner.pubkey]⟩ := by
  simp [Transaction.SignedExactly, Transaction.requiredSigners, signs]

/-- Configuring is signed by the owner, the payer and the new context account. -/
theorem configureInstructions_signed (mint proofAccount : Pubkey) (rent : Nat)
    (decryptable : AeCiphertext) (proof : List UInt8) :
    Transaction.SignedExactly
      ⟨configureInstructions sdk payer owner mint proofAccount rent decryptable proof,
        payer.pubkey, [owner.pubkey, payer.pubkey, proofAccount]⟩ := by
  intro key
  simp only [Transaction.requiredSigners, configureInstructions, createAndVerify,
    Instruction.signers, ownerSigners, List.isEmpty_cons, List.isEmpty_nil, List.flatMap_cons,
    List.flatMap_nil, List.cons_append, List.nil_append, List.mem_cons, List.not_mem_nil,
    Bool.false_eq_true, if_false, if_true, or_false]
  tauto

/-- The transfer with its closes is signed by the payer and the sender. -/
theorem transferInstructions_signed (mint recipient : Pubkey) (decryptable : AeCiphertext)
    (lo hi : ElGamalCiphertext) (equality validity range record : Pubkey) :
    Transaction.SignedExactly
      ⟨transferInstructions payer owner mint recipient decryptable lo hi equality validity range
        record, payer.pubkey, [payer.pubkey, owner.pubkey]⟩ := by
  intro key
  simp only [Transaction.requiredSigners, transferInstructions, Instruction.signers, ownerSigners,
    List.isEmpty_nil, List.flatMap_cons, List.flatMap_nil, List.cons_append, List.nil_append,
    List.mem_cons, List.not_mem_nil, if_true, or_false]
  tauto

/-- The trailing signers are what the trailing instructions need besides the payer. -/
def TrailingSigned (trailingIxs : List Instruction) (trailingSigners : List Pubkey) : Prop :=
  ∀ key, key = payer.pubkey ∨ key ∈ trailingSigners ↔
    key = payer.pubkey ∨ key ∈ trailingIxs.flatMap Instruction.signers

/-- Verifying from the record needs the payer and the range account. -/
theorem rangeInstructions_signed (range record : Pubkey) (rent : Nat) :
    TrailingSigned payer (rangeInstructions sdk payer owner range record rent) [range] := by
  intro key
  simp [rangeInstructions, Instruction.signers]

variable (record : Pubkey) {trailingIxs : List Instruction} {trailingSigners : List Pubkey}

/-- A later write is signed by the payer, and by the trailing signers when it is the last. -/
theorem writeInstructions_signed (trailing : TrailingSigned payer trailingIxs trailingSigners)
    (offset : Nat) (chunk : List UInt8) (last : Bool) :
    Transaction.SignedExactly ⟨writeInstructions payer record trailingIxs offset chunk last,
      payer.pubkey, writeSigners payer trailingSigners last⟩ := by
  intro key
  cases last with
  | false => simp [Transaction.requiredSigners, writeInstructions, writeSigners,
      Instruction.signers]
  | true =>
    simp only [Transaction.requiredSigners, writeInstructions, writeSigners, Instruction.signers,
      if_true, List.flatMap_cons, List.mem_cons, List.mem_append, List.not_mem_nil, or_false]
    rw [trailing key]
    tauto

/-- The loop over the chunks signs every write in order. -/
theorem signsExactly_writeChunks (trailing : TrailingSigned payer trailingIxs trailingSigners)
    (remaining : List (List UInt8)) (offset : Nat) (sigs : List Signature)
    (trailingAttached : Bool) :
    SignsExactly (writeChunks payer record trailingIxs trailingSigners remaining offset sigs
      trailingAttached) := by
  induction remaining generalizing offset sigs trailingAttached with
  | nil => trivial
  | cons chunk rest ih =>
    refine Program.Uses.bind ?_ fun sig => ih _ _ _
    exact (signsExactly_sendTx _ _ _).mpr (writeInstructions_signed payer record trailing _ _ _)

/-- Staging signs every transaction in order, whatever the length of the proof. -/
theorem signsExactly_stageRangeProofRecord
    (trailing : TrailingSigned payer trailingIxs trailingSigners) (proofBytes : List UInt8) :
    SignsExactly (stageRangeProofRecord payer record trailingIxs trailingSigners proofBytes) := by
  refine Program.Uses.bind (silent_getMinimumBalanceForRentExemption _).signsExactly fun rent => ?_
  split
  · trivial
  · refine Program.Uses.bind ((signsExactly_sendTx _ _ _).mpr ?_) fun sig => ?_
    · intro key
      simp only [Transaction.requiredSigners, stageInstructions, Instruction.signers,
        List.flatMap_cons, List.flatMap_nil, List.cons_append, List.nil_append, List.mem_cons,
        List.not_mem_nil, or_false]
      tauto
    · refine Program.Uses.bind (signsExactly_writeChunks payer record trailing _ _ _ _) ?_
      rintro ⟨sigs, trailingAttached⟩
      cases trailingAttached with
      | true => trivial
      | false =>
        refine Program.Uses.bind ((signsExactly_sendTx _ _ _).mpr ?_) fun _ => trivial
        intro key
        simpa [Transaction.requiredSigners] using trailing key

end Transactions

/-! ## The operations -/

section Operations

variable (sdk : Sdk) (payer owner : Wallet) (mint : Pubkey)

/-- Wrapping the signature signs nothing. -/
theorem signsExactly_single (program : Client Signature) :
    SignsExactly (Operation.single program) ↔ SignsExactly program := by
  constructor
  · intro signs
    exact ((Program.uses_bind _ _ _).mp signs).1
  · intro signs
    exact Program.Uses.bind signs fun _ => trivial

/-- Configuring signs its transaction in order. -/
theorem signsExactly_configure :
    SignsExactly (configureAccountForConfidentialTransfers sdk payer owner mint) := by
  refine Program.Uses.bind (silent_deriveConfidentialKeys owner).signsExactly fun keys => ?_
  refine Program.Uses.bind (signsExactly_ofExcept _) fun proofData => ?_
  refine Program.Uses.bind silent_newKeypair.signsExactly fun proofAccount => ?_
  refine Program.Uses.bind (silent_getMinimumBalanceForRentExemption _).signsExactly fun rent => ?_
  exact (signsExactly_sendTx _ _ _).mpr (configureInstructions_signed _ _ _ _ _ _ _ _)

/-- Depositing signs its transaction in order. -/
theorem signsExactly_deposit (amount decimals : Nat) :
    SignsExactly (depositToConfidential payer owner mint amount decimals) :=
  (signsExactly_sendTx _ _ _).mpr (owner_signed payer owner _ rfl)

/-- Applying signs its transaction in order. -/
theorem signsExactly_applyPending : SignsExactly (applyPendingBalance payer owner mint) := by
  refine Program.Uses.bind (silent_deriveConfidentialKeys owner).signsExactly fun keys => ?_
  refine Program.Uses.bind (silent_fetchConfidential _).signsExactly fun extension => ?_
  refine Program.Uses.bind (signsExactly_ofExcept _) fun values => ?_
  exact (signsExactly_sendTx _ _ _).mpr (owner_signed payer owner _ rfl)

/-- Emitting the stage events signs nothing. -/
theorem signsExactly_emitStages (progress : ProgressSink) (index : Nat) (sigs : List Signature) :
    SignsExactly (emitStages progress index sigs) := by
  induction sigs generalizing index with
  | nil => trivial
  | cons sig rest ih => exact (signsExactly_emit _ _).bind fun _ => ih _

/-- A transfer signs every transaction in order, whatever the length of the range proof. -/
theorem signsExactly_transfer (recipient : Pubkey) (amount : Nat) (progress : ProgressSink) :
    SignsExactly
      (transferConfidentialWithProgress sdk payer owner mint recipient amount progress) := by
  refine Program.Uses.bind (signsExactly_emit _ _) fun _ => ?_
  refine Program.Uses.bind (silent_fetchRecipientPubkey _).signsExactly fun _ => ?_
  refine Program.Uses.bind (silent_fetchAuditorPubkey _).signsExactly fun _ => ?_
  refine Program.Uses.bind (signsExactly_emit _ _) fun _ => ?_
  refine Program.Uses.bind ((silent_deriveConfidentialKeys owner).mapError _).signsExactly
    fun _ => ?_
  refine Program.Uses.bind (silent_fetchConfidential _).signsExactly fun _ => ?_
  refine Program.Uses.bind (signsExactly_emit _ _) fun _ => ?_
  refine Program.Uses.bind (signsExactly_ofExcept _) fun proofData => ?_
  refine Program.Uses.bind (signsExactly_emit _ _) fun _ => ?_
  -- 1. Equality proof
  refine Program.Uses.bind silent_newKeypair.signsExactly fun equalityAccount => ?_
  refine Program.Uses.bind (silent_getMinimumBalanceForRentExemption _).signsExactly fun _ => ?_
  refine Program.Uses.bind ((signsExactly_sendTx _ _ _).mpr
    ((createAndVerify_signed _ _ _ _ _ _ _ _).mpr (by simp))) fun _ => ?_
  refine Program.Uses.bind (signsExactly_emit _ _) fun _ => ?_
  -- 2. Ciphertext validity proof
  refine Program.Uses.bind silent_newKeypair.signsExactly fun validityAccount => ?_
  refine Program.Uses.bind (silent_getMinimumBalanceForRentExemption _).signsExactly fun _ => ?_
  refine Program.Uses.bind ((signsExactly_sendTx _ _ _).mpr
    ((createAndVerify_signed _ _ _ _ _ _ _ _).mpr (by simp))) fun _ => ?_
  refine Program.Uses.bind (signsExactly_emit _ _) fun _ => ?_
  -- 3. Range proof
  refine Program.Uses.bind silent_newKeypair.signsExactly fun recordAccount => ?_
  refine Program.Uses.bind silent_newKeypair.signsExactly fun rangeAccount => ?_
  refine Program.Uses.bind (silent_getMinimumBalanceForRentExemption _).signsExactly fun _ => ?_
  refine Program.Uses.bind (signsExactly_stageRangeProofRecord payer _
    (rangeInstructions_signed _ _ _ _ _ _) _) fun _ => ?_
  refine Program.Uses.bind (signsExactly_emitStages _ _ _) fun _ => ?_
  refine Program.Uses.bind (signsExactly_emit _ _) fun _ => ?_
  refine Program.Uses.bind (signsExactly_ofExcept _) fun _ => ?_
  refine Program.Uses.bind ((signsExactly_sendTx _ _ _).mpr
    (transferInstructions_signed _ _ _ _ _ _ _ _ _ _ _)) fun _ => ?_
  refine Program.Uses.bind (signsExactly_emit _ _) fun _ => ?_
  refine Program.Uses.bind (signsExactly_emit _ _) fun _ => ?_
  trivial

/-- Closing the contexts signs its transactions in order. -/
theorem signsExactly_closeContextStates (accounts : List Pubkey) (signatures : List Signature) :
    SignsExactly (closeContextStates payer owner accounts signatures) := by
  induction accounts generalizing signatures with
  | nil => trivial
  | cons account rest ih =>
    exact Program.Uses.bind ((signsExactly_sendTx _ _ _).mpr (owner_signed payer owner _ rfl))
      fun _ => ih _

/-- A payer that owns the account signs every transaction of a withdraw in order. -/
theorem signsExactly_withdraw_self (amount decimals : Nat) :
    SignsExactly (withdrawFromConfidential sdk owner owner mint amount decimals) := by
  refine Program.Uses.bind (silent_deriveConfidentialKeys owner).signsExactly fun _ => ?_
  refine Program.Uses.bind (silent_fetchConfidential _).signsExactly fun _ => ?_
  refine Program.Uses.bind (signsExactly_ofExcept _) fun _ => ?_
  refine Program.Uses.bind silent_newKeypair.signsExactly fun _ => ?_
  refine Program.Uses.bind (silent_getMinimumBalanceForRentExemption _).signsExactly fun _ => ?_
  refine Program.Uses.bind ((signsExactly_sendTx _ _ _).mpr
    ((createAndVerify_signed _ _ _ _ _ _ _ _).mpr (by simp))) fun _ => ?_
  refine Program.Uses.bind silent_newKeypair.signsExactly fun _ => ?_
  refine Program.Uses.bind (silent_getMinimumBalanceForRentExemption _).signsExactly fun _ => ?_
  refine Program.Uses.bind ((signsExactly_sendTx _ _ _).mpr
    ((createAndVerify_signed _ _ _ _ _ _ _ _).mpr (by simp))) fun _ => ?_
  refine Program.Uses.bind ((signsExactly_sendTx _ _ _).mpr
    (owner_signed owner owner _ rfl)) fun _ => ?_
  refine Program.Uses.bind (signsExactly_closeContextStates owner owner _ _) fun signatures => ?_
  split <;> trivial

/-- A withdraw of more than any decryptable balance computes nothing. -/
theorem withdrawValues_beyond (keys : ConfidentialKeys) (extension : ConfidentialTransferAccount)
    {amount : Nat} (beyond : ElGamalCiphertext.decryptBound ≤ amount) (values : WithdrawValues) :
    withdrawValues sdk keys extension amount ≠ .ok values := by
  unfold withdrawValues
  cases decrypted : extension.availableBalance.decryptU32 keys.elgamal with
  | none => simp [okOr, bind, Except.bind]
  | some current =>
    obtain ⟨-, bound⟩ := ElGamalCiphertext.decryptU32_some decrypted
    have short : current < amount := by omega
    simp [okOr, bind, Except.bind, short]

/-- A withdraw of more than any decryptable balance builds no transaction. -/
theorem signsExactly_withdraw_beyond {amount : Nat}
    (beyond : ElGamalCiphertext.decryptBound ≤ amount) (decimals : Nat) :
    SignsExactly (withdrawFromConfidential sdk payer owner mint amount decimals) := by
  refine Program.Uses.bind (silent_deriveConfidentialKeys owner).signsExactly fun keys => ?_
  refine Program.Uses.bind (silent_fetchConfidential _).signsExactly fun extension => ?_
  refine (Program.uses_bind _ _ _).mpr ⟨signsExactly_ofExcept _, fun values returned => ?_⟩
  cases computed : withdrawValues sdk keys extension amount with
  | ok values => exact absurd computed (withdrawValues_beyond sdk keys extension beyond values)
  | error reason =>
    rw [computed] at returned
    contradiction

/-- An account can be read with any confidential part. -/
theorem returns_fetchConfidential (account : Pubkey) (extension : ConfidentialTransferAccount) :
    (fetchConfidential account).Returns extension := by
  let token : TokenAccount := ⟨account, account, 0, true, some extension⟩
  refine (Program.returns_bind _ _ _).mpr ⟨.token token, ⟨.ok (.token token), rfl⟩, ?_⟩
  exact (Program.returns_bind _ _ _).mpr ⟨token, rfl, rfl⟩

/-- A payer other than the owner makes a withdraw of a decryptable amount build a transaction
that the owner is not asked to sign but is handed in for. -/
theorem not_signsExactly_withdraw (proves : sdk.ProvesWithdrawals) (other : payer ≠ owner)
    {amount : Nat} (bound : amount < ElGamalCiphertext.decryptBound) (decimals : Nat) :
    ¬ SignsExactly (withdrawFromConfidential sdk payer owner mint amount decimals) := by
  intro signs
  let key := owner.confidentialKeys.elgamal.pubkey
  let extension : ConfidentialTransferAccount := { ConfidentialTransferAccount.configured true key
    (owner.confidentialKeys.aes.encrypt 0) 0 with availableBalance := .ofAmount key amount }
  have decrypted : extension.availableBalance.decryptU32 owner.confidentialKeys.elgamal =
      some amount := by
    have encrypts : extension.availableBalance.amount = amount := rfl
    rw [ElGamalCiphertext.decryptU32_eq rfl encrypts, if_pos bound]
  obtain ⟨data, generated⟩ := proves _ _ _ _ decrypted (le_refl amount)
  have computed : withdrawValues sdk owner.confidentialKeys extension amount =
      .ok ⟨0, owner.confidentialKeys.aes.encrypt 0, data⟩ := by
    simp [withdrawValues, decrypted, okOr, bind, Except.bind, generated, labelError,
      Except.mapError]
  have afterKeys := ((Program.uses_bind _ _ _).mp signs).2 owner.confidentialKeys ⟨.ok (), rfl⟩
  have afterRead := ((Program.uses_bind _ _ _).mp afterKeys).2 extension
    (returns_fetchConfidential _ extension)
  have afterValues := ((Program.uses_bind _ _ _).mp afterRead).2
    ⟨0, owner.confidentialKeys.aes.encrypt 0, data⟩ (by rw [computed]; rfl)
  have afterKeypair := ((Program.uses_bind _ _ _).mp afterValues).2 (.generated 0) ⟨_, rfl⟩
  have afterRent := ((Program.uses_bind _ _ _).mp afterKeypair).2 0 ⟨.ok 0, rfl⟩
  have first := (signsExactly_sendTx _ _ _).mp ((Program.uses_bind _ _ _).mp afterRent).1
  have supplied := ((createAndVerify_signed _ _ _ _ _ _ _ _).mp first owner.pubkey).mp (by simp)
  simp [other.symm] at supplied

end Operations

/-! ## Which calls sign in order -/

/-- The calls whose signers fit: all but withdraws for another owner of an amount that a balance
can decrypt to. -/
def Operation.SignersFit : Operation → Prop
  | .withdraw payer authority _ amount _ =>
    payer = authority ∨ ElGamalCiphertext.decryptBound ≤ amount
  | _ => True

/-- Every transaction that a call can build is signed by exactly its required signers, exactly
when the call is not a withdraw, or its payer is the owner, or its amount is out of reach. -/
theorem Operation.signsExactly_iff (sdk : Sdk) (proves : sdk.ProvesWithdrawals)
    (operation : Operation) : SignsExactly (operation.program sdk) ↔ operation.SignersFit := by
  cases operation with
  | configure payer authority mint =>
    simp only [program, SignersFit, signsExactly_single, signsExactly_configure]
  | deposit payer authority mint amount decimals =>
    simp only [program, SignersFit, signsExactly_single, signsExactly_deposit]
  | applyPending payer authority mint =>
    simp only [program, SignersFit, signsExactly_single, signsExactly_applyPending]
  | transfer payer sender mint recipient amount progress =>
    simp only [program, SignersFit, signsExactly_transfer]
  | withdraw payer authority mint amount decimals =>
    simp only [program, SignersFit, signsExactly_single]
    constructor
    · intro signs
      by_contra unfit
      rw [not_or, not_le] at unfit
      exact not_signsExactly_withdraw sdk payer authority mint proves unfit.1 unfit.2 decimals signs
    · rintro (rfl | beyond)
      · exact signsExactly_withdraw_self sdk payer mint amount decimals
      · exact signsExactly_withdraw_beyond sdk payer authority mint beyond decimals

/-- The ideal proof generators prove every withdraw that the balance covers. -/
theorem Operation.signsExactly_iff_ideal :
    SignsExactly ((Operation.withdraw ⟨0⟩ ⟨1⟩ (.wallet ⟨2⟩) 1 0).program Sdk.ideal) ↔
      (Operation.withdraw ⟨0⟩ ⟨1⟩ (.wallet ⟨2⟩) 1 0).SignersFit :=
  Operation.signsExactly_iff Sdk.ideal Sdk.ideal_provesWithdrawals _

/-- A withdraw paid by another wallet than the owner panics at its first transaction, which is
not signed by exactly its required signers. -/
theorem withdraw_misSigned :
    ((chain Cluster.ideal).run ((Operation.withdraw ⟨0⟩ ⟨1⟩ (.wallet ⟨2⟩) 1 0).program Sdk.ideal)
        (.funded ⟨0⟩ ⟨1⟩ ⟨3⟩ (.wallet ⟨2⟩) 5) []).1 =
      .panic "Transaction::sign failed with error KeypairPubkeyMismatch" ∧
    ¬ SignsExactly ((Operation.withdraw ⟨0⟩ ⟨1⟩ (.wallet ⟨2⟩) 1 0).program Sdk.ideal) := by
  have reachable : 1 < ElGamalCiphertext.decryptBound := by decide
  refine ⟨by decide +kernel, fun signs => ?_⟩
  exact not_signsExactly_withdraw Sdk.ideal ⟨0⟩ ⟨1⟩ (.wallet ⟨2⟩) Sdk.ideal_provesWithdrawals
    (by decide) reachable 0 ((signsExactly_single _).mp signs)

end ConfidentialBalances
