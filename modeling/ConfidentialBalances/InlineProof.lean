import ConfidentialBalances.PacketSize
import ConfidentialBalances.WithdrawOutcome

/-!
# Inline verification against the staged path

A withdraw puts its range proof into the verifying instruction, where a transfer
stages it through a record account. Which proof lengths the one path and which
the other can submit.
-/

namespace ConfidentialBalances

open Effect WireFormat

/-- What is documented of the instructions of a withdraw, besides those that stage. -/
structure WireFormat.DocumentedWithdraw (format : WireFormat) : Prop extends
    format.Documented where
  /-- `encode_verify_proof`. -/
  encodeVerifyProof : ∀ proofType (info : ContextStateInfo) proof,
    format.Encodes (.encodeVerifyProof proofType info proof) .zkElGamalProof
      [info.contextStateAccount, info.contextStateAuthority] (1 + proof.length)
  /-- `close_context_state`. -/
  closeContextState : ∀ (info : ContextStateInfo) destination,
    format.Encodes (.closeContextState info destination) .zkElGamalProof
      [info.contextStateAccount, destination, info.contextStateAuthority] 1
  /-- `withdraw`, with its proofs in context state accounts. -/
  withdraw : ∀ account mint amount decimals newDecryptable authority multisigSigners equality range,
    format.Encodes (.withdraw account mint amount decimals newDecryptable authority
      multisigSigners equality range) .splToken2022
      ([account, mint, equality, range, authority] ++ multisigSigners) 49

/-- The legacy format sizes what a withdraw sends as documented. -/
theorem WireFormat.documentedWithdraw_legacy : legacy.DocumentedWithdraw where
  toDocumented := documented_legacy
  encodeVerifyProof _ _ _ := ⟨rfl, rfl, rfl⟩
  closeContextState _ _ := ⟨rfl, rfl, rfl⟩
  withdraw _ _ _ _ _ _ _ _ _ := ⟨rfl, rfl, rfl⟩

/-- The length of an equality proof's data: 128 bytes of context and 192 bytes of proof. -/
def equalityProofLength : Nat := 128 + 192

/-- The longest proof that a transaction can verify inline into a new context account. -/
def inlineRoom (payer authority : Wallet) : Nat := if payer = authority then 874 else 842

section Withdraw

variable {format : WireFormat} (documented : format.DocumentedWithdraw)
include documented

/-- The size of the transaction that creates a context account and verifies a proof into it. -/
theorem size_createAndVerify (sdk : Sdk) (payer authority : Wallet) (proofType : ProofType)
    (index rent : Nat) (proof : List UInt8) (signers : List Pubkey) :
    format.size ⟨createAndVerify sdk payer authority proofType (.generated index) rent proof,
      payer.pubkey, signers⟩ = (if payer = authority then 356 else 388) +
        (lengthBytes (1 + proof.length) + proof.length) := by
  have keys : format.messageKeys ⟨createAndVerify sdk payer authority proofType (.generated index)
      rent proof, payer.pubkey, signers⟩ = [payer.pubkey, .program .system, payer.pubkey,
        .generated index, .program .zkElGamalProof, .generated index, authority.pubkey] := by
    simp only [messageKeys, createAndVerify, List.flatMap_cons, List.flatMap_nil,
      (documented.createAccount _ _ _ _ _).keys, (documented.encodeVerifyProof _ _ _).keys,
      List.cons_append, List.nil_append]
  have short : lengthBytes 52 = 1 := rfl
  refine (size_of_counts _ 2 (if payer = authority then 4 else 5)
    (62 + (lengthBytes (1 + proof.length) + proof.length)) ?_ ?_ ?_).trans (by split <;> omega)
  · simp [Transaction.requiredSigners, createAndVerify, Instruction.signers, Wallet.pubkey]
  · rw [keys]
    by_cases same : payer = authority <;> simp [Wallet.pubkey, same]
  · simp only [createAndVerify, List.map_cons, List.map_nil, List.sum_cons, List.sum_nil,
      (documented.createAccount _ _ _ _ _).size, (documented.encodeVerifyProof _ _ _).size,
      List.length_cons, List.length_nil, short]
    omega

/-- A proof verifies inline in one packet exactly when it has room there. -/
theorem createAndVerify_fits_iff (sdk : Sdk) (payer authority : Wallet) (proofType : ProofType)
    (index rent : Nat) (proof : List UInt8) (signers : List Pubkey) :
    format.Fits ⟨createAndVerify sdk payer authority proofType (.generated index) rent proof,
      payer.pubkey, signers⟩ ↔ proof.length ≤ inlineRoom payer authority := by
  rw [Fits, size_createAndVerify documented, packetDataSize, inlineRoom, lengthBytes]
  by_cases same : payer = authority
  · simp only [same, if_true]
    split <;> omega
  · simp only [same, if_false]
    split <;> omega

/-- The transaction that withdraws fits. -/
theorem withdrawTransaction_fits (run : WithdrawRun) : format.Fits run.withdrawTransaction := by
  have signers := (List.dedup_sublist run.withdrawTransaction.requiredSigners).length_le
  have keys := (List.dedup_sublist (format.messageKeys run.withdrawTransaction)).length_le
  have sum : (run.withdrawTransaction.instructions.map format.instructionSize).sum = 58 := by
    simp only [WithdrawRun.withdrawTransaction, withdrawInstructions, List.map_cons, List.map_nil,
      List.sum_cons, List.sum_nil, (documented.withdraw _ _ _ _ _ _ _ _ _).size]
    rfl
  have signerCount : run.withdrawTransaction.requiredSigners.length = 2 := rfl
  have keyCount : (format.messageKeys run.withdrawTransaction).length = 8 := by
    simp only [messageKeys, WithdrawRun.withdrawTransaction, withdrawInstructions,
      List.flatMap_cons, List.flatMap_nil, (documented.withdraw _ _ _ _ _ _ _ _ _).keys]
    rfl
  rw [Fits, size_of_counts _ _ _ _ rfl rfl sum, packetDataSize]
  omega

/-- A closing transaction fits. -/
theorem closeTransaction_fits (run : WithdrawRun) (account : Pubkey) :
    format.Fits (run.closeTransaction account) := by
  have signers := (List.dedup_sublist (run.closeTransaction account).requiredSigners).length_le
  have keys := (List.dedup_sublist (format.messageKeys (run.closeTransaction account))).length_le
  have sum : ((run.closeTransaction account).instructions.map format.instructionSize).sum = 7 := by
    simp only [WithdrawRun.closeTransaction, List.map_cons, List.map_nil, List.sum_cons,
      List.sum_nil, (documented.closeContextState _ _).size]
    rfl
  have signerCount : (run.closeTransaction account).requiredSigners.length = 2 := rfl
  have keyCount : (format.messageKeys (run.closeTransaction account)).length = 5 := by
    simp only [messageKeys, WithdrawRun.closeTransaction, List.flatMap_cons, List.flatMap_nil,
      (documented.closeContextState _ _).keys]
    rfl
  rw [Fits, size_of_counts _ _ _ _ rfl rfl sum, packetDataSize]
  omega

/-- All five transactions of a withdraw fit exactly when its range proof has room inline. -/
theorem withdrawTransactions_fit_iff (sdk : Sdk) (cluster : Cluster) (run : WithdrawRun)
    (equality : run.values.proofData.equalityProofData.length = equalityProofLength) :
    (∀ transaction ∈ run.transactions sdk cluster, format.Fits transaction) ↔
      run.values.proofData.rangeProofData.length ≤ inlineRoom run.payer run.authority := by
  have equalityFits : format.Fits (run.equalityTransaction sdk cluster) := by
    refine (createAndVerify_fits_iff documented _ _ _ _ _ _ _ _).mpr ?_
    rw [equality, inlineRoom, equalityProofLength]
    split <;> omega
  have rangeFits : format.Fits (run.rangeTransaction sdk cluster) ↔
      run.values.proofData.rangeProofData.length ≤ inlineRoom run.payer run.authority :=
    createAndVerify_fits_iff documented _ _ _ _ _ _ _ _
  simp only [WithdrawRun.transactions, List.mem_cons, List.not_mem_nil, or_false, forall_eq_or_imp,
    forall_eq, equalityFits, rangeFits, withdrawTransaction_fits documented,
    closeTransaction_fits documented, and_true, true_and]

/-- A withdraw submits beginnings of its plan. It can submit every range proof of this length that
the staged path of a transfer by the same wallets can, exactly when the proof has room inline, or
the staged path cannot submit it either. -/
theorem withdraw_fits_where_staged_iff (sdk : Sdk) (cluster : Cluster) (run : WithdrawRun)
    (equality : run.values.proofData.equalityProofData.length = equalityProofLength)
    (transfer : TransferRun) (payer : transfer.payer = run.payer)
    (sender : transfer.sender = run.authority)
    (length : transfer.proofData.rangeProofData.length =
      run.values.proofData.rangeProofData.length)
    (nonempty : transfer.proofData.rangeProofData ≠ []) :
    (∀ payer authority mint amount decimals world transcript outcome world',
      (chainSystem cluster).Runs world
        (withdrawFromConfidential sdk payer authority mint amount decimals) transcript world'
        (.done outcome) →
      submitted transcript = [] ∨ ∃ run,
        WithdrawPlan sdk payer authority mint amount decimals world run ∧
          submitted transcript <+: run.transactions sdk cluster) ∧
    (((∀ transaction ∈ transfer.stagingTransactions sdk cluster, format.Fits transaction) →
        ∀ transaction ∈ run.transactions sdk cluster, format.Fits transaction) ↔
      (run.values.proofData.rangeProofData.length ≤ inlineRoom run.payer run.authority ∨
        (recordFirstChunk < run.values.proofData.rangeProofData.length ∧
          trailingRoom run.payer run.authority <
            (run.values.proofData.rangeProofData.length - recordFirstChunk - 1) %
              recordWriteChunk + 1))) := by
  constructor
  · intro payer authority mint amount decimals world transcript outcome world' ran
    obtain ⟨-, ⟨reason, -, unheard, -⟩ | ⟨plan, ⟨run, planned, rfl⟩, ends⟩⟩ :=
      withdrawFromConfidential_tries sdk cluster payer authority mint amount decimals world _ _ _
        ran
    · exact .inl unheard.submitted
    · exact .inr ⟨run, planned, ends.submitted_begins⟩
  · have staged : (∀ transaction ∈ transfer.stagingTransactions sdk cluster,
        format.Fits transaction) ↔ _ :=
      stageTransactions_fits_iff documented.toDocumented sdk cluster transfer.payer
        transfer.sender (transfer.generated + 2)
        (cluster.rentExemption (sdk.contextStateSize .batchedRangeProofU128))
        transfer.proofData.rangeProofData nonempty
    rw [withdrawTransactions_fit_iff documented sdk cluster run equality, staged, ← payer,
      ← sender, ← length]
    omega

end Withdraw

/-- The range proof of a withdraw: 264 bytes of context and 672 bytes of proof. -/
def rangeProofU64Length : Nat := 264 + 672

/-- A withdraw by its own fee payer whose range proof has this length. -/
def withdrawOfLength (length : Nat) : WithdrawRun :=
  ⟨⟨1⟩, ⟨1⟩, .wallet ⟨3⟩, 2, 0, ⟨3, AeKey.encrypt (.standard ⟨1⟩) 3,
    ⟨List.replicate equalityProofLength 0, List.replicate length 0⟩⟩, 0⟩

/-- A transfer by the same wallet whose range proof has this length. -/
def transferOfLength (length : Nat) : TransferRun :=
  ⟨⟨1⟩, ⟨1⟩, .wallet ⟨3⟩, .wallet ⟨2⟩, 2, .configured true (.standard ⟨1⟩)
    (AeKey.encrypt (.standard ⟨1⟩) 5) 65536,
    ⟨[], [], .zero (.standard ⟨1⟩), .zero (.standard ⟨1⟩), List.replicate length 0⟩, 0⟩

/-- The longest range proof with room inline. -/
theorem withdraw_fits_where_staged_iff_longest :
    inlineRoom ⟨1⟩ ⟨1⟩ = 874 ∧
      ((∀ transaction ∈ (transferOfLength 874).stagingTransactions Sdk.ideal Cluster.ideal,
          WireFormat.legacy.Fits transaction) →
        ∀ transaction ∈ (withdrawOfLength 874).transactions Sdk.ideal Cluster.ideal,
          WireFormat.legacy.Fits transaction) :=
  ⟨by decide, (withdraw_fits_where_staged_iff WireFormat.documentedWithdraw_legacy Sdk.ideal
    Cluster.ideal (withdrawOfLength 874) List.length_replicate (transferOfLength 874) rfl rfl
    (List.length_replicate.trans List.length_replicate.symm)
    (List.cons_ne_nil 0 (List.replicate 873 0))).2.mpr
      (.inl (List.length_replicate.trans_le (by decide)))⟩

/-- A withdraw cannot submit its own range proof, although a transfer could stage it. -/
theorem withdraw_overflows :
    WireFormat.legacy.DocumentedWithdraw ∧
      (∀ transaction ∈ (transferOfLength rangeProofU64Length).stagingTransactions Sdk.ideal
        Cluster.ideal, WireFormat.legacy.Fits transaction) ∧
      ∃ transaction ∈ (withdrawOfLength rangeProofU64Length).transactions Sdk.ideal Cluster.ideal,
        WireFormat.legacy.size transaction = 1294 ∧ ¬ WireFormat.legacy.Fits transaction :=
  ⟨WireFormat.documentedWithdraw_legacy, by decide +kernel, by decide +kernel⟩

end ConfidentialBalances
