import ConfidentialBalances.Staging

/-!
# Transferring

`transfer_confidential_with_progress`: read the recipient's key, the auditor's
key and the sender's balance, generate three proofs from that snapshot, verify
two of them into context state accounts, stage the third through a record
account, and submit the transfer together with the closing of all four accounts.
-/

namespace ConfidentialBalances

open Effect

/-- The recipient's key, from its token account. -/
def fetchRecipientPubkey (recipientTokenAccount : Pubkey) : Client ElGamalPubkey := do
  let extension ← fetchConfidential recipientTokenAccount
  pure extension.elgamalPubkey

/-- The auditor's key, from the mint. -/
def fetchAuditorPubkey (mint : Pubkey) : Client (Option ElGamalPubkey) := do
  let data ← getAccount mint
  let state ← Program.ofExcept (unpackMint data)
  let extension ← Program.ofExcept (getExtension state.confidential)
  pure extension.auditorElgamalPubkey

/-- The sender's new decryptable balance, from the snapshot's AES ciphertext. -/
def transferNewDecryptable (aes : AeKey) (currentDecryptable : AeCiphertext) (amount : Nat) :
    Except ClientError AeCiphertext := do
  let currentAvailPlaintext ← okOr (currentDecryptable.decrypt aes) "decrypt current available"
  if currentAvailPlaintext < amount then .error (.message "insufficient available balance")
  else .ok (aes.encrypt (currentAvailPlaintext - amount))

/-- The last transaction's instructions: the transfer, then the four closes. -/
def transferInstructions (payer sender : Wallet) (mint recipient : Pubkey)
    (newDecryptable : AeCiphertext) (auditorLo auditorHi : ElGamalCiphertext)
    (equalityAccount validityAccount rangeAccount recordAccount : Pubkey) : List Instruction :=
  let senderTokenAccount := getAssociatedTokenAddress sender.pubkey mint
  let recipientTokenAccount := getAssociatedTokenAddress recipient mint
  let closeCtx := fun context => Instruction.closeContextState ⟨context, sender.pubkey⟩ payer.pubkey
  [.innerTransfer senderTokenAccount mint recipientTokenAccount newDecryptable auditorLo auditorHi
      sender.pubkey [] equalityAccount validityAccount rangeAccount,
    closeCtx equalityAccount, closeCtx validityAccount, closeCtx rangeAccount,
    .recordCloseAccount recordAccount payer.pubkey payer.pubkey]

/-- The instructions that ride on the last staging transaction. -/
def rangeInstructions (sdk : Sdk) (payer sender : Wallet) (rangeAccount recordAccount : Pubkey)
    (rangeRent : Nat) : List Instruction :=
  [.createAccount payer.pubkey rangeAccount rangeRent (sdk.contextStateSize .batchedRangeProofU128)
      .zkElGamalProof,
    .encodeVerifyProofFromAccount .batchedRangeProofU128 ⟨rangeAccount, sender.pubkey⟩
      recordAccount recordProofOffset]

/-- The events of the staging transactions, numbered from one. -/
def emitStages (progress : ProgressSink) : Nat → List Signature → Client Unit
  | _, [] => pure ()
  | index, sig :: rest => do
    emit progress (.signature s!"range-proof-stage-{index}" sig)
    emitStages progress (index + 1) rest

/-- `transfer_confidential_with_progress`. -/
def transferConfidentialWithProgress (sdk : Sdk) (payer sender : Wallet) (mint recipient : Pubkey)
    (amount : Nat) (progress : ProgressSink) : Client (List Signature) := do
  let phase := fun name detail => emit progress (.phase name detail)
  let sigEvent := fun label sig => emit progress (.signature label sig)
  phase "fetch-state" "Reading recipient and auditor pubkeys from chain"
  let senderTokenAccount := getAssociatedTokenAddress sender.pubkey mint
  let recipientTokenAccount := getAssociatedTokenAddress recipient mint
  let recipientElgamalPubkey ← fetchRecipientPubkey recipientTokenAccount
  let auditorElgamalPubkey ← fetchAuditorPubkey mint
  phase "derive-keys" "Deriving sender's ElGamal and AES keys from authority signature"
  let keys ← (deriveConfidentialKeys sender).mapError (.labelled "derive sender keys: ")
  let senderExt ← fetchConfidential senderTokenAccount
  phase "generate-proofs"
    "Generating equality, ciphertext-validity, and range proofs (zk-sdk 6.0.1)"
  let proofData ← Program.ofExcept (labelError "transfer_split_proof_data: "
    (sdk.transferSplitProofData senderExt.availableBalance senderExt.decryptableAvailableBalance
      amount keys.elgamal keys.aes recipientElgamalPubkey auditorElgamalPubkey))
  phase "create-proof-accounts"
    "Allocating + verifying 3 proof context state accounts (3 transactions)"
  -- 1. Equality proof
  let equalityAccount ← newKeypair
  let equalityRent ← getMinimumBalanceForRentExemption
    (sdk.contextStateSize .ciphertextCommitmentEquality)
  let equalitySig ← sendTx (createAndVerify sdk payer sender .ciphertextCommitmentEquality
    equalityAccount equalityRent proofData.equalityProofData) [payer.pubkey, equalityAccount]
    payer.pubkey
  sigEvent "equality-proof-account" equalitySig
  -- 2. Ciphertext validity proof
  let validityAccount ← newKeypair
  let validityRent ← getMinimumBalanceForRentExemption
    (sdk.contextStateSize .batchedGroupedCiphertext3HandlesValidity)
  let validitySig ← sendTx (createAndVerify sdk payer sender
    .batchedGroupedCiphertext3HandlesValidity validityAccount validityRent
    proofData.ciphertextValidityProofData) [payer.pubkey, validityAccount] payer.pubkey
  sigEvent "ciphertext-validity-proof-account" validitySig
  -- 3. Range proof, staged in a record account and verified from there
  let recordAccount ← newKeypair
  let rangeAccount ← newKeypair
  let rangeRent ← getMinimumBalanceForRentExemption
    (sdk.contextStateSize .batchedRangeProofU128)
  let recordSigs ← stageRangeProofRecord payer recordAccount
    (rangeInstructions sdk payer sender rangeAccount recordAccount rangeRent) [rangeAccount]
    proofData.rangeProofData
  emitStages progress 1 recordSigs
  phase "submit-transfer" "Submitting confidential transfer and closing proof accounts"
  let newDecryptable ← Program.ofExcept
    (transferNewDecryptable keys.aes senderExt.decryptableAvailableBalance amount)
  let sig ← sendTx (transferInstructions payer sender mint recipient newDecryptable
    proofData.ciphertextLo proofData.ciphertextHi equalityAccount validityAccount rangeAccount
    recordAccount) [payer.pubkey, sender.pubkey] payer.pubkey
  sigEvent "transfer-and-close" sig
  let signatures := [equalitySig, validitySig] ++ recordSigs ++ [sig]
  emit progress (.done signatures)
  pure signatures

/-- `transfer_confidential`. -/
def transferConfidential (sdk : Sdk) (payer sender : Wallet) (mint recipient : Pubkey)
    (amount : Nat) : Client (List Signature) :=
  transferConfidentialWithProgress sdk payer sender mint recipient amount .none

/-! ## What a transfer lands -/

/-- A run of the transfer, by what it fixed before its first transaction. -/
structure TransferRun where
  /-- The fee payer. -/
  payer : Wallet
  /-- The owner of the source account. -/
  sender : Wallet
  /-- The mint. -/
  mint : Pubkey
  /-- The owner of the destination account. -/
  recipient : Pubkey
  /-- The transferred amount. -/
  amount : Nat
  /-- The sender's account as it was read. -/
  snapshot : ConfidentialTransferAccount
  /-- The generated proofs. -/
  proofData : TransferProofData
  /-- The index of the first keypair the run generates. -/
  generated : Nat

namespace TransferRun

variable (sdk : Sdk) (cluster : Cluster) (run : TransferRun)

/-- The sender's keys. -/
def keys : ConfidentialKeys := run.sender.confidentialKeys

/-- The equality context's account. -/
def equalityAccount : Pubkey := .generated run.generated

/-- The validity context's account. -/
def validityAccount : Pubkey := .generated (run.generated + 1)

/-- The record account. -/
def recordAccount : Pubkey := .generated (run.generated + 2)

/-- The range context's account. -/
def rangeAccount : Pubkey := .generated (run.generated + 3)

/-- Create and verify the equality context. -/
def equalityTransaction : Transaction :=
  ⟨createAndVerify sdk run.payer run.sender .ciphertextCommitmentEquality run.equalityAccount
      (cluster.rentExemption (sdk.contextStateSize .ciphertextCommitmentEquality))
      run.proofData.equalityProofData,
    run.payer.pubkey, [run.payer.pubkey, run.equalityAccount]⟩

/-- Create and verify the validity context. -/
def validityTransaction : Transaction :=
  ⟨createAndVerify sdk run.payer run.sender .batchedGroupedCiphertext3HandlesValidity
      run.validityAccount
      (cluster.rentExemption (sdk.contextStateSize .batchedGroupedCiphertext3HandlesValidity))
      run.proofData.ciphertextValidityProofData,
    run.payer.pubkey, [run.payer.pubkey, run.validityAccount]⟩

/-- The staging transactions, the last of which creates and verifies the range context. -/
def stagingTransactions : List Transaction :=
  stageTransactions run.payer run.recordAccount
    (rangeInstructions sdk run.payer run.sender run.rangeAccount run.recordAccount
      (cluster.rentExemption (sdk.contextStateSize .batchedRangeProofU128)))
    [run.rangeAccount] cluster run.proofData.rangeProofData

/-- The new decryptable balance: the snapshot's, less the amount. -/
def newDecryptable : AeCiphertext :=
  run.keys.aes.encrypt
    ((run.snapshot.decryptableAvailableBalance.decrypt run.keys.aes).getD 0 - run.amount)

/-- Transfer and close. -/
def transferTransaction : Transaction :=
  ⟨transferInstructions run.payer run.sender run.mint run.recipient run.newDecryptable
      run.proofData.ciphertextLo run.proofData.ciphertextHi run.equalityAccount
      run.validityAccount run.rangeAccount run.recordAccount,
    run.payer.pubkey, [run.payer.pubkey, run.sender.pubkey]⟩

/-- The transactions before the transfer itself. -/
def setupTransactions : List Transaction :=
  [run.equalityTransaction sdk cluster, run.validityTransaction sdk cluster] ++
    run.stagingTransactions sdk cluster

/-- All the run's transactions, in order. -/
def transactions : List Transaction :=
  run.setupTransactions sdk cluster ++ [run.transferTransaction]

end TransferRun

/-- A run that a transfer may make from a world. -/
structure TransferPlan (sdk : Sdk) (payer sender : Wallet) (mint recipient : Pubkey)
    (amount : Nat) (world : World) (run : TransferRun) : Prop where
  /-- The run is the caller's. -/
  arguments : run.payer = payer ∧ run.sender = sender ∧ run.mint = mint ∧
    run.recipient = recipient ∧ run.amount = amount
  /-- Its keypairs are the next ones. -/
  generated : run.generated = world.generated
  /-- Its snapshot is the sender's account as it stands. -/
  snapshot : world.ledger.confidential? (getAssociatedTokenAddress sender.pubkey mint) =
    some run.snapshot
  /-- Its proofs are generated from the snapshot, for the recipient's and the auditor's keys. -/
  proofs : ∃ recipientExt state settings,
    world.ledger.confidential? (getAssociatedTokenAddress recipient mint) = some recipientExt ∧
    world.ledger.data mint = .mint state ∧ state.confidential = some settings ∧
    sdk.transferSplitProofData run.snapshot.availableBalance
      run.snapshot.decryptableAvailableBalance amount run.keys.elgamal run.keys.aes
      recipientExt.elgamalPubkey settings.auditorElgamalPubkey = .ok run.proofData

/-- What a completed run owes besides its transactions: there was a range proof to stage, and
the snapshot's AES balance covered the amount. -/
structure TransferRun.Complete (run : TransferRun) : Prop where
  /-- The range proof has bytes. -/
  staged : run.proofData.rangeProofData ≠ []
  /-- The new decryptable balance is the one the source computes. -/
  covered : transferNewDecryptable run.keys.aes run.snapshot.decryptableAvailableBalance
    run.amount = .ok run.newDecryptable

/-- The recipient's key is the one its account is configured with. -/
theorem quietly_fetchRecipientPubkey (cluster : Cluster) (account : Pubkey) (world : World) :
    Quietly cluster (fun key world' => world' = world ∧
        ∃ extension, world.ledger.confidential? account = some extension ∧
          key = extension.elgamalPubkey) (fetchRecipientPubkey account) world := by
  refine quietly_bind (quietly_fetchConfidential account) ?_
  rintro extension after - ⟨rfl, held⟩
  exact quietly_pure ⟨rfl, extension, held, rfl⟩

/-- The auditor's key is the one in the mint's settings. -/
theorem quietly_fetchAuditorPubkey (cluster : Cluster) (mint : Pubkey) (world : World) :
    Quietly cluster (fun key world' => world' = world ∧
        ∃ state settings, world.ledger.data mint = .mint state ∧
          state.confidential = some settings ∧ key = settings.auditorElgamalPubkey)
      (fetchAuditorPubkey mint) world := by
  refine quietly_bind (quietly_getAccount mint) ?_
  rintro data after - ⟨rfl, fetched⟩
  have held := Ledger.fetch_ok fetched
  refine quietly_bind (quietly_ofExcept _) ?_
  rintro state after - ⟨unpacked, rfl⟩
  refine quietly_bind (quietly_ofExcept _) ?_
  rintro settings after - ⟨read, rfl⟩
  exact quietly_pure
    ⟨rfl, state, settings, held.trans (unpackMint_ok unpacked), getExtension_ok read, rfl⟩

/-- Fetching the recipient's key is silent. -/
theorem silent_fetchRecipientPubkey (account : Pubkey) : Silent (fetchRecipientPubkey account) :=
  (silent_fetchConfidential account).bind fun _ => silent_pure _

/-- Fetching the auditor's key is silent. -/
theorem silent_fetchAuditorPubkey (mint : Pubkey) : Silent (fetchAuditorPubkey mint) :=
  (silent_getAccount mint).bind fun _ => (silent_ofExcept _).bind fun _ =>
    (silent_ofExcept _).bind fun _ => silent_pure _

/-- Emitting the stage events always succeeds. -/
theorem emitStages_surely (cluster : Cluster) (progress : ProgressSink) (index : Nat)
    (sigs : List Signature) (world : World) :
    Surely cluster (fun _ world' => world'.ledger = world.ledger ∧
      world'.generated = world.generated) (emitStages progress index sigs) world := by
  induction sigs generalizing index world with
  | nil => exact surely_pure ⟨rfl, rfl⟩
  | cons sig rest ih =>
    refine surely_bind (surely_emit _ _) ?_
    rintro ⟨⟩ world' - ⟨ledger, generated⟩
    have later := ih (index + 1) world'
    rw [ledger, generated] at later
    exact later

/-- Where the source computes a new decryptable balance, it is the run's. -/
theorem TransferRun.newDecryptable_eq (run : TransferRun) {newDecryptable : AeCiphertext}
    (computed : transferNewDecryptable run.keys.aes run.snapshot.decryptableAvailableBalance
      run.amount = .ok newDecryptable) : newDecryptable = run.newDecryptable := by
  unfold transferNewDecryptable at computed
  unfold TransferRun.newDecryptable
  cases decrypted : run.snapshot.decryptableAvailableBalance.decrypt run.keys.aes with
  | none => simp [decrypted, okOr, bind, Except.bind] at computed
  | some plaintext =>
    simp only [decrypted, okOr, bind, Except.bind] at computed
    split at computed
    · contradiction
    · exact (Except.ok.inj computed).symm

/-- The run's transactions in the order in which they are sent. -/
theorem TransferRun.transactions_eq (sdk : Sdk) (cluster : Cluster) (run : TransferRun) :
    run.transactions sdk cluster = [run.equalityTransaction sdk cluster] ++
      ([run.validityTransaction sdk cluster] ++
        (run.stagingTransactions sdk cluster ++ [run.transferTransaction])) := by
  simp [TransferRun.transactions, TransferRun.setupTransactions]

/-- The signatures of a transfer's transactions, from a place on. -/
theorem TransferRun.transactions_span (sdk : Sdk) (cluster : Cluster) (run : TransferRun)
    (start : Nat) :
    Signature.span start (run.transactions sdk cluster).length = [⟨start⟩, ⟨start + 1⟩] ++
      Signature.span (start + 2) (run.stagingTransactions sdk cluster).length ++
      [⟨start + 2 + (run.stagingTransactions sdk cluster).length⟩] := by
  have count : (run.transactions sdk cluster).length =
      (run.stagingTransactions sdk cluster).length + 1 + 2 := by
    simp only [transactions_eq, List.length_append, List.length_singleton]
    omega
  rw [count, Signature.span_succ, Signature.span_succ, ← Signature.span_append]
  rfl

/-- A transfer lands its transactions in order. It returns one signature for each of them once
all have landed, and only for a complete run. -/
theorem transferConfidentialWithProgress_submits (sdk : Sdk) (cluster : Cluster)
    (payer sender : Wallet) (mint recipient : Pubkey) (amount : Nat) (progress : ProgressSink)
    (world : World) :
    Submits cluster
      (fun plan => ∃ run, TransferPlan sdk payer sender mint recipient amount world run ∧
        plan = run.transactions sdk cluster)
      (fun plan sigs world' => ∃ run,
        TransferPlan sdk payer sender mint recipient amount world run ∧
        plan = run.transactions sdk cluster ∧ run.Complete ∧
        sigs = Signature.span world.landed.length plan.length ∧
        world'.generated = world.generated + 4)
      (transferConfidentialWithProgress sdk payer sender mint recipient amount progress)
      world := by
  refine submits_after (surely_emit _ _).quietly ?_
  rintro ⟨⟩ w1 quiet1 ⟨ledger1, generated1⟩
  refine submits_after (quietly_fetchRecipientPubkey _ _ _) ?_
  rintro recipientKey after - ⟨rfl, recipientExt, recipientHeld, rfl⟩
  refine submits_after (quietly_fetchAuditorPubkey _ _ _) ?_
  rintro auditor after - ⟨rfl, state, settings, mintHeld, configured, rfl⟩
  refine submits_after (surely_emit _ _).quietly ?_
  rintro ⟨⟩ w2 quiet2 ⟨ledger2, generated2⟩
  refine submits_after (quietly_mapError (quietly_deriveConfidentialKeys sender) _) ?_
  rintro keys after - ⟨rfl, rfl⟩
  refine submits_after (quietly_fetchConfidential _) ?_
  rintro snapshot after - ⟨rfl, senderHeld⟩
  refine submits_after (surely_emit _ _).quietly ?_
  rintro ⟨⟩ w3 quiet3 ⟨ledger3, generated3⟩
  refine submits_after (quietly_ofExcept _) ?_
  rintro proofData w3 - ⟨generated, rfl⟩
  let run : TransferRun := ⟨payer, sender, mint, recipient, amount, snapshot, proofData,
    world.generated⟩
  have planned : TransferPlan sdk payer sender mint recipient amount world run := by
    rw [ledger2] at senderHeld
    rw [ledger1] at recipientHeld mintHeld senderHeld
    exact ⟨⟨rfl, rfl, rfl, rfl, rfl⟩, rfl, senderHeld, recipientExt, state, settings,
      recipientHeld, mintHeld, configured, labelError_ok generated⟩
  have place3 : w3.landed.length = world.landed.length := by
    rw [quiet3.same_landed, quiet2.same_landed, quiet1.same_landed]
  have next3 : w3.generated = world.generated := by
    rw [generated3, generated2, generated1]
  refine submits_follows (run.transactions sdk cluster) (fun sigs world' => run.Complete ∧
    sigs = Signature.span world.landed.length (run.transactions sdk cluster).length ∧
      world'.generated = world.generated + 4) ⟨run, planned, rfl⟩
    (fun sigs final ⟨complete, named, generated⟩ =>
      ⟨run, planned, rfl, complete, named, generated⟩) ?_
  rw [run.transactions_eq sdk cluster]
  refine submits_after (surely_emit _ _).quietly ?_
  rintro ⟨⟩ w4 quiet4 ⟨-, generated4⟩
  -- 1. Equality proof
  have next4 : run.equalityAccount = .generated w4.generated := by
    rw [generated4, next3]
    rfl
  refine follows_createAndVerify sdk payer sender .ciphertextCommitmentEquality
    (fun account => [payer.pubkey, account]) next4 (by simp) ?_
  rintro equalitySig w6 place6 generated6 rfl
  refine submits_after (surely_emit _ _).quietly ?_
  rintro ⟨⟩ w7 quiet7 ⟨-, generated7⟩
  -- 2. Ciphertext validity proof
  have next7 : w7.generated = world.generated + 1 := by
    rw [generated7, generated6, generated4, next3]
  have validityNext : run.validityAccount = .generated w7.generated := by
    rw [next7]
    rfl
  refine follows_createAndVerify sdk payer sender .batchedGroupedCiphertext3HandlesValidity
    (fun account => [payer.pubkey, account]) validityNext (by simp) ?_
  rintro validitySig w9 place9 generated9 rfl
  refine submits_after (surely_emit _ _).quietly ?_
  rintro ⟨⟩ w10 quiet10 ⟨-, generated10⟩
  -- 3. Range proof
  have next10 : w10.generated = world.generated + 2 := by
    rw [generated10, generated9, next7]
  refine submits_after quietly_newKeypair ?_
  rintro recordAccount w11 quiet11 ⟨recordKey, world11⟩
  have generated11 : w11.generated = world.generated + 3 := by
    rw [world11, next10]
  obtain rfl : run.recordAccount = recordAccount := by
    rw [recordKey, next10]
    rfl
  refine submits_after quietly_newKeypair ?_
  rintro rangeAccount w12 quiet12 ⟨rangeKey, world12⟩
  have generated12 : w12.generated = world.generated + 4 := by
    rw [world12, generated11]
  obtain rfl : run.rangeAccount = rangeAccount := by
    rw [rangeKey, generated11]
    rfl
  refine submits_after (quietly_getMinimumBalanceForRentExemption _) ?_
  rintro rangeRent w12 - ⟨rfl, rfl⟩
  refine follows_append _ (stageRangeProofRecord_follows _ _ _ _ _ _ _) (by simp) ?_
  rintro recordSigs w13 landed13 ⟨rfl, staged, generated13⟩
  refine submits_after (emitStages_surely _ _ _ _ _).quietly ?_
  rintro ⟨⟩ w14 quiet14 ⟨-, generated14⟩
  refine submits_after (surely_emit _ _).quietly ?_
  rintro ⟨⟩ w15 quiet15 ⟨-, generated15⟩
  refine submits_after (quietly_ofExcept _) ?_
  rintro newDecryptable w15 - ⟨covered, rfl⟩
  obtain rfl := run.newDecryptable_eq covered
  refine follows_surely (follows_sendTx _ _ _) ?_
  rintro sig w16 landed16 ⟨rfl, generated16⟩
  refine surely_bind (surely_emit _ _) ?_
  rintro ⟨⟩ w17 quiet17 ⟨-, generated17⟩
  refine surely_bind (surely_emit _ _) ?_
  rintro ⟨⟩ w18 quiet18 ⟨-, generated18⟩
  refine surely_pure ⟨⟨staged, covered⟩, ?_, ?_⟩
  · have place4 : w4.landed.length = world.landed.length := by
      rw [quiet4.same_landed, place3]
    have place7 : w7.landed.length = world.landed.length + 1 := by
      rw [quiet7.same_landed, place6, place4]
    have place12 : w12.landed.length = world.landed.length + 2 := by
      rw [quiet12.same_landed, quiet11.same_landed, quiet10.same_landed, place9, place7]
    have place15 : w15.landed.length =
        world.landed.length + 2 + (run.stagingTransactions sdk cluster).length := by
      rw [quiet15.same_landed, quiet14.same_landed, landed13.landed, List.length_append, place12]
    rw [← run.transactions_eq sdk cluster, run.transactions_span, place4, place7, place12, place15]
    rfl
  · rw [generated18, generated17, generated16, generated15, generated14, generated13, generated12]

end ConfidentialBalances
