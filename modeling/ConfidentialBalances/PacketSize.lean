import ConfidentialBalances.StagedProof

/-!
# Transaction sizes

The length of a serialised legacy transaction, and which staging transactions
fit a packet. How long the instructions of other programs are is a parameter;
what is documented of it is assumed by name.
-/

namespace ConfidentialBalances

open Effect

/-- `PACKET_DATA_SIZE`. -/
def packetDataSize : Nat := 1232

/-- How the instruction builders of the other programs' crates encode an instruction. -/
structure WireFormat where
  /-- The program that is called. -/
  program : Instruction → ProgramId
  /-- The account metas, in order. -/
  accounts : Instruction → List Pubkey
  /-- The length of the instruction data. -/
  dataLength : Instruction → Nat

namespace WireFormat

variable (format : WireFormat)

/-- The instruction is encoded so. -/
def Encodes (instruction : Instruction) (program : ProgramId) (accounts : List Pubkey)
    (dataLength : Nat) : Prop :=
  format.program instruction = program ∧ format.accounts instruction = accounts ∧
    format.dataLength instruction = dataLength

/-- The compact length of instruction data. -/
def lengthBytes (dataLength : Nat) : Nat := if dataLength < 128 then 1 else 2

/-- One compiled instruction: the program's index, the account indices and the data. -/
def instructionSize (instruction : Instruction) : Nat :=
  1 + (1 + (format.accounts instruction).length) +
    (lengthBytes (format.dataLength instruction) + format.dataLength instruction)

/-- The keys an instruction names: its program and its accounts. -/
def instructionKeys (instruction : Instruction) : List Pubkey :=
  .program (format.program instruction) :: format.accounts instruction

/-- The keys of a message, with repetitions. -/
def messageKeys (transaction : Transaction) : List Pubkey :=
  transaction.payer :: transaction.instructions.flatMap format.instructionKeys

/-- A serialised transaction: the signatures, the header, the keys, the blockhash and the
instructions. -/
def size (transaction : Transaction) : Nat :=
  1 + 64 * transaction.requiredSigners.dedup.length + 3 +
    (1 + 32 * (format.messageKeys transaction).dedup.length) + 32 +
      (1 + (transaction.instructions.map format.instructionSize).sum)

/-- The transaction fits a packet. -/
def Fits (transaction : Transaction) : Prop := format.size transaction ≤ packetDataSize

instance (transaction : Transaction) : Decidable (format.Fits transaction) :=
  inferInstanceAs (Decidable (_ ≤ _))

/-- What is documented of the instructions that stage a proof. -/
structure Documented : Prop where
  /-- The system program's `create_account`. -/
  createAccount : ∀ funder newAccount lamports space owner,
    format.Encodes (.createAccount funder newAccount lamports space owner) .system
      [funder, newAccount] 52
  /-- The record program's `initialize`. -/
  recordInitialize : ∀ record authority,
    format.Encodes (.recordInitialize record authority) .splRecord [record, authority] 1
  /-- The record program's `write`. -/
  recordWrite : ∀ record signer offset bytes,
    format.Encodes (.recordWrite record signer offset bytes) .splRecord [record, signer]
      (13 + bytes.length)
  /-- `encode_verify_proof_from_account`. -/
  encodeVerifyProofFromAccount : ∀ proofType (info : ContextStateInfo) proofAccount offset,
    format.Encodes (.encodeVerifyProofFromAccount proofType info proofAccount offset)
      .zkElGamalProof [proofAccount, info.contextStateAccount, info.contextStateAuthority] 5

/-- The encodings of the instructions that stage, verify, withdraw and close; of the others only
the program. -/
def legacy : WireFormat where
  program
    | .createAccount _ _ _ _ _ => .system
    | .recordInitialize _ _ | .recordWrite _ _ _ _ | .recordCloseAccount _ _ _ => .splRecord
    | .encodeVerifyProof _ _ _ | .encodeVerifyProofFromAccount _ _ _ _ |
      .closeContextState _ _ => .zkElGamalProof
    | .createAssociatedTokenAccountIdempotent _ _ _ => .splAssociatedTokenAccount
    | _ => .splToken2022
  accounts
    | .createAccount funder newAccount _ _ _ => [funder, newAccount]
    | .recordInitialize record authority => [record, authority]
    | .recordWrite record signer _ _ => [record, signer]
    | .encodeVerifyProof _ info _ => [info.contextStateAccount, info.contextStateAuthority]
    | .encodeVerifyProofFromAccount _ info proofAccount _ =>
      [proofAccount, info.contextStateAccount, info.contextStateAuthority]
    | .closeContextState info destination =>
      [info.contextStateAccount, destination, info.contextStateAuthority]
    | .withdraw account mint _ _ _ authority multisigSigners equality range =>
      [account, mint, equality, range, authority] ++ multisigSigners
    | _ => []
  dataLength
    | .createAccount _ _ _ _ _ => 52
    | .recordInitialize _ _ => 1
    | .recordWrite _ _ _ bytes => 13 + bytes.length
    | .encodeVerifyProof _ _ proof => 1 + proof.length
    | .encodeVerifyProofFromAccount _ _ _ _ => 5
    | .closeContextState _ _ => 1
    | .withdraw _ _ _ _ _ _ _ _ _ => 49
    | _ => 0

/-- The legacy format is as documented. -/
theorem documented_legacy : legacy.Documented where
  createAccount _ _ _ _ _ := ⟨rfl, rfl, rfl⟩
  recordInitialize _ _ := ⟨rfl, rfl, rfl⟩
  recordWrite _ _ _ _ := ⟨rfl, rfl, rfl⟩
  encodeVerifyProofFromAccount _ _ _ _ := ⟨rfl, rfl, rfl⟩

variable {format}

/-- The keys of an instruction that is encoded so. -/
theorem Encodes.keys {instruction : Instruction} {program : ProgramId} {accounts : List Pubkey}
    {dataLength : Nat} (encodes : format.Encodes instruction program accounts dataLength) :
    format.instructionKeys instruction = .program program :: accounts := by
  rw [instructionKeys, encodes.1, encodes.2.1]

/-- The size of an instruction that is encoded so. -/
theorem Encodes.size {instruction : Instruction} {program : ProgramId} {accounts : List Pubkey}
    {dataLength : Nat} (encodes : format.Encodes instruction program accounts dataLength) :
    format.instructionSize instruction =
      2 + accounts.length + (lengthBytes dataLength + dataLength) := by
  rw [instructionSize, encodes.2.1, encodes.2.2]
  omega

/-- The size of a transaction from its counts. -/
theorem size_of_counts (transaction : Transaction) (signers keys total : Nat)
    (signerCount : transaction.requiredSigners.dedup.length = signers)
    (keyCount : (format.messageKeys transaction).dedup.length = keys)
    (sum : (transaction.instructions.map format.instructionSize).sum = total) :
    format.size transaction = 38 + 64 * signers + 32 * keys + total := by
  rw [size, signerCount, keyCount, sum]
  omega

/-- The compact length takes one byte or two. -/
theorem lengthBytes_bounds (dataLength : Nat) :
    1 ≤ lengthBytes dataLength ∧ lengthBytes dataLength ≤ 2 := by
  unfold lengthBytes
  split <;> omega

end WireFormat

/-! ## The staging transactions of a transfer -/

section Staging

open WireFormat

variable {format : WireFormat} (documented : format.Documented)
include documented

/-- The size of the transaction that creates the record and writes the first chunk. -/
theorem size_stage (payer : Wallet) (index rent space : Nat) (first : List UInt8)
    (signers : List Pubkey) :
    format.size ⟨stageInstructions payer (.generated index) rent space first, payer.pubkey,
      signers⟩ = 374 + (lengthBytes (13 + first.length) + first.length) := by
  have keys : format.messageKeys ⟨stageInstructions payer (.generated index) rent space first,
      payer.pubkey, signers⟩ = [payer.pubkey, .program .system, payer.pubkey, .generated index,
        .program .splRecord, .generated index, payer.pubkey, .program .splRecord,
        .generated index, payer.pubkey] := by
    simp only [messageKeys, stageInstructions, List.flatMap_cons, List.flatMap_nil,
      (documented.createAccount _ _ _ _ _).keys, (documented.recordInitialize _ _).keys,
      (documented.recordWrite _ _ _ _).keys, List.cons_append, List.nil_append]
  have short : lengthBytes 52 = 1 ∧ lengthBytes 1 = 1 := ⟨rfl, rfl⟩
  refine (size_of_counts _ 2 4 (80 + (lengthBytes (13 + first.length) + first.length)) ?_ ?_
    ?_).trans (by omega)
  · simp [Transaction.requiredSigners, stageInstructions, Instruction.signers, Wallet.pubkey]
  · rw [keys]
    simp [Wallet.pubkey]
  · simp only [stageInstructions, List.map_cons, List.map_nil, List.sum_cons, List.sum_nil,
      (documented.createAccount _ _ _ _ _).size, (documented.recordInitialize _ _).size,
      (documented.recordWrite _ _ _ _).size, List.length_cons, List.length_nil, short]
    omega

/-- The size of a transaction with one write alone. -/
theorem size_write (payer : Wallet) (index : Nat) (write : Nat × List UInt8)
    (signers : List Pubkey) :
    format.size ⟨[writeInstruction payer (.generated index) write], payer.pubkey, signers⟩ =
      215 + (lengthBytes (13 + write.2.length) + write.2.length) := by
  have keys : format.messageKeys ⟨[writeInstruction payer (.generated index) write],
      payer.pubkey, signers⟩ = [payer.pubkey, .program .splRecord, .generated index,
        payer.pubkey] := by
    simp only [messageKeys, writeInstruction, List.flatMap_cons, List.flatMap_nil,
      (documented.recordWrite _ _ _ _).keys, List.cons_append, List.nil_append]
  refine (size_of_counts _ 1 3 (17 + (lengthBytes (13 + write.2.length) + write.2.length)) ?_ ?_
    ?_).trans (by omega)
  · simp [Transaction.requiredSigners, writeInstruction, Instruction.signers, Wallet.pubkey]
  · rw [keys]
    simp [Wallet.pubkey]
  · simp only [writeInstruction, List.map_cons, List.map_nil, List.sum_cons, List.sum_nil,
      (documented.recordWrite _ _ _ _).size, List.length_cons, List.length_nil]
    omega

/-- The size of the transaction that creates and verifies the range context from the record. -/
theorem size_verify (sdk : Sdk) (payer sender : Wallet) (index rent : Nat)
    (signers : List Pubkey) :
    format.size ⟨rangeInstructions sdk payer sender (.generated (index + 1)) (.generated index)
      rent, payer.pubkey, signers⟩ ≤ 426 := by
  have keys : format.messageKeys ⟨rangeInstructions sdk payer sender (.generated (index + 1))
      (.generated index) rent, payer.pubkey, signers⟩ = [payer.pubkey, .program .system,
        payer.pubkey, .generated (index + 1), .program .zkElGamalProof, .generated index,
        .generated (index + 1), sender.pubkey] := by
    simp only [messageKeys, rangeInstructions, List.flatMap_cons, List.flatMap_nil,
      (documented.createAccount _ _ _ _ _).keys,
      (documented.encodeVerifyProofFromAccount _ _ _ _).keys, List.cons_append, List.nil_append]
  have short : lengthBytes 52 = 1 ∧ lengthBytes 5 = 1 := ⟨rfl, rfl⟩
  refine (size_of_counts _ 2 (if payer = sender then 5 else 6) 68 ?_ ?_ ?_).trans_le (by
    split <;> omega)
  · simp [Transaction.requiredSigners, rangeInstructions, Instruction.signers, Wallet.pubkey]
  · rw [keys]
    by_cases same : payer = sender <;> simp [Wallet.pubkey, same]
  · simp only [rangeInstructions, List.map_cons, List.map_nil, List.sum_cons, List.sum_nil,
      (documented.createAccount _ _ _ _ _).size,
      (documented.encodeVerifyProofFromAccount _ _ _ _).size, List.length_cons, List.length_nil,
      short]
    rfl

/-- The size of the transaction that writes the last chunk and verifies the range context. -/
theorem size_writeVerify (sdk : Sdk) (payer sender : Wallet) (index rent : Nat)
    (write : Nat × List UInt8) (signers : List Pubkey) :
    format.size ⟨writeInstruction payer (.generated index) write :: rangeInstructions sdk payer
      sender (.generated (index + 1)) (.generated index) rent, payer.pubkey, signers⟩ =
        (if payer = sender then 443 else 475) +
          (lengthBytes (13 + write.2.length) + write.2.length) := by
  have keys : format.messageKeys ⟨writeInstruction payer (.generated index) write ::
      rangeInstructions sdk payer sender (.generated (index + 1)) (.generated index) rent,
      payer.pubkey, signers⟩ = [payer.pubkey, .program .splRecord, .generated index, payer.pubkey,
        .program .system, payer.pubkey, .generated (index + 1), .program .zkElGamalProof,
        .generated index, .generated (index + 1), sender.pubkey] := by
    simp only [messageKeys, writeInstruction, rangeInstructions, List.flatMap_cons,
      List.flatMap_nil, (documented.recordWrite _ _ _ _).keys,
      (documented.createAccount _ _ _ _ _).keys,
      (documented.encodeVerifyProofFromAccount _ _ _ _).keys, List.cons_append, List.nil_append]
  have short : lengthBytes 52 = 1 ∧ lengthBytes 5 = 1 := ⟨rfl, rfl⟩
  refine (size_of_counts _ 2 (if payer = sender then 6 else 7)
    (85 + (lengthBytes (13 + write.2.length) + write.2.length)) ?_ ?_ ?_).trans (by
      split <;> omega)
  · simp [Transaction.requiredSigners, writeInstruction, rangeInstructions, Instruction.signers,
      Wallet.pubkey]
  · rw [keys]
    by_cases same : payer = sender <;> simp [Wallet.pubkey, same]
  · simp only [writeInstruction, rangeInstructions, List.map_cons, List.map_nil, List.sum_cons,
      List.sum_nil, (documented.recordWrite _ _ _ _).size,
      (documented.createAccount _ _ _ _ _).size,
      (documented.encodeVerifyProofFromAccount _ _ _ _).size, List.length_cons, List.length_nil,
      short]
    omega

end Staging

/-- The longest last chunk that leaves room for the context's creation and verification. -/
def trailingRoom (payer sender : Wallet) : Nat := if payer = sender then 787 else 755

section Fitting

open WireFormat

variable {format : WireFormat} (documented : format.Documented)
include documented

/-- The first transaction fits, whatever its chunk. -/
theorem stage_fits (payer : Wallet) (index rent space : Nat) (first : List UInt8)
    (signers : List Pubkey) (short : first.length ≤ recordFirstChunk) :
    format.Fits ⟨stageInstructions payer (.generated index) rent space first, payer.pubkey,
      signers⟩ := by
  have bounds := lengthBytes_bounds (13 + first.length)
  unfold recordFirstChunk at short
  rw [Fits, size_stage documented, packetDataSize]
  omega

/-- A write alone fits, whatever its chunk. -/
theorem write_fits (payer : Wallet) (index : Nat) (write : Nat × List UInt8)
    (signers : List Pubkey) (short : write.2.length ≤ recordWriteChunk) :
    format.Fits ⟨[writeInstruction payer (.generated index) write], payer.pubkey, signers⟩ := by
  have bounds := lengthBytes_bounds (13 + write.2.length)
  unfold recordWriteChunk at short
  rw [Fits, size_write documented, packetDataSize]
  omega

/-- The last write fits with the trailing instructions exactly when it leaves them their room. -/
theorem writeVerify_fits_iff (sdk : Sdk) (payer sender : Wallet) (index rent : Nat)
    (write : Nat × List UInt8) (signers : List Pubkey) :
    format.Fits ⟨writeInstruction payer (.generated index) write :: rangeInstructions sdk payer
      sender (.generated (index + 1)) (.generated index) rent, payer.pubkey, signers⟩ ↔
        write.2.length ≤ trailingRoom payer sender := by
  rw [Fits, size_writeVerify documented, packetDataSize, trailingRoom, lengthBytes]
  by_cases same : payer = sender
  · simp only [same, if_true]
    split <;> omega
  · simp only [same, if_false]
    split <;> omega

/-- Staging fits exactly when its last transaction does. -/
theorem staging_fits_iff (payer : Wallet) (index rent space : Nat) {first : List UInt8}
    {middle : List (Nat × List UInt8)} (short : first.length ≤ recordFirstChunk)
    (chunked : ∀ write ∈ middle, write.2.length ≤ recordWriteChunk) (final : Transaction) :
    (∀ transaction ∈
      (⟨stageInstructions payer (.generated index) rent space first, payer.pubkey,
          [payer.pubkey, .generated index]⟩ : Transaction) ::
        middle.map (fun write => ⟨[writeInstruction payer (.generated index) write], payer.pubkey,
          [payer.pubkey]⟩) ++ [final], format.Fits transaction) ↔ format.Fits final := by
  constructor
  · exact fun fits => fits final (List.mem_append_right _ (List.mem_singleton_self _))
  · intro fits transaction member
    rcases List.mem_append.mp member with early | late
    · rcases List.mem_cons.mp early with rfl | mapped
      · exact stage_fits documented payer index rent space first _ short
      · obtain ⟨write, listed, rfl⟩ := List.mem_map.mp mapped
        exact write_fits documented payer index write _ (chunked write listed)
    · obtain rfl := List.mem_singleton.mp late
      exact fits

/-- All staging transactions of a transfer fit exactly when the proof fits the first write or its
last chunk leaves room for the trailing instructions. -/
theorem stageTransactions_fits_iff (sdk : Sdk) (cluster : Cluster) (payer sender : Wallet)
    (index rent : Nat) (proofBytes : List UInt8) (nonempty : proofBytes ≠ []) :
    (∀ transaction ∈ stageTransactions payer (.generated index) (rangeInstructions sdk payer sender
        (.generated (index + 1)) (.generated index) rent) [.generated (index + 1)] cluster
        proofBytes, format.Fits transaction) ↔
      proofBytes.length ≤ recordFirstChunk ∨
        (proofBytes.length - recordFirstChunk - 1) % recordWriteChunk + 1 ≤
          trailingRoom payer sender := by
  have staged := stageTransactions_staged payer (.generated index) (rangeInstructions sdk payer
    sender (.generated (index + 1)) (.generated index) rent) [.generated (index + 1)] cluster
    proofBytes nonempty
  obtain ⟨first, middle, last, writes, single, used, plan⟩ := staged.shape
  have ending := last_write writes single used
  rw [writes] at staged
  have chunked : ∀ write ∈ middle, write.2.length ≤ recordWriteChunk := fun write member =>
    staged.laterChunks write (List.mem_append_left _ member)
  rw [plan, staging_fits_iff documented payer index _ _ (staged.firstChunk (0, first) rfl) chunked]
  rcases ending with ⟨short, rfl⟩ | ⟨long, write, rfl, size⟩
  · refine iff_of_true ?_ (.inl short)
    show format.size _ ≤ packetDataSize
    exact (size_verify documented sdk payer sender index rent _).trans (by decide)
  · have decided := writeVerify_fits_iff documented sdk payer sender index rent write
      [payer.pubkey, .generated (index + 1)]
    rw [size] at decided
    exact decided.trans (or_iff_right (Nat.not_le.mpr long)).symm

/-- The staging of a transfer submits beginnings of its plan, and all of it when it returns; every
transaction of the plan fits exactly when the proof fits the first write or its last chunk leaves
room for the trailing instructions. -/
theorem stageRangeProofRecord_fits_iff (sdk : Sdk) (cluster : Cluster) (payer sender : Wallet)
    (index rent : Nat) (proofBytes : List UInt8) (nonempty : proofBytes ≠ []) :
    (∀ world transcript outcome world', (chainSystem cluster).Runs world
      (stageRangeProofRecord payer (.generated index) (rangeInstructions sdk payer sender
        (.generated (index + 1)) (.generated index) rent) [.generated (index + 1)] proofBytes)
      transcript world' (.done outcome) →
        submitted transcript <+: stageTransactions payer (.generated index) (rangeInstructions sdk
          payer sender (.generated (index + 1)) (.generated index) rent) [.generated (index + 1)]
          cluster proofBytes ∧
        ∀ sigs, outcome = .ok sigs → submitted transcript = stageTransactions payer
          (.generated index) (rangeInstructions sdk payer sender (.generated (index + 1))
          (.generated index) rent) [.generated (index + 1)] cluster proofBytes) ∧
    ((∀ transaction ∈ stageTransactions payer (.generated index) (rangeInstructions sdk payer
        sender (.generated (index + 1)) (.generated index) rent) [.generated (index + 1)] cluster
        proofBytes, format.Fits transaction) ↔
      proofBytes.length ≤ recordFirstChunk ∨
        (proofBytes.length - recordFirstChunk - 1) % recordWriteChunk + 1 ≤
          trailingRoom payer sender) := by
  refine ⟨fun world transcript outcome world' run => ?_,
    stageTransactions_fits_iff documented sdk cluster payer sender index rent proofBytes nonempty⟩
  exact (stageRangeProofRecord_sends payer (.generated index) _ _ cluster proofBytes nonempty
    world).submitted_begins run

end Fitting

/-- A proof of one chunk and 755 bytes is the longest of two chunks that fits, for a payer that is
not the sender. -/
theorem stageRangeProofRecord_fits_iff_longest :
    (1505 - recordFirstChunk - 1) % recordWriteChunk + 1 = trailingRoom ⟨0⟩ ⟨1⟩ ∧
      ∀ transaction ∈ stageTransactions ⟨0⟩ (.generated 0) (rangeInstructions Sdk.ideal ⟨0⟩ ⟨1⟩
          (.generated (0 + 1)) (.generated 0) 1) [.generated (0 + 1)] Cluster.ideal
          (List.replicate 1505 0), WireFormat.legacy.Fits transaction :=
  ⟨by decide, (stageRangeProofRecord_fits_iff WireFormat.documented_legacy Sdk.ideal Cluster.ideal
    ⟨0⟩ ⟨1⟩ 0 1 (List.replicate 1505 0) (List.cons_ne_nil 0 (List.replicate 1504 0))).2.mpr
      (.inr (by rw [List.length_replicate]; decide))⟩

/-- One byte more does not fit: the last staging transaction has 1233 bytes. -/
theorem stageRangeProofRecord_overflows :
    WireFormat.legacy.Documented ∧
      ∃ transaction ∈ stageTransactions ⟨0⟩ (.generated 0) (rangeInstructions Sdk.ideal ⟨0⟩ ⟨1⟩
          (.generated 1) (.generated 0) 1) [.generated 1] Cluster.ideal (List.replicate 1506 0),
        WireFormat.legacy.size transaction = 1233 ∧ ¬ WireFormat.legacy.Fits transaction :=
  ⟨WireFormat.documented_legacy, by decide +kernel⟩

end ConfidentialBalances
