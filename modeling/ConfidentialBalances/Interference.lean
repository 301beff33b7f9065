import ConfidentialBalances.OperationEffects

/-!
# Transactions among others

What the transactions of one call do when others land between them. The others
leave the call's own accounts alone, and that is enough: the contexts and the
record that its last transaction refers to are there as it made them, whatever
has become of everything else.
-/

namespace ConfidentialBalances

namespace Ledger

/-- Two ledgers hold the same data at some addresses. -/
def Agrees (keys : List Pubkey) (ledger ledger' : Ledger) : Prop :=
  ∀ key ∈ keys, ledger'.data key = ledger.data key

/-- Some transactions land in this order, among others that leave some addresses alone. -/
inductive Amid (cluster : Cluster) (keys : List Pubkey) : Ledger → List Transaction → Ledger → Prop
  /-- Only others land. -/
  | done {ledger ledger' : Ledger} (same : Agrees keys ledger ledger') :
      Amid cluster keys ledger [] ledger'
  /-- Others land, and then the first of them. -/
  | lands {ledger middle next ledger' : Ledger} {transaction : Transaction}
      {rest : List Transaction} (same : Agrees keys ledger middle)
      (landed : middle.execTransaction cluster transaction = some next)
      (later : Amid cluster keys next rest ledger') :
      Amid cluster keys ledger (transaction :: rest) ledger'

namespace Amid

variable {cluster : Cluster} {keys : List Pubkey} {ledger ledger' ledger'' : Ledger}
variable {first second : List Transaction} {transaction : Transaction}

/-- Others may land after them. -/
theorem others (amid : Amid cluster keys ledger first ledger')
    (same : Agrees keys ledger' ledger'') : Amid cluster keys ledger first ledger'' := by
  induction amid with
  | done earlier => exact .done fun key own => (same key own).trans (earlier key own)
  | lands earlier landed _ ih => exact .lands earlier landed (ih same)

/-- One more of them may land. -/
theorem snoc (amid : Amid cluster keys ledger first ledger')
    (landed : ledger'.execTransaction cluster transaction = some ledger'') :
    Amid cluster keys ledger (first ++ [transaction]) ledger'' := by
  induction amid with
  | done same => exact .lands same landed (.done fun _ _ => rfl)
  | lands same earlier _ ih => exact .lands same earlier (ih landed)

/-- The first of them land before the others. -/
theorem split (amid : Amid cluster keys ledger (first ++ second) ledger') :
    ∃ middle, Amid cluster keys ledger first middle ∧ Amid cluster keys middle second ledger' := by
  induction first generalizing ledger with
  | nil => exact ⟨ledger, .done fun _ _ => rfl, amid⟩
  | cons transaction rest ih =>
    cases amid with
    | lands same landed later =>
      obtain ⟨middle, here, there⟩ := ih later
      exact ⟨middle, .lands same landed here, there⟩

/-- The rest of them land after the first. -/
theorem tail (amid : Amid cluster keys ledger (transaction :: second) ledger') :
    ∃ middle, Amid cluster keys middle second ledger' := by
  cases amid with
  | lands _ _ later => exact ⟨_, later⟩

/-- An address that none of them writes holds what it held. -/
theorem kept (amid : Amid cluster keys ledger first ledger') {key : Pubkey} (own : key ∈ keys)
    (unwritten : ∀ transaction ∈ first, ∀ instruction ∈ transaction.instructions,
      key ∉ instruction.writes) : ledger'.data key = ledger.data key := by
  induction amid with
  | done same => exact same key own
  | lands same landed _ ih =>
    have stays := execTransaction_data landed (unwritten _ List.mem_cons_self)
    rw [ih fun transaction member => unwritten transaction (List.mem_cons_of_mem _ member), stays,
      same key own]

/-- A context that is created and verified, and not written again, is there at the end. -/
theorem context {sdk : Sdk} {payer authority : Wallet} {proofType : ProofType} {account : Pubkey}
    {rent : Nat} {proof : List UInt8} {signers : List Pubkey}
    (amid : Amid cluster keys ledger (⟨createAndVerify sdk payer authority proofType account rent
      proof, payer.pubkey, signers⟩ :: second) ledger') (own : account ∈ keys)
    (unwritten : ∀ transaction ∈ second, ∀ instruction ∈ transaction.instructions,
      account ∉ instruction.writes) :
    ∃ context, cluster.verify proofType proof = some context ∧
      ledger'.data account = .proofContext authority.pubkey proof context := by
  cases amid with
  | lands same landed later =>
    obtain ⟨-, -, executed⟩ := execTransaction_some landed
    obtain ⟨-, context, stated, created⟩ := createAndVerify_data executed
    refine ⟨context, stated, ?_⟩
    rw [later.kept own unwritten, created, Function.update_self]

section Staging

variable {payer : Wallet} {record : Pubkey} {trailing : List Instruction} {signers : List Pubkey}

/-- The later writes fill the record, and what rides on the last of them runs on the whole. -/
theorem filled (own : record ∈ keys) (chunk : List UInt8) (rest : List (List UInt8))
    (written : List UInt8) {authority : Pubkey}
    (data : ledger.data record = .record authority
      (written ++ List.replicate (chunk :: rest).flatten.length 0))
    (amid : Amid cluster keys ledger (writeTransactions payer record trailing signers
      (chunk :: rest) written.length) ledger') :
    ∃ whole last : Ledger, whole.data record =
        .record payer.pubkey (written ++ (chunk :: rest).flatten) ∧
      whole.execInstructions cluster trailing = some last ∧ Agrees keys last ledger' := by
  induction rest generalizing chunk written ledger authority with
  | nil =>
    cases amid with
    | lands same landed later =>
      obtain ⟨-, -, executed⟩ := execTransaction_some landed
      obtain ⟨whole, wrote, riding⟩ := Option.bind_eq_some_iff.mp executed
      have filledData := recordWrite_zeros payer record written 0 authority
        (by simpa [same record own] using data) wrote
      cases later with
      | done after => exact ⟨whole, _, by simp [filledData], riding, after⟩
  | cons next rest ih =>
    cases amid with
    | lands same landed later =>
      obtain ⟨-, -, executed⟩ := execTransaction_some landed
      obtain ⟨wrote, write, last⟩ := Option.bind_eq_some_iff.mp executed
      obtain rfl := Option.some.inj last
      have middleData := recordWrite_zeros payer record written (next :: rest).flatten.length
        authority (by simpa [same record own] using data) write
      have offset : written.length + chunk.length = (written ++ chunk).length := by simp
      rw [offset] at later
      obtain ⟨whole, last, wholeData, riding, after⟩ := ih next (written ++ chunk)
        (by rw [middleData, Function.update_self]) later
      exact ⟨whole, last, by simpa using wholeData, riding, after⟩

/-- Staging fills the record with the whole proof, and what rides on it runs on the whole. -/
theorem staged {proofBytes : List UInt8} (own : record ∈ keys)
    (amid : Amid cluster keys ledger
      (stageTransactions payer record trailing signers cluster proofBytes) ledger') :
    ∃ whole last : Ledger, whole.data record = .record payer.pubkey proofBytes ∧
      whole.execInstructions cluster trailing = some last ∧ Agrees keys last ledger' := by
  cases amid with
  | @lands _ _ staged _ _ _ same landed later =>
    set first := proofBytes.take (min proofBytes.length recordFirstChunk) with firstEq
    set rest := proofBytes.drop (min proofBytes.length recordFirstChunk) with restEq
    have whole : first ++ rest = proofBytes := List.take_append_drop _ _
    have space : first.length + rest.length = proofBytes.length := by
      rw [← List.length_append, whole]
    obtain ⟨-, stagedData⟩ := stageInstructions_data payer record first rest.length
      [payer.pubkey, record] (by rw [space]) landed
    by_cases empty : rest = []
    · have single : laterTransactions payer record trailing signers first rest =
          [⟨trailing, payer.pubkey, payer.pubkey :: signers⟩] := by
        simp [laterTransactions, empty]
      rw [single] at later
      cases later with
      | lands between ran ended =>
        obtain ⟨-, -, executed⟩ := execTransaction_some ran
        cases ended with
        | done after =>
          refine ⟨_, _, ?_, executed, after⟩
          rw [chargeFee_data, between record own, stagedData, Function.update_self, ← whole, empty]
          simp
    · obtain ⟨chunk, remaining, pieces⟩ :=
        List.exists_cons_of_ne_nil (chunks_ne_nil recordWriteChunk empty)
      have flat : (chunk :: remaining).flatten = rest := by
        rw [← pieces]
        exact chunks_flatten recordWriteChunk rest (by decide)
      have several : laterTransactions payer record trailing signers first rest =
          writeTransactions payer record trailing signers (chunk :: remaining) first.length := by
        simp [laterTransactions, empty, pieces]
      rw [several] at later
      obtain ⟨filled, last, filledData, riding, after⟩ := filled own chunk remaining first
        (by rw [stagedData, flat, Function.update_self]) later
      exact ⟨filled, last, by rw [filledData, flat, whole], riding, after⟩

end Staging

end Amid

end Ledger

/-! ## What a spend sets up -/

section Spends

variable (sdk : Sdk) (cluster : Cluster) (payer owner : Wallet) (mint : Pubkey)

/-- The accounts that a withdraw creates. -/
structure WithdrawAccounts where
  /-- The equality context. -/
  equality : Pubkey
  /-- The range context. -/
  range : Pubkey
  deriving DecidableEq, Repr

/-- The addresses of a withdraw's accounts. -/
def WithdrawAccounts.keys (accounts : WithdrawAccounts) : List Pubkey :=
  [accounts.equality, accounts.range]

/-- A withdraw's transactions before the withdraw itself. -/
def WithdrawAccounts.setup (accounts : WithdrawAccounts) (data : WithdrawProofData) :
    List Transaction :=
  [⟨createAndVerify sdk payer owner .ciphertextCommitmentEquality accounts.equality
      (cluster.rentExemption (sdk.contextStateSize .ciphertextCommitmentEquality))
      data.equalityProofData, payer.pubkey, [payer.pubkey, owner.pubkey, accounts.equality]⟩,
    ⟨createAndVerify sdk payer owner .batchedRangeProofU64 accounts.range
      (cluster.rentExemption (sdk.contextStateSize .batchedRangeProofU64))
      data.rangeProofData, payer.pubkey, [payer.pubkey, owner.pubkey, accounts.range]⟩]

/-- The withdraw itself. -/
def WithdrawAccounts.spend (accounts : WithdrawAccounts) (amount decimals : Nat)
    (newDecryptable : AeCiphertext) : Transaction :=
  ⟨withdrawInstructions owner mint amount decimals newDecryptable accounts.equality accounts.range,
    payer.pubkey, [payer.pubkey, owner.pubkey]⟩

/-- The accounts that a transfer creates. -/
structure TransferAccounts where
  /-- The equality context. -/
  equality : Pubkey
  /-- The validity context. -/
  validity : Pubkey
  /-- The record of the range proof. -/
  record : Pubkey
  /-- The range context. -/
  range : Pubkey
  deriving DecidableEq, Repr

/-- The addresses of a transfer's accounts. -/
def TransferAccounts.keys (accounts : TransferAccounts) : List Pubkey :=
  [accounts.equality, accounts.validity, accounts.record, accounts.range]

/-- A transfer's transactions before the transfer itself. -/
def TransferAccounts.setup (accounts : TransferAccounts) (data : TransferProofData) :
    List Transaction :=
  [⟨createAndVerify sdk payer owner .ciphertextCommitmentEquality accounts.equality
      (cluster.rentExemption (sdk.contextStateSize .ciphertextCommitmentEquality))
      data.equalityProofData, payer.pubkey, [payer.pubkey, accounts.equality]⟩,
    ⟨createAndVerify sdk payer owner .batchedGroupedCiphertext3HandlesValidity accounts.validity
      (cluster.rentExemption (sdk.contextStateSize .batchedGroupedCiphertext3HandlesValidity))
      data.ciphertextValidityProofData, payer.pubkey, [payer.pubkey, accounts.validity]⟩] ++
    stageTransactions payer accounts.record
      (rangeInstructions sdk payer owner accounts.range accounts.record
        (cluster.rentExemption (sdk.contextStateSize .batchedRangeProofU128)))
      [accounts.range] cluster data.rangeProofData

/-- The transfer itself, which closes the accounts behind it. -/
def TransferAccounts.spend (accounts : TransferAccounts) (recipient : Pubkey)
    (newDecryptable : AeCiphertext) (data : TransferProofData) : Transaction :=
  ⟨transferInstructions payer owner mint recipient newDecryptable data.ciphertextLo
      data.ciphertextHi accounts.equality accounts.validity accounts.range accounts.record,
    payer.pubkey, [payer.pubkey, owner.pubkey]⟩

variable {sdk cluster payer owner mint} {owned : List Pubkey} {ledger ledger' : Ledger}

/-- Whatever lands in between, a withdraw's contexts are there once they are set up. -/
theorem WithdrawAccounts.ready {accounts : WithdrawAccounts} {data : WithdrawProofData}
    (distinct : accounts.keys.Nodup) (own : ∀ key ∈ accounts.keys, key ∈ owned)
    (amid : Ledger.Amid cluster owned ledger (accounts.setup sdk cluster payer owner data)
      ledger') :
    (∃ equality, cluster.verify .ciphertextCommitmentEquality data.equalityProofData =
        some equality ∧ (ledger'.data accounts.equality).context? = some equality) ∧
      ∃ range, cluster.verify .batchedRangeProofU64 data.rangeProofData = some range ∧
        (ledger'.data accounts.range).context? = some range := by
  simp only [keys, List.nodup_cons, List.mem_singleton, List.not_mem_nil, not_false_eq_true,
    List.nodup_nil, and_true] at distinct
  simp only [keys, List.forall_mem_cons, List.not_mem_nil, false_implies, implies_true,
    and_true] at own
  obtain ⟨middle, later⟩ := amid.tail
  obtain ⟨equality, stated, held⟩ := amid.context own.1
    (by simp [createAndVerify, Instruction.writes, distinct])
  obtain ⟨range, rangeStated, rangeHeld⟩ := later.context own.2 (by simp)
  exact ⟨⟨equality, stated, by rw [held]; rfl⟩, range, rangeStated, by rw [rangeHeld]; rfl⟩

/-- Whatever lands in between, a transfer's contexts are there once they are set up. -/
theorem TransferAccounts.ready {accounts : TransferAccounts} {data : TransferProofData}
    (distinct : accounts.keys.Nodup) (own : ∀ key ∈ accounts.keys, key ∈ owned)
    (amid : Ledger.Amid cluster owned ledger (accounts.setup sdk cluster payer owner data)
      ledger') :
    (∃ equality, cluster.verify .ciphertextCommitmentEquality data.equalityProofData =
        some equality ∧ (ledger'.data accounts.equality).context? = some equality) ∧
      (∃ validity, cluster.verify .batchedGroupedCiphertext3HandlesValidity
          data.ciphertextValidityProofData = some validity ∧
        (ledger'.data accounts.validity).context? = some validity) ∧
      ∃ range, cluster.verify .batchedRangeProofU128 data.rangeProofData = some range ∧
        (ledger'.data accounts.range).context? = some range := by
  simp only [keys, List.nodup_cons, List.mem_cons, List.not_mem_nil,
    not_false_eq_true, List.nodup_nil, and_true, not_or, or_false] at distinct
  obtain ⟨⟨notValidity, notRecord, notRange⟩, ⟨validityRecord, validityRange⟩, recordRange⟩ :=
    distinct
  simp only [keys, List.forall_mem_cons, List.not_mem_nil, false_implies, implies_true,
    and_true] at own
  obtain ⟨equalityOwn, validityOwn, recordOwn, rangeOwn⟩ := own
  -- Staging writes the record and the range context, and neither of the others.
  have staging {key : Pubkey} (record : key ≠ accounts.record) (range : key ≠ accounts.range) :
      ∀ transaction ∈ stageTransactions payer accounts.record
        (rangeInstructions sdk payer owner accounts.range accounts.record
          (cluster.rentExemption (sdk.contextStateSize .batchedRangeProofU128)))
        [accounts.range] cluster data.rangeProofData,
        ∀ instruction ∈ transaction.instructions, key ∉ instruction.writes := by
    intro transaction member
    refine (stageTransactions_forall payer accounts.record _ _ (fun instructions =>
      ∀ instruction ∈ instructions, key ∉ instruction.writes) cluster ?_ ?_ ?_ _ transaction
      member).2
    · simp [stageInstructions, Instruction.writes, record]
    · intro offset chunk last
      cases last <;> simp [writeInstructions, rangeInstructions, Instruction.writes, record, range]
    · simp [rangeInstructions, Instruction.writes, range]
  obtain ⟨first, afterFirst⟩ := amid.tail
  obtain ⟨second, afterSecond⟩ := afterFirst.tail
  obtain ⟨equality, stated, held⟩ := amid.context equalityOwn (List.forall_mem_cons.mpr
    ⟨by simp [createAndVerify, Instruction.writes, notValidity], staging notRecord notRange⟩)
  obtain ⟨validity, validityStated, validityHeld⟩ :=
    afterFirst.context validityOwn (staging validityRecord validityRange)
  obtain ⟨whole, last, wholeData, riding, after⟩ := afterSecond.staged recordOwn
  obtain ⟨-, range, rangeStated, rangeHeld, -⟩ :=
    TransferRun.rangeInstructions_data recordRange wholeData riding
  refine ⟨⟨equality, stated, by rw [held]; rfl⟩, ⟨validity, validityStated, by
    rw [validityHeld]; rfl⟩, range, rangeStated, ?_⟩
  rw [after _ rangeOwn, rangeHeld, Function.update_self]
  rfl

/-- A withdraw whose contexts are there executes on the account as it is what was computed from the
account as it was. -/
theorem WithdrawAccounts.executes {accounts : WithdrawAccounts} {amount decimals : Nat}
    {values : WithdrawValues} {snapshot : ConfidentialTransferAccount}
    (computed : withdrawValues sdk owner.confidentialKeys snapshot amount = .ok values)
    (distinct : accounts.keys.Nodup) (own : ∀ key ∈ accounts.keys, key ∈ owned)
    {start : Ledger} (amid : Ledger.Amid cluster owned start
      (accounts.setup sdk cluster payer owner values.proofData) ledger)
    (landed : ledger.execTransaction cluster (accounts.spend payer owner mint amount decimals
      values.newDecryptable) = some ledger') :
    ∃ extension extension' amount', Executes sdk cluster owner.confidentialKeys snapshot
        (.withdraw amount) extension extension' ∧
      ledger.Changes ledger' (getAssociatedTokenAddress owner.pubkey mint) extension extension'
        amount' (amount' + amount) := by
  obtain ⟨⟨equality, stated, held⟩, range, rangeStated, rangeHeld⟩ :=
    WithdrawAccounts.ready distinct own amid
  obtain ⟨charged, same, executed⟩ := Ledger.execTransaction_single landed
  obtain ⟨token, state, extension, equality', range', extension', data, -, confidential, context,
    rangeContext, accepted, -, -, -, rfl⟩ := Ledger.withdraw_some executed
  rw [same] at context rangeContext
  obtain rfl : equality = equality' := Option.some.inj (held.symm.trans context)
  obtain rfl : range = range' := Option.some.inj (rangeHeld.symm.trans rangeContext)
  have paid : ledger.Untouched charged := fun key => by rw [same]
  exact ⟨extension, extension', token.amount, .withdraw computed stated rangeStated accepted,
    (Ledger.changes_setData extension' data confidential (token.amount + amount)).congr paid
      fun key => rfl⟩

/-- A transfer whose contexts are there executes on the sender's account as it is what was computed
from the account as it was, and credits the recipient with the amount. -/
theorem TransferAccounts.executes (honest : Honest sdk cluster) {accounts : TransferAccounts}
    {recipient : Pubkey} {amount : Nat} {data : TransferProofData} {newDecryptable : AeCiphertext}
    {snapshot : ConfidentialTransferAccount} {recipientKey : ElGamalPubkey}
    {auditor : Option ElGamalPubkey}
    (generated : sdk.transferSplitProofData snapshot.availableBalance
      snapshot.decryptableAvailableBalance amount owner.confidentialKeys.elgamal
      owner.confidentialKeys.aes recipientKey auditor = .ok data)
    (covers : transferNewDecryptable owner.confidentialKeys.aes snapshot.decryptableAvailableBalance
      amount = .ok newDecryptable)
    (distinct : accounts.keys.Nodup) (own : ∀ key ∈ accounts.keys, key ∈ owned)
    {start : Ledger} (amid : Ledger.Amid cluster owned start
      (accounts.setup sdk cluster payer owner data) ledger)
    (landed : ledger.execTransaction cluster (accounts.spend payer owner mint recipient
      newDecryptable data) = some ledger') :
    ∃ middle extension extension' amount', Executes sdk cluster owner.confidentialKeys snapshot
        (.transfer amount recipientKey auditor) extension extension' ∧
      ledger.Changes middle (getAssociatedTokenAddress owner.pubkey mint) extension extension'
        amount' amount' ∧
      ∃ transfer received received' received'', transfer.Carries amount ∧ amount < 2 ^ 48 ∧
        received.transferIn (.validity transfer) = some received' ∧
        middle.Changes ledger' (getAssociatedTokenAddress recipient mint) received received'
          received'' received'' := by
  obtain ⟨⟨equality, equalityStated, equalityReady⟩, ⟨validity, validityStated, validityReady⟩,
    range, rangeStated, rangeReady⟩ := TransferAccounts.ready distinct own amid
  obtain ⟨transferred, executed, closed⟩ :=
    Ledger.execTransaction_head (by rfl) (by simp [Instruction.tokenWrites]) landed
  obtain ⟨equality', validity', range', middle, equalityHeld, validityHeld, rangeHeld, debit,
    credit⟩ := Ledger.innerTransfer_some executed
  simp only [Ledger.chargeFee_data] at equalityHeld validityHeld rangeHeld
  obtain rfl : equality = equality' := Option.some.inj (equalityReady.symm.trans equalityHeld)
  obtain rfl : validity = validity' := Option.some.inj (validityReady.symm.trans validityHeld)
  obtain rfl : range = range' := Option.some.inj (rangeReady.symm.trans rangeHeld)
  obtain ⟨token, extension, debited, held, confidential, accepted, -, -, rfl⟩ :=
    Ledger.transferOut_some debit
  obtain ⟨token', received, credited, held', confidential', receives, -, rfl⟩ :=
    Ledger.transferIn_some credit
  have paid (fee : Nat) : ledger.Untouched (ledger.chargeFee payer.pubkey fee) := fun key => rfl
  have out := (Ledger.changes_setData debited held confidential token.amount).congr (paid _)
    fun key => rfl
  have into := (Ledger.changes_setData credited held' confidential'
    token'.amount).congr (fun key => rfl) closed
  obtain ⟨plaintext, decrypted, covered, stated⟩ := honest.transfers _ _ _ _ _ _ _ _ generated
  obtain ⟨transfer, commitment, -, -, lo, hi, -, rfl, rfl, rfl⟩ :=
    stated _ _ _ equalityStated validityStated rangeStated
  have inRange : 0 ≤ transfer.hi.amount ∧ transfer.hi.amount < 2 ^ 32 :=
    honest.sound _ _ _ rangeStated (transfer.hi, 32) (by simp)
  refine ⟨_, extension, debited, token.amount,
    .transfer generated covers equalityStated validityStated rangeStated accepted, out, transfer,
    received, credited, token'.amount, ⟨lo, hi⟩, ?_, receives, into⟩
  rw [hi, pendingBalanceLoBits] at inRange
  omega

end Spends

end ConfidentialBalances
