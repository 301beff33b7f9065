import ConfidentialBalances.ProofGeneration

/-!
# Staging the range proof

`stage_range_proof_record`: write a proof that is too long for one transaction
into a record account, chunk by chunk, and let the caller's instructions ride on
the last write.
-/

namespace ConfidentialBalances

open Effect

/-- Byte offset of the proof inside a record account. -/
def recordProofOffset : Nat := 33

/-- The first write's budget; it also carries the account's creation. -/
def recordFirstChunk : Nat := 750

/-- Every later write's budget. -/
def recordWriteChunk : Nat := 900

/-- `slice::chunks`, with the number of elements as fuel. -/
def chunksFrom {α : Type} (size : Nat) : Nat → List α → List (List α)
  | 0, _ => []
  | _ + 1, [] => []
  | fuel + 1, head :: tail =>
    (head :: tail).take size :: chunksFrom size fuel ((head :: tail).drop size)

/-- `slice::chunks`: consecutive pieces of the given size, the last one possibly shorter. -/
def chunks {α : Type} (size : Nat) (elements : List α) : List (List α) :=
  chunksFrom size elements.length elements

/-- The chunks of a list, put together again, are the list. -/
theorem chunksFrom_flatten {α : Type} (size fuel : Nat) (elements : List α)
    (positive : 0 < size) (enough : elements.length ≤ fuel) :
    (chunksFrom size fuel elements).flatten = elements := by
  induction fuel generalizing elements with
  | zero =>
    have empty : elements = [] := List.length_eq_zero_iff.mp (by omega)
    simp [chunksFrom, empty]
  | succ fuel ih =>
    cases elements with
    | nil => simp [chunksFrom]
    | cons head tail =>
      have shorter : ((head :: tail).drop size).length ≤ fuel := by
        simp only [List.length_drop, List.length_cons] at enough ⊢
        omega
      rw [chunksFrom, List.flatten_cons, ih _ shorter, List.take_append_drop]

/-- Chunking loses nothing. -/
theorem chunks_flatten {α : Type} (size : Nat) (elements : List α) (positive : 0 < size) :
    (chunks size elements).flatten = elements :=
  chunksFrom_flatten size elements.length elements positive (le_refl _)

section Staging

variable (payer : Wallet) (record : Pubkey) (trailingIxs : List Instruction)
  (trailingSigners : List Pubkey)

/-- One later write's instructions: the last write carries the trailing ones. -/
def writeInstructions (offset : Nat) (chunk : List UInt8) (last : Bool) : List Instruction :=
  .recordWrite record payer.pubkey offset chunk :: if last then trailingIxs else []

/-- One later write's signers. -/
def writeSigners (last : Bool) : List Pubkey :=
  payer.pubkey :: if last then trailingSigners else []

/-- The loop over the remaining chunks: the offset, the signatures so far and whether the
trailing instructions are attached are its state. -/
def writeChunks : List (List UInt8) → Nat → List Signature → Bool → Client (List Signature × Bool)
  | [], _, sigs, trailingAttached => pure (sigs, trailingAttached)
  | chunk :: rest, offset, sigs, trailingAttached => do
    let last := rest.isEmpty
    let sig ← sendTx (writeInstructions payer record trailingIxs offset chunk last)
      (writeSigners payer trailingSigners last) payer.pubkey
    writeChunks rest (offset + chunk.length) (sigs ++ [sig]) (trailingAttached || last)

/-- The first transaction's instructions. -/
def stageInstructions (rent space : Nat) (first : List UInt8) : List Instruction :=
  [.createAccount payer.pubkey record rent space .splRecord,
    .recordInitialize record payer.pubkey, .recordWrite record payer.pubkey 0 first]

/-- `stage_range_proof_record`. -/
def stageRangeProofRecord (proofBytes : List UInt8) : Client (List Signature) := do
  let space := proofBytes.length + recordProofOffset
  let rent ← getMinimumBalanceForRentExemption space
  if proofBytes.isEmpty then
    Program.fail (.message "range proof had no bytes to stage")
  else
    let firstLen := min proofBytes.length recordFirstChunk
    let first := proofBytes.take firstLen
    let rest := proofBytes.drop firstLen
    let sig ← sendTx (stageInstructions payer record rent space first) [payer.pubkey, record]
      payer.pubkey
    let (sigs, trailingAttached) ← writeChunks payer record trailingIxs trailingSigners
      (chunks recordWriteChunk rest) first.length [sig] false
    if !trailingAttached then
      -- The whole proof fitted the first write, so nothing carried the trailing instructions.
      let sig ← sendTx trailingIxs (payer.pubkey :: trailingSigners) payer.pubkey
      pure (sigs ++ [sig])
    else
      pure sigs

/-! ## What staging lands -/

/-- The later writes' transactions. -/
def writeTransactions : List (List UInt8) → Nat → List Transaction
  | [], _ => []
  | chunk :: rest, offset =>
    ⟨writeInstructions payer record trailingIxs offset chunk rest.isEmpty, payer.pubkey,
        writeSigners payer trailingSigners rest.isEmpty⟩ ::
      writeTransactions rest (offset + chunk.length)

/-- The transactions after the first: the later writes, or the trailing instructions alone. -/
def laterTransactions (first rest : List UInt8) : List Transaction :=
  if rest.isEmpty then [⟨trailingIxs, payer.pubkey, payer.pubkey :: trailingSigners⟩]
  else writeTransactions payer record trailingIxs trailingSigners (chunks recordWriteChunk rest)
    first.length

/-- All of staging's transactions. -/
def stageTransactions (cluster : Cluster) (proofBytes : List UInt8) : List Transaction :=
  let firstLen := min proofBytes.length recordFirstChunk
  let space := proofBytes.length + recordProofOffset
  ⟨stageInstructions payer record (cluster.rentExemption space) space (proofBytes.take firstLen),
      payer.pubkey, [payer.pubkey, record]⟩ ::
    laterTransactions payer record trailingIxs trailingSigners (proofBytes.take firstLen)
      (proofBytes.drop firstLen)

/-- A non-empty list of remaining bytes has a chunk. -/
theorem chunks_ne_nil {α : Type} (size : Nat) {elements : List α} (nonempty : elements ≠ []) :
    chunks size elements ≠ [] := by
  cases elements with
  | nil => contradiction
  | cons head tail => simp [chunks, chunksFrom]

/-- One transaction for every chunk. -/
theorem writeTransactions_length (remaining : List (List UInt8)) (offset : Nat) :
    (writeTransactions payer record trailingIxs trailingSigners remaining offset).length =
      remaining.length := by
  induction remaining generalizing offset with
  | nil => rfl
  | cons chunk rest ih => simp [writeTransactions, ih]

/-- At least one transaction follows the first. -/
theorem laterTransactions_ne_nil (first rest : List UInt8) :
    laterTransactions payer record trailingIxs trailingSigners first rest ≠ [] := by
  unfold laterTransactions
  split
  · simp
  · rename_i remains
    have nonempty : rest ≠ [] := by simpa using remains
    intro none
    have count := congrArg List.length none
    rw [writeTransactions_length, List.length_nil, List.length_eq_zero_iff] at count
    exact chunks_ne_nil recordWriteChunk nonempty count

/-- The loop sends the later writes. -/
theorem writeChunks_sends (cluster : Cluster) (chunk : List UInt8) (rest : List (List UInt8))
    (offset : Nat) (sigs : List Signature) (trailingAttached : Bool) (world : World) :
    Sends cluster
      (writeTransactions payer record trailingIxs trailingSigners (chunk :: rest) offset)
      (fun result world' => result =
          (sigs ++ Signature.span world.landed.length (rest.length + 1), true) ∧
        world'.generated = world.generated)
      (writeChunks payer record trailingIxs trailingSigners (chunk :: rest) offset sigs
        trailingAttached) world := by
  induction rest generalizing chunk offset sigs trailingAttached world with
  | nil =>
    refine sends_pure (sends_sendTx _ _ _) ?_
    rintro sig world' - ⟨rfl, -, same⟩
    exact ⟨by simp [Signature.span], same⟩
  | cons next rest ih =>
    refine sends_append [_] (sends_sendTx _ _ _) (by simp) ?_
    rintro sig world' landed ⟨rfl, -, same⟩
    have count : world'.landed.length = world.landed.length + 1 := by simp [landed]
    refine (ih next (offset + chunk.length) _ _ world').weaken ?_
    rintro result final ⟨rfl, generated⟩
    refine ⟨?_, generated.trans same⟩
    rw [count, List.length_cons, Signature.span_succ _ (rest.length + 1)]
    simp

/-- What staging sends after its first transaction. -/
theorem later_sends (cluster : Cluster) (first rest : List UInt8) (sig : Signature)
    (world : World) :
    Sends cluster (laterTransactions payer record trailingIxs trailingSigners first rest)
      (fun sigs world' => sigs = sig :: Signature.span world.landed.length
          (laterTransactions payer record trailingIxs trailingSigners first rest).length ∧
        world'.generated = world.generated)
      (do
        let (sigs, trailingAttached) ← writeChunks payer record trailingIxs trailingSigners
          (chunks recordWriteChunk rest) first.length [sig] false
        if !trailingAttached then
          let sig ← sendTx trailingIxs (payer.pubkey :: trailingSigners) payer.pubkey
          pure (sigs ++ [sig])
        else
          pure sigs) world := by
  by_cases empty : rest = []
  · subst empty
    show Sends cluster [_] _ (do
      let last ← sendTx trailingIxs (payer.pubkey :: trailingSigners) payer.pubkey
      pure ([sig] ++ [last])) world
    refine sends_pure (sends_sendTx _ _ _) ?_
    rintro last world' - ⟨rfl, -, same⟩
    exact ⟨rfl, same⟩
  · obtain ⟨chunk, remaining, split⟩ :=
      List.exists_cons_of_ne_nil (chunks_ne_nil recordWriteChunk empty)
    have plan : laterTransactions payer record trailingIxs trailingSigners first rest =
        writeTransactions payer record trailingIxs trailingSigners (chunk :: remaining)
          first.length := by
      rw [laterTransactions, if_neg fun none => empty (List.isEmpty_iff.mp none), split]
    rw [plan, split, writeTransactions_length]
    refine sends_surely (writeChunks_sends payer record trailingIxs trailingSigners cluster
      chunk remaining first.length [sig] false world) ?_
    rintro result world' - ⟨rfl, same⟩
    exact ⟨_, rfl, by simp, same⟩

/-- Staging a non-empty proof sends its transactions. -/
theorem stageRangeProofRecord_sends (cluster : Cluster) (proofBytes : List UInt8)
    (nonempty : proofBytes ≠ []) (world : World) :
    Sends cluster (stageTransactions payer record trailingIxs trailingSigners cluster proofBytes)
      (fun sigs world' => sigs = Signature.span world.landed.length (stageTransactions payer record
          trailingIxs trailingSigners cluster proofBytes).length ∧
        world'.generated = world.generated)
      (stageRangeProofRecord payer record trailingIxs trailingSigners proofBytes) world := by
  refine sends_rent (by simp [stageTransactions]) ?_
  have remains : proofBytes.isEmpty = false := by simpa using nonempty
  simp only [remains, Bool.false_eq_true, if_false]
  refine sends_append [_] (sends_sendTx _ _ _)
    (laterTransactions_ne_nil payer record trailingIxs trailingSigners _ _) ?_
  rintro sig world' landed ⟨rfl, -, same⟩
  refine (later_sends payer record trailingIxs trailingSigners cluster _ _ _ world').weaken ?_
  rintro sigs final ⟨rfl, generated⟩
  refine ⟨?_, generated.trans same⟩
  have count := congrArg List.length landed
  rw [List.length_append, List.length_singleton] at count
  rw [count, stageTransactions, List.length_cons, Signature.span_succ]

/-- Staging submits its transactions in order and returns one signature for each. -/
theorem stageRangeProofRecord_follows (cluster : Cluster) (proofBytes : List UInt8)
    (world : World) :
    Follows cluster (stageTransactions payer record trailingIxs trailingSigners cluster proofBytes)
      (fun sigs world' => sigs = Signature.span world.landed.length (stageTransactions payer record
          trailingIxs trailingSigners cluster proofBytes).length ∧
        proofBytes ≠ [] ∧ world'.generated = world.generated)
      (stageRangeProofRecord payer record trailingIxs trailingSigners proofBytes) world := by
  by_cases empty : proofBytes = []
  · subst empty
    exact submits_after (quietly_getMinimumBalanceForRentExemption _) fun _ _ _ _ => submits_fail
  · have sends := stageRangeProofRecord_sends payer record trailingIxs trailingSigners cluster
      proofBytes empty world
    exact (sends.weaken fun _ _ known => ⟨known.1, empty, known.2⟩).follows

/-- Every later write is the payer's, with the write's instructions. -/
theorem writeTransactions_forall (property : List Instruction → Prop)
    (write : ∀ offset chunk last,
      property (writeInstructions payer record trailingIxs offset chunk last))
    (remaining : List (List UInt8)) (offset : Nat) :
    ∀ transaction ∈ writeTransactions payer record trailingIxs trailingSigners remaining offset,
      transaction.payer = payer.pubkey ∧ property transaction.instructions := by
  induction remaining generalizing offset with
  | nil => simp [writeTransactions]
  | cons chunk rest ih =>
    intro transaction member
    rcases List.mem_cons.mp member with rfl | later
    · exact ⟨rfl, write _ _ _⟩
    · exact ih _ transaction later

/-- Every staging transaction is the payer's, and is the first one, a later write or the trailing
instructions alone. -/
theorem stageTransactions_forall (property : List Instruction → Prop) (cluster : Cluster)
    (stage : ∀ rent space first, property (stageInstructions payer record rent space first))
    (write : ∀ offset chunk last,
      property (writeInstructions payer record trailingIxs offset chunk last))
    (trailing : property trailingIxs) (proofBytes : List UInt8) :
    ∀ transaction ∈ stageTransactions payer record trailingIxs trailingSigners cluster proofBytes,
      transaction.payer = payer.pubkey ∧ property transaction.instructions := by
  intro transaction member
  rcases List.mem_cons.mp member with rfl | later
  · exact ⟨rfl, stage _ _ _⟩
  · unfold laterTransactions at later
    split at later
    · obtain rfl := List.mem_singleton.mp later
      exact ⟨rfl, trailing⟩
    · exact writeTransactions_forall payer record trailingIxs trailingSigners property write _ _
        transaction later

/-! ## What staging writes -/

variable {cluster : Cluster} {ledger ledger' : Ledger}

/-- Writing right after what is written, over what is still zero. -/
theorem spliceBytes_zeros (written chunk : List UInt8) (remaining : Nat) :
    Ledger.spliceBytes (written ++ List.replicate (chunk.length + remaining) 0) written.length
      chunk = written ++ chunk ++ List.replicate remaining 0 := by
  simp [Ledger.spliceBytes, List.drop_append]

/-- A landed write by the record's authority, in the middle of the zeros. -/
theorem recordWrite_zeros (written : List UInt8) {chunk : List UInt8} (remaining : Nat)
    (authority : Pubkey)
    (data : ledger.data record = .record authority
      (written ++ List.replicate (chunk.length + remaining) 0))
    (landed : ledger.recordWrite record payer.pubkey written.length chunk = some ledger') :
    ledger'.data = Function.update ledger.data record
      (.record payer.pubkey (written ++ chunk ++ List.replicate remaining 0)) := by
  obtain ⟨region, held, -, rfl⟩ := Ledger.recordWrite_some landed
  rw [data] at held
  obtain ⟨-, rfl⟩ := AccountData.record.inj held
  rw [Ledger.setData_data, spliceBytes_zeros]

/-- The later writes fill the record, and the trailing instructions run on the filled record. -/
theorem writeTransactions_fill (chunk : List UInt8) (rest : List (List UInt8))
    (written : List UInt8) {authority : Pubkey}
    (data : ledger.data record = .record authority
      (written ++ List.replicate (chunk :: rest).flatten.length 0))
    (landed : ledger.execTransactions cluster (writeTransactions payer record trailingIxs
      trailingSigners (chunk :: rest) written.length) = some ledger') :
    ∃ filled : Ledger, filled.data = Function.update ledger.data record
        (.record payer.pubkey (written ++ (chunk :: rest).flatten)) ∧
      filled.execInstructions cluster trailingIxs = some ledger' ∧
      filled.executedInstructions cluster trailingIxs <:+ ledger.executed cluster
        (writeTransactions payer record trailingIxs trailingSigners (chunk :: rest)
          written.length) := by
  induction rest generalizing chunk written ledger authority with
  | nil =>
    obtain ⟨next, ran, last⟩ := Option.bind_eq_some_iff.mp landed
    obtain rfl := Option.some.inj last
    obtain ⟨-, -, executed⟩ := Ledger.execTransaction_some ran
    obtain ⟨filled, wrote, trailing⟩ := Option.bind_eq_some_iff.mp executed
    refine ⟨filled, ?_, trailing, ?_⟩
    case refine_2 =>
      rw [writeTransactions, writeTransactions, Ledger.executed_cons ran]
      have traced := Ledger.executedInstructions_cons trailingIxs wrote
      exact ⟨[_], (traced.symm.trans (List.append_nil _).symm)⟩
    have filledData := recordWrite_zeros payer record written 0 authority (by simpa using data)
      wrote
    simpa using filledData
  | cons next rest ih =>
    obtain ⟨middle, ran, remaining⟩ := Option.bind_eq_some_iff.mp landed
    obtain ⟨-, -, executed⟩ := Ledger.execTransaction_some ran
    obtain ⟨wrote, write, last⟩ := Option.bind_eq_some_iff.mp executed
    obtain rfl := Option.some.inj last
    have middleData := recordWrite_zeros payer record written (next :: rest).flatten.length
      authority (by simpa using data) write
    have offset : written.length + chunk.length = (written ++ chunk).length := by simp
    rw [Ledger.chargeFee_data] at middleData
    rw [offset] at remaining
    obtain ⟨filled, filledData, trailing, traced⟩ := ih next (written ++ chunk)
      (by rw [middleData, Function.update_self]) remaining
    refine ⟨filled, ?_, trailing, ?_⟩
    case refine_2 =>
      rw [writeTransactions, Ledger.executed_cons ran, offset]
      exact traced.trans (List.suffix_append _ _)
    rw [filledData, middleData, Function.update_idem]
    simp

/-- The first transaction creates the record and writes the first piece of it. -/
theorem stageInstructions_data {rent space : Nat} (first : List UInt8) (remaining : Nat)
    (signers : List Pubkey) (sized : space = first.length + remaining + recordProofOffset)
    (landed : ledger.execTransaction cluster ⟨stageInstructions payer record rent space first,
      payer.pubkey, signers⟩ = some ledger') :
    ledger.data record = .empty ∧ ledger'.data = Function.update ledger.data record
      (.record payer.pubkey (first ++ List.replicate remaining 0)) := by
  obtain ⟨-, -, executed⟩ := Ledger.execTransaction_some landed
  obtain ⟨created, create, afterCreate⟩ := Option.bind_eq_some_iff.mp executed
  obtain ⟨initialized, init, afterInit⟩ := Option.bind_eq_some_iff.mp afterCreate
  obtain ⟨written, write, last⟩ := Option.bind_eq_some_iff.mp afterInit
  obtain rfl := Option.some.inj last
  obtain ⟨unused, -, -, rfl⟩ := Ledger.createAccount_some create
  obtain ⟨allocated, data, -, rfl⟩ := Ledger.recordInitialize_some init
  obtain rfl : space = allocated := by simpa using data
  have region : space - Ledger.recordDataStart = first.length + remaining := by
    simp [sized, recordProofOffset, Ledger.recordDataStart]
  have writtenData := recordWrite_zeros payer record [] remaining payer.pubkey (by simp [region])
    write
  refine ⟨unused, ?_⟩
  rw [writtenData]
  simp

/-- Staging creates the record and fills it with the whole proof, and the trailing instructions
run on the filled record. -/
theorem stageTransactions_fill (proofBytes : List UInt8)
    (landed : ledger.execTransactions cluster (stageTransactions payer record trailingIxs
      trailingSigners cluster proofBytes) = some ledger') :
    ledger.data record = .empty ∧
      ∃ filled : Ledger, filled.data = Function.update ledger.data record
          (.record payer.pubkey proofBytes) ∧
        filled.execInstructions cluster trailingIxs = some ledger' ∧
        filled.executedInstructions cluster trailingIxs <:+ ledger.executed cluster
          (stageTransactions payer record trailingIxs trailingSigners cluster proofBytes) := by
  obtain ⟨staged, ran, later⟩ := Option.bind_eq_some_iff.mp landed
  let first := proofBytes.take (min proofBytes.length recordFirstChunk)
  let rest := proofBytes.drop (min proofBytes.length recordFirstChunk)
  have whole : first ++ rest = proofBytes := List.take_append_drop _ _
  have space : first.length + rest.length = proofBytes.length := by
    rw [← List.length_append, whole]
  obtain ⟨unused, stagedData⟩ := stageInstructions_data payer record first rest.length
    [payer.pubkey, record] (by rw [space]) ran
  refine ⟨unused, ?_⟩
  have traced : staged.executed cluster
      (laterTransactions payer record trailingIxs trailingSigners first rest) <:+
        ledger.executed cluster
          (stageTransactions payer record trailingIxs trailingSigners cluster proofBytes) := by
    rw [stageTransactions, Ledger.executed_cons ran]
    exact List.suffix_append _ _
  change staged.execTransactions cluster
    (laterTransactions payer record trailingIxs trailingSigners first rest) = some ledger' at later
  by_cases empty : rest = []
  · have single : laterTransactions payer record trailingIxs trailingSigners first rest =
        [⟨trailingIxs, payer.pubkey, payer.pubkey :: trailingSigners⟩] := by
      simp [laterTransactions, empty]
    rw [single] at later
    obtain ⟨next, trailing, last⟩ := Option.bind_eq_some_iff.mp later
    obtain rfl := Option.some.inj last
    obtain ⟨-, -, executed⟩ := Ledger.execTransaction_some trailing
    refine ⟨_, ?_, executed, List.IsSuffix.trans ?_ traced⟩
    · rw [Ledger.chargeFee_data, stagedData, ← whole, empty]
      simp
    · rw [single, Ledger.executed_cons trailing]
      exact ⟨[], by simp [Ledger.executed]⟩
  · obtain ⟨chunk, remaining, split⟩ :=
      List.exists_cons_of_ne_nil (chunks_ne_nil recordWriteChunk empty)
    have flat : (chunk :: remaining).flatten = rest := by
      rw [← split]
      exact chunks_flatten recordWriteChunk rest (by decide)
    have several : laterTransactions payer record trailingIxs trailingSigners first rest =
        writeTransactions payer record trailingIxs trailingSigners (chunk :: remaining)
          first.length := by
      simp [laterTransactions, empty, split]
    rw [several] at later
    obtain ⟨filled, filledData, trailing, tail⟩ := writeTransactions_fill payer record trailingIxs
      trailingSigners chunk remaining first (by rw [stagedData, flat, Function.update_self]) later
    refine ⟨filled, ?_, trailing, List.IsSuffix.trans (several ▸ tail) traced⟩
    rw [filledData, stagedData, flat, whole, Function.update_idem]

end Staging

end ConfidentialBalances
