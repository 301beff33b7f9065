import ConfidentialBalances.IdealProofs
import ConfidentialBalances.Transfer

/-!
# Reassembling the staged proof

The writes of a staging run cover the proof from its first byte to its last,
without gap or overlap, for every length. The trailing instructions ride once,
after the last byte, and a failed send leaves exactly the transactions before it.
-/

namespace ConfidentialBalances

open Effect

/-! ## Chunks -/

/-- So many transactions stage a proof of this length: the first, and one for every further chunk,
or one that carries the trailing instructions alone. -/
def stagingCount (length : Nat) : Nat :=
  1 + max 1 ((length - recordFirstChunk + (recordWriteChunk - 1)) / recordWriteChunk)

/-- Chunks are not empty and keep to the size. -/
theorem chunksFrom_bounds {α : Type} (size fuel : Nat) (elements : List α) (positive : 0 < size) :
    ∀ chunk ∈ chunksFrom size fuel elements, chunk ≠ [] ∧ chunk.length ≤ size := by
  induction fuel generalizing elements with
  | zero => simp [chunksFrom]
  | succ fuel ih =>
    cases elements with
    | nil => simp [chunksFrom]
    | cons head tail =>
      intro chunk member
      rcases List.mem_cons.mp member with rfl | later
      · refine ⟨?_, List.length_take_le _ _⟩
        intro empty
        have length := congrArg List.length empty
        simp only [List.length_take, List.length_cons, List.length_nil] at length
        omega
      · exact ih _ chunk later

/-- There are as many chunks as it takes, the last one rounded up. -/
theorem chunksFrom_length {α : Type} (size fuel : Nat) (elements : List α) (positive : 0 < size)
    (enough : elements.length ≤ fuel) :
    (chunksFrom size fuel elements).length = (elements.length + (size - 1)) / size := by
  induction fuel generalizing elements with
  | zero =>
    have none : elements.length = 0 := by omega
    rw [none, chunksFrom, List.length_nil, Nat.div_eq_of_lt (by omega)]
  | succ fuel ih =>
    cases elements with
    | nil =>
      simp only [chunksFrom, List.length_nil, Nat.zero_add]
      rw [Nat.div_eq_of_lt (by omega)]
    | cons head tail =>
      rw [chunksFrom, List.length_cons, ih _ (by
        rw [List.length_drop]
        simp only [List.length_cons] at enough ⊢
        omega), List.length_drop]
      by_cases fits : (head :: tail).length ≤ size
      · have one : ((head :: tail).length + (size - 1)) / size = 1 := by
          refine Nat.div_eq_of_lt_le ?_ ?_ <;> simp only [List.length_cons] at fits ⊢ <;> omega
        rw [one, Nat.sub_eq_zero_of_le fits, Nat.div_eq_of_lt (by omega)]
      · have split : (head :: tail).length + (size - 1) =
            ((head :: tail).length - size + (size - 1)) + size := by omega
        rw [split, Nat.add_div_right _ positive]

/-- The last chunk holds what remains after whole chunks, a whole chunk rather than nothing. -/
theorem chunksFrom_last {α : Type} (size fuel : Nat) (elements : List α) (positive : 0 < size)
    (enough : elements.length ≤ fuel) (nonempty : elements ≠ []) :
    ∃ early final, chunksFrom size fuel elements = early ++ [final] ∧
      final.length = (elements.length - 1) % size + 1 := by
  induction fuel generalizing elements with
  | zero => exact absurd (List.length_eq_zero_iff.mp (by omega)) nonempty
  | succ fuel ih =>
    obtain ⟨head, tail, rfl⟩ := List.exists_cons_of_ne_nil nonempty
    by_cases fits : (head :: tail).length ≤ size
    · refine ⟨[], head :: tail, ?_, ?_⟩
      · rw [chunksFrom, List.take_of_length_le fits, List.drop_of_length_le fits]
        cases fuel <;> rfl
      · rw [Nat.mod_eq_of_lt (by omega)]
        simp
    · have remains : (head :: tail).drop size ≠ [] := by
        rw [ne_eq, List.drop_eq_nil_iff]
        exact fits
      obtain ⟨early, final, split, length⟩ := ih ((head :: tail).drop size) (by
        rw [List.length_drop]
        omega) remains
      refine ⟨(head :: tail).take size :: early, final, ?_, ?_⟩
      · rw [chunksFrom, split, List.cons_append]
      · rw [length, List.length_drop, Nat.mod_eq_sub_mod (a := (head :: tail).length - 1)
          (by omega)]
        congr 2
        omega

/-- The writes from an offset on: each chunk where the one before it ends. -/
def writesFrom : Nat → List (List UInt8) → List (Nat × List UInt8)
  | _, [] => []
  | offset, chunk :: rest => (offset, chunk) :: writesFrom (offset + chunk.length) rest

/-- The writes go from one place to another without gap or overlap, and none is empty. -/
def Contiguous (final : Nat) : Nat → List (Nat × List UInt8) → Prop
  | start, [] => start = final
  | start, (offset, bytes) :: rest =>
    offset = start ∧ bytes ≠ [] ∧ start + bytes.length ≤ final ∧
      Contiguous final (start + bytes.length) rest

/-- The writes of non-empty chunks are contiguous. -/
theorem writesFrom_contiguous (offset : Nat) (pieces : List (List UInt8))
    (filled : ∀ piece ∈ pieces, piece ≠ []) :
    Contiguous (offset + pieces.flatten.length) offset (writesFrom offset pieces) := by
  induction pieces generalizing offset with
  | nil => simp [writesFrom, Contiguous]
  | cons piece rest ih =>
    have later := ih (offset + piece.length) fun other member =>
      filled other (List.mem_cons_of_mem _ member)
    refine ⟨rfl, filled piece List.mem_cons_self, ?_, ?_⟩
    · simp only [List.flatten_cons, List.length_append]
      omega
    · rw [List.flatten_cons, List.length_append, ← Nat.add_assoc]
      exact later

/-- The writes hold the chunks. -/
theorem writesFrom_bytes (offset : Nat) (pieces : List (List UInt8)) :
    (writesFrom offset pieces).map Prod.snd = pieces := by
  induction pieces generalizing offset with
  | nil => rfl
  | cons piece rest ih => rw [writesFrom, List.map_cons, ih]

section Staging

variable (payer : Wallet) (record : Pubkey) (trailingIxs : List Instruction)
  (trailingSigners : List Pubkey)

/-- The pieces a proof is written in. -/
def proofPieces (proofBytes : List UInt8) : List (List UInt8) :=
  proofBytes.take (min proofBytes.length recordFirstChunk) ::
    chunks recordWriteChunk (proofBytes.drop (min proofBytes.length recordFirstChunk))

/-- The instruction of one write. -/
def writeInstruction (write : Nat × List UInt8) : Instruction :=
  .recordWrite record payer.pubkey write.1 write.2

/-- These transactions stage the proof by these writes. -/
structure StagedIn (cluster : Cluster) (proofBytes : List UInt8) (plan : List Transaction)
    (writes : List (Nat × List UInt8)) : Prop where
  /-- The first transaction creates, initialises and writes; the middle ones write; the last one
  alone carries the trailing instructions and their signers, after the last of the later writes
  when there are any. -/
  shape : ∃ first middle last, writes = (0, first) :: (middle ++ last) ∧ last.length ≤ 1 ∧
    (last = [] → middle = []) ∧ plan = ⟨stageInstructions payer record
          (cluster.rentExemption (proofBytes.length + recordProofOffset))
          (proofBytes.length + recordProofOffset) first, payer.pubkey, [payer.pubkey, record]⟩ ::
      middle.map (fun write => ⟨[writeInstruction payer record write], payer.pubkey,
        [payer.pubkey]⟩) ++
      [⟨last.map (writeInstruction payer record) ++ trailingIxs, payer.pubkey,
        payer.pubkey :: trailingSigners⟩]
  /-- The writes are contiguous from the first byte to the last, and none is empty. -/
  contiguous : Contiguous proofBytes.length 0 writes
  /-- Together they are the proof. -/
  whole : (writes.map Prod.snd).flatten = proofBytes
  /-- The first write keeps to its budget. -/
  firstChunk : ∀ write ∈ writes.head?, write.2.length ≤ recordFirstChunk
  /-- The others keep to theirs. -/
  laterChunks : ∀ write ∈ writes.tail, write.2.length ≤ recordWriteChunk
  /-- The number of transactions. -/
  count : plan.length = stagingCount proofBytes.length

/-- The later writes' transactions: writes alone, and then the last write with the trailing
instructions. -/
theorem writeTransactions_shape (chunk : List UInt8) (rest : List (List UInt8)) (offset : Nat) :
    ∃ middle last, writesFrom offset (chunk :: rest) = middle ++ [last] ∧
      writeTransactions payer record trailingIxs trailingSigners (chunk :: rest) offset =
        middle.map (fun write => ⟨[writeInstruction payer record write], payer.pubkey,
          [payer.pubkey]⟩) ++
        [⟨writeInstruction payer record last :: trailingIxs, payer.pubkey,
          payer.pubkey :: trailingSigners⟩] := by
  induction rest generalizing chunk offset with
  | nil => exact ⟨[], (offset, chunk), rfl, rfl⟩
  | cons next rest ih =>
    obtain ⟨middle, last, writes, transactions⟩ := ih next (offset + chunk.length)
    refine ⟨(offset, chunk) :: middle, last, ?_, ?_⟩
    · rw [writesFrom, writes, List.cons_append]
    · rw [writeTransactions, transactions]
      rfl

/-- The transactions after the first: writes alone, and then one that carries the trailing
instructions, after the last of the later writes when there are any. -/
theorem laterTransactions_shape (first rest : List UInt8) :
    ∃ middle last, writesFrom first.length (chunks recordWriteChunk rest) = middle ++ last ∧
      last.length ≤ 1 ∧ (last = [] → middle = []) ∧
      laterTransactions payer record trailingIxs trailingSigners first rest =
        middle.map (fun write => ⟨[writeInstruction payer record write], payer.pubkey,
          [payer.pubkey]⟩) ++
        [⟨last.map (writeInstruction payer record) ++ trailingIxs, payer.pubkey,
          payer.pubkey :: trailingSigners⟩] := by
  by_cases empty : rest = []
  · refine ⟨[], [], ?_, Nat.zero_le _, fun _ => rfl, ?_⟩
    · rw [empty]
      rfl
    · rw [empty]
      rfl
  · obtain ⟨chunk, remaining, split⟩ :=
      List.exists_cons_of_ne_nil (chunks_ne_nil recordWriteChunk empty)
    obtain ⟨middle, last, writes, transactions⟩ := writeTransactions_shape payer record
      trailingIxs trailingSigners chunk remaining first.length
    refine ⟨middle, [last], by rw [split, writes], le_refl _, fun none => by contradiction, ?_⟩
    rw [laterTransactions, if_neg fun none => empty (List.isEmpty_iff.mp none), split,
      transactions]
    rfl

/-- One for each later chunk, or the one that carries the trailing instructions alone. -/
theorem laterTransactions_length (first rest : List UInt8) :
    (laterTransactions payer record trailingIxs trailingSigners first rest).length =
      max 1 (chunks recordWriteChunk rest).length := by
  by_cases empty : rest = []
  · rw [laterTransactions, if_pos (List.isEmpty_iff.mpr empty), empty]
    rfl
  · have some : (chunks recordWriteChunk rest).length ≠ 0 := by
      rw [ne_eq, List.length_eq_zero_iff]
      exact chunks_ne_nil recordWriteChunk empty
    rw [laterTransactions, if_neg fun none => empty (List.isEmpty_iff.mp none),
      writeTransactions_length]
    omega

/-- The pieces are the proof. -/
theorem proofPieces_flatten (proofBytes : List UInt8) :
    (proofPieces proofBytes).flatten = proofBytes := by
  rw [proofPieces, List.flatten_cons, chunks_flatten recordWriteChunk _ (by decide)]
  exact List.take_append_drop _ _

/-- No piece of a non-empty proof is empty. -/
theorem proofPieces_filled {proofBytes : List UInt8} (nonempty : proofBytes ≠ []) :
    ∀ piece ∈ proofPieces proofBytes, piece ≠ [] := by
  intro piece member
  rcases List.mem_cons.mp member with rfl | later
  · have positive : 0 < proofBytes.length := List.length_pos_iff.mpr nonempty
    intro none
    have length := congrArg List.length none
    rw [List.length_take, recordFirstChunk, List.length_nil] at length
    omega
  · exact (chunksFrom_bounds recordWriteChunk _ _ (by decide) piece later).1

/-- Staging a non-empty proof writes its pieces. -/
theorem stageTransactions_staged (cluster : Cluster) (proofBytes : List UInt8)
    (nonempty : proofBytes ≠ []) :
    StagedIn payer record trailingIxs trailingSigners cluster proofBytes
      (stageTransactions payer record trailingIxs trailingSigners cluster proofBytes)
      (writesFrom 0 (proofPieces proofBytes)) := by
  let first := proofBytes.take (min proofBytes.length recordFirstChunk)
  let rest := proofBytes.drop (min proofBytes.length recordFirstChunk)
  have whole := proofPieces_flatten proofBytes
  have laterCount : (chunks recordWriteChunk rest).length =
      (proofBytes.length - recordFirstChunk + (recordWriteChunk - 1)) / recordWriteChunk := by
    have restLength : rest.length = proofBytes.length - recordFirstChunk := by
      simp only [rest, List.length_drop]
      omega
    rw [← restLength]
    exact chunksFrom_length recordWriteChunk rest.length rest (by decide) (le_refl _)
  refine ⟨?_, ?_, by rw [writesFrom_bytes, whole], ?_, ?_, ?_⟩
  · obtain ⟨middle, last, writes, single, used, transactions⟩ :=
      laterTransactions_shape payer record trailingIxs trailingSigners first rest
    refine ⟨first, middle, last, ?_, single, used, ?_⟩
    · show (0, first) :: writesFrom (0 + first.length) (chunks recordWriteChunk rest) = _
      rw [Nat.zero_add, writes]
    · rw [stageTransactions, transactions]
      rfl
  · have contiguous :=
      writesFrom_contiguous 0 (proofPieces proofBytes) (proofPieces_filled nonempty)
    simpa only [whole, Nat.zero_add] using contiguous
  · intro write member
    obtain rfl := Option.some.inj member
    show first.length ≤ recordFirstChunk
    simp only [first, List.length_take]
    omega
  · intro write member
    have piece : write.2 ∈ chunks recordWriteChunk rest := by
      have mapped := List.mem_map_of_mem (f := Prod.snd) member
      change write.2 ∈ (writesFrom (0 + first.length) (chunks recordWriteChunk rest)).map
        Prod.snd at mapped
      rwa [writesFrom_bytes] at mapped
    exact (chunksFrom_bounds recordWriteChunk rest.length rest (by decide) write.2 piece).2
  · rw [stageTransactions, List.length_cons, laterTransactions_length, laterCount, stagingCount,
      Nat.add_comm]

/-- A proof that fits the first write leaves no later one; of any other the last write holds the
last chunk. -/
theorem last_write {proofBytes first : List UInt8} {middle last : List (Nat × List UInt8)}
    (writes : writesFrom 0 (proofPieces proofBytes) = (0, first) :: (middle ++ last))
    (single : last.length ≤ 1) (used : last = [] → middle = []) :
    (proofBytes.length ≤ recordFirstChunk ∧ last = []) ∨
      (recordFirstChunk < proofBytes.length ∧ ∃ write, last = [write] ∧
        write.2.length = (proofBytes.length - recordFirstChunk - 1) % recordWriteChunk + 1) := by
  let rest := proofBytes.drop (min proofBytes.length recordFirstChunk)
  have pieces : (middle ++ last).map Prod.snd = chunks recordWriteChunk rest := by
    have tails : writesFrom (0 + (proofBytes.take (min proofBytes.length
        recordFirstChunk)).length) (chunks recordWriteChunk rest) = middle ++ last :=
      congrArg List.tail writes
    rw [← tails, writesFrom_bytes]
  by_cases short : proofBytes.length ≤ recordFirstChunk
  · have none : rest = [] := by
      rw [List.drop_eq_nil_iff]
      omega
    rw [none] at pieces
    have empty : middle ++ last = [] := List.map_eq_nil_iff.mp pieces
    exact .inl ⟨short, (List.append_eq_nil_iff.mp empty).2⟩
  · have remains : rest ≠ [] := by
      rw [ne_eq, List.drop_eq_nil_iff]
      omega
    obtain ⟨early, final, split, length⟩ :=
      chunksFrom_last recordWriteChunk rest.length rest (by decide) (le_refl _) remains
    have written : last ≠ [] := by
      rintro rfl
      rw [used rfl] at pieces
      exact chunks_ne_nil recordWriteChunk remains pieces.symm
    obtain ⟨write, others, rfl⟩ := List.exists_cons_of_ne_nil written
    have alone : others = [] := by
      rw [List.length_cons] at single
      exact List.length_eq_zero_iff.mp (by omega)
    subst alone
    refine .inr ⟨by omega, write, rfl, ?_⟩
    have ends := congrArg List.getLast? (pieces.trans split)
    rw [List.map_append, List.map_singleton, List.getLast?_concat, List.getLast?_concat] at ends
    rw [Option.some.inj ends, length, List.length_drop, Nat.min_eq_right (by omega)]

/-! ## Runs of the staging -/

/-- What staging leaves when it returns. -/
structure StagingDone (cluster : Cluster) (proofBytes : List UInt8) (plan : List Transaction)
    (world world' : World) (sigs : List Signature) : Prop where
  /-- The transactions landed, in order. -/
  landed : world'.landed = world.landed ++ plan
  /-- Each has one signature. -/
  signatures : sigs = Signature.span world.landed.length plan.length
  /-- There are so many of them. -/
  count : sigs.length = stagingCount proofBytes.length ∧ 2 ≤ sigs.length
  /-- The trailing instructions run on a ledger whose record holds the whole proof. -/
  filled : ∃ filled : Ledger, filled.data = Function.update world.ledger.data record
      (.record payer.pubkey proofBytes) ∧
    filled.execInstructions cluster trailingIxs = some world'.ledger
  /-- Where they leave the record alone, it holds the whole proof at the end. -/
  final : (∀ ledger ledger' : Ledger, ledger.execInstructions cluster trailingIxs = some ledger' →
      ledger'.data record = ledger.data record) →
    world'.ledger.data record = .record payer.pubkey proofBytes

/-- How a run of the staging of a non-empty proof ends. -/
structure StagingEnds (cluster : Cluster) (proofBytes : List UInt8) (plan : List Transaction)
    (world world' : World) (transcript : List (Exchange Reply))
    (outcome : Outcome ClientError (List Signature)) : Prop where
  /-- The staging returns only when it is done. -/
  returned : ∀ sigs, outcome = .ok sigs → StagingDone payer record trailingIxs cluster proofBytes
    plan world world' sigs
  /-- The staging does return when no request fails and the trailing signers are the ones the
  trailing instructions ask for. -/
  succeeds : failures transcript = [] →
    Transaction.SignedExactly ⟨trailingIxs, payer.pubkey, payer.pubkey :: trailingSigners⟩ →
      ∃ sigs, outcome = .ok sigs
  /-- A send that fails is the last: the ones before it have landed, and an error is reported. -/
  fails : ∀ before transaction reason after,
    transcript = before ++ ⟨.sendAndConfirmTransaction transaction, .error reason⟩ :: after →
      (∃ reported, outcome = .error reported) ∧
        submitted before = plan.take (submitted before).length ∧
        plan[(submitted before).length]? = some transaction ∧ submitted after = [] ∧
        world'.landed = world.landed ++ plan.take (submitted before).length

variable {payer record trailingIxs trailingSigners}

/-- The trailing signers are the only ones that a staging transaction can get wrong. -/
theorem StagedIn.signedExactly {cluster : Cluster} {proofBytes : List UInt8}
    {plan : List Transaction} {writes : List (Nat × List UInt8)}
    (staged : StagedIn payer record trailingIxs trailingSigners cluster proofBytes plan writes)
    (trailing : Transaction.SignedExactly
      ⟨trailingIxs, payer.pubkey, payer.pubkey :: trailingSigners⟩) :
    ∀ transaction ∈ plan, transaction.SignedExactly := by
  obtain ⟨first, middle, last, -, -, -, rfl⟩ := staged.shape
  intro transaction member
  rcases List.mem_append.mp member with early | late
  · rcases List.mem_cons.mp early with rfl | middling
    · intro key
      simp only [Transaction.requiredSigners, stageInstructions, Instruction.signers,
        List.flatMap_cons, List.flatMap_nil, List.nil_append, List.append_nil, List.mem_cons,
        List.mem_append, List.not_mem_nil, or_false]
      tauto
    · obtain ⟨write, -, rfl⟩ := List.mem_map.mp middling
      intro key
      simp [Transaction.requiredSigners, writeInstruction, Instruction.signers]
  · obtain rfl := List.mem_singleton.mp late
    intro key
    have required := trailing key
    have writers : ∀ other ∈ (last.map (writeInstruction payer record)).flatMap
        Instruction.signers, other = payer.pubkey := by
      intro other listed
      obtain ⟨instruction, written, signs⟩ := List.mem_flatMap.mp listed
      obtain ⟨write, -, rfl⟩ := List.mem_map.mp written
      exact List.mem_singleton.mp signs
    simp only [Transaction.requiredSigners, List.mem_cons, List.flatMap_append,
      List.mem_append] at required ⊢
    constructor
    · intro supplied
      rcases required.mp supplied with same | later
      · exact .inl same
      · exact .inr (.inr later)
    · rintro (same | writer | later)
      · exact .inl same
      · exact .inl (writers key writer)
      · exact required.mpr (.inr later)

/-- Staging an empty proof sends nothing. -/
theorem silent_stageRangeProofRecord_empty (payer : Wallet) (record : Pubkey)
    (trailingIxs : List Instruction) (trailingSigners : List Pubkey) :
    Silent (stageRangeProofRecord payer record trailingIxs trailingSigners []) :=
  (silent_getMinimumBalanceForRentExemption _).bind fun _ => silent_fail _

/-- Staging an empty proof returns nothing. -/
theorem quietly_stageRangeProofRecord_empty (payer : Wallet) (record : Pubkey)
    (trailingIxs : List Instruction) (trailingSigners : List Pubkey) {cluster : Cluster}
    {world : World} :
    Quietly cluster (fun _ _ => False)
      (stageRangeProofRecord payer record trailingIxs trailingSigners []) world :=
  quietly_bind (quietly_getMinimumBalanceForRentExemption _) fun _ _ _ _ => quietly_fail

/-- Staging an empty proof is an error, and leaves everything as it was. -/
theorem stageRangeProofRecord_empty {cluster : Cluster} {world world' : World}
    {transcript : List (Exchange Reply)} {outcome : Outcome ClientError (List Signature)}
    (run : (chainSystem cluster).Runs world
      (stageRangeProofRecord payer record trailingIxs trailingSigners []) transcript world'
      (.done outcome)) :
    (∃ reason, outcome = .error reason) ∧ submitted transcript = [] ∧
      world'.landed = world.landed ∧ world'.ledger = world.ledger := by
  have silent := silent_stageRangeProofRecord_empty payer record trailingIxs trailingSigners
  have quiet : Quietly cluster (fun _ _ => False)
      (stageRangeProofRecord payer record trailingIxs trailingSigners []) world :=
    quietly_stageRangeProofRecord_empty payer record trailingIxs trailingSigners
  have failed : ∃ reason, outcome = .error reason := by
    cases outcome with
    | ok sigs => exact (quiet.ends run.reaches sigs rfl).elim
    | error reason => exact ⟨reason, rfl⟩
    | panic message => exact (silent.shows _ _ _ run).2.elim
  obtain ⟨unheard, -⟩ := silent.shows _ _ _ run
  have witnessed := runs_witnessed run
  have landed := witnessed.landed
  have ledger := witnessed.ledger
  rw [unheard.carried] at landed ledger
  exact ⟨failed, unheard.submitted, by rw [landed, List.append_nil],
    (Option.some.inj ledger).symm⟩

/-- How staging a non-empty proof ends: done, or with the first request that failed, or with
trailing signers that the trailing instructions do not ask for. -/
theorem stageRangeProofRecord_ends {cluster : Cluster} {proofBytes : List UInt8}
    (nonempty : proofBytes ≠ []) {world world' : World} {transcript : List (Exchange Reply)}
    {outcome : Outcome ClientError (List Signature)}
    (run : (chainSystem cluster).Runs world
      (stageRangeProofRecord payer record trailingIxs trailingSigners proofBytes) transcript world'
      (.done outcome)) :
    StagingEnds payer record trailingIxs trailingSigners cluster proofBytes
      (stageTransactions payer record trailingIxs trailingSigners cluster proofBytes) world world'
      transcript outcome := by
  have staged := stageTransactions_staged payer record trailingIxs trailingSigners cluster
    proofBytes nonempty
  have sends := stageRangeProofRecord_sends payer record trailingIxs trailingSigners cluster
    proofBytes nonempty world
  have witnessed := runs_witnessed run
  obtain ⟨-, post⟩ := sends _ _ _ run
  refine ⟨?_, ?_, ?_⟩
  · rintro sigs rfl
    obtain ⟨-, carriedAll, -, rfl, -⟩ := post
    have landed := witnessed.landed
    have ledger := witnessed.ledger
    rw [carriedAll] at landed ledger
    obtain ⟨-, filled, filledData, trailing, -⟩ := stageTransactions_fill payer record trailingIxs
      trailingSigners proofBytes ledger
    refine ⟨landed, rfl, ?_, ⟨filled, filledData, trailing⟩, fun kept => ?_⟩
    · have count := staged.count
      rw [stagingCount] at count ⊢
      simp only [Signature.span, List.length_map, List.length_range']
      omega
    · rw [kept _ _ trailing, filledData, Function.update_self]
  · intro served trailing
    cases outcome with
    | ok sigs => exact ⟨sigs, rfl⟩
    | error reason =>
      obtain ⟨_, _, _, -, -, failed, -⟩ := post
      exact absurd (failed.symm.trans served) (by simp)
    | panic message =>
      obtain ⟨done, next, later, split, -, -, -, inexact⟩ := post
      exact absurd (staged.signedExactly trailing next (by rw [split]; simp)) inexact
  · rintro before transaction reason after rfl
    exact sends.send_fails run

end Staging

/-- Staging fails at once on an empty proof. A proof of any other length it writes exactly, chunk
after chunk, with the trailing instructions once and last. -/
theorem stageRangeProofRecord_reassembles (cluster : Cluster) (payer : Wallet) (record : Pubkey)
    (proofBytes : List UInt8) (trailingIxs : List Instruction) (trailingSigners : List Pubkey)
    (world world' : World) (transcript : List (Exchange Reply))
    (outcome : Outcome ClientError (List Signature))
    (run : (chainSystem cluster).Runs world
      (stageRangeProofRecord payer record trailingIxs trailingSigners proofBytes) transcript world'
      (.done outcome)) :
    (proofBytes = [] → (∃ reason, outcome = .error reason) ∧ submitted transcript = [] ∧
      world'.landed = world.landed ∧ world'.ledger = world.ledger) ∧
    (proofBytes ≠ [] → ∃ plan writes,
      StagedIn payer record trailingIxs trailingSigners cluster proofBytes plan writes ∧
      StagingEnds payer record trailingIxs trailingSigners cluster proofBytes plan world world'
        transcript outcome) := by
  constructor
  · rintro rfl
    exact stageRangeProofRecord_empty run
  · intro nonempty
    exact ⟨_, _, stageTransactions_staged payer record trailingIxs trailingSigners cluster
      proofBytes nonempty, stageRangeProofRecord_ends nonempty run⟩

/-- A proof of 750 + 900 + 1 bytes. -/
def demoStagedProof : List UInt8 := (ProofContext.range [(⟨0, 1642⟩, 0)]).prove

/-- The instructions that a transfer of the second wallet has ride on the last transaction. -/
def demoTrailingIxs : List Instruction :=
  rangeInstructions Sdk.ideal ⟨0⟩ ⟨1⟩ (.generated 1) (.generated 0) 1

/-- A world whose payer can pay for the staging. -/
def demoStagingWorld : World :=
  { World.funded ⟨0⟩ ⟨1⟩ ⟨2⟩ (.wallet ⟨3⟩) 5 with
    ledger := .ofAccounts [(.wallet ⟨0⟩, 5000, .empty)] }

/-- A proof of 750 + 900 + 1 bytes is staged by three transactions, the last of which also creates
the range context and verifies the proof from the record. -/
theorem stageRangeProofRecord_reassembles_three :
    ∃ plan, plan.length = 3 ∧ StagingDone ⟨0⟩ (.generated 0) demoTrailingIxs Cluster.ideal
      demoStagedProof plan demoStagingWorld
      ((chain Cluster.ideal).run (stageRangeProofRecord ⟨0⟩ (.generated 0) demoTrailingIxs
        [.generated 1] demoStagedProof) demoStagingWorld []).2 [⟨0⟩, ⟨1⟩, ⟨2⟩] := by
  have length : demoStagedProof.length = 1651 := by decide +kernel
  have nonempty : demoStagedProof ≠ [] := List.ne_nil_of_length_eq_add_one length
  obtain ⟨plan, writes, staged, ends⟩ := (stageRangeProofRecord_reassembles Cluster.ideal ⟨0⟩
    (.generated 0) demoStagedProof demoTrailingIxs [.generated 1] _ _ _ _
    ((chain Cluster.ideal).run_runs _ demoStagingWorld [])).2 nonempty
  refine ⟨plan, ?_, ends.returned _ (by decide +kernel)⟩
  rw [staged.count, length]
  rfl

end ConfidentialBalances
