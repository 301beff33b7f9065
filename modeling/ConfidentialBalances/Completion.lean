import ConfidentialBalances.Cleanup
import ConfidentialBalances.LandedCalls

/-!
# What returned calls leave behind

When a call returns a value, all its transactions have landed, and the last of
their instructions that writes a temporary account closes it. Other jobs leave
these accounts alone, so none is left, whatever has interleaved. Configuring
alone keeps its context.
-/

namespace ConfidentialBalances

open Effect System

/-! ## The last write -/

/-- The instruction closes a temporary account. -/
inductive Instruction.Closes (key : Pubkey) : Instruction → Prop
  /-- A context. -/
  | context (authority destination : Pubkey) :
      Instruction.Closes key (.closeContextState ⟨key, authority⟩ destination)
  /-- A record. -/
  | record (signer receiver : Pubkey) :
      Instruction.Closes key (.recordCloseAccount key signer receiver)

/-- The last instruction that writes the address closes it, if there is one. -/
def Cleared (key : Pubkey) (instructions : List Instruction) : Prop :=
  ∀ last, (instructions.filter fun instruction => key ∈ instruction.writes).getLast? = some last →
    last.Closes key

section Cleared

variable {cluster : Cluster} {key : Pubkey} {first second : List Instruction}
variable {ledger ledger' : Ledger}

/-- What nothing writes is cleared. -/
theorem cleared_unwritten (unwritten : ∀ instruction ∈ first, key ∉ instruction.writes) :
    Cleared key first := by
  intro last found
  have member := List.mem_of_getLast? found
  obtain ⟨inside, written⟩ := List.mem_filter.mp member
  exact absurd (of_decide_eq_true written) (unwritten last inside)

/-- The later instructions count, if they write the address, and otherwise the earlier ones. -/
theorem cleared_append_iff : Cleared key (first ++ second) ↔
    if ∃ instruction ∈ second, key ∈ instruction.writes then Cleared key second
    else Cleared key first := by
  have none : (¬∃ instruction ∈ second, key ∈ instruction.writes) →
      second.filter (fun instruction => key ∈ instruction.writes) = [] := by
    intro unwritten
    rw [List.filter_eq_nil_iff]
    intro instruction member written
    exact unwritten ⟨instruction, member, of_decide_eq_true written⟩
  unfold Cleared
  rw [List.filter_append]
  split
  · rename_i written
    obtain ⟨instruction, member, writes⟩ := written
    have some : second.filter (fun instruction => key ∈ instruction.writes) ≠ [] :=
      List.ne_nil_of_mem (List.mem_filter.mpr ⟨member, decide_eq_true writes⟩)
    rw [List.getLast?_append_of_ne_nil _ some]
  · rename_i unwritten
    rw [none unwritten, List.append_nil]

/-- Where later instructions close what they write, and write whatever the earlier ones do, every
address is cleared. -/
theorem cleared_append (closes : ∀ instruction ∈ second, key ∈ instruction.writes →
      instruction.Closes key)
    (covers : ∀ instruction ∈ first, key ∈ instruction.writes →
      ∃ closing ∈ second, key ∈ closing.writes) : Cleared key (first ++ second) := by
  rw [cleared_append_iff]
  split
  · intro last found
    obtain ⟨inside, written⟩ := List.mem_filter.mp (List.mem_of_getLast? found)
    exact closes last inside (of_decide_eq_true written)
  · rename_i unwritten
    exact cleared_unwritten fun instruction member written =>
      unwritten (covers instruction member written)

namespace Ledger

/-- Closing an account leaves nothing there. -/
theorem execInstruction_closes {instruction : Instruction} (closes : instruction.Closes key)
    (executed : ledger.execInstruction cluster instruction = some ledger') :
    ledger'.data key = .empty := by
  cases closes with
  | context authority destination =>
    obtain ⟨proof, context, -, -, rfl⟩ := closeContextState_some executed
    simp
  | record signer receiver =>
    obtain ⟨region, -, -, rfl⟩ := recordCloseAccount_some executed
    simp

/-- Instructions leave a cleared address that they write empty. -/
theorem execInstructions_cleared {instructions : List Instruction}
    (cleared : Cleared key instructions)
    (written : ∃ instruction ∈ instructions, key ∈ instruction.writes)
    (executed : ledger.execInstructions cluster instructions = some ledger') :
    ledger'.data key = .empty := by
  induction instructions using List.reverseRecOn generalizing ledger' with
  | nil => simp at written
  | append_singleton earlier last ih =>
    rw [execInstructions_append] at executed
    obtain ⟨middle, before, after⟩ := Option.bind_eq_some_iff.mp executed
    obtain ⟨next, ran, same⟩ := Option.bind_eq_some_iff.mp after
    obtain rfl := Option.some.inj same
    rw [cleared_append_iff] at cleared
    by_cases writes : key ∈ last.writes
    · rw [if_pos ⟨last, List.mem_singleton_self _, writes⟩] at cleared
      have closes : last.Closes key := cleared last (by simp [writes])
      exact execInstruction_closes closes ran
    · have kept : ¬∃ instruction ∈ [last], key ∈ instruction.writes := by simpa using writes
      rw [if_neg kept] at cleared
      have still : next.data key = middle.data key := execInstruction_data ran writes
      rw [still]
      obtain ⟨instruction, member, written⟩ := written
      rcases List.mem_append.mp member with inside | only
      · exact ih cleared ⟨instruction, inside, written⟩ before
      · obtain rfl := List.mem_singleton.mp only
        exact absurd written writes

/-- Whatever lands in between, transactions leave a cleared address empty, or as it was. -/
theorem Amid.cleared {owned : List Pubkey} {transactions : List Transaction}
    (amid : Amid cluster owned ledger transactions ledger') (own : key ∈ owned)
    (cleared : Cleared key (transactions.flatMap (·.instructions))) :
    ledger'.data key = .empty ∨ ledger'.data key = ledger.data key := by
  induction transactions using List.reverseRecOn generalizing ledger' with
  | nil => exact .inr (amid.kept own (by simp))
  | append_singleton earlier last ih =>
    obtain ⟨middle, before, after⟩ := amid.split
    rw [List.flatMap_append, List.flatMap_singleton, cleared_append_iff] at cleared
    by_cases written : ∃ instruction ∈ last.instructions, key ∈ instruction.writes
    · rw [if_pos written] at cleared
      cases after with
      | lands same landed later =>
        obtain ⟨-, -, executed⟩ := execTransaction_some landed
        have empty := execInstructions_cleared cleared written executed
        left
        rw [later.kept own (by simp), empty]
    · rw [if_neg written] at cleared
      have still : ledger'.data key = middle.data key := by
        refine after.kept own fun transaction member instruction inside writes => ?_
        obtain rfl := List.mem_singleton.mp member
        exact written ⟨instruction, inside, writes⟩
      rw [still]
      exact ih before cleared

end Ledger

end Cleared

/-! ## Finished calls -/

section Finished

variable {sdk : Sdk} {cluster : Cluster} {call : Operation} {plan : List Transaction}

/-- Setting up a transfer writes its four accounts. -/
theorem TransferAccounts.setup_writes (accounts : TransferAccounts) {payer owner : Wallet}
    {data : TransferProofData} {transaction : Transaction} {instruction : Instruction}
    (member : transaction ∈ accounts.setup sdk cluster payer owner data)
    (inside : instruction ∈ transaction.instructions) :
    ∀ key ∈ instruction.writes, key ∈ accounts.keys := by
  have staged : ∀ transaction ∈ stageTransactions payer accounts.record
      (rangeInstructions sdk payer owner accounts.range accounts.record
        (cluster.rentExemption (sdk.contextStateSize .batchedRangeProofU128)))
      [accounts.range] cluster data.rangeProofData, transaction.payer = payer.pubkey ∧
        ∀ instruction ∈ transaction.instructions, ∀ key ∈ instruction.writes,
          key ∈ accounts.keys := by
    refine stageTransactions_forall payer accounts.record _ _ (fun instructions =>
      ∀ instruction ∈ instructions, ∀ key ∈ instruction.writes, key ∈ accounts.keys) cluster
      ?_ ?_ ?_ _
    · simp [stageInstructions, Instruction.writes, keys]
    · intro offset chunk last
      cases last <;> simp [writeInstructions, rangeInstructions, Instruction.writes, keys]
    · simp [rangeInstructions, Instruction.writes, keys]
  simp only [setup, List.cons_append, List.nil_append, List.mem_cons] at member
  rcases member with rfl | rfl | staging
  · simp only [createAndVerify, List.mem_cons, List.not_mem_nil, or_false] at inside
    rcases inside with rfl | rfl <;> simp [Instruction.writes, keys]
  · simp only [createAndVerify, List.mem_cons, List.not_mem_nil, or_false] at inside
    rcases inside with rfl | rfl <;> simp [Instruction.writes, keys]
  · exact (staged transaction staging).2 instruction inside

/-- A finished call other than configuring clears every account that it generated. -/
theorem Operation.Finished.cleared (finished : call.Finished sdk cluster plan)
    (other : call.isConfigure = false) (index : Nat) :
    Cleared (.generated index) (plan.flatMap (·.instructions)) := by
  cases finished with
  | configure proofData index => contradiction
  | deposit =>
    refine cleared_unwritten ?_
    simp [depositTransaction, depositInstructions, Instruction.writes, getAssociatedTokenAddress]
  | applyPending values =>
    refine cleared_unwritten ?_
    simp [applyPendingTransaction, applyPendingInstructions, Instruction.writes,
      getAssociatedTokenAddress]
  | @withdraw payer authority mint amount decimals accounts values =>
    rw [List.append_cons, List.flatMap_append]
    refine cleared_append ?_ ?_
    · intro instruction member written
      simp only [List.mem_flatMap, List.mem_map] at member
      obtain ⟨transaction, ⟨account, -, rfl⟩, inside⟩ := member
      obtain rfl := List.mem_singleton.mp inside
      obtain rfl : Pubkey.generated index = account := by simpa [Instruction.writes] using written
      exact .context _ _
    · intro instruction member written
      have own : .generated index ∈ accounts.keys := by
        simp only [WithdrawAccounts.setup, WithdrawAccounts.spend, createAndVerify,
          withdrawInstructions, List.cons_append, List.nil_append, List.flatMap_cons,
          List.flatMap_nil, List.mem_cons, List.not_mem_nil, or_false] at member
        rcases member with rfl | rfl | rfl | rfl | rfl <;>
          simp_all [Instruction.writes, WithdrawAccounts.keys, getAssociatedTokenAddress]
      refine ⟨.closeContextState ⟨.generated index, authority.pubkey⟩ payer.pubkey, ?_, by
        simp [Instruction.writes]⟩
      refine List.mem_flatMap.mpr ⟨closeTransaction payer authority (.generated index), ?_,
        List.mem_singleton_self _⟩
      exact List.mem_map_of_mem own
  | @transfer payer sender mint recipient amount progress accounts data newDecryptable =>
    -- The transfer comes first, and then the closes.
    rw [List.flatMap_append, List.flatMap_singleton, ← List.take_append_drop 1
      (accounts.spend payer sender mint recipient newDecryptable data).instructions,
      ← List.append_assoc]
    refine cleared_append ?_ ?_
    · intro instruction member written
      simp only [TransferAccounts.spend, transferInstructions, List.drop_succ_cons, List.drop_zero,
        List.mem_cons, List.not_mem_nil, or_false] at member
      rcases member with rfl | rfl | rfl | rfl
      all_goals
        obtain same := List.mem_singleton.mp written
        rw [same]
        constructor
    · intro instruction member written
      have own : .generated index ∈ accounts.keys := by
        rcases List.mem_append.mp member with before | moved
        · obtain ⟨transaction, inside, executed⟩ := List.mem_flatMap.mp before
          exact accounts.setup_writes inside executed _ written
        · simp only [TransferAccounts.spend, transferInstructions, List.take_succ_cons,
            List.take_zero, List.mem_singleton] at moved
          subst moved
          simp [Instruction.writes, getAssociatedTokenAddress] at written
      simp only [TransferAccounts.keys, List.mem_cons, List.not_mem_nil, or_false] at own
      rcases own with same | same | same | same <;>
        simp [TransferAccounts.spend, transferInstructions, Instruction.writes, same]

end Finished

/-! ## Among other jobs -/

section Together

variable {ι : Type} [DecidableEq ι] {sdk : Sdk} {cluster : Cluster} {s : AppState} {port : Nat}
variable {jobs : ι → Job} {world world' : World} {trace : List (ι × Exchange Reply)}
variable {pool : ι → Client Answer} {thread : ι}

/-- A job that makes several calls may configure an account. -/
theorem Job.configures_of_several {job : Job} (several : (job.role s).calls = .several) :
    ∃ call, (job.role s).may call ∧ call.isConfigure = true := by
  cases job with
  | operation call => contradiction
  | endpoint route =>
    cases route with
    | health => contradiction
    | state => contradiction
    | action request =>
      cases request with
      | init =>
        have held : s.keys.sender ∈ [s.keys.sender, s.keys.receiver] := List.mem_cons_self
        exact ⟨_, .configure held, rfl⟩
      | transfer requested => contradiction
      | applyPending account => contradiction

/-- A job that may not configure and has returned a value has left what it generated as it was, or
empty. -/
theorem RunTogether.cleared (run : RunTogether sdk cluster s port jobs world trace world' pool)
    {answer : Answer} (returned : pool thread = .done (.ok answer))
    (other : ∀ call, ((jobs thread).role s).may call → call.isConfigure = false) {key : Pubkey}
    (own : key ∈ keypairs (localTo thread trace)) :
    world'.ledger.data key = .empty ∨ world'.ledger.data key = world.ledger.data key := by
  obtain ⟨index, rfl⟩ := run.generated own
  refine (run.amid_own thread).cleared own ?_
  cases calls : ((jobs thread).role s).calls with
  | none =>
    have fulfilled := run.fulfilled returned
    rw [Role.Fulfilled, calls] at fulfilled
    rw [fulfilled]
    exact cleared_unwritten (by simp)
  | one =>
    obtain ⟨call, may, finished⟩ := run.finished calls returned
    exact finished.cleared (other call may) index
  | several =>
    obtain ⟨call, may, configures⟩ := Job.configures_of_several calls
    rw [other call may] at configures
    contradiction

/-- However any jobs interleave: every temporary account that is left over from them is one of a job
that has not returned a value, or of one that may configure an account, such as an init. -/
theorem returned_leave_none
    (run : RunTogether sdk cluster s port jobs world trace world' pool) (key : Pubkey)
    (temporary : (world'.ledger.data key).isTemporary = true)
    (changed : world'.ledger.data key ≠ world.ledger.data key) :
    ∃ thread, key ∈ keypairs (localTo thread trace) ∧
      ((∀ answer, pool thread ≠ .done (.ok answer)) ∨
        ∃ call, ((jobs thread).role s).may call ∧ call.isConfigure = true) := by
  rcases run.settled temporary with same | ⟨thread, own, -⟩
  · exact absurd same changed
  refine ⟨thread, own, ?_⟩
  by_contra otherwise
  simp only [not_or, not_forall, not_exists, not_and, not_not, Bool.not_eq_true] at otherwise
  obtain ⟨⟨answer, returned⟩, other⟩ := otherwise
  rcases run.cleared returned other own with empty | same
  · rw [empty] at temporary
    exact absurd temporary (by decide)
  · exact changed same

/-- A transfer that stops after its first proof, in turns with an apply: the context that is left is
that of a job that has not returned. -/
theorem returned_leave_none_demo : ∃ thread : Bool,
    .generated 0 ∈ keypairs (localTo thread (demoTogether 40).1) ∧
      ∀ answer, (demoTogether 40).2.2 thread ≠ .done (.ok answer) := by
  obtain ⟨thread, own, unreturned | ⟨call, may, configures⟩⟩ :=
    returned_leave_none (demoTogether_runs 40) (.generated 0) (by decide +kernel)
      (by decide +kernel)
  · exact ⟨thread, own, unreturned⟩
  · cases thread with
    | true =>
      obtain rfl : call = .transfer AppState.demo.keys.payer AppState.demo.keys.sender
        AppState.demo.mint AppState.demo.keys.receiver.pubkey
          (AppState.demo.requestedBase none) .broadcast := may
      contradiction
    | false =>
      obtain ⟨owner, rfl, -⟩ := ApplyCall.named _ may
      contradiction

end Together

end ConfidentialBalances
