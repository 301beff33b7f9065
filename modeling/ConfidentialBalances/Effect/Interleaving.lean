import ConfidentialBalances.Effect.History

/-!
# Interleaved programs

Any number of programs over one environment, answered one request at a time in
any order. A program may be barred for as long as others stand where they do,
which is what a lock amounts to. What `Leads` says of each program alone holds
of it in every interleaving, with the exchanges that it had as its history; and
what every allowed request keeps, from any history that allows it, every
interleaving keeps.
-/

namespace Effect

/-- The exchanges of one program, in order. -/
def localTo {ι Call : Type} [DecidableEq ι] {Reply : Call → Type} (thread : ι)
    (trace : List (ι × Exchange Reply)) : List (Exchange Reply) :=
  trace.filterMap fun entry => if entry.1 = thread then some entry.2 else none

section Local

variable {ι Call : Type} [DecidableEq ι] {Reply : Call → Type}
variable {trace : List (ι × Exchange Reply)}

/-- A program's exchanges in two parts. -/
theorem localTo_append (thread : ι) (first second : List (ι × Exchange Reply)) :
    localTo thread (first ++ second) = localTo thread first ++ localTo thread second :=
  List.filterMap_append

/-- A program's own exchange is added to its history. -/
@[simp] theorem localTo_own (thread : ι) (exchange : Exchange Reply) :
    localTo thread (trace ++ [(thread, exchange)]) = localTo thread trace ++ [exchange] := by
  simp [localTo]

/-- Another program's is not. -/
@[simp] theorem localTo_other {thread other : ι} (apart : other ≠ thread)
    (exchange : Exchange Reply) :
    localTo thread (trace ++ [(other, exchange)]) = localTo thread trace := by
  simp [localTo, apart]

/-- The exchanges of one program are some of all exchanges, in the same order. -/
theorem localTo_sublist (thread : ι) (trace : List (ι × Exchange Reply)) :
    (localTo thread trace).Sublist (trace.map Prod.snd) := by
  induction trace with
  | nil => exact .slnil
  | cons entry rest ih =>
    by_cases same : entry.1 = thread
    · simpa [localTo, same] using ih
    · simpa [localTo, same] using ih.cons entry.2

/-- Where what is read off all exchanges has no duplicates, what is read off those of different
programs has nothing in common. -/
theorem localTo_disjoint {β : Type} {read : Exchange Reply → Option β} {thread other : ι}
    (apart : other ≠ thread) (distinct : ((trace.map Prod.snd).filterMap read).Nodup) :
    ((localTo thread trace).filterMap read).Disjoint ((localTo other trace).filterMap read) := by
  induction trace with
  | nil => simp [localTo]
  | cons entry rest ih =>
    have later := ih (distinct.sublist (((List.sublist_cons_self entry rest).map _).filterMap _))
    -- Whatever is read off the first exchange is read off no later one, whosever that is.
    have fresh (elsewhere : ι) : ∀ value ∈ read entry.2,
        value ∉ (localTo elsewhere rest).filterMap read := by
      intro value here again
      have member := ((localTo_sublist elsewhere rest).filterMap read).subset again
      rw [List.map_cons, List.filterMap_cons, Option.mem_def.mp here] at distinct
      exact (List.nodup_cons.mp distinct).1 member
    have split (elsewhere : ι) : localTo elsewhere (entry :: rest) =
        (if entry.1 = elsewhere then [entry.2] else []) ++ localTo elsewhere rest := by
      by_cases same : entry.1 = elsewhere <;> simp [localTo, same]
    rw [split, split, List.filterMap_append, List.filterMap_append, List.disjoint_append_left,
      List.disjoint_append_right, List.disjoint_append_right]
    by_cases mine : entry.1 = thread
    · have notTheirs : entry.1 ≠ other := fun theirs => apart (theirs.symm.trans mine)
      refine ⟨⟨by simp [notTheirs], ?_⟩, by simp [notTheirs], later⟩
      intro value here again
      simp only [mine, if_true, List.mem_filterMap, List.mem_singleton, exists_eq_left] at here
      exact fresh other value here again
    · refine ⟨⟨by simp [mine], by simp [mine]⟩, ?_, later⟩
      intro value again here
      by_cases theirs : entry.1 = other
      · simp only [theirs, if_true, List.mem_filterMap, List.mem_singleton, exists_eq_left] at here
        exact fresh thread value here again
      · simp [theirs] at here

/-- What adds up over exchanges adds up over programs. -/
theorem sum_localTo (count : List (Exchange Reply) → Nat) (nil : count [] = 0)
    (append : ∀ first second, count (first ++ second) = count first + count second)
    {threads : Finset ι} (inside : ∀ entry ∈ trace, entry.1 ∈ threads) :
    count (trace.map Prod.snd) = ∑ thread ∈ threads, count (localTo thread trace) := by
  induction trace using List.reverseRecOn with
  | nil => simp [localTo, nil]
  | append_singleton rest entry ih =>
    obtain ⟨thread, exchange⟩ := entry
    have grown (other : ι) : count (localTo other (rest ++ [(thread, exchange)])) =
        count (localTo other rest) + if other = thread then count [exchange] else 0 := by
      by_cases same : other = thread
      · subst same
        simp [append]
      · simp [localTo_other (Ne.symm same), same]
    have member : thread ∈ threads := inside (thread, exchange) (by simp)
    have earlier := ih fun entry earlier => inside entry (List.mem_append_left _ earlier)
    simp only [grown, Finset.sum_add_distrib, Finset.sum_ite_eq', member, if_true, ← earlier]
    simp [append]

/-- An exchange of a program is in the trace. -/
theorem mem_localTo {thread : ι} {exchange : Exchange Reply} :
    exchange ∈ localTo thread trace ↔ (thread, exchange) ∈ trace := by
  simp only [localTo, List.mem_filterMap, Option.ite_none_right_eq_some, Option.some.injEq]
  constructor
  · rintro ⟨entry, member, rfl, rfl⟩
    exact member
  · exact fun member => ⟨_, member, rfl, rfl⟩

/-- Where what is read off the exchanges of each program has no duplicates, and different programs
have nothing in common, what is read off all exchanges has none. -/
theorem nodup_of_localTo {β : Type} {read : Exchange Reply → Option β}
    (distinct : ∀ thread, ((localTo thread trace).filterMap read).Nodup)
    (disjoint : ∀ thread other, other ≠ thread →
      ((localTo thread trace).filterMap read).Disjoint ((localTo other trace).filterMap read)) :
    ((trace.map Prod.snd).filterMap read).Nodup := by
  induction trace with
  | nil => exact List.nodup_nil
  | cons entry rest ih =>
    obtain ⟨thread, exchange⟩ := entry
    have own : localTo thread ((thread, exchange) :: rest) = exchange :: localTo thread rest := by
      simp [localTo]
    have shorter (other : ι) :
        (localTo other rest).Sublist (localTo other ((thread, exchange) :: rest)) :=
      (List.sublist_cons_self _ _).filterMap _
    have later := ih (fun other => (distinct other).sublist ((shorter other).filterMap read))
      fun one other apart => List.disjoint_of_subset_left ((shorter one).filterMap read).subset
        (List.disjoint_of_subset_right ((shorter other).filterMap read).subset
          (disjoint one other apart))
    cases here : read exchange with
    | none => simpa [here] using later
    | some value =>
      rw [List.map_cons, List.filterMap_cons_some here]
      refine List.nodup_cons.mpr ⟨fun twice => ?_, later⟩
      obtain ⟨other, member, found⟩ := List.mem_filterMap.mp twice
      obtain ⟨⟨elsewhere, _⟩, inside, rfl⟩ := List.mem_map.mp member
      have there : value ∈ (localTo elsewhere rest).filterMap read :=
        List.mem_filterMap.mpr ⟨_, mem_localTo.mpr inside, found⟩
      have mine : (localTo thread ((thread, exchange) :: rest)).filterMap read =
          value :: (localTo thread rest).filterMap read := by
        rw [own, List.filterMap_cons_some here]
      rcases eq_or_ne elsewhere thread with rfl | apart
      · have fresh := distinct elsewhere
        rw [mine] at fresh
        exact (List.nodup_cons.mp fresh).1 there
      · have again := ((shorter elsewhere).filterMap read).subset there
        refine disjoint thread elsewhere apart ?_ again
        rw [mine]
        exact List.mem_cons_self

end Local

/-- The request that a program stands before. -/
def Program.request? {Call : Type} {Reply : Call → Type} {ε α : Type} :
    Program Reply ε α → Option Call
  | .done _ => none
  | .call request _ => some request

namespace System

variable {ι Call : Type} [DecidableEq ι] {Reply : Call → Type} {World ε α : Type}

/-- A run of all programs together, with who was answered what, oldest first. -/
inductive Interleaves (system : System Reply World)
    (barred : (ι → Program Reply ε α) → ι → Prop) (world : World)
    (programs : ι → Program Reply ε α) :
    List (ι × Exchange Reply) → World → (ι → Program Reply ε α) → Prop
  /-- No request has been answered. -/
  | here : Interleaves system barred world programs [] world programs
  /-- One more request of one program is answered, which nothing bars. -/
  | step {trace middle pool thread request next reply world'} :
      Interleaves system barred world programs trace middle pool →
        pool thread = .call request next → ¬barred pool thread →
          system.step middle request reply world' →
            Interleaves system barred world programs (trace ++ [(thread, ⟨request, reply⟩)]) world'
              (Function.update pool thread (next reply))

namespace Interleaves

variable {system : System Reply World} {barred : (ι → Program Reply ε α) → ι → Prop}
variable {world world' : World} {programs pool : ι → Program Reply ε α}
variable {trace : List (ι × Exchange Reply)}
variable {promised : List (Exchange Reply) → (request : Call) → Reply request → Prop}
variable {allowed : ι → List (Exchange Reply) → Call → Prop}
variable {ends : ι → List (Exchange Reply) → Outcome ε α → Prop}

/-- In every run of the programs, every reply is promised by the history of who gets it. -/
def Promises (system : System Reply World) (barred : (ι → Program Reply ε α) → ι → Prop)
    (world : World) (programs : ι → Program Reply ε α)
    (promised : List (Exchange Reply) → (request : Call) → Reply request → Prop) : Prop :=
  ∀ trace middle pool thread request reply after,
    system.Interleaves barred world programs trace middle pool →
      system.step middle request reply after → promised (localTo thread trace) request reply

/-- What is said of each program alone holds of it in the run, after the exchanges it had. -/
theorem leads (run : system.Interleaves barred world programs trace world' pool)
    (promises : Promises system barred world programs promised)
    (start : ∀ thread, (programs thread).Leads promised (allowed thread) (ends thread) []) :
    ∀ thread, (pool thread).Leads promised (allowed thread) (ends thread)
      (localTo thread trace) := by
  induction run with
  | here => exact start
  | @step _ _ _ thread _ _ reply _ earlier here _ answered ih =>
    intro other
    rcases eq_or_ne other thread with rfl | apart
    · have mine := ih other
      rw [here] at mine
      simpa using mine.2 reply (promises _ _ _ _ _ _ _ earlier answered)
    · rw [Function.update_of_ne apart, localTo_other apart.symm]
      exact ih other

/-- What every allowed request keeps, every run keeps. -/
theorem keeps {property : List (ι × Exchange Reply) → World → (ι → Program Reply ε α) → Prop}
    (run : system.Interleaves barred world programs trace world' pool)
    (promises : Promises system barred world programs promised)
    (bounds : ∀ thread, (programs thread).Leads promised (allowed thread) (ends thread) [])
    (start : property [] world programs)
    (step : ∀ trace middle pool thread request next reply after,
      (∀ other, (pool other).Leads promised (allowed other) (ends other) (localTo other trace)) →
        property trace middle pool → pool thread = .call request next → ¬barred pool thread →
          allowed thread (localTo thread trace) request → system.step middle request reply after →
            property (trace ++ [(thread, ⟨request, reply⟩)]) after
              (Function.update pool thread (next reply))) :
    property trace world' pool := by
  induction run with
  | here => exact start
  | @step _ _ _ thread _ _ _ _ earlier here free answered ih =>
    have all := earlier.leads promises bounds
    have mine := all thread
    rw [here] at mine
    exact step _ _ _ _ _ _ _ _ all ih here free mine.1 answered

/-- What every answered request keeps of all exchanges and the world, every run keeps. -/
theorem records {property : List (Exchange Reply) → World → Prop}
    (run : system.Interleaves barred world programs trace world' pool) (start : property [] world)
    (step : ∀ all middle request reply after, property all middle →
      system.step middle request reply after → property (all ++ [⟨request, reply⟩]) after) :
    property (trace.map Prod.snd) world' := by
  induction run with
  | here => exact start
  | step _ _ _ answered ih =>
    rw [List.map_append]
    exact step _ _ _ _ _ ih answered

/-- A program that has ended has ended as fits its exchanges. -/
theorem ended (run : system.Interleaves barred world programs trace world' pool)
    (promises : Promises system barred world programs promised)
    (start : ∀ thread, (programs thread).Leads promised (allowed thread) (ends thread) [])
    {thread : ι} {outcome : Outcome ε α} (finished : pool thread = .done outcome) :
    ends thread (localTo thread trace) outcome := by
  have mine := run.leads promises start thread
  rw [finished] at mine
  exact mine

end Interleaves

end System

namespace Handler

variable {ι Call : Type} [DecidableEq ι] {Reply : Call → Type} {World Choice ε α : Type}

/-- Run programs together under a schedule of who is answered next and how. Whoever is barred or
done at its turn is passed over. -/
def together (handler : Handler Reply World Choice) (barred : (ι → Program Reply ε α) → ι → Prop)
    [∀ pool thread, Decidable (barred pool thread)] :
    World → (ι → Program Reply ε α) → List (ι × Choice) →
      List (ι × Exchange Reply) × World × (ι → Program Reply ε α)
  | world, pool, [] => ([], world, pool)
  | world, pool, (thread, choice) :: later =>
    match pool thread with
    | .done _ => together handler barred world pool later
    | .call request next =>
      if barred pool thread then together handler barred world pool later
      else
        let answered := handler.answer world request choice
        let rest := together handler barred answered.2
          (Function.update pool thread (next answered.1)) later
        ((thread, ⟨request, answered.1⟩) :: rest.1, rest.2)

variable {handler : Handler Reply World Choice} {barred : (ι → Program Reply ε α) → ι → Prop}
variable [∀ pool thread, Decidable (barred pool thread)]

/-- A run goes on as its pool does. -/
theorem together_continues {world middle : World} {programs pool : ι → Program Reply ε α}
    {trace : List (ι × Exchange Reply)}
    (earlier : handler.system.Interleaves barred world programs trace middle pool)
    (schedule : List (ι × Choice)) :
    handler.system.Interleaves barred world programs
      (trace ++ (handler.together barred middle pool schedule).1)
      (handler.together barred middle pool schedule).2.1
      (handler.together barred middle pool schedule).2.2 := by
  induction schedule generalizing trace middle pool with
  | nil => simpa [together] using earlier
  | cons turn later ih =>
    obtain ⟨thread, choice⟩ := turn
    unfold together
    split
    · exact ih earlier
    · rename_i request next here
      split
      · exact ih earlier
      · rename_i free
        have grown := ih (.step earlier here free ⟨choice, rfl⟩)
        rwa [List.append_assoc] at grown

/-- An executed schedule is a run of the programs together. -/
theorem together_interleaves (world : World) (programs : ι → Program Reply ε α)
    (schedule : List (ι × Choice)) :
    handler.system.Interleaves barred world programs
      (handler.together barred world programs schedule).1
      (handler.together barred world programs schedule).2.1
      (handler.together barred world programs schedule).2.2 :=
  together_continues .here schedule

end Handler

end Effect
