import Mathlib.Data.List.Destutter
import Mathlib.Data.List.Forall2

/-!
# Partial machines

A machine whose steps may be refused, run on a list of events. The trail of a run
is every state on its way, the first included. Where each step of one machine is
matched by a step of another, each run is, state by state. What is seen of a trail
is the values that it takes one after another, repetitions left out.
-/

namespace Effect

section Trail

variable {σ ε : Type}

/-- Every state on the way of a run, as far as it gets. -/
def trail (step : σ → ε → Option σ) : σ → List ε → List σ
  | state, [] => [state]
  | state, event :: rest =>
    state :: (step state event).elim [] fun next => trail step next rest

variable {step : σ → ε → Option σ} {start middle finish : σ}

/-- A run starts where it starts. -/
theorem trail_head (events : List ε) : ∃ later, trail step start events = start :: later := by
  cases events with
  | nil => exact ⟨[], rfl⟩
  | cons event rest => exact ⟨_, rfl⟩

/-- The trail of a run in two parts. -/
theorem trail_append {first : List ε} (second : List ε)
    (ran : first.foldlM step start = some middle) :
    trail step start (first ++ second) =
      trail step start first ++ (trail step middle second).tail := by
  induction first generalizing start with
  | nil =>
    obtain rfl := Option.some.inj ran
    have starts : ∃ later, trail step start second = start :: later := trail_head second
    obtain ⟨later, starts⟩ := starts
    simp [trail, starts]
  | cons event rest ih =>
    obtain ⟨next, stepped, remaining⟩ := Option.bind_eq_some_iff.mp ran
    simp [trail, stepped, ih remaining]

/-- One more step adds the state it leads to. -/
theorem trail_snoc {first : List ε} {event : ε} (ran : first.foldlM step start = some middle)
    (stepped : step middle event = some finish) :
    trail step start (first ++ [event]) = trail step start first ++ [finish] := by
  simp [trail_append [event] ran, trail, stepped]

/-- What a run reaches is on its trail. -/
theorem finish_mem_trail {events : List ε} (ran : events.foldlM step start = some finish) :
    finish ∈ trail step start events := by
  induction events generalizing start with
  | nil =>
    obtain rfl := Option.some.inj ran
    exact List.mem_singleton_self _
  | cons event rest ih =>
    obtain ⟨next, stepped, remaining⟩ := Option.bind_eq_some_iff.mp ran
    simp only [trail, stepped, Option.elim_some]
    exact List.mem_cons_of_mem _ (ih remaining)

/-- A run reaches every state on its trail. -/
theorem mem_trail {events : List ε} (passed : middle ∈ trail step start events) :
    ∃ first second, events = first ++ second ∧ first.foldlM step start = some middle := by
  induction events generalizing start with
  | nil =>
    obtain rfl := List.mem_singleton.mp passed
    exact ⟨[], [], rfl, rfl⟩
  | cons event rest ih =>
    rcases List.mem_cons.mp passed with rfl | later
    · exact ⟨[], event :: rest, rfl, rfl⟩
    · cases stepped : step start event with
      | none => simp [stepped] at later
      | some next =>
        rw [stepped] at later
        obtain ⟨first, second, rfl, ran⟩ := ih later
        exact ⟨event :: first, second, rfl, by simp [stepped, ran]⟩

end Trail

section Simulation

variable {σ τ ε ε' : Type} {step : σ → ε → Option σ} {step' : τ → ε' → Option τ}
variable {related : σ → τ → Prop} {convert : ε → ε'} {start finish : σ} {start' : τ}

/-- Where one machine matches each step of another, it matches each run, state by state. -/
theorem trail_simulates
    (matched : ∀ {state next event state'}, related state state' →
      step state event = some next → ∃ next', step' state' (convert event) = some next' ∧
        related next next') {events : List ε}
    (starts : related start start') (ran : events.foldlM step start = some finish) :
    ∃ finish', (events.map convert).foldlM step' start' = some finish' ∧ related finish finish' ∧
      List.Forall₂ related (trail step start events) (trail step' start' (events.map convert)) := by
  induction events generalizing start start' with
  | nil =>
    obtain rfl := Option.some.inj ran
    exact ⟨start', rfl, starts, .cons starts .nil⟩
  | cons event rest ih =>
    obtain ⟨next, stepped, remaining⟩ := Option.bind_eq_some_iff.mp ran
    obtain ⟨next', stepped', continues⟩ := matched starts stepped
    obtain ⟨finish', ran', finishes, along⟩ := ih continues remaining
    refine ⟨finish', by simp [stepped', ran'], finishes, ?_⟩
    simp only [List.map_cons, trail, stepped, stepped', Option.elim_some]
    exact .cons starts along

/-- What does not tell related states apart is the same along both runs. -/
theorem forall₂_map_eq {β : Type} {view : σ → β} {view' : τ → β} {states : List σ}
    {states' : List τ} (along : List.Forall₂ related states states')
    (same : ∀ state state', related state state' → view state = view' state') :
    states.map view = states'.map view' := by
  induction along with
  | nil => rfl
  | cons here _ ih => rw [List.map_cons, List.map_cons, same _ _ here, ih]

end Simulation

section Values

variable {α : Type} [DecidableEq α] {values : List α}

/-- From a first value on, one more value is taken if it is another than the last. -/
theorem destutter'_snoc (first value : α) (values : List α) :
    (values ++ [value]).destutter' (· ≠ ·) first = values.destutter' (· ≠ ·) first ++
      if values.getLastD first = value then [] else [value] := by
  induction values generalizing first with
  | nil => by_cases same : first = value <;> simp [same]
  | cons next rest ih =>
    rw [List.cons_append, List.getLastD_cons]
    by_cases same : first = next
    · subst same
      have stays : ¬first ≠ first := not_not_intro rfl
      rw [List.destutter'_cons_neg _ stays, List.destutter'_cons_neg _ stays, ih]
    · rw [List.destutter'_cons_pos _ same, List.destutter'_cons_pos _ same, ih, List.cons_append]

/-- One more value is taken if it is another than the last. -/
theorem destutter_snoc (values : List α) (value : α) :
    (values ++ [value]).destutter (· ≠ ·) = values.destutter (· ≠ ·) ++
      if values.getLast? = some value then [] else [value] := by
  cases values with
  | nil => rfl
  | cons first rest =>
    rw [List.cons_append, List.destutter_cons', List.destutter_cons', destutter'_snoc]
    simp only [List.getLast?_cons, Option.some.injEq, List.getLastD_eq_getLast?]

/-- Values taken before stay taken. -/
theorem destutter_sublist_snoc (values : List α) (value : α) :
    (values.destutter (· ≠ ·)).Sublist ((values ++ [value]).destutter (· ≠ ·)) := by
  rw [destutter_snoc]
  exact List.sublist_append_left _ _

/-- A value that stays is taken once. -/
theorem destutter_again (values : List α) (value : α) :
    (values ++ [value] ++ [value]).destutter (· ≠ ·) = (values ++ [value]).destutter (· ≠ ·) := by
  rw [destutter_snoc (values ++ [value])]
  simp

/-- Every value is taken. -/
theorem mem_destutter {value : α} (member : value ∈ values) : value ∈ values.destutter (· ≠ ·) := by
  induction values using List.reverseRecOn with
  | nil => contradiction
  | append_singleton earlier last ih =>
    rw [destutter_snoc]
    by_cases same : earlier.getLast? = some last
    · simp only [same, if_true, List.append_nil]
      rcases List.mem_append.mp member with before | now
      · exact ih before
      · obtain rfl := List.mem_singleton.mp now
        exact ih (List.mem_of_getLast? same)
    · simp only [same, if_false]
      rcases List.mem_append.mp member with before | now
      · exact List.mem_append_left _ (ih before)
      · exact List.mem_append_right _ now

end Values

end Effect
