import ConfidentialBalances.Effect.Program

/-!
# Programs against an environment

A system says which replies an environment may give in a world, and which world
each reply leaves behind. Running a program against it is nondeterministic: a
reply is any reply the system allows. `Meets` is the judgement the proofs use.
It carries an invariant of every world on the way as well as a postcondition of
every end, so a statement about each prefix of a run and a statement about its
result come from one walk through the program.
-/

namespace Effect

/-- An environment for the requests `Call`: what each request may answer, and the world after. -/
structure System {Call : Type} (Reply : Call → Type) (World : Type) where
  /-- One answered request. -/
  step : World → (request : Call) → Reply request → World → Prop

namespace System

variable {Call : Type} {Reply : Call → Type} {World ε α β : Type}
variable (system : System Reply World)

/-- Some number of answered requests lead from one program in one world to another. -/
inductive Reaches : World → Program Reply ε α → World → Program Reply ε α → Prop
  /-- No request has been answered. -/
  | here {world program} : Reaches world program world program
  /-- The first request is answered, and the run goes on. -/
  | next {world request next reply world' world'' program} :
      system.step world request reply world' → Reaches world' (next reply) world'' program →
        Reaches world (.call request next) world'' program

/-- The program can run to this end, leaving this world. -/
def Ends (world : World) (program : Program Reply ε α) (outcome : Outcome ε α)
    (world' : World) : Prop :=
  system.Reaches world program world' (.done outcome)

/-- Every world on the way satisfies the invariant and every end satisfies the postcondition. -/
def Meets (inv : World → Prop) (post : Outcome ε α → World → Prop) :
    Program Reply ε α → World → Prop
  | .done outcome, world => inv world ∧ post outcome world
  | .call request next, world =>
    inv world ∧ ∀ reply world', system.step world request reply world' →
      Meets inv post (next reply) world'

variable {system} {inv : World → Prop} {post : Outcome ε α → World → Prop}

/-- The judgement includes its invariant at the start. -/
theorem Meets.invariant {program : Program Reply ε α} {world : World}
    (meets : system.Meets inv post program world) : inv world := by
  cases program with
  | done outcome => exact meets.1
  | call request next => exact meets.1

/-- The judgement holds at every point of the run. -/
theorem Meets.reaches {program program' : Program Reply ε α} {world world' : World}
    (meets : system.Meets inv post program world)
    (run : system.Reaches world program world' program') :
    system.Meets inv post program' world' := by
  induction run with
  | here => exact meets
  | next step rest ih => exact ih (meets.2 _ _ step)

/-- A finished run satisfies the postcondition. -/
theorem Meets.ends {program : Program Reply ε α} {world world' : World} {outcome : Outcome ε α}
    (meets : system.Meets inv post program world)
    (run : system.Ends world program outcome world') : post outcome world' :=
  (meets.reaches run).2

/-- What holds of every world that a run reaches, and of every end, is met. -/
theorem meets_of_reaches {program : Program Reply ε α} {world : World}
    (always : ∀ world' program', system.Reaches world program world' program' → inv world')
    (ends : ∀ outcome world', system.Ends world program outcome world' → post outcome world') :
    system.Meets inv post program world := by
  induction program generalizing world with
  | done outcome => exact ⟨always _ _ .here, ends _ _ .here⟩
  | call request next ih =>
    refine ⟨always _ _ .here, fun reply world' step => ih reply ?_ ?_⟩
    · exact fun _ _ run => always _ _ (.next step run)
    · exact fun _ _ run => ends _ _ (.next step run)

/-- A weaker invariant and a weaker postcondition follow. -/
theorem Meets.weaken {inv' : World → Prop} {post' : Outcome ε α → World → Prop}
    {program : Program Reply ε α} {world : World} (meets : system.Meets inv post program world)
    (weakerInv : ∀ world, inv world → inv' world)
    (weakerPost : ∀ outcome world, inv world → post outcome world → post' outcome world) :
    system.Meets inv' post' program world := by
  induction program generalizing world with
  | done outcome => exact ⟨weakerInv _ meets.1, weakerPost _ _ meets.1 meets.2⟩
  | call request next ih =>
    exact ⟨weakerInv _ meets.1, fun reply world' step => ih reply (meets.2 reply world' step)⟩

/-- The postcondition the first part of a sequence owes to the second part. -/
def after (inv : World → Prop) (post : Outcome ε β → World → Prop)
    (rest : α → Program Reply ε β) : Outcome ε α → World → Prop
  | .ok value, world => system.Meets inv post (rest value) world
  | .error reason, world => post (.error reason) world
  | .panic message, world => post (.panic message) world

/-- A sequence is judged by judging its first part against what its second part needs. -/
theorem meets_bind {post : Outcome ε β → World → Prop} (program : Program Reply ε α)
    (rest : α → Program Reply ε β) (world : World) :
    system.Meets inv post (program >>= rest) world ↔
      system.Meets inv (system.after inv post rest) program world := by
  induction program generalizing world with
  | done outcome =>
    cases outcome with
    | ok value =>
      simp only [Program.done_ok_bind, Meets, after]
      exact ⟨fun meets => ⟨meets.invariant, meets⟩, fun both => both.2⟩
    | error reason => simp [Meets, after]
    | panic message => simp [Meets, after]
  | call request next ih => simp only [Program.call_bind, Meets, ih]

/-- The judgement of a sequence from a judgement of its first part. -/
theorem Meets.bind {mid : Outcome ε α → World → Prop} {post : Outcome ε β → World → Prop}
    {program : Program Reply ε α} {rest : α → Program Reply ε β} {world : World}
    (first : system.Meets inv mid program world)
    (ok : ∀ value world, inv world → mid (.ok value) world →
      system.Meets inv post (rest value) world)
    (error : ∀ reason world, inv world → mid (.error reason) world → post (.error reason) world)
    (panic : ∀ message world, inv world → mid (.panic message) world →
      post (.panic message) world) :
    system.Meets inv post (program >>= rest) world := by
  rw [meets_bind]
  refine first.weaken (fun _ holds => holds) fun outcome world holds reached => ?_
  cases outcome with
  | ok value => exact ok value world holds reached
  | error reason => exact error reason world holds reached
  | panic message => exact panic message world holds reached

/-- A run that returned a value goes on with what comes after it. -/
theorem Ends.bind {program : Program Reply ε α} {rest : α → Program Reply ε β}
    {world middle world' : World} {value : α} {outcome : Outcome ε β}
    (first : system.Ends world program (.ok value) middle)
    (second : system.Ends middle (rest value) outcome world') :
    system.Ends world (program >>= rest) outcome world' := by
  induction program generalizing world with
  | done ended =>
    cases first with
    | here => exact second
  | call request next ih =>
    cases first with
    | next step later =>
      rw [Program.call_bind]
      exact .next step (ih _ later)

/-- A finished run is a finished run with its panics reported. -/
theorem Ends.catchPanic {program : Program Reply ε α} {world world' : World}
    {outcome : Outcome ε α} (ended : system.Ends world program outcome world')
    (report : String → ε) :
    ∃ reported, system.Ends world (program.catchPanic report) reported world' := by
  induction program generalizing world with
  | done result =>
    cases ended with
    | here => cases outcome <;> exact ⟨_, .here⟩
  | call request next ih =>
    cases ended with
    | next step later =>
      obtain ⟨reported, ran⟩ := ih _ later
      exact ⟨reported, .next step ran⟩

/-- A caught error is judged by what its handler goes on to do. -/
theorem meets_catchError (handle : ε → Program Reply ε α) (program : Program Reply ε α)
    (world : World) :
    system.Meets inv post (program.catchError handle) world ↔
      system.Meets inv (fun outcome world => match outcome with
        | .ok value => post (.ok value) world
        | .error reason => system.Meets inv post (handle reason) world
        | .panic message => post (.panic message) world) program world := by
  induction program generalizing world with
  | done outcome =>
    cases outcome with
    | ok value => simp [Program.catchError, Meets]
    | error reason =>
      simp only [Program.catchError, Meets]
      exact ⟨fun meets => ⟨meets.invariant, meets⟩, fun both => both.2⟩
    | panic message => simp [Program.catchError, Meets]
  | call request next ih => simp only [Program.catchError, Meets, ih]

/-- A reported panic is judged as the error that reports it. -/
theorem meets_catchPanic (report : String → ε) (program : Program Reply ε α) (world : World) :
    system.Meets inv post (program.catchPanic report) world ↔
      system.Meets inv (fun outcome world => match outcome with
        | .ok value => post (.ok value) world
        | .error reason => post (.error reason) world
        | .panic message => post (.error (report message)) world) program world := by
  induction program generalizing world with
  | done outcome => cases outcome <;> simp [Program.catchPanic, Meets]
  | call request next ih => simp only [Program.catchPanic, Meets, ih]

/-- Rewriting errors rewrites them in the postcondition. -/
theorem meets_mapError (rename : ε → ε) (program : Program Reply ε α) (world : World) :
    system.Meets inv post (program.mapError rename) world ↔
      system.Meets inv (fun outcome world => match outcome with
        | .ok value => post (.ok value) world
        | .error reason => post (.error (rename reason)) world
        | .panic message => post (.panic message) world) program world := by
  induction program generalizing world with
  | done outcome => cases outcome <;> simp [Program.mapError, Meets]
  | call request next ih => simp only [Program.mapError, Meets, ih]

/-- The errors that a judged program ends with are ones that it can report. -/
theorem Meets.fails {allowed : ε → Prop} {program : Program Reply ε α} {world : World}
    (meets : system.Meets inv post program world) (fails : program.Fails allowed) :
    system.Meets inv (fun outcome world => post outcome world ∧
      ∀ reason, outcome = .error reason → allowed reason) program world := by
  induction program generalizing world with
  | done outcome =>
    refine ⟨meets.1, meets.2, fun reason same => ?_⟩
    subst same
    exact fails
  | call request next ih =>
    exact ⟨meets.1, fun reply world' step => ih reply (meets.2 reply world' step) (fails reply)⟩

/-- Judge a program by its invariant and by the values that it returns; how it fails is left
open. -/
def Serves (system : System Reply World) (inv : World → Prop) (ok : α → World → Prop)
    (program : Program Reply ε α) (world : World) : Prop :=
  system.Meets inv (fun outcome world => ∀ value, outcome = .ok value → ok value world) program
    world

section Serves

variable {ok : α → World → Prop} {program : Program Reply ε α} {world : World}

/-- What is returned at once holds in the same world. -/
theorem serves_pure {value : α} (here : inv world) (holds : ok value world) :
    system.Serves inv ok (pure value : Program Reply ε α) world :=
  ⟨here, fun _ same => by obtain rfl := Outcome.ok.inj same; exact holds⟩

/-- A failure returns no value. -/
theorem serves_fail {reason : ε} (here : inv world) :
    system.Serves inv ok (Program.fail reason) world :=
  ⟨here, fun _ same => by contradiction⟩

/-- A weaker fact about the value follows. -/
theorem Serves.weaken {ok' : α → World → Prop} (serves : system.Serves inv ok program world)
    (weaker : ∀ value world, ok value world → ok' value world) :
    system.Serves inv ok' program world :=
  Meets.weaken serves (fun _ holds => holds)
    fun _ world _ post value same => weaker value world (post value same)

/-- One program after another. -/
theorem Serves.bind {mid : α → World → Prop} {ok : β → World → Prop} {rest : α → Program Reply ε β}
    (first : system.Serves inv mid program world)
    (second : ∀ value world, mid value world → system.Serves inv ok (rest value) world) :
    system.Serves inv ok (program >>= rest) world := by
  refine Meets.bind first ?_ ?_ ?_
  · exact fun value world _ holds => second value world (holds value rfl)
  · exact fun reason world _ _ value same => by contradiction
  · exact fun message world _ _ value same => by contradiction

/-- What asks of a value no more than is said of it, and of an error or a panic what the invariant
gives, is met. -/
theorem Serves.meets {post : Outcome ε α → World → Prop}
    (serves : system.Serves inv ok program world)
    (returns : ∀ value world, ok value world → post (.ok value) world)
    (reports : ∀ reason world, inv world → post (.error reason) world)
    (panics : ∀ message world, inv world → post (.panic message) world) :
    system.Meets inv post program world := by
  refine Meets.weaken serves (fun _ holds => holds) ?_
  rintro outcome world holds good
  cases outcome with
  | ok value => exact returns value world (good value rfl)
  | error reason => exact reports reason world holds
  | panic message => exact panics message world holds

/-- Renamed errors change no value. -/
theorem Serves.mapError (serves : system.Serves inv ok program world) (rename : ε → ε) :
    system.Serves inv ok (program.mapError rename) world := by
  unfold Serves
  rw [meets_mapError]
  refine serves.meets ?_ ?_ ?_
  · rintro value world holds _ same
    exact Outcome.ok.inj same ▸ holds
  · exact fun _ _ _ _ same => by contradiction
  · exact fun _ _ _ _ same => by contradiction

/-- A caught error returns what its handler returns. -/
theorem Serves.catchError {handle : ε → Program Reply ε α}
    (serves : system.Serves inv ok program world)
    (handled : ∀ reason world, inv world → system.Serves inv ok (handle reason) world) :
    system.Serves inv ok (program.catchError handle) world := by
  unfold Serves
  rw [meets_catchError]
  refine serves.meets ?_ handled ?_
  · rintro value world holds _ same
    exact Outcome.ok.inj same ▸ holds
  · exact fun _ _ _ _ same => by contradiction

/-- A caught panic returns nothing. -/
theorem Serves.catchPanic (serves : system.Serves inv ok program world) (report : String → ε) :
    system.Serves inv ok (program.catchPanic report) world := by
  unfold Serves
  rw [meets_catchPanic]
  refine serves.meets ?_ ?_ ?_
  · rintro value world holds _ same
    exact Outcome.ok.inj same ▸ holds
  · exact fun _ _ _ _ same => by contradiction
  · exact fun _ _ _ _ same => by contradiction

end Serves

end System

/-- An environment that answers by computing, once the choices it leaves open are made. -/
structure Handler {Call : Type} (Reply : Call → Type) (World Choice : Type) where
  /-- The reply and the world after, under one choice. -/
  answer : World → (request : Call) → Choice → Reply request × World

namespace Handler

variable {Call : Type} {Reply : Call → Type} {World Choice ε α : Type}
variable (handler : Handler Reply World Choice)

/-- The system whose replies are those of some choice. -/
def system : System Reply World where
  step world request reply world' :=
    ∃ choice, handler.answer world request choice = (reply, world')

/-- Run a program under a list of choices, the default choice once they are used up. -/
def run [Inhabited Choice] : Program Reply ε α → World → List Choice → Outcome ε α × World
  | .done outcome, world, _ => (outcome, world)
  | .call request next, world, choices =>
    let answered := handler.answer world request (choices.headD default)
    run (next answered.1) answered.2 choices.tail

/-- An executed run is a run of the system. -/
theorem run_ends [Inhabited Choice] (program : Program Reply ε α) (world : World)
    (choices : List Choice) :
    handler.system.Ends world program (handler.run program world choices).1
      (handler.run program world choices).2 := by
  induction program generalizing world choices with
  | done outcome => exact .here
  | call request next ih =>
    exact .next ⟨(choices.headD default), rfl⟩ (ih _ _ _)

/-- An executed run whose outcome is known ends so. -/
theorem run_ends_with [Inhabited Choice] {program : Program Reply ε α} {world : World}
    {choices : List Choice} {outcome : Outcome ε α}
    (computed : (handler.run program world choices).1 = outcome) :
    handler.system.Ends world program outcome (handler.run program world choices).2 :=
  computed ▸ handler.run_ends program world choices

/-- A finished run of the system is the executed run under some choices. -/
theorem ends_run [Inhabited Choice] {program : Program Reply ε α} {world world' : World}
    {outcome : Outcome ε α} (ended : handler.system.Ends world program outcome world') :
    ∃ choices, handler.run program world choices = (outcome, world') := by
  induction program generalizing world with
  | done result =>
    cases ended with
    | here => exact ⟨[], rfl⟩
  | call request next ih =>
    cases ended with
    | next step later =>
      obtain ⟨choice, answer⟩ := step
      obtain ⟨choices, ran⟩ := ih _ later
      refine ⟨choice :: choices, ?_⟩
      simpa only [run, List.headD_cons, List.tail_cons, answer] using ran

end Handler

end Effect
