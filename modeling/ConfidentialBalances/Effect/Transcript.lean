import ConfidentialBalances.Effect.System

/-!
# Transcripts

What a run asked for and what it was answered, in order. The replies are all
that a program ever learns of its environment, so a condition on a transcript is
a condition on the inputs of the run. `Shows` judges a program by the transcripts
of its finished runs.
-/

namespace Effect

/-- One answered request. -/
abbrev Exchange {Call : Type} (Reply : Call → Type) := (request : Call) × Reply request

namespace System

variable {Call : Type} {Reply : Call → Type} {World ε α β : Type}
variable (system : System Reply World)

/-- A run with its transcript, oldest exchange first. -/
inductive Runs : World → Program Reply ε α → List (Exchange Reply) → World →
    Program Reply ε α → Prop
  /-- No request has been answered. -/
  | here {world program} : Runs world program [] world program
  /-- The first request is answered, and the run goes on. -/
  | next {world request next reply world' transcript world'' program} :
      system.step world request reply world' →
        Runs world' (next reply) transcript world'' program →
          Runs world (.call request next) (⟨request, reply⟩ :: transcript) world'' program

/-- Every finished run has such an outcome, such a transcript and such a last world. -/
def Shows (post : Outcome ε α → List (Exchange Reply) → World → Prop)
    (program : Program Reply ε α) (world : World) : Prop :=
  ∀ transcript outcome world',
    system.Runs world program transcript world' (.done outcome) → post outcome transcript world'

variable {system} {world world' : World} {program program' : Program Reply ε α}
variable {transcript : List (Exchange Reply)}

/-- A run with a transcript is a run. -/
theorem Runs.reaches (run : system.Runs world program transcript world' program') :
    system.Reaches world program world' program' := by
  induction run with
  | here => exact .here
  | next step _ ih => exact .next step ih

/-- Every run has a transcript. -/
theorem Reaches.runs (run : system.Reaches world program world' program') :
    ∃ transcript, system.Runs world program transcript world' program' := by
  induction run with
  | here => exact ⟨[], .here⟩
  | next step _ ih =>
    obtain ⟨transcript, rest⟩ := ih
    exact ⟨_ :: transcript, .next step rest⟩

/-- A run that goes on is a run. -/
theorem Runs.append {later : List (Exchange Reply)} {world'' : World}
    {program'' : Program Reply ε α} (run : system.Runs world program transcript world' program')
    (rest : system.Runs world' program' later world'' program'') :
    system.Runs world program (transcript ++ later) world'' program'' := by
  induction run with
  | here => exact rest
  | next step _ ih => exact .next step (ih rest)

/-- A finished run of a sequence is a finished run of its first part and one of its second part,
or a run of its first part that returned no value. -/
theorem Runs.bind_cases {program : Program Reply ε α} {rest : α → Program Reply ε β}
    {outcome : Outcome ε β}
    (run : system.Runs world (program >>= rest) transcript world' (.done outcome)) :
    (∃ value first middle second, transcript = first ++ second ∧
      system.Runs world program first middle (.done (.ok value)) ∧
      system.Runs middle (rest value) second world' (.done outcome)) ∨
    (∃ reason, outcome = .error reason ∧
      system.Runs world program transcript world' (.done (.error reason))) ∨
    ∃ message, outcome = .panic message ∧
      system.Runs world program transcript world' (.done (.panic message)) := by
  induction program generalizing world transcript with
  | done ended =>
    cases ended with
    | ok value => exact .inl ⟨value, [], world, transcript, rfl, .here, run⟩
    | error reason =>
      cases run with
      | here => exact .inr (.inl ⟨reason, rfl, .here⟩)
    | panic message =>
      cases run with
      | here => exact .inr (.inr ⟨message, rfl, .here⟩)
  | call request next ih =>
    rw [Program.call_bind] at run
    cases run with
    | next step later =>
      rcases ih _ later with ⟨value, first, middle, second, rfl, ran, rest⟩ |
        ⟨reason, same, ran⟩ | ⟨message, same, ran⟩
      · exact .inl ⟨value, _ :: first, middle, second, rfl, .next step ran, rest⟩
      · exact .inr (.inl ⟨reason, same, .next step ran⟩)
      · exact .inr (.inr ⟨message, same, .next step ran⟩)

/-- A run makes only requests that its program uses. -/
theorem Runs.uses {allowed : Call → Prop} (uses : program.Uses allowed)
    (run : system.Runs world program transcript world' program') :
    ∀ exchange ∈ transcript, allowed exchange.1 := by
  induction run with
  | here => simp
  | next _ _ ih => exact List.forall_mem_cons.mpr ⟨uses.1, ih (uses.2 _)⟩

/-- As far as a run of a sequence has come, it is in the first part, with nothing returned yet, or
the first part has returned a value and it is in the second. -/
theorem Runs.bind_split {program : Program Reply ε α} {rest : α → Program Reply ε β}
    {remaining : Program Reply ε β}
    (run : system.Runs world (program >>= rest) transcript world' remaining) :
    (∃ program', system.Runs world program transcript world' program' ∧
      remaining = program' >>= rest ∧ ∀ value, program' ≠ .done (.ok value)) ∨
    ∃ value first middle second, transcript = first ++ second ∧
      system.Runs world program first middle (.done (.ok value)) ∧
      system.Runs middle (rest value) second world' remaining := by
  induction program generalizing world transcript with
  | done ended =>
    cases ended with
    | ok value => exact .inr ⟨value, [], world, transcript, rfl, .here, run⟩
    | error reason =>
      cases run with
      | here => exact .inl ⟨_, .here, rfl, by simp⟩
    | panic message =>
      cases run with
      | here => exact .inl ⟨_, .here, rfl, by simp⟩
  | call request next ih =>
    rw [Program.call_bind] at run
    cases run with
    | here => exact .inl ⟨_, .here, rfl, by simp⟩
    | next step later =>
      rcases ih _ later with ⟨program', ran, left⟩ | ⟨value, first, middle, second, rfl, ran, rest⟩
      · exact .inl ⟨program', .next step ran, left⟩
      · exact .inr ⟨value, _ :: first, middle, second, rfl, .next step ran, rest⟩

/-- A run with its panics reported is a run. -/
theorem Runs.catchPanic_split {report : String → ε} {remaining : Program Reply ε α}
    (run : system.Runs world (program.catchPanic report) transcript world' remaining) :
    ∃ program', system.Runs world program transcript world' program' ∧
      remaining = program'.catchPanic report := by
  induction program generalizing world transcript with
  | done ended =>
    cases ended <;> cases run <;> exact ⟨_, .here, rfl⟩
  | call request next ih =>
    cases run with
    | here => exact ⟨_, .here, rfl⟩
    | next step later =>
      obtain ⟨program', ran, same⟩ := ih _ later
      exact ⟨program', .next step ran, same⟩

/-- A sequence that has returned a value has returned one from each part. -/
theorem Runs.bind_ok {program : Program Reply ε α} {rest : α → Program Reply ε β} {returned : β}
    (run : system.Runs world (program >>= rest) transcript world' (.done (.ok returned))) :
    ∃ value first middle second, transcript = first ++ second ∧
      system.Runs world program first middle (.done (.ok value)) ∧
      system.Runs middle (rest value) second world' (.done (.ok returned)) := by
  rcases run.bind_cases with whole | ⟨reason, same, -⟩ | ⟨message, same, -⟩
  · exact whole
  · contradiction
  · contradiction

/-- A sequence that has come to a request has come to it in its first part, or in the second. -/
theorem Runs.bind_call {program : Program Reply ε α} {rest : α → Program Reply ε β}
    {request : Call} {next : Reply request → Program Reply ε β}
    (run : system.Runs world (program >>= rest) transcript world' (.call request next)) :
    (∃ next', system.Runs world program transcript world' (.call request next')) ∨
    ∃ value first middle second, transcript = first ++ second ∧
      system.Runs world program first middle (.done (.ok value)) ∧
      system.Runs middle (rest value) second world' (.call request next) := by
  rcases run.bind_split with ⟨program', ran, left, unreturned⟩ | whole
  · rcases Program.bind_eq_call left.symm with ⟨value, ended⟩ | ⟨next', rfl⟩
    · exact absurd ended (unreturned value)
    · exact .inl ⟨next', ran⟩
  · exact .inr whole

/-- A program that has returned a value with its panics reported has returned it. -/
theorem Runs.catchPanic_ok {report : String → ε} {returned : α}
    (run : system.Runs world (program.catchPanic report) transcript world'
      (.done (.ok returned))) :
    system.Runs world program transcript world' (.done (.ok returned)) := by
  obtain ⟨program', ran, left⟩ := run.catchPanic_split
  rwa [← Program.catchPanic_eq_ok left.symm]

/-- A program that has come to a request with its panics reported has come to it. -/
theorem Runs.catchPanic_call {report : String → ε} {request : Call}
    {next : Reply request → Program Reply ε α}
    (run : system.Runs world (program.catchPanic report) transcript world'
      (.call request next)) :
    ∃ next', system.Runs world program transcript world' (.call request next') := by
  obtain ⟨program', ran, left⟩ := run.catchPanic_split
  obtain ⟨next', rfl⟩ := Program.catchPanic_eq_call left.symm
  exact ⟨next', ran⟩

section Rules

variable {post post' : Outcome ε α → List (Exchange Reply) → World → Prop}

/-- A finished program has made no request. -/
theorem shows_done {outcome : Outcome ε α} :
    system.Shows post (.done outcome) world ↔ post outcome [] world := by
  constructor
  · exact fun shows => shows _ _ _ .here
  · intro holds transcript outcome' world' run
    cases run with
    | here => exact holds

/-- A request is judged by what follows each of its replies. -/
theorem shows_call {request : Call} {next : Reply request → Program Reply ε α} :
    system.Shows post (.call request next) world ↔
      ∀ reply world', system.step world request reply world' →
        system.Shows (fun outcome transcript => post outcome (⟨request, reply⟩ :: transcript))
          (next reply) world' := by
  constructor
  · exact fun shows reply world' step _ _ _ run => shows _ _ _ (.next step run)
  · intro later transcript outcome world' run
    cases run with
    | next step rest => exact later _ _ step _ _ _ rest

/-- A weaker judgement follows. -/
theorem Shows.weaken (shows : system.Shows post program world)
    (weaker : ∀ outcome transcript world',
      post outcome transcript world' → post' outcome transcript world') :
    system.Shows post' program world :=
  fun transcript outcome world' run => weaker _ _ _ (shows transcript outcome world' run)

/-- Two judgements hold together. -/
theorem Shows.and (left : system.Shows post program world)
    (right : system.Shows post' program world) :
    system.Shows (fun outcome transcript world' =>
      post outcome transcript world' ∧ post' outcome transcript world') program world :=
  fun _ _ _ run => ⟨left _ _ _ run, right _ _ _ run⟩

/-- What holds of the ends of all runs holds of the ends of runs with transcripts. -/
theorem Meets.shows {inv : World → Prop} {ends : Outcome ε α → World → Prop}
    (meets : system.Meets inv ends program world) :
    system.Shows (fun outcome _ world' => ends outcome world') program world :=
  fun _ _ _ run => meets.ends run.reaches

/-- One program after another: the transcripts follow each other. -/
theorem Shows.bind {mid : Outcome ε α → List (Exchange Reply) → World → Prop}
    {post : Outcome ε β → List (Exchange Reply) → World → Prop} {rest : α → Program Reply ε β}
    (first : system.Shows mid program world)
    (ok : ∀ value done middle, mid (.ok value) done middle →
      system.Shows (fun outcome transcript => post outcome (done ++ transcript)) (rest value)
        middle)
    (error : ∀ reason done world', mid (.error reason) done world' →
      post (.error reason) done world')
    (panic : ∀ message done world', mid (.panic message) done world' →
      post (.panic message) done world') :
    system.Shows post (program >>= rest) world := by
  intro transcript outcome world' run
  rcases run.bind_cases with ⟨value, done, middle, second, rfl, ran, later⟩ |
    ⟨reason, rfl, ran⟩ | ⟨message, rfl, ran⟩
  · exact ok value done middle (first _ _ _ ran) _ _ _ later
  · exact error reason _ _ (first _ _ _ ran)
  · exact panic message _ _ (first _ _ _ ran)

/-- A handler goes on from where the error was reported. -/
theorem shows_catchError (handle : ε → Program Reply ε α) (program : Program Reply ε α) :
    system.Shows post (program.catchError handle) world ↔
      system.Shows (fun outcome done middle => match outcome with
        | .ok value => post (.ok value) done middle
        | .error reason => system.Shows (fun outcome transcript =>
            post outcome (done ++ transcript)) (handle reason) middle
        | .panic message => post (.panic message) done middle) program world := by
  induction program generalizing world post with
  | done outcome => cases outcome <;> simp [Program.catchError, shows_done]
  | call request next ih => simp only [Program.catchError, shows_call, ih, List.cons_append]

/-- A reported panic is judged as the error that reports it. -/
theorem shows_catchPanic (report : String → ε) (program : Program Reply ε α) :
    system.Shows post (program.catchPanic report) world ↔
      system.Shows (fun outcome => match outcome with
        | .ok value => post (.ok value)
        | .error reason => post (.error reason)
        | .panic message => post (.error (report message))) program world := by
  induction program generalizing world post with
  | done outcome => cases outcome <;> simp [Program.catchPanic, shows_done]
  | call request next ih =>
    simp only [Program.catchPanic, shows_call, ih]
    constructor
    · intro later reply world' step
      refine (later reply world' step).weaken fun outcome transcript world'' holds => ?_
      cases outcome <;> exact holds
    · intro later reply world' step
      refine (later reply world' step).weaken fun outcome transcript world'' holds => ?_
      cases outcome <;> exact holds

end Rules

end System

namespace Handler

variable {Call : Type} {Reply : Call → Type} {World Choice ε α : Type}
variable (handler : Handler Reply World Choice)

/-- A request to a handler is judged by what follows each of its answers. -/
theorem shows_call {post : Outcome ε α → List (Exchange Reply) → World → Prop} {request : Call}
    {next : Reply request → Program Reply ε α} {world : World} :
    handler.system.Shows post (.call request next) world ↔
      ∀ choice, handler.system.Shows
        (fun outcome transcript =>
          post outcome (⟨request, (handler.answer world request choice).1⟩ :: transcript))
        (next (handler.answer world request choice).1)
        (handler.answer world request choice).2 := by
  rw [System.shows_call]
  constructor
  · exact fun later choice => later _ _ ⟨choice, rfl⟩
  · intro later reply world' answered
    obtain ⟨choice, answer⟩ := answered
    have followed := later choice
    rw [answer] at followed
    exact followed

variable [Inhabited Choice]

/-- The transcript of an executed run. -/
def transcript : Program Reply ε α → World → List Choice → List (Exchange Reply)
  | .done _, _, _ => []
  | .call request next, world, choices =>
    let answered := handler.answer world request (choices.headD default)
    ⟨request, answered.1⟩ :: transcript (next answered.1) answered.2 choices.tail

/-- An executed run has its transcript. -/
theorem run_runs (program : Program Reply ε α) (world : World) (choices : List Choice) :
    handler.system.Runs world program (handler.transcript program world choices)
      (handler.run program world choices).2 (.done (handler.run program world choices).1) := by
  induction program generalizing world choices with
  | done outcome => exact .here
  | call request next ih => exact .next ⟨choices.headD default, rfl⟩ (ih _ _ _)

end Handler

end Effect
