import ConfidentialBalances.Effect.System

/-!
# Runs under given choices

A handler and a list of choices determine a run. `Gives` speaks of that one run
where it returns a value: the value, the world it leaves and the choices it has
not used. What happens around a program at each of its requests can so be said
of the list of choices.
-/

namespace Effect

namespace Handler

variable {Call : Type} {Reply : Call → Type} {World Choice ε α β : Type} [Inhabited Choice]
variable (handler : Handler Reply World Choice)

/-- If the run under these choices returns a value, it is as said of the value, the world after and
the unused choices. Once the choices are used up, the default is chosen. -/
def Gives (ok : α → World → List Choice → Prop) :
    Program Reply ε α → World → List Choice → Prop
  | .done outcome, world, choices => ∀ value, outcome = .ok value → ok value world choices
  | .call request next, world, choices =>
    Gives ok (next (handler.answer world request (choices.headD default)).1)
      (handler.answer world request (choices.headD default)).2 choices.tail

variable {handler} {ok : α → World → List Choice → Prop}
variable {program : Program Reply ε α} {world : World} {choices : List Choice}

/-- A triple about a program speaks of its executed run. -/
theorem gives_run (ok : α → World → Prop) :
    handler.Gives (fun value world _ => ok value world) program world choices ↔
      ∀ value, (handler.run program world choices).1 = .ok value →
        ok value (handler.run program world choices).2 := by
  induction program generalizing world choices with
  | done outcome => exact Iff.rfl
  | call request next ih => exact ih _

/-- What is returned at once holds where it is returned. -/
theorem gives_pure {value : α} (holds : ok value world choices) :
    handler.Gives ok (pure value : Program Reply ε α) world choices := by
  rintro value' same
  obtain rfl := Outcome.ok.inj same
  exact holds

/-- A failure gives no value. -/
theorem gives_fail {reason : ε} :
    handler.Gives ok (Program.fail reason) world choices := by
  rintro value same
  contradiction

/-- A panic gives no value. -/
theorem gives_abort {message : String} :
    handler.Gives ok (Program.abort message : Program Reply ε α) world choices := by
  rintro value same
  contradiction

/-- A weaker fact follows. -/
theorem Gives.weaken {ok' : α → World → List Choice → Prop}
    (gives : handler.Gives ok program world choices)
    (weaker : ∀ value world choices, ok value world choices → ok' value world choices) :
    handler.Gives ok' program world choices := by
  induction program generalizing world choices with
  | done outcome => exact fun value same => weaker _ _ _ (gives value same)
  | call request next ih => exact ih _ gives

/-- Two facts about one run hold together. -/
theorem Gives.and {ok' : α → World → List Choice → Prop}
    (left : handler.Gives ok program world choices)
    (right : handler.Gives ok' program world choices) :
    handler.Gives (fun value world choices => ok value world choices ∧ ok' value world choices)
      program world choices := by
  induction program generalizing world choices with
  | done outcome => exact fun value same => ⟨left value same, right value same⟩
  | call request next ih => exact ih _ left right

/-- One program after another. -/
theorem Gives.bind {mid : α → World → List Choice → Prop} {ok : β → World → List Choice → Prop}
    {rest : α → Program Reply ε β} (first : handler.Gives mid program world choices)
    (second : ∀ value world choices, mid value world choices →
      handler.Gives ok (rest value) world choices) :
    handler.Gives ok (program >>= rest) world choices := by
  induction program generalizing world choices with
  | done outcome =>
    cases outcome with
    | ok value => exact second value world choices (first value rfl)
    | error reason => exact gives_fail
    | panic message => exact gives_abort
  | call request next ih => exact ih _ first

/-- Renamed errors change no value. -/
theorem Gives.mapError (gives : handler.Gives ok program world choices) (rename : ε → ε) :
    handler.Gives ok (program.mapError rename) world choices := by
  induction program generalizing world choices with
  | done outcome =>
    cases outcome with
    | ok value => exact gives
    | error reason => exact gives_fail
    | panic message => exact gives_abort
  | call request next ih => exact ih _ gives

/-- A reported panic returns no value. -/
theorem Gives.catchPanic (gives : handler.Gives ok program world choices) (report : String → ε) :
    handler.Gives ok (program.catchPanic report) world choices := by
  induction program generalizing world choices with
  | done outcome =>
    cases outcome with
    | ok value => exact gives
    | error reason => exact gives_fail
    | panic message => exact gives_fail
  | call request next ih => exact ih _ gives

/-- A handled error gives what the handler gives. -/
theorem Gives.catchError {handle : ε → Program Reply ε α}
    (gives : handler.Gives ok program world choices)
    (handled : ∀ reason world choices, handler.Gives ok (handle reason) world choices) :
    handler.Gives ok (program.catchError handle) world choices := by
  induction program generalizing world choices with
  | done outcome =>
    cases outcome with
    | ok value => exact gives
    | error reason => exact handled reason world choices
    | panic message => exact gives_abort
  | call request next ih => exact ih _ gives

/-- What holds of every finished run of the system holds of this one. -/
theorem gives_of_ends {ok : α → World → Prop}
    (ends : ∀ value world', handler.system.Ends world program (.ok value) world' →
      ok value world') :
    handler.Gives (fun value world' _ => ok value world') program world choices :=
  (gives_run ok).mpr fun value same =>
    ends value _ (same ▸ handler.run_ends program world choices)

end Handler

end Effect
