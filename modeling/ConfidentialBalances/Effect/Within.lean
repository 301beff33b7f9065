import ConfidentialBalances.Effect.System

/-!
# Programs within bounds

Which requests a program can make depends on what it is answered. `Within`
bounds the requests and the values of a program whose environment keeps a
promise about its replies, and speaks of no world: what is proved of a program
once holds of its runs in every environment that keeps the promise.
-/

namespace Effect

namespace Program

variable {Call : Type} {Reply : Call → Type} {ε α β : Type}
variable {promised : (request : Call) → Reply request → Prop} {allowed : Call → Prop}

/-- While every reply is a promised one, the program makes only allowed requests, and the values
that it returns are as said. -/
def Within (promised : (request : Call) → Reply request → Prop) (allowed : Call → Prop)
    (ok : α → Prop) : Program Reply ε α → Prop
  | .done outcome => ∀ value, outcome = .ok value → ok value
  | .call request next =>
    allowed request ∧ ∀ reply, promised request reply → (next reply).Within promised allowed ok

section Rules

variable {ok : α → Prop} {program : Program Reply ε α}

/-- Returning a value makes no request. -/
theorem within_pure {value : α} (holds : ok value) :
    (pure value : Program Reply ε α).Within promised allowed ok := by
  rintro value' same
  obtain rfl := Outcome.ok.inj same
  exact holds

/-- Failing makes no request. -/
theorem within_fail {reason : ε} :
    (fail reason : Program Reply ε α).Within promised allowed ok := by
  rintro value same
  contradiction

/-- Panicking makes no request. -/
theorem within_abort {message : String} :
    (abort message : Program Reply ε α).Within promised allowed ok := by
  rintro value same
  contradiction

/-- A computed result makes no request. -/
theorem within_ofExcept {result : Except ε α} :
    (ofExcept result : Program Reply ε α).Within promised allowed fun _ => True := by
  cases result with
  | ok value => exact within_pure trivial
  | error reason => exact within_fail

/-- A program that makes only allowed requests whatever it is answered. -/
theorem Uses.within (uses : program.Uses allowed) :
    program.Within promised allowed fun _ => True := by
  induction program with
  | done outcome => exact fun _ _ => trivial
  | call request next ih => exact ⟨uses.1, fun reply _ => ih reply (uses.2 reply)⟩

/-- More requests may be allowed, and less said of the value. -/
theorem Within.weaken {allowed' : Call → Prop} {ok' : α → Prop}
    (within : program.Within promised allowed ok)
    (weakerAllowed : ∀ request, allowed request → allowed' request)
    (weakerOk : ∀ value, ok value → ok' value) : program.Within promised allowed' ok' := by
  induction program with
  | done outcome => exact fun value same => weakerOk value (within value same)
  | call request next ih =>
    exact ⟨weakerAllowed request within.1, fun reply kept => ih reply (within.2 reply kept)⟩

/-- One program after another. -/
theorem Within.bind {ok : β → Prop} {mid : α → Prop} {rest : α → Program Reply ε β}
    (first : program.Within promised allowed mid)
    (second : ∀ value, mid value → (rest value).Within promised allowed ok) :
    (program >>= rest).Within promised allowed ok := by
  induction program with
  | done outcome =>
    cases outcome with
    | ok value => exact second value (first value rfl)
    | error reason => exact within_fail
    | panic message => exact within_abort
  | call request next ih =>
    exact ⟨first.1, fun reply kept => ih reply (first.2 reply kept)⟩

/-- An allowed request first, and then the rest. -/
theorem within_perform {request : Call} {rest : Reply request → Program Reply ε β} {ok : β → Prop}
    (may : allowed request)
    (second : ∀ reply, promised request reply → (rest reply).Within promised allowed ok) :
    (perform request >>= rest : Program Reply ε β).Within promised allowed ok :=
  ⟨may, second⟩

/-- Renaming errors changes no request and no value. -/
theorem Within.mapError (within : program.Within promised allowed ok) (rename : ε → ε) :
    (program.mapError rename).Within promised allowed ok := by
  induction program with
  | done outcome =>
    cases outcome with
    | ok value => exact within
    | error reason => exact within_fail
    | panic message => exact within_abort
  | call request next ih =>
    exact ⟨within.1, fun reply kept => ih reply (within.2 reply kept)⟩

/-- A handled error goes on with the handler. -/
theorem Within.catchError {handle : ε → Program Reply ε α}
    (within : program.Within promised allowed ok)
    (handled : ∀ reason, (handle reason).Within promised allowed ok) :
    (program.catchError handle).Within promised allowed ok := by
  induction program with
  | done outcome =>
    cases outcome with
    | ok value => exact within
    | error reason => exact handled reason
    | panic message => exact within_abort
  | call request next ih =>
    exact ⟨within.1, fun reply kept => ih reply (within.2 reply kept)⟩

end Rules

end Program

namespace System

variable {Call : Type} {Reply : Call → Type} {World ε α : Type} {system : System Reply World}
variable {promised : (request : Call) → Reply request → Prop} {allowed : Call → Prop}
variable {ok : α → Prop}

/-- The environment gives only promised replies. -/
def Promises (system : System Reply World)
    (promised : (request : Call) → Reply request → Prop) : Prop :=
  ∀ world request reply world', system.step world request reply world' → promised request reply

/-- What is left of a program on its way is within the same bounds. -/
theorem Reaches.within (promises : system.Promises promised) {program program' : Program Reply ε α}
    {world world' : World} (run : system.Reaches world program world' program')
    (within : program.Within promised allowed ok) : program'.Within promised allowed ok := by
  induction run with
  | here => exact within
  | next step _ ih => exact ih (within.2 _ (promises _ _ _ _ step))

/-- What every step preserves, every program preserves. -/
theorem Reaches.preserves (property : World → Prop)
    (keeps : ∀ world request reply world', system.step world request reply world' →
      property world → property world')
    {program program' : Program Reply ε α} {world world' : World}
    (run : system.Reaches world program world' program') (here : property world) :
    property world' := by
  induction run with
  | here => exact here
  | next step _ ih => exact ih (keeps _ _ _ _ step here)

/-- What every allowed request preserves, the program preserves. -/
theorem Reaches.keeps {property : World → Prop} (promises : system.Promises promised)
    (keeps : ∀ world request reply world', allowed request →
      system.step world request reply world' → property world → property world')
    {program program' : Program Reply ε α} {world world' : World}
    (run : system.Reaches world program world' program')
    (within : program.Within promised allowed ok) (here : property world) : property world' := by
  induction run with
  | here => exact here
  | next step _ ih =>
    exact ih (within.2 _ (promises _ _ _ _ step)) (keeps _ _ _ _ within.1 step here)

end System

end Effect
