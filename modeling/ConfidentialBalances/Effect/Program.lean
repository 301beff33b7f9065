import Mathlib.Tactic

/-!
# Effectful programs

A program is a finite tree of requests to an environment. Each branch of the
tree is one reply the environment may give, and each leaf is how the program
ends there: with a value, with a reported error, or with a panic. The tree says
what a program asks for and never what the environment does with it, so one
program is read against a sequential environment, a faulty one or an arbitrary
one without being written twice.
-/

namespace Effect

/-- How a finished program ended. -/
inductive Outcome (ε α : Type)
  /-- The program returned a value. -/
  | ok (value : α)
  /-- The program reported an error to its caller. -/
  | error (reason : ε)
  /-- The program aborted; no caller inside the program sees this. -/
  | panic (message : String)
  deriving DecidableEq, Repr

/-- The program returned a value. -/
def Outcome.isOk {ε α : Type} : Outcome ε α → Bool
  | .ok _ => true
  | _ => false

/-- An outcome is ok when it has a value. -/
theorem Outcome.isOk_iff {ε α : Type} {outcome : Outcome ε α} :
    outcome.isOk = true ↔ ∃ value, outcome = .ok value := by
  cases outcome <;> simp [isOk]

/-- A program over the requests `Call`, each answered by a `Reply`. -/
inductive Program {Call : Type} (Reply : Call → Type) (ε α : Type)
  /-- The program is over. -/
  | done (outcome : Outcome ε α)
  /-- The program waits for one reply and goes on from it. -/
  | call (request : Call) (next : Reply request → Program Reply ε α)

namespace Program

variable {Call : Type} {Reply : Call → Type} {ε α β γ : Type}

/-- Run one program and go on from its value; errors and panics end the whole. -/
def bind : Program Reply ε α → (α → Program Reply ε β) → Program Reply ε β
  | .done (.ok value), rest => rest value
  | .done (.error reason), _ => .done (.error reason)
  | .done (.panic message), _ => .done (.panic message)
  | .call request next, rest => .call request fun reply => (next reply).bind rest

instance : Monad (Program Reply ε) where
  pure value := .done (.ok value)
  bind := bind

/-- One request, returning its reply. -/
def perform (request : Call) : Program Reply ε (Reply request) :=
  .call request fun reply => .done (.ok reply)

/-- Report an error. -/
def fail (reason : ε) : Program Reply ε α := .done (.error reason)

/-- Abort. -/
def abort (message : String) : Program Reply ε α := .done (.panic message)

/-- The value of a computation that can only report an error. -/
def ofExcept : Except ε α → Program Reply ε α
  | .ok value => .done (.ok value)
  | .error reason => .done (.error reason)

/-- Go on from a reported error; a panic still ends the whole. -/
def catchError (handle : ε → Program Reply ε α) : Program Reply ε α → Program Reply ε α
  | .done (.ok value) => .done (.ok value)
  | .done (.error reason) => handle reason
  | .done (.panic message) => .done (.panic message)
  | .call request next => .call request fun reply => (next reply).catchError handle

/-- Report a panic as an error, as a runtime does for a task that it joins. -/
def catchPanic (report : String → ε) : Program Reply ε α → Program Reply ε α
  | .done (.ok value) => .done (.ok value)
  | .done (.error reason) => .done (.error reason)
  | .done (.panic message) => .done (.error (report message))
  | .call request next => .call request fun reply => (next reply).catchPanic report

/-- Rewrite the error a program reports. -/
def mapError (rename : ε → ε) : Program Reply ε α → Program Reply ε α
  | .done (.ok value) => .done (.ok value)
  | .done (.error reason) => .done (.error (rename reason))
  | .done (.panic message) => .done (.panic message)
  | .call request next => .call request fun reply => (next reply).mapError rename

@[simp] theorem pure_eq (value : α) :
    (pure value : Program Reply ε α) = .done (.ok value) := rfl

@[simp] theorem done_ok_bind (value : α) (rest : α → Program Reply ε β) :
    (.done (.ok value) >>= rest) = rest value := rfl

@[simp] theorem done_error_bind (reason : ε) (rest : α → Program Reply ε β) :
    (.done (.error reason) >>= rest) = .done (.error reason) := rfl

@[simp] theorem done_panic_bind (message : String) (rest : α → Program Reply ε β) :
    (.done (.panic message) >>= rest) = .done (.panic message) := rfl

@[simp] theorem call_bind (request : Call) (next : Reply request → Program Reply ε α)
    (rest : α → Program Reply ε β) :
    (.call request next >>= rest) = .call request fun reply => next reply >>= rest := rfl

/-- Sequences associate. -/
theorem bind_assoc (program : Program Reply ε α) (middle : α → Program Reply ε β)
    (rest : β → Program Reply ε γ) :
    (program >>= middle) >>= rest = program >>= fun value => middle value >>= rest := by
  induction program with
  | done outcome => cases outcome <;> rfl
  | call request next ih => simp only [call_bind, ih]

/-- A value that is left with panics reported was returned. -/
theorem catchPanic_eq_ok {report : String → ε} {program : Program Reply ε α} {value : α}
    (same : program.catchPanic report = .done (.ok value)) : program = .done (.ok value) := by
  cases program with
  | done outcome => cases outcome <;> simp_all [catchPanic]
  | call request next => simp [catchPanic] at same

/-- A request that comes next with panics reported comes next. -/
theorem catchPanic_eq_call {report : String → ε} {program : Program Reply ε α} {request : Call}
    {next : Reply request → Program Reply ε α}
    (same : program.catchPanic report = .call request next) :
    ∃ next', program = .call request next' := by
  cases program with
  | done outcome => cases outcome <;> simp [catchPanic] at same
  | call first rest =>
    obtain ⟨rfl, -⟩ := call.inj same
    exact ⟨rest, rfl⟩

/-- A request that comes next in a sequence whose first part has returned no value comes next
there. -/
theorem bind_eq_call {program : Program Reply ε α} {rest : α → Program Reply ε β} {request : Call}
    {next : Reply request → Program Reply ε β} (same : program >>= rest = .call request next) :
    (∃ value, program = .done (.ok value)) ∨ ∃ next', program = .call request next' := by
  cases program with
  | done outcome => cases outcome <;> simp_all
  | call first later =>
    obtain ⟨rfl, -⟩ := call.inj same
    exact .inr ⟨later, rfl⟩

/-- A sequence returns nothing before its first part has. -/
theorem bind_ne_ok {program : Program Reply ε α} {rest : α → Program Reply ε β}
    (unreturned : ∀ value, program ≠ .done (.ok value)) (value : β) :
    program >>= rest ≠ .done (.ok value) := by
  cases program with
  | done outcome => cases outcome <;> simp_all
  | call request next => simp

/-- The program can return this value, by some replies. -/
def Returns (wanted : α) : Program Reply ε α → Prop
  | .done outcome => outcome = .ok wanted
  | .call _ next => ∃ reply, (next reply).Returns wanted

/-- A sequence returns a value exactly when its second part returns it from a value of its
first part. -/
theorem returns_bind (wanted : β) (program : Program Reply ε α) (rest : α → Program Reply ε β) :
    (program >>= rest).Returns wanted ↔
      ∃ value, program.Returns value ∧ (rest value).Returns wanted := by
  induction program with
  | done outcome => cases outcome <;> simp [Returns]
  | call request next ih =>
    simp only [call_bind, Returns, ih]
    constructor
    · rintro ⟨reply, value, returned, wanted⟩
      exact ⟨value, ⟨reply, returned⟩, wanted⟩
    · rintro ⟨value, ⟨reply, returned⟩, wanted⟩
      exact ⟨reply, value, returned, wanted⟩

/-- Every request the program can make is allowed. -/
def Uses (allowed : Call → Prop) : Program Reply ε α → Prop
  | .done _ => True
  | .call request next => allowed request ∧ ∀ reply, (next reply).Uses allowed

/-- A sequence makes only allowed requests exactly when its first part does, and its second part
does from every value of the first. -/
theorem uses_bind (allowed : Call → Prop) (program : Program Reply ε α)
    (rest : α → Program Reply ε β) :
    (program >>= rest).Uses allowed ↔
      program.Uses allowed ∧ ∀ value, program.Returns value → (rest value).Uses allowed := by
  induction program with
  | done outcome => cases outcome <;> simp [Uses, Returns]
  | call request next ih =>
    simp only [call_bind, Uses, Returns, ih]
    constructor
    · rintro ⟨now, later⟩
      exact ⟨⟨now, fun reply => (later reply).1⟩, fun value ⟨reply, returned⟩ =>
        (later reply).2 value returned⟩
    · rintro ⟨⟨now, later⟩, rest⟩
      exact ⟨now, fun reply => ⟨later reply, fun value returned => rest value ⟨reply, returned⟩⟩⟩

/-- A sequence of programs that make only allowed requests makes only allowed requests. -/
theorem Uses.bind {allowed : Call → Prop} {program : Program Reply ε α}
    {rest : α → Program Reply ε β} (first : program.Uses allowed)
    (second : ∀ value, (rest value).Uses allowed) : (program >>= rest).Uses allowed :=
  (uses_bind allowed program rest).mpr ⟨first, fun value _ => second value⟩

/-- Renaming errors changes no request. -/
theorem uses_mapError (allowed : Call → Prop) (rename : ε → ε) (program : Program Reply ε α) :
    (program.mapError rename).Uses allowed ↔ program.Uses allowed := by
  induction program with
  | done outcome => cases outcome <;> simp [mapError, Uses]
  | call request next ih => simp only [mapError, Uses, ih]

/-- Every error the program can report is allowed. -/
def Fails (allowed : ε → Prop) : Program Reply ε α → Prop
  | .done (.error reason) => allowed reason
  | .done _ => True
  | .call _ next => ∀ reply, (next reply).Fails allowed

/-- A sequence reports only allowed errors when both its parts do. -/
theorem Fails.bind {allowed : ε → Prop} {program : Program Reply ε α}
    {rest : α → Program Reply ε β} (first : program.Fails allowed)
    (second : ∀ value, (rest value).Fails allowed) : (program >>= rest).Fails allowed := by
  induction program with
  | done outcome =>
    cases outcome with
    | ok value => exact second value
    | error reason => exact first
    | panic message => trivial
  | call request next ih => exact fun reply => ih reply (first reply)

/-- The errors of a computation. -/
theorem fails_ofExcept {allowed : ε → Prop} {result : Except ε α}
    (errors : ∀ reason, result = .error reason → allowed reason) :
    (ofExcept result : Program Reply ε α).Fails allowed := by
  cases result with
  | ok value => trivial
  | error reason => exact errors reason rfl

end Program

end Effect
