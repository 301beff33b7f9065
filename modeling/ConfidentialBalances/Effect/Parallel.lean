import ConfidentialBalances.Effect.Within

/-!
# Two runs at once

Two programs run in parallel from two worlds when both make the same requests
under the same choices and end alike. The worlds may differ as far as a relation
lets them, and the replies may differ as far as the programs do not care. A
program whose requests cannot tell related worlds apart runs in parallel with
itself.
-/

namespace Effect

/-- Two programs ended alike: with related values, both with an error, or both with a panic. -/
def Outcome.Corresponds {ε α β : Type} (same : α → β → Prop) :
    Outcome ε α → Outcome ε β → Prop
  | .ok left, .ok right => same left right
  | .error _, .error _ => True
  | .panic _, .panic _ => True
  | _, _ => False

/-- What ended the same ended alike. -/
theorem Outcome.corresponds_refl {ε α : Type} {same : α → α → Prop} {outcome : Outcome ε α}
    (reflexive : ∀ value, outcome = .ok value → same value value) :
    outcome.Corresponds same outcome := by
  cases outcome with
  | ok value => exact reflexive value rfl
  | error reason => trivial
  | panic message => trivial

namespace Handler

variable {Call : Type} {Reply : Call → Type} {World Choice ε α β γ δ : Type}
variable (handler : Handler Reply World Choice)

/-- The programs make the same requests whatever is chosen, and then end alike in related
worlds. -/
inductive Parallel (related : World → World → Prop) (same : α → β → Prop) :
    Program Reply ε α → Program Reply ε β → World → World → Prop
  /-- Both programs are over. -/
  | done {outcome outcome' world world'} :
    outcome.Corresponds same outcome' → related world world' →
      Parallel related same (.done outcome) (.done outcome') world world'
  /-- Both programs make the same request, and go on in parallel under every choice. -/
  | call {request next next' world world'} :
      (∀ choice, Parallel related same (next (handler.answer world request choice).1)
        (next' (handler.answer world' request choice).1) (handler.answer world request choice).2
        (handler.answer world' request choice).2) →
      Parallel related same (.call request next) (.call request next') world world'

variable {handler} {related : World → World → Prop} {same : α → β → Prop}
variable {left : Program Reply ε α} {right : Program Reply ε β} {world world' : World}

/-- One pair of programs after another. -/
theorem Parallel.bind {later : γ → δ → Prop} {rest : α → Program Reply ε γ}
    {rest' : β → Program Reply ε δ}
    (first : handler.Parallel related same left right world world')
    (second : ∀ value value' after after', same value value' → related after after' →
      handler.Parallel related later (rest value) (rest' value') after after') :
    handler.Parallel related later (left >>= rest) (right >>= rest') world world' := by
  induction first with
  | @done outcome outcome' world world' alike here =>
    cases outcome <;> cases outcome' <;> first
      | exact second _ _ _ _ alike here
      | exact .done trivial here
      | exact alike.elim
  | call _ ih => exact .call ih

/-- A reported panic is an error on both sides. -/
theorem Parallel.catchPanic (parallel : handler.Parallel related same left right world world')
    (report report' : String → ε) :
    handler.Parallel related same (left.catchPanic report) (right.catchPanic report') world
      world' := by
  induction parallel with
  | @done outcome outcome' world world' alike here =>
    cases outcome <;> cases outcome' <;> first
      | exact .done alike here
      | exact .done trivial here
  | call _ ih => exact .call ih

/-- A program whose requests do not tell related worlds apart runs in parallel with itself. -/
theorem parallel_within {promised : (request : Call) → Reply request → Prop}
    {allowed : Call → Prop} {ok : α → Prop} {program : Program Reply ε α}
    (promises : handler.system.Promises promised)
    (blind : ∀ world world' request choice, related world world' → allowed request →
      (handler.answer world request choice).1 = (handler.answer world' request choice).1 ∧
        related (handler.answer world request choice).2 (handler.answer world' request choice).2)
    (within : program.Within promised allowed ok) (here : related world world') :
    handler.Parallel related (fun value value' => value = value') program program world
      world' := by
  induction program generalizing world world' with
  | done outcome => exact .done (Outcome.corresponds_refl fun _ _ => rfl) here
  | call request next ih =>
    refine .call fun choice => ?_
    obtain ⟨answer, after⟩ := blind world world' request choice here within.1
    rw [← answer]
    exact ih _ (within.2 _ (promises _ _ _ _ ⟨choice, rfl⟩)) after

/-- The two runs of a parallel pair, executed. -/
theorem Parallel.run [Inhabited Choice]
    (parallel : handler.Parallel related same left right world world') (choices : List Choice) :
    (handler.run left world choices).1.Corresponds same (handler.run right world' choices).1 ∧
      related (handler.run left world choices).2 (handler.run right world' choices).2 := by
  induction parallel generalizing choices with
  | done alike here => exact ⟨alike, here⟩
  | call _ ih => exact ih (choices.headD default) choices.tail

end Handler

end Effect
