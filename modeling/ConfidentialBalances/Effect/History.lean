import ConfidentialBalances.Effect.Transcript
import ConfidentialBalances.Effect.Within

/-!
# Programs with a history

`Within` bounds every request of a program alike. Here a bound may look at the
exchanges that the program has had before: what it was told decides what it may
ask for next. The judgement still speaks of no world. What an environment
promises may look at the history too, as when it never gives one name twice.
-/

namespace Effect

namespace Program

variable {Call : Type} {Reply : Call → Type} {ε α β : Type}
variable (promised : List (Exchange Reply) → (request : Call) → Reply request → Prop)
variable (allowed : List (Exchange Reply) → Call → Prop)

/-- After the exchanges so far, and while every reply is a promised one, the program makes only
requests that its history allows, and however it ends, that fits the history at its end. -/
def Leads (ends : List (Exchange Reply) → Outcome ε α → Prop) :
    List (Exchange Reply) → Program Reply ε α → Prop
  | past, .done outcome => ends past outcome
  | past, .call request next => allowed past request ∧
      ∀ reply, promised past request reply → Leads ends (past ++ [⟨request, reply⟩]) (next reply)

/-- A program leads where it should, where only the values that it returns matter. -/
abbrev Along (ok : List (Exchange Reply) → α → Prop) (past : List (Exchange Reply))
    (program : Program Reply ε α) : Prop :=
  program.Leads promised allowed (fun all outcome => ∀ value, outcome = .ok value → ok all value)
    past

variable {promised allowed} {ends : List (Exchange Reply) → Outcome ε α → Prop}
variable {past : List (Exchange Reply)} {program : Program Reply ε α}

/-! ## However it ends -/

/-- Less may be said of how it ends. -/
theorem Leads.weaken {ends' : List (Exchange Reply) → Outcome ε α → Prop}
    (leads : program.Leads promised allowed ends past)
    (weaker : ∀ past outcome, ends past outcome → ends' past outcome) :
    program.Leads promised allowed ends' past := by
  induction program generalizing past with
  | done outcome => exact weaker past outcome leads
  | call request next ih => exact ⟨leads.1, fun reply kept => ih reply (leads.2 reply kept)⟩

/-- The history only grows. -/
theorem Leads.grown (leads : program.Leads promised allowed ends past) :
    program.Leads promised allowed (fun all outcome => past <+: all ∧ ends all outcome) past := by
  induction program generalizing past with
  | done outcome => exact ⟨List.prefix_rfl, leads⟩
  | call request next ih =>
    refine ⟨leads.1, fun reply kept => (ih reply (leads.2 reply kept)).weaken ?_⟩
    exact fun all outcome both => ⟨(List.prefix_append past _).trans both.1, both.2⟩

/-- One program after another. An end of the first that is no value is an end of both. -/
theorem Leads.bind {mid : List (Exchange Reply) → Outcome ε α → Prop}
    {ends : List (Exchange Reply) → Outcome ε β → Prop} {rest : α → Program Reply ε β}
    (first : program.Leads promised allowed mid past)
    (second : ∀ past value, mid past (.ok value) → (rest value).Leads promised allowed ends past)
    (fails : ∀ past reason, mid past (.error reason) → ends past (.error reason))
    (panics : ∀ past message, mid past (.panic message) → ends past (.panic message)) :
    (program >>= rest).Leads promised allowed ends past := by
  induction program generalizing past with
  | done outcome =>
    cases outcome with
    | ok value => exact second past value first
    | error reason => exact fails past reason first
    | panic message => exact panics past message first
  | call request next ih => exact ⟨first.1, fun reply kept => ih reply (first.2 reply kept)⟩

/-- Renaming errors changes no request. -/
theorem Leads.mapError {mid : List (Exchange Reply) → Outcome ε α → Prop} {rename : ε → ε}
    (leads : program.Leads promised allowed mid past)
    (returns : ∀ past value, mid past (.ok value) → ends past (.ok value))
    (fails : ∀ past reason, mid past (.error reason) → ends past (.error (rename reason)))
    (panics : ∀ past message, mid past (.panic message) → ends past (.panic message)) :
    (program.mapError rename).Leads promised allowed ends past := by
  induction program generalizing past with
  | done outcome =>
    cases outcome with
    | ok value => exact returns past value leads
    | error reason => exact fails past reason leads
    | panic message => exact panics past message leads
  | call request next ih => exact ⟨leads.1, fun reply kept => ih reply (leads.2 reply kept)⟩

/-- Reporting a panic keeps a judgement that holds of the report wherever it holds of the panic. -/
theorem Leads.catchPanic {mid : List (Exchange Reply) → Outcome ε α → Prop} {report : String → ε}
    (leads : program.Leads promised allowed mid past)
    (returns : ∀ past value, mid past (.ok value) → ends past (.ok value))
    (fails : ∀ past reason, mid past (.error reason) → ends past (.error reason))
    (panics : ∀ past message, mid past (.panic message) → ends past (.error (report message))) :
    (program.catchPanic report).Leads promised allowed ends past := by
  induction program generalizing past with
  | done outcome =>
    cases outcome with
    | ok value => exact returns past value leads
    | error reason => exact fails past reason leads
    | panic message => exact panics past message leads
  | call request next ih => exact ⟨leads.1, fun reply kept => ih reply (leads.2 reply kept)⟩

/-- A handled error goes on with the handler, from whatever history the error was reported at. -/
theorem Leads.catchError {mid : List (Exchange Reply) → Outcome ε α → Prop}
    {handle : ε → Program Reply ε α} (leads : program.Leads promised allowed mid past)
    (returns : ∀ past value, mid past (.ok value) → ends past (.ok value))
    (handled : ∀ past reason, mid past (.error reason) →
      (handle reason).Leads promised allowed ends past)
    (panics : ∀ past message, mid past (.panic message) → ends past (.panic message)) :
    (program.catchError handle).Leads promised allowed ends past := by
  induction program generalizing past with
  | done outcome =>
    cases outcome with
    | ok value => exact returns past value leads
    | error reason => exact handled past reason leads
    | panic message => exact panics past message leads
  | call request next ih => exact ⟨leads.1, fun reply kept => ih reply (leads.2 reply kept)⟩

/-- A program within bounds that every history allows. What its requests add to the history is made
of such requests, and an end that is no value is left open. -/
theorem Within.leads {static : (request : Call) → Reply request → Prop} {bounds : Call → Prop}
    {holds : α → Prop} (within : program.Within static bounds holds)
    (promises : ∀ past request reply, promised past request reply → static request reply)
    (may : ∀ past request, bounds request → allowed past request) (past : List (Exchange Reply)) :
    program.Leads promised allowed (fun all outcome =>
      (∀ value, outcome = .ok value → holds value) ∧
        ∃ more, all = past ++ more ∧ ∀ exchange ∈ more, bounds exchange.1) past := by
  induction program generalizing past with
  | done outcome => exact ⟨fun value same => within value same, [], by simp, by simp⟩
  | call request next ih =>
    refine ⟨may past request within.1, fun reply kept => ?_⟩
    refine (ih reply (within.2 reply (promises _ _ _ kept)) _).weaken ?_
    rintro all outcome ⟨holds, more, rfl, bounded⟩
    refine ⟨holds, ⟨request, reply⟩ :: more, by simp, ?_⟩
    rintro exchange (_ | ⟨_, later⟩)
    · exact within.1
    · exact bounded exchange later

/-! ## Where only values matter -/

section Values

variable {ok : List (Exchange Reply) → α → Prop}

/-- What is returned at once holds after the same past. -/
theorem along_pure {value : α} (holds : ok past value) :
    (pure value : Program Reply ε α).Along promised allowed ok past := by
  rintro value' same
  obtain rfl := Outcome.ok.inj same
  exact holds

/-- A failure returns no value. -/
theorem along_fail {reason : ε} :
    (fail reason : Program Reply ε α).Along promised allowed ok past := by
  rintro value same
  contradiction

/-- A panic returns no value. -/
theorem along_abort {message : String} :
    (abort message : Program Reply ε α).Along promised allowed ok past := by
  rintro value same
  contradiction

/-- Less may be said of the values. -/
theorem Along.weaken {ok' : List (Exchange Reply) → α → Prop}
    (along : program.Along promised allowed ok past)
    (weaker : ∀ past value, ok past value → ok' past value) :
    program.Along promised allowed ok' past :=
  Leads.weaken along fun past _ holds value same => weaker past value (holds value same)

/-- One program after another. -/
theorem Along.bind {mid : List (Exchange Reply) → α → Prop} {ok : List (Exchange Reply) → β → Prop}
    {rest : α → Program Reply ε β} (first : program.Along promised allowed mid past)
    (second : ∀ past value, mid past value → (rest value).Along promised allowed ok past) :
    (program >>= rest).Along promised allowed ok past :=
  Leads.bind first (fun past value holds => second past value (holds value rfl))
    (fun _ _ _ => by simp) fun _ _ _ => by simp

/-- Renaming errors changes no request and no value. -/
theorem Along.mapError (along : program.Along promised allowed ok past) (rename : ε → ε) :
    (program.mapError rename).Along promised allowed ok past :=
  Leads.mapError along (fun _ _ holds => holds) (fun _ _ _ => by simp) fun _ _ _ => by simp

/-- Reporting a panic changes no value that a program returns. -/
theorem Along.catchPanic (along : program.Along promised allowed ok past) (report : String → ε) :
    (program.catchPanic report).Along promised allowed ok past :=
  Leads.catchPanic along (fun _ _ holds => holds) (fun _ _ _ => by simp) fun _ _ _ => by simp

/-- A handled error goes on with the handler, from whatever history the error was reported at. -/
theorem Along.catchError {handle : ε → Program Reply ε α}
    (along : program.Along promised allowed ok past)
    (handled : ∀ reason past, (handle reason).Along promised allowed ok past) :
    (program.catchError handle).Along promised allowed ok past :=
  Leads.catchError along (fun _ _ holds => holds) (fun past reason _ => handled reason past)
    fun _ _ _ => by simp

/-- What a static bound says of the values holds too. -/
theorem Along.within {static : (request : Call) → Reply request → Prop} {bounds : Call → Prop}
    {holds : α → Prop} (along : program.Along promised allowed ok past)
    (within : program.Within static bounds holds)
    (promises : ∀ past request reply, promised past request reply → static request reply) :
    program.Along promised allowed (fun all value => holds value ∧ ok all value) past := by
  induction program generalizing past with
  | done outcome => exact fun value same => ⟨within value same, along value same⟩
  | call request next ih =>
    exact ⟨along.1, fun reply kept =>
      ih reply (along.2 reply kept) (within.2 reply (promises _ _ _ kept))⟩

/-- A program within bounds that every history allows. What its requests add to the history is made
of such requests. -/
theorem Within.along {static : (request : Call) → Reply request → Prop} {bounds : Call → Prop}
    {holds : α → Prop} (within : program.Within static bounds holds)
    (promises : ∀ past request reply, promised past request reply → static request reply)
    (may : ∀ past request, bounds request → allowed past request) (past : List (Exchange Reply)) :
    program.Along promised allowed (fun all value => holds value ∧
      ∃ more, all = past ++ more ∧ ∀ exchange ∈ more, bounds exchange.1) past :=
  (within.leads promises may past).weaken fun _ _ both value same => ⟨both.1 value same, both.2⟩

end Values

end Program

end Effect
