import ConfidentialBalances.Exchanges

/-!
# Transcripts against the chain

On the chain a transcript tells everything a client did to it: what was carried
is what landed, the confirmed signatures name the places, and the events sent
are the events on the channel. A program that sends a plan submits its
transactions in order, each after the one before was confirmed, and the first
request that fails is its last. What it has landed at any point, as `Submits` says
it, follows.
-/

namespace ConfidentialBalances

open Effect

/-- The signatures of so many transactions, landed from some place on. -/
def Signature.span (start count : Nat) : List Signature :=
  (List.range' start count).map Signature.mk

/-- A span starts with its first signature. -/
theorem Signature.span_succ (start count : Nat) :
    Signature.span start (count + 1) = ⟨start⟩ :: Signature.span (start + 1) count := by
  simp [Signature.span, List.range'_succ]

/-- Spans that meet make one span. -/
theorem Signature.span_append (start first second : Nat) :
    Signature.span start first ++ Signature.span (start + first) second =
      Signature.span start (first + second) := by
  rw [Signature.span, Signature.span, Signature.span, ← List.map_append]
  congr 1
  simp

/-- What was carried was submitted, and has a signature. -/
theorem carried_length (transcript : List (Exchange Reply)) :
    (carried transcript).length ≤ (submitted transcript).length ∧
      (confirmed transcript).length = (carried transcript).length := by
  induction transcript with
  | nil => exact ⟨le_refl _, rfl⟩
  | cons exchange rest ih =>
    have here : (carried [exchange]).length ≤ (submitted [exchange]).length ∧
        (confirmed [exchange]).length = (carried [exchange]).length := by
      obtain ⟨request, reply⟩ := exchange
      cases request with
      | sendAndConfirmTransaction transaction =>
        cases reply with
        | ok sig => exact ⟨le_refl _, rfl⟩
        | error reason => exact ⟨Nat.zero_le _, rfl⟩
      | _ => exact ⟨Nat.zero_le _, rfl⟩
    rw [← List.singleton_append, carried_append, submitted_append, confirmed_append]
    simp only [List.length_append]
    omega

/-- Where nothing was submitted, nothing was carried. -/
theorem Unheard.carried {transcript : List (Exchange Reply)} (unheard : Unheard transcript) :
    carried transcript = [] := by
  have count := (carried_length transcript).1
  rw [unheard.submitted, List.length_nil] at count
  exact List.length_eq_zero_iff.mp (by omega)

/-- What a transcript says happened between two worlds. -/
structure Witnessed (cluster : Cluster) (world world' : World)
    (transcript : List (Exchange Reply)) : Prop where
  /-- What was carried is appended to what had landed. -/
  landed : world'.landed = world.landed ++ carried transcript
  /-- What was carried took effect on the ledger, in order. -/
  ledger : world.ledger.execTransactions cluster (carried transcript) = some world'.ledger
  /-- The confirmed signatures name the places of what was carried. -/
  confirmed : confirmed transcript =
    Signature.span world.landed.length (carried transcript).length
  /-- The events sent are appended to the channel. -/
  progress : world'.progress = world.progress ++ sent transcript

namespace Witnessed

variable {cluster : Cluster} {world world' world'' : World}
variable {first second transcript : List (Exchange Reply)}

/-- An empty transcript says that nothing happened. -/
theorem refl (cluster : Cluster) (world : World) : Witnessed cluster world world [] :=
  ⟨by simp, rfl, rfl, by simp⟩

/-- Transcripts compose. -/
theorem trans (before : Witnessed cluster world world' first)
    (after : Witnessed cluster world' world'' second) :
    Witnessed cluster world world'' (first ++ second) := by
  refine ⟨?_, ?_, ?_, ?_⟩
  · rw [after.landed, before.landed, carried_append, List.append_assoc]
  · rw [carried_append, Ledger.execTransactions_append, before.ledger]
    exact after.ledger
  · rw [confirmed_append, before.confirmed, after.confirmed, before.landed, List.length_append,
      Signature.span_append, carried_append, List.length_append]
  · rw [after.progress, before.progress, sent_append, List.append_assoc]

/-- An exchange that carries nothing and sends nothing leaves ledger, landings and channel. -/
theorem quiet {exchange : Exchange Reply} (unheard : carried [exchange] = [])
    (unconfirmed : ConfidentialBalances.confirmed [exchange] = [])
    (unsent : sent [exchange] = []) (ledger : world'.ledger = world.ledger)
    (landed : world'.landed = world.landed) (progress : world'.progress = world.progress) :
    Witnessed cluster world world' [exchange] := by
  refine ⟨?_, ?_, ?_, ?_⟩
  · rw [unheard, landed, List.append_nil]
  · rw [unheard, ledger]
    rfl
  · rw [unheard, unconfirmed]
    rfl
  · rw [unsent, progress, List.append_nil]

/-- One answered request, by the answer that was chosen. -/
theorem step {request : Call} {reply : Reply request}
    (step : (chainSystem cluster).step world request reply world') :
    Witnessed cluster world world' [⟨request, reply⟩] := by
  obtain ⟨choice, answer⟩ := step
  cases request with
  | sendAndConfirmTransaction transaction =>
    rcases chain_send cluster world transaction choice with ⟨message, refused⟩ |
      ⟨ledger, executed, lands⟩
    · obtain ⟨rfl, rfl⟩ := Prod.mk.inj (refused.symm.trans answer)
      exact quiet rfl rfl rfl rfl rfl rfl
    · obtain ⟨rfl, rfl⟩ := Prod.mk.inj (lands.symm.trans answer)
      refine ⟨rfl, ?_, rfl, by simp [sent, Exchange.sent?]⟩
      show world.ledger.execTransactions cluster [transaction] = some ledger
      simp [Ledger.execTransactions, executed]
  | emit event =>
    obtain ⟨rfl, rfl⟩ := Prod.mk.inj answer
    exact ⟨by simp [carried, Exchange.carried?], rfl, rfl, rfl⟩
  | _ =>
    cases choice <;> obtain ⟨rfl, rfl⟩ := Prod.mk.inj answer <;>
      exact quiet rfl rfl rfl rfl rfl rfl

end Witnessed

/-- The transcript of any run of the chain says what happened. -/
theorem runs_witnessed {α : Type} {cluster : Cluster} {world world' : World}
    {program program' : Client α} {transcript : List (Exchange Reply)}
    (run : (chainSystem cluster).Runs world program transcript world' program') :
    Witnessed cluster world world' transcript := by
  induction run with
  | here => exact .refl _ _
  | next step _ ih => exact (Witnessed.step step).trans ih

/-- How a run that sends a plan ends: with a value when all of it was confirmed; with an error
when a request failed, and nothing was requested after it; with a panic before a transaction whose
signers are not the required ones. -/
def PlanEnds {α : Type} (plan : List Transaction) (ok : α → World → Prop) :
    Outcome ClientError α → List (Exchange Reply) → World → Prop
  | .ok value, transcript, world => submitted transcript = plan ∧ carried transcript = plan ∧
      failures transcript = [] ∧ ok value world
  | .error _, transcript, _ => ∃ done next later, plan = done ++ next :: later ∧
      carried transcript = done ∧ failures transcript = [done.length] ∧
      (submitted transcript = done ∨ submitted transcript = done ++ [next])
  | .panic _, transcript, _ => ∃ done next later, plan = done ++ next :: later ∧
      carried transcript = done ∧ failures transcript = [] ∧ submitted transcript = done ∧
      ¬ next.SignedExactly

/-- An end is judged by what was submitted, what was carried and what failed. -/
theorem PlanEnds.congr {α : Type} {plan : List Transaction} {ok : α → World → Prop}
    {outcome : Outcome ClientError α} {first second : List (Exchange Reply)} {world : World}
    (ends : PlanEnds plan ok outcome first world)
    (sameSubmitted : submitted second = submitted first)
    (sameCarried : carried second = carried first)
    (sameFailures : failures second = failures first) :
    PlanEnds plan ok outcome second world := by
  cases outcome <;> simpa only [PlanEnds, sameSubmitted, sameCarried, sameFailures] using ends

/-- What was submitted begins the plan. -/
theorem PlanEnds.submitted_begins {α : Type} {plan : List Transaction} {ok : α → World → Prop}
    {outcome : Outcome ClientError α} {transcript : List (Exchange Reply)} {world : World}
    (ends : PlanEnds plan ok outcome transcript world) : submitted transcript <+: plan := by
  cases outcome with
  | ok value => exact ends.1 ▸ List.prefix_refl _
  | error reason =>
    obtain ⟨done, next, later, rfl, -, -, same | same⟩ := ends
    · rw [same]
      exact List.prefix_append _ _
    · rw [same]
      exact ⟨later, by simp⟩
  | panic message =>
    obtain ⟨done, next, later, rfl, -, -, same, -⟩ := ends
    rw [same]
    exact List.prefix_append _ _

/-- What was carried begins the plan. -/
theorem PlanEnds.carried_begins {α : Type} {plan : List Transaction} {ok : α → World → Prop}
    {outcome : Outcome ClientError α} {transcript : List (Exchange Reply)} {world : World}
    (ends : PlanEnds plan ok outcome transcript world) : carried transcript <+: plan := by
  cases outcome with
  | ok value => exact ends.2.1 ▸ List.prefix_refl _
  | error reason =>
    obtain ⟨done, next, later, rfl, same, -⟩ := ends
    exact same ▸ List.prefix_append _ _
  | panic message =>
    obtain ⟨done, next, later, rfl, same, -⟩ := ends
    exact same ▸ List.prefix_append _ _

/-- The program submits a plan's transactions in order, and neither sends an event nor logs one. -/
def Sends {α : Type} (cluster : Cluster) (plan : List Transaction) (ok : α → World → Prop)
    (program : Client α) (world : World) : Prop :=
  (chainSystem cluster).Shows (fun outcome transcript world' =>
    Unvoiced transcript ∧ PlanEnds plan ok outcome transcript world') program world

/-- The program gives up with nothing sent, or sends one of the plans. -/
def Tries {α : Type} (cluster : Cluster) (plans : List Transaction → Prop)
    (ok : List Transaction → α → World → Prop) (program : Client α) (world : World) : Prop :=
  (chainSystem cluster).Shows (fun outcome transcript world' => Unvoiced transcript ∧
    ((∃ reason, outcome = .error reason ∧ Unheard transcript ∧
        (failures transcript = [] ∨ failures transcript = [0])) ∨
      ∃ plan, plans plan ∧ PlanEnds plan (ok plan) outcome transcript world')) program world

section Rules

variable {α β : Type} {cluster : Cluster} {world : World} {plan later : List Transaction}
variable {ok : α → World → Prop}

/-- What holds of the value may be weakened. -/
theorem Sends.weaken {ok' : α → World → Prop} {program : Client α}
    (sends : Sends cluster plan ok program world)
    (weaker : ∀ value world', ok value world' → ok' value world') :
    Sends cluster plan ok' program world := by
  refine System.Shows.weaken sends ?_
  rintro outcome transcript world' ⟨silent, post⟩
  refine ⟨silent, ?_⟩
  cases outcome with
  | ok value => exact ⟨post.1, post.2.1, post.2.2.1, weaker _ _ post.2.2.2⟩
  | error reason => exact post
  | panic message => exact post

/-- A new keypair, and then the plan. -/
theorem sends_newKeypair {rest : Pubkey → Client α}
    (second : Sends cluster plan ok (rest (.generated world.generated))
      { world with generated := world.generated + 1 }) :
    Sends cluster plan ok (newKeypair >>= rest) world := by
  refine (chain cluster).shows_call.mpr fun choice => ?_
  refine System.Shows.weaken second ?_
  rintro outcome transcript world' ⟨silent, post⟩
  exact ⟨silent.cons trivial, post.congr rfl rfl (failures_cons_served rfl rfl)⟩

/-- The rent-exempt balance, and then the plan. -/
theorem sends_rent {length : Nat} {rest : Nat → Client α} (more : plan ≠ [])
    (second : Sends cluster plan ok (rest (cluster.rentExemption length)) world) :
    Sends cluster plan ok (getMinimumBalanceForRentExemption length >>= rest) world := by
  refine (chain cluster).shows_call.mpr fun choice => ?_
  cases choice with
  | succeed =>
    refine System.Shows.weaken second ?_
    rintro outcome transcript world' ⟨silent, post⟩
    exact ⟨silent.cons trivial, post.congr rfl rfl (failures_cons_served rfl rfl)⟩
  | fail message =>
    obtain ⟨next, later, rfl⟩ := List.exists_cons_of_ne_nil more
    exact System.shows_done.mpr
      ⟨by simp [Unvoiced, Call.Unvoiced], [], next, later, rfl, rfl, rfl, .inl rfl⟩

/-- `send_tx` sends its transaction. -/
theorem sends_sendTx (instructions : List Instruction) (signers : List Pubkey) (payer : Pubkey) :
    Sends cluster [⟨instructions, payer, signers⟩]
      (fun sig world' => sig = ⟨world.landed.length⟩ ∧
        world'.landed = world.landed ++ [⟨instructions, payer, signers⟩] ∧
        world'.generated = world.generated)
      (sendTx instructions signers payer) world := by
  have asks : (sendTx instructions signers payer).Uses Call.Unvoiced :=
    uses_sendTx trivial trivial fun _ => trivial
  refine System.Shows.and (fun transcript outcome world' run => run.uses asks) ?_
  refine (chain cluster).shows_call.mpr fun choice => ?_
  cases choice with
  | fail message => exact System.shows_done.mpr ⟨[], _, [], rfl, rfl, rfl, .inl rfl⟩
  | succeed =>
    refine System.shows_call.mpr fun reply world' ⟨choice, answer⟩ => ?_
    obtain ⟨signing, rfl⟩ := Prod.mk.inj answer
    cases reply with
    | error reason =>
      have inexact : ¬ Transaction.SignedExactly ⟨instructions, payer, signers⟩ := fun exact => by
        rw [(Transaction.trySign_ok_iff _ _).mpr ⟨exact, rfl⟩] at signing
        contradiction
      cases reason <;>
        exact System.shows_done.mpr ⟨[], _, [], rfl, rfl, rfl, rfl, inexact⟩
    | ok signed =>
      obtain ⟨-, rfl⟩ := (Transaction.trySign_ok_iff _ _).mp signing
      refine System.shows_call.mpr fun reply later ⟨choice, answer⟩ => ?_
      rcases chain_send cluster world ⟨instructions, payer, signers⟩ choice with
        ⟨message, refused⟩ | ⟨ledger, executed, lands⟩
      · obtain ⟨rfl, rfl⟩ := Prod.mk.inj (refused.symm.trans answer)
        exact System.shows_done.mpr ⟨[], _, [], rfl, rfl, rfl, .inr rfl⟩
      · obtain ⟨rfl, rfl⟩ := Prod.mk.inj (lands.symm.trans answer)
        exact System.shows_done.mpr ⟨rfl, rfl, rfl, rfl, rfl, rfl⟩

/-- One plan after another. -/
theorem sends_append (first : List Transaction) {mid : β → World → Prop} {program : Client β}
    {rest : β → Client α} (before : Sends cluster first mid program world) (more : later ≠ [])
    (second : ∀ value world', world'.landed = world.landed ++ first → mid value world' →
      Sends cluster later ok (rest value) world') :
    Sends cluster (first ++ later) ok (program >>= rest) world := by
  intro transcript outcome final run
  rcases run.bind_cases with ⟨value, done, middle, remaining, rfl, ran, after⟩ |
    ⟨reason, rfl, ran⟩ | ⟨message, rfl, ran⟩
  · obtain ⟨silent, submittedFirst, carriedFirst, unfailed, holds⟩ := before _ _ _ ran
    have witnessed := runs_witnessed ran
    have count : (confirmed done).length = first.length := by
      rw [witnessed.confirmed, carriedFirst]
      simp [Signature.span]
    obtain ⟨silentLater, post⟩ := second value middle (carriedFirst ▸ witnessed.landed) holds _ _ _
      after
    refine ⟨silent.append silentLater, ?_⟩
    have allSubmitted : submitted (done ++ remaining) = first ++ submitted remaining := by
      rw [submitted_append, submittedFirst]
    have allCarried : carried (done ++ remaining) = first ++ carried remaining := by
      rw [carried_append, carriedFirst]
    have allFailures : failures (done ++ remaining) =
        (failures remaining).map (· + first.length) := by
      rw [failures_append, unfailed, count, List.nil_append]
    cases outcome with
    | ok value =>
      obtain ⟨submittedLater, carriedLater, unfailedLater, holds⟩ := post
      exact ⟨by rw [allSubmitted, submittedLater], by rw [allCarried, carriedLater],
        by rw [allFailures, unfailedLater]; rfl, holds⟩
    | error reason =>
      obtain ⟨done', next, later', rfl, carriedLater, failed, submittedLater⟩ := post
      refine ⟨first ++ done', next, later', by simp, by rw [allCarried, carriedLater], ?_, ?_⟩
      · rw [allFailures, failed]
        simp [Nat.add_comm]
      · rcases submittedLater with same | same
        · exact .inl (by rw [allSubmitted, same])
        · exact .inr (by rw [allSubmitted, same, List.append_assoc])
    | panic message =>
      obtain ⟨done', next, later', rfl, carriedLater, unfailedLater, submittedLater, inexact⟩ :=
        post
      exact ⟨first ++ done', next, later', by simp, by rw [allCarried, carriedLater],
        by rw [allFailures, unfailedLater]; rfl, by rw [allSubmitted, submittedLater], inexact⟩
  · obtain ⟨silent, done, next, remaining, rfl, carriedDone, failed, submittedDone⟩ :=
      before _ _ _ ran
    exact ⟨silent, done, next, remaining ++ later, by simp, carriedDone, failed, submittedDone⟩
  · obtain ⟨silent, done, next, remaining, rfl, carriedDone, unfailed, submittedDone, inexact⟩ :=
      before _ _ _ ran
    exact ⟨silent, done, next, remaining ++ later, by simp, carriedDone, unfailed, submittedDone,
      inexact⟩

/-- What follows the plan and only returns a value. -/
theorem sends_surely {mid : β → World → Prop} {program : Client β} {rest : β → Client α}
    (before : Sends cluster plan mid program world)
    (returns : ∀ value world', world'.landed = world.landed ++ plan → mid value world' →
      ∃ result, rest value = pure result ∧ ok result world') :
    Sends cluster plan ok (program >>= rest) world := by
  intro transcript outcome final run
  rcases run.bind_cases with ⟨value, done, middle, remaining, rfl, ran, after⟩ |
    ⟨reason, rfl, ran⟩ | ⟨message, rfl, ran⟩
  · obtain ⟨silent, submittedPlan, carriedPlan, unfailed, known⟩ := before _ _ _ ran
    obtain ⟨result, returned, holds⟩ :=
      returns value _ (carriedPlan ▸ (runs_witnessed ran).landed) known
    rw [returned] at after
    cases after with
    | here =>
      rw [List.append_nil]
      exact ⟨silent, submittedPlan, carriedPlan, unfailed, holds⟩
  · exact before _ _ _ ran
  · exact before _ _ _ ran

/-- A value computed from what the plan gave. -/
theorem sends_pure {mid : β → World → Prop} {program : Client β} {compute : β → α}
    (before : Sends cluster plan mid program world)
    (holds : ∀ value world', world'.landed = world.landed ++ plan → mid value world' →
      ok (compute value) world') :
    Sends cluster plan ok (do let value ← program; pure (compute value)) world :=
  sends_surely before fun value world' landed known =>
    ⟨_, rfl, holds value world' landed known⟩

/-- What sends one of the plans tries them. -/
theorem tries_sends {plans : List Transaction → Prop} {ok : List Transaction → α → World → Prop}
    {program : Client α} (planned : plans plan)
    (sends : Sends cluster plan (ok plan) program world) :
    Tries cluster plans ok program world :=
  System.Shows.weaken sends fun _ _ _ ends => ⟨ends.1, .inr ⟨plan, planned, ends.2⟩⟩

/-- Trying after reading. -/
theorem tries_after {plans : List Transaction → Prop} {ok : List Transaction → α → World → Prop}
    {program : Client β} {rest : β → Client α} {mid : β → World → Prop} (silent : Silent program)
    (quiet : Quietly cluster mid program world)
    (second : ∀ value world', Lands cluster world world' [] → mid value world' →
      Tries cluster plans ok (rest value) world') :
    Tries cluster plans ok (program >>= rest) world := by
  have asks : program.Uses Call.Unvoiced := silent.uses fun _ => Call.Asks.unvoiced
  intro transcript outcome final run
  rcases run.bind_cases with ⟨value, first, middle, later, rfl, ran, after⟩ |
    ⟨reason, rfl, ran⟩ | ⟨message, rfl, ran⟩
  · obtain ⟨unheard, served⟩ := silent.shows _ _ _ ran
    have known := quiet.ends ran.reaches value rfl
    have read := (quiet.reaches ran.reaches).invariant
    have failed : failures (first ++ later) = failures later := by
      rw [failures_append, served, unheard.confirmed, List.nil_append]
      exact List.map_id _
    obtain ⟨unvoiced, post⟩ := second value middle read known _ _ _ after
    have before : Unvoiced first := ran.uses asks
    refine ⟨before.append unvoiced, ?_⟩
    rcases post with ⟨reason, rfl, silentLater, failedLater⟩ | ⟨plan, planned, ends⟩
    · exact .inl ⟨reason, rfl, unheard.append silentLater, by rwa [failed]⟩
    · refine .inr ⟨plan, planned, ends.congr ?_ ?_ failed⟩
      · rw [submitted_append, unheard.submitted, List.nil_append]
      · rw [carried_append, unheard.carried, List.nil_append]
  · exact ⟨ran.uses asks, .inl ⟨reason, rfl, silent.shows _ _ _ ran⟩⟩
  · exact (silent.shows _ _ _ ran).2.elim

/-! ## What landed by any point of a run -/

/-- The event log changes only where it is written. -/
theorem runs_events {program program' : Client α} {transcript : List (Exchange Reply)}
    {world' : World} (run : (chainSystem cluster).Runs world program transcript world' program')
    (unvoiced : Unvoiced transcript) : world'.events = world.events := by
  induction run with
  | here => rfl
  | @next world request _ reply _ _ _ _ step _ ih =>
    obtain ⟨here, later⟩ := List.forall_mem_cons.mp unvoiced
    refine (ih later).trans ?_
    obtain ⟨choice, answer⟩ := step
    cases request with
    | writeEvents events => exact here.elim
    | sendAndConfirmTransaction transaction =>
      rcases chain_send cluster world transaction choice with ⟨message, refused⟩ |
        ⟨ledger, -, lands⟩
      · obtain ⟨rfl, rfl⟩ := Prod.mk.inj (refused.symm.trans answer)
        rfl
      · obtain ⟨rfl, rfl⟩ := Prod.mk.inj (lands.symm.trans answer)
        rfl
    | _ => cases choice <;> obtain ⟨rfl, rfl⟩ := Prod.mk.inj answer <;> rfl

/-- What an unvoiced run carried is what landed. -/
theorem runs_lands {program program' : Client α} {transcript : List (Exchange Reply)}
    {world' : World} (run : (chainSystem cluster).Runs world program transcript world' program')
    (unvoiced : Unvoiced transcript) : Lands cluster world world' (carried transcript) := by
  have witnessed := runs_witnessed run
  exact ⟨witnessed.landed, witnessed.ledger, runs_events run unvoiced⟩

/-- A run that tries plans has landed a beginning of one, and a whole plan when it returns. -/
theorem Tries.submits {plans : List Transaction → Prop} {ok : List Transaction → α → World → Prop}
    {program : Client α} (tries : Tries cluster plans ok program world) :
    Submits cluster plans ok program world := by
  refine System.meets_of_reaches ?_ ?_
  · -- Wherever a run has come, the chain can answer the rest of it.
    intro world' program' reached
    obtain ⟨transcript, run⟩ := reached.runs
    have rest := (chain cluster).run_runs program' world' []
    obtain ⟨unvoiced, post⟩ := tries _ _ _ (run.append rest)
    have landed := runs_lands run (List.forall_mem_append.mp unvoiced).1
    rcases post with ⟨reason, -, unheard, -⟩ | ⟨plan, planned, ends⟩
    · have none := unheard.carried
      rw [carried_append] at none
      rw [List.append_eq_nil_iff.mp none |>.1] at landed
      exact .inl landed
    · have begins := ends.carried_begins
      rw [carried_append] at begins
      obtain ⟨later, rfl⟩ := (List.prefix_append _ _).trans begins
      exact .inr ⟨_, later, planned, landed⟩
  · intro outcome world' ended
    obtain ⟨transcript, run⟩ := ended.runs
    obtain ⟨unvoiced, post⟩ := tries _ _ _ run
    have landed := runs_lands run unvoiced
    rcases post with ⟨reason, rfl, unheard, -⟩ | ⟨plan, planned, ends⟩
    · rw [unheard.carried] at landed
      exact .inl landed
    · cases outcome with
      | ok value =>
        obtain ⟨-, carriedAll, -, holds⟩ := ends
        exact ⟨plan, planned, carriedAll ▸ landed, holds⟩
      | error reason =>
        obtain ⟨done, next, later, rfl, carriedDone, -⟩ := ends
        exact .inr ⟨done, next :: later, List.cons_ne_nil _ _, planned, carriedDone ▸ landed⟩
      | panic message =>
        obtain ⟨done, next, later, rfl, carriedDone, -⟩ := ends
        exact .inr ⟨done, next :: later, List.cons_ne_nil _ _, planned, carriedDone ▸ landed⟩

/-- What sends a plan follows it. -/
theorem Sends.follows {program : Client α} (sends : Sends cluster plan ok program world) :
    Follows cluster plan ok program world := by
  have tries : Tries cluster (· = plan) (fun _ => ok) program world := tries_sends rfl sends
  exact tries.submits

/-- `send_tx` lands its transaction or nothing, and names it by its place in landing order. -/
theorem follows_sendTx (instructions : List Instruction) (signers : List Pubkey)
    (payer : Pubkey) :
    Follows cluster [⟨instructions, payer, signers⟩]
      (fun sig world' => sig = ⟨world.landed.length⟩ ∧ world'.generated = world.generated)
      (sendTx instructions signers payer) world :=
  ((sends_sendTx instructions signers payer).weaken fun _ _ known => ⟨known.1, known.2.2⟩).follows

/-! ## What a failed send leaves -/

/-- A run submits a beginning of the plan, and all of it when it returns. -/
theorem Sends.submitted_begins {program : Client α} (sends : Sends cluster plan ok program world)
    {transcript : List (Exchange Reply)} {outcome : Outcome ClientError α} {world' : World}
    (run : (chainSystem cluster).Runs world program transcript world' (.done outcome)) :
    submitted transcript <+: plan ∧
      ∀ value, outcome = .ok value → submitted transcript = plan := by
  obtain ⟨-, ends⟩ := sends _ _ _ run
  refine ⟨ends.submitted_begins, ?_⟩
  rintro value rfl
  exact ends.1

/-- What the program sent before its failed send has landed, the failed one is the last that it
submitted, and it reports an error. -/
theorem Sends.send_fails {program : Client α} (sends : Sends cluster plan ok program world)
    {before after : List (Exchange Reply)} {transaction : Transaction} {reason : RpcError}
    {outcome : Outcome ClientError α} {world' : World}
    (run : (chainSystem cluster).Runs world program
      (before ++ ⟨.sendAndConfirmTransaction transaction, .error reason⟩ :: after) world'
      (.done outcome)) :
    (∃ reported, outcome = .error reported) ∧
      submitted before = plan.take (submitted before).length ∧
      plan[(submitted before).length]? = some transaction ∧ submitted after = [] ∧
      world'.landed = world.landed ++ plan.take (submitted before).length := by
  obtain ⟨-, post⟩ := sends _ _ _ run
  have witnessed := runs_witnessed run
  have parted : failures (before ++ ⟨.sendAndConfirmTransaction transaction, .error reason⟩ ::
      after) = failures before ++ (confirmed before).length ::
        (failures after).map (· + (confirmed before).length) := by
    rw [failures_append, failures_cons_failed rfl rfl, List.map_cons, Nat.zero_add]
  have submittedAll : submitted (before ++ ⟨.sendAndConfirmTransaction transaction,
      .error reason⟩ :: after) = submitted before ++ transaction :: submitted after := by
    rw [submitted_append]
    rfl
  have carriedAll : carried (before ++ ⟨.sendAndConfirmTransaction transaction,
      .error reason⟩ :: after) = carried before ++ carried after := by
    rw [carried_append]
    rfl
  cases outcome with
  | ok value => exact absurd (parted.symm.trans post.2.2.1) (by simp)
  | panic message =>
    obtain ⟨_, _, _, -, -, unfailed, -⟩ := post
    exact absurd (parted.symm.trans unfailed) (by simp)
  | error reported =>
    obtain ⟨done, next, later, rfl, carriedDone, failed, submittedDone⟩ := post
    rw [parted] at failed
    have placed : (confirmed before).length = done.length := by
      cases earlier : failures before with
      | nil =>
        rw [earlier] at failed
        exact (List.cons.inj failed).1
      | cons first others =>
        rw [earlier] at failed
        exact absurd (List.cons.inj failed).2 (by simp)
    have landed := witnessed.landed
    rw [carriedDone] at landed
    have lengths := congrArg List.length (carriedAll.symm.trans carriedDone)
    rw [List.length_append] at lengths
    obtain ⟨fewer, counted⟩ := carried_length before
    rw [submittedAll] at submittedDone
    rcases submittedDone with same | same
    · have impossible := congrArg List.length same
      rw [List.length_append, List.length_cons] at impossible
      omega
    · have total := congrArg List.length same
      simp only [List.length_append, List.length_cons, List.length_nil] at total
      obtain ⟨first, last⟩ := List.append_inj same (by omega)
      obtain ⟨rfl, none⟩ := List.cons.inj last
      refine ⟨⟨reported, rfl⟩, ?_, ?_, none, ?_⟩
      · rw [first, List.take_left]
      · rw [first, List.getElem?_append_right (le_refl _), Nat.sub_self, List.getElem?_cons_zero]
      · rw [first, List.take_left, landed]

end Rules

end ConfidentialBalances
