import ConfidentialBalances.Effect.Trail
import ConfidentialBalances.SharedAccounts

/-!
# Interleavings as overlapping runs

Seen from one account, jobs that interleave are a run of the overlap machine. A
call that lands shows at its landing what it had read, so its read is put in
among the events that went before, where the account held what it read. All that
changes by this is how later runs are numbered.
-/

namespace ConfidentialBalances.Overlap

open Effect System Relation

/-! ## One more read -/

/-- The position of a run once another is put in at `place`. -/
def shift (place run : Nat) : Nat := if run < place then run else run + 1

/-- An event about the run in its new position. -/
def Event.shift (place : Nat) : Event → Event
  | .land run => .land (Overlap.shift place run)
  | .fail run => .fail (Overlap.shift place run)
  | .finish run ok => .finish (Overlap.shift place run) ok
  | event => event

/-- The state with one more run. -/
def State.insert (place : Nat) (phase : Phase) (state : State) : State :=
  { state with runs := state.runs.insertIdx place phase }

section Insert

variable {sdk : Sdk} {cluster : Cluster} {keys : ConfidentialKeys} {state state' : State}
variable {place : Nat} {phase : Phase} {runs : List Phase}

/-- A run is found in its new position. -/
theorem getElem?_shift (run : Nat) :
    (runs.insertIdx place phase)[shift place run]? = runs[run]? := by
  unfold shift
  split
  · rename_i before
    exact List.getElem?_insertIdx_of_lt before
  · rename_i after
    rw [List.getElem?_insertIdx_of_gt (by omega), Nat.add_sub_cancel]

/-- A run moves on in its new position. -/
theorem set_shift (inside : place ≤ runs.length) (run : Nat) (moved : Phase) :
    (runs.insertIdx place phase).set (shift place run) moved =
      (runs.set run moved).insertIdx place phase := by
  induction runs generalizing place run with
  | nil =>
    obtain rfl : place = 0 := Nat.le_zero.mp inside
    rfl
  | cons head tail ih =>
    cases place with
    | zero => rfl
    | succ place =>
      cases run with
      | zero => rfl
      | succ run =>
        have later := ih (Nat.le_of_succ_le_succ inside) run
        have moves : shift (place + 1) (run + 1) = shift place run + 1 := by
          simp only [shift]
          split <;> split <;> omega
        rw [moves, List.insertIdx_succ_cons, List.set_cons_succ, later, List.set_cons_succ,
          List.insertIdx_succ_cons]

/-- A later run still reads last. -/
theorem insertIdx_snoc (inside : place ≤ runs.length) (last : Phase) :
    runs.insertIdx place phase ++ [last] = (runs ++ [last]).insertIdx place phase := by
  induction runs generalizing place with
  | nil =>
    obtain rfl : place = 0 := Nat.le_zero.mp inside
    rfl
  | cons head tail ih =>
    cases place with
    | zero => rfl
    | succ place =>
      have later := ih (Nat.le_of_succ_le_succ inside)
      simp [later]

/-- The states of one machine with a run put in. -/
def Inserts (place : Nat) (phase : Phase) (state state' : State) : Prop :=
  place ≤ state.runs.length ∧ state' = state.insert place phase

/-- The machine goes on as before with one more run in it. -/
theorem step_insert {event : Event} {with' : State} (inserts : Inserts place phase state with')
    (stepped : state.step sdk cluster keys event = some state') :
    ∃ next, with'.step sdk cluster keys (event.shift place) = some next ∧
      Inserts place phase state' next := by
  obtain ⟨inside, rfl⟩ := inserts
  refine ⟨state'.insert place phase, ?_⟩
  cases step_cases stepped with
  | deposit deposited =>
    refine ⟨?_, inside, rfl⟩
    simp [State.step, Event.shift, State.insert, deposited]
  | receive received =>
    refine ⟨?_, inside, rfl⟩
    simp [State.step, Event.shift, State.insert, received]
  | apply executes =>
    refine ⟨?_, inside, rfl⟩
    have executed := (Task.execute_some _).mpr executes
    simp [State.step, Event.shift, State.insert, executed]
  | read task =>
    refine ⟨?_, ?_, rfl⟩
    · simp [State.step, Event.shift, State.insert, insertIdx_snoc inside]
    · rw [List.length_append]
      omega
  | @land run task snapshot account seen waiting executes =>
    have executed := (Task.execute_some _).mpr executes
    have found : (state.runs.insertIdx place phase)[Overlap.shift place run]? =
        some (.waiting task snapshot seen) := (getElem?_shift run).trans waiting
    refine ⟨?_, by simpa using inside, rfl⟩
    simp [State.step, Event.shift, State.insert, found, executed, set_shift inside]
  | @fail run task snapshot seen waiting =>
    have found : (state.runs.insertIdx place phase)[Overlap.shift place run]? =
        some (.waiting task snapshot seen) := (getElem?_shift run).trans waiting
    refine ⟨?_, by simpa using inside, rfl⟩
    simp [State.step, Event.shift, State.insert, found, set_shift inside]
  | @finish run task ok landed =>
    have found : (state.runs.insertIdx place phase)[Overlap.shift place run]? =
        some (.landed task) := (getElem?_shift run).trans landed
    refine ⟨?_, by simpa using inside, rfl⟩
    simp [State.step, Event.shift, State.insert, found, set_shift inside]

end Insert

/-! ## What an account goes through -/

section Accounts

variable (sdk : Sdk) (cluster : Cluster) (keys : ConfidentialKeys)

/-- What the account holds after each event, the start included. -/
def State.accounts (start : State) (events : List Event) : List ConfidentialTransferAccount :=
  (trail (State.step sdk cluster keys) start events).map State.account

variable {sdk : Sdk} {cluster : Cluster} {keys : ConfidentialKeys}
variable {start middle finish : State} {events : List Event}

/-- A run takes the machine's steps one after another. -/
theorem run_eq (state : State) (events : List Event) :
    state.run sdk cluster keys events = events.foldlM (State.step sdk cluster keys) state := by
  induction events generalizing state with
  | nil => rfl
  | cons event rest ih => simp only [State.run, List.foldlM_cons, ih]

/-- One more event adds what the account holds after it. -/
theorem accounts_snoc {event : Event} (ran : start.run sdk cluster keys events = some middle)
    (stepped : middle.step sdk cluster keys event = some finish) :
    start.accounts sdk cluster keys (events ++ [event]) =
      start.accounts sdk cluster keys events ++ [finish.account] := by
  rw [run_eq] at ran
  simp only [State.accounts, trail_snoc ran stepped, List.map_append, List.map_cons, List.map_nil]

/-- A read may be put in wherever the account held what it is to read. The account goes through the
same as before, and the run waits at the end. -/
theorem insert_read (task : Task) (ran : start.run sdk cluster keys events = some finish)
    {snapshot : ConfidentialTransferAccount}
    (passed : snapshot ∈ start.accounts sdk cluster keys events) :
    ∃ events' finish' place seen, start.run sdk cluster keys events' = some finish' ∧
      finish'.account = finish.account ∧
      finish'.runs[place]? = some (.waiting task snapshot seen) ∧
      (start.accounts sdk cluster keys events).Sublist (start.accounts sdk cluster keys events') ∧
      ∀ event ∈ events', event = .read task ∨
        ∃ earlier ∈ events, event = earlier ∨ event = earlier.shift place := by
  obtain ⟨middle, onTrail, rfl⟩ := List.mem_map.mp passed
  obtain ⟨first, second, rfl, reaches⟩ := mem_trail onTrail
  rw [run_eq, List.foldlM_append, reaches] at ran
  let place := middle.runs.length
  let phase : Phase := .waiting task middle.account middle.landings
  have reads : middle.step sdk cluster keys (.read task) = some (middle.insert place phase) := by
    simp [State.step, State.insert, place, phase]
  have starts : Inserts place phase middle (middle.insert place phase) := ⟨le_rfl, rfl⟩
  obtain ⟨finish', ran', ⟨inside, rfl⟩, along⟩ := trail_simulates step_insert starts ran
  have whole : (first ++ .read task :: second.map (Event.shift place)).foldlM
      (State.step sdk cluster keys) start = some (finish.insert place phase) := by
    simp [List.foldlM_append, reaches, reads, ran']
  have waits : (finish.runs.insertIdx place phase)[place]? = some phase := by
    rw [List.getElem?_insertIdx_self, if_pos inside]
  have same : (trail (State.step sdk cluster keys) middle second).map State.account =
      (trail (State.step sdk cluster keys) (middle.insert place phase)
        (second.map (Event.shift place))).map State.account := by
    refine forall₂_map_eq along fun state state' inserts => ?_
    rw [inserts.2, State.insert]
  refine ⟨_, _, place, middle.landings, (run_eq _ _).trans whole, rfl, waits, ?_, ?_⟩
  · simp only [State.accounts, trail_append _ reaches, List.map_append]
    refine (List.Sublist.refl _).append ?_
    simp only [trail, reads, Option.elim_some, List.tail_cons, ← same]
    exact (List.tail_sublist _).map _
  · intro event member
    rcases List.mem_append.mp member with before | after
    · exact .inr ⟨event, List.mem_append_left _ before, .inl rfl⟩
    rcases List.mem_cons.mp after with rfl | later
    · exact .inl rfl
    · obtain ⟨earlier, inside, rfl⟩ := List.mem_map.mp later
      exact .inr ⟨earlier, List.mem_append_right _ inside, .inr rfl⟩

end Accounts

/-! ## Following the jobs -/

section Follow

variable {sdk : Sdk} {cluster : Cluster} {owner : Wallet} {mint : Pubkey}
variable {may : Operation → Prop} {origin now after : Option ConfidentialTransferAccount}
variable {history : List ConfidentialTransferAccount}

/-- The calls that an event comes from. -/
inductive Caused (owner : Wallet) (mint : Pubkey) (may : Operation → Prop) : Event → Prop
  /-- A call to deposit. -/
  | deposit {payer : Wallet} {amount decimals : Nat}
      (called : may (.deposit payer owner mint amount decimals)) :
      Caused owner mint may (.deposit amount)
  /-- A call to transfer to the owner. -/
  | receive {payer sender : Wallet} {amount : Nat} {progress : ProgressSink}
      {transfer : TransferAmount} (called : may (.transfer payer sender mint owner.pubkey amount
        progress)) (carries : transfer.Carries amount) : Caused owner mint may (.receive transfer)
  /-- A call that sets out to do the task. -/
  | read {call : Operation} {task : Task} (called : may call) (sets : call.Sets owner mint task) :
      Caused owner mint may (.read task)
  /-- The run of such a call. -/
  | land (run : Nat) : Caused owner mint may (.land run)

/-- Its number does not matter. -/
theorem Caused.shift {event : Event} (caused : Caused owner mint may event) (place : Nat) :
    Caused owner mint may (event.shift place) := by
  cases caused with
  | deposit called => exact .deposit called
  | receive called carries => exact .receive called carries
  | read called sets => exact .read called sets
  | land run => exact .land _

/-- The overlap machine has followed an owner's account: it has gone through the values in the
history and then what the account holds now. -/
inductive Follows (sdk : Sdk) (cluster : Cluster) (owner : Wallet) (mint : Pubkey)
    (may : Operation → Prop) (origin : Option ConfidentialTransferAccount)
    (history : List ConfidentialTransferAccount) : Option ConfidentialTransferAccount → Prop
  /-- The account has not been configured. -/
  | absent (never : origin = none) (nothing : history = []) :
      Follows sdk cluster owner mint may origin history none
  /-- The machine has run from what it held, or from when it was configured. -/
  | present {first : ConfidentialTransferAccount} {events : List Event} {finish : State}
      (begins : origin = some first ∨
        origin = none ∧ ∃ approved, first = newAccount owner.confidentialKeys approved)
      (ran : (State.start first).run sdk cluster owner.confidentialKeys events = some finish)
      (passes : ((history ++ [finish.account]).destutter (· ≠ ·)).Sublist
        ((State.start first).accounts sdk cluster owner.confidentialKeys events))
      (caused : ∀ event ∈ events, Caused owner mint may event) :
      Follows sdk cluster owner mint may origin history (some finish.account)

/-- The value held now goes down in the history. -/
theorem Follows.record (follows : Follows sdk cluster owner mint may origin history now) :
    Follows sdk cluster owner mint may origin (history ++ now.toList) now := by
  cases follows with
  | absent never nothing => exact .absent never (by simp [nothing])
  | present begins ran passes caused =>
    refine .present begins ran ?_ caused
    rwa [Option.toList_some, destutter_again]

/-- The machine starts where the account does. -/
theorem Follows.begin (sdk : Sdk) (cluster : Cluster) (owner : Wallet) (mint : Pubkey)
    (may : Operation → Prop) (origin : Option ConfidentialTransferAccount) :
    Follows sdk cluster owner mint may origin origin.toList origin := by
  cases origin with
  | none => exact .absent rfl rfl
  | some first =>
    have stands : (State.start first).run sdk cluster owner.confidentialKeys [] =
        some (State.start first) := rfl
    have passes : (([] ++ [(State.start first).account]).destutter (· ≠ ·)).Sublist
        ((State.start first).accounts sdk cluster owner.confidentialKeys []) := List.Sublist.refl _
    have follows : Follows sdk cluster owner mint may (some first) [] (some first) :=
      .present (.inl rfl) stands passes fun event none => absurd none List.not_mem_nil
    exact follows.record

/-- One more event that the machine takes. -/
theorem Follows.event {first : ConfidentialTransferAccount} {events : List Event} {event : Event}
    {middle finish : State}
    (begins : origin = some first ∨
      origin = none ∧ ∃ approved, first = newAccount owner.confidentialKeys approved)
    (ran : (State.start first).run sdk cluster owner.confidentialKeys events = some middle)
    (passes : (history.destutter (· ≠ ·)).Sublist
      ((State.start first).accounts sdk cluster owner.confidentialKeys events))
    (caused : ∀ earlier ∈ events, Caused owner mint may earlier)
    (stepped : middle.step sdk cluster owner.confidentialKeys event = some finish)
    (comes : Caused owner mint may event) :
    Follows sdk cluster owner mint may origin history (some finish.account) := by
  have reaches : (State.start first).run sdk cluster owner.confidentialKeys (events ++ [event]) =
      some finish := by
    rw [run_append, ran]
    simp [State.run, stepped]
  refine .present begins reaches ?_ ?_
  · rw [accounts_snoc ran stepped, destutter_snoc]
    refine passes.append ?_
    split
    · exact List.nil_sublist _
    · exact List.Sublist.refl _
  · intro earlier member
    rcases List.mem_append.mp member with before | now
    · exact caused earlier before
    · obtain rfl := List.mem_singleton.mp now
      exact comes

/-- The machine follows a step of the account that was computed from something in the history. -/
theorem Follows.step (follows : Follows sdk cluster owner mint may origin history now)
    (step : SharedStep sdk cluster owner mint may (· ∈ history) now after) :
    Follows sdk cluster owner mint may origin history after := by
  cases follows with
  | absent never nothing =>
    cases step with
    | configure called approved =>
      subst nothing
      let first := newAccount owner.confidentialKeys approved
      have stands : (State.start first).run sdk cluster owner.confidentialKeys [] =
          some (State.start first) := rfl
      have passes : (([] ++ [(State.start first).account]).destutter (· ≠ ·)).Sublist
          ((State.start first).accounts sdk cluster owner.confidentialKeys []) :=
        List.Sublist.refl _
      exact .present (.inr ⟨never, approved, rfl⟩) stands passes fun event none =>
        absurd none List.not_mem_nil
  | @present first events finish begins ran passes caused =>
    have earlier : (history.destutter (· ≠ ·)).Sublist
        ((State.start first).accounts sdk cluster owner.confidentialKeys events) :=
      (destutter_sublist_snoc _ _).trans passes
    cases step with
    | @deposit payer amount decimals _ account' called deposited =>
      have stepped : finish.step sdk cluster owner.confidentialKeys (.deposit amount) =
          some { finish with account := account' } := by simp [State.step, deposited]
      exact .event begins ran earlier caused stepped (.deposit called)
    | @receive payer sender amount progress transfer _ account' called carries bound received =>
      have stepped : finish.step sdk cluster owner.confidentialKeys (.receive transfer) =
          some { finish with account := account' } := by simp [State.step, received]
      exact .event begins ran earlier caused stepped (.receive called carries)
    | @execute call task snapshot _ account' called sets saw executes =>
      have passed := earlier.subset (mem_destutter saw)
      obtain ⟨events', finish', place, seen, ran', same, waits, kept, from'⟩ :=
        insert_read task ran passed
      have caused' : ∀ event ∈ events', Caused owner mint may event := by
        intro event member
        rcases from' event member with rfl | ⟨before, inside, rfl | rfl⟩
        · exact .read called sets
        · exact caused _ inside
        · exact (caused _ inside).shift place
      have executed := (Task.execute_some task).mpr executes
      have stepped : finish'.step sdk cluster owner.confidentialKeys (.land place) =
          some ⟨account', finish'.runs.set place (.landed task), finish'.landings + 1⟩ := by
        simp [State.step, waits, same, executed]
      exact .event begins ran' (earlier.trans kept) caused' stepped (.land place)

/-- A history of the machine that follows an account follows several steps of it. -/
theorem Follows.steps (follows : Follows sdk cluster owner mint may origin history now)
    (steps : SharedSteps sdk cluster owner mint may (· ∈ history) now after) :
    Follows sdk cluster owner mint may origin history after := by
  induction steps with
  | refl => exact follows
  | tail _ step ih => exact ih.step step

end Follow

section Together

variable {ι : Type} [DecidableEq ι] {sdk : Sdk} {cluster : Cluster} {s : AppState} {port : Nat}
variable {jobs : ι → Job} {world world' : World} {trace : List (ι × Exchange Reply)}
variable {pool : ι → Client Answer} {start ledger : Ledger} {landed : List Transaction}

/-- Transactions land one after another. -/
theorem execTransactions_eq (cluster : Cluster) (start : Ledger) (landed : List Transaction) :
    start.execTransactions cluster landed =
      landed.foldlM (fun ledger transaction => ledger.execTransaction cluster transaction)
        start := by
  induction landed generalizing start with
  | nil => rfl
  | cons transaction rest ih => simp only [Ledger.execTransactions, List.foldlM_cons, ih]

/-- What an address holds in confidence in each ledger on the way, where it does. -/
def history (cluster : Cluster) (start : Ledger) (landed : List Transaction) (account : Pubkey) :
    List ConfidentialTransferAccount :=
  (trail (fun ledger transaction => ledger.execTransaction cluster transaction) start
    landed).filterMap (·.confidential? account)

/-- A ledger that the run has been at is in the history. -/
theorem mem_history {snapshot : ConfidentialTransferAccount} {account : Pubkey}
    (ran : start.execTransactions cluster landed = some ledger) {read : Ledger}
    (was : WasAt cluster start landed read) (held : read.confidential? account = some snapshot) :
    snapshot ∈ history cluster start landed account := by
  obtain ⟨earlier, ⟨later, rfl⟩, reaches⟩ := was
  rw [execTransactions_eq] at reaches
  refine List.mem_filterMap.mpr ⟨read, ?_, held⟩
  rw [trail_append later reaches]
  exact List.mem_append_left _ (finish_mem_trail reaches)

/-- One more transaction adds what is held after it. -/
theorem history_snoc {before after : Ledger} {transaction : Transaction}
    (ran : start.execTransactions cluster landed = some before)
    (executed : before.execTransaction cluster transaction = some after) (account : Pubkey) :
    history cluster start (landed ++ [transaction]) account =
      history cluster start landed account ++ (after.confidential? account).toList := by
  rw [execTransactions_eq] at ran
  unfold history
  rw [trail_snoc ran executed, List.filterMap_append]
  cases held : after.confidential? account <;> simp [held]

/-- The overlap machine follows every account in a run together. -/
theorem RunTogether.follows (honest : Honest sdk cluster)
    (run : RunTogether sdk cluster s port jobs world trace world' pool) (owner : Wallet)
    (mint : Pubkey) :
    Follows sdk cluster owner mint (MayCall s jobs)
      (world.ledger.confidential? (getAssociatedTokenAddress owner.pubkey mint))
      (history cluster world.ledger (carried (trace.map Prod.snd))
        (getAssociatedTokenAddress owner.pubkey mint))
      (world'.ledger.confidential? (getAssociatedTokenAddress owner.pubkey mint)) := by
  refine landed_induction List.prefix_rfl run.recorded.ledger (fun landed ledger =>
    Follows sdk cluster owner mint (MayCall s jobs)
      (world.ledger.confidential? (getAssociatedTokenAddress owner.pubkey mint))
      (history cluster world.ledger landed (getAssociatedTokenAddress owner.pubkey mint))
      (ledger.confidential? (getAssociatedTokenAddress owner.pubkey mint))) ?_ ?_
  · have begins := Follows.begin sdk cluster owner mint (MayCall s jobs)
      (world.ledger.confidential? (getAssociatedTokenAddress owner.pubkey mint))
    have only : history cluster world.ledger [] (getAssociatedTokenAddress owner.pubkey mint) =
        (world.ledger.confidential? (getAssociatedTokenAddress owner.pubkey mint)).toList := by
      cases held : world.ledger.confidential? (getAssociatedTokenAddress owner.pubkey mint) <;>
        simp [history, trail, held]
    rwa [only]
  · intro earlier later transaction before after split ran follows executed
    obtain ⟨thread, past, after', executed', did⟩ := run.performed honest split ran
    obtain rfl := Option.some.inj (executed.symm.trans executed')
    have steps : SharedSteps sdk cluster owner mint ((jobs thread).role s).may
        (· ∈ history cluster world.ledger earlier (getAssociatedTokenAddress owner.pubkey mint))
        (before.confidential? (getAssociatedTokenAddress owner.pubkey mint))
        (after.confidential? (getAssociatedTokenAddress owner.pubkey mint)) :=
      did.shared executed fun read snapshot was held => mem_history ran was held
    have calls : ∀ call, ((jobs thread).role s).may call → MayCall s jobs call :=
      fun call may => ⟨thread, may⟩
    have followed := follows.steps (steps.mono calls fun _ saw => saw)
    rw [history_snoc ran executed]
    exact followed.record

/-- However any jobs interleave, what an owner's account goes through is a run of the overlap
machine: it starts from what the account held, or as the owner configures it, passes through the
values that the account takes, in this order, ends with the last of them, and consists of credits,
reads and landings that come from calls of these jobs. -/
theorem interleaving_overlaps (honest : Honest sdk cluster)
    (run : RunTogether sdk cluster s port jobs world trace world' pool) (owner : Wallet)
    (mint : Pubkey) {account : ConfidentialTransferAccount}
    (held : world'.ledger.confidential? (getAssociatedTokenAddress owner.pubkey mint) =
      some account) :
    ∃ first events finish,
      (world.ledger.confidential? (getAssociatedTokenAddress owner.pubkey mint) = some first ∨
        world.ledger.confidential? (getAssociatedTokenAddress owner.pubkey mint) = none ∧
          ∃ approved, first = newAccount owner.confidentialKeys approved) ∧
      (State.start first).run sdk cluster owner.confidentialKeys events = some finish ∧
      finish.account = account ∧
      ((history cluster world.ledger (carried (trace.map Prod.snd))
        (getAssociatedTokenAddress owner.pubkey mint)).destutter (· ≠ ·)).Sublist
          ((State.start first).accounts sdk cluster owner.confidentialKeys events) ∧
      ∀ event ∈ events, Caused owner mint (MayCall s jobs) event := by
  have follows := RunTogether.follows honest run owner mint
  rw [held] at follows
  cases follows with
  | present begins ran passes caused =>
    exact ⟨_, _, _, begins, ran, rfl, (destutter_sublist_snoc _ _).trans passes, caused⟩

/-- A transfer in turns with an apply: the receiver's account is followed from nothing to two. -/
theorem interleaving_overlaps_demo : ∃ first events finish,
    (State.start first).run Sdk.ideal Cluster.ideal AppState.demo.keys.receiver.confidentialKeys
      events = some finish ∧ total first = 0 ∧ total finish.account = 2 := by
  have starts : ((World.demo 0 5).ledger.confidential? (getAssociatedTokenAddress
      AppState.demo.keys.receiver.pubkey AppState.demo.mint)).map total = some 0 := by
    decide +kernel
  have holds : ((demoTogether 120).2.1.ledger.confidential? (getAssociatedTokenAddress
      AppState.demo.keys.receiver.pubkey AppState.demo.mint)).map total = some 2 := by
    decide +kernel
  obtain ⟨account, held, amount⟩ := Option.map_eq_some_iff.mp holds
  obtain ⟨first, events, finish, begins, ran, rfl, -, -⟩ :=
    interleaving_overlaps honest_ideal (demoTogether_runs 120) AppState.demo.keys.receiver
      AppState.demo.mint held
  rcases begins with configured | ⟨absent, -⟩
  · rw [configured] at starts
    exact ⟨first, events, finish, ran, Option.some.inj starts, amount⟩
  · rw [absent] at starts
    contradiction

end Together

end ConfidentialBalances.Overlap
