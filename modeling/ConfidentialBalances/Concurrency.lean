import ConfidentialBalances.JobConduct
import ConfidentialBalances.Rent

/-!
# Jobs side by side

Any number of requests to the server and of calls of the library at once: every
job takes its next step whenever it likes, the event log's lock apart. What each
job asks for is bounded by what it was told itself, so what holds of the world
in every interleaving follows from one step of one job.
-/

namespace ConfidentialBalances

open Effect System

section Running

variable {ι : Type} [DecidableEq ι]

/-- A run of jobs together, with who was answered what. -/
abbrev RunTogether (sdk : Sdk) (cluster : Cluster) (s : AppState) (port : Nat) (jobs : ι → Job)
    (world : World) :
    List (ι × Exchange Reply) → World → (ι → Client Answer) → Prop :=
  (chainSystem cluster).Interleaves LogLocked world fun thread => (jobs thread).program sdk s port

end Running

/-- A transfer request and an apply request of the receiver's. -/
def demoJobs : Bool → Job
  | true => .endpoint (.action (.transfer none))
  | false => .endpoint (.action (.applyPending "receiver"))

/-- The two requests on the demo ledger, in turns. -/
def demoTogether (turns : Nat) :
    List (Bool × Exchange Reply) × World × (Bool → Client Answer) :=
  (chain Cluster.ideal).together LogLocked (.demo 0 5)
    (fun thread => (demoJobs thread).program Sdk.ideal AppState.demo 8088)
    ((List.range turns).map fun turn => (turn % 2 = 0, .succeed))

/-- The demo's jobs run together, for any number of turns. -/
theorem demoTogether_runs (turns : Nat) :
    RunTogether Sdk.ideal Cluster.ideal AppState.demo 8088 demoJobs (.demo 0 5)
      (demoTogether turns).1 (demoTogether turns).2.1 (demoTogether turns).2.2 :=
  Handler.together_interleaves _ _ _

/-! ## What the world records -/

/-- What the world has recorded of all exchanges so far. -/
structure Recorded (cluster : Cluster) (world : World) (all : List (Exchange Reply))
    (world' : World) : Prop where
  /-- The confirmed transactions are those that landed. -/
  landed : world'.landed = world.landed ++ carried all
  /-- The transactions took effect in order. -/
  ledger : world.ledger.execTransactions cluster (carried all) = some world'.ledger
  /-- The transactions were confirmed under consecutive signatures. -/
  confirmed : confirmed all = Signature.span world.landed.length (carried all).length
  /-- Each signature names the transaction that it was given for. -/
  named : ∀ transaction sig, ⟨.sendAndConfirmTransaction transaction, Except.ok sig⟩ ∈ all →
    world'.landed[sig.position]? = some transaction
  /-- The keypairs are counted. -/
  generated : world'.generated = world.generated + (keypairs all).length
  /-- Each is a new one. -/
  keypairs : keypairs all = (List.range' world.generated (keypairs all).length).map .generated
  /-- The events were sent in order. -/
  progress : world'.progress = world.progress ++ sent all

section Recording

variable {cluster : Cluster} {world middle world' : World} {all : List (Exchange Reply)}

/-- Nothing is recorded of nothing. -/
theorem Recorded.refl (cluster : Cluster) (world : World) : Recorded cluster world [] world :=
  ⟨by simp, rfl, rfl, by simp, rfl, rfl, by simp⟩

/-- An exchange that lands nothing is recorded when its keypair and its event are. -/
theorem Recorded.unlanded {exchange : Exchange Reply}
    (recorded : Recorded cluster world all middle) (uncarried : carried [exchange] = [])
    (unconfirmed : ConfidentialBalances.confirmed [exchange] = [])
    (landed : world'.landed = middle.landed) (ledger : world'.ledger = middle.ledger)
    (generated : world'.generated =
      middle.generated + (ConfidentialBalances.keypairs [exchange]).length)
    (fresh : ConfidentialBalances.keypairs [exchange] = (List.range' middle.generated
      (ConfidentialBalances.keypairs [exchange]).length).map .generated)
    (progress : world'.progress = middle.progress ++ sent [exchange]) :
    Recorded cluster world (all ++ [exchange]) world' := by
  constructor
  · rw [carried_append, uncarried, List.append_nil, landed, recorded.landed]
  · rw [carried_append, uncarried, List.append_nil, ledger, recorded.ledger]
  · rw [carried_append, uncarried, confirmed_append, unconfirmed, List.append_nil,
      List.append_nil, recorded.confirmed]
  · intro transaction sig member
    rw [landed]
    rcases List.mem_append.mp member with earlier | here
    · exact recorded.named transaction sig earlier
    · rw [← List.mem_singleton.mp here] at uncarried
      contradiction
  · rw [keypairs_append, List.length_append, generated, recorded.generated, Nat.add_assoc]
  · rw [keypairs_append, List.length_append, ← List.range'_append_1, List.map_append,
      ← recorded.keypairs, ← recorded.generated, ← fresh]
  · rw [sent_append, progress, recorded.progress, List.append_assoc]

/-- Every answered request is recorded. -/
theorem Recorded.step {request : Call} {reply : Reply request}
    (recorded : Recorded cluster world all middle)
    (answered : (chainSystem cluster).step middle request reply world') :
    Recorded cluster world (all ++ [⟨request, reply⟩]) world' := by
  obtain ⟨choice, answer⟩ := answered
  have silent (exchange : Exchange Reply) (uncarried : carried [exchange] = [])
      (unconfirmed : ConfidentialBalances.confirmed [exchange] = [])
      (ungenerated : ConfidentialBalances.keypairs [exchange] = []) (unsent : sent [exchange] = [])
      (landed : world'.landed = middle.landed) (ledger : world'.ledger = middle.ledger)
      (generated : world'.generated = middle.generated)
      (progress : world'.progress = middle.progress) :
      Recorded cluster world (all ++ [exchange]) world' :=
    recorded.unlanded uncarried unconfirmed landed ledger (by simp [ungenerated, generated])
      (by simp [ungenerated]) (by simp [unsent, progress])
  cases request with
  | sendAndConfirmTransaction transaction =>
    rcases chain_send cluster middle transaction choice with ⟨message, refused⟩ |
      ⟨ledger, executed, lands⟩
    · obtain ⟨rfl, rfl⟩ := Prod.mk.inj (refused.symm.trans answer)
      exact silent _ rfl rfl rfl rfl rfl rfl rfl rfl
    · obtain ⟨rfl, rfl⟩ := Prod.mk.inj (lands.symm.trans answer)
      have count : middle.landed.length = world.landed.length + (carried all).length := by
        rw [recorded.landed, List.length_append]
      constructor
      · rw [carried_append, ← List.append_assoc, ← recorded.landed]
        rfl
      · rw [carried_append, Ledger.execTransactions_append, recorded.ledger]
        simp [carried, Exchange.carried?, Ledger.execTransactions, executed]
      · rw [carried_append, confirmed_append, recorded.confirmed, List.length_append,
          ← Signature.span_append, ← count]
        rfl
      · intro transaction' sig member
        rcases List.mem_append.mp member with earlier | here
        · have found := recorded.named transaction' sig earlier
          obtain ⟨inside, -⟩ := List.getElem?_eq_some_iff.mp found
          rwa [List.getElem?_append_left inside]
        · cases List.mem_singleton.mp here
          simp
      · rw [keypairs_append, List.length_append, recorded.generated]
        rfl
      · rw [keypairs_append, List.length_append]
        exact (List.append_nil _).trans recorded.keypairs
      · rw [sent_append, recorded.progress]
        exact congrArg _ (List.append_nil _).symm
  | newKeypair =>
    obtain ⟨rfl, rfl⟩ := Prod.mk.inj answer
    exact recorded.unlanded rfl rfl rfl rfl rfl rfl (List.append_nil _).symm
  | emit event =>
    obtain ⟨rfl, rfl⟩ := Prod.mk.inj answer
    exact recorded.unlanded rfl rfl rfl rfl rfl rfl rfl
  | _ =>
    cases choice <;> obtain ⟨rfl, rfl⟩ := Prod.mk.inj answer <;>
      exact silent _ rfl rfl rfl rfl rfl rfl rfl rfl

end Recording

/-! ## What every run together keeps -/

section Together

variable {ι : Type} [DecidableEq ι] {sdk : Sdk} {cluster : Cluster} {s : AppState} {port : Nat}
variable {jobs : ι → Job} {world world' : World} {trace : List (ι × Exchange Reply)}
variable {pool : ι → Client Answer}

/-- Every reply in a run together keeps its promise. -/
theorem together_promises (cluster : Cluster) (world : World) (programs : ι → Client Answer) :
    Interleaves.Promises (chainSystem cluster) LogLocked world programs fun _ => Call.Promised :=
  fun _ _ _ _ _ _ _ _ answered => chain_promises cluster _ _ _ _ answered

/-- The world records a run together. -/
theorem RunTogether.recorded (run : RunTogether sdk cluster s port jobs world trace world' pool) :
    Recorded cluster world (trace.map Prod.snd) world' :=
  run.records (.refl cluster world) fun _ _ _ _ _ recorded answered => recorded.step answered

/-- Every job conducts itself in a run together. -/
theorem RunTogether.conducts (run : RunTogether sdk cluster s port jobs world trace world' pool)
    (thread : ι) :
    (pool thread).Along (fun _ => Call.Promised)
      (Conduct ((jobs thread).party s))
      (fun all answer => ∃ more, all = [] ++ more ∧
        (jobs thread).Accounts answer (confirmed more) (entries more)) (localTo thread trace) :=
  run.leads (together_promises cluster world _) (fun thread => adds_job sdk s port (jobs thread))
    thread

/-- What every request that a job may make keeps, from any point of a run together, every run
keeps. -/
theorem RunTogether.keeps (run : RunTogether sdk cluster s port jobs world trace world' pool)
    (property : List (ι × Exchange Reply) → World → (ι → Client Answer) → Prop)
    (start : property [] world fun thread => (jobs thread).program sdk s port)
    (step : ∀ trace middle pool thread request next reply after,
      RunTogether sdk cluster s port jobs world trace middle pool → property trace middle pool →
        pool thread = .call request next → ¬LogLocked pool thread →
          Conduct ((jobs thread).party s) (localTo thread trace) request →
            (chainSystem cluster).step middle request reply after →
              property (trace ++ [(thread, ⟨request, reply⟩)]) after
                (Function.update pool thread (next reply))) :
    property trace world' pool := by
  induction run with
  | here => exact start
  | @step _ _ _ thread _ _ _ _ earlier here free answered ih =>
    have mine := RunTogether.conducts earlier thread
    rw [here] at mine
    exact step _ _ _ _ _ _ _ _ earlier ih here free mine.1 answered

/-! ## What the jobs are told -/

/-- Looking up the signatures that were given yields the transactions that they were given for. -/
theorem confirmed_lookup {lookup : Signature → Option Transaction} (told : List (Exchange Reply))
    (named : ∀ transaction sig, ⟨.sendAndConfirmTransaction transaction, Except.ok sig⟩ ∈ told →
      lookup sig = some transaction) :
    (confirmed told).map lookup = (carried told).map some := by
  induction told with
  | nil => rfl
  | cons exchange rest ih =>
    have later := ih fun transaction sig member => named transaction sig (.tail _ member)
    rw [← List.singleton_append, confirmed_append, carried_append, List.map_append,
      List.map_append, later]
    congr 1
    obtain ⟨request, reply⟩ := exchange
    cases request with
    | sendAndConfirmTransaction transaction =>
      cases reply with
      | ok sig =>
        have found : lookup sig = some transaction := named transaction sig List.mem_cons_self
        simpa [confirmed, carried, Exchange.confirmed?, Exchange.carried?] using found
      | error reason => rfl
    | _ => rfl

/-- The jobs were told different signatures. -/
theorem RunTogether.told_nodup (run : RunTogether sdk cluster s port jobs world trace world' pool) :
    ((trace.map Prod.snd).filterMap Exchange.confirmed?).Nodup := by
  have whole : (trace.map Prod.snd).filterMap Exchange.confirmed? = _ := run.recorded.confirmed
  rw [whole]
  exact (List.nodup_range').map fun _ _ same => Signature.mk.inj same

/-- However any jobs interleave: a job that returned accounts for exactly what it was told itself,
every signature it was given names its own transaction among those that landed, no two jobs were
given a common signature, and no transaction landed that no job was told of. -/
theorem jobs_account (run : RunTogether sdk cluster s port jobs world trace world' pool) :
    (∀ thread answer, pool thread = .done (.ok answer) → (jobs thread).Accounts answer
      (confirmed (localTo thread trace)) (entries (localTo thread trace))) ∧
    (∀ thread, (confirmed (localTo thread trace)).map (fun sig => world'.landed[sig.position]?) =
      (carried (localTo thread trace)).map some) ∧
    (∀ thread other, other ≠ thread →
      (confirmed (localTo thread trace)).Disjoint (confirmed (localTo other trace))) ∧
    ∀ position, world.landed.length ≤ position → position < world'.landed.length →
      ∃ thread, ⟨position⟩ ∈ confirmed (localTo thread trace) := by
  have recorded := run.recorded
  refine ⟨fun thread answer finished => ?_, fun thread => ?_, fun thread other apart => ?_, ?_⟩
  · have mine := run.conducts thread
    rw [finished] at mine
    obtain ⟨more, same, accounts⟩ := mine answer rfl
    rwa [same]
  · refine confirmed_lookup _ fun transaction sig member => recorded.named transaction sig ?_
    exact (localTo_sublist thread trace).subset member
  · exact localTo_disjoint apart run.told_nodup
  · intro position old new
    have whole : (⟨position⟩ : Signature) ∈ confirmed (trace.map Prod.snd) := by
      rw [recorded.landed, List.length_append] at new
      rw [recorded.confirmed]
      exact List.mem_map_of_mem (List.mem_range'_1.mpr ⟨old, by omega⟩)
    obtain ⟨exchange, member, told⟩ := List.mem_filterMap.mp whole
    obtain ⟨⟨thread, _⟩, mine, rfl⟩ := List.mem_map.mp member
    exact ⟨thread, List.mem_filterMap.mpr ⟨_, mem_localTo.mpr mine, told⟩⟩

/-- The body that a request was answered with. -/
def answered? : Client Answer → Option Answer
  | .done (.ok answer) => some answer
  | _ => none

/-- A request that was answered is over. -/
theorem answered?_eq_some {program : Client Answer} {answer : Answer}
    (found : answered? program = some answer) : program = .done (.ok answer) := by
  unfold answered? at found
  split at found
  · rw [Option.some.inj found]
  · contradiction

/-- A transfer in turns with an apply: each accounts for its own signatures, though the apply's came
in between. -/
theorem jobs_account_demo :
    (∃ answer, (demoJobs true).Accounts answer [⟨1⟩, ⟨2⟩, ⟨3⟩, ⟨4⟩, ⟨5⟩]
      (entries (localTo true (demoTogether 120).1))) ∧
    ∃ answer, (demoJobs false).Accounts answer [⟨0⟩]
      (entries (localTo false (demoTogether 120).1)) := by
  have accounts := (jobs_account (demoTogether_runs 120)).1
  have told (thread : Bool) (sigs : List Signature)
      (same : confirmed (localTo thread (demoTogether 120).1) = sigs)
      (finished : (answered? ((demoTogether 120).2.2 thread)).isSome = true) :
      ∃ answer, (demoJobs thread).Accounts answer sigs
        (entries (localTo thread (demoTogether 120).1)) := by
    obtain ⟨answer, found⟩ := Option.isSome_iff_exists.mp finished
    exact ⟨answer, same ▸ accounts thread answer (answered?_eq_some found)⟩
  exact ⟨told true _ (by decide +kernel) (by decide +kernel),
    told false _ (by decide +kernel) (by decide +kernel)⟩

/-! ## The event log -/

/-- Who stands before replacing the event log. -/
theorem writesEvents_iff {program : Client Answer} :
    program.request?.any Call.writesEvents = true ↔
      ∃ events next, program = .call (.writeEvents events) next := by
  cases program with
  | done outcome => simp [Program.request?]
  | call request next => cases request <;> simp [Program.request?, Call.writesEvents]

/-- The log holds the newest entries, and whoever stands before replacing it has just read it and
is the only one. -/
structure LogKept (world : World) (trace : List (ι × Exchange Reply)) (world' : World)
    (pool : ι → Client Answer) : Prop where
  /-- The entries in the order of the writes, the newest first. -/
  events : world'.events =
    ((entries (trace.map Prod.snd)).reverse ++ world.events).take recentEventsKeep
  /-- What was read is still there. -/
  read : ∀ thread events next, pool thread = .call (.writeEvents events) next →
    ∃ before, localTo thread trace = before ++ [⟨.readEvents, world'.events⟩]
  /-- Nobody else is about to write. -/
  alone : ∀ thread other events events' next next', pool thread = .call (.writeEvents events) next →
    pool other = .call (.writeEvents events') next' → other = thread

/-- Adding an entry to the newest ones and dropping the oldest. -/
theorem take_newest {α : Type} (keep : Nat) (newest : α) (newer : List α) :
    (newest :: newer.take keep).take keep = (newest :: newer).take keep := by
  cases keep with
  | zero => rfl
  | succ keep => simp [List.take_take]

/-- Nothing but a write changes the log, and only a write is an entry. -/
theorem chain_events {request : Call} {reply : Reply request} {middle : World}
    (reads : request.writesEvents = false)
    (answered : (chainSystem cluster).step middle request reply world') :
    world'.events = middle.events ∧ entries [⟨request, reply⟩] = [] := by
  obtain ⟨choice, answer⟩ := answered
  cases request with
  | sendAndConfirmTransaction transaction =>
    rcases chain_send cluster middle transaction choice with ⟨message, refused⟩ |
      ⟨ledger, executed, lands⟩
    · obtain ⟨rfl, rfl⟩ := Prod.mk.inj (refused.symm.trans answer)
      exact ⟨rfl, rfl⟩
    · obtain ⟨rfl, rfl⟩ := Prod.mk.inj (lands.symm.trans answer)
      exact ⟨rfl, rfl⟩
  | writeEvents events => contradiction
  | _ => cases choice <;> obtain ⟨rfl, rfl⟩ := Prod.mk.inj answer <;> exact ⟨rfl, rfl⟩

/-- Who stands before a write has just read the log, and puts one entry at its front. -/
theorem RunTogether.writes (run : RunTogether sdk cluster s port jobs world trace world' pool)
    {thread : ι} {events : List EventLog} {next : Unit → Client Answer}
    (stands : pool thread = .call (.writeEvents events) next) :
    ∃ before log entry, localTo thread trace = before ++ [⟨.readEvents, log⟩] ∧
      events = (entry :: log).take recentEventsKeep := by
  have mine := run.conducts thread
  rw [stands] at mine
  exact mine.1

/-- Who comes to stand before a write has just been told the log. -/
theorem RunTogether.told {request : Call} {reply : Reply request} {thread : ι}
    (run : RunTogether sdk cluster s port jobs world (trace ++ [(thread, ⟨request, reply⟩)]) world'
      pool)
    {events : List EventLog} {next : Unit → Client Answer}
    (stands : pool thread = .call (.writeEvents events) next) :
    ∃ log, (⟨request, reply⟩ : Exchange Reply) = ⟨.readEvents, log⟩ := by
  obtain ⟨before, log, entry, told, -⟩ := run.writes stands
  rw [localTo_own] at told
  exact ⟨log, List.singleton_inj.mp (List.append_inj' told rfl).2⟩

/-- Every run together keeps the log. -/
theorem RunTogether.logKept (run : RunTogether sdk cluster s port jobs world trace world' pool)
    (bounded : world.events.length ≤ recentEventsKeep) : LogKept world trace world' pool := by
  have early {thread : ι} {events : List EventLog} {next : Unit → Client Answer}
      (stands : (jobs thread).program sdk s port = .call (.writeEvents events) next) : False := by
    have none : RunTogether sdk cluster s port jobs world [] world _ := .here
    obtain ⟨before, log, entry, told, -⟩ := none.writes stands
    simp [localTo] at told
  refine run.keeps (LogKept world) ⟨?_, fun _ _ _ stands => (early stands).elim,
    fun _ _ _ _ _ _ stands => (early stands).elim⟩ ?_
  · simpa using (List.take_of_length_le bounded).symm
  intro trace middle pool thread request next reply after earlier kept here free may answered
  have grown := Interleaves.step earlier here free answered
  -- Who stands before a write after this step, and did not make it, did so before.
  have stood {other : ι} {events : List EventLog} {next' : Unit → Client Answer}
      (apart : other ≠ thread)
      (stands : Function.update pool thread (next reply) other =
        .call (.writeEvents events) next') :
      pool other = .call (.writeEvents events) next' := by
    rwa [Function.update_of_ne apart] at stands
  -- Who comes to stand there was let through by the lock, so nobody else stands there.
  have first {other : ι} {events events' : List EventLog} {next' next'' : Unit → Client Answer}
      (apart : other ≠ thread)
      (stands : Function.update pool thread (next reply) thread = .call (.writeEvents events) next')
      (stands' : Function.update pool thread (next reply) other =
        .call (.writeEvents events') next'') : False := by
    obtain ⟨log, same⟩ := RunTogether.told grown stands
    obtain rfl := congrArg Sigma.fst same
    refine free ⟨by rw [here]; rfl, other, apart, ?_⟩
    exact writesEvents_iff.mpr ⟨events', next'', stood apart stands'⟩
  refine ⟨?_, fun other events next' stands => ?_, ?_⟩
  · rw [List.map_append, entries_append, List.reverse_append, List.append_assoc]
    by_cases writes : request.writesEvents = true
    · cases request with
      | writeEvents events =>
        obtain ⟨before, log, entry, told, rfl⟩ := RunTogether.writes earlier here
        obtain ⟨before', told'⟩ := kept.read thread _ _ here
        obtain rfl : log = middle.events := by
          have same := List.singleton_inj.mp (List.append_inj' (told.symm.trans told') rfl).2
          exact eq_of_heq (Sigma.mk.inj same).2
        obtain ⟨choice, answer⟩ := answered
        obtain ⟨-, rfl⟩ := Prod.mk.inj answer
        show (entry :: middle.events).take recentEventsKeep = _
        rw [kept.events, take_newest]
        rfl
      | _ => contradiction
    · obtain ⟨same, none⟩ := chain_events (Bool.eq_false_iff.mpr writes) answered
      rw [same, kept.events]
      exact congrArg (fun added : List EventLog => (added.reverse ++ _).take recentEventsKeep)
        none.symm
  · by_cases mine : other = thread
    · subst mine
      obtain ⟨log, same⟩ := RunTogether.told grown stands
      cases same
      obtain ⟨choice, answer⟩ := answered
      obtain ⟨rfl, rfl⟩ := Prod.mk.inj answer
      exact ⟨localTo other trace, localTo_own _ _⟩
    · have before := stood mine stands
      obtain ⟨earlierTold, told⟩ := kept.read other events next' before
      have reads : request.writesEvents = false := by
        cases request with
        | writeEvents written => exact absurd (kept.alone _ _ _ _ _ _ here before) mine
        | _ => rfl
      rw [localTo_other (Ne.symm mine), (chain_events reads answered).1]
      exact ⟨earlierTold, told⟩
  · intro one other events events' next' next'' stands stands'
    by_cases mine : one = thread <;> by_cases theirs : other = thread
    · rw [mine, theirs]
    · subst mine
      exact (first theirs stands stands').elim
    · subst theirs
      exact (first mine stands' stands).elim
    · exact kept.alone _ _ _ _ _ _ (stood mine stands) (stood theirs stands')

/-- However any jobs interleave, no entry is lost, doubled or out of order: the event log is the
newest eight of all entries in the order in which they were written, before those that it started
with. And whoever waits for its lock waits for a job that can go on. -/
theorem log_keeps_newest (run : RunTogether sdk cluster s port jobs world trace world' pool)
    (bounded : world.events.length ≤ recentEventsKeep) :
    world'.events = ((entries (trace.map Prod.snd)).reverse ++ world.events).take recentEventsKeep ∧
    ∀ thread, LogLocked pool thread → ∃ other events next,
      pool other = .call (.writeEvents events) next ∧ ¬LogLocked pool other := by
  have kept := run.logKept bounded
  refine ⟨kept.events, ?_⟩
  rintro thread ⟨-, other, -, writes⟩
  obtain ⟨events, next, stands⟩ := writesEvents_iff.mp writes
  refine ⟨other, events, next, stands, ?_⟩
  rintro ⟨-, third, apart, writes'⟩
  obtain ⟨events', next', stands'⟩ := writesEvents_iff.mp writes'
  exact apart (kept.alone _ _ _ _ _ _ stands stands')

/-- A transfer in turns with an apply: both moves are logged. -/
theorem log_keeps_newest_demo :
    (demoTogether 120).2.1.events =
      (entries ((demoTogether 120).1.map Prod.snd)).reverse.take recentEventsKeep ∧
    (entries ((demoTogether 120).1.map Prod.snd)).length = 2 := by
  have kept := (log_keeps_newest (demoTogether_runs 120) (by decide)).1
  refine ⟨kept.trans ?_, by decide +kernel⟩
  exact congrArg _ (List.append_nil _)

/-! ## Accounts of a job's own -/

/-- What is proper leaves every temporary account as it was, or its own and recoverable by one of
its party. -/
theorem Proper.settled {party : Party} {owned : List Pubkey} {instructions : List Instruction}
    {ledger ledger' : Ledger} (proper : Proper party owned instructions)
    (ran : ledger.execInstructions cluster instructions = some ledger') :
    ∃ owner ∈ party.payer :: party.owners,
      Settled party.payer owner owned ledger.data ledger'.data := by
  have start (owner : Wallet) : Settled party.payer owner owned ledger.data ledger.data :=
    fun key _ => .inl rfl
  cases proper with
  | orderly orderly =>
    obtain ⟨owner, held, tidy⟩ := orderly.tidy
    exact ⟨owner, held, tidy.settled ran (start owner)⟩
  | createMint mint rent space decimals auditor =>
    obtain ⟨created, create, later⟩ := Option.bind_eq_some_iff.mp ran
    obtain ⟨extended, extend, last⟩ := Option.bind_eq_some_iff.mp later
    obtain ⟨finished, finish, done⟩ := Option.bind_eq_some_iff.mp last
    obtain rfl := Option.some.inj done
    obtain ⟨-, -, -, rfl⟩ := Ledger.createAccount_some create
    obtain ⟨-, -, rfl⟩ := Ledger.initializeConfidentialTransferMint_some extend
    obtain ⟨settings, -, rfl⟩ := Ledger.initializeMint_some finish
    refine ⟨party.payer, List.mem_cons_self, ?_⟩
    simp only [Ledger.setData_data, Ledger.moveLamports_data, Function.update_idem]
    exact (start party.payer).update fun temporary => by contradiction
  | mintTo mint owner amount =>
    obtain ⟨minted, mints, done⟩ := Option.bind_eq_some_iff.mp ran
    obtain rfl := Option.some.inj done
    obtain ⟨state, token, -, -, -, -, -, rfl⟩ := Ledger.mintTo_some mints
    refine ⟨party.payer, List.mem_cons_self, Settled.update (Settled.update (start party.payer)
      fun temporary => ?_) fun temporary => ?_⟩
    · contradiction
    · contradiction

/-- What is proper writes no generated account but the job's own, and moves no lamports of one. -/
theorem Proper.private {party : Party} {owned : List Pubkey} {instructions : List Instruction}
    {index : Nat} (proper : Proper party owned instructions)
    (foreign : Pubkey.generated index ∉ owned) :
    ∀ instruction ∈ instructions, Pubkey.generated index ∉ instruction.writes ∧
      Pubkey.generated index ∉ instruction.lamportKeys := by
  intro instruction member
  cases proper with
  | orderly orderly =>
    refine ⟨fun written => ?_, fun moved => ?_⟩
    · rcases orderly.writes instruction member _ written with own | ⟨owner, mint, same⟩
      · exact foreign own
      · simp [getAssociatedTokenAddress] at same
    · rcases orderly.lamports instruction member _ moved with same | own | ⟨owner, mint, same⟩
      · simp [Wallet.pubkey] at same
      · exact foreign own
      · simp [getAssociatedTokenAddress] at same
  | createMint mint rent space decimals auditor =>
    simp only [List.mem_cons, List.not_mem_nil, or_false] at member
    rcases member with rfl | rfl | rfl <;>
      simp [Instruction.writes, Instruction.lamportKeys, Wallet.pubkey]
  | mintTo mint owner amount =>
    obtain rfl := List.mem_singleton.mp member
    simp [Instruction.writes, Instruction.lamportKeys, Wallet.pubkey, getAssociatedTokenAddress]

/-- A keypair in a run together is a generated one. -/
theorem RunTogether.generated (run : RunTogether sdk cluster s port jobs world trace world' pool)
    {thread : ι} {key : Pubkey} (own : key ∈ keypairs (localTo thread trace)) :
    ∃ index, key = .generated index := by
  have whole : key ∈ keypairs (trace.map Prod.snd) :=
    ((localTo_sublist thread trace).filterMap Exchange.keypair?).subset own
  rw [run.recorded.keypairs] at whole
  obtain ⟨index, -, rfl⟩ := List.mem_map.mp whole
  exact ⟨index, rfl⟩

/-- No keypair is given to two jobs. -/
theorem RunTogether.keypairs_disjoint
    (run : RunTogether sdk cluster s port jobs world trace world' pool) {thread other : ι}
    (apart : other ≠ thread) :
    (keypairs (localTo thread trace)).Disjoint (keypairs (localTo other trace)) := by
  refine localTo_disjoint apart ?_
  have whole : (trace.map Prod.snd).filterMap Exchange.keypair? = _ := run.recorded.keypairs
  rw [whole]
  exact (List.nodup_range').map fun _ _ same => Pubkey.generated.inj same

/-- The accounts of a job's own change in its own steps only. -/
theorem RunTogether.private (run : RunTogether sdk cluster s port jobs world trace world' pool)
    {thread other : ι} {request : Call} {next : Reply request → Client Answer}
    {reply : Reply request} {after : World} (here : pool thread = .call request next)
    (answered : (chainSystem cluster).step world' request reply after) (apart : other ≠ thread)
    {key : Pubkey} (own : key ∈ keypairs (localTo other trace)) :
    after.ledger.data key = world'.ledger.data key ∧
      after.ledger.lamports key = world'.ledger.lamports key := by
  obtain ⟨index, rfl⟩ := run.generated own
  have foreign : Pubkey.generated index ∉ keypairs (localTo thread trace) :=
    fun theirs => run.keypairs_disjoint apart theirs own
  obtain ⟨choice, answer⟩ := answered
  rcases chain_lands cluster world' request choice with ⟨same, -⟩ | ⟨transaction, rfl, executed⟩
  · rw [answer] at same
    exact ⟨by rw [same], by rw [same]⟩
  · rw [answer] at executed
    have mine := run.conducts thread
    rw [here] at mine
    obtain ⟨payer, proper, -⟩ := mine.1
    have untouched := proper.private foreign
    refine ⟨Ledger.execTransaction_data executed fun instruction member =>
      (untouched instruction member).1, ?_⟩
    have alone : world'.ledger.execTransactions cluster [transaction] = some after.ledger := by
      simp [Ledger.execTransactions, executed]
    refine Ledger.execTransactions_lamports_other alone fun only member => ?_
    obtain rfl := List.mem_singleton.mp member
    simp only [Ledger.lamportKeys, List.mem_cons, List.mem_flatMap, not_or, not_exists, not_and]
    refine ⟨by simp [payer, Wallet.pubkey], fun instruction member => ?_⟩
    exact (untouched instruction member).2

/-- Every temporary account is as it was, or a job's own and recoverable by one of its party. -/
theorem RunTogether.settled (run : RunTogether sdk cluster s port jobs world trace world' pool)
    {key : Pubkey} (temporary : (world'.ledger.data key).isTemporary = true) :
    world'.ledger.data key = world.ledger.data key ∨
      ∃ thread, key ∈ keypairs (localTo thread trace) ∧
        ∃ owner ∈ ((jobs thread).party s).payer :: ((jobs thread).party s).owners,
          Recoverable ((jobs thread).party s).payer owner (world'.ledger.data key) := by
  refine run.keeps (fun trace world' _ => ∀ key, (world'.ledger.data key).isTemporary = true →
    world'.ledger.data key = world.ledger.data key ∨
      ∃ thread, key ∈ keypairs (localTo thread trace) ∧
        ∃ owner ∈ ((jobs thread).party s).payer :: ((jobs thread).party s).owners,
          Recoverable ((jobs thread).party s).payer owner (world'.ledger.data key))
    (fun key _ => .inl rfl) ?_ key temporary
  intro trace middle pool thread request next reply after earlier kept here free may answered key
    temporary
  -- What a job has generated stays its own.
  have longer (other : ι) (own : key ∈ keypairs (localTo other trace)) :
      key ∈ keypairs (localTo other (trace ++ [(thread, ⟨request, reply⟩)])) := by
    by_cases mine : thread = other
    · subst mine
      rw [localTo_own, keypairs_append]
      exact List.mem_append_left _ own
    · rwa [localTo_other mine]
  have before (same : after.ledger.data key = middle.ledger.data key) :
      after.ledger.data key = world.ledger.data key ∨
        ∃ thread', key ∈ keypairs (localTo thread' (trace ++ [(thread, ⟨request, reply⟩)])) ∧
          ∃ owner ∈ ((jobs thread').party s).payer :: ((jobs thread').party s).owners,
            Recoverable ((jobs thread').party s).payer owner (after.ledger.data key) := by
    rw [same] at temporary ⊢
    exact (kept key temporary).imp_right fun ⟨other, own, recoverable⟩ =>
      ⟨other, longer other own, recoverable⟩
  obtain ⟨choice, answer⟩ := answered
  rcases chain_lands cluster middle request choice with ⟨same, -⟩ | ⟨transaction, rfl, executed⟩
  · rw [answer] at same
    exact before (by rw [same])
  · rw [answer] at executed
    obtain ⟨-, proper, -⟩ := may
    obtain ⟨-, -, ran⟩ := Ledger.execTransaction_some executed
    obtain ⟨owner, held, settled⟩ := proper.settled ran
    rcases settled key temporary with same | ⟨own, recoverable⟩
    · exact before same
    · exact .inr ⟨thread, longer thread own, owner, held, recoverable⟩

/-- However any jobs interleave, and wherever each of them stops: every temporary account that is
left over from them is initialised, belongs to exactly one job, no step of another one touches it,
and a wallet of that job's party can close it and return all its rent to the payer. -/
theorem temporaries_recoverable
    (run : RunTogether sdk cluster s port jobs world trace world' pool) (key : Pubkey)
    (temporary : (world'.ledger.data key).isTemporary = true)
    (changed : world'.ledger.data key ≠ world.ledger.data key) :
    ∃ thread, key ∈ keypairs (localTo thread trace) ∧
      (∀ other, key ∈ keypairs (localTo other trace) → other = thread) ∧
      (∀ other request next reply after, other ≠ thread → pool other = .call request next →
        (chainSystem cluster).step world' request reply after →
          after.ledger.data key = world'.ledger.data key ∧
            after.ledger.lamports key = world'.ledger.lamports key) ∧
      ∃ owner ∈ ((jobs thread).party s).payer :: ((jobs thread).party s).owners,
        Refundable cluster ((jobs thread).party s).payer owner world'.ledger key := by
  rcases run.settled temporary with same | ⟨thread, own, owner, held, recoverable⟩
  · exact absurd same changed
  refine ⟨thread, own, fun other theirs => ?_, ?_, owner, held, recoverable.refundable ?_⟩
  · by_contra apart
    exact run.keypairs_disjoint apart own theirs
  · intro other request next reply after apart here answered
    exact run.private here answered (Ne.symm apart) own
  · obtain ⟨index, rfl⟩ := run.generated own
    simp [Wallet.pubkey]

/-- A transfer that stops after its first proof, in turns with an apply: the context that is left is
the transfer's, and refundable. -/
theorem temporaries_recoverable_demo :
    .generated 0 ∈ keypairs (localTo true (demoTogether 40).1) ∧
    ∃ owner, Refundable Cluster.ideal ⟨0⟩ owner (demoTogether 40).2.1.ledger (.generated 0) := by
  obtain ⟨thread, own, -, -, owner, -, refundable⟩ :=
    temporaries_recoverable (demoTogether_runs 40) (.generated 0) (by decide +kernel)
      (by decide +kernel)
  have mine : .generated 0 ∈ keypairs (localTo true (demoTogether 40).1) := by decide +kernel
  cases thread with
  | true => exact ⟨mine, owner, refundable⟩
  | false => exact absurd own (by decide +kernel)

/-! ## Who pays -/

/-- What is proper takes no lamports from any wallet but the payer. -/
theorem Proper.spares {party : Party} {owned : List Pubkey} {instructions : List Instruction}
    {ledger ledger' : Ledger} {wallet : Wallet} (proper : Proper party owned instructions)
    (generated : ∀ key ∈ owned, ∃ index, key = .generated index) (apart : party.payer ≠ wallet)
    (ran : ledger.execInstructions cluster instructions = some ledger') :
    ledger.lamports wallet.pubkey ≤ ledger'.lamports wallet.pubkey := by
  have payer : wallet.pubkey ≠ party.payer.pubkey := fun same => apart (Pubkey.wallet.inj same).symm
  refine Ledger.execInstructions_preserves
    (fun now => ledger.lamports wallet.pubkey ≤ now.lamports wallet.pubkey) ?_ ran le_rfl
  intro instruction member before after executed kept
  have aside (unnamed : wallet.pubkey ∉ instruction.lamportKeys) :
      ledger.lamports wallet.pubkey ≤ after.lamports wallet.pubkey :=
    kept.trans (Ledger.execInstruction_lamports_other executed unnamed).ge
  cases proper with
  | orderly orderly =>
    refine aside fun named => ?_
    rcases orderly.lamports instruction member _ named with same | own | ⟨owner, mint, same⟩
    · exact payer same
    · obtain ⟨index, same⟩ := generated _ own
      simp [Wallet.pubkey] at same
    · exact wallet.pubkey_ne_associated owner mint same
  | createMint mint rent space decimals auditor =>
    simp only [List.mem_cons, List.not_mem_nil, or_false] at member
    rcases member with rfl | rfl | rfl
    · obtain ⟨-, -, -, rfl⟩ := Ledger.createAccount_some executed
      refine kept.trans ?_
      simp [Ledger.moveLamports, payer]
    · exact aside (by simp [Instruction.lamportKeys])
    · exact aside (by simp [Instruction.lamportKeys])
  | mintTo mint owner amount =>
    obtain rfl := List.mem_singleton.mp member
    exact aside (by simp [Instruction.lamportKeys])

/-- However any jobs interleave: no wallet loses a lamport that pays for none of them, and any
addresses that include all that were named lose exactly the fees of what landed. -/
theorem only_payers_pay (run : RunTogether sdk cluster s port jobs world trace world' pool) :
    (∀ wallet : Wallet, (∀ thread, ((jobs thread).party s).payer ≠ wallet) →
      world.ledger.lamports wallet.pubkey ≤ world'.ledger.lamports wallet.pubkey) ∧
    ∀ keys : Finset Pubkey, (∀ transaction ∈ carried (trace.map Prod.snd),
      ∀ key ∈ Ledger.lamportKeys transaction, key ∈ keys) →
        world'.ledger.held keys + Ledger.fees cluster (carried (trace.map Prod.snd)) =
          world.ledger.held keys := by
  refine ⟨fun wallet apart => ?_, fun keys inside =>
    Ledger.execTransactions_held run.recorded.ledger inside⟩
  refine run.keeps (fun _ world' _ =>
    world.ledger.lamports wallet.pubkey ≤ world'.ledger.lamports wallet.pubkey) le_rfl ?_
  intro trace middle pool thread request next reply after earlier kept here free may answered
  obtain ⟨choice, answer⟩ := answered
  rcases chain_lands cluster middle request choice with ⟨same, -⟩ | ⟨transaction, rfl, executed⟩
  · rw [answer] at same
    rwa [same]
  · rw [answer] at executed
    obtain ⟨payer, proper, -⟩ := may
    obtain ⟨-, -, ran⟩ := Ledger.execTransaction_some executed
    have charged := proper.spares (fun key own => RunTogether.generated earlier own) (apart thread)
      ran
    refine kept.trans (le_of_eq_of_le ?_ charged)
    have elsewhere : wallet.pubkey ≠ transaction.payer := by
      rw [payer]
      exact fun same => apart thread (Pubkey.wallet.inj same).symm
    simp [Ledger.chargeFee, elsewhere]

/-- A transfer in turns with an apply: the sender pays nothing. -/
theorem only_payers_pay_demo :
    (World.demo 0 5).ledger.lamports (.wallet ⟨1⟩) ≤
      (demoTogether 120).2.1.ledger.lamports (.wallet ⟨1⟩) ∧
    (carried ((demoTogether 120).1.map Prod.snd)).length = 6 :=
  ⟨(only_payers_pay (demoTogether_runs 120)).1 ⟨1⟩ (by decide), by decide +kernel⟩

end Together

end ConfidentialBalances
