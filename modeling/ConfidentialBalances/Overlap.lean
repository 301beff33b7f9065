import ConfidentialBalances.Synchronisation

/-!
# Overlapping runs

Nothing keeps the runs of one owner apart. Here each run is two steps, a read of
the account and later the landing of what it computed from it, and the steps of
any number of runs interleave with each other and with incoming credits. A spend
lands only on the ciphertext it read. An apply is guarded by the credit count
alone, which does not notice a spend.
-/

namespace ConfidentialBalances.Overlap

open Relation

/-- Where a run stands. -/
inductive Phase
  /-- The run has read the account, when `seen` applies and spends had landed. -/
  | waiting (task : Task) (snapshot : ConfidentialTransferAccount) (seen : Nat)
  /-- The run has failed before landing, and returned an error. -/
  | failed (task : Task)
  /-- The run has landed and not returned yet. -/
  | landed (task : Task)
  /-- The run has landed and returned a value or, failing after its landing, an error. -/
  | returned (task : Task) (ok : Bool)
  deriving DecidableEq, Repr

/-- One account and the runs on it, in the order in which they read it. -/
structure State where
  /-- The account. -/
  account : ConfidentialTransferAccount
  /-- The runs. -/
  runs : List Phase
  /-- How many applies and spends have landed. -/
  landings : Nat
  deriving DecidableEq, Repr

/-- What may happen. Runs are named by their position. -/
inductive Event
  /-- The owner deposits. -/
  | deposit (amount : Nat)
  /-- A confidential transfer comes in. -/
  | receive (transfer : TransferAmount)
  /-- An apply reads and lands in one step. -/
  | apply
  /-- A run reads the account. -/
  | read (task : Task)
  /-- A run lands what it computed. -/
  | land (run : Nat)
  /-- A run fails before it lands. -/
  | fail (run : Nat)
  /-- A run that has landed returns. -/
  | finish (run : Nat) (ok : Bool)
  deriving DecidableEq, Repr

section Machine

variable (sdk : Sdk) (cluster : Cluster) (keys : ConfidentialKeys)

/-- One step, where the event can happen. -/
def State.step (state : State) : Event → Option State
  | .deposit amount =>
    (state.account.deposit amount).map fun account => { state with account := account }
  | .receive transfer =>
    (state.account.transferIn (.validity transfer)).map fun account =>
      { state with account := account }
  | .apply =>
    (Task.apply.execute sdk cluster keys state.account state.account).map fun account =>
      { state with account := account, landings := state.landings + 1 }
  | .read task =>
    some { state with runs := state.runs ++ [.waiting task state.account state.landings] }
  | .land run =>
    match state.runs[run]? with
    | some (.waiting task snapshot _) =>
      (task.execute sdk cluster keys snapshot state.account).map fun account =>
        { account := account, runs := state.runs.set run (.landed task),
          landings := state.landings + 1 }
    | _ => none
  | .fail run =>
    match state.runs[run]? with
    | some (.waiting task _ _) => some { state with runs := state.runs.set run (.failed task) }
    | _ => none
  | .finish run ok =>
    match state.runs[run]? with
    | some (.landed task) => some { state with runs := state.runs.set run (.returned task ok) }
    | _ => none

/-- A sequence of events. -/
def State.run : State → List Event → Option State
  | state, [] => some state
  | state, event :: rest => do
    let next ← state.step sdk cluster keys event
    next.run rest

end Machine

/-- An account with no runs on it. -/
def State.start (account : ConfidentialTransferAccount) : State := ⟨account, [], 0⟩

/-- An account as its owner configures it. -/
def newAccount (keys : ConfidentialKeys) (approved : Bool) : ConfidentialTransferAccount :=
  .configured approved keys.elgamal.pubkey (keys.aes.encrypt 0) maxPendingBalanceCreditCounter

/-- The keys of one owner. -/
def ownerKeys : ConfidentialKeys := (⟨1⟩ : Wallet).confidentialKeys

/-- The demo owner's new account, approved, with no runs on it. -/
def State.new : State := .start (newAccount ownerKeys true)

/-- A sequence of events on the new account with the ideal proof system. -/
def idealRun (events : List Event) : Option State :=
  State.new.run Sdk.ideal Cluster.ideal ownerKeys events

/-- A new account's balances are in its owner's key, and its representations agree. -/
theorem newAccount_keyed (keys : ConfidentialKeys) (approved : Bool) :
    Keyed keys (newAccount keys approved) ∧ Synced keys (newAccount keys approved) :=
  ⟨⟨rfl, rfl, rfl, rfl⟩, 0, AeCiphertext.decrypt_encrypt _ _, rfl⟩

section Steps

variable {sdk : Sdk} {cluster : Cluster} {keys : ConfidentialKeys} {state state' : State}

/-- A sequence of events in two parts runs one part after the other. -/
theorem run_append (state : State) (first second : List Event) :
    state.run sdk cluster keys (first ++ second) =
      (state.run sdk cluster keys first).bind fun next => next.run sdk cluster keys second := by
  induction first generalizing state with
  | nil => rfl
  | cons event rest ih =>
    simp only [List.cons_append, State.run, Option.bind_eq_bind, Option.bind_assoc, ih]

/-- What a step can be, each case with what it found. -/
inductive Transition (sdk : Sdk) (cluster : Cluster) (keys : ConfidentialKeys) (state : State) :
    Event → State → Prop
  /-- The account accepts a deposit. -/
  | deposit {amount : Nat} {account : ConfidentialTransferAccount}
      (deposited : state.account.deposit amount = some account) :
      Transition sdk cluster keys state (.deposit amount) { state with account := account }
  /-- The account accepts a transfer. -/
  | receive {transfer : TransferAmount} {account : ConfidentialTransferAccount}
      (received : state.account.transferIn (.validity transfer) = some account) :
      Transition sdk cluster keys state (.receive transfer) { state with account := account }
  /-- An apply executes on the account it reads. -/
  | apply {account : ConfidentialTransferAccount}
      (executes : Executes sdk cluster keys state.account .apply state.account account) :
      Transition sdk cluster keys state .apply
        { state with account := account, landings := state.landings + 1 }
  /-- A run takes its snapshot. -/
  | read (task : Task) : Transition sdk cluster keys state (.read task)
      { state with runs := state.runs ++ [.waiting task state.account state.landings] }
  /-- A waiting run executes on the account, with what it computed from its snapshot. -/
  | land {run : Nat} {task : Task} {snapshot account : ConfidentialTransferAccount} {seen : Nat}
      (waiting : state.runs[run]? = some (.waiting task snapshot seen))
      (executes : Executes sdk cluster keys snapshot task state.account account) :
      Transition sdk cluster keys state (.land run)
        ⟨account, state.runs.set run (.landed task), state.landings + 1⟩
  /-- A waiting run gives up. -/
  | fail {run : Nat} {task : Task} {snapshot : ConfidentialTransferAccount} {seen : Nat}
      (waiting : state.runs[run]? = some (.waiting task snapshot seen)) :
      Transition sdk cluster keys state (.fail run)
        { state with runs := state.runs.set run (.failed task) }
  /-- A landed run returns. -/
  | finish {run : Nat} {task : Task} (ok : Bool)
      (landed : state.runs[run]? = some (.landed task)) :
      Transition sdk cluster keys state (.finish run ok)
        { state with runs := state.runs.set run (.returned task ok) }

/-- Every step is one of these. -/
theorem step_cases {event : Event} (stepped : state.step sdk cluster keys event = some state') :
    Transition sdk cluster keys state event state' := by
  cases event with
  | deposit amount =>
    obtain ⟨account, deposited, rfl⟩ := Option.map_eq_some_iff.mp stepped
    exact .deposit deposited
  | receive transfer =>
    obtain ⟨account, received, rfl⟩ := Option.map_eq_some_iff.mp stepped
    exact .receive received
  | apply =>
    obtain ⟨account, executed, rfl⟩ := Option.map_eq_some_iff.mp stepped
    exact .apply ((Task.execute_some _).mp executed)
  | read task =>
    obtain rfl := Option.some.inj stepped
    exact .read task
  | land run =>
    simp only [State.step] at stepped
    split at stepped
    · rename_i task snapshot seen waiting
      obtain ⟨account, executed, rfl⟩ := Option.map_eq_some_iff.mp stepped
      exact .land waiting ((Task.execute_some _).mp executed)
    · contradiction
  | fail run =>
    simp only [State.step] at stepped
    split at stepped
    · rename_i task snapshot seen waiting
      obtain rfl := Option.some.inj stepped
      exact .fail waiting
    · contradiction
  | finish run ok =>
    simp only [State.step] at stepped
    split at stepped
    · rename_i task landed
      obtain rfl := Option.some.inj stepped
      exact .finish ok landed
    · contradiction

/-- Every step keeps the account's balances under the owner's key. -/
theorem step_keyed {event : Event} (stepped : state.step sdk cluster keys event = some state')
    (keyed : Keyed keys state.account) : Keyed keys state'.account := by
  cases step_cases stepped with
  | deposit deposited =>
    obtain ⟨-, credited⟩ := ConfidentialTransferAccount.deposit_some deposited
    exact credit_keyed keyed credited
  | receive received =>
    obtain ⟨transfer, -, credited⟩ := ConfidentialTransferAccount.transferIn_some received
    exact credit_keyed keyed credited
  | apply executes => exact executes.keyed keyed
  | read task => exact keyed
  | land waiting executes => exact executes.keyed keyed
  | fail waiting => exact keyed
  | finish ok landed => exact keyed

/-- No apply is waiting. -/
def SpendsWait (state : State) : Prop :=
  ∀ task snapshot seen, Phase.waiting task snapshot seen ∈ state.runs → task ≠ .apply

/-- Where a run settles, no apply comes to wait. -/
theorem SpendsWait.settle {run : Nat} {phase : Phase}
    (settled : ∀ task snapshot seen, phase ≠ .waiting task snapshot seen)
    (spends : SpendsWait state) (account : ConfidentialTransferAccount) (landings : Nat) :
    SpendsWait ⟨account, state.runs.set run phase, landings⟩ := by
  intro task snapshot seen waiting
  rcases List.mem_or_eq_of_mem_set waiting with other | same
  · exact spends task snapshot seen other
  · exact absurd same.symm (settled task snapshot seen)

/-- Only the read of an apply makes one wait. -/
theorem step_spendsWait {event : Event} (alone : event ≠ .read .apply)
    (stepped : state.step sdk cluster keys event = some state') (spends : SpendsWait state) :
    SpendsWait state' := by
  cases step_cases stepped with
  | read task =>
    intro task' snapshot seen waiting
    rcases List.mem_append.mp waiting with earlier | last
    · exact spends task' snapshot seen earlier
    · obtain ⟨rfl, -, -⟩ := Phase.waiting.inj (List.mem_singleton.mp last)
      rintro rfl
      exact alone rfl
  | deposit deposited => exact spends
  | receive received => exact spends
  | apply executes => exact spends
  | land waiting executes => exact spends.settle (by simp) _ _
  | fail waiting => exact spends.settle (by simp) _ _
  | finish ok landed => exact spends.settle (by simp) _ _

/-- A spend that lands found the ciphertext it read, and takes its amount from both
representations, whatever else has landed in between. -/
theorem spend_effect (honest : Honest sdk cluster)
    {snapshot account account' : ConfidentialTransferAccount} {task : Task} (spends : task ≠ .apply)
    (keyed : Keyed keys account)
    (executes : Executes sdk cluster keys snapshot task account account') :
    Synced keys account' ∧
      account'.availableBalance.amount = account.availableBalance.amount - task.amount ∧
      account'.pendingAmount = account.pendingAmount ∧
      account'.pendingBalanceCreditCounter = account.pendingBalanceCreditCounter := by
  cases task with
  | apply => exact absurd rfl spends
  | withdraw amount =>
    have unchanged := executes.withdraw_unchanged honest keyed.pubkey
    obtain ⟨taken, pending, counter, left, decrypted, rest⟩ := executes.withdraw_effect
    rw [← unchanged] at rest
    exact ⟨⟨left, decrypted, taken.trans rest.symm⟩, taken, pending, counter⟩
  | transfer amount recipient auditor =>
    obtain ⟨unchanged, -, taken, pending, counter, left, decrypted, rest⟩ :=
      executes.transfer_effect honest
    rw [← unchanged] at rest
    exact ⟨⟨left, decrypted, taken.trans rest.symm⟩, taken, pending, counter⟩

end Steps

/-! ## When overlapping applies keep the representations in agreement -/

/-- The tokens in an account, available and pending. -/
def total (account : ConfidentialTransferAccount) : ℤ :=
  account.availableBalance.amount + account.pendingAmount

/-- If the event lands a waiting apply, the account holds the total that the apply read. -/
def Current (state : State) : Event → Prop
  | .land run => ∀ snapshot seen, state.runs[run]? = some (.waiting .apply snapshot seen) →
      total snapshot = total state.account
  | _ => True

/-- If the event lands a waiting apply, nothing but credits has landed since the apply read. -/
def Undisturbed (state : State) : Event → Prop
  | .land run => ∀ snapshot seen, state.runs[run]? = some (.waiting .apply snapshot seen) →
      seen = state.landings
  | _ => True

section Agreement

variable (sdk : Sdk) (cluster : Cluster) (keys : ConfidentialKeys)

/-- A condition on every event of a sequence, at the state it happens in. -/
def Always (condition : State → Event → Prop) : State → List Event → Prop
  | _, [] => True
  | state, event :: rest => condition state event ∧
      ∀ next, state.step sdk cluster keys event = some next → Always condition next rest

/-- Both representations agree after every event of a sequence. -/
def SyncedThroughout (state : State) (events : List Event) : Prop :=
  Always sdk cluster keys (fun state event => ∀ next, state.step sdk cluster keys event =
    some next → Synced keys next.account) state events

variable {sdk : Sdk} {cluster : Cluster} {keys : ConfidentialKeys} {state state' : State}

/-- From agreement, a step leads to agreement exactly when it is no landing of an apply on another
total than it read. -/
theorem step_synced_iff (honest : Honest sdk cluster) {event : Event}
    (stepped : state.step sdk cluster keys event = some state') (keyed : Keyed keys state.account)
    (synced : Synced keys state.account) : Synced keys state'.account ↔ Current state event := by
  cases step_cases stepped with
  | deposit deposited =>
    obtain ⟨-, credited⟩ := ConfidentialTransferAccount.deposit_some deposited
    exact iff_of_true ((credit_synced credited).mpr synced) trivial
  | receive received =>
    obtain ⟨transfer, -, credited⟩ := ConfidentialTransferAccount.transferIn_some received
    exact iff_of_true ((credit_synced credited).mpr synced) trivial
  | apply executes => exact iff_of_true (executes.synced honest) trivial
  | read task => exact iff_of_true synced trivial
  | @land run task snapshot account seen waiting executes =>
    by_cases spends : task = .apply
    · subst spends
      obtain ⟨-, moved, -, sum, decrypted, read⟩ := executes.apply_effect
      simp only [Current, waiting, Option.some.injEq, Phase.waiting.injEq, true_and]
      constructor
      · rintro ⟨amount, decrypted', same⟩ _ _ ⟨rfl, rfl⟩
        obtain rfl : sum = amount := Option.some.inj (decrypted.symm.trans decrypted')
        unfold total
        omega
      · intro current
        refine ⟨sum, decrypted, ?_⟩
        have same := current snapshot seen ⟨rfl, rfl⟩
        unfold total at same
        omega
    · refine iff_of_true (spend_effect honest spends keyed executes).1 ?_
      intro snapshot' seen' apply
      rw [waiting] at apply
      exact absurd (Phase.waiting.inj (Option.some.inj apply)).1 spends
  | fail waiting => exact iff_of_true synced trivial
  | finish ok landed => exact iff_of_true synced trivial

/-- Every state of a run from agreement is in agreement exactly when every apply that lands finds
the total it read. -/
theorem syncedThroughout_iff (honest : Honest sdk cluster) {events : List Event}
    (keyed : Keyed keys state.account) (synced : Synced keys state.account)
    (ran : state.run sdk cluster keys events = some state') :
    SyncedThroughout sdk cluster keys state events ↔
      Always sdk cluster keys Current state events := by
  induction events generalizing state with
  | nil => exact Iff.rfl
  | cons event rest ih =>
    obtain ⟨next, stepped, remaining⟩ := Option.bind_eq_some_iff.mp ran
    have step := step_synced_iff honest stepped keyed synced
    have later (agrees : Synced keys next.account) :=
      ih (step_keyed stepped keyed) agrees remaining
    simp only [SyncedThroughout, Always, stepped, Option.some.injEq, forall_eq'] at later ⊢
    constructor
    · rintro ⟨agrees, all⟩
      exact ⟨step.mp agrees, (later agrees).mp all⟩
    · rintro ⟨current, all⟩
      exact ⟨step.mpr current, (later (step.mpr current)).mpr all⟩

/-- Every waiting run that no landing has disturbed sees its snapshot, or more credits. -/
def Fresh (state : State) : Prop :=
  ∀ task snapshot seen, Phase.waiting task snapshot seen ∈ state.runs →
    seen ≤ state.landings ∧ (seen = state.landings → state.account = snapshot ∨
      snapshot.pendingBalanceCreditCounter < state.account.pendingBalanceCreditCounter)

/-- A credit counts itself. -/
theorem Fresh.credit {account : ConfidentialTransferAccount} {lo hi : ElGamalCiphertext}
    (fresh : Fresh state) (credited : state.account.credit lo hi = some account) :
    Fresh { state with account := account } := by
  obtain ⟨-, rfl⟩ := ConfidentialTransferAccount.credit_some credited
  intro task snapshot seen waiting
  obtain ⟨bound, same⟩ := fresh task snapshot seen waiting
  refine ⟨bound, fun current => .inr ?_⟩
  rcases same current with held | more
  · simp [held]
  · exact Nat.lt_succ_of_lt more

/-- A run that settles leaves the other waiting runs. -/
theorem Fresh.settle {run : Nat} {phase : Phase}
    (settled : ∀ task snapshot seen, phase ≠ .waiting task snapshot seen) (fresh : Fresh state) :
    Fresh { state with runs := state.runs.set run phase } := by
  intro task snapshot seen waiting
  rcases List.mem_or_eq_of_mem_set waiting with other | same
  · exact fresh task snapshot seen other
  · exact absurd same.symm (settled task snapshot seen)

/-- A landing disturbs every waiting run. -/
theorem Fresh.landing (fresh : Fresh state) (account : ConfidentialTransferAccount) :
    Fresh { state with account := account, landings := state.landings + 1 } := by
  intro task snapshot seen waiting
  obtain ⟨bound, -⟩ := fresh task snapshot seen waiting
  exact ⟨Nat.le_succ_of_le bound, fun same => absurd same (by simp only; omega)⟩

/-- Every step keeps waiting runs fresh. -/
theorem step_fresh {event : Event} (stepped : state.step sdk cluster keys event = some state')
    (fresh : Fresh state) : Fresh state' := by
  cases step_cases stepped with
  | deposit deposited =>
    obtain ⟨-, credited⟩ := ConfidentialTransferAccount.deposit_some deposited
    exact fresh.credit credited
  | receive received =>
    obtain ⟨transfer, -, credited⟩ := ConfidentialTransferAccount.transferIn_some received
    exact fresh.credit credited
  | apply executes => exact fresh.landing _
  | read task =>
    intro task' snapshot seen waiting
    rcases List.mem_append.mp waiting with earlier | last
    · exact fresh task' snapshot seen earlier
    · obtain ⟨rfl, rfl, rfl⟩ := Phase.waiting.inj (List.mem_singleton.mp last)
      exact ⟨le_rfl, fun _ => .inl rfl⟩
  | land waiting executes => exact Fresh.settle (by simp) (fresh.landing _)
  | fail waiting => exact Fresh.settle (by simp) fresh
  | finish ok landed => exact Fresh.settle (by simp) fresh

/-- An apply that lands undisturbed finds the account as it read it: a credit would have changed
the credit count. -/
theorem current_of_undisturbed {event : Event} (fresh : Fresh state)
    (stepped : state.step sdk cluster keys event = some state')
    (undisturbed : Undisturbed state event) : Current state event := by
  cases step_cases stepped with
  | @land run task snapshot account seen waiting executes =>
    intro snapshot' seen' apply
    rw [waiting] at apply
    obtain ⟨rfl, rfl, rfl⟩ := Phase.waiting.inj (Option.some.inj apply)
    have current := undisturbed _ _ waiting
    obtain ⟨counter, -⟩ := executes.apply_effect
    rcases (fresh _ _ _ (List.mem_of_getElem? waiting)).2 current with same | more
    · rw [same]
    · omega
  | _ => trivial

/-- Where every apply that lands is undisturbed, every apply that lands finds the total it read. -/
theorem always_current {events : List Event} (fresh : Fresh state)
    (undisturbed : Always sdk cluster keys Undisturbed state events)
    (ran : state.run sdk cluster keys events = some state') :
    Always sdk cluster keys Current state events := by
  induction events generalizing state with
  | nil => trivial
  | cons event rest ih =>
    obtain ⟨next, stepped, remaining⟩ := Option.bind_eq_some_iff.mp ran
    refine ⟨current_of_undisturbed fresh stepped undisturbed.1, fun next' stepped' => ?_⟩
    obtain rfl : next = next' := Option.some.inj (stepped.symm.trans stepped')
    exact ih (step_fresh stepped fresh) (undisturbed.2 next stepped) remaining

/-- Where no apply waits, none is disturbed. -/
theorem always_undisturbed {events : List Event} (alone : ∀ event ∈ events, event ≠ .read .apply)
    (spends : SpendsWait state) : Always sdk cluster keys Undisturbed state events := by
  induction events generalizing state with
  | nil => trivial
  | cons event rest ih =>
    constructor
    · cases event with
      | land run =>
        intro snapshot seen waiting
        exact absurd rfl (spends _ _ _ (List.mem_of_getElem? waiting))
      | _ => trivial
    · intro next stepped
      have later := step_spendsWait (alone event List.mem_cons_self) stepped spends
      exact ih (fun event member => alone event (List.mem_cons_of_mem _ member)) later

/-- Of any number of overlapping runs from an account in agreement: both representations agree in
every state exactly when every apply that lands finds the total it read; and they do when no other
apply and no spend lands between an apply's read and its landing. -/
theorem overlap_synced (sdk : Sdk) (cluster : Cluster) (honest : Honest sdk cluster)
    (keys : ConfidentialKeys) (account : ConfidentialTransferAccount) (events : List Event)
    (finish : State) (keyed : Keyed keys account) (synced : Synced keys account)
    (ran : (State.start account).run sdk cluster keys events = some finish) :
    (SyncedThroughout sdk cluster keys (.start account) events ↔
      Always sdk cluster keys Current (.start account) events) ∧
    (Always sdk cluster keys Undisturbed (.start account) events →
      SyncedThroughout sdk cluster keys (.start account) events) := by
  have exact : SyncedThroughout sdk cluster keys (.start account) events ↔
      Always sdk cluster keys Current (.start account) events :=
    syncedThroughout_iff honest keyed synced ran
  have fresh : Fresh (.start account) := by
    intro task snapshot seen waiting
    simp [State.start] at waiting
  exact ⟨exact, fun undisturbed => exact.mpr (always_current fresh undisturbed ran)⟩

/-- A transfer lands after a deposit that it did not see. -/
def overlappedTransfer : List Event :=
  [.deposit 10, .apply, .read (.transfer 3 (.other 0) none), .deposit 5, .land 0]

/-- The runs of that sequence keep a new account in agreement. -/
theorem overlap_synced_transfer :
    SyncedThroughout Sdk.ideal Cluster.ideal ownerKeys .new overlappedTransfer := by
  have runs : (idealRun overlappedTransfer).isSome := by decide +kernel
  obtain ⟨finish, ran⟩ := Option.isSome_iff_exists.mp runs
  obtain ⟨keyed, synced⟩ := newAccount_keyed ownerKeys true
  have agreement := overlap_synced Sdk.ideal Cluster.ideal honest_ideal ownerKeys _ _ finish keyed
    synced ran
  have spends : SpendsWait .new := by simp [SpendsWait, State.new, State.start]
  exact agreement.2 (always_undisturbed (by decide) spends)

/-- A second deposit waits while an apply and a transfer read the account, and the transfer lands
before the apply does. -/
def lostUpdate : List Event :=
  [.deposit 10, .apply, .deposit 5, .read .apply, .read (.transfer 3 (.other 0) none), .land 1,
    .land 0]

/-- The apply of that sequence writes the balance it read and loses sight of the transfer. -/
theorem overlap_stale : ∃ finish,
    State.new.run Sdk.ideal Cluster.ideal ownerKeys lostUpdate = some finish ∧
      ¬ Synced ownerKeys finish.account := by
  have stale : (idealRun lostUpdate).map (fun finish =>
      decide (Synced ownerKeys finish.account)) = some false := by
    decide +kernel
  obtain ⟨finish, ran, apart⟩ := Option.map_eq_some_iff.mp stale
  exact ⟨finish, ran, of_decide_eq_false apart⟩

end Agreement

/-! ## Conservation -/

/-- What a run is to do. -/
def Phase.task : Phase → Task
  | .waiting task _ _ => task
  | .failed task => task
  | .landed task => task
  | .returned task _ => task

/-- The run has landed. -/
def Phase.hasLanded : Phase → Bool
  | .landed _ => true
  | .returned _ _ => true
  | _ => false

/-- The amount a run has taken. -/
def Phase.spent : Phase → Nat
  | .landed task => task.amount
  | .returned task _ => task.amount
  | _ => 0

/-- A run takes nothing before it lands. -/
theorem Phase.spent_eq (phase : Phase) :
    phase.spent = phase.hasLanded.toNat * phase.task.amount := by
  cases phase <;> simp [spent, hasLanded, task]

/-- What the landed spends took together. -/
def State.spent (state : State) : Nat := (state.runs.map Phase.spent).sum

/-- The amount an event credits. -/
def Event.credited : Event → ℤ
  | .deposit amount => amount
  | .receive transfer => transfer.lo.amount + 2 ^ pendingBalanceLoBits * transfer.hi.amount
  | _ => 0

/-- The credits waiting and the credits applied, counted along the events: an apply applies
everything that waits. -/
def tally (counts : ℤ × ℤ) : Event → ℤ × ℤ
  | .apply => (0, counts.2 + counts.1)
  | event => (counts.1 + event.credited, counts.2)

section Conservation

variable {sdk : Sdk} {cluster : Cluster} {keys : ConfidentialKeys} {state state' : State}
variable {counts : ℤ × ℤ}

/-- The account holds the credits counted, less what landed spends took, in agreement, and no
apply is waiting. -/
structure Balanced (keys : ConfidentialKeys) (counts : ℤ × ℤ) (state : State) : Prop where
  /-- What waits is pending. -/
  pending : state.account.pendingAmount = counts.1
  /-- What was applied is available or spent. -/
  available : state.account.availableBalance.amount + state.spent = counts.2
  /-- Both representations agree. -/
  synced : Synced keys state.account
  /-- The balances are the owner's. -/
  keyed : Keyed keys state.account
  /-- Only spends wait. -/
  spends : SpendsWait state

/-- Replacing a phase replaces what it spent. -/
theorem spent_set {runs : List Phase} {run : Nat} {phase : Phase} (phase' : Phase)
    (held : runs[run]? = some phase) :
    ((runs.set run phase').map Phase.spent).sum + phase.spent =
      (runs.map Phase.spent).sum + phase'.spent := by
  induction runs generalizing run with
  | nil => simp at held
  | cons head tail ih =>
    cases run with
    | zero =>
      obtain rfl := Option.some.inj held
      simp only [List.set_cons_zero, List.map_cons, List.sum_cons]
      omega
    | succ run =>
      have later := ih held
      simp only [List.set_cons_succ, List.map_cons, List.sum_cons]
      omega

/-- Every step but the read of an apply keeps the account balanced. -/
theorem step_balanced (honest : Honest sdk cluster) {event : Event} (alone : event ≠ .read .apply)
    (stepped : state.step sdk cluster keys event = some state')
    (balanced : Balanced keys counts state) : Balanced keys (tally counts event) state' := by
  have keyed := step_keyed stepped balanced.keyed
  have spends := step_spendsWait alone stepped balanced.spends
  cases step_cases stepped with
  | deposit deposited =>
    obtain ⟨-, credited⟩ := ConfidentialTransferAccount.deposit_some deposited
    obtain ⟨pending, available⟩ := deposit_pending deposited
    refine ⟨?_, ?_, (credit_synced credited).mpr balanced.synced, keyed, spends⟩
    · simp only [pending, balanced.pending, tally, Event.credited]
    · simp only [available]
      exact balanced.available
  | receive received =>
    obtain ⟨transfer, same, credited⟩ := ConfidentialTransferAccount.transferIn_some received
    obtain rfl := ProofContext.validity.inj same
    obtain ⟨pending, available⟩ := credit_pending credited
    refine ⟨?_, ?_, (credit_synced credited).mpr balanced.synced, keyed, spends⟩
    · simp only [pending, balanced.pending, tally, Event.credited, TransferAmount.credit]
    · simp only [available]
      exact balanced.available
  | apply executes =>
    obtain ⟨-, moved, none, -⟩ := executes.apply_effect
    refine ⟨none, ?_, executes.synced honest, keyed, spends⟩
    have available := balanced.available
    have pending := balanced.pending
    simp only [State.spent, tally] at available ⊢
    omega
  | read task =>
    refine ⟨?_, ?_, balanced.synced, keyed, spends⟩
    · simpa [tally, Event.credited] using balanced.pending
    · have available := balanced.available
      simpa [State.spent, Phase.spent, tally] using available
  | @land run task snapshot account seen waiting executes =>
    have isSpend := balanced.spends _ _ _ (List.mem_of_getElem? waiting)
    obtain ⟨synced, taken, pending, -⟩ := spend_effect honest isSpend balanced.keyed executes
    refine ⟨?_, ?_, synced, keyed, spends⟩
    · simpa [tally, Event.credited, pending] using balanced.pending
    · have counted := spent_set (.landed task) waiting
      have available := balanced.available
      simp only [State.spent, Phase.spent, tally] at counted available ⊢
      omega
  | @fail run task snapshot seen waiting =>
    refine ⟨?_, ?_, balanced.synced, keyed, spends⟩
    · simpa [tally, Event.credited] using balanced.pending
    · have counted := spent_set (.failed task) waiting
      have available := balanced.available
      simp only [State.spent, Phase.spent, tally] at counted available ⊢
      omega
  | @finish run task ok landed =>
    refine ⟨?_, ?_, balanced.synced, keyed, spends⟩
    · simpa [tally, Event.credited] using balanced.pending
    · have counted := spent_set (.returned task ok) landed
      have available := balanced.available
      simp only [State.spent, Phase.spent, tally] at counted available ⊢
      omega

/-- Every sequence of events without an overlapping apply keeps the account balanced. -/
theorem run_balanced (honest : Honest sdk cluster) {events : List Event}
    (alone : ∀ event ∈ events, event ≠ .read .apply)
    (ran : state.run sdk cluster keys events = some state')
    (balanced : Balanced keys counts state) :
    Balanced keys (events.foldl tally counts) state' := by
  induction events generalizing state counts with
  | nil =>
    obtain rfl := Option.some.inj ran
    exact balanced
  | cons event rest ih =>
    obtain ⟨next, stepped, remaining⟩ := Option.bind_eq_some_iff.mp ran
    exact ih (fun later member => alone later (List.mem_cons_of_mem _ member)) remaining
      (step_balanced honest (alone event List.mem_cons_self) stepped balanced)

/-- Whether a run has landed. -/
def State.hasLanded (state : State) (run : Nat) : Bool := state.runs[run]?.any Phase.hasLanded

/-- Replacing a phase says anew whether its run has landed. -/
theorem hasLanded_set {run : Nat} {phase phase' : Phase} (held : state.runs[run]? = some phase)
    (account : ConfidentialTransferAccount) (landings other : Nat) :
    State.hasLanded ⟨account, state.runs.set run phase', landings⟩ other =
      if other = run then phase'.hasLanded else state.hasLanded other := by
  obtain ⟨inside, -⟩ := List.getElem?_eq_some_iff.mp held
  by_cases same : other = run
  · subst same
    simp [State.hasLanded, inside]
  · simp [State.hasLanded, same, Ne.symm same]

/-- A run lands by its landing event, once. -/
theorem step_hasLanded {event : Event} (run : Nat)
    (stepped : state.step sdk cluster keys event = some state') :
    (state.hasLanded run).toNat + [event].count (.land run) = (state'.hasLanded run).toNat := by
  cases step_cases stepped with
  | deposit deposited => simp [State.hasLanded]
  | receive received => simp [State.hasLanded]
  | apply executes => simp [State.hasLanded]
  | read task =>
    simp only [State.hasLanded, List.getElem?_append]
    split
    · simp
    · rename_i beyond
      have none : state.runs[run]? = none := List.getElem?_eq_none (by omega)
      rw [none, List.getElem?_singleton]
      split <;> simp [Phase.hasLanded]
  | @land run' task snapshot account seen waiting executes =>
    rw [hasLanded_set waiting]
    by_cases same : run = run'
    · subst same
      simp [State.hasLanded, waiting, Phase.hasLanded]
    · simp [same, Ne.symm same]
  | @fail run' task snapshot seen waiting =>
    rw [hasLanded_set waiting]
    by_cases same : run = run'
    · subst same
      simp [State.hasLanded, waiting, Phase.hasLanded]
    · simp [same]
  | @finish run' task ok landed =>
    rw [hasLanded_set landed]
    by_cases same : run = run'
    · subst same
      simp [State.hasLanded, landed, Phase.hasLanded]
    · simp [same]

/-- A run lands at most once, and has landed when it did. -/
theorem run_hasLanded {events : List Event} (run : Nat)
    (ran : state.run sdk cluster keys events = some state') :
    (state.hasLanded run).toNat + events.count (.land run) = (state'.hasLanded run).toNat := by
  induction events generalizing state with
  | nil =>
    obtain rfl := Option.some.inj ran
    simp
  | cons event rest ih =>
    obtain ⟨next, stepped, remaining⟩ := Option.bind_eq_some_iff.mp ran
    have first := step_hasLanded run stepped
    have later := ih remaining
    rw [← List.singleton_append, List.count_append]
    omega

/-- What was spent, run by run. -/
theorem spent_eq (state : State) :
    state.spent = ((List.range state.runs.length).map fun run =>
      (state.hasLanded run).toNat * (state.runs[run]?).elim 0 (·.task.amount)).sum := by
  have each : state.runs.map Phase.spent = (List.range state.runs.length).map fun run =>
      (state.hasLanded run).toNat * (state.runs[run]?).elim 0 (·.task.amount) := by
    refine List.ext_getElem (by simp) fun run inside _ => ?_
    rw [List.length_map] at inside
    simp [State.hasLanded, Phase.spent_eq, inside]
  rw [State.spent, each]

/-- Of any number of overlapping spends of a new account, with credits and whole applies between
their reads and their landings: what is available and what landed spends took is what was applied,
and both representations agree. A spend that returned a value has landed once and one that failed
before landing never; each takes its amount as often as it landed. -/
theorem overlap_conserved (sdk : Sdk) (cluster : Cluster) (honest : Honest sdk cluster)
    (keys : ConfidentialKeys) (approved : Bool) (events : List Event) (finish : State)
    (alone : ∀ event ∈ events, event ≠ .read .apply)
    (ran : (State.start (newAccount keys approved)).run sdk cluster keys events = some finish) :
    finish.account.availableBalance.amount + finish.spent = (events.foldl tally (0, 0)).2 ∧
    finish.account.pendingAmount = (events.foldl tally (0, 0)).1 ∧
    Synced keys finish.account ∧
    finish.spent = ((List.range finish.runs.length).map fun run =>
      events.count (.land run) * (finish.runs[run]?).elim 0 (·.task.amount)).sum ∧
    (∀ run task, finish.runs[run]? = some (.returned task true) → events.count (.land run) = 1) ∧
    ∀ run task, finish.runs[run]? = some (.failed task) → events.count (.land run) = 0 := by
  obtain ⟨keyed, synced⟩ := newAccount_keyed keys approved
  have start : Balanced keys (0, 0) (.start (newAccount keys approved)) :=
    ⟨rfl, rfl, synced, keyed, by simp [SpendsWait, State.start]⟩
  have balanced := run_balanced honest alone ran start
  have landed (run : Nat) : events.count (.land run) = (finish.hasLanded run).toNat := by
    have counted := run_hasLanded run ran
    simpa [State.start, State.hasLanded] using counted
  refine ⟨balanced.available, balanced.pending, balanced.synced, ?_, ?_, ?_⟩
  · simp only [landed]
    exact spent_eq finish
  · intro run task returned
    rw [landed, State.hasLanded, returned]
    rfl
  · intro run task failed
    rw [landed, State.hasLanded, failed]
    rfl

/-- Two transfers and a withdraw read the same balance; the second one to land finds it changed. -/
def overlappedSpends : List Event :=
  [.deposit 10, .apply, .read (.transfer 3 (.other 0) none), .deposit 5, .read (.withdraw 4),
    .land 1, .fail 0, .apply, .read (.transfer 3 (.other 0) none), .land 2, .finish 2 true]

/-- What is left is eight of fifteen. -/
theorem overlap_conserved_spends : ∃ finish,
    State.new.run Sdk.ideal Cluster.ideal ownerKeys overlappedSpends = some finish ∧
      finish.account.availableBalance.amount + finish.spent = 15 ∧ finish.spent = 7 := by
  have runs : (idealRun overlappedSpends).map State.spent = some 7 := by decide +kernel
  obtain ⟨finish, ran, spent⟩ := Option.map_eq_some_iff.mp runs
  have conserved := overlap_conserved Sdk.ideal Cluster.ideal honest_ideal ownerKeys true
    overlappedSpends finish (by decide) ran
  exact ⟨finish, ran, conserved.1, spent⟩

end Conservation

end ConfidentialBalances.Overlap
