import ConfidentialBalances.Concurrency
import ConfidentialBalances.JobComputation

/-!
# What calls do when jobs interleave

A call computes its transaction from what it read, and lands it later, among
the transactions of other jobs. These leave the accounts that the call set up
alone, so what lands is what the call computed, carried out on the account as
it then is. A job that makes one call moves tokens once at most, and exactly
once if it returns a value.
-/

namespace ConfidentialBalances

open Effect System

/-! ## What a call does from a snapshot -/

/-- What a call does to token accounts when its one token transaction lands, computed from a ledger
that it read earlier. -/
def Operation.AchievedFrom (sdk : Sdk) (cluster : Cluster) (read before after : Ledger) :
    Operation → Prop
  | .applyPending _ authority mint =>
    ∃ snapshot extension extension' amount',
      read.confidential? (getAssociatedTokenAddress authority.pubkey mint) = some snapshot ∧
      Executes sdk cluster authority.confidentialKeys snapshot .apply extension extension' ∧
      before.Changes after (getAssociatedTokenAddress authority.pubkey mint) extension extension'
        amount' amount'
  | .withdraw _ authority mint amount _ =>
    ∃ snapshot extension extension' amount',
      read.confidential? (getAssociatedTokenAddress authority.pubkey mint) = some snapshot ∧
      Executes sdk cluster authority.confidentialKeys snapshot (.withdraw amount) extension
        extension' ∧
      before.Changes after (getAssociatedTokenAddress authority.pubkey mint) extension extension'
        amount' (amount' + amount)
  | .transfer _ sender mint recipient amount _ =>
    ∃ snapshot middle extension extension' amount' recipientPubkey auditor,
      read.confidential? (getAssociatedTokenAddress sender.pubkey mint) = some snapshot ∧
      Executes sdk cluster sender.confidentialKeys snapshot
        (.transfer amount recipientPubkey auditor) extension extension' ∧
      before.Changes middle (getAssociatedTokenAddress sender.pubkey mint) extension extension'
        amount' amount' ∧
      ∃ transfer received received' received'', transfer.Carries amount ∧ amount < 2 ^ 48 ∧
        received.transferIn (.validity transfer) = some received' ∧
        middle.Changes after (getAssociatedTokenAddress recipient mint) received received'
          received'' received''
  | call => call.Achieved sdk cluster before after

/-- What a call is computed from, the job has read: its account, as it is in a ledger. Configuring
and depositing read none. -/
def Operation.ReadFrom (past : List (Exchange Reply)) (read : Ledger) : Operation → Prop
  | .configure _ _ _ => True
  | .deposit _ _ _ _ _ => True
  | call => ∃ snapshot, read.confidential? call.account = some snapshot ∧
    HasRead past call.account snapshot

section Achieves

variable {sdk : Sdk} {cluster : Cluster} {past : List (Exchange Reply)} {call : Operation}
variable {transaction : Transaction} {start before after : Ledger}

/-- A transaction that a call has computed from its history does what the call is for, on the
ledger that it lands on, wherever the other transactions since have left the job's own accounts
alone. -/
theorem computed_achieves (honest : Honest sdk cluster)
    (computed : call.Computed sdk cluster past transaction) (distinct : (keypairs past).Nodup)
    (amid : Ledger.Amid cluster (keypairs past) start (carried past) before)
    (landed : before.execTransaction cluster transaction = some after)
    {seen : Ledger → Prop} (here : seen before)
    (read : ∀ account snapshot, HasRead past account snapshot →
      ∃ ledger, seen ledger ∧ ledger.confidential? account = some snapshot) :
    ∃ ledger, seen ledger ∧ call.ReadFrom past ledger ∧
      call.AchievedFrom sdk cluster ledger before after := by
  cases computed with
  | configure index generated =>
    -- The plan speaks of a world only to name the account that is generated next.
    let named : World := ⟨before, [], index, [], []⟩
    have configured := configureTransaction_achieved honest generated
      (show before.execTransaction cluster (configureTransaction sdk cluster _ _ _ named _) =
        some after from landed)
    exact ⟨before, here, trivial, configured⟩
  | @deposit payer authority mint amount decimals =>
    have deposited : (Operation.deposit payer authority mint amount decimals).Achieved sdk cluster
        before after := depositTransaction_achieved landed
    exact ⟨before, here, trivial, deposited⟩
  | applyPending told computed =>
    obtain ⟨ledger, saw, held⟩ := read _ _ told
    obtain ⟨charged, same, executed⟩ := Ledger.execTransaction_single landed
    obtain ⟨token, extension, applied, data, confidential, accepted, -, rfl⟩ :=
      Ledger.applyPendingBalance_some executed
    have paid : before.Untouched charged := fun key => by rw [same]
    have changes := (Ledger.changes_setData applied data confidential token.amount).congr paid
      fun key => rfl
    exact ⟨ledger, saw, ⟨_, held, told⟩, _, extension, applied, token.amount, held,
      .apply computed accepted, changes⟩
  | withdraw told computed own setup =>
    obtain ⟨ledger, saw, held⟩ := read _ _ told
    obtain ⟨earlier, whole⟩ := setup
    rw [← whole] at amid
    obtain ⟨middle, -, later⟩ := amid.split
    obtain ⟨extension, extension', amount', executes, changes⟩ := WithdrawAccounts.executes computed
      (distinct.sublist own) (fun key member => own.subset member) later landed
    exact ⟨ledger, saw, ⟨_, held, told⟩, _, extension, extension', amount', held, executes,
      changes⟩
  | transfer told generated covers own setup =>
    obtain ⟨ledger, saw, held⟩ := read _ _ told
    obtain ⟨earlier, whole⟩ := setup
    rw [← whole] at amid
    obtain ⟨start, -, later⟩ := amid.split
    obtain ⟨middle, extension, extension', amount', executes, out, into⟩ :=
      TransferAccounts.executes honest generated covers (distinct.sublist own)
        (fun key member => own.subset member) later landed
    exact ⟨ledger, saw, ⟨_, held, told⟩, _, middle, extension, extension', amount', _, _, held,
      executes, out, into⟩

end Achieves

/-! ## Runs together -/

section Together

variable {ι : Type} [DecidableEq ι] {sdk : Sdk} {cluster : Cluster} {s : AppState} {port : Nat}
variable {jobs : ι → Job} {world middle world' : World} {trace : List (ι × Exchange Reply)}
variable {pool : ι → Client Answer} {thread : ι}

/-- What an answered request confirms, it has carried out; otherwise it leaves the ledger alone. -/
theorem chain_carries {request : Call} {reply : Reply request} {after : World}
    (answered : (chainSystem cluster).step middle request reply after) :
    (carried [⟨request, reply⟩] = [] ∧ after.ledger = middle.ledger) ∨
    ∃ transaction, request = .sendAndConfirmTransaction transaction ∧
      carried [⟨request, reply⟩] = [transaction] ∧
      middle.ledger.execTransaction cluster transaction = some after.ledger := by
  obtain ⟨choice, answer⟩ := answered
  cases request with
  | sendAndConfirmTransaction transaction =>
    rcases chain_send cluster middle transaction choice with ⟨message, refused⟩ |
      ⟨ledger, executed, lands⟩
    · obtain ⟨rfl, rfl⟩ := Prod.mk.inj (refused.symm.trans answer)
      exact .inl ⟨rfl, rfl⟩
    · obtain ⟨rfl, rfl⟩ := Prod.mk.inj (lands.symm.trans answer)
      exact .inr ⟨transaction, rfl, rfl, executed⟩
  | _ => cases choice <;> obtain ⟨rfl, rfl⟩ := Prod.mk.inj answer <;> exact .inl ⟨rfl, rfl⟩

/-- Every reply in a run together keeps what the chain answers. -/
theorem together_answers (cluster : Cluster) (world : World) (programs : ι → Client Answer) :
    Interleaves.Promises (chainSystem cluster) LogLocked world programs
      fun _ => Call.Answered cluster :=
  fun _ _ _ _ _ _ _ _ answered => chain_answers cluster _ _ _ _ answered

/-- Every job keeps to its role in a run together. -/
theorem RunTogether.computes (run : RunTogether sdk cluster s port jobs world trace world' pool)
    (thread : ι) : (pool thread).Leads (fun _ => Call.Answered cluster)
      (((jobs thread).role s).Allows sdk cluster)
      (EndsWith (fun _ => ((jobs thread).role s).Fulfilled sdk cluster)
        fun done => (jobs thread).mayFailAfterMoving = false → moving done = [])
      (localTo thread trace) :=
  run.leads (together_answers cluster world _)
    (fun thread => computes_job sdk s cluster port (jobs thread) [] (List.Sublist.refl _) rfl)
    thread

/-- The transactions of a job land among those of others, which leave alone any generated accounts
that are no other job's. -/
theorem RunTogether.amid (run : RunTogether sdk cluster s port jobs world trace world' pool)
    {owned : List Pubkey} (apart : ∀ key ∈ owned, (∃ index, key = .generated index) ∧
      ∀ other, other ≠ thread → key ∉ keypairs (localTo other trace)) :
    Ledger.Amid cluster owned world.ledger (carried (localTo thread trace)) world'.ledger := by
  induction run with
  | here => exact .done fun _ _ => rfl
  | @step trace middle pool actor request next reply after earlier here free answered ih =>
    have apartBefore : ∀ key ∈ owned, (∃ index, key = .generated index) ∧
        ∀ other, other ≠ thread → key ∉ keypairs (localTo other trace) := by
      intro key own
      obtain ⟨generated, foreign⟩ := apart key own
      refine ⟨generated, fun other elsewhere theirs => foreign other elsewhere ?_⟩
      rw [localTo_append, keypairs_append]
      exact List.mem_append_left _ theirs
    have before := ih apartBefore
    by_cases mine : actor = thread
    · subst mine
      rw [localTo_own, carried_append]
      rcases chain_carries answered with ⟨none, same⟩ | ⟨transaction, -, one, landed⟩
      · rw [none, List.append_nil]
        exact before.others fun key _ => by rw [same]
      · rw [one]
        exact before.snoc landed
    · rw [localTo_other mine]
      refine before.others fun key own => ?_
      obtain ⟨⟨index, rfl⟩, foreign⟩ := apartBefore key own
      rcases chain_carries answered with ⟨-, same⟩ | ⟨transaction, rfl, -, landed⟩
      · rw [same]
      · have conducts := RunTogether.conducts earlier actor
        rw [here] at conducts
        obtain ⟨-, proper, -⟩ := conducts.1
        have untouched := proper.private (foreign actor mine)
        exact Ledger.execTransaction_data landed fun instruction member =>
          (untouched instruction member).1

/-- In particular a job's own accounts. -/
theorem RunTogether.amid_own (run : RunTogether sdk cluster s port jobs world trace world' pool)
    (thread : ι) : Ledger.Amid cluster (keypairs (localTo thread trace)) world.ledger
      (carried (localTo thread trace)) world'.ledger :=
  run.amid fun _ own => ⟨run.generated own, fun _ elsewhere => run.keypairs_disjoint elsewhere own⟩

/-- No keypair is given twice. -/
theorem RunTogether.keypairs_nodup
    (run : RunTogether sdk cluster s port jobs world trace world' pool) (thread : ι) :
    (keypairs (localTo thread trace)).Nodup := by
  have whole : (keypairs (trace.map Prod.snd)).Nodup := by
    rw [run.recorded.keypairs]
    exact (List.nodup_range').map fun _ _ same => Pubkey.generated.inj same
  exact whole.sublist ((localTo_sublist thread trace).filterMap Exchange.keypair?)

/-- A ledger that a run has been at: some of its transactions have landed. -/
def WasAt (cluster : Cluster) (start : Ledger) (landed : List Transaction) (ledger : Ledger) :
    Prop :=
  ∃ earlier, earlier <+: landed ∧ start.execTransactions cluster earlier = some ledger

/-- What was read in a run, the ledger held at some point. -/
structure RecordedReads (cluster : Cluster) (start : World) (all : List (Exchange Reply))
    (world : World) : Prop where
  /-- The world records the run. -/
  recorded : Recorded cluster start all world
  /-- Each account that was read was so at a ledger on the way. -/
  reads : ∀ account token,
    (⟨.getAccount account, Except.ok (.token token)⟩ : Exchange Reply) ∈ all →
      ∃ ledger, WasAt cluster start.ledger (carried all) ledger ∧ ledger.data account = .token token

/-- One more answer, and every read is still of a ledger on the way. -/
theorem RecordedReads.step {start after : World} {all : List (Exchange Reply)} {request : Call}
    {reply : Reply request} (readFrom : RecordedReads cluster start all middle)
    (answered : (chainSystem cluster).step middle request reply after) :
    RecordedReads cluster start (all ++ [⟨request, reply⟩]) after := by
  have grown : carried all <+: carried (all ++ [⟨request, reply⟩]) := by
    rw [carried_append]
    exact List.prefix_append _ _
  refine ⟨readFrom.recorded.step answered, fun account token member => ?_⟩
  rcases List.mem_append.mp member with before | now
  · obtain ⟨ledger, ⟨landed, within, ran⟩, held⟩ := readFrom.reads account token before
    exact ⟨ledger, ⟨landed, within.trans grown, ran⟩, held⟩
  · obtain ⟨rfl, same⟩ := Sigma.mk.inj (List.mem_singleton.mp now)
    obtain rfl := eq_of_heq same
    obtain ⟨choice, answer⟩ := answered
    refine ⟨middle.ledger, ⟨carried all, grown, readFrom.recorded.ledger⟩, ?_⟩
    cases choice with
    | succeed => exact Ledger.fetch_ok (Prod.mk.inj answer).1
    | fail message => exact absurd (Prod.mk.inj answer).1 (by simp)

/-- What a job was told of an account, the account held at some point. -/
theorem RunTogether.saw (run : RunTogether sdk cluster s port jobs world trace world' pool)
    {account : Pubkey} {snapshot : ConfidentialTransferAccount}
    (told : HasRead (localTo thread trace) account snapshot) :
    ∃ ledger, WasAt cluster world.ledger (carried (trace.map Prod.snd)) ledger ∧
      ledger.confidential? account = some snapshot := by
  have readFrom : RecordedReads cluster world (trace.map Prod.snd) world' :=
    run.records ⟨.refl cluster world, by simp⟩ fun _ _ _ _ _ earlier answered =>
      earlier.step answered
  obtain ⟨token, member, held⟩ := told
  obtain ⟨ledger, was, data⟩ := readFrom.reads account token
    ((localTo_sublist thread trace).subset member)
  exact ⟨ledger, was, by simp [Ledger.confidential?, data, AccountData.token?, held]⟩

/-- What a transaction does that a job lands. -/
inductive Performed (sdk : Sdk) (cluster : Cluster) (role : Role) (past : List (Exchange Reply))
    (seen : Ledger → Prop) (before after : Ledger) (transaction : Transaction) : Prop
  /-- A transaction that writes no token account. -/
  | quiet (still : transaction.moves = false) :
      Performed sdk cluster role past seen before after transaction
  /-- A transaction that opens an account, of a job that prepares some. -/
  | opens (several : role.calls = .several) (opens : OpensAccount transaction) :
      Performed sdk cluster role past seen before after transaction
  /-- A transaction that carries out a call, computed from a ledger seen before, of which the job
  has read the account. -/
  | carries (call : Operation) (may : role.may call) {read : Ledger} (saw : seen read)
      (knew : call.ReadFrom past read)
      (achieved : call.AchievedFrom sdk cluster read before after) :
      Performed sdk cluster role past seen before after transaction

/-- Whatever a job lands in a run together, it does by its role, and a job that makes one call has
moved nothing before. -/
theorem RunTogether.lands (honest : Honest sdk cluster)
    (run : RunTogether sdk cluster s port jobs world trace middle pool)
    {transaction : Transaction} {after : Ledger}
    {next : Reply (.sendAndConfirmTransaction transaction) → Client Answer}
    (here : pool thread = .call (.sendAndConfirmTransaction transaction) next)
    (landed : middle.ledger.execTransaction cluster transaction = some after) :
    Performed sdk cluster ((jobs thread).role s) (localTo thread trace)
        (WasAt cluster world.ledger (carried (trace.map Prod.snd))) middle.ledger after
        transaction ∧
      (transaction.moves = true → ((jobs thread).role s).calls = .one →
        moving (carried (localTo thread trace)) = []) := by
  have computes := run.computes thread
  rw [here] at computes
  have performs : Performs sdk cluster ((jobs thread).role s) (localTo thread trace) transaction :=
    computes.1
  cases performs with
  | quiet still =>
    refine ⟨.quiet still, fun moves _ => ?_⟩
    exact absurd (still.symm.trans moves) Bool.false_ne_true
  | opens several opens =>
    refine ⟨.opens several opens, fun _ single => ?_⟩
    exact absurd (several.symm.trans single) (by simp)
  | carries call may computed alone =>
    have now : WasAt cluster world.ledger (carried (trace.map Prod.snd)) middle.ledger :=
      ⟨_, List.prefix_rfl, run.recorded.ledger⟩
    obtain ⟨read, saw, knew, achieved⟩ := computed_achieves honest computed
      (run.keypairs_nodup thread) (run.amid_own thread) landed now
      fun account snapshot told => run.saw told
    exact ⟨.carries call may saw knew achieved, fun _ => alone⟩

/-- Every landed transaction was landed by a job, and did what its role says to the ledger that it
found. -/
theorem RunTogether.performed (honest : Honest sdk cluster)
    (run : RunTogether sdk cluster s port jobs world trace world' pool)
    {earlier later : List Transaction} {transaction : Transaction} {before : Ledger}
    (split : carried (trace.map Prod.snd) = earlier ++ transaction :: later)
    (ran : world.ledger.execTransactions cluster earlier = some before) :
    ∃ thread past after, before.execTransaction cluster transaction = some after ∧
      Performed sdk cluster ((jobs thread).role s) past (WasAt cluster world.ledger earlier) before
        after transaction := by
  induction run generalizing later with
  | here => simp at split
  | @step trace middle pool actor request next reply after earlierRun here free answered ih =>
    simp only [List.map_append, List.map_cons, List.map_nil, carried_append] at split
    rcases chain_carries answered with ⟨none, -⟩ | ⟨last, rfl, one, landed⟩
    · rw [none, List.append_nil] at split
      exact ih split
    rw [one] at split
    rcases List.eq_nil_or_concat' later with rfl | ⟨init, final, rfl⟩
    · obtain ⟨rfl, same⟩ := List.append_inj' split rfl
      obtain rfl := List.singleton_inj.mp same
      have found : some before = some middle.ledger :=
        ran.symm.trans (RunTogether.recorded earlierRun).ledger
      obtain rfl := Option.some.inj found
      exact ⟨actor, _, _, landed, (RunTogether.lands honest earlierRun here landed).1⟩
    · have regrouped : carried (trace.map Prod.snd) ++ [last] =
          (earlier ++ transaction :: init) ++ [final] := by
        simpa using split
      exact ih (List.append_inj' regrouped rfl).1

/-- Among some landed transactions, a call's was carried out on the ledger that it found, computed
from a ledger that the run had been at before and whose account the job had read before it submitted
the transaction. -/
def Operation.ActedIn (sdk : Sdk) (cluster : Cluster) (start : Ledger) (landed : List Transaction)
    (exchanges : List (Exchange Reply)) (transaction : Transaction) (call : Operation) : Prop :=
  ∃ earlier later read before after past reply, landed = earlier ++ transaction :: later ∧
    start.execTransactions cluster earlier = some before ∧
    before.execTransaction cluster transaction = some after ∧
    past ++ [⟨.sendAndConfirmTransaction transaction, reply⟩] <+: exchanges ∧
    WasAt cluster start earlier read ∧ call.ReadFrom past read ∧
    call.AchievedFrom sdk cluster read before after

/-- A call that was carried out among some transactions stays so when more land and its job goes
on. -/
theorem Operation.ActedIn.grown {start : Ledger} {landed more : List Transaction}
    {exchanges exchanges' : List (Exchange Reply)} {transaction : Transaction} {call : Operation}
    (acted : call.ActedIn sdk cluster start landed exchanges transaction)
    (goesOn : exchanges <+: exchanges') :
    call.ActedIn sdk cluster start (landed ++ more) exchanges' transaction := by
  obtain ⟨earlier, later, read, before, after, past, reply, rfl, ran, executed, within, was, knew,
    achieved⟩ := acted
  exact ⟨earlier, later ++ more, read, before, after, past, reply, by simp, ran, executed,
    within.trans goesOn, was, knew, achieved⟩

/-- Step by step: a job that makes one call moves tokens at most once, by that call. -/
theorem RunTogether.moves_once (honest : Honest sdk cluster)
    (run : RunTogether sdk cluster s port jobs world trace world' pool)
    (single : ((jobs thread).role s).calls = .one) :
    (moving (carried (localTo thread trace))).length ≤ 1 ∧
    ∀ transaction ∈ moving (carried (localTo thread trace)),
      ∃ call, ((jobs thread).role s).may call ∧
        call.ActedIn sdk cluster world.ledger (carried (trace.map Prod.snd))
          (localTo thread trace) transaction := by
  induction run with
  | here => simp [localTo]
  | @step trace middle pool actor request next reply after earlier here free answered ih =>
    obtain ⟨atMost, acted⟩ := ih
    simp only [List.map_append, List.map_cons, List.map_nil, carried_append]
    have still (same : moving (carried (localTo thread (trace ++ [(actor, ⟨request, reply⟩)]))) =
        moving (carried (localTo thread trace))) :
        (moving (carried (localTo thread (trace ++ [(actor, ⟨request, reply⟩)])))).length ≤ 1 ∧
        ∀ transaction ∈ moving (carried (localTo thread (trace ++ [(actor, ⟨request, reply⟩)]))),
          ∃ call, ((jobs thread).role s).may call ∧ call.ActedIn sdk cluster world.ledger
            (carried (trace.map Prod.snd) ++ carried [⟨request, reply⟩])
            (localTo thread (trace ++ [(actor, ⟨request, reply⟩)])) transaction := by
      rw [same]
      refine ⟨atMost, fun transaction member => ?_⟩
      obtain ⟨call, may, before⟩ := acted transaction member
      refine ⟨call, may, before.grown ?_⟩
      rw [localTo_append]
      exact List.prefix_append _ _
    by_cases mine : actor = thread
    · subst mine
      rcases chain_carries answered with ⟨none, -⟩ | ⟨transaction, rfl, one, landed⟩
      · exact still (by rw [localTo_own, carried_append, none, List.append_nil])
      obtain ⟨did, alone⟩ := RunTogether.lands honest earlier here landed
      by_cases moves : transaction.moves = true
      · -- Its first: nothing of this job's has moved tokens before.
        have first : moving (carried (localTo actor (trace ++
            [(actor, ⟨.sendAndConfirmTransaction transaction, reply⟩)]))) = [transaction] := by
          rw [localTo_own, carried_append, one, moving_append, alone moves single]
          simp [moving, moves]
        rw [first, one]
        refine ⟨le_rfl, fun other member => ?_⟩
        obtain rfl := List.mem_singleton.mp member
        cases did with
        | quiet still => exact absurd (still.symm.trans moves) Bool.false_ne_true
        | opens several => exact absurd (several.symm.trans single) (by simp)
        | carries call may saw knew achieved =>
          refine ⟨call, may, _, [], _, _, _, _, reply, rfl, (RunTogether.recorded earlier).ledger,
            landed, ?_, saw, knew, achieved⟩
          rw [localTo_own]
      · refine still ?_
        rw [localTo_own, carried_append, one, moving_still (Bool.eq_false_iff.mpr moves)]
    · exact still (by rw [localTo_other mine])

/-- When a job returns a value, it has fulfilled its role. -/
theorem RunTogether.fulfilled (run : RunTogether sdk cluster s port jobs world trace world' pool)
    {answer : Answer} (returned : pool thread = .done (.ok answer)) :
    ((jobs thread).role s).Fulfilled sdk cluster (carried (localTo thread trace)) := by
  have ended := run.computes thread
  rw [returned] at ended
  exact ended

/-- When a job that makes one call returns a value, it has landed that call whole, and nothing
else. -/
theorem RunTogether.finished (run : RunTogether sdk cluster s port jobs world trace world' pool)
    (single : ((jobs thread).role s).calls = .one) {answer : Answer}
    (returned : pool thread = .done (.ok answer)) :
    ∃ call, ((jobs thread).role s).may call ∧
      call.Finished sdk cluster (carried (localTo thread trace)) := by
  have fulfilled := run.fulfilled returned
  rwa [Role.Fulfilled, single] at fulfilled

/-- When a job that makes one call returns a value, it has moved tokens once. -/
theorem RunTogether.moved (run : RunTogether sdk cluster s port jobs world trace world' pool)
    (single : ((jobs thread).role s).calls = .one) {answer : Answer}
    (returned : pool thread = .done (.ok answer)) :
    (moving (carried (localTo thread trace))).length = 1 := by
  obtain ⟨call, -, finished⟩ := run.finished single returned
  exact finished.moving_one

/-- A job that cannot fail after moving tokens has moved none when it fails. -/
theorem RunTogether.unmoved (run : RunTogether sdk cluster s port jobs world trace world' pool)
    (early : (jobs thread).mayFailAfterMoving = false) {outcome : Outcome ClientError Answer}
    (finished : pool thread = .done outcome) (failed : outcome.isOk = false) :
    moving (carried (localTo thread trace)) = [] := by
  have ended := run.computes thread
  rw [finished] at ended
  cases outcome with
  | ok answer => exact absurd failed (by simp [Outcome.isOk])
  | error reason => exact ended early
  | panic message => exact ended early

/-- However any jobs interleave: a job that makes one call moves tokens in one transaction at most,
in exactly one if it returned a value, and in none if it failed and cannot fail after moving tokens;
and that transaction did to the ledger that it found what the call computed from its account in an
earlier ledger of the run, which the job had read before. -/
theorem calls_move_once (honest : Honest sdk cluster)
    (run : RunTogether sdk cluster s port jobs world trace world' pool) (thread : ι)
    (single : ((jobs thread).role s).calls = .one) :
    (moving (carried (localTo thread trace))).length ≤ 1 ∧
    (∀ answer, pool thread = .done (.ok answer) →
      (moving (carried (localTo thread trace))).length = 1) ∧
    ((jobs thread).mayFailAfterMoving = false → ∀ outcome, pool thread = .done outcome →
      outcome.isOk = false → moving (carried (localTo thread trace)) = []) ∧
    ∀ transaction ∈ moving (carried (localTo thread trace)),
      ∃ call, ((jobs thread).role s).may call ∧
        call.ActedIn sdk cluster world.ledger (carried (trace.map Prod.snd))
          (localTo thread trace) transaction := by
  obtain ⟨atMost, acted⟩ := run.moves_once honest single
  exact ⟨atMost, fun answer finished => run.moved single finished,
    fun early outcome finished failed => run.unmoved early finished failed, acted⟩

/-- A transfer in turns with an apply: each has moved tokens once. -/
theorem calls_move_once_demo :
    (moving (carried (localTo true (demoTogether 120).1))).length = 1 ∧
    (moving (carried (localTo false (demoTogether 120).1))).length = 1 := by
  have once (thread : Bool)
      (finished : (answered? ((demoTogether 120).2.2 thread)).isSome = true) :
      (moving (carried (localTo thread (demoTogether 120).1))).length = 1 := by
    obtain ⟨answer, found⟩ := Option.isSome_iff_exists.mp finished
    have single : ((demoJobs thread).role AppState.demo).calls = .one := by cases thread <;> rfl
    have conserved := calls_move_once honest_ideal (demoTogether_runs 120) thread single
    exact conserved.2.1 answer (answered?_eq_some found)
  exact ⟨once true (by decide +kernel), once false (by decide +kernel)⟩

end Together

end ConfidentialBalances
