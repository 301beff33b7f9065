import ConfidentialBalances.Concurrency
import ConfidentialBalances.JobReports

/-!
# The progress channel of many jobs

All requests of a server send their events on one channel. However they
interleave, the signatures that go over it are of transactions that landed, none
is announced twice, what one job says that it is done with is all that it was
told, and how its part of the events ends goes with how the job ended.
-/

namespace ConfidentialBalances

open Effect System

section Together

variable {ι : Type} [DecidableEq ι] {sdk : Sdk} {cluster : Cluster} {s : AppState} {port : Nat}
variable {jobs : ι → Job} {world world' : World} {trace : List (ι × Exchange Reply)}
variable {pool : ι → Client Answer}

/-- Every request to sign in a run together is answered by the transaction alone. -/
theorem together_kept (cluster : Cluster) (world : World) (programs : ι → Client Answer) :
    Interleaves.Promises (chainSystem cluster) LogLocked world programs fun _ => Call.Kept :=
  fun _ _ _ _ _ _ _ _ answered => chain_kept cluster _ _ _ _ answered

/-- Every job has announced faithfully. -/
theorem RunTogether.faithful (run : RunTogether sdk cluster s port jobs world trace world' pool)
    (thread : ι) : Faithful (localTo thread trace) := by
  let property (trace : List (ι × Exchange Reply)) (_ : World) (_ : ι → Client Answer) : Prop :=
    ∀ thread, Faithful (localTo thread trace)
  have kept : property trace world' pool := by
    refine Interleaves.keeps run (together_kept cluster world _)
      (fun thread => leads_job sdk s port (jobs thread)) (fun _ => .nil) ?_
    intro trace middle pool thread request next reply after _ kept _ _ may _ other
    rcases eq_or_ne other thread with rfl | apart
    · rw [localTo_own]
      exact (kept other).step may reply
    · rw [localTo_other apart.symm]
      exact kept other
  exact kept thread

/-- A signature that a job was told names the transaction that it was told of. -/
theorem RunTogether.told_landed
    (run : RunTogether sdk cluster s port jobs world trace world' pool) {thread : ι}
    {sig : Signature} (told : sig ∈ confirmed (localTo thread trace)) :
    ∃ transaction ∈ carried (localTo thread trace),
      world'.landed[sig.position]? = some transaction := by
  obtain ⟨⟨request, reply⟩, member, found⟩ := List.mem_filterMap.mp told
  cases request with
  | sendAndConfirmTransaction transaction =>
    cases reply with
    | ok given =>
      obtain rfl : given = sig := by simpa [Exchange.confirmed?] using found
      refine ⟨transaction, List.mem_filterMap.mpr ⟨_, member, rfl⟩, ?_⟩
      refine run.recorded.named transaction given ?_
      exact (localTo_sublist thread trace).subset member
    | error reason => simp [Exchange.confirmed?] at found
  | _ => simp [Exchange.confirmed?] at found

/-- What an exchange announces. -/
def Exchange.announced? (exchange : Exchange Reply) : Option Signature :=
  (Exchange.sent? exchange).bind TransferProgress.signature?

/-- What is announced is read off the exchanges. -/
theorem announced_sent (all : List (Exchange Reply)) :
    announced (sent all) = all.filterMap Exchange.announced? := by
  rw [announced, sent, List.filterMap_filterMap]
  rfl

/-- An announced signature is of a transaction that landed and that the job was told of. -/
theorem RunTogether.announced_landed
    (run : RunTogether sdk cluster s port jobs world trace world' pool) {thread : ι}
    {sig : Signature} (said : sig ∈ announced (sent (localTo thread trace))) :
    ∃ transaction ∈ carried (localTo thread trace),
      world'.landed[sig.position]? = some transaction :=
  run.told_landed ((run.faithful thread).said.subset said)

/-- No signature is announced twice. -/
theorem RunTogether.announced_nodup
    (run : RunTogether sdk cluster s port jobs world trace world' pool) :
    (announced (sent (trace.map Prod.snd))).Nodup := by
  rw [announced_sent]
  refine nodup_of_localTo (fun thread => ?_) fun thread other apart => ?_
  · rw [← announced_sent]
    have told : (confirmed (localTo thread trace)).Nodup :=
      run.told_nodup.sublist ((localTo_sublist thread trace).filterMap _)
    exact told.sublist (run.faithful thread).said.sublist
  · rw [← announced_sent, ← announced_sent]
    have others := localTo_disjoint apart run.told_nodup
    exact List.disjoint_of_subset_left (run.faithful thread).said.subset
      (List.disjoint_of_subset_right (run.faithful other).said.subset others)

/-- However any jobs interleave: what went over the channel since are the jobs' events; every
announced signature is of a transaction that landed and that the job which announced it was told
of; none is announced twice; each job has announced the first signatures that it was told, in
order; and what it says that it is done with is all that it was told, with everything announced. -/
theorem announcements_account
    (run : RunTogether sdk cluster s port jobs world trace world' pool) :
    world'.progress = world.progress ++ sent (trace.map Prod.snd) ∧
      (announced (sent (trace.map Prod.snd))).Nodup ∧
      (∀ thread, ∀ sig ∈ announced (sent (localTo thread trace)),
        ∃ transaction ∈ carried (localTo thread trace),
          world'.landed[sig.position]? = some transaction) ∧
      (∀ thread, announced (sent (localTo thread trace)) <+: confirmed (localTo thread trace)) ∧
      ∀ thread sigs, .done sigs ∈ sent (localTo thread trace) →
        announced (sent (localTo thread trace)) = sigs ∧
          confirmed (localTo thread trace) = sigs := by
  refine ⟨run.recorded.progress, run.announced_nodup, fun _ _ said => run.announced_landed said,
    fun thread => (run.faithful thread).said, ?_⟩
  intro thread sigs done
  obtain ⟨said, told⟩ := (run.faithful thread).done sigs done
  exact ⟨said.trans told.symm, told.symm⟩

/-- The transfer's five signatures went over the channel next to the apply's one, and each said that
it was done with its own. -/
theorem announcements_account_demo :
    announced (sent (localTo true (demoTogether 120).1)) = [⟨1⟩, ⟨2⟩, ⟨3⟩, ⟨4⟩, ⟨5⟩] ∧
      confirmed (localTo true (demoTogether 120).1) = [⟨1⟩, ⟨2⟩, ⟨3⟩, ⟨4⟩, ⟨5⟩] ∧
      announced (sent (localTo false (demoTogether 120).1)) = [⟨0⟩] ∧
      (announced (sent ((demoTogether 120).1.map Prod.snd))).Nodup := by
  obtain ⟨-, distinct, -, -, all⟩ := announcements_account (demoTogether_runs 120)
  have transfer := all true [⟨1⟩, ⟨2⟩, ⟨3⟩, ⟨4⟩, ⟨5⟩] (by decide +kernel)
  have applied := all false [⟨0⟩] (by decide +kernel)
  exact ⟨transfer.1, transfer.2, applied.1, distinct⟩

/-- However any jobs interleave, how a job's part of the events ends goes with how it ended: a
request with a stream is answered once it said that it was done with exactly the signatures in the
answer, each announced before; it fails with the error said, except that a transfer's preflight
refuses silently and that a transfer which was done says nothing more. -/
theorem streams_end (run : RunTogether sdk cluster s port jobs world trace world' pool) (thread : ι)
    (outcome : Outcome ClientError Answer) (finished : pool thread = .done outcome) :
    (jobs thread).Stream outcome (localTo thread trace) := by
  have leads (thread : ι) := leads_job sdk s port (jobs thread)
  exact run.ended (together_kept cluster world _) leads finished

/-- Both requests were answered, and their streams say so. -/
theorem streams_end_demo :
    (∃ answer, (demoJobs true).Stream (.ok answer) (localTo true (demoTogether 120).1)) ∧
      ∃ answer, (demoJobs false).Stream (.ok answer) (localTo false (demoTogether 120).1) := by
  have ends (thread : Bool)
      (finished : (answered? ((demoTogether 120).2.2 thread)).isSome = true) :
      ∃ answer, (demoJobs thread).Stream (.ok answer) (localTo thread (demoTogether 120).1) := by
    obtain ⟨answer, found⟩ := Option.isSome_iff_exists.mp finished
    exact ⟨answer, streams_end (demoTogether_runs 120) thread _ (answered?_eq_some found)⟩
  exact ⟨ends true (by decide +kernel), ends false (by decide +kernel)⟩

end Together

end ConfidentialBalances
