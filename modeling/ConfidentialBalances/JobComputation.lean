import ConfidentialBalances.Computation

/-!
# What every job computes

The server's requests in the same terms as the library's calls. A request that
transfers or applies makes one call of the library; `init` opens accounts, mints
and makes several calls. What is read after the call, for the response, may fail
when the tokens have moved already.
-/

namespace ConfidentialBalances

open Effect

section Server

variable (sdk : Sdk) (s : AppState) (cluster : Cluster)

/-- The calls that an init makes. -/
inductive InitCall : Operation → Prop
  /-- Configuring the sender's account or the receiver's. -/
  | configure {owner : Wallet} (held : owner ∈ [s.keys.sender, s.keys.receiver]) :
      InitCall (.configure s.keys.payer owner s.mint)
  /-- Depositing what the sender lacks. -/
  | deposit (amount : Nat) :
      InitCall (.deposit s.keys.payer s.keys.sender s.mint amount s.cfg.mintDecimals)
  /-- Applying the deposit. -/
  | applyPending : InitCall (.applyPending s.keys.payer s.keys.sender s.mint)

/-- The one call that an apply request makes, if it names an owner. -/
inductive ApplyCall : String → Operation → Prop
  /-- For the sender. -/
  | sender : ApplyCall "sender" (.applyPending s.keys.payer s.keys.sender s.mint)
  /-- For the receiver. -/
  | receiver : ApplyCall "receiver" (.applyPending s.keys.payer s.keys.receiver s.mint)

/-- The call of an apply request applies for the owner that the request names. -/
theorem ApplyCall.named {account : String} {call : Operation} (may : ApplyCall s account call) :
    ∃ owner, call = .applyPending s.keys.payer owner s.mint ∧
      (account = "sender" ∧ owner = s.keys.sender ∨
        account = "receiver" ∧ owner = s.keys.receiver) := by
  cases may with
  | sender => exact ⟨_, rfl, .inl ⟨rfl, rfl⟩⟩
  | receiver => exact ⟨_, rfl, .inr ⟨rfl, rfl⟩⟩

/-- The role of a job. -/
def Job.role : Job → Role
  | .endpoint .health => ⟨fun _ => False, .none⟩
  | .endpoint .state => ⟨fun _ => False, .none⟩
  | .endpoint (.action .init) => ⟨InitCall s, .several⟩
  | .endpoint (.action (.transfer requested)) =>
    ⟨(· = .transfer s.keys.payer s.keys.sender s.mint s.keys.receiver.pubkey
      (s.requestedBase requested) .broadcast), .one⟩
  | .endpoint (.action (.applyPending account)) => ⟨ApplyCall s account, .one⟩
  | .operation call => ⟨(· = call), .one⟩

/-- What a job in this role has landed when it returns a value: nothing where it only reads, and its
call whole where it makes one. -/
def Role.Fulfilled (cluster : Cluster) (role : Role) (done : List Transaction) : Prop :=
  match role.calls with
  | .none => done = []
  | .one => ∃ call, role.may call ∧ call.Finished sdk cluster done
  | .several => True

/-- A job that may fail after it has moved tokens: a request, which reads the state for its
response, and a withdraw, which closes its accounts. -/
def Job.mayFailAfterMoving : Job → Bool
  | .endpoint (.action _) => true
  | .operation (.withdraw _ _ _ _ _) => true
  | _ => false

/-- An entry in the log first, which is never an error. -/
theorem computes_logEvent {α : Type} {role : Role} {failed : List Transaction → Prop}
    {told : List (Exchange Reply)} {done : List Transaction} {ok : α → List Transaction → Prop}
    {kind : String} {amountUi : ℚ} {sig : Signature} {rest : Unit → Client α}
    (second : Computes sdk cluster role failed told done ok (rest ())) :
    Computes sdk cluster role failed told done ok (logEvent kind amountUi sig >>= rest) := by
  refine computes_call (fun _ _ _ => trivial) fun log _ => ?_
  have read : done ++ carried [⟨.readEvents, log⟩] = done := List.append_nil done
  rw [read]
  refine computes_call (fun _ _ _ => trivial) fun written _ => ?_
  have wrote : done ++ carried [⟨.writeEvents ((⟨sig, kind, amountUi⟩ :: log).take
      recentEventsKeep), written⟩] = done := List.append_nil done
  rw [wrote]
  exact (second.remember (List.sublist_append_left _ _)).remember (List.sublist_append_left _ _)

section Init

variable {told : List (Exchange Reply)} {done : List Transaction}

/-- An init makes none but its own calls. -/
abbrev Inits {α : Type} (told : List (Exchange Reply)) (done : List Transaction)
    (program : Client α) : Prop :=
  Computes sdk cluster ⟨InitCall s, .several⟩ (fun _ => True) told done (fun _ _ => True) program

/-- A job that makes several calls may make one at any time. -/
theorem init_several : (⟨InitCall s, .several⟩ : Role).calls = .one → moving done = [] :=
  fun single => absurd single (by simp)

/-- Creating the mint writes no token account. -/
theorem inits_ensureMint : Inits sdk s cluster told done (ensureMint sdk s) := by
  refine computes_after (lenient_mintExists _).plain trivial fun found _ => ?_
  split
  · have creates : Inits sdk s cluster told done (createConfidentialMint sdk s) := by
      refine computes_rent trivial ?_
      exact (computes_sendTx (fun _ _ _ => .quiet rfl) trivial).weaken fun _ _ _ => trivial
    exact creates.bind fun sig _ _ => computes_pure trivial
  · exact computes_after (silent_verifyMintMatches s).plain trivial fun _ _ => computes_pure trivial

/-- An account is opened before it is configured. -/
theorem inits_ensureConfidentialAccount {owner : Wallet}
    (held : owner ∈ [s.keys.sender, s.keys.receiver]) :
    Inits sdk s cluster told done (ensureConfidentialAccount sdk s owner) := by
  refine computes_after (lenient_ataIsConfigured _).plain trivial fun found _ => ?_
  split
  · refine computes_sent (fun _ _ _ => .opens rfl .createAccount) trivial fun created => ?_
    have configures (done : List Transaction) : Inits sdk s cluster told done
        (configureAccountForConfidentialTransfers sdk s.keys.payer owner s.mint) :=
      (computes_configure sdk (InitCall.configure held) (init_several s) trivial).weaken
        fun _ _ _ => trivial
    exact ((configures _).mapError _).bind fun configured _ _ => computes_pure trivial
  · exact computes_pure trivial

/-- Minting is no call. -/
theorem inits_mintLacking (needed senderPublicBase : Nat) :
    Inits sdk s cluster told done (mintLacking s needed senderPublicBase) := by
  unfold mintLacking
  split
  · exact computes_sent (fun _ _ _ => .opens rfl .mintTo) trivial fun sig => computes_pure trivial
  · exact computes_pure trivial

/-- Funding deposits and applies. -/
theorem inits_fundSender (needed senderPublicBase : Nat) :
    Inits sdk s cluster told done (fundSender s needed senderPublicBase) := by
  have deposits (done : List Transaction) : Inits sdk s cluster told done
      (depositToConfidential s.keys.payer s.keys.sender s.mint needed s.cfg.mintDecimals) :=
    (computes_deposit sdk (InitCall.deposit needed) (init_several s) trivial).weaken
      fun _ _ _ => trivial
  have applies (done : List Transaction) : Inits sdk s cluster told done
      (applyPendingBalance s.keys.payer s.keys.sender s.mint) :=
    (computes_applyPending sdk InitCall.applyPending (init_several s) trivial).weaken
      fun _ _ _ => trivial
  refine (inits_mintLacking sdk s cluster needed senderPublicBase).bind fun mintSigs _ _ => ?_
  refine ((deposits _).mapError _).bind fun depSig _ _ => ?_
  refine ((applies _).mapError _).bind fun applySig _ _ => ?_
  exact computes_logEvent sdk cluster (computes_pure trivial)

/-- An init keeps to its calls. -/
theorem inits_initHandler : Inits sdk s cluster [] [] (initHandler sdk s) := by
  refine Computes.catchPanic ?_ _
  refine computes_after (silent_requireFunds s _ _ _ _).plain trivial fun _ _ => ?_
  refine (inits_ensureMint sdk s cluster).bind fun mintSigs _ _ => ?_
  refine (inits_ensureConfidentialAccount sdk s cluster List.mem_cons_self).bind
    fun senderSigs _ _ => ?_
  refine (inits_ensureConfidentialAccount sdk s cluster (.tail _ (.head _))).bind
    fun receiverSigs _ _ => ?_
  have funds (done : List Transaction) : Inits sdk s cluster [] done (topUpSender s) := by
    refine computes_after (lenient_readAccountView s _).plain trivial fun view _ => ?_
    simp only
    split
    · exact inits_fundSender sdk s cluster _ _
    · exact computes_pure trivial
  refine (funds _).bind fun topUpSigs _ _ => ?_
  exact computes_after (lenient_readLedgerState s).plain trivial
    fun state _ => computes_pure trivial

end Init

section Requests

/-- A transfer request makes its one call. -/
theorem computes_transferHandler (requested : Option ℚ) :
    Computes sdk cluster (Job.role s (.endpoint (.action (.transfer requested)))) (fun _ => True)
      [] []
      (fun _ => (Job.role s (.endpoint (.action (.transfer requested)))).Fulfilled sdk cluster)
      (transferHandler sdk s requested) := by
  refine computes_emit (Computes.catchPanic ?_ _)
  refine computes_after (lenient_requireInitialized s).plain trivial fun _ _ => ?_
  refine computes_after (silent_requireFunds s _ _ _ _).plain trivial fun _ _ => ?_
  have transfers : Computes sdk cluster (Job.role s (.endpoint (.action (.transfer requested))))
      (fun _ => True) [] []
      (fun _ => (Job.role s (.endpoint (.action (.transfer requested)))).Fulfilled sdk cluster)
      (transferConfidentialWithProgress sdk s.keys.payer s.keys.sender s.mint
        s.keys.receiver.pubkey (s.requestedBase requested) .broadcast) := by
    refine (computes_transfer sdk rfl (fun _ => rfl) fun _ _ => trivial).weaken ?_
    rintro sigs done ⟨plan, finished, rfl⟩
    exact ⟨_, rfl, finished⟩
  refine Computes.bind (transfers.catchError fun reason => ?_) fun sigs done more => ?_
  · exact Program.Within.bind (plain_emit _ _) fun _ _ => Program.within_fail
  have ends : Computes sdk cluster (Job.role s (.endpoint (.action (.transfer requested))))
      (fun _ => True) [] done
      (fun _ => (Job.role s (.endpoint (.action (.transfer requested)))).Fulfilled sdk cluster) (do
        let state ← readLedgerState s
        pure (⟨true, sigs, state⟩ : ActionResponse)) :=
    computes_after (lenient_readLedgerState s).plain trivial fun state _ => computes_pure more
  cases fourth : sigs[3]? with
  | none =>
    simp only [logTransfer, fourth]
    exact ends
  | some sig =>
    simp only [logTransfer, fourth]
    exact computes_logEvent sdk cluster ends

/-- The owner that an apply request names is one that it may apply for. -/
theorem knows_applyOwner (account : String) :
    (applyOwner s account).Within Call.Promised Call.Plain
      (fun owner => ApplyCall s account (.applyPending s.keys.payer owner s.mint)) := by
  unfold applyOwner
  split
  · rename_i same
    subst same
    exact Program.within_pure .sender
  · split
    · rename_i same
      subst same
      exact Program.within_pure .receiver
    · exact Program.within_fail

/-- An apply request makes its one call. -/
theorem computes_applyPendingHandler (account : String) :
    Computes sdk cluster (Job.role s (.endpoint (.action (.applyPending account))))
      (fun _ => True) [] []
      (fun _ => (Job.role s (.endpoint (.action (.applyPending account)))).Fulfilled sdk cluster)
      (applyPendingHandler s account) := by
  refine computes_emit (Computes.catchError (Computes.catchPanic ?_ _) fun reason => ?_)
  swap
  · exact Program.Within.bind (plain_emit _ _) fun _ _ => Program.within_fail
  refine computes_after (lenient_requireInitialized s).plain trivial fun _ _ => computes_emit ?_
  refine computes_after (knows_applyOwner s account) trivial fun owner may => ?_
  have views : Plain ((do
      let view ← readAccountView s owner
      pure view.pendingUi).catchError fun _ => pure 0) :=
    Program.Within.catchError
      (plain_bind (lenient_readAccountView s owner).plain fun _ => plain_pure _)
      fun _ => plain_pure _
  refine computes_after views trivial fun amountUi _ => ?_
  have applies : Computes sdk cluster (Job.role s (.endpoint (.action (.applyPending account))))
      (fun _ => True) [] []
      (fun _ => (Job.role s (.endpoint (.action (.applyPending account)))).Fulfilled sdk cluster)
      (applyPendingBalance s.keys.payer owner s.mint) := by
    refine (computes_applyPending sdk may (fun _ => rfl) trivial).weaken ?_
    rintro sig done ⟨plan, finished, rfl⟩
    exact ⟨_, may, finished⟩
  refine Computes.bind (applies.mapError _) fun sig done more => ?_
  refine computes_emit (computes_emit (computes_logEvent sdk cluster ?_))
  exact computes_after (lenient_readLedgerState s).plain trivial fun state _ => computes_pure more

end Requests

/-! ## Every job -/

/-- A call makes itself; only a withdraw may fail after it has moved tokens. -/
theorem computes_operation (call : Operation) :
    Computes sdk cluster ⟨(· = call), .one⟩
      (fun done => Job.mayFailAfterMoving (.operation call) = false → moving done = []) [] []
      (Finishes sdk cluster call []) (call.program sdk) := by
  have one {program : Client Signature} (computes : Computes sdk cluster ⟨(· = call), .one⟩
      (fun done => Job.mayFailAfterMoving (.operation call) = false → moving done = []) [] []
      (Finishes sdk cluster call []) program) : Computes sdk cluster ⟨(· = call), .one⟩
        (fun done => Job.mayFailAfterMoving (.operation call) = false → moving done = []) [] []
        (Finishes sdk cluster call []) (Operation.single program) :=
    computes.bind fun sig done whole => computes_pure whole
  cases call with
  | configure payer authority mint =>
    exact one (computes_configure sdk rfl (fun _ => rfl) fun _ => rfl)
  | deposit payer authority mint amount decimals =>
    exact one (computes_deposit sdk rfl (fun _ => rfl) fun _ => rfl)
  | applyPending payer authority mint =>
    exact one (computes_applyPending sdk rfl (fun _ => rfl) fun _ => rfl)
  | withdraw payer authority mint amount decimals =>
    refine one (computes_withdraw sdk rfl (fun _ => rfl) fun done early => ?_)
    exact absurd early (by simp [Job.mayFailAfterMoving])
  | transfer payer sender mint recipient amount progress =>
    exact computes_transfer sdk rfl (fun _ => rfl) fun done same _ => same

/-- Every job keeps to its role and returns a value only once it has fulfilled it; one that cannot
fail after moving tokens has moved none when it fails. -/
theorem computes_job (port : Nat) (job : Job) :
    Computes sdk cluster (job.role s)
      (fun done => job.mayFailAfterMoving = false → moving done = []) [] []
      (fun _ done => (job.role s).Fulfilled sdk cluster done) (job.program sdk s port) := by
  cases job with
  | operation call =>
    refine (computes_operation sdk cluster call).bind ?_
    rintro sigs done ⟨plan, finished, rfl⟩
    exact computes_pure ⟨call, rfl, finished⟩
  | endpoint route =>
    cases route with
    | health =>
      have plain : Plain (health s port) := plain_bind (plain_ask trivial) fun _ => plain_pure _
      exact computes_after plain (fun _ => rfl) fun response _ => computes_pure rfl
    | state =>
      exact computes_after (lenient_readLedgerState s).plain (fun _ => rfl) fun state _ =>
        computes_pure rfl
    | action request =>
      have late {done : List Transaction} :
          Job.mayFailAfterMoving (.endpoint (.action request)) = false → moving done = [] :=
        fun early => absurd early (by simp [Job.mayFailAfterMoving])
      have acts : Computes sdk cluster (Job.role s (.endpoint (.action request))) (fun _ => True)
          [] [] (fun _ => (Job.role s (.endpoint (.action request))).Fulfilled sdk cluster)
          (request.program sdk s) := by
        cases request with
        | init => exact inits_initHandler sdk s cluster
        | transfer requested => exact computes_transferHandler sdk s cluster requested
        | applyPending account => exact computes_applyPendingHandler sdk s cluster account
      exact (acts.weakenFailed fun _ _ => late).bind fun response done whole =>
        computes_pure whole

end Server

end ConfidentialBalances
