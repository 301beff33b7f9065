import ConfidentialBalances.Announcements
import ConfidentialBalances.OperationEffects
import ConfidentialBalances.Sight

/-!
# How a request's event stream ends

The transfer and the apply handler open a stream of events with a phase and end
it with `Done` or `Error`. A transfer that its preflight checks refuse never ends
its stream; an apply whose request fails after its transaction landed ends its
stream twice.
-/

namespace ConfidentialBalances

open Effect

/-! ## Preflight checks -/

/-- What `require_initialized` asks of the ledger. -/
structure AppState.Initialized (s : AppState) (ledger : Ledger) : Prop where
  /-- There is an account at the mint's address. -/
  mint : (ledger.fetch s.mint).isOk = true
  /-- The sender's account is configured. -/
  sender : s.Configured ledger s.keys.sender
  /-- The receiver's account is configured. -/
  receiver : s.Configured ledger s.keys.receiver

/-- What a transfer's preflight asks of the ledger. -/
structure AppState.Prepared (s : AppState) (ledger : Ledger) : Prop extends
    s.Initialized ledger where
  /-- The sender can pay. -/
  funded : 20000000 ≤ ledger.lamports s.keys.sender.pubkey

/-- The program checks a condition on the ledger by so many silent requests. Where it could read
every account that it asked for, it goes on after all of them were served, and gives up only where
the condition is false or a request failed. -/
def Checks {α : Type} (cluster : Cluster) (condition : Prop) (requests : Nat) (ok : α → Prop)
    (program : Client α) (world : World) : Prop :=
  (chainSystem cluster).Shows (fun outcome transcript world' => Sighted transcript →
    world' = world ∧ Unheard transcript ∧ transcript.length ≤ requests ∧ match outcome with
      | .ok value => transcript.length = requests ∧
          (∀ exchange ∈ transcript, Exchange.failed exchange = false) ∧ ok value
      | .error _ => ¬ condition ∨ ∃ exchange ∈ transcript, Exchange.failed exchange = true
      | .panic _ => False) program world

section Checks

variable {α β : Type} {cluster : Cluster} {world : World} {condition : Prop}
variable {first second : Nat} {s : AppState}

/-- One check after another. -/
theorem Checks.bind {mid : α → Prop} {ok : β → Prop} {program : Client α} {rest : α → Client β}
    (before : Checks cluster condition first mid program world)
    (after : ∀ value, mid value → Checks cluster condition second ok (rest value) world) :
    Checks cluster condition (second + first) ok (program >>= rest) world := by
  refine System.Shows.bind before ?_ ?_ ?_
  · intro value done middle checked
    by_cases sighted : Sighted done
    · obtain ⟨rfl, unheard, -, count, served, known⟩ := checked sighted
      refine (after value known).weaken ?_
      intro outcome transcript world' later whole
      obtain ⟨same, unheard', bound, post⟩ := later ((sighted_append _ _).mp whole).2
      refine ⟨same, unheard.append unheard', by rw [List.length_append]; omega, ?_⟩
      cases outcome with
      | ok result =>
        refine ⟨by rw [List.length_append]; omega, fun exchange member => ?_, post.2.2⟩
        rcases List.mem_append.mp member with early | late
        · exact served exchange early
        · exact post.2.1 exchange late
      | error reason =>
        refine post.imp_right ?_
        rintro ⟨exchange, member, failed⟩
        exact ⟨exchange, List.mem_append_right _ member, failed⟩
      | panic message => exact post
    · intro transcript outcome world' _ whole
      exact absurd ((sighted_append _ _).mp whole).1 sighted
  · intro reason done middle checked sighted
    obtain ⟨same, unheard, bound, post⟩ := checked sighted
    exact ⟨same, unheard, by omega, post⟩
  · intro message done middle checked sighted
    exact (checked sighted).2.2.2.elim

/-- What holds of the value may be weakened. -/
theorem Checks.weaken {ok ok' : α → Prop} {program : Client α}
    (checks : Checks cluster condition first ok program world)
    (weaker : ∀ value, ok value → ok' value) :
    Checks cluster condition first ok' program world := by
  refine System.Shows.weaken checks ?_
  intro outcome transcript world' checked sighted
  obtain ⟨same, unheard, bound, post⟩ := checked sighted
  refine ⟨same, unheard, bound, ?_⟩
  cases outcome with
  | ok value => exact ⟨post.1, post.2.1, weaker _ post.2.2⟩
  | error reason => exact post
  | panic message => exact post

/-- Going on without a request. -/
theorem checks_pure {ok : α → Prop} {value : α} (holds : ok value) :
    Checks cluster condition 0 ok (pure value) world :=
  System.shows_done.mpr fun _ => ⟨rfl, .nil, le_refl _, rfl, by simp, holds⟩

/-- Giving up where the condition is false. -/
theorem checks_fail {ok : α → Prop} {reason : ClientError} (requests : Nat)
    (lacks : ¬ condition) : Checks cluster condition requests ok (Program.fail reason) world :=
  System.shows_done.mpr fun _ => ⟨rfl, .nil, Nat.zero_le _, .inl lacks⟩

/-- A silent request and then the rest of the check, which gives up where the request fails, unless
an account could not be read. -/
theorem checks_call {request : Call} {next : Reply request → Client α} {ok : α → Prop}
    {reply : Reply request} (asks : request.Asks)
    (answer : (chain cluster).answer world request .succeed = (reply, world))
    (served : Exchange.failed (⟨request, reply⟩ : Exchange Reply) = false)
    (fails : ∀ message, ∃ failure,
      (chain cluster).answer world request (.fail message) = (failure, world) ∧
        Exchange.failed (⟨request, failure⟩ : Exchange Reply) = true ∧
        (Exchange.unread (⟨request, failure⟩ : Exchange Reply) = true ∨
          ∃ reason, next failure = Program.fail reason))
    (later : Checks cluster condition first ok (next reply) world) :
    Checks cluster condition (first + 1) ok (.call request next) world := by
  refine System.shows_call.mpr fun answered world' ⟨choice, given⟩ => ?_
  cases choice with
  | fail message =>
    obtain ⟨failure, failing, failed, unread | ⟨reason, gives⟩⟩ := fails message
    · obtain ⟨rfl, rfl⟩ := Prod.mk.inj (failing.symm.trans given)
      intro transcript outcome world'' _ sighted
      have read := sighted _ List.mem_cons_self
      exact absurd (read.symm.trans unread) Bool.false_ne_true
    · obtain ⟨rfl, rfl⟩ := Prod.mk.inj (failing.symm.trans given)
      rw [gives]
      exact System.shows_done.mpr fun _ =>
        ⟨rfl, unheard_ask asks _, by simp, .inr ⟨_, List.mem_singleton_self _, failed⟩⟩
  | succeed =>
    obtain ⟨rfl, rfl⟩ := Prod.mk.inj (answer.symm.trans given)
    refine System.Shows.weaken later ?_
    intro outcome transcript world'' checked sighted
    obtain ⟨same, unheard, bound, post⟩ := checked (List.forall_mem_cons.mp sighted).2
    refine ⟨same, (unheard_ask asks _).append unheard, by rw [List.length_cons]; omega, ?_⟩
    cases outcome with
    | ok value =>
      exact ⟨by rw [List.length_cons, post.1], List.forall_mem_cons.mpr ⟨served, post.2.1⟩,
        post.2.2⟩
    | error reason =>
      refine post.imp_right ?_
      rintro ⟨exchange, member, failed⟩
      exact ⟨exchange, List.mem_cons_of_mem _ member, failed⟩
    | panic message => exact post

/-- What the chain says of an account is an answer. -/
theorem fetch_served (ledger : Ledger) (key : Pubkey) :
    Exchange.failed (⟨.getAccount key, ledger.fetch key⟩ : Exchange Reply) = false := by
  unfold Ledger.fetch
  split <;> rfl

/-- Asking for an account. -/
theorem checks_account {key : Pubkey} {next : Reply (.getAccount key) → Client α} {ok : α → Prop}
    (later : Checks cluster condition first ok (next (world.ledger.fetch key)) world) :
    Checks cluster condition (first + 1) ok (.call (.getAccount key) next) world :=
  checks_call trivial rfl (fetch_served _ _) (fun _ => ⟨_, rfl, rfl, .inl rfl⟩) later

/-- Looking for the mint. -/
theorem checks_mintExists (mint : Pubkey) :
    Checks cluster condition 1 (fun found => found = (world.ledger.fetch mint).isOk)
      (mintExists mint) world := by
  refine checks_account ?_
  unfold Ledger.fetch
  split
  · exact checks_pure rfl
  · exact checks_pure rfl

/-- Looking at a token account. -/
theorem checks_ataIsConfigured (ata : Pubkey)
    (needed : condition → (world.ledger.confidential? ata).isSome = true) :
    Checks cluster condition 1
      (fun configured => configured = (world.ledger.confidential? ata).isSome)
      (ataIsConfigured ata) world := by
  refine checks_account ?_
  unfold Ledger.fetch
  split
  · rename_i unused
    exact checks_pure (by simp [Ledger.confidential?, unused.1, AccountData.token?])
  · cases held : world.ledger.data ata with
    | token token =>
      exact checks_pure (by simp [Ledger.confidential?, held, AccountData.token?])
    | _ =>
      refine checks_fail 0 fun holds => ?_
      have configured := needed holds
      simp [Ledger.confidential?, held, AccountData.token?] at configured

/-- `require_initialized` makes three requests. -/
theorem checks_requireInitialized (needed : condition → s.Initialized world.ledger) :
    Checks cluster condition 3 (fun _ => s.Initialized world.ledger) (requireInitialized s)
      world := by
  refine (checks_mintExists s.mint).bind ?_
  rintro found rfl
  split
  · rename_i absent
    exact checks_fail 2 fun holds => by simp [(needed holds).mint] at absent
  rename_i mint
  refine (checks_ataIsConfigured _ fun holds => (needed holds).sender).bind ?_
  rintro configured rfl
  split
  · rename_i absent
    have lacks : ¬ condition := fun holds => by
      have sender := (needed holds).sender
      unfold AppState.Configured at sender
      simp [sender] at absent
    exact checks_fail 1 lacks
  rename_i sender
  refine (checks_ataIsConfigured _ fun holds => (needed holds).receiver).bind ?_
  rintro configured rfl
  split
  · rename_i absent
    have lacks : ¬ condition := fun holds => by
      have receiver := (needed holds).receiver
      unfold AppState.Configured at receiver
      simp [receiver] at absent
    exact checks_fail 0 lacks
  · rename_i receiver
    exact checks_pure ⟨by simpa using mint, Option.isSome_iff_ne_none.mpr (by simpa using sender),
      Option.isSome_iff_ne_none.mpr (by simpa using receiver)⟩

/-- The check of a wallet's lamports makes one request. -/
theorem checks_requireFunds (role : String) (wallet : Wallet) (minimum airdrop : Nat)
    (needed : condition → minimum ≤ world.ledger.lamports wallet.pubkey) :
    Checks cluster condition 1 (fun _ => minimum ≤ world.ledger.lamports wallet.pubkey)
      (requireFunds s role wallet minimum airdrop) world := by
  refine checks_call trivial rfl rfl (fun _ => ⟨_, rfl, rfl, .inr ⟨_, rfl⟩⟩) ?_
  change Checks cluster condition 0 _ (if _ < _ then _ else _) world
  split
  · rename_i poor
    exact checks_fail 0 fun holds => absurd (needed holds) (by omega)
  · rename_i funded
    exact checks_pure (by omega)

/-- A transfer's preflight makes four requests. -/
theorem checks_preflight :
    Checks cluster (s.Prepared world.ledger) 4 (fun _ => s.Prepared world.ledger) (do
      requireInitialized s
      requireFunds s "sender" s.keys.sender 20000000 1) world := by
  refine (checks_requireInitialized fun prepared => prepared.toInitialized).bind ?_
  intro _ initialized
  exact (checks_requireFunds _ _ _ _ fun prepared => prepared.funded).weaken
    fun _ funded => ⟨initialized, funded⟩

/-- The program looks at one account, and takes one that it could not read for one that is not
there. -/
def Overlooks (cluster : Cluster) (look : Client Bool) : Prop :=
  ∀ world, (chainSystem cluster).Shows (fun outcome transcript _ => Unheard transcript ∧
    transcript.length ≤ 1 ∧ (¬ Sighted transcript → outcome = .ok false)) look world

/-- Where an account could not be read, the program shows nothing and gives up, after so many
requests at most. -/
def GivesUpUnread {α : Type} (cluster : Cluster) (requests : Nat) (program : Client α) : Prop :=
  ∀ world, (chainSystem cluster).Shows (fun outcome transcript _ => ¬ Sighted transcript →
    Unheard transcript ∧ transcript.length ≤ requests ∧ ∃ reason, outcome = .error reason) program
    world

/-- A look asks for the account and is over. -/
theorem overlooks_account {key : Pubkey} {next : Reply (.getAccount key) → Client Bool}
    (ends : ∀ reply, ∃ outcome, next reply = .done outcome)
    (unread : ∀ cause, next (.error (.accountNotFound key (some cause))) = .done (.ok false)) :
    Overlooks cluster (.call (.getAccount key) next) := by
  intro world
  refine shows_account ?_ fun cause => ?_
  · obtain ⟨outcome, ended⟩ := ends (world.ledger.fetch key)
    have read : Sighted [(⟨.getAccount key, world.ledger.fetch key⟩ : Exchange Reply)] := by
      simp [Sighted, fetch_read]
    rw [ended]
    exact System.shows_done.mpr ⟨⟨rfl, rfl, rfl⟩, by simp, fun blind => absurd read blind⟩
  · rw [unread cause]
    exact System.shows_done.mpr ⟨⟨rfl, rfl, rfl⟩, by simp, fun _ => rfl⟩

/-- Looking for the mint. -/
theorem overlooks_mintExists (mint : Pubkey) : Overlooks cluster (mintExists mint) := by
  refine overlooks_account (fun reply => ?_) fun cause => rfl
  cases reply with
  | ok data => exact ⟨_, rfl⟩
  | error reason =>
    show ∃ outcome, (if reason.saysNotFound = true then _ else _) = Program.done outcome
    split <;> exact ⟨_, rfl⟩

/-- Looking at a token account. -/
theorem overlooks_ataIsConfigured (ata : Pubkey) : Overlooks cluster (ataIsConfigured ata) := by
  refine overlooks_account (fun reply => ?_) fun cause => rfl
  cases reply with
  | ok data => cases data <;> exact ⟨_, rfl⟩
  | error reason =>
    show ∃ outcome, (if reason.saysNotFound = true then _ else _) = Program.done outcome
    split <;> exact ⟨_, rfl⟩

/-- A program that asks for no account has read all that it asked for. -/
theorem givesUpUnread_uses {program : Client α}
    (uses : program.Uses fun request => ∀ key, request ≠ .getAccount key) :
    GivesUpUnread cluster first program :=
  fun _ _ _ _ ran blind => absurd (sighted_of_unasked (ran.uses uses)) blind

/-- Giving up where a look finds nothing, and going on where it finds something. -/
theorem Overlooks.gates {look : Client Bool} {reason : ClientError} {rest : Client α}
    (looks : Overlooks cluster look) (later : GivesUpUnread cluster first rest) :
    GivesUpUnread cluster (first + 1)
      (look >>= fun found => if (!found) = true then Program.fail reason else rest) := by
  intro world
  refine System.Shows.bind (looks world) ?_ ?_ ?_
  · rintro found done middle ⟨unheard, short, missed⟩
    by_cases sighted : Sighted done
    · cases found with
      | false =>
        refine System.shows_done.mpr fun blind => absurd sighted ?_
        rwa [List.append_nil] at blind
      | true =>
        refine System.Shows.weaken (later middle) ?_
        intro outcome transcript world' post blind
        obtain ⟨unheard', bound, gaveUp⟩ :=
          post fun rest => blind ((sighted_append _ _).mpr ⟨sighted, rest⟩)
        exact ⟨unheard.append unheard', by rw [List.length_append]; omega, gaveUp⟩
    · obtain rfl := Outcome.ok.inj (missed sighted)
      refine System.shows_done.mpr fun _ => ⟨by rwa [List.append_nil], ?_, reason, rfl⟩
      rw [List.append_nil]
      omega
  · rintro other done middle ⟨unheard, short, missed⟩ blind
    exact absurd (missed blind) (by simp)
  · rintro message done middle ⟨unheard, short, missed⟩ blind
    exact absurd (missed blind) (by simp)

/-- `require_initialized` takes an account that it could not read for one that is not there. -/
theorem givesUpUnread_requireInitialized (s : AppState) :
    GivesUpUnread cluster 3 (requireInitialized s) :=
  (overlooks_mintExists _).gates ((overlooks_ataIsConfigured _).gates
    ((overlooks_ataIsConfigured _).gates (givesUpUnread_uses trivial)))

/-- A transfer's preflight takes an account that it could not read for one that is not there. -/
theorem givesUpUnread_preflight (s : AppState) :
    GivesUpUnread cluster 4 (do
      requireInitialized s
      requireFunds s "sender" s.keys.sender 20000000 1) := by
  intro world
  refine System.Shows.bind (givesUpUnread_requireInitialized s world) ?_ ?_ ?_
  · intro value done middle gaveUp transcript outcome world' ran blind
    have uses : (requireFunds s "sender" s.keys.sender 20000000 1).Uses
        fun request => ∀ key, request ≠ .getAccount key := by
      refine Program.Uses.bind ⟨by simp, fun reply => ?_⟩ fun lamports => ?_
      · cases reply <;> trivial
      · split <;> trivial
    have read : Sighted transcript := sighted_of_unasked (ran.uses uses)
    have unread : ¬ Sighted done := fun sighted => blind ((sighted_append _ _).mpr ⟨sighted, read⟩)
    obtain ⟨-, -, reason, same⟩ := gaveUp unread
    contradiction
  · rintro other done middle gaveUp blind
    obtain ⟨unheard, short, outcome⟩ := gaveUp blind
    exact ⟨unheard, by omega, outcome⟩
  · rintro message done middle gaveUp blind
    obtain ⟨unheard, short, outcome⟩ := gaveUp blind
    exact ⟨unheard, by omega, outcome⟩

end Checks

/-! ## Streams -/

/-- The event reports success. -/
def TransferProgress.isDone : TransferProgress → Bool
  | .done _ => true
  | _ => false

/-- The transaction transfers. -/
def Transaction.transfers (transaction : Transaction) : Bool :=
  transaction.instructions.any Instruction.isInnerTransfer

/-- The transaction applies a pending balance. -/
def Transaction.applies (transaction : Transaction) : Bool :=
  transaction.instructions.any fun instruction => match instruction with
    | .applyPendingBalance _ _ _ _ _ => true
    | _ => false

/-- What a transcript sends ends the stream once, and last, with success exactly when a
transaction that moves tokens was carried. -/
def Ended (moves : Transaction → Bool) (transcript : List (Exchange Reply)) : Prop :=
  ∃ events last, sent transcript = events ++ [last] ∧ Unfinished events ∧
    last.terminal = true ∧ last.isDone = (carried transcript).any moves

section Streams

variable {cluster : Cluster} {world world' : World} {moves : Transaction → Bool}
variable {transcript later : List (Exchange Reply)}

/-- Silence after the end leaves the stream ended. -/
theorem Ended.unheard (ended : Ended moves transcript) (unheard : Unheard later) :
    Ended moves (transcript ++ later) := by
  obtain ⟨events, last, told, unfinished, ends, done⟩ := ended
  refine ⟨events, last, ?_, unfinished, ends, ?_⟩
  · rw [sent_append, unheard.sent, List.append_nil, told]
  · rw [carried_append, unheard.carried, List.append_nil, done]

/-- Silence before leaves it ended as well. -/
theorem Ended.after (ended : Ended moves later) (unheard : Unheard transcript) :
    Ended moves (transcript ++ later) := by
  obtain ⟨events, last, told, unfinished, ends, done⟩ := ended
  refine ⟨events, last, ?_, unfinished, ends, ?_⟩
  · rw [sent_append, unheard.sent, List.nil_append, told]
  · rw [carried_append, unheard.carried, List.nil_append, done]

end Streams

/-- What holds however a program ends holds of it as a joined task. -/
theorem shows_runBlocking {α : Type} {cluster : Cluster} {world : World}
    {post : List (Exchange Reply) → World → Prop} {program : Client α}
    (shows : (chainSystem cluster).Shows (fun _ => post) program world) :
    (chainSystem cluster).Shows (fun _ => post) (runBlocking program) world := by
  unfold runBlocking
  rw [System.shows_catchPanic]
  refine System.Shows.weaken shows ?_
  rintro outcome transcript world' holds
  cases outcome <;> exact holds

/-! ## The transfer request -/

section TransferRequest

variable {sdk : Sdk} {cluster : Cluster} {world world' : World} {s : AppState}

/-- The library's transfer ends the stream with success when it returns, having transferred. An
error leaves the stream open, and nothing transferred. -/
theorem transferConfidentialWithProgress_stream (sdk : Sdk) (cluster : Cluster)
    (payer sender : Wallet) (mint recipient : Pubkey) (amount : Nat) (world : World) :
    (chainSystem cluster).Shows (fun outcome transcript _ => match outcome with
      | .ok _ => Ended Transaction.transfers transcript
      | .error _ => Unfinished (sent transcript) ∧
          (carried transcript).any Transaction.transfers = false
      | .panic _ => False)
      (transferConfidentialWithProgress sdk payer sender mint recipient amount .broadcast)
      world := by
  intro transcript outcome world' ran
  have witnessed := runs_witnessed ran
  have post := transferConfidentialWithProgress_announces sdk cluster payer sender mint recipient
    amount world _ _ _ ran
  have ends := (transferConfidentialWithProgress_submits sdk cluster payer sender mint recipient
    amount .broadcast world).ends ran.reaches
  cases outcome with
  | ok sigs =>
    obtain ⟨served, events, told, unfinished, all⟩ := post
    obtain ⟨plan, ⟨run, -, rfl⟩, landed, -⟩ := ends
    refine ⟨events, .done sigs, told, unfinished, rfl, ?_⟩
    rw [← List.append_cancel_left (landed.landed.symm.trans witnessed.landed)]
    simp [TransferProgress.isDone, TransferRun.transactions, Transaction.transfers,
      TransferRun.transferTransaction, transferInstructions, Instruction.isInnerTransfer]
  | error reason =>
    obtain ⟨done, landed, untouched, -⟩ := transferUntouched_of_cut ends
    refine ⟨post.unfinished, ?_⟩
    rw [← List.append_cancel_left (landed.symm.trans witnessed.landed)]
    simpa [Transaction.transfers] using untouched
  | panic message => exact post.elim

/-- The transfer as the handler calls it ends the stream. -/
theorem transfer_ends (payer sender : Wallet) (mint recipient : Pubkey) (amount : Nat) :
    (chainSystem cluster).Shows (fun outcome transcript _ =>
        Ended Transaction.transfers transcript ∧ ∀ message, outcome ≠ .panic message)
      ((transferConfidentialWithProgress sdk payer sender mint recipient amount
        .broadcast).catchError fun error => do
          emit .broadcast (.error error.text)
          Program.fail (.labelled "transfer failed: " error)) world := by
  rw [System.shows_catchError]
  refine (transferConfidentialWithProgress_stream sdk cluster payer sender mint recipient amount
    world).weaken ?_
  rintro outcome done middle post
  cases outcome with
  | ok sigs => exact ⟨post, fun message => by simp⟩
  | error reason =>
    obtain ⟨unfinished, untouched⟩ := post
    refine System.shows_call.mpr fun reply world' _ => System.shows_done.mpr ⟨?_, by simp⟩
    refine ⟨sent done, .error reason.text, ?_, unfinished, rfl, ?_⟩
    · rw [sent_append]
      rfl
    · rw [carried_append, List.any_append, untouched]
      rfl
  | panic message => exact post.elim

/-- What a transfer request goes on with once its preflight accepts. -/
def transferRest (sdk : Sdk) (s : AppState) (requested : Option ℚ) : Client ActionResponse := do
  let sigs ← (transferConfidentialWithProgress sdk s.keys.payer s.keys.sender s.mint
    s.keys.receiver.pubkey (s.requestedBase requested) .broadcast).catchError fun error => do
      emit .broadcast (.error error.text)
      Program.fail (.labelled "transfer failed: " error)
  logTransfer (requested.getD s.cfg.transferAmountUi) sigs
  let state ← readLedgerState s
  pure ⟨true, sigs, state⟩

/-- What the handler does after the preflight leaves the stream ended. -/
theorem transferRest_ends (requested : Option ℚ) :
    (chainSystem cluster).Shows (fun _ transcript _ => Ended Transaction.transfers transcript)
      (transferRest sdk s requested) world := by
  refine System.Shows.bind (transfer_ends s.keys.payer s.keys.sender s.mint
    s.keys.receiver.pubkey (s.requestedBase requested)) ?_ ?_ ?_
  · rintro sigs done middle ⟨ended, -⟩
    refine System.Shows.bind (unheard_logTransfer (requested.getD s.cfg.transferAmountUi) sigs) ?_
      (fun _ _ _ logged => ended.unheard logged) fun _ _ _ logged => ended.unheard logged
    intro _ logged after quiet
    have reads : Lenient (do
        let state ← readLedgerState s
        pure (⟨true, sigs, state⟩ : ActionResponse)) :=
      (lenient_readLedgerState s).bind fun _ => silent_pure _
    refine System.Shows.weaken reads.shows fun outcome later world' shown => ?_
    exact ended.unheard (quiet.append shown.1)
  · rintro reason done middle ⟨ended, -⟩
    exact ended
  · rintro message done middle ⟨-, none⟩
    exact absurd rfl (none message)

/-- What a transfer request sends after its preflight phase: its checks refuse it and it shows
nothing, or they pass, in four requests, and its stream ends. -/
def TransferStream (s : AppState) (ledger : Ledger) (transcript : List (Exchange Reply)) : Prop :=
  (Unheard transcript ∧ transcript.length ≤ 4 ∧ (¬ s.Prepared ledger ∨
    ∃ exchange ∈ transcript, Exchange.failed exchange = true)) ∨
  s.Prepared ledger ∧ (∀ exchange ∈ transcript.take 4, Exchange.failed exchange = false) ∧
    Ended Transaction.transfers transcript

/-- A transfer request checks, and then ends its stream. -/
theorem transferHandler_stream (sdk : Sdk) (cluster : Cluster) (s : AppState)
    (requested : Option ℚ) (world : World) :
    (chainSystem cluster).Shows (fun _ transcript _ => ∃ detail later,
        transcript = ⟨.emit (.phase "preflight" detail), ()⟩ :: later ∧
        TransferStream s world.ledger later) (transferHandler sdk s requested) world := by
  refine (chain cluster).shows_call.mpr fun choice => ?_
  refine shows_runBlocking ?_
  rw [← Program.bind_assoc]
  refine System.Shows.bind (checks_preflight.and (givesUpUnread_preflight s _)) ?_ ?_ ?_
  · rintro value done middle ⟨checked, unread⟩
    have sighted : Sighted done := by
      by_contra blind
      obtain ⟨-, -, reason, same⟩ := unread blind
      contradiction
    obtain ⟨rfl, unheard, -, count, served, prepared⟩ := checked sighted
    refine (transferRest_ends requested).weaken ?_
    rintro outcome later world'' ended
    refine ⟨_, done ++ later, rfl, .inr ⟨prepared, ?_, ?_⟩⟩
    · rwa [List.take_left' count]
    · exact ended.after unheard
  · rintro reason done middle ⟨checked, unread⟩
    by_cases sighted : Sighted done
    · obtain ⟨rfl, unheard, short, refused⟩ := checked sighted
      exact ⟨_, done, rfl, .inl ⟨unheard, short, refused⟩⟩
    · obtain ⟨unheard, short, -⟩ := unread sighted
      exact ⟨_, done, rfl, .inl ⟨unheard, short, .inr (failed_of_unread sighted)⟩⟩
  · rintro message done middle ⟨checked, unread⟩
    by_cases sighted : Sighted done
    · exact (checked sighted).2.2.2.elim
    · obtain ⟨-, -, reason, same⟩ := unread sighted
      contradiction

end TransferRequest

/-! ## The apply request -/

section ApplyRequest

variable {β : Type} {cluster : Cluster} {world world' : World} {s : AppState}

/-- Nothing has been confirmed, and the stream is open. -/
structure Opening (transcript : List (Exchange Reply)) : Prop where
  /-- Nothing was carried. -/
  carried : carried transcript = []
  /-- Nothing was confirmed. -/
  confirmed : confirmed transcript = []
  /-- No event ends the stream. -/
  unfinished : Unfinished (sent transcript)

/-- What fails before anything is confirmed does so at the start. -/
theorem failures_unconfirmed {transcript : List (Exchange Reply)}
    (unconfirmed : confirmed transcript = []) : ∀ k ∈ failures transcript, k = 0 := by
  induction transcript with
  | nil => simp
  | cons exchange rest ih =>
    rw [← List.singleton_append, confirmed_append, List.append_eq_nil_iff] at unconfirmed
    intro k member
    rw [failures, unconfirmed.1] at member
    rcases List.mem_append.mp member with here | later
    · split at here
      · exact List.mem_singleton.mp here
      · contradiction
    · exact ih unconfirmed.2 k (by simpa using later)

/-- Nothing failed late while the stream is being opened. -/
theorem Opening.early {transcript : List (Exchange Reply)} (opening : Opening transcript) :
    ∀ k ∈ failures (heeded transcript), k = 0 :=
  fun k member => failures_unconfirmed opening.confirmed k (failures_heeded _ member)

/-- What an apply request sends before its errors are reported: a stream that has ended with all
served since but reads of accounts, one that is still open, or one that has ended before another
request failed. -/
def ApplyStream : Outcome ClientError ActionResponse → List (Exchange Reply) → Prop
  | .ok _, transcript =>
      Ended Transaction.applies transcript ∧ ∀ k ∈ failures (heeded transcript), k = 0
  | .error _, transcript => Opening transcript ∨
      Ended Transaction.applies transcript ∧ ∃ k ∈ failures (heeded transcript), k ≠ 0
  | .panic _, _ => False

/-- What opens the stream comes before the rest of it. -/
theorem ApplyStream.after {outcome : Outcome ClientError ActionResponse}
    {before later : List (Exchange Reply)} (opening : Opening before)
    (stream : ApplyStream outcome later) : ApplyStream outcome (before ++ later) := by
  have failed : failures (heeded (before ++ later)) =
      failures (heeded before) ++ failures (heeded later) := by
    rw [heeded_append, failures_append, confirmed_heeded, opening.confirmed]
    simp
  have ends (ended : Ended Transaction.applies later) :
      Ended Transaction.applies (before ++ later) := by
    obtain ⟨events, last, told, unfinished, terminal, done⟩ := ended
    refine ⟨sent before ++ events, last, ?_, opening.unfinished.append unfinished, terminal, ?_⟩
    · rw [sent_append, told, List.append_assoc]
    · rw [carried_append, opening.carried, List.nil_append, done]
  have early (k : Nat) (served : ∀ k ∈ failures (heeded later), k = 0)
      (member : k ∈ failures (heeded (before ++ later))) : k = 0 := by
    rw [failed] at member
    rcases List.mem_append.mp member with first | second
    · exact opening.early k first
    · exact served k second
  cases outcome with
  | ok response => exact ⟨ends stream.1, fun k member => early k stream.2 member⟩
  | error reason =>
    rcases stream with open' | ⟨ended, k, member, late⟩
    · refine .inl ⟨?_, ?_, ?_⟩
      · rw [carried_append, opening.carried, open'.carried]
        rfl
      · rw [confirmed_append, opening.confirmed, open'.confirmed]
        rfl
      · rw [sent_append]
        exact opening.unfinished.append open'.unfinished
    · exact .inr ⟨ends ended, k, failed ▸ List.mem_append_right _ member, late⟩
  | panic message => exact stream

/-- The program opens the stream, and leaves a ledger of which this holds when it returns. -/
def Opens (cluster : Cluster) (ok : β → Ledger → Prop) (program : Client β) (world : World) :
    Prop :=
  (chainSystem cluster).Shows (fun outcome transcript world' => match outcome with
    | .ok value => Opening transcript ∧ ok value world'.ledger
    | .error _ => Opening transcript
    | .panic _ => False) program world

/-- The stream is opened, and then the rest follows. -/
theorem Opens.bind {ok : β → Ledger → Prop} {program : Client β}
    {rest : β → Client ActionResponse} (opens : Opens cluster ok program world)
    (second : ∀ value world', ok value world'.ledger →
      (chainSystem cluster).Shows (fun outcome transcript _ => ApplyStream outcome transcript)
        (rest value) world') :
    (chainSystem cluster).Shows (fun outcome transcript _ => ApplyStream outcome transcript)
      (program >>= rest) world := by
  refine System.Shows.bind opens ?_ ?_ ?_
  · rintro value done middle ⟨opening, known⟩
    exact (second value middle known).weaken fun outcome later world' stream =>
      stream.after opening
  · rintro reason done middle opening
    exact .inl opening
  · rintro message done middle none
    exact none.elim

/-- A silent transcript opens the stream. -/
theorem Unheard.opening {transcript : List (Exchange Reply)} (unheard : Unheard transcript) :
    Opening transcript :=
  ⟨unheard.carried, unheard.confirmed, by simp [unheard.sent, Unfinished]⟩

/-- A silent program opens the stream and leaves the ledger. -/
theorem SilentBut.opens {skipped : Exchange Reply → Bool} {program : Client β}
    (silent : SilentBut skipped program) :
    Opens cluster (fun _ ledger => ledger = world.ledger) program world := by
  intro transcript outcome world' ran
  obtain ⟨unheard, post⟩ := silent.shows _ _ _ ran
  have executed := (runs_witnessed ran).ledger
  rw [unheard.carried] at executed
  cases outcome with
  | ok value => exact ⟨unheard.opening, (Option.some.inj executed).symm⟩
  | error reason => exact unheard.opening
  | panic message => exact post.elim

/-- The program is silent, leaves the ledger, and gives up only where a request failed that is no
read of an account. -/
def Diligent (cluster : Cluster) (program : Client β) (world : World) : Prop :=
  (chainSystem cluster).Shows (fun outcome transcript world' => Unheard transcript ∧
    world'.ledger = world.ledger ∧ match outcome with
      | .ok _ => failures (heeded transcript) = []
      | .error _ => failures (heeded transcript) = [0]
      | .panic _ => False) program world

/-- One diligent program after another. -/
theorem Diligent.bind {α : Type} {program : Client α} {rest : α → Client β}
    (first : Diligent cluster program world)
    (second : ∀ value world', world'.ledger = world.ledger →
      Diligent cluster (rest value) world') : Diligent cluster (program >>= rest) world := by
  refine System.Shows.bind first ?_ ?_ ?_
  · rintro value done middle ⟨unheard, same, served⟩
    refine System.Shows.weaken (second value middle same) ?_
    rintro outcome later world' ⟨unheard', same', post⟩
    refine ⟨unheard.append unheard', same'.trans same, ?_⟩
    have failed : failures (heeded (done ++ later)) = failures (heeded later) := by
      rw [heeded_append, failures_append, served, confirmed_heeded, unheard.confirmed]
      simp
    cases outcome with
    | ok result => exact failed.trans post
    | error reason => exact failed.trans post
    | panic message => exact post
  · exact fun _ _ _ post => post
  · exact fun _ _ _ post => post

end ApplyRequest

end ConfidentialBalances
