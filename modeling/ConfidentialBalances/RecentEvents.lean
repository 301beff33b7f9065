import ConfidentialBalances.DemoServer
import ConfidentialBalances.OperationEffects

/-!
# The auditor's event log

Which transaction each entry of the log names. Every request that moves tokens
logs its move, and the log keeps the newest eight. An init names the deposit and
an apply the apply; a transfer names the fourth transaction that it landed, which
is one of those that stage the range proof.
-/

namespace ConfidentialBalances

open Effect

/-- A request that the server acts on. -/
inductive Request
  /-- `POST /demo/init`. -/
  | init
  /-- `POST /demo/transfer`. -/
  | transfer (amountUi : Option ℚ)
  /-- `POST /demo/apply-pending`. -/
  | applyPending (account : String)
  deriving DecidableEq, Repr

namespace Request

/-- The program of a request. -/
def program (sdk : Sdk) (s : AppState) : Request → Client ActionResponse
  | .init => initHandler sdk s
  | .transfer amountUi => transferHandler sdk s amountUi
  | .applyPending account => applyPendingHandler s account

/-- The kind under which a request logs its move. -/
def kind : Request → String
  | .init => "init-deposit"
  | .transfer _ => "transfer"
  | .applyPending account => s!"apply-pending-{account}"

/-- The request is a transfer. -/
def isTransfer : Request → Bool
  | .transfer _ => true
  | _ => false

/-- The instruction that executes the move of a request. -/
def moves : Request → Instruction → Bool
  | .init, .deposit _ _ _ _ _ _ => true
  | .transfer _, .innerTransfer _ _ _ _ _ _ _ _ _ _ _ => true
  | .applyPending _, .applyPendingBalance _ _ _ _ _ => true
  | _, _ => false

/-- The transaction executes the move of a request. -/
def carries (request : Request) (transaction : Transaction) : Bool :=
  transaction.instructions.any request.moves

end Request

/-- A request that was served, with the worlds before and after. -/
structure Served where
  /-- The request. -/
  request : Request
  /-- The world it started in. -/
  before : World
  /-- The world it left. -/
  after : World

namespace Served

/-- What landed while the request was served. -/
def landed (one : Served) : List Transaction := one.after.landed.drop one.before.landed.length

/-- The request moved tokens: a transaction that executes its move landed. -/
def moved (one : Served) : Bool := one.landed.any one.request.carries

/-- What was appended is what landed. -/
theorem landed_eq {request : Request} {before after : World} {done : List Transaction}
    (appended : after.landed = before.landed ++ done) :
    (Served.mk request before after).landed = done := by
  rw [landed, appended, List.drop_left]

end Served

/-- The requests of a list were served with success, one after the other, the newest first. -/
inductive Session (sdk : Sdk) (cluster : Cluster) (s : AppState) (start : World) :
    List Served → World → Prop
  /-- None was. -/
  | start : Session sdk cluster s start [] start
  /-- One more was. -/
  | serve {served : List Served} {world world' : World} {request : Request}
      {response : ActionResponse} (earlier : Session sdk cluster s start served world)
      (ended : (chainSystem cluster).Ends world (request.program sdk s) (.ok response) world') :
      Session sdk cluster s start (⟨request, world, world'⟩ :: served) world'

/-- The moves of a session, newest first. -/
def loggedMoves (served : List Served) : List Served := served.filter Served.moved

/-- An entry names the transaction that executed the move of a request. -/
def Names (one : Served) (entry : EventLog) : Prop :=
  entry.kind = one.request.kind ∧ one.before.landed.length ≤ entry.sig.position ∧
    ∃ transaction, one.after.landed[entry.sig.position]? = some transaction ∧
      one.request.carries transaction = true

/-- The log is the list of the newest moves, newest first, each under its own transaction. -/
def LogNames (served : List Served) (log : List EventLog) : Prop :=
  List.Forall₂ Names ((loggedMoves served).take recentEventsKeep) log

/-! ## What a request lands and logs -/

/-- The entry points at a transaction that landed between two worlds. -/
def EventLog.Points (entry : EventLog) (before after : World) (transaction : Transaction) : Prop :=
  before.landed.length ≤ entry.sig.position ∧
    after.landed[entry.sig.position]? = some transaction

/-- What an entry that a request logs points at. -/
def Logged (one : Served) (entry : EventLog) : Prop :=
  entry.kind = one.request.kind ∧ ∃ transaction, entry.Points one.before one.after transaction ∧
    (one.request.carries transaction = true ↔ one.request.isTransfer = false)

/-- A log entry names the move it was made for unless that is a transfer. -/
theorem logged_names {one : Served} {entry : EventLog} (logged : Logged one entry) :
    Names one entry ↔ one.request.isTransfer = false := by
  obtain ⟨kind, transaction, ⟨later, found⟩, moves⟩ := logged
  rw [← moves]
  constructor
  · rintro ⟨-, -, transaction', found', moving⟩
    obtain rfl := Option.some.inj (found.symm.trans found')
    exact moving
  · exact fun moving => ⟨kind, later, transaction, found, moving⟩

/-- What a request has done to the log. -/
structure LogStep (one : Served) : Prop where
  /-- What landed is appended. -/
  grown : ∃ done, one.after.landed = one.before.landed ++ done
  /-- A move is logged, and nothing else is. -/
  log : if one.moved = true then
      ∃ entry, Logged one entry ∧
        one.after.events = (entry :: one.before.events).take recentEventsKeep
    else one.after.events = one.before.events

/-- A logged move is a step of the log. -/
theorem LogStep.of_logged {one : Served} {done : List Transaction} {transaction : Transaction}
    (entry : EventLog) (landed : one.after.landed = one.before.landed ++ done)
    (member : transaction ∈ done) (carries : one.request.carries transaction = true)
    (logged : Logged one entry)
    (events : one.after.events = (entry :: one.before.events).take recentEventsKeep) :
    LogStep one := by
  have moved : one.moved = true := by
    rw [Served.moved, Served.landed_eq landed]
    exact List.any_eq_true.mpr ⟨transaction, member, carries⟩
  refine ⟨⟨done, landed⟩, ?_⟩
  rw [if_pos moved]
  exact ⟨entry, logged, events⟩

section Returning

variable {α : Type} {cluster : Cluster} {world : World}

/-- A value is returned with a world that fits it. -/
abbrev Returning (cluster : Cluster) (ok : α → World → Prop) (program : Client α)
    (world : World) : Prop :=
  (chainSystem cluster).Serves (fun _ => True) ok program world

/-- A quiet program has landed nothing. -/
theorem Quietly.returning {mid : α → World → Prop} {program : Client α}
    (quiet : Quietly cluster mid program world) :
    Returning cluster (fun value world' => Lands cluster world world' [] ∧ mid value world')
      program world :=
  (serves_quietly (fun _ _ _ _ _ => trivial) trivial quiet).weaken fun _ _ holds => holds.2

/-- A submitting program that returns has landed a whole plan. -/
theorem Submits.returning {plans : List Transaction → Prop}
    {mid : List Transaction → α → World → Prop} {program : Client α}
    (submits : Submits cluster plans mid program world) :
    Returning cluster (fun value world' => ∃ plan, plans plan ∧ Lands cluster world world' plan ∧
      mid plan value world') program world :=
  serves_submits submits fun _ _ => trivial

/-- Logging inserts at the front and truncates. -/
theorem returning_logEvent (kind : String) (amountUi : ℚ) (sig : Signature) :
    Returning cluster (fun _ world' => world' = { world with
      events := (⟨sig, kind, amountUi⟩ :: world.events).take recentEventsKeep })
      (logEvent kind amountUi sig) world := by
  refine ⟨trivial, fun log world' ⟨choice, read⟩ => ?_⟩
  obtain ⟨rfl, rfl⟩ := Prod.mk.inj read
  refine ⟨trivial, fun reply world' ⟨choice', written⟩ => ?_⟩
  obtain ⟨-, rfl⟩ := Prod.mk.inj written
  exact ⟨trivial, fun _ _ => rfl⟩

end Returning

section Steps

variable {sdk : Sdk} {cluster : Cluster} {s : AppState} {world world' world'' : World}

/-- Reading after a request's step adds nothing to it. -/
theorem LogStep.quiet {request : Request} (step : LogStep ⟨request, world, world'⟩)
    (quiet : Lands cluster world' world'' []) : LogStep ⟨request, world, world''⟩ := by
  obtain ⟨⟨done, grown⟩, log⟩ := step
  have same : (Served.mk request world world'').moved = (Served.mk request world world').moved := by
    simp only [Served.moved, Served.landed, quiet.same_landed]
  refine ⟨⟨done, quiet.same_landed.trans grown⟩, ?_⟩
  rw [same]
  split
  · rename_i moved
    rw [if_pos moved] at log
    obtain ⟨entry, ⟨kind, transaction, ⟨later, found⟩, moves⟩, events⟩ := log
    refine ⟨entry, ⟨kind, transaction, ⟨later, ?_⟩, moves⟩, quiet.events.trans events⟩
    exact quiet.same_landed ▸ found
  · rename_i still
    rw [if_neg still] at log
    exact quiet.events.trans log

/-- Transactions landed, and none of them deposits. -/
def Prepares (cluster : Cluster) (world world' : World) : Prop :=
  ∃ done, Lands cluster world world' done ∧
    ∀ transaction ∈ done, Request.init.carries transaction = false

/-- Preparations compose. -/
theorem Prepares.trans (first : Prepares cluster world world')
    (second : Prepares cluster world' world'') : Prepares cluster world world'' := by
  obtain ⟨done, landed, none⟩ := first
  obtain ⟨more, landed', none'⟩ := second
  exact ⟨done ++ more, landed.trans landed', List.forall_mem_append.mpr ⟨none, none'⟩⟩

/-- A quiet program prepares nothing. -/
theorem Prepares.of_quiet (quiet : Lands cluster world world' []) :
    Prepares cluster world world' :=
  ⟨[], quiet, by simp⟩

/-- A landed transaction without a deposit prepares. -/
theorem Prepares.of_lands {transaction : Transaction}
    (landed : Lands cluster world world' [transaction])
    (none : Request.init.carries transaction = false) : Prepares cluster world world' := by
  refine ⟨[transaction], landed, fun other member => ?_⟩
  rw [List.mem_singleton.mp member]
  exact none

/-- An init's step after preparations is the step of both. -/
theorem Prepares.logStep (prepares : Prepares cluster world world')
    (step : LogStep ⟨.init, world', world''⟩) : LogStep ⟨.init, world, world''⟩ := by
  obtain ⟨done, landed, none⟩ := prepares
  obtain ⟨⟨more, grown⟩, log⟩ := step
  have whole : world''.landed = world.landed ++ (done ++ more) := by
    rw [grown, landed.landed, List.append_assoc]
  have same : (Served.mk .init world world'').moved = (Served.mk .init world' world'').moved := by
    rw [Served.moved, Served.moved, Served.landed_eq whole, Served.landed_eq grown]
    have nothing : done.any Request.init.carries = false := by
      simpa using none
    rw [List.any_append, nothing, Bool.false_or]
  refine ⟨⟨_, whole⟩, ?_⟩
  rw [same]
  split
  · rename_i moved
    rw [if_pos moved] at log
    obtain ⟨entry, ⟨kind, transaction, ⟨later, found⟩, moves⟩, events⟩ := log
    refine ⟨entry, ⟨kind, transaction, ⟨?_, found⟩, moves⟩, by rw [← landed.events]; exact events⟩
    have longer := congrArg List.length landed.landed
    rw [List.length_append] at longer
    simp only at later ⊢
    omega
  · rename_i still
    rw [if_neg still] at log
    exact log.trans landed.events

/-- The transaction that lands at the end of a world is the one at its place. -/
theorem Lands.points (entry : EventLog) {transaction : Transaction} {rest : List Transaction}
    (before : ∃ done, Lands cluster world world' done)
    (here : entry.sig = ⟨world'.landed.length⟩)
    (lands : world''.landed = world'.landed ++ (transaction :: rest)) :
    entry.Points world world'' transaction := by
  obtain ⟨done, landed⟩ := before
  have longer := congrArg List.length landed.landed
  rw [List.length_append] at longer
  refine ⟨?_, ?_⟩
  · rw [here]
    simp only
    omega
  · rw [here, lands, List.getElem?_append_right le_rfl]
    simp

/-! ## Init -/

/-- Creating the mint, or finding it there, prepares. -/
theorem ensureMint_returning :
    Returning cluster (fun _ world' => Prepares cluster world world') (ensureMint sdk s)
      world := by
  refine (quietly_mintExists _).returning.bind ?_
  rintro found after ⟨-, rfl⟩
  split
  · have creates : Returning cluster (fun _ world' => Prepares cluster after world')
        (createConfidentialMint sdk s) after := by
      refine (quietly_getMinimumBalanceForRentExemption _).returning.bind ?_
      rintro rent _ ⟨-, rfl, rfl⟩
      refine (follows_sendTx _ _ _).returning.weaken ?_
      rintro sig world' ⟨plan, rfl, landed, -⟩
      exact .of_lands landed rfl
    exact creates.bind fun sig world' prepares => System.serves_pure trivial prepares
  · refine quietly_verifyMintMatches.returning.bind ?_
    rintro ⟨⟩ world' ⟨quiet, -⟩
    exact System.serves_pure trivial (.of_quiet quiet)

/-- Creating and configuring an account, or finding it there, prepares. -/
theorem ensureConfidentialAccount_returning (owner : Wallet) :
    Returning cluster (fun _ world' => Prepares cluster world world')
      (ensureConfidentialAccount sdk s owner) world := by
  refine (quietly_ataIsConfigured _).returning.bind ?_
  rintro found after ⟨-, rfl, -⟩
  split
  · refine (follows_sendTx _ _ _).returning.bind ?_
    rintro created w1 ⟨plan, rfl, landed, -⟩
    refine ((configureAccountForConfidentialTransfers_submits sdk cluster _ _ _
      _).returning.mapError _).bind ?_
    rintro configured w2 ⟨plan, ⟨proofData, -, rfl⟩, landed', -⟩
    have first : Prepares cluster after w1 := .of_lands landed rfl
    exact System.serves_pure trivial (first.trans (.of_lands landed' rfl))
  · exact System.serves_pure trivial (.of_quiet (.refl _ _))

/-- Minting what is lacking prepares. -/
theorem mintLacking_returning (needed senderPublicBase : Nat) :
    Returning cluster (fun _ world' => Prepares cluster world world')
      (mintLacking s needed senderPublicBase) world := by
  unfold mintLacking
  split
  · refine (follows_sendTx _ _ _).returning.bind ?_
    rintro sig world' ⟨plan, rfl, landed, -⟩
    exact System.serves_pure trivial (.of_lands landed rfl)
  · exact System.serves_pure trivial (.of_quiet (.refl _ _))

/-- Funding the sender logs its deposit. -/
theorem fundSender_returning (needed senderPublicBase : Nat) :
    Returning cluster (fun _ world' => LogStep ⟨.init, world, world'⟩)
      (fundSender s needed senderPublicBase) world := by
  refine (mintLacking_returning _ _).bind ?_
  rintro minted w1 minting
  refine ((depositToConfidential_submits cluster _ _ _ _ _ _).returning.mapError _).bind ?_
  rintro depSig w2 ⟨plan, rfl, deposited, rfl, -⟩
  refine ((applyPendingBalance_submits cluster _ _ _ _).returning.mapError _).bind ?_
  rintro applySig w3 ⟨applying, -, applied, -⟩
  refine (returning_logEvent _ _ _).bind ?_
  rintro ⟨⟩ w4 rfl
  refine System.serves_pure trivial (minting.logStep ?_)
  have events : w3.events = w1.events := by
    rw [applied.events, deposited.events]
  have landed : w3.landed = w1.landed ++ (depositTransaction s.keys.payer s.keys.sender s.mint
      needed s.cfg.mintDecimals :: applying) := by
    rw [applied.landed, deposited.landed, List.append_assoc]
    rfl
  let entry : EventLog :=
    ⟨⟨w1.landed.length⟩, "init-deposit", baseToUi needed s.cfg.mintDecimals⟩
  have start : ∃ done, Lands cluster w1 w1 done := ⟨[], .refl _ _⟩
  have points := Lands.points entry start rfl landed
  exact LogStep.of_logged entry landed List.mem_cons_self rfl
    ⟨rfl, _, points, iff_of_true rfl rfl⟩ (by simp only [events, entry])

/-- Topping the sender up logs a deposit where it makes one. -/
theorem topUpSender_returning :
    Returning cluster (fun _ world' => LogStep ⟨.init, world, world'⟩) (topUpSender s)
      world := by
  refine (quietly_readAccountView _).returning.bind ?_
  rintro view _ ⟨-, rfl, -⟩
  dsimp only
  split
  · exact fundSender_returning _ _
  · refine System.serves_pure trivial ⟨⟨[], (List.append_nil _).symm⟩, ?_⟩
    simp [Served.moved, Served.landed]

/-- An init logs its deposit, under the deposit's own signature, where it makes one. -/
theorem initHandler_logs :
    Returning cluster (fun _ world' => LogStep ⟨.init, world, world'⟩) (initHandler sdk s)
      world := by
  refine System.Serves.catchPanic ?_ _
  refine (quietly_requireFunds _ _ _ _).returning.bind ?_
  rintro ⟨⟩ after ⟨-, rfl⟩
  refine ensureMint_returning.bind ?_
  rintro mintSigs w1 first
  refine (ensureConfidentialAccount_returning _).bind ?_
  rintro senderSigs w2 second
  refine (ensureConfidentialAccount_returning _).bind ?_
  rintro receiverSigs w3 third
  refine topUpSender_returning.bind ?_
  rintro topUpSigs w4 step
  refine quietly_readLedgerState.returning.bind ?_
  rintro state w5 ⟨quiet, -⟩
  exact System.serves_pure trivial (((first.trans second).trans third).logStep (step.quiet quiet))

/-! ## Transfer -/

/-- The fourth transaction of a transfer is not the last one, and transfers nothing. -/
theorem TransferRun.fourth (sdk : Sdk) (cluster : Cluster) (run : TransferRun)
    (before : List Transaction) :
    ∃ transaction, (before ++ run.transactions sdk cluster)[before.length + 3]? =
        some transaction ∧
      3 < (run.transactions sdk cluster).length ∧
      ∀ instruction ∈ transaction.instructions, instruction.isInnerTransfer = false := by
  obtain ⟨first, later, stages, more⟩ : ∃ first later,
      run.stagingTransactions sdk cluster = first :: later ∧ later ≠ [] :=
    ⟨_, _, rfl, laterTransactions_ne_nil _ _ _ _ _ _⟩
  obtain ⟨fourth, rest, rfl⟩ := List.exists_cons_of_ne_nil more
  have shape : run.transactions sdk cluster = run.equalityTransaction sdk cluster ::
      run.validityTransaction sdk cluster :: first :: fourth ::
        (rest ++ [run.transferTransaction]) := by
    simp [TransferRun.transactions, TransferRun.setupTransactions, stages]
  have early : fourth ∈ run.setupTransactions sdk cluster := by
    simp [TransferRun.setupTransactions, stages]
  refine ⟨fourth, ?_, by simp [shape], fun instruction inside => ?_⟩
  · rw [List.getElem?_append_right (by omega), shape]
    simp
  · exact Instruction.isInnerTransfer_of_quiet
      (run.setup_quiet sdk cluster fourth early instruction inside)

/-- Only a transfer moves for a transfer. -/
theorem Request.moves_transfer {amountUi : Option ℚ} {instruction : Instruction} :
    (Request.transfer amountUi).moves instruction = instruction.isInnerTransfer := by
  cases instruction <;> rfl

/-- A transfer logs the fourth transaction that it landed. -/
theorem transferHandler_logs (amountUi : Option ℚ) :
    Returning cluster (fun _ world' => LogStep ⟨.transfer amountUi, world, world'⟩)
      (transferHandler sdk s amountUi) world := by
  refine (surely_emit _ _).quietly.returning.bind ?_
  rintro ⟨⟩ w1 ⟨quiet1, -⟩
  refine System.Serves.catchPanic ?_ _
  refine quietly_requireInitialized.returning.bind ?_
  rintro ⟨⟩ after ⟨-, rfl⟩
  refine (quietly_requireFunds _ _ _ _).returning.bind ?_
  rintro ⟨⟩ after ⟨-, rfl⟩
  refine System.Serves.bind (System.Serves.catchError (transferConfidentialWithProgress_submits sdk
    cluster _ _ _ _ _ _ _).returning fun reason failed _ => ?_) ?_
  · refine (surely_emit _ _).quietly.returning.bind ?_
    exact fun _ _ _ => System.serves_fail trivial
  rintro sigs w2 ⟨plan, -, landed, run, -, rfl, -, rfl, -⟩
  obtain ⟨fourth, found, count, still⟩ := run.fourth sdk cluster after.landed
  have named : (Signature.span after.landed.length (run.transactions sdk cluster).length)[3]? =
      some ⟨after.landed.length + 3⟩ := by
    simp [Signature.span, count]
  unfold logTransfer
  simp only [named]
  refine (returning_logEvent _ _ _).bind ?_
  rintro ⟨⟩ w3 rfl
  refine quietly_readLedgerState.returning.bind ?_
  rintro state w4 ⟨quiet, -⟩
  refine System.serves_pure trivial (LogStep.quiet ?_ quiet)
  have since : w2.landed = world.landed ++ run.transactions sdk cluster := by
    rw [landed.landed, quiet1.same_landed]
  have member : run.transferTransaction ∈ run.transactions sdk cluster := by
    simp [TransferRun.transactions]
  refine LogStep.of_logged
    ⟨⟨after.landed.length + 3⟩, "transfer", amountUi.getD s.cfg.transferAmountUi⟩ since
    member ?_ ⟨rfl, fourth, ⟨?_, ?_⟩, ?_⟩ ?_
  · simp [Request.carries, Request.moves_transfer, TransferRun.transferTransaction,
      transferInstructions, Instruction.isInnerTransfer]
  · simp only [quiet1.same_landed]
    omega
  · simpa [landed.landed] using found
  · refine iff_of_false ?_ (by simp [Request.isTransfer])
    simp only [Request.carries, List.any_eq_true, Request.moves_transfer]
    rintro ⟨instruction, inside, moves⟩
    rw [still instruction inside] at moves
    contradiction
  · simp only [landed.events, quiet1.events]

/-! ## Apply -/

/-- An apply logs the transaction that it landed. -/
theorem applyPendingHandler_logs (account : String) :
    Returning cluster (fun _ world' => LogStep ⟨.applyPending account, world, world'⟩)
      (applyPendingHandler s account) world := by
  refine (surely_emit _ _).quietly.returning.bind ?_
  rintro ⟨⟩ w1 ⟨quiet1, -⟩
  refine System.Serves.catchError (System.Serves.catchPanic ?_ _) fun reason failed _ => ?_
  case refine_2 =>
    refine (surely_emit _ _).quietly.returning.bind ?_
    exact fun _ _ _ => System.serves_fail trivial
  refine quietly_requireInitialized.returning.bind ?_
  rintro ⟨⟩ after ⟨-, rfl⟩
  refine (surely_emit _ _).quietly.returning.bind ?_
  rintro ⟨⟩ w2 ⟨quiet2, -⟩
  refine (quietly_applyOwner _).returning.bind ?_
  rintro owner after ⟨-, rfl⟩
  have reading : Quietly cluster (fun _ _ => True) ((do
      let view ← readAccountView s owner
      pure view.pendingUi).catchError fun _ => pure 0) after := by
    refine System.Serves.catchError ?_ fun _ _ stays => System.serves_pure stays trivial
    exact quietly_bind (quietly_readAccountView owner) fun _ _ _ _ => quietly_pure trivial
  refine reading.returning.bind ?_
  rintro appliedAmountUi w3 ⟨quiet3, -⟩
  refine ((applyPendingBalance_submits cluster _ _ _ _).returning.mapError _).bind ?_
  rintro sig w4 ⟨plan, ⟨extension, values, -, -, rfl⟩, landed, rfl, -⟩
  refine (surely_emit _ _).quietly.returning.bind ?_
  rintro ⟨⟩ w5 ⟨quiet5, -⟩
  refine (surely_emit _ _).quietly.returning.bind ?_
  rintro ⟨⟩ w6 ⟨quiet6, -⟩
  refine (returning_logEvent _ _ _).bind ?_
  rintro ⟨⟩ w7 rfl
  refine quietly_readLedgerState.returning.bind ?_
  rintro state w8 ⟨quiet, -⟩
  refine System.serves_pure trivial (LogStep.quiet ?_ quiet)
  have before : Lands cluster world w3 [] := (quiet1.after_quiet quiet2).after_quiet quiet3
  have events : w6.events = world.events := by
    rw [quiet6.events, quiet5.events, landed.events, before.events]
  let entry : EventLog := ⟨⟨w3.landed.length⟩, s!"apply-pending-{account}", appliedAmountUi⟩
  have last : w6.landed =
      w3.landed ++ [applyPendingTransaction s.keys.payer owner s.mint values] := by
    rw [quiet6.same_landed, quiet5.same_landed, landed.landed]
  have points := Lands.points entry ⟨[], before⟩ rfl last
  rw [before.same_landed] at last
  exact LogStep.of_logged entry last (List.mem_singleton_self _) rfl
    ⟨rfl, _, points, iff_of_true rfl rfl⟩ (by simp only [events, entry])

/-! ## Sessions -/

/-- What a served request has done to the log. -/
theorem request_logStep {request : Request} {response : ActionResponse}
    (ended : (chainSystem cluster).Ends world (request.program sdk s) (.ok response) world') :
    LogStep ⟨request, world, world'⟩ := by
  cases request with
  | init => exact initHandler_logs.ends ended response rfl
  | transfer amountUi => exact (transferHandler_logs amountUi).ends ended response rfl
  | applyPending account => exact (applyPendingHandler_logs account).ends ended response rfl

/-- One more step keeps the log the list of the newest moves. -/
theorem LogStep.logged {one : Served} {served : List Served} (step : LogStep one)
    (logged : List.Forall₂ Logged ((loggedMoves served).take recentEventsKeep)
      one.before.events) :
    List.Forall₂ Logged ((loggedMoves (one :: served)).take recentEventsKeep)
      one.after.events := by
  obtain ⟨-, log⟩ := step
  split at log
  · rename_i moved
    obtain ⟨entry, here, events⟩ := log
    have newest : loggedMoves (one :: served) = one :: loggedMoves served :=
      List.filter_cons_of_pos moved
    have shorter := List.forall₂_take 7 logged
    rw [List.take_take] at shorter
    rw [newest, events, recentEventsKeep, List.take_succ_cons, List.take_succ_cons]
    exact .cons here shorter
  · rename_i still
    have same : loggedMoves (one :: served) = loggedMoves served :=
      List.filter_cons_of_neg still
    rw [same, log]
    exact logged

/-- The log of a session from an empty one: its newest moves, each with what it points at. -/
theorem session_logged {served : List Served} (session : Session sdk cluster s world served world')
    (fresh : world.events = []) :
    List.Forall₂ Logged ((loggedMoves served).take recentEventsKeep) world'.events := by
  induction session with
  | start =>
    rw [fresh]
    exact .nil
  | serve earlier ended ih => exact (request_logStep ended).logged ih

/-- Where what is logged names its move unless it is a transfer, all of a list does unless there
is a transfer in it. -/
theorem forall₂_names {moves : List Served} {log : List EventLog}
    (logged : List.Forall₂ Logged moves log) :
    List.Forall₂ Names moves log ↔ ∀ one ∈ moves, one.request.isTransfer = false := by
  induction logged with
  | nil => simp
  | cons here _ ih => simp [logged_names here, ih]

end Steps

/-- Over every session from an empty log, whatever the proofs and their lengths, the log that the
server shows is the list of the newest eight moves, each under the transaction that executed it,
exactly when none of these moves is a transfer. -/
theorem recentEvents_iff (sdk : Sdk) (cluster : Cluster) (s : AppState) (start finish after : World)
    (served : List Served) (state : LedgerState) (fresh : start.events = [])
    (session : Session sdk cluster s start served finish)
    (read : (chainSystem cluster).Ends finish (stateHandler s) (.ok state) after) :
    LogNames served state.auditor.recentEvents ↔
      ∀ one ∈ (loggedMoves served).take recentEventsKeep, one.request.isTransfer = false := by
  obtain ⟨-, shown⟩ := quietly_readLedgerState.ends read state rfl
  rw [shown, LogNames]
  exact forall₂_names (session_logged session fresh)

/-- A request of the demo with the ideal proof system. -/
def idealRequest (request : Request) (world : World) : Outcome ClientError ActionResponse × World :=
  (chain Cluster.ideal).run (request.program Sdk.ideal .demo) world []

/-- Reading the demo's state. -/
def idealState (world : World) : Outcome ClientError LedgerState × World :=
  (chain Cluster.ideal).run (stateHandler .demo) world []

/-- A successful request of the demo is a session of its own. -/
theorem session_idealRequest (request : Request) (world : World)
    (succeeds : (idealRequest request world).1.isOk = true) :
    Session Sdk.ideal Cluster.ideal .demo world
      [⟨request, world, (idealRequest request world).2⟩] (idealRequest request world).2 := by
  obtain ⟨response, returned⟩ := Outcome.isOk_iff.mp succeeds
  exact .serve .start ((chain Cluster.ideal).run_ends_with returned)

/-- After one init of a sender with nothing, the log is the deposit under its own signature. -/
theorem recentEvents_iff_init : ∃ state,
    (idealState (idealRequest .init (.demo 0 0)).2).1 = .ok state ∧
      state.auditor.recentEvents.length = 1 ∧
      LogNames [⟨.init, .demo 0 0, (idealRequest .init (.demo 0 0)).2⟩]
        state.auditor.recentEvents := by
  let after := (idealRequest .init (.demo 0 0)).2
  have session := session_idealRequest .init (.demo 0 0) (by decide +kernel)
  have reads : (idealState after).1.isOk = true := by decide +kernel
  obtain ⟨state, read⟩ := Outcome.isOk_iff.mp reads
  have untransferred : ∀ one ∈ (loggedMoves [⟨.init, .demo 0 0, after⟩]).take
      recentEventsKeep, one.request.isTransfer = false := by
    decide +kernel
  have names := (recentEvents_iff Sdk.ideal Cluster.ideal .demo (.demo 0 0) after _ _ state rfl
    session ((chain Cluster.ideal).run_ends_with read)).mpr untransferred
  have one : (loggedMoves [⟨.init, .demo 0 0, after⟩]).length = 1 := by decide +kernel
  have length : state.auditor.recentEvents.length = 1 := by
    rw [← names.length_eq, List.length_take, one]
    rfl
  exact ⟨state, read, length, names⟩

/-- A session of one transfer logs one entry, which names its move only where it is the
transaction's. -/
theorem logNames_transfer {amountUi : Option ℚ} {world world' : World} {entry : EventLog}
    (moved : (Served.mk (.transfer amountUi) world world').moved = true)
    (names : LogNames [⟨.transfer amountUi, world, world'⟩] [entry]) :
    (world'.landed[entry.sig.position]?.any (Request.transfer amountUi).carries) = true := by
  have one : loggedMoves [⟨.transfer amountUi, world, world'⟩] =
      [⟨.transfer amountUi, world, world'⟩] := List.filter_cons_of_pos moved
  rw [LogNames, one] at names
  obtain ⟨⟨-, -, transaction, found, carries⟩, -⟩ := List.forall₂_cons.mp names
  rw [found]
  exact carries

/-- After one transfer the log holds one entry, which names the fourth transaction of the run; the
transfer itself is the fifth. -/
theorem transfer_misNamed : ∃ state after,
    Session Sdk.ideal Cluster.ideal .demo (.demo 0 5)
      [⟨.transfer none, .demo 0 5, (idealRequest (.transfer none) (.demo 0 5)).2⟩]
      (idealRequest (.transfer none) (.demo 0 5)).2 ∧
    (chainSystem Cluster.ideal).Ends (idealRequest (.transfer none) (.demo 0 5)).2
      (stateHandler .demo) (.ok state) after ∧
    ¬ LogNames
      [⟨.transfer none, .demo 0 5, (idealRequest (.transfer none) (.demo 0 5)).2⟩]
      state.auditor.recentEvents := by
  have succeeds : (idealRequest (.transfer none) (.demo 0 5)).1.isOk = true := by decide +kernel
  have reads : (idealState (idealRequest (.transfer none) (.demo 0 5)).2).1.isOk = true := by
    decide +kernel
  obtain ⟨state, read⟩ := Outcome.isOk_iff.mp reads
  have ended := (chain Cluster.ideal).run_ends_with read
  refine ⟨state, _, session_idealRequest _ _ succeeds, ended, fun names => ?_⟩
  have shown := (quietly_readLedgerState.ends ended state rfl).2
  have logged : (idealRequest (.transfer none) (.demo 0 5)).2.events =
      [⟨⟨3⟩, "transfer", 2 / 100⟩] := by
    decide +kernel
  rw [shown, logged] at names
  exact absurd (logNames_transfer (by decide +kernel) names) (by decide +kernel)

end ConfidentialBalances
