import ConfidentialBalances.DemoServer

/-!
# What an init sees

A client that could not read an account is told what it is told of an account
that is not there, and the server goes on with a view of nothing. An init decides
by such a view what it mints and deposits, so what it does depends on whether the
account was read. An init is its preparation, the view of the sender's account,
and the rest.
-/

namespace ConfidentialBalances

open Effect

/-! ## Reading accounts -/

/-- Whether the last account that was asked for was read, when it was so before the exchange. -/
def Exchange.sight (seen : Bool) : Exchange Reply → Bool
  | ⟨.getAccount key, reply⟩ => !Exchange.unread ⟨.getAccount key, reply⟩
  | _ => seen

/-- Whether the last account that was asked for was read. -/
def sees (seen : Bool) (transcript : List (Exchange Reply)) : Bool :=
  transcript.foldl Exchange.sight seen

section Reading

variable {transcript : List (Exchange Reply)} {seen : Bool}

/-- A program that reads no further account sees what it is told. -/
theorem sighted_of_unasked
    (none : ∀ exchange ∈ transcript, ∀ key, exchange.1 ≠ .getAccount key) :
    Sighted transcript := by
  rintro ⟨request, reply⟩ member
  cases request with
  | getAccount key => exact absurd rfl (none _ member key)
  | _ => rfl

/-- An account that could not be read is a request that failed. -/
theorem failed_of_unread (blind : ¬ Sighted transcript) :
    ∃ exchange ∈ transcript, Exchange.failed exchange = true := by
  by_contra none
  refine blind fun exchange member => ?_
  by_contra read
  refine none ⟨exchange, member, ?_⟩
  have unread : Exchange.unread exchange = true := by simpa using read
  obtain ⟨request, reply⟩ := exchange
  cases request with
  | getAccount key => exact unread
  | _ => exact absurd unread Bool.false_ne_true

/-- A request for no account leaves what was seen. -/
theorem sight_blind {exchange : Exchange Reply} (none : ∀ key, exchange.1 ≠ .getAccount key) :
    Exchange.sight seen exchange = seen := by
  obtain ⟨request, reply⟩ := exchange
  cases request with
  | getAccount key => exact absurd rfl (none key)
  | _ => rfl

/-- Without a request for an account, what was seen stays so. -/
theorem sees_blind (none : ∀ exchange ∈ transcript, ∀ key, exchange.1 ≠ .getAccount key) :
    sees seen transcript = seen := by
  induction transcript with
  | nil => rfl
  | cons exchange rest ih =>
    obtain ⟨here, later⟩ := List.forall_mem_cons.mp none
    rw [sees, List.foldl_cons, sight_blind here]
    exact ih later

/-- Where only the first request is for an account, that account was read where every one was. -/
theorem sees_iff_sighted {exchange : Exchange Reply} {key : Pubkey}
    (reads : exchange.1 = .getAccount key)
    (none : ∀ later ∈ transcript, ∀ key, later.1 ≠ .getAccount key) :
    sees seen (exchange :: transcript) = true ↔ Sighted (exchange :: transcript) := by
  have later : sees (Exchange.sight seen exchange) transcript = Exchange.sight seen exchange :=
    sees_blind none
  have sighted : Sighted transcript := sighted_of_unasked none
  obtain ⟨request, reply⟩ := exchange
  obtain rfl : request = .getAccount key := reads
  rw [sees, List.foldl_cons, ← sees, later]
  simpa [Exchange.sight, Sighted] using fun _ => sighted

end Reading

/-! ## Views -/

section Views

variable {α : Type} {cluster : Cluster} {world : World} {s : AppState}

/-- A run that asks for an account first is served, or it could not read the account. -/
theorem shows_account {post : Outcome ClientError α → List (Exchange Reply) → World → Prop}
    {key : Pubkey} {next : Reply (.getAccount key) → Client α}
    (served : (chainSystem cluster).Shows (fun outcome transcript => post outcome
      (⟨.getAccount key, world.ledger.fetch key⟩ :: transcript)) (next (world.ledger.fetch key))
      world)
    (unread : ∀ cause, (chainSystem cluster).Shows (fun outcome transcript => post outcome
      (⟨.getAccount key, .error (.accountNotFound key (some cause))⟩ :: transcript))
      (next (.error (.accountNotFound key (some cause)))) world) :
    (chainSystem cluster).Shows post (ask (.getAccount key) >>= next) world := by
  refine (chain cluster).shows_call.mpr fun choice => ?_
  cases choice with
  | succeed => exact served
  | fail cause => exact unread cause

/-- What the ledger holds at an address is an answer. -/
theorem fetch_read (ledger : Ledger) (key : Pubkey) :
    Exchange.unread (⟨.getAccount key, ledger.fetch key⟩ : Exchange Reply) = false := by
  unfold Ledger.fetch
  split <;> rfl

/-- Once the account is there, a view asks for no further one. -/
theorem viewAccount_uses (owner : Wallet) (token : TokenAccount) :
    (viewAccount s owner token).Uses fun request => ∀ key, request ≠ .getAccount key := by
  unfold viewAccount
  cases token.confidential with
  | none => trivial
  | some extension =>
    refine ⟨by simp, fun reply => ?_⟩
    cases reply <;> trivial

/-- A view shows the balances of the ledger where the account was read, and is blank where it was
not. -/
theorem readAccountView_sees (owner : Wallet) :
    (chainSystem cluster).Shows (fun outcome transcript world' => Unheard transcript ∧
      ∀ view, outcome = .ok view → world' = world ∧
        (∀ seen, sees seen transcript = true ↔ Sighted transcript) ∧
        (Sighted transcript → s.Shows world.ledger owner s.cfg.mintDecimals view) ∧
        (¬ Sighted transcript → view.Blank)) (readAccountView s owner) world := by
  have nothing : (0 : ℚ) = baseToUi 0 s.cfg.mintDecimals := by simp [baseToUi]
  refine shows_account ?_ fun cause => ?_
  case refine_2 =>
    -- The account was not read.
    refine System.shows_done.mpr ⟨⟨rfl, rfl, rfl⟩, fun view same => ?_⟩
    obtain rfl := Outcome.ok.inj same
    exact ⟨rfl, fun seen => sees_iff_sighted rfl (by simp),
      fun sighted => absurd (sighted _ List.mem_cons_self) Bool.true_eq_false.mp,
      fun _ => ⟨rfl, rfl, rfl⟩⟩
  unfold Ledger.fetch
  split
  · rename_i unused
    refine System.shows_done.mpr ⟨⟨rfl, rfl, rfl⟩, fun view same => ?_⟩
    obtain rfl := Outcome.ok.inj same
    have none : world.ledger.confidential? (s.tokenAccount owner) = none := by
      simp [Ledger.confidential?, unused.1, AccountData.token?]
    refine ⟨rfl, fun seen => sees_iff_sighted rfl (by simp), fun _ => ⟨?_, ?_, ?_⟩,
      fun blind => absurd (by simp [Sighted, Exchange.unread]) blind⟩
    · simpa [AppState.publicBalance, unused.1, AccountData.token?] using nothing
    · simpa [AppState.openedPending, none] using nothing
    · simpa [AppState.availableBalance, none] using nothing
  · cases held : world.ledger.data (s.tokenAccount owner) with
    | token token =>
      intro transcript outcome world' ran
      change (chainSystem cluster).Runs world (viewAccount s owner token) transcript world'
        (.done outcome) at ran
      have unheard := ((silent_viewAccount s owner token).shows _ _ _ ran).1
      have none := ran.uses (viewAccount_uses owner token)
      have sighted : Sighted (⟨.getAccount (s.tokenAccount owner), .ok (.token token)⟩ ::
          transcript) := List.forall_mem_cons.mpr ⟨rfl, sighted_of_unasked none⟩
      refine ⟨⟨unheard.submitted, unheard.confirmed, unheard.sent⟩, fun view same => ?_⟩
      obtain ⟨rfl, shown⟩ := (quietly_viewAccount held).ends ran.reaches view same
      exact ⟨rfl, fun seen => sees_iff_sighted rfl none, fun _ => shown,
        fun blind => absurd sighted blind⟩
    | _ => exact System.shows_done.mpr ⟨⟨rfl, rfl, rfl⟩, fun view same => by contradiction⟩

/-- A ledger's state shows the balances of both owners where their accounts were read. -/
theorem readLedgerState_sees :
    (chainSystem cluster).Shows (fun outcome transcript world' => ∀ state, outcome = .ok state →
      world' = world ∧ state.decimals = s.cfg.mintDecimals ∧ (Sighted transcript →
        s.Shows world.ledger s.keys.sender s.cfg.mintDecimals state.sender ∧
        s.Shows world.ledger s.keys.receiver s.cfg.mintDecimals state.receiver))
      (readLedgerState s) world := by
  refine System.Shows.bind (readAccountView_sees s.keys.sender) ?_
    (fun _ _ _ _ state same => by contradiction) (fun _ _ _ _ state same => by contradiction)
  rintro sender first middle ⟨-, read⟩
  obtain ⟨rfl, -, shown, -⟩ := read sender rfl
  refine System.Shows.bind (readAccountView_sees s.keys.receiver) ?_
    (fun _ _ _ _ state same => by contradiction) (fun _ _ _ _ state same => by contradiction)
  rintro receiver second middle' ⟨-, read'⟩
  obtain ⟨rfl, -, shown', -⟩ := read' receiver rfl
  refine (chain cluster).shows_call.mpr fun choice => System.shows_done.mpr ?_
  rintro state same
  obtain rfl := Outcome.ok.inj same
  refine ⟨rfl, rfl, fun sighted => ?_⟩
  obtain ⟨early, late⟩ := (sighted_append _ _).mp sighted
  obtain ⟨middle, -⟩ := (sighted_append _ _).mp late
  exact ⟨shown early, shown' middle⟩

end Views

/-! ## Funding by sight -/

/-- The transaction mints or deposits. -/
def Transaction.funds (transaction : Transaction) : Bool :=
  transaction.instructions.any fun instruction => match instruction with
    | .mintTo _ _ _ _ _ => true
    | .deposit _ _ _ _ _ _ => true
    | _ => false

/-- A transaction that mints or deposits was confirmed. -/
def Exchange.funded (exchange : Exchange Reply) : Bool :=
  (Exchange.carried? exchange).any Transaction.funds

/-- Nothing was minted or deposited. -/
def Unfunded (transcript : List (Exchange Reply)) : Prop :=
  ∀ exchange ∈ transcript, Exchange.funded exchange = false

instance (transcript : List (Exchange Reply)) : Decidable (Unfunded transcript) :=
  inferInstanceAs (Decidable (∀ exchange ∈ transcript, _))

/-- Whenever something was minted or deposited, the last account that was asked for before had been
read. -/
def FundsBySight (seen : Bool) : List (Exchange Reply) → Prop
  | [] => True
  | exchange :: rest =>
    (Exchange.funded exchange = true → seen = true) ∧
      FundsBySight (Exchange.sight seen exchange) rest

instance FundsBySight.decidable : (seen : Bool) → (transcript : List (Exchange Reply)) →
    Decidable (FundsBySight seen transcript)
  | _, [] => .isTrue trivial
  | seen, exchange :: rest =>
    have := FundsBySight.decidable (Exchange.sight seen exchange) rest
    inferInstanceAs (Decidable (_ ∧ _))

section Sight

variable {first second transcript : List (Exchange Reply)} {seen : Bool}

/-- Exchanges in two parts fund nothing when neither part does. -/
theorem unfunded_append : Unfunded (first ++ second) ↔ Unfunded first ∧ Unfunded second :=
  List.forall_mem_append

/-- Whether something was minted or deposited shows in the transactions that were confirmed. -/
theorem unfunded_iff :
    Unfunded transcript ↔ ∀ transaction ∈ carried transcript, transaction.funds = false := by
  constructor
  · intro unfunded transaction member
    obtain ⟨exchange, inside, carries⟩ := List.mem_filterMap.mp member
    have none := unfunded exchange inside
    rw [Exchange.funded, carries] at none
    exact none
  · intro none exchange inside
    unfold Exchange.funded
    cases carries : Exchange.carried? exchange with
    | none => rfl
    | some transaction =>
      exact none transaction (List.mem_filterMap.mpr ⟨exchange, inside, carries⟩)

/-- Nothing is minted or deposited unheard. -/
theorem Unheard.unfunded (unheard : Unheard transcript) : Unfunded transcript := by
  rw [unfunded_iff, unheard.carried]
  simp

/-- One transcript after another. -/
theorem fundsBySight_append :
    FundsBySight seen (first ++ second) ↔
      FundsBySight seen first ∧ FundsBySight (sees seen first) second := by
  induction first generalizing seen with
  | nil => simp [FundsBySight, sees]
  | cons exchange rest ih =>
    simp only [List.cons_append, FundsBySight, ih, sees, List.foldl_cons, and_assoc]

/-- What funds nothing funds by sight. -/
theorem Unfunded.fundsBySight (unfunded : Unfunded transcript) : FundsBySight seen transcript := by
  induction transcript generalizing seen with
  | nil => trivial
  | cons exchange rest ih =>
    obtain ⟨here, later⟩ := List.forall_mem_cons.mp unfunded
    exact ⟨fun funded => absurd (here.symm.trans funded) Bool.false_ne_true, ih later⟩

/-- Without a request for an account, what is funded is funded by what was seen before. -/
theorem fundsBySight_blind (none : ∀ exchange ∈ transcript, ∀ key, exchange.1 ≠ .getAccount key) :
    FundsBySight seen transcript ↔ seen = true ∨ Unfunded transcript := by
  induction transcript with
  | nil => simp [FundsBySight, Unfunded]
  | cons exchange rest ih =>
    obtain ⟨here, later⟩ := List.forall_mem_cons.mp none
    rw [FundsBySight, sight_blind here, ih later]
    simp only [Unfunded, List.forall_mem_cons]
    cases seen <;> simp

end Sight

/-! ## What landed since -/

/-- Transactions landed since the start, none of this kind. -/
def Without (kind : Transaction → Bool) (start world : World) : Prop :=
  ∃ done, world.landed = start.landed ++ done ∧ ∀ transaction ∈ done, kind transaction = false

/-- Transactions landed since the start, one of this kind among them. -/
def Having (kind : Transaction → Bool) (start world : World) : Prop :=
  ∃ done, world.landed = start.landed ++ done ∧ ∃ transaction ∈ done, kind transaction = true

section Without

variable {α : Type} {cluster : Cluster} {kind kind' : Transaction → Bool}
variable {start world world' : World}

/-- At the start nothing has landed. -/
theorem Without.refl (kind : Transaction → Bool) (start : World) : Without kind start start :=
  ⟨[], by simp, by simp⟩

/-- Landing transactions of another kind. -/
theorem Without.lands {done : List Transaction} (here : Without kind start world)
    (landed : Lands cluster world world' done)
    (none : ∀ transaction ∈ done, kind transaction = false) : Without kind start world' := by
  obtain ⟨earlier, landedEarlier, before⟩ := here
  refine ⟨earlier ++ done, by rw [landed.landed, landedEarlier, List.append_assoc], ?_⟩
  exact List.forall_mem_append.mpr ⟨before, none⟩

/-- What is of no kind is of no narrower one. -/
theorem Without.narrow (here : Without kind start world)
    (narrower : ∀ transaction, kind transaction = false → kind' transaction = false) :
    Without kind' start world := by
  obtain ⟨done, landed, none⟩ := here
  exact ⟨done, landed, fun transaction member => narrower transaction (none transaction member)⟩

/-- Of which kinds transactions landed shows in what has landed. -/
theorem onChain_without (kind : Transaction → Bool) (start : World) :
    OnChain (Without kind start) := by
  rintro world world' - same ⟨done, landed, none⟩
  exact ⟨done, same.trans landed, none⟩

/-- A program that submits transactions of another kind. -/
theorem without_submits {plans : List Transaction → Prop}
    {mid : List Transaction → α → World → Prop} {program : Client α}
    (here : Without kind start world) (submits : Submits cluster plans mid program world)
    (none : ∀ plan, plans plan → ∀ transaction ∈ plan, kind transaction = false) :
    (chainSystem cluster).Serves (Without kind start) (fun value world' =>
      Without kind start world' ∧ ∃ plan, plans plan ∧ Lands cluster world world' plan ∧
        mid plan value world') program world := by
  refine (serves_submits submits ?_).weaken ?_
  · rintro world' (quiet | ⟨done, rest, planned, landed⟩)
    · exact here.lands quiet (by simp)
    · exact here.lands landed fun transaction member =>
        none _ planned transaction (List.mem_append_left _ member)
  · rintro value world' ⟨plan, planned, landed, holds⟩
    exact ⟨here.lands landed (none plan planned), plan, planned, landed, holds⟩

/-- What has landed since the start is of no such kind, or one of it is. -/
theorem Having.not_without (some : Having kind start world) : ¬ Without kind start world := by
  rintro ⟨done', landed', none⟩
  obtain ⟨done, landed, transaction, member, holds⟩ := some
  obtain rfl := List.append_cancel_left (landed.symm.trans landed')
  exact absurd (none transaction member) (by simp [holds])

/-- Landing more, one of this kind among it or among what had landed. -/
theorem Having.lands {done : List Transaction} (landed : Lands cluster world world' done)
    (here : Having kind start world ∨
      Without kind start world ∧ ∃ transaction ∈ done, kind transaction = true) :
    Having kind start world' := by
  rcases here with ⟨earlier, before, transaction, member, holds⟩ |
    ⟨⟨earlier, before, -⟩, transaction, member, holds⟩
  · exact ⟨earlier ++ done, by rw [landed.landed, before, List.append_assoc], transaction,
      List.mem_append_left _ member, holds⟩
  · exact ⟨earlier ++ done, by rw [landed.landed, before, List.append_assoc], transaction,
      List.mem_append_right _ member, holds⟩

/-- A run has funded nothing where nothing landed since that funds. -/
theorem unfunded_iff_without {program program' : Client α} {transcript : List (Exchange Reply)}
    (run : (chainSystem cluster).Runs world program transcript world' program') :
    Unfunded transcript ↔ Without Transaction.funds world world' := by
  rw [unfunded_iff]
  have landed := (runs_witnessed run).landed
  constructor
  · exact fun none => ⟨carried transcript, landed, none⟩
  · rintro ⟨done, same, none⟩
    obtain rfl := List.append_cancel_left (landed.symm.trans same)
    exact none

/-- A run that asks for no account while it may fund, and funds nothing afterwards, funds by sight
where the last account before it was read, or where it funds nothing at all. -/
theorem fundsBySight_iff {α β : Type} {program : Client α} {rest : α → Client β}
    {program' : Client β} {transcript : List (Exchange Reply)} {seen : Bool}
    (blind : program.Uses fun request => ∀ key, request ≠ .getAccount key)
    (after : ∀ value world' world'' later program', (chainSystem cluster).Runs world'
      (rest value) later world'' program' → Unfunded later)
    (run : (chainSystem cluster).Runs world (program >>= rest) transcript world' program') :
    FundsBySight seen transcript ↔ seen = true ∨ Unfunded transcript := by
  rcases run.bind_split with ⟨first, ran, -⟩ | ⟨value, before, middle, later, rfl, ran, rest⟩
  · exact fundsBySight_blind (ran.uses blind)
  · have none := after _ _ _ _ _ rest
    rw [fundsBySight_append, fundsBySight_blind (ran.uses blind), unfunded_append]
    exact ⟨fun both => both.1.imp_right fun unfunded => ⟨unfunded, none⟩,
      fun funds => ⟨funds.imp_right And.left, none.fundsBySight⟩⟩

end Without

/-! ## The parts of an init -/

section Init

variable (sdk : Sdk) (s : AppState)

/-- What an init does before it looks at the sender's balances. -/
def initPrepare : Client (List Signature) := do
  requireFunds s "payer" s.keys.payer 10000000 5
  let mintSigs ← ensureMint sdk s
  let senderSigs ← ensureConfidentialAccount sdk s s.keys.sender
  let receiverSigs ← ensureConfidentialAccount sdk s s.keys.receiver
  pure (mintSigs ++ senderSigs ++ receiverSigs)

/-- What it does about the balances that it views. -/
def initFund (view : AccountView) : Client (List Signature) :=
  let senderAvailBase := uiToBase view.availableUi s.cfg.mintDecimals
  if senderAvailBase < s.targetBase then
    fundSender s (s.targetBase - senderAvailBase) (uiToBase view.publicUi s.cfg.mintDecimals)
  else pure []

/-- What it does from there on. -/
def initRest (sigs : List Signature) (view : AccountView) : Client ActionResponse := do
  let topUpSigs ← initFund s view
  let state ← readLedgerState s
  pure ⟨true, sigs ++ topUpSigs, state⟩

/-- An init is its preparation, the view of the sender's account, and the rest. -/
theorem initHandler_eq : initHandler sdk s = runBlocking (do
    let sigs ← initPrepare sdk s
    let view ← readAccountView s s.keys.sender
    initRest s sigs view) := by
  simp only [initHandler, initPrepare, initRest, topUpSender, Program.bind_assoc]
  rfl

end Init

/-- The mint and the deposit of an init. -/
def initDeposit (s : AppState) (needed senderPublicBase : Nat) :
    Client (List Signature × Signature) := do
  let minted ← mintLacking s needed senderPublicBase
  let depSig ← (depositToConfidential s.keys.payer s.keys.sender s.mint needed
    s.cfg.mintDecimals).mapError (.labelled "deposit failed: ")
  pure (minted, depSig)

/-- What follows its deposit. -/
def initApply (s : AppState) (sigs : List Signature) (needed : Nat)
    (funded : List Signature × Signature) : Client ActionResponse := do
  let applySig ← (applyPendingBalance s.keys.payer s.keys.sender s.mint).mapError
    (.labelled "apply pending (sender) failed: ")
  logEvent "init-deposit" (baseToUi needed s.cfg.mintDecimals) funded.2
  let state ← readLedgerState s
  pure ⟨true, sigs ++ (funded.1 ++ [funded.2, applySig]), state⟩

section Rest

variable {cluster : Cluster} {s : AppState} {world world' : World}

/-- Minting and depositing ask for no account. -/
theorem initDeposit_uses (needed senderPublicBase : Nat) :
    (initDeposit s needed senderPublicBase).Uses
      fun request => ∀ key, request ≠ .getAccount key := by
  have sends (instructions : List Instruction) (signers : List Pubkey) (payer : Pubkey) :
      (sendTx instructions signers payer).Uses fun request => ∀ key, request ≠ .getAccount key :=
    uses_sendTx (by simp) (by simp) (by simp)
  refine Program.Uses.bind ?_ fun minted => ?_
  · unfold mintLacking
    split
    · exact (sends _ _ _).bind fun _ => trivial
    · trivial
  · refine Program.Uses.bind ?_ fun depSig => trivial
    exact (Program.uses_mapError _ _ _).mpr (sends _ _ _)

/-- Applying, logging and reading the ledger fund nothing. -/
theorem initApply_without (sigs : List Signature) (needed : Nat)
    (funded : List Signature × Signature) :
    (chainSystem cluster).Serves (Without Transaction.funds world) (fun _ _ => True)
      (initApply s sigs needed funded) world := by
  have onChain := onChain_without Transaction.funds world
  refine ((without_submits (.refl _ world) (applyPendingBalance_submits cluster _ _ _ _)
    ?_).mapError _).bind ?_
  · rintro plan ⟨extension, values, -, -, rfl⟩ transaction member
    obtain rfl := List.mem_singleton.mp member
    rfl
  rintro applySig w1 ⟨here, -⟩
  refine (serves_logEvent onChain here _ _ _).bind ?_
  rintro ⟨⟩ w2 ⟨here, -⟩
  refine (serves_quietly onChain here quietly_readLedgerState).bind ?_
  exact fun state w3 holds => System.serves_pure holds.1 trivial

/-- The rest of an init funds by sight where the last account before it was read, or where it funds
nothing at all. -/
theorem initRest_fundsBySight {sigs : List Signature} {view : AccountView}
    {program' : Client ActionResponse} {transcript : List (Exchange Reply)} {seen : Bool}
    (run : (chainSystem cluster).Runs world (initRest s sigs view) transcript world' program') :
    FundsBySight seen transcript ↔ seen = true ∨ Unfunded transcript := by
  by_cases short : uiToBase view.availableUi s.cfg.mintDecimals < s.targetBase
  · have parts : initRest s sigs view = initDeposit s
        (s.targetBase - uiToBase view.availableUi s.cfg.mintDecimals)
        (uiToBase view.publicUi s.cfg.mintDecimals) >>= initApply s sigs
          (s.targetBase - uiToBase view.availableUi s.cfg.mintDecimals) := by
      simp only [initRest, initFund, if_pos short, fundSender, initDeposit,
        Program.bind_assoc]
      rfl
    rw [parts] at run
    refine fundsBySight_iff (initDeposit_uses _ _) ?_ run
    intro funded first last later program'' ran
    exact (unfunded_iff_without ran).mpr
      ((initApply_without _ _ funded).reaches ran.reaches).invariant
  · have none : Unfunded transcript := by
      have reads : (chainSystem cluster).Serves (Without Transaction.funds world)
          (fun _ _ => True) (initRest s sigs view) world := by
        simp only [initRest, initFund, if_neg short]
        exact (serves_quietly (onChain_without Transaction.funds world) (.refl _ world)
          quietly_readLedgerState).bind fun _ _ holds => System.serves_pure holds.1 trivial
      exact (unfunded_iff_without run).mpr (reads.reaches run.reaches).invariant
    exact iff_of_true none.fundsBySight (.inr none)

end Rest

end ConfidentialBalances
