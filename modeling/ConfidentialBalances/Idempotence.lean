import ConfidentialBalances.EventStreams
import ConfidentialBalances.Funding

/-!
# Initialising twice

An init that returns, and funded by sight, has configured both accounts and
brought the sender's available balance to the target, from whatever it found half
done. An init on the ledger it leaves, where it can read every account that it
asks for, makes twelve requests, all of them reads, and leaves the world as it is;
it gives up only where one of them failed or the payer no longer holds what the
first check asks for.
-/

namespace ConfidentialBalances

open Effect

namespace AppState

variable (s : AppState) (ledger : Ledger)

/-- The sender's available balance, nothing where its account is not configured. -/
def senderAvailable : ℤ :=
  (ledger.confidential? (s.tokenAccount s.keys.sender)).elim 0 fun extension =>
    extension.availableBalance.amount

/-- The sender's pending balance, nothing where its account is not configured. -/
def senderPending : ℤ :=
  (ledger.confidential? (s.tokenAccount s.keys.sender)).elim 0
    ConfidentialTransferAccount.pendingAmount

/-- Where the sender's account is configured, its decryptable balance is its available one, and its
pending balance is an amount. -/
def SenderSound : Prop :=
  ∀ extension, ledger.confidential? (s.tokenAccount s.keys.sender) = some extension →
    Synced s.keys.sender.confidentialKeys extension ∧ 0 ≤ extension.pendingAmount

/-- What an init that returned has made of a ledger. -/
structure Initialises (s : AppState) (before after : Ledger) : Prop where
  /-- The sender's account is configured. -/
  sender : s.Configured after s.keys.sender
  /-- The receiver's account is configured. -/
  receiver : s.Configured after s.keys.receiver
  /-- The sender has the target. -/
  target : s.targetBase ≤ s.senderAvailable after
  /-- The sender has what it had, or what it had with all that was pending and what was lacking. -/
  available : s.senderAvailable after =
    if s.senderAvailable before < s.targetBase then
      s.senderAvailable before + s.senderPending before +
        (s.targetBase - s.senderAvailable before)
    else s.senderAvailable before

end AppState

/-! ## The first init -/

section First

variable {sdk : Sdk} {cluster : Cluster} {s : AppState} {ledger ledger' : Ledger} {world : World}
variable {funds : Funds}

/-- A ready ledger holds the demo's funds: those of the start, or none. -/
theorem AppState.Ready.holds (ready : s.Ready sdk cluster ledger ledger')
    (sound : s.SenderSound ledger) :
    ∃ funds : Funds, s.Holds ledger' funds ∧ s.senderAvailable ledger = funds.available ∧
      s.senderPending ledger = funds.pending := by
  obtain ⟨⟨state, settings, mint, confidential, auditor⟩, ⟨extension, found, source⟩, receiver⟩ :=
    ready
  obtain ⟨token, held, configured⟩ := Ledger.confidential?_some found
  rcases source with before | ⟨before, approved, key, rfl, -⟩
  · obtain ⟨⟨amount, decrypted, agrees⟩, waiting⟩ := sound extension before
    refine ⟨⟨token.amount, amount, extension.pendingAmount.toNat, state.supply⟩,
      ⟨⟨state, settings, mint, confidential, auditor, rfl⟩, ⟨token, extension, held, configured,
        rfl, agrees, (Int.toNat_of_nonneg waiting).symm, amount, decrypted, agrees⟩, receiver⟩,
      ?_, ?_⟩
    · simp [AppState.senderAvailable, before, agrees]
    · simp [AppState.senderPending, before, Int.toNat_of_nonneg waiting]
  · refine ⟨⟨token.amount, 0, 0, state.supply⟩,
      ⟨⟨state, settings, mint, confidential, auditor, rfl⟩, ⟨token, _, held, configured,
        rfl, rfl, rfl, 0, AeCiphertext.decrypt_encrypt _ _, rfl⟩, receiver⟩, ?_, ?_⟩
    · simp [AppState.senderAvailable, before]
    · simp [AppState.senderPending, before]

/-- What the sender holds is what the ledger says it has. -/
theorem AppState.Holds.senderAvailable (holds : s.Holds ledger funds) :
    s.senderAvailable ledger = funds.available := by
  obtain ⟨token, extension, held, configured, -, available, -⟩ := holds.sender
  simp [AppState.senderAvailable, Ledger.confidential?, held, AccountData.token?, configured,
    available]

/-- An init that funded by sight and returns leaves the sender topped up from what it had. -/
theorem initHandler_toppedUp {world' : World} {transcript : List (Exchange Reply)}
    {response : ActionResponse} (sound : s.SenderSound world.ledger)
    (run : (chainSystem cluster).Runs world (initHandler sdk s) transcript world'
      (.done (.ok response))) (bySight : FundsBySight true transcript) :
    ∃ funds : Funds, s.senderAvailable world.ledger = funds.available ∧
      s.senderPending world.ledger = funds.pending ∧
      s.Holds world'.ledger (funds.toppedUp s.targetBase funds.sight) := by
  rw [initHandler_eq] at run
  obtain ⟨sigs, first, middle, later, rfl, prepared, funding⟩ := run.catchPanic_ok.bind_ok
  obtain ⟨without, ready⟩ := initPrepare_serves.ends prepared.reaches sigs rfl
  obtain ⟨funds, holds, available, pending⟩ := ready.holds sound
  refine ⟨funds, available, pending, ?_⟩
  obtain ⟨sight, saw, -, arrived⟩ := initFunding_stages (.refl _ middle) holds funding
  have last := arrived response rfl
  rcases saw with ⟨rfl, -⟩ | ⟨rfl, blind⟩
  · exact last.holds
  · -- Seeing nothing it funded nothing, so nothing was asked for.
    have none := blind.resolve_right (not_not_intro (fundsBySight_append.mp bySight).2)
    have zero : ¬ 0 < s.targetBase := fun short =>
      (last.funds short).not_without ((unfunded_iff_without funding).mp none)
    have same (sight : Sight) : funds.toppedUp s.targetBase sight = funds := if_neg (by omega)
    rw [same]
    have holds := last.holds
    rwa [same] at holds

/-- Topped up funds are what the init promises. -/
theorem initialises_of_toppedUp (available : s.senderAvailable ledger = funds.available)
    (pending : s.senderPending ledger = funds.pending)
    (holds : s.Holds ledger' (funds.toppedUp s.targetBase funds.sight)) :
    s.Initialises ledger ledger' := by
  have reached := holds.senderAvailable
  refine ⟨holds.sender_configured, holds.receiver, ?_, ?_⟩
  · rw [reached]
    exact_mod_cast funds.target_le_toppedUp s.targetBase funds.sight le_rfl
  · rw [reached, available, pending, funds.toppedUp_available]
    rw [Funds.sight_available]
    by_cases short : funds.available < s.targetBase
    · rw [if_pos short, if_pos (by exact_mod_cast short)]
      push_cast [Nat.cast_sub short.le]
      ring
    · rw [if_neg short, if_neg (by exact_mod_cast short)]

end First

/-! ## The second init -/

section Second

variable {α : Type} {sdk : Sdk} {cluster : Cluster} {s : AppState} {world : World}
variable {condition : Prop} {funds : Funds}

/-- What a check reads is known of its value. -/
theorem Checks.reads {requests : Nat} {ok mid : α → Prop} {program : Client α}
    (checks : Checks cluster condition requests ok program world)
    (read : (chainSystem cluster).Shows (fun outcome transcript _ => ∀ value,
      outcome = .ok value → Sighted transcript → mid value) program world) :
    Checks cluster condition requests (fun value => ok value ∧ mid value) program world := by
  refine System.Shows.weaken (System.Shows.and checks read) ?_
  rintro outcome transcript world' ⟨checked, read⟩ sighted
  obtain ⟨same, unheard, bound, post⟩ := checked sighted
  refine ⟨same, unheard, bound, ?_⟩
  cases outcome with
  | ok value => exact ⟨post.1, post.2.1, post.2.2, read value rfl sighted⟩
  | error reason => exact post
  | panic message => exact post

/-- Checking the demo's own mint gives up only when its request fails. -/
theorem checks_verifyMintMatches (mint : s.DemoMint world.ledger) :
    Checks cluster condition 1 (fun _ => True) (verifyMintMatches s) world := by
  obtain ⟨⟨authority, decimals, supply, _⟩, ⟨manager, approves, _⟩, data, rfl, rfl⟩ := mint
  refine checks_account ?_
  rw [Ledger.fetch_eq data (by simp)]
  change Checks cluster condition 0 _
    (if s.auditorElgamal.pubkey = s.auditorElgamal.pubkey then _ else _) world
  rw [if_pos rfl]
  exact checks_pure trivial

/-- Viewing a configured account gives up only when one of its two requests fails. -/
theorem checks_readAccountView {owner : Wallet} (configured : s.Configured world.ledger owner) :
    Checks cluster condition 2 (fun _ => True) (readAccountView s owner) world := by
  obtain ⟨extension, found⟩ := Option.isSome_iff_exists.mp configured
  obtain ⟨⟨mint, tokenOwner, amount, extended, _⟩, held, rfl⟩ := Ledger.confidential?_some found
  refine checks_account ?_
  rw [Ledger.fetch_eq held (by simp)]
  refine checks_call trivial rfl rfl (fun _ => ⟨_, rfl, rfl, .inr ⟨_, rfl⟩⟩) ?_
  exact checks_pure trivial

/-- With both accounts configured, the ledger's state is read in five requests. -/
theorem checks_readLedgerState (sender : s.Configured world.ledger s.keys.sender)
    (receiver : s.Configured world.ledger s.keys.receiver) :
    Checks cluster condition 5 (fun _ => True) (readLedgerState s) world := by
  refine (checks_readAccountView sender).bind fun senderView _ => ?_
  refine (checks_readAccountView receiver).bind fun receiverView _ => ?_
  refine (chain cluster).shows_call.mpr fun choice => ?_
  exact System.shows_done.mpr fun _ =>
    ⟨rfl, ⟨rfl, rfl, rfl⟩, le_refl _, rfl, by simp [Exchange.failed], trivial⟩

/-- The demo's own mint is found and checked. -/
theorem checks_ensureMint (mint : s.DemoMint world.ledger) :
    Checks cluster condition 2 (fun sigs => sigs = []) (ensureMint sdk s) world := by
  obtain ⟨state, settings, data, -⟩ := id mint
  refine (checks_mintExists s.mint).bind ?_
  rintro found rfl
  rw [Ledger.fetch_eq data (by simp)]
  exact (checks_verifyMintMatches mint).bind fun _ _ => checks_pure rfl

/-- A configured account is found so. -/
theorem checks_ensureConfidentialAccount {owner : Wallet}
    (configured : s.Configured world.ledger owner) :
    Checks cluster condition 1 (fun sigs => sigs = []) (ensureConfidentialAccount sdk s owner)
      world := by
  refine (checks_ataIsConfigured _ fun _ => configured).bind ?_
  rintro found rfl
  have found : (world.ledger.confidential? (s.tokenAccount owner)).isSome = true := configured
  rw [found]
  exact checks_pure rfl

/-- A sender that has the target is viewed and left. -/
theorem checks_topUpSender (holds : s.Holds world.ledger funds)
    (funded : s.targetBase ≤ funds.available) :
    Checks cluster condition 2 (fun sigs => sigs = []) (topUpSender s) world := by
  have bound := s.targetBase_lt
  have shows : (chainSystem cluster).Shows (fun outcome transcript _ => ∀ view,
      outcome = .ok view → Sighted transcript →
        s.Shows world.ledger s.keys.sender s.cfg.mintDecimals view)
      (readAccountView s s.keys.sender) world := by
    refine System.Shows.weaken (readAccountView_sees s.keys.sender) ?_
    rintro outcome transcript world' ⟨-, read⟩ view same sighted
    exact (read view same).2.2.1 sighted
  refine ((checks_readAccountView holds.sender_configured).reads shows).bind ?_
  rintro view ⟨-, shown⟩
  rw [shown.availableUi, holds.reads.2, uiToBase_baseToUi, if_neg (by omega)]
  exact checks_pure rfl

/-- A joined task that only checks gives up where the task does. -/
theorem Checks.runBlocking {requests : Nat} {ok : α → Prop} {program : Client α}
    (checks : Checks cluster condition requests ok program world) :
    Checks cluster condition requests ok (runBlocking program) world := by
  refine (System.shows_catchPanic _ _).mpr (System.Shows.weaken checks ?_)
  intro outcome transcript world' checked
  cases outcome with
  | ok value => exact checked
  | error reason => exact checked
  | panic message => exact fun sighted => (checked sighted).2.2.2.elim

/-- With the demo's mint, both accounts and the target there, an init makes twelve requests, all of
them silent, and returns no signature. -/
theorem checks_initHandler (holds : s.Holds world.ledger funds)
    (funded : s.targetBase ≤ funds.available) :
    Checks cluster (10000000 ≤ world.ledger.lamports s.keys.payer.pubkey) 12
      (fun response => response.signatures = [] ∧
        10000000 ≤ world.ledger.lamports s.keys.payer.pubkey) (initHandler sdk s) world := by
  obtain ⟨state, settings, data, confidential, auditor, -⟩ := holds.mint
  have sender : s.Configured world.ledger s.keys.sender := holds.sender_configured
  refine Checks.runBlocking ?_
  refine (checks_requireFunds _ _ _ _ fun paid => paid).bind fun _ paid => ?_
  refine (checks_ensureMint ⟨state, settings, data, confidential, auditor⟩).bind ?_
  rintro mintSigs rfl
  refine (checks_ensureConfidentialAccount sender).bind ?_
  rintro senderSigs rfl
  refine (checks_ensureConfidentialAccount holds.receiver).bind ?_
  rintro receiverSigs rfl
  refine (checks_topUpSender holds funded).bind ?_
  rintro topUpSigs rfl
  exact (checks_readLedgerState sender holds.receiver).bind fun state _ => checks_pure ⟨rfl, paid⟩

end Second

/-- An init that funds by sight and returns has initialised the ledger. Every run of an init that
follows, where it can read the accounts that it asks for, leaves the world as it is and submits
nothing; it returns, with no signature, exactly when none of its requests failed and the payer holds
what it asks for. -/
theorem init_idempotent (sdk : Sdk) (cluster : Cluster) (s : AppState) (start finish : World)
    (response : ActionResponse) (first : List (Exchange Reply))
    (sound : s.SenderSound start.ledger)
    (run : (chainSystem cluster).Runs start (initHandler sdk s) first finish
      (.done (.ok response))) (bySight : FundsBySight true first) :
    s.Initialises start.ledger finish.ledger ∧
    ∀ transcript outcome after,
      (chainSystem cluster).Runs finish (initHandler sdk s) transcript after (.done outcome) →
        Sighted transcript →
        after = finish ∧ submitted transcript = [] ∧
        ((∃ again, outcome = .ok again ∧ again.signatures = []) ↔
          10000000 ≤ finish.ledger.lamports s.keys.payer.pubkey ∧
            ∀ exchange ∈ transcript, Exchange.failed exchange = false) := by
  obtain ⟨funds, available, pending, holds⟩ := initHandler_toppedUp sound run bySight
  refine ⟨initialises_of_toppedUp available pending holds, ?_⟩
  intro transcript outcome after ran sighted
  obtain ⟨same, unheard, -, post⟩ := checks_initHandler holds
    (funds.target_le_toppedUp s.targetBase funds.sight le_rfl) _ _ _ ran sighted
  refine ⟨same, unheard.submitted, ?_⟩
  cases outcome with
  | ok again =>
    obtain ⟨-, served, none, paid⟩ := post
    exact iff_of_true ⟨again, rfl, none⟩ ⟨paid, served⟩
  | error reason =>
    refine iff_of_false (by simp) ?_
    rintro ⟨paid, served⟩
    rcases post with poor | ⟨exchange, member, failed⟩
    · exact poor paid
    · exact absurd ((served exchange member).symm.trans failed) (by decide)
  | panic message => exact post.elim

/-- A chain on which the demo's payer has lamports, and there is nothing else. -/
def World.bare (lamports : Nat) : World :=
  { World.demo 0 0 with
    ledger := .ofAccounts [(AppState.demo.keys.payer.pubkey, lamports, .empty)] }

/-- Nothing is configured there. -/
theorem senderSound_bare (lamports : Nat) :
    AppState.demo.SenderSound (World.bare lamports).ledger := by
  intro extension held
  have none : (World.bare lamports).ledger.confidential?
    (AppState.demo.tokenAccount AppState.demo.keys.sender) = none := rfl
  rw [none] at held
  contradiction

/-- From nothing but a funded payer, one init initialises the demo, and a second one returns with no
signature. -/
theorem init_idempotent_bare : ∃ again,
    AppState.demo.Initialises (World.bare 20000000).ledger
      (idealAttempt [] (.bare 20000000)).2.ledger ∧
    (idealAttempt [] (idealAttempt [] (.bare 20000000)).2).1 = .ok again ∧
      again.signatures = [] := by
  have succeeds : (idealAttempt [] (.bare 20000000)).1.isOk = true := by decide +kernel
  obtain ⟨response, returned⟩ := Outcome.isOk_iff.mp succeeds
  have first := (chain Cluster.ideal).run_runs (initHandler Sdk.ideal .demo) (.bare 20000000) []
  have second := (chain Cluster.ideal).run_runs (initHandler Sdk.ideal .demo)
    (idealAttempt [] (.bare 20000000)).2 []
  rw [show ((chain Cluster.ideal).run _ _ _).1 = .ok response from returned] at first
  obtain ⟨initialised, repeats⟩ := init_idempotent Sdk.ideal Cluster.ideal .demo (.bare 20000000) _
    response _ (senderSound_bare _) first (by decide +kernel)
  obtain ⟨-, -, returns⟩ := repeats _ _ _ second (by decide +kernel)
  obtain ⟨again, same, none⟩ := returns.mpr ⟨by decide +kernel, by decide +kernel⟩
  exact ⟨again, initialised, same, none⟩

/-- A payer that starts with just what an init asks for has paid for the first one, and the second
one does not return. -/
theorem init_outOfFunds :
    AppState.demo.SenderSound (World.bare 10000000).ledger ∧
    (idealAttempt [] (.bare 10000000)).1.isOk = true ∧
    (idealAttempt [] (idealAttempt [] (.bare 10000000)).2).1.isOk = false :=
  ⟨senderSound_bare _, by decide +kernel, by decide +kernel⟩

end ConfidentialBalances
