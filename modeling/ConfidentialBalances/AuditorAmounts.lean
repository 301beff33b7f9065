import ConfidentialBalances.Arrivals
import ConfidentialBalances.BalanceReaders
import ConfidentialBalances.Preflight

/-!
# The amounts in the auditor's log

A transfer logs the UI amount that was requested, not the base amount that it
became. An apply logs what a view found pending some requests before its
transaction lands, and zero where that view failed; credits that arrive in
between are moved and not logged.
-/

namespace ConfidentialBalances

open Effect

/-! ## The event log during a request -/

/-- A request that leaves the event log alone. -/
def Call.Unlogged : Call → Prop
  | .writeEvents _ => False
  | _ => True

/-- What a transfer asks leaves the event log alone. -/
theorem Call.PaidBy.unlogged {payer : Wallet} {mint : Pubkey} {request : Call}
    (paid : request.PaidBy payer mint) : request.Unlogged := by
  cases request with
  | writeEvents events => exact paid.elim
  | _ => trivial

/-- Looking at the mint and the accounts appends to no log. -/
theorem Call.Looks.unlogged {mint : Pubkey} {request : Call} (looks : request.Looks mint) :
    request.Unlogged := by
  cases request with
  | writeEvents events => exact looks.elim
  | _ => trivial

section Log

variable {α : Type} {cluster : Cluster} {world : World} {moments : List Moment} {ok : α → Prop}

/-- The event log changes where it is written. -/
theorem chain_unlogged {request : Call} (unlogged : request.Unlogged) (choice : Choice) :
    ((chain cluster).answer world request choice).2.events = world.events := by
  cases request with
  | writeEvents events => exact unlogged.elim
  | sendAndConfirmTransaction transaction =>
    rcases chain_send cluster world transaction choice with ⟨message, refused⟩ |
      ⟨ledger, -, lands⟩
    · rw [refused]
    · rw [lands]
  | _ => cases choice <;> rfl

/-- What every allowed request keeps while credits arrive, the program keeps. -/
theorem gives_keeps {allowed : Call → Prop} {property : World → Prop} {program : Client α}
    (arrives : ∀ world arrivals, property world → property (world.arrive arrivals))
    (keeps : ∀ world request choice, allowed request → property world →
      property ((chain cluster).answer world request choice).2)
    (within : program.Within Call.Promised allowed ok) (here : property world) :
    (busyChain cluster).Gives (fun value world' _ => ok value ∧ property world') program world
      moments := by
  refine Handler.gives_of_ends fun value world' ended => ⟨?_, ?_⟩
  · exact ended.within (busyChain_promises cluster) within value rfl
  · refine ended.keeps (busyChain_promises cluster) ?_ within here
    rintro before request reply after permitted ⟨moment, answer⟩ holds
    have next := keeps _ request moment.choice permitted (arrives before moment.arrivals holds)
    exact (congrArg Prod.snd answer).subst next

/-- A program that leaves the event log alone does so while credits arrive. -/
theorem gives_unlogged {program : Client α}
    (within : program.Within Call.Promised Call.Unlogged ok) :
    (busyChain cluster).Gives (fun value world' _ => ok value ∧ world'.events = world.events)
      program world moments :=
  gives_keeps (fun _ _ => id)
    (fun _ _ choice unlogged => (chain_unlogged unlogged choice).trans) within rfl

/-- Looking keeps the event log, and lands nothing. -/
theorem gives_looks {mint : Pubkey} {program : Client α}
    (within : program.Within Call.Promised (Call.Looks mint) ok) :
    (busyChain cluster).Gives (fun value world' _ => ok value ∧ world'.events = world.events ∧
      world'.landed = world.landed) program world moments := by
  refine gives_keeps (fun _ _ => id) (fun before request choice looks => ?_) within ⟨rfl, rfl⟩
  rintro ⟨events, landed⟩
  refine ⟨(chain_unlogged looks.unlogged choice).trans events, ?_⟩
  rcases chain_lands cluster before request choice with ⟨-, same⟩ | ⟨transaction, rfl, -⟩
  · exact same.trans landed
  · exact looks.elim

/-- What is logged comes first in the log. -/
theorem gives_logEvent (kind : String) (amountUi : ℚ) (sig : Signature) :
    (busyChain cluster).Gives (fun _ world' _ =>
        world'.events = (⟨sig, kind, amountUi⟩ :: world.events).take recentEventsKeep ∧
          world'.landed = world.landed)
      (logEvent kind amountUi sig) world moments := by
  rintro value -
  exact ⟨rfl, rfl⟩

end Log

/-! ## What an apply moves -/

/-- What a limb counts for: its amount, where it opens under the keypair and is not below zero. -/
def ElGamalCiphertext.counted (ciphertext : ElGamalCiphertext) (keypair : ElGamalKeypair) : ℤ :=
  if ciphertext.key = keypair.pubkey ∨ ciphertext.opening = 0 then max ciphertext.amount 0 else 0

/-- What the pending limbs count for under the keys. -/
def ConfidentialTransferAccount.pendingCounted (account : ConfidentialTransferAccount)
    (keys : ConfidentialKeys) : ℤ :=
  account.pendingBalanceLo.counted keys.elgamal +
    2 ^ pendingBalanceLoBits * account.pendingBalanceHi.counted keys.elgamal

/-- A limb from which a readable one has grown reads as what it counts for. -/
theorem ElGamalCiphertext.decryptU32_getD {before after : ElGamalCiphertext}
    {keypair : ElGamalKeypair} (grown : before.amount ≤ after.amount)
    (opens : after.decryptU32 keypair ≠ none) :
    (((before.decryptU32 keypair).getD 0 : Nat) : ℤ) = before.counted keypair := by
  obtain ⟨-, -, bound⟩ := (after.decryptU32_ne_none_iff keypair).mp opens
  unfold decryptU32 counted
  by_cases right : before.key = keypair.pubkey ∨ before.opening = 0
  · by_cases positive : 0 ≤ before.amount
    · rw [if_pos ⟨right, positive, by omega⟩, if_pos right, Option.getD_some]
      omega
    · rw [if_neg (fun all => positive all.2.1), if_pos right, Option.getD_none]
      omega
  · rw [if_neg (fun all => right all.1), if_neg right]
    rfl

/-- A view of an account that an apply reads later shows what its pending limbs count for. -/
theorem Grown.view {before after : ConfidentialTransferAccount} (grown : Grown before after)
    {keys : ConfidentialKeys} {values : ApplyValues}
    (computed : applyPendingValues keys after = .ok values) :
    (((viewConfidential keys before).1 : Nat) : ℤ) = before.pendingCounted keys := by
  obtain ⟨lo, hi, -⟩ := applyPendingValues_ok computed
  have low := ElGamalCiphertext.decryptU32_getD grown.lo lo
  have high := ElGamalCiphertext.decryptU32_getD grown.hi hi
  rw [ConfidentialTransferAccount.pendingCounted, ← low, ← high, viewConfidential_fst,
    Nat.shiftLeft_eq, pendingBalanceLoBits]
  push_cast
  ring

/-- The limbs of an account that an apply has read stay at or above zero. -/
theorem Grown.limbs_nonneg {before after : ConfidentialTransferAccount}
    (grown : Grown before after) {keys : ConfidentialKeys} {values : ApplyValues}
    (computed : applyPendingValues keys before = .ok values) :
    0 ≤ after.pendingBalanceLo.amount ∧ 0 ≤ after.pendingBalanceHi.amount := by
  obtain ⟨lo, hi, -⟩ := applyPendingValues_ok computed
  obtain ⟨-, low, -⟩ := (ElGamalCiphertext.decryptU32_ne_none_iff _ _).mp lo
  obtain ⟨-, high, -⟩ := (ElGamalCiphertext.decryptU32_ne_none_iff _ _).mp hi
  exact ⟨low.trans grown.lo, high.trans grown.hi⟩

/-- Limbs at or above zero hold a balance that is. -/
theorem pendingAmount_nonneg {account : ConfidentialTransferAccount}
    (lo : 0 ≤ account.pendingBalanceLo.amount) (hi : 0 ≤ account.pendingBalanceHi.amount) :
    0 ≤ account.pendingAmount := by
  unfold ConfidentialTransferAccount.pendingAmount
  positivity

/-- The owner's pending balance moves to its available one. -/
def AppState.MovesPending (s : AppState) (owner : Wallet) (before after : Ledger)
    (moved : Nat) : Prop :=
  ∃ extension extension', before.confidential? (s.tokenAccount owner) = some extension ∧
    after.confidential? (s.tokenAccount owner) = some extension' ∧
    extension.pendingAmount = moved ∧ extension'.pendingAmount = 0 ∧
    extension'.availableBalance.amount = extension.availableBalance.amount + moved

section Apply

variable {cluster : Cluster} {s : AppState} {owner : Wallet} {world : World}
variable {moments : List Moment}

/-- An apply reads the account after two requests and lands its transaction after five. -/
theorem gives_applyPendingBalance (payer authority : Wallet) (mint : Pubkey) :
    (busyChain cluster).Gives (fun sig world' unused => unused = moments.drop 5 ∧
        ∃ extension values,
          (world.ledger.arriveAll (arrivedBy (moments.take 2))).confidential?
            (getAssociatedTokenAddress authority.pubkey mint) = some extension ∧
          applyPendingValues authority.confidentialKeys extension = .ok values ∧
          Landed cluster (world.ledger.arriveAll (arrivedBy (moments.take 5)))
            (applyPendingTransaction payer authority mint values) sig world world')
      (applyPendingBalance payer authority mint) world moments := by
  refine Handler.Gives.bind (waits_deriveConfidentialKeys authority) ?_
  rintro _ w1 unused1 ⟨passed1, rfl⟩
  refine Handler.Gives.bind (waits_fetchConfidential _) ?_
  rintro extension w2 unused2 ⟨passed2, held⟩
  rw [(passed1.trans passed2).ledger] at held
  refine Handler.Gives.bind (waits_ofExcept _) ?_
  rintro values w3 unused3 ⟨passed3, computed, -⟩
  have passed := (passed1.trans passed2).trans passed3
  refine (gives_sendTx _ _ _).weaken ?_
  rintro sig w4 unused4 ⟨rfl, landed⟩
  refine ⟨?_, extension, values, held, computed, passed.lands landed⟩
  rw [passed.unused, List.drop_drop]

/-! ### The view -/

/-- Both requests of a view are served: the account's, and the signature's that derives its keys. -/
def ViewServed (moments : List Moment) : Prop :=
  (moments.headD default).choice = .succeed ∧ (moments.tail.headD default).choice = .succeed

instance (moments : List Moment) : Decidable (ViewServed moments) :=
  inferInstanceAs (Decidable (_ ∧ _))

/-- How many requests a view of a configured account makes. -/
def viewRequests (moments : List Moment) : Nat :=
  if (moments.headD default).choice = .succeed then 2 else 1

/-- A view makes one request at least. -/
theorem viewRequests_pos (moments : List Moment) : 1 ≤ viewRequests moments := by
  unfold viewRequests
  split <;> omega

/-- What an apply finds pending is what a served view shows on the ledger of its first request, and
nothing where the view is not served. -/
theorem gives_pendingUi (configured : s.Configured world.ledger owner) :
    (busyChain cluster).Gives (fun amountUi world' unused =>
        Passed (viewRequests moments) world moments world' unused ∧
        ∃ extension,
          (world.ledger.arriveAll (arrivedBy (moments.take 1))).confidential?
            (s.tokenAccount owner) = some extension ∧
          amountUi = baseToUi (if ViewServed moments then
            (viewConfidential owner.confidentialKeys extension).1 else 0) s.cfg.mintDecimals)
      ((do
        let view ← readAccountView s owner
        pure view.pendingUi).catchError fun _ => pure 0) world moments := by
  refine gives_reads trivial fun reply w1 passed1 answered => ?_
  obtain ⟨extension, held⟩ := Option.isSome_iff_exists.mp (passed1.configured configured)
  have found : (world.ledger.arriveAll (arrivedBy (moments.take 1))).confidential?
      (s.tokenAccount owner) = some extension := passed1.ledger ▸ held
  obtain ⟨token, data, extended⟩ := Ledger.confidential?_some held
  have nothing : (0 : ℚ) = baseToUi 0 s.cfg.mintDecimals := by simp [baseToUi]
  cases first : (moments.headD default).choice with
  | fail message =>
    have failed : (moments.headD default).choice ≠ .succeed := first.trans_ne (by simp)
    have unserved : ¬ ViewServed moments := fun served => failed served.1
    have single : viewRequests moments = 1 := if_neg failed
    rw [first] at answered
    subst answered
    rw [single]
    exact Handler.gives_pure ⟨passed1, extension, found, by rwa [if_neg unserved]⟩
  | succeed =>
    have both : viewRequests moments = 2 := if_pos first
    rw [first] at answered
    obtain rfl : reply = .ok (.token token) := answered.trans (Ledger.fetch_eq data (by simp))
    obtain ⟨mint, tokenOwner, amount, room, confidential⟩ := token
    obtain rfl := extended
    rw [both]
    refine gives_reads trivial fun signing w2 passed2 signed => ?_
    cases second : (moments.tail.headD default).choice with
    | fail message =>
      have failed : (moments.tail.headD default).choice ≠ .succeed := second.trans_ne (by simp)
      have unserved : ¬ ViewServed moments := fun served => failed served.2
      rw [second] at signed
      subst signed
      exact Handler.gives_pure
        ⟨passed1.trans passed2, extension, found, by rwa [if_neg unserved]⟩
    | succeed =>
      have served : ViewServed moments := ⟨first, second⟩
      rw [second] at signed
      subst signed
      exact Handler.gives_pure ⟨passed1.trans passed2, extension, found, by rw [if_pos served]; rfl⟩

/-- A landed apply moves what is pending. -/
theorem applyPendingTransaction_moves {ledger ledger' : Ledger} {values : ApplyValues}
    {extension : ConfidentialTransferAccount}
    (held : ledger.confidential? (s.tokenAccount owner) = some extension)
    (nonneg : 0 ≤ extension.pendingAmount)
    (landed : ledger.execTransaction cluster
      (applyPendingTransaction s.keys.payer owner s.mint values) = some ledger') :
    s.MovesPending owner ledger ledger' extension.pendingAmount.toNat := by
  obtain ⟨charged, same, executed⟩ := Ledger.execTransaction_single landed
  obtain ⟨token, read, applied, data, configured, accepted, -, rfl⟩ :=
    Ledger.applyPendingBalance_some executed
  rw [same] at data
  obtain rfl : read = extension := by
    simpa [Ledger.confidential?, AppState.tokenAccount, data, AccountData.token?, configured]
      using held
  obtain ⟨-, result⟩ := ConfidentialTransferAccount.applyPendingBalance_some accepted
  have total : ((read.pendingAmount.toNat : Nat) : ℤ) = read.pendingAmount :=
    Int.toNat_of_nonneg nonneg
  refine ⟨read, applied, held, ?_, total.symm, ?_, ?_⟩
  · simp [Ledger.confidential?, AppState.tokenAccount, AccountData.token?]
  · simp [result, ConfidentialTransferAccount.pendingAmount]
  · rw [total, result]
    simp [ConfidentialTransferAccount.pendingAmount, pendingBalanceLoBits]
    ring

end Apply

/-! ## What the requests log -/

/-- The request has logged this event, and no other. -/
def LogsOne (world world' : World) (event : EventLog) : Prop :=
  world'.events = (event :: world.events).take recentEventsKeep

/-- The ledger that an apply request's view reads: its sixth request reads the account. -/
def viewedLedger (world : World) (moments : List Moment) : Ledger :=
  world.ledger.arriveAll (arrivedBy (moments.take 6))

/-- The ledger on which an apply request's transaction lands: five requests come before its view,
and five lead from there to the landing. -/
def landingLedger (world : World) (moments : List Moment) : Ledger :=
  world.ledger.arriveAll (arrivedBy (moments.take (5 + viewRequests (moments.drop 5) + 5)))

/-- What an owner has pending, nothing where it is not configured. -/
def AppState.pendingBalance (s : AppState) (ledger : Ledger) (owner : Wallet) : ℤ :=
  (ledger.confidential? (s.tokenAccount owner)).elim 0 ConfidentialTransferAccount.pendingAmount

/-- What of it counts for its owner: a limb that does not open under the owner's keys, or is below
zero, counts for nothing. -/
def AppState.pendingCounted (s : AppState) (ledger : Ledger) (owner : Wallet) : ℤ :=
  (ledger.confidential? (s.tokenAccount owner)).elim 0 (·.pendingCounted owner.confidentialKeys)

/-- As much is pending where the apply lands as counted where its view was read, or nothing where
the view was not served. -/
def AppState.ViewHolds (s : AppState) (owner : Wallet) (world : World)
    (moments : List Moment) : Prop :=
  s.pendingBalance (landingLedger world moments) owner =
    if ViewServed (moments.drop 5) then s.pendingCounted (viewedLedger world moments) owner else 0

/-- The apply request has landed this event's transaction, which moved so much. -/
def AppState.AppliedUnder (s : AppState) (cluster : Cluster) (owner : Wallet) (world : World)
    (moments : List Moment) (world' : World) (event : EventLog) (moved : Nat) : Prop :=
  event.sig = ⟨world.landed.length⟩ ∧ ∃ values ledger',
    world'.landed = world.landed ++ [applyPendingTransaction s.keys.payer owner s.mint values] ∧
    (landingLedger world moments).execTransaction cluster
      (applyPendingTransaction s.keys.payer owner s.mint values) = some ledger' ∧
    s.MovesPending owner (landingLedger world moments) ledger' moved

/-- The transfer request has run a transfer of so much, whose fourth signature is this event's. -/
def AppState.TransferredUnder (s : AppState) (sdk : Sdk) (cluster : Cluster) (world : World)
    (moments : List Moment) (event : EventLog) (amount : Nat) : Prop :=
  ∃ before sigs, Passed 5 world moments before (moments.drop 5) ∧
    ((busyChain cluster).run (transferConfidentialWithProgress sdk s.keys.payer s.keys.sender
      s.mint s.keys.receiver.pubkey amount .broadcast) before (moments.drop 5)).1 = .ok sigs ∧
    sigs[3]? = some event.sig

section Requests

variable {sdk : Sdk} {cluster : Cluster} {s : AppState} {owner : Wallet} {world : World}
variable {moments : List Moment}

/-- The owner of an apply request is one of the two whose accounts were checked. -/
theorem waits_applyOwner (account : String)
    (sender : s.Configured world.ledger s.keys.sender)
    (receiver : s.Configured world.ledger s.keys.receiver) :
    Waits cluster 0 (fun owner world' => applyOwner s account = pure owner ∧
        s.Configured world'.ledger owner) (applyOwner s account) world moments := by
  unfold applyOwner
  split
  · exact waits_pure ⟨rfl, sender⟩
  · split
    · exact waits_pure ⟨rfl, receiver⟩
    · exact waits_fail 0

/-- What an apply request does once it has a view: it reads the account again, lands an apply
computed from that, and logs what the view has shown. -/
theorem gives_applyLogged (account : String) (amountUi : ℚ) :
    (busyChain cluster).Gives (fun _ world' _ => ∃ event extension values ledger',
        event.amountUi = amountUi ∧ LogsOne world world' event ∧
        event.sig = ⟨world.landed.length⟩ ∧
        (world.ledger.arriveAll (arrivedBy (moments.take 2))).confidential?
          (s.tokenAccount owner) = some extension ∧
        applyPendingValues owner.confidentialKeys extension = .ok values ∧
        (world.ledger.arriveAll (arrivedBy (moments.take 5))).execTransaction cluster
          (applyPendingTransaction s.keys.payer owner s.mint values) = some ledger' ∧
        world'.landed =
          world.landed ++ [applyPendingTransaction s.keys.payer owner s.mint values])
      (do
        let sig ← (applyPendingBalance s.keys.payer owner s.mint).mapError
          (.labelled "apply_pending failed: ")
        emit .broadcast (.signature s!"apply-pending-{account}" sig)
        emit .broadcast (.done [sig])
        logEvent s!"apply-pending-{account}" amountUi sig
        let state ← readLedgerState s
        pure (⟨true, [sig], state⟩ : ActionResponse)) world moments := by
  refine Handler.Gives.bind ((gives_applyPendingBalance _ _ _).mapError _) ?_
  rintro sig w1 unused1 ⟨-, extension, values, held, computed, landed⟩
  refine Handler.Gives.bind (waits_emit _) ?_
  rintro _ w2 unused2 ⟨signed, -⟩
  refine Handler.Gives.bind (waits_emit _) ?_
  rintro _ w3 unused3 ⟨done, -⟩
  refine Handler.Gives.bind (gives_logEvent _ _ _) ?_
  rintro _ w4 unused4 ⟨logged, unsent⟩
  refine Handler.Gives.bind (gives_looks (looks_readLedgerState s)) ?_
  rintro state w5 unused5 ⟨-, sameEvents, sameLanded⟩
  refine Handler.gives_pure ⟨⟨sig, s!"apply-pending-{account}", amountUi⟩, extension, values,
    w1.ledger, rfl, ?_, landed.sig, held, computed, landed.executed, ?_⟩
  · rw [LogsOne, sameEvents, logged, done.events, signed.events, landed.events]
  · rw [sameLanded, unsent, done.landed, signed.landed, landed.landed]

/-- What a view has shown, of an account that an apply then reads, is what the apply moves exactly
where the view holds. -/
theorem shown_eq_iff {viewed fetched last : ConfidentialTransferAccount} {values : ApplyValues}
    (seen : (viewedLedger world moments).confidential? (s.tokenAccount owner) = some viewed)
    (landing : (landingLedger world moments).confidential? (s.tokenAccount owner) = some last)
    (grown : Grown viewed fetched) (grown' : Grown fetched last)
    (computed : applyPendingValues owner.confidentialKeys fetched = .ok values) :
    baseToUi (if ViewServed (moments.drop 5) then
        (viewConfidential owner.confidentialKeys viewed).1 else 0) s.cfg.mintDecimals =
      baseToUi last.pendingAmount.toNat s.cfg.mintDecimals ↔ s.ViewHolds owner world moments := by
  obtain ⟨lo, hi⟩ := grown'.limbs_nonneg computed
  obtain ⟨moved, pending⟩ := Int.eq_ofNat_of_zero_le (pendingAmount_nonneg lo hi)
  have shown := grown.view computed
  have there : s.pendingBalance (landingLedger world moments) owner = last.pendingAmount := by
    simp [AppState.pendingBalance, landing]
  have here : s.pendingCounted (viewedLedger world moments) owner =
      viewed.pendingCounted owner.confidentialKeys := by
    simp [AppState.pendingCounted, seen]
  unfold AppState.ViewHolds
  rw [there, here, pending, Int.toNat_natCast, ← shown]
  by_cases served : ViewServed (moments.drop 5)
  · rw [if_pos served, if_pos served, Nat.cast_inj]
    constructor
    · intro same
      exact (baseToUi_inj same).symm
    · intro same
      rw [same]
  · rw [if_neg served, if_neg served, Int.natCast_eq_zero]
    constructor
    · intro same
      exact (baseToUi_inj same).symm
    · intro same
      rw [same]

/-- A successful apply request logs one event, of the transaction that it landed, and its amount is
what that transaction moved exactly where its view holds. -/
theorem gives_applyPendingHandler (account : String) :
    (busyChain cluster).Gives (fun _ world' _ => ∃ owner event moved,
        applyOwner s account = pure owner ∧ LogsOne world world' event ∧
        s.AppliedUnder cluster owner world moments world' event moved ∧
        (event.amountUi = baseToUi moved s.cfg.mintDecimals ↔ s.ViewHolds owner world moments))
      (applyPendingHandler s account) world moments := by
  refine Handler.Gives.bind (waits_emit _) ?_
  rintro _ w1 unused1 ⟨passed1, -⟩
  refine Handler.Gives.catchError (Handler.Gives.catchPanic ?_ _) fun reason _ _ =>
    Handler.Gives.bind (waits_emit _) fun _ _ _ _ => Handler.gives_fail
  refine Handler.Gives.bind (waits_requireInitialized s) ?_
  rintro _ w2 unused2 ⟨passed2, sender, receiver⟩
  refine Handler.Gives.bind (waits_emit _) ?_
  rintro _ w3 unused3 ⟨passed3, -⟩
  refine Handler.Gives.bind (waits_applyOwner account (passed3.configured sender)
    (passed3.configured receiver)) ?_
  rintro owner w4 unused4 ⟨passed4, named, configured⟩
  have before : Passed 5 world moments w4 unused4 :=
    ((passed1.trans passed2).trans passed3).trans passed4
  obtain rfl := before.unused
  refine Handler.Gives.bind (gives_pendingUi configured) ?_
  rintro amountUi w5 unused5 ⟨passed5, viewed, seen, shown⟩
  have passed := before.trans passed5
  rw [before.later] at seen
  refine (gives_applyLogged account amountUi).weaken ?_
  rintro response world' unused6
    ⟨event, fetched, values, ledger', same, logged, sig, held, computed, executed, landed⟩
  rw [passed.later] at held executed
  -- The account only grows from the view to the fetch, and from the fetch to the landing.
  have views := viewRequests_pos (moments.drop 5)
  obtain ⟨fetched', held', grown⟩ := arrivedBy_grown
    (show 5 + 1 ≤ 5 + viewRequests (moments.drop 5) + 2 by omega) seen
  obtain rfl := Option.some.inj (held.symm.trans held')
  obtain ⟨last, landing, grown'⟩ := arrivedBy_grown
    (show 5 + viewRequests (moments.drop 5) + 2 ≤ 5 + viewRequests (moments.drop 5) + 5 by omega)
    held
  obtain ⟨lo, hi⟩ := grown'.limbs_nonneg computed
  have moves := applyPendingTransaction_moves landing (pendingAmount_nonneg lo hi) executed
  refine ⟨owner, event, last.pendingAmount.toNat, named, ?_, ⟨?_, values, ledger', ?_, executed,
    moves⟩, ?_⟩
  · rw [LogsOne, ← passed.events]
    exact logged
  · rw [sig, passed.landed]
  · rw [landed, passed.landed]
  · rw [same, shown]
    exact shown_eq_iff seen landing grown grown' computed

/-- A UI amount is the one that its base amount shows as exactly where it is a whole number of base
units that a `u64` holds. -/
theorem baseToUi_uiToBase_iff (amountUi : ℚ) (decimals : Nat) :
    amountUi = baseToUi (uiToBase amountUi decimals) decimals ↔
      ∃ base < 2 ^ 64, amountUi = baseToUi base decimals := by
  constructor
  · intro same
    refine ⟨uiToBase amountUi decimals, ?_, same⟩
    unfold uiToBase
    omega
  · rintro ⟨base, bound, rfl⟩
    rw [uiToBase_baseToUi, min_eq_left (by omega)]

/-- A successful transfer request logs one event, of the transfer that it ran, with the amount that
was requested. -/
theorem gives_transferHandler (requested : Option ℚ) :
    (busyChain cluster).Gives (fun _ world' _ => ∃ event, LogsOne world world' event ∧
        s.TransferredUnder sdk cluster world moments event (s.requestedBase requested) ∧
        event.amountUi = requested.getD s.cfg.transferAmountUi)
      (transferHandler sdk s requested) world moments := by
  refine Handler.Gives.bind (waits_emit _) ?_
  rintro _ w1 unused1 ⟨passed1, -⟩
  refine Handler.Gives.catchPanic ?_ _
  refine Handler.Gives.bind (waits_requireInitialized s) ?_
  rintro _ w2 unused2 ⟨passed2, -⟩
  refine Handler.Gives.bind (waits_requireFunds s _ _ _ _) ?_
  rintro _ w3 unused3 ⟨passed3, -⟩
  have before : Passed 5 world moments w3 unused3 := (passed1.trans passed2).trans passed3
  obtain rfl := before.unused
  have paid := (charges_transfer sdk s.keys.payer s.keys.sender s.mint s.keys.receiver.pubkey
    (s.requestedBase requested) .broadcast).weaken (fun _ paid => paid.unlogged)
      fun _ count => count
  have returns : (busyChain cluster).Gives (fun sigs _ _ =>
      ((busyChain cluster).run (transferConfidentialWithProgress sdk s.keys.payer s.keys.sender
        s.mint s.keys.receiver.pubkey (s.requestedBase requested) .broadcast) w3
          (moments.drop 5)).1 = .ok sigs)
      (transferConfidentialWithProgress sdk s.keys.payer s.keys.sender s.mint
        s.keys.receiver.pubkey (s.requestedBase requested) .broadcast) w3 (moments.drop 5) :=
    (Handler.gives_run fun sigs _ => _ = Outcome.ok sigs).mpr fun sigs returned => returned
  refine Handler.Gives.bind (Handler.Gives.catchError ((gives_unlogged paid).and returns)
    fun reason _ _ => Handler.Gives.bind (waits_emit _) fun _ _ _ _ => Handler.gives_fail) ?_
  rintro sigs w4 unused4 ⟨⟨count, unlogged⟩, returned⟩
  have fourth : sigs[3]? = some sigs[3] := List.getElem?_eq_getElem (by omega)
  rw [show logTransfer (requested.getD s.cfg.transferAmountUi) sigs =
    logEvent "transfer" (requested.getD s.cfg.transferAmountUi) sigs[3] by
      rw [logTransfer, fourth]]
  refine Handler.Gives.bind (gives_logEvent _ _ _) ?_
  rintro _ w5 unused5 ⟨logged, -⟩
  refine Handler.Gives.bind (gives_looks (looks_readLedgerState s)) ?_
  rintro state w6 unused6 ⟨-, sameEvents, -⟩
  refine Handler.gives_pure ⟨⟨sigs[3], "transfer", requested.getD s.cfg.transferAmountUi⟩, ?_,
    ⟨w3, sigs, before, returned, fourth⟩, rfl⟩
  rw [LogsOne, sameEvents, logged, unlogged, before.events]

end Requests

/-- An event of the auditor's log shows what its transaction moved: in every run in which others'
credits arrive between the requests, a successful transfer logs the amount that it was given exactly
where the requested amount is a whole number of base units that a `u64` holds, and a successful
apply logs the amount that it moved exactly where as much is pending when it lands as its view has
seen. -/
theorem auditor_amount_iff (sdk : Sdk) (cluster : Cluster) (s : AppState) (world : World)
    (moments : List Moment) :
    (∀ requested response,
      ((busyChain cluster).run (transferHandler sdk s requested) world moments).1 =
        .ok response →
      ∃ event, LogsOne world
          ((busyChain cluster).run (transferHandler sdk s requested) world moments).2 event ∧
        s.TransferredUnder sdk cluster world moments event (s.requestedBase requested) ∧
        (event.amountUi = baseToUi (s.requestedBase requested) s.cfg.mintDecimals ↔
          ∃ base < 2 ^ 64, requested.getD s.cfg.transferAmountUi =
            baseToUi base s.cfg.mintDecimals)) ∧
    ∀ account response,
      ((busyChain cluster).run (applyPendingHandler s account) world moments).1 =
        .ok response →
      ∃ owner event moved, applyOwner s account = pure owner ∧
        LogsOne world
          ((busyChain cluster).run (applyPendingHandler s account) world moments).2 event ∧
        s.AppliedUnder cluster owner world moments
          ((busyChain cluster).run (applyPendingHandler s account) world moments).2 event moved ∧
        (event.amountUi = baseToUi moved s.cfg.mintDecimals ↔ s.ViewHolds owner world moments) := by
  constructor
  · intro requested response succeeded
    obtain ⟨event, logged, transferred, requests⟩ :=
      (Handler.gives_run _).mp (gives_transferHandler requested) response succeeded
    refine ⟨event, logged, transferred, ?_⟩
    rw [requests]
    exact baseToUi_uiToBase_iff _ _
  · intro account response succeeded
    exact (Handler.gives_run _).mp (gives_applyPendingHandler account) response succeeded

/-- A credit of five base units to the demo's sender, ahead of a request that is served. -/
def Moment.demo : Moment :=
  ⟨[⟨AppState.demo.tokenAccount AppState.demo.keys.sender, 5, 0, 0, 0, 0⟩], .succeed⟩

/-- The demo's own transfer logs what it was given, and an apply logs a credit that came before its
view. -/
theorem auditor_amount_iff_demo :
    (∃ event, LogsOne (.demo 0 5) ((busyChain Cluster.ideal).run
        (transferHandler Sdk.ideal .demo none) (.demo 0 5) []).2 event ∧
      AppState.demo.TransferredUnder Sdk.ideal Cluster.ideal (.demo 0 5) [] event 2 ∧
      event.amountUi = baseToUi 2 2) ∧
    ∃ event moved, LogsOne (.demo 0 5) ((busyChain Cluster.ideal).run
        (applyPendingHandler .demo "sender") (.demo 0 5) [.demo]).2 event ∧
      AppState.demo.AppliedUnder Cluster.ideal AppState.demo.keys.sender (.demo 0 5) [.demo]
        ((busyChain Cluster.ideal).run (applyPendingHandler .demo "sender") (.demo 0 5)
          [.demo]).2 event moved ∧
      event.amountUi = baseToUi moved 2 := by
  constructor
  · obtain ⟨response, succeeded⟩ := Outcome.isOk_iff.mp (show ((busyChain Cluster.ideal).run
      (transferHandler Sdk.ideal .demo none) (.demo 0 5) []).1.isOk = true by decide +kernel)
    obtain ⟨event, logged, transferred, told⟩ :=
      (auditor_amount_iff Sdk.ideal Cluster.ideal .demo (.demo 0 5) []).1 none response succeeded
    have whole : AppState.demo.requestedBase none = 2 := by decide +kernel
    rw [whole] at transferred told
    exact ⟨event, logged, transferred, told.mpr ⟨2, by decide, by decide +kernel⟩⟩
  · obtain ⟨response, succeeded⟩ := Outcome.isOk_iff.mp (show ((busyChain Cluster.ideal).run
      (applyPendingHandler .demo "sender") (.demo 0 5) [.demo]).1.isOk = true by decide +kernel)
    obtain ⟨owner, event, moved, named, logged, applied, told⟩ :=
      (auditor_amount_iff Sdk.ideal Cluster.ideal .demo (.demo 0 5) [.demo]).2 "sender" response
        succeeded
    obtain rfl : AppState.demo.keys.sender = owner :=
      Outcome.ok.inj (Program.done.inj named)
    refine ⟨event, moved, logged, applied, told.mpr ?_⟩
    unfold AppState.ViewHolds
    decide +kernel

/-- A transfer of two and a half cents moves three, and logs what was asked for; an apply whose
credit comes after its view moves five cents, and logs none. -/
theorem auditor_amount_differs :
    (((busyChain Cluster.ideal).run (transferHandler Sdk.ideal .demo (some (1 / 40))) (.demo 0 5)
        []).1.isOk = true ∧
      ((busyChain Cluster.ideal).run (transferHandler Sdk.ideal .demo (some (1 / 40))) (.demo 0 5)
        []).2.events.map EventLog.amountUi = [1 / 40] ∧
      (((busyChain Cluster.ideal).run (transferHandler Sdk.ideal .demo (some (1 / 40))) (.demo 0 5)
        []).2.ledger.confidential? (AppState.demo.tokenAccount AppState.demo.keys.receiver)).map
          ConfidentialTransferAccount.pendingAmount = some 3 ∧
      baseToUi (AppState.demo.requestedBase (some (1 / 40))) 2 = baseToUi 3 2 ∧
      baseToUi 3 2 ≠ 1 / 40) ∧
    ((busyChain Cluster.ideal).run (applyPendingHandler .demo "sender") (.demo 0 5)
        (List.replicate 7 default ++ [.demo])).1.isOk = true ∧
      ((busyChain Cluster.ideal).run (applyPendingHandler .demo "sender") (.demo 0 5)
        (List.replicate 7 default ++ [.demo])).2.events.map EventLog.amountUi = [0] ∧
      AppState.demo.availableBalance (World.demo 0 5).ledger AppState.demo.keys.sender = 5 ∧
      AppState.demo.availableBalance ((busyChain Cluster.ideal).run
        (applyPendingHandler .demo "sender") (.demo 0 5)
        (List.replicate 7 default ++ [.demo])).2.ledger AppState.demo.keys.sender = 10 := by
  decide +kernel

end ConfidentialBalances
