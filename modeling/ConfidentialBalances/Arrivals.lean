import ConfidentialBalances.Credits
import ConfidentialBalances.Effect.Choices
import ConfidentialBalances.Payment
import ConfidentialBalances.Readability

/-!
# Credits that arrive meanwhile

Others may deposit and transfer to an account at any time while a request is
served. A moment says which credits land before one of its requests, and whether
that request is then served; the busy chain answers a program moment by moment.
Credits only ever add to what is pending, so what a program reads twice can only
have grown.
-/

namespace ConfidentialBalances

open Effect

/-- A credit that lands on a token account: the limbs that it adds to the pending balance, and what
a deposit draws from the public one. -/
structure Arrival where
  /-- The credited account. -/
  account : Pubkey
  /-- The low limb. -/
  low : Nat
  /-- The high limb. -/
  high : Nat
  /-- The randomness of the low limb. -/
  lowOpening : ℤ
  /-- The randomness of the high limb. -/
  highOpening : ℤ
  /-- What a deposit draws from the public balance; nothing for a transfer. -/
  drawn : Nat
  deriving DecidableEq, Repr

/-- The token account after a credit that it accepts. -/
def TokenAccount.receive (token : TokenAccount) (arrival : Arrival) : Option TokenAccount := do
  let confidential ← token.confidential
  let credited ← confidential.credit
    ⟨confidential.elgamalPubkey, arrival.low, arrival.lowOpening⟩
    ⟨confidential.elgamalPubkey, arrival.high, arrival.highOpening⟩
  if arrival.drawn ≤ token.amount then
    some { token with amount := token.amount - arrival.drawn, confidential := some credited }
  else none

/-- A credit arrives: it lands where the account accepts it, and leaves no trace where it does
not. -/
def Ledger.arrive (ledger : Ledger) (arrival : Arrival) : Ledger :=
  match (ledger.data arrival.account).token?.bind (·.receive arrival) with
  | some token => ledger.setData arrival.account (.token token)
  | none => ledger

/-- Credits arrive one after another. -/
def Ledger.arriveAll (ledger : Ledger) (arrivals : List Arrival) : Ledger :=
  arrivals.foldl Ledger.arrive ledger

namespace Ledger

variable {ledger ledger' : Ledger}

/-- A credit that the account accepts arrives. -/
theorem arrive_credit {account : Pubkey} {token : TokenAccount}
    {confidential credited : ConfidentialTransferAccount} {lo hi : ElGamalCiphertext}
    {low high drawn : Nat} (held : ledger.data account = .token token)
    (extended : token.confidential = some confidential) (lo_eq : lo.amount = low)
    (hi_eq : hi.amount = high) (entered : confidential.credit lo hi = some credited)
    (enough : drawn ≤ token.amount) :
    ledger.arrive ⟨account, low, high, lo.opening, hi.opening, drawn⟩ =
      ledger.setData account (.token { token with
        amount := token.amount - drawn
        confidential := some credited }) := by
  have same : confidential.credit ⟨confidential.elgamalPubkey, low, lo.opening⟩
      ⟨confidential.elgamalPubkey, high, hi.opening⟩ = some credited := by
    rw [← entered, ← lo_eq, ← hi_eq]
    rfl
  have received : token.receive ⟨account, low, high, lo.opening, hi.opening, drawn⟩ =
      some { token with amount := token.amount - drawn, confidential := some credited } := by
    unfold TokenAccount.receive
    rw [extended]
    exact (congrArg (Option.bind · _) same).trans (if_pos enough)
  simp [arrive, held, AccountData.token?, received]

/-- What others hold does not matter to an account that credits arrive at. -/
theorem arrive_token?_congr {key : Pubkey} (arrival : Arrival)
    (same : (ledger'.data key).token? = (ledger.data key).token?) :
    ((ledger'.arrive arrival).data key).token? = ((ledger.arrive arrival).data key).token? := by
  by_cases here : key = arrival.account
  · subst here
    unfold arrive
    rw [same]
    cases (ledger.data arrival.account).token?.bind (·.receive arrival) with
    | none => exact same
    | some token => simp
  · have elsewhere (start : Ledger) : (start.arrive arrival).data key = start.data key := by
      unfold arrive
      split <;> simp [here]
    rw [elsewhere, elsewhere, same]

/-- What is at an account after credits depends on what was there before. -/
theorem arriveAll_token?_congr {key : Pubkey} (arrivals : List Arrival)
    (same : (ledger'.data key).token? = (ledger.data key).token?) :
    ((ledger'.arriveAll arrivals).data key).token? =
      ((ledger.arriveAll arrivals).data key).token? := by
  induction arrivals generalizing ledger ledger' with
  | nil => exact same
  | cons arrival rest ih => exact ih (arrive_token?_congr arrival same)

/-- Arrivals compose. -/
theorem arriveAll_append (first second : List Arrival) :
    ledger.arriveAll (first ++ second) = (ledger.arriveAll first).arriveAll second :=
  List.foldl_append

/-- A change that credits an account is an arrival there. -/
theorem Changes.arrives {account : Pubkey} {confidential credited : ConfidentialTransferAccount}
    {lo hi : ElGamalCiphertext} {low high paid drawn : Nat}
    (changes : ledger.Changes ledger' account confidential credited paid (paid - drawn))
    (entered : confidential.credit lo hi = some credited) (lo_eq : lo.amount = low)
    (hi_eq : hi.amount = high) (enough : drawn ≤ paid) :
    (ledger'.data account).token? =
      ((ledger.arrive ⟨account, low, high, lo.opening, hi.opening, drawn⟩).data
        account).token? := by
  obtain ⟨⟨token, held, rfl, extended, written⟩, -⟩ := changes
  rw [arrive_credit (AccountData.token?_eq_some.mp held) extended lo_eq hi_eq entered enough,
    written]
  simp [AccountData.token?]

end Ledger

/-! ## What an arrival changes -/

/-- Before and after some credits: the pending limbs have grown. -/
structure Grown (before after : ConfidentialTransferAccount) : Prop where
  /-- The low limb. -/
  lo : before.pendingBalanceLo.amount ≤ after.pendingBalanceLo.amount
  /-- The high limb. -/
  hi : before.pendingBalanceHi.amount ≤ after.pendingBalanceHi.amount

namespace Grown

variable {first second third : ConfidentialTransferAccount}

/-- An account has grown by nothing. -/
theorem refl (account : ConfidentialTransferAccount) : Grown account account :=
  ⟨le_refl _, le_refl _⟩

/-- Growth after growth is growth. -/
theorem trans (before : Grown first second) (after : Grown second third) : Grown first third :=
  ⟨before.lo.trans after.lo, before.hi.trans after.hi⟩

end Grown

namespace Ledger

variable {ledger : Ledger} {key : Pubkey}

/-- A received credit has grown the account. -/
theorem receive_grown {token token' : TokenAccount} {arrival : Arrival}
    (received : token.receive arrival = some token') :
    ∃ before after, token.confidential = some before ∧ token'.confidential = some after ∧
      Grown before after := by
  obtain ⟨before, extended, rest⟩ := Option.bind_eq_some_iff.mp received
  obtain ⟨after, credited, rest⟩ := Option.bind_eq_some_iff.mp rest
  obtain ⟨-, rfl⟩ := ite_some rest
  obtain ⟨-, rfl⟩ := ConfidentialTransferAccount.credit_some credited
  exact ⟨before, _, extended, rfl, by simp, by simp⟩

/-- A configured account is still configured after an arrival, and has grown. -/
theorem arrive_grown {before : ConfidentialTransferAccount}
    (configured : ledger.confidential? key = some before) (arrival : Arrival) :
    ∃ after, (ledger.arrive arrival).confidential? key = some after ∧ Grown before after := by
  unfold arrive
  cases received : (ledger.data arrival.account).token?.bind (·.receive arrival) with
  | none => exact ⟨before, configured, .refl before⟩
  | some token' =>
    obtain ⟨token, held, accepted⟩ := Option.bind_eq_some_iff.mp received
    by_cases here : key = arrival.account
    · subst here
      obtain ⟨before', after, extended, extended', grown⟩ := receive_grown accepted
      obtain rfl : before' = before := by
        simpa [confidential?, held, extended] using configured
      exact ⟨after, by simp [confidential?, AccountData.token?, extended'], grown⟩
    · exact ⟨before, by simpa [confidential?, here] using configured, .refl before⟩

/-- A configured account is still configured after any number of arrivals, and has grown. -/
theorem arriveAll_grown {before : ConfidentialTransferAccount}
    (configured : ledger.confidential? key = some before) (arrivals : List Arrival) :
    ∃ after, (ledger.arriveAll arrivals).confidential? key = some after ∧ Grown before after := by
  induction arrivals generalizing ledger before with
  | nil => exact ⟨before, configured, .refl before⟩
  | cons arrival rest ih =>
    obtain ⟨middle, first, grown⟩ := arrive_grown configured arrival
    obtain ⟨after, last, grown'⟩ := ih first
    exact ⟨after, last, grown.trans grown'⟩

end Ledger

/-! ## Whose credits these are -/

/-- The call does nothing to the account but credit it: it deposits, it transfers from another
account, or it acts on another account altogether. -/
def Operation.OnlyCredits (key : Pubkey) : Operation → Prop
  | .deposit .. => True
  | .configure _ authority mint => key ≠ getAssociatedTokenAddress authority.pubkey mint
  | .applyPending _ authority mint => key ≠ getAssociatedTokenAddress authority.pubkey mint
  | .withdraw _ authority mint _ _ => key ≠ getAssociatedTokenAddress authority.pubkey mint
  | .transfer _ sender mint _ _ _ => key ≠ getAssociatedTokenAddress sender.pubkey mint

/-- Some call that does nothing to the account but credit it has run, to wherever it stands. -/
def CreditStep (sdk : Sdk) (cluster : Cluster) (key : Pubkey) (world world' : World) : Prop :=
  ∃ (call : Operation) (program' : Client (List Signature)), call.OnlyCredits key ∧
    (chainSystem cluster).Reaches world (call.program sdk) world' program'

section Others

variable {sdk : Sdk} {cluster : Cluster} {key : Pubkey}

/-- What such a call achieves is at the account what some credits have left there. -/
theorem Operation.Achieved.arrives {call : Operation} {before after : Ledger}
    (credits : call.OnlyCredits key) (achieved : call.Achieved sdk cluster before after) :
    ∃ arrivals, (after.data key).token? = ((before.arriveAll arrivals).data key).token? := by
  cases call with
  | configure payer authority mint =>
    obtain ⟨token, approved, -, -, -, others⟩ := achieved
    exact ⟨[], others key credits⟩
  | deposit payer authority mint amount decimals =>
    obtain ⟨extension, extension', amount', deposited, enough, changes⟩ := achieved
    by_cases here : key = getAssociatedTokenAddress authority.pubkey mint
    · subst here
      obtain ⟨-, entered⟩ := ConfidentialTransferAccount.deposit_some deposited
      exact ⟨[_], changes.arrives entered rfl rfl enough⟩
    · exact ⟨[], changes.2 key here⟩
  | applyPending payer authority mint =>
    obtain ⟨extension, extension', amount', -, changes⟩ := achieved
    exact ⟨[], changes.2 key credits⟩
  | withdraw payer authority mint amount decimals =>
    obtain ⟨extension, extension', amount', -, changes⟩ := achieved
    exact ⟨[], changes.2 key credits⟩
  | transfer payer sender mint recipient amount progress =>
    obtain ⟨middle, extension, extension', amount', recipientPubkey, auditor, -, out, transfer,
      received, received', received'', carries, -, receives, into, -⟩ := achieved
    have sent : (middle.data key).token? = (before.data key).token? := out.2 key credits
    by_cases here : key = getAssociatedTokenAddress recipient mint
    · subst here
      obtain ⟨_, same, entered⟩ := ConfidentialTransferAccount.transferIn_some receives
      obtain rfl := ProofContext.validity.inj same
      have arrived := into.arrives entered carries.1 carries.2 (Nat.zero_le _)
      exact ⟨[_], arrived.trans (Ledger.arrive_token?_congr _ sent)⟩
    · exact ⟨[], (into.2 key here).trans sent⟩

/-- Whatever calls that do nothing to an account but credit it have run, and wherever each of them
has stopped, the account is as some credits have left it. -/
theorem creditSteps_arrive (honest : Honest sdk cluster) {world world' : World}
    (steps : Relation.ReflTransGen (CreditStep sdk cluster key) world world') :
    ∃ arrivals, (world'.ledger.data key).token? =
      ((world.ledger.arriveAll arrivals).data key).token? := by
  induction steps with
  | refl => exact ⟨[], rfl⟩
  | @tail middle last _ step ih =>
    obtain ⟨earlier, before⟩ := ih
    obtain ⟨call, program', credits, run⟩ := step
    have landed : ∃ arrivals, (last.ledger.data key).token? =
        ((middle.ledger.arriveAll arrivals).data key).token? := by
      rcases Operation.reaches_achieved honest run with same | achieved
      · exact ⟨[], same key⟩
      · exact achieved.arrives credits
    obtain ⟨later, after⟩ := landed
    refine ⟨earlier ++ later, after.trans ?_⟩
    rw [Ledger.arriveAll_append]
    exact Ledger.arriveAll_token?_congr later before

end Others

/-! ## The busy chain -/

/-- The credits that arrive before a request, and whether the request is then served. -/
structure Moment where
  /-- The credits. -/
  arrivals : List Arrival
  /-- The choice for the request. -/
  choice : Choice
  deriving DecidableEq, Repr

instance : Inhabited Moment := ⟨⟨[], .succeed⟩⟩

/-- The world after some credits have arrived. -/
def World.arrive (world : World) (arrivals : List Arrival) : World :=
  { world with ledger := world.ledger.arriveAll arrivals }

/-- The chain on which credits arrive between the requests of a program. -/
def busyChain (cluster : Cluster) : Handler Reply World Moment where
  answer world request moment :=
    (chain cluster).answer (world.arrive moment.arrivals) request moment.choice

/-- The busy chain keeps the chain's promise. -/
theorem busyChain_promises (cluster : Cluster) :
    (busyChain cluster).system.Promises Call.Promised := by
  rintro world request reply world' ⟨moment, answer⟩
  exact chain_promises cluster _ request reply world' ⟨moment.choice, answer⟩

/-- The credits of some moments, in order. -/
def arrivedBy (moments : List Moment) : List Arrival := moments.flatMap Moment.arrivals

/-- What arrives with some moments and then with more arrives in this order. -/
theorem arrivedBy_append (first second : List Moment) :
    arrivedBy (first ++ second) = arrivedBy first ++ arrivedBy second :=
  List.flatMap_append

/-- An account that is configured after the credits of some requests has grown by those of more. -/
theorem arrivedBy_grown {ledger : Ledger} {key : Pubkey} {moments : List Moment} {first last : Nat}
    {before : ConfidentialTransferAccount} (order : first ≤ last)
    (configured : (ledger.arriveAll (arrivedBy (moments.take first))).confidential? key =
      some before) :
    ∃ after, (ledger.arriveAll (arrivedBy (moments.take last))).confidential? key = some after ∧
      Grown before after := by
  obtain ⟨more, rfl⟩ := Nat.exists_eq_add_of_le order
  rw [List.take_add, arrivedBy_append, Ledger.arriveAll_append]
  exact Ledger.arriveAll_grown configured _

/-- So many requests have passed: their moments are used up, their credits have arrived, and the
ledger has not changed otherwise. Nothing was sent or logged. -/
structure Passed (requests : Nat) (world : World) (moments : List Moment) (world' : World)
    (unused : List Moment) : Prop where
  /-- The moments that are left. -/
  unused : unused = moments.drop requests
  /-- The ledger. -/
  ledger : world'.ledger = world.ledger.arriveAll (arrivedBy (moments.take requests))
  /-- The transactions that landed. -/
  landed : world'.landed = world.landed
  /-- The event log. -/
  events : world'.events = world.events

namespace Passed

variable {first second : Nat} {world world' world'' : World} {moments unused unused' : List Moment}

/-- No request passes where nothing is asked. -/
theorem none (world : World) (moments : List Moment) : Passed 0 world moments world moments :=
  ⟨rfl, rfl, rfl, rfl⟩

/-- Some requests after others. -/
theorem trans (before : Passed first world moments world' unused)
    (after : Passed second world' unused world'' unused') :
    Passed (first + second) world moments world'' unused' := by
  refine ⟨?_, ?_, after.landed.trans before.landed, after.events.trans before.events⟩
  · rw [after.unused, before.unused, List.drop_drop]
  · rw [after.ledger, before.ledger, before.unused, List.take_add, arrivedBy_append,
      Ledger.arriveAll_append]

/-- The credits of further requests arrive after those of the requests that have passed. -/
theorem later (passed : Passed first world moments world' unused) (requests : Nat) :
    world'.ledger.arriveAll (arrivedBy (unused.take requests)) =
      world.ledger.arriveAll (arrivedBy (moments.take (first + requests))) := by
  rw [List.take_add, arrivedBy_append, Ledger.arriveAll_append, ← passed.ledger, ← passed.unused]

/-- One request that sends and logs nothing. -/
theorem one (ledger : world'.ledger = world.ledger.arriveAll (moments.headD default).arrivals)
    (landed : world'.landed = world.landed) (events : world'.events = world.events) :
    Passed 1 world moments world' moments.tail := by
  refine ⟨by simp, ?_, landed, events⟩
  cases moments with
  | nil => exact ledger
  | cons moment rest => simpa [arrivedBy] using ledger

/-- What was configured before is configured after. -/
theorem configured (passed : Passed first world moments world' unused) {key : Pubkey}
    (held : (world.ledger.confidential? key).isSome = true) :
    (world'.ledger.confidential? key).isSome = true := by
  obtain ⟨before, found⟩ := Option.isSome_iff_exists.mp held
  obtain ⟨after, found', -⟩ := Ledger.arriveAll_grown found (arrivedBy (moments.take first))
  rw [passed.ledger, found']
  rfl

end Passed

/-- The program makes so many requests before it returns a value, and sends and logs nothing. -/
abbrev Waits {α : Type} (cluster : Cluster) (requests : Nat) (ok : α → World → Prop)
    (program : Client α) (world : World) (moments : List Moment) : Prop :=
  (busyChain cluster).Gives
    (fun value world' unused => Passed requests world moments world' unused ∧ ok value world')
    program world moments

section Waits

variable {α β : Type} {cluster : Cluster} {world : World} {moments : List Moment}
variable {first second : Nat}

/-- One program after another. -/
theorem Waits.bind {mid : α → World → Prop} {ok : β → World → Prop} {program : Client α}
    {rest : α → Client β} (before : Waits cluster first mid program world moments)
    (after : ∀ value world' unused, Passed first world moments world' unused → mid value world' →
      Waits cluster second ok (rest value) world' unused) :
    Waits cluster (second + first) ok (program >>= rest) world moments := by
  rw [Nat.add_comm]
  refine Handler.Gives.bind before ?_
  rintro value world' unused ⟨passed, known⟩
  refine (after value world' unused passed known).weaken ?_
  rintro result world'' unused' ⟨passed', holds⟩
  exact ⟨passed.trans passed', holds⟩

/-- Returning a value takes no request. -/
theorem waits_pure {ok : α → World → Prop} {value : α} (holds : ok value world) :
    Waits cluster 0 ok (pure value) world moments :=
  Handler.gives_pure ⟨.none world moments, holds⟩

/-- A failure gives no value, however many requests it took. -/
theorem waits_fail {ok : α → World → Prop} {reason : ClientError} (requests : Nat) :
    Waits cluster requests ok (Program.fail reason) world moments :=
  Handler.gives_fail

/-- A weaker fact about the value follows. -/
theorem Waits.weaken {ok ok' : α → World → Prop} {program : Client α}
    (waits : Waits cluster first ok program world moments)
    (weaker : ∀ value world', ok value world' → ok' value world') :
    Waits cluster first ok' program world moments :=
  Handler.Gives.weaken waits fun _ _ _ both => ⟨both.1, weaker _ _ both.2⟩

/-- A request that only reads. -/
def Call.Reads : Call → Prop
  | .signMessage _ => True
  | .getAccount _ => True
  | .getBalance _ => True
  | .getLatestBlockhash => True
  | .newSignedWithPayer _ => True
  | .readEvents => True
  | _ => False

/-- Reading changes nothing. -/
theorem chain_reads {request : Call} (reads : request.Reads) (choice : Choice) :
    ((chain cluster).answer world request choice).2 = world := by
  cases request with
  | signMessage wallet => cases choice <;> rfl
  | getAccount key => cases choice <;> rfl
  | getBalance key => cases choice <;> rfl
  | getLatestBlockhash => cases choice <;> rfl
  | newSignedWithPayer transaction => rfl
  | readEvents => rfl
  | _ => exact reads.elim

/-- A program that starts by reading goes on from what is read when the credits before have
arrived. -/
theorem gives_reads {ok : α → World → List Moment → Prop} {request : Call}
    {next : Reply request → Client α} (reads : request.Reads)
    (after : ∀ reply world', Passed 1 world moments world' moments.tail →
      reply = ((chain cluster).answer world' request (moments.headD default).choice).1 →
      (busyChain cluster).Gives ok (next reply) world' moments.tail) :
    (busyChain cluster).Gives ok (.call request next) world moments := by
  have left : ((busyChain cluster).answer world request (moments.headD default)).2 =
      world.arrive (moments.headD default).arrivals := chain_reads reads _
  have passed : Passed 1 world moments (world.arrive (moments.headD default).arrivals)
    moments.tail := .one rfl rfl rfl
  change (busyChain cluster).Gives ok _
    ((busyChain cluster).answer world request (moments.headD default)).2 moments.tail
  rw [left]
  exact after _ _ passed rfl

/-- A request that reads is answered from the ledger on which the credits before it have
arrived. -/
theorem waits_ask (request : Call) (reads : request.Reads) :
    Waits cluster 1 (fun reply world' => reply =
        ((chain cluster).answer world' request (moments.headD default).choice).1)
      (ask request) world moments :=
  gives_reads reads fun _ _ passed answered => Handler.gives_pure ⟨passed, answered⟩

/-- A progress event passes as one request. -/
theorem waits_emit (event : TransferProgress) :
    Waits cluster 1 (fun _ _ => True) (emit .broadcast event) world moments := by
  rintro value -
  exact ⟨.one rfl rfl rfl, trivial⟩

/-- Looking for the mint. -/
theorem waits_mintExists (mint : Pubkey) :
    Waits cluster 1 (fun _ _ => True) (mintExists mint) world moments := by
  refine Waits.bind (waits_ask (.getAccount mint) trivial) ?_
  rintro reply world' unused - -
  cases reply with
  | ok data => exact waits_pure trivial
  | error reason =>
    dsimp only
    split
    · exact waits_pure trivial
    · exact waits_fail 0

/-- An account that is answered was served, as it is. -/
theorem account_served {key : Pubkey} {choice : Choice} {data : AccountData}
    (answered : .ok data = ((chain cluster).answer world (.getAccount key) choice).1) :
    choice = .succeed ∧ world.ledger.data key = data := by
  cases choice with
  | succeed => exact ⟨rfl, Ledger.fetch_ok answered.symm⟩
  | fail message => contradiction

/-- A computed result takes no request. -/
theorem waits_ofExcept (result : Except ClientError α) :
    Waits cluster 0 (fun value world' => result = .ok value ∧ world' = world)
      (Program.ofExcept result) world moments := by
  cases result with
  | ok value => exact waits_pure ⟨rfl, rfl⟩
  | error reason => exact waits_fail 0

/-- Passing on a reply takes no further request. -/
theorem waits_orRpc (reply : Except RpcError α) :
    Waits cluster 0 (fun _ world' => world' = world) (orRpc reply) world moments :=
  (waits_ofExcept _).weaken fun _ _ both => both.2

/-- A token account that is reported configured is. -/
theorem waits_ataIsConfigured (ata : Pubkey) :
    Waits cluster 1 (fun found world' => found = true →
        (world'.ledger.confidential? ata).isSome = true) (ataIsConfigured ata) world moments := by
  refine Waits.bind (waits_ask (.getAccount ata) trivial) ?_
  rintro reply world' unused - answered
  cases reply with
  | ok data =>
    obtain ⟨-, held⟩ := account_served answered
    refine Waits.bind (waits_ofExcept _) ?_
    rintro token world'' unused' - ⟨unpacked, rfl⟩
    refine waits_pure fun configured => ?_
    cases data with
    | token account =>
      obtain rfl := Except.ok.inj unpacked
      simpa [Ledger.confidential?, held, AccountData.token?] using configured
    | _ => contradiction
  | error reason =>
    dsimp only
    split
    · exact waits_pure (by simp)
    · exact waits_fail 0

/-- A setup that is accepted has both accounts configured. -/
theorem waits_requireInitialized (s : AppState) :
    Waits cluster 3 (fun _ world' => s.Configured world'.ledger s.keys.sender ∧
        s.Configured world'.ledger s.keys.receiver) (requireInitialized s) world moments := by
  refine Waits.bind (waits_mintExists s.mint) ?_
  rintro mint w1 unused1 - -
  split
  · exact waits_fail 2
  refine Waits.bind (waits_ataIsConfigured _) ?_
  rintro sender w2 unused2 - configured
  split
  · exact waits_fail 1
  rename_i senderReady
  refine Waits.bind (waits_ataIsConfigured _) ?_
  rintro receiver w3 unused3 passed configured'
  split
  · exact waits_fail 0
  rename_i receiverReady
  exact waits_pure ⟨passed.configured (configured (by simpa using senderReady)),
    configured' (by simpa using receiverReady)⟩

/-- Reading lamports. -/
theorem waits_getBalance (key : Pubkey) :
    Waits cluster 1 (fun _ _ => True) (getBalance key) world moments := by
  refine Waits.bind (waits_ask (.getBalance key) trivial) ?_
  rintro reply w1 unused1 - -
  exact (waits_orRpc reply).weaken fun _ _ _ => trivial

/-- Checking a wallet's lamports. -/
theorem waits_requireFunds (s : AppState) (role : String) (wallet : Wallet)
    (minimum airdrop : Nat) :
    Waits cluster 1 (fun _ _ => True) (requireFunds s role wallet minimum airdrop) world
      moments := by
  refine Waits.bind (waits_getBalance wallet.pubkey) ?_
  rintro lamports w1 unused1 - -
  split
  · exact waits_fail 0
  · exact waits_pure trivial

/-- Derived keys are the owner's. -/
theorem waits_deriveConfidentialKeys (signer : Wallet) :
    Waits cluster 1 (fun keys _ => keys = signer.confidentialKeys)
      (deriveConfidentialKeys signer) world moments := by
  refine Waits.bind (waits_ask (.signMessage signer) trivial) ?_
  rintro reply world' unused - -
  cases reply with
  | ok _ => exact waits_pure rfl
  | error reason => exact waits_fail 0

/-- An account that is answered is there. -/
theorem waits_getAccount (key : Pubkey) :
    Waits cluster 1 (fun data world' => world'.ledger.data key = data) (getAccount key) world
      moments := by
  refine Waits.bind (waits_ask (.getAccount key) trivial) ?_
  rintro reply world' unused - answered
  cases reply with
  | ok data => exact waits_pure (account_served answered).2
  | error reason => exact waits_fail 0

/-- What is fetched is there. -/
theorem waits_fetchConfidential (account : Pubkey) :
    Waits cluster 1 (fun extension world' =>
        world'.ledger.confidential? account = some extension)
      (fetchConfidential account) world moments := by
  refine Waits.bind (waits_getAccount account) ?_
  rintro data w1 unused1 - held
  refine Waits.bind (waits_ofExcept _) ?_
  rintro token w2 unused2 - ⟨unpacked, rfl⟩
  refine (waits_ofExcept _).weaken ?_
  rintro extension w3 ⟨extended, rfl⟩
  have tokenData := held.trans (unpackTokenAccount_ok unpacked)
  simp [Ledger.confidential?, tokenData, AccountData.token?, getExtension_ok extended]

/-- What is signed is what was to be signed. -/
theorem waits_newSignedWithPayer (transaction : Transaction) :
    Waits cluster 1 (fun signed _ => signed = transaction) (newSignedWithPayer transaction) world
      moments := by
  refine Waits.bind
    (waits_ask (.newSignedWithPayer transaction) trivial) ?_
  rintro reply world' unused - signing
  cases reply with
  | ok signed => exact waits_pure ((transaction.trySign_ok_iff signed).mp signing.symm).2
  | error reason => cases reason <;> exact Handler.gives_abort

/-- The transaction has landed on a ledger, and nothing else was sent or logged. -/
structure Landed (cluster : Cluster) (ledger : Ledger) (transaction : Transaction)
    (sig : Signature) (world world' : World) : Prop where
  /-- The signature counts what had landed. -/
  sig : sig = ⟨world.landed.length⟩
  /-- The transactions that landed. -/
  landed : world'.landed = world.landed ++ [transaction]
  /-- The event log. -/
  events : world'.events = world.events
  /-- The ledger. -/
  executed : ledger.execTransaction cluster transaction = some world'.ledger

/-- What lands after some requests lands on the ledger on which their credits have arrived, too. -/
theorem Passed.lands {requests : Nat} {world' world'' : World} {unused : List Moment}
    {transaction : Transaction} {sig : Signature}
    (passed : Passed first world moments world' unused)
    (landed : Landed cluster (world'.ledger.arriveAll (arrivedBy (unused.take requests)))
      transaction sig world' world'') :
    Landed cluster (world.ledger.arriveAll (arrivedBy (moments.take (first + requests))))
      transaction sig world world'' := by
  refine ⟨?_, ?_, landed.events.trans passed.events, ?_⟩
  · rw [landed.sig, passed.landed]
  · rw [landed.landed, passed.landed]
  · exact passed.later requests ▸ landed.executed

/-- A sent transaction lands on the ledger on which all credits before it have arrived. -/
theorem gives_send (transaction : Transaction) :
    (busyChain cluster).Gives (fun sig world' unused => unused = moments.tail ∧
        Landed cluster (world.ledger.arriveAll (arrivedBy (moments.take 1))) transaction sig world
          world')
      (do orRpc (← ask (.sendAndConfirmTransaction transaction))) world moments := by
  have arrivals : arrivedBy (moments.take 1) = (moments.headD default).arrivals := by
    cases moments with
    | nil => rfl
    | cons moment rest => simp [arrivedBy]
  rw [arrivals]
  change (busyChain cluster).Gives _
    (orRpc ((chain cluster).answer (world.arrive (moments.headD default).arrivals)
      (.sendAndConfirmTransaction transaction) (moments.headD default).choice).1)
    ((chain cluster).answer (world.arrive (moments.headD default).arrivals)
      (.sendAndConfirmTransaction transaction) (moments.headD default).choice).2 moments.tail
  rcases chain_send cluster (world.arrive (moments.headD default).arrivals) transaction
    (moments.headD default).choice with ⟨message, refused⟩ | ⟨ledger', executed, lands⟩
  · rw [refused]
    exact Handler.gives_fail
  · rw [lands]
    exact Handler.gives_pure ⟨rfl, rfl, rfl, rfl, executed⟩

/-- `send_tx` lands its transaction on the ledger on which all credits before it have arrived. -/
theorem gives_sendTx (instructions : List Instruction) (signers : List Pubkey) (payer : Pubkey) :
    (busyChain cluster).Gives (fun sig world' unused => unused = moments.drop 3 ∧
        Landed cluster (world.ledger.arriveAll (arrivedBy (moments.take 3)))
          ⟨instructions, payer, signers⟩ sig world world')
      (sendTx instructions signers payer) world moments := by
  have waits : Waits cluster 2 (fun signed _ => signed = ⟨instructions, payer, signers⟩)
      (do
        orRpc (← ask .getLatestBlockhash)
        newSignedWithPayer ⟨instructions, payer, signers⟩) world moments := by
    refine Waits.bind (waits_ask .getLatestBlockhash trivial) ?_
    rintro reply w1 unused1 - -
    refine Waits.bind (waits_orRpc reply) ?_
    rintro _ w2 unused2 - -
    exact waits_newSignedWithPayer _
  have split : sendTx instructions signers payer = (do
      let signed ← (do
        orRpc (← ask .getLatestBlockhash)
        newSignedWithPayer ⟨instructions, payer, signers⟩)
      orRpc (← ask (.sendAndConfirmTransaction signed))) := by
    simp only [sendTx, Program.bind_assoc]
  rw [split]
  refine Handler.Gives.bind waits ?_
  rintro _ w1 unused1 ⟨passed, rfl⟩
  refine (gives_send _).weaken ?_
  rintro sig w2 unused2 ⟨rfl, landed⟩
  exact ⟨by rw [passed.unused, List.tail_drop], passed.lands landed⟩

end Waits

end ConfidentialBalances
