import ConfidentialBalances.Bystander
import ConfidentialBalances.Readability

/-!
# What the transfer's preflight guards

The preflight of a transfer request looks at the lamports of the sender. The
transfer itself never touches them: the payer pays every fee and funds every
account. Two requests that differ in the sender's lamports alone so differ
exactly where the preflight tells them apart, and what it lets through says
nothing about the account that pays.
-/

namespace ConfidentialBalances

open Effect

/-- What a transfer's preflight asks of the sender, in lamports. -/
def transferMinimum : Nat := 20000000

/-- A request that reads what is public: accounts other than callers' own, but the mint's, keys and
the event log. -/
def Call.Looks (mint : Pubkey) : Call → Prop
  | .getAccount key => ∀ wallet : Wallet, key = wallet.pubkey → key = mint
  | .signMessage _ => True
  | .readEvents => True
  | _ => False

/-- Looking spares every wallet. -/
theorem Call.Looks.spares {mint : Pubkey} {wallet : Wallet} {request : Call}
    (looks : request.Looks mint) : request.Spares mint wallet := by
  cases request with
  | getAccount key => exact looks wallet
  | getBalance key => exact looks.elim
  | sendAndConfirmTransaction transaction => exact looks.elim
  | _ => trivial

section Looking

variable (s : AppState) (owner : Wallet)

/-- Looking for the mint reads it alone. -/
theorem looks_mintExists :
    (mintExists s.mint).Within Call.Promised (Call.Looks s.mint) fun _ => True := by
  refine Program.within_perform (fun _ _ => rfl) fun reply _ => ?_
  cases reply with
  | ok data => exact Program.within_pure trivial
  | error reason =>
    dsimp only
    split
    · exact Program.within_pure trivial
    · exact Program.within_fail

/-- A token account is no wallet's own. -/
theorem AppState.tokenAccount_ne (wallet : Wallet) : s.tokenAccount owner ≠ wallet.pubkey :=
  (wallet.pubkey_ne_associated _ _).symm

/-- A program that reads a token account first looks, if it goes on looking. -/
theorem looks_tokenAccount {α : Type}
    {rest : Reply (.getAccount (s.tokenAccount owner)) → Client α}
    (second : ∀ reply, (rest reply).Within Call.Promised (Call.Looks s.mint) fun _ => True) :
    (ask (.getAccount (s.tokenAccount owner)) >>= rest).Within Call.Promised (Call.Looks s.mint)
      fun _ => True :=
  Program.within_perform (fun wallet same => absurd same (s.tokenAccount_ne owner wallet))
    fun reply _ => second reply

/-- Looking for a configured account reads that token account alone. -/
theorem looks_ataIsConfigured :
    (ataIsConfigured (s.tokenAccount owner)).Within Call.Promised (Call.Looks s.mint)
      fun _ => True := by
  refine looks_tokenAccount s owner fun reply => ?_
  cases reply with
  | ok data => exact Program.within_ofExcept.bind fun _ _ => Program.within_pure trivial
  | error reason =>
    dsimp only
    split
    · exact Program.within_pure trivial
    · exact Program.within_fail

/-- The check of the setup looks for the mint and both accounts. -/
theorem looks_requireInitialized :
    (requireInitialized s).Within Call.Promised (Call.Looks s.mint) fun _ => True := by
  refine (looks_mintExists s).bind fun mint _ => ?_
  split
  · exact Program.within_fail
  refine (looks_ataIsConfigured s _).bind fun sender _ => ?_
  split
  · exact Program.within_fail
  refine (looks_ataIsConfigured s _).bind fun receiver _ => ?_
  split
  · exact Program.within_fail
  · exact Program.within_pure trivial

/-- A view reads the owner's token account and derives the keys. -/
theorem looks_readAccountView :
    (readAccountView s owner).Within Call.Promised (Call.Looks s.mint) fun _ => True := by
  refine looks_tokenAccount s owner fun reply => ?_
  cases reply with
  | ok data =>
    refine Program.within_ofExcept.bind fun account _ => ?_
    unfold viewAccount
    cases account.confidential with
    | none => exact Program.within_pure trivial
    | some extension =>
      refine Program.within_perform trivial fun signing _ => ?_
      cases signing with
      | ok _ => exact Program.within_pure trivial
      | error reason => exact Program.within_fail
  | error reason =>
    dsimp only
    split
    · exact Program.within_pure trivial
    · exact Program.within_fail

/-- The ledger's state is two views and the event log. -/
theorem looks_readLedgerState :
    (readLedgerState s).Within Call.Promised (Call.Looks s.mint) fun _ => True :=
  (looks_readAccountView s _).bind fun _ _ => (looks_readAccountView s _).bind fun _ _ =>
    ⟨trivial, fun _ _ => Program.within_pure trivial⟩

end Looking

/-! ## After the preflight -/

/-- The event with which a transfer request announces its preflight. -/
def transferPreflight (s : AppState) (requested : Option ℚ) : TransferProgress :=
  .phase "preflight"
    s!"Verifying setup before transferring {floatText (requested.getD s.cfg.transferAmountUi)} USDC"

section Rest

variable {sdk : Sdk} {cluster : Cluster} {s : AppState} {world other : World}
variable {held amount : Nat}

/-- Logging a transfer spares every wallet. -/
theorem spares_logTransfer (wallet : Wallet) (amountUi : ℚ) (sigs : List Signature) :
    (logTransfer amountUi sigs).Within Call.Promised (Call.Spares s.mint wallet)
      fun _ => True := by
  unfold logTransfer
  split
  · exact ⟨trivial, fun _ _ => ⟨trivial, fun _ _ => Program.within_pure trivial⟩⟩
  · exact Program.within_pure trivial

/-- Nothing after the preflight depends on what the sender holds. -/
theorem spares_transferRest (distinct : s.keys.sender ≠ s.keys.payer) (requested : Option ℚ) :
    (transferRest sdk s requested).Within Call.Promised (Call.Spares s.mint s.keys.sender)
      fun _ => True := by
  have transfer := (charges_transfer sdk s.keys.payer s.keys.sender s.mint
    s.keys.receiver.pubkey (s.requestedBase requested) .broadcast).weaken
      (fun _ paid => Call.PaidBy.spares distinct paid) fun _ _ => trivial
  refine Program.Within.bind (Program.Within.catchError transfer fun reason => ?_)
    fun sigs _ => ?_
  · exact ⟨trivial, fun _ _ => Program.within_fail⟩
  refine (spares_logTransfer _ _ sigs).bind fun _ _ => ?_
  exact ((looks_readLedgerState s).weaken (fun _ looks => looks.spares) fun _ holds => holds).bind
    fun state _ => Program.within_pure trivial

/-- The check of the sender's lamports tells two balances apart only at its minimum. -/
theorem parallel_requireFunds (role : String) (wallet : Wallet) (minimum airdrop : Nat)
    (sides : minimum ≤ held ↔ minimum ≤ amount)
    (bystander : Bystander s.mint wallet.pubkey held amount world other) :
    (chain cluster).Parallel (Bystander s.mint wallet.pubkey held amount) (fun _ _ => True)
      (requireFunds s role wallet minimum airdrop) (requireFunds s role wallet minimum airdrop)
      world other := by
  refine .call fun choice => ?_
  cases choice with
  | fail message => exact .done trivial bystander
  | succeed =>
    have here : world.ledger.lamports wallet.pubkey = held := bystander.holds
    have there : other.ledger.lamports wallet.pubkey = amount := by
      rw [bystander.apart]
      exact Ledger.withLamports_self
    change (chain cluster).Parallel _ _ (if world.ledger.lamports wallet.pubkey < minimum then _
      else _) (if other.ledger.lamports wallet.pubkey < minimum then _ else _) world other
    rw [here, there]
    by_cases poor : held < minimum
    · rw [if_pos poor, if_pos (by omega)]
      exact .done trivial bystander
    · rw [if_neg poor, if_neg (by omega)]
      exact .done trivial bystander

/-- Where the preflight cannot tell the sender's lamports apart, neither can the request. -/
theorem transferHandler_parallel (distinct : s.keys.sender ≠ s.keys.payer) (requested : Option ℚ)
    (sides : transferMinimum ≤ held ↔ transferMinimum ≤ amount)
    (bystander : Bystander s.mint s.keys.sender.pubkey held amount world other) :
    (chain cluster).Parallel (Bystander s.mint s.keys.sender.pubkey held amount)
      (fun response response' => response = response') (transferHandler sdk s requested)
      (transferHandler sdk s requested) world other := by
  refine .call fun choice => ?_
  obtain ⟨-, announced⟩ : _ ∧ Bystander s.mint s.keys.sender.pubkey held amount
      ((chain cluster).answer world (.emit (transferPreflight s requested)) choice).2
      ((chain cluster).answer other (.emit (transferPreflight s requested)) choice).2 :=
    chain_spares world other _ choice bystander trivial
  refine Handler.Parallel.catchPanic ?_ _ _
  refine (parallel_spares ((looks_requireInitialized s).weaken (fun _ looks => looks.spares)
    fun _ holds => holds) announced).bind ?_
  rintro _ _ after after' - here
  refine (parallel_requireFunds _ _ _ _ sides here).bind ?_
  rintro _ _ last last' - done
  exact parallel_spares (spares_transferRest distinct requested) done

end Rest

/-! ## The preflight -/

section Preflight

variable {sdk : Sdk} {cluster : Cluster} {s : AppState} {world other : World}

/-- A transfer's preflight can accept. -/
def LetsThrough (cluster : Cluster) (s : AppState) (world : World) : Prop :=
  ∃ world', (chainSystem cluster).Ends world (do
    requireInitialized s
    requireFunds s "sender" s.keys.sender transferMinimum 1) (.ok ()) world'

/-- Enough lamports can be found to be enough. -/
theorem requireFunds_ends {role : String} {wallet : Wallet} {minimum airdrop : Nat}
    (funded : minimum ≤ world.ledger.lamports wallet.pubkey) :
    (chainSystem cluster).Ends world (requireFunds s role wallet minimum airdrop) (.ok ())
      world := by
  refine .next ⟨.succeed, rfl⟩ ?_
  change (chainSystem cluster).Ends world (if _ < _ then _ else _) (.ok ()) world
  rw [if_neg (by omega)]
  exact .here

/-- A preflight accepts a ledger that is initialised and on which the sender holds the minimum, and
leaves the world as it is. -/
theorem preflight_ends (prepared : s.Prepared world.ledger) :
    (chainSystem cluster).Ends world (do
      requireInitialized s
      requireFunds s "sender" s.keys.sender transferMinimum 1) (.ok ()) world := by
  have accepts : Accepts cluster s world := accepts_iff.mpr prepared.toInitialized
  obtain ⟨world', ended⟩ := accepts
  obtain rfl : world' = world := quietly_requireInitialized.ends ended () rfl
  exact ended.bind (requireFunds_ends prepared.funded)

/-- A preflight can accept exactly where the ledger is initialised and the sender holds enough. -/
theorem letsThrough_iff : LetsThrough cluster s world ↔ s.Prepared world.ledger := by
  constructor
  · rintro ⟨world', ended⟩
    obtain ⟨transcript, ran⟩ := ended.runs
    have sighted : Sighted transcript := by
      by_contra blind
      obtain ⟨-, -, reason, same⟩ := givesUpUnread_preflight s world _ _ _ ran blind
      contradiction
    exact (checks_preflight _ _ _ ran sighted).2.2.2.2.2
  · exact fun prepared => ⟨world, preflight_ends prepared⟩

/-- A request whose preflight refuses sends nothing after its first event. -/
theorem transferHandler_refused (requested : Option ℚ) (refuses : ¬ s.Prepared world.ledger)
    {outcome : Outcome ClientError ActionResponse} {world' : World}
    (ended : (chainSystem cluster).Ends world (transferHandler sdk s requested) outcome world') :
    world'.progress.length = world.progress.length + 1 := by
  obtain ⟨transcript, ran⟩ := ended.runs
  obtain ⟨detail, later, rfl, stream⟩ := transferHandler_stream sdk cluster s requested world
    _ _ _ ran
  rcases stream with ⟨unheard, -⟩ | ⟨prepared, -⟩
  · have told : sent (⟨.emit (.phase "preflight" detail), ()⟩ :: later) =
        [.phase "preflight" detail] := congrArg (_ :: ·) unheard.sent
    rw [(runs_witnessed ran).progress, List.length_append, told, List.length_singleton]
  · exact absurd prepared refuses

/-- A request whose preflight accepts can go on, and then sends another event. -/
theorem transferHandler_proceeds (sdk : Sdk) (cluster : Cluster) (requested : Option ℚ)
    (prepared : s.Prepared world.ledger) :
    ∃ outcome world', (chainSystem cluster).Ends world (transferHandler sdk s requested) outcome
      world' ∧ world.progress.length + 2 ≤ world'.progress.length := by
  let announced : World :=
    { world with progress := world.progress ++ [transferPreflight s requested] }
  have speaks : (chainSystem cluster).Shows (fun _ transcript _ => sent transcript ≠ [])
      (transferRest sdk s requested) announced := by
    refine (chain cluster).shows_call.mpr fun choice => ?_
    exact fun _ _ _ _ => List.cons_ne_nil _ _
  have rest := (chain cluster).run_runs (transferRest sdk s requested) announced []
  have more := List.length_pos_iff.mpr (speaks _ _ _ rest)
  have passed : s.Prepared announced.ledger := prepared
  have preflight : (chainSystem cluster).Ends announced _ _ _ := preflight_ends passed
  have whole : (chainSystem cluster).Ends announced ((do
      requireInitialized s
      requireFunds s "sender" s.keys.sender transferMinimum 1) >>= fun _ =>
        transferRest sdk s requested) _ _ := preflight.bind rest.reaches
  rw [Program.bind_assoc] at whole
  obtain ⟨reported, ended⟩ := whole.catchPanic fun message =>
    .labelled "blocking join: " (.message message)
  refine ⟨reported, _, .next ⟨default, rfl⟩ ended, ?_⟩
  have start : announced.progress.length = world.progress.length + 1 := List.length_append
  rw [(runs_witnessed rest).progress, List.length_append, start]
  omega

end Preflight

/-! ## What the preflight is for -/

/-- The transfer request comes out the same whether the sender holds what it does or this much: both
return the same response or both report an error, and the worlds they leave differ in the sender's
lamports alone. -/
def SameTransfer (sdk : Sdk) (cluster : Cluster) (s : AppState) (requested : Option ℚ)
    (world : World) (amount : Nat) : Prop :=
  ∀ choices,
    let first := (chain cluster).run (transferHandler sdk s requested) world choices
    let second := (chain cluster).run (transferHandler sdk s requested)
      (world.withLamports s.keys.sender.pubkey amount) choices
    first.1.Corresponds (fun response response' => response = response') second.1 ∧
      second.2 = first.2.withLamports s.keys.sender.pubkey amount

/-- If the preflight lets the request through, the account that pays holds the minimum. -/
def GuardsPayer (cluster : Cluster) (s : AppState) (world : World) : Prop :=
  LetsThrough cluster s world → transferMinimum ≤ world.ledger.lamports s.keys.payer.pubkey

/-- The preflight rejects the request because the sender holds too little: it does not let it
through, and would if the sender held more. -/
def RejectsPoorSender (cluster : Cluster) (s : AppState) (world : World) : Prop :=
  ¬ LetsThrough cluster s world ∧
    ∃ more, LetsThrough cluster s (world.withLamports s.keys.sender.pubkey more)

/-- Wherever a transfer is about to submit a transaction, the payer pays its fee and funds every
account that it creates, and landing it leaves the sender's lamports as they are. -/
def PayerFunds (sdk : Sdk) (cluster : Cluster) (payer sender : Wallet) : Prop :=
  ∀ mint recipient amount progress world world' transaction next,
    (chainSystem cluster).Reaches world
      (transferConfidentialWithProgress sdk payer sender mint recipient amount progress) world'
      (.call (.sendAndConfirmTransaction transaction) next) →
    transaction.payer = payer.pubkey ∧
      (∀ instruction ∈ transaction.instructions, ∀ funder ∈ instruction.funders,
        funder = payer.pubkey) ∧
      ∀ ledger ledger', Ledger.execTransaction cluster ledger transaction = some ledger' →
        ledger'.lamports sender.pubkey = ledger.lamports sender.pubkey

section Guard

variable {sdk : Sdk} {cluster : Cluster} {s : AppState} {world : World} {amount : Nat}

/-- The payer funds every transfer. -/
theorem payerFunds {payer sender : Wallet} (distinct : sender ≠ payer) :
    PayerFunds sdk cluster payer sender := by
  intro mint recipient amount progress world world' transaction next reached
  obtain ⟨paid, -⟩ := reached.within (chain_promises cluster)
    (charges_transfer sdk payer sender mint recipient amount progress)
  refine ⟨paid.feePayer, fun instruction member => (paid.instructions instruction member).funders,
    fun ledger ledger' landed => ?_⟩
  exact Ledger.execTransaction_lamports_other landed (Ledger.paidBy_lamportKeys paid distinct)

/-- An account that is found is found as it is. -/
theorem Ledger.fetch_found {ledger : Ledger} {key : Pubkey}
    (found : (ledger.fetch key).isOk = true) : ledger.fetch key = .ok (ledger.data key) := by
  unfold Ledger.fetch at found ⊢
  split at found
  · contradiction
  · rename_i used
    rw [if_neg used]

/-- Two initialised ledgers that differ in the sender's lamports are seen alike, the sender's own
account included where it is the mint's. -/
theorem bystander_initialized (first : s.Initialized world.ledger)
    (second : s.Initialized (world.withLamports s.keys.sender.pubkey amount).ledger) :
    Bystander s.mint s.keys.sender.pubkey (world.ledger.lamports s.keys.sender.pubkey) amount
      world (world.withLamports s.keys.sender.pubkey amount) := by
  refine ⟨rfl, rfl, fun same => ?_⟩
  have found := first.mint
  have found' := second.mint
  rw [← same] at found found'
  exact (Ledger.fetch_found found').trans (Ledger.fetch_found found).symm

/-- Two requests that the preflight treats differently can send different events. -/
theorem transferHandler_separates (sdk : Sdk) (cluster : Cluster) {left right : World}
    (requested : Option ℚ) (prepared : s.Prepared left.ledger) (refuses : ¬ s.Prepared right.ledger)
    (told : left.progress = right.progress) :
    ∃ choices, ((chain cluster).run (transferHandler sdk s requested) left choices).2.progress ≠
      ((chain cluster).run (transferHandler sdk s requested) right choices).2.progress := by
  obtain ⟨outcome, world', ended, longer⟩ :=
    transferHandler_proceeds sdk cluster requested prepared
  obtain ⟨choices, ran⟩ := (chain cluster).ends_run ended
  have shorter := transferHandler_refused requested refuses
    ((chain cluster).run_ends (transferHandler sdk s requested) right choices)
  refine ⟨choices, fun same => ?_⟩
  rw [← same, ran, ← told] at shorter
  have counted : world'.progress.length = left.progress.length + 1 := shorter
  omega

/-- The request comes out the same exactly where the preflight sees no difference. -/
theorem sameTransfer_iff (distinct : s.keys.sender ≠ s.keys.payer) (requested : Option ℚ)
    (first : s.Initialized world.ledger)
    (second : s.Initialized (world.withLamports s.keys.sender.pubkey amount).ledger) :
    SameTransfer sdk cluster s requested world amount ↔
      (transferMinimum ≤ world.ledger.lamports s.keys.sender.pubkey ↔
        transferMinimum ≤ amount) := by
  have there : (world.withLamports s.keys.sender.pubkey amount).ledger.lamports
      s.keys.sender.pubkey = amount := Ledger.withLamports_self
  constructor
  · intro same
    have told (choices : List Choice) :=
      congrArg World.progress (same choices).2
    constructor
    · intro funded
      by_contra poor
      have refuses : ¬ s.Prepared (world.withLamports s.keys.sender.pubkey amount).ledger :=
        fun prepared => poor (there ▸ prepared.funded)
      obtain ⟨choices, differ⟩ :=
        transferHandler_separates sdk cluster requested ⟨first, funded⟩ refuses rfl
      exact differ (told choices).symm
    · intro funded
      by_contra poor
      have prepared : s.Prepared (world.withLamports s.keys.sender.pubkey amount).ledger :=
        ⟨second, there.symm ▸ funded⟩
      have refuses : ¬ s.Prepared world.ledger := fun prepared => poor prepared.funded
      obtain ⟨choices, differ⟩ :=
        transferHandler_separates sdk cluster requested prepared refuses rfl
      exact differ (told choices)
  · intro sides choices
    have parallel : (chain cluster).Parallel _ _ (transferHandler sdk s requested) _ _ _ :=
      transferHandler_parallel distinct requested sides (bystander_initialized first second)
    obtain ⟨alike, left⟩ := parallel.run choices
    exact ⟨alike, left.apart⟩

/-- On an initialised ledger, the preflight guards the payer exactly where a sender that holds the
minimum comes with a payer that does. -/
theorem guardsPayer_iff (initialized : s.Initialized world.ledger) :
    GuardsPayer cluster s world ↔
      (transferMinimum ≤ world.ledger.lamports s.keys.sender.pubkey →
        transferMinimum ≤ world.ledger.lamports s.keys.payer.pubkey) := by
  unfold GuardsPayer
  rw [letsThrough_iff]
  exact ⟨fun guards funded => guards ⟨initialized, funded⟩,
    fun guards prepared => guards prepared.funded⟩

/-- More lamports for the sender leave a ledger initialised. -/
theorem AppState.Initialized.withLamports {more : Nat} (initialized : s.Initialized world.ledger)
    (some : 0 < more) :
    s.Initialized (world.withLamports s.keys.sender.pubkey more).ledger := by
  refine ⟨?_, initialized.sender, initialized.receiver⟩
  have found := initialized.mint
  by_cases mint : s.mint = s.keys.sender.pubkey
  · have lamports : (world.withLamports s.keys.sender.pubkey more).ledger.lamports
        s.keys.sender.pubkey = more := Ledger.withLamports_self
    unfold Ledger.fetch
    rw [mint, lamports, if_neg (by omega)]
    rfl
  · unfold Ledger.fetch at found ⊢
    rwa [show (world.withLamports s.keys.sender.pubkey more).ledger.lamports s.mint =
      world.ledger.lamports s.mint from Ledger.withLamports_other mint]

/-- On an initialised ledger, the preflight rejects a poor sender exactly where it holds less than
the minimum. -/
theorem rejectsPoorSender_iff (initialized : s.Initialized world.ledger) :
    RejectsPoorSender cluster s world ↔
      world.ledger.lamports s.keys.sender.pubkey < transferMinimum := by
  unfold RejectsPoorSender
  simp only [letsThrough_iff]
  constructor
  · rintro ⟨refuses, -⟩
    exact not_le.mp fun funded => refuses ⟨initialized, funded⟩
  · intro poor
    refine ⟨fun prepared => absurd prepared.funded (not_le.mpr poor), transferMinimum, ?_⟩
    have lamports : (world.withLamports s.keys.sender.pubkey transferMinimum).ledger.lamports
        s.keys.sender.pubkey = transferMinimum := Ledger.withLamports_self
    exact ⟨initialized.withLamports (by decide), lamports.ge⟩

/-- The payer alone funds every transfer, and the sender's lamports are never charged. Of two
initialised ledgers that differ in the sender's lamports alone, the request comes out the same in
both, its preflight rejects it in neither because the sender holds too little, and guards the payer
in both, exactly where both of the sender's balances and the payer's reach the preflight's
minimum. -/
theorem transfer_guards_payer_iff (sdk : Sdk) (cluster : Cluster) (s : AppState)
    (requested : Option ℚ) (world : World) (amount : Nat)
    (distinct : s.keys.sender ≠ s.keys.payer) (first : s.Initialized world.ledger)
    (second : s.Initialized (world.withLamports s.keys.sender.pubkey amount).ledger) :
    PayerFunds sdk cluster s.keys.payer s.keys.sender ∧
    (SameTransfer sdk cluster s requested world amount ∧
        (¬ RejectsPoorSender cluster s world ∧
          ¬ RejectsPoorSender cluster s (world.withLamports s.keys.sender.pubkey amount)) ∧
        GuardsPayer cluster s world ∧
        GuardsPayer cluster s (world.withLamports s.keys.sender.pubkey amount) ↔
      transferMinimum ≤ world.ledger.lamports s.keys.sender.pubkey ∧ transferMinimum ≤ amount ∧
        transferMinimum ≤ world.ledger.lamports s.keys.payer.pubkey) := by
  refine ⟨payerFunds distinct, ?_⟩
  have sender : (world.withLamports s.keys.sender.pubkey amount).ledger.lamports
      s.keys.sender.pubkey = amount := Ledger.withLamports_self
  have payer : (world.withLamports s.keys.sender.pubkey amount).ledger.lamports
      s.keys.payer.pubkey = world.ledger.lamports s.keys.payer.pubkey :=
    Ledger.withLamports_other fun same => distinct ((Wallet.pubkey_inj _ _).mp same).symm
  rw [sameTransfer_iff distinct requested first second, rejectsPoorSender_iff first,
    rejectsPoorSender_iff second, guardsPayer_iff first, guardsPayer_iff second, sender, payer]
  constructor
  · rintro ⟨-, ⟨left, right⟩, guards, -⟩
    exact ⟨by omega, by omega, guards (by omega)⟩
  · rintro ⟨left, right, funded⟩
    exact ⟨iff_of_true left right, ⟨by omega, by omega⟩, fun _ => funded, fun _ => funded⟩

/-- The demo with other lamports for the sender or the payer. -/
def World.demoFunds (sender payer : Nat) : World :=
  ((World.demo 0 5).withLamports AppState.demo.keys.payer.pubkey payer).withLamports
    AppState.demo.keys.sender.pubkey sender

/-- A demo whose payer holds the minimum: a sender with the minimum and one with more are treated
the same, neither is rejected for its lamports, and the payer is guarded. -/
theorem transfer_guards_payer_iff_demo :
    PayerFunds Sdk.ideal Cluster.ideal AppState.demo.keys.payer AppState.demo.keys.sender ∧
      SameTransfer Sdk.ideal Cluster.ideal .demo none (.demoFunds 20000000 20000000) 30000000 ∧
      ¬ RejectsPoorSender Cluster.ideal .demo (.demoFunds 20000000 20000000) ∧
      GuardsPayer Cluster.ideal .demo (.demoFunds 20000000 20000000) := by
  obtain ⟨funds, guarded⟩ := transfer_guards_payer_iff Sdk.ideal Cluster.ideal .demo none
    (.demoFunds 20000000 20000000) 30000000 (by decide) ⟨rfl, rfl, rfl⟩ ⟨rfl, rfl, rfl⟩
  obtain ⟨same, ⟨rejects, -⟩, guards, -⟩ := guarded.mpr
    ⟨by decide +kernel, by decide +kernel, by decide +kernel⟩
  exact ⟨funds, same, rejects, guards⟩

/-- A sender without lamports is refused, because it holds too little, the transfer that one with
the minimum is given, the payer paying in both; and a sender with the minimum is let through while
the payer holds nothing. -/
theorem transfer_guards_sender :
    ((chain Cluster.ideal).run (transferHandler Sdk.ideal .demo none)
        (.demoFunds 0 20000000) []).1.isOk = false ∧
      ((chain Cluster.ideal).run (transferHandler Sdk.ideal .demo none)
        (.demoFunds 20000000 20000000) []).1.isOk = true ∧
      ¬ SameTransfer Sdk.ideal Cluster.ideal .demo none (.demoFunds 0 20000000) 20000000 ∧
      RejectsPoorSender Cluster.ideal .demo (.demoFunds 0 20000000) ∧
      ¬ GuardsPayer Cluster.ideal .demo (.demoFunds 20000000 0) := by
  have poor : AppState.demo.Initialized (World.demoFunds 0 20000000).ledger := ⟨rfl, rfl, rfl⟩
  have funded : AppState.demo.Initialized ((World.demoFunds 0 20000000).withLamports
      AppState.demo.keys.sender.pubkey 20000000).ledger := ⟨rfl, rfl, rfl⟩
  have unpaid : AppState.demo.Initialized (World.demoFunds 20000000 0).ledger := ⟨rfl, rfl, rfl⟩
  refine ⟨by decide +kernel, by decide +kernel, fun same => ?_,
    (rejectsPoorSender_iff poor).mpr (by decide +kernel), fun guards => ?_⟩
  · exact absurd ((sameTransfer_iff (by decide) none poor funded).mp same) (by decide +kernel)
  · exact absurd ((guardsPayer_iff unpaid).mp guards) (by decide +kernel)

end Guard

end ConfidentialBalances
