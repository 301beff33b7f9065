import ConfidentialBalances.Preparation

/-!
# Funding the sender

`POST /demo/init` tops the sender up in three landings: mint what the public
balance lacks, deposit what the available balance lacks, apply. What is lacking
is computed anew by each attempt, from the public and the available balance that
it sees, which are nothing where it could not read the account. A small machine
over four amounts says what an attempt can have done when it stops and what it has
done when it returns; the handler refines it on any ledger.
-/

namespace ConfidentialBalances

open Effect

/-- What an attempt sees of the sender's balances, in base units. -/
structure Sight where
  /-- The public balance. -/
  publicAmount : Nat
  /-- The available balance. -/
  available : Nat

namespace Sight

variable (target : Nat) (sight : Sight)

/-- What it sees of an account that it could not read. -/
def blank : Sight := ⟨0, 0⟩

/-- What the available balance lacks. -/
def needed : Nat := target - sight.available

/-- What the public balance lacks of that. -/
def lacking : Nat := sight.needed target - sight.publicAmount

end Sight

/-- The sender's balances and the supply of the mint, in base units. -/
@[ext]
structure Funds where
  /-- The public balance. -/
  publicAmount : Nat
  /-- The available balance. -/
  available : Nat
  /-- The pending balance. -/
  pending : Nat
  /-- What was ever minted. -/
  supply : Nat
  deriving DecidableEq, Repr

namespace Funds

/-- What an attempt sees that reads the account. -/
def sight (funds : Funds) : Sight := ⟨funds.publicAmount, funds.available⟩

@[simp] theorem sight_publicAmount (funds : Funds) :
    funds.sight.publicAmount = funds.publicAmount := rfl

@[simp] theorem sight_available (funds : Funds) : funds.sight.available = funds.available := rfl

variable (target : Nat) (sight : Sight) (funds : Funds)

/-- Mint what the public balance lacks. -/
def mint : Funds :=
  { funds with
    publicAmount := funds.publicAmount + sight.lacking target
    supply := funds.supply + sight.lacking target }

/-- Deposit what the available balance lacks. -/
def deposit : Funds :=
  { funds with
    publicAmount := funds.publicAmount - sight.needed target
    pending := funds.pending + sight.needed target }

/-- Apply all that is pending. -/
def apply : Funds := { funds with available := funds.available + funds.pending, pending := 0 }

/-- What an attempt leaves that mints, deposits and applies. -/
def funded : Funds := ((funds.mint target sight).deposit target sight).apply

/-- Where an attempt can stop. -/
def stages : List Funds :=
  if sight.available < target then
    [funds, funds.mint target sight, (funds.mint target sight).deposit target sight,
      funds.funded target sight]
  else [funds]

/-- Where an attempt that returns has arrived. -/
def toppedUp : Funds := if sight.available < target then funds.funded target sight else funds

/-- An attempt can stop before it has done anything. -/
theorem mem_stages : funds ∈ funds.stages target sight := by
  unfold stages
  split <;> simp

/-- Where it arrives it can stop. -/
theorem toppedUp_mem_stages : funds.toppedUp target sight ∈ funds.stages target sight := by
  unfold toppedUp stages
  split <;> simp

/-- What is available where it arrives. -/
theorem toppedUp_available : (funds.toppedUp target sight).available =
    if sight.available < target then funds.available + funds.pending + (target - sight.available)
    else funds.available := by
  unfold toppedUp
  split
  · simp only [funded, apply, deposit, mint, Sight.needed]
    omega
  · rfl

/-- What was minted where it arrives. -/
theorem toppedUp_supply : (funds.toppedUp target sight).supply =
    if sight.available < target then funds.supply + sight.lacking target else funds.supply := by
  unfold toppedUp
  split <;> rfl

/-- The target is reached there, by an attempt that saw no more than there was. -/
theorem target_le_toppedUp (truly : sight.available ≤ funds.available) :
    target ≤ (funds.toppedUp target sight).available := by
  rw [toppedUp_available]
  split <;> omega

end Funds

/-! ## The funding of a run of attempts -/

/-- What is promised of attempts from a start with nothing pending: no more was minted than the
start lacked, and once an attempt has returned a value, the sender holds the target. -/
structure Funds.Promised (target : Nat) (start funds : Funds) (returned : Prop) : Prop where
  /-- The supply grew by at most what the start lacked. -/
  minted : funds.supply ≤ start.supply + (target - (start.publicAmount + start.available))
  /-- The available balance is the target, or what it was above it. -/
  funded : returned → funds.available = max target start.available
  /-- Nothing is pending once an attempt has returned. -/
  applied : returned → funds.pending = 0

/-- What holds of the funds wherever an attempt of the run stops. -/
structure Funds.Conserved (target : Nat) (start funds : Funds) : Prop where
  /-- Every token was there at the start or was minted. -/
  conserved : funds.publicAmount + funds.available + funds.pending + start.supply =
    start.publicAmount + start.available + funds.supply
  /-- The supply did not shrink. -/
  grown : start.supply ≤ funds.supply
  /-- The supply grew by at most what the start lacked. -/
  minted : funds.supply ≤ start.supply + (target - (start.publicAmount + start.available))
  /-- The available balance is as it was, or funded. -/
  available : funds.available = start.available ∨ funds.available = max target start.available
  /-- What waits is what the available balance lacks. -/
  waiting : funds.pending ≠ 0 → funds.available < target ∧ funds.pending = target - funds.available

namespace Funds

variable {target : Nat} {start funds next : Funds}

/-- The start conserves itself. -/
theorem conserved_start (empty : start.pending = 0) : Conserved target start start :=
  ⟨by omega, le_rfl, by omega, .inl rfl, fun waits => absurd empty waits⟩

/-- An attempt that starts with nothing pending, and sees the balances, conserves wherever it
stops. -/
theorem Conserved.stage (holds : Conserved target start funds) (empty : funds.pending = 0)
    (reached : next ∈ funds.stages target funds.sight) : Conserved target start next := by
  obtain ⟨conserved, grown, minted, available, waiting⟩ := holds
  unfold stages at reached
  split at reached
  · rename_i short
    simp only [sight] at short
    -- Short of the target, the available balance is still the one of the start.
    have same : funds.available = start.available := by omega
    simp only [List.mem_cons, List.not_mem_nil, or_false] at reached
    rcases reached with rfl | rfl | rfl | rfl
    · exact ⟨conserved, grown, minted, available, waiting⟩
    · refine ⟨?_, ?_, ?_, .inl same, waiting⟩ <;>
        simp only [mint, Sight.lacking, Sight.needed, sight] <;> omega
    · refine ⟨?_, ?_, ?_, .inl same, fun _ => ⟨short, ?_⟩⟩ <;>
        simp only [deposit, mint, Sight.lacking, Sight.needed, sight] <;> omega
    · refine ⟨?_, ?_, ?_, .inr ?_, fun waits => absurd rfl waits⟩ <;>
        simp only [funded, apply, deposit, mint, Sight.lacking, Sight.needed, sight] <;> omega
  · obtain rfl := List.mem_singleton.mp reached
    exact ⟨conserved, grown, minted, available, waiting⟩

/-- An attempt that starts with nothing pending, sees the balances and returns leaves the target and
nothing pending. -/
theorem Conserved.toppedUp (holds : Conserved target start funds) (empty : funds.pending = 0) :
    (funds.toppedUp target funds.sight).available = max target start.available ∧
      (funds.toppedUp target funds.sight).pending = 0 := by
  have available := holds.available
  by_cases short : funds.available < target
  · have last : funds.toppedUp target funds.sight = funds.funded target funds.sight :=
      if_pos short
    rw [last]
    simp only [funded, apply, deposit, mint, Sight.needed, sight, and_true]
    omega
  · have last : funds.toppedUp target funds.sight = funds := if_neg short
    rw [last]
    omega

/-- Funds that are not short are the promised ones. -/
theorem Conserved.enough (holds : Conserved target start funds)
    (enough : target ≤ funds.available) :
    funds.available = max target start.available ∧ funds.pending = 0 := by
  have available := holds.available
  have waiting := holds.waiting
  by_cases empty : funds.pending = 0
  · omega
  · have short := (waiting empty).1
    omega

/-- An attempt that starts with something pending, funds the sender and returns leaves more than the
target. -/
theorem Conserved.overfunded (holds : Conserved target start funds) (waits : funds.pending ≠ 0)
    {sight : Sight} (short : sight.available < target) :
    ¬ Promised target start (funds.toppedUp target sight) True := by
  intro promised
  have reached := promised.funded trivial
  have available := holds.available
  obtain ⟨lacks, pending⟩ := holds.waiting waits
  rw [toppedUp_available, if_pos short] at reached
  omega

/-- An attempt that sees nothing where there is something, and funds the sender, has minted too
much. -/
theorem Conserved.overminted (holds : Conserved target start funds)
    (something : funds.publicAmount ≠ 0 ∨ funds.available ≠ 0) (short : 0 < target) :
    ¬ Promised target start (funds.toppedUp target .blank) True := by
  intro promised
  have minted := promised.minted
  obtain ⟨conserved, grown, -, -, -⟩ := holds
  have saw : Sight.blank.available < target := short
  rw [toppedUp_supply, if_pos saw] at minted
  simp only [Sight.lacking, Sight.needed, Sight.blank] at minted
  omega

end Funds

/-! ## The funds on a ledger -/

/-- The ledger has the demo's mint and configured accounts, with these funds of the sender and both
representations of its available balance in agreement. -/
structure AppState.Holds (s : AppState) (ledger : Ledger) (funds : Funds) : Prop where
  /-- The mint is the demo's. -/
  mint : ∃ state settings, ledger.data s.mint = .mint state ∧
    state.confidential = some settings ∧
    settings.auditorElgamalPubkey = some s.auditorElgamal.pubkey ∧ state.supply = funds.supply
  /-- The sender's account is configured and has the balances. -/
  sender : ∃ token extension, ledger.data (s.tokenAccount s.keys.sender) = .token token ∧
    token.confidential = some extension ∧ token.amount = funds.publicAmount ∧
    extension.availableBalance.amount = funds.available ∧
    extension.pendingAmount = funds.pending ∧
    Synced s.keys.sender.confidentialKeys extension
  /-- The receiver's account is configured. -/
  receiver : (ledger.confidential? (s.tokenAccount s.keys.receiver)).isSome

/-- The funds on a ledger, where it has the demo's mint and accounts. -/
def AppState.funds? (s : AppState) (ledger : Ledger) : Option Funds := do
  let state ← (ledger.data s.mint).mint?
  let settings ← state.confidential
  let token ← (ledger.data (s.tokenAccount s.keys.sender)).token?
  let extension ← token.confidential
  if settings.auditorElgamalPubkey = some s.auditorElgamal.pubkey ∧
      0 ≤ extension.availableBalance.amount ∧ 0 ≤ extension.pendingAmount ∧
      Synced s.keys.sender.confidentialKeys extension ∧
      (ledger.confidential? (s.tokenAccount s.keys.receiver)).isSome then
    some ⟨token.amount, extension.availableBalance.amount.toNat, extension.pendingAmount.toNat,
      state.supply⟩
  else none

/-- Computed funds are the funds. -/
theorem AppState.funds?_some {s : AppState} {ledger : Ledger} {funds : Funds}
    (computed : s.funds? ledger = some funds) : s.Holds ledger funds := by
  simp only [funds?, Option.bind_eq_bind, Option.bind_eq_some_iff, AccountData.mint?_eq_some,
    AccountData.token?_eq_some] at computed
  obtain ⟨state, mint, settings, confidential, token, held, extension, configured, checked⟩ :=
    computed
  obtain ⟨⟨auditor, available, pending, synced, receiver⟩, rfl⟩ := Ledger.ite_some checked
  exact ⟨⟨state, settings, mint, confidential, auditor, rfl⟩, ⟨token, extension, held, configured,
    rfl, (Int.toNat_of_nonneg available).symm, (Int.toNat_of_nonneg pending).symm, synced⟩,
    receiver⟩

namespace AppState.Holds

variable {s : AppState} {cluster : Cluster} {ledger ledger' : Ledger} {funds : Funds}

/-- The mint is no token account. -/
theorem tokenAccount_ne_mint (s : AppState) (owner : Wallet) : s.tokenAccount owner ≠ s.mint := by
  simp [AppState.tokenAccount, AppState.mint, getAssociatedTokenAddress, Wallet.pubkey]

/-- What the demo reads is what the sender holds. -/
theorem reads (holds : s.Holds ledger funds) :
    s.publicBalance ledger s.keys.sender = funds.publicAmount ∧
      s.availableBalance ledger s.keys.sender = funds.available := by
  obtain ⟨token, extension, held, configured, paid, available, -, amount, decrypted, agrees⟩ :=
    holds.sender
  refine ⟨by simp [AppState.publicBalance, held, AccountData.token?, paid], ?_⟩
  have same : amount = funds.available := by omega
  simp [AppState.availableBalance, Ledger.confidential?, held, AccountData.token?, configured,
    decrypted, same]

/-- Writing the sender's account changes what the sender holds and nothing else. -/
theorem write_sender (holds : s.Holds ledger funds) (token : TokenAccount)
    {extension : ConfidentialTransferAccount} {available pending : Nat}
    (written : ledger'.data =
      Function.update ledger.data (s.tokenAccount s.keys.sender) (.token token))
    (configured : token.confidential = some extension)
    (availableHeld : extension.availableBalance.amount = available)
    (pendingHeld : extension.pendingAmount = pending)
    (synced : Synced s.keys.sender.confidentialKeys extension) :
    s.Holds ledger' ⟨token.amount, available, pending, funds.supply⟩ := by
  obtain ⟨state, settings, mint, confidential, auditor, supply⟩ := holds.mint
  have elsewhere := tokenAccount_ne_mint s s.keys.sender
  refine ⟨⟨state, settings, ?_, confidential, auditor, supply⟩, ⟨token, extension, ?_, configured,
    rfl, availableHeld, pendingHeld, synced⟩, ?_⟩
  · rw [written, Function.update_of_ne elsewhere.symm, mint]
  · rw [written, Function.update_self]
  · by_cases same : s.tokenAccount s.keys.receiver = s.tokenAccount s.keys.sender
    · simp [Ledger.confidential?, written, same, AccountData.token?, configured]
    · have receiver := holds.receiver
      simp only [Ledger.confidential?, written, Function.update_of_ne same] at receiver ⊢
      exact receiver

/-- Data decide what a ledger holds. -/
theorem of_data (holds : s.Holds ledger funds) (same : ledger'.data = ledger.data) :
    s.Holds ledger' funds := by
  obtain ⟨mint, sender, receiver⟩ := holds
  rw [← same] at mint sender
  simp only [Ledger.confidential?, ← same] at receiver
  exact ⟨mint, sender, receiver⟩

/-- A landed mint adds to the public balance and the supply. -/
theorem mintToSender (holds : s.Holds ledger funds) {amount : Nat}
    (landed : ledger.execTransaction cluster (mintTransaction s amount) = some ledger') :
    s.Holds ledger' { funds with
      publicAmount := funds.publicAmount + amount, supply := funds.supply + amount } := by
  obtain ⟨charged, same, executed⟩ := Ledger.execTransaction_single landed
  obtain ⟨state, token, mintData, tokenData, -, -, -, rfl⟩ := Ledger.mintTo_some executed
  rw [same] at mintData tokenData
  obtain ⟨state', settings, mint, confidential, auditor, supply⟩ := holds.mint
  obtain rfl := AccountData.mint.inj (mintData.symm.trans mint)
  obtain ⟨token', extension, held, configured, paid, available, pending, synced⟩ := holds.sender
  obtain rfl := AccountData.token.inj (tokenData.symm.trans held)
  have elsewhere := tokenAccount_ne_mint s s.keys.sender
  -- The mint is written first, and the sender's account over that.
  have minted : s.Holds (charged.setData s.mint (.mint { state with
      supply := state.supply + amount })) { funds with supply := funds.supply + amount } := by
    refine ⟨⟨{ state with supply := state.supply + amount }, settings, by simp, confidential,
      auditor, by simp [supply]⟩, ⟨token, extension, by simp [elsewhere, same, held], configured,
      paid, available, pending, synced⟩, ?_⟩
    have receiver := holds.receiver
    have apart := tokenAccount_ne_mint s s.keys.receiver
    simpa [Ledger.confidential?, apart, same] using receiver
  rw [← paid]
  exact minted.write_sender { token with amount := token.amount + amount } rfl configured
    available pending synced

/-- A landed deposit moves the amount from the public balance to the pending one. -/
theorem deposit (holds : s.Holds ledger funds) {amount decimals : Nat}
    (landed : ledger.execTransaction cluster
      (depositTransaction s.keys.payer s.keys.sender s.mint amount decimals) = some ledger') :
    s.Holds ledger' { funds with
      publicAmount := funds.publicAmount - amount, pending := funds.pending + amount } := by
  obtain ⟨charged, same, executed⟩ := Ledger.execTransaction_single landed
  obtain ⟨token, state, extension, credited, data, -, confidential, deposited, -, -, -, -, rfl⟩ :=
    Ledger.deposit_some executed
  obtain ⟨token', extension', held, configured, paid, available, pending, synced⟩ := holds.sender
  rw [same] at data
  obtain rfl := AccountData.token.inj (data.symm.trans held)
  obtain rfl := Option.some.inj (confidential.symm.trans configured)
  obtain ⟨pendingAfter, availableAfter⟩ := deposit_pending deposited
  obtain ⟨-, credit⟩ := ConfidentialTransferAccount.deposit_some deposited
  have stays : credited.availableBalance.amount = funds.available := by
    rw [availableAfter, available]
  have waits : credited.pendingAmount = (funds.pending + amount : Nat) := by
    rw [pendingAfter, pending]
    push_cast
    rfl
  rw [← paid]
  exact (holds.of_data same).write_sender { token with
    amount := token.amount - amount, confidential := some credited } rfl rfl stays waits
    ((credit_synced credit).mpr synced)

/-- A landed apply of values computed from the sender's account moves all that is pending. -/
theorem applyPending (holds : s.Holds ledger funds) {values : ApplyValues}
    {snapshot : ConfidentialTransferAccount}
    (read : ledger.confidential? (s.tokenAccount s.keys.sender) = some snapshot)
    (computed : applyPendingValues s.keys.sender.confidentialKeys snapshot = .ok values)
    (landed : ledger.execTransaction cluster
      (applyPendingTransaction s.keys.payer s.keys.sender s.mint values) = some ledger') :
    s.Holds ledger' funds.apply := by
  obtain ⟨charged, same, executed⟩ := Ledger.execTransaction_single landed
  obtain ⟨token, extension, applied, data, confidential, accepted, -, rfl⟩ :=
    Ledger.applyPendingBalance_some executed
  obtain ⟨token', extension', held, configured, paid, available, pending, synced⟩ := holds.sender
  rw [same] at data
  obtain rfl := AccountData.token.inj (data.symm.trans held)
  obtain rfl := Option.some.inj (confidential.symm.trans configured)
  obtain rfl : snapshot = extension := by
    have found : ledger.confidential? (s.tokenAccount s.keys.sender) = some extension := by
      simp [Ledger.confidential?, held, AccountData.token?, configured]
    exact Option.some.inj (read.symm.trans found)
  obtain ⟨-, moved, none, total, decrypted, sum⟩ := applied_effect computed accepted
  have arrives : applied.availableBalance.amount = (funds.available + funds.pending : Nat) := by
    rw [moved, available, pending]
    push_cast
    rfl
  have waits : applied.pendingAmount = (0 : Nat) := by simpa using none
  unfold Funds.apply
  rw [← paid]
  exact (holds.of_data same).write_sender { token with confidential := some applied }
    rfl rfl arrives waits ⟨total, decrypted, by rw [moved, sum]⟩

end AppState.Holds

/-! ## The handler -/

/-- Where an attempt may stand that goes by this sight: nothing was minted or deposited since it
started, or the funds are at one of its stages. -/
def AppState.AtStage (s : AppState) (sight : Sight) (funds : Funds) (start world : World) : Prop :=
  Without Transaction.funds start world ∧ s.Holds world.ledger funds ∨
    Having Transaction.funds start world ∧
      ∃ next ∈ funds.stages s.targetBase sight, s.Holds world.ledger next

/-- Where an attempt that goes by this sight has arrived when it returns. -/
structure AppState.Arrived (s : AppState) (sight : Sight) (funds : Funds) (start world : World) :
    Prop where
  /-- The funds are topped up. -/
  holds : s.Holds world.ledger (funds.toppedUp s.targetBase sight)
  /-- Something was minted or deposited where they seemed short. -/
  funds : sight.available < s.targetBase → Having Transaction.funds start world
  /-- Nothing was deposited where the tokens did not fall short. -/
  none : ¬ sight.available < s.targetBase → Without Transaction.funds start world

section Attempt

variable {sdk : Sdk} {cluster : Cluster} {s : AppState} {start world world' : World}
variable {funds next : Funds} {sight : Sight}

/-- Whether an attempt stands at a stage shows on the chain. -/
theorem onChain_atStage (s : AppState) (sight : Sight) (funds : Funds) (start : World) :
    OnChain (s.AtStage sight funds start) := by
  intro world world' ledger landed stage
  rcases stage with ⟨without, holds⟩ | ⟨⟨done, same, some⟩, next, member, holds⟩
  · exact .inl ⟨onChain_without _ start _ _ ledger landed without, ledger ▸ holds⟩
  · exact .inr ⟨⟨done, landed.trans same, some⟩, next, member, ledger ▸ holds⟩

/-- Whether an attempt has arrived shows on the chain. -/
theorem onChain_arrived (s : AppState) (sight : Sight) (funds : Funds) (start : World) :
    OnChain (s.Arrived sight funds start) := by
  intro world world' ledger landed arrived
  refine ⟨ledger ▸ arrived.holds, fun short => ?_, fun enough => ?_⟩
  · obtain ⟨done, same, some⟩ := arrived.funds short
    exact ⟨done, landed.trans same, some⟩
  · exact onChain_without _ start _ _ ledger landed (arrived.none enough)

/-- An attempt that has arrived stands at its last stage. -/
theorem AppState.Arrived.atStage (arrived : s.Arrived sight funds start world) :
    s.AtStage sight funds start world := by
  by_cases short : sight.available < s.targetBase
  · exact .inr ⟨arrived.funds short, _, funds.toppedUp_mem_stages _ _, arrived.holds⟩
  · have same : funds.toppedUp s.targetBase sight = funds := if_neg short
    exact .inl ⟨arrived.none short, same ▸ arrived.holds⟩

/-- A program that stays where the attempt has arrived. -/
theorem arrived_serves {α : Type} {program : Client α} {ok : α → World → Prop}
    (stays : (chainSystem cluster).Serves (s.Arrived sight funds start) ok program world) :
    (chainSystem cluster).Serves (s.AtStage sight funds start) ok program world :=
  System.Meets.weaken stays (fun _ arrived => arrived.atStage) fun _ _ _ post => post

/-- A transaction of an attempt takes it from one stage to the next: from there on, something was
minted or deposited. -/
theorem stages_submits {α : Type} {plans : List Transaction → Prop}
    {mid : List Transaction → α → World → Prop} {program : Client α}
    (here : s.AtStage sight funds start world) (submits : Submits cluster plans mid program world)
    (member : next ∈ funds.stages s.targetBase sight)
    (single : ∀ plan, plans plan → ∃ transaction, plan = [transaction] ∧
      (Having Transaction.funds start world ∨
        Without Transaction.funds start world ∧ transaction.funds = true) ∧
      ∀ ledger', world.ledger.execTransaction cluster transaction = some ledger' →
        s.Holds ledger' next) :
    (chainSystem cluster).Serves (s.AtStage sight funds start) (fun _ world' =>
      Having Transaction.funds start world' ∧ s.Holds world'.ledger next) program world := by
  have lands {plan : List Transaction} {world' : World} (planned : plans plan)
      (landed : Lands cluster world world' plan) :
      Having Transaction.funds start world' ∧ s.Holds world'.ledger next := by
    obtain ⟨transaction, rfl, kind, executed⟩ := single plan planned
    refine ⟨Having.lands landed (kind.imp_right fun both => ⟨both.1, transaction, ?_, both.2⟩),
      executed _ landed.single⟩
    exact List.mem_singleton_self transaction
  have alone (plan : List Transaction) (planned : plans plan) : plan.length = 1 := by
    obtain ⟨transaction, rfl, -⟩ := single plan planned
    rfl
  refine (serves_submits submits ?_).weaken ?_
  · intro world' partly
    rcases partly.single alone with quiet | ⟨transaction, planned, landed⟩
    · exact onChain_atStage s sight funds start _ _ quiet.same_ledger quiet.same_landed here
    · obtain ⟨some, holds⟩ := lands planned landed
      exact .inr ⟨some, next, member, holds⟩
  · rintro value world' ⟨plan, planned, landed, -⟩
    exact lands planned landed

/-- The stages of an attempt to which the sender seems short of the target. -/
theorem Funds.mem_stages_short {target : Nat} (short : sight.available < target) :
    next ∈ funds.stages target sight ↔ next = funds ∨ next = funds.mint target sight ∨
      next = (funds.mint target sight).deposit target sight ∨ next = funds.funded target sight := by
  simp [Funds.stages, short]

/-- Minting what the public balance seems to lack is the first stage, also where nothing is
minted. -/
theorem mintLacking_stages (short : sight.available < s.targetBase)
    (without : Without Transaction.funds start world) (holds : s.Holds world.ledger funds) :
    (chainSystem cluster).Serves (s.AtStage sight funds start) (fun _ world' =>
      (Having Transaction.funds start world' ∨ Without Transaction.funds start world') ∧
        s.AtStage sight funds start world' ∧ s.Holds world'.ledger (funds.mint s.targetBase sight))
      (mintLacking s (sight.needed s.targetBase) (min sight.publicAmount (2 ^ 64 - 1))) world := by
  have bound := s.targetBase_lt
  have stage {next : Funds} : next ∈ funds.stages s.targetBase sight ↔ _ :=
    Funds.mem_stages_short short
  unfold mintLacking
  split
  · rename_i lacking
    have same : min sight.publicAmount (2 ^ 64 - 1) = sight.publicAmount := by
      unfold Sight.needed at lacking
      omega
    rw [same]
    refine System.Serves.bind (stages_submits (.inl ⟨without, holds⟩) (follows_sendTx _ _ _)
      (stage.mpr (.inr (.inl rfl))) ?_) ?_
    · rintro plan rfl
      exact ⟨_, rfl, .inr ⟨without, rfl⟩, fun ledger' landed => holds.mintToSender landed⟩
    · rintro sig world' ⟨some, minted⟩
      have here : s.AtStage sight funds start world' :=
        .inr ⟨some, _, stage.mpr (.inr (.inl rfl)), minted⟩
      exact System.serves_pure here ⟨.inl some, here, minted⟩
  · rename_i enough
    have nothing : sight.lacking s.targetBase = 0 := by
      unfold Sight.lacking Sight.needed at *
      omega
    have same : funds.mint s.targetBase sight = funds := by
      ext <;> simp [Funds.mint, nothing]
    exact System.serves_pure (.inl ⟨without, holds⟩)
      ⟨.inr without, .inl ⟨without, holds⟩, same.symm ▸ holds⟩

/-- Funding a sender that seems short goes through all the stages, and returns at the last one. -/
theorem fundSender_stages (short : sight.available < s.targetBase)
    (without : Without Transaction.funds start world) (holds : s.Holds world.ledger funds) :
    (chainSystem cluster).Serves (s.AtStage sight funds start)
      (fun _ => s.Arrived sight funds start)
      (fundSender s (sight.needed s.targetBase) (min sight.publicAmount (2 ^ 64 - 1))) world := by
  have stage {next : Funds} : next ∈ funds.stages s.targetBase sight ↔ _ :=
    Funds.mem_stages_short short
  refine (mintLacking_stages short without holds).bind ?_
  rintro minted w1 ⟨kind, here, holds⟩
  refine System.Serves.bind (System.Serves.mapError (stages_submits here
    (depositToConfidential_submits cluster _ _ _ _ _ _) (stage.mpr (.inr (.inr (.inl rfl))))
    ?_) _) ?_
  · rintro plan rfl
    exact ⟨_, rfl, kind.imp_right fun none => ⟨none, rfl⟩, fun ledger' landed =>
      holds.deposit landed⟩
  rintro depSig w2 ⟨some, holds⟩
  have here : s.AtStage sight funds start w2 :=
    .inr ⟨some, _, stage.mpr (.inr (.inr (.inl rfl))), holds⟩
  refine System.Serves.bind (System.Serves.mapError (stages_submits here
    (applyPendingBalance_submits cluster _ _ _ _) (stage.mpr (.inr (.inr (.inr rfl)))) ?_) _) ?_
  · rintro plan ⟨snapshot, values, read, computed, rfl⟩
    exact ⟨_, rfl, .inl some, fun ledger' landed => holds.applyPending read computed landed⟩
  rintro applySig w3 ⟨some, holds⟩
  have last : funds.toppedUp s.targetBase sight = funds.funded s.targetBase sight := if_pos short
  have arrived : s.Arrived sight funds start w3 :=
    ⟨last.symm ▸ holds, fun _ => some, fun enough => absurd short enough⟩
  refine System.Serves.bind (arrived_serves (serves_logEvent (onChain_arrived s sight funds start)
    arrived _ _ _)) ?_
  rintro ⟨⟩ w4 ⟨arrived, -⟩
  exact System.serves_pure arrived.atStage arrived

/-- The rest of an attempt goes through the stages of what its view shows. -/
theorem initRest_stages {view : AccountView} (sigs : List Signature)
    (publicUi : view.publicUi = baseToUi sight.publicAmount s.cfg.mintDecimals)
    (availableUi : view.availableUi = baseToUi sight.available s.cfg.mintDecimals)
    (without : Without Transaction.funds start world) (holds : s.Holds world.ledger funds) :
    (chainSystem cluster).Serves (s.AtStage sight funds start)
      (fun _ => s.Arrived sight funds start) (initRest s sigs view) world := by
  have bound := s.targetBase_lt
  have funding : (chainSystem cluster).Serves (s.AtStage sight funds start)
      (fun _ => s.Arrived sight funds start) (initFund s view) world := by
    unfold initFund
    rw [publicUi, availableUi, uiToBase_baseToUi, uiToBase_baseToUi]
    by_cases short : sight.available < s.targetBase
    · have asked : s.targetBase - min sight.available (2 ^ 64 - 1) =
          sight.needed s.targetBase := by
        unfold Sight.needed
        omega
      simp only [if_pos (show min sight.available (2 ^ 64 - 1) < s.targetBase by omega), asked]
      exact fundSender_stages short without holds
    · have last : funds.toppedUp s.targetBase sight = funds := if_neg short
      have arrived : s.Arrived sight funds start world :=
        ⟨last.symm ▸ holds, fun less => absurd less short, fun _ => without⟩
      simp only [if_neg (show ¬ min sight.available (2 ^ 64 - 1) < s.targetBase by omega)]
      exact System.serves_pure arrived.atStage arrived
  refine System.Serves.bind funding ?_
  intro topUpSigs w1 arrived
  refine System.Serves.bind (arrived_serves (serves_quietly (onChain_arrived s sight funds start)
    arrived quietly_readLedgerState)) ?_
  rintro state w2 ⟨arrived, -⟩
  exact System.serves_pure arrived.atStage arrived

/-- The sender's account is configured. -/
theorem AppState.Holds.sender_configured {ledger : Ledger} (holds : s.Holds ledger funds) :
    s.Configured ledger s.keys.sender := by
  obtain ⟨token, extension, held, configured, -⟩ := holds.sender
  simp [AppState.Configured, Ledger.confidential?, held, AccountData.token?, configured]

/-- Preparing leaves the funds as they are. -/
theorem initPrepare_holds (holds : s.Holds world.ledger funds) :
    (chainSystem cluster).Serves (fun world' => Without Transaction.funds world world' ∧
        s.Holds world'.ledger funds) (fun _ world' => Without Transaction.funds world world' ∧
        s.Holds world'.ledger funds) (initPrepare sdk s) world := by
  obtain ⟨state, settings, mint, -⟩ := holds.mint
  have kept {world' : World} (same : Undisturbed world world') :
      Without Transaction.funds world world' ∧ s.Holds world'.ledger funds :=
    ⟨same.without, holds.of_data same.data⟩
  refine System.Meets.weaken (initPrepare_again (by simp [mint]) holds.sender_configured
    holds.receiver) (fun _ same => kept same) ?_
  exact fun outcome world' _ post value same => kept (post value same)

/-- How an attempt came by its sight of the sender's funds: it went by the balances and funded by
sight, or it went by nothing and, if it funded, did so blindly. -/
def Funds.SeenAs (funds : Funds) (seen : Bool) (transcript : List (Exchange Reply))
    (sight : Sight) : Prop :=
  sight = funds.sight ∧ FundsBySight seen transcript ∨
    sight = .blank ∧ (Unfunded transcript ∨ ¬ FundsBySight seen transcript)

/-- What has funded nothing before says nothing of the sight. -/
theorem Funds.SeenAs.after {first second : List (Exchange Reply)} {seen : Bool}
    (saw : funds.SeenAs (sees seen first) second sight) (begun : Unfunded first) :
    funds.SeenAs seen (first ++ second) sight := by
  have bySight : FundsBySight seen (first ++ second) ↔ FundsBySight (sees seen first) second := by
    rw [fundsBySight_append]
    exact and_iff_right begun.fundsBySight
  rcases saw with ⟨same, funded⟩ | ⟨same, blind⟩
  · exact .inl ⟨same, bySight.mpr funded⟩
  · exact .inr ⟨same, blind.imp (fun none => unfunded_append.mpr ⟨begun, none⟩)
      (mt bySight.mp)⟩

/-- From the view of the sender's account on, a run goes through the stages of some sight, and
arrives where it returns. -/
theorem initFunding_stages {sigs : List Signature} {seen : Bool}
    {transcript : List (Exchange Reply)} {program' : Client ActionResponse}
    (without : Without Transaction.funds start world) (holds : s.Holds world.ledger funds)
    (run : (chainSystem cluster).Runs world (readAccountView s s.keys.sender >>= initRest s sigs)
      transcript world' program') :
    ∃ sight, funds.SeenAs seen transcript sight ∧ s.AtStage sight funds start world' ∧
      ∀ response, program' = .done (.ok response) → s.Arrived sight funds start world' := by
  rcases run.bind_split with ⟨viewing, ran, left, unreturned⟩ |
    ⟨view, first, middle, second, rfl, viewed, rested⟩
  · -- It is still viewing the account.
    have none := (unfunded_iff_without run).mpr ((serves_quietly (onChain_without _ world)
      (.refl _ world) (quietly_readAccountView _)).reaches ran.reaches).invariant
    have stage := ((serves_quietly (onChain_atStage s funds.sight funds start)
      (.inl ⟨without, holds⟩) (quietly_readAccountView _)).reaches ran.reaches).invariant
    exact ⟨funds.sight, .inl ⟨rfl, none.fundsBySight⟩, stage, fun response same =>
      absurd (left.symm.trans same) (Program.bind_ne_ok unreturned response)⟩
  obtain ⟨unheard, told⟩ := readAccountView_sees s.keys.sender _ _ _ viewed
  obtain ⟨rfl, sees, shown, blank⟩ := told view rfl
  -- The rest goes by the view.
  have goes {sight : Sight}
      (publicUi : view.publicUi = baseToUi sight.publicAmount s.cfg.mintDecimals)
      (availableUi : view.availableUi = baseToUi sight.available s.cfg.mintDecimals) :
      s.AtStage sight funds start world' ∧
        ∀ response, program' = .done (.ok response) → s.Arrived sight funds start world' := by
    have serves : (chainSystem cluster).Serves (s.AtStage sight funds start)
        (fun _ => s.Arrived sight funds start) (initRest s sigs view) middle :=
      initRest_stages sigs publicUi availableUi without holds
    refine ⟨(serves.reaches rested.reaches).invariant, fun response same => ?_⟩
    rw [same] at rested
    exact serves.ends rested.reaches response rfl
  have bySight : FundsBySight seen (first ++ second) ↔ Sighted first ∨ Unfunded second := by
    rw [fundsBySight_append, initRest_fundsBySight rested, sees]
    exact and_iff_right unheard.unfunded.fundsBySight
  by_cases sighted : Sighted first
  · obtain ⟨publicRead, availableRead⟩ := holds.reads
    have shows := shown sighted
    refine ⟨funds.sight, .inl ⟨rfl, bySight.mpr (.inl sighted)⟩, goes ?_ ?_⟩
    · rw [shows.publicUi, publicRead, Funds.sight]
    · rw [shows.availableUi, availableRead, Funds.sight]
  · have nothing := blank sighted
    refine ⟨.blank, .inr ⟨rfl, ?_⟩, goes ?_ ?_⟩
    · by_cases none : Unfunded second
      · exact .inl (unfunded_append.mpr ⟨unheard.unfunded, none⟩)
      · exact .inr fun funded => (bySight.mp funded).elim sighted none
    · simp [nothing.publicUi, Sight.blank, baseToUi]
    · simp [nothing.availableUi, Sight.blank, baseToUi]

/-- What a run of an attempt has done, wherever it stands, and where it returned. -/
theorem initHandler_stages {transcript : List (Exchange Reply)}
    {program' : Client ActionResponse} (holds : s.Holds world.ledger funds)
    (run : (chainSystem cluster).Runs world (initHandler sdk s) transcript world' program') :
    ∃ sight, funds.SeenAs true transcript sight ∧ s.AtStage sight funds world world' ∧
      ∀ response, program' = .done (.ok response) → s.Arrived sight funds world world' := by
  have whole := run
  rw [initHandler_eq] at run
  obtain ⟨inner, ran, rfl⟩ := run.catchPanic_split
  rcases ran.bind_split with ⟨preparing, preparation, left, unreturned⟩ |
    ⟨sigs, first, middle, later, rfl, prepared, ran⟩
  · have here := ((initPrepare_holds holds).reaches preparation.reaches).invariant
    have none : Unfunded transcript := (unfunded_iff_without whole).mpr here.1
    refine ⟨funds.sight, .inl ⟨rfl, none.fundsBySight⟩, .inl here, fun response same => ?_⟩
    exact absurd (left.symm.trans (Program.catchPanic_eq_ok same))
      (Program.bind_ne_ok unreturned response)
  · have here := (initPrepare_holds holds).ends prepared.reaches sigs rfl
    obtain ⟨sight, saw, stage, arrived⟩ := initFunding_stages here.1 here.2 ran
    exact ⟨sight, saw.after ((unfunded_iff_without prepared).mpr here.1), stage,
      fun response same => arrived response (Program.catchPanic_eq_ok same)⟩

end Attempt

/-! ## Runs of attempts -/

/-- Attempts one after the other, each with a transcript that is allowed where it starts: a cut
attempt stopped or stands anywhere, and the run knows whether an attempt has returned a value. -/
inductive Attempts (sdk : Sdk) (cluster : Cluster) (s : AppState)
    (allowed : World → List (Exchange Reply) → Prop) (start : World) : World → Prop → Prop
  /-- No attempt was made. -/
  | start : Attempts sdk cluster s allowed start start False
  /-- One more attempt, as far as it came. -/
  | cut {world world' : World} {returned : Prop} {program' : Client ActionResponse}
      {transcript : List (Exchange Reply)}
      (earlier : Attempts sdk cluster s allowed start world returned)
      (run : (chainSystem cluster).Runs world (initHandler sdk s) transcript world' program')
      (fits : allowed world transcript) :
      Attempts sdk cluster s allowed start world' returned
  /-- One more attempt, which returned a value. -/
  | completed {world world' : World} {returned : Prop} {response : ActionResponse}
      {transcript : List (Exchange Reply)}
      (earlier : Attempts sdk cluster s allowed start world returned)
      (run : (chainSystem cluster).Runs world (initHandler sdk s) transcript world'
        (.done (.ok response)))
      (fits : allowed world transcript) :
      Attempts sdk cluster s allowed start world' True

/-- The sender's account has nothing pending. -/
def NothingPending (s : AppState) (world : World) : Prop :=
  ∀ extension, world.ledger.confidential? (s.tokenAccount s.keys.sender) = some extension →
    extension.pendingAmount = 0

/-- The sender has no public and no available balance. -/
def NothingHeld (s : AppState) (world : World) : Prop :=
  s.publicBalance world.ledger s.keys.sender = 0 ∧
    s.availableBalance world.ledger s.keys.sender = 0

/-- The attempt mints and deposits nothing; or nothing is pending where it starts, and it has read
the sender's account before it mints or deposits, or there was nothing to read. -/
def FundsSafely (s : AppState) (world : World) (transcript : List (Exchange Reply)) : Prop :=
  Unfunded transcript ∨
    NothingPending s world ∧ (FundsBySight true transcript ∨ NothingHeld s world)

section Promise

variable {sdk : Sdk} {cluster : Cluster} {s : AppState} {start world world' : World}
variable {funds now : Funds} {transcript : List (Exchange Reply)}

/-- With nothing pending on the ledger, nothing is pending in the funds, and conversely. -/
theorem nothingPending_iff (holds : s.Holds world.ledger funds) :
    NothingPending s world ↔ funds.pending = 0 := by
  obtain ⟨token, extension, data, configured, -, -, pending, -⟩ := holds.sender
  have held : world.ledger.confidential? (s.tokenAccount s.keys.sender) = some extension := by
    simp [Ledger.confidential?, data, AccountData.token?, configured]
  constructor
  · intro nothing
    have none := nothing extension held
    omega
  · intro none other same
    obtain rfl := Option.some.inj (held.symm.trans same)
    omega

/-- With nothing held on the ledger, nothing is in the funds, and conversely. -/
theorem nothingHeld_iff (holds : s.Holds world.ledger funds) :
    NothingHeld s world ↔ funds.publicAmount = 0 ∧ funds.available = 0 := by
  obtain ⟨publicRead, availableRead⟩ := holds.reads
  rw [NothingHeld, publicRead, availableRead]

/-- What an attempt that funds safely leaves: the funds are conserved, and they are as promised
where they were so before or where it returned a value. -/
theorem attempt_conserves {program' : Client ActionResponse} (held : s.Holds world.ledger now)
    (conserved : funds.Conserved s.targetBase now)
    (run : (chainSystem cluster).Runs world (initHandler sdk s) transcript world' program')
    (safe : FundsSafely s world transcript) :
    ∃ reached, s.Holds world'.ledger reached ∧ funds.Conserved s.targetBase reached ∧
      ((s.targetBase ≤ now.available ∨ ∃ response, program' = .done (.ok response)) →
        s.targetBase ≤ reached.available) := by
  obtain ⟨sight, saw, stage, arrived⟩ := initHandler_stages held run
  have without := unfunded_iff_without run
  by_cases none : Unfunded transcript
  · -- The funds are as they were, and enough where the attempt returned.
    have same : s.Holds world'.ledger now := by
      rcases stage with ⟨-, same⟩ | ⟨some, -⟩
      · exact same
      · exact absurd (without.mp none) some.not_without
    refine ⟨now, same, conserved, ?_⟩
    rintro (enough | ⟨response, returned⟩)
    · exact enough
    · have enough : ¬ sight.available < s.targetBase := fun short =>
        ((arrived response returned).funds short).not_without (without.mp none)
      rcases saw with ⟨rfl, -⟩ | ⟨rfl, -⟩
      · exact not_lt.mp enough
      · have zero : s.targetBase ≤ 0 := not_lt.mp enough
        omega
  · -- The attempt went by the sender's balances.
    obtain ⟨pending, told⟩ := safe.resolve_left none
    have empty := (nothingPending_iff held).mp pending
    obtain rfl : sight = now.sight := by
      rcases saw with ⟨same, -⟩ | ⟨rfl, blind⟩
      · exact same
      · obtain ⟨publicHeld, availableHeld⟩ :=
          (nothingHeld_iff held).mp (told.resolve_left (blind.resolve_left none))
        rw [Funds.sight, publicHeld, availableHeld, Sight.blank]
    have here : ∃ next ∈ now.stages s.targetBase now.sight, s.Holds world'.ledger next := by
      rcases stage with ⟨-, same⟩ | ⟨-, reached⟩
      · exact ⟨now, now.mem_stages _ _, same⟩
      · exact reached
    by_cases returned : ∃ response, program' = .done (.ok response)
    · obtain ⟨response, returned⟩ := returned
      exact ⟨_, (arrived response returned).holds, conserved.stage empty
        (now.toppedUp_mem_stages _ _), fun _ => now.target_le_toppedUp _ _ le_rfl⟩
    · obtain ⟨next, reached, holds⟩ := here
      refine ⟨next, holds, conserved.stage empty reached, fun before => ?_⟩
      have enough := before.resolve_right returned
      -- A sender that is not short stays as it is.
      have unshort : ¬ now.sight.available < s.targetBase := not_lt.mpr enough
      rw [Funds.stages, if_neg unshort, List.mem_singleton] at reached
      rwa [reached]

/-- What a run of such attempts keeps: the funds are conserved, and the target is reached once an
attempt has returned. -/
theorem attempts_conserve {returned : Prop} (empty : funds.pending = 0)
    (holds : s.Holds start.ledger funds)
    (attempts : Attempts sdk cluster s (FundsSafely s) start world returned) :
    ∃ reached, s.Holds world.ledger reached ∧ funds.Conserved s.targetBase reached ∧
      (returned → s.targetBase ≤ reached.available) := by
  induction attempts with
  | start => exact ⟨funds, holds, Funds.conserved_start empty, False.elim⟩
  | cut earlier run safe ih =>
    obtain ⟨now, held, conserved, reached⟩ := ih
    obtain ⟨next, holds, kept, enough⟩ := attempt_conserves held conserved run safe
    exact ⟨next, holds, kept, fun returned => enough (.inl (reached returned))⟩
  | completed earlier run safe ih =>
    obtain ⟨now, held, conserved, -⟩ := ih
    obtain ⟨next, holds, kept, enough⟩ := attempt_conserves held conserved run safe
    exact ⟨next, holds, kept, fun _ => enough (.inr ⟨_, rfl⟩)⟩

end Promise

/-- In every run whose attempts each fund safely, every world that is reached keeps the promise: no
more was minted than the start lacked, and once an attempt has returned a value the sender holds the
target. The first attempt that does not fund safely breaks the promise when it returns a value. -/
theorem attempts_promised (sdk : Sdk) (cluster : Cluster) (s : AppState) (start finish : World)
    (funds : Funds) (returned : Prop) (empty : funds.pending = 0)
    (holds : s.Holds start.ledger funds)
    (attempts : Attempts sdk cluster s (FundsSafely s) start finish returned) :
    (∃ reached, s.Holds finish.ledger reached ∧
      funds.Promised s.targetBase reached returned) ∧
    ∀ response transcript world', ¬ FundsSafely s finish transcript →
      (chainSystem cluster).Runs finish (initHandler sdk s) transcript world'
        (.done (.ok response)) →
      ∃ reached, s.Holds world'.ledger reached ∧
        ¬ funds.Promised s.targetBase reached True := by
  obtain ⟨reached, held, conserved, enough⟩ := attempts_conserve empty holds attempts
  refine ⟨⟨reached, held, conserved.minted, fun done => (conserved.enough (enough done)).1,
    fun done => (conserved.enough (enough done)).2⟩,
    fun response transcript world' unsafely run => ?_⟩
  obtain ⟨sight, saw, -, arrived⟩ := initHandler_stages held run
  have last := arrived response rfl
  have funded : ¬ Unfunded transcript := fun none => unsafely (.inl none)
  have short : sight.available < s.targetBase := by
    by_contra enough
    exact funded ((unfunded_iff_without run).mpr (last.none enough))
  refine ⟨_, last.holds, ?_⟩
  by_cases waits : reached.pending = 0
  · -- Nothing was pending, so the attempt did not see what the sender held.
    have blind (told : FundsBySight true transcript ∨ NothingHeld s finish) : False :=
      unsafely (.inr ⟨(nothingPending_iff held).mpr waits, told⟩)
    rcases saw with ⟨-, bySight⟩ | ⟨rfl, -⟩
    · exact (blind (.inl bySight)).elim
    · have something : reached.publicAmount ≠ 0 ∨ reached.available ≠ 0 := by
        by_contra nothing
        exact blind (.inr ((nothingHeld_iff held).mpr (by omega)))
      exact conserved.overminted something short
  · exact conserved.overfunded waits short

/-- An attempt of the demo with the ideal proof system, under some choices. -/
def idealAttempt (choices : List Choice) (world : World) :
    Outcome ClientError ActionResponse × World :=
  (chain Cluster.ideal).run (initHandler Sdk.ideal .demo) world choices

/-- Its transcript. -/
def idealTranscript (choices : List Choice) (world : World) : List (Exchange Reply) :=
  (chain Cluster.ideal).transcript (initHandler Sdk.ideal .demo) world choices

section Demo

variable {allowed : World → List (Exchange Reply) → Prop} {start world : World} {returned : Prop}

/-- One more attempt of the demo, whatever it returns. -/
theorem Attempts.idealCut (choices : List Choice)
    (earlier : Attempts Sdk.ideal Cluster.ideal .demo allowed start world returned)
    (fits : allowed world (idealTranscript choices world)) :
    Attempts Sdk.ideal Cluster.ideal .demo allowed start (idealAttempt choices world).2 returned :=
  earlier.cut ((chain Cluster.ideal).run_runs _ _ choices) fits

/-- One more attempt of the demo, which returned a value. -/
theorem Attempts.idealCompleted (choices : List Choice)
    (earlier : Attempts Sdk.ideal Cluster.ideal .demo allowed start world returned)
    (fits : allowed world (idealTranscript choices world))
    (succeeds : (idealAttempt choices world).1.isOk = true) :
    Attempts Sdk.ideal Cluster.ideal .demo allowed start (idealAttempt choices world).2 True := by
  obtain ⟨response, same⟩ := Outcome.isOk_iff.mp succeeds
  have run := (chain Cluster.ideal).run_runs (initHandler Sdk.ideal .demo) world choices
  rw [show ((chain Cluster.ideal).run _ _ _).1 = .ok response from same] at run
  exact earlier.completed run fits

end Demo

/-- The demo's sender starts with nothing. An attempt whose first read fails does nothing, and the
next one gives the sender the five cents. -/
theorem attempts_promised_once : ∃ reached,
    AppState.demo.Holds (idealAttempt [] (idealAttempt [.fail "timeout"] (.demo 0 0)).2).2.ledger
      reached ∧ Funds.Promised AppState.demo.targetBase ⟨0, 0, 0, 0⟩ reached True := by
  have start : AppState.demo.Holds (World.demo 0 0).ledger ⟨0, 0, 0, 0⟩ :=
    AppState.funds?_some (by decide +kernel)
  have failed : FundsSafely .demo (.demo 0 0) (idealTranscript [.fail "timeout"] (.demo 0 0)) :=
    .inl (by decide +kernel)
  have later : AppState.demo.Holds (idealAttempt [.fail "timeout"] (.demo 0 0)).2.ledger
      ⟨0, 0, 0, 0⟩ := AppState.funds?_some (by decide +kernel)
  have funds : FundsSafely .demo (idealAttempt [.fail "timeout"] (.demo 0 0)).2
      (idealTranscript [] (idealAttempt [.fail "timeout"] (.demo 0 0)).2) :=
    .inr ⟨(nothingPending_iff later).mpr rfl, .inl (by decide +kernel)⟩
  have run := (Attempts.start.idealCut _ failed).idealCompleted _ funds (by decide +kernel)
  exact (attempts_promised Sdk.ideal Cluster.ideal .demo (.demo 0 0) _ ⟨0, 0, 0, 0⟩ True rfl start
    run).1

/-- The first attempt is cut after its deposit, when its apply is not sent; the second one mints
and deposits again, and returns with twice the target. And where the sender holds the target, an
attempt that cannot read its account mints and deposits it once more. -/
theorem init_mintsTwice :
    (∃ finish,
      AppState.demo.Holds (World.demo 0 0).ledger ⟨0, 0, 0, 0⟩ ∧
      Attempts Sdk.ideal Cluster.ideal .demo (fun _ _ => True) (.demo 0 0) finish True ∧
      AppState.demo.Holds finish.ledger ⟨0, 10, 0, 10⟩ ∧
      ¬ Funds.Promised AppState.demo.targetBase ⟨0, 0, 0, 0⟩ ⟨0, 10, 0, 10⟩ True) ∧
    ∃ finish,
      AppState.demo.Holds (World.demo 0 5).ledger ⟨0, 5, 0, 5⟩ ∧
      Attempts Sdk.ideal Cluster.ideal .demo (fun _ _ => True) (.demo 0 5) finish True ∧
      AppState.demo.Holds finish.ledger ⟨0, 10, 0, 10⟩ ∧
      ¬ Funds.Promised AppState.demo.targetBase ⟨0, 5, 0, 5⟩ ⟨0, 10, 0, 10⟩ True := by
  constructor
  · let cut := (idealAttempt (List.replicate 17 .succeed ++ [.fail "timeout"]) (.demo 0 0)).2
    have first : Attempts Sdk.ideal Cluster.ideal .demo (fun _ _ => True) (.demo 0 0) cut False :=
      Attempts.start.idealCut _ trivial
    have second := first.idealCompleted [] trivial (by decide +kernel)
    have funds : AppState.demo.funds? (idealAttempt [] cut).2.ledger = some ⟨0, 10, 0, 10⟩ := by
      decide +kernel
    refine ⟨_, AppState.funds?_some (by decide +kernel), second, AppState.funds?_some funds,
      fun promised => ?_⟩
    have held : 10 = max AppState.demo.targetBase 0 := promised.funded trivial
    exact absurd held (by decide +kernel)
  · let blind : List Choice := List.replicate 5 .succeed ++ [.fail "timeout"]
    have once : Attempts Sdk.ideal Cluster.ideal .demo (fun _ _ => True) (.demo 0 5) _ True :=
      Attempts.start.idealCompleted blind trivial (by decide +kernel)
    have funds : AppState.demo.funds? (idealAttempt blind (.demo 0 5)).2.ledger =
        some ⟨0, 10, 0, 10⟩ := by
      decide +kernel
    refine ⟨_, AppState.funds?_some (by decide +kernel), once, AppState.funds?_some funds,
      fun promised => ?_⟩
    have held : 10 = max AppState.demo.targetBase 5 := promised.funded trivial
    exact absurd held (by decide +kernel)

end ConfidentialBalances
