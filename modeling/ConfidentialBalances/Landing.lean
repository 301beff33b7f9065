import ConfidentialBalances.Client

/-!
# What a program lands

The judgements in which operations are specified. A quiet program only reads. A
program that submits a plan lands the plan's transactions in order, each of them
complete or not at all, and returns a value only once the whole plan has landed;
an error leaves a beginning of the plan that is not the whole of it.
-/

namespace ConfidentialBalances

open Effect

/-- Between two worlds exactly these transactions landed, and the event log is as it was. -/
structure Lands (cluster : Cluster) (world world' : World) (done : List Transaction) : Prop where
  /-- The transactions are appended to what had landed. -/
  landed : world'.landed = world.landed ++ done
  /-- The transactions took effect on the ledger, in order. -/
  ledger : world.ledger.execTransactions cluster done = some world'.ledger
  /-- The event log is unchanged. -/
  events : world'.events = world.events

namespace Lands

variable {cluster : Cluster} {world world' world'' : World} {first second : List Transaction}

/-- Nothing lands in no time. -/
theorem refl (cluster : Cluster) (world : World) : Lands cluster world world [] :=
  ⟨by simp, rfl, rfl⟩

/-- Landings compose. -/
theorem trans (before : Lands cluster world world' first)
    (after : Lands cluster world' world'' second) :
    Lands cluster world world'' (first ++ second) := by
  refine ⟨?_, ?_, after.events.trans before.events⟩
  · rw [after.landed, before.landed, List.append_assoc]
  · rw [Ledger.execTransactions_append, before.ledger]
    exact after.ledger

/-- After nothing landed, what lands is all that landed. -/
theorem after_quiet (before : Lands cluster world world' [])
    (after : Lands cluster world' world'' second) : Lands cluster world world'' second := by
  simpa using before.trans after

/-- Where nothing landed, the ledger is the same. -/
theorem same_ledger (quiet : Lands cluster world world' []) : world'.ledger = world.ledger :=
  (Option.some.inj quiet.ledger).symm

/-- Where nothing landed, the list of landed transactions is the same. -/
theorem same_landed (quiet : Lands cluster world world' []) : world'.landed = world.landed := by
  simpa using quiet.landed

/-- One transaction that landed took effect on the ledger. -/
theorem single {transaction : Transaction} (landed : Lands cluster world world' [transaction]) :
    world.ledger.execTransaction cluster transaction = some world'.ledger := by
  obtain ⟨next, ran, last⟩ := Option.bind_eq_some_iff.mp landed.ledger
  obtain rfl := Option.some.inj last
  exact ran

end Lands

/-- Some beginning of a plan has landed. -/
def Partly (cluster : Cluster) (plans : List Transaction → Prop) (world world' : World) : Prop :=
  Lands cluster world world' [] ∨
    ∃ done rest, plans (done ++ rest) ∧ Lands cluster world world' done

/-- Of a plan of one transaction, nothing or the whole has landed. -/
theorem Partly.single {cluster : Cluster} {plans : List Transaction → Prop} {world world' : World}
    (partly : Partly cluster plans world world')
    (single : ∀ plan, plans plan → plan.length = 1) :
    Lands cluster world world' [] ∨
      ∃ transaction, plans [transaction] ∧ Lands cluster world world' [transaction] := by
  rcases partly with quiet | ⟨done, rest, planned, landed⟩
  · exact .inl quiet
  · obtain ⟨transaction, whole⟩ := List.length_eq_one_iff.mp (single _ planned)
    rw [whole] at planned
    rcases List.append_eq_singleton_iff.mp whole with ⟨rfl, -⟩ | ⟨rfl, -⟩
    · exact .inl landed
    · exact .inr ⟨transaction, planned, landed⟩

/-- Nothing has landed, or some beginning of a plan that is not the whole plan. -/
def Cut (cluster : Cluster) (plans : List Transaction → Prop) (world world' : World) : Prop :=
  Lands cluster world world' [] ∨
    ∃ done rest, rest ≠ [] ∧ plans (done ++ rest) ∧ Lands cluster world world' done

/-- The program lands beginnings of plans, and returns a value only after a whole plan. -/
def Submits {α : Type} (cluster : Cluster) (plans : List Transaction → Prop)
    (ok : List Transaction → α → World → Prop) (program : Client α) (world : World) : Prop :=
  (chainSystem cluster).Meets (Partly cluster plans world)
    (fun outcome world' => match outcome with
      | .ok value => ∃ plan, plans plan ∧ Lands cluster world world' plan ∧ ok plan value world'
      | .error _ => Cut cluster plans world world'
      | .panic _ => Cut cluster plans world world') program world

/-- The program submits this one plan. -/
abbrev Follows {α : Type} (cluster : Cluster) (plan : List Transaction)
    (ok : α → World → Prop) (program : Client α) (world : World) : Prop :=
  Submits cluster (· = plan) (fun _ => ok) program world

/-- The program only reads. -/
def Quietly {α : Type} (cluster : Cluster) (ok : α → World → Prop) (program : Client α)
    (world : World) : Prop :=
  (chainSystem cluster).Meets (fun world' => Lands cluster world world' [])
    (fun outcome world' => ∀ value, outcome = .ok value → ok value world') program world

/-- The program only reads and always returns a value. -/
def Surely {α : Type} (cluster : Cluster) (ok : α → World → Prop) (program : Client α)
    (world : World) : Prop :=
  (chainSystem cluster).Meets (fun world' => Lands cluster world world' [])
    (fun outcome world' => ∃ value, outcome = .ok value ∧ ok value world') program world

section Rules

variable {α β : Type} {cluster : Cluster} {world : World}
variable {plans : List Transaction → Prop} {ok : List Transaction → α → World → Prop}

/-! ## Quiet programs -/

/-- Returning a value lands nothing. -/
theorem quietly_pure {ok : α → World → Prop} {value : α} (holds : ok value world) :
    Quietly cluster ok (pure value) world :=
  ⟨.refl _ _, fun _ same => by obtain rfl := Outcome.ok.inj same; exact holds⟩

/-- Failing lands nothing. -/
theorem quietly_fail {ok : α → World → Prop} {reason : ClientError} :
    Quietly cluster ok (Program.fail reason) world :=
  ⟨.refl _ _, fun _ same => by contradiction⟩

/-- Panicking lands nothing. -/
theorem quietly_abort {ok : α → World → Prop} {message : String} :
    Quietly cluster ok (Program.abort message) world :=
  ⟨.refl _ _, fun _ same => by contradiction⟩

/-- Reading after reading. -/
theorem quietly_bind {mid : α → World → Prop} {ok : β → World → Prop} {program : Client α}
    {rest : α → Client β} (first : Quietly cluster mid program world)
    (second : ∀ value world', Lands cluster world world' [] → mid value world' →
      Quietly cluster ok (rest value) world') :
    Quietly cluster ok (program >>= rest) world := by
  refine System.Meets.bind first ?_ ?_ ?_
  · intro value world' quiet holds
    exact (second value world' quiet (holds value rfl)).weaken
      (fun _ later => quiet.after_quiet later) (fun _ _ _ post => post)
  · intro reason world' _ _ value same
    contradiction
  · intro message world' _ _ value same
    contradiction

/-- A weaker fact about the value follows. -/
theorem Quietly.weaken {ok ok' : α → World → Prop} {program : Client α}
    (quiet : Quietly cluster ok program world)
    (weaker : ∀ value world', ok value world' → ok' value world') :
    Quietly cluster ok' program world :=
  System.Meets.weaken quiet (fun _ holds => holds)
    fun _ world' _ post value same => weaker value world' (post value same)

/-- A value computed from what was read. -/
theorem quietly_ofExcept (result : Except ClientError α) :
    Quietly cluster (fun value world' => result = .ok value ∧ world' = world)
      (Program.ofExcept result) world := by
  cases result with
  | ok value =>
    show Quietly cluster _ (pure value) world
    exact quietly_pure ⟨rfl, rfl⟩
  | error reason => exact quietly_fail

/-- The value of a successful reply. -/
theorem quietly_orRpc (reply : Except RpcError α) :
    Quietly cluster (fun value world' => reply = .ok value ∧ world' = world) (orRpc reply)
      world := by
  cases reply with
  | ok value =>
    show Quietly cluster _ (pure value) world
    exact quietly_pure ⟨rfl, rfl⟩
  | error reason => exact quietly_fail

/-- A request is answered by the chain under some choice. -/
theorem quietly_ask (request : Call)
    (reads : ∀ choice, Lands cluster world ((chain cluster).answer world request choice).2 []) :
    Quietly cluster (fun reply world' =>
      ∃ choice, (chain cluster).answer world request choice = (reply, world'))
      (ask request) world := by
  refine ⟨.refl _ _, fun reply world' ⟨choice, answer⟩ => ?_⟩
  have quiet := reads choice
  rw [answer] at quiet
  refine ⟨quiet, fun value returned => ?_⟩
  obtain rfl := Outcome.ok.inj returned
  exact ⟨choice, answer⟩

/-- Reading an account gives what the ledger holds at the address. -/
theorem quietly_getAccount (key : Pubkey) :
    Quietly cluster (fun data world' => world' = world ∧ world.ledger.fetch key = .ok data)
      (getAccount key) world := by
  refine quietly_bind (quietly_ask (.getAccount key) fun choice => ?_) ?_
  · cases choice <;> exact .refl _ _
  · rintro reply world' - ⟨choice, answer⟩
    cases choice with
    | succeed =>
      obtain ⟨rfl, rfl⟩ := Prod.mk.inj answer
      exact (quietly_orRpc _).weaken fun data after read => ⟨read.2, read.1⟩
    | fail message =>
      obtain ⟨rfl, rfl⟩ := Prod.mk.inj answer
      exact quietly_fail

/-- The rent-exempt balance is the cluster's. -/
theorem quietly_getMinimumBalanceForRentExemption (length : Nat) :
    Quietly cluster (fun rent world' => world' = world ∧ rent = cluster.rentExemption length)
      (getMinimumBalanceForRentExemption length) world := by
  refine quietly_bind
    (quietly_ask (.getMinimumBalanceForRentExemption length) fun choice => ?_) ?_
  · cases choice <;> exact .refl _ _
  · rintro reply world' - ⟨choice, answer⟩
    cases choice with
    | succeed =>
      obtain ⟨rfl, rfl⟩ := Prod.mk.inj answer
      exact (quietly_orRpc _).weaken fun rent after read =>
        ⟨read.2, (Except.ok.inj read.1).symm⟩
    | fail message =>
      obtain ⟨rfl, rfl⟩ := Prod.mk.inj answer
      exact quietly_fail

/-- A generated keypair is the next one. -/
theorem quietly_newKeypair :
    Quietly cluster (fun key world' => key = .generated world.generated ∧
        world' = { world with generated := world.generated + 1 }) newKeypair world := by
  refine (quietly_ask .newKeypair fun choice => ?_).weaken ?_
  · exact ⟨by simp [chain], rfl, rfl⟩
  · rintro key world' ⟨choice, answer⟩
    obtain ⟨rfl, rfl⟩ := Prod.mk.inj answer
    exact ⟨rfl, rfl⟩

/-- What surely returns a value only reads. -/
theorem Surely.quietly {ok : α → World → Prop} {program : Client α}
    (sure : Surely cluster ok program world) : Quietly cluster ok program world := by
  refine System.Meets.weaken sure (fun _ holds => holds) ?_
  rintro outcome world' - ⟨value, rfl, holds⟩ value' same
  obtain rfl := Outcome.ok.inj same
  exact holds

/-- Returning a value lands nothing and is sure. -/
theorem surely_pure {ok : α → World → Prop} {value : α} (holds : ok value world) :
    Surely cluster ok (pure value) world :=
  ⟨.refl _ _, value, rfl, holds⟩

/-- One sure program after another. -/
theorem surely_bind {mid : α → World → Prop} {ok : β → World → Prop} {program : Client α}
    {rest : α → Client β} (first : Surely cluster mid program world)
    (second : ∀ value world', Lands cluster world world' [] → mid value world' →
      Surely cluster ok (rest value) world') :
    Surely cluster ok (program >>= rest) world := by
  refine System.Meets.bind first ?_ ?_ ?_
  · rintro value world' quiet ⟨_, same, holds⟩
    obtain rfl := Outcome.ok.inj same
    exact (second value world' quiet holds).weaken
      (fun _ later => quiet.after_quiet later) (fun _ _ _ post => post)
  · rintro reason world' - ⟨value, same, -⟩
    contradiction
  · rintro message world' - ⟨value, same, -⟩
    contradiction

/-- Emitting adds the event to the channel, when there is one, and always succeeds. -/
theorem surely_emit (sink : ProgressSink) (event : TransferProgress) :
    Surely cluster (fun _ world' => world'.ledger = world.ledger ∧
        world'.generated = world.generated) (emit sink event) world := by
  cases sink with
  | none => exact surely_pure ⟨rfl, rfl⟩
  | broadcast =>
    refine ⟨.refl _ _, fun reply world' ⟨choice, answer⟩ => ?_⟩
    obtain ⟨rfl, rfl⟩ := Prod.mk.inj answer
    exact ⟨⟨by simp, rfl, rfl⟩, (), rfl, rfl, rfl⟩

/-- The derived keys are the wallet's standard ones. -/
theorem quietly_deriveConfidentialKeys (signer : Wallet) :
    Quietly cluster (fun keys world' => world' = world ∧ keys = signer.confidentialKeys)
      (deriveConfidentialKeys signer) world := by
  refine quietly_bind (quietly_ask (.signMessage signer) fun choice => ?_) ?_
  · cases choice <;> exact .refl _ _
  · rintro reply world' - ⟨choice, answer⟩
    cases choice with
    | succeed =>
      obtain ⟨rfl, rfl⟩ := Prod.mk.inj answer
      exact quietly_pure ⟨rfl, rfl⟩
    | fail message =>
      obtain ⟨rfl, rfl⟩ := Prod.mk.inj answer
      exact quietly_fail

/-- What is fetched is the data at the address. -/
theorem Ledger.fetch_ok {ledger : Ledger} {key : Pubkey} {data : AccountData}
    (fetched : ledger.fetch key = .ok data) : ledger.data key = data := by
  unfold fetch at fetched
  split at fetched
  · contradiction
  · exact Except.ok.inj fetched

/-- Data at an address are fetched. -/
theorem Ledger.fetch_eq {ledger : Ledger} {key : Pubkey} {data : AccountData}
    (held : ledger.data key = data) (used : data ≠ .empty) : ledger.fetch key = .ok data := by
  subst held
  simp [fetch, used]

/-- Only a token account unpacks as one. -/
theorem unpackTokenAccount_ok {data : AccountData} {account : TokenAccount}
    (unpacked : unpackTokenAccount data = .ok account) : data = .token account := by
  unfold unpackTokenAccount at unpacked
  split at unpacked
  · rw [Except.ok.inj unpacked]
  · contradiction

/-- Only a mint unpacks as one. -/
theorem unpackMint_ok {data : AccountData} {state : Mint} (unpacked : unpackMint data = .ok state) :
    data = .mint state := by
  unfold unpackMint at unpacked
  split at unpacked
  · rw [Except.ok.inj unpacked]
  · contradiction

/-- An extension that is read is there. -/
theorem getExtension_ok {α : Type} {extension : Option α} {value : α}
    (read : getExtension extension = .ok value) : extension = some value := by
  unfold getExtension at read
  split at read
  · rw [Except.ok.inj read]
  · contradiction

/-- The confidential account at an address of a ledger, as far as it can be read there. -/
def Ledger.confidential? (ledger : Ledger) (account : Pubkey) :
    Option ConfidentialTransferAccount := do
  let token ← (ledger.data account).token?
  token.confidential

/-- A configured account is a token account's. -/
theorem Ledger.confidential?_some {ledger : Ledger} {key : Pubkey}
    {extension : ConfidentialTransferAccount} (held : ledger.confidential? key = some extension) :
    ∃ token, ledger.data key = .token token ∧ token.confidential = some extension := by
  obtain ⟨token, found, extended⟩ := Option.bind_eq_some_iff.mp held
  exact ⟨token, AccountData.token?_eq_some.mp found, extended⟩

/-- The operations read the confidential account that the ledger holds. -/
theorem quietly_fetchConfidential (account : Pubkey) :
    Quietly cluster (fun extension world' => world' = world ∧
        world.ledger.confidential? account = some extension) (fetchConfidential account) world := by
  refine quietly_bind (quietly_getAccount account) ?_
  rintro data world' - ⟨rfl, fetched⟩
  have held := Ledger.fetch_ok fetched
  refine quietly_bind (quietly_ofExcept _) ?_
  rintro token world' - ⟨unpacked, rfl⟩
  refine (quietly_ofExcept _).weaken ?_
  rintro extension world'' ⟨read, rfl⟩
  refine ⟨rfl, ?_⟩
  rw [unpackTokenAccount_ok unpacked] at held
  simpa [Ledger.confidential?, held, AccountData.token?] using getExtension_ok read

/-- Renaming errors keeps a quiet program quiet. -/
theorem quietly_mapError {ok : α → World → Prop} {program : Client α}
    (quiet : Quietly cluster ok program world) (rename : ClientError → ClientError) :
    Quietly cluster ok (program.mapError rename) world := by
  unfold Quietly
  rw [System.meets_mapError]
  refine System.Meets.weaken quiet (fun _ holds => holds) ?_
  rintro outcome world' - post
  cases outcome with
  | ok value => exact post
  | error reason => exact fun _ same => by contradiction
  | panic message => exact fun _ same => by contradiction

/-! ## Submitting programs -/

/-- A program that submits a plan may follow a larger choice of plans. -/
theorem Submits.weaken {plans' : List Transaction → Prop}
    {ok' : List Transaction → α → World → Prop} {program : Client α}
    (submits : Submits cluster plans ok program world) (included : ∀ plan, plans plan → plans' plan)
    (weaker : ∀ plan value world', plans plan → ok plan value world' → ok' plan value world') :
    Submits cluster plans' ok' program world := by
  refine System.Meets.weaken submits ?_ ?_
  · rintro world' (quiet | ⟨done, rest, plan, landed⟩)
    · exact .inl quiet
    · exact .inr ⟨done, rest, included _ plan, landed⟩
  · rintro outcome world' - post
    have cut : Cut cluster plans world world' → Cut cluster plans' world world' := by
      rintro (quiet | ⟨done, rest, more, plan, landed⟩)
      · exact .inl quiet
      · exact .inr ⟨done, rest, more, included _ plan, landed⟩
    cases outcome with
    | ok value =>
      obtain ⟨plan, planned, landed, holds⟩ := post
      exact ⟨plan, included _ planned, landed, weaker _ _ _ planned holds⟩
    | error reason => exact cut post
    | panic message => exact cut post

/-- A program that fails at once lands nothing. -/
theorem submits_fail {reason : ClientError} :
    Submits cluster plans ok (Program.fail reason) world :=
  ⟨.inl (.refl _ _), .inl (.refl _ _)⟩

/-- Submitting after reading. -/
theorem submits_after {mid : β → World → Prop} {program : Client β} {rest : β → Client α}
    (first : Quietly cluster mid program world)
    (second : ∀ value world', Lands cluster world world' [] → mid value world' →
      Submits cluster plans ok (rest value) world') :
    Submits cluster plans ok (program >>= rest) world := by
  refine System.Meets.bind (System.Meets.weaken first (fun _ quiet => .inl quiet)
    fun _ _ quiet post => And.intro quiet post) ?_ ?_ ?_
  · rintro value world' - ⟨quiet, holds⟩
    refine System.Meets.weaken (second value world' quiet (holds value rfl)) ?_ ?_
    · rintro world'' (later | ⟨done, rest, plan, landed⟩)
      · exact .inl (quiet.after_quiet later)
      · exact .inr ⟨done, rest, plan, quiet.after_quiet landed⟩
    · rintro outcome world'' - post
      have cut : Cut cluster plans world' world'' → Cut cluster plans world world'' := by
        rintro (later | ⟨done, rest, more, plan, landed⟩)
        · exact .inl (quiet.after_quiet later)
        · exact .inr ⟨done, rest, more, plan, quiet.after_quiet landed⟩
      cases outcome with
      | ok value =>
        obtain ⟨plan, planned, landed, holds⟩ := post
        exact ⟨plan, planned, quiet.after_quiet landed, holds⟩
      | error reason => exact cut post
      | panic message => exact cut post
  · rintro reason world' - ⟨quiet, -⟩
    exact .inl quiet
  · rintro message world' - ⟨quiet, -⟩
    exact .inl quiet

/-- What surely follows a plan adds nothing to it. -/
theorem follows_surely {plan : List Transaction} {mid : β → World → Prop} {ok : α → World → Prop}
    {program : Client β} {rest : β → Client α} (first : Follows cluster plan mid program world)
    (second : ∀ value world', Lands cluster world world' plan → mid value world' →
      Surely cluster ok (rest value) world') :
    Follows cluster plan ok (program >>= rest) world := by
  refine System.Meets.bind first ?_ (fun _ _ _ post => post) (fun _ _ _ post => post)
  rintro value world' - ⟨whole, planned, landed, holds⟩
  obtain rfl : plan = whole := planned.symm
  refine System.Meets.weaken (second value world' landed holds) ?_ ?_
  · intro world'' quiet
    exact .inr ⟨plan, [], by simp, by simpa using landed.trans quiet⟩
  · rintro outcome world'' quiet ⟨value, rfl, holds⟩
    exact ⟨plan, rfl, by simpa using landed.trans quiet, holds⟩

/-- A program that follows one plan submits any choice of plans with that one in it. -/
theorem submits_follows (plan : List Transaction) (mid : α → World → Prop) {program : Client α}
    (planned : plans plan) (weaker : ∀ value world', mid value world' → ok plan value world')
    (follows : Follows cluster plan mid program world) : Submits cluster plans ok program world :=
  Submits.weaken follows (fun _ same => same ▸ planned) fun _ value world' same holds =>
    same ▸ weaker value world' holds

/-- One plan after another. -/
theorem follows_append (plan : List Transaction) {later : List Transaction} {mid : β → World → Prop}
    {ok : α → World → Prop} {program : Client β} {rest : β → Client α}
    (first : Follows cluster plan mid program world) (more : later ≠ [])
    (second : ∀ value world', Lands cluster world world' plan → mid value world' →
      Follows cluster later ok (rest value) world') :
    Follows cluster (plan ++ later) ok (program >>= rest) world := by
  have extend : Cut cluster (· = plan) world ≤ Cut cluster (· = plan ++ later) world := by
    rintro world' (quiet | ⟨done, rest, -, rfl, landed⟩)
    · exact .inl quiet
    · exact .inr ⟨done, rest ++ later, by simp [more], by simp, landed⟩
  refine System.Meets.bind (System.Meets.weaken first ?_ fun _ _ _ post => post) ?_ ?_ ?_
  · rintro world' (quiet | ⟨done, rest, rfl, landed⟩)
    · exact .inl quiet
    · exact .inr ⟨done, rest ++ later, by simp, landed⟩
  · rintro value world' - ⟨whole, planned, landed, holds⟩
    obtain rfl : plan = whole := planned.symm
    refine System.Meets.weaken (second value world' landed holds) ?_ ?_
    · rintro world'' (quiet | ⟨done, rest, rfl, after⟩)
      · exact .inr ⟨plan, later, rfl, by simpa using landed.trans quiet⟩
      · exact .inr ⟨plan ++ done, rest, by simp, landed.trans after⟩
    · rintro outcome world'' - post
      have cut : Cut cluster (· = later) world' world'' →
          Cut cluster (· = plan ++ later) world world'' := by
        rintro (quiet | ⟨done, rest, remains, rfl, after⟩)
        · exact .inr ⟨plan, later, more, rfl, by simpa using landed.trans quiet⟩
        · exact .inr ⟨plan ++ done, rest, remains, by simp, landed.trans after⟩
      cases outcome with
      | ok value =>
        obtain ⟨whole, planned, after, holds⟩ := post
        obtain rfl : later = whole := planned.symm
        exact ⟨plan ++ later, rfl, landed.trans after, holds⟩
      | error reason => exact cut post
      | panic message => exact cut post
  · exact fun reason world' _ post => extend _ post
  · exact fun message world' _ post => extend _ post

/-! ## Properties of the chain -/

/-- The property is one of the ledger and of what has landed. -/
def OnChain (property : World → Prop) : Prop :=
  ∀ world world' : World, world'.ledger = world.ledger → world'.landed = world.landed →
    property world → property world'

/-- A program that only reads keeps every property of the chain. -/
theorem serves_quietly {property : World → Prop} {mid : α → World → Prop} {program : Client α}
    (onChain : OnChain property) (here : property world)
    (quiet : Quietly cluster mid program world) :
    (chainSystem cluster).Serves property (fun value world' =>
      property world' ∧ Lands cluster world world' [] ∧ mid value world') program world := by
  have stays {world' : World} (landed : Lands cluster world world' []) : property world' :=
    onChain _ _ landed.same_ledger landed.same_landed here
  refine System.Meets.weaken quiet (fun _ landed => stays landed) ?_
  exact fun outcome world' landed post value same => ⟨stays landed, landed, post value same⟩

/-- A submitting program keeps what every beginning of its plans keeps. -/
theorem serves_submits {property : World → Prop} {mid : List Transaction → α → World → Prop}
    {program : Client α} (submits : Submits cluster plans mid program world)
    (partly : ∀ world', Partly cluster plans world world' → property world') :
    (chainSystem cluster).Serves property (fun value world' =>
      ∃ plan, plans plan ∧ Lands cluster world world' plan ∧ mid plan value world') program
      world := by
  refine System.Meets.weaken submits partly ?_
  rintro outcome world' - post value rfl
  exact post

end Rules

end ConfidentialBalances
