import ConfidentialBalances.LandedCalls
import ConfidentialBalances.Overlap

/-!
# One account under many jobs

The jobs' interleavings seen from one owner's account. Every landed transaction
is a few steps of the account: it is configured, it is credited, or it carries
out a task that some job computed from what the account held at an earlier
point. Only an apply that was computed from another total than it finds can part
the two representations of the available balance.
-/

namespace ConfidentialBalances

open Effect System Relation

section Machine

variable (sdk : Sdk) (cluster : Cluster) (owner : Wallet) (mint : Pubkey)

/-- The task that a call sets out to do with an owner's account. -/
inductive Operation.Sets : Operation → Task → Prop
  /-- An apply. -/
  | apply {payer : Wallet} : Operation.Sets (.applyPending payer owner mint) .apply
  /-- A withdraw. -/
  | withdraw {payer : Wallet} {amount decimals : Nat} :
      Operation.Sets (.withdraw payer owner mint amount decimals) (.withdraw amount)
  /-- A transfer, to whatever key the recipient has. -/
  | transfer {payer : Wallet} {recipient : Pubkey} {amount : Nat} {progress : ProgressSink}
      {recipientKey : ElGamalPubkey} {auditor : Option ElGamalPubkey} :
      Operation.Sets (.transfer payer owner mint recipient amount progress)
        (.transfer amount recipientKey auditor)

/-- What may happen to an owner's account when these calls are made, each computed from something
that was seen of it. -/
inductive SharedStep (may : Operation → Prop) (seen : ConfidentialTransferAccount → Prop) :
    Option ConfidentialTransferAccount → Option ConfidentialTransferAccount → Prop
  /-- The owner configures it. -/
  | configure {payer : Wallet} (called : may (.configure payer owner mint)) (approved : Bool) :
      SharedStep may seen none (some (Overlap.newAccount owner.confidentialKeys approved))
  /-- The owner deposits. -/
  | deposit {payer : Wallet} {amount decimals : Nat}
      {account account' : ConfidentialTransferAccount}
      (called : may (.deposit payer owner mint amount decimals))
      (deposited : account.deposit amount = some account') :
      SharedStep may seen (some account) (some account')
  /-- A confidential transfer comes in. -/
  | receive {payer sender : Wallet} {amount : Nat} {progress : ProgressSink}
      {transfer : TransferAmount} {account account' : ConfidentialTransferAccount}
      (called : may (.transfer payer sender mint owner.pubkey amount progress))
      (carries : transfer.Carries amount) (bound : amount < 2 ^ 48)
      (received : account.transferIn (.validity transfer) = some account') :
      SharedStep may seen (some account) (some account')
  /-- The owner's task lands, as it was computed from something seen. -/
  | execute {call : Operation} {task : Task}
      {snapshot account account' : ConfidentialTransferAccount} (called : may call)
      (sets : call.Sets owner mint task) (saw : seen snapshot)
      (executes : Executes sdk cluster owner.confidentialKeys snapshot task account account') :
      SharedStep may seen (some account) (some account')

/-- Several such steps. -/
abbrev SharedSteps (may : Operation → Prop) (seen : ConfidentialTransferAccount → Prop) :
    Option ConfidentialTransferAccount → Option ConfidentialTransferAccount → Prop :=
  ReflTransGen (SharedStep sdk cluster owner mint may seen)

end Machine

section Steps

variable {sdk : Sdk} {cluster : Cluster} {owner : Wallet} {mint : Pubkey}
variable {may may' : Operation → Prop} {seen seen' : ConfidentialTransferAccount → Prop}
variable {account account' : Option ConfidentialTransferAccount}

/-- More calls may be made, and more may have been seen. -/
theorem SharedStep.mono (step : SharedStep sdk cluster owner mint may seen account account')
    (calls : ∀ call, may call → may' call) (sees : ∀ snapshot, seen snapshot → seen' snapshot) :
    SharedStep sdk cluster owner mint may' seen' account account' := by
  cases step with
  | configure called approved => exact .configure (calls _ called) approved
  | deposit called deposited => exact .deposit (calls _ called) deposited
  | receive called carries bound received => exact .receive (calls _ called) carries bound received
  | execute called sets saw executes =>
    exact .execute (calls _ called) sets (sees _ saw) executes

/-- More calls may be made in several steps, and more may have been seen. -/
theorem SharedSteps.mono (steps : SharedSteps sdk cluster owner mint may seen account account')
    (calls : ∀ call, may call → may' call) (sees : ∀ snapshot, seen snapshot → seen' snapshot) :
    SharedSteps sdk cluster owner mint may' seen' account account' := by
  induction steps with
  | refl => exact .refl
  | tail _ step ih => exact ih.tail (step.mono calls sees)

/-- A change of one token account is a step of the owner whose account it is, and none of the
others. -/
theorem Ledger.Changes.shared {before after : Ledger} {owner' mint' : Pubkey}
    {extension extension' : ConfidentialTransferAccount} {amount amount' : Nat}
    (changes : before.Changes after (getAssociatedTokenAddress owner' mint') extension extension'
      amount amount')
    (step : owner' = owner.pubkey → mint' = mint →
      SharedStep sdk cluster owner mint may seen (some extension) (some extension')) :
    SharedSteps sdk cluster owner mint may seen
      (before.confidential? (getAssociatedTokenAddress owner.pubkey mint))
      (after.confidential? (getAssociatedTokenAddress owner.pubkey mint)) := by
  by_cases here : getAssociatedTokenAddress owner' mint' =
      getAssociatedTokenAddress owner.pubkey mint
  · obtain ⟨sameOwner, sameMint⟩ := getAssociatedTokenAddress_inj.mp here
    rw [← here, changes.start, changes.finish]
    exact .single (step sameOwner sameMint)
  · rw [changes.other (Ne.symm here)]

/-- What a call achieves from a ledger that it read is a few steps of each owner's account. -/
theorem Operation.AchievedFrom.shared {call : Operation} {read before after : Ledger}
    (achieved : call.AchievedFrom sdk cluster read before after) (called : may call)
    (saw : ∀ snapshot, read.confidential? (getAssociatedTokenAddress owner.pubkey mint) =
      some snapshot → seen snapshot) :
    SharedSteps sdk cluster owner mint may seen
      (before.confidential? (getAssociatedTokenAddress owner.pubkey mint))
      (after.confidential? (getAssociatedTokenAddress owner.pubkey mint)) := by
  cases call with
  | configure payer authority mint' =>
    obtain ⟨token, approved, held, unconfigured, written, others⟩ := achieved
    by_cases here : getAssociatedTokenAddress owner.pubkey mint =
        getAssociatedTokenAddress authority.pubkey mint'
    · obtain ⟨same, rfl⟩ := getAssociatedTokenAddress_inj.mp here
      obtain rfl := (Wallet.pubkey_inj _ _).mp same
      simp only [Ledger.confidential?, held, written, Option.bind_eq_bind, Option.bind_some,
        unconfigured]
      exact .single (.configure called approved)
    · rw [Ledger.confidential?_congr (others _ here)]
  | deposit payer authority mint' amount decimals =>
    obtain ⟨extension, extension', amount', deposited, -, changes⟩ := achieved
    refine changes.shared fun sameOwner sameMint => ?_
    obtain rfl := (Wallet.pubkey_inj _ _).mp sameOwner
    subst sameMint
    exact .deposit called deposited
  | applyPending payer authority mint' =>
    obtain ⟨snapshot, extension, extension', amount', held, executes, changes⟩ := achieved
    refine changes.shared fun sameOwner sameMint => ?_
    obtain rfl := (Wallet.pubkey_inj _ _).mp sameOwner
    subst sameMint
    exact .execute called .apply (saw _ held) executes
  | withdraw payer authority mint' amount decimals =>
    obtain ⟨snapshot, extension, extension', amount', held, executes, changes⟩ := achieved
    refine changes.shared fun sameOwner sameMint => ?_
    obtain rfl := (Wallet.pubkey_inj _ _).mp sameOwner
    subst sameMint
    exact .execute called .withdraw (saw _ held) executes
  | transfer payer sender mint' recipient amount progress =>
    obtain ⟨snapshot, middle, extension, extension', amount', recipientPubkey, auditor, held,
      executes, out, transfer, received, received', received'', carries, bound, receives,
      into⟩ := achieved
    have debit : SharedSteps sdk cluster owner mint may seen
        (before.confidential? (getAssociatedTokenAddress owner.pubkey mint))
        (middle.confidential? (getAssociatedTokenAddress owner.pubkey mint)) := by
      refine out.shared fun sameOwner sameMint => ?_
      obtain rfl := (Wallet.pubkey_inj _ _).mp sameOwner
      subst sameMint
      exact .execute called .transfer (saw _ held) executes
    refine debit.trans (into.shared fun sameOwner sameMint => ?_)
    subst sameOwner sameMint
    exact .receive called carries bound receives

/-- A transaction that writes no token account leaves every one alone. -/
theorem still_untouched {transaction : Transaction} {before after : Ledger}
    (still : transaction.moves = false)
    (landed : before.execTransaction cluster transaction = some after) :
    before.Untouched after := by
  intro key
  refine Ledger.execTransaction_token? landed fun instruction member => ?_
  rw [Transaction.moves_eq_false.mp still instruction member]
  exact List.not_mem_nil

/-- Opening an account leaves the confidential part of every account alone. -/
theorem OpensAccount.confidential? {transaction : Transaction} {before after : Ledger}
    (opens : OpensAccount transaction)
    (landed : before.execTransaction cluster transaction = some after) (key : Pubkey) :
    after.confidential? key = before.confidential? key := by
  cases opens with
  | createAccount => exact createAccountTransaction_confidential? landed key
  | @mintTo mint account authority payer multisig signers amount =>
    obtain ⟨charged, same, executed⟩ := Ledger.execTransaction_single landed
    obtain ⟨state, token, mintData, tokenData, -, -, -, rfl⟩ := Ledger.mintTo_some executed
    rw [same] at mintData tokenData
    by_cases credited : key = account
    · subst credited
      simp [Ledger.confidential?, tokenData, AccountData.token?]
    · refine Ledger.confidential?_congr ?_
      by_cases supplied : key = mint
      · subst supplied
        simp [mintData, Function.update_of_ne credited, AccountData.token?]
      · simp [credited, supplied, same]

/-- What a landed transaction did is a few steps of each owner's account. -/
theorem Performed.shared {role : Role} {past : List (Exchange Reply)} {read : Ledger → Prop}
    {before after : Ledger} {transaction : Transaction}
    (did : Performed sdk cluster role past read before after transaction)
    (landed : before.execTransaction cluster transaction = some after)
    (saw : ∀ ledger snapshot, read ledger →
      ledger.confidential? (getAssociatedTokenAddress owner.pubkey mint) = some snapshot →
        seen snapshot) :
    SharedSteps sdk cluster owner mint role.may seen
      (before.confidential? (getAssociatedTokenAddress owner.pubkey mint))
      (after.confidential? (getAssociatedTokenAddress owner.pubkey mint)) := by
  cases did with
  | quiet still => rw [Ledger.confidential?_congr (still_untouched still landed _)]
  | opens several opens => rw [opens.confidential? landed]
  | carries call called was knew achieved =>
    exact achieved.shared called fun snapshot held => saw _ snapshot was held

end Steps

/-! ## Which applies part the representations -/

/-- If the account is configured, its balances are the owner's and their representations agree. -/
def Agreed (keys : ConfidentialKeys) (account : Option ConfidentialTransferAccount) : Prop :=
  ∀ extension, account = some extension → Keyed keys extension ∧ Synced keys extension

/-- Among some landed transactions, an apply of the owner's account landed on another total than it
was computed from. -/
inductive StaleApply (sdk : Sdk) (cluster : Cluster) (owner : Wallet) (mint : Pubkey)
    (may : Operation → Prop) (start : Ledger) (landed : List Transaction) : Prop
  /-- The apply read one ledger of the run and landed on a later one. -/
  | intro {earlier later : List Transaction} {transaction : Transaction} {payer : Wallet}
      {read before after : Ledger} {snapshot found applied : ConfidentialTransferAccount}
      (called : may (.applyPending payer owner mint))
      (split : landed = earlier ++ transaction :: later)
      (ran : start.execTransactions cluster earlier = some before)
      (executed : before.execTransaction cluster transaction = some after)
      (saw : WasAt cluster start earlier read)
      (held : read.confidential? (getAssociatedTokenAddress owner.pubkey mint) = some snapshot)
      (finds : before.confidential? (getAssociatedTokenAddress owner.pubkey mint) = some found)
      (leaves : after.confidential? (getAssociatedTokenAddress owner.pubkey mint) = some applied)
      (executes : Executes sdk cluster owner.confidentialKeys snapshot .apply found applied)
      (stale : Overlap.total snapshot ≠ Overlap.total found) :
      StaleApply sdk cluster owner mint may start landed

section Agreement

variable {sdk : Sdk} {cluster : Cluster} {owner : Wallet} {mint : Pubkey}
variable {may : Operation → Prop} {seen : ConfidentialTransferAccount → Prop}
variable {account account' : Option ConfidentialTransferAccount}

/-- An apply leaves the representations in agreement exactly where it finds the total it read. -/
theorem apply_synced_iff {keys : ConfidentialKeys}
    {snapshot found applied : ConfidentialTransferAccount}
    (executes : Executes sdk cluster keys snapshot .apply found applied) :
    Synced keys applied ↔ Overlap.total snapshot = Overlap.total found := by
  obtain ⟨-, moved, -, sum, decrypted, read⟩ := executes.apply_effect
  unfold Overlap.total
  constructor
  · rintro ⟨amount, decrypted', same⟩
    have amounts : sum = amount := Option.some.inj (decrypted.symm.trans decrypted')
    omega
  · intro same
    exact ⟨sum, decrypted, by omega⟩

/-- Any step but an apply keeps the representations in agreement. -/
theorem SharedStep.agreed (honest : Honest sdk cluster)
    (step : SharedStep sdk cluster owner mint may seen account account')
    (calm : ∀ payer, ¬may (.applyPending payer owner mint))
    (agreed : Agreed owner.confidentialKeys account) : Agreed owner.confidentialKeys account' := by
  intro extension held
  cases step with
  | configure called approved =>
    obtain rfl := Option.some.inj held
    exact Overlap.newAccount_keyed owner.confidentialKeys approved
  | deposit called deposited =>
    obtain rfl := Option.some.inj held
    obtain ⟨keyed, synced⟩ := agreed _ rfl
    obtain ⟨-, credited⟩ := ConfidentialTransferAccount.deposit_some deposited
    exact ⟨credit_keyed keyed credited, (credit_synced credited).mpr synced⟩
  | receive called carries bound received =>
    obtain rfl := Option.some.inj held
    obtain ⟨keyed, synced⟩ := agreed _ rfl
    obtain ⟨transfer, -, credited⟩ := ConfidentialTransferAccount.transferIn_some received
    exact ⟨credit_keyed keyed credited, (credit_synced credited).mpr synced⟩
  | execute called sets saw executes =>
    obtain rfl := Option.some.inj held
    obtain ⟨keyed, synced⟩ := agreed _ rfl
    cases sets with
    | apply => exact absurd called (calm _)
    | withdraw =>
      obtain ⟨still, -⟩ := Overlap.spend_effect honest (by simp) keyed executes
      exact ⟨executes.keyed keyed, still⟩
    | transfer =>
      obtain ⟨still, -⟩ := Overlap.spend_effect honest (by simp) keyed executes
      exact ⟨executes.keyed keyed, still⟩

/-- Several steps that no apply is among keep the agreement of the owner's balance. -/
theorem SharedSteps.agreed (honest : Honest sdk cluster)
    (steps : SharedSteps sdk cluster owner mint may seen account account')
    (calm : ∀ payer, ¬may (.applyPending payer owner mint))
    (agreed : Agreed owner.confidentialKeys account) : Agreed owner.confidentialKeys account' := by
  induction steps with
  | refl => exact agreed
  | tail _ step ih => exact step.agreed honest calm ih

end Agreement

section Together

variable {ι : Type} [DecidableEq ι] {sdk : Sdk} {cluster : Cluster} {s : AppState} {port : Nat}
variable {jobs : ι → Job} {world world' : World} {trace : List (ι × Exchange Reply)}
variable {pool : ι → Client Answer} {owner : Wallet} {mint : Pubkey}

/-- What every landed transaction keeps, of those so far and the ledger they lead to, holds of any
first part of them. -/
theorem landed_induction {start ledger : Ledger} {reached landed : List Transaction}
    (within : reached <+: landed) (ran : start.execTransactions cluster reached = some ledger)
    (property : List Transaction → Ledger → Prop) (first : property [] start)
    (step : ∀ earlier later transaction before after, landed = earlier ++ transaction :: later →
      start.execTransactions cluster earlier = some before → property earlier before →
        before.execTransaction cluster transaction = some after →
          property (earlier ++ [transaction]) after) :
    property reached ledger := by
  obtain ⟨later, split⟩ := within
  induction reached using List.reverseRecOn generalizing later ledger with
  | nil =>
    obtain rfl := Option.some.inj ran
    exact first
  | append_singleton earlier transaction ih =>
    rw [Ledger.execTransactions_append] at ran
    obtain ⟨before, ranBefore, last⟩ := Option.bind_eq_some_iff.mp ran
    obtain ⟨after, executed, same⟩ := Option.bind_eq_some_iff.mp last
    obtain rfl := Option.some.inj same
    have regrouped : earlier ++ transaction :: later = landed := by
      rw [← split, List.append_assoc, List.singleton_append]
    have kept := ih ranBefore (transaction :: later) regrouped
    exact step earlier later transaction before after regrouped.symm ranBefore kept executed

/-- A landed transaction keeps the representations in agreement, if each apply that it may be finds
the total it was computed from. -/
theorem Performed.agreed (honest : Honest sdk cluster) {role : Role}
    {past : List (Exchange Reply)} {seen : Ledger → Prop}
    {before after : Ledger} {transaction : Transaction}
    (did : Performed sdk cluster role past seen before after transaction)
    (landed : before.execTransaction cluster transaction = some after)
    (agreed : Agreed owner.confidentialKeys
      (before.confidential? (getAssociatedTokenAddress owner.pubkey mint)))
    (current : ∀ payer read snapshot found applied, role.may (.applyPending payer owner mint) →
      seen read → read.confidential? (getAssociatedTokenAddress owner.pubkey mint) = some snapshot →
        before.confidential? (getAssociatedTokenAddress owner.pubkey mint) = some found →
          after.confidential? (getAssociatedTokenAddress owner.pubkey mint) = some applied →
            Executes sdk cluster owner.confidentialKeys snapshot .apply found applied →
              Overlap.total snapshot = Overlap.total found) :
    Agreed owner.confidentialKeys
      (after.confidential? (getAssociatedTokenAddress owner.pubkey mint)) := by
  cases did with
  | quiet still => rwa [Ledger.confidential?_congr (still_untouched still landed _)]
  | opens several opens => rwa [opens.confidential? landed]
  | @carries call called read saw knew achieved =>
    by_cases applies : ∃ payer, call = .applyPending payer owner mint
    · obtain ⟨payer, rfl⟩ := applies
      obtain ⟨snapshot, found, applied, amount, held, executes, changes⟩ := achieved
      obtain ⟨keyed, -⟩ := agreed found changes.start
      have same := current payer read snapshot found applied called saw held changes.start
        changes.finish executes
      intro extension finished
      obtain rfl := Option.some.inj (changes.finish.symm.trans finished)
      exact ⟨executes.keyed keyed, (apply_synced_iff executes).mpr same⟩
    · have steps : SharedSteps sdk cluster owner mint (· = call) (fun _ => True)
          (before.confidential? (getAssociatedTokenAddress owner.pubkey mint))
          (after.confidential? (getAssociatedTokenAddress owner.pubkey mint)) :=
        achieved.shared rfl fun _ _ => trivial
      exact steps.agreed honest (fun payer same => applies ⟨payer, same.symm⟩) agreed

/-- The calls that any of the jobs may make. -/
def MayCall (s : AppState) (jobs : ι → Job) (call : Operation) : Prop :=
  ∃ thread, ((jobs thread).role s).may call

/-- However any jobs interleave: the two representations of an owner's balance agree in every ledger
on the way exactly if no apply of that account lands on another total than it was computed from. -/
theorem agreement_iff (honest : Honest sdk cluster)
    (run : RunTogether sdk cluster s port jobs world trace world' pool)
    (agreed : Agreed owner.confidentialKeys
      (world.ledger.confidential? (getAssociatedTokenAddress owner.pubkey mint))) :
    (∀ ledger, WasAt cluster world.ledger (carried (trace.map Prod.snd)) ledger →
      Agreed owner.confidentialKeys
        (ledger.confidential? (getAssociatedTokenAddress owner.pubkey mint))) ↔
    ¬StaleApply sdk cluster owner mint (MayCall s jobs) world.ledger
      (carried (trace.map Prod.snd)) := by
  constructor
  · rintro always ⟨called, split, ran, executed, saw, held, finds, leaves, executes, stale⟩
    rename_i earlier later transaction payer read before after snapshot found applied
    have reached : WasAt cluster world.ledger (carried (trace.map Prod.snd)) after := by
      refine ⟨earlier ++ [transaction], ⟨later, by simp [split]⟩, ?_⟩
      rw [Ledger.execTransactions_append, ran]
      simp [Ledger.execTransactions, executed]
    obtain ⟨-, synced⟩ := always after reached applied leaves
    exact stale ((apply_synced_iff executes).mp synced)
  · intro none ledger was
    obtain ⟨reached, within, reaches⟩ := was
    refine landed_induction within reaches (fun _ ledger => Agreed owner.confidentialKeys
      (ledger.confidential? (getAssociatedTokenAddress owner.pubkey mint))) agreed ?_
    intro earlier later transaction before after split ran kept executed
    obtain ⟨thread, past, after', executed', did⟩ := run.performed honest split ran
    obtain rfl := Option.some.inj (executed.symm.trans executed')
    refine did.agreed honest executed kept ?_
    intro payer read snapshot found applied called saw held finds leaves executes
    by_contra stale
    exact none ⟨⟨thread, called⟩, split, ran, executed, saw, held, finds, leaves, executes, stale⟩

/-- The demo's receiver starts with representations that agree. -/
theorem demo_agreed : Agreed AppState.demo.keys.receiver.confidentialKeys
    ((World.demo 0 5).ledger.confidential?
      (getAssociatedTokenAddress AppState.demo.keys.receiver.pubkey AppState.demo.mint)) := by
  intro extension held
  obtain rfl := Option.some.inj held
  exact ⟨⟨rfl, rfl, rfl, rfl⟩, by decide +kernel⟩

/-- A transfer in turns with the receiver's apply: what is applied was not there yet when the
transfer landed, and the receiver's representations agree at the end. -/
theorem agreement_iff_demo : Agreed AppState.demo.keys.receiver.confidentialKeys
    ((demoTogether 120).2.1.ledger.confidential?
      (getAssociatedTokenAddress AppState.demo.keys.receiver.pubkey AppState.demo.mint)) := by
  have ended : WasAt Cluster.ideal (World.demo 0 5).ledger
      (carried ((demoTogether 120).1.map Prod.snd)) (demoTogether 120).2.1.ledger :=
    ⟨_, List.prefix_rfl, (demoTogether_runs 120).recorded.ledger⟩
  refine (agreement_iff honest_ideal (demoTogether_runs 120) demo_agreed).mpr ?_ _ ended
  -- Before the last of the transactions, the transfer itself, the receiver has nothing.
  have count : (carried ((demoTogether 120).1.map Prod.snd)).length = 6 := by decide +kernel
  have nothing : ∀ k < 6, ∀ ledger ∈ (World.demo 0 5).ledger.execTransactions Cluster.ideal
      ((carried ((demoTogether 120).1.map Prod.snd)).take k), ∀ extension ∈ ledger.confidential?
        (getAssociatedTokenAddress AppState.demo.keys.receiver.pubkey AppState.demo.mint),
          Overlap.total extension = 0 := by decide +kernel
  rintro ⟨-, split, ran, -, ⟨first, ⟨second, whole⟩, reads⟩, held, finds, -, -, stale⟩
  rw [split, List.length_append, List.length_cons] at count
  rw [split] at nothing
  subst whole
  have found := nothing (first ++ second).length (by omega) _ (by rwa [List.take_left]) _ finds
  have read := nothing first.length (by simp at count ⊢; omega) _ (by simpa using reads) _ held
  exact stale (read.trans found.symm)

end Together

end ConfidentialBalances
