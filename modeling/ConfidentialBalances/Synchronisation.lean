import ConfidentialBalances.OperationEffects

/-!
# The two representations of the available balance

Sequences of calls that do not overlap, by any wallets and with any failures,
seen from one account: they refine a small machine whose steps configure, credit
and execute the owner's tasks. In it the AES balance never parts from the
ElGamal balance, and every task that lands brings them together again.
-/

namespace ConfidentialBalances

open Effect Relation

section Machine

variable (sdk : Sdk) (cluster : Cluster)

/-- What may happen to one owner's account when calls do not overlap. -/
inductive AccountStep (keys : ConfidentialKeys) :
    Option ConfidentialTransferAccount → Option ConfidentialTransferAccount → Prop
  /-- The owner configures it. -/
  | configure (approved : Bool) : AccountStep keys none
      (some (.configured approved keys.elgamal.pubkey (keys.aes.encrypt 0)
        maxPendingBalanceCreditCounter))
  /-- The owner deposits. -/
  | deposit {account account' : ConfidentialTransferAccount} {amount : Nat}
      (deposited : account.deposit amount = some account') :
      AccountStep keys (some account) (some account')
  /-- A confidential transfer comes in. -/
  | receive {account account' : ConfidentialTransferAccount} {transfer : TransferAmount}
      {amount : Nat} (carries : transfer.Carries amount) (bound : amount < 2 ^ 48)
      (received : account.transferIn (.validity transfer) = some account') :
      AccountStep keys (some account) (some account')
  /-- The owner executes a task computed from the account as it is. -/
  | execute {account account' : ConfidentialTransferAccount} {task : Task}
      (executes : Executes sdk cluster keys account task account account') :
      AccountStep keys (some account) (some account')

/-- What may happen to the world, seen from one account, when calls do not overlap. -/
inductive WorldStep (account : Pubkey) : World → World → Prop
  /-- Anyone makes a call of the library, which succeeds, fails or stops anywhere. -/
  | call {world world' : World} (operation : Operation) {program' : Client (List Signature)}
      (run : (chainSystem cluster).Reaches world (operation.program sdk) world' program') :
      WorldStep account world world'
  /-- Another client's transfer credits the account. -/
  | credit {world world' : World} {extension extension' : ConfidentialTransferAccount}
      {transfer : TransferAmount} {amount : Nat} (carries : transfer.Carries amount)
      (bound : amount < 2 ^ 48) (held : world.ledger.confidential? account = some extension)
      (received : extension.transferIn (.validity transfer) = some extension')
      (credited : world'.ledger.confidential? account = some extension') :
      WorldStep account world world'
  /-- Anything happens elsewhere. -/
  | elsewhere {world world' : World}
      (same : world'.ledger.confidential? account = world.ledger.confidential? account) :
      WorldStep account world world'

end Machine

section Refinement

variable {sdk : Sdk} {cluster : Cluster}

/-- Only the owner's address for the mint is the owner's account. -/
theorem getAssociatedTokenAddress_inj {owner owner' mint mint' : Pubkey} :
    getAssociatedTokenAddress owner mint = getAssociatedTokenAddress owner' mint' ↔
      owner = owner' ∧ mint = mint' := by
  simp [getAssociatedTokenAddress]

/-- What a call achieves is a sequence of steps of each owner's account. -/
theorem Operation.Achieved.refines {operation : Operation} {before after : Ledger}
    (achieved : operation.Achieved sdk cluster before after) (owner : Wallet) (mint : Pubkey) :
    ReflTransGen (AccountStep sdk cluster owner.confidentialKeys)
      (before.confidential? (getAssociatedTokenAddress owner.pubkey mint))
      (after.confidential? (getAssociatedTokenAddress owner.pubkey mint)) := by
  -- A change of one account is a step of the owner whose account it is, and none of the others.
  have change {first second : Ledger} {owner' : Pubkey} {mint' : Pubkey}
      {extension extension' : ConfidentialTransferAccount} {amount amount' : Nat}
      (changes : first.Changes second (getAssociatedTokenAddress owner' mint') extension extension'
        amount amount')
      (step : owner' = owner.pubkey → AccountStep sdk cluster owner.confidentialKeys
        (some extension) (some extension')) :
      ReflTransGen (AccountStep sdk cluster owner.confidentialKeys)
        (first.confidential? (getAssociatedTokenAddress owner.pubkey mint))
        (second.confidential? (getAssociatedTokenAddress owner.pubkey mint)) := by
    by_cases here : getAssociatedTokenAddress owner.pubkey mint =
        getAssociatedTokenAddress owner' mint'
    · rw [here, changes.start, changes.finish]
      exact .single (step (getAssociatedTokenAddress_inj.mp here).1.symm)
    · rw [changes.other here]
  cases operation with
  | configure payer authority mint' =>
    obtain ⟨token, approved, held, unconfigured, written, others⟩ := achieved
    by_cases here : getAssociatedTokenAddress owner.pubkey mint =
        getAssociatedTokenAddress authority.pubkey mint'
    · obtain ⟨same, rfl⟩ := getAssociatedTokenAddress_inj.mp here
      obtain rfl := (Wallet.pubkey_inj _ _).mp same
      simp only [Ledger.confidential?, held, written, Option.bind_eq_bind, Option.bind_some,
        unconfigured]
      exact .single (.configure approved)
    · rw [Ledger.confidential?_congr (others _ here)]
  | deposit payer authority mint' amount decimals =>
    obtain ⟨extension, extension', amount', deposited, -, changes⟩ := achieved
    exact change changes fun _ => .deposit deposited
  | applyPending payer authority mint' =>
    obtain ⟨extension, extension', amount', executes, changes⟩ := achieved
    exact change changes fun same => .execute ((Wallet.pubkey_inj _ _).mp same ▸ executes)
  | withdraw payer authority mint' amount decimals =>
    obtain ⟨extension, extension', amount', executes, changes⟩ := achieved
    exact change changes fun same => .execute ((Wallet.pubkey_inj _ _).mp same ▸ executes)
  | transfer payer sender mint' recipient amount progress =>
    obtain ⟨middle, extension, extension', amount', recipientPubkey, auditor, executes, out,
      transfer, received, received', received'', carries, bound, receives, into, -⟩ := achieved
    have debit := change out fun same =>
      .execute ((Wallet.pubkey_inj _ _).mp same ▸ executes)
    exact debit.trans (change into fun _ => .receive carries bound receives)

/-- A step of the world is a sequence of steps of each owner's account. -/
theorem WorldStep.refines (honest : Honest sdk cluster) {owner : Wallet} {mint : Pubkey}
    {world world' : World}
    (step : WorldStep sdk cluster (getAssociatedTokenAddress owner.pubkey mint) world world') :
    ReflTransGen (AccountStep sdk cluster owner.confidentialKeys)
      (world.ledger.confidential? (getAssociatedTokenAddress owner.pubkey mint))
      (world'.ledger.confidential? (getAssociatedTokenAddress owner.pubkey mint)) := by
  cases step with
  | call operation run =>
    rcases Operation.reaches_achieved honest run with same | achieved
    · rw [Ledger.confidential?_congr (same _)]
    · exact achieved.refines owner mint
  | credit carries bound held received credited =>
    rw [held, credited]
    exact .single (.receive carries bound received)
  | elsewhere same => rw [same]

/-- A sequence of steps of the world is a sequence of steps of each owner's account. -/
theorem worldSteps_refine (honest : Honest sdk cluster) {owner : Wallet} {mint : Pubkey}
    {world world' : World} (steps : ReflTransGen
      (WorldStep sdk cluster (getAssociatedTokenAddress owner.pubkey mint)) world world') :
    ReflTransGen (AccountStep sdk cluster owner.confidentialKeys)
      (world.ledger.confidential? (getAssociatedTokenAddress owner.pubkey mint))
      (world'.ledger.confidential? (getAssociatedTokenAddress owner.pubkey mint)) := by
  induction steps with
  | refl => exact .refl
  | tail _ step ih => exact ih.trans (step.refines honest)

/-- Calls with the ideal proof system are steps of the world. -/
theorem idealWorld_steps (account : Pubkey) (operations : List Operation) (world : World) :
    ReflTransGen (WorldStep Sdk.ideal Cluster.ideal account) world
      (Operation.idealWorld operations world) := by
  induction operations generalizing world with
  | nil => exact .refl
  | cons operation rest ih =>
    exact .head (.call operation (Operation.ideal_ends rfl)) (ih _)

/-- What every step of the account machine preserves holds after every sequence of steps. -/
theorem accountSteps_preserve {keys : ConfidentialKeys}
    {property : ConfidentialTransferAccount → Prop}
    (preserved : ∀ state state', AccountStep sdk cluster keys state state' →
      (∀ account, state = some account → property account) →
        ∀ account, state' = some account → property account)
    {state state' : Option ConfidentialTransferAccount}
    (steps : ReflTransGen (AccountStep sdk cluster keys) state state')
    (start : ∀ account, state = some account → property account) :
    ∀ account, state' = some account → property account := by
  induction steps with
  | refl => exact start
  | tail _ step ih => exact preserved _ _ step ih

/-- Every step keeps the two representations in agreement. -/
theorem accountStep_synced (honest : Honest sdk cluster) {keys : ConfidentialKeys}
    (state state' : Option ConfidentialTransferAccount)
    (step : AccountStep sdk cluster keys state state')
    (synced : ∀ account, state = some account → Synced keys account) :
    ∀ account, state' = some account → Synced keys account := by
  intro account same
  cases step with
  | configure approved =>
    obtain rfl := Option.some.inj same
    exact ⟨0, AeCiphertext.decrypt_encrypt _ _, rfl⟩
  | deposit deposited =>
    obtain rfl := Option.some.inj same
    obtain ⟨-, credited⟩ := ConfidentialTransferAccount.deposit_some deposited
    exact (credit_synced credited).mpr (synced _ rfl)
  | receive carries bound received =>
    obtain rfl := Option.some.inj same
    obtain ⟨transfer, -, credited⟩ := ConfidentialTransferAccount.transferIn_some received
    exact (credit_synced credited).mpr (synced _ rfl)
  | execute executes =>
    obtain rfl := Option.some.inj same
    exact executes.synced honest

end Refinement

/-! ## Whole calls -/

section Calls

variable {sdk : Sdk} {cluster : Cluster} {world world' : World} {sigs : List Signature}
variable {owner : Wallet} {mint : Pubkey}

/-- A completed call took one account from here to there, with these balances. -/
def Settles (keys : ConfidentialKeys) (account : Pubkey) (world world' : World)
    (balance : ConfidentialTransferAccount → ℤ) : Prop :=
  ∃ extension extension', world.ledger.confidential? account = some extension ∧
    world'.ledger.confidential? account = some extension' ∧
    Synced keys extension' ∧ extension'.availableBalance.amount = balance extension

/-- A completed apply ends in sync, whatever it started from. -/
theorem applyPending_settles (honest : Honest sdk cluster) {payer : Wallet}
    (ended : (chainSystem cluster).Ends world
      ((Operation.applyPending payer owner mint).program sdk) (.ok sigs) world') :
    Settles owner.confidentialKeys (getAssociatedTokenAddress owner.pubkey mint) world world'
      fun extension => extension.availableBalance.amount + extension.pendingAmount := by
  obtain ⟨extension, extension', amount, executes, changes⟩ :=
    Operation.ends_achieved honest ended
  obtain ⟨-, moved, -⟩ := executes.apply_effect
  exact ⟨extension, extension', changes.start, changes.finish, executes.synced honest, moved⟩

/-- A completed withdraw ends in sync, whatever it started from. -/
theorem withdraw_settles (honest : Honest sdk cluster) {payer : Wallet} {amount decimals : Nat}
    (ended : (chainSystem cluster).Ends world
      ((Operation.withdraw payer owner mint amount decimals).program sdk) (.ok sigs) world') :
    Settles owner.confidentialKeys (getAssociatedTokenAddress owner.pubkey mint) world world'
      fun extension => extension.availableBalance.amount - amount := by
  obtain ⟨extension, extension', amount', executes, changes⟩ :=
    Operation.ends_achieved honest ended
  obtain ⟨taken, -⟩ := executes.withdraw_effect
  exact ⟨extension, extension', changes.start, changes.finish, executes.synced honest, taken⟩

/-- A completed transfer started in sync and ends in sync. -/
theorem transfer_settles (honest : Honest sdk cluster) {payer : Wallet} {recipient : Pubkey}
    {amount : Nat} {progress : ProgressSink}
    (ended : (chainSystem cluster).Ends world
      ((Operation.transfer payer owner mint recipient amount progress).program sdk) (.ok sigs)
        world') :
    (∀ extension, world.ledger.confidential? (getAssociatedTokenAddress owner.pubkey mint) =
      some extension → Synced owner.confidentialKeys extension) ∧
    Settles owner.confidentialKeys (getAssociatedTokenAddress owner.pubkey mint) world world'
      fun extension => extension.availableBalance.amount - amount := by
  obtain ⟨middle, extension, debited, amount', recipientPubkey, auditor, executes, out, transfer,
    received, credited, amount'', carries, bound, receives, into, -⟩ :=
    Operation.ends_achieved honest ended
  obtain ⟨-, synced, taken, -⟩ := executes.transfer_effect honest
  refine ⟨fun held same => ?_, ?_⟩
  · obtain rfl : extension = held := Option.some.inj (out.start.symm.trans same)
    exact synced
  · by_cases self : getAssociatedTokenAddress owner.pubkey mint =
        getAssociatedTokenAddress recipient mint
    · -- The sender is the recipient: the credit leaves the available balance alone.
      have between := into.start
      rw [← self, out.finish] at between
      obtain rfl := Option.some.inj between
      obtain ⟨_, -, credit⟩ := ConfidentialTransferAccount.transferIn_some receives
      obtain ⟨-, available⟩ := ConfidentialTransferAccount.credit_some credit
      refine ⟨extension, credited, out.start, self ▸ into.finish,
        (credit_synced credit).mpr (executes.synced honest), ?_⟩
      rw [available]
      exact taken
    · exact ⟨extension, debited, out.start, (into.other self).trans out.finish,
        executes.synced honest, taken⟩

/-- Over calls that do not overlap, the AES balance agrees with the ElGamal balance in every state
reachable from before the account was configured. From any state at all, a completed apply and a
completed withdraw make them agree, and a transfer completes only where they agree. -/
theorem synchronisation (sdk : Sdk) (cluster : Cluster) (honest : Honest sdk cluster)
    (owner : Wallet) (mint : Pubkey) :
    (∀ world world',
      world.ledger.confidential? (getAssociatedTokenAddress owner.pubkey mint) = none →
      ReflTransGen (WorldStep sdk cluster (getAssociatedTokenAddress owner.pubkey mint)) world
        world' →
      ∀ extension, world'.ledger.confidential? (getAssociatedTokenAddress owner.pubkey mint) =
        some extension → Synced owner.confidentialKeys extension) ∧
    (∀ payer world world' sigs, (chainSystem cluster).Ends world
        ((Operation.applyPending payer owner mint).program sdk) (.ok sigs) world' →
      Settles owner.confidentialKeys (getAssociatedTokenAddress owner.pubkey mint) world world'
        fun extension => extension.availableBalance.amount + extension.pendingAmount) ∧
    (∀ payer amount decimals world world' sigs, (chainSystem cluster).Ends world
        ((Operation.withdraw payer owner mint amount decimals).program sdk) (.ok sigs) world' →
      Settles owner.confidentialKeys (getAssociatedTokenAddress owner.pubkey mint) world world'
        fun extension => extension.availableBalance.amount - amount) ∧
    ∀ payer recipient amount progress world world' sigs, (chainSystem cluster).Ends world
        ((Operation.transfer payer owner mint recipient amount progress).program sdk) (.ok sigs)
          world' →
      (∀ extension, world.ledger.confidential? (getAssociatedTokenAddress owner.pubkey mint) =
        some extension → Synced owner.confidentialKeys extension) ∧
      Settles owner.confidentialKeys (getAssociatedTokenAddress owner.pubkey mint) world world'
        fun extension => extension.availableBalance.amount - amount := by
  refine ⟨fun world world' unconfigured steps => ?_, ?_, ?_, ?_⟩
  · refine accountSteps_preserve (accountStep_synced honest) (worldSteps_refine honest steps) ?_
    rw [unconfigured]
    intro account same
    contradiction
  · exact fun payer world world' sigs ended => applyPending_settles honest ended
  · exact fun payer amount decimals world world' sigs ended => withdraw_settles honest ended
  · exact fun payer recipient amount progress world world' sigs ended =>
      transfer_settles honest ended

/-- With the ideal proof system, an apply of a first deposit settles. -/
theorem synchronisation_ideal :
    Settles (⟨1⟩ : Wallet).confidentialKeys
      (getAssociatedTokenAddress (⟨1⟩ : Wallet).pubkey (.wallet ⟨3⟩))
      (Operation.idealWorld [.configure ⟨0⟩ ⟨1⟩ (.wallet ⟨3⟩), .deposit ⟨0⟩ ⟨1⟩ (.wallet ⟨3⟩) 4 0]
        (.unconfigured ⟨0⟩ ⟨1⟩ (.wallet ⟨3⟩) 5))
      (Operation.idealWorld [.configure ⟨0⟩ ⟨1⟩ (.wallet ⟨3⟩), .deposit ⟨0⟩ ⟨1⟩ (.wallet ⟨3⟩) 4 0,
        .applyPending ⟨0⟩ ⟨1⟩ (.wallet ⟨3⟩)] (.unconfigured ⟨0⟩ ⟨1⟩ (.wallet ⟨3⟩) 5))
      fun extension => extension.availableBalance.amount + extension.pendingAmount :=
  (synchronisation Sdk.ideal Cluster.ideal honest_ideal ⟨1⟩ (.wallet ⟨3⟩)).2.1 ⟨0⟩ _ _ [⟨2⟩]
    (Operation.ideal_ends (by decide +kernel))

end Calls

end ConfidentialBalances
