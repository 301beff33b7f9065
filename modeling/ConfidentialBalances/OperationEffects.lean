import ConfidentialBalances.Operations
import ConfidentialBalances.Tasks

/-!
# What each operation does to token accounts

Each operation has one transaction that writes token accounts. A run either has
landed it, with the effect stated here, or has left every token account as it
was; a run that returned a value has landed it.
-/

namespace ConfidentialBalances

open Effect

/-- Every token account is as it was. -/
def Ledger.Untouched (before after : Ledger) : Prop :=
  ∀ key, (after.data key).token? = (before.data key).token?

/-- One token account changed, in its confidential part and its public balance, and no other. -/
def Ledger.Changes (before after : Ledger) (account : Pubkey)
    (extension extension' : ConfidentialTransferAccount) (amount amount' : Nat) : Prop :=
  (∃ token : TokenAccount, (before.data account).token? = some token ∧ token.amount = amount ∧
    token.confidential = some extension ∧ (after.data account).token? =
      some { token with amount := amount', confidential := some extension' }) ∧
  ∀ key, key ≠ account → (after.data key).token? = (before.data key).token?

/-- The limbs of a transfer are those of an amount. -/
def TransferAmount.Carries (transfer : TransferAmount) (amount : Nat) : Prop :=
  transfer.lo.amount = ((amount % 2 ^ pendingBalanceLoBits : Nat) : ℤ) ∧
    transfer.hi.amount = ((amount / 2 ^ pendingBalanceLoBits : Nat) : ℤ)

namespace Ledger

variable {cluster : Cluster} {first second third fourth : Ledger} {account : Pubkey}
variable {extension extension' : ConfidentialTransferAccount} {amount amount' : Nat}

/-- Confidential parts are read from token accounts alone. -/
theorem confidential?_congr {key : Pubkey}
    (same : (second.data key).token? = (first.data key).token?) :
    second.confidential? key = first.confidential? key := by
  simp only [confidential?, same]

/-- A change between ledgers is a change between any that have the same token accounts. -/
theorem Changes.congr (changes : Changes second third account extension extension' amount amount')
    (start : Untouched first second) (finish : Untouched third fourth) :
    Changes first fourth account extension extension' amount amount' := by
  obtain ⟨⟨token, held, paid, confidential, written⟩, others⟩ := changes
  refine ⟨⟨token, ?_, paid, confidential, ?_⟩, fun key apart => ?_⟩
  · rw [← start, held]
  · rw [finish, written]
  · rw [finish, others key apart, start]

/-- What the changed account held at the start. -/
theorem Changes.start (changes : Changes first second account extension extension' amount amount') :
    first.confidential? account = some extension := by
  obtain ⟨⟨token, held, -, confidential, -⟩, -⟩ := changes
  simp [confidential?, held, confidential]

/-- What the changed account holds at the finish. -/
theorem Changes.finish
    (changes : Changes first second account extension extension' amount amount') :
    second.confidential? account = some extension' := by
  obtain ⟨⟨token, -, -, -, written⟩, -⟩ := changes
  simp [confidential?, written]

/-- Other accounts hold what they held. -/
theorem Changes.other (changes : Changes first second account extension extension' amount amount')
    {key : Pubkey} (apart : key ≠ account) :
    second.confidential? key = first.confidential? key :=
  confidential?_congr (changes.2 key apart)

/-- Writing a token account over a token account is a change. -/
theorem changes_setData {ledger : Ledger} {token : TokenAccount}
    (extension' : ConfidentialTransferAccount) (held : ledger.data account = .token token)
    (confidential : token.confidential = some extension) (amount' : Nat) :
    Changes ledger (ledger.setData account
      (.token { token with amount := amount', confidential := some extension' })) account extension
        extension' token.amount amount' := by
  refine ⟨⟨token, by simp [held], rfl, confidential, by simp⟩, fun key apart => ?_⟩
  simp [apart]

/-- A transaction of one instruction runs it once the fee is paid. -/
theorem execTransaction_single {instruction : Instruction} {payer : Pubkey} {signers : List Pubkey}
    (landed : first.execTransaction cluster ⟨[instruction], payer, signers⟩ = some second) :
    ∃ charged : Ledger, charged.data = first.data ∧
      charged.execInstruction cluster instruction = some second := by
  obtain ⟨-, -, ran⟩ := execTransaction_some landed
  obtain ⟨next, executed, last⟩ := Option.bind_eq_some_iff.mp ran
  obtain rfl := Option.some.inj last
  exact ⟨_, chargeFee_data _ _ _, executed⟩

end Ledger

/-! ## The operations' own effects -/

/-- What an operation does to token accounts when its one token transaction lands. -/
def Operation.Achieved (sdk : Sdk) (cluster : Cluster) (before after : Ledger) :
    Operation → Prop
  | .configure _ authority mint =>
    ∃ token : TokenAccount, ∃ approved : Bool,
      (before.data (getAssociatedTokenAddress authority.pubkey mint)).token? = some token ∧
      token.confidential = none ∧
      (after.data (getAssociatedTokenAddress authority.pubkey mint)).token? =
        some { token with
          extended := true
          confidential := some (.configured approved authority.confidentialKeys.elgamal.pubkey
            (authority.confidentialKeys.aes.encrypt 0) maxPendingBalanceCreditCounter) } ∧
      ∀ key, key ≠ getAssociatedTokenAddress authority.pubkey mint →
        (after.data key).token? = (before.data key).token?
  | .deposit _ authority mint amount _ =>
    ∃ extension extension' amount', extension.deposit amount = some extension' ∧
      amount ≤ amount' ∧
      before.Changes after (getAssociatedTokenAddress authority.pubkey mint) extension extension'
        amount' (amount' - amount)
  | .applyPending _ authority mint =>
    ∃ extension extension' amount',
      Executes sdk cluster authority.confidentialKeys extension .apply extension extension' ∧
      before.Changes after (getAssociatedTokenAddress authority.pubkey mint) extension extension'
        amount' amount'
  | .withdraw _ authority mint amount _ =>
    ∃ extension extension' amount',
      Executes sdk cluster authority.confidentialKeys extension (.withdraw amount) extension
        extension' ∧
      before.Changes after (getAssociatedTokenAddress authority.pubkey mint) extension extension'
        amount' (amount' + amount)
  | .transfer _ sender mint recipient amount _ =>
    ∃ middle extension extension' amount' recipientPubkey auditor,
      Executes sdk cluster sender.confidentialKeys extension
        (.transfer amount recipientPubkey auditor) extension extension' ∧
      before.Changes middle (getAssociatedTokenAddress sender.pubkey mint) extension extension'
        amount' amount' ∧
      ∃ transfer received received' received'', transfer.Carries amount ∧ amount < 2 ^ 48 ∧
        received.transferIn (.validity transfer) = some received' ∧
        middle.Changes after (getAssociatedTokenAddress recipient mint) received received'
          received'' received'' ∧ sdk.Generates cluster transfer

section Achieved

variable {sdk : Sdk} {cluster : Cluster} {world : World} {ledger ledger' : Ledger}

/-- Creating an associated account configures none. -/
theorem createAccountTransaction_confidential? {funder wallet mint payer : Pubkey}
    {signers : List Pubkey}
    (landed : ledger.execTransaction cluster
      ⟨[.createAssociatedTokenAccountIdempotent funder wallet mint], payer, signers⟩ =
        some ledger') (key : Pubkey) :
    ledger'.confidential? key = ledger.confidential? key := by
  obtain ⟨charged, same, executed⟩ := Ledger.execTransaction_single landed
  have paid : charged.confidential? key = ledger.confidential? key :=
    Ledger.confidential?_congr (by rw [same])
  rw [← paid]
  rcases Ledger.createAssociatedTokenAccountIdempotent_some executed with
      ⟨token, -, -, -, rfl⟩ | ⟨empty, -, -, rfl⟩
  · rfl
  · by_cases here : key = getAssociatedTokenAddress wallet mint
    · subst here
      simp [Ledger.confidential?, empty, AccountData.token?]
    · exact Ledger.confidential?_congr (by simp [here])

/-- A landed configuration configures the owner's account, under the key that its proof states. -/
theorem configureTransaction_configures {payer authority : Wallet} {mint : Pubkey}
    {proofData : List UInt8}
    (landed : ledger.execTransaction cluster
      (configureTransaction sdk cluster payer authority mint world proofData) = some ledger') :
    ∃ token : TokenAccount, ∃ approved : Bool, ∃ key,
      cluster.verify .pubkeyValidity proofData = some (.pubkeyValidity key) ∧
      (ledger.data (getAssociatedTokenAddress authority.pubkey mint)).token? = some token ∧
      token.confidential = none ∧
      (ledger'.data (getAssociatedTokenAddress authority.pubkey mint)).token? =
        some { token with
          extended := true
          confidential := some (.configured approved key
            (authority.confidentialKeys.aes.encrypt 0) maxPendingBalanceCreditCounter) } ∧
      ∀ other, other ≠ getAssociatedTokenAddress authority.pubkey mint →
        (ledger'.data other).token? = (ledger.data other).token? := by
  obtain ⟨extended, verified, reallocate, create, configure⟩ := configureTransaction_some landed
  obtain ⟨token, held, -, -, rfl⟩ := Ledger.reallocate_some reallocate
  obtain ⟨-, context, stated, created⟩ := createAndVerify_data create
  obtain ⟨token', state, settings, key, closer, proof, held', -, -, verifiedContext, -, -, -,
    unconfigured, rfl⟩ := Ledger.configureAccount_some configure
  have apart : getAssociatedTokenAddress authority.pubkey mint ≠ .generated world.generated := by
    simp [getAssociatedTokenAddress]
  -- The context was verified from the proof, the account was made room in.
  rw [created, Function.update_self] at verifiedContext
  obtain ⟨-, -, rfl⟩ := AccountData.proofContext.inj verifiedContext
  rw [created, Function.update_of_ne apart, Ledger.setData_data, Function.update_self] at held'
  obtain rfl := AccountData.token.inj held'
  refine ⟨token, settings.autoApproveNewAccounts, key, stated, by simpa using held, unconfigured,
    by simp, fun other elsewhere => ?_⟩
  refine Ledger.execTransaction_token? landed ?_
  simp [configureTransaction, configureInstructions, createAndVerify, Instruction.tokenWrites,
    elsewhere]

/-- A landed configuration configures the owner's account with the owner's key. -/
theorem configureTransaction_achieved (honest : Honest sdk cluster) {payer authority : Wallet}
    {mint : Pubkey} {proofData : List UInt8}
    (generated : sdk.buildPubkeyValidityProofData authority.confidentialKeys.elgamal =
      .ok proofData)
    (landed : ledger.execTransaction cluster
      (configureTransaction sdk cluster payer authority mint world proofData) = some ledger') :
    (Operation.configure payer authority mint).Achieved sdk cluster ledger ledger' := by
  obtain ⟨token, approved, key, stated, held, unconfigured, written, others⟩ :=
    configureTransaction_configures landed
  obtain rfl := ProofContext.pubkeyValidity.inj (honest.pubkeys _ _ _ generated stated)
  exact ⟨token, approved, held, unconfigured, written, others⟩

/-- A landed deposit credits the pending balance and debits the public one. -/
theorem depositTransaction_achieved {payer authority : Wallet} {mint : Pubkey}
    {amount decimals : Nat}
    (landed : ledger.execTransaction cluster
      (depositTransaction payer authority mint amount decimals) = some ledger') :
    (Operation.deposit payer authority mint amount decimals).Achieved sdk cluster ledger
      ledger' := by
  obtain ⟨charged, same, executed⟩ := Ledger.execTransaction_single landed
  obtain ⟨token, state, extension, credited, held, -, confidential, deposited, -, -, -, covered,
    rfl⟩ := Ledger.deposit_some executed
  refine ⟨extension, credited, token.amount, deposited, covered, ?_⟩
  exact (Ledger.changes_setData _ held confidential _).congr (fun key => by rw [same])
    fun key => rfl

/-- A landed apply of values computed from the account executes on it. -/
theorem applyPendingTransaction_achieved {payer authority : Wallet} {mint : Pubkey}
    {values : ApplyValues} {extension : ConfidentialTransferAccount}
    (held : ledger.confidential? (getAssociatedTokenAddress authority.pubkey mint) =
      some extension)
    (computed : applyPendingValues authority.confidentialKeys extension = .ok values)
    (landed : ledger.execTransaction cluster
      (applyPendingTransaction payer authority mint values) = some ledger') :
    (Operation.applyPending payer authority mint).Achieved sdk cluster ledger ledger' := by
  obtain ⟨charged, same, executed⟩ := Ledger.execTransaction_single landed
  obtain ⟨token, read, applied, data, confidential, accepted, -, rfl⟩ :=
    Ledger.applyPendingBalance_some executed
  have paid : ledger.Untouched charged := fun key => by rw [same]
  have changes := (Ledger.changes_setData applied data confidential token.amount).congr paid
    fun key => rfl
  obtain rfl : read = extension := Option.some.inj (changes.start.symm.trans held)
  exact ⟨read, applied, token.amount, .apply computed accepted, changes⟩

/-- After its first two transactions a withdraw has its two proofs verified. -/
theorem WithdrawRun.setup_data {run : WithdrawRun}
    (landed : ledger.execTransactions cluster
      [run.equalityTransaction sdk cluster, run.rangeTransaction sdk cluster] = some ledger') :
    (∃ equality, cluster.verify .ciphertextCommitmentEquality
        run.values.proofData.equalityProofData = some equality ∧
      (ledger'.data run.equalityAccount).context? = some equality) ∧
    ∃ range, cluster.verify .batchedRangeProofU64 run.values.proofData.rangeProofData =
        some range ∧
      (ledger'.data run.rangeAccount).context? = some range := by
  obtain ⟨first, ranFirst, restFirst⟩ := Option.bind_eq_some_iff.mp landed
  obtain ⟨second, ranSecond, last⟩ := Option.bind_eq_some_iff.mp restFirst
  obtain rfl := Option.some.inj last
  obtain ⟨-, -, verifiedFirst⟩ := Ledger.execTransaction_some ranFirst
  obtain ⟨-, -, verifiedSecond⟩ := Ledger.execTransaction_some ranSecond
  obtain ⟨-, equality, stated, firstData⟩ := createAndVerify_data verifiedFirst
  obtain ⟨-, range, rangeStated, secondData⟩ := createAndVerify_data verifiedSecond
  have apart : run.equalityAccount ≠ run.rangeAccount := by
    simp [WithdrawRun.equalityAccount, WithdrawRun.rangeAccount]
  refine ⟨⟨equality, stated, ?_⟩, range, rangeStated, ?_⟩
  · rw [secondData, Function.update_of_ne apart, Ledger.chargeFee_data, firstData,
      Function.update_self]
    rfl
  · rw [secondData, Function.update_self]
    rfl

/-- A landed withdraw of values computed from the account executes on it. -/
theorem withdrawTransaction_achieved {run : WithdrawRun} {extension : ConfidentialTransferAccount}
    {equality range : ProofContext}
    (held : ledger.confidential? (getAssociatedTokenAddress run.authority.pubkey run.mint) =
      some extension)
    (computed : withdrawValues sdk run.authority.confidentialKeys extension run.amount =
      .ok run.values)
    (stated : cluster.verify .ciphertextCommitmentEquality
      run.values.proofData.equalityProofData = some equality)
    (verified : (ledger.data run.equalityAccount).context? = some equality)
    (rangeStated : cluster.verify .batchedRangeProofU64 run.values.proofData.rangeProofData =
      some range)
    (rangeVerified : (ledger.data run.rangeAccount).context? = some range)
    (landed : ledger.execTransaction cluster run.withdrawTransaction = some ledger') :
    (Operation.withdraw run.payer run.authority run.mint run.amount run.decimals).Achieved sdk
      cluster ledger ledger' := by
  obtain ⟨charged, same, executed⟩ := Ledger.execTransaction_single landed
  obtain ⟨token, state, read, equality', range', withdrawn, data, -, confidential, context,
    rangeContext, accepted, -, -, -, rfl⟩ := Ledger.withdraw_some executed
  rw [same] at context rangeContext
  obtain rfl : equality = equality' := Option.some.inj (verified.symm.trans context)
  obtain rfl : range = range' := Option.some.inj (rangeVerified.symm.trans rangeContext)
  have paid : ledger.Untouched charged := fun key => by rw [same]
  have changes := (Ledger.changes_setData withdrawn data confidential
    (token.amount + run.amount)).congr paid fun key => rfl
  obtain rfl : read = extension := Option.some.inj (changes.start.symm.trans held)
  exact ⟨read, withdrawn, token.amount, .withdraw computed stated rangeStated accepted, changes⟩

/-- A landed transfer of a prepared and complete run executes on the sender's account and credits
the recipient's. -/
theorem transferTransaction_achieved (honest : Honest sdk cluster) {run : TransferRun}
    {recipientPubkey : ElGamalPubkey} {auditor : Option ElGamalPubkey} (progress : ProgressSink)
    (held : ledger.confidential? (getAssociatedTokenAddress run.sender.pubkey run.mint) =
      some run.snapshot)
    (generated : sdk.transferSplitProofData run.snapshot.availableBalance
      run.snapshot.decryptableAvailableBalance run.amount run.keys.elgamal run.keys.aes
      recipientPubkey auditor = .ok run.proofData)
    (prepared : run.Prepared cluster ledger)
    (landed : ledger.execTransaction cluster run.transferTransaction = some ledger') :
    (Operation.transfer run.payer run.sender run.mint run.recipient run.amount progress).Achieved
      sdk cluster ledger ledger' := by
  obtain ⟨transferred, executed, closed⟩ :=
    Ledger.execTransaction_head (by rfl) (by simp [Instruction.tokenWrites]) landed
  obtain ⟨equality, validity, range, middle, equalityHeld, validityHeld, rangeHeld, debit,
    credit⟩ := Ledger.innerTransfer_some executed
  obtain ⟨⟨equality', equalityStated, equalityData⟩, ⟨validity', validityStated, validityData⟩,
    ⟨range', rangeStated, rangeData⟩, -⟩ := prepared
  simp only [Ledger.chargeFee_data, equalityData, validityData, rangeData, AccountData.context?,
    Option.some.injEq] at equalityHeld validityHeld rangeHeld
  subst equalityHeld validityHeld rangeHeld
  obtain ⟨token, read, debited, data, confidential, accepted, -, -, rfl⟩ :=
    Ledger.transferOut_some debit
  obtain ⟨token', received, credited, data', confidential', receives, -, rfl⟩ :=
    Ledger.transferIn_some credit
  have paid : ledger.Untouched (ledger.chargeFee run.payer.pubkey
      (cluster.fee run.transferTransaction)) := fun key => rfl
  have out := (Ledger.changes_setData debited data confidential token.amount).congr paid
    fun key => rfl
  obtain rfl : read = run.snapshot := Option.some.inj (out.start.symm.trans held)
  have into := (Ledger.changes_setData credited data' confidential'
    token'.amount).congr (fun key => rfl) closed
  obtain ⟨plaintext, decrypted, covered, stated⟩ := honest.transfers _ _ _ _ _ _ _ _ generated
  obtain ⟨transfer, commitment, -, -, lo, hi, -, rfl, rfl, rfl⟩ :=
    stated _ _ _ equalityStated validityStated rangeStated
  have inRange : 0 ≤ transfer.hi.amount ∧ transfer.hi.amount < 2 ^ 32 :=
    honest.sound _ _ _ rangeStated (transfer.hi, 32) (by simp)
  have covers : transferNewDecryptable run.keys.aes run.snapshot.decryptableAvailableBalance
      run.amount = .ok run.newDecryptable := by
    have enough : ¬ plaintext < run.amount := by omega
    simp [transferNewDecryptable, TransferRun.newDecryptable, decrypted, okOr, bind, Except.bind,
      enough]
  refine ⟨_, run.snapshot, debited, token.amount, recipientPubkey, auditor,
    .transfer generated covers equalityStated validityStated rangeStated accepted, out, transfer,
    received, credited, token'.amount, ⟨lo, hi⟩, ?_, receives, into,
    _, _, _, _, _, _, _, _, generated, validityStated⟩
  rw [hi, pendingBalanceLoBits] at inRange
  omega

/-! ## Runs -/

/-- A beginning of a one-transaction plan is nothing or the whole of it. -/
theorem Ledger.execTransactions_alone {transaction : Transaction} {done rest : List Transaction}
    (split : done ++ rest = [transaction])
    (landed : ledger.execTransactions cluster done = some ledger') :
    rest ≠ [] ∧ ledger' = ledger ∨ ledger.execTransaction cluster transaction = some ledger' := by
  cases done with
  | nil =>
    obtain rfl := Option.some.inj landed
    obtain rfl : rest = [transaction] := split
    exact .inl ⟨by simp, rfl⟩
  | cons head tail =>
    obtain ⟨rfl, empty⟩ := List.cons.inj split
    obtain ⟨rfl, rfl⟩ := List.append_eq_nil_iff.mp empty
    obtain ⟨next, ran, last⟩ := Option.bind_eq_some_iff.mp landed
    obtain rfl := Option.some.inj last
    exact .inr ran

/-- What has landed of an operation has left every token account as it was, unless it includes
the operation's token transaction. -/
theorem Operation.landing (honest : Honest sdk cluster) {operation : Operation} {world' : World}
    {done rest : List Transaction}
    (planned : operation.Plans sdk cluster world (done ++ rest))
    (landed : Lands cluster world world' done) :
    rest ≠ [] ∧ world.ledger.Untouched world'.ledger ∨
      operation.Achieved sdk cluster world.ledger world'.ledger := by
  cases operation with
  | configure payer authority mint =>
    obtain ⟨proofData, generated, plan⟩ := planned
    rcases Ledger.execTransactions_alone plan landed.ledger with ⟨more, same⟩ | ran
    · exact .inl ⟨more, fun key => by rw [same]⟩
    · exact .inr (configureTransaction_achieved honest generated ran)
  | deposit payer authority mint amount decimals =>
    rcases Ledger.execTransactions_alone planned landed.ledger with ⟨more, same⟩ | ran
    · exact .inl ⟨more, fun key => by rw [same]⟩
    · exact .inr (depositTransaction_achieved ran)
  | applyPending payer authority mint =>
    obtain ⟨extension, values, held, computed, plan⟩ := planned
    rcases Ledger.execTransactions_alone plan landed.ledger with ⟨more, same⟩ | ran
    · exact .inl ⟨more, fun key => by rw [same]⟩
    · exact .inr (applyPendingTransaction_achieved held computed ran)
  | withdraw payer authority mint amount decimals =>
    obtain ⟨run, ⟨⟨rfl, rfl, rfl, rfl, rfl⟩, -, extension, held, computed⟩, plan⟩ := planned
    have parts : done ++ rest = [run.equalityTransaction sdk cluster,
        run.rangeTransaction sdk cluster] ++ run.withdrawTransaction ::
          [run.closeTransaction run.equalityAccount, run.closeTransaction run.rangeAccount] := plan
    have alone := Ledger.execTransactions_around parts
      (by simp [Ledger.TokenQuiet, WithdrawRun.equalityTransaction, WithdrawRun.rangeTransaction,
        createAndVerify, Instruction.tokenWrites])
      (by simp [Ledger.TokenQuiet, WithdrawRun.closeTransaction, Instruction.tokenWrites])
      landed.ledger
    rcases alone with ⟨⟨more, suffix⟩, same⟩ | ⟨first, second, setup, before, ran, after⟩
    · exact .inl ⟨by simp [← suffix], same⟩
    · obtain ⟨⟨equality, stated, verified⟩, range, rangeStated, rangeVerified⟩ :=
        WithdrawRun.setup_data setup
      obtain ⟨read, read', amount', executes, changes⟩ := withdrawTransaction_achieved
        ((Ledger.confidential?_congr (before _)).trans held) computed stated verified rangeStated
        rangeVerified ran
      exact .inr ⟨read, read', amount', executes, changes.congr before after⟩
  | transfer payer sender mint recipient amount progress =>
    obtain ⟨run, ⟨⟨rfl, rfl, rfl, rfl, rfl⟩, -, held, recipientExt, state, settings, -, -, -,
      generated⟩, plan⟩ := planned
    have split : done ++ rest = run.setupTransactions sdk cluster ++ [run.transferTransaction] :=
      plan
    have alone := Ledger.execTransactions_around split (run.setup_quiet sdk cluster) (by simp)
      landed.ledger
    rcases alone with ⟨⟨more, suffix⟩, same⟩ | ⟨first, second, setup, before, ran, after⟩
    · exact .inl ⟨by simp [← suffix], same⟩
    · obtain ⟨prepared, -⟩ := TransferRun.setup_data setup
      obtain ⟨middle, extension, extension', amount', recipientPubkey, auditor, executes, out,
        transfer, received, received', received'', carries, bound, receives, into, generated⟩ :=
        transferTransaction_achieved honest progress
          ((Ledger.confidential?_congr (before _)).trans held) generated prepared ran
      exact .inr ⟨middle, extension, extension', amount', recipientPubkey, auditor, executes,
        out.congr before fun key => rfl, transfer, received, received', received'', carries, bound,
        receives, into.congr (fun key => rfl) after, generated⟩

/-- Wherever a call stands, it has left every token account as it was or achieved its effect. -/
theorem Operation.reaches_achieved (honest : Honest sdk cluster) {operation : Operation}
    {world' : World} {program' : Client (List Signature)}
    (run : (chainSystem cluster).Reaches world (operation.program sdk) world' program') :
    world.ledger.Untouched world'.ledger ∨
      operation.Achieved sdk cluster world.ledger world'.ledger := by
  have partly := ((operation.submits sdk cluster world).reaches run).invariant
  rcases partly with quiet | ⟨done, rest, planned, landed⟩
  · exact .inl fun key => by rw [quiet.same_ledger]
  · rcases Operation.landing honest planned landed with ⟨-, same⟩ | achieved
    · exact .inl same
    · exact .inr achieved

/-- A call that returned a value has achieved its effect. -/
theorem Operation.ends_achieved (honest : Honest sdk cluster) {operation : Operation}
    {world' : World} {sigs : List Signature}
    (ended : (chainSystem cluster).Ends world (operation.program sdk) (.ok sigs) world') :
    operation.Achieved sdk cluster world.ledger world'.ledger := by
  obtain ⟨plan, planned, landed, -⟩ := (operation.submits sdk cluster world).ends ended
  have whole : operation.Plans sdk cluster world (plan ++ []) := by rwa [List.append_nil]
  rcases Operation.landing honest whole landed with ⟨more, -⟩ | achieved
  · exact absurd rfl more
  · exact achieved

end Achieved

end ConfidentialBalances
