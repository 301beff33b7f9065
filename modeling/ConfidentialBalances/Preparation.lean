import ConfidentialBalances.OperationEffects
import ConfidentialBalances.Sight

/-!
# What an init prepares

Before it funds the sender, `init_handler` makes sure of the mint and of both
token accounts. Whatever it finds half done, when this part returns the mint is
the demo's, an account that was configured is as it was, and one that was not is
freshly configured. Nothing has been minted or deposited yet.
-/

namespace ConfidentialBalances

open Effect

/-- A freshly configured account of an owner: empty, and under the owner's derived key where the
proof names it. -/
def Fresh (sdk : Sdk) (cluster : Cluster) (owner : Wallet)
    (extension : ConfidentialTransferAccount) : Prop :=
  ∃ approved key, extension = .configured approved key (owner.confidentialKeys.aes.encrypt 0)
      maxPendingBalanceCreditCounter ∧
    (sdk.StatesPubkeys cluster → key = owner.confidentialKeys.elgamal.pubkey)

/-- The account is configured, as it was before or freshly. -/
def Readied (sdk : Sdk) (cluster : Cluster) (owner : Wallet)
    (before after : Option ConfidentialTransferAccount) : Prop :=
  ∃ extension, after = some extension ∧
    (before = some extension ∨ before = none ∧ Fresh sdk cluster owner extension)

/-- The public balance at an address, nothing where there is no token account. -/
def Ledger.publicAmount (ledger : Ledger) (key : Pubkey) : Nat :=
  ((ledger.data key).token?).elim 0 TokenAccount.amount

namespace AppState

/-- What `ensure_confidential_account` does to the ledger. -/
structure Ensured (sdk : Sdk) (cluster : Cluster) (s : AppState) (owner : Wallet)
    (before after : Ledger) : Prop where
  /-- The mint is as it was. -/
  mint : after.data s.mint = before.data s.mint
  /-- Other token accounts are as they were. -/
  others : ∀ key, key ≠ s.tokenAccount owner → (after.data key).token? = (before.data key).token?
  /-- No public balance changed. -/
  amounts : ∀ key, after.publicAmount key = before.publicAmount key
  /-- The owner's account is readied. -/
  account : Readied sdk cluster owner (before.confidential? (s.tokenAccount owner))
    (after.confidential? (s.tokenAccount owner))

/-- What an init has prepared before it funds the sender. -/
structure Ready (sdk : Sdk) (cluster : Cluster) (s : AppState) (before after : Ledger) :
    Prop where
  /-- The mint is the demo's. -/
  mint : s.DemoMint after
  /-- The sender's account is readied. -/
  sender : Readied sdk cluster s.keys.sender
    (before.confidential? (s.tokenAccount s.keys.sender))
    (after.confidential? (s.tokenAccount s.keys.sender))
  /-- The receiver's account is configured. -/
  receiver : s.Configured after s.keys.receiver
  /-- The sender's public balance is as it was. -/
  publicBalance : s.publicBalance after s.keys.sender = s.publicBalance before s.keys.sender
  /-- What the demo reads as its available balance too. -/
  availableBalance :
    s.availableBalance after s.keys.sender = s.availableBalance before s.keys.sender

end AppState

/-- An account that is readied shows the available balance that it showed before. -/
theorem Readied.available {sdk : Sdk} {cluster : Cluster} {owner : Wallet}
    {before after : Option ConfidentialTransferAccount}
    (readied : Readied sdk cluster owner before after) :
    after.elim 0 (fun extension => (viewConfidential owner.confidentialKeys extension).2) =
      before.elim 0 fun extension => (viewConfidential owner.confidentialKeys extension).2 := by
  obtain ⟨extension, rfl, rfl | ⟨rfl, approved, key, rfl, -⟩⟩ := readied
  · rfl
  · simp [ConfidentialTransferAccount.configured]

section Preparation

variable {sdk : Sdk} {cluster : Cluster} {s : AppState} {start world : World}
variable {ledger ledger' : Ledger}

/-- The mint that an init creates is the demo's. -/
theorem createMintInstructions_demoMint {rent : Nat} {signers : List Pubkey}
    (landed : ledger.execTransaction cluster
      ⟨createMintInstructions sdk s rent, s.keys.payer.pubkey, signers⟩ = some ledger') :
    s.DemoMint ledger' := by
  obtain ⟨-, -, ran⟩ := Ledger.execTransaction_some landed
  obtain ⟨created, -, afterCreate⟩ := Option.bind_eq_some_iff.mp ran
  obtain ⟨extended, extend, afterExtend⟩ := Option.bind_eq_some_iff.mp afterCreate
  obtain ⟨minted, mint, last⟩ := Option.bind_eq_some_iff.mp afterExtend
  obtain rfl := Option.some.inj last
  obtain ⟨space, -, rfl⟩ := Ledger.initializeConfidentialTransferMint_some extend
  obtain ⟨settings, data, rfl⟩ := Ledger.initializeMint_some mint
  rw [Ledger.setData_data, Function.update_self] at data
  obtain rfl := AccountData.extendedMint.inj data
  exact ⟨_, _, Function.update_self _ _ _, rfl, rfl⟩

/-- Making sure of the mint touches no token account. -/
theorem ensureMint_prepares (here : Without Transaction.funds start world) :
    (chainSystem cluster).Serves (Without Transaction.funds start) (fun _ world' =>
      Without Transaction.funds start world' ∧ world.ledger.Untouched world'.ledger ∧
        s.DemoMint world'.ledger) (ensureMint sdk s) world := by
  have onChain := onChain_without Transaction.funds start
  refine (serves_quietly onChain here (quietly_mintExists _)).bind ?_
  rintro found after ⟨here, -, rfl⟩
  split
  · have creates : (chainSystem cluster).Serves (Without Transaction.funds start)
        (fun _ world' => Without Transaction.funds start world' ∧
          after.ledger.Untouched world'.ledger ∧ s.DemoMint world'.ledger)
        (createConfidentialMint sdk s) after := by
      refine (serves_quietly onChain here (quietly_getMinimumBalanceForRentExemption _)).bind ?_
      rintro rent after ⟨here, -, rfl, rfl⟩
      refine (without_submits here (follows_sendTx _ _ _) ?_).weaken ?_
      · rintro plan rfl transaction member
        obtain rfl := List.mem_singleton.mp member
        rfl
      · rintro sig world' ⟨here, plan, rfl, landed, -⟩
        refine ⟨here, fun key => ?_, createMintInstructions_demoMint landed.single⟩
        exact Ledger.execTransaction_token? landed.single
          (by simp [createMintInstructions, Instruction.tokenWrites])
    exact creates.bind fun sig world' holds => System.serves_pure holds.1 holds
  · refine (serves_quietly onChain here quietly_verifyMintMatches).bind ?_
    rintro ⟨⟩ world' ⟨here, -, rfl, demo⟩
    exact System.serves_pure here ⟨here, fun key => rfl, demo⟩

/-- A landed configuration readies the owner's account. -/
theorem configureTransaction_ensured {payer owner : Wallet} {proofData : List UInt8}
    (generated : sdk.buildPubkeyValidityProofData owner.confidentialKeys.elgamal = .ok proofData)
    (landed : ledger.execTransaction cluster
      (configureTransaction sdk cluster payer owner s.mint world proofData) = some ledger') :
    s.Ensured sdk cluster owner ledger ledger' := by
  obtain ⟨token, approved, key, stated, held, unconfigured, written, others⟩ :=
    configureTransaction_configures landed
  refine ⟨?_, others, fun other => ?_, _, ?_, .inr ⟨?_, approved, key, rfl, fun honest => ?_⟩⟩
  · refine Ledger.execTransaction_data landed ?_
    simp [configureTransaction, configureInstructions, createAndVerify, Instruction.writes,
      AppState.mint, Wallet.pubkey, getAssociatedTokenAddress]
  · unfold Ledger.publicAmount
    by_cases here : other = getAssociatedTokenAddress owner.pubkey s.mint
    · rw [here, written, held]
      rfl
    · rw [others other here]
  · simp [Ledger.confidential?, AppState.tokenAccount, written]
  · simp [Ledger.confidential?, AppState.tokenAccount, held, unconfigured]
  · exact ProofContext.pubkeyValidity.inj (honest _ _ _ generated stated)

/-- Creating an associated account leaves every public balance as it was. -/
theorem createAccountTransaction_publicAmount {funder wallet mint payer : Pubkey}
    {signers : List Pubkey}
    (landed : ledger.execTransaction cluster
      ⟨[.createAssociatedTokenAccountIdempotent funder wallet mint], payer, signers⟩ =
        some ledger') (key : Pubkey) : ledger'.publicAmount key = ledger.publicAmount key := by
  obtain ⟨charged, same, executed⟩ := Ledger.execTransaction_single landed
  have paid : charged.publicAmount key = ledger.publicAmount key := by
    simp only [Ledger.publicAmount, same]
  rw [← paid]
  rcases Ledger.createAssociatedTokenAccountIdempotent_some executed with
      ⟨token, -, -, -, rfl⟩ | ⟨empty, -, -, rfl⟩
  · rfl
  · by_cases here : key = getAssociatedTokenAddress wallet mint
    · subst here
      simp [Ledger.publicAmount, empty, AccountData.token?]
    · simp [Ledger.publicAmount, here]

/-- Creating the account first leaves it to be configured. -/
theorem AppState.Ensured.after_create {payer owner : Wallet} {signers : List Pubkey}
    {ledger'' : Ledger}
    (created : ledger.execTransaction cluster ⟨[.createAssociatedTokenAccountIdempotent payer.pubkey
      owner.pubkey s.mint], payer.pubkey, signers⟩ = some ledger')
    (ensured : s.Ensured sdk cluster owner ledger' ledger'') :
    s.Ensured sdk cluster owner ledger ledger'' := by
  obtain ⟨mint, others, amounts, account⟩ := ensured
  rw [createAccountTransaction_confidential? created] at account
  refine ⟨mint.trans ?_, fun key apart => (others key apart).trans ?_,
    fun key => (amounts key).trans (createAccountTransaction_publicAmount created key), account⟩
  · refine Ledger.execTransaction_data created ?_
    simp [Instruction.writes, AppState.mint, Wallet.pubkey, getAssociatedTokenAddress]
  · refine Ledger.execTransaction_token? created ?_
    simpa [Instruction.tokenWrites, AppState.tokenAccount] using apart

/-- A configured account is left as it is, with nothing to report, and another is created where it
has to be and configured. -/
theorem ensureConfidentialAccount_prepares (owner : Wallet)
    (here : Without Transaction.funds start world) :
    (chainSystem cluster).Serves (Without Transaction.funds start) (fun sigs world' =>
      Without Transaction.funds start world' ∧
        s.Ensured sdk cluster owner world.ledger world'.ledger ∧
        (sigs = [] → s.Configured world.ledger owner))
      (ensureConfidentialAccount sdk s owner) world := by
  refine (serves_quietly (onChain_without _ start) here (quietly_ataIsConfigured _)).bind ?_
  rintro found after ⟨here, -, rfl, configured⟩
  split
  · refine (without_submits here (follows_sendTx _ _ _) ?_).bind ?_
    · rintro plan rfl transaction member
      obtain rfl := List.mem_singleton.mp member
      rfl
    rintro created w1 ⟨here, plan, rfl, landed, -⟩
    refine ((without_submits here (configureAccountForConfidentialTransfers_submits sdk cluster
      _ _ _ _) ?_).mapError _).bind ?_
    · rintro plan ⟨proofData, -, rfl⟩ transaction member
      obtain rfl := List.mem_singleton.mp member
      rfl
    rintro configured w2 ⟨here, plan, ⟨proofData, generated, rfl⟩, landed', -⟩
    have ensured := (configureTransaction_ensured generated landed'.single).after_create
      landed.single
    exact System.serves_pure here ⟨here, ensured, by simp⟩
  · rename_i reported
    have isSome := configured (by simpa using reported)
    obtain ⟨extension, held⟩ := Option.isSome_iff_exists.mp isSome
    exact System.serves_pure here ⟨here, ⟨rfl, fun _ _ => rfl, fun _ => rfl, extension, held,
      .inl held⟩,
      fun _ => by simp [AppState.Configured, held]⟩

/-- A configured account stays as it is. -/
theorem AppState.Ensured.keeps {owner : Wallet} {key : Pubkey}
    {extension : ConfidentialTransferAccount}
    (ensured : s.Ensured sdk cluster owner ledger ledger')
    (held : ledger.confidential? key = some extension) :
    ledger'.confidential? key = some extension := by
  by_cases here : key = s.tokenAccount owner
  · subst here
    obtain ⟨found, after, before | ⟨none, -⟩⟩ := ensured.account
    · obtain rfl := Option.some.inj (before.symm.trans held)
      exact after
    · rw [held] at none
      contradiction
  · rw [Ledger.confidential?_congr (ensured.others key here), held]

/-- The mint and both accounts made sure of, one after the other, are ready. -/
theorem AppState.Ready.of_ensured {middle last : Ledger}
    (untouched : ledger.Untouched ledger') (mint : s.DemoMint ledger')
    (sender : s.Ensured sdk cluster s.keys.sender ledger' middle)
    (receiver : s.Ensured sdk cluster s.keys.receiver middle last) :
    s.Ready sdk cluster ledger last := by
  obtain ⟨state, settings, data, confidential, auditor⟩ := mint
  obtain ⟨extension, held, source⟩ := sender.account
  rw [Ledger.confidential?_congr (untouched _)] at source
  have readied : Readied sdk cluster s.keys.sender
      (ledger.confidential? (s.tokenAccount s.keys.sender))
      (last.confidential? (s.tokenAccount s.keys.sender)) :=
    ⟨extension, receiver.keeps held, source⟩
  refine ⟨⟨state, settings, ?_, confidential, auditor⟩, readied, ?_, ?_, readied.available⟩
  · rw [receiver.mint, sender.mint, data]
  · obtain ⟨other, found, -⟩ := receiver.account
    simp [AppState.Configured, found]
  · have start : ledger'.publicAmount (s.tokenAccount s.keys.sender) =
        ledger.publicAmount (s.tokenAccount s.keys.sender) := by
      simp only [Ledger.publicAmount, untouched _]
    exact (receiver.amounts _).trans ((sender.amounts _).trans start)

/-- Before it looks at the sender's balances, an init has made everything ready and has minted and
deposited nothing. -/
theorem initPrepare_serves :
    (chainSystem cluster).Serves (Without Transaction.funds world) (fun _ world' =>
      Without Transaction.funds world world' ∧ s.Ready sdk cluster world.ledger world'.ledger)
      (initPrepare sdk s) world := by
  refine (serves_quietly (onChain_without _ world) (.refl _ world)
    (quietly_requireFunds _ _ _ _)).bind ?_
  rintro ⟨⟩ after ⟨here, -, rfl⟩
  refine (ensureMint_prepares here).bind ?_
  rintro mintSigs w1 ⟨here, untouched, mint⟩
  refine (ensureConfidentialAccount_prepares _ here).bind ?_
  rintro senderSigs w2 ⟨here, sender, -⟩
  refine (ensureConfidentialAccount_prepares _ here).bind ?_
  rintro receiverSigs w3 ⟨here, receiver, -⟩
  exact System.serves_pure here ⟨here, .of_ensured untouched mint sender receiver⟩

/-- What holds while nothing has been minted or deposited, and keeps holding while an init goes on
from what it has prepared, holds all along. -/
theorem initHandler_serves {inv : World → Prop} {ok : ActionResponse → World → Prop}
    (before : ∀ world', Without Transaction.funds world world' → inv world')
    (after : ∀ sigs world', Without Transaction.funds world world' →
      s.Ready sdk cluster world.ledger world'.ledger → (chainSystem cluster).Serves inv ok
        (readAccountView s s.keys.sender >>= initRest s sigs) world') :
    (chainSystem cluster).Serves inv ok (initHandler sdk s) world := by
  have prepares : (chainSystem cluster).Serves inv (fun _ world' =>
      Without Transaction.funds world world' ∧ s.Ready sdk cluster world.ledger world'.ledger)
      (initPrepare sdk s) world :=
    System.Meets.weaken initPrepare_serves before fun _ _ _ post => post
  rw [initHandler_eq]
  refine System.Serves.catchPanic (prepares.bind ?_) _
  rintro sigs world' ⟨here, ready⟩
  exact after sigs world' here ready

end Preparation

/-! ## Preparing once more -/

/-- Since the start nothing was minted or deposited, and the accounts' data are what they were. -/
structure Undisturbed (start world : World) : Prop where
  /-- No landed transaction mints or deposits. -/
  without : Without Transaction.funds start world
  /-- The data are the same. -/
  data : world.ledger.data = start.ledger.data

section Again

variable {α : Type} {sdk : Sdk} {cluster : Cluster} {s : AppState} {start world : World}

/-- Nothing is disturbed at the start. -/
theorem Undisturbed.refl (start : World) : Undisturbed start start := ⟨.refl _ start, rfl⟩

/-- Whether something was disturbed shows on the chain. -/
theorem onChain_undisturbed (start : World) : OnChain (Undisturbed start) := by
  rintro world world' same landed ⟨without, data⟩
  exact ⟨onChain_without _ start _ _ same landed without, by rw [same, data]⟩

/-- A program whose only transaction the ledger rejects disturbs nothing and returns nothing. -/
theorem Undisturbed.rejects {plans : List Transaction → Prop}
    {mid : List Transaction → α → World → Prop} {program : Client α}
    (here : Undisturbed start world) (submits : Submits cluster plans mid program world)
    (rejected : ∀ plan, plans plan → ∃ transaction, plan = [transaction] ∧
      world.ledger.execTransaction cluster transaction = none) :
    (chainSystem cluster).Serves (Undisturbed start) (fun _ _ => False) program world := by
  have nothing {plan : List Transaction} {world' : World} (planned : plans plan)
      (landed : Lands cluster world world' plan) : False := by
    obtain ⟨transaction, rfl, none⟩ := rejected plan planned
    have ran := landed.single
    rw [none] at ran
    contradiction
  have single (plan : List Transaction) (planned : plans plan) : plan.length = 1 := by
    obtain ⟨transaction, rfl, -⟩ := rejected plan planned
    rfl
  refine (serves_submits submits ?_).weaken ?_
  · intro world' partly
    rcases partly.single single with quiet | ⟨transaction, planned, landed⟩
    · exact onChain_undisturbed start _ _ quiet.same_ledger quiet.same_landed here
    · exact (nothing planned landed).elim
  · rintro value world' ⟨plan, planned, landed, -⟩
    exact nothing planned landed

/-- A mint that exists is not created once more. -/
theorem ensureMint_again (here : Undisturbed start world)
    (held : start.ledger.data s.mint ≠ .empty) :
    (chainSystem cluster).Serves (Undisturbed start) (fun _ => Undisturbed start)
      (ensureMint sdk s) world := by
  have onChain := onChain_undisturbed start
  refine (serves_quietly onChain here (quietly_mintExists _)).bind ?_
  rintro found w1 ⟨here, -, -⟩
  split
  · have creates : (chainSystem cluster).Serves (Undisturbed start) (fun _ _ => False)
        (createConfidentialMint sdk s) w1 := by
      refine (serves_quietly onChain here (quietly_getMinimumBalanceForRentExemption _)).bind ?_
      rintro rent w2 ⟨here, -, -⟩
      refine here.rejects (follows_sendTx _ _ _) ?_
      rintro plan rfl
      refine ⟨_, rfl, Option.eq_none_iff_forall_ne_some.mpr fun ledger' landed => held ?_⟩
      obtain ⟨-, -, ran⟩ := Ledger.execTransaction_some landed
      obtain ⟨created, create, -⟩ := Option.bind_eq_some_iff.mp ran
      have unused := (Ledger.createAccount_some create).1
      rwa [Ledger.chargeFee_data, here.data] at unused
    exact creates.bind fun _ _ none => none.elim
  · refine (serves_quietly onChain here quietly_verifyMintMatches).bind ?_
    rintro ⟨⟩ w2 ⟨here, -⟩
    exact System.serves_pure here here

/-- An account that is configured is not configured once more. -/
theorem ensureConfidentialAccount_again {owner : Wallet} (here : Undisturbed start world)
    (configured : s.Configured start.ledger owner) :
    (chainSystem cluster).Serves (Undisturbed start) (fun _ => Undisturbed start)
      (ensureConfidentialAccount sdk s owner) world := by
  refine (serves_quietly (onChain_undisturbed start) here (quietly_ataIsConfigured _)).bind ?_
  rintro found w1 ⟨here, -, -⟩
  split
  · -- The account was not read: creating it changes nothing, and configuring it is rejected.
    have creates : (chainSystem cluster).Serves (Undisturbed start) (fun _ => Undisturbed start)
        (sendTx [.createAssociatedTokenAccountIdempotent s.keys.payer.pubkey owner.pubkey s.mint]
          [s.keys.payer.pubkey] s.keys.payer.pubkey) w1 := by
      have lands {w2 : World} (landed : Lands cluster w1 w2
          [⟨[.createAssociatedTokenAccountIdempotent s.keys.payer.pubkey owner.pubkey s.mint],
            s.keys.payer.pubkey, [s.keys.payer.pubkey]⟩]) : Undisturbed start w2 := by
        refine ⟨here.without.lands landed (by simp [Transaction.funds]), ?_⟩
        obtain ⟨charged, same, executed⟩ := Ledger.execTransaction_single landed.single
        rcases Ledger.createAssociatedTokenAccountIdempotent_some executed with
          ⟨token, -, -, -, rfl⟩ | ⟨unused, -, -, -⟩
        · rw [same, here.data]
        · rw [same, here.data] at unused
          unfold AppState.Configured at configured
          simp [Ledger.confidential?, AppState.tokenAccount, unused, AccountData.token?]
            at configured
      refine (serves_submits (follows_sendTx _ _ _) ?_).weaken ?_
      · intro w2 partly
        rcases partly.single (by rintro plan rfl; rfl) with quiet | ⟨transaction, planned, landed⟩
        · exact onChain_undisturbed start _ _ quiet.same_ledger quiet.same_landed here
        · obtain rfl := List.singleton_inj.mp planned
          exact lands landed
      · rintro created w2 ⟨plan, rfl, landed, -⟩
        exact lands landed
    refine creates.bind ?_
    intro created w2 here
    refine System.Serves.bind (System.Serves.mapError (here.rejects
      (configureAccountForConfidentialTransfers_submits sdk cluster _ _ _ _) ?_) _)
      fun _ _ none => none.elim
    rintro plan ⟨proofData, -, rfl⟩
    refine ⟨_, rfl, Option.eq_none_iff_forall_ne_some.mpr fun ledger' landed => ?_⟩
    obtain ⟨token, -, -, -, held, unconfigured, -⟩ := configureTransaction_configures landed
    unfold AppState.Configured at configured
    rw [here.data] at held
    simp [Ledger.confidential?, AppState.tokenAccount, held, unconfigured] at configured
  · exact System.serves_pure here here

/-- Where the mint exists and both accounts are configured, preparing disturbs nothing. -/
theorem initPrepare_again (held : world.ledger.data s.mint ≠ .empty)
    (sender : s.Configured world.ledger s.keys.sender)
    (receiver : s.Configured world.ledger s.keys.receiver) :
    (chainSystem cluster).Serves (Undisturbed world) (fun _ => Undisturbed world)
      (initPrepare sdk s) world := by
  refine (serves_quietly (onChain_undisturbed world) (.refl world)
    (quietly_requireFunds _ _ _ _)).bind ?_
  rintro ⟨⟩ w1 ⟨here, -⟩
  refine (ensureMint_again here held).bind fun mintSigs w2 here => ?_
  refine (ensureConfidentialAccount_again here sender).bind fun senderSigs w3 here => ?_
  refine (ensureConfidentialAccount_again here receiver).bind fun receiverSigs w4 here => ?_
  exact System.serves_pure here here

end Again

end ConfidentialBalances
