import ConfidentialBalances.EventStreams
import ConfidentialBalances.Preparation
import ConfidentialBalances.RecentEvents

/-!
# Accounts the server can read

`ensure_confidential_account` and `require_initialized` ask whether an account
is configured, not under which key. An account that was configured under another
key, such as one of the legacy derivation, passes, and what a transfer credits it
with cannot be decrypted for an apply. A deposit adds an amount in the clear, so
it can be decrypted under any key, unless it is added to what a transfer left
pending.
-/

namespace ConfidentialBalances

open Effect

/-- What is pending can be decrypted by the owner's derived key, unless nothing is. -/
def Openable (owner : Wallet) (extension : ConfidentialTransferAccount) : Prop :=
  extension.pendingAmount ≠ 0 →
    extension.pendingBalanceLo.decryptU32 owner.confidentialKeys.elgamal ≠ none ∧
      extension.pendingBalanceHi.decryptU32 owner.confidentialKeys.elgamal ≠ none

instance (owner : Wallet) (extension : ConfidentialTransferAccount) :
    Decidable (Openable owner extension) :=
  inferInstanceAs (Decidable (_ → _))

/-- A credit of the amount leaves each limb of what is pending below the decryption bound. -/
def HasRoom (extension : ConfidentialTransferAccount) (amount : Nat) : Prop :=
  extension.pendingBalanceLo.amount + (amount % 2 ^ pendingBalanceLoBits : Nat) <
      ElGamalCiphertext.decryptBound ∧
    extension.pendingBalanceHi.amount + (amount / 2 ^ pendingBalanceLoBits : Nat) <
      ElGamalCiphertext.decryptBound

instance (extension : ConfidentialTransferAccount) (amount : Nat) :
    Decidable (HasRoom extension amount) :=
  inferInstanceAs (Decidable (_ ∧ _))

/-- The account is registered under the owner's derived key. -/
def Derived (owner : Wallet) (extension : ConfidentialTransferAccount) : Prop :=
  extension.elgamalPubkey = owner.confidentialKeys.elgamal.pubkey

instance (owner : Wallet) (extension : ConfidentialTransferAccount) :
    Decidable (Derived owner extension) :=
  inferInstanceAs (Decidable (_ = _))

/-- What is pending is encrypted without randomness, as deposits leave it. -/
def Unrandomised (extension : ConfidentialTransferAccount) : Prop :=
  extension.pendingBalanceLo.opening = 0 ∧ extension.pendingBalanceHi.opening = 0

instance (extension : ConfidentialTransferAccount) : Decidable (Unrandomised extension) :=
  inferInstanceAs (Decidable (_ ∧ _))

/-- The pending limbs are amounts under the key that is registered. -/
structure PendingSound (extension : ConfidentialTransferAccount) : Prop where
  /-- The key of the low limb. -/
  loKey : extension.pendingBalanceLo.key = extension.elgamalPubkey
  /-- The key of the high limb. -/
  hiKey : extension.pendingBalanceHi.key = extension.elgamalPubkey
  /-- The low limb. -/
  lo : 0 ≤ extension.pendingBalanceLo.amount
  /-- The high limb. -/
  hi : 0 ≤ extension.pendingBalanceHi.amount

instance (extension : ConfidentialTransferAccount) : Decidable (PendingSound extension) :=
  decidable_of_iff (extension.pendingBalanceLo.key = extension.elgamalPubkey ∧
      extension.pendingBalanceHi.key = extension.elgamalPubkey ∧
      0 ≤ extension.pendingBalanceLo.amount ∧ 0 ≤ extension.pendingBalanceHi.amount)
    ⟨fun ⟨loKey, hiKey, lo, hi⟩ => ⟨loKey, hiKey, lo, hi⟩,
      fun ⟨loKey, hiKey, lo, hi⟩ => ⟨loKey, hiKey, lo, hi⟩⟩

namespace AppState

variable (s : AppState) (ledger : Ledger) (owner : Wallet)

/-- The owner's account may receive credits, and is registered under the owner's derived key. -/
def Registered : Prop :=
  ∃ extension, ledger.confidential? (s.tokenAccount owner) = some extension ∧
    extension.approved = true ∧ extension.elgamalPubkey = owner.confidentialKeys.elgamal.pubkey

/-- The owner's account, where it is configured, has sound limbs. -/
def Sound : Prop :=
  ∀ extension, ledger.confidential? (s.tokenAccount owner) = some extension →
    PendingSound extension

instance : Decidable (s.Sound ledger owner) :=
  inferInstanceAs (Decidable (∀ extension ∈ ledger.confidential? (s.tokenAccount owner),
    PendingSound extension))

/-- What is pending on the owner's account can be decrypted for an apply. -/
def PendingOpenable : Prop :=
  ∀ extension, ledger.confidential? (s.tokenAccount owner) = some extension →
    Openable owner extension

instance : Decidable (s.Registered ledger owner) :=
  inferInstanceAs (Decidable (∃ extension ∈ ledger.confidential? (s.tokenAccount owner),
    extension.approved = true ∧
      extension.elgamalPubkey = owner.confidentialKeys.elgamal.pubkey))

instance : Decidable (s.PendingOpenable ledger owner) :=
  inferInstanceAs (Decidable (∀ extension ∈ ledger.confidential? (s.tokenAccount owner),
    Openable owner extension))

/-- What the sender lacks of the target, as the demo reads it. -/
def lacking : Nat := s.targetBase - s.availableBalance ledger s.keys.sender

/-- The sender's account, where it is configured, is left readable by a deposit of the amount: it is
registered under the derived key or holds no randomness, and has room. -/
def DepositReadable (amount : Nat) : Prop :=
  ∀ extension, ledger.confidential? (s.tokenAccount s.keys.sender) = some extension →
    (Derived s.keys.sender extension ∨ Unrandomised extension) ∧ HasRoom extension amount

instance (amount : Nat) : Decidable (s.DepositReadable ledger amount) :=
  inferInstanceAs (Decidable (∀ extension ∈
    ledger.confidential? (s.tokenAccount s.keys.sender),
      (Derived s.keys.sender extension ∨ Unrandomised extension) ∧ HasRoom extension amount))

/-- The receiver's account, where it is configured, is left readable by a transfer of the amount: it
is registered under the derived key and has room, or is left with nothing pending. -/
def TransferReadable (amount : Nat) : Prop :=
  ∀ extension, ledger.confidential? (s.tokenAccount s.keys.receiver) = some extension →
    extension.pendingAmount + amount = 0 ∨
      Derived s.keys.receiver extension ∧ HasRoom extension amount

instance (amount : Nat) : Decidable (s.TransferReadable ledger amount) :=
  inferInstanceAs (Decidable (∀ extension ∈
    ledger.confidential? (s.tokenAccount s.keys.receiver),
      extension.pendingAmount + amount = 0 ∨
        Derived s.keys.receiver extension ∧ HasRoom extension amount))

end AppState

/-! ## Credits -/

section Credits

variable {owner : Wallet} {account account' : ConfidentialTransferAccount} {amount : Nat}

/-- Sound limbs hold a pending balance that is not negative. -/
theorem PendingSound.pendingAmount_nonneg (sound : PendingSound account) :
    0 ≤ account.pendingAmount := by
  have lo := sound.lo
  have hi := sound.hi
  unfold ConfidentialTransferAccount.pendingAmount
  positivity

/-- Whether an owner's pending balance can be opened is read from its account. -/
theorem pendingOpenable_iff {s : AppState} {ledger : Ledger}
    (held : ledger.confidential? (s.tokenAccount owner) = some account) :
    s.PendingOpenable ledger owner ↔ Openable owner account := by
  constructor
  · exact fun openable => openable account held
  · intro openable other found
    obtain rfl := Option.some.inj (held.symm.trans found)
    exact openable

/-- What opens is under the right key, or under none, and in range. -/
theorem ElGamalCiphertext.decryptU32_ne_none_iff (ciphertext : ElGamalCiphertext)
    (keypair : ElGamalKeypair) :
    ciphertext.decryptU32 keypair ≠ none ↔
      (ciphertext.key = keypair.pubkey ∨ ciphertext.opening = 0) ∧
        0 ≤ ciphertext.amount ∧ ciphertext.amount < decryptBound := by
  unfold decryptU32
  split
  · rename_i reachable
    simpa using reachable
  · rename_i unreachable
    simpa using unreachable

/-- A credited account can be opened exactly when nothing is pending there, or the limbs stay in
range and the registered key is the owner's derived one or no randomness is left. -/
theorem credit_openable_iff {lo hi : ElGamalCiphertext} (sound : PendingSound account)
    (loHeld : lo.amount = (amount % 2 ^ pendingBalanceLoBits : Nat))
    (hiHeld : hi.amount = (amount / 2 ^ pendingBalanceLoBits : Nat))
    (credited : account.credit lo hi = some account') :
    Openable owner account' ↔ account.pendingAmount + amount = 0 ∨
      (Derived owner account ∨ Unrandomised account') ∧ HasRoom account amount := by
  obtain ⟨waits, -⟩ := credit_pending credited
  obtain ⟨-, rfl⟩ := ConfidentialTransferAccount.credit_some credited
  have total : lo.amount + 2 ^ pendingBalanceLoBits * hi.amount = amount := by
    have split := Nat.mod_add_div amount (2 ^ pendingBalanceLoBits)
    rw [loHeld, hiHeld]
    exact_mod_cast split
  rw [total] at waits
  obtain ⟨loKey, hiKey, loSound, hiSound⟩ := sound
  unfold Openable
  rw [waits, ElGamalCiphertext.decryptU32_ne_none_iff, ElGamalCiphertext.decryptU32_ne_none_iff]
  simp only [ElGamalCiphertext.add_key, ElGamalCiphertext.add_amount, loKey, hiKey, loHeld, hiHeld]
  by_cases nothing : account.pendingAmount + amount = 0
  · exact iff_of_true (absurd nothing) (.inl nothing)
  rw [or_iff_right nothing]
  constructor
  · intro opens
    obtain ⟨⟨loRight, -, loBound⟩, hiRight, -, hiBound⟩ := opens nothing
    refine ⟨?_, loBound, hiBound⟩
    by_cases same : account.elgamalPubkey = owner.confidentialKeys.elgamal.pubkey
    · exact .inl same
    · exact .inr ⟨loRight.resolve_left same, hiRight.resolve_left same⟩
  · rintro ⟨fits, loBound, hiBound⟩ -
    have right {opening : Prop} (unrandomised : Unrandomised _ → opening) :
        account.elgamalPubkey = owner.confidentialKeys.elgamal.pubkey ∨ opening :=
      fits.imp_right unrandomised
    exact ⟨⟨right And.left, by positivity, loBound⟩, right And.right, by positivity, hiBound⟩

end Credits

/-- What has landed since the start, with what landed now. -/
theorem Lands.since {cluster : Cluster} {start world world' : World}
    {earlier done : List Transaction} (landed : Lands cluster world world' done)
    (before : world.landed = start.landed ++ earlier) :
    world'.landed = start.landed ++ (earlier ++ done) := by
  rw [landed.landed, before, List.append_assoc]

/-- Where the last transaction that landed since the start is a credit, this holds of it and of the
ledger. -/
def LastCredit (credits : Transaction → Bool) (post : Transaction → Ledger → Prop)
    (start world : World) : Prop :=
  ∀ before transaction, world.landed = start.landed ++ (before ++ [transaction]) →
    credits transaction = true → post transaction world.ledger

section LastCredit

variable {credits : Transaction → Bool} {post : Transaction → Ledger → Prop}
variable {start world : World}

/-- The ledger and what has landed decide it. -/
theorem onChain_lastCredit (credits : Transaction → Bool) (post : Transaction → Ledger → Prop)
    (start : World) : OnChain (LastCredit credits post start) := by
  intro world world' sameLedger sameLanded holds before transaction landed credited
  rw [sameLedger]
  exact holds before transaction (sameLanded ▸ landed) credited

/-- Where the last transaction is no credit there is nothing to show. -/
theorem lastCredit_of_last {earlier : List Transaction} {last : Transaction}
    (landed : world.landed = start.landed ++ (earlier ++ [last])) (none : credits last = false) :
    LastCredit credits post start world := by
  intro before transaction landed' credited
  have same := List.append_cancel_left (landed.symm.trans landed')
  obtain rfl := List.singleton_inj.mp (List.append_inj_right' same rfl)
  rw [none] at credited
  contradiction

/-- Where the last transaction is this one, it has to be shown of this one. -/
theorem lastCredit_of_this {earlier : List Transaction} {last : Transaction}
    (landed : world.landed = start.landed ++ (earlier ++ [last])) (holds : post last world.ledger) :
    LastCredit credits post start world := by
  intro before transaction landed' credited
  have same := List.append_cancel_left (landed.symm.trans landed')
  obtain rfl := List.singleton_inj.mp (List.append_inj_right' same rfl)
  exact holds

/-- Where no transaction is a credit there is nothing to show. -/
theorem Without.lastCredit (here : Without credits start world) :
    LastCredit credits post start world := by
  obtain ⟨done, landed, none⟩ := here
  intro before transaction landed' credited
  obtain rfl := List.append_cancel_left (landed.symm.trans landed')
  rw [none transaction (by simp)] at credited
  contradiction

end LastCredit

/-! ## Init -/

/-- The transaction deposits. -/
def Transaction.deposits (transaction : Transaction) : Bool :=
  transaction.instructions.any fun instruction => match instruction with
    | .deposit _ _ _ _ _ _ => true
    | _ => false

/-- The transaction is the deposit of what the sender lacked, or of the whole target, and it can be
opened exactly when it leaves the sender's account readable. -/
def ReadableDeposit (s : AppState) (start : Ledger) (transaction : Transaction)
    (ledger : Ledger) : Prop :=
  ∃ amount, transaction = depositTransaction s.keys.payer s.keys.sender s.mint amount
      s.cfg.mintDecimals ∧ (amount = s.lacking start ∨ amount = s.targetBase) ∧
    (s.PendingOpenable ledger s.keys.sender ↔ s.DepositReadable start amount)

/-- What holds of an init's deposit that landed last. -/
abbrev DepositsReadably (s : AppState) (start : World) : World → Prop :=
  LastCredit Transaction.deposits (ReadableDeposit s start.ledger) start

section Init

variable {sdk : Sdk} {cluster : Cluster} {s : AppState} {start world world' : World}
variable {ledger ledger' : Ledger} {extension : ConfidentialTransferAccount}

/-- What neither mints nor deposits does not deposit. -/
theorem Without.undeposited (here : Without Transaction.funds start world) :
    Without Transaction.deposits start world := by
  refine here.narrow fun transaction none => ?_
  unfold Transaction.funds at none
  unfold Transaction.deposits
  rw [List.any_eq_false] at none ⊢
  intro instruction member deposits
  refine none instruction member ?_
  cases instruction with
  | deposit _ _ _ _ _ _ => rfl
  | _ => contradiction

/-- Readying an account does not change what the demo reads of it. -/
theorem Readied.availableBalance {owner : Wallet}
    (readied : Readied sdk cluster owner (ledger.confidential? (s.tokenAccount owner))
      (ledger'.confidential? (s.tokenAccount owner))) :
    s.availableBalance ledger' owner = s.availableBalance ledger owner := by
  obtain ⟨extension, after, before | ⟨before, approved, key, rfl, -⟩⟩ := readied
  · simp only [AppState.availableBalance, after, before]
  · simp [AppState.availableBalance, after, before, ConfidentialTransferAccount.configured]

/-- Whether a deposit leaves a ready sender readable is settled at the start. -/
theorem AppState.Ready.receives (names : sdk.StatesPubkeys cluster)
    (ready : s.Ready sdk cluster ledger ledger') (sound : s.Sound ledger s.keys.sender) :
    ∃ extension, ledger'.confidential? (s.tokenAccount s.keys.sender) = some extension ∧
      PendingSound extension ∧
      ∀ amount ≤ ConfidentialTransferAccount.maximumDepositTransferAmount,
        ((Derived s.keys.sender extension ∨ Unrandomised extension) ∧ HasRoom extension amount ↔
          s.DepositReadable ledger amount) := by
  obtain ⟨extension, after, source⟩ := ready.sender
  refine ⟨extension, after, ?_⟩
  rcases source with before | ⟨before, approved, key, rfl, named⟩
  · refine ⟨sound extension before, fun amount _ => ⟨fun fits other held => ?_, fun readable => ?_⟩⟩
    · obtain rfl := Option.some.inj (before.symm.trans held)
      exact fits
    · exact readable extension before
  · refine ⟨⟨rfl, rfl, le_refl _, le_refl _⟩, fun amount bound => iff_of_true ?_ ?_⟩
    · refine ⟨.inl (named names), ?_, ?_⟩
      · simp only [ConfidentialTransferAccount.configured, ElGamalCiphertext.zero_amount,
          ElGamalCiphertext.decryptBound, pendingBalanceLoBits]
        omega
      · unfold ConfidentialTransferAccount.maximumDepositTransferAmount at bound
        simp only [ConfidentialTransferAccount.configured, ElGamalCiphertext.zero_amount,
          ElGamalCiphertext.decryptBound, pendingBalanceLoBits]
        omega
    · intro other held
      rw [before] at held
      contradiction

/-- A landed deposit can be opened exactly when it leaves the account readable. -/
theorem depositTransaction_openable {amount decimals : Nat} (sound : PendingSound extension)
    (positive : 0 < amount)
    (held : ledger.confidential? (s.tokenAccount s.keys.sender) = some extension)
    (landed : ledger.execTransaction cluster
      (depositTransaction s.keys.payer s.keys.sender s.mint amount decimals) = some ledger') :
    amount ≤ ConfidentialTransferAccount.maximumDepositTransferAmount ∧
      (s.PendingOpenable ledger' s.keys.sender ↔
        (Derived s.keys.sender extension ∨ Unrandomised extension) ∧ HasRoom extension amount) := by
  have achieved : (Operation.deposit s.keys.payer s.keys.sender s.mint amount decimals).Achieved
      Sdk.ideal cluster ledger ledger' := depositTransaction_achieved landed
  obtain ⟨found, credited, paid, deposited, -, changes⟩ := achieved
  obtain rfl := Option.some.inj (changes.start.symm.trans held)
  obtain ⟨bound, credit⟩ := ConfidentialTransferAccount.deposit_some deposited
  have opens : Openable s.keys.sender credited ↔ _ := credit_openable_iff sound rfl rfl credit
  have waits := sound.pendingAmount_nonneg
  have something : ¬ found.pendingAmount + amount = 0 := by omega
  -- What is added in the clear leaves the randomness as it was.
  have clear : Unrandomised credited ↔ Unrandomised found := by
    obtain ⟨-, rfl⟩ := ConfidentialTransferAccount.credit_some credit
    simp [Unrandomised, ElGamalCiphertext.add, ElGamalCiphertext.ofAmount]
  rw [pendingOpenable_iff changes.finish, opens, or_iff_right something, clear]
  exact ⟨bound, Iff.rfl⟩

/-- Minting to the sender changes no confidential account. -/
theorem mintTransaction_confidential? {amount : Nat}
    (landed : ledger.execTransaction cluster (mintTransaction s amount) = some ledger')
    (key : Pubkey) : ledger'.confidential? key = ledger.confidential? key := by
  obtain ⟨charged, same, executed⟩ := Ledger.execTransaction_single landed
  obtain ⟨state, token, mint, held, -, -, -, rfl⟩ := Ledger.mintTo_some executed
  rw [same] at mint held
  by_cases sender : key = s.tokenAccount s.keys.sender
  · subst sender
    simp [Ledger.confidential?, held, AccountData.token?]
  · refine Ledger.confidential?_congr ?_
    by_cases here : key = s.mint
    · subst here
      simp [mint, Function.update_of_ne sender, AccountData.token?]
    · simp [sender, here, same]

/-- Minting what is lacking deposits nothing, and leaves the sender's extension alone. -/
theorem mintLacking_readable (needed senderPublicBase : Nat)
    (here : Without Transaction.deposits start world)
    (held : world.ledger.confidential? (s.tokenAccount s.keys.sender) = some extension) :
    (chainSystem cluster).Serves (DepositsReadably s start) (fun _ world' =>
        Without Transaction.deposits start world' ∧
        world'.ledger.confidential? (s.tokenAccount s.keys.sender) = some extension)
      (mintLacking s needed senderPublicBase) world := by
  unfold mintLacking
  split
  · refine System.Serves.bind (System.Meets.weaken (without_submits here
      (follows_sendTx _ _ _) ?_) (fun _ none => none.lastCredit) fun _ _ _ post => post) ?_
    · rintro plan rfl transaction member
      obtain rfl := List.mem_singleton.mp member
      rfl
    · rintro sig w1 ⟨here, plan, rfl, landed, -⟩
      have same := mintTransaction_confidential? landed.single (s.tokenAccount s.keys.sender)
      exact System.serves_pure here.lastCredit ⟨here, same.trans held⟩
  · exact System.serves_pure here.lastCredit ⟨here, held⟩

/-- Funding a ready sender deposits readably. -/
theorem fundSender_readable {needed : Nat} (senderPublicBase : Nat)
    (here : Without Transaction.deposits start world) (sound : PendingSound extension)
    (held : world.ledger.confidential? (s.tokenAccount s.keys.sender) = some extension)
    (short : 0 < needed) (asked : needed = s.lacking start.ledger ∨ needed = s.targetBase)
    (receives : needed ≤ ConfidentialTransferAccount.maximumDepositTransferAmount →
      ((Derived s.keys.sender extension ∨ Unrandomised extension) ∧ HasRoom extension needed ↔
        s.DepositReadable start.ledger needed)) :
    (chainSystem cluster).Serves (DepositsReadably s start) (fun _ => DepositsReadably s start)
      (fundSender s needed senderPublicBase) world := by
  refine (mintLacking_readable _ senderPublicBase here held).bind ?_
  rintro minted w1 ⟨here, held⟩
  obtain ⟨earlier, before, -⟩ := id here
  -- Once the deposit has landed, it can be opened exactly when the start says so.
  have deposited {world' : World} (landed : Lands cluster w1 world' [depositTransaction
      s.keys.payer s.keys.sender s.mint needed s.cfg.mintDecimals]) :
      ReadableDeposit s start.ledger (depositTransaction s.keys.payer s.keys.sender s.mint needed
        s.cfg.mintDecimals) world'.ledger := by
    obtain ⟨bound, openable⟩ := depositTransaction_openable sound short held landed.single
    exact ⟨needed, rfl, asked, openable.trans (receives bound)⟩
  refine System.Serves.bind (System.Serves.mapError (serves_submits
    (depositToConfidential_submits cluster _ _ _ _ _ _) ?_) _) ?_
  · intro world' partly
    rcases partly.single (by rintro plan rfl; rfl) with quiet | ⟨transaction, same, landed⟩
    · exact onChain_lastCredit _ _ _ _ _ quiet.same_ledger quiet.same_landed here.lastCredit
    · obtain rfl := List.singleton_inj.mp same
      exact lastCredit_of_this (landed.since before) (deposited landed)
  rintro depSig w2 ⟨plan, rfl, landed, -⟩
  have lands := landed.since before
  have applies {transaction : Transaction} {world' : World}
      (applied : Lands cluster w2 world' [transaction]) (quiet : transaction.deposits = false) :
      DepositsReadably s start world' := lastCredit_of_last (applied.since lands) quiet
  refine System.Serves.bind (System.Serves.mapError (serves_submits
    (applyPendingBalance_submits cluster _ _ _ _) ?_) _) ?_
  · intro world' partly
    rcases partly.single (by rintro plan ⟨-, -, -, -, rfl⟩; rfl) with
      quiet | ⟨transaction, ⟨snapshot, values, -, -, same⟩, applied⟩
    · exact onChain_lastCredit _ _ _ _ _ quiet.same_ledger quiet.same_landed
        (lastCredit_of_this lands (deposited landed))
    · obtain rfl := List.singleton_inj.mp same
      exact applies applied rfl
  rintro applySig w3 ⟨plan, ⟨snapshot, values, -, -, rfl⟩, applied, -⟩
  have readably := applies applied rfl
  refine (serves_logEvent (onChain_lastCredit _ _ _) readably _ _ _).bind ?_
  rintro ⟨⟩ w4 ⟨readably, -⟩
  exact System.serves_pure readably readably

/-- What an init does about the balances that it views deposits readably, whether the view shows the
sender's account or nothing. -/
theorem initFund_readable {view : AccountView} (names : sdk.StatesPubkeys cluster)
    (here : Without Transaction.deposits start world) (sound : s.Sound start.ledger s.keys.sender)
    (ready : s.Ready sdk cluster start.ledger world.ledger)
    (read : s.Shows world.ledger s.keys.sender s.cfg.mintDecimals view ∨ view.Blank) :
    (chainSystem cluster).Serves (DepositsReadably s start) (fun _ => DepositsReadably s start)
      (initFund s view) world := by
  have bound := s.targetBase_lt
  have reading := Readied.availableBalance ready.sender
  obtain ⟨extension, held, soundNow, receives⟩ := ready.receives names sound
  have asked : s.targetBase - uiToBase view.availableUi s.cfg.mintDecimals =
      s.lacking start.ledger ∨
      s.targetBase - uiToBase view.availableUi s.cfg.mintDecimals = s.targetBase := by
    rcases read with shows | blank
    · left
      rw [shows.availableUi, uiToBase_baseToUi, reading, AppState.lacking]
      omega
    · right
      have zero : baseToUi 0 s.cfg.mintDecimals = 0 := by simp [baseToUi]
      rw [blank.availableUi, ← zero, uiToBase_baseToUi]
      omega
  unfold initFund
  by_cases short : uiToBase view.availableUi s.cfg.mintDecimals < s.targetBase
  · simp only [if_pos short]
    exact fundSender_readable _ here soundNow held (by omega) asked (receives _)
  · simp only [if_neg short]
    exact System.serves_pure here.lastCredit here.lastCredit

/-- However far an init has come, a deposit that landed last can be opened exactly when it leaves
the sender's account readable. -/
theorem initHandler_readable (names : sdk.StatesPubkeys cluster)
    (sound : s.Sound start.ledger s.keys.sender) :
    (chainSystem cluster).Serves (DepositsReadably s start) (fun _ => DepositsReadably s start)
      (initHandler sdk s) start := by
  have onChain := onChain_lastCredit Transaction.deposits (ReadableDeposit s start.ledger) start
  refine initHandler_serves (fun _ here => here.undeposited.lastCredit) ?_
  intro sigs world' here ready
  refine (serves_quietly onChain here.undeposited.lastCredit
    (quietly_readAccountView _)).bind ?_
  rintro view after ⟨-, -, rfl, read⟩
  refine (initFund_readable names here.undeposited sound ready read).bind ?_
  intro topUpSigs w2 readably
  refine (serves_quietly onChain readably quietly_readLedgerState).bind ?_
  exact fun state w3 holds => System.serves_pure holds.1 holds.1

end Init

/-! ## Transfer -/

/-- A transfer that landed last can be opened exactly when it leaves the receiver's account
readable. -/
abbrev TransfersReadably (s : AppState) (amount : Nat) (start : World) : World → Prop :=
  LastCredit Transaction.transfers (fun _ ledger =>
    s.PendingOpenable ledger s.keys.receiver ↔ s.TransferReadable start.ledger amount) start

/-- No generated transfer cancels the randomness of what is pending on the receiver's account. -/
def ReceivesRandomised (sdk : Sdk) (cluster : Cluster) (s : AppState) (ledger : Ledger) : Prop :=
  ∀ extension, ledger.confidential? (s.tokenAccount s.keys.receiver) = some extension →
    sdk.Randomises cluster extension.pendingBalanceLo

section TransferCredits

variable {sdk : Sdk} {cluster : Cluster} {s : AppState} {start : World}
variable {ledger ledger' : Ledger}

/-- What a transfer debits keeps its key and what is pending. -/
theorem Executes.transfer_keeps {keys : ConfidentialKeys}
    {snapshot account account' : ConfidentialTransferAccount} {amount : Nat}
    {recipient : ElGamalPubkey} {auditor : Option ElGamalPubkey}
    (executes : Executes sdk cluster keys snapshot (.transfer amount recipient auditor) account
      account') :
    account'.elgamalPubkey = account.elgamalPubkey ∧
      account'.pendingBalanceLo = account.pendingBalanceLo ∧
      account'.pendingBalanceHi = account.pendingBalanceHi := by
  rcases executes with - | - | ⟨-, -, -, -, -, accepted⟩
  obtain ⟨commitment, transfer, -, -, -, rfl⟩ :=
    ConfidentialTransferAccount.transferOut_some accepted
  exact ⟨rfl, rfl, rfl⟩

/-- A landed transfer can be opened exactly when it leaves the receiver's account readable. -/
theorem transfer_openable {payer sender : Wallet} {amount : Nat} {progress : ProgressSink}
    (sound : s.Sound ledger s.keys.receiver) (random : ReceivesRandomised sdk cluster s ledger)
    (achieved : (Operation.transfer payer sender s.mint s.keys.receiver.pubkey amount
      progress).Achieved sdk cluster ledger ledger') :
    s.PendingOpenable ledger' s.keys.receiver ↔ s.TransferReadable ledger amount := by
  obtain ⟨middle, extension, extension', amount', recipientPubkey, auditor, executes, out,
    transfer, received, received', received'', carries, bound, receives, into, generated⟩ :=
    achieved
  obtain ⟨transfer', same, credit⟩ := ConfidentialTransferAccount.transferIn_some receives
  obtain rfl := ProofContext.validity.inj same
  -- Before the credit the account has the key and the pending limbs that it had at the start.
  obtain ⟨original, held, key, lo, hi⟩ : ∃ original,
      ledger.confidential? (s.tokenAccount s.keys.receiver) = some original ∧
      received.elgamalPubkey = original.elgamalPubkey ∧
      received.pendingBalanceLo = original.pendingBalanceLo ∧
      received.pendingBalanceHi = original.pendingBalanceHi := by
    by_cases here : getAssociatedTokenAddress s.keys.receiver.pubkey s.mint =
        getAssociatedTokenAddress sender.pubkey s.mint
    · have found := into.start
      rw [here, out.finish] at found
      obtain rfl := Option.some.inj found
      exact ⟨extension, by rw [AppState.tokenAccount, here, out.start], executes.transfer_keeps⟩
    · exact ⟨received, (out.other here).symm.trans into.start, rfl, rfl, rfl⟩
  have soundNow : PendingSound received := by
    obtain ⟨loKey, hiKey, loSound, hiSound⟩ := sound original held
    exact ⟨by rw [lo, key, loKey], by rw [hi, key, hiKey], by rwa [lo], by rwa [hi]⟩
  have opens : Openable s.keys.receiver received' ↔ _ :=
    credit_openable_iff soundNow carries.1 carries.2 credit
  -- The generated transfer has left randomness in the low limb.
  have randomised : ¬ Unrandomised received' := by
    obtain ⟨-, rfl⟩ := ConfidentialTransferAccount.credit_some credit
    rintro ⟨none, -⟩
    refine random original held transfer generated ?_
    rw [← lo]
    exact none
  have samePending : received.pendingAmount = original.pendingAmount := by
    simp only [ConfidentialTransferAccount.pendingAmount, lo, hi]
  rw [pendingOpenable_iff into.finish, opens, or_iff_left randomised]
  simp only [Derived, HasRoom, key, lo, hi, samePending]
  constructor
  · intro readable other found
    obtain rfl := Option.some.inj (held.symm.trans found)
    exact readable
  · exact fun readable => readable original held

/-- However far the library's transfer has come, a transfer that landed last can be opened exactly
when the receiver could receive the amount. -/
theorem transferConfidentialWithProgress_readable (honest : Honest sdk cluster)
    (sound : s.Sound start.ledger s.keys.receiver)
    (random : ReceivesRandomised sdk cluster s start.ledger) (amount : Nat) (world : World)
    (before : Lands cluster start world []) :
    (chainSystem cluster).Serves (TransfersReadably s amount start)
      (fun _ => TransfersReadably s amount start)
      (transferConfidentialWithProgress sdk s.keys.payer s.keys.sender s.mint
        s.keys.receiver.pubkey amount .broadcast) world := by
  have partly (world' : World) (reached : Partly cluster (fun plan => ∃ run,
      TransferPlan sdk s.keys.payer s.keys.sender s.mint s.keys.receiver.pubkey amount world run ∧
        plan = run.transactions sdk cluster) world world') :
      TransfersReadably s amount start world' := by
    rcases reached with quiet | ⟨done, rest, planned, landed⟩
    · have none : Without Transaction.transfers start world' :=
        ⟨[], (before.after_quiet quiet).landed, by simp⟩
      exact none.lastCredit
    · have plans : (Operation.transfer s.keys.payer s.keys.sender s.mint s.keys.receiver.pubkey
          amount .broadcast).Plans sdk cluster world (done ++ rest) := planned
      rcases Operation.landing honest plans landed with ⟨remains, -⟩ | achieved
      · obtain ⟨early, since, untouched, -⟩ :=
          transferUntouched_of_cut (.inr ⟨done, rest, remains, planned, landed⟩)
        rw [before.same_landed] at since
        have none : Without Transaction.transfers start world' :=
          ⟨early, since, fun transaction member => by
            simpa [Transaction.transfers] using untouched transaction member⟩
        exact none.lastCredit
      · rw [before.same_ledger] at achieved
        exact fun _ _ _ _ => transfer_openable sound random achieved
  refine (serves_submits (transferConfidentialWithProgress_submits sdk cluster _ _ _ _ _ _ _)
    partly).weaken ?_
  rintro sigs world' ⟨plan, planned, landed, -⟩
  exact partly world' (.inr ⟨plan, [], by rwa [List.append_nil], landed⟩)

/-- However far a transfer request has come, a transfer that landed last can be opened exactly when
the receiver could receive the amount. -/
theorem transferHandler_readable (honest : Honest sdk cluster)
    (sound : s.Sound start.ledger s.keys.receiver)
    (random : ReceivesRandomised sdk cluster s start.ledger) (requested : Option ℚ) :
    (chainSystem cluster).Serves (TransfersReadably s (s.requestedBase requested) start)
      (fun _ => TransfersReadably s (s.requestedBase requested) start)
      (transferHandler sdk s requested) start := by
  have onChain := onChain_lastCredit Transaction.transfers (fun _ ledger =>
    s.PendingOpenable ledger s.keys.receiver ↔
      s.TransferReadable start.ledger (s.requestedBase requested)) start
  have here : TransfersReadably s (s.requestedBase requested) start start :=
    (Without.refl _ start).lastCredit
  refine (serves_quietly onChain here (surely_emit _ _).quietly).bind ?_
  rintro ⟨⟩ w1 ⟨here, before, -⟩
  refine System.Serves.catchPanic ?_ _
  refine (serves_quietly onChain here quietly_requireInitialized).bind ?_
  rintro ⟨⟩ after ⟨here, -, rfl⟩
  refine (serves_quietly onChain here (quietly_requireFunds _ _ _ _)).bind ?_
  rintro ⟨⟩ after ⟨here, -, rfl⟩
  refine System.Serves.bind (System.Serves.catchError (transferConfidentialWithProgress_readable
    honest sound random _ _ before) fun reason failed readably => ?_) ?_
  · refine (serves_quietly onChain readably (surely_emit _ _).quietly).bind ?_
    exact fun _ _ holds => System.serves_fail holds.1
  intro sigs w2 here
  have logs : (chainSystem cluster).Serves (TransfersReadably s (s.requestedBase requested) start)
      (fun _ => TransfersReadably s (s.requestedBase requested) start)
      (logTransfer (requested.getD s.cfg.transferAmountUi) sigs) w2 := by
    unfold logTransfer
    split
    · exact (serves_logEvent onChain here _ _ _).weaken fun _ _ holds => holds.1
    · exact System.serves_pure here here
  refine logs.bind fun _ w3 here => ?_
  refine (serves_quietly onChain here quietly_readLedgerState).bind ?_
  exact fun state w4 holds => System.serves_pure holds.1 holds.1

end TransferCredits

/-! ## Acceptance -/

/-- `ensure_confidential_account` can report that there is nothing to do. -/
def ReportsNothing (sdk : Sdk) (cluster : Cluster) (s : AppState) (world : World)
    (owner : Wallet) : Prop :=
  ∃ world', (chainSystem cluster).Ends world (ensureConfidentialAccount sdk s owner) (.ok []) world'

/-- `require_initialized` can accept. -/
def Accepts (cluster : Cluster) (s : AppState) (world : World) : Prop :=
  ∃ world', (chainSystem cluster).Ends world (requireInitialized s) (.ok ()) world'

section Acceptance

variable {cluster : Cluster} {s : AppState} {world : World}

/-- An account at the mint's address can be found. -/
theorem mintExists_ends {mint : Pubkey} (found : (world.ledger.fetch mint).isOk = true) :
    (chainSystem cluster).Ends world (mintExists mint) (.ok true) world := by
  cases fetched : world.ledger.fetch mint with
  | ok data =>
    have answer : (chainSystem cluster).step world (.getAccount mint) (.ok data) world :=
      ⟨.succeed, by rw [← fetched]; rfl⟩
    exact .next answer .here
  | error reason =>
    rw [fetched] at found
    contradiction

/-- A configured account can be found so. -/
theorem ataIsConfigured_ends {ata : Pubkey}
    (configured : (world.ledger.confidential? ata).isSome = true) :
    (chainSystem cluster).Ends world (ataIsConfigured ata) (.ok true) world := by
  obtain ⟨extension, found⟩ := Option.isSome_iff_exists.mp configured
  obtain ⟨token, held, confidential⟩ := Ledger.confidential?_some found
  have answer : (chainSystem cluster).step world (.getAccount ata) (.ok (.token token)) world :=
    ⟨.succeed, by rw [← Ledger.fetch_eq held (by simp)]; rfl⟩
  refine .next answer ?_
  change (chainSystem cluster).Ends world (pure token.confidential.isSome) (.ok true) world
  rw [confidential]
  exact .here

/-- An account is left alone exactly where it is configured. -/
theorem reportsNothing_iff (sdk : Sdk) (owner : Wallet) :
    ReportsNothing sdk cluster s world owner ↔ s.Configured world.ledger owner := by
  constructor
  · rintro ⟨world', ended⟩
    exact ((ensureConfidentialAccount_prepares owner (.refl _ world)).ends ended [] rfl).2.2 rfl
  · exact fun configured => ⟨world, (ataIsConfigured_ends configured).bind .here⟩

/-- A setup is accepted exactly where there is an account at the mint's address and both accounts
are configured. -/
theorem accepts_iff : Accepts cluster s world ↔ s.Initialized world.ledger := by
  constructor
  · rintro ⟨world', ended⟩
    obtain ⟨transcript, ran⟩ := ended.runs
    have checks : Checks cluster (s.Initialized world.ledger) 3
        (fun _ => s.Initialized world.ledger) (requireInitialized s) world :=
      checks_requireInitialized fun holds => holds
    by_cases sighted : Sighted transcript
    · exact (checks _ _ _ ran sighted).2.2.2.2.2
    · obtain ⟨-, -, reason, same⟩ := givesUpUnread_requireInitialized s world _ _ _ ran sighted
      contradiction
  · rintro ⟨mint, sender, receiver⟩
    refine ⟨world, (mintExists_ends mint).bind ?_⟩
    refine System.Ends.bind (ataIsConfigured_ends sender) ?_
    exact System.Ends.bind (ataIsConfigured_ends receiver) .here

end Acceptance

/-- What the server accepts and credits, and when that is an account that it can read. An owner's
account that is left alone is approved and registered under the derived key exactly where every
configured one is; so are both accounts of a setup that is accepted, exactly where those of an
initialised ledger are. However far an init has come, a deposit that landed last, of what the sender
lacked or of the whole target, can be opened exactly when the sender's account, where it was
configured, was registered under the derived key or held no randomness, and had room for it; and
however far a transfer request has come, a transfer that landed last can be opened exactly when the
receiver's was registered under the derived key and had room for the amount, or is left with nothing
pending. -/
theorem server_readable_iff (sdk : Sdk) (cluster : Cluster) (honest : Honest sdk cluster)
    (s : AppState) (start : World) (senderSound : s.Sound start.ledger s.keys.sender)
    (receiverSound : s.Sound start.ledger s.keys.receiver)
    (random : ReceivesRandomised sdk cluster s start.ledger) :
    (∀ owner, (ReportsNothing sdk cluster s start owner → s.Registered start.ledger owner) ↔
      (s.Configured start.ledger owner → s.Registered start.ledger owner)) ∧
    ((Accepts cluster s start → s.Registered start.ledger s.keys.sender ∧
        s.Registered start.ledger s.keys.receiver) ↔
      (s.Initialized start.ledger → s.Registered start.ledger s.keys.sender ∧
        s.Registered start.ledger s.keys.receiver)) ∧
    (∀ world' program', (chainSystem cluster).Reaches start (initHandler sdk s) world' program' →
      ∀ before transaction, world'.landed = start.landed ++ (before ++ [transaction]) →
        transaction.deposits = true → ∃ amount,
          transaction = depositTransaction s.keys.payer s.keys.sender s.mint amount
            s.cfg.mintDecimals ∧
          (amount = s.lacking start.ledger ∨ amount = s.targetBase) ∧
          (s.PendingOpenable world'.ledger s.keys.sender ↔
            s.DepositReadable start.ledger amount)) ∧
    ∀ requested world' program',
      (chainSystem cluster).Reaches start (transferHandler sdk s requested) world' program' →
      ∀ before transaction, world'.landed = start.landed ++ (before ++ [transaction]) →
        transaction.transfers = true →
          (s.PendingOpenable world'.ledger s.keys.receiver ↔
            s.TransferReadable start.ledger (s.requestedBase requested)) := by
  refine ⟨fun owner => ?_, ?_, fun world' program' run => ?_,
    fun requested world' program' run => ?_⟩
  · rw [reportsNothing_iff]
  · rw [accepts_iff]
  · exact ((initHandler_readable honest.pubkeys senderSound).reaches run).invariant
  · exact ((transferHandler_readable honest receiverSound random requested).reaches run).invariant

/-- The demo whose owner was configured under keys that it does not derive, with this pending in the
low limb after so many credits. -/
def World.legacy (owner : Wallet) (pendingBalanceLo : ElGamalCiphertext)
    (pendingBalanceCreditCounter : Nat) : World :=
  { World.demo 0 5 with
    ledger := (World.demo 0 5).ledger.setData (AppState.demo.tokenAccount owner)
      (.token ⟨AppState.demo.mint, owner.pubkey, 0, true,
        some { ConfidentialTransferAccount.configured true (.other 0) ((AeKey.other 0).encrypt 0)
          maxPendingBalanceCreditCounter with pendingBalanceLo, pendingBalanceCreditCounter }⟩) }

/-- The init of a demo that has three cents of five, up to its deposit. -/
def idealDeposit : World :=
  ((chain Cluster.ideal).run (initHandler Sdk.ideal .demo) (.demo 0 3)
    (List.replicate 17 .succeed ++ [.fail "timeout"])).2

/-- The last transaction of a list, where it has a property. -/
theorem last_of_any {property : Transaction → Bool} {landed : List Transaction}
    (last : landed.getLast?.any property = true) :
    ∃ before transaction, landed = before ++ [transaction] ∧ property transaction = true := by
  obtain ⟨transaction, found, holds⟩ := (Option.any_eq_true _ _).mp last
  obtain ⟨before, placed⟩ := List.getLast?_eq_some_iff.mp found
  exact ⟨before, transaction, placed, holds⟩

/-- What is pending on the demo's receiver stays randomised. -/
theorem receivesRandomised_demo :
    ReceivesRandomised Sdk.ideal Cluster.ideal .demo (World.demo 0 3).ledger := by
  intro extension held transfer generates
  have clear : extension.pendingBalanceLo.opening = 0 := by
    have found : (World.demo 0 3).ledger.confidential?
        (AppState.demo.tokenAccount AppState.demo.keys.receiver) = some _ := rfl
    obtain rfl := Option.some.inj (found.symm.trans held)
    rfl
  rw [clear, Sdk.ideal_generates generates]
  decide

/-- The demo is configured under derived keys: what its server accepts is registered, and the
deposit of an init and the transfer of a request can be opened. -/
theorem server_readable_iff_demo :
    (Accepts Cluster.ideal .demo (.demo 0 3) →
      AppState.demo.Registered (World.demo 0 3).ledger AppState.demo.keys.sender ∧
      AppState.demo.Registered (World.demo 0 3).ledger AppState.demo.keys.receiver) ∧
    AppState.demo.PendingOpenable idealDeposit.ledger AppState.demo.keys.sender ∧
    AppState.demo.PendingOpenable (idealRequest (.transfer none) (.demo 0 3)).2.ledger
      AppState.demo.keys.receiver := by
  obtain ⟨-, accepts, deposits, transfers⟩ := server_readable_iff Sdk.ideal Cluster.ideal
    honest_ideal .demo (.demo 0 3) (by decide +kernel) (by decide +kernel) receivesRandomised_demo
  refine ⟨accepts.mpr fun _ => ⟨by decide +kernel, by decide +kernel⟩, ?_, ?_⟩
  · obtain ⟨before, transaction, landed, deposit⟩ := last_of_any
      (show idealDeposit.landed.getLast?.any Transaction.deposits = true by decide +kernel)
    obtain ⟨amount, -, asked, opens⟩ := deposits _ _ ((chain Cluster.ideal).run_ends _ _ _) before
      transaction landed deposit
    refine opens.mpr ?_
    rcases asked with rfl | rfl <;> decide +kernel
  · obtain ⟨before, transaction, landed, transfer⟩ := last_of_any (show (idealRequest
      (.transfer none) (.demo 0 3)).2.landed.getLast?.any Transaction.transfers = true by
        decide +kernel)
    exact (transfers none _ _ ((chain Cluster.ideal).run_ends _ _ _) before transaction landed
      transfer).mpr (by decide +kernel)

/-- An owner whose account is not under its derived key is left alone and accepted. Where a transfer
is pending there, an init deposits on top of it, and where none is, a transfer request credits one;
what is pending then cannot be opened. -/
theorem server_feeds_unreadable :
    (ReportsNothing Sdk.ideal Cluster.ideal .demo
        (.legacy AppState.demo.keys.sender (.zero (.other 0)) 0) AppState.demo.keys.sender ∧
      Accepts Cluster.ideal .demo (.legacy AppState.demo.keys.sender (.zero (.other 0)) 0) ∧
      ¬ AppState.demo.Registered
        (World.legacy AppState.demo.keys.sender (.zero (.other 0)) 0).ledger
        AppState.demo.keys.sender) ∧
    ((idealRequest .init
        (.legacy AppState.demo.keys.sender ⟨.other 0, 3, 1⟩ 1)).2.landed.getLast?.any
        Transaction.deposits = true ∧
      ¬ AppState.demo.PendingOpenable
        (idealRequest .init (.legacy AppState.demo.keys.sender ⟨.other 0, 3, 1⟩ 1)).2.ledger
        AppState.demo.keys.sender) ∧
    (idealRequest (.transfer none)
        (.legacy AppState.demo.keys.receiver (.zero (.other 0)) 0)).2.landed.getLast?.any
        Transaction.transfers = true ∧
      ¬ AppState.demo.PendingOpenable (idealRequest (.transfer none)
        (.legacy AppState.demo.keys.receiver (.zero (.other 0)) 0)).2.ledger
        AppState.demo.keys.receiver := by
  have configured : AppState.demo.Configured
      (World.legacy AppState.demo.keys.sender (.zero (.other 0)) 0).ledger
      AppState.demo.keys.sender := by decide +kernel
  refine ⟨⟨(reportsNothing_iff _ _).mpr configured, accepts_iff.mpr ⟨?_, configured, ?_⟩, ?_⟩,
    ⟨?_, ?_⟩, ?_, ?_⟩
  all_goals decide +kernel

end ConfidentialBalances
