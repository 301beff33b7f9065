import ConfidentialBalances.OperationEffects
import ConfidentialBalances.Sight

/-!
# The three balance readers

The demo server's view and the two examples each decode, decrypt and combine an
account's balances. One of the examples reports a ciphertext that does not open
as an error; the other two readers report it as an amount of zero. The server's
view reports an account that it could not read as one of nothing.
-/

namespace ConfidentialBalances

open Effect

/-! ## The examples' readers -/

/-- `BalanceBreakdown`, in base units. -/
structure BalanceBreakdown where
  /-- The public balance. -/
  publicBalance : Nat
  /-- The pending balance, both limbs combined. -/
  pending : Nat
  /-- The available balance, by the AES key. -/
  available : Nat
  /-- All three; the sum is a `u64`. -/
  total : Nat
  deriving DecidableEq, Repr

/-- The breakdown of three balances. -/
def BalanceBreakdown.ofBalances (publicBalance pending available : Nat) : BalanceBreakdown :=
  ⟨publicBalance, pending, available, (publicBalance + pending + available) % 2 ^ 64⟩

/-- The amounts that `get_balances` computes; the sum of the limbs is a `u64`. -/
def balanceBreakdown (keys : ConfidentialKeys) (publicBalance : Nat)
    (extension : ConfidentialTransferAccount) : Except ClientError BalanceBreakdown := do
  let pendingLoAmount ← okOr (extension.pendingBalanceLo.decryptU32 keys.elgamal)
    "Failed to decrypt pending_balance_lo"
  let pendingHiAmount ← okOr (extension.pendingBalanceHi.decryptU32 keys.elgamal)
    "Failed to decrypt pending_balance_hi"
  let pendingTotal := (pendingLoAmount + (pendingHiAmount <<< 16) % 2 ^ 64) % 2 ^ 64
  let _availableElgamal ← okOr (extension.availableBalance.decryptU32 keys.elgamal)
    "Failed to decrypt available_balance with ElGamal"
  let availableAes ← okOr (extension.decryptableAvailableBalance.decrypt keys.aes)
    "Failed to decrypt decryptable_available_balance with AES"
  .ok (.ofBalances publicBalance pendingTotal availableAes)

/-- `get_balances`. -/
def getBalances (owner : Wallet) (mint : Pubkey) : Client BalanceBreakdown := do
  let tokenAccount := getAssociatedTokenAddress owner.pubkey mint
  let keys ← deriveConfidentialKeys owner
  let data ← getAccount tokenAccount
  let account ← Program.ofExcept (unpackTokenAccount data)
  let extension ← Program.ofExcept (getExtension account.confidential)
  Program.ofExcept (balanceBreakdown keys account.amount extension)

/-- The amounts that `display_balances` computes: what does not open counts as zero. -/
def displayedBalances (keys : ConfidentialKeys) (publicBalance : Nat)
    (extension : ConfidentialTransferAccount) : BalanceBreakdown :=
  let pendingLoAmount := (extension.pendingBalanceLo.decryptU32 keys.elgamal).getD 0
  let pendingHiAmount := (extension.pendingBalanceHi.decryptU32 keys.elgamal).getD 0
  let pendingTotal := (pendingLoAmount + (pendingHiAmount <<< 16) % 2 ^ 64) % 2 ^ 64
  let availableBalance := (extension.decryptableAvailableBalance.decrypt keys.aes).getD 0
  .ofBalances publicBalance pendingTotal availableBalance

/-- `display_balances`, by the amounts it prints. -/
def displayBalances (owner : Wallet) (mint : Pubkey) : Client BalanceBreakdown := do
  let tokenAccount := getAssociatedTokenAddress owner.pubkey mint
  let keys ← deriveConfidentialKeys owner
  let data ← getAccount tokenAccount
  let account ← Program.ofExcept (unpackTokenAccount data)
  let extension ← Program.ofExcept (getExtension account.confidential)
  pure (displayedBalances keys account.amount extension)

/-! ## What a reader reports -/

/-- The reported amounts are the account's: each ciphertext opens, and to what is reported. -/
structure ReportsTruly (keys : ConfidentialKeys) (extension : ConfidentialTransferAccount)
    (pending available : Nat) : Prop where
  /-- The low pending balance opens. -/
  loOpens : extension.pendingBalanceLo.decryptU32 keys.elgamal ≠ none
  /-- The high pending balance opens. -/
  hiOpens : extension.pendingBalanceHi.decryptU32 keys.elgamal ≠ none
  /-- The reported pending amount is the pending plaintext. -/
  pending : (pending : ℤ) = extension.pendingAmount
  /-- The reported available amount is the AES plaintext. -/
  available : extension.decryptableAvailableBalance.decrypt keys.aes = some available

/-- Every component that a reader needs opens under the owner's keys. -/
structure Readable (keys : ConfidentialKeys) (extension : ConfidentialTransferAccount) :
    Prop where
  /-- The low pending balance is below the decryption bound. -/
  lo : extension.pendingBalanceLo.amount < 2 ^ 32
  /-- The high pending balance is below the decryption bound. -/
  hi : extension.pendingBalanceHi.amount < 2 ^ 32
  /-- The decryptable balance was written with the owner's AES key. -/
  authentic : extension.decryptableAvailableBalance.key = keys.aes

section Reports

variable {keys : ConfidentialKeys} {extension : ConfidentialTransferAccount}

/-- The limbs of a readable account, and what it has available. -/
theorem Readable.opens (keyed : Keyed keys extension) (lo : 0 ≤ extension.pendingBalanceLo.amount)
    (hi : 0 ≤ extension.pendingBalanceHi.amount) (readable : Readable keys extension) :
    ∃ low high, low < 2 ^ 32 ∧ high < 2 ^ 32 ∧
      extension.pendingBalanceLo.decryptU32 keys.elgamal = some low ∧
      extension.pendingBalanceHi.decryptU32 keys.elgamal = some high ∧
      extension.pendingAmount = ((low + high <<< 16 : Nat) : ℤ) ∧
      extension.decryptableAvailableBalance.decrypt keys.aes =
        some extension.decryptableAvailableBalance.amount := by
  obtain ⟨low, lowAmount⟩ := Int.eq_ofNat_of_zero_le lo
  obtain ⟨high, highAmount⟩ := Int.eq_ofNat_of_zero_le hi
  have lowBound := readable.lo
  have highBound := readable.hi
  have lowOpens := ElGamalCiphertext.decryptU32_eq keyed.pendingLo lowAmount
  have highOpens := ElGamalCiphertext.decryptU32_eq keyed.pendingHi highAmount
  rw [lowAmount] at lowBound
  rw [highAmount] at highBound
  unfold ElGamalCiphertext.decryptBound at lowOpens highOpens
  rw [if_pos (by omega)] at lowOpens highOpens
  refine ⟨low, high, by omega, by omega, lowOpens, highOpens, ?_, if_pos readable.authentic⟩
  rw [ConfidentialTransferAccount.pendingAmount, lowAmount, highAmount, Nat.shiftLeft_eq,
    pendingBalanceLoBits]
  push_cast
  ring

/-- An account of which anything is reported truly is readable. -/
theorem ReportsTruly.readable {pending available : Nat}
    (truly : ReportsTruly keys extension pending available) : Readable keys extension := by
  obtain ⟨low, lowOpens⟩ := Option.ne_none_iff_exists'.mp truly.loOpens
  obtain ⟨high, highOpens⟩ := Option.ne_none_iff_exists'.mp truly.hiOpens
  obtain ⟨lowAmount, lowBound⟩ := ElGamalCiphertext.decryptU32_some lowOpens
  obtain ⟨highAmount, highBound⟩ := ElGamalCiphertext.decryptU32_some highOpens
  unfold ElGamalCiphertext.decryptBound at lowBound highBound
  refine ⟨by omega, by omega, ?_⟩
  by_contra forged
  have opened := truly.available
  rw [AeCiphertext.decrypt, if_neg forged] at opened
  contradiction

/-- The demo server's view of a readable account is true. -/
theorem viewConfidential_truly (keyed : Keyed keys extension)
    (lo : 0 ≤ extension.pendingBalanceLo.amount) (hi : 0 ≤ extension.pendingBalanceHi.amount)
    (readable : Readable keys extension) :
    ReportsTruly keys extension (viewConfidential keys extension).1
      (viewConfidential keys extension).2 := by
  obtain ⟨low, high, -, -, lowOpens, highOpens, pending, available⟩ :=
    readable.opens keyed lo hi
  refine ⟨by simp [lowOpens], by simp [highOpens], ?_, ?_⟩
  · rw [pending, viewConfidential_fst, lowOpens, highOpens]
    rfl
  · rw [viewConfidential_snd, available]
    rfl

/-- What `display_balances` shows is what the demo server's view shows. -/
theorem displayedBalances_view (publicBalance : Nat) :
    (displayedBalances keys publicBalance extension).pending =
        (viewConfidential keys extension).1 ∧
      (displayedBalances keys publicBalance extension).available =
        (viewConfidential keys extension).2 := by
  have bounded (ciphertext : ElGamalCiphertext) :
      (ciphertext.decryptU32 keys.elgamal).getD 0 < 2 ^ 32 := by
    cases opened : ciphertext.decryptU32 keys.elgamal with
    | none => simp
    | some amount => exact (ElGamalCiphertext.decryptU32_some opened).2
  have low := bounded extension.pendingBalanceLo
  have high := bounded extension.pendingBalanceHi
  refine ⟨?_, rfl⟩
  simp only [displayedBalances, BalanceBreakdown.ofBalances, viewConfidential_fst, Nat.shiftLeft_eq]
  omega

/-- What `get_balances` returns is true, and what the demo server's view shows. -/
theorem balanceBreakdown_truly {publicBalance : Nat} {breakdown : BalanceBreakdown}
    (computed : balanceBreakdown keys publicBalance extension = .ok breakdown) :
    ReportsTruly keys extension breakdown.pending breakdown.available ∧
      breakdown.pending = (viewConfidential keys extension).1 ∧
      breakdown.available = (viewConfidential keys extension).2 := by
  unfold balanceBreakdown at computed
  cases lo : extension.pendingBalanceLo.decryptU32 keys.elgamal with
  | none => simp [lo, okOr, bind, Except.bind] at computed
  | some low =>
    cases hi : extension.pendingBalanceHi.decryptU32 keys.elgamal with
    | none => simp [lo, hi, okOr, bind, Except.bind] at computed
    | some high =>
      cases spendable : extension.availableBalance.decryptU32 keys.elgamal with
      | none => simp [lo, hi, spendable, okOr, bind, Except.bind] at computed
      | some current =>
        cases aes : extension.decryptableAvailableBalance.decrypt keys.aes with
        | none => simp [lo, hi, spendable, aes, okOr, bind, Except.bind] at computed
        | some available =>
          simp only [lo, hi, spendable, aes, okOr, bind, Except.bind, Except.ok.injEq]
            at computed
          subst computed
          obtain ⟨loAmount, loBound⟩ := ElGamalCiphertext.decryptU32_some lo
          obtain ⟨hiAmount, hiBound⟩ := ElGamalCiphertext.decryptU32_some hi
          unfold ElGamalCiphertext.decryptBound at loBound hiBound
          refine ⟨⟨by simp [lo], by simp [hi], ?_, by simp [aes, BalanceBreakdown.ofBalances]⟩,
            ?_, ?_⟩
          · simp only [BalanceBreakdown.ofBalances, ConfidentialTransferAccount.pendingAmount,
              loAmount, hiAmount, pendingBalanceLoBits, Nat.shiftLeft_eq]
            omega
          · simp only [BalanceBreakdown.ofBalances, viewConfidential_fst, lo, hi, Option.getD_some,
              Nat.shiftLeft_eq]
            omega
          · simp only [BalanceBreakdown.ofBalances, viewConfidential_snd, aes, Option.getD_some]

/-- Where an apply computes its values, it credits what the demo server's view shows pending. -/
theorem applyPendingValues_view {values : ApplyValues}
    (computed : applyPendingValues keys extension = .ok values) :
    (values.newAvailable : ℤ) =
      extension.availableBalance.amount + (viewConfidential keys extension).1 := by
  obtain ⟨loOpens, hiOpens, -, sum, -, -⟩ := applyPendingValues_ok computed
  obtain ⟨low, lo⟩ := Option.ne_none_iff_exists'.mp loOpens
  obtain ⟨high, hi⟩ := Option.ne_none_iff_exists'.mp hiOpens
  obtain ⟨loAmount, -⟩ := ElGamalCiphertext.decryptU32_some lo
  obtain ⟨hiAmount, -⟩ := ElGamalCiphertext.decryptU32_some hi
  rw [sum, ConfidentialTransferAccount.pendingAmount, loAmount, hiAmount]
  simp only [viewConfidential_fst, lo, hi, Option.getD_some, Nat.shiftLeft_eq, pendingBalanceLoBits]
  push_cast
  ring

end Reports

/-! ## The readers' runs -/

section Runs

variable {cluster : Cluster} {s : AppState} {owner : Wallet} {world : World}
variable {token : TokenAccount} {extension : ConfidentialTransferAccount}

/-- Reading an account that is there finds it. -/
theorem quietly_getAccount_held {key : Pubkey} (held : world.ledger.data key = .token token) :
    Quietly cluster (fun data world' => data = .token token ∧ world' = world) (getAccount key)
      world := by
  refine (quietly_getAccount key).weaken ?_
  rintro data world' ⟨rfl, fetched⟩
  exact ⟨(Ledger.fetch_ok fetched).symm.trans held, rfl⟩

/-- The demo server's view shows the decrypted account, or nothing where it could not read it. -/
theorem readAccountView_shows (held : world.ledger.data (s.tokenAccount owner) = .token token)
    (configured : token.confidential = some extension) {transcript : List (Exchange Reply)}
    {view : AccountView} {world' : World}
    (run : (chainSystem cluster).Runs world (readAccountView s owner) transcript world'
      (.done (.ok view))) :
    (Sighted transcript →
      view.pendingUi =
          baseToUi (viewConfidential owner.confidentialKeys extension).1 s.cfg.mintDecimals ∧
        view.availableUi =
          baseToUi (viewConfidential owner.confidentialKeys extension).2 s.cfg.mintDecimals) ∧
    (¬ Sighted transcript → view.pendingUi = 0 ∧ view.availableUi = 0) := by
  have read : world.ledger.confidential? (s.tokenAccount owner) = some extension := by
    simp [Ledger.confidential?, held, AccountData.token?, configured]
  obtain ⟨-, -, shown, blank⟩ := (readAccountView_sees owner _ _ _ run).2 view rfl
  constructor
  · intro sighted
    have shows := shown sighted
    have pendingUi := shows.pendingUi
    have availableUi := shows.availableUi
    simp only [AppState.openedPending, AppState.availableBalance, read, Option.elim_some]
      at pendingUi availableUi
    exact ⟨pendingUi, availableUi⟩
  · exact fun blind => ⟨(blank blind).pendingUi, (blank blind).availableUi⟩

/-- A reader that derives the keys and then reads the account goes on with what is there. -/
theorem quietly_reader_held {ok : BalanceBreakdown → World → Prop}
    {rest : ConfidentialKeys → TokenAccount → ConfidentialTransferAccount →
      Client BalanceBreakdown}
    (held : world.ledger.data (s.tokenAccount owner) = .token token)
    (configured : token.confidential = some extension)
    (after : Quietly cluster ok (rest owner.confidentialKeys token extension) world) :
    Quietly cluster ok (do
      let keys ← deriveConfidentialKeys owner
      let data ← getAccount (s.tokenAccount owner)
      let account ← Program.ofExcept (unpackTokenAccount data)
      let found ← Program.ofExcept (getExtension account.confidential)
      rest keys account found) world := by
  refine quietly_bind (quietly_deriveConfidentialKeys owner) ?_
  rintro keys world' - ⟨rfl, rfl⟩
  refine quietly_bind (quietly_getAccount_held held) ?_
  rintro data world' - ⟨rfl, rfl⟩
  refine quietly_bind (quietly_ofExcept _) ?_
  rintro account world' - ⟨unpacked, rfl⟩
  obtain rfl := Except.ok.inj unpacked
  refine quietly_bind (quietly_ofExcept _) ?_
  rintro found world' - ⟨read, rfl⟩
  rw [configured] at read
  obtain rfl := Except.ok.inj read
  exact after

/-- `get_balances` returns what it computes from the account. -/
theorem quietly_getBalances_held
    (held : world.ledger.data (s.tokenAccount owner) = .token token)
    (configured : token.confidential = some extension) :
    Quietly cluster (fun breakdown _ =>
        balanceBreakdown owner.confidentialKeys token.amount extension = .ok breakdown)
      (getBalances owner s.mint) world :=
  quietly_reader_held held configured
    ((quietly_ofExcept _).weaken fun _ _ computed => computed.1)

/-- `display_balances` shows what it computes from the account. -/
theorem quietly_displayBalances_held
    (held : world.ledger.data (s.tokenAccount owner) = .token token)
    (configured : token.confidential = some extension) :
    Quietly cluster (fun breakdown _ =>
        breakdown = displayedBalances owner.confidentialKeys token.amount extension)
      (displayBalances owner s.mint) world :=
  quietly_reader_held held configured (quietly_pure rfl)

/-- `display_balances` can return, whatever the account's ciphertexts are. -/
theorem displayBalances_returns
    (held : world.ledger.data (s.tokenAccount owner) = .token token)
    (configured : token.confidential = some extension) :
    ∃ transcript, Sighted transcript ∧ (chainSystem cluster).Runs world
      (displayBalances owner s.mint) transcript world
      (.done (.ok (displayedBalances owner.confidentialKeys token.amount extension))) := by
  have fetched : world.ledger.fetch (s.tokenAccount owner) = .ok (.token token) :=
    Ledger.fetch_eq held (by simp)
  refine ⟨[⟨.signMessage owner, .ok ()⟩,
    ⟨.getAccount (s.tokenAccount owner), .ok (.token token)⟩], by simp [Sighted, Exchange.unread],
    .next ⟨.succeed, rfl⟩ (.next ⟨.succeed, Prod.ext fetched rfl⟩ ?_)⟩
  cases token
  obtain rfl := configured
  exact .here

/-- The demo server's view can show nothing, whatever there is. -/
theorem readAccountView_blank (cluster : Cluster) (s : AppState) (owner : Wallet)
    (world : World) :
    ∃ transcript view, view.pendingUi = 0 ∧ view.availableUi = 0 ∧
      (chainSystem cluster).Runs world (readAccountView s owner) transcript world
        (.done (.ok view)) :=
  ⟨[⟨.getAccount (s.tokenAccount owner),
      .error (.accountNotFound (s.tokenAccount owner) (some ""))⟩], _, rfl, rfl,
    .next ⟨.fail "", rfl⟩ .here⟩

/-- One of the readers can report these amounts, in a run with such a transcript. -/
inductive Reported (cluster : Cluster) (s : AppState) (owner : Wallet)
    (allowed : List (Exchange Reply) → Prop) (world : World) : Nat → Nat → Prop
  /-- The demo server's view, by the base amounts that its UI amounts stand for. -/
  | view {view : AccountView} {world' : World} {pending available : Nat}
      {transcript : List (Exchange Reply)}
      (run : (chainSystem cluster).Runs world (readAccountView s owner) transcript world'
        (.done (.ok view))) (fits : allowed transcript)
      (pendingUi : view.pendingUi = baseToUi pending s.cfg.mintDecimals)
      (availableUi : view.availableUi = baseToUi available s.cfg.mintDecimals) :
      Reported cluster s owner allowed world pending available
  /-- `get_balances`. -/
  | breakdown {breakdown : BalanceBreakdown} {world' : World}
      {transcript : List (Exchange Reply)}
      (run : (chainSystem cluster).Runs world (getBalances owner s.mint) transcript world'
        (.done (.ok breakdown))) (fits : allowed transcript) :
      Reported cluster s owner allowed world breakdown.pending breakdown.available
  /-- `display_balances`. -/
  | displayed {breakdown : BalanceBreakdown} {world' : World}
      {transcript : List (Exchange Reply)}
      (run : (chainSystem cluster).Runs world (displayBalances owner s.mint) transcript world'
        (.done (.ok breakdown))) (fits : allowed transcript) :
      Reported cluster s owner allowed world breakdown.pending breakdown.available

/-- A UI amount stands for one base amount. -/
theorem baseToUi_inj {base base' decimals : Nat}
    (same : baseToUi base decimals = baseToUi base' decimals) : base = base' := by
  have power : (10 : ℚ) ^ decimals ≠ 0 := by positivity
  unfold baseToUi at same
  exact_mod_cast (div_left_inj' power).mp same

/-- Every reader reports what the demo server's view computes, opened or not, or the view could not
read the account and reports nothing. -/
theorem Reported.eq_view {allowed : List (Exchange Reply) → Prop}
    (held : world.ledger.data (s.tokenAccount owner) = .token token)
    (configured : token.confidential = some extension) {pending available : Nat}
    (reported : Reported cluster s owner allowed world pending available) :
    (pending = (viewConfidential owner.confidentialKeys extension).1 ∧
      available = (viewConfidential owner.confidentialKeys extension).2) ∨
    (pending = 0 ∧ available = 0 ∧ ∃ transcript, allowed transcript ∧ ¬ Sighted transcript) := by
  cases reported with
  | @view view world' pending available transcript run fits pendingUi availableUi =>
    obtain ⟨seen, missed⟩ := readAccountView_shows held configured run
    by_cases sighted : Sighted transcript
    · obtain ⟨shownPending, shownAvailable⟩ := seen sighted
      exact .inl ⟨baseToUi_inj (pendingUi.symm.trans shownPending),
        baseToUi_inj (availableUi.symm.trans shownAvailable)⟩
    · obtain ⟨noPending, noAvailable⟩ := missed sighted
      have zero : (0 : ℚ) = baseToUi 0 s.cfg.mintDecimals := by simp [baseToUi]
      exact .inr ⟨baseToUi_inj (pendingUi.symm.trans (noPending.trans zero)),
        baseToUi_inj (availableUi.symm.trans (noAvailable.trans zero)), transcript, fits, sighted⟩
  | breakdown run =>
    exact .inl (balanceBreakdown_truly
      ((quietly_getBalances_held held configured).ends run.reaches _ rfl)).2
  | displayed run =>
    obtain rfl := (quietly_displayBalances_held held configured).ends run.reaches _ rfl
    exact .inl (displayedBalances_view _)

/-- What a returned apply credits is what the demo server's view shows pending. -/
theorem applyPendingBalance_credits (payer : Wallet) {sig : Signature} {world' : World}
    {extension' : ConfidentialTransferAccount}
    (held : world.ledger.confidential? (s.tokenAccount owner) = some extension)
    (run : (chainSystem cluster).Ends world (applyPendingBalance payer owner s.mint) (.ok sig)
      world')
    (after : world'.ledger.confidential? (s.tokenAccount owner) = some extension') :
    extension'.availableBalance.amount = extension.availableBalance.amount +
      (viewConfidential owner.confidentialKeys extension).1 := by
  obtain ⟨plan, ⟨read, values, found, computed, rfl⟩, landed, -⟩ :=
    (applyPendingBalance_submits cluster payer owner s.mint world).ends run
  obtain rfl : read = extension := Option.some.inj (found.symm.trans held)
  have achieved : (Operation.applyPending payer owner s.mint).Achieved Sdk.ideal cluster
      world.ledger world'.ledger := applyPendingTransaction_achieved held computed landed.single
  obtain ⟨start, applied, amount, executes, changes⟩ := achieved
  obtain rfl : start = read := Option.some.inj (changes.start.symm.trans held)
  obtain rfl : applied = extension' := Option.some.inj (changes.finish.symm.trans after)
  have credited := executes.apply_effect.2.1
  have shown := applyPendingValues_view computed
  obtain ⟨-, -, -, sum, -, -⟩ := applyPendingValues_ok computed
  omega

/-- What the three readers owe in runs with such transcripts: what any of them reports is true, any
two of them agree, and a successful apply credits the reported pending amount. -/
structure ReadersAgree (cluster : Cluster) (s : AppState) (owner : Wallet)
    (allowed : List (Exchange Reply) → Prop) (world : World)
    (extension : ConfidentialTransferAccount) : Prop where
  /-- What a reader reports is true. -/
  truly : ∀ pending available, Reported cluster s owner allowed world pending available →
    ReportsTruly owner.confidentialKeys extension pending available
  /-- Two readers report the same. -/
  agree : ∀ pending available pending' available',
    Reported cluster s owner allowed world pending available →
      Reported cluster s owner allowed world pending' available' →
      pending = pending' ∧ available = available'
  /-- What is reported as pending is what an apply credits. -/
  credits : ∀ pending available payer sig world' extension',
    Reported cluster s owner allowed world pending available →
      (chainSystem cluster).Ends world (applyPendingBalance payer owner s.mint) (.ok sig) world' →
      world'.ledger.confidential? (s.tokenAccount owner) = some extension' →
      extension'.availableBalance.amount = extension.availableBalance.amount + pending

/-- Readers that all report what the view of a readable account computes owe nothing. -/
theorem readersAgree_of_view {allowed : List (Exchange Reply) → Prop}
    (found : world.ledger.confidential? (s.tokenAccount owner) = some extension)
    (keyed : Keyed owner.confidentialKeys extension)
    (lo : 0 ≤ extension.pendingBalanceLo.amount) (hi : 0 ≤ extension.pendingBalanceHi.amount)
    (readable : Readable owner.confidentialKeys extension)
    (view : ∀ pending available, Reported cluster s owner allowed world pending available →
      pending = (viewConfidential owner.confidentialKeys extension).1 ∧
        available = (viewConfidential owner.confidentialKeys extension).2) :
    ReadersAgree cluster s owner allowed world extension := by
  refine ⟨?_, ?_, ?_⟩
  · intro pending available reported
    obtain ⟨pendingShown, availableShown⟩ := view _ _ reported
    rw [pendingShown, availableShown]
    exact viewConfidential_truly keyed lo hi readable
  · intro pending available pending' available' first second
    obtain ⟨pendingShown, availableShown⟩ := view _ _ first
    obtain ⟨pendingShown', availableShown'⟩ := view _ _ second
    exact ⟨pendingShown.trans pendingShown'.symm, availableShown.trans availableShown'.symm⟩
  · intro pending available payer sig world' extension' reported run after
    rw [(view _ _ reported).1]
    exact applyPendingBalance_credits payer found run after

/-- Where the account is read, the three readers report true balances exactly on the accounts that
are readable: where a ciphertext does not open, two of them report it as zero. Where it may not be
read, they do so exactly on those that are readable and hold nothing: the server's view then reports
nothing. -/
theorem readers_agree_iff (cluster : Cluster) (s : AppState) (owner : Wallet) (world : World)
    (token : TokenAccount) (extension : ConfidentialTransferAccount)
    (held : world.ledger.data (s.tokenAccount owner) = .token token)
    (configured : token.confidential = some extension)
    (keyed : Keyed owner.confidentialKeys extension)
    (lo : 0 ≤ extension.pendingBalanceLo.amount) (hi : 0 ≤ extension.pendingBalanceHi.amount) :
    (ReadersAgree cluster s owner Sighted world extension ↔
      Readable owner.confidentialKeys extension) ∧
    (ReadersAgree cluster s owner (fun _ => True) world extension ↔
      Readable owner.confidentialKeys extension ∧ extension.pendingAmount = 0 ∧
        extension.decryptableAvailableBalance.amount = 0) := by
  have found : world.ledger.confidential? (s.tokenAccount owner) = some extension := by
    simp [Ledger.confidential?, held, AccountData.token?, configured]
  obtain ⟨shown, sighted, displayed⟩ :=
    displayBalances_returns held configured
  refine ⟨⟨fun readers => ?_, fun readable => ?_⟩, fun readers => ?_, ?_⟩
  · exact (readers.truly _ _ (.displayed displayed sighted)).readable
  · refine readersAgree_of_view found keyed lo hi readable fun pending available reported => ?_
    refine (reported.eq_view held configured).resolve_right ?_
    rintro ⟨-, -, transcript, seen, blind⟩
    exact blind seen
  · obtain ⟨transcript, view, noPending, noAvailable, run⟩ :=
      readAccountView_blank cluster s owner world
    have zero : (0 : ℚ) = baseToUi 0 s.cfg.mintDecimals := by simp [baseToUi]
    have nothing := readers.truly 0 0 (.view run trivial (noPending.trans zero)
      (noAvailable.trans zero))
    have readable := nothing.readable
    have opened : extension.decryptableAvailableBalance.decrypt owner.confidentialKeys.aes =
        some extension.decryptableAvailableBalance.amount := if_pos readable.authentic
    exact ⟨readable, nothing.pending.symm, Option.some.inj (opened.symm.trans nothing.available)⟩
  · rintro ⟨readable, noPending, noAvailable⟩
    -- What the view of this account computes is nothing, too.
    have truly := viewConfidential_truly keyed lo hi readable
    have pendingZero : (viewConfidential owner.confidentialKeys extension).1 = 0 := by
      have pending := truly.pending
      omega
    have opened : extension.decryptableAvailableBalance.decrypt owner.confidentialKeys.aes =
        some extension.decryptableAvailableBalance.amount := if_pos readable.authentic
    have availableZero : (viewConfidential owner.confidentialKeys extension).2 = 0 :=
      (Option.some.inj (truly.available.symm.trans opened)).trans noAvailable
    refine readersAgree_of_view found keyed lo hi readable fun pending available reported => ?_
    rcases reported.eq_view held configured with same | ⟨rfl, rfl, -⟩
    · exact same
    · exact ⟨pendingZero.symm, availableZero.symm⟩

/-- The demo's sender, with five available, reads true balances where its account is read. -/
theorem readers_agree_iff_demo :
    ∃ token extension,
      (World.demo 3 5).ledger.data (AppState.demo.tokenAccount ⟨1⟩) = .token token ∧
      token.confidential = some extension ∧ extension.availableBalance.amount = 5 ∧
      ReadersAgree Cluster.ideal .demo ⟨1⟩ Sighted (.demo 3 5) extension :=
  ⟨_, _, rfl, rfl, rfl, (readers_agree_iff Cluster.ideal .demo ⟨1⟩ (.demo 3 5) _ _ rfl rfl
    ⟨rfl, rfl, rfl, rfl⟩ (by decide) (by decide)).1.mpr ⟨by decide, by decide, rfl⟩⟩

/-- The demo's sender after two deposits of the largest amount that a deposit can have. -/
def World.overflowing : World :=
  Operation.idealWorld
    [.deposit ⟨0⟩ ⟨1⟩ AppState.demo.mint (2 ^ 48 - 1) 2,
      .deposit ⟨0⟩ ⟨1⟩ AppState.demo.mint (2 ^ 48 - 1) 2] (.demo (2 ^ 49) 0)

/-- Its high pending balance does not open, and the demo server's view shows the low one alone,
though it read the account. -/
theorem readers_disagree_overflowing :
    ∃ token extension transcript view,
      World.overflowing.ledger.data (AppState.demo.tokenAccount ⟨1⟩) = .token token ∧
      token.confidential = some extension ∧
      Keyed (Wallet.confidentialKeys ⟨1⟩) extension ∧
      extension.pendingAmount = 2 ^ 49 - 2 ∧
      (chainSystem Cluster.ideal).Runs .overflowing (readAccountView .demo ⟨1⟩) transcript
        .overflowing (.done (.ok view)) ∧ Sighted transcript ∧
      view.pendingUi = baseToUi 131070 2 ∧
      ¬ ReadersAgree Cluster.ideal .demo ⟨1⟩ Sighted .overflowing extension := by
  have run := (chain Cluster.ideal).run_runs (readAccountView .demo ⟨1⟩) .overflowing []
  have shown : ((chain Cluster.ideal).run (readAccountView .demo ⟨1⟩) .overflowing []).1 =
      .ok ⟨_, _, _, _, baseToUi 131070 2, _, _⟩ := rfl
  rw [shown] at run
  have sighted : Sighted ((chain Cluster.ideal).transcript (readAccountView .demo ⟨1⟩)
    .overflowing []) := by decide +kernel
  refine ⟨_, _, _, _, rfl, rfl, ⟨rfl, rfl, rfl, rfl⟩, by decide +kernel, run, sighted, rfl,
    fun readers => ?_⟩
  have reported : Reported Cluster.ideal .demo ⟨1⟩ Sighted .overflowing 131070 0 :=
    .view run sighted rfl rfl
  exact absurd (readers.truly _ _ reported).pending (by decide +kernel)

end Runs

end ConfidentialBalances
