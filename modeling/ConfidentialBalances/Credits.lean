import ConfidentialBalances.Decryption

/-!
# Carries between the pending limbs

A list of credits, each split at 16 bits into the two pending ciphertexts. The
limbs are summed apart, so the low one holds the carries of all credits at once.
The credit counter keeps it below the decryption bound, and an apply joins both
limbs to the exact sum of the credited amounts.
-/

namespace ConfidentialBalances

/-- A credit to an account with this key: an amount below 2^48, deposited in the clear or carried
by an incoming transfer. -/
inductive Credit (key : ElGamalPubkey)
  /-- A deposit. -/
  | deposit (amount : Nat) (bound : amount < 2 ^ 48)
  /-- The receiving side of a transfer. -/
  | receive (transfer : TransferAmount) (amount : Nat) (bound : amount < 2 ^ 48)
      (carries : transfer.Carries amount) (destination : transfer.destination = key)

namespace Credit

variable {key : ElGamalPubkey}

/-- The credited amount. -/
def amount : Credit key → Nat
  | .deposit amount _ => amount
  | .receive _ amount _ _ _ => amount

/-- What the token program does with the credit. -/
def enter (account : ConfidentialTransferAccount) :
    Credit key → Option ConfidentialTransferAccount
  | .deposit amount _ => account.deposit amount
  | .receive transfer _ _ _ _ => account.transferIn (.validity transfer)

/-- The credits one after another. -/
def enterAll (account : ConfidentialTransferAccount) :
    List (Credit key) → Option ConfidentialTransferAccount
  | [] => some account
  | credit :: rest => do enterAll (← credit.enter account) rest

/-- The sum of the credited amounts. -/
def total (credits : List (Credit key)) : Nat := (credits.map amount).sum

/-- The sum of their low 16 bits. -/
def lowTotal (credits : List (Credit key)) : Nat :=
  (credits.map fun credit => credit.amount % 2 ^ pendingBalanceLoBits).sum

/-- The sum of their remaining high bits. -/
def highTotal (credits : List (Credit key)) : Nat :=
  (credits.map fun credit => credit.amount / 2 ^ pendingBalanceLoBits).sum

/-- The limbs' sums make up the whole sum, carries included. -/
theorem lowTotal_add_highTotal (credits : List (Credit key)) :
    lowTotal credits + 2 ^ pendingBalanceLoBits * highTotal credits = total credits := by
  induction credits with
  | nil => rfl
  | cons credit rest ih =>
    have limbs := Nat.mod_add_div credit.amount (2 ^ pendingBalanceLoBits)
    simp only [lowTotal, highTotal, total, List.map_cons, List.sum_cons] at ih ⊢
    rw [Nat.mul_add]
    omega

/-- Every credit adds less than 2^16 to the low limb. -/
theorem lowTotal_le (credits : List (Credit key)) :
    lowTotal credits ≤ credits.length * (2 ^ 16 - 1) := by
  induction credits with
  | nil => simp [lowTotal]
  | cons credit rest ih =>
    have limb : credit.amount % 2 ^ pendingBalanceLoBits < 2 ^ 16 :=
      Nat.mod_lt _ (by decide)
    simp only [lowTotal, List.map_cons, List.sum_cons, List.length_cons] at ih ⊢
    omega

/-- As many credits as the counter admits leave the low limb below the decryption bound. -/
theorem lowTotal_lt (credits : List (Credit key))
    (few : credits.length ≤ maxPendingBalanceCreditCounter) :
    lowTotal credits < ElGamalCiphertext.decryptBound := by
  have bound := lowTotal_le credits
  unfold maxPendingBalanceCreditCounter at few
  unfold ElGamalCiphertext.decryptBound
  omega

end Credit

/-- Nothing is pending on an approved account of the owner, configured as the library does, and
this much is available. -/
structure Uncredited (keys : ConfidentialKeys) (account : ConfidentialTransferAccount)
    (available : Nat) : Prop where
  /-- Balances are encrypted under the owner's key. -/
  keyed : Keyed keys account
  /-- The account takes credits. -/
  approved : account.approved = true
  /-- The low pending balance is zero. -/
  lo : account.pendingBalanceLo.amount = 0
  /-- The high pending balance is zero. -/
  hi : account.pendingBalanceHi.amount = 0
  /-- The available plaintext. -/
  available : account.availableBalance.amount = available
  /-- No credit is counted. -/
  counter : account.pendingBalanceCreditCounter = 0
  /-- The limit on credits is the one the library configures. -/
  maximum : account.maximumPendingBalanceCreditCounter = maxPendingBalanceCreditCounter

/-- The account after credits: their limbs are added to the two pending plaintexts, and nothing
else has changed but the count. -/
structure Credited (account account' : ConfidentialTransferAccount) (low high count : Nat) :
    Prop where
  /-- The low limbs are added up. -/
  lo : account'.pendingBalanceLo.amount = account.pendingBalanceLo.amount + low
  /-- The high limbs are added up. -/
  hi : account'.pendingBalanceHi.amount = account.pendingBalanceHi.amount + high
  /-- The credits are counted. -/
  counter : account'.pendingBalanceCreditCounter = account.pendingBalanceCreditCounter + count
  /-- The available balance is the same. -/
  available : account'.availableBalance = account.availableBalance
  /-- The account still takes credits. -/
  approved : account'.approved = account.approved
  /-- The limit on credits is the same. -/
  maximum : account'.maximumPendingBalanceCreditCounter =
    account.maximumPendingBalanceCreditCounter

section Accrual

variable {keys : ConfidentialKeys} {account account' : ConfidentialTransferAccount}

/-- What one accepted credit leaves. -/
theorem credit_credited {lo hi : ElGamalCiphertext} {low high : Nat} (low_eq : lo.amount = low)
    (high_eq : hi.amount = high) (credited : account.credit lo hi = some account') :
    Credited account account' low high 1 := by
  obtain ⟨-, rfl⟩ := ConfidentialTransferAccount.credit_some credited
  exact ⟨by simp [low_eq], by simp [high_eq], rfl, rfl, rfl, rfl⟩

/-- An approved account with room in its counter takes any credit to its key. -/
theorem Credit.enter_credited (keyed : Keyed keys account) (approved : account.approved = true)
    (room : account.pendingBalanceCreditCounter < account.maximumPendingBalanceCreditCounter)
    (credit : Credit keys.elgamal.pubkey) :
    ∃ account', credit.enter account = some account' ∧ Keyed keys account' ∧
      Credited account account' (credit.amount % 2 ^ pendingBalanceLoBits)
        (credit.amount / 2 ^ pendingBalanceLoBits) 1 := by
  have taken : ∀ lo hi, ∃ account', account.credit lo hi = some account' := fun lo hi =>
    ⟨_, if_pos ⟨approved, room⟩⟩
  cases credit with
  | deposit amount bound =>
    obtain ⟨account', credited⟩ := taken
      (.ofAmount account.elgamalPubkey (amount % 2 ^ pendingBalanceLoBits))
      (.ofAmount account.elgamalPubkey (amount / 2 ^ pendingBalanceLoBits))
    have small : amount ≤ ConfidentialTransferAccount.maximumDepositTransferAmount := by
      unfold ConfidentialTransferAccount.maximumDepositTransferAmount
      omega
    refine ⟨account', ?_, credit_keyed keyed credited, credit_credited rfl rfl credited⟩
    simp only [Credit.enter, ConfidentialTransferAccount.deposit, if_pos small, credited]
  | receive transfer amount bound carries destination =>
    obtain ⟨account', credited⟩ := taken (transfer.credit transfer.lo)
      (transfer.credit transfer.hi)
    have ours : transfer.destination = account.elgamalPubkey := destination.trans keyed.pubkey.symm
    refine ⟨account', ?_, credit_keyed keyed credited,
      credit_credited carries.1 carries.2 credited⟩
    simp only [Credit.enter, ConfidentialTransferAccount.transferIn, if_pos ours, credited]

/-- An approved account takes as many credits as its counter has room for. -/
theorem Credit.enterAll_credited (keyed : Keyed keys account)
    (approved : account.approved = true) (credits : List (Credit keys.elgamal.pubkey))
    (room : account.pendingBalanceCreditCounter + credits.length ≤
      account.maximumPendingBalanceCreditCounter) :
    ∃ account', Credit.enterAll account credits = some account' ∧ Keyed keys account' ∧
      Credited account account' (lowTotal credits) (highTotal credits) credits.length := by
  induction credits generalizing account with
  | nil =>
    exact ⟨account, rfl, keyed, by simp [lowTotal], by simp [highTotal], rfl, rfl, rfl, rfl⟩
  | cons credit rest ih =>
    rw [List.length_cons] at room
    obtain ⟨middle, entered, keyed', first⟩ := credit.enter_credited keyed approved (by omega)
    obtain ⟨account', later, keyed'', second⟩ := ih keyed' (first.approved.trans approved)
      (by rw [first.counter, first.maximum]; omega)
    refine ⟨account', ?_, keyed'', ?_⟩
    · simp only [Credit.enterAll, entered, Option.bind_eq_bind, Option.bind_some, later]
    · refine ⟨?_, ?_, ?_, second.available.trans first.available,
        second.approved.trans first.approved, second.maximum.trans first.maximum⟩
      · rw [second.lo, first.lo]
        simp only [lowTotal, List.map_cons, List.sum_cons]
        push_cast
        ring
      · rw [second.hi, first.hi]
        simp only [highTotal, List.map_cons, List.sum_cons]
        push_cast
        ring
      · rw [second.counter, first.counter, List.length_cons]
        omega

/-- What an apply after the credits reads and computes. -/
structure AppliesExactly (keys : ConfidentialKeys) (credited : ConfidentialTransferAccount)
    (credits : List (Credit keys.elgamal.pubkey)) (available : Nat) : Prop where
  /-- The low pending balance is below the bound. -/
  low : Credit.lowTotal credits < 2 ^ 32
  /-- The low pending balance always decrypts. -/
  lowDecrypts : credited.pendingBalanceLo.decryptU32 keys.elgamal =
    some (Credit.lowTotal credits)
  /-- All three balances decrypt exactly when the other two are below the bound. -/
  decrypts : (credited.pendingBalanceLo.decryptU32 keys.elgamal ≠ none ∧
      credited.pendingBalanceHi.decryptU32 keys.elgamal ≠ none ∧
      credited.availableBalance.decryptU32 keys.elgamal ≠ none) ↔
    Credit.highTotal credits < 2 ^ 32 ∧ available < 2 ^ 32
  /-- Then nothing is lost in 64 bits, and what is encrypted is the exact sum. -/
  exact : Credit.highTotal credits < 2 ^ 32 → available < 2 ^ 32 →
    Credit.highTotal credits <<< 16 < 2 ^ 64 ∧
    Credit.lowTotal credits + Credit.highTotal credits <<< 16 < 2 ^ 64 ∧
    available + (Credit.lowTotal credits + Credit.highTotal credits <<< 16) < 2 ^ 64 ∧
    applyPendingValues keys credited = .ok ⟨available + Credit.total credits,
      keys.aes.encrypt (available + Credit.total credits), credits.length⟩

/-- Any list of credits that the counter admits is taken, and an apply after it computes the exact
new balance; only the high limbs and the available balance can stop it. -/
theorem credits_apply_exactly (available : Nat) (uncredited : Uncredited keys account available)
    (credits : List (Credit keys.elgamal.pubkey))
    (few : credits.length ≤ maxPendingBalanceCreditCounter) :
    ∃ credited, Credit.enterAll account credits = some credited ∧
      AppliesExactly keys credited credits available := by
  obtain ⟨credited, entered, keyed, accrued⟩ := Credit.enterAll_credited uncredited.keyed
    uncredited.approved credits (by rw [uncredited.counter, uncredited.maximum]; omega)
  have low := Credit.lowTotal_lt credits few
  have loAmount : credited.pendingBalanceLo.amount = (Credit.lowTotal credits : ℤ) := by
    simp [accrued.lo, uncredited.lo]
  have hiAmount : credited.pendingBalanceHi.amount = (Credit.highTotal credits : ℤ) := by
    simp [accrued.hi, uncredited.hi]
  have held : credited.availableBalance.amount = (available : ℤ) := by
    rw [accrued.available, uncredited.available]
  have lo := ElGamalCiphertext.decryptU32_eq keyed.pendingLo loAmount
  have hi := ElGamalCiphertext.decryptU32_eq keyed.pendingHi hiAmount
  have spendable := ElGamalCiphertext.decryptU32_eq keyed.available held
  rw [if_pos low] at lo
  refine ⟨credited, entered, low, lo, ?_, ?_⟩
  · have opens (amount : Nat) : (if amount < ElGamalCiphertext.decryptBound then some amount
        else none) ≠ none ↔ amount < 2 ^ 32 := by
      unfold ElGamalCiphertext.decryptBound
      by_cases below : amount < 2 ^ 32
      · rw [if_pos below]
        exact iff_of_true (Option.some_ne_none _) below
      · rw [if_neg below]
        exact iff_of_false (fun opened => opened rfl) below
    rw [lo, hi, spendable, opens, opens]
    simp
  · intro high current
    have limbs := Credit.lowTotal_add_highTotal credits
    have counted : credited.pendingBalanceCreditCounter = credits.length := by
      rw [accrued.counter, uncredited.counter, Nat.zero_add]
    unfold ElGamalCiphertext.decryptBound at low hi spendable
    unfold pendingBalanceLoBits at limbs
    rw [if_pos high] at hi
    rw [if_pos current] at spendable
    have shifted : Credit.highTotal credits <<< 16 = 2 ^ 16 * Credit.highTotal credits := by
      rw [Nat.shiftLeft_eq, Nat.mul_comm]
    have sum : (available + (Credit.lowTotal credits +
        (Credit.highTotal credits <<< 16) % 2 ^ 64) % 2 ^ 64) % 2 ^ 64 =
          available + Credit.total credits := by
      omega
    refine ⟨by omega, by omega, by omega, ?_⟩
    simp only [applyPendingValues, lo, hi, spendable, okOr, bind, Except.bind, sum, counted]

/-- Two credits whose low limbs carry, on a freshly configured account. -/
theorem credits_apply_exactly_carry :
    ∃ credited, Credit.enterAll (.configured true (.standard ⟨0⟩) (AeKey.encrypt (.standard ⟨0⟩) 0)
        maxPendingBalanceCreditCounter)
        [(.deposit 65535 (by decide) : Credit (.standard ⟨0⟩)), .deposit 65536 (by decide)] =
          some credited ∧
      AppliesExactly (Wallet.confidentialKeys ⟨0⟩) credited
        [.deposit 65535 (by decide), .deposit 65536 (by decide)] 0 :=
  credits_apply_exactly 0 ⟨⟨rfl, rfl, rfl, rfl⟩, rfl, rfl, rfl, rfl, rfl, rfl⟩
    [.deposit 65535 (by decide), .deposit 65536 (by decide)] (by decide)

end Accrual

end ConfidentialBalances
