import ConfidentialBalances.ApplyPending
import ConfidentialBalances.Configure
import ConfidentialBalances.Transfer
import ConfidentialBalances.Withdraw

/-!
# Reading and landing

What the owner's calls do with one account, seen from the account: a call reads
it once, computes what to submit from that snapshot, and later lands it on the
account as it then is. Apply and withdraw compute from the ElGamal balance,
transfer from the AES balance, and each of them writes both.
-/

namespace ConfidentialBalances

/-- What a call sets out to do with its owner's account. -/
inductive Task
  /-- `apply_pending_balance`. -/
  | apply
  /-- `withdraw_from_confidential`. -/
  | withdraw (amount : Nat)
  /-- `transfer_confidential`, to a recipient's key and for the mint's auditor. -/
  | transfer (amount : Nat) (recipient : ElGamalPubkey) (auditor : Option ElGamalPubkey)
  deriving DecidableEq, Repr

/-- The tokens a task takes from the available balance. -/
def Task.amount : Task → Nat
  | .apply => 0
  | .withdraw amount => amount
  | .transfer amount _ _ => amount

section Executes

variable (sdk : Sdk) (cluster : Cluster) (keys : ConfidentialKeys)
variable (snapshot : ConfidentialTransferAccount)

/-- The token program accepts on an account what a task computed from a snapshot of it. -/
inductive Executes :
    Task → ConfidentialTransferAccount → ConfidentialTransferAccount → Prop
  /-- An apply of the values computed from the snapshot. -/
  | apply {account account' : ConfidentialTransferAccount} {values : ApplyValues}
      (computed : applyPendingValues keys snapshot = .ok values)
      (accepted : account.applyPendingBalance values.expectedCounter values.newDecryptable =
        some account') : Executes .apply account account'
  /-- A withdraw of the values computed from the snapshot, with its verified proofs. -/
  | withdraw {account account' : ConfidentialTransferAccount} {amount : Nat}
      {values : WithdrawValues} {equality range : ProofContext}
      (computed : withdrawValues sdk keys snapshot amount = .ok values)
      (equalityStated : cluster.verify .ciphertextCommitmentEquality
        values.proofData.equalityProofData = some equality)
      (rangeStated : cluster.verify .batchedRangeProofU64 values.proofData.rangeProofData =
        some range)
      (accepted : account.withdraw amount values.newDecryptable equality range = some account') :
      Executes (.withdraw amount) account account'
  /-- A transfer of the values computed from the snapshot, with its verified proofs. -/
  | transfer {account account' : ConfidentialTransferAccount} {amount : Nat}
      {recipient : ElGamalPubkey} {auditor : Option ElGamalPubkey} {data : TransferProofData}
      {newDecryptable : AeCiphertext} {equality validity range : ProofContext}
      (generated : sdk.transferSplitProofData snapshot.availableBalance
        snapshot.decryptableAvailableBalance amount keys.elgamal keys.aes recipient auditor =
          .ok data)
      (computed : transferNewDecryptable keys.aes snapshot.decryptableAvailableBalance amount =
        .ok newDecryptable)
      (equalityStated : cluster.verify .ciphertextCommitmentEquality data.equalityProofData =
        some equality)
      (validityStated : cluster.verify .batchedGroupedCiphertext3HandlesValidity
        data.ciphertextValidityProofData = some validity)
      (rangeStated : cluster.verify .batchedRangeProofU128 data.rangeProofData = some range)
      (accepted : account.transferOut newDecryptable equality validity range = some account') :
      Executes (.transfer amount recipient auditor) account account'

/-- Execute on an account what a task computed from a snapshot of it. -/
def Task.execute (account : ConfidentialTransferAccount) :
    Task → Option ConfidentialTransferAccount
  | .apply => do
    let values ← (applyPendingValues keys snapshot).toOption
    account.applyPendingBalance values.expectedCounter values.newDecryptable
  | .withdraw amount => do
    let values ← (withdrawValues sdk keys snapshot amount).toOption
    let equality ← cluster.verify .ciphertextCommitmentEquality values.proofData.equalityProofData
    let range ← cluster.verify .batchedRangeProofU64 values.proofData.rangeProofData
    account.withdraw amount values.newDecryptable equality range
  | .transfer amount recipient auditor => do
    let data ← (sdk.transferSplitProofData snapshot.availableBalance
      snapshot.decryptableAvailableBalance amount keys.elgamal keys.aes recipient auditor).toOption
    let newDecryptable ←
      (transferNewDecryptable keys.aes snapshot.decryptableAvailableBalance amount).toOption
    let equality ← cluster.verify .ciphertextCommitmentEquality data.equalityProofData
    let validity ← cluster.verify .batchedGroupedCiphertext3HandlesValidity
      data.ciphertextValidityProofData
    let range ← cluster.verify .batchedRangeProofU128 data.rangeProofData
    account.transferOut newDecryptable equality validity range

end Executes

/-- What an `Except` holds as an option is its value. -/
theorem toOption_some {ε α : Type} {result : Except ε α} {value : α} :
    result.toOption = some value ↔ result = .ok value := by
  cases result <;> simp [Except.toOption]

/-- Executing is what is executed. -/
theorem Task.execute_some {sdk : Sdk} {cluster : Cluster} {keys : ConfidentialKeys}
    {snapshot account account' : ConfidentialTransferAccount} (task : Task) :
    task.execute sdk cluster keys snapshot account = some account' ↔
      Executes sdk cluster keys snapshot task account account' := by
  cases task with
  | apply =>
    simp only [execute, Option.bind_eq_bind, Option.bind_eq_some_iff, toOption_some]
    constructor
    · rintro ⟨values, computed, accepted⟩
      exact .apply computed accepted
    · rintro ⟨computed, accepted⟩
      exact ⟨_, computed, accepted⟩
  | withdraw amount =>
    simp only [execute, Option.bind_eq_bind, Option.bind_eq_some_iff, toOption_some]
    constructor
    · rintro ⟨values, computed, equality, equalityStated, range, rangeStated, accepted⟩
      exact .withdraw computed equalityStated rangeStated accepted
    · rintro (_ | ⟨computed, equalityStated, rangeStated, accepted⟩)
      exact ⟨_, computed, _, equalityStated, _, rangeStated, accepted⟩
  | transfer amount recipient auditor =>
    simp only [execute, Option.bind_eq_bind, Option.bind_eq_some_iff, toOption_some]
    constructor
    · rintro ⟨data, generated, decryptable, computed, equality, equalityStated, validity,
        validityStated, range, rangeStated, accepted⟩
      exact .transfer generated computed equalityStated validityStated rangeStated accepted
    · rintro (_ | _ | ⟨generated, computed, equalityStated, validityStated, rangeStated, accepted⟩)
      exact ⟨_, generated, _, computed, _, equalityStated, _, validityStated, _, rangeStated,
        accepted⟩

/-- The two representations of the available balance agree: the AES ciphertext decrypts to what
the ElGamal ciphertext holds. -/
def Synced (keys : ConfidentialKeys) (account : ConfidentialTransferAccount) : Prop :=
  ∃ amount, account.decryptableAvailableBalance.decrypt keys.aes = some amount ∧
    account.availableBalance.amount = amount

instance (keys : ConfidentialKeys) (account : ConfidentialTransferAccount) :
    Decidable (Synced keys account) :=
  decidable_of_iff ((account.decryptableAvailableBalance.decrypt keys.aes).map Int.ofNat =
      some account.availableBalance.amount) <| by
    simp only [Synced, Option.map_eq_some_iff]
    exact exists_congr fun amount => and_congr_right fun _ => eq_comm

/-- Every balance is encrypted under the owner's key. -/
structure Keyed (keys : ConfidentialKeys) (account : ConfidentialTransferAccount) : Prop where
  /-- The registered key. -/
  pubkey : account.elgamalPubkey = keys.elgamal.pubkey
  /-- The low pending balance. -/
  pendingLo : account.pendingBalanceLo.key = keys.elgamal.pubkey
  /-- The high pending balance. -/
  pendingHi : account.pendingBalanceHi.key = keys.elgamal.pubkey
  /-- The available balance. -/
  available : account.availableBalance.key = keys.elgamal.pubkey

section Facts

variable {sdk : Sdk} {cluster : Cluster} {keys : ConfidentialKeys}
variable {snapshot account account' : ConfidentialTransferAccount}

/-! ## What each task does to the account -/

/-- A withdraw that computes its values decrypted a balance that covers the amount. -/
theorem withdrawValues_ok {amount : Nat} {values : WithdrawValues}
    (computed : withdrawValues sdk keys snapshot amount = .ok values) :
    ∃ current, snapshot.availableBalance.decryptU32 keys.elgamal = some current ∧
      amount ≤ current ∧ values.newDecryptable = keys.aes.encrypt (current - amount) ∧
      sdk.withdrawProofData snapshot.availableBalance current amount keys.elgamal =
        .ok values.proofData := by
  unfold withdrawValues at computed
  cases decrypted : snapshot.availableBalance.decryptU32 keys.elgamal with
  | none => simp [decrypted, okOr, bind, Except.bind] at computed
  | some current =>
    simp only [decrypted, okOr, bind, Except.bind] at computed
    split at computed
    · contradiction
    · rename_i covered
      split at computed
      · contradiction
      · rename_i proofData generated
        obtain rfl := Except.ok.inj computed
        exact ⟨current, rfl, by omega, rfl, labelError_ok generated⟩

/-- A transfer that computes its new decryptable balance decrypted one that covers the amount. -/
theorem transferNewDecryptable_ok {aes : AeKey} {decryptable newDecryptable : AeCiphertext}
    {amount : Nat} (computed : transferNewDecryptable aes decryptable amount = .ok newDecryptable) :
    ∃ current, decryptable.decrypt aes = some current ∧ amount ≤ current ∧
      newDecryptable = aes.encrypt (current - amount) := by
  unfold transferNewDecryptable at computed
  cases decrypted : decryptable.decrypt aes with
  | none => simp [decrypted, okOr, bind, Except.bind] at computed
  | some current =>
    simp only [decrypted, okOr, bind, Except.bind] at computed
    split at computed
    · contradiction
    · rename_i covered
      exact ⟨current, rfl, by omega, (Except.ok.inj computed).symm⟩

/-- An accepted apply found the snapshot's credit count, moved the whole pending balance, and wrote
the total that the snapshot had. -/
theorem applied_effect {values : ApplyValues}
    (computed : applyPendingValues keys snapshot = .ok values)
    (accepted : account.applyPendingBalance values.expectedCounter values.newDecryptable =
      some account') :
    account.pendingBalanceCreditCounter = snapshot.pendingBalanceCreditCounter ∧
      account'.availableBalance.amount = account.availableBalance.amount + account.pendingAmount ∧
      account'.pendingAmount = 0 ∧
      ∃ total : Nat, account'.decryptableAvailableBalance.decrypt keys.aes = some total ∧
        (total : ℤ) = snapshot.availableBalance.amount + snapshot.pendingAmount := by
  obtain ⟨-, -, -, total, decryptable, expected⟩ := applyPendingValues_ok computed
  obtain ⟨counter, rfl⟩ := ConfidentialTransferAccount.applyPendingBalance_some accepted
  refine ⟨counter.trans expected, ?_, by simp [ConfidentialTransferAccount.pendingAmount], _, ?_,
    total⟩
  · simp [ConfidentialTransferAccount.pendingAmount, add_assoc]
  · simp [decryptable]

/-- What an accepted apply did, a landed apply did. -/
theorem Executes.apply_effect
    (executes : Executes sdk cluster keys snapshot .apply account account') :
    account.pendingBalanceCreditCounter = snapshot.pendingBalanceCreditCounter ∧
      account'.availableBalance.amount = account.availableBalance.amount + account.pendingAmount ∧
      account'.pendingAmount = 0 ∧
      ∃ total : Nat, account'.decryptableAvailableBalance.decrypt keys.aes = some total ∧
        (total : ℤ) = snapshot.availableBalance.amount + snapshot.pendingAmount := by
  obtain ⟨computed, accepted⟩ := executes
  exact applied_effect computed accepted

/-- A landed withdraw takes its amount from the available balance, and wrote what the snapshot's
ElGamal balance leaves. -/
theorem Executes.withdraw_effect {amount : Nat}
    (executes : Executes sdk cluster keys snapshot (.withdraw amount) account account') :
    account'.availableBalance.amount = account.availableBalance.amount - amount ∧
      account'.pendingAmount = account.pendingAmount ∧
      account'.pendingBalanceCreditCounter = account.pendingBalanceCreditCounter ∧
      ∃ left : Nat, account'.decryptableAvailableBalance.decrypt keys.aes = some left ∧
        (left : ℤ) = snapshot.availableBalance.amount - amount := by
  rcases executes with - | ⟨computed, -, -, accepted⟩
  obtain ⟨current, decrypted, covered, decryptable, -⟩ := withdrawValues_ok computed
  obtain ⟨encrypts, -⟩ := ElGamalCiphertext.decryptU32_some decrypted
  obtain ⟨commitment, -, -, rfl⟩ := ConfidentialTransferAccount.withdraw_some accepted
  refine ⟨rfl, rfl, rfl, current - amount, by simp [decryptable], ?_⟩
  rw [encrypts]
  omega

/-- A landed withdraw found the snapshot's available ciphertext. -/
theorem Executes.withdraw_unchanged (honest : Honest sdk cluster) {amount : Nat}
    (pubkey : account.elgamalPubkey = keys.elgamal.pubkey)
    (executes : Executes sdk cluster keys snapshot (.withdraw amount) account account') :
    account.availableBalance = snapshot.availableBalance := by
  rcases executes with - | ⟨computed, stated, -, accepted⟩
  obtain ⟨current, -, -, -, generated⟩ := withdrawValues_ok computed
  obtain ⟨commitment, rfl⟩ := honest.withdrawals _ _ _ _ _ _ generated stated
  obtain ⟨commitment', same, -⟩ := ConfidentialTransferAccount.withdraw_some accepted
  obtain ⟨remaining, -⟩ := ProofContext.equality.inj same
  rw [pubkey] at remaining
  exact (ElGamalCiphertext.sub_left_injective remaining).symm

/-- A landed transfer found the snapshot's available ciphertext, which held what the snapshot's AES
balance held; it takes its amount from both. -/
theorem Executes.transfer_effect (honest : Honest sdk cluster) {amount : Nat}
    {recipient : ElGamalPubkey} {auditor : Option ElGamalPubkey}
    (executes : Executes sdk cluster keys snapshot (.transfer amount recipient auditor) account
      account') :
    account.availableBalance = snapshot.availableBalance ∧ Synced keys snapshot ∧
      account'.availableBalance.amount = account.availableBalance.amount - amount ∧
      account'.pendingAmount = account.pendingAmount ∧
      account'.pendingBalanceCreditCounter = account.pendingBalanceCreditCounter ∧
      ∃ left : Nat, account'.decryptableAvailableBalance.decrypt keys.aes = some left ∧
        (left : ℤ) = snapshot.availableBalance.amount - amount := by
  rcases executes with
      - | - | ⟨generated, computed, equalityStated, validityStated, rangeStated, accepted⟩
  obtain ⟨current, decrypted, covered, rfl⟩ := transferNewDecryptable_ok computed
  obtain ⟨plaintext, decrypted', -, stated⟩ := honest.transfers _ _ _ _ _ _ _ _ generated
  obtain rfl : plaintext = current := Option.some.inj (decrypted'.symm.trans decrypted)
  obtain ⟨transfer, commitment, -, -, lo, hi, remains, rfl, rfl, rfl⟩ :=
    stated _ _ _ equalityStated validityStated rangeStated
  obtain ⟨commitment', transfer', equality, validity, -, rfl⟩ :=
    ConfidentialTransferAccount.transferOut_some accepted
  obtain rfl := ProofContext.validity.inj validity
  obtain ⟨remaining, rfl⟩ := ProofContext.equality.inj equality
  have unchanged := ElGamalCiphertext.sub_left_injective remaining
  have debit := TransferAmount.debit_amount lo hi
  -- Soundness ties the ElGamal balance of the snapshot to its AES balance.
  have holds : (snapshot.availableBalance.sub transfer.debit).amount = commitment.amount :=
    honest.sound _ _ _ equalityStated
  rw [ElGamalCiphertext.sub_amount, debit, remains] at holds
  have balance : snapshot.availableBalance.amount = plaintext := by omega
  refine ⟨unchanged.symm, ⟨plaintext, decrypted, balance⟩, ?_, rfl, rfl, plaintext - amount,
    by simp, ?_⟩
  · simp [debit]
  · rw [balance]
    omega

/-! ## Tasks that land on the account they read -/

/-- A task that lands on the account it read leaves both representations in agreement, whatever
they were before. -/
theorem Executes.synced (honest : Honest sdk cluster) {task : Task}
    (executes : Executes sdk cluster keys account task account account') :
    Synced keys account' := by
  cases task with
  | apply =>
    obtain ⟨-, moved, -, total, decrypted, sum⟩ := executes.apply_effect
    exact ⟨total, decrypted, moved.trans sum.symm⟩
  | withdraw amount =>
    obtain ⟨taken, -, -, left, decrypted, rest⟩ := executes.withdraw_effect
    exact ⟨left, decrypted, taken.trans rest.symm⟩
  | transfer amount recipient auditor =>
    obtain ⟨-, -, taken, -, -, left, decrypted, rest⟩ := executes.transfer_effect honest
    exact ⟨left, decrypted, taken.trans rest.symm⟩

/-- Tasks keep balances under the owner's key. -/
theorem Executes.keyed {task : Task} (keyed : Keyed keys account)
    (executes : Executes sdk cluster keys snapshot task account account') :
    Keyed keys account' := by
  obtain ⟨pubkey, pendingLo, pendingHi, available⟩ := keyed
  cases executes with
  | apply computed accepted =>
    obtain ⟨-, rfl⟩ := ConfidentialTransferAccount.applyPendingBalance_some accepted
    exact ⟨pubkey, pubkey, pubkey, available⟩
  | withdraw computed equality range accepted =>
    obtain ⟨commitment, -, -, rfl⟩ := ConfidentialTransferAccount.withdraw_some accepted
    exact ⟨pubkey, pendingLo, pendingHi, available⟩
  | transfer generated computed equality validity range accepted =>
    obtain ⟨commitment, transfer, -, -, -, rfl⟩ :=
      ConfidentialTransferAccount.transferOut_some accepted
    exact ⟨pubkey, pendingLo, pendingHi, available⟩

/-- A credit keeps balances under the owner's key, and both representations as they are. -/
theorem credit_keyed {lo hi : ElGamalCiphertext} (keyed : Keyed keys account)
    (credited : account.credit lo hi = some account') : Keyed keys account' := by
  obtain ⟨-, rfl⟩ := ConfidentialTransferAccount.credit_some credited
  exact ⟨keyed.pubkey, keyed.pendingLo, keyed.pendingHi, keyed.available⟩

/-- A credit leaves the available balance alone. -/
theorem credit_synced {lo hi : ElGamalCiphertext}
    (credited : account.credit lo hi = some account') :
    Synced keys account' ↔ Synced keys account := by
  obtain ⟨-, rfl⟩ := ConfidentialTransferAccount.credit_some credited
  exact Iff.rfl

/-- A credit adds its limbs to what is pending. -/
theorem credit_pending {lo hi : ElGamalCiphertext}
    (credited : account.credit lo hi = some account') :
    account'.pendingAmount = account.pendingAmount +
        (lo.amount + 2 ^ pendingBalanceLoBits * hi.amount) ∧
      account'.availableBalance = account.availableBalance := by
  obtain ⟨-, rfl⟩ := ConfidentialTransferAccount.credit_some credited
  refine ⟨?_, rfl⟩
  simp only [ConfidentialTransferAccount.pendingAmount, ElGamalCiphertext.add_amount]
  ring

/-- A deposit adds its amount to what is pending. -/
theorem deposit_pending {amount : Nat} (deposited : account.deposit amount = some account') :
    account'.pendingAmount = account.pendingAmount + amount ∧
      account'.availableBalance = account.availableBalance := by
  obtain ⟨-, credited⟩ := ConfidentialTransferAccount.deposit_some deposited
  obtain ⟨pending, available⟩ := credit_pending credited
  have limbs := Nat.mod_add_div amount (2 ^ pendingBalanceLoBits)
  have whole : ((amount % 2 ^ pendingBalanceLoBits : Nat) : ℤ) +
      2 ^ pendingBalanceLoBits * ((amount / 2 ^ pendingBalanceLoBits : Nat) : ℤ) = amount := by
    exact_mod_cast limbs
  refine ⟨?_, available⟩
  simp only [pending, ElGamalCiphertext.ofAmount_amount]
  rw [whole]

end Facts

end ConfidentialBalances
