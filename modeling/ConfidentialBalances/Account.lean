import ConfidentialBalances.Encryption

/-!
# Confidential token accounts

The confidential-transfer state of one token account and what the Token-2022
program does to it, in the reading the library relies on: a credit adds to the
pending balance and counts itself, an apply is accepted only at the expected
credit count, and a spend is accepted only when the verified proof speaks of the
available ciphertext that is on the account. Verified proofs enter as the
contexts the ZK ElGamal Proof program stores for them.
-/

namespace ConfidentialBalances

/-- A Pedersen commitment, by what it commits to. -/
@[ext]
structure Commitment where
  /-- The committed amount. -/
  amount : ℤ
  /-- The randomness of the commitment. -/
  opening : ℤ
  deriving DecidableEq, Repr

/-- The proof programs the library uses. -/
inductive ProofType
  | pubkeyValidity
  | ciphertextCommitmentEquality
  | batchedGroupedCiphertext3HandlesValidity
  | batchedRangeProofU64
  | batchedRangeProofU128
  deriving DecidableEq, Repr

/-- The statement of a grouped-ciphertext validity proof: the two limbs of a transfer amount,
encrypted for the source, the destination and the auditor at once. -/
structure TransferAmount where
  /-- The source account's key. -/
  source : ElGamalPubkey
  /-- The destination account's key. -/
  destination : ElGamalPubkey
  /-- The low 16 bits. -/
  lo : Commitment
  /-- The remaining high bits. -/
  hi : Commitment
  deriving DecidableEq, Repr

/-- The bits of an amount that the low pending ciphertext holds. -/
def pendingBalanceLoBits : Nat := 16

/-- The amount's ciphertext under the source key, both limbs combined. -/
def TransferAmount.debit (transfer : TransferAmount) : ElGamalCiphertext :=
  ⟨transfer.source, transfer.lo.amount + 2 ^ pendingBalanceLoBits * transfer.hi.amount,
    transfer.lo.opening + 2 ^ pendingBalanceLoBits * transfer.hi.opening⟩

/-- One limb's ciphertext under the destination key. -/
def TransferAmount.credit (transfer : TransferAmount) (limb : Commitment) : ElGamalCiphertext :=
  ⟨transfer.destination, limb.amount, limb.opening⟩

/-- What a verified proof states, as its context state account holds it. -/
inductive ProofContext
  /-- The holder of this key knows its secret. -/
  | pubkeyValidity (pubkey : ElGamalPubkey)
  /-- The ciphertext and the commitment hold the same amount. -/
  | equality (ciphertext : ElGamalCiphertext) (commitment : Commitment)
  /-- The ciphertexts of a transfer amount are well formed. -/
  | validity (transfer : TransferAmount)
  /-- Each committed amount is in the range of its bit length. -/
  | range (committed : List (Commitment × Nat))
  deriving DecidableEq, Repr

/-- The statement is true. Verification is sound: it accepts only proofs of true statements. -/
def ProofContext.Holds : ProofContext → Prop
  | .pubkeyValidity _ => True
  | .equality ciphertext commitment => ciphertext.amount = commitment.amount
  | .validity _ => True
  | .range committed => ∀ entry ∈ committed, 0 ≤ entry.1.amount ∧ entry.1.amount < 2 ^ entry.2

instance (context : ProofContext) : Decidable context.Holds := by
  cases context <;> unfold ProofContext.Holds <;> infer_instance

/-- `ConfidentialTransferAccount`: the extension data of a configured token account. -/
structure ConfidentialTransferAccount where
  /-- The account may be used for confidential transfers. -/
  approved : Bool
  /-- The key the account's balances are encrypted under. -/
  elgamalPubkey : ElGamalPubkey
  /-- The low limbs of the credits not yet applied. -/
  pendingBalanceLo : ElGamalCiphertext
  /-- The high limbs of the credits not yet applied. -/
  pendingBalanceHi : ElGamalCiphertext
  /-- The spendable balance. -/
  availableBalance : ElGamalCiphertext
  /-- The spendable balance again, as the owner last wrote it. -/
  decryptableAvailableBalance : AeCiphertext
  /-- How many credits are pending. -/
  pendingBalanceCreditCounter : Nat
  /-- How many credits may be pending. -/
  maximumPendingBalanceCreditCounter : Nat
  deriving DecidableEq, Repr

namespace ConfidentialTransferAccount

/-- The largest amount one deposit or transfer can carry. -/
def maximumDepositTransferAmount : Nat := 2 ^ 48 - 1

/-- The plaintext of the pending balance. -/
def pendingAmount (account : ConfidentialTransferAccount) : ℤ :=
  account.pendingBalanceLo.amount + 2 ^ pendingBalanceLoBits * account.pendingBalanceHi.amount

/-- A freshly configured account: everything is zero. -/
def configured (approved : Bool) (key : ElGamalPubkey) (decryptableZeroBalance : AeCiphertext)
    (maximumPendingBalanceCreditCounter : Nat) : ConfidentialTransferAccount where
  approved := approved
  elgamalPubkey := key
  pendingBalanceLo := .zero key
  pendingBalanceHi := .zero key
  availableBalance := .zero key
  decryptableAvailableBalance := decryptableZeroBalance
  pendingBalanceCreditCounter := 0
  maximumPendingBalanceCreditCounter := maximumPendingBalanceCreditCounter

/-- Credit the pending balance, unless the account is not approved or its counter is full. -/
def credit (account : ConfidentialTransferAccount) (lo hi : ElGamalCiphertext) :
    Option ConfidentialTransferAccount :=
  if account.approved = true ∧
      account.pendingBalanceCreditCounter < account.maximumPendingBalanceCreditCounter then
    some { account with
      pendingBalanceLo := account.pendingBalanceLo.add lo
      pendingBalanceHi := account.pendingBalanceHi.add hi
      pendingBalanceCreditCounter := account.pendingBalanceCreditCounter + 1 }
  else none

/-- Deposit: credit an amount given in the clear, split into its limbs. -/
def deposit (account : ConfidentialTransferAccount) (amount : Nat) :
    Option ConfidentialTransferAccount :=
  if amount ≤ maximumDepositTransferAmount then
    account.credit (.ofAmount account.elgamalPubkey (amount % 2 ^ pendingBalanceLoBits))
      (.ofAmount account.elgamalPubkey (amount / 2 ^ pendingBalanceLoBits))
  else none

/-- ApplyPendingBalance: move the pending balance to the available one, provided the owner
computed the new decryptable balance at this credit count. That a stale count is rejected is how
`docs/FAQ.md` reads the instruction, and what the code relies on; the deployed program keeps the
expected count beside the actual one and accepts it. -/
def applyPendingBalance (account : ConfidentialTransferAccount) (expectedCounter : Nat)
    (newDecryptable : AeCiphertext) : Option ConfidentialTransferAccount :=
  if account.pendingBalanceCreditCounter = expectedCounter then
    some { account with
      availableBalance := (account.availableBalance.add account.pendingBalanceLo).add
        (account.pendingBalanceHi.scale (2 ^ pendingBalanceLoBits))
      decryptableAvailableBalance := newDecryptable
      pendingBalanceLo := .zero account.elgamalPubkey
      pendingBalanceHi := .zero account.elgamalPubkey
      pendingBalanceCreditCounter := 0 }
  else none

/-- Withdraw: subtract an amount given in the clear, when the verified proofs speak of exactly
the ciphertext that remains and commit it to a 64-bit range. -/
def withdraw (account : ConfidentialTransferAccount) (amount : Nat)
    (newDecryptable : AeCiphertext) (equality range : ProofContext) :
    Option ConfidentialTransferAccount :=
  match equality, range with
  | .equality ciphertext commitment, .range committed =>
    if ciphertext = account.availableBalance.sub (.ofAmount account.elgamalPubkey amount) ∧
        committed = [(commitment, 64)] then
      some { account with
        availableBalance := ciphertext
        decryptableAvailableBalance := newDecryptable }
    else none
  | _, _ => none

/-- The source side of a transfer: subtract the transfer amount's ciphertext, when the verified
proofs speak of exactly the ciphertext that remains and range over it and both limbs. -/
def transferOut (account : ConfidentialTransferAccount) (newDecryptable : AeCiphertext)
    (equality validity range : ProofContext) : Option ConfidentialTransferAccount :=
  match equality, validity, range with
  | .equality ciphertext commitment, .validity transfer, .range committed =>
    if transfer.source = account.elgamalPubkey ∧
        ciphertext = account.availableBalance.sub transfer.debit ∧
        committed = [(commitment, 64), (transfer.lo, 16), (transfer.hi, 32)] then
      some { account with
        availableBalance := ciphertext
        decryptableAvailableBalance := newDecryptable }
    else none
  | _, _, _ => none

/-- The destination side of a transfer: credit both limbs under the destination's key. -/
def transferIn (account : ConfidentialTransferAccount) (validity : ProofContext) :
    Option ConfidentialTransferAccount :=
  match validity with
  | .validity transfer =>
    if transfer.destination = account.elgamalPubkey then
      account.credit (transfer.credit transfer.lo) (transfer.credit transfer.hi)
    else none
  | _ => none

/-! ## What each effect can do -/

/-- A credit changes the pending balance and its count, and nothing else. -/
theorem credit_some {account account' : ConfidentialTransferAccount} {lo hi : ElGamalCiphertext}
    (credited : account.credit lo hi = some account') :
    account.pendingBalanceCreditCounter < account.maximumPendingBalanceCreditCounter ∧
      account' = { account with
        pendingBalanceLo := account.pendingBalanceLo.add lo
        pendingBalanceHi := account.pendingBalanceHi.add hi
        pendingBalanceCreditCounter := account.pendingBalanceCreditCounter + 1 } := by
  unfold credit at credited
  split at credited
  · rename_i room
    exact ⟨room.2, (Option.some.inj credited).symm⟩
  · contradiction

/-- A deposit is a credit of the amount's limbs. -/
theorem deposit_some {account account' : ConfidentialTransferAccount} {amount : Nat}
    (deposited : account.deposit amount = some account') :
    amount ≤ maximumDepositTransferAmount ∧
      account.credit (.ofAmount account.elgamalPubkey (amount % 2 ^ pendingBalanceLoBits))
        (.ofAmount account.elgamalPubkey (amount / 2 ^ pendingBalanceLoBits)) = some account' := by
  unfold deposit at deposited
  split at deposited
  · rename_i bound
    exact ⟨bound, deposited⟩
  · contradiction

/-- An accepted apply found the expected count and moved the whole pending balance. -/
theorem applyPendingBalance_some {account account' : ConfidentialTransferAccount}
    {expectedCounter : Nat} {newDecryptable : AeCiphertext}
    (applied : account.applyPendingBalance expectedCounter newDecryptable = some account') :
    account.pendingBalanceCreditCounter = expectedCounter ∧
      account' = { account with
        availableBalance := (account.availableBalance.add account.pendingBalanceLo).add
          (account.pendingBalanceHi.scale (2 ^ pendingBalanceLoBits))
        decryptableAvailableBalance := newDecryptable
        pendingBalanceLo := .zero account.elgamalPubkey
        pendingBalanceHi := .zero account.elgamalPubkey
        pendingBalanceCreditCounter := 0 } := by
  unfold applyPendingBalance at applied
  split at applied
  · rename_i counter
    exact ⟨counter, (Option.some.inj applied).symm⟩
  · contradiction

/-- An accepted withdraw found the ciphertext its proofs speak of. -/
theorem withdraw_some {account account' : ConfidentialTransferAccount} {amount : Nat}
    {newDecryptable : AeCiphertext} {equality range : ProofContext}
    (withdrawn : account.withdraw amount newDecryptable equality range = some account') :
    ∃ commitment, equality = .equality (account.availableBalance.sub
          (.ofAmount account.elgamalPubkey amount)) commitment ∧
      range = .range [(commitment, 64)] ∧
      account' = { account with
        availableBalance := account.availableBalance.sub (.ofAmount account.elgamalPubkey amount)
        decryptableAvailableBalance := newDecryptable } := by
  unfold withdraw at withdrawn
  split at withdrawn
  · rename_i ciphertext commitment committed
    split at withdrawn
    · rename_i accepted
      obtain ⟨rfl, rfl⟩ := accepted
      exact ⟨commitment, rfl, rfl, (Option.some.inj withdrawn).symm⟩
    · contradiction
  · contradiction

/-- An accepted transfer found the ciphertext its proofs speak of. -/
theorem transferOut_some {account account' : ConfidentialTransferAccount}
    {newDecryptable : AeCiphertext} {equality validity range : ProofContext}
    (transferred : account.transferOut newDecryptable equality validity range = some account') :
    ∃ commitment transfer, equality = .equality (account.availableBalance.sub transfer.debit)
          commitment ∧
      validity = .validity transfer ∧
      range = .range [(commitment, 64), (transfer.lo, 16), (transfer.hi, 32)] ∧
      account' = { account with
        availableBalance := account.availableBalance.sub transfer.debit
        decryptableAvailableBalance := newDecryptable } := by
  unfold transferOut at transferred
  split at transferred
  · rename_i ciphertext commitment transfer committed
    split at transferred
    · rename_i accepted
      obtain ⟨-, rfl, rfl⟩ := accepted
      exact ⟨commitment, transfer, rfl, rfl, rfl, (Option.some.inj transferred).symm⟩
    · contradiction
  · contradiction

/-- The receiving side of a transfer is a credit of its limbs. -/
theorem transferIn_some {account account' : ConfidentialTransferAccount} {validity : ProofContext}
    (received : account.transferIn validity = some account') :
    ∃ transfer, validity = .validity transfer ∧
      account.credit (transfer.credit transfer.lo) (transfer.credit transfer.hi) =
        some account' := by
  unfold transferIn at received
  split at received
  · rename_i transfer
    split at received
    · exact ⟨transfer, rfl, received⟩
    · contradiction
  · contradiction

end ConfidentialTransferAccount

end ConfidentialBalances
