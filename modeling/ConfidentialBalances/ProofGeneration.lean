import ConfidentialBalances.Submissions

/-!
# Proof generation

The proof-generation crates lie outside the library and enter as a parameter:
which proof bytes they return, or that they fail. What the balance arguments
need of them is stated here once. Generated transfer proofs speak of the
snapshot they were generated from, and only true statements verify.
-/

namespace ConfidentialBalances

open Effect

/-- `WithdrawProofData`. -/
structure WithdrawProofData where
  /-- The equality proof. -/
  equalityProofData : List UInt8
  /-- The 64-bit range proof. -/
  rangeProofData : List UInt8
  deriving DecidableEq, Repr

/-- `TransferProofData`. -/
structure TransferProofData where
  /-- The equality proof. -/
  equalityProofData : List UInt8
  /-- The ciphertext-validity proof. -/
  ciphertextValidityProofData : List UInt8
  /-- The low limb's auditor ciphertext. -/
  ciphertextLo : ElGamalCiphertext
  /-- The high limb's auditor ciphertext. -/
  ciphertextHi : ElGamalCiphertext
  /-- The 128-bit range proof. -/
  rangeProofData : List UInt8
  deriving DecidableEq, Repr

/-- What the client uses of the proof-generation and token-client crates. -/
structure Sdk where
  /-- `size_of::<ProofContextState<..>>()`. -/
  contextStateSize : ProofType → Nat
  /-- `ExtensionType::try_calculate_account_len` of a mint with the confidential-transfer
  extension. -/
  mintAccountLength : Nat
  /-- `build_pubkey_validity_proof_data`. -/
  buildPubkeyValidityProofData : ElGamalKeypair → Except String (List UInt8)
  /-- `withdraw_proof_data`. -/
  withdrawProofData : ElGamalCiphertext → Nat → Nat → ElGamalKeypair →
    Except String WithdrawProofData
  /-- `transfer_split_proof_data`. -/
  transferSplitProofData : ElGamalCiphertext → AeCiphertext → Nat → ElGamalKeypair → AeKey →
    ElGamalPubkey → Option ElGamalPubkey → Except String TransferProofData

/-- Put a label before an error's text. -/
def labelError {α : Type} (label : String) (result : Except String α) : Except ClientError α :=
  result.mapError fun reason => .labelled label (.message reason)

/-- A relabelled result is ok where the result was. -/
theorem labelError_ok {α : Type} {label : String} {result : Except String α} {value : α}
    (ok : labelError label result = .ok value) : result = .ok value := by
  cases result with
  | ok found => exact congrArg _ (Except.ok.inj ok)
  | error reason => contradiction

/-- The instructions that create an account for a proof's context and verify the proof into it. -/
def createAndVerify (sdk : Sdk) (payer authority : Wallet) (proofType : ProofType)
    (account : Pubkey) (rent : Nat) (proof : List UInt8) : List Instruction :=
  [.createAccount payer.pubkey account rent (sdk.contextStateSize proofType) .zkElGamalProof,
    .encodeVerifyProof proofType ⟨account, authority.pubkey⟩ proof]

/-- Creating and verifying leaves the proof and its statement at an address that was unused. -/
theorem createAndVerify_data {sdk : Sdk} {cluster : Cluster} {ledger ledger' : Ledger}
    {payer authority : Wallet} {proofType : ProofType} {account : Pubkey} {rent : Nat}
    {proof : List UInt8}
    (landed : ledger.execInstructions cluster
      (createAndVerify sdk payer authority proofType account rent proof) = some ledger') :
    ledger.data account = .empty ∧ ∃ context, cluster.verify proofType proof = some context ∧
      ledger'.data = Function.update ledger.data account
        (.proofContext authority.pubkey proof context) := by
  obtain ⟨created, create, rest⟩ := Option.bind_eq_some_iff.mp landed
  obtain ⟨verified, verify, last⟩ := Option.bind_eq_some_iff.mp rest
  obtain rfl := Option.some.inj last
  obtain ⟨unused, -, -, rfl⟩ := Ledger.createAccount_some create
  obtain ⟨context, space, stated, -, rfl⟩ := Ledger.verifyProof_some verify
  exact ⟨unused, context, stated, by simp⟩

/-- Create and verify a context in a new account, and then the rest of the plan. -/
theorem follows_createAndVerify {α : Type} {cluster : Cluster} {world : World} (sdk : Sdk)
    (payer authority : Wallet) (proofType : ProofType) (signers : Pubkey → List Pubkey)
    {proof : List UInt8} {account : Pubkey} {later : List Transaction} {ok : α → World → Prop}
    {rest : Pubkey → Signature → Client α} (next : account = .generated world.generated)
    (more : later ≠ [])
    (second : ∀ sig world', world'.landed.length = world.landed.length + 1 →
      world'.generated = world.generated + 1 → sig = ⟨world.landed.length⟩ →
      Follows cluster later ok (rest account sig) world') :
    Follows cluster
      ([⟨createAndVerify sdk payer authority proofType account
          (cluster.rentExemption (sdk.contextStateSize proofType)) proof,
        payer.pubkey, signers account⟩] ++ later) ok
      (do
        let account ← newKeypair
        let rent ← getMinimumBalanceForRentExemption (sdk.contextStateSize proofType)
        let sig ← sendTx (createAndVerify sdk payer authority proofType account rent proof)
          (signers account) payer.pubkey
        rest account sig) world := by
  refine submits_after quietly_newKeypair ?_
  rintro key created quiet ⟨same, rfl⟩
  obtain rfl : account = key := next.trans same.symm
  refine submits_after (quietly_getMinimumBalanceForRentExemption _) ?_
  rintro rent created - ⟨rfl, rfl⟩
  refine follows_append _ (follows_sendTx _ _ _) more ?_
  rintro sig landed lands ⟨rfl, generated⟩
  have count : landed.landed.length = world.landed.length + 1 := by
    rw [lands.landed, List.length_append, quiet.same_landed]
    rfl
  exact second _ _ count generated rfl

/-- A context created and verified in a new account, and then the rest of the plan. -/
theorem sends_createAndVerify {α : Type} {cluster : Cluster} {world : World} (sdk : Sdk)
    (payer authority : Wallet) (proofType : ProofType) (signers : Pubkey → List Pubkey)
    {proof : List UInt8} {account : Pubkey} {later : List Transaction} {ok : α → World → Prop}
    {rest : Pubkey → Signature → Client α} (next : account = .generated world.generated)
    (more : later ≠ [])
    (second : ∀ sig world', world'.landed.length = world.landed.length + 1 →
      world'.generated = world.generated + 1 → sig = ⟨world.landed.length⟩ →
      Sends cluster later ok (rest account sig) world') :
    Sends cluster
      ([⟨createAndVerify sdk payer authority proofType account
          (cluster.rentExemption (sdk.contextStateSize proofType)) proof,
        payer.pubkey, signers account⟩] ++ later) ok
      (do
        let account ← newKeypair
        let rent ← getMinimumBalanceForRentExemption (sdk.contextStateSize proofType)
        let sig ← sendTx (createAndVerify sdk payer authority proofType account rent proof)
          (signers account) payer.pubkey
        rest account sig) world := by
  subst next
  refine sends_newKeypair (sends_rent (by simp) ?_)
  refine sends_append [_] (sends_sendTx _ _ _) more ?_
  rintro sig world' landed ⟨rfl, -, generated⟩
  exact second _ _ (by simp [landed]) generated rfl

/-- The statements of a transfer's three proofs, generated from a snapshot of the sender's
account: the ciphertext that was available and the plaintext that was decrypted. -/
def StatesTransfer (sender recipient : ElGamalPubkey) (available : ElGamalCiphertext)
    (plaintext amount : Nat) (equality validity range : ProofContext) : Prop :=
  ∃ transfer commitment,
    transfer.source = sender ∧ transfer.destination = recipient ∧
    transfer.lo.amount = ((amount % 2 ^ pendingBalanceLoBits : Nat) : ℤ) ∧
    transfer.hi.amount = ((amount / 2 ^ pendingBalanceLoBits : Nat) : ℤ) ∧
    commitment.amount = (plaintext : ℤ) - amount ∧
    equality = .equality (available.sub transfer.debit) commitment ∧
    validity = .validity transfer ∧
    range = .range [(commitment, 64), (transfer.lo, 16), (transfer.hi, 32)]

/-- Both limbs together are the amount. -/
theorem TransferAmount.debit_amount {transfer : TransferAmount} {amount : Nat}
    (lo : transfer.lo.amount = ((amount % 2 ^ pendingBalanceLoBits : Nat) : ℤ))
    (hi : transfer.hi.amount = ((amount / 2 ^ pendingBalanceLoBits : Nat) : ℤ)) :
    transfer.debit.amount = amount := by
  have limbs := Nat.mod_add_div amount (2 ^ pendingBalanceLoBits)
  simp only [TransferAmount.debit, lo, hi]
  exact_mod_cast limbs

/-- Generated transfer proofs: they need a decryptable balance that covers the amount, and each
of them, where it verifies, states what it was generated for. -/
def Sdk.StatesTransfers (sdk : Sdk) (cluster : Cluster) : Prop :=
  ∀ available decryptable amount keypair aes recipient auditor data,
    sdk.transferSplitProofData available decryptable amount keypair aes recipient auditor =
        .ok data →
      ∃ plaintext, decryptable.decrypt aes = some plaintext ∧ amount ≤ plaintext ∧
        ∀ equality validity range,
          cluster.verify .ciphertextCommitmentEquality data.equalityProofData = some equality →
          cluster.verify .batchedGroupedCiphertext3HandlesValidity
            data.ciphertextValidityProofData = some validity →
          cluster.verify .batchedRangeProofU128 data.rangeProofData = some range →
            StatesTransfer keypair.pubkey recipient available plaintext amount equality validity
              range

/-- The transfer is one that was generated: the validity proof of generated data states it. -/
def Sdk.Generates (sdk : Sdk) (cluster : Cluster) (transfer : TransferAmount) : Prop :=
  ∃ available decryptable amount keypair aes recipient auditor data,
    sdk.transferSplitProofData available decryptable amount keypair aes recipient auditor =
        .ok data ∧
      cluster.verify .batchedGroupedCiphertext3HandlesValidity
        data.ciphertextValidityProofData = some (.validity transfer)

/-- Generated transfers are randomised: crediting one does not cancel the randomness of a pending
ciphertext. -/
def Sdk.Randomises (sdk : Sdk) (cluster : Cluster) (pending : ElGamalCiphertext) : Prop :=
  ∀ transfer, sdk.Generates cluster transfer → pending.opening + transfer.lo.opening ≠ 0

/-- A pubkey-validity proof, where it verifies, names the key it was generated for. -/
def Sdk.StatesPubkeys (sdk : Sdk) (cluster : Cluster) : Prop :=
  ∀ keypair proof context, sdk.buildPubkeyValidityProofData keypair = .ok proof →
    cluster.verify .pubkeyValidity proof = some context → context = .pubkeyValidity keypair.pubkey

/-- Withdraw proofs are generated for every amount that the decrypted balance covers. -/
def Sdk.ProvesWithdrawals (sdk : Sdk) : Prop :=
  ∀ available current amount keypair, available.decryptU32 keypair = some current →
    amount ≤ current → ∃ data, sdk.withdrawProofData available current amount keypair = .ok data

/-- Generated withdraw proofs, where they verify, speak of what remains of the ciphertext they were
generated for. -/
def Sdk.StatesWithdrawals (sdk : Sdk) (cluster : Cluster) : Prop :=
  ∀ available current amount keypair data equality,
    sdk.withdrawProofData available current amount keypair = .ok data →
      cluster.verify .ciphertextCommitmentEquality data.equalityProofData = some equality →
        ∃ commitment, equality = .equality (available.sub (.ofAmount keypair.pubkey amount))
          commitment

/-- Verification is sound: what verifies is true. -/
def Cluster.Sound (cluster : Cluster) : Prop :=
  ∀ proofType proof context, cluster.verify proofType proof = some context → context.Holds

/-- What the balance arguments assume of the outside: verification is sound, and generated proofs
state what they were generated for. -/
structure Honest (sdk : Sdk) (cluster : Cluster) : Prop where
  /-- Only true statements verify. -/
  sound : cluster.Sound
  /-- Pubkey-validity proofs name their key. -/
  pubkeys : sdk.StatesPubkeys cluster
  /-- Withdraw proofs speak of their snapshot. -/
  withdrawals : sdk.StatesWithdrawals cluster
  /-- Transfer proofs speak of their snapshot. -/
  transfers : sdk.StatesTransfers cluster

end ConfidentialBalances
