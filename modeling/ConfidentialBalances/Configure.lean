import ConfidentialBalances.ProofGeneration

/-!
# Configuring an account

`configure_account_for_confidential_transfers`: one transaction that makes room
for the extension, verifies a pubkey-validity proof into a fresh context state
account and configures the account from it.
-/

namespace ConfidentialBalances

open Effect

/-- The credits that may be pending before an apply. -/
def maxPendingBalanceCreditCounter : Nat := 65536

/-- The one transaction's instructions. -/
def configureInstructions (sdk : Sdk) (payer authority : Wallet) (mint proofAccount : Pubkey)
    (contextStateRent : Nat) (decryptableBalance : AeCiphertext) (proofData : List UInt8) :
    List Instruction :=
  let tokenAccount := getAssociatedTokenAddress authority.pubkey mint
  [.reallocate tokenAccount payer.pubkey authority.pubkey [authority.pubkey]] ++
    createAndVerify sdk payer authority .pubkeyValidity proofAccount contextStateRent proofData ++
    [.configureAccount tokenAccount mint decryptableBalance maxPendingBalanceCreditCounter
      authority.pubkey [] proofAccount]

/-- `configure_account_for_confidential_transfers`. -/
def configureAccountForConfidentialTransfers (sdk : Sdk) (payer authority : Wallet)
    (mint : Pubkey) : Client Signature := do
  let keys ← deriveConfidentialKeys authority
  let decryptableBalance := keys.aes.encrypt 0
  let proofData ← Program.ofExcept (labelError "generate pubkey validity proof: "
    (sdk.buildPubkeyValidityProofData keys.elgamal))
  let proofAccount ← newKeypair
  let contextStateSize := sdk.contextStateSize .pubkeyValidity
  let contextStateRent ← getMinimumBalanceForRentExemption contextStateSize
  sendTx (configureInstructions sdk payer authority mint proofAccount contextStateRent
    decryptableBalance proofData) [authority.pubkey, payer.pubkey, proofAccount] payer.pubkey

/-- The transaction that configuring submits from a world. -/
def configureTransaction (sdk : Sdk) (cluster : Cluster) (payer authority : Wallet) (mint : Pubkey)
    (world : World) (proofData : List UInt8) : Transaction :=
  ⟨configureInstructions sdk payer authority mint (.generated world.generated)
      (cluster.rentExemption (sdk.contextStateSize .pubkeyValidity))
      (authority.confidentialKeys.aes.encrypt 0) proofData,
    payer.pubkey, [authority.pubkey, payer.pubkey, .generated world.generated]⟩

/-- The landed configuration's three stages: make room, create and verify, configure. -/
theorem configureTransaction_some {sdk : Sdk} {cluster : Cluster} {payer authority : Wallet}
    {mint : Pubkey} {world : World} {proofData : List UInt8} {ledger ledger' : Ledger}
    (landed : ledger.execTransaction cluster
      (configureTransaction sdk cluster payer authority mint world proofData) = some ledger') :
    ∃ extended verified : Ledger,
      (ledger.chargeFee payer.pubkey (cluster.fee
        (configureTransaction sdk cluster payer authority mint world proofData))).reallocate cluster
          (getAssociatedTokenAddress authority.pubkey mint) payer.pubkey authority.pubkey =
        some extended ∧
      extended.execInstructions cluster (createAndVerify sdk payer authority .pubkeyValidity
        (.generated world.generated) (cluster.rentExemption (sdk.contextStateSize .pubkeyValidity))
        proofData) = some verified ∧
      verified.configureAccount (getAssociatedTokenAddress authority.pubkey mint) mint
        (authority.confidentialKeys.aes.encrypt 0) maxPendingBalanceCreditCounter authority.pubkey
        (.generated world.generated) = some ledger' := by
  obtain ⟨-, -, executed⟩ := Ledger.execTransaction_some landed
  obtain ⟨extended, reallocate, rest⟩ := Option.bind_eq_some_iff.mp executed
  have stages := Ledger.execInstructions_append cluster extended (createAndVerify sdk payer
    authority .pubkeyValidity (.generated world.generated)
    (cluster.rentExemption (sdk.contextStateSize .pubkeyValidity)) proofData)
    [.configureAccount (getAssociatedTokenAddress authority.pubkey mint) mint
      (authority.confidentialKeys.aes.encrypt 0) maxPendingBalanceCreditCounter authority.pubkey []
      (.generated world.generated)]
  obtain ⟨verified, create, configure⟩ := Option.bind_eq_some_iff.mp (stages.symm.trans rest)
  obtain ⟨configured, configuring, done⟩ := Option.bind_eq_some_iff.mp configure
  obtain rfl := Option.some.inj done
  exact ⟨extended, verified, reallocate, create, configuring⟩

/-- What configuring may submit. -/
def ConfigurePlan (sdk : Sdk) (cluster : Cluster) (payer authority : Wallet) (mint : Pubkey)
    (world : World) (plan : List Transaction) : Prop :=
  ∃ proofData, sdk.buildPubkeyValidityProofData authority.confidentialKeys.elgamal =
      .ok proofData ∧
    plan = [configureTransaction sdk cluster payer authority mint world proofData]

/-- Configuring lands its one transaction or nothing. -/
theorem configureAccountForConfidentialTransfers_submits (sdk : Sdk) (cluster : Cluster)
    (payer authority : Wallet) (mint : Pubkey) (world : World) :
    Submits cluster (ConfigurePlan sdk cluster payer authority mint world)
      (fun _ sig world' => sig = ⟨world.landed.length⟩ ∧
        world'.generated = world.generated + 1)
      (configureAccountForConfidentialTransfers sdk payer authority mint) world := by
  refine submits_after (quietly_deriveConfidentialKeys authority) ?_
  rintro keys world' - ⟨rfl, rfl⟩
  refine submits_after (quietly_ofExcept _) ?_
  rintro proofData after - ⟨generated, rfl⟩
  refine submits_after quietly_newKeypair ?_
  rintro proofAccount after - ⟨rfl, rfl⟩
  refine submits_after (quietly_getMinimumBalanceForRentExemption _) ?_
  rintro rent after - ⟨rfl, rfl⟩
  refine (follows_sendTx _ _ _).weaken ?_ ?_
  · rintro plan rfl
    exact ⟨proofData, labelError_ok generated, rfl⟩
  · rintro plan sig final rfl ⟨named, generated⟩
    exact ⟨named, generated⟩

end ConfidentialBalances
