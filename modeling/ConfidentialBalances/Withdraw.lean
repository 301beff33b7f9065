import ConfidentialBalances.ProofGeneration

/-!
# Withdrawing

`withdraw_from_confidential`: verify an equality proof and a range proof into two
context state accounts, withdraw against them, and close both, in five
transactions.
-/

namespace ConfidentialBalances

open Effect

/-- What a withdraw computes from the account it read. -/
structure WithdrawValues where
  /-- The balance after the withdraw. -/
  newAvailable : Nat
  /-- Its encryption for the owner. -/
  newDecryptable : AeCiphertext
  /-- The two proofs. -/
  proofData : WithdrawProofData
  deriving DecidableEq, Repr

/-- The values `withdraw_from_confidential` computes from the account it read. -/
def withdrawValues (sdk : Sdk) (keys : ConfidentialKeys) (extension : ConfidentialTransferAccount)
    (amount : Nat) : Except ClientError WithdrawValues := do
  let currentAvailable ← okOr (extension.availableBalance.decryptU32 keys.elgamal)
    "decrypt available balance"
  if currentAvailable < amount then
    .error (.message
      s!"Insufficient confidential balance: have {currentAvailable}, need {amount}")
  else
    let proofData ← labelError "withdraw_proof_data: "
      (sdk.withdrawProofData extension.availableBalance currentAvailable amount keys.elgamal)
    let newAvailable := currentAvailable - amount
    .ok ⟨newAvailable, keys.aes.encrypt newAvailable, proofData⟩

/-- The withdraw transaction's instructions. -/
def withdrawInstructions (authority : Wallet) (mint : Pubkey) (amount decimals : Nat)
    (newDecryptable : AeCiphertext) (equalityAccount rangeAccount : Pubkey) : List Instruction :=
  let tokenAccount := getAssociatedTokenAddress authority.pubkey mint
  [.withdraw tokenAccount mint amount decimals newDecryptable authority.pubkey
    [authority.pubkey] equalityAccount rangeAccount]

/-- The closing loop: one transaction for each context state account. -/
def closeContextStates (payer authority : Wallet) :
    List Pubkey → List Signature → Client (List Signature)
  | [], signatures => pure signatures
  | account :: rest, signatures => do
    let signature ← sendTx [.closeContextState ⟨account, authority.pubkey⟩ payer.pubkey]
      [payer.pubkey, authority.pubkey] payer.pubkey
    closeContextStates payer authority rest (signatures ++ [signature])

/-- `withdraw_from_confidential`. -/
def withdrawFromConfidential (sdk : Sdk) (payer authority : Wallet) (mint : Pubkey)
    (amount decimals : Nat) : Client Signature := do
  let tokenAccount := getAssociatedTokenAddress authority.pubkey mint
  let keys ← deriveConfidentialKeys authority
  let extension ← fetchConfidential tokenAccount
  let values ← Program.ofExcept (withdrawValues sdk keys extension amount)
  -- The equality proof and then the range proof go into context state accounts of their own.
  let equalityAccount ← newKeypair
  let equalityRent ← getMinimumBalanceForRentExemption
    (sdk.contextStateSize .ciphertextCommitmentEquality)
  let first ← sendTx (createAndVerify sdk payer authority .ciphertextCommitmentEquality
    equalityAccount equalityRent values.proofData.equalityProofData)
    [payer.pubkey, authority.pubkey, equalityAccount] payer.pubkey
  let rangeAccount ← newKeypair
  let rangeRent ← getMinimumBalanceForRentExemption (sdk.contextStateSize .batchedRangeProofU64)
  let second ← sendTx (createAndVerify sdk payer authority .batchedRangeProofU64
    rangeAccount rangeRent values.proofData.rangeProofData)
    [payer.pubkey, authority.pubkey, rangeAccount] payer.pubkey
  let third ← sendTx (withdrawInstructions authority mint amount decimals values.newDecryptable
    equalityAccount rangeAccount) [payer.pubkey, authority.pubkey] payer.pubkey
  let signatures ← closeContextStates payer authority [equalityAccount, rangeAccount]
    [first, second, third]
  match signatures[2]? with
  | some signature => pure signature
  | none => Program.abort "index out of bounds"

/-! ## What a withdraw lands -/

/-- A run of the withdraw, by what it fixed before its first transaction. -/
structure WithdrawRun where
  /-- The fee payer. -/
  payer : Wallet
  /-- The owner. -/
  authority : Wallet
  /-- The mint. -/
  mint : Pubkey
  /-- The withdrawn amount. -/
  amount : Nat
  /-- The mint's decimals, as the caller has them. -/
  decimals : Nat
  /-- The computed values. -/
  values : WithdrawValues
  /-- The index of the first keypair the run generates. -/
  generated : Nat

namespace WithdrawRun

variable (sdk : Sdk) (cluster : Cluster) (run : WithdrawRun)

/-- The equality context's account. -/
def equalityAccount : Pubkey := .generated run.generated

/-- The range context's account. -/
def rangeAccount : Pubkey := .generated (run.generated + 1)

/-- Create and verify the equality context. -/
def equalityTransaction : Transaction :=
  ⟨createAndVerify sdk run.payer run.authority .ciphertextCommitmentEquality run.equalityAccount
      (cluster.rentExemption (sdk.contextStateSize .ciphertextCommitmentEquality))
      run.values.proofData.equalityProofData,
    run.payer.pubkey, [run.payer.pubkey, run.authority.pubkey, run.equalityAccount]⟩

/-- Create and verify the range context. -/
def rangeTransaction : Transaction :=
  ⟨createAndVerify sdk run.payer run.authority .batchedRangeProofU64 run.rangeAccount
      (cluster.rentExemption (sdk.contextStateSize .batchedRangeProofU64))
      run.values.proofData.rangeProofData,
    run.payer.pubkey, [run.payer.pubkey, run.authority.pubkey, run.rangeAccount]⟩

/-- Withdraw. -/
def withdrawTransaction : Transaction :=
  ⟨withdrawInstructions run.authority run.mint run.amount run.decimals run.values.newDecryptable
      run.equalityAccount run.rangeAccount,
    run.payer.pubkey, [run.payer.pubkey, run.authority.pubkey]⟩

/-- Close one context. -/
def closeTransaction (account : Pubkey) : Transaction :=
  ⟨[.closeContextState ⟨account, run.authority.pubkey⟩ run.payer.pubkey],
    run.payer.pubkey, [run.payer.pubkey, run.authority.pubkey]⟩

/-- The five transactions, in order. -/
def transactions : List Transaction :=
  [run.equalityTransaction sdk cluster, run.rangeTransaction sdk cluster, run.withdrawTransaction,
    run.closeTransaction run.equalityAccount, run.closeTransaction run.rangeAccount]

end WithdrawRun

/-- A run that a withdraw may make from a world. -/
structure WithdrawPlan (sdk : Sdk) (payer authority : Wallet) (mint : Pubkey)
    (amount decimals : Nat) (world : World) (run : WithdrawRun) : Prop where
  /-- The run is the caller's. -/
  arguments : run.payer = payer ∧ run.authority = authority ∧ run.mint = mint ∧
    run.amount = amount ∧ run.decimals = decimals
  /-- Its keypairs are the next ones. -/
  generated : run.generated = world.generated
  /-- Its values are computed from the account as it stands. -/
  computed : ∃ extension,
    world.ledger.confidential? (getAssociatedTokenAddress authority.pubkey mint) =
      some extension ∧
    withdrawValues sdk authority.confidentialKeys extension amount = .ok run.values

/-- The closing loop sends one transaction for each account and keeps the signatures before. -/
theorem closeContextStates_sends (cluster : Cluster) (run : WithdrawRun) (account : Pubkey)
    (accounts : List Pubkey) (signatures : List Signature) (world : World) :
    Sends cluster ((account :: accounts).map run.closeTransaction)
      (fun all world' => (∃ more, all = signatures ++ more) ∧ world'.generated = world.generated)
      (closeContextStates run.payer run.authority (account :: accounts) signatures) world := by
  induction accounts generalizing account signatures world with
  | nil =>
    refine sends_pure (sends_sendTx _ _ _) ?_
    rintro signature world' - ⟨-, -, same⟩
    exact ⟨⟨[signature], rfl⟩, same⟩
  | cons next rest ih =>
    refine sends_append [run.closeTransaction account] (sends_sendTx _ _ _) (by simp) ?_
    rintro signature world' - ⟨-, -, same⟩
    refine (ih next (signatures ++ [signature]) world').weaken ?_
    rintro all final ⟨⟨more, appended⟩, generated⟩
    exact ⟨⟨signature :: more, by simp [appended]⟩, generated.trans same⟩

/-- A withdraw gives up with nothing sent, or sends a plan computed from the account as it
stands. -/
theorem withdrawFromConfidential_tries (sdk : Sdk) (cluster : Cluster) (payer authority : Wallet)
    (mint : Pubkey) (amount decimals : Nat) (world : World) :
    Tries cluster
      (fun plan => ∃ run, WithdrawPlan sdk payer authority mint amount decimals world run ∧
        plan = run.transactions sdk cluster)
      (fun _ sig world' => sig = ⟨world.landed.length + 2⟩ ∧
        world'.generated = world.generated + 2)
      (withdrawFromConfidential sdk payer authority mint amount decimals) world := by
  refine tries_after (silent_deriveConfidentialKeys authority)
    (quietly_deriveConfidentialKeys authority) ?_
  rintro keys after - ⟨rfl, rfl⟩
  refine tries_after (silent_fetchConfidential _) (quietly_fetchConfidential _) ?_
  rintro extension after - ⟨rfl, held⟩
  refine tries_after (silent_ofExcept _) (quietly_ofExcept _) ?_
  rintro values world - ⟨computed, rfl⟩
  let run : WithdrawRun := ⟨payer, authority, mint, amount, decimals, values, world.generated⟩
  have planned : WithdrawPlan sdk payer authority mint amount decimals world run :=
    ⟨⟨rfl, rfl, rfl, rfl, rfl⟩, rfl, extension, held, computed⟩
  refine tries_sends ⟨run, planned, rfl⟩ ?_
  have equalityNext : run.equalityAccount = .generated world.generated := rfl
  refine sends_createAndVerify sdk payer authority .ciphertextCommitmentEquality
    (fun account => [payer.pubkey, authority.pubkey, account]) equalityNext (by simp) ?_
  rintro firstSig second placeFirst generatedFirst namedFirst
  have rangeNext : run.rangeAccount = .generated second.generated := by
    rw [generatedFirst]
    rfl
  refine sends_createAndVerify sdk payer authority .batchedRangeProofU64
    (fun account => [payer.pubkey, authority.pubkey, account]) rangeNext (by simp) ?_
  rintro secondSig fourth placeSecond generatedSecond namedSecond
  refine sends_append [run.withdrawTransaction] (sends_sendTx _ _ _) (by simp) ?_
  rintro thirdSig fifth landedThird ⟨namedThird, -, generatedThird⟩
  refine sends_surely (closeContextStates_sends cluster run run.equalityAccount
    [run.rangeAccount] _ fifth) ?_
  rintro all last - ⟨⟨more, rfl⟩, generatedLast⟩
  have place : fourth.landed.length = world.landed.length + 2 := by
    omega
  refine ⟨thirdSig, rfl, ?_, ?_⟩
  · rw [namedThird, place]
  · rw [generatedLast, generatedThird, generatedSecond, generatedFirst]

/-- A withdraw lands its five transactions in order, and returns the third's signature once all
of them have landed. -/
theorem withdrawFromConfidential_submits (sdk : Sdk) (cluster : Cluster) (payer authority : Wallet)
    (mint : Pubkey) (amount decimals : Nat) (world : World) :
    Submits cluster
      (fun plan => ∃ run, WithdrawPlan sdk payer authority mint amount decimals world run ∧
        plan = run.transactions sdk cluster)
      (fun _ sig world' => sig = ⟨world.landed.length + 2⟩ ∧
        world'.generated = world.generated + 2)
      (withdrawFromConfidential sdk payer authority mint amount decimals) world :=
  (withdrawFromConfidential_tries sdk cluster payer authority mint amount decimals world).submits

end ConfidentialBalances
