import ConfidentialBalances.ProofGeneration

/-!
# Applying the pending balance

`apply_pending_balance`: decrypt the three ElGamal balances, encrypt their sum as
the new decryptable balance, and submit it with the credit count that was read.
-/

namespace ConfidentialBalances

open Effect

/-- What an apply submits. -/
structure ApplyValues where
  /-- The balance after the apply. -/
  newAvailable : Nat
  /-- Its encryption for the owner. -/
  newDecryptable : AeCiphertext
  /-- The credit count it was computed at. -/
  expectedCounter : Nat
  deriving DecidableEq, Repr

/-- The values `apply_pending_balance` computes from the account it read; the sums are `u64`. -/
def applyPendingValues (keys : ConfidentialKeys) (extension : ConfidentialTransferAccount) :
    Except ClientError ApplyValues := do
  let pendingLoAmount ← okOr (extension.pendingBalanceLo.decryptU32 keys.elgamal)
    "decrypt pending_balance_lo"
  let pendingHiAmount ← okOr (extension.pendingBalanceHi.decryptU32 keys.elgamal)
    "decrypt pending_balance_hi"
  let currentAvailable ← okOr (extension.availableBalance.decryptU32 keys.elgamal)
    "decrypt available_balance"
  let pendingTotal := (pendingLoAmount + (pendingHiAmount <<< 16) % 2 ^ 64) % 2 ^ 64
  let newAvailable := (currentAvailable + pendingTotal) % 2 ^ 64
  .ok ⟨newAvailable, keys.aes.encrypt newAvailable, extension.pendingBalanceCreditCounter⟩

/-- The one transaction's instructions. -/
def applyPendingInstructions (authority : Wallet) (mint : Pubkey) (values : ApplyValues) :
    List Instruction :=
  let tokenAccount := getAssociatedTokenAddress authority.pubkey mint
  [.applyPendingBalance tokenAccount values.expectedCounter values.newDecryptable
    authority.pubkey [authority.pubkey]]

/-- `apply_pending_balance`. -/
def applyPendingBalance (payer authority : Wallet) (mint : Pubkey) : Client Signature := do
  let tokenAccount := getAssociatedTokenAddress authority.pubkey mint
  let keys ← deriveConfidentialKeys authority
  let extension ← fetchConfidential tokenAccount
  let values ← Program.ofExcept (applyPendingValues keys extension)
  sendTx (applyPendingInstructions authority mint values) [payer.pubkey, authority.pubkey]
    payer.pubkey

/-- The transaction that applying submits. -/
def applyPendingTransaction (payer authority : Wallet) (mint : Pubkey) (values : ApplyValues) :
    Transaction :=
  ⟨applyPendingInstructions authority mint values, payer.pubkey,
    [payer.pubkey, authority.pubkey]⟩

/-- What applying may submit. -/
def ApplyPlan (payer authority : Wallet) (mint : Pubkey) (world : World)
    (plan : List Transaction) : Prop :=
  ∃ extension values,
    world.ledger.confidential? (getAssociatedTokenAddress authority.pubkey mint) =
      some extension ∧
    applyPendingValues authority.confidentialKeys extension = .ok values ∧
    plan = [applyPendingTransaction payer authority mint values]

/-- Applying gives up with nothing sent, or sends its one transaction. -/
theorem applyPendingBalance_tries (cluster : Cluster) (payer authority : Wallet) (mint : Pubkey)
    (world : World) :
    Tries cluster (ApplyPlan payer authority mint world)
      (fun _ sig world' => sig = ⟨world.landed.length⟩ ∧ world'.generated = world.generated)
      (applyPendingBalance payer authority mint) world := by
  refine tries_after (silent_deriveConfidentialKeys authority)
    (quietly_deriveConfidentialKeys authority) ?_
  rintro keys after - ⟨rfl, rfl⟩
  refine tries_after (silent_fetchConfidential _) (quietly_fetchConfidential _) ?_
  rintro extension after - ⟨rfl, held⟩
  refine tries_after (silent_ofExcept _) (quietly_ofExcept _) ?_
  rintro values after - ⟨computed, rfl⟩
  exact tries_sends ⟨extension, values, held, computed, rfl⟩
    ((sends_sendTx _ _ _).weaken fun _ _ known => ⟨known.1, known.2.2⟩)

/-- Applying lands its one transaction, computed from the account as it stood, or nothing. -/
theorem applyPendingBalance_submits (cluster : Cluster) (payer authority : Wallet)
    (mint : Pubkey) (world : World) :
    Submits cluster (ApplyPlan payer authority mint world)
      (fun _ sig world' => sig = ⟨world.landed.length⟩ ∧ world'.generated = world.generated)
      (applyPendingBalance payer authority mint) world :=
  (applyPendingBalance_tries cluster payer authority mint world).submits

/-- The three balances decrypt, and each is below the decryption bound. -/
theorem applyPendingValues_ok {keys : ConfidentialKeys} {extension : ConfidentialTransferAccount}
    {values : ApplyValues} (computed : applyPendingValues keys extension = .ok values) :
    extension.pendingBalanceLo.decryptU32 keys.elgamal ≠ none ∧
      extension.pendingBalanceHi.decryptU32 keys.elgamal ≠ none ∧
      extension.availableBalance.decryptU32 keys.elgamal ≠ none ∧
      (values.newAvailable : ℤ) = extension.availableBalance.amount + extension.pendingAmount ∧
      values.newDecryptable = keys.aes.encrypt values.newAvailable ∧
      values.expectedCounter = extension.pendingBalanceCreditCounter := by
  unfold applyPendingValues at computed
  cases lo : extension.pendingBalanceLo.decryptU32 keys.elgamal with
  | none => simp [lo, okOr, bind, Except.bind] at computed
  | some pendingLo =>
    cases hi : extension.pendingBalanceHi.decryptU32 keys.elgamal with
    | none => simp [lo, hi, okOr, bind, Except.bind] at computed
    | some pendingHi =>
      cases available : extension.availableBalance.decryptU32 keys.elgamal with
      | none => simp [lo, hi, available, okOr, bind, Except.bind] at computed
      | some current =>
        simp only [lo, hi, available, okOr, bind, Except.bind, Except.ok.injEq] at computed
        subst computed
        obtain ⟨loAmount, loBound⟩ := ElGamalCiphertext.decryptU32_some lo
        obtain ⟨hiAmount, hiBound⟩ := ElGamalCiphertext.decryptU32_some hi
        obtain ⟨availableAmount, availableBound⟩ := ElGamalCiphertext.decryptU32_some available
        refine ⟨by simp, by simp, by simp, ?_, rfl, rfl⟩
        -- Each part is below 2^32, so neither the shift nor a sum leaves the 64 bits.
        unfold ElGamalCiphertext.decryptBound at loBound hiBound availableBound
        simp only [ConfidentialTransferAccount.pendingAmount, pendingBalanceLoBits, loAmount,
          hiAmount, availableAmount, Nat.shiftLeft_eq]
        omega

end ConfidentialBalances
