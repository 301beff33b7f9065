import ConfidentialBalances.Synchronisation

/-!
# The decryption bound

Every balance that an operation reads with `decrypt_u32` is bounded by what the
limits on credits allow, or not at all. The low pending balance always decrypts.
The high pending balance and the available balance grow past the bound, and from
there on neither an apply nor a withdraw gets through.
-/

namespace ConfidentialBalances

open Effect Relation

/-! ## Which texts a call fails with -/

/-- Every error text that the program ends with has this cause. -/
def Explains {α : Type} (cluster : Cluster) (cause : String → Prop) (program : Client α)
    (world : World) : Prop :=
  (chainSystem cluster).Meets (fun _ => True)
    (fun outcome _ => ∀ text, outcome = .error (.message text) → cause text) program world

/-- An error that is not given by its text alone. -/
def ClientError.Unworded (reason : ClientError) : Prop := ∀ text, reason ≠ .message text

section Rules

variable {α β : Type} {cluster : Cluster} {cause : String → Prop} {world : World}

/-- A program without worded errors explains any. -/
theorem explains_of_unworded {program : Client α} (unworded : program.Fails ClientError.Unworded) :
    Explains cluster cause program world := by
  have meets : (chainSystem cluster).Meets (fun _ => True) (fun _ _ => True) program world := by
    induction program generalizing world with
    | done outcome => exact ⟨trivial, trivial⟩
    | call request next ih => exact ⟨trivial, fun reply world' _ => ih reply (unworded reply)⟩
  refine (meets.fails unworded).weaken (fun _ holds => holds) ?_
  rintro outcome world' - ⟨-, never⟩ text same
  exact absurd rfl (never _ same text)

/-- Reading without worded errors, and then the rest. -/
theorem explains_after {mid : α → World → Prop} {program : Client α} {rest : α → Client β}
    (quiet : Quietly cluster mid program world) (unworded : program.Fails ClientError.Unworded)
    (later : ∀ value world', mid value world' → Explains cluster cause (rest value) world') :
    Explains cluster cause (program >>= rest) world := by
  have first : (chainSystem cluster).Meets (fun _ => True)
      (fun outcome world' => (∀ value, outcome = .ok value → mid value world') ∧
        ∀ reason, outcome = .error reason → reason.Unworded) program world :=
    (System.Meets.fails quiet unworded).weaken (fun _ _ => trivial) fun _ _ _ post => post
  refine System.Meets.bind first ?_ ?_ ?_
  · intro value world' _ post
    exact later value world' (post.1 value rfl)
  · intro reason world' _ post text same
    exact absurd (Outcome.error.inj same) (post.2 reason rfl text)
  · intro message world' _ _ text same
    contradiction

/-- A computation, and then a rest without worded errors. -/
theorem explains_computed {result : Except ClientError α} {rest : α → Client β}
    (causes : ∀ text, result = .error (.message text) → cause text)
    (unworded : ∀ value, (rest value).Fails ClientError.Unworded) :
    Explains cluster cause (Program.ofExcept result >>= rest) world := by
  cases result with
  | ok value => exact explains_of_unworded (unworded value)
  | error reason =>
    refine ⟨trivial, fun text same => causes text ?_⟩
    exact congrArg Except.error (Outcome.error.inj same)

/-- Wrapping the signature explains what the call explains. -/
theorem explains_single {program : Client Signature}
    (explains : Explains cluster cause program world) :
    Explains cluster cause (Operation.single program) world := by
  refine System.Meets.bind explains ?_ ?_ ?_
  · exact fun _ _ _ _ => ⟨trivial, fun _ same => by contradiction⟩
  · intro reason world' _ causes text same
    exact causes text (by rw [Outcome.error.inj same])
  · exact fun _ _ _ _ _ same => by contradiction

/-- A failed request is no text of the library. -/
theorem unworded_orRpc (reply : Except RpcError α) :
    (orRpc reply : Client α).Fails ClientError.Unworded := by
  cases reply with
  | ok value => trivial
  | error reason => exact fun _ same => by contradiction

/-- Getting an account fails without a text of the library. -/
theorem unworded_getAccount (key : Pubkey) : (getAccount key).Fails ClientError.Unworded :=
  fun reply => unworded_orRpc reply

/-- Deriving keys fails without a text of the library. -/
theorem unworded_deriveConfidentialKeys (signer : Wallet) :
    (deriveConfidentialKeys signer).Fails ClientError.Unworded := by
  intro reply
  cases reply with
  | ok value => trivial
  | error reason => exact fun _ same => by contradiction

/-- Fetching a confidential account fails without a text of the library. -/
theorem unworded_fetchConfidential (account : Pubkey) :
    (fetchConfidential account).Fails ClientError.Unworded := by
  refine (unworded_getAccount account).bind fun data => ?_
  refine (Program.fails_ofExcept fun reason failed => ?_).bind fun token =>
    Program.fails_ofExcept fun reason failed => ?_
  · unfold unpackTokenAccount at failed
    split at failed
    · contradiction
    · exact Except.error.inj failed ▸ fun _ same => by contradiction
  · unfold getExtension at failed
    split at failed
    · contradiction
    · exact Except.error.inj failed ▸ fun _ same => by contradiction

/-- Sending a transaction fails without a text of the library. -/
theorem unworded_sendTx (instructions : List Instruction) (signers : List Pubkey)
    (payer : Pubkey) : (sendTx instructions signers payer).Fails ClientError.Unworded := by
  refine Program.Fails.bind (fun _ => trivial) fun reply => ?_
  refine (unworded_orRpc reply).bind fun _ => ?_
  refine Program.Fails.bind (Program.Fails.bind (fun _ => trivial) fun reply => ?_) fun _ => ?_
  · cases reply with
    | ok signed => trivial
    | error reason => cases reason <;> trivial
  · exact Program.Fails.bind (fun _ => trivial) fun reply => unworded_orRpc reply

/-- Closing context accounts fails without a text of the library. -/
theorem unworded_closeContextStates (payer authority : Wallet) (accounts : List Pubkey)
    (signatures : List Signature) :
    (closeContextStates payer authority accounts signatures).Fails ClientError.Unworded := by
  induction accounts generalizing signatures with
  | nil => trivial
  | cons account rest ih => exact (unworded_sendTx _ _ _).bind fun _ => ih _

end Rules

section Calls

variable {sdk : Sdk} {cluster : Cluster} {payer owner : Wallet} {mint : Pubkey}
variable {world world' : World} {text : String}

/-- The texts an apply fails with are those of its computation on the account as it stands. -/
theorem applyPending_error
    (ended : (chainSystem cluster).Ends world
      ((Operation.applyPending payer owner mint).program sdk) (.error (.message text)) world') :
    ∃ extension,
      world.ledger.confidential? (getAssociatedTokenAddress owner.pubkey mint) = some extension ∧
      applyPendingValues owner.confidentialKeys extension = .error (.message text) := by
  have explains : Explains cluster (fun text => ∃ extension,
      world.ledger.confidential? (getAssociatedTokenAddress owner.pubkey mint) = some extension ∧
      applyPendingValues owner.confidentialKeys extension = .error (.message text))
      (applyPendingBalance payer owner mint) world := by
    refine explains_after (quietly_deriveConfidentialKeys owner)
      (unworded_deriveConfidentialKeys owner) ?_
    rintro keys after ⟨rfl, rfl⟩
    refine explains_after (quietly_fetchConfidential _) (unworded_fetchConfidential _) ?_
    rintro extension after ⟨rfl, held⟩
    exact explains_computed (fun text failed => ⟨extension, held, failed⟩)
      fun values => unworded_sendTx _ _ _
  exact (explains_single explains).ends ended text rfl

/-- The texts a withdraw fails with are those of its computation on the account as it stands. -/
theorem withdraw_error {amount decimals : Nat}
    (ended : (chainSystem cluster).Ends world
      ((Operation.withdraw payer owner mint amount decimals).program sdk) (.error (.message text))
        world') :
    ∃ extension,
      world.ledger.confidential? (getAssociatedTokenAddress owner.pubkey mint) = some extension ∧
      withdrawValues sdk owner.confidentialKeys extension amount = .error (.message text) := by
  have explains : Explains cluster (fun text => ∃ extension,
      world.ledger.confidential? (getAssociatedTokenAddress owner.pubkey mint) = some extension ∧
      withdrawValues sdk owner.confidentialKeys extension amount = .error (.message text))
      (withdrawFromConfidential sdk payer owner mint amount decimals) world := by
    refine explains_after (quietly_deriveConfidentialKeys owner)
      (unworded_deriveConfidentialKeys owner) ?_
    rintro keys after ⟨rfl, rfl⟩
    refine explains_after (quietly_fetchConfidential _) (unworded_fetchConfidential _) ?_
    rintro extension after ⟨rfl, held⟩
    refine explains_computed (fun text failed => ⟨extension, held, failed⟩) fun values => ?_
    refine Program.Fails.bind (fun _ => trivial) fun equalityAccount => ?_
    refine Program.Fails.bind (fun reply => unworded_orRpc reply) fun equalityRent => ?_
    refine (unworded_sendTx _ _ _).bind fun first => ?_
    refine Program.Fails.bind (fun _ => trivial) fun rangeAccount => ?_
    refine Program.Fails.bind (fun reply => unworded_orRpc reply) fun rangeRent => ?_
    refine (unworded_sendTx _ _ _).bind fun second => ?_
    refine (unworded_sendTx _ _ _).bind fun third => ?_
    refine (unworded_closeContextStates _ _ _ _).bind fun signatures => ?_
    cases signatures[2]? <;> trivial
  exact (explains_single explains).ends ended text rfl

end Calls

/-! ## What decrypts -/

/-- An apply computes its values unless a balance does not decrypt, and then it says which. -/
theorem applyPendingValues_error {keys : ConfidentialKeys}
    {extension : ConfidentialTransferAccount} {reason : ClientError}
    (failed : applyPendingValues keys extension = .error reason) :
    (extension.pendingBalanceLo.decryptU32 keys.elgamal = none ∧
        reason = .message "decrypt pending_balance_lo") ∨
      (extension.pendingBalanceHi.decryptU32 keys.elgamal = none ∧
        reason = .message "decrypt pending_balance_hi") ∨
      (extension.availableBalance.decryptU32 keys.elgamal = none ∧
        reason = .message "decrypt available_balance") := by
  unfold applyPendingValues at failed
  cases lo : extension.pendingBalanceLo.decryptU32 keys.elgamal with
  | none =>
    simp only [lo, okOr, bind, Except.bind] at failed
    exact .inl ⟨rfl, (Except.error.inj failed).symm⟩
  | some pendingLo =>
    cases hi : extension.pendingBalanceHi.decryptU32 keys.elgamal with
    | none =>
      simp only [lo, hi, okOr, bind, Except.bind] at failed
      exact .inr (.inl ⟨rfl, (Except.error.inj failed).symm⟩)
    | some pendingHi =>
      cases available : extension.availableBalance.decryptU32 keys.elgamal with
      | none =>
        simp only [lo, hi, available, okOr, bind, Except.bind] at failed
        exact .inr (.inr ⟨rfl, (Except.error.inj failed).symm⟩)
      | some current => simp [lo, hi, available, okOr, bind, Except.bind] at failed

/-- The two worded errors of a withdraw are different texts. -/
theorem insufficient_ne (held need : Nat) :
    s!"Insufficient confidential balance: have {held}, need {need}" ≠
      "decrypt available balance" := by
  intro same
  have head := congrArg (fun text => text.toList.head?) same
  simp only [toString, String.toList_append] at head
  simp at head

/-- A withdraw says that the balance does not decrypt only where it does not. -/
theorem withdrawValues_error {sdk : Sdk} {keys : ConfidentialKeys}
    {extension : ConfidentialTransferAccount} {amount : Nat}
    (failed : withdrawValues sdk keys extension amount =
      .error (.message "decrypt available balance")) :
    extension.availableBalance.decryptU32 keys.elgamal = none := by
  unfold withdrawValues at failed
  cases decrypted : extension.availableBalance.decryptU32 keys.elgamal with
  | none => rfl
  | some current =>
    simp only [decrypted, okOr, bind, Except.bind] at failed
    split at failed
    · have same := ClientError.message.inj (Except.error.inj failed)
      exact absurd same (insufficient_ne current amount)
    · split at failed
      · rename_i reason generated
        obtain rfl := Except.error.inj failed
        unfold labelError at generated
        cases result : sdk.withdrawProofData extension.availableBalance current amount
            keys.elgamal with
        | ok data => simp [result, Except.mapError] at generated
        | error text => simp [result, Except.mapError] at generated
      · contradiction

/-- What the limits on credits leave true of an account: its balances are under the owner's key and
not negative, and the low pending balance is bounded by the number of credits. -/
structure Limited (keys : ConfidentialKeys) (account : ConfidentialTransferAccount) : Prop where
  /-- Balances are encrypted under the owner's key. -/
  keyed : Keyed keys account
  /-- Every credit adds less than 2^16 to the low pending balance. -/
  lo : 0 ≤ account.pendingBalanceLo.amount ∧
    account.pendingBalanceLo.amount ≤ account.pendingBalanceCreditCounter * (2 ^ 16 - 1)
  /-- The high pending balance is not negative. -/
  hi : 0 ≤ account.pendingBalanceHi.amount
  /-- The available balance is not negative. -/
  available : 0 ≤ account.availableBalance.amount
  /-- No more than 65536 credits are pending. -/
  counter : account.pendingBalanceCreditCounter ≤ maxPendingBalanceCreditCounter ∧
    account.maximumPendingBalanceCreditCounter = maxPendingBalanceCreditCounter

section Limits

variable {sdk : Sdk} {cluster : Cluster} {keys : ConfidentialKeys}
variable {account account' : ConfidentialTransferAccount}

/-- A credit of an amount's limbs keeps to the limits. -/
theorem Limited.credit {lo hi : ElGamalCiphertext} {amount : Nat} (limited : Limited keys account)
    (low : lo.amount = ((amount % 2 ^ pendingBalanceLoBits : Nat) : ℤ))
    (high : hi.amount = ((amount / 2 ^ pendingBalanceLoBits : Nat) : ℤ))
    (credited : account.credit lo hi = some account') : Limited keys account' := by
  have keyed := credit_keyed limited.keyed credited
  obtain ⟨room, rfl⟩ := ConfidentialTransferAccount.credit_some credited
  obtain ⟨-, ⟨loLow, loHigh⟩, hiLow, available, bound, maximum⟩ := limited
  rw [pendingBalanceLoBits] at low high
  refine ⟨keyed, ⟨?_, ?_⟩, ?_, available, ?_, maximum⟩
  · simp only [ElGamalCiphertext.add_amount, low]
    omega
  · simp only [ElGamalCiphertext.add_amount, low]
    push_cast
    omega
  · simp only [ElGamalCiphertext.add_amount, high]
    omega
  · rw [← maximum]
    exact room

/-- A task keeps to the limits. -/
theorem Limited.executes (honest : Honest sdk cluster) {task : Task}
    (limited : Limited keys account)
    (executes : Executes sdk cluster keys account task account account') :
    Limited keys account' := by
  obtain ⟨keyed, lo, hi, available, counter⟩ := limited
  have nonnegative : 0 ≤ account'.availableBalance.amount := by
    obtain ⟨amount, -, same⟩ := executes.synced honest
    omega
  have keyed' := executes.keyed keyed
  cases executes with
  | apply computed accepted =>
    obtain ⟨-, rfl⟩ := ConfidentialTransferAccount.applyPendingBalance_some accepted
    exact ⟨keyed', by simp, by simp, nonnegative, by simp, counter.2⟩
  | withdraw computed equality range accepted =>
    obtain ⟨commitment, -, -, rfl⟩ := ConfidentialTransferAccount.withdraw_some accepted
    exact ⟨keyed', lo, hi, nonnegative, counter⟩
  | transfer generated computed equality validity range accepted =>
    obtain ⟨commitment, transfer, -, -, -, rfl⟩ :=
      ConfidentialTransferAccount.transferOut_some accepted
    exact ⟨keyed', lo, hi, nonnegative, counter⟩

/-- Every step keeps to the limits. -/
theorem accountStep_limited (honest : Honest sdk cluster)
    (state state' : Option ConfidentialTransferAccount)
    (step : AccountStep sdk cluster keys state state')
    (limited : ∀ account, state = some account → Limited keys account) :
    ∀ account, state' = some account → Limited keys account := by
  intro account same
  cases step with
  | configure approved =>
    obtain rfl := Option.some.inj same
    exact ⟨⟨rfl, rfl, rfl, rfl⟩, by simp [ConfidentialTransferAccount.configured],
      by simp [ConfidentialTransferAccount.configured],
      by simp [ConfidentialTransferAccount.configured],
      by simp [ConfidentialTransferAccount.configured]⟩
  | deposit deposited =>
    obtain rfl := Option.some.inj same
    obtain ⟨-, credited⟩ := ConfidentialTransferAccount.deposit_some deposited
    exact (limited _ rfl).credit rfl rfl credited
  | receive carries bound received =>
    obtain rfl := Option.some.inj same
    obtain ⟨transfer, named, credited⟩ := ConfidentialTransferAccount.transferIn_some received
    obtain rfl := ProofContext.validity.inj named
    exact (limited _ rfl).credit carries.1 carries.2 credited
  | execute executes =>
    obtain rfl := Option.some.inj same
    exact (limited _ rfl).executes honest executes

/-- Under the right key, a balance that is not negative decrypts exactly below the bound. -/
theorem decryptU32_none_iff {ciphertext : ElGamalCiphertext} {keypair : ElGamalKeypair}
    (key : ciphertext.key = keypair.pubkey) (nonnegative : 0 ≤ ciphertext.amount) :
    ciphertext.decryptU32 keypair = none ↔ 2 ^ 32 ≤ ciphertext.amount := by
  obtain ⟨amount, encrypts⟩ := Int.eq_ofNat_of_zero_le nonnegative
  rw [ElGamalCiphertext.decryptU32_eq key encrypts, encrypts]
  unfold ElGamalCiphertext.decryptBound
  by_cases below : amount < 2 ^ 32
  · simp only [if_pos below, reduceCtorEq, false_iff, not_le]
    exact_mod_cast below
  · simp only [if_neg below, true_iff]
    exact_mod_cast not_lt.mp below

/-- The low pending balance always decrypts. -/
theorem Limited.lo_decrypts (limited : Limited keys account) :
    account.pendingBalanceLo.decryptU32 keys.elgamal ≠ none := by
  rw [ne_eq, decryptU32_none_iff limited.keyed.pendingLo limited.lo.1]
  have counter := limited.counter.1
  have lo := limited.lo.2
  rw [maxPendingBalanceCreditCounter] at counter
  omega

end Limits

/-- In every state that sequences of calls lead to from before the account was configured: no apply
fails to decrypt the low pending balance; an apply fails to decrypt the high pending balance, and
an apply or a withdraw the available balance, only where that balance is at least 2^32; and there
none of them succeeds. -/
theorem decryption_limits (sdk : Sdk) (cluster : Cluster) (honest : Honest sdk cluster)
    (owner : Wallet) (mint : Pubkey) (start world : World)
    (extension : ConfidentialTransferAccount)
    (unconfigured :
      start.ledger.confidential? (getAssociatedTokenAddress owner.pubkey mint) = none)
    (steps : ReflTransGen (WorldStep sdk cluster (getAssociatedTokenAddress owner.pubkey mint))
      start world)
    (held : world.ledger.confidential? (getAssociatedTokenAddress owner.pubkey mint) =
      some extension) :
    (∀ payer world', ¬ (chainSystem cluster).Ends world
      ((Operation.applyPending payer owner mint).program sdk)
      (.error (.message "decrypt pending_balance_lo")) world') ∧
    (∀ payer world', (chainSystem cluster).Ends world
      ((Operation.applyPending payer owner mint).program sdk)
      (.error (.message "decrypt pending_balance_hi")) world' →
        2 ^ 32 ≤ extension.pendingBalanceHi.amount) ∧
    (∀ payer world', (chainSystem cluster).Ends world
      ((Operation.applyPending payer owner mint).program sdk)
      (.error (.message "decrypt available_balance")) world' →
        2 ^ 32 ≤ extension.availableBalance.amount) ∧
    (∀ payer amount decimals world', (chainSystem cluster).Ends world
      ((Operation.withdraw payer owner mint amount decimals).program sdk)
      (.error (.message "decrypt available balance")) world' →
        2 ^ 32 ≤ extension.availableBalance.amount) ∧
    (2 ^ 32 ≤ extension.pendingBalanceHi.amount ∨ 2 ^ 32 ≤ extension.availableBalance.amount →
      ∀ payer sigs world', ¬ (chainSystem cluster).Ends world
        ((Operation.applyPending payer owner mint).program sdk) (.ok sigs) world') ∧
    (2 ^ 32 ≤ extension.availableBalance.amount →
      ∀ payer amount decimals sigs world', ¬ (chainSystem cluster).Ends world
        ((Operation.withdraw payer owner mint amount decimals).program sdk) (.ok sigs) world') := by
  have limited : Limited owner.confidentialKeys extension := by
    refine accountSteps_preserve (accountStep_limited honest) (worldSteps_refine honest steps) ?_ _
      held
    rw [unconfigured]
    intro account same
    contradiction
  have hi := decryptU32_none_iff limited.keyed.pendingHi limited.hi
  have available := decryptU32_none_iff limited.keyed.available limited.available
  -- A worded failure of an apply names a balance of this account that does not decrypt.
  have applyFails {payer : Wallet} {world' : World} {text : String} (ended :
      (chainSystem cluster).Ends world ((Operation.applyPending payer owner mint).program sdk)
        (.error (.message text)) world') :
      (extension.pendingBalanceLo.decryptU32 owner.confidentialKeys.elgamal = none ∧
          ClientError.message text = .message "decrypt pending_balance_lo") ∨
        (extension.pendingBalanceHi.decryptU32 owner.confidentialKeys.elgamal = none ∧
          ClientError.message text = .message "decrypt pending_balance_hi") ∨
        (extension.availableBalance.decryptU32 owner.confidentialKeys.elgamal = none ∧
          ClientError.message text = .message "decrypt available_balance") := by
    obtain ⟨read, same, failed⟩ := applyPending_error ended
    obtain rfl : extension = read := Option.some.inj (held.symm.trans same)
    exact applyPendingValues_error failed
  refine ⟨fun payer world' ended => ?_, fun payer world' ended => ?_, fun payer world' ended => ?_,
    fun payer amount decimals world' ended => ?_, fun beyond payer sigs world' ended => ?_,
    fun beyond payer amount decimals sigs world' ended => ?_⟩
  · rcases applyFails ended with ⟨undecrypted, -⟩ | ⟨-, same⟩ | ⟨-, same⟩
    · exact limited.lo_decrypts undecrypted
    · simp at same
    · simp at same
  · rcases applyFails ended with ⟨-, same⟩ | ⟨undecrypted, -⟩ | ⟨-, same⟩
    · simp at same
    · exact hi.mp undecrypted
    · simp at same
  · rcases applyFails ended with ⟨-, same⟩ | ⟨-, same⟩ | ⟨undecrypted, -⟩
    · simp at same
    · simp at same
    · exact available.mp undecrypted
  · obtain ⟨read, same, failed⟩ := withdraw_error ended
    obtain rfl : extension = read := Option.some.inj (held.symm.trans same)
    exact available.mp (withdrawValues_error failed)
  · obtain ⟨read, read', amount, ⟨computed, -⟩, changes⟩ := Operation.ends_achieved honest ended
    obtain rfl : extension = read := Option.some.inj (held.symm.trans changes.start)
    obtain ⟨-, hiDecrypts, availableDecrypts, -⟩ := applyPendingValues_ok computed
    rcases beyond with beyond | beyond
    · exact hiDecrypts (hi.mpr beyond)
    · exact availableDecrypts (available.mpr beyond)
  · obtain ⟨read, read', amount', executes, changes⟩ := Operation.ends_achieved honest ended
    obtain rfl : extension = read := Option.some.inj (held.symm.trans changes.start)
    rcases executes with - | ⟨computed, -⟩
    obtain ⟨current, decrypted, -⟩ := withdrawValues_ok computed
    rw [available.mpr beyond] at decrypted
    contradiction

/-- The calls of an owner who deposits 2^32 tokens into a new account and applies them. -/
def largeDeposit : List Operation :=
  [.configure ⟨0⟩ ⟨1⟩ (.wallet ⟨3⟩), .deposit ⟨0⟩ ⟨1⟩ (.wallet ⟨3⟩) (2 ^ 32) 0,
    .applyPending ⟨0⟩ ⟨1⟩ (.wallet ⟨3⟩)]

/-- After that the next apply does not succeed. -/
theorem decryption_limits_largeDeposit :
    ((Operation.applyPending ⟨0⟩ ⟨1⟩ (.wallet ⟨3⟩)).ideal (Operation.idealWorld largeDeposit
      (.unconfigured ⟨0⟩ ⟨1⟩ (.wallet ⟨3⟩) (2 ^ 32)))).1.isOk = false := by
  let start : World := .unconfigured ⟨0⟩ ⟨1⟩ (.wallet ⟨3⟩) (2 ^ 32)
  let left : ConfidentialTransferAccount := { ConfidentialTransferAccount.configured true
    (.standard ⟨1⟩) ((⟨1⟩ : Wallet).confidentialKeys.aes.encrypt (2 ^ 32)) 65536 with
      availableBalance := ⟨.standard ⟨1⟩, 2 ^ 32, 0⟩ }
  have held : (Operation.idealWorld largeDeposit start).ledger.confidential?
      (getAssociatedTokenAddress (⟨1⟩ : Wallet).pubkey (.wallet ⟨3⟩)) = some left := by
    decide +kernel
  have limits := decryption_limits Sdk.ideal Cluster.ideal honest_ideal ⟨1⟩ (.wallet ⟨3⟩) start _
    left (by decide +kernel) (idealWorld_steps _ largeDeposit start) held
  have beyond : (2 : ℤ) ^ 32 ≤ left.availableBalance.amount := le_refl _
  rw [Bool.eq_false_iff]
  intro succeeds
  obtain ⟨sigs, returned⟩ := Outcome.isOk_iff.mp succeeds
  exact limits.2.2.2.2.1 (.inr beyond) ⟨0⟩ sigs _ (Operation.ideal_ends returned)

/-- All three calls succeed, and the next apply and the next withdraw cannot decrypt. -/
theorem largeDeposit_locks :
    Operation.idealOutcomes (largeDeposit ++ [.applyPending ⟨0⟩ ⟨1⟩ (.wallet ⟨3⟩),
        .withdraw ⟨0⟩ ⟨1⟩ (.wallet ⟨3⟩) 1 0]) (.unconfigured ⟨0⟩ ⟨1⟩ (.wallet ⟨3⟩) (2 ^ 32)) =
      [.ok [⟨0⟩], .ok [⟨1⟩], .ok [⟨2⟩], .error (.message "decrypt available_balance"),
        .error (.message "decrypt available balance")] := by
  decide +kernel

end ConfidentialBalances
