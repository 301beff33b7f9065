import ConfidentialBalances.OperationEffects

/-!
# What a withdraw's result says

The transaction that moves the tokens is the third of five. A withdraw that
reports an error has moved nothing as long as no request failed after that one
was confirmed; its two closing transactions can turn a completed withdraw into
an error.
-/

namespace ConfidentialBalances

open Effect

/-- The three balances of an owner. -/
structure Balances where
  /-- The public balance. -/
  publicAmount : Nat
  /-- What the available ciphertext holds. -/
  available : ℤ
  /-- What the owner's AES key decrypts. -/
  decryptable : Option Nat
  deriving DecidableEq, Repr

/-- The balances of an owner's configured account for a mint. -/
def Ledger.balances? (ledger : Ledger) (owner : Wallet) (mint : Pubkey) : Option Balances := do
  let token ← (ledger.data (getAssociatedTokenAddress owner.pubkey mint)).token?
  let extension ← token.confidential
  some ⟨token.amount, extension.availableBalance.amount,
    extension.decryptableAvailableBalance.decrypt owner.confidentialKeys.aes⟩

/-- Balances are read from token accounts alone. -/
theorem Ledger.Untouched.balances? {before after : Ledger} (untouched : before.Untouched after)
    (owner : Wallet) (mint : Pubkey) :
    after.balances? owner mint = before.balances? owner mint := by
  rw [Ledger.balances?, Ledger.balances?, untouched]

/-- The balances after so much was moved from the available to the public one. -/
def Balances.withdraw (balances : Balances) (amount : Nat) : Balances :=
  ⟨balances.publicAmount + amount, balances.available - amount,
    some (balances.available - amount).toNat⟩

/-- A withdraw of nothing changes nothing exactly when the decryptable balance is the available
one; a withdraw of something changes something. -/
theorem Balances.withdraw_eq_iff {balances : Balances} {amount : Nat} :
    balances.withdraw amount = balances ↔
      amount = 0 ∧ balances.decryptable = some balances.available.toNat := by
  obtain ⟨publicAmount, available, decryptable⟩ := balances
  simp only [withdraw, Balances.mk.injEq]
  constructor
  · rintro ⟨same, -, held⟩
    obtain rfl : amount = 0 := by omega
    exact ⟨rfl, by rw [← held]; simp⟩
  · rintro ⟨rfl, held⟩
    exact ⟨rfl, by simp, by rw [held]; simp⟩

/-- The transaction carries a withdraw instruction. -/
def Transaction.withdraws (transaction : Transaction) : Bool :=
  transaction.instructions.any fun instruction => match instruction with
    | .withdraw _ _ _ _ _ _ _ _ _ => true
    | _ => false

/-! ## Runs of a withdraw -/

section Runs

variable {cluster : Cluster} {world world' : World}

/-- What has landed of a withdraw has left every token account alone, up to its second
transaction, and has withdrawn from its third on. -/
theorem WithdrawRun.landing {sdk : Sdk} {payer authority : Wallet} {mint : Pubkey}
    {amount decimals : Nat} {run : WithdrawRun} {done rest : List Transaction} {ledger : Ledger}
    (planned : WithdrawPlan sdk payer authority mint amount decimals world run)
    (split : run.transactions sdk cluster = done ++ rest)
    (landed : world.ledger.execTransactions cluster done = some ledger) :
    (done.length ≤ 2 ∧ world.ledger.Untouched ledger) ∨
      (3 ≤ done.length ∧ (Operation.withdraw payer authority mint amount decimals).Achieved sdk
        cluster world.ledger ledger) := by
  obtain ⟨⟨rfl, rfl, rfl, rfl, rfl⟩, -, extension, held, computed⟩ := planned
  have quietBefore : ∀ transaction ∈ [run.equalityTransaction sdk cluster,
      run.rangeTransaction sdk cluster], Ledger.TokenQuiet transaction := by
    simp [Ledger.TokenQuiet, WithdrawRun.equalityTransaction, WithdrawRun.rangeTransaction,
      createAndVerify, Instruction.tokenWrites]
  have parts : done ++ rest = [run.equalityTransaction sdk cluster,
      run.rangeTransaction sdk cluster] ++ run.withdrawTransaction ::
        [run.closeTransaction run.equalityAccount, run.closeTransaction run.rangeAccount] :=
    split.symm
  by_cases early : done.length ≤ 2
  · refine .inl ⟨early, Ledger.execTransactions_quiet landed fun transaction member => ?_⟩
    have front : done <+: [run.equalityTransaction sdk cluster,
        run.rangeTransaction sdk cluster] :=
      List.prefix_of_prefix_length_le ⟨rest, parts⟩ (List.prefix_append _ _) early
    exact quietBefore transaction (front.subset member)
  · refine .inr ⟨by omega, ?_⟩
    rcases Ledger.execTransactions_around parts quietBefore
      (by simp [Ledger.TokenQuiet, WithdrawRun.closeTransaction, Instruction.tokenWrites])
      landed with ⟨⟨more, suffix⟩, -⟩ | ⟨first, second, setup, before, ran, after⟩
    · have count := congrArg List.length parts
      rw [← suffix] at count
      simp only [List.length_append, List.length_cons, List.length_nil] at count
      omega
    · obtain ⟨⟨equality, stated, verified⟩, range, rangeStated, rangeVerified⟩ :=
        WithdrawRun.setup_data setup
      obtain ⟨read, read', amount', executes, changes⟩ := withdrawTransaction_achieved
        ((Ledger.confidential?_congr (before _)).trans held) computed stated verified rangeStated
        rangeVerified ran
      exact ⟨read, read', amount', executes, changes.congr before after⟩

/-- An achieved withdraw moved its amount between the balances, and they covered it. -/
theorem achieved_withdraw_balances {sdk : Sdk} {payer authority : Wallet} {mint : Pubkey}
    {amount decimals : Nat} {before after : Ledger}
    (achieved : (Operation.withdraw payer authority mint amount decimals).Achieved sdk cluster
      before after) :
    ∃ balances, before.balances? authority mint = some balances ∧
      (amount : ℤ) ≤ balances.available ∧
      after.balances? authority mint = some (balances.withdraw amount) := by
  obtain ⟨extension, extension', amount', executes, ⟨token, held, rfl, confidential, written⟩, -⟩ :=
    achieved
  cases executes with
  | withdraw computed equalityStated rangeStated accepted =>
    obtain ⟨current, decrypted, covered, encrypted, -⟩ := withdrawValues_ok computed
    obtain ⟨current_eq, -⟩ := ElGamalCiphertext.decryptU32_some decrypted
    obtain ⟨commitment, -, -, rfl⟩ := ConfidentialTransferAccount.withdraw_some accepted
    refine ⟨⟨token.amount, extension.availableBalance.amount,
      extension.decryptableAvailableBalance.decrypt authority.confidentialKeys.aes⟩, ?_, ?_, ?_⟩
    · simp [Ledger.balances?, held, confidential]
    · show (amount : ℤ) ≤ extension.availableBalance.amount
      omega
    simp only [Ledger.balances?, written, Option.bind_eq_bind, Option.bind_some, encrypted,
      AeCiphertext.decrypt_encrypt, ElGamalCiphertext.sub_amount,
      ElGamalCiphertext.ofAmount_amount, Balances.withdraw, current_eq]
    congr 3
    omega

end Runs

/-! ## What the result promises -/

/-- A completed withdraw: the amount moved once, by the transaction that the signature names. -/
structure Withdrawn (authority : Wallet) (mint : Pubkey) (amount decimals : Nat)
    (world world' : World) (sig : Signature) : Prop where
  /-- The balances covered the amount, and it moved from the available to the public one. -/
  moved : ∃ balances, world.ledger.balances? authority mint = some balances ∧
    (amount : ℤ) ≤ balances.available ∧
    world'.ledger.balances? authority mint = some (balances.withdraw amount)
  /-- One of the landed transactions carries a withdraw, of this amount, and the signature names
  it. -/
  named : ∃ transaction newDecryptable equalityAccount rangeAccount,
    transaction.instructions = withdrawInstructions authority mint amount decimals newDecryptable
      equalityAccount rangeAccount ∧
    world'.landed[sig.position]? = some transaction ∧
    (world'.landed.drop world.landed.length).filter Transaction.withdraws = [transaction]

/-- What the result of a withdraw is claimed to say. -/
structure WithdrawPromise (authority : Wallet) (mint : Pubkey) (amount decimals : Nat)
    (world world' : World) (transcript : List (Exchange Reply))
    (outcome : Outcome ClientError Signature) : Prop where
  /-- An error leaves the three balances as they were. -/
  error : ∀ reason, outcome = .error reason →
    world'.ledger.balances? authority mint = world.ledger.balances? authority mint
  /-- A signature comes with the amount moved, once. -/
  ok : ∀ sig, outcome = .ok sig → Withdrawn authority mint amount decimals world world' sig
  /-- More than the decrypted available balance is an error before anything is submitted. -/
  insufficient : ∀ extension current,
    world.ledger.confidential? (getAssociatedTokenAddress authority.pubkey mint) =
      some extension →
    extension.availableBalance.decryptU32 authority.confidentialKeys.elgamal = some current →
    current < amount → (∃ reason, outcome = .error reason) ∧ submitted transcript = []

/-- Every request that failed did so before the transaction that withdraws was confirmed; or
nothing was to be withdrawn, and the decryptable balance was the available one. -/
def WithdrawUndisturbed (authority : Wallet) (mint : Pubkey) (amount : Nat) (world : World)
    (transcript : List (Exchange Reply)) : Prop :=
  (∀ place ∈ failures transcript, place ≤ 2) ∨
    (amount = 0 ∧ ∀ balances, world.ledger.balances? authority mint = some balances →
      balances.decryptable = some balances.available.toNat)

section Promise

variable {sdk : Sdk} {cluster : Cluster} {payer authority : Wallet} {mint : Pubkey}
variable {amount decimals : Nat} {world world' : World} {transcript : List (Exchange Reply)}
variable {outcome : Outcome ClientError Signature}

/-- A plan's values were computed, so the decrypted balance covers the amount. -/
theorem WithdrawPlan.covers {run : WithdrawRun}
    (planned : WithdrawPlan sdk payer authority mint amount decimals world run)
    {extension : ConfidentialTransferAccount} {current : Nat}
    (held : world.ledger.confidential? (getAssociatedTokenAddress authority.pubkey mint) =
      some extension)
    (decrypted : extension.availableBalance.decryptU32 authority.confidentialKeys.elgamal =
      some current) : amount ≤ current := by
  obtain ⟨extension', held', computed⟩ := planned.computed
  obtain rfl := Option.some.inj (held.symm.trans held')
  obtain ⟨current', decrypted', covers, -⟩ := withdrawValues_ok computed
  obtain rfl := Option.some.inj (decrypted.symm.trans decrypted')
  exact covers

/-- A plan that landed whole has withdrawn, by its third transaction. -/
theorem WithdrawPlan.withdrawn {run : WithdrawRun}
    (planned : WithdrawPlan sdk payer authority mint amount decimals world run)
    (landed : world'.landed = world.landed ++ run.transactions sdk cluster)
    (ledger : world.ledger.execTransactions cluster (run.transactions sdk cluster) =
      some world'.ledger) :
    Withdrawn authority mint amount decimals world world' ⟨world.landed.length + 2⟩ := by
  rcases run.landing planned (List.append_nil _).symm ledger with ⟨few, -⟩ | ⟨-, achieved⟩
  · simp [WithdrawRun.transactions] at few
  obtain ⟨⟨-, rfl, rfl, rfl, rfl⟩, -, -⟩ := planned
  refine ⟨achieved_withdraw_balances achieved, run.withdrawTransaction,
    run.values.newDecryptable, run.equalityAccount, run.rangeAccount, rfl, ?_, ?_⟩
  · rw [landed, List.getElem?_append_right (by simp)]
    simp [WithdrawRun.transactions]
  · rw [landed, List.drop_left]
    simp [WithdrawRun.transactions, Transaction.withdraws, WithdrawRun.equalityTransaction,
      WithdrawRun.rangeTransaction, WithdrawRun.withdrawTransaction,
      WithdrawRun.closeTransaction, withdrawInstructions, createAndVerify]

/-- A run keeps its promise exactly when it is undisturbed. -/
theorem withdrawPromise_iff
    (ran : (chainSystem cluster).Runs world
      (withdrawFromConfidential sdk payer authority mint amount decimals) transcript world'
      (.done outcome)) :
    WithdrawPromise authority mint amount decimals world world' transcript outcome ↔
      WithdrawUndisturbed authority mint amount world transcript := by
  have witnessed := runs_witnessed ran
  have ledger := witnessed.ledger
  obtain ⟨-, ⟨reason, rfl, unheard, failed⟩ | ⟨plan, ⟨run, planned, rfl⟩, ends⟩⟩ :=
    withdrawFromConfidential_tries sdk cluster payer authority mint amount decimals world _ _ _ ran
  · rw [unheard.carried] at ledger
    have same := Option.some.inj ledger
    refine iff_of_true ⟨fun _ _ => by rw [same], fun _ returned => by contradiction,
      fun _ _ _ _ _ => ⟨⟨reason, rfl⟩, unheard.submitted⟩⟩ (.inl ?_)
    rcases failed with none | one
    · simp [none]
    · simp [one]
  cases outcome with
  | ok sig =>
    obtain ⟨-, carriedAll, unfailed, rfl, -⟩ := ends
    have landed := witnessed.landed
    rw [carriedAll] at landed ledger
    refine iff_of_true ⟨fun _ returned => by contradiction, ?_,
      fun _ _ held decrypted short => absurd (planned.covers held decrypted) (by omega)⟩
      (.inl (by simp [unfailed]))
    rintro sig same
    obtain rfl := Outcome.ok.inj same
    exact planned.withdrawn landed ledger
  | panic message =>
    obtain ⟨_, _, _, -, -, unfailed, -⟩ := ends
    exact iff_of_true ⟨fun _ returned => by contradiction, fun _ returned => by contradiction,
      fun _ _ held decrypted short => absurd (planned.covers held decrypted) (by omega)⟩
      (.inl (by simp [unfailed]))
  | error reason =>
    obtain ⟨done, next, later, split, carriedDone, failed, -⟩ := ends
    rw [carriedDone] at ledger
    rcases run.landing planned split ledger with ⟨few, untouched⟩ | ⟨many, achieved⟩
    · refine iff_of_true ⟨fun _ _ => untouched.balances? authority mint,
        fun _ returned => by contradiction,
        fun _ _ held decrypted short => absurd (planned.covers held decrypted) (by omega)⟩
        (.inl ?_)
      simpa [failed] using few
    · obtain ⟨balances, before, -, after⟩ := achieved_withdraw_balances achieved
      have disturbed : ¬ ∀ place ∈ failures transcript, place ≤ 2 := by
        simp only [failed, List.mem_singleton, forall_eq]
        omega
      rw [WithdrawUndisturbed, or_iff_right disturbed]
      constructor
      · intro promise
        have same := promise.error reason rfl
        rw [after, before] at same
        obtain ⟨none, held⟩ := Balances.withdraw_eq_iff.mp (Option.some.inj same)
        refine ⟨none, fun other read => ?_⟩
        obtain rfl := Option.some.inj (before.symm.trans read)
        exact held
      · rintro ⟨none, held⟩
        refine ⟨fun _ _ => ?_, fun _ returned => by contradiction,
          fun _ _ held decrypted short => absurd (planned.covers held decrypted) (by omega)⟩
        rw [after, before, Balances.withdraw_eq_iff.mpr ⟨none, held balances before⟩]

variable (sdk cluster payer authority mint amount decimals) in
/-- A caller tries again on every error until a withdraw returns. -/
inductive WithdrawRetried : World → World → Prop
  /-- The withdraw returns. -/
  | returns {world world' : World} {transcript : List (Exchange Reply)} {sig : Signature}
      (ran : (chainSystem cluster).Runs world
        (withdrawFromConfidential sdk payer authority mint amount decimals) transcript world'
        (.done (.ok sig))) : WithdrawRetried world world'
  /-- The attempt reports an error, and the withdraw is tried again. -/
  | again {world middle world' : World} {transcript : List (Exchange Reply)}
      {reason : ClientError}
      (ran : (chainSystem cluster).Runs world
        (withdrawFromConfidential sdk payer authority mint amount decimals) transcript middle
        (.done (.error reason)))
      (undisturbed : WithdrawUndisturbed authority mint amount world transcript)
      (later : WithdrawRetried middle world') : WithdrawRetried world world'

/-- Undisturbed retries withdraw once. -/
theorem WithdrawRetried.moves
    (retried : WithdrawRetried sdk cluster payer authority mint amount decimals world world') :
    ∃ balances, world.ledger.balances? authority mint = some balances ∧
      (amount : ℤ) ≤ balances.available ∧
      world'.ledger.balances? authority mint = some (balances.withdraw amount) := by
  induction retried with
  | @returns world world' transcript sig ran =>
    have undisturbed : WithdrawUndisturbed authority mint amount world transcript := by
      obtain ⟨-, ⟨reason, same, -⟩ | ⟨plan, -, -, -, unfailed, -⟩⟩ :=
        withdrawFromConfidential_tries sdk cluster payer authority mint amount decimals _ _ _ _ ran
      · contradiction
      · exact .inl (by simp [unfailed])
    exact (((withdrawPromise_iff ran).mpr undisturbed).ok _ rfl).moved
  | again ran undisturbed _ ih =>
    rw [((withdrawPromise_iff ran).mpr undisturbed).error _ rfl] at ih
    exact ih

end Promise

/-- A run of a withdraw keeps its promise exactly when no request failed after the transaction that
withdraws was confirmed, or when withdrawing changes nothing; and a caller whose failed tries were
all such withdraws the amount once. -/
theorem withdrawFromConfidential_promise_iff (sdk : Sdk) (cluster : Cluster)
    (payer authority : Wallet) (mint : Pubkey) (amount decimals : Nat) (world world' : World)
    (transcript : List (Exchange Reply)) (outcome : Outcome ClientError Signature)
    (ran : (chainSystem cluster).Runs world
      (withdrawFromConfidential sdk payer authority mint amount decimals) transcript world'
      (.done outcome)) :
    (WithdrawPromise authority mint amount decimals world world' transcript outcome ↔
      WithdrawUndisturbed authority mint amount world transcript) ∧
    ∀ final, WithdrawRetried sdk cluster payer authority mint amount decimals world final →
      ∃ balances, world.ledger.balances? authority mint = some balances ∧
        (amount : ℤ) ≤ balances.available ∧
        final.ledger.balances? authority mint = some (balances.withdraw amount) :=
  ⟨withdrawPromise_iff ran, fun _ retried => retried.moves⟩

/-- The first closing transaction of a withdraw is not sent. -/
def closeFails : List Choice := List.replicate 15 .succeed ++ [.fail "timeout"]

/-- Undisturbed, a withdraw of two of five tokens keeps its promise. -/
theorem withdrawFromConfidential_promise_iff_served :
    WithdrawPromise ⟨1⟩ (.wallet ⟨3⟩) 2 0 (.funded ⟨1⟩ ⟨1⟩ ⟨2⟩ (.wallet ⟨3⟩) 5)
      ((chain Cluster.ideal).run (withdrawFromConfidential Sdk.ideal ⟨1⟩ ⟨1⟩ (.wallet ⟨3⟩) 2 0)
        (.funded ⟨1⟩ ⟨1⟩ ⟨2⟩ (.wallet ⟨3⟩) 5) []).2
      ((chain Cluster.ideal).transcript
        (withdrawFromConfidential Sdk.ideal ⟨1⟩ ⟨1⟩ (.wallet ⟨3⟩) 2 0)
        (.funded ⟨1⟩ ⟨1⟩ ⟨2⟩ (.wallet ⟨3⟩) 5) []) (.ok ⟨2⟩) := by
  have returned : ((chain Cluster.ideal).run
      (withdrawFromConfidential Sdk.ideal ⟨1⟩ ⟨1⟩ (.wallet ⟨3⟩) 2 0)
      (.funded ⟨1⟩ ⟨1⟩ ⟨2⟩ (.wallet ⟨3⟩) 5) []).1 = .ok ⟨2⟩ := by decide +kernel
  have ran := (chain Cluster.ideal).run_runs
    (withdrawFromConfidential Sdk.ideal ⟨1⟩ ⟨1⟩ (.wallet ⟨3⟩) 2 0)
    (.funded ⟨1⟩ ⟨1⟩ ⟨2⟩ (.wallet ⟨3⟩) 5) []
  rw [returned] at ran
  exact (withdrawFromConfidential_promise_iff Sdk.ideal Cluster.ideal ⟨1⟩ ⟨1⟩ (.wallet ⟨3⟩) 2 0
    _ _ _ _ ran).1.mpr (.inl (by decide +kernel))

/-- A withdraw whose first close is not sent reports an error with the tokens moved. -/
theorem withdrawFromConfidential_errs_after_moving :
    ∃ world transcript reason, (chainSystem Cluster.ideal).Runs
        (.funded ⟨1⟩ ⟨1⟩ ⟨2⟩ (.wallet ⟨3⟩) 5)
        (withdrawFromConfidential Sdk.ideal ⟨1⟩ ⟨1⟩ (.wallet ⟨3⟩) 2 0) transcript world
        (.done (.error reason)) ∧
      (World.funded ⟨1⟩ ⟨1⟩ ⟨2⟩ (.wallet ⟨3⟩) 5).ledger.balances? ⟨1⟩ (.wallet ⟨3⟩) =
        some ⟨0, 5, some 5⟩ ∧
      world.ledger.balances? ⟨1⟩ (.wallet ⟨3⟩) = some ⟨2, 3, some 3⟩ := by
  have returned : ((chain Cluster.ideal).run
      (withdrawFromConfidential Sdk.ideal ⟨1⟩ ⟨1⟩ (.wallet ⟨3⟩) 2 0)
      (.funded ⟨1⟩ ⟨1⟩ ⟨2⟩ (.wallet ⟨3⟩) 5) closeFails).1 = .error (.rpc (.other "timeout")) := by
    decide +kernel
  have ran := (chain Cluster.ideal).run_runs
    (withdrawFromConfidential Sdk.ideal ⟨1⟩ ⟨1⟩ (.wallet ⟨3⟩) 2 0)
    (.funded ⟨1⟩ ⟨1⟩ ⟨2⟩ (.wallet ⟨3⟩) 5) closeFails
  rw [returned] at ran
  exact ⟨_, _, _, ran, by decide +kernel, by decide +kernel⟩

end ConfidentialBalances
