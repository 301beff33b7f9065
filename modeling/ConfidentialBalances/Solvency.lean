import ConfidentialBalances.Concurrency
import ConfidentialBalances.Holdings

/-!
# No token comes from nowhere

Whatever jobs run side by side, the supply of a mint covers what any accounts
hold of it, and grows by no more than the jobs may mint. A supply below the
decryption bound therefore keeps every balance within it.
-/

namespace ConfidentialBalances

open Effect

/-- Of one mint, no more is minted than of all. -/
theorem Instruction.mintedOf_le (mint : Pubkey) (instruction : Instruction) :
    instruction.mintedOf mint ≤ instruction.minted := by
  cases instruction with
  | mintTo minted account authority signers amount =>
    simp only [Instruction.mintedOf, Instruction.minted]
    split
    · exact le_rfl
    · exact Nat.zero_le amount
  | _ => exact le_rfl

/-- Of one mint, no transaction mints more than of all. -/
theorem Transaction.mintedOf_le (mint : Pubkey) (transaction : Transaction) :
    transaction.mintedOf mint ≤ transaction.minted :=
  List.sum_le_sum fun instruction _ => instruction.mintedOf_le mint

/-! ## The demo's ledger -/

section Demo

/-- A list of accounts is true when each of them is. -/
theorem truthful_ofAccounts {accounts : List (Pubkey × Nat × AccountData)}
    (each : ∀ entry ∈ accounts, entry.2.2.Truthful) : (Ledger.ofAccounts accounts).Truthful := by
  intro key
  simp only [Ledger.ofAccounts]
  cases found : accounts.lookup key with
  | none => trivial
  | some entry =>
    obtain ⟨before, after, rfl, -⟩ := List.lookup_eq_some_iff.mp found
    exact each (key, entry) (by simp)

/-- Of a list of accounts, what is held is held at the listed addresses. -/
theorem covered_ofAccounts {accounts : List (Pubkey × Nat × AccountData)} {mint : Pubkey}
    (truthful : (Ledger.ofAccounts accounts).Truthful)
    (covers : (Ledger.ofAccounts accounts).holdings mint (accounts.map Prod.fst).toFinset ≤
      ((Ledger.ofAccounts accounts).data mint).supply) :
    (Ledger.ofAccounts accounts).Covered mint := by
  intro keys
  refine le_trans ?_ covers
  have unlisted (key : Pubkey) (outside : key ∉ (accounts.map Prod.fst).toFinset) :
      ((Ledger.ofAccounts accounts).data key).holding mint = 0 := by
    have missing : accounts.lookup key = none := by
      rw [List.lookup_eq_none_iff]
      intro entry member
      refine bne_iff_ne.mpr ?_
      rintro rfl
      exact outside (by simpa using ⟨entry.2.1, entry.2.2, member⟩)
    simp [Ledger.ofAccounts, missing, AccountData.holding]
  calc (Ledger.ofAccounts accounts).holdings mint keys
      ≤ (Ledger.ofAccounts accounts).holdings mint (keys ∪ (accounts.map Prod.fst).toFinset) :=
        Finset.sum_le_sum_of_subset_of_nonneg Finset.subset_union_left fun key _ _ =>
          (truthful key).holding_nonneg mint
    _ = (Ledger.ofAccounts accounts).holdings mint (accounts.map Prod.fst).toFinset :=
        (Finset.sum_subset Finset.subset_union_right fun key _ outside => unlisted key outside).symm

/-- What the demo's ledger holds is true. -/
theorem demo_truthful (publicAmount available : Nat) :
    (World.demo publicAmount available).ledger.Truthful := by
  refine truthful_ofAccounts fun entry listed => ?_
  simp only [List.mem_cons, List.not_mem_nil, or_false] at listed
  rcases listed with rfl | rfl | rfl | rfl | rfl
  · trivial
  · trivial
  · trivial
  · rintro extension ⟨⟩
    exact ⟨⟨rfl, rfl, le_rfl, le_rfl⟩, rfl, Int.natCast_nonneg available⟩
  · rintro extension ⟨⟩
    exact ⟨⟨rfl, rfl, le_rfl, le_rfl⟩, rfl, le_rfl⟩

/-- The demo's supply covers its accounts. -/
theorem demo_covered : (World.demo 0 5).ledger.Covered AppState.demo.mint :=
  covered_ofAccounts (demo_truthful 0 5) (by decide +kernel)

end Demo

/-! ## Any jobs side by side -/

section Together

variable {ι : Type} [DecidableEq ι] {sdk : Sdk} {cluster : Cluster} {s : AppState} {port : Nat}
variable {jobs : ι → Job} {world world' : World} {trace : List (ι × Exchange Reply)}
variable {pool : ι → Client Answer}

/-- A job mints no more than its budget. -/
theorem RunTogether.minted_le (run : RunTogether sdk cluster s port jobs world trace world' pool)
    (thread : ι) : minted (localTo thread trace) ≤ ((jobs thread).party s).budget := by
  refine run.keeps (fun trace _ _ =>
    minted (localTo thread trace) ≤ ((jobs thread).party s).budget) (Nat.zero_le _) ?_
  intro trace middle pool other request next reply after earlier kept here free may answered
  by_cases mine : other = thread
  · subst mine
    rw [localTo_own, minted_append]
    cases request with
    | sendAndConfirmTransaction transaction =>
      have once :
          minted [⟨.sendAndConfirmTransaction transaction, reply⟩] ≤ transaction.minted := by
        cases reply with
        | ok sig => exact (add_zero transaction.minted).le
        | error reason => exact Nat.zero_le _
      obtain ⟨-, -, budget⟩ := may
      omega
    | _ => exact kept
  · rwa [localTo_other mine]

/-- The token accounts that the landed transactions may change. -/
def touchedTokens (trace : List (ι × Exchange Reply)) : List Pubkey :=
  (carried (trace.map Prod.snd)).flatMap fun transaction =>
    transaction.instructions.flatMap Instruction.tokenWrites

/-- A run together shifts supplies and holdings by what it mints. -/
theorem RunTogether.shifts (run : RunTogether sdk cluster s port jobs world trace world' pool) :
    Ledger.Shifts
      (fun mint => ((carried (trace.map Prod.snd)).map (Transaction.mintedOf mint)).sum)
      (fun mint => ((carried (trace.map Prod.snd)).map (Transaction.mintedOf mint)).sum)
      (touchedTokens trace) world.ledger world'.ledger := by
  refine Ledger.execTransactions_shifts run.recorded.ledger ?_
  intro transaction landed instruction member key written
  exact List.mem_flatMap.mpr ⟨transaction, landed, List.mem_flatMap.mpr
    ⟨instruction, member, written⟩⟩

/-- Of one mint, a run together mints no more than the budgets of its jobs. -/
theorem RunTogether.mintedOf_le (run : RunTogether sdk cluster s port jobs world trace world' pool)
    (mint : Pubkey) {threads : Finset ι} (inside : ∀ entry ∈ trace, entry.1 ∈ threads) :
    ((carried (trace.map Prod.snd)).map (Transaction.mintedOf mint)).sum ≤
      ∑ thread ∈ threads, ((jobs thread).party s).budget := by
  calc ((carried (trace.map Prod.snd)).map (Transaction.mintedOf mint)).sum
      ≤ minted (trace.map Prod.snd) :=
        List.sum_le_sum fun transaction _ => transaction.mintedOf_le mint
    _ = ∑ thread ∈ threads, minted (localTo thread trace) :=
        sum_localTo minted rfl minted_append inside
    _ ≤ ∑ thread ∈ threads, ((jobs thread).party s).budget :=
        Finset.sum_le_sum fun thread _ => run.minted_le thread

/-- However any jobs interleave, when only true statements verify: the supply of a mint still covers
what any addresses hold of it, in the clear and encrypted, and no encrypted balance is negative; the
supply has grown by no more than the jobs may mint; and with what is held in all the accounts that
were touched it has grown alike. -/
theorem supply_covers (run : RunTogether sdk cluster s port jobs world trace world' pool)
    (sound : cluster.Sound) (truthful : world.ledger.Truthful) {mint : Pubkey}
    (covered : world.ledger.Covered mint) :
    world'.ledger.Truthful ∧ world'.ledger.Covered mint ∧
    (∀ threads : Finset ι, (∀ entry ∈ trace, entry.1 ∈ threads) →
      (world'.ledger.data mint).supply ≤
        (world.ledger.data mint).supply + ∑ thread ∈ threads, ((jobs thread).party s).budget) ∧
    ∀ keys : Finset Pubkey, (∀ key ∈ touchedTokens trace, key ∈ keys) →
      ((world'.ledger.data mint).supply : ℤ) - world'.ledger.holdings mint keys =
        (world.ledger.data mint).supply - world.ledger.holdings mint keys := by
  have after := truthful.transactions sound run.recorded.ledger
  have shifts := run.shifts
  refine ⟨after, covered.shifts shifts after, fun threads inside => ?_, fun keys inside => ?_⟩
  · rw [shifts.supply mint]
    exact Nat.add_le_add_left (run.mintedOf_le mint inside) _
  · rw [shifts.supply mint, shifts.holdings mint keys inside]
    push_cast
    ring

/-- A transfer in turns with an apply: the supply of five still covers what is held. -/
theorem supply_covers_demo :
    (demoTogether 120).2.1.ledger.holdings AppState.demo.mint
      {AppState.demo.tokenAccount ⟨1⟩, AppState.demo.tokenAccount ⟨2⟩} ≤
        ((demoTogether 120).2.1.ledger.data AppState.demo.mint).supply ∧
    ((demoTogether 120).2.1.ledger.data AppState.demo.mint).supply ≤ 5 := by
  obtain ⟨-, covers, grown, -⟩ := supply_covers (demoTogether_runs 120) Cluster.ideal_sound
    (demo_truthful 0 5) demo_covered
  exact ⟨covers _, grown Finset.univ fun _ _ => Finset.mem_univ _⟩

/-- However any jobs interleave, as long as no more tokens of a mint exist, or may be minted, than
`decrypt_u32` reaches: every account of the mint that is registered under its owner's derived key
can be decrypted in all its parts, and these are covered by the supply. -/
theorem small_supply_decrypts (run : RunTogether sdk cluster s port jobs world trace world' pool)
    (sound : cluster.Sound) (truthful : world.ledger.Truthful) {mint : Pubkey}
    (covered : world.ledger.Covered mint) {threads : Finset ι}
    (inside : ∀ entry ∈ trace, entry.1 ∈ threads)
    (small : (world.ledger.data mint).supply + ∑ thread ∈ threads, ((jobs thread).party s).budget <
      ElGamalCiphertext.decryptBound)
    {key : Pubkey} {token : TokenAccount} {extension : ConfidentialTransferAccount} {owner : Wallet}
    (data : world'.ledger.data key = .token token) (ofMint : token.mint = mint)
    (configured : token.confidential = some extension)
    (registered : extension.elgamalPubkey = owner.confidentialKeys.elgamal.pubkey) :
    ∃ lo hi available,
      extension.pendingBalanceLo.decryptU32 owner.confidentialKeys.elgamal = some lo ∧
      extension.pendingBalanceHi.decryptU32 owner.confidentialKeys.elgamal = some hi ∧
      extension.availableBalance.decryptU32 owner.confidentialKeys.elgamal = some available ∧
      token.amount + available + (lo + 2 ^ pendingBalanceLoBits * hi) ≤
        (world'.ledger.data mint).supply := by
  obtain ⟨after, covers, grown, -⟩ := supply_covers run sound truthful covered
  have balances := after.balances data configured
  have bound := (grown threads inside).trans_lt small
  obtain ⟨lo, isLo⟩ := Int.eq_ofNat_of_zero_le balances.lo
  obtain ⟨hi, isHi⟩ := Int.eq_ofNat_of_zero_le balances.hi
  obtain ⟨available, isAvailable⟩ := Int.eq_ofNat_of_zero_le balances.available
  have held : token.amount + available + (lo + 2 ^ pendingBalanceLoBits * hi) ≤
      (world'.ledger.data mint).supply := by
    have alone := covers {key}
    simp only [Ledger.holdings, Finset.sum_singleton, data, AccountData.holding, ofMint, if_true,
      TokenAccount.holding, configured, ConfidentialTransferAccount.pendingAmount, isLo, isHi,
      isAvailable] at alone
    norm_cast at alone
    omega
  have decrypts {ciphertext : ElGamalCiphertext} {amount : Nat}
      (ofAccount : ciphertext.key = extension.elgamalPubkey) (is : ciphertext.amount = amount)
      (fits : amount ≤ (world'.ledger.data mint).supply) :
      ciphertext.decryptU32 owner.confidentialKeys.elgamal = some amount := by
    rw [ElGamalCiphertext.decryptU32_eq (ofAccount.trans registered) is]
    exact if_pos (fits.trans_lt bound)
  refine ⟨lo, hi, available, decrypts balances.loKey isLo ?_, decrypts balances.hiKey isHi ?_,
    decrypts balances.availableKey isAvailable ?_, held⟩
  all_goals simp only [pendingBalanceLoBits] at held; omega

/-- What the receiver has after the two requests can be decrypted. -/
theorem small_supply_decrypts_demo : ∃ token extension lo hi available,
    (demoTogether 120).2.1.ledger.data (AppState.demo.tokenAccount ⟨2⟩) = .token token ∧
    token.confidential = some extension ∧
    extension.pendingBalanceLo.decryptU32 ⟨.standard ⟨2⟩⟩ = some lo ∧
    extension.pendingBalanceHi.decryptU32 ⟨.standard ⟨2⟩⟩ = some hi ∧
    extension.availableBalance.decryptU32 ⟨.standard ⟨2⟩⟩ = some available ∧
    token.amount + available + (lo + 2 ^ pendingBalanceLoBits * hi) ≤ 5 := by
  have held : (((demoTogether 120).2.1.ledger.data (AppState.demo.tokenAccount ⟨2⟩)).token?.bind
      fun token => token.confidential.map fun extension => (token.mint, extension.elgamalPubkey)) =
      some (AppState.demo.mint, (⟨2⟩ : Wallet).confidentialKeys.elgamal.pubkey) := by
    decide +kernel
  obtain ⟨token, data, fields⟩ := Option.bind_eq_some_iff.mp held
  obtain ⟨extension, configured, same⟩ := Option.map_eq_some_iff.mp fields
  obtain ⟨ofMint, registered⟩ := Prod.mk.inj same
  have supply : ((demoTogether 120).2.1.ledger.data AppState.demo.mint).supply = 5 := by
    decide +kernel
  obtain ⟨lo, hi, available, first, second, third, bound⟩ :=
    small_supply_decrypts (demoTogether_runs 120) Cluster.ideal_sound (demo_truthful 0 5)
      demo_covered (fun entry _ => Finset.mem_univ entry.1) (by decide)
      (AccountData.token?_eq_some.mp data) ofMint configured registered
  exact ⟨token, extension, lo, hi, available, AccountData.token?_eq_some.mp data, configured, first,
    second, third, supply ▸ bound⟩

end Together

end ConfidentialBalances
