import ConfidentialBalances.Bank
import ConfidentialBalances.Holdings
import ConfidentialBalances.SharedAccounts

/-!
# Interleaved calls as entries in books

With nothing encrypted, what the jobs do is bookkeeping: every transaction that
moves tokens is one entry, carried out at once on what every account holds. Each
call is entered where its transaction lands, once, between its start and its
return, so any interleaving of calls amounts to some calls one after another.
-/

namespace ConfidentialBalances

open Effect System

/-! ## The books of a ledger -/

/-- What a token account holds, in the clear and encrypted. -/
def TokenAccount.balances (token : TokenAccount) : Bank.Holding where
  shown := token.amount
  pending := token.confidential.elim 0 (·.pendingAmount)
  available := token.confidential.elim 0 (·.availableBalance.amount)

/-- What every address holds. -/
def Ledger.books (ledger : Ledger) : Bank.Books Pubkey :=
  fun key => (ledger.data key).token?.elim .empty TokenAccount.balances

/-- The entry that a call amounts to. -/
def Operation.entry : Operation → Bank.Entry Pubkey
  | .configure _ authority mint => .opened (getAssociatedTokenAddress authority.pubkey mint)
  | .deposit _ authority mint amount _ =>
    .deposited (getAssociatedTokenAddress authority.pubkey mint) amount
  | .applyPending _ authority mint => .applied (getAssociatedTokenAddress authority.pubkey mint)
  | .withdraw _ authority mint amount _ =>
    .withdrawn (getAssociatedTokenAddress authority.pubkey mint) amount
  | .transfer _ sender mint recipient amount _ =>
    .transferred (getAssociatedTokenAddress sender.pubkey mint)
      (getAssociatedTokenAddress recipient mint) amount

section Books

variable {sdk : Sdk} {cluster : Cluster} {read before after : Ledger}

/-- Only token accounts are in the books. -/
theorem Ledger.books_congr {key : Pubkey}
    (same : (after.data key).token? = (before.data key).token?) :
    after.books key = before.books key := by
  simp only [books, same]

/-- A change of one token account rewrites its holding. -/
theorem Ledger.Changes.books {account : Pubkey} {extension extension' : ConfidentialTransferAccount}
    {amount amount' : Nat}
    (changes : before.Changes after account extension extension' amount amount') :
    before.books account =
        ⟨amount, extension.pendingAmount, extension.availableBalance.amount⟩ ∧
      after.books = Function.update before.books account
        ⟨amount', extension'.pendingAmount, extension'.availableBalance.amount⟩ := by
  obtain ⟨⟨token, held, paid, confidential, written⟩, others⟩ := changes
  constructor
  · simp [Ledger.books, held, TokenAccount.balances, confidential, paid]
  · funext key
    by_cases here : key = account
    · subst here
      simp [Ledger.books, written, TokenAccount.balances]
    · rw [Function.update_of_ne here, Ledger.books_congr (others key here)]

/-- A withdraw or a transfer takes no more than is there. -/
theorem Executes.covered (honest : Honest sdk cluster) {keys : ConfidentialKeys}
    {snapshot found left : ConfidentialTransferAccount} {amount : Nat}
    (executes : Executes sdk cluster keys snapshot (.withdraw amount) found left) :
    (amount : ℤ) ≤ found.availableBalance.amount := by
  obtain ⟨taken, -⟩ := executes.withdraw_effect
  rcases executes with - | ⟨-, equalityStated, rangeStated, accepted⟩
  obtain ⟨commitment, rfl, rfl, rfl⟩ := ConfidentialTransferAccount.withdraw_some accepted
  have remains := holds_remaining (honest.sound _ _ _ equalityStated)
    (honest.sound _ _ _ rangeStated)
  simp only at taken
  omega

/-- An incoming transfer is split into limbs, which carry its whole amount. -/
theorem transferIn_pending {account account' : ConfidentialTransferAccount}
    {transfer : TransferAmount} {amount : Nat} (carries : transfer.Carries amount)
    (receives : account.transferIn (.validity transfer) = some account') :
    account'.pendingAmount = account.pendingAmount + amount ∧
      account'.availableBalance = account.availableBalance := by
  obtain ⟨stated, same, credit⟩ := ConfidentialTransferAccount.transferIn_some receives
  obtain rfl := ProofContext.validity.inj same
  obtain ⟨pending, available⟩ := credit_pending credit
  obtain ⟨low, high⟩ := carries
  have limbs := Nat.mod_add_div amount (2 ^ pendingBalanceLoBits)
  have whole : ((amount % 2 ^ pendingBalanceLoBits : Nat) : ℤ) +
      2 ^ pendingBalanceLoBits * ((amount / 2 ^ pendingBalanceLoBits : Nat) : ℤ) = amount := by
    exact_mod_cast limbs
  refine ⟨?_, available⟩
  simp only [pending, TransferAmount.credit, low, high, whole]

/-- What a call achieves is its entry in the books, whatever it was computed from. -/
theorem Operation.AchievedFrom.entered (honest : Honest sdk cluster) {call : Operation}
    (achieved : call.AchievedFrom sdk cluster read before after) :
    Bank.enter before.books call.entry = some after.books := by
  cases call with
  | configure payer authority mint =>
    obtain ⟨token, approved, held, unconfigured, written, others⟩ := achieved
    have same : after.books = before.books := by
      funext key
      by_cases here : key = getAssociatedTokenAddress authority.pubkey mint
      · subst here
        simp only [Ledger.books, held, written, Option.elim_some, TokenAccount.balances,
          unconfigured]
        rfl
      · exact Ledger.books_congr (others key here)
    rw [same]
    rfl
  | deposit payer authority mint amount decimals =>
    obtain ⟨extension, extension', amount', deposited, paid, changes⟩ := achieved
    obtain ⟨pending, available⟩ := deposit_pending deposited
    obtain ⟨held, written⟩ := changes.books
    have covered : (amount : ℤ) ≤ (before.books (getAssociatedTokenAddress authority.pubkey
        mint)).shown := by
      rw [held]
      exact Int.ofNat_le.mpr paid
    simp only [Operation.entry, Bank.enter, if_pos covered]
    simp only [held, written, Bank.Holding.deposit, pending, available, Nat.cast_sub paid]
  | applyPending payer authority mint =>
    obtain ⟨snapshot, extension, extension', amount', -, executes, changes⟩ := achieved
    obtain ⟨-, moved, none, -⟩ := executes.apply_effect
    obtain ⟨held, written⟩ := changes.books
    simp only [Operation.entry, Bank.enter, held, written, Bank.Holding.apply, moved, none]
  | withdraw payer authority mint amount decimals =>
    obtain ⟨snapshot, extension, extension', amount', -, executes, changes⟩ := achieved
    obtain ⟨taken, pending, -, -⟩ := executes.withdraw_effect
    obtain ⟨held, written⟩ := changes.books
    have covered : (amount : ℤ) ≤ (before.books (getAssociatedTokenAddress authority.pubkey
        mint)).available := by
      rw [held]
      exact executes.covered honest
    simp only [Operation.entry, Bank.enter, if_pos covered]
    simp only [held, written, Bank.Holding.withdraw, taken, pending, Nat.cast_add]
  | transfer payer sender mint recipient amount progress =>
    obtain ⟨snapshot, middle, extension, extension', amount', recipientPubkey, auditor, -,
      executes, out, transfer, received, received', received'', carries, bound, receives,
      into⟩ := achieved
    obtain ⟨unchanged, -, taken, pending, -, left, -, rest⟩ := executes.transfer_effect honest
    obtain ⟨held, debited⟩ := out.books
    obtain ⟨found, credited⟩ := into.books
    have covered : (amount : ℤ) ≤ (before.books (getAssociatedTokenAddress sender.pubkey
        mint)).available := by
      rw [held, unchanged]
      simp only
      omega
    obtain ⟨gained, kept⟩ := transferIn_pending carries receives
    have debits : middle.books = Function.update before.books
        (getAssociatedTokenAddress sender.pubkey mint)
        ((before.books (getAssociatedTokenAddress sender.pubkey mint)).debit amount) := by
      simp only [debited, held, Bank.Holding.debit, taken, pending]
    simp only [Operation.entry, Bank.enter, if_pos covered]
    rw [← debits]
    simp only [found, credited, Bank.Holding.credit, gained, kept]

/-- Opening an account moves nothing, and minting makes what it mints. -/
theorem OpensAccount.entered {transaction : Transaction} (opens : OpensAccount transaction)
    (landed : before.execTransaction cluster transaction = some after) :
    (∃ account, Bank.enter before.books (.opened account) = some after.books) ∨
      ∃ account, Bank.enter before.books (.minted account transaction.minted) =
        some after.books := by
  cases opens with
  | @createAccount funder wallet mint payer signers =>
    refine .inl ⟨getAssociatedTokenAddress wallet mint, congrArg some ?_⟩
    obtain ⟨charged, same, executed⟩ := Ledger.execTransaction_single landed
    have paid : charged.books = before.books := funext fun key => Ledger.books_congr (by rw [same])
    rw [← paid]
    rcases Ledger.createAssociatedTokenAccountIdempotent_some executed with
      ⟨token, -, -, -, rfl⟩ | ⟨none, -, -, rfl⟩
    · rfl
    · funext key
      by_cases here : key = getAssociatedTokenAddress wallet mint
      · subst here
        simp [Ledger.books, none, AccountData.token?, TokenAccount.balances, Bank.Holding.empty]
      · exact (Ledger.books_congr (by simp [here])).symm
  | @mintTo mint account authority payer multisig signers amount =>
    have makes : Transaction.minted ⟨[.mintTo mint account authority multisig amount], payer,
        signers⟩ = amount := Nat.add_zero amount
    rw [makes]
    refine .inr ⟨account, congrArg some ?_⟩
    obtain ⟨charged, same, executed⟩ := Ledger.execTransaction_single landed
    obtain ⟨state, token, mintData, tokenData, -, -, -, rfl⟩ := Ledger.mintTo_some executed
    rw [same] at mintData tokenData
    funext key
    by_cases credited : key = account
    · subst credited
      simp [Ledger.books, tokenData, AccountData.token?, TokenAccount.balances, Bank.Holding.mint]
    · rw [Function.update_of_ne credited]
      refine (Ledger.books_congr ?_).symm
      by_cases supplied : key = mint
      · subst supplied
        simp [mintData, Function.update_of_ne credited, AccountData.token?]
      · simp [credited, supplied, same]

/-- The entries that a job in this role may make. -/
inductive Role.Enters (role : Role) : Bank.Entry Pubkey → Prop
  /-- A call's. -/
  | call {call : Operation} (may : role.may call) : Role.Enters role call.entry
  /-- A job that prepares accounts opens one. -/
  | opened (several : role.calls = .several) (account : Pubkey) :
      Role.Enters role (.opened account)
  /-- A job that prepares accounts mints. -/
  | minted (several : role.calls = .several) (account : Pubkey) (amount : Nat) :
      Role.Enters role (.minted account amount)

/-- A job that makes one call enters none but that. -/
theorem Role.Enters.of_one {role : Role} {entry : Bank.Entry Pubkey} (enters : role.Enters entry)
    (single : role.calls = .one) : ∃ call, role.may call ∧ entry = call.entry := by
  cases enters with
  | call may => exact ⟨_, may, rfl⟩
  | opened several => exact absurd (several.symm.trans single) (by simp)
  | minted several => exact absurd (several.symm.trans single) (by simp)

/-- A call makes no money. -/
@[simp] theorem Operation.entry_made (call : Operation) : call.entry.made = 0 := by
  cases call <;> rfl

/-- What a transaction did that moved tokens, the books say in one entry, which makes no more money
than the transaction mints. -/
theorem Performed.entered (honest : Honest sdk cluster) {role : Role}
    {past : List (Exchange Reply)} {seen : Ledger → Prop} {transaction : Transaction}
    (did : Performed sdk cluster role past seen before after transaction)
    (landed : before.execTransaction cluster transaction = some after)
    (moves : transaction.moves = true) :
    ∃ entry, role.Enters entry ∧ Bank.enter before.books entry = some after.books ∧
      entry.made ≤ transaction.minted := by
  cases did with
  | quiet still => exact absurd (still.symm.trans moves) Bool.false_ne_true
  | opens several opens =>
    rcases opens.entered landed with ⟨account, entered⟩ | ⟨account, entered⟩
    · exact ⟨.opened account, .opened several account, entered, Nat.zero_le _⟩
    · exact ⟨.minted account _, .minted several account _, entered, le_rfl⟩
  | carries call may saw knew achieved =>
    exact ⟨call.entry, .call may, achieved.entered honest, by simp⟩

end Books

/-! ## Linearization -/

section Postings

variable {ι : Type} {trace : List (ι × Exchange Reply)}

/-- The jobs that moved tokens, once for each transaction, in the order of these. -/
def movers (trace : List (ι × Exchange Reply)) : List ι :=
  trace.flatMap fun entry => (moving (carried [entry.2])).map fun _ => entry.1

/-- One more exchange. -/
theorem movers_snoc (actor : ι) (exchange : Exchange Reply) :
    movers (trace ++ [(actor, exchange)]) =
      movers trace ++ (moving (carried [exchange])).map fun _ => actor := by
  simp [movers]

variable [DecidableEq ι]

/-- The entries of one job. -/
def postings (thread : ι) (posted : List (ι × Bank.Entry Pubkey)) : List (Bank.Entry Pubkey) :=
  (posted.filter fun posting => posting.1 = thread).map Prod.snd

/-- An entry of a job is in the books under its name. -/
theorem mem_postings {thread : ι} {posted : List (ι × Bank.Entry Pubkey)}
    {entry : Bank.Entry Pubkey} : entry ∈ postings thread posted ↔ (thread, entry) ∈ posted := by
  constructor
  · intro member
    obtain ⟨posting, held, rfl⟩ := List.mem_map.mp member
    obtain ⟨inside, mine⟩ := List.mem_filter.mp held
    rwa [← of_decide_eq_true mine]
  · intro member
    exact List.mem_map.mpr ⟨(thread, entry), List.mem_filter.mpr ⟨member, by simp⟩, rfl⟩

/-- A job moves tokens as often as its transactions do. -/
theorem count_movers (thread : ι) (trace : List (ι × Exchange Reply)) :
    (movers trace).count thread = (moving (carried (localTo thread trace))).length := by
  induction trace using List.reverseRecOn with
  | nil => rfl
  | append_singleton earlier last ih =>
    obtain ⟨actor, exchange⟩ := last
    rw [movers_snoc, List.count_append, ih, List.map_const', List.count_replicate]
    by_cases mine : actor = thread
    · subst mine
      rw [localTo_own, carried_append, moving_append, List.length_append]
      simp
    · rw [localTo_other mine]
      simp [mine]

/-- A job has as many entries as its name stands in the books. -/
theorem length_postings (thread : ι) (posted : List (ι × Bank.Entry Pubkey)) :
    (postings thread posted).length = (posted.map Prod.fst).count thread := by
  rw [postings, List.length_map, List.count, List.countP_map, List.countP_eq_length_filter]
  rfl

end Postings

section Together

variable {ι : Type} [DecidableEq ι] {sdk : Sdk} {cluster : Cluster} {s : AppState} {port : Nat}
variable {jobs : ι → Job} {world world' : World} {trace : List (ι × Exchange Reply)}
variable {pool : ι → Client Answer}

/-- Step by step, whatever moves tokens in a run together is entered in the books, and these make no
more money than the run mints. -/
theorem RunTogether.posts (honest : Honest sdk cluster)
    (run : RunTogether sdk cluster s port jobs world trace world' pool) :
    ∃ posted : List (ι × Bank.Entry Pubkey), posted.map Prod.fst = movers trace ∧
      Bank.enterAll world.ledger.books (posted.map Prod.snd) = some world'.ledger.books ∧
      (∀ posting ∈ posted, ((jobs posting.1).role s).Enters posting.2) ∧
      (posted.map fun posting => posting.2.made).sum ≤ minted (trace.map Prod.snd) := by
  induction run with
  | here => exact ⟨[], rfl, rfl, by simp, le_rfl⟩
  | @step trace middle pool actor request next reply after earlier here free answered ih =>
    obtain ⟨posted, names, entered, fits, made⟩ := ih
    rw [List.map_append, minted_append]
    rcases chain_carries answered with ⟨none, same⟩ | ⟨transaction, rfl, one, landed⟩
    · have movers_same : movers (trace ++ [(actor, ⟨request, reply⟩)]) = movers trace := by
        rw [movers_snoc, none, moving_nil, List.map_nil, List.append_nil]
      exact ⟨posted, names.trans movers_same.symm, by rwa [same], fits, Nat.le_add_right_of_le made⟩
    by_cases moves : transaction.moves = true
    · obtain ⟨did, -⟩ := RunTogether.lands honest earlier here landed
      obtain ⟨entry, role, enters, makes⟩ := did.entered honest landed moves
      refine ⟨posted ++ [(actor, entry)], ?_, ?_, ?_, ?_⟩
      · rw [movers_snoc, one, List.map_append, names]
        simp [moving, moves]
      · rw [Bank.enterAll] at entered
        simp [Bank.enterAll, List.foldlM_append, entered, enters]
      · intro posting member
        rcases List.mem_append.mp member with before | now
        · exact fits posting before
        · obtain rfl := List.mem_singleton.mp now
          exact role
      · simpa [minted, one] using add_le_add made makes
    · have still := Bool.eq_false_iff.mpr moves
      have books : after.ledger.books = middle.ledger.books :=
        funext fun key => Ledger.books_congr (still_untouched still landed key)
      refine ⟨posted, ?_, by rwa [books], fits, Nat.le_add_right_of_le made⟩
      rw [movers_snoc, one, names]
      simp [moving, still]

/-- However any jobs interleave, the landed transactions that moved tokens are entries in the books
of a bank, made at once and in the order of the chain by whoever landed them, and no account is
overdrawn that was not at the start. A job that makes one call makes no entry but that call's, once
at most, once if it returned a value, and never if it failed and cannot fail after moving tokens. -/
theorem interleavings_linearize (honest : Honest sdk cluster)
    (run : RunTogether sdk cluster s port jobs world trace world' pool) :
    ∃ posted : List (ι × Bank.Entry Pubkey), posted.map Prod.fst = movers trace ∧
      Bank.enterAll world.ledger.books (posted.map Prod.snd) = some world'.ledger.books ∧
      (∀ posting ∈ posted, ((jobs posting.1).role s).Enters posting.2) ∧
      ((∀ account, (world.ledger.books account).Solid) →
        ∀ account, (world'.ledger.books account).Solid) ∧
      ∀ thread, ((jobs thread).role s).calls = .one →
        (postings thread posted).length ≤ 1 ∧
        (∀ answer, pool thread = .done (.ok answer) →
          ∃ call, ((jobs thread).role s).may call ∧ postings thread posted = [call.entry]) ∧
        ((jobs thread).mayFailAfterMoving = false → ∀ outcome, pool thread = .done outcome →
          outcome.isOk = false → postings thread posted = []) := by
  obtain ⟨posted, names, entered, fits, -⟩ := RunTogether.posts honest run
  have counts (thread : ι) : (postings thread posted).length =
      (moving (carried (localTo thread trace))).length := by
    rw [length_postings, names, count_movers]
  refine ⟨posted, names, entered, fits, Bank.enterAll_solid entered, fun thread single =>
    ⟨?_, ?_, ?_⟩⟩
  · rw [counts]
    exact (run.moves_once honest single).1
  · intro answer finished
    have one := (counts thread).trans (run.moved single finished)
    obtain ⟨entry, only⟩ := List.length_eq_one_iff.mp one
    have member : entry ∈ postings thread posted := by
      rw [only]
      exact List.mem_singleton_self _
    obtain ⟨call, may, rfl⟩ := (fits _ (mem_postings.mp member)).of_one single
    exact ⟨call, may, only⟩
  · intro early outcome finished failed
    have none := counts thread
    rw [run.unmoved early finished failed] at none
    exact List.length_eq_zero_iff.mp none

/-- A transfer in turns with an apply: the transfer is entered once, with the amount asked for. -/
theorem interleavings_linearize_demo : ∃ posted : List (Bool × Bank.Entry Pubkey),
    Bank.enterAll (World.demo 0 5).ledger.books (posted.map Prod.snd) =
        some (demoTogether 120).2.1.ledger.books ∧
      postings true posted = [.transferred (AppState.demo.tokenAccount AppState.demo.keys.sender)
        (AppState.demo.tokenAccount AppState.demo.keys.receiver) 2] := by
  obtain ⟨posted, -, entered, -, -, each⟩ :=
    interleavings_linearize honest_ideal (demoTogether_runs 120)
  have ended : (answered? ((demoTogether 120).2.2 true)).isSome = true := by decide +kernel
  obtain ⟨answer, found⟩ := Option.isSome_iff_exists.mp ended
  obtain ⟨-, returned, -⟩ := each true rfl
  obtain ⟨call, may, only⟩ := returned answer (answered?_eq_some found)
  obtain rfl : call = .transfer AppState.demo.keys.payer AppState.demo.keys.sender
    AppState.demo.mint AppState.demo.keys.receiver.pubkey
      (AppState.demo.requestedBase none) .broadcast := may
  have amount : AppState.demo.requestedBase none = 2 := by decide +kernel
  rw [amount] at only
  exact ⟨posted, entered, only⟩

/-! ## Nobody else takes -/

/-- A call is no entry to an account's gain or loss, unless it transfers to it or from it. -/
theorem Operation.entry_gain {call : Operation} {owner : Wallet} {mint : Pubkey}
    (spares : ∀ payer recipient amount progress,
      call ≠ .transfer payer owner mint recipient amount progress) :
    0 ≤ call.entry.gain (getAssociatedTokenAddress owner.pubkey mint) ∧
      ((∀ payer sender amount progress,
          call ≠ .transfer payer sender mint owner.pubkey amount progress) →
        call.entry.gain (getAssociatedTokenAddress owner.pubkey mint) = 0) := by
  cases call with
  | configure => exact ⟨le_rfl, fun _ => rfl⟩
  | deposit => exact ⟨le_rfl, fun _ => rfl⟩
  | applyPending => exact ⟨le_rfl, fun _ => rfl⟩
  | withdraw => exact ⟨le_rfl, fun _ => rfl⟩
  | transfer payer sender mint' recipient amount progress =>
    have elsewhere : getAssociatedTokenAddress owner.pubkey mint ≠
        getAssociatedTokenAddress sender.pubkey mint' := by
      intro same
      obtain ⟨sameOwner, rfl⟩ := getAssociatedTokenAddress_inj.mp same
      obtain rfl := (Wallet.pubkey_inj _ _).mp sameOwner
      exact spares payer recipient amount progress rfl
    simp only [entry, Bank.Entry.gain, if_neg elsewhere, sub_zero]
    constructor
    · split
      · exact Int.natCast_nonneg _
      · exact le_rfl
    · intro aside
      refine if_neg fun same => ?_
      obtain ⟨rfl, rfl⟩ := getAssociatedTokenAddress_inj.mp same
      exact aside payer sender amount progress rfl

/-- Where a job makes no transfer from an account, its entries take nothing from its total. -/
theorem Role.Enters.gain_nonneg {role : Role} {entry : Bank.Entry Pubkey} {owner : Wallet}
    {mint : Pubkey} (enters : role.Enters entry) (spares : ∀ payer recipient amount progress,
      ¬role.may (.transfer payer owner mint recipient amount progress)) :
    0 ≤ entry.gain (getAssociatedTokenAddress owner.pubkey mint) := by
  cases enters with
  | @call call may =>
    have aside : ∀ payer recipient amount progress,
        call ≠ .transfer payer owner mint recipient amount progress := by
      rintro payer recipient amount progress rfl
      exact spares payer recipient amount progress may
    exact (Operation.entry_gain aside).1
  | opened => exact le_rfl
  | minted =>
    simp only [Bank.Entry.gain]
    split
    · exact Int.natCast_nonneg _
    · exact le_rfl

/-- Where a job makes no transfer from an account or to it, an entry of the job that makes no money
leaves the account's total. -/
theorem Role.Enters.gain_eq_zero {role : Role} {entry : Bank.Entry Pubkey} {owner : Wallet}
    {mint : Pubkey} (enters : role.Enters entry) (spares : ∀ payer recipient amount progress,
      ¬role.may (.transfer payer owner mint recipient amount progress))
    (aside : ∀ payer sender amount progress,
      ¬role.may (.transfer payer sender mint owner.pubkey amount progress))
    (none : entry.made = 0) : entry.gain (getAssociatedTokenAddress owner.pubkey mint) = 0 := by
  cases enters with
  | @call call may =>
    have takesNone : ∀ payer recipient amount progress,
        call ≠ .transfer payer owner mint recipient amount progress := by
      rintro payer recipient amount progress rfl
      exact spares payer recipient amount progress may
    have bringsNone : ∀ payer sender amount progress,
        call ≠ .transfer payer sender mint owner.pubkey amount progress := by
      rintro payer sender amount progress rfl
      exact aside payer sender amount progress may
    exact (Operation.entry_gain takesNone).2 bringsNone
  | opened => rfl
  | minted several account amount =>
    obtain rfl : amount = 0 := none
    simp [Bank.Entry.gain]

/-- However any jobs interleave: an owner's account from which no job transfers loses nothing of its
total, and where no job transfers to it either and nothing is minted, gains nothing. -/
theorem only_transfers_take (honest : Honest sdk cluster)
    (run : RunTogether sdk cluster s port jobs world trace world' pool) (owner : Wallet)
    (mint : Pubkey) (spares : ∀ thread payer recipient amount progress,
      ¬((jobs thread).role s).may (.transfer payer owner mint recipient amount progress)) :
    (world.ledger.books (getAssociatedTokenAddress owner.pubkey mint)).total ≤
        (world'.ledger.books (getAssociatedTokenAddress owner.pubkey mint)).total ∧
      (minted (trace.map Prod.snd) = 0 →
        (∀ thread payer sender amount progress,
          ¬((jobs thread).role s).may (.transfer payer sender mint owner.pubkey amount progress)) →
        (world'.ledger.books (getAssociatedTokenAddress owner.pubkey mint)).total =
          (world.ledger.books (getAssociatedTokenAddress owner.pubkey mint)).total) := by
  obtain ⟨posted, -, entered, fits, made⟩ := RunTogether.posts honest run
  have totals := Bank.enterAll_total entered (getAssociatedTokenAddress owner.pubkey mint)
  constructor
  · rw [totals, le_add_iff_nonneg_right]
    refine List.sum_nonneg fun gain member => ?_
    obtain ⟨entry, inside, rfl⟩ := List.mem_map.mp member
    obtain ⟨posting, held, rfl⟩ := List.mem_map.mp inside
    exact (fits posting held).gain_nonneg (spares posting.1)
  · intro unminted aside
    rw [unminted, Nat.le_zero, List.sum_eq_zero_iff] at made
    rw [totals, add_eq_left]
    refine List.sum_eq_zero fun gain member => ?_
    obtain ⟨entry, inside, rfl⟩ := List.mem_map.mp member
    obtain ⟨posting, held, rfl⟩ := List.mem_map.mp inside
    exact (fits posting held).gain_eq_zero (spares posting.1) (aside posting.1)
      (made _ (List.mem_map_of_mem held))

/-- A transfer in turns with an apply: the receiver loses nothing. -/
theorem only_transfers_take_demo :
    ((World.demo 0 5).ledger.books
        (getAssociatedTokenAddress AppState.demo.keys.receiver.pubkey AppState.demo.mint)).total ≤
      ((demoTogether 120).2.1.ledger.books (getAssociatedTokenAddress
        AppState.demo.keys.receiver.pubkey AppState.demo.mint)).total := by
  refine (only_transfers_take honest_ideal (demoTogether_runs 120) AppState.demo.keys.receiver
    AppState.demo.mint ?_).1
  intro thread payer recipient amount progress may
  cases thread with
  | true => exact absurd may (by simp [demoJobs, Job.role, AppState.demo])
  | false =>
    obtain ⟨owner, same, -⟩ := ApplyCall.named _ may
    contradiction

end Together

end ConfidentialBalances
