import ConfidentialBalances.Landing
import ConfidentialBalances.Effect.Within
import ConfidentialBalances.UnreadSettings

/-!
# A mint's settings over a run

Once a mint is there, no transaction changes more of it than its supply, and an
account of the mint that is configured from then on takes its approval from the
mint's settings. Both hold of every program that runs against the chain.
-/

namespace ConfidentialBalances

open Effect

/-- The address holds this mint, at some supply. -/
def HoldsMint (data : Pubkey → AccountData) (mint : Pubkey) (state : Mint) : Prop :=
  ∃ supply, data mint = .mint { state with supply }

/-- A token account of the mint, where it is configured, is approved. -/
def TokenAccount.Approved (mint : Pubkey) (token : TokenAccount) : Prop :=
  token.mint = mint → ∀ extension, token.confidential = some extension → extension.approved = true

/-- The address holds no token account of the mint that awaits an approval. -/
def ApprovedAt (data : Pubkey → AccountData) (mint key : Pubkey) : Prop :=
  ∀ token, data key = .token token → token.Approved mint

namespace Ledger

variable {cluster : Cluster} {ledger ledger' : Ledger} {mint key : Pubkey} {state : Mint}

/-- An instruction changes no more of a mint than its supply. -/
theorem execInstruction_holdsMint {instruction : Instruction}
    (landed : ledger.execInstruction cluster instruction = some ledger')
    (held : HoldsMint ledger.data mint state) : HoldsMint ledger'.data mint state := by
  obtain ⟨supply, data⟩ := held
  by_cases written : mint ∈ instruction.mintWrites
  case neg => exact ⟨supply, execInstruction_mint? landed data written⟩
  cases instruction with
  | mintTo other account authority multisigSigners amount =>
    obtain rfl : mint = other := by simpa [Instruction.mintWrites] using written
    obtain ⟨state', token, was, held, -, -, -, rfl⟩ := mintTo_some landed
    obtain rfl := AccountData.mint.inj (was.symm.trans data)
    have apart : mint ≠ account := by
      rintro rfl
      rw [data] at held
      contradiction
    exact ⟨supply + amount, by simp [apart]⟩
  | initializeMint other mintAuthority decimals =>
    obtain rfl : mint = other := by simpa [Instruction.mintWrites] using written
    obtain ⟨settings, was, -⟩ := initializeMint_some landed
    rw [data] at was
    contradiction
  | _ => simp [Instruction.mintWrites] at written

/-- Writing an approved token account leaves none that awaits an approval. -/
theorem approvedAt_update {data : Pubkey → AccountData} {account : Pubkey} {token : TokenAccount}
    (before : ApprovedAt data mint key) (written : account = key → token.Approved mint) :
    ApprovedAt (Function.update data account (.token token)) mint key := by
  intro token' there
  by_cases here : key = account
  · subst here
    rw [Function.update_self] at there
    obtain rfl := AccountData.token.inj there
    exact written rfl
  · rw [Function.update_of_ne here] at there
    exact before token' there

/-- A token account that replaces one of the same mint, and is as approved, is approved where that
is. -/
theorem approved_replace {data : Pubkey → AccountData} {account : Pubkey}
    {token token' : TokenAccount} {extension extension' : ConfidentialTransferAccount}
    (held : data account = .token token) (configured : token.confidential = some extension)
    (sameMint : token'.mint = token.mint) (configured' : token'.confidential = some extension')
    (sameApproval : extension'.approved = extension.approved)
    (before : ApprovedAt data mint key) (here : account = key) : token'.Approved mint := by
  subst here
  rintro minted other same
  obtain rfl := Option.some.inj (configured'.symm.trans same)
  exact sameApproval.trans (before token held (sameMint.symm.trans minted) extension configured)

/-- Where the mint approves new accounts, an instruction leaves none that awaits an approval. -/
theorem execInstruction_approvedAt {instruction : Instruction} {settings : ConfidentialTransferMint}
    (landed : ledger.execInstruction cluster instruction = some ledger')
    (minted : HoldsMint ledger.data mint state) (extended : state.confidential = some settings)
    (approves : settings.autoApproveNewAccounts = true)
    (before : ApprovedAt ledger.data mint key) : ApprovedAt ledger'.data mint key := by
  by_cases written : key ∈ instruction.tokenWrites
  case neg =>
    intro token' there
    have same := execInstruction_token? landed written
    rw [there] at same
    exact before token' (AccountData.token?_eq_some.mp same.symm)
  cases instruction with
  | reallocate account payer owner multisigSigners =>
    obtain ⟨token, held, -, -, rfl⟩ := reallocate_some landed
    refine approvedAt_update before fun here => ?_
    subst here
    exact before token held
  | configureAccount account other zero maximum authority multisigSigners proofContext =>
    obtain ⟨token, state', settings', pubkey, closer, proof, -, found, extended', -, -, same, -, -,
      rfl⟩ := configureAccount_some landed
    refine approvedAt_update before fun _ ofMint extension configured => ?_
    obtain rfl := Option.some.inj configured
    -- The settings that decide the approval are this mint's.
    obtain rfl : other = mint := same.symm.trans ofMint
    obtain ⟨supply, data⟩ := minted
    obtain rfl := AccountData.mint.inj (found.symm.trans data)
    obtain rfl := Option.some.inj (extended'.symm.trans extended)
    exact approves
  | deposit account other amount decimals authority multisigSigners =>
    obtain ⟨token, state', confidential, credited, held, -, configured, deposited, -, -, -, -,
      rfl⟩ := deposit_some landed
    obtain ⟨-, entered⟩ := ConfidentialTransferAccount.deposit_some deposited
    obtain ⟨-, rfl⟩ := ConfidentialTransferAccount.credit_some entered
    exact approvedAt_update before (approved_replace held configured rfl rfl rfl before)
  | applyPendingBalance account counter decryptable authority multisigSigners =>
    obtain ⟨token, confidential, applied, held, configured, accepted, -, rfl⟩ :=
      applyPendingBalance_some landed
    obtain ⟨-, rfl⟩ := ConfidentialTransferAccount.applyPendingBalance_some accepted
    exact approvedAt_update before (approved_replace held configured rfl rfl rfl before)
  | withdraw account other amount decimals decryptable authority multisigSigners first second =>
    obtain ⟨token, state', confidential, equality, range, withdrawn, held, -, configured, -, -,
      accepted, -, -, -, rfl⟩ := withdraw_some landed
    obtain ⟨commitment, -, -, rfl⟩ := ConfidentialTransferAccount.withdraw_some accepted
    exact approvedAt_update before (approved_replace held configured rfl rfl rfl before)
  | innerTransfer source other destination decryptable lo hi authority signers first second third =>
    obtain ⟨equality, validity, range, middle, -, -, -, debit, credit⟩ := innerTransfer_some landed
    obtain ⟨token, confidential, debited, held, configured, accepted, -, -, rfl⟩ :=
      transferOut_some debit
    obtain ⟨commitment, transfer, -, -, -, result⟩ :=
      ConfidentialTransferAccount.transferOut_some accepted
    obtain ⟨token', confidential', credited, held', configured', received, -, rfl⟩ :=
      transferIn_some credit
    obtain ⟨_, -, entered⟩ := ConfidentialTransferAccount.transferIn_some received
    obtain ⟨-, rfl⟩ := ConfidentialTransferAccount.credit_some entered
    have between : ApprovedAt (Function.update ledger.data source
        (.token { token with confidential := some debited })) mint key :=
      approvedAt_update before
        (approved_replace held configured rfl rfl (by rw [result]) before)
    exact approvedAt_update between (approved_replace held' configured' rfl rfl rfl between)
  | createAssociatedTokenAccountIdempotent funder wallet other =>
    rcases createAssociatedTokenAccountIdempotent_some landed with
      ⟨token, -, -, -, rfl⟩ | ⟨-, -, -, rfl⟩
    · exact before
    · exact approvedAt_update before fun _ _ _ configured => by contradiction
  | mintTo other account authority multisigSigners amount =>
    obtain ⟨state', token, found, held, -, -, -, rfl⟩ := mintTo_some landed
    have apart : account ≠ other := by
      rintro rfl
      rw [held] at found
      contradiction
    have between : ApprovedAt (Function.update ledger.data other
        (.mint { state' with supply := state'.supply + amount })) mint key := by
      intro token' there
      by_cases here : key = other
      · subst here
        simp at there
      · rw [Function.update_of_ne here] at there
        exact before token' there
    refine approvedAt_update between fun here => ?_
    subst here
    exact before token held
  | _ => simp [Instruction.tokenWrites] at written

end Ledger

section Chain

variable {α : Type} {cluster : Cluster} {world world' : World} {mint : Pubkey} {state : Mint}

/-- What every transaction preserves of the data of a ledger, every program preserves. -/
theorem reaches_preserves_data (property : (Pubkey → AccountData) → Prop)
    (keeps : ∀ (before after : Ledger) instruction,
      before.execInstruction cluster instruction = some after → property before.data →
        property after.data)
    {program program' : Client α}
    (run : (chainSystem cluster).Reaches world program world' program')
    (here : property world.ledger.data) : property world'.ledger.data := by
  refine run.preserves (fun world => property world.ledger.data) ?_ here
  rintro before request reply after ⟨choice, answer⟩ holds
  have left : ((chain cluster).answer before request choice).2 = after :=
    congrArg Prod.snd answer
  have lands := chain_lands cluster before request choice
  rw [left] at lands
  rcases lands with ⟨same, -⟩ | ⟨transaction, -, landed⟩
  · rwa [same]
  · exact Ledger.execTransaction_preserves_data property
      (fun instruction _ first next ran => keeps first next instruction ran) landed holds

/-- A mint stays, with its settings, whatever a program does. -/
theorem reaches_holdsMint {program program' : Client α}
    (run : (chainSystem cluster).Reaches world program world' program')
    (held : HoldsMint world.ledger.data mint state) : HoldsMint world'.ledger.data mint state :=
  reaches_preserves_data (HoldsMint · mint state)
    (fun _ _ _ landed => Ledger.execInstruction_holdsMint landed) run held

/-- Where a mint approves new accounts, an account of it that was not configured before a program
ran awaits no approval after. -/
theorem reaches_approved {settings : ConfidentialTransferMint} {program program' : Client α}
    (run : (chainSystem cluster).Reaches world program world' program')
    (held : HoldsMint world.ledger.data mint state) (extended : state.confidential = some settings)
    (approves : settings.autoApproveNewAccounts = true) {key : Pubkey}
    (fresh : world.ledger.confidential? key = none) : ApprovedAt world'.ledger.data mint key := by
  have start : ApprovedAt world.ledger.data mint key := by
    rintro token data - extension configured
    simp [Ledger.confidential?, data, AccountData.token?, configured] at fresh
  refine (reaches_preserves_data (fun data => HoldsMint data mint state ∧
    ApprovedAt data mint key) ?_ run ⟨held, start⟩).2
  rintro before after instruction landed ⟨minted, approved⟩
  exact ⟨Ledger.execInstruction_holdsMint landed minted,
    Ledger.execInstruction_approvedAt landed minted extended approves approved⟩

end Chain

end ConfidentialBalances
