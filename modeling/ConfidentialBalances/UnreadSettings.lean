import ConfidentialBalances.Effects

/-!
# Settings that nothing reads

A mint's confidential-transfer settings name who may change them. No instruction
here changes them, so none reads that name: what a transaction does to a ledger
is settled by the ledger without it. Who may mint is read by minting alone.
-/

namespace ConfidentialBalances

/-- The instruction mints. -/
def Instruction.mints : Instruction → Bool
  | .mintTo .. => true
  | _ => false

/-- The transaction mints. -/
def Transaction.mints (transaction : Transaction) : Bool :=
  transaction.instructions.any Instruction.mints

/-- The settings without their authority. -/
def ConfidentialTransferMint.withoutAuthority (settings : ConfidentialTransferMint) :
    ConfidentialTransferMint :=
  { settings with authority := none }

/-- The mint without its settings' authority, and without its own unless something may be minted. -/
def Mint.withoutAuthority (minting : Bool) (state : Mint) : Mint :=
  { state with
    mintAuthority := if minting then state.mintAuthority else none
    confidential := state.confidential.map ConfidentialTransferMint.withoutAuthority }

/-- Minting commutes with leaving the authority out. -/
theorem Mint.withoutAuthority_minted (minting : Bool) (state : Mint) (supply : Nat) :
    ({ state.withoutAuthority minting with supply := supply } : Mint).withoutAuthority minting =
      ({ state with supply := supply } : Mint).withoutAuthority minting := by
  unfold withoutAuthority
  cases minting <;> cases state.confidential <;> rfl

namespace AccountData

/-- The data without the authorities of a mint. -/
def withoutAuthority (minting : Bool) : AccountData → AccountData
  | .extendedMint settings => .extendedMint settings.withoutAuthority
  | .mint state => .mint (state.withoutAuthority minting)
  | data => data

variable {minting : Bool} {data : AccountData}

@[simp] theorem empty_withoutAuthority : empty.withoutAuthority minting = empty := rfl

@[simp] theorem uninitialized_withoutAuthority (space : Nat) (owner : ProgramId) :
    (uninitialized space owner).withoutAuthority minting = uninitialized space owner := rfl

@[simp] theorem proofContext_withoutAuthority (authority : Pubkey) (proof : List UInt8)
    (context : ProofContext) :
    (proofContext authority proof context).withoutAuthority minting =
      proofContext authority proof context := rfl

@[simp] theorem record_withoutAuthority (authority : Pubkey) (bytes : List UInt8) :
    (record authority bytes).withoutAuthority minting = record authority bytes := rfl

@[simp] theorem extendedMint_withoutAuthority (settings : ConfidentialTransferMint) :
    (extendedMint settings).withoutAuthority minting = extendedMint settings.withoutAuthority := rfl

@[simp] theorem mint_withoutAuthority (state : Mint) :
    (mint state).withoutAuthority minting = mint (state.withoutAuthority minting) := rfl

@[simp] theorem token_withoutAuthority (account : TokenAccount) :
    (token account).withoutAuthority minting = token account := rfl

@[simp] theorem token?_withoutAuthority : (data.withoutAuthority minting).token? = data.token? := by
  cases data <;> rfl

@[simp] theorem context?_withoutAuthority :
    (data.withoutAuthority minting).context? = data.context? := by
  cases data <;> rfl

@[simp] theorem mint?_withoutAuthority :
    (data.withoutAuthority minting).mint? = data.mint?.map (Mint.withoutAuthority minting) := by
  cases data <;> rfl

@[simp] theorem withoutAuthority_eq_empty :
    data.withoutAuthority minting = .empty ↔ data = .empty := by
  cases data <;> simp [withoutAuthority]

@[simp] theorem withoutAuthority_withoutAuthority :
    (data.withoutAuthority minting).withoutAuthority minting = data.withoutAuthority minting := by
  cases data with
  | mint state =>
    exact congrArg mint (state.withoutAuthority_minted minting state.supply)
  | _ => rfl

end AccountData

namespace Ledger

/-- The ledger without the authorities of its mints. -/
def withoutAuthorities (minting : Bool) (ledger : Ledger) : Ledger :=
  { ledger with data := fun key => (ledger.data key).withoutAuthority minting }

variable {minting : Bool} {cluster : Cluster} {ledger ledger' : Ledger}

@[simp] theorem withoutAuthorities_lamports :
    (ledger.withoutAuthorities minting).lamports = ledger.lamports := rfl

@[simp] theorem withoutAuthorities_data (key : Pubkey) :
    (ledger.withoutAuthorities minting).data key = (ledger.data key).withoutAuthority minting := rfl

@[simp] theorem withoutAuthorities_withoutAuthorities :
    (ledger.withoutAuthorities minting).withoutAuthorities minting =
      ledger.withoutAuthorities minting := by
  simp [withoutAuthorities]

@[simp] theorem moveLamports_withoutAuthorities (source destination : Pubkey) (amount : Nat) :
    (ledger.moveLamports source destination amount).withoutAuthorities minting =
      (ledger.withoutAuthorities minting).moveLamports source destination amount := rfl

@[simp] theorem chargeFee_withoutAuthorities (payer : Pubkey) (fee : Nat) :
    (ledger.chargeFee payer fee).withoutAuthorities minting =
      (ledger.withoutAuthorities minting).chargeFee payer fee := rfl

@[simp] theorem setData_withoutAuthorities (key : Pubkey) (data : AccountData) :
    (ledger.setData key data).withoutAuthorities minting =
      (ledger.withoutAuthorities minting).setData key (data.withoutAuthority minting) := by
  unfold setData withoutAuthorities
  congr 1
  funext other
  by_cases same : other = key
  · subst same
    simp
  · simp [same]

@[simp] theorem awaitsContext_withoutAuthorities (key : Pubkey) :
    (ledger.withoutAuthorities minting).awaitsContext key = ledger.awaitsContext key := by
  unfold awaitsContext
  rw [withoutAuthorities_data]
  cases ledger.data key <;> rfl

@[simp] theorem recordBytes_withoutAuthorities (record : Pubkey) (offset : Nat) :
    (ledger.withoutAuthorities minting).recordBytes record offset =
      ledger.recordBytes record offset := by
  unfold recordBytes
  rw [withoutAuthorities_data]
  cases ledger.data record <;> rfl

/-- Verifying a proof reads no authority. -/
theorem verifyProof_withoutAuthorities (proofType : ProofType) (info : ContextStateInfo)
    (proof : List UInt8) :
    ((ledger.withoutAuthorities minting).verifyProof cluster proofType info proof).map
        (withoutAuthorities minting) =
      (ledger.verifyProof cluster proofType info proof).map (withoutAuthorities minting) := by
  unfold verifyProof
  cases cluster.verify proofType proof <;> simp

/-- The source side of a transfer reads no mint. -/
theorem transferOut_withoutAuthorities (source mint : Pubkey) (decryptable : AeCiphertext)
    (authority : Pubkey) (equality validity range : ProofContext) :
    (ledger.withoutAuthorities minting).transferOut source mint decryptable authority equality
        validity range =
      (ledger.transferOut source mint decryptable authority equality validity range).map
        (withoutAuthorities minting) := by
  simp [transferOut, Option.map_bind]

/-- The destination side of a transfer reads no authority. -/
theorem transferIn_withoutAuthorities (destination mint : Pubkey) (validity : ProofContext) :
    (ledger.withoutAuthorities minting).transferIn destination mint validity =
      (ledger.transferIn destination mint validity).map (withoutAuthorities minting) := by
  simp [transferIn, Option.map_bind]

/-- What an instruction does to a ledger, but for its mints' authorities, depends on the ledger
without them; it may mint only if the mints keep their own. -/
theorem execInstruction_withoutAuthorities {instruction : Instruction}
    (reads : instruction.mints = true → minting = true) :
    ((ledger.withoutAuthorities minting).execInstruction cluster instruction).map
        (withoutAuthorities minting) =
      (ledger.execInstruction cluster instruction).map (withoutAuthorities minting) := by
  cases instruction with
  | createAccount funder newAccount lamports space owner =>
    simp [execInstruction, createAccount]
  | encodeVerifyProof proofType info proof =>
    exact verifyProof_withoutAuthorities proofType info proof
  | encodeVerifyProofFromAccount proofType info proofAccount offset =>
    simp [execInstruction, verifyProof_withoutAuthorities, Option.map_bind]
  | closeContextState info destination =>
    simp only [execInstruction, closeContextState, withoutAuthorities_data]
    cases ledger.data info.contextStateAccount <;> simp
  | recordInitialize record authority =>
    simp only [execInstruction, recordInitialize, withoutAuthorities_data]
    cases ledger.data record <;> simp
  | recordWrite record signer offset bytes =>
    simp only [execInstruction, recordWrite, withoutAuthorities_data]
    cases ledger.data record <;> simp
  | recordCloseAccount record signer receiver =>
    simp only [execInstruction, recordCloseAccount, withoutAuthorities_data]
    cases ledger.data record <;> simp
  | reallocate account payer owner multisigSigners =>
    simp [execInstruction, reallocate, Option.map_bind]
  | configureAccount account mint zero maximum authority multisigSigners proofContext =>
    simp only [execInstruction, configureAccount, withoutAuthorities_data,
      AccountData.token?_withoutAuthority, AccountData.mint?_withoutAuthority,
      AccountData.context?_withoutAuthority, Mint.withoutAuthority, Option.bind_eq_bind,
      Option.map_bind, Option.bind_map, Function.comp_def]
    -- The one setting that is read is whether new accounts are approved.
    refine Option.bind_congr fun token _ => Option.bind_congr fun state _ =>
      Option.bind_congr fun settings _ => Option.bind_congr fun context _ => ?_
    cases context <;> simp [ConfidentialTransferMint.withoutAuthority]
  | deposit account mint base decimals authority multisigSigners =>
    simp [execInstruction, deposit, Option.map_bind, Option.bind_map]
    rfl
  | applyPendingBalance account counter decryptable authority multisigSigners =>
    simp [execInstruction, applyPendingBalance, Option.map_bind]
  | withdraw account mint base decimals decryptable authority multisigSigners first second =>
    simp [execInstruction, withdraw, Option.map_bind, Option.bind_map]
    rfl
  | innerTransfer source mint destination decryptable lo hi authority signers first second third =>
    simp [execInstruction, innerTransfer, transferOut_withoutAuthorities,
      transferIn_withoutAuthorities, Option.map_bind, Option.bind_map, Function.comp_def]
  | initializeConfidentialTransferMint mint authority autoApprove auditor =>
    simp only [execInstruction, initializeConfidentialTransferMint, withoutAuthorities_data]
    cases ledger.data mint <;> simp
  | initializeMint mint mintAuthority decimals =>
    simp only [execInstruction, initializeMint, withoutAuthorities_data]
    cases ledger.data mint <;> simp
    rfl
  | createAssociatedTokenAccountIdempotent funder wallet mint =>
    simp only [execInstruction, createAssociatedTokenAccountIdempotent, withoutAuthorities_data]
    cases ledger.data (getAssociatedTokenAddress wallet mint) <;> simp
  | mintTo mint account authority multisigSigners base =>
    obtain rfl := reads rfl
    simp [execInstruction, mintTo, Option.map_bind, Option.bind_map,
      Mint.withoutAuthority_minted]
    rfl

/-- What a list of instructions does depends on the ledger without the authorities. -/
theorem execInstructions_withoutAuthorities {other : Ledger} {instructions : List Instruction}
    (reads : instructions.any Instruction.mints = true → minting = true)
    (same : (ledger.withoutAuthorities minting) = (other.withoutAuthorities minting)) :
    (ledger.execInstructions cluster instructions).map (withoutAuthorities minting) =
      (other.execInstructions cluster instructions).map (withoutAuthorities minting) := by
  induction instructions generalizing ledger other with
  | nil => exact congrArg some same
  | cons instruction rest ih =>
    have here : instruction.mints = true → minting = true :=
      fun mints => reads (by simp [mints])
    have later : rest.any Instruction.mints = true → minting = true :=
      fun mints => reads (by simp [mints])
    have first : (ledger.execInstruction cluster instruction).map (withoutAuthorities minting) =
        (other.execInstruction cluster instruction).map (withoutAuthorities minting) := by
      rw [← execInstruction_withoutAuthorities here, same, execInstruction_withoutAuthorities here]
    simp only [execInstructions, Option.bind_eq_bind]
    cases ran : ledger.execInstruction cluster instruction with
    | none =>
      rw [ran, Option.map_none, eq_comm, Option.map_eq_none_iff] at first
      rw [first]
    | some next =>
      rw [ran, Option.map_some, eq_comm, Option.map_eq_some_iff] at first
      obtain ⟨next', there, alike⟩ := first
      rw [there]
      exact ih later alike.symm

/-- A transaction lands on both or neither of two ledgers that differ in nothing else. -/
theorem execTransaction_eq_none_iff {other : Ledger} {transaction : Transaction}
    (reads : transaction.mints = true → minting = true)
    (same : (ledger.withoutAuthorities minting) = (other.withoutAuthorities minting)) :
    ledger.execTransaction cluster transaction = none ↔
      other.execTransaction cluster transaction = none := by
  have lamports : ledger.lamports = other.lamports := by
    rw [← withoutAuthorities_lamports, same, withoutAuthorities_lamports]
  have charged :
    (ledger.chargeFee transaction.payer (cluster.fee transaction)).withoutAuthorities minting =
      (other.chargeFee transaction.payer (cluster.fee transaction)).withoutAuthorities minting := by
    simp [same]
  have ran : (execInstructions cluster _ transaction.instructions).map _ =
      (execInstructions cluster _ transaction.instructions).map _ :=
    execInstructions_withoutAuthorities reads charged
  unfold execTransaction
  rw [lamports]
  split
  · rw [← Option.map_eq_none_iff (f := withoutAuthorities minting), ran, Option.map_eq_none_iff]
  · rfl

end Ledger

end ConfidentialBalances
