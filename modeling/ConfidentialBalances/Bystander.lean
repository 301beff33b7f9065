import ConfidentialBalances.DemoServer
import ConfidentialBalances.Effect.Parallel
import ConfidentialBalances.Payment

/-!
# Bystanders

An address that a transaction takes no lamports from and gives none to. The
transaction does the same whatever lamports the address holds, and leaves them
there; so a program that submits only such transactions, and does not ask for
the address's balance, cannot tell how much the bystander holds.
-/

namespace ConfidentialBalances

open Effect

namespace Ledger

/-- The ledger with these lamports at one address. -/
def withLamports (ledger : Ledger) (key : Pubkey) (amount : Nat) : Ledger :=
  { ledger with lamports := Function.update ledger.lamports key amount }

variable {cluster : Cluster} {ledger ledger' : Ledger} {key : Pubkey} {amount : Nat}

@[simp] theorem withLamports_data : (ledger.withLamports key amount).data = ledger.data := rfl

@[simp] theorem withLamports_self : (ledger.withLamports key amount).lamports key = amount := by
  simp [withLamports]

@[simp] theorem awaitsContext_withLamports (other : Pubkey) :
    (ledger.withLamports key amount).awaitsContext other = ledger.awaitsContext other := rfl

/-- Other addresses keep their lamports. -/
theorem withLamports_other {other : Pubkey} (apart : other ≠ key) :
    (ledger.withLamports key amount).lamports other = ledger.lamports other := by
  simp [withLamports, apart]

@[simp] theorem setData_withLamports (other : Pubkey) (data : AccountData) :
    (ledger.withLamports key amount).setData other data =
      (ledger.setData other data).withLamports key amount := rfl

/-- Moving lamports between other addresses. -/
theorem moveLamports_withLamports {source destination : Pubkey} (fromOther : source ≠ key)
    (toOther : destination ≠ key) (moved : Nat) :
    (ledger.withLamports key amount).moveLamports source destination moved =
      (ledger.moveLamports source destination moved).withLamports key amount := by
  unfold moveLamports withLamports
  congr 1
  funext other
  by_cases same : other = key
  · subst same
    simp [fromOther.symm, toOther.symm]
  · simp [same]

/-- Charging another address. -/
theorem chargeFee_withLamports {payer : Pubkey} (apart : payer ≠ key) (fee : Nat) :
    (ledger.withLamports key amount).chargeFee payer fee =
      (ledger.chargeFee payer fee).withLamports key amount := by
  unfold chargeFee withLamports
  congr 1
  simp only [Function.update_of_ne apart]
  exact Function.update_comm apart.symm _ _ _

/-- Verifying a proof reads no lamports. -/
theorem verifyProof_withLamports (proofType : ProofType) (info : ContextStateInfo)
    (proof : List UInt8) :
    (ledger.withLamports key amount).verifyProof cluster proofType info proof =
      (ledger.verifyProof cluster proofType info proof).map (·.withLamports key amount) := by
  unfold verifyProof
  cases cluster.verify proofType proof with
  | none => rfl
  | some context =>
    by_cases awaits : ledger.awaitsContext info.contextStateAccount = true <;> simp [awaits]

/-- The source side of a transfer reads no lamports. -/
theorem transferOut_withLamports (source mint : Pubkey) (decryptable : AeCiphertext)
    (authority : Pubkey) (equality validity range : ProofContext) :
    (ledger.withLamports key amount).transferOut source mint decryptable authority equality validity
        range =
      (ledger.transferOut source mint decryptable authority equality validity range).map
        (·.withLamports key amount) := by
  simp only [transferOut, withLamports_data, Option.bind_eq_bind, setData_withLamports,
    Option.map_bind, Function.comp_def, Option.map_if]

/-- The destination side of a transfer reads no lamports. -/
theorem transferIn_withLamports (destination mint : Pubkey) (validity : ProofContext) :
    (ledger.withLamports key amount).transferIn destination mint validity =
      (ledger.transferIn destination mint validity).map (·.withLamports key amount) := by
  simp only [transferIn, withLamports_data, Option.bind_eq_bind, setData_withLamports,
    Option.map_bind, Function.comp_def, Option.map_if]

/-- An instruction that names the address in no movement of lamports runs the same, and leaves the
lamports there. -/
theorem execInstruction_withLamports (instruction : Instruction)
    (apart : key ∉ instruction.lamportKeys) :
    (ledger.withLamports key amount).execInstruction cluster instruction =
      (ledger.execInstruction cluster instruction).map (·.withLamports key amount) := by
  cases instruction with
  | createAccount funder newAccount lamports space owner =>
    obtain ⟨fromOther, toOther⟩ : funder ≠ key ∧ newAccount ≠ key := by
      simpa [Instruction.lamportKeys, eq_comm] using apart
    simp [execInstruction, createAccount, withLamports_other fromOther, withLamports_other toOther,
      moveLamports_withLamports fromOther toOther]
  | encodeVerifyProof proofType info proof => exact verifyProof_withLamports proofType info proof
  | encodeVerifyProofFromAccount proofType info proofAccount offset =>
    simp [execInstruction, recordBytes, verifyProof_withLamports, Option.map_bind]
  | closeContextState info destination =>
    obtain ⟨fromOther, toOther⟩ : info.contextStateAccount ≠ key ∧ destination ≠ key := by
      simpa [Instruction.lamportKeys, eq_comm] using apart
    simp only [execInstruction, closeContextState, withLamports_data,
      withLamports_other fromOther, moveLamports_withLamports fromOther toOther]
    cases ledger.data info.contextStateAccount <;> simp
  | recordInitialize record authority =>
    simp only [execInstruction, recordInitialize, withLamports_data]
    cases ledger.data record <;> simp
  | recordWrite record signer offset bytes =>
    simp only [execInstruction, recordWrite, withLamports_data]
    cases ledger.data record <;> simp
  | recordCloseAccount record signer receiver =>
    obtain ⟨fromOther, toOther⟩ : record ≠ key ∧ receiver ≠ key := by
      simpa [Instruction.lamportKeys, eq_comm] using apart
    simp only [execInstruction, recordCloseAccount, withLamports_data,
      withLamports_other fromOther, moveLamports_withLamports fromOther toOther]
    cases ledger.data record <;> simp
  | reallocate account payer owner multisigSigners =>
    obtain ⟨fromOther, toOther⟩ : payer ≠ key ∧ account ≠ key := by
      simpa [Instruction.lamportKeys, eq_comm] using apart
    simp [execInstruction, reallocate, withLamports_other fromOther, withLamports_other toOther,
      moveLamports_withLamports fromOther toOther, Option.map_bind]
  | configureAccount account mint zero maximum authority multisigSigners proofContext =>
    simp only [execInstruction, configureAccount, withLamports_data, Option.bind_eq_bind,
      Option.map_bind, Function.comp_def]
    refine Option.bind_congr fun token _ => Option.bind_congr fun state _ =>
      Option.bind_congr fun settings _ => Option.bind_congr fun context _ => ?_
    cases context <;> simp
  | deposit account mint base decimals authority multisigSigners =>
    simp [execInstruction, deposit, Option.map_bind]
  | applyPendingBalance account counter decryptable authority multisigSigners =>
    simp [execInstruction, applyPendingBalance, Option.map_bind]
  | withdraw account mint base decimals decryptable authority multisigSigners first second =>
    simp [execInstruction, withdraw, Option.map_bind]
  | innerTransfer source mint destination decryptable lo hi authority signers first second third =>
    simp [execInstruction, innerTransfer, transferOut_withLamports, transferIn_withLamports,
      Option.map_bind, Option.bind_map]
  | initializeConfidentialTransferMint mint authority autoApprove auditor =>
    simp only [execInstruction, initializeConfidentialTransferMint, withLamports_data]
    cases ledger.data mint <;> simp
  | initializeMint mint mintAuthority decimals =>
    simp only [execInstruction, initializeMint, withLamports_data]
    cases ledger.data mint <;> simp
  | createAssociatedTokenAccountIdempotent funder wallet mint =>
    obtain ⟨fromOther, toOther⟩ : funder ≠ key ∧ getAssociatedTokenAddress wallet mint ≠ key := by
      simpa [Instruction.lamportKeys, eq_comm] using apart
    simp only [execInstruction, createAssociatedTokenAccountIdempotent, withLamports_data,
      withLamports_other fromOther, withLamports_other toOther,
      moveLamports_withLamports fromOther toOther]
    cases ledger.data (getAssociatedTokenAddress wallet mint) <;> simp
  | mintTo mint account authority multisigSigners base =>
    simp [execInstruction, mintTo, Option.map_bind]

/-- Instructions that stay away from an address run alike whatever its lamports. -/
theorem execInstructions_withLamports (instructions : List Instruction)
    (apart : ∀ instruction ∈ instructions, key ∉ instruction.lamportKeys) :
    (ledger.withLamports key amount).execInstructions cluster instructions =
      (ledger.execInstructions cluster instructions).map (·.withLamports key amount) := by
  induction instructions generalizing ledger with
  | nil => rfl
  | cons instruction rest ih =>
    simp only [execInstructions, Option.bind_eq_bind]
    rw [execInstruction_withLamports instruction (apart instruction List.mem_cons_self)]
    cases ledger.execInstruction cluster instruction with
    | none => rfl
    | some next => exact ih fun later member => apart later (List.mem_cons_of_mem _ member)

/-- A transaction that neither takes lamports from an address nor gives it any runs alike whatever
its lamports. -/
theorem execTransaction_withLamports {transaction : Transaction}
    (apart : key ∉ lamportKeys transaction) :
    (ledger.withLamports key amount).execTransaction cluster transaction =
      (ledger.execTransaction cluster transaction).map (·.withLamports key amount) := by
  simp only [lamportKeys, List.mem_cons, List.mem_flatMap, not_or, not_exists, not_and] at apart
  unfold execTransaction
  rw [withLamports_other (Ne.symm apart.1), chargeFee_withLamports (Ne.symm apart.1),
    execInstructions_withLamports _ apart.2, apply_ite (Option.map _)]
  rfl

/-- Such a transaction leaves the lamports of the address where they are. -/
theorem execTransaction_lamports_other {transaction : Transaction}
    (landed : ledger.execTransaction cluster transaction = some ledger')
    (apart : key ∉ lamportKeys transaction) : ledger'.lamports key = ledger.lamports key := by
  have alone : ledger.execTransactions cluster [transaction] = some ledger' := by
    simp [execTransactions, landed]
  exact execTransactions_lamports_other alone (by simpa using apart)

/-- What is paid for by a payer takes no lamports from another wallet and gives it none. -/
theorem paidBy_lamportKeys {payer wallet : Wallet} {transaction : Transaction}
    (paid : transaction.PaidBy payer) (other : wallet ≠ payer) :
    wallet.pubkey ∉ lamportKeys transaction := by
  simp only [lamportKeys, List.mem_cons, List.mem_flatMap, not_or, not_exists, not_and,
    paid.feePayer, Wallet.pubkey_inj]
  refine ⟨other, fun instruction member named => ?_⟩
  rcases (paid.instructions instruction member).lamports _ named with same | ⟨index, same⟩
  · exact other ((Wallet.pubkey_inj _ _).mp same)
  · exact wallet.pubkey_ne_generated index same

/-- Looking at an account shows no more of its lamports than whether an unused address has any. -/
theorem fetch_withLamports {other : Pubkey}
    (here : other = key → (ledger.withLamports key amount).fetch key = ledger.fetch key) :
    (ledger.withLamports key amount).fetch other = ledger.fetch other := by
  by_cases same : other = key
  · rw [same, here same]
  · simp [fetch, withLamports_other same]

/-- An address whose data and lamports stay looks the same. -/
theorem fetch_congr (data : ledger'.data key = ledger.data key)
    (lamports : ledger'.lamports key = ledger.lamports key) :
    ledger'.fetch key = ledger.fetch key := by
  simp [fetch, data, lamports]

end Ledger

/-- The world with these lamports at one address. -/
def World.withLamports (world : World) (key : Pubkey) (amount : Nat) : World :=
  { world with ledger := world.ledger.withLamports key amount }

/-- The worlds differ in the lamports of one address alone, which holds this much in the first and
that much in the second. It looks the same in both where it is the mint's. -/
structure Bystander (mint key : Pubkey) (held amount : Nat) (world other : World) : Prop where
  /-- The other world. -/
  apart : other = world.withLamports key amount
  /-- What the address holds. -/
  holds : world.ledger.lamports key = held
  /-- An account at the wallet's address looks the same. -/
  looks : key = mint → (world.ledger.withLamports key amount).fetch key = world.ledger.fetch key

/-- The request neither asks for the wallet's lamports, nor moves any, nor writes to its address,
nor reads it unless it is the mint's. -/
def Call.Spares (mint : Pubkey) (wallet : Wallet) : Call → Prop
  | .getAccount key => key = wallet.pubkey → key = mint
  | .getBalance key => key ≠ wallet.pubkey
  | .sendAndConfirmTransaction transaction =>
    wallet.pubkey ∉ Ledger.lamportKeys transaction ∧
      ∀ instruction ∈ transaction.instructions, wallet.pubkey ∉ instruction.writes
  | _ => True

/-- What a payer pays for spares the others. -/
theorem Call.PaidBy.spares {payer wallet : Wallet} {mint : Pubkey} (other : wallet ≠ payer)
    {request : Call} (paid : request.PaidBy payer mint) : request.Spares mint wallet := by
  cases request with
  | getAccount key => exact paid wallet
  | sendAndConfirmTransaction transaction =>
    exact ⟨Ledger.paidBy_lamportKeys paid other,
      fun instruction member => (paid.instructions instruction member).writes wallet⟩
  | getBalance key => exact paid.elim
  | _ => trivial

section Chain

variable {cluster : Cluster} {mint : Pubkey} {wallet : Wallet} {held amount : Nat}

/-- A request that spares a wallet is answered alike whatever the wallet holds. -/
theorem chain_spares (world other : World) (request : Call) (choice : Choice)
    (bystander : Bystander mint wallet.pubkey held amount world other)
    (spares : request.Spares mint wallet) :
    ((chain cluster).answer world request choice).1 =
        ((chain cluster).answer other request choice).1 ∧
      Bystander mint wallet.pubkey held amount ((chain cluster).answer world request choice).2
        ((chain cluster).answer other request choice).2 := by
  obtain ⟨rfl, holds, looks⟩ := bystander
  cases request with
  | getAccount key =>
    cases choice with
    | succeed =>
      have fetched : (world.ledger.withLamports wallet.pubkey amount).fetch key = _ :=
        Ledger.fetch_withLamports fun same => looks (same ▸ spares same)
      exact ⟨fetched.symm, rfl, holds, looks⟩
    | fail message => exact ⟨rfl, rfl, holds, looks⟩
  | getBalance key =>
    cases choice with
    | succeed =>
      exact ⟨congrArg Except.ok (Ledger.withLamports_other spares).symm, rfl, holds, looks⟩
    | fail message => exact ⟨rfl, rfl, holds, looks⟩
  | sendAndConfirmTransaction transaction =>
    cases choice with
    | fail message => exact ⟨rfl, rfl, holds, looks⟩
    | succeed =>
      have executed : (world.ledger.withLamports wallet.pubkey amount).execTransaction cluster
          transaction = _ := Ledger.execTransaction_withLamports spares.1
      simp only [chain, World.withLamports, executed]
      cases landed : world.ledger.execTransaction cluster transaction with
      | none => exact ⟨rfl, rfl, holds, looks⟩
      | some ledger =>
        have data := Ledger.execTransaction_data landed spares.2
        have lamports := Ledger.execTransaction_lamports_other landed spares.1
        refine ⟨rfl, rfl, lamports.trans holds, fun same => ?_⟩
        calc (ledger.withLamports wallet.pubkey amount).fetch wallet.pubkey
            = (world.ledger.withLamports wallet.pubkey amount).fetch wallet.pubkey :=
              Ledger.fetch_congr data (by simp)
          _ = world.ledger.fetch wallet.pubkey := looks same
          _ = ledger.fetch wallet.pubkey := (Ledger.fetch_congr data lamports).symm
  | newKeypair => exact ⟨rfl, rfl, holds, looks⟩
  | newSignedWithPayer transaction => exact ⟨rfl, rfl, holds, looks⟩
  | emit event => exact ⟨rfl, rfl, holds, looks⟩
  | readEvents => exact ⟨rfl, rfl, holds, looks⟩
  | writeEvents events => exact ⟨rfl, rfl, holds, looks⟩
  | signMessage signer => cases choice <;> exact ⟨rfl, rfl, holds, looks⟩
  | getMinimumBalanceForRentExemption length => cases choice <;> exact ⟨rfl, rfl, holds, looks⟩
  | getLatestBlockhash => cases choice <;> exact ⟨rfl, rfl, holds, looks⟩

/-- A program that spares a wallet runs the same whatever the wallet holds. -/
theorem parallel_spares {α : Type} {ok : α → Prop} {program : Client α} {world other : World}
    (within : program.Within Call.Promised (Call.Spares mint wallet) ok)
    (bystander : Bystander mint wallet.pubkey held amount world other) :
    (chain cluster).Parallel (Bystander mint wallet.pubkey held amount)
      (fun value value' => value = value') program program world other :=
  Handler.parallel_within (chain_promises cluster) chain_spares within bystander

end Chain

end ConfidentialBalances
