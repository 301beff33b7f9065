import ConfidentialBalances.Operations

/-!
# Temporary accounts

Contexts and records are created for one call. Every transaction a call submits
initialises what it creates, with an authority that the caller still holds when
the new account's own key is gone; it writes only its own temporary accounts and
token accounts, and moves lamports only between these and the payer. So every
point at which a call can stop leaves only recoverable accounts, and no lamports
are lost.
-/

namespace ConfidentialBalances

open Effect

/-- A list of instructions that initialises every temporary account it creates, right after
creating it: contexts for the owner to close, records for the payer. -/
inductive Tidy (payer owner : Wallet) (temporaries : List Pubkey) : List Instruction → Prop
  /-- Nothing. -/
  | nil : Tidy payer owner temporaries []
  /-- Create a context account and verify a proof into it. -/
  | context {key : Pubkey} {rent space : Nat} {proofType : ProofType} {proof : List UInt8}
      {rest : List Instruction} (member : key ∈ temporaries)
      (tail : Tidy payer owner temporaries rest) :
      Tidy payer owner temporaries (.createAccount payer.pubkey key rent space .zkElGamalProof ::
        .encodeVerifyProof proofType ⟨key, owner.pubkey⟩ proof :: rest)
  /-- Create a context account and verify a staged proof into it. -/
  | contextFrom {key record : Pubkey} {rent space offset : Nat} {proofType : ProofType}
      {rest : List Instruction} (member : key ∈ temporaries)
      (tail : Tidy payer owner temporaries rest) :
      Tidy payer owner temporaries (.createAccount payer.pubkey key rent space .zkElGamalProof ::
        .encodeVerifyProofFromAccount proofType ⟨key, owner.pubkey⟩ record offset :: rest)
  /-- Create a record account and initialise it. -/
  | record {key : Pubkey} {rent space : Nat} {rest : List Instruction}
      (member : key ∈ temporaries) (tail : Tidy payer owner temporaries rest) :
      Tidy payer owner temporaries (.createAccount payer.pubkey key rent space .splRecord ::
        .recordInitialize key payer.pubkey :: rest)
  /-- Write a record of the call's own. -/
  | write {key : Pubkey} {offset : Nat} {bytes : List UInt8} {rest : List Instruction}
      (member : key ∈ temporaries) (tail : Tidy payer owner temporaries rest) :
      Tidy payer owner temporaries (.recordWrite key payer.pubkey offset bytes :: rest)
  /-- Close a context. -/
  | closeContext {info : ContextStateInfo} {destination : Pubkey} {rest : List Instruction}
      (tail : Tidy payer owner temporaries rest) :
      Tidy payer owner temporaries (.closeContextState info destination :: rest)
  /-- Close a record. -/
  | closeRecord {key signer receiver : Pubkey} {rest : List Instruction}
      (tail : Tidy payer owner temporaries rest) :
      Tidy payer owner temporaries (.recordCloseAccount key signer receiver :: rest)
  /-- Change token accounts. -/
  | token {instruction : Instruction} {rest : List Instruction}
      (tokens : instruction.writes = instruction.tokenWrites)
      (tail : Tidy payer owner temporaries rest) :
      Tidy payer owner temporaries (instruction :: rest)

/-- An initialised temporary account whose authority the caller still holds. -/
def Recoverable (payer owner : Wallet) (data : AccountData) : Prop :=
  (∃ proof context, data = .proofContext owner.pubkey proof context) ∨
    ∃ bytes, data = .record payer.pubkey bytes

/-- Every temporary account is as it was before, or one of the call's and recoverable. -/
def Settled (payer owner : Wallet) (temporaries : List Pubkey) (before now : Pubkey → AccountData) :
    Prop :=
  ∀ key, (now key).isTemporary = true →
    now key = before key ∨ key ∈ temporaries ∧ Recoverable payer owner (now key)

section Settled

variable {cluster : Cluster} {payer owner : Wallet} {temporaries : List Pubkey}
variable {before : Pubkey → AccountData} {ledger ledger' : Ledger}

/-- Replacing one address's data keeps an account settled when the new data is no temporary
account or a recoverable one of the call. -/
theorem Settled.update {now : Pubkey → AccountData} {key : Pubkey} {data : AccountData}
    (settled : Settled payer owner temporaries before now)
    (fine : data.isTemporary = true → key ∈ temporaries ∧ Recoverable payer owner data) :
    Settled payer owner temporaries before (Function.update now key data) := by
  intro other temporary
  by_cases same : other = key
  · subst same
    rw [Function.update_self] at temporary ⊢
    exact .inr (fine temporary)
  · rw [Function.update_of_ne same] at temporary ⊢
    exact settled other temporary

/-- Running a tidy list keeps accounts settled. -/
theorem Tidy.settled {instructions : List Instruction}
    (tidy : Tidy payer owner temporaries instructions)
    (landed : ledger.execInstructions cluster instructions = some ledger')
    (settled : Settled payer owner temporaries before ledger.data) :
    Settled payer owner temporaries before ledger'.data := by
  induction tidy generalizing ledger with
  | nil =>
    obtain rfl := Option.some.inj landed
    exact settled
  | @context key rent space proofType proof rest member tail ih =>
    obtain ⟨created, create, later⟩ := Option.bind_eq_some_iff.mp landed
    obtain ⟨verified, verify, remaining⟩ := Option.bind_eq_some_iff.mp later
    obtain ⟨-, -, -, rfl⟩ := Ledger.createAccount_some create
    obtain ⟨context, allocated, -, -, rfl⟩ := Ledger.verifyProof_some verify
    refine ih remaining ?_
    rw [Ledger.setData_data, Ledger.setData_data, Ledger.moveLamports_data, Function.update_idem]
    exact settled.update fun _ => ⟨member, .inl ⟨proof, context, rfl⟩⟩
  | @contextFrom key record rent space offset proofType rest member tail ih =>
    obtain ⟨created, create, later⟩ := Option.bind_eq_some_iff.mp landed
    obtain ⟨verified, verify, remaining⟩ := Option.bind_eq_some_iff.mp later
    obtain ⟨-, -, -, rfl⟩ := Ledger.createAccount_some create
    obtain ⟨proof, -, accepted⟩ := Option.bind_eq_some_iff.mp verify
    obtain ⟨context, allocated, -, -, rfl⟩ := Ledger.verifyProof_some accepted
    refine ih remaining ?_
    rw [Ledger.setData_data, Ledger.setData_data, Ledger.moveLamports_data, Function.update_idem]
    exact settled.update fun _ => ⟨member, .inl ⟨proof, context, rfl⟩⟩
  | @record key rent space rest member tail ih =>
    obtain ⟨created, create, later⟩ := Option.bind_eq_some_iff.mp landed
    obtain ⟨initialized, init, remaining⟩ := Option.bind_eq_some_iff.mp later
    obtain ⟨-, -, -, rfl⟩ := Ledger.createAccount_some create
    obtain ⟨allocated, -, -, rfl⟩ := Ledger.recordInitialize_some init
    refine ih remaining ?_
    rw [Ledger.setData_data, Ledger.setData_data, Ledger.moveLamports_data, Function.update_idem]
    exact settled.update fun _ => ⟨member, .inr ⟨_, rfl⟩⟩
  | @write key offset bytes rest member tail ih =>
    obtain ⟨written, write, remaining⟩ := Option.bind_eq_some_iff.mp landed
    obtain ⟨region, -, -, rfl⟩ := Ledger.recordWrite_some write
    exact ih remaining (settled.update fun _ => ⟨member, .inr ⟨_, rfl⟩⟩)
  | @closeContext info destination rest tail ih =>
    obtain ⟨closed, close, remaining⟩ := Option.bind_eq_some_iff.mp landed
    obtain ⟨proof, context, -, -, rfl⟩ := Ledger.closeContextState_some close
    exact ih remaining (settled.update fun temporary => by contradiction)
  | @closeRecord key signer receiver rest tail ih =>
    obtain ⟨closed, close, remaining⟩ := Option.bind_eq_some_iff.mp landed
    obtain ⟨region, -, -, rfl⟩ := Ledger.recordCloseAccount_some close
    exact ih remaining (settled.update fun temporary => by contradiction)
  | @token instruction rest tokens tail ih =>
    obtain ⟨next, ran, remaining⟩ := Option.bind_eq_some_iff.mp landed
    refine ih remaining fun key temporary => ?_
    by_cases written : key ∈ instruction.writes
    · obtain ⟨token, data⟩ := Ledger.execInstruction_token ran (tokens ▸ written)
      rw [data] at temporary
      contradiction
    · rw [Ledger.execInstruction_data ran written] at temporary ⊢
      exact settled key temporary

end Settled

/-! ## The operations' transactions -/

namespace Operation

/-- The accounts a call creates for its proofs. -/
def temporaries (operation : Operation) (world : World) : List Pubkey :=
  (List.range operation.keypairs).map fun index => .generated (world.generated + index)

/-- A transaction that keeps to a call's own accounts. -/
structure Contained (operation : Operation) (world : World) (transaction : Transaction) :
    Prop where
  /-- The call's payer pays. -/
  payer : transaction.payer = operation.payer.pubkey
  /-- Only the call's temporary accounts and associated token accounts are written. -/
  writes : ∀ instruction ∈ transaction.instructions, ∀ key ∈ instruction.writes,
    key ∈ operation.temporaries world ∨ ∃ owner mint, key = getAssociatedTokenAddress owner mint
  /-- Lamports move only between the payer and the temporary accounts, and to the token account
  that is being extended. -/
  lamports : ∀ key ∈ Ledger.lamportKeys transaction, key = operation.payer.pubkey ∨
    key ∈ operation.temporaries world ∨
    (∃ payer authority mint, operation = .configure payer authority mint) ∧
      key = operation.account
  /-- What is created is initialised. -/
  tidy : Tidy operation.payer operation.owner (operation.temporaries world)
    transaction.instructions

/-- Configuring keeps to its own accounts. -/
theorem contained_configure (sdk : Sdk) (cluster : Cluster) (payer authority : Wallet)
    (mint : Pubkey) (world : World) (proofData : List UInt8) :
    (Operation.configure payer authority mint).Contained world
      (configureTransaction sdk cluster payer authority mint world proofData) where
  payer := rfl
  writes := by
    simp [configureTransaction, configureInstructions, createAndVerify, Instruction.writes,
      temporaries, keypairs, getAssociatedTokenAddress]
  lamports := by
    simp [Ledger.lamportKeys, configureTransaction, configureInstructions, createAndVerify,
      Instruction.lamportKeys, temporaries, keypairs, Operation.payer, account, owner,
      Operation.mint]
  tidy := .token rfl (.context (by simp [temporaries, keypairs]) (.token rfl .nil))

/-- A transaction of one token instruction keeps to the call's accounts. -/
theorem contained_token (operation : Operation) (world : World) (instruction : Instruction)
    (signers : List Pubkey) (writes : instruction.writes = [operation.account])
    (tokens : instruction.writes = instruction.tokenWrites)
    (unpaid : instruction.lamportKeys = []) :
    operation.Contained world ⟨[instruction], operation.payer.pubkey, signers⟩ where
  payer := rfl
  writes := by
    simp [writes, account, getAssociatedTokenAddress]
  lamports := by
    simp [Ledger.lamportKeys, unpaid]
  tidy := .token tokens .nil

/-- Creating and verifying keeps to the call's accounts. -/
theorem contained_createAndVerify (sdk : Sdk) (operation : Operation) (world : World)
    (proofType : ProofType) (key : Pubkey) (rent : Nat) (proof : List UInt8)
    (signers : List Pubkey) (member : key ∈ operation.temporaries world) :
    operation.Contained world ⟨createAndVerify sdk operation.payer operation.owner proofType key
      rent proof, operation.payer.pubkey, signers⟩ where
  payer := rfl
  writes := by
    simp [createAndVerify, Instruction.writes, member]
  lamports := by
    simp [Ledger.lamportKeys, createAndVerify, Instruction.lamportKeys, member]
  tidy := .context member .nil

/-- A withdraw keeps to its own accounts. -/
theorem contained_withdraw (sdk : Sdk) (cluster : Cluster) {payer authority : Wallet}
    {mint : Pubkey} {amount decimals : Nat} {world : World} {run : WithdrawRun}
    (planned : WithdrawPlan sdk payer authority mint amount decimals world run) :
    ∀ transaction ∈ run.transactions sdk cluster,
      (Operation.withdraw payer authority mint amount decimals).Contained world transaction := by
  obtain ⟨⟨rfl, rfl, rfl, rfl, rfl⟩, generated, -⟩ := planned
  have equality : run.equalityAccount ∈ (Operation.withdraw run.payer run.authority run.mint
      run.amount run.decimals).temporaries world := by
    simp [temporaries, keypairs, WithdrawRun.equalityAccount, generated]
  have range : run.rangeAccount ∈ (Operation.withdraw run.payer run.authority run.mint
      run.amount run.decimals).temporaries world := by
    simp [temporaries, keypairs, WithdrawRun.rangeAccount, generated]
  have closing (key : Pubkey) (member : key ∈ (Operation.withdraw run.payer run.authority run.mint
      run.amount run.decimals).temporaries world) : (Operation.withdraw run.payer run.authority
      run.mint run.amount run.decimals).Contained world (run.closeTransaction key) := by
    refine ⟨rfl, ?_, ?_, .closeContext .nil⟩
    · simp [WithdrawRun.closeTransaction, Instruction.writes, member]
    · simp [Ledger.lamportKeys, WithdrawRun.closeTransaction, Instruction.lamportKeys, member,
        Operation.payer]
  simp only [WithdrawRun.transactions, List.mem_cons, List.not_mem_nil, or_false]
  rintro transaction (rfl | rfl | rfl | rfl | rfl)
  · exact contained_createAndVerify sdk (.withdraw ..) world _ _ _ _ _ equality
  · exact contained_createAndVerify sdk (.withdraw ..) world _ _ _ _ _ range
  · exact contained_token (.withdraw ..) world _ _ rfl rfl rfl
  · exact closing _ equality
  · exact closing _ range

/-- Instructions that concern nothing but the payer and the call's temporary accounts. -/
structure Private (operation : Operation) (world : World) (instructions : List Instruction) :
    Prop where
  /-- Only the call's temporary accounts are written. -/
  writes : ∀ instruction ∈ instructions, ∀ key ∈ instruction.writes,
    key ∈ operation.temporaries world
  /-- Lamports move only between the payer and these. -/
  lamports : ∀ instruction ∈ instructions, ∀ key ∈ instruction.lamportKeys,
    key = operation.payer.pubkey ∨ key ∈ operation.temporaries world
  /-- What is created is initialised. -/
  tidy : Tidy operation.payer operation.owner (operation.temporaries world) instructions

/-- A transaction of such instructions keeps to the call's accounts. -/
theorem Private.contained {operation : Operation} {world : World} {transaction : Transaction}
    (own : operation.Private world transaction.instructions)
    (payer : transaction.payer = operation.payer.pubkey) :
    operation.Contained world transaction := by
  refine ⟨payer, fun instruction inside key written => ?_, fun key named => ?_, own.tidy⟩
  · exact .inl (own.writes instruction inside key written)
  · simp only [Ledger.lamportKeys, List.mem_cons, List.mem_flatMap] at named
    rcases named with rfl | ⟨instruction, inside, moved⟩
    · exact .inl payer
    · rcases own.lamports instruction inside key moved with paying | temporary
      · exact .inl paying
      · exact .inr (.inl temporary)

/-- Staging through a record of the call's own, with trailing instructions that concern nothing
else either, keeps to the call's accounts. -/
theorem contained_staging (cluster : Cluster) (operation : Operation) (world : World)
    (record : Pubkey) (trailing : List Instruction) (signers : List Pubkey)
    (proofBytes : List UInt8) (member : record ∈ operation.temporaries world)
    (own : operation.Private world trailing) :
    ∀ transaction ∈ stageTransactions operation.payer record trailing signers cluster proofBytes,
      operation.Contained world transaction := by
  have stage (rent space : Nat) (first : List UInt8) :
      operation.Private world (stageInstructions operation.payer record rent space first) := by
    refine ⟨?_, ?_, .record member (.write member .nil)⟩
    · simp [stageInstructions, Instruction.writes, member]
    · simp [stageInstructions, Instruction.lamportKeys, member]
  have write (offset : Nat) (chunk : List UInt8) (last : Bool) :
      operation.Private world
        (writeInstructions operation.payer record trailing offset chunk last) := by
    cases last with
    | false =>
      refine ⟨?_, ?_, .write member .nil⟩
      · simp [writeInstructions, Instruction.writes, member]
      · simp [writeInstructions, Instruction.lamportKeys]
    | true =>
      refine ⟨?_, ?_, .write member own.tidy⟩
      · simpa [writeInstructions, Instruction.writes, member] using own.writes
      · simpa [writeInstructions, Instruction.lamportKeys] using own.lamports
  intro transaction staging
  obtain ⟨payer, instructions⟩ := stageTransactions_forall operation.payer record trailing signers
    (operation.Private world) cluster stage write own proofBytes transaction staging
  exact instructions.contained payer

/-- The last transaction of a transfer keeps to the call's accounts. -/
theorem contained_transferTransaction (operation : Operation) (world : World) {run : TransferRun}
    (payer : operation.payer = run.payer)
    (member : ∀ key ∈ run.accounts, key ∈ operation.temporaries world) :
    operation.Contained world run.transferTransaction := by
  simp only [TransferRun.accounts, List.forall_mem_cons, List.not_mem_nil, false_implies,
    implies_true, and_true] at member
  obtain ⟨equality, validity, record, range⟩ := member
  refine ⟨by rw [payer]; rfl, ?_, ?_, ?_⟩
  · simp only [TransferRun.transferTransaction, transferInstructions, List.forall_mem_cons,
      Instruction.writes, List.not_mem_nil, false_implies, implies_true, and_true]
    exact ⟨⟨.inr ⟨_, _, rfl⟩, .inr ⟨_, _, rfl⟩⟩, .inl equality, .inl validity, .inl range,
      .inl record⟩
  · simp only [Ledger.lamportKeys, TransferRun.transferTransaction, transferInstructions,
      Instruction.lamportKeys, List.flatMap_cons, List.flatMap_nil, List.cons_append,
      List.nil_append, List.forall_mem_cons, List.not_mem_nil, false_implies, implies_true,
      and_true]
    rw [payer]
    exact ⟨.inl rfl, .inr (.inl equality), .inl rfl, .inr (.inl validity), .inl rfl,
      .inr (.inl range), .inl rfl, .inr (.inl record), .inl rfl⟩
  · exact .token rfl (.closeContext (.closeContext (.closeContext (.closeRecord .nil))))

/-- A transfer keeps to its own accounts. -/
theorem contained_transfer (sdk : Sdk) (cluster : Cluster) {payer sender : Wallet}
    {mint recipient : Pubkey} {amount : Nat} (progress : ProgressSink) {world : World}
    {run : TransferRun}
    (planned : TransferPlan sdk payer sender mint recipient amount world run) :
    ∀ transaction ∈ run.transactions sdk cluster,
      (Operation.transfer payer sender mint recipient amount progress).Contained world
        transaction := by
  obtain ⟨⟨rfl, rfl, rfl, rfl, rfl⟩, generated, -, -⟩ := planned
  let operation : Operation :=
    .transfer run.payer run.sender run.mint run.recipient run.amount progress
  have accounts : ∀ key ∈ run.accounts, key ∈ operation.temporaries world := by
    simp [operation, temporaries, keypairs, TransferRun.accounts, TransferRun.equalityAccount,
      TransferRun.validityAccount, TransferRun.recordAccount, TransferRun.rangeAccount, generated]
  have equality := accounts run.equalityAccount (by simp [TransferRun.accounts])
  have validity := accounts run.validityAccount (by simp [TransferRun.accounts])
  have record := accounts run.recordAccount (by simp [TransferRun.accounts])
  have range := accounts run.rangeAccount (by simp [TransferRun.accounts])
  have riding : operation.Private world (rangeInstructions sdk run.payer run.sender
      run.rangeAccount run.recordAccount
      (cluster.rentExemption (sdk.contextStateSize .batchedRangeProofU128))) := by
    refine ⟨?_, ?_, .contextFrom range .nil⟩
    · simp [rangeInstructions, Instruction.writes, range]
    · simp [rangeInstructions, Instruction.lamportKeys, range, operation, Operation.payer]
  intro transaction member
  simp only [TransferRun.transactions, TransferRun.setupTransactions, List.cons_append,
    List.nil_append, List.mem_cons, List.mem_append, List.not_mem_nil, or_false] at member
  rcases member with rfl | rfl | staging | rfl
  · exact contained_createAndVerify sdk operation world _ _ _ _ _ equality
  · exact contained_createAndVerify sdk operation world _ _ _ _ _ validity
  · exact contained_staging cluster operation world run.recordAccount _ [run.rangeAccount] _ record
      riding transaction staging
  · exact contained_transferTransaction operation world rfl accounts

/-- Every transaction that a call may submit keeps to the call's own accounts. -/
theorem contained (sdk : Sdk) (cluster : Cluster) {operation : Operation} {world : World}
    {plan : List Transaction} (planned : operation.Plans sdk cluster world plan) :
    ∀ transaction ∈ plan, operation.Contained world transaction := by
  cases operation with
  | configure payer authority mint =>
    obtain ⟨proofData, -, rfl⟩ := planned
    intro transaction member
    obtain rfl := List.mem_singleton.mp member
    exact contained_configure ..
  | deposit payer authority mint amount decimals =>
    intro transaction member
    rw [show plan = _ from planned, List.mem_singleton] at member
    subst member
    exact contained_token (.deposit ..) world _ _ rfl rfl rfl
  | applyPending payer authority mint =>
    obtain ⟨extension, values, -, -, rfl⟩ := planned
    intro transaction member
    obtain rfl := List.mem_singleton.mp member
    exact contained_token (.applyPending ..) world _ _ rfl rfl rfl
  | withdraw payer authority mint amount decimals =>
    obtain ⟨run, planned, rfl⟩ := planned
    exact contained_withdraw sdk cluster planned
  | transfer payer sender mint recipient amount progress =>
    obtain ⟨run, planned, rfl⟩ := planned
    exact contained_transfer sdk cluster progress planned

end Operation

end ConfidentialBalances
