import ConfidentialBalances.IdealProofs
import ConfidentialBalances.Transfer

/-!
# The transfer protocol

What the transactions of one transfer do to the ledger, at every point at which
the run can stop. Before its last transaction a run touches no token account.
The last transaction finds three live contexts that hold this run's proofs, the
range proof having been verified from a completely written record, and closes
all four accounts of the run behind it.
-/

namespace ConfidentialBalances

open Effect

/-- The instruction is a confidential transfer. -/
def Instruction.isInnerTransfer : Instruction → Bool
  | .innerTransfer _ _ _ _ _ _ _ _ _ _ _ => true
  | _ => false

/-- An instruction that writes no token account is no transfer. -/
theorem Instruction.isInnerTransfer_of_quiet {instruction : Instruction}
    (quiet : instruction.tokenWrites = []) : instruction.isInnerTransfer = false := by
  cases instruction with
  | innerTransfer => simp [tokenWrites] at quiet
  | _ => rfl

/-- The address holds no account: neither data nor lamports. -/
def Ledger.Closed (ledger : Ledger) (key : Pubkey) : Prop :=
  ledger.data key = .empty ∧ ledger.lamports key = 0

namespace Ledger

variable {cluster : Cluster} {ledger ledger' : Ledger}

/-- Moving everything away leaves nothing. -/
theorem moveLamports_all {source destination : Pubkey} (elsewhere : destination ≠ source) :
    (ledger.moveLamports source destination (ledger.lamports source)).lamports source = 0 := by
  simp [moveLamports, elsewhere.symm]

/-- Closing a context closes its account. -/
theorem closeContextState_closed {info : ContextStateInfo} {destination : Pubkey}
    (closed : ledger.closeContextState info destination = some ledger') :
    ledger'.Closed info.contextStateAccount := by
  obtain ⟨proof, context, -, elsewhere, rfl⟩ := closeContextState_some closed
  exact ⟨by simp, moveLamports_all elsewhere⟩

/-- Closing a record closes its account. -/
theorem recordCloseAccount_closed {record signer receiver : Pubkey}
    (closed : ledger.recordCloseAccount record signer receiver = some ledger') :
    ledger'.Closed record := by
  obtain ⟨region, -, elsewhere, rfl⟩ := recordCloseAccount_some closed
  exact ⟨by simp, moveLamports_all elsewhere⟩

/-- A closed account stays closed while no instruction names it. -/
theorem Closed.frame {key : Pubkey} {instruction : Instruction} (closed : ledger.Closed key)
    (landed : ledger.execInstruction cluster instruction = some ledger')
    (unwritten : key ∉ instruction.writes) (unpaid : key ∉ instruction.lamportKeys) :
    ledger'.Closed key :=
  ⟨(execInstruction_data landed unwritten).trans closed.1,
    (execInstruction_lamports_other landed unpaid).trans closed.2⟩

end Ledger

namespace TransferRun

variable {sdk : Sdk} {cluster : Cluster} {run : TransferRun} {ledger ledger' : Ledger}

/-- The four accounts of a run. -/
def accounts (run : TransferRun) : List Pubkey :=
  [run.equalityAccount, run.validityAccount, run.recordAccount, run.rangeAccount]

/-- The contexts that the transfer will refer to are live and hold this run's verified proofs, and
the record holds the whole range proof. -/
structure Prepared (cluster : Cluster) (run : TransferRun) (ledger : Ledger) : Prop where
  /-- The equality context. -/
  equality : ∃ context,
    cluster.verify .ciphertextCommitmentEquality run.proofData.equalityProofData =
      some context ∧
    ledger.data run.equalityAccount =
      .proofContext run.sender.pubkey run.proofData.equalityProofData context
  /-- The validity context. -/
  validity : ∃ context,
    cluster.verify .batchedGroupedCiphertext3HandlesValidity
      run.proofData.ciphertextValidityProofData = some context ∧
    ledger.data run.validityAccount =
      .proofContext run.sender.pubkey run.proofData.ciphertextValidityProofData context
  /-- The range context. -/
  range : ∃ context,
    cluster.verify .batchedRangeProofU128 run.proofData.rangeProofData = some context ∧
    ledger.data run.rangeAccount =
      .proofContext run.sender.pubkey run.proofData.rangeProofData context
  /-- The record. -/
  record : ledger.data run.recordAccount =
    .record run.payer.pubkey run.proofData.rangeProofData

/-- Being prepared is a matter of the data alone. -/
theorem Prepared.of_data (prepared : run.Prepared cluster ledger)
    (same : ledger'.data = ledger.data) : run.Prepared cluster ledger' :=
  ⟨same ▸ prepared.equality, same ▸ prepared.validity, same ▸ prepared.range,
    same ▸ prepared.record⟩

/-- No transaction before the transfer writes a token account. -/
theorem setup_quiet (sdk : Sdk) (cluster : Cluster) (run : TransferRun) :
    ∀ transaction ∈ run.setupTransactions sdk cluster, Ledger.TokenQuiet transaction := by
  intro transaction member
  simp only [setupTransactions, List.cons_append, List.nil_append, List.mem_cons] at member
  rcases member with rfl | rfl | staging
  · simp [Ledger.TokenQuiet, equalityTransaction, createAndVerify, Instruction.tokenWrites]
  · simp [Ledger.TokenQuiet, validityTransaction, createAndVerify, Instruction.tokenWrites]
  · refine (stageTransactions_forall run.payer run.recordAccount _ _ (fun instructions =>
      ∀ instruction ∈ instructions, instruction.tokenWrites = []) cluster ?_ ?_ ?_ _ transaction
      staging).2
    · simp [stageInstructions, Instruction.tokenWrites]
    · intro offset chunk last
      cases last <;> simp [writeInstructions, rangeInstructions, Instruction.tokenWrites]
    · simp [rangeInstructions, Instruction.tokenWrites]

/-- The instructions that ride on the last staging transaction verify the range proof from a
record that holds all of it. -/
theorem rangeInstructions_data {payer sender : Wallet} {rangeAccount recordAccount : Pubkey}
    {rent : Nat} {proofBytes : List UInt8} {authority : Pubkey}
    (apart : recordAccount ≠ rangeAccount)
    (data : ledger.data recordAccount = .record authority proofBytes)
    (landed : ledger.execInstructions cluster
      (rangeInstructions sdk payer sender rangeAccount recordAccount rent) = some ledger') :
    ledger.data rangeAccount = .empty ∧ ∃ context,
      cluster.verify .batchedRangeProofU128 proofBytes = some context ∧
      ledger'.data = Function.update ledger.data rangeAccount
        (.proofContext sender.pubkey proofBytes context) ∧
      ∃ from', from'.recordBytes recordAccount recordProofOffset = some proofBytes ∧
        (from', .encodeVerifyProofFromAccount .batchedRangeProofU128
          ⟨rangeAccount, sender.pubkey⟩ recordAccount recordProofOffset) ∈
          ledger.executedInstructions cluster
            (rangeInstructions sdk payer sender rangeAccount recordAccount rent) := by
  obtain ⟨created, create, rest⟩ := Option.bind_eq_some_iff.mp landed
  obtain ⟨verified, verify, last⟩ := Option.bind_eq_some_iff.mp rest
  obtain rfl := Option.some.inj last
  obtain ⟨unused, -, -, createdEq⟩ := Ledger.createAccount_some create
  obtain ⟨proof, read, accepted⟩ := Option.bind_eq_some_iff.mp verify
  have whole : created.recordBytes recordAccount recordProofOffset = some proofBytes := by
    simp [createdEq, Ledger.recordBytes, apart, data, recordProofOffset, Ledger.recordDataStart]
  obtain rfl : proofBytes = proof := Option.some.inj (whole.symm.trans read)
  obtain ⟨context, space, stated, -, rfl⟩ := Ledger.verifyProof_some accepted
  have traced : ledger.executedInstructions cluster
      (rangeInstructions sdk payer sender rangeAccount recordAccount rent) = (ledger, _) ::
        created.executedInstructions cluster [_] := Ledger.executedInstructions_cons _ create
  refine ⟨unused, context, stated, by simp [createdEq], created, whole, ?_⟩
  rw [traced, Ledger.executedInstructions]
  exact List.mem_cons_of_mem _ List.mem_cons_self

/-- After the transactions before the transfer, the run is prepared; the accounts it created were
unused, and nothing else changed. -/
theorem setup_data
    (landed : ledger.execTransactions cluster (run.setupTransactions sdk cluster) =
      some ledger') :
    run.Prepared cluster ledger' ∧ (∀ key ∈ run.accounts, ledger.data key = .empty) ∧
      (∀ key ∉ run.accounts, ledger'.data key = ledger.data key) ∧
      ∃ from', from'.recordBytes run.recordAccount recordProofOffset =
          some run.proofData.rangeProofData ∧
        (from', .encodeVerifyProofFromAccount .batchedRangeProofU128
          ⟨run.rangeAccount, run.sender.pubkey⟩ run.recordAccount recordProofOffset) ∈
          ledger.executed cluster (run.setupTransactions sdk cluster) := by
  obtain ⟨first, ranFirst, restFirst⟩ := Option.bind_eq_some_iff.mp landed
  obtain ⟨second, ranSecond, staging⟩ := Option.bind_eq_some_iff.mp restFirst
  obtain ⟨-, -, verifiedFirst⟩ := Ledger.execTransaction_some ranFirst
  obtain ⟨-, -, verifiedSecond⟩ := Ledger.execTransaction_some ranSecond
  obtain ⟨equalityUnused, equality, equalityStated, firstData⟩ :=
    createAndVerify_data verifiedFirst
  obtain ⟨validityUnused, validity, validityStated, secondData⟩ :=
    createAndVerify_data verifiedSecond
  obtain ⟨recordUnused, filled, filledData, trailing, suffix⟩ :=
    stageTransactions_fill _ _ _ _ _ staging
  rw [Ledger.chargeFee_data] at equalityUnused firstData validityUnused secondData
  have apart : run.recordAccount ≠ run.rangeAccount := by
    simp [recordAccount, rangeAccount]
  obtain ⟨rangeUnused, range, rangeStated, finalData, from', whole, verifiedFrom⟩ :=
    rangeInstructions_data apart (by rw [filledData, Function.update_self]) trailing
  have final : ledger'.data = _ := finalData
  rw [filledData, secondData, firstData] at final
  refine ⟨⟨⟨equality, equalityStated, ?_⟩, ⟨validity, validityStated, ?_⟩,
    ⟨range, rangeStated, ?_⟩, ?_⟩, ?_, ?_, from', whole, ?_⟩
  · simp [final, equalityAccount, validityAccount, recordAccount, rangeAccount]
  · simp [final, validityAccount, recordAccount, rangeAccount]
  · simp [final]
  · simp [final, apart]
  · simp only [accounts, List.mem_cons, List.not_mem_nil, or_false]
    rintro key (rfl | rfl | rfl | rfl)
    · exact equalityUnused
    · simpa [firstData, equalityAccount, validityAccount] using validityUnused
    · simpa [firstData, secondData, equalityAccount, validityAccount, recordAccount]
        using recordUnused
    · simpa [filledData, firstData, secondData, equalityAccount, validityAccount, recordAccount,
        rangeAccount] using rangeUnused
  · intro key apart
    simp only [accounts, List.mem_cons, List.not_mem_nil, or_false, not_or] at apart
    simp [final, apart]
  · have tail : second.executed cluster (run.stagingTransactions sdk cluster) <:+
        ledger.executed cluster (run.setupTransactions sdk cluster) := by
      rw [setupTransactions, List.cons_append, List.cons_append, List.nil_append,
        Ledger.executed_cons ranFirst, Ledger.executed_cons ranSecond]
      exact (List.suffix_append _ _).trans (List.suffix_append _ _)
    exact (suffix.trans tail).subset verifiedFrom

/-- The last transaction closes all four accounts. -/
theorem transferTransaction_closes
    (landed : ledger.execTransaction cluster run.transferTransaction = some ledger') :
    ∀ key ∈ run.accounts, ledger'.Closed key := by
  obtain ⟨-, -, ran⟩ := Ledger.execTransaction_some landed
  obtain ⟨l1, transferred, rest1⟩ := Option.bind_eq_some_iff.mp ran
  obtain ⟨l2, closeEquality, rest2⟩ := Option.bind_eq_some_iff.mp rest1
  obtain ⟨l3, closeValidity, rest3⟩ := Option.bind_eq_some_iff.mp rest2
  obtain ⟨l4, closeRange, rest4⟩ := Option.bind_eq_some_iff.mp rest3
  obtain ⟨l5, closeRecord, last⟩ := Option.bind_eq_some_iff.mp rest4
  obtain rfl := Option.some.inj last
  have equality : l2.Closed run.equalityAccount := Ledger.closeContextState_closed closeEquality
  have validity : l3.Closed run.validityAccount := Ledger.closeContextState_closed closeValidity
  have range : l4.Closed run.rangeAccount := Ledger.closeContextState_closed closeRange
  have record : l5.Closed run.recordAccount := Ledger.recordCloseAccount_closed closeRecord
  -- Each account, once closed, is named by none of the closes after its own.
  have equality3 := equality.frame closeValidity
    (by simp [Instruction.writes, equalityAccount, validityAccount])
    (by simp [Instruction.lamportKeys, equalityAccount, validityAccount, Wallet.pubkey])
  have equality4 := equality3.frame closeRange
    (by simp [Instruction.writes, equalityAccount, rangeAccount])
    (by simp [Instruction.lamportKeys, equalityAccount, rangeAccount, Wallet.pubkey])
  have equality5 := equality4.frame closeRecord
    (by simp [Instruction.writes, equalityAccount, recordAccount])
    (by simp [Instruction.lamportKeys, equalityAccount, recordAccount, Wallet.pubkey])
  have validity4 := validity.frame closeRange
    (by simp [Instruction.writes, validityAccount, rangeAccount])
    (by simp [Instruction.lamportKeys, validityAccount, rangeAccount, Wallet.pubkey])
  have validity5 := validity4.frame closeRecord
    (by simp [Instruction.writes, validityAccount, recordAccount])
    (by simp [Instruction.lamportKeys, validityAccount, recordAccount, Wallet.pubkey])
  have range5 := range.frame closeRecord
    (by simp [Instruction.writes, rangeAccount, recordAccount])
    (by simp [Instruction.lamportKeys, rangeAccount, recordAccount, Wallet.pubkey])
  simp only [accounts, List.mem_cons, List.not_mem_nil, or_false]
  rintro key (rfl | rfl | rfl | rfl)
  · exact equality5
  · exact validity5
  · exact record
  · exact range5

/-- A cut run has landed only transactions from before the transfer. -/
theorem cut_setup {done rest : List Transaction} (cut : rest ≠ [])
    (plan : done ++ rest = run.transactions sdk cluster) :
    ∀ transaction ∈ done, transaction ∈ run.setupTransactions sdk cluster := by
  rcases List.append_eq_append_iff.mp plan with ⟨more, early, -⟩ | ⟨more, late, tail⟩
  · intro transaction member
    exact early ▸ List.mem_append_left more member
  · obtain ⟨-, rfl⟩ | ⟨rfl, -⟩ : more = [run.transferTransaction] ∧ rest = [] ∨
        more = [] ∧ rest = [run.transferTransaction] := by
      cases more with
      | nil => exact .inr ⟨rfl, by simpa using tail.symm⟩
      | cons head tail' =>
        obtain ⟨rfl, empty⟩ : run.transferTransaction = head ∧ tail' ++ rest = [] := by
          simpa [eq_comm] using tail
        obtain ⟨rfl, rfl⟩ := List.append_eq_nil_iff.mp empty
        exact .inl ⟨rfl, rfl⟩
    · exact absurd rfl cut
    · intro transaction member
      simpa [late] using member

end TransferRun

/-! ## Whole runs -/

/-- What a transfer that did not return a value leaves: no transfer among the transactions that
landed, and every token account as it was. -/
def TransferUntouched (world world' : World) : Prop :=
  ∃ done, world'.landed = world.landed ++ done ∧
    (∀ transaction ∈ done, ∀ instruction ∈ transaction.instructions,
      instruction.isInnerTransfer = false) ∧
    ∀ key, (world'.ledger.data key).token? = (world.ledger.data key).token?

/-- What a transfer that returned a value has done: its trace holds one transfer, which found the
run prepared by earlier transactions, the range proof verified from a record that held all of it,
and none of the run's four accounts is left. -/
def TransferCompleted (cluster : Cluster) (run : TransferRun) (world world' : World) : Prop :=
  ∃ setup last trace ledger instruction closes,
    world'.landed = world.landed ++ (setup ++ [last]) ∧
    world.ledger.executed cluster (setup ++ [last]) =
      trace ++ (ledger, instruction) :: closes ∧
    instruction.isInnerTransfer = true ∧
    (∀ entry ∈ trace ++ closes, entry.2.isInnerTransfer = false) ∧
    trace = world.ledger.executed cluster setup ∧
    instruction = .innerTransfer (getAssociatedTokenAddress run.sender.pubkey run.mint) run.mint
      (getAssociatedTokenAddress run.recipient run.mint) run.newDecryptable
      run.proofData.ciphertextLo run.proofData.ciphertextHi run.sender.pubkey []
      run.equalityAccount run.validityAccount run.rangeAccount ∧
    run.Prepared cluster ledger ∧
    (∃ from', (from', .encodeVerifyProof .ciphertextCommitmentEquality
      ⟨run.equalityAccount, run.sender.pubkey⟩ run.proofData.equalityProofData) ∈ trace) ∧
    (∃ from', (from', .encodeVerifyProof .batchedGroupedCiphertext3HandlesValidity
      ⟨run.validityAccount, run.sender.pubkey⟩ run.proofData.ciphertextValidityProofData) ∈
        trace) ∧
    (∃ from', from'.recordBytes run.recordAccount recordProofOffset =
        some run.proofData.rangeProofData ∧
      (from', .encodeVerifyProofFromAccount .batchedRangeProofU128
        ⟨run.rangeAccount, run.sender.pubkey⟩ run.recordAccount recordProofOffset) ∈ trace) ∧
    ∀ key ∈ run.accounts, world'.ledger.Closed key

/-- A cut transfer has touched nothing. -/
theorem transferUntouched_of_cut {sdk : Sdk} {cluster : Cluster} {payer sender : Wallet}
    {mint recipient : Pubkey} {amount : Nat} {world world' : World}
    (cut : Cut cluster (fun plan => ∃ run,
      TransferPlan sdk payer sender mint recipient amount world run ∧
        plan = run.transactions sdk cluster) world world') : TransferUntouched world world' := by
  rcases cut with quiet | ⟨done, rest, remains, ⟨run, -, plan⟩, landed⟩
  · refine ⟨[], quiet.landed, by simp, fun key => ?_⟩
    rw [quiet.same_ledger]
  · have early := run.cut_setup remains plan
    have quiet := run.setup_quiet sdk cluster
    refine ⟨done, landed.landed, ?_, ?_⟩
    · intro transaction member instruction inside
      exact Instruction.isInnerTransfer_of_quiet
        (quiet transaction (early transaction member) instruction inside)
    · exact Ledger.execTransactions_quiet landed.ledger fun transaction member =>
        quiet transaction (early transaction member)

/-- A landed run has completed. -/
theorem transferCompleted_of_lands {sdk : Sdk} {cluster : Cluster} {run : TransferRun}
    {world world' : World} (landed : Lands cluster world world' (run.transactions sdk cluster)) :
    TransferCompleted cluster run world world' := by
  have executed := landed.ledger
  rw [TransferRun.transactions, Ledger.execTransactions_append] at executed
  obtain ⟨prepared, setup, last⟩ := Option.bind_eq_some_iff.mp executed
  obtain ⟨final, ran, ended⟩ := Option.bind_eq_some_iff.mp last
  obtain rfl := Option.some.inj ended
  obtain ⟨ready, -, -, from', whole, verified⟩ := TransferRun.setup_data setup
  obtain ⟨-, -, executed⟩ := Ledger.execTransaction_some ran
  obtain ⟨transferred, transfer, closing⟩ := Option.bind_eq_some_iff.mp executed
  have quiet := run.setup_quiet sdk cluster
  have mentioned (instruction : Instruction) (inside : instruction ∈
      (run.setupTransactions sdk cluster).flatMap Transaction.instructions) :
      ∃ from', (from', instruction) ∈
        world.ledger.executed cluster (run.setupTransactions sdk cluster) := by
    rw [← Ledger.executed_map setup, List.mem_map] at inside
    obtain ⟨⟨from', found⟩, member, rfl⟩ := inside
    exact ⟨from', member⟩
  refine ⟨run.setupTransactions sdk cluster, run.transferTransaction, _,
    prepared.chargeFee run.payer.pubkey (cluster.fee run.transferTransaction), _,
    transferred.executedInstructions cluster run.transferTransaction.instructions.tail,
    landed.landed, ?_, rfl, ?_, rfl, rfl, ready.of_data rfl, mentioned _ ?_, mentioned _ ?_,
    ⟨from', whole, verified⟩, TransferRun.transferTransaction_closes ran⟩
  · rw [Ledger.executed_append setup, Ledger.executed_cons ran, Ledger.executed, List.append_nil]
    exact congrArg _ (Ledger.executedInstructions_cons _ transfer)
  · intro entry member
    have named := List.mem_map_of_mem (f := Prod.snd) member
    have closes : (transferred.executedInstructions cluster
        run.transferTransaction.instructions.tail).map Prod.snd =
          run.transferTransaction.instructions.tail := Ledger.executedInstructions_map closing
    rw [List.map_append, List.mem_append, Ledger.executed_map setup, closes] at named
    rcases named with early | late
    · obtain ⟨transaction, landed, inside⟩ := List.mem_flatMap.mp early
      exact Instruction.isInnerTransfer_of_quiet (quiet transaction landed entry.2 inside)
    · simp only [TransferRun.transferTransaction, transferInstructions, List.tail_cons,
        List.mem_cons, List.not_mem_nil, or_false] at late
      rcases late with same | same | same | same <;> rw [same] <;> rfl
  · simp [TransferRun.setupTransactions, TransferRun.equalityTransaction, createAndVerify]
  · simp [TransferRun.setupTransactions, TransferRun.validityTransaction, createAndVerify]

/-- Whatever fails and wherever, a transfer either returns a value and has completed one prepared
transfer and cleaned up after it, or returns none and has touched no token account. -/
theorem transferConfidentialWithProgress_correct (sdk : Sdk) (cluster : Cluster)
    (payer sender : Wallet) (mint recipient : Pubkey) (amount : Nat) (progress : ProgressSink)
    (world world' : World) (outcome : Outcome ClientError (List Signature))
    (ended : (chainSystem cluster).Ends world
      (transferConfidentialWithProgress sdk payer sender mint recipient amount progress) outcome
      world') :
    ((∀ sigs, outcome ≠ .ok sigs) → TransferUntouched world world') ∧
    ∀ sigs, outcome = .ok sigs → ∃ run,
      TransferPlan sdk payer sender mint recipient amount world run ∧
      TransferCompleted cluster run world world' := by
  have post := (transferConfidentialWithProgress_submits sdk cluster payer sender mint recipient
    amount progress world).ends ended
  cases outcome with
  | ok sigs =>
    refine ⟨fun none => absurd rfl (none sigs), fun sigs' _ => ?_⟩
    obtain ⟨plan, -, landed, run, planned, rfl, -, -⟩ := post
    exact ⟨run, planned, transferCompleted_of_lands landed⟩
  | error reason =>
    exact ⟨fun _ => transferUntouched_of_cut post, fun sigs same => by contradiction⟩
  | panic message =>
    exact ⟨fun _ => transferUntouched_of_cut post, fun sigs same => by contradiction⟩

/-- With the ideal proof system, a transfer of two of five tokens completes. -/
theorem transferConfidentialWithProgress_correct_ideal :
    ∃ run, TransferPlan Sdk.ideal ⟨0⟩ ⟨1⟩ (.wallet ⟨3⟩) (.wallet ⟨2⟩) 2
        (.funded ⟨0⟩ ⟨1⟩ ⟨2⟩ (.wallet ⟨3⟩) 5) run ∧
      TransferCompleted Cluster.ideal run (.funded ⟨0⟩ ⟨1⟩ ⟨2⟩ (.wallet ⟨3⟩) 5)
        ((chain Cluster.ideal).run (transferConfidentialWithProgress Sdk.ideal ⟨0⟩ ⟨1⟩
          (.wallet ⟨3⟩) (.wallet ⟨2⟩) 2 .none) (.funded ⟨0⟩ ⟨1⟩ ⟨2⟩ (.wallet ⟨3⟩) 5) []).2 :=
  (transferConfidentialWithProgress_correct Sdk.ideal Cluster.ideal ⟨0⟩ ⟨1⟩ (.wallet ⟨3⟩)
    (.wallet ⟨2⟩) 2 .none _ _ (.ok [⟨0⟩, ⟨1⟩, ⟨2⟩, ⟨3⟩, ⟨4⟩])
    ((chain Cluster.ideal).run_ends_with (by decide +kernel))).2 _ rfl

end ConfidentialBalances
