import ConfidentialBalances.Rent

/-!
# What completed calls leave behind

A completed transfer or withdraw has closed every temporary account it created,
and a deposit or an apply creates none. Configuring keeps the context account it
creates: nothing closes it, and no later call touches it.
-/

namespace ConfidentialBalances

open Effect

/-- A call of `configure_account_for_confidential_transfers`. -/
def Operation.isConfigure : Operation → Bool
  | .configure _ _ _ => true
  | _ => false

/-- Calls made one after the other, each returning a value: the calls, each with the world it
left. -/
inductive Completed (sdk : Sdk) (cluster : Cluster) : World → List (Operation × World) → Prop
  /-- No call was made. -/
  | nil {world : World} : Completed sdk cluster world []
  /-- One call returned, and the next ones are made from where it left the world. -/
  | cons {world world' : World} {call : Operation} {sigs : List Signature}
      {later : List (Operation × World)}
      (ended : (chainSystem cluster).Ends world (call.program sdk) (.ok sigs) world')
      (rest : Completed sdk cluster world' later) :
      Completed sdk cluster world ((call, world') :: later)

/-- No account of the proof program or the record program is left that the start does not have
as it is. -/
def NoneLeft (start now : World) : Prop :=
  ∀ key, (now.ledger.data key).isTemporary = true → now.ledger.data key = start.ledger.data key

/-- A call took lamports for fees and for the token account alone: what its payer and its token
account lost together is no more than the fees, and no other wallet lost anything. -/
def Accounted (cluster : Cluster) (call : Operation) (before now : World) : Prop :=
  (∃ done, now.landed = before.landed ++ done ∧
    before.ledger.lamports call.payer.pubkey + before.ledger.lamports call.account ≤
      now.ledger.lamports call.payer.pubkey + now.ledger.lamports call.account +
        Ledger.fees cluster done) ∧
  ∀ wallet : Wallet, wallet ≠ call.payer →
    now.ledger.lamports wallet.pubkey = before.ledger.lamports wallet.pubkey

/-- After every call nothing is left of what the calls since the start created, and every call's
lamports are accounted for. -/
def CleanThroughout (cluster : Cluster) (start : World) : World → List (Operation × World) → Prop
  | _, [] => True
  | before, (call, now) :: later =>
    NoneLeft start now ∧ Accounted cluster call before now ∧
      CleanThroughout cluster start now later

/-! ## One completed call -/

namespace Operation

variable {sdk : Sdk} {cluster : Cluster} {call : Operation} {world world' : World}
variable {sigs : List Signature}

/-- A completed call has landed one of its plans whole. -/
theorem completed_plan
    (ended : (chainSystem cluster).Ends world (call.program sdk) (.ok sigs) world') :
    ∃ plan, call.Plans sdk cluster world plan ∧ Lands cluster world world' plan ∧
      world'.generated = world.generated + call.keypairs :=
  (call.submits sdk cluster world).ends ended

/-- A landed withdraw has closed both its contexts. -/
theorem withdraw_closes {run : WithdrawRun} {ledger ledger' : Ledger}
    (landed : ledger.execTransactions cluster (run.transactions sdk cluster) = some ledger') :
    ledger'.Closed run.equalityAccount ∧ ledger'.Closed run.rangeAccount := by
  have closing : run.transactions sdk cluster =
      [run.equalityTransaction sdk cluster, run.rangeTransaction sdk cluster,
        run.withdrawTransaction] ++
      [run.closeTransaction run.equalityAccount, run.closeTransaction run.rangeAccount] := rfl
  rw [closing, Ledger.execTransactions_append] at landed
  obtain ⟨withdrawn, -, closes⟩ := Option.bind_eq_some_iff.mp landed
  obtain ⟨first, ranFirst, rest⟩ := Option.bind_eq_some_iff.mp closes
  obtain ⟨second, ranSecond, last⟩ := Option.bind_eq_some_iff.mp rest
  obtain rfl := Option.some.inj last
  obtain ⟨-, -, executedFirst⟩ := Ledger.execTransaction_some ranFirst
  obtain ⟨-, -, executedSecond⟩ := Ledger.execTransaction_some ranSecond
  obtain ⟨closedFirst, closeFirst, lastFirst⟩ := Option.bind_eq_some_iff.mp executedFirst
  obtain ⟨closedSecond, closeSecond, lastSecond⟩ := Option.bind_eq_some_iff.mp executedSecond
  obtain rfl := Option.some.inj lastFirst
  obtain rfl := Option.some.inj lastSecond
  have equality : closedFirst.Closed run.equalityAccount :=
    Ledger.closeContextState_closed closeFirst
  have range : closedSecond.Closed run.rangeAccount := Ledger.closeContextState_closed closeSecond
  refine ⟨?_, range⟩
  -- The second close's fee and refund go past the first account.
  have charged : (closedFirst.chargeFee run.payer.pubkey
      (cluster.fee (run.closeTransaction run.rangeAccount))).Closed run.equalityAccount := by
    refine ⟨equality.1, ?_⟩
    rw [← equality.2]
    simp [Ledger.chargeFee, WithdrawRun.equalityAccount, Wallet.pubkey]
  exact charged.frame closeSecond
    (by simp [Instruction.writes, WithdrawRun.equalityAccount, WithdrawRun.rangeAccount])
    (by simp [Instruction.lamportKeys, WithdrawRun.equalityAccount, WithdrawRun.rangeAccount,
      Wallet.pubkey])

/-- A landed transfer has closed all four of its accounts. -/
theorem transfer_closes {run : TransferRun} {ledger ledger' : Ledger}
    (landed : ledger.execTransactions cluster (run.transactions sdk cluster) = some ledger') :
    ∀ key ∈ run.accounts, ledger'.Closed key := by
  rw [TransferRun.transactions, Ledger.execTransactions_append] at landed
  obtain ⟨prepared, -, last⟩ := Option.bind_eq_some_iff.mp landed
  obtain ⟨final, ran, ended⟩ := Option.bind_eq_some_iff.mp last
  obtain rfl := Option.some.inj ended
  exact TransferRun.transferTransaction_closes ran

/-- A completed call other than configuring has closed every temporary account it created. -/
theorem completed_closed (other : call.isConfigure = false)
    (ended : (chainSystem cluster).Ends world (call.program sdk) (.ok sigs) world') :
    ∀ key ∈ call.temporaries world, world'.ledger.Closed key := by
  obtain ⟨plan, planned, landed, -⟩ := completed_plan ended
  intro key member
  cases call with
  | configure payer authority mint => contradiction
  | deposit payer authority mint amount decimals => simp [temporaries, keypairs] at member
  | applyPending payer authority mint => simp [temporaries, keypairs] at member
  | withdraw payer authority mint amount decimals =>
    obtain ⟨run, ⟨-, generated, -⟩, rfl⟩ := planned
    obtain ⟨equality, range⟩ := withdraw_closes landed.ledger
    have own : key = run.equalityAccount ∨ key = run.rangeAccount := by
      simpa [temporaries, keypairs, List.range_succ, WithdrawRun.equalityAccount,
        WithdrawRun.rangeAccount, generated] using member
    rcases own with rfl | rfl
    · exact equality
    · exact range
  | transfer payer sender mint recipient amount progress =>
    obtain ⟨run, ⟨-, generated, -⟩, rfl⟩ := planned
    refine transfer_closes landed.ledger key ?_
    simpa [temporaries, keypairs, List.range_succ, TransferRun.accounts,
      TransferRun.equalityAccount, TransferRun.validityAccount, TransferRun.recordAccount,
      TransferRun.rangeAccount, generated] using member

/-- A completed configuration leaves its context account, at an address that was unused. -/
theorem completed_configure {payer authority : Wallet} {mint : Pubkey}
    (ended : (chainSystem cluster).Ends world
      ((Operation.configure payer authority mint).program sdk) (.ok sigs) world') :
    world.ledger.data (.generated world.generated) = .empty ∧
      ∃ proof context, world'.ledger.data (.generated world.generated) =
        .proofContext authority.pubkey proof context := by
  obtain ⟨plan, ⟨proofData, -, rfl⟩, landed, -⟩ := completed_plan ended
  obtain ⟨extended, verified, reallocate, create, configure⟩ :=
    configureTransaction_some landed.single
  obtain ⟨token, -, -, -, rfl⟩ := Ledger.reallocate_some reallocate
  obtain ⟨unused, context, -, data⟩ := createAndVerify_data create
  obtain ⟨account, state, settings, pubkey, closer, proof, -, -, -, -, -, -, -, -, configured⟩ :=
    Ledger.configureAccount_some configure
  refine ⟨by simpa [getAssociatedTokenAddress] using unused, proofData, context, ?_⟩
  rw [configured, Ledger.setData_data, Function.update_of_ne (by simp [getAssociatedTokenAddress]),
    data, Function.update_self]

/-- A completed call leaves the addresses of later keypairs alone. -/
theorem completed_unused
    (ended : (chainSystem cluster).Ends world (call.program sdk) (.ok sigs) world') {index : Nat}
    (later : world.generated + call.keypairs ≤ index) :
    world'.ledger.data (.generated index) = world.ledger.data (.generated index) := by
  obtain ⟨done, landed, contained⟩ := reached_contained ended
  refine data_of_contained landed contained ?_ (by simp [getAssociatedTokenAddress])
  simp only [temporaries, List.mem_map, List.mem_range, Pubkey.generated.injEq, not_exists,
    not_and]
  omega

/-- A completed call other than configuring leaves nothing that was not left before. -/
theorem completed_noneLeft {start : World} (other : call.isConfigure = false)
    (ended : (chainSystem cluster).Ends world (call.program sdk) (.ok sigs) world')
    (before : NoneLeft start world) : NoneLeft start world' := by
  obtain ⟨done, landed, contained⟩ := reached_contained ended
  intro key temporary
  rcases settled_of_contained landed contained key temporary with same | ⟨own, -⟩
  · rw [same] at temporary ⊢
    exact before key temporary
  · rw [(completed_closed other ended key own).1] at temporary
    contradiction

/-- A completed call other than configuring has its lamports accounted for. -/
theorem completed_accounted (other : call.isConfigure = false)
    (ended : (chainSystem cluster).Ends world (call.program sdk) (.ok sigs) world') :
    Accounted cluster call world world' := by
  obtain ⟨done, landed, contained⟩ := reached_contained ended
  refine ⟨⟨done, landed.landed, ?_⟩, fun wallet apart => ?_⟩
  · have stake := stake_of_contained landed contained
    have returned : ((call.temporaries world).map world'.ledger.lamports).sum = 0 := by
      refine List.sum_eq_zero fun lamports member => ?_
      obtain ⟨key, own, rfl⟩ := List.mem_map.mp member
      exact (completed_closed other ended key own).2
    unfold Operation.stake at stake
    omega
  · refine lamports_of_contained landed contained ?_ ?_ ?_
    · simpa using apart
    · simp [temporaries, Wallet.pubkey]
    · simp [Operation.account, getAssociatedTokenAddress, Wallet.pubkey]

end Operation

/-! ## Sequences of completed calls -/

/-- Sequences without a configuration stay clean. -/
theorem completed_clean {sdk : Sdk} {cluster : Cluster} {start world : World}
    {run : List (Operation × World)} (completed : Completed sdk cluster world run)
    (clean : NoneLeft start world) (others : ∀ entry ∈ run, entry.1.isConfigure = false) :
    CleanThroughout cluster start world run := by
  induction completed with
  | nil => trivial
  | cons ended rest ih =>
    have other := others _ List.mem_cons_self
    have next := Operation.completed_noneLeft other ended clean
    exact ⟨next, Operation.completed_accounted other ended,
      ih next fun entry member => others entry (List.mem_cons_of_mem _ member)⟩

/-- A clean sequence has no configuration: the context account one leaves is new. -/
theorem clean_completed {sdk : Sdk} {cluster : Cluster} {start world : World}
    {run : List (Operation × World)} (completed : Completed sdk cluster world run)
    (unused : ∀ index, world.generated ≤ index →
      world.ledger.data (.generated index) = start.ledger.data (.generated index))
    (clean : CleanThroughout cluster start world run) :
    ∀ entry ∈ run, entry.1.isConfigure = false := by
  induction completed with
  | nil => simp
  | @cons world world' call sigs later ended rest ih =>
    obtain ⟨noneLeft, -, cleanLater⟩ := clean
    rintro entry (_ | ⟨_, member⟩)
    · cases call with
      | configure payer authority mint =>
        obtain ⟨was, proof, context, left⟩ := Operation.completed_configure ended
        have same := noneLeft (.generated world.generated) (by rw [left]; rfl)
        rw [left, ← unused _ le_rfl, was] at same
        contradiction
      | _ => rfl
    · obtain ⟨-, -, -, generated⟩ := Operation.completed_plan ended
      refine ih (fun index high => ?_) cleanLater entry member
      rw [Operation.completed_unused ended (by omega)]
      exact unused index (by omega)

/-- Completed calls leave no temporary account behind and take lamports for nothing but fees and
token accounts, after every call, exactly when none of them configures an account. -/
theorem completed_clean_iff (sdk : Sdk) (cluster : Cluster) (start : World)
    (run : List (Operation × World)) (completed : Completed sdk cluster start run) :
    CleanThroughout cluster start start run ↔ ∀ entry ∈ run, entry.1.isConfigure = false :=
  ⟨clean_completed completed fun _ _ => rfl, completed_clean completed fun _ _ => rfl⟩

/-- A completed transfer of two of five tokens leaves nothing behind. -/
theorem completed_clean_iff_transfer :
    CleanThroughout Cluster.ideal (.funded ⟨0⟩ ⟨1⟩ ⟨2⟩ (.wallet ⟨3⟩) 5)
      (.funded ⟨0⟩ ⟨1⟩ ⟨2⟩ (.wallet ⟨3⟩) 5)
      [(.transfer ⟨0⟩ ⟨1⟩ (.wallet ⟨3⟩) (.wallet ⟨2⟩) 2 .none,
        ((Operation.transfer ⟨0⟩ ⟨1⟩ (.wallet ⟨3⟩) (.wallet ⟨2⟩) 2 .none).ideal
          (.funded ⟨0⟩ ⟨1⟩ ⟨2⟩ (.wallet ⟨3⟩) 5)).2)] := by
  let call : Operation := .transfer ⟨0⟩ ⟨1⟩ (.wallet ⟨3⟩) (.wallet ⟨2⟩) 2 .none
  let start : World := .funded ⟨0⟩ ⟨1⟩ ⟨2⟩ (.wallet ⟨3⟩) 5
  have returned : (call.ideal start).1 = .ok [⟨0⟩, ⟨1⟩, ⟨2⟩, ⟨3⟩, ⟨4⟩] := by decide +kernel
  have completed : Completed Sdk.ideal Cluster.ideal start [(call, (call.ideal start).2)] :=
    .cons (Operation.ideal_ends returned) .nil
  refine (completed_clean_iff Sdk.ideal Cluster.ideal start _ completed).mpr ?_
  intro entry member
  obtain rfl := List.mem_singleton.mp member
  rfl

/-- One completed configuration leaves its context account behind. -/
theorem configure_leaves_context :
    ∃ run, Completed Sdk.ideal Cluster.ideal (.unconfigured ⟨0⟩ ⟨1⟩ (.wallet ⟨3⟩) 5) run ∧
      ¬ CleanThroughout Cluster.ideal (.unconfigured ⟨0⟩ ⟨1⟩ (.wallet ⟨3⟩) 5)
        (.unconfigured ⟨0⟩ ⟨1⟩ (.wallet ⟨3⟩) 5) run := by
  let call : Operation := .configure ⟨0⟩ ⟨1⟩ (.wallet ⟨3⟩)
  let start : World := .unconfigured ⟨0⟩ ⟨1⟩ (.wallet ⟨3⟩) 5
  let left : World := ((chain Cluster.ideal).run (call.program Sdk.ideal) start []).2
  have ended : (chainSystem Cluster.ideal).Ends start (call.program Sdk.ideal) (.ok [⟨0⟩]) left :=
    (chain Cluster.ideal).run_ends_with (by decide +kernel)
  refine ⟨[(call, left)], .cons ended .nil, fun clean => ?_⟩
  have temporary : (left.ledger.data (.generated 0)).isTemporary = true := by decide +kernel
  have changed : left.ledger.data (.generated 0) ≠ start.ledger.data (.generated 0) := by
    decide +kernel
  exact changed (clean.1 (.generated 0) temporary)

end ConfidentialBalances
