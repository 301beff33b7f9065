import ConfidentialBalances.TemporaryAccounts

/-!
# Rent

Wherever a call stops, the rent of its temporary accounts is within the caller's
reach: each of them is initialised with an authority whose key the caller keeps,
one close instruction returns all its lamports to the payer, and until then no
lamports have gone anywhere but to fees and to the extended token account.
-/

namespace ConfidentialBalances

open Effect

namespace Operation

variable {sdk : Sdk} {cluster : Cluster} {operation : Operation} {world world' : World}
variable {done : List Transaction}

/-- Wherever a call stands, what has landed since its start keeps to its own accounts. -/
theorem reached_contained {program' : Client (List Signature)}
    (run : (chainSystem cluster).Reaches world (operation.program sdk) world' program') :
    ∃ done, Lands cluster world world' done ∧
      ∀ transaction ∈ done, operation.Contained world transaction := by
  have partly := ((operation.submits sdk cluster world).reaches run).invariant
  rcases partly with quiet | ⟨done, rest, planned, landed⟩
  · exact ⟨[], quiet, by simp⟩
  · refine ⟨done, landed, fun transaction member => ?_⟩
    exact contained sdk cluster planned transaction (List.mem_append_left rest member)

/-- Contained transactions leave temporary accounts settled. -/
theorem settled_of_contained (landed : Lands cluster world world' done)
    (contained : ∀ transaction ∈ done, operation.Contained world transaction) :
    Settled operation.payer operation.owner (operation.temporaries world) world.ledger.data
      world'.ledger.data := by
  refine Ledger.execTransactions_preserves (fun ledger =>
    Settled operation.payer operation.owner (operation.temporaries world) world.ledger.data
      ledger.data) ?_ landed.ledger fun key _ => .inl rfl
  intro transaction member before after ran settled
  obtain ⟨-, -, executed⟩ := Ledger.execTransaction_some ran
  exact (contained transaction member).tidy.settled executed settled

/-- Contained transactions write nothing but the call's temporary accounts and associated token
accounts. -/
theorem data_of_contained (landed : Lands cluster world world' done)
    (contained : ∀ transaction ∈ done, operation.Contained world transaction) {key : Pubkey}
    (foreign : key ∉ operation.temporaries world)
    (unassociated : ∀ owner mint, key ≠ getAssociatedTokenAddress owner mint) :
    world'.ledger.data key = world.ledger.data key := by
  refine Ledger.execTransactions_data landed.ledger ?_
  intro transaction member instruction inside written
  rcases (contained transaction member).writes instruction inside key written with
      own | ⟨owner, mint, same⟩
  · exact foreign own
  · exact unassociated owner mint same

/-- The lamports at stake in a call: the payer's, the token account's and those of the call's
temporary accounts. -/
def stake (operation : Operation) (world : World) (ledger : Ledger) : Nat :=
  ledger.lamports operation.payer.pubkey + ledger.lamports operation.account +
    ((operation.temporaries world).map ledger.lamports).sum

/-- The addresses at stake in a call. -/
def parties (operation : Operation) (world : World) : Finset Pubkey :=
  insert operation.payer.pubkey (insert operation.account (operation.temporaries world).toFinset)

/-- The stake is what the parties hold: they are distinct addresses. -/
theorem held_parties (operation : Operation) (world : World) (ledger : Ledger) :
    ledger.held (operation.parties world) = operation.stake world ledger := by
  have distinct : (operation.temporaries world).Nodup := by
    refine List.Nodup.map ?_ List.nodup_range
    intro left right same
    simpa using same
  have account : operation.account ∉ (operation.temporaries world).toFinset := by
    simp [temporaries, Operation.account, getAssociatedTokenAddress]
  have payer : operation.payer.pubkey ∉
      insert operation.account (operation.temporaries world).toFinset := by
    simp [temporaries, Operation.account, getAssociatedTokenAddress, Wallet.pubkey]
  rw [Ledger.held, parties, Finset.sum_insert payer, Finset.sum_insert account,
    List.sum_toFinset _ distinct, stake, Nat.add_assoc]

/-- Contained transactions take nothing but their fees from the stake. -/
theorem stake_of_contained (landed : Lands cluster world world' done)
    (contained : ∀ transaction ∈ done, operation.Contained world transaction) :
    operation.stake world world'.ledger + Ledger.fees cluster done =
      operation.stake world world.ledger := by
  rw [← held_parties, ← held_parties]
  refine Ledger.execTransactions_held landed.ledger ?_
  intro transaction member key named
  simp only [parties, Finset.mem_insert, List.mem_toFinset]
  rcases (contained transaction member).lamports key named with payer | own | ⟨-, account⟩
  · exact .inl payer
  · exact .inr (.inr own)
  · exact .inr (.inl account)

/-- Contained transactions move no other lamports. -/
theorem lamports_of_contained (landed : Lands cluster world world' done)
    (contained : ∀ transaction ∈ done, operation.Contained world transaction) {key : Pubkey}
    (notPayer : key ≠ operation.payer.pubkey) (foreign : key ∉ operation.temporaries world)
    (notAccount : key ≠ operation.account) :
    world'.ledger.lamports key = world.ledger.lamports key := by
  refine Ledger.execTransactions_lamports_other landed.ledger ?_
  intro transaction member named
  rcases (contained transaction member).lamports key named with payer | own | ⟨-, account⟩
  · exact notPayer payer
  · exact foreign own
  · exact notAccount account

end Operation

/-! ## Refunds -/

/-- One instruction, signed by the payer or the owner, closes the account and hands all its
lamports to the payer. -/
def Refundable (cluster : Cluster) (payer owner : Wallet) (ledger : Ledger) (key : Pubkey) :
    Prop :=
  ∃ instruction ledger', (∀ signer ∈ instruction.signers,
      signer = payer.pubkey ∨ signer = owner.pubkey) ∧
    ledger.execInstruction cluster instruction = some ledger' ∧ ledger'.Closed key ∧
    ledger'.lamports payer.pubkey = ledger.lamports payer.pubkey + ledger.lamports key

/-- Lamports moved between two different addresses arrive. -/
theorem Ledger.moveLamports_destination {ledger : Ledger} {source destination : Pubkey}
    {amount : Nat} (apart : destination ≠ source) :
    (ledger.moveLamports source destination amount).lamports destination =
      ledger.lamports destination + amount := by
  simp [Ledger.moveLamports, apart]

/-- A recoverable account is refundable. -/
theorem Recoverable.refundable {cluster : Cluster} {payer owner : Wallet} {ledger : Ledger}
    {key : Pubkey} (recoverable : Recoverable payer owner (ledger.data key))
    (apart : payer.pubkey ≠ key) : Refundable cluster payer owner ledger key := by
  rcases recoverable with ⟨proof, context, data⟩ | ⟨bytes, data⟩
  · have closes : ledger.closeContextState ⟨key, owner.pubkey⟩ payer.pubkey =
        some ((ledger.moveLamports key payer.pubkey (ledger.lamports key)).setData key .empty) := by
      simp [Ledger.closeContextState, data, apart]
    refine ⟨.closeContextState ⟨key, owner.pubkey⟩ payer.pubkey, _, ?_, closes,
      Ledger.closeContextState_closed closes, Ledger.moveLamports_destination apart⟩
    simp [Instruction.signers]
  · have closes : ledger.recordCloseAccount key payer.pubkey payer.pubkey =
        some ((ledger.moveLamports key payer.pubkey (ledger.lamports key)).setData key .empty) := by
      simp [Ledger.recordCloseAccount, data, apart]
    refine ⟨.recordCloseAccount key payer.pubkey payer.pubkey, _, ?_, closes,
      Ledger.recordCloseAccount_closed closes, Ledger.moveLamports_destination apart⟩
    simp [Instruction.signers]

/-- Configuring takes nothing from the token account. -/
theorem configureTransaction_account {sdk : Sdk} {cluster : Cluster} {payer authority : Wallet}
    {mint : Pubkey} {world : World} {proofData : List UInt8} {ledger ledger' : Ledger}
    (landed : ledger.execTransaction cluster
      (configureTransaction sdk cluster payer authority mint world proofData) = some ledger') :
    ledger.lamports (getAssociatedTokenAddress authority.pubkey mint) ≤
      ledger'.lamports (getAssociatedTokenAddress authority.pubkey mint) := by
  obtain ⟨extended, verified, reallocate, create, configure⟩ := configureTransaction_some landed
  obtain ⟨token, -, -, -, rfl⟩ := Ledger.reallocate_some reallocate
  obtain ⟨account, state, settings, pubkey, closer, proof, -, -, -, -, -, -, -, -, rfl⟩ :=
    Ledger.configureAccount_some configure
  have kept := Ledger.execInstructions_preserves (fun now =>
    ledger.lamports (getAssociatedTokenAddress authority.pubkey mint) ≤
      now.lamports (getAssociatedTokenAddress authority.pubkey mint)) ?_ create ?_
  · exact kept
  · intro instruction member before after executed kept
    have apart : getAssociatedTokenAddress authority.pubkey mint ∉ instruction.lamportKeys := by
      simp only [createAndVerify, List.mem_cons, List.not_mem_nil, or_false] at member
      rcases member with rfl | rfl <;>
        simp [Instruction.lamportKeys, getAssociatedTokenAddress, Wallet.pubkey]
    rwa [Ledger.execInstruction_lamports_other executed apart]
  · simp [Ledger.moveLamports, Ledger.chargeFee, Wallet.pubkey, getAssociatedTokenAddress]

/-- The token account a call acts on loses no lamports, and only configuring adds to them. -/
theorem Operation.account_lamports {sdk : Sdk} {cluster : Cluster} {operation : Operation}
    {world world' : World} {program' : Client (List Signature)}
    (run : (chainSystem cluster).Reaches world (operation.program sdk) world' program') :
    world.ledger.lamports operation.account ≤ world'.ledger.lamports operation.account ∧
      ((∀ payer authority mint, operation ≠ .configure payer authority mint) →
        world'.ledger.lamports operation.account = world.ledger.lamports operation.account) := by
  by_cases configures : ∃ payer authority mint, operation = .configure payer authority mint
  · obtain ⟨payer, authority, mint, rfl⟩ := configures
    refine ⟨?_, fun never => absurd rfl (never payer authority mint)⟩
    have partly := (((Operation.configure payer authority mint).submits sdk cluster
      world).reaches run).invariant
    rcases partly with quiet | ⟨done, rest, ⟨proofData, -, plan⟩, landed⟩
    · rw [quiet.same_ledger]
    · refine Ledger.execTransactions_preserves (fun now =>
        world.ledger.lamports (getAssociatedTokenAddress authority.pubkey mint) ≤
          now.lamports (getAssociatedTokenAddress authority.pubkey mint)) ?_ landed.ledger le_rfl
      intro transaction member before after ran kept
      have planned := List.mem_append_left rest member
      rw [plan, List.mem_singleton] at planned
      subst planned
      exact kept.trans (configureTransaction_account ran)
  · obtain ⟨done, landed, contained⟩ := reached_contained run
    have same : world'.ledger.lamports operation.account =
        world.ledger.lamports operation.account := by
      refine Ledger.execTransactions_lamports_other landed.ledger ?_
      intro transaction member named
      rcases (contained transaction member).lamports operation.account named with
          payer | own | ⟨configuring, -⟩
      · simp [Operation.account, getAssociatedTokenAddress, Wallet.pubkey] at payer
      · simp [Operation.account, getAssociatedTokenAddress, temporaries] at own
      · exact configures configuring
    exact ⟨same.ge, fun _ => same⟩

/-- At every point of every call, whatever has failed: each temporary account that the call made
and that is left is initialised and refundable to the payer, and the stake has paid nothing but the
fees of what landed. -/
theorem Operation.rent_recoverable (sdk : Sdk) (cluster : Cluster) (operation : Operation)
    (world world' : World) (program' : Client (List Signature))
    (run : (chainSystem cluster).Reaches world (operation.program sdk) world' program') :
    (∀ key, (world'.ledger.data key).isTemporary = true →
      world'.ledger.data key ≠ world.ledger.data key →
        key ∈ operation.temporaries world ∧
        Recoverable operation.payer operation.owner (world'.ledger.data key) ∧
        Refundable cluster operation.payer operation.owner world'.ledger key) ∧
    (∃ done, world'.landed = world.landed ++ done ∧
      operation.stake world world'.ledger + Ledger.fees cluster done =
        operation.stake world world.ledger) ∧
    world.ledger.lamports operation.account ≤ world'.ledger.lamports operation.account ∧
    ((∀ payer authority mint, operation ≠ .configure payer authority mint) →
      world'.ledger.lamports operation.account = world.ledger.lamports operation.account) := by
  obtain ⟨done, landed, contained⟩ := reached_contained run
  have settled := settled_of_contained landed contained
  refine ⟨fun key temporary changed => ?_,
    ⟨done, landed.landed, stake_of_contained landed contained⟩, account_lamports run⟩
  rcases settled key temporary with same | ⟨own, recoverable⟩
  · exact absurd same changed
  · refine ⟨own, recoverable, recoverable.refundable ?_⟩
    rintro rfl
    simp [temporaries, Wallet.pubkey] at own

/-- A transfer whose second proof transaction is not sent leaves the first context refundable. -/
theorem Operation.rent_recoverable_cut :
    Refundable Cluster.ideal ⟨0⟩ ⟨1⟩ ((chain Cluster.ideal).run
      ((Operation.transfer ⟨0⟩ ⟨1⟩ (.wallet ⟨3⟩) (.wallet ⟨2⟩) 2 .none).program Sdk.ideal)
      (.funded ⟨0⟩ ⟨1⟩ ⟨2⟩ (.wallet ⟨3⟩) 5)
      (List.replicate 13 .succeed ++ [.fail "timed out"])).2.ledger (.generated 0) :=
  ((Operation.rent_recoverable Sdk.ideal Cluster.ideal
    (.transfer ⟨0⟩ ⟨1⟩ (.wallet ⟨3⟩) (.wallet ⟨2⟩) 2 .none) _ _ _
    ((chain Cluster.ideal).run_ends _ _ _)).1 (.generated 0) (by decide +kernel)
      (by decide +kernel)).2.2

end ConfidentialBalances
