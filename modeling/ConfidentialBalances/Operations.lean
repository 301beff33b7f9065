import ConfidentialBalances.ApplyPending
import ConfidentialBalances.Configure
import ConfidentialBalances.Deposit
import ConfidentialBalances.TransferProtocol
import ConfidentialBalances.Withdraw

/-!
# The library's operations

The five operations under one type, so that sequences of them can be spoken of.
-/

namespace ConfidentialBalances

open Effect

/-- One call of the library, with its arguments. -/
inductive Operation
  /-- `configure_account_for_confidential_transfers`. -/
  | configure (payer authority : Wallet) (mint : Pubkey)
  /-- `deposit_to_confidential`. -/
  | deposit (payer authority : Wallet) (mint : Pubkey) (amount decimals : Nat)
  /-- `apply_pending_balance`. -/
  | applyPending (payer authority : Wallet) (mint : Pubkey)
  /-- `withdraw_from_confidential`. -/
  | withdraw (payer authority : Wallet) (mint : Pubkey) (amount decimals : Nat)
  /-- `transfer_confidential_with_progress`. -/
  | transfer (payer sender : Wallet) (mint recipient : Pubkey) (amount : Nat)
      (progress : ProgressSink)
  deriving DecidableEq, Repr

namespace Operation

/-- The fee payer. -/
def payer : Operation → Wallet
  | .configure payer _ _ => payer
  | .deposit payer _ _ _ _ => payer
  | .applyPending payer _ _ => payer
  | .withdraw payer _ _ _ _ => payer
  | .transfer payer _ _ _ _ _ => payer

/-- The owner whose account it acts on. -/
def owner : Operation → Wallet
  | .configure _ authority _ => authority
  | .deposit _ authority _ _ _ => authority
  | .applyPending _ authority _ => authority
  | .withdraw _ authority _ _ _ => authority
  | .transfer _ sender _ _ _ _ => sender

/-- The mint. -/
def mint : Operation → Pubkey
  | .configure _ _ mint => mint
  | .deposit _ _ mint _ _ => mint
  | .applyPending _ _ mint => mint
  | .withdraw _ _ mint _ _ => mint
  | .transfer _ _ mint _ _ _ => mint

/-- The owner's token account. -/
def account (operation : Operation) : Pubkey :=
  getAssociatedTokenAddress operation.owner.pubkey operation.mint

/-- How many keypairs a completed call generates. -/
def keypairs : Operation → Nat
  | .configure _ _ _ => 1
  | .deposit _ _ _ _ _ => 0
  | .applyPending _ _ _ => 0
  | .withdraw _ _ _ _ _ => 2
  | .transfer _ _ _ _ _ _ => 4

/-- A call that returns one signature, as one that returns a list. -/
def single (program : Client Signature) : Client (List Signature) := do
  let sig ← program
  pure [sig]

/-- The program of a call. -/
def program (sdk : Sdk) : Operation → Client (List Signature)
  | .configure payer authority mint =>
    single (configureAccountForConfidentialTransfers sdk payer authority mint)
  | .deposit payer authority mint amount decimals =>
    single (depositToConfidential payer authority mint amount decimals)
  | .applyPending payer authority mint => single (applyPendingBalance payer authority mint)
  | .withdraw payer authority mint amount decimals =>
    single (withdrawFromConfidential sdk payer authority mint amount decimals)
  | .transfer payer sender mint recipient amount progress =>
    transferConfidentialWithProgress sdk payer sender mint recipient amount progress

/-- The transactions a call may submit from a world. -/
def Plans (sdk : Sdk) (cluster : Cluster) (world : World) : Operation → List Transaction → Prop
  | .configure payer authority mint, plan =>
    ConfigurePlan sdk cluster payer authority mint world plan
  | .deposit payer authority mint amount decimals, plan =>
    plan = [depositTransaction payer authority mint amount decimals]
  | .applyPending payer authority mint, plan => ApplyPlan payer authority mint world plan
  | .withdraw payer authority mint amount decimals, plan =>
    ∃ run, WithdrawPlan sdk payer authority mint amount decimals world run ∧
      plan = run.transactions sdk cluster
  | .transfer payer sender mint recipient amount _, plan =>
    ∃ run, TransferPlan sdk payer sender mint recipient amount world run ∧
      plan = run.transactions sdk cluster

/-- Wrapping the signature changes nothing about what is submitted. -/
theorem single_submits {cluster : Cluster} {plans : List Transaction → Prop}
    {ok : List Transaction → Signature → World → Prop} {program : Client Signature} {world : World}
    (submits : Submits cluster plans ok program world) :
    Submits cluster plans (fun plan sigs world' => ∃ sig, sigs = [sig] ∧ ok plan sig world')
      (single program) world := by
  refine System.Meets.bind submits ?_ (fun _ _ _ post => post) (fun _ _ _ post => post)
  rintro sig world' holds ⟨plan, planned, landed, done⟩
  exact ⟨holds, plan, planned, landed, sig, rfl, done⟩

/-- Every call lands beginnings of its plans, and a value means a whole plan and all its
keypairs. -/
theorem submits (sdk : Sdk) (cluster : Cluster) (operation : Operation) (world : World) :
    Submits cluster (operation.Plans sdk cluster world)
      (fun _ _ world' => world'.generated = world.generated + operation.keypairs)
      (operation.program sdk) world := by
  cases operation with
  | configure payer authority mint =>
    refine (single_submits (configureAccountForConfidentialTransfers_submits sdk cluster payer
      authority mint world)).weaken (fun _ planned => planned) ?_
    rintro plan sigs world' - ⟨sig, -, -, generated⟩
    exact generated
  | deposit payer authority mint amount decimals =>
    refine (single_submits (depositToConfidential_submits cluster payer authority mint amount
      decimals world)).weaken (fun _ planned => planned) ?_
    rintro plan sigs world' - ⟨sig, -, -, generated⟩
    exact generated
  | applyPending payer authority mint =>
    refine (single_submits (applyPendingBalance_submits cluster payer authority mint
      world)).weaken (fun _ planned => planned) ?_
    rintro plan sigs world' - ⟨sig, -, -, generated⟩
    exact generated
  | withdraw payer authority mint amount decimals =>
    refine (single_submits (withdrawFromConfidential_submits sdk cluster payer authority mint
      amount decimals world)).weaken (fun _ planned => planned) ?_
    rintro plan sigs world' - ⟨sig, -, -, generated⟩
    exact generated
  | transfer payer sender mint recipient amount progress =>
    refine (transferConfidentialWithProgress_submits sdk cluster payer sender mint recipient
      amount progress world).weaken (fun _ planned => planned) ?_
    rintro plan sigs world' - ⟨run, -, -, -, -, generated⟩
    exact generated

/-- A call with the ideal proof system, on a chain that serves every request. -/
def ideal (operation : Operation) (world : World) : Outcome ClientError (List Signature) × World :=
  (chain Cluster.ideal).run (operation.program Sdk.ideal) world []

/-- The ideal run of a call is one of the call's runs. -/
theorem ideal_ends {operation : Operation} {world : World}
    {outcome : Outcome ClientError (List Signature)}
    (computed : (operation.ideal world).1 = outcome) :
    (chainSystem Cluster.ideal).Ends world (operation.program Sdk.ideal) outcome
      (operation.ideal world).2 :=
  (chain Cluster.ideal).run_ends_with computed

/-- Several calls, one after the other: how each of them ended. -/
def idealOutcomes : List Operation → World → List (Outcome ClientError (List Signature))
  | [], _ => []
  | operation :: rest, world =>
    (operation.ideal world).1 :: idealOutcomes rest (operation.ideal world).2

/-- Several calls, one after the other: where they leave the world. -/
def idealWorld (operations : List Operation) (world : World) : World :=
  operations.foldl (fun world operation => (operation.ideal world).2) world

end Operation

end ConfidentialBalances
