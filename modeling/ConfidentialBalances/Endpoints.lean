import ConfidentialBalances.Effect.Interleaving
import ConfidentialBalances.RecentEvents
import Mathlib.Data.Fintype.Defs

/-!
# The server's endpoints

Every route of `demo-server` that answers with a body, as one program over the
chain, next to the calls of the library that anyone else makes. `GET
/demo/events` answers with a stream instead and is modelled with its
subscribers.
-/

namespace ConfidentialBalances

open Effect

/-- `HealthResponse`. -/
structure HealthResponse where
  /-- The server answered. -/
  ok : Bool
  /-- A blockhash could be fetched. -/
  validatorReachable : Bool
  /-- The mint. -/
  mint : Pubkey
  /-- The port that the server listens on. -/
  port : Nat
  /-- The RPC node. -/
  rpcUrl : String
  deriving DecidableEq, Repr

/-- `health`: never an error, whether or not the node answers. -/
def health (s : AppState) (port : Nat) : Client HealthResponse := do
  let blockhash ← ask .getLatestBlockhash
  let validatorReachable := match blockhash with
    | .ok _ => true
    | .error _ => false
  pure ⟨true, validatorReachable, s.mint, port, s.cfg.rpcUrl⟩

/-- A route of the server, with the body it is called with. -/
inductive Endpoint
  /-- `GET /demo/health`. -/
  | health
  /-- `GET /demo/state`. -/
  | state
  /-- One of the three `POST` routes. -/
  | action (request : Request)
  deriving DecidableEq, Repr

/-- What runs against the chain: a request to the server, or a call of the library by anyone. -/
inductive Job
  /-- A request. -/
  | endpoint (endpoint : Endpoint)
  /-- A call. -/
  | operation (operation : Operation)

/-- What a job returns. -/
inductive Answer
  /-- The body of `GET /demo/health`. -/
  | health (response : HealthResponse)
  /-- The body of `GET /demo/state`. -/
  | state (state : LedgerState)
  /-- The body of a `POST` route. -/
  | action (response : ActionResponse)
  /-- The signatures that a call returns. -/
  | signatures (sigs : List Signature)

namespace Job

variable (sdk : Sdk) (s : AppState) (port : Nat)

/-- The program of a job. -/
def program : Job → Client Answer
  | .endpoint .health => do
    let response ← ConfidentialBalances.health s port
    pure (.health response)
  | .endpoint .state => do
    let state ← stateHandler s
    pure (.state state)
  | .endpoint (.action request) => do
    let response ← request.program sdk s
    pure (.action response)
  | .operation call => do
    let sigs ← call.program sdk
    pure (.signatures sigs)

end Job

/-- The request replaces the event log. -/
def Call.writesEvents : Call → Bool
  | .writeEvents _ => true
  | _ => false

/-- The request reads or replaces the event log. -/
def Call.usesEvents : Call → Bool
  | .readEvents => true
  | request => request.writesEvents

/-- The event log is locked against a job while another one stands between reading it for an
insertion and writing it back: `log_event` holds the write lock over both. -/
def LogLocked {ι : Type} (pool : ι → Client Answer) (thread : ι) : Prop :=
  (pool thread).request?.any Call.usesEvents = true ∧
    ∃ other, other ≠ thread ∧ (pool other).request?.any Call.writesEvents = true

instance {ι : Type} [Fintype ι] [DecidableEq ι] (pool : ι → Client Answer) (thread : ι) :
    Decidable (LogLocked pool thread) :=
  inferInstanceAs (Decidable (_ ∧ _))

end ConfidentialBalances
