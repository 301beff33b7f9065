import ConfidentialBalances.Effect.System
import ConfidentialBalances.Frame

/-!
# The client and the chain

Every library function is a program over the requests a client makes: to a
signer, to the RPC node, to the progress channel and to the event log. The chain
answers them. Each answer may be a failure, and a transaction whose send fails
has not landed. `Submits` is the judgement in which every operation is
specified: what it has landed at any point is the beginning of one of the plans
it may follow, and a value is returned only once a whole plan has landed.
-/

namespace ConfidentialBalances

open Effect

/-- `ClientError` of the RPC client. `get_account` reports a missing account and a request that
failed alike, the latter with its cause. -/
inductive RpcError
  | accountNotFound (key : Pubkey) (cause : Option String)
  | other (message : String)
  deriving DecidableEq, Repr

/-- Why account data could not be read as what was expected. -/
inductive ProgramError
  | invalidAccountData
  | extensionNotFound
  deriving DecidableEq, Repr

/-- The boxed errors that the library returns. -/
inductive ClientError
  /-- An error of the RPC client. -/
  | rpc (error : RpcError)
  /-- An error of an unpacking function. -/
  | program (error : ProgramError)
  /-- An error given by its text. -/
  | message (text : String)
  /-- An error whose text follows a label. -/
  | labelled (label : String) (cause : ClientError)
  deriving DecidableEq, Repr

/-- What a client asks for. -/
inductive Call
  /-- `Signer::try_sign_message` over the key-derivation message. -/
  | signMessage (wallet : Wallet)
  /-- `Keypair::new`. -/
  | newKeypair
  /-- `RpcClient::get_account`. -/
  | getAccount (key : Pubkey)
  /-- `RpcClient::get_balance`. -/
  | getBalance (key : Pubkey)
  /-- `RpcClient::get_minimum_balance_for_rent_exemption`. -/
  | getMinimumBalanceForRentExemption (length : Nat)
  /-- `RpcClient::get_latest_blockhash`. -/
  | getLatestBlockhash
  /-- The signing half of `Transaction::new_signed_with_payer`. -/
  | newSignedWithPayer (transaction : Transaction)
  /-- `RpcClient::send_and_confirm_transaction`. -/
  | sendAndConfirmTransaction (transaction : Transaction)
  /-- A send on the progress channel. -/
  | emit (event : TransferProgress)
  /-- Read the event log. -/
  | readEvents
  /-- Replace the event log. -/
  | writeEvents (events : List EventLog)
  deriving DecidableEq, Repr

/-- What each request is answered with. -/
@[reducible] def Reply : Call → Type
  | .signMessage _ => Except String Unit
  | .newKeypair => Pubkey
  | .getAccount _ => Except RpcError AccountData
  | .getBalance _ => Except RpcError Nat
  | .getMinimumBalanceForRentExemption _ => Except RpcError Nat
  | .getLatestBlockhash => Except RpcError Unit
  | .newSignedWithPayer _ => Except SignerError Transaction
  | .sendAndConfirmTransaction _ => Except RpcError Signature
  | .emit _ => Unit
  | .readEvents => List EventLog
  | .writeEvents _ => Unit

/-- A client program. -/
abbrev Client := Program Reply ClientError

/-! ## What the library does with the replies -/

/-- Make one request. -/
def ask (request : Call) : Client (Reply request) := Program.perform request

/-- The question mark on a reply of the RPC client. -/
def orRpc {α : Type} (reply : Except RpcError α) : Client α :=
  Program.ofExcept (reply.mapError .rpc)

/-- `client.get_account(..)?`. -/
def getAccount (key : Pubkey) : Client AccountData := do
  orRpc (← ask (.getAccount key))

/-- `client.get_balance(..)?`. -/
def getBalance (key : Pubkey) : Client Nat := do
  orRpc (← ask (.getBalance key))

/-- `client.get_minimum_balance_for_rent_exemption(..)?`. -/
def getMinimumBalanceForRentExemption (length : Nat) : Client Nat := do
  orRpc (← ask (.getMinimumBalanceForRentExemption length))

/-- `Keypair::new`. -/
def newKeypair : Client Pubkey := ask .newKeypair

/-- `emit`: best-effort send, nothing without a channel. -/
def emit (sink : ProgressSink) (event : TransferProgress) : Client Unit :=
  match sink with
  | .none => pure ()
  | .broadcast => ask (.emit event)

/-- `keys::derive_confidential_keys`. -/
def deriveConfidentialKeys (signer : Wallet) : Client ConfidentialKeys := do
  match ← ask (.signMessage signer) with
  | .ok () => pure signer.confidentialKeys
  | .error reason => Program.fail (.labelled "derive confidential keys: " (.message reason))

/-- `Transaction::new_signed_with_payer`: panics when the signers are not the required ones. -/
def newSignedWithPayer (transaction : Transaction) : Client Transaction := do
  match ← ask (.newSignedWithPayer transaction) with
  | .ok signed => pure signed
  | .error .keypairPubkeyMismatch =>
    Program.abort "Transaction::sign failed with error KeypairPubkeyMismatch"
  | .error .notEnoughSigners =>
    Program.abort "Transaction::sign failed with error NotEnoughSigners"

/-- `send_tx`: a fresh blockhash, then sign and send. -/
def sendTx (instructions : List Instruction) (signers : List Pubkey) (payer : Pubkey) :
    Client Signature := do
  orRpc (← ask .getLatestBlockhash)
  let transaction ← newSignedWithPayer ⟨instructions, payer, signers⟩
  orRpc (← ask (.sendAndConfirmTransaction transaction))

/-- `StateWithExtensions::<TokenAccount>::unpack`. -/
def unpackTokenAccount (data : AccountData) : Except ClientError TokenAccount :=
  match data with
  | .token account => .ok account
  | _ => .error (.program .invalidAccountData)

/-- `StateWithExtensions::<Mint>::unpack`. -/
def unpackMint (data : AccountData) : Except ClientError Mint :=
  match data with
  | .mint state => .ok state
  | _ => .error (.program .invalidAccountData)

/-- `get_extension`. -/
def getExtension {α : Type} (extension : Option α) : Except ClientError α :=
  match extension with
  | some value => .ok value
  | none => .error (.program .extensionNotFound)

/-- `ok_or` with a text. -/
def okOr {α : Type} (value : Option α) (text : String) : Except ClientError α :=
  match value with
  | some value => .ok value
  | none => .error (.message text)

/-- The confidential extension of the token account at an address, as every operation reads it. -/
def fetchConfidential (account : Pubkey) : Client ConfidentialTransferAccount := do
  let data ← getAccount account
  let token ← Program.ofExcept (unpackTokenAccount data)
  Program.ofExcept (getExtension token.confidential)

/-! ## The chain -/

/-- Everything outside the client. -/
structure World where
  /-- The state of the chain. -/
  ledger : Ledger
  /-- The transactions that landed, oldest first. -/
  landed : List Transaction
  /-- How many keypairs were generated. -/
  generated : Nat
  /-- The progress events sent, oldest first. -/
  progress : List TransferProgress
  /-- The event log, newest first. -/
  events : List EventLog

/-- Whether a request is served. -/
inductive Choice
  /-- The request is served. -/
  | succeed
  /-- The request fails; a failed send has not landed. -/
  | fail (message : String)
  deriving DecidableEq, Repr

instance : Inhabited Choice := ⟨.succeed⟩

/-- `get_account` in a ledger: an address without data and lamports has no account. -/
def Ledger.fetch (ledger : Ledger) (key : Pubkey) : Except RpcError AccountData :=
  if ledger.data key = .empty ∧ ledger.lamports key = 0 then .error (.accountNotFound key none)
  else .ok (ledger.data key)

/-- How the chain answers a request under a choice. A transaction may have any size here: whether
it fits a packet is a question of its own. -/
def chain (cluster : Cluster) : Handler Reply World Choice where
  answer world
    | .signMessage _, .succeed => (.ok (), world)
    | .signMessage _, .fail message => (.error message, world)
    | .newKeypair, _ =>
      (.generated world.generated, { world with generated := world.generated + 1 })
    | .getAccount key, .succeed => (world.ledger.fetch key, world)
    | .getAccount key, .fail message =>
      -- The client puts the text of a missing account before the cause.
      (.error (.accountNotFound key (some message)), world)
    | .getBalance key, .succeed => (.ok (world.ledger.lamports key), world)
    | .getBalance _, .fail message => (.error (.other message), world)
    | .getMinimumBalanceForRentExemption length, .succeed =>
      (.ok (cluster.rentExemption length), world)
    | .getMinimumBalanceForRentExemption _, .fail message => (.error (.other message), world)
    | .getLatestBlockhash, .succeed => (.ok (), world)
    | .getLatestBlockhash, .fail message => (.error (.other message), world)
    | .newSignedWithPayer transaction, _ => (transaction.trySign, world)
    | .sendAndConfirmTransaction transaction, .succeed =>
      match world.ledger.execTransaction cluster transaction with
      | some ledger =>
        (.ok ⟨world.landed.length⟩,
          { world with ledger := ledger, landed := world.landed ++ [transaction] })
      | none => (.error (.other "transaction rejected"), world)
    | .sendAndConfirmTransaction _, .fail message => (.error (.other message), world)
    | .emit event, _ => ((), { world with progress := world.progress ++ [event] })
    | .readEvents, _ => (world.events, world)
    | .writeEvents events, _ => ((), { world with events := events })

/-- The chain as a system: any request may be served or fail. -/
abbrev chainSystem (cluster : Cluster) : System Reply World := (chain cluster).system

section Answers

variable (cluster : Cluster) (world : World)

/-- A transaction that is sent is refused and changes nothing, or it lands. -/
theorem chain_send (transaction : Transaction) (choice : Choice) :
    (∃ message, (chain cluster).answer world (.sendAndConfirmTransaction transaction) choice =
      (Except.error (.other message), world)) ∨
    ∃ ledger, world.ledger.execTransaction cluster transaction = some ledger ∧
      (chain cluster).answer world (.sendAndConfirmTransaction transaction) choice =
        (Except.ok ⟨world.landed.length⟩,
          { world with ledger := ledger, landed := world.landed ++ [transaction] }) := by
  cases choice with
  | fail message => exact .inl ⟨message, rfl⟩
  | succeed =>
    simp only [chain]
    cases world.ledger.execTransaction cluster transaction with
    | none => exact .inl ⟨_, rfl⟩
    | some ledger => exact .inr ⟨ledger, rfl, rfl⟩

/-- Nothing but a transaction that lands changes the ledger. -/
theorem chain_lands (request : Call) (choice : Choice) :
    (((chain cluster).answer world request choice).2.ledger = world.ledger ∧
      ((chain cluster).answer world request choice).2.landed = world.landed) ∨
    ∃ transaction, request = .sendAndConfirmTransaction transaction ∧
      world.ledger.execTransaction cluster transaction =
        some ((chain cluster).answer world request choice).2.ledger := by
  cases request with
  | sendAndConfirmTransaction transaction =>
    rcases chain_send cluster world transaction choice with ⟨message, refused⟩ |
      ⟨ledger, executed, lands⟩
    · rw [refused]
      exact .inl ⟨rfl, rfl⟩
    · rw [lands]
      exact .inr ⟨transaction, rfl, executed⟩
  | _ => cases choice <;> exact .inl ⟨rfl, rfl⟩

end Answers

end ConfidentialBalances
