import ConfidentialBalances.Operations

/-!
# The demo server

The handlers of `demo-server`: what each request asks of the chain, of the
progress channel and of the auditor's event log. Amounts cross the interface in
UI units, kept here as exact rationals.
-/

namespace ConfidentialBalances

open Effect

/-- `RECENT_EVENTS_KEEP`. -/
def recentEventsKeep : Nat := 8

/-- `Config`, as far as a handler reads it. -/
structure Config where
  /-- The RPC node. -/
  rpcUrl : String
  /-- The decimals of the demo's mint. -/
  mintDecimals : Nat
  /-- What the sender is topped up to. -/
  initialDepositUi : ℚ
  /-- What a transfer moves when its request does not say. -/
  transferAmountUi : ℚ
  deriving DecidableEq, Repr

/-- `Keys`: the five keypairs of the demo. -/
structure Keys where
  /-- The fee payer, which is also the mint's authority. -/
  payer : Wallet
  /-- The mint's own keypair. -/
  mint : Wallet
  /-- The owner that transfers. -/
  sender : Wallet
  /-- The owner that receives. -/
  receiver : Wallet
  /-- The wallet of the auditor. -/
  auditorAuthority : Wallet
  deriving DecidableEq, Repr

/-- `AppState`: what the handlers share, next to the chain and the event log. -/
structure AppState where
  /-- The configuration. -/
  cfg : Config
  /-- The keypairs. -/
  keys : Keys
  deriving DecidableEq, Repr

namespace AppState

variable (s : AppState)

/-- The mint. -/
def mint : Pubkey := s.keys.mint.pubkey

/-- The auditor's ElGamal keypair, which `main` derives from the auditor's wallet. -/
def auditorElgamal : ElGamalKeypair := s.keys.auditorAuthority.confidentialKeys.elgamal

/-- The token account of one of the demo's owners. -/
def tokenAccount (owner : Wallet) : Pubkey := getAssociatedTokenAddress owner.pubkey s.mint

end AppState

/-! ## Responses -/

/-- `AccountView`. The ciphertexts stand for their short fingerprints. -/
structure AccountView where
  /-- The owner. -/
  owner : Pubkey
  /-- Its token account. -/
  tokenAccount : Pubkey
  /-- The public balance. -/
  publicUi : ℚ
  /-- The low pending ciphertext. -/
  pendingCt : Option ElGamalCiphertext
  /-- The pending balance. -/
  pendingUi : ℚ
  /-- The available ciphertext. -/
  availableCt : Option ElGamalCiphertext
  /-- The available balance, as the owner last wrote it. -/
  availableUi : ℚ
  deriving DecidableEq, Repr

/-- `AuditorView`. -/
structure AuditorView where
  /-- The auditor's wallet. -/
  authority : Pubkey
  /-- Its ElGamal key. -/
  elgamalPubkey : ElGamalPubkey
  /-- The event log, newest first. -/
  recentEvents : List EventLog
  deriving DecidableEq, Repr

/-- `LedgerState`. -/
structure LedgerState where
  /-- The mint. -/
  mint : Pubkey
  /-- Its decimals. -/
  decimals : Nat
  /-- The sender's account. -/
  sender : AccountView
  /-- The receiver's account. -/
  receiver : AccountView
  /-- What the auditor sees. -/
  auditor : AuditorView
  deriving DecidableEq, Repr

/-- `ActionResponse`. -/
structure ActionResponse where
  /-- The request succeeded. -/
  ok : Bool
  /-- What it landed. -/
  signatures : List Signature
  /-- The ledger afterwards. -/
  state : LedgerState
  deriving DecidableEq, Repr

/-! ## Texts -/

/-- An address is printed as the model names it. -/
instance : ToString Pubkey := ⟨reprStr⟩

/-- A balance in SOL. -/
def solOfLamports (lamports : Nat) : ℚ := lamports / 1000000000

/-- A number with so many decimal places, as `{:.6}` prints it with six. -/
def fixedText (places : Nat) (number : ℚ) : String :=
  let scaled := (|number| * 10 ^ places + 1 / 2).floor.toNat
  let fraction := toString (scaled % 10 ^ places)
  let zeros := String.ofList (List.replicate (places - fraction.length) '0')
  let sign := if number < 0 then "-" else ""
  s!"{sign}{scaled / 10 ^ places}.{zeros}{fraction}"

/-- A number as `{}` prints it: with the decimal places that it has, and no point where it is whole.
The amounts that a request, the environment or the chain gives are decimal numbers. -/
def floatText (number : ℚ) : String :=
  match (List.range 18).find? fun places => decide ((number * 10 ^ places).den = 1) with
  | some 0 => toString number.num
  | some places => fixedText places number
  | none => fixedText 17 number

example : floatText (2 / 100) = "0.02" ∧ floatText 250000 = "250000" ∧
    fixedText 6 (solOfLamports 9999999) = "0.010000" := by decide +kernel

/-- The text of an RPC error. -/
def RpcError.text : RpcError → String
  | .accountNotFound key none => s!"AccountNotFound: pubkey={key}"
  | .accountNotFound key (some cause) => s!"AccountNotFound: pubkey={key}: {cause}"
  | .other message => message

/-- The test `e.to_string().contains("AccountNotFound")`. -/
def RpcError.saysNotFound : RpcError → Bool
  | .accountNotFound _ _ => true
  | .other message => decide ("AccountNotFound".toList <:+: message.toList)

/-- The text of an account that was not found says so, with a cause and without one. -/
theorem RpcError.saysNotFound_iff (error : RpcError) :
    error.saysNotFound = true ↔ "AccountNotFound".toList <:+: error.text.toList := by
  have starts : "AccountNotFound".toList <+: "AccountNotFound: pubkey=".toList := by decide
  have begun (rest : String) : "AccountNotFound".toList <:+:
      ("AccountNotFound: pubkey=" ++ rest).toList := by
    rw [String.toList_append]
    exact (starts.trans (List.prefix_append _ _)).isInfix
  cases error with
  | accountNotFound key cause =>
    refine iff_of_true rfl ?_
    cases cause with
    | none =>
      have text : (accountNotFound key none).text =
          "AccountNotFound: pubkey=" ++ toString key := rfl
      rw [text]
      exact begun (toString key)
    | some message =>
      have text : (accountNotFound key (some message)).text =
          "AccountNotFound: pubkey=" ++ toString key ++ ": " ++ message := rfl
      rw [text, String.append_assoc, String.append_assoc]
      exact begun (toString key ++ (": " ++ message))
  | other message => exact decide_eq_true_iff

/-- The text of an unpacking error. -/
def ProgramError.text : ProgramError → String
  | .invalidAccountData => "InvalidAccountData"
  | .extensionNotFound => "ExtensionNotFound"

/-- `to_string` of an error. -/
def ClientError.text : ClientError → String
  | .rpc error => error.text
  | .program error => error.text
  | .message text => text
  | .labelled label cause => label ++ cause.text

/-- Put a label before the text of a computation's error. -/
def withLabel {α : Type} (label : String) (result : Except ClientError α) : Client α :=
  Program.ofExcept (result.mapError (.labelled label))

/-! ## Helpers -/

/-- `ui_to_base`: rounds half away from zero. The cast to `u64` saturates at both ends. -/
def uiToBase (ui : ℚ) (decimals : Nat) : Nat :=
  min (ui * 10 ^ decimals + 1 / 2).floor.toNat (2 ^ 64 - 1)

/-- `base_to_ui`. -/
def baseToUi (base decimals : Nat) : ℚ := base / 10 ^ decimals

/-- `log_event`: insert at the front, then truncate. The log stays locked in between. -/
def logEvent (kind : String) (amountUi : ℚ) (sig : Signature) : Client Unit := do
  let log ← ask .readEvents
  ask (.writeEvents ((⟨sig, kind, amountUi⟩ :: log).take recentEventsKeep))

/-- `run_blocking`: a panic inside is an error of the join. -/
def runBlocking {α : Type} (program : Client α) : Client α :=
  program.catchPanic fun message => .labelled "blocking join: " (.message message)

/-! ## Mint creation and account configuration -/

/-- `mint_exists`. -/
def mintExists (mint : Pubkey) : Client Bool := do
  match ← ask (.getAccount mint) with
  | .ok _ => pure true
  | .error error =>
    if error.saysNotFound then pure false
    else Program.fail (.labelled "rpc get_account failed: " (.rpc error))

/-- `ata_is_configured`. -/
def ataIsConfigured (ata : Pubkey) : Client Bool := do
  match ← ask (.getAccount ata) with
  | .ok data =>
    let account ← withLabel "ATA exists but is not Token-2022: " (unpackTokenAccount data)
    pure account.confidential.isSome
  | .error error =>
    if error.saysNotFound then pure false
    else Program.fail (.labelled "rpc get_account failed: " (.rpc error))

section Handlers

variable (sdk : Sdk) (s : AppState)

/-- `verify_mint_matches`. -/
def verifyMintMatches : Client Unit := do
  let data ← getAccount s.mint
  let state ← withLabel "mint exists but is not a valid Token-2022 mint: " (unpackMint data)
  let settings ← withLabel "mint missing ConfidentialTransferMint extension: "
    (getExtension state.confidential)
  match settings.auditorElgamalPubkey with
  | some actual =>
    if actual = s.auditorElgamal.pubkey then pure ()
    else Program.fail (.message ("mint already exists but auditor pubkey does not match the " ++
      "auditor keypair in .env. rotate MINT_KEYPAIR or AUDITOR_KEYPAIR."))
  | none => Program.fail (.message
      "mint already exists with no auditor configured; rotate MINT_KEYPAIR.")

/-- The instructions that create the demo's mint. -/
def createMintInstructions (rent : Nat) : List Instruction :=
  [.createAccount s.keys.payer.pubkey s.mint rent sdk.mintAccountLength .splToken2022,
    .initializeConfidentialTransferMint s.mint (some s.keys.payer.pubkey) true
      (some s.auditorElgamal.pubkey),
    .initializeMint s.mint s.keys.payer.pubkey s.cfg.mintDecimals]

/-- `create_confidential_mint`. -/
def createConfidentialMint : Client Signature := do
  let rent ← getMinimumBalanceForRentExemption sdk.mintAccountLength
  sendTx (createMintInstructions sdk s rent) [s.keys.payer.pubkey, s.mint] s.keys.payer.pubkey

/-- `ensure_confidential_account`. -/
def ensureConfidentialAccount (authority : Wallet) : Client (List Signature) := do
  if !(← ataIsConfigured (s.tokenAccount authority)) then
    -- 1. Idempotent ATA create.
    let created ← sendTx [.createAssociatedTokenAccountIdempotent s.keys.payer.pubkey
      authority.pubkey s.mint] [s.keys.payer.pubkey] s.keys.payer.pubkey
    -- 2. Configure for confidential transfers.
    let configured ← (configureAccountForConfidentialTransfers sdk s.keys.payer authority
      s.mint).mapError (.labelled "configure_account failed: ")
    pure [created, configured]
  else pure []

/-- `require_initialized`. -/
def requireInitialized : Client Unit := do
  if !(← mintExists s.mint) then
    Program.fail (.message (s!"mint {s.mint} does not exist on chain — " ++
      "POST /demo/init first (or press I on slide 12)"))
  else if !(← ataIsConfigured (s.tokenAccount s.keys.sender)) then
    Program.fail (.message (s!"sender token account {s.tokenAccount s.keys.sender} not " ++
      "configured for confidential transfers — POST /demo/init first"))
  else if !(← ataIsConfigured (s.tokenAccount s.keys.receiver)) then
    Program.fail (.message (s!"receiver token account {s.tokenAccount s.keys.receiver} not " ++
      "configured for confidential transfers — POST /demo/init first"))
  else pure ()

/-- The instructions that mint to the sender. -/
def mintInstructions (amountBase : Nat) : List Instruction :=
  [.mintTo s.mint (s.tokenAccount s.keys.sender) s.keys.payer.pubkey [] amountBase]

/-- `mint_to_sender`. -/
def mintToSender (amountBase : Nat) : Client Signature :=
  sendTx (mintInstructions s amountBase) [s.keys.payer.pubkey] s.keys.payer.pubkey

/-! ## Reading and decrypting state -/

/-- The confidential half of an account's view: the pending ciphertexts are opened with the
ElGamal key, the available balance with the AES key, and what does not open reads zero. -/
def viewConfidential (keys : ConfidentialKeys) (extension : ConfidentialTransferAccount) :
    Nat × Nat :=
  let pendingLo := (extension.pendingBalanceLo.decryptU32 keys.elgamal).getD 0
  let pendingHi := (extension.pendingBalanceHi.decryptU32 keys.elgamal).getD 0
  let available := (extension.decryptableAvailableBalance.decrypt keys.aes).getD 0
  (pendingLo + pendingHi <<< 16, available)

/-- The view of a token account that was read. -/
def viewAccount (owner : Wallet) (account : TokenAccount) : Client AccountView := do
  let tokenAccount := s.tokenAccount owner
  let publicUi := baseToUi account.amount s.cfg.mintDecimals
  match account.confidential with
  | some extension =>
    let keys ← (deriveConfidentialKeys owner).mapError (.labelled "derive confidential keys: ")
    let (pending, available) := viewConfidential keys extension
    pure ⟨owner.pubkey, tokenAccount, publicUi, some extension.pendingBalanceLo,
      baseToUi pending s.cfg.mintDecimals, some extension.availableBalance,
      baseToUi available s.cfg.mintDecimals⟩
  | none => pure ⟨owner.pubkey, tokenAccount, publicUi, none, 0, none, 0⟩

/-- `read_account_view`. -/
def readAccountView (owner : Wallet) : Client AccountView := do
  let tokenAccount := s.tokenAccount owner
  match ← ask (.getAccount tokenAccount) with
  | .ok data =>
    let account ← withLabel "unpack token account: " (unpackTokenAccount data)
    viewAccount s owner account
  | .error error =>
    if error.saysNotFound then pure ⟨owner.pubkey, tokenAccount, 0, none, 0, none, 0⟩
    else Program.fail (.labelled "rpc get_account: " (.rpc error))

/-- `read_ledger_state`. -/
def readLedgerState : Client LedgerState := do
  let sender ← readAccountView s s.keys.sender
  let receiver ← readAccountView s s.keys.receiver
  let events ← ask .readEvents
  pure ⟨s.mint, s.cfg.mintDecimals, sender, receiver,
    ⟨s.keys.auditorAuthority.pubkey, s.auditorElgamal.pubkey, events⟩⟩

/-! ## Handlers -/

/-- `state_handler`. -/
def stateHandler : Client LedgerState := readLedgerState s

/-- What a wallet needs at least, or the request fails. -/
def requireFunds (role : String) (wallet : Wallet) (minimum airdrop : Nat) : Client Unit := do
  let lamports ← getBalance wallet.pubkey
  if lamports < minimum then
    Program.fail (.message (s!"{role} {wallet.pubkey} has " ++
      s!"{fixedText 6 (solOfLamports lamports)} SOL — fund it first: " ++
      s!"solana airdrop {airdrop} {wallet.pubkey} --url {s.cfg.rpcUrl}"))
  else pure ()

/-- The mint's part of `init_handler`: create it, or check that it is the demo's. -/
def ensureMint : Client (List Signature) := do
  if !(← mintExists s.mint) then
    let sig ← createConfidentialMint sdk s
    pure [sig]
  else
    verifyMintMatches s
    pure []

/-- What the sender is topped up to, in base units. -/
def AppState.targetBase : Nat := uiToBase s.cfg.initialDepositUi s.cfg.mintDecimals

/-- Mint what a deposit needs and the public balance lacks. -/
def mintLacking (needed senderPublicBase : Nat) : Client (List Signature) :=
  if senderPublicBase < needed then do
    let sig ← mintToSender s (needed - senderPublicBase)
    pure [sig]
  else pure []

/-- Mint, deposit, apply, and log the deposit. -/
def fundSender (needed senderPublicBase : Nat) : Client (List Signature) := do
  let minted ← mintLacking s needed senderPublicBase
  let depSig ← (depositToConfidential s.keys.payer s.keys.sender s.mint needed
    s.cfg.mintDecimals).mapError (.labelled "deposit failed: ")
  let applySig ← (applyPendingBalance s.keys.payer s.keys.sender s.mint).mapError
    (.labelled "apply pending (sender) failed: ")
  logEvent "init-deposit" (baseToUi needed s.cfg.mintDecimals) depSig
  pure (minted ++ [depSig, applySig])

/-- The funding part of `init_handler`: bring the available balance up to the target. -/
def topUpSender : Client (List Signature) := do
  let senderView ← readAccountView s s.keys.sender
  let senderAvailBase := uiToBase senderView.availableUi s.cfg.mintDecimals
  if senderAvailBase < s.targetBase then
    fundSender s (s.targetBase - senderAvailBase) (uiToBase senderView.publicUi s.cfg.mintDecimals)
  else pure []

/-- `init_handler`. -/
def initHandler : Client ActionResponse := runBlocking do
  requireFunds s "payer" s.keys.payer 10000000 5
  let mintSigs ← ensureMint sdk s
  let senderSigs ← ensureConfidentialAccount sdk s s.keys.sender
  let receiverSigs ← ensureConfidentialAccount sdk s s.keys.receiver
  let topUpSigs ← topUpSender s
  let state ← readLedgerState s
  pure ⟨true, mintSigs ++ senderSigs ++ receiverSigs ++ topUpSigs, state⟩

/-- Log the transfer under the fourth signature, when there is one. -/
def logTransfer (amountUi : ℚ) (sigs : List Signature) : Client Unit :=
  match sigs[3]? with
  | some transferSig => logEvent "transfer" amountUi transferSig
  | none => pure ()

/-- `transfer_handler`. -/
def transferHandler (requested : Option ℚ) : Client ActionResponse := do
  let amountUi := requested.getD s.cfg.transferAmountUi
  emit .broadcast
    (.phase "preflight" s!"Verifying setup before transferring {floatText amountUi} USDC")
  runBlocking do
    requireInitialized s
    requireFunds s "sender" s.keys.sender 20000000 1
    let amountBase := uiToBase amountUi s.cfg.mintDecimals
    let sigs ← (transferConfidentialWithProgress sdk s.keys.payer s.keys.sender s.mint
      s.keys.receiver.pubkey amountBase .broadcast).catchError fun error => do
        emit .broadcast (.error error.text)
        Program.fail (.labelled "transfer failed: " error)
    logTransfer amountUi sigs
    let state ← readLedgerState s
    pure ⟨true, sigs, state⟩

/-- The owner that an apply request names. -/
def applyOwner (account : String) : Client Wallet :=
  if account = "sender" then pure s.keys.sender
  else if account = "receiver" then pure s.keys.receiver
  else Program.fail (.message s!"unknown account: {account}")

/-- `apply_pending_handler`. -/
def applyPendingHandler (account : String) : Client ActionResponse := do
  emit .broadcast (.phase "preflight" s!"Applying pending balance for {account}")
  (runBlocking do
    requireInitialized s
    emit .broadcast (.phase "submit-apply-pending"
      "Decrypting pending balance and submitting apply instruction")
    let owner ← applyOwner s account
    -- What is pending before the apply, or zero where that cannot be read.
    let appliedAmountUi ← (do
      let view ← readAccountView s owner
      pure view.pendingUi).catchError fun _ => pure 0
    let sig ← (applyPendingBalance s.keys.payer owner s.mint).mapError
      (.labelled "apply_pending failed: ")
    emit .broadcast (.signature s!"apply-pending-{account}" sig)
    emit .broadcast (.done [sig])
    logEvent s!"apply-pending-{account}" appliedAmountUi sig
    let state ← readLedgerState s
    pure ⟨true, [sig], state⟩).catchError fun error => do
      emit .broadcast (.error s!"apply-pending {account}: {error.text}")
      Program.fail error

end Handlers

/-- The transaction that minting to the sender submits. -/
def mintTransaction (s : AppState) (amountBase : Nat) : Transaction :=
  ⟨mintInstructions s amountBase, s.keys.payer.pubkey, [s.keys.payer.pubkey]⟩

/-! ## What the helpers read -/

/-- A view puts the pending limbs together; one that does not open counts as nothing. -/
@[simp] theorem viewConfidential_fst (keys : ConfidentialKeys)
    (extension : ConfidentialTransferAccount) :
    (viewConfidential keys extension).1 =
      (extension.pendingBalanceLo.decryptU32 keys.elgamal).getD 0 +
        (extension.pendingBalanceHi.decryptU32 keys.elgamal).getD 0 <<< 16 := rfl

/-- A view shows the available balance that the owner last wrote. -/
@[simp] theorem viewConfidential_snd (keys : ConfidentialKeys)
    (extension : ConfidentialTransferAccount) :
    (viewConfidential keys extension).2 =
      (extension.decryptableAvailableBalance.decrypt keys.aes).getD 0 := rfl

/-- A UI amount that was a base amount converts back to it, up to the largest `u64`. -/
theorem uiToBase_baseToUi (base decimals : Nat) :
    uiToBase (baseToUi base decimals) decimals = min base (2 ^ 64 - 1) := by
  have power : (10 : ℚ) ^ decimals ≠ 0 := by positivity
  have whole : baseToUi base decimals * 10 ^ decimals = base := by
    unfold baseToUi
    field_simp
  have rounded : ((base : ℚ) + 1 / 2).floor = base := by
    have above : (base : ℤ) ≤ ((base : ℚ) + 1 / 2).floor :=
      Rat.le_floor_iff.mpr (by push_cast; linarith)
    have below : ((base : ℚ) + 1 / 2).floor < (base : ℤ) + 1 :=
      Rat.floor_lt_iff.mpr (by push_cast; linarith)
    omega
  rw [uiToBase, whole, rounded]
  rfl

/-- The target is a `u64`. -/
theorem AppState.targetBase_lt (s : AppState) : s.targetBase < 2 ^ 64 := by
  unfold AppState.targetBase uiToBase
  omega

/-- The view of an account that was not found: it shows nothing. -/
structure AccountView.Blank (view : AccountView) : Prop where
  /-- No public balance. -/
  publicUi : view.publicUi = 0
  /-- No pending balance. -/
  pendingUi : view.pendingUi = 0
  /-- No available balance. -/
  availableUi : view.availableUi = 0

namespace AppState

variable (s : AppState) (ledger : Ledger) (owner : Wallet)

/-- What a transfer request moves, in base units. -/
def requestedBase (requested : Option ℚ) : Nat :=
  uiToBase (requested.getD s.cfg.transferAmountUi) s.cfg.mintDecimals

/-- The public balance of an owner, nothing where there is no account. -/
def publicBalance : Nat := ((ledger.data (s.tokenAccount owner)).token?).elim 0 TokenAccount.amount

/-- The available balance of an owner as the demo reads it, nothing where none is configured. -/
def availableBalance : Nat :=
  (ledger.confidential? (s.tokenAccount owner)).elim 0 fun extension =>
    (viewConfidential owner.confidentialKeys extension).2

/-- The pending balance of an owner as the demo reads it, nothing where none is configured. -/
def openedPending : Nat :=
  (ledger.confidential? (s.tokenAccount owner)).elim 0 fun extension =>
    (viewConfidential owner.confidentialKeys extension).1

/-- The view's UI amounts are the owner's balances, in base units, at so many decimals. -/
structure Shows (decimals : Nat) (view : AccountView) : Prop where
  /-- The public balance. -/
  publicUi : view.publicUi = baseToUi (s.publicBalance ledger owner) decimals
  /-- The pending balance. -/
  pendingUi : view.pendingUi = baseToUi (s.openedPending ledger owner) decimals
  /-- The available balance. -/
  availableUi : view.availableUi = baseToUi (s.availableBalance ledger owner) decimals

/-- The owner's token account is configured for confidential transfers. -/
def Configured : Prop := (ledger.confidential? (s.tokenAccount owner)).isSome = true

instance : Decidable (s.Configured ledger owner) := inferInstanceAs (Decidable (_ = true))

/-- The ledger has a mint at the demo's address, with the demo's auditor. -/
def DemoMint : Prop :=
  ∃ state settings, ledger.data s.mint = .mint state ∧ state.confidential = some settings ∧
    settings.auditorElgamalPubkey = some s.auditorElgamal.pubkey

end AppState

section Reads

variable {cluster : Cluster} {world : World} {sdk : Sdk} {s : AppState}

/-- An account that is answered is there. -/
theorem quietly_askAccount (key : Pubkey) :
    Quietly cluster (fun reply world' => world' = world ∧
        ∀ data, reply = .ok data → world.ledger.data key = data)
      (ask (.getAccount key)) world := by
  refine (quietly_ask (.getAccount key) fun choice => ?_).weaken ?_
  · cases choice <;> exact .refl _ _
  · rintro reply world' ⟨choice, answer⟩
    cases choice with
    | succeed =>
      obtain ⟨rfl, rfl⟩ := Prod.mk.inj answer
      exact ⟨rfl, fun data fetched => Ledger.fetch_ok fetched⟩
    | fail message =>
      obtain ⟨rfl, rfl⟩ := Prod.mk.inj answer
      exact ⟨rfl, fun data fetched => by contradiction⟩

/-- A labelled computation gives what the computation gives. -/
theorem quietly_withLabel {α : Type} (label : String) (result : Except ClientError α) :
    Quietly cluster (fun value world' => result = .ok value ∧ world' = world)
      (withLabel label result) world := by
  refine (quietly_ofExcept _).weaken ?_
  rintro value world' ⟨relabelled, rfl⟩
  cases result with
  | ok found => exact ⟨relabelled, rfl⟩
  | error reason => contradiction

/-- Looking for the mint changes nothing. -/
theorem quietly_mintExists (mint : Pubkey) :
    Quietly cluster (fun _ world' => world' = world) (mintExists mint) world := by
  refine quietly_bind (quietly_askAccount mint) ?_
  rintro reply world' - ⟨rfl, -⟩
  cases reply with
  | ok data => exact quietly_pure rfl
  | error reason =>
    show Quietly cluster _ (if _ then _ else _) _
    split
    · exact quietly_pure rfl
    · exact quietly_fail

/-- An account that is reported configured is. -/
theorem quietly_ataIsConfigured (ata : Pubkey) :
    Quietly cluster (fun found world' => world' = world ∧
        (found = true → (world.ledger.confidential? ata).isSome = true)) (ataIsConfigured ata)
      world := by
  refine quietly_bind (quietly_askAccount ata) ?_
  rintro reply world' - ⟨rfl, found⟩
  cases reply with
  | ok data =>
    have held := found data rfl
    refine quietly_bind (quietly_withLabel _ _) ?_
    rintro token world' - ⟨unpacked, rfl⟩
    refine quietly_pure ⟨rfl, ?_⟩
    cases data with
    | token account =>
      obtain rfl := Except.ok.inj unpacked
      simp [Ledger.confidential?, held, AccountData.token?]
    | _ => contradiction
  | error reason =>
    show Quietly cluster _ (if _ then _ else _) _
    split
    · exact quietly_pure ⟨rfl, fun found => by contradiction⟩
    · exact quietly_fail

/-- A mint that passes its check is the demo's. -/
theorem quietly_verifyMintMatches :
    Quietly cluster (fun _ world' => world' = world ∧ s.DemoMint world.ledger)
      (verifyMintMatches s) world := by
  refine quietly_bind (quietly_getAccount _) ?_
  rintro data world' - ⟨rfl, fetched⟩
  refine quietly_bind (quietly_withLabel _ _) ?_
  rintro state world' - ⟨unpacked, rfl⟩
  refine quietly_bind (quietly_withLabel _ _) ?_
  rintro settings world' - ⟨extended, rfl⟩
  split
  · rename_i actual auditor
    split
    · rename_i same
      refine quietly_pure ⟨rfl, state, settings, ?_, getExtension_ok extended, same ▸ auditor⟩
      rw [Ledger.fetch_ok fetched]
      exact unpackMint_ok unpacked
    · exact quietly_fail
  · exact quietly_fail

/-- The view of a token account that is there shows its balances. -/
theorem quietly_viewAccount {owner : Wallet} {token : TokenAccount}
    (held : world.ledger.data (s.tokenAccount owner) = .token token) :
    Quietly cluster (fun view world' => world' = world ∧
      s.Shows world.ledger owner s.cfg.mintDecimals view) (viewAccount s owner token) world := by
  have nothing : (0 : ℚ) = baseToUi 0 s.cfg.mintDecimals := by simp [baseToUi]
  have shown : s.publicBalance world.ledger owner = token.amount := by
    simp [AppState.publicBalance, held, AccountData.token?]
  have read : world.ledger.confidential? (s.tokenAccount owner) = token.confidential := by
    simp [Ledger.confidential?, held, AccountData.token?]
  unfold viewAccount
  cases configured : token.confidential with
  | none =>
    refine quietly_pure ⟨rfl, ?_, ?_, ?_⟩
    · rw [shown]
    · simpa [AppState.openedPending, read, configured] using nothing
    · simpa [AppState.availableBalance, read, configured] using nothing
  | some extension =>
    refine quietly_bind (quietly_mapError (quietly_deriveConfidentialKeys owner) _) ?_
    rintro keys world' - ⟨rfl, rfl⟩
    refine quietly_pure ⟨rfl, ?_, ?_, ?_⟩
    · rw [shown]
    · simp only [AppState.openedPending, read, configured, Option.elim_some]
      rfl
    · simp only [AppState.availableBalance, read, configured, Option.elim_some]
      rfl

/-- A view shows the balances of the ledger at the configured decimals, or it is blank. -/
theorem quietly_readAccountView (owner : Wallet) :
    Quietly cluster (fun view world' => world' = world ∧
        (s.Shows world.ledger owner s.cfg.mintDecimals view ∨ view.Blank))
      (readAccountView s owner) world := by
  refine quietly_bind (quietly_askAccount _) ?_
  rintro reply world' - ⟨rfl, found⟩
  cases reply with
  | ok data =>
    have held := found data rfl
    refine quietly_bind (quietly_withLabel _ _) ?_
    rintro account world' - ⟨unpacked, rfl⟩
    cases data with
    | token token =>
      obtain rfl := Except.ok.inj unpacked
      exact (quietly_viewAccount held).weaken fun _ _ both => ⟨both.1, .inl both.2⟩
    | _ => contradiction
  | error reason =>
    show Quietly cluster _ (if _ then _ else _) _
    split
    · exact quietly_pure ⟨rfl, .inr ⟨rfl, rfl, rfl⟩⟩
    · exact quietly_fail

/-- The ledger's state shows the event log. -/
theorem quietly_readLedgerState :
    Quietly cluster (fun state world' => world' = world ∧
      state.auditor.recentEvents = world.events) (readLedgerState s) world := by
  refine quietly_bind (quietly_readAccountView _) ?_
  rintro sender world' - ⟨rfl, -⟩
  refine quietly_bind (quietly_readAccountView _) ?_
  rintro receiver world' - ⟨rfl, -⟩
  refine quietly_bind (quietly_ask .readEvents fun choice => .refl _ _) ?_
  rintro events world' - ⟨choice, answer⟩
  obtain ⟨rfl, rfl⟩ := Prod.mk.inj answer
  exact quietly_pure ⟨rfl, rfl⟩

/-- Reading lamports changes nothing. -/
theorem quietly_getBalance (key : Pubkey) :
    Quietly cluster (fun _ world' => world' = world) (getBalance key) world := by
  refine quietly_bind (quietly_ask (.getBalance key) fun choice => ?_) ?_
  · cases choice <;> exact .refl _ _
  · rintro reply world' - ⟨choice, answer⟩
    have same : world' = world := by
      cases choice <;> exact (Prod.mk.inj answer).2.symm
    exact (quietly_orRpc reply).weaken fun lamports after read => read.2.trans same

/-- Checking a wallet's lamports changes nothing. -/
theorem quietly_requireFunds (role : String) (wallet : Wallet) (minimum airdrop : Nat) :
    Quietly cluster (fun _ world' => world' = world) (requireFunds s role wallet minimum airdrop)
      world := by
  refine quietly_bind (quietly_getBalance _) ?_
  rintro lamports world' - rfl
  split
  · exact quietly_fail
  · exact quietly_pure rfl

/-- Checking the setup changes nothing. -/
theorem quietly_requireInitialized :
    Quietly cluster (fun _ world' => world' = world) (requireInitialized s) world := by
  refine quietly_bind (quietly_mintExists _) ?_
  rintro mint world' - rfl
  split
  · exact quietly_fail
  refine quietly_bind (quietly_ataIsConfigured _) ?_
  rintro sender world' - ⟨rfl, -⟩
  split
  · exact quietly_fail
  refine quietly_bind (quietly_ataIsConfigured _) ?_
  rintro receiver world' - ⟨rfl, -⟩
  split
  · exact quietly_fail
  · exact quietly_pure rfl

/-- Logging keeps every property of the chain. -/
theorem serves_logEvent {property : World → Prop} (onChain : OnChain property)
    (here : property world) (kind : String) (amountUi : ℚ) (sig : Signature) :
    (chainSystem cluster).Serves property (fun _ world' => property world' ∧
        world'.ledger = world.ledger) (logEvent kind amountUi sig) world := by
  refine ⟨here, fun log world' ⟨choice, read⟩ => ?_⟩
  obtain ⟨-, rfl⟩ := Prod.mk.inj read
  refine ⟨here, fun reply world' ⟨choice', written⟩ => ?_⟩
  obtain ⟨-, rfl⟩ := Prod.mk.inj written
  have after (events : List EventLog) : property { world with events } :=
    onChain world _ rfl rfl here
  exact ⟨after _, fun _ _ => ⟨after _, rfl⟩⟩

/-- Finding the owner changes nothing. -/
theorem quietly_applyOwner (account : String) :
    Quietly cluster (fun _ world' => world' = world) (applyOwner s account) world := by
  unfold applyOwner
  split
  · exact quietly_pure rfl
  · split
    · exact quietly_pure rfl
    · exact quietly_fail

end Reads

/-! ## Which helpers are silent -/

section Silence

variable {α : Type} {World : Type} {system : System Reply World} {world : World}
variable {skipped : Exchange Reply → Bool}

/-- Renaming errors is silent. -/
theorem silent_withLabel (label : String) (result : Except ClientError α) :
    SilentBut skipped (withLabel label result) := silent_ofExcept _

/-- The check of a wallet's lamports is silent. -/
theorem silent_requireFunds (s : AppState) (role : String) (wallet : Wallet)
    (minimum airdrop : Nat) : Silent (requireFunds s role wallet minimum airdrop) := by
  refine (silent_getBalance _).bind fun lamports => ?_
  split
  · exact silent_fail _
  · exact silent_pure _

/-- The check of the mint is silent. -/
theorem silent_verifyMintMatches (s : AppState) : Silent (verifyMintMatches s) := by
  refine (silent_getAccount _).bind fun data => (silent_withLabel _ _).bind fun state =>
    (silent_withLabel _ _).bind fun settings => ?_
  split
  · split
    · exact silent_pure _
    · exact silent_fail _
  · exact silent_fail _

/-- Finding whom to apply for is silent. -/
theorem silent_applyOwner (s : AppState) (account : String) : Silent (applyOwner s account) := by
  unfold applyOwner
  split
  · exact silent_pure _
  · split
    · exact silent_pure _
    · exact silent_fail _

/-- Looking for the mint is silent, failed reads of an account aside. -/
theorem lenient_mintExists (mint : Pubkey) : Lenient (mintExists mint) := by
  refine lenient_account fun reply => ?_
  cases reply with
  | ok data => exact silent_pure _
  | error reason =>
    dsimp only
    split
    · exact silent_pure _
    · exact silent_fail _

/-- Looking for a token account is silent, failed reads of an account aside. -/
theorem lenient_ataIsConfigured (ata : Pubkey) : Lenient (ataIsConfigured ata) := by
  refine lenient_account fun reply => ?_
  cases reply with
  | ok data => exact (silent_withLabel _ _).bind fun _ => silent_pure _
  | error reason =>
    dsimp only
    split
    · exact silent_pure _
    · exact silent_fail _

/-- The check that the demo is set up is silent, failed reads of an account aside. -/
theorem lenient_requireInitialized (s : AppState) : Lenient (requireInitialized s) := by
  refine (lenient_mintExists _).bind fun mint => ?_
  split
  · exact silent_fail _
  refine (lenient_ataIsConfigured _).bind fun sender => ?_
  split
  · exact silent_fail _
  refine (lenient_ataIsConfigured _).bind fun receiver => ?_
  split
  · exact silent_fail _
  · exact silent_pure _

/-- Viewing an account is silent. -/
theorem silent_viewAccount (s : AppState) (owner : Wallet) (account : TokenAccount) :
    Silent (viewAccount s owner account) := by
  unfold viewAccount
  cases account.confidential with
  | none => exact silent_pure _
  | some extension =>
    exact ((silent_deriveConfidentialKeys owner).mapError _).bind fun _ => silent_pure _

/-- Reading a view is silent, failed reads of an account aside. -/
theorem lenient_readAccountView (s : AppState) (owner : Wallet) :
    Lenient (readAccountView s owner) := by
  refine lenient_account fun reply => ?_
  cases reply with
  | ok data => exact (silent_withLabel _ _).bind fun account => (silent_viewAccount s owner _).skip
  | error reason =>
    dsimp only
    split
    · exact silent_pure _
    · exact silent_fail _

/-- Reading the state is silent, failed reads of an account aside. -/
theorem lenient_readLedgerState (s : AppState) : Lenient (readLedgerState s) :=
  (lenient_readAccountView s _).bind fun _ => (lenient_readAccountView s _).bind fun _ =>
    silent_readEvents.skip.bind fun _ => silent_pure _

/-- Logging shows nothing outside: the log is the server's own. -/
theorem unheard_logEvent (kind : String) (amountUi : ℚ) (sig : Signature) :
    system.Shows (fun _ transcript _ => Unheard transcript) (logEvent kind amountUi sig) world := by
  refine System.shows_call.mpr fun log read _ => System.shows_call.mpr fun _ written _ => ?_
  exact System.shows_done.mpr ⟨rfl, rfl, rfl⟩

/-- Logging a transfer, or leaving it out, shows nothing outside. -/
theorem unheard_logTransfer (amountUi : ℚ) (sigs : List Signature) :
    system.Shows (fun _ transcript _ => Unheard transcript) (logTransfer amountUi sigs) world := by
  unfold logTransfer
  split
  · exact unheard_logEvent _ _ _
  · exact System.shows_done.mpr .nil

end Silence

/-! ## A starting point -/

/-- A demo with cents, which tops up to five and transfers two of them. -/
def AppState.demo : AppState :=
  ⟨⟨"http://localhost:8899", 2, 5 / 100, 2 / 100⟩, ⟨⟨0⟩, ⟨3⟩, ⟨1⟩, ⟨2⟩, ⟨4⟩⟩⟩

/-- Its world: funded wallets, the demo's mint, and both accounts configured, the sender's with a
public and an available balance. -/
def World.demo (publicAmount available : Nat) : World where
  ledger := .ofAccounts
    [(AppState.demo.keys.payer.pubkey, 20000000, .empty),
      (AppState.demo.keys.sender.pubkey, 20000000, .empty),
      (AppState.demo.mint, 1, .mint ⟨some AppState.demo.keys.payer.pubkey, 2,
        publicAmount + available, some ⟨none, true, some AppState.demo.auditorElgamal.pubkey⟩⟩),
      (AppState.demo.tokenAccount AppState.demo.keys.sender, 3, .token
        { TokenAccount.funded AppState.demo.keys.sender AppState.demo.mint available with
          amount := publicAmount }),
      (AppState.demo.tokenAccount AppState.demo.keys.receiver, 3,
        .token (.funded AppState.demo.keys.receiver AppState.demo.mint 0))]
  landed := []
  generated := 0
  progress := []
  events := []

end ConfidentialBalances
