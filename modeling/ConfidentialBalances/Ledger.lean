import ConfidentialBalances.Instruction

/-!
# The ledger

Accounts, their lamports and what a landed transaction does to them. A
transaction lands as a whole: its fee is charged and every instruction takes
effect in order, or nothing changes. Rent, fees, account sizes and the checking
of proof bytes belong to the cluster and stay parameters.
-/

namespace ConfidentialBalances

/-- `ConfidentialTransferMint`: the mint's confidential-transfer settings. -/
structure ConfidentialTransferMint where
  /-- Who may change the settings. -/
  authority : Option Pubkey
  /-- Newly configured accounts need no approval. -/
  autoApproveNewAccounts : Bool
  /-- The auditor's key, when there is one. -/
  auditorElgamalPubkey : Option ElGamalPubkey
  deriving DecidableEq, Repr

/-- A mint. -/
structure Mint where
  /-- Who may mint, unless the supply is fixed. -/
  mintAuthority : Option Pubkey
  /-- How many decimals a UI amount has. -/
  decimals : Nat
  /-- The tokens in existence. -/
  supply : Nat
  /-- The confidential-transfer extension. -/
  confidential : Option ConfidentialTransferMint
  deriving DecidableEq, Repr

/-- A token account. -/
structure TokenAccount where
  /-- The mint. -/
  mint : Pubkey
  /-- The owner. -/
  owner : Pubkey
  /-- The public balance. -/
  amount : Nat
  /-- The account has room for the confidential-transfer extension. -/
  extended : Bool
  /-- The confidential-transfer extension, once configured. -/
  confidential : Option ConfidentialTransferAccount
  deriving DecidableEq, Repr

/-- What an address holds. -/
inductive AccountData
  /-- Nothing: the address is unused or an ordinary wallet. -/
  | empty
  /-- Allocated to a program and not initialised by it yet. -/
  | uninitialized (space : Nat) (owner : ProgramId)
  /-- A proof context state account, with the proof bytes that were verified into it. -/
  | proofContext (authority : Pubkey) (proof : List UInt8) (context : ProofContext)
  /-- A record account and its data region. -/
  | record (authority : Pubkey) (bytes : List UInt8)
  /-- A mint account whose extension is initialised and whose base is not. -/
  | extendedMint (settings : ConfidentialTransferMint)
  /-- A mint. -/
  | mint (mint : Mint)
  /-- A token account. -/
  | token (account : TokenAccount)
  deriving DecidableEq, Repr

namespace AccountData

/-- The program that owns the account. -/
def owner : AccountData → ProgramId
  | .empty => .system
  | .uninitialized _ owner => owner
  | .proofContext _ _ _ => .zkElGamalProof
  | .record _ _ => .splRecord
  | .extendedMint _ => .splToken2022
  | .mint _ => .splToken2022
  | .token _ => .splToken2022

/-- The account is one a proof program or the record program keeps for a while. -/
def isTemporary (data : AccountData) : Bool :=
  data.owner = .zkElGamalProof ∨ data.owner = .splRecord

/-- `StateWithExtensions::<TokenAccount>::unpack`. -/
def token? : AccountData → Option TokenAccount
  | .token account => some account
  | _ => none

/-- `StateWithExtensions::<Mint>::unpack`. -/
def mint? : AccountData → Option Mint
  | .mint state => some state
  | _ => none

/-- The statement of a verified proof. -/
def context? : AccountData → Option ProofContext
  | .proofContext _ _ context => some context
  | _ => none

@[simp] theorem token?_eq_some {data : AccountData} {account : TokenAccount} :
    data.token? = some account ↔ data = .token account := by
  cases data <;> simp [token?]

@[simp] theorem mint?_eq_some {data : AccountData} {state : Mint} :
    data.mint? = some state ↔ data = .mint state := by
  cases data <;> simp [mint?]

@[simp] theorem context?_eq_some {data : AccountData} {context : ProofContext} :
    data.context? = some context ↔
      ∃ authority proof, data = .proofContext authority proof context := by
  cases data <;> simp [context?]

end AccountData

/-- What the cluster decides: rent, fees, account sizes and the verification of proofs. -/
structure Cluster where
  /-- The rent-exempt balance of an account of some length. -/
  rentExemption : Nat → Nat
  /-- The fee of a transaction. -/
  fee : Transaction → Nat
  /-- The length of a token account, without and with the confidential-transfer extension. -/
  tokenAccountLength : Bool → Nat
  /-- What the proof program states about proof bytes it accepts. -/
  verify : ProofType → List UInt8 → Option ProofContext

/-- The state of the chain. -/
structure Ledger where
  /-- The lamports of every address. -/
  lamports : Pubkey → Nat
  /-- The data of every address. -/
  data : Pubkey → AccountData

namespace Ledger

/-- Move lamports from one address to another. -/
def moveLamports (ledger : Ledger) (source destination : Pubkey) (amount : Nat) : Ledger :=
  { ledger with lamports := fun key =>
      (if key = source then ledger.lamports key - amount else ledger.lamports key) +
        if key = destination then amount else 0 }

/-- Replace the data of one address. -/
def setData (ledger : Ledger) (key : Pubkey) (data : AccountData) : Ledger :=
  { ledger with data := Function.update ledger.data key data }

/-- Take the fee from the fee payer. -/
def chargeFee (ledger : Ledger) (payer : Pubkey) (fee : Nat) : Ledger :=
  { ledger with lamports := Function.update ledger.lamports payer (ledger.lamports payer - fee) }

@[simp] theorem moveLamports_data (ledger : Ledger) (source destination : Pubkey) (amount : Nat) :
    (ledger.moveLamports source destination amount).data = ledger.data := rfl
@[simp] theorem setData_data (ledger : Ledger) (key : Pubkey) (data : AccountData) :
    (ledger.setData key data).data = Function.update ledger.data key data := rfl
@[simp] theorem setData_lamports (ledger : Ledger) (key : Pubkey) (data : AccountData) :
    (ledger.setData key data).lamports = ledger.lamports := rfl
@[simp] theorem chargeFee_data (ledger : Ledger) (payer : Pubkey) (fee : Nat) :
    (ledger.chargeFee payer fee).data = ledger.data := rfl

/-- `RecordData::WRITABLE_START_INDEX`: where a record account's data region starts. -/
def recordDataStart : Nat := 33

/-- The bytes of a record account from an offset of its data region on. -/
def recordBytes (ledger : Ledger) (record : Pubkey) (offset : Nat) : Option (List UInt8) :=
  match ledger.data record with
  | .record _ bytes =>
    if recordDataStart ≤ offset then some (bytes.drop (offset - recordDataStart)) else none
  | _ => none

/-- The address is allocated to the proof program and holds no context yet. -/
def awaitsContext (ledger : Ledger) (key : Pubkey) : Bool :=
  match ledger.data key with
  | .uninitialized _ owner => owner = .zkElGamalProof
  | _ => false

/-- System program: allocate a new account and fund it. -/
def createAccount (ledger : Ledger) (funder newAccount : Pubkey) (lamports space : Nat)
    (owner : ProgramId) : Option Ledger :=
  if ledger.data newAccount = .empty ∧ ledger.lamports newAccount = 0 ∧
      lamports ≤ ledger.lamports funder then
    some ((ledger.moveLamports funder newAccount lamports).setData newAccount
      (.uninitialized space owner))
  else none

/-- Proof program: verify a proof and store its statement. -/
def verifyProof (cluster : Cluster) (ledger : Ledger) (proofType : ProofType)
    (info : ContextStateInfo) (proof : List UInt8) : Option Ledger :=
  match cluster.verify proofType proof with
  | some context =>
    if ledger.awaitsContext info.contextStateAccount then
      some (ledger.setData info.contextStateAccount
        (.proofContext info.contextStateAuthority proof context))
    else none
  | none => none

/-- Proof program: close a context state account and hand its lamports on. -/
def closeContextState (ledger : Ledger) (info : ContextStateInfo) (destination : Pubkey) :
    Option Ledger :=
  match ledger.data info.contextStateAccount with
  | .proofContext authority _ _ =>
    if authority = info.contextStateAuthority ∧ destination ≠ info.contextStateAccount then
      some ((ledger.moveLamports info.contextStateAccount destination
        (ledger.lamports info.contextStateAccount)).setData info.contextStateAccount .empty)
    else none
  | _ => none

/-- Record program: initialise an allocated record account. -/
def recordInitialize (ledger : Ledger) (record authority : Pubkey) : Option Ledger :=
  match ledger.data record with
  | .uninitialized space owner =>
    if owner = .splRecord ∧ recordDataStart ≤ space then
      some (ledger.setData record
        (.record authority (List.replicate (space - recordDataStart) 0)))
    else none
  | _ => none

/-- The data region after a write. -/
def spliceBytes (region : List UInt8) (offset : Nat) (bytes : List UInt8) : List UInt8 :=
  region.take offset ++ bytes ++ region.drop (offset + bytes.length)

/-- Record program: copy bytes into the data region, never past its end. -/
def recordWrite (ledger : Ledger) (record signer : Pubkey) (offset : Nat) (bytes : List UInt8) :
    Option Ledger :=
  match ledger.data record with
  | .record authority region =>
    if authority = signer ∧ offset + bytes.length ≤ region.length then
      some (ledger.setData record (.record authority (spliceBytes region offset bytes)))
    else none
  | _ => none

/-- Record program: close a record account and hand its lamports on. -/
def recordCloseAccount (ledger : Ledger) (record signer receiver : Pubkey) : Option Ledger :=
  match ledger.data record with
  | .record authority _ =>
    if authority = signer ∧ receiver ≠ record then
      some ((ledger.moveLamports record receiver (ledger.lamports record)).setData record .empty)
    else none
  | _ => none

/-- Token program: make room for the extension, the payer topping up the rent. -/
def reallocate (cluster : Cluster) (ledger : Ledger) (account payer owner : Pubkey) :
    Option Ledger := do
  let token ← (ledger.data account).token?
  let topUp := cluster.rentExemption (cluster.tokenAccountLength true) - ledger.lamports account
  if token.owner = owner ∧ topUp ≤ ledger.lamports payer then
    some ((ledger.moveLamports payer account topUp).setData account
      (.token { token with extended := true }))
  else none

/-- Token program: configure an account under the key a verified proof names. -/
def configureAccount (ledger : Ledger) (account mint : Pubkey)
    (decryptableZeroBalance : AeCiphertext) (maximumPendingBalanceCreditCounter : Nat)
    (authority proofContext : Pubkey) : Option Ledger := do
  let token ← (ledger.data account).token?
  let settings ← (← (ledger.data mint).mint?).confidential
  match ← (ledger.data proofContext).context? with
  | .pubkeyValidity key =>
    if token.owner = authority ∧ token.mint = mint ∧ token.extended = true ∧
        token.confidential = none then
      some (ledger.setData account (.token { token with
        confidential := some (.configured settings.autoApproveNewAccounts key
          decryptableZeroBalance maximumPendingBalanceCreditCounter) }))
    else none
  | _ => none

/-- Token program: move public tokens to the owner's pending balance. -/
def deposit (ledger : Ledger) (account mint : Pubkey) (amount decimals : Nat)
    (authority : Pubkey) : Option Ledger := do
  let token ← (ledger.data account).token?
  let settings ← (ledger.data mint).mint?
  let confidential ← token.confidential
  let credited ← confidential.deposit amount
  if token.owner = authority ∧ token.mint = mint ∧ settings.decimals = decimals ∧
      amount ≤ token.amount then
    some (ledger.setData account (.token { token with
      amount := token.amount - amount
      confidential := some credited }))
  else none

/-- Token program: apply the pending balance. -/
def applyPendingBalance (ledger : Ledger) (account : Pubkey) (expectedCounter : Nat)
    (newDecryptable : AeCiphertext) (authority : Pubkey) : Option Ledger := do
  let token ← (ledger.data account).token?
  let confidential ← token.confidential
  let applied ← confidential.applyPendingBalance expectedCounter newDecryptable
  if token.owner = authority then
    some (ledger.setData account (.token { token with confidential := some applied }))
  else none

/-- Token program: move available tokens to the owner's public balance. -/
def withdraw (ledger : Ledger) (account mint : Pubkey) (amount decimals : Nat)
    (newDecryptable : AeCiphertext) (authority equalityContext rangeContext : Pubkey) :
    Option Ledger := do
  let token ← (ledger.data account).token?
  let settings ← (ledger.data mint).mint?
  let confidential ← token.confidential
  let equality ← (ledger.data equalityContext).context?
  let range ← (ledger.data rangeContext).context?
  let withdrawn ← confidential.withdraw amount newDecryptable equality range
  if token.owner = authority ∧ token.mint = mint ∧ settings.decimals = decimals then
    some (ledger.setData account (.token { token with
      amount := token.amount + amount
      confidential := some withdrawn }))
  else none

/-- Token program, source side of a transfer. -/
def transferOut (ledger : Ledger) (source mint : Pubkey) (newDecryptable : AeCiphertext)
    (authority : Pubkey) (equality validity range : ProofContext) : Option Ledger := do
  let token ← (ledger.data source).token?
  let confidential ← token.confidential
  let debited ← confidential.transferOut newDecryptable equality validity range
  if token.owner = authority ∧ token.mint = mint then
    some (ledger.setData source (.token { token with confidential := some debited }))
  else none

/-- Token program, destination side of a transfer. -/
def transferIn (ledger : Ledger) (destination mint : Pubkey) (validity : ProofContext) :
    Option Ledger := do
  let token ← (ledger.data destination).token?
  let confidential ← token.confidential
  let credited ← confidential.transferIn validity
  if token.mint = mint then
    some (ledger.setData destination (.token { token with confidential := some credited }))
  else none

/-- Token program: a confidential transfer, source side first. -/
def innerTransfer (ledger : Ledger) (source mint destination : Pubkey)
    (newDecryptable : AeCiphertext)
    (authority equalityContext validityContext rangeContext : Pubkey) : Option Ledger := do
  let equality ← (ledger.data equalityContext).context?
  let validity ← (ledger.data validityContext).context?
  let range ← (ledger.data rangeContext).context?
  let debited ← ledger.transferOut source mint newDecryptable authority equality validity range
  debited.transferIn destination mint validity

/-- Token program: set the confidential-transfer settings of a mint being created. -/
def initializeConfidentialTransferMint (ledger : Ledger) (mint : Pubkey)
    (settings : ConfidentialTransferMint) : Option Ledger :=
  match ledger.data mint with
  | .uninitialized _ owner =>
    if owner = .splToken2022 then some (ledger.setData mint (.extendedMint settings)) else none
  | _ => none

/-- Token program: finish a mint being created. -/
def initializeMint (ledger : Ledger) (mint mintAuthority : Pubkey) (decimals : Nat) :
    Option Ledger :=
  match ledger.data mint with
  | .extendedMint settings =>
    some (ledger.setData mint (.mint ⟨some mintAuthority, decimals, 0, some settings⟩))
  | _ => none

/-- Associated-token program: create the account, or find that it is already there. -/
def createAssociatedTokenAccountIdempotent (cluster : Cluster) (ledger : Ledger)
    (funder wallet mint : Pubkey) : Option Ledger :=
  let account := getAssociatedTokenAddress wallet mint
  match ledger.data account with
  | .empty =>
    let topUp := cluster.rentExemption (cluster.tokenAccountLength false) - ledger.lamports account
    if topUp ≤ ledger.lamports funder ∧ (ledger.data mint).mint?.isSome then
      some ((ledger.moveLamports funder account topUp).setData account
        (.token ⟨mint, wallet, 0, false, none⟩))
    else none
  | .token token => if token.owner = wallet ∧ token.mint = mint then some ledger else none
  | _ => none

/-- Token program: mint new tokens into a public balance; the supply is a `u64`. -/
def mintTo (ledger : Ledger) (mint account authority : Pubkey) (amount : Nat) :
    Option Ledger := do
  let settings ← (ledger.data mint).mint?
  let token ← (ledger.data account).token?
  if settings.mintAuthority = some authority ∧ token.mint = mint ∧
      settings.supply + amount < 2 ^ 64 then
    some ((ledger.setData mint (.mint { settings with supply := settings.supply + amount })).setData
      account (.token { token with amount := token.amount + amount }))
  else none

/-- One instruction. -/
def execInstruction (cluster : Cluster) (ledger : Ledger) : Instruction → Option Ledger
  | .createAccount funder newAccount lamports space owner =>
    ledger.createAccount funder newAccount lamports space owner
  | .encodeVerifyProof proofType info proof => ledger.verifyProof cluster proofType info proof
  | .encodeVerifyProofFromAccount proofType info proofAccount offset => do
    let proof ← ledger.recordBytes proofAccount offset
    ledger.verifyProof cluster proofType info proof
  | .closeContextState info destination => ledger.closeContextState info destination
  | .recordInitialize record authority => ledger.recordInitialize record authority
  | .recordWrite record signer offset bytes => ledger.recordWrite record signer offset bytes
  | .recordCloseAccount record signer receiver => ledger.recordCloseAccount record signer receiver
  | .reallocate account payer owner _ => ledger.reallocate cluster account payer owner
  | .configureAccount account mint decryptableZeroBalance maximum authority _ proofContext =>
    ledger.configureAccount account mint decryptableZeroBalance maximum authority proofContext
  | .deposit account mint amount decimals authority _ =>
    ledger.deposit account mint amount decimals authority
  | .applyPendingBalance account expectedCounter newDecryptable authority _ =>
    ledger.applyPendingBalance account expectedCounter newDecryptable authority
  | .withdraw account mint amount decimals newDecryptable authority _ equality range =>
    ledger.withdraw account mint amount decimals newDecryptable authority equality range
  | .innerTransfer source mint destination newDecryptable _ _ authority _ equality validity range =>
    ledger.innerTransfer source mint destination newDecryptable authority equality validity range
  | .initializeConfidentialTransferMint mint authority autoApprove auditor =>
    ledger.initializeConfidentialTransferMint mint ⟨authority, autoApprove, auditor⟩
  | .initializeMint mint mintAuthority decimals => ledger.initializeMint mint mintAuthority decimals
  | .createAssociatedTokenAccountIdempotent funder wallet mint =>
    ledger.createAssociatedTokenAccountIdempotent cluster funder wallet mint
  | .mintTo mint account authority _ amount => ledger.mintTo mint account authority amount

/-- A sequence of instructions, all or nothing. -/
def execInstructions (cluster : Cluster) (ledger : Ledger) : List Instruction → Option Ledger
  | [] => some ledger
  | instruction :: rest => do
    let next ← ledger.execInstruction cluster instruction
    next.execInstructions cluster rest

/-- A transaction: charge the fee, then run every instruction. -/
def execTransaction (cluster : Cluster) (ledger : Ledger) (transaction : Transaction) :
    Option Ledger :=
  if transaction.SignedExactly ∧ cluster.fee transaction ≤ ledger.lamports transaction.payer then
    (ledger.chargeFee transaction.payer (cluster.fee transaction)).execInstructions cluster
      transaction.instructions
  else none

/-- Transactions landing one after the other. -/
def execTransactions (cluster : Cluster) (ledger : Ledger) : List Transaction → Option Ledger
  | [] => some ledger
  | transaction :: rest => do
    let next ← ledger.execTransaction cluster transaction
    next.execTransactions cluster rest

/-- Running a concatenation runs its parts in turn. -/
theorem execInstructions_append (cluster : Cluster) (ledger : Ledger)
    (first second : List Instruction) :
    ledger.execInstructions cluster (first ++ second) =
      (ledger.execInstructions cluster first).bind (·.execInstructions cluster second) := by
  induction first generalizing ledger with
  | nil => rfl
  | cons instruction first ih =>
    cases head : ledger.execInstruction cluster instruction with
    | none => simp [execInstructions, head]
    | some next => simpa [execInstructions, head] using ih next

/-- Landing a concatenation lands its parts in turn. -/
theorem execTransactions_append (cluster : Cluster) (ledger : Ledger)
    (first second : List Transaction) :
    ledger.execTransactions cluster (first ++ second) =
      (ledger.execTransactions cluster first).bind (·.execTransactions cluster second) := by
  induction first generalizing ledger with
  | nil => rfl
  | cons transaction first ih =>
    cases head : ledger.execTransaction cluster transaction with
    | none => simp [execTransactions, head]
    | some next => simpa [execTransactions, head] using ih next

end Ledger

end ConfidentialBalances
