import ConfidentialBalances.Account

/-!
# Instructions and transactions

The instructions the client builds, with every argument that decides what they
do on chain, and which of their accounts each builder marks as signers. A
transaction is signed by exactly the keypairs handed to
`Transaction::new_signed_with_payer`; that call panics unless these are the fee
payer and the accounts the instructions mark.
-/

namespace ConfidentialBalances

/-- `ContextStateInfo`: where a verified proof is stored and who may close that account. -/
structure ContextStateInfo where
  /-- The account that receives the context. -/
  contextStateAccount : Pubkey
  /-- The account's close authority. -/
  contextStateAuthority : Pubkey
  deriving DecidableEq, Repr

/-- The instructions the client builds. -/
inductive Instruction
  /-- `system_instruction::create_account`. -/
  | createAccount (funder newAccount : Pubkey) (lamports space : Nat) (owner : ProgramId)
  /-- `ProofInstruction::encode_verify_proof` with a context state account. -/
  | encodeVerifyProof (proofType : ProofType) (info : ContextStateInfo) (proof : List UInt8)
  /-- `ProofInstruction::encode_verify_proof_from_account` with a context state account. -/
  | encodeVerifyProofFromAccount (proofType : ProofType) (info : ContextStateInfo)
      (proofAccount : Pubkey) (offset : Nat)
  /-- `close_context_state`. -/
  | closeContextState (info : ContextStateInfo) (destination : Pubkey)
  /-- `spl_record::instruction::initialize`. -/
  | recordInitialize (record authority : Pubkey)
  /-- `spl_record::instruction::write`. -/
  | recordWrite (record signer : Pubkey) (offset : Nat) (bytes : List UInt8)
  /-- `spl_record::instruction::close_account`. -/
  | recordCloseAccount (record signer receiver : Pubkey)
  /-- `reallocate`, for the confidential-transfer account extension. -/
  | reallocate (account payer owner : Pubkey) (multisigSigners : List Pubkey)
  /-- `configure_account`, with its proof in a context state account. -/
  | configureAccount (account mint : Pubkey) (decryptableZeroBalance : AeCiphertext)
      (maximumPendingBalanceCreditCounter : Nat) (authority : Pubkey)
      (multisigSigners : List Pubkey) (proofContext : Pubkey)
  /-- `deposit`. -/
  | deposit (account mint : Pubkey) (amount decimals : Nat) (authority : Pubkey)
      (multisigSigners : List Pubkey)
  /-- `apply_pending_balance`. -/
  | applyPendingBalance (account : Pubkey) (expectedPendingBalanceCreditCounter : Nat)
      (newDecryptableAvailableBalance : AeCiphertext) (authority : Pubkey)
      (multisigSigners : List Pubkey)
  /-- `withdraw`, with its proofs in context state accounts. -/
  | withdraw (account mint : Pubkey) (amount decimals : Nat)
      (newDecryptableAvailableBalance : AeCiphertext) (authority : Pubkey)
      (multisigSigners : List Pubkey) (equalityContext rangeContext : Pubkey)
  /-- `inner_transfer`, with its proofs in context state accounts. -/
  | innerTransfer (source mint destination : Pubkey)
      (newSourceDecryptableAvailableBalance : AeCiphertext)
      (auditorCiphertextLo auditorCiphertextHi : ElGamalCiphertext) (authority : Pubkey)
      (multisigSigners : List Pubkey) (equalityContext validityContext rangeContext : Pubkey)
  /-- `initialize_mint` of the confidential-transfer mint extension. -/
  | initializeConfidentialTransferMint (mint : Pubkey) (authority : Option Pubkey)
      (autoApproveNewAccounts : Bool) (auditorElgamalPubkey : Option ElGamalPubkey)
  /-- `initialize_mint` of the base mint. -/
  | initializeMint (mint mintAuthority : Pubkey) (decimals : Nat)
  /-- `create_associated_token_account_idempotent`. -/
  | createAssociatedTokenAccountIdempotent (funder wallet mint : Pubkey)
  /-- `mint_to`. -/
  | mintTo (mint account authority : Pubkey) (multisigSigners : List Pubkey) (amount : Nat)
  deriving DecidableEq, Repr

/-- A Token-2022 owner signs itself, unless multisig signers sign in its place. -/
def ownerSigners (owner : Pubkey) (multisigSigners : List Pubkey) : List Pubkey :=
  if multisigSigners.isEmpty then [owner] else multisigSigners

/-- The accounts an instruction marks as signers. Verifying a proof marks none: the context
state authority is recorded, not asked to sign. -/
def Instruction.signers : Instruction → List Pubkey
  | .createAccount funder newAccount _ _ _ => [funder, newAccount]
  | .encodeVerifyProof _ _ _ => []
  | .encodeVerifyProofFromAccount _ _ _ _ => []
  | .closeContextState info _ => [info.contextStateAuthority]
  | .recordInitialize _ _ => []
  | .recordWrite _ signer _ _ => [signer]
  | .recordCloseAccount _ signer _ => [signer]
  | .reallocate _ payer owner multisigSigners => payer :: ownerSigners owner multisigSigners
  | .configureAccount _ _ _ _ authority multisigSigners _ => ownerSigners authority multisigSigners
  | .deposit _ _ _ _ authority multisigSigners => ownerSigners authority multisigSigners
  | .applyPendingBalance _ _ _ authority multisigSigners => ownerSigners authority multisigSigners
  | .withdraw _ _ _ _ _ authority multisigSigners _ _ => ownerSigners authority multisigSigners
  | .innerTransfer _ _ _ _ _ _ authority multisigSigners _ _ _ =>
    ownerSigners authority multisigSigners
  | .initializeConfidentialTransferMint _ _ _ _ => []
  | .initializeMint _ _ _ => []
  | .createAssociatedTokenAccountIdempotent funder _ _ => [funder]
  | .mintTo _ _ authority multisigSigners _ => ownerSigners authority multisigSigners

/-- A transaction: its instructions, its fee payer and the keys that sign it. The blockhash it
carries bounds its lifetime and plays no part in its effect. -/
structure Transaction where
  /-- The instructions, in order. -/
  instructions : List Instruction
  /-- The fee payer. -/
  payer : Pubkey
  /-- The public keys of the supplied signers. -/
  signers : List Pubkey
  deriving DecidableEq, Repr

namespace Transaction

/-- The keys the message requires: the fee payer and every account an instruction marks. -/
def requiredSigners (transaction : Transaction) : List Pubkey :=
  transaction.payer :: transaction.instructions.flatMap Instruction.signers

/-- The supplied signers are exactly the required ones. -/
def SignedExactly (transaction : Transaction) : Prop :=
  ∀ key, key ∈ transaction.signers ↔ key ∈ transaction.requiredSigners

/-- Exactness is inclusion both ways. -/
theorem signedExactly_iff (transaction : Transaction) :
    transaction.SignedExactly ↔ transaction.signers ⊆ transaction.requiredSigners ∧
      transaction.requiredSigners ⊆ transaction.signers := by
  constructor
  · intro exact
    exact ⟨fun key mem => (exact key).mp mem, fun key mem => (exact key).mpr mem⟩
  · rintro ⟨supplied, required⟩ key
    exact ⟨fun mem => supplied mem, fun mem => required mem⟩

instance (transaction : Transaction) : Decidable transaction.SignedExactly :=
  decidable_of_iff _ (signedExactly_iff transaction).symm

end Transaction

/-- `SignerError`: why a transaction cannot be signed. -/
inductive SignerError
  /-- A supplied signer is not required by the message. -/
  | keypairPubkeyMismatch
  /-- A required signer is missing. -/
  | notEnoughSigners
  deriving DecidableEq, Repr

/-- `Transaction::try_sign`: the supplied signers must all be required, and none may be missing. -/
def Transaction.trySign (transaction : Transaction) : Except SignerError Transaction :=
  if transaction.signers ⊆ transaction.requiredSigners then
    if transaction.requiredSigners ⊆ transaction.signers then .ok transaction
    else .error .notEnoughSigners
  else .error .keypairPubkeyMismatch

/-- Signing succeeds exactly on transactions with exact signers, and changes nothing. -/
theorem Transaction.trySign_ok_iff (transaction signed : Transaction) :
    transaction.trySign = .ok signed ↔ transaction.SignedExactly ∧ signed = transaction := by
  rw [signedExactly_iff]
  unfold trySign
  split
  · rename_i supplied
    split
    · rename_i required
      simp only [Except.ok.injEq, supplied, required, true_and]
      exact eq_comm
    · rename_i missing
      simp [missing]
  · rename_i foreign
    simp [foreign]

end ConfidentialBalances
