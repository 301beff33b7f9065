import Mathlib.Tactic

/-!
# Common types

Addresses, signatures and the progress events of a transfer. Addresses are kept
symbolic: a caller's wallet, the n-th keypair the client generated, the
associated token account of an owner and a mint, and a program. That the four
kinds never coincide is what the randomness of a generated keypair and the
derivation of an associated address stand for.
-/

namespace ConfidentialBalances

/-- A keypair that a caller holds. -/
structure Wallet where
  /-- Which keypair this is. -/
  id : Nat
  deriving DecidableEq, Repr

/-- The on-chain programs that own accounts. -/
inductive ProgramId
  | system
  | zkElGamalProof
  | splRecord
  | splToken2022
  | splAssociatedTokenAccount
  deriving DecidableEq, Repr

/-- An address. -/
inductive Pubkey
  /-- The public key of a caller's keypair. -/
  | wallet (wallet : Wallet)
  /-- The public key of the n-th `Keypair::new()`. -/
  | generated (index : Nat)
  /-- The associated Token-2022 account of an owner for a mint. -/
  | associated (owner mint : Pubkey)
  /-- A program's own address. -/
  | program (id : ProgramId)
  deriving DecidableEq, Repr

/-- `Signer::pubkey`. -/
def Wallet.pubkey (wallet : Wallet) : Pubkey := .wallet wallet

@[simp] theorem Wallet.pubkey_inj (left right : Wallet) :
    left.pubkey = right.pubkey ↔ left = right := by
  simp [Wallet.pubkey]

@[simp] theorem Wallet.pubkey_ne_generated (wallet : Wallet) (index : Nat) :
    wallet.pubkey ≠ .generated index := by
  simp [Wallet.pubkey]

@[simp] theorem Wallet.pubkey_ne_associated (wallet : Wallet) (owner mint : Pubkey) :
    wallet.pubkey ≠ .associated owner mint := by
  simp [Wallet.pubkey]

/-- `get_associated_token_address_with_program_id` for the Token-2022 program. -/
def getAssociatedTokenAddress (owner mint : Pubkey) : Pubkey := .associated owner mint

/-- The signature of a landed transaction, named by the position at which it landed. -/
structure Signature where
  /-- The transaction's place in landing order. -/
  position : Nat
  deriving DecidableEq, Repr

/-- `TransferProgress`: the events a transfer reports. Signatures stand for their base58 text. -/
inductive TransferProgress
  /-- A logical phase has begun. -/
  | phase (name detail : String)
  /-- A transaction landed. -/
  | signature (label : String) (sig : Signature)
  /-- The transfer completed. -/
  | done (sigs : List Signature)
  /-- The transfer failed at some stage. -/
  | error (message : String)
  deriving DecidableEq, Repr

/-- `ProgressSink`: whether a broadcast channel was passed. -/
inductive ProgressSink
  | none
  | broadcast
  deriving DecidableEq, Repr

/-- `EventLog`: one entry of the demo server's auditor log. -/
structure EventLog where
  /-- The logged transaction. -/
  sig : Signature
  /-- The kind of move. -/
  kind : String
  /-- The logged amount, in UI units. -/
  amountUi : ℚ
  deriving DecidableEq, Repr

end ConfidentialBalances
