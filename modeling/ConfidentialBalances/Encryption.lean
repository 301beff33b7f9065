import ConfidentialBalances.Types

/-!
# Encrypted balances

Twisted ElGamal is modelled by the exponents it hides. A ciphertext under a key
is the plaintext, carried additively, together with the opening that randomises
it, so two ciphertexts are equal exactly when both agree. Adding and subtracting
ciphertexts adds and subtracts both parts. Plaintexts are integers: balances
stay far below the order of the group, where the exponents would wrap.
-/

namespace ConfidentialBalances

/-- An ElGamal public key: the one a wallet derives, or one registered by other means. -/
inductive ElGamalPubkey
  /-- The wallet-level key of `derive_confidential_keys`. -/
  | standard (wallet : Wallet)
  /-- Any other key, such as one of the legacy derivation. -/
  | other (id : Nat)
  deriving DecidableEq, Repr

/-- An ElGamal keypair, known by its public key. -/
structure ElGamalKeypair where
  /-- The public half. -/
  pubkey : ElGamalPubkey
  deriving DecidableEq, Repr

/-- A ciphertext, by what it encrypts. -/
@[ext]
structure ElGamalCiphertext where
  /-- The key it is encrypted under. -/
  key : ElGamalPubkey
  /-- The encrypted amount. -/
  amount : ℤ
  /-- The randomness of the encryption. -/
  opening : ℤ
  deriving DecidableEq, Repr

namespace ElGamalCiphertext

/-- The identity ciphertext, which a configured account starts from. -/
def zero (key : ElGamalPubkey) : ElGamalCiphertext := ⟨key, 0, 0⟩

/-- An amount added in the clear carries no randomness. -/
def ofAmount (key : ElGamalPubkey) (amount : Nat) : ElGamalCiphertext := ⟨key, amount, 0⟩

/-- Homomorphic addition. -/
def add (left right : ElGamalCiphertext) : ElGamalCiphertext :=
  ⟨left.key, left.amount + right.amount, left.opening + right.opening⟩

/-- Homomorphic subtraction. -/
def sub (left right : ElGamalCiphertext) : ElGamalCiphertext :=
  ⟨left.key, left.amount - right.amount, left.opening - right.opening⟩

/-- Scalar multiplication. -/
def scale (factor : Nat) (ciphertext : ElGamalCiphertext) : ElGamalCiphertext :=
  ⟨ciphertext.key, factor * ciphertext.amount, factor * ciphertext.opening⟩

@[simp] theorem zero_amount (key : ElGamalPubkey) : (zero key).amount = 0 := rfl
@[simp] theorem zero_key (key : ElGamalPubkey) : (zero key).key = key := rfl
@[simp] theorem ofAmount_amount (key : ElGamalPubkey) (amount : Nat) :
    (ofAmount key amount).amount = amount := rfl
@[simp] theorem ofAmount_key (key : ElGamalPubkey) (amount : Nat) :
    (ofAmount key amount).key = key := rfl
@[simp] theorem add_amount (left right : ElGamalCiphertext) :
    (left.add right).amount = left.amount + right.amount := rfl
@[simp] theorem add_key (left right : ElGamalCiphertext) : (left.add right).key = left.key := rfl
@[simp] theorem sub_amount (left right : ElGamalCiphertext) :
    (left.sub right).amount = left.amount - right.amount := rfl
@[simp] theorem sub_key (left right : ElGamalCiphertext) : (left.sub right).key = left.key := rfl
@[simp] theorem scale_amount (factor : Nat) (ciphertext : ElGamalCiphertext) :
    (scale factor ciphertext).amount = factor * ciphertext.amount := rfl

/-- Subtracting one ciphertext loses nothing: equal differences have equal minuends. -/
theorem sub_left_injective {left right debit : ElGamalCiphertext}
    (same : left.sub debit = right.sub debit) : left = right := by
  have fields := ElGamalCiphertext.ext_iff.mp same
  simp only [sub] at fields
  exact ElGamalCiphertext.ext fields.1 (by omega) (by omega)

/-- `decrypt_u32` reaches exactly the amounts below this bound. -/
def decryptBound : Nat := 2 ^ 32

/-- `decrypt_u32`: the amount, when the keypair is the right one and the amount is small enough
for the precomputed table. The handle of a ciphertext without randomness is the identity, so it
opens under every key. -/
def decryptU32 (ciphertext : ElGamalCiphertext) (keypair : ElGamalKeypair) : Option Nat :=
  if (ciphertext.key = keypair.pubkey ∨ ciphertext.opening = 0) ∧
      0 ≤ ciphertext.amount ∧ ciphertext.amount < decryptBound then
    some ciphertext.amount.toNat
  else none

/-- What decrypts is the encrypted amount, and it is below the bound. -/
theorem decryptU32_some {ciphertext : ElGamalCiphertext} {keypair : ElGamalKeypair} {amount : Nat}
    (decrypted : ciphertext.decryptU32 keypair = some amount) :
    ciphertext.amount = amount ∧ amount < decryptBound := by
  unfold decryptU32 at decrypted
  split at decrypted
  · rename_i reachable
    obtain rfl := Option.some.inj decrypted
    omega
  · contradiction

/-- Under the right key, an amount decrypts exactly when it is below the bound. -/
theorem decryptU32_eq {ciphertext : ElGamalCiphertext} {keypair : ElGamalKeypair} {amount : Nat}
    (key : ciphertext.key = keypair.pubkey) (encrypts : ciphertext.amount = amount) :
    ciphertext.decryptU32 keypair = if amount < decryptBound then some amount else none := by
  simp [decryptU32, key, encrypts]

end ElGamalCiphertext

/-- An AES key: the one a wallet derives, or another. -/
inductive AeKey
  /-- The wallet-level key of `derive_confidential_keys`. -/
  | standard (wallet : Wallet)
  /-- Any other key. -/
  | other (id : Nat)
  deriving DecidableEq, Repr

/-- An authenticated ciphertext: what it holds and the key it authenticates under. -/
structure AeCiphertext where
  /-- The key it was made with. -/
  key : AeKey
  /-- The encrypted amount. -/
  amount : Nat
  deriving DecidableEq, Repr

/-- `AeKey::encrypt`. -/
def AeKey.encrypt (key : AeKey) (amount : Nat) : AeCiphertext := ⟨key, amount⟩

/-- `AeCiphertext::decrypt`: nothing, unless the ciphertext authenticates under the key. -/
def AeCiphertext.decrypt (ciphertext : AeCiphertext) (key : AeKey) : Option Nat :=
  if ciphertext.key = key then some ciphertext.amount else none

/-- A fresh encryption decrypts to what was encrypted. -/
@[simp] theorem AeCiphertext.decrypt_encrypt (key : AeKey) (amount : Nat) :
    (key.encrypt amount).decrypt key = some amount := by
  simp [AeCiphertext.decrypt, AeKey.encrypt]

/-- The two keys a wallet derives from its one signature over `solana-conf-bal/v1`. -/
structure ConfidentialKeys where
  /-- The ElGamal keypair. -/
  elgamal : ElGamalKeypair
  /-- The AES key. -/
  aes : AeKey
  deriving DecidableEq, Repr

/-- The standard wallet-level keys. -/
def Wallet.confidentialKeys (wallet : Wallet) : ConfidentialKeys :=
  ⟨⟨.standard wallet⟩, .standard wallet⟩

end ConfidentialBalances
