import ConfidentialBalances.ProofGeneration

/-!
# An ideal proof system

A proof-generation library and a proof program whose proofs are the bytes of
their own statements: generation writes down what is to be proved, verification
reads it back and accepts what is true. It satisfies everything this development
assumes of the outside, and it computes.
-/

namespace ConfidentialBalances

/-! ## Statements as numbers -/

/-- A key as two numbers. -/
def ElGamalPubkey.words : ElGamalPubkey → List Nat
  | .standard wallet => [0, wallet.id]
  | .other id => [1, id]

/-- The key of two numbers. -/
def ElGamalPubkey.ofWords (tag id : Nat) : ElGamalPubkey :=
  if tag = 0 then .standard ⟨id⟩ else .other id

/-- An integer as its sign and size. -/
def integerWords : ℤ → List Nat
  | .ofNat size => [0, size]
  | .negSucc size => [1, size]

/-- The integer of a sign and a size. -/
def integerOfWords (sign size : Nat) : ℤ := if sign = 0 then .ofNat size else .negSucc size

/-- A commitment as four numbers. -/
def Commitment.words (commitment : Commitment) : List Nat :=
  integerWords commitment.amount ++ integerWords commitment.opening

/-- The committed amounts and bit lengths of a list of numbers. -/
def rangeOfWords : List Nat → Option (List (Commitment × Nat))
  | [] => some []
  | a :: b :: c :: d :: bits :: rest => do
    let committed ← rangeOfWords rest
    some ((⟨integerOfWords a b, integerOfWords c d⟩, bits) :: committed)
  | _ => none

/-- A statement as numbers, its kind first. -/
def ProofContext.words : ProofContext → List Nat
  | .pubkeyValidity pubkey => 0 :: pubkey.words
  | .equality ciphertext commitment =>
    1 :: (ciphertext.key.words ++ integerWords ciphertext.amount ++
      integerWords ciphertext.opening ++ commitment.words)
  | .validity transfer =>
    2 :: (transfer.source.words ++ transfer.destination.words ++ transfer.lo.words ++
      transfer.hi.words)
  | .range committed => 3 :: committed.flatMap fun entry => entry.1.words ++ [entry.2]

/-- The statement of a list of numbers. -/
def ProofContext.ofWords : List Nat → Option ProofContext
  | [0, k0, k1] => some (.pubkeyValidity (.ofWords k0 k1))
  | [1, k0, k1, a, b, c, d, e, f, g, h] =>
    some (.equality ⟨.ofWords k0 k1, integerOfWords a b, integerOfWords c d⟩
      ⟨integerOfWords e f, integerOfWords g h⟩)
  | [2, s0, s1, d0, d1, a, b, c, d, e, f, g, h] =>
    some (.validity ⟨.ofWords s0 s1, .ofWords d0 d1, ⟨integerOfWords a b, integerOfWords c d⟩,
      ⟨integerOfWords e f, integerOfWords g h⟩⟩)
  | 3 :: rest => (rangeOfWords rest).map .range
  | _ => none

/-- An integer is read back from its two numbers. -/
theorem integerOfWords_words (value : ℤ) :
    ∃ sign size, integerWords value = [sign, size] ∧ integerOfWords sign size = value := by
  cases value with
  | ofNat size => exact ⟨0, size, rfl, rfl⟩
  | negSucc size => exact ⟨1, size, rfl, rfl⟩

/-- A key is read back from its two numbers. -/
theorem ElGamalPubkey.ofWords_words (pubkey : ElGamalPubkey) :
    ∃ tag id, pubkey.words = [tag, id] ∧ ElGamalPubkey.ofWords tag id = pubkey := by
  cases pubkey with
  | standard wallet => exact ⟨0, wallet.id, rfl, rfl⟩
  | other id => exact ⟨1, id, rfl, rfl⟩

/-- A commitment is read back from its four numbers. -/
theorem Commitment.ofWords_words (commitment : Commitment) :
    ∃ a b c d, commitment.words = [a, b, c, d] ∧
      (⟨integerOfWords a b, integerOfWords c d⟩ : Commitment) = commitment := by
  obtain ⟨a, b, amount, readAmount⟩ := integerOfWords_words commitment.amount
  obtain ⟨c, d, opening, readOpening⟩ := integerOfWords_words commitment.opening
  refine ⟨a, b, c, d, by rw [words, amount, opening]; rfl, ?_⟩
  rw [readAmount, readOpening]

/-- Committed amounts are read back from their numbers. -/
theorem rangeOfWords_words (committed : List (Commitment × Nat)) :
    rangeOfWords (committed.flatMap fun entry => entry.1.words ++ [entry.2]) = some committed := by
  induction committed with
  | nil => rfl
  | cons entry rest ih =>
    obtain ⟨a, b, c, d, written, read⟩ := entry.1.ofWords_words
    rw [List.flatMap_cons, written]
    simp only [List.cons_append, List.nil_append, rangeOfWords, ih, Option.bind_eq_bind,
      Option.bind_some, read]

/-- A statement is read back from its numbers. -/
theorem ProofContext.ofWords_words (context : ProofContext) :
    ProofContext.ofWords context.words = some context := by
  cases context with
  | pubkeyValidity pubkey =>
    obtain ⟨tag, id, written, read⟩ := pubkey.ofWords_words
    simp only [words, written, ofWords, read]
  | equality ciphertext commitment =>
    obtain ⟨k0, k1, writtenKey, readKey⟩ := ciphertext.key.ofWords_words
    obtain ⟨a, b, writtenAmount, readAmount⟩ := integerOfWords_words ciphertext.amount
    obtain ⟨c, d, writtenOpening, readOpening⟩ := integerOfWords_words ciphertext.opening
    obtain ⟨e, f, g, h, written, read⟩ := commitment.ofWords_words
    simp only [words, writtenKey, writtenAmount, writtenOpening, written, List.cons_append,
      List.nil_append, ofWords, readKey, readAmount, readOpening, read]
  | validity transfer =>
    obtain ⟨s0, s1, writtenSource, readSource⟩ := transfer.source.ofWords_words
    obtain ⟨d0, d1, writtenDestination, readDestination⟩ := transfer.destination.ofWords_words
    obtain ⟨a, b, c, d, writtenLo, readLo⟩ := transfer.lo.ofWords_words
    obtain ⟨e, f, g, h, writtenHi, readHi⟩ := transfer.hi.ofWords_words
    simp only [words, writtenSource, writtenDestination, writtenLo, writtenHi, List.cons_append,
      List.nil_append, ofWords, readSource, readDestination, readLo, readHi]
  | range committed =>
    simp only [words, ofWords, rangeOfWords_words, Option.map_some]

/-! ## Numbers as bytes -/

/-- A number as that many ones and a zero. -/
def bytesOfWords (words : List Nat) : List UInt8 :=
  words.flatMap fun word => List.replicate word 1 ++ [0]

/-- Read numbers, with the ones counted so far. -/
def wordsOfBytes : Nat → List UInt8 → List Nat
  | _, [] => []
  | count, byte :: rest =>
    if byte = 0 then count :: wordsOfBytes 0 rest else wordsOfBytes (count + 1) rest

/-- One number is read from the front. -/
theorem wordsOfBytes_word (count word : Nat) (rest : List UInt8) :
    wordsOfBytes count (List.replicate word 1 ++ 0 :: rest) =
      (count + word) :: wordsOfBytes 0 rest := by
  induction word generalizing count with
  | zero => simp [wordsOfBytes]
  | succ word ih =>
    rw [List.replicate_succ, List.cons_append, wordsOfBytes, if_neg (by decide), ih]
    congr 1
    omega

/-- Numbers are read back from their bytes. -/
theorem wordsOfBytes_bytes (words : List Nat) : wordsOfBytes 0 (bytesOfWords words) = words := by
  induction words with
  | nil => rfl
  | cons word rest ih =>
    have written : bytesOfWords (word :: rest) =
        List.replicate word 1 ++ 0 :: bytesOfWords rest := by
      simp [bytesOfWords]
    rw [written, wordsOfBytes_word, ih, Nat.zero_add]

/-- A statement's proof: the statement. -/
def ProofContext.prove (context : ProofContext) : List UInt8 := bytesOfWords context.words

/-- What a proof states. -/
def ProofContext.read (proof : List UInt8) : Option ProofContext :=
  ProofContext.ofWords (wordsOfBytes 0 proof)

@[simp] theorem ProofContext.read_prove (context : ProofContext) :
    ProofContext.read context.prove = some context := by
  rw [read, prove, wordsOfBytes_bytes, ofWords_words]

/-! ## The proof program and the proof generators -/

/-- The statement is one that the proof program handles. -/
def ProofType.handles : ProofType → ProofContext → Bool
  | .pubkeyValidity, .pubkeyValidity _ => true
  | .ciphertextCommitmentEquality, .equality _ _ => true
  | .batchedGroupedCiphertext3HandlesValidity, .validity _ => true
  | .batchedRangeProofU64, .range _ => true
  | .batchedRangeProofU128, .range _ => true
  | _, _ => false

/-- Accept a proof of a true statement of the right kind. -/
def verifyIdeal (proofType : ProofType) (proof : List UInt8) : Option ProofContext := do
  let context ← ProofContext.read proof
  if proofType.handles context = true ∧ context.Holds then some context else none

/-- What is accepted is what the proof states, and it is true. -/
theorem verifyIdeal_some {proofType : ProofType} {proof : List UInt8} {context : ProofContext}
    (accepted : verifyIdeal proofType proof = some context) :
    ProofContext.read proof = some context ∧ context.Holds := by
  obtain ⟨stated, read, checked⟩ := Option.bind_eq_some_iff.mp accepted
  split at checked
  · rename_i holds
    obtain rfl := Option.some.inj checked
    exact ⟨read, holds.2⟩
  · contradiction

/-- A cluster with the ideal proof program, where an account's rent is its length in lamports and
every transaction costs the same. -/
def Cluster.ideal : Cluster where
  rentExemption length := length
  fee _ := 5
  tokenAccountLength extended := if extended then 3 else 2
  verify := verifyIdeal

/-- The limbs of a transfer amount, the low one committed with some randomness. -/
def TransferAmount.ofAmount (source destination : ElGamalPubkey) (amount : Nat) : TransferAmount :=
  ⟨source, destination, ⟨(amount % 2 ^ pendingBalanceLoBits : Nat), 1⟩,
    ⟨(amount / 2 ^ pendingBalanceLoBits : Nat), 0⟩⟩

/-- The ideal proof generators. -/
def Sdk.ideal : Sdk where
  contextStateSize _ := 1
  mintAccountLength := 1
  buildPubkeyValidityProofData keypair := .ok (ProofContext.pubkeyValidity keypair.pubkey).prove
  withdrawProofData available current amount keypair :=
    if current < amount then .error "not enough funds"
    else
      let commitment : Commitment := ⟨(current : ℤ) - amount, 0⟩
      .ok ⟨(ProofContext.equality (available.sub (.ofAmount keypair.pubkey amount))
          commitment).prove, (ProofContext.range [(commitment, 64)]).prove⟩
  transferSplitProofData available decryptable amount keypair aes recipient auditor :=
    match decryptable.decrypt aes with
    | none => .error "inconsistent ciphertext"
    | some current =>
      if current < amount then .error "not enough funds"
      else
        let commitment : Commitment := ⟨(current : ℤ) - amount, 0⟩
        let transfer := TransferAmount.ofAmount keypair.pubkey recipient amount
        let auditorKey := auditor.getD keypair.pubkey
        .ok {
          equalityProofData :=
            (ProofContext.equality (available.sub transfer.debit) commitment).prove
          ciphertextValidityProofData := (ProofContext.validity transfer).prove
          ciphertextLo := ⟨auditorKey, transfer.lo.amount, transfer.lo.opening⟩
          ciphertextHi := ⟨auditorKey, transfer.hi.amount, transfer.hi.opening⟩
          rangeProofData := (ProofContext.range
            [(commitment, 64), (transfer.lo, 16), (transfer.hi, 32)]).prove }

/-- The ideal proof program is sound. -/
theorem Cluster.ideal_sound : Cluster.ideal.Sound :=
  fun _ _ _ accepted => (verifyIdeal_some accepted).2

/-- An ideal proof states what was proved. -/
theorem verifyIdeal_prove {proofType : ProofType} {proved stated : ProofContext}
    (accepted : verifyIdeal proofType proved.prove = some stated) : stated = proved := by
  have read := (verifyIdeal_some accepted).1
  rw [ProofContext.read_prove] at read
  exact (Option.some.inj read).symm

/-- Ideal pubkey-validity proofs name their key. -/
theorem Sdk.ideal_statesPubkeys : Sdk.ideal.StatesPubkeys Cluster.ideal := by
  intro keypair proof context generated accepted
  obtain rfl := Except.ok.inj generated
  exact verifyIdeal_prove accepted

/-- Ideal withdraw proofs are generated whenever the balance covers the amount. -/
theorem Sdk.ideal_provesWithdrawals : Sdk.ideal.ProvesWithdrawals := by
  intro available current amount keypair _ covered
  exact ⟨_, if_neg (by omega)⟩

/-- Ideal withdraw proofs speak of what remains. -/
theorem Sdk.ideal_statesWithdrawals : Sdk.ideal.StatesWithdrawals Cluster.ideal := by
  intro available current amount keypair data equality generated accepted
  simp only [Sdk.ideal] at generated
  split at generated
  · contradiction
  · obtain rfl := Except.ok.inj generated
    exact ⟨_, verifyIdeal_prove accepted⟩

/-- Ideal transfer proofs speak of the snapshot they are generated from. -/
theorem Sdk.ideal_statesTransfers : Sdk.ideal.StatesTransfers Cluster.ideal := by
  intro available decryptable amount keypair aes recipient auditor data generated
  simp only [Sdk.ideal] at generated
  cases decrypted : decryptable.decrypt aes with
  | none => simp [decrypted] at generated
  | some current =>
    simp only [decrypted] at generated
    split at generated
    · contradiction
    · rename_i covered
      obtain rfl := Except.ok.inj generated
      refine ⟨current, rfl, by omega, ?_⟩
      intro equality validity range first second third
      have equalityStated := verifyIdeal_prove first
      have validityStated := verifyIdeal_prove second
      have rangeStated := verifyIdeal_prove third
      exact ⟨_, _, rfl, rfl, rfl, rfl, rfl, equalityStated, validityStated, rangeStated⟩

/-- Ideal transfers carry randomness in their low limb. -/
theorem Sdk.ideal_generates {transfer : TransferAmount}
    (generates : Sdk.ideal.Generates Cluster.ideal transfer) : transfer.lo.opening = 1 := by
  obtain ⟨available, decryptable, amount, keypair, aes, recipient, auditor, data, generated,
    accepted⟩ := generates
  simp only [Sdk.ideal] at generated
  cases decrypted : decryptable.decrypt aes with
  | none => simp [decrypted] at generated
  | some current =>
    simp only [decrypted] at generated
    split at generated
    · contradiction
    · obtain rfl := Except.ok.inj generated
      obtain rfl := ProofContext.validity.inj (verifyIdeal_prove accepted)
      rfl

/-- The ideal proof system is all that is assumed of one. -/
theorem honest_ideal : Honest Sdk.ideal Cluster.ideal :=
  ⟨Cluster.ideal_sound, Sdk.ideal_statesPubkeys, Sdk.ideal_statesWithdrawals,
    Sdk.ideal_statesTransfers⟩

/-! ## Starting points -/

/-- A ledger of listed accounts; every other address is unused. -/
def Ledger.ofAccounts (accounts : List (Pubkey × Nat × AccountData)) : Ledger where
  lamports key := ((accounts.lookup key).map Prod.fst).getD 0
  data key := ((accounts.lookup key).map Prod.snd).getD .empty

/-- An account configured with its owner's keys, with nothing but an available balance, which is
encrypted with some randomness. -/
def TokenAccount.funded (owner : Wallet) (mint : Pubkey) (available : Nat) : TokenAccount :=
  ⟨mint, owner.pubkey, 0, true, some { ConfidentialTransferAccount.configured true
    owner.confidentialKeys.elgamal.pubkey (owner.confidentialKeys.aes.encrypt available) 65536 with
      availableBalance := ⟨owner.confidentialKeys.elgamal.pubkey, available, 1⟩ }⟩

/-- A mint that approves new accounts, without an auditor. -/
def Mint.approving (mintAuthority : Wallet) (supply : Nat) : Mint :=
  ⟨some mintAuthority.pubkey, 0, supply, some ⟨none, true, none⟩⟩

/-- A world in which nothing has happened yet: a payer with lamports, a mint, and the accounts of
two owners, the first with an available balance. -/
def World.funded (payer first second : Wallet) (mint : Pubkey) (available : Nat) : World where
  ledger := .ofAccounts
    [(payer.pubkey, 1000, .empty), (mint, 1, .mint (.approving payer available)),
      (getAssociatedTokenAddress first.pubkey mint, 3, .token (.funded first mint available)),
      (getAssociatedTokenAddress second.pubkey mint, 3, .token (.funded second mint 0))]
  landed := []
  generated := 0
  progress := []
  events := []

/-- A world in which nothing has happened yet: a payer with lamports, a mint, and an owner's
account with public tokens that is not configured for confidential transfers. -/
def World.unconfigured (payer owner : Wallet) (mint : Pubkey) (amount : Nat) : World where
  ledger := .ofAccounts
    [(payer.pubkey, 1000, .empty), (mint, 1, .mint (.approving payer amount)),
      (getAssociatedTokenAddress owner.pubkey mint, 2,
        .token ⟨mint, owner.pubkey, amount, false, none⟩)]
  landed := []
  generated := 0
  progress := []
  events := []

end ConfidentialBalances
