import ConfidentialBalances.DemoServer
import ConfidentialBalances.Json.Bytes

/-!
# The server's environment

What `main` makes of environment variables before it serves anything, and the
`.env` file that `generate-env` prints for it. Keypairs cross the environment as
JSON arrays of bytes. The keypair type, the parser of floating-point numbers and
the reader of `.env` files come from other packages and are parameters here.
-/

namespace ConfidentialBalances

/-- `std::env::var`, as far as a variable is set. -/
abbrev Env := String → Option String

/-- What `main` and `generate_env` use of other packages. -/
structure Startup where
  /-- What `Keypair::new` may draw. -/
  drawn : Wallet → Prop
  /-- `Keypair::to_bytes`. -/
  toBytes : Wallet → List UInt8
  /-- `Keypair::new_from_array`. -/
  newFromArray : List UInt8 → Wallet
  /-- `Pubkey::to_string`, of a keypair's. -/
  pubkey : Wallet → String
  /-- `str::parse::<f64>`. -/
  parseF64 : String → Option ℚ
  /-- `dotenvy::dotenv`, by the lines of the file. -/
  dotenv : List String → Env → Env

/-! ## Loading -/

/-- `str::parse`, of an unsigned integer below a bound. -/
def parseUnsigned (bound : Nat) (text : String) : Option Nat :=
  let digits := match text.toList with
    | '+' :: rest => rest
    | characters => characters
  if digits ≠ [] ∧ digits.all Char.isDigit = true ∧ Nat.ofDigitChars 10 digits 0 < bound then
    some (Nat.ofDigitChars 10 digits 0)
  else none

/-- A printed number is parsed. -/
theorem parseUnsigned_repr {bound value : Nat} (below : value < bound) :
    parseUnsigned bound value.repr = some value := by
  have digits : ∀ character ∈ Nat.toDigits 10 value, character.isDigit = true :=
    fun _ => Nat.isDigit_of_mem_toDigits (by decide) (by decide)
  unfold parseUnsigned
  rw [Nat.toList_repr]
  split
  case h_1 rest plus =>
    have digit := digits '+' (by simp [plus])
    exact absurd digit (by decide)
  case h_2 =>
    have read := Nat.ofDigitChars_ten_toDigits (n := value)
    have whole := List.all_eq_true.mpr digits
    simp only [read, whole, below, Nat.toDigits_ne_nil, ne_eq, not_false_iff, true_and, if_true]

namespace Startup

variable (startup : Startup) (env : Env)

/-- `parse_env_f64`. An error is given by the context that it adds. -/
def parseEnvF64 (key : String) (default : ℚ) : Except String ℚ :=
  match env key with
  | some text =>
    match startup.parseF64 text with
    | some value => .ok value
    | none => .error ("env var " ++ key ++ " is not a valid number")
  | none => .ok default

/-- `Config::load`, with the port next to the rest. -/
def loadConfig : Except String (Config × Nat) := do
  let rpcUrl := (env "SOLANA_RPC_URL").getD "https://api.devnet.solana.com"
  let port := ((env "DEMO_PORT").bind (parseUnsigned (2 ^ 16))).getD 8088
  -- 2 decimals so 1M UI = 10^8 base units, well under the u32 ceiling
  let mintDecimals := ((env "MINT_DECIMALS").bind (parseUnsigned (2 ^ 8))).getD 2
  let initialDepositUi ← startup.parseEnvF64 env "INITIAL_DEPOSIT_UI" 1000000
  let transferAmountUi ← startup.parseEnvF64 env "TRANSFER_AMOUNT_UI" 250000
  pure (⟨rpcUrl, mintDecimals, initialDepositUi, transferAmountUi⟩, port)

/-- `load_keypair_env`. An error is given by the context that it adds. -/
def loadKeypairEnv (name : String) : Except String Wallet :=
  match env name with
  | none => .error ("missing env var " ++ name)
  | some raw =>
    match Json.readBytes raw.toList with
    | none => .error ("env var " ++ name ++ " is not a JSON byte array")
    | some bytes =>
      if bytes.length ≠ 64 then
        .error ("env var " ++ name ++ ": expected 64-byte keypair, got " ++
          toString bytes.length ++ " bytes")
      else .ok (startup.newFromArray (bytes.take 32))

/-- `Keys::load_from_env`. -/
def loadFromEnv : Except String Keys := do
  let payer ← startup.loadKeypairEnv env "PAYER_KEYPAIR"
  let mint ← startup.loadKeypairEnv env "MINT_KEYPAIR"
  let sender ← startup.loadKeypairEnv env "SENDER_KEYPAIR"
  let receiver ← startup.loadKeypairEnv env "RECEIVER_KEYPAIR"
  let auditorAuthority ← startup.loadKeypairEnv env "AUDITOR_KEYPAIR"
  pure ⟨payer, mint, sender, receiver, auditorAuthority⟩

/-- `main` up to what the handlers share, with the port that it listens on. -/
def appState : Except String (AppState × Nat) := do
  let (cfg, port) ← startup.loadConfig env
  let keys ← startup.loadFromEnv env
  pure (⟨cfg, keys⟩, port)

end Startup

/-! ## Generating -/

/-- The keypairs under the names that `generate_env` gives them. -/
def Keys.named (keys : Keys) : List (String × Wallet) :=
  [("PAYER", keys.payer), ("MINT", keys.mint), ("SENDER", keys.sender),
    ("RECEIVER", keys.receiver), ("AUDITOR", keys.auditorAuthority)]

/-- The lines of `generate_env` on standard output, for the time and the keypairs drawn. -/
def Startup.generateEnv (startup : Startup) (now : String) (keys : Keys) : List String :=
  ["# zkproof8 demo-server config — copy this into .env",
    "# generated " ++ now,
    "",
    "SOLANA_RPC_URL=https://api.devnet.solana.com",
    "DEMO_PORT=8088",
    "# 2 decimals keeps base-unit balances under the u32 BSGS ceiling.",
    "MINT_DECIMALS=2",
    "INITIAL_DEPOSIT_UI=1000000",
    "TRANSFER_AMOUNT_UI=250000",
    ""] ++
  keys.named.flatMap fun entry =>
    ["# " ++ entry.1 ++ " pubkey: " ++ startup.pubkey entry.2,
      entry.1 ++ "_KEYPAIR" ++ "=" ++ String.ofList (Json.bytes (startup.toBytes entry.2)),
      ""]

/-! ## Plain `.env` files -/

/-- A name of capital letters. -/
def envName (name : String) : Bool :=
  name ≠ "" && name.toList.all fun character => character.isUpper || character = '_'

/-- A value that stands for itself: nothing in it is quoted, escaped, substituted or a comment. -/
def literalValue (value : String) : Bool :=
  value.toList.all fun character =>
    character.isAlphanum || character ∈ [':', '/', '.', '[', ',', ']']

/-- A text on one line that neither quotes nor escapes. -/
def calm (text : String) : Bool :=
  text.toList.all fun character => character ∉ ['\x0a', '\x22', '\x27', '\x5c']

/-- What a plain line assigns. -/
def assignment? (line : String) : Option (String × String) :=
  if line = "" ∨ line.toList.head? = some '#' then none
  else some (String.ofList (line.toList.takeWhile (· ≠ '=')),
    String.ofList (line.toList.dropWhile (· ≠ '=')).tail)

/-- The line is blank, a comment, or the assignment of a literal value. -/
def plain (line : String) : Bool :=
  match assignment? line with
  | none => calm line
  | some (name, value) => line.toList.contains '=' && envName name && literalValue value

/-- What plain lines assign to a variable, the first one first. -/
def assigned? (lines : List String) (name : String) : Option String :=
  (lines.filterMap assignment?).lookup name

/-- What is documented of these packages: a drawn keypair is 64 bytes, of which the first 32 give it
back, texts of keys stand on one line, numbers are parsed exactly where they are floating-point
numbers, and a plain `.env` file sets what it assigns unless that is set already. -/
structure Startup.Documented (startup : Startup) : Prop where
  /-- The length of keypairs. -/
  length : ∀ wallet, startup.drawn wallet → (startup.toBytes wallet).length = 64
  /-- The secret half. -/
  secret : ∀ wallet, startup.drawn wallet →
    startup.newFromArray ((startup.toBytes wallet).take 32) = wallet
  /-- The text of keys. -/
  pubkey : ∀ wallet, calm (startup.pubkey wallet) = true
  /-- The numbers. -/
  parseF64 : ∀ value : Nat, value ≤ 2 ^ 53 → startup.parseF64 value.repr = some (value : ℚ)
  /-- The files. -/
  dotenv : ∀ lines env name, (∀ line ∈ lines, plain line = true) →
    startup.dotenv lines env name = (env name).or (assigned? lines name)

section Files

variable {startup : Startup} {keys : Keys} {now : String}

/-- The text of bytes is a literal value. -/
theorem literalValue_bytes (content : List UInt8) :
    literalValue (String.ofList (Json.bytes content)) = true := by
  rw [literalValue, String.toList_ofList]
  refine List.all_eq_true.mpr fun character member => ?_
  rcases Json.mem_bytes member with digit | token
  · simp [Char.isAlphanum, digit]
  · rcases token with _ | ⟨_, _ | ⟨_, _ | ⟨_, ⟨⟩⟩⟩⟩ <;> decide

/-- All printed lines are plain. -/
theorem plain_generateEnv (documented : startup.Documented) (calmNow : calm now = true) :
    ∀ line ∈ startup.generateEnv now keys, plain line = true := by
  have generated : plain ("# generated " ++ now) = true := by
    simpa [plain, assignment?, calm] using calmNow
  have keypair (entry : String × Wallet) (member : entry ∈ keys.named) :
      ∀ line ∈ ["# " ++ entry.1 ++ " pubkey: " ++ startup.pubkey entry.2,
        entry.1 ++ "_KEYPAIR" ++ "=" ++ String.ofList (Json.bytes (startup.toBytes entry.2)), ""],
        plain line = true := by
    have pubkey := documented.pubkey entry.2
    have literal := literalValue_bytes (startup.toBytes entry.2)
    simp only [List.forall_mem_cons]
    simp only [Keys.named, List.mem_cons, List.not_mem_nil, or_false] at member
    rcases member with rfl | rfl | rfl | rfl | rfl <;>
      exact ⟨by simpa [plain, assignment?, calm] using pubkey,
        by simpa [plain, assignment?, envName] using literal, by decide, by simp⟩
  refine List.forall_mem_append.mpr ⟨?_, ?_⟩
  · simp only [List.forall_mem_cons]
    exact ⟨by decide, generated, by decide, by decide, by decide, by decide, by decide, by decide,
      by decide, by decide, by simp⟩
  · intro line member
    obtain ⟨entry, named, here⟩ := List.mem_flatMap.mp member
    exact keypair entry named line here

/-- What the printed lines assign. -/
theorem assignments_generateEnv : (startup.generateEnv now keys).filterMap assignment? =
    [("SOLANA_RPC_URL", "https://api.devnet.solana.com"), ("DEMO_PORT", "8088"),
      ("MINT_DECIMALS", "2"), ("INITIAL_DEPOSIT_UI", "1000000"),
      ("TRANSFER_AMOUNT_UI", "250000")] ++
    keys.named.map fun entry =>
      (entry.1 ++ "_KEYPAIR", String.ofList (Json.bytes (startup.toBytes entry.2))) := by
  simp [Startup.generateEnv, Keys.named, assignment?]

end Files

/-! ## Loading what was generated -/

section Loading

variable {startup : Startup} {keys : Keys} {now : String} {env : Env}

/-- A keypair is loaded from 64 bytes in JSON, of which only the secret half counts. -/
theorem loadKeypairEnv_ok_iff {name : String} {wallet : Wallet} :
    startup.loadKeypairEnv env name = .ok wallet ↔ ∃ raw bytes, env name = some raw ∧
      Json.readBytes raw.toList = some bytes ∧ bytes.length = 64 ∧
        startup.newFromArray (bytes.take 32) = wallet := by
  unfold Startup.loadKeypairEnv
  constructor
  · intro loaded
    split at loaded
    · contradiction
    case h_2 raw set =>
      split at loaded
      · contradiction
      case h_2 bytes read =>
        split at loaded
        · contradiction
        case isFalse whole =>
          exact ⟨raw, bytes, set, read, not_not.mp whole, Except.ok.inj loaded⟩
  · rintro ⟨raw, bytes, set, read, whole, rfl⟩
    simp only [set, read, whole, ne_eq, not_true_eq_false, if_false]

/-- What one variable is loaded as depends on that variable alone. -/
theorem loadKeypairEnv_congr {env' : Env} {name : String} (same : env' name = env name) :
    startup.loadKeypairEnv env' name = startup.loadKeypairEnv env name := by
  simp only [Startup.loadKeypairEnv, same]

/-- The environment after the printed file is read. -/
theorem dotenv_generateEnv (documented : startup.Documented) (calmNow : calm now = true)
    (name : String) : startup.dotenv (startup.generateEnv now keys) env name =
      (env name).or (assigned? (startup.generateEnv now keys) name) :=
  documented.dotenv _ env name (plain_generateEnv documented calmNow)

/-- The printed file assigns every keypair. -/
theorem assigned?_keypair {entry : String × Wallet} (named : entry ∈ keys.named) :
    assigned? (startup.generateEnv now keys) (entry.1 ++ "_KEYPAIR") =
      some (String.ofList (Json.bytes (startup.toBytes entry.2))) := by
  rw [assigned?, assignments_generateEnv]
  simp only [Keys.named, List.mem_cons, List.not_mem_nil, or_false] at named
  rcases named with rfl | rfl | rfl | rfl | rfl <;> rfl

/-- A printed keypair is loaded as it was drawn, unless the process sets its variable. -/
theorem loadKeypairEnv_generateEnv (documented : startup.Documented) (calmNow : calm now = true)
    {entry : String × Wallet} (named : entry ∈ keys.named) (drawn : startup.drawn entry.2) :
    startup.loadKeypairEnv (startup.dotenv (startup.generateEnv now keys) env)
        (entry.1 ++ "_KEYPAIR") =
      if (env (entry.1 ++ "_KEYPAIR")).isSome then
        startup.loadKeypairEnv env (entry.1 ++ "_KEYPAIR")
      else .ok entry.2 := by
  have read : startup.dotenv (startup.generateEnv now keys) env (entry.1 ++ "_KEYPAIR") = _ :=
    dotenv_generateEnv documented calmNow _
  rw [assigned?_keypair named] at read
  cases set : env (entry.1 ++ "_KEYPAIR") with
  | some raw =>
    rw [set, Option.some_or] at read
    exact loadKeypairEnv_congr (read.trans set.symm)
  | none =>
    rw [set, Option.none_or] at read
    refine loadKeypairEnv_ok_iff.mpr ⟨_, _, read, ?_, documented.length _ drawn,
      documented.secret _ drawn⟩
    rw [String.toList_ofList, Json.readBytes_bytes]

/-- Where every keypair is loaded, all are. -/
theorem loadFromEnv_ok (loads : ∀ entry ∈ keys.named,
    startup.loadKeypairEnv env (entry.1 ++ "_KEYPAIR") = .ok entry.2) :
    startup.loadFromEnv env = .ok keys := by
  have payer : startup.loadKeypairEnv env "PAYER_KEYPAIR" = .ok keys.payer :=
    loads ("PAYER", keys.payer) (by simp [Keys.named])
  have mint : startup.loadKeypairEnv env "MINT_KEYPAIR" = .ok keys.mint :=
    loads ("MINT", keys.mint) (by simp [Keys.named])
  have sender : startup.loadKeypairEnv env "SENDER_KEYPAIR" = .ok keys.sender :=
    loads ("SENDER", keys.sender) (by simp [Keys.named])
  have receiver : startup.loadKeypairEnv env "RECEIVER_KEYPAIR" = .ok keys.receiver :=
    loads ("RECEIVER", keys.receiver) (by simp [Keys.named])
  have auditor : startup.loadKeypairEnv env "AUDITOR_KEYPAIR" = .ok keys.auditorAuthority :=
    loads ("AUDITOR", keys.auditorAuthority) (by simp [Keys.named])
  rw [Startup.loadFromEnv, payer, mint, sender, receiver, auditor]
  rfl

/-- The printed configuration is loaded as it is printed. -/
theorem loadConfig_printed (documented : startup.Documented)
    (printed : ∀ name value, assigned? (startup.generateEnv now keys) name = some value →
      env name = some value) :
    startup.loadConfig env = .ok (⟨"https://api.devnet.solana.com", 2, 1000000, 250000⟩, 8088) := by
  have rpcUrl := printed "SOLANA_RPC_URL" "https://api.devnet.solana.com"
    (by rw [assigned?, assignments_generateEnv]; rfl)
  have port := printed "DEMO_PORT" "8088" (by rw [assigned?, assignments_generateEnv]; rfl)
  have decimals := printed "MINT_DECIMALS" "2" (by rw [assigned?, assignments_generateEnv]; rfl)
  have deposit := printed "INITIAL_DEPOSIT_UI" "1000000"
    (by rw [assigned?, assignments_generateEnv]; rfl)
  have transfer := printed "TRANSFER_AMOUNT_UI" "250000"
    (by rw [assigned?, assignments_generateEnv]; rfl)
  have million : startup.parseF64 "1000000" = some 1000000 :=
    documented.parseF64 1000000 (by norm_num)
  have quarter : startup.parseF64 "250000" = some 250000 :=
    documented.parseF64 250000 (by norm_num)
  have listens : parseUnsigned (2 ^ 16) "8088" = some 8088 := by decide
  have cents : parseUnsigned (2 ^ 8) "2" = some 2 := by decide
  simp only [Startup.loadConfig, Startup.parseEnvF64, rpcUrl, port, decimals, deposit, transfer,
    million, quarter, Option.bind_some, listens, cents]
  rfl

/-- A server that is started with a printed file as its `.env` has the keypairs that were drawn and
the configuration that was printed, wherever the process sets nothing else itself; a keypair whose
variable it sets is loaded from that, from 64 bytes whose secret half alone counts. -/
theorem generated_env_starts (documented : startup.Documented) (calmNow : calm now = true)
    (drawn : ∀ entry ∈ keys.named, startup.drawn entry.2) :
    (∀ entry ∈ keys.named, ∀ wallet,
      startup.loadKeypairEnv (startup.dotenv (startup.generateEnv now keys) env)
          (entry.1 ++ "_KEYPAIR") = .ok wallet ↔
        (env (entry.1 ++ "_KEYPAIR") = none ∧ wallet = entry.2) ∨
        ∃ raw bytes, env (entry.1 ++ "_KEYPAIR") = some raw ∧
          Json.readBytes raw.toList = some bytes ∧ bytes.length = 64 ∧
            startup.newFromArray (bytes.take 32) = wallet) ∧
    ((∀ name value, assigned? (startup.generateEnv now keys) name = some value →
        env name = none) →
      startup.appState (startup.dotenv (startup.generateEnv now keys) env) =
        .ok (⟨⟨"https://api.devnet.solana.com", 2, 1000000, 250000⟩, keys⟩, 8088)) := by
  constructor
  · intro entry named wallet
    rw [loadKeypairEnv_generateEnv documented calmNow named (drawn entry named)]
    cases set : env (entry.1 ++ "_KEYPAIR") with
    | none => simp [eq_comm]
    | some raw => simp [loadKeypairEnv_ok_iff, set]
  · intro unset
    have printed (name value : String)
        (assigned : assigned? (startup.generateEnv now keys) name = some value) :
        startup.dotenv (startup.generateEnv now keys) env name = some value := by
      rw [dotenv_generateEnv documented calmNow, unset name value assigned, assigned]
      rfl
    have configured := loadConfig_printed documented printed
    have loaded : startup.loadFromEnv (startup.dotenv (startup.generateEnv now keys) env) =
        .ok keys := by
      refine loadFromEnv_ok fun entry named => ?_
      rw [loadKeypairEnv_generateEnv documented calmNow named (drawn entry named),
        unset _ _ (assigned?_keypair named)]
      rfl
    rw [Startup.appState, configured, loaded]
    rfl

/-- One byte of secret for a keypair, and plain files alone. -/
def Startup.demo : Startup where
  drawn wallet := wallet.id < 256
  toBytes wallet := UInt8.ofNat wallet.id :: List.replicate 63 0
  newFromArray secret := ⟨(secret.headD 0).toNat⟩
  pubkey wallet := wallet.id.repr
  parseF64 text := (parseUnsigned (2 ^ 64) text).map (Nat.cast : Nat → ℚ)
  dotenv lines env name := (env name).or (assigned? lines name)

/-- The demo's startup is as documented. -/
theorem Startup.demo_documented : Startup.demo.Documented where
  length _ _ := by simp [Startup.demo]
  secret wallet drawn := by
    have byte : wallet.id < 256 := drawn
    simp [Startup.demo, Nat.mod_eq_of_lt byte]
  pubkey wallet := by
    refine List.all_eq_true.mpr fun character member => ?_
    have digit : character.isDigit = true := by
      rw [Startup.demo, Nat.toList_repr] at member
      exact Nat.isDigit_of_mem_toDigits (by decide) (by decide) member
    refine decide_eq_true fun special => ?_
    rcases special with _ | ⟨_, _ | ⟨_, _ | ⟨_, _ | ⟨_, ⟨⟩⟩⟩⟩⟩ <;> exact absurd digit (by decide)
  parseF64 value exact := by
    have parsed : parseUnsigned (2 ^ 64) value.repr = some value := parseUnsigned_repr (by omega)
    simp only [Startup.demo, parsed, Option.map_some]
  dotenv _ _ _ _ := rfl

/-- The demo's keypairs are printed and loaded again, where the process sets nothing. -/
theorem generated_env_starts_demo : Startup.demo.appState
    (Startup.demo.dotenv (Startup.demo.generateEnv "2025-01-01T00:00:00+00:00" AppState.demo.keys)
      fun _ => none) =
    .ok (⟨⟨"https://api.devnet.solana.com", 2, 1000000, 250000⟩, AppState.demo.keys⟩, 8088) := by
  have drawn : ∀ entry ∈ AppState.demo.keys.named, Startup.demo.drawn entry.2 := by
    show ∀ entry ∈ AppState.demo.keys.named, entry.2.id < 256
    decide
  exact (generated_env_starts Startup.demo_documented (by decide) drawn).2 fun _ _ _ => rfl

end Loading

end ConfidentialBalances
