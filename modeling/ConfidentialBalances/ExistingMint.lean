import ConfidentialBalances.Funding
import ConfidentialBalances.MintSettings
import ConfidentialBalances.Payment
import ConfidentialBalances.Signing

/-!
# Existing mints

Init creates a mint, or finds one and checks it. It creates the mint with the
payer as its authority, the configured decimals, new accounts approved and the
auditor's key; the check of a mint that is found reads the auditor's key alone,
and what follows relies on all four, on the authority only where it mints.
-/

namespace ConfidentialBalances

open Effect

namespace AppState

variable (s : AppState)

/-- The mint that the server would have created, at this supply. -/
def ownMint (supply : Nat) : Mint :=
  ⟨some s.keys.payer.pubkey, s.cfg.mintDecimals, supply,
    some ⟨some s.keys.payer.pubkey, true, some s.auditorElgamal.pubkey⟩⟩

/-- The mint names the server's auditor, which the server checks. -/
def Audited (state : Mint) : Prop :=
  ∃ settings, state.confidential = some settings ∧
    settings.auditorElgamalPubkey = some s.auditorElgamal.pubkey

/-- The mint has the decimals that the server is configured for, and approves new accounts. The
server checks neither. -/
def OwnFormat (state : Mint) : Prop :=
  state.decimals = s.cfg.mintDecimals ∧
    ∃ settings, state.confidential = some settings ∧ settings.autoApproveNewAccounts = true

/-- The mint has the server's other settings, as far as it relies on them: its authority is the
payer, unless the server is configured to mint nothing, and it has the server's format. -/
def OwnSettings (state : Mint) : Prop :=
  (state.mintAuthority = some s.keys.payer.pubkey ∨ s.targetBase = 0) ∧ s.OwnFormat state

/-- What an init on this ledger lacks that reads the sender's account: what it has to mint. -/
def toMint (ledger : Ledger) : Nat :=
  (Sight.mk (s.publicBalance ledger s.keys.sender)
    (s.availableBalance ledger s.keys.sender)).lacking s.targetBase

end AppState

/-- The check of an existing mint can accept. -/
def VerifyAccepts (cluster : Cluster) (s : AppState) (world : World) : Prop :=
  ∃ world', (chainSystem cluster).Ends world (verifyMintMatches s) (.ok ()) world'

/-- The ledger whose mint, where there is one, is the one that the server would have created. -/
def Ledger.withOwnMint (ledger : Ledger) (s : AppState) : Ledger :=
  match (ledger.data s.mint).mint? with
  | some state => ledger.setData s.mint (.mint (s.ownMint state.supply))
  | none => ledger

/-- The mint's settings have the transaction rejected: with the mint that the server would have
created it would have landed. -/
def RejectedByMint (cluster : Cluster) (s : AppState) (ledger : Ledger)
    (transaction : Transaction) : Prop :=
  ledger.execTransaction cluster transaction = none ∧
    (ledger.withOwnMint s).execTransaction cluster transaction ≠ none

/-! ## The server's own mint -/

section Own

variable {sdk : Sdk} {cluster : Cluster} {s : AppState} {ledger ledger' : Ledger} {state : Mint}

/-- A landed creation leaves the server's own mint. -/
theorem createMint_ownMint {rent : Nat} (landed : ledger.execTransaction cluster
      ⟨createMintInstructions sdk s rent, s.keys.payer.pubkey, [s.keys.payer.pubkey, s.mint]⟩ =
        some ledger') :
    ledger'.data s.mint = .mint (s.ownMint 0) := by
  obtain ⟨-, -, ran⟩ := Ledger.execTransaction_some landed
  obtain ⟨allocated, -, rest⟩ := Option.bind_eq_some_iff.mp ran
  obtain ⟨extended, settled, rest⟩ := Option.bind_eq_some_iff.mp rest
  obtain ⟨finished, finishes, done⟩ := Option.bind_eq_some_iff.mp rest
  obtain rfl := Option.some.inj done
  obtain ⟨space, -, rfl⟩ := Ledger.initializeConfidentialTransferMint_some settled
  obtain ⟨settings, data, rfl⟩ := Ledger.initializeMint_some finishes
  obtain rfl : _ = settings := by simpa using data
  simp [AppState.ownMint]

/-- A mint with the server's settings is the one that it would have created, but for the authority
over them, and for the mint authority where that is left out. -/
theorem ownMint_withoutAuthority {minting : Bool} (audited : s.Audited state)
    (format : s.OwnFormat state)
    (own : minting = true → state.mintAuthority = some s.keys.payer.pubkey) (supply : Nat) :
    (s.ownMint supply).withoutAuthority minting =
      ({ state with supply } : Mint).withoutAuthority minting := by
  obtain ⟨mintAuthority, decimals, atFirst, confidential⟩ := state
  obtain ⟨rfl, settings, rfl, approves⟩ := format
  obtain ⟨_, same, audits⟩ := audited
  obtain rfl := Option.some.inj same
  obtain ⟨authority, autoApprove, auditor⟩ := settings
  obtain rfl := approves
  obtain rfl := audits
  cases minting with
  | true =>
    obtain rfl := own rfl
    rfl
  | false => rfl

/-- Where there is a mint, the server's own is written over it. -/
theorem withOwnMint_eq {supply : Nat}
    (data : ledger.data s.mint = .mint { state with supply }) :
    ledger.withOwnMint s = ledger.setData s.mint (.mint (s.ownMint supply)) := by
  unfold Ledger.withOwnMint
  rw [data]
  rfl

/-- The ledger with the server's own mint in place of one with its settings is the ledger, but for
these authorities. -/
theorem withOwnMint_withoutAuthorities {minting : Bool} (audited : s.Audited state)
    (format : s.OwnFormat state)
    (own : minting = true → state.mintAuthority = some s.keys.payer.pubkey)
    (held : HoldsMint ledger.data s.mint state) :
    (ledger.withOwnMint s).withoutAuthorities minting = ledger.withoutAuthorities minting := by
  obtain ⟨supply, data⟩ := held
  have here : (AccountData.mint (s.ownMint supply)).withoutAuthority minting =
      (ledger.withoutAuthorities minting).data s.mint := by
    rw [Ledger.withoutAuthorities_data, data]
    exact congrArg AccountData.mint (ownMint_withoutAuthority audited format own supply)
  rw [withOwnMint_eq data, Ledger.setData_withoutAuthorities, here]
  unfold Ledger.setData
  rw [Function.update_eq_self]

/-- No transaction is rejected by a mint with the server's settings, if the payer is its authority
or the transaction mints nothing. -/
theorem not_rejectedByMint {transaction : Transaction} (audited : s.Audited state)
    (format : s.OwnFormat state) (held : HoldsMint ledger.data s.mint state)
    (own : transaction.mints = true → state.mintAuthority = some s.keys.payer.pubkey) :
    ¬ RejectedByMint cluster s ledger transaction := by
  rintro ⟨rejected, lands⟩
  refine lands ((Ledger.execTransaction_eq_none_iff (fun mints => mints) ?_).mp rejected)
  exact (withOwnMint_withoutAuthorities audited format own held).symm

/-- The check accepts a mint exactly when it names the server's auditor. -/
theorem verifyAccepts_iff {world : World} (data : world.ledger.data s.mint = .mint state) :
    VerifyAccepts cluster s world ↔ s.Audited state := by
  constructor
  · rintro ⟨world', ended⟩
    obtain ⟨-, found, settings, held, extended, auditor⟩ :=
      quietly_verifyMintMatches.ends ended () rfl
    obtain rfl := AccountData.mint.inj (data.symm.trans held)
    exact ⟨settings, extended, auditor⟩
  · rintro ⟨settings, extended, auditor⟩
    have fetched : world.ledger.fetch s.mint = .ok (.mint state) :=
      Ledger.fetch_eq data (by simp)
    refine ⟨world, .next ⟨.succeed, Prod.ext fetched rfl⟩ ?_⟩
    obtain ⟨mintAuthority, decimals, supply, confidential⟩ := state
    obtain rfl := extended
    obtain ⟨authority, autoApprove, named⟩ := settings
    obtain rfl := auditor
    change (chainSystem cluster).Ends world (if _ = _ then _ else _) _ world
    rw [if_pos rfl]
    exact .here

end Own

/-! ## Usable mints -/

/-- The server can use a mint with these settings, whatever its supply. -/
structure MintUsable (cluster : Cluster) (s : AppState) (state : Mint) : Prop where
  /-- Where an init lacks tokens, whatever it sees of the sender's balances, the mint does not
  reject what it mints. -/
  mints : ∀ (ledger : Ledger) (sight : Sight), HoldsMint ledger.data s.mint state →
    0 < sight.lacking s.targetBase →
    ¬ RejectedByMint cluster s ledger (mintTransaction s (sight.lacking s.targetBase))
  /-- The mint does not reject a deposit at the configured decimals. -/
  deposits : ∀ ledger : Ledger, HoldsMint ledger.data s.mint state → ∀ amount,
    ¬ RejectedByMint cluster s ledger
      (depositTransaction s.keys.payer s.keys.sender s.mint amount s.cfg.mintDecimals)
  /-- An account that is configured is approved. -/
  approves : ∀ ledger : Ledger, HoldsMint ledger.data s.mint state →
    ∀ account zero maximum authority proofContext ledger',
      ledger.configureAccount account s.mint zero maximum authority proofContext = some ledger' →
      ∃ extension, ledger'.confidential? account = some extension ∧ extension.approved = true
  /-- A view of an account that was read shows base amounts at the mint's own decimals. -/
  shows : ∀ world : World, HoldsMint world.ledger.data s.mint state →
    ∀ owner transcript view world', (chainSystem cluster).Runs world (readAccountView s owner)
      transcript world' (.done (.ok view)) → Sighted transcript →
      s.Shows world.ledger owner state.decimals view

section Usable

variable {sdk : Sdk} {cluster : Cluster} {s : AppState} {state : Mint}

/-- A mint with the server's settings is usable. -/
theorem mintUsable_of_own (audited : s.Audited state) (own : s.OwnSettings state) :
    MintUsable cluster s state where
  mints ledger sight held lacks := by
    refine not_rejectedByMint audited own.2 held fun _ => own.1.resolve_right fun nothing => ?_
    simp [Sight.lacking, Sight.needed, nothing] at lacks
  deposits ledger held amount := not_rejectedByMint audited own.2 held (by rintro ⟨⟩)
  approves ledger held account zero maximum authority proofContext ledger' configured := by
    obtain ⟨supply, data⟩ := held
    obtain ⟨-, -, settings, extended, approves⟩ := own
    obtain ⟨token, found, settings', pubkey, closer, proof, -, minted, extended', -, -, -, -, -,
      rfl⟩ := Ledger.configureAccount_some configured
    obtain rfl := AccountData.mint.inj (minted.symm.trans data)
    obtain rfl := Option.some.inj (extended'.symm.trans extended)
    exact ⟨.configured settings'.autoApproveNewAccounts pubkey zero maximum,
      by simp [Ledger.confidential?, AccountData.token?], approves⟩
  shows world held owner transcript view world' ran sighted := by
    obtain ⟨-, told⟩ := readAccountView_sees owner _ _ _ ran
    obtain ⟨-, -, shown, -⟩ := told view rfl
    exact own.2.1 ▸ shown sighted

/-- What the server creates it can use. -/
theorem createMint_usable {ledger ledger' : Ledger} {rent : Nat}
    (landed : ledger.execTransaction cluster
      ⟨createMintInstructions sdk s rent, s.keys.payer.pubkey, [s.keys.payer.pubkey, s.mint]⟩ =
        some ledger') :
    ∃ created, ledger'.data s.mint = .mint created ∧ s.Audited created ∧
      MintUsable cluster s created := by
  have audited : s.Audited (s.ownMint 0) := ⟨_, rfl, rfl⟩
  have own : s.OwnSettings (s.ownMint 0) := ⟨.inl rfl, rfl, _, rfl, rfl⟩
  exact ⟨_, createMint_ownMint landed, audited, mintUsable_of_own audited own⟩

/-- A ledger with this mint and this token account of the sender, a verified context, and as many
lamports everywhere. -/
def Ledger.probe (s : AppState) (state : Mint) (token : TokenAccount) (lamports : Nat) :
    Ledger where
  lamports _ := lamports
  data := Function.update (Function.update (Function.update (fun _ => .empty) s.mint (.mint state))
    (s.tokenAccount s.keys.sender) (.token token)) (.generated 0)
      (.proofContext s.keys.payer.pubkey [] (.pubkeyValidity s.auditorElgamal.pubkey))

section Probe

variable {token : TokenAccount} {lamports : Nat}

/-- The probe holds the mint. -/
theorem probe_mint : (Ledger.probe s state token lamports).data s.mint = .mint state := by
  have apart : s.mint ≠ s.tokenAccount s.keys.sender := s.keys.mint.pubkey_ne_associated _ _
  have apart' : s.mint ≠ .generated 0 := s.keys.mint.pubkey_ne_generated 0
  simp [Ledger.probe, apart, apart']

/-- The probe holds the token account. -/
theorem probe_token :
    (Ledger.probe s state token lamports).data (s.tokenAccount s.keys.sender) = .token token := by
  have apart : s.tokenAccount s.keys.sender ≠ .generated 0 := by
    simp [AppState.tokenAccount, getAssociatedTokenAddress]
  simp [Ledger.probe, apart]

/-- A probe holds the mint, whatever its supply. -/
theorem probe_holds (supply : Nat) :
    HoldsMint (Ledger.probe s { state with supply } token lamports).data s.mint state :=
  ⟨supply, probe_mint⟩

end Probe

/-- A transaction of one instruction, once it is signed and its fee can be paid, is its
instruction. -/
theorem execTransaction_one {ledger : Ledger} {instruction : Instruction} {payer : Pubkey}
    {signers : List Pubkey} (signed : Transaction.SignedExactly ⟨[instruction], payer, signers⟩)
    (funded : cluster.fee ⟨[instruction], payer, signers⟩ ≤ ledger.lamports payer) :
    ledger.execTransaction cluster ⟨[instruction], payer, signers⟩ =
      (ledger.chargeFee payer (cluster.fee ⟨[instruction], payer, signers⟩)).execInstruction cluster
        instruction := by
  unfold Ledger.execTransaction
  rw [if_pos ⟨signed, funded⟩]
  exact Option.bind_fun_some _

/-- Minting is signed by the payer. -/
theorem mintTransaction_signed (amount : Nat) : (mintTransaction s amount).SignedExactly := by
  simp [Transaction.SignedExactly, Transaction.requiredSigners, mintTransaction, mintInstructions,
    Instruction.signers, ownerSigners]

/-- Nothing is minted by another than the mint's authority. -/
theorem mintTo_eq_none {ledger : Ledger} {mint account authority : Pubkey} {amount : Nat}
    (minted : ledger.data mint = .mint state) (other : state.mintAuthority ≠ some authority) :
    ledger.mintTo mint account authority amount = none := by
  refine Option.eq_none_iff_forall_ne_some.mpr fun ledger' landed => ?_
  obtain ⟨found, token, data, -, authorized, -⟩ := Ledger.mintTo_some landed
  obtain rfl := AccountData.mint.inj (minted.symm.trans data)
  exact other authorized

/-- A mint without any supply mints what its authority asks for. -/
theorem mintTo_ne_none {ledger : Ledger} {mint account authority : Pubkey} {token : TokenAccount}
    {amount : Nat} (minted : ledger.data mint = .mint state)
    (held : ledger.data account = .token token) (authorized : state.mintAuthority = some authority)
    (same : token.mint = mint) (unused : state.supply = 0) (room : amount < 2 ^ 64) :
    ledger.mintTo mint account authority amount ≠ none := by
  have fits : amount < 18446744073709551616 := room
  simp [Ledger.mintTo, minted, held, AccountData.mint?, AccountData.token?, authorized, same,
    unused, fits]

/-- A usable mint's authority is the payer, where an init can lack anything. -/
theorem MintUsable.mintAuthority (usable : MintUsable cluster s state) :
    state.mintAuthority = some s.keys.payer.pubkey ∨ s.targetBase = 0 := by
  by_contra both
  obtain ⟨other, some⟩ := not_or.mp both
  let transaction := mintTransaction s (Sight.blank.lacking s.targetBase)
  let token : TokenAccount := ⟨s.mint, s.keys.sender.pubkey, 0, false, none⟩
  let ledger := Ledger.probe s { state with supply := 0 } token (cluster.fee transaction)
  have held : HoldsMint ledger.data s.mint state := probe_holds 0
  have minted : ledger.data s.mint = .mint { state with supply := 0 } := probe_mint
  have apart : s.tokenAccount s.keys.sender ≠ s.mint :=
    (s.keys.mint.pubkey_ne_associated _ _).symm
  have whole : Sight.blank.lacking s.targetBase = s.targetBase := rfl
  refine usable.mints ledger .blank held (whole ▸ Nat.pos_of_ne_zero some) ⟨?_, ?_⟩
  · refine (execTransaction_one (mintTransaction_signed _) (le_refl _)).trans ?_
    exact mintTo_eq_none minted other
  · rw [withOwnMint_eq minted]
    refine ne_of_eq_of_ne (execTransaction_one (mintTransaction_signed _) (le_refl _)) ?_
    have held' := (Function.update_of_ne apart (.mint (s.ownMint 0)) ledger.data).trans probe_token
    exact mintTo_ne_none (Function.update_self ..) held' rfl rfl rfl (whole ▸ s.targetBase_lt)

/-- A usable mint's decimals are those configured: a view of one base unit shows it. -/
theorem MintUsable.decimals (usable : MintUsable cluster s state) :
    state.decimals = s.cfg.mintDecimals := by
  let token : TokenAccount := ⟨s.mint, s.keys.sender.pubkey, 1, false, none⟩
  let world : World := ⟨.probe s state token 1, [], 0, [], []⟩
  have data : world.ledger.data (s.tokenAccount s.keys.sender) = .token token := probe_token
  have fetched : world.ledger.fetch (s.tokenAccount s.keys.sender) = .ok (.token token) :=
    Ledger.fetch_eq data (by simp)
  have held : HoldsMint world.ledger.data s.mint state := probe_holds state.supply
  have ran : (chainSystem cluster).Runs world (readAccountView s s.keys.sender)
      [⟨.getAccount (s.tokenAccount s.keys.sender), .ok (.token token)⟩] world
      (.done (.ok ⟨s.keys.sender.pubkey, s.tokenAccount s.keys.sender,
        baseToUi 1 s.cfg.mintDecimals, none, 0, none, 0⟩)) :=
    .next ⟨.succeed, Prod.ext fetched rfl⟩ .here
  have shown := (usable.shows world held _ _ _ _ ran
    (by simp [Sighted, Exchange.unread])).publicUi
  have one : s.publicBalance world.ledger s.keys.sender = 1 := by
    simp [AppState.publicBalance, data, AccountData.token?, token]
  rw [one] at shown
  simp only [baseToUi, Nat.cast_one, one_div, inv_inj] at shown
  exact (pow_right_injective₀ (by norm_num) (by norm_num) shown).symm

/-- A usable mint approves new accounts. -/
theorem MintUsable.autoApprove (usable : MintUsable cluster s state)
    {settings : ConfidentialTransferMint} (extended : state.confidential = some settings) :
    settings.autoApproveNewAccounts = true := by
  let token : TokenAccount := ⟨s.mint, s.keys.sender.pubkey, 0, true, none⟩
  let ledger := Ledger.probe s state token 0
  have minted : ledger.data s.mint = .mint state := probe_mint
  have held : ledger.data (s.tokenAccount s.keys.sender) = .token token := probe_token
  have verified : (ledger.data (.generated 0)).context? =
      some (.pubkeyValidity s.auditorElgamal.pubkey) := by
    simp [ledger, Ledger.probe]
  let extension : ConfidentialTransferAccount :=
    .configured settings.autoApproveNewAccounts s.auditorElgamal.pubkey
      (s.keys.sender.confidentialKeys.aes.encrypt 0) maxPendingBalanceCreditCounter
  have configured : ledger.configureAccount (s.tokenAccount s.keys.sender) s.mint
      (s.keys.sender.confidentialKeys.aes.encrypt 0) maxPendingBalanceCreditCounter
      s.keys.sender.pubkey (.generated 0) =
        some (ledger.setData (s.tokenAccount s.keys.sender)
          (.token { token with confidential := some extension })) := by
    simp [Ledger.configureAccount, minted, held, AccountData.mint?, AccountData.token?, extended,
      verified, token, extension]
  obtain ⟨found, there, approved⟩ :=
    usable.approves ledger (probe_holds state.supply) _ _ _ _ _ _ configured
  obtain rfl : extension = found := by
    simpa [Ledger.confidential?, AccountData.token?] using there
  exact approved

/-- A mint that names the server's auditor is usable exactly when its other settings are the
server's. -/
theorem mintUsable_iff (audited : s.Audited state) :
    MintUsable cluster s state ↔ s.OwnSettings state := by
  constructor
  · intro usable
    obtain ⟨settings, extended, -⟩ := audited
    exact ⟨usable.mintAuthority, usable.decimals, settings, extended, usable.autoApprove extended⟩
  · exact mintUsable_of_own audited

end Usable

/-! ## Init -/

/-- Nothing that init does is hindered by the settings of the mint that it found. -/
structure InitUnhindered (sdk : Sdk) (cluster : Cluster) (s : AppState) (state : Mint)
    (world : World) : Prop where
  /-- No transaction that it sends is rejected by the mint; where the payer is not the mint's
  authority, this holds as long as every account that init asked for was read. -/
  sends : ∀ transcript world' transaction next, (chainSystem cluster).Runs world
      (initHandler sdk s) transcript world' (.call (.sendAndConfirmTransaction transaction) next) →
    state.mintAuthority = some s.keys.payer.pubkey ∨ Sighted transcript →
    ¬ RejectedByMint cluster s world'.ledger transaction
  /-- Every account of the mint that is configured meanwhile is approved. -/
  approves : ∀ world' program', (chainSystem cluster).Reaches world (initHandler sdk s) world'
      program' →
    ∀ key, world.ledger.confidential? key = none → ApprovedAt world'.ledger.data s.mint key
  /-- The response shows the balances at the mint's own decimals, where both accounts were read. -/
  shows : ∀ transcript response world', (chainSystem cluster).Runs world (initHandler sdk s)
      transcript world' (.done (.ok response)) → Sighted transcript →
    response.state.decimals = state.decimals ∧
      s.Shows world'.ledger s.keys.sender state.decimals response.state.sender ∧
      s.Shows world'.ledger s.keys.receiver state.decimals response.state.receiver

/-! ### What init mints -/

/-- A request to submit a transaction is for one that mints nothing. -/
def Call.MintsNothing : Call → Prop
  | .sendAndConfirmTransaction transaction => transaction.mints = false
  | _ => True

/-- The program submits no transaction that mints. -/
abbrev MintsNothing {α : Type} (program : Client α) : Prop :=
  program.Within Call.Promised Call.MintsNothing fun _ => True

section Minting

variable {α : Type} {sdk : Sdk} {cluster : Cluster} {s : AppState}

/-- A silent program mints nothing. -/
theorem SilentBut.mintsNothing {skipped : Exchange Reply → Bool} {program : Client α}
    (silent : SilentBut skipped program) : MintsNothing program := by
  refine (silent.uses fun request asks => ?_).within
  cases request with
  | sendAndConfirmTransaction transaction => exact asks.elim
  | _ => trivial

/-- `send_tx` mints nothing when its transaction does not. -/
theorem mintsNothing_sendTx {instructions : List Instruction} (signers : List Pubkey)
    (feePayer : Pubkey) (none : instructions.any Instruction.mints = false) :
    MintsNothing (sendTx instructions signers feePayer) :=
  within_sendTx trivial trivial none

/-- Making sure of the mint mints nothing. -/
theorem mintsNothing_ensureMint : MintsNothing (ensureMint sdk s) := by
  refine (lenient_mintExists _).mintsNothing.bind fun found _ => ?_
  split
  · have creates : MintsNothing (createConfidentialMint sdk s) :=
      (silent_getMinimumBalanceForRentExemption _).mintsNothing.bind fun rent _ =>
        mintsNothing_sendTx _ _ rfl
    exact creates.bind fun _ _ => Program.within_pure trivial
  · exact (silent_verifyMintMatches s).mintsNothing.bind fun _ _ => Program.within_pure trivial

/-- Making sure of an account mints nothing. -/
theorem mintsNothing_ensureConfidentialAccount (owner : Wallet) :
    MintsNothing (ensureConfidentialAccount sdk s owner) := by
  refine (lenient_ataIsConfigured _).mintsNothing.bind fun found _ => ?_
  split
  · refine (mintsNothing_sendTx _ _ rfl).bind fun _ _ => ?_
    have configures : MintsNothing
        (configureAccountForConfidentialTransfers sdk s.keys.payer owner s.mint) := by
      refine (silent_deriveConfidentialKeys _).mintsNothing.bind fun keys _ => ?_
      refine Program.within_ofExcept.bind fun proofData _ => ?_
      refine silent_newKeypair.mintsNothing.bind fun proofAccount _ => ?_
      refine (silent_getMinimumBalanceForRentExemption _).mintsNothing.bind fun rent _ => ?_
      exact mintsNothing_sendTx _ _ rfl
    exact (configures.mapError _).bind fun _ _ => Program.within_pure trivial
  · exact Program.within_pure trivial

/-- What init prepares it does without minting. -/
theorem mintsNothing_initPrepare : MintsNothing (initPrepare sdk s) := by
  refine (silent_requireFunds s _ _ _ _).mintsNothing.bind fun _ _ => ?_
  refine mintsNothing_ensureMint.bind fun _ _ => ?_
  refine (mintsNothing_ensureConfidentialAccount _).bind fun _ _ => ?_
  refine (mintsNothing_ensureConfidentialAccount _).bind fun _ _ => ?_
  exact Program.within_pure trivial

/-- An init whose view of the sender lacks nothing mints nothing from there on. -/
theorem mintsNothing_initRest (sigs : List Signature) {view : AccountView}
    (enough : s.targetBase - uiToBase view.availableUi s.cfg.mintDecimals ≤
      uiToBase view.publicUi s.cfg.mintDecimals) : MintsNothing (initRest s sigs view) := by
  have funds : MintsNothing (initFund s view) := by
    unfold initFund
    simp only
    split
    · unfold fundSender mintLacking
      rw [if_neg (by omega)]
      refine Program.Within.bind (Program.within_pure trivial) fun minted (_ : True) => ?_
      have deposits (amount decimals : Nat) : MintsNothing
          (depositToConfidential s.keys.payer s.keys.sender s.mint amount decimals) :=
        mintsNothing_sendTx _ _ rfl
      refine Program.Within.bind ((deposits _ _).mapError _) fun depSig _ => ?_
      have applies : MintsNothing
          (applyPendingBalance s.keys.payer s.keys.sender s.mint) := by
        refine (silent_deriveConfidentialKeys _).mintsNothing.bind fun keys _ => ?_
        refine (silent_fetchConfidential _).mintsNothing.bind fun extension _ => ?_
        refine Program.within_ofExcept.bind fun values _ => ?_
        exact mintsNothing_sendTx _ _ rfl
      refine (applies.mapError _).bind fun applySig _ => ?_
      exact ⟨trivial, fun _ _ => ⟨trivial, fun _ _ => Program.within_pure trivial⟩⟩
    · exact Program.within_pure trivial
  refine funds.bind fun _ _ => ?_
  exact (lenient_readLedgerState s).mintsNothing.bind fun _ _ => Program.within_pure trivial

/-- A view lacks what the ledger that it shows does. -/
theorem AppState.Shows.lacks {ledger : Ledger} {view : AccountView}
    (shown : s.Shows ledger s.keys.sender s.cfg.mintDecimals view) :
    s.targetBase - uiToBase view.availableUi s.cfg.mintDecimals -
      uiToBase view.publicUi s.cfg.mintDecimals = s.toMint ledger := by
  have bound := s.targetBase_lt
  rw [shown.publicUi, shown.availableUi, uiToBase_baseToUi, uiToBase_baseToUi]
  simp only [AppState.toMint, Sight.lacking, Sight.needed]
  omega

variable {world world' : World} {state : Mint} {transcript : List (Exchange Reply)}

/-- A program that mints nothing comes to no transaction that does. -/
theorem MintsNothing.submitted {program : Client α} {transaction : Transaction}
    {next : Reply (.sendAndConfirmTransaction transaction) → Client α}
    (none : MintsNothing program) (run : (chainSystem cluster).Runs world program transcript world'
      (.call (.sendAndConfirmTransaction transaction) next)) : transaction.mints = false :=
  (run.reaches.within (chain_promises cluster) none).1

/-- What an init comes to submit that read every account mints nothing, where nothing is lacking. -/
theorem initHandler_mintsNothing {transaction : Transaction}
    {next : Reply (.sendAndConfirmTransaction transaction) → Client ActionResponse}
    (run : (chainSystem cluster).Runs world (initHandler sdk s) transcript world'
      (.call (.sendAndConfirmTransaction transaction) next)) (sighted : Sighted transcript)
    (enough : s.toMint world.ledger = 0) : transaction.mints = false := by
  rw [initHandler_eq] at run
  obtain ⟨next, run⟩ := run.catchPanic_call
  rcases run.bind_call with ⟨next', preparing⟩ |
    ⟨sigs, first, middle, later, rfl, prepared, run⟩
  · exact mintsNothing_initPrepare.submitted preparing
  obtain ⟨-, ready⟩ := initPrepare_serves.ends prepared.reaches sigs rfl
  rcases run.bind_call with ⟨next', viewing⟩ |
    ⟨view, second, last, rest, rfl, viewed, rested⟩
  · exact (lenient_readAccountView s _).mintsNothing.submitted viewing
  obtain ⟨-, told⟩ := readAccountView_sees s.keys.sender _ _ _ viewed
  obtain ⟨rfl, -, shown, -⟩ := told view rfl
  have seen := (sighted_append _ _).mp ((sighted_append _ _).mp sighted).2
  have same : s.toMint last.ledger = s.toMint world.ledger := by
    simp only [AppState.toMint, ready.publicBalance, ready.availableBalance]
  have lacks := (shown seen.1).lacks
  exact (mintsNothing_initRest sigs (by omega)).submitted rested

/-- A landed mint is the payer's. -/
theorem mintToSender_authorized {amount : Nat} {sig : Signature}
    (held : HoldsMint world.ledger.data s.mint state)
    (run : (chainSystem cluster).Runs world (mintToSender s amount) transcript world'
      (.done (.ok sig))) : state.mintAuthority = some s.keys.payer.pubkey := by
  obtain ⟨plan, rfl, landed, -⟩ := (follows_sendTx _ _ _).ends run.reaches
  obtain ⟨charged, same, executed⟩ := Ledger.execTransaction_single landed.single
  obtain ⟨found, token, data, -, authorized, -⟩ := Ledger.mintTo_some executed
  obtain ⟨supply, minted⟩ := held
  rw [same, minted] at data
  obtain rfl := AccountData.mint.inj data
  exact authorized

/-- An init that read every account returns only if the payer is the mint's authority or nothing is
lacking. -/
theorem initHandler_authorized {response : ActionResponse}
    (held : HoldsMint world.ledger.data s.mint state)
    (run : (chainSystem cluster).Runs world (initHandler sdk s) transcript world'
      (.done (.ok response))) (sighted : Sighted transcript) :
    state.mintAuthority = some s.keys.payer.pubkey ∨ s.toMint world.ledger = 0 := by
  rw [initHandler_eq] at run
  obtain ⟨sigs, first, middle, later, rfl, prepared, goes⟩ := run.catchPanic_ok.bind_ok
  obtain ⟨-, ready⟩ := initPrepare_serves.ends prepared.reaches sigs rfl
  obtain ⟨view, second, last, rest, rfl, viewed, rests⟩ := goes.bind_ok
  obtain ⟨-, told⟩ := readAccountView_sees s.keys.sender _ _ _ viewed
  obtain ⟨rfl, -, shown, -⟩ := told view rfl
  have seen := (sighted_append _ _).mp ((sighted_append _ _).mp sighted).2
  have same : s.toMint last.ledger = s.toMint world.ledger := by
    simp only [AppState.toMint, ready.publicBalance, ready.availableBalance]
  have lacks := (shown seen.1).lacks
  by_cases short : uiToBase view.publicUi s.cfg.mintDecimals <
      s.targetBase - uiToBase view.availableUi s.cfg.mintDecimals
  case neg => exact .inr (by omega)
  -- The payer mints what the view lacks, before anything else.
  obtain ⟨topUp, third, funded, fourth, rfl, funding, -⟩ := rests.bind_ok
  unfold initFund at funding
  simp only [if_pos (show uiToBase view.availableUi s.cfg.mintDecimals < s.targetBase by omega)]
    at funding
  obtain ⟨minted, fifth, after, sixth, rfl, minting, -⟩ := funding.bind_ok
  unfold mintLacking at minting
  rw [if_pos short] at minting
  obtain ⟨sig, seventh, done, eighth, rfl, sent, -⟩ := minting.bind_ok
  exact .inl (mintToSender_authorized (reaches_holdsMint prepared.reaches held) sent)

end Minting

section Init

variable {sdk : Sdk} {cluster : Cluster} {s : AppState} {state : Mint} {world : World}

/-- Init's response shows the balances of the ledger that it leaves, where both accounts were
read. -/
theorem initHandler_shows :
    (chainSystem cluster).Shows (fun outcome transcript world' => ∀ response,
      outcome = .ok response → response.state.decimals = s.cfg.mintDecimals ∧
        (Sighted transcript →
          s.Shows world'.ledger s.keys.sender s.cfg.mintDecimals response.state.sender ∧
          s.Shows world'.ledger s.keys.receiver s.cfg.mintDecimals response.state.receiver))
      (initHandler sdk s) world := by
  rintro transcript outcome world' run response rfl
  rw [initHandler_eq] at run
  obtain ⟨sigs, first, w1, later, rfl, -, views⟩ := run.catchPanic_ok.bind_ok
  obtain ⟨view, second, w2, later, rfl, -, rests⟩ := views.bind_ok
  obtain ⟨topUpSigs, third, w3, later, rfl, -, reads⟩ := rests.bind_ok
  obtain ⟨ledgerState, fourth, w4, last, rfl, read, ended⟩ := reads.bind_ok
  obtain ⟨rfl, decimals, shown⟩ := readLedgerState_sees _ _ _ read ledgerState rfl
  cases ended
  refine ⟨decimals, fun sighted => shown ?_⟩
  simp only [sighted_append] at sighted
  exact sighted.2.2.2.1

/-- Init is not hindered by a mint with the server's format, if the payer is its authority or
nothing is lacking. -/
theorem initUnhindered (data : world.ledger.data s.mint = .mint state)
    (audited : s.Audited state) (format : s.OwnFormat state)
    (mints : state.mintAuthority = some s.keys.payer.pubkey ∨ s.toMint world.ledger = 0) :
    InitUnhindered sdk cluster s state world := by
  have held : HoldsMint world.ledger.data s.mint state := ⟨state.supply, data⟩
  refine ⟨fun transcript world' transaction next run seen => ?_,
    fun world' program' run key fresh => ?_, fun transcript response world' run sighted => ?_⟩
  · refine not_rejectedByMint audited format (reaches_holdsMint run.reaches held) fun minting => ?_
    by_contra other
    have none := initHandler_mintsNothing run (seen.resolve_left other) (mints.resolve_left other)
    exact absurd minting (by simp [none])
  · obtain ⟨-, settings, extended, approves⟩ := format
    exact reaches_approved run held extended approves fresh
  · obtain ⟨decimals, shown⟩ := initHandler_shows _ _ _ run response rfl
    rw [format.1]
    exact ⟨decimals, shown sighted⟩

/-- If init accepts an existing mint, the mint is usable: this holds of the mints that do not name
the server's auditor, and of those whose authority is the payer, unless the server mints nothing,
whose decimals are those configured and that approve new accounts. On a mint with the server's
format, nothing that an init does is hindered by the mint if the payer is its authority or nothing
is lacking; and in no other case does an init return that read every account. -/
theorem existing_mint_usable_iff (sdk : Sdk) (cluster : Cluster) (s : AppState) (state : Mint) :
    ((∀ world : World, world.ledger.data s.mint = .mint state → VerifyAccepts cluster s world →
        MintUsable cluster s state) ↔ (s.Audited state → s.OwnSettings state)) ∧
    ∀ world : World, world.ledger.data s.mint = .mint state →
      (VerifyAccepts cluster s world → s.OwnFormat state →
        state.mintAuthority = some s.keys.payer.pubkey ∨ s.toMint world.ledger = 0 →
        InitUnhindered sdk cluster s state world) ∧
      ∀ transcript response world', (chainSystem cluster).Runs world (initHandler sdk s) transcript
        world' (.done (.ok response)) → Sighted transcript →
        state.mintAuthority = some s.keys.payer.pubkey ∨ s.toMint world.ledger = 0 := by
  refine ⟨⟨fun accepted audited => ?_, fun own world data accepts => ?_⟩,
    fun world data => ⟨fun accepts format mints => ?_,
      fun transcript response world' run seen => ?_⟩⟩
  · let world : World := ⟨.probe s state ⟨s.mint, s.keys.sender.pubkey, 0, false, none⟩ 0, [], 0,
      [], []⟩
    have data : world.ledger.data s.mint = .mint state := probe_mint
    exact (mintUsable_iff audited).mp (accepted world data ((verifyAccepts_iff data).mpr audited))
  · have audited := (verifyAccepts_iff data).mp accepts
    exact (mintUsable_iff audited).mpr (own audited)
  · exact initUnhindered data ((verifyAccepts_iff data).mp accepts) format mints
  · exact initHandler_authorized ⟨state.supply, data⟩ run seen

/-- A mint that names the demo's auditor, with these settings. -/
def Mint.demo (mintAuthority : Option Pubkey) (decimals : Nat) (autoApprove : Bool) : Mint :=
  ⟨mintAuthority, decimals, 0, some ⟨none, autoApprove, some AppState.demo.auditorElgamal.pubkey⟩⟩

/-- The demo with another mint, and so much in the sender's available balance. -/
def World.demoMint (available : Nat) (state : Mint) : World :=
  { World.demo 0 available with
    ledger := (World.demo 0 available).ledger.setData AppState.demo.mint (.mint state) }

/-- The mint names the auditor that the demo expects. -/
theorem demoMint_audited (mintAuthority : Option Pubkey) (decimals : Nat) (autoApprove : Bool) :
    AppState.demo.Audited (.demo mintAuthority decimals autoApprove) :=
  ⟨_, rfl, rfl⟩

/-- The mint is at its address. -/
theorem demoMint_data (available : Nat) (state : Mint) :
    (World.demoMint available state).ledger.data AppState.demo.mint = .mint state := by
  simp [World.demoMint]

/-- A mint with the payer as its authority and the configured two decimals, that approves new
accounts, is usable, and the demo's init is not hindered by it; nor is it by one without an
authority, for a sender that has enough. Where it returns, nothing was lacking. -/
theorem existing_mint_usable_demo :
    MintUsable Cluster.ideal .demo (.demo (some AppState.demo.keys.payer.pubkey) 2 true) ∧
      InitUnhindered Sdk.ideal Cluster.ideal .demo
        (.demo (some AppState.demo.keys.payer.pubkey) 2 true)
        (.demoMint 0 (.demo (some AppState.demo.keys.payer.pubkey) 2 true)) ∧
      InitUnhindered Sdk.ideal Cluster.ideal .demo (.demo none 2 true)
        (.demoMint 5 (.demo none 2 true)) ∧
      AppState.demo.toMint (World.demoMint 5 (.demo none 2 true)).ledger = 0 := by
  obtain ⟨usable, own⟩ := existing_mint_usable_iff Sdk.ideal Cluster.ideal .demo
    (.demo (some AppState.demo.keys.payer.pubkey) 2 true)
  obtain ⟨-, other⟩ := existing_mint_usable_iff Sdk.ideal Cluster.ideal .demo (.demo none 2 true)
  have accepts (funds : Nat) (authority : Option Pubkey) : VerifyAccepts Cluster.ideal .demo
      (.demoMint funds (.demo authority 2 true)) :=
    (verifyAccepts_iff (demoMint_data _ _)).mpr (demoMint_audited _ _ _)
  have enough : AppState.demo.toMint (World.demoMint 5 (.demo none 2 true)).ledger = 0 := by
    decide +kernel
  refine ⟨usable.mpr (fun _ => ⟨.inl rfl, rfl, _, rfl, rfl⟩) _ (demoMint_data 0 _) (accepts _ _),
    (own _ (demoMint_data 0 _)).1 (accepts _ _) ⟨rfl, _, rfl, rfl⟩ (.inl rfl),
    (other _ (demoMint_data 5 _)).1 (accepts _ _) ⟨rfl, _, rfl, rfl⟩ (.inr enough), ?_⟩
  let ran := (chain Cluster.ideal).run_runs (initHandler Sdk.ideal .demo)
    (.demoMint 5 (.demo none 2 true)) []
  obtain ⟨response, returned⟩ := Outcome.isOk_iff.mp (show ((chain Cluster.ideal).run
    (initHandler Sdk.ideal .demo) (.demoMint 5 (.demo none 2 true)) []).1.isOk = true by
      decide +kernel)
  rw [returned] at ran
  exact ((other _ (demoMint_data 5 _)).2 _ response _ ran (by decide +kernel)).resolve_left
    (by rintro ⟨⟩)

/-- Init accepts a mint of another authority, and its minting is then rejected, which it is not with
the payer as the authority. It also accepts a mint of three decimals, or one that leaves new
accounts to be approved. None of them is usable. -/
theorem existing_mint_unusable :
    ((chain Cluster.ideal).run (verifyMintMatches .demo)
        (.demoMint 0 (.demo (some AppState.demo.keys.sender.pubkey) 2 true)) []).1.isOk = true ∧
      ((chain Cluster.ideal).run (initHandler Sdk.ideal .demo)
        (.demoMint 0 (.demo (some AppState.demo.keys.sender.pubkey) 2 true)) []).1.isOk = false ∧
      ((chain Cluster.ideal).run (initHandler Sdk.ideal .demo)
        (.demoMint 0 (.demo (some AppState.demo.keys.payer.pubkey) 2 true)) []).1.isOk = true ∧
      ∀ state ∈ [Mint.demo (some AppState.demo.keys.sender.pubkey) 2 true,
          .demo (some AppState.demo.keys.payer.pubkey) 3 true,
          .demo (some AppState.demo.keys.payer.pubkey) 2 false],
        VerifyAccepts Cluster.ideal .demo (.demoMint 0 state) ∧
          ¬ MintUsable Cluster.ideal .demo state := by
  refine ⟨by decide +kernel, by decide +kernel, by decide +kernel, ?_⟩
  simp only [List.mem_cons, List.not_mem_nil, or_false]
  rintro state (rfl | rfl | rfl)
  all_goals
    refine ⟨(verifyAccepts_iff (demoMint_data _ _)).mpr (demoMint_audited _ _ _),
      fun usable => ?_⟩
    obtain ⟨authority, decimals, settings, extended, approves⟩ :=
      (mintUsable_iff (demoMint_audited _ _ _)).mp usable
    obtain rfl := Option.some.inj extended
    revert authority decimals approves
    decide +kernel

end Init

end ConfidentialBalances
