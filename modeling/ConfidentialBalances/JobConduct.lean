import ConfidentialBalances.Conduct

/-!
# The jobs conduct themselves

Function by function: what each part of the library and of the server submits
is orderly, what it returns are the signatures that it was given, in order, and
what it logs is one entry under one of them. Every job is put together from
these.
-/

namespace ConfidentialBalances

open Effect

/-! ## Parts that make plain requests -/

section Plain

variable {α β : Type}

/-- Returning a value makes no request. -/
theorem plain_pure (value : α) : Plain (pure value : Client α) := Program.within_pure trivial

/-- One plain program after another. -/
theorem plain_bind {program : Client α} {rest : α → Client β} (first : Plain program)
    (second : ∀ value, Plain (rest value)) : Plain (program >>= rest) :=
  Program.Within.bind first fun value _ => second value

/-- Returning a computed result makes no request. -/
theorem plain_ofExcept (result : Except ClientError α) : Plain (Program.ofExcept result) :=
  Program.within_ofExcept

/-- A plain request is a plain program. -/
theorem plain_ask {request : Call} (plain : request.Plain) : Plain (ask request) :=
  ⟨plain, fun _ _ => Program.within_pure trivial⟩

/-- Emitting is a plain request, or none. -/
theorem plain_emit (sink : ProgressSink) (event : TransferProgress) : Plain (emit sink event) := by
  cases sink with
  | none => exact plain_pure ()
  | broadcast => exact plain_ask trivial

/-- Emitting the stage events makes plain requests only. -/
theorem plain_emitStages (progress : ProgressSink) (index : Nat) (sigs : List Signature) :
    Plain (emitStages progress index sigs) := by
  induction sigs generalizing index with
  | nil => exact plain_pure ()
  | cons sig rest ih => exact plain_bind (plain_emit _ _) fun _ => ih _

end Plain

/-! ## What is submitted is orderly -/

section Orderly

variable (sdk : Sdk) {party : Party} {owner : Wallet} {owned : List Pubkey}

/-- One instruction on an associated token account that moves no lamports. -/
theorem orderly_token {instruction : Instruction}
    (tokens : instruction.writes = instruction.tokenWrites)
    (associated : ∀ key ∈ instruction.writes,
      ∃ owner mint, key = getAssociatedTokenAddress owner mint)
    (unpaid : instruction.lamportKeys = []) : Orderly party owned [instruction] := by
  refine ⟨?_, ?_, party.payer, List.mem_cons_self, .token tokens .nil⟩
  · rintro _ (_ | ⟨_, ⟨⟩⟩) key written
    exact .inr (associated key written)
  · rintro _ (_ | ⟨_, ⟨⟩⟩) key moved
    rw [unpaid] at moved
    contradiction

/-- Creating a context in an account of the job's. -/
theorem orderly_createAndVerify (held : owner ∈ party.owners) (proofType : ProofType)
    {key : Pubkey} (rent : Nat) (proof : List UInt8) (own : key ∈ owned) :
    Orderly party owned (createAndVerify sdk party.payer owner proofType key rent proof) :=
  ⟨by simp [createAndVerify, Instruction.writes, own],
    by simp [createAndVerify, Instruction.lamportKeys, own], owner, List.mem_cons_of_mem _ held,
    .context own .nil⟩

/-- Starting a record in an account of the job's. -/
theorem orderly_stage {record : Pubkey} (rent space : Nat) (first : List UInt8)
    (own : record ∈ owned) :
    Orderly party owned (stageInstructions party.payer record rent space first) :=
  ⟨by simp [stageInstructions, Instruction.writes, own],
    by simp [stageInstructions, Instruction.lamportKeys, own], party.payer,
    List.mem_cons_self, .record own (.write own .nil)⟩

/-- Verifying the range proof from a record. -/
theorem orderly_range (held : owner ∈ party.owners) {range : Pubkey} (record : Pubkey)
    (rent : Nat) (own : range ∈ owned) :
    Orderly party owned (rangeInstructions sdk party.payer owner range record rent) :=
  ⟨by simp [rangeInstructions, Instruction.writes, own],
    by simp [rangeInstructions, Instruction.lamportKeys, own], owner, List.mem_cons_of_mem _ held,
    .contextFrom own .nil⟩

/-- Writing to a record, with what rides on the last write. -/
theorem orderly_write {record : Pubkey} {trailing : List Instruction} (offset : Nat)
    (chunk : List UInt8) (last : Bool) (own : record ∈ owned)
    (orderly : Orderly party owned trailing) :
    Orderly party owned (writeInstructions party.payer record trailing offset chunk last) := by
  obtain ⟨writer, held, tidy⟩ := orderly.tidy
  cases last with
  | false =>
    exact ⟨by simp [writeInstructions, Instruction.writes, own],
      by simp [writeInstructions, Instruction.lamportKeys], party.payer, List.mem_cons_self,
        .write own .nil⟩
  | true =>
    exact ⟨by simpa [writeInstructions, Instruction.writes, own] using orderly.writes,
      by simpa [writeInstructions, Instruction.lamportKeys] using orderly.lamports, writer,
      held, .write own tidy⟩

/-- Closing a context of the job's. -/
theorem orderly_close (held : owner ∈ party.owners) {key : Pubkey} (own : key ∈ owned) :
    Orderly party owned [.closeContextState ⟨key, owner.pubkey⟩ party.payer.pubkey] :=
  ⟨by simp [Instruction.writes, own], by simp [Instruction.lamportKeys, own], owner,
    List.mem_cons_of_mem _ held, .closeContext .nil⟩

/-- Configuring an account from a context of the job's. -/
theorem orderly_configure (held : owner ∈ party.owners) (mint : Pubkey) {key : Pubkey}
    (rent : Nat) (zero : AeCiphertext) (proof : List UInt8) (own : key ∈ owned) :
    Orderly party owned (configureInstructions sdk party.payer owner mint key rent zero proof) := by
  refine ⟨?_, ?_, owner, List.mem_cons_of_mem _ held, .token rfl (.context own (.token rfl .nil))⟩
  · simp [configureInstructions, createAndVerify, Instruction.writes, own,
      getAssociatedTokenAddress]
  · simp [configureInstructions, createAndVerify, Instruction.lamportKeys, own,
      getAssociatedTokenAddress]

/-- The transfer with its closes. -/
theorem orderly_transfer (held : owner ∈ party.owners) (mint recipient : Pubkey)
    (newDecryptable : AeCiphertext) (lo hi : ElGamalCiphertext)
    {equality validity range record : Pubkey} (equalityOwn : equality ∈ owned)
    (validityOwn : validity ∈ owned) (rangeOwn : range ∈ owned) (recordOwn : record ∈ owned) :
    Orderly party owned (transferInstructions party.payer owner mint recipient newDecryptable lo hi
      equality validity range record) := by
  refine ⟨?_, ?_, owner, List.mem_cons_of_mem _ held, .token rfl (.closeContext (.closeContext
    (.closeContext (.closeRecord .nil))))⟩
  · simp [transferInstructions, Instruction.writes, getAssociatedTokenAddress, equalityOwn,
      validityOwn, rangeOwn, recordOwn]
  · simp [transferInstructions, Instruction.lamportKeys, equalityOwn, validityOwn, rangeOwn,
      recordOwn]

/-- Creating an associated token account. -/
theorem orderly_createTokenAccount (wallet mint : Pubkey) :
    Orderly party owned [.createAssociatedTokenAccountIdempotent party.payer.pubkey wallet mint] :=
  ⟨by simp [Instruction.writes, getAssociatedTokenAddress],
    by simp [Instruction.lamportKeys, getAssociatedTokenAddress], party.payer, List.mem_cons_self,
    .token rfl .nil⟩

end Orderly

/-! ## The library -/

section Library

variable (sdk : Sdk) {party : Party} {owned : List Pubkey}

/-- A call of one transaction: it is told its one signature. -/
abbrev TellsOne (party : Party) (owned : List Pubkey) (program : Client Signature) :
    Prop :=
  Tells party owned (fun sig sigs logged => sigs = [sig] ∧ logged = []) program

/-- Configuring is told of its transaction. -/
theorem tells_configure {authority : Wallet} (held : authority ∈ party.owners) (mint : Pubkey) :
    TellsOne party owned
      (configureAccountForConfidentialTransfers sdk party.payer authority mint) := by
  refine tells_after (silent_deriveConfidentialKeys _).plain fun keys => ?_
  refine tells_after (plain_ofExcept _) fun proofData => ?_
  refine tells_newKeypair fun index => ?_
  refine tells_after (silent_getMinimumBalanceForRentExemption _).plain fun rent => ?_
  exact tells_sendTx _
    (.orderly (orderly_configure sdk held mint rent _ proofData List.mem_cons_self)) rfl

/-- Depositing is told of its transaction. -/
theorem tells_deposit (authority : Wallet) (mint : Pubkey) (amount decimals : Nat) :
    TellsOne party owned (depositToConfidential party.payer authority mint amount decimals) :=
  tells_sendTx _ (.orderly (orderly_token rfl
    (by simp [Instruction.writes, getAssociatedTokenAddress]) rfl)) rfl

/-- Applying is told of its transaction. -/
theorem tells_applyPending (authority : Wallet) (mint : Pubkey) :
    TellsOne party owned (applyPendingBalance party.payer authority mint) := by
  refine tells_after (silent_deriveConfidentialKeys _).plain fun keys => ?_
  refine tells_after (silent_fetchConfidential _).plain fun extension => ?_
  refine tells_after (plain_ofExcept _) fun values => ?_
  exact tells_sendTx _ (.orderly (orderly_token rfl
    (by simp [Instruction.writes, getAssociatedTokenAddress]) rfl)) rfl

/-- The closing loop is told a signature for each account. -/
theorem tells_closeContextStates {authority : Wallet} (held : authority ∈ party.owners)
    (accounts : List Pubkey) (sigs : List Signature) (own : accounts ⊆ owned) :
    Tells party owned (fun all more logged => all = sigs ++ more ∧
        more.length = accounts.length ∧ logged = [])
      (closeContextStates party.payer authority accounts sigs) := by
  induction accounts generalizing sigs with
  | nil => exact tells_pure ⟨by simp, rfl, rfl⟩
  | cons account rest ih =>
    refine tells_sent (orderly_close held (own List.mem_cons_self)) rfl fun sig => ?_
    refine (ih (sigs ++ [sig]) fun key member => own (List.mem_cons_of_mem _ member)).weaken ?_
    rintro all more logged ⟨rfl, closed, rfl⟩
    exact ⟨by simp, by simp [closed], rfl⟩

/-- A withdraw returns the third of the five signatures that it was told. -/
theorem tells_withdraw {authority : Wallet} (held : authority ∈ party.owners) (mint : Pubkey)
    (amount decimals : Nat) :
    Tells party owned (fun sig sigs logged =>
        sigs.length = 5 ∧ sigs[2]? = some sig ∧ logged = [])
      (withdrawFromConfidential sdk party.payer authority mint amount decimals) := by
  refine tells_after (silent_deriveConfidentialKeys _).plain fun keys => ?_
  refine tells_after (silent_fetchConfidential _).plain fun extension => ?_
  refine tells_after (plain_ofExcept _) fun values => ?_
  refine tells_newKeypair fun equality => ?_
  refine tells_after (silent_getMinimumBalanceForRentExemption _).plain fun equalityRent => ?_
  refine tells_sent (orderly_createAndVerify sdk held _ equalityRent _ List.mem_cons_self) rfl
    fun first => ?_
  refine tells_newKeypair fun range => ?_
  refine tells_after (silent_getMinimumBalanceForRentExemption _).plain fun rangeRent => ?_
  refine tells_sent (orderly_createAndVerify sdk held _ rangeRent _ List.mem_cons_self) rfl
    fun second => ?_
  refine tells_sent (orderly_token rfl
    (by simp [Instruction.writes, getAssociatedTokenAddress]) rfl) rfl fun third => ?_
  refine Tells.bind (tells_closeContextStates held _ _ (by simp)) ?_
  rintro all more logged ⟨rfl, closed, rfl⟩
  exact tells_pure ⟨by simp [closed], by simp, rfl⟩

/-- The loop over the chunks is told a signature for each. -/
theorem tells_writeChunks {record : Pubkey} {trailing : List Instruction}
    (trailingSigners : List Pubkey) (own : record ∈ owned) (orderly : Orderly party owned trailing)
    (unminted : (trailing.map Instruction.minted).sum = 0) (remaining : List (List UInt8))
    (offset : Nat) (sigs : List Signature) (trailingAttached : Bool) :
    Tells party owned (fun result more logged => result.1 = sigs ++ more ∧ logged = [])
      (writeChunks party.payer record trailing trailingSigners remaining offset sigs
        trailingAttached) := by
  induction remaining generalizing offset sigs trailingAttached with
  | nil => exact tells_pure ⟨by simp, rfl⟩
  | cons chunk rest ih =>
    refine tells_sent (orderly_write offset chunk _ own orderly) ?_ fun sig => ?_
    · cases last : rest.isEmpty <;> simp [writeInstructions, Instruction.minted, unminted]
    · refine (ih _ (sigs ++ [sig]) _).weaken ?_
      rintro result more logged ⟨same, rfl⟩
      exact ⟨by simp [same], rfl⟩

/-- Staging is told of all its transactions. -/
theorem tells_stageRangeProofRecord {record : Pubkey} {trailing : List Instruction}
    (trailingSigners : List Pubkey) (own : record ∈ owned) (orderly : Orderly party owned trailing)
    (unminted : (trailing.map Instruction.minted).sum = 0) (proofBytes : List UInt8) :
    Tells party owned (fun sigs told logged => sigs = told ∧ logged = [])
      (stageRangeProofRecord party.payer record trailing trailingSigners proofBytes) := by
  refine tells_after (silent_getMinimumBalanceForRentExemption _).plain fun rent => ?_
  split
  · exact tells_fail
  refine tells_sent (orderly_stage rent _ _ own) rfl fun sig => ?_
  refine Tells.bind (tells_writeChunks trailingSigners own orderly unminted _ _ _ _) ?_
  rintro ⟨sigs, trailingAttached⟩ more logged ⟨rfl, rfl⟩
  cases trailingAttached with
  | false => exact tells_sent orderly unminted fun last => tells_pure ⟨by simp, rfl⟩
  | true => exact tells_pure ⟨by simp, rfl⟩

/-- A transfer returns the signatures it was told, in order. -/
theorem tells_transfer {sender : Wallet} (held : sender ∈ party.owners) (mint recipient : Pubkey)
    (amount : Nat) (progress : ProgressSink) :
    Tells party owned (fun sigs told logged => sigs = told ∧ logged = [])
      (transferConfidentialWithProgress sdk party.payer sender mint recipient amount progress) := by
  refine tells_after (plain_emit _ _) fun _ => ?_
  refine tells_after (silent_fetchRecipientPubkey _).plain fun recipientKey => ?_
  refine tells_after (silent_fetchAuditorPubkey _).plain fun auditor => ?_
  refine tells_after (plain_emit _ _) fun _ => ?_
  refine tells_after ((silent_deriveConfidentialKeys _).plain.mapError _) fun keys => ?_
  refine tells_after (silent_fetchConfidential _).plain fun senderExt => ?_
  refine tells_after (plain_emit _ _) fun _ => ?_
  refine tells_after (plain_ofExcept _) fun proofData => ?_
  refine tells_after (plain_emit _ _) fun _ => ?_
  -- 1. Equality proof
  refine tells_newKeypair fun equality => ?_
  refine tells_after (silent_getMinimumBalanceForRentExemption _).plain fun equalityRent => ?_
  refine tells_sent (orderly_createAndVerify sdk held _ equalityRent _ List.mem_cons_self) rfl
    fun equalitySig => ?_
  refine tells_after (plain_emit _ _) fun _ => ?_
  -- 2. Ciphertext validity proof
  refine tells_newKeypair fun validity => ?_
  refine tells_after (silent_getMinimumBalanceForRentExemption _).plain fun validityRent => ?_
  refine tells_sent (orderly_createAndVerify sdk held _ validityRent _ List.mem_cons_self) rfl
    fun validitySig => ?_
  refine tells_after (plain_emit _ _) fun _ => ?_
  -- 3. Range proof
  refine tells_newKeypair fun record => ?_
  refine tells_newKeypair fun range => ?_
  refine tells_after (silent_getMinimumBalanceForRentExemption _).plain fun rangeRent => ?_
  refine Tells.bind (tells_stageRangeProofRecord _ (by simp)
    (orderly_range sdk held _ rangeRent List.mem_cons_self) rfl _) ?_
  rintro recordSigs _ _ ⟨rfl, rfl⟩
  refine tells_after (plain_emitStages _ _ _) fun _ => ?_
  refine tells_after (plain_emit _ _) fun _ => ?_
  refine tells_after (plain_ofExcept _) fun newDecryptable => ?_
  refine tells_sent (orderly_transfer held mint recipient newDecryptable _ _ (by simp) (by simp)
    (by simp) (by simp)) rfl fun sig => ?_
  refine tells_after (plain_emit _ _) fun _ => ?_
  refine tells_after (plain_emit _ _) fun _ => ?_
  exact tells_pure ⟨by simp, rfl⟩

end Library

/-! ## The server -/

/-- A successful request returns the signatures that it was told, and logs its move once, under one
of them. An init that moves nothing logs nothing. -/
structure Request.Accounts (request : Request) (response : ActionResponse) (sigs : List Signature)
    (logged : List EventLog) : Prop where
  /-- The signatures. -/
  signatures : response.signatures = sigs
  /-- The entry. -/
  logged : (request = .init ∧ logged = []) ∨
    ∃ entry, logged = [entry] ∧ entry.kind = request.kind ∧ entry.sig ∈ sigs

/-- What a call that returned was told: a withdraw returns the third of five signatures, a transfer
all of them, and any other call the only one. -/
def Operation.Accounts : Operation → List Signature → List Signature → Prop
  | .withdraw _ _ _ _ _, returned, sigs =>
    sigs.length = 5 ∧ ∃ sig, sigs[2]? = some sig ∧ returned = [sig]
  | .transfer _ _ _ _ _ _, returned, sigs => returned = sigs
  | _, returned, sigs => sigs.length = 1 ∧ returned = sigs

/-- What a job that returned was told and logged. -/
def Job.Accounts : Job → Answer → List Signature → List EventLog → Prop
  | .endpoint (.action request), .action response, sigs, logged =>
    request.Accounts response sigs logged
  | .operation call, .signatures returned, sigs, logged =>
    call.Accounts returned sigs ∧ logged = []
  | _, _, sigs, logged => sigs = [] ∧ logged = []

section Server

variable (sdk : Sdk) (s : AppState) {budget : Nat} {owned : List Pubkey}

/-- The server runs requests on behalf of its payer, for the sender and the receiver. -/
def AppState.party (s : AppState) (budget : Nat) : Party :=
  ⟨s.keys.payer, [s.keys.sender, s.keys.receiver], budget⟩

/-- Creating the mint, or finding it there. -/
theorem tells_ensureMint :
    Tells (s.party budget) owned (fun sigs told logged => sigs = told ∧ logged = [])
      (ensureMint sdk s) := by
  refine tells_after (lenient_mintExists _).plain fun found => ?_
  split
  · have creates : TellsOne (s.party budget) owned (createConfidentialMint sdk s) :=
      tells_after (silent_getMinimumBalanceForRentExemption _).plain fun rent =>
        tells_sendTx _ (.createMint s.keys.mint rent _ _ _) rfl
    refine Tells.bind creates ?_
    rintro sig _ _ ⟨rfl, rfl⟩
    exact tells_pure ⟨rfl, rfl⟩
  · exact tells_after (silent_verifyMintMatches s).plain fun _ => tells_pure ⟨rfl, rfl⟩

/-- Creating and configuring an account, or finding it there. -/
theorem tells_ensureConfidentialAccount {authority : Wallet}
    (held : authority ∈ (s.party budget).owners) :
    Tells (s.party budget) owned (fun sigs told logged => sigs = told ∧ logged = [])
      (ensureConfidentialAccount sdk s authority) := by
  refine tells_after (lenient_ataIsConfigured _).plain fun found => ?_
  split
  · refine tells_sent (orderly_createTokenAccount _ _) rfl fun created => ?_
    refine Tells.bind ((tells_configure sdk held s.mint).mapError _) ?_
    rintro configured _ _ ⟨rfl, rfl⟩
    exact tells_pure ⟨by simp, rfl⟩
  · exact tells_pure ⟨rfl, rfl⟩

/-- Minting what is lacking is the one time that a job mints. -/
theorem adds_mintLacking {past : List (Exchange Reply)} {needed : Nat} (senderPublicBase : Nat)
    (unminted : minted past = 0) (bounded : needed ≤ budget) :
    Adds (s.party budget) past (fun sigs more => confirmed more = sigs ∧ entries more = [])
      (mintLacking s needed senderPublicBase) := by
  have minting (amount : Nat) (bounded : amount ≤ budget) : Adds (s.party budget) past
      (fun sig more => confirmed more = [sig] ∧ entries more = []) (mintToSender s amount) := by
    refine along_sendTx _ (fun more plain => ?_) fun more sig plain => ?_
    · obtain ⟨-, -, noneMinted⟩ := plain_silent plain
      refine ⟨rfl, .mintTo s.keys.mint s.keys.sender.pubkey _, .inr ⟨?_, ?_⟩⟩
      · rw [minted_append, unminted, noneMinted]
      · simpa [Transaction.minted, mintInstructions, Instruction.minted, AppState.party] using
          bounded
    · obtain ⟨unconfirmed, unlogged, -⟩ := plain_silent plain
      exact ⟨_, rfl, by rw [confirmed_append, unconfirmed]; rfl,
        by rw [entries_append, unlogged]; rfl⟩
  unfold mintLacking
  split
  · refine Adds.bind (minting (needed - senderPublicBase) (by omega)) fun sig more told => ?_
    exact Program.along_pure ⟨[], by simp, by simpa using told⟩
  · exact Program.along_pure ⟨[], by simp, rfl, rfl⟩

/-- Funding the sender logs the deposit. -/
theorem adds_fundSender {past : List (Exchange Reply)} {needed : Nat} (senderPublicBase : Nat)
    (unminted : minted past = 0) (bounded : needed ≤ budget) :
    Adds (s.party budget) past (fun sigs more => confirmed more = sigs ∧
        ∃ sig ∈ sigs, ∃ amountUi, entries more = [⟨sig, "init-deposit", amountUi⟩])
      (fundSender s needed senderPublicBase) := by
  refine Adds.bind (adds_mintLacking s senderPublicBase unminted bounded) ?_
  rintro mintSigs first ⟨toldFirst, unlogged⟩
  have rest : Tells (s.party budget) [] (fun sigs more logged => sigs = mintSigs ++ more ∧
      ∃ sig ∈ sigs, ∃ amountUi, logged = [⟨sig, "init-deposit", amountUi⟩]) (do
        let depSig ← (depositToConfidential s.keys.payer s.keys.sender s.mint needed
          s.cfg.mintDecimals).mapError (.labelled "deposit failed: ")
        let applySig ← (applyPendingBalance s.keys.payer s.keys.sender s.mint).mapError
          (.labelled "apply pending (sender) failed: ")
        logEvent "init-deposit" (baseToUi needed s.cfg.mintDecimals) depSig
        pure (mintSigs ++ [depSig, applySig])) := by
    refine Tells.bind ((tells_deposit _ _ _ _).mapError _) ?_
    rintro depSig _ _ ⟨rfl, rfl⟩
    refine Tells.bind ((tells_applyPending _ _).mapError _) ?_
    rintro applySig _ _ ⟨rfl, rfl⟩
    refine Tells.bind (tells_logEvent _ _ _) ?_
    rintro ⟨⟩ _ _ ⟨rfl, rfl⟩
    exact tells_pure ⟨by simp, depSig, by simp, _, rfl⟩
  refine (rest (past ++ first) (by simp)).weaken ?_
  rintro all sigs ⟨later, rfl, -, rfl, sig, member, amountUi, logged⟩
  exact ⟨later, rfl, by rw [confirmed_append, toldFirst], sig, member, amountUi,
    by rw [entries_append, unlogged, logged]; rfl⟩

/-- Topping up the sender logs a deposit, unless nothing is missing. -/
theorem adds_topUpSender {past : List (Exchange Reply)} (unminted : minted past = 0) :
    Adds (s.party s.targetBase) past (fun sigs more => confirmed more = sigs ∧
        (entries more = [] ∨
          ∃ sig ∈ sigs, ∃ amountUi, entries more = [⟨sig, "init-deposit", amountUi⟩]))
      (topUpSender s) := by
  refine Adds.bind (tells_within (lenient_readAccountView s s.keys.sender).plain past
    (List.nil_subset _)) ?_
  rintro view more ⟨noneMinted, -, unconfirmed, unlogged⟩
  simp only
  split
  · refine (adds_fundSender s _ (by rw [minted_append, unminted, noneMinted]) (by omega)).weaken ?_
    rintro all sigs ⟨later, rfl, told, sig, member, amountUi, logged⟩
    exact ⟨later, rfl, by rw [confirmed_append, unconfirmed, told]; rfl,
      .inr ⟨sig, member, amountUi, by rw [entries_append, unlogged, logged]; rfl⟩⟩
  · exact Program.along_pure ⟨[], by simp, by simp [unconfirmed], .inl (by simp [unlogged])⟩

/-- An init mints within the target. -/
theorem adds_init :
    Adds (s.party s.targetBase) [] (fun response more =>
        Request.Accounts .init response (confirmed more) (entries more)) (initHandler sdk s) := by
  refine Program.Along.catchPanic ?_ _
  have prepares : Tells (s.party s.targetBase) [] (fun sigs told logged => sigs = told ∧
      logged = []) (do
        requireFunds s "payer" s.keys.payer 10000000 5
        let mintSigs ← ensureMint sdk s
        let senderSigs ← ensureConfidentialAccount sdk s s.keys.sender
        let receiverSigs ← ensureConfidentialAccount sdk s s.keys.receiver
        pure (mintSigs ++ senderSigs ++ receiverSigs)) := by
    refine tells_after (silent_requireFunds s _ _ _ _).plain fun _ => ?_
    refine Tells.bind (tells_ensureMint sdk s) ?_
    rintro mintSigs _ _ ⟨rfl, rfl⟩
    refine Tells.bind (tells_ensureConfidentialAccount sdk s List.mem_cons_self) ?_
    rintro senderSigs _ _ ⟨rfl, rfl⟩
    refine Tells.bind (tells_ensureConfidentialAccount sdk s (.tail _ (.head _))) ?_
    rintro receiverSigs _ _ ⟨rfl, rfl⟩
    exact tells_pure ⟨by simp, rfl⟩
  have whole : Adds (s.party s.targetBase) [] (fun response more =>
      Request.Accounts .init response (confirmed more) (entries more)) (do
        let sigs ← (do
          requireFunds s "payer" s.keys.payer 10000000 5
          let mintSigs ← ensureMint sdk s
          let senderSigs ← ensureConfidentialAccount sdk s s.keys.sender
          let receiverSigs ← ensureConfidentialAccount sdk s s.keys.receiver
          pure (mintSigs ++ senderSigs ++ receiverSigs))
        let topUpSigs ← topUpSender s
        let state ← readLedgerState s
        pure (⟨true, sigs ++ topUpSigs, state⟩ : ActionResponse)) := by
    refine Adds.bind (prepares [] (List.nil_subset _)) ?_
    rintro sigs more ⟨unminted, told, unlogged⟩
    refine Adds.bind (adds_topUpSender s unminted) ?_
    rintro topUpSigs topUp ⟨toldTopUp, logged⟩
    refine Adds.bind (tells_within (lenient_readLedgerState s).plain _ (List.nil_subset _)) ?_
    rintro state reading ⟨-, -, unheard, still⟩
    refine Program.along_pure ⟨[], by simp, ?_, ?_⟩
    · simp [told, toldTopUp, unheard]
    · rcases logged with none | ⟨sig, member, amountUi, one⟩
      · exact .inl ⟨rfl, by simp [unlogged, none, still]⟩
      · refine .inr ⟨⟨sig, "init-deposit", amountUi⟩, by simp [unlogged, one, still], rfl, ?_⟩
        simp [toldTopUp, unheard, member]
  simpa only [Program.bind_assoc, Program.pure_eq, Program.done_ok_bind] using whole

/-- A transfer logs its move under its fourth signature. -/
theorem tells_transferHandler (requested : Option ℚ) :
    Tells (s.party budget) owned (Request.Accounts (.transfer requested))
      (transferHandler sdk s requested) := by
  refine tells_after (plain_emit _ _) fun _ => ?_
  refine Tells.catchPanic ?_ _
  refine tells_after (lenient_requireInitialized s).plain fun _ => ?_
  refine tells_after (silent_requireFunds s _ _ _ _).plain fun _ => ?_
  have transfers : Tells (s.party budget) owned
      (fun sigs told logged => 5 ≤ sigs.length ∧ sigs = told ∧ logged = [])
      (transferConfidentialWithProgress sdk (s.party budget).payer s.keys.sender s.mint
        s.keys.receiver.pubkey (s.requestedBase requested) .broadcast) := by
    intro past own
    have sender : s.keys.sender ∈ (s.party budget).owners := List.mem_cons_self
    refine ((tells_transfer sdk sender s.mint _ _ _ past own).within
      (charges_transfer sdk (s.party budget).payer s.keys.sender s.mint _ _ _)
      fun _ _ _ kept => kept).weaken ?_
    rintro all sigs ⟨several, more, rfl, unminted, told, unlogged⟩
    exact ⟨more, rfl, unminted, several, told, unlogged⟩
  refine Tells.bind (transfers.catchError fun reason => ?_) ?_
  · exact Program.Within.bind (plain_emit _ _) fun _ _ => Program.within_fail
  rintro sigs _ _ ⟨several, rfl, rfl⟩
  have logs : Tells (s.party budget) owned (fun _ told logged => told = [] ∧
      ∃ entry, logged = [entry] ∧ entry.kind = "transfer" ∧ entry.sig ∈ sigs)
      (logTransfer (requested.getD s.cfg.transferAmountUi) sigs) := by
    have fourth : sigs[3]? = some sigs[3] := List.getElem?_eq_getElem (by omega)
    unfold logTransfer
    rw [fourth]
    refine (tells_logEvent "transfer" _ _).weaken ?_
    rintro ⟨⟩ told logged ⟨rfl, rfl⟩
    exact ⟨rfl, _, rfl, rfl, List.getElem_mem _⟩
  refine Tells.bind logs ?_
  rintro ⟨⟩ _ _ ⟨rfl, entry, rfl, kind, member⟩
  refine tells_after (lenient_readLedgerState s).plain fun state => tells_pure ⟨by simp, ?_⟩
  exact .inr ⟨entry, rfl, kind, by simpa using member⟩

/-- An apply logs its move under its one signature. -/
theorem tells_applyPendingHandler (account : String) :
    Tells (s.party budget) owned (Request.Accounts (.applyPending account))
      (applyPendingHandler s account) := by
  refine tells_after (plain_emit _ _) fun _ => ?_
  refine Tells.catchError (Tells.catchPanic ?_ _) fun reason =>
    Program.Within.bind (plain_emit _ _) fun _ _ => Program.within_fail
  refine tells_after (lenient_requireInitialized s).plain fun _ => ?_
  refine tells_after (plain_emit _ _) fun _ => ?_
  refine tells_after (silent_applyOwner s account).plain fun owner => ?_
  refine tells_after (Program.Within.catchError
    (plain_bind (lenient_readAccountView s owner).plain fun _ => plain_pure _)
    fun _ => plain_pure _) fun amountUi => ?_
  refine Tells.bind ((tells_applyPending _ _).mapError _) ?_
  rintro sig _ _ ⟨rfl, rfl⟩
  refine tells_after (plain_emit _ _) fun _ => ?_
  refine tells_after (plain_emit _ _) fun _ => ?_
  refine Tells.bind (tells_logEvent _ _ _) ?_
  rintro ⟨⟩ _ _ ⟨rfl, rfl⟩
  refine tells_after (lenient_readLedgerState s).plain fun state => tells_pure ⟨by simp, ?_⟩
  exact .inr ⟨_, rfl, rfl, by simp⟩

end Server

/-! ## Every job -/

/-- A call acts on its owner's account, and mints nothing. -/
def Operation.party (call : Operation) : Party := ⟨call.payer, [call.owner], 0⟩

/-- On whose behalf a job runs. An init may mint up to the target, and nothing else may mint. -/
def Job.party (s : AppState) : Job → Party
  | .endpoint (.action .init) => s.party s.targetBase
  | .endpoint _ => s.party 0
  | .operation call => call.party

section Jobs

variable (sdk : Sdk) (s : AppState) (port : Nat)

/-- A call of one transaction returns the one signature that it was told. -/
theorem tells_single {program : Client Signature} {party : Party}
    (tells : TellsOne party [] program) :
    Tells party [] (fun returned sigs logged =>
      (sigs.length = 1 ∧ returned = sigs) ∧ logged = []) (Operation.single program) := by
  refine Tells.bind tells ?_
  rintro sig _ _ ⟨rfl, rfl⟩
  exact tells_pure ⟨⟨rfl, rfl⟩, rfl⟩

/-- A call accounts for the signatures that it was told. -/
theorem tells_operation (call : Operation) :
    Tells call.party [] (fun returned sigs logged => call.Accounts returned sigs ∧ logged = [])
      (call.program sdk) := by
  cases call with
  | configure payer authority mint => exact tells_single (tells_configure sdk (.head _) mint)
  | deposit payer authority mint amount decimals =>
    exact tells_single (tells_deposit authority mint amount decimals)
  | applyPending payer authority mint => exact tells_single (tells_applyPending authority mint)
  | withdraw payer authority mint amount decimals =>
    refine Tells.bind (tells_withdraw sdk (.head _) mint amount decimals) ?_
    rintro sig sigs _ ⟨five, third, rfl⟩
    exact tells_pure ⟨⟨by simpa using five, sig, by simpa using third, rfl⟩, rfl⟩
  | transfer payer sender mint recipient amount progress =>
    exact tells_transfer sdk (.head _) mint recipient amount progress

/-- Every job conducts itself, and accounts for what it was told. -/
theorem adds_job (job : Job) :
    Adds (job.party s) [] (fun answer more =>
        job.Accounts answer (confirmed more) (entries more)) (job.program sdk s port) := by
  have quiet {α : Type} {program : Client α} {compute : α → Answer} (plain : Plain program) :
      Tells (s.party 0) [] (fun answer sigs logged => (∃ value, answer = compute value) ∧
        sigs = [] ∧ logged = []) (do let value ← program; pure (compute value)) :=
    tells_after plain fun value => tells_pure ⟨⟨value, rfl⟩, rfl, rfl⟩
  have acting {budget : Nat} {request : Request} (adds : Adds (s.party budget) []
      (fun response more => request.Accounts response (confirmed more) (entries more))
      (request.program sdk s)) : Adds (s.party budget) [] (fun answer more =>
        Job.Accounts (.endpoint (.action request)) answer (confirmed more) (entries more))
      (Job.program sdk s port (.endpoint (.action request))) := by
    refine Adds.bind adds fun response more accounts => Program.along_pure ⟨[], by simp, ?_⟩
    simpa only [List.append_nil, Job.Accounts] using accounts
  cases job with
  | endpoint route =>
    cases route with
    | health =>
      have plain : Plain (health s port) := plain_bind (plain_ask trivial) fun _ => plain_pure _
      refine (quiet plain [] (List.nil_subset _)).weaken ?_
      rintro all answer ⟨more, same, -, ⟨response, rfl⟩, told, unlogged⟩
      exact ⟨more, same, told, unlogged⟩
    | state =>
      refine (quiet (lenient_readLedgerState s).plain [] (List.nil_subset _)).weaken ?_
      rintro all answer ⟨more, same, -, ⟨response, rfl⟩, told, unlogged⟩
      exact ⟨more, same, told, unlogged⟩
    | action request =>
      cases request with
      | init => exact acting (adds_init sdk s)
      | transfer requested =>
        refine acting ((tells_transferHandler sdk s requested [] (List.nil_subset _)).weaken ?_)
        rintro all response ⟨more, same, -, accounts⟩
        exact ⟨more, same, accounts⟩
      | applyPending account =>
        refine acting ((tells_applyPendingHandler s account [] (List.nil_subset _)).weaken ?_)
        rintro all response ⟨more, same, -, accounts⟩
        exact ⟨more, same, accounts⟩
  | operation call =>
    refine Adds.bind (tells_operation sdk call [] (List.nil_subset _)) ?_
    rintro returned more ⟨-, accounts⟩
    refine Program.along_pure ⟨[], by simp, ?_⟩
    simpa only [List.append_nil, Job.Accounts] using accounts

end Jobs

end ConfidentialBalances
