import ConfidentialBalances.Endpoints
import ConfidentialBalances.Reporting

/-!
# What the jobs announce

A transfer announces each of its transactions, an apply request its one, and
both say at the end that they are done with all of them; their errors say where
they stopped. Every other job keeps quiet. How a job ends and how its stream of
events does go together, whatever the job was answered on the way.
-/

namespace ConfidentialBalances

open Effect

/-! ## Jobs that keep quiet -/

/-- A request that sends no event. -/
def Call.Quiet : Call → Prop
  | .emit _ => False
  | _ => True

/-- The program sends no event. -/
abbrev Mute {α : Type} (program : Client α) : Prop := program.Uses Call.Quiet

section Mute

variable {α β : Type} {program : Client α}

/-- A request that only asks sends no event. -/
theorem Call.Asks.quiet {request : Call} (asks : request.Asks) : request.Quiet := by
  cases request with
  | emit event => exact asks.elim
  | _ => trivial

/-- A silent program is mute. -/
theorem SilentBut.mute {skipped : Exchange Reply → Bool} (silent : SilentBut skipped program) :
    Mute program :=
  silent.uses fun _ asks => asks.quiet

/-- A silent program first. -/
theorem mute_after {skipped : Exchange Reply → Bool} {rest : α → Client β}
    (first : SilentBut skipped program) (second : ∀ value, Mute (rest value)) :
    Mute (program >>= rest) :=
  first.mute.bind second

/-- A computed result sends no event. -/
theorem mute_ofExcept (result : Except ClientError α) : Mute (Program.ofExcept result) := by
  cases result <;> trivial

/-- `send_tx` sends a transaction and no event. -/
theorem mute_sendTx (instructions : List Instruction) (signers : List Pubkey) (payer : Pubkey) :
    Mute (sendTx instructions signers payer) :=
  uses_sendTx trivial trivial fun _ => trivial

/-- Logging sends no event to a browser. -/
theorem mute_logEvent (kind : String) (amountUi : ℚ) (sig : Signature) :
    Mute (logEvent kind amountUi sig) :=
  ⟨trivial, fun _ => ⟨trivial, fun _ => trivial⟩⟩

/-- Reporting a panic sends no event. -/
theorem mute_runBlocking (mute : Mute program) : Mute (runBlocking program) := by
  unfold runBlocking
  induction program with
  | done outcome => cases outcome <;> trivial
  | call request next ih => exact ⟨mute.1, fun reply => ih reply (mute.2 reply)⟩

/-- A mute program has sent no event at its end if none was sent before. -/
theorem Mute.leads (mute : Mute program) {past : List (Exchange Reply)} (quiet : sent past = []) :
    program.Leads (fun _ => Call.Kept) MayAnnounce (fun all _ => sent all = []) past := by
  induction program generalizing past with
  | done outcome => exact quiet
  | call request next ih =>
    have may : MayAnnounce past request := by
      cases request with
      | emit event => exact mute.1.elim
      | sendAndConfirmTransaction transaction =>
        show Unfinished (sent past)
        rw [quiet]
        exact .nil
      | _ => trivial
    refine ⟨may, fun reply _ => ih reply (mute.2 reply) ?_⟩
    have unsent : sent [(⟨request, reply⟩ : Exchange Reply)] = [] := by
      cases request with
      | emit event => exact mute.1.elim
      | _ => rfl
    rw [sent_append, quiet, unsent]
    rfl

variable (sdk : Sdk) (payer owner : Wallet) (mint : Pubkey)

/-- Configuring sends no event. -/
theorem mute_configure :
    Mute (configureAccountForConfidentialTransfers sdk payer owner mint) := by
  refine mute_after (silent_deriveConfidentialKeys _) fun keys => ?_
  refine Program.Uses.bind (mute_ofExcept _) fun proofData => ?_
  refine mute_after silent_newKeypair fun proofAccount => ?_
  refine mute_after (silent_getMinimumBalanceForRentExemption _) fun rent => ?_
  exact mute_sendTx _ _ _

/-- Depositing sends no event. -/
theorem mute_deposit (amount decimals : Nat) :
    Mute (depositToConfidential payer owner mint amount decimals) := mute_sendTx _ _ _

/-- Applying sends no event. -/
theorem mute_applyPending : Mute (applyPendingBalance payer owner mint) := by
  refine mute_after (silent_deriveConfidentialKeys _) fun keys => ?_
  refine mute_after (silent_fetchConfidential _) fun extension => ?_
  refine Program.Uses.bind (mute_ofExcept _) fun values => ?_
  exact mute_sendTx _ _ _

/-- The closing loop sends no event. -/
theorem mute_closeContextStates (accounts : List Pubkey) (signatures : List Signature) :
    Mute (closeContextStates payer owner accounts signatures) := by
  induction accounts generalizing signatures with
  | nil => trivial
  | cons account rest ih => exact (mute_sendTx _ _ _).bind fun _ => ih _

/-- Withdrawing sends no event. -/
theorem mute_withdraw (amount decimals : Nat) :
    Mute (withdrawFromConfidential sdk payer owner mint amount decimals) := by
  refine mute_after (silent_deriveConfidentialKeys _) fun keys => ?_
  refine mute_after (silent_fetchConfidential _) fun extension => ?_
  refine Program.Uses.bind (mute_ofExcept _) fun values => ?_
  refine mute_after silent_newKeypair fun equality => ?_
  refine mute_after (silent_getMinimumBalanceForRentExemption _) fun equalityRent => ?_
  refine (mute_sendTx _ _ _).bind fun first => ?_
  refine mute_after silent_newKeypair fun range => ?_
  refine mute_after (silent_getMinimumBalanceForRentExemption _) fun rangeRent => ?_
  refine (mute_sendTx _ _ _).bind fun second => (mute_sendTx _ _ _).bind fun third => ?_
  refine (mute_closeContextStates _ _ _ _).bind fun signatures => ?_
  cases signatures[2]? <;> trivial

/-- The loop over the chunks sends no event. -/
theorem mute_writeChunks (record : Pubkey) (trailingIxs : List Instruction)
    (trailingSigners : List Pubkey) (remaining : List (List UInt8)) (offset : Nat)
    (sigs : List Signature) (trailingAttached : Bool) :
    Mute (writeChunks payer record trailingIxs trailingSigners remaining offset sigs
      trailingAttached) := by
  induction remaining generalizing offset sigs trailingAttached with
  | nil => trivial
  | cons chunk rest ih => exact (mute_sendTx _ _ _).bind fun _ => ih _ _ _

/-- Staging sends no event. -/
theorem mute_stageRangeProofRecord (record : Pubkey) (trailingIxs : List Instruction)
    (trailingSigners : List Pubkey) (proofBytes : List UInt8) :
    Mute (stageRangeProofRecord payer record trailingIxs trailingSigners proofBytes) := by
  refine mute_after (silent_getMinimumBalanceForRentExemption _) fun rent => ?_
  split
  · trivial
  refine (mute_sendTx _ _ _).bind fun sig => ?_
  refine (mute_writeChunks payer record trailingIxs trailingSigners _ _ _ _).bind ?_
  rintro ⟨sigs, trailingAttached⟩
  cases trailingAttached with
  | true => trivial
  | false => exact (mute_sendTx _ _ _).bind fun _ => trivial

/-- Without a channel the stages go unannounced. -/
theorem mute_emitStages (index : Nat) (sigs : List Signature) :
    Mute (emitStages .none index sigs) := by
  induction sigs generalizing index with
  | nil => trivial
  | cons sig rest ih => exact ih _

/-- A transfer without a channel sends no event. -/
theorem mute_transfer (recipient : Pubkey) (amount : Nat) :
    Mute (transferConfidentialWithProgress sdk payer owner mint recipient amount .none) := by
  refine Program.Uses.bind trivial fun _ => ?_
  refine mute_after (silent_fetchRecipientPubkey _) fun _ => ?_
  refine mute_after (silent_fetchAuditorPubkey _) fun _ => ?_
  refine Program.Uses.bind trivial fun _ => ?_
  refine mute_after ((silent_deriveConfidentialKeys _).mapError _) fun _ => ?_
  refine mute_after (silent_fetchConfidential _) fun _ => ?_
  refine Program.Uses.bind trivial fun _ => ?_
  refine Program.Uses.bind (mute_ofExcept _) fun _ => ?_
  refine Program.Uses.bind trivial fun _ => ?_
  -- 1. Equality proof
  refine mute_after silent_newKeypair fun _ => ?_
  refine mute_after (silent_getMinimumBalanceForRentExemption _) fun _ => ?_
  refine (mute_sendTx _ _ _).bind fun _ => Program.Uses.bind trivial fun _ => ?_
  -- 2. Ciphertext validity proof
  refine mute_after silent_newKeypair fun _ => ?_
  refine mute_after (silent_getMinimumBalanceForRentExemption _) fun _ => ?_
  refine (mute_sendTx _ _ _).bind fun _ => Program.Uses.bind trivial fun _ => ?_
  -- 3. Range proof
  refine mute_after silent_newKeypair fun _ => mute_after silent_newKeypair fun _ => ?_
  refine mute_after (silent_getMinimumBalanceForRentExemption _) fun _ => ?_
  refine (mute_stageRangeProofRecord _ _ _ _ _).bind fun sigs => ?_
  refine (mute_emitStages 1 sigs).bind fun _ => Program.Uses.bind trivial fun _ => ?_
  refine Program.Uses.bind (mute_ofExcept _) fun _ => ?_
  exact (mute_sendTx _ _ _).bind fun _ => trivial

variable (s : AppState)

/-- Setting up an account sends no event. -/
theorem mute_ensureConfidentialAccount (authority : Wallet) :
    Mute (ensureConfidentialAccount sdk s authority) := by
  refine mute_after (lenient_ataIsConfigured _) fun found => ?_
  split
  · refine (mute_sendTx _ _ _).bind fun _ => ?_
    refine ((Program.uses_mapError _ _ _).mpr (mute_configure _ _ _ _)).bind fun _ => trivial
  · trivial

/-- Topping up the sender sends no event. -/
theorem mute_topUpSender : Mute (topUpSender s) := by
  refine mute_after (lenient_readAccountView s _) fun view => ?_
  simp only
  split
  · have minting (needed held : Nat) : Mute (mintLacking s needed held) := by
      unfold mintLacking
      split
      · exact (mute_sendTx _ _ _).bind fun _ => trivial
      · trivial
    refine (minting _ _).bind fun _ => ?_
    refine ((Program.uses_mapError _ _ _).mpr (mute_deposit _ _ _ _ _)).bind fun _ => ?_
    refine ((Program.uses_mapError _ _ _).mpr (mute_applyPending _ _ _)).bind fun _ => ?_
    exact (mute_logEvent _ _ _).bind fun _ => trivial
  · trivial

/-- An init sends no event. -/
theorem mute_initHandler : Mute (initHandler sdk s) := by
  refine mute_runBlocking ?_
  refine mute_after (silent_requireFunds s _ _ _ _) fun _ => ?_
  have ensures : Mute (ensureMint sdk s) := by
    refine mute_after (lenient_mintExists _) fun found => ?_
    split
    · refine Program.Uses.bind ?_ fun _ => trivial
      exact mute_after (silent_getMinimumBalanceForRentExemption _) fun _ => mute_sendTx _ _ _
    · exact mute_after (silent_verifyMintMatches s) fun _ => trivial
  refine ensures.bind fun _ => ?_
  refine (mute_ensureConfidentialAccount sdk s _).bind fun _ => ?_
  refine (mute_ensureConfidentialAccount sdk s _).bind fun _ => ?_
  exact (mute_topUpSender s).bind fun _ => mute_after (lenient_readLedgerState s) fun _ => trivial

end Mute

/-! ## The transfer -/

section Transfer

variable {β : Type} {ok : List (Exchange Reply) → β → Prop} {past : List (Exchange Reply)}
variable {told heard : List Signature}

/-- One transaction is sent and announced, and then the rest. -/
theorem reports_announced {instructions : List Instruction} {signers : List Pubkey}
    {payer : Pubkey} {label : String} {rest : Signature → Client β}
    (signed : Transaction.SignedExactly ⟨instructions, payer, signers⟩)
    (stands : MidStream told told past)
    (second : ∀ all sig, MidStream (told ++ [sig]) (told ++ [sig]) all →
      Reports ok Halted all (rest sig)) :
    Reports ok Halted past (do
      let sig ← sendTx instructions signers payer
      emit .broadcast (.signature label sig)
      rest sig) := by
  refine reports_sendTx signed stands fun sent sig grown => ?_
  exact reports_signature grown List.prefix_rfl fun all announced => second all sig announced

/-- A context is created, verified and announced, and then the rest. -/
theorem reports_createAndVerify {sdk : Sdk} {payer sender : Wallet} {proofType : ProofType}
    {proof : List UInt8} {label : String} {rest : Pubkey → Signature → Client β}
    (stands : MidStream told told past)
    (second : ∀ all account sig, MidStream (told ++ [sig]) (told ++ [sig]) all →
      Reports ok Halted all (rest account sig)) :
    Reports ok Halted past (do
      let account ← newKeypair
      let rent ← getMinimumBalanceForRentExemption (sdk.contextStateSize proofType)
      let sig ← sendTx (createAndVerify sdk payer sender proofType account rent proof)
        [payer.pubkey, account] payer.pubkey
      emit .broadcast (.signature label sig)
      rest account sig) := by
  refine reports_after silent_newKeypair stands fun p1 account s1 => ?_
  refine reports_after (silent_getMinimumBalanceForRentExemption _) s1 fun p2 rent s2 => ?_
  have signed := (createAndVerify_signed sdk payer sender proofType account rent proof
    [payer.pubkey, account]).mpr (by simp)
  exact reports_announced signed s2 fun all sig grown => second all account sig grown

section Staging

variable (payer : Wallet) (record : Pubkey) {trailingIxs : List Instruction}
variable {trailingSigners : List Pubkey}

/-- The loop over the chunks is told a signature for each, and announces none. -/
theorem reports_writeChunks (trailing : TrailingSigned payer trailingIxs trailingSigners)
    (remaining : List (List UInt8)) (offset : Nat) (sigs : List Signature)
    (trailingAttached : Bool) (stands : MidStream (told ++ sigs) heard past) :
    Reports (fun all result => MidStream (told ++ result.1) heard all) Halted past
      (writeChunks payer record trailingIxs trailingSigners remaining offset sigs
        trailingAttached) := by
  induction remaining generalizing offset sigs trailingAttached past with
  | nil => exact reports_pure stands
  | cons chunk rest ih =>
    refine reports_sendTx (writeInstructions_signed payer record trailing _ _ _) stands ?_
    intro all sig grown
    rw [List.append_assoc] at grown
    exact ih _ _ _ grown

/-- Staging is told a signature for each of its transactions, and announces none. -/
theorem reports_stageRangeProofRecord
    (trailing : TrailingSigned payer trailingIxs trailingSigners) (proofBytes : List UInt8)
    (stands : MidStream told heard past) :
    Reports (fun all sigs => MidStream (told ++ sigs) heard all) Halted past
      (stageRangeProofRecord payer record trailingIxs trailingSigners proofBytes) := by
  refine reports_after (silent_getMinimumBalanceForRentExemption _) stands fun p1 rent s1 => ?_
  split
  · exact reports_fail ⟨told, heard, s1⟩
  refine reports_sendTx ?_ s1 fun p2 sig s2 => ?_
  · intro key
    simp only [Transaction.requiredSigners, stageInstructions, Instruction.signers,
      List.flatMap_cons, List.flatMap_nil, List.cons_append, List.nil_append, List.mem_cons,
      List.not_mem_nil, or_false]
    tauto
  refine Reports.bind (reports_writeChunks payer record trailing _ _ _ _ s2) ?_
  rintro p3 ⟨sigs, trailingAttached⟩ s3
  cases trailingAttached with
  | true => exact reports_pure s3
  | false =>
    refine reports_sendTx ?_ s3 fun p4 last s4 => reports_pure ?_
    · intro key
      simpa [Transaction.requiredSigners] using trailing key
    · rwa [List.append_assoc] at s4

end Staging

/-- The staging signatures are announced, each after the one before it. -/
theorem reports_emitStages (index : Nat) (sigs : List Signature)
    (stands : MidStream (heard ++ sigs) heard past) :
    Reports (fun all _ => MidStream (heard ++ sigs) (heard ++ sigs) all) Halted past
      (emitStages .broadcast index sigs) := by
  induction sigs generalizing heard index past with
  | nil =>
    rw [List.append_nil] at stands ⊢
    exact reports_pure stands
  | cons sig rest ih =>
    have split : heard ++ sig :: rest = heard ++ [sig] ++ rest := by simp
    rw [split] at stands ⊢
    exact reports_signature stands (List.prefix_append _ _) fun all announced =>
      ih _ announced

/-- A transfer announces each of its transactions, and is done with all of them at the end. -/
theorem reports_transfer (sdk : Sdk) (payer sender : Wallet) (mint recipient : Pubkey)
    (amount : Nat) (stands : MidStream [] [] past) :
    Reports (fun all sigs => DoneWith sigs (confirmed all) (sent all)) Halted past
      (transferConfidentialWithProgress sdk payer sender mint recipient amount .broadcast) := by
  refine reports_phase stands fun p1 s1 => ?_
  refine reports_after (silent_fetchRecipientPubkey _) s1 fun p2 recipientKey s2 => ?_
  refine reports_after (silent_fetchAuditorPubkey _) s2 fun p3 auditor s3 => ?_
  refine reports_phase s3 fun p4 s4 => ?_
  refine reports_after ((silent_deriveConfidentialKeys _).mapError _) s4 fun p5 keys s5 => ?_
  refine reports_after (silent_fetchConfidential _) s5 fun p6 snapshot s6 => ?_
  refine reports_phase s6 fun p7 s7 => ?_
  refine reports_ofExcept s7 fun p8 proofData s8 => ?_
  refine reports_phase s8 fun p9 s9 => ?_
  -- 1. Equality proof
  refine reports_createAndVerify s9 fun p10 equalityAccount equalitySig s10 => ?_
  -- 2. Ciphertext validity proof
  refine reports_createAndVerify s10 fun p11 validityAccount validitySig s11 => ?_
  -- 3. Range proof
  refine reports_after silent_newKeypair s11 fun p12 recordAccount s12 => ?_
  refine reports_after silent_newKeypair s12 fun p13 rangeAccount s13 => ?_
  refine reports_after (silent_getMinimumBalanceForRentExemption _) s13 fun p14 rent s14 => ?_
  have trailing := rangeInstructions_signed sdk payer sender rangeAccount recordAccount rent
  refine Reports.bind (reports_stageRangeProofRecord payer _ trailing _ s14) ?_
  intro p15 recordSigs s15
  refine Reports.bind (reports_emitStages 1 recordSigs s15) fun p16 _ s16 => ?_
  refine reports_phase s16 fun p17 s17 => ?_
  refine reports_ofExcept s17 fun p18 newDecryptable s18 => ?_
  refine reports_announced (transferInstructions_signed _ _ _ _ _ _ _ _ _ _ _) s18
    fun p19 sig s19 => ?_
  exact reports_done s19 fun all completed => reports_pure completed

end Transfer

/-! ## How a job's stream goes with its end -/

/-- The stream of a call of the library with a channel: done with everything, or left open. -/
def TransferCallStream : Outcome ClientError Answer → List (Exchange Reply) → Prop
  | .ok answer, all => ∃ sigs, answer = .signatures sigs ∧ DoneWith sigs (confirmed all) (sent all)
  | .error _, all => Halted all
  | .panic _, _ => False

/-- An error ends the stream. -/
def Failed (before : List TransferProgress → Prop) (all : List (Exchange Reply)) : Prop :=
  ∃ events message, sent all = events ++ [.error message] ∧ before events

/-- The stream of a transfer request that was not answered. Its error is left unsaid where the
preflight refused, before anything was sent, and where the transfer was done and the ledger could
not be read. -/
inductive TransferFailure (all : List (Exchange Reply)) : Prop
  /-- The preflight refused. -/
  | refused (untold : confirmed all = [])
      (opened : ∃ detail, sent all = [.phase "preflight" detail])
  /-- The transfer stopped. -/
  | stopped (failed : Failed (fun events => Unfinished events ∧ announced events <+: confirmed all)
      all)
  /-- The apply was done. -/
  | done (sigs : List Signature) (completed : DoneWith sigs (confirmed all) (sent all))

/-- The stream of an apply request that was not answered. Its error is always said, also after the
stream was done. -/
def ApplyFailure (all : List (Exchange Reply)) : Prop :=
  Failed (fun events => (Unfinished events ∧ announced events <+: confirmed all) ∨
    ∃ sigs, DoneWith sigs (confirmed all) events) all

/-- The stream of a request with a stream: done with everything that it is answered with, or as
said of its failure. -/
def RequestStream (failure : List (Exchange Reply) → Prop) :
    Outcome ClientError Answer → List (Exchange Reply) → Prop
  | .ok answer, all => ∃ response, answer = .action response ∧
      DoneWith response.signatures (confirmed all) (sent all)
  | .error _, all => failure all
  | .panic _, _ => False

/-- How a job's stream goes with its end. -/
def Job.Stream : Job → Outcome ClientError Answer → List (Exchange Reply) → Prop
  | .endpoint (.action (.transfer _)) => RequestStream TransferFailure
  | .endpoint (.action (.applyPending _)) => RequestStream ApplyFailure
  | .operation (.transfer _ _ _ _ _ .broadcast) => TransferCallStream
  | _ => fun _ all => sent all = []

section Requests

variable {α β : Type} {fails : List (Exchange Reply) → Prop} {past : List (Exchange Reply)}

/-- The program tells and announces nothing, however it ends. -/
abbrev Unreporting (past : List (Exchange Reply)) (program : Client α) : Prop :=
  Reports (fun all _ => Unreported past all) (Unreported past) past program

/-- Logging tells and announces nothing. -/
theorem reports_logEvent (kind : String) (amountUi : ℚ) (sig : Signature)
    (past : List (Exchange Reply)) : Unreporting past (logEvent kind amountUi sig) := by
  refine ⟨trivial, fun log _ => ⟨trivial, fun reply _ => ⟨?_, ?_⟩⟩⟩
  · exact (confirmed_append _ _).trans ((List.append_nil _).trans
      ((confirmed_append _ _).trans (List.append_nil _)))
  · exact (sent_append _ _).trans ((List.append_nil _).trans
      ((sent_append _ _).trans (List.append_nil _)))

/-- Logging a transfer, or leaving it out, tells and announces nothing. -/
theorem reports_logTransfer (amountUi : ℚ) (sigs : List Signature)
    (past : List (Exchange Reply)) : Unreporting past (logTransfer amountUi sigs) := by
  unfold logTransfer
  split
  · exact reports_logEvent _ _ _ past
  · exact reports_pure ⟨rfl, rfl⟩

/-- A program after which what was told and sent is as before, and then the rest. -/
theorem reports_still {program : Client α} {rest : α → Client β}
    {ok : List (Exchange Reply) → β → Prop}
    (property : List Signature → List TransferProgress → Prop) (quiet : Unreporting past program)
    (holds : property (confirmed past) (sent past))
    (gives : ∀ all, property (confirmed all) (sent all) → fails all)
    (second : ∀ all value, property (confirmed all) (sent all) →
      Reports ok fails all (rest value)) : Reports ok fails past (program >>= rest) := by
  have kept (all : List (Exchange Reply)) (alike : Unreported past all) :
      property (confirmed all) (sent all) := by
    rw [alike.confirmed, alike.sent]
    exact holds
  have first : Reports (fun all _ => property (confirmed all) (sent all)) fails past program :=
    quiet.weaken (fun all _ alike => kept all alike) fun all alike => gives all (kept all alike)
  exact first.bind second

/-- An error is said, and ends the program. -/
theorem reports_error {message : String} {reason : ClientError}
    {ok : List (Exchange Reply) → β → Prop} (before : List TransferProgress → Prop)
    (holds : before (sent past))
    (gives : ∀ all, confirmed all = confirmed past → Failed before all → fails all) :
    Reports ok fails past (do
      emit .broadcast (.error message)
      Program.fail reason) := by
  refine ⟨trivial, fun _ _ => gives _ ?_ ⟨sent past, message, ?_, holds⟩⟩
  · rw [confirmed_append]
    exact List.append_nil _
  · rw [sent_append]
    rfl

/-- What holds where a request's preflight refuses. -/
def Opened (told : List Signature) (events : List TransferProgress) : Prop :=
  told = [] ∧ ∃ detail, events = [.phase "preflight" detail]

/-- The job stands at the beginning. -/
theorem Opened.stands {all : List (Exchange Reply)} (opened : Opened (confirmed all) (sent all)) :
    MidStream [] [] all := by
  obtain ⟨untold, detail, phase⟩ := opened
  refine ⟨untold, ?_, List.prefix_rfl, ?_⟩
  · rw [phase]
    rfl
  · rw [phase]
    simp [Unfinished, TransferProgress.terminal]

variable (sdk : Sdk) (s : AppState)

/-- How a transfer request ends. -/
theorem reports_transferHandler (requested : Option ℚ) :
    Reports (fun all response => DoneWith response.signatures (confirmed all) (sent all))
      TransferFailure [] (transferHandler sdk s requested) := by
  refine ⟨trivial, fun _ _ => Reports.catchPanic ?_ _⟩
  have refused (all : List (Exchange Reply)) (opened : Opened (confirmed all) (sent all)) :
      TransferFailure all := .refused opened.1 opened.2
  refine reports_still Opened ((lenient_requireInitialized s).reports _) ⟨rfl, _, rfl⟩ refused ?_
  intro p1 _ opened1
  refine reports_still Opened ((silent_requireFunds s _ _ _ _).reports _) opened1 refused ?_
  intro p2 _ opened2
  have transfers := reports_transfer sdk s.keys.payer s.keys.sender s.mint s.keys.receiver.pubkey
    (uiToBase (requested.getD s.cfg.transferAmountUi) s.cfg.mintDecimals) opened2.stands
  refine Reports.bind (transfers.catchError fun p3 reason halted => ?_) fun p4 sigs done4 => ?_
  · obtain ⟨told, heard, s3⟩ := halted
    have said : announced (sent p3) <+: told := s3.said.symm ▸ s3.first
    refine reports_error (fun events => Unfinished events ∧ announced events <+: told)
      ⟨s3.unfinished, said⟩ fun all same failed => .stopped ?_
    rwa [same, s3.knows]
  · refine reports_still (DoneWith sigs) (reports_logTransfer _ sigs _) done4
      (fun all completed => .done sigs completed) ?_
    intro p5 _ done5
    refine reports_still (DoneWith sigs) ((lenient_readLedgerState s).reports _) done5
      (fun all completed => .done sigs completed) ?_
    exact fun p6 state done6 => reports_pure done6

/-- Applying is told its one signature. -/
theorem reports_applyPending (payer owner : Wallet) (mint : Pubkey) {told heard : List Signature}
    (stands : MidStream told heard past) :
    Reports (fun all sig => MidStream (told ++ [sig]) heard all) Halted past
      (applyPendingBalance payer owner mint) := by
  refine reports_after (silent_deriveConfidentialKeys _) stands fun p1 keys s1 => ?_
  refine reports_after (silent_fetchConfidential _) s1 fun p2 extension s2 => ?_
  refine reports_ofExcept s2 fun p3 values s3 => ?_
  exact reports_sends (owner_signed payer owner _ rfl) s3

/-- What an apply request does until it has announced its transaction. -/
theorem reports_applyOpening (account : String) (stands : MidStream [] [] past) :
    Reports (fun all (result : ℚ × Signature) => MidStream [result.2] [result.2] all) Halted past
      (do
        requireInitialized s
        emit .broadcast (.phase "submit-apply-pending"
          "Decrypting pending balance and submitting apply instruction")
        let owner ← applyOwner s account
        let appliedAmountUi ← (do
          let view ← readAccountView s owner
          pure view.pendingUi).catchError fun _ => pure 0
        let sig ← (applyPendingBalance s.keys.payer owner s.mint).mapError
          (.labelled "apply_pending failed: ")
        emit .broadcast (.signature s!"apply-pending-{account}" sig)
        pure (appliedAmountUi, sig)) := by
  refine reports_after (lenient_requireInitialized s) stands fun p1 _ s1 => ?_
  refine reports_phase s1 fun p2 s2 => ?_
  refine reports_after (silent_applyOwner s account) s2 fun p3 owner s3 => ?_
  have reads : Lenient (do
      let view ← readAccountView s owner
      pure view.pendingUi) := (lenient_readAccountView s owner).bind fun _ => silent_pure _
  have view : Reports (fun all _ => MidStream [] [] all) Halted p3 ((do
      let view ← readAccountView s owner
      pure view.pendingUi).catchError fun _ => pure 0) := by
    have looked := (reads.reports p3).weaken (fun _ _ alike => s3.unreported alike)
      fun _ alike => s3.unreported alike
    exact looked.catchError fun all _ s4 => reports_pure s4
  refine view.bind fun p4 amountUi s4 => ?_
  refine Reports.bind ((reports_applyPending s.keys.payer owner s.mint s4).mapError _) ?_
  intro p5 sig s5
  exact reports_signature s5 List.prefix_rfl fun p6 s6 => reports_pure s6

/-- How an apply request ends. -/
theorem reports_applyPendingHandler (account : String) :
    Reports (fun all response => DoneWith response.signatures (confirmed all) (sent all))
      ApplyFailure [] (applyPendingHandler s account) := by
  refine ⟨trivial, fun _ _ => ?_⟩
  let halts (all : List (Exchange Reply)) : Prop :=
    Halted all ∨ ∃ sigs, DoneWith sigs (confirmed all) (sent all)
  have opened : MidStream [] []
      [⟨.emit (.phase "preflight" s!"Applying pending balance for {account}"), ()⟩] :=
    Opened.stands ⟨rfl, _, rfl⟩
  have finishes (p1 : List (Exchange Reply)) (result : ℚ × Signature)
      (s1 : MidStream [result.2] [result.2] p1) :
      Reports (fun all response => DoneWith response.signatures (confirmed all) (sent all)) halts
        p1 (do
          emit .broadcast (.done [result.2])
          logEvent s!"apply-pending-{account}" result.1 result.2
          let state ← readLedgerState s
          pure (⟨true, [result.2], state⟩ : ActionResponse)) := by
    refine reports_done s1 fun p2 done2 => ?_
    refine reports_still (DoneWith _) (reports_logEvent _ _ _ _) done2
      (fun all completed => .inr ⟨_, completed⟩) fun p3 _ done3 => ?_
    refine reports_still (DoneWith _) ((lenient_readLedgerState s).reports _) done3
      (fun all completed => .inr ⟨_, completed⟩) fun p4 state done4 => ?_
    exact reports_pure done4
  have opening := (reports_applyOpening s account opened).weaken (fun _ _ stands => stands)
    fun all halted => (Or.inl halted : halts all)
  have body := opening.bind finishes
  simp only [Program.bind_assoc, Program.pure_eq, Program.done_ok_bind] at body
  refine Reports.catchError (body.catchPanic _) fun all reason ends => ?_
  refine reports_error (fun events => (Unfinished events ∧ announced events <+: confirmed all) ∨
    ∃ sigs, DoneWith sigs (confirmed all) events) ?_ fun final same failed => ?_
  · rcases ends with ⟨told, heard, stands⟩ | completed
    · refine .inl ⟨stands.unfinished, ?_⟩
      rw [stands.said, stands.knows]
      exact stands.first
    · exact .inr completed
  · unfold ApplyFailure
    rwa [same]

end Requests

/-! ## Every job -/

/-- However it is answered, a job announces only what it may, and its stream goes with its end. -/
theorem leads_job (sdk : Sdk) (s : AppState) (port : Nat) (job : Job) :
    (job.program sdk s port).Leads (fun _ => Call.Kept) MayAnnounce
      (fun all outcome => job.Stream outcome all) [] := by
  have quiet {program : Client Answer} (mute : Mute program) :
      program.Leads (fun _ => Call.Kept) MayAnnounce (fun all _ => sent all = []) [] :=
    mute.leads rfl
  have single {program : Client Signature} (mute : Mute program) :
      Mute (Operation.single program >>= fun sigs => pure (Answer.signatures sigs)) := by
    have listed : Mute (Operation.single program) := mute.bind fun _ => trivial
    exact listed.bind fun _ => trivial
  have streams {failure : List (Exchange Reply) → Prop} {program : Client ActionResponse}
      (reports : Reports (fun all response =>
        DoneWith response.signatures (confirmed all) (sent all)) failure [] program) :
      (program >>= fun response => pure (Answer.action response)).Leads (fun _ => Call.Kept)
        MayAnnounce (fun all outcome => RequestStream failure outcome all) [] := by
    refine Program.Leads.bind reports (fun all response done => ?_) (fun _ _ failed => failed)
      fun _ _ none => none
    exact ⟨response, rfl, done⟩
  cases job with
  | endpoint route =>
    cases route with
    | health => exact quiet ⟨trivial, fun _ => trivial⟩
    | state =>
      have reads : Mute (stateHandler s) := (lenient_readLedgerState s).mute
      exact quiet (reads.bind fun _ => trivial)
    | action request =>
      cases request with
      | init => exact quiet ((mute_initHandler sdk s).bind fun _ => trivial)
      | transfer requested => exact streams (reports_transferHandler sdk s requested)
      | applyPending account => exact streams (reports_applyPendingHandler s account)
  | operation call =>
    cases call with
    | configure payer authority mint => exact quiet (single (mute_configure _ _ _ _))
    | deposit payer authority mint amount decimals => exact quiet (single (mute_deposit _ _ _ _ _))
    | applyPending payer authority mint => exact quiet (single (mute_applyPending _ _ _))
    | withdraw payer authority mint amount decimals =>
      exact quiet (single (mute_withdraw _ _ _ _ _ _))
    | transfer payer sender mint recipient amount progress =>
      cases progress with
      | none => exact quiet ((mute_transfer _ _ _ _ _ _).bind fun _ => trivial)
      | broadcast =>
        refine Program.Leads.bind (reports_transfer sdk payer sender mint recipient amount .nil)
          (fun all sigs done => ?_) (fun _ _ halted => halted) fun _ _ none => none
        exact ⟨sigs, rfl, done⟩

end ConfidentialBalances
