import ConfidentialBalances.Announcements
import ConfidentialBalances.Effect.History

/-!
# What a job may announce

A job announces a signature after the signatures before it, ends its stream with
all that it was told, and submits nothing after that. The bound looks only at
what the job itself was told, so it holds of a job among others as it holds of a
job alone.
-/

namespace ConfidentialBalances

open Effect

/-! ## What is announced is true -/

/-- A request to sign is answered by the transaction alone. -/
def Call.Kept : (request : Call) → Reply request → Prop
  | .newSignedWithPayer transaction, reply => reply = transaction.trySign
  | _, _ => True

/-- The chain answers it so. -/
theorem chain_kept (cluster : Cluster) : (chainSystem cluster).Promises Call.Kept := by
  rintro world request reply world' ⟨choice, answer⟩
  cases request with
  | newSignedWithPayer transaction => exact (Prod.mk.inj answer).1.symm
  | _ => trivial

/-- What a job may announce and submit after the replies it has had. -/
def MayAnnounce (past : List (Exchange Reply)) : Call → Prop
  | .emit (.signature _ sig) => Unfinished (sent past) ∧
      announced (sent past) ++ [sig] <+: confirmed past
  | .emit (.done sigs) => Unfinished (sent past) ∧ announced (sent past) = confirmed past ∧
      sigs = confirmed past
  | .sendAndConfirmTransaction _ => Unfinished (sent past)
  | _ => True

/-- What a job has announced are the first signatures that it was told, in order, and all of them
once its stream says that it is done. -/
structure Faithful (past : List (Exchange Reply)) : Prop where
  /-- The announced signatures. -/
  said : announced (sent past) <+: confirmed past
  /-- The signatures that it is done with. -/
  done : ∀ sigs, TransferProgress.done sigs ∈ sent past →
    announced (sent past) = confirmed past ∧ sigs = confirmed past

/-- Nothing announced is announced faithfully. -/
theorem Faithful.nil : Faithful [] := ⟨List.prefix_rfl, by simp⟩

/-- A stream that nothing has ended is not done. -/
theorem Unfinished.not_done {events : List TransferProgress} (unfinished : Unfinished events)
    (sigs : List Signature) : TransferProgress.done sigs ∉ events := by
  intro member
  have terminal := unfinished _ member
  simp [TransferProgress.terminal] at terminal

section Steps

variable {past : List (Exchange Reply)}

/-- An exchange that neither confirms nor announces nor says that the stream is done. -/
theorem Faithful.silent {exchange : Exchange Reply} (faithful : Faithful past)
    (unconfirmed : confirmed [exchange] = []) (unannounced : announced (sent [exchange]) = [])
    (undone : ∀ sigs, TransferProgress.done sigs ∉ sent [exchange]) :
    Faithful (past ++ [exchange]) := by
  have told : confirmed (past ++ [exchange]) = confirmed past := by
    rw [confirmed_append, unconfirmed, List.append_nil]
  have heard : announced (sent (past ++ [exchange])) = announced (sent past) := by
    rw [sent_append, announced_append, unannounced, List.append_nil]
  refine ⟨?_, fun sigs member => ?_⟩
  · rw [told, heard]
    exact faithful.said
  · rw [told, heard]
    rw [sent_append] at member
    rcases List.mem_append.mp member with earlier | here
    · exact faithful.done sigs earlier
    · exact absurd here (undone sigs)

/-- What a job may announce keeps it faithful, whatever it is answered. -/
theorem Faithful.step {request : Call} (faithful : Faithful past) (may : MayAnnounce past request)
    (reply : Reply request) : Faithful (past ++ [⟨request, reply⟩]) := by
  cases request with
  | sendAndConfirmTransaction transaction =>
    have unfinished : Unfinished (sent past) := may
    have same : sent (past ++ [⟨.sendAndConfirmTransaction transaction, reply⟩]) = sent past := by
      rw [sent_append]
      exact List.append_nil _
    refine ⟨?_, fun sigs member => ?_⟩
    · rw [same, confirmed_append]
      exact faithful.said.trans (List.prefix_append _ _)
    · rw [same] at member
      exact absurd member (unfinished.not_done sigs)
  | emit event =>
    cases event with
    | phase name detail => exact faithful.silent rfl rfl (by simp [sent, Exchange.sent?])
    | error message => exact faithful.silent rfl rfl (by simp [sent, Exchange.sent?])
    | signature label sig =>
      obtain ⟨unfinished, next⟩ : Unfinished (sent past) ∧
        announced (sent past) ++ [sig] <+: confirmed past := may
      have told : confirmed (past ++ [⟨.emit (.signature label sig), reply⟩]) =
          confirmed past := by
        rw [confirmed_append]
        exact List.append_nil _
      refine ⟨?_, fun sigs member => ?_⟩
      · rw [told, sent_append, announced_append]
        exact next
      · rw [sent_append] at member
        rcases List.mem_append.mp member with earlier | here
        · exact absurd earlier (unfinished.not_done sigs)
        · simp [sent, Exchange.sent?] at here
    | done sigs =>
      obtain ⟨unfinished, all, same⟩ : Unfinished (sent past) ∧
        announced (sent past) = confirmed past ∧ sigs = confirmed past := may
      have told : confirmed (past ++ [⟨.emit (.done sigs), reply⟩]) = confirmed past := by
        rw [confirmed_append]
        exact List.append_nil _
      have heard : announced (sent (past ++ [⟨.emit (.done sigs), reply⟩])) =
          announced (sent past) := by
        rw [sent_append, announced_append]
        exact List.append_nil _
      refine ⟨?_, fun sigs' member => ?_⟩
      · rw [told, heard, all]
      · rw [told, heard]
        rw [sent_append] at member
        rcases List.mem_append.mp member with earlier | here
        · exact absurd earlier (unfinished.not_done sigs')
        · have last : sigs' = sigs := by simpa [sent, Exchange.sent?] using here
          exact ⟨all, last.trans same⟩
  | _ => exact faithful.silent rfl rfl (by simp [sent, Exchange.sent?])

end Steps

/-! ## Judging a program by what it announces -/

/-- However it is answered, the program announces only what it may, does not panic, and returns a
value or fails with its history as said. -/
abbrev Reports {α : Type} (ok : List (Exchange Reply) → α → Prop)
    (fails : List (Exchange Reply) → Prop) (past : List (Exchange Reply)) (program : Client α) :
    Prop :=
  program.Leads (fun _ => Call.Kept) MayAnnounce (fun all outcome => match outcome with
    | .ok value => ok all value
    | .error _ => fails all
    | .panic _ => False) past

/-- The job was told these signatures, has announced the first of them, and its stream is open. -/
structure MidStream (told heard : List Signature) (past : List (Exchange Reply)) : Prop where
  /-- What the job was told. -/
  knows : confirmed past = told
  /-- What the job announced. -/
  said : announced (sent past) = heard
  /-- The signatures heard are the first that the job was told. -/
  first : heard <+: told
  /-- No event ends the stream. -/
  unfinished : Unfinished (sent past)

/-- The job has announced the first of the signatures that it was told, and its stream is open. -/
def Halted (past : List (Exchange Reply)) : Prop := ∃ told heard, MidStream told heard past

/-- The stream has said that it is done with all that the job was told and announced. -/
structure DoneWith (sigs told : List Signature) (events : List TransferProgress) : Prop where
  /-- The stream said so last, and nothing before ended it. -/
  closed : ∃ before, events = before ++ [.done sigs] ∧ Unfinished before
  /-- What the job was told. -/
  knows : told = sigs
  /-- What the stream announced. -/
  said : announced events = sigs

/-- Nothing was told or announced in between. -/
structure Unreported (past all : List (Exchange Reply)) : Prop where
  /-- The signatures that were told. -/
  confirmed : confirmed all = confirmed past
  /-- The events. -/
  sent : sent all = sent past

/-- Where nothing was told or announced in between, the stream is where it was. -/
theorem MidStream.unreported {told heard : List Signature} {past all : List (Exchange Reply)}
    (stands : MidStream told heard past) (alike : Unreported past all) :
    MidStream told heard all := by
  refine ⟨?_, ?_, stands.first, ?_⟩
  · rw [alike.confirmed, stands.knows]
  · rw [alike.sent, stands.said]
  · rw [alike.sent]
    exact stands.unfinished

/-- An exchange that shows nothing leaves it so. -/
theorem MidStream.still {told heard : List Signature} {past : List (Exchange Reply)}
    {exchange : Exchange Reply} (stands : MidStream told heard past)
    (unconfirmed : confirmed [exchange] = []) (unsent : sent [exchange] = []) :
    MidStream told heard (past ++ [exchange]) := by
  refine stands.unreported ⟨?_, ?_⟩
  · rw [confirmed_append, unconfirmed, List.append_nil]
  · rw [sent_append, unsent, List.append_nil]

/-- Nothing was told or announced yet. -/
theorem MidStream.nil : MidStream [] [] [] := ⟨rfl, rfl, List.prefix_rfl, .nil⟩

section Rules

variable {α β : Type} {ok : List (Exchange Reply) → α → Prop}
variable {fails : List (Exchange Reply) → Prop} {past : List (Exchange Reply)}
variable {program : Client α} {rest : α → Client β} {told heard : List Signature}

/-- A value returned at once reports nothing. -/
theorem reports_pure {value : α} (holds : ok past value) :
    Reports ok fails past (pure value) := holds

/-- A failure reports nothing. -/
theorem reports_fail {reason : ClientError} (holds : fails past) :
    Reports ok fails past (Program.fail reason) := holds

/-- Less may be said. -/
theorem Reports.weaken {ok' : List (Exchange Reply) → α → Prop}
    {fails' : List (Exchange Reply) → Prop} (reports : Reports ok fails past program)
    (weaker : ∀ all value, ok all value → ok' all value)
    (weaker' : ∀ all, fails all → fails' all) : Reports ok' fails' past program := by
  refine Program.Leads.weaken reports fun all outcome holds => ?_
  cases outcome with
  | ok value => exact weaker all value holds
  | error reason => exact weaker' all holds
  | panic message => exact holds

/-- One program after another. -/
theorem Reports.bind {mid : List (Exchange Reply) → α → Prop}
    {ok : List (Exchange Reply) → β → Prop} (first : Reports mid fails past program)
    (second : ∀ all value, mid all value → Reports ok fails all (rest value)) :
    Reports ok fails past (program >>= rest) :=
  Program.Leads.bind first second (fun _ _ holds => holds) fun _ _ holds => holds

/-- A handled error. -/
theorem Reports.catchError {fails' : List (Exchange Reply) → Prop}
    {handle : ClientError → Client α} (reports : Reports ok fails past program)
    (handled : ∀ all reason, fails all → Reports ok fails' all (handle reason)) :
    Reports ok fails' past (program.catchError handle) :=
  Program.Leads.catchError reports (fun _ _ holds => holds) handled fun _ _ none => none

/-- Renaming errors changes nothing. -/
theorem Reports.mapError (reports : Reports ok fails past program)
    (rename : ClientError → ClientError) : Reports ok fails past (program.mapError rename) :=
  Program.Leads.mapError reports (fun _ _ holds => holds) (fun _ _ holds => holds)
    fun _ _ none => none

/-- There is no panic to report. -/
theorem Reports.catchPanic (reports : Reports ok fails past program)
    (report : String → ClientError) : Reports ok fails past (program.catchPanic report) :=
  Program.Leads.catchPanic reports (fun _ _ holds => holds) (fun _ _ holds => holds)
    fun _ _ none => none.elim

/-- A request that shows nothing may be made at any time. -/
theorem Call.Asks.mayAnnounce {request : Call} (asks : request.Asks)
    (past : List (Exchange Reply)) : MayAnnounce past request := by
  cases request with
  | sendAndConfirmTransaction transaction => exact asks.elim
  | emit event => exact asks.elim
  | _ => trivial

/-- A silent program tells and announces nothing. -/
theorem SilentBut.reports {skipped : Exchange Reply → Bool} (silent : SilentBut skipped program)
    (past : List (Exchange Reply)) :
    Reports (fun all _ => Unreported past all) (Unreported past) past program := by
  induction program generalizing past with
  | done outcome =>
    cases outcome with
    | ok value => exact ⟨rfl, rfl⟩
    | error reason => exact ⟨rfl, rfl⟩
    | panic message => exact silent.elim
  | call request next ih =>
    refine ⟨silent.1.mayAnnounce past, fun reply _ => ?_⟩
    have unheard := unheard_ask silent.1 reply
    have alike (all : List (Exchange Reply)) (later : Unreported (past ++ [⟨request, reply⟩]) all) :
        Unreported past all := by
      refine ⟨later.confirmed.trans ?_, later.sent.trans ?_⟩
      · rw [confirmed_append, unheard.confirmed, List.append_nil]
      · rw [sent_append, unheard.sent, List.append_nil]
    exact Reports.weaken (ih reply (silent.2 reply).2 _) (fun all _ => alike all) alike

variable {ok : List (Exchange Reply) → β → Prop}

/-- A silent program, and then the rest. -/
theorem reports_after {skipped : Exchange Reply → Bool} (silent : SilentBut skipped program)
    (stands : MidStream told heard past)
    (second : ∀ all value, MidStream told heard all → Reports ok Halted all (rest value)) :
    Reports ok Halted past (program >>= rest) := by
  have first : Reports (fun all _ => MidStream told heard all) Halted past program :=
    (silent.reports past).weaken (fun _ _ alike => stands.unreported alike)
      fun _ alike => ⟨told, heard, stands.unreported alike⟩
  exact first.bind second

/-- A computed result, and then the rest. -/
theorem reports_ofExcept {result : Except ClientError α} (stands : MidStream told heard past)
    (second : ∀ all value, MidStream told heard all → Reports ok Halted all (rest value)) :
    Reports ok Halted past (Program.ofExcept result >>= rest) := by
  have computes : Silent (Program.ofExcept result) := silent_ofExcept result
  exact reports_after computes stands second

/-- A phase, and then the rest. -/
theorem reports_phase {name detail : String} {rest : Unit → Client β}
    (stands : MidStream told heard past)
    (second : ∀ all, MidStream told heard all → Reports ok Halted all (rest ())) :
    Reports ok Halted past (emit .broadcast (.phase name detail) >>= rest) := by
  refine ⟨trivial, fun reply _ => second _ ⟨?_, ?_, stands.first, ?_⟩⟩
  · rw [confirmed_append, stands.knows]
    exact List.append_nil _
  · rw [sent_append, announced_append, stands.said]
    exact List.append_nil _
  · rw [sent_append]
    refine stands.unfinished.append ?_
    simp [Unfinished, sent, Exchange.sent?, TransferProgress.terminal]

/-- `send_tx`, signed as its message requires, is told its signature. -/
theorem reports_sends {instructions : List Instruction} {signers : List Pubkey} {payer : Pubkey}
    (signed : Transaction.SignedExactly ⟨instructions, payer, signers⟩)
    (stands : MidStream told heard past) :
    Reports (fun all sig => MidStream (told ++ [sig]) heard all) Halted past
      (sendTx instructions signers payer) := by
  have signs := (Transaction.trySign_ok_iff ⟨instructions, payer, signers⟩ _).mpr ⟨signed, rfl⟩
  refine ⟨trivial, fun blockhash _ => ?_⟩
  have asked : MidStream told heard (past ++ [⟨.getLatestBlockhash, blockhash⟩]) :=
    stands.still rfl rfl
  cases blockhash with
  | error reason => exact ⟨told, heard, asked⟩
  | ok found =>
    refine ⟨trivial, fun signing kept => ?_⟩
    obtain rfl : signing = .ok ⟨instructions, payer, signers⟩ := kept.trans signs
    have ready : MidStream told heard (past ++ [⟨.getLatestBlockhash, Except.ok found⟩] ++
        [⟨.newSignedWithPayer ⟨instructions, payer, signers⟩,
          Except.ok ⟨instructions, payer, signers⟩⟩]) := asked.still rfl rfl
    refine ⟨ready.unfinished, fun sending _ => ?_⟩
    cases sending with
    | error reason => exact ⟨told, heard, ready.still rfl rfl⟩
    | ok sig =>
      refine reports_pure ⟨?_, ?_, ?_, ?_⟩
      · rw [confirmed_append, ready.knows]
        rfl
      · rw [sent_append, announced_append, ready.said]
        exact List.append_nil _
      · exact stands.first.trans (List.prefix_append _ _)
      · rw [sent_append]
        exact ready.unfinished.append (by simp [Unfinished, sent, Exchange.sent?])

/-- A job that sends a transaction is told its signature, and then reports the rest. -/
theorem reports_sendTx {instructions : List Instruction} {signers : List Pubkey} {payer : Pubkey}
    {rest : Signature → Client β}
    (signed : Transaction.SignedExactly ⟨instructions, payer, signers⟩)
    (stands : MidStream told heard past)
    (second : ∀ all sig, MidStream (told ++ [sig]) heard all → Reports ok Halted all (rest sig)) :
    Reports ok Halted past (sendTx instructions signers payer >>= rest) :=
  (reports_sends signed stands).bind second

/-- The next signature is announced, and then the rest. -/
theorem reports_signature {label : String} {sig : Signature} {rest : Unit → Client β}
    (stands : MidStream told heard past) (next : heard ++ [sig] <+: told)
    (second : ∀ all, MidStream told (heard ++ [sig]) all → Reports ok Halted all (rest ())) :
    Reports ok Halted past (emit .broadcast (.signature label sig) >>= rest) := by
  have may : announced (sent past) ++ [sig] <+: confirmed past := by
    rw [stands.said, stands.knows]
    exact next
  refine ⟨⟨stands.unfinished, may⟩, fun reply _ => second _ ⟨?_, ?_, next, ?_⟩⟩
  · rw [confirmed_append, stands.knows]
    exact List.append_nil _
  · rw [sent_append, announced_append, stands.said]
    rfl
  · rw [sent_append]
    refine stands.unfinished.append ?_
    simp [Unfinished, sent, Exchange.sent?, TransferProgress.terminal]

/-- The stream is done with everything. -/
theorem reports_done {sigs : List Signature} {rest : Unit → Client β}
    {fails : List (Exchange Reply) → Prop} (stands : MidStream sigs sigs past)
    (second : ∀ all, DoneWith sigs (confirmed all) (sent all) →
      Reports ok fails all (rest ())) :
    Reports ok fails past (emit .broadcast (.done sigs) >>= rest) := by
  have all : announced (sent past) = confirmed past := stands.said.trans stands.knows.symm
  refine ⟨⟨stands.unfinished, all, stands.knows.symm⟩, fun reply _ => second _ ⟨?_, ?_, ?_⟩⟩
  · exact ⟨sent past, by rw [sent_append]; rfl, stands.unfinished⟩
  · rw [confirmed_append, stands.knows]
    exact List.append_nil _
  · rw [sent_append, announced_append, stands.said]
    exact List.append_nil _

end Rules

end ConfidentialBalances
