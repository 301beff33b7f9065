import ConfidentialBalances.Effect.Transcript
import ConfidentialBalances.Landing

/-!
# What the client was answered

Reading a transcript of the client: which signatures were confirmed to it, which
events it sent, and how many of its transactions had been confirmed when a
request failed. A silent program shows nothing outside and gives up at the first
request that fails; a lenient one takes an account that could not be read for one
that is not there, and goes on.
-/

namespace ConfidentialBalances

open Effect

/-- An account could not be read. That there is no account at an address is an answer. -/
def Exchange.unread : Exchange Reply → Bool
  | ⟨.getAccount _, .error (.accountNotFound _ none)⟩ => false
  | ⟨.getAccount _, .error _⟩ => true
  | _ => false

/-- The environment did not serve the request. -/
def Exchange.failed : Exchange Reply → Bool
  | ⟨.signMessage _, .error _⟩ => true
  | ⟨.getAccount key, reply⟩ => Exchange.unread ⟨.getAccount key, reply⟩
  | ⟨.getBalance _, .error _⟩ => true
  | ⟨.getMinimumBalanceForRentExemption _, .error _⟩ => true
  | ⟨.getLatestBlockhash, .error _⟩ => true
  | ⟨.sendAndConfirmTransaction _, .error _⟩ => true
  | _ => false

/-- No read of an account failed. -/
def Sighted (transcript : List (Exchange Reply)) : Prop :=
  ∀ exchange ∈ transcript, Exchange.unread exchange = false

instance (transcript : List (Exchange Reply)) : Decidable (Sighted transcript) :=
  inferInstanceAs (Decidable (∀ exchange ∈ transcript, _))

/-- The transcript without the account reads that failed. -/
def heeded (transcript : List (Exchange Reply)) : List (Exchange Reply) :=
  transcript.filter fun exchange => !Exchange.unread exchange

/-- The transaction that was submitted, confirmed or not. -/
def Exchange.submitted? : Exchange Reply → Option Transaction
  | ⟨.sendAndConfirmTransaction transaction, _⟩ => some transaction
  | _ => none

/-- The transaction that was confirmed. -/
def Exchange.carried? : Exchange Reply → Option Transaction
  | ⟨.sendAndConfirmTransaction transaction, .ok _⟩ => some transaction
  | _ => none

/-- The signature of a transaction that was confirmed. -/
def Exchange.confirmed? : Exchange Reply → Option Signature
  | ⟨.sendAndConfirmTransaction _, .ok sig⟩ => some sig
  | _ => none

/-- The event that was sent. -/
def Exchange.sent? : Exchange Reply → Option TransferProgress
  | ⟨.emit event, _⟩ => some event
  | _ => none

/-- The submitted transactions, in order. -/
def submitted (transcript : List (Exchange Reply)) : List Transaction :=
  transcript.filterMap Exchange.submitted?

/-- The confirmed transactions, in order. -/
def carried (transcript : List (Exchange Reply)) : List Transaction :=
  transcript.filterMap Exchange.carried?

/-- The confirmed signatures, in order. -/
def confirmed (transcript : List (Exchange Reply)) : List Signature :=
  transcript.filterMap Exchange.confirmed?

/-- The events sent, in order. -/
def sent (transcript : List (Exchange Reply)) : List TransferProgress :=
  transcript.filterMap Exchange.sent?

/-- For every request that failed, how many transactions had been confirmed by then. -/
def failures : List (Exchange Reply) → List Nat
  | [] => []
  | exchange :: rest => (if Exchange.failed exchange then [0] else []) ++
      (failures rest).map (· + (confirmed [exchange]).length)

section Lists

variable (first second : List (Exchange Reply))

@[simp] theorem submitted_nil : submitted [] = [] := rfl
@[simp] theorem carried_nil : carried [] = [] := rfl
@[simp] theorem confirmed_nil : confirmed [] = [] := rfl
@[simp] theorem sent_nil : sent [] = [] := rfl
@[simp] theorem failures_nil : failures [] = [] := rfl

@[simp] theorem submitted_append :
    submitted (first ++ second) = submitted first ++ submitted second :=
  List.filterMap_append

@[simp] theorem carried_append : carried (first ++ second) = carried first ++ carried second :=
  List.filterMap_append

@[simp] theorem confirmed_append :
    confirmed (first ++ second) = confirmed first ++ confirmed second :=
  List.filterMap_append

@[simp] theorem sent_append : sent (first ++ second) = sent first ++ sent second :=
  List.filterMap_append

/-- An exchange that was served and confirmed nothing leaves the failures as they are. -/
theorem failures_cons_served {exchange : Exchange Reply} {transcript : List (Exchange Reply)}
    (served : Exchange.failed exchange = false) (unconfirmed : confirmed [exchange] = []) :
    failures (exchange :: transcript) = failures transcript := by
  simp [failures, served, unconfirmed]

/-- An exchange that failed is a failure before everything after it. -/
theorem failures_cons_failed {exchange : Exchange Reply} {transcript : List (Exchange Reply)}
    (failed : Exchange.failed exchange = true) (unconfirmed : confirmed [exchange] = []) :
    failures (exchange :: transcript) = 0 :: failures transcript := by
  simp [failures, failed, unconfirmed]

/-- Later failures come after the earlier confirmations. -/
@[simp] theorem failures_append :
    failures (first ++ second) =
      failures first ++ (failures second).map (· + (confirmed first).length) := by
  induction first with
  | nil => simp
  | cons exchange rest ih =>
    have count : (confirmed (exchange :: rest)).length =
        (confirmed rest).length + (confirmed [exchange]).length := by
      rw [← List.singleton_append, confirmed_append, List.length_append, Nat.add_comm]
    simp only [List.cons_append, failures, ih, List.map_append, List.map_map, List.append_assoc,
      count]
    congr 3
    funext k
    simp only [Function.comp_apply]
    omega

@[simp] theorem heeded_append : heeded (first ++ second) = heeded first ++ heeded second :=
  List.filter_append ..

/-- A failed read confirms nothing. -/
@[simp] theorem confirmed_heeded : confirmed (heeded first) = confirmed first := by
  induction first with
  | nil => rfl
  | cons exchange rest ih =>
    by_cases unread : Exchange.unread exchange = true
    · have nothing : confirmed [exchange] = [] := by
        obtain ⟨request, reply⟩ := exchange
        cases request with
        | getAccount key => rfl
        | _ => exact absurd unread Bool.false_ne_true
      have dropped : heeded (exchange :: rest) = heeded rest := by simp [heeded, unread]
      rw [dropped, ih, ← List.singleton_append, confirmed_append, nothing, List.nil_append]
    · have kept : heeded (exchange :: rest) = exchange :: heeded rest := by simp [heeded, unread]
      rw [kept, ← List.singleton_append, confirmed_append, ih, ← confirmed_append,
        List.singleton_append]

/-- Both parts of a transcript were sighted where the whole was. -/
theorem sighted_append : Sighted (first ++ second) ↔ Sighted first ∧ Sighted second :=
  List.forall_mem_append

/-- A failure of what is heeded is a failure. -/
theorem failures_heeded {k : Nat} (member : k ∈ failures (heeded first)) : k ∈ failures first := by
  induction first generalizing k with
  | nil => exact member
  | cons exchange rest ih =>
    by_cases unread : Exchange.unread exchange = true
    · have dropped : heeded (exchange :: rest) = heeded rest := by simp [heeded, unread]
      have nothing : confirmed [exchange] = [] := by
        obtain ⟨request, reply⟩ := exchange
        cases request with
        | getAccount key => rfl
        | _ => exact absurd unread Bool.false_ne_true
      rw [dropped] at member
      simp only [failures, nothing, List.length_nil, Nat.add_zero, List.map_id']
      exact List.mem_append_right _ (ih member)
    · have kept : heeded (exchange :: rest) = exchange :: heeded rest := by simp [heeded, unread]
      rw [kept, failures] at member
      rw [failures]
      rcases List.mem_append.mp member with here | later
      · exact List.mem_append_left _ here
      · obtain ⟨earlier, found, rfl⟩ := List.mem_map.mp later
        exact List.mem_append_right _ (List.mem_map.mpr ⟨earlier, ih found, rfl⟩)

end Lists

/-! ## Silent programs -/

/-- Nothing of the transcript shows outside. -/
structure Unheard (transcript : List (Exchange Reply)) : Prop where
  /-- No transaction was submitted. -/
  submitted : submitted transcript = []
  /-- None was confirmed. -/
  confirmed : confirmed transcript = []
  /-- No event was sent. -/
  sent : sent transcript = []

/-- An empty transcript shows nothing. -/
theorem Unheard.nil : Unheard [] := ⟨rfl, rfl, rfl⟩

/-- Silence after silence. -/
theorem Unheard.append {first second : List (Exchange Reply)} (before : Unheard first)
    (after : Unheard second) : Unheard (first ++ second) := by
  refine ⟨?_, ?_, ?_⟩
  · rw [submitted_append, before.submitted, after.submitted, List.append_nil]
  · rw [confirmed_append, before.confirmed, after.confirmed, List.append_nil]
  · rw [sent_append, before.sent, after.sent, List.append_nil]

/-- A request that neither sends an event nor writes the event log. -/
def Call.Unvoiced : Call → Prop
  | .emit _ => False
  | .writeEvents _ => False
  | _ => True

/-- The transcript sends no event and leaves the event log alone. -/
def Unvoiced (transcript : List (Exchange Reply)) : Prop :=
  ∀ exchange ∈ transcript, exchange.1.Unvoiced

/-- An unvoiced transcript sends no event. -/
theorem Unvoiced.sent {transcript : List (Exchange Reply)} (unvoiced : Unvoiced transcript) :
    sent transcript = [] := by
  refine List.filterMap_eq_nil_iff.mpr fun exchange member => ?_
  obtain ⟨request, reply⟩ := exchange
  cases request with
  | emit event => exact (unvoiced _ member).elim
  | _ => rfl

/-- Unvoiced transcripts make an unvoiced one. -/
theorem Unvoiced.append {first second : List (Exchange Reply)} (before : Unvoiced first)
    (after : Unvoiced second) : Unvoiced (first ++ second) :=
  List.forall_mem_append.mpr ⟨before, after⟩

/-- An exchange that sends nothing before an unvoiced transcript. -/
theorem Unvoiced.cons {exchange : Exchange Reply} {later : List (Exchange Reply)}
    (after : Unvoiced later) (here : exchange.1.Unvoiced) : Unvoiced (exchange :: later) :=
  List.forall_mem_cons.mpr ⟨here, after⟩

/-- The request only asks, and for no signature of a transaction: it shows nothing outside and
writes no event. -/
def Call.Asks : Call → Prop
  | .newSignedWithPayer _ => False
  | .sendAndConfirmTransaction _ => False
  | .emit _ => False
  | .writeEvents _ => False
  | _ => True

/-- The program only asks, gives up at the first request that fails, unless the failure is one that
it skips, and does not panic. -/
def SilentBut {α : Type} (skipped : Exchange Reply → Bool) : Client α → Prop
  | .done (.panic _) => False
  | .done _ => True
  | .call request next => request.Asks ∧ ∀ reply,
      (Exchange.failed ⟨request, reply⟩ = true → skipped ⟨request, reply⟩ = false →
        ∃ reason, next reply = .done (.error reason)) ∧
      SilentBut skipped (next reply)

/-- The program gives up at every failure. -/
abbrev Silent {α : Type} (program : Client α) : Prop := SilentBut (fun _ => false) program

/-- The program gives up at every failure but that of an account's read, which it takes for an
account that is not there. -/
abbrev Lenient {α : Type} (program : Client α) : Prop := SilentBut Exchange.unread program

section Silence

variable {α β : Type} {World : Type} {system : System Reply World} {world : World}
variable {skipped skipped' : Exchange Reply → Bool}

/-- A request that only asks sends no event and leaves the event log alone. -/
theorem Call.Asks.unvoiced {request : Call} (asks : request.Asks) : request.Unvoiced := by
  cases request with
  | emit event => exact asks.elim
  | writeEvents events => exact asks.elim
  | _ => trivial

/-- One silent program after another. -/
theorem SilentBut.bind {program : Client α} {rest : α → Client β}
    (first : SilentBut skipped program) (second : ∀ value, SilentBut skipped (rest value)) :
    SilentBut skipped (program >>= rest) := by
  induction program with
  | done outcome =>
    cases outcome with
    | ok value => exact second value
    | error reason => trivial
    | panic message => exact first.elim
  | call request next ih =>
    refine ⟨first.1, fun reply => ⟨fun failed counts => ?_, ih reply (first.2 reply).2⟩⟩
    obtain ⟨reason, ended⟩ := (first.2 reply).1 failed counts
    exact ⟨reason, by simp only [ended]; rfl⟩

/-- Renaming errors keeps a silent program silent. -/
theorem SilentBut.mapError {program : Client α} (silent : SilentBut skipped program)
    (rename : ClientError → ClientError) : SilentBut skipped (program.mapError rename) := by
  induction program with
  | done outcome =>
    cases outcome with
    | ok value => trivial
    | error reason => trivial
    | panic message => exact silent.elim
  | call request next ih =>
    refine ⟨silent.1, fun reply => ⟨fun failed counts => ?_, ih reply (silent.2 reply).2⟩⟩
    obtain ⟨reason, ended⟩ := (silent.2 reply).1 failed counts
    exact ⟨rename reason, by simp only [ended]; rfl⟩

/-- A program that gives up at every failure gives up at those that are not skipped. -/
theorem SilentBut.skip {program : Client α} (silent : Silent program) :
    SilentBut skipped program := by
  induction program with
  | done outcome => cases outcome <;> exact silent
  | call request next ih =>
    exact ⟨silent.1, fun reply => ⟨fun failed _ => (silent.2 reply).1 failed rfl,
      ih reply (silent.2 reply).2⟩⟩

/-- A silent program makes no request but those that are allowed wherever one may ask. -/
theorem SilentBut.uses {allowed : Call → Prop} {program : Client α}
    (silent : SilentBut skipped program) (asks : ∀ request : Call, request.Asks → allowed request) :
    program.Uses allowed := by
  induction program with
  | done outcome => trivial
  | call request next ih =>
    exact ⟨asks request silent.1, fun reply => ih reply (silent.2 reply).2⟩

/-- A send asks for a blockhash and for the signatures, and submits what it is given signed. -/
theorem uses_sendTx {allowed : Call → Prop} {instructions : List Instruction}
    {signers : List Pubkey} {payer : Pubkey} (blockhash : allowed .getLatestBlockhash)
    (signs : allowed (.newSignedWithPayer ⟨instructions, payer, signers⟩))
    (sends : ∀ transaction, allowed (.sendAndConfirmTransaction transaction)) :
    (sendTx instructions signers payer).Uses allowed := by
  have computed {γ : Type} (reply : Except RpcError γ) : (orRpc reply).Uses allowed := by
    cases reply <;> trivial
  refine Program.Uses.bind ⟨blockhash, fun _ => trivial⟩ fun reply => ?_
  refine Program.Uses.bind (computed reply) fun _ => ?_
  refine Program.Uses.bind (Program.Uses.bind ⟨signs, fun _ => trivial⟩ fun reply => ?_)
    fun transaction => Program.Uses.bind ⟨sends _, fun _ => trivial⟩ fun reply => computed reply
  cases reply with
  | ok signed => trivial
  | error reason => cases reason <;> trivial

/-- A request that shows nothing leaves an unheard exchange. -/
theorem unheard_ask {request : Call} (asks : request.Asks) (reply : Reply request) :
    Unheard [⟨request, reply⟩] := by
  cases request with
  | sendAndConfirmTransaction transaction => exact asks.elim
  | emit event => exact asks.elim
  | _ => exact ⟨rfl, rfl, rfl⟩

/-- What a silent program shows: nothing, and a failure that counts only where it gives up. -/
theorem SilentBut.shows {program : Client α} (silent : SilentBut skipped program) :
    system.Shows (fun outcome transcript _ => Unheard transcript ∧ match outcome with
      | .ok _ => failures (transcript.filter (!skipped ·)) = []
      | .error _ => failures (transcript.filter (!skipped ·)) = [] ∨
          failures (transcript.filter (!skipped ·)) = [0]
      | .panic _ => False) program world := by
  induction program generalizing world with
  | done outcome =>
    rw [System.shows_done]
    cases outcome with
    | ok value => exact ⟨.nil, rfl⟩
    | error reason => exact ⟨.nil, .inl rfl⟩
    | panic message => exact silent.elim
  | call request next ih =>
    rw [System.shows_call]
    intro reply world' step
    have here := unheard_ask silent.1 reply
    have place := here.confirmed
    by_cases counts : Exchange.failed ⟨request, reply⟩ = true ∧ skipped ⟨request, reply⟩ = false
    · obtain ⟨reason, ended⟩ := (silent.2 reply).1 counts.1 counts.2
      rw [ended, System.shows_done]
      exact ⟨here, .inr (by simp [counts.2, failures, counts.1])⟩
    · refine (ih reply (silent.2 reply).2).weaken ?_
      rintro outcome transcript final ⟨quiet, post⟩
      have later : failures ((⟨request, reply⟩ :: transcript).filter (!skipped ·)) =
          failures (transcript.filter (!skipped ·)) := by
        cases skips : skipped ⟨request, reply⟩ with
        | true => simp [skips]
        | false =>
          have served : Exchange.failed ⟨request, reply⟩ = false := by simpa [skips] using counts
          simp only [List.filter_cons, skips, Bool.not_false, if_true]
          exact failures_cons_served served place
      refine ⟨here.append quiet, ?_⟩
      rw [later]
      exact post

/-- A program that gives up at every failure shows no other. -/
theorem Silent.shows {program : Client α} (silent : Silent program) :
    system.Shows (fun outcome transcript _ => Unheard transcript ∧ match outcome with
      | .ok _ => failures transcript = []
      | .error _ => failures transcript = [] ∨ failures transcript = [0]
      | .panic _ => False) program world := by
  refine System.Shows.weaken (SilentBut.shows silent) ?_
  intro outcome transcript world' shown
  simpa only [Bool.not_false, List.filter_true] using shown

/-- Returning a value is silent. -/
theorem silent_pure (value : α) : SilentBut skipped (pure value : Client α) := trivial

/-- Failing is silent. -/
theorem silent_fail (reason : ClientError) : SilentBut skipped (Program.fail reason : Client α) :=
  trivial

/-- A computed result is silent. -/
theorem silent_ofExcept (result : Except ClientError α) :
    SilentBut skipped (Program.ofExcept result : Client α) := by
  cases result <;> trivial

/-- Passing on a reply is silent. -/
theorem silent_orRpc (reply : Except RpcError α) : SilentBut skipped (orRpc reply) :=
  silent_ofExcept _

/-! ## Which parts of the programs are silent -/

/-- Generating a keypair is silent. -/
theorem silent_newKeypair : Silent newKeypair :=
  ⟨trivial, fun _ => ⟨fun failed => absurd failed Bool.false_ne_true, trivial⟩⟩

/-- Reading the event log is silent. -/
theorem silent_readEvents : Silent (ask .readEvents) :=
  ⟨trivial, fun _ => ⟨fun failed => absurd failed Bool.false_ne_true, trivial⟩⟩

/-- Getting an account is silent. -/
theorem silent_getAccount (key : Pubkey) : Silent (getAccount key) := by
  refine ⟨trivial, fun reply => ⟨fun failed _ => ?_, silent_orRpc reply⟩⟩
  cases reply with
  | ok data => exact absurd failed Bool.false_ne_true
  | error reason => exact ⟨_, rfl⟩

/-- Getting a balance is silent. -/
theorem silent_getBalance (key : Pubkey) : Silent (getBalance key) := by
  refine ⟨trivial, fun reply => ⟨fun failed _ => ?_, silent_orRpc reply⟩⟩
  cases reply with
  | ok lamports => exact absurd failed Bool.false_ne_true
  | error reason => exact ⟨_, rfl⟩

/-- Asking for the rent is silent. -/
theorem silent_getMinimumBalanceForRentExemption (length : Nat) :
    Silent (getMinimumBalanceForRentExemption length) := by
  refine ⟨trivial, fun reply => ⟨fun failed _ => ?_, silent_orRpc reply⟩⟩
  cases reply with
  | ok rent => exact absurd failed Bool.false_ne_true
  | error reason => exact ⟨_, rfl⟩

/-- Deriving keys is silent. -/
theorem silent_deriveConfidentialKeys (signer : Wallet) :
    Silent (deriveConfidentialKeys signer) := by
  refine ⟨trivial, fun reply => ?_⟩
  cases reply with
  | ok signed => exact ⟨fun failed => absurd failed Bool.false_ne_true, trivial⟩
  | error reason => exact ⟨fun _ _ => ⟨_, rfl⟩, trivial⟩

/-- Fetching a confidential account is silent. -/
theorem silent_fetchConfidential (account : Pubkey) : Silent (fetchConfidential account) :=
  (silent_getAccount account).bind fun _ => (silent_ofExcept _).bind fun _ => silent_ofExcept _

/-- A program that first asks for an account, and goes on whatever it is told, is lenient. -/
theorem lenient_account {key : Pubkey} {program : Reply (.getAccount key) → Client α}
    (next : ∀ reply, Lenient (program reply)) : Lenient (ask (.getAccount key) >>= program) := by
  refine ⟨trivial, fun reply => ⟨fun failed counts => ?_, next reply⟩⟩
  exact absurd (failed.symm.trans counts) (by decide)

end Silence

end ConfidentialBalances
