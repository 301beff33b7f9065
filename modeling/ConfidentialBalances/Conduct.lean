import ConfidentialBalances.Effect.Interleaving
import ConfidentialBalances.Endpoints
import ConfidentialBalances.Exchanges
import ConfidentialBalances.Payment
import ConfidentialBalances.TemporaryAccounts

/-!
# How a job conducts itself

What a request to the server, or a call of the library, may ask for after the
replies it has had, however these came about: it submits what its payer pays
for, writes to accounts that it generated itself and to associated token
accounts, mints once at most, and puts one entry at a time at the front of the
event log that it has just read. What it returns is said in the same terms, by
the signatures it was given and the entries it logged.
-/

namespace ConfidentialBalances

open Effect

/-! ## What a job has been told and has done -/

/-- The keypair that was generated. -/
def Exchange.keypair? : Exchange Reply → Option Pubkey
  | ⟨.newKeypair, key⟩ => some key
  | _ => none

/-- The entry that was put at the front of the event log. -/
def Exchange.entry? : Exchange Reply → Option EventLog
  | ⟨.writeEvents (entry :: _), _⟩ => some entry
  | _ => none

/-- The generated keypairs, in order. -/
def keypairs (past : List (Exchange Reply)) : List Pubkey := past.filterMap Exchange.keypair?

/-- The logged entries, in order. -/
def entries (past : List (Exchange Reply)) : List EventLog := past.filterMap Exchange.entry?

/-- The tokens that an instruction mints. -/
def Instruction.minted : Instruction → Nat
  | .mintTo _ _ _ _ amount => amount
  | _ => 0

/-- The tokens that a transaction mints. -/
def Transaction.minted (transaction : Transaction) : Nat :=
  (transaction.instructions.map Instruction.minted).sum

/-- The tokens that the confirmed transactions minted. -/
def minted (past : List (Exchange Reply)) : Nat := ((carried past).map Transaction.minted).sum

section Lists

variable (first second : List (Exchange Reply))

@[simp] theorem keypairs_append : keypairs (first ++ second) = keypairs first ++ keypairs second :=
  List.filterMap_append

@[simp] theorem entries_append : entries (first ++ second) = entries first ++ entries second :=
  List.filterMap_append

@[simp] theorem minted_append : minted (first ++ second) = minted first + minted second := by
  simp [minted]

@[simp] theorem keypairs_nil : keypairs [] = [] := rfl
@[simp] theorem entries_nil : entries [] = [] := rfl
@[simp] theorem minted_nil : minted [] = 0 := rfl

end Lists

/-! ## What it may submit -/

/-- On whose behalf a job runs. -/
structure Party where
  /-- Who pays. -/
  payer : Wallet
  /-- Whose accounts it acts on. -/
  owners : List Wallet
  /-- How many tokens it may mint. -/
  budget : Nat

/-- Instructions that a payer pays for and that keep to accounts the job generated. -/
structure Orderly (party : Party) (owned : List Pubkey) (instructions : List Instruction) :
    Prop where
  /-- Only the job's own accounts and associated token accounts are written. -/
  writes : ∀ instruction ∈ instructions, ∀ key ∈ instruction.writes,
    key ∈ owned ∨ ∃ owner mint, key = getAssociatedTokenAddress owner mint
  /-- Lamports move only between these and the payer. -/
  lamports : ∀ instruction ∈ instructions, ∀ key ∈ instruction.lamportKeys,
    key = party.payer.pubkey ∨ key ∈ owned ∨
      ∃ owner mint, key = getAssociatedTokenAddress owner mint
  /-- What is created is initialised. -/
  tidy : ∃ owner ∈ party.payer :: party.owners, Tidy party.payer owner owned instructions

/-- The instruction lists that a job may submit, given the accounts that it generated. -/
inductive Proper (party : Party) (owned : List Pubkey) : List Instruction → Prop
  /-- Instructions that keep to the run's own accounts. -/
  | orderly {instructions : List Instruction} (orderly : Orderly party owned instructions) :
      Proper party owned instructions
  /-- Instructions that create a mint at a wallet's address, with the payer as its authority. -/
  | createMint (mint : Wallet) (rent space decimals : Nat) (auditor : ElGamalPubkey) :
      Proper party owned [.createAccount party.payer.pubkey mint.pubkey rent space .splToken2022,
        .initializeConfidentialTransferMint mint.pubkey (some party.payer.pubkey) true
          (some auditor),
        .initializeMint mint.pubkey party.payer.pubkey decimals]
  /-- An instruction that mints to an associated token account. -/
  | mintTo (mint : Wallet) (owner : Pubkey) (amount : Nat) :
      Proper party owned [.mintTo mint.pubkey (getAssociatedTokenAddress owner mint.pubkey)
        party.payer.pubkey [] amount]

/-- What a job may ask for. It mints in one transaction at most, within the budget. -/
def Conduct (party : Party) (past : List (Exchange Reply)) : Call → Prop
  | .sendAndConfirmTransaction transaction =>
    transaction.payer = party.payer.pubkey ∧ Proper party (keypairs past) transaction.instructions ∧
      (transaction.minted = 0 ∨ minted past = 0 ∧ transaction.minted ≤ party.budget)
  | .writeEvents events => ∃ before log entry, past = before ++ [⟨.readEvents, log⟩] ∧
      events = (entry :: log).take recentEventsKeep
  | _ => True

/-- A request that neither submits a transaction nor writes the event log. -/
def Call.Plain : Call → Prop
  | .sendAndConfirmTransaction _ => False
  | .writeEvents _ => False
  | _ => True

/-- Plain requests are allowed at any time. -/
theorem Call.Plain.conduct {party : Party} {request : Call} (plain : request.Plain)
    (past : List (Exchange Reply)) : Conduct party past request := by
  cases request with
  | sendAndConfirmTransaction transaction => exact plain.elim
  | writeEvents events => exact plain.elim
  | _ => trivial

/-- What plain requests add to a history confirms, logs and mints nothing. -/
theorem plain_silent {more : List (Exchange Reply)} (plain : ∀ exchange ∈ more, exchange.1.Plain) :
    confirmed more = [] ∧ entries more = [] ∧ minted more = 0 := by
  induction more with
  | nil => exact ⟨rfl, rfl, rfl⟩
  | cons exchange rest ih =>
    obtain ⟨request, reply⟩ := exchange
    have first : request.Plain := plain _ List.mem_cons_self
    obtain ⟨unconfirmed, unlogged, unminted⟩ :=
      ih fun later member => plain later (List.mem_cons_of_mem _ member)
    rw [← List.singleton_append, confirmed_append, entries_append, minted_append, unconfirmed,
      unlogged, unminted]
    cases request with
    | sendAndConfirmTransaction transaction => exact first.elim
    | writeEvents events => exact first.elim
    | _ => exact ⟨rfl, rfl, rfl⟩

/-! ## Judging a program by what it was told -/

/-- However it is answered from a history on, the program conducts itself, and returns a value only
with the exchanges that it has had since as said. -/
abbrev Adds {α : Type} (party : Party) (past : List (Exchange Reply))
    (ok : α → List (Exchange Reply) → Prop) (program : Client α) : Prop :=
  program.Along (fun _ => Call.Promised) (Conduct party)
    (fun all value => ∃ more, all = past ++ more ∧ ok value more) past

/-- However it is answered, the program conducts itself, mints nothing, and returns a value only
with the signatures that it was given and the entries that it logged as said. The keypairs it
starts with are its own. -/
def Tells {α : Type} (party : Party) (owned : List Pubkey)
    (ok : α → List Signature → List EventLog → Prop) (program : Client α) : Prop :=
  ∀ past, owned ⊆ keypairs past → Adds party past
    (fun value more => minted more = 0 ∧ ok value (confirmed more) (entries more)) program

/-- The program makes plain requests only. -/
abbrev Plain {α : Type} (program : Client α) : Prop :=
  program.Within Call.Promised Call.Plain fun _ => True

/-- A silent program makes plain requests only. -/
theorem SilentBut.plain {α : Type} {skipped : Exchange Reply → Bool} {program : Client α}
    (silent : SilentBut skipped program) : Plain program := by
  refine (silent.uses fun request asks => ?_).within
  cases request with
  | sendAndConfirmTransaction transaction => exact asks.elim
  | writeEvents events => exact asks.elim
  | _ => trivial

section Rules

variable {α β : Type} {party : Party} {owned : List Pubkey}
variable {ok : α → List Signature → List EventLog → Prop} {program : Client α}

/-- A value returned at once comes with no signature. -/
theorem tells_pure {value : α} (holds : ok value [] []) :
    Tells party owned ok (pure value) :=
  fun past _ => Program.along_pure ⟨[], by simp, rfl, holds⟩

/-- A failure returns nothing. -/
theorem tells_fail {reason : ClientError} : Tells party owned ok (Program.fail reason) :=
  fun _ _ => Program.along_fail

/-- Less may be said. -/
theorem Tells.weaken {ok' : α → List Signature → List EventLog → Prop}
    (tells : Tells party owned ok program)
    (weaker : ∀ value sigs logged, ok value sigs logged → ok' value sigs logged) :
    Tells party owned ok' program := by
  intro past own
  refine (tells past own).weaken ?_
  rintro all value ⟨more, rfl, unminted, holds⟩
  exact ⟨more, rfl, unminted, weaker _ _ _ holds⟩

/-- One program after another, from a history on. -/
theorem Adds.bind {past : List (Exchange Reply)} {mid : α → List (Exchange Reply) → Prop}
    {ok : β → List (Exchange Reply) → Prop} {rest : α → Client β}
    (first : Adds party past mid program)
    (second : ∀ value more, mid value more → Adds party (past ++ more)
      (fun result later => ok result (more ++ later)) (rest value)) :
    Adds party past ok (program >>= rest) := by
  refine Program.Along.bind first ?_
  rintro all value ⟨more, rfl, holds⟩
  refine (second value more holds).weaken ?_
  rintro all result ⟨later, rfl, holds'⟩
  exact ⟨more ++ later, by simp, holds'⟩

/-- One program after another. -/
theorem Tells.bind {mid : α → List Signature → List EventLog → Prop}
    {ok : β → List Signature → List EventLog → Prop} {rest : α → Client β}
    (first : Tells party owned mid program)
    (second : ∀ value sigs logged, mid value sigs logged →
      Tells party owned (fun result more added => ok result (sigs ++ more) (logged ++ added))
        (rest value)) :
    Tells party owned ok (program >>= rest) := by
  intro past own
  refine Adds.bind (first past own) ?_
  rintro value more ⟨unminted, holds⟩
  have kept : owned ⊆ keypairs (past ++ more) := by
    rw [keypairs_append]
    exact List.Subset.trans own (List.subset_append_left _ _)
  refine (second value _ _ holds _ kept).weaken ?_
  rintro all result ⟨later, rfl, unminted', holds'⟩
  exact ⟨later, rfl, by simp [unminted, unminted'], by simpa using holds'⟩

/-- A plain program is told no signature and logs nothing. -/
theorem tells_within {holds : α → Prop}
    (within : program.Within Call.Promised Call.Plain holds) :
    Tells party owned (fun value sigs logged => holds value ∧ sigs = [] ∧ logged = [])
      program := by
  intro past _
  refine (within.along (fun _ _ _ kept => kept) (fun past _ plain => plain.conduct past)
    past).weaken ?_
  rintro all value ⟨known, more, rfl, plain⟩
  obtain ⟨unconfirmed, unlogged, unminted⟩ := plain_silent plain
  exact ⟨more, rfl, unminted, known, unconfirmed, unlogged⟩

/-- A plain program first. -/
theorem tells_after {ok : β → List Signature → List EventLog → Prop} {rest : α → Client β}
    (first : Plain program) (second : ∀ value, Tells party owned ok (rest value)) :
    Tells party owned ok (program >>= rest) := by
  refine Tells.bind (tells_within first) ?_
  rintro value _ _ ⟨-, rfl, rfl⟩
  exact second value

/-- A new keypair is the job's own. -/
theorem tells_newKeypair {ok : β → List Signature → List EventLog → Prop}
    {rest : Pubkey → Client β}
    (second : ∀ index, Tells party (.generated index :: owned) ok (rest (.generated index))) :
    Tells party owned ok (newKeypair >>= rest) := by
  intro past own
  refine ⟨trivial, ?_⟩
  rintro _ ⟨index, rfl⟩
  have kept : Pubkey.generated index :: owned ⊆
      keypairs (past ++ [⟨.newKeypair, Pubkey.generated index⟩]) := by
    rw [keypairs_append]
    refine List.cons_subset.mpr ⟨List.mem_append_right _ List.mem_cons_self, ?_⟩
    exact List.Subset.trans own (List.subset_append_left _ _)
  refine (second index _ kept).weaken ?_
  rintro all value ⟨more, rfl, unminted, holds⟩
  exact ⟨⟨.newKeypair, Pubkey.generated index⟩ :: more, by simp, unminted, holds⟩

/-- A job may own more. -/
theorem Tidy.mono {owner : Wallet} {owned' : List Pubkey} {instructions : List Instruction}
    (tidy : Tidy party.payer owner owned instructions) (more : owned ⊆ owned') :
    Tidy party.payer owner owned' instructions := by
  induction tidy with
  | nil => exact .nil
  | context member _ ih => exact .context (more member) ih
  | contextFrom member _ ih => exact .contextFrom (more member) ih
  | record member _ ih => exact .record (more member) ih
  | write member _ ih => exact .write (more member) ih
  | closeContext _ ih => exact .closeContext ih
  | closeRecord _ ih => exact .closeRecord ih
  | token tokens _ ih => exact .token tokens ih

/-- What keeps to some accounts keeps to more. -/
theorem Orderly.mono {owned' : List Pubkey} {instructions : List Instruction}
    (orderly : Orderly party owned instructions) (more : owned ⊆ owned') :
    Orderly party owned' instructions := by
  refine ⟨fun instruction member key written => ?_, fun instruction member key moved => ?_, ?_⟩
  · exact (orderly.writes instruction member key written).imp_left (more ·)
  · exact (orderly.lamports instruction member key moved).imp_right (.imp_left (more ·))
  · obtain ⟨owner, held, tidy⟩ := orderly.tidy
    exact ⟨owner, held, tidy.mono more⟩

/-- `send_tx` asks for a blockhash and a signature, and then submits. -/
theorem along_sendTx {instructions : List Instruction} (signers : List Pubkey)
    {ok : List (Exchange Reply) → Signature → Prop} {past : List (Exchange Reply)}
    (may : ∀ more : List (Exchange Reply), (∀ exchange ∈ more, exchange.1.Plain) →
      Conduct party (past ++ more)
        (.sendAndConfirmTransaction ⟨instructions, party.payer.pubkey, signers⟩))
    (returns : ∀ (more : List (Exchange Reply)) sig, (∀ exchange ∈ more, exchange.1.Plain) →
      ok (past ++ (more ++ [⟨.sendAndConfirmTransaction ⟨instructions, party.payer.pubkey, signers⟩,
        Except.ok sig⟩])) sig) :
    (sendTx instructions signers party.payer.pubkey).Along (fun _ => Call.Promised)
      (Conduct party) ok past := by
  refine ⟨trivial, fun blockhash _ => ?_⟩
  cases blockhash with
  | error reason => exact Program.along_fail
  | ok found =>
    refine ⟨trivial, fun signing promised => ?_⟩
    cases signing with
    | error reason => cases reason <;> exact Program.along_abort
    | ok signed =>
      obtain rfl := promised signed rfl
      have asked : ∀ exchange ∈ ([⟨.getLatestBlockhash, Except.ok found⟩,
          ⟨.newSignedWithPayer ⟨instructions, party.payer.pubkey, signers⟩,
            Except.ok ⟨instructions, party.payer.pubkey, signers⟩⟩] : List (Exchange Reply)),
          exchange.1.Plain := by
        simp [Call.Plain]
      refine ⟨by simpa using may _ asked, fun sending _ => ?_⟩
      cases sending with
      | error reason => exact Program.along_fail
      | ok sig => exact Program.along_pure (by simpa using returns _ sig asked)

/-- What is proper stays so when the job owns more. -/
theorem Proper.mono {owned' : List Pubkey} {instructions : List Instruction}
    (proper : Proper party owned instructions) (more : owned ⊆ owned') :
    Proper party owned' instructions := by
  cases proper with
  | orderly orderly => exact .orderly (orderly.mono more)
  | createMint mint rent space decimals auditor =>
    exact .createMint mint rent space decimals auditor
  | mintTo mint owner amount => exact .mintTo mint owner amount

/-- Submitting proper instructions that mint nothing gives one signature. -/
theorem tells_sendTx {instructions : List Instruction} (signers : List Pubkey)
    (proper : Proper party owned instructions)
    (unminted : (instructions.map Instruction.minted).sum = 0) :
    Tells party owned (fun sig sigs logged => sigs = [sig] ∧ logged = [])
      (sendTx instructions signers party.payer.pubkey) := by
  intro past own
  refine along_sendTx signers (fun more _ => ?_) fun more sig plain => ?_
  · have kept : owned ⊆ keypairs (past ++ more) := by
      rw [keypairs_append]
      exact List.Subset.trans own (List.subset_append_left _ _)
    exact ⟨rfl, proper.mono kept, .inl unminted⟩
  · obtain ⟨unconfirmed, unlogged, noneMinted⟩ := plain_silent plain
    have nothing : Transaction.minted ⟨instructions, party.payer.pubkey, signers⟩ = 0 := unminted
    refine ⟨_, rfl, ?_, ?_, ?_⟩
    · rw [minted_append, noneMinted]
      simpa [minted, carried, Exchange.carried?] using nothing
    · rw [confirmed_append, unconfirmed]
      rfl
    · rw [entries_append, unlogged]
      rfl

/-- Submit, and then the rest, which is told the signature first. -/
theorem tells_sent {instructions : List Instruction} {signers : List Pubkey}
    {ok : β → List Signature → List EventLog → Prop} {rest : Signature → Client β}
    (orderly : Orderly party owned instructions)
    (unminted : (instructions.map Instruction.minted).sum = 0)
    (second : ∀ sig, Tells party owned (fun value sigs logged => ok value (sig :: sigs) logged)
      (rest sig)) :
    Tells party owned ok (sendTx instructions signers party.payer.pubkey >>= rest) := by
  refine Tells.bind (tells_sendTx signers (.orderly orderly) unminted) ?_
  rintro sig _ _ ⟨rfl, rfl⟩
  exact second sig

/-- `log_event` logs its one entry. -/
theorem tells_logEvent (kind : String) (amountUi : ℚ) (sig : Signature) :
    Tells party owned (fun _ sigs logged => sigs = [] ∧ logged = [⟨sig, kind, amountUi⟩])
      (logEvent kind amountUi sig) := by
  intro past _
  refine ⟨trivial, fun log _ => ⟨⟨past, log, _, rfl, rfl⟩, fun _ _ => Program.along_pure ?_⟩⟩
  exact ⟨[⟨.readEvents, log⟩,
    ⟨.writeEvents ((⟨sig, kind, amountUi⟩ :: log).take recentEventsKeep), ()⟩],
    by simp, rfl, rfl, rfl⟩

/-- Renaming errors changes nothing that is told. -/
theorem Tells.mapError (tells : Tells party owned ok program)
    (rename : ClientError → ClientError) :
    Tells party owned ok (program.mapError rename) :=
  fun past own => (tells past own).mapError rename

/-- Reporting a panic lands and tells nothing more. -/
theorem Tells.catchPanic (tells : Tells party owned ok program)
    (report : String → ClientError) : Tells party owned ok (program.catchPanic report) :=
  fun past own => (tells past own).catchPanic report

/-- A handler that makes plain requests and fails returns nothing. -/
theorem Tells.catchError (tells : Tells party owned ok program)
    {handle : ClientError → Client α}
    (fails : ∀ reason, (handle reason).Within Call.Promised Call.Plain fun _ => False) :
    Tells party owned ok (program.catchError handle) := by
  intro past own
  refine (tells past own).catchError fun reason past => ?_
  refine ((fails reason).along (fun _ _ _ kept => kept) (fun past _ plain => plain.conduct past)
    past).weaken ?_
  exact fun _ _ both => both.1.elim

end Rules

end ConfidentialBalances
