import ConfidentialBalances.Signing
import ConfidentialBalances.StagedProof

/-!
# Announcing landed transactions

A transfer announces its transactions as they land, except those that stage the
range proof: they are announced together, once all of them have landed. A
staging that fails half-way has landed transactions that nothing announced.
-/

namespace ConfidentialBalances

open Effect

/-! ## Events -/

/-- The event ends a stream. -/
def TransferProgress.terminal : TransferProgress → Bool
  | .done _ => true
  | .error _ => true
  | _ => false

/-- The signature that an event announces. -/
def TransferProgress.signature? : TransferProgress → Option Signature
  | .signature _ sig => some sig
  | _ => none

/-- The announced signatures, in order. -/
def announced (events : List TransferProgress) : List Signature :=
  events.filterMap TransferProgress.signature?

/-- No event ends the stream. -/
def Unfinished (events : List TransferProgress) : Prop :=
  ∀ event ∈ events, event.terminal = false

@[simp] theorem announced_nil : announced [] = [] := rfl

@[simp] theorem announced_append (first second : List TransferProgress) :
    announced (first ++ second) = announced first ++ announced second :=
  List.filterMap_append

/-- No events end no stream. -/
theorem Unfinished.nil : Unfinished [] := by simp [Unfinished]

/-- Two unfinished parts make an unfinished stream. -/
theorem Unfinished.append {first second : List TransferProgress} (before : Unfinished first)
    (after : Unfinished second) : Unfinished (first ++ second) := by
  intro event member
  rcases List.mem_append.mp member with early | late
  · exact before event early
  · exact after event late

/-! ## What a program has told -/

/-- Nothing failed, the stream is open, and these signatures were announced. -/
structure Mentions (sigs : List Signature) (transcript : List (Exchange Reply)) : Prop where
  /-- No request failed. -/
  served : failures transcript = []
  /-- No event ends the stream. -/
  unfinished : Unfinished (sent transcript)
  /-- The announced signatures. -/
  announced : announced (sent transcript) = sigs

/-- What is mentioned adds up. -/
theorem Mentions.append {first second : List Signature} {before after : List (Exchange Reply)}
    (early : Mentions first before) (late : Mentions second after) :
    Mentions (first ++ second) (before ++ after) := by
  refine ⟨?_, ?_, ?_⟩
  · rw [failures_append, early.served, late.served]
    rfl
  · rw [sent_append]
    exact early.unfinished.append late.unfinished
  · rw [sent_append, announced_append, early.announced, late.announced]

/-- A run that an error ended: everything confirmed was announced, unless a request failed in the
gap. Places in the gap are counted from a base. -/
structure Interrupted (gap : Nat → Prop) (base : Nat) (transcript : List (Exchange Reply)) :
    Prop where
  /-- No event ends the stream. -/
  unfinished : Unfinished (sent transcript)
  /-- What was announced, by what failed. -/
  announced : failures transcript = [] ∧ announced (sent transcript) = confirmed transcript ∨
    ∃ k, failures transcript = [k] ∧
      (announced (sent transcript) = confirmed transcript ↔ ¬ gap (base + k))

/-- What came before an interrupted part, announced in full. -/
theorem Interrupted.after {gap : Nat → Prop} {base : Nat} {before after : List (Exchange Reply)}
    (early : Mentions (confirmed before) before)
    (late : Interrupted gap (base + (confirmed before).length) after) :
    Interrupted gap base (before ++ after) := by
  refine ⟨?_, ?_⟩
  · rw [sent_append]
    exact early.unfinished.append late.unfinished
  · rw [failures_append, early.served, sent_append, announced_append, early.announced,
      confirmed_append, List.append_cancel_left_eq, List.nil_append]
    rcases late.announced with ⟨served, told⟩ | ⟨k, failed, told⟩
    · exact .inl ⟨by rw [served]; rfl, told⟩
    · refine .inr ⟨k + (confirmed before).length, by rw [failed]; rfl, told.trans ?_⟩
      rw [Nat.add_assoc, Nat.add_comm k]

/-- The program returns the signatures that its last event, and the only one to end the stream,
lists, with everything confirmed announced; an error interrupts it. -/
def Announces (cluster : Cluster) (gap : Nat → Prop) (base : Nat)
    (program : Client (List Signature)) (world : World) : Prop :=
  (chainSystem cluster).Shows (fun outcome transcript _ => match outcome with
    | .ok sigs => failures transcript = [] ∧ ∃ events, sent transcript = events ++ [.done sigs] ∧
        Unfinished events ∧ announced events = confirmed transcript
    | .error _ => Interrupted gap base transcript
    | .panic _ => False) program world

section Rules

variable {β : Type} {cluster : Cluster} {world : World} {gap : Nat → Prop} {base : Nat}
variable {rest : β → Client (List Signature)}

/-- What is announced in full comes before what the rest announces. -/
theorem Announces.after {program : Client (List Signature)} {before : List (Exchange Reply)}
    (early : Mentions (confirmed before) before)
    (late : Announces cluster gap (base + (confirmed before).length) program world) :
    (chainSystem cluster).Shows (fun outcome after _ => match outcome with
      | .ok sigs => failures (before ++ after) = [] ∧ ∃ events,
          sent (before ++ after) = events ++ [.done sigs] ∧ Unfinished events ∧
          announced events = confirmed (before ++ after)
      | .error _ => Interrupted gap base (before ++ after)
      | .panic _ => False) program world := by
  refine System.Shows.weaken late ?_
  rintro outcome after world' post
  cases outcome with
  | ok sigs =>
    obtain ⟨served, events, told, unfinished, all⟩ := post
    refine ⟨by rw [failures_append, early.served, served]; rfl, sent before ++ events, ?_,
      early.unfinished.append unfinished, ?_⟩
    · rw [sent_append, told, List.append_assoc]
    · rw [announced_append, early.announced, all, confirmed_append]
  | error reason => exact Interrupted.after early post
  | panic message => exact post.elim

/-- Reading outside the gap, and then the rest. -/
theorem announces_after {mid : β → World → Prop} {program : Client β} (silent : Silent program)
    (quiet : Quietly cluster mid program world) (outside : ¬ gap base)
    (second : ∀ value world', mid value world' →
      Announces cluster gap base (rest value) world') :
    Announces cluster gap base (program >>= rest) world := by
  refine System.Shows.bind (silent.shows.and (System.Meets.shows quiet)) ?_ ?_ ?_
  · rintro value done middle ⟨⟨unheard, served⟩, known⟩
    have told : Mentions (confirmed done) done := by
      refine ⟨served, by simp [unheard.sent, Unfinished], ?_⟩
      rw [unheard.sent, unheard.confirmed, announced_nil]
    refine Announces.after told ?_
    rw [unheard.confirmed]
    exact second value middle (known value rfl)
  · rintro reason done middle ⟨⟨unheard, failed⟩, -⟩
    refine ⟨by simp [unheard.sent, Unfinished], ?_⟩
    rw [unheard.sent, unheard.confirmed]
    rcases failed with served | failed
    · exact .inl ⟨served, rfl⟩
    · exact .inr ⟨0, failed, by simpa using outside⟩
  · rintro message done middle ⟨⟨-, none⟩, -⟩
    exact none.elim

/-- An event that announces nothing and leaves the stream open, and then the rest. -/
theorem announces_emit {event : TransferProgress} {rest : Unit → Client (List Signature)}
    (unfinished : event.terminal = false) (unnamed : event.signature? = none)
    (second : ∀ world', world'.ledger = world.ledger → world'.generated = world.generated →
      Announces cluster gap base (rest ()) world') :
    Announces cluster gap base (emit .broadcast event >>= rest) world := by
  refine (chain cluster).shows_call.mpr fun choice => ?_
  have told : Mentions (confirmed [⟨.emit event, ()⟩]) [⟨.emit event, ()⟩] := by
    refine ⟨rfl, ?_, ?_⟩
    · simpa [Unfinished, sent, Exchange.sent?] using unfinished
    · simp [announced, sent, Exchange.sent?, unnamed, confirmed, Exchange.confirmed?]
  exact Announces.after told (second _ rfl rfl)

/-- A plan is sent, its signatures are announced after the last of them, and then the rest. The
gap is what lies inside the plan. -/
theorem announces_sends {plan : List Transaction} {program : Client β}
    {announce : β → Client Unit} {names : β → List Signature}
    (sends : Sends cluster plan
      (fun value _ => names value = Signature.span world.landed.length plan.length) program world)
    (signed : ∀ transaction ∈ plan, transaction.SignedExactly)
    (inside : ∀ k < plan.length, gap (base + k) ↔ 0 < k)
    (mentions : ∀ value world', (chainSystem cluster).Shows (fun outcome transcript _ =>
      outcome = .ok () ∧ confirmed transcript = [] ∧ Mentions (names value) transcript)
      (announce value) world')
    (second : ∀ value world', Announces cluster gap (base + plan.length) (rest value) world') :
    Announces cluster gap base (do
      let value ← program
      announce value
      rest value) world := by
  intro transcript outcome final run
  rcases run.bind_cases with ⟨value, first, middle, remaining, rfl, ran, later⟩ |
    ⟨reason, rfl, ran⟩ | ⟨message, rfl, ran⟩
  · obtain ⟨unvoiced, -, carriedAll, served, named⟩ := sends _ _ _ ran
    have silent := unvoiced.sent
    have confirmedAll : confirmed first = Signature.span world.landed.length plan.length := by
      rw [(runs_witnessed ran).confirmed, carriedAll]
    have count : (confirmed first).length = plan.length := by
      simp [confirmedAll, Signature.span]
    rcases later.bind_cases with ⟨⟨⟩, mention, middle', last, rfl, told, after⟩ |
      ⟨reason, rfl, told⟩ | ⟨message, rfl, told⟩
    · obtain ⟨-, unconfirmed, told⟩ := mentions value middle _ _ _ told
      have early : Mentions (confirmed (first ++ mention)) (first ++ mention) := by
        have before : Mentions [] first :=
          ⟨served, by simp [silent, Unfinished], by rw [silent, announced_nil]⟩
        have both := before.append told
        rwa [List.nil_append, named, ← confirmedAll,
          ← List.append_nil (confirmed first), ← unconfirmed, ← confirmed_append] at both
      rw [← List.append_assoc]
      refine Announces.after early ?_ _ _ _ after
      rw [confirmed_append, unconfirmed, List.append_nil, count]
      exact second value middle'
    · obtain ⟨same, -⟩ := mentions value middle _ _ _ told
      contradiction
    · obtain ⟨same, -⟩ := mentions value middle _ _ _ told
      contradiction
  · obtain ⟨unvoiced, done, next, rest, rfl, carriedDone, failed, -⟩ := sends _ _ _ ran
    have silent := unvoiced.sent
    have place : (confirmed transcript).length = done.length := by
      rw [(carried_length transcript).2, carriedDone]
    refine ⟨by simp [silent, Unfinished], .inr ⟨done.length, failed, ?_⟩⟩
    rw [silent, announced_nil, inside done.length (by simp), ← place, List.length_pos_iff,
      not_not]
    exact eq_comm
  · obtain ⟨-, done, next, rest, rfl, -, -, -, inexact⟩ := sends _ _ _ ran
    exact inexact (signed next (by simp))

/-- One signature, announced. -/
theorem mentions_signature (label : String) (sig : Signature) (world : World) :
    (chainSystem cluster).Shows (fun outcome transcript _ =>
      outcome = .ok () ∧ confirmed transcript = [] ∧ Mentions [sig] transcript)
      (emit .broadcast (.signature label sig)) world := by
  refine System.shows_call.mpr fun reply world' _ => System.shows_done.mpr ⟨rfl, rfl, rfl, ?_, rfl⟩
  simp [Unfinished, sent, Exchange.sent?, TransferProgress.terminal]

/-- The staging signatures, announced together. -/
theorem mentions_stages (index : Nat) (sigs : List Signature) (world : World) :
    (chainSystem cluster).Shows (fun outcome transcript _ =>
      outcome = .ok () ∧ confirmed transcript = [] ∧ Mentions sigs transcript)
      (emitStages .broadcast index sigs) world := by
  induction sigs generalizing index world with
  | nil => exact System.shows_done.mpr ⟨rfl, rfl, rfl, .nil, rfl⟩
  | cons sig rest ih =>
    refine System.Shows.bind (mentions_signature _ sig world) ?_ ?_ ?_
    · rintro ⟨⟩ done middle ⟨-, unconfirmed, told⟩
      refine (ih (index + 1) middle).weaken ?_
      rintro outcome transcript world' ⟨returned, unconfirmed', told'⟩
      exact ⟨returned, by rw [confirmed_append, unconfirmed, unconfirmed']; rfl,
        told.append told'⟩
    · rintro reason done middle ⟨same, -⟩
      contradiction
    · rintro message done middle ⟨same, -⟩
      contradiction

/-- One transaction is sent and announced, and then the rest. -/
theorem announces_sendTx {instructions : List Instruction} {signers : List Pubkey}
    {payer : Pubkey} {label : String} {rest : Signature → Client (List Signature)}
    (signed : Transaction.SignedExactly ⟨instructions, payer, signers⟩) (outside : ¬ gap base)
    (second : ∀ sig world', Announces cluster gap (base + 1) (rest sig) world') :
    Announces cluster gap base (do
      let sig ← sendTx instructions signers payer
      emit .broadcast (.signature label sig)
      rest sig) world := by
  refine announces_sends ((sends_sendTx instructions signers payer).weaken ?_) ?_ ?_
    (mentions_signature label) second
  · rintro sig world' ⟨rfl, -⟩
    rfl
  · intro transaction member
    obtain rfl := List.mem_singleton.mp member
    exact signed
  · intro k only
    obtain rfl : k = 0 := by simpa using only
    simpa using outside

/-- A context is created, verified and announced, and then the rest. -/
theorem announces_createAndVerify {sdk : Sdk} {payer sender : Wallet} {proofType : ProofType}
    {proof : List UInt8} {label : String} {rest : Pubkey → Signature → Client (List Signature)}
    (outside : ¬ gap base)
    (second : ∀ account sig world', Announces cluster gap (base + 1) (rest account sig) world') :
    Announces cluster gap base (do
      let account ← newKeypair
      let rent ← getMinimumBalanceForRentExemption (sdk.contextStateSize proofType)
      let sig ← sendTx (createAndVerify sdk payer sender proofType account rent proof)
        [payer.pubkey, account] payer.pubkey
      emit .broadcast (.signature label sig)
      rest account sig) world := by
  refine announces_after silent_newKeypair quietly_newKeypair outside ?_
  rintro account w1 -
  refine announces_after (silent_getMinimumBalanceForRentExemption _)
    (quietly_getMinimumBalanceForRentExemption _) outside ?_
  rintro rent w2 -
  exact announces_sendTx ((createAndVerify_signed _ _ _ _ _ _ _ _).mpr (by simp)) outside
    (second account)

/-- The range proof is staged and its signatures are announced, and then the rest. The gap is what
lies inside the staging. -/
theorem announces_staging {sdk : Sdk} {payer sender : Wallet} {rangeAccount recordAccount : Pubkey}
    {rent : Nat} {proofBytes : List UInt8} {rest : List Signature → Client (List Signature)}
    (inside : ∀ k < stagingCount proofBytes.length, gap (base + k) ↔ 0 < k)
    (second : ∀ sigs world',
      Announces cluster gap (base + stagingCount proofBytes.length) (rest sigs) world') :
    Announces cluster gap base (do
      let sigs ← stageRangeProofRecord payer recordAccount
        (rangeInstructions sdk payer sender rangeAccount recordAccount rent) [rangeAccount]
        proofBytes
      emitStages .broadcast 1 sigs
      rest sigs) world := by
  by_cases empty : proofBytes = []
  · subst empty
    have outside : ¬ gap base := (inside 0 (by decide)).not.mpr (lt_irrefl 0)
    exact announces_after (silent_stageRangeProofRecord_empty _ _ _ _)
      (quietly_stageRangeProofRecord_empty _ _ _ _) outside fun _ _ impossible => impossible.elim
  have staged := stageTransactions_staged payer recordAccount
    (rangeInstructions sdk payer sender rangeAccount recordAccount rent) [rangeAccount] cluster
    proofBytes empty
  have trailing : Transaction.SignedExactly
      ⟨rangeInstructions sdk payer sender rangeAccount recordAccount rent, payer.pubkey,
        [payer.pubkey, rangeAccount]⟩ := by
    intro key
    have required := rangeInstructions_signed sdk payer sender rangeAccount recordAccount rent key
    simpa [Transaction.requiredSigners] using required
  rw [← staged.count] at inside second
  exact announces_sends ((stageRangeProofRecord_sends _ _ _ _ cluster _ empty world).weaken
    fun sigs _ known => known.1) (staged.signedExactly trailing) inside (mentions_stages 1) second

/-- The event that ends the stream lists the returned signatures. -/
theorem announces_done (sigs : List Signature) :
    Announces cluster gap base (do
      emit .broadcast (.done sigs)
      pure sigs) world :=
  System.shows_call.mpr fun _ _ _ => System.shows_done.mpr ⟨rfl, [], rfl, .nil, rfl⟩

end Rules

/-! ## The transfer -/

section Transfer

variable {sdk : Sdk} {cluster : Cluster} {payer sender : Wallet} {mint recipient : Pubkey}
variable {amount : Nat} {world : World}

/-- A world fixes the proofs of the transfers that may be made from it. -/
theorem TransferPlan.proofs_unique {run run' : TransferRun}
    (planned : TransferPlan sdk payer sender mint recipient amount world run)
    (planned' : TransferPlan sdk payer sender mint recipient amount world run') :
    run.proofData = run'.proofData := by
  obtain ⟨⟨-, sameSender, -⟩, -, snapshot, recipientExt, state, settings, held, mintHeld,
    configured, generated⟩ := planned
  obtain ⟨⟨-, sameSender', -⟩, -, snapshot', recipientExt', state', settings', held', mintHeld',
    configured', generated'⟩ := planned'
  rw [snapshot, Option.some.injEq] at snapshot'
  rw [held, Option.some.injEq] at held'
  rw [mintHeld, AccountData.mint.injEq] at mintHeld'
  subst held' mintHeld'
  rw [configured, Option.some.injEq] at configured'
  subst configured'
  rw [← snapshot', TransferRun.keys, sameSender', ← sameSender, ← TransferRun.keys, generated,
    Except.ok.injEq] at generated'
  exact generated'

/-- So many transactions have landed inside the staging, and not all of it: the two contexts
before it, and a part of its own transactions. -/
def StagingGap (sdk : Sdk) (payer sender : Wallet) (mint recipient : Pubkey) (amount : Nat)
    (world : World) (k : Nat) : Prop :=
  ∃ run, TransferPlan sdk payer sender mint recipient amount world run ∧ 2 < k ∧
    k < 2 + stagingCount run.proofData.rangeProofData.length

/-- The gap of a planned run, by its own range proof. -/
theorem stagingGap_iff {run : TransferRun} {k : Nat}
    (planned : TransferPlan sdk payer sender mint recipient amount world run) :
    StagingGap sdk payer sender mint recipient amount world k ↔
      2 < k ∧ k < 2 + stagingCount run.proofData.rangeProofData.length := by
  constructor
  · rintro ⟨run', planned', low, high⟩
    rw [planned'.proofs_unique planned] at high
    exact ⟨low, high⟩
  · exact fun bounds => ⟨run, planned, bounds⟩

/-- A transfer announces its transactions, with a gap inside the staging. -/
theorem transferConfidentialWithProgress_announces (sdk : Sdk) (cluster : Cluster)
    (payer sender : Wallet) (mint recipient : Pubkey) (amount : Nat) (world : World) :
    Announces cluster (StagingGap sdk payer sender mint recipient amount world) 0
      (transferConfidentialWithProgress sdk payer sender mint recipient amount .broadcast)
      world := by
  have early (k : Nat) (few : k ≤ 2) :
      ¬ StagingGap sdk payer sender mint recipient amount world k := by
    rintro ⟨run, -, low, -⟩
    omega
  refine announces_emit rfl rfl ?_
  intro w1 ledger1 generated1
  refine announces_after (silent_fetchRecipientPubkey _) (quietly_fetchRecipientPubkey _ _ _)
    (early 0 (by omega)) ?_
  rintro recipientKey after ⟨rfl, recipientExt, recipientHeld, rfl⟩
  refine announces_after (silent_fetchAuditorPubkey _) (quietly_fetchAuditorPubkey _ _ _)
    (early 0 (by omega)) ?_
  rintro auditor after ⟨rfl, state, settings, mintHeld, configured, rfl⟩
  refine announces_emit rfl rfl ?_
  intro w2 ledger2 generated2
  refine announces_after ((silent_deriveConfidentialKeys sender).mapError _)
    (quietly_mapError (quietly_deriveConfidentialKeys sender) _) (early 0 (by omega)) ?_
  rintro keys after ⟨rfl, rfl⟩
  refine announces_after (silent_fetchConfidential _) (quietly_fetchConfidential _)
    (early 0 (by omega)) ?_
  rintro snapshot after ⟨rfl, senderHeld⟩
  refine announces_emit rfl rfl ?_
  intro w3 ledger3 generated3
  refine announces_after (silent_ofExcept _) (quietly_ofExcept _) (early 0 (by omega)) ?_
  rintro proofData w3 ⟨generated, rfl⟩
  let run : TransferRun := ⟨payer, sender, mint, recipient, amount, snapshot, proofData,
    world.generated⟩
  have planned : TransferPlan sdk payer sender mint recipient amount world run := by
    rw [ledger2] at senderHeld
    rw [ledger1] at recipientHeld mintHeld senderHeld
    exact ⟨⟨rfl, rfl, rfl, rfl, rfl⟩, rfl, senderHeld, recipientExt, state, settings,
      recipientHeld, mintHeld, configured, labelError_ok generated⟩
  refine announces_emit rfl rfl ?_
  rintro w4 - -
  -- 1. Equality proof
  refine announces_createAndVerify (early 0 (by omega)) ?_
  intro equalityAccount equalitySig w5
  -- 2. Ciphertext validity proof
  refine announces_createAndVerify (early 1 (by omega)) ?_
  intro validityAccount validitySig w6
  -- 3. Range proof
  refine announces_after silent_newKeypair quietly_newKeypair (early 2 (by omega)) ?_
  rintro recordAccount w7 -
  refine announces_after silent_newKeypair quietly_newKeypair (early 2 (by omega)) ?_
  rintro rangeAccount w8 -
  refine announces_after (silent_getMinimumBalanceForRentExemption _)
    (quietly_getMinimumBalanceForRentExemption _) (early 2 (by omega)) ?_
  rintro rangeRent w9 -
  have gap (k : Nat) : StagingGap sdk payer sender mint recipient amount world (0 + 1 + 1 + k) ↔
      0 < k ∧ k < stagingCount proofData.rangeProofData.length := by
    rw [stagingGap_iff planned]
    show 2 < 0 + 1 + 1 + k ∧ 0 + 1 + 1 + k < 2 + stagingCount proofData.rangeProofData.length ↔ _
    omega
  refine announces_staging (fun k inside => (gap k).trans (and_iff_left inside)) ?_
  intro recordSigs w10
  have outside : ¬ StagingGap sdk payer sender mint recipient amount world
      (0 + 1 + 1 + stagingCount proofData.rangeProofData.length) :=
    (gap _).not.mpr fun inside => lt_irrefl _ inside.2
  refine announces_emit rfl rfl ?_
  rintro w11 - -
  refine announces_after (silent_ofExcept _) (quietly_ofExcept _) outside ?_
  rintro newDecryptable w12 -
  refine announces_sendTx (transferInstructions_signed _ _ _ _ _ _ _ _ _ _ _) outside ?_
  intro sig w13
  exact announces_done _

/-- Between these worlds of a call, the announced signatures are those of the transactions that
landed, in landing order; a call that returns lists the same ones, in its one last event too. -/
def TransferAnnounced (world world' : World) (outcome : Outcome ClientError (List Signature)) :
    Prop :=
  ∃ landed events, world'.landed = world.landed ++ landed ∧
    world'.progress = world.progress ++ events ∧
    announced events = Signature.span world.landed.length landed.length ∧
    ∀ sigs, outcome = .ok sigs → announced events = sigs ∧
      ∃ before, Unfinished before ∧ events = before ++ [.done sigs]

/-- No request failed when a part of the staging transactions had landed. -/
def StagingUndisturbed (sdk : Sdk) (payer sender : Wallet) (mint recipient : Pubkey)
    (amount : Nat) (world : World) (transcript : List (Exchange Reply)) : Prop :=
  ∀ run, TransferPlan sdk payer sender mint recipient amount world run →
    ∀ k ∈ failures transcript,
      k ≤ 2 ∨ 2 + stagingCount run.proofData.rangeProofData.length ≤ k

/-- The staging is undisturbed when no request failed in its gap. -/
theorem stagingUndisturbed_iff {transcript : List (Exchange Reply)} :
    StagingUndisturbed sdk payer sender mint recipient amount world transcript ↔
      ∀ k ∈ failures transcript, ¬ StagingGap sdk payer sender mint recipient amount world k := by
  constructor
  · rintro undisturbed k failed ⟨run, planned, low, high⟩
    have bounds := undisturbed run planned k failed
    omega
  · intro outside run planned k failed
    by_contra inside
    exact outside k failed ⟨run, planned, by omega, by omega⟩

/-- A run of a transfer announces what it landed exactly when no request failed inside the
staging. -/
theorem transfer_announced_iff (sdk : Sdk) (cluster : Cluster) (payer sender : Wallet)
    (mint recipient : Pubkey) (amount : Nat) (world world' : World)
    (transcript : List (Exchange Reply)) (outcome : Outcome ClientError (List Signature))
    (ran : (chainSystem cluster).Runs world
      (transferConfidentialWithProgress sdk payer sender mint recipient amount .broadcast)
      transcript world' (.done outcome)) :
    TransferAnnounced world world' outcome ↔
      StagingUndisturbed sdk payer sender mint recipient amount world transcript := by
  have witnessed := runs_witnessed ran
  have post := transferConfidentialWithProgress_announces sdk cluster payer sender mint recipient
    amount world _ _ _ ran
  have submits := transferConfidentialWithProgress_submits sdk cluster payer sender mint recipient
    amount .broadcast world
  rw [stagingUndisturbed_iff]
  cases outcome with
  | ok sigs =>
    obtain ⟨served, events, told, unfinished, all⟩ := post
    obtain ⟨plan, -, landed, run, -, -, -, named, -⟩ := submits.ends ran.reaches
    have same : plan = carried transcript := List.append_cancel_left
      (landed.landed.symm.trans witnessed.landed)
    have everything : announced (sent transcript) = confirmed transcript := by
      rw [told, announced_append, all]
      exact List.append_nil _
    refine iff_of_true ⟨carried transcript, sent transcript, witnessed.landed,
      witnessed.progress, everything.trans witnessed.confirmed, ?_⟩ (by simp [served])
    rintro sigs' ⟨⟩
    refine ⟨?_, events, unfinished, told⟩
    rw [everything, witnessed.confirmed, named, same]
  | error reason =>
    have property : TransferAnnounced world world' (.error reason) ↔
        announced (sent transcript) = confirmed transcript := by
      rw [witnessed.confirmed]
      constructor
      · rintro ⟨landed, events, sameLanded, sameEvents, told, -⟩
        rw [List.append_cancel_left (witnessed.progress.symm.trans sameEvents),
          List.append_cancel_left (witnessed.landed.symm.trans sameLanded)]
        exact told
      · intro told
        exact ⟨_, _, witnessed.landed, witnessed.progress, told, fun sigs same => by contradiction⟩
    rw [property]
    rcases post.announced with ⟨served, told⟩ | ⟨k, failed, told⟩
    · exact iff_of_true told (by simp [served])
    · rw [told, failed, Nat.zero_add]
      simp
  | panic message => exact post.elim

end Transfer

/-- A transfer of two of five tokens, with the ideal proof system. -/
def announcingTransfer : Client (List Signature) :=
  transferConfidentialWithProgress Sdk.ideal ⟨0⟩ ⟨1⟩ (.wallet ⟨3⟩) (.wallet ⟨2⟩) 2 .broadcast

/-- Its second staging transaction is not sent. -/
def stagingFails : List Choice := List.replicate 29 .succeed ++ [.fail "timeout"]

/-- Undisturbed, it announces all it landed. -/
theorem transfer_announced_iff_served :
    TransferAnnounced (.funded ⟨0⟩ ⟨1⟩ ⟨2⟩ (.wallet ⟨3⟩) 5)
      ((chain Cluster.ideal).run announcingTransfer (.funded ⟨0⟩ ⟨1⟩ ⟨2⟩ (.wallet ⟨3⟩) 5) []).2
      ((chain Cluster.ideal).run announcingTransfer (.funded ⟨0⟩ ⟨1⟩ ⟨2⟩ (.wallet ⟨3⟩) 5)
        []).1 := by
  have served : failures ((chain Cluster.ideal).transcript announcingTransfer
      (.funded ⟨0⟩ ⟨1⟩ ⟨2⟩ (.wallet ⟨3⟩) 5) []) = [] := by decide +kernel
  refine (transfer_announced_iff Sdk.ideal Cluster.ideal ⟨0⟩ ⟨1⟩ (.wallet ⟨3⟩) (.wallet ⟨2⟩) 2
    _ _ _ _ ((chain Cluster.ideal).run_runs announcingTransfer _ [])).mpr ?_
  intro run planned k failed
  rw [served] at failed
  exact absurd failed (by simp)

/-- With its second staging transaction not sent, three transactions have landed and two are
announced. -/
theorem transfer_lands_unannounced :
    ∃ world reason, (chainSystem Cluster.ideal).Ends (.funded ⟨0⟩ ⟨1⟩ ⟨2⟩ (.wallet ⟨3⟩) 5)
        announcingTransfer (.error reason) world ∧
      world.landed.length = 3 ∧ announced world.progress = [⟨0⟩, ⟨1⟩] ∧
      ¬ TransferAnnounced (.funded ⟨0⟩ ⟨1⟩ ⟨2⟩ (.wallet ⟨3⟩) 5) world (.error reason) := by
  have returned : ((chain Cluster.ideal).run announcingTransfer
      (.funded ⟨0⟩ ⟨1⟩ ⟨2⟩ (.wallet ⟨3⟩) 5) stagingFails).1 = .error (.rpc (.other "timeout")) := by
    decide +kernel
  have three : ((chain Cluster.ideal).run announcingTransfer
      (.funded ⟨0⟩ ⟨1⟩ ⟨2⟩ (.wallet ⟨3⟩) 5) stagingFails).2.landed.length = 3 := by
    decide +kernel
  have two : announced ((chain Cluster.ideal).run announcingTransfer
      (.funded ⟨0⟩ ⟨1⟩ ⟨2⟩ (.wallet ⟨3⟩) 5) stagingFails).2.progress = [⟨0⟩, ⟨1⟩] := by
    decide +kernel
  refine ⟨_, _, (chain Cluster.ideal).run_ends_with returned, three, two, ?_⟩
  rintro ⟨landed, events, sameLanded, sameEvents, told, -⟩
  have count := congrArg List.length sameLanded
  rw [three] at count
  rw [sameEvents] at two
  have both := congrArg List.length (told.symm.trans two)
  simp only [World.funded, List.nil_append] at count both
  simp [Signature.span] at both
  omega

end ConfidentialBalances
