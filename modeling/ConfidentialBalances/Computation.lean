import ConfidentialBalances.Interference
import ConfidentialBalances.JobConduct

/-!
# What jobs compute their transactions from

A transaction that writes token accounts is computed from the job's own
history: from a snapshot of the account that the job was told, with proofs that
its transactions just before have set up in accounts that it generated. A job
that makes one call submits one such transaction at most, and returns a value
only once it was confirmed.
-/

namespace ConfidentialBalances

open Effect

/-! ## Transactions that move tokens -/

/-- The transaction writes token accounts. -/
def Transaction.moves (transaction : Transaction) : Bool :=
  transaction.instructions.any fun instruction => !instruction.tokenWrites.isEmpty

/-- The transactions that write token accounts. -/
def moving (transactions : List Transaction) : List Transaction :=
  transactions.filter Transaction.moves

/-- A transaction that moves nothing writes no token account. -/
theorem Transaction.moves_eq_false {transaction : Transaction} :
    transaction.moves = false ↔ Ledger.TokenQuiet transaction := by
  simp [moves, Ledger.TokenQuiet]

@[simp] theorem moving_nil : moving [] = [] := rfl

@[simp] theorem moving_append (first second : List Transaction) :
    moving (first ++ second) = moving first ++ moving second :=
  List.filter_append first second

/-- Transactions that move nothing. -/
theorem moving_quiet {transactions : List Transaction}
    (still : ∀ transaction ∈ transactions, transaction.moves = false) :
    moving transactions = [] := by
  rw [moving, List.filter_eq_nil_iff]
  intro transaction member
  simp [still transaction member]

/-- One more transaction that moves nothing. -/
theorem moving_still {done : List Transaction} {transaction : Transaction}
    (still : transaction.moves = false) : moving (done ++ [transaction]) = moving done := by
  simp [moving, still]

/-- One more transaction that moves. -/
theorem moving_more {done : List Transaction} {transaction : Transaction}
    (moves : transaction.moves = true) :
    (moving (done ++ [transaction])).length = (moving done).length + 1 := by
  simp [moving, moves]

/-! ## What a job was told -/

/-- What the chain promises of a reply: a rent is the cluster's. -/
def Call.Rents (cluster : Cluster) : (request : Call) → Reply request → Prop
  | .getMinimumBalanceForRentExemption length, reply =>
    ∀ rent, reply = .ok rent → rent = cluster.rentExemption length
  | _, _ => True

/-- All that the chain promises of a reply. -/
def Call.Answered (cluster : Cluster) (request : Call) (reply : Reply request) : Prop :=
  request.Promised reply ∧ request.Rents cluster reply

/-- The chain keeps these promises. -/
theorem chain_answers (cluster : Cluster) :
    (chainSystem cluster).Promises (Call.Answered cluster) := by
  intro world request reply world' step
  refine ⟨chain_promises cluster world request reply world' step, ?_⟩
  obtain ⟨choice, answer⟩ := step
  cases request with
  | getMinimumBalanceForRentExemption length =>
    rintro rent rfl
    cases choice with
    | succeed => exact (Except.ok.inj (Prod.mk.inj answer).1).symm
    | fail message => exact absurd (Prod.mk.inj answer).1 (by simp)
  | _ => trivial

/-- The job has read the confidential part of an account. -/
def HasRead (past : List (Exchange Reply)) (account : Pubkey)
    (snapshot : ConfidentialTransferAccount) : Prop :=
  ∃ token : TokenAccount, ⟨.getAccount account, Except.ok (.token token)⟩ ∈ past ∧
    token.confidential = some snapshot

/-- The transaction that closes a context of a withdraw. -/
def closeTransaction (payer authority : Wallet) (account : Pubkey) : Transaction :=
  ⟨[.closeContextState ⟨account, authority.pubkey⟩ payer.pubkey], payer.pubkey,
    [payer.pubkey, authority.pubkey]⟩

section Computed

variable (sdk : Sdk) (cluster : Cluster)

/-- The transaction with which a call writes token accounts, as it is computed from a job's
history. -/
inductive Operation.Computed (past : List (Exchange Reply)) : Operation → Transaction → Prop
  /-- Configuring, with a proof for the owner's key. -/
  | configure {payer authority : Wallet} {mint : Pubkey} {proofData : List UInt8} (index : Nat)
      (generated : sdk.buildPubkeyValidityProofData authority.confidentialKeys.elgamal =
        .ok proofData) :
      Operation.Computed past (.configure payer authority mint)
        ⟨configureInstructions sdk payer authority mint (.generated index)
          (cluster.rentExemption (sdk.contextStateSize .pubkeyValidity))
          (authority.confidentialKeys.aes.encrypt 0) proofData,
          payer.pubkey, [authority.pubkey, payer.pubkey, .generated index]⟩
  /-- Depositing. -/
  | deposit {payer authority : Wallet} {mint : Pubkey} {amount decimals : Nat} :
      Operation.Computed past (.deposit payer authority mint amount decimals)
        (depositTransaction payer authority mint amount decimals)
  /-- Applying what a snapshot has pending. -/
  | applyPending {payer authority : Wallet} {mint : Pubkey}
      {snapshot : ConfidentialTransferAccount} {values : ApplyValues}
      (told : HasRead past (getAssociatedTokenAddress authority.pubkey mint) snapshot)
      (computed : applyPendingValues authority.confidentialKeys snapshot = .ok values) :
      Operation.Computed past (.applyPending payer authority mint)
        (applyPendingTransaction payer authority mint values)
  /-- Withdrawing from a snapshot, once both proofs are set up. -/
  | withdraw {payer authority : Wallet} {mint : Pubkey} {amount decimals : Nat}
      {snapshot : ConfidentialTransferAccount} {values : WithdrawValues}
      {accounts : WithdrawAccounts}
      (told : HasRead past (getAssociatedTokenAddress authority.pubkey mint) snapshot)
      (computed : withdrawValues sdk authority.confidentialKeys snapshot amount = .ok values)
      (own : accounts.keys.Sublist (ConfidentialBalances.keypairs past))
      (setup : accounts.setup sdk cluster payer authority values.proofData <:+ carried past) :
      Operation.Computed past (.withdraw payer authority mint amount decimals)
        (accounts.spend payer authority mint amount decimals values.newDecryptable)
  /-- Transferring from a snapshot, once all three proofs are set up. -/
  | transfer {payer sender : Wallet} {mint recipient : Pubkey} {amount : Nat}
      {progress : ProgressSink} {snapshot : ConfidentialTransferAccount}
      {recipientKey : ElGamalPubkey} {auditor : Option ElGamalPubkey} {data : TransferProofData}
      {newDecryptable : AeCiphertext} {accounts : TransferAccounts}
      (told : HasRead past (getAssociatedTokenAddress sender.pubkey mint) snapshot)
      (generated : sdk.transferSplitProofData snapshot.availableBalance
        snapshot.decryptableAvailableBalance amount sender.confidentialKeys.elgamal
        sender.confidentialKeys.aes recipientKey auditor = .ok data)
      (covers : transferNewDecryptable sender.confidentialKeys.aes
        snapshot.decryptableAvailableBalance amount = .ok newDecryptable)
      (own : accounts.keys.Sublist (ConfidentialBalances.keypairs past))
      (setup : accounts.setup sdk cluster payer sender data <:+ carried past) :
      Operation.Computed past (.transfer payer sender mint recipient amount progress)
        (accounts.spend payer sender mint recipient newDecryptable data)

/-- All transactions of a call that returns a value, in order. -/
inductive Operation.Finished : Operation → List Transaction → Prop
  /-- Configuring is finished by its transaction. -/
  | configure {payer authority : Wallet} {mint : Pubkey} (proofData : List UInt8) (index : Nat) :
      Operation.Finished (.configure payer authority mint)
        [⟨configureInstructions sdk payer authority mint (.generated index)
          (cluster.rentExemption (sdk.contextStateSize .pubkeyValidity))
          (authority.confidentialKeys.aes.encrypt 0) proofData,
          payer.pubkey, [authority.pubkey, payer.pubkey, .generated index]⟩]
  /-- Depositing is finished by its transaction. -/
  | deposit {payer authority : Wallet} {mint : Pubkey} {amount decimals : Nat} :
      Operation.Finished (.deposit payer authority mint amount decimals)
        [depositTransaction payer authority mint amount decimals]
  /-- Applying is finished by its transaction. -/
  | applyPending {payer authority : Wallet} {mint : Pubkey} (values : ApplyValues) :
      Operation.Finished (.applyPending payer authority mint)
        [applyPendingTransaction payer authority mint values]
  /-- Withdrawing sets up two accounts, withdraws, and closes them one after the other. -/
  | withdraw {payer authority : Wallet} {mint : Pubkey} {amount decimals : Nat}
      (accounts : WithdrawAccounts) (values : WithdrawValues) :
      Operation.Finished (.withdraw payer authority mint amount decimals)
        (accounts.setup sdk cluster payer authority values.proofData ++
          accounts.spend payer authority mint amount decimals values.newDecryptable ::
            accounts.keys.map (closeTransaction payer authority))
  /-- Transferring sets up four accounts and closes them with the transfer itself. -/
  | transfer {payer sender : Wallet} {mint recipient : Pubkey} {amount : Nat}
      {progress : ProgressSink} (accounts : TransferAccounts) (data : TransferProofData)
      (newDecryptable : AeCiphertext) :
      Operation.Finished (.transfer payer sender mint recipient amount progress)
        (accounts.setup sdk cluster payer sender data ++
          [accounts.spend payer sender mint recipient newDecryptable data])

/-- Transactions that write token accounts without touching what is confidential. -/
inductive OpensAccount : Transaction → Prop
  /-- Creating an associated token account. -/
  | createAccount {funder wallet mint payer : Pubkey} {signers : List Pubkey} :
      OpensAccount ⟨[.createAssociatedTokenAccountIdempotent funder wallet mint], payer, signers⟩
  /-- Minting. -/
  | mintTo {mint account authority payer : Pubkey} {multisig signers : List Pubkey}
      {amount : Nat} :
      OpensAccount ⟨[.mintTo mint account authority multisig amount], payer, signers⟩

/-- How many calls of the library a job makes. -/
inductive CallCount
  /-- The job makes no call and only reads. -/
  | none
  /-- The job makes one call at most, and one whenever it returns a value. -/
  | one
  /-- The job makes several calls, and opens accounts and mints between them. -/
  | several
  deriving DecidableEq, Repr

/-- Which calls of the library a job makes. -/
structure Role where
  /-- The calls that it may make. -/
  may : Operation → Prop
  /-- How many it makes. -/
  calls : CallCount

/-- How a job may submit a transaction. -/
inductive Performs (role : Role) (past : List (Exchange Reply)) (transaction : Transaction) : Prop
  /-- A transaction that writes no token account. -/
  | quiet (still : transaction.moves = false) : Performs role past transaction
  /-- A job that prepares accounts opens one. -/
  | opens (several : role.calls = .several) (opens : OpensAccount transaction) :
      Performs role past transaction
  /-- A transaction that carries out a call. -/
  | carries (call : Operation) (may : role.may call)
      (computed : call.Computed sdk cluster past transaction)
      (alone : role.calls = .one → moving (carried past) = []) : Performs role past transaction

/-- What a job in this role may ask for. -/
def Role.Allows (role : Role) (past : List (Exchange Reply)) : Call → Prop
  | .sendAndConfirmTransaction transaction => Performs sdk cluster role past transaction
  | _ => True

/-- How a program may end, by its value and the transactions that were confirmed to it. -/
def EndsWith {α : Type} (ok : α → List Transaction → Prop) (failed : List Transaction → Prop)
    (all : List (Exchange Reply)) : Outcome ClientError α → Prop
  | .ok value => ok value (carried all)
  | .error _ => failed (carried all)
  | .panic _ => failed (carried all)

/-- However it is answered from a history with these exchanges and confirmed transactions, the
program keeps to its role and ends as said. -/
def Computes {α : Type} (role : Role) (failed : List Transaction → Prop)
    (told : List (Exchange Reply)) (done : List Transaction)
    (ok : α → List Transaction → Prop) (program : Client α) : Prop :=
  ∀ past, told.Sublist past → carried past = done →
    program.Leads (fun _ => Call.Answered cluster) (role.Allows sdk cluster) (EndsWith ok failed)
      past

end Computed

/-! ## Judging a program by what it computes -/

section Rules

variable {sdk : Sdk} {cluster : Cluster} {α β : Type} {role : Role}
variable {failed : List Transaction → Prop} {told : List (Exchange Reply)}
variable {done : List Transaction} {ok : α → List Transaction → Prop} {program : Client α}

/-- Returning a value lands nothing. -/
theorem computes_pure {value : α} (holds : ok value done) :
    Computes sdk cluster role failed told done ok (pure value) := by
  rintro past - rfl
  exact holds

/-- Failing lands nothing. -/
theorem computes_fail {reason : ClientError} (stops : failed done) :
    Computes sdk cluster role failed told done ok (Program.fail reason) := by
  rintro past - rfl
  exact stops

/-- Panicking lands nothing. -/
theorem computes_abort {message : String} (stops : failed done) :
    Computes sdk cluster role failed told done ok (Program.abort message) := by
  rintro past - rfl
  exact stops

/-- One request, and then the rest. -/
theorem computes_call {request : Call} {next : Reply request → Client α}
    (may : ∀ past, told.Sublist past → carried past = done → role.Allows sdk cluster past request)
    (later : ∀ reply, request.Answered cluster reply →
      Computes sdk cluster role failed (told ++ [⟨request, reply⟩])
        (done ++ carried [⟨request, reply⟩]) ok (next reply)) :
    Computes sdk cluster role failed told done ok (.call request next) := by
  intro past known same
  refine ⟨may past known same, fun reply kept => later reply kept _ ?_ ?_⟩
  · exact known.append (List.Sublist.refl _)
  · rw [carried_append, same]

/-- More may be known. -/
theorem Computes.remember {told' : List (Exchange Reply)}
    (computes : Computes sdk cluster role failed told done ok program)
    (more : told.Sublist told') : Computes sdk cluster role failed told' done ok program :=
  fun past known same => computes past (more.trans known) same

/-- Less may be said. -/
theorem Computes.weaken {ok' : α → List Transaction → Prop}
    (computes : Computes sdk cluster role failed told done ok program)
    (weaker : ∀ value done', ok value done' → ok' value done') :
    Computes sdk cluster role failed told done ok' program := by
  intro past known same
  refine (computes past known same).weaken fun all outcome ended => ?_
  cases outcome with
  | ok value => exact weaker value _ ended
  | error reason => exact ended
  | panic message => exact ended

/-- Less may be said of a failure. -/
theorem Computes.weakenFailed {failed' : List Transaction → Prop}
    (computes : Computes sdk cluster role failed told done ok program)
    (weaker : ∀ done', failed done' → failed' done') :
    Computes sdk cluster role failed' told done ok program := by
  intro past known same
  refine (computes past known same).weaken fun all outcome ended => ?_
  cases outcome with
  | ok value => exact ended
  | error reason => exact weaker _ ended
  | panic message => exact weaker _ ended

/-- One program after another. -/
theorem Computes.bind {mid : α → List Transaction → Prop} {ok : β → List Transaction → Prop}
    {rest : α → Client β} (first : Computes sdk cluster role failed told done mid program)
    (second : ∀ value done', mid value done' →
      Computes sdk cluster role failed told done' ok (rest value)) :
    Computes sdk cluster role failed told done ok (program >>= rest) := by
  intro past known same
  have grown := (first past known same).grown
  refine grown.bind (fun later value both => ?_) (fun _ _ both => both.2) fun _ _ both => both.2
  exact second value _ both.2 later (known.trans both.1.sublist) rfl

/-- Renaming errors changes nothing. -/
theorem Computes.mapError (computes : Computes sdk cluster role failed told done ok program)
    (rename : ClientError → ClientError) :
    Computes sdk cluster role failed told done ok (program.mapError rename) :=
  fun past known same => (computes past known same).mapError (fun _ _ ended => ended)
    (fun _ _ ended => ended) fun _ _ ended => ended

/-- Reporting a panic lands nothing more. -/
theorem Computes.catchPanic (computes : Computes sdk cluster role failed told done ok program)
    (report : String → ClientError) :
    Computes sdk cluster role failed told done ok (program.catchPanic report) :=
  fun past known same => (computes past known same).catchPanic (fun _ _ ended => ended)
    (fun _ _ ended => ended) fun _ _ ended => ended

/-- Nothing is confirmed by plain requests. -/
theorem plain_uncarried {more : List (Exchange Reply)}
    (plain : ∀ exchange ∈ more, exchange.1.Plain) : carried more = [] := by
  induction more with
  | nil => rfl
  | cons exchange rest ih =>
    have later := ih fun other member => plain other (List.mem_cons_of_mem _ member)
    obtain ⟨request, reply⟩ := exchange
    have first : request.Plain := plain _ List.mem_cons_self
    rw [← List.singleton_append, carried_append, later]
    cases request with
    | sendAndConfirmTransaction transaction => exact first.elim
    | _ => rfl

/-- What plain requests add to a history, a program may forget. -/
theorem plain_leads {holds : α → Prop} (within : program.Within Call.Promised Call.Plain holds)
    (past : List (Exchange Reply)) :
    program.Leads (fun _ => Call.Answered cluster) (role.Allows sdk cluster) (fun all outcome =>
      (∀ value, outcome = .ok value → holds value) ∧ past <+: all ∧ carried all = carried past)
        past := by
  have may (past : List (Exchange Reply)) (request : Call) (plain : request.Plain) :
      role.Allows sdk cluster past request := by
    cases request with
    | sendAndConfirmTransaction transaction => exact plain.elim
    | _ => trivial
  have answered (_ : List (Exchange Reply)) (request : Call) (reply : Reply request)
      (kept : Call.Answered cluster request reply) : request.Promised reply := kept.1
  have leads := within.leads answered may past
  refine leads.weaken ?_
  rintro all outcome ⟨holds, more, rfl, plain⟩
  refine ⟨holds, List.prefix_append past more, ?_⟩
  rw [carried_append, plain_uncarried plain, List.append_nil]

/-- A plain program first. -/
theorem computes_after {ok : β → List Transaction → Prop} {holds : α → Prop} {rest : α → Client β}
    (first : program.Within Call.Promised Call.Plain holds) (stops : failed done)
    (second : ∀ value, holds value → Computes sdk cluster role failed told done ok (rest value)) :
    Computes sdk cluster role failed told done ok (program >>= rest) := by
  rintro past known rfl
  refine (plain_leads first past).bind ?_ ?_ ?_
  · rintro later value ⟨known', grown, same⟩
    exact second value (known' value rfl) later (known.trans grown.sublist) same
  · rintro later reason ⟨-, -, same⟩
    exact (congrArg failed same).mpr stops
  · rintro later message ⟨-, -, same⟩
    exact (congrArg failed same).mpr stops

/-- A handler that makes plain requests and fails ends as the error that it handles. -/
theorem Computes.catchError (computes : Computes sdk cluster role failed told done ok program)
    {handle : ClientError → Client α}
    (fails : ∀ reason, (handle reason).Within Call.Promised Call.Plain fun _ => False) :
    Computes sdk cluster role failed told done ok (program.catchError handle) := by
  intro past known same
  refine (computes past known same).catchError (fun _ _ ended => ended) ?_ fun _ _ ended => ended
  intro later reason ended
  refine (plain_leads (fails reason) later).weaken ?_
  rintro all outcome ⟨never, -, same⟩
  cases outcome with
  | ok value => exact (never value rfl).elim
  | error reason' => exact (same ▸ ended : failed (carried all))
  | panic message => exact (same ▸ ended : failed (carried all))

/-- An event first, which is never an error. -/
theorem computes_emit {sink : ProgressSink} {event : TransferProgress} {rest : Unit → Client α}
    (second : Computes sdk cluster role failed told done ok (rest ())) :
    Computes sdk cluster role failed told done ok (emit sink event >>= rest) := by
  cases sink with
  | none => exact second
  | broadcast =>
    refine computes_call (fun _ _ _ => trivial) fun reply _ => ?_
    have still : done ++ carried [⟨.emit event, reply⟩] = done := List.append_nil done
    rw [still]
    exact second.remember (List.sublist_append_left _ _)

/-- A new keypair is known. -/
theorem computes_newKeypair {rest : Pubkey → Client α}
    (second : ∀ index, Computes sdk cluster role failed
      (told ++ [⟨.newKeypair, Pubkey.generated index⟩]) done ok (rest (.generated index))) :
    Computes sdk cluster role failed told done ok (newKeypair >>= rest) := by
  refine computes_call (fun _ _ _ => trivial) ?_
  rintro _ ⟨⟨index, rfl⟩, -⟩
  have still : done ++ carried [⟨.newKeypair, Pubkey.generated index⟩] = done :=
    List.append_nil done
  rw [still]
  exact second index

/-- A computed result first. -/
theorem computes_ofExcept {result : Except ClientError β} {rest : β → Client α}
    (stops : failed done)
    (second : ∀ value, result = .ok value →
      Computes sdk cluster role failed told done ok (rest value)) :
    Computes sdk cluster role failed told done ok (Program.ofExcept result >>= rest) := by
  cases result with
  | ok value => exact second value rfl
  | error reason => exact computes_fail stops

/-- The confidential part of an account is known once it was read. -/
theorem computes_fetchConfidential {account : Pubkey}
    {rest : ConfidentialTransferAccount → Client α} (stops : failed done)
    (second : ∀ token : TokenAccount, ∀ snapshot, token.confidential = some snapshot →
      Computes sdk cluster role failed
        (told ++ [⟨.getAccount account, Except.ok (.token token)⟩]) done ok (rest snapshot)) :
    Computes sdk cluster role failed told done ok (fetchConfidential account >>= rest) := by
  refine computes_call (fun _ _ _ => trivial) fun reply _ => ?_
  have still : done ++ carried [⟨.getAccount account, reply⟩] = done := List.append_nil done
  rw [still]
  cases reply with
  | error reason => exact computes_fail stops
  | ok data =>
    cases data with
    | token token =>
      have extension : Computes sdk cluster role failed
          (told ++ [⟨.getAccount account, Except.ok (.token token)⟩]) done ok
          (Program.ofExcept (getExtension token.confidential) >>= rest) := by
        cases held : token.confidential with
        | none => exact computes_fail stops
        | some snapshot => exact second token snapshot held
      exact extension
    | _ => exact computes_fail stops

/-- A rent is the cluster's. -/
theorem computes_rent {length : Nat} {rest : Nat → Client α} (stops : failed done)
    (second : Computes sdk cluster role failed told done ok
      (rest (cluster.rentExemption length))) :
    Computes sdk cluster role failed told done ok
      (getMinimumBalanceForRentExemption length >>= rest) := by
  refine computes_call (fun _ _ _ => trivial) fun reply answered => ?_
  have still : done ++ carried [⟨.getMinimumBalanceForRentExemption length, reply⟩] = done :=
    List.append_nil done
  rw [still]
  cases reply with
  | error reason => exact computes_fail stops
  | ok rent =>
    obtain rfl : rent = cluster.rentExemption length := answered.2 rent rfl
    exact second.remember (List.sublist_append_left _ _)

/-- `send_tx` returns once its transaction was confirmed. -/
theorem computes_sendTx {instructions : List Instruction} {signers : List Pubkey} {payer : Pubkey}
    (may : ∀ past, told.Sublist past → carried past = done →
      Performs sdk cluster role past ⟨instructions, payer, signers⟩)
    (stops : failed done) :
    Computes sdk cluster role failed told done
      (fun _ done' => done' = done ++ [⟨instructions, payer, signers⟩])
      (sendTx instructions signers payer) := by
  refine computes_call (fun _ _ _ => trivial) fun blockhash _ => ?_
  have still : done ++ carried [⟨.getLatestBlockhash, blockhash⟩] = done := List.append_nil done
  rw [still]
  refine Computes.remember ?_ (List.sublist_append_left _ _)
  cases blockhash with
  | error reason => exact computes_fail stops
  | ok found =>
    refine computes_call (fun _ _ _ => trivial) fun signing promised => ?_
    have unsent : done ++ carried [⟨.newSignedWithPayer ⟨instructions, payer, signers⟩,
        signing⟩] = done := List.append_nil done
    rw [unsent]
    refine Computes.remember ?_ (List.sublist_append_left _ _)
    cases signing with
    | error reason => cases reason <;> exact computes_abort stops
    | ok signed =>
      obtain rfl : signed = ⟨instructions, payer, signers⟩ := promised.1 signed rfl
      refine computes_call may fun sending _ => ?_
      cases sending with
      | error reason =>
        have refused : done ++ carried [⟨.sendAndConfirmTransaction
            ⟨instructions, payer, signers⟩, Except.error reason⟩] = done := List.append_nil done
        rw [refused]
        exact computes_fail stops
      | ok sig => exact computes_pure rfl

/-- Submit, and then the rest. -/
theorem computes_sent {instructions : List Instruction} {signers : List Pubkey} {payer : Pubkey}
    {rest : Signature → Client α}
    (may : ∀ past, told.Sublist past → carried past = done →
      Performs sdk cluster role past ⟨instructions, payer, signers⟩)
    (stops : failed done)
    (second : ∀ sig, Computes sdk cluster role failed told
      (done ++ [⟨instructions, payer, signers⟩]) ok (rest sig)) :
    Computes sdk cluster role failed told done ok (sendTx instructions signers payer >>= rest) := by
  refine (computes_sendTx may stops).bind ?_
  rintro sig done' rfl
  exact second sig

/-- Submit what writes no token account, and then the rest. -/
theorem computes_quietly {instructions : List Instruction} {signers : List Pubkey} {payer : Pubkey}
    {rest : Signature → Client α}
    (still : Transaction.moves ⟨instructions, payer, signers⟩ = false) (stops : failed done)
    (second : ∀ sig, Computes sdk cluster role failed told
      (done ++ [⟨instructions, payer, signers⟩]) ok (rest sig)) :
    Computes sdk cluster role failed told done ok (sendTx instructions signers payer >>= rest) :=
  computes_sent (fun _ _ _ => .quiet still) stops second

/-- The keypairs that were given lately are among all. -/
theorem knows_keypairs {past more : List (Exchange Reply)} (known : (told ++ more).Sublist past) :
    (keypairs more).Sublist (keypairs past) := by
  refine List.Sublist.trans ?_ (known.filterMap Exchange.keypair?)
  rw [List.filterMap_append]
  exact List.sublist_append_right _ _

/-- The keys are the wallet's own. -/
theorem knows_confidentialKeys (signer : Wallet) :
    (deriveConfidentialKeys signer).Within Call.Promised Call.Plain
      (· = signer.confidentialKeys) := by
  refine Program.Within.bind (plain_ask trivial) fun reply _ => ?_
  cases reply with
  | ok _ => exact Program.within_pure rfl
  | error reason => exact Program.within_fail

end Rules

/-! ## The library -/

section Library

variable (sdk : Sdk) {cluster : Cluster} {role : Role} {failed : List Transaction → Prop}
variable {told : List (Exchange Reply)} {done : List Transaction}

/-- The transactions of one call were confirmed. -/
def Finishes (cluster : Cluster) {α : Type} (call : Operation) (done : List Transaction) (_ : α)
    (done' : List Transaction) : Prop :=
  ∃ plan, call.Finished sdk cluster plan ∧ done' = done ++ plan

/-- Configuring carries out its call, and returns when the transaction is confirmed. -/
theorem computes_configure {payer authority : Wallet} {mint : Pubkey}
    (may : role.may (.configure payer authority mint))
    (alone : role.calls = .one → moving done = []) (stops : failed done) :
    Computes sdk cluster role failed told done
      (Finishes sdk cluster (.configure payer authority mint) done)
      (configureAccountForConfidentialTransfers sdk payer authority mint) := by
  refine computes_after (knows_confidentialKeys authority) stops fun keys same => ?_
  subst same
  refine computes_ofExcept stops fun proofData generated => ?_
  refine computes_newKeypair fun index => computes_rent stops ?_
  refine (computes_sendTx (fun past _ same => ?_) stops).weaken ?_
  · exact .carries _ may (.configure index (labelError_ok generated)) fun single =>
      same ▸ alone single
  · rintro sig done' rfl
    exact ⟨_, .configure proofData index, rfl⟩

/-- Depositing carries out its call, and returns when the transaction is confirmed. -/
theorem computes_deposit {payer authority : Wallet} {mint : Pubkey} {amount decimals : Nat}
    (may : role.may (.deposit payer authority mint amount decimals))
    (alone : role.calls = .one → moving done = []) (stops : failed done) :
    Computes sdk cluster role failed told done
      (Finishes sdk cluster (.deposit payer authority mint amount decimals) done)
      (depositToConfidential payer authority mint amount decimals) := by
  refine (computes_sendTx (fun past _ same => ?_) stops).weaken ?_
  · exact .carries _ may .deposit fun single => same ▸ alone single
  · rintro sig done' rfl
    exact ⟨_, .deposit, rfl⟩

/-- Applying carries out its call with what it computed from the account it read. -/
theorem computes_applyPending {payer authority : Wallet} {mint : Pubkey}
    (may : role.may (.applyPending payer authority mint))
    (alone : role.calls = .one → moving done = []) (stops : failed done) :
    Computes sdk cluster role failed told done
      (Finishes sdk cluster (.applyPending payer authority mint) done)
      (applyPendingBalance payer authority mint) := by
  refine computes_after (knows_confidentialKeys authority) stops fun keys same => ?_
  subst same
  refine computes_fetchConfidential stops fun token snapshot held => ?_
  refine computes_ofExcept stops fun values computed => ?_
  refine (computes_sendTx (fun past known same => ?_) stops).weaken ?_
  · have told : HasRead past (getAssociatedTokenAddress authority.pubkey mint) snapshot :=
      ⟨token, known.subset (by simp), held⟩
    exact .carries _ may (.applyPending told computed) fun single => same ▸ alone single
  · rintro sig done' rfl
    exact ⟨_, .applyPending values, rfl⟩

/-- The closing loop closes one account after the other. -/
theorem computes_closeContextStates {payer authority : Wallet} (stops : ∀ done', failed done')
    (accounts : List Pubkey) (sigs : List Signature) :
    Computes sdk cluster role failed told done
      (fun _ done' => done' = done ++ accounts.map (closeTransaction payer authority))
      (closeContextStates payer authority accounts sigs) := by
  induction accounts generalizing sigs done with
  | nil => exact computes_pure (List.append_nil done).symm
  | cons account rest ih =>
    refine computes_quietly rfl (stops _) fun sig => (ih (sigs ++ [sig])).weaken ?_
    rintro _ done' rfl
    rw [List.map_cons, List.append_assoc]
    rfl

/-- A withdraw may still fail after it has moved the tokens, as it closes its accounts. -/
theorem computes_withdraw {payer authority : Wallet} {mint : Pubkey} {amount decimals : Nat}
    (may : role.may (.withdraw payer authority mint amount decimals))
    (alone : role.calls = .one → moving done = []) (stops : ∀ done', failed done') :
    Computes sdk cluster role failed told done
      (Finishes sdk cluster (.withdraw payer authority mint amount decimals) done)
      (withdrawFromConfidential sdk payer authority mint amount decimals) := by
  refine computes_after (knows_confidentialKeys authority) (stops _) fun keys same => ?_
  subst same
  refine computes_fetchConfidential (stops _) fun token snapshot held => ?_
  refine computes_ofExcept (stops _) fun values computed => ?_
  refine computes_newKeypair fun equality => computes_rent (stops _) ?_
  refine computes_quietly rfl (stops _) fun first => ?_
  refine computes_newKeypair fun range => computes_rent (stops _) ?_
  refine computes_quietly rfl (stops _) fun second => ?_
  refine computes_sent (fun past known same => ?_) (stops _) fun third => ?_
  · have told : HasRead past (getAssociatedTokenAddress authority.pubkey mint) snapshot :=
      ⟨token, known.subset (by simp), held⟩
    have own : WithdrawAccounts.keys ⟨.generated equality, .generated range⟩ |>.Sublist
        (keypairs past) := by
      rw [List.append_assoc, List.append_assoc] at known
      exact knows_keypairs known
    have computedBy : Operation.Computed sdk cluster past
        (.withdraw payer authority mint amount decimals)
        (WithdrawAccounts.spend payer authority mint ⟨.generated equality, .generated range⟩ amount
          decimals values.newDecryptable) :=
      .withdraw told computed own ⟨done, by simp [same, WithdrawAccounts.setup]⟩
    refine .carries _ may computedBy fun single => ?_
    rw [same, moving_still rfl, moving_still rfl, alone single]
  refine (computes_closeContextStates sdk stops _ _).bind fun sigs done' same => ?_
  have whole : Finishes sdk cluster (.withdraw payer authority mint amount decimals) done first
      done' :=
    ⟨_, .withdraw ⟨.generated equality, .generated range⟩ values,
      by simp [same, WithdrawAccounts.setup, WithdrawAccounts.spend, WithdrawAccounts.keys]⟩
  cases sigs[2]? with
  | some sig => exact computes_pure whole
  | none => exact computes_abort (stops _)

/-- The loop over the chunks submits its writes. -/
theorem computes_writeChunks {payer : Wallet} {record : Pubkey} {trailing : List Instruction}
    {trailingSigners : List Pubkey}
    (quiet : ∀ instruction ∈ trailing, instruction.tokenWrites = [])
    (remaining : List (List UInt8)) (offset : Nat) (sigs : List Signature)
    (trailingAttached : Bool) (stops : ∀ done', moving done' = moving done → failed done') :
    Computes sdk cluster role failed told done (fun result done' =>
        done' = done ++ writeTransactions payer record trailing trailingSigners remaining offset ∧
          result.2 = (trailingAttached || !remaining.isEmpty))
      (writeChunks payer record trailing trailingSigners remaining offset sigs
        trailingAttached) := by
  induction remaining generalizing offset sigs trailingAttached done with
  | nil => exact computes_pure (by simp [writeTransactions])
  | cons chunk rest ih =>
    have still : Transaction.moves ⟨writeInstructions payer record trailing offset chunk
        rest.isEmpty, payer.pubkey, writeSigners payer trailingSigners rest.isEmpty⟩ = false := by
      rw [Transaction.moves_eq_false]
      cases last : rest.isEmpty with
      | false => simp [Ledger.TokenQuiet, writeInstructions, Instruction.tokenWrites]
      | true => simpa [Ledger.TokenQuiet, writeInstructions, Instruction.tokenWrites] using quiet
    refine computes_quietly still (stops _ rfl) fun sig => ?_
    refine (ih _ (sigs ++ [sig]) _ fun done' same => stops done' ?_).weaken ?_
    · rw [same, moving_still still]
    · rintro result done' ⟨rfl, attached⟩
      refine ⟨by simp [writeTransactions], ?_⟩
      cases rest <;> simp [attached]

/-- Staging submits its plan. -/
theorem computes_stageRangeProofRecord {payer : Wallet} {record : Pubkey}
    {trailing : List Instruction} {trailingSigners : List Pubkey}
    (quiet : ∀ instruction ∈ trailing, instruction.tokenWrites = []) (proofBytes : List UInt8)
    (stops : ∀ done', moving done' = moving done → failed done') :
    Computes sdk cluster role failed told done (fun _ done' => done' = done ++
        stageTransactions payer record trailing trailingSigners cluster proofBytes)
      (stageRangeProofRecord payer record trailing trailingSigners proofBytes) := by
  refine computes_rent (stops _ rfl) ?_
  split
  · exact computes_fail (stops _ rfl)
  refine computes_quietly rfl (stops _ rfl) fun sig => ?_
  have staged (done' : List Transaction) (same : moving done' = moving (done ++
      [⟨stageInstructions payer record (cluster.rentExemption (proofBytes.length +
        recordProofOffset)) (proofBytes.length + recordProofOffset) (proofBytes.take
          (min proofBytes.length recordFirstChunk)), payer.pubkey, [payer.pubkey, record]⟩])) :
      failed done' := by
    exact stops done' (same.trans (moving_still rfl))
  refine (computes_writeChunks sdk quiet _ _ _ _ staged).bind ?_
  rintro ⟨sigs, trailingAttached⟩ done' ⟨rfl, attached⟩
  set rest := proofBytes.drop (min proofBytes.length recordFirstChunk)
  by_cases empty : rest = []
  · -- The whole proof fitted the first write, so nothing carried the trailing instructions.
    have none : chunks recordWriteChunk rest = [] := by rw [empty]; rfl
    rw [none] at attached ⊢
    obtain rfl : trailingAttached = false := attached
    refine computes_sent (fun _ _ _ => .quiet ?_) (staged _ ?_) fun last => computes_pure ?_
    · rwa [Transaction.moves_eq_false]
    · simp [writeTransactions]
    · simp [stageTransactions, laterTransactions, rest, empty, writeTransactions]
  · have several : (chunks recordWriteChunk rest).isEmpty = false := by
      simpa using chunks_ne_nil recordWriteChunk empty
    obtain rfl : trailingAttached = true := by simpa [several] using attached
    refine computes_pure ?_
    simp [stageTransactions, laterTransactions, rest, empty]

/-- Setting up a transfer writes no token account. -/
theorem TransferAccounts.setup_quiet (accounts : TransferAccounts) (cluster : Cluster)
    (payer owner : Wallet) (data : TransferProofData) :
    ∀ transaction ∈ accounts.setup sdk cluster payer owner data, transaction.moves = false := by
  intro transaction member
  simp only [setup, List.cons_append, List.nil_append, List.mem_cons] at member
  rcases member with rfl | rfl | staging
  · rfl
  · rfl
  · rw [Transaction.moves_eq_false]
    refine (stageTransactions_forall payer accounts.record _ _ (fun instructions =>
      ∀ instruction ∈ instructions, instruction.tokenWrites = []) cluster ?_ ?_ ?_ _ transaction
      staging).2
    · simp [stageInstructions, Instruction.tokenWrites]
    · intro offset chunk last
      cases last <;> simp [writeInstructions, rangeInstructions, Instruction.tokenWrites]
    · simp [rangeInstructions, Instruction.tokenWrites]

/-- A transfer moves the tokens with its last transaction, and fails only before that. -/
theorem computes_transfer {payer sender : Wallet} {mint recipient : Pubkey} {amount : Nat}
    {progress : ProgressSink}
    (may : role.may (.transfer payer sender mint recipient amount progress))
    (alone : role.calls = .one → moving done = [])
    (stops : ∀ done', moving done' = moving done → failed done') :
    Computes sdk cluster role failed told done
      (Finishes sdk cluster (.transfer payer sender mint recipient amount progress) done)
      (transferConfidentialWithProgress sdk payer sender mint recipient amount progress) := by
  refine computes_emit ?_
  refine computes_after (silent_fetchRecipientPubkey _).plain (stops _ rfl) fun recipientKey _ => ?_
  refine computes_after (silent_fetchAuditorPubkey _).plain (stops _ rfl) fun auditor _ => ?_
  refine computes_emit ?_
  refine computes_after ((knows_confidentialKeys sender).mapError _) (stops _ rfl)
    fun keys same => ?_
  subst same
  refine computes_fetchConfidential (stops _ rfl) fun token snapshot held => ?_
  refine computes_emit ?_
  refine computes_ofExcept (stops _ rfl) fun data generated => ?_
  refine computes_emit ?_
  -- 1. Equality proof
  refine computes_newKeypair fun equality => computes_rent (stops _ rfl) ?_
  refine computes_quietly rfl (stops _ rfl) fun equalitySig => computes_emit ?_
  -- 2. Ciphertext validity proof
  refine computes_newKeypair fun validity => ?_
  refine computes_rent (stops _ (moving_still rfl)) ?_
  refine computes_quietly rfl (stops _ (moving_still rfl)) fun validitySig => computes_emit ?_
  -- 3. Range proof
  refine computes_newKeypair fun record => computes_newKeypair fun range => ?_
  refine computes_rent (stops _ ((moving_still rfl).trans (moving_still rfl))) ?_
  have quiet : ∀ instruction ∈ rangeInstructions sdk payer sender (.generated range)
      (.generated record) (cluster.rentExemption (sdk.contextStateSize .batchedRangeProofU128)),
      instruction.tokenWrites = [] := by
    simp [rangeInstructions, Instruction.tokenWrites]
  refine (computes_stageRangeProofRecord sdk quiet _ fun done' same =>
    stops done' (same.trans ((moving_still rfl).trans (moving_still rfl)))).bind ?_
  rintro recordSigs done' rfl
  rw [List.append_assoc done, List.append_assoc done]
  set accounts : TransferAccounts :=
    ⟨.generated equality, .generated validity, .generated record, .generated range⟩ with named
  change Computes sdk cluster role failed _
    (done ++ accounts.setup sdk cluster payer sender data) _ _
  have still : moving (done ++ accounts.setup sdk cluster payer sender data) = moving done := by
    rw [moving_append, moving_quiet (accounts.setup_quiet sdk cluster payer sender data),
      List.append_nil]
  refine computes_after (plain_emitStages _ _ _) (stops _ still) fun _ _ => computes_emit ?_
  refine computes_ofExcept (stops _ still) fun newDecryptable covers => ?_
  refine computes_sent (fun past known same => ?_) (stops _ still) fun sig => ?_
  · have told : HasRead past (getAssociatedTokenAddress sender.pubkey mint) snapshot :=
      ⟨token, known.subset (by simp), held⟩
    have own : accounts.keys.Sublist (keypairs past) := by
      simp only [List.append_assoc] at known
      exact knows_keypairs known
    have computedBy : Operation.Computed sdk cluster past
        (.transfer payer sender mint recipient amount progress)
        (accounts.spend payer sender mint recipient newDecryptable data) :=
      .transfer told (labelError_ok generated) covers own ⟨done, same.symm⟩
    exact .carries _ may computedBy fun single => by rw [same, still, alone single]
  · have whole : Finishes sdk cluster (.transfer payer sender mint recipient amount progress) done
        sig (done ++ accounts.setup sdk cluster payer sender data ++
          [accounts.spend payer sender mint recipient newDecryptable data]) :=
      ⟨_, .transfer accounts data newDecryptable, List.append_assoc _ _ _⟩
    exact computes_emit (computes_emit (computes_pure whole))

/-- A finished call has moved tokens with one of its transactions. -/
theorem Operation.Finished.moving_one {call : Operation} {plan : List Transaction}
    (finished : call.Finished sdk cluster plan) : (moving plan).length = 1 := by
  cases finished with
  | configure proofData index => rfl
  | deposit => rfl
  | applyPending values => rfl
  | withdraw accounts values => rfl
  | @transfer payer sender mint recipient amount progress accounts data newDecryptable =>
    have moves : (accounts.spend payer sender mint recipient newDecryptable data).moves = true :=
      rfl
    rw [moving_more moves, moving_quiet (accounts.setup_quiet sdk cluster payer sender data)]
    rfl

end Library

end ConfidentialBalances
