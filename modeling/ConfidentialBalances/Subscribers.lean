import ConfidentialBalances.Effect.Broadcast
import ConfidentialBalances.Json
import ConfidentialBalances.LiveStreams

/-!
# Subscribers of the progress channel

`GET /demo/events`: a receiver of the progress channel whose values are written
out as JSON, with whatever it skipped dropped silently. The channel, the writer
and the text of a signature come from other packages and are parameters here.
However jobs and polls interleave, what a subscriber can read off its stream are
events that the jobs sent after it subscribed, in order, and all of them as long
as the channel held them.
-/

namespace ConfidentialBalances

open Effect System

/-- The capacity of the progress channel. -/
def progressCapacity : Nat := 64

/-- The serialized fields of an event, with the text of signatures given: the variant's name in
kebab case under `type`, then the variant's own fields. -/
def TransferProgress.fields (text : Signature → String) :
    TransferProgress → List (String × Json.Value)
  | .phase name detail =>
    [("type", .string "phase"), ("name", .string name), ("detail", .string detail)]
  | .signature label sig =>
    [("type", .string "signature"), ("label", .string label), ("sig", .string (text sig))]
  | .done sigs => [("type", .string "done"), ("sigs", .strings (sigs.map text))]
  | .error message => [("type", .string "error"), ("message", .string message)]

/-- What `events_handler` uses of other packages. -/
structure Wire where
  /-- `tokio::sync::broadcast`, as `BroadcastStream` reads it. -/
  channel : Broadcast TransferProgress
  /-- `Signature::to_string`. -/
  signature : Signature → String
  /-- `serde_json::to_string`, of an object. -/
  toString : List (String × Json.Value) → Except String String

namespace Wire

variable (wire : Wire)

/-- `serde_json::to_string` of an event. -/
def payload (event : TransferProgress) : Except String String :=
  wire.toString (event.fields wire.signature)

/-- What `events_handler` makes of one item of the stream. -/
def data (item : Except Nat TransferProgress) : Option String :=
  match item with
  | .ok event =>
    match wire.payload event with
    | .ok payload => some payload
    | .error _ => none
  -- Lagged behind on the broadcast.
  | .error _ => none

/-- `events_handler`: the data of the events that it sends on, in order. -/
def eventsHandler (items : List (Except Nat TransferProgress)) : List String :=
  items.filterMap wire.data

/-- What is documented of these packages: the channel's capacity is the one it was made with,
signatures are told apart by their text, and objects are written as compact JSON. -/
structure Documented (place : wire.channel.Receiver → Nat) : Prop where
  /-- The receivers. -/
  channel : wire.channel.Documented place
  /-- The capacity. -/
  capacity : wire.channel.capacity = progressCapacity
  /-- The text of signatures. -/
  signature : Function.Injective wire.signature
  /-- The text of objects. -/
  json : ∀ fields, wire.toString fields = .ok (Json.object fields)

end Wire

/-! ## What the payloads say -/

section Payloads

variable {wire : Wire} {place : wire.channel.Receiver → Nat}

/-- Events with the same fields are the same. -/
theorem TransferProgress.fields_injective {text : Signature → String}
    (apart : Function.Injective text) :
    Function.Injective (TransferProgress.fields text) := by
  intro event event' same
  cases event <;> cases event' <;> simp [TransferProgress.fields] at same ⊢
  case phase.phase => exact same
  case signature.signature =>
    exact ⟨same.1, apart same.2⟩
  case done.done => exact apart.list_map same
  case error.error => exact same

/-- The text of an event. -/
def Wire.text (wire : Wire) (event : TransferProgress) : String :=
  Json.object (event.fields wire.signature)

/-- The texts of different events differ. -/
theorem Wire.Documented.text_injective (documented : wire.Documented place) :
    Function.Injective wire.text :=
  Json.object_injective.comp (TransferProgress.fields_injective documented.signature)

/-- What is sent on are the texts of the events that were received. -/
theorem Wire.Documented.eventsHandler_eq (documented : wire.Documented place)
    (items : List (Except Nat TransferProgress)) :
    wire.eventsHandler items = (Broadcast.received items).map wire.text := by
  induction items with
  | nil => rfl
  | cons item rest ih =>
    cases item with
    | ok event =>
      have written : wire.data (.ok event) = some (wire.text event) := by
        simp only [Wire.data, Wire.payload, documented.json]
        rfl
      rw [Wire.eventsHandler, List.filterMap_cons_some written, ← Wire.eventsHandler, ih]
      rfl
    | error count => exact ih

end Payloads

/-! ## A subscriber among the jobs -/

section Running

variable {ι : Type} [DecidableEq ι]

/-- A run together with a subscriber: it subscribes at some point, and from then on is polled
whenever it likes. -/
inductive Subscribed (wire : Wire) (sdk : Sdk) (cluster : Cluster) (s : AppState) (port : Nat)
    (jobs : ι → Job) (world : World) (start : List TransferProgress) :
    List (ι × Exchange Reply) → World → (ι → Client Answer) → wire.channel.Receiver →
      List (Except Nat TransferProgress) → Prop
  /-- The receiver subscribes, after what was sent so far. -/
  | subscribe {trace world' pool} :
      RunTogether sdk cluster s port jobs world trace world' pool → start = world'.progress →
        Subscribed wire sdk cluster s port jobs world start trace world' pool
          (wire.channel.subscribe start) []
  /-- One more request of one job is answered. -/
  | answer {trace middle pool thread request next reply after receiver items} :
      Subscribed wire sdk cluster s port jobs world start trace middle pool receiver items →
        pool thread = .call request next → ¬LogLocked pool thread →
          (chainSystem cluster).step middle request reply after →
            Subscribed wire sdk cluster s port jobs world start
              (trace ++ [(thread, ⟨request, reply⟩)]) after
              (Function.update pool thread (next reply)) receiver items
  /-- The subscriber is polled. -/
  | poll {trace world' pool receiver items} :
      Subscribed wire sdk cluster s port jobs world start trace world' pool receiver items →
        Subscribed wire sdk cluster s port jobs world start trace world' pool
          (wire.channel.poll receiver world'.progress).2
          (items ++ (wire.channel.poll receiver world'.progress).1.toList)

end Running

section Together

variable {ι : Type} [DecidableEq ι] {sdk : Sdk} {cluster : Cluster} {s : AppState} {port : Nat}
variable {jobs : ι → Job} {world world' : World} {trace : List (ι × Exchange Reply)}
variable {pool : ι → Client Answer} {wire : Wire} {place : wire.channel.Receiver → Nat}
variable {start : List TransferProgress} {receiver : wire.channel.Receiver}
variable {items : List (Except Nat TransferProgress)}

/-- Whoever subscribes before the jobs is subscribed. -/
theorem RunTogether.subscribed (wire : Wire)
    (run : RunTogether sdk cluster s port jobs world trace world' pool) :
    Subscribed wire sdk cluster s port jobs world world.progress trace world' pool
      (wire.channel.subscribe world.progress) [] := by
  induction run with
  | here => exact .subscribe .here rfl
  | step _ here free answered ih => exact .answer ih here free answered

/-- A subscribed receiver may be polled any number of times more. -/
theorem Subscribed.drain (polls : Nat)
    (subscribed : Subscribed wire sdk cluster s port jobs world start trace world' pool receiver
      items) :
    Subscribed wire sdk cluster s port jobs world start trace world' pool
      (wire.channel.drain world'.progress polls receiver items).1
      (wire.channel.drain world'.progress polls receiver items).2 := by
  induction polls generalizing receiver items with
  | zero => exact subscribed
  | succ polls ih => exact ih subscribed.poll

/-- The jobs run as if nobody listened. -/
theorem Subscribed.run
    (subscribed : Subscribed wire sdk cluster s port jobs world start trace world' pool receiver
      items) : RunTogether sdk cluster s port jobs world trace world' pool := by
  induction subscribed with
  | subscribe run _ => exact run
  | answer _ here free answered ih => exact .step ih here free answered
  | poll _ ih => exact ih

/-- A receiver subscribed after what was sent before the jobs. -/
theorem Subscribed.since
    (subscribed : Subscribed wire sdk cluster s port jobs world start trace world' pool receiver
      items) : world.progress <+: start := by
  induction subscribed with
  | subscribe run same =>
    rw [same, run.recorded.progress]
    exact List.prefix_append _ _
  | answer _ _ _ _ ih => exact ih
  | poll _ ih => exact ih

/-- An answered request sends what it sends, after what was sent before. -/
theorem step_progress {request : Call} {reply : Reply request} {middle after : World}
    (answered : (chainSystem cluster).step middle request reply after) :
    after.progress = middle.progress ++ sent [⟨request, reply⟩] :=
  ((Recorded.refl cluster middle).step answered).progress

/-- The subscriber watches the channel. -/
theorem Subscribed.watched
    (subscribed : Subscribed wire sdk cluster s port jobs world start trace world' pool receiver
      items) : wire.channel.Watched start world'.progress receiver items := by
  induction subscribed with
  | subscribe run same =>
    subst same
    exact .subscribe
  | answer _ _ _ answered ih =>
    rw [step_progress answered]
    exact .send _ ih
  | poll _ ih => exact .poll ih

/-- However jobs and a subscriber's polls interleave: the data that it was sent is the text of
events that the jobs sent after it subscribed, in order, and of no other list of events; each is one
line; every signature among them is of a transaction that landed, and none comes twice; and as
long as the channel holds what was sent since, it has got everything that it was polled for. -/
theorem subscribers_see (documented : wire.Documented place)
    (subscribed : Subscribed wire sdk cluster s port jobs world start trace world' pool receiver
      items) :
    ∃ events, wire.eventsHandler items = events.map wire.text ∧
      (∀ others, wire.eventsHandler items = others.map wire.text → others = events) ∧
      (∀ data ∈ wire.eventsHandler items, ∀ symbol ∈ data.toList, 32 ≤ symbol.toNat) ∧
      events.Sublist (world'.progress.drop start.length) ∧
      events.length + Broadcast.skipped items = place receiver - start.length ∧
      (announced events).Nodup ∧
      (∀ sig ∈ announced events, ∃ thread, ∃ transaction ∈ carried (localTo thread trace),
        sig ∈ announced (sent (localTo thread trace)) ∧
          world'.landed[sig.position]? = some transaction) ∧
      (world'.progress.length ≤ start.length + progressCapacity →
        events = (world'.progress.take (place receiver)).drop start.length) := by
  have run := subscribed.run
  have accounted := subscribed.watched.accounted documented.channel
  have written := documented.eventsHandler_eq items
  have different : Function.Injective (List.map wire.text) :=
    documented.text_injective.list_map
  have since : (world'.progress.drop start.length).Sublist (sent (trace.map Prod.snd)) := by
    rw [run.recorded.progress]
    obtain ⟨more, same⟩ := subscribed.since
    have later : world.progress.length ≤ start.length := by
      rw [← same, List.length_append]
      omega
    rw [List.drop_append, List.drop_eq_nil_of_le later, List.nil_append]
    exact List.drop_sublist _ _
  have read : (Broadcast.received items).Sublist (world'.progress.drop start.length) := by
    have whole := accounted.values.trans (Broadcast.between_grows accounted.behind).sublist
    rwa [Broadcast.between_length] at whole
  have said := (read.trans since).filterMap TransferProgress.signature?
  refine ⟨Broadcast.received items, written, fun others same => ?_, fun data member => ?_, read,
    accounted.counted, run.announced_nodup.sublist said, fun sig member => ?_, fun few => ?_⟩
  · exact (different (written.symm.trans same)).symm
  · rw [written] at member
    obtain ⟨event, -, rfl⟩ := List.mem_map.mp member
    exact Json.object_printable _
  · have announcedAll := said.subset member
    rw [← announced, announced_sent] at announcedAll
    obtain ⟨exchange, among, found⟩ := List.mem_filterMap.mp announcedAll
    obtain ⟨⟨thread, _⟩, inside, rfl⟩ := List.mem_map.mp among
    have own : sig ∈ announced (sent (localTo thread trace)) := by
      rw [announced_sent]
      exact List.mem_filterMap.mpr ⟨_, mem_localTo.mpr inside, found⟩
    obtain ⟨transaction, told, landed⟩ := run.announced_landed own
    exact ⟨thread, transaction, told, own, landed⟩
  · rw [← documented.capacity] at few
    exact accounted.complete (accounted.held few)

/-- Parameters that are as documented. -/
def Wire.demo : Wire where
  channel := .ring TransferProgress progressCapacity
  signature sig := String.ofList (List.replicate sig.position '1')
  toString fields := .ok (Json.object fields)

/-- The demo's channel and texts are as documented. -/
theorem Wire.demo_documented : Wire.demo.Documented id := by
  refine ⟨Broadcast.ring_documented progressCapacity, rfl, fun sig sig' same => ?_, fun _ => rfl⟩
  have count := congrArg List.length (String.ofList_injective same)
  rw [List.length_replicate, List.length_replicate] at count
  exact congrArg Signature.mk count

/-- A subscriber that polls twenty times after a transfer in turns with an apply. -/
def demoItems : List (Except Nat TransferProgress) :=
  (Wire.demo.channel.drain (demoTogether 120).2.1.progress 20 (0 : Nat) []).2

/-- The demo's subscriber has got everything. -/
theorem subscribers_see_demo :
    Wire.demo.eventsHandler demoItems =
        (demoTogether 120).2.1.progress.map Wire.demo.text ∧
      (announced (demoTogether 120).2.1.progress).Nodup := by
  have begins : (World.demo 0 5).progress = [] := rfl
  have subscribed := ((demoTogether_runs 120).subscribed Wire.demo).drain 20
  rw [begins] at subscribed
  obtain ⟨events, written, -, -, -, -, distinct, -, whole⟩ :=
    subscribers_see Wire.demo_documented subscribed
  have few : (demoTogether 120).2.1.progress.length ≤ progressCapacity := by decide +kernel
  have read : Nat.ble (demoTogether 120).2.1.progress.length
      (Wire.demo.channel.drain (demoTogether 120).2.1.progress 20 (0 : Nat) []).1 = true := by
    decide +kernel
  have all : events = (demoTogether 120).2.1.progress := by
    rw [whole (by simpa using few), List.length_nil, List.drop_zero]
    exact List.take_of_length_le (Nat.le_of_ble_eq_true read)
  rw [← all]
  exact ⟨written, distinct⟩

end Together

end ConfidentialBalances
