import Mathlib

/-!
# Broadcast channels

The receiving end of a channel that holds a bounded number of values: a receiver
reads what is sent after it subscribed, in order, and one that falls too far
behind goes on with the oldest value that is still held. However sends and polls
alternate, what a receiver was given and what it skipped make up what was sent.
-/

namespace Effect

/-- The receiving end of a channel, as a package provides it. A poll gives a value, or how many
values were skipped, or nothing yet. -/
structure Broadcast (α : Type) where
  /-- Receivers. -/
  Receiver : Type
  /-- How many values are held for a receiver. -/
  capacity : Nat
  /-- A new receiver, once these values were sent. -/
  subscribe : List α → Receiver
  /-- A poll, once these values were sent. -/
  poll : Receiver → List α → Option (Except Nat α) × Receiver

namespace Broadcast

variable {α : Type}

/-- What is documented of a channel, by the place of the value that a receiver reads next. -/
structure Documented (channel : Broadcast α) (place : channel.Receiver → Nat) : Prop where
  /-- A new receiver reads what is sent from then on. -/
  subscribe : ∀ sent, place (channel.subscribe sent) = sent.length
  /-- A receiver that has read everything waits. -/
  waits : ∀ receiver sent, place receiver = sent.length →
    (channel.poll receiver sent).1 = none ∧
      place (channel.poll receiver sent).2 = place receiver
  /-- A receiver reads the next value while that is held. -/
  reads : ∀ receiver sent value, sent[place receiver]? = some value →
    sent.length ≤ place receiver + channel.capacity →
      (channel.poll receiver sent).1 = some (.ok value) ∧
        place (channel.poll receiver sent).2 = place receiver + 1
  /-- A receiver that fell behind goes on with the oldest value held, and is told how many it
  skipped. -/
  skips : ∀ receiver sent, place receiver + channel.capacity < sent.length →
    (channel.poll receiver sent).1 =
        some (.error (sent.length - channel.capacity - place receiver)) ∧
      place (channel.poll receiver sent).2 = sent.length - channel.capacity

/-- What one receiver was given, while values are sent and it is polled in any order. -/
inductive Watched (channel : Broadcast α) (start : List α) :
    List α → channel.Receiver → List (Except Nat α) → Prop
  /-- The receiver subscribes. -/
  | subscribe : Watched channel start start (channel.subscribe start) []
  /-- More is sent. -/
  | send {sent receiver items} (more : List α) : Watched channel start sent receiver items →
      Watched channel start (sent ++ more) receiver items
  /-- The receiver is polled. -/
  | poll {sent receiver items} : Watched channel start sent receiver items →
      Watched channel start sent (channel.poll receiver sent).2
        (items ++ (channel.poll receiver sent).1.toList)

/-- A receiver and what it was given, after so many polls more. -/
def drain (channel : Broadcast α) (sent : List α) :
    Nat → channel.Receiver → List (Except Nat α) → channel.Receiver × List (Except Nat α)
  | 0, receiver, items => (receiver, items)
  | polls + 1, receiver, items =>
    drain channel sent polls (channel.poll receiver sent).2
      (items ++ (channel.poll receiver sent).1.toList)

/-- The values that were received, in order. -/
def received (items : List (Except Nat α)) : List α := items.filterMap Except.toOption

/-- How many values one poll skipped. -/
def skip : Except Nat α → Nat
  | .ok _ => 0
  | .error count => count

/-- How many values were skipped. -/
def skipped (items : List (Except Nat α)) : Nat := (items.map skip).sum

/-- The values from one place to another. -/
def between (sent : List α) (first last : Nat) : List α := (sent.take last).drop first

section Between

variable {sent : List α} {first last : Nat}

/-- Between two places there are as many values as the places are apart. -/
theorem length_between (inside : last ≤ sent.length) :
    (between sent first last).length = last - first := by
  rw [between, List.length_drop, List.length_take, Nat.min_eq_left inside]

/-- The next value comes after them. -/
theorem between_succ {value : α} (next : sent[last]? = some value) (order : first ≤ last) :
    between sent first (last + 1) = between sent first last ++ [value] := by
  obtain ⟨inside, -⟩ := List.getElem?_eq_some_iff.mp next
  have count : first ≤ (sent.take last).length := by
    rw [List.length_take]
    omega
  rw [between, List.take_add_one, next, Option.toList_some, List.drop_append_of_le_length count,
    between]

/-- The values up to a later place start with those up to an earlier one. -/
theorem between_grows {later : Nat} (order : last ≤ later) :
    between sent first last <+: between sent first later := by
  have taken : (sent.take later).take last <+: sent.take later := List.take_prefix _ _
  rw [List.take_take, Nat.min_eq_left order] at taken
  obtain ⟨more, same⟩ := taken
  rw [between, between, ← same, List.drop_append]
  exact List.prefix_append _ _

/-- What is sent later changes nothing. -/
theorem between_append (more : List α) (inside : last ≤ sent.length) :
    between (sent ++ more) first last = between sent first last := by
  rw [between, List.take_append_of_le_length inside, between]

/-- Everything from one place on. -/
theorem between_length : between sent first sent.length = sent.drop first := by
  rw [between, List.take_length]

end Between

section Items

variable (items : List (Except Nat α))

/-- A value that is read is received. -/
theorem received_ok (value : α) : received (items ++ [.ok value]) = received items ++ [value] := by
  simp [received, Except.toOption]

/-- A notice of skipped values is not received. -/
theorem received_error (count : Nat) : received (items ++ [.error count]) = received items := by
  simp [received, Except.toOption]

/-- A value that is read skips nothing. -/
theorem skipped_ok (value : α) : skipped (items ++ [.ok value]) = skipped items := by
  simp [skipped, skip]

/-- A notice of skipped values counts them. -/
theorem skipped_error (count : Nat) :
    skipped (items ++ [.error count]) = skipped items + count := by
  simp [skipped, skip]

end Items

/-- What was received and skipped of what was sent from the start to a place. -/
structure Accounted (capacity : Nat) (start sent : List α) (place : Nat)
    (items : List (Except Nat α)) : Prop where
  /-- More has been sent since. -/
  grown : start <+: sent
  /-- The receiver started there. -/
  started : start.length ≤ place
  /-- The receiver is not ahead of what was sent. -/
  behind : place ≤ sent.length
  /-- What the receiver got are some of the values sent since it subscribed, in order. -/
  values : (received items).Sublist (between sent start.length place)
  /-- The receiver skipped the values that it did not get. -/
  counted : (received items).length + skipped items = place - start.length
  /-- Nothing is skipped as long as the channel holds all that was sent since. -/
  held : sent.length ≤ start.length + capacity → skipped items = 0

section Watching

variable {channel : Broadcast α} {place : channel.Receiver → Nat} {start sent : List α}
variable {receiver : channel.Receiver} {items : List (Except Nat α)}

/-- A poll keeps the account. -/
theorem Accounted.poll (documented : channel.Documented place)
    (accounted : Accounted channel.capacity start sent (place receiver) items) :
    Accounted channel.capacity start sent (place (channel.poll receiver sent).2)
      (items ++ (channel.poll receiver sent).1.toList) := by
  obtain ⟨grown, started, behind, values, counted, held⟩ := accounted
  rcases Nat.eq_or_lt_of_le behind with caught | before
  · obtain ⟨nothing, same⟩ := documented.waits receiver sent caught
    rw [nothing, same, Option.toList_none, List.append_nil]
    exact ⟨grown, started, behind, values, counted, held⟩
  by_cases far : place receiver + channel.capacity < sent.length
  · obtain ⟨gave, moved⟩ := documented.skips receiver sent far
    rw [gave, moved, Option.toList_some]
    refine ⟨grown, by omega, by omega, ?_, ?_, fun few => ?_⟩
    · rw [received_error]
      exact values.trans (between_grows (by omega)).sublist
    · rw [received_error, skipped_error]
      omega
    · omega
  · have next : sent[place receiver]? = some sent[place receiver] := List.getElem?_eq_getElem before
    obtain ⟨gave, moved⟩ := documented.reads receiver sent _ next (by omega)
    rw [gave, moved, Option.toList_some]
    refine ⟨grown, by omega, by omega, ?_, ?_, fun few => ?_⟩
    · rw [received_ok, between_succ next started]
      exact values.append (List.Sublist.refl _)
    · rw [received_ok, skipped_ok, List.length_append, List.length_singleton]
      omega
    · rw [skipped_ok]
      exact held few

/-- However sends and polls alternate, what was received and skipped make up what was sent. -/
theorem Watched.accounted (documented : channel.Documented place)
    (watched : channel.Watched start sent receiver items) :
    Accounted channel.capacity start sent (place receiver) items := by
  induction watched with
  | subscribe =>
    have here := documented.subscribe start
    refine ⟨List.prefix_rfl, by omega, by omega, List.nil_sublist _, ?_, fun _ => rfl⟩
    rw [here, Nat.sub_self]
    rfl
  | @send sent receiver items more _ ih =>
    obtain ⟨grown, started, behind, values, counted, held⟩ := ih
    refine ⟨grown.trans (List.prefix_append _ _), started, ?_, ?_, counted, fun few => held ?_⟩
    · rw [List.length_append]
      omega
    · rwa [between_append more behind]
    · rw [List.length_append] at few
      omega
  | poll _ ih => exact ih.poll documented

/-- Where nothing was skipped, everything was received. -/
theorem Accounted.complete {capacity reached : Nat}
    (accounted : Accounted capacity start sent reached items) (none : skipped items = 0) :
    received items = between sent start.length reached := by
  refine accounted.values.eq_of_length ?_
  rw [length_between accounted.behind, ← accounted.counted, none, Nat.add_zero]

end Watching

/-- A channel that is as documented: a receiver is the place that it reads next. -/
def ring (α : Type) (capacity : Nat) : Broadcast α where
  Receiver := Nat
  capacity := capacity
  subscribe sent := sent.length
  poll place sent :=
    if place + capacity < sent.length then
      (some (.error (sent.length - capacity - place)), sent.length - capacity)
    else
      match sent[place]? with
      | some value => (some (.ok value), place + 1)
      | none => (none, place)

/-- A ring buffer is a channel as documented. -/
theorem ring_documented (capacity : Nat) : (ring α capacity).Documented id := by
  refine ⟨fun sent => rfl, ?_, ?_, ?_⟩
  · intro (receiver : Nat) sent (caught : receiver = sent.length)
    have near : ¬ receiver + capacity < sent.length := by omega
    have none : sent[receiver]? = none := List.getElem?_eq_none (by omega)
    simp [ring, near, none]
  · intro (receiver : Nat) sent value (next : sent[receiver]? = some value)
      (held : sent.length ≤ receiver + capacity)
    have near : ¬ receiver + capacity < sent.length := by omega
    simp [ring, near, next]
  · intro (receiver : Nat) sent (far : receiver + capacity < sent.length)
    simp [ring, far]

end Broadcast

end Effect
