import ConfidentialBalances.Json
import Mathlib

/-!
# Arrays of bytes in JSON

The compact text of an array of bytes, and a reader of such arrays as JSON has
them, with white space wherever that may stand. The reader goes over the text
once, character by character, and reads back whatever was written.
-/

namespace Json

/-- The text of an array of bytes. -/
def bytes (content : List UInt8) : List Char :=
  '[' :: separated (fun byte => Nat.toDigits 10 byte.toNat) ',' ']' content

/-! ## The reader -/

/-- White space between tokens. -/
def white (character : Char) : Bool :=
  character = ' ' || character = '\x0a' || character = '\x09' || character = '\x0d'

/-- The value of a decimal digit. -/
def digit? (character : Char) : Option Nat :=
  if character.isDigit then some (character.toNat - 48) else none

/-- How far an array of bytes has been read. -/
inductive Reading
  /-- The array has not begun. -/
  | start
  /-- The array's bracket is open. -/
  | opened
  /-- Some elements are done, and the next one has this value so far. -/
  | number (done : List UInt8) (value : Nat)
  /-- Some elements are done. -/
  | ended (done : List UInt8)
  /-- The numbers read so far are followed by a comma. -/
  | comma (done : List UInt8)
  /-- The array's bracket is closed. -/
  | closed (done : List UInt8)

/-- What may follow an element. -/
def Reading.after (done : List UInt8) (character : Char) : Option Reading :=
  if character = ',' then some (.comma done)
  else if character = ']' then some (.closed done)
  else if white character then some (.ended done)
  else none

/-- Read one character. -/
def Reading.read : Reading → Char → Option Reading
  | .start, character =>
    if character = '[' then some .opened
    else if white character then some .start
    else none
  | .opened, character =>
    if character = ']' then some (.closed [])
    else if white character then some .opened
    else (digit? character).map (.number [])
  | .number done value, character =>
    match digit? character with
    | some digit =>
      -- No number starts with a zero that it does not need, and none is larger than a byte.
      if value = 0 ∨ 256 ≤ 10 * value + digit then none
      else some (.number done (10 * value + digit))
    | none => after (done ++ [UInt8.ofNat value]) character
  | .ended done, character => after done character
  | .comma done, character =>
    if white character then some (.comma done) else (digit? character).map (.number done)
  | .closed done, character => if white character then some (.closed done) else none

/-- Read an array of bytes. -/
def readBytes (text : List Char) : Option (List UInt8) :=
  match text.foldlM Reading.read .start with
  | some (.closed content) => some content
  | _ => none

/-! ## Reading back -/

/-- The digit of a value has that value. -/
theorem digit?_digitChar : ∀ digit < 10, digit? digit.digitChar = some digit := by decide

/-- Where a digit begins an element, the digits of a byte are read as its value. -/
theorem read_digits {reading : Reading} {done : List UInt8}
    (begins : ∀ digit < 10, reading.read digit.digitChar = some (.number done digit)) (value : Nat)
    (byte : value < 256) :
    (Nat.toDigits 10 value).foldlM Reading.read reading = some (.number done value) := by
  induction value using Nat.strong_induction_on with
  | _ value ih =>
    by_cases small : value < 10
    · rw [Nat.toDigits_of_lt_base small, List.foldlM_cons, begins value small]
      rfl
    · have digit : value % 10 < 10 := Nat.mod_lt _ (by decide)
      have front := ih (value / 10) (by omega) (by omega)
      have whole : 10 * (value / 10) + value % 10 = value := Nat.div_add_mod value 10
      have fits : ¬(value / 10 = 0 ∨ 256 ≤ value) := by omega
      rw [Nat.toDigits_of_base_le (by decide) (by omega), List.foldlM_append, front]
      show (Reading.number done (value / 10)).read (value % 10).digitChar >>= pure = _
      simp only [Reading.read, digit?_digitChar _ digit, whole, if_neg fits]
      rfl

/-- An element and all that follow are read to the end. -/
theorem read_later (later done : List UInt8) (byte : UInt8) :
    (later.flatMap (fun next => ',' :: Nat.toDigits 10 next.toNat) ++ [']']).foldlM Reading.read
      (.number done byte.toNat) = some (.closed (done ++ byte :: later)) := by
  induction later generalizing done byte with
  | nil =>
    have close : (Reading.number done byte.toNat).read ']' = some (.closed (done ++ [byte])) := by
      simp [Reading.read, digit?, Reading.after]
    simp [close]
  | cons next later ih =>
    have separates : (Reading.number done byte.toNat).read ',' =
        some (.comma (done ++ [byte])) := by
      simp [Reading.read, digit?, Reading.after]
    have begins : ∀ digit < 10, (Reading.comma (done ++ [byte])).read digit.digitChar =
        some (.number (done ++ [byte]) digit) := by
      intro digit small
      interval_cases digit <;> rfl
    have digits := read_digits begins next.toNat next.toNat_lt
    rw [List.flatMap_cons, List.append_assoc, List.cons_append, List.foldlM_cons, separates]
    show (Nat.toDigits 10 next.toNat ++ _).foldlM Reading.read _ = _
    rw [List.foldlM_append, digits]
    show List.foldlM Reading.read _ _ = _
    rw [ih, List.append_assoc, List.singleton_append]

/-- What was written is read back. -/
theorem readBytes_bytes (content : List UInt8) : readBytes (bytes content) = some content := by
  cases content with
  | nil => rfl
  | cons byte later =>
    have begins : ∀ digit < 10, Reading.opened.read digit.digitChar = some (.number [] digit) := by
      intro digit small
      interval_cases digit <;> rfl
    have read : (bytes (byte :: later)).foldlM Reading.read .start =
        some (.closed (byte :: later)) := by
      show (Nat.toDigits 10 byte.toNat ++ _).foldlM Reading.read .opened = _
      rw [List.foldlM_append, read_digits begins byte.toNat byte.toNat_lt]
      exact read_later later [] byte
    rw [readBytes, read]

example : readBytes "[ 7,255 ]".toList = some [7, 255] := by decide

example : readBytes "[07]".toList = none := by decide

/-- The text is made of digits, commas and brackets. -/
theorem mem_bytes {content : List UInt8} {character : Char} (member : character ∈ bytes content) :
    character.isDigit = true ∨ character ∈ ['[', ',', ']'] := by
  rcases List.mem_cons.mp member with rfl | inside
  · exact .inr (by decide)
  · have digits (byte : UInt8) : ∀ symbol ∈ Nat.toDigits 10 byte.toNat,
        symbol.isDigit = true ∨ symbol ∈ ['[', ',', ']'] :=
      fun symbol here => .inl (Nat.isDigit_of_mem_toDigits (by decide) (by decide) here)
    exact separated_forall digits (.inr (by decide)) (.inr (by decide)) content character inside

end Json
