import Mathlib.Data.List.Basic

/-!
# Compact JSON

Codes that show where they end, so that what follows an encoding never blurs it:
pairs of such codes, and lists of them between separators, are such codes again.
The compact JSON text of an object whose values are strings and arrays of strings
is one, and has no control character in it.
-/

namespace Json

/-! ## Codes that show where they end -/

/-- An encoding and what follows it are told apart. -/
def SelfDelimiting {α σ : Type} (encode : α → List σ) : Prop :=
  ∀ ⦃a b : α⦄ ⦃rest rest' : List σ⦄, encode a ++ rest = encode b ++ rest' → a = b ∧ rest = rest'

/-- No encoding starts with this symbol. -/
def Avoids {α σ : Type} (encode : α → List σ) (symbol : σ) : Prop :=
  ∀ a rest rest', encode a ++ rest ≠ symbol :: rest'

/-- The encodings of a list with a separator in between and a closing symbol. -/
def separated {α σ : Type} (encode : α → List σ) (separator closing : σ) : List α → List σ
  | [] => [closing]
  | first :: later =>
    encode first ++ (later.flatMap (fun next => separator :: encode next) ++ [closing])

section Codes

variable {α β σ : Type} {encode : α → List σ} {encode' : β → List σ}

/-- Such a code is injective. -/
theorem SelfDelimiting.injective (delimiting : SelfDelimiting encode) :
    Function.Injective encode := by
  intro a b same
  have ended : encode a ++ [] = encode b ++ [] := by rw [same]
  exact (delimiting ended).1

/-- What reads an encoding off the front of any text shows where it ends. -/
theorem SelfDelimiting.of_read (read : List σ → Option (α × List σ))
    (reads : ∀ a rest, read (encode a ++ rest) = some (a, rest)) : SelfDelimiting encode := by
  intro a b rest rest' same
  have twice : some (a, rest) = some (b, rest') := by rw [← reads, ← reads, same]
  exact Prod.mk.inj (Option.some.inj twice)

/-- One code after another. -/
theorem SelfDelimiting.pair (first : SelfDelimiting encode) (second : SelfDelimiting encode') :
    SelfDelimiting fun both : α × β => encode both.1 ++ encode' both.2 := by
  rintro ⟨a, b⟩ ⟨a', b'⟩ rest rest' same
  rw [List.append_assoc, List.append_assoc] at same
  obtain ⟨rfl, later⟩ := first same
  obtain ⟨rfl, rfl⟩ := second later
  exact ⟨rfl, rfl⟩

/-- A code of what determines a value is a code of the value. -/
theorem SelfDelimiting.comp (delimiting : SelfDelimiting encode) {view : β → α}
    (injective : Function.Injective view) : SelfDelimiting fun b => encode (view b) := by
  intro b b' rest rest' same
  obtain ⟨viewed, followed⟩ := delimiting same
  exact ⟨injective viewed, followed⟩

/-- A symbol in front. -/
theorem SelfDelimiting.cons (delimiting : SelfDelimiting encode) (symbol : σ) :
    SelfDelimiting fun a => symbol :: encode a := by
  intro a b rest rest' same
  exact delimiting (List.cons.inj same).2

/-- A symbol in front is not another symbol. -/
theorem avoids_cons {symbol other : σ} (apart : symbol ≠ other) :
    Avoids (fun a => symbol :: encode a) other :=
  fun _ _ _ same => apart (List.cons.inj same).1

/-- A list up to a symbol that none of its elements starts with. -/
theorem SelfDelimiting.ended (delimiting : SelfDelimiting encode) {closing : σ}
    (avoids : Avoids encode closing) :
    SelfDelimiting fun list : List α => list.flatMap encode ++ [closing] := by
  intro list
  induction list with
  | nil =>
    rintro (_ | ⟨b, list'⟩) rest rest' same
    · exact ⟨rfl, (List.cons.inj same).2⟩
    · simp only [List.flatMap_cons, List.append_assoc] at same
      exact absurd same.symm (avoids b _ rest)
  | cons a list ih =>
    rintro (_ | ⟨b, list'⟩) rest rest' same
    · simp only [List.flatMap_cons, List.append_assoc] at same
      exact absurd same (avoids a _ rest')
    · simp only [List.flatMap_cons, List.append_assoc] at same
      obtain ⟨rfl, later⟩ := delimiting same
      rw [← List.append_assoc, ← List.append_assoc] at later
      obtain ⟨rfl, followed⟩ := ih later
      exact ⟨rfl, followed⟩

/-- A list with separators up to a closing symbol. -/
theorem SelfDelimiting.separated (delimiting : SelfDelimiting encode) {separator closing : σ}
    (apart : separator ≠ closing) (avoids : Avoids encode closing) :
    SelfDelimiting (Json.separated encode separator closing) := by
  have tails := (delimiting.cons separator).ended (avoids_cons apart)
  rintro (_ | ⟨a, list⟩) (_ | ⟨b, list'⟩) rest rest' same
  · exact ⟨rfl, (List.cons.inj same).2⟩
  · simp only [Json.separated, List.append_assoc] at same
    exact absurd same.symm (avoids b _ rest)
  · simp only [Json.separated, List.append_assoc] at same
    exact absurd same (avoids a _ rest')
  · simp only [Json.separated, List.append_assoc] at same
    obtain ⟨rfl, later⟩ := delimiting same
    rw [← List.append_assoc, ← List.append_assoc] at later
    obtain ⟨rfl, followed⟩ := tails later
    exact ⟨rfl, followed⟩

/-- What holds of every symbol of the encodings, the separator and the closing symbol holds of the
whole. -/
theorem separated_forall {property : σ → Prop} {separator closing : σ}
    (elements : ∀ a, ∀ symbol ∈ encode a, property symbol) (separates : property separator)
    (closes : property closing) (list : List α) :
    ∀ symbol ∈ separated encode separator closing list, property symbol := by
  intro symbol member
  cases list with
  | nil =>
    obtain rfl := List.mem_singleton.mp member
    exact closes
  | cons first later =>
    simp only [separated, List.mem_append, List.mem_flatMap, List.mem_cons, List.not_mem_nil,
      or_false] at member
    rcases member with here | ⟨next, -, rfl | there⟩ | rfl
    · exact elements first symbol here
    · exact separates
    · exact elements next symbol there
    · exact closes

end Codes

/-! ## Strings -/

/-- A hexadecimal digit, in lower case. -/
def hexDigit (value : Nat) : Char :=
  Char.ofNat (if value < 10 then value + 48 else value + 87)

/-- The value of a hexadecimal digit. -/
def hexValue (digit : Char) : Nat :=
  if digit.toNat < 58 then digit.toNat - 48 else digit.toNat - 87

/-- A digit has its value. -/
theorem hexValue_hexDigit : ∀ value < 16, hexValue (hexDigit value) = value := by decide

/-- A digit is no control character. -/
theorem hexDigit_printable : ∀ value < 16, 32 ≤ (hexDigit value).toNat := by decide

/-- A character inside a JSON string: quote, backslash and control characters are escaped. -/
def escape (character : Char) : List Char :=
  if character = '\x22' then ['\x5c', '\x22']
  else if character = '\x5c' then ['\x5c', '\x5c']
  else if character = '\x08' then ['\x5c', 'b']
  else if character = '\x09' then ['\x5c', 't']
  else if character = '\x0a' then ['\x5c', 'n']
  else if character = '\x0c' then ['\x5c', 'f']
  else if character = '\x0d' then ['\x5c', 'r']
  else if character.toNat < 32 then
    ['\x5c', 'u', '0', '0', hexDigit (character.toNat / 16), hexDigit (character.toNat % 16)]
  else [character]

/-- The character that a letter after a backslash stands for. -/
def unescape : Char → Option Char
  | '\x22' => some '\x22'
  | '\x5c' => some '\x5c'
  | 'b' => some '\x08'
  | 't' => some '\x09'
  | 'n' => some '\x0a'
  | 'f' => some '\x0c'
  | 'r' => some '\x0d'
  | _ => none

/-- Read one character of a JSON string. -/
def readEscaped : List Char → Option (Char × List Char)
  | [] => none
  | first :: rest =>
    if first = '\x22' then none
    else if first = '\x5c' then
      match rest with
      | 'u' :: _ :: _ :: high :: low :: later =>
        some (Char.ofNat (16 * hexValue high + hexValue low), later)
      | letter :: later => (unescape letter).map fun character => (character, later)
      | [] => none
    else some (first, rest)

/-- Reading an escaped character gives it back, with what follows. -/
theorem readEscaped_escape (character : Char) (rest : List Char) :
    readEscaped (escape character ++ rest) = some (character, rest) := by
  unfold escape
  split
  · subst_vars; rfl
  split
  · subst_vars; rfl
  split
  · subst_vars; rfl
  split
  · subst_vars; rfl
  split
  · subst_vars; rfl
  split
  · subst_vars; rfl
  split
  · subst_vars; rfl
  split
  case isTrue control =>
    have high := hexValue_hexDigit (character.toNat / 16) (by omega)
    have low := hexValue_hexDigit (character.toNat % 16) (by omega)
    have value : 16 * (character.toNat / 16) + character.toNat % 16 = character.toNat := by omega
    simp only [List.cons_append, List.nil_append]
    rw [readEscaped]
    simp only [high, low, value, Char.ofNat_toNat]
    rfl
  case isFalse quote backslash _ _ _ _ _ _ =>
    rw [List.singleton_append]
    simp only [readEscaped, quote, backslash, if_false]

/-- An escaped character shows where it ends. -/
theorem escape_delimiting : SelfDelimiting escape := .of_read readEscaped readEscaped_escape

/-- An escaped character does not start with a quote. -/
theorem escape_avoids : Avoids escape '\x22' := by
  intro character rest rest' same
  have read := readEscaped_escape character rest
  rw [same] at read
  contradiction

/-- A backslash and a letter are no control characters. -/
theorem letter_printable {letter : Char} (printable : 32 ≤ letter.toNat) :
    ∀ symbol ∈ ['\x5c', letter], 32 ≤ symbol.toNat := by
  intro symbol member
  simp only [List.mem_cons, List.not_mem_nil, or_false] at member
  rcases member with rfl | rfl
  · decide
  · exact printable

/-- An escaped character has no control character. -/
theorem escape_printable (character : Char) : ∀ symbol ∈ escape character, 32 ≤ symbol.toNat := by
  unfold escape
  split
  · exact letter_printable (by decide)
  split
  · exact letter_printable (by decide)
  split
  · exact letter_printable (by decide)
  split
  · exact letter_printable (by decide)
  split
  · exact letter_printable (by decide)
  split
  · exact letter_printable (by decide)
  split
  · exact letter_printable (by decide)
  split
  case isTrue control =>
    have high := hexDigit_printable (character.toNat / 16) (by omega)
    have low := hexDigit_printable (character.toNat % 16) (by omega)
    intro symbol member
    simp only [List.mem_cons, List.not_mem_nil, or_false] at member
    rcases member with rfl | rfl | rfl | rfl | rfl | rfl
    · decide
    · decide
    · decide
    · decide
    · exact high
    · exact low
  case isFalse control =>
    intro symbol member
    obtain rfl := List.mem_singleton.mp member
    omega

/-- A string between quotes. -/
def text (content : String) : List Char :=
  '\x22' :: (content.toList.flatMap escape ++ ['\x22'])

/-- A string shows where it ends. -/
theorem text_delimiting : SelfDelimiting text := by
  have ended := (escape_delimiting.ended escape_avoids).cons '\x22'
  exact ended.comp fun _ _ same => String.toList_inj.mp same

/-- A string's text starts with a quote. -/
theorem text_avoids {symbol : Char} (apart : '\x22' ≠ symbol) : Avoids text symbol :=
  fun _ _ _ same => apart (List.cons.inj same).1

/-- A string's text has no control character. -/
theorem text_printable (content : String) : ∀ symbol ∈ text content, 32 ≤ symbol.toNat := by
  intro symbol member
  simp only [text, List.mem_cons, List.mem_append, List.mem_flatMap, List.not_mem_nil,
    or_false] at member
  rcases member with rfl | ⟨character, -, here⟩ | rfl
  · decide
  · exact escape_printable character symbol here
  · decide

/-! ## Objects -/

/-- A value of a field. -/
inductive Value
  /-- A string. -/
  | string (content : String)
  /-- An array of strings. -/
  | strings (contents : List String)
  deriving DecidableEq, Repr

/-- The text of an array of strings. -/
def array : List String → List Char := separated text ',' ']'

/-- The text of a value. -/
def value : Value → List Char
  | .string content => text content
  | .strings contents => '[' :: array contents

/-- The text of a field. -/
def field (entry : String × Value) : List Char := text entry.1 ++ ':' :: value entry.2

/-- The text of an object, its fields in order. -/
def object (fields : List (String × Value)) : String :=
  String.ofList ('\x7b' :: separated field ',' '\x7d' fields)

/-- An array shows where it ends. -/
theorem array_delimiting : SelfDelimiting array :=
  text_delimiting.separated (by decide) (text_avoids (by decide))

/-- A value's text tells where it ends. -/
theorem value_delimiting : SelfDelimiting value := by
  rintro (content | contents) (content' | contents') rest rest' same
  · obtain ⟨rfl, followed⟩ := text_delimiting same
    exact ⟨rfl, followed⟩
  · exact absurd same (text_avoids (by decide) _ _ _)
  · exact absurd same.symm (text_avoids (by decide) _ _ _)
  · obtain ⟨rfl, followed⟩ := array_delimiting (List.cons.inj same).2
    exact ⟨rfl, followed⟩

/-- A field's text tells where it ends. -/
theorem field_delimiting : SelfDelimiting field :=
  text_delimiting.pair (value_delimiting.cons ':')

/-- Objects with one text have the same fields. -/
theorem object_injective : Function.Injective object := by
  intro fields fields' same
  have avoids : Avoids field '\x7d' := fun _ _ _ same =>
    absurd (List.cons.inj same).1 (by decide)
  have delimiting : SelfDelimiting (separated field ',' '\x7d') :=
    field_delimiting.separated (by decide) avoids
  exact (delimiting.cons '\x7b').injective (String.ofList_injective same)

/-- An object's text has no control character, so it is one line. -/
theorem object_printable (fields : List (String × Value)) :
    ∀ symbol ∈ (object fields).toList, 32 ≤ symbol.toNat := by
  have values (given : Value) : ∀ symbol ∈ value given, 32 ≤ symbol.toNat := by
    cases given with
    | string content => exact text_printable content
    | strings contents =>
      refine List.forall_mem_cons.mpr ⟨by decide, ?_⟩
      exact separated_forall text_printable (by decide) (by decide) contents
  have entries (entry : String × Value) : ∀ symbol ∈ field entry, 32 ≤ symbol.toNat := by
    refine List.forall_mem_append.mpr ⟨text_printable entry.1, ?_⟩
    exact List.forall_mem_cons.mpr ⟨by decide, values entry.2⟩
  rw [object, String.toList_ofList]
  refine List.forall_mem_cons.mpr ⟨by decide, ?_⟩
  exact separated_forall entries (by decide) (by decide) fields

end Json
