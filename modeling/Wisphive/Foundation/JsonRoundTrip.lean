import Wisphive.Foundation.JsonReader

/-! What strings and numbers are read back as, and the values that can be read back. -/

namespace Foundation
namespace Json

theorem skipSpace_mark (char : Char) (rest : List Char) (solid : isSpace char = false) :
    skipSpace (char :: rest) = char :: rest := by
  rw [skipSpace, List.dropWhile_cons_of_neg]
  rw [solid]
  decide

/-! ### Strings -/

theorem readChars_quote (rest : List Char) : readChars ('"' :: rest) = some ([], rest) := by
  rw [readChars.eq_def]
  simp only [if_true]

theorem readChars_plain {char : Char} (rest : List Char) (unquoted : char ≠ '"') (unescaped : char ≠ '\\')
    (printable : ¬ char.toNat < 32) : readChars (char :: rest) = (readChars rest).map (inFront char) := by
  rw [readChars.eq_def]
  simp only [unquoted, unescaped, printable, if_false]

theorem readChars_short {kind char : Char} (rest : List Char) (known : shortEscape kind = some char) :
    readChars ('\\' :: kind :: rest) = (readChars rest).map (inFront char) := by
  have differs : kind ≠ 'u' := by
    rintro rfl
    cases known
  rw [readChars.eq_def]
  simp only [show ('\\' : Char) ≠ '"' by decide, if_false, if_true]
  split
  next same =>
    cases same
    exact absurd rfl differs
  next same =>
    cases same
    simp only [known]
  next same => cases same

theorem readChars_control {a b : Char} {unit : Nat} (rest : List Char)
    (known : hexNumber ['0', '0', a, b] = some unit) (low : unit < 0xD800) :
    readChars ('\\' :: 'u' :: '0' :: '0' :: a :: b :: rest) = (readChars rest).map (inFront (Char.ofNat unit)) := by
  rw [readChars.eq_def]
  simp only [show ('\\' : Char) ≠ '"' by decide, if_false, if_true, known]
  rw [if_neg (by omega), if_neg (by omega)]

theorem hexNumber_control : ∀ code : Fin 32,
    hexNumber ['0', '0', hexDigit (code.val / 16), hexDigit (code.val % 16)] = some code.val := by
  decide

/-- An escape stands for its character. -/
theorem readChars_escapeChar (char : Char) (rest : List Char) :
    readChars (escapeChar char ++ rest) = (readChars rest).map (inFront char) := by
  unfold escapeChar
  split
  next same =>
    subst same
    exact readChars_short rest rfl
  split
  next same =>
    subst same
    exact readChars_short rest rfl
  split
  next same =>
    subst same
    exact readChars_short rest rfl
  split
  next same =>
    subst same
    exact readChars_short rest rfl
  split
  next same =>
    subst same
    exact readChars_short rest rfl
  split
  next code =>
    have same : Char.ofNat 8 = char := code ▸ Char.ofNat_toNat char
    exact readChars_short rest (congrArg some same)
  split
  next code =>
    have same : Char.ofNat 12 = char := code ▸ Char.ofNat_toNat char
    exact readChars_short rest (congrArg some same)
  split
  next control =>
    have known := hexNumber_control ⟨char.toNat, control⟩
    rw [List.cons_append, List.cons_append, List.cons_append, List.cons_append, List.cons_append, List.cons_append,
      List.nil_append, readChars_control rest known (by dsimp only; omega)]
    dsimp only
    rw [Char.ofNat_toNat]
  next unquoted unescaped _ _ _ _ _ printable => exact readChars_plain rest unquoted unescaped printable

theorem readChars_escaped (chars rest : List Char) :
    readChars (chars.flatMap escapeChar ++ '"' :: rest) = some (chars, rest) := by
  induction chars with
  | nil => exact readChars_quote rest
  | cons char more ih =>
    rw [List.flatMap_cons, List.append_assoc, readChars_escapeChar, ih]
    rfl

theorem renderString_append (text : String) (rest : List Char) :
    renderString text ++ rest = '"' :: (text.toList.flatMap escapeChar ++ '"' :: rest) := by
  rw [renderString, List.append_assoc, List.singleton_append, List.cons_append]

/-! ### Numbers -/

/-- What can follow a number. -/
def Follows (rest : List Char) : Prop :=
  ∀ char ∈ rest.head?, char.isDigit = false ∧ char ≠ '.' ∧ char ≠ 'e' ∧ char ≠ 'E'

theorem digits_append {whole rest : List Char} (all : ∀ char ∈ whole, char.isDigit = true) (follows : Follows rest) :
    digits (whole ++ rest) = (whole, rest) := by
  have stops : rest.takeWhile Char.isDigit = [] ∧ rest.dropWhile Char.isDigit = rest := by
    cases rest with
    | nil => exact ⟨rfl, rfl⟩
    | cons char more =>
      have stop := (follows char rfl).1
      exact ⟨List.takeWhile_cons_of_neg (by simp [stop]), List.dropWhile_cons_of_neg (by simp [stop])⟩
  rw [digits, List.takeWhile_append_of_pos all, List.dropWhile_append_of_pos all, stops.1, stops.2, List.append_nil]

theorem readFraction_follows {rest : List Char} (follows : Follows rest) : readFraction rest = some ([], rest) := by
  rw [readFraction.eq_def]
  split
  · exact absurd rfl (follows _ rfl).2.1
  · rfl

theorem readExponent_follows {rest : List Char} (follows : Follows rest) : readExponent rest = some ([], rest) := by
  cases rest with
  | nil => rfl
  | cons char more =>
    obtain ⟨_, _, small, large⟩ := follows char rfl
    rw [readExponent.eq_def]
    simp only [small, large, or_self, if_false]

section
variable {float : String → Option String}

/-- Only zero starts with a zero. -/
theorem toDigits_head {value : Nat} (positive : 0 < value) : (Nat.toDigits 10 value).head? ≠ some '0' := by
  induction value using Nat.strongRecOn with
  | ind value ih =>
    rw [Nat.toDigits_eq_if (by decide)]
    split
    next small =>
      have digit : ∀ value : Fin 10, 0 < value.val → [value.val.digitChar].head? ≠ some '0' := by decide
      exact digit ⟨value, small⟩ positive
    next large =>
      rw [List.head?_append_of_ne_nil _ Nat.toDigits_ne_nil]
      exact ih (value / 10) (by omega) (by omega)

theorem toDigits_unpadded {value : Nat} {char : Char} {rest : List Char} :
    Nat.toDigits 10 value ≠ '0' :: char :: rest := by
  intro padded
  cases Nat.eq_zero_or_pos value with
  | inl zero =>
    rw [zero, Nat.toDigits_zero] at padded
    cases padded
  | inr positive => exact toDigits_head positive (congrArg List.head? padded)

theorem toDigits_isDigit {value : Nat} : ∀ char ∈ Nat.toDigits 10 value, char.isDigit = true :=
  fun _ member => Nat.isDigit_of_mem_toDigits (by decide) (by decide) member

theorem toDigits_unbroken {value : Nat} : '\n' ∉ Nat.toDigits 10 value :=
  fun member => absurd (toDigits_isDigit '\n' member) (by decide)

theorem readUnsigned_digits (negative : Bool) (value : Nat) {rest : List Char} (follows : Follows rest) :
    readUnsigned float negative (Nat.toDigits 10 value ++ rest) =
      (numberOf float negative (Nat.toDigits 10 value) []).map fun number => (number, rest) := by
  rw [readUnsigned, digits_append toDigits_isDigit follows]
  split
  next empty => exact absurd (Prod.mk.inj empty).1 Nat.toDigits_ne_nil
  next padded => exact absurd (Prod.mk.inj padded).1 toDigits_unpadded
  next same =>
    cases same
    simp only [readFraction_follows follows, readExponent_follows follows, List.append_nil]

/-- A number that stands on one line and is read back wherever it can end. -/
structure Legible (float : String → Option String) (number : Number) : Prop where
  starts : ∃ char rest, renderNumber number = char :: rest ∧ (char = '-' ∨ char.isDigit = true)
  unbroken : '\n' ∉ renderNumber number
  read : ∀ {rest}, Follows rest → readNumber float (renderNumber number ++ rest) = some (number, rest)

theorem legible_nat {value : Nat} (bound : value < 2 ^ 64) : Legible float (.integer value) := by
  have text : renderNumber (.integer value) = Nat.toDigits 10 value := Nat.toList_repr
  obtain ⟨char, rest, shape⟩ := List.exists_cons_of_ne_nil (Nat.toDigits_ne_nil (b := 10) (n := value))
  have digit : char.isDigit = true := toDigits_isDigit char (shape ▸ List.mem_cons_self ..)
  refine ⟨⟨char, rest, text.trans shape, .inr digit⟩, text ▸ toDigits_unbroken, fun {after} follows => ?_⟩
  have unsigned : readNumber float (Nat.toDigits 10 value ++ after) =
      readUnsigned float false (Nat.toDigits 10 value ++ after) := by
    rw [readNumber.eq_def]
    split
    next signed =>
      rw [shape, List.cons_append] at signed
      cases signed
      exact absurd digit (by decide)
    next => rfl
  have whole : numberOf float false (Nat.toDigits 10 value) [] = some (.integer value) := by
    simp only [numberOf, ne_eq, not_true_eq_false, if_false, Bool.false_eq_true, Nat.ofDigitChars_ten_toDigits]
    exact if_neg (Nat.not_le.mpr bound)
  rw [text, unsigned, readUnsigned_digits false value follows, whole]
  rfl

theorem legible_negative {value : Nat} (positive : 0 < value) (bound : value ≤ 2 ^ 63) :
    Legible float (.integer (-value)) := by
  have text : renderNumber (.integer (-value)) = '-' :: Nat.toDigits 10 value := by
    obtain ⟨before, rfl⟩ := Nat.exists_eq_add_of_lt positive
    rw [Nat.zero_add]
    exact (String.toList_append ..).trans (congrArg _ Nat.toList_repr)
  have unbroken : '\n' ∉ renderNumber (.integer (-value)) := by
    rw [text, List.mem_cons, not_or]
    exact ⟨by decide, toDigits_unbroken⟩
  refine ⟨⟨'-', _, text, .inl rfl⟩, unbroken, fun {after} follows => ?_⟩
  have whole : numberOf float true (Nat.toDigits 10 value) [] = some (.integer (-value)) := by
    simp only [numberOf, ne_eq, not_true_eq_false, if_false, if_true, Nat.ofDigitChars_ten_toDigits]
    exact if_neg (by omega)
  rw [text, List.cons_append, readNumber, readUnsigned_digits true value follows, whole]
  rfl

/-- A number on one line that is read as another one wherever it can end. -/
structure ReadAs (float : String → Option String) (number other : Number) : Prop where
  starts : ∃ char rest, renderNumber number = char :: rest ∧ (char = '-' ∨ char.isDigit = true)
  unbroken : '\n' ∉ renderNumber number
  read : ∀ {rest}, Follows rest → readNumber float (renderNumber number ++ rest) = some (other, rest)

theorem Legible.readAs {number : Number} (legible : Legible float number) : ReadAs float number number :=
  ⟨legible.starts, legible.unbroken, legible.read⟩

/-! ### Values -/

theorem readScalar_number {char : Char} (rest : List Char) (starts : char = '-' ∨ char.isDigit = true) :
    readScalar float (char :: rest) =
      (readNumber float (char :: rest)).map fun (value, rest) => (.number value, rest) := by
  have word : ∀ letter ∈ ['n', 't', 'f'], char ≠ letter := by
    intro letter member same
    rw [same] at starts
    simp only [List.mem_cons, List.not_mem_nil, or_false] at member
    revert starts
    rcases member with rfl | rfl | rfl <;> decide
  rw [readScalar.eq_def]
  split
  next same => exact absurd (List.cons.inj same).1 (word _ (by decide))
  next same => exact absurd (List.cons.inj same).1 (word _ (by decide))
  next same => exact absurd (List.cons.inj same).1 (word _ (by decide))
  next => rfl

theorem unmarked {char : Char} (unquoted : char ≠ '"') (unlisted : char ≠ '[') (unbraced : char ≠ '{') :
    ∀ mark ∈ ['"', '[', '{'], char ≠ mark := by
  intro mark member
  simp only [List.mem_cons, List.not_mem_nil, or_false] at member
  rcases member with rfl | rfl | rfl
  · exact unquoted
  · exact unlisted
  · exact unbraced

/-- What starts no string and no container is a word or a number. -/
theorem readValue_scalar (fuel depth : Nat) {char : Char} {rest : List Char} (solid : isSpace char = false)
    (plain : ∀ mark ∈ ['"', '[', '{'], char ≠ mark) :
    readValue float (fuel + 1) depth (char :: rest) = readScalar float (char :: rest) := by
  rw [readValue.eq_def]
  simp only [skipSpace_mark char rest solid]
  split
  next first => exact absurd (List.cons.inj first).1 (plain _ (by decide))
  next first => exact absurd (List.cons.inj first).1 (plain _ (by decide))
  next first => exact absurd (List.cons.inj first).1 (plain _ (by decide))
  next first => exact absurd (List.cons.inj first).1 (plain _ (by decide))
  next first => exact absurd (List.cons.inj first).1 (plain _ (by decide))
  next => rfl

mutual
/-- What is read back when containers may nest to a depth. -/
def Readable (float : String → Option String) : (depth : Nat) → Json → Prop
  | _, .null | _, .bool _ | _, .string _ => True
  | _, .number value => Legible float value
  | 0, .array _ | 0, .object _ => False
  | depth + 1, .array items => ReadableItems float depth items
  | depth + 1, .object members => ReadableMembers float depth members

def ReadableItems (float : String → Option String) (depth : Nat) : List Json → Prop
  | [] => True
  | item :: rest => Readable float depth item ∧ ReadableItems float depth rest

def ReadableMembers (float : String → Option String) (depth : Nat) : List (String × Json) → Prop
  | [] => True
  | (_, value) :: rest => Readable float depth value ∧ ReadableMembers float depth rest
end

mutual
/-- A value with other numbers. -/
def mapNumbers (change : Number → Number) : Json → Json
  | .null => .null
  | .bool value => .bool value
  | .number value => .number (change value)
  | .string value => .string value
  | .array items => .array (mapItems change items)
  | .object members => .object (mapMembers change members)

def mapItems (change : Number → Number) : List Json → List Json
  | [] => []
  | item :: rest => mapNumbers change item :: mapItems change rest

def mapMembers (change : Number → Number) : List (String × Json) → List (String × Json)
  | [] => []
  | (name, value) :: rest => (name, mapNumbers change value) :: mapMembers change rest
end

mutual
/-- What is read, with its numbers changed, when containers may nest to a depth. -/
def Rereadable (float : String → Option String) (change : Number → Number) : (depth : Nat) → Json → Prop
  | _, .null | _, .bool _ | _, .string _ => True
  | _, .number value => ReadAs float value (change value)
  | 0, .array _ | 0, .object _ => False
  | depth + 1, .array items => RereadableItems float change depth items
  | depth + 1, .object members => RereadableMembers float change depth members

def RereadableItems (float : String → Option String) (change : Number → Number) (depth : Nat) : List Json → Prop
  | [] => True
  | item :: rest => Rereadable float change depth item ∧ RereadableItems float change depth rest

def RereadableMembers (float : String → Option String) (change : Number → Number) (depth : Nat) :
    List (String × Json) → Prop
  | [] => True
  | (_, value) :: rest => Rereadable float change depth value ∧ RereadableMembers float change depth rest
end

mutual
theorem mapNumbers_id : (value : Json) → mapNumbers id value = value
  | .null | .bool _ | .string _ | .number _ => rfl
  | .array items => by rw [mapNumbers, mapItems_id items]
  | .object members => by rw [mapNumbers, mapMembers_id members]

theorem mapItems_id : (items : List Json) → mapItems id items = items
  | [] => rfl
  | item :: rest => by rw [mapItems, mapNumbers_id item, mapItems_id rest]

theorem mapMembers_id : (members : List (String × Json)) → mapMembers id members = members
  | [] => rfl
  | (name, value) :: rest => by rw [mapMembers, mapNumbers_id value, mapMembers_id rest]
end

mutual
theorem Readable.rereadable {depth : Nat} : (value : Json) → Readable float depth value → Rereadable float id depth value
  | .null, _ | .bool _, _ | .string _, _ => by cases depth <;> trivial
  | .number _, readable => by cases depth <;> exact Legible.readAs readable
  | .array items, readable => by
    cases depth with
    | zero => exact readable.elim
    | succ depth => exact ReadableItems.rereadable items readable
  | .object members, readable => by
    cases depth with
    | zero => exact readable.elim
    | succ depth => exact ReadableMembers.rereadable members readable

theorem ReadableItems.rereadable {depth : Nat} :
    (items : List Json) → ReadableItems float depth items → RereadableItems float id depth items
  | [], _ => trivial
  | item :: rest, readable => ⟨Readable.rereadable item readable.1, ReadableItems.rereadable rest readable.2⟩

theorem ReadableMembers.rereadable {depth : Nat} :
    (members : List (String × Json)) → ReadableMembers float depth members → RereadableMembers float id depth members
  | [], _ => trivial
  | (_, value) :: rest, readable => ⟨Readable.rereadable value readable.1, ReadableMembers.rereadable rest readable.2⟩
end

section
variable {change : Number → Number}

theorem rereadable_number {depth : Nat} {value : Number} (rereadable : Rereadable float change depth (.number value)) :
    ReadAs float value (change value) := by
  cases depth <;> exact rereadable

theorem rereadable_string {depth : Nat} (text : String) : Rereadable float change depth (.string text) := by
  cases depth <;> trivial

theorem rereadable_array {depth : Nat} {items : List Json} (rereadable : Rereadable float change depth (.array items)) :
    ∃ below, depth = below + 1 ∧ RereadableItems float change below items := by
  cases depth with
  | zero => exact rereadable.elim
  | succ below => exact ⟨below, rfl, rereadable⟩

theorem rereadable_object {depth : Nat} {members : List (String × Json)}
    (rereadable : Rereadable float change depth (.object members)) :
    ∃ below, depth = below + 1 ∧ RereadableMembers float change below members := by
  cases depth with
  | zero => exact rereadable.elim
  | succ below => exact ⟨below, rfl, rereadable⟩

theorem isSpace_digit {char : Char} (digit : char.isDigit = true) : isSpace char = false := by
  unfold isSpace
  simp only [Bool.or_eq_false_iff, decide_eq_false_iff_not]
  refine ⟨⟨⟨?_, ?_⟩, ?_⟩, ?_⟩ <;>
    · rintro rfl
      revert digit
      decide

theorem follows_mark {mark : Char} (known : mark ∈ [',', ']', '}']) (rest : List Char) : Follows (mark :: rest) := by
  intro char first
  cases first
  simp only [List.mem_cons, List.not_mem_nil, or_false] at known
  rcases known with rfl | rfl | rfl <;> decide

theorem rereadableMembers_append {depth : Nat} {first later : List (String × Json)} :
    RereadableMembers float change depth (first ++ later) ↔
      RereadableMembers float change depth first ∧ RereadableMembers float change depth later := by
  induction first with
  | nil => exact ⟨fun readable => ⟨trivial, readable⟩, fun readable => readable.2⟩
  | cons member rest ih => simp only [List.cons_append, RereadableMembers, ih, and_assoc]

mutual
/-- What is read back is read back where containers may nest deeper. -/
theorem rereadable_add {depth more : Nat} :
    (value : Json) → Rereadable float change depth value → Rereadable float change (depth + more) value
  | .null, _ | .bool _, _ | .string _, _ => by cases depth + more <;> trivial
  | .number _, readable => by
    have number := rereadable_number readable
    cases depth + more <;> exact number
  | .array items, readable => by
    obtain ⟨below, rfl, listed⟩ := rereadable_array readable
    rw [Nat.succ_add]
    exact rereadableItems_add items listed
  | .object members, readable => by
    obtain ⟨below, rfl, listed⟩ := rereadable_object readable
    rw [Nat.succ_add]
    exact rereadableMembers_add members listed

theorem rereadableItems_add {depth more : Nat} :
    (items : List Json) → RereadableItems float change depth items → RereadableItems float change (depth + more) items
  | [], _ => trivial
  | item :: rest, readable => ⟨rereadable_add item readable.1, rereadableItems_add rest readable.2⟩

theorem rereadableMembers_add {depth more : Nat} : (members : List (String × Json)) →
    RereadableMembers float change depth members → RereadableMembers float change (depth + more) members
  | [], _ => trivial
  | (_, value) :: rest, readable => ⟨rereadable_add value readable.1, rereadableMembers_add rest readable.2⟩
end

theorem rereadableItems_of {depth : Nat} {items : List Json} (each : ∀ item ∈ items, Rereadable float change depth item) :
    RereadableItems float change depth items := by
  induction items with
  | nil => trivial
  | cons item rest ih =>
    exact ⟨each item (List.mem_cons_self ..), ih fun other member => each other (List.mem_cons_of_mem _ member)⟩

theorem hexDigit_unbroken : ∀ value : Fin 16, hexDigit value.val ≠ '\n' := by
  decide

theorem escapeChar_unbroken (char : Char) : '\n' ∉ escapeChar char := by
  unfold escapeChar
  split
  · decide
  split
  · decide
  split
  · decide
  split
  · decide
  split
  · decide
  split
  · decide
  split
  · decide
  split
  next control =>
    have upper := hexDigit_unbroken ⟨char.toNat / 16, by omega⟩
    have lower := hexDigit_unbroken ⟨char.toNat % 16, by omega⟩
    simp only [List.mem_cons, List.not_mem_nil, or_false, not_or]
    exact ⟨by decide, by decide, by decide, by decide, upper.symm, lower.symm⟩
  next differs _ _ _ _ _ => exact fun member => differs (List.mem_singleton.mp member).symm

theorem renderString_unbroken (text : String) : '\n' ∉ renderString text := by
  rw [renderString, List.mem_append, List.mem_cons, List.mem_flatMap]
  rintro ((same | ⟨char, _, member⟩) | member)
  · exact absurd same (by decide)
  · exact escapeChar_unbroken char member
  · exact absurd member (by decide)

mutual
/-- The text of a value is one line. -/
theorem renderChars_unbroken {depth : Nat} (value : Json) (readable : Rereadable float change depth value) :
    '\n' ∉ renderChars value := by
  match value, readable with
  | .null, _ | .bool true, _ | .bool false, _ => decide
  | .number value, readable => exact (rereadable_number readable).unbroken
  | .string text, _ => exact renderString_unbroken text
  | .array items, readable =>
    obtain ⟨depth, rfl, readable⟩ := rereadable_array readable
    simpa [renderChars] using renderItems_unbroken items readable
  | .object members, readable =>
    obtain ⟨depth, rfl, readable⟩ := rereadable_object readable
    simpa [renderChars] using renderMembers_unbroken members readable

theorem renderItems_unbroken {depth : Nat} (items : List Json) (readable : RereadableItems float change depth items) :
    '\n' ∉ renderItems items := by
  match items, readable with
  | [], _ => exact List.not_mem_nil
  | [item], readable => exact renderChars_unbroken item readable.1
  | item :: next :: rest, readable =>
    have first := renderChars_unbroken item readable.1
    have others := renderItems_unbroken (next :: rest) readable.2
    simp [renderItems, first, others]

theorem renderMembers_unbroken {depth : Nat} (members : List (String × Json))
    (readable : RereadableMembers float change depth members) : '\n' ∉ renderMembers members := by
  match members, readable with
  | [], _ => exact List.not_mem_nil
  | [(name, value)], readable =>
    have content := renderChars_unbroken value readable.1
    simp [renderMembers, renderString_unbroken name, content]
  | (name, value) :: next :: rest, readable =>
    have content := renderChars_unbroken value readable.1
    have others := renderMembers_unbroken (next :: rest) readable.2
    simp [renderMembers, renderString_unbroken name, content, others]
end

end
end

theorem readableMembers_append {depth : Nat} {first later : List (String × Json)} :
    ReadableMembers float depth (first ++ later) ↔
      ReadableMembers float depth first ∧ ReadableMembers float depth later := by
  induction first with
  | nil => exact ⟨fun readable => ⟨trivial, readable⟩, fun readable => readable.2⟩
  | cons member rest ih => simp only [List.cons_append, ReadableMembers, ih, and_assoc]

theorem readableItems_of {depth : Nat} {items : List Json} (each : ∀ item ∈ items, Readable float depth item) :
    ReadableItems float depth items := by
  induction items with
  | nil => trivial
  | cons item rest ih =>
    exact ⟨each item (List.mem_cons_self ..), ih fun other member => each other (List.mem_cons_of_mem _ member)⟩

end Json
end Foundation
