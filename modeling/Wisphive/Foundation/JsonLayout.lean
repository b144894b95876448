import Mathlib.Data.List.DropRight
import Wisphive.Foundation.JsonRoundTrip

/-! Texts of a value with space between the tokens. The reader passes over the space, so
that every layout of a value is read as the value, or is refused where it nests too deep. -/

namespace Foundation
namespace Json

/-- What stands in front of an item or a closing bracket, by the containers around it, and
what stands behind the colon of a member. -/
structure Layout where
  line : Nat → List Char
  gap : List Char
  line_blank : ∀ indent, ∀ char ∈ line indent, isSpace char = true
  gap_blank : ∀ char ∈ gap, isSpace char = true

namespace Layout
variable (layout : Layout)

/-- An empty container is closed where it was opened. -/
def ending {α : Type} (indent : Nat) : List α → List Char
  | [] => []
  | _ :: _ => layout.line indent

mutual
def text (indent : Nat) : Json → List Char
  | .null => "null".toList
  | .bool true => "true".toList
  | .bool false => "false".toList
  | .number value => renderNumber value
  | .string value => renderString value
  | .array items => '[' :: itemsText (indent + 1) items ++ (layout.ending indent items ++ [']'])
  | .object members => '{' :: membersText (indent + 1) members ++ (layout.ending indent members ++ ['}'])

def itemsText (indent : Nat) : List Json → List Char
  | [] => []
  | [item] => layout.line indent ++ text indent item
  | item :: next :: rest => layout.line indent ++ text indent item ++ ',' :: itemsText indent (next :: rest)

def membersText (indent : Nat) : List (String × Json) → List Char
  | [] => []
  | [(name, value)] => layout.line indent ++ (renderString name ++ ':' :: (layout.gap ++ text indent value))
  | (name, value) :: next :: rest =>
    layout.line indent ++ (renderString name ++ ':' :: (layout.gap ++ text indent value)) ++
      ',' :: membersText indent (next :: rest)
end

end Layout

/-- No space at all. -/
def compact : Layout where
  line _ := []
  gap := []
  line_blank _ _ member := by cases member
  gap_blank _ member := by cases member

/-- One item a line, two columns further in for each container around it. -/
def pretty : Layout where
  line indent := '\n' :: List.replicate (2 * indent) ' '
  gap := [' ']
  line_blank indent char member := by
    rcases List.mem_cons.mp member with rfl | column
    · rfl
    · rw [List.eq_of_mem_replicate column]
      rfl
  gap_blank char member := by
    rw [List.mem_singleton.mp member]
    rfl

/-- The text on several lines. -/
def renderPretty (value : Json) : String :=
  String.ofList (pretty.text 0 value)

mutual
theorem compact_text (indent : Nat) : (value : Json) → compact.text indent value = renderChars value
  | .null | .bool true | .bool false | .number _ | .string _ => by simp only [Layout.text, renderChars]
  | .array items => by
    have closed : compact.ending indent items = [] := by cases items <;> rfl
    rw [Layout.text, renderChars, compact_items (indent + 1) items, closed, List.nil_append]
  | .object members => by
    have closed : compact.ending indent members = [] := by cases members <;> rfl
    rw [Layout.text, renderChars, compact_members (indent + 1) members, closed, List.nil_append]

theorem compact_items (indent : Nat) : (items : List Json) → compact.itemsText indent items = renderItems items
  | [] => by rw [Layout.itemsText, renderItems]
  | [item] => by
    rw [Layout.itemsText, renderItems, compact_text indent item]
    rfl
  | item :: next :: rest => by
    rw [Layout.itemsText, renderItems, compact_text indent item, compact_items indent (next :: rest)]
    rfl

theorem compact_members (indent : Nat) :
    (members : List (String × Json)) → compact.membersText indent members = renderMembers members
  | [] => by rw [Layout.membersText, renderMembers]
  | [(name, value)] => by
    rw [Layout.membersText, renderMembers, compact_text indent value]
    rfl
  | (name, value) :: next :: rest => by
    rw [Layout.membersText, renderMembers, compact_text indent value, compact_members indent (next :: rest)]
    rfl
end

/-! ### Space -/

variable {float : String → Option String} {change : Number → Number} {blank : List Char}

theorem skipSpace_skipSpace (text : List Char) : skipSpace (skipSpace text) = skipSpace text := by
  unfold skipSpace
  exact List.dropWhile_idempotent ..

theorem skipSpace_blank (spaces : ∀ char ∈ blank, isSpace char = true) (rest : List Char) :
    skipSpace (blank ++ rest) = skipSpace rest :=
  List.dropWhile_append_of_pos spaces

theorem readValue_skipSpace (fuel depth : Nat) (text : List Char) :
    readValue float fuel depth (skipSpace text) = readValue float fuel depth text := by
  cases fuel with
  | zero => rw [readValue, readValue]
  | succ fuel =>
    rw [readValue.eq_def, readValue.eq_def float (fuel + 1) depth text]
    simp only [skipSpace_skipSpace]

theorem readItems_skipSpace (fuel depth : Nat) (text : List Char) :
    readItems float fuel depth (skipSpace text) = readItems float fuel depth text := by
  cases fuel with
  | zero => rw [readItems, readItems]
  | succ fuel => simp only [readItems, readValue_skipSpace]

theorem readMembers_skipSpace (fuel depth : Nat) (text : List Char) :
    readMembers float fuel depth (skipSpace text) = readMembers float fuel depth text := by
  cases fuel with
  | zero => rw [readMembers, readMembers]
  | succ fuel => simp only [readMembers, skipSpace_skipSpace]

theorem readValue_blank (spaces : ∀ char ∈ blank, isSpace char = true) (fuel depth : Nat) (rest : List Char) :
    readValue float fuel depth (blank ++ rest) = readValue float fuel depth rest := by
  rw [← readValue_skipSpace, skipSpace_blank spaces, readValue_skipSpace]

theorem follows_blank (spaces : ∀ char ∈ blank, isSpace char = true) {rest : List Char} (follows : Follows rest) :
    Follows (blank ++ rest) := by
  cases blank with
  | nil => exact follows
  | cons char more =>
    intro first same
    cases same
    have space := spaces char (List.mem_cons_self ..)
    unfold isSpace at space
    simp only [Bool.or_eq_true, decide_eq_true_eq] at space
    rcases space with ((rfl | rfl) | rfl) | rfl <;> decide

/-- A bracket that is not closed at once opens the first item. -/
theorem readValue_array (fuel depth : Nat) {text : List Char} {char : Char} {more : List Char}
    (first : skipSpace text = char :: more) (opened : char ≠ ']') :
    readValue float (fuel + 1) (depth + 1) ('[' :: text) =
      (readItems float fuel depth text).map fun (items, rest) => (.array items, rest) := by
  rw [readValue.eq_def]
  simp only [skipSpace_mark '[' _ rfl]
  rw [← readItems_skipSpace, first]
  split
  next closed => exact absurd (List.cons.inj closed).1 opened
  next => rfl

/-- A member starts with the quote of its name. -/
theorem readValue_object (fuel depth : Nat) {text more : List Char} (first : skipSpace text = '"' :: more) :
    readValue float (fuel + 1) (depth + 1) ('{' :: text) =
      (readMembers float fuel depth text).map fun (members, rest) => (.object members, rest) := by
  rw [readValue.eq_def]
  simp only [skipSpace_mark '{' _ rfl]
  rw [← readMembers_skipSpace, first]
  rfl

/-! ### Round trips -/

section
variable (layout : Layout)

/-- A value starts with neither space nor a closing bracket. -/
theorem text_starts {depth : Nat} (indent : Nat) {value : Json} (readable : Rereadable float change depth value) :
    ∃ char rest, layout.text indent value = char :: rest ∧ isSpace char = false ∧ char ≠ ']' := by
  match value with
  | .null | .bool true | .bool false => exact ⟨_, _, rfl, rfl, by decide⟩
  | .string _ | .array _ | .object _ => exact ⟨_, _, rfl, rfl, by decide⟩
  | .number value =>
    obtain ⟨char, rest, shape, starts⟩ := (rereadable_number readable).starts
    refine ⟨char, rest, shape, ?_, ?_⟩
    · rcases starts with rfl | digit
      · rfl
      · exact isSpace_digit digit
    · rintro rfl
      revert starts
      decide

theorem text_length {depth : Nat} (indent : Nat) {value : Json} (readable : Rereadable float change depth value) :
    0 < (layout.text indent value).length := by
  obtain ⟨char, rest, shape, _⟩ := text_starts layout indent readable
  rw [shape]
  exact Nat.succ_pos _

/-! ### One item and one member -/

section
variable {fuel depth indent : Nat} {item value : Json} {name : String} {after closing more rest : List Char}

theorem readItems_refused (refused : readValue float fuel depth after = none) :
    readItems float (fuel + 1) depth (layout.line indent ++ after) = none := by
  rw [readItems, readValue_blank (layout.line_blank indent), refused]

theorem readItems_last (spaces : ∀ char ∈ closing, isSpace char = true)
    (first : readValue float fuel depth after = some (item, closing ++ ']' :: rest)) :
    readItems float (fuel + 1) depth (layout.line indent ++ after) = some ([item], rest) := by
  rw [readItems, readValue_blank (layout.line_blank indent), first]
  simp only [skipSpace_blank spaces, skipSpace_mark ']' _ rfl]

theorem readItems_more (first : readValue float fuel depth after = some (item, ',' :: more)) :
    readItems float (fuel + 1) depth (layout.line indent ++ after) =
      (readItems float fuel depth more).map fun (items, rest) => (item :: items, rest) := by
  rw [readItems, readValue_blank (layout.line_blank indent), first]
  rfl

/-- The name of a member on its line, and what stands behind it. -/
def Layout.named (indent : Nat) (name : String) (after : List Char) : List Char :=
  layout.line indent ++ (renderString name ++ ':' :: (layout.gap ++ after))

theorem readMembers_refused (refused : readValue float fuel depth after = none) :
    readMembers float (fuel + 1) depth (layout.named indent name after) = none := by
  rw [Layout.named, readMembers, skipSpace_blank (layout.line_blank indent), renderString_append]
  simp only [skipSpace_mark '"' _ rfl, readChars_escaped, skipSpace_mark ':' _ rfl, readValue_blank layout.gap_blank,
    refused]

theorem readMembers_last (spaces : ∀ char ∈ closing, isSpace char = true)
    (first : readValue float fuel depth after = some (value, closing ++ '}' :: rest)) :
    readMembers float (fuel + 1) depth (layout.named indent name after) = some ([(name, value)], rest) := by
  rw [Layout.named, readMembers, skipSpace_blank (layout.line_blank indent), renderString_append]
  simp only [skipSpace_mark '"' _ rfl, readChars_escaped, skipSpace_mark ':' _ rfl, readValue_blank layout.gap_blank,
    first, skipSpace_blank spaces, skipSpace_mark '}' _ rfl, String.ofList_toList]

theorem readMembers_more (first : readValue float fuel depth after = some (value, ',' :: more)) :
    readMembers float (fuel + 1) depth (layout.named indent name after) =
      (readMembers float fuel depth more).map fun (members, rest) => ((name, value) :: members, rest) := by
  rw [Layout.named, readMembers, skipSpace_blank (layout.line_blank indent), renderString_append]
  simp only [skipSpace_mark '"' _ rfl, readChars_escaped, skipSpace_mark ':' _ rfl, readValue_blank layout.gap_blank,
    first, skipSpace_mark ',' _ rfl, String.ofList_toList]

theorem itemsText_last : layout.itemsText indent [item] ++ after = layout.line indent ++ (layout.text indent item ++ after) := by
  rw [Layout.itemsText, List.append_assoc]

theorem itemsText_more {next : Json} {items : List Json} : layout.itemsText indent (item :: next :: items) ++ after =
    layout.line indent ++ (layout.text indent item ++ ',' :: (layout.itemsText indent (next :: items) ++ after)) := by
  rw [Layout.itemsText, List.append_assoc, List.append_assoc, List.cons_append]

theorem membersText_last : layout.membersText indent [(name, value)] ++ after =
    layout.named indent name (layout.text indent value ++ after) := by
  simp only [Layout.membersText, Layout.named, List.append_assoc, List.cons_append]

theorem membersText_more {next : String × Json} {members : List (String × Json)} :
    layout.membersText indent ((name, value) :: next :: members) ++ after =
      layout.named indent name (layout.text indent value ++ ',' :: (layout.membersText indent (next :: members) ++ after)) := by
  simp only [Layout.membersText, Layout.named, List.append_assoc, List.cons_append]

end

theorem items_start {depth : Nat} (indent : Nat) {item : Json} (items : List Json) (after : List Char)
    (readable : Rereadable float change depth item) :
    ∃ char rest, skipSpace (layout.itemsText indent (item :: items) ++ after) = char :: rest ∧ char ≠ ']' := by
  obtain ⟨char, rest, shape, solid, opened⟩ := text_starts layout indent readable
  cases items with
  | nil =>
    rw [itemsText_last, skipSpace_blank (layout.line_blank indent), shape, List.cons_append, skipSpace_mark char _ solid]
    exact ⟨char, _, rfl, opened⟩
  | cons next items =>
    rw [itemsText_more, skipSpace_blank (layout.line_blank indent), shape, List.cons_append, skipSpace_mark char _ solid]
    exact ⟨char, _, rfl, opened⟩

theorem named_start (indent : Nat) (name : String) (after : List Char) :
    ∃ rest, skipSpace (layout.named indent name after) = '"' :: rest := by
  rw [Layout.named, skipSpace_blank (layout.line_blank indent), renderString_append, skipSpace_mark '"' _ rfl]
  exact ⟨_, rfl⟩

theorem members_start (indent : Nat) (member : String × Json) (members : List (String × Json)) (after : List Char) :
    ∃ rest, skipSpace (layout.membersText indent (member :: members) ++ after) = '"' :: rest := by
  obtain ⟨name, value⟩ := member
  cases members with
  | nil =>
    rw [membersText_last]
    exact named_start layout indent name _
  | cons next members =>
    rw [membersText_more]
    exact named_start layout indent name _

mutual
/-- What was written is read back. -/
theorem readValue_text {depth : Nat} (fuel indent : Nat) (rest : List Char) (value : Json)
    (readable : Rereadable float change depth value) (enough : 2 * (layout.text indent value).length ≤ fuel)
    (follows : Follows rest) :
    readValue float fuel depth (layout.text indent value ++ rest) = some (mapNumbers change value, rest) := by
  have positive := text_length layout indent readable
  obtain ⟨fuel, rfl⟩ := Nat.exists_eq_succ_of_ne_zero (n := fuel) (by omega)
  match value, readable with
  | .null, _ => exact readValue_scalar fuel depth rfl (unmarked (by decide) (by decide) (by decide))
  | .bool true, _ => exact readValue_scalar fuel depth rfl (unmarked (by decide) (by decide) (by decide))
  | .bool false, _ => exact readValue_scalar fuel depth rfl (unmarked (by decide) (by decide) (by decide))
  | .number value, readable =>
    have legible := rereadable_number readable
    obtain ⟨char, more, shape, starts⟩ := legible.starts
    have plain : isSpace char = false ∧ ∀ mark ∈ ['"', '[', '{'], char ≠ mark := by
      rcases starts with rfl | digit
      · exact ⟨by decide, unmarked (by decide) (by decide) (by decide)⟩
      · refine ⟨isSpace_digit digit, unmarked ?_ ?_ ?_⟩
        all_goals
          rintro rfl
          revert digit
          decide
    have number := legible.read follows
    rw [shape, List.cons_append] at number
    rw [Layout.text, shape, List.cons_append, readValue_scalar fuel depth plain.1 plain.2,
      readScalar_number _ starts, number]
    rfl
  | .string text, _ =>
    rw [Layout.text, renderString_append, readValue.eq_def]
    simp only [skipSpace_mark '"' _ rfl, readChars_escaped, Option.map_some, String.ofList_toList]
    rfl
  | .array items, readable =>
    obtain ⟨depth, rfl, readable⟩ := rereadable_array readable
    match items, readable with
    | [], _ => rfl
    | item :: items, readable =>
      have long : 2 * (layout.itemsText (indent + 1) (item :: items)).length + 1 ≤ fuel := by
        rw [Layout.text, List.length_append, List.length_cons] at enough
        omega
      have listed := readItems_text fuel (indent + 1) rest item items readable (layout.line indent)
        (layout.line_blank indent) long
      obtain ⟨char, more, shape, opened⟩ := items_start layout (indent + 1) items
        (layout.line indent ++ ']' :: rest) readable.1
      rw [Layout.text, List.append_assoc, List.append_assoc, List.cons_append, List.singleton_append,
        show layout.ending indent (item :: items) = layout.line indent from rfl,
        readValue_array fuel depth shape opened, listed]
      rfl
  | .object members, readable =>
    obtain ⟨depth, rfl, readable⟩ := rereadable_object readable
    match members, readable with
    | [], _ => rfl
    | member :: members, readable =>
      have long : 2 * (layout.membersText (indent + 1) (member :: members)).length + 1 ≤ fuel := by
        rw [Layout.text, List.length_append, List.length_cons] at enough
        omega
      have listed := readMembers_text fuel (indent + 1) rest member members readable (layout.line indent)
        (layout.line_blank indent) long
      obtain ⟨more, shape⟩ := members_start layout (indent + 1) member members (layout.line indent ++ '}' :: rest)
      rw [Layout.text, List.append_assoc, List.append_assoc, List.cons_append, List.singleton_append,
        show layout.ending indent (member :: members) = layout.line indent from rfl, readValue_object fuel depth shape,
        listed]
      rfl

theorem readItems_text {depth : Nat} (fuel indent : Nat) (rest : List Char) (item : Json) (items : List Json)
    (readable : RereadableItems float change depth (item :: items)) (closing : List Char)
    (spaces : ∀ char ∈ closing, isSpace char = true)
    (enough : 2 * (layout.itemsText indent (item :: items)).length + 1 ≤ fuel) :
    readItems float fuel depth (layout.itemsText indent (item :: items) ++ (closing ++ ']' :: rest)) =
      some (mapItems change (item :: items), rest) := by
  obtain ⟨fuel, rfl⟩ := Nat.exists_eq_succ_of_ne_zero (n := fuel) (by omega)
  match items, readable with
  | [], readable =>
    rw [Layout.itemsText, List.length_append] at enough
    have first := readValue_text fuel indent (closing ++ ']' :: rest) item readable.1 (by omega)
      (follows_blank spaces (follows_mark (by decide) rest))
    rw [itemsText_last]
    exact readItems_last layout spaces first
  | next :: items, readable =>
    rw [Layout.itemsText, List.length_append, List.length_append, List.length_cons] at enough
    have first := readValue_text fuel indent
      (',' :: (layout.itemsText indent (next :: items) ++ (closing ++ ']' :: rest))) item readable.1
      (by omega) (follows_mark (by decide) _)
    have others := readItems_text fuel indent rest next items readable.2 closing spaces (by omega)
    rw [itemsText_more, readItems_more layout first, others]
    rfl

theorem readMembers_text {depth : Nat} (fuel indent : Nat) (rest : List Char) (member : String × Json)
    (members : List (String × Json)) (readable : RereadableMembers float change depth (member :: members))
    (closing : List Char) (spaces : ∀ char ∈ closing, isSpace char = true)
    (enough : 2 * (layout.membersText indent (member :: members)).length + 1 ≤ fuel) :
    readMembers float fuel depth (layout.membersText indent (member :: members) ++ (closing ++ '}' :: rest)) =
      some (mapMembers change (member :: members), rest) := by
  obtain ⟨fuel, rfl⟩ := Nat.exists_eq_succ_of_ne_zero (n := fuel) (by omega)
  match member, members, readable with
  | (name, value), [], readable =>
    simp only [Layout.membersText, List.length_append, List.length_cons] at enough
    have first := readValue_text fuel indent (closing ++ '}' :: rest) value readable.1 (by omega)
      (follows_blank spaces (follows_mark (by decide) rest))
    rw [membersText_last]
    exact readMembers_last layout spaces first
  | (name, value), next :: members, readable =>
    simp only [Layout.membersText, List.length_append, List.length_cons] at enough
    have first := readValue_text fuel indent
      (',' :: (layout.membersText indent (next :: members) ++ (closing ++ '}' :: rest))) value readable.1
      (by omega) (follows_mark (by decide) _)
    have others := readMembers_text fuel indent rest next members readable.2 closing spaces (by omega)
    rw [membersText_more, readMembers_more layout first, others]
    rfl
end

/-- A document is read with its numbers changed. -/
theorem parse_text {value : Json} (rereadable : Rereadable float change maxDepth value) :
    parse float (String.ofList (layout.text 0 value)) = some (mapNumbers change value) := by
  have read := readValue_text layout (2 * (layout.text 0 value).length + 2) 0 [] value rereadable (by omega)
    (fun _ first => by cases first)
  rw [List.append_nil] at read
  rw [parse, String.toList_ofList, read]
  rfl

mutual
/-- Containers that nest deeper than the reader allows are not read. -/
theorem readValue_deep {depth more : Nat} (fuel indent : Nat) (rest : List Char) (value : Json)
    (readable : Rereadable float change (depth + more) value) (deep : ¬ Rereadable float change depth value)
    (enough : 2 * (layout.text indent value).length ≤ fuel) :
    readValue float fuel depth (layout.text indent value ++ rest) = none := by
  have positive := text_length layout indent readable
  obtain ⟨fuel, rfl⟩ := Nat.exists_eq_succ_of_ne_zero (n := fuel) (by omega)
  match value, readable, deep with
  | .null, _, deep | .bool _, _, deep | .string _, _, deep =>
    exact absurd (by cases depth <;> trivial) deep
  | .number _, readable, deep =>
    have number := rereadable_number readable
    exact absurd (by cases depth <;> exact number) deep
  | .array items, readable, deep =>
    cases depth with
    | zero =>
      rw [Layout.text, readValue.eq_def]
      rfl
    | succ depth =>
      rw [Nat.succ_add] at readable
      match items, readable, deep with
      | [], _, deep => exact absurd trivial deep
      | item :: items, readable, deep =>
        have long : 2 * (layout.itemsText (indent + 1) (item :: items)).length + 1 ≤ fuel := by
          rw [Layout.text, List.length_append, List.length_cons] at enough
          omega
        have listed := readItems_deep fuel (indent + 1) rest item items readable deep (layout.line indent)
          (layout.line_blank indent) long
        obtain ⟨char, behind, shape, opened⟩ := items_start layout (indent + 1) items
          (layout.line indent ++ ']' :: rest) readable.1
        rw [Layout.text, List.append_assoc, List.append_assoc, List.cons_append, List.singleton_append,
          show layout.ending indent (item :: items) = layout.line indent from rfl,
          readValue_array fuel depth shape opened, listed]
        rfl
  | .object members, readable, deep =>
    cases depth with
    | zero =>
      rw [Layout.text, readValue.eq_def]
      rfl
    | succ depth =>
      rw [Nat.succ_add] at readable
      match members, readable, deep with
      | [], _, deep => exact absurd trivial deep
      | member :: members, readable, deep =>
        have long : 2 * (layout.membersText (indent + 1) (member :: members)).length + 1 ≤ fuel := by
          rw [Layout.text, List.length_append, List.length_cons] at enough
          omega
        have listed := readMembers_deep fuel (indent + 1) rest member members readable deep (layout.line indent)
          (layout.line_blank indent) long
        obtain ⟨behind, shape⟩ := members_start layout (indent + 1) member members (layout.line indent ++ '}' :: rest)
        rw [Layout.text, List.append_assoc, List.append_assoc, List.cons_append, List.singleton_append,
          show layout.ending indent (member :: members) = layout.line indent from rfl,
          readValue_object fuel depth shape, listed]
        rfl

theorem readItems_deep {depth more : Nat} (fuel indent : Nat) (rest : List Char) (item : Json) (items : List Json)
    (readable : RereadableItems float change (depth + more) (item :: items))
    (deep : ¬ RereadableItems float change depth (item :: items)) (closing : List Char)
    (spaces : ∀ char ∈ closing, isSpace char = true)
    (enough : 2 * (layout.itemsText indent (item :: items)).length + 1 ≤ fuel) :
    readItems float fuel depth (layout.itemsText indent (item :: items) ++ (closing ++ ']' :: rest)) = none := by
  obtain ⟨fuel, rfl⟩ := Nat.exists_eq_succ_of_ne_zero (n := fuel) (by omega)
  match items, readable, deep with
  | [], readable, deep =>
    rw [Layout.itemsText, List.length_append] at enough
    have first := readValue_deep fuel indent (closing ++ ']' :: rest) item readable.1
      (fun shallow => deep ⟨shallow, trivial⟩) (by omega)
    rw [itemsText_last]
    exact readItems_refused layout first
  | next :: items, readable, deep =>
    rw [Layout.itemsText, List.length_append, List.length_append, List.length_cons] at enough
    rw [itemsText_more]
    by_cases shallow : Rereadable float change depth item
    · have first := readValue_text layout fuel indent
        (',' :: (layout.itemsText indent (next :: items) ++ (closing ++ ']' :: rest))) item shallow
        (by omega) (follows_mark (by decide) _)
      have others := readItems_deep fuel indent rest next items readable.2 (fun later => deep ⟨shallow, later⟩)
        closing spaces (by omega)
      rw [readItems_more layout first, others]
      rfl
    · have first := readValue_deep fuel indent
        (',' :: (layout.itemsText indent (next :: items) ++ (closing ++ ']' :: rest))) item readable.1 shallow
        (by omega)
      exact readItems_refused layout first

theorem readMembers_deep {depth more : Nat} (fuel indent : Nat) (rest : List Char) (member : String × Json)
    (members : List (String × Json)) (readable : RereadableMembers float change (depth + more) (member :: members))
    (deep : ¬ RereadableMembers float change depth (member :: members)) (closing : List Char)
    (spaces : ∀ char ∈ closing, isSpace char = true)
    (enough : 2 * (layout.membersText indent (member :: members)).length + 1 ≤ fuel) :
    readMembers float fuel depth (layout.membersText indent (member :: members) ++ (closing ++ '}' :: rest)) =
      none := by
  obtain ⟨fuel, rfl⟩ := Nat.exists_eq_succ_of_ne_zero (n := fuel) (by omega)
  match member, members, readable, deep with
  | (name, value), [], readable, deep =>
    simp only [Layout.membersText, List.length_append, List.length_cons] at enough
    have first := readValue_deep fuel indent (closing ++ '}' :: rest) value readable.1
      (fun shallow => deep ⟨shallow, trivial⟩) (by omega)
    rw [membersText_last]
    exact readMembers_refused layout first
  | (name, value), next :: members, readable, deep =>
    simp only [Layout.membersText, List.length_append, List.length_cons] at enough
    rw [membersText_more]
    by_cases shallow : Rereadable float change depth value
    · have first := readValue_text layout fuel indent
        (',' :: (layout.membersText indent (next :: members) ++ (closing ++ '}' :: rest))) value shallow
        (by omega) (follows_mark (by decide) _)
      have others := readMembers_deep fuel indent rest next members readable.2 (fun later => deep ⟨shallow, later⟩)
        closing spaces (by omega)
      rw [readMembers_more layout first, others]
      rfl
    · have first := readValue_deep fuel indent
        (',' :: (layout.membersText indent (next :: members) ++ (closing ++ '}' :: rest))) value readable.1 shallow
        (by omega)
      exact readMembers_refused layout first
end

/-- A document that nests too deep is refused. -/
theorem parse_text_deep {value : Json} {more : Nat} (readable : Rereadable float change (maxDepth + more) value)
    (deep : ¬ Rereadable float change maxDepth value) : parse float (String.ofList (layout.text 0 value)) = none := by
  have read := readValue_deep layout (2 * (layout.text 0 value).length + 2) 0 [] value readable deep (by omega)
  rw [List.append_nil] at read
  rw [parse, String.toList_ofList, read]

theorem parse_text_iff {depth : Nat} {value other : Json} (readable : Rereadable float change depth value) :
    parse float (String.ofList (layout.text 0 value)) = some other ↔
      Rereadable float change maxDepth value ∧ mapNumbers change value = other := by
  by_cases shallow : Rereadable float change maxDepth value
  · rw [parse_text layout shallow, Option.some_inj]
    exact (and_iff_right shallow).symm
  · have wide : Rereadable float change (maxDepth + depth) value := by
      rw [Nat.add_comm]
      exact rereadable_add value readable
    rw [parse_text_deep layout wide shallow]
    exact iff_of_false (by simp) fun within => shallow within.1

end

theorem render_eq (value : Json) : value.render = String.ofList (compact.text 0 value) := by
  rw [render, compact_text]

theorem parse_render_change {value : Json} (rereadable : Rereadable float change maxDepth value) :
    parse float value.render = some (mapNumbers change value) := by
  rw [render_eq, parse_text compact rereadable]

/-- A document is read back from its text. -/
theorem parse_render {value : Json} (readable : Readable float maxDepth value) :
    parse float value.render = some value := by
  rw [parse_render_change (Readable.rereadable value readable), mapNumbers_id]

theorem parse_deep {value : Json} {more : Nat} (readable : Rereadable float change (maxDepth + more) value)
    (deep : ¬ Rereadable float change maxDepth value) : parse float value.render = none := by
  rw [render_eq, parse_text_deep compact readable deep]

theorem parse_renderPretty_iff {depth : Nat} {value other : Json} (readable : Rereadable float change depth value) :
    parse float value.renderPretty = some other ↔
      Rereadable float change maxDepth value ∧ mapNumbers change value = other :=
  parse_text_iff pretty readable

end Json
end Foundation
