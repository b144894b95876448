import Wisphive.Foundation.Words
import Wisphive.Redact

/-! The escape behind the scrubber is exact: it can be undone, and no control character is left. -/

namespace Wisphive.Redact
open Foundation Words

/-! ### The rules -/

/-- A secret key before the first separator, with something behind it: what stands before the
placeholder. -/
def keyed (core : List Char) (separator : Char) : Option (List Char) :=
  (splitOnce separator core).bind fun halves =>
    if keyIsSecret halves.1 && !halves.2.isEmpty then some (halves.1 ++ [separator]) else none

/-- A value behind a secret key or a lead word. -/
def follows (core prevWord : List Char) : Bool :=
  let prevCore := trimEnd (· = ':') (trimWrapping prevWord)
  (keyIsSecret prevCore && (trimEnd isWhitespace prevWord).getLast? = some ':' || isLead prevCore) &&
    !core.isEmpty && !isLead core

/-- What the first rule that applies to a word leaves in front of the placeholder. -/
def applied (word prevWord : List Char) : Option (List Char) :=
  let core := trimWrapping word
  (keyed core '=').or <| (keyed core ':').or <|
    if follows core prevWord || tokenHasSecretPrefix core then some []
    else (splitOnce '=' core).bind fun halves =>
      if tokenHasSecretPrefix halves.2 then some (halves.1 ++ ['=']) else none

variable {word prevWord core : List Char} {separator : Char}

theorem redactAssignment_eq :
    redactAssignment core separator = (keyed core separator).map (· ++ redacted) := by
  unfold redactAssignment keyed
  cases splitOnce separator core with
  | none => rfl
  | some halves =>
    simp only [Option.bind_some]
    split
    · rw [Option.map_some, List.append_assoc, List.singleton_append]
    · rfl

/-- A word to which no rule applies is left as it is. -/
theorem redactWord_eq : redactWord word prevWord = ((applied word prevWord).map (· ++ redacted)).getD word := by
  unfold redactWord applied
  simp only [redactAssignment_eq]
  cases keyed (trimWrapping word) '=' with
  | some kept => rfl
  | none =>
    cases keyed (trimWrapping word) ':' with
    | some kept => rfl
    | none =>
      simp only [Option.map_none, Option.none_or]
      unfold follows
      dsimp only
      split
      · next found => rw [found, Bool.true_or, if_pos rfl]; rfl
      · next missed =>
        rw [Bool.not_eq_true] at missed
        rw [missed, Bool.false_or]
        split
        · rfl
        · cases splitOnce '=' (trimWrapping word) with
          | none => rfl
          | some halves =>
            simp only [Option.bind_some]
            split
            · rw [Option.map_some, Option.getD_some, List.append_assoc, List.singleton_append]
            · rfl

/-! ### The scan -/

variable {fuel : Nat} {text left right : List Char}

theorem pushLogSafe_append : pushLogSafe (left ++ right) = pushLogSafe left ++ pushLogSafe right :=
  List.flatMap_append

theorem redactWords_eq :
    redactWords fuel prevWord text = pushLogSafe (scanFor isWhitespace redactWord fuel prevWord text) := by
  induction fuel generalizing prevWord text with
  | zero => rfl
  | succ fuel ih =>
    simp only [redactWords, scanFor]
    split
    · rfl
    · rw [ih, pushLogSafe_append, pushLogSafe_append]

/-- The text as the rules leave it, before it is escaped. -/
def scrub (prevWord text : List Char) : List Char :=
  scan isWhitespace redactWord prevWord text

theorem redactText_eq (text : String) : (redactText text).toList = pushLogSafe (scrub [] text.toList) := by
  rw [redactText, String.toList_ofList, redactWords_eq]
  rfl

/-- The word begins behind a gap, and it ends at one. -/
structure Placed (left word right : List Char) : Prop where
  closed : (reach isWhitespace {} left).closed = true
  unbroken : Unbroken isWhitespace word
  nonempty : word ≠ []
  parted : Parted isWhitespace right

/-- The word before a place. -/
def lastWord (left : List Char) : List Char :=
  (reach isWhitespace {} left).word

theorem scrub_at (placed : Placed left word right) :
    scrub [] (left ++ (word ++ right)) = scrub [] left ++ (redactWord word (lastWord left) ++ scrub word right) :=
  @scan_at _ _ _ word left right {} rfl placed.closed placed.unbroken placed.nonempty placed.parted

/-! ### The escape of the log -/

def hexDigit (char : Char) : Option Nat :=
  if '0' ≤ char ∧ char ≤ '9' then some (char.toNat - 48)
  else if 'a' ≤ char ∧ char ≤ 'f' then some (char.toNat - 87)
  else if 'A' ≤ char ∧ char ≤ 'F' then some (char.toNat - 55)
  else none

/-- Two digits, of which the first may be a sign. -/
def hexByte (high low : Char) : Option Nat :=
  if high = '+' then hexDigit low
  else (hexDigit high).bind fun upper => (hexDigit low).map fun lower => 16 * upper + lower

/-- The inverse of the escape. A malformed escape has none. -/
def unescapeLogSafe : List Char → Option (List Char)
  | [] => some []
  | char :: rest =>
    if char ≠ '\\' then (unescapeLogSafe rest).map (char :: ·)
    else
      match rest with
      | [] => none
      | mark :: rest =>
        if mark = '\\' then (unescapeLogSafe rest).map ('\\' :: ·)
        else if mark = 'x' then
          match rest with
          | high :: low :: rest =>
            (hexByte high low).bind fun byte => (unescapeLogSafe rest).map (Char.ofNat byte :: ·)
          | _ => none
        else none
termination_by structural text => text

/-- A control character other than tab and newline. -/
def control (char : Char) : Bool :=
  (char.toNat < 32 || char.toNat = 127) && char ≠ '\t' && char ≠ '\n'

/-- No rule applies to any word of the text. -/
def Quiet (text : List Char) : Prop :=
  ∀ left word right, text = left ++ (word ++ right) → Placed left word right → applied word (lastWord left) = none

variable {char : Char} {text other rest : List Char}

theorem hexByte_upper : ∀ code < 128, hexByte (hexUpper (code / 16)) (hexUpper (code % 16)) = some code := by
  decide

theorem control_bound (controls : control char = true) : char.toNat < 128 := by
  simp only [control, Bool.and_eq_true, Bool.or_eq_true, decide_eq_true_eq] at controls
  omega

/-- The three shapes of an escaped character. -/
theorem logSafeChar_cases :
    char = '\\' ∧ logSafeChar char = ['\\', '\\'] ∨
    control char = true ∧
      logSafeChar char = ['\\', 'x', hexUpper (char.toNat / 16), hexUpper (char.toNat % 16)] ∨
    char ≠ '\\' ∧ control char = false ∧ logSafeChar char = [char] := by
  by_cases backslash : char = '\\'
  · exact .inl ⟨backslash, if_pos backslash⟩
  · cases controls : control char with
    | true => exact .inr (.inl ⟨rfl, (if_neg backslash).trans (if_pos controls)⟩)
    | false =>
      exact .inr (.inr ⟨backslash, rfl, (if_neg backslash).trans (if_neg (ne_true_of_eq_false controls))⟩)

theorem unescape_char : unescapeLogSafe (logSafeChar char ++ rest) = (unescapeLogSafe rest).map (char :: ·) := by
  obtain ⟨rfl, shape⟩ | ⟨controls, shape⟩ | ⟨plain, _, shape⟩ := @logSafeChar_cases char
  · rw [shape, List.cons_append, List.singleton_append, unescapeLogSafe.eq_def]
    exact (if_neg (not_not_intro rfl)).trans (if_pos rfl)
  · have byte := hexByte_upper char.toNat (control_bound controls)
    rw [shape]
    simp only [List.cons_append, List.nil_append]
    rw [unescapeLogSafe.eq_def]
    refine (if_neg (not_not_intro rfl)).trans ((if_neg (by decide)).trans ((if_pos rfl).trans ?_))
    dsimp only
    rw [byte, Option.bind_some, Char.ofNat_toNat]
  · rw [shape, List.singleton_append, unescapeLogSafe.eq_def]
    exact if_pos plain

theorem unescape_append : unescapeLogSafe (pushLogSafe text ++ rest) = (unescapeLogSafe rest).map (text ++ ·) := by
  induction text with
  | nil => exact Option.map_id'.symm
  | cons char text ih =>
    have first : pushLogSafe (char :: text) = logSafeChar char ++ pushLogSafe text := List.flatMap_cons
    rw [first, List.append_assoc, unescape_char, ih, Option.map_map]
    rfl

theorem unescape_pushLogSafe (text : List Char) : unescapeLogSafe (pushLogSafe text) = some text := by
  rw [← List.append_nil (pushLogSafe text), unescape_append]
  exact congrArg some (List.append_nil text)

/-- Escaped texts begin alike only where the texts do. -/
theorem pushLogSafe_prefix : pushLogSafe text <+: pushLogSafe other ↔ text <+: other := by
  constructor
  · rintro ⟨rest, shape⟩
    have read := unescape_pushLogSafe other
    rw [← shape, unescape_append] at read
    obtain ⟨later, _, same⟩ := Option.map_eq_some_iff.mp read
    exact ⟨later, same⟩
  · rintro ⟨later, rfl⟩
    exact ⟨pushLogSafe later, pushLogSafe_append.symm⟩

theorem control_hexUpper : ∀ digit < 16, control (hexUpper digit) = false := by
  decide

/-- What is escaped has no control characters but tabs and newlines. -/
theorem logSafe_plain (member : char ∈ pushLogSafe text) : control char = false := by
  obtain ⟨origin, _, escaped⟩ := List.mem_flatMap.mp member
  obtain ⟨_, shape⟩ | ⟨controls, shape⟩ | ⟨_, plain, shape⟩ := @logSafeChar_cases origin
  · rw [shape] at escaped
    simp only [List.mem_cons, List.not_mem_nil, or_false, or_self] at escaped
    rw [escaped]
    rfl
  · have bound := control_bound controls
    rw [shape] at escaped
    simp only [List.mem_cons, List.not_mem_nil, or_false] at escaped
    obtain rfl | rfl | rfl | rfl := escaped
    · rfl
    · rfl
    · exact control_hexUpper _ (by omega)
    · exact control_hexUpper _ (Nat.mod_lt _ (by decide))
  · rw [shape, List.mem_singleton] at escaped
    rw [escaped, plain]

/-- Where no rule applies, the text is only escaped. -/
theorem quiet_scrub (quiet : Quiet text) : scrub [] text = text := by
  refine @scan_same _ isWhitespace redactWord text {} rfl fun left word right shape closed unbroken nonempty parted => ?_
  have none := quiet left word right shape ⟨closed, unbroken, nonempty, parted⟩
  rw [redactWord_eq, show (reach isWhitespace {} left).word = lastWord left from rfl, none]
  rfl

theorem quiet_round_trip {text : String} (quiet : Quiet text.toList) :
    unescapeLogSafe (redactText text).toList = some text.toList := by
  rw [redactText_eq, unescape_pushLogSafe, quiet_scrub quiet]

/-- A text on which no rule fires comes out without control characters but tabs and newlines.
It is given back by the inverse of the escape, and no other such text comes out the same. -/
theorem log_safe_exact {text : String} (quiet : Quiet text.toList) :
    (∀ char ∈ (redactText text).toList, control char = false) ∧
      unescapeLogSafe (redactText text).toList = some text.toList ∧
        ∀ other : String, Quiet other.toList → redactText other = redactText text → other = text := by
  refine ⟨?_, quiet_round_trip quiet, ?_⟩
  · intro char member
    rw [redactText_eq] at member
    exact logSafe_plain member
  · intro other silent same
    have first := quiet_round_trip quiet
    rw [← same, quiet_round_trip silent] at first
    exact String.toList_injective (Option.some.inj first)

/-- A word of its own has no other words. -/
theorem quiet_word (unbroken : Unbroken isWhitespace text) (none : applied text [] = none) : Quiet text := by
  intro left word right shape placed
  have empty : left = [] := by
    by_contra nonempty
    have inside : Unbroken isWhitespace left := fun char member =>
      unbroken char (shape ▸ List.mem_append_left _ member)
    have still := placed.closed
    rw [reach_word inside nonempty rfl] at still
    exact Bool.false_ne_true still
  have last : right = [] := by
    cases right with
    | nil => rfl
    | cons char right =>
      have member : char ∈ text := shape ▸ List.mem_append_right _ (List.mem_append_right _ List.mem_cons_self)
      have gap := placed.parted char rfl
      rw [unbroken char member] at gap
      exact absurd gap Bool.false_ne_true
  subst empty last
  rw [List.nil_append, List.append_nil] at shape
  exact shape ▸ none

theorem log_safe_exact_escape :
    (∀ char ∈ (redactText "\\x1B\x1B").toList, control char = false) ∧
      unescapeLogSafe (redactText "\\x1B\x1B").toList = some "\\x1B\x1B".toList ∧
        ∀ other : String, Quiet other.toList → redactText other = redactText "\\x1B\x1B" → other = "\\x1B\x1B" :=
  log_safe_exact (quiet_word (by decide) (by decide))

end Wisphive.Redact
