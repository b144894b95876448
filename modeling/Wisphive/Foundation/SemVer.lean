import Mathlib.Order.Compare
import Mathlib.Tactic.Ring

/-! Semantic versions and their precedence. Numerals are compared by their values, and for
numerals that do not start with a zero that is a comparison of the length and then of the
digits. -/

namespace Foundation
namespace SemVer
open Std

/-! ### Numerals -/

def digit (char : Char) : Nat :=
  char.toNat - 48

/-- The value of a numeral behind digits of the value `carried`. -/
def decimalFrom (carried : Nat) (digits : List Char) : Nat :=
  digits.foldl (fun value char => 10 * value + digit char) carried

def decimal (digits : List Char) : Nat :=
  decimalFrom 0 digits

variable {char other : Char} {digits left right : List Char} {carried : Nat}

theorem digit_lt (numeric : char.isDigit = true) : digit char < 10 ∧ char.toNat = digit char + 48 := by
  simp only [Char.isDigit, Bool.and_eq_true, decide_eq_true_eq, ge_iff_le, UInt32.le_iff_toNat_le] at numeric
  have low : 48 ≤ char.toNat := numeric.1
  have high : char.toNat ≤ 57 := numeric.2
  rw [digit]
  omega

theorem decimalFrom_eq : decimalFrom carried digits = carried * 10 ^ digits.length + decimal digits := by
  induction digits generalizing carried with
  | nil => simp [decimal, decimalFrom]
  | cons char rest ih =>
    have step (given : Nat) : decimalFrom given (char :: rest) = decimalFrom (10 * given + digit char) rest := rfl
    rw [decimal, step, step, ih, @ih (10 * 0 + digit char), List.length_cons, pow_succ]
    ring

theorem decimal_cons : decimal (char :: digits) = digit char * 10 ^ digits.length + decimal digits := by
  have step : decimal (char :: digits) = decimalFrom (10 * 0 + digit char) digits := rfl
  rw [step, decimalFrom_eq, Nat.mul_zero, Nat.zero_add]

theorem decimal_lt (numeric : digits.all Char.isDigit = true) : decimal digits < 10 ^ digits.length := by
  induction digits with
  | nil => decide
  | cons char rest ih =>
    rw [List.all_cons, Bool.and_eq_true] at numeric
    have bound := ih numeric.2
    have below := (digit_lt numeric.1).1
    rw [decimal_cons, List.length_cons, pow_succ]
    have high : digit char * 10 ^ rest.length ≤ 9 * 10 ^ rest.length := Nat.mul_le_mul_right _ (by omega)
    omega

/-- The first digit decides, and then the others. -/
theorem compare_scaled {a b c d bound : Nat} (first : c < bound) (second : d < bound) :
    compare (a * bound + c) (b * bound + d) = (compare a b).then (compare c d) := by
  rcases Nat.lt_trichotomy a b with less | rfl | greater
  · rw [Nat.compare_eq_lt.mpr less, Ordering.lt_then, Nat.compare_eq_lt]
    have scaled : (a + 1) * bound ≤ b * bound := Nat.mul_le_mul_right _ less
    rw [Nat.add_mul] at scaled
    omega
  · rw [Nat.compare_eq_eq.mpr rfl, Ordering.eq_then]
    rcases Nat.lt_trichotomy c d with less | rfl | greater
    · rw [Nat.compare_eq_lt.mpr less, Nat.compare_eq_lt]
      omega
    · rw [Nat.compare_eq_eq.mpr rfl, Nat.compare_eq_eq.mpr rfl]
    · rw [Nat.compare_eq_gt.mpr greater, Nat.compare_eq_gt]
      omega
  · rw [Nat.compare_eq_gt.mpr greater, Ordering.gt_then, Nat.compare_eq_gt]
    have scaled : (b + 1) * bound ≤ a * bound := Nat.mul_le_mul_right _ greater
    rw [Nat.add_mul] at scaled
    omega

theorem compare_digit (first : char.isDigit = true) (second : other.isDigit = true) :
    compare char other = compare (digit char) (digit other) := by
  have leftEq := (digit_lt first).2
  have rightEq := (digit_lt second).2
  have byCode : compare char other = compare char.toNat other.toNat := by
    rcases Nat.lt_trichotomy char.toNat other.toNat with less | same | greater
    · have below : compare char other = .lt := if_pos less
      rw [Nat.compare_eq_lt.mpr less, below]
    · have equal : compare other other = .eq := ReflCmp.compare_self
      rw [Char.toNat_inj.mp same, Nat.compare_eq_eq.mpr rfl, equal]
    · have above : compare other char = .lt := if_pos greater
      rw [Nat.compare_eq_gt.mpr greater, OrientedOrd.eq_swap, above]
      rfl
  rw [byCode, leftEq, rightEq]
  rcases Nat.lt_trichotomy (digit char) (digit other) with less | same | greater
  · rw [Nat.compare_eq_lt.mpr less, Nat.compare_eq_lt]
    omega
  · rw [same, Nat.compare_eq_eq.mpr rfl, Nat.compare_eq_eq.mpr rfl]
  · rw [Nat.compare_eq_gt.mpr greater, Nat.compare_eq_gt]
    omega

/-- Of numerals of one length, the digits tell the greater one. -/
theorem compare_of_length_eq (first : left.all Char.isDigit = true) (second : right.all Char.isDigit = true)
    (same : left.length = right.length) : compare left right = compare (decimal left) (decimal right) := by
  induction left generalizing right with
  | nil =>
    cases right with
    | nil => rfl
    | cons char rest => cases same
  | cons char rest ih =>
    cases right with
    | nil => cases same
    | cons other more =>
      rw [List.all_cons, Bool.and_eq_true] at first second
      have lengths : rest.length = more.length := Nat.succ.inj same
      have bound : decimal more < 10 ^ rest.length := lengths ▸ decimal_lt second.2
      rw [List.compare_cons_cons, compare_digit first.1 second.1, ih first.2 second.2 lengths, decimal_cons, decimal_cons,
        ← lengths, compare_scaled (decimal_lt first.2) bound]

/-- A longer numeral is greater unless it starts with a zero. -/
theorem decimal_lt_decimal (first : left.all Char.isDigit = true) (second : right.all Char.isDigit = true)
    (shorter : left.length < right.length) (leading : right.head? ≠ some '0') : decimal left < decimal right := by
  cases right with
  | nil => cases shorter
  | cons char rest =>
    rw [List.all_cons, Bool.and_eq_true] at second
    have proper : 0 < digit char := by
      rw [Nat.pos_iff_ne_zero]
      intro zero
      have code := (digit_lt second.1).2
      rw [zero] at code
      exact leading (congrArg some (Char.toNat_inj.mp code))
    have scaled : 1 * 10 ^ rest.length ≤ digit char * 10 ^ rest.length := Nat.mul_le_mul_right _ proper
    have power : 10 ^ left.length ≤ 10 ^ rest.length := Nat.pow_le_pow_right (by decide) (Nat.lt_succ_iff.mp shorter)
    have below := decimal_lt first
    rw [decimal_cons]
    omega

/-- The comparison of the length and then of the digits is the one of the values. -/
theorem compare_decimal (first : left.all Char.isDigit = true) (second : right.all Char.isDigit = true)
    (leadingLeft : right.length < left.length → left.head? ≠ some '0')
    (leadingRight : left.length < right.length → right.head? ≠ some '0') :
    (compare left.length right.length).then (compare left right) = compare (decimal left) (decimal right) := by
  rcases Nat.lt_trichotomy left.length right.length with shorter | same | longer
  · rw [Nat.compare_eq_lt.mpr shorter, Ordering.lt_then]
    exact (Nat.compare_eq_lt.mpr (decimal_lt_decimal first second shorter (leadingRight shorter))).symm
  · rw [Nat.compare_eq_eq.mpr same, Ordering.eq_then, compare_of_length_eq first second same]
  · rw [Nat.compare_eq_gt.mpr longer, Ordering.gt_then]
    exact (Nat.compare_eq_gt.mpr (decimal_lt_decimal second first longer (leadingLeft longer))).symm

theorem decimal_dropZeros : decimal (digits.dropWhile (· = '0')) = decimal digits := by
  induction digits with
  | nil => rfl
  | cons char rest ih =>
    by_cases zero : char = '0'
    · subst zero
      have nothing : digit '0' = 0 := by decide
      rw [List.dropWhile_cons_of_pos (by decide), ih, decimal_cons, nothing, Nat.zero_mul, Nat.zero_add]
    · rw [List.dropWhile_cons_of_neg (by simpa using zero)]

/-! ### Identifiers -/

inductive Identifier where
  | numeric (value : Nat)
  | text (chars : List Char)
  deriving DecidableEq, Repr

/-- A numeral is below a text. -/
def Identifier.order : Identifier → Identifier → Ordering
  | .numeric value, .numeric other => compare value other
  | .numeric _, .text _ => .lt
  | .text _, .numeric _ => .gt
  | .text chars, .text others => compare chars others

instance : Ord Identifier := ⟨Identifier.order⟩

instance : TransOrd Identifier where
  eq_swap {a b} := by
    cases a with
    | numeric value =>
      cases b with
      | numeric other =>
        have swapped : compare value other = (compare other value).swap := OrientedOrd.eq_swap
        exact swapped
      | text chars => rfl
    | text chars =>
      cases b with
      | numeric value => rfl
      | text others =>
        have swapped : compare chars others = (compare others chars).swap := OrientedOrd.eq_swap
        exact swapped
  isLE_trans {a b c} first second := by
    cases a with
    | numeric value =>
      cases c with
      | text chars => rfl
      | numeric last =>
        cases b with
        | numeric other =>
          have chain : (compare value other).isLE → (compare other last).isLE → (compare value last).isLE := TransOrd.isLE_trans
          exact chain first second
        | text chars => nomatch second
    | text chars =>
      cases b with
      | numeric value => nomatch first
      | text others =>
        cases c with
        | numeric value => nomatch second
        | text last =>
          have chain : (compare chars others).isLE → (compare others last).isLE → (compare chars last).isLE := TransOrd.isLE_trans
          exact chain first second

instance : LawfulEqOrd Identifier where
  eq_of_compare {a b} same := by
    cases a with
    | numeric value =>
      cases b with
      | numeric other =>
        have equal : compare value other = .eq := same
        rw [LawfulEqOrd.eq_of_compare equal]
      | text chars => cases same
    | text chars =>
      cases b with
      | numeric value => cases same
      | text others =>
        have equal : compare chars others = .eq := same
        rw [LawfulEqOrd.eq_of_compare equal]

/-- How an identifier is read. -/
def read (identifier : List Char) : Identifier :=
  if identifier.all Char.isDigit then .numeric (decimal identifier) else .text identifier

/-! ### Parts that may be missing -/

/-- A value compares to a missing one as `bare.swap`. -/
def partOrder {α : Type} (bare : Ordering) (cmp : α → α → Ordering) : Option α → Option α → Ordering
  | none, none => .eq
  | none, some _ => bare
  | some _, none => bare.swap
  | some a, some b => cmp a b

section
variable {α : Type} {bare : Ordering} {cmp : α → α → Ordering}

theorem partOrder_trans (decides : bare ≠ .eq) [TransCmp cmp] : TransCmp (partOrder bare cmp) where
  eq_swap {a b} := by
    cases a with
    | none =>
      cases b with
      | none => rfl
      | some b => exact Ordering.swap_swap.symm
    | some a =>
      cases b with
      | none => rfl
      | some b =>
        have swapped : cmp a b = (cmp b a).swap := OrientedCmp.eq_swap
        exact swapped
  isLE_trans {a b c} first second := by
    cases a with
    | none =>
      cases b with
      | none => exact second
      | some b =>
        cases c with
        | none => rfl
        | some c => exact first
    | some a =>
      cases b with
      | none =>
        cases c with
        | none => exact first
        | some c =>
          -- Of the two ways only one is below.
          cases bare with
          | eq => exact absurd rfl decides
          | lt => nomatch first
          | gt => nomatch second
      | some b =>
        cases c with
        | none => exact second
        | some c =>
          have chain : (cmp a b).isLE → (cmp b c).isLE → (cmp a c).isLE := TransCmp.isLE_trans
          exact chain first second

theorem partOrder_eq (decides : bare ≠ .eq) [LawfulEqCmp cmp] {a b : Option α} (same : partOrder bare cmp a b = .eq) : a = b := by
  cases a with
  | none =>
    cases b with
    | none => rfl
    | some b => exact absurd same decides
  | some a =>
    cases b with
    | none => exact absurd (Ordering.swap_eq_eq.mp same) decides
    | some b =>
      have equal : cmp a b = .eq := same
      rw [LawfulEqCmp.eq_of_compare equal]

end

/-! ### Versions -/

/-- A version without its build metadata. -/
structure Version where
  major : Nat
  minor : Nat
  patch : Nat
  prerelease : Option (List Identifier)
  deriving DecidableEq, Repr

/-- A release is above its prereleases. Of these the first identifier that differs decides, and
else the longer one is above. -/
def precedence : Version → Version → Ordering :=
  compareLex (compareOn Version.major) (compareLex (compareOn Version.minor) (compareLex (compareOn Version.patch)
    fun version other => partOrder .gt compare version.prerelease other.prerelease))

/-- A comparison by a part of the values. -/
theorem transCmp_of {α β : Type} {cmp : β → β → Ordering} (f : α → β) [TransCmp cmp] : TransCmp fun a b => cmp (f a) (f b) where
  eq_swap := OrientedCmp.eq_swap
  isLE_trans := TransCmp.isLE_trans

instance : TransCmp precedence := by
  have part : TransCmp (partOrder .gt (compare : List Identifier → List Identifier → Ordering)) := partOrder_trans (by decide)
  have last : TransCmp fun version other : Version => partOrder .gt compare version.prerelease other.prerelease :=
    transCmp_of Version.prerelease
  rw [precedence]
  infer_instance

instance : LawfulEqCmp precedence where
  compare_self := ReflCmp.compare_self
  eq_of_compare {a b} same := by
    rw [precedence, compareLex_eq_eq, compareLex_eq_eq, compareLex_eq_eq] at same
    obtain ⟨major, minor, patch, prerelease⟩ := same
    have parts := partOrder_eq (by decide) prerelease
    cases a
    cases b
    rw [Version.mk.injEq]
    exact ⟨LawfulEqOrd.eq_of_compare major, LawfulEqOrd.eq_of_compare minor, LawfulEqOrd.eq_of_compare patch, parts⟩

/-! ### Reading identifiers -/

/-- An identifier that is a numeral of several digits does not start with a zero. -/
def Canonical (identifier : List Char) : Prop :=
  identifier ≠ [] ∧ (1 < identifier.length → identifier.all Char.isDigit = true → identifier.head? ≠ some '0')

/-- The comparison of canonical numerals by the length and then by the digits. -/
theorem compare_canonical (first : Canonical left) (second : Canonical right) (leftDigits : left.all Char.isDigit = true)
    (rightDigits : right.all Char.isDigit = true) :
    (compare left.length right.length).then (compare left right) = compare (decimal left) (decimal right) := by
  have leftLong := List.length_pos_iff.mpr first.1
  have rightLong := List.length_pos_iff.mpr second.1
  exact compare_decimal leftDigits rightDigits (fun longer => first.2 (by omega) leftDigits)
    (fun longer => second.2 (by omega) rightDigits)

theorem decimal_inj (first : Canonical left) (second : Canonical right) (leftDigits : left.all Char.isDigit = true)
    (rightDigits : right.all Char.isDigit = true) (same : decimal left = decimal right) : left = right := by
  have order := compare_canonical first second leftDigits rightDigits
  rw [same, Nat.compare_eq_eq.mpr rfl, Ordering.then_eq_eq] at order
  exact LawfulEqOrd.eq_of_compare order.2

/-- A canonical identifier can be told from what is read. -/
theorem read_inj (first : Canonical left) (second : Canonical right) (same : read left = read right) : left = right := by
  rw [read, read] at same
  split at same
  next leftDigits =>
    split at same
    next rightDigits => exact decimal_inj first second leftDigits rightDigits (Identifier.numeric.inj same)
    next => cases same
  next =>
    split at same
    next => cases same
    next => exact Identifier.text.inj same

end SemVer
end Foundation
