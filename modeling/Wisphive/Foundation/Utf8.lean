import Mathlib.Data.List.Basic
import Mathlib.Data.List.Infix

/-! Bytes that are read as text although they may be no UTF-8. Each longest beginning of a
character that is cut short, and each other stray byte, becomes one replacement character. -/

namespace Foundation
namespace Utf8

/-- The character that the bytes begin with. -/
def leading (bytes : List UInt8) : Option Char :=
  bytes.toByteArray.utf8DecodeChar? 0

def continues (byte : UInt8) : Bool :=
  0x80 ≤ byte && byte ≤ 0xBF

/-- The second byte of a character of three or four bytes. -/
def second (first byte : UInt8) : Bool :=
  if first = 0xE0 then 0xA0 ≤ byte && byte ≤ 0xBF
  else if first = 0xED then 0x80 ≤ byte && byte ≤ 0x9F
  else if first = 0xF0 then 0x90 ≤ byte && byte ≤ 0xBF
  else if first = 0xF4 then 0x80 ≤ byte && byte ≤ 0x8F
  else 0xE1 ≤ first && first ≤ 0xF3 && continues byte

/-- How many bytes one replacement stands for, behind which no character begins. -/
def broken : List UInt8 → Nat
  | first :: next :: third :: _ =>
    if second first next then if 0xF0 ≤ first && continues third then 3 else 2 else 1
  | [first, next] => if second first next then 2 else 1
  | _ => 1

def replacement : Char := '\uFFFD'

theorem broken_pos (bytes : List UInt8) : 0 < broken bytes := by
  unfold broken
  split
  · split
    · split <;> decide
    · decide
  · split <;> decide
  · decide

/-- The text, with what is no UTF-8 replaced. -/
def lossy : List UInt8 → List Char
  | [] => []
  | first :: rest =>
    match leading (first :: rest) with
    | some char => char :: lossy ((first :: rest).drop char.utf8Size)
    | none => replacement :: lossy ((first :: rest).drop (broken (first :: rest)))
termination_by bytes => bytes.length
decreasing_by
  · have := char.utf8Size_pos
    simp only [List.length_drop, List.length_cons]
    omega
  · have := broken_pos (first :: rest)
    simp only [List.length_drop, List.length_cons]
    omega

variable {bytes rest : List UInt8} {char : Char}

theorem leading_encode : leading (String.utf8EncodeChar char ++ rest) = some char := by
  rw [leading, List.toByteArray_append]
  exact ByteArray.utf8DecodeChar?_utf8EncodeChar_append

theorem leading_iff : leading bytes = some char ↔ String.utf8EncodeChar char <+: bytes := by
  constructor
  · intro found
    obtain ⟨rest, shape⟩ := ByteArray.exists_of_utf8DecodeChar?_eq_some found
    refine ⟨rest.data.toList, ?_⟩
    have := congrArg (·.data.toList) shape
    simpa using this.symm
  · rintro ⟨rest, rfl⟩
    exact leading_encode

/-- A byte below 128 is only written for its own character. -/
theorem encode_ascii {byte : UInt8} (ascii : byte < 0x80) (member : byte ∈ String.utf8EncodeChar char) :
    String.utf8EncodeChar char = [byte] := by
  have small : byte.toNat < 128 := UInt8.lt_iff_toNat_lt.mp ascii
  unfold String.utf8EncodeChar at member ⊢
  dsimp only at member ⊢
  split at member
  next one =>
    rw [if_pos one, List.mem_singleton.mp member]
  next =>
    split at member
    · simp only [List.mem_cons, List.not_mem_nil, or_false, ← UInt8.toNat_inj, UInt8.toNat_ofNat'] at member
      omega
    · split at member
      all_goals
        simp only [List.mem_cons, List.not_mem_nil, or_false, ← UInt8.toNat_inj, UInt8.toNat_ofNat'] at member
        omega

theorem encode_ne_nil : String.utf8EncodeChar char ≠ [] := by
  intro empty
  have size := String.length_utf8EncodeChar char
  rw [empty, List.length_nil] at size
  exact absurd size.symm char.utf8Size_pos.ne'

theorem lossy_leading (found : leading bytes = some char) :
    lossy bytes = char :: lossy (bytes.drop char.utf8Size) := by
  cases bytes with
  | nil => exact absurd (List.prefix_nil.mp (leading_iff.mp found)) encode_ne_nil
  | cons first rest => rw [lossy, found]

theorem lossy_broken {first : UInt8} (none : leading (first :: rest) = none) :
    lossy (first :: rest) = replacement :: lossy ((first :: rest).drop (broken (first :: rest))) := by
  rw [lossy, none]

theorem lossy_encode : lossy (String.utf8EncodeChar char ++ rest) = char :: lossy rest := by
  rw [lossy_leading leading_encode, ← String.length_utf8EncodeChar, List.drop_left]

/-- What was written as UTF-8 is read back. -/
theorem lossy_text (text : List Char) : lossy (text.flatMap String.utf8EncodeChar ++ rest) = text ++ lossy rest := by
  induction text with
  | nil => rfl
  | cons char text ih => rw [List.flatMap_cons, List.append_assoc, lossy_encode, ih, List.cons_append]

variable {mark : UInt8}

/-- Nothing is read across a byte below 128. -/
theorem leading_append (ascii : mark < 0x80) (nonempty : bytes ≠ []) :
    leading (bytes ++ mark :: rest) = leading bytes := by
  apply Option.ext
  intro char
  rw [leading_iff, leading_iff]
  constructor
  · intro shape
    by_cases marked : mark ∈ String.utf8EncodeChar char
    · have alone := encode_ascii ascii marked
      rw [alone] at shape ⊢
      obtain ⟨first, tail, rfl⟩ := List.exists_cons_of_ne_nil nonempty
      obtain ⟨later, same⟩ := shape
      rw [List.singleton_append, List.cons_append] at same
      exact ⟨tail, by rw [List.singleton_append, (List.cons.inj same).1]⟩
    · rcases List.prefix_or_prefix_of_prefix shape (List.prefix_append bytes (mark :: rest)) with inside | beyond
      · exact inside
      · obtain ⟨more, same⟩ := beyond
        rw [← same, List.prefix_append_right_inj] at shape
        cases more with
        | nil => exact ⟨[], by rw [← same, List.append_nil, List.append_nil]⟩
        | cons head more =>
          obtain ⟨later, equal⟩ := shape
          rw [List.cons_append] at equal
          rw [← same, (List.cons.inj equal).1] at marked
          exact absurd (List.mem_append_right _ (List.mem_cons_self ..)) marked
  · intro shape
    exact shape.trans (List.prefix_append ..)

theorem low_ascii {low high : UInt8} (ascii : mark < 0x80) (bound : 0x80 ≤ low) :
    (low ≤ mark && mark ≤ high) = false := by
  have below : ¬ low ≤ mark := UInt8.not_le.mpr (UInt8.lt_of_lt_of_le ascii bound)
  rw [decide_eq_false below, Bool.false_and]

theorem continues_ascii (ascii : mark < 0x80) : continues mark = false :=
  low_ascii ascii (by decide)

theorem second_ascii {first : UInt8} (ascii : mark < 0x80) : second first mark = false := by
  unfold second
  split
  · exact low_ascii ascii (by decide)
  split
  · exact low_ascii ascii (by decide)
  split
  · exact low_ascii ascii (by decide)
  split
  · exact low_ascii ascii (by decide)
  · rw [continues_ascii ascii, Bool.and_false]

theorem broken_append (ascii : mark < 0x80) (nonempty : bytes ≠ []) :
    broken (bytes ++ mark :: rest) = broken bytes := by
  match bytes, nonempty with
  | [first], _ => cases rest <;> simp [broken, second_ascii ascii]
  | [first, next], _ => simp [broken, continues_ascii ascii]
  | first :: next :: third :: more, _ => rfl

theorem broken_le (nonempty : bytes ≠ []) : broken bytes ≤ bytes.length := by
  match bytes, nonempty with
  | [first], _ => exact Nat.le_refl _
  | [first, next], _ =>
    simp only [broken, List.length_cons, List.length_nil]
    split <;> omega
  | first :: next :: third :: more, _ =>
    simp only [broken, List.length_cons]
    split
    · split <;> omega
    · omega

/-- A byte below 128 parts what is read before it from what is read from it on. -/
theorem lossy_append (ascii : mark < 0x80) : lossy (bytes ++ mark :: rest) = lossy bytes ++ lossy (mark :: rest) := by
  induction length : bytes.length using Nat.strongRecOn generalizing bytes with
  | ind size ih =>
    cases bytes with
    | nil => rw [List.nil_append, lossy, List.nil_append]
    | cons first tail =>
      have nonempty : first :: tail ≠ [] := List.cons_ne_nil first tail
      have same := @leading_append _ rest _ ascii nonempty
      cases found : leading (first :: tail) with
      | some char =>
        rw [found] at same
        have fits : char.utf8Size ≤ (first :: tail).length := by
          rw [← String.length_utf8EncodeChar]
          exact (leading_iff.mp found).length_le
        have shorter : ((first :: tail).drop char.utf8Size).length < size := by
          have positive := char.utf8Size_pos
          rw [List.length_drop]
          omega
        rw [lossy_leading same, lossy_leading found, List.drop_append_of_le_length fits, ih _ shorter rfl,
          List.cons_append]
      | none =>
        rw [found] at same
        have fits := broken_le nonempty
        have shorter : ((first :: tail).drop (broken (first :: tail))).length < size := by
          have positive := broken_pos (first :: tail)
          rw [List.length_drop]
          omega
        rw [List.cons_append] at same ⊢
        rw [lossy_broken same, lossy_broken found, ← List.cons_append, broken_append ascii nonempty,
          List.drop_append_of_le_length fits, ih _ shorter rfl, List.cons_append]

/-- A character of one byte was read from that byte. -/
theorem mem_of_mem_lossy (encoded : String.utf8EncodeChar char = [mark]) (member : char ∈ lossy bytes) :
    mark ∈ bytes := by
  induction length : bytes.length using Nat.strongRecOn generalizing bytes with
  | ind size ih =>
    cases bytes with
    | nil =>
      rw [lossy] at member
      exact absurd member List.not_mem_nil
    | cons first tail =>
      cases found : leading (first :: tail) with
      | some leader =>
        rw [lossy_leading found] at member
        rcases List.mem_cons.mp member with rfl | later
        · obtain ⟨more, same⟩ := leading_iff.mp found
          rw [encoded] at same
          exact same ▸ List.mem_cons_self ..
        · have positive := leader.utf8Size_pos
          refine List.mem_of_mem_drop (ih _ ?_ later rfl)
          rw [List.length_drop, ← length, List.length_cons]
          omega
      | none =>
        rw [lossy_broken found] at member
        rcases List.mem_cons.mp member with rfl | later
        · cases encoded
        · have positive := broken_pos (first :: tail)
          refine List.mem_of_mem_drop (ih _ ?_ later rfl)
          rw [List.length_drop, ← length, List.length_cons]
          omega

theorem lossy_ne_nil (nonempty : bytes ≠ []) : lossy bytes ≠ [] := by
  cases bytes with
  | nil => exact absurd rfl nonempty
  | cons first tail =>
    rw [lossy]
    split <;> exact List.cons_ne_nil _ _

end Utf8
end Foundation
