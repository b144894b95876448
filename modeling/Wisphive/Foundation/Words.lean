import Mathlib.Data.List.TakeWhile

/-! Texts of words with gaps between them, and a scanner that treats each word in the light of
the word before it. -/

namespace Foundation
namespace Words
variable {α : Type*} (gap : α → Bool)

/-- Where a reader stands: behind a gap or in a word, and the word that was last begun. -/
structure Cursor (α : Type*) where
  closed : Bool := true
  word : List α := []

def advance (cursor : Cursor α) (item : α) : Cursor α :=
  if gap item then { cursor with closed := true }
  else if cursor.closed then ⟨false, [item]⟩
  else ⟨false, cursor.word ++ [item]⟩

def reach (cursor : Cursor α) (text : List α) : Cursor α :=
  text.foldl (advance gap) cursor

def Gaps (text : List α) : Prop :=
  ∀ item ∈ text, gap item = true

def Unbroken (text : List α) : Prop :=
  ∀ item ∈ text, gap item = false

/-- Where a word before this text ends. -/
def Parted (text : List α) : Prop :=
  ∀ item ∈ text.head?, gap item = true

instance (text : List α) : Decidable (Unbroken gap text) :=
  inferInstanceAs (Decidable (∀ item ∈ text, gap item = false))

instance (text : List α) : Decidable (Parted gap text) :=
  inferInstanceAs (Decidable (∀ item ∈ text.head?, gap item = true))

/-- The scanner. The fuel bounds the number of words. -/
def scanFor (treat : List α → List α → List α) : Nat → List α → List α → List α
  | 0, _, _ => []
  | fuel + 1, previous, text =>
    if (text.dropWhile gap).isEmpty then text.takeWhile gap
    else
      let word := (text.dropWhile gap).takeWhile (!gap ·)
      text.takeWhile gap ++ treat word previous ++
        scanFor treat fuel word ((text.dropWhile gap).dropWhile (!gap ·))

def scan (treat : List α → List α → List α) (previous text : List α) : List α :=
  scanFor gap treat (text.length + 1) previous text

variable {gap} {treat : List α → List α → List α} {previous space word rest text left right : List α} {cursor : Cursor α}
  {fuel : Nat}

theorem parted_append (nonempty : left ≠ []) : Parted gap (left ++ right) ↔ Parted gap left := by
  obtain ⟨item, left, rfl⟩ := List.exists_cons_of_ne_nil nonempty
  exact Iff.rfl

theorem takeWhile_word (unbroken : Unbroken gap word) (parted : Parted gap rest) :
    (word ++ rest).takeWhile (!gap ·) = word := by
  rw [List.takeWhile_append_of_pos (by simpa [Unbroken] using unbroken)]
  cases rest with
  | nil => rw [List.takeWhile_nil, List.append_nil]
  | cons item rest =>
    rw [List.takeWhile_cons_of_neg (by simp [parted item rfl]), List.append_nil]

theorem dropWhile_word (unbroken : Unbroken gap word) (parted : Parted gap rest) :
    (word ++ rest).dropWhile (!gap ·) = rest := by
  rw [List.dropWhile_append_of_pos (by simpa [Unbroken] using unbroken)]
  cases rest with
  | nil => rfl
  | cons item rest => exact List.dropWhile_cons_of_neg (by simp [parted item rfl])

theorem dropWhile_gaps (gaps : Gaps gap space) (unbroken : Unbroken gap word) (nonempty : word ≠ []) :
    (space ++ (word ++ rest)).dropWhile gap = word ++ rest := by
  rw [List.dropWhile_append_of_pos gaps]
  cases word with
  | nil => exact absurd rfl nonempty
  | cons item word =>
    exact List.dropWhile_cons_of_neg (by simp [unbroken item List.mem_cons_self])

theorem takeWhile_gaps (gaps : Gaps gap space) (unbroken : Unbroken gap word) (nonempty : word ≠ []) :
    (space ++ (word ++ rest)).takeWhile gap = space := by
  rw [List.takeWhile_append_of_pos gaps]
  cases word with
  | nil => exact absurd rfl nonempty
  | cons item word =>
    rw [List.cons_append, List.takeWhile_cons_of_neg (by simp [unbroken item List.mem_cons_self]), List.append_nil]

/-- A text is all gaps, or it has a first word with a shorter text behind it. -/
theorem words_induct (gap : α → Bool) {motive : List α → Prop} (gaps : ∀ space, Gaps gap space → motive space)
    (words : ∀ space word rest, Gaps gap space → Unbroken gap word → word ≠ [] → Parted gap rest → motive rest →
      motive (space ++ (word ++ rest)))
    (text : List α) : motive text := by
  induction size : text.length using Nat.strongRecOn generalizing text with
  | ind size ih =>
    have shape : text.takeWhile gap ++ text.dropWhile gap = text := List.takeWhile_append_dropWhile
    have first : Gaps gap (text.takeWhile gap) := fun item member => List.mem_takeWhile_imp member
    cases behind : text.dropWhile gap with
    | nil =>
      rw [behind, List.append_nil] at shape
      exact shape ▸ gaps _ first
    | cons head tail =>
      have solid : gap head = false := by
        have found := List.head?_dropWhile_not gap text
        rwa [behind] at found
      have parts : head :: tail = (head :: tail).takeWhile (!gap ·) ++ (head :: tail).dropWhile (!gap ·) :=
        List.takeWhile_append_dropWhile.symm
      have begun : (head :: tail).takeWhile (!gap ·) ≠ [] := by
        rw [List.takeWhile_cons_of_pos (by simp [solid])]
        exact List.cons_ne_nil _ _
      have shorter : ((head :: tail).dropWhile (!gap ·)).length < text.length := by
        have total := congrArg List.length (shape.trans rfl)
        have split := congrArg List.length parts
        have some := List.length_pos_iff.mpr begun
        rw [List.length_append, behind] at total
        rw [List.length_append] at split
        omega
      rw [← shape, behind, parts]
      refine words _ _ _ first ?_ begun ?_ (ih _ (size ▸ shorter) _ rfl)
      · intro item member
        simpa using List.mem_takeWhile_imp member
      · intro item member
        have found := List.head?_dropWhile_not (fun item => !gap item) (head :: tail)
        rw [Option.mem_def.mp member] at found
        simpa using found

/-! ### The scanner -/

theorem scanFor_gaps (gaps : Gaps gap text) : scanFor gap treat (fuel + 1) previous text = text := by
  have none : text.dropWhile gap = [] := List.dropWhile_eq_nil_iff.mpr gaps
  have all : text.takeWhile gap = text := List.takeWhile_eq_self_iff.mpr gaps
  rw [scanFor, none, all]
  rfl

theorem scanFor_words (gaps : Gaps gap space) (unbroken : Unbroken gap word) (nonempty : word ≠ [])
    (parted : Parted gap rest) :
    scanFor gap treat (fuel + 1) previous (space ++ (word ++ rest)) =
      space ++ (treat word previous ++ scanFor gap treat fuel word rest) := by
  have some : (word ++ rest).isEmpty = false :=
    List.isEmpty_eq_false_iff.mpr (List.append_ne_nil_of_left_ne_nil nonempty rest)
  simp only [scanFor, dropWhile_gaps gaps unbroken nonempty, takeWhile_gaps gaps unbroken nonempty,
    takeWhile_word unbroken parted, dropWhile_word unbroken parted, some, Bool.false_eq_true, if_false,
    List.append_assoc]

/-- Fuel for every item is enough. -/
theorem scanFor_eq (enough : text.length < fuel) : scanFor gap treat fuel previous text = scan gap treat previous text := by
  suffices stable : ∀ more, text.length < more → scanFor gap treat fuel previous text = scanFor gap treat more previous text from
    stable _ (Nat.lt_succ_self _)
  intro more bound
  induction text using words_induct gap generalizing fuel more previous with
  | gaps space gaps =>
    obtain ⟨fuel, rfl⟩ := Nat.exists_eq_add_of_lt enough
    obtain ⟨more, rfl⟩ := Nat.exists_eq_add_of_lt bound
    rw [scanFor_gaps gaps, scanFor_gaps gaps]
  | words space word rest gaps unbroken nonempty parted ih =>
    have some := List.length_pos_iff.mpr nonempty
    rw [List.length_append, List.length_append] at enough bound
    obtain ⟨fuel, rfl⟩ := Nat.exists_eq_succ_of_ne_zero (Nat.ne_of_gt (Nat.zero_lt_of_lt enough))
    obtain ⟨more, rfl⟩ := Nat.exists_eq_succ_of_ne_zero (Nat.ne_of_gt (Nat.zero_lt_of_lt bound))
    rw [scanFor_words gaps unbroken nonempty parted, scanFor_words gaps unbroken nonempty parted,
      ih (by omega) more (by omega)]

theorem scan_gaps (gaps : Gaps gap text) : scan gap treat previous text = text :=
  scanFor_gaps gaps

theorem scan_words (gaps : Gaps gap space) (unbroken : Unbroken gap word) (nonempty : word ≠ [])
    (parted : Parted gap rest) :
    scan gap treat previous (space ++ (word ++ rest)) =
      space ++ (treat word previous ++ scan gap treat word rest) := by
  have some := List.length_pos_iff.mpr nonempty
  rw [scan, scanFor_words gaps unbroken nonempty parted, scanFor_eq]
  rw [List.length_append, List.length_append]
  omega

theorem Gaps.append (first : Gaps gap left) (second : Gaps gap right) : Gaps gap (left ++ right) :=
  fun item member => (List.mem_append.mp member).elim (first item) (second item)

theorem scan_gaps_append (gaps : Gaps gap space) :
    scan gap treat previous (space ++ text) = space ++ scan gap treat previous text := by
  induction text using words_induct gap with
  | gaps text behind => rw [scan_gaps behind, scan_gaps (gaps.append behind)]
  | words more word rest behind unbroken nonempty parted =>
    rw [← List.append_assoc, scan_words (gaps.append behind) unbroken nonempty parted,
      scan_words behind unbroken nonempty parted, List.append_assoc]

theorem scan_parted (parted : Parted gap text) :
    scan gap treat previous text = [] ∧ text = [] ∨
      ∃ item rest, gap item = true ∧ scan gap treat previous text = item :: rest := by
  cases text with
  | nil => exact .inl ⟨scan_gaps fun _ member => absurd member List.not_mem_nil, rfl⟩
  | cons item text =>
    have gaps : Gaps gap [item] := fun other member => List.mem_singleton.mp member ▸ parted item rfl
    exact .inr ⟨item, _, parted item rfl, scan_gaps_append gaps⟩

/-! ### The cursor -/

theorem reach_append : reach gap cursor (left ++ right) = reach gap (reach gap cursor left) right :=
  List.foldl_append

theorem reach_gaps (gaps : Gaps gap space) (closed : cursor.closed = true) : reach gap cursor space = cursor := by
  induction space with
  | nil => rfl
  | cons item space ih =>
    have still : advance gap cursor item = cursor := by
      rw [advance, if_pos (gaps item List.mem_cons_self), ← closed]
    rw [reach, List.foldl_cons, still]
    exact ih fun other member => gaps other (List.mem_cons_of_mem item member)

theorem reach_open (unbroken : Unbroken gap word) : reach gap ⟨false, previous⟩ word = ⟨false, previous ++ word⟩ := by
  induction word generalizing previous with
  | nil => rw [List.append_nil]; rfl
  | cons item word ih =>
    have longer : advance gap ⟨false, previous⟩ item = ⟨false, previous ++ [item]⟩ := by
      rw [advance, if_neg (by rw [unbroken item List.mem_cons_self]; exact Bool.false_ne_true)]
      rfl
    rw [reach, List.foldl_cons, longer]
    exact (ih fun other member => unbroken other (List.mem_cons_of_mem item member)).trans
      (by rw [List.append_assoc, List.singleton_append])

theorem reach_word (unbroken : Unbroken gap word) (nonempty : word ≠ []) (closed : cursor.closed = true) :
    reach gap cursor word = ⟨false, word⟩ := by
  cases word with
  | nil => exact absurd rfl nonempty
  | cons item word =>
    have first : advance gap cursor item = ⟨false, [item]⟩ := by
      rw [advance, if_neg (by rw [unbroken item List.mem_cons_self]; exact Bool.false_ne_true), if_pos closed]
    rw [reach, List.foldl_cons, first]
    exact reach_open fun other member => unbroken other (List.mem_cons_of_mem item member)

theorem reach_parted (parted : Parted gap rest) (more : rest ≠ []) :
    reach gap ⟨false, word⟩ rest = reach gap ⟨true, word⟩ rest := by
  cases rest with
  | nil => exact absurd rfl more
  | cons item rest =>
    have first : advance gap ⟨false, word⟩ item = advance gap ⟨true, word⟩ item := by
      rw [advance, advance, if_pos (parted item rfl), if_pos (parted item rfl)]
    rw [reach, List.foldl_cons, first]
    rfl

theorem reach_words (gaps : Gaps gap space) (unbroken : Unbroken gap word) (nonempty : word ≠ [])
    (parted : Parted gap rest) (more : rest ≠ []) (closed : cursor.closed = true) :
    reach gap cursor (space ++ (word ++ rest)) = reach gap ⟨true, word⟩ rest := by
  rw [reach_append, reach_append, reach_gaps gaps closed, reach_word unbroken nonempty closed,
    reach_parted parted more]

/-- At a gap the text comes apart. -/
theorem scan_append (starts : cursor.closed = true) (ends : (reach gap cursor left).closed = true) :
    scan gap treat cursor.word (left ++ right) =
      scan gap treat cursor.word left ++ scan gap treat (reach gap cursor left).word right := by
  induction left using words_induct gap generalizing cursor with
  | gaps space gaps => rw [scan_gaps_append gaps, scan_gaps gaps, reach_gaps gaps starts]
  | words space word rest gaps unbroken nonempty parted ih =>
    have more : rest ≠ [] := by
      rintro rfl
      rw [reach_append, List.append_nil, reach_gaps gaps starts, reach_word unbroken nonempty starts] at ends
      exact Bool.false_ne_true ends
    rw [reach_words gaps unbroken nonempty parted more starts] at ends ⊢
    have still : Parted gap (rest ++ right) := (parted_append more).mpr parted
    have later : scan gap treat word (rest ++ right) =
        scan gap treat word rest ++ scan gap treat (reach gap ⟨true, word⟩ rest).word right :=
      @ih ⟨true, word⟩ rfl ends
    rw [List.append_assoc, List.append_assoc, scan_words gaps unbroken nonempty still, later,
      scan_words gaps unbroken nonempty parted, List.append_assoc, List.append_assoc]

/-- A word stands between what is scanned before it and what is scanned behind it. -/
theorem scan_at (starts : cursor.closed = true) (ends : (reach gap cursor left).closed = true)
    (unbroken : Unbroken gap word) (nonempty : word ≠ []) (parted : Parted gap right) :
    scan gap treat cursor.word (left ++ (word ++ right)) =
      scan gap treat cursor.word left ++
        (treat word (reach gap cursor left).word ++ scan gap treat word right) := by
  have first : scan gap treat (reach gap cursor left).word (word ++ right) =
      treat word (reach gap cursor left).word ++ scan gap treat word right :=
    @scan_words α gap treat _ [] word right (fun _ member => absurd member List.not_mem_nil) unbroken nonempty parted
  rw [scan_append starts ends, first]

/-- A text of which every word is left alone is left alone. -/
theorem scan_same (starts : cursor.closed = true)
    (alone : ∀ left word right, text = left ++ (word ++ right) → (reach gap cursor left).closed = true →
      Unbroken gap word → word ≠ [] → Parted gap right → treat word (reach gap cursor left).word = word) :
    scan gap treat cursor.word text = text := by
  induction text using words_induct gap generalizing cursor with
  | gaps space gaps => exact scan_gaps gaps
  | words space word rest gaps unbroken nonempty parted ih =>
    have first : treat word cursor.word = word := by
      have here := alone space word rest rfl
      rw [reach_gaps gaps starts] at here
      exact here starts unbroken nonempty parted
    have later : scan gap treat word rest = rest := by
      refine @ih ⟨true, word⟩ rfl fun left next right shape closed solid some behind => ?_
      by_cases empty : left = []
      · subst empty
        -- a word cannot follow a word without a gap
        exfalso
        obtain ⟨item, next, rfl⟩ := List.exists_cons_of_ne_nil some
        have gapped := parted item (by rw [shape]; rfl)
        rw [solid item List.mem_cons_self] at gapped
        exact Bool.false_ne_true gapped
      · have behindWord : Parted gap left := (parted_append empty).mp (shape ▸ parted)
        have reached := @reach_words α gap space word left cursor gaps unbroken nonempty behindWord empty starts
        have there := alone (space ++ (word ++ left)) next right (by rw [shape]; simp only [List.append_assoc])
        rw [reached] at there
        exact there closed solid some behind
    rw [scan_words gaps unbroken nonempty parted, first, later]

end Words
end Foundation
