import Wisphive.Proofs.LogSafe

/-! Secrets assigned by key: which of the values in a text the scrubber hides. -/

namespace Wisphive.Redact
open Foundation Words

/-- A value is a run without white space, or it stands in quotes. -/
inductive Valued : Option Char → List Char → List Char → Prop where
  | run {value after : List Char} (nonempty : value ≠ []) (unbroken : Unbroken isWhitespace value)
      (parted : Parted isWhitespace after) : Valued none value after
  | quoted {quote : Char} {value after : List Char} (quotes : quote = '"' ∨ quote = '\'') (inside : quote ∉ value) :
      Valued (some quote) value after

/-- A value that is assigned to a secret key, anywhere in a text. A colon may have white space
behind it. -/
structure Assignment where
  before : List Char
  key : List Char
  separator : Char
  space : List Char
  quote : Option Char
  value : List Char
  after : List Char
  secret : keyIsSecret key = true
  separates : separator = '=' ∧ space = [] ∨ separator = ':' ∧ Gaps isWhitespace space
  valued : Valued quote value after

namespace Assignment

def left (assignment : Assignment) : List Char :=
  assignment.before ++ (assignment.key ++ assignment.separator :: (assignment.space ++ assignment.quote.toList))

def right (assignment : Assignment) : List Char :=
  assignment.quote.toList ++ assignment.after

def text (assignment : Assignment) : List Char :=
  assignment.left ++ (assignment.value ++ assignment.right)

end Assignment

/-- A run of the value without white space, in the word of the text to which it belongs. -/
structure Run (assignment : Assignment) (before front piece back after : List Char) : Prop where
  maximal : ∃ skipped later,
    assignment.left ++ skipped = before ++ front ∧ assignment.value = skipped ++ (piece ++ later) ∧
      later ++ assignment.right = back ++ after ∧ (reach isWhitespace {} skipped).closed = true ∧
        Parted isWhitespace later
  nonempty : piece ≠ []
  placed : Placed before (front ++ (piece ++ back)) after

/-- The output has a run in its place: behind what the words before it have become, and what
stands before it in its own word. The rules drop the wrapping in front of a word. -/
def Shown (before front piece text : List Char) : Prop :=
  ∃ shown ∈ [front ++ piece, (front ++ piece).dropWhile wraps], shown ≠ [] ∧
    (redactText (String.ofList before)).toList ++ pushLogSafe shown <+: (redactText (String.ofList text)).toList

/-- No run of the value is in the output where it stands in the text. -/
def Assignment.Hidden (assignment : Assignment) : Prop :=
  ∀ before front piece back after, Run assignment before front piece back after →
    ¬ Shown before front piece assignment.text

/-- Not even the first character of a run is in the output where it stands. -/
def Assignment.Concealed (assignment : Assignment) : Prop :=
  ∀ before front char rest back after, Run assignment before front (char :: rest) back after →
    ¬ Shown before front [char] assignment.text

/-- The first such separator of a word has a secret key in front of it and something behind it. -/
structure Keys (separator : Char) (core : List Char) (place : Nat) : Prop where
  found : core[place]? = some separator
  first : separator ∉ core.take place
  secret : keyIsSecret (core.take place) = true
  assigned : place + 1 < core.length

/-- Where the part of a word that stays in the clear ends: behind the separator of a secret key,
where an equals sign goes before a colon, or at the start of a word that is secret by the word
before it or by its prefix, or behind the equals sign in front of such a prefix. -/
inductive Cut (core prevWord : List Char) : Nat → Prop where
  | equals {place : Nat} (keys : Keys '=' core place) : Cut core prevWord (place + 1)
  | colon {place : Nat} (unequal : ∀ other, ¬ Keys '=' core other) (keys : Keys ':' core place) :
      Cut core prevWord (place + 1)
  | start (unequal : ∀ other, ¬ Keys '=' core other) (uncolon : ∀ other, ¬ Keys ':' core other)
      (secret : (follows core prevWord || tokenHasSecretPrefix core) = true) : Cut core prevWord 0
  | assigned {place : Nat} (unequal : ∀ other, ¬ Keys '=' core other) (uncolon : ∀ other, ¬ Keys ':' core other)
      (plain : (follows core prevWord || tokenHasSecretPrefix core) = false) (found : core[place]? = some '=')
      (first : '=' ∉ core.take place) (secret : tokenHasSecretPrefix (core.drop (place + 1)) = true) :
      Cut core prevWord (place + 1)

/-- The clear part of the word ends before the run does, and the run does not go on as the
placeholder begins. The word is taken without its wrapping. -/
def Covered (before front piece back : List Char) : Prop :=
  ∃ cut, Cut (trimWrapping (front ++ (piece ++ back))) (lastWord before) cut ∧
    let reached := (front ++ piece).dropWhile wraps
    (reached = [] ∨ cut < reached.length ∧ ¬ reached.drop cut <+: redacted)

variable {before front piece back after word prevWord core kept shown text : List Char}
  {separator : Char}

/-! ### What a rule keeps -/

theorem splitOnce_shape {halves : List Char × List Char} (found : splitOnce separator core = some halves) :
    core = halves.1 ++ separator :: halves.2 := by
  induction core generalizing halves with
  | nil => exact absurd found (by simp [splitOnce])
  | cons char core ih =>
    rw [splitOnce] at found
    split at found
    · next same =>
      rw [← Option.some.inj found, same]
      rfl
    · obtain ⟨inner, behind, rfl⟩ := Option.map_eq_some_iff.mp found
      rw [ih behind]
      rfl

theorem splitOnce_eq_some_iff {halves : List Char × List Char} : splitOnce separator core = some halves ↔
    ∃ place, core[place]? = some separator ∧ separator ∉ core.take place ∧
      halves = (core.take place, core.drop (place + 1)) := by
  induction core generalizing halves with
  | nil => simp [splitOnce]
  | cons char core ih =>
    rw [splitOnce]
    constructor
    · intro found
      split at found
      next same => exact ⟨0, by simpa using same, List.not_mem_nil, (Option.some.inj found).symm⟩
      next differs =>
        obtain ⟨inner, behind, rfl⟩ := Option.map_eq_some_iff.mp found
        obtain ⟨place, here, first, rfl⟩ := ih.mp behind
        refine ⟨place + 1, by simpa using here, ?_, rfl⟩
        rw [List.take_succ_cons, List.mem_cons, not_or]
        exact ⟨Ne.symm differs, first⟩
    · rintro ⟨place, here, first, rfl⟩
      cases place with
      | zero => rw [if_pos (by simpa using here)]; rfl
      | succ place =>
        rw [List.take_succ_cons, List.mem_cons, not_or] at first
        have behind : splitOnce separator core = some (core.take place, core.drop (place + 1)) :=
          ih.mpr ⟨place, by simpa using here, first.2, rfl⟩
        rw [if_neg (Ne.symm first.1), behind]
        rfl

theorem splitOnce_of_not_mem {before behind : List Char} (absent : separator ∉ before) :
    splitOnce separator (before ++ separator :: behind) = some (before, behind) := by
  induction before with
  | nil => rw [List.nil_append, splitOnce, if_pos rfl]
  | cons char rest ih =>
    rw [List.mem_cons, not_or] at absent
    rw [List.cons_append, splitOnce, if_neg (Ne.symm absent.1), ih absent.2]
    rfl

theorem splitOnce_none (absent : separator ∉ core) : splitOnce separator core = none := by
  induction core with
  | nil => rfl
  | cons char rest ih =>
    rw [List.mem_cons, not_or] at absent
    rw [splitOnce, if_neg (Ne.symm absent.1), ih absent.2]
    rfl

theorem take_succ_of_getElem? {place : Nat} (found : core[place]? = some separator) :
    core.take (place + 1) = core.take place ++ [separator] := by
  rw [List.take_add_one, found, Option.toList_some]

theorem keyed_iff : keyed core separator = some kept ↔ ∃ place, Keys separator core place ∧ kept = core.take (place + 1) := by
  unfold keyed
  simp only [Option.bind_eq_some_iff, splitOnce_eq_some_iff, Option.ite_none_right_eq_some, Bool.and_eq_true,
    Bool.not_eq_true', List.isEmpty_eq_false_iff, Option.some.injEq]
  constructor
  · rintro ⟨_, ⟨place, found, first, rfl⟩, ⟨secret, assigned⟩, rfl⟩
    refine ⟨place, ⟨found, first, secret, ?_⟩, (take_succ_of_getElem? found).symm⟩
    simpa using assigned
  · rintro ⟨place, ⟨found, first, secret, assigned⟩, rfl⟩
    refine ⟨_, ⟨place, found, first, rfl⟩, ⟨secret, ?_⟩, (take_succ_of_getElem? found).symm⟩
    simpa using assigned

theorem keyed_none : keyed core separator = none ↔ ∀ place, ¬ Keys separator core place := by
  rw [Option.eq_none_iff_forall_ne_some]
  constructor
  · intro none place keys
    exact none _ (keyed_iff.mpr ⟨place, keys, rfl⟩)
  · intro none kept found
    obtain ⟨place, keys, _⟩ := keyed_iff.mp found
    exact none place keys

/-- What a rule keeps is the clear part. -/
theorem applied_iff : applied word prevWord = some kept ↔
    ∃ cut, Cut (trimWrapping word) prevWord cut ∧ kept = (trimWrapping word).take cut := by
  unfold applied
  simp only [Option.or_eq_some_iff, keyed_iff, keyed_none]
  constructor
  · rintro (⟨place, keys, rfl⟩ | ⟨unequal, ⟨place, keys, rfl⟩ | ⟨uncolon, behind⟩⟩)
    · exact ⟨_, .equals keys, rfl⟩
    · exact ⟨_, .colon unequal keys, rfl⟩
    · split at behind
      next secret => exact ⟨0, .start unequal uncolon secret, (Option.some.inj behind).symm⟩
      next plain =>
        obtain ⟨halves, split, result⟩ := Option.bind_eq_some_iff.mp behind
        obtain ⟨place, found, first, rfl⟩ := splitOnce_eq_some_iff.mp split
        rw [Option.ite_none_right_eq_some] at result
        refine ⟨_, .assigned unequal uncolon (Bool.eq_false_iff.mpr plain) found first result.1, ?_⟩
        rw [take_succ_of_getElem? found]
        exact (Option.some.inj result.2).symm
  · rintro ⟨cut, ruled, rfl⟩
    cases ruled with
    | equals keys => exact .inl ⟨_, keys, rfl⟩
    | colon unequal keys => exact .inr ⟨unequal, .inl ⟨_, keys, rfl⟩⟩
    | start unequal uncolon secret => exact .inr ⟨unequal, .inr ⟨uncolon, if_pos secret⟩⟩
    | @assigned place unequal uncolon plain found first secret =>
      refine .inr ⟨unequal, .inr ⟨uncolon, ?_⟩⟩
      rw [if_neg (Bool.eq_false_iff.mp plain), splitOnce_eq_some_iff.mpr ⟨place, found, first, rfl⟩, Option.bind_some,
        if_pos secret, take_succ_of_getElem? found]

theorem Cut.within {cut : Nat} (ruled : Cut core prevWord cut) : cut ≤ core.length := by
  cases ruled with
  | equals keys | colon _ keys => exact keys.assigned.le
  | start => exact Nat.zero_le _
  | assigned _ _ _ found => exact (List.getElem?_eq_some_iff.mp found).1

theorem trimEnd_starts (drops : Char → Bool) (text : List Char) : trimEnd drops text <+: text := by
  have suffix := List.dropWhile_suffix (l := text.reverse) drops
  rw [trimEnd, ← List.reverse_suffix, List.reverse_reverse]
  exact suffix

/-- What is kept begins the word behind its wrapping. -/
theorem applied_kept (found : applied word prevWord = some kept) : kept <+: word.dropWhile wraps := by
  obtain ⟨cut, _, rfl⟩ := applied_iff.mp found
  exact (List.take_prefix ..).trans (trimEnd_starts wraps _)

theorem redacted_star : redacted = '*' :: redacted.tail := by
  decide

theorem bare (begins : kept <+: word.dropWhile wraps) (shows : text <+: kept ++ redacted) :
    text.dropWhile wraps = text := by
  cases text with
  | nil => rfl
  | cons char text =>
    have solid : wraps char = false := by
      cases kept with
      | nil =>
        obtain ⟨rest, shape⟩ := shows
        rw [List.nil_append, redacted_star] at shape
        have first : char = '*' := (List.cons.inj shape).1
        rw [first]
        rfl
      | cons head kept =>
        obtain ⟨rest, shape⟩ := shows
        obtain ⟨tail, whole⟩ := begins
        have first : char = head := (List.cons.inj shape).1
        have found := List.head?_dropWhile_not wraps word
        rw [← whole] at found
        rw [first]
        exact found
    exact List.dropWhile_cons_of_neg (ne_true_of_eq_false solid)

/-- Two beginnings of one text: the run is in what is kept, or it goes on behind it. -/
theorem prefix_placeholder (begins : kept <+: shown ++ back) :
    shown <+: kept ++ redacted ↔ shown.length ≤ kept.length ∨ shown.drop kept.length <+: redacted := by
  have own : shown <+: shown ++ back := List.prefix_append ..
  by_cases short : shown.length ≤ kept.length
  · exact iff_of_true ((List.prefix_of_prefix_length_le own begins short).trans (List.prefix_append ..)) (.inl short)
  · have inside : kept <+: shown := List.prefix_of_prefix_length_le begins own (Nat.le_of_not_le short)
    obtain ⟨rest, rfl⟩ := inside
    rw [List.prefix_append_right_inj, List.drop_left]
    exact (or_iff_right short).symm

/-! ### A run of a value -/

theorem scrub_parted (parted : Parted isWhitespace text) (unbroken : Unbroken isWhitespace shown)
    (shows : shown <+: kept ++ scrub prevWord text) : shown <+: kept := by
  rcases List.prefix_or_prefix_of_prefix shows (List.prefix_append kept _) with inside | ⟨rest, rfl⟩
  · exact inside
  · rw [List.prefix_append_right_inj] at shows
    cases rest with
    | nil => exact (List.append_nil kept).symm ▸ List.prefix_refl kept
    | cons char rest =>
      obtain ⟨none, _⟩ | ⟨gap, tail, is_gap, some⟩ := @scan_parted _ isWhitespace redactWord prevWord _ parted
      · rw [show scrub prevWord text = [] from none, List.prefix_nil] at shows
        exact absurd shows (List.cons_ne_nil _ _)
      · rw [show scrub prevWord text = gap :: tail from some, List.cons_prefix_cons] at shows
        rw [← shows.1, unbroken char (List.mem_append_right _ List.mem_cons_self)] at is_gap
        exact absurd is_gap Bool.false_ne_true

/-- What the output shows in a word is what the rules leave of the word. -/
theorem shown_iff (placed : Placed before (front ++ (piece ++ back)) after) :
    Shown before front piece (before ++ ((front ++ (piece ++ back)) ++ after)) ↔
      ∃ shown ∈ [front ++ piece, (front ++ piece).dropWhile wraps],
        shown ≠ [] ∧ shown <+: redactWord (front ++ (piece ++ back)) (lastWord before) := by
  have inside : ∀ shown ∈ [front ++ piece, (front ++ piece).dropWhile wraps], Unbroken isWhitespace shown := by
    intro shown member char within
    refine placed.unbroken char ?_
    rw [← List.append_assoc]
    refine List.mem_append_left _ ?_
    simp only [List.mem_cons, List.not_mem_nil, or_false] at member
    rcases member with rfl | rfl
    · exact within
    · exact (List.dropWhile_sublist _).mem within
  unfold Shown
  refine exists_congr fun shown => and_congr_right fun member => and_congr_right fun _ => ?_
  rw [redactText_eq, redactText_eq, String.toList_ofList, String.toList_ofList, scrub_at placed, ← pushLogSafe_append,
    pushLogSafe_prefix, List.prefix_append_right_inj]
  exact ⟨scrub_parted placed.parted (inside shown member), fun shows => shows.trans (List.prefix_append ..)⟩

theorem covered_iff : Covered before front piece back ↔
    ∃ kept, applied (front ++ (piece ++ back)) (lastWord before) = some kept ∧
      let reached := (front ++ piece).dropWhile wraps
      (reached = [] ∨ kept.length < reached.length ∧ ¬ reached.drop kept.length <+: redacted) := by
  constructor
  · rintro ⟨cut, ruled, ends⟩
    refine ⟨_, applied_iff.mpr ⟨cut, ruled, rfl⟩, ?_⟩
    rwa [List.length_take, Nat.min_eq_left ruled.within]
  · rintro ⟨kept, found, ends⟩
    obtain ⟨cut, ruled, rfl⟩ := applied_iff.mp found
    rw [List.length_take, Nat.min_eq_left ruled.within] at ends
    exact ⟨cut, ruled, ends⟩

/-- A run is hidden where a rule covers it, and nowhere else. -/
theorem run_hidden_iff (nonempty : piece ≠ []) (placed : Placed before (front ++ (piece ++ back)) after) :
    ¬ Shown before front piece (before ++ ((front ++ (piece ++ back)) ++ after)) ↔ Covered before front piece back := by
  have some : front ++ piece ≠ [] := List.append_ne_nil_of_right_ne_nil _ nonempty
  rw [shown_iff placed, redactWord_eq, covered_iff]
  cases rule : applied (front ++ (piece ++ back)) (lastWord before) with
  | none =>
    refine iff_of_false (not_not_intro ?_) (by simp)
    exact ⟨front ++ piece, List.mem_cons_self, some, by rw [← List.append_assoc]; exact List.prefix_append ..⟩
  | some kept =>
    have begins : kept <+: (front ++ (piece ++ back)).dropWhile wraps := applied_kept rule
    have bared : (∃ shown ∈ [front ++ piece, (front ++ piece).dropWhile wraps], shown ≠ [] ∧ shown <+: kept ++ redacted) ↔
        (front ++ piece).dropWhile wraps ≠ [] ∧ (front ++ piece).dropWhile wraps <+: kept ++ redacted := by
      constructor
      · rintro ⟨shown, member, filled, shows⟩
        simp only [List.mem_cons, List.not_mem_nil, or_false] at member
        rcases member with rfl | rfl
        · rw [bare begins shows]
          exact ⟨filled, shows⟩
        · exact ⟨filled, shows⟩
      · rintro ⟨filled, shows⟩
        exact ⟨_, List.mem_cons_of_mem _ List.mem_cons_self, filled, shows⟩
    simp only [Option.map_some, Option.getD_some, Option.some.injEq, exists_eq_left', bared]
    by_cases empty : (front ++ piece).dropWhile wraps = []
    · exact iff_of_true (fun shows => shows.1 empty) (.inl empty)
    · have shape : (front ++ (piece ++ back)).dropWhile wraps = (front ++ piece).dropWhile wraps ++ back := by
        rw [← List.append_assoc, List.dropWhile_append, if_neg (by simpa using empty)]
      rw [prefix_placeholder (shape ▸ begins), not_and, not_or, Nat.not_le]
      exact ⟨fun hides => .inr (hides empty), fun covers _ => covers.resolve_left empty⟩

theorem Run.place {assignment : Assignment} (run : Run assignment before front piece back after) :
    assignment.text = before ++ ((front ++ (piece ++ back)) ++ after) := by
  obtain ⟨skipped, later, starts, parts, ends, _, _⟩ := run.maximal
  rw [Assignment.text, parts]
  simp only [List.append_assoc]
  rw [ends, ← List.append_assoc assignment.left, starts]
  simp only [List.append_assoc]

/-- A value is hidden exactly when each of its runs ends behind the clear part of its word, and
nothing of it is in the output exactly when each run starts there. -/
theorem assignment_hidden_iff (assignment : Assignment) :
    (assignment.Hidden ↔
      ∀ before front piece back after, Run assignment before front piece back after →
        Covered before front piece back) ∧
    (assignment.Concealed ↔
      ∀ before front char rest back after, Run assignment before front (char :: rest) back after →
        Covered before front [char] (rest ++ back)) := by
  constructor
  · refine forall_congr' fun before => forall_congr' fun front => forall_congr' fun piece => forall_congr' fun back =>
      forall_congr' fun after => forall_congr' fun run => ?_
    rw [run.place]
    exact run_hidden_iff run.nonempty run.placed
  · refine forall_congr' fun before => forall_congr' fun front => forall_congr' fun char => forall_congr' fun rest =>
      forall_congr' fun back => forall_congr' fun after => forall_congr' fun run => ?_
    have word : front ++ (char :: rest ++ back) = front ++ ([char] ++ (rest ++ back)) := rfl
    rw [run.place, word]
    exact run_hidden_iff (List.cons_ne_nil _ _) (word ▸ run.placed)

def queryToken : Assignment where
  before := "?user=al&".toList
  key := "token".toList
  separator := '='
  space := []
  quote := none
  value := "abc123".toList
  after := []
  secret := by decide
  separates := .inl ⟨rfl, rfl⟩
  valued := .run (by decide) (by decide) (by decide)

/-- A token behind another parameter of a query. -/
theorem query_token_shown : ¬ queryToken.Hidden := by
  intro hidden
  refine hidden [] "?user=al&token=".toList "abc123".toList [] [] ?_ ?_
  · exact
      { maximal := ⟨[], [], by decide, by decide, by decide, rfl, by decide⟩
        nonempty := by decide
        placed := ⟨rfl, by decide, by decide, by decide⟩ }
  · exact ⟨"?user=al&token=abc123".toList, by decide, by decide, by decide⟩

end Wisphive.Redact
