import Mathlib.Data.List.Basic
import Mathlib.Tactic.ByContra
import Wisphive.HookMatcher

/-! Which commands the matcher of the installer is right about. -/

namespace Wisphive
open Foundation Redact
namespace HookMatcher
variable {setting : Shell.Setting} {patterns : Bool} {text found rest argv0 : List Char} {char : Char}
  {quoting : Shell.Quoting} {phase : Shell.EnvPhase} {cmd : String}

theorem isSpace_of_isGap (gap : Shell.isGap char = true) : isSpace char = true := by
  simp only [Shell.isGap, Shell.isBlank, Bool.or_eq_true, decide_eq_true_eq] at gap
  rcases gap with (rfl | rfl) | rfl <;> decide +kernel

theorem not_isGap (visible : ¬ isSpace char = true) : Shell.isGap char = false := by
  by_contra gap
  exact visible (isSpace_of_isGap (by simpa using gap))

/-- The same text is read, up to different ends. -/
def Agrees (read : Option (List Char × List Char)) (argv : Option (List Char)) : Prop :=
  ∃ found rest, read = some (found, rest) ∧ argv = some found

theorem Agrees.push {read : Option (List Char × List Char)} {argv : Option (List Char)} (agrees : Agrees read argv)
    (char : Char) : Agrees (Shell.push char read) (argv.map (char :: ·)) := by
  obtain ⟨found, rest, rfl, rfl⟩ := agrees
  exact ⟨char :: found, rest, rfl, rfl⟩

/-- A plain word is read alike by the shell and by the matcher. -/
theorem plain_agrees (clear : plain patterns quoting text = true) :
    Agrees (Shell.readWord setting patterns quoting 0 text) (argvWord quoting text) := by
  fun_induction plain patterns quoting text with
  | case1 => exact ⟨[], [], rfl, rfl⟩
  | case2 char rest space =>
    refine ⟨[], char :: rest, ?_, ?_⟩
    · rw [Shell.readWord.eq_def]
      exact if_pos clear
    · rw [argvWord.eq_def]
      exact if_pos space
  | case3 rest visible ih =>
    rw [Shell.readWord.eq_def, argvWord.eq_def]
    simp only [visible, not_isGap visible, Bool.false_eq_true, if_false, if_true]
    exact ih clear
  | case4 rest visible _ ih =>
    rw [Shell.readWord.eq_def, argvWord.eq_def]
    simp only [visible, not_isGap visible, Bool.false_eq_true, Char.reduceEq, if_false, if_true]
    exact ih clear
  | case5 | case8 | case11 | case13 | case14 => cases clear
  | case6 next rest visible _ _ ih =>
    rw [Bool.and_eq_true, decide_eq_true_eq] at clear
    have read : Shell.readWord setting patterns .bare 0 ('\\' :: next :: rest) =
        Shell.push next (Shell.readWord setting patterns .bare 0 rest) := by
      rw [Shell.readWord.eq_def]
      simp [not_isGap visible, clear.1]
    have argv : argvWord .bare ('\\' :: next :: rest) = (argvWord .bare rest).map (next :: ·) := by
      rw [argvWord.eq_def]
      simp [visible]
    rw [read, argv]
    exact (ih clear.2).push next
  | case7 char rest visible single double back ih =>
    rw [Bool.and_eq_true, Bool.and_eq_true, Bool.not_eq_true', Bool.not_eq_true'] at clear
    rw [Shell.readWord.eq_def, argvWord.eq_def]
    simp only [visible, not_isGap visible, Bool.false_eq_true, single, double, back, clear.1.1, clear.1.2, if_false]
    exact (ih clear.2).push char
  | case9 rest ih =>
    rw [Shell.readWord.eq_def, argvWord.eq_def]
    simp only [if_true]
    exact ih clear
  | case10 char rest inside ih =>
    rw [Shell.readWord.eq_def, argvWord.eq_def]
    simp only [inside, if_false]
    exact (ih clear).push char
  | case12 rest ih =>
    rw [Shell.readWord.eq_def, argvWord.eq_def]
    simp only [if_true]
    exact ih clear
  | case15 next rest _ literal ih =>
    rw [Bool.and_eq_true] at clear
    have visible : next ≠ '\n' := by
      rintro rfl
      exact absurd clear.1 (by decide)
    have read : Shell.readWord setting patterns .double 0 ('\\' :: next :: rest) =
        Shell.push next (Shell.readWord setting patterns .double 0 rest) := by
      rw [Shell.readWord.eq_def]
      simp [literal, visible, clear.1]
    have argv : argvWord .double ('\\' :: next :: rest) = (argvWord .double rest).map (next :: ·) := by
      rw [argvWord.eq_def]
      simp
    rw [read, argv]
    exact (ih clear.2).push next
  | case16 char rest double literal back ih =>
    rw [Shell.readWord.eq_def, argvWord.eq_def]
    simp only [double, literal, back, if_false]
    exact (ih clear).push char

/-! ### Words of one last name -/

theorem segments_ne_nil (text : List Char) : PathBuf.segments text ≠ [] := by
  fun_cases PathBuf.segments text <;> exact List.cons_ne_nil _ _

theorem segments_append (before after : List Char) :
    PathBuf.segments (before ++ '/' :: after) = PathBuf.segments before ++ PathBuf.segments after := by
  induction before with
  | nil => simp only [List.nil_append, PathBuf.segments, if_true, List.singleton_append]
  | cons char rest ih =>
    rw [List.cons_append, PathBuf.segments, PathBuf.segments, ih]
    split
    · rfl
    · cases whole : PathBuf.segments rest with
      | nil => exact absurd whole (segments_ne_nil rest)
      | cons => rfl

/-- The names behind a slash end the names of the whole path. -/
theorem components_behind (before found : List Char) :
    ∃ front, (PathBuf.components ⟨String.ofList (before ++ '/' :: found)⟩).2 =
      front ++ (PathBuf.components ⟨String.ofList ('/' :: found)⟩).2 := by
  simp only [PathBuf.components, String.toList_ofList, segments_append]
  rw [PathBuf.segments, if_pos rfl]
  cases whole : PathBuf.segments before with
  | nil => exact absurd whole (segments_ne_nil before)
  | cons first rest =>
    simp only [List.cons_append, List.filter_append, if_true]
    split
    · exact ⟨_, rfl⟩
    · exact ⟨first :: rest.filter _, rfl⟩

/-- The name behind a slash is the last one of the whole path. -/
theorem fileName_behind (before : List Char) (named : (fileName ('/' :: found)).isSome) :
    fileName (before ++ '/' :: found) = fileName ('/' :: found) := by
  obtain ⟨front, whole⟩ := components_behind before found
  unfold fileName at named ⊢
  rw [whole, List.getLast?_append]
  cases last : (PathBuf.components ⟨String.ofList ('/' :: found)⟩).2.getLast? with
  | none =>
    rw [last] at named
    cases named
  | some name => rfl

/-- Both texts are read, and from a slash on they are the same. -/
def EndAlike (read : Option (List Char × List Char)) (argv : Option (List Char)) : Prop :=
  ∃ before other found rest, read = some (before ++ '/' :: found, rest) ∧ argv = some (other ++ '/' :: found) ∧
    (fileName ('/' :: found)).isSome

namespace EndAlike
variable {read : Option (List Char × List Char)} {argv : Option (List Char)}

theorem pushAll (alike : EndAlike read argv) (text : List Char) : EndAlike (Shell.pushAll text read) argv := by
  obtain ⟨before, other, found, rest, rfl, same, named⟩ := alike
  exact ⟨text ++ before, other, found, rest, by simp [Shell.pushAll], same, named⟩

theorem push (alike : EndAlike read argv) (char : Char) : EndAlike (Shell.push char read) argv :=
  alike.pushAll [char]

theorem second (alike : EndAlike read argv) (char : Char) : EndAlike read (argv.map (char :: ·)) := by
  obtain ⟨before, other, found, rest, same, rfl, named⟩ := alike
  exact ⟨before, char :: other, found, rest, same, rfl, named⟩

theorem both (alike : EndAlike read argv) (char : Char) : EndAlike (Shell.push char read) (argv.map (char :: ·)) :=
  (alike.push char).second char

theorem fileName (alike : EndAlike read (some argv0)) :
    ∃ found rest, read = some (found, rest) ∧ found ≠ [] ∧ fileName found = fileName argv0 := by
  obtain ⟨before, other, found, rest, read, same, named⟩ := alike
  rw [Option.some.inj same]
  refine ⟨_, rest, read, by simp, ?_⟩
  rw [fileName_behind before named, fileName_behind other named]

end EndAlike

theorem slash_ordinary : isSpace '/' = false ∧ Shell.isOrdinary '/' = true := by
  decide +kernel

theorem anchors_alike (anchored : anchors setting patterns quoting char rest = true) :
    EndAlike (Shell.readWord setting patterns quoting 0 (char :: rest)) (argvWord quoting (char :: rest)) := by
  simp only [anchors, Bool.and_eq_true, decide_eq_true_eq] at anchored
  obtain ⟨⟨rfl, clear⟩, named⟩ := anchored
  obtain ⟨found, behind, read, argv⟩ := @plain_agrees setting _ _ _ clear
  rw [read] at named
  have shell : Shell.readWord setting patterns quoting 0 ('/' :: rest) = some ('/' :: found, behind) := by
    cases quoting with
    | bare => rw [Shell.readWord_ordinary_cons slash_ordinary.2, read]; rfl
    | single => rw [Shell.readWord.eq_def]; simp [read, Shell.push]
    | double => rw [Shell.readWord.eq_def]; simp [read, Shell.push, Shell.expands]
  have matcher : argvWord quoting ('/' :: rest) = some ('/' :: found) := by
    cases quoting with
    | bare => rw [argvWord.eq_def]; simp [slash_ordinary.1, argv]
    | single => rw [argvWord.eq_def]; simp [argv]
    | double => rw [argvWord.eq_def]; simp [argv]
  exact ⟨[], [], found, behind, shell, matcher, named⟩

/-- Over the text the matcher reads something in front of the rest. -/
def Leads (quoting : Shell.Quoting) (text : List Char) (next : Shell.Quoting) : Prop :=
  ∃ out, ∀ rest, argvWord quoting (text ++ rest) = (argvWord next rest).map (out ++ ·)

theorem Leads.cons {other next : Shell.Quoting} {tail : List Char} (leads : Leads other tail next) (char : Char)
    (same : ∀ rest, argvWord quoting (text ++ rest) = (argvWord other (tail ++ rest)).map (char :: ·)) :
    Leads quoting text next := by
  obtain ⟨out, reads⟩ := leads
  refine ⟨char :: out, fun rest => ?_⟩
  rw [same, reads, Option.map_map]
  rfl

theorem Leads.quote {other next : Shell.Quoting} {tail : List Char} (leads : Leads other tail next)
    (same : ∀ rest, argvWord quoting (text ++ rest) = argvWord other (tail ++ rest)) : Leads quoting text next := by
  obtain ⟨out, reads⟩ := leads
  exact ⟨out, fun rest => (same rest).trans (reads rest)⟩

theorem leads_of_argvState {next : Shell.Quoting} (state : argvState quoting text = some next) : Leads quoting text next := by
  fun_induction argvState quoting text with
  | case1 quoting =>
    cases state
    exact ⟨[], fun rest => by simp⟩
  | case2 | case5 | case11 => cases state
  | case3 rest visible ih | case4 rest visible _ ih =>
    refine (ih state).quote fun behind => ?_
    rw [List.cons_append, argvWord.eq_def]
    simp [visible]
  | case6 next rest visible _ _ ih =>
    refine (ih state).cons next fun behind => ?_
    rw [List.cons_append, List.cons_append, argvWord.eq_def]
    simp [visible]
  | case7 char rest visible unsingle undouble unescaped ih =>
    refine (ih state).cons char fun behind => ?_
    rw [List.cons_append, argvWord.eq_def]
    simp only [visible, unsingle, undouble, unescaped, Bool.false_eq_true, if_false]
  | case8 rest ih | case10 rest ih =>
    refine (ih state).quote fun behind => ?_
    rw [List.cons_append, argvWord.eq_def]
    simp
  | case9 char rest inside ih =>
    refine (ih state).cons char fun behind => ?_
    rw [List.cons_append, argvWord.eq_def]
    simp only [inside, if_false]
  | case12 next rest _ ih =>
    refine (ih state).cons next fun behind => ?_
    rw [List.cons_append, List.cons_append, argvWord.eq_def]
    simp
  | case13 char rest inside unescaped ih =>
    refine (ih state).cons char fun behind => ?_
    rw [List.cons_append, argvWord.eq_def]
    simp only [inside, unescaped, if_false]

/-- A text that leaves the matcher between the same quotes may stand in between. -/
theorem EndAlike.between {read : Option (List Char × List Char)} {length : Nat}
    (alike : EndAlike read (argvWord quoting (text.drop length)))
    (state : argvState quoting (text.take length) = some quoting) : EndAlike read (argvWord quoting text) := by
  obtain ⟨out, reads⟩ := leads_of_argvState state
  obtain ⟨before, other, found, rest, shell, matcher, named⟩ := alike
  have whole := reads (text.drop length)
  rw [List.take_append_drop, matcher] at whole
  exact ⟨before, out ++ other, found, rest, shell, by rw [whole]; simp, named⟩

theorem endsAlike_alike {skipped : Nat} (clear : endsAlike setting patterns quoting skipped text = true) :
    EndAlike (Shell.readWord setting patterns quoting skipped text) (argvWord quoting (text.drop skipped)) := by
  fun_induction endsAlike setting patterns quoting skipped text with
  | case1 => cases clear
  | case2 quoting skipped char rest ih =>
    have skips : Shell.readWord setting patterns quoting (skipped + 1) (char :: rest) =
        Shell.readWord setting patterns quoting skipped rest := by
      cases quoting <;> rfl
    rw [skips, List.drop_succ_cons]
    exact ih clear
  | case3 char rest single double escaped expansion bare =>
    rw [List.drop_zero]
    rcases Bool.or_eq_true_iff.mp clear with anchored | goes
    · exact anchors_alike anchored
    split at goes
    next => cases goes
    next visible =>
    have gap := not_isGap visible
    split at goes
    next quote =>
      subst quote
      rw [Shell.readWord.eq_def, argvWord.eq_def]
      simp only [visible, gap, Bool.false_eq_true, if_false, if_true]
      exact single goes
    next unsingle =>
    split at goes
    next quote =>
      subst quote
      rw [Shell.readWord.eq_def, argvWord.eq_def]
      simp only [visible, gap, Bool.false_eq_true, unsingle, if_false, if_true]
      exact double goes
    next undouble =>
    split at goes
    next back =>
      subst back
      cases rest with
      | nil => cases goes
      | cons next rest =>
        rw [Shell.readWord.eq_def, argvWord.eq_def]
        simp only [visible, gap, Bool.false_eq_true, unsingle, undouble, if_false, if_true]
        have alike := (escaped goes).second next
        split
        · exact alike
        · exact alike.push next
    next unescaped =>
    split at goes
    next literal =>
      split at goes
      next => cases goes
      next text length found =>
        simp only [Bool.and_eq_true, decide_eq_true_eq] at goes
        obtain ⟨⟨whole, state⟩, ends⟩ := goes
        rw [Shell.readWord.eq_def, argvWord.eq_def]
        simp only [visible, gap, Bool.false_eq_true, unsingle, undouble, unescaped, literal, found, whole, if_false, if_true]
        exact (((expansion length ends).between state).second char).pushAll text
    next plainly =>
      rw [Bool.and_eq_true, Bool.not_eq_true'] at goes
      rw [Shell.readWord.eq_def, argvWord.eq_def]
      simp only [visible, gap, Bool.false_eq_true, unsingle, undouble, unescaped, plainly, goes.1, if_false]
      exact (bare goes.2).both char
  | case4 char rest bare single =>
    rw [List.drop_zero]
    rcases Bool.or_eq_true_iff.mp clear with anchored | goes
    · exact anchors_alike anchored
    rw [Shell.readWord.eq_def, argvWord.eq_def]
    split at goes
    next quote =>
      simp only [quote, if_true]
      exact bare goes
    next inside =>
      simp only [inside, if_false]
      exact (single goes).both char
  | case5 char rest bare expansion escaped double =>
    rw [List.drop_zero]
    rcases Bool.or_eq_true_iff.mp clear with anchored | goes
    · exact anchors_alike anchored
    rw [Shell.readWord.eq_def, argvWord.eq_def]
    split at goes
    next quote =>
      simp only [quote, if_true]
      exact bare goes
    next inside =>
    split at goes
    next literal =>
      have apart : char ≠ '\\' := fun same => by rw [same] at literal; exact absurd literal (by decide)
      split at goes
      next => cases goes
      next text length found =>
        rw [Bool.and_eq_true, decide_eq_true_eq] at goes
        simp only [inside, literal, apart, found, if_false, if_true]
        exact (((expansion length goes.2).between goes.1).second char).pushAll text
    next plainly =>
    split at goes
    next back =>
      subst back
      cases rest with
      | nil => cases goes
      | cons next rest =>
        simp only [inside, plainly, Bool.false_eq_true, if_false, if_true]
        have alike := (escaped goes).second next
        split
        · exact alike
        · split
          · exact alike.push next
          · exact (alike.push next).push '\\'
    next unescaped =>
      simp only [inside, plainly, Bool.false_eq_true, unescaped, if_false]
      exact (double goes).both char

/-! ### The words behind `env` -/

theorem splitWord_length (word : (splitWord text).1 ≠ []) : (splitWord text).2.length < text.length := by
  have whole : (text.takeWhile (!isSpace ·)).length + (text.dropWhile (!isSpace ·)).length = text.length := by
    rw [← List.length_append, List.takeWhile_append_dropWhile]
  have space := (List.dropWhile_sublist isSpace (l := text.dropWhile (!isSpace ·))).length_le
  have some := List.length_pos_iff.mpr word
  rw [splitWord] at some ⊢
  dsimp only at some ⊢
  omega

theorem splitWord_length_le : (splitWord text).2.length ≤ text.length :=
  ((List.dropWhile_sublist _).trans (List.dropWhile_sublist _)).length_le

theorem word_of_skipOf {word : List Char} (kind : skipOf word ≠ .command) : word ≠ [] := by
  rintro rfl
  exact kind (by decide)

/-- A word that starts here does not start with white space, unless only the matcher sees that. -/
theorem namedAlike_visible (alike : namedAlike setting patterns text = true) :
    ∃ char tail, text = char :: tail ∧ isSpace char = false := by
  rw [namedAlike, Bool.and_eq_true] at alike
  obtain ⟨starts, alike⟩ := alike
  cases text with
  | nil => cases starts
  | cons char tail =>
    refine ⟨char, tail, rfl, ?_⟩
    cases space : isSpace char with
    | false => rfl
    | true =>
      have slash : char ≠ '/' := fun same => by rw [same, slash_ordinary.1] at space; cases space
      have tilde : char ≠ '~' := fun same => by
        rw [same, show isSpace '~' = false by decide +kernel] at space
        cases space
      have gapless : Shell.isGap char = false := by
        rw [Shell.starts, Bool.and_eq_true, Bool.not_eq_true'] at starts
        exact starts.1
      have plainless : plain patterns .bare (char :: tail) = false := by
        rw [plain.eq_def]
        simp only [space, if_true, gapless]
      have nameless : endsAlike setting patterns .bare 0 (char :: tail) = false := by
        rw [endsAlike.eq_def]
        simp only [anchors, slash, space, decide_false, Bool.false_and, if_true, Bool.or_self]
      have untilded : Shell.tildeLength (char :: tail) = none := by simp [Shell.tildeLength, tilde]
      rw [untilded] at alike
      simp only [plainless, nameless, Bool.or_self] at alike
      cases alike

/-- Where a word ends alike and the matcher finds the hook in it, so does the shell. -/
theorem namedAlike_word (alike : namedAlike setting patterns text = true) (read : argvWord .bare text = some argv0)
    (named : fileName argv0 = some hookName) :
    ∃ found rest, Shell.word setting patterns text = some (found, rest) ∧ fileName found = some hookName := by
  rw [namedAlike, Bool.and_eq_true] at alike
  obtain ⟨starts, alike⟩ := alike
  have filled : argv0 ≠ [] := by
    rintro rfl
    exact absurd named (by decide)
  cases tilde : Shell.tildeLength text with
  | none =>
    rw [tilde] at alike
    rcases Bool.or_eq_true_iff.mp alike with clear | ends
    · obtain ⟨found, rest, shell, argv⟩ := @plain_agrees setting _ _ _ clear
      obtain rfl := Option.some.inj (argv.symm.trans read)
      exact ⟨found, rest, Shell.word_eq starts tilde shell filled, named⟩
    · have alike := endsAlike_alike ends
      rw [List.drop_zero, read] at alike
      obtain ⟨found, rest, shell, some_, same⟩ := alike.fileName
      exact ⟨found, rest, Shell.word_eq starts tilde shell some_, same.trans named⟩
  | some length =>
    rw [tilde] at alike
    obtain ⟨tail, rfl⟩ := Shell.tildeLength_head tilde
    simp only [Bool.and_eq_true, decide_eq_true_eq] at alike
    have ends := ((endsAlike_alike alike.2).between alike.1).second '~'
    have argv : argvWord .bare ('~' :: tail) = (argvWord .bare tail).map ('~' :: ·) := by
      rw [argvWord.eq_def]
      simp [show isSpace '~' = false by decide +kernel]
    rw [List.tail_cons, ← argv, read] at ends
    obtain ⟨found, rest, shell, some_, same⟩ := (ends.pushAll (setting.home (tail.take length))).fileName
    refine ⟨found, rest, ?_, same.trans named⟩
    simp only [Shell.word, starts, tilde, List.tail_cons, shell, if_true, Option.filter_some, Shell.stays, some_, ne_eq,
      not_false_eq_true, decide_true, Bool.true_or]

/-- Where each word is taken for the same, env(1) executes a word of the name that the matcher reads. -/
theorem AlignedEnv.executes (aligned : AlignedEnv setting phase text) (fuel other : Nat) (enough : text.length < fuel)
    (more : text.length < other) : ∃ rest, skipEnv fuel text = some rest ∧
      ∀ argv0, argvWord .bare rest = some argv0 → fileName argv0 = some hookName →
        ∃ found, Shell.envCommand setting other phase text = some found ∧ fileName found = some hookName := by
  induction aligned generalizing fuel other with
  | @one phase next text found kind whole same later ih =>
    obtain ⟨fuel, rfl⟩ : ∃ n, fuel = n + 1 := ⟨fuel - 1, by omega⟩
    obtain ⟨other, rfl⟩ : ∃ n, other = n + 1 := ⟨other - 1, by omega⟩
    have word : (splitWord text).1 ≠ [] := word_of_skipOf (by simp [kind])
    have shorter := splitWord_length word
    obtain ⟨rest, reached, runs⟩ := ih fuel other (by omega) (by omega)
    refine ⟨rest, ?_, fun argv0 read named => ?_⟩
    · rw [skipEnv]
      simp only [word, kind, if_false]
      exact reached
    · rw [Shell.envCommand]
      simp only [whole.read, same, whole.space]
      exact runs argv0 read named
  | @two phase text found name kind whole same operand later ih =>
    obtain ⟨fuel, rfl⟩ : ∃ n, fuel = n + 1 := ⟨fuel - 1, by omega⟩
    obtain ⟨other, rfl⟩ : ∃ n, other = n + 1 := ⟨other - 1, by omega⟩
    have word : (splitWord text).1 ≠ [] := word_of_skipOf (by simp [kind])
    have shorter := splitWord_length word
    have second := @splitWord_length_le (splitWord text).2
    obtain ⟨rest, reached, runs⟩ := ih fuel other (by omega) (by omega)
    refine ⟨rest, ?_, fun argv0 read named => ?_⟩
    · rw [skipEnv]
      simp only [word, kind, if_false]
      exact reached
    · rw [Shell.envCommand]
      simp only [whole.read, same, whole.space, operand.read, operand.space]
      exact runs argv0 read named
  | @command phase text kind alike same =>
    obtain ⟨fuel, rfl⟩ : ∃ n, fuel = n + 1 := ⟨fuel - 1, by omega⟩
    obtain ⟨other, rfl⟩ : ∃ n, other = n + 1 := ⟨other - 1, by omega⟩
    have word : (splitWord text).1 ≠ [] := by
      obtain ⟨char, tail, rfl, visible⟩ := namedAlike_visible alike
      rw [splitWord, List.takeWhile_cons_of_pos (by simp [visible])]
      exact List.cons_ne_nil _ _
    refine ⟨text, ?_, fun argv0 read named => ?_⟩
    · rw [skipEnv]
      simp only [word, kind, if_false]
    · obtain ⟨found, rest, shell, hook⟩ := namedAlike_word alike read named
      have argument := Shell.argument_eq shell
      refine ⟨found, ?_, hook⟩
      rw [Shell.envCommand]
      simp only [argument, same found rest argument]

/-! ### What is accepted -/

theorem parseArgv0_eq_some {argv0 : List Char} (parsed : parseArgv0 text = some argv0) : argvWord .bare text = some argv0 := by
  rw [parseArgv0] at parsed
  split at parsed
  next => cases parsed
  next => cases parsed
  next found => rwa [← parsed]

/-- A path without a name is no hook. -/
theorem fileName_of_base {argv0 : List Char} (base : (fileName argv0).getD argv0 = hookName) :
    fileName argv0 = some hookName := by
  cases named : fileName argv0 with
  | none =>
    rw [named, Option.getD_none] at base
    rw [base] at named
    exact absurd named (by decide)
  | some name =>
    rw [named, Option.getD_some] at base
    rw [base]

theorem accepted_iff : isWisphiveHookCommand cmd = true ↔
    ∃ rest argv0, commandText cmd.toList = some rest ∧ parseArgv0 rest = some argv0 ∧ fileName argv0 = some hookName := by
  rw [isWisphiveHookCommand]
  constructor
  · intro accepted
    split at accepted
    next => cases accepted
    next argv0 read =>
      obtain ⟨rest, reached, parsed⟩ := Option.bind_eq_some_iff.mp read
      exact ⟨rest, argv0, reached, parsed, fileName_of_base (of_decide_eq_true accepted)⟩
  · rintro ⟨rest, argv0, reached, parsed, named⟩
    rw [reached, Option.bind_some, parsed]
    simp [named]

theorem not_isEnv {word : List Char} (named : fileName word = some hookName) : isEnv word = false := by
  rw [isEnv, named]
  decide

theorem not_reserved {word : List Char} (named : fileName word = some hookName) : word ∉ Shell.reserved := by
  have nameless : ∀ word ∈ Shell.reserved, fileName word ≠ some hookName := by decide +kernel
  exact fun member => nameless word member named

/-- The shell executes what an aligned command is accepted for. -/
theorem Aligned.executes (aligned : Aligned setting cmd) (reached : commandText cmd.toList = some rest)
    (parsed : parseArgv0 rest = some argv0) (named : fileName argv0 = some hookName) : RunsHook setting cmd := by
  obtain ⟨start, plainly, aligned⟩ := aligned
  rw [RunsHook, Shell.executed, ← start, Shell.shellCommand]
  rw [commandText] at reached
  dsimp only at reached
  have read := parseArgv0_eq_some parsed
  split at aligned
  next env =>
    rw [if_pos env] at reached
    obtain ⟨whole, aligned⟩ := aligned
    have shorter := (List.dropWhile_sublist isSpace
      (l := (cmd.toList.dropWhile isSpace).dropWhile (!isSpace ·))).length_le
    have deep := aligned.executes (((splitWord (cmd.toList.dropWhile isSpace)).2).length + 1)
      (((cmd.toList.dropWhile isSpace).dropWhile (!isSpace ·)).length + 1) (by omega)
      (Nat.lt_succ_of_le shorter)
    obtain ⟨text, same, runs⟩ := deep
    rw [same] at reached
    cases reached
    have is : isEnv "env".toList = true := by decide
    have unreserved : "env".toList ∉ Shell.reserved := by decide
    simp only [whole.read, plainly, unreserved, is, whole.space, Bool.false_eq_true, if_false, if_true]
    exact runs argv0 read named
  next other =>
    rw [if_neg other, Option.some.injEq] at reached
    subst reached
    obtain ⟨found, rest, shell, hook⟩ := namedAlike_word aligned read named
    simp only [shell, plainly, not_reserved hook, not_isEnv hook, Bool.false_eq_true, if_false]
    exact ⟨found, rfl, hook⟩

theorem Aligned.runs (aligned : Aligned setting cmd) (accepted : isWisphiveHookCommand cmd = true) :
    RunsHook setting cmd := by
  obtain ⟨rest, argv0, reached, parsed, named⟩ := accepted_iff.mp accepted
  exact aligned.executes reached parsed named

/-! ### What the installer writes -/

/-- A character that needs no quotes. -/
def isBare (char : Char) : Bool :=
  char.isAlphanum || ['/', '.', '_', '-'].contains char

theorem isBare_ascii {char : Char} (bare : isBare char = true) : char.toNat < 128 := by
  have upper : char.isUpper = decide ('A'.val ≤ char.val ∧ char.val ≤ 'Z'.val) := rfl
  have lower : char.isLower = (decide ('a'.val ≤ char.val) && decide (char.val ≤ 'z'.val)) := rfl
  have digit : char.isDigit = (decide ('0'.val ≤ char.val) && decide (char.val ≤ '9'.val)) := rfl
  have word : char.isAlphanum = (char.isUpper || char.isLower || char.isDigit) := rfl
  simp only [isBare, word, upper, lower, digit, Bool.or_eq_true, Bool.and_eq_true, decide_eq_true_eq, List.contains_eq_mem,
    List.mem_cons, List.not_mem_nil, or_false, UInt32.le_iff_toNat_le] at bare
  have code : char.toNat = char.val.toNat := rfl
  rcases bare with ((⟨_, upper⟩ | ⟨_, lower⟩) | ⟨_, digit⟩) | rfl | rfl | rfl | rfl
  · exact Nat.lt_of_le_of_lt upper (by decide)
  · exact Nat.lt_of_le_of_lt lower (by decide)
  · exact Nat.lt_of_le_of_lt digit (by decide)
  all_goals decide

theorem isBare_codes : ∀ code < 128, isBare (Char.ofNat code) = true →
    isSpace (Char.ofNat code) = false ∧ Shell.isOrdinary (Char.ofNat code) = true ∧ Char.ofNat code ≠ '=' := by
  decide +kernel

example : isBare 'a' = true ∧ isBare '$' = false := by decide +kernel

/-- It means nothing to the shell, to the matcher or to env(1). -/
theorem isBare_plain {char : Char} (bare : isBare char = true) :
    isSpace char = false ∧ Shell.isOrdinary char = true ∧ char ≠ '=' := by
  have same : Char.ofNat char.toNat = char := Char.ofNat_toNat char
  rw [← same] at bare ⊢
  exact isBare_codes _ (isBare_ascii (same ▸ bare)) bare

/-- What one quoted text is to its three readers. -/
structure Quotes (quoting : Shell.Quoting) (text found : List Char) : Prop where
  clear : ∀ patterns, plain patterns quoting text = true
  read : ∀ setting patterns, Shell.readWord setting patterns quoting 0 text = some (found, [])
  argv : argvWord quoting text = some found

theorem Quotes.cons (bare : isBare char = true) (quotes : Quotes .bare text found) :
    Quotes .bare (char :: text) (char :: found) := by
  obtain ⟨visible, ordinary, _⟩ := isBare_plain bare
  have apart := ordinary
  simp only [Shell.isOrdinary, Bool.and_eq_true, Bool.not_eq_true'] at apart
  have unquoted : char ≠ '\'' ∧ char ≠ '"' ∧ char ≠ '\\' := by simpa [Shell.isQuote] using apart.1.2
  obtain ⟨literal, operator, pattern⟩ := Shell.isSpecial_eq_false apart.2
  refine ⟨fun patterns => ?_, fun setting patterns => ?_, ?_⟩
  · rw [plain.eq_def]
    simp only [visible, unquoted.1, unquoted.2.1, unquoted.2.2, literal, operator, pattern, quotes.clear,
      Bool.false_eq_true, if_false, Bool.and_false, Bool.or_self, Bool.not_false, Bool.and_self]
  · rw [Shell.readWord_ordinary_cons ordinary, quotes.read]
    rfl
  · rw [argvWord.eq_def]
    simp only [visible, unquoted.1, unquoted.2.1, unquoted.2.2, quotes.argv, Bool.false_eq_true, if_false, Option.map_some]

theorem Quotes.opened (quotes : Quotes .single text found) : Quotes .bare ('\'' :: text) found := by
  have visible : isSpace '\'' = false := by decide +kernel
  have word : Shell.isGap '\'' = false := by decide
  refine ⟨fun patterns => ?_, fun setting patterns => ?_, ?_⟩
  · rw [plain.eq_def]
    simp only [visible, Bool.false_eq_true, if_false, if_true, quotes.clear]
  · rw [Shell.readWord.eq_def]
    simp only [word, Bool.false_eq_true, if_false, if_true, quotes.read]
  · rw [argvWord.eq_def]
    simp only [visible, Bool.false_eq_true, if_false, if_true, quotes.argv]

theorem Quotes.closed (quotes : Quotes .bare text found) : Quotes .single ('\'' :: text) found := by
  refine ⟨fun patterns => ?_, fun setting patterns => ?_, ?_⟩
  · rw [plain.eq_def]
    simp only [if_true, quotes.clear]
  · rw [Shell.readWord.eq_def]
    simp only [if_true, quotes.read]
  · rw [argvWord.eq_def]
    simp only [if_true, quotes.argv]

theorem Quotes.escaped (quotes : Quotes .bare text found) : Quotes .bare ('\\' :: '\'' :: text) ('\'' :: found) := by
  have visible : isSpace '\\' = false := by decide +kernel
  have word : Shell.isGap '\\' = false := by decide
  refine ⟨fun patterns => ?_, fun setting patterns => ?_, ?_⟩
  · rw [plain.eq_def]
    simp [visible, quotes.clear]
  · rw [Shell.readWord.eq_def]
    simp [word, quotes.read, Shell.push]
  · rw [argvWord.eq_def]
    simp [visible, quotes.argv]

theorem Quotes.inside (other : char ≠ '\'') (quotes : Quotes .single text found) :
    Quotes .single (char :: text) (char :: found) := by
  refine ⟨fun patterns => ?_, fun setting patterns => ?_, ?_⟩
  · rw [plain.eq_def]
    simp only [other, if_false, quotes.clear]
  · rw [Shell.readWord.eq_def]
    simp only [other, if_false, quotes.read]
    rfl
  · rw [argvWord.eq_def]
    simp only [other, if_false, quotes.argv]
    rfl

theorem quotes_bare (bare : text.all isBare = true) : Quotes .bare text text := by
  induction text with
  | nil => exact ⟨fun _ => rfl, fun _ _ => rfl, rfl⟩
  | cons char tail ih =>
    rw [List.all_cons, Bool.and_eq_true] at bare
    exact (ih bare.2).cons bare.1

/-- A quote inside is closed, escaped and opened again. -/
theorem quotes_single (text : List Char) :
    Quotes .single (text.flatMap (fun char => if char = '\'' then ['\'', '\\', '\'', '\''] else [char]) ++ ['\'']) text := by
  induction text with
  | nil => exact Quotes.closed ⟨fun _ => rfl, fun _ _ => rfl, rfl⟩
  | cons char tail ih =>
    rw [List.flatMap_cons]
    by_cases quote : char = '\''
    · subst quote
      exact ih.opened.escaped.closed
    · rw [if_neg quote]
      exact ih.inside quote

/-- What is quoted is read back. -/
theorem quotes_shellQuoteCommand (path : String) : Quotes .bare (shellQuoteCommand path).toList path.toList := by
  rw [shellQuoteCommand, HookSettings.installerShellQuote]
  split
  next bare => exact quotes_bare bare
  next =>
    rw [String.toList_ofList]
    exact (quotes_single path.toList).opened

variable {path : String}

theorem shellQuoteCommand_cases (path : String) :
    (∃ tail, (shellQuoteCommand path).toList = '\'' :: tail) ∨
      (∀ char ∈ path.toList, isBare char = true) ∧ shellQuoteCommand path = path := by
  rw [shellQuoteCommand, HookSettings.installerShellQuote]
  split
  next bare => exact .inr ⟨List.all_eq_true.mp bare, rfl⟩
  next => exact .inl ⟨_, String.toList_ofList⟩

/-- The written path starts with a slash or a quote. -/
theorem shellQuoteCommand_head (absolute : path.toList.head? = some '/') :
    ∃ char tail, (shellQuoteCommand path).toList = char :: tail ∧ (char = '/' ∨ char = '\'') := by
  rcases shellQuoteCommand_cases path with ⟨tail, shape⟩ | ⟨_, same⟩
  · exact ⟨'\'', tail, shape, .inr rfl⟩
  · obtain ⟨tail, shape⟩ := List.head?_eq_some_iff.mp absolute
    rw [same]
    exact ⟨'/', tail, shape, .inl rfl⟩

/-- Neither the shell nor the matcher takes the written path for anything but a word. -/
theorem head_facts (tail : List Char) (head : char = '/' ∨ char = '\'') :
    isSpace char = false ∧ Shell.isGap char = false ∧ Shell.starts (char :: tail) = true ∧
      Shell.tildeLength (char :: tail) = none ∧ Shell.assigns (char :: tail) = false := by
  rcases head with rfl | rfl
  · refine ⟨by decide +kernel, by decide +kernel, by rw [Shell.starts]; decide +kernel,
      by simp [Shell.tildeLength], ?_⟩
    rw [Shell.assigns, List.takeWhile_cons_of_neg (by decide)]
    rfl
  · refine ⟨by decide +kernel, by decide +kernel, by rw [Shell.starts]; decide +kernel,
      by simp [Shell.tildeLength], ?_⟩
    rw [Shell.assigns, List.takeWhile_cons_of_neg (by decide)]
    rfl

theorem splitWord_cons (tail : List Char) (visible : isSpace char = false) :
    (splitWord (char :: tail)).1 = char :: tail.takeWhile (!isSpace ·) := by
  rw [splitWord, List.takeWhile_cons_of_pos (by simp [visible])]

theorem word_ne_env (tail : List Char) (head : char = '/' ∨ char = '\'') :
    (splitWord (char :: tail)).1 ≠ "env".toList := by
  intro same
  have first := congrArg List.head? same
  have env : "env".toList.head? = some 'e' := by decide
  rw [splitWord_cons tail (head_facts tail head).1, env, List.head?_cons, Option.some.injEq] at first
  subst first
  exact absurd head (by decide)

theorem parseArgv0_shellQuoteCommand (absolute : path.toList.head? = some '/') :
    parseArgv0 (shellQuoteCommand path).toList = some path.toList := by
  obtain ⟨tail, shape⟩ := List.head?_eq_some_iff.mp absolute
  rw [parseArgv0, (quotes_shellQuoteCommand path).argv, shape]

theorem accepts_shellQuoteCommand (absolute : path.toList.head? = some '/') (named : fileName path.toList = some hookName) :
    isWisphiveHookCommand (shellQuoteCommand path) = true := by
  refine accepted_iff.mpr ⟨_, _, ?_, parseArgv0_shellQuoteCommand absolute, named⟩
  obtain ⟨char, tail, shape, head⟩ := shellQuoteCommand_head absolute
  obtain ⟨visible, _⟩ := head_facts tail head
  have text : (char :: tail).dropWhile isSpace = char :: tail := List.dropWhile_cons_of_neg (by simp [visible])
  rw [commandText, shape, text]
  exact if_neg (word_ne_env tail head)

theorem splitWord_append {word : List Char} (unbroken : word.all (!isSpace ·) = true)
    (next : ∀ char ∈ rest.head?, isSpace char = false) : splitWord (word ++ ' ' :: rest) = (word, rest) := by
  have inside := List.all_eq_true.mp unbroken
  have space : isSpace ' ' = true := by decide +kernel
  have later : rest.dropWhile isSpace = rest := by
    cases rest with
    | nil => rfl
    | cons char tail => exact List.dropWhile_cons_of_neg (by simp [next char rfl])
  simp only [splitWord, List.takeWhile_append_of_pos inside, List.dropWhile_append_of_pos inside, List.takeWhile_cons,
    List.dropWhile_cons, space, Bool.not_true, Bool.false_eq_true, if_false, if_true, List.append_nil, later]

/-- The assignment that the installer writes for Codex. -/
def agentType : List Char := "WISPHIVE_AGENT_TYPE=codex".toList

theorem codexHookCommand_toList (path : String) :
    (codexHookCommand path).toList = "env".toList ++ ' ' :: (agentType ++ ' ' :: (shellQuoteCommand path).toList) := by
  have words : "env WISPHIVE_AGENT_TYPE=codex ".toList = "env".toList ++ ' ' :: (agentType ++ [' ']) := by decide
  have whole : (codexHookCommand path).toList = "env WISPHIVE_AGENT_TYPE=codex ".toList ++ (shellQuoteCommand path).toList :=
    String.toList_append
  rw [whole, words]
  simp only [List.append_assoc, List.cons_append, List.nil_append]

theorem accepts_codexHookCommand (absolute : path.toList.head? = some '/') (named : fileName path.toList = some hookName) :
    isWisphiveHookCommand (codexHookCommand path) = true := by
  refine accepted_iff.mpr ⟨_, _, ?_, parseArgv0_shellQuoteCommand absolute, named⟩
  obtain ⟨char, tail, shape, head⟩ := shellQuoteCommand_head absolute
  obtain ⟨visible, _⟩ := head_facts tail head
  have first : ∀ char ∈ (shellQuoteCommand path).toList.head?, isSpace char = false := by
    rw [shape]
    rintro _ ⟨⟩
    exact visible
  have start : (codexHookCommand path).toList.dropWhile isSpace = (codexHookCommand path).toList := by
    rw [codexHookCommand_toList]
    exact List.dropWhile_cons_of_neg (by decide +kernel)
  have env : splitWord (codexHookCommand path).toList = ("env".toList, agentType ++ ' ' :: (shellQuoteCommand path).toList) := by
    rw [codexHookCommand_toList]
    refine splitWord_append (by decide +kernel) ?_
    have name : agentType = 'W' :: agentType.tail := by decide
    rw [name, List.cons_append, List.head?_cons]
    rintro _ ⟨⟩
    decide +kernel
  have assignment : splitWord (agentType ++ ' ' :: (shellQuoteCommand path).toList) = (agentType, (shellQuoteCommand path).toList) :=
    splitWord_append (by decide +kernel) first
  have word : (splitWord (shellQuoteCommand path).toList).1 ≠ [] := by
    rw [shape, splitWord_cons tail visible]
    exact List.cons_ne_nil _ _
  have kind : skipOf (splitWord (shellQuoteCommand path).toList).1 = .command := by
    rcases shellQuoteCommand_cases path with ⟨tail, quoted⟩ | ⟨bare, same⟩
    · rw [quoted, splitWord_cons tail (by decide +kernel), skipOf, List.head?_cons, if_pos (.inl rfl)]
    · obtain ⟨tail, rooted⟩ := List.head?_eq_some_iff.mp absolute
      have plainly : '=' ∉ path.toList := fun member => (isBare_plain (bare '=' member)).2.2 rfl
      have within : '=' ∉ (splitWord path.toList).1 := fun member => plainly (List.takeWhile_subset _ member)
      rw [same]
      rw [rooted, splitWord_cons tail (by decide +kernel)] at within ⊢
      simp [skipOf, within]
  rw [commandText, start, env]
  dsimp only
  rw [if_pos rfl, skipEnv, assignment]
  have passed : skipOf agentType = .one := by decide
  have given : agentType ≠ [] := by decide
  simp only [given, passed, if_false]
  rw [List.length_append, List.length_cons, ← Nat.add_assoc, skipEnv]
  simp only [word, kind, if_false]

example : isWisphiveHookCommand (codexHookCommand "/opt/wisphive-hook") = true := by decide +kernel

end HookMatcher
end Wisphive
