import Wisphive.BurnMeter

/-! Where the burn meter finds commits. -/

namespace Wisphive
open Foundation Shell

namespace BurnMeter
variable {char : Char} {text : List Char}

theorem segments_ne_nil : segments text ≠ [] := by
  fun_cases segments text <;> simp_all

end BurnMeter

namespace CommitDetection
open BurnMeter
variable {text : List Char} {cells : List Cell} {cell : Cell} {char : Char} {quoting : Quoting} {fresh : Bool}
  {takesOperand : List Char → Bool}

/-! ### Segments -/

/-- A character that begins no separator in front of this text. -/
structure Inert (char : Char) (text : List Char) : Prop where
  sequence : char ≠ ';'
  pipe : char ≠ '|'
  and : char = '&' → text.head? ≠ some '&'

theorem segments_cons (inert : Inert char text) : segments (char :: text) = (segments text).modifyHead (char :: ·) := by
  have single : ∀ rest, char = '&' → text = '&' :: rest → False := by
    rintro rest rfl rfl
    exact inert.and rfl rfl
  rw [segments]
  · cases cut : segments text with
    | nil => exact absurd cut segments_ne_nil
    | cons first others => rfl
  · exact single
  · exact fun _ pipe _ => inert.pipe pipe
  · exact inert.sequence
  · exact inert.pipe

/-- The segments of the stretches. -/
def cut (cells : List Cell) : List (List Char) :=
  (cells.splitOnP Cell.separates).flatMap pieces

/-- The text of the first stretch. -/
def front (cells : List Cell) : List Char :=
  rawText (cells.takeWhile (!·.separates))

/-- The segments of the others. -/
def behind (cells : List Cell) : List (List Char) :=
  (cells.splitOnP Cell.separates).tail.flatMap pieces

theorem cut_separator (separates : cell.separates = true) : cut (cell :: cells) = [] :: cut cells := by
  rw [cut, List.splitOnP_cons_eq_if_modifyHead, if_pos separates, List.flatMap_cons]
  rfl

theorem splitOnP_eq (cells : List Cell) :
    cells.splitOnP Cell.separates =
      cells.takeWhile (!·.separates) :: (cells.splitOnP Cell.separates).tail := by
  induction cells with
  | nil => rfl
  | cons cell cells ih =>
    rw [List.splitOnP_cons_eq_if_modifyHead]
    cases separates : cell.separates with
    | true => simp [separates]
    | false => rw [if_neg (by simp), ih]; simp [separates]

theorem cut_eq : cut cells = segments (front cells) ++ behind cells := by
  rw [cut, splitOnP_eq, List.flatMap_cons]
  rfl

theorem front_cons (keeps : cell.separates = false) : front (cell :: cells) = cell.raw ++ front cells := by
  simp [front, rawText, keeps]

theorem behind_cons (keeps : cell.separates = false) : behind (cell :: cells) = behind cells := by
  rw [behind, List.splitOnP_cons_eq_if_modifyHead, if_neg (by simp [keeps]), splitOnP_eq]
  rfl

theorem front_begins : front cells <+: rawText cells := by
  refine ⟨rawText (cells.dropWhile (!·.separates)), ?_⟩
  rw [front, rawText, rawText, ← List.flatMap_append, List.takeWhile_append_dropWhile]
  rfl

/-- A character in a stretch stays in its segment. -/
theorem cut_inert (keeps : cell.separates = false) (raw : cell.raw = [char]) (inert : Inert char (rawText cells)) :
    cut (cell :: cells) = (cut cells).modifyHead (char :: ·) := by
  have inside : Inert char (front cells) := by
    refine ⟨inert.sequence, inert.pipe, fun amp begins => inert.and amp ?_⟩
    obtain ⟨rest, eq⟩ := @front_begins cells
    rw [← eq, List.head?_append, begins]
    rfl
  rw [cut_eq, front_cons keeps, behind_cons keeps, raw, List.singleton_append, segments_cons inside, cut_eq]
  obtain ⟨first, others, eq⟩ := List.exists_cons_of_ne_nil (@segments_ne_nil (front cells))
  rw [eq]
  rfl

/-- Separators in quotes cut as well. -/
theorem cut_quoted {separator : List Char} (marks : List Cell) (keeps : ∀ cell ∈ marks, cell.separates = false)
    (raw : rawText marks = separator)
    (cuts : ∀ text, text <+: rawText cells → segments (separator ++ text) = [] :: segments text) :
    cut (marks ++ cells) = [] :: cut cells := by
  have joined : front (marks ++ cells) = separator ++ front cells ∧ behind (marks ++ cells) = behind cells := by
    rw [← raw]
    clear raw cuts
    induction marks with
    | nil => exact ⟨rfl, rfl⟩
    | cons cell marks ih =>
      obtain ⟨texts, rests⟩ := ih fun cell member => keeps cell (.tail _ member)
      have held := keeps cell (.head _)
      refine ⟨?_, (behind_cons held).trans rests⟩
      rw [List.cons_append, front_cons held, texts, rawText, rawText, List.flatMap_cons, List.append_assoc]
  rw [cut_eq, joined.1, joined.2, cuts _ front_begins, cut_eq]
  rfl

/-! ### Readings -/

theorem quoted_of_lex (inside : quoting ≠ .bare) (single : char ≠ '\'') (double : char ≠ '"')
    (read : lex quoting fresh (char :: text) = some cells) :
    ∃ rest, lex quoting false text = some rest ∧ cells = .quoted char :: rest := by
  cases quoting with
  | bare => exact absurd rfl inside
  | single =>
    rw [lex, if_neg single] at read
    exact prepend_eq_some read
  | double =>
    rw [lex, if_neg double] at read
    split at read
    · cases read
    · exact prepend_eq_some read

/-- A character that neither separates nor begins a separator is one cell. -/
theorem inert_of_lex (inert : Inert char text) (read : lex quoting fresh (char :: text) = some cells) :
    ∃ cell rest, (∃ quoting fresh, lex quoting fresh text = some rest) ∧ cells = cell :: rest ∧
      cell.raw = [char] ∧ cell.separates = false := by
  have step {cell : Cell} {quoting : Quoting} {fresh : Bool} (raw : cell.raw = [char]) (keeps : cell.separates = false)
      (found : prepend cell (lex quoting fresh text) = some cells) :
      ∃ cell rest, (∃ quoting fresh, lex quoting fresh text = some rest) ∧ cells = cell :: rest ∧
        cell.raw = [char] ∧ cell.separates = false := by
    obtain ⟨rest, held, eq⟩ := prepend_eq_some found
    exact ⟨cell, rest, ⟨_, _, held⟩, eq, raw, keeps⟩
  cases quoting with
  | bare =>
    rw [lex, if_neg inert.sequence, if_neg inert.pipe] at read
    · split_ifs at read with amp line
      · exact step (by rw [amp]; rfl) rfl read
      · exact step (by rw [line]; rfl) rfl read
      all_goals exact step rfl rfl read
    · rintro rest rfl rfl
      exact inert.and rfl rfl
    · exact fun _ pipe _ => inert.pipe pipe
  | single =>
    rw [lex] at read
    split_ifs at read
    all_goals exact step rfl rfl read
  | double =>
    rw [lex] at read
    split_ifs at read
    all_goals exact step rfl rfl read

/-- An operator of one character, with or without quotes around it. -/
theorem single_of_lex (ih : ∀ {quoting fresh cells}, lex quoting fresh text = some cells → segments text = cut cells)
    (operator : ∀ fresh, ∃ kind, Cell.separates (.operator kind) = true ∧
      lex .bare fresh (char :: text) = prepend (.operator kind) (lex .bare true text))
    (cuts : ∀ rest, rest <+: text → segments (char :: rest) = [] :: segments rest)
    (single : char ≠ '\'') (double : char ≠ '"') (read : lex quoting fresh (char :: text) = some cells) :
    [] :: segments text = cut cells := by
  by_cases bare : quoting = .bare
  · subst bare
    obtain ⟨kind, separates, eq⟩ := operator fresh
    obtain ⟨cells, held, rfl⟩ := prepend_eq_some (eq ▸ read)
    rw [cut_separator separates, ih held]
  · obtain ⟨rest, held, rfl⟩ := quoted_of_lex bare single double read
    rw [ih held]
    refine (cut_quoted [.quoted char] (by simp [Cell.separates]) rfl fun behind begins => ?_).symm
    exact cuts behind (rawText_of_lex held ▸ begins)

/-- An operator of two. -/
theorem double_of_lex (ih : ∀ {quoting fresh cells}, lex quoting fresh text = some cells → segments text = cut cells)
    (operator : ∀ fresh, ∃ kind, Cell.separates (.operator kind) = true ∧
      lex .bare fresh (char :: char :: text) = prepend (.operator kind) (lex .bare true text))
    (cuts : ∀ rest, segments (char :: char :: rest) = [] :: segments rest)
    (single : char ≠ '\'') (double : char ≠ '"') (read : lex quoting fresh (char :: char :: text) = some cells) :
    [] :: segments text = cut cells := by
  by_cases bare : quoting = .bare
  · subst bare
    obtain ⟨kind, separates, eq⟩ := operator fresh
    obtain ⟨cells, held, rfl⟩ := prepend_eq_some (eq ▸ read)
    rw [cut_separator separates, ih held]
  · obtain ⟨others, first, rfl⟩ := quoted_of_lex bare single double read
    obtain ⟨rest, held, rfl⟩ := quoted_of_lex bare single double first
    rw [ih held]
    exact (cut_quoted [.quoted char, .quoted char] (by simp [Cell.separates]) rfl fun behind _ => cuts behind).symm

theorem inert_step (ih : ∀ {quoting fresh cells}, lex quoting fresh text = some cells → segments text = cut cells)
    (inert : Inert char text) (read : lex quoting fresh (char :: text) = some cells) :
    (segments text).modifyHead (char :: ·) = cut cells := by
  obtain ⟨cell, rest, ⟨_, _, held⟩, rfl, raw, keeps⟩ := inert_of_lex inert read
  rw [cut_inert keeps raw (rawText_of_lex held ▸ inert), ih held]

/-- The segments of the burn meter are those of the stretches. -/
theorem segments_of_lex (read : lex quoting fresh text = some cells) : segments text = cut cells := by
  fun_induction segments text generalizing quoting fresh cells with
  | case1 =>
    cases quoting with
    | bare =>
      cases read
      rfl
    | single | double => cases read
  | case2 rest ih =>
    exact double_of_lex ih (fun _ => ⟨.and, rfl, by rw [lex]⟩) (fun _ => rfl) (by decide) (by decide) read
  | case3 rest ih =>
    exact double_of_lex ih (fun _ => ⟨.or, rfl, by rw [lex]⟩) (fun _ => rfl) (by decide) (by decide) read
  | case4 rest ih =>
    exact single_of_lex ih (fun _ => ⟨.sequence, rfl, by simp [lex]⟩) (fun _ _ => rfl) (by decide) (by decide) read
  | case5 rest alone ih =>
    refine single_of_lex ih (fun _ => ⟨.pipe, rfl, ?_⟩) (fun behind begins => ?_) (by decide) (by decide) read
    · rw [lex]
      · rfl
      · simp
      · exact fun other _ eq => alone other eq
    · rw [segments]
      rintro other rfl
      obtain ⟨more, rfl⟩ := begins
      exact alone _ rfl
  | case6 char rest _ _ _ _ stuck => exact absurd stuck segments_ne_nil
  | case7 char rest single _ sequence pipe segment others eq ih =>
    have inert : Inert char rest := by
      refine ⟨sequence, pipe, fun amp begins => ?_⟩
      obtain ⟨more, rfl⟩ := List.head?_eq_some_iff.mp begins
      exact single more amp rfl
    rw [← inert_step ih inert read, eq]
    rfl

/-! ### Commits -/

theorem dashed {word : List Char} (value : String.ofList word ∈ gitValueOptions) : word.head? = some '-' := by
  have all : ∀ option ∈ gitValueOptions, option.toList.head? = some '-' := by decide
  simpa using all _ value

@[simp] theorem subcommand_flag {word : List Char} {rest : List (List Char)} (dash : word.head? = some '-')
    (alone : String.ofList word ∉ gitValueOptions) : subcommand (word :: rest) = subcommand rest := by
  cases rest <;> simp [subcommand, dash, alone]

@[simp] theorem subcommand_valued {word operand : List Char} {rest : List (List Char)}
    (value : String.ofList word ∈ gitValueOptions) : subcommand (word :: operand :: rest) = subcommand rest := by
  rw [subcommand, if_pos (dashed value), if_pos value]

@[simp] theorem subcommand_word {word : List Char} {rest : List (List Char)} (undashed : word.head? ≠ some '-') :
    subcommand (word :: rest) = some word := by
  cases rest <;> simp [subcommand, undashed]

theorem subcommand_eq {toks : List (List Char)} {word : List Char} (undashed : word.head? ≠ some '-') :
    subcommand toks = some word ↔ ∃ options rest, toks = options ++ word :: rest ∧ Options options := by
  constructor
  · intro found
    fun_induction subcommand toks with
    | case1 | case2 => cases found
    | case3 token dash value operand rest ih =>
      obtain ⟨options, behind, rfl, held⟩ := ih found
      exact ⟨token :: operand :: options, behind, rfl, .valued value held⟩
    | case4 token rest dash alone ih =>
      obtain ⟨options, behind, rfl, held⟩ := ih found
      exact ⟨token :: options, behind, rfl, .flag dash alone held⟩
    | case5 token rest =>
      obtain rfl := Option.some.inj found
      exact ⟨[], rest, rfl, .none⟩
  · rintro ⟨options, rest, rfl, held⟩
    induction held with
    | none => exact subcommand_word undashed
    | flag dash alone _ ih => rw [List.cons_append, subcommand_flag dash alone, ih]
    | valued value _ ih => rw [List.cons_append, List.cons_append, subcommand_valued value, ih]

theorem spelled_iff {segment : List Char} : (gitCommitSubject segment).isSome ↔ Spelled segment := by
  have undashed : "commit".toList.head? ≠ some '-' := by decide
  rw [gitCommitSubject, Spelled]
  cases tokens segment with
  | nil => simp
  | cons first rest =>
    dsimp only
    split_ifs with held
    · obtain ⟨rfl, found⟩ := held
      obtain ⟨options, behind, rfl, spelled⟩ := (subcommand_eq undashed).mp found
      exact ⟨fun _ => ⟨options, behind, rfl, spelled⟩, fun _ => rfl⟩
    · refine ⟨fun absent => (by cases absent), ?_⟩
      rintro ⟨options, behind, eq, spelled⟩
      obtain ⟨rfl, rfl⟩ := List.cons.inj eq
      exact absurd ⟨rfl, (subcommand_eq undashed).mpr ⟨options, behind, rfl, spelled⟩⟩ held

theorem readStringProp_command {command : String} (some : command ≠ "") :
    readStringProp (.some (.object [("command", .string command)])) "command" = .some command := by
  simp [readStringProp, Json.get?, Json.asString?, some]

theorem reports_iff {command : List Char} : reports command = true ↔ ∃ segment ∈ segments command, Spelled segment := by
  simp only [← spelled_iff]
  cases command with
  | nil => decide
  | cons char text =>
    have some : String.ofList (char :: text) ≠ "" := by simp
    rw [reports, classifyArtifact, if_neg (by decide), if_pos rfl, readStringProp_command some, Option.bind_some,
      String.toList_ofList, ← List.findSome?_isSome_iff]
    cases (segments (char :: text)).findSome? gitCommitSubject <;> rfl

theorem reports_script {script : Script} :
    reports script.text = true ↔ InView takesOperand script ∨ Misleads takesOperand script := by
  have eq : reports script.text = true ↔ ∃ stretch ∈ script.stretches, ∃ piece ∈ pieces stretch, Spelled piece := by
    rw [reports_iff, segments_of_lex script.reads, cut, Script.stretches]
    simp only [List.mem_flatMap]
    constructor
    · rintro ⟨piece, ⟨stretch, member, inside⟩, spelled⟩
      exact ⟨stretch, member, piece, inside, spelled⟩
    · rintro ⟨stretch, member, piece, inside, spelled⟩
      exact ⟨piece, ⟨stretch, member, inside⟩, spelled⟩
  rw [eq, InView, Misleads, ← exists_or]
  refine exists_congr fun stretch => ?_
  rw [← and_or_left]
  refine and_congr_right fun _ => ?_
  obtain ⟨first, others, split⟩ := List.exists_cons_of_ne_nil (@segments_ne_nil (rawText stretch))
  rw [pieces, split]
  cases opensWithCommit takesOperand stretch <;> simp

theorem InView.commits {script : Script} (seen : InView takesOperand script) : Commits takesOperand script := by
  obtain ⟨stretch, member, opens, -⟩ := seen
  obtain ⟨command, first, held⟩ := (Option.any_eq_true _ _).mp opens
  exact ⟨stretch, member, command, List.mem_of_head? first, held⟩

/-- The burn meter follows the shell if and only if a commit is in view, or if one is hidden just
when one is spelled where there is none. -/
theorem commit_detection_iff (script : Script) :
    Follows takesOperand script ↔
      InView takesOperand script ∨ (Commits takesOperand script ↔ Misleads takesOperand script) := by
  have seen : InView takesOperand script → Commits takesOperand script := InView.commits
  rw [Follows, @reports_script takesOperand]
  tauto

/-- A line that adds, and one that commits. -/
def secondLine : Script :=
  ⟨"git add -A\ngit commit -m done".toList, _, rfl⟩

/-- The commit on the second line is missed. -/
theorem second_line_missed : ¬Follows (fun word => String.ofList word ∈ gitValueOptions) secondLine := by
  have unseen : reports secondLine.text = false := by decide +kernel
  have commits : ∃ stretch ∈ secondLine.stretches, ∃ command ∈ simpleCommands stretch,
      CommitDetection.commits (fun word => String.ofList word ∈ gitValueOptions) command = true := by decide +kernel
  intro follows
  rw [follows.mpr commits] at unseen
  cases unseen

example : reports "git commit -m done".toList = true := by decide +kernel

end CommitDetection
end Wisphive
