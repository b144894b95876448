import Mathlib.Data.List.TakeWhile
import Wisphive.HistorySearch
import Wisphive.Proofs.WireText

/-! When search is literal. The triggers keep the index in step with the rows as long as these keep
their numbers, and a text is then found as it stands if it has no wildcard for the path it takes. -/

namespace Wisphive
open Foundation

/-! ### The table -/

namespace HistoryTable
variable {table after : HistoryTable}

theorem InSync.perform {change : HistoryChange} (synced : Indexed.InSync LogRow.searchText table)
    (kept : Keeps table change) (taken : HistoryTable.perform table change = some after) :
    Indexed.InSync LogRow.searchText after := by
  cases change with
  | insertLog row =>
    cases taken
    split
    · exact synced
    · exact synced.insert row
  | denyManaged id decidedBy now =>
    cases taken
    exact synced.updateOther fun _ => rfl
  | recordSpawnActionFailure id error =>
    cases taken
    exact synced.update
  | attachToolResult id stored =>
    cases taken
    exact synced.update
  | archiveRows ids =>
    cases taken
    exact synced.delete
  | vacuum numbers =>
    cases kept
    exact Indexed.renumber_same taken ▸ synced

theorem run_inSync {initial : Start} {changes : List HistoryChange}
    (taken : (machine initial).run Keeps (machine initial).start changes = some after) :
    Indexed.InSync LogRow.searchText after :=
  @Machine.run_preserves _ _ (machine initial) Keeps _ (Indexed.InSync LogRow.searchText)
    (fun _ _ _ synced kept taken => InSync.perform synced kept taken) _ _ _
    (Indexed.rebuild_inSync initial.numbers) taken

end HistoryTable

/-! ### One column -/

theorem upToNul_eq {text : String} (noNul : '\x00' ∉ text.toList) : upToNul text = text.toList :=
  List.takeWhile_eq_self_iff.mpr fun _ member => decide_eq_true fun same => noNul (same ▸ member)

theorem nul_not_mem_upToNul (text : String) : '\x00' ∉ upToNul text := by
  intro member
  have inside : '\x00' ∈ text.toList.takeWhile fun char => decide (char ≠ '\x00') := member
  have kept := List.mem_takeWhile_imp inside
  exact of_decide_eq_true kept rfl

/-- The pattern ends in front of the first NUL of the text. -/
theorem upToNul_around (text : String) :
    upToNul ("%" ++ text ++ "%") = '%' :: (upToNul text ++ if '\x00' ∈ text.toList then [] else ['%']) := by
  have split : ("%" ++ text ++ "%").toList = '%' :: (text.toList ++ ['%']) := by
    rw [String.toList_append, String.toList_append]
    rfl
  rw [upToNul, split, List.takeWhile_cons_of_pos (by decide), List.takeWhile_append]
  congr 1
  have whole : (text.toList.takeWhile fun char => decide (char ≠ '\x00')).length = text.toList.length ↔ '\x00' ∉ text.toList := by
    constructor
    · intro full member
      have same : upToNul text = text.toList := (List.takeWhile_prefix _).eq_of_length full
      exact nul_not_mem_upToNul text (same ▸ member)
    · exact fun noNul => congrArg List.length (upToNul_eq noNul)
  by_cases nul : '\x00' ∈ text.toList
  · rw [if_neg fun full => whole.mp full nul, if_pos nul, List.append_nil, upToNul]
  · rw [if_pos (whole.mpr nul), if_neg nul, upToNul_eq nul]
    rfl

theorem likeAround_iff {text column : String} (plain : ∀ char ∈ text.toList, TextPattern.literal char ∧ char ≠ '\x00')
    (noNul : '\x00' ∉ column.toList) :
    likeAround text column = decide (TextPattern.Within Char.toLower text.toList column.toList) := by
  have clean : '\x00' ∉ text.toList := fun member => (plain _ member).2 rfl
  rw [likeAround, upToNul_around, if_neg clean, upToNul_eq clean, upToNul_eq noNul, Bool.eq_iff_iff, decide_eq_true_eq]
  exact TextPattern.like_within (fun char member => (plain char member).1) column.toList

/-! ### One row -/

namespace SearchText
variable {text : SearchText} {holds other : String → Bool}

theorem any_eq_true : text.any holds = true ↔
    holds text.toolInput = true ∨ (∃ result ∈ text.toolResult, holds result = true) ∨ holds text.toolName = true := by
  rw [any, Bool.or_eq_true, Bool.or_eq_true, or_assoc, Option.any_eq_true]
  rfl

/-- Two tests agree on a row if they agree on the columns that are free of NULs. -/
theorem any_congr (noNul : text.any (fun column => '\x00' ∈ column.toList) = false)
    (same : ∀ column : String, '\x00' ∉ column.toList → holds column = other column) : text.any holds = text.any other := by
  rw [any, Bool.or_eq_false_iff, Bool.or_eq_false_iff] at noNul
  obtain ⟨⟨input, result⟩, name⟩ := noNul
  rw [any, any, same _ (of_decide_eq_false input), same _ (of_decide_eq_false name)]
  congr 2
  cases stored : text.toolResult with
  | none => rfl
  | some column =>
    rw [stored] at result
    exact same column (of_decide_eq_false result)

end SearchText

namespace HistorySearch
variable {clock : TextClock} {platform : SearchPlatform} {table : HistoryTable} {text : String}

/-- On a clean row, either path finds a plain text where it stands. -/
theorem matchesText_eq (documented : platform.Documented) (plain : platform.Plain text)
    (synced : Indexed.InSync LogRow.searchText table) {row : Nat × LogRow} (member : row ∈ table.rows)
    (clean : row.2.Clean clock platform text) : matchesText platform table text row = row.2.contains text := by
  rw [matchesText]
  rw [SearchPlatform.Plain] at plain
  split
  · next long =>
    rw [if_pos long] at plain
    obtain ⟨length, noNul⟩ := Bool.and_eq_true_iff.mp long
    refine (synced.any_index member fun content =>
      content.any (platform.matchesColumn (ftsTrigramPhrase text))).trans ?_
    refine SearchText.any_congr clean.noNul fun column free => ?_
    rw [documented.phrase text column (of_decide_eq_true length) (of_decide_eq_true noNul) free]
    congr 1
    refine propext (TextPattern.within_iff fun char inside found there => ⟨fun equal => ?_, documented.fold char found⟩)
    exact plain char inside found (fun nul => free (nul ▸ there)) equal
  · next short =>
    rw [if_neg short] at plain
    exact SearchText.any_congr clean.noNul fun column free => likeAround_iff plain free

theorem selected_eq (documented : platform.Documented) (plain : platform.Plain text)
    (searchable : text.toList.any platform.isAlphanumeric = true) (synced : Indexed.InSync LogRow.searchText table)
    (clean : ∀ row ∈ table.rows, row.2.Clean clock platform text) (search : HistorySearch) (asked : search.query = some text) :
    search.selected clock platform table = table.log.filter fun row => row.contains text && search.passes clock row := by
  have filter : search.textFilter platform = some text := by
    rw [textFilter, asked, Option.filter_some, if_pos searchable]
  rw [selected, filter, HistoryTable.log, List.filter_map]
  congr 1
  refine List.filter_congr fun row member => ?_
  rw [Option.all_some, matchesText_eq documented plain synced member (clean row member), Function.comp_apply]

/-- Entries of rows that can all be read are the entries of the rows one by one. -/
theorem entries_iff {answer : List LogRow} {entries : List HistoryEntry}
    (readable : ∀ row ∈ answer, (row.historyEntry clock platform).isSome) :
    entries = answer.filterMap (·.historyEntry clock platform) ↔
      entries.map some = answer.map (·.historyEntry clock platform) := by
  have same : (answer.filterMap (·.historyEntry clock platform)).map some = answer.map (·.historyEntry clock platform) := by
    induction answer with
    | nil => rfl
    | cons row rest ih =>
      obtain ⟨entry, found⟩ := Option.isSome_iff_exists.mp (readable row (List.mem_cons_self ..))
      rw [List.filterMap_cons_some found, List.map_cons, List.map_cons, found,
        ih fun row member => readable row (List.mem_cons_of_mem _ member)]
  rw [← same]
  exact (List.map_injective_iff.mpr (fun _ _ => Option.some.inj)).eq_iff.symm

theorem literal_of_plain (documented : platform.Documented) (plain : platform.Plain text)
    (searchable : text.toList.any platform.isAlphanumeric = true) (synced : Indexed.InSync LogRow.searchText table)
    (clean : ∀ row ∈ table.rows, row.2.Clean clock platform text) (search : HistorySearch) (asked : search.query = some text) :
    search.Literal clock platform text table := by
  intro entries
  rw [SearchHistory, selected_eq documented plain searchable synced clean search asked]
  refine exists_congr fun answer => and_congr_right fun recent => entries_iff fun row member => ?_
  obtain ⟨ordered, same, _, rfl⟩ := recent
  have kept := List.mem_filter.mp (same.mem_iff.mp (List.mem_of_mem_take member))
  obtain ⟨numbered, present, rfl⟩ := List.mem_map.mp kept.1
  exact (clean numbered present).readable (Bool.and_eq_true_iff.mp kept.2).1

/-! ### Texts that are not plain -/

/-- A row with a tool name that is read at a time that can be read. -/
def namedRow (time name : String) : LogRow where
  id := 0
  agentId := "agent"
  agentType := AgentType.claudeCode.column
  project := "/work"
  toolName := name
  toolInput := "\x7b\x7d"
  decision := Decision.approve.column
  requestedAt := .raw time
  resolvedAt := .raw time
  toolUseId := none
  hookEventName := "PreToolUse"
  terminalSessionId := none
  decidedBy := none

def namedStart (time name : String) : HistoryTable.Start where
  rows := [(1, namedRow time name)]
  numbers := List.nodup_singleton _

theorem namedRow_readable {time : String} (read : (platform.parseFromRfc3339 time).isSome) (name : String) :
    ((namedRow time name).historyEntry clock platform).isSome := by
  obtain ⟨instant, found⟩ := Option.isSome_iff_exists.mp read
  have decision : (Json.parse platform.float (namedRow time name).decision).bind
      (Wire.variantOf Decision.word [.approve, .deny, .ask]) = some .approve := by
    have text : Json.parse platform.float (namedRow time name).decision = some (.string Decision.approve.word) :=
      Json.parse_render trivial
    rw [text]
    exact ServerMessage.variantOf_word .approve
  have stands : platform.parseFromRfc3339 (clock.text (.raw time)) = some instant := found
  simp only [LogRow.historyEntry, parseUuid_uuidText, decision, Option.bind_eq_bind, Option.bind_some]
  simp only [namedRow, stands, Option.bind_some]
  rfl

/-- A tool name that the search takes for the text, and that does not have it. -/
theorem not_literal_of_name {time name : String} (read : (platform.parseFromRfc3339 time).isSome)
    (searchable : text.toList.any platform.isAlphanumeric = true) (absent : (namedRow time name).contains text = false)
    (taken : matchesText platform (HistoryTable.machine (namedStart time name)).start text (1, namedRow time name) = true) :
    ¬ Literal clock platform { query := some text } text (HistoryTable.machine (namedStart time name)).start := by
  intro literal
  obtain ⟨entry, found⟩ := Option.isSome_iff_exists.mp (@namedRow_readable clock platform time read name)
  have filter : textFilter platform { query := some text } = some text := by
    rw [textFilter, Option.filter_some, if_pos searchable]
  have selects : selected clock platform { query := some text } (HistoryTable.machine (namedStart time name)).start =
      [namedRow time name] := by
    rw [selected, filter]
    show List.map _ (List.filter _ [(1, namedRow time name)]) = _
    rw [List.filter_cons, if_pos (by rw [Option.all_some, taken]; rfl)]
    rfl
  have none : (HistoryTable.log (HistoryTable.machine (namedStart time name)).start).filter (fun row =>
      row.contains text && passes clock { query := some text } row) = [] := by
    show List.filter _ [namedRow time name] = _
    rw [List.filter_cons, absent]
    rfl
  obtain ⟨answer, ⟨ordered, same, _, cut⟩, equal⟩ := (literal [entry]).mp
    ⟨[namedRow time name], ⟨[namedRow time name], by rw [selects], List.pairwise_singleton .., rfl⟩,
      by rw [List.filterMap_cons_some found]; rfl⟩
  rw [none, List.perm_nil] at same
  rw [cut, same] at equal
  cases equal

end HistorySearch

namespace SearchPlatform
variable {clock : TextClock} {platform : SearchPlatform} {text : String}

/-- A column that the search takes for the text, and that does not have it. -/
structure Decoy (platform : SearchPlatform) (text : String) (name : List Char) : Prop where
  noNul : '\x00' ∉ name
  absent : ¬ TextPattern.Within Char.toLower text.toList name
  folded : usesFts text = true → TextPattern.Within platform.fold text.toList name
  like : usesFts text = false → likeAround text (String.ofList name) = true

/-- Put a letter that the index folds alike in the place of one of the text. -/
theorem decoy_of_folded {char other : Char} (long : usesFts text = true) (member : char ∈ text.toList)
    (noNul : other ≠ '\x00') (folded : platform.fold char = platform.fold other)
    (differ : char.toLower ≠ other.toLower) :
    platform.Decoy text (text.toList.map fun letter => if letter = char then other else letter) where
  noNul := by
    intro inside
    obtain ⟨letter, there, same⟩ := List.mem_map.mp inside
    split at same
    · exact noNul same
    · exact of_decide_eq_true (Bool.and_eq_true_iff.mp long).2 (same ▸ there)
  absent := by
    intro stands
    have same := stands.eq (by rw [List.length_map])
    rw [List.map_map] at same
    have equal := List.map_inj_left.mp same char member
    rw [Function.comp_apply, if_pos rfl] at equal
    exact differ equal
  folded := by
    intro _
    have same : (text.toList.map fun letter => if letter = char then other else letter).map platform.fold =
        text.toList.map platform.fold := by
      rw [List.map_map]
      refine List.map_congr_left fun letter _ => ?_
      rw [Function.comp_apply]
      split
      · next equal => rw [equal, folded]
      · rfl
    rw [TextPattern.Within, same]
  like short := by
    rw [long] at short
    cases short

/-- Put a letter in the place of every wildcard in front of the first NUL. -/
theorem decoy_of_like {char : Char} (short : usesFts text = false) (member : char ∈ text.toList)
    (special : ¬ (TextPattern.literal char ∧ char ≠ '\x00')) :
    platform.Decoy text (TextPattern.instantiate (upToNul text)) := by
  have noNul : '\x00' ∉ TextPattern.instantiate (upToNul text) := by
    intro inside
    obtain ⟨letter, there, same⟩ := List.mem_map.mp inside
    split at same
    · exact nul_not_mem_upToNul text (same ▸ there)
    · revert same
      decide
  refine ⟨noNul, ?_, fun long => ?_, fun _ => ?_⟩
  · by_cases nul : '\x00' ∈ text.toList
    · intro stands
      have long := stands.length_le
      have short : (upToNul text).length ≠ text.toList.length := by
        intro full
        have whole : upToNul text = text.toList := (List.takeWhile_prefix _).eq_of_length full
        exact nul_not_mem_upToNul text (whole ▸ nul)
      have least : (upToNul text).length ≤ text.toList.length := (List.takeWhile_prefix _).length_le
      rw [List.length_map, List.length_map, TextPattern.instantiate, List.length_map] at long
      omega
    · have wild : ¬ TextPattern.literal char := fun plain => special ⟨plain, fun same => nul (same ▸ member)⟩
      rw [upToNul_eq nul]
      exact TextPattern.not_within_instantiate member wild
  · rw [short] at long
    cases long
  · have column : upToNul (String.ofList (TextPattern.instantiate (upToNul text))) = TextPattern.instantiate (upToNul text) := by
      rw [upToNul_eq (by rwa [String.toList_ofList]), String.toList_ofList]
    rw [likeAround, upToNul_around, column]
    refine (TextPattern.like_any _ _).mpr ⟨_, List.suffix_refl _, TextPattern.like_instantiate _ _ ?_⟩
    split <;> rfl

theorem exists_decoy (notPlain : ¬ platform.Plain text) : ∃ name, platform.Decoy text name := by
  rw [Plain] at notPlain
  split at notPlain
  · next long =>
    simp only [not_forall] at notPlain
    obtain ⟨char, member, other, noNul, folded, differ⟩ := notPlain
    exact ⟨_, decoy_of_folded long member noNul folded differ⟩
  · next short =>
    simp only [not_forall] at notPlain
    obtain ⟨char, member, special⟩ := notPlain
    exact ⟨_, decoy_of_like (Bool.eq_false_iff.mpr short) member special⟩

/-- A text that is not plain does not stand in an empty tool input. -/
theorem absent_of_not_plain (notPlain : ¬ platform.Plain text) :
    ¬ TextPattern.Within Char.toLower text.toList "\x7b\x7d".toList := by
  have braces : "\x7b\x7d".toList = ['{', '}'] := rfl
  rw [braces]
  intro stands
  rw [Plain] at notPlain
  split at notPlain
  · next long =>
    have length : 3 ≤ text.toList.length := of_decide_eq_true (Bool.and_eq_true_iff.mp long).1
    have most := stands.length_le
    rw [List.length_map] at most
    simp only [List.map_cons, List.map_nil, List.length_cons, List.length_nil] at most
    omega
  · apply notPlain
    intro char member
    have found : char.toLower ∈ ['{', '}'] := stands.subset (List.mem_map_of_mem member)
    refine ⟨⟨?_, ?_⟩, ?_⟩ <;>
    · rintro rfl
      revert found
      decide

end SearchPlatform

namespace HistorySearch
variable {clock : TextClock} {platform : SearchPlatform} {text : String}

/-- A decoy as the tool name of the only row is found, though it does not have the text. -/
theorem not_literal_of_decoy (documented : platform.Documented) (notPlain : ¬ platform.Plain text) {name : List Char}
    (decoy : platform.Decoy text name) {time : String} (read : (platform.parseFromRfc3339 time).isSome)
    (searchable : text.toList.any platform.isAlphanumeric = true) :
    ¬ Literal clock platform { query := some text } text
      (HistoryTable.machine (namedStart time (String.ofList name))).start := by
  have column : (String.ofList name).toList = name := String.toList_ofList
  apply not_literal_of_name read searchable
  · rw [Bool.eq_false_iff, LogRow.contains]
    intro found
    rcases SearchText.any_eq_true.mp found with input | ⟨result, stored, _⟩ | tool
    · exact SearchPlatform.absent_of_not_plain notPlain (of_decide_eq_true input)
    · cases stored
    · have stands : TextPattern.Within Char.toLower text.toList (String.ofList name).toList := of_decide_eq_true tool
      rw [column] at stands
      exact decoy.absent stands
  · rw [matchesText]
    have synced : Indexed.InSync LogRow.searchText (HistoryTable.machine (namedStart time (String.ofList name))).start :=
      Indexed.rebuild_inSync (namedStart time (String.ofList name)).numbers
    split
    · next long =>
      refine (synced.any_index (List.mem_singleton.mpr rfl) fun content =>
        content.any (platform.matchesColumn (ftsTrigramPhrase text))).trans ?_
      obtain ⟨length, noNul⟩ := Bool.and_eq_true_iff.mp long
      refine SearchText.any_eq_true.mpr (.inr (.inr ?_))
      refine (documented.phrase text (String.ofList name) (of_decide_eq_true length) (of_decide_eq_true noNul)
        (by rw [column]; exact decoy.noNul)).trans (decide_eq_true ?_)
      rw [column]
      exact decoy.folded long
    · next short => exact SearchText.any_eq_true.mpr (.inr (.inr (decoy.like (Bool.eq_false_iff.mpr short))))

theorem namedRow_clean {time : String} {name : List Char} (noNul : '\x00' ∉ name)
    (read : (platform.parseFromRfc3339 time).isSome) : (namedRow time (String.ofList name)).Clean clock platform text where
  noNul := by
    rw [Bool.eq_false_iff]
    intro found
    rcases SearchText.any_eq_true.mp found with input | ⟨result, stored, _⟩ | tool
    · have inside : '\x00' ∈ "\x7b\x7d".toList := of_decide_eq_true input
      revert inside
      decide
    · cases stored
    · have inside : '\x00' ∈ (String.ofList name).toList := of_decide_eq_true tool
      rw [String.toList_ofList] at inside
      exact noNul inside
  readable _ := namedRow_readable read _

/-- Searches for a text are literal, after every run that leaves the rows their numbers and whose
rows are clean, exactly if the text is plain. -/
theorem search_literal_iff (documented : platform.Documented) (text : String)
    (searchable : text.toList.any platform.isAlphanumeric = true) :
    (∀ (initial : HistoryTable.Start) (changes : List HistoryChange) (table : HistoryTable),
      (HistoryTable.machine initial).run HistoryTable.Keeps (HistoryTable.machine initial).start changes = some table →
      (∀ row ∈ table.rows, row.2.Clean clock platform text) →
      ∀ search : HistorySearch, search.query = some text → search.Literal clock platform text table) ↔
    platform.Plain text := by
  constructor
  · intro literal
    by_contra notPlain
    obtain ⟨name, decoy⟩ := SearchPlatform.exists_decoy notPlain
    obtain ⟨time, read⟩ := documented.time
    refine not_literal_of_decoy documented notPlain decoy read searchable
      (literal (namedStart time (String.ofList name)) [] _ rfl (fun row member => ?_) _ rfl)
    rw [List.mem_singleton.mp member]
    exact namedRow_clean decoy.noNul read
  · intro plain initial changes table taken clean search asked
    exact literal_of_plain documented plain searchable (HistoryTable.run_inSync taken) clean search asked

end HistorySearch

/-! ### An index of ASCII texts -/

/-- Put one quote in the place of two. -/
def undouble : List Char → List Char
  | '"' :: '"' :: rest => '"' :: undouble rest
  | char :: rest => char :: undouble rest
  | [] => []

theorem undouble_doubled (text : List Char) :
    undouble (text.flatMap fun char => if char = '"' then ['"', '"'] else [char]) = text := by
  induction text with
  | nil => rfl
  | cons char text ih =>
    rw [List.flatMap_cons]
    by_cases quote : char = '"'
    · rw [if_pos quote, quote]
      exact congrArg _ ih
    · rw [if_neg quote, List.singleton_append, undouble, ih]
      exact fun _ same _ => quote same

/-- The text that a phrase quotes. -/
def unquote (expression : String) : List Char :=
  undouble expression.toList.tail.dropLast

theorem unquote_phrase (text : String) : unquote (ftsTrigramPhrase text) = text.toList := by
  rw [unquote, ftsTrigramPhrase, String.toList_ofList, List.cons_append, List.tail_cons, List.dropLast_concat]
  exact undouble_doubled text.toList

/-- An index that folds ASCII letters only, and one time that can be read. -/
def asciiPlatform : SearchPlatform where
  float _ := none
  parseFromRfc3339 text := if text = "2024-01-01T00:00:00Z" then some 1704067200000000000 else none
  isAlphanumeric := Char.isAlphanum
  fold := Char.toLower
  matchesColumn expression column :=
    decide (TextPattern.Within Char.toLower (unquote expression) column.toList)

def newYear : TextClock where
  toRfc3339 _ := "2024-01-01T00:00:00Z"

theorem asciiPlatform_phrase (text column : String) : asciiPlatform.matchesColumn (ftsTrigramPhrase text) column =
    decide (TextPattern.Within asciiPlatform.fold text.toList column.toList) := by
  simp only [asciiPlatform, unquote_phrase]
  rfl

theorem asciiPlatform_documented : asciiPlatform.Documented where
  phrase text column _ _ _ := asciiPlatform_phrase text column
  fold _ _ same := same
  time := ⟨"2024-01-01T00:00:00Z", rfl⟩

namespace HistorySearch

def cargoRow : LogRow :=
  namedRow "2024-01-01T00:00:00Z" "cargo"

def cargoChanges : List HistoryChange :=
  [.insertLog cargoRow, .attachToolResult 0 "\"ok\"", .vacuum [1]]

def cargoTable : HistoryTable where
  rows := [(1, cargoRow.withResult "\"ok\"")]
  index := [(1, (cargoRow.withResult "\"ok\"").searchText)]

theorem search_literal_iff_cargo : Literal newYear asciiPlatform { query := some "cargo" } "cargo" cargoTable := by
  have literal := (@search_literal_iff newYear asciiPlatform asciiPlatform_documented "cargo" (by decide)).mpr
    (by rw [SearchPlatform.Plain, if_pos (by decide)]; exact fun _ _ _ _ same => same)
  refine literal ⟨[], List.nodup_nil⟩ cargoChanges cargoTable (by decide +kernel) (fun row member => ?_) _ rfl
  rw [List.mem_singleton.mp member]
  exact ⟨by decide, fun _ => by decide +kernel⟩

/-- The first row is archived, and `VACUUM` gives its number to the other one. -/
def renumberedStart : HistoryTable.Start where
  rows := [(1, { cargoRow with id := 1, toolName := "Bash" }), (2, cargoRow)]
  numbers := by decide

def renumberedTable : HistoryTable where
  rows := [(1, cargoRow)]
  index := [(2, cargoRow.searchText)]

/-- A log of one row, of a tool named `a`. -/
def shortTable : HistoryTable :=
  (HistoryTable.machine (namedStart "2024-01-01T00:00:00Z" "a")).start

/-- The wildcard in a short text finds a row that the text is not in. -/
theorem wildcard_row_found :
    (namedRow "2024-01-01T00:00:00Z" "a").contains "a%" = false ∧
      (∃ entry, SearchHistory newYear asciiPlatform { query := some "a%" } shortTable [entry]) ∧
      ¬ Literal newYear asciiPlatform { query := some "a%" } "a%" shortTable := by
  have read : ((namedRow "2024-01-01T00:00:00Z" "a").historyEntry newYear asciiPlatform).isSome = true := by decide +kernel
  obtain ⟨entry, read⟩ := Option.isSome_iff_exists.mp read
  have chosen : [namedRow "2024-01-01T00:00:00Z" "a"].Perm (selected newYear asciiPlatform { query := some "a%" } shortTable) := by
    decide +kernel
  have found : SearchHistory newYear asciiPlatform { query := some "a%" } shortTable [entry] :=
    ⟨_, ⟨_, chosen, List.pairwise_singleton .., rfl⟩, by simp [read]⟩
  refine ⟨by decide, ⟨entry, found⟩, fun literal => ?_⟩
  obtain ⟨answer, ⟨ordered, same, _, cut⟩, equal⟩ := (literal [entry]).mp found
  have listed : (HistoryTable.log shortTable).filter (fun row =>
      row.contains "a%" && passes newYear { query := some "a%" } row) = [] := by decide +kernel
  rw [listed, List.perm_nil] at same
  rw [cut, same] at equal
  cases equal

/-- The renumbered row is lost, and beside it stands the search that finds a row too many. -/
theorem renumbered_row_lost :
    ((HistoryTable.machine renumberedStart).run Machine.free (HistoryTable.machine renumberedStart).start
        [.archiveRows [1], .vacuum [1]] = some renumberedTable ∧
      cargoRow.contains "cargo" = true ∧
      SearchHistory newYear asciiPlatform { query := some "cargo" } renumberedTable [] ∧
      ¬ Literal newYear asciiPlatform { query := some "cargo" } "cargo" renumberedTable) ∧
    (namedRow "2024-01-01T00:00:00Z" "a").contains "a%" = false ∧
      (∃ entry, SearchHistory newYear asciiPlatform { query := some "a%" } shortTable [entry]) ∧
      ¬ Literal newYear asciiPlatform { query := some "a%" } "a%" shortTable := by
  have lost : SearchHistory newYear asciiPlatform { query := some "cargo" } renumberedTable [] :=
    ⟨[], ⟨[], by decide +kernel, List.Pairwise.nil, rfl⟩, rfl⟩
  refine ⟨⟨by decide +kernel, by decide, lost, fun literal => ?_⟩, wildcard_row_found⟩
  obtain ⟨answer, ⟨ordered, same, _, cut⟩, equal⟩ := (literal []).mp lost
  have listed : (HistoryTable.log renumberedTable).filter (fun row =>
      row.contains "cargo" && passes newYear { query := some "cargo" } row) = [cargoRow] := by decide +kernel
  rw [listed, List.perm_singleton] at same
  rw [cut, same] at equal
  cases equal

end HistorySearch

end Wisphive
