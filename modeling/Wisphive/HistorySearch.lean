import Wisphive.Foundation.ContentIndex
import Wisphive.Foundation.JsonReader
import Wisphive.Foundation.TextPattern
import Wisphive.Foundation.Trace
import Wisphive.Database
import Wisphive.WireText

/-! Searching the decision log. Longer texts are looked up in a trigram index that triggers
keep by row number, shorter ones by `LIKE`. -/

namespace Wisphive
open Foundation

structure HistorySearch where
  query : Option String := none
  toolName : Option String := none
  agentId : Option String := none
  limit : Option Nat := none
  requestId : Option String := none
  since : Option DateTime := none
  project : Option String := none
  decidedBy : Option String := none
  deriving DecidableEq, Repr

/-- The agent types and every other label that a row can carry. -/
inductive AgentTypeLabel where
  | known (agentType : AgentType)
  | other (raw : String)
  deriving DecidableEq, Repr

/-- A resolved decision from the audit log. -/
structure HistoryEntry where
  id : Uuid
  agentId : String
  agentType : AgentTypeLabel
  project : PathBuf
  toolName : String
  toolInput : Json
  decision : Decision
  requestedAt : DateTime
  resolvedAt : DateTime
  toolResult : Option Json
  toolUseId : Option String
  hookEventName : Option String
  terminalSessionId : Option Uuid
  decidedBy : Option String
  configHash : Option String
  deriving DecidableEq, Repr

/-- What belongs to other crates: numbers that are no integers, times, character classes, and the
trigram tokenizer with its case folding, which matches a column against an expression. -/
structure SearchPlatform where
  float : String → Option String
  parseFromRfc3339 : String → Option DateTime
  isAlphanumeric : Char → Bool
  fold : Char → Char
  matchesColumn : (expression column : String) → Bool

/-! ### Entries -/

namespace AgentTypeLabel

def fromRaw (raw : String) : AgentTypeLabel :=
  match [AgentType.codex, .claudeCode, .red, .localLlm].find? (·.display = raw) with
  | some agentType => .known agentType
  | none => .other raw

end AgentTypeLabel

/-- The text between a pair of quotes. -/
def stripQuotes (raw : String) : String :=
  match raw.toList with
  | '"' :: rest => if rest.getLast? = some '"' then String.ofList rest.dropLast else raw
  | _ => raw

namespace LogRow
variable (clock : TextClock) (platform : SearchPlatform)

def agentTypeLabel (row : LogRow) : AgentTypeLabel :=
  .fromRaw (((Json.parse platform.float row.agentType).bind (·.asString?)).getD (stripQuotes row.agentType))

/-- A row whose decision or times cannot be read has no entry. -/
def historyEntry (row : LogRow) : Option HistoryEntry := do
  let id ← parseUuid (uuidText row.id)
  let decision ← (Json.parse platform.float row.decision).bind (Wire.variantOf Decision.word [.approve, .deny, .ask])
  let requestedAt ← platform.parseFromRfc3339 (clock.text row.requestedAt)
  let resolvedAt ← platform.parseFromRfc3339 (clock.text row.resolvedAt)
  return {
    id
    agentId := row.agentId
    agentType := row.agentTypeLabel platform
    project := ⟨row.project⟩
    toolName := row.toolName
    toolInput := (Json.parse platform.float row.toolInput).getD .null
    decision
    requestedAt
    resolvedAt
    toolResult := row.toolResult.bind (Json.parse platform.float)
    toolUseId := row.toolUseId
    hookEventName := some row.hookEventName
    terminalSessionId := (row.terminalSessionId.map uuidText).bind parseUuid
    decidedBy := row.decidedBy
    configHash := row.configHash }

end LogRow

/-! ### The index -/

/-- The columns that are indexed. -/
structure SearchText where
  toolInput : String
  toolResult : Option String
  toolName : String
  deriving DecidableEq, Repr

namespace SearchText

/-- Whether a column that is not null has a property. -/
def any (text : SearchText) (holds : String → Bool) : Bool :=
  holds text.toolInput || text.toolResult.any holds || holds text.toolName

end SearchText

namespace LogRow

def searchText (row : LogRow) : SearchText where
  toolInput := row.toolInput
  toolResult := row.toolResult
  toolName := row.toolName

def denied (decidedBy : String) (now : DateTime) (row : LogRow) : LogRow :=
  { row with decision := Decision.deny.column, resolvedAt := .rfc3339 now, decidedBy := some decidedBy }

def actionFailed (error : String) (row : LogRow) : LogRow :=
  let result := Redact.redactValue (.object [("error", .string error), ("spawn_status", .string "action_failed")])
  { row with toolResult := some result.render, decidedBy := some (Database.actionFailedBy row.decidedBy) }

def withResult (stored : String) (row : LogRow) : LogRow :=
  { row with toolResult := some stored }

end LogRow

abbrev HistoryTable := Indexed LogRow SearchText

/-- The statements that change the log. `VACUUM` may give its rows new numbers. -/
inductive HistoryChange where
  | insertLog (row : LogRow)
  | denyManaged (id : Uuid) (decidedBy : String) (now : DateTime)
  | recordSpawnActionFailure (id : Uuid) (error : String)
  | attachToolResult (id : Uuid) (stored : String)
  | archiveRows (ids : List Uuid)
  | vacuum (numbers : List Nat)

namespace HistoryTable

/-- The rows without their numbers. -/
def log (table : HistoryTable) : List LogRow :=
  table.rows.map (·.2)

/-- No trigger fires for an update of other columns. -/
def perform (table : HistoryTable) : HistoryChange → Option HistoryTable
  | .insertLog row =>
    some (if table.log.any row.conflicts then table else Indexed.insert LogRow.searchText table row)
  | .denyManaged id decidedBy now =>
    some (table.updateOther (fun row => row.id = id && row.managed) (LogRow.denied decidedBy now))
  | .recordSpawnActionFailure id error =>
    some (table.update LogRow.searchText
      (fun row => row.id = id && row.managed && row.decision = Decision.approve.column) (LogRow.actionFailed error))
  | .attachToolResult id stored =>
    some (table.update LogRow.searchText (fun row => row.id = id) (LogRow.withResult stored))
  | .archiveRows ids => some (table.delete LogRow.searchText fun row => row.id ∈ ids)
  | .vacuum numbers => table.renumber numbers

/-- A log as the migration finds it. -/
structure Start where
  rows : List (Nat × LogRow)
  numbers : (rows.map (·.1)).Nodup

/-- The migration builds the index from the rows. -/
def machine (initial : Start) : Machine HistoryTable HistoryChange where
  start := Indexed.rebuild LogRow.searchText initial.rows
  step := perform

/-- A `VACUUM` leaves every row its number. -/
def Keeps (table : HistoryTable) : HistoryChange → Prop
  | .vacuum numbers => numbers = table.rows.map (·.1)
  | _ => True

instance (table : HistoryTable) : (change : HistoryChange) → Decidable (Keeps table change)
  | .vacuum numbers => inferInstanceAs (Decidable (numbers = table.rows.map (·.1)))
  | .insertLog _ | .denyManaged .. | .recordSpawnActionFailure .. | .attachToolResult .. | .archiveRows _ =>
    .isTrue trivial

end HistoryTable

/-! ### The query -/

/-- The quoted phrase. Quotes in it are doubled. -/
def ftsTrigramPhrase (text : String) : String :=
  String.ofList ('"' :: text.toList.flatMap (fun char => if char = '"' then ['"', '"'] else [char]) ++ ['"'])

/-- `LIKE` reads a text up to its first NUL. -/
def upToNul (text : String) : List Char :=
  text.toList.takeWhile (· ≠ '\x00')

/-- `column LIKE '%' || text || '%'`. -/
def likeAround (text column : String) : Bool :=
  TextPattern.like (upToNul ("%" ++ text ++ "%")) (upToNul column)

/-- The index is asked for texts of three characters on. Its expressions cannot hold a NUL. -/
def usesFts (text : String) : Bool :=
  3 ≤ text.toList.length && '\x00' ∉ text.toList

namespace HistorySearch
variable (clock : TextClock) (platform : SearchPlatform)

/-- A text without a letter or digit has no searchable term. -/
def textFilter (search : HistorySearch) : Option String :=
  search.query.filter fun text => text.toList.any platform.isAlphanumeric

/-- The filters beside the text. -/
def passes (search : HistorySearch) (row : LogRow) : Bool :=
  search.toolName.all (row.toolName = ·) && search.agentId.all (row.agentId = ·) &&
    search.since.all (fun since => clock.toRfc3339 since ≤ clock.text row.resolvedAt) &&
    search.project.all (row.project = ·) && search.decidedBy.all (fun rule => row.decidedBy.any (likeAround rule))

/-- The join with the index, or `LIKE` on each of the columns. -/
def matchesText (table : HistoryTable) (text : String) (row : Nat × LogRow) : Bool :=
  if usesFts text then
    table.index.any fun entry =>
      entry.1 = row.1 && entry.2.any (platform.matchesColumn (ftsTrigramPhrase text))
  else row.2.searchText.any (likeAround text)

def selected (search : HistorySearch) (table : HistoryTable) : List LogRow :=
  (table.rows.filter fun row =>
    (search.textFilter platform).all (fun text => matchesText platform table text row) && search.passes clock row.2).map (·.2)

/-- `ORDER BY resolved_at DESC LIMIT`. The order among equals is open. -/
def Recent (search : HistorySearch) (rows answer : List LogRow) : Prop :=
  ∃ ordered : List LogRow, ordered.Perm rows ∧
    ordered.Pairwise (fun row later => clock.text later.resolvedAt ≤ clock.text row.resolvedAt) ∧
    answer = ordered.take (search.limit.getD 200)

/-- What `search_history` may return. -/
def SearchHistory (search : HistorySearch) (table : HistoryTable) (entries : List HistoryEntry) : Prop :=
  ∃ answer, search.Recent clock (search.selected clock platform table) answer ∧
    entries = answer.filterMap (·.historyEntry clock platform)

end HistorySearch

/-! ### Literal search -/

namespace LogRow
variable (clock : TextClock) (platform : SearchPlatform)

/-- Some searched column has the text in it, but for the case of ASCII letters. -/
def contains (text : String) (row : LogRow) : Bool :=
  row.searchText.any fun column => TextPattern.Within Char.toLower text.toList column.toList

/-- No searched column has a NUL, and where the text is found, the row can be read. -/
structure Clean (text : String) (row : LogRow) : Prop where
  noNul : row.searchText.any (fun column => '\x00' ∈ column.toList) = false
  readable : row.contains text = true → (row.historyEntry clock platform).isSome

end LogRow

namespace HistorySearch
variable (clock : TextClock) (platform : SearchPlatform)

/-- The search returns the entries of exactly the rows that have the text in them and pass the
other filters, as far as the limit goes. -/
def Literal (search : HistorySearch) (text : String) (table : HistoryTable) : Prop :=
  ∀ entries, search.SearchHistory clock platform table entries ↔
    ∃ answer, search.Recent clock (table.log.filter fun row => row.contains text && search.passes clock row) answer ∧
      entries.map some = answer.map (·.historyEntry clock platform)

end HistorySearch

namespace SearchPlatform

/-- The index folds no other letter onto one of the text. A text that it is not asked for has no
wildcard and no NUL. -/
def Plain (platform : SearchPlatform) (text : String) : Prop :=
  if usesFts text then
    ∀ char ∈ text.toList, ∀ other, other ≠ '\x00' → platform.fold char = platform.fold other →
      char.toLower = other.toLower
  else ∀ char ∈ text.toList, TextPattern.literal char ∧ char ≠ '\x00'

/-- A phrase matches a column that has its text in it up to case, and for the case of ASCII letters
the index is blind. Some text is a time. -/
structure Documented (platform : SearchPlatform) : Prop where
  phrase : ∀ text column : String, 3 ≤ text.toList.length → '\x00' ∉ text.toList → '\x00' ∉ column.toList →
    platform.matchesColumn (ftsTrigramPhrase text) column =
      decide (TextPattern.Within platform.fold text.toList column.toList)
  fold : ∀ char other : Char, char.toLower = other.toLower → platform.fold char = platform.fold other
  time : ∃ text, (platform.parseFromRfc3339 text).isSome

end SearchPlatform
end Wisphive
