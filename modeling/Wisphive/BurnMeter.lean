import Mathlib.Data.Finset.Card
import Wisphive.Foundation.Grouping
import Wisphive.Foundation.Shell
import Wisphive.PageTypes

/-! The burn meter of the web page: what the calls of each agent came to within the last hour,
from the audit stream and the calls that may have left an artifact. -/

namespace Wisphive
open Foundation Page

namespace BurnMeter

def burnWindowMs : Int := 60 * 60 * 1000

def deadRunMinToolCalls : Nat := 10

def deadRunMinActiveMs : Int := 10 * 60 * 1000

inductive ArtifactKind where
  | file
  | commit
  deriving DecidableEq, Repr

def ArtifactKind.label : ArtifactKind → String
  | .file => "file"
  | .commit => "commit"

structure Artifact where
  kind : ArtifactKind
  label : String
  toolName : String
  count : Nat
  lastTsMs : Int
  deriving DecidableEq, Repr

structure BurnSession where
  agentId : String
  agentType : AgentType
  project : String
  toolCalls : Nat
  activeSpanMs : Int
  lastMs : Int
  artifacts : List Artifact
  artifactCalls : Nat
  deadRun : Bool
  deriving DecidableEq, Repr

structure BurnTotals where
  sessions : Nat := 0
  deadRuns : Nat := 0
  artifactCalls : Nat := 0
  deriving DecidableEq, Repr

structure BurnModel where
  projects : List (String × List BurnSession)
  totals : BurnTotals
  deriving DecidableEq, Repr

structure BurnInputs where
  sessions : List SessionSummary := []
  auditDecisions : List Page.AuditDecision := []
  touches : List ArtifactTouch := []
  nowMs : Int
  deriving DecidableEq, Repr

/-! ### Artifacts -/

def fileArtifactTools : List String := ["Edit", "Write", "MultiEdit", "NotebookEdit"]

/-- The global options of git that take a separate value. -/
def gitValueOptions : List String := ["-C", "-c", "--git-dir", "--work-tree", "--namespace"]

/-- A member that is a string and not empty. -/
def readStringProp (value : Option Json) (key : String) : Option String :=
  ((value.bind (·.get? key)).bind (·.asString?)).filter (· ≠ "")

/-- The command between `&&`, `||`, `;` and `|`. -/
def segments : List Char → List (List Char)
  | [] => [[]]
  | '&' :: '&' :: rest => [] :: segments rest
  | '|' :: '|' :: rest => [] :: segments rest
  | ';' :: rest => [] :: segments rest
  | '|' :: rest => [] :: segments rest
  | char :: rest =>
    match segments rest with
    | [] => [[char]]
    | segment :: others => (char :: segment) :: others

/-- The tokens between white space. -/
def tokens (segment : List Char) : List (List Char) :=
  (segment.splitOnP isSpace).filter (· ≠ [])

/-- The first token that is neither an option nor the value of one. -/
def subcommand : List (List Char) → Option (List Char)
  | [] => none
  | token :: rest =>
    if token.head? = some '-' then
      if String.ofList token ∈ gitValueOptions then
        match rest with
        | [] => none
        | _ :: rest => subcommand rest
      else subcommand rest
    else some token

/-- `"([^"]*)"`, or the same with the other quote. -/
def quotedValue (quote : Char) : List Char → Option (List Char)
  | [] => none
  | char :: rest => if char = quote ∧ quote ∈ rest then some (rest.takeWhile (· ≠ quote)) else none

/-- The value of an option: a quoted one, or what comes up to white space. -/
def optionValue (text : List Char) : Option (List Char) :=
  quotedValue '"' text <|> quotedValue '\'' text <|>
    (let word := text.takeWhile (!isSpace ·)
    if word = [] then none else some word)

/-- `[\s=]+` in front of a value takes as much as leaves one. -/
def gapValue (text : List Char) : Option (List Char) :=
  let gap := text.takeWhile fun char => isSpace char || char = '='
  (List.range gap.length).reverse.findSome? fun shorter => optionValue (text.drop (shorter + 1))

def flagValue (text : List Char) : Option (List Char) :=
  ["-m", "--message"].findSome? fun flag =>
    if flag.toList.isPrefixOf text then gapValue (text.drop flag.length) else none

/-- The first flag at the start or behind white space that has a value. -/
def message (segment : List Char) : Option (List Char) :=
  flagValue segment <|> segment.tails.findSome? fun rest =>
    match rest with
    | [] => none
    | char :: rest => if isSpace char then flagValue rest else none

/-- The first line of the message. -/
def subject (segment : List Char) : List Char :=
  let line := ((message segment).map fun text => trim (text.takeWhile (· ≠ '\n'))).getD []
  if line = [] then "git commit".toList else line

def gitCommitSubject (segment : List Char) : Option (List Char) :=
  match tokens segment with
  | [] => none
  | first :: rest =>
    if first = "git".toList ∧ subcommand rest = some "commit".toList then some (subject segment) else none

/-- What an approved call leaves behind: a file that it wrote, or a commit. -/
def classifyArtifact (toolName : String) (toolInput : Option Json) : Option (ArtifactKind × String) :=
  if toolName ∈ fileArtifactTools then
    some (.file, ((readStringProp toolInput "file_path").or (readStringProp toolInput "notebook_path")).getD "(path unknown)")
  else if toolName = "Bash" then
    (readStringProp toolInput "command").bind fun command =>
      ((segments command.toList).findSome? gitCommitSubject).map fun found => (.commit, String.ofList found)
  else none

/-! ### Drafts -/

/-- What was noted of an agent. Without a first time, there was no event yet. -/
structure Draft where
  project : Option String := none
  agentType : Option AgentType := none
  toolCalls : Nat := 0
  firstMs : Option Int := none
  lastMs : Int := 0
  counted : List String := []
  artifacts : List (String × Artifact) := []
  artifactCalls : Nat := 0
  deriving DecidableEq, Repr

abbrev Drafts := List (String × Draft)

namespace Draft

def noteProject (draft : Draft) (project : String) : Draft :=
  { draft with project := draft.project.or (some project) }

def noteSpan (draft : Draft) (ms : Int) : Draft :=
  { draft with
    firstMs := if draft.firstMs.all (ms < ·) then some ms else draft.firstMs
    lastMs := if draft.lastMs < ms then ms else draft.lastMs }

/-- Calls are told apart by their agent, their tool and their time. -/
def callKey (agentId toolName : String) (ms : Int) : String :=
  agentId ++ "\x00" ++ toolName ++ "\x00" ++ toString ms

def noteCall (draft : Draft) (key : String) : Draft :=
  if key ∈ draft.counted then draft
  else { draft with counted := draft.counted ++ [key], toolCalls := draft.toolCalls + 1 }

def noteArtifact (draft : Draft) (kind : ArtifactKind) (label toolName : String) (ms : Int) : Draft :=
  let key := kind.label ++ "\x00" ++ label
  let artifact : Artifact :=
    match draft.artifacts.lookup key with
    | some existing =>
      { existing with
        count := existing.count + 1
        lastTsMs := if ms > existing.lastTsMs then ms else existing.lastTsMs
        toolName := if ms > existing.lastTsMs then toolName else existing.toolName }
    | none => { kind, label, toolName, count := 1, lastTsMs := ms }
  { draft with artifactCalls := draft.artifactCalls + 1, artifacts := Assoc.set draft.artifacts key artifact }

/-- Any event is activity, and an approved call is spend. -/
def addAudit (draft : Draft) (audit : Page.AuditDecision) (ms : Int) : Draft :=
  let draft := (draft.noteProject audit.project).noteSpan ms
  if audit.kind = .autoApproved then draft.noteCall (callKey audit.agentId audit.toolName ms) else draft

def addTouch (draft : Draft) (touch : ArtifactTouch) (ms : Int) : Draft :=
  let draft := (draft.noteProject touch.project).noteSpan ms
  let draft := draft.noteCall (callKey touch.agentId touch.toolName ms)
  match classifyArtifact touch.toolName touch.toolInput with
  | some (kind, label) => draft.noteArtifact kind label touch.toolName ms
  | none => draft

end Draft

variable (getTime : String → Option Int)

def inWindow (nowMs ms : Int) : Bool :=
  nowMs - burnWindowMs ≤ ms && ms ≤ nowMs

/-- The time of an event within the window. -/
def windowed (nowMs : Int) (ts : String) : Option Int :=
  (getTime ts).filter (inWindow nowMs)

def noteAudit (nowMs : Int) (drafts : Drafts) (audit : Page.AuditDecision) : Drafts :=
  match windowed getTime nowMs audit.ts with
  | none => drafts
  | some ms => Grouping.modify (fun _ => {}) audit.agentId (·.addAudit audit ms) drafts

def noteTouch (nowMs : Int) (drafts : Drafts) (touch : ArtifactTouch) : Drafts :=
  match windowed getTime nowMs touch.ts with
  | none => drafts
  | some ms => Grouping.modify (fun _ => {}) touch.agentId (·.addTouch touch ms) drafts

/-- A session adds to a draft that is there. -/
def noteSession (drafts : Drafts) (session : SessionSummary) : Drafts :=
  match drafts.lookup session.agentId with
  | none => drafts
  | some draft =>
    Assoc.set drafts session.agentId
      { draft.noteProject session.project with agentType := draft.agentType.or (knownAgentType session.agentType) }

/-- The row of an agent. -/
def burnSession (agentId : String) (draft : Draft) : Option BurnSession :=
  if draft.lastMs = 0 then none
  else
    let activeSpanMs := match draft.firstMs with
      | some firstMs => max 0 (draft.lastMs - firstMs)
      | none => 0
    let artifacts := (draft.artifacts.map Prod.snd).mergeSort fun a b => b.lastTsMs ≤ a.lastTsMs
    some {
      agentId
      agentType := draft.agentType.getD (agentTypeFromId agentId)
      project := draft.project.getD ""
      toolCalls := draft.toolCalls
      activeSpanMs
      lastMs := draft.lastMs
      artifacts
      artifactCalls := draft.artifactCalls
      deadRun := deadRunMinToolCalls ≤ draft.toolCalls ∧ deadRunMinActiveMs ≤ activeSpanMs ∧ artifacts = [] }

/-- Dead runs first, then the latest. -/
def louder (a b : BurnSession) : Bool :=
  let rank (session : BurnSession) : Nat := if session.deadRun then 0 else 1
  rank a < rank b || rank a = rank b && b.lastMs ≤ a.lastMs

def addSession (totals : BurnTotals) (session : BurnSession) : BurnTotals where
  sessions := totals.sessions + 1
  deadRuns := if session.deadRun then totals.deadRuns + 1 else totals.deadRuns
  artifactCalls := totals.artifactCalls + session.artifactCalls

def drafts (inputs : BurnInputs) : Drafts :=
  let audited := inputs.auditDecisions.foldl (noteAudit getTime inputs.nowMs) []
  inputs.sessions.foldl noteSession (inputs.touches.foldl (noteTouch getTime inputs.nowMs) audited)

def burnSessions (inputs : BurnInputs) : List BurnSession :=
  (drafts getTime inputs).filterMap fun draft => burnSession draft.1 draft.2

def deriveBurn (inputs : BurnInputs) : BurnModel :=
  let burnSessions := burnSessions getTime inputs
  { projects := Grouping.arrange (·.project) louder burnSessions
    totals := burnSessions.foldl addSession {} }

/-- The rows of an agent. -/
def BurnModel.rows (model : BurnModel) (agentId : String) : List BurnSession :=
  (model.projects.flatMap Prod.snd).filter (·.agentId = agentId)

end BurnMeter

/-! ### Calls -/

/-- A call of a tool, as it was made. -/
structure ToolCall where
  agentId : String
  toolName : String
  toolInput : Option Json := none
  instant : Option Int
  deriving DecidableEq, Repr

/-- The rows of the two streams, each with its call. A call carries the same agent, tool and
instant wherever it is listed. -/
structure CallLog (getTime : String → Option Int) (Call : Type) where
  made : Call → ToolCall
  audits : List (Call × Page.AuditDecision)
  touches : List (Call × ArtifactTouch)
  audited : ∀ entry ∈ audits, entry.2.agentId = (made entry.1).agentId ∧ entry.2.toolName = (made entry.1).toolName ∧
    getTime entry.2.ts = (made entry.1).instant
  touched : ∀ entry ∈ touches, entry.2.agentId = (made entry.1).agentId ∧ entry.2.toolName = (made entry.1).toolName ∧
    getTime entry.2.ts = (made entry.1).instant ∧ entry.2.toolInput = (made entry.1).toolInput

namespace CallLog
open BurnMeter
variable {getTime : String → Option Int} {Call : Type} (log : CallLog getTime Call) (sessions : List SessionSummary)
  (nowMs : Int) (agentId : String)

def inputs : BurnInputs where
  sessions := sessions
  auditDecisions := log.audits.map Prod.snd
  touches := log.touches.map Prod.snd
  nowMs := nowMs

/-- The call is one of the agent within the window. -/
def counts (call : Call) : Bool :=
  (log.made call).agentId = agentId && (log.made call).instant.any (inWindow nowMs)

def isArtifact (call : Call) : Bool :=
  (classifyArtifact (log.made call).toolName (log.made call).toolInput).isSome

/-- The approved calls of an agent within the window. -/
def approved [DecidableEq Call] : Finset Call :=
  ((log.audits.filter (·.2.kind = .autoApproved)).map Prod.fst ++ log.touches.map Prod.fst).toFinset.filter
    (log.counts nowMs agentId ·)

/-- When the agent was seen within the window. -/
def observed : List Int :=
  ((log.audits.map Prod.fst ++ log.touches.map Prod.fst).filter (log.counts nowMs agentId)).filterMap
    fun call => (log.made call).instant

/-- The touches of the agent within the window that are artifacts. -/
def artifactTouches : Nat :=
  (log.touches.map Prod.fst).countP fun call => log.counts nowMs agentId call && log.isArtifact call

/-- The agent was active for as long as a dead run takes. -/
def Spans : Prop :=
  ∃ first ∈ log.observed nowMs agentId, ∃ last ∈ log.observed nowMs agentId, deadRunMinActiveMs ≤ last - first

/-- The agent spent as much as a dead run does, and none of its calls is an artifact. -/
structure Wasted [DecidableEq Call] : Prop where
  calls : deadRunMinToolCalls ≤ (log.approved nowMs agentId).card
  spans : log.Spans nowMs agentId
  nothing : ∀ call ∈ log.approved nowMs agentId, log.isArtifact call = false

/-- The meter counts each approved call of the agent once, and tells whether its run is dead. -/
structure Counted [DecidableEq Call] : Prop where
  single : ((deriveBurn getTime (log.inputs sessions nowMs)).rows agentId).length ≤ 1
  calls : (((deriveBurn getTime (log.inputs sessions nowMs)).rows agentId).map (·.toolCalls)).sum =
    (log.approved nowMs agentId).card
  artifacts : (((deriveBurn getTime (log.inputs sessions nowMs)).rows agentId).map (·.artifactCalls)).sum =
    log.artifactTouches nowMs agentId
  dead : (∃ row ∈ (deriveBurn getTime (log.inputs sessions nowMs)).rows agentId, row.deadRun = true) ↔
    log.Wasted nowMs agentId

/-- Two calls of a tool are never at one instant, the agent was seen after the epoch, and no
artifact of what looks like a dead run is in the audit stream alone. -/
structure Discernible [DecidableEq Call] : Prop where
  shown : (log.approved nowMs agentId).Nonempty → ∃ ms ∈ log.observed nowMs agentId, 0 < ms
  apart : ∀ first ∈ log.approved nowMs agentId, ∀ second ∈ log.approved nowMs agentId,
    (log.made first).toolName = (log.made second).toolName → (log.made first).instant = (log.made second).instant →
      first = second
  visible : deadRunMinToolCalls ≤ (log.approved nowMs agentId).card → log.Spans nowMs agentId →
    log.artifactTouches nowMs agentId = 0 → ∀ call ∈ log.approved nowMs agentId, log.isArtifact call = false

end CallLog

/-! ### Which commands commit -/

namespace CommitDetection
open Shell
variable (takesOperand : List Char → Bool)

/-- The subcommand of git, behind its global options and the operands that these take. -/
def gitSubcommand : List (List Char) → Option (List Char)
  | [] => none
  | argument :: rest =>
    if argument.head? = some '-' then
      if takesOperand argument then
        match rest with
        | [] => none
        | _ :: rest => gitSubcommand rest
      else gitSubcommand rest
    else some argument

/-- The simple command is a `git commit`. -/
def commits (command : List (List Cell)) : Bool :=
  match arguments command with
  | [] => false
  | word :: rest => word = "git".toList && gitSubcommand takesOperand rest = some "commit".toList

/-- The first simple command of a stretch commits. -/
def opensWithCommit (stretch : List Cell) : Bool :=
  (simpleCommands stretch).head?.any (commits takesOperand)

/-- The text between two of `&&`, `||`, `;` and `|`, with or without quotes around them. -/
def pieces (stretch : List Cell) : List (List Char) :=
  BurnMeter.segments (rawText stretch)

/-- Words that begin with a dash, the five value options each with one word behind it. -/
inductive Options : List (List Char) → Prop
  | none : Options []
  | flag {word rest} (dash : word.head? = some '-') (alone : String.ofList word ∉ BurnMeter.gitValueOptions)
      (options : Options rest) : Options (word :: rest)
  | valued {word operand rest} (value : String.ofList word ∈ BurnMeter.gitValueOptions) (options : Options rest) :
      Options (word :: operand :: rest)

/-- Between white space, and with the quotes as they are, the text runs `git`, options, `commit`. -/
def Spelled (text : List Char) : Prop :=
  ∃ options rest, BurnMeter.tokens text = "git".toList :: (options ++ "commit".toList :: rest) ∧ Options options

/-- Some simple command commits. -/
def Commits (script : Script) : Prop :=
  ∃ stretch ∈ script.stretches, ∃ command ∈ simpleCommands stretch, commits takesOperand command = true

/-- Some commit begins the script or follows `&&`, `||`, `;` or `|`, and is spelled out there. -/
def InView (script : Script) : Prop :=
  ∃ stretch ∈ script.stretches, opensWithCommit takesOperand stretch = true ∧
    ∃ piece ∈ (pieces stretch).head?, Spelled piece

/-- A commit is spelled where none is: at a simple command that does not commit, or behind a
separator in quotes. -/
def Misleads (script : Script) : Prop :=
  ∃ stretch ∈ script.stretches,
    (opensWithCommit takesOperand stretch = false ∧ ∃ piece ∈ (pieces stretch).head?, Spelled piece) ∨
      ∃ piece ∈ (pieces stretch).tail, Spelled piece

/-- The burn meter takes the command for a commit. -/
def reports (command : List Char) : Bool :=
  (BurnMeter.classifyArtifact "Bash" (some (.object [("command", .string (String.ofList command))]))).any
    (·.1 = .commit)

/-- The burn meter follows the shell. -/
def Follows (script : Script) : Prop :=
  reports script.text = true ↔ Commits takesOperand script

end CommitDetection

end Wisphive
