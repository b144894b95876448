import Wisphive.Types
import Wisphive.Redact
import Wisphive.Foundation.Utf8

/-! The working-tree probe: `git status --porcelain=v2 --branch -z` as it is parsed, and the
changed files as they are attributed to agents. -/

namespace Wisphive
open Foundation

structure WorktreeChange where
  path : String
  status : String
  origPath : Option String := none
  attributedTo : Option String := none
  attributedTool : Option String := none
  deriving DecidableEq, Repr

/-- What the parser fills in. -/
structure WorktreeStatus where
  branch : Option String := none
  detached : Bool := false
  head : Option String := none
  upstream : Option String := none
  ahead : Option Nat := none
  behind : Option Nat := none
  changes : List WorktreeChange := []
  changesTruncated : Bool := false
  deriving DecidableEq, Repr

/-- One row of the decision log that may attribute a change to an agent. -/
structure FileTouch where
  agentId : String
  toolName : String
  toolInput : Json
  deriving DecidableEq, Repr

namespace Worktree

/-- Cap on parsed change entries per repository. -/
def maxChanges : Nat := 400

def stripPrefix (start text : List Char) : Option (List Char) :=
  if start.isPrefixOf text then some (text.drop start.length) else none

/-- At most so many pieces of a text, the last of which keeps its spaces. -/
def splitn : Nat → List Char → List (List Char)
  | 0, _ => []
  | 1, text => [text]
  | count + 2, text =>
    match Redact.splitOnce ' ' text with
    | some (first, rest) => first :: splitn (count + 1) rest
    | none => [text]

/-- A 32-bit number. A sign is taken. -/
def parseU32 (text : List Char) : Option Nat :=
  let digits := (stripPrefix ['+'] text).getD text
  let value := digits.foldl (fun value digit => value * 10 + (digit.toNat - '0'.toNat)) 0
  if digits ≠ [] ∧ digits.all Char.isDigit ∧ value < 2 ^ 32 then some value else none

/-- One half of `+ahead -behind`. -/
def parseAheadBehind (status : WorktreeStatus) (part : List Char) : WorktreeStatus :=
  match stripPrefix ['+'] part, stripPrefix ['-'] part with
  | some ahead, _ => { status with ahead := parseU32 ahead }
  | none, some behind => { status with behind := parseU32 behind }
  | none, none => status

def parseBranchHeader (header : List Char) (status : WorktreeStatus) : WorktreeStatus :=
  match stripPrefix "branch.oid ".toList header with
  | some oid => if oid = "(initial)".toList then status else { status with head := some (String.ofList oid) }
  | none =>
    match stripPrefix "branch.head ".toList header with
    | some head =>
      if head = "(detached)".toList then { status with detached := true }
      else { status with branch := some (String.ofList head) }
    | none =>
      match stripPrefix "branch.upstream ".toList header with
      | some upstream => { status with upstream := some (String.ofList upstream) }
      | none =>
        match stripPrefix "branch.ab ".toList header with
        | some counts => (counts.splitOn ' ').foldl parseAheadBehind status
        | none => status

/-- The code and the path of an entry, between which so many fields are skipped. -/
def splitEntry (rest : List Char) (skip : Nat) : Option (List Char × List Char) :=
  match splitn (skip + 2) rest with
  | [] => none
  | xy :: fields =>
    match fields.drop skip with
    | [] => none
    | path :: _ => if Redact.utf8Len xy ≠ 2 ∨ path = [] then none else some (xy, path)

/-- An entry that does not split is left out. -/
def record (status : WorktreeStatus) (entry : Option (List Char × List Char)) (orig : Option (List Char)) :
    WorktreeStatus :=
  match entry with
  | some (xy, path) =>
    { status with
      changes := status.changes ++
        [{ path := String.ofList path, status := String.ofList xy, origPath := orig.map String.ofList }] }
  | none => status

/-- Records are taken in turn, and the record of a rename takes the next one with it, which is
the original path. -/
def parseTokens : List (List Char) → WorktreeStatus → WorktreeStatus
  | [], status => status
  | token :: rest, status =>
    if token = [] then parseTokens rest status
    else
      match stripPrefix "# ".toList token with
      | some header => parseTokens rest (parseBranchHeader header status)
      | none =>
        if maxChanges ≤ status.changes.length then { status with changesTruncated := true }
        else
          let fields := splitn 2 token
          let remainder := fields[1]?.getD []
          match fields.head?.getD [] with
          | ['1'] => parseTokens rest (record status (splitEntry remainder 6) none)
          | ['2'] =>
            match rest with
            | [] => record status (splitEntry remainder 7) none
            | orig :: later => parseTokens later (record status (splitEntry remainder 7) (some orig))
          | ['u'] => parseTokens rest (record status (splitEntry remainder 8) none)
          | ['?'] => parseTokens rest (record status (some ("??".toList, remainder)) none)
          | _ => parseTokens rest status

def parsePorcelainV2 (stdout : List UInt8) (status : WorktreeStatus) : WorktreeStatus :=
  parseTokens ((Utf8.lossy stdout).splitOn '\x00') status

/-- An absolute path takes the place of the project. -/
def join (project : PathBuf) (path : String) : String :=
  if path.toList.head? = some '/' then path
  else if project.text = "" ∨ project.text.toList.getLast? = some '/' then project.text ++ path
  else project.text ++ "/" ++ path

def editTools : List String := ["Edit", "Write", "MultiEdit", "NotebookEdit"]

/-- The file that an edit-class call names. -/
def editedPath (touch : FileTouch) : Option String :=
  ((touch.toolInput.get? "file_path").or (touch.toolInput.get? "notebook_path")).bind Json.asString?

/-- Whether an edit-class call names the changed file. -/
def edits (project : PathBuf) (change : WorktreeChange) (touch : FileTouch) : Bool :=
  editTools.contains touch.toolName &&
    (editedPath touch).any fun candidate => candidate = join project change.path || candidate = change.path

/-- Whether the command of a `Bash` call mentions the changed file. A relative path of less
than four bytes is not looked for. -/
def mentions (project : PathBuf) (change : WorktreeChange) (touch : FileTouch) : Bool :=
  touch.toolName = "Bash" &&
    ((touch.toolInput.get? "command").bind Json.asString?).any fun command =>
      Redact.contains command.toList (join project change.path).toList ||
        4 ≤ change.path.utf8ByteSize && Redact.contains command.toList change.path.toList

def attributed (change : WorktreeChange) (touch : FileTouch) : WorktreeChange :=
  { change with attributedTo := some touch.agentId, attributedTool := some touch.toolName }

/-- The first match among the touches is taken. -/
def attributeChange (project : PathBuf) (touches : List FileTouch) (change : WorktreeChange) : WorktreeChange :=
  match touches.find? fun touch => edits project change touch || mentions project change touch with
  | some touch => attributed change touch
  | none => change

def attributeChanges (project : PathBuf) (changes : List WorktreeChange) (touches : List FileTouch) :
    List WorktreeChange :=
  changes.map (attributeChange project touches)

end Worktree
end Wisphive
