import Wisphive.Foundation.Assoc
import Wisphive.Foundation.ScriptText
import Wisphive.Foundation.Trace
import Wisphive.Types

/-! The brick detector of the hook: denials of one cause are counted across processes in a
state file, and the operator is notified of a cause once in an hour. -/

namespace Wisphive
open Foundation

structure BrickNotification where
  title : String
  body : String
  deriving DecidableEq, Repr

/-- The run of denials, and when each cause was last notified in seconds since the epoch. -/
structure DetectorState where
  cause : String
  consecutive : UInt32
  notified : List (String × UInt64)
  keyed : Assoc.Keyed notified
  deriving DecidableEq

namespace DetectorState

/-- Consecutive denials of the same cause before it is escalated. -/
def threshold : UInt32 := 3

/-- Least number of seconds between notifications of the same cause. -/
def renotifySecs : Nat := 3600

/-- Causes beyond this number drop the oldest. -/
def maxTrackedCauses : Nat := 8

def initial : DetectorState where
  cause := ""
  consecutive := 0
  notified := []
  keyed := Assoc.keyed_nil

def asU64? : Json → Option UInt64
  | .number (.integer value) =>
    if 0 ≤ value ∧ value < 18446744073709551616 then some (UInt64.ofNat value.toNat) else none
  | _ => none

def asU32? (value : Json) : Option UInt32 :=
  (asU64? value).bind fun number => if number < 4294967296 then some number.toUInt32 else none

def stateToJson (state : DetectorState) : Json :=
  .object [("cause", .string state.cause), ("consecutive", .number (.integer state.consecutive.toNat)),
    ("notified", .object (state.notified.map fun entry => (entry.1, .number (.integer entry.2.toNat))))]

/-- The last of two entries of one key counts. -/
def collect : List (String × UInt64) → DetectorState → DetectorState
  | [], state => state
  | entry :: rest, state =>
    collect rest
      { state with notified := Assoc.put state.notified entry.1 entry.2, keyed := state.keyed.put entry.1 entry.2 }

def stateFromJson (value : Json) : Option DetectorState := do
  let cause ← (← value.get? "cause").asString?
  let consecutive ← asU32? (← value.get? "consecutive")
  let entries ← (((value.get? "notified").bind Json.asObject?).getD []).mapM fun entry =>
    (asU64? entry.2).map (entry.1, ·)
  return collect entries { initial with cause, consecutive }

/-- The first denial of another cause begins a new run. The count saturates. -/
def counted (state : DetectorState) (cause : String) : DetectorState :=
  let consecutive := if state.cause = cause then state.consecutive else 0
  { state with cause, consecutive := if consecutive = 4294967295 then consecutive else consecutive + 1 }

/-- A clock that was set back gives zero seconds. -/
def rateLimited (state : DetectorState) (cause : String) (now : UInt64) : Bool :=
  (state.notified.lookup cause).any fun at_ => now.toNat - at_.toNat < renotifySecs

/-- The cause with the least time, of several the first. -/
def oldest (notified : List (String × UInt64)) : Option String :=
  (notified.find? fun entry => notified.all fun other =>
    entry.2 < other.2 || entry.2 = other.2 && entry.1 ≤ other.1).map (·.1)

/-- The fuel bounds the number of causes. -/
def dropOldest : Nat → List (String × UInt64) → List (String × UInt64)
  | 0, notified => notified
  | fuel + 1, notified =>
    if notified.length ≤ maxTrackedCauses then notified
    else
      match oldest notified with
      | some cause => dropOldest fuel (Assoc.erase notified cause)
      | none => notified

theorem dropOldest_keyed {fuel : Nat} {notified : List (String × UInt64)} (keyed : Assoc.Keyed notified) :
    Assoc.Keyed (dropOldest fuel notified) := by
  induction fuel generalizing notified with
  | zero => exact keyed
  | succ fuel ih =>
    rw [dropOldest]
    split
    · exact keyed
    · split
      · exact ih (keyed.erase _)
      · exact keyed

/-- The cause is entered, and the table is cut to its size. -/
def escalated (state : DetectorState) (now : UInt64) : DetectorState :=
  let notified := Assoc.put state.notified state.cause now
  { state with notified := dropOldest notified.length notified, keyed := dropOldest_keyed (state.keyed.put ..) }

def fires (state : DetectorState) (now : UInt64) : Bool :=
  threshold ≤ state.consecutive && !state.rateLimited state.cause now

/-- Whether a denial notifies, and the state that it leaves. -/
def denied (loaded : Option DetectorState) (cause : String) (now : UInt64) : Bool × DetectorState :=
  let state := (loaded.getD initial).counted cause
  if state.fires now then (true, state.escalated now) else (false, state)

end DetectorState

/-- What the files that may hold the state come to for this process: whether one can be read and
trusted, written, and removed. -/
structure Access where
  readable : Bool
  writable : Bool
  removable : Bool
  deriving DecidableEq, Repr

abbrev StateFiles := PathBuf → Option Json

namespace BrickDetector
variable (paths : List PathBuf) (access : PathBuf → Access)

/-- The first candidate that holds a state wins. -/
def loadState (files : StateFiles) : Option DetectorState :=
  paths.findSome? fun path => if (access path).readable then (files path).bind DetectorState.stateFromJson else none

/-- Every candidate that can be written holds the state. -/
def storeState (files : StateFiles) (state : DetectorState) : StateFiles := fun path =>
  if path ∈ paths ∧ (access path).writable then some state.stateToJson else files path

def clearOnHealthy (files : StateFiles) : StateFiles := fun path =>
  if path ∈ paths ∧ (access path).removable then none else files path

/-- The general category Cc. -/
def isControl (char : Char) : Bool :=
  char.toNat < 32 || 127 ≤ char.toNat && char.toNat < 160

def sanitizeForNotification (text : List Char) : List Char :=
  text.map fun char => if isControl char then ' ' else char

/-- Up to the first line end, which takes a carriage return with it. -/
def firstLine (text : List Char) : List Char :=
  let line := text.takeWhile (· ≠ '\n')
  if '\n' ∈ text ∧ line.getLast? = some '\r' then line.dropLast else line

def buildNotification (causeMessage : String) : BrickNotification where
  title := "Wisphive: gating bricked (fail-closed)"
  body := String.ofList (sanitizeForNotification (firstLine causeMessage.toList)) ++
    " — run 'wisphive doctor --fix-perms' or 'scripts/wisphive-rescue.sh'"

/-- One denial. The cause is told apart by the hash of its message. -/
def processDenial (causeHash : String → String) (files : StateFiles) (causeMessage : String) (now : UInt64) :
    Option BrickNotification × StateFiles :=
  let (notifies, state) := DetectorState.denied (loadState paths access files) (causeHash causeMessage) now
  (if notifies then some (buildNotification causeMessage) else none, storeState paths access files state)

/-- Some candidate can be read and written. -/
def usable : Bool :=
  paths.any fun path => (access path).readable && (access path).writable

end BrickDetector

/-- The files as processes of the hook leave them, and what there was since the last healthy one:
the state of the last denial, the notifications, the last denial, and how many denials of its
cause came in a row while some candidate could be read and written. -/
structure BrickRun where
  files : StateFiles
  latest : Option DetectorState
  sent : List (String × UInt64)
  last : Option (String × UInt64)
  streak : Nat

inductive BrickEvent where
  | denial (causeMessage : String) (now : UInt64) (access : PathBuf → Access)
  | healthy (access : PathBuf → Access)

namespace BrickRun
open BrickDetector
variable (paths : List PathBuf) (causeHash : String → String)

def step (run : BrickRun) : BrickEvent → BrickRun
  | .denial causeMessage now access =>
    let cause := causeHash causeMessage
    let (notification, files) := processDenial paths access causeHash run.files causeMessage now
    let inRow := if run.last.map (·.1) = some cause then run.streak + 1 else 1
    { files
      latest := some (DetectorState.denied (loadState paths access run.files) cause now).2
      sent := if notification.isSome then (cause, now) :: run.sent else run.sent
      last := some (cause, now)
      streak := if usable paths access then inRow else 0 }
  | .healthy access =>
    { files := clearOnHealthy paths access run.files, latest := none, sent := [], last := none, streak := 0 }

/-- No state was ever written. -/
def machine : Machine BrickRun BrickEvent where
  start := { files := fun _ => none, latest := none, sent := [], last := none, streak := 0 }
  step run event := some (step paths causeHash run event)

/-- Two clock values less than an hour apart. -/
def Within (first second : UInt64) : Prop :=
  first.toNat < second.toNat + DetectorState.renotifySecs ∧ second.toNat < first.toNat + DetectorState.renotifySecs

/-- No cause was notified twice within the hour. -/
def Calm (run : BrickRun) : Prop :=
  run.sent.Pairwise fun later earlier => later.1 = earlier.1 → ¬ Within later.2 earlier.2

/-- A cause that was denied often enough was notified within the hour. -/
def Heard (run : BrickRun) : Prop :=
  ∀ cause now, run.last = some (cause, now) → DetectorState.threshold.toNat ≤ run.streak →
    ∃ sent ∈ run.sent, sent.1 = cause ∧ Within sent.2 now

/-- A denial reads the state that the last one left, or it finds nothing and could not keep a
state. What it reads has not dropped the cause while the hour lasts, and the clock was not set
back by the hour since the cause was notified. -/
def Sound (run : BrickRun) : BrickEvent → Prop
  | .denial causeMessage now access =>
    let cause := causeHash causeMessage
    let loaded := loadState paths access run.files
    let read := (loaded.getD DetectorState.initial).notified.lookup cause
    (loaded = run.latest ∨ loaded = none ∧ usable paths access = false) ∧
      (∀ sent ∈ run.sent, sent.1 = cause → Within sent.2 now → ∃ time ∈ read, sent.2 ≤ time) ∧
        ∀ time ∈ read, time.toNat < now.toNat + DetectorState.renotifySecs
  | .healthy _ => True

end BrickRun

/-! ### The script of a notification -/

namespace Osascript

def fieldMaxChars : Nat := 512

/-- Control characters become spaces, and the two metacharacters of a literal get a backslash. -/
def escapeChar (char : Char) : List Char :=
  if BrickDetector.isControl char then [' ']
  else if char = '\\' then ['\\', '\\']
  else if char = '"' then ['\\', '"']
  else [char]

def escapeApplescript (text : String) : String :=
  String.ofList ((text.toList.take fieldMaxChars).flatMap escapeChar)

def buildOsascriptCommand (body title : String) : String :=
  "display notification \"" ++ escapeApplescript body ++ "\" with title \"" ++ escapeApplescript title ++ "\""

/-- What a field is shown as: the beginning of its text, with spaces for control characters. -/
def shown (text : String) : List Char :=
  (text.toList.take fieldMaxChars).map fun char => if BrickDetector.isControl char then ' ' else char

/-- `display notification` with a title, as a statement. -/
def displayNotification (body title : List Char) : ScriptText.Statement :=
  [.word "display".toList, .word "notification".toList, .literal body, .word "with".toList, .word "title".toList,
    .literal title]

end Osascript

end Wisphive
