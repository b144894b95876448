import Mathlib.Logic.Function.Basic
import Wisphive.Foundation.JsonReader
import Wisphive.Foundation.Trace
import Wisphive.Types

/-! Calls that change a terminal in two steps each: grants of replay access, which read the list
and write it, and edits of the metadata, which write the row and then the live session. -/

namespace Wisphive
open Foundation

/-! ### Replay access -/

inductive GrantPhase where
  | called
  /-- The list that was read, which lacks the requester. -/
  | read (acl : List String)
  | returned
  deriving DecidableEq, Repr

/-- The column `replay_acl` of one session, if there is a row, and how far the calls of
`grant_terminal_replay_access` for it are, one for each requester. -/
structure ReplayGrants where
  row : Option (Option String)
  phase : String → GrantPhase

inductive GrantEvent where
  /-- The `SELECT`, up to the `UPDATE` or to the return. -/
  | select (requester : String)
  | update (requester : String)
  deriving DecidableEq, Repr

namespace ReplayGrants

/-- A list that is absent or malformed is empty. -/
def readAcl (column : Option String) : List String :=
  ((column.bind (Json.parse fun _ => none)).bind fun value => value.asArray?.bind (·.mapM Json.asString?)).getD []

def writeAcl (acl : List String) : String :=
  (Json.array (acl.map .string)).render

def acl (run : ReplayGrants) : List String :=
  run.row.elim [] readAcl

def setPhase (run : ReplayGrants) (requester : String) (phase : GrantPhase) : ReplayGrants :=
  { run with phase := Function.update run.phase requester phase }

def select (run : ReplayGrants) (requester : String) : ReplayGrants :=
  match run.row with
  | none => run.setPhase requester .returned
  | some column =>
    let acl := readAcl column
    run.setPhase requester (if requester ∈ acl then .returned else .read acl)

def update (run : ReplayGrants) (requester : String) (acl : List String) : ReplayGrants :=
  { run with row := run.row.map fun _ => some (writeAcl (acl ++ [requester])) }.setPhase requester .returned

def step (requesters : List String) (run : ReplayGrants) : GrantEvent → Option ReplayGrants
  | .select requester =>
    if requester ∈ requesters ∧ run.phase requester = .called then some (run.select requester) else none
  | .update requester =>
    match run.phase requester with
    | .read acl => some (run.update requester acl)
    | .called | .returned => none

def machine (row : Option (Option String)) (requesters : List String) : Machine ReplayGrants GrantEvent where
  start := { row, phase := fun _ => .called }
  step := step requesters

/-- The session exists, and a call writes while the list is still the one that it read. -/
def Undisturbed (run : ReplayGrants) : GrantEvent → Prop
  | .select _ => run.row.isSome = true
  | .update requester => run.phase requester = .read run.acl

instance (run : ReplayGrants) : (event : GrantEvent) → Decidable (Undisturbed run event)
  | .select _ => inferInstanceAs (Decidable (_ = true))
  | .update _ => inferInstanceAs (Decidable (_ = _))

end ReplayGrants

/-! ### Metadata -/

/-- What the edits change of a session. -/
structure SessionMeta where
  groupName : Option String
  sortOrder : Int
  pinned : Bool
  deriving DecidableEq, Repr

inductive MetaField where
  | groupName | sortOrder | pinned
  deriving DecidableEq, Repr

/-- A new value of one field. -/
inductive MetaEdit where
  | groupName (group : Option String)
  | sortOrder (order : Int)
  | pinned (pinned : Bool)
  deriving DecidableEq, Repr

namespace MetaEdit

def field : MetaEdit → MetaField
  | .groupName _ => .groupName
  | .sortOrder _ => .sortOrder
  | .pinned _ => .pinned

def apply (data : SessionMeta) : MetaEdit → SessionMeta
  | .groupName group => { data with groupName := group }
  | .sortOrder order => { data with sortOrder := order }
  | .pinned flag => { data with pinned := flag }

end MetaEdit

/-- The value of a field. -/
def SessionMeta.held (data : SessionMeta) : MetaField → MetaEdit
  | .groupName => .groupName data.groupName
  | .sortOrder => .sortOrder data.sortOrder
  | .pinned => .pinned data.pinned

structure EditCall where
  id : Uuid
  edit : MetaEdit
  deriving DecidableEq, Repr

/-- The rows, the sessions in the map, and the calls between their two steps. -/
structure SessionEdits where
  rows : Uuid → Option SessionMeta
  sessions : Uuid → Option SessionMeta
  pending : List EditCall

inductive EditEvent where
  /-- The `UPDATE`. -/
  | write (call : EditCall)
  /-- The live session, under the lock of the map, and the return. -/
  | mirror (call : EditCall)
  deriving DecidableEq, Repr

namespace SessionEdits

def setGroup (id : Uuid) (group : Option String) : EditCall := ⟨id, .groupName group⟩

def setPinned (id : Uuid) (pinned : Bool) : EditCall := ⟨id, .pinned pinned⟩

/-- A session that is absent stays absent. -/
def edited (entries : Uuid → Option SessionMeta) (call : EditCall) : Uuid → Option SessionMeta :=
  Function.update entries call.id ((entries call.id).map call.edit.apply)

def step (state : SessionEdits) : EditEvent → Option SessionEdits
  | .write call => some { state with rows := edited state.rows call, pending := state.pending ++ [call] }
  | .mirror call =>
    if call ∈ state.pending then
      some { state with sessions := edited state.sessions call, pending := state.pending.erase call }
    else none

/-- Every live session is as its row. -/
def machine (rows : Uuid → Option SessionMeta) (live : List Uuid) : Machine SessionEdits EditEvent where
  start := { rows, sessions := fun id => if id ∈ live then rows id else none, pending := [] }
  step := step

/-- When a call comes to a live session, the row holds its value, or some other call between its
steps holds the value of the row. -/
def Timely (state : SessionEdits) : EditEvent → Prop
  | .write _ => True
  | .mirror call => (state.sessions call.id).isSome = true → ∀ row ∈ state.rows call.id,
      row.held call.edit.field = call.edit ∨
        ∃ other ∈ state.pending.erase call, other.id = call.id ∧ other.edit = row.held call.edit.field

instance (state : SessionEdits) : (event : EditEvent) → Decidable (Timely state event)
  | .write _ => .isTrue trivial
  | .mirror _ => @instDecidableForall _ _ _ (Option.decidableForallMem _)

end SessionEdits
end Wisphive
