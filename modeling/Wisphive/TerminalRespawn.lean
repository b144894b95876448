import Wisphive.Foundation.Table
import Wisphive.Foundation.Trace
import Wisphive.Types

/-! The terminal sessions of one database over the daemons that serve it: how a session
starts and ends, what a shutdown keeps for the next start, and what that start respawns. -/

namespace Wisphive
open Foundation

inductive TerminalStatus where
  | running | exited | killed | orphaned
  deriving DecidableEq, Repr

/-- A row of `terminal_sessions`. -/
structure TerminalRow where
  id : Uuid
  status : TerminalStatus := .running
  pinned : Bool := false
  deriving DecidableEq, Repr

/-- How far `run_waiter` is. It is spawned after the session is in the map. -/
inductive Waiter where
  | unspawned
  | waiting
  | returned (status : TerminalStatus)
  | preserved
  | ending (status : TerminalStatus)
  | ended
  deriving DecidableEq, Repr

/-- A session of this daemon. A task may still hold one that left the map. -/
structure LiveSession where
  id : Uuid
  /-- `meta.pinned`. -/
  pinned : Bool := false
  childRunning : Bool := true
  killer : Bool := true
  preserveStatusOnShutdown : Bool := false
  mapped : Bool := false
  waiter : Waiter := .unspawned
  deriving DecidableEq, Repr

/-- What the daemon does with its sessions: the reconcile loop of `Server::new`, then the
service, then the loop of `shutdown_all` over the sessions it found in the map. -/
inductive DaemonPhase where
  | down
  | reconciling (candidates : List Uuid)
  | serving
  | visiting (sessions : List Uuid)
  | storing (id : Uuid) (rest : List Uuid)
  | killing (id : Uuid) (rest : List Uuid)
  deriving DecidableEq, Repr

structure TerminalLifecycle where
  rows : List TerminalRow := []
  sessions : List LiveSession := []
  phase : DaemonPhase := .down
  /-- The calls of `set_pinned` between their two writes. -/
  mirroring : List (Uuid × Bool) := []
  deriving DecidableEq, Repr

inductive LifecycleEvent where
  | start
  | respawn (succeeds : Bool)
  | serve
  | create (id : Uuid)
  | launch (id : Uuid)
  | setPinned (id : Uuid) (pinned : Bool)
  | mirrorPinned (id : Uuid) (pinned : Bool)
  /-- The child ends, by itself or because it was killed. -/
  | exit (id : Uuid)
  | close (id : Uuid)
  /-- `wait()` returned, with an exit status or with an error. -/
  | waitReturns (id : Uuid) (ok : Bool)
  | readFlag (id : Uuid)
  | endSession (id : Uuid) (persists : Bool)
  | remove (id : Uuid)
  /-- The order is the one of the map. -/
  | shutdownAll (order : List Uuid)
  | shutdown
  /-- The process ends, gracefully or not. -/
  | stop
  deriving DecidableEq, Repr

namespace DaemonPhase

/-- The daemon accepts connections, or still serves those that it accepted. -/
def accepts : DaemonPhase → Bool
  | .down | .reconciling _ => false
  | .serving | .visiting _ | .storing _ _ | .killing _ _ => true

end DaemonPhase

namespace TerminalLifecycle

def row (daemon : TerminalLifecycle) (id : Uuid) : Option TerminalRow :=
  daemon.rows.find? (·.id = id)

def session (daemon : TerminalLifecycle) (id : Uuid) : Option LiveSession :=
  daemon.sessions.find? (·.id = id)

def mappedIds (daemon : TerminalLifecycle) : List Uuid :=
  (daemon.sessions.filter (·.mapped)).map (·.id)

def changeSession (daemon : TerminalLifecycle) (id : Uuid) (change : LiveSession → LiveSession) : TerminalLifecycle :=
  { daemon with sessions := (Table.update daemon.sessions (·.id = id) change).2 }

def endTerminalSession (rows : List TerminalRow) (id : Uuid) (status : TerminalStatus) : List TerminalRow :=
  (Table.update rows (·.id = id) fun row => { row with status }).2

def setTerminalPinned (rows : List TerminalRow) (id : Uuid) (pinned : Bool) : List TerminalRow :=
  (Table.update rows (·.id = id) fun row => { row with pinned }).2

def resurrectTerminalSession (rows : List TerminalRow) (id : Uuid) : List TerminalRow :=
  (Table.update rows (·.id = id) fun row => { row with status := .running }).2

/-- The sweep, and the pinned rows that it swept. -/
def markRunningTerminalsOrphaned (rows : List TerminalRow) : List Uuid × List TerminalRow :=
  let swept := rows.filter (·.status = .running)
  ((swept.filter (·.pinned)).map (·.id),
    (Table.update rows (·.status = .running) fun row => { row with status := .orphaned }).2)

/-- `respawn_session`. The checks come first, and a failure later leaves the row orphaned. -/
def respawnSession (daemon : TerminalLifecycle) (id : Uuid) (succeeds : Bool) : TerminalLifecycle :=
  if id ∈ daemon.mappedIds then daemon
  else
    match daemon.row id with
    | some row =>
      if row.status = .orphaned ∧ row.pinned = true ∧ succeeds = true then
        { daemon with
          rows := resurrectTerminalSession daemon.rows id
          sessions := daemon.sessions ++ [{ id, pinned := row.pinned, mapped := true, waiter := .waiting }] }
      else daemon
    | none => daemon

/-- A session that is closed or killed a second time has no killer left. -/
def takeKiller (daemon : TerminalLifecycle) (id : Uuid) : TerminalLifecycle :=
  daemon.changeSession id fun session => { session with killer := false }

/-- The next step of `shutdown_all`. -/
def advance (daemon : TerminalLifecycle) : Option TerminalLifecycle :=
  match daemon.phase with
  | .visiting (id :: rest) =>
    (daemon.session id).map fun session =>
      { daemon with phase := if session.pinned then .storing id rest else .killing id rest }
  | .storing id rest =>
    some { daemon.changeSession id fun session => { session with preserveStatusOnShutdown := true } with
      phase := .killing id rest }
  | .killing id rest => some { daemon.takeKiller id with phase := .visiting rest }
  | .down | .reconciling _ | .serving | .visiting [] => none

/-- The next step of the session's waiter, if there is one. -/
def stepWaiter (daemon : TerminalLifecycle) (id : Uuid) (next : LiveSession → Option Waiter) :
    Option TerminalLifecycle :=
  (daemon.session id >>= next).map fun waiter => daemon.changeSession id fun session => { session with waiter }

def step (daemon : TerminalLifecycle) : LifecycleEvent → Option TerminalLifecycle
  | .start =>
    if daemon.phase = .down then
      let (candidates, rows) := markRunningTerminalsOrphaned daemon.rows
      some { daemon with rows, phase := .reconciling candidates }
    else none
  | .respawn succeeds =>
    match daemon.phase with
    | .reconciling (id :: rest) => some { daemon.respawnSession id succeeds with phase := .reconciling rest }
    | _ => none
  | .serve => if daemon.phase = .reconciling [] then some { daemon with phase := .serving } else none
  | .create id =>
    if daemon.phase.accepts ∧ daemon.row id = none then
      some { daemon with rows := daemon.rows ++ [{ id }], sessions := daemon.sessions ++ [{ id }] }
    else none
  | .launch id =>
    match daemon.session id with
    | some { waiter := .unspawned, .. } =>
      some (daemon.changeSession id fun session => { session with mapped := true, waiter := .waiting })
    | _ => none
  | .setPinned id pinned =>
    if daemon.phase.accepts then
      some { daemon with
        rows := setTerminalPinned daemon.rows id pinned
        mirroring := daemon.mirroring ++ [(id, pinned)] }
    else none
  | .mirrorPinned id pinned =>
    if (id, pinned) ∈ daemon.mirroring then
      let mirrored := { daemon with mirroring := daemon.mirroring.erase (id, pinned) }
      if id ∈ daemon.mappedIds then some (mirrored.changeSession id fun session => { session with pinned })
      else some mirrored
    else none
  | .exit id =>
    match daemon.session id with
    | some { childRunning := true, .. } =>
      some (daemon.changeSession id fun session => { session with childRunning := false })
    | _ => none
  | .close id => if daemon.phase.accepts ∧ id ∈ daemon.mappedIds then some (daemon.takeKiller id) else none
  | .waitReturns id ok =>
    daemon.stepWaiter id fun session =>
      match session.waiter, session.childRunning with
      | .waiting, false => some (.returned (if ok then .exited else .killed))
      | _, _ => none
  | .readFlag id =>
    daemon.stepWaiter id fun session =>
      match session.waiter with
      | .returned status => some (if session.preserveStatusOnShutdown then .preserved else .ending status)
      | _ => none
  | .endSession id persists =>
    match daemon.session id with
    | some { waiter := .ending status, .. } =>
      let ended := daemon.changeSession id fun session => { session with waiter := .ended }
      some { ended with rows := if persists then endTerminalSession daemon.rows id status else daemon.rows }
    | _ => none
  | .remove id =>
    match daemon.session id with
    | some { waiter := .preserved, .. } | some { waiter := .ended, .. } =>
      some (daemon.changeSession id fun session => { session with mapped := false })
    | _ => none
  | .shutdownAll order =>
    if daemon.phase = .serving ∧ order.Perm daemon.mappedIds then some { daemon with phase := .visiting order }
    else none
  | .shutdown => daemon.advance
  | .stop => if daemon.phase = .down then none else some { daemon with sessions := [], phase := .down, mirroring := [] }

/-- From an empty database. -/
def machine : Machine TerminalLifecycle LifecycleEvent where
  start := {}
  step := step

/-- The next start respawns the session, unless that fails. -/
def Candidate (daemon : TerminalLifecycle) (id : Uuid) : Prop :=
  match daemon.phase with
  | .reconciling candidates => id ∈ candidates
  | _ => False

instance (daemon : TerminalLifecycle) (id : Uuid) : Decidable (daemon.Candidate id) := by
  unfold Candidate
  split <;> infer_instance

end TerminalLifecycle
end Wisphive
