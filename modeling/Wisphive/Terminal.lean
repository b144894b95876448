import Wisphive.Foundation.Trace
import Wisphive.Types

/-! A live terminal session. The parser lock is also the sequence lock: a frame is
numbered under it and broadcast later, and an attach reads the boundary and the
snapshot and subscribes under it. -/

namespace Wisphive
open Foundation

inductive TerminalDirection where
  | input
  | output
  | resize
  deriving DecidableEq, Repr

structure TermFrame where
  seq : Nat
  tsUs : Int
  direction : TerminalDirection
  bytes : List UInt8
  deriving DecidableEq, Repr

/-- What the session asks of the terminal emulator. -/
structure Vt100 (Parser : Type) where
  process : Parser → List UInt8 → Parser
  setSize : Parser → (rows cols : Nat) → Parser
  contentsFormatted : Parser → List UInt8

def maxCols : Nat := 500

def maxRows : Nat := 200

/-- What a numbered frame did to the screen. -/
inductive ScreenChange where
  | process (bytes : List UInt8)
  | setSize (rows cols : Nat)
  | unchanged
  deriving DecidableEq, Repr

/-- One attachment: what `attach_with` captured under the lock, the frames that
its receiver holds, and what its connection was given. -/
structure Attachment where
  nextSeq : Nat
  snapshot : List UInt8
  settleTarget : Nat
  receiver : List TermFrame := []
  catchup : Option (List UInt8) := none
  delivered : List TermFrame := []
  deriving DecidableEq, Repr

/-- The reader is one thread, so at most one output frame is numbered and not yet
broadcast. Inputs and resizes come from any number of tasks. The log lists every
numbered frame with its effect on the screen. -/
structure TerminalSession (Parser : Type) where
  parser : Parser
  seq : Nat
  outputHighWater : Nat := 0
  reading : Option TermFrame := none
  sending : List TermFrame := []
  attachments : List Attachment := []
  log : List (TermFrame × ScreenChange) := []
  deriving DecidableEq

inductive TerminalEvent where
  /-- The critical section of `ingest_output`. -/
  | ingestOutput (bytes : List UInt8) (tsUs : Int)
  | broadcastOutput
  /-- The critical section of `write_input`. -/
  | writeInput (bytes : List UInt8) (tsUs : Int)
  /-- The critical section of `resize`. -/
  | resize (cols rows : Nat) (tsUs : Int)
  | broadcastSending (position : Nat)
  /-- A task is cancelled between its critical section and its broadcast. -/
  | abandonSending (position : Nat)
  /-- The critical section of `attach_with`. -/
  | attach
  /-- The catchup is delivered with the scrollback seed that was read meanwhile. -/
  | deliverCatchup (position : Nat) (seed : List UInt8)
  /-- One turn of the forwarder's loop. -/
  | forward (position : Nat)
  deriving DecidableEq, Repr

namespace Attachment

/-- A receiver that does not lag holds every frame broadcast since it subscribed. -/
def receive (frame : TermFrame) (attachment : Attachment) : Attachment :=
  { attachment with receiver := attachment.receiver ++ [frame] }

/-- A stale frame is skipped. The connection channel never fills. -/
def forward (attachment : Attachment) : Option Attachment :=
  if attachment.catchup.isNone then none
  else
    match attachment.receiver with
    | [] => none
    | frame :: rest =>
      if frame.seq < attachment.nextSeq then some { attachment with receiver := rest }
      else some { attachment with receiver := rest, delivered := attachment.delivered ++ [frame] }

/-- `catchup_message`: the seed, and then the repaint of the screen. -/
def deliverCatchup (seed : List UInt8) (attachment : Attachment) : Option Attachment :=
  if attachment.catchup.isSome then none
  else some { attachment with catchup := some (seed ++ attachment.snapshot) }

end Attachment

/-- `format!("{cols},{rows}")`. -/
def resizePayload (cols rows : Nat) : List UInt8 :=
  (s!"{cols},{rows}").toUTF8.toList

namespace TerminalSession
variable {Parser : Type} (vt : Vt100 Parser)

/-- `next_seq`, and the frame that takes the number. -/
def number (session : TerminalSession Parser) (tsUs : Int) (direction : TerminalDirection)
    (bytes : List UInt8) : TermFrame :=
  { seq := session.seq, tsUs, direction, bytes }

def numbered (session : TerminalSession Parser) (frame : TermFrame) (change : ScreenChange) :
    TerminalSession Parser :=
  { session with seq := session.seq + 1, log := session.log ++ [(frame, change)] }

def broadcast (session : TerminalSession Parser) (frame : TermFrame) : TerminalSession Parser :=
  { session with attachments := session.attachments.map (·.receive frame) }

/-- Replace one attachment, if the change is possible. -/
def atAttachment (session : TerminalSession Parser) (position : Nat)
    (change : Attachment → Option Attachment) : Option (TerminalSession Parser) := do
  let attachment ← session.attachments[position]?
  let changed ← change attachment
  some { session with attachments := session.attachments.set position changed }

def step (session : TerminalSession Parser) : TerminalEvent → Option (TerminalSession Parser)
  | .ingestOutput bytes tsUs =>
    if session.reading.isSome then none
    else
      let frame := session.number tsUs .output bytes
      some { session.numbered frame (.process bytes) with
        parser := vt.process session.parser bytes
        outputHighWater := session.seq + 1
        reading := some frame }
  | .broadcastOutput =>
    session.reading.map fun frame => { session.broadcast frame with reading := none }
  | .writeInput bytes tsUs =>
    let frame := session.number tsUs .input bytes
    some { session.numbered frame .unchanged with sending := session.sending ++ [frame] }
  | .resize cols rows tsUs =>
    if cols = 0 ∨ rows = 0 ∨ cols > maxCols ∨ rows > maxRows then none
    else
      let frame := session.number tsUs .resize (resizePayload cols rows)
      some { session.numbered frame (.setSize rows cols) with
        parser := vt.setSize session.parser rows cols
        sending := session.sending ++ [frame] }
  | .broadcastSending position =>
    session.sending[position]?.map fun frame =>
      { session.broadcast frame with sending := session.sending.eraseIdx position }
  | .abandonSending position =>
    session.sending[position]?.map fun _ => { session with sending := session.sending.eraseIdx position }
  | .attach =>
    some { session with
      attachments := session.attachments ++
        [{ nextSeq := session.seq, snapshot := vt.contentsFormatted session.parser
           settleTarget := session.outputHighWater }] }
  | .deliverCatchup position seed => session.atAttachment position (·.deliverCatchup seed)
  | .forward position => session.atAttachment position (·.forward)

/-- A session of a first or a respawned epoch: the parser may be seeded, and the
numbers continue where the earlier epoch stopped. -/
def machine (parser : Parser) (baseSeq : Nat) : Machine (TerminalSession Parser) TerminalEvent where
  start := { parser, seq := baseSeq }
  step := step vt

end TerminalSession

/-- The output frames of a list, in its order. -/
def outputFrames (frames : List TermFrame) : List TermFrame :=
  frames.filter (·.direction = .output)

/-- The screen after a list of changes. -/
def replayScreen {Parser : Type} (vt : Vt100 Parser) (parser : Parser) : List ScreenChange → Parser
  | [] => parser
  | .process bytes :: rest => replayScreen vt (vt.process parser bytes) rest
  | .setSize rows cols :: rest => replayScreen vt (vt.setSize parser rows cols) rest
  | .unchanged :: rest => replayScreen vt parser rest

/-- The changes of the frames below a boundary. -/
def coveredBelow (boundary : Nat) (log : List (TermFrame × ScreenChange)) : List ScreenChange :=
  (log.filter (·.1.seq < boundary)).map (·.2)

/-- The output frames at or above a boundary, in sequence order. -/
def owedFrom (boundary : Nat) (log : List (TermFrame × ScreenChange)) : List TermFrame :=
  outputFrames ((log.map (·.1)).filter (boundary ≤ ·.seq))

end Wisphive
