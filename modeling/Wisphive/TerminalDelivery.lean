import Wisphive.Terminal

/-! One terminal session on one connection. The catchup of an attach goes straight to the socket,
while chunks go through a bounded channel that every worker of the connection shares. A forwarder
that was aborted runs on until it yields. -/

namespace Wisphive
open Foundation

def connChannelCapacity : Nat := 1024

/-- The frames that a receiver of the session may have unread. -/
def bcastCapacity : Nat := 256

/-- The task that turns frames of the session into chunks. -/
structure Forwarder where
  nextSeq : Nat
  receiver : List TermFrame := []
  lagged : Bool := false
  deriving DecidableEq, Repr

/-- A message in the channel: about this session, or any other. -/
inductive ConnMessage where
  | termChunk (frame : TermFrame)
  | reattach
  | other
  deriving DecidableEq, Repr

/-- What the connection did, in order: the frames that it wrote, and the detaches. -/
inductive ConnEntry where
  | termCatchup (nextSeq : Nat) (screen : List UInt8)
  | relayed (message : ConnMessage)
  | notFound
  | detached
  deriving DecidableEq, Repr

/-- Where the connection's task stands. -/
inductive ConnStage where
  | selecting
  | attaching
  | subscribed (forwarder : Forwarder) (snapshot : List UInt8)
  deriving DecidableEq, Repr

structure TerminalConnection (Parser : Type) where
  session : TerminalSession Parser
  stage : ConnStage := .selecting
  /-- The forwarder of the last attach, unless it was aborted or has ended. -/
  current : Option Forwarder := none
  aborted : List Forwarder := []
  channel : List ConnMessage := []
  written : List ConnEntry := []
  deriving DecidableEq

inductive ConnEvent where
  /-- A step of the session itself. -/
  | session (event : TerminalEvent)
  | termAttach
  /-- The critical section of `attach_with`. -/
  | subscribe
  /-- The catchup is written, and its forwarder starts. -/
  | catchup (seed : List UInt8)
  /-- The session is not found. -/
  | notFound
  | termDetach
  /-- A turn of the current forwarder. -/
  | forward
  /-- A turn of an aborted forwarder that has not yielded yet. -/
  | straggle (position : Nat)
  | cancelled (position : Nat)
  /-- A message of another worker of the connection. -/
  | push
  /-- The connection's task writes the head of the channel. -/
  | drain
  deriving DecidableEq, Repr

namespace Forwarder

/-- A receiver that is full loses its oldest frame. -/
def receive (frame : TermFrame) (forwarder : Forwarder) : Forwarder :=
  if forwarder.receiver.length < bcastCapacity then
    { forwarder with receiver := forwarder.receiver ++ [frame] }
  else { forwarder with receiver := (forwarder.receiver ++ [frame]).tail, lagged := true }

/-- What a turn sends. A stale frame is skipped. -/
def sends (forwarder : Forwarder) : Option ConnMessage :=
  if forwarder.lagged then some .reattach
  else forwarder.receiver.head?.bind fun frame => if frame.seq < forwarder.nextSeq then none else some (.termChunk frame)

/-- The forwarder after a turn, if it goes on. -/
def rest (forwarder : Forwarder) : Option Forwarder :=
  if forwarder.lagged then none else some { forwarder with receiver := forwarder.receiver.tail }

/-- Whether a turn has something to do. -/
def ready (forwarder : Forwarder) : Bool :=
  forwarder.lagged || !forwarder.receiver.isEmpty

end Forwarder

namespace TerminalSession
variable {Parser : Type}

/-- The frames that are numbered and not yet broadcast. -/
def unsent (session : TerminalSession Parser) : List TermFrame :=
  session.reading.toList ++ session.sending

/-- The frame that an event broadcasts. -/
def broadcasts (session : TerminalSession Parser) : TerminalEvent → Option TermFrame
  | .broadcastOutput => session.reading
  | .broadcastSending position => session.sending[position]?
  | .ingestOutput .. | .writeInput .. | .resize .. | .abandonSending _ | .attach | .deliverCatchup .. | .forward _ => none

end TerminalSession

/-- What happens to the session without its viewers. -/
def TerminalEvent.ofSession : TerminalEvent → Bool
  | .ingestOutput .. | .broadcastOutput | .writeInput .. | .resize .. | .broadcastSending _ | .abandonSending _ => true
  | .attach | .deliverCatchup .. | .forward _ => false

/-- `try_send`: the message is dropped when the channel is full. -/
def trySend (channel : List ConnMessage) (message : ConnMessage) : List ConnMessage :=
  if channel.length < connChannelCapacity then channel ++ [message] else channel

namespace ConnStage

/-- The forwarder of an attach that has subscribed. -/
def forwarder? : ConnStage → Option Forwarder
  | .subscribed forwarder _ => some forwarder
  | .selecting | .attaching => none

def receive (frame : TermFrame) : ConnStage → ConnStage
  | .subscribed forwarder snapshot => .subscribed (forwarder.receive frame) snapshot
  | .selecting => .selecting
  | .attaching => .attaching

end ConnStage

namespace TerminalConnection
variable {Parser : Type} (vt : Vt100 Parser)

/-- Every receiver gets a frame. -/
def receive (connection : TerminalConnection Parser) (frame : TermFrame) : TerminalConnection Parser :=
  { connection with
    stage := connection.stage.receive frame
    current := connection.current.map (·.receive frame)
    aborted := connection.aborted.map (·.receive frame) }

/-- The handle of the session's forwarder is taken and aborted. -/
def abort (connection : TerminalConnection Parser) : TerminalConnection Parser :=
  { connection with current := none, aborted := connection.aborted ++ connection.current.toList }

def send (connection : TerminalConnection Parser) (message : Option ConnMessage) : TerminalConnection Parser :=
  { connection with channel := message.elim connection.channel (trySend connection.channel) }

def step (connection : TerminalConnection Parser) : ConnEvent → Option (TerminalConnection Parser)
  | .session event =>
    if event.ofSession then
      (connection.session.step vt event).map fun session =>
        let stepped := { connection with session }
        (connection.session.broadcasts event).elim stepped stepped.receive
    else none
  | .termAttach => if connection.stage = .selecting then some { connection.abort with stage := .attaching } else none
  | .subscribe =>
    if connection.stage = .attaching then
      some { connection with
        stage := .subscribed { nextSeq := connection.session.seq } (vt.contentsFormatted connection.session.parser) }
    else none
  | .catchup seed =>
    match connection.stage with
    | .subscribed forwarder snapshot =>
      some { connection with
        stage := .selecting
        current := some forwarder
        written := connection.written ++ [.termCatchup forwarder.nextSeq (seed ++ snapshot)] }
    | .selecting | .attaching => none
  | .notFound =>
    if connection.stage = .attaching then
      some { connection with stage := .selecting, written := connection.written ++ [.notFound] }
    else none
  | .termDetach =>
    if connection.stage = .selecting then some { connection.abort with written := connection.written ++ [.detached] }
    else none
  | .forward =>
    match connection.current with
    | some forwarder =>
      if forwarder.ready then some { connection.send forwarder.sends with current := forwarder.rest } else none
    | none => none
  | .straggle position =>
    match connection.aborted[position]? with
    | some forwarder =>
      if forwarder.ready then
        some { connection.send forwarder.sends with
          aborted := connection.aborted.take position ++ forwarder.rest.toList ++ connection.aborted.drop (position + 1) }
      else none
    | none => none
  | .cancelled position => some { connection with aborted := connection.aborted.eraseIdx position }
  | .push => some (connection.send (some .other))
  | .drain =>
    match connection.stage, connection.channel with
    | .selecting, message :: rest =>
      some { connection with channel := rest, written := connection.written ++ [.relayed message] }
    | _, _ => none

/-- A connection that opens while the session is live. -/
def machine (parser : Parser) (baseSeq : Nat) : Machine (TerminalConnection Parser) ConnEvent where
  start := { session := (TerminalSession.machine vt parser baseSeq).start }
  step := step vt

end TerminalConnection

namespace ConnMessage

def chunk? : ConnMessage → Option TermFrame
  | .termChunk frame => some frame
  | .reattach | .other => none

end ConnMessage

namespace ConnEntry

def chunk? : ConnEntry → Option TermFrame
  | .relayed message => message.chunk?
  | .termCatchup .. | .notFound | .detached => none

/-- Whether the entry ends what a catchup began. -/
def ends : ConnEntry → Bool
  | .termCatchup .. | .detached => true
  | .relayed _ | .notFound => false

end ConnEntry

/-- The chunks among some entries. -/
def writtenChunks (entries : List ConnEntry) : List TermFrame :=
  entries.filterMap (·.chunk?)

/-- The chunks of the session in the channel. -/
def queuedChunks (channel : List ConnMessage) : List TermFrame :=
  channel.filterMap (·.chunk?)

namespace TerminalConnection
variable {Parser : Type}

/-- What a client is promised from a catchup to the next one or to a detach, and behind a detach. -/
structure Delivers (connection : TerminalConnection Parser) : Prop where
  /-- Every chunk is at or above the boundary. -/
  above : ∀ earlier boundary screen segment later,
    connection.written = earlier ++ .termCatchup boundary screen :: (segment ++ later) →
    (∀ entry ∈ segment, entry.ends = false) → ∀ frame ∈ writtenChunks segment, boundary ≤ frame.seq
  increasing : ∀ earlier boundary screen segment later,
    connection.written = earlier ++ .termCatchup boundary screen :: (segment ++ later) →
    (∀ entry ∈ segment, entry.ends = false) → (writtenChunks segment).Pairwise (·.seq < ·.seq)
  /-- No output in front of a chunk is missing, unless the client is told to attach again. -/
  complete : ∀ earlier boundary screen segment later,
    connection.written = earlier ++ .termCatchup boundary screen :: (segment ++ later) →
    (∀ entry ∈ segment, entry.ends = false) →
    .relayed .reattach ∈ segment ∨ ∀ owed ∈ owedFrom boundary connection.session.log,
      ∀ frame ∈ writtenChunks segment, owed.seq < frame.seq → owed ∈ writtenChunks segment
  /-- Behind a detach there is no chunk before the next catchup. -/
  silent : ∀ earlier segment later, connection.written = earlier ++ .detached :: (segment ++ later) →
    (∀ entry ∈ segment, entry.ends = false) → writtenChunks segment = []

/-- The boundaries of the attach that is being served and of the one that is being made. -/
def boundaries (connection : TerminalConnection Parser) : List Nat :=
  (connection.current.toList ++ connection.stage.forwarder?.toList).map (·.nextSeq)

/-- What keeps the promise: a frame is broadcast ahead of no lower one that a viewer is owed, no
chunk is in the channel when a catchup is written or a detach is processed, no output is dropped
from a full channel, and an aborted forwarder sends no chunk. -/
def Orderly (connection : TerminalConnection Parser) : ConnEvent → Prop
  | .session event => ∀ frame ∈ connection.session.broadcasts event, ∀ boundary ∈ connection.boundaries,
      ∀ other ∈ connection.session.unsent, boundary ≤ other.seq → frame.seq ≤ other.seq
  | .catchup _ | .termDetach => queuedChunks connection.channel = []
  | .forward => ∀ forwarder ∈ connection.current, ∀ message ∈ forwarder.sends, ∀ frame ∈ message.chunk?,
      frame.direction = .output → connection.channel.length < connChannelCapacity
  | .straggle position => ∀ forwarder ∈ connection.aborted[position]?, ∀ message ∈ forwarder.sends, message.chunk? = none
  | .termAttach | .subscribe | .notFound | .cancelled _ | .push | .drain => True

instance (connection : TerminalConnection Parser) : (event : ConnEvent) → Decidable (Orderly connection event)
  | .session event => inferInstanceAs (Decidable (∀ frame ∈ connection.session.broadcasts event, _))
  | .catchup _ | .termDetach => inferInstanceAs (Decidable (queuedChunks connection.channel = []))
  | .forward => inferInstanceAs (Decidable (∀ forwarder ∈ connection.current, _))
  | .straggle position => inferInstanceAs (Decidable (∀ forwarder ∈ connection.aborted[position]?, _))
  | .termAttach | .subscribe | .notFound | .cancelled _ | .push | .drain => .isTrue trivial

end TerminalConnection
end Wisphive
