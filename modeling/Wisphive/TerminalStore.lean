import Mathlib.Data.List.Lattice
import Mathlib.Data.List.Sort
import Wisphive.Foundation.Table
import Wisphive.Terminal

/-! The persistence of a terminal session. The reader numbers an output frame and then
queues it, the batcher inserts queued frames in batches and advances the watermark, and
an attach waits for the watermark. Inputs and resizes are inserted by their own tasks. -/

namespace Wisphive
open Foundation

/-- The primary key of `terminal_events`, within a session. -/
def TermFrame.conflicts (frame other : TermFrame) : Bool :=
  frame.seq = other.seq

/-- How the insert of a batch ends. After an error the transaction may have been
committed all the same. -/
inductive Inserted where
  | ok
  | failed (committed : Bool)
  deriving DecidableEq, Repr

/-- One call of `await_output_persisted`, and whether it returned in time. -/
structure OutputWait where
  target : Nat
  persisted : Option Bool := none
  deriving DecidableEq, Repr

def channelCapacity : Nat := 1024

def batchCap : Nat := 128

/-- `numbered` lists every frame that was numbered, in order, and `lost` the output
frames whose insert failed without an effect. -/
structure TerminalStore where
  seq : Nat
  reading : Option TermFrame := none
  channel : List TermFrame := []
  pending : List TermFrame := []
  outputPersisted : Nat := 0
  rows : List TermFrame := []
  sending : List TermFrame := []
  waits : List OutputWait := []
  numbered : List TermFrame := []
  lost : List TermFrame := []
  deriving DecidableEq

inductive StoreEvent where
  /-- The marker of a respawned session, recorded before its reader starts. -/
  | banner (bytes : List UInt8) (tsUs : Int) (inserted : Inserted)
  | ingestOutput (bytes : List UInt8) (tsUs : Int)
  /-- `blocking_send` of the frame that was ingested. -/
  | queueOutput
  /-- `recv` or `try_recv` of the batcher. -/
  | drain
  | insertBatch (inserted : Inserted)
  /-- The critical section of `write_input` or `resize`. -/
  | numberOther (direction : TerminalDirection) (bytes : List UInt8) (tsUs : Int)
  | insertOther (position : Nat) (inserted : Inserted)
  | await (target : Nat)
  /-- One turn of the waiter's loop. The deadline has passed or not. -/
  | poll (position : Nat) (expired : Bool)
  deriving DecidableEq, Repr

namespace TerminalStore

/-- `insert_terminal_events_batch`: one transaction of `INSERT OR IGNORE`. -/
def insertTerminalEventsBatch (rows batch : List TermFrame) : Inserted → List TermFrame
  | .ok | .failed true => Table.insertAll TermFrame.conflicts rows batch
  | .failed false => rows

/-- The frames of a batch that an insert loses. -/
def lostBy (batch : List TermFrame) : Inserted → List TermFrame
  | .ok | .failed true => []
  | .failed false => batch

/-- `seq + 1` of the newest output frame of a batch that was inserted. -/
def notePersisted (watermark : Nat) (batch : List TermFrame) : Nat :=
  match ((batch.filter (·.direction = .output)).map (·.seq)).max? with
  | some newest => max watermark (newest + 1)
  | none => watermark

/-- `next_seq`, for a frame of any direction. -/
def number (store : TerminalStore) (direction : TerminalDirection) (bytes : List UInt8) (tsUs : Int) : TermFrame :=
  { seq := store.seq, tsUs, direction, bytes }

/-- What `await_output_persisted` finds at a load of the watermark. -/
def passes (store : TerminalStore) (target : Nat) : Bool :=
  target ≤ store.outputPersisted

def await (store : TerminalStore) (target : Nat) : TerminalStore :=
  { store with
    waits := store.waits ++
      [{ target, persisted := if target = 0 || store.passes target then some true else none }] }

/-- The watermark is looked at before the deadline. -/
def poll (store : TerminalStore) (expired : Bool) (wait : OutputWait) : OutputWait :=
  if wait.persisted.isSome then wait
  else if store.passes wait.target then { wait with persisted := some true }
  else if expired then { wait with persisted := some false }
  else wait

def step (store : TerminalStore) : StoreEvent → Option TerminalStore
  | .banner bytes tsUs inserted =>
    if store.numbered ≠ [] then none
    else
      let frame := store.number .output bytes tsUs
      some { store with
        seq := store.seq + 1
        numbered := [frame]
        rows := insertTerminalEventsBatch store.rows [frame] inserted
        lost := lostBy [frame] inserted }
  | .ingestOutput bytes tsUs =>
    if store.reading.isSome then none
    else
      let frame := store.number .output bytes tsUs
      some { store with seq := store.seq + 1, numbered := store.numbered ++ [frame], reading := some frame }
  | .queueOutput =>
    match store.reading with
    | some frame =>
      if store.channel.length < channelCapacity then
        some { store with channel := store.channel ++ [frame], reading := none }
      else none
    | none => none
  | .drain =>
    match store.channel with
    | frame :: rest =>
      if store.pending.length < batchCap then some { store with channel := rest, pending := store.pending ++ [frame] }
      else none
    | [] => none
  | .insertBatch inserted =>
    if store.pending = [] then none
    else
      some { store with
        pending := []
        rows := insertTerminalEventsBatch store.rows store.pending inserted
        lost := store.lost ++ lostBy store.pending inserted
        outputPersisted :=
          if inserted = .ok then notePersisted store.outputPersisted store.pending else store.outputPersisted }
  | .numberOther direction bytes tsUs =>
    if direction = .output then none
    else
      let frame := store.number direction bytes tsUs
      some { store with
        seq := store.seq + 1, numbered := store.numbered ++ [frame], sending := store.sending ++ [frame] }
  | .insertOther position inserted =>
    store.sending[position]?.map fun frame =>
      { store with
        sending := store.sending.eraseIdx position
        rows := insertTerminalEventsBatch store.rows [frame] inserted }
  | .await target => some (store.await target)
  | .poll position expired =>
    store.waits[position]?.map fun wait => { store with waits := store.waits.set position (store.poll expired wait) }

/-- `max_terminal_event_seq`, and the number after it. -/
def baseSeq (rows : List TermFrame) : Nat :=
  match (rows.map (·.seq)).max? with
  | some newest => newest + 1
  | none => 0

/-- A session over the rows that earlier epochs left. -/
def machine (earlier : List TermFrame) : Machine TerminalStore StoreEvent where
  start := { seq := baseSeq earlier, rows := earlier }
  step := step

/-- No batch of output frames is stored after output frames were lost. -/
def Meets (store : TerminalStore) : StoreEvent → Prop
  | .insertBatch .ok => store.lost = []
  | _ => True

instance (store : TerminalStore) (event : StoreEvent) : Decidable (store.Meets event) := by
  unfold Meets
  split
  · infer_instance
  · exact .isTrue trivial

/-- Whoever waited and returned in time finds every output frame below its target. -/
def Honest (store : TerminalStore) : Prop :=
  ∀ wait ∈ store.waits, wait.persisted = some true → ∀ frame ∈ store.numbered,
    frame.direction = .output → frame.seq < wait.target → frame ∈ store.rows

end TerminalStore

/-! ### One terminal id over the daemons that run it -/

namespace TerminalStore

/-- The frames that an event hands to `insert_terminal_events_batch`. -/
def offered (store : TerminalStore) : StoreEvent → List TermFrame
  | .banner bytes tsUs _ => [store.number .output bytes tsUs]
  | .insertBatch _ => store.pending
  | .insertOther position _ => store.sending[position]?.toList
  | _ => []

end TerminalStore

namespace StoreEvent

/-- The transaction of the event takes effect. -/
def commits : StoreEvent → Bool
  | .banner _ _ inserted | .insertBatch inserted | .insertOther _ inserted => inserted ≠ .failed false
  | _ => true

end StoreEvent

/-- `earlier` are the rows that the epoch found, and `given` counts the numbers that all
epochs took. -/
structure TerminalEpochs where
  store : TerminalStore
  live : Bool := true
  earlier : List TermFrame := []
  given : Nat := 0
  deriving DecidableEq

inductive EpochEvent where
  /-- An event of the live epoch. -/
  | append (event : StoreEvent)
  /-- The daemon ends, and with it what was not stored. -/
  | crash
  | respawn
  /-- `prune_terminal_events`, where the session has ended long enough ago. -/
  | prune
  deriving DecidableEq, Repr

namespace TerminalEpochs

def step (epochs : TerminalEpochs) : EpochEvent → Option TerminalEpochs
  | .append event =>
    if epochs.live then
      (epochs.store.step event).map fun store =>
        { epochs with store, given := epochs.given + (store.seq - epochs.store.seq) }
    else none
  | .crash => if epochs.live then some { epochs with live := false } else none
  | .respawn =>
    if epochs.live then none
    else
      some { epochs with
        store := (TerminalStore.machine epochs.store.rows).start, live := true, earlier := epochs.store.rows }
  | .prune => some { epochs with store := { epochs.store with rows := [] } }

/-- `create` numbers from zero. -/
def machine : Machine TerminalEpochs EpochEvent where
  start := { store := { seq := 0 } }
  step := step

/-- No number of the epoch is a stored one, and nothing that a transaction inserts is
ignored. -/
structure Apart (epochs : TerminalEpochs) : Prop where
  above : ∀ frame ∈ epochs.store.numbered, ∀ row ∈ epochs.earlier, row.seq < frame.seq
  next : ∀ row ∈ epochs.store.rows, row.seq < epochs.store.seq
  inserted : ∀ event after, epochs.step (.append event) = some after → after.store.rows =
    epochs.store.rows ++ if event.commits then epochs.store.offered event else []

end TerminalEpochs

/-! ### The tail of the output that is read back -/

/-- A row of `terminal_events`. -/
structure EventRow where
  sessionId : Uuid
  seq : Int64
  tsUs : Int
  direction : TerminalDirection
  payload : List UInt8
  deriving DecidableEq, Repr

/-- The rows, with the primary key of the table. -/
structure TerminalEvents where
  rows : List EventRow
  keyed : rows.Pairwise fun row other => ¬ (row.sessionId = other.sessionId ∧ row.seq = other.seq)
  deriving DecidableEq

namespace TerminalEvents

def i64Max : Int64 := 9223372036854775807

/-- `None` and what does not fit are the largest number. -/
def bound (beforeSeq : Option UInt64) : Int64 :=
  match beforeSeq with
  | some seq => if seq ≤ 9223372036854775807 then seq.toInt64 else i64Max
  | none => i64Max

/-- The row limit of the query. -/
def tailLimit : Nat := 512

/-- The rows of the query, newest first. -/
def tailRows (events : TerminalEvents) (id : Uuid) (beforeSeq : Option UInt64) : List EventRow :=
  ((events.rows.filter fun row =>
    row.sessionId = id ∧ row.direction = .output ∧ row.seq < bound beforeSeq).insertionSort
      fun row other => other.seq ≤ row.seq).take tailLimit

/-- The newest frame is admitted whatever its size, an older one where it does not exceed the cap. -/
def keepTail (maxBytes total : Nat) (kept : List (List UInt8)) : List (List UInt8) → List (List UInt8)
  | [] => kept
  | payload :: rest =>
    if kept ≠ [] ∧ maxBytes < total + payload.length then kept
    else if maxBytes ≤ total + payload.length then kept ++ [payload]
    else keepTail maxBytes (total + payload.length) (kept ++ [payload]) rest

def tailTerminalOutput (events : TerminalEvents) (id : Uuid) (maxBytes : Nat) (beforeSeq : Option UInt64) :
    List UInt8 :=
  (keepTail maxBytes 0 [] ((events.tailRows id beforeSeq).map (·.payload))).reverse.flatten

/-! ### What is asked for -/

/-- The sequence number is below the one that is given, if any. -/
def Below (beforeSeq : Option UInt64) (row : EventRow) : Prop :=
  ∀ seq ∈ beforeSeq, row.seq.toInt < seq.toNat

instance (beforeSeq : Option UInt64) (row : EventRow) : Decidable (Below beforeSeq row) :=
  Option.decidableForallMem _

/-- The output frames of a session, in the order of their sequence numbers. -/
def outputBelow (events : TerminalEvents) (id : Uuid) (beforeSeq : Option UInt64) : List EventRow :=
  (events.rows.filter fun row =>
    row.sessionId = id ∧ row.direction = .output ∧ Below beforeSeq row).insertionSort fun row other => row.seq ≤ other.seq

/-- Frames within the row limit and the cap, or at most one. -/
def Fits (maxBytes : Nat) (frames : List EventRow) : Prop :=
  frames.length ≤ 1 ∨ frames.length ≤ tailLimit ∧ (frames.map (·.payload.length)).sum ≤ maxBytes

instance (maxBytes : Nat) (frames : List EventRow) : Decidable (Fits maxBytes frames) :=
  inferInstanceAs (Decidable (_ ∨ _))

/-- The bytes of the longest end of the frames that fits. -/
def IsTail (maxBytes : Nat) (frames : List EventRow) (bytes : List UInt8) : Prop :=
  ∃ kept, kept <:+ frames ∧ Fits maxBytes kept ∧
    (∀ other, other <:+ frames → Fits maxBytes other → other.length ≤ kept.length) ∧ bytes = kept.flatMap (·.payload)

/-- The output frames that are asked for are below the largest number. -/
def Bounded (events : TerminalEvents) (id : Uuid) (beforeSeq : Option UInt64) : Prop :=
  ∀ row ∈ events.rows, row.sessionId = id → row.direction = .output → Below beforeSeq row → row.seq ≠ i64Max

/-- The same events with other payloads. -/
def withPayloads (events : TerminalEvents) (payload : EventRow → List UInt8) : TerminalEvents where
  rows := events.rows.map fun row => { row with payload := payload row }
  keyed := events.keyed.map _ fun _ _ differ => differ

end TerminalEvents

end Wisphive
