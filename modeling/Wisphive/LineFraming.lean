import Wisphive.EventFiles

/-! Lines on a socket as they arrive: a call takes what is there, waits for more, and may be
dropped while it waits. -/

namespace Wisphive
open Foundation EventIngest

/-- What a poll of the stream comes to: some bytes, or nothing yet. A call that waits is polled
again, or it is dropped and the line is called for anew. -/
inductive Arrival where
  | chunk (first : UInt8) (rest : Bytes)
  | pending
  | dropped
  deriving DecidableEq, Repr

namespace Arrival

def bytes : Arrival → Bytes
  | chunk first rest => first :: rest
  | pending | dropped => []

/-- The stream that arrives in pieces. -/
def stream (arrivals : List Arrival) : Bytes :=
  arrivals.flatMap bytes

end Arrival

/-- What the reader holds and has not given out, and the caller's partial line. -/
structure SocketReader where
  available : Bytes := []
  buf : Bytes := []
  deriving DecidableEq, Repr

inductive ReadEnd where
  | closed
  | tooLong
  | invalid
  deriving DecidableEq, Repr

inductive LineRead where
  | line (text : String)
  | ended (reason : ReadEnd)
  | dropped
  deriving DecidableEq, Repr

namespace SocketReader

/-- MAX_LINE_BYTES of the daemon. -/
def maxLineBytes : Nat := 8 * 1024 * 1024

def carriageReturn : UInt8 := 13

def stripReturn (line : Bytes) : Bytes :=
  if line.getLast? = some carriageReturn then line.dropLast else line

/-- The buffer is emptied, also when its bytes are no text. -/
def finish (buf : Bytes) : LineRead :=
  match decode (stripReturn buf) with
  | some text => .line text
  | none => .ended .invalid

/-- The loop over what arrives. A line that is too long fails before it is taken. -/
def fill (buf : Bytes) : List Arrival → LineRead × SocketReader × List Arrival
  | [] => if buf = [] then (.ended .closed, {}, []) else (finish buf, {}, [])
  | .pending :: arrivals => fill buf arrivals
  | .dropped :: arrivals => (.dropped, { buf }, arrivals)
  | .chunk first rest :: arrivals =>
    let available := first :: rest
    match available.findIdx? (· = newline) with
    | some index =>
      if maxLineBytes < buf.length + index then (.ended .tooLong, { available, buf }, arrivals)
      else (finish (buf ++ available.take index), { available := available.drop (index + 1) }, arrivals)
    | none =>
      if maxLineBytes < buf.length + available.length then (.ended .tooLong, { available, buf }, arrivals)
      else fill (buf ++ available) arrivals

/-- What the reader holds comes before what arrives. -/
def readCappedLine (reader : SocketReader) (arrivals : List Arrival) : LineRead × SocketReader × List Arrival :=
  match reader.available with
  | [] => fill reader.buf arrivals
  | first :: rest => fill reader.buf (.chunk first rest :: arrivals)

/-- What there is still to do: bytes to give out and calls to drop. -/
def work (reader : SocketReader) (arrivals : List Arrival) : Nat :=
  reader.available.length + reader.buf.length +
    (arrivals.map fun arrival => arrival.bytes.length + if arrival = .dropped then 1 else 0).sum

theorem fill_work {buf : Bytes} {arrivals later : List Arrival} {outcome : LineRead} {reader : SocketReader}
    (result : fill buf arrivals = (outcome, reader, later)) :
    (∃ reason, outcome = .ended reason) ∨ reader.work later < work { buf } arrivals := by
  induction arrivals generalizing buf with
  | nil =>
    rw [fill] at result
    split at result
    · exact .inl ⟨_, (congrArg Prod.fst result).symm⟩
    · next filled =>
      obtain ⟨_, rfl, rfl⟩ := result
      exact .inr (by simpa [work] using List.length_pos_iff.mpr filled)
  | cons arrival arrivals ih =>
    cases arrival with
    | pending => exact (ih result).imp_right fun less => by simpa [work, Arrival.bytes] using less
    | dropped =>
      obtain ⟨_, rfl, rfl⟩ := result
      exact .inr (by simp [work, Arrival.bytes])
    | chunk first rest =>
      rw [fill] at result
      split at result
      · split at result
        · exact .inl ⟨_, (congrArg Prod.fst result).symm⟩
        · obtain ⟨_, rfl, rfl⟩ := result
          refine .inr ?_
          simp only [work, Arrival.bytes, List.length_drop, List.length_cons, List.length_nil, List.map_cons,
            List.sum_cons]
          omega
      · split at result
        · exact .inl ⟨_, (congrArg Prod.fst result).symm⟩
        · refine (ih result).imp_right fun less => Nat.lt_of_lt_of_eq less ?_
          simp [work, Arrival.bytes]
          omega

theorem read_work {reader after : SocketReader} {arrivals later : List Arrival} {outcome : LineRead}
    (result : reader.readCappedLine arrivals = (outcome, after, later)) :
    (∃ reason, outcome = .ended reason) ∨ after.work later < reader.work arrivals := by
  obtain ⟨available, buf⟩ := reader
  unfold readCappedLine at result
  cases available with
  | nil => exact fill_work result
  | cons first rest =>
    refine (fill_work result).imp_right fun less => Nat.lt_of_lt_of_eq less ?_
    simp [work, Arrival.bytes]
    omega

/-- A connection calls for lines until there are no more, or one fails. A call that was dropped
is made anew. -/
def readLines (reader : SocketReader) (arrivals : List Arrival) : List String × ReadEnd :=
  match result : reader.readCappedLine arrivals with
  | (.line text, after, later) =>
    have := (read_work result).resolve_left (by simp)
    let (lines, reason) := readLines after later
    (text :: lines, reason)
  | (.dropped, after, later) =>
    have := (read_work result).resolve_left (by simp)
    readLines after later
  | (.ended reason, _, _) => ([], reason)
termination_by reader.work arrivals

end SocketReader
end Wisphive
