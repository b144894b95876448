import Wisphive.LineFraming

/-! Lines on a socket are the lines of the stream, however it arrives and however often a call
is dropped. -/

namespace Wisphive.SocketReader
open Foundation EventIngest

/-- A line of the stream without its end. -/
def content (piece : Bytes) : Bytes :=
  if piece.getLast? = some newline then piece.dropLast else piece

def lineText (piece : Bytes) : Option String :=
  decode (stripReturn (content piece))

/-- The lines of a whole stream, up to the first that is too long or no text. -/
def frame : List Bytes → List String × ReadEnd
  | [] => ([], .closed)
  | piece :: pieces =>
    if maxLineBytes < (content piece).length then ([], .tooLong)
    else
      match lineText piece with
      | some text => (text :: (frame pieces).1, (frame pieces).2)
      | none => ([], .invalid)

/-- What is read of a line and has not been given out. -/
structure Partial (buf : Bytes) : Prop where
  plain : newline ∉ buf
  short : buf.length ≤ maxLineBytes

/-- What a call may come to, by what was still to be given out before it. -/
inductive Framed (whole : Bytes) : LineRead × SocketReader × List Arrival → Prop where
  | line {piece : Bytes} {text : String} {reader : SocketReader} {later : List Arrival}
      (first : Lines.pieces newline whole = piece :: Lines.pieces newline (reader.available ++ Arrival.stream later))
      (short : (content piece).length ≤ maxLineBytes) (reads : lineText piece = some text) (empty : reader.buf = []) :
      Framed whole (.line text, reader, later)
  | closed {reader : SocketReader} {later : List Arrival} (done : whole = []) :
      Framed whole (.ended .closed, reader, later)
  | tooLong {piece : Bytes} {pieces : List Bytes} {reader : SocketReader} {later : List Arrival}
      (first : Lines.pieces newline whole = piece :: pieces) (long : maxLineBytes < (content piece).length) :
      Framed whole (.ended .tooLong, reader, later)
  | invalid {piece : Bytes} {pieces : List Bytes} {reader : SocketReader} {later : List Arrival}
      (first : Lines.pieces newline whole = piece :: pieces) (short : (content piece).length ≤ maxLineBytes)
      (reads : lineText piece = none) : Framed whole (.ended .invalid, reader, later)
  | dropped {reader : SocketReader} {later : List Arrival}
      (kept : whole = reader.buf ++ (reader.available ++ Arrival.stream later)) (partially : Partial reader.buf) :
      Framed whole (.dropped, reader, later)

variable {buf available whole piece : Bytes} {reader : SocketReader} {arrivals later : List Arrival} {index : Nat}

theorem content_line : content (buf ++ [newline]) = buf := by
  rw [content, List.getLast?_concat, if_pos rfl, List.dropLast_concat]

theorem content_open (plain : newline ∉ buf) : content buf = buf :=
  if_neg fun last => plain (List.mem_of_getLast? last)

/-- The place of the first line end. -/
theorem split_index (found : available.findIdx? (· = newline) = some index) :
    available = available.take index ++ newline :: available.drop (index + 1) ∧ newline ∉ available.take index ∧
      (available.take index).length = index := by
  obtain ⟨bound, ends, before⟩ := List.findIdx?_eq_some_iff_getElem.mp found
  have here : available[index] = newline := by simpa using ends
  refine ⟨?_, ?_, List.length_take_of_le (Nat.le_of_lt bound)⟩
  · rw [← here, ← List.drop_eq_getElem_cons bound, List.take_append_drop]
  · intro member
    obtain ⟨place, inside, same⟩ := List.getElem_of_mem member
    rw [List.length_take] at inside
    rw [List.getElem_take] at same
    have not_here := before place (Nat.lt_of_lt_of_le inside (Nat.min_le_left ..))
    rw [same] at not_here
    simp at not_here

/-- The end of a line gives the first of the lines. -/
theorem finish_framed (first : Lines.pieces newline whole = piece :: Lines.pieces newline (available ++ Arrival.stream later))
    (same : content piece = buf) (short : buf.length ≤ maxLineBytes) :
    Framed whole (finish buf, { available }, later) := by
  have reads : lineText piece = decode (stripReturn buf) := by rw [lineText, same]
  rw [finish]
  cases text : decode (stripReturn buf) with
  | some text => exact .line first (same ▸ short) (reads.trans text) rfl
  | none => exact .invalid first (same ▸ short) (reads.trans text)

/-- What has no line end begins the first line. -/
theorem pieces_begin (plain : newline ∉ buf) (filled : buf ≠ []) (stream : Bytes) :
    ∃ piece pieces, Lines.pieces newline (buf ++ stream) = piece :: pieces ∧ buf.length ≤ (content piece).length := by
  by_cases ends : newline ∈ stream
  · obtain ⟨before, behind, rfl, first⟩ := List.eq_append_cons_of_mem ends
    have whole : newline ∉ buf ++ before := by
      rw [List.mem_append, not_or]
      exact ⟨plain, first⟩
    refine ⟨_, _, by rw [← List.append_assoc, Lines.pieces_line whole], ?_⟩
    rw [content_line, List.length_append]
    exact Nat.le_add_right ..
  · have whole : newline ∉ buf ++ stream := by
      rw [List.mem_append, not_or]
      exact ⟨plain, ends⟩
    refine ⟨_, [], Lines.pieces_plain whole (List.append_ne_nil_of_left_ne_nil filled _), ?_⟩
    rw [content_open whole, List.length_append]
    exact Nat.le_add_right ..

theorem fill_framed (partially : Partial buf) : Framed (buf ++ Arrival.stream arrivals) (fill buf arrivals) := by
  induction arrivals generalizing buf with
  | nil =>
    have whole : buf ++ Arrival.stream [] = buf := List.append_nil buf
    rw [whole, fill]
    split
    · next empty => exact .closed empty
    · next filled =>
      exact finish_framed (Lines.pieces_plain partially.plain filled) (content_open partially.plain) partially.short
  | cons arrival arrivals ih =>
    have stream : Arrival.stream (arrival :: arrivals) = arrival.bytes ++ Arrival.stream arrivals := List.flatMap_cons
    cases arrival with
    | pending => exact ih partially
    | dropped => exact .dropped rfl partially
    | chunk first rest =>
      rw [fill, stream, Arrival.bytes]
      generalize first :: rest = available
      split
      · next index found =>
        obtain ⟨parts, plain, length⟩ := split_index found
        have whole : newline ∉ buf ++ available.take index := by
          rw [List.mem_append, not_or]
          exact ⟨partially.plain, plain⟩
        have pieces : Lines.pieces newline (buf ++ (available ++ Arrival.stream arrivals)) =
            (buf ++ available.take index ++ [newline]) ::
              Lines.pieces newline (available.drop (index + 1) ++ Arrival.stream arrivals) := by
          rw [← Lines.pieces_line whole, List.append_assoc buf, ← List.cons_append, ← List.append_assoc (available.take index),
            ← parts]
        have size : (buf ++ available.take index).length = buf.length + index := by rw [List.length_append, length]
        split
        · next long => exact .tooLong pieces (by rw [content_line, size]; exact long)
        · next short => exact finish_framed pieces (content_line) (size ▸ Nat.not_lt.mp short)
      · next missing =>
        have none : newline ∉ available := fun member => by
          have other := List.findIdx?_eq_none_iff.mp missing newline member
          simp at other
        have whole : newline ∉ buf ++ available := by
          rw [List.mem_append, not_or]
          exact ⟨partially.plain, none⟩
        rw [← List.append_assoc]
        split
        · next long =>
          rw [← List.length_append] at long
          obtain ⟨piece, pieces, begins, size⟩ :=
            pieces_begin whole (List.ne_nil_of_length_pos (Nat.zero_lt_of_lt long)) (Arrival.stream arrivals)
          exact .tooLong begins (Nat.lt_of_lt_of_le long size)
        · next short => exact ih ⟨whole, by rw [List.length_append]; exact Nat.not_lt.mp short⟩

theorem read_framed (partially : Partial reader.buf) :
    Framed (reader.buf ++ (reader.available ++ Arrival.stream arrivals)) (reader.readCappedLine arrivals) := by
  obtain ⟨available, buf⟩ := reader
  unfold readCappedLine
  cases available with
  | nil => exact fill_framed partially
  | cons first rest =>
    have held := @fill_framed buf (.chunk first rest :: arrivals) partially
    have stream : Arrival.stream (.chunk first rest :: arrivals) = first :: rest ++ Arrival.stream arrivals :=
      List.flatMap_cons
    rw [stream] at held
    exact held

theorem readLines_line {after : SocketReader} {text : String}
    (result : reader.readCappedLine arrivals = (.line text, after, later)) :
    reader.readLines arrivals = (text :: (after.readLines later).1, (after.readLines later).2) := by
  rw [readLines]
  split
  · next same =>
    obtain ⟨⟨⟩, rfl, rfl⟩ := Prod.mk.inj (same.symm.trans result)
    rfl
  · next same => cases same.symm.trans result
  · next same => cases same.symm.trans result

theorem readLines_dropped {after : SocketReader} (result : reader.readCappedLine arrivals = (.dropped, after, later)) :
    reader.readLines arrivals = after.readLines later := by
  rw [readLines]
  split
  · next same => cases same.symm.trans result
  · next same =>
    obtain ⟨_, rfl, rfl⟩ := Prod.mk.inj (same.symm.trans result)
    rfl
  · next same => cases same.symm.trans result

theorem readLines_ended {after : SocketReader} {reason : ReadEnd}
    (result : reader.readCappedLine arrivals = (.ended reason, after, later)) :
    reader.readLines arrivals = ([], reason) := by
  rw [readLines]
  split
  · next same => cases same.symm.trans result
  · next same => cases same.symm.trans result
  · next same =>
    obtain ⟨⟨⟩, rfl, rfl⟩ := Prod.mk.inj (same.symm.trans result)
    rfl

/-- A connection is given the lines of what was still to be given out. -/
theorem readLines_frame (partially : Partial reader.buf) :
    reader.readLines arrivals =
      frame (Lines.pieces newline (reader.buf ++ (reader.available ++ Arrival.stream arrivals))) := by
  induction reader, arrivals using readLines.induct with
  | case1 reader arrivals text after later result _ lines reason rest ih =>
    have framed := @read_framed reader arrivals partially
    rw [result] at framed
    cases framed with
    | line first short reads empty =>
      have emptied : Partial after.buf := by
        rw [empty]
        exact ⟨List.not_mem_nil, Nat.zero_le _⟩
      have later := ih emptied
      rw [empty, List.nil_append] at later
      rw [readLines_line result, first, frame, if_neg (Nat.not_lt.mpr short), reads, later]
  | case2 reader arrivals after later result _ ih =>
    have framed := @read_framed reader arrivals partially
    rw [result] at framed
    cases framed with
    | dropped kept still => rw [readLines_dropped result, ih still, kept]
  | case3 reader arrivals reason after later result =>
    have framed := @read_framed reader arrivals partially
    rw [result] at framed
    rw [readLines_ended result]
    cases framed with
    | closed done => rw [done, Lines.pieces_nil, frame]
    | tooLong first long => rw [first, frame, if_pos long]
    | invalid first short reads => rw [first, frame, if_neg (Nat.not_lt.mpr short), reads]

theorem frame_fails (pieces : List Bytes) :
    (frame pieces).2 ≠ .closed ↔
      ∃ piece ∈ pieces, maxLineBytes < (content piece).length ∨ lineText piece = none := by
  induction pieces with
  | nil => simp [frame]
  | cons piece pieces ih =>
    rw [frame, List.exists_mem_cons_iff]
    by_cases long : maxLineBytes < (content piece).length
    · rw [if_pos long]
      exact iff_of_true (by decide) (.inl (.inl long))
    · rw [if_neg long]
      cases reads : lineText piece with
      | none => exact iff_of_true ReadEnd.noConfusion (.inl (.inr rfl))
      | some text =>
        refine ih.trans ⟨.inr, fun fails => fails.resolve_left ?_⟩
        exact not_or.mpr ⟨long, Option.some_ne_none text⟩

theorem partial_empty : Partial [] :=
  ⟨List.not_mem_nil, Nat.zero_le _⟩

/-- The lines are those of the stream, and no byte is left out of them or in two. Reading fails
where a line is too long, its carriage return counted, or no text. -/
theorem framing_independent (arrivals : List Arrival) :
    readLines {} arrivals = frame (Lines.pieces newline (Arrival.stream arrivals)) ∧
      (Lines.pieces newline (Arrival.stream arrivals)).flatten = Arrival.stream arrivals ∧
        ((readLines {} arrivals).2 ≠ .closed ↔
          ∃ piece ∈ Lines.pieces newline (Arrival.stream arrivals),
            maxLineBytes < (content piece).length ∨ lineText piece = none) := by
  have framed : readLines {} arrivals = frame (Lines.pieces newline (Arrival.stream arrivals)) :=
    @readLines_frame {} arrivals partial_empty
  refine ⟨framed, Lines.flatten_pieces, ?_⟩
  rw [framed]
  exact frame_fails _

/-- A line that is no text fails, however short it is. -/
theorem stray_byte_fails :
    (readLines {} [.chunk 0xFF [newline]]).2 ≠ .closed ∧
      ∀ piece ∈ Lines.pieces newline (Arrival.stream [.chunk 0xFF [newline]]),
        (content piece).length ≤ maxLineBytes := by
  have framed := @readLines_frame {} [.chunk 0xFF [newline]] partial_empty
  rw [framed]
  exact ⟨by decide, by decide⟩

end Wisphive.SocketReader
