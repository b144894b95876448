import Mathlib.Data.List.Nodup
import Mathlib.Data.List.Perm.Basic
import Wisphive.TerminalDelivery

/-! When chunks arrive in order and without a gap. What was written since the catchup, what is in
the channel and what the forwarder still has are one stream, in which chunks only move on. -/

namespace Wisphive
open Foundation

variable {Parser : Type} {vt : Vt100 Parser}

namespace TerminalSession
variable {session after : TerminalSession Parser} {event : TerminalEvent}

/-- Numbers are given out once, in order. -/
structure Numbered (session : TerminalSession Parser) : Prop where
  unsent : ∀ frame ∈ session.unsent, frame.seq < session.seq
  apart : (session.unsent.map (·.seq)).Nodup
  logged : ∀ entry ∈ session.log, entry.1.seq < session.seq

/-- What the session's own steps do: number a frame, broadcast one, or give one up. -/
inductive Moves (session : TerminalSession Parser) (event : TerminalEvent) (after : TerminalSession Parser) : Prop where
  | numbers (frame : TermFrame) (change : ScreenChange) (silent : session.broadcasts event = none)
      (number : frame.seq = session.seq) (next : after.seq = session.seq + 1)
      (log : after.log = session.log ++ [(frame, change)]) (held : after.unsent.Perm (frame :: session.unsent))
      (output : frame.direction = .output → after.reading = some frame)
      (kept : ∀ reading ∈ session.reading, after.reading = some reading)
  | broadcasts (frame : TermFrame) (sent : session.broadcasts event = some frame) (same : after.seq = session.seq)
      (log : after.log = session.log) (held : session.unsent.Perm (frame :: after.unsent))
      (kept : ∀ reading ∈ session.reading, reading = frame ∨ after.reading = some reading)
  | abandons (silent : session.broadcasts event = none) (same : after.seq = session.seq) (log : after.log = session.log)
      (held : after.unsent.Sublist session.unsent) (kept : after.reading = session.reading)

theorem perm_eraseIdx {frames : List TermFrame} {position : Nat} {frame : TermFrame}
    (found : frames[position]? = some frame) : frames.Perm (frame :: frames.eraseIdx position) := by
  obtain ⟨inside, rfl⟩ := List.getElem?_eq_some_iff.mp found
  exact (List.getElem_cons_eraseIdx_perm inside).symm

theorem moves_of_step (own : event.ofSession = true) (taken : session.step vt event = some after) :
    Moves session event after := by
  cases event with
  | ingestOutput bytes tsUs =>
    simp only [TerminalSession.step] at taken
    split at taken
    · cases taken
    · next free =>
      cases taken
      have idle : session.reading = none := Option.not_isSome_iff_eq_none.mp free
      refine .numbers (session.number tsUs .output bytes) (.process bytes) rfl rfl rfl rfl ?_ (fun _ => rfl) ?_
      · simp only [TerminalSession.unsent, idle]
        exact List.Perm.refl _
      · rw [idle]
        exact fun _ impossible => (nomatch impossible)
  | broadcastOutput =>
    obtain ⟨frame, held, rfl⟩ := Option.map_eq_some_iff.mp taken
    refine .broadcasts frame held rfl rfl ?_ fun reading there => .inl ?_
    · simp only [TerminalSession.unsent, held]
      exact List.Perm.refl _
    · rw [held] at there
      exact (Option.some.inj there).symm
  | writeInput bytes tsUs =>
    cases taken
    refine .numbers (session.number tsUs .input bytes) .unchanged rfl rfl rfl rfl ?_ (fun impossible => (nomatch impossible))
      fun reading there => there
    simp only [TerminalSession.unsent, ← List.append_assoc]
    exact List.perm_append_singleton _ _
  | resize cols rows tsUs =>
    simp only [TerminalSession.step] at taken
    split at taken
    · cases taken
    · cases taken
      refine .numbers (session.number tsUs .resize (resizePayload cols rows)) (.setSize rows cols) rfl rfl rfl rfl ?_
        (fun impossible => (nomatch impossible)) fun reading there => there
      simp only [TerminalSession.unsent, ← List.append_assoc]
      exact List.perm_append_singleton _ _
  | broadcastSending position =>
    obtain ⟨frame, found, rfl⟩ := Option.map_eq_some_iff.mp taken
    refine .broadcasts frame found rfl rfl ?_ fun reading there => .inr there
    simp only [TerminalSession.unsent]
    exact ((perm_eraseIdx found).append_left _).trans List.perm_middle
  | abandonSending position =>
    obtain ⟨frame, _, rfl⟩ := Option.map_eq_some_iff.mp taken
    refine .abandons rfl rfl rfl ?_ rfl
    exact List.Sublist.append_left (List.eraseIdx_sublist ..) _
  | attach | deliverCatchup | forward => cases own

theorem Numbered.step (numbered : Numbered session) (moves : Moves session event after) : Numbered after := by
  cases moves with
  | numbers frame change _ number next log held _ _ =>
    refine ⟨fun other member => ?_, ?_, fun entry member => ?_⟩
    · rw [next]
      rcases List.mem_cons.mp (held.mem_iff.mp member) with rfl | older
      · omega
      · have below := numbered.unsent other older
        omega
    · refine (held.map _).nodup_iff.mpr (List.nodup_cons.mpr ⟨fun there => ?_, numbered.apart⟩)
      obtain ⟨other, member, same⟩ := List.mem_map.mp there
      have below := numbered.unsent other member
      simp only at same
      omega
    · rw [log] at member
      rw [next]
      rcases List.mem_append.mp member with older | new
      · have below := numbered.logged entry older
        omega
      · rw [List.mem_singleton.mp new]
        simp only
        omega
  | broadcasts frame _ same log held _ =>
    have inside : ∀ other ∈ after.unsent, other ∈ session.unsent := fun other member =>
      held.mem_iff.mpr (List.mem_cons_of_mem _ member)
    refine ⟨fun other member => same ▸ numbered.unsent other (inside other member), ?_, ?_⟩
    · exact (List.nodup_cons.mp ((held.map _).nodup_iff.mp numbered.apart)).2
    · rw [log, same]
      exact numbered.logged
  | abandons _ same log held _ =>
    refine ⟨fun other member => same ▸ numbered.unsent other (held.subset member), numbered.apart.sublist (held.map _), ?_⟩
    rw [log, same]
    exact numbered.logged

end TerminalSession

/-! ### Streams -/

/-- Frames from a boundary on, in order and without a gap in front of any. -/
structure Stream (session : TerminalSession Parser) (boundary : Nat) (frames : List TermFrame) : Prop where
  above : ∀ frame ∈ frames, boundary ≤ frame.seq
  increasing : frames.Pairwise (·.seq < ·.seq)
  below : ∀ frame ∈ frames, frame.seq < session.seq
  complete : ∀ owed ∈ owedFrom boundary session.log, ∀ frame ∈ frames, owed.seq < frame.seq → owed ∈ frames

/-- A stream whose end is the newest of what was broadcast. -/
structure LiveStream (session : TerminalSession Parser) (boundary : Nat) (frames : List TermFrame) : Prop
    extends Stream session boundary frames where
  within : boundary ≤ session.seq
  ahead : ∀ other ∈ session.unsent, boundary ≤ other.seq → ∀ frame ∈ frames, frame.seq < other.seq
  whole : ∀ owed ∈ owedFrom boundary session.log, owed ∈ frames ∨ session.reading = some owed

namespace Stream
variable {session after : TerminalSession Parser} {event : TerminalEvent} {boundary : Nat} {frames later : List TermFrame}

theorem mem_owedFrom {owed : TermFrame} {log : List (TermFrame × ScreenChange)} :
    owed ∈ owedFrom boundary log ↔ (∃ change, (owed, change) ∈ log) ∧ boundary ≤ owed.seq ∧ owed.direction = .output := by
  simp only [owedFrom, outputFrames, List.mem_filter, List.mem_map, decide_eq_true_eq, Prod.exists, exists_and_right,
    exists_eq_right, and_assoc]

/-- The first part of a stream is one. -/
theorem front (stream : Stream session boundary (frames ++ later)) : Stream session boundary frames where
  above frame member := stream.above frame (List.mem_append_left _ member)
  increasing := (List.pairwise_append.mp stream.increasing).1
  below frame member := stream.below frame (List.mem_append_left _ member)
  complete owed listed frame member lower := by
    rcases List.mem_append.mp (stream.complete owed listed frame (List.mem_append_left _ member) lower) with there | behind
    · exact there
    · have order := (List.pairwise_append.mp stream.increasing).2.2 frame member owed behind
      omega

/-- A frame that is no output may be left out. -/
theorem without {frame : TermFrame} (stream : Stream session boundary (frames ++ frame :: later))
    (quiet : frame.direction ≠ .output) : Stream session boundary (frames ++ later) := by
  have part : (frames ++ later).Sublist (frames ++ frame :: later) := List.Sublist.append_left (List.sublist_cons_self ..) _
  refine ⟨fun other member => stream.above other (part.subset member), stream.increasing.sublist part,
    fun other member => stream.below other (part.subset member), fun owed listed other member lower => ?_⟩
  rcases List.mem_append.mp (stream.complete owed listed other (part.subset member) lower) with first | second
  · exact List.mem_append_left _ first
  · rcases List.mem_cons.mp second with rfl | rest
    · exact (quiet (mem_owedFrom.mp listed).2.2).elim
    · exact List.mem_append_right _ rest

/-- What the session does goes past a stream that no longer grows. -/
theorem step (stream : Stream session boundary frames) (moves : session.Moves event after) :
    Stream after boundary frames := by
  cases moves with
  | numbers frame change _ number next log _ _ _ =>
    refine ⟨stream.above, stream.increasing, fun other member => ?_, fun owed listed other member lower => ?_⟩
    · have below := stream.below other member
      omega
    · obtain ⟨⟨effect, entry⟩, high, output⟩ := mem_owedFrom.mp listed
      rw [log] at entry
      rcases List.mem_append.mp entry with older | new
      · exact stream.complete owed (mem_owedFrom.mpr ⟨⟨effect, older⟩, high, output⟩) other member lower
      · have below := stream.below other member
        have same : owed = frame := congrArg Prod.fst (List.mem_singleton.mp new)
        rw [same] at lower
        omega
  | broadcasts frame _ same log _ _ =>
    exact ⟨stream.above, stream.increasing, fun other member => same ▸ stream.below other member, by rw [log]; exact stream.complete⟩
  | abandons _ same log _ _ =>
    exact ⟨stream.above, stream.increasing, fun other member => same ▸ stream.below other member, by rw [log]; exact stream.complete⟩

end Stream

namespace LiveStream
variable {session after : TerminalSession Parser} {event : TerminalEvent} {boundary : Nat} {frames later : List TermFrame}

/-- Nothing is owed at the moment of the subscription. -/
theorem start (numbered : session.Numbered) : LiveStream session session.seq [] := by
  have nothing : ∀ owed, owed ∉ owedFrom session.seq session.log := by
    intro owed listed
    obtain ⟨⟨change, entry⟩, high, _⟩ := Stream.mem_owedFrom.mp listed
    have below := numbered.logged _ entry
    simp only at below
    omega
  exact ⟨⟨fun _ impossible => (nomatch impossible), List.Pairwise.nil, fun _ impossible => (nomatch impossible),
    fun _ _ _ impossible => (nomatch impossible)⟩, Nat.le_refl _, fun _ _ _ _ impossible => (nomatch impossible),
    fun owed listed => (nothing owed listed).elim⟩

/-- A numbered or abandoned frame is not in the stream. -/
theorem quiet (live : LiveStream session boundary frames) (moves : session.Moves event after)
    (silent : session.broadcasts event = none) : LiveStream after boundary frames := by
  refine { toStream := live.toStream.step moves, within := ?_, ahead := ?_, whole := ?_ }
  · cases moves with
    | numbers frame change _ number next => have := live.within; omega
    | broadcasts frame sent => rw [silent] at sent; cases sent
    | abandons _ same => exact same ▸ live.within
  · intro other member high frame there
    cases moves with
    | numbers new change _ number next log held =>
      rcases List.mem_cons.mp (held.mem_iff.mp member) with rfl | older
      · have below := live.below frame there
        omega
      · exact live.ahead other older high frame there
    | broadcasts sent broadcast => rw [silent] at broadcast; cases broadcast
    | abandons _ same log held => exact live.ahead other (held.subset member) high frame there
  · intro owed listed
    cases moves with
    | numbers new change _ number next log held output kept =>
      obtain ⟨⟨effect, entry⟩, high, outputs⟩ := Stream.mem_owedFrom.mp listed
      rw [log] at entry
      rcases List.mem_append.mp entry with older | fresh
      · exact (live.whole owed (Stream.mem_owedFrom.mpr ⟨⟨effect, older⟩, high, outputs⟩)).imp_right (kept owed)
      · have same : owed = new := congrArg Prod.fst (List.mem_singleton.mp fresh)
        exact .inr (same ▸ output (same ▸ outputs))
    | broadcasts sent broadcast => rw [silent] at broadcast; cases broadcast
    | abandons _ same log held kept =>
      rw [log] at listed
      rw [kept]
      exact live.whole owed listed

/-- A broadcast frame at or above the boundary goes to the end of the stream. -/
theorem grow (live : LiveStream session boundary frames) (moves : session.Moves event after) (numbered : session.Numbered)
    {frame : TermFrame} (sent : session.broadcasts event = some frame)
    (first : ∀ other ∈ session.unsent, boundary ≤ other.seq → frame.seq ≤ other.seq) :
    LiveStream after boundary (frames ++ [frame].filter (boundary ≤ ·.seq)) := by
  cases moves with
  | numbers _ _ silent => rw [silent] at sent; cases sent
  | abandons silent => rw [silent] at sent; cases sent
  | broadcasts other broadcast same log held kept =>
    obtain rfl : other = frame := Option.some.inj (broadcast.symm.trans sent)
    have unsent : other ∈ session.unsent := held.mem_iff.mpr (List.mem_cons_self ..)
    have rest : ∀ left ∈ after.unsent, left ∈ session.unsent := fun left member =>
      held.mem_iff.mpr (List.mem_cons_of_mem _ member)
    have differ : ∀ left ∈ after.unsent, left.seq ≠ other.seq := by
      intro left member equal
      have apart := (List.nodup_cons.mp ((held.map (·.seq)).nodup_iff.mp numbered.apart)).1
      exact apart (List.mem_map.mpr ⟨left, member, equal⟩)
    have new {found : TermFrame} : found ∈ [other].filter (boundary ≤ ·.seq) ↔ found = other ∧ boundary ≤ other.seq := by
      rw [List.mem_filter, List.mem_singleton, decide_eq_true_eq]
      constructor
      · rintro ⟨rfl, high⟩
        exact ⟨rfl, high⟩
      · rintro ⟨rfl, high⟩
        exact ⟨rfl, high⟩
    have whole : ∀ owed ∈ owedFrom boundary after.log,
        owed ∈ frames ++ [other].filter (boundary ≤ ·.seq) ∨ after.reading = some owed := by
      intro owed listed
      rw [log] at listed
      rcases live.whole owed listed with there | reading
      · exact .inl (List.mem_append_left _ there)
      · rcases kept owed reading with equal | still
        · exact .inl (List.mem_append_right _ (new.mpr ⟨equal, equal ▸ (Stream.mem_owedFrom.mp listed).2.1⟩))
        · exact .inr still
    refine { above := ?_, increasing := ?_, below := ?_, complete := ?_, within := same ▸ live.within, ahead := ?_, whole }
    · intro found member
      rcases List.mem_append.mp member with old | fresh
      · exact live.above found old
      · obtain ⟨rfl, high⟩ := new.mp fresh
        exact high
    · refine List.pairwise_append.mpr ⟨live.increasing, (List.pairwise_singleton ..).filter _, fun found old next fresh => ?_⟩
      obtain ⟨rfl, high⟩ := new.mp fresh
      exact live.ahead next unsent high found old
    · intro found member
      rw [same]
      rcases List.mem_append.mp member with old | fresh
      · exact live.below found old
      · obtain ⟨rfl, _⟩ := new.mp fresh
        exact numbered.unsent found unsent
    · intro owed listed found member lower
      rcases whole owed listed with there | reading
      · exact there
      · have waiting : owed ∈ after.unsent := List.mem_append_left _ (by rw [reading]; exact List.mem_singleton.mpr rfl)
        have high := (Stream.mem_owedFrom.mp listed).2.1
        rcases List.mem_append.mp member with old | fresh
        · have order := live.ahead owed (rest owed waiting) high found old
          omega
        · obtain ⟨rfl, _⟩ := new.mp fresh
          have order := first owed (rest owed waiting) high
          omega
    · intro left member high found there
      rcases List.mem_append.mp there with old | fresh
      · exact live.ahead left (rest left member) high found old
      · obtain ⟨rfl, _⟩ := new.mp fresh
        have order := first left (rest left member) high
        have apart := differ left member
        omega

end LiveStream

/-! ### Forwarders -/

namespace Forwarder
variable {session after : TerminalSession Parser} {event : TerminalEvent} {forwarder : Forwarder} {sent : List TermFrame}

/-- What a forwarder has sent is a stream, and with what it still has a live one unless it lags. -/
structure Serves (session : TerminalSession Parser) (forwarder : Forwarder) (sent : List TermFrame) : Prop where
  stream : Stream session forwarder.nextSeq sent
  live : forwarder.lagged = false →
    LiveStream session forwarder.nextSeq (sent ++ forwarder.receiver.filter (forwarder.nextSeq ≤ ·.seq))

theorem Serves.quiet (serves : Serves session forwarder sent) (moves : session.Moves event after)
    (silent : session.broadcasts event = none) : Serves after forwarder sent where
  stream := serves.stream.step moves
  live current := (serves.live current).quiet moves silent

theorem receive_nextSeq (frame : TermFrame) : (forwarder.receive frame).nextSeq = forwarder.nextSeq := by
  unfold receive
  split <;> rfl

theorem Serves.receive (serves : Serves session forwarder sent) (moves : session.Moves event after)
    (numbered : session.Numbered) {frame : TermFrame} (broadcast : session.broadcasts event = some frame)
    (first : ∀ other ∈ session.unsent, forwarder.nextSeq ≤ other.seq → frame.seq ≤ other.seq) :
    Serves after (forwarder.receive frame) sent := by
  refine ⟨by rw [receive_nextSeq]; exact serves.stream.step moves, fun current => ?_⟩
  unfold Forwarder.receive at current ⊢
  split at current
  · next room =>
    rw [if_pos room, List.filter_append, ← List.append_assoc]
    exact (serves.live current).grow moves numbered broadcast first
  · cases current

/-- A new subscription. -/
theorem Serves.start (numbered : session.Numbered) : Serves session { nextSeq := session.seq } [] where
  stream := (LiveStream.start numbered).toStream
  live _ := LiveStream.start numbered

/-- A frame that is skipped or sent leaves the receiver. -/
theorem Serves.turn (serves : Serves session forwarder sent) {next : Forwarder} (goes : forwarder.rest = some next) :
    next.nextSeq = forwarder.nextSeq ∧
      Serves session next (sent ++ (forwarder.sends.bind (·.chunk?)).toList) := by
  unfold rest at goes
  split at goes
  · cases goes
  · next current =>
    cases goes
    have running : forwarder.lagged = false := Bool.eq_false_iff.mpr current
    have live := serves.live running
    refine ⟨rfl, ?_⟩
    unfold sends
    rw [if_neg current]
    cases receiver : forwarder.receiver with
    | nil =>
      rw [receiver] at live
      simp only [List.head?_nil, Option.bind_none, Option.toList_none, List.append_nil, List.tail_nil]
      exact ⟨serves.stream, fun _ => live⟩
    | cons frame later =>
      rw [receiver] at live
      simp only [List.head?_cons, Option.bind_some, List.tail_cons]
      by_cases stale : frame.seq < forwarder.nextSeq
      · rw [List.filter_cons, if_neg (by simpa using stale)] at live
        rw [if_pos stale]
        simp only [Option.bind_none, Option.toList_none, List.append_nil]
        exact ⟨serves.stream, fun _ => live⟩
      · rw [List.filter_cons, if_pos (by simpa using stale)] at live
        rw [if_neg stale]
        have moved : LiveStream session forwarder.nextSeq
            (sent ++ [frame] ++ later.filter (forwarder.nextSeq ≤ ·.seq)) := by
          rw [List.append_assoc]
          exact live
        exact ⟨moved.toStream.front, fun _ => moved⟩

/-- A frame that is no output may be dropped. -/
theorem Serves.drop {frame : TermFrame} (serves : Serves session forwarder (sent ++ [frame]))
    (quiet : frame.direction ≠ .output) : Serves session forwarder sent where
  stream := serves.stream.front
  live current := by
    have live := serves.live current
    rw [List.append_assoc, List.singleton_append] at live
    have part : (sent ++ forwarder.receiver.filter (forwarder.nextSeq ≤ ·.seq)).Sublist
        (sent ++ frame :: forwarder.receiver.filter (forwarder.nextSeq ≤ ·.seq)) :=
      List.Sublist.append_left (List.sublist_cons_self ..) _
    refine { toStream := live.toStream.without quiet, within := live.within, ahead := ?_, whole := ?_ }
    · exact fun other member high found there => live.ahead other member high found (part.subset there)
    · intro owed listed
      rcases live.whole owed listed with there | reading
      · rcases List.mem_append.mp there with first | second
        · exact .inl (List.mem_append_left _ first)
        · rcases List.mem_cons.mp second with rfl | rest
          · exact (quiet (Stream.mem_owedFrom.mp listed).2.2).elim
          · exact .inl (List.mem_append_right _ rest)
      · exact .inr reading

end Forwarder

/-! ### The connection -/

theorem writtenChunks_concat (entries : List ConnEntry) (entry : ConnEntry) :
    writtenChunks (entries ++ [entry]) = writtenChunks entries ++ entry.chunk?.toList := by
  rw [writtenChunks, List.filterMap_append, writtenChunks]
  cases found : entry.chunk? with
  | none => rw [List.filterMap_cons_none found]; rfl
  | some frame => rw [List.filterMap_cons_some found]; rfl

theorem queuedChunks_concat (channel : List ConnMessage) (message : ConnMessage) :
    queuedChunks (channel ++ [message]) = queuedChunks channel ++ message.chunk?.toList := by
  rw [queuedChunks, List.filterMap_append, queuedChunks]
  cases found : message.chunk? with
  | none => rw [List.filterMap_cons_none found]; rfl
  | some frame => rw [List.filterMap_cons_some found]; rfl

/-- Where a new last entry stands. -/
theorem split_concat {entries earlier segment later : List ConnEntry} {entry mark : ConnEntry}
    (split : entries ++ [entry] = earlier ++ mark :: (segment ++ later)) :
    (∃ rest, later = rest ++ [entry] ∧ entries = earlier ++ mark :: (segment ++ rest)) ∨
      later = [] ∧ ((∃ rest, segment = rest ++ [entry] ∧ entries = earlier ++ mark :: rest) ∨
        segment = [] ∧ mark = entry) := by
  rcases List.eq_nil_or_concat' later with rfl | ⟨rest, last, rfl⟩
  · refine .inr ⟨rfl, ?_⟩
    rw [List.append_nil] at split
    rcases List.eq_nil_or_concat' segment with rfl | ⟨rest, last, rfl⟩
    · obtain ⟨_, same⟩ := List.append_inj' split rfl
      exact .inr ⟨rfl, (List.cons.inj same).1.symm⟩
    · rw [← List.cons_append, ← List.append_assoc] at split
      obtain ⟨front, same⟩ := List.append_inj' split rfl
      exact .inl ⟨rest, by rw [(List.cons.inj same).1], front⟩
  · rw [← List.append_assoc, ← List.cons_append, ← List.append_assoc] at split
    obtain ⟨front, same⟩ := List.append_inj' split rfl
    exact .inl ⟨rest, by rw [(List.cons.inj same).1], front⟩

namespace TerminalConnection
variable {connection after : TerminalConnection Parser}

/-- What was written since the catchup and what is in the channel are a stream, and the current
forwarder continues it. -/
structure Carries (connection : TerminalConnection Parser) (boundary : Nat) (chunks : List TermFrame) : Prop where
  stream : Stream connection.session boundary (chunks ++ queuedChunks connection.channel)
  served : ∀ forwarder ∈ connection.current, forwarder.nextSeq = boundary ∧
    forwarder.Serves connection.session (chunks ++ queuedChunks connection.channel)

/-- Nothing is on its way to the client. -/
structure Silent (connection : TerminalConnection Parser) : Prop where
  channel : queuedChunks connection.channel = []
  current : connection.current = none

structure Kept (connection : TerminalConnection Parser) : Prop where
  numbered : connection.session.Numbered
  subscribed : ∀ forwarder ∈ connection.stage.forwarder?, forwarder.Serves connection.session []
  carries : ∀ earlier boundary screen segment, connection.written = earlier ++ .termCatchup boundary screen :: segment →
    (∀ entry ∈ segment, entry.ends = false) → connection.Carries boundary (writtenChunks segment)
  streams : ∀ earlier boundary screen segment later,
    connection.written = earlier ++ .termCatchup boundary screen :: (segment ++ later) →
    (∀ entry ∈ segment, entry.ends = false) → Stream connection.session boundary (writtenChunks segment)
  detached : ∀ earlier segment, connection.written = earlier ++ .detached :: segment →
    (∀ entry ∈ segment, entry.ends = false) → connection.Silent
  silent : ∀ earlier segment later, connection.written = earlier ++ .detached :: (segment ++ later) →
    (∀ entry ∈ segment, entry.ends = false) → writtenChunks segment = []

theorem Kept.delivers (kept : Kept connection) : Delivers connection where
  above earlier boundary screen segment later split inside := (kept.streams earlier boundary screen segment later split inside).above
  increasing earlier boundary screen segment later split inside :=
    (kept.streams earlier boundary screen segment later split inside).increasing
  complete earlier boundary screen segment later split inside :=
    .inr (kept.streams earlier boundary screen segment later split inside).complete
  silent := kept.silent

/-- A step that writes nothing. -/
theorem Kept.stay (kept : Kept connection) (written : after.written = connection.written)
    (numbered : after.session.Numbered) (subscribed : ∀ forwarder ∈ after.stage.forwarder?, forwarder.Serves after.session [])
    (carries : ∀ boundary chunks, connection.Carries boundary chunks → after.Carries boundary chunks)
    (streams : ∀ boundary frames, Stream connection.session boundary frames → Stream after.session boundary frames)
    (silent : connection.Silent → after.Silent) : Kept after where
  numbered := numbered
  subscribed := subscribed
  carries earlier boundary screen segment split inside :=
    carries _ _ (kept.carries earlier boundary screen segment (written.symm.trans split) inside)
  streams earlier boundary screen segment later split inside :=
    streams _ _ (kept.streams earlier boundary screen segment later (written.symm.trans split) inside)
  detached earlier segment split inside := silent (kept.detached earlier segment (written.symm.trans split) inside)
  silent earlier segment later split inside := kept.silent earlier segment later (written.symm.trans split) inside

/-- A step that writes an entry within a segment. -/
theorem Kept.extend (kept : Kept connection) {entry : ConnEntry} (written : after.written = connection.written ++ [entry])
    (within : entry.ends = false) (session : after.session = connection.session)
    (subscribed : ∀ forwarder ∈ after.stage.forwarder?, forwarder.Serves after.session [])
    (carries : ∀ boundary chunks, connection.Carries boundary chunks →
      after.Carries boundary (chunks ++ entry.chunk?.toList))
    (silent : connection.Silent → after.Silent ∧ entry.chunk? = none) : Kept after := by
  have carried : ∀ earlier boundary screen segment, after.written = earlier ++ .termCatchup boundary screen :: segment →
      (∀ entry ∈ segment, entry.ends = false) → after.Carries boundary (writtenChunks segment) := by
    intro earlier boundary screen segment split inside
    rw [written, ← List.append_nil segment] at split
    rcases split_concat split with ⟨rest, impossible, _⟩ | ⟨_, ⟨rest, rfl, front⟩ | ⟨_, same⟩⟩
    · cases rest <;> cases impossible
    · rw [writtenChunks_concat]
      exact carries _ _ (kept.carries earlier boundary screen rest front fun entry member =>
        inside entry (List.mem_append_left _ member))
    · rw [← same] at within
      cases within
  refine ⟨session ▸ kept.numbered, subscribed, carried, ?_, ?_, ?_⟩
  · intro earlier boundary screen segment later split inside
    have whole := split
    rw [written] at split
    rcases split_concat split with ⟨rest, _, front⟩ | ⟨rfl, _⟩
    · exact session ▸ kept.streams earlier boundary screen segment rest front inside
    · rw [List.append_nil] at whole
      exact (carried earlier boundary screen segment whole inside).stream.front
  · intro earlier segment split inside
    rw [written, ← List.append_nil segment] at split
    rcases split_concat split with ⟨rest, impossible, _⟩ | ⟨_, ⟨rest, rfl, front⟩ | ⟨_, same⟩⟩
    · cases rest <;> cases impossible
    · exact (silent (kept.detached earlier rest front fun entry member => inside entry (List.mem_append_left _ member))).1
    · rw [← same] at within
      cases within
  · intro earlier segment later split inside
    rw [written] at split
    rcases split_concat split with ⟨rest, _, front⟩ | ⟨rfl, ⟨rest, rfl, front⟩ | ⟨rfl, _⟩⟩
    · exact kept.silent earlier segment rest front inside
    · have earlierInside : ∀ entry ∈ rest, entry.ends = false := fun entry member =>
        inside entry (List.mem_append_left _ member)
      rw [writtenChunks_concat, (silent (kept.detached earlier rest front earlierInside)).2]
      have nothing := kept.silent earlier rest [] (by rw [List.append_nil]; exact front) earlierInside
      rw [nothing]
      rfl
    · rfl

/-- A step that writes a catchup or a detach. -/
theorem Kept.mark (kept : Kept connection) {entry : ConnEntry} (written : after.written = connection.written ++ [entry])
    (ends : entry.ends = true) (session : after.session = connection.session)
    (subscribed : ∀ forwarder ∈ after.stage.forwarder?, forwarder.Serves after.session [])
    (carries : ∀ boundary screen, entry = .termCatchup boundary screen → after.Carries boundary [])
    (silent : entry = .detached → after.Silent) : Kept after := by
  have last {rest : List ConnEntry} (inside : ∀ other ∈ rest ++ [entry], other.ends = false) : False := by
    have within := inside entry (List.mem_append_right _ (List.mem_singleton.mpr rfl))
    rw [ends] at within
    cases within
  refine ⟨session ▸ kept.numbered, subscribed, ?_, ?_, ?_, ?_⟩
  · intro earlier boundary screen segment split inside
    rw [written, ← List.append_nil segment] at split
    rcases split_concat split with ⟨rest, impossible, _⟩ | ⟨_, ⟨rest, rfl, _⟩ | ⟨rfl, same⟩⟩
    · cases rest <;> cases impossible
    · exact (last inside).elim
    · exact carries boundary screen same.symm
  · intro earlier boundary screen segment later split inside
    rw [written] at split
    rcases split_concat split with ⟨rest, _, front⟩ | ⟨_, ⟨rest, rfl, _⟩ | ⟨rfl, _⟩⟩
    · exact session ▸ kept.streams earlier boundary screen segment rest front inside
    · exact (last inside).elim
    · exact ⟨fun _ impossible => (nomatch impossible), List.Pairwise.nil, fun _ impossible => (nomatch impossible),
        fun _ _ _ impossible => (nomatch impossible)⟩
  · intro earlier segment split inside
    rw [written, ← List.append_nil segment] at split
    rcases split_concat split with ⟨rest, impossible, _⟩ | ⟨_, ⟨rest, rfl, _⟩ | ⟨rfl, same⟩⟩
    · cases rest <;> cases impossible
    · exact (last inside).elim
    · exact silent same.symm
  · intro earlier segment later split inside
    rw [written] at split
    rcases split_concat split with ⟨rest, _, front⟩ | ⟨_, ⟨rest, rfl, _⟩ | ⟨rfl, _⟩⟩
    · exact kept.silent earlier segment rest front inside
    · exact (last inside).elim
    · rfl

/-! ### Steps -/

theorem queuedChunks_trySend (channel : List ConnMessage) (message : ConnMessage) :
    queuedChunks (trySend channel message) =
      queuedChunks channel ++ (if channel.length < connChannelCapacity then message.chunk? else none).toList := by
  unfold trySend
  split
  · exact queuedChunks_concat channel message
  · exact (List.append_nil _).symm

/-- The channel has the same chunks. -/
theorem Carries.other {boundary : Nat} {chunks : List TermFrame} (carries : connection.Carries boundary chunks)
    (session : after.session = connection.session) (current : after.current = connection.current)
    (queued : queuedChunks after.channel = queuedChunks connection.channel) : after.Carries boundary chunks := by
  refine ⟨?_, fun forwarder there => ?_⟩
  · rw [session, queued]
    exact carries.stream
  · rw [session, queued]
    rw [current] at there
    exact carries.served forwarder there

/-- The forwarder is gone. -/
theorem Carries.ended {boundary : Nat} {chunks : List TermFrame} (carries : connection.Carries boundary chunks)
    (session : after.session = connection.session) (current : after.current = none)
    (queued : queuedChunks after.channel = queuedChunks connection.channel) : after.Carries boundary chunks := by
  refine ⟨?_, fun forwarder there => ?_⟩
  · rw [session, queued]
    exact carries.stream
  · rw [current] at there
    cases there

theorem kept_session (kept : Kept connection) {event : TerminalEvent} (orderly : connection.Orderly (.session event))
    (taken : connection.step vt (.session event) = some after) : Kept after := by
  simp only [TerminalConnection.step] at taken
  split at taken
  · next own =>
    obtain ⟨session, stepped, rfl⟩ := Option.map_eq_some_iff.mp taken
    have moves := TerminalSession.moves_of_step own stepped
    cases sent : connection.session.broadcasts event with
    | none =>
      refine kept.stay rfl (kept.numbered.step moves) (fun forwarder there => (kept.subscribed forwarder there).quiet moves sent)
        (fun boundary chunks carries => ⟨carries.stream.step moves, fun forwarder there => ?_⟩)
        (fun boundary frames stream => stream.step moves) fun silent => ⟨silent.channel, silent.current⟩
      obtain ⟨same, serves⟩ := carries.served forwarder there
      exact ⟨same, serves.quiet moves sent⟩
    | some frame =>
      have first {forwarder : Forwarder} (there : forwarder ∈ connection.current.toList ++ connection.stage.forwarder?.toList) :
          ∀ other ∈ connection.session.unsent, forwarder.nextSeq ≤ other.seq → frame.seq ≤ other.seq :=
        orderly frame sent forwarder.nextSeq (List.mem_map.mpr ⟨forwarder, there, rfl⟩)
      refine kept.stay rfl (kept.numbered.step moves) (fun forwarder there => ?_)
        (fun boundary chunks carries => ⟨carries.stream.step moves, fun forwarder there => ?_⟩)
        (fun boundary frames stream => stream.step moves) fun silent => ⟨silent.channel, ?_⟩
      · cases stage : connection.stage with
        | subscribed old snapshot =>
          rw [stage] at there
          cases there
          have held : old ∈ connection.stage.forwarder? := by rw [stage]; exact rfl
          refine (kept.subscribed old held).receive moves kept.numbered sent (first ?_)
          exact List.mem_append_right _ (Option.mem_toList.mpr held)
        | selecting | attaching =>
          rw [stage] at there
          cases there
      · obtain ⟨old, held, rfl⟩ := Option.map_eq_some_iff.mp there
        obtain ⟨same, serves⟩ := carries.served old held
        refine ⟨(Forwarder.receive_nextSeq frame).trans same, serves.receive moves kept.numbered sent (first ?_)⟩
        exact List.mem_append_left _ (Option.mem_toList.mpr held)
      · show connection.current.map _ = none
        rw [silent.current]
        rfl
  · cases taken

theorem queuedChunks_send (message : Option ConnMessage) :
    queuedChunks (connection.send message).channel = queuedChunks connection.channel ++
      (if connection.channel.length < connChannelCapacity then message.bind (·.chunk?) else none).toList := by
  cases message with
  | none =>
    rw [Option.bind_none, ite_self]
    exact (List.append_nil _).symm
  | some message => exact queuedChunks_trySend connection.channel message

/-- A message that is no chunk. -/
theorem queuedChunks_send_other {message : Option ConnMessage} (other : message.bind (·.chunk?) = none) :
    queuedChunks (connection.send message).channel = queuedChunks connection.channel := by
  rw [queuedChunks_send, other, ite_self]
  exact List.append_nil _

/-- A turn of the forwarder moves its frame into the channel, or drops one that is no output. -/
theorem Carries.forward {boundary : Nat} {chunks : List TermFrame} (carries : connection.Carries boundary chunks)
    {forwarder : Forwarder} (current : connection.current = some forwarder)
    (room : ∀ frame ∈ forwarder.sends.bind (·.chunk?), frame.direction = .output →
      connection.channel.length < connChannelCapacity) :
    Carries { connection.send forwarder.sends with current := forwarder.rest } boundary chunks := by
  obtain ⟨same, serves⟩ := carries.served forwarder current
  have moved {next : Forwarder} (goes : forwarder.rest = some next) : next.nextSeq = boundary ∧
      next.Serves connection.session (chunks ++ queuedChunks (connection.send forwarder.sends).channel) := by
    obtain ⟨kept, turned⟩ := serves.turn goes
    refine ⟨kept.trans same, ?_⟩
    rw [queuedChunks_send, ← List.append_assoc]
    split
    · exact turned
    · next full =>
      cases sent : forwarder.sends.bind (·.chunk?) with
      | none =>
        rw [sent] at turned
        exact turned
      | some frame =>
        rw [sent] at turned
        rw [Option.toList_none, List.append_nil]
        exact turned.drop fun output => full (room frame sent output)
  refine ⟨?_, fun next goes => moved goes⟩
  cases goes : forwarder.rest with
  | some next =>
    obtain ⟨number, turned⟩ := moved goes
    exact number ▸ turned.stream
  | none =>
    have lagged : forwarder.lagged = true := by
      unfold Forwarder.rest at goes
      split at goes
      · assumption
      · cases goes
    have silent : forwarder.sends.bind (·.chunk?) = none := by
      rw [Forwarder.sends, if_pos lagged]
      rfl
    show Stream connection.session boundary (chunks ++ queuedChunks (connection.send forwarder.sends).channel)
    rw [queuedChunks_send_other silent]
    exact carries.stream

theorem kept_forward (kept : Kept connection) (orderly : connection.Orderly .forward)
    (taken : connection.step vt .forward = some after) : Kept after := by
  simp only [TerminalConnection.step] at taken
  split at taken
  · next forwarder current =>
    split at taken
    · cases taken
      refine kept.stay rfl kept.numbered kept.subscribed (fun boundary chunks carries => carries.forward current ?_)
        (fun _ _ stream => stream) fun silent => ?_
      · intro frame sent
        obtain ⟨message, sends, chunk⟩ := Option.bind_eq_some_iff.mp sent
        exact orderly forwarder current message sends frame chunk
      · rw [silent.current] at current
        cases current
    · cases taken
  · cases taken

theorem kept_straggle (kept : Kept connection) {position : Nat} (orderly : connection.Orderly (.straggle position))
    (taken : connection.step vt (.straggle position) = some after) : Kept after := by
  simp only [TerminalConnection.step] at taken
  split at taken
  · next forwarder found =>
    split at taken
    · cases taken
      have other : forwarder.sends.bind (·.chunk?) = none := by
        cases sends : forwarder.sends with
        | none => rfl
        | some message => exact orderly forwarder found message sends
      have queued := @queuedChunks_send_other _ connection _ other
      exact kept.stay rfl kept.numbered kept.subscribed (fun _ _ carries => carries.other rfl rfl queued)
        (fun _ _ stream => stream) fun silent => ⟨queued.trans silent.channel, silent.current⟩
    · cases taken
  · cases taken

theorem kept_drain (kept : Kept connection) (taken : connection.step vt .drain = some after) : Kept after := by
  simp only [TerminalConnection.step] at taken
  split at taken
  · next message rest stage channel =>
    cases taken
    have queued : queuedChunks connection.channel = message.chunk?.toList ++ queuedChunks rest := by
      rw [channel, queuedChunks]
      cases found : message.chunk? with
      | none => rw [List.filterMap_cons_none found]; rfl
      | some frame => rw [List.filterMap_cons_some found]; rfl
    refine kept.extend rfl rfl rfl kept.subscribed (fun boundary chunks carries => ⟨?_, fun forwarder there => ?_⟩)
      fun silent => ?_
    · have stream := carries.stream
      rw [queued, ← List.append_assoc] at stream
      exact stream
    · obtain ⟨same, serves⟩ := carries.served forwarder there
      rw [queued, ← List.append_assoc] at serves
      exact ⟨same, serves⟩
    · have nothing := silent.channel
      rw [queued, List.append_eq_nil_iff] at nothing
      exact ⟨⟨nothing.2, silent.current⟩, Option.toList_eq_nil_iff.mp nothing.1⟩
  · cases taken

theorem Kept.step (kept : Kept connection) {event : ConnEvent} (orderly : connection.Orderly event)
    (taken : connection.step vt event = some after) : Kept after := by
  cases event with
  | session event => exact kept_session kept orderly taken
  | forward => exact kept_forward kept orderly taken
  | straggle position => exact kept_straggle kept orderly taken
  | drain => exact kept_drain kept taken
  | termAttach =>
    simp only [TerminalConnection.step] at taken
    split at taken
    · cases taken
      exact kept.stay rfl kept.numbered (fun _ impossible => (nomatch impossible)) (fun _ _ carries => carries.ended rfl rfl rfl)
        (fun _ _ stream => stream) fun silent => ⟨silent.channel, rfl⟩
    · cases taken
  | subscribe =>
    simp only [TerminalConnection.step] at taken
    split at taken
    · cases taken
      refine kept.stay rfl kept.numbered (fun forwarder there => ?_) (fun _ _ carries => carries.other rfl rfl rfl)
        (fun _ _ stream => stream) fun silent => ⟨silent.channel, silent.current⟩
      cases there
      exact Forwarder.Serves.start kept.numbered
    · cases taken
  | catchup seed =>
    have empty : queuedChunks connection.channel = [] := orderly
    simp only [TerminalConnection.step] at taken
    split at taken
    · next forwarder snapshot stage =>
      cases taken
      have serves := kept.subscribed forwarder (by rw [stage]; exact rfl)
      refine kept.mark rfl rfl rfl (fun _ impossible => (nomatch impossible)) (fun boundary screen same => ?_)
        fun impossible => (nomatch impossible)
      cases same
      refine ⟨?_, fun other there => ?_⟩
      · rw [List.nil_append, empty]
        exact serves.stream
      · cases there
        rw [List.nil_append, empty]
        exact ⟨rfl, serves⟩
    · cases taken
    · cases taken
  | notFound =>
    simp only [TerminalConnection.step] at taken
    split at taken
    · cases taken
      refine kept.extend rfl rfl rfl (fun _ impossible => (nomatch impossible)) (fun _ chunks carries => ?_)
        fun silent => ⟨⟨silent.channel, silent.current⟩, rfl⟩
      have same : chunks ++ (ConnEntry.chunk? .notFound).toList = chunks := List.append_nil _
      rw [same]
      exact carries.other rfl rfl rfl
    · cases taken
  | termDetach =>
    have empty : queuedChunks connection.channel = [] := orderly
    simp only [TerminalConnection.step] at taken
    split at taken
    · cases taken
      exact kept.mark rfl rfl rfl kept.subscribed (fun _ _ impossible => (nomatch impossible)) fun _ => ⟨empty, rfl⟩
    · cases taken
  | cancelled position =>
    cases taken
    exact kept.stay rfl kept.numbered kept.subscribed (fun _ _ carries => carries.other rfl rfl rfl)
      (fun _ _ stream => stream) fun silent => ⟨silent.channel, silent.current⟩
  | push =>
    cases taken
    have queued := @queuedChunks_send_other _ connection (some .other) rfl
    exact kept.stay rfl kept.numbered kept.subscribed (fun _ _ carries => carries.other rfl rfl queued)
      (fun _ _ stream => stream) fun silent => ⟨queued.trans silent.channel, silent.current⟩

theorem kept_start (parser : Parser) (baseSeq : Nat) : Kept (machine vt parser baseSeq).start := by
  have nothing {earlier rest : List ConnEntry} {mark : ConnEntry} : ¬ [] = earlier ++ mark :: rest := by
    intro split
    have length := congrArg List.length split
    simp at length
  exact ⟨⟨fun _ impossible => (nomatch impossible), List.nodup_nil, fun _ impossible => (nomatch impossible)⟩,
    fun _ impossible => (nomatch impossible), fun _ _ _ _ split => (nothing split).elim,
    fun _ _ _ _ _ split => (nothing split).elim, fun _ _ split => (nothing split).elim,
    fun _ _ _ split => (nothing split).elim⟩

/-- In every run whose steps are orderly, the client gets what it is promised in every state. -/
theorem chunks_delivered (parser : Parser) (baseSeq : Nat) (events : List ConnEvent) (after : TerminalConnection Parser)
    (taken : (machine vt parser baseSeq).run Orderly (machine vt parser baseSeq).start events = some after) :
    Delivers after := by
  have kept := @Machine.run_preserves _ _ (machine vt parser baseSeq) Orderly _ Kept
    (fun _ _ _ kept orderly taken => kept.step orderly taken) _ _ _ (kept_start parser baseSeq) taken
  exact kept.delivers

/-- A screen that shows all bytes. -/
def echoScreen : Vt100 (List UInt8) where
  process screen bytes := screen ++ bytes
  setSize screen _ _ := screen
  contentsFormatted screen := screen

/-- An attach, and an output that is forwarded. -/
def forwardedEvents : List ConnEvent :=
  [.termAttach, .subscribe, .catchup [], .session (.ingestOutput [65] 0), .session .broadcastOutput, .forward]

def forwardedFrame : TermFrame :=
  { seq := 0, tsUs := 0, direction := .output, bytes := [65] }

/-- The session behind the output. -/
def shownSession : TerminalSession (List UInt8) where
  parser := [65]
  seq := 1
  outputHighWater := 1
  log := [(forwardedFrame, .process [65])]

def deliveredConnection : TerminalConnection (List UInt8) where
  session := shownSession
  aborted := [{ nextSeq := 0 }]
  written := [.termCatchup 0 [], .relayed (.termChunk forwardedFrame), .detached]

theorem chunks_delivered_detached : Delivers deliveredConnection :=
  @chunks_delivered _ echoScreen [] 0 (forwardedEvents ++ [.drain, .termDetach]) deliveredConnection (by decide)

/-- The client attaches again before the chunk was written. -/
def staleConnection : TerminalConnection (List UInt8) where
  session := shownSession
  current := some { nextSeq := 1 }
  aborted := [{ nextSeq := 0 }]
  written := [.termCatchup 0 [], .termCatchup 1 [65], .relayed (.termChunk forwardedFrame)]

/-- The client detaches before the chunk was written. -/
def lateConnection : TerminalConnection (List UInt8) where
  session := shownSession
  aborted := [{ nextSeq := 0 }]
  written := [.termCatchup 0 [], .detached, .relayed (.termChunk forwardedFrame)]

theorem stale_and_late_chunks_written :
    (machine echoScreen [] 0).run Machine.free (machine echoScreen [] 0).start
        (forwardedEvents ++ [.termAttach, .subscribe, .catchup [], .drain]) = some staleConnection ∧
      ¬ Delivers staleConnection ∧
      (machine echoScreen [] 0).run Machine.free (machine echoScreen [] 0).start
        (forwardedEvents ++ [.termDetach, .drain]) = some lateConnection ∧ ¬ Delivers lateConnection := by
  refine ⟨by decide, fun delivers => ?_, by decide, fun delivers => ?_⟩
  · have above := delivers.above [.termCatchup 0 []] 1 [65] [.relayed (.termChunk forwardedFrame)] [] rfl (by decide)
      forwardedFrame (by decide)
    revert above
    decide
  · have silent := delivers.silent [.termCatchup 0 []] [.relayed (.termChunk forwardedFrame)] [] rfl (by decide)
    revert silent
    decide

end TerminalConnection
end Wisphive
