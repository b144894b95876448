import Mathlib.Data.List.Nodup
import Wisphive.Terminal

/-! Attaching to a live session is seamless. The snapshot holds exactly the frames
below the boundary, and the forwarder delivers the output from there on. -/

namespace Wisphive
open Foundation

variable {Parser : Type} {vt : Vt100 Parser} {parser : Parser}

theorem replayScreen_append (before after : List ScreenChange) :
    replayScreen vt parser (before ++ after) = replayScreen vt (replayScreen vt parser before) after := by
  induction before generalizing parser with
  | nil => rfl
  | cons change rest ih =>
    cases change with
    | process bytes => exact ih
    | setSize rows cols => exact ih
    | unchanged => exact ih

theorem outputFrames_append (before after : List TermFrame) :
    outputFrames (before ++ after) = outputFrames before ++ outputFrames after :=
  List.filter_append ..

theorem outputFrames_quiet {frame : TermFrame} (quiet : frame.direction ≠ .output) (live : TermFrame → Bool) :
    outputFrames ([frame].filter live) = [] :=
  List.filter_eq_nil_iff.mpr fun other member => by
    rw [List.mem_singleton.mp (List.mem_of_mem_filter member)]
    simpa using quiet

/-- What one attachment has, relative to everything that the session numbered. The
output still on its way is in the receiver or held by the reader, and a catchup
ends with the snapshot. -/
structure Follows (vt : Vt100 Parser) (parser : Parser) (session : TerminalSession Parser)
    (attachment : Attachment) : Prop where
  boundary : attachment.nextSeq ≤ session.seq
  reflected : attachment.snapshot =
    vt.contentsFormatted (replayScreen vt parser (coveredBelow attachment.nextSeq session.log))
  delivered : owedFrom attachment.nextSeq session.log = outputFrames attachment.delivered ++
    outputFrames ((attachment.receiver ++ session.reading.toList).filter (attachment.nextSeq ≤ ·.seq))
  painted : ∀ bytes ∈ attachment.catchup, ∃ seed, bytes = seed ++ attachment.snapshot

/-- Every output frame is below the boundary, its bytes being in the snapshot, or is
owed to the attachment once. The owed frames have increasing numbers. -/
structure Seamless (vt : Vt100 Parser) (parser : Parser) (session : TerminalSession Parser)
    (attachment : Attachment) : Prop extends Follows vt parser session attachment where
  ordered : ((owedFrom attachment.nextSeq session.log).map (·.seq)).Pairwise (· < ·)
  divided : ∀ entry ∈ session.log, entry.1.direction = .output →
    .process entry.1.bytes ∈ coveredBelow attachment.nextSeq session.log ∧ entry.1.seq < attachment.nextSeq ∨
    (owedFrom attachment.nextSeq session.log).count entry.1 = 1 ∧ attachment.nextSeq ≤ entry.1.seq

namespace TerminalSession

/-- The log is numbered in order and explains the screen. Only the reader holds
output. -/
structure Logged (vt : Vt100 Parser) (parser : Parser) (session : TerminalSession Parser) : Prop where
  screen : session.parser = replayScreen vt parser (session.log.map (·.2))
  below : ∀ entry ∈ session.log, entry.1.seq < session.seq
  increasing : (session.log.map (·.1.seq)).Pairwise (· < ·)
  effect : ∀ entry ∈ session.log, entry.1.direction = .output → entry.2 = .process entry.1.bytes
  reading : ∀ frame ∈ session.reading, frame.direction = .output ∧ frame.seq < session.seq
  sending : ∀ frame ∈ session.sending, frame.direction ≠ .output

structure Valid (vt : Vt100 Parser) (parser : Parser) (session : TerminalSession Parser) : Prop where
  logged : Logged vt parser session
  follows : ∀ attachment ∈ session.attachments, Follows vt parser session attachment

variable {session : TerminalSession Parser} {attachment : Attachment}

/-- A new frame lies at or above every boundary. -/
theorem covered_numbered {boundary : Nat} (within : boundary ≤ session.seq) {frame : TermFrame}
    (number : frame.seq = session.seq) (change : ScreenChange) :
    coveredBelow boundary (session.log ++ [(frame, change)]) = coveredBelow boundary session.log := by
  have late : ¬ frame.seq < boundary := by omega
  simp only [coveredBelow, List.filter_append, List.filter_singleton, late, decide_false, cond_false,
    List.append_nil]

theorem owed_numbered {boundary : Nat} (within : boundary ≤ session.seq) {frame : TermFrame}
    (number : frame.seq = session.seq) (change : ScreenChange) :
    owedFrom boundary (session.log ++ [(frame, change)]) =
      owedFrom boundary session.log ++ outputFrames [frame] := by
  have late : boundary ≤ frame.seq := by omega
  simp only [owedFrom, List.map_append, List.map_singleton, List.filter_append, List.filter_singleton,
    late, decide_true, cond_true, outputFrames_append]

theorem Logged.numbered (logged : Logged vt parser session) {frame : TermFrame}
    (number : frame.seq = session.seq) {change : ScreenChange}
    (shown : frame.direction = .output → change = .process frame.bytes) :
    (∀ entry ∈ (session.numbered frame change).log, entry.1.seq < (session.numbered frame change).seq) ∧
    ((session.numbered frame change).log.map (·.1.seq)).Pairwise (· < ·) ∧
    ∀ entry ∈ (session.numbered frame change).log, entry.1.direction = .output →
      entry.2 = .process entry.1.bytes := by
  refine ⟨?_, ?_, fun entry member output => ?_⟩
  · intro entry member
    rcases List.mem_append.mp member with earlier | latest
    · exact Nat.lt_succ_of_lt (logged.below entry earlier)
    · rw [List.mem_singleton.mp latest]
      exact number ▸ Nat.lt_succ_self _
  · simp only [TerminalSession.numbered, List.map_append, List.map_singleton]
    refine List.pairwise_append.mpr ⟨logged.increasing, List.pairwise_singleton _ _, fun seq member last final => ?_⟩
    obtain ⟨entry, present, rfl⟩ := List.mem_map.mp member
    rw [List.mem_singleton.mp final, number]
    exact logged.below entry present
  · rcases List.mem_append.mp member with earlier | latest
    · exact logged.effect entry earlier output
    · obtain rfl := List.mem_singleton.mp latest
      exact shown output

/-- Numbering an input or a resize owes nothing to anyone. -/
theorem Valid.sent (valid : Valid vt parser session) (frame : TermFrame) (number : frame.seq = session.seq)
    (quiet : frame.direction ≠ .output) (change : ScreenChange) {screen : Parser}
    (shown : screen = replayScreen vt session.parser [change]) :
    Valid vt parser { session.numbered frame change with
      parser := screen
      sending := session.sending ++ [frame] } := by
  obtain ⟨below, increasing, effect⟩ := valid.logged.numbered number (fun output => absurd output quiet)
  refine ⟨⟨?_, below, increasing, effect, ?_, ?_⟩, fun attachment member => ?_⟩
  · simp only [numbered, List.map_append, List.map_singleton, replayScreen_append, ← valid.logged.screen]
    exact shown
  · intro reading held
    exact ⟨(valid.logged.reading reading held).1, Nat.lt_succ_of_lt (valid.logged.reading reading held).2⟩
  · intro other member
    rcases List.mem_append.mp member with earlier | latest
    · exact valid.logged.sending other earlier
    · exact List.mem_singleton.mp latest ▸ quiet
  · have follows := valid.follows attachment member
    refine ⟨Nat.le_succ_of_le follows.boundary, ?_, ?_, follows.painted⟩
    · simp only [numbered, covered_numbered follows.boundary number]
      exact follows.reflected
    · simp only [numbered, owed_numbered follows.boundary number]
      have nothing : outputFrames [frame] = [] := List.filter_eq_nil_iff.mpr (by simpa using quiet)
      rw [nothing, List.append_nil]
      exact follows.delivered

theorem Valid.ingested (valid : Valid vt parser session) (idle : session.reading = none) (frame : TermFrame)
    (number : frame.seq = session.seq) (output : frame.direction = .output) (mark : Nat) :
    Valid vt parser { session.numbered frame (.process frame.bytes) with
      parser := vt.process session.parser frame.bytes
      outputHighWater := mark
      reading := some frame } := by
  obtain ⟨below, increasing, effect⟩ := valid.logged.numbered number (fun _ => rfl)
  refine ⟨⟨?_, below, increasing, effect, ?_, valid.logged.sending⟩, fun attachment member => ?_⟩
  · simp only [numbered, List.map_append, List.map_singleton, replayScreen_append, ← valid.logged.screen]
    rfl
  · intro reading held
    cases held
    exact ⟨output, number ▸ Nat.lt_succ_self _⟩
  · have follows := valid.follows attachment member
    refine ⟨Nat.le_succ_of_le follows.boundary, ?_, ?_, follows.painted⟩
    · simp only [numbered, covered_numbered follows.boundary number]
      exact follows.reflected
    · have late : attachment.nextSeq ≤ frame.seq := number ▸ follows.boundary
      have before := follows.delivered
      rw [idle, Option.toList_none, List.append_nil] at before
      simp only [numbered, owed_numbered follows.boundary number, before, Option.toList_some, List.filter_append,
        outputFrames_append, List.filter_singleton, late, decide_true, cond_true, List.append_assoc]

/-- A broadcast moves the reader's frame into every receiver. -/
theorem Valid.broadcastOutput (valid : Valid vt parser session) {frame : TermFrame}
    (held : session.reading = some frame) :
    Valid vt parser { session.broadcast frame with reading := none } := by
  refine ⟨⟨valid.logged.screen, valid.logged.below, valid.logged.increasing, valid.logged.effect, by simp, valid.logged.sending⟩, ?_⟩
  intro attachment member
  obtain ⟨former, present, rfl⟩ := List.mem_map.mp member
  have follows := valid.follows former present
  refine ⟨follows.boundary, follows.reflected, ?_, follows.painted⟩
  have before := follows.delivered
  rw [held, Option.toList_some] at before
  simp only [broadcast, Attachment.receive, Option.toList_none, List.append_nil]
  exact before

/-- Broadcasting an input or a resize brings no output to anyone. -/
theorem Valid.broadcastSending (valid : Valid vt parser session) {position : Nat} {frame : TermFrame}
    (held : session.sending[position]? = some frame) :
    Valid vt parser { session.broadcast frame with sending := session.sending.eraseIdx position } := by
  have quiet := valid.logged.sending frame (List.mem_of_getElem? held)
  refine ⟨⟨valid.logged.screen, valid.logged.below, valid.logged.increasing, valid.logged.effect, valid.logged.reading,
    fun other member => valid.logged.sending other (List.mem_of_mem_eraseIdx member)⟩, ?_⟩
  intro attachment member
  obtain ⟨former, present, rfl⟩ := List.mem_map.mp member
  have follows := valid.follows former present
  refine ⟨follows.boundary, follows.reflected, ?_, follows.painted⟩
  have before := follows.delivered
  simp only [List.filter_append, outputFrames_append] at before
  simp only [broadcast, Attachment.receive, List.filter_append, outputFrames_append,
    outputFrames_quiet quiet, List.append_nil]
  exact before

theorem Valid.abandoned (valid : Valid vt parser session) (position : Nat) :
    Valid vt parser { session with sending := session.sending.eraseIdx position } :=
  ⟨{ valid.logged with
      sending := fun other member => valid.logged.sending other (List.mem_of_mem_eraseIdx member) },
    fun attachment member => { valid.follows attachment member with }⟩

/-- At the moment of the attach everything numbered is below the boundary. -/
theorem Valid.attached (valid : Valid vt parser session) :
    Valid vt parser { session with
      attachments := session.attachments ++
        [{ nextSeq := session.seq, snapshot := vt.contentsFormatted session.parser
           settleTarget := session.outputHighWater }] } := by
  refine ⟨{ valid.logged with }, fun attachment member => ?_⟩
  rcases List.mem_append.mp member with earlier | latest
  · exact { valid.follows attachment earlier with }
  · obtain rfl := List.mem_singleton.mp latest
    have all : session.log.filter (·.1.seq < session.seq) = session.log :=
      List.filter_eq_self.mpr fun entry present => decide_eq_true (valid.logged.below entry present)
    have none : (session.log.map (·.1)).filter (session.seq ≤ ·.seq) = [] := by
      refine List.filter_eq_nil_iff.mpr fun frame present => ?_
      obtain ⟨entry, logged, rfl⟩ := List.mem_map.mp present
      simpa using valid.logged.below entry logged
    have held : session.reading.toList.filter (session.seq ≤ ·.seq) = [] := by
      refine List.filter_eq_nil_iff.mpr fun frame present => ?_
      simpa using (valid.logged.reading frame (Option.mem_toList.mp present)).2
    refine ⟨Nat.le_refl _, ?_, ?_, fun _ painted => absurd painted (Option.not_mem_none _)⟩
    · simp only [coveredBelow, all, ← valid.logged.screen]
    · simp only [owedFrom, none, List.nil_append, held]
      rfl

/-- A turn of the forwarder skips a stale frame or delivers a live one. -/
theorem follows_forward {forwarded : Attachment} (follows : Follows vt parser session attachment)
    (taken : attachment.forward = some forwarded) : Follows vt parser session forwarded := by
  unfold Attachment.forward at taken
  split at taken
  next => cases taken
  next =>
    split at taken
    next => cases taken
    next frame rest waiting =>
      have before := follows.delivered
      rw [waiting] at before
      split at taken
      next stale =>
        cases taken
        refine ⟨follows.boundary, follows.reflected, before.trans ?_, follows.painted⟩
        have skipped : ¬ attachment.nextSeq ≤ frame.seq := Nat.not_le.mpr stale
        simp only [List.cons_append, List.filter_cons, skipped, decide_false, Bool.false_eq_true, if_false]
      next live =>
        cases taken
        refine ⟨follows.boundary, follows.reflected, before.trans ?_, follows.painted⟩
        have kept : attachment.nextSeq ≤ frame.seq := Nat.not_lt.mp live
        have split : (frame :: rest ++ session.reading.toList).filter (attachment.nextSeq ≤ ·.seq) =
            [frame] ++ (rest ++ session.reading.toList).filter (attachment.nextSeq ≤ ·.seq) :=
          List.filter_cons_of_pos (by simpa using kept)
        rw [split, outputFrames_append, ← List.append_assoc, ← outputFrames_append]

/-- A catchup is delivered once: the seed, and then the snapshot. -/
theorem deliverCatchup_eq_some {seed : List UInt8} {delivered : Attachment}
    (taken : attachment.deliverCatchup seed = some delivered) :
    attachment.catchup = none ∧ delivered = { attachment with catchup := some (seed ++ attachment.snapshot) } := by
  unfold Attachment.deliverCatchup at taken
  split at taken
  next => cases taken
  next first =>
    cases taken
    exact ⟨by simpa using first, rfl⟩

theorem Valid.changed (valid : Valid vt parser session) {position : Nat} {after : TerminalSession Parser}
    {change : Attachment → Option Attachment} (taken : session.atAttachment position change = some after)
    (kept : ∀ former changed, Follows vt parser session former → change former = some changed →
      Follows vt parser session changed) : Valid vt parser after := by
  obtain ⟨former, found, taken⟩ := Option.bind_eq_some_iff.mp taken
  obtain ⟨changed, turned, same⟩ := Option.bind_eq_some_iff.mp taken
  cases same
  refine ⟨{ valid.logged with }, fun attachment member => ?_⟩
  rcases List.mem_or_eq_of_mem_set member with earlier | rfl
  · exact { valid.follows attachment earlier with }
  · exact { kept former attachment (valid.follows former (List.mem_of_getElem? found)) turned with }

theorem Valid.start (baseSeq : Nat) : Valid vt parser (machine vt parser baseSeq).start := by
  refine ⟨⟨rfl, ?_, .nil, ?_, ?_, ?_⟩, ?_⟩ <;> simp [machine]

theorem Valid.step {after : TerminalSession Parser} {event : TerminalEvent} (valid : Valid vt parser session)
    (taken : session.step vt event = some after) : Valid vt parser after := by
  cases event with
  | ingestOutput bytes tsUs =>
    simp only [TerminalSession.step] at taken
    split at taken
    next => cases taken
    next idle =>
      cases taken
      exact valid.ingested (by simpa using idle) (session.number tsUs .output bytes) rfl rfl _
  | broadcastOutput =>
    obtain ⟨frame, held, rfl⟩ := Option.map_eq_some_iff.mp taken
    exact valid.broadcastOutput held
  | writeInput bytes tsUs =>
    cases taken
    exact valid.sent (session.number tsUs .input bytes) rfl (by simp [number]) .unchanged rfl
  | resize cols rows tsUs =>
    simp only [TerminalSession.step] at taken
    split at taken
    next => cases taken
    next =>
      cases taken
      exact valid.sent _ rfl (by simp [number]) _ rfl
  | broadcastSending position =>
    obtain ⟨frame, held, rfl⟩ := Option.map_eq_some_iff.mp taken
    exact valid.broadcastSending held
  | abandonSending position =>
    obtain ⟨frame, held, rfl⟩ := Option.map_eq_some_iff.mp taken
    exact valid.abandoned position
  | attach => cases taken; exact valid.attached
  | deliverCatchup position seed =>
    refine valid.changed taken fun former changed follows turned => ?_
    obtain ⟨-, rfl⟩ := deliverCatchup_eq_some turned
    refine { follows with painted := fun bytes painted => ?_ }
    exact ⟨seed, (Option.some.inj painted).symm⟩
  | forward position => exact valid.changed taken fun _ _ follows turned => follows_forward follows turned

theorem Valid.seamless (valid : Valid vt parser session) (attached : attachment ∈ session.attachments) :
    Seamless vt parser session attachment := by
  have ordered : ((owedFrom attachment.nextSeq session.log).map (·.seq)).Pairwise (· < ·) := by
    have sublist := (List.filter_sublist.trans List.filter_sublist :
      (owedFrom attachment.nextSeq session.log).Sublist (session.log.map (·.1))).map (·.seq)
    rw [List.map_map] at sublist
    exact valid.logged.increasing.sublist sublist
  refine { valid.follows attachment attached with ordered, divided := fun entry member output => ?_ }
  rcases Nat.lt_or_ge entry.1.seq attachment.nextSeq with below | from_
  · refine .inl ⟨List.mem_map.mpr ⟨entry, ?_, valid.logged.effect entry member output⟩, below⟩
    exact List.mem_filter.mpr ⟨member, decide_eq_true below⟩
  · have distinct : (owedFrom attachment.nextSeq session.log).Nodup :=
      List.Nodup.of_map _ (ordered.imp Nat.ne_of_lt)
    refine .inr ⟨List.count_eq_one_of_mem distinct (List.mem_filter.mpr ⟨?_, decide_eq_true output⟩), from_⟩
    exact List.mem_filter.mpr ⟨List.mem_map_of_mem member, decide_eq_true from_⟩

/-- The catchup that a step delivers is the seed and the screen below the boundary. -/
theorem Valid.catches (valid : Valid vt parser session) {position : Nat} {seed : List UInt8}
    {after : TerminalSession Parser} (taken : session.step vt (.deliverCatchup position seed) = some after) :
    ∃ attachment, session.attachments[position]? = some attachment ∧ attachment.catchup = none ∧
      after.attachments[position]? = some { attachment with catchup := some (seed ++
        vt.contentsFormatted (replayScreen vt parser (coveredBelow attachment.nextSeq session.log))) } := by
  obtain ⟨attachment, found, taken⟩ := Option.bind_eq_some_iff.mp taken
  obtain ⟨changed, turned, same⟩ := Option.bind_eq_some_iff.mp taken
  obtain ⟨first, rfl⟩ := deliverCatchup_eq_some turned
  cases same
  refine ⟨attachment, found, first, ?_⟩
  rw [← (valid.follows attachment (List.mem_of_getElem? found)).reflected]
  exact List.getElem?_set_self (List.getElem?_eq_some_iff.mp found).1

/-- As many turns of the forwarder as its receiver holds frames leave it empty. -/
theorem forward_drains (vt : Vt100 Parser) (parser : Parser) (position baseSeq : Nat) (waiting : List TermFrame)
    (found : session.attachments[position]? = some attachment) (seeded : attachment.catchup.isSome)
    (holds : attachment.receiver = waiting) :
    ∃ after drained, (machine vt parser baseSeq).run Machine.free session
        (List.replicate waiting.length (.forward position)) = some after ∧
      after.attachments[position]? = some drained ∧ drained.receiver = [] ∧
      drained.nextSeq = attachment.nextSeq ∧ after.log = session.log ∧ after.reading = session.reading := by
  induction waiting generalizing session attachment with
  | nil => exact ⟨session, attachment, rfl, found, holds, rfl, rfl, rfl⟩
  | cons frame rest ih =>
    obtain ⟨changed, turned, remaining, same, kept⟩ : ∃ changed, attachment.forward = some changed ∧
        changed.receiver = rest ∧ changed.nextSeq = attachment.nextSeq ∧ changed.catchup.isSome := by
      have running : attachment.catchup.isNone = false := by simpa using seeded
      rcases Nat.lt_or_ge frame.seq attachment.nextSeq with stale | live
      · refine ⟨{ attachment with receiver := rest }, ?_, rfl, rfl, seeded⟩
        simp only [Attachment.forward, running, Bool.false_eq_true, if_false, holds, stale, if_true]
      · refine ⟨{ attachment with receiver := rest, delivered := attachment.delivered ++ [frame] }, ?_,
          rfl, rfl, seeded⟩
        simp only [Attachment.forward, running, Bool.false_eq_true, if_false, holds, Nat.not_lt.mpr live]
    have bound := (List.getElem?_eq_some_iff.mp found).1
    let next : TerminalSession Parser :=
      { session with attachments := session.attachments.set position changed }
    have stepped : session.step vt (.forward position) = some next := by
      simp only [TerminalSession.step, atAttachment, found, turned, Option.bind_eq_bind, Option.bind_some, next]
    have placed : next.attachments[position]? = some changed := List.getElem?_set_self bound
    obtain ⟨after, drained, taken, final, empty, boundary, log, reading⟩ := ih placed kept remaining
    refine ⟨after, drained, ?_, final, empty, boundary.trans same, log, reading⟩
    simp only [List.length_cons, List.replicate_succ, Machine.run, Machine.free]
    exact Option.bind_eq_some_iff.mpr ⟨next, stepped, taken⟩

/-- Once the reader has broadcast, draining a receiver delivers all that is owed. -/
theorem Valid.drains (valid : Valid vt parser session) (position baseSeq : Nat) (idle : session.reading = none)
    (found : session.attachments[position]? = some attachment) (seeded : attachment.catchup.isSome) :
    ∃ after drained, (machine vt parser baseSeq).run Machine.free session
        (List.replicate attachment.receiver.length (.forward position)) = some after ∧
      after.attachments[position]? = some drained ∧ drained.nextSeq = attachment.nextSeq ∧
      after.log = session.log ∧ outputFrames drained.delivered = owedFrom drained.nextSeq after.log := by
  obtain ⟨after, drained, taken, final, empty, boundary, log, reading⟩ :=
    forward_drains vt parser position baseSeq attachment.receiver found seeded rfl
  refine ⟨after, drained, taken, final, boundary, log, ?_⟩
  have kept : Valid vt parser after :=
    Machine.run_preserves (Valid vt parser) (fun _ _ _ valid _ taken => valid.step taken) valid taken
  have delivered := (kept.follows drained (List.mem_of_getElem? final)).delivered
  rw [empty, reading, idle] at delivered
  rw [delivered]
  exact (List.append_nil _).symm

end TerminalSession

/-- Attaching is seamless in every run. The catchup is the seed and the screen of exactly
the frames below the boundary, and what is owed from there on is delivered in order:
all of it once the reader's broadcast is done and the forwarder has caught up. -/
theorem attach_seamless (vt : Vt100 Parser) (parser : Parser) (baseSeq : Nat) {session : TerminalSession Parser}
    (reached : (TerminalSession.machine vt parser baseSeq).Reachable Machine.free session) :
    (∀ attachment ∈ session.attachments, Seamless vt parser session attachment) ∧
    (∀ position seed after, session.step vt (.deliverCatchup position seed) = some after →
      ∃ attachment, session.attachments[position]? = some attachment ∧ attachment.catchup = none ∧
        after.attachments[position]? = some { attachment with catchup := some (seed ++
          vt.contentsFormatted (replayScreen vt parser (coveredBelow attachment.nextSeq session.log))) }) ∧
    ∀ position attachment, session.attachments[position]? = some attachment → attachment.catchup.isSome →
      ∃ events after drained, (∀ event ∈ events, event = .broadcastOutput ∨ event = .forward position) ∧
        (TerminalSession.machine vt parser baseSeq).run Machine.free session events = some after ∧
        after.attachments[position]? = some drained ∧ drained.nextSeq = attachment.nextSeq ∧
        after.log = session.log ∧ outputFrames drained.delivered = owedFrom drained.nextSeq after.log := by
  have valid := reached.invariant (TerminalSession.Valid.start baseSeq) fun _ _ _ valid _ taken => valid.step taken
  refine ⟨fun attachment attached => valid.seamless attached, fun position seed after taken => valid.catches taken,
    fun position attachment found seeded => ?_⟩
  have turns : ∀ count, ∀ event ∈ List.replicate count (TerminalEvent.forward position),
      event = .broadcastOutput ∨ event = .forward position :=
    fun count event member => .inr (List.eq_of_mem_replicate member)
  cases held : session.reading with
  | none =>
    obtain ⟨after, drained, taken, final⟩ := valid.drains position baseSeq held found seeded
    exact ⟨_, after, drained, turns _, taken, final⟩
  | some frame =>
    have placed : (session.attachments.map (·.receive frame))[position]? = some (attachment.receive frame) := by
      rw [List.getElem?_map, found, Option.map_some]
    obtain ⟨after, drained, taken, final, boundary, log, delivered⟩ :=
      (valid.broadcastOutput held).drains position baseSeq rfl placed seeded
    refine ⟨.broadcastOutput :: List.replicate (attachment.receive frame).receiver.length (.forward position), after,
      drained, fun event member => (List.mem_cons.mp member).elim .inl (turns _ event), ?_, final, boundary, log,
      delivered⟩
    have moved : session.step vt .broadcastOutput = some { session.broadcast frame with reading := none } := by
      simp only [TerminalSession.step, held, Option.map_some]
    simp only [Machine.run, Machine.free]
    exact Option.bind_eq_some_iff.mpr ⟨_, moved, taken⟩

/-- An emulator of a screen on which only plain text is printed. -/
private def plainScreen : Vt100 (List UInt8) where
  process screen bytes := screen ++ bytes
  setSize screen _ _ := screen
  contentsFormatted screen := [27, 91, 72, 27, 91, 74] ++ screen

/-- A frame numbered before the attach is broadcast after it. -/
private def lateBroadcast : TerminalSession (List UInt8) :=
  ((TerminalSession.machine plainScreen [] 0).run Machine.free { parser := [], seq := 0 }
    [.ingestOutput [104] 1, .attach, .broadcastOutput, .ingestOutput [105] 2, .broadcastOutput]).get (by decide +kernel)

private def caughtUp : TerminalSession (List UInt8) :=
  (lateBroadcast.step plainScreen (.deliverCatchup 0 [83])).get (by decide +kernel)

/-- The catchup ends with the frame that was broadcast late, and the frame is not repeated. -/
theorem attach_seamless_late :
    (∃ attachment, lateBroadcast.attachments[0]? = some attachment ∧ attachment.catchup = none ∧
      caughtUp.attachments[0]? = some { attachment with catchup := some [83, 27, 91, 72, 27, 91, 74, 104] }) ∧
    ∃ events after drained, (∀ event ∈ events, event = .broadcastOutput ∨ event = .forward 0) ∧
      (TerminalSession.machine plainScreen [] 0).run Machine.free caughtUp events = some after ∧
      after.attachments[0]? = some drained ∧ drained.nextSeq = 1 ∧ after.log = caughtUp.log ∧
      outputFrames drained.delivered = owedFrom drained.nextSeq after.log := by
  have late : (TerminalSession.machine plainScreen [] 0).Reachable Machine.free lateBroadcast :=
    .run .start (Option.some_get _).symm
  have taken : (TerminalSession.machine plainScreen [] 0).step lateBroadcast (.deliverCatchup 0 [83]) = some caughtUp :=
    (Option.some_get _).symm
  refine ⟨?_, ?_⟩
  · obtain ⟨attachment, found, first, given⟩ := (attach_seamless plainScreen [] 0 late).2.1 0 [83] caughtUp taken
    refine ⟨attachment, found, first, ?_⟩
    cases found
    exact given
  · exact (attach_seamless plainScreen [] 0 (late.step trivial taken)).2.2 0
      { nextSeq := 1, snapshot := [27, 91, 72, 27, 91, 74, 104], settleTarget := 1
        receiver := [{ seq := 0, tsUs := 1, direction := .output, bytes := [104] },
          { seq := 1, tsUs := 2, direction := .output, bytes := [105] }]
        catchup := some [83, 27, 91, 72, 27, 91, 74, 104] } (by decide +kernel) (by decide)

end Wisphive
