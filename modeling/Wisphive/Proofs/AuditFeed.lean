import Wisphive.AuditFeed
import Wisphive.Proofs.Tables

/-! Which live rows the snapshots agree with. An ingested row stays as it was written, but it
is written without the terminal of its event. -/

namespace Wisphive
open Foundation

variable {clock : TextClock} {platform : IngestPlatform} {original row : LogRow} {log : List LogRow}

/-- The log has the row, perhaps with a result by now, and no other row of its id. -/
structure LogRow.Stays (original : LogRow) (log : List LogRow) : Prop where
  present : ∃ row ∈ log, row.id = original.id
  only : ∀ row ∈ log, row.id = original.id → { row with toolResult := original.toolResult } = original

namespace LogRow.Stays

theorem insert (stays : original.Stays log) (row : LogRow) :
    original.Stays (Table.insertOrIgnore LogRow.conflicts log row).2 := by
  obtain ⟨held, member, same⟩ := stays.present
  refine ⟨⟨held, Table.mem_insertOrIgnore member, same⟩, fun other found equal => ?_⟩
  rcases Table.of_mem_insertOrIgnore found with old | ⟨rfl, clear⟩
  · exact stays.only other old equal
  · have conflict : LogRow.conflicts other held = true := decide_eq_true (.inl (equal.trans same.symm))
    rw [clear held member] at conflict
    cases conflict

/-- An update that leaves the ids alone, and of the row itself all but its result. -/
theorem update (stays : original.Stays log) {selected : LogRow → Bool} {change : LogRow → LogRow}
    (ids : ∀ row, (change row).id = row.id)
    (harmless : ∀ row, row.id = original.id → selected row = true →
      { change row with toolResult := original.toolResult } = { row with toolResult := original.toolResult }) :
    original.Stays (Table.update log selected change).2 := by
  have kept (row : LogRow) : (if selected row then change row else row).id = row.id := by
    split
    · exact ids row
    · rfl
  obtain ⟨held, member, same⟩ := stays.present
  refine ⟨⟨_, List.mem_map.mpr ⟨held, member, rfl⟩, (kept held).trans same⟩, fun row found equal => ?_⟩
  obtain ⟨before, old, rfl⟩ := List.mem_map.mp found
  rw [kept] at equal
  split
  · next chosen => exact (harmless before equal chosen).trans (stays.only before old equal)
  · exact stays.only before old equal

theorem filter (stays : original.Stays log) {keeps : LogRow → Bool}
    (spared : ∀ row, row.id = original.id → keeps row = true) : original.Stays (log.filter keeps) := by
  obtain ⟨held, member, same⟩ := stays.present
  exact ⟨⟨held, List.mem_filter.mpr ⟨member, spared held same⟩, same⟩,
    fun row found equal => stays.only row (List.mem_of_mem_filter found) equal⟩

end LogRow.Stays

namespace Database
variable {db after : Database} {now : DateTime}

theorem denyManaged_stays (stays : original.Stays db.log) {id : Uuid} (other : original.id ≠ id) (decidedBy : String) :
    original.Stays (db.denyManaged id decidedBy now).2.log := by
  refine stays.update (fun _ => rfl) fun row same chosen => ?_
  exact absurd (same.symm.trans (of_decide_eq_true (Bool.and_eq_true_iff.mp chosen).1)) other

theorem forceFailclosed_stays (stays : original.Stays db.log) {id : Uuid} (other : original.id ≠ id)
    {decidedBy : String} {fallback : DecisionRequest} {changed : Bool}
    (executed : db.forceFailclosedSpawnResolution id decidedBy fallback now = some (changed, after)) :
    original.Stays after.log := by
  obtain ⟨_, moved, _, found, rfl⟩ := forceFailclosed_cases executed
  have overwritten : original.Stays (db.denyManaged id decidedBy now).2.log := denyManaged_stays stays other decidedBy
  have first : original.Stays moved.log := by
    obtain rfl | ⟨row, _, _, _, rfl⟩ := found
    · exact overwritten
    · exact overwritten.insert _
  exact denyManaged_stays (first.insert _) other decidedBy

theorem execute_stays (stays : original.Stays db.log) {statement : Statement}
    (other : ∀ id ∈ (LogChange.execute statement now).spawn, original.id ≠ id) {reply : statement.Reply}
    (executed : statement.execute now db = some (reply, after)) : original.Stays after.log := by
  cases statement with
  | persistPending | selectPending | deletePending | pendingIsManagedSpawn | deleteManagedSpawnPending =>
    cases executed
    exact stays
  | insertResolved row decision decidedBy =>
    cases executed
    exact stays.insert _
  | resolveSpawnPendingBy id reviewed decidedBy =>
    have moved := Option.some.inj executed
    obtain same | ⟨_, _, _, _, same⟩ := @resolveSpawnPendingBy_cases db now id reviewed decidedBy
    · rw [same] at moved
      cases moved
      exact stays
    · rw [same] at moved
      cases moved
      exact stays.insert _
  | forceFailclosedSpawnResolution id decidedBy fallback => exact forceFailclosed_stays stays (other id rfl) executed
  | recordSpawnActionFailure id error =>
    cases executed
    refine stays.update (fun _ => rfl) fun row same chosen => ?_
    have equal := of_decide_eq_true (Bool.and_eq_true_iff.mp (Bool.and_eq_true_iff.mp chosen).1).1
    exact absurd (same.symm.trans equal) (other id rfl)

end Database

/-- An id that is hashed from an event is no random one. -/
theorem hashed_not_random (hash : BitVec 64) : LogChange.isRandom (AutoApprovedEntry.uuidOfHash hash) = false := by
  unfold LogChange.isRandom AutoApprovedEntry.uuidOfHash
  simp only [BitVec.getLsbD_append]
  rfl

theorem ingestLine_stays {db after : Database} {line : String} {now : DateTime} {live : Option AuditDecision}
    (stays : original.Stays db.log) (ingested : EventIngest.ingestLine platform now line db = some (live, after)) :
    original.Stays after.log := by
  obtain ⟨event, _, same⟩ := Option.map_eq_some_iff.mp ingested
  split at same
  · cases same
    exact stays
  · cases same
    exact stays.insert _

/-- A change that leaves an ingested row leaves what was written. -/
theorem LogChange.perform_stays {db after : Database} {change : LogChange} (stays : original.Stays db.log)
    (hashed : isRandom original.id = false) (leaves : Leaves original.id db change)
    (performed : change.perform platform db = some after) : original.Stays after.log := by
  obtain ⟨unpruned, random⟩ := leaves
  cases change with
  | execute statement now =>
    obtain ⟨⟨reply, final⟩, executed, rfl⟩ := Option.map_eq_some_iff.mp performed
    refine Database.execute_stays stays (fun id spawned same => ?_) executed
    rw [same, random id spawned] at hashed
    cases hashed
  | ingestLine line now =>
    obtain ⟨⟨live, final⟩, ingested, rfl⟩ := Option.map_eq_some_iff.mp performed
    exact ingestLine_stays stays ingested
  | attachToolResult id stored =>
    cases performed
    exact stays.update (fun _ => rfl) fun _ _ _ => rfl
  | prune ids =>
    cases performed
    exact stays.filter fun row same => decide_eq_true (same ▸ unpruned)

theorem LogChange.run_stays {db after : Database} {later : List LogChange} (stays : original.Stays db.log)
    (hashed : isRandom original.id = false)
    (ran : (machine platform db).run (Leaves original.id) db later = some after) : original.Stays after.log :=
  Machine.run_preserves (fun db => original.Stays db.log)
    (fun _ _ _ stays leaves performed => perform_stays stays hashed leaves performed) stays ran

namespace EventIngest
variable {db after : Database} {line : String} {now : DateTime} {live : AuditDecision} {event : Json}
  {entry : AutoApprovedEntry} {kind : AuditDecisionKind}

/-- A line that is broadcast has put its row into the log. -/
theorem ingest_inserts (ingested : ingestLine platform now line db = some (some live, after))
    (parsed : platform.fromStr line = some event) (decided : decisionEntry event = some (entry, kind)) :
    live = auditDecision platform now event entry kind ∧ (entry.row platform).Stays after.log ∧
      entry.row platform ∈ after.log := by
  unfold ingestLine at ingested
  rw [parsed, Option.map_some, decided] at ingested
  have stored : ((if (db.logAutoApproved platform entry).1 then some (auditDecision platform now event entry kind)
      else none), (db.logAutoApproved platform entry).2) = (some live, after) := Option.some.inj ingested
  have clear : Table.Clear LogRow.conflicts db.log (entry.row platform) := by
    by_contra taken
    have refused : (db.logAutoApproved platform entry).1 = false := by
      unfold Database.logAutoApproved Database.insertLog
      rw [Table.insertOrIgnore_conflict taken]
    rw [refused] at stored
    cases stored
  have inserted : db.logAutoApproved platform entry = (true, { db with log := db.log ++ [entry.row platform] }) := by
    unfold Database.logAutoApproved Database.insertLog
    rw [Table.insertOrIgnore_clear clear]
  rw [inserted] at stored
  cases stored
  have member : entry.row platform ∈ db.log ++ [entry.row platform] :=
    List.mem_append_right _ (List.mem_singleton.mpr rfl)
  refine ⟨rfl, ⟨⟨_, member, rfl⟩, fun row found same => ?_⟩, member⟩
  rcases List.mem_append.mp found with old | new
  · have conflict : LogRow.conflicts (entry.row platform) row = true := decide_eq_true (.inl same.symm)
    rw [clear row old] at conflict
    cases conflict
  · cases List.mem_singleton.mp new
    rfl

theorem kind_word (decided : decisionEntry event = some (entry, kind)) :
    entry.decision = "approve" ∧ kind = .autoApproved ∨ entry.decision = "ask" ∧ kind = .deferred ∨
      entry.decision = "deny" ∧ kind = .denied := by
  obtain ⟨⟨word, kind⟩, known, same⟩ := Option.map_eq_some_iff.mp decided
  cases same
  unfold kindOf at known
  split at known
  · cases known
    exact .inl ⟨rfl, rfl⟩
  · cases known
    exact .inr (.inl ⟨rfl, rfl⟩)
  · cases known
    exact .inr (.inr ⟨rfl, rfl⟩)
  · cases known

end EventIngest

namespace AutoApprovedEntry
variable {entry : AutoApprovedEntry} {kind : AuditDecisionKind} {event : Json} {result : Option String}

/-- The kind that is read back is the one that was broadcast. -/
theorem kind_read (decided : EventIngest.decisionEntry event = some (entry, kind)) :
    auditKindFromRow (entry.row platform).autoApproved (entry.row platform).decision entry.decidedBy = some kind ∨
      kind = .denied ∧ (∀ by_ ∈ entry.decidedBy, by_ = "human" ∨ "human:".toList <+: by_.toList) ∧
        auditKindFromRow (entry.row platform).autoApproved (entry.row platform).decision entry.decidedBy = none := by
  unfold row auditKindFromRow
  rcases EventIngest.kind_word decided with ⟨word, rfl⟩ | ⟨word, rfl⟩ | ⟨word, rfl⟩
  · exact .inl (by simp [word])
  · exact .inl (by simp [word])
  · rw [word]
    cases given : entry.decidedBy with
    | none => exact .inr ⟨rfl, fun by_ none_given => (nomatch none_given), by simp⟩
    | some by_ =>
      by_cases machine : by_ ≠ "human" ∧ ¬ "human:".toList <+: by_.toList
      · exact .inl (by simpa using machine)
      · refine .inr ⟨rfl, fun other same => ?_, by simpa using machine⟩
        cases same
        by_cases human : by_ = "human"
        · exact .inl human
        · exact .inr (not_not.mp fun other => machine ⟨human, other⟩)

theorem like_of_prefix {by_ : String} (human : "human:".toList <+: by_.toList) : likeHuman by_ = true := by
  obtain ⟨rest, same⟩ := human
  unfold likeHuman
  rw [← same]
  rfl

theorem read_stored (read : (({ entry.row platform with toolResult := result } : LogRow).auditDecision clock platform) =
    some stored) : platform.parseFromRfc3339 entry.timestamp = some stored.ts ∧
      auditKindFromRow (entry.row platform).autoApproved (entry.row platform).decision entry.decidedBy = some stored.kind ∧
      stored.decidedBy = entry.decidedBy ∧ stored.project = ⟨entry.project⟩ ∧ stored.agentId = entry.agentId ∧
      stored.terminalSessionId = none ∧ stored.toolName = entry.toolName ∧ stored.toolUseId = entry.toolUseId := by
  obtain ⟨kind, kinded, rest⟩ := Option.bind_eq_some_iff.mp read
  obtain ⟨ts, parsed, rfl⟩ := Option.map_eq_some_iff.mp rest
  refine ⟨?_, kinded, rfl, rfl, rfl, rfl, rfl, rfl⟩
  cases text : platform.parseFromRfc3339 entry.timestamp with
  | some instant => simpa [row, TextClock.text, text] using parsed
  | none => simp [row, TextClock.text, text] at parsed

/-- A denial by nobody or by a human is not selected. -/
theorem unread_hidden (decided : EventIngest.decisionEntry event = some (entry, .denied))
    (unread : ∀ by_ ∈ entry.decidedBy, likeHuman by_ = true ∨ by_ = "human") :
    ¬ ({ entry.row platform with toolResult := result } : LogRow).audited = true := by
  rcases EventIngest.kind_word decided with ⟨_, other⟩ | ⟨_, other⟩ | ⟨word, _⟩
  · cases other
  · cases other
  · unfold LogRow.audited row
    cases given : entry.decidedBy with
    | none => simp [word]
    | some by_ =>
      rcases unread by_ given with like | human
      · simp [word, like]
      · simp [word, human]

/-- A row whose kind and time can be read is returned. -/
theorem stored_read {instant : DateTime}
    (kinded : auditKindFromRow (entry.row platform).autoApproved (entry.row platform).decision entry.decidedBy = some kind)
    (time : platform.parseFromRfc3339 entry.timestamp = some instant) :
    ∃ stored, (entry.row platform).auditDecision clock platform = some stored := by
  unfold LogRow.auditDecision
  have given : (entry.row platform).decidedBy = entry.decidedBy := rfl
  have text : clock.text (entry.row platform).resolvedAt = entry.timestamp := rfl
  rw [given, kinded, text, time]
  exact ⟨_, rfl⟩

end AutoApprovedEntry

namespace AuditPage
variable {wireTime : DateTime → String} {live stored : AuditDecision} {audits items : List AuditDecision} {key : String}

theorem auditKey_agrees (agrees : live.Agrees stored) : auditKey wireTime live = auditKey wireTime stored := by
  rw [agrees]
  rfl

theorem count_merge (primary secondary : List AuditDecision) :
    (mergeAuditDecisions wireTime primary secondary).countP (auditKey wireTime · = key) =
      if key ∈ (primary ++ secondary).map (auditKey wireTime) then 1 else 0 := by
  unfold mergeAuditDecisions
  rw [(List.perm_insertionSort later _).countP_eq, Assoc.countP_firsts (List.not_mem_nil)]

/-- Once the event is shown, it stays the only one of its key. -/
theorem count_receive {message : AuditMessage} (shown : audits.countP (auditKey wireTime · = key) = 1)
    (contains : ∀ items, message = .auditSnapshot items → key ∈ items.map (auditKey wireTime))
    (unresolved : ∀ toolUseId, message ≠ .deferredResolved toolUseId) :
    (receive wireTime audits message).countP (auditKey wireTime · = key) = 1 := by
  cases message with
  | auditSnapshot items =>
    rw [receive, count_merge, if_pos]
    exact contains items rfl
  | auditDecision audit =>
    rw [receive, count_merge, if_pos]
    obtain ⟨held, member, same⟩ := List.countP_pos_iff.mp (shown ▸ Nat.one_pos)
    rw [List.map_append]
    exact List.mem_append_right _ (List.mem_map.mpr ⟨held, member, of_decide_eq_true same⟩)
  | deferredResolved toolUseId => exact absurd rfl (unresolved toolUseId)

theorem count_receiveAll {messages : List AuditMessage} (shown : audits.countP (auditKey wireTime · = key) = 1)
    (contains : ∀ items, .auditSnapshot items ∈ messages → key ∈ items.map (auditKey wireTime))
    (unresolved : ∀ toolUseId, .deferredResolved toolUseId ∉ messages) :
    (receiveAll wireTime audits messages).countP (auditKey wireTime · = key) = 1 := by
  induction messages generalizing audits with
  | nil => exact shown
  | cons message rest ih =>
    refine ih (count_receive shown ?_ ?_) ?_ ?_
    · rintro items rfl
      exact contains items (List.mem_cons_self ..)
    · rintro toolUseId rfl
      exact unresolved toolUseId (List.mem_cons_self ..)
    · exact fun items member => contains items (List.mem_cons_of_mem _ member)
    · exact fun toolUseId member => unresolved toolUseId (List.mem_cons_of_mem _ member)

/-- Rows that agree are shown as one, in whatever order they arrive. -/
theorem shown_once {messages : List AuditMessage} (agrees : live.Agrees stored)
    (delivers : Delivers live stored messages) : shown wireTime live stored (receiveAll wireTime audits messages) = 1 := by
  have same : auditKey wireTime live = auditKey wireTime stored := auditKey_agrees agrees
  have counted : shown wireTime live stored (receiveAll wireTime audits messages) =
      (receiveAll wireTime audits messages).countP (auditKey wireTime · = auditKey wireTime live) := by
    unfold shown
    simp only [← same, or_self]
  obtain ⟨before, after, split⟩ := List.append_of_mem delivers.broadcast
  rw [counted, split, receiveAll, List.foldl_append, List.foldl_cons]
  refine count_receiveAll ?_ ?_ ?_
  · rw [receive, count_merge, if_pos]
    exact List.mem_cons_self ..
  · intro items member
    rw [same]
    exact List.mem_map_of_mem (delivers.contains items (split ▸ List.mem_append_right _ (List.mem_cons_of_mem _ member)))
  · exact fun toolUseId member =>
      delivers.unresolved toolUseId (split ▸ List.mem_append_right _ (List.mem_cons_of_mem _ member))

end AuditPage

namespace EventIngest
variable {db after : Database} {line : String} {now : DateTime} {live stored : AuditDecision} {event : Json}
  {entry : AutoApprovedEntry} {kind : AuditDecisionKind}

/-- A stored row that is read back agrees with the live one, up to the terminal. -/
theorem read_agrees (decided : decisionEntry event = some (entry, kind)) {result : Option String}
    (read : ({ entry.row platform with toolResult := result } : LogRow).auditDecision clock platform = some stored) :
    (auditDecision platform now event entry kind).Agrees stored ↔
      (field event "terminal_session_id").bind platform.parseUuid = none := by
  obtain ⟨parsed, kinded, decidedBy, project, agentId, terminal, toolName, toolUseId⟩ := AutoApprovedEntry.read_stored read
  have same : kind = stored.kind := by
    rcases AutoApprovedEntry.kind_read decided with found | ⟨_, _, missing⟩
    · exact Option.some.inj (found.symm.trans kinded)
    · cases missing.symm.trans kinded
  unfold AuditDecision.Agrees auditDecision
  rw [parsed]
  cases stored
  simp only at decidedBy project agentId terminal toolName toolUseId same
  subst decidedBy project agentId terminal toolName toolUseId same
  simp

theorem visible_audited (decided : decisionEntry event = some (entry, kind))
    (readable : ¬ (kind = .denied ∧ ∀ by_ ∈ entry.decidedBy, likeHuman by_ = true ∨ by_ = "human")) :
    (entry.row platform).audited = true := by
  unfold LogRow.audited AutoApprovedEntry.row
  rcases kind_word decided with ⟨word, rfl⟩ | ⟨word, rfl⟩ | ⟨word, rfl⟩
  · simp [word]
  · simp [word]
  · cases given : entry.decidedBy with
    | none => exact absurd ⟨rfl, fun _ none_given => nomatch given.symm.trans none_given⟩ readable
    | some by_ =>
      have machine : likeHuman by_ = false ∧ by_ ≠ "human" := by
        refine ⟨Bool.eq_false_iff.mpr fun like => readable ⟨rfl, fun other same => ?_⟩, fun human => readable ⟨rfl, fun other same => ?_⟩⟩
        · cases given.symm.trans same
          exact .inl like
        · cases given.symm.trans same
          exact .inr human
      simp [word, machine.1, machine.2]

/-- A row that is to be audited is in the snapshot that reaches back to it. -/
theorem recent_all (db : Database) (since : DateTime) :
    ∃ rows, db.RecentRows clock since (db.auditRows clock since).length rows ∧
      ∀ row ∈ db.auditRows clock since, row ∈ rows := by
  have total : Std.Total fun row later : LogRow => clock.text later.resolvedAt ≤ clock.text row.resolvedAt :=
    ⟨fun row later => Std.Total.total (clock.text later.resolvedAt) (clock.text row.resolvedAt)⟩
  have transitive : IsTrans LogRow fun row later => clock.text later.resolvedAt ≤ clock.text row.resolvedAt :=
    ⟨fun _ _ _ first second => String.le_trans second first⟩
  let sorted := (db.auditRows clock since).insertionSort fun row later => clock.text later.resolvedAt ≤ clock.text row.resolvedAt
  have perm : sorted.Perm (db.auditRows clock since) := List.perm_insertionSort _ _
  refine ⟨sorted, ⟨[], ?_, ?_, ?_⟩, fun row member => perm.mem_iff.mpr member⟩
  · rw [List.append_nil]
    exact perm
  · rw [List.append_nil]
    exact List.pairwise_insertionSort _ _
  · rw [perm.length_eq, Nat.min_self]

end EventIngest

namespace AuditPage
variable {wireTime : DateTime → String} {live : AuditDecision} {db after : Database} {line : String} {now : DateTime}
  {event : Json} {entry : AutoApprovedEntry} {kind : AuditDecisionKind}

open EventIngest

/-- A live row is consistent with the snapshots exactly if its event names no terminal, or if no
snapshot returns its row at all. -/
theorem live_snapshot_agree_iff (clock : TextClock) (platform : IngestPlatform) (wireTime : DateTime → String)
    (ingested : ingestLine platform now line db = some (some live, after))
    (parsed : platform.fromStr line = some event) (decided : decisionEntry event = some (entry, kind)) :
    Consistent wireTime clock platform live (entry.row platform).id after ↔
      (field event "terminal_session_id").bind platform.parseUuid = none ∨ entry.Unreturned clock platform kind := by
  obtain ⟨rfl, stays, member⟩ := ingest_inserts ingested parsed decided
  have hashed : LogChange.isRandom (entry.row platform).id = false := hashed_not_random _
  constructor
  · intro consistent
    by_contra neither
    obtain ⟨terminal, returned⟩ := not_or.mp neither
    obtain ⟨timed, rest⟩ := not_or.mp returned
    obtain ⟨readable, reached⟩ := not_or.mp rest
    obtain ⟨since, reaches⟩ := not_forall.mp reached
    obtain ⟨rows, recent, every⟩ := @recent_all clock after since
    have selected : entry.row platform ∈ after.auditRows clock since := by
      refine List.mem_filter.mpr ⟨member, Bool.and_eq_true_iff.mpr ⟨?_, visible_audited decided readable⟩⟩
      exact decide_eq_true (not_not.mp reaches)
    cases kinded : auditKindFromRow (entry.row platform).autoApproved (entry.row platform).decision entry.decidedBy with
    | none =>
      rcases AutoApprovedEntry.kind_read decided with found | ⟨denied, human, _⟩
      · cases kinded.symm.trans found
      · refine readable ⟨denied, fun by_ given => ?_⟩
        rcases human by_ given with same | named
        · exact .inr same
        · exact .inl (AutoApprovedEntry.like_of_prefix named)
    | some found =>
      obtain ⟨instant, time⟩ := Option.ne_none_iff_exists'.mp timed
      obtain ⟨stored, read⟩ := AutoApprovedEntry.stored_read kinded time
      have agrees := (consistent [] after since _ rows _ stored rfl recent (every _ selected) rfl read).1
      exact terminal ((read_agrees decided read).mp agrees)
  · intro either changes final since limit rows row stored ran recent found same read
    have kept := LogChange.run_stays stays hashed ran
    obtain ⟨older, perm, -, -⟩ := recent
    obtain ⟨inside, chosen⟩ := List.mem_filter.mp (perm.mem_iff.mp (List.mem_append_left older found))
    have written := kept.only row inside same
    have rewritten : row = { entry.row platform with toolResult := row.toolResult } := by
      rw [← written]
    have visible := read
    rw [rewritten] at visible
    have terminal : (field event "terminal_session_id").bind platform.parseUuid = none := by
      rcases either with terminal | timed | ⟨rfl, unread⟩ | unreached
      · exact terminal
      · cases timed.symm.trans (AutoApprovedEntry.read_stored visible).1
      · have audited := (Bool.and_eq_true_iff.mp chosen).2
        rw [rewritten] at audited
        exact absurd audited (AutoApprovedEntry.unread_hidden decided unread)
      · have reaches := of_decide_eq_true (Bool.and_eq_true_iff.mp chosen).1
        rw [rewritten] at reaches
        exact absurd reaches (unreached since)
    have agrees : (auditDecision platform now event entry kind).Agrees stored := (read_agrees decided visible).mpr terminal
    exact ⟨agrees, fun audits messages delivers => shown_once agrees delivers⟩

/-- A prompt that was left to the terminal, without or with the id of a managed terminal. -/
private def promptEvent (terminal : List (String × Json)) : Json :=
  .object ([("agent_id", .string "cc-1"), ("decided_by", .string "always_ask:intrinsic"), ("event", .string "deferred")] ++
    terminal ++ [("timestamp", .string "2024-01-01T00:00:00Z"), ("tool_name", .string "AskUserQuestion"),
      ("tool_use_id", .string "toolu_1")])

private def terminalMember : List (String × Json) :=
  [("terminal_session_id", .string "00000000-0000-4000-8000-000000000007")]

private def promptPlatform (terminal : List (String × Json)) : IngestPlatform where
  fromStr line := if line = (promptEvent terminal).render then some (promptEvent terminal) else none
  finish bytes := bytes.length
  parseFromRfc3339 text := if text = "2024-01-01T00:00:00Z" then some 1704067200000000000 else none
  parseUuid text := if text = "00000000-0000-4000-8000-000000000007" then some 0x4000800000000000000007 else none

private def newYear : TextClock where
  toRfc3339 _ := "2023-12-31T23:30:00+00:00"

private def newYearWire (_ : DateTime) : String := "2024-01-01T00:00:00Z"

private def promptEntry : AutoApprovedEntry where
  agentId := "cc-1"
  agentType := "\"claude_code\""
  project := ""
  toolName := "AskUserQuestion"
  toolInput := "\x7b\x7d"
  timestamp := "2024-01-01T00:00:00Z"
  toolUseId := some "toolu_1"
  hookEventName := none
  decision := "ask"
  decidedBy := some "always_ask:intrinsic"
  configHash := none

private def promptRow (terminal : List (String × Json)) : LogRow :=
  promptEntry.row (promptPlatform terminal)

private def livePrompt (terminal : List (String × Json)) : AuditDecision :=
  auditDecision (promptPlatform terminal) 0 (promptEvent terminal) promptEntry .deferred

private theorem prompt_read (terminal : List (String × Json)) :
    (promptPlatform terminal).fromStr (promptEvent terminal).render = some (promptEvent terminal) :=
  if_pos rfl

private theorem prompt_ingested {terminal : List (String × Json)}
    (decided : decisionEntry (promptEvent terminal) = some (promptEntry, .deferred)) :
    ingestLine (promptPlatform terminal) 0 (promptEvent terminal).render {} =
      some (some (livePrompt terminal), { log := [promptRow terminal] }) := by
  unfold ingestLine
  rw [prompt_read, Option.map_some, decided]
  rfl

private theorem prompt_decided : decisionEntry (promptEvent []) = some (promptEntry, .deferred) := by
  decide +kernel

private theorem terminal_prompt_decided :
    decisionEntry (promptEvent terminalMember) = some (promptEntry, .deferred) := by
  decide +kernel

theorem live_snapshot_agree_iff_unmanaged :
    Consistent newYearWire newYear (promptPlatform []) (livePrompt []) (promptRow []).id { log := [promptRow []] } :=
  (live_snapshot_agree_iff newYear (promptPlatform []) newYearWire (prompt_ingested prompt_decided) (prompt_read [])
    prompt_decided).mpr (.inl (by decide +kernel))

private def storedPrompt : AuditDecision where
  kind := .deferred
  decidedBy := some "always_ask:intrinsic"
  project := ⟨""⟩
  agentId := "cc-1"
  terminalSessionId := none
  toolName := "AskUserQuestion"
  ts := 1704067200000000000
  toolUseId := some "toolu_1"
  resolved := some false
  toolInput := none

/-- The snapshot has lost the terminal, and the page shows the prompt twice. -/
theorem terminal_prompt_doubled :
    ingestLine (promptPlatform terminalMember) 0 (promptEvent terminalMember).render {} =
        some (some (livePrompt terminalMember), { log := [promptRow terminalMember] }) ∧
      ({ log := [promptRow terminalMember] } : Database).RecentRows newYear 0 100 [promptRow terminalMember] ∧
      (promptRow terminalMember).auditDecision newYear (promptPlatform terminalMember) = some storedPrompt ∧
      ¬ (livePrompt terminalMember).Agrees storedPrompt ∧
      shown newYearWire (livePrompt terminalMember) storedPrompt
        (receiveAll newYearWire [] [.auditSnapshot [storedPrompt], .auditDecision (livePrompt terminalMember)]) = 2 := by
  have visible : ({ log := [promptRow terminalMember] } : Database).auditRows newYear 0 = [promptRow terminalMember] := by
    decide +kernel
  refine ⟨prompt_ingested terminal_prompt_decided, ⟨[], ?_, List.pairwise_singleton .., ?_⟩, by decide +kernel,
    fun agrees => ?_, by decide +kernel⟩
  · rw [visible]
    exact .refl _
  · rw [visible]
    rfl
  · have terminals := congrArg AuditDecision.terminalSessionId agrees
    revert terminals
    decide +kernel

end AuditPage
end Wisphive
