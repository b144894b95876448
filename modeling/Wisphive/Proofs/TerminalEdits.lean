import Wisphive.Foundation.JsonCodec
import Wisphive.TerminalEdits

/-! Replay grants that overlap, and metadata edits that overlap. -/

namespace Wisphive
open Foundation

namespace ReplayGrants
variable {requesters acl base : List String} {row : Option (Option String)} {run after : ReplayGrants} {event : GrantEvent}
  {requester other : String}

/-- The list that is written is read back. -/
theorem readAcl_writeAcl (acl : List String) : readAcl (some (writeAcl acl)) = acl := by
  have readable : Json.Readable (fun _ => none) Json.maxDepth (.array (acl.map .string)) := by
    refine Json.readableItems_of fun item member => ?_
    obtain ⟨label, _, rfl⟩ := List.mem_map.mp member
    exact trivial
  have strings : (acl.map Json.string).mapM Json.asString? = some acl :=
    Json.mapM_map_kept fun _ _ => rfl
  rw [readAcl, Option.bind_some, writeAcl, Json.parse_render readable, Option.bind_some]
  exact congrArg (Option.getD · []) strings

theorem acl_update (some_ : run.row.isSome = true) : (run.update requester acl).acl = acl ++ [requester] := by
  obtain ⟨column, row⟩ := Option.isSome_iff_exists.mp some_
  simp only [update, setPhase, ReplayGrants.acl, row, Option.map_some]
  exact readAcl_writeAcl _

/-- What a step can do. -/
theorem step_cases (taken : step requesters run event = some after) :
    (∃ requester ∈ requesters, event = .select requester ∧ run.phase requester = .called ∧ after.row = run.row ∧
      ∃ phase, after.phase = Function.update run.phase requester phase ∧
        (run.row = none ∧ phase = .returned ∨ run.row.isSome = true ∧ requester ∈ run.acl ∧ phase = .returned ∨
          run.row.isSome = true ∧ requester ∉ run.acl ∧ phase = .read run.acl)) ∨
      ∃ requester acl, event = .update requester ∧ run.phase requester = .read acl ∧ after = run.update requester acl := by
  cases event with
  | select requester =>
    rw [step] at taken
    split at taken
    · next called =>
      cases taken
      refine .inl ⟨requester, called.1, rfl, called.2, ?_⟩
      unfold select
      cases row : run.row with
      | none => exact ⟨row, _, rfl, .inl ⟨rfl, rfl⟩⟩
      | some column =>
        refine ⟨row, _, rfl, .inr ?_⟩
        rw [ReplayGrants.acl, row, Option.elim_some]
        split
        · next listed => exact .inl ⟨rfl, listed, rfl⟩
        · next missing => exact .inr ⟨rfl, missing, rfl⟩
    · cases taken
  | update requester =>
    rw [step] at taken
    split at taken
    · next acl phase =>
      cases taken
      exact .inr ⟨requester, acl, rfl, phase, rfl⟩
    · cases taken
    · cases taken

/-- The requesters of the list are those of the start and those whose calls returned. -/
def Grounded (base : List String) (run : ReplayGrants) (acl : List String) : Prop :=
  (∀ label ∈ base, label ∈ acl) ∧ ∀ label ∈ acl, label ∈ base ∨ run.phase label = .returned

/-- A list that was read lacks its reader, and it is that of the row or it lacks the requester
of a call that returned. -/
structure Reading (base : List String) (run : ReplayGrants) (requester : String) (acl : List String) : Prop where
  exists_ : run.row.isSome = true
  absent : requester ∉ acl
  grounded : Grounded base run acl
  behind : acl = run.acl ∨ ∃ writer, run.phase writer = .returned ∧ writer ∉ acl

structure Valid (requesters base : List String) (run : ReplayGrants) : Prop where
  grounded : Grounded base run run.acl
  reading : ∀ requester acl, run.phase requester = .read acl → Reading base run requester acl
  called : ∀ requester, run.phase requester ≠ .called → requester ∈ requesters

/-- Who was granted access has it. -/
def Kept (run : ReplayGrants) : Prop :=
  ∀ requester, run.phase requester = .returned → requester ∈ run.acl

theorem Grounded.select {phase : GrantPhase} (grounded : Grounded base run acl)
    (same : after.phase = Function.update run.phase requester phase) (called : run.phase requester = .called) :
    Grounded base after acl := by
  refine ⟨grounded.1, fun label member => (grounded.2 label member).imp_right fun returned => ?_⟩
  have differs : label ≠ requester := by
    intro equal
    rw [equal, called] at returned
    cases returned
  rw [same, Function.update_of_ne differs, returned]

theorem phase_update : (run.update requester acl).phase = Function.update run.phase requester .returned := rfl

theorem Grounded.update {list : List String} (grounded : Grounded base run list) :
    Grounded base (run.update requester acl) list := by
  refine ⟨grounded.1, fun label member => (grounded.2 label member).imp_right fun returned => ?_⟩
  rw [phase_update, Function.update_apply]
  split
  · rfl
  · exact returned

theorem Valid.start : Valid requesters (machine row requesters).start.acl (machine row requesters).start := by
  refine ⟨⟨fun _ member => member, fun _ member => .inl member⟩, ?_, ?_⟩
  · intro _ _ phase
    cases phase
  · intro _ phase
    exact absurd rfl phase

theorem Valid.step (valid : Valid requesters base run) (taken : ReplayGrants.step requesters run event = some after) :
    Valid requesters base after := by
  obtain ⟨requester, inside, _, called, row, phase, changed, found⟩ | ⟨requester, acl, _, phase, rfl⟩ := step_cases taken
  · have list : after.acl = run.acl := by rw [ReplayGrants.acl, row, ReplayGrants.acl]
    refine ⟨list ▸ valid.grounded.select changed called, ?_, ?_⟩
    · intro reader acl reads
      rw [changed, Function.update_apply] at reads
      split at reads
      · next same =>
        obtain ⟨_, rfl⟩ | ⟨_, _, rfl⟩ | ⟨exists_, missing, rfl⟩ := found
        · cases reads
        · cases reads
        · cases reads
          exact ⟨row ▸ exists_, same ▸ missing, valid.grounded.select changed called, .inl list.symm⟩
      · obtain ⟨exists_, absent, grounded, behind⟩ := valid.reading reader acl reads
        refine ⟨row ▸ exists_, absent, grounded.select changed called, ?_⟩
        rw [list]
        refine behind.imp_right fun ⟨writer, returned, lacks⟩ => ⟨writer, ?_, lacks⟩
        rw [changed, Function.update_of_ne, returned]
        rintro rfl
        rw [called] at returned
        cases returned
    · intro other moved
      rw [changed, Function.update_apply] at moved
      split at moved
      · next same => exact same ▸ inside
      · exact valid.called other moved
  · obtain ⟨exists_, absent, grounded, _⟩ := valid.reading requester acl phase
    have list : (run.update requester acl).acl = acl ++ [requester] := acl_update exists_
    refine ⟨?_, ?_, ?_⟩
    · rw [list]
      refine ⟨fun label member => List.mem_append_left _ (grounded.1 label member), fun label member => ?_⟩
      rcases List.mem_append.mp member with old | new
      · exact grounded.update.2 label old
      · rw [List.mem_singleton.mp new, phase_update, Function.update_self]
        exact .inr rfl
    · intro reader other reads
      rw [phase_update, Function.update_apply] at reads
      split at reads
      · cases reads
      · obtain ⟨_, lacks, based, _⟩ := valid.reading reader other reads
        refine ⟨?_, lacks, based.update, .inr ⟨requester, ?_, ?_⟩⟩
        · simpa [ReplayGrants.update, setPhase] using exists_
        · rw [phase_update, Function.update_self]
        -- a list holds only requesters of the start and of calls that returned
        · intro listed
          rcases based.2 requester listed with first | returned
          · exact absent (grounded.1 requester first)
          · rw [phase] at returned
            cases returned
    · intro other moved
      rw [phase_update, Function.update_apply] at moved
      split at moved
      · next same => exact valid.called other (by rw [same, phase]; exact GrantPhase.noConfusion)
      · exact valid.called other moved

/-- A step keeps every grant exactly where it meets the condition. -/
theorem kept_step_iff (valid : Valid requesters base run) (taken : ReplayGrants.step requesters run event = some after) :
    Kept after ↔ Kept run ∧ Undisturbed run event := by
  obtain ⟨requester, _, rfl, called, row, phase, changed, found⟩ | ⟨requester, acl, rfl, phase, rfl⟩ := step_cases taken
  · have list : after.acl = run.acl := by rw [ReplayGrants.acl, row, ReplayGrants.acl]
    have others : ∀ other, run.phase other = .returned → after.phase other = .returned := by
      intro other returned
      rw [changed, Function.update_of_ne, returned]
      rintro rfl
      rw [called] at returned
      cases returned
    constructor
    · intro kept
      refine ⟨fun other returned => list ▸ kept other (others other returned), ?_⟩
      obtain ⟨missing, rfl⟩ | ⟨exists_, _⟩ | ⟨exists_, _⟩ := found
      · have granted := kept requester (by rw [changed, Function.update_self])
        rw [list, ReplayGrants.acl, missing] at granted
        cases granted
      · exact exists_
      · exact exists_
    · rintro ⟨kept, exists_⟩ other returned
      rw [list]
      rw [changed, Function.update_apply] at returned
      split at returned
      · next same =>
        obtain ⟨missing, _⟩ | ⟨_, listed, _⟩ | ⟨_, _, rfl⟩ := found
        · rw [Undisturbed, missing] at exists_
          cases exists_
        · exact same ▸ listed
        · cases returned
      · exact kept other returned
  · obtain ⟨exists_, _, _, behind⟩ := valid.reading requester acl phase
    have list : (run.update requester acl).acl = acl ++ [requester] := acl_update exists_
    have others : ∀ other, run.phase other = .returned →
        (run.update requester acl).phase other = .returned ∧ other ≠ requester := by
      intro other returned
      have differs : other ≠ requester := by
        rintro rfl
        rw [phase] at returned
        cases returned
      exact ⟨by rw [phase_update, Function.update_of_ne differs, returned], differs⟩
    have listed : Kept (run.update requester acl) → ∀ other, run.phase other = .returned → other ∈ acl := by
      intro kept other returned
      obtain ⟨still, differs⟩ := others other returned
      have member := kept other still
      rw [list] at member
      exact (List.mem_append.mp member).resolve_right fun last => differs (List.mem_singleton.mp last)
    constructor
    · intro kept
      have same : acl = run.acl := behind.resolve_right fun ⟨writer, returned, lacks⟩ => lacks (listed kept writer returned)
      exact ⟨fun other returned => same ▸ listed kept other returned, phase.trans (congrArg _ same)⟩
    · rintro ⟨kept, met⟩ other returned
      have same : acl = run.acl := GrantPhase.read.inj (phase.symm.trans met)
      rw [list]
      rw [phase_update, Function.update_apply] at returned
      split at returned
      · next last => exact List.mem_append_right _ (List.mem_singleton.mpr last)
      · exact List.mem_append_left _ (same ▸ kept other returned)

/-- When all calls for a session have returned, every requester is on the list exactly where the
session exists and each call wrote while the list was still the one that it had read. -/
theorem replay_grants_kept_iff {events : List GrantEvent}
    (taken : (machine row requesters).run Machine.free (machine row requesters).start events = some after)
    (returned : ∀ requester ∈ requesters, after.phase requester = .returned) :
    (∀ requester ∈ requesters, requester ∈ after.acl) ↔
      (machine row requesters).run Undisturbed (machine row requesters).start events = some after := by
  have valid : Valid requesters (machine row requesters).start.acl after :=
    Machine.run_preserves _ (fun _ _ _ valid _ taken => valid.step taken) Valid.start taken
  have initial : Kept (machine row requesters).start := by
    intro _ phase
    cases phase
  have exact_ := @Machine.run_good_iff _ _ (machine row requesters) Undisturbed _
    (Valid requesters (machine row requesters).start.acl) Kept (fun _ _ _ valid taken => valid.step taken)
    (fun _ _ _ valid taken => kept_step_iff valid taken) _ _ _ Valid.start taken
  have all : Kept after ↔ ∀ requester ∈ requesters, requester ∈ after.acl := by
    constructor
    · intro kept requester member
      exact kept requester (returned requester member)
    · intro listed requester phase
      refine listed requester (valid.called requester ?_)
      rw [phase]
      exact GrantPhase.noConfusion
  rw [← all, exact_]
  exact and_iff_right initial

/-! #### Two devices -/

def devices : List String := ["human:web:dev-1", "human:web:dev-2"]

/-- Calls by both devices for a session that granted access to nobody. -/
def grants (events : List GrantEvent) : Option ReplayGrants :=
  (machine (some (some "[]")) devices).run Machine.free (machine (some (some "[]")) devices).start events

/-- One after the other. -/
def inTurn : List GrantEvent :=
  [.select "human:web:dev-1", .update "human:web:dev-1", .select "human:web:dev-2", .update "human:web:dev-2"]

/-- Both read before either writes. -/
def overlapping : List GrantEvent :=
  [.select "human:web:dev-1", .select "human:web:dev-2", .update "human:web:dev-1", .update "human:web:dev-2"]

theorem grants_returned {events : List GrantEvent}
    (decided : ((grants events).any fun after => devices.all fun device => after.phase device = .returned) = true) :
    ∃ after, grants events = some after ∧ ∀ device ∈ devices, after.phase device = .returned := by
  obtain ⟨after, taken, returned⟩ := (Option.any_eq_true _ _).mp decided
  refine ⟨after, taken, fun device member => ?_⟩
  exact of_decide_eq_true (List.all_eq_true.mp returned device member)

theorem replay_grants_kept_iff_in_turn :
    ∃ after, grants inTurn = some after ∧ ∀ device ∈ devices, device ∈ after.acl := by
  obtain ⟨after, taken, returned⟩ := @grants_returned inTurn (by decide +kernel)
  have undisturbed : ((machine (some (some "[]")) devices).run Undisturbed
      (machine (some (some "[]")) devices).start inTurn).isSome = true := by decide +kernel
  obtain ⟨other, guarded⟩ := Option.isSome_iff_exists.mp undisturbed
  have same : other = after := Option.some.inj ((Machine.run_unguarded guarded).symm.trans taken)
  exact ⟨after, taken, (replay_grants_kept_iff taken returned).mpr (same ▸ guarded)⟩

/-- The second write puts back a list that lacks the first device. -/
theorem overlapping_grant_lost :
    ∃ after, grants overlapping = some after ∧ (∀ device ∈ devices, after.phase device = .returned) ∧
      "human:web:dev-1" ∉ after.acl := by
  obtain ⟨after, taken, returned⟩ := @grants_returned overlapping (by decide +kernel)
  refine ⟨after, taken, returned, ?_⟩
  have lost : ((grants overlapping).all fun after => "human:web:dev-1" ∉ after.acl) = true := by decide +kernel
  rw [taken, Option.all_some] at lost
  exact of_decide_eq_true lost

end ReplayGrants

/-! ### Metadata -/

namespace SessionEdits
variable {state after : SessionEdits} {event : EditEvent} {call : EditCall} {id : Uuid} {data row : SessionMeta}
  {field : MetaField} {rows : Uuid → Option SessionMeta} {live : List Uuid}

theorem held_apply (edit : MetaEdit) (data : SessionMeta) (field : MetaField) :
    (edit.apply data).held field = if edit.field = field then edit else data.held field := by
  cases edit <;> cases field <;> rfl

theorem eq_of_held (same : ∀ field, data.held field = row.held field) : data = row := by
  obtain ⟨_, _, _⟩ := data
  obtain ⟨_, _, _⟩ := row
  cases same .groupName
  cases same .sortOrder
  cases same .pinned
  rfl

theorem edited_of {entries : Uuid → Option SessionMeta} (found : edited entries call id = some data) :
    ∃ old, entries id = some old ∧
      ∀ field, data.held field = if call.id = id ∧ call.edit.field = field then call.edit else old.held field := by
  rw [edited, Function.update_apply] at found
  split at found
  · next same =>
    obtain ⟨old, held, rfl⟩ := Option.map_eq_some_iff.mp found
    refine ⟨old, same ▸ held, fun field => ?_⟩
    rw [held_apply]
    simp only [same, true_and]
  · next other => exact ⟨data, found, fun field => (if_neg fun both => other both.1.symm).symm⟩

theorem edited_isSome {entries : Uuid → Option SessionMeta} : (edited entries call id).isSome = (entries id).isSome := by
  rw [edited, Function.update_apply]
  split
  · next same => rw [Option.isSome_map, same]
  · rfl

/-- A field of a live session is as in the row, or a call that is to come brings it there. -/
structure InStep (state : SessionEdits) : Prop where
  rows : ∀ id, (state.sessions id).isSome = true → (state.rows id).isSome = true
  fields : ∀ id data row, state.sessions id = some data → state.rows id = some row → ∀ field,
    data.held field = row.held field ∨ ∃ call ∈ state.pending, call.id = id ∧ call.edit = row.held field

theorem InStep.start : InStep (machine rows live).start := by
  refine ⟨?_, ?_⟩
  · intro id present
    simp only [machine] at present ⊢
    split at present
    · exact present
    · cases present
  · intro id data row session stored field
    simp only [machine] at session stored
    split at session
    · rw [stored] at session
      cases session
      exact .inl rfl
    · cases session

theorem InStep.write (inStep : InStep state) :
    InStep { state with rows := edited state.rows call, pending := state.pending ++ [call] } := by
  refine ⟨fun id present => edited_isSome.trans (inStep.rows id present), ?_⟩
  intro id data row session stored field
  obtain ⟨old, held, values⟩ := edited_of stored
  rw [values field]
  split
  · next both => exact .inr ⟨call, List.mem_append_right _ List.mem_cons_self, both.1, rfl⟩
  · refine (inStep.fields id data old session held field).imp_right ?_
    rintro ⟨other, member, same⟩
    exact ⟨other, List.mem_append_left _ member, same⟩

theorem InStep.mirror (inStep : InStep state) (timely : Timely state (.mirror call)) :
    InStep { state with sessions := edited state.sessions call, pending := state.pending.erase call } := by
  refine ⟨fun id present => inStep.rows id (edited_isSome.symm.trans present), ?_⟩
  intro id data row session stored field
  obtain ⟨old, held, values⟩ := edited_of session
  rw [values field]
  split
  · next both =>
    obtain ⟨rfl, rfl⟩ := both
    exact (timely (by rw [held]; rfl) row stored).imp_left Eq.symm
  · next other =>
    refine (inStep.fields id old row held stored field).imp_right ?_
    rintro ⟨waiting, member, same, value⟩
    refine ⟨waiting, (List.mem_erase_of_ne ?_).mpr member, same, value⟩
    rintro rfl
    refine other ⟨same, ?_⟩
    rw [value]
    cases field <;> rfl

theorem InStep.step (inStep : InStep state) (timely : Timely state event)
    (taken : SessionEdits.step state event = some after) : InStep after := by
  cases event with
  | write call =>
    cases taken
    exact inStep.write
  | mirror call =>
    rw [SessionEdits.step] at taken
    split at taken
    · cases taken
      exact inStep.mirror timely
    · cases taken

/-- In runs whose calls come in time to the live session, every live session is as its row
whenever no call is between its steps. -/
theorem metadata_in_step (reached : (machine rows live).Reachable Timely state) (returned : state.pending = [])
    (session : state.sessions id = some data) : state.rows id = some data := by
  have inStep : InStep state := reached.invariant .start fun _ _ _ inStep timely taken => inStep.step timely taken
  obtain ⟨row, stored⟩ := Option.isSome_iff_exists.mp (inStep.rows id (by rw [session]; rfl))
  have same : data = row := by
    refine eq_of_held fun field => (inStep.fields id data row session stored field).resolve_right ?_
    rintro ⟨call, member, _⟩
    rw [returned] at member
    cases member
  rw [stored, same]

/-- A field that no call is about to bring to the value of the row. -/
def Apart (state : SessionEdits) (id : Uuid) (field : MetaField) : Prop :=
  ∃ data row, state.sessions id = some data ∧ state.rows id = some row ∧ data.held field ≠ row.held field ∧
    ∀ call ∈ state.pending, call.id = id → call.edit ≠ row.held field

theorem field_held (data : SessionMeta) (field : MetaField) : (data.held field).field = field := by
  cases field <;> rfl

theorem edited_at {entries : Uuid → Option SessionMeta} (held : entries id = some data) :
    ∃ new, edited entries call id = some new ∧
      ∀ field, new.held field = if call.id = id ∧ call.edit.field = field then call.edit else data.held field := by
  have present : (edited entries call id).isSome = true := by rw [edited_isSome, held]; rfl
  obtain ⟨new, found⟩ := Option.isSome_iff_exists.mp present
  obtain ⟨old, same, values⟩ := edited_of found
  cases held.symm.trans same
  exact ⟨new, found, values⟩

/-- A call that comes late to a live session leaves the field apart. -/
theorem untimely_apart (untimely : ¬ Timely state (.mirror call)) (taken : step state (.mirror call) = some after) :
    Apart after call.id call.edit.field := by
  obtain ⟨present, late⟩ := Classical.not_imp.mp untimely
  obtain ⟨data, session⟩ := Option.isSome_iff_exists.mp present
  obtain ⟨row, stored, neither⟩ := not_forall₂.mp late
  obtain ⟨differs, nobody⟩ := not_or.mp neither
  obtain ⟨new, found, values⟩ := @edited_at call _ _ _ session
  rw [step] at taken
  split at taken
  · cases taken
    refine ⟨new, row, found, stored, ?_, fun other member same value => nobody ⟨other, member, same, value⟩⟩
    rw [values, if_pos ⟨rfl, rfl⟩]
    exact fun same => differs same.symm
  · cases taken

/-- Only a new write of the field can bring it back in step. -/
theorem Apart.step (apart : Apart state id field)
    (other : ∀ call, event = .write call → call.id = id → call.edit.field ≠ field)
    (taken : SessionEdits.step state event = some after) : Apart after id field := by
  obtain ⟨data, row, session, stored, differs, nobody⟩ := apart
  cases event with
  | write call =>
    cases taken
    obtain ⟨new, found, values⟩ := @edited_at call _ _ _ stored
    have kept : new.held field = row.held field := by
      rw [values, if_neg fun both => other call rfl both.1 both.2]
    refine ⟨data, new, session, found, kept ▸ differs, fun waiting member same => ?_⟩
    rw [kept]
    rcases List.mem_append.mp member with old | last
    · exact nobody waiting old same
    · intro value
      cases List.mem_singleton.mp last
      exact other call rfl same (value ▸ field_held row field)
  | mirror call =>
    rw [SessionEdits.step] at taken
    split at taken
    · next pending =>
      cases taken
      obtain ⟨new, found, values⟩ := @edited_at call _ _ _ session
      refine ⟨new, row, found, stored, ?_, fun waiting member => nobody waiting (List.mem_of_mem_erase member)⟩
      rw [values]
      split
      · next both => exact nobody call pending both.1
      · exact differs
    · cases taken

/-! #### One session -/

def session : Uuid := ⟨7⟩

def plain : SessionMeta where
  groupName := none
  sortOrder := 0
  pinned := false

/-- One live session. -/
def edits : Machine SessionEdits EditEvent :=
  machine (fun id => if id = session then some plain else none) [session]

/-- Calls on different fields that overlap, then a second one on the first field. -/
def apartFields : List EditEvent :=
  [.write (setGroup session (some "build")), .write (setPinned session true), .mirror (setPinned session true),
    .mirror (setGroup session (some "build")), .write (setGroup session none), .mirror (setGroup session none)]

/-- Calls on one field whose live updates come in the other order. -/
def crossing : List EditEvent :=
  [.write (setGroup session (some "build")), .write (setGroup session (some "deploy")),
    .mirror (setGroup session (some "deploy")), .mirror (setGroup session (some "build"))]

theorem metadata_in_step_fields :
    ∃ after, edits.run Timely edits.start apartFields = some after ∧
      after.sessions session = some { plain with pinned := true } ∧
        after.rows session = some { plain with pinned := true } := by
  have decided : ((edits.run Timely edits.start apartFields).any fun after =>
      after.pending = [] ∧ after.sessions session = some { plain with pinned := true }) = true := by decide +kernel
  obtain ⟨after, taken, holds⟩ := (Option.any_eq_true _ _).mp decided
  obtain ⟨returned, live⟩ := of_decide_eq_true holds
  exact ⟨after, taken, live, metadata_in_step (Machine.Reachable.start.run taken) returned live⟩

/-- The row and the live session end with different groups. -/
theorem crossing_edits_apart :
    ∃ after, edits.run Machine.free edits.start crossing = some after ∧ after.pending = [] ∧
      after.sessions session = some { plain with groupName := some "build" } ∧
        after.rows session = some { plain with groupName := some "deploy" } := by
  have decided : ((edits.run Machine.free edits.start crossing).any fun after =>
      after.pending = [] ∧ after.sessions session = some { plain with groupName := some "build" } ∧
        after.rows session = some { plain with groupName := some "deploy" }) = true := by decide +kernel
  obtain ⟨after, taken, holds⟩ := (Option.any_eq_true _ _).mp decided
  exact ⟨after, taken, of_decide_eq_true holds⟩

end SessionEdits
end Wisphive
