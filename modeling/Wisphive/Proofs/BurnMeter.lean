import Wisphive.BurnMeter
import Wisphive.Foundation.Marks

/-! What the burn meter counts. Calls of one tool at one instant count as one. -/

namespace Wisphive
open Foundation Page

namespace BurnMeter

/-! ### Keys -/

theorem toDigits_injective {first second : Nat} (same : Nat.toDigits 10 first = Nat.toDigits 10 second) :
    first = second := by
  rw [← Nat.ofDigitChars_ten_toDigits (n := first), same, Nat.ofDigitChars_ten_toDigits]

theorem toString_int (value : Int) : (toString value).toList =
    (if value < 0 then ['-'] else []) ++ Nat.toDigits 10 value.natAbs := by
  cases value with
  | ofNat value =>
    rw [if_neg (by simp), List.nil_append]
    exact Nat.toList_repr
  | negSucc value =>
    rw [if_pos (Int.negSucc_lt_zero value)]
    exact (String.toList_append ..).trans (congrArg (['-'] ++ ·) Nat.toList_repr)

theorem nul_not_mem_toString (value : Int) : '\x00' ∉ (toString value).toList := by
  rw [toString_int, List.mem_append]
  rintro (sign | digit)
  · split at sign
    · cases List.mem_singleton.mp sign
    · cases sign
  · exact absurd (Nat.isDigit_of_mem_toDigits (by decide) (by decide) digit) (by decide)

theorem toString_injective {first second : Int} (same : toString first = toString second) : first = second := by
  have chars := congrArg String.toList same
  rw [toString_int, toString_int] at chars
  have dash (value : Nat) (rest : List Char) : Nat.toDigits 10 value ≠ '-' :: rest := by
    intro starts
    have member : '-' ∈ Nat.toDigits 10 value := starts ▸ List.mem_cons_self ..
    exact absurd (Nat.isDigit_of_mem_toDigits (by decide) (by decide) member) (by decide)
  split at chars <;> split at chars
  · have magnitude := toDigits_injective (List.cons.inj chars).2
    omega
  · exact absurd chars.symm (dash _ _)
  · exact absurd chars (dash _ _)
  · have magnitude := toDigits_injective chars
    omega

/-- For one agent, a key tells the tool and the time. -/
theorem callKey_injective {agentId firstTool secondTool : String} {firstMs secondMs : Int}
    (same : Draft.callKey agentId firstTool firstMs = Draft.callKey agentId secondTool secondMs) :
    firstTool = secondTool ∧ firstMs = secondMs := by
  have chars (toolName : String) (ms : Int) : (Draft.callKey agentId toolName ms).toList =
      (agentId ++ "\x00").toList ++ (toolName.toList ++ '\x00' :: (toString ms).toList) := by
    simp only [Draft.callKey, String.toList_append, List.append_assoc]
    rfl
  have tails := List.append_cancel_left ((chars firstTool firstMs).symm.trans ((congrArg String.toList same).trans
    (chars secondTool secondMs)))
  have split := Marks.around_last (nul_not_mem_toString firstMs) (nul_not_mem_toString secondMs) tails
  exact ⟨String.toList_injective split.1, toString_injective (String.toList_injective split.2)⟩

/-! ### Drafts -/

/-- An event within the window. -/
inductive Noted where
  | audit (row : Page.AuditDecision) (ms : Int)
  | touch (row : ArtifactTouch) (ms : Int)

namespace Noted

def agentId : Noted → String
  | .audit row _ => row.agentId
  | .touch row _ => row.agentId

def ms : Noted → Int
  | .audit _ ms | .touch _ ms => ms

def approved : Noted → Bool
  | .audit row _ => row.kind = .autoApproved
  | .touch _ _ => true

def key : Noted → String
  | .audit row ms => Draft.callKey row.agentId row.toolName ms
  | .touch row ms => Draft.callKey row.agentId row.toolName ms

def isArtifact : Noted → Bool
  | .audit _ _ => false
  | .touch row _ => (classifyArtifact row.toolName row.toolInput).isSome

end Noted

namespace Draft

def note (draft : Draft) : Noted → Draft
  | .audit row ms => draft.addAudit row ms
  | .touch row ms => draft.addTouch row ms

variable {draft : Draft} {events : List Noted}

@[simp] theorem noteCall_firstMs (key : String) : (draft.noteCall key).firstMs = draft.firstMs := by
  unfold noteCall; split <;> rfl

@[simp] theorem noteCall_lastMs (key : String) : (draft.noteCall key).lastMs = draft.lastMs := by
  unfold noteCall; split <;> rfl

@[simp] theorem noteCall_artifacts (key : String) : (draft.noteCall key).artifacts = draft.artifacts := by
  unfold noteCall; split <;> rfl

@[simp] theorem noteCall_artifactCalls (key : String) : (draft.noteCall key).artifactCalls = draft.artifactCalls := by
  unfold noteCall; split <;> rfl

theorem note_span (event : Noted) : (draft.note event).firstMs = (draft.noteSpan event.ms).firstMs ∧
    (draft.note event).lastMs = (draft.noteSpan event.ms).lastMs := by
  cases event with
  | audit row ms =>
    rw [note, addAudit]
    split
    · rw [noteCall_firstMs, noteCall_lastMs]; exact ⟨rfl, rfl⟩
    · exact ⟨rfl, rfl⟩
  | touch row ms =>
    rw [note, addTouch]
    split
    · exact ⟨noteCall_firstMs _, noteCall_lastMs _⟩
    · rw [noteCall_firstMs, noteCall_lastMs]; exact ⟨rfl, rfl⟩

/-- The first and the last event. -/
structure SpanOf (events : List Noted) (draft : Draft) : Prop where
  latest : ∀ event ∈ events, event.ms ≤ draft.lastMs
  last : draft.lastMs = 0 ∨ ∃ event ∈ events, event.ms = draft.lastMs
  positive : 0 ≤ draft.lastMs
  begun : draft.firstMs = none → events = []
  first : ∀ ms, draft.firstMs = some ms → (∃ event ∈ events, event.ms = ms) ∧ ∀ event ∈ events, ms ≤ event.ms

theorem SpanOf.note (span : SpanOf events draft) (event : Noted) : SpanOf (events ++ [event]) (draft.note event) := by
  obtain ⟨firstMs, lastMs⟩ := @note_span draft event
  have ended : (draft.note event).lastMs = if draft.lastMs < event.ms then event.ms else draft.lastMs := lastMs
  have newest : event ∈ events ++ [event] := List.mem_append_right _ (List.mem_singleton.mpr rfl)
  refine ⟨fun other member => ?_, ?_, ?_, fun unset => ?_, fun ms given => ?_⟩
  · rw [ended]
    rcases List.mem_append.mp member with earlier | latest
    · have bound := span.latest other earlier
      split <;> omega
    · rw [List.mem_singleton.mp latest]
      split <;> omega
  · rw [ended]
    split
    · exact .inr ⟨event, newest, rfl⟩
    · refine span.last.imp id fun found => ?_
      obtain ⟨other, member, same⟩ := found
      exact ⟨other, List.mem_append_left _ member, same⟩
  · rw [ended]
    have positive := span.positive
    split <;> omega
  · rw [firstMs, noteSpan] at unset
    split at unset
    · cases unset
    · rename_i later
      rw [unset] at later
      exact absurd rfl later
  · rw [firstMs, noteSpan] at given
    split at given
    · rename_i earlier
      cases given
      refine ⟨⟨event, newest, rfl⟩, fun other member => ?_⟩
      rcases List.mem_append.mp member with known | latest
      · cases before : draft.firstMs with
        | none =>
          rw [span.begun before] at known
          cases known
        | some ms =>
          have bound := (span.first ms before).2 other known
          rw [before, Option.all_some, decide_eq_true_eq] at earlier
          omega
      · rw [List.mem_singleton.mp latest]
    · rename_i later
      obtain ⟨⟨other, member, same⟩, bound⟩ := span.first ms given
      refine ⟨⟨other, List.mem_append_left _ member, same⟩, fun third member => ?_⟩
      rcases List.mem_append.mp member with known | latest
      · exact bound third known
      · rw [List.mem_singleton.mp latest]
        rw [given, Option.all_some, decide_eq_true_eq] at later
        omega

/-- The calls that were counted. -/
structure CallsOf (events : List Noted) (draft : Draft) : Prop where
  calls : draft.toolCalls = draft.counted.length
  nodup : draft.counted.Nodup
  counted : ∀ key, key ∈ draft.counted ↔ ∃ event ∈ events, event.approved = true ∧ event.key = key

theorem CallsOf.of_eq (calls : CallsOf events draft) {after : Draft} (counted : after.counted = draft.counted)
    (toolCalls : after.toolCalls = draft.toolCalls) : CallsOf events after :=
  ⟨by rw [toolCalls, counted, calls.calls], by rw [counted]; exact calls.nodup,
    fun key => by rw [counted]; exact calls.counted key⟩

theorem CallsOf.noteCall (calls : CallsOf events draft) {event : Noted} (approved : event.approved = true) :
    CallsOf (events ++ [event]) (draft.noteCall event.key) := by
  have known (key : String) : (∃ other ∈ events ++ [event], other.approved = true ∧ other.key = key) ↔
      key ∈ draft.counted ∨ key = event.key := by
    rw [calls.counted]
    constructor
    · rintro ⟨other, member, holds, rfl⟩
      rcases List.mem_append.mp member with earlier | latest
      · exact .inl ⟨other, earlier, holds, rfl⟩
      · exact .inr (congrArg Noted.key (List.mem_singleton.mp latest))
    · rintro (⟨other, member, holds, same⟩ | rfl)
      · exact ⟨other, List.mem_append_left _ member, holds, same⟩
      · exact ⟨event, List.mem_append_right _ (List.mem_singleton.mpr rfl), approved, rfl⟩
  unfold Draft.noteCall
  split
  next old =>
    refine ⟨calls.calls, calls.nodup, fun key => ?_⟩
    rw [known]
    exact ⟨.inl, fun either => either.elim id fun same => same ▸ old⟩
  next fresh =>
    refine ⟨?_, ?_, fun key => ?_⟩
    · rw [List.length_append, List.length_singleton, ← calls.calls]
    · refine List.nodup_append.mpr ⟨calls.nodup, List.nodup_singleton _, fun key member other last same => ?_⟩
      rw [same, List.mem_singleton.mp last] at member
      exact fresh member
    · rw [known, List.mem_append, List.mem_singleton]

theorem CallsOf.note (calls : CallsOf events draft) (event : Noted) : CallsOf (events ++ [event]) (draft.note event) := by
  cases event with
  | audit row ms =>
    rw [Draft.note, addAudit]
    split
    next approved =>
      have same : CallsOf events ((draft.noteProject row.project).noteSpan ms) := calls.of_eq rfl rfl
      have holds : (Noted.audit row ms).approved = true := decide_eq_true approved
      exact same.noteCall holds
    next other =>
      refine ⟨calls.calls, calls.nodup, fun key => (calls.counted key).trans ?_⟩
      constructor
      · rintro ⟨event, member, holds⟩
        exact ⟨event, List.mem_append_left _ member, holds⟩
      · rintro ⟨event, member, holds, same⟩
        rcases List.mem_append.mp member with earlier | latest
        · exact ⟨event, earlier, holds, same⟩
        · rw [List.mem_singleton.mp latest] at holds
          exact absurd (of_decide_eq_true holds) other
  | touch row ms =>
    have same : CallsOf events ((draft.noteProject row.project).noteSpan ms) := calls.of_eq rfl rfl
    have holds : (Noted.touch row ms).approved = true := rfl
    have counted := same.noteCall holds
    rw [Draft.note, addTouch]
    split
    · exact counted.of_eq rfl rfl
    · exact counted

/-- The touches that are artifacts. -/
structure ArtifactsOf (events : List Noted) (draft : Draft) : Prop where
  calls : draft.artifactCalls = events.countP Noted.isArtifact
  none : draft.artifacts = [] ↔ draft.artifactCalls = 0

theorem ArtifactsOf.note (artifacts : ArtifactsOf events draft) (event : Noted) :
    ArtifactsOf (events ++ [event]) (draft.note event) := by
  have count : (events ++ [event]).countP Noted.isArtifact =
      events.countP Noted.isArtifact + if event.isArtifact then 1 else 0 := by
    rw [List.countP_append, List.countP_singleton]
  cases event with
  | audit row ms =>
    have same : (draft.note (.audit row ms)).artifacts = draft.artifacts ∧
        (draft.note (.audit row ms)).artifactCalls = draft.artifactCalls := by
      rw [Draft.note, addAudit]
      split
      · rw [noteCall_artifacts, noteCall_artifactCalls]; exact ⟨rfl, rfl⟩
      · exact ⟨rfl, rfl⟩
    refine ⟨?_, ?_⟩
    · rw [same.2, artifacts.calls, count]
      rfl
    · rw [same.1, same.2, artifacts.none]
  | touch row ms =>
    rw [Draft.note, addTouch]
    split
    next kind label found =>
      have isArtifact : (Noted.touch row ms).isArtifact = true := by
        rw [Noted.isArtifact, found]
        rfl
      refine ⟨?_, ?_⟩
      · rw [count, isArtifact, ← artifacts.calls, noteArtifact, noteCall_artifactCalls]
        rfl
      · rw [noteArtifact]
        refine iff_of_false ?_ (Nat.succ_ne_zero _)
        rw [Assoc.set]
        split
        · rename_i present
          intro empty
          rw [List.map_eq_nil_iff] at empty
          rw [empty] at present
          cases present
        · exact List.append_ne_nil_of_right_ne_nil _ (List.cons_ne_nil _ _)
    next found =>
      have isArtifact : (Noted.touch row ms).isArtifact = false := by
        rw [Noted.isArtifact, found]
        rfl
      refine ⟨?_, ?_⟩
      · rw [count, isArtifact, ← artifacts.calls, noteCall_artifactCalls]
        rfl
      · rw [noteCall_artifacts, noteCall_artifactCalls]
        exact artifacts.none

/-- What a draft holds once it has seen events. -/
structure Holds (events : List Noted) (draft : Draft) : Prop where
  span : SpanOf events draft
  calls : CallsOf events draft
  artifacts : ArtifactsOf events draft

theorem holds_foldl (events : List Noted) : Holds events (events.foldl note {}) := by
  induction events using List.reverseRecOn with
  | nil =>
    refine ⟨⟨fun _ member => (nomatch member), .inl rfl, le_rfl, fun _ => rfl, fun _ given => (nomatch given)⟩,
      ⟨rfl, List.nodup_nil, fun key => ?_⟩, ⟨rfl, iff_of_true rfl rfl⟩⟩
    exact iff_of_false List.not_mem_nil fun ⟨_, member, _⟩ => nomatch member
  | append_singleton events event ih =>
    rw [List.foldl_append]
    exact ⟨ih.span.note event, ih.calls.note event, ih.artifacts.note event⟩

/-- A draft without what sessions add to it. -/
def spend (draft : Draft) : Draft :=
  { draft with project := none, agentType := none }

end Draft

variable {getTime : String → Option Int}

/-- The events within the window, in the order in which they are noted. -/
def noted (getTime : String → Option Int) (inputs : BurnInputs) : List Noted :=
  inputs.auditDecisions.filterMap (fun row => (windowed getTime inputs.nowMs row.ts).map (.audit row)) ++
    inputs.touches.filterMap fun row => (windowed getTime inputs.nowMs row.ts).map (.touch row)

theorem folded_eq (inputs : BurnInputs) :
    inputs.touches.foldl (noteTouch getTime inputs.nowMs) (inputs.auditDecisions.foldl (noteAudit getTime inputs.nowMs) []) =
      Grouping.collect Noted.agentId (fun _ => {}) Draft.note [] (noted getTime inputs) := by
  have audits (rows : List Page.AuditDecision) (before : Drafts) : rows.foldl (noteAudit getTime inputs.nowMs) before =
      Grouping.collect Noted.agentId (fun _ => {}) Draft.note before
        (rows.filterMap fun row => (windowed getTime inputs.nowMs row.ts).map (.audit row)) := by
    rw [Grouping.collect, List.foldl_filterMap]
    congr 1
    funext drafts row
    rw [noteAudit]
    cases windowed getTime inputs.nowMs row.ts <;> rfl
  have touches (rows : List ArtifactTouch) (before : Drafts) : rows.foldl (noteTouch getTime inputs.nowMs) before =
      Grouping.collect Noted.agentId (fun _ => {}) Draft.note before
        (rows.filterMap fun row => (windowed getTime inputs.nowMs row.ts).map (.touch row)) := by
    rw [Grouping.collect, List.foldl_filterMap]
    congr 1
    funext drafts row
    rw [noteTouch]
    cases windowed getTime inputs.nowMs row.ts <;> rfl
  rw [audits, touches, noted, Grouping.collect, Grouping.collect, Grouping.collect, List.foldl_append]

theorem noteSession_spend {drafts : Drafts} (keyed : Assoc.Keyed drafts) (session : SessionSummary) :
    Assoc.Keyed (noteSession drafts session) ∧
      ∀ agentId, ((noteSession drafts session).lookup agentId).map Draft.spend = (drafts.lookup agentId).map Draft.spend := by
  rw [noteSession]
  split
  next => exact ⟨keyed, fun _ => rfl⟩
  next draft found =>
    refine ⟨keyed.set _ _, fun agentId => ?_⟩
    rw [Assoc.lookup_set]
    split
    next same =>
      rw [same, found]
      rfl
    next => rfl

theorem noteSessions_spend {drafts : Drafts} (keyed : Assoc.Keyed drafts) (sessions : List SessionSummary) :
    Assoc.Keyed (sessions.foldl noteSession drafts) ∧
      ∀ agentId, ((sessions.foldl noteSession drafts).lookup agentId).map Draft.spend =
        (drafts.lookup agentId).map Draft.spend := by
  induction sessions generalizing drafts with
  | nil => exact ⟨keyed, fun _ => rfl⟩
  | cons session sessions ih =>
    obtain ⟨stays, same⟩ := noteSession_spend keyed session
    obtain ⟨last, equal⟩ := ih stays
    exact ⟨last, fun agentId => (equal agentId).trans (same agentId)⟩

/-- The events of an agent. -/
def seen (getTime : String → Option Int) (inputs : BurnInputs) (agentId : String) : List Noted :=
  (noted getTime inputs).filter (·.agentId = agentId)

theorem keyed_drafts (inputs : BurnInputs) : Assoc.Keyed (drafts getTime inputs) := by
  rw [drafts, folded_eq]
  exact (noteSessions_spend Grouping.keyed_collect _).1

/-- The draft of an agent is there when the agent was seen, and holds its events. -/
theorem lookup_drafts (inputs : BurnInputs) (agentId : String) :
    ((drafts getTime inputs).lookup agentId).map Draft.spend =
      if seen getTime inputs agentId = [] then none
      else some ((seen getTime inputs agentId).foldl Draft.note {}).spend := by
  rw [drafts, folded_eq, (noteSessions_spend Grouping.keyed_collect _).2, Grouping.collect_eq,
    Grouping.lookup_map_keys]
  simp only [Grouping.mem_keys]
  have absent : agentId ∉ (noted getTime inputs).map Noted.agentId ↔ seen getTime inputs agentId = [] := by
    rw [seen, List.filter_eq_nil_iff, List.mem_map]
    constructor
    · intro absent event member same
      exact absent ⟨event, member, of_decide_eq_true same⟩
    · rintro none ⟨event, member, same⟩
      exact none event member (decide_eq_true same)
  by_cases none : seen getTime inputs agentId = []
  · rw [if_pos none, if_neg (absent.mpr none)]
    rfl
  · rw [if_neg none, if_pos (not_not.mp (mt absent.mp none))]
    rfl

/-- The row of an agent is made of its draft. -/
theorem rows_eq (inputs : BurnInputs) (agentId : String) :
    (deriveBurn getTime inputs).rows agentId = (((drafts getTime inputs).lookup agentId).bind (burnSession agentId)).toList := by
  have named {name : String} {draft : Draft} {row : BurnSession} (made : burnSession name draft = some row) :
      row.agentId = name := by
    rw [burnSession] at made
    split at made
    · cases made
    · rw [← Option.some.inj made]
  have only : (burnSessions getTime inputs).filter (·.agentId = agentId) =
      (((drafts getTime inputs).lookup agentId).bind (burnSession agentId)).toList := by
    have swap : (burnSessions getTime inputs).filter (·.agentId = agentId) =
        ((drafts getTime inputs).filter (·.1 = agentId)).filterMap fun draft => burnSession draft.1 draft.2 := by
      rw [burnSessions, List.filter_filterMap, List.filterMap_filter]
      congr 1
      funext draft
      cases made : burnSession draft.1 draft.2 with
      | none => split <;> rfl
      | some row => rw [Option.filter_some, named made]
    rw [swap, (keyed_drafts inputs).filter_key]
    cases (drafts getTime inputs).lookup agentId with
    | none => rfl
    | some draft =>
      cases made : burnSession agentId draft with
      | none => simp [made]
      | some row => simp [made]
  have all : ((deriveBurn getTime inputs).rows agentId).Perm ((burnSessions getTime inputs).filter (·.agentId = agentId)) :=
    Grouping.flatMap_arrange_perm.filter _
  rw [only] at all
  cases made : ((drafts getTime inputs).lookup agentId).bind (burnSession agentId) with
  | none =>
    rw [made] at all
    exact all.eq_nil
  | some row =>
    rw [made] at all
    exact all.eq_singleton

/-- The figures that are told apart. -/
def figures (row : BurnSession) : Nat × Nat × Bool :=
  (row.toolCalls, row.artifactCalls, row.deadRun)

/-- The activity span of a draft. -/
def Draft.activeSpan (draft : Draft) : Int :=
  match draft.firstMs with
  | some firstMs => max 0 (draft.lastMs - firstMs)
  | none => 0

theorem figures_burnSession (agentId : String) (draft : Draft) :
    (burnSession agentId draft).map figures =
      if draft.lastMs = 0 then none
      else some (draft.toolCalls, draft.artifactCalls,
        decide (deadRunMinToolCalls ≤ draft.toolCalls ∧ deadRunMinActiveMs ≤ draft.activeSpan ∧ draft.artifacts = [])) := by
  have sorted : (draft.artifacts.map Prod.snd).mergeSort (fun a b => b.lastTsMs ≤ a.lastTsMs) = [] ↔ draft.artifacts = [] := by
    rw [← List.length_eq_zero_iff, List.length_mergeSort, List.length_map, List.length_eq_zero_iff]
  rw [burnSession]
  split
  · rfl
  · simp only [Option.map_some, figures, sorted]
    rfl

/-- The rows of an agent by the events that were seen of it. -/
theorem rows_figures (inputs : BurnInputs) (agentId : String) :
    ((deriveBurn getTime inputs).rows agentId).map figures =
      (if seen getTime inputs agentId = [] then none
        else (burnSession agentId ((seen getTime inputs agentId).foldl Draft.note {})).map figures).toList := by
  have spent (draft : Draft) : (burnSession agentId draft).map figures = (burnSession agentId draft.spend).map figures := by
    rw [figures_burnSession, figures_burnSession]
    rfl
  have found := @lookup_drafts getTime inputs agentId
  rw [rows_eq, ← Option.toList_map, Option.map_bind]
  congr 1
  split at found
  next none =>
    rw [if_pos none, Option.map_eq_none_iff.mp found]
    rfl
  next some =>
    obtain ⟨draft, held, same⟩ := Option.map_eq_some_iff.mp found
    rw [if_neg some, held, Option.bind_some, Function.comp_apply, spent, same, ← spent]

end BurnMeter

namespace CallLog
open BurnMeter
variable {getTime : String → Option Int} {Call : Type} (log : CallLog getTime Call) (sessions : List SessionSummary)
  (nowMs : Int) (agentId : String)

/-- When a call was made, if that is known. -/
def stamp (call : Call) : Int :=
  (log.made call).instant.getD 0

variable {log nowMs agentId} in
theorem instant_of_counts {call : Call} (counts : log.counts nowMs agentId call = true) :
    (log.made call).agentId = agentId ∧ (log.made call).instant = some (log.stamp call) ∧
      inWindow nowMs (log.stamp call) = true := by
  rw [CallLog.counts, Bool.and_eq_true, decide_eq_true_eq] at counts
  obtain ⟨own, within⟩ := counts
  rw [stamp]
  cases instant : (log.made call).instant with
  | none =>
    rw [instant] at within
    cases within
  | some ms =>
    rw [instant] at within
    exact ⟨own, rfl, within⟩

/-- A row counts as its call does. -/
theorem windowed_eq {call : Call} {ts : String} (instant : getTime ts = (log.made call).instant)
    {event : Int → Noted} (own : ∀ ms, (event ms).agentId = (log.made call).agentId) :
    ((windowed getTime nowMs ts).map event).filter (·.agentId = agentId) =
      if log.counts nowMs agentId call then some (event (log.stamp call)) else none := by
  rw [windowed, instant, CallLog.counts, stamp]
  cases (log.made call).instant with
  | none => simp
  | some ms =>
    rw [Option.filter_some, Option.any_some, Option.getD_some]
    by_cases within : inWindow nowMs ms = true
    · rw [if_pos within, within, Bool.and_true, Option.map_some, Option.filter_some, own]
    · rw [if_neg within, Bool.eq_false_iff.mpr within, Bool.and_false]
      rfl

/-- The events of an agent are the rows of its calls within the window. -/
theorem seen_eq : seen getTime (log.inputs sessions nowMs) agentId =
    (log.audits.filterMap fun entry =>
      if log.counts nowMs agentId entry.1 then some (.audit entry.2 (log.stamp entry.1)) else none) ++
    log.touches.filterMap fun entry =>
      if log.counts nowMs agentId entry.1 then some (.touch entry.2 (log.stamp entry.1)) else none := by
  rw [seen, noted, List.filter_append, List.filter_filterMap, List.filter_filterMap]
  simp only [inputs, List.filterMap_map]
  congr 1
  · refine List.filterMap_congr fun entry member => ?_
    obtain ⟨own, _, instant⟩ := log.audited entry member
    exact log.windowed_eq nowMs agentId instant fun _ => own
  · refine List.filterMap_congr fun entry member => ?_
    obtain ⟨own, _, instant, _⟩ := log.touched entry member
    exact log.windowed_eq nowMs agentId instant fun _ => own

theorem mem_observed (ms : Int) : ms ∈ log.observed nowMs agentId ↔
    ∃ event ∈ seen getTime (log.inputs sessions nowMs) agentId, event.ms = ms := by
  have listed : ms ∈ log.observed nowMs agentId ↔
      ∃ call ∈ log.audits.map Prod.fst ++ log.touches.map Prod.fst, log.counts nowMs agentId call = true ∧
        log.stamp call = ms := by
    rw [observed, List.mem_filterMap]
    constructor
    · rintro ⟨call, member, instant⟩
      rw [List.mem_filter] at member
      exact ⟨call, member.1, member.2, by rw [stamp, instant]; rfl⟩
    · rintro ⟨call, member, counts, rfl⟩
      exact ⟨call, List.mem_filter.mpr ⟨member, counts⟩, (instant_of_counts counts).2.1⟩
  rw [listed, seen_eq]
  constructor
  · rintro ⟨call, member, counts, rfl⟩
    rcases List.mem_append.mp member with audited | touched
    · obtain ⟨entry, inside, rfl⟩ := List.mem_map.mp audited
      exact ⟨_, List.mem_append_left _ (List.mem_filterMap.mpr ⟨entry, inside, if_pos counts⟩), rfl⟩
    · obtain ⟨entry, inside, rfl⟩ := List.mem_map.mp touched
      exact ⟨_, List.mem_append_right _ (List.mem_filterMap.mpr ⟨entry, inside, if_pos counts⟩), rfl⟩
  · rintro ⟨event, member, rfl⟩
    rcases List.mem_append.mp member with audited | touched
    · obtain ⟨entry, member, made⟩ := List.mem_filterMap.mp audited
      rw [Option.ite_none_right_eq_some] at made
      obtain ⟨counts, same⟩ := made
      rw [← Option.some.inj same]
      exact ⟨entry.1, List.mem_append_left _ (List.mem_map_of_mem member), counts, rfl⟩
    · obtain ⟨entry, member, made⟩ := List.mem_filterMap.mp touched
      rw [Option.ite_none_right_eq_some] at made
      obtain ⟨counts, same⟩ := made
      rw [← Option.some.inj same]
      exact ⟨entry.1, List.mem_append_right _ (List.mem_map_of_mem member), counts, rfl⟩

theorem artifactTouches_eq : log.artifactTouches nowMs agentId =
    (seen getTime (log.inputs sessions nowMs) agentId).countP Noted.isArtifact := by
  have audits : (log.audits.filterMap fun entry => if log.counts nowMs agentId entry.1 then
      some (Noted.audit entry.2 (log.stamp entry.1)) else none).countP Noted.isArtifact = 0 := by
    refine List.countP_eq_zero.mpr fun event member artifact => ?_
    obtain ⟨entry, _, made⟩ := List.mem_filterMap.mp member
    rw [Option.ite_none_right_eq_some] at made
    rw [← Option.some.inj made.2] at artifact
    cases artifact
  rw [seen_eq, List.countP_append, audits, Nat.zero_add, artifactTouches, List.countP_map, List.countP_filterMap]
  refine List.countP_congr fun entry member => ?_
  obtain ⟨_, tool, _, input⟩ := log.touched entry member
  rw [Function.comp_apply, isArtifact]
  cases counts : log.counts nowMs agentId entry.1 with
  | false => simp
  | true => simp [Noted.isArtifact, tool, input]

/-- The key under which a call of the agent is counted. -/
def key (call : Call) : String :=
  Draft.callKey agentId (log.made call).toolName (log.stamp call)

variable [DecidableEq Call]

theorem mem_approved {call : Call} : call ∈ log.approved nowMs agentId ↔
    ((∃ row, (call, row) ∈ log.audits ∧ row.kind = .autoApproved) ∨ ∃ row, (call, row) ∈ log.touches) ∧
      log.counts nowMs agentId call = true := by
  rw [approved, Finset.mem_filter, List.mem_toFinset, List.mem_append, List.mem_map, List.mem_map]
  simp

omit [DecidableEq Call] in
theorem audit_key {entry : Call × Page.AuditDecision} (member : entry ∈ log.audits)
    (counts : log.counts nowMs agentId entry.1 = true) :
    (Noted.audit entry.2 (log.stamp entry.1)).key = log.key agentId entry.1 := by
  obtain ⟨agent, tool, _⟩ := log.audited entry member
  rw [Noted.key, CallLog.key, agent, tool, (instant_of_counts counts).1]

omit [DecidableEq Call] in
theorem touch_key {entry : Call × ArtifactTouch} (member : entry ∈ log.touches)
    (counts : log.counts nowMs agentId entry.1 = true) :
    (Noted.touch entry.2 (log.stamp entry.1)).key = log.key agentId entry.1 := by
  obtain ⟨agent, tool, _⟩ := log.touched entry member
  rw [Noted.key, CallLog.key, agent, tool, (instant_of_counts counts).1]

/-- The keys of the approved calls are those of the approved events. -/
theorem mem_keys (key : String) : key ∈ (log.approved nowMs agentId).image (log.key agentId) ↔
    ∃ event ∈ seen getTime (log.inputs sessions nowMs) agentId, event.approved = true ∧ event.key = key := by
  rw [Finset.mem_image, seen_eq]
  constructor
  · rintro ⟨call, member, rfl⟩
    obtain ⟨listed, counts⟩ := log.mem_approved nowMs agentId |>.mp member
    rcases listed with ⟨row, member, approved⟩ | ⟨row, member⟩
    · exact ⟨_, List.mem_append_left _ (List.mem_filterMap.mpr ⟨_, member, if_pos counts⟩), decide_eq_true approved,
        log.audit_key nowMs agentId member counts⟩
    · exact ⟨_, List.mem_append_right _ (List.mem_filterMap.mpr ⟨_, member, if_pos counts⟩), rfl,
        log.touch_key nowMs agentId member counts⟩
  · rintro ⟨event, member, approved, rfl⟩
    rcases List.mem_append.mp member with audited | touched
    · obtain ⟨⟨call, row⟩, member, made⟩ := List.mem_filterMap.mp audited
      rw [Option.ite_none_right_eq_some] at made
      obtain ⟨counts, same⟩ := made
      rw [← Option.some.inj same] at approved ⊢
      have listed := (log.mem_approved nowMs agentId).mpr ⟨.inl ⟨row, member, of_decide_eq_true approved⟩, counts⟩
      exact ⟨call, listed, (log.audit_key nowMs agentId member counts).symm⟩
    · obtain ⟨⟨call, row⟩, member, made⟩ := List.mem_filterMap.mp touched
      rw [Option.ite_none_right_eq_some] at made
      obtain ⟨counts, same⟩ := made
      rw [← Option.some.inj same]
      have listed := (log.mem_approved nowMs agentId).mpr ⟨.inr ⟨row, member⟩, counts⟩
      exact ⟨call, listed, (log.touch_key nowMs agentId member counts).symm⟩

/-- Calls have a key of their own when no two of one tool are at one instant. -/
theorem card_keys_iff :
    ((log.approved nowMs agentId).image (log.key agentId)).card = (log.approved nowMs agentId).card ↔
      ∀ first ∈ log.approved nowMs agentId, ∀ second ∈ log.approved nowMs agentId,
        (log.made first).toolName = (log.made second).toolName → (log.made first).instant = (log.made second).instant →
          first = second := by
  rw [Finset.card_image_iff]
  constructor
  · intro injective first member second other tool instant
    refine injective member other ?_
    rw [CallLog.key, CallLog.key, stamp, stamp, tool, instant]
  · intro apart first member second other same
    obtain ⟨tool, ms⟩ := callKey_injective same
    refine apart first member second other tool ?_
    rw [(instant_of_counts ((log.mem_approved nowMs agentId).mp member).2).2.1,
      (instant_of_counts ((log.mem_approved nowMs agentId).mp other).2).2.1, ms]

/-- What the draft of the agent's events says about its calls. -/
structure Tells (draft : Draft) : Prop where
  calls : draft.toolCalls = ((log.approved nowMs agentId).image (log.key agentId)).card
  artifactCalls : draft.artifactCalls = log.artifactTouches nowMs agentId
  none : draft.artifacts = [] ↔ draft.artifactCalls = 0
  shown : draft.lastMs ≠ 0 ↔ ∃ ms ∈ log.observed nowMs agentId, 0 < ms
  spans : draft.lastMs ≠ 0 → (deadRunMinActiveMs ≤ draft.activeSpan ↔ log.Spans nowMs agentId)

theorem tells : log.Tells nowMs agentId
    ((seen getTime (log.inputs sessions nowMs) agentId).foldl Draft.note {}) := by
  obtain ⟨span, calls, artifacts⟩ := Draft.holds_foldl (seen getTime (log.inputs sessions nowMs) agentId)
  refine ⟨?_, ?_, artifacts.none, ?_, fun shown => ?_⟩
  · rw [calls.calls, ← List.toFinset_card_of_nodup calls.nodup]
    congr 1
    ext key
    rw [List.mem_toFinset, calls.counted, mem_keys log sessions]
  · rw [artifacts.calls, artifactTouches_eq log sessions]
  · simp only [mem_observed log sessions]
    constructor
    · intro nonzero
      obtain ⟨event, member, same⟩ := span.last.resolve_left nonzero
      have positive := span.positive
      exact ⟨_, ⟨event, member, rfl⟩, by omega⟩
    · rintro ⟨ms, ⟨event, member, rfl⟩, positive⟩ zero
      have bound := span.latest event member
      omega
  · obtain ⟨latest, member, newest⟩ := span.last.resolve_left shown
    rw [Draft.activeSpan, Spans]
    cases first : ((seen getTime (log.inputs sessions nowMs) agentId).foldl Draft.note {}).firstMs with
    | none =>
      rw [span.begun first] at member
      cases member
    | some ms =>
      obtain ⟨⟨earliest, start, oldest⟩, bound⟩ := span.first ms first
      have floor : 0 < deadRunMinActiveMs := by decide
      simp only [mem_observed log sessions]
      constructor
      · intro long
        refine ⟨_, ⟨earliest, start, rfl⟩, _, ⟨latest, member, rfl⟩, ?_⟩
        rw [newest, oldest]
        omega
      · rintro ⟨_, ⟨one, among, rfl⟩, _, ⟨other, within, rfl⟩, long⟩
        have lower := bound one among
        have upper := span.latest other within
        omega

theorem artifactTouches_zero (nothing : ∀ call ∈ log.approved nowMs agentId, log.isArtifact call = false) :
    log.artifactTouches nowMs agentId = 0 := by
  refine List.countP_eq_zero.mpr fun call member holds => ?_
  rw [Bool.and_eq_true] at holds
  obtain ⟨entry, listed, rfl⟩ := List.mem_map.mp member
  rw [nothing entry.1 ((log.mem_approved nowMs agentId).mpr ⟨.inr ⟨entry.2, listed⟩, holds.1⟩)] at holds
  cases holds.2

/-- The figures of the agent: none where it was not seen after the epoch. -/
theorem row_figures : ((deriveBurn getTime (log.inputs sessions nowMs)).rows agentId).map figures = [] ∧
      (¬ ∃ ms ∈ log.observed nowMs agentId, 0 < ms) ∨
    ∃ dead, ((deriveBurn getTime (log.inputs sessions nowMs)).rows agentId).map figures =
        [(((log.approved nowMs agentId).image (log.key agentId)).card, log.artifactTouches nowMs agentId, dead)] ∧
      (dead = true ↔ deadRunMinToolCalls ≤ ((log.approved nowMs agentId).image (log.key agentId)).card ∧
        log.Spans nowMs agentId ∧ log.artifactTouches nowMs agentId = 0) ∧
      ∃ ms ∈ log.observed nowMs agentId, 0 < ms := by
  have tells := log.tells sessions nowMs agentId
  rw [rows_figures]
  by_cases none : seen getTime (log.inputs sessions nowMs) agentId = []
  · rw [if_pos none]
    refine .inl ⟨rfl, fun ⟨ms, member, _⟩ => ?_⟩
    obtain ⟨event, inside, _⟩ := (mem_observed log sessions nowMs agentId ms).mp member
    rw [none] at inside
    cases inside
  · rw [if_neg none, figures_burnSession]
    split
    next zero => exact .inl ⟨rfl, fun shown => tells.shown.mpr shown zero⟩
    next nonzero =>
      rw [tells.calls, tells.artifactCalls]
      refine .inr ⟨_, rfl, ?_, tells.shown.mp nonzero⟩
      rw [decide_eq_true_eq, tells.spans nonzero, tells.none, tells.artifactCalls]

/-- The meter is right about an agent exactly where its calls can be told apart. -/
theorem spend_exact_iff : log.Counted sessions nowMs agentId ↔ log.Discernible nowMs agentId := by
  have sums (project : BurnSession → Nat) (part : Nat × Nat × Bool → Nat) (same : ∀ row, project row = part (figures row)) :
      (((deriveBurn getTime (log.inputs sessions nowMs)).rows agentId).map project).sum =
        ((((deriveBurn getTime (log.inputs sessions nowMs)).rows agentId).map figures).map part).sum := by
    rw [List.map_map]
    congr 1
    exact List.map_congr_left fun row _ => same row
  have calls := sums (·.toolCalls) (·.1) fun _ => rfl
  have artifacts := sums (·.artifactCalls) (·.2.1) fun _ => rfl
  have dead : (∃ row ∈ (deriveBurn getTime (log.inputs sessions nowMs)).rows agentId, row.deadRun = true) ↔
      ∃ figure ∈ ((deriveBurn getTime (log.inputs sessions nowMs)).rows agentId).map figures, figure.2.2 = true := by
    constructor
    · rintro ⟨row, member, dead⟩
      exact ⟨_, List.mem_map_of_mem member, dead⟩
    · rintro ⟨figure, member, dead⟩
      obtain ⟨row, inside, rfl⟩ := List.mem_map.mp member
      exact ⟨row, inside, dead⟩
  have floorless : ¬ deadRunMinToolCalls ≤ (∅ : Finset Call).card := Nat.not_succ_le_zero 9
  have length : ((deriveBurn getTime (log.inputs sessions nowMs)).rows agentId).length =
      (((deriveBurn getTime (log.inputs sessions nowMs)).rows agentId).map figures).length := List.length_map .. |>.symm
  rcases log.row_figures sessions nowMs agentId with ⟨rows, hidden⟩ | ⟨flag, rows, flagged, shown⟩
  · rw [rows] at calls artifacts dead length
    constructor
    · intro counted
      have empty : log.approved nowMs agentId = ∅ := Finset.card_eq_zero.mp (counted.calls.symm.trans calls)
      refine ⟨fun nonempty => ?_, fun first member => ?_, fun floor => ?_⟩
      · rw [empty] at nonempty
        exact absurd nonempty Finset.not_nonempty_empty
      · rw [empty] at member
        exact absurd member (Finset.notMem_empty _)
      · rw [empty] at floor
        exact absurd floor floorless
    · intro discernible
      have empty : log.approved nowMs agentId = ∅ :=
        Finset.not_nonempty_iff_eq_empty.mp fun nonempty => hidden (discernible.shown nonempty)
      refine ⟨?_, ?_, ?_, ?_⟩
      · rw [length]
        exact Nat.zero_le 1
      · rw [calls, empty]
        rfl
      · rw [artifacts, log.artifactTouches_zero nowMs agentId fun call member => ?_]
        · rfl
        · rw [empty] at member
          exact absurd member (Finset.notMem_empty _)
      · refine dead.trans (iff_of_false (fun ⟨_, member, _⟩ => nomatch member) fun wasted => ?_)
        have floor := wasted.calls
        rw [empty] at floor
        exact absurd floor floorless
  · rw [rows] at calls artifacts dead length
    have single : (∃ figure ∈ [(((log.approved nowMs agentId).image (log.key agentId)).card,
        log.artifactTouches nowMs agentId, flag)], figure.2.2 = true) ↔ flag = true := by
      simp
    rw [single, flagged] at dead
    rw [List.map_singleton, List.sum_singleton] at calls artifacts
    constructor
    · intro counted
      have same : ((log.approved nowMs agentId).image (log.key agentId)).card = (log.approved nowMs agentId).card :=
        calls.symm.trans counted.calls
      refine ⟨fun _ => shown, (log.card_keys_iff nowMs agentId).mp same, fun floor spans zero => ?_⟩
      exact (counted.dead.mp (dead.mpr ⟨same.symm ▸ floor, spans, zero⟩)).nothing
    · intro discernible
      have same := (log.card_keys_iff nowMs agentId).mpr discernible.apart
      refine ⟨?_, calls.trans same, artifacts, dead.trans ⟨fun holds => ?_, fun wasted => ?_⟩⟩
      · rw [length]
        exact Nat.le_refl 1
      · obtain ⟨floor, spans, zero⟩ := holds
        rw [same] at floor
        exact ⟨floor, spans, discernible.visible floor spans zero⟩
      · exact ⟨same.symm ▸ wasted.calls, wasted.spans, log.artifactTouches_zero nowMs agentId wasted.nothing⟩

/-- One text as `Date` reads it. -/
def newYear (text : String) : Option Int :=
  if text = "2026-01-01T00:00:00Z" then some 1767225600000 else none

/-- Two edits of an agent at one instant. -/
def parallelEdits : CallLog newYear String where
  made _ := { agentId := "cc-1", toolName := "Edit", instant := some 1767225600000 }
  audits := []
  touches := ["toolu_1", "toolu_2"].map fun call =>
    (call, { agentId := "cc-1", project := "/p", toolName := "Edit", ts := "2026-01-01T00:00:00Z" })
  audited := by simp
  touched := by decide

/-- They are counted as one. -/
theorem parallel_edits_collapse : ¬ parallelEdits.Counted [] 1767225600000 "cc-1" := by
  intro counted
  have figure : ((deriveBurn newYear (parallelEdits.inputs [] 1767225600000)).rows "cc-1").map figures = [(1, 2, false)] := by
    rw [rows_figures, figures_burnSession]
    decide +kernel
  have collapsed : (((deriveBurn newYear (parallelEdits.inputs [] 1767225600000)).rows "cc-1").map (·.toolCalls)).sum = 1 := by
    have calls := congrArg (fun list : List (Nat × Nat × Bool) => (list.map (·.1)).sum) figure
    rwa [List.map_map] at calls
  have two : (parallelEdits.approved 1767225600000 "cc-1").card = 2 := by decide +kernel
  have same := collapsed.symm.trans (counted.calls.trans two)
  cases same

end CallLog
end Wisphive
