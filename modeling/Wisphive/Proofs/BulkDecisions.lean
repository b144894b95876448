import Wisphive.BulkDecisions
import Wisphive.Proofs.QueueBroadcasts

/-! A confirmed dialog resolves what is pending when its command arrives, so it keeps to the
requests that it counted exactly if these cover what is within its reach by then. -/

namespace Wisphive
open Foundation

namespace DecisionQueue
variable {queue : DecisionQueue}

/-- The requests that a list of ids resolves. -/
theorem resolve_pending (valid : Collections queue) (id : Uuid) (rich : RichDecision) :
    (queue.resolve id rich).2.pendingItems =
        queue.pendingItems.filter (fun req => ¬ (req.id = id ∧ queue.isManagedSpawn req.id = false)) ∧
      ∀ other, other ∈ (queue.resolve id rich).2.managedSpawnIds ↔ other ∈ queue.managedSpawnIds := by
  rcases queue.resolve_cases id rich with refused | ⟨sender, settled, unmanaged, found, settles, _, resolved⟩
  · rw [refused]
    refine ⟨(List.filter_eq_self.mpr fun req member => decide_eq_true ?_).symm, fun _ => Iff.rfl⟩
    rintro ⟨rfl, free⟩
    have managed : req.id ∉ queue.managedSpawnIds := by simpa [isManagedSpawn] using free
    have held : (queue.pendingSenders.lookup req.id).isSome :=
      AList.lookup_isSome.mpr ((valid.senders _).mpr (List.mem_map_of_mem member))
    obtain ⟨sender, found⟩ := Option.isSome_iff_exists.mp held
    simp only [resolve, managed, if_false, found] at refused
    cases refused
  · have settles := settles valid
    rw [resolved]
    refine ⟨settles.items.trans (List.filter_congr fun req _ => ?_), fun other => ?_⟩
    · by_cases same : req.id = id
      · have free : queue.isManagedSpawn req.id = false := by
          rw [same]
          exact decide_eq_false unmanaged
        simp only [same, ne_eq, not_true, decide_false, true_and]
        rw [← same, free]
        rfl
      · simp [same]
    · refine (settles.managed other).trans ⟨fun both => both.2, fun member => ⟨?_, member⟩⟩
      rintro rfl
      exact unmanaged member

theorem resolveEach_pending (valid : Collections queue) (rich : RichDecision) (ids : List Uuid) :
    (queue.resolveEach rich ids).pendingItems =
      queue.pendingItems.filter fun req => ¬ (req.id ∈ ids ∧ queue.isManagedSpawn req.id = false) := by
  induction ids generalizing queue with
  | nil => simp [resolveEach]
  | cons id rest ih =>
    obtain ⟨items, managed⟩ := resolve_pending valid id rich
    obtain ⟨_, path, _⟩ := settling_resolve valid id rich
    rw [resolveEach, ih (path.collections valid), items, List.filter_filter]
    refine List.filter_congr fun req _ => ?_
    have same : (queue.resolve id rich).2.isManagedSpawn req.id = queue.isManagedSpawn req.id :=
      decide_eq_decide.mpr (managed req.id)
    rw [same]
    simp only [List.mem_cons]
    grind

/-- A bulk command without a filter leaves the managed spawns. -/
theorem resolveAll_pending (valid : Collections queue) (decision : Decision) (resolver : Option String) :
    (queue.resolveAll none decision resolver).2.pendingItems =
      queue.pendingItems.filter fun req => queue.isManagedSpawn req.id := by
  rw [resolveAll, resolveEach_pending valid]
  refine List.filter_congr fun req member => ?_
  have listed : req.id ∈ queue.bulkIds none ↔ queue.isManagedSpawn req.id = false := by
    simp only [bulkIds, Option.all_none, List.filter_true, List.mem_map, List.mem_filter, decide_eq_true_eq,
      isManagedSpawn, decide_eq_false_iff_not]
    exact ⟨fun ⟨other, ⟨_, free⟩, same⟩ => same ▸ free, fun free => ⟨req, ⟨member, free⟩, rfl⟩⟩
  simp only [listed, and_self, Bool.not_eq_false, Bool.decide_eq_true]

theorem claim_pending (valid : Collections queue) (id : Uuid) :
    (queue.claim id).2.pendingItems = queue.pendingItems.filter (·.id ≠ id) := by
  rcases claim_cases valid id with missing | ⟨request, sender, claimed, same, claims, found⟩
  · rw [missing]
    refine (List.filter_eq_self.mpr fun req member => decide_eq_true ?_).symm
    rintro rfl
    have held : (queue.pendingSenders.lookup req.id).isSome :=
      AList.lookup_isSome.mpr ((valid.senders _).mpr (List.mem_map_of_mem member))
    obtain ⟨sender, found⟩ := Option.isSome_iff_exists.mp held
    have present : (queue.pendingItems.find? (·.id = req.id)).isSome :=
      List.find?_isSome.mpr ⟨req, member, decide_eq_true rfl⟩
    obtain ⟨item, first⟩ := Option.isSome_iff_exists.mp present
    simp only [claim, first, found] at missing
    cases missing
  · rw [found, claims.items, same]

end DecisionQueue

namespace BulkRun
variable {toLowercase : String → String} {run after : BulkRun} {event : BulkEvent}

/-- The queue's collections agree, and only confirmed bulk commands are sent. -/
structure Valid (run : BulkRun) : Prop where
  collections : Collections run.feed.run.queue
  messages : ∀ entry ∈ run.outbox, ∃ action : BulkAction, entry.1 = action.message

theorem Valid.start : Valid (machine toLowercase).start where
  collections := QueueRun.Valid.start.collections
  messages _ member := nomatch member

theorem onlyShown_takes {shown : List DecisionRequest} {feed : ClientFeed} :
    (run.takes shown feed).OnlyShown ↔
      run.OnlyShown ∧ ∀ req ∈ run.pending, req ∉ feed.run.queue.pendingItems → req ∈ shown := by
  simp only [OnlyShown, takes, List.mem_append, List.mem_map, List.mem_filter, decide_eq_true_eq]
  constructor
  · intro all
    exact ⟨fun entry member => all entry (.inl member),
      fun req member gone => all (req, shown) (.inr ⟨req, ⟨member, gone⟩, rfl⟩)⟩
  · rintro ⟨earlier, taken⟩ entry (member | ⟨req, ⟨member, gone⟩, rfl⟩)
    · exact earlier entry member
    · exact taken req member gone

/-- What leaves the pending requests when those that meet a condition are filtered out. -/
theorem leaves_iff {before remaining : List DecisionRequest} (leaves : DecisionRequest → Bool)
    (filtered : remaining = before.filter (fun req => !leaves req)) {shown : List DecisionRequest} :
    (∀ req ∈ before, req ∉ remaining → req ∈ shown) ↔ ∀ req ∈ before, leaves req = true → req ∈ shown := by
  refine forall₂_congr fun req member => imp_congr_left ?_
  rw [filtered, List.mem_filter]
  simp [member]

/-- A dialog that is answered with Y hands over its own action. -/
theorem handleModalInput_action {modal : ConfirmModal} {key : KeyCode} {action : BulkAction}
    (answered : (TuiApp.handleModalInput modal key).2 = some action) : action = modal.action := by
  cases key with
  | char char =>
    simp only [TuiApp.handleModalInput] at answered
    split at answered
    · exact (Option.some.inj answered).symm
    · split at answered <;> cases answered
  | enter | esc | backspace | other => cases answered

/-- A key answers the dialog, or leaves the commands as they are. -/
theorem press_cases (key : KeyCode) : (run.press toLowercase key).feed.run = run.feed.run ∧
    (run.press toLowercase key).resolved = run.resolved ∧ (run.press toLowercase key).handler = run.handler ∧
    ((run.press toLowercase key).outbox = run.outbox ∨
      ∃ modal, run.app.modal = some modal ∧
        (run.press toLowercase key).outbox = run.outbox ++ [(modal.action.message, modal.shown)]) := by
  cases shown : run.app.modal with
  | none =>
    simp [press, shown]
  | some modal =>
    cases answered : (TuiApp.handleModalInput modal key).2 with
    | none =>
      simp [press, TuiApp.handleEvent, shown, answered]
    | some action =>
      have same := handleModalInput_action answered
      simp [press, TuiApp.handleEvent, shown, answered, same]

theorem takeCommand_shown {shown : List DecisionRequest} {action : BulkAction} (valid : Collections run.feed.run.queue) :
    (run.takeCommand action.message shown).OnlyShown ↔ run.OnlyShown ∧
      (action = .approveAll → ∀ req ∈ run.pending, run.feed.run.queue.isManagedSpawn req.id = false → req ∈ shown) := by
  cases action with
  | approveAll =>
    simp only [takeCommand, BulkAction.message, Option.isNone_none, Bool.not_true, Bool.and_false, Bool.false_eq_true,
      if_false, forall_const]
    rw [onlyShown_takes]
    refine and_congr_right fun _ => ?_
    rw [ClientFeed.operate_run, leaves_iff fun req => !run.feed.run.queue.isManagedSpawn req.id]
    · simp only [Bool.not_eq_true']
    · simp only [Bool.not_not]
      exact DecisionQueue.resolveAll_pending valid .approve (some "human:tui")
  | denyAll => simp [takeCommand, BulkAction.message, OnlyShown]

/-- The daemon takes the oldest command while it is handling none. -/
theorem takeCommand_cases (taken : run.step toLowercase .takeCommand = some after) : ∃ message shown rest,
    run.handler = .idle ∧ run.outbox = (message, shown) :: rest ∧
      after = { run with outbox := rest }.takeCommand message shown := by
  simp only [BulkRun.step] at taken
  split at taken
  next message shown rest idle queued =>
    cases taken
    exact ⟨message, shown, rest, idle, queued, rfl⟩
  next => cases taken

theorem Valid.step (valid : Valid run) (taken : run.step toLowercase event = some after) : Valid after := by
  have operated (queue : DecisionQueue) (settling : DecisionQueue.Settling run.feed.run.queue queue) :
      Collections queue := by
    obtain ⟨messages, path, _⟩ := settling
    exact path.collections valid.collections
  cases event with
  | feed event =>
    obtain ⟨feed, moved, rfl⟩ := Option.map_eq_some_iff.mp taken
    exact ⟨ClientFeed.step_collections valid.collections moved, valid.messages⟩
  | key key =>
    cases taken
    obtain ⟨same, _, _, kept | ⟨modal, _, sent⟩⟩ := @press_cases toLowercase run key
    · exact ⟨same ▸ valid.collections, kept ▸ valid.messages⟩
    · refine ⟨same ▸ valid.collections, fun entry member => ?_⟩
      rw [sent, List.mem_append, List.mem_singleton] at member
      rcases member with earlier | rfl
      · exact valid.messages entry earlier
      · exact ⟨modal.action, rfl⟩
  | removeDecision id =>
    cases taken
    exact ⟨valid.collections, valid.messages⟩
  | takeCommand =>
    obtain ⟨message, shown, rest, _, queued, rfl⟩ := takeCommand_cases taken
    obtain ⟨action, rfl⟩ := valid.messages (message, shown) (queued ▸ List.mem_cons_self ..)
    have remaining : ∀ entry ∈ rest, ∃ action : BulkAction, entry.1 = action.message :=
      fun entry member => valid.messages entry (queued ▸ List.mem_cons_of_mem _ member)
    cases action with
    | approveAll =>
      refine ⟨?_, remaining⟩
      simp only [BulkRun.takeCommand, BulkAction.message, Option.isNone_none, Bool.not_true, Bool.and_false,
        Bool.false_eq_true, if_false, takes, ClientFeed.operate_run]
      exact operated _ (DecisionQueue.settling_resolveEach valid.collections _ _)
    | denyAll => exact ⟨valid.collections, remaining⟩
  | denyListed =>
    simp only [BulkRun.step] at taken
    split at taken <;> cases taken
    refine ⟨?_, valid.messages⟩
    simp only [takes, ClientFeed.operate_run]
    exact operated _ (DecisionQueue.settling_resolveEach valid.collections _ _)
  | inspectSpawn =>
    simp only [BulkRun.step] at taken
    split at taken <;> cases taken
    all_goals exact ⟨valid.collections, valid.messages⟩
  | claimSpawn =>
    simp only [BulkRun.step] at taken
    split at taken
    · obtain ⟨feed, moved, rfl⟩ := Option.map_eq_some_iff.mp taken
      exact ⟨ClientFeed.step_collections valid.collections moved, valid.messages⟩
    · cases taken

/-- A step resolves only what the dialog counted if its reach was covered, and only then. -/
theorem step_shown (valid : Valid run) (taken : run.step toLowercase event = some after) :
    after.OnlyShown ↔ run.OnlyShown ∧ run.Covered event := by
  have unchanged (same : after.resolved = run.resolved) (free : run.Covered event) :
      after.OnlyShown ↔ run.OnlyShown ∧ run.Covered event := by
    simp only [OnlyShown, same, free, and_true]
  cases event with
  | feed event =>
    obtain ⟨feed, _, rfl⟩ := Option.map_eq_some_iff.mp taken
    exact unchanged rfl (by simp [Covered, reach])
  | key key =>
    cases taken
    exact unchanged (press_cases key).2.1 (by simp [Covered, reach])
  | removeDecision id =>
    cases taken
    exact unchanged rfl (by simp [Covered, reach])
  | takeCommand =>
    obtain ⟨message, shown, rest, idle, queued, rfl⟩ := takeCommand_cases taken
    obtain ⟨action, rfl⟩ := valid.messages (message, shown) (queued ▸ List.mem_cons_self ..)
    refine (@takeCommand_shown { run with outbox := rest } shown action valid.collections).trans (and_congr Iff.rfl ?_)
    cases action with
    | approveAll => simp [Covered, reach, idle, queued, BulkAction.message, pending]
    | denyAll => simp [Covered, reach, idle, queued, BulkAction.message]
  | denyListed =>
    simp only [BulkRun.step] at taken
    split at taken
    next ordinary spawns shown listed =>
      cases taken
      have items := DecisionQueue.resolveEach_pending valid.collections denial ordinary
      refine (@onlyShown_takes run shown (run.feed.operate { run.feed.run with
        queue := run.feed.run.queue.resolveEach denial ordinary })).trans (and_congr_right fun _ => ?_)
      rw [ClientFeed.operate_run, leaves_iff
        fun req => req.id ∈ ordinary && !run.feed.run.queue.isManagedSpawn req.id]
      · simp [Covered, reach, listed]
      · simpa [pending] using items
    next => cases taken
  | inspectSpawn =>
    simp only [BulkRun.step] at taken
    split at taken <;> cases taken
    all_goals exact unchanged rfl (by simp [Covered, reach])
  | claimSpawn =>
    simp only [BulkRun.step] at taken
    split at taken
    next id rest shown reviewed =>
      obtain ⟨feed, moved, rfl⟩ := Option.map_eq_some_iff.mp taken
      have claimed : feed.run.queue = (run.feed.run.queue.claim id).2 := by
        change (run.feed.run.step (.claim id)).map run.feed.operate = some feed at moved
        obtain ⟨next, claims, rfl⟩ := Option.map_eq_some_iff.mp moved
        rw [ClientFeed.operate_run]
        exact (congrArg QueueRun.queue (Option.some.inj claims)).symm
      refine (@onlyShown_takes run shown feed).trans (and_congr_right fun _ => ?_)
      rw [claimed, leaves_iff fun req => req.id = id]
      · simp [Covered, reach, reviewed]
      · simp only [DecisionQueue.claim_pending valid.collections id, ne_eq, decide_not]
        rfl
    next => cases taken

/-- The list of the command that is handled. -/
def handled : BulkHandler → Option (List DecisionRequest)
  | .idle => none
  | .listed _ _ shown | .spawns _ shown | .reviewed _ _ shown => some shown

/-- The lists of the dialog and of the commands that are not handled to the end. -/
def lists (run : BulkRun) : List (List DecisionRequest) :=
  (run.app.modal.map (·.shown)).toList ++ run.outbox.map (·.2) ++ (handled run.handler).toList

/-- Each of them lists everything that is pending. -/
def Complete (run : BulkRun) : Prop :=
  ∀ shown ∈ run.lists, ∀ req ∈ run.pending, req ∈ shown

theorem Complete.of_shrunk (complete : run.Complete) (lists : after.lists ⊆ run.lists)
    (pending : after.pending ⊆ run.pending) : after.Complete :=
  fun shown member req present => complete shown (lists member) req (pending present)

theorem not_busy_iff : ¬ run.Busy ↔ run.lists = [] := by
  simp only [Busy, not_or, not_not, lists, List.append_eq_nil_iff, List.map_eq_nil_iff]
  cases run.app.modal <;> cases run.handler <;> simp [handled]

/-- A dialog that opened over everything that is pending covers its command's reach. -/
theorem Complete.covered (complete : run.Complete) : run.Covered event := by
  have within (shown : List DecisionRequest) (listed : shown ∈ run.lists) (selected : DecisionRequest → Bool) :
      ∀ req ∈ run.pending.filter selected, req ∈ shown :=
    fun req member => complete shown listed req (List.mem_of_mem_filter member)
  intro reached found
  cases event with
  | takeCommand =>
    simp only [reach] at found
    split at found <;> cases found
    next queued => exact within _ (by simp [lists, queued]) _
  | denyListed =>
    simp only [reach] at found
    split at found <;> cases found
    next listed => exact within _ (by simp [lists, handled, listed]) _
  | claimSpawn =>
    simp only [reach] at found
    split at found <;> cases found
    next reviewed => exact within _ (by simp [lists, handled, reviewed]) _
  | feed _ | key _ | removeDecision _ | inspectSpawn => cases found

/-- Nothing that a step takes adds to what is pending. -/
theorem settling_pending {queue : DecisionQueue} (settling : DecisionQueue.Settling run.feed.run.queue queue) :
    queue.pendingItems ⊆ run.pending := by
  obtain ⟨messages, path, settles⟩ := settling
  exact path.items settles

theorem feed_pending {event : FeedEvent} {feed : ClientFeed} (valid : Valid run) (moved : run.feed.step event = some feed)
    (settles : ∀ req, event ≠ .queue (.enqueue req) ∧ event ≠ .queue (.enqueueManagedSpawn req)) :
    feed.run.queue.pendingItems ⊆ run.pending := by
  rcases ClientFeed.step_run moved with same | ⟨operation, rfl, stepped⟩
  · rw [same]
    exact fun _ member => member
  · obtain ⟨messages, path, settling⟩ := QueueRun.step_path valid.collections stepped
    refine path.items (settling fun req => ⟨?_, ?_⟩)
    · rintro rfl
      exact (settles req).1 rfl
    · rintro rfl
      exact (settles req).2 rfl

/-- A dialog that a key does not close stays the same dialog. -/
theorem handleModalInput_modal {modal left : ConfirmModal} {key : KeyCode}
    (kept : (TuiApp.handleModalInput modal key).1 = some left) : left = modal := by
  cases key with
  | char char =>
    simp only [TuiApp.handleModalInput] at kept
    split at kept
    · cases kept
    · split at kept
      · cases kept
      · exact (Option.some.inj kept).symm
  | enter | backspace | other => exact (Option.some.inj kept).symm
  | esc => cases kept

theorem press_complete (complete : run.Complete) {key : KeyCode} (unhidden : run.Unhidden toLowercase (.key key)) :
    (run.press toLowercase key).Complete := by
  obtain ⟨same, _, handler, sent⟩ := @press_cases toLowercase run key
  intro shown member req present
  have present : req ∈ run.pending := by
    rw [pending, ← same]
    exact present
  have modal : (run.press toLowercase key).app = (run.app.handleEvent toLowercase run.feed.view.queue key).1 := by
    unfold press
    dsimp only
    split
    next handled _ => rw [handled]
    next handled _ => rw [handled]
  simp only [lists, List.mem_append, Option.mem_toList, List.mem_map] at member
  rcases member with (dialog | ⟨entry, command, rfl⟩) | handling
  · rw [modal] at dialog
    obtain ⟨opened, found, rfl⟩ := Option.map_eq_some_iff.mp dialog
    cases before : run.app.modal with
    | none =>
      exact unhidden.1 opened (by simp [BulkRun.opened, before, found]) req present
    | some earlier =>
      simp only [TuiApp.handleEvent, before] at found
      rw [handleModalInput_modal found]
      exact complete earlier.shown (by simp [lists, before]) req present
  · rcases sent with kept | ⟨earlier, before, sent⟩
    · rw [kept] at command
      exact complete entry.2 (by simpa [lists] using .inr (.inl ⟨entry.1, command⟩)) req present
    · rw [sent, List.mem_append, List.mem_singleton] at command
      rcases command with queued | rfl
      · exact complete entry.2 (by simpa [lists] using .inr (.inl ⟨entry.1, queued⟩)) req present
      · exact complete earlier.shown (by simp [lists, before]) req present
  · exact complete shown (by simp [lists, ← handler, handling]) req present

theorem Complete.step (valid : Valid run) (complete : run.Complete) (unhidden : run.Unhidden toLowercase event)
    (taken : run.step toLowercase event = some after) : after.Complete := by
  cases event with
  | feed event =>
    obtain ⟨feed, moved, rfl⟩ := Option.map_eq_some_iff.mp taken
    by_cases settles : ∀ req, event ≠ .queue (.enqueue req) ∧ event ≠ .queue (.enqueueManagedSpawn req)
    · exact complete.of_shrunk (fun _ member => member) (feed_pending valid moved settles)
    · have idle : run.lists = [] := by
        apply not_busy_iff.mp
        simp only [not_forall, not_and_or, not_not] at settles
        obtain ⟨req, rfl | rfl⟩ := settles
        all_goals exact unhidden.2 rfl
      intro shown member
      rw [show ({ run with feed } : BulkRun).lists = run.lists from rfl, idle] at member
      cases member
  | key key =>
    cases taken
    exact press_complete complete unhidden
  | removeDecision id =>
    cases taken
    exact complete.of_shrunk (fun _ member => member) fun _ member => member
  | takeCommand =>
    obtain ⟨message, shown, rest, idle, queued, rfl⟩ := takeCommand_cases taken
    obtain ⟨action, rfl⟩ := valid.messages (message, shown) (queued ▸ List.mem_cons_self ..)
    cases action with
    | approveAll =>
      refine complete.of_shrunk ?_ ?_
      · simp [lists, takeCommand, BulkAction.message, takes, queued, idle]
      · simp only [pending, takeCommand, BulkAction.message, Option.isNone_none, Bool.not_true, Bool.and_false,
          Bool.false_eq_true, if_false, takes, ClientFeed.operate_run]
        exact settling_pending (DecisionQueue.settling_resolveEach valid.collections _ _)
    | denyAll =>
      refine complete.of_shrunk ?_ fun _ member => member
      simp [lists, handled, takeCommand, BulkAction.message, queued, idle]
  | denyListed =>
    simp only [BulkRun.step] at taken
    split at taken
    next ordinary spawns shown listed =>
      cases taken
      refine complete.of_shrunk ?_ ?_
      · simp [lists, handled, listed, takes]
      · simp only [pending, takes, ClientFeed.operate_run]
        exact settling_pending (DecisionQueue.settling_resolveEach valid.collections _ _)
    next => cases taken
  | inspectSpawn =>
    simp only [BulkRun.step] at taken
    split at taken <;> cases taken
    · exact complete.of_shrunk (by simp [lists, handled]) fun _ member => member
    · refine complete.of_shrunk ?_ fun _ member => member
      split <;> simp [lists, handled, *]
  | claimSpawn =>
    simp only [BulkRun.step] at taken
    split at taken
    next id rest shown reviewed =>
      obtain ⟨feed, moved, rfl⟩ := Option.map_eq_some_iff.mp taken
      refine complete.of_shrunk ?_ (feed_pending valid moved (by simp))
      simp [lists, handled, reviewed, takes]
    next => cases taken

/-- Over a whole run, confirmations resolve only what their dialogs counted exactly if each
step of the daemon found its reach covered. That is so where every dialog opens over all
that is pending and nothing is enqueued until its command is handled. -/
theorem bulk_decisions_shown (toLowercase : String → String) (events : List BulkEvent) (after : BulkRun)
    (taken : (machine toLowercase).run Machine.free (machine toLowercase).start events = some after) :
    (after.OnlyShown ↔ (machine toLowercase).run Covered (machine toLowercase).start events = some after) ∧
    ((machine toLowercase).run (Unhidden toLowercase) (machine toLowercase).start events = some after →
      after.OnlyShown) := by
  have nothing : OnlyShown (machine toLowercase).start := fun _ member => nomatch member
  constructor
  · have good := @Machine.run_good_iff _ _ (machine toLowercase) Covered _ Valid OnlyShown
      (fun _ _ _ valid stepped => valid.step stepped) (fun _ _ _ valid stepped => step_shown valid stepped) _ _ _ .start taken
    exact good.trans ⟨fun both => both.2, fun covered => ⟨nothing, covered⟩⟩
  · intro unhidden
    have complete : Complete (machine toLowercase).start := by
      intro shown member
      simp [lists, handled, machine] at member
    have kept := Machine.run_preserves (fun run => Valid run ∧ Complete run ∧ OnlyShown run)
      (fun _ _ _ holds guarded stepped => ⟨holds.1.step stepped, holds.2.1.step holds.1 guarded stepped,
        (step_shown holds.1 stepped).mpr ⟨holds.2.2, holds.2.1.covered⟩⟩) ⟨.start, complete, nothing⟩ unhidden
    exact kept.2.2

private def pendingCall (id : Uuid) (toolName : String) : DecisionRequest :=
  { id, agentId := "cc-1", agentType := .claudeCode, project := ⟨"/work"⟩, toolName, toolInput := .null, timestamp := 0 }

/-- Two requests, a client that connects, its filter, and its dialog over the queue. -/
private def approveFiltered (filter : List KeyCode) : List BulkEvent :=
  [.feed (.queue (.enqueue (pendingCall 1 "Read"))), .feed (.queue (.enqueue (pendingCall 2 "Bash"))), .feed .subscribe,
    .feed .writeAgents, .feed .writeQueue, .feed .receive, .feed .receive] ++
    filter.map .key ++ [.key (.char 'A'), .key (.char 'Y'), .takeCommand]

/-- Without a filter both requests are counted, and both are approved. -/
theorem bulk_decisions_unfiltered :
    OnlyShown (((machine String.toLower).run (Unhidden String.toLower) (machine String.toLower).start
      (approveFiltered [])).get (by decide +kernel)) :=
  (bulk_decisions_shown String.toLower (approveFiltered []) _ (Machine.run_unguarded (Option.some_get _).symm)).2
    (Option.some_get _).symm

/-- The filter hides the shell call: the dialog counts one request, and both are approved. -/
theorem hidden_request_approved : ¬ ∀ toLowercase events after,
    (machine toLowercase).run Machine.free (machine toLowercase).start events = some after → after.OnlyShown := by
  intro shown
  have both := shown String.toLower (approveFiltered [.char '/', .char 'r', .char 'e', .enter]) _
    (Option.some_get (by decide +kernel)).symm
  revert both
  decide +kernel

end BulkRun
end Wisphive
