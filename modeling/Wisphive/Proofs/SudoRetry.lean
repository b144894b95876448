import Wisphive.SudoRetry

/-! What a retry sends are the standing approvals whose gates the password opens. Each updater
that changes maps in place does nothing more when it runs again. -/

namespace Wisphive
open Foundation

variable {refs : PageRefs} {prev : PageState} {page : WebPage} {gates : List PendingReauth} {reauth : PendingReauth}
  {id project : String} {opts : Option ApproveOpts} {history : List PageEvent} {twice : Bool}

namespace PageRefs

/-! ### One batch -/

theorem replay_stash : (refs.replay prev gates).1.approveStash.lookup id =
    if ∃ reauth ∈ gates, reauth.requestId = id ∧ reauth.toolName ≠ "InstallHooks" then none else refs.approveStash.lookup id := by
  induction gates generalizing refs with
  | nil => simp [replay]
  | cons reauth rest ih =>
    rw [replay, ih, replayOne]
    by_cases install : reauth.toolName = "InstallHooks"
    · simp [install]
    · rw [if_neg install]
      dsimp only
      rw [Assoc.lookup_erase]
      by_cases same : id = reauth.requestId
      · simp [same, install]
      · simp [same, Ne.symm same]

theorem replay_install : project ∈ (refs.replay prev gates).1.installStash ↔
    project ∈ refs.installStash ∧ ∀ reauth ∈ gates, reauth.toolName = "InstallHooks" → reauth.requestId ≠ project := by
  induction gates generalizing refs with
  | nil => simp [replay]
  | cons reauth rest ih =>
    rw [replay, ih, replayOne, List.forall_mem_cons]
    by_cases install : reauth.toolName = "InstallHooks"
    · simp [install, and_assoc, ne_comm]
    · simp [install]

/-- The other refs are left. -/
theorem replay_kept : (refs.replay prev gates).1.pendingReauths = refs.pendingReauths ∧
    (refs.replay prev gates).1.queueRef = refs.queueRef ∧ (refs.replay prev gates).1.socketOpen = refs.socketOpen := by
  induction gates generalizing refs with
  | nil => exact ⟨rfl, rfl, rfl⟩
  | cons reauth rest ih =>
    rw [replay]
    have one : (refs.replayOne prev reauth).1.pendingReauths = refs.pendingReauths ∧
        (refs.replayOne prev reauth).1.queueRef = refs.queueRef ∧
        (refs.replayOne prev reauth).1.socketOpen = refs.socketOpen := by
      rw [replayOne]
      split
      next => exact ⟨rfl, rfl, rfl⟩
      next => exact ⟨rfl, rfl, rfl⟩
    obtain ⟨pending, copied, socket⟩ := @ih (refs.replayOne prev reauth).1
    exact ⟨pending.trans one.1, copied.trans one.2.1, socket.trans one.2.2⟩

/-- The request of an approval. -/
def approved : Outbound → Option String
  | .approve id _ => some id
  | .installHooks _ => none

/-- No request is approved but once for each gate. -/
theorem replay_ids : ((refs.replay prev gates).2.filterMap approved).Sublist (gates.map PendingReauth.requestId) := by
  induction gates generalizing refs with
  | nil => exact .slnil
  | cons reauth rest ih =>
    rw [replay, List.filterMap_append, List.map_cons, ← List.singleton_append]
    refine List.Sublist.append ?_ ih
    have none : ([] : List String).Sublist [reauth.requestId] := List.nil_sublist _
    rw [replayOne]
    split
    next =>
      dsimp only
      split
      next =>
        rw [send]
        split
        next => exact none
        next => exact none
      next => exact none
    next =>
      dsimp only
      split
      next =>
        split
        next =>
          rw [send]
          split
          next => exact .refl _
          next => exact none
        next => exact none
      next => exact none

theorem mem_replayOne (isOpen : refs.socketOpen = true) : .approve id opts ∈ (refs.replayOne prev reauth).2 ↔
    reauth.requestId = id ∧ reauth.toolName ≠ "InstallHooks" ∧
      refs.approveStash.lookup id = some { toolName := reauth.toolName, opts } ∧ prev.queue.any (·.id = id) = true := by
  rw [replayOne]
  by_cases install : reauth.toolName = "InstallHooks"
  · rw [if_pos install]
    dsimp only
    refine iff_of_false ?_ (fun held => held.2.1 install)
    split
    next => simp [send, isOpen]
    next => exact List.not_mem_nil
  · rw [if_neg install]
    dsimp only
    constructor
    · intro member
      split at member
      next stashed found =>
        split at member
        next fits =>
          rw [send, if_pos isOpen, List.mem_singleton] at member
          cases member
          rw [← fits.1]
          exact ⟨rfl, fits.1 ▸ install, found, fits.2⟩
        next => cases member
      next => cases member
    · rintro ⟨rfl, _, found, queued⟩
      rw [found]
      dsimp only
      rw [if_pos ⟨rfl, queued⟩, send, if_pos isOpen]
      exact List.mem_singleton_self _

/-- What a batch of different requests sends. -/
theorem mem_replay (isOpen : refs.socketOpen = true) (distinct : (gates.map PendingReauth.requestId).Nodup) :
    .approve id opts ∈ (refs.replay prev gates).2 ↔ ∃ reauth ∈ gates, reauth.requestId = id ∧ reauth.toolName ≠ "InstallHooks" ∧
      refs.approveStash.lookup id = some { toolName := reauth.toolName, opts } ∧ prev.queue.any (·.id = id) = true := by
  induction gates generalizing refs with
  | nil => simp [replay]
  | cons reauth rest ih =>
    rw [List.map_cons, List.nodup_cons] at distinct
    have open_one : (refs.replayOne prev reauth).1.socketOpen = true := by
      rw [replayOne]
      split
      next => exact isOpen
      next => exact isOpen
    have others (given : PendingReauth) (member : given ∈ rest) (same : given.requestId = id) :
        (refs.replayOne prev reauth).1.approveStash.lookup id = refs.approveStash.lookup id := by
      rw [replayOne]
      split
      next => rfl
      next =>
        dsimp only
        rw [Assoc.lookup_erase, if_neg]
        rintro rfl
        exact distinct.1 (List.mem_map.mpr ⟨given, member, same⟩)
    rw [replay, List.mem_append, mem_replayOne isOpen, ih open_one distinct.2, List.exists_mem_cons_iff]
    refine or_congr_right (exists_congr fun given => and_congr_right fun member => and_congr_right fun same => ?_)
    rw [others given member same]

/-! ### Running again -/

theorem lookup_eraseAll {stash : List (String × StashedApprove)} :
    (gates.foldl (fun stash reauth => Assoc.erase stash reauth.requestId) stash).lookup id =
      if ∃ reauth ∈ gates, reauth.requestId = id then none else stash.lookup id := by
  induction gates generalizing stash with
  | nil => simp
  | cons reauth rest ih =>
    rw [List.foldl_cons, ih, Assoc.lookup_erase]
    by_cases same : id = reauth.requestId
    · simp [same]
    · simp [same, Ne.symm same]

theorem mem_filterAll {stash : List String} :
    project ∈ gates.foldl (fun stash reauth => stash.filter (· ≠ reauth.requestId)) stash ↔
      project ∈ stash ∧ ∀ reauth ∈ gates, reauth.requestId ≠ project := by
  induction gates generalizing stash with
  | nil => simp
  | cons reauth rest ih =>
    rw [List.foldl_cons, ih, List.mem_filter, List.forall_mem_cons]
    simp [and_assoc, ne_comm]

theorem filter_absent {stash : List String} (absent : project ∉ stash) : stash.filter (· ≠ project) = stash := by
  refine List.filter_eq_self.mpr fun other member => decide_eq_true ?_
  rintro rfl
  exact absent member

/-- After a run only the gate on display is left to work on. -/
theorem gated_cleared (cleared : refs.pendingReauths = []) : refs.gated prev = prev.pendingReauth.toList := by
  rw [gated, cleared]
  rfl

theorem cleared_eq (cleared : refs.pendingReauths = []) : { refs with pendingReauths := [] } = refs := by
  cases refs
  cases cleared
  rfl

theorem dismiss_again (shown : ∀ reauth ∈ prev.pendingReauth, reauth ∈ refs.gated prev) :
    (refs.dismiss prev).refs.dismiss prev = { refs.dismiss prev with sent := [] } := by
  have left : (refs.dismiss prev).refs.gated prev = prev.pendingReauth.toList := gated_cleared rfl
  rw [dismiss, left, dismiss]
  cases displayed : prev.pendingReauth with
  | none => rfl
  | some reauth =>
    have member := shown reauth displayed
    rw [Option.toList_some, List.foldl_cons, List.foldl_nil, List.foldl_cons, List.foldl_nil, Assoc.erase_absent, filter_absent]
    · exact fun present => (mem_filterAll.mp present).2 reauth member rfl
    · rw [lookup_eraseAll, if_pos ⟨reauth, member, rfl⟩]

theorem retry_again (shown : ∀ reauth ∈ prev.pendingReauth, reauth ∈ refs.gated prev) :
    (refs.retry prev).refs.retry prev = { refs.retry prev with sent := [] } := by
  have kept := @replay_kept { refs with pendingReauths := [] } prev (refs.gated prev)
  have left : (refs.retry prev).refs.gated prev = prev.pendingReauth.toList := gated_cleared kept.1
  have same : { (refs.retry prev).refs with pendingReauths := [] } = (refs.retry prev).refs := cleared_eq kept.1
  rw [retry, left, same]
  cases displayed : prev.pendingReauth with
  | none => rfl
  | some reauth =>
    have member := shown reauth displayed
    have idle : (refs.retry prev).refs.replayOne prev reauth = ((refs.retry prev).refs, []) := by
      rw [replayOne]
      by_cases install : reauth.toolName = "InstallHooks"
      · have absent : reauth.requestId ∉ (refs.retry prev).refs.installStash :=
          fun present => (replay_install.mp present).2 reauth member install rfl
        rw [if_pos install, if_neg absent, filter_absent absent]
      · have absent : (refs.retry prev).refs.approveStash.lookup reauth.requestId = none := by
          rw [retry, replay_stash, if_pos ⟨reauth, member, rfl, install⟩]
        rw [if_neg install, absent, Assoc.erase_absent absent]
    rw [Option.toList_some, replay, idle, replay]
    rfl

end PageRefs

namespace WebPage

/-- An updater that does nothing more when it runs again may run twice. -/
theorem setState_eq {updater : PageRefs → PageState → Outcome}
    (again : updater (updater page.refs page.state).refs page.state = { updater page.refs page.state with sent := [] }) :
    page.setState updater twice = updater page.refs page.state := by
  rw [setState]
  split
  next =>
    rw [again]
    dsimp only
    rw [List.append_nil]
  next => rfl

theorem setPure_eq {next : PageState → PageState} : page.setPure next twice = { state := next page.state, refs := page.refs } :=
  setState_eq rfl

end WebPage

/-! ### The page and its history -/

open PageHistory

/-- The page holds what the events tell. -/
structure Reflects (history : List PageEvent) (page : WebPage) : Prop where
  queue : page.state.queue = PageHistory.queue history
  keyed : Assoc.Keyed page.refs.pendingReauths
  gates : ∀ id, page.refs.pendingReauths.lookup id = (gate id history).map fun toolName => { requestId := id, toolName }
  display : ∀ reauth ∈ page.state.pendingReauth, page.refs.pendingReauths.lookup reauth.requestId = some reauth
  stash : ∀ id, page.refs.approveStash.lookup id = standing id history
  matched : ∀ id stashed, standing id history = some stashed →
    stashed.toolName ≠ "InstallHooks" ∧ ∀ toolName ∈ gate id history, toolName = stashed.toolName

namespace Reflects

/-- The gate on display is one of the batch. -/
theorem gated_eq (reflects : Reflects history page) : page.refs.gated page.state = page.refs.pendingReauths.map Prod.snd := by
  rw [PageRefs.gated]
  split
  next none =>
    have cleared := List.map_eq_nil_iff.mp none
    cases displayed : page.state.pendingReauth with
    | none => rw [none]; rfl
    | some reauth =>
      have found := reflects.display reauth displayed
      rw [cleared] at found
      cases found
  next => rfl

theorem shown (reflects : Reflects history page) : ∀ reauth ∈ page.state.pendingReauth, reauth ∈ page.refs.gated page.state := by
  intro reauth displayed
  rw [reflects.gated_eq]
  exact List.mem_map.mpr ⟨_, Assoc.mem_of_lookup (reflects.display reauth displayed), rfl⟩

theorem entry_id (reflects : Reflects history page) {entry : String × PendingReauth} (member : entry ∈ page.refs.pendingReauths) :
    entry.2.requestId = entry.1 := by
  have found := reflects.keyed.lookup_of_mem member
  rw [reflects.gates] at found
  obtain ⟨toolName, _, same⟩ := Option.map_eq_some_iff.mp found
  rw [← same]

theorem mem_gated (reflects : Reflects history page) :
    reauth ∈ page.refs.gated page.state ↔ gate reauth.requestId history = some reauth.toolName := by
  rw [reflects.gated_eq, List.mem_map]
  constructor
  · rintro ⟨entry, member, rfl⟩
    have found := reflects.keyed.lookup_of_mem member
    rw [reflects.gates, ← reflects.entry_id member] at found
    obtain ⟨toolName, gated, same⟩ := Option.map_eq_some_iff.mp found
    rw [gated, ← same]
  · intro gated
    refine ⟨(reauth.requestId, reauth), Assoc.mem_of_lookup ?_, rfl⟩
    rw [reflects.gates, gated]
    rfl

theorem distinct (reflects : Reflects history page) : ((page.refs.gated page.state).map PendingReauth.requestId).Nodup := by
  rw [reflects.gated_eq, List.map_map]
  have keys : page.refs.pendingReauths.map (PendingReauth.requestId ∘ Prod.snd) = page.refs.pendingReauths.map Prod.fst :=
    List.map_congr_left fun _ member => reflects.entry_id member
  rw [keys]
  exact reflects.keyed

theorem dismissed (reflects : Reflects history page) : page.setState PageRefs.dismiss twice = page.refs.dismiss page.state :=
  WebPage.setState_eq (PageRefs.dismiss_again reflects.shown)

theorem retried (reflects : Reflects history page) : page.setState PageRefs.retry twice = page.refs.retry page.state :=
  WebPage.setState_eq (PageRefs.retry_again reflects.shown)

/-- A batch takes the stash of each gate with it. -/
theorem standing_gated (reflects : Reflects history page) :
    (if ∃ reauth ∈ page.refs.gated page.state, reauth.requestId = id ∧ reauth.toolName ≠ "InstallHooks" then none
      else page.refs.approveStash.lookup id) = if (gate id history).isSome then none else standing id history := by
  rw [reflects.stash]
  cases gated : gate id history with
  | none =>
    rw [if_neg]
    · rfl
    · rintro ⟨reauth, member, rfl, _⟩
      rw [reflects.mem_gated, gated] at member
      cases member
  | some toolName =>
    rw [Option.isSome_some, if_pos rfl]
    split
    next => rfl
    next unhandled =>
      cases held : standing id history with
      | none => rfl
      | some stashed =>
        obtain ⟨plain, same⟩ := reflects.matched id stashed held
        refine absurd ⟨⟨id, toolName⟩, reflects.mem_gated.mpr gated, rfl, ?_⟩ unhandled
        rw [same toolName gated]
        exact plain

end Reflects

/-- One event keeps the page in step with its history. -/
theorem reflects_step {event : PageEvent} (reflects : Reflects history page) (reached : WebPage.after history = page)
    (timely : Timely (event :: history)) :
    Reflects (event :: history) { state := (page.handle event).state, refs := (page.handle event).refs } := by
  cases event with
  | approve approved opts =>
    obtain ⟨⟨copied, plain, gates⟩, _⟩ := timely
    rw [reached] at copied
    refine ⟨reflects.queue, reflects.keyed, reflects.gates, reflects.display, fun id => ?_, fun id stashed held => ?_⟩
    · dsimp only [WebPage.handle]
      rw [Assoc.lookup_set, standing, copied]
      by_cases same : approved = id
      · subst same
        rw [if_pos rfl, if_pos rfl]
      · rw [if_neg same, if_neg (Ne.symm same), reflects.stash]
    · rw [standing] at held
      split at held
      next same =>
        subst same
        cases held
        exact ⟨plain, gates⟩
      next => exact reflects.matched id stashed held
  | webReauthRequired requestId toolName twice =>
    dsimp only [WebPage.handle]
    rw [WebPage.setPure_eq]
    refine ⟨reflects.queue, reflects.keyed.set _ _, fun id => ?_, ?_, reflects.stash, fun id stashed held => ?_⟩
    · dsimp only
      rw [Assoc.lookup_set, gate]
      by_cases same : requestId = id
      · subst same
        rw [if_pos rfl, if_pos rfl]
        rfl
      · rw [if_neg same, if_neg (Ne.symm same), reflects.gates]
    · rintro reauth ⟨⟩
      rw [Assoc.lookup_set, if_pos rfl]
    · have before := reflects.matched id stashed held
      refine ⟨before.1, fun named gated => ?_⟩
      rw [gate] at gated
      split at gated
      next same =>
        subst same
        cases gated
        exact timely.1 stashed held
      next => exact before.2 named gated
  | dismissReauth twice =>
    dsimp only [WebPage.handle]
    rw [reflects.dismissed]
    refine ⟨reflects.queue, Assoc.keyed_nil, fun _ => rfl, fun _ none => (nomatch none), fun id => ?_, fun id stashed held => ?_⟩
    · dsimp only [PageRefs.dismiss]
      rw [PageRefs.lookup_eraseAll, reflects.stash, standing]
      congr 1
      rw [eq_iff_iff, Option.isSome_iff_exists]
      constructor
      · rintro ⟨reauth, member, rfl⟩
        exact ⟨_, reflects.mem_gated.mp member⟩
      · rintro ⟨toolName, gated⟩
        exact ⟨⟨id, toolName⟩, reflects.mem_gated.mpr gated, rfl⟩
    · rw [standing] at held
      split at held
      next => cases held
      next => exact ⟨(reflects.matched id stashed held).1, fun _ none => nomatch none⟩
  | retryPendingApprove twice =>
    dsimp only [WebPage.handle]
    rw [reflects.retried]
    have kept := @PageRefs.replay_kept { page.refs with pendingReauths := [] } page.state (page.refs.gated page.state)
    have cleared : (page.refs.retry page.state).refs.pendingReauths = [] := kept.1
    refine ⟨reflects.queue, ?_, fun _ => ?_, fun _ none => (nomatch none), fun id => ?_, fun id stashed held => ?_⟩
    · rw [cleared]
      exact Assoc.keyed_nil
    · rw [cleared]
      rfl
    · dsimp only [PageRefs.retry]
      rw [PageRefs.replay_stash, standing]
      exact reflects.standing_gated
    · rw [standing] at held
      split at held
      next => cases held
      next => exact ⟨(reflects.matched id stashed held).1, fun _ none => nomatch none⟩
  | decisionResolved resolved twice =>
    dsimp only [WebPage.handle]
    rw [WebPage.setPure_eq]
    refine ⟨?_, reflects.keyed, reflects.gates, reflects.display, fun id => ?_, fun id stashed held => ?_⟩
    · rw [PageHistory.queue, ← reflects.queue]
    · dsimp only
      rw [Assoc.lookup_erase, reflects.stash, standing]
      by_cases same : resolved = id
      · rw [if_pos same, if_pos same.symm]
      · rw [if_neg same, if_neg (Ne.symm same)]
    · rw [standing] at held
      split at held
      next => cases held
      next => exact reflects.matched id stashed held
  | queueSnapshot items twice =>
    dsimp only [WebPage.handle]
    rw [WebPage.setPure_eq]
    exact ⟨rfl, reflects.keyed, reflects.gates, reflects.display, reflects.stash, reflects.matched⟩
  | newDecision request twice =>
    dsimp only [WebPage.handle]
    rw [WebPage.setPure_eq]
    exact ⟨congrArg (· ++ [request]) reflects.queue, reflects.keyed, reflects.gates, reflects.display, reflects.stash, reflects.matched⟩
  | installHooksResult project twice =>
    have again : (page.handle (.installHooksResult project twice)) =
        { state := page.state, refs := { page.refs with installStash := page.refs.installStash.filter (· ≠ project) } } := by
      refine @WebPage.setState_eq page twice (fun refs prev =>
        { state := prev, refs := { refs with installStash := refs.installStash.filter (· ≠ project) } }) ?_
      dsimp only
      rw [PageRefs.filter_absent]
      intro present
      simpa using (List.mem_filter.mp present).2
    rw [again]
    exact ⟨reflects.queue, reflects.keyed, reflects.gates, reflects.display, reflects.stash, reflects.matched⟩
  | installHooks project | synced | socket isOpen =>
    exact ⟨reflects.queue, reflects.keyed, reflects.gates, reflects.display, reflects.stash, reflects.matched⟩

theorem timely_of_cons {event : PageEvent} (timely : Timely (event :: history)) : Timely history := by
  cases event <;> first | exact timely | exact timely.2

theorem reflects_after (timely : Timely history) : Reflects history (WebPage.after history) := by
  induction history with
  | nil => exact ⟨rfl, Assoc.keyed_nil, fun _ => rfl, fun _ none => (nomatch none), fun _ => rfl, fun _ _ none => nomatch none⟩
  | cons event earlier ih => exact reflects_step (ih (timely_of_cons timely)) rfl timely

/-- At the end of each history whose steps are timely, a retry approves each request at most
once, and it sends what is due. -/
theorem retry_exact (history : List PageEvent) (twice : Bool) (timely : Timely (.retryPendingApprove twice :: history)) :
    let sent := ((WebPage.after history).handle (.retryPendingApprove twice)).sent
    (sent.filterMap PageRefs.approved).Nodup ∧ ∀ id opts, .approve id opts ∈ sent ↔ Due history id opts := by
  have reflects := reflects_after timely.2
  have run : ((WebPage.after history).handle (.retryPendingApprove twice)) =
      (WebPage.after history).refs.retry (WebPage.after history).state := reflects.retried
  rw [run]
  refine ⟨reflects.distinct.sublist PageRefs.replay_ids, fun id opts => ?_⟩
  have opened : { (WebPage.after history).refs with pendingReauths := [] }.socketOpen = true := timely.1
  refine (PageRefs.mem_replay opened reflects.distinct).trans ?_
  rw [Due]
  constructor
  · rintro ⟨reauth, member, rfl, _, found, queued⟩
    dsimp only at found
    rw [reflects.stash] at found
    rw [reflects.queue] at queued
    exact ⟨reauth.toolName, reflects.mem_gated.mp member, found, queued⟩
  · rintro ⟨toolName, gated, held, queued⟩
    refine ⟨⟨id, toolName⟩, reflects.mem_gated.mpr gated, rfl, (reflects.matched id _ held).1, ?_, ?_⟩
    · exact (reflects.stash id).trans held
    · rw [reflects.queue]
      exact queued

/-- A request that is approved after the effect, gated, and replayed once. -/
private def gatedOnce : List PageEvent :=
  [.webReauthRequired "r" "Bash" true, .approve "r" none, .synced, .newDecision ⟨"r", "Bash"⟩ true]

theorem retry_exact_once : .approve "r" none ∈ ((WebPage.after gatedOnce).handle (.retryPendingApprove true)).sent := by
  have timely : Timely (.retryPendingApprove true :: gatedOnce) := by
    refine ⟨rfl, ?_, ⟨by decide +kernel, by decide +kernel, by decide +kernel⟩, trivial⟩
    decide +kernel
  exact ((retry_exact gatedOnce true timely).2 "r" none).mpr ⟨"Bash", by decide +kernel, by decide +kernel, by decide +kernel⟩

/-- An approval that is called before the effect has copied the queue is lost. -/
theorem retry_loses_approval : ¬ ∀ (history : List PageEvent) (twice : Bool) (id : String) (opts : Option ApproveOpts),
    .approve id opts ∈ ((WebPage.after history).handle (.retryPendingApprove twice)).sent ↔ Due history id opts := by
  intro claimed
  have unsynced := (claimed [.webReauthRequired "r" "Bash" false, .approve "r" none, .newDecision ⟨"r", "Bash"⟩ false] false "r"
    none).mpr ⟨"Bash", by decide +kernel, by decide +kernel, by decide +kernel⟩
  revert unsynced
  decide +kernel

end Wisphive
