import Mathlib.Data.List.Nodup
import Mathlib.Data.List.Perm.Basic
import Wisphive.ProcessRegistry

/-! When no managed agent is lost. The registry and the stops hold leaders that nobody else reaps,
and a leader that is not reaped keeps its group in place. What goes wrong is said step by step. -/

namespace Wisphive
open Foundation

/-- The group of a process, and whether its leader was reaped. -/
structure ManagedProcess.Leads (process : ManagedProcess) (groups : List ProcessGroup) (reaped : Bool) : Prop where
  intro ::
  found : ∃ group, groups[process.group]? = some group ∧ group.pgid = process.pgid ∧
    (group.leader = .reaped ↔ reaped = true)

namespace ProcessSystem
variable {system after : ProcessSystem} {process : ManagedProcess} {task next : StopTask} {reaped : Bool}

/-- The leaders of the registry are not reaped, those of the stops when they were polled to have
exited, and no group is held twice. -/
structure Kept (system : ProcessSystem) : Prop where
  registered : ∀ process ∈ system.processes, process.Leads system.groups false
  stopping : ∀ task ∈ system.stops, task.process.Leads system.groups task.exitCode.isSome
  first : ∀ task ∈ system.stops, task.rung = .terminate → task.exitCode = none
  apart : (system.processes.map (·.group) ++ system.stops.map (·.process.group)).Nodup

/-! ### Groups -/

theorem leads_present (leads : process.Leads system.groups false) : system.present process.group = true := by
  obtain ⟨group, found, _, unreaped⟩ := leads.found
  have kept : group.leader ≠ .reaped := fun gone => Bool.false_ne_true (unreaped.mp gone)
  rw [present, found, Option.any_some, ProcessGroup.present, decide_eq_true kept, Bool.true_or]

/-- A group is not gone as long as its number is in use. -/
theorem gone_of_probe (leads : process.Leads system.groups reaped)
    (probe : system.processGroupGone process.pgid = true) : system.present process.group = false := by
  obtain ⟨group, found, number, _⟩ := leads.found
  have free := (Bool.and_eq_true_iff.mp probe).2
  rw [inUse, Bool.not_eq_true', List.any_eq_false] at free
  have absent := free group (List.mem_of_getElem? found)
  rw [Bool.and_eq_true, decide_eq_true_eq, not_and, Bool.not_eq_true] at absent
  rw [present, found, Option.any_some, absent number]

/-- What a change of the groups must keep for a process. -/
theorem leads_frame {groups later : List ProcessGroup} (leads : process.Leads groups reaped)
    (keeps : ∀ group, groups[process.group]? = some group → ∃ changed, later[process.group]? = some changed ∧
      changed.pgid = group.pgid ∧ (changed.leader = .reaped ↔ group.leader = .reaped)) : process.Leads later reaped := by
  obtain ⟨group, found, number, unreaped⟩ := leads.found
  obtain ⟨changed, there, sameNumber, sameLeader⟩ := keeps group found
  exact ⟨changed, there, sameNumber.trans number, sameLeader.trans unreaped⟩

theorem leads_append {groups : List ProcessGroup} (leads : process.Leads groups reaped) (new : ProcessGroup) :
    process.Leads (groups ++ [new]) reaped := by
  refine leads_frame leads fun group found => ⟨group, ?_, rfl, Iff.rfl⟩
  rw [List.getElem?_append_left (List.getElem?_eq_some_iff.mp found).1, found]

theorem leads_modify {groups : List ProcessGroup} {index : Nat} {change : ProcessGroup → ProcessGroup}
    (leads : process.Leads groups reaped) (number : ∀ group, (change group).pgid = group.pgid)
    (leader : ∀ group, groups[index]? = some group → process.group = index →
      ((change group).leader = .reaped ↔ group.leader = .reaped)) :
    process.Leads (groups.modify index change) reaped := by
  refine leads_frame leads fun group found => ?_
  rw [List.getElem?_modify, found]
  by_cases same : index = process.group
  · refine ⟨change group, by simp [same], number group, leader group ?_ same.symm⟩
    rw [same, found]
  · exact ⟨group, by simp [same], rfl, Iff.rfl⟩

theorem leads_reapLeaders {groups : List ProcessGroup} {chosen : Nat → Bool} (leads : process.Leads groups reaped)
    (spared : chosen process.group = false) : process.Leads (reapLeaders groups chosen) reaped := by
  refine leads_frame leads fun group found => ⟨group, ?_, rfl, Iff.rfl⟩
  simp [reapLeaders, List.getElem?_mapIdx, found, spared]

theorem leads_reaped {groups : List ProcessGroup} {chosen : Nat → Bool} (leads : process.Leads groups reaped)
    (picked : chosen process.group = true) : process.Leads (reapLeaders groups chosen) true := by
  obtain ⟨group, found, number, _⟩ := leads.found
  refine ⟨group.reap, ?_, number, fun _ => rfl, fun _ => rfl⟩
  simp [reapLeaders, List.getElem?_mapIdx, found, picked]

/-! ### The parts of the system -/

theorem Kept.process_ne_task (kept : Kept system) (listed : process ∈ system.processes) (member : task ∈ system.stops) :
    process.group ≠ task.process.group :=
  (List.nodup_append.mp kept.apart).2.2 _ (List.mem_map_of_mem listed) _ (List.mem_map_of_mem member)

theorem Kept.task_eq (kept : Kept system) (member : task ∈ system.stops) {other : StopTask} (present : other ∈ system.stops)
    (same : other.process.group = task.process.group) : other = task :=
  List.inj_on_of_nodup_map (List.nodup_append.mp kept.apart).2.1 present member same

theorem Kept.process_eq (kept : Kept system) (listed : process ∈ system.processes) {other : ManagedProcess}
    (present : other ∈ system.processes) (same : other.group = process.group) : other = process :=
  List.inj_on_of_nodup_map (List.nodup_append.mp kept.apart).1 present listed same

/-- Only the groups change, and nobody's group in a way that counts. -/
theorem Kept.groups (kept : Kept system) {groups : List ProcessGroup} {log : List Observation} {now : Nat}
    (processes : ∀ process ∈ system.processes, process.Leads groups false)
    (stops : ∀ task ∈ system.stops, task.process.Leads groups task.exitCode.isSome) :
    Kept { system with groups, log, now } where
  registered := processes
  stopping := stops
  first := kept.first
  apart := kept.apart

/-- A stop moves on. -/
theorem Kept.setTask (kept : Kept system) (member : task ∈ system.stops) {groups : List ProcessGroup}
    {log : List Observation} (same : next.process = task.process) (leads : next.process.Leads groups next.exitCode.isSome)
    (first : next.rung = .terminate → next.exitCode = none)
    (others : ∀ process : ManagedProcess, ∀ reaped, process.group ≠ task.process.group →
      process.Leads system.groups reaped → process.Leads groups reaped) :
    Kept ({ system with groups, log }.setTask next) := by
  have split {other : StopTask} (there : other ∈ ({ system with groups, log }.setTask next).stops) :
      other = next ∨ other ∈ system.stops ∧ other.process.group ≠ task.process.group := by
    obtain ⟨before, present, rfl⟩ := List.mem_map.mp there
    rw [same]
    split
    · exact .inl rfl
    · next differ => exact .inr ⟨present, differ⟩
  have names : ({ system with groups, log }.setTask next).stops.map (fun other : StopTask => other.process.group) =
      system.stops.map fun other : StopTask => other.process.group := by
    simp only [ProcessSystem.setTask, List.map_map]
    refine List.map_congr_left fun other _ => ?_
    rw [Function.comp_apply]
    split
    · next equal => exact equal.symm
    · rfl
  refine ⟨fun process listed => ?_, fun other there => ?_, fun other there => ?_, ?_⟩
  · exact others process false (kept.process_ne_task listed member) (kept.registered process listed)
  · rcases split there with rfl | ⟨present, differ⟩
    · exact leads
    · exact others _ _ differ (kept.stopping other present)
  · rcases split there with rfl | ⟨present, _⟩
    · exact first
    · exact kept.first other present
  · rw [names]
    exact kept.apart

theorem Kept.endTask (kept : Kept system) (task : StopTask) (log : List Observation) :
    Kept { system.endTask task with log } where
  registered := kept.registered
  stopping other present := kept.stopping other (List.mem_of_mem_filter present)
  first other present := kept.first other (List.mem_of_mem_filter present)
  apart := kept.apart.sublist (List.Sublist.append_left (List.filter_sublist.map _) _)

theorem Kept.take (kept : Kept system) (chosen : ManagedProcess → Bool) : Kept (system.take chosen) := by
  refine ⟨fun process listed => kept.registered process (List.mem_of_mem_filter listed), fun task there => ?_,
    fun task there => ?_, ?_⟩
  · rcases List.mem_append.mp there with old | new
    · exact kept.stopping task old
    · obtain ⟨process, picked, rfl⟩ := List.mem_map.mp new
      exact kept.registered process (List.mem_of_mem_filter picked)
  · rcases List.mem_append.mp there with old | new
    · exact kept.first task old
    · obtain ⟨process, picked, rfl⟩ := List.mem_map.mp new
      exact fun _ => rfl
  · have moved : ((system.take chosen).processes.map (·.group) ++ (system.take chosen).stops.map (·.process.group)).Perm
        (system.processes.map (·.group) ++ system.stops.map (·.process.group)) := by
      have whole : ((system.processes.filter chosen).map (·.group) ++
          (system.processes.filter (!chosen ·)).map (·.group)).Perm (system.processes.map (·.group)) := by
        rw [← List.map_append]
        exact (List.filter_append_perm chosen system.processes).map _
      have rest := whole.append_right (system.stops.map (·.process.group))
      refine List.Perm.trans ?_ rest
      simp only [ProcessSystem.take, List.map_append, List.map_map]
      refine List.perm_append_comm.trans ?_
      rw [List.append_assoc]
      exact List.perm_append_comm
    exact moved.nodup_iff.mpr kept.apart

/-! ### Steps -/

theorem Kept.modifyGroup (kept : Kept system) {index : Nat} {change : ProcessGroup → ProcessGroup}
    (number : ∀ group, (change group).pgid = group.pgid)
    (leader : ∀ group, system.groups[index]? = some group →
      ((change group).leader = .reaped ↔ group.leader = .reaped)) : Kept (system.modifyGroup index change) :=
  kept.groups (fun process listed => leads_modify (kept.registered process listed) number fun group found _ => leader group found)
    (fun task member => leads_modify (kept.stopping task member) number fun group found _ => leader group found)

/-- A leader that nobody holds is reaped by its parent. -/
theorem Kept.reapLeader (kept : Kept system) {index : Nat} (free : system.held index = false) :
    Kept (system.modifyGroup index ProcessGroup.reap) := by
  obtain ⟨unlisted, unstopped⟩ := Bool.or_eq_false_iff.mp free
  refine kept.groups (fun process listed => ?_) fun task member => ?_
  · refine leads_modify (kept.registered process listed) (fun _ => rfl) fun group _ same => ?_
    have differ := List.any_eq_false.mp unlisted process listed
    exact (differ (decide_eq_true same)).elim
  · refine leads_modify (kept.stopping task member) (fun _ => rfl) fun group found same => ?_
    have finished := List.any_eq_false.mp unstopped task member
    obtain ⟨own, there, _, ended⟩ := (kept.stopping task member).found
    rw [same, found] at there
    cases there
    refine ⟨fun _ => ended.mpr ?_, fun _ => rfl⟩
    cases code : task.exitCode with
    | none => exact (finished (by rw [code, decide_eq_true same]; rfl)).elim
    | some _ => rfl

theorem Kept.spawnAgent (kept : Kept system) {agentId : Uuid} {pid : Nat} {aborted : Bool}
    (taken : system.spawnAgent agentId pid aborted = some after) : Kept after := by
  have older {process : ManagedProcess} {reaped : Bool} (leads : process.Leads system.groups reaped) : process.group < system.groups.length := by
    obtain ⟨group, found, _⟩ := leads.found
    exact (List.getElem?_eq_some_iff.mp found).1
  unfold ProcessSystem.spawnAgent at taken
  split at taken
  · cases taken
    split
    · exact kept.groups (fun process listed => leads_append (kept.registered process listed) _)
        fun task member => leads_append (kept.stopping task member) _
    · refine ⟨fun process listed => ?_, fun task member => leads_append (kept.stopping task member) _, kept.first, ?_⟩
      · rcases List.mem_append.mp listed with old | new
        · exact leads_append (kept.registered process old) _
        · rw [List.mem_singleton.mp new]
          exact ⟨_, List.getElem?_concat_length, rfl, fun impossible => (nomatch impossible), fun impossible => (nomatch impossible)⟩
      · rw [List.map_append, List.append_assoc]
        refine List.perm_middle.nodup_iff.mpr (List.nodup_cons.mpr ⟨fun there => ?_, kept.apart⟩)
        rcases List.mem_append.mp there with listed | stopping
        · obtain ⟨process, member, same⟩ := List.mem_map.mp listed
          have bound := older (kept.registered process member)
          simp only at same
          omega
        · obtain ⟨task, member, same⟩ := List.mem_map.mp stopping
          have bound := older (kept.stopping task member)
          simp only at same
          omega
  · cases taken

theorem Kept.reapExited (kept : Kept system) (errors : List Uuid) : Kept (system.reapExited errors) := by
  have other {process : ManagedProcess} (differ : ∀ found ∈ system.exited errors, found.group ≠ process.group) :
      ((system.exited errors).any fun found => decide (found.group = process.group)) = false :=
    List.any_eq_false.mpr fun found member => by
      rw [decide_eq_true_eq]
      exact differ found member
  refine ⟨fun process listed => ?_, fun task member => ?_, kept.first, ?_⟩
  · obtain ⟨there, left⟩ := List.mem_filter.mp listed
    refine leads_reapLeaders (kept.registered process there) (other fun found member same => ?_)
    have equal := kept.process_eq there (List.mem_of_mem_filter member) same
    exact of_decide_eq_true left (equal ▸ member)
  · exact leads_reapLeaders (kept.stopping task member)
      (other fun found picked => kept.process_ne_task (List.mem_of_mem_filter picked) member)
  · exact kept.apart.sublist (List.Sublist.append_right (List.filter_sublist.map _) _)

theorem Kept.poll (kept : Kept system) (member : task ∈ system.stops) (error : Bool) :
    Kept (system.poll task error) := by
  have stays : Kept (system.setTask { task with rung := .probe }) :=
    kept.setTask member rfl (kept.stopping task member) (fun impossible => (nomatch impossible)) fun _ _ _ leads => leads
  unfold ProcessSystem.poll
  split
  · refine kept.setTask member rfl ?_ (fun impossible => (nomatch impossible)) fun process reaped differ leads => ?_
    · exact leads_reaped (kept.stopping task member) (decide_eq_true rfl)
    · exact leads_reapLeaders leads (decide_eq_false differ)
  · exact stays

theorem Kept.climb (kept : Kept system) (member : task ∈ system.stops) (error : Bool) : Kept (system.climb task error) := by
  have moved {log : List Observation} {next : StopTask} (same : next.process = task.process)
      (code : next.exitCode = task.exitCode) (later : next.rung ≠ .terminate) : Kept ({ system with log }.setTask next) :=
    kept.setTask member same (by rw [same, code]; exact kept.stopping task member) (fun impossible => (later impossible).elim)
      fun _ _ _ leads => leads
  unfold ProcessSystem.climb
  cases rung : task.rung with
  | terminate => exact moved rfl rfl (fun impossible => nomatch impossible)
  | arm => exact moved rfl rfl (fun impossible => nomatch impossible)
  | poll => exact kept.poll member error
  | probe =>
    simp only
    split
    · split
      · exact kept.endTask task _
      · exact moved rfl rfl (fun impossible => nomatch impossible)
    · exact moved rfl rfl (fun impossible => nomatch impossible)
  | decide =>
    simp only
    split
    · refine moved rfl rfl ?_
      split <;> exact fun impossible => nomatch impossible
    · split
      · exact kept.endTask task _
      · exact moved rfl rfl (fun impossible => nomatch impossible)
  | killGroup since => exact moved rfl rfl (fun impossible => nomatch impossible)
  | killLeader since => exact moved rfl rfl (fun impossible => nomatch impossible)

theorem Kept.step (kept : Kept system) {event : ProcessEvent} (taken : system.step event = some after) : Kept after := by
  cases event with
  | spawnAgent agentId pid aborted => exact kept.spawnAgent taken
  | takeForStop agentId =>
    cases taken
    exact kept.take _
  | shutdownAll =>
    cases taken
    exact kept.take _
  | reapExited errors =>
    cases taken
    exact kept.reapExited errors
  | advance group error =>
    obtain ⟨task, found, rfl⟩ := Option.map_eq_some_iff.mp taken
    exact kept.climb (List.mem_of_find?_eq_some found) error
  | newGroup pid =>
    simp only [ProcessSystem.step] at taken
    split at taken
    · cases taken
      exact kept.groups (fun process listed => leads_append (kept.registered process listed) _)
        fun task member => leads_append (kept.stopping task member) _
    · cases taken
  | fork group =>
    simp only [ProcessSystem.step] at taken
    split at taken
    · cases taken
      exact kept.modifyGroup (fun _ => rfl) fun _ _ => Iff.rfl
    · cases taken
  | memberGone group =>
    cases taken
    exact kept.modifyGroup (fun _ => rfl) fun _ _ => Iff.rfl
  | leaderExit group code =>
    simp only [ProcessSystem.step] at taken
    split at taken
    · next running =>
      cases taken
      refine kept.modifyGroup (fun _ => rfl) fun found there => ?_
      rw [there, Option.any_some] at running
      refine ⟨fun impossible => (nomatch impossible), fun gone => ?_⟩
      rw [of_decide_eq_true running] at gone
      cases gone
    · cases taken
  | reapLeader group =>
    simp only [ProcessSystem.step] at taken
    split at taken
    · next free =>
      cases taken
      exact kept.reapLeader free.2
    · cases taken
  | clock now =>
    simp only [ProcessSystem.step] at taken
    split at taken
    · cases taken
      exact kept.groups kept.registered kept.stopping
    · cases taken

/-! ### Observations -/

/-- What a step observes is as it should be exactly if the step meets its condition, the agents
that are taken to be stopped apart. -/
structure Observes (system : ProcessSystem) (event : ProcessEvent) (news : List Observation) : Prop where
  rest : (∀ seen ∈ news, seen.isTaken = false → seen.good = true) ↔ Confirms system event
  taken : (∀ seen ∈ news, seen.isTaken = true → seen.good = true) ↔ Untaken system event

theorem observes_nothing {event : ProcessEvent} (confirms : Confirms system event) (untaken : Untaken system event) :
    Observes system event [] :=
  ⟨⟨fun _ => confirms, fun _ _ impossible => (nomatch impossible)⟩, ⟨fun _ => untaken, fun _ _ impossible => (nomatch impossible)⟩⟩

/-- A single observation that is no taking. -/
theorem observes_one {event : ProcessEvent} {seen : Observation} (other : seen.isTaken = false)
    (exact : seen.good = true ↔ Confirms system event) (untaken : Untaken system event) : Observes system event [seen] := by
  constructor
  · rw [← exact]
    refine ⟨fun holds => holds seen (List.mem_singleton.mpr rfl) other, fun holds news member _ => ?_⟩
    rw [List.mem_singleton.mp member]
    exact holds
  · refine ⟨fun _ => untaken, fun _ news member counted => ?_⟩
    rw [List.mem_singleton.mp member, other] at counted
    cases counted

/-- An agent of the registry has its group when it is taken. -/
theorem observes_take (kept : Kept system) {event : ProcessEvent} {chosen : ManagedProcess → Bool}
    (confirms : Confirms system event) (exact : (∀ process ∈ system.processes, chosen process = false) ↔ Untaken system event) :
    ∃ news, (system.take chosen).log = system.log ++ news ∧ Observes system event news := by
  refine ⟨(system.processes.filter chosen).map fun process => .taken process.agentId (!system.present process.group), rfl,
    ?_, ?_⟩
  · refine ⟨fun _ => confirms, fun _ news member other => ?_⟩
    obtain ⟨process, _, rfl⟩ := List.mem_map.mp member
    cases other
  · rw [← exact]
    constructor
    · intro holds process listed
      by_contra picked
      have inside := List.mem_filter.mpr ⟨listed, (Bool.not_eq_false _).mp picked⟩
      have gone : (!system.present process.group) = true := holds _ (List.mem_map.mpr ⟨process, inside, rfl⟩) rfl
      rw [leads_present (kept.registered process listed)] at gone
      cases gone
    · intro none news member _
      obtain ⟨process, picked, rfl⟩ := List.mem_map.mp member
      obtain ⟨listed, chose⟩ := List.mem_filter.mp picked
      rw [none process listed] at chose
      cases chose

/-- A leader that was reaped leaves its group to the others. -/
theorem present_reaped {groups : List ProcessGroup} {chosen : Nat → Bool} (later : ProcessSystem)
    (same : later.groups = reapLeaders groups chosen) (leads : process.Leads groups reaped) (picked : chosen process.group = true) :
    (!later.present process.group) = groups[process.group]?.all (·.others = 0) := by
  obtain ⟨group, found, _, _⟩ := leads.found
  have there : later.groups[process.group]? = some group.reap := by
    rw [same]
    simp [reapLeaders, List.getElem?_mapIdx, found, picked]
  rw [present, there, found, Option.any_some, Option.all_some, ProcessGroup.present, ProcessGroup.reap]
  cases group.others <;> rfl

theorem observes_reapExited (kept : Kept system) (errors : List Uuid) :
    ∃ news, (system.reapExited errors).log = system.log ++ news ∧ Observes system (.reapExited errors) news := by
  refine ⟨_, rfl, ⟨?_, ?_⟩⟩
  · rw [Confirms]
    let chosen := fun index => (system.exited errors).any (·.group = index)
    have exact {process : ManagedProcess} (picked : process ∈ system.exited errors) :
        (!present { system with groups := reapLeaders system.groups chosen } process.group) =
          system.groups[process.group]?.all (·.others = 0) :=
      present_reaped _ rfl (kept.registered process (List.mem_of_mem_filter picked))
        (List.any_eq_true.mpr ⟨process, picked, decide_eq_true rfl⟩)
    constructor
    · intro holds process picked
      rw [← exact picked]
      exact holds _ (List.mem_map.mpr ⟨process, picked, rfl⟩) rfl
    · intro holds news member _
      obtain ⟨process, picked, rfl⟩ := List.mem_map.mp member
      exact (exact picked).trans (holds process picked)
  · refine ⟨fun _ => trivial, fun _ news member taking => ?_⟩
    obtain ⟨process, _, rfl⟩ := List.mem_map.mp member
    cases taking

theorem confirms_advance (kept : Kept system) (member : task ∈ system.stops) (error : Bool) :
    Confirms system (.advance task.process.group error) ↔ system.inTime task = true := by
  constructor
  · exact fun confirms => confirms task member rfl
  · intro timely other present same
    rw [kept.task_eq member present same]
    exact timely

theorem observes_climb (kept : Kept system) (member : task ∈ system.stops) (error : Bool) :
    ∃ news, (system.climb task error).log = system.log ++ news ∧
      Observes system (.advance task.process.group error) news := by
  have quiet {next : StopTask} (timely : system.inTime task = true) : ∃ news, (system.setTask next).log = system.log ++ news ∧
      Observes system (.advance task.process.group error) news :=
    ⟨[], (List.append_nil _).symm, observes_nothing ((confirms_advance kept member error).mpr timely) trivial⟩
  have one {seen : Observation} (other : seen.isTaken = false) (exact : seen.good = system.inTime task) :
      Observes system (.advance task.process.group error) [seen] :=
    observes_one other (by rw [exact, confirms_advance kept member error]) trivial
  unfold ProcessSystem.climb
  cases rung : task.rung with
  | terminate =>
    have leads := kept.stopping task member
    rw [kept.first task member rung] at leads
    exact ⟨_, rfl, one rfl (by rw [inTime, rung]; exact leads_present leads)⟩
  | arm => exact quiet (by rw [inTime, rung])
  | poll =>
    have silent := observes_nothing ((confirms_advance kept member error).mpr (by rw [inTime, rung])) trivial
    refine ⟨[], ?_, silent⟩
    rw [List.append_nil]
    show (system.poll task error).log = system.log
    unfold ProcessSystem.poll
    split <;> rfl
  | probe =>
    have timely : system.inTime task = true := by rw [inTime, rung]
    simp only
    split
    · split
      · next probe =>
        refine ⟨_, rfl, one rfl ?_⟩
        rw [timely, Observation.good, gone_of_probe (kept.stopping task member) probe]
        rfl
      · exact quiet timely
    · exact quiet timely
  | decide =>
    simp only
    split
    · next unset => exact quiet (by rw [inTime, rung, unset]; rfl)
    · next deadline set =>
      split
      · next late =>
        refine ⟨_, rfl, one rfl ?_⟩
        have lost : (system.endTask task).processes.any (·.group = task.process.group) = false :=
          List.any_eq_false.mpr fun process listed => by
            rw [decide_eq_true_eq]
            exact kept.process_ne_task listed member
        rw [Observation.good, lost, inTime, rung, set]
        exact (decide_eq_false (Nat.not_lt.mpr late)).symm
      · next early => exact quiet (by rw [inTime, rung, set]; exact decide_eq_true (Nat.lt_of_not_le early))
  | killGroup since => exact ⟨_, rfl, one rfl (by rw [inTime, rung]; rfl)⟩
  | killLeader since => exact quiet (by rw [inTime, rung])

/-- What a step adds to the log, and when that is as it should be. -/
theorem observes_step (kept : Kept system) {event : ProcessEvent} (taken : system.step event = some after) :
    ∃ news, after.log = system.log ++ news ∧ Observes system event news := by
  have nothing {event : ProcessEvent} (confirms : Confirms system event) (untaken : Untaken system event)
      (same : after.log = system.log) : ∃ news, after.log = system.log ++ news ∧ Observes system event news :=
    ⟨[], same.trans (List.append_nil _).symm, observes_nothing confirms untaken⟩
  cases event with
  | spawnAgent agentId pid aborted =>
    simp only [ProcessSystem.step, ProcessSystem.spawnAgent] at taken
    split at taken
    · cases taken
      split
      · have confirms : Confirms system (.spawnAgent agentId pid aborted) := trivial
        refine ⟨_, rfl, observes_one rfl ⟨fun _ => confirms, fun _ => ?_⟩ trivial⟩
        simp [Observation.good, present, ProcessGroup.present]
      · exact ⟨[], (List.append_nil _).symm, observes_nothing trivial trivial⟩
    · cases taken
  | takeForStop agentId =>
    obtain rfl := Option.some.inj taken
    have confirms : Confirms system (.takeForStop agentId) := trivial
    have untaken : Untaken system (.takeForStop agentId) ↔ ∀ process ∈ system.processes, process.agentId ≠ agentId :=
      Iff.rfl
    refine observes_take kept confirms (Iff.trans ?_ untaken.symm)
    exact forall₂_congr fun process _ => decide_eq_false_iff_not
  | shutdownAll =>
    obtain rfl := Option.some.inj taken
    have confirms : Confirms system .shutdownAll := trivial
    have untaken : Untaken system .shutdownAll ↔ system.processes = [] := Iff.rfl
    refine observes_take kept confirms (Iff.trans ?_ untaken.symm)
    rw [List.eq_nil_iff_forall_not_mem]
    exact ⟨fun none process listed => (nomatch none process listed), fun none process listed => (none process listed).elim⟩
  | reapExited errors =>
    cases taken
    exact observes_reapExited kept errors
  | advance group error =>
    obtain ⟨task, found, rfl⟩ := Option.map_eq_some_iff.mp taken
    have chosen := List.find?_some found
    have same : task.process.group = group := of_decide_eq_true chosen
    rw [← same]
    exact observes_climb kept (List.mem_of_find?_eq_some found) error
  | memberGone group =>
    cases taken
    exact nothing trivial trivial rfl
  | newGroup | fork | leaderExit | reapLeader | clock =>
    simp only [ProcessSystem.step] at taken
    split at taken
    · cases taken
      exact nothing trivial trivial rfl
    · cases taken

/-! ### Runs -/

/-- Everything that was observed is as it should be. -/
def Confirmed (system : ProcessSystem) : Prop :=
  ∀ seen ∈ system.log, seen.good = true

/-- The same, where an agent counts as managed while it is being stopped. -/
def ConfirmedLeaving (system : ProcessSystem) : Prop :=
  ∀ seen ∈ system.log, seen.isTaken = false → seen.good = true

theorem kept_start (groups : List ProcessGroup) : Kept (machine groups).start :=
  ⟨fun _ impossible => (nomatch impossible), fun _ impossible => (nomatch impossible), fun _ impossible => (nomatch impossible),
    List.nodup_nil⟩

theorem confirmedLeaving_step (kept : Kept system) {event : ProcessEvent} (taken : system.step event = some after) :
    ConfirmedLeaving after ↔ ConfirmedLeaving system ∧ Confirms system event := by
  obtain ⟨news, log, observes⟩ := observes_step kept taken
  rw [ConfirmedLeaving, log, List.forall_mem_append, observes.rest]
  exact Iff.rfl

theorem confirmed_step (kept : Kept system) {event : ProcessEvent} (taken : system.step event = some after) :
    Confirmed after ↔ Confirmed system ∧ Strict system event := by
  obtain ⟨news, log, observes⟩ := observes_step kept taken
  have both : (∀ seen ∈ news, seen.good = true) ↔ Strict system event := by
    rw [Strict, ← observes.rest, ← observes.taken]
    constructor
    · exact fun all => ⟨fun seen member _ => all seen member, fun seen member _ => all seen member⟩
    · rintro ⟨rest, taking⟩ seen member
      cases kind : seen.isTaken with
      | true => exact taking seen member kind
      | false => exact rest seen member kind
  rw [Confirmed, log, List.forall_mem_append, both]
  exact Iff.rfl

/-- In exactly the runs that take no managed agent out of the registry to be stopped, and reap no
leader of a group that has others, is every agent confirmed gone when it leaves the registry or is
reported, every failed stop open to another one, and every signal in time. Where an agent counts as
managed until its stop has ended, the stops must be in time instead. -/
theorem agents_confirmed_iff (groups : List ProcessGroup) (events : List ProcessEvent) (after : ProcessSystem)
    (taken : (machine groups).run Machine.free (machine groups).start events = some after) :
    (Confirmed after ↔ (machine groups).run Strict (machine groups).start events = some after) ∧
      (ConfirmedLeaving after ↔ (machine groups).run Confirms (machine groups).start events = some after) := by
  have strict := @Machine.run_good_iff _ _ (machine groups) Strict _ Kept Confirmed
    (fun _ _ _ kept taken => kept.step taken) (fun _ _ _ kept taken => confirmed_step kept taken) _ _ _
    (kept_start groups) taken
  have leaving := @Machine.run_good_iff _ _ (machine groups) Confirms _ Kept ConfirmedLeaving
    (fun _ _ _ kept taken => kept.step taken) (fun _ _ _ kept taken => confirmedLeaving_step kept taken) _ _ _
    (kept_start groups) taken
  have nothing : Confirmed (machine groups).start := fun _ impossible => (nomatch impossible)
  rw [strict, leaving]
  exact ⟨and_iff_right nothing, and_iff_right fun seen member _ => nothing seen member⟩

/-- A spawn whose agent forks, is stopped, and goes with its child before the grace is over. -/
def stoppedEvents : List ProcessEvent :=
  [.spawnAgent 7 100 false, .fork 0, .takeForStop 7, .advance 0 false, .advance 0 false, .memberGone 0,
    .leaderExit 0 (some 0), .advance 0 false, .advance 0 false]

def stoppedSystem : ProcessSystem where
  groups := [{ pgid := 100, leader := .reaped }]
  log := [.taken 7 false, .signalled 0 true, .reported 7 (some 0) true]

theorem agents_confirmed_iff_stopped : ConfirmedLeaving stoppedSystem :=
  (agents_confirmed_iff [] stoppedEvents stoppedSystem (by decide)).2.mpr (by decide)

/-- A leader exits and leaves a child behind. -/
def survivorEvents : List ProcessEvent :=
  [.spawnAgent 7 100 false, .fork 0, .leaderExit 0 (some 0), .reapExited []]

def survivorSystem : ProcessSystem where
  groups := [{ pgid := 100, leader := .reaped, others := 1 }]
  log := [.reported 7 (some 0) false]

/-- The last child goes after it was probed, another program starts a group of that number, and the
grace is over. -/
def reusedEvents : List ProcessEvent :=
  [.spawnAgent 7 100 false, .fork 0, .takeForStop 7, .advance 0 false, .advance 0 false, .leaderExit 0 none,
    .advance 0 false, .advance 0 false, .memberGone 0, .newGroup 100, .clock 2000, .advance 0 false, .advance 0 false]

def reusedSystem : ProcessSystem where
  groups := [{ pgid := 100, leader := .reaped }, { pgid := 100 }]
  stops := [{ process := ⟨7, 0, 100⟩, rung := .killLeader 2000, exitCode := some none, graceDeadline := 2000 }]
  now := 2000
  log := [.taken 7 false, .signalled 0 true, .signalled 0 false]

/-- An agent is reported exited with its group still there, and a group is killed by the number of
one that is gone. -/
theorem survivor_lost_and_number_reused :
    (machine []).run Machine.free (machine []).start survivorEvents = some survivorSystem ∧
      survivorSystem.processes = [] ∧ survivorSystem.stops = [] ∧ survivorSystem.present 0 = true ∧
      ¬ ConfirmedLeaving survivorSystem ∧
      (machine []).run Machine.free (machine []).start reusedEvents = some reusedSystem ∧
      reusedSystem.present 0 = false ∧ reusedSystem.inUse 100 = true ∧ ¬ ConfirmedLeaving reusedSystem := by
  have survivor : ¬ ConfirmedLeaving survivorSystem := fun confirmed =>
    Bool.false_ne_true (confirmed (.reported 7 (some 0) false) (List.mem_singleton.mpr rfl) rfl)
  have reused : ¬ ConfirmedLeaving reusedSystem := fun confirmed =>
    Bool.false_ne_true (confirmed (.signalled 0 false) (by decide) rfl)
  exact ⟨by decide, rfl, rfl, by decide, survivor, by decide, by decide, by decide, reused⟩

end ProcessSystem
end Wisphive
