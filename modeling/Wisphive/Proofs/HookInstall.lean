import Wisphive.HookInstall

/-! What an install and a removal of the hooks leave of a settings document. -/

namespace Wisphive
open Foundation HookMatcher
namespace HookInstaller
variable {installer : HookInstaller} {rule hook settings installed : Json} {rules hooks allowed : List Json}

/-! ### Rules -/

theorem get?_adjustAt {key other : String} {f : Json → Json} :
    (Json.adjustAt key f rule).get? other = if other = key then (rule.get? key).map f else rule.get? other := by
  cases rule with
  | object members => exact Json.lookup_adjust
  | null | bool _ | number _ | string _ | array _ => simp [Json.adjustAt, Json.get?]

theorem adjustAt_eq_self {key : String} {f : Json → Json} (kept : ∀ value, rule.get? key = some value → f value = value) :
    Json.adjustAt key f rule = rule := by
  cases rule with
  | object members => exact congrArg Json.object (Json.adjust_eq_self kept)
  | null | bool _ | number _ | string _ | array _ => rfl

theorem adjustAt_adjustAt {key : String} {f g : Json → Json} :
    Json.adjustAt key f (Json.adjustAt key g rule) = Json.adjustAt key (f ∘ g) rule := by
  cases rule with
  | object members => exact congrArg Json.object Json.adjust_adjust
  | null | bool _ | number _ | string _ | array _ => rfl

theorem asArray?_onArray {f : List Json → List Json} : (onArray f rule).asArray? = rule.asArray?.map f := by
  cases rule <;> rfl

theorem nested_adjustAt {f : List Json → List Json} :
    nested (Json.adjustAt "hooks" (onArray f) rule) = (nested rule).map f := by
  rw [nested, get?_adjustAt, if_pos rfl, nested]
  cases rule.get? "hooks" with
  | none => rfl
  | some value => exact asArray?_onArray

theorem isOurs_adjustAt {f : Json → Json} : isOurs (Json.adjustAt "hooks" f rule) = isOurs rule := by
  rw [isOurs, get?_adjustAt, if_neg (by decide), isOurs]

theorem onArray_eq_self {f : List Json → List Json} {value : Json} (kept : ∀ items, value.asArray? = some items → f items = items) :
    onArray f value = value := by
  cases value with
  | array items => exact congrArg Json.array (kept items rfl)
  | null | bool _ | number _ | string _ | object _ => rfl

/-- The user's rules stay as they are. -/
theorem withoutOurs_eq_self (kept : ∀ hooks ∈ nested rule, ∀ hook ∈ hooks, isOurs hook = false) : withoutOurs rule = rule := by
  refine adjustAt_eq_self fun value found => onArray_eq_self fun items listed => ?_
  have hooks : nested rule = some items := by rw [nested, found, Option.bind_some, listed]
  exact List.filter_eq_self.mpr fun hook member => by simp [kept items hooks hook member]

theorem hasWisphiveHook_eq_false : hasWisphiveHook rule = false ↔
    (∀ hooks ∈ nested rule, ∀ hook ∈ hooks, isOurs hook = false) ∧ isOurs rule = false := by
  rw [hasWisphiveHook, Bool.or_eq_false_iff]
  refine and_congr_left' ?_
  cases nested rule with
  | none => simp
  | some hooks => simp

/-- The hook that is written is one of ours, and updating it again changes nothing. -/
theorem isOurs_updateCommandHook (ours : isOurs hook = true) : isOurs (installer.updateCommandHook hook) = true := by
  cases hook with
  | object members =>
    have command : (installer.updateCommandHook (.object members)).get? "command" = some (.string installer.command) := by
      rw [updateCommandHook]
      cases installer.timeout with
      | none => rw [Json.get?, Json.lookup_assignMember, if_pos rfl]
      | some timeout =>
        rw [Json.get?, Json.lookup_assignMember, if_neg (by decide), Json.lookup_assignMember, if_pos rfl]
    rw [isOurs, command]
    exact installer.accepted
  | null | bool _ | number _ | string _ | array _ => cases ours

theorem assignMember_eq_self {members : Json.Members} {key : String} {value : Json}
    (present : key ∈ members.map Prod.fst) (held : ∀ entry ∈ members, entry.1 = key → entry.2 = value) :
    Json.assignMember members key value = members := by
  rw [Json.assignMember, if_pos present]
  refine (List.map_congr_left fun entry member => ?_).trans (List.map_id members)
  split
  next same => rw [← same, ← held entry member same]; rfl
  next => rfl

theorem held_assignMember {members : Json.Members} {key : String} {value : Json} :
    ∀ entry ∈ Json.assignMember members key value, entry.1 = key → entry.2 = value := by
  rw [Json.assignMember]
  split
  next =>
    intro entry member same
    obtain ⟨raw, _, rfl⟩ := List.mem_map.mp member
    split at same
    next replaced => rw [if_pos replaced]
    next differs => exact absurd same differs
  next absent =>
    intro entry member same
    rcases List.mem_append.mp member with before | last
    · exact absurd (List.mem_map.mpr ⟨entry, before, same⟩) absent
    · rw [List.mem_singleton.mp last]

theorem mem_of_assignMember {members : Json.Members} {key : String} {value : Json} {entry : String × Json}
    (member : entry ∈ Json.assignMember members key value) (other : entry.1 ≠ key) : entry ∈ members := by
  rw [Json.assignMember] at member
  split at member
  next =>
    obtain ⟨raw, present, rfl⟩ := List.mem_map.mp member
    split at other
    next => exact absurd rfl other
    next differs => rwa [if_neg differs]
  next =>
    rcases List.mem_append.mp member with before | last
    · exact before
    · rw [List.mem_singleton.mp last] at other
      exact absurd rfl other

theorem mem_keys_assignMember {members : Json.Members} {key other : String} {value : Json} :
    other ∈ (Json.assignMember members key value).map Prod.fst ↔ other = key ∨ other ∈ members.map Prod.fst := by
  rw [Json.keys_assignMember]
  split
  next present => exact ⟨.inr, fun either => either.elim (fun same => same ▸ present) id⟩
  next => rw [List.mem_append, List.mem_singleton, or_comm]

theorem updateCommandHook_twice :
    installer.updateCommandHook (installer.updateCommandHook hook) = installer.updateCommandHook hook := by
  cases hook with
  | object members =>
    have command := @held_assignMember members "command" (.string installer.command)
    have present := @mem_keys_assignMember members "command" "command" (.string installer.command)
    cases timed : installer.timeout with
    | none =>
      simp only [updateCommandHook, timed]
      rw [assignMember_eq_self (present.mpr (.inl rfl)) command]
    | some timeout =>
      simp only [updateCommandHook, timed]
      rw [assignMember_eq_self (mem_keys_assignMember.mpr (.inr (present.mpr (.inl rfl)))),
        assignMember_eq_self (mem_keys_assignMember.mpr (.inl rfl)) held_assignMember]
      intro entry member same
      exact command entry (mem_of_assignMember member (by rw [same]; decide)) same
  | null | bool _ | number _ | string _ | array _ => rfl

/-! ### One event -/

/-- What an update does to a hook. -/
def updateHook (installer : HookInstaller) (hook : Json) : Json :=
  if isOurs hook then installer.updateCommandHook hook else hook

theorem isOurs_updateHook : isOurs (installer.updateHook hook) = isOurs hook := by
  rw [updateHook]
  split
  next ours => rw [isOurs_updateCommandHook ours, ours]
  next => rfl

theorem updateHook_twice : installer.updateHook (installer.updateHook hook) = installer.updateHook hook := by
  by_cases ours : isOurs hook = true
  · have twice : installer.updateHook hook = installer.updateCommandHook hook := if_pos ours
    rw [twice, updateHook, if_pos (isOurs_updateCommandHook ours), updateCommandHook_twice]
  · rw [updateHook, updateHook, if_neg ours]
    exact if_neg ours

theorem updateHook_theirs (theirs : isOurs hook = false) : installer.updateHook hook = hook := by
  rw [updateHook, theirs]
  rfl

theorem updateRule_of_nested (found : nested rule = some hooks) :
    installer.updateRule rule = Json.adjustAt "hooks" (onArray (·.map installer.updateHook)) rule := by
  rw [updateRule, found]
  rfl

theorem updateRule_of_flat (found : nested rule = none) : installer.updateRule rule = installer.updateHook rule := by
  rw [updateRule, found]
  rfl

theorem nested_updateHook (found : nested rule = none) : nested (installer.updateHook rule) = none := by
  rw [updateHook]
  split
  next =>
    cases rule with
    | object members =>
      have hooks : (installer.updateCommandHook (.object members)).get? "hooks" = Json.get? "hooks" (.object members) := by
        rw [updateCommandHook]
        cases installer.timeout with
        | none => rw [Json.get?, Json.lookup_assignMember, if_neg (by decide), Json.get?]
        | some timeout =>
          rw [Json.get?, Json.lookup_assignMember, if_neg (by decide), Json.lookup_assignMember, if_neg (by decide), Json.get?]
      rw [nested, hooks]
      exact found
    | null | bool _ | number _ | string _ | array _ => exact found
  next => exact found

theorem isUpdated_updateRule : isUpdated (installer.updateRule rule) = isUpdated rule := by
  cases found : nested rule with
  | none =>
    rw [updateRule_of_flat found, isUpdated, nested_updateHook found, isUpdated, found]
    exact isOurs_updateHook
  | some hooks =>
    rw [updateRule_of_nested found, isUpdated, nested_adjustAt, found, isUpdated, found]
    simp only [Option.map_some, List.any_map]
    exact congrArg hooks.any (funext fun hook => isOurs_updateHook)

theorem updateRule_twice : installer.updateRule (installer.updateRule rule) = installer.updateRule rule := by
  cases found : nested rule with
  | none => rw [updateRule_of_flat found, updateRule_of_flat (nested_updateHook found), updateHook_twice]
  | some hooks =>
    have again : nested (installer.updateRule rule) = some (hooks.map installer.updateHook) := by
      rw [updateRule_of_nested found, nested_adjustAt, found, Option.map_some]
    rw [updateRule_of_nested again, updateRule_of_nested found, adjustAt_adjustAt]
    congr 1
    funext value
    cases value with
    | array items =>
      refine congrArg Json.array ?_
      dsimp only
      rw [List.map_map]
      exact List.map_congr_left fun hook _ => updateHook_twice
    | null | bool _ | number _ | string _ | object _ => rfl

theorem updateRule_theirs (theirs : hasWisphiveHook rule = false) : installer.updateRule rule = rule := by
  obtain ⟨hooks, flat⟩ := hasWisphiveHook_eq_false.mp theirs
  cases found : nested rule with
  | none => rw [updateRule_of_flat found, updateHook_theirs flat]
  | some listed =>
    rw [updateRule_of_nested found]
    refine adjustAt_eq_self fun value held => onArray_eq_self fun items same => ?_
    have each : nested rule = some items := by rw [nested, held, Option.bind_some, same]
    exact (List.map_congr_left fun hook member => updateHook_theirs (hooks items each hook member)).trans (List.map_id items)

theorem nested_ownRule : ∃ hook, nested installer.ownRule = some [hook] ∧ isOurs hook = true ∧
    installer.updateCommandHook hook = hook ∧ isOurs installer.ownRule = false := by
  refine ⟨_, rfl, ?_, ?_, rfl⟩
  · cases timed : installer.timeout with
    | none => exact installer.accepted
    | some timeout => exact installer.accepted
  · cases timed : installer.timeout with
    | none =>
      simp only [updateCommandHook, timed]
      rfl
    | some timeout =>
      simp only [updateCommandHook, timed]
      rfl

theorem isUpdated_ownRule : isUpdated installer.ownRule = true := by
  obtain ⟨hook, found, ours, _⟩ := @nested_ownRule installer
  rw [isUpdated, found]
  simp [ours]

theorem updateRule_ownRule : installer.updateRule installer.ownRule = installer.ownRule := by
  obtain ⟨hook, found, ours, same, _⟩ := @nested_ownRule installer
  rw [updateRule_of_nested found]
  refine adjustAt_eq_self fun value held => onArray_eq_self fun items listed => ?_
  have each : nested installer.ownRule = some items := by rw [nested, held, Option.bind_some, listed]
  cases found.symm.trans each
  rw [List.map_singleton, updateHook, if_pos ours, same]

/-- A rule without hooks to update stays as it is. -/
theorem updateRule_idle (idle : isUpdated rule = false) : installer.updateRule rule = rule := by
  rw [isUpdated] at idle
  cases found : nested rule with
  | none =>
    rw [found] at idle
    rw [updateRule_of_flat found, updateHook_theirs idle]
  | some hooks =>
    rw [found] at idle
    rw [updateRule_of_nested found]
    refine adjustAt_eq_self fun value held => onArray_eq_self fun items same => ?_
    have each : nested rule = some items := by rw [nested, held, Option.bind_some, same]
    cases found.symm.trans each
    refine (List.map_congr_left fun hook member => updateHook_theirs ?_).trans (List.map_id _)
    simpa using List.any_eq_false.mp idle hook member

/-- Installing into the rules of an event again changes nothing. -/
theorem addRule_twice : installer.addRule (installer.addRule rules) = installer.addRule rules := by
  by_cases updated : rules.any isUpdated = true
  · have once : installer.addRule rules = rules.map installer.updateRule := if_pos updated
    have again : (rules.map installer.updateRule).any isUpdated = true := by
      rw [List.any_map]
      exact (congrArg rules.any (funext fun rule => isUpdated_updateRule)).trans updated
    rw [once, addRule, if_pos again, List.map_map]
    exact List.map_congr_left fun rule _ => updateRule_twice
  · have once : installer.addRule rules = rules ++ [installer.ownRule] := if_neg updated
    have again : (rules ++ [installer.ownRule]).any isUpdated = true := by
      rw [List.any_append, List.any_cons, isUpdated_ownRule, Bool.true_or, Bool.or_true]
    have idle : ∀ rule ∈ rules, installer.updateRule rule = rule := by
      intro rule member
      rw [Bool.not_eq_true, List.any_eq_false] at updated
      exact updateRule_idle (by simpa using updated rule member)
    rw [once, addRule, if_pos again, List.map_append, List.map_singleton, updateRule_ownRule,
      List.map_congr_left idle, List.map_id']

/-! ### Removal -/

theorem removeFromRule_of_nested (found : nested rule = some hooks) :
    removeFromRule rule = if hooks.all isOurs then none else some (withoutOurs rule) := by
  rw [removeFromRule, found]
  rfl

theorem removeFromRule_of_flat (found : nested rule = none) :
    removeFromRule rule = if isOurs rule then none else some rule := by
  rw [removeFromRule, found]

/-- What is kept of a rule is the rule without hooks of ours. -/
theorem removeFromRule_eq_some {kept : Json} (removed : removeFromRule rule = some kept) : kept = withoutOurs rule := by
  cases found : nested rule with
  | none =>
    rw [removeFromRule_of_flat found] at removed
    split at removed
    next => cases removed
    next =>
      cases removed
      refine (withoutOurs_eq_self fun hooks listed => ?_).symm
      rw [found] at listed
      cases listed
  | some hooks =>
    rw [removeFromRule_of_nested found] at removed
    split at removed
    next => cases removed
    next => exact (Option.some.inj removed).symm

theorem nested_withoutOurs : nested (withoutOurs rule) = (nested rule).map (·.filter (!isOurs ·)) :=
  nested_adjustAt

theorem isOurs_withoutOurs : isOurs (withoutOurs rule) = isOurs rule :=
  isOurs_adjustAt

theorem removeFromRule_ownRule : removeFromRule installer.ownRule = none := by
  obtain ⟨hook, found, ours, _⟩ := @nested_ownRule installer
  rw [removeFromRule_of_nested found]
  simp [ours]

/-- Of a rule that is the user's alone nothing is lost, unless its list of hooks is empty. -/
theorem removeFromRule_theirs (theirs : hasWisphiveHook rule = false) :
    removeFromRule rule = some rule ↔ nested rule ≠ some [] := by
  obtain ⟨hooks, flat⟩ := hasWisphiveHook_eq_false.mp theirs
  cases found : nested rule with
  | none =>
    rw [removeFromRule_of_flat found, flat]
    simp
  | some listed =>
    have same : withoutOurs rule = rule := withoutOurs_eq_self hooks
    rw [removeFromRule_of_nested found, same]
    cases listed with
    | nil => simp
    | cons hook rest =>
      have first : isOurs hook = false := hooks _ found hook (List.mem_cons_self ..)
      simp [first]

/-- After a removal a rule still has a hook of ours exactly if a command of ours stands beside
a nested hook of the user. -/
theorem hasWisphiveHook_removed {kept : Json} (removed : removeFromRule rule = some kept) :
    hasWisphiveHook kept = (isOurs rule && (nested rule).isSome) := by
  have same := removeFromRule_eq_some removed
  have inside : (nested kept).any (·.any isOurs) = false := by
    rw [same, nested_withoutOurs]
    cases nested rule with
    | none => rfl
    | some hooks => simp
  rw [hasWisphiveHook, inside, Bool.false_or, same, isOurs_withoutOurs]
  cases found : nested rule with
  | none =>
    rw [removeFromRule_of_flat found] at removed
    split at removed
    next => cases removed
    next theirs => simpa using theirs
  | some hooks => rw [Option.isSome_some, Bool.and_true]

/-! ### Permissions -/

theorem asString?_eq_some {entry : Json} {text : String} : entry.asString? = some text ↔ entry = .string text := by
  cases entry <;> simp [Json.asString?]

/-- Permissions are only appended, and each of them is there in the end. -/
theorem addAllowed_shape (allowed : List Json) : ∃ more : List String, (∀ perm ∈ more, perm ∈ wisphivePermissions) ∧
    addAllowed allowed = allowed ++ more.map .string ∧
    ∀ perm ∈ wisphivePermissions, (addAllowed allowed).any (·.asString? = some perm) = true := by
  rw [addAllowed]
  generalize wisphivePermissions = perms
  induction perms generalizing allowed with
  | nil => exact ⟨[], by simp, by simp, by simp⟩
  | cons perm rest ih =>
    rw [List.foldl_cons]
    split
    next present =>
      obtain ⟨more, managed, shape, all⟩ := ih allowed
      refine ⟨more, fun name member => List.mem_cons_of_mem _ (managed name member), shape, ?_⟩
      rw [List.forall_mem_cons]
      refine ⟨?_, all⟩
      rw [shape, List.any_append, present, Bool.true_or]
    next =>
      obtain ⟨more, managed, shape, all⟩ := ih (allowed ++ [.string perm])
      refine ⟨perm :: more, ?_, ?_, ?_⟩
      · rw [List.forall_mem_cons]
        exact ⟨List.mem_cons_self .., fun name member => List.mem_cons_of_mem _ (managed name member)⟩
      · rw [shape, List.map_cons, List.append_assoc, List.singleton_append]
      · rw [List.forall_mem_cons]
        refine ⟨?_, all⟩
        rw [shape, List.any_append, List.any_append]
        simp [Json.asString?]

theorem keepsPermission_string {perm : String} (managed : perm ∈ wisphivePermissions) :
    keepsPermission (.string perm) = false := by
  simp [keepsPermission, Json.asString?, managed]

/-- What an install adds a removal takes away. -/
theorem filter_addAllowed : (addAllowed allowed).filter keepsPermission = allowed.filter keepsPermission := by
  obtain ⟨more, managed, shape, _⟩ := addAllowed_shape allowed
  have dropped : (more.map Json.string).filter keepsPermission = [] := by
    rw [List.filter_eq_nil_iff]
    intro entry member
    obtain ⟨perm, listed, rfl⟩ := List.mem_map.mp member
    rw [keepsPermission_string (managed perm listed)]
    decide
  rw [shape, List.filter_append, dropped, List.append_nil]

theorem mem_addAllowed {entry : Json} (member : entry ∈ allowed) : entry ∈ addAllowed allowed := by
  obtain ⟨more, _, shape, _⟩ := addAllowed_shape allowed
  rw [shape]
  exact List.mem_append_left _ member

theorem addAllowed_twice : addAllowed (addAllowed allowed) = addAllowed allowed := by
  obtain ⟨_, _, _, all⟩ := addAllowed_shape allowed
  revert all
  generalize addAllowed allowed = whole
  intro all
  rw [addAllowed]
  revert all
  generalize wisphivePermissions = perms
  intro all
  induction perms with
  | nil => rfl
  | cons perm rest ih =>
    rw [List.forall_mem_cons] at all
    rw [List.foldl_cons, if_pos all.1, ih all.2]

/-! ### Documents -/

/-- The value under an event after an install. -/
def installedRules (installer : HookInstaller) (value : Option Json) : Option Json :=
  some (onArray installer.addRule (value.getD (.array [])))

theorem lookup_addHookEntry {hooks : Json.Members} {event other : String} :
    (installer.addHookEntryWithTimeout hooks event).lookup other =
      if other = event then installer.installedRules (hooks.lookup event) else hooks.lookup other := by
  rw [addHookEntryWithTimeout, Json.lookup_adjust, Json.lookup_ensure, Json.lookup_ensure, if_pos rfl]
  split
  next => rfl
  next => rfl

/-- The value under an event after a removal. -/
def removedRules (value : Option Json) : Option Json :=
  value.map (onArray (·.filterMap removeFromRule))

def ensuredRules (value : Option Json) : Option Json :=
  some (value.getD (.array []))

/-- The hooks after an install. -/
def installHooks (installer : HookInstaller) (hooks : Json.Members) : Json.Members :=
  installer.events.foldl installer.addHookEntryWithTimeout hooks

def removeHooks (installer : HookInstaller) (hooks : Json.Members) : Json.Members :=
  installer.events.foldl removeHookEntries hooks

def ensureEvents (installer : HookInstaller) (hooks : Json.Members) : Json.Members :=
  installer.events.foldl (fun hooks event => Json.ensure event (.array []) hooks) hooks

variable {hookMembers : Json.Members} {event : String}

theorem lookup_installHooks : (installer.installHooks hookMembers).lookup event =
    if event ∈ installer.events then installer.installedRules (hookMembers.lookup event) else hookMembers.lookup event :=
  Json.lookup_foldl (fun _ _ _ => lookup_addHookEntry) _ installer.distinct

theorem lookup_removeHooks : (installer.removeHooks hookMembers).lookup event =
    if event ∈ installer.events then removedRules (hookMembers.lookup event) else hookMembers.lookup event := by
  have each (hooks : Json.Members) (event other : String) : (removeHookEntries hooks event).lookup other =
      if other = event then removedRules (hooks.lookup event) else hooks.lookup other :=
    Json.lookup_adjust
  exact Json.lookup_foldl each _ installer.distinct

theorem lookup_ensureEvents : (installer.ensureEvents hookMembers).lookup event =
    if event ∈ installer.events then ensuredRules (hookMembers.lookup event) else hookMembers.lookup event := by
  have each (hooks : Json.Members) (event other : String) : (Json.ensure event (.array []) hooks).lookup other =
      if other = event then ensuredRules (hooks.lookup event) else hooks.lookup other :=
    Json.lookup_ensure
  exact Json.lookup_foldl each _ installer.distinct

/-- A removal right behind an install. -/
def restored (installer : HookInstaller) (value : Json) : Json :=
  onArray (·.filterMap removeFromRule) (onArray installer.addRule value)

theorem restored_nil : installer.restored (.array []) = .array [] := by
  have added : installer.addRule [] = [installer.ownRule] := rfl
  rw [restored, onArray, onArray, added, List.filterMap_cons, removeFromRule_ownRule]
  rfl

theorem removeHookEntries_addHookEntry {other : String} (differs : event ≠ other) :
    removeHookEntries (installer.addHookEntryWithTimeout hookMembers other) event =
      installer.addHookEntryWithTimeout (removeHookEntries hookMembers event) other := by
  rw [removeHookEntries, addHookEntryWithTimeout, Json.adjust_comm differs, Json.adjust_ensure differs]
  rfl

/-- Where each list of rules is given back, only empty lists are left. -/
theorem foldl_remove_add (events : List String) (distinct : events.Nodup)
    (kept : ∀ event ∈ events, ∀ value, hookMembers.lookup event = some value → installer.restored value = value) :
    events.foldl removeHookEntries (events.foldl installer.addHookEntryWithTimeout hookMembers) =
      events.foldl (fun hooks event => Json.ensure event (.array []) hooks) hookMembers := by
  induction events generalizing hookMembers with
  | nil => rfl
  | cons event rest ih =>
    rw [List.nodup_cons] at distinct
    rw [List.forall_mem_cons] at kept
    have undone : removeHookEntries (installer.addHookEntryWithTimeout hookMembers event) event =
        Json.ensure event (.array []) hookMembers := by
      rw [removeHookEntries, addHookEntryWithTimeout, Json.adjust_adjust]
      refine Json.adjust_eq_self fun value found => ?_
      rw [Json.lookup_ensure, if_pos rfl, Option.some.injEq] at found
      subst found
      cases present : hookMembers.lookup event with
      | none => exact restored_nil
      | some value => exact kept.1 value present
    have first : removeHookEntries (rest.foldl installer.addHookEntryWithTimeout
          (installer.addHookEntryWithTimeout hookMembers event)) event =
        rest.foldl installer.addHookEntryWithTimeout (Json.ensure event (.array []) hookMembers) := by
      rw [← undone]
      refine Json.adjust_foldl rest fun other member hooks => removeHookEntries_addHookEntry ?_
      rintro rfl
      exact distinct.1 member
    rw [List.foldl_cons, List.foldl_cons, List.foldl_cons, first]
    refine ih distinct.2 fun other member value found => kept.2 other member value ?_
    rw [Json.lookup_ensure, if_neg] at found
    · exact found
    · rintro rfl
      exact distinct.1 member

theorem removeHooks_installHooks_iff : installer.removeHooks (installer.installHooks hookMembers) = installer.ensureEvents hookMembers ↔
    ∀ event ∈ installer.events, ∀ value, hookMembers.lookup event = some value → installer.restored value = value := by
  constructor
  · intro same event member value found
    have looked := congrArg (·.lookup event) same
    simp only [lookup_removeHooks, lookup_installHooks, lookup_ensureEvents, member, if_true, found, installedRules,
      removedRules, ensuredRules, Option.getD_some, Option.map_some, Option.some.injEq] at looked
    exact looked
  · exact foldl_remove_add installer.events installer.distinct

theorem installHooks_twice : installer.installHooks (installer.installHooks hookMembers) = installer.installHooks hookMembers := by
  refine Json.foldl_eq_self _ fun event member => ?_
  have found : (installer.installHooks hookMembers).lookup event =
      some (onArray installer.addRule ((hookMembers.lookup event).getD (.array []))) := by
    rw [lookup_installHooks, if_pos member, installedRules]
  rw [addHookEntryWithTimeout, Json.ensure_of_lookup found]
  refine Json.adjust_eq_self fun value held => ?_
  cases found.symm.trans held
  cases (hookMembers.lookup event).getD (.array []) with
  | array items => exact congrArg Json.array addRule_twice
  | null | bool _ | number _ | string _ | object _ => rfl

/-! ### What is given back -/

variable {path : String} {root : Json.Members} {value : Json}

/-- The root with a hooks object, which an install starts from. -/
def based (root : Json.Members) : Json.Members :=
  Json.ensure "hooks" (.object []) root

def permitted (root : Json.Members) : Json.Members :=
  Json.ensure "permissions" (.object []) root

theorem ensureHooksObject_eq_ok (started : ensureHooksObject path settings = .ok root) :
    ∃ raw hooks, settings = .object raw ∧ root = based raw ∧ root.lookup "hooks" = some (.object hooks) := by
  cases settings with
  | object raw =>
    rw [ensureHooksObject] at started
    split at started
    next hooks found =>
      cases started
      exact ⟨raw, hooks, rfl, rfl, found⟩
    next => cases started
  | null | bool _ | number _ | string _ | array _ => cases started

theorem addWisphivePermissions_eq_ok {after : Json.Members} (added : addWisphivePermissions root = .ok after) :
    after = Json.adjust "permissions" allowIn (permitted root) ∧
      ((permitted root).lookup "permissions" = some .null ∨
        ∃ members, (permitted root).lookup "permissions" = some (.object members)) := by
  rw [addWisphivePermissions] at added
  split at added
  next members found =>
    cases added
    exact ⟨rfl, .inr ⟨members, found⟩⟩
  next found =>
    cases added
    exact ⟨rfl, .inl found⟩
  next => cases added

/-- The parts that an accepted install works on. -/
structure Installed (installer : HookInstaller) (settings installed : Json) (raw hooks : Json.Members) : Prop where
  document : settings = .object raw
  found : (based raw).lookup "hooks" = some (.object hooks)
  permissions : installer.managesPermissions = true → (permitted (based raw)).lookup "permissions" = some .null ∨
    ∃ members, (permitted (based raw)).lookup "permissions" = some (.object members)
  result : installed = .object (if installer.managesPermissions then
      Json.adjust "permissions" allowIn (permitted (Json.adjust "hooks" (onObject installer.installHooks) (based raw)))
    else Json.adjust "hooks" (onObject installer.installHooks) (based raw))

theorem permitted_adjust {f : Json → Json} : permitted (Json.adjust "hooks" f root) = Json.adjust "hooks" f (permitted root) :=
  (Json.adjust_ensure (by decide)).symm

theorem lookup_permissions {f : Json → Json} :
    (permitted (Json.adjust "hooks" f root)).lookup "permissions" = (permitted root).lookup "permissions" := by
  rw [permitted_adjust, Json.lookup_adjust, if_neg (by decide)]

/-- The root with the hooks in place. -/
def hooked (installer : HookInstaller) (root : Json.Members) : Json.Members :=
  Json.adjust "hooks" (onObject installer.installHooks) root

theorem install_of_start (started : ensureHooksObject path settings = .ok root) :
    installer.install path settings =
      (if installer.managesPermissions then addWisphivePermissions (installer.hooked root)
        else .ok (installer.hooked root)).bind fun root => .ok (.object root) := by
  rw [install, started]
  cases installer.managesPermissions with
  | true => rfl
  | false => rfl

theorem install_cases (accepted : installer.install path settings = .ok installed) :
    ∃ raw hooks, Installed installer settings installed raw hooks := by
  cases started : ensureHooksObject path settings with
  | error failure =>
    rw [install, started] at accepted
    cases accepted
  | ok root =>
    obtain ⟨raw, hooks, document, rfl, found⟩ := ensureHooksObject_eq_ok started
    rw [install_of_start started] at accepted
    refine ⟨raw, hooks, document, found, fun manages => ?_, ?_⟩
    · rw [if_pos manages] at accepted
      cases added : addWisphivePermissions (installer.hooked (based raw)) with
      | error failure => rw [added] at accepted; cases accepted
      | ok after =>
        have kind := (addWisphivePermissions_eq_ok added).2
        rwa [hooked, lookup_permissions] at kind
    · split at accepted
      next manages =>
        rw [if_pos manages]
        cases added : addWisphivePermissions (installer.hooked (based raw)) with
        | error failure => rw [added] at accepted; cases accepted
        | ok after =>
          rw [added] at accepted
          cases accepted
          rw [(addWisphivePermissions_eq_ok added).1, hooked]
      next other =>
        rw [if_neg other]
        cases accepted
        rw [hooked]

/-! ### The parts of a document -/

namespace Installed
variable {raw hooks : Json.Members} {event : String}

theorem rulesOf_eq (parts : Installed installer settings installed raw hooks) :
    rulesOf settings event = ((hooks.lookup event).bind Json.asArray?).getD [] := by
  have found := parts.found
  rw [based, Json.lookup_ensure, if_pos rfl, Option.some.injEq] at found
  rw [rulesOf, parts.document, Json.get?]
  cases present : raw.lookup "hooks" with
  | none =>
    rw [present, Option.getD_none] at found
    cases found
    rfl
  | some value =>
    rw [present, Option.getD_some] at found
    rw [found]
    rfl

end Installed

/-- The hooks of a removal behind an install, and those with empty lists only. -/
theorem onObject_hooks_iff {raw hooks : Json.Members} (parts : Installed installer settings installed raw hooks)
    (root : Json.Members) (same : root.lookup "hooks" = (based raw).lookup "hooks") :
    (∀ value, root.lookup "hooks" = some value →
      (onObject installer.removeHooks ∘ onObject installer.installHooks) value = onObject installer.ensureEvents value) ↔
      installer.removeHooks (installer.installHooks hooks) = installer.ensureEvents hooks := by
  rw [same, parts.found]
  constructor
  · intro agree
    exact Json.object.inj (agree _ rfl)
  · rintro agree value ⟨⟩
    exact congrArg Json.object agree

/-- The original is given back with empty containers exactly if the hooks and the
permissions are. -/
theorem uninstall_installed_iff {raw hooks : Json.Members} (parts : Installed installer settings installed raw hooks) :
    installer.uninstall installed = installer.withContainers settings ↔
      installer.removeHooks (installer.installHooks hooks) = installer.ensureEvents hooks ∧
      (installer.managesPermissions = true → ∀ value, (permitted (based raw)).lookup "permissions" = some value →
        Json.adjustAt "allow" (onArray (·.filter keepsPermission)) (allowIn value) = containers value) := by
  have differs : "permissions" ≠ "hooks" := by decide
  by_cases manages : installer.managesPermissions = true
  · have left : installer.uninstall installed = .object (Json.adjust "permissions"
        (Json.adjustAt "allow" (onArray (·.filter keepsPermission)) ∘ allowIn)
        (Json.adjust "hooks" (onObject installer.removeHooks ∘ onObject installer.installHooks) (permitted (based raw)))) := by
      rw [uninstall, parts.result, if_pos manages, onObject]
      dsimp only
      rw [if_pos manages, removeWisphivePermissions, ← Json.adjust_comm differs, Json.adjust_adjust, permitted_adjust,
        Json.adjust_adjust]
      rfl
    have right : installer.withContainers settings = .object (Json.adjust "permissions" containers
        (Json.adjust "hooks" (onObject installer.ensureEvents) (permitted (based raw)))) := by
      rw [withContainers, parts.document, onObject]
      dsimp only
      rw [if_pos manages, ← permitted_adjust]
      rfl
    have same : (permitted (based raw)).lookup "hooks" = (based raw).lookup "hooks" := by
      rw [permitted, Json.lookup_ensure, if_neg (by decide)]
    rw [left, right, Json.object.injEq, Json.adjust_two_iff differs, onObject_hooks_iff parts _ same]
    exact and_congr_right' ⟨fun agree _ => agree, fun agree => agree manages⟩
  · have left : installer.uninstall installed = .object
        (Json.adjust "hooks" (onObject installer.removeHooks ∘ onObject installer.installHooks) (based raw)) := by
      rw [uninstall, parts.result, if_neg manages, onObject]
      dsimp only
      rw [if_neg manages, Json.adjust_adjust]
      rfl
    have right : installer.withContainers settings = .object (Json.adjust "hooks" (onObject installer.ensureEvents) (based raw)) := by
      rw [withContainers, parts.document, onObject]
      dsimp only
      rw [if_neg manages]
      rfl
    rw [left, right, Json.object.injEq, Json.adjust_eq_adjust_iff, onObject_hooks_iff parts _ rfl]
    exact ⟨fun agree => ⟨agree, fun given => absurd given manages⟩, And.left⟩

theorem filterMap_eq_self_iff {Item : Type} {f : Item → Option Item} {items : List Item} :
    items.filterMap f = items ↔ ∀ item ∈ items, f item = some item := by
  induction items with
  | nil => simp
  | cons item rest ih =>
    rw [List.forall_mem_cons, List.filterMap_cons]
    cases kept : f item with
    | none =>
      refine iff_of_false ?_ (fun both => nomatch both.1)
      intro same
      have shorter := List.length_filterMap_le f rest
      dsimp only at same
      rw [same, List.length_cons] at shorter
      omega
    | some other =>
      rw [List.cons.injEq, ih, Option.some.injEq]

/-- In a document without hooks of ours, the rules are given back exactly if no list of hooks
is empty. -/
theorem restored_iff (clean : ∀ rules, value.asArray? = some rules → ∀ rule ∈ rules, hasWisphiveHook rule = false) :
    installer.restored value = value ↔ ∀ rules, value.asArray? = some rules → ∀ rule ∈ rules, nested rule ≠ some [] := by
  cases value with
  | array rules =>
    have theirs := clean rules rfl
    have none : ¬ rules.any isUpdated = true := by
      rw [Bool.not_eq_true, List.any_eq_false]
      intro rule member
      obtain ⟨hooks, flat⟩ := hasWisphiveHook_eq_false.mp (theirs rule member)
      rw [isUpdated]
      cases found : nested rule with
      | none => simp [flat]
      | some listed => simpa using hooks listed found
    have added : installer.addRule rules = rules ++ [installer.ownRule] := if_neg none
    have removed : installer.restored (.array rules) = .array (rules.filterMap removeFromRule) := by
      rw [restored, onArray, onArray, added, List.filterMap_append, List.filterMap_cons, removeFromRule_ownRule,
        List.filterMap_nil, List.append_nil]
    rw [removed, Json.array.injEq, filterMap_eq_self_iff]
    constructor
    · rintro kept _ ⟨⟩ rule member
      exact (removeFromRule_theirs (theirs rule member)).mp (kept rule member)
    · intro filled rule member
      exact (removeFromRule_theirs (theirs rule member)).mpr (filled rules rfl rule member)
  | null | bool _ | number _ | string _ | object _ => simp [restored, onArray, Json.asArray?]

theorem onArray_addAllowed_iff :
    onArray (·.filter keepsPermission) (onArray addAllowed value) = value ↔
      ∀ entry ∈ value.asArray?.getD [], keepsPermission entry = true := by
  cases value with
  | array items =>
    rw [onArray, onArray, filter_addAllowed, Json.array.injEq]
    exact List.filter_eq_self
  | null | bool _ | number _ | string _ | object _ => simp [onArray, Json.asArray?]

/-- The permissions are given back exactly if each entry is kept. -/
theorem allowIn_iff (kind : value = .null ∨ ∃ members, value = .object members) :
    Json.adjustAt "allow" (onArray (·.filter keepsPermission)) (allowIn value) = containers value ↔
      ∀ entry ∈ ((value.get? "allow").bind Json.asArray?).getD [], keepsPermission entry = true := by
  rcases kind with rfl | ⟨members, rfl⟩
  · refine iff_of_true ?_ (by simp [Json.get?])
    rw [allowIn, containers, Json.adjustAt, Json.adjust, if_pos rfl, onArray, filter_addAllowed]
    rfl
  · have idle : Json.adjust "allow" id (Json.ensure "allow" (.array []) members) = Json.ensure "allow" (.array []) members :=
      Json.adjust_eq_self fun _ _ => rfl
    have both : Json.adjustAt "allow" (onArray (·.filter keepsPermission)) (allowIn (.object members)) = containers (.object members) ↔
        ∀ value, (Json.ensure "allow" (.array []) members).lookup "allow" = some value →
          (onArray (·.filter keepsPermission) ∘ onArray addAllowed) value = id value := by
      rw [allowIn, containers, Json.adjustAt, Json.adjust_adjust, Json.object.injEq, ← Json.adjust_eq_adjust_iff, idle]
    rw [both, Json.lookup_ensure, if_pos rfl, Json.get?]
    cases members.lookup "allow" with
    | none => simpa using onArray_addAllowed_iff.mpr (by simp [Json.asArray?])
    | some held => simpa using onArray_addAllowed_iff

theorem allowedIn_eq {raw hooks : Json.Members} (parts : Installed installer settings installed raw hooks)
    (found : (permitted (based raw)).lookup "permissions" = some value) :
    allowedIn settings = ((value.get? "allow").bind Json.asArray?).getD [] := by
  rw [permitted, Json.lookup_ensure, if_pos rfl, based, Json.lookup_ensure, if_neg (by decide), Option.some.injEq] at found
  rw [allowedIn, parts.document, Json.get?]
  cases present : raw.lookup "permissions" with
  | none =>
    rw [present, Option.getD_none] at found
    rw [← found]
    rfl
  | some held =>
    rw [present, Option.getD_some] at found
    rw [found]
    rfl

/-- A removal behind an install gives a document without hooks of ours back exactly if it has
no empty list of hooks and no entry that a removal drops. -/
theorem restores_iff (accepted : installer.install path settings = .ok installed) (clean : installer.Clean settings) :
    installer.uninstall installed = installer.withContainers settings ↔ installer.Restorable settings := by
  obtain ⟨raw, hooks, parts⟩ := install_cases accepted
  rw [uninstall_installed_iff parts, removeHooks_installHooks_iff]
  have rules : (∀ event ∈ installer.events, ∀ value, hooks.lookup event = some value → installer.restored value = value) ↔
      ∀ event ∈ installer.events, ∀ rule ∈ rulesOf settings event, nested rule ≠ some [] := by
    refine forall₂_congr fun event member => ?_
    have theirs := clean event member
    rw [parts.rulesOf_eq] at theirs ⊢
    cases found : hooks.lookup event with
    | none => simp
    | some value =>
      rw [found, Option.bind_some] at theirs
      have one : (∀ given, some value = some given → installer.restored given = given) ↔ installer.restored value = value :=
        ⟨fun each => each value rfl, fun same given is => Option.some.inj is ▸ same⟩
      rw [one, restored_iff, Option.bind_some]
      · cases value.asArray? with
        | none => simp
        | some rules => simp
      · intro rules listed rule within
        rw [listed, Option.getD_some] at theirs
        exact theirs rule within
  have permissions : (installer.managesPermissions = true → ∀ value, (permitted (based raw)).lookup "permissions" = some value →
        Json.adjustAt "allow" (onArray (·.filter keepsPermission)) (allowIn value) = containers value) ↔
      (installer.managesPermissions = true → ∀ entry ∈ allowedIn settings, keepsPermission entry = true) := by
    refine forall_congr' fun manages => ?_
    rcases parts.permissions manages with found | ⟨members, found⟩
    · rw [allowedIn_eq parts found, ← allowIn_iff (.inl rfl), found]
      simp
    · rw [allowedIn_eq parts found, ← allowIn_iff (.inr ⟨members, rfl⟩), found]
      simp
  rw [rules, permissions]
  exact ⟨fun both => ⟨both.1, both.2⟩, fun restorable => ⟨restorable.rules, restorable.permissions⟩⟩

/-! ### What is left and what is lost -/

theorem get?_onObject {f : Json.Members → Json.Members} {key : String} {effect : Option Json → Option Json}
    (each : ∀ members : Json.Members, (f members).lookup key = effect (members.lookup key)) (nothing : effect none = none) :
    (onObject f value).get? key = effect (value.get? key) := by
  cases value with
  | object members => exact each members
  | null | bool _ | number _ | string _ | array _ => exact nothing.symm

theorem rulesOf_uninstall {event : String} : rulesOf (installer.uninstall settings) event =
    if event ∈ installer.events then (rulesOf settings event).filterMap removeFromRule else rulesOf settings event := by
  have hooks : (installer.uninstall settings).get? "hooks" = (settings.get? "hooks").map (onObject installer.removeHooks) := by
    refine get?_onObject (fun root => ?_) rfl
    split
    next => rw [removeWisphivePermissions, Json.lookup_adjust, if_neg (by decide), Json.lookup_adjust, if_pos rfl]; rfl
    next => rw [Json.lookup_adjust, if_pos rfl]; rfl
  rw [rulesOf, hooks, rulesOf]
  cases settings.get? "hooks" with
  | none => split <;> rfl
  | some value =>
    rw [Option.map_some, Option.bind_some, Option.bind_some]
    split
    next member =>
      rw [get?_onObject (fun _ => lookup_removeHooks.trans (if_pos member)) rfl]
      cases value.get? event with
      | none => rfl
      | some held => cases held <;> rfl
    next absent =>
      have same := @get?_onObject value installer.removeHooks event id (fun _ => lookup_removeHooks.trans (if_neg absent)) rfl
      rw [same, id]

theorem allowedIn_uninstall : allowedIn (installer.uninstall settings) =
    if installer.managesPermissions then (allowedIn settings).filter keepsPermission else allowedIn settings := by
  by_cases manages : installer.managesPermissions = true
  · have permissions : (installer.uninstall settings).get? "permissions" =
        (settings.get? "permissions").map (Json.adjustAt "allow" (onArray (·.filter keepsPermission))) := by
      refine get?_onObject (fun root => ?_) rfl
      rw [if_pos manages, removeWisphivePermissions, Json.lookup_adjust, if_pos rfl, Json.lookup_adjust, if_neg (by decide)]
    rw [if_pos manages, allowedIn, permissions, allowedIn]
    cases settings.get? "permissions" with
    | none => rfl
    | some value =>
      rw [Option.map_some, Option.bind_some, Option.bind_some, get?_adjustAt, if_pos rfl]
      cases value.get? "allow" with
      | none => rfl
      | some held => cases held <;> rfl
  · have same : (installer.uninstall settings).get? "permissions" = id (settings.get? "permissions") := by
      refine get?_onObject (fun root => ?_) rfl
      rw [if_neg manages, Json.lookup_adjust, if_neg (by decide), id]
    rw [if_neg manages, allowedIn, same, allowedIn, id]

/-- After a removal no hook of ours is left exactly if no nested hook of the user had a
command of ours beside it. -/
theorem removes_iff : (∀ event ∈ installer.events, ∀ rule ∈ rulesOf (installer.uninstall settings) event,
      hasWisphiveHook rule = false) ↔ installer.Unmixed settings := by
  refine forall₂_congr fun event member => ?_
  rw [rulesOf_uninstall, if_pos member]
  constructor
  · intro gone rule present ours hooks listed
    by_contra mixed
    have removed : removeFromRule rule = some (withoutOurs rule) := by
      rw [removeFromRule_of_nested listed, if_neg mixed]
    have left := gone _ (List.mem_filterMap.mpr ⟨rule, present, removed⟩)
    rw [hasWisphiveHook_removed removed, ours, Option.mem_def.mp listed] at left
    cases left
  · intro unmixed kept left
    obtain ⟨rule, present, removed⟩ := List.mem_filterMap.mp left
    rw [hasWisphiveHook_removed removed]
    by_contra still
    rw [Bool.not_eq_false, Bool.and_eq_true, Option.isSome_iff_exists] at still
    obtain ⟨ours, hooks, listed⟩ := still
    rw [removeFromRule_of_nested listed, if_pos (unmixed rule present ours hooks listed)] at removed
    cases removed

theorem withoutOurs_twice : withoutOurs (withoutOurs rule) = withoutOurs rule := by
  rw [withoutOurs, withoutOurs, adjustAt_adjustAt]
  congr 1
  funext value
  cases value with
  | array items =>
    refine congrArg Json.array ?_
    dsimp only
    rw [List.filter_filter]
    exact List.filter_congr fun _ _ => Bool.and_self _
  | null | bool _ | number _ | string _ | object _ => rfl

theorem isUsers_of_theirs (theirs : hasWisphiveHook rule = false) : isUsers rule = true := by
  rw [isUsers, theirs]
  rfl

/-- A rule in which something is the user's is kept unless all its nested hooks are ours. -/
theorem removeFromRule_users (users : isUsers rule = true) (some_left : ∀ hooks ∈ nested rule, hooks.all isOurs = false) :
    removeFromRule rule = some (withoutOurs rule) := by
  cases found : nested rule with
  | none =>
    have theirs : hasWisphiveHook rule = false := by
      rw [isUsers, found] at users
      simpa using users
    have flat := (hasWisphiveHook_eq_false.mp theirs).2
    have same : withoutOurs rule = rule := withoutOurs_eq_self (hasWisphiveHook_eq_false.mp theirs).1
    rw [removeFromRule_of_flat found, flat, same]
    rfl
  | some hooks =>
    rw [removeFromRule_of_nested found, some_left hooks found]
    rfl

theorem keepsPermission_of_text {entry : Json} (text : entry.asString?.isSome = true)
    (unmanaged : ∀ perm ∈ wisphivePermissions, entry ≠ .string perm) : keepsPermission entry = true := by
  obtain ⟨name, named⟩ := Option.isSome_iff_exists.mp text
  rw [asString?_eq_some] at named
  subst named
  rw [keepsPermission, Json.asString?, Option.any_some, decide_eq_true_eq]
  exact fun managed => unmanaged name managed rfl

/-- A removal leaves what is the user's exactly if no rule of the user is without a nested
hook of the user and the entries are texts. -/
theorem survives_uninstall_iff : Survives settings (installer.uninstall settings) ↔ installer.Unlost settings := by
  constructor
  · intro survives
    refine ⟨fun event member rule present users hooks listed => ?_, fun manages entry present => ?_⟩
    · by_contra all
      rw [Bool.not_eq_false] at all
      obtain ⟨kept, left, same⟩ := survives.contents event rule present users
      rw [rulesOf_uninstall, if_pos member] at left
      obtain ⟨other, _, removed⟩ := List.mem_filterMap.mp left
      have shape := removeFromRule_eq_some removed
      have empty : nested (withoutOurs other) = some [] := by
        rw [← withoutOurs_twice, ← shape, same, nested_withoutOurs, Option.mem_def.mp listed, Option.map_some]
        refine congrArg some (List.filter_eq_nil_iff.mpr fun hook inside => ?_)
        simp [List.all_eq_true.mp all hook inside]
      rw [nested_withoutOurs] at empty
      obtain ⟨inner, found, none⟩ := Option.map_eq_some_iff.mp empty
      have ours : inner.all isOurs = true := by
        rw [List.all_eq_true]
        intro hook inside
        have dropped := List.filter_eq_nil_iff.mp none hook inside
        simpa using dropped
      rw [removeFromRule_of_nested found, if_pos ours] at removed
      cases removed
    · by_contra other
      have unmanaged : ∀ perm ∈ wisphivePermissions, entry ≠ .string perm := by
        rintro perm _ rfl
        exact other rfl
      have kept := survives.permissions entry present unmanaged
      rw [allowedIn_uninstall, if_pos manages] at kept
      have text := (List.mem_filter.mp kept).2
      rw [keepsPermission, Option.any_eq_true_iff_get] at text
      exact other text.1
  · intro unlost
    refine ⟨fun event rule present theirs => ?_, fun event rule present users => ?_, fun entry present unmanaged => ?_⟩
    · rw [rulesOf_uninstall]
      split
      next member =>
        have users := isUsers_of_theirs theirs
        have kept := removeFromRule_users users (unlost.rules event member rule present users)
        rw [withoutOurs_eq_self (hasWisphiveHook_eq_false.mp theirs).1] at kept
        exact List.mem_filterMap.mpr ⟨rule, present, kept⟩
      next => exact present
    · rw [rulesOf_uninstall]
      split
      next member =>
        have kept := removeFromRule_users users (unlost.rules event member rule present users)
        exact ⟨withoutOurs rule, List.mem_filterMap.mpr ⟨rule, present, kept⟩, withoutOurs_twice⟩
      next => exact ⟨rule, present, rfl⟩
    · rw [allowedIn_uninstall]
      split
      next manages =>
        exact List.mem_filter.mpr ⟨present, keepsPermission_of_text (unlost.permissions manages entry present) unmanaged⟩
      next => exact present

/-! ### What an install leaves -/

/-- An install keeps each rule, updated or as it is. -/
theorem updateRule_mem_addRule (present : rule ∈ rules) : installer.updateRule rule ∈ installer.addRule rules := by
  rw [addRule]
  split
  next => exact List.mem_map_of_mem present
  next none =>
    rw [Bool.not_eq_true, List.any_eq_false] at none
    have idle : installer.updateRule rule = rule := updateRule_idle (by simpa using none rule present)
    rw [idle]
    exact List.mem_append_left _ present

theorem withoutOurs_updateRule (users : isUsers rule = true) : withoutOurs (installer.updateRule rule) = withoutOurs rule := by
  cases found : nested rule with
  | none =>
    have theirs : hasWisphiveHook rule = false := by
      rw [isUsers, found] at users
      simpa using users
    rw [updateRule_theirs theirs]
  | some hooks =>
    rw [updateRule_of_nested found, withoutOurs, adjustAt_adjustAt, withoutOurs]
    congr 1
    funext value
    cases value with
    | array items =>
      refine congrArg Json.array ?_
      dsimp only
      rw [List.filter_map]
      have kept : ((fun hook => !isOurs hook) ∘ installer.updateHook) = fun hook => !isOurs hook :=
        funext fun hook => congrArg not isOurs_updateHook
      rw [kept]
      refine (List.map_congr_left fun hook member => updateHook_theirs ?_).trans (List.map_id _)
      simpa using (List.mem_filter.mp member).2
    | null | bool _ | number _ | string _ | object _ => rfl

namespace Installed
variable {raw hooks : Json.Members} {event : String}

theorem hooks_installed (parts : Installed installer settings installed raw hooks) :
    installed.get? "hooks" = some (.object (installer.installHooks hooks)) := by
  have hooked : (Json.adjust "hooks" (onObject installer.installHooks) (based raw)).lookup "hooks" =
      some (.object (installer.installHooks hooks)) := by
    rw [Json.lookup_adjust, if_pos rfl, parts.found]
    rfl
  rw [parts.result, Json.get?]
  split
  next => rw [Json.lookup_adjust, if_neg (by decide), permitted, Json.lookup_ensure, if_neg (by decide), hooked]
  next => exact hooked

theorem rulesOf_installed (parts : Installed installer settings installed raw hooks) (present : rule ∈ rulesOf settings event) :
    rulesOf installed event =
      if event ∈ installer.events then installer.addRule (rulesOf settings event) else rulesOf settings event := by
  rw [parts.rulesOf_eq] at present ⊢
  rw [rulesOf, parts.hooks_installed, Option.bind_some, Json.get?, lookup_installHooks]
  split
  next =>
    cases held : hooks.lookup event with
    | none =>
      rw [held] at present
      cases present
    | some value =>
      rw [held, Option.bind_some] at present
      rw [installedRules, Option.getD_some, Option.bind_some, asArray?_onArray, Option.bind_some]
      cases listed : value.asArray? with
      | none =>
        rw [listed] at present
        cases present
      | some items => rfl
  next => rfl

/-- The permissions of an installed document. -/
theorem permissions_installed (parts : Installed installer settings installed raw hooks) (manages : installer.managesPermissions = true) :
    installed.get? "permissions" = ((permitted (based raw)).lookup "permissions").map allowIn := by
  rw [parts.result, if_pos manages, Json.get?, Json.lookup_adjust, if_pos rfl, lookup_permissions]

theorem mem_allowedIn (parts : Installed installer settings installed raw hooks) {entry : Json}
    (present : entry ∈ allowedIn settings) : entry ∈ allowedIn installed := by
  by_cases manages : installer.managesPermissions = true
  · rw [allowedIn, parts.permissions_installed manages]
    rcases parts.permissions manages with found | ⟨members, found⟩
    · rw [allowedIn_eq parts found] at present
      cases present
    · rw [allowedIn_eq parts found, Json.get?] at present
      rw [found, Option.map_some, Option.bind_some, allowIn, Json.get?, Json.lookup_adjust, if_pos rfl, Json.lookup_ensure, if_pos rfl]
      cases held : members.lookup "allow" with
      | none =>
        rw [held] at present
        cases present
      | some value =>
        rw [held, Option.bind_some] at present
        rw [Option.getD_some, Option.map_some, Option.bind_some, asArray?_onArray]
        cases listed : value.asArray? with
        | none =>
          rw [listed] at present
          cases present
        | some items =>
          rw [listed, Option.getD_some] at present
          exact mem_addAllowed present
  · have same : installed.get? "permissions" = settings.get? "permissions" := by
      rw [parts.result, if_neg manages, parts.document, Json.get?, Json.get?, Json.lookup_adjust, if_neg (by decide), based,
        Json.lookup_ensure, if_neg (by decide)]
    rwa [allowedIn, same]

end Installed

/-- An install keeps all that is the user's. -/
theorem survives_install (accepted : installer.install path settings = .ok installed) : Survives settings installed := by
  obtain ⟨raw, hooks, parts⟩ := install_cases accepted
  refine ⟨fun event rule present theirs => ?_, fun event rule present users => ?_, fun entry present _ => parts.mem_allowedIn present⟩
  · rw [parts.rulesOf_installed present]
    split
    next =>
      have kept := @updateRule_mem_addRule installer rule _ present
      rwa [updateRule_theirs theirs] at kept
    next => exact present
  · rw [parts.rulesOf_installed present]
    split
    next => exact ⟨installer.updateRule rule, updateRule_mem_addRule present, withoutOurs_updateRule users⟩
    next => exact ⟨rule, present, rfl⟩

theorem allowIn_twice (kind : value = .null ∨ ∃ members, value = .object members) :
    (∃ members, allowIn value = .object members) ∧ allowIn (allowIn value) = allowIn value := by
  rcases kind with rfl | ⟨members, rfl⟩
  · refine ⟨⟨_, rfl⟩, ?_⟩
    have found : ([("allow", Json.array (addAllowed []))] : Json.Members).lookup "allow" = some (.array (addAllowed [])) := rfl
    rw [allowIn, allowIn, Json.ensure_of_lookup found, Json.adjust_eq_self]
    intro value held
    cases found.symm.trans held
    exact congrArg Json.array addAllowed_twice
  · refine ⟨⟨_, rfl⟩, ?_⟩
    have found : (Json.adjust "allow" (onArray addAllowed) (Json.ensure "allow" (.array []) members)).lookup "allow" =
        some (onArray addAllowed ((members.lookup "allow").getD (.array []))) := by
      rw [Json.lookup_adjust, if_pos rfl, Json.lookup_ensure, if_pos rfl, Option.map_some]
    rw [allowIn, allowIn, Json.ensure_of_lookup found, Json.adjust_eq_self]
    intro value held
    cases found.symm.trans held
    cases (members.lookup "allow").getD (.array []) with
    | array items => exact congrArg Json.array addAllowed_twice
    | null | bool _ | number _ | string _ | object _ => rfl

/-- Installing again changes nothing. -/
theorem install_twice (accepted : installer.install path settings = .ok installed) :
    installer.install path installed = .ok installed := by
  obtain ⟨raw, hooks, parts⟩ := install_cases accepted
  obtain ⟨root, document⟩ : ∃ root, installed = .object root := ⟨_, parts.result⟩
  have found := parts.hooks_installed
  rw [document, Json.get?] at found
  have started : ensureHooksObject path installed = .ok root := by
    rw [document, ensureHooksObject, Json.ensure_of_lookup found]
    rw [found]
  have idle : installer.hooked root = root := by
    refine Json.adjust_eq_self fun value held => ?_
    cases found.symm.trans held
    exact congrArg Json.object installHooks_twice
  rw [install_of_start started, idle, document]
  split
  next manages =>
    have held := parts.permissions_installed manages
    rw [document, Json.get?] at held
    obtain ⟨value, kind, present⟩ : ∃ value : Json, (value = .null ∨ ∃ members, value = .object members) ∧
        root.lookup "permissions" = some (allowIn value) := by
      rcases parts.permissions manages with before | ⟨members, before⟩
      · exact ⟨.null, .inl rfl, by rw [held, before, Option.map_some]⟩
      · exact ⟨.object members, .inr ⟨members, rfl⟩, by rw [held, before, Option.map_some]⟩
    obtain ⟨⟨members, shape⟩, twice⟩ := allowIn_twice kind
    rw [addWisphivePermissions, Json.ensure_of_lookup present]
    rw [present, shape]
    dsimp only
    rw [Json.adjust_eq_self]
    · rfl
    · intro other again
      cases present.symm.trans again
      exact twice
  next => rfl

/-! ### The hook installation -/

/-- Installing keeps what is the user's, and a second install changes nothing. A removal behind
an install gives a document without hooks of ours back exactly if it is restorable, leaves no
hook of ours exactly if no rule is mixed, and keeps what is the user's exactly if nothing of it
stands in an unusual shape. -/
theorem hook_install_exact (installer : HookInstaller) (settings : Json) :
    (∀ path installed, installer.install path settings = .ok installed →
      (installer.Clean settings →
        (installer.uninstall installed = installer.withContainers settings ↔ installer.Restorable settings)) ∧
      Survives settings installed ∧ installer.install path installed = .ok installed) ∧
    ((∀ event ∈ installer.events, ∀ rule ∈ rulesOf (installer.uninstall settings) event, hasWisphiveHook rule = false) ↔
      installer.Unmixed settings) ∧
    (Survives settings (installer.uninstall settings) ↔ installer.Unlost settings) := by
  refine ⟨fun path installed accepted => ⟨fun clean => ?_, ?_, ?_⟩, removes_iff, survives_uninstall_iff⟩
  · exact restores_iff accepted clean
  · exact survives_install accepted
  · exact install_twice accepted

/-- A rule of the user beside an allowed permission. -/
def ordinary : Json :=
  .object [("hooks", .object [("PreToolUse", .array [.object [("matcher", .string "Bash"),
      ("hooks", .array [.object [("type", .string "command"), ("command", .string "lint")]])]])]),
    ("permissions", .object [("allow", .array [.string "Read(*)"])])]

theorem hook_install_exact_ordinary :
    ∃ installed, (claude ⟨"wisphive-hook", .inl rfl⟩ 3600).install "settings.json" ordinary = .ok installed ∧
      ((claude ⟨"wisphive-hook", .inl rfl⟩ 3600).uninstall installed =
        (claude ⟨"wisphive-hook", .inl rfl⟩ 3600).withContainers ordinary) ∧
      (claude ⟨"wisphive-hook", .inl rfl⟩ 3600).install "settings.json" installed = .ok installed := by
  have accepted : ((claude ⟨"wisphive-hook", .inl rfl⟩ 3600).install "settings.json" ordinary).toOption.isSome = true := by
    decide +kernel
  cases result : (claude ⟨"wisphive-hook", .inl rfl⟩ 3600).install "settings.json" ordinary with
  | error failure =>
    rw [result] at accepted
    cases accepted
  | ok installed =>
    obtain ⟨restores, _, twice⟩ := (hook_install_exact (claude ⟨"wisphive-hook", .inl rfl⟩ 3600) ordinary).1 _ installed result
    have clean : (claude ⟨"wisphive-hook", .inl rfl⟩ 3600).Clean ordinary := by
      rw [Clean]
      decide +kernel
    refine ⟨installed, rfl, (restores clean).mpr ⟨?_, fun _ => ?_⟩, twice⟩
    · decide +kernel
    · decide +kernel

/-- A rule with a command of ours beside a hook of the user, and an allowed entry that is not
a text. -/
def unusual : Json :=
  .object [("hooks", .object [("PreToolUse", .array [.object [("command", .string "wisphive-hook"),
      ("hooks", .array [.object [("type", .string "command"), ("command", .string "lint")]])]])]),
    ("permissions", .object [("allow", .array [.bool true])])]

/-- The command of ours is left, and the entry is lost. -/
theorem removal_leaves_hook : ∃ binary : HookBinary,
    ¬ (∀ event ∈ (claude binary 3600).events, ∀ rule ∈ rulesOf ((claude binary 3600).uninstall unusual) event,
      hasWisphiveHook rule = false) ∧
    ¬ Survives unusual ((claude binary 3600).uninstall unusual) := by
  refine ⟨⟨"wisphive-hook", .inl rfl⟩, ?_, fun survives => ?_⟩
  · decide +kernel
  · have lost : allowedIn ((claude ⟨"wisphive-hook", .inl rfl⟩ 3600).uninstall unusual) = [] := by decide +kernel
    have kept := survives.permissions (.bool true) (by decide +kernel) (by decide +kernel)
    rw [lost] at kept
    cases kept

end HookInstaller
end Wisphive
