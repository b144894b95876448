import Wisphive.HookSettings

/-! Where the gates of a source stand, and what their hooks run. -/

namespace Wisphive.HookSettings
open Foundation

/-- The hook of a source at the place of a gate. -/
def hookAt (settings : Json) (location : Nat × Nat) : Option Json := do
  let hooks ← settings.get? "hooks"
  let rules ← (← hooks.get? "PreToolUse").asArray?
  let rule ← rules[location.1]?
  let entries ← (← rule.get? "hooks").asArray?
  entries[location.2]?

def commandOf (hook : Json) : Option String :=
  (hook.get? "command").bind Json.asString?

/-- Every gate is a hook that runs the expected command, and there is no gate without its place. -/
structure GatesNamed (settings : Json) (expected : String) (verdict : HookVerdict) : Prop where
  named : ∀ location ∈ verdict.gateLocations, (hookAt settings location).bind commandOf = some expected
  placed : verdict.hasBlockingPretoolGate = true → verdict.gateLocations ≠ []

variable {inspection : HookInspection} {settings : Json} {verdict next : HookVerdict} {kind : HookSettingsKind}

theorem orRefuse_ok {α : Type} {value : Option α} {message : String} {content : α}
    (done : orRefuse value message = .ok content) : value = some content := by
  cases value with
  | none => cases done
  | some found =>
    cases done
    rfl

theorem optionalText_ok {object : Json} {field message : String} {text : Option String}
    (done : optionalText object field message = .ok text) : text = (object.get? field).bind Json.asString? := by
  unfold optionalText at done
  cases found : object.get? field with
  | none =>
    rw [found] at done
    cases done
    rfl
  | some value =>
    simp only [found] at done
    cases read : value.asString? with
    | none =>
      rw [read] at done
      cases done
    | some content =>
      rw [read] at done
      cases done
      exact read.symm

theorem readRule_ok {event : String} {rule : Json} {index : Nat} {terms : HookRule} {hooks : List Json}
    (done : readRule kind event rule index = .ok (terms, hooks)) :
    terms.index = index ∧ (rule.get? "hooks").bind Json.asArray? = some hooks := by
  unfold readRule at done
  obtain ⟨_, _, done⟩ := Fold.bind_ok done
  obtain ⟨_, _, done⟩ := Fold.bind_ok done
  obtain ⟨_, _, done⟩ := Fold.bind_ok done
  obtain ⟨entries, found, done⟩ := Fold.bind_ok done
  obtain ⟨_, _, done⟩ := Fold.bind_ok done
  cases done
  exact ⟨rfl, orRefuse_ok found⟩

theorem readEntry_ok {hook : Json} {index : Nat} {entry : HookEntry} (done : readEntry kind hook index = .ok entry) :
    entry.index = index ∧ entry.command = commandOf hook := by
  unfold readEntry at done
  obtain ⟨_, _, done⟩ := Fold.bind_ok done
  obtain ⟨_, _, done⟩ := Fold.bind_ok done
  obtain ⟨_, _, done⟩ := Fold.bind_ok done
  obtain ⟨command, found, done⟩ := Fold.bind_ok done
  obtain ⟨_, _, done⟩ := Fold.bind_ok done
  cases done
  exact ⟨rfl, optionalText_ok found⟩

/-- A hook becomes a gate only under the event of the gates, with the expected command. -/
theorem judgeHook_named {disableAll : Bool} {event : String} {rule : HookRule} {hook : HookEntry}
    (old : GatesNamed settings inspection.expected verdict)
    (here : event = "PreToolUse" → (hookAt settings (rule.index, hook.index)).bind commandOf = hook.command)
    (done : judgeHook inspection disableAll event rule verdict hook = .ok next) :
    GatesNamed settings inspection.expected next := by
  unfold judgeHook at done
  split at done
  · cases done
    exact old
  · split at done
    · next exact_ =>
      split at done
      · next pretool =>
        cases gate : checkGate inspection rule hook with
        | error message =>
          rw [gate] at done
          cases done
        | ok _ =>
          rw [gate] at done
          cases done
          refine ⟨fun location member => ?_, fun _ => List.append_ne_nil_of_right_ne_nil _ (List.cons_ne_nil _ _)⟩
          rcases List.mem_append.mp member with before | last
          · exact old.named location before
          · rw [exactWisphive, Bool.and_eq_true, decide_eq_true_eq, decide_eq_true_eq] at exact_
            rw [List.mem_singleton.mp last, here pretool, exact_.2]
      · cases done
        exact old
    · cases done
      exact ⟨old.named, old.placed⟩

theorem inspectRule_named {disableAll : Bool} {event : String} {rule : Json} {index : Nat}
    (old : GatesNamed settings inspection.expected verdict)
    (here : event = "PreToolUse" → ∀ entries place hook, (rule.get? "hooks").bind Json.asArray? = some entries →
      entries[place]? = some hook → hookAt settings (index, place) = some hook)
    (done : inspectRule inspection disableAll event verdict (rule, index) = .ok next) :
    GatesNamed settings inspection.expected next := by
  unfold inspectRule at done
  obtain ⟨⟨terms, hooks⟩, read, judged⟩ := Fold.bind_ok done
  obtain ⟨rfl, listed⟩ := readRule_ok read
  refine Fold.preserves (fun before item after member step old => ?_) judged old
  obtain ⟨entry, found, judged⟩ := Fold.bind_ok step
  obtain ⟨same, command⟩ := readEntry_ok found
  refine judgeHook_named old (fun pretool => ?_) judged
  rw [same, command, here pretool hooks item.2 item.1 listed (List.mem_zipIdx_iff_getElem?.mp member)]
  rfl

theorem inspectEvent_named {disableAll : Bool} {event : String × Json}
    (old : GatesNamed settings inspection.expected verdict)
    (here : event.1 = "PreToolUse" → ∀ rules index rule entries place hook, event.2.asArray? = some rules →
      rules[index]? = some rule → (rule.get? "hooks").bind Json.asArray? = some entries →
      entries[place]? = some hook → hookAt settings (index, place) = some hook)
    (done : inspectEvent inspection disableAll verdict event = .ok next) : GatesNamed settings inspection.expected next := by
  obtain ⟨rules, read, judged⟩ := Fold.bind_ok done
  refine Fold.preserves (fun before item after member step old => ?_) judged old
  refine inspectRule_named old (fun pretool entries place hook listed inside => ?_) step
  exact here pretool rules item.2 item.1 entries place hook (orRefuse_ok read) (List.mem_zipIdx_iff_getElem?.mp member) listed inside

theorem get_of_object {value : Json} {members : List (String × Json)} (object : value.asObject? = some members)
    (key : String) : value.get? key = members.lookup key := by
  cases value with
  | object inner =>
    cases object
    rfl
  | null | bool | number | string | array => cases object

theorem distinct_events {hooks : Json} {events : List (String × Json)} (distinct : settings.Distinct)
    (found : settings.get? "hooks" = some hooks) (object : hooks.asObject? = some events) :
    (events.map Prod.fst).Nodup := by
  cases settings with
  | object members =>
    have held : Json.Distinct ((members.lookup "hooks").getD .null) := Json.distinct_lookup distinct.2
    rw [show members.lookup "hooks" = some hooks from found, Option.getD_some] at held
    cases hooks with
    | object inner =>
      cases object
      exact held.1
    | null | bool | number | string | array => cases object
  | null | bool | number | string | array => cases found

theorem inspectHookValue_named {path : String} (distinct : settings.Distinct)
    (done : inspectHookValue inspection path settings = .ok verdict) : GatesNamed settings inspection.expected verdict := by
  have empty : GatesNamed settings inspection.expected {} := ⟨fun _ member => (nomatch member), fun gate => (nomatch gate)⟩
  obtain ⟨members, object, done⟩ := Fold.bind_ok done
  obtain ⟨disableAll, _, done⟩ := Fold.bind_ok done
  obtain ⟨_, _, done⟩ := Fold.bind_ok done
  cases found : settings.get? "hooks" with
  | none =>
    rw [found] at done
    cases done
    exact empty
  | some hooks =>
    simp only [found] at done
    obtain ⟨events, listed, judged⟩ := Fold.bind_ok done
    have keys := distinct_events distinct found (orRefuse_ok listed)
    refine Fold.preserves (fun before event after member step old => ?_) judged empty
    refine inspectEvent_named old (fun pretool rules index rule entries place hook array first inner second => ?_) step
    have under : hooks.get? "PreToolUse" = some event.2 := by
      rw [get_of_object (orRefuse_ok listed), ← pretool]
      exact Json.lookup_of_mem keys member
    simp only [hookAt, found, under, array, first, Option.bind_eq_bind, Option.bind_some]
    obtain ⟨field, read, inside⟩ := Option.bind_eq_some_iff.mp inner
    simp only [read, inside, second, Option.bind_some]

end Wisphive.HookSettings
