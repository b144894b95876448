import Wisphive.Foundation.Marks
import Wisphive.Proofs.LogSafe
import Wisphive.TerminalEnv

/-! What of a requested environment is stored, and what a respawn gives of it. -/

namespace Wisphive
open Foundation Words Redact

namespace TerminalEnvSpec
variable {text left right : List Char} {name value : String} {env daemonEnv out : EnvMap} {names : List String}

/-! ### The marker -/

theorem contains_iff (text mark : List Char) : contains text mark = true ↔ mark <:+: text := by
  rw [contains, List.any_eq_true, List.infix_iff_prefix_suffix]
  constructor
  · rintro ⟨rest, member, begins⟩
    exact ⟨rest, List.isPrefixOf_iff_prefix.mp begins, (List.mem_tails _ _).mp member⟩
  · rintro ⟨rest, begins, ends⟩
    exact ⟨rest, (List.mem_tails _ _).mpr ends, List.isPrefixOf_iff_prefix.mpr begins⟩

theorem redacted_ne_nil : redacted ≠ [] := by
  decide

/-- Neither escape changes the character, and it marks no part of an object or an assignment. -/
def untouched (char : Char) : Bool :=
  logSafeChar char = [char] ∧ Json.escapeChar char = [char] ∧ char ≠ '\\' ∧ char ≠ '=' ∧ char ≠ ':' ∧ char ≠ '"' ∧
    char ≠ '\x7b' ∧ char ≠ '\x7d'

theorem redacted_chars (char : Char) (member : char ∈ redacted) : logSafeChar char = [char] ∧ Json.escapeChar char = [char] ∧
    char ≠ '\\' ∧ char ≠ '=' ∧ char ≠ ':' ∧ char ≠ '"' ∧ char ≠ '\x7b' ∧ char ≠ '\x7d' := by
  have all : redacted.all untouched = true := by decide +kernel
  exact of_decide_eq_true (List.all_eq_true.mp all char member)

/-- An escape sequence has no star behind its backslash. -/
theorem spares_of_backslash {escape : Char → List Char} (plain : ∀ char ∈ redacted, escape char = [char])
    (other : ∀ char, escape char = [char] ∨ ∃ rest, escape char = '\\' :: rest ∧ '*' ∉ rest) :
    Marks.Spares escape redacted := by
  refine ⟨plain, fun char => (other char).imp_right ?_⟩
  rintro ⟨rest, shape, absent⟩
  refine ⟨'\\', rest, shape, fun member => (redacted_chars _ member).2.2.1 rfl, fun first member => ?_⟩
  cases member
  exact absent

theorem hexUpper_star : ∀ digit < 16, hexUpper digit ≠ '*' := by
  decide

theorem hexDigit_star : ∀ digit < 16, Json.hexDigit digit ≠ '*' := by
  decide

theorem spares_logSafe : Marks.Spares logSafeChar redacted := by
  refine spares_of_backslash (fun char member => (redacted_chars char member).1) fun char => ?_
  obtain ⟨_, shape⟩ | ⟨controls, shape⟩ | ⟨_, _, shape⟩ := @logSafeChar_cases char
  · exact .inr ⟨['\\'], shape, by decide⟩
  · have bound := control_bound controls
    refine .inr ⟨_, shape, ?_⟩
    simp only [List.mem_cons, List.not_mem_nil, or_false, not_or]
    exact ⟨by decide, (hexUpper_star _ (by omega)).symm, (hexUpper_star _ (Nat.mod_lt _ (by decide))).symm⟩
  · exact .inl shape

theorem spares_escape : Marks.Spares Json.escapeChar redacted := by
  refine spares_of_backslash (fun char member => (redacted_chars char member).2.1) fun char => ?_
  unfold Json.escapeChar
  iterate 7
    split
    · exact .inr ⟨_, rfl, by decide⟩
  split
  · next control =>
    refine .inr ⟨_, rfl, ?_⟩
    simp only [List.mem_cons, List.not_mem_nil, or_false, not_or]
    refine ⟨by decide, by decide, by decide, (hexDigit_star _ (by omega)).symm, (hexDigit_star _ (Nat.mod_lt _ (by decide))).symm⟩
  · exact .inl rfl

theorem infix_pushLogSafe : redacted <:+: pushLogSafe text ↔ redacted <:+: text :=
  spares_logSafe.infix_iff redacted_ne_nil

theorem logSafe_length : text.length ≤ (pushLogSafe text).length := by
  induction text with
  | nil => exact Nat.le_refl _
  | cons char text ih =>
    have some_ : 1 ≤ (logSafeChar char).length := by
      unfold logSafeChar
      split
      · decide
      · split
        · exact Nat.le_add_left ..
        · exact Nat.le_refl _
    rw [pushLogSafe, List.flatMap_cons, List.length_append, ← pushLogSafe, List.length_cons]
    omega

/-- A text on which a rule fires shows the marker, and another one shows it where it has it. -/
theorem marked_text (text : String) :
    redacted <:+: (redactText text).toList ↔ ¬ Quiet text.toList ∨ redacted <:+: text.toList := by
  rw [redactText_eq, infix_pushLogSafe]
  by_cases quiet : Quiet text.toList
  · rw [quiet_scrub quiet]
    exact (or_iff_right (not_not_intro quiet)).symm
  · refine iff_of_true ?_ (.inl quiet)
    rw [Quiet] at quiet
    simp only [not_forall] at quiet
    obtain ⟨left, word, right, shape, placed, fires⟩ := quiet
    obtain ⟨kept, found⟩ := Option.ne_none_iff_exists'.mp fires
    rw [shape, scrub_at placed, redactWord_eq, found, Option.map_some, Option.getD_some]
    exact ⟨scrub [] left ++ kept, scrub word right, by simp only [List.append_assoc]⟩

theorem marked_string (text : String) : redacted <:+: Json.renderString text ↔ redacted <:+: text.toList := by
  have quote : '"' ∉ redacted := fun member => (redacted_chars _ member).2.2.2.2.2.1 rfl
  have shape : Json.renderString text = [] ++ '"' :: (text.toList.flatMap Json.escapeChar ++ '"' :: []) := rfl
  rw [shape, Marks.infix_around redacted_ne_nil quote, Marks.infix_around redacted_ne_nil quote,
    spares_escape.infix_iff redacted_ne_nil]
  simp only [List.infix_nil, redacted_ne_nil, false_or, or_false]

/-- The probes fire where a rule applies, or where the name or the value has the marker itself. -/
theorem envPairIsSecret_iff :
    envPairIsSecret name value = true ↔
      keyIsSecret name.toList = true ∨ ¬ Quiet value.toList ∨ ¬ Quiet (name ++ "=" ++ value).toList ∨
        redacted <:+: name.toList ∨ redacted <:+: value.toList := by
  have colon : ':' ∉ redacted := fun member => (redacted_chars _ member).2.2.2.2.1 rfl
  have equals : '=' ∉ redacted := fun member => (redacted_chars _ member).2.2.2.1 rfl
  have opens : '\x7b' ∉ redacted := fun member => (redacted_chars _ member).2.2.2.2.2.2.1 rfl
  have closes : '\x7d' ∉ redacted := fun member => (redacted_chars _ member).2.2.2.2.2.2.2 rfl
  have assignment : redacted <:+: (name ++ "=" ++ value).toList ↔
      redacted <:+: name.toList ∨ redacted <:+: value.toList := by
    have shape : (name ++ "=" ++ value).toList = name.toList ++ '=' :: value.toList := by
      simp only [String.toList_append, List.append_assoc]
      rfl
    rw [shape, Marks.infix_around redacted_ne_nil equals]
  -- the object shows the marker in its name or in its value
  have object : ∀ shown : String, redacted <:+: (Json.object [(name, .string shown)]).renderChars ↔
      redacted <:+: name.toList ∨ redacted <:+: shown.toList := by
    intro shown
    have shape : (Json.object [(name, .string shown)]).renderChars =
        [] ++ '\x7b' :: ((Json.renderString name ++ ':' :: Json.renderString shown) ++ '\x7d' :: []) := rfl
    rw [shape, Marks.infix_around redacted_ne_nil opens, Marks.infix_around redacted_ne_nil closes,
      Marks.infix_around redacted_ne_nil colon, marked_string, marked_string]
    simp only [List.infix_nil, redacted_ne_nil, false_or, or_false]
  have probe : redacted <:+: (redactValue (.object [(name, .string value)])).renderChars ↔
      keyIsSecret name.toList = true ∨ redacted <:+: name.toList ∨ ¬ Quiet value.toList ∨ redacted <:+: value.toList := by
    rw [redactValue, redactMembers, redactMembers, redactValue]
    split
    · next secret =>
      rw [object, String.toList_ofList]
      exact iff_of_true (.inr (List.infix_refl _)) (.inl secret)
    · next open_ => rw [object, marked_text, or_iff_right open_]
  rw [envPairIsSecret, Bool.or_eq_true, Bool.or_eq_true, contains_iff, contains_iff, contains_iff, probe, marked_text,
    marked_text, assignment]
  by_cases inName : redacted <:+: name.toList
  · simp [inName]
  · by_cases inValue : redacted <:+: value.toList
    · simp [inValue]
    · simp [inName, inValue]
      tauto

/-! ### What is kept -/

/-- The scrubber redacts nothing of the pair. -/
structure Clear (name value : String) : Prop where
  openKey : keyIsSecret name.toList = false
  quietName : Quiet name.toList
  quietValue : Quiet value.toList
  quietAssignment : Quiet (name ++ "=" ++ value).toList

/-- Nothing is redacted, nothing of the name is escaped, and the marker itself is not there. -/
structure Kept (name value : String) : Prop where
  clear : Clear name value
  plain : ∀ char ∈ name.toList, char ≠ '\\' ∧ control char = false
  unmarkedName : ¬ redacted <:+: name.toList
  unmarkedValue : ¬ redacted <:+: value.toList

theorem logSafe_same : pushLogSafe text = text ↔ ∀ char ∈ text, char ≠ '\\' ∧ control char = false := by
  induction text with
  | nil => exact iff_of_true rfl fun _ member => by cases member
  | cons char text ih =>
    rw [pushLogSafe, List.flatMap_cons, ← pushLogSafe, List.forall_mem_cons]
    obtain ⟨rfl, shape⟩ | ⟨controls, shape⟩ | ⟨other, plain, shape⟩ := @logSafeChar_cases char
    · refine iff_of_false ?_ fun both => both.1.1 rfl
      intro same
      have lengths := congrArg List.length same
      have grows : text.length ≤ (pushLogSafe text).length := logSafe_length
      rw [shape, List.length_append, List.length_cons, List.length_cons, List.length_cons, List.length_nil] at lengths
      omega
    · refine iff_of_false ?_ fun both => Bool.false_ne_true (both.1.2.symm.trans controls)
      intro same
      have lengths := congrArg List.length same
      have grows : text.length ≤ (pushLogSafe text).length := logSafe_length
      rw [shape, List.length_append] at lengths
      simp only [List.length_cons, List.length_nil] at lengths
      omega
    · rw [shape, List.singleton_append, List.cons.injEq, ih]
      exact ⟨fun both => ⟨⟨other, plain⟩, both.2⟩, fun both => ⟨rfl, both.2⟩⟩

/-- The two tests agree with what the scrubber makes of the pair. -/
theorem kept_iff : redactText name = name ∧ envPairIsSecret name value = false ↔ Kept name value := by
  have public_ : envPairIsSecret name value = false ↔ keyIsSecret name.toList = false ∧ Quiet value.toList ∧
      Quiet (name ++ "=" ++ value).toList ∧ ¬ redacted <:+: name.toList ∧ ¬ redacted <:+: value.toList := by
    rw [← Bool.not_eq_true, envPairIsSecret_iff]
    simp only [not_or, not_not, Bool.not_eq_true]
  have same : redactText name = name ↔ (redactText name).toList = name.toList := String.toList_inj.symm
  rw [public_, same]
  constructor
  · rintro ⟨unaltered, openKey, quietValue, quietAssignment, unmarkedName, unmarkedValue⟩
    have quietName : Quiet name.toList := by
      by_contra fires
      have marked := (marked_text name).mpr (.inl fires)
      rw [unaltered] at marked
      exact unmarkedName marked
    rw [redactText_eq, quiet_scrub quietName, logSafe_same] at unaltered
    exact ⟨⟨openKey, quietName, quietValue, quietAssignment⟩, unaltered, unmarkedName, unmarkedValue⟩
  · rintro ⟨⟨openKey, quietName, quietValue, quietAssignment⟩, plain, unmarkedName, unmarkedValue⟩
    refine ⟨?_, openKey, quietValue, quietAssignment, unmarkedName, unmarkedValue⟩
    rw [redactText_eq, quiet_scrub quietName, logSafe_same]
    exact plain

theorem EnvMap.get_filter {keeps : String × String → Bool} :
    (env.filter keeps).get name = (env.get name).filter fun value => keeps (name, value) :=
  env.keyed.lookup_filter

theorem EnvMap.get_insert {wanted : String} :
    (env.insert name value).get wanted = if wanted = name then some value else env.get wanted :=
  Assoc.lookup_put

theorem get_inherit {first : String} :
    (inherit daemonEnv out first).get name = if name = first then (daemonEnv.get first).or (out.get name) else out.get name := by
  rw [inherit]
  cases daemonEnv.get first with
  | none => rw [Option.none_or, ite_self]
  | some value => rw [EnvMap.get_insert, Option.some_or]

/-- An inherited name has the value of the daemon, if it has one. -/
theorem get_foldl (out : EnvMap) :
    (names.foldl (inherit daemonEnv) out).get name =
      if name ∈ names then (daemonEnv.get name).or (out.get name) else out.get name := by
  induction names generalizing out with
  | nil => rfl
  | cons first names ih =>
    rw [List.foldl_cons, ih, get_inherit]
    by_cases same : name = first
    · subst same
      rw [if_pos rfl, if_pos List.mem_cons_self, ← Option.or_assoc, Option.or_self, ite_self]
    · rw [if_neg same]
      simp only [List.mem_cons, same, false_or]

theorem get_set : (classify env).set.get name = (env.get name).filter fun value =>
    redactText name = name ∧ envPairIsSecret name value = false := by
  rw [classify, EnvMap.get_filter, EnvMap.get_filter, Option.filter_filter]
  congr 1
  funext value
  simp [Bool.and_comm]

theorem mem_inheritNames : name ∈ (classify env).inheritNames ↔
    ∃ value, env.get name = some value ∧ redactText name = name ∧ envPairIsSecret name value = true := by
  rw [classify, List.mem_insertionSort, List.mem_map]
  constructor
  · rintro ⟨⟨_, value⟩, member, rfl⟩
    obtain ⟨inside, secret⟩ := List.mem_filter.mp member
    obtain ⟨requested, unaltered⟩ := List.mem_filter.mp inside
    exact ⟨value, env.keyed.lookup_of_mem requested, of_decide_eq_true unaltered, secret⟩
  · rintro ⟨value, requested, unaltered, secret⟩
    refine ⟨(name, value), List.mem_filter.mpr ⟨List.mem_filter.mpr ⟨?_, decide_eq_true unaltered⟩, secret⟩, rfl⟩
    exact Assoc.mem_of_lookup requested

/-- An absent spec overrides as little as the empty one. -/
theorem respawnEnv_eq : respawnEnv (fromRequestedEnv env) daemonEnv = (classify env).materialize daemonEnv := by
  rw [fromRequestedEnv]
  split
  · next empty =>
    rw [Bool.and_eq_true, List.isEmpty_iff, List.isEmpty_iff] at empty
    have set : (classify env).set = .empty := by
      cases shape : (classify env).set with
      | mk entries keyed =>
        rw [shape] at empty
        simp only [EnvMap.empty, EnvMap.mk.injEq]
        exact empty.1
    rw [materialize, empty.2, List.foldl_nil, set]
    rfl
  · rfl

theorem get_respawnEnv : (respawnEnv (fromRequestedEnv env) daemonEnv).get name =
    if name ∈ (classify env).inheritNames then daemonEnv.get name else (classify env).set.get name := by
  rw [respawnEnv_eq, materialize, get_foldl]
  split
  · next inherited =>
    obtain ⟨value, requested, _, secret⟩ := mem_inheritNames.mp inherited
    have unset : (classify env).set.get name = none := by
      rw [get_set, requested, Option.filter_some, if_neg]
      simp [secret]
    rw [unset, Option.or_none]
  · rfl

/-- What is stored as it is holds nothing that the scrubber would redact. A respawn gives the
variables of which nothing is redacted or escaped, and which do not hold the marker, their
requested values, and every other variable the value of the daemon or none. -/
theorem env_spec_exact (env daemonEnv : EnvMap) :
    (∀ spec ∈ fromRequestedEnv env, ∀ name value, spec.set.get name = some value → Clear name value) ∧
      (∀ name value, env.get name = some value → Kept name value →
        (respawnEnv (fromRequestedEnv env) daemonEnv).get name = some value) ∧
      ∀ name, (∀ value, env.get name = some value → ¬ Kept name value) →
        (respawnEnv (fromRequestedEnv env) daemonEnv).get name = none ∨
          (respawnEnv (fromRequestedEnv env) daemonEnv).get name = daemonEnv.get name := by
  refine ⟨?_, ?_, ?_⟩
  · intro spec created name value stored
    have same : classify env = spec := by
      rw [fromRequestedEnv] at created
      split at created
      · cases created
      · exact Option.some.inj created
    rw [← same, get_set] at stored
    exact (kept_iff.mp (of_decide_eq_true (Option.filter_eq_some_iff.mp stored).2)).clear
  · intro name value requested kept
    have classified := kept_iff.mpr kept
    have uninherited : name ∉ (classify env).inheritNames := by
      intro inherited
      obtain ⟨other, found, _, secret⟩ := mem_inheritNames.mp inherited
      cases requested.symm.trans found
      exact Bool.false_ne_true (classified.2.symm.trans secret)
    rw [get_respawnEnv, if_neg uninherited, get_set, requested, Option.filter_some, if_pos (decide_eq_true classified)]
  · intro name unkept
    rw [get_respawnEnv]
    split
    · exact .inr rfl
    · refine .inl ?_
      rw [get_set]
      refine Option.filter_eq_none_iff.mpr fun value requested classified => ?_
      exact unkept value requested (kept_iff.mp (of_decide_eq_true classified))

/-! ### A name with a backslash -/

def backslashed : EnvMap where
  entries := [("A\\B", "1")]
  keyed := List.nodup_singleton _

/-- Nothing is redacted, but the name is escaped, and so the variable is dropped. -/
theorem escaped_name_dropped :
    Clear "A\\B" "1" ∧ fromRequestedEnv backslashed = none ∧
      (respawnEnv (fromRequestedEnv backslashed) .empty).get "A\\B" ≠ backslashed.get "A\\B" := by
  have dropped : fromRequestedEnv backslashed = none := by decide +kernel
  refine ⟨⟨by decide +kernel, quiet_word (by decide) (by decide +kernel), quiet_word (by decide) (by decide +kernel),
    quiet_word (by decide) (by decide +kernel)⟩, dropped, ?_⟩
  rw [dropped]
  decide

end TerminalEnvSpec
end Wisphive
