import Mathlib.Data.List.Nodup

/-! Maps as lists of entries, one for each key. The order of the entries has no meaning. -/

namespace Foundation
namespace Assoc
variable {Key Value : Type*} [DecidableEq Key]

/-- One entry for each key. -/
def Keyed (entries : List (Key × Value)) : Prop :=
  (entries.map Prod.fst).Nodup

def erase (entries : List (Key × Value)) (key : Key) : List (Key × Value) :=
  entries.filter (·.1 ≠ key)

/-- Insert or replace. -/
def put (entries : List (Key × Value)) (key : Key) (value : Value) : List (Key × Value) :=
  erase entries key ++ [(key, value)]

/-- Insert at the end, or replace in place. -/
def set (entries : List (Key × Value)) (key : Key) (value : Value) : List (Key × Value) :=
  if key ∈ entries.map Prod.fst then entries.map fun entry => if entry.1 = key then (key, value) else entry
  else entries ++ [(key, value)]

variable {entries : List (Key × Value)} {key wanted : Key} {value : Value} {keeps : Key × Value → Bool}

omit [DecidableEq Key] in
theorem keyed_nil : Keyed ([] : List (Key × Value)) :=
  List.nodup_nil

theorem mem_of_lookup (found : entries.lookup key = some value) : (key, value) ∈ entries := by
  obtain ⟨before, after, rfl, _⟩ := List.lookup_eq_some_iff.mp found
  exact List.mem_append_right _ (List.mem_cons_self ..)

theorem Keyed.lookup_of_mem (keyed : Keyed entries) (member : (key, value) ∈ entries) :
    entries.lookup key = some value := by
  induction entries with
  | nil => cases member
  | cons entry rest ih =>
    obtain ⟨name, held⟩ := entry
    rw [Keyed, List.map_cons, List.nodup_cons] at keyed
    rcases List.mem_cons.mp member with first | later
    · cases first
      exact List.lookup_cons_self
    · have other : key ≠ name := by
        rintro rfl
        exact keyed.1 (List.mem_map.mpr ⟨(key, value), later, rfl⟩)
      rw [List.lookup_cons, beq_false_of_ne other]
      exact ih keyed.2 later

omit [DecidableEq Key] in
theorem Keyed.filter (keyed : Keyed entries) (keeps : Key × Value → Bool) : Keyed (entries.filter keeps) :=
  List.Nodup.sublist (List.filter_sublist.map Prod.fst) keyed

theorem Keyed.erase (keyed : Keyed entries) (key : Key) : Keyed (erase entries key) :=
  keyed.filter _

theorem Keyed.put (keyed : Keyed entries) (key : Key) (value : Value) : Keyed (put entries key value) := by
  rw [Keyed, Assoc.put, List.map_append, List.nodup_append]
  refine ⟨keyed.erase key, by simp, ?_⟩
  intro name member other last same
  obtain ⟨entry, kept, rfl⟩ := List.mem_map.mp member
  have differs := of_decide_eq_true (List.mem_filter.mp kept).2
  exact differs (same.trans (List.mem_singleton.mp last))

theorem lookup_erase : (erase entries key).lookup wanted = if wanted = key then none else entries.lookup wanted := by
  induction entries with
  | nil => split <;> rfl
  | cons entry rest ih =>
    obtain ⟨name, held⟩ := entry
    by_cases removed : name = key
    · rw [erase, List.filter_cons_of_neg (by simp [removed]), ← erase, ih]
      split
      next => rfl
      next other => rw [List.lookup_cons, beq_false_of_ne fun same => other (same.trans removed)]
    · rw [erase, List.filter_cons_of_pos (by simpa using removed), ← erase, List.lookup_cons, List.lookup_cons, ih]
      by_cases same : wanted = name
      · simp [same, removed]
      · simp [beq_false_of_ne same]

theorem lookup_put :
    (put entries key value).lookup wanted = if wanted = key then some value else entries.lookup wanted := by
  rw [put, List.lookup_append, lookup_erase, List.lookup_cons, List.lookup_nil]
  by_cases same : wanted = key
  · simp [same]
  · simp [same, beq_false_of_ne same]

theorem keys_replace : (entries.map fun entry => if entry.1 = key then (key, value) else entry).map Prod.fst = entries.map Prod.fst := by
  rw [List.map_map]
  refine List.map_congr_left fun entry _ => ?_
  rw [Function.comp_apply]
  split
  next same => exact same.symm
  next => rfl

theorem Keyed.set (keyed : Keyed entries) (key : Key) (value : Value) : Keyed (set entries key value) := by
  rw [Assoc.set]
  split
  next => rwa [Keyed, keys_replace]
  next absent =>
    rw [Keyed, List.map_append, List.map_singleton, List.nodup_append]
    refine ⟨keyed, List.nodup_singleton _, fun name member other last same => ?_⟩
    rw [same, List.mem_singleton.mp last] at member
    exact absent member

theorem lookup_set : (set entries key value).lookup wanted = if wanted = key then some value else entries.lookup wanted := by
  have replaced (given : List (Key × Value)) (present : key ∈ given.map Prod.fst) :
      (given.map fun entry => if entry.1 = key then (key, value) else entry).lookup wanted =
        if wanted = key then some value else given.lookup wanted := by
    induction given with
    | nil => cases present
    | cons entry rest ih =>
      obtain ⟨name, held⟩ := entry
      rw [List.map_cons]
      by_cases same : name = key
      · subst same
        by_cases asked : wanted = name
        · simp [asked]
        · rw [if_pos rfl, if_neg asked, List.lookup_cons, List.lookup_cons, beq_false_of_ne asked]
          by_cases later : name ∈ rest.map Prod.fst
          · rw [ih later, if_neg asked]
          · have idle : (rest.map fun entry => if entry.1 = name then (name, value) else entry) = rest := by
              refine (List.map_congr_left fun entry member => if_neg fun equal => ?_).trans (List.map_id rest)
              exact later (List.mem_map.mpr ⟨entry, member, equal⟩)
            rw [idle]
      · have later := (List.mem_cons.mp present).resolve_left (Ne.symm same)
        rw [if_neg same, List.lookup_cons, List.lookup_cons, ih later]
        by_cases asked : wanted = name
        · simp [asked, same]
        · simp [beq_false_of_ne asked]
  rw [set]
  split
  next present => exact replaced entries present
  next absent =>
    rw [List.lookup_append, List.lookup_cons, List.lookup_nil]
    by_cases same : wanted = key
    · subst same
      have missing : entries.lookup wanted = none := by
        refine List.lookup_eq_none_iff.mpr fun entry member => ?_
        have differs : wanted ≠ entry.1 := fun equal => absent (List.mem_map.mpr ⟨entry, member, equal.symm⟩)
        simpa using differs
      simp [missing]
    · simp [same, beq_false_of_ne same]

/-- An entry passes a filter by its own value. -/
theorem Keyed.lookup_filter (keyed : Keyed entries) :
    (entries.filter keeps).lookup wanted = (entries.lookup wanted).filter fun value => keeps (wanted, value) := by
  cases found : entries.lookup wanted with
  | none =>
    cases kept : (entries.filter keeps).lookup wanted with
    | none => rfl
    | some value =>
      rw [keyed.lookup_of_mem (List.mem_of_mem_filter (mem_of_lookup kept))] at found
      cases found
  | some value =>
    cases passes : keeps (wanted, value) with
    | true =>
      rw [Option.filter_some, if_pos passes]
      exact (keyed.filter keeps).lookup_of_mem (List.mem_filter.mpr ⟨mem_of_lookup found, passes⟩)
    | false =>
      rw [Option.filter_some, if_neg (by simp [passes])]
      cases kept : (entries.filter keeps).lookup wanted with
      | none => rfl
      | some other =>
        obtain ⟨member, other_passes⟩ := List.mem_filter.mp (mem_of_lookup kept)
        rw [keyed.lookup_of_mem member] at found
        cases found
        rw [passes] at other_passes
        cases other_passes

theorem Keyed.filter_key (keyed : Keyed entries) (key : Key) :
    entries.filter (·.1 = key) = (entries.lookup key).toList.map fun value => (key, value) := by
  induction entries with
  | nil => rfl
  | cons entry rest ih =>
    obtain ⟨name, held⟩ := entry
    rw [Keyed, List.map_cons, List.nodup_cons] at keyed
    rw [List.lookup_cons]
    by_cases same : key = name
    · subst same
      have alone : rest.filter (·.1 = key) = [] := by
        refine List.filter_eq_nil_iff.mpr fun entry member => ?_
        rw [decide_eq_true_eq]
        exact fun equal => keyed.1 (List.mem_map.mpr ⟨entry, member, equal⟩)
      rw [List.filter_cons_of_pos (by simp), alone, beq_self_eq_true]
      rfl
    · rw [List.filter_cons_of_neg (by simpa using Ne.symm same), beq_false_of_ne same]
      exact ih keyed.2

theorem length_erase_le : (erase entries key).length ≤ entries.length :=
  List.length_filter_le _ _

theorem erase_absent (absent : entries.lookup key = none) : erase entries key = entries := by
  refine List.filter_eq_self.mpr fun entry member => decide_eq_true fun same => ?_
  have differs := List.lookup_eq_none_iff.mp absent entry member
  simp [same] at differs

theorem Keyed.length_erase (keyed : Keyed entries) (found : entries.lookup key = some value) :
    (Assoc.erase entries key).length + 1 = entries.length := by
  induction entries with
  | nil => cases found
  | cons entry rest ih =>
    obtain ⟨name, held⟩ := entry
    rw [Keyed, List.map_cons, List.nodup_cons] at keyed
    by_cases same : key = name
    · have absent : rest.lookup key = none := by
        refine List.lookup_eq_none_iff.mpr fun entry member => ?_
        have differs : key ≠ entry.1 := fun equal =>
          keyed.1 (List.mem_map.mpr ⟨entry, member, equal.symm.trans same⟩)
        simpa using differs
      rw [Assoc.erase, List.filter_cons_of_neg (by simp [same]), ← Assoc.erase, erase_absent absent]
      rfl
    · rw [List.lookup_cons, beq_false_of_ne same] at found
      rw [Assoc.erase, List.filter_cons_of_pos (by simpa using Ne.symm same), ← Assoc.erase, List.length_cons,
        ih keyed.2 found, List.length_cons]

theorem length_put_new (absent : entries.lookup key = none) : (put entries key value).length = entries.length + 1 := by
  rw [put, List.length_append, erase_absent absent]
  rfl

theorem Keyed.length_put_old {held : Value} (keyed : Keyed entries) (found : entries.lookup key = some held) :
    (Assoc.put entries key value).length = entries.length := by
  rw [Assoc.put, List.length_append, List.length_singleton, keyed.length_erase found]

section firsts
variable {Entry : Type*} {seen : List Key} {items : List Entry} {keyOf : Entry → Key}

/-- The first item of each key that was not seen before. -/
def firsts (keyOf : Entry → Key) (seen : List Key) : List Entry → List Entry
  | [] => []
  | item :: rest =>
    if keyOf item ∈ seen then firsts keyOf seen rest else item :: firsts keyOf (keyOf item :: seen) rest

theorem countP_firsts_seen (member : wanted ∈ seen) : (firsts keyOf seen items).countP (keyOf · = wanted) = 0 := by
  induction items generalizing seen with
  | nil => rfl
  | cons item rest ih =>
    rw [firsts]
    split
    · exact ih member
    · next fresh =>
      have other : keyOf item ≠ wanted := fun same => fresh (same ▸ member)
      rw [List.countP_cons_of_neg (by simpa using other)]
      exact ih (List.mem_cons_of_mem _ member)

/-- One item is left of each key. -/
theorem countP_firsts (fresh : wanted ∉ seen) :
    (firsts keyOf seen items).countP (keyOf · = wanted) = if wanted ∈ items.map keyOf then 1 else 0 := by
  induction items generalizing seen with
  | nil => rfl
  | cons item rest ih =>
    rw [firsts]
    by_cases same : keyOf item = wanted
    · subst same
      rw [if_neg fresh, List.countP_cons_of_pos (by simp), countP_firsts_seen (List.mem_cons_self ..), List.map_cons,
        if_pos (List.mem_cons_self ..)]
    · have others : wanted ∈ (item :: rest).map keyOf ↔ wanted ∈ rest.map keyOf := by
        rw [List.map_cons, List.mem_cons]
        exact ⟨fun either => either.resolve_left fun equal => same equal.symm, .inr⟩
      simp only [others]
      split
      · exact ih fresh
      · rw [List.countP_cons_of_neg (by simpa using same)]
        refine ih fun member => ?_
        rcases List.mem_cons.mp member with equal | seen
        · exact same equal.symm
        · exact fresh seen

end firsts
end Assoc
end Foundation
