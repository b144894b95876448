import Wisphive.Foundation.Json

/-! Editing the members of a JSON object: setting and removing one, and merging a patch
into all of them. -/

namespace Foundation
namespace Json

abbrev Members := List (String × Json)

variable {members patch : Members} {key wanted : String} {value target : Json}

mutual
/-- The keys of an object differ, at every depth. -/
def Distinct : Json → Prop
  | .object members => (members.map Prod.fst).Nodup ∧ DistinctMembers members
  | .array items => DistinctItems items
  | .null | .bool _ | .number _ | .string _ => True

def DistinctItems : List Json → Prop
  | [] => True
  | item :: rest => Distinct item ∧ DistinctItems rest

def DistinctMembers : List (String × Json) → Prop
  | [] => True
  | (_, value) :: rest => Distinct value ∧ DistinctMembers rest
end

mutual
/-- What a text stands for: of members under one key the last one counts. -/
def lastWins : Json → Json
  | .object members => .object (lastMembers members)
  | .array items => .array (lastItems items)
  | .null => .null
  | .bool value => .bool value
  | .number value => .number value
  | .string value => .string value

def lastItems : List Json → List Json
  | [] => []
  | item :: rest => lastWins item :: lastItems rest

def lastMembers : List (String × Json) → List (String × Json)
  | [] => []
  | (key, value) :: rest =>
    if key ∈ rest.map Prod.fst then lastMembers rest else (key, lastWins value) :: lastMembers rest
end

theorem mem_keys_lastMembers : key ∈ (lastMembers members).map Prod.fst ↔ key ∈ members.map Prod.fst := by
  induction members with
  | nil => rw [lastMembers]
  | cons entry rest ih =>
    obtain ⟨name, held⟩ := entry
    rw [lastMembers]
    split
    next repeated =>
      rw [ih, List.map_cons, List.mem_cons]
      constructor
      · exact .inr
      · rintro (rfl | later)
        · exact repeated
        · exact later
    next => rw [List.map_cons, List.map_cons, List.mem_cons, List.mem_cons, ih]

theorem of_mem_lastMembers {entry : String × Json} (member : entry ∈ lastMembers members) :
    ∃ raw ∈ members, (raw.1, lastWins raw.2) = entry := by
  induction members with
  | nil => rw [lastMembers] at member; cases member
  | cons first rest ih =>
    obtain ⟨name, held⟩ := first
    rw [lastMembers] at member
    split at member
    next =>
      obtain ⟨raw, later, same⟩ := ih member
      exact ⟨raw, List.mem_cons_of_mem _ later, same⟩
    next =>
      rcases List.mem_cons.mp member with rfl | later
      · exact ⟨(name, held), List.mem_cons_self .., rfl⟩
      · obtain ⟨raw, later, same⟩ := ih later
        exact ⟨raw, List.mem_cons_of_mem _ later, same⟩

theorem mem_of_lookup {Value : Type} {entries : List (String × Value)} {value : Value}
    (found : entries.lookup key = some value) : (key, value) ∈ entries := by
  obtain ⟨before, after, rfl, _⟩ := List.lookup_eq_some_iff.mp found
  exact List.mem_append_right _ (List.mem_cons_self ..)

theorem lookup_of_mem {Value : Type} {entries : List (String × Value)} {value : Value}
    (distinct : (entries.map Prod.fst).Nodup) (member : (key, value) ∈ entries) : entries.lookup key = some value := by
  induction entries with
  | nil => cases member
  | cons entry rest ih =>
    obtain ⟨name, held⟩ := entry
    rw [List.map_cons, List.nodup_cons] at distinct
    rcases List.mem_cons.mp member with first | later
    · cases first
      exact List.lookup_cons_self
    · have other : key ≠ name := by
        rintro rfl
        exact distinct.1 (List.mem_map.mpr ⟨(key, value), later, rfl⟩)
      rw [List.lookup_cons, beq_false_of_ne other]
      exact ih distinct.2 later

/-- Of a key that stands once, the one value is kept. -/
theorem lookup_lastMembers (once : (members.map Prod.fst).count key ≤ 1) :
    (lastMembers members).lookup key = (members.lookup key).map lastWins := by
  induction members with
  | nil => rw [lastMembers]; rfl
  | cons entry rest ih =>
    obtain ⟨name, held⟩ := entry
    rw [List.map_cons, List.count_cons] at once
    rw [lastMembers, List.lookup_cons]
    by_cases same : key = name
    · subst same
      have gone : key ∉ rest.map Prod.fst := List.count_eq_zero.mp (by simpa using once)
      rw [if_neg gone, List.lookup_cons_self]
      simp
    · rw [beq_false_of_ne same]
      have within := ih (Nat.le_trans (Nat.le_add_right _ _) once)
      split
      next => exact within
      next => rw [List.lookup_cons, beq_false_of_ne same]; exact within

mutual
theorem distinct_lastWins : (value : Json) → Distinct (lastWins value)
  | .object members => by rw [lastWins, Distinct]; exact distinct_lastMembers members
  | .array items => by rw [lastWins, Distinct]; exact distinct_lastItems items
  | .null | .bool _ | .number _ | .string _ => by simp only [lastWins, Distinct]

theorem distinct_lastItems : (items : List Json) → DistinctItems (lastItems items)
  | [] => by simp only [lastItems, DistinctItems]
  | item :: rest => by
    rw [lastItems, DistinctItems]
    exact ⟨distinct_lastWins item, distinct_lastItems rest⟩

theorem distinct_lastMembers : (members : List (String × Json)) →
    ((lastMembers members).map Prod.fst).Nodup ∧ DistinctMembers (lastMembers members)
  | [] => by simp [lastMembers, DistinctMembers]
  | (key, value) :: rest => by
    have tail := distinct_lastMembers rest
    rw [lastMembers]
    split
    next => exact tail
    next first =>
      rw [List.map_cons, List.nodup_cons, DistinctMembers, mem_keys_lastMembers]
      exact ⟨⟨first, tail.1⟩, distinct_lastWins value, tail.2⟩
end

mutual
/-- Where the keys differ already, nothing is dropped. -/
theorem lastWins_of_distinct : (value : Json) → Distinct value → lastWins value = value
  | .object members, distinct => by
    rw [Distinct] at distinct
    rw [lastWins, lastMembers_of_distinct members distinct.1 distinct.2]
  | .array items, distinct => by
    rw [Distinct] at distinct
    rw [lastWins, lastItems_of_distinct items distinct]
  | .null, _ | .bool _, _ | .number _, _ | .string _, _ => by rw [lastWins]

theorem lastItems_of_distinct : (items : List Json) → DistinctItems items → lastItems items = items
  | [], _ => by rw [lastItems]
  | item :: rest, distinct => by
    rw [DistinctItems] at distinct
    rw [lastItems, lastWins_of_distinct item distinct.1, lastItems_of_distinct rest distinct.2]

theorem lastMembers_of_distinct : (members : List (String × Json)) → (members.map Prod.fst).Nodup → DistinctMembers members →
    lastMembers members = members
  | [], _, _ => by rw [lastMembers]
  | (key, value) :: rest, once, distinct => by
    rw [List.map_cons, List.nodup_cons] at once
    rw [DistinctMembers] at distinct
    rw [lastMembers, if_neg once.1, lastWins_of_distinct value distinct.1, lastMembers_of_distinct rest once.2 distinct.2]
end

def removeMember (members : Members) (key : String) : Members :=
  members.filter (·.1 ≠ key)

def insertMember (members : Members) (key : String) (value : Json) : Members :=
  removeMember members key ++ [(key, value)]

theorem lookup_removeMember :
    (removeMember members key).lookup wanted = if wanted = key then none else members.lookup wanted := by
  induction members with
  | nil => split <;> rfl
  | cons entry rest ih =>
    obtain ⟨name, held⟩ := entry
    by_cases removed : name = key
    · rw [removeMember, List.filter_cons_of_neg (by simp [removed]), ← removeMember, ih]
      split
      next => rfl
      next other => rw [List.lookup_cons, beq_false_of_ne fun same => other (same.trans removed)]
    · rw [removeMember, List.filter_cons_of_pos (by simpa using removed), ← removeMember, List.lookup_cons, List.lookup_cons, ih]
      by_cases same : wanted = name
      · simp [same, removed]
      · simp [beq_false_of_ne same]

theorem lookup_insertMember :
    (insertMember members key value).lookup wanted = if wanted = key then some value else members.lookup wanted := by
  rw [insertMember, List.lookup_append, lookup_removeMember, List.lookup_cons, List.lookup_nil]
  by_cases same : wanted = key
  · simp [same]
  · simp [same, beq_false_of_ne same]

mutual
/-- Objects merge recursively, null deletes a key and any other value replaces. -/
def mergePatch (target : Json) : Json → Json
  | .object patch => .object (mergeMembers (target.asObject?.getD []) patch)
  | .null => .null
  | .bool value => .bool value
  | .number value => .number value
  | .string value => .string value
  | .array items => .array items

def mergeMembers (members : Members) : Members → Members
  | [] => members
  | (key, .null) :: rest => mergeMembers (removeMember members key) rest
  | (key, value) :: rest =>
    mergeMembers (insertMember members key (mergePatch ((members.lookup key).getD .null) value)) rest
end

/-- A key that the patch does not name keeps its value. -/
theorem lookup_mergeMembers_of_not_mem (unnamed : wanted ∉ patch.map Prod.fst) :
    (mergeMembers members patch).lookup wanted = members.lookup wanted := by
  induction patch generalizing members with
  | nil => rw [mergeMembers]
  | cons entry rest ih =>
    obtain ⟨name, held⟩ := entry
    rw [List.map_cons, List.mem_cons, not_or] at unnamed
    cases held with
    | null => rw [mergeMembers, ih unnamed.2, lookup_removeMember, if_neg unnamed.1]
    | bool _ | number _ | string _ | array _ | object _ =>
      rw [mergeMembers, ih unnamed.2, lookup_insertMember, if_neg unnamed.1]
      intro nothing
      cases nothing

/-- A merged object holds under each key what the patch makes of it. -/
theorem lookup_mergeMembers (distinct : (patch.map Prod.fst).Nodup) :
    (mergeMembers members patch).lookup wanted =
      match patch.lookup wanted with
      | none => members.lookup wanted
      | some .null => none
      | some value => some (mergePatch ((members.lookup wanted).getD .null) value) := by
  induction patch generalizing members with
  | nil => rw [mergeMembers, List.lookup_nil]
  | cons entry rest ih =>
    obtain ⟨name, held⟩ := entry
    rw [List.map_cons, List.nodup_cons] at distinct
    by_cases same : wanted = name
    · subst same
      rw [List.lookup_cons_self]
      cases held with
      | null => rw [mergeMembers, lookup_mergeMembers_of_not_mem distinct.1, lookup_removeMember, if_pos rfl]
      | bool _ | number _ | string _ | array _ | object _ =>
        rw [mergeMembers, lookup_mergeMembers_of_not_mem distinct.1, lookup_insertMember, if_pos rfl]
        intro nothing
        cases nothing
    · rw [List.lookup_cons, beq_false_of_ne same]
      cases held with
      | null => rw [mergeMembers, ih distinct.2, lookup_removeMember, if_neg same]
      | bool _ | number _ | string _ | array _ | object _ =>
        rw [mergeMembers, ih distinct.2, lookup_insertMember, if_neg same]
        intro nothing
        cases nothing

/-- A key that the patch sets holds the merged value. -/
theorem lookup_mergeMembers_of_set (distinct : (patch.map Prod.fst).Nodup) (set : patch.lookup wanted = some value)
    (given : value ≠ .null) :
    (mergeMembers members patch).lookup wanted = some (mergePatch ((members.lookup wanted).getD .null) value) := by
  rw [lookup_mergeMembers distinct, set]
  cases value with
  | null => exact absurd rfl given
  | bool _ | number _ | string _ | array _ | object _ => rfl

theorem distinctMembers_iff : DistinctMembers members ↔ ∀ entry ∈ members, Distinct entry.2 := by
  induction members with
  | nil => simp [DistinctMembers]
  | cons entry rest ih =>
    obtain ⟨name, held⟩ := entry
    rw [DistinctMembers, ih, List.forall_mem_cons]

theorem nodup_removeMember (distinct : (members.map Prod.fst).Nodup) :
    ((removeMember members key).map Prod.fst).Nodup :=
  distinct.sublist (List.filter_sublist.map Prod.fst)

theorem nodup_insertMember (distinct : (members.map Prod.fst).Nodup) :
    ((insertMember members key value).map Prod.fst).Nodup := by
  rw [insertMember, List.map_append, List.nodup_append]
  refine ⟨nodup_removeMember distinct, by simp, ?_⟩
  intro name member other last same
  obtain ⟨entry, kept, rfl⟩ := List.mem_map.mp member
  have differs := (List.mem_filter.mp kept).2
  simp_all

theorem distinct_removeMember (distinct : DistinctMembers members) : DistinctMembers (removeMember members key) := by
  rw [distinctMembers_iff] at distinct ⊢
  exact fun entry member => distinct entry (List.mem_of_mem_filter member)

theorem distinct_insertMember (distinct : DistinctMembers members) (held : Distinct value) :
    DistinctMembers (insertMember members key value) := by
  have kept : ∀ entry ∈ removeMember members key, Distinct entry.2 :=
    distinctMembers_iff.mp (distinct_removeMember distinct)
  rw [distinctMembers_iff]
  intro entry member
  rcases List.mem_append.mp member with before | last
  · exact kept entry before
  · rw [List.mem_singleton.mp last]
    exact held

theorem distinct_lookup (distinct : DistinctMembers members) : Distinct ((members.lookup key).getD .null) := by
  cases found : members.lookup key with
  | none => simp only [Option.getD_none, Distinct]
  | some value => exact distinctMembers_iff.mp distinct _ (mem_of_lookup found)

mutual
/-- Merging two values whose keys differ yields such a value. -/
theorem distinct_mergePatch {target : Json} (old : Distinct target) :
    (patch : Json) → Distinct patch → Distinct (mergePatch target patch)
  | .object members, new => by
    have start : (((target.asObject?).getD []).map Prod.fst).Nodup ∧ DistinctMembers ((target.asObject?).getD []) := by
      cases target with
      | object members => rwa [Distinct] at old
      | null | bool _ | number _ | string _ | array _ => simp [asObject?, DistinctMembers]
    rw [Distinct] at new
    rw [mergePatch, Distinct]
    exact distinct_mergeMembers start.1 start.2 members new.2
  | .array items, new => by rwa [mergePatch]
  | .null, new | .bool _, new | .number _, new | .string _, new => by rwa [mergePatch]

theorem distinct_mergeMembers {members : Members} (keys : (members.map Prod.fst).Nodup) (old : DistinctMembers members) :
    (patch : List (String × Json)) → DistinctMembers patch →
      ((mergeMembers members patch).map Prod.fst).Nodup ∧ DistinctMembers (mergeMembers members patch)
  | [], _ => by rw [mergeMembers]; exact ⟨keys, old⟩
  | (key, value) :: rest, new => by
    rw [DistinctMembers] at new
    by_cases deleted : value = .null
    · rw [deleted, mergeMembers]
      exact distinct_mergeMembers (nodup_removeMember keys) (distinct_removeMember old) rest new.2
    · rw [mergeMembers]
      · have held : Distinct ((members.lookup key).getD .null) := distinct_lookup old
        have merged := distinct_mergePatch held value new.1
        exact distinct_mergeMembers (nodup_insertMember keys) (distinct_insertMember old merged) rest new.2
      · exact deleted
end

/-- Only an object is merged. Every other value takes the place of the old one. -/
theorem mergePatch_scalar (plain : value.asObject? = none) : mergePatch target value = value := by
  cases value with
  | object members => cases plain
  | null | bool _ | number _ | string _ | array _ => rw [mergePatch]

end Json
end Foundation
