import Wisphive.Foundation.JsonMembers
import Wisphive.Foundation.JsonRewriting
import Mathlib.Data.List.Nodup

/-! Merge patches as the pseudocode of RFC 7386 has them. Two values are the same when they
are equal once their objects are kept as maps. -/

namespace Foundation
namespace Json
variable {members others patch : Members} {key wanted : String} {value target : Json}

/-! ### Equality of maps -/

theorem lookup_eq_none : members.lookup wanted = none ↔ wanted ∉ members.map Prod.fst := by
  rw [List.lookup_eq_none_iff]
  constructor
  · rintro differs present
    obtain ⟨entry, member, rfl⟩ := List.mem_map.mp present
    exact absurd rfl (bne_iff_ne.mp (differs entry member))
  · intro absent entry member
    refine bne_iff_ne.mpr ?_
    rintro rfl
    exact absent (List.mem_map.mpr ⟨entry, member, rfl⟩)

theorem lookup_insertSorted :
    (insertSorted key value members).lookup wanted = if wanted = key then some value else members.lookup wanted := by
  induction members with
  | nil =>
    rw [insertSorted, List.lookup_cons]
    by_cases same : wanted = key
    · simp [same]
    · simp [same, beq_false_of_ne same]
  | cons first rest ih =>
    obtain ⟨name, held⟩ := first
    rw [insertSorted]
    split
    next =>
      rw [List.lookup_cons]
      by_cases same : wanted = key
      · simp [same]
      · simp [same, beq_false_of_ne same]
    next =>
      split
      next replaced =>
        subst replaced
        rw [List.lookup_cons, List.lookup_cons]
        by_cases same : wanted = key
        · simp [same]
        · simp [same, beq_false_of_ne same]
      next differs =>
        rw [List.lookup_cons, List.lookup_cons, ih]
        by_cases first : wanted = name
        · subst first
          simp [Ne.symm differs]
        · simp [beq_false_of_ne first]

theorem ascending_insertSorted (ascending : Ascending members) : Ascending (insertSorted key value members) := by
  induction members with
  | nil => exact List.pairwise_singleton _ _
  | cons first rest ih =>
    obtain ⟨name, held⟩ := first
    obtain ⟨above, tail⟩ := List.pairwise_cons.mp ascending
    rw [insertSorted]
    split
    next below =>
      refine List.pairwise_cons.mpr ⟨?_, ascending⟩
      intro member present
      rcases List.mem_cons.mp present with rfl | later
      · exact below
      · exact String.lt_trans below (above member later)
    next notBelow =>
      split
      next same =>
        subst same
        exact List.pairwise_cons.mpr ⟨above, tail⟩
      next differs =>
        refine List.pairwise_cons.mpr ⟨?_, ih tail⟩
        intro member present
        rcases mem_insertSorted present with rfl | later
        · by_contra behind
          exact differs (String.le_antisymm behind notBelow)
        · exact above member later

theorem ascending_sortedMembers (before : Members) (ascending : Ascending before) :
    Ascending (sortedMembers before members) := by
  induction members generalizing before with
  | nil => rwa [sortedMembers]
  | cons first rest ih =>
    rw [sortedMembers]
    exact ih _ (ascending_insertSorted ascending)

theorem lookup_sortedMembers (before : Members) (distinct : (members.map Prod.fst).Nodup) :
    (sortedMembers before members).lookup wanted = ((members.lookup wanted).map sorted).or (before.lookup wanted) := by
  induction members generalizing before with
  | nil => rw [sortedMembers]; rfl
  | cons first rest ih =>
    obtain ⟨name, held⟩ := first
    rw [List.map_cons, List.nodup_cons] at distinct
    rw [sortedMembers, ih _ distinct.2, lookup_insertSorted, List.lookup_cons]
    by_cases same : wanted = name
    · subst same
      have gone : rest.lookup wanted = none := lookup_eq_none.mpr distinct.1
      simp [gone]
    · simp [same, beq_false_of_ne same]

theorem keys_nodup (ascending : Ascending members) : (members.map Prod.fst).Nodup := by
  refine (ascending_iff.mp ascending).imp ?_
  rintro first second below rfl
  exact String.lt_irrefl _ below

/-- Maps with the same values are equal. -/
theorem eq_of_lookup (left : Ascending members) (right : Ascending others)
    (same : ∀ wanted, members.lookup wanted = others.lookup wanted) : members = others := by
  have leftKeys := keys_nodup left
  have rightKeys := keys_nodup right
  have mem_iff : ∀ entry, entry ∈ members ↔ entry ∈ others := by
    intro (key, value)
    constructor
    · intro member
      exact mem_of_lookup ((same key).symm.trans (lookup_of_mem leftKeys member))
    · intro member
      exact mem_of_lookup ((same key).trans (lookup_of_mem rightKeys member))
  have perm := (List.perm_ext_iff_of_nodup (List.Nodup.of_map _ leftKeys) (List.Nodup.of_map _ rightKeys)).mpr mem_iff
  refine perm.eq_of_pairwise ?_ left right
  intro first second _ _ below above
  exact absurd above (String.lt_asymm below)

theorem sorted_object (leftKeys : (members.map Prod.fst).Nodup) (rightKeys : (others.map Prod.fst).Nodup)
    (same : ∀ wanted, (members.lookup wanted).map sorted = (others.lookup wanted).map sorted) :
    sorted (.object members) = sorted (.object others) := by
  rw [sorted, sorted]
  congr 1
  refine eq_of_lookup (ascending_sortedMembers [] List.Pairwise.nil) (ascending_sortedMembers [] List.Pairwise.nil) ?_
  intro wanted
  rw [lookup_sortedMembers [] leftKeys, lookup_sortedMembers [] rightKeys, same]

/-! ### The pseudocode -/

/-- `Target[Name] = value` -/
def assignMember (members : Members) (key : String) (value : Json) : Members :=
  if key ∈ members.map Prod.fst then members.map fun member => if member.1 = key then (key, value) else member
  else members ++ [(key, value)]

mutual
/-- `MergePatch(Target, Patch)`, with `none` for a target that does not exist. -/
def rfcMergePatch (target : Option Json) : Json → Json
  | .object patch =>
    -- a target that is no object is set to an empty one
    .object (rfcMergeMembers ((target.bind asObject?).getD []) patch)
  | .null => .null
  | .bool value => .bool value
  | .number value => .number value
  | .string value => .string value
  | .array items => .array items

/-- For each Name/Value pair in Patch. -/
def rfcMergeMembers (members : Members) : Members → Members
  | [] => members
  | (name, value) :: rest =>
    if value = .null then
      if name ∈ members.map Prod.fst then rfcMergeMembers (removeMember members name) rest
      else rfcMergeMembers members rest
    else rfcMergeMembers (assignMember members name (rfcMergePatch (members.lookup name) value)) rest
end

theorem keys_assignMember :
    (assignMember members key value).map Prod.fst =
      if key ∈ members.map Prod.fst then members.map Prod.fst else members.map Prod.fst ++ [key] := by
  rw [assignMember]
  split
  next =>
    rw [List.map_map]
    refine List.map_congr_left ?_
    intro member _
    by_cases same : member.1 = key
    · simp [same]
    · simp [same]
  next => rw [List.map_append, List.map_singleton]

theorem nodup_assignMember (distinct : (members.map Prod.fst).Nodup) :
    ((assignMember members key value).map Prod.fst).Nodup := by
  rw [keys_assignMember]
  split
  next => exact distinct
  next absent =>
    refine List.nodup_append.mpr ⟨distinct, List.nodup_singleton _, ?_⟩
    intro name member other last same
    rw [List.mem_singleton.mp last] at same
    exact absent (same ▸ member)

theorem lookup_replaced :
    (members.map fun member => if member.1 = key then (key, value) else member).lookup wanted =
      if wanted = key then (members.lookup key).map fun _ => value else members.lookup wanted := by
  induction members with
  | nil => split <;> rfl
  | cons first rest ih =>
    obtain ⟨name, held⟩ := first
    rw [List.map_cons]
    by_cases replaced : name = key
    · subst replaced
      rw [if_pos rfl, List.lookup_cons, ih, List.lookup_cons, List.lookup_cons]
      by_cases same : wanted = name
      · simp [same]
      · simp [same, beq_false_of_ne same]
    · rw [if_neg replaced, List.lookup_cons, ih, List.lookup_cons, List.lookup_cons, beq_false_of_ne (Ne.symm replaced)]
      by_cases same : wanted = name
      · subst same
        simp [replaced]
      · simp [beq_false_of_ne same]

theorem lookup_assignMember :
    (assignMember members key value).lookup wanted = if wanted = key then some value else members.lookup wanted := by
  rw [assignMember]
  split
  next present =>
    rw [lookup_replaced]
    split
    next =>
      cases found : members.lookup key with
      | none => exact absurd present (lookup_eq_none.mp found)
      | some _ => rfl
    next => rfl
  next absent =>
    rw [List.lookup_append, List.lookup_cons, List.lookup_nil]
    by_cases same : wanted = key
    · subst same
      simp [lookup_eq_none.mpr absent]
    · simp [same, beq_false_of_ne same]

/-- A missing name is removed as well as one that is there. -/
theorem removeMember_of_not_mem (absent : key ∉ members.map Prod.fst) : removeMember members key = members := by
  refine List.filter_eq_self.mpr ?_
  intro member present
  refine decide_eq_true ?_
  rintro rfl
  exact absent (List.mem_map.mpr ⟨member, present, rfl⟩)

theorem rfcMergeMembers_cons_null {rest : Members} :
    rfcMergeMembers members ((key, .null) :: rest) = rfcMergeMembers (removeMember members key) rest := by
  rw [rfcMergeMembers, if_pos rfl]
  split
  next => rfl
  next absent => rw [removeMember_of_not_mem absent]

theorem rfcMergeMembers_cons {rest : Members} (given : value ≠ .null) :
    rfcMergeMembers members ((key, value) :: rest) =
      rfcMergeMembers (assignMember members key (rfcMergePatch (members.lookup key) value)) rest := by
  rw [rfcMergeMembers, if_neg given]

theorem lookup_rfcMergeMembers_of_not_mem (unnamed : wanted ∉ patch.map Prod.fst) :
    (rfcMergeMembers members patch).lookup wanted = members.lookup wanted := by
  induction patch generalizing members with
  | nil => rw [rfcMergeMembers]
  | cons entry rest ih =>
    obtain ⟨name, held⟩ := entry
    rw [List.map_cons, List.mem_cons, not_or] at unnamed
    by_cases deleted : held = .null
    · rw [deleted, rfcMergeMembers_cons_null, ih unnamed.2, lookup_removeMember, if_neg unnamed.1]
    · rw [rfcMergeMembers_cons deleted, ih unnamed.2, lookup_assignMember, if_neg unnamed.1]

theorem lookup_rfcMergeMembers (distinct : (patch.map Prod.fst).Nodup) :
    (rfcMergeMembers members patch).lookup wanted =
      match patch.lookup wanted with
      | none => members.lookup wanted
      | some .null => none
      | some value => some (rfcMergePatch (members.lookup wanted) value) := by
  induction patch generalizing members with
  | nil => rw [rfcMergeMembers, List.lookup_nil]
  | cons entry rest ih =>
    obtain ⟨name, held⟩ := entry
    rw [List.map_cons, List.nodup_cons] at distinct
    by_cases same : wanted = name
    · subst same
      rw [List.lookup_cons_self]
      by_cases deleted : held = .null
      · rw [deleted, rfcMergeMembers_cons_null, lookup_rfcMergeMembers_of_not_mem distinct.1, lookup_removeMember,
          if_pos rfl]
      · rw [rfcMergeMembers_cons deleted, lookup_rfcMergeMembers_of_not_mem distinct.1, lookup_assignMember, if_pos rfl]
        cases held with
        | null => exact absurd rfl deleted
        | bool _ | number _ | string _ | array _ | object _ => rfl
    · rw [List.lookup_cons, beq_false_of_ne same]
      by_cases deleted : held = .null
      · rw [deleted, rfcMergeMembers_cons_null, ih distinct.2, lookup_removeMember, if_neg same]
      · rw [rfcMergeMembers_cons deleted, ih distinct.2, lookup_assignMember, if_neg same]

theorem nodup_rfcMergeMembers (distinct : (members.map Prod.fst).Nodup) :
    ((rfcMergeMembers members patch).map Prod.fst).Nodup := by
  induction patch generalizing members with
  | nil => rwa [rfcMergeMembers]
  | cons entry rest ih =>
    obtain ⟨name, held⟩ := entry
    by_cases deleted : held = .null
    · rw [deleted, rfcMergeMembers_cons_null]
      exact ih (nodup_removeMember distinct)
    · rw [rfcMergeMembers_cons deleted]
      exact ih (nodup_assignMember distinct)

/-! ### The laws of merging -/

/-- Induction along the members of objects. -/
theorem induction_on_members {motive : Json → Prop} (plain : ∀ value, value.asObject? = none → motive value)
    (object : ∀ members, (∀ entry ∈ members, motive entry.2) → motive (.object members)) : (value : Json) → motive value
  | .object members => object members fun entry member => by
    have smaller : sizeOf entry.2 < 1 + sizeOf members := by
      have below := List.sizeOf_lt_of_mem member
      obtain ⟨name, held⟩ := entry
      simp only [Prod.mk.sizeOf_spec] at below ⊢
      omega
    exact induction_on_members plain object entry.2
  | .null => plain _ rfl
  | .bool _ => plain _ rfl
  | .number _ => plain _ rfl
  | .string _ => plain _ rfl
  | .array _ => plain _ rfl
termination_by value => sizeOf value

theorem rfcMergePatch_scalar {target : Option Json} (plain : value.asObject? = none) : rfcMergePatch target value = value := by
  cases value with
  | object members => cases plain
  | null | bool _ | number _ | string _ | array _ => rw [rfcMergePatch]

/-- The members that a patch is merged into. -/
theorem distinct_members (distinct : target.Distinct) :
    ((target.asObject?.getD []).map Prod.fst).Nodup ∧ DistinctMembers (target.asObject?.getD []) := by
  cases target with
  | object members => rwa [Distinct] at distinct
  | null | bool _ | number _ | string _ | array _ => simp [asObject?, DistinctMembers]

/-- Merging gives the value that the pseudocode gives. -/
theorem sorted_mergePatch : (patch : Json) → patch.Distinct → ∀ target : Option Json, (target.getD .null).Distinct →
    sorted (mergePatch (target.getD .null) patch) = sorted (rfcMergePatch target patch) := by
  refine induction_on_members ?_ ?_
  · intro value plain _ target _
    rw [mergePatch_scalar plain, rfcMergePatch_scalar plain]
  · intro patch ih distinct target old
    rw [Distinct] at distinct
    have start := distinct_members old
    have same : (target.bind asObject?).getD [] = (target.getD .null).asObject?.getD [] := by
      cases target <;> rfl
    rw [mergePatch, rfcMergePatch, same]
    refine sorted_object (distinct_mergeMembers start.1 start.2 patch distinct.2).1 (nodup_rfcMergeMembers start.1) ?_
    intro wanted
    rw [lookup_mergeMembers distinct.1, lookup_rfcMergeMembers distinct.1]
    cases named : patch.lookup wanted with
    | none => rfl
    | some value =>
      have member := mem_of_lookup named
      have below := ih _ member (distinctMembers_iff.mp distinct.2 _ member)
        (((target.getD .null).asObject?.getD []).lookup wanted) (distinct_lookup start.2)
      cases value with
      | null => rfl
      | bool _ | number _ | string _ | array _ | object _ => exact congrArg some below

/-- A patch that was merged before changes nothing. -/
theorem sorted_mergePatch_mergePatch : (patch : Json) → patch.Distinct → ∀ target : Json, target.Distinct →
    sorted (mergePatch (mergePatch target patch) patch) = sorted (mergePatch target patch) := by
  refine induction_on_members ?_ ?_
  · intro value plain _ target _
    rw [mergePatch_scalar plain, mergePatch_scalar plain]
  · intro patch ih distinct target old
    rw [Distinct] at distinct
    have start := distinct_members old
    have once := distinct_mergeMembers start.1 start.2 patch distinct.2
    rw [mergePatch, mergePatch]
    refine sorted_object (distinct_mergeMembers once.1 once.2 patch distinct.2).1 once.1 ?_
    intro wanted
    rw [asObject?, Option.getD_some, lookup_mergeMembers distinct.1, lookup_mergeMembers distinct.1]
    cases named : patch.lookup wanted with
    | none => rfl
    | some value =>
      have member := mem_of_lookup named
      have below := ih _ member (distinctMembers_iff.mp distinct.2 _ member)
        (((target.asObject?.getD []).lookup wanted).getD .null) (distinct_lookup start.2)
      cases value with
      | null => rfl
      | bool _ | number _ | string _ | array _ | object _ => exact congrArg some below

/-- What stands at the end of a path through objects. -/
def descend : List String → Json → Option Json
  | [], value => some value
  | key :: path, value => (value.get? key).bind (descend path)

theorem descend_null {path : List String} (given : path ≠ []) : descend path .null = none := by
  cases path with
  | nil => exact absurd rfl given
  | cons key path => rfl

theorem get?_eq_lookup : target.get? key = (target.asObject?.getD []).lookup key := by
  cases target <;> rfl

/-- At every depth, what a merged object holds under a key is what the patch makes of it. -/
theorem descend_mergePatch {named : Members} (path : List String) (distinct : Distinct (.object patch))
    (given : descend path (.object patch) = some (.object named)) :
    descend (path ++ [key]) (mergePatch target (.object patch)) =
      match named.lookup key with
      | none => descend (path ++ [key]) target
      | some .null => none
      | some value => some (mergePatch ((descend (path ++ [key]) target).getD .null) value) := by
  induction path generalizing target patch with
  | nil =>
    cases given
    rw [Distinct] at distinct
    have last : ∀ value, descend ([] ++ [key]) value = (value.asObject?.getD []).lookup key := by
      intro value
      have held : (value.get? key).bind (descend []) = value.get? key := Option.bind_fun_some _
      exact held.trans get?_eq_lookup
    rw [last, last, mergePatch, asObject?, Option.getD_some]
    exact (lookup_mergeMembers distinct.1).trans rfl
  | cons first path ih =>
    rw [Distinct] at distinct
    rw [descend, get?] at given
    obtain ⟨inner, held, deeper⟩ := Option.bind_eq_some_iff.mp given
    obtain ⟨below, rfl⟩ : ∃ below, inner = .object below := by
      cases inner with
      | object below => exact ⟨below, rfl⟩
      | null | bool _ | number _ | string _ | array _ => cases path <;> cases deeper
    have merged : (mergePatch target (.object patch)).get? first =
        some (mergePatch ((target.get? first).getD .null) (.object below)) := by
      rw [mergePatch, get?, lookup_mergeMembers_of_set distinct.1 held (by simp), get?_eq_lookup]
    have absent : descend (path ++ [key]) ((target.get? first).getD .null) = descend (first :: path ++ [key]) target := by
      rw [List.cons_append, descend]
      cases target.get? first with
      | none => exact descend_null (by simp)
      | some _ => rfl
    rw [List.cons_append, descend, merged, Option.bind_some,
      ih (distinctMembers_iff.mp distinct.2 _ (mem_of_lookup held)) deeper, absent, List.cons_append]

end Json
end Foundation
