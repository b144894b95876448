import Mathlib.Data.List.Flatten
import Mathlib.Data.List.Nodup
import Mathlib.Data.List.Perm.Lattice
import Wisphive.Foundation.Grouping

/-! What decides between items that tie in a stable sort. Items that come stage by stage are told
apart by their stages. Others are not told apart. -/

namespace Foundation
namespace Grouping
variable {Item Key : Type*} {le : Item → Item → Bool} {stage : Item → Nat} {items others : List Item} {a b : Item}

/-- Any two items can be compared. -/
structure Ranks (le : Item → Item → Bool) : Prop where
  trans : ∀ a b c, le a b = true → le b c = true → le a c = true
  total : ∀ a b, (le a b || le b a) = true

/-- The items come stage by stage. -/
def Staged (stage : Item → Nat) (items : List Item) : Prop :=
  items.Pairwise (stage · ≤ stage ·)

theorem Ranks.refl (ranks : Ranks le) (a : Item) : le a a = true := by
  simpa using ranks.total a a

/-! ### Pairs -/

theorem pair_or_pair (first : a ∈ items) (second : b ∈ items) (apart : a ≠ b) :
    List.Sublist [a, b] items ∨ List.Sublist [b, a] items := by
  obtain ⟨before, after, rfl⟩ := List.append_of_mem first
  rcases List.mem_append.mp second with left | right
  · exact .inr ((List.singleton_sublist.mpr left).append (List.singleton_sublist.mpr (List.mem_cons_self ..)))
  · rcases List.mem_cons.mp right with same | later
    · exact absurd same.symm apart
    · refine .inl (List.Sublist.trans ?_ (List.sublist_append_right ..))
      exact List.Sublist.cons_cons _ (List.singleton_sublist.mpr later)

theorem not_both (distinct : items.Nodup) (forth : List.Sublist [a, b] items) (back : List.Sublist [b, a] items) :
    False := by
  induction items with
  | nil => cases forth
  | cons item items ih =>
    rw [List.nodup_cons] at distinct
    cases forth with
    | cons _ forth =>
      cases back with
      | cons _ back => exact ih distinct.2 forth back
      | cons_cons _ back => exact distinct.1 (forth.subset (by simp))
    | cons_cons _ forth =>
      cases back with
      | cons _ back => exact distinct.1 (back.subset (by simp))
      | cons_cons _ back => exact distinct.1 (List.singleton_sublist.mp forth)

/-! ### Sorting -/

/-- Items that tie stay stage by stage. -/
theorem mergeSort_staged (ranks : Ranks le) (distinct : items.Nodup) (staged : Staged stage items) :
    (items.mergeSort le).Pairwise fun a b => le a b = true ∧ (le b a = true → stage a ≤ stage b) := by
  have sorted := List.pairwise_mergeSort ranks.trans ranks.total items
  rw [Staged, List.pairwise_iff_forall_sublist] at staged
  rw [List.pairwise_iff_forall_sublist] at sorted ⊢
  intro a b forth
  refine ⟨sorted forth, fun tie => ?_⟩
  have kept : (items.mergeSort le).Nodup := (List.mergeSort_perm _ _).nodup_iff.mpr distinct
  have apart : a ≠ b := by
    rintro rfl
    exact not_both kept forth forth
  have inside {item : Item} (member : item ∈ [a, b]) : item ∈ items := List.mem_mergeSort.mp (forth.subset member)
  rcases pair_or_pair (inside (by simp)) (inside (by simp)) apart with before | after
  · exact staged before
  · exact (not_both kept forth (List.pair_sublist_mergeSort ranks.trans ranks.total tie after)).elim

/-- The first item comes before all others. -/
theorem head_mergeSort {first : Item} {rest : List Item} (ranks : Ranks le) (eq : items.mergeSort le = first :: rest) :
    first ∈ items ∧ ∀ other ∈ items, le first other = true := by
  have sorted := List.pairwise_mergeSort ranks.trans ranks.total items
  rw [eq] at sorted
  refine ⟨List.mem_mergeSort.mp (eq ▸ List.mem_cons_self ..), fun other member => ?_⟩
  rcases List.mem_cons.mp (eq ▸ List.mem_mergeSort.mpr member : other ∈ first :: rest) with rfl | later
  · exact ranks.refl _
  · exact List.rel_of_pairwise_cons sorted later

theorem mergeSort_congr (le' : Item → Item → Bool) (same : ∀ a ∈ items, ∀ b ∈ items, le a b = le' a b) :
    items.mergeSort le = items.mergeSort le' := by
  have mapped := List.map_mergeSort (f := id) (r := le) (s := le') (l := items) same
  rwa [List.map_id, List.map_id] at mapped

theorem ranks_by (valueOf : Item → Int) : Ranks fun a b => decide (valueOf a ≤ valueOf b) := by
  constructor
  · intro a b c first second
    rw [decide_eq_true_eq] at first second ⊢
    omega
  · intro a b
    rw [Bool.or_eq_true, decide_eq_true_eq, decide_eq_true_eq]
    omega

/-- Where no two items of a stage tie, the order within the stages has no meaning. -/
theorem mergeSort_eq (ranks : Ranks le) (distinct : items.Nodup) (perm : items.Perm others) (staged : Staged stage items)
    (staged' : Staged stage others)
    (untied : ∀ a ∈ items, ∀ b ∈ items, le a b = true → le b a = true → stage a = stage b → a = b) :
    items.mergeSort le = others.mergeSort le := by
  refine List.Perm.eq_of_pairwise (fun a b first second forth back => ?_) (mergeSort_staged ranks distinct staged)
    (mergeSort_staged ranks (perm.nodup_iff.mp distinct) staged')
    ((List.mergeSort_perm _ _).trans (perm.trans (List.mergeSort_perm _ _).symm))
  refine untied a (List.mem_mergeSort.mp first) b (perm.mem_iff.mpr (List.mem_mergeSort.mp second)) forth.1 back.1 ?_
  exact Nat.le_antisymm (forth.2 back.1) (back.2 forth.1)

/-! ### Keys -/

variable [DecidableEq Key] {keyOf : Item → Key} {debut : Key → Nat}

/-- The stage at which each key first appears. -/
def Debuts (keyOf : Item → Key) (stage : Item → Nat) (items : List Item) (debut : Key → Nat) : Prop :=
  ∀ item ∈ items, debut (keyOf item) ≤ stage item ∧
    ∃ first ∈ items, keyOf first = keyOf item ∧ stage first = debut (keyOf item)

omit [DecidableEq Key] in
theorem Debuts.init {item : Item} (debuts : Debuts keyOf stage (items ++ [item]) debut)
    (staged : Staged stage (items ++ [item])) : Debuts keyOf stage items debut := by
  intro other member
  obtain ⟨low, first, inside, same, eq⟩ := debuts other (List.mem_append_left _ member)
  refine ⟨low, ?_⟩
  rcases List.mem_append.mp inside with earlier | last
  · exact ⟨first, earlier, same, eq⟩
  · obtain rfl := List.mem_singleton.mp last
    have late := (List.pairwise_append.mp staged).2.2 other member first last
    exact ⟨other, member, rfl, Nat.le_antisymm (eq ▸ late) low⟩

theorem keys_staged (staged : Staged stage items) (debuts : Debuts keyOf stage items debut) :
    Staged debut (keys keyOf items) := by
  induction items using List.reverseRecOn with
  | nil => exact List.Pairwise.nil
  | append_singleton items item ih =>
    have before := ih (List.pairwise_append.mp staged).1 (debuts.init staged)
    rw [keys_snoc]
    split
    next => rwa [List.append_nil]
    next fresh =>
      refine List.pairwise_append.mpr ⟨before, List.pairwise_singleton .., fun key member last single => ?_⟩
      obtain rfl := List.mem_singleton.mp single
      obtain ⟨other, inside, rfl⟩ := List.mem_map.mp (mem_keys.mp member)
      have low := (debuts other (List.mem_append_left _ inside)).1
      have late := (List.pairwise_append.mp staged).2.2 other inside item (List.mem_singleton.mpr rfl)
      obtain ⟨first, here, same, eq⟩ := (debuts item (List.mem_append_right _ (List.mem_singleton.mpr rfl))).2
      rcases List.mem_append.mp here with earlier | final
      · exact absurd (List.mem_map.mpr ⟨first, earlier, same⟩) fresh
      · obtain rfl := List.mem_singleton.mp final
        omega

theorem keys_perm (perm : items.Perm others) : (keys keyOf items).Perm (keys keyOf others) := by
  refine (List.perm_ext_iff_of_nodup nodup_keys nodup_keys).mpr fun key => ?_
  rw [mem_keys, mem_keys]
  exact (perm.map keyOf).mem_iff

/-- A new key comes before those that are still to come. -/
theorem keys_front {before after : List Item} {item : Item} (fresh : keyOf item ∉ before.map keyOf) :
    ∃ later, keys keyOf (before ++ item :: after) = keys keyOf before ++ keyOf item :: later := by
  induction after using List.reverseRecOn with
  | nil => exact ⟨[], by rw [keys_snoc, if_neg fresh]⟩
  | append_singleton after last ih =>
    obtain ⟨later, eq⟩ := ih
    refine ⟨later ++ if keyOf last ∈ (before ++ item :: after).map keyOf then [] else [keyOf last], ?_⟩
    have shape : before ++ item :: (after ++ [last]) = (before ++ item :: after) ++ [last] := by simp
    rw [shape, keys_snoc, eq, List.append_assoc, List.cons_append]

theorem keys_pair {before after : List Item} {item other : Item} (fresh : keyOf item ∉ before.map keyOf)
    (fresh' : keyOf other ∉ before.map keyOf) (member : other ∈ after) (apart : keyOf item ≠ keyOf other) :
    List.Sublist [keyOf item, keyOf other] (keys keyOf (before ++ item :: after)) := by
  obtain ⟨later, eq⟩ := @keys_front _ _ _ keyOf before after item fresh
  have inside : keyOf other ∈ keys keyOf (before ++ item :: after) :=
    mem_keys.mpr (List.mem_map.mpr ⟨other, by simp [member], rfl⟩)
  rw [eq] at inside ⊢
  rcases List.mem_append.mp inside with early | late
  · exact absurd (mem_keys.mp early) fresh'
  · refine List.Sublist.trans ?_ (List.sublist_append_right ..)
    refine List.Sublist.cons_cons _ (List.singleton_sublist.mpr ?_)
    exact (List.mem_cons.mp late).resolve_left fun same => apart same.symm

/-! ### Groups -/

/-- No item of the same key comes before this one. -/
def Leads (keyOf : Item → Key) (le : Item → Item → Bool) (items : List Item) (item : Item) : Prop :=
  item ∈ items ∧ ∀ other ∈ items, keyOf other = keyOf item → le item other = true

/-- The sorted group of a key. -/
def sortedGroup (keyOf : Item → Key) (le : Item → Item → Bool) (items : List Item) (key : Key) : Key × List Item :=
  (key, (items.filter (keyOf · = key)).mergeSort le)

/-- Empty groups in front. -/
def firstLe (le : Item → Item → Bool) (left right : Key × List Item) : Bool :=
  match left.2, right.2 with
  | [], _ => true
  | _ :: _, [] => false
  | first :: _, second :: _ => le first second

omit [DecidableEq Key] in
theorem ranks_firstLe (ranks : Ranks le) : Ranks (firstLe le : Key × List Item → Key × List Item → Bool) := by
  constructor
  · rintro ⟨_, a⟩ ⟨_, b⟩ ⟨_, c⟩ first second
    cases a <;> cases b <;> cases c <;> simp_all [firstLe]
    exact ranks.trans _ _ _ first second
  · rintro ⟨_, a⟩ ⟨_, b⟩
    cases a <;> cases b <;> simp [firstLe]
    simpa using ranks.total _ _

theorem sortedGroup_eq {key : Key} (ranks : Ranks le) (member : key ∈ items.map keyOf) :
    ∃ first rest, (sortedGroup keyOf le items key).2 = first :: rest ∧ keyOf first = key ∧
      Leads keyOf le items first := by
  obtain ⟨item, inside, rfl⟩ := List.mem_map.mp member
  have held : item ∈ (sortedGroup keyOf le items (keyOf item)).2 := by
    simp [sortedGroup, inside]
  obtain ⟨first, rest, eq⟩ := List.exists_cons_of_ne_nil (List.ne_nil_of_mem held)
  obtain ⟨here, least⟩ := head_mergeSort ranks eq
  rw [List.mem_filter, decide_eq_true_eq] at here
  refine ⟨first, rest, eq, here.2, here.1, fun other member key => least other ?_⟩
  exact List.mem_filter.mpr ⟨member, decide_eq_true (key.trans here.2)⟩

theorem arrange_eq_sort (ranks : Ranks le) :
    arrange keyOf le items = ((keys keyOf items).map (sortedGroup keyOf le items)).mergeSort (firstLe le) := by
  have grouped : (groups keyOf items).map (fun group => (group.1, group.2.mergeSort le)) =
      (keys keyOf items).map (sortedGroup keyOf le items) := by
    rw [groups_eq, List.map_map]
    rfl
  rw [arrange, grouped]
  refine mergeSort_congr _ fun left first right second => ?_
  obtain ⟨key, member, rfl⟩ := List.mem_map.mp first
  obtain ⟨key', member', rfl⟩ := List.mem_map.mp second
  obtain ⟨item, rest, eq, -⟩ := sortedGroup_eq ranks (mem_keys.mp member)
  obtain ⟨item', rest', eq', -⟩ := sortedGroup_eq ranks (mem_keys.mp member')
  simp only [firstLe, headLe, eq, eq']

/-- Where no two items of a stage tie in a group, and no two groups of a stage tie, the order
within the stages has no meaning. -/
theorem arrange_eq (ranks : Ranks le) (distinct : items.Nodup) (perm : items.Perm others) (staged : Staged stage items)
    (staged' : Staged stage others) (debuts : Debuts keyOf stage items debut)
    (inside : ∀ a ∈ items, ∀ b ∈ items, keyOf a = keyOf b → le a b = true → le b a = true → stage a = stage b →
      a = b)
    (among : ∀ a b, Leads keyOf le items a → Leads keyOf le items b → le a b = true → le b a = true →
      debut (keyOf a) = debut (keyOf b) → keyOf a = keyOf b) :
    arrange keyOf le items = arrange keyOf le others := by
  have group (key : Key) : sortedGroup keyOf le others key = sortedGroup keyOf le items key := by
    refine congrArg (Prod.mk key) (mergeSort_eq ranks (distinct.filter _) (perm.filter _) (staged.filter _)
      (staged'.filter _) ?_).symm
    intro a first b second
    rw [List.mem_filter, decide_eq_true_eq] at first second
    exact inside a first.1 b second.1 (first.2.trans second.2.symm)
  have later : Debuts keyOf stage others debut := by
    intro item member
    obtain ⟨low, first, here, same⟩ := debuts item (perm.mem_iff.mpr member)
    exact ⟨low, first, perm.mem_iff.mp here, same⟩
  have spread {names : List Key} (sorted : Staged debut names) :
      Staged (fun entry : Key × List Item => debut entry.1) (names.map (sortedGroup keyOf le items)) :=
    List.pairwise_map.mpr sorted
  rw [arrange_eq_sort ranks, arrange_eq_sort ranks, List.map_congr_left fun key _ => group key]
  refine mergeSort_eq (ranks_firstLe ranks) ?_ ((keys_perm perm).map _) (spread (keys_staged staged debuts))
    (spread (keys_staged staged' later)) ?_
  · exact List.Nodup.of_map Prod.fst (by rw [List.map_map]; exact (List.map_id _).symm ▸ nodup_keys)
  · intro left first right second forth back same
    obtain ⟨key, member, rfl⟩ := List.mem_map.mp first
    obtain ⟨key', member', rfl⟩ := List.mem_map.mp second
    obtain ⟨item, rest, eq, rfl, leads⟩ := sortedGroup_eq ranks (mem_keys.mp member)
    obtain ⟨item', rest', eq', rfl, leads'⟩ := sortedGroup_eq ranks (mem_keys.mp member')
    simp only [firstLe, eq, eq'] at forth back
    rw [among item item' leads leads' forth back same]

/-- Two items of a group that tie stay in their order. -/
theorem arrange_pair (ranks : Ranks le) (pair : List.Sublist [a, b] items) (same : keyOf a = keyOf b)
    (ordered : le a b = true) : List.Sublist [a, b] ((arrange keyOf le items).flatMap Prod.snd) := by
  have held : List.Sublist [a, b] (sortedGroup keyOf le items (keyOf b)).2 := by
    refine List.pair_sublist_mergeSort ranks.trans ranks.total ordered ?_
    have filtered := pair.filter fun item => decide (keyOf item = keyOf b)
    rwa [List.filter_cons_of_pos (by simpa using same), List.filter_cons_of_pos (by simp)] at filtered
  have member : b ∈ items := pair.subset (by simp)
  refine held.trans ?_
  rw [arrange_eq_sort ranks, List.flatMap_def]
  refine List.sublist_flatten_of_mem (List.mem_map.mpr ⟨_, ?_, rfl⟩)
  exact List.mem_mergeSort.mpr (List.mem_map.mpr ⟨_, mem_keys.mpr (List.mem_map.mpr ⟨b, member, rfl⟩), rfl⟩)

/-- Two groups that tie stay in the order in which they appear. -/
theorem arrange_front (ranks : Ranks le) {before after : List Item} {front : Item} (same : keyOf front = keyOf a)
    (fresh : keyOf a ∉ before.map keyOf) (fresh' : keyOf b ∉ before.map keyOf) (apart : keyOf a ≠ keyOf b)
    (leads : Leads keyOf le (before ++ front :: after) a) (leads' : Leads keyOf le (before ++ front :: after) b)
    (ordered : le a b = true) :
    List.Sublist [a, b] ((arrange keyOf le (before ++ front :: after)).flatMap Prod.snd) := by
  generalize all : before ++ front :: after = items at leads leads'
  have later : b ∈ after := by
    rcases List.mem_append.mp (all ▸ leads'.1) with early | late
    · exact absurd (List.mem_map.mpr ⟨b, early, rfl⟩) fresh'
    · exact (List.mem_cons.mp late).resolve_left fun eq => apart (eq ▸ same.symm)
  have named (item : Item) (member : item ∈ items) : keyOf item ∈ items.map keyOf :=
    List.mem_map.mpr ⟨item, member, rfl⟩
  have groups : List.Sublist [sortedGroup keyOf le items (keyOf a), sortedGroup keyOf le items (keyOf b)]
      ((keys keyOf items).map (sortedGroup keyOf le items)) := by
    rw [← all, ← same]
    rw [← same] at fresh apart
    exact (keys_pair fresh fresh' later apart).map _
  obtain ⟨item, rest, eq, own, first⟩ := sortedGroup_eq ranks (named a leads.1)
  obtain ⟨item', rest', eq', own', first'⟩ := sortedGroup_eq ranks (named b leads'.1)
  have heads : firstLe le (sortedGroup keyOf le items (keyOf a)) (sortedGroup keyOf le items (keyOf b)) = true := by
    simp only [firstLe, eq, eq']
    have low := ranks.trans _ _ _ (first.2 a leads.1 own.symm) ordered
    exact ranks.trans _ _ _ low (leads'.2 item' first'.1 own')
  have ranked := @ranks_firstLe _ Key _ ranks
  have sorted := List.pair_sublist_mergeSort ranked.trans ranked.total heads groups
  have inside (item : Item) (member : item ∈ items) : List.Sublist [item] (sortedGroup keyOf le items (keyOf item)).2 := by
    rw [List.singleton_sublist]
    simp [sortedGroup, member]
  rw [arrange_eq_sort ranks]
  refine List.Sublist.trans ?_ (sorted.flatMap Prod.snd)
  rw [List.flatMap_cons, List.flatMap_singleton]
  exact (inside a leads.1).append (inside b leads'.1)

end Grouping
end Foundation
