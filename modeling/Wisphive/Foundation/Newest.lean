import Mathlib.Data.List.Sort
import Mathlib.Data.List.Perm.Subperm

/-! The newest items of a list, by a key that no two of them share. The rank of an item is
the number of items behind it, so the newest `n` are the items of a rank below `n`. -/

namespace Foundation
namespace Newest
variable {Item Key : Type*} (key : Item → Key) {items kept : List Item} {item other : Item} {n : Nat}

/-- No two items share a key. -/
def Distinct (items : List Item) : Prop :=
  (items.map key).Nodup

namespace Distinct
variable {key}

theorem nodup (distinct : Distinct key items) : items.Nodup :=
  List.Nodup.of_map _ distinct

theorem sublist (distinct : Distinct key items) (part : kept.Sublist items) : Distinct key kept :=
  List.Nodup.sublist (part.map key) distinct

theorem perm (distinct : Distinct key items) (same : kept.Perm items) : Distinct key kept :=
  (same.map key).nodup_iff.mpr distinct

theorem eq (distinct : Distinct key items) (member : item ∈ items) (present : other ∈ items)
    (same : key item = key other) : item = other :=
  List.inj_on_of_nodup_map distinct member present same

end Distinct

variable [LinearOrder Key]

def rank (items : List Item) (item : Item) : Nat :=
  items.countP fun other => key item < key other

/-- `kept` holds the newest `n` items, or all where there are no more. -/
structure Selects (n : Nat) (items kept : List Item) : Prop where
  bounded : kept.length ≤ n
  newest : ∀ item ∈ items, item ∈ kept ∨ kept.length = n ∧ ∀ other ∈ kept, key item < key other

variable {key}

theorem rank_perm (same : kept.Perm items) : rank key kept item = rank key items item :=
  same.countP_eq _

/-- A part that lacks a member is shorter. -/
theorem length_lt {first : Item} {part whole : List Item} (fresh : first ∉ part) (distinct : part.Nodup)
    (member : first ∈ whole) (inside : ∀ item ∈ part, item ∈ whole) : part.length < whole.length := by
  have nodup : (first :: part).Nodup := List.nodup_cons.mpr ⟨fresh, distinct⟩
  have within : first :: part ⊆ whole := List.cons_subset.mpr ⟨member, inside⟩
  exact (nodup.subperm within).length_le

theorem rank_lt_length (distinct : Distinct key items) (member : item ∈ items) :
    rank key items item < items.length := by
  rw [rank, List.countP_eq_length_filter]
  apply length_lt _ (distinct.nodup.filter _) member fun other inside => (List.mem_filter.mp inside).1
  intro inside
  exact lt_irrefl _ (of_decide_eq_true (List.mem_filter.mp inside).2)

/-- The newer of two items has the smaller rank. -/
theorem rank_lt_rank (distinct : Distinct key items) (member : other ∈ items) (newer : key item < key other) :
    rank key items other < rank key items item := by
  rw [rank, rank, List.countP_eq_length_filter, List.countP_eq_length_filter]
  apply length_lt _ (distinct.nodup.filter _) (List.mem_filter.mpr ⟨member, decide_eq_true newer⟩)
  · intro later inside
    obtain ⟨present, behind⟩ := List.mem_filter.mp inside
    exact List.mem_filter.mpr ⟨present, decide_eq_true (newer.trans (of_decide_eq_true behind))⟩
  · intro inside
    exact lt_irrefl _ (of_decide_eq_true (List.mem_filter.mp inside).2)

/-- Ranks hold all that there is to know of the order. -/
theorem rank_lt_iff (distinct : Distinct key items) (member : item ∈ items) (present : other ∈ items) :
    rank key items other < rank key items item ↔ key item < key other := by
  refine ⟨fun smaller => ?_, rank_lt_rank distinct present⟩
  rcases lt_trichotomy (key item) (key other) with newer | same | older
  · exact newer
  · rw [distinct.eq member present same] at smaller
    exact absurd smaller (lt_irrefl _)
  · exact absurd smaller (rank_lt_rank distinct member older).le.not_gt

/-- In order of age, what follows the first `k` items has the ranks below the rest's length. -/
theorem mem_drop_iff (sorted : items.Pairwise (key · < key ·)) (member : item ∈ items) (k : Nat) :
    item ∈ items.drop k ↔ rank key items item < items.length - k := by
  induction items generalizing k with
  | nil => cases member
  | cons first rest ih =>
    obtain ⟨oldest, later⟩ := List.pairwise_cons.mp sorted
    have tail : ∀ item ∈ rest, rank key (first :: rest) item = rank key rest item := by
      intro item inside
      exact List.countP_cons_of_neg (by simpa using (oldest item inside).le)
    have head : rank key (first :: rest) first = rest.length := by
      rw [rank, List.countP_cons_of_neg (by simp)]
      exact List.countP_eq_length.mpr fun item inside => decide_eq_true (oldest item inside)
    have absent : first ∉ rest := fun inside => lt_irrefl _ (oldest first inside)
    cases k with
    | zero =>
      refine iff_of_true member ?_
      rcases List.mem_cons.mp member with rfl | inside
      · rw [head]
        exact Nat.lt_succ_self _
      · rw [tail item inside]
        have shorter := (ih later inside 0).mp inside
        exact Nat.lt_succ_of_lt shorter
    | succ k =>
      rw [List.drop_succ_cons, List.length_cons, Nat.add_sub_add_right]
      rcases List.mem_cons.mp member with rfl | inside
      · rw [head]
        refine iff_of_false (fun dropped => absent (List.mem_of_mem_drop dropped)) ?_
        omega
      · rw [tail item inside]
        exact ih later inside k

/-- Items in order of age with different keys are in strict order. -/
theorem Distinct.strict (distinct : Distinct key items) (sorted : items.Pairwise (key · ≤ key ·)) :
    items.Pairwise (key · < key ·) :=
  (sorted.and (List.pairwise_map.mp distinct)).imp fun both => lt_of_le_of_ne both.1 both.2

/-- Dropping the oldest items until `n` are left keeps those of a rank below `n`. -/
theorem mem_drop_sorted (distinct : Distinct key items) (sorted : items.Pairwise (key · ≤ key ·))
    (member : item ∈ items) : item ∈ items.drop (items.length - n) ↔ rank key items item < n := by
  rw [mem_drop_iff (distinct.strict sorted) member]
  have inside := rank_lt_length distinct member
  omega

theorem selects_iff (distinct : Distinct key items) (nodup : kept.Nodup) (within : ∀ item ∈ kept, item ∈ items) :
    Selects key n items kept ↔ ∀ item ∈ items, item ∈ kept ↔ rank key items item < n := by
  constructor
  · intro selects item member
    constructor
    · intro inside
      -- What is behind a kept item is kept, and the item itself is one more.
      have shorter : rank key items item < kept.length := by
        rw [rank, List.countP_eq_length_filter]
        apply length_lt _ (distinct.nodup.filter _) inside
        · intro other behind
          obtain ⟨present, newer⟩ := List.mem_filter.mp behind
          refine (selects.newest other present).resolve_right fun ⟨_, oldest⟩ => ?_
          exact lt_asymm (of_decide_eq_true newer) (oldest item inside)
        · intro behind
          exact lt_irrefl _ (of_decide_eq_true (List.mem_filter.mp behind).2)
      exact shorter.trans_le selects.bounded
    · intro ranked
      refine (selects.newest item member).resolve_right fun ⟨full, oldest⟩ => ?_
      have within : kept ⊆ items.filter fun other => key item < key other := fun other inside =>
        List.mem_filter.mpr ⟨within other inside, decide_eq_true (oldest other inside)⟩
      have many := (nodup.subperm within).length_le
      rw [← List.countP_eq_length_filter, full] at many
      exact absurd ranked many.not_gt
  · intro ranked
    have perm : (items.insertionSort (key · ≤ key ·)).Perm items := List.perm_insertionSort _ _
    have sorted := List.pairwise_insertionSort (key · ≤ key ·) items
    have apart := distinct.perm perm
    have same : kept.Perm ((items.insertionSort (key · ≤ key ·)).drop (items.length - n)) := by
      apply (List.perm_ext_iff_of_nodup nodup (apart.nodup.sublist (List.drop_sublist ..))).mpr
      intro item
      rw [← perm.length_eq]
      constructor
      · intro inside
        have member := within item inside
        apply (mem_drop_sorted apart sorted (perm.mem_iff.mpr member)).mpr
        rw [rank_perm perm]
        exact (ranked item member).mp inside
      · intro inside
        have member := List.mem_of_mem_drop inside
        have below := (mem_drop_sorted apart sorted member).mp inside
        rw [rank_perm perm] at below
        exact (ranked item (perm.mem_iff.mp member)).mpr below
    have length : kept.length = min n items.length := by
      rw [same.length_eq, List.length_drop, perm.length_eq]
      omega
    refine ⟨by omega, fun item member => ?_⟩
    by_cases below : rank key items item < n
    · exact .inl ((ranked item member).mpr below)
    · have inside := rank_lt_length distinct member
      refine .inr ⟨by omega, fun other chosen => ?_⟩
      have newer := (ranked other (within other chosen)).mp chosen
      exact (rank_lt_iff distinct member (within other chosen)).mp (newer.trans_le (not_lt.mp below))

end Newest
end Foundation
