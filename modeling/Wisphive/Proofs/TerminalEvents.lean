import Wisphive.TerminalStore

/-! The tail of the recorded output. -/

namespace Wisphive
open Foundation

namespace TerminalEvents
variable {maxBytes total : Nat} {kept payloads : List (List UInt8)} {events : TerminalEvents} {id : Uuid}
  {beforeSeq : Option UInt64} {row other : EventRow} {frames : List EventRow}

/-! ### The loop -/

/-- Behind a first frame the loop takes frames while they fit, and what it leaves out although
it would fit is empty. -/
theorem keepTail_kept (some_ : kept ≠ []) :
    ∃ more rest, payloads = more ++ rest ∧ keepTail maxBytes total kept payloads = kept ++ more ∧
      (more = [] ∨ total + more.flatten.length ≤ maxBytes) ∧
        ∀ longer, longer <+: rest → total + more.flatten.length + longer.flatten.length ≤ maxBytes → longer.flatten = [] := by
  induction payloads generalizing total kept with
  | nil =>
    refine ⟨[], [], rfl, (List.append_nil _).symm, .inl rfl, fun longer begins _ => ?_⟩
    rw [List.prefix_nil.mp begins, List.flatten_nil]
  | cons payload payloads ih =>
    rw [keepTail]
    split
    · next exceeds =>
      refine ⟨[], payload :: payloads, rfl, (List.append_nil _).symm, .inl rfl, fun longer begins fits => ?_⟩
      cases longer with
      | nil => rfl
      | cons first longer =>
        obtain ⟨rfl, _⟩ := List.cons_prefix_cons.mp begins
        rw [List.flatten_nil, List.length_nil, List.flatten_cons, List.length_append] at fits
        have large := exceeds.2
        omega
    · next room =>
      have within : total + payload.length ≤ maxBytes := Nat.not_lt.mp fun exceeds => room ⟨some_, exceeds⟩
      have one : [payload].flatten.length = payload.length := by rw [List.flatten_singleton]
      split
      · next full =>
        refine ⟨[payload], payloads, rfl, rfl, .inr (by omega), fun longer _ fits => ?_⟩
        apply List.eq_nil_of_length_eq_zero
        omega
      · obtain ⟨more, rest, rfl, result, fits, others⟩ :=
          @ih (total + payload.length) (kept ++ [payload]) (List.append_ne_nil_of_right_ne_nil _ (List.cons_ne_nil _ _))
        have both : (payload :: more).flatten.length = payload.length + more.flatten.length := by
          rw [List.flatten_cons, List.length_append]
        refine ⟨payload :: more, rest, rfl, ?_, .inr ?_, fun longer begins within => others longer begins (by omega)⟩
        · rw [result, List.append_assoc, List.singleton_append]
        · rcases fits with rfl | fits
          · rw [one]
            exact within
          · omega

/-- The loop takes the newest frame, and behind it what fits. -/
theorem keepTail_take :
    ∃ count, keepTail maxBytes 0 [] payloads = payloads.take count ∧ count ≤ payloads.length ∧
      (payloads ≠ [] → 1 ≤ count) ∧ (count ≤ 1 ∨ (payloads.take count).flatten.length ≤ maxBytes) ∧
        ∀ longer, count ≤ longer → (payloads.take longer).flatten.length ≤ maxBytes →
          (payloads.take longer).reverse.flatten = (payloads.take count).reverse.flatten := by
  cases payloads with
  | nil => exact ⟨0, rfl, Nat.le_refl _, fun some_ => absurd rfl some_, .inl (Nat.zero_le _), fun _ _ _ => by simp⟩
  | cons payload payloads =>
    obtain ⟨more, rest, rfl, result, fits, others⟩ : ∃ more rest, payloads = more ++ rest ∧
        keepTail maxBytes 0 [] (payload :: payloads) = payload :: more ∧
          (more = [] ∨ payload.length + more.flatten.length ≤ maxBytes) ∧
            ∀ longer, longer <+: rest → payload.length + more.flatten.length + longer.flatten.length ≤ maxBytes →
              longer.flatten = [] := by
      rw [keepTail, if_neg (fun both => both.1 rfl), Nat.zero_add]
      split
      · next full =>
        refine ⟨[], payloads, rfl, rfl, .inl rfl, fun longer _ fits => ?_⟩
        apply List.eq_nil_of_length_eq_zero
        omega
      · exact keepTail_kept (List.cons_ne_nil _ _)
    have taken : (payload :: (more ++ rest)).take (more.length + 1) = payload :: more := by
      rw [List.take_succ_cons, List.take_left]
    refine ⟨more.length + 1, result.trans taken.symm, ?_, fun _ => Nat.le_add_left _ _, ?_, ?_⟩
    · rw [List.length_cons, List.length_append]
      omega
    · rw [taken]
      rcases fits with rfl | fits
      · exact .inl (Nat.le_refl _)
      · refine .inr ?_
        rw [List.flatten_cons, List.length_append]
        exact fits
    · intro longer beyond within
      obtain ⟨extra, rfl⟩ := Nat.exists_eq_add_of_le beyond
      have parts : (payload :: (more ++ rest)).take (more.length + 1 + extra) = (payload :: more) ++ rest.take extra := by
        rw [Nat.add_right_comm, List.take_succ_cons, List.take_append, List.take_of_length_le (Nat.le_add_right _ _),
          Nat.add_sub_cancel_left, List.cons_append]
      rw [parts, List.flatten_append, List.length_append, List.flatten_cons, List.length_append] at within
      have nothing := others (rest.take extra) (List.take_prefix ..) within
      have empty : (rest.take extra).reverse.flatten = [] := by
        rw [List.flatten_eq_nil_iff] at nothing ⊢
        exact fun part member => nothing part (List.mem_reverse.mp member)
      rw [parts, taken, List.reverse_append, List.flatten_append, empty, List.nil_append]

/-! ### The query -/

theorem seq_le_max (seq : Int64) : seq ≤ i64Max :=
  Int64.le_iff_toInt_le.mpr seq.toInt_le

theorem lt_max_iff {seq : Int64} : seq < i64Max ↔ seq ≠ i64Max := by
  constructor
  · rintro below rfl
    exact Int64.lt_irrefl below
  · exact fun differs => Int64.lt_of_le_of_ne (seq_le_max seq) differs

/-- The bound of the query leaves out the largest number. -/
theorem lt_bound_iff : row.seq < bound beforeSeq ↔ Below beforeSeq row ∧ row.seq ≠ i64Max := by
  cases beforeSeq with
  | none =>
    rw [bound, lt_max_iff]
    exact (and_iff_right fun _ absent => by cases absent).symm
  | some seq =>
    have below : Below (some seq) row ↔ row.seq.toInt < seq.toNat := by
      rw [Below]
      simp only [Option.mem_some_iff, forall_eq']
    rw [bound, below]
    split
    · next small =>
      have size : seq.toNat ≤ 9223372036854775807 := UInt64.le_iff_toNat_le.mp small
      have value : seq.toInt64.toInt = seq.toNat := by
        rw [UInt64.toInt64, Int64.toInt, BitVec.toInt_eq_toNat_of_lt]
        · rfl
        · exact Nat.lt_of_le_of_lt (Nat.mul_le_mul_left 2 size) (by decide)
      rw [Int64.lt_iff_toInt_lt, value]
      refine (and_iff_left_of_imp fun less => ?_).symm
      intro largest
      have top : i64Max.toInt = 9223372036854775807 := rfl
      rw [largest, top] at less
      omega
    · next large =>
      have size : 9223372036854775807 < seq.toNat := UInt64.lt_iff_toNat_lt.mp (UInt64.not_le.mp large)
      have top := row.seq.toInt_lt
      rw [lt_max_iff]
      refine (and_iff_right ?_).symm
      omega

/-- Rows of one session in the other order. -/
theorem sorted_reverse {rows : List EventRow} (distinct : (rows.map (·.seq)).Nodup) :
    rows.insertionSort (fun row other => other.seq ≤ row.seq) =
      (rows.insertionSort fun row other => row.seq ≤ other.seq).reverse := by
  have down := List.pairwise_insertionSort (fun row other : EventRow => other.seq ≤ row.seq) rows
  have up := List.pairwise_insertionSort (fun row other : EventRow => row.seq ≤ other.seq) rows
  have same := (List.perm_insertionSort (fun row other : EventRow => other.seq ≤ row.seq) rows).trans
    ((List.perm_insertionSort (fun row other : EventRow => row.seq ≤ other.seq) rows).symm.trans
      (List.reverse_perm _).symm)
  refine List.Perm.eq_of_pairwise ?_ down (List.pairwise_reverse.mpr up) same
  intro row other first second above below
  have member : row ∈ rows := (List.perm_insertionSort _ rows).mem_iff.mp first
  have member' : other ∈ rows := (List.perm_insertionSort _ rows).mem_iff.mp (List.mem_reverse.mp second)
  exact List.inj_on_of_nodup_map distinct member member' (Int64.le_antisymm below above)

/-- Within a session the numbers differ. -/
theorem distinct_seqs (keeps : EventRow → Bool) (same : ∀ row, keeps row = true → row.sessionId = id) :
    ((events.rows.filter keeps).map (·.seq)).Nodup := by
  refine List.pairwise_map.mpr ((events.keyed.filter keeps).imp_of_mem ?_)
  intro row other first second apart equal
  have one := same row (List.mem_filter.mp first).2
  have two := same other (List.mem_filter.mp second).2
  exact apart ⟨one.trans two.symm, equal⟩

theorem tailRows_bounded (bounded : events.Bounded id beforeSeq) :
    events.tailRows id beforeSeq = (events.outputBelow id beforeSeq).reverse.take tailLimit := by
  have kept : events.rows.filter (fun row => row.sessionId = id ∧ row.direction = .output ∧ row.seq < bound beforeSeq) =
      events.rows.filter fun row => row.sessionId = id ∧ row.direction = .output ∧ Below beforeSeq row := by
    refine List.filter_congr fun row member => decide_eq_decide.mpr ?_
    refine and_congr_right fun session => and_congr_right fun output => ?_
    rw [lt_bound_iff]
    exact and_iff_left_of_imp fun below => bounded row member session output below
  have distinct := @distinct_seqs events id
    (fun row => row.sessionId = id ∧ row.direction = .output ∧ Below beforeSeq row) fun row holds =>
      (of_decide_eq_true holds).1
  rw [tailRows, kept, outputBelow, sorted_reverse distinct]

theorem payload_sizes {frames : List EventRow} :
    (frames.map (·.payload)).flatten.length = (frames.map (·.payload.length)).sum := by
  rw [List.length_flatten, List.map_map]
  rfl

/-- The loop over the newest frames gives the tail. -/
theorem keepTail_isTail {frames : List EventRow} :
    IsTail maxBytes frames
      (keepTail maxBytes 0 [] ((frames.reverse.take tailLimit).map (·.payload))).reverse.flatten := by
  obtain ⟨count, result, inside, some_, fits, others⟩ :=
    @keepTail_take maxBytes ((frames.reverse.take tailLimit).map (·.payload))
  rw [List.length_map, List.length_take, List.length_reverse] at inside
  -- the newest frames, in order
  let newest := fun number => (frames.reverse.take number).reverse
  have counted : ∀ number, number ≤ frames.length → (newest number).length = number := by
    intro number few
    rw [List.length_reverse, List.length_take, List.length_reverse, Nat.min_eq_left few]
  have suffix : ∀ number, newest number <:+ frames := by
    intro number
    have begins := List.reverse_suffix.mpr (List.take_prefix number frames.reverse)
    rwa [List.reverse_reverse] at begins
  have taken : ∀ number, number ≤ tailLimit →
      ((frames.reverse.take tailLimit).map (·.payload)).take number = (newest number).reverse.map (·.payload) := by
    intro number limited
    rw [← List.map_take, List.take_take, Nat.min_eq_left limited, List.reverse_reverse]
  have bytes : ∀ number, number ≤ tailLimit →
      (((frames.reverse.take tailLimit).map (·.payload)).take number).reverse.flatten = (newest number).flatMap (·.payload) := by
    intro number limited
    rw [taken number limited, ← List.map_reverse, List.reverse_reverse, List.flatMap_def]
  have sizes : ∀ number, number ≤ tailLimit →
      (((frames.reverse.take tailLimit).map (·.payload)).take number).flatten.length =
        ((newest number).map (·.payload.length)).sum := by
    intro number limited
    rw [taken number limited, payload_sizes, List.map_reverse, List.sum_reverse]
  have fitting : Fits maxBytes (newest count) := by
    rw [Fits, counted count (by omega), ← sizes count (by omega)]
    exact fits.imp_right fun within => ⟨by omega, within⟩
  -- the longest end that fits is as long as the loop's, but for empty frames
  let longest := Nat.findGreatest (fun number => Fits maxBytes (newest number)) frames.length
  have best : Fits maxBytes (newest longest) := by
    have fewer : count ≤ frames.length := by omega
    exact Nat.findGreatest_spec (P := fun number => Fits maxBytes (newest number)) fewer fitting
  have few : longest ≤ frames.length := Nat.findGreatest_le frames.length
  have least : count ≤ longest := Nat.le_findGreatest (by omega) fitting
  refine ⟨newest longest, suffix longest, best, ?_, ?_⟩
  · intro other ends fits
    have shape : other = newest other.length := by
      have begins := List.reverse_prefix.mpr ends
      rw [List.prefix_iff_eq_take, List.length_reverse] at begins
      show other = (frames.reverse.take other.length).reverse
      rw [← begins, List.reverse_reverse]
    rw [counted longest few]
    exact Nat.le_findGreatest ends.length_le (shape ▸ fits)
  · rw [result]
    rw [Fits, counted longest few] at best
    by_cases same : count = longest
    · rw [← same, bytes count (by omega)]
    · rcases best with single | ⟨limited, within⟩
      · have none : frames = [] := by
          by_contra present
          have positive := some_ (by
            rw [← List.length_pos_iff_ne_nil, List.length_map, List.length_take, List.length_reverse]
            have long := List.length_pos_iff_ne_nil.mpr present
            exact Nat.lt_min.mpr ⟨by decide, long⟩)
          omega
        rw [none, List.length_nil] at few inside
        omega
      · rw [← sizes longest limited] at within
        rw [← others longest least within, bytes longest limited]

/-! ### The largest number -/

/-- A tail of frames whose last one holds bytes is not empty. -/
theorem not_isTail_nil {frames : List EventRow} {last : EventRow} (some_ : last.payload ≠ []) :
    ¬ IsTail maxBytes (frames ++ [last]) [] := by
  rintro ⟨kept, ends, _, longest, empty⟩
  have long : 1 ≤ kept.length := longest [last] (List.suffix_append ..) (.inl (Nat.le_refl _))
  obtain ⟨before, whole⟩ := ends
  rcases List.eq_nil_or_concat kept with rfl | ⟨early, newest, rfl⟩
  · cases long
  · rw [List.concat_eq_append, ← List.append_assoc] at whole
    obtain ⟨_, same⟩ := List.append_inj' whole rfl
    cases same
    rw [List.concat_eq_append, List.flatMap_append, List.flatMap_singleton, eq_comm, List.append_eq_nil_iff] at empty
    exact some_ empty.2

/-- Bytes in the frames of the largest number only. -/
def largestOnly (row : EventRow) : List UInt8 :=
  if row.seq = i64Max then [0] else []

theorem tail_largestOnly : (events.withPayloads largestOnly).tailTerminalOutput id maxBytes beforeSeq = [] := by
  obtain ⟨count, result, _⟩ :=
    @keepTail_take maxBytes (((events.withPayloads largestOnly).tailRows id beforeSeq).map (·.payload))
  rw [tailTerminalOutput, result, List.flatten_eq_nil_iff]
  intro bytes member
  obtain ⟨row, taken, rfl⟩ := List.mem_map.mp (List.mem_of_mem_take (List.mem_reverse.mp member))
  have selected := (List.mem_insertionSort _).mp (List.mem_of_mem_take taken)
  obtain ⟨inside, holds⟩ := List.mem_filter.mp selected
  obtain ⟨source, _, rfl⟩ := List.mem_map.mp inside
  obtain ⟨_, _, below⟩ := of_decide_eq_true holds
  exact if_neg (lt_bound_iff.mp below).2

/-- Below the largest number the tail is the one that is asked for. A frame of the largest number
is never returned, so there the tail is wrong for some contents of the frames. -/
theorem tail_right_iff (events : TerminalEvents) (id : Uuid) (maxBytes : Nat) (beforeSeq : Option UInt64) :
    (events.Bounded id beforeSeq →
        IsTail maxBytes (events.outputBelow id beforeSeq) (events.tailTerminalOutput id maxBytes beforeSeq)) ∧
      (¬ events.Bounded id beforeSeq → ∃ payload, ¬ IsTail maxBytes ((events.withPayloads payload).outputBelow id beforeSeq)
        ((events.withPayloads payload).tailTerminalOutput id maxBytes beforeSeq)) := by
  constructor
  · intro bounded
    rw [tailTerminalOutput, tailRows_bounded bounded]
    exact keepTail_isTail
  · intro unbounded
    refine ⟨largestOnly, ?_⟩
    rw [tail_largestOnly]
    rw [Bounded] at unbounded
    simp only [not_forall, not_not] at unbounded
    obtain ⟨row, inside, session, output, below, largest⟩ := unbounded
    have listed : { row with payload := largestOnly row } ∈ (events.withPayloads largestOnly).outputBelow id beforeSeq := by
      refine (List.mem_insertionSort _).mpr (List.mem_filter.mpr ⟨List.mem_map.mpr ⟨row, inside, rfl⟩, ?_⟩)
      exact decide_eq_true ⟨session, output, below⟩
    have sorted : ((events.withPayloads largestOnly).outputBelow id beforeSeq).Pairwise fun row other => row.seq ≤ other.seq :=
      List.pairwise_insertionSort ..
    have shape : ∀ frame ∈ (events.withPayloads largestOnly).outputBelow id beforeSeq,
        frame.seq = i64Max → frame.payload ≠ [] := by
      intro frame member largest
      obtain ⟨source, _, rfl⟩ := List.mem_map.mp (List.mem_filter.mp ((List.mem_insertionSort _).mp member)).1
      have payload : largestOnly source = [0] := if_pos largest
      rw [payload]
      exact List.cons_ne_nil _ _
    rcases List.eq_nil_or_concat ((events.withPayloads largestOnly).outputBelow id beforeSeq) with none | ⟨frames, last, whole⟩
    · rw [none] at listed
      cases listed
    · rw [List.concat_eq_append] at whole
      rw [whole] at listed sorted shape ⊢
      refine not_isTail_nil (shape last (List.mem_append_right _ List.mem_cons_self) ?_)
      refine Int64.le_antisymm (seq_le_max _) ?_
      rcases List.mem_append.mp listed with early | newest
      · have order := (List.pairwise_append.mp sorted).2.2 _ early last List.mem_cons_self
        exact largest ▸ order
      · rw [← List.mem_singleton.mp newest]
        exact Int64.le_of_eq largest.symm

/-- A session whose only frame has the largest number. -/
def lastFrame : TerminalEvents where
  rows := [{ sessionId := 7, seq := i64Max, tsUs := 0, direction := .output, payload := [65] }]
  keyed := List.pairwise_singleton ..

/-- Nothing is returned without a bound, although there is a frame. -/
theorem largest_frame_omitted :
    lastFrame.tailTerminalOutput 7 64 none = [] ∧
      ¬ IsTail 64 (lastFrame.outputBelow 7 none) (lastFrame.tailTerminalOutput 7 64 none) := by
  have empty : lastFrame.tailTerminalOutput 7 64 none = [] := by decide
  have frames : lastFrame.outputBelow 7 none = [] ++ lastFrame.rows := by decide
  refine ⟨empty, ?_⟩
  rw [empty, frames]
  exact not_isTail_nil (List.cons_ne_nil _ _)

end TerminalEvents
end Wisphive
