import Wisphive.TerminalStore

/-! Output frames are queued, inserted and passed by the watermark in the order of their
numbers, so the watermark stays below every frame that is not stored, up to the first
batch that is stored after a loss. -/

namespace Wisphive.TerminalStore
open Foundation

variable {earlier rows batch : List TermFrame} {store after : TerminalStore}

theorem seq_lt_baseSeq {frame : TermFrame} (member : frame ∈ earlier) : frame.seq < baseSeq earlier := by
  unfold baseSeq
  have listed : frame.seq ∈ earlier.map (·.seq) := List.mem_map.mpr ⟨frame, member, rfl⟩
  split
  next newest found =>
    have bound : frame.seq ≤ newest := (List.max?_eq_some_iff.mp found).2 _ listed
    omega
  next missing =>
    rw [List.max?_eq_none_iff.mp missing] at listed
    cases listed

theorem le_notePersisted (watermark : Nat) (batch : List TermFrame) : watermark ≤ notePersisted watermark batch := by
  unfold notePersisted
  split
  · exact Nat.le_max_left ..
  · exact Nat.le_refl _

/-- The watermark passes the output frames of the batch. -/
theorem lt_notePersisted {watermark : Nat} {frame : TermFrame} (member : frame ∈ batch)
    (output : frame.direction = .output) : frame.seq < notePersisted watermark batch := by
  have listed : frame.seq ∈ (batch.filter (·.direction = .output)).map (·.seq) :=
    List.mem_map.mpr ⟨frame, List.mem_filter.mpr ⟨member, decide_eq_true output⟩, rfl⟩
  unfold notePersisted
  split
  next newest found =>
    have bound : frame.seq ≤ newest := (List.max?_eq_some_iff.mp found).2 _ listed
    omega
  next missing =>
    rw [List.max?_eq_none_iff.mp missing] at listed
    cases listed

/-- It passes nothing above the batch. -/
theorem notePersisted_le {watermark bound : Nat} (old : watermark ≤ bound)
    (batched : ∀ frame ∈ batch, frame.seq < bound) : notePersisted watermark batch ≤ bound := by
  unfold notePersisted
  split
  next newest found =>
    obtain ⟨frame, member, rfl⟩ := List.mem_map.mp (List.max?_eq_some_iff.mp found).1
    have := batched frame (List.mem_of_mem_filter member)
    omega
  next => exact old

/-- The transaction took effect. -/
def Inserted.Effective (inserted : Inserted) : Prop :=
  inserted ≠ .failed false

theorem mem_lostBy {inserted : Inserted} {frame : TermFrame} :
    frame ∈ lostBy batch inserted ↔ frame ∈ batch ∧ ¬ Inserted.Effective inserted := by
  match inserted with
  | .ok | .failed true => simp [lostBy, Inserted.Effective]
  | .failed false => simp [lostBy, Inserted.Effective]

theorem mem_inserted {inserted : Inserted} {frame : TermFrame} (member : frame ∈ rows) :
    frame ∈ insertTerminalEventsBatch rows batch inserted := by
  match inserted with
  | .ok | .failed true => exact Table.mem_insertAll member
  | .failed false => exact member

theorem of_mem_inserted {inserted : Inserted} {frame : TermFrame}
    (member : frame ∈ insertTerminalEventsBatch rows batch inserted) :
    frame ∈ rows ∨ frame ∈ batch ∧ Inserted.Effective inserted := by
  match inserted with
  | .ok | .failed true =>
    refine (Table.of_mem_insertAll member).imp_right fun batched => ⟨batched, ?_⟩
    simp [Inserted.Effective]
  | .failed false => exact .inl member

/-- A batch is stored when its numbers belong to no other rows. -/
theorem batch_inserted {inserted : Inserted} (effective : Inserted.Effective inserted) {frame : TermFrame}
    (member : frame ∈ batch) (unique : ∀ row, row ∈ rows ∨ row ∈ batch → row.seq = frame.seq → row = frame) :
    frame ∈ insertTerminalEventsBatch rows batch inserted := by
  have stored : frame ∈ Table.insertAll TermFrame.conflicts rows batch := by
    rcases Table.insertAll_covers member with present | ⟨other, present, conflict⟩
    · exact present
    · have same : frame.seq = other.seq := by simpa [TermFrame.conflicts] using conflict
      rw [← unique other (Table.of_mem_insertAll present) same.symm]
      exact present
  match inserted with
  | .ok | .failed true => exact stored
  | .failed false => exact absurd rfl effective

/-- The output frames that were numbered and whose insert was not tried yet, oldest first. -/
def unflushed (store : TerminalStore) : List TermFrame :=
  store.pending ++ store.channel ++ store.reading.toList

structure Valid (earlier : List TermFrame) (store : TerminalStore) : Prop where
  range : ∀ frame ∈ store.numbered, baseSeq earlier ≤ frame.seq ∧ frame.seq < store.seq
  base : baseSeq earlier ≤ store.seq
  unique : ∀ frame ∈ store.numbered, ∀ other ∈ store.numbered, frame.seq = other.seq → frame = other
  rows : ∀ row ∈ store.rows, row ∈ earlier ∨ row ∈ store.numbered
  persisted : store.outputPersisted ≤ store.seq
  sorted : store.unflushed.Pairwise (·.seq < ·.seq)
  queued : ∀ frame ∈ store.unflushed, frame ∈ store.numbered ∧ frame.direction = .output
  unpassed : ∀ frame ∈ store.unflushed, store.outputPersisted ≤ frame.seq
  unstored : ∀ frame ∈ store.unflushed, frame ∉ store.rows
  behind : ∀ frame ∈ store.lost, ∀ later ∈ store.unflushed, frame.seq < later.seq
  lost : ∀ frame ∈ store.lost, frame ∈ store.numbered ∧ frame.direction = .output ∧ frame ∉ store.rows
  sending : ∀ frame ∈ store.sending, frame ∈ store.numbered ∧ frame.direction ≠ .output
  settled : ∀ frame ∈ store.numbered, frame.direction = .output →
    frame ∈ store.rows ∨ frame ∈ store.lost ∨ frame ∈ store.unflushed
  waits : ∀ wait ∈ store.waits, wait.persisted = some true → wait.target ≤ store.outputPersisted

/-- A frame of this epoch shares its number with no stored row but itself. -/
theorem Valid.unique_row (valid : Valid earlier store) {frame row : TermFrame} (known : frame ∈ store.numbered)
    (present : row ∈ store.rows ∨ row ∈ store.numbered) (same : row.seq = frame.seq) : row = frame := by
  have range := (valid.range frame known).1
  rcases present with stored | numbered
  · rcases valid.rows row stored with old | numbered
    · have := seq_lt_baseSeq old
      omega
    · exact valid.unique row numbered frame known same
  · exact valid.unique row numbered frame known same

theorem Valid.start (earlier : List TermFrame) : Valid earlier (machine earlier).start where
  range _ member := nomatch member
  base := Nat.le_refl _
  unique _ member := nomatch member
  rows _ member := .inl member
  persisted := Nat.zero_le _
  sorted := List.Pairwise.nil
  queued _ member := nomatch member
  unpassed _ member := nomatch member
  unstored _ member := nomatch member
  behind _ member := nomatch member
  lost _ member := nomatch member
  sending _ member := nomatch member
  settled _ member := nomatch member
  waits _ member := nomatch member

/-- A new frame takes the next number, and so a number of its own. -/
theorem Valid.unique_numbered (valid : Valid earlier store) {fresh : TermFrame} (next : fresh.seq = store.seq) :
    ∀ frame ∈ store.numbered ++ [fresh], ∀ other ∈ store.numbered ++ [fresh], frame.seq = other.seq → frame = other := by
  intro frame member other present same
  simp only [List.mem_append, List.mem_singleton] at member present
  rcases member with old | rfl <;> rcases present with known | rfl
  · exact valid.unique frame old other known same
  · have := (valid.range frame old).2
    omega
  · have := (valid.range other known).2
    omega
  · rfl

theorem Valid.range_numbered (valid : Valid earlier store) {fresh : TermFrame} (next : fresh.seq = store.seq) :
    ∀ frame ∈ store.numbered ++ [fresh], baseSeq earlier ≤ frame.seq ∧ frame.seq < store.seq + 1 := by
  intro frame member
  rcases List.mem_append.mp member with old | new
  · have := valid.range frame old
    omega
  · rw [List.mem_singleton.mp new]
    have := valid.base
    omega

/-- A frame that was numbered before is stored only if it was. -/
theorem Valid.not_stored (valid : Valid earlier store) {fresh : TermFrame} (next : fresh.seq = store.seq) :
    fresh ∉ store.rows := by
  intro stored
  have bound := valid.base
  rcases valid.rows fresh stored with old | known
  · have := seq_lt_baseSeq old
    omega
  · have := (valid.range fresh known).2
    omega

namespace Valid
variable (valid : Valid earlier store)
include valid

/-- A frame that is passed on stays in its place. -/
theorem moved {pending channel : List TermFrame} {reading : Option TermFrame}
    (same : { store with pending, channel, reading : TerminalStore }.unflushed = store.unflushed) :
    Valid earlier { store with pending, channel, reading } where
  range := valid.range
  base := valid.base
  unique := valid.unique
  rows := valid.rows
  persisted := valid.persisted
  sorted := by
    rw [same]
    exact valid.sorted
  queued := by
    rw [same]
    exact valid.queued
  unpassed := by
    rw [same]
    exact valid.unpassed
  unstored := by
    rw [same]
    exact valid.unstored
  behind := by
    rw [same]
    exact valid.behind
  lost := valid.lost
  sending := valid.sending
  settled := by
    rw [same]
    exact valid.settled
  waits := valid.waits

theorem banner (first : store.numbered = []) (bytes : List UInt8) (tsUs : Int) (inserted : Inserted) :
    Valid earlier { store with
      seq := store.seq + 1
      numbered := [store.number .output bytes tsUs]
      rows := insertTerminalEventsBatch store.rows [store.number .output bytes tsUs] inserted
      lost := lostBy [store.number .output bytes tsUs] inserted } := by
  have next : (store.number .output bytes tsUs).seq = store.seq := rfl
  have output : (store.number .output bytes tsUs).direction = .output := rfl
  generalize store.number .output bytes tsUs = fresh at next output
  have unknown {frame : TermFrame} : frame ∉ store.numbered := by
    rw [first]
    exact List.not_mem_nil
  have range := valid.range_numbered next
  have unique := valid.unique_numbered next
  rw [first, List.nil_append] at range unique
  refine ⟨range, Nat.le_succ_of_le valid.base, unique, fun row stored => ?_, Nat.le_succ_of_le valid.persisted,
    valid.sorted, fun frame member => absurd (valid.queued frame member).1 unknown, valid.unpassed,
    fun frame member => absurd (valid.queued frame member).1 unknown,
    fun _ _ later member => absurd (valid.queued later member).1 unknown, fun frame missing => ?_,
    fun frame member => absurd (valid.sending frame member).1 unknown, fun frame member _ => ?_, valid.waits⟩
  · rcases of_mem_inserted stored with old | ⟨new, _⟩
    · exact .inl ((valid.rows row old).resolve_right unknown)
    · exact .inr new
  · obtain ⟨member, ineffective⟩ := mem_lostBy.mp missing
    refine ⟨member, ?_, fun stored => ?_⟩
    · rw [List.mem_singleton.mp member]
      exact output
    · rcases of_mem_inserted stored with old | ⟨_, effective⟩
      · rw [List.mem_singleton.mp member] at old
        exact valid.not_stored next old
      · exact ineffective effective
  · by_cases effective : Inserted.Effective inserted
    · refine .inl (batch_inserted effective member fun row present same => ?_)
      rcases present with stored | new
      · have bound := (range frame member).1
        rcases valid.rows row stored with old | known
        · have := seq_lt_baseSeq old
          omega
        · exact absurd known unknown
      · rw [List.mem_singleton.mp new, List.mem_singleton.mp member]
    · exact .inr (.inl (mem_lostBy.mpr ⟨member, effective⟩))

theorem ingested (idle : store.reading = none) (bytes : List UInt8) (tsUs : Int) :
    Valid earlier { store with
      seq := store.seq + 1
      numbered := store.numbered ++ [store.number .output bytes tsUs]
      reading := some (store.number .output bytes tsUs) } := by
  have next : (store.number .output bytes tsUs).seq = store.seq := rfl
  have output : (store.number .output bytes tsUs).direction = .output := rfl
  generalize store.number .output bytes tsUs = fresh at next output
  have grown : { store with
      seq := store.seq + 1, numbered := store.numbered ++ [fresh], reading := some fresh : TerminalStore }.unflushed =
      store.unflushed ++ [fresh] := by
    simp only [unflushed, idle, Option.toList_some, Option.toList_none, List.append_nil]
  have cases {frame : TermFrame} (member : frame ∈ store.unflushed ++ [fresh]) :
      frame ∈ store.unflushed ∨ frame = fresh := by
    simpa using member
  refine ⟨valid.range_numbered next, Nat.le_succ_of_le valid.base, valid.unique_numbered next, fun row stored => ?_,
    Nat.le_succ_of_le valid.persisted, ?_, ?_, ?_, ?_, ?_, fun frame member => ?_, fun frame member => ?_,
    fun frame member chosen => ?_, valid.waits⟩
  · exact (valid.rows row stored).imp_right fun known => List.mem_append_left _ known
  · rw [grown]
    refine List.pairwise_append.mpr ⟨valid.sorted, List.pairwise_singleton .., fun frame member later new => ?_⟩
    rw [List.mem_singleton.mp new, next]
    exact (valid.range frame (valid.queued frame member).1).2
  · rw [grown]
    intro frame member
    rcases cases member with old | rfl
    · exact ⟨List.mem_append_left _ (valid.queued frame old).1, (valid.queued frame old).2⟩
    · exact ⟨List.mem_append_right _ (List.mem_singleton.mpr rfl), output⟩
  · rw [grown]
    intro frame member
    rcases cases member with old | rfl
    · exact valid.unpassed frame old
    · rw [next]
      exact valid.persisted
  · rw [grown]
    intro frame member
    rcases cases member with old | rfl
    · exact valid.unstored frame old
    · exact valid.not_stored next
  · rw [grown]
    intro frame missing later member
    rcases cases member with old | rfl
    · exact valid.behind frame missing later old
    · rw [next]
      exact (valid.range frame (valid.lost frame missing).1).2
  · obtain ⟨known, rest⟩ := valid.lost frame member
    exact ⟨List.mem_append_left _ known, rest⟩
  · obtain ⟨known, other⟩ := valid.sending frame member
    exact ⟨List.mem_append_left _ known, other⟩
  · rw [grown]
    rcases List.mem_append.mp member with old | new
    · rcases valid.settled frame old chosen with stored | missing | waiting
      · exact .inl stored
      · exact .inr (.inl missing)
      · exact .inr (.inr (List.mem_append_left _ waiting))
    · exact .inr (.inr (List.mem_append_right _ new))

theorem numbered_other {direction : TerminalDirection} (other : direction ≠ .output) (bytes : List UInt8) (tsUs : Int) :
    Valid earlier { store with
      seq := store.seq + 1
      numbered := store.numbered ++ [store.number direction bytes tsUs]
      sending := store.sending ++ [store.number direction bytes tsUs] } := by
  have next : (store.number direction bytes tsUs).seq = store.seq := rfl
  have directed : (store.number direction bytes tsUs).direction ≠ .output := other
  generalize store.number direction bytes tsUs = fresh at next directed
  refine ⟨valid.range_numbered next, Nat.le_succ_of_le valid.base, valid.unique_numbered next, fun row stored => ?_,
    Nat.le_succ_of_le valid.persisted, valid.sorted, fun frame member => ?_, valid.unpassed, valid.unstored,
    valid.behind, fun frame member => ?_, fun frame member => ?_, fun frame member chosen => ?_, valid.waits⟩
  · exact (valid.rows row stored).imp_right fun known => List.mem_append_left _ known
  · obtain ⟨known, output⟩ := valid.queued frame member
    exact ⟨List.mem_append_left _ known, output⟩
  · obtain ⟨known, rest⟩ := valid.lost frame member
    exact ⟨List.mem_append_left _ known, rest⟩
  · rcases List.mem_append.mp member with old | new
    · obtain ⟨known, kept⟩ := valid.sending frame old
      exact ⟨List.mem_append_left _ known, kept⟩
    · rw [List.mem_singleton.mp new]
      exact ⟨List.mem_append_right _ (List.mem_singleton.mpr rfl), directed⟩
  · rcases List.mem_append.mp member with old | new
    · exact valid.settled frame old chosen
    · rw [List.mem_singleton.mp new] at chosen
      exact absurd chosen directed

theorem insertedOther {frame : TermFrame} {position : Nat} (inserted : Inserted)
    (found : store.sending[position]? = some frame) :
    Valid earlier { store with
      sending := store.sending.eraseIdx position
      rows := insertTerminalEventsBatch store.rows [frame] inserted } := by
  obtain ⟨known, directed⟩ := valid.sending frame (List.mem_of_getElem? found)
  have other {row : TermFrame} (output : row.direction = .output)
      (stored : row ∈ insertTerminalEventsBatch store.rows [frame] inserted) : row ∈ store.rows := by
    rcases of_mem_inserted stored with old | ⟨new, _⟩
    · exact old
    · rw [List.mem_singleton.mp new] at output
      exact absurd output directed
  refine ⟨valid.range, valid.base, valid.unique, fun row stored => ?_, valid.persisted, valid.sorted, valid.queued,
    valid.unpassed, fun later member stored => ?_, valid.behind, fun missing member => ?_,
    fun later member => valid.sending later (List.mem_of_mem_eraseIdx member), fun later member chosen => ?_, valid.waits⟩
  · rcases of_mem_inserted stored with old | ⟨new, _⟩
    · exact valid.rows row old
    · rw [List.mem_singleton.mp new]
      exact .inr known
  · exact valid.unstored later member (other (valid.queued later member).2 stored)
  · obtain ⟨present, output, unstored⟩ := valid.lost missing member
    exact ⟨present, output, fun stored => unstored (other output stored)⟩
  · exact (valid.settled later member chosen).imp_left mem_inserted

/-- The oldest frames leave the queue together, stored or lost. -/
theorem insertedBatch (inserted : Inserted) :
    Valid earlier { store with
      pending := []
      rows := insertTerminalEventsBatch store.rows store.pending inserted
      lost := store.lost ++ lostBy store.pending inserted
      outputPersisted :=
        if inserted = .ok then notePersisted store.outputPersisted store.pending else store.outputPersisted } := by
  have split : store.unflushed = store.pending ++ (store.channel ++ store.reading.toList) :=
    List.append_assoc ..
  have ordered := valid.sorted
  rw [split] at ordered
  obtain ⟨_, sorted, ahead⟩ := List.pairwise_append.mp ordered
  have batched {frame : TermFrame} (member : frame ∈ store.pending) : frame ∈ store.unflushed := by
    rw [split]
    exact List.mem_append_left _ member
  have waiting {frame : TermFrame} (member : frame ∈ store.channel ++ store.reading.toList) :
      frame ∈ store.unflushed := by
    rw [split]
    exact List.mem_append_right _ member
  have bounded {bound : Nat} (old : store.outputPersisted ≤ bound) (below : ∀ frame ∈ store.pending, frame.seq < bound) :
      (if inserted = .ok then notePersisted store.outputPersisted store.pending else store.outputPersisted) ≤ bound := by
    split
    · exact notePersisted_le old below
    · exact old
  refine ⟨valid.range, valid.base, valid.unique, fun row stored => ?_, bounded valid.persisted fun frame member => ?_,
    sorted, fun frame member => valid.queued frame (waiting member), fun frame member => ?_,
    fun frame member stored => ?_, fun frame missing later member => ?_, fun frame missing => ?_, valid.sending,
    fun frame member output => ?_, fun wait member passed => ?_⟩
  · rcases of_mem_inserted stored with old | ⟨new, _⟩
    · exact valid.rows row old
    · exact .inr (valid.queued row (batched new)).1
  · exact (valid.range frame (valid.queued frame (batched member)).1).2
  · exact bounded (valid.unpassed frame (waiting member)) fun earlier first => ahead earlier first frame member
  · rcases of_mem_inserted stored with old | ⟨new, _⟩
    · exact valid.unstored frame (waiting member) old
    · exact Nat.lt_irrefl _ (ahead frame new frame member)
  · rcases List.mem_append.mp missing with old | new
    · exact valid.behind frame old later (waiting member)
    · exact ahead frame (mem_lostBy.mp new).1 later member
  · rcases List.mem_append.mp missing with old | new
    · obtain ⟨known, output, unstored⟩ := valid.lost frame old
      refine ⟨known, output, fun stored => ?_⟩
      rcases of_mem_inserted stored with before | ⟨now, _⟩
      · exact unstored before
      · exact Nat.lt_irrefl _ (valid.behind frame old frame (batched now))
    · obtain ⟨member, ineffective⟩ := mem_lostBy.mp new
      obtain ⟨known, output⟩ := valid.queued frame (batched member)
      refine ⟨known, output, fun stored => ?_⟩
      rcases of_mem_inserted stored with before | ⟨_, effective⟩
      · exact valid.unstored frame (batched member) before
      · exact ineffective effective
  · rcases valid.settled frame member output with stored | missing | queued
    · exact .inl (mem_inserted stored)
    · exact .inr (.inl (List.mem_append_left _ missing))
    · rw [split] at queued
      rcases List.mem_append.mp queued with now | later
      · by_cases effective : Inserted.Effective inserted
        · refine .inl (batch_inserted effective now fun row present same => ?_)
          refine valid.unique_row member (present.imp_right fun batch => ?_) same
          exact (valid.queued row (batched batch)).1
        · exact .inr (.inl (List.mem_append_right _ (mem_lostBy.mpr ⟨now, effective⟩)))
      · exact .inr (.inr later)
  · apply Nat.le_trans (valid.waits wait member passed)
    split
    · exact le_notePersisted ..
    · exact Nat.le_refl _

theorem awaited (target : Nat) : Valid earlier (store.await target) := by
  refine ⟨valid.range, valid.base, valid.unique, valid.rows, valid.persisted, valid.sorted, valid.queued,
    valid.unpassed, valid.unstored, valid.behind, valid.lost, valid.sending, valid.settled, fun wait member passed => ?_⟩
  rcases List.mem_append.mp member with old | new
  · exact valid.waits wait old passed
  · cases List.mem_singleton.mp new
    by_cases reached : target = 0 || store.passes target
    · rcases Bool.or_eq_true_iff.mp reached with zero | covered
      · rw [of_decide_eq_true zero]
        exact Nat.zero_le _
      · exact of_decide_eq_true covered
    · simp [reached] at passed

theorem polled {wait : OutputWait} {position : Nat} (expired : Bool) (found : store.waits[position]? = some wait) :
    Valid earlier { store with waits := store.waits.set position (store.poll expired wait) } := by
  refine ⟨valid.range, valid.base, valid.unique, valid.rows, valid.persisted, valid.sorted, valid.queued,
    valid.unpassed, valid.unstored, valid.behind, valid.lost, valid.sending, valid.settled, fun other member passed => ?_⟩
  rcases List.mem_or_eq_of_mem_set member with old | rfl
  · exact valid.waits other old passed
  · unfold poll at passed ⊢
    split at passed
    next ended =>
      rw [if_pos ended]
      exact valid.waits wait (List.mem_of_getElem? found) passed
    next open_ =>
      rw [if_neg open_]
      split at passed
      next covered =>
        rw [if_pos covered]
        exact of_decide_eq_true covered
      next =>
        split at passed
        · cases passed
        · simp [passed] at open_

theorem step {event : StoreEvent} (taken : store.step event = some after) : Valid earlier after := by
  cases event with
  | banner bytes tsUs inserted =>
    simp only [TerminalStore.step] at taken
    split at taken
    next => cases taken
    next first =>
      cases taken
      exact valid.banner (not_not.mp first) bytes tsUs inserted
  | ingestOutput bytes tsUs =>
    simp only [TerminalStore.step] at taken
    split at taken
    next => cases taken
    next idle =>
      cases taken
      exact valid.ingested (Option.not_isSome_iff_eq_none.mp idle) bytes tsUs
  | queueOutput =>
    simp only [TerminalStore.step] at taken
    split at taken
    next frame reading =>
      split at taken
      next =>
        cases taken
        apply valid.moved
        simp only [unflushed, reading, Option.toList_some, Option.toList_none, List.append_nil, List.append_assoc]
      next => cases taken
    next => cases taken
  | drain =>
    simp only [TerminalStore.step] at taken
    split at taken
    next frame rest queue =>
      split at taken
      next =>
        cases taken
        apply valid.moved
        simp only [unflushed, queue, List.append_assoc, List.cons_append, List.nil_append]
      next => cases taken
    next => cases taken
  | insertBatch inserted =>
    simp only [TerminalStore.step] at taken
    split at taken
    next => cases taken
    next =>
      cases taken
      exact valid.insertedBatch inserted
  | numberOther direction bytes tsUs =>
    simp only [TerminalStore.step] at taken
    split at taken
    next => cases taken
    next other =>
      cases taken
      exact valid.numbered_other other bytes tsUs
  | insertOther position inserted =>
    obtain ⟨frame, found, rfl⟩ := Option.map_eq_some_iff.mp taken
    exact valid.insertedOther inserted found
  | await target =>
    cases taken
    exact valid.awaited target
  | poll position expired =>
    obtain ⟨wait, found, rfl⟩ := Option.map_eq_some_iff.mp taken
    exact valid.polled expired found

end Valid

/-- The watermark has passed no frame that was lost. -/
def Unpassed (store : TerminalStore) : Prop :=
  ∀ frame ∈ store.lost, store.outputPersisted ≤ frame.seq

/-- What was passed and not lost is stored. -/
theorem Valid.honest (valid : Valid earlier store) (unpassed : store.Unpassed) : store.Honest := by
  intro wait member passed frame numbered output below
  have reached := valid.waits wait member passed
  rcases valid.settled frame numbered output with stored | missing | queued
  · exact stored
  · have := unpassed frame missing
    omega
  · have := valid.unpassed frame queued
    omega

/-- What an event does to the watermark and to what is lost. -/
theorem step_lost {event : StoreEvent} (taken : store.step event = some after) :
    (∀ inserted, event ≠ .insertBatch inserted) ∧ after.outputPersisted = store.outputPersisted ∧
      after.lost = store.lost ∨
    (∃ bytes tsUs inserted, store.numbered = [] ∧ event = .banner bytes tsUs inserted ∧
      after.outputPersisted = store.outputPersisted ∧ after.lost = lostBy [store.number .output bytes tsUs] inserted) ∨
    ∃ inserted, event = .insertBatch inserted ∧ store.pending ≠ [] ∧
      after.lost = store.lost ++ lostBy store.pending inserted ∧
      after.outputPersisted =
        if inserted = .ok then notePersisted store.outputPersisted store.pending else store.outputPersisted := by
  cases event with
  | banner bytes tsUs inserted =>
    simp only [TerminalStore.step] at taken
    split at taken
    next => cases taken
    next first =>
      cases taken
      exact .inr (.inl ⟨bytes, tsUs, inserted, not_not.mp first, rfl, rfl, rfl⟩)
  | insertBatch inserted =>
    simp only [TerminalStore.step] at taken
    split at taken
    next => cases taken
    next batched =>
      cases taken
      exact .inr (.inr ⟨inserted, rfl, batched, rfl, rfl⟩)
  | ingestOutput | numberOther =>
    simp only [TerminalStore.step] at taken
    split at taken
    · cases taken
    · cases taken
      exact .inl ⟨fun _ same => (by cases same), rfl, rfl⟩
  | queueOutput | drain =>
    simp only [TerminalStore.step] at taken
    split at taken
    · split at taken
      · cases taken
        exact .inl ⟨fun _ same => (by cases same), rfl, rfl⟩
      · cases taken
    · cases taken
  | insertOther | poll =>
    obtain ⟨_, _, rfl⟩ := Option.map_eq_some_iff.mp taken
    exact .inl ⟨fun _ same => (by cases same), rfl, rfl⟩
  | await target =>
    cases taken
    exact .inl ⟨fun _ same => (by cases same), rfl, rfl⟩

theorem Unpassed.step (valid : Valid earlier store) (unpassed : store.Unpassed) {event : StoreEvent}
    (met : store.Meets event) (taken : store.step event = some after) : after.Unpassed := by
  obtain ⟨_, persisted, lost⟩ | ⟨bytes, tsUs, inserted, _, _, persisted, lost⟩ | ⟨inserted, rfl, _, lost, persisted⟩ :=
    step_lost taken
  · rw [Unpassed, persisted, lost]
    exact unpassed
  · rw [Unpassed, persisted, lost]
    intro frame missing
    rw [List.mem_singleton.mp (mem_lostBy.mp missing).1]
    exact valid.persisted
  · rw [Unpassed, persisted, lost]
    cases inserted with
    | ok =>
      have none : store.lost = [] := met
      simp [none, lostBy]
    | failed committed =>
      rw [if_neg (by simp)]
      intro frame missing
      rcases List.mem_append.mp missing with old | new
      · exact unpassed frame old
      · apply valid.unpassed
        rw [unflushed, List.append_assoc]
        exact List.mem_append_left _ (mem_lostBy.mp new).1

/-- A frame that was passed and lost stays so. -/
theorem passed_stays (valid : Valid earlier store) {event : StoreEvent} (taken : store.step event = some after)
    (passed : ¬ store.Unpassed) : ¬ after.Unpassed := by
  simp only [Unpassed, not_forall, Nat.not_le] at passed ⊢
  obtain ⟨frame, missing, below⟩ := passed
  obtain ⟨_, persisted, lost⟩ | ⟨_, _, _, first, _, persisted, lost⟩ | ⟨inserted, rfl, _, lost, persisted⟩ := step_lost taken
  · rw [persisted, lost]
    exact ⟨frame, missing, below⟩
  · have known := (valid.lost frame missing).1
    rw [first] at known
    cases known
  · rw [persisted, lost]
    refine ⟨frame, List.mem_append_left _ missing, Nat.lt_of_lt_of_le below ?_⟩
    split
    · exact le_notePersisted ..
    · exact Nat.le_refl _

/-- A batch that is stored after a loss passes what was lost. -/
theorem passed_of_unmet (valid : Valid earlier store) {event : StoreEvent} (taken : store.step event = some after)
    (unmet : ¬ store.Meets event) : ¬ after.Unpassed := by
  obtain rfl : event = .insertBatch .ok := by
    unfold Meets at unmet
    split at unmet
    · rfl
    · exact absurd trivial unmet
  obtain ⟨frame, missing⟩ := List.exists_mem_of_ne_nil _ (show store.lost ≠ [] from unmet)
  obtain ⟨other, _⟩ | ⟨_, _, _, _, other, _, _⟩ | ⟨inserted, same, batched, lost, persisted⟩ := step_lost taken
  · exact absurd rfl (other _)
  · cases other
  · cases same
    obtain ⟨newest, member⟩ := List.exists_mem_of_ne_nil _ batched
    have queued : newest ∈ store.unflushed := by
      rw [unflushed, List.append_assoc]
      exact List.mem_append_left _ member
    have order := valid.behind frame missing newest queued
    have covered : newest.seq < notePersisted store.outputPersisted store.pending :=
      lt_notePersisted member (valid.queued newest queued).2
    intro unpassed
    have bound := unpassed frame (by rw [lost]; exact List.mem_append_left _ missing)
    rw [persisted, if_pos rfl] at bound
    omega

theorem guarded_unpassed {events : List StoreEvent} (valid : Valid earlier store) (unpassed : store.Unpassed)
    (taken : (machine earlier).run Meets store events = some after) : Valid earlier after ∧ after.Unpassed :=
  Machine.run_preserves (fun store => Valid earlier store ∧ store.Unpassed)
    (fun _ _ _ kept met taken => ⟨kept.1.step taken, kept.2.step kept.1 met taken⟩) ⟨valid, unpassed⟩ taken

theorem run_passed {events : List StoreEvent} (valid : Valid earlier store) (passed : ¬ store.Unpassed)
    (taken : (machine earlier).run Machine.free store events = some after) : Valid earlier after ∧ ¬ after.Unpassed :=
  Machine.run_preserves (fun store => Valid earlier store ∧ ¬ store.Unpassed)
    (fun _ _ _ kept _ taken => ⟨kept.1.step taken, passed_stays kept.1 taken kept.2⟩) ⟨valid, passed⟩ taken

/-- A run that ends with nothing passed met the guard at every event. -/
theorem guarded_of_unpassed {events : List StoreEvent} (valid : Valid earlier store)
    (taken : (machine earlier).run Machine.free store events = some after) (unpassed : after.Unpassed) :
    (machine earlier).run Meets store events = some after := by
  induction events generalizing store with
  | nil => exact taken
  | cons event rest ih =>
    rw [Machine.run, if_pos (show Machine.free store event from trivial)] at taken
    obtain ⟨next, first, later⟩ := Option.bind_eq_some_iff.mp taken
    have met : store.Meets event := by
      by_contra unmet
      exact (run_passed (valid.step first) (passed_of_unmet valid first unmet) later).2 unpassed
    rw [Machine.run, if_pos met]
    apply Option.bind_eq_some_iff.mpr
    exact ⟨next, first, ih (valid.step first) later⟩

/-- An attach that starts to wait for the watermark itself returns at once. -/
theorem Valid.unpassed_of_honest (valid : Valid earlier store)
    (honest : (store.await store.outputPersisted).Honest) : store.Unpassed := by
  intro frame missing
  by_contra passed
  obtain ⟨numbered, output, unstored⟩ := valid.lost frame missing
  have waited : { target := store.outputPersisted, persisted := some true } ∈
      (store.await store.outputPersisted).waits := by
    apply List.mem_append_right
    simp [passes]
  exact unstored (honest _ waited rfl frame numbered output (Nat.lt_of_not_le passed))

/-- At the end of a run every wait that returned in time, and every wait that starts
then, is honest, exactly when no batch was stored after output frames were lost. -/
theorem barrier_honest_iff {events : List StoreEvent}
    (taken : (machine earlier).run Machine.free (machine earlier).start events = some after) :
    (∀ target, (after.await target).Honest) ↔
      (machine earlier).run Meets (machine earlier).start events = some after := by
  have valid : Valid earlier after :=
    Machine.run_preserves (Valid earlier) (fun _ _ _ valid _ taken => valid.step taken) (Valid.start earlier) taken
  constructor
  · intro honest
    exact guarded_of_unpassed (Valid.start earlier) taken (valid.unpassed_of_honest (honest _))
  · intro guarded target
    have nothing : (machine earlier).start.Unpassed := fun _ member => nomatch member
    have unpassed := (guarded_unpassed (Valid.start earlier) nothing guarded).2
    exact (valid.awaited target).honest unpassed

/-- The reader's frames are queued one by one, and each drained at once. -/
private def outputOf (bytes : List UInt8) : List StoreEvent :=
  [.ingestOutput bytes 0, .queueOutput, .drain]

/-- The first batch is lost, and the second one stored. -/
private def lostThenStored : List StoreEvent :=
  outputOf [1] ++ [.insertBatch (.failed false)] ++ outputOf [2] ++ [.insertBatch .ok, .await 2]

private def storedThenLost : List StoreEvent :=
  outputOf [1] ++ [.insertBatch .ok] ++ outputOf [2] ++ [.await 1, .insertBatch (.failed false)]

theorem barrier_honest_iff_stored :
    ((((machine []).run Machine.free (machine []).start storedThenLost).get
      (by decide +kernel)).await 2).Honest :=
  (barrier_honest_iff (Option.some_get _).symm).mpr (by decide +kernel) 2

/-- The wait returns in time although the first frame is not stored. -/
theorem lost_frame_passed :
    ¬ (((machine []).run Machine.free (machine []).start lostThenStored).get (by decide +kernel)).Honest := by
  intro honest
  have stored := honest { target := 2, persisted := some true } (by decide +kernel) rfl
    { seq := 0, tsUs := 0, direction := .output, bytes := [1] } (by decide +kernel) rfl (by decide)
  revert stored
  decide +kernel

end Wisphive.TerminalStore
