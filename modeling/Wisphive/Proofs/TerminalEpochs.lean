import Mathlib.Data.List.Nodup
import Wisphive.TerminalStore
import Wisphive.Proofs.TerminalBarrier
import Wisphive.Proofs.TerminalDelivery

/-! The numbers of an epoch start behind every stored one, and a frame that waits for its
insert has a number that no row has. -/

namespace Wisphive
open Foundation

/-- What keeps the frames that wait for their insert apart from the rows, in an epoch whose
numbers start at `floor`. -/
structure Numbering (floor seq : Nat) (numbered rows waiting : List TermFrame) : Prop where
  begun : floor ≤ seq
  ours : ∀ frame ∈ numbered, floor ≤ frame.seq
  stored : ∀ row ∈ rows, row.seq < seq
  given : ∀ frame ∈ waiting, frame.seq < seq
  distinct : (waiting.map (·.seq)).Nodup
  unstored : ∀ frame ∈ waiting, ∀ row ∈ rows, row.seq ≠ frame.seq

/-- A batch whose numbers are its own meets no conflict. -/
theorem clearAll_of_unstored {rows batch : List TermFrame} (distinct : (batch.map (·.seq)).Nodup)
    (unstored : ∀ frame ∈ batch, ∀ row ∈ rows, row.seq ≠ frame.seq) :
    Table.ClearAll TermFrame.conflicts rows batch := by
  induction batch generalizing rows with
  | nil => trivial
  | cons first rest ih =>
    obtain ⟨fresh, later⟩ := List.nodup_cons.mp distinct
    refine ⟨fun row stored => ?_, ih later fun frame member row stored => ?_⟩
    · exact decide_eq_false fun same => unstored first (List.mem_cons_self ..) row stored same.symm
    · rcases List.mem_append.mp stored with old | new
      · exact unstored frame (List.mem_cons_of_mem _ member) row old
      · rw [List.mem_singleton.mp new]
        intro same
        exact fresh (List.mem_map.mpr ⟨frame, member, same.symm⟩)

namespace Numbering
variable {floor seq : Nat} {numbered rows waiting later batch rest : List TermFrame} {fresh : TermFrame}
variable (numbering : Numbering floor seq numbered rows waiting)
include numbering

theorem reorder (same : later.Perm waiting) : Numbering floor seq numbered rows later where
  begun := numbering.begun
  ours := numbering.ours
  stored := numbering.stored
  given frame member := numbering.given frame (same.mem_iff.mp member)
  distinct := (same.map _).nodup_iff.mpr numbering.distinct
  unstored frame member := numbering.unstored frame (same.mem_iff.mp member)

/-- `next_seq`. -/
theorem number (next : fresh.seq = seq) : Numbering floor (seq + 1) (numbered ++ [fresh]) rows (fresh :: waiting) where
  begun := Nat.le_succ_of_le numbering.begun
  ours frame member := by
    rcases List.mem_append.mp member with old | new
    · exact numbering.ours frame old
    · rw [List.mem_singleton.mp new, next]
      exact numbering.begun
  stored row present := Nat.lt_succ_of_lt (numbering.stored row present)
  given frame member := by
    rcases List.mem_cons.mp member with rfl | old
    · omega
    · exact Nat.lt_succ_of_lt (numbering.given frame old)
  distinct := by
    refine List.nodup_cons.mpr ⟨fun repeated => ?_, numbering.distinct⟩
    obtain ⟨frame, member, same⟩ := List.mem_map.mp repeated
    have below := numbering.given frame member
    exact absurd (same.trans next) (Nat.ne_of_lt below)
  unstored frame member row present := by
    rcases List.mem_cons.mp member with rfl | old
    · have below := numbering.stored row present
      omega
    · exact numbering.unstored frame old row present

/-- Nothing of a batch that waits is ignored. -/
theorem inserted (parts : waiting.Perm (batch ++ rest)) (inserted : Inserted) :
    TerminalStore.insertTerminalEventsBatch rows batch inserted =
      rows ++ if inserted ≠ .failed false then batch else [] := by
  have clear : Table.ClearAll TermFrame.conflicts rows batch := by
    apply clearAll_of_unstored
    · have distinct := (parts.map (·.seq)).nodup_iff.mp numbering.distinct
      rw [List.map_append] at distinct
      exact (List.nodup_append.mp distinct).1
    · exact fun frame member => numbering.unstored frame (parts.mem_iff.mpr (List.mem_append_left _ member))
  cases inserted with
  | ok => exact Table.insertAll_clear clear
  | failed committed =>
    cases committed with
    | true => exact Table.insertAll_clear clear
    | false => exact (List.append_nil rows).symm

theorem insert (parts : waiting.Perm (batch ++ rest)) (inserted : Inserted) :
    Numbering floor seq numbered (TerminalStore.insertTerminalEventsBatch rows batch inserted) rest := by
  have distinct := (parts.map (·.seq)).nodup_iff.mp numbering.distinct
  rw [List.map_append] at distinct
  have stored : ∀ row ∈ TerminalStore.insertTerminalEventsBatch rows batch inserted, row ∈ rows ∨ row ∈ batch := by
    intro row member
    exact (TerminalStore.of_mem_inserted member).imp_right And.left
  refine ⟨numbering.begun, numbering.ours, fun row member => ?_, fun frame member => ?_,
    (List.nodup_append.mp distinct).2.1, fun frame member row present => ?_⟩
  · rcases stored row member with old | new
    · exact numbering.stored row old
    · exact numbering.given row (parts.mem_iff.mpr (List.mem_append_left _ new))
  · exact numbering.given frame (parts.mem_iff.mpr (List.mem_append_right _ member))
  · rcases stored row present with old | new
    · exact numbering.unstored frame (parts.mem_iff.mpr (List.mem_append_right _ member)) row old
    · exact (List.nodup_append.mp distinct).2.2 _ (List.mem_map_of_mem new) _ (List.mem_map_of_mem member)

end Numbering

namespace TerminalStore
variable {floor : Nat} {store after : TerminalStore} {event : StoreEvent}

/-- The frames that were numbered and are still to be inserted. -/
def waiting (store : TerminalStore) : List TermFrame :=
  store.unflushed ++ store.sending

def Apart (floor : Nat) (store : TerminalStore) : Prop :=
  Numbering floor store.seq store.numbered store.rows store.waiting

theorem Apart.start (rows : List TermFrame) : (machine rows).start.Apart (baseSeq rows) where
  begun := Nat.le_refl _
  ours _ member := nomatch member
  stored _ present := seq_lt_baseSeq present
  given _ member := nomatch member
  distinct := List.nodup_nil
  unstored _ member := nomatch member

/-- One step keeps the numbers apart and inserts all that it offers. -/
theorem Apart.step (apart : store.Apart floor) (taken : store.step event = some after) :
    after.Apart floor ∧ after.rows = store.rows ++ (if event.commits then store.offered event else []) := by
  cases event with
  | banner bytes tsUs inserted =>
    simp only [TerminalStore.step] at taken
    split at taken
    · cases taken
    · next first =>
      cases taken
      have numbering : Numbering floor (store.seq + 1) (store.numbered ++ [store.number .output bytes tsUs]) store.rows
          ([store.number .output bytes tsUs] ++ store.waiting) := Numbering.number apart rfl
      have stored := numbering.insert (.refl _) inserted
      rw [not_not.mp first] at stored
      exact ⟨stored, (numbering.inserted (.refl _) inserted).trans (by simp [StoreEvent.commits, offered])⟩
  | ingestOutput bytes tsUs =>
    simp only [TerminalStore.step] at taken
    split at taken
    · cases taken
    · next free =>
      cases taken
      have numbering : Numbering floor (store.seq + 1) (store.numbered ++ [store.number .output bytes tsUs]) store.rows
          (store.number .output bytes tsUs :: store.waiting) := Numbering.number apart rfl
      refine ⟨numbering.reorder ?_, by simp [offered]⟩
      have none := Option.not_isSome_iff_eq_none.mp free
      simp only [waiting, unflushed, none, Option.toList_some, Option.toList_none, List.append_nil]
      rw [List.append_assoc]
      exact List.perm_middle
  | queueOutput =>
    simp only [TerminalStore.step] at taken
    split at taken
    · next frame reading =>
      split at taken
      · cases taken
        refine ⟨Numbering.reorder apart (.of_eq ?_), by simp [offered]⟩
        simp [waiting, unflushed, reading]
      · cases taken
    · cases taken
  | drain =>
    simp only [TerminalStore.step] at taken
    split at taken
    · next frame rest channel =>
      split at taken
      · cases taken
        refine ⟨Numbering.reorder apart (.of_eq ?_), by simp [offered]⟩
        simp [waiting, unflushed, channel]
      · cases taken
    · cases taken
  | insertBatch inserted =>
    simp only [TerminalStore.step] at taken
    split at taken
    · cases taken
    · cases taken
      have parts : store.waiting.Perm (store.pending ++ (store.channel ++ store.reading.toList ++ store.sending)) :=
        .of_eq (by simp [waiting, unflushed])
      refine ⟨(Numbering.insert apart parts inserted).reorder (.of_eq (by simp [waiting, unflushed])), ?_⟩
      exact (Numbering.inserted apart parts inserted).trans (by simp [StoreEvent.commits, offered])
  | numberOther direction bytes tsUs =>
    simp only [TerminalStore.step] at taken
    split at taken
    · cases taken
    · cases taken
      have numbering : Numbering floor (store.seq + 1) (store.numbered ++ [store.number direction bytes tsUs]) store.rows
          (store.number direction bytes tsUs :: store.waiting) := Numbering.number apart rfl
      refine ⟨numbering.reorder ?_, by simp [offered]⟩
      simp only [waiting, ← List.append_assoc]
      exact List.perm_append_singleton _ _
  | insertOther position inserted =>
    simp only [TerminalStore.step] at taken
    obtain ⟨frame, found, rfl⟩ := Option.map_eq_some_iff.mp taken
    have parts : store.waiting.Perm ([frame] ++ (store.unflushed ++ store.sending.eraseIdx position)) :=
      ((TerminalSession.perm_eraseIdx found).append_left _).trans List.perm_middle
    refine ⟨Numbering.insert apart parts inserted, ?_⟩
    exact (Numbering.inserted apart parts inserted).trans (by simp [StoreEvent.commits, offered, found])
  | await target =>
    cases taken
    exact ⟨apart, by simp [offered, TerminalStore.await]⟩
  | poll position expired =>
    simp only [TerminalStore.step] at taken
    obtain ⟨wait, found, rfl⟩ := Option.map_eq_some_iff.mp taken
    exact ⟨apart, by simp [offered]⟩

theorem baseSeq_le {rows : List TermFrame} {bound : Nat} (below : ∀ row ∈ rows, row.seq < bound) :
    baseSeq rows ≤ bound := by
  unfold baseSeq
  split
  · next newest found =>
    obtain ⟨row, stored, rfl⟩ := List.mem_map.mp (List.max?_eq_some_iff.mp found).1
    exact below row stored
  · exact Nat.zero_le _

end TerminalStore

namespace TerminalEpochs
variable {epochs after : TerminalEpochs}

/-- The numbers of the live epoch are above the rows that it found. -/
structure Kept (epochs : TerminalEpochs) : Prop where
  apart : epochs.store.Apart (TerminalStore.baseSeq epochs.earlier)
  given : epochs.store.seq ≤ epochs.given

theorem Kept.start : Kept machine.start :=
  ⟨TerminalStore.Apart.start [], Nat.le_refl _⟩

theorem Kept.step (kept : Kept epochs) {event : EpochEvent} (taken : epochs.step event = some after) : Kept after := by
  cases event with
  | append event =>
    simp only [TerminalEpochs.step] at taken
    split at taken
    · obtain ⟨store, stepped, rfl⟩ := Option.map_eq_some_iff.mp taken
      refine ⟨(kept.apart.step stepped).1, ?_⟩
      have before := kept.given
      change store.seq ≤ epochs.given + (store.seq - epochs.store.seq)
      omega
    · cases taken
  | crash =>
    simp only [TerminalEpochs.step] at taken
    split at taken
    · cases taken
      exact ⟨kept.apart, kept.given⟩
    · cases taken
  | respawn =>
    simp only [TerminalEpochs.step] at taken
    split at taken
    · cases taken
    · cases taken
      refine ⟨TerminalStore.Apart.start epochs.store.rows, ?_⟩
      exact Nat.le_trans (TerminalStore.baseSeq_le kept.apart.stored) kept.given
  | prune =>
    cases taken
    refine ⟨⟨kept.apart.begun, kept.apart.ours, ?_, kept.apart.given, kept.apart.distinct, ?_⟩, kept.given⟩
    · exact fun row stored => nomatch stored
    · exact fun frame _ row stored => nomatch stored

/-- In every state of every run, the numbers of the epoch are above every row that it
found, the next number is above every row, and no event of the epoch that a transaction
inserts is ignored. No number reaches the count of all that were given out. -/
theorem epochs_apart (reached : Machine.Reachable machine Machine.free epochs) :
    epochs.Apart ∧ epochs.store.seq ≤ epochs.given := by
  have kept : Kept epochs := reached.invariant .start fun _ _ _ kept _ taken => kept.step taken
  refine ⟨⟨fun frame ours row found => ?_, kept.apart.stored, fun event after taken => ?_⟩, kept.given⟩
  · exact Nat.lt_of_lt_of_le (TerminalStore.seq_lt_baseSeq found) (kept.apart.ours frame ours)
  · simp only [TerminalEpochs.step] at taken
    split at taken
    · obtain ⟨store, stepped, rfl⟩ := Option.map_eq_some_iff.mp taken
      exact (kept.apart.step stepped).2
    · cases taken

/-- An input is stored, the output numbered before it is lost with the daemon, and the next
epoch begins behind the input. -/
private def lostTail : List EpochEvent :=
  [.append (.ingestOutput [65] 0), .append (.numberOther .input [66] 1), .append (.insertOther 0 .ok), .crash, .respawn,
    .append (.banner [67] 2 .ok)]

theorem epochs_apart_lost_tail :
    let epochs := (machine.run Machine.free machine.start lostTail).get (by decide +kernel)
    epochs.store.rows.map (·.seq) = [1, 2] ∧ epochs.Apart := by
  have reached : Machine.Reachable machine Machine.free
      ((machine.run Machine.free machine.start lostTail).get (by decide +kernel)) :=
    Machine.Reachable.start.run (Option.some_get _).symm
  exact ⟨by decide +kernel, (epochs_apart reached).1⟩

end TerminalEpochs
end Wisphive
