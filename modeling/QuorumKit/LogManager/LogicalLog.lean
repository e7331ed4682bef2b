/-
The log that a log manager stands for.

The callers of the log manager see one log.  It is spread over the storage, the
tasks that the disk thread still has to perform and the entries in memory.
`Tracks` relates the three to that log: the storage becomes the log once the
pending tasks are done, and what is not in memory is already where it belongs.
-/

import Mathlib.Tactic.Set
import QuorumKit.Library.PendingTasks
import QuorumKit.LogManager.LogManager

namespace QuorumKit

variable {P D C : Type}

def LogStorage.Fits (storage : LogStorage P D) (entries : List (LogEntry P D)) : Prop :=
  ∀ position entry, entries[position]? = some entry →
    entry.id.index = storage.stop + position ∧ 0 < entry.id.term

namespace DiskTask

def apply (task : DiskTask P D C) (storage : LogStorage P D) : LogStorage P D :=
  match task with
  | .append done => storage.append done.entries
  | .lastLogId _ => storage
  | .truncatePrefix firstIndexKept => storage.truncatePrefix firstIndexKept
  | .truncateSuffix lastIndexKept _ => storage.truncateSuffix lastIndexKept
  | .reset nextLogIndex => LogStorage.reset nextLogIndex

def Enabled (task : DiskTask P D C) (storage : LogStorage P D) : Prop :=
  match task with
  | .append done => storage.Fits done.entries
  | .lastLogId _ => True
  | .truncatePrefix firstIndexKept => storage.first ≤ firstIndexKept
  | .truncateSuffix lastIndexKept _ =>
      storage.first ≤ lastIndexKept + 1 ∧ lastIndexKept + 1 ≤ storage.stop
  | .reset nextLogIndex => 0 < nextLogIndex

def Touches (task : DiskTask P D C) (index : Nat) : Prop :=
  match task with
  | .append done => ∃ entry ∈ done.entries, entry.id.index = index
  | .lastLogId _ => False
  | .truncatePrefix firstIndexKept => index < firstIndexKept
  | .truncateSuffix lastIndexKept _ => lastIndexKept < index
  | .reset _ => True

theorem apply_untouched {task : DiskTask P D C} {storage : LogStorage P D} {index : Nat}
    (enabled : task.Enabled storage) (untouched : ¬ task.Touches index) :
    (task.apply storage).getEntry index = storage.getEntry index := by
  unfold LogStorage.getEntry
  cases task with
  | append done =>
      rw [apply, IndexedLog.get?_append]
      split_ifs with inside
      · rfl
      · rw [(storage.get?_eq_none_iff index).mpr (Or.inr (by omega))]
        cases found : done.entries[index - storage.stop]? with
        | none => rfl
        | some entry =>
            have placed := (enabled _ _ found).1
            exact absurd ⟨entry, List.mem_of_getElem? found, by omega⟩ untouched
  | lastLogId ticket => rfl
  | truncatePrefix firstIndexKept =>
      rw [apply, LogStorage.truncatePrefix, IndexedLog.get?_dropBelow enabled]
      exact if_neg untouched
  | truncateSuffix lastIndexKept lastTermKept =>
      have kept : index < lastIndexKept + 1 := by
        have notCut : ¬ lastIndexKept < index := untouched
        omega
      rw [apply, LogStorage.truncateSuffix, IndexedLog.get?_keepBelow, if_pos kept]
  | reset nextLogIndex => exact absurd trivial untouched

end DiskTask

theorem LogStorage.WellFormed.append {storage : LogStorage P D} (wellFormed : storage.WellFormed)
    {entries : List (LogEntry P D)} (fits : storage.Fits entries) :
    LogStorage.WellFormed (storage.append entries) := by
  constructor
  · exact wellFormed.positive
  · intro index entry found
    rw [LogStorage.getEntry, IndexedLog.get?_append] at found
    split_ifs at found with inside
    · exact wellFormed.indexed index entry found
    · obtain ⟨placed, positive⟩ := fits _ _ found
      exact ⟨by omega, positive⟩

theorem LogStorage.WellFormed.keepBelow {storage : LogStorage P D}
    (wellFormed : storage.WellFormed) (cut : Nat) :
    LogStorage.WellFormed (storage.keepBelow cut) := by
  constructor
  · exact wellFormed.positive
  · intro index entry found
    rw [LogStorage.getEntry, IndexedLog.get?_keepBelow] at found
    split_ifs at found with kept
    exact wellFormed.indexed index entry found

theorem LogStorage.WellFormed.dropBelow {storage : LogStorage P D}
    (wellFormed : storage.WellFormed) {cut : Nat} (lower : storage.first ≤ cut) :
    LogStorage.WellFormed (storage.dropBelow cut) := by
  constructor
  · exact lt_of_lt_of_le wellFormed.positive lower
  · intro index entry found
    rw [LogStorage.getEntry, IndexedLog.get?_dropBelow lower] at found
    split_ifs at found with dropped
    exact wellFormed.indexed index entry found

theorem LogStorage.WellFormed.reset {nextLogIndex : Nat} (positive : 0 < nextLogIndex) :
    LogStorage.WellFormed (LogStorage.reset nextLogIndex : LogStorage P D) := by
  constructor
  · exact positive
  · intro index entry found
    obtain ⟨lower, upper⟩ := IndexedLog.get?_bounds found
    simp only [LogStorage.reset, IndexedLog.stop, List.length_nil] at lower upper
    omega

/-- The tasks that the disk thread holds, in the order in which it performs them. -/
def DiskThread.tasks (thread : DiskThread P D C) : List (DiskTask P D C) :=
  thread.batch.map DiskTask.append ++ thread.task.toList

namespace LogManager

def pending (manager : LogManager P D C) : List (DiskTask P D C) :=
  (manager.diskThread.elim [] DiskThread.tasks) ++ manager.diskQueue

/-- A manager without errors holds `log`.  Indexes from `low` on are read right;
below `low` a pending task may still change the storage. -/
structure Holds (low : Nat) (manager : LogManager P D C) (log : LogStorage P D) : Prop where
  noError : manager.hasError = false
  first : manager.firstLogIndex = log.first
  last : manager.lastLogIndex + 1 = log.stop
  wellFormed : log.WellFormed
  memory : manager.logsInMemory <:+ log.entries
  drains : Pending.Drains DiskTask.apply DiskTask.Enabled manager.storage manager.pending log
  settled : ∀ index, low ≤ index → log.first ≤ index →
    index + manager.logsInMemory.length < log.stop →
    ∀ task ∈ manager.pending, ¬ task.Touches index

def Opened (manager : LogManager P D C) : Prop :=
  manager.firstLogIndex ≤ manager.lastSnapshotId.index + 1

/-- The manager stands for `log`: it holds it, and its snapshots belong to it. -/
structure Tracks (low : Nat) (manager : LogManager P D C) (log : LogStorage P D) : Prop
    extends Holds low manager log where
  snapshotInside : manager.lastSnapshotId.index < log.stop
  snapshotTerm : ∀ entry, low ≤ manager.lastSnapshotId.index →
    log.getEntry manager.lastSnapshotId.index = some entry →
    entry.id.term = manager.lastSnapshotId.term
  virtualBelow : manager.virtualFirstLogId.index < log.first
  applied : manager.lastSnapshotId.index ≤ manager.appliedId.index

variable {low : Nat} {manager : LogManager P D C} {log : LogStorage P D}

namespace Holds

theorem mono {higher : Nat} (above : low ≤ higher) (holds : Holds low manager log) :
    Holds higher manager log :=
  { holds with settled := fun index lower => holds.settled index (above.trans lower) }

theorem storage_getEntry (holds : Holds low manager log) {index : Nat} (lower : low ≤ index)
    (inside : log.first ≤ index) (outside : index + manager.logsInMemory.length < log.stop) :
    manager.storage.getEntry index = log.getEntry index := by
  have untouched := holds.settled index lower inside outside
  exact Pending.Drains.invariant
    (fun storage => manager.storage.getEntry index = storage.getEntry index)
    (fun task member storage same enabled =>
      same.trans (DiskTask.apply_untouched enabled (untouched task member)).symm)
    rfl holds.drains

theorem memory_getEntry (holds : Holds low manager log) {position : Nat} {entry : LogEntry P D}
    (found : manager.logsInMemory[position]? = some entry) :
    entry.id.index + manager.logsInMemory.length = log.stop + position ∧
      log.getEntry entry.id.index = some entry := by
  obtain ⟨before, entries⟩ := holds.memory
  have total : log.entries.length = before.length + manager.logsInMemory.length := by
    rw [← entries, List.length_append]
  have inLog : log.getEntry (log.first + (before.length + position)) = some entry := by
    rw [LogStorage.getEntry, IndexedLog.get?, if_neg (by omega), Nat.add_sub_cancel_left,
      ← entries, List.getElem?_append_right (by omega), Nat.add_sub_cancel_left, found]
  have placed := (holds.wellFormed.indexed _ _ inLog).1
  constructor
  · rw [IndexedLog.stop, total, placed]
    omega
  · rw [placed]
    exact inLog

theorem memory_indexed (holds : Holds low manager log) {position : Nat} {entry : LogEntry P D}
    (found : manager.logsInMemory[position]? = some entry) :
    entry.id.index + manager.logsInMemory.length = log.stop + position :=
  (holds.memory_getEntry found).1

theorem getEntryFromMemory_eq (holds : Holds low manager log) (index : Nat) :
    manager.getEntryFromMemory index =
      if log.stop ≤ index + manager.logsInMemory.length then log.getEntry index else none := by
  obtain ⟨before, entries⟩ := holds.memory
  have total : log.entries.length = before.length + manager.logsInMemory.length := by
    rw [← entries, List.length_append]
  have stop : log.stop = log.first + before.length + manager.logsInMemory.length := by
    rw [IndexedLog.stop, total]
    omega
  unfold getEntryFromMemory
  cases isFront : manager.logsInMemory.head? with
  | none =>
      rw [List.head?_eq_none_iff] at isFront
      rw [isFront, List.length_nil]
      split_ifs with above
      · exact ((log.get?_eq_none_iff index).mpr (Or.inr above)).symm
      · rfl
  | some front =>
      rw [List.head?_eq_getElem?] at isFront
      cases isBack : manager.logsInMemory.getLast? with
      | none =>
          rw [List.getLast?_eq_none_iff] at isBack
          rw [isBack] at isFront
          contradiction
      | some back =>
          rw [List.getLast?_eq_getElem?] at isBack
          have frontIndex := holds.memory_indexed isFront
          have backIndex := holds.memory_indexed isBack
          have nonempty := (List.getElem?_eq_some_iff.mp isFront).1
          simp only
          by_cases inside : front.id.index ≤ index ∧ index ≤ back.id.index
          · rw [if_pos inside, if_pos (by omega), LogStorage.getEntry, IndexedLog.get?,
              if_neg (by omega), ← entries, List.getElem?_append_right (by omega)]
            congr 1
            omega
          · rw [if_neg inside]
            split_ifs with above
            · exact ((log.get?_eq_none_iff index).mpr (Or.inr (by omega))).symm
            · rfl

theorem outside_iff (holds : Holds low manager log) (index : Nat) :
    manager.lastLogIndex < index ∨ index < manager.firstLogIndex ↔
      index < log.first ∨ log.stop ≤ index := by
  have first := holds.first
  have last := holds.last
  omega

theorem lookup_eq (holds : Holds low manager log) {index : Nat} (lower : low ≤ index)
    (above : log.first ≤ index) (inside : index < log.stop) :
    (manager.getEntryFromMemory index).or (manager.storage.getEntry index) =
      log.getEntry index := by
  rw [holds.getEntryFromMemory_eq]
  by_cases inMemory : log.stop ≤ index + manager.logsInMemory.length
  · obtain ⟨entry, found⟩ := IndexedLog.exists_get? above inside
    have found : log.getEntry index = some entry := found
    rw [if_pos inMemory, found, Option.some_or]
  · rw [if_neg inMemory, Option.none_or, holds.storage_getEntry lower above (by omega)]

theorem getEntry_eq (holds : Holds low manager log) {index : Nat} (lower : low ≤ index) :
    manager.getEntry index = log.getEntry index := by
  unfold LogManager.getEntry
  by_cases outside : manager.lastLogIndex < index ∨ index < manager.firstLogIndex
  · rw [if_pos outside]
    exact ((log.get?_eq_none_iff index).mpr ((holds.outside_iff index).mp outside)).symm
  · have inside := mt (holds.outside_iff index).mpr outside
    have read := holds.lookup_eq lower (by omega) (by omega)
    rw [if_neg outside, ← read]
    cases manager.getEntryFromMemory index <;> rfl

end Holds

namespace Tracks

theorem mono {higher : Nat} (above : low ≤ higher) (tracks : Tracks low manager log) :
    Tracks higher manager log :=
  { tracks with
    toHolds := tracks.toHolds.mono above
    snapshotTerm := fun entry lower => tracks.snapshotTerm entry (above.trans lower) }

theorem getTerm_eq (tracks : Tracks low manager log) {index : Nat} (lower : low ≤ index)
    {entry : LogEntry P D} (found : log.getEntry index = some entry) :
    manager.getTerm index = entry.id.term := by
  obtain ⟨above, below⟩ := IndexedLog.get?_bounds found
  have positive := tracks.wellFormed.positive
  have virtualBelow := tracks.virtualBelow
  unfold LogManager.getTerm
  rw [if_neg (by omega), if_neg (by omega)]
  by_cases snapshot : index = manager.lastSnapshotId.index
  · rw [if_pos snapshot]
    subst snapshot
    exact (tracks.snapshotTerm entry lower found).symm
  · have read := tracks.lookup_eq lower above below
    rw [found] at read
    rw [if_neg snapshot, if_neg (mt (tracks.outside_iff index).mp (by omega))]
    cases inMemory : manager.getEntryFromMemory index with
    | some other =>
        rw [inMemory, Option.some_or] at read
        rw [Option.some.inj read]
    | none =>
        rw [inMemory, Option.none_or] at read
        exact LogStorage.getTerm_of_getEntry read

theorem lt_stop_of_getTerm (tracks : Tracks low manager log) {index : Nat}
    (hasTerm : manager.getTerm index ≠ 0) : index < log.stop := by
  have virtualBelow := tracks.virtualBelow
  have firstBelow := log.first_le_stop
  have snapshotInside := tracks.snapshotInside
  by_contra above
  have outside := (tracks.outside_iff index).mpr (Or.inr (by omega))
  unfold LogManager.getTerm at hasTerm
  rw [if_neg (show ¬ index = manager.virtualFirstLogId.index by omega),
    if_neg (show ¬ index = manager.lastSnapshotId.index by omega), if_pos outside] at hasTerm
  simp at hasTerm

end Tracks

end LogManager

end QuorumKit
