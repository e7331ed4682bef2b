/-
What the calls of a log manager do to its log.

Each call that changes the log cuts the memory and queues a task that changes the
storage in the same way.  The lemmas name the log after the call; the disk thread
leaves it alone.
-/

import Mathlib.Data.List.DropRight
import QuorumKit.LogManager.LogicalLog

namespace QuorumKit

variable {P D C : Type}

theorem DiskTask.apply_wellFormed {task : DiskTask P D C} {storage : LogStorage P D}
    (enabled : task.Enabled storage) (wellFormed : storage.WellFormed) :
    LogStorage.WellFormed (task.apply storage) := by
  cases task with
  | append done => exact wellFormed.append enabled
  | lastLogId ticket => exact wellFormed
  | truncatePrefix firstIndexKept => exact wellFormed.dropBelow enabled
  | truncateSuffix lastIndexKept lastTermKept => exact wellFormed.keepBelow _
  | reset nextLogIndex => exact LogStorage.WellFormed.reset enabled

theorem dropWhile_below (entries : List (LogEntry P D)) (cut : Nat) : ∀ start : Nat,
    (∀ position entry, entries[position]? = some entry → entry.id.index = start + position) →
    entries.dropWhile (fun entry => entry.id.index < cut) = entries.drop (cut - start) := by
  induction entries with
  | nil => simp
  | cons head rest ih =>
      intro start indexed
      have headIndex := indexed 0 head rfl
      have restIndexed : ∀ position entry, rest[position]? = some entry →
          entry.id.index = start + 1 + position := by
        intro position entry found
        have placed := indexed (position + 1) entry found
        omega
      rw [List.dropWhile_cons]
      by_cases below : head.id.index < cut
      · rw [if_pos (decide_eq_true below), ih _ restIndexed,
          show cut - start = cut - (start + 1) + 1 by omega, List.drop_succ_cons]
      · rw [if_neg (by simpa using below), show cut - start = 0 by omega, List.drop_zero]

theorem rdropWhile_above (entries : List (LogEntry P D)) (cut start : Nat)
    (indexed : ∀ position entry, entries[position]? = some entry →
      entry.id.index = start + position) :
    entries.rdropWhile (fun entry => cut < entry.id.index) = entries.take (cut + 1 - start) := by
  induction entries using List.reverseRecOn with
  | nil => simp
  | append_singleton rest last ih =>
      have lastIndex := indexed rest.length last (by simp)
      have restIndexed : ∀ position entry, rest[position]? = some entry →
          entry.id.index = start + position := by
        intro position entry found
        apply indexed
        rw [List.getElem?_append_left (List.getElem?_eq_some_iff.mp found).1, found]
      by_cases above : cut < last.id.index
      · rw [List.rdropWhile_concat_pos _ _ _ (by simpa using above), ih restIndexed,
          List.take_append_of_le_length (by omega)]
      · rw [List.rdropWhile_concat_neg _ _ _ (by simpa using above),
          List.take_of_length_le (by simp; omega)]

namespace LogManager

variable {low : Nat} {manager manager' : LogManager P D C} {log : LogStorage P D}

/-- The fields that `Holds` is about. -/
def core (manager : LogManager P D C) :
    Bool × Nat × Nat × List (LogEntry P D) × LogStorage P D × List (DiskTask P D C) :=
  (manager.hasError, manager.firstLogIndex, manager.lastLogIndex, manager.logsInMemory,
    manager.storage, manager.pending)

/-- The other fields of `Tracks`. -/
def snapshotIds (manager : LogManager P D C) : LogId × LogId :=
  (manager.lastSnapshotId, manager.virtualFirstLogId)

theorem Holds.frame (holds : Holds low manager log) (same : manager'.core = manager.core) :
    Holds low manager' log := by
  simp only [core, Prod.mk.injEq] at same
  obtain ⟨hasError, first, last, memory, storage, pending⟩ := same
  constructor
  · rw [hasError]; exact holds.noError
  · rw [first]; exact holds.first
  · rw [last]; exact holds.last
  · exact holds.wellFormed
  · rw [memory]; exact holds.memory
  · rw [storage, pending]; exact holds.drains
  · rw [memory, pending]; exact holds.settled

theorem Tracks.frame (tracks : Tracks low manager log) (same : manager'.core = manager.core)
    (ids : manager'.snapshotIds = manager.snapshotIds)
    (applied : manager.appliedId.index ≤ manager'.appliedId.index) :
    Tracks low manager' log := by
  simp only [snapshotIds, Prod.mk.injEq] at ids
  obtain ⟨snapshot, virtual⟩ := ids
  constructor
  · exact tracks.toHolds.frame same
  · rw [snapshot]; exact tracks.snapshotInside
  · rw [snapshot]; exact tracks.snapshotTerm
  · rw [virtual]; exact tracks.virtualBelow
  · rw [snapshot]; exact tracks.applied.trans applied

theorem pending_execute (manager : LogManager P D C) (task : DiskTask P D C) :
    (manager.execute task).pending = manager.pending ++ [task] := by
  simp [pending, execute]

/-- A change of the log: the memory and the bounds change at once, the storage
when the task is performed. -/
theorem Holds.push (task : DiskTask P D C) (holds : Holds low manager log)
    (enabled : task.Enabled log) (noError : manager'.hasError = false)
    (storage : manager'.storage = manager.storage)
    (pending : manager'.pending = manager.pending ++ [task])
    (first : manager'.firstLogIndex = (task.apply log).first)
    (last : manager'.lastLogIndex + 1 = (task.apply log).stop)
    (memory : manager'.logsInMemory <:+ (task.apply log).entries)
    (settled : ∀ index, (task.apply log).first ≤ index →
      index + manager'.logsInMemory.length < (task.apply log).stop →
      ¬ task.Touches index ∧ log.first ≤ index ∧
        index + manager.logsInMemory.length < log.stop) :
    Holds low manager' (task.apply log) := by
  constructor
  · exact noError
  · exact first
  · exact last
  · exact DiskTask.apply_wellFormed enabled holds.wellFormed
  · exact memory
  · rw [storage, pending]
    exact holds.drains.snoc enabled
  · intro index lower inside outside other member
    obtain ⟨untouched, formerInside, formerOutside⟩ := settled index inside outside
    rw [pending, List.mem_append, List.mem_singleton] at member
    rcases member with former | new
    · exact holds.settled index lower formerInside formerOutside other former
    · exact new ▸ untouched

theorem Holds.reset {nextLogIndex : Nat} (holds : Holds low manager log)
    (positive : 0 < nextLogIndex) :
    Holds low (manager.reset nextLogIndex) (LogStorage.reset nextLogIndex) := by
  refine holds.push (.reset nextLogIndex) positive holds.noError rfl
    (pending_execute _ _) rfl ?_ (List.suffix_refl []) ?_
  · simp [LogManager.reset, execute, DiskTask.apply, LogStorage.reset, IndexedLog.stop]
    omega
  · intro index inside outside
    simp [LogManager.reset, execute, DiskTask.apply, LogStorage.reset,
      IndexedLog.stop] at inside outside
    omega

theorem truncatePrefix_some {firstIndexKept : Nat}
    (stepped : manager.truncatePrefix firstIndexKept = some manager') :
    manager.firstLogIndex ≤ firstIndexKept ∧ manager' =
      ({ manager with
        logsInMemory :=
          manager.logsInMemory.dropWhile (fun entry => entry.id.index < firstIndexKept)
        firstLogIndex := firstIndexKept
        lastLogIndex :=
          if manager.lastLogIndex < firstIndexKept then firstIndexKept - 1
          else manager.lastLogIndex
        configManager := manager.configManager.truncatePrefix firstIndexKept } :
        LogManager P D C).execute (.truncatePrefix firstIndexKept) := by
  unfold LogManager.truncatePrefix at stepped
  by_cases goesBack : firstIndexKept < manager.firstLogIndex
  · rw [if_pos goesBack] at stepped
    contradiction
  · rw [if_neg goesBack] at stepped
    exact ⟨by omega, (Option.some.inj stepped).symm⟩

theorem Holds.truncatePrefix {firstIndexKept : Nat} (holds : Holds low manager log)
    (stepped : manager.truncatePrefix firstIndexKept = some manager') :
    Holds low manager' (log.dropBelow firstIndexKept) := by
  obtain ⟨lower, rfl⟩ := truncatePrefix_some stepped
  rw [holds.first] at lower
  obtain ⟨before, entries⟩ := holds.memory
  have total : log.entries.length = before.length + manager.logsInMemory.length := by
    rw [← entries, List.length_append]
  have stop : log.stop = log.first + before.length + manager.logsInMemory.length := by
    rw [IndexedLog.stop, total]
    omega
  have cut := dropWhile_below manager.logsInMemory firstIndexKept
    (log.first + before.length) (by
      intro position entry found
      have placed := holds.memory_indexed found
      omega)
  have last := holds.last
  refine holds.push (.truncatePrefix firstIndexKept) lower holds.noError rfl
    (pending_execute _ _) rfl ?_ ?_ ?_
  · simp only [execute, DiskTask.apply, LogStorage.truncatePrefix]
    have positive := holds.wellFormed.positive
    rw [IndexedLog.dropBelow_stop log lower]
    split_ifs <;> omega
  · simp only [execute, DiskTask.apply, LogStorage.truncatePrefix, IndexedLog.dropBelow]
    rw [cut, ← entries, List.drop_append]
    refine ⟨before.drop (firstIndexKept - log.first), ?_⟩
    congr 2
    omega
  · intro index inside outside
    simp only [execute, DiskTask.apply, LogStorage.truncatePrefix, IndexedLog.dropBelow_first,
      DiskTask.Touches] at inside outside ⊢
    rw [cut, List.length_drop, IndexedLog.dropBelow_stop log lower] at outside
    omega

theorem setSnapshot_cases [DecidableEq P] {snapshot : SnapshotMeta P}
    (newer : manager.lastSnapshotId.index < snapshot.lastIncludedIndex)
    (stepped : manager.setSnapshot snapshot = some manager') :
    (manager.getTerm snapshot.lastIncludedIndex = 0 ∧
      { manager.noteSnapshot snapshot with virtualFirstLogId := snapshot.id }.truncatePrefix
        (snapshot.lastIncludedIndex + 1) = some manager') ∨
    (manager.getTerm snapshot.lastIncludedIndex ≠ 0 ∧
      manager.getTerm snapshot.lastIncludedIndex = snapshot.lastIncludedTerm ∧
      (0 < manager.lastSnapshotId.index ∧
          { manager.noteSnapshot snapshot with
            virtualFirstLogId := manager.lastSnapshotId }.truncatePrefix
              (manager.lastSnapshotId.index + 1) = some manager' ∨
        manager' = manager.noteSnapshot snapshot)) ∨
    (manager.getTerm snapshot.lastIncludedIndex ≠ 0 ∧
      manager.getTerm snapshot.lastIncludedIndex ≠ snapshot.lastIncludedTerm ∧
      manager' = { manager.noteSnapshot snapshot with virtualFirstLogId := snapshot.id }.reset
        (snapshot.lastIncludedIndex + 1)) := by
  unfold LogManager.setSnapshot at stepped
  rw [if_neg (not_le.mpr newer)] at stepped
  simp only at stepped
  split_ifs at stepped with missing same former
  · exact Or.inl ⟨missing, stepped⟩
  · exact Or.inr (Or.inl ⟨missing, same, Or.inl ⟨former, stepped⟩⟩)
  · exact Or.inr (Or.inl ⟨missing, same, Or.inr (Option.some.inj stepped).symm⟩)
  · exact Or.inr (Or.inr ⟨missing, same, (Option.some.inj stepped).symm⟩)

theorem setSnapshot_stale [DecidableEq P] {snapshot : SnapshotMeta P}
    (old : ¬ manager.lastSnapshotId.index < snapshot.lastIncludedIndex)
    (stepped : manager.setSnapshot snapshot = some manager') : manager' = manager := by
  unfold LogManager.setSnapshot at stepped
  rw [if_pos (not_lt.mp old)] at stepped
  exact (Option.some.inj stepped).symm

theorem unsafeTruncateSuffix_some {lastIndexKept : Nat}
    (stepped : manager.unsafeTruncateSuffix lastIndexKept = some manager') :
    manager.appliedId.index ≤ lastIndexKept ∧
      ∃ lastTermKept, manager' =
        ({ manager with
          logsInMemory :=
            manager.logsInMemory.rdropWhile (fun entry => lastIndexKept < entry.id.index)
          lastLogIndex := lastIndexKept
          configManager := manager.configManager.truncateSuffix lastIndexKept } :
          LogManager P D C).execute (.truncateSuffix lastIndexKept lastTermKept) := by
  unfold LogManager.unsafeTruncateSuffix at stepped
  by_cases applied : lastIndexKept < manager.appliedId.index
  · rw [if_pos applied] at stepped
    contradiction
  · rw [if_neg applied] at stepped
    simp only at stepped
    split at stepped
    · contradiction
    · exact ⟨by omega, _, (Option.some.inj stepped).symm⟩

/-- What is left of a batch, and the manager that it goes to.  The entries of a batch that the
log has are dropped up to the first one of another term. -/
inductive Resolves (manager : LogManager P D C) (entries : List (LogEntry P D))
    (front back : LogEntry P D) : List (LogEntry P D) → LogManager P D C → Prop
  | leader (isLeader : front.id.index = 0) :
      Resolves manager entries front back (assignIndexes manager.lastLogIndex entries)
        { manager with lastLogIndex := manager.lastLogIndex + entries.length }
  | next (follower : front.id.index ≠ 0) (isNext : front.id.index = manager.lastLogIndex + 1)
      (new : manager.appliedId.index < back.id.index) :
      Resolves manager entries front back entries { manager with lastLogIndex := back.id.index }
  | known (follower : front.id.index ≠ 0) (inside : front.id.index ≤ manager.lastLogIndex)
      (new : manager.appliedId.index < back.id.index)
      (same : ∀ entry ∈ entries, manager.getTerm entry.id.index = entry.id.term) :
      Resolves manager entries front back [] manager
  | conflict {dropped rest : List (LogEntry P D)} {conflicting : LogEntry P D}
      {base : LogManager P D C} (follower : front.id.index ≠ 0)
      (inside : front.id.index ≤ manager.lastLogIndex)
      (new : manager.appliedId.index < back.id.index)
      (split : dropped ++ conflicting :: rest = entries)
      (same : ∀ entry ∈ dropped, manager.getTerm entry.id.index = entry.id.term)
      (differs : manager.getTerm conflicting.id.index ≠ conflicting.id.term)
      (overlaps : conflicting.id.index ≤ manager.lastLogIndex)
      (truncated : manager.unsafeTruncateSuffix (conflicting.id.index - 1) = some base) :
      Resolves manager entries front back (conflicting :: rest)
        { base with lastLogIndex := back.id.index }
  | extension {dropped rest : List (LogEntry P D)} {conflicting : LogEntry P D}
      (follower : front.id.index ≠ 0) (inside : front.id.index ≤ manager.lastLogIndex)
      (new : manager.appliedId.index < back.id.index)
      (split : dropped ++ conflicting :: rest = entries)
      (same : ∀ entry ∈ dropped, manager.getTerm entry.id.index = entry.id.term)
      (differs : manager.getTerm conflicting.id.index ≠ conflicting.id.term)
      (beyond : manager.lastLogIndex < conflicting.id.index) :
      Resolves manager entries front back (conflicting :: rest)
        { manager with lastLogIndex := back.id.index }

/-- The cases in which `check_and_resolve_conflict` lets a batch through. -/
theorem resolves_of_accepted {entries remaining : List (LogEntry P D)} {front back : LogEntry P D}
    {resolved : LogManager P D C}
    (accepted : manager.checkAndResolveConflict entries front back =
      some (.accepted remaining resolved)) :
    Resolves manager entries front back remaining resolved := by
  unfold LogManager.checkAndResolveConflict at accepted
  split_ifs at accepted with leader gap applied next
  · injection accepted with accepted
    injection accepted with isRemaining isResolved
    subst isRemaining isResolved
    exact .leader leader
  · simp at accepted
  · simp at accepted
  · injection accepted with accepted
    injection accepted with isRemaining isResolved
    subst isRemaining isResolved
    exact .next leader next (not_le.mp applied)
  · obtain ⟨known, isKnown⟩ : ∃ known : LogEntry P D → Bool,
        known = fun entry => decide (manager.getTerm entry.id.index = entry.id.term) := ⟨_, rfl⟩
    have inside : front.id.index ≤ manager.lastLogIndex := by omega
    have split : entries.takeWhile known ++ entries.dropWhile known = entries :=
      List.takeWhile_append_dropWhile
    have same : ∀ entry ∈ entries.takeWhile known,
        manager.getTerm entry.id.index = entry.id.term := by
      intro entry member
      have holds := List.mem_takeWhile_imp member
      rw [isKnown] at holds
      exact of_decide_eq_true holds
    rw [← isKnown] at accepted
    cases isRest : entries.dropWhile known with
    | nil =>
        rw [isRest] at accepted split
        injection accepted with accepted
        injection accepted with isRemaining isResolved
        subst isRemaining isResolved
        rw [List.append_nil] at split
        rw [split] at same
        exact .known leader inside (not_le.mp applied) same
    | cons conflicting rest =>
        have differs := List.head?_dropWhile_not known entries
        rw [isRest, isKnown] at differs
        have differs := of_decide_eq_false differs
        rw [isRest] at accepted split
        simp only at accepted
        split_ifs at accepted with overlaps
        · obtain ⟨base, truncated, isAccepted⟩ := Option.map_eq_some_iff.mp accepted
          injection isAccepted with isRemaining isResolved
          subst isRemaining isResolved
          exact .conflict leader inside (not_le.mp applied) split same differs overlaps truncated
        · injection accepted with accepted
          injection accepted with isRemaining isResolved
          subst isRemaining isResolved
          exact .extension leader inside (not_le.mp applied) split same differs
            (not_le.mp overlaps)

theorem Holds.unsafeTruncateSuffix {lastIndexKept : Nat} (holds : Holds low manager log)
    (lower : log.first ≤ lastIndexKept + 1) (upper : lastIndexKept + 1 ≤ log.stop)
    (stepped : manager.unsafeTruncateSuffix lastIndexKept = some manager') :
    Holds low manager' (log.keepBelow (lastIndexKept + 1)) := by
  obtain ⟨before, entries⟩ := holds.memory
  have total : log.entries.length = before.length + manager.logsInMemory.length := by
    rw [← entries, List.length_append]
  have stop : log.stop = log.first + before.length + manager.logsInMemory.length := by
    rw [IndexedLog.stop, total]
    omega
  have cut := rdropWhile_above manager.logsInMemory lastIndexKept
    (log.first + before.length) (by
      intro position entry found
      have placed := holds.memory_indexed found
      omega)
  obtain ⟨_, lastTermKept, rfl⟩ := unsafeTruncateSuffix_some stepped
  refine holds.push (.truncateSuffix lastIndexKept lastTermKept) ⟨lower, upper⟩ holds.noError rfl
    (pending_execute _ _) holds.first ?_ ?_ ?_
  · simp only [execute, DiskTask.apply, LogStorage.truncateSuffix]
    rw [IndexedLog.keepBelow_stop log lower upper]
  · simp only [execute, DiskTask.apply, LogStorage.truncateSuffix, IndexedLog.keepBelow]
    rw [cut, ← entries, List.take_append]
    refine ⟨before.take (lastIndexKept + 1 - log.first), ?_⟩
    congr 2
    omega
  · intro index inside outside
    simp only [execute, DiskTask.apply, LogStorage.truncateSuffix, IndexedLog.keepBelow_first,
      DiskTask.Touches] at inside outside ⊢
    rw [cut, List.length_take, IndexedLog.keepBelow_stop log lower upper] at outside
    omega

theorem Holds.enqueue [DecidableEq P] {entries : List (LogEntry P D)}
    (holds : Holds low manager log) (context : C) (submitted : List (LogEntry P D))
    (fits : log.Fits entries) {lastLogIndex : Nat}
    (last : lastLogIndex + 1 = log.stop + entries.length) :
    Holds low
      (({ manager with lastLogIndex := lastLogIndex } : LogManager P D C).enqueue context
        submitted entries) (log.append entries) := by
  refine holds.push (.append (.queued context submitted entries)) fits holds.noError rfl
    (pending_execute _ _) holds.first ?_ ?_ ?_
  · simpa [LogManager.enqueue, execute, DiskTask.apply, StableClosure.queued] using last
  · obtain ⟨before, former⟩ := holds.memory
    exact ⟨before, by
      simp [LogManager.enqueue, execute, DiskTask.apply, IndexedLog.append,
        StableClosure.queued, ← former]⟩
  · intro index inside outside
    simp only [LogManager.enqueue, execute, DiskTask.apply, IndexedLog.append_first,
      IndexedLog.append_stop, List.length_append, DiskTask.Touches, StableClosure.queued]
      at inside outside ⊢
    refine ⟨?_, inside, by omega⟩
    rintro ⟨entry, member, same⟩
    obtain ⟨position, found⟩ := List.mem_iff_getElem?.mp member
    have placed := (fits position entry found).1
    omega

end LogManager

end QuorumKit
