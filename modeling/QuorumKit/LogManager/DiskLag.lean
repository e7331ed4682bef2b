/-
Reads do not depend on how far the disk thread has got.

In the runs in which `clear_memory_logs` drops no entry that a queued task may still
change, `get_entry` and `get_term` answer for every index of the log with the entry that
was appended there last.  A stale `_disk_id` leads out of these runs.
-/

import QuorumKit.LogManager.FollowerAppend

namespace QuorumKit

variable {P D C : Type}

def latestAt (entries : List (LogEntry P D)) (index : Nat) : Option (LogEntry P D) :=
  entries.reverse.find? (fun entry => entry.id.index = index)

theorem latestAt_append (former later : List (LogEntry P D)) (index : Nat) :
    latestAt (former ++ later) index = (latestAt later index).or (latestAt former index) := by
  unfold latestAt
  rw [List.reverse_append, List.find?_append]

theorem latestAt_none {entries : List (LogEntry P D)} {index : Nat}
    (absent : ∀ entry ∈ entries, entry.id.index ≠ index) : latestAt entries index = none := by
  unfold latestAt
  rw [List.find?_eq_none]
  intro entry member found
  exact absent entry (List.mem_reverse.mp member) (of_decide_eq_true found)

theorem latestAt_of_mem {start index : Nat} {entries : List (LogEntry P D)}
    (consecutive : LogManager.Consecutive start entries) {entry : LogEntry P D}
    (member : entry ∈ entries) (atIndex : entry.id.index = index) :
    latestAt entries index = some entry := by
  cases isFound : latestAt entries index with
  | none =>
      unfold latestAt at isFound
      have absent := List.find?_eq_none.mp isFound entry (List.mem_reverse.mpr member)
      exact absurd (decide_eq_true atIndex) absent
  | some last =>
      unfold latestAt at isFound
      have found := List.find?_some isFound
      have same := of_decide_eq_true found
      have foundMember := List.mem_reverse.mp (List.mem_of_find?_eq_some isFound)
      obtain ⟨position, isEntry⟩ := List.mem_iff_getElem?.mp member
      obtain ⟨other, isOther⟩ := List.mem_iff_getElem?.mp foundMember
      have placed := consecutive position entry isEntry
      have otherPlaced := consecutive other last isOther
      obtain rfl : position = other := by omega
      rw [isEntry] at isOther
      exact congrArg some (Option.some.inj isOther).symm

namespace LogManager

/-- Every read of the log finds the entry that was appended last. -/
def ReadsLatest (manager : LogManager P D C) : Prop :=
  ∀ index, manager.firstLogIndex ≤ index → index ≤ manager.lastLogIndex →
    ∃ entry, latestAt manager.accepted index = some entry ∧
      manager.getEntry index = some entry ∧ manager.getTerm index = entry.id.term

/-- What a round of `clear_memory_logs` drops is not changed by a task in the queue. -/
def ClearsWritten (action : Action P D C) (manager : LogManager P D C) : Prop :=
  match action with
  | .clearMemoryLogs id =>
      ∀ entry ∈ manager.entriesToClear id, ∀ task ∈ manager.pending, ¬ task.Touches entry.id.index
  | _ => True

def Latest (accepted : List (LogEntry P D)) (log : LogStorage P D) : Prop :=
  ∀ index entry, log.getEntry index = some entry → latestAt accepted index = some entry

structure Reads (manager : LogManager P D C) : Prop extends Booked manager where
  sound : manager.hasError = false →
    Sound 0 manager manager.logicalLog ∧ Latest manager.accepted manager.logicalLog

variable {manager manager' : LogManager P D C} {log log' : LogStorage P D}
  {action : Action P D C}

theorem Latest.append {accepted submitted remaining : List (LogEntry P D)} {cut : Nat}
    {applied : LogId} (latest : Latest accepted log)
    (appends : Appends 0 applied log submitted remaining cut) :
    Latest (accepted ++ submitted) ((log.keepBelow cut).append remaining) := by
  obtain ⟨start, consecutive⟩ := appends.consecutive
  have stop := IndexedLog.keepBelow_stop log appends.lower appends.upper
  intro index entry found
  rw [latestAt_append]
  change ((log.keepBelow cut).append remaining).get? index = some entry at found
  rw [IndexedLog.get?_append, stop] at found
  split_ifs at found with before
  · rw [IndexedLog.get?_keepBelow, if_pos before] at found
    have former := latest index entry found
    by_cases again : ∃ other ∈ submitted, other.id.index = index
    · -- a duplicate is the entry that the log has
      obtain ⟨other, member, atIndex⟩ := again
      have inside := (IndexedLog.get?_bounds found).1
      have same : log.getEntry other.id.index = some other := by
        rcases appends.present other member with new | below | dropped | ⟨_, same⟩
        · obtain ⟨position, isOther⟩ := List.mem_iff_getElem?.mp new
          have placed := (appends.fits position other isOther).1
          omega
        · omega
        · omega
        · exact same
      rw [atIndex] at same
      obtain rfl : entry = other := Option.some.inj (found.symm.trans same)
      rw [latestAt_of_mem consecutive member atIndex]
      rfl
    · rw [latestAt_none (fun other member atIndex => again ⟨other, member, atIndex⟩),
        Option.none_or]
      exact former
  · have placed := (appends.fits _ entry found).1
    have member := appends.suffix.subset (List.mem_of_getElem? found)
    rw [latestAt_of_mem consecutive member (by omega)]
    rfl

theorem Latest.change (latest : Latest manager.accepted log)
    (change : LogChange 0 manager manager' log log') : Latest manager'.accepted log' := by
  cases change with
  | compacted compacts _ accepted =>
      rw [accepted]
      exact fun index entry found => latest index entry (compacts.getEntry found)
  | appended appends _ accepted =>
      rw [accepted]
      exact latest.append appends

theorem ClearsWritten.settles (clears : ClearsWritten action manager) :
    Settles 0 action manager := by
  cases action with
  | clearMemoryLogs id => exact fun entry member => Or.inr (clears entry member)
  | _ => trivial

theorem Reads.step [DecidableEq P] (reads : Reads manager) (allowed : Allowed action manager)
    (clears : ClearsWritten action manager)
    (stepped : LogManager.step action manager = some manager') : Reads manager' := by
  obtain ⟨booked, _, error⟩ := reads.toBooked.step allowed stepped
  refine { booked with sound := fun works => ?_ }
  obtain ⟨sound, latest⟩ := reads.sound (error works)
  obtain ⟨log', after, change⟩ :=
    sound.step reads.opened (Nat.zero_le _) allowed clears.settles stepped works
  rw [after.toHolds.logicalLog_eq]
  exact ⟨after, latest.change change⟩

theorem Initial.reads [DecidableEq P] (initial : Initial manager) : Reads manager := by
  have booked := initial.durable.toBooked
  refine { booked with sound := fun _ => ?_ }
  obtain ⟨storage, configManager, dataLength, wellFormed, sorted, start⟩ := initial
  have sound : Sound 0 (init storage configManager dataLength : LogManager P D C) storage :=
    init_sound wellFormed configManager dataLength
  have latest : Latest storage.entries storage := by
    intro index entry found
    have placed := (wellFormed.indexed index entry found).1
    have member : entry ∈ storage.entries := by
      unfold LogStorage.getEntry IndexedLog.get? at found
      split_ifs at found
      exact List.mem_of_getElem? found
    have consecutive : Consecutive storage.first storage.entries := by
      intro position other isOther
      refine (wellFormed.indexed _ other ?_).1
      unfold LogStorage.getEntry IndexedLog.get?
      rw [if_neg (by omega), Nat.add_sub_cancel_left, isOther]
    exact latestAt_of_mem consecutive member placed
  rcases start with ⟨_, rfl⟩ | ⟨snapshot, positive, notOlder, stepped⟩
  · rw [sound.toHolds.logicalLog_eq]
    exact ⟨sound, latest⟩
  · have later : InOrder ({} : LogId) snapshot.id := Or.inr ⟨positive, Nat.zero_le _⟩
    obtain ⟨log, compacts, after, _⟩ := sound.setSnapshot (Nat.zero_le _)
      (Or.inr notOlder) (Or.inr (Or.inl later)) stepped
    rw [after.toHolds.logicalLog_eq, (setSnapshot_books stepped).2]
    exact ⟨after, fun index entry found => latest index entry (compacts.getEntry found)⟩

theorem Reads.latest (reads : Reads manager) (works : manager.hasError = false) :
    ReadsLatest manager := by
  obtain ⟨sound, latest⟩ := reads.sound works
  have first := sound.first
  have last := sound.last
  intro index above below
  obtain ⟨entry, found⟩ : ∃ entry, manager.logicalLog.getEntry index = some entry :=
    IndexedLog.exists_get? (by omega) (by omega)
  refine ⟨entry, latest index entry found, ?_, sound.toTracks.getTerm_eq (Nat.zero_le _) found⟩
  rw [sound.toHolds.getEntry_eq (Nat.zero_le _), found]

theorem reads_of_reachable [DecidableEq P]
    (reached : (system.restrict ClearsWritten).Reachable manager) : Reads manager := by
  induction reached with
  | start initial => exact Initial.reads initial
  | next _ allowed stepped ih => exact ih.step allowed.1 allowed.2 stepped

/-- While only written entries are dropped from memory, every read finds the entry that was
appended last. -/
theorem reads_latest [DecidableEq P] (reached : (system.restrict ClearsWritten).Reachable manager)
    (works : manager.hasError = false) : ReadsLatest manager :=
  (reads_of_reachable reached).latest works

theorem reads_stale :
    ∃ manager : LogManager Nat Nat Nat, system.Reachable manager ∧ manager.hasError = false ∧
      ¬ ReadsLatest manager := by
  refine ⟨cutPending, cutPending_reachable, rfl, fun reads => ?_⟩
  obtain ⟨entry, isLatest, isRead, _⟩ := reads 2 (by decide) (by decide)
  have latest : latestAt cutPending.accepted 2 = some (FlushRun.dataEntry 2 2) := rfl
  have read : cutPending.getEntry 2 = some (FlushRun.dataEntry 2 3) := rfl
  have same := isLatest.symm.trans latest
  rw [isRead.symm.trans read] at same
  exact absurd same (by decide)

/-- The cut is pending, and the new entries are still in memory. -/
theorem reads_latest_pending :
    ∃ manager : LogManager Nat Nat Nat, manager.diskQueue.length = 2 ∧
      manager.getEntry 2 = some (FlushRun.dataEntry 2 2) ∧ ReadsLatest manager := by
  have follows : ∃ manager : LogManager Nat Nat Nat, (system.restrict ClearsWritten).Follows
      [.appendEntries 0 [FlushRun.dataEntry 2 2, FlushRun.dataEntry 3 4] false]
      FlushRun.uncommittedLog manager ∧ manager.hasError = false ∧ manager.diskQueue.length = 2 ∧
      manager.getEntry 2 = some (FlushRun.dataEntry 2 2) :=
    ⟨_, ⟨⟨replacing_appendable, trivial⟩, _, rfl, rfl⟩, rfl, rfl, rfl⟩
  obtain ⟨manager, follows, works, queued, read⟩ := follows
  exact ⟨manager, queued, read,
    reads_latest (.follows _ (.start FlushRun.uncommittedLog_initial) follows) works⟩

end LogManager

end QuorumKit
