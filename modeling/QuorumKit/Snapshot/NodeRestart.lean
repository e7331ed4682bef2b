/-
The restart of a node from what has been stored.

`NodeImpl::init` initialises the log manager, loads the last snapshot and sets it, and checks
the two against each other.  The log that is found may end before the snapshot, go on behind
it, or have an entry of another term at its index.  It has to start right behind the snapshot
at the latest.
-/

import QuorumKit.LogManager.AnsweredEntries
import QuorumKit.LogManager.ConfigurationHistory
import QuorumKit.LogManager.PendingLog
import QuorumKit.Snapshot.SnapshotExecutor

namespace QuorumKit

variable {P D : Type}

namespace LogManager

variable [DecidableEq P]

/-- `LogManager::init`, which loads the configurations of the log. -/
def started (storage : LogStorage P D) (dataLength : D → Nat) : LogManager P D LogId :=
  init storage (addConfigurations .init storage.entries) dataLength

/-- The reader that `SnapshotExecutor::init` opens. -/
def firstReader (snapshot : SnapshotMeta P) : SnapshotReader P :=
  { snapshotIndex := snapshot.lastIncludedIndex
    metaTable := { snapshotMeta := some snapshot } }

/-- `NodeImpl::init` up to `check_consistency`; the state machine loads without an error. -/
def restart (storage : LogStorage P D) (dataLength : D → Nat)
    (published : Option (SnapshotMeta P)) : Option (LogManager P D LogId) :=
  match published with
  | none => some (started storage dataLength)
  | some snapshot =>
      if (({} : SnapshotFsm P).onSnapshotLoadTask (firstReader snapshot)).1 = 0 then
        (started storage dataLength).setSnapshot snapshot
      else none

def publishedIndex (published : Option (SnapshotMeta P)) : Nat :=
  match published with
  | none => 0
  | some snapshot => snapshot.lastIncludedIndex

def publishedConfiguration (published : Option (SnapshotMeta P)) : ConfigurationEntry P :=
  match published with
  | none => .default
  | some snapshot => .ofSnapshot snapshot

/-- The restarted manager is consistent with the snapshot, and its last configuration is that of
the recovered log, or else of the snapshot. -/
structure Recovers (published : Option (SnapshotMeta P)) (restarted : LogManager P D LogId) :
    Prop where
  consistent : restarted.checkConsistency = some (.ok ())
  term : ∀ snapshot, published = some snapshot →
    restarted.getTerm snapshot.lastIncludedIndex = snapshot.lastIncludedTerm
  configuration : restarted.configManager.lastConfiguration =
    (configurationsOf restarted.logicalLog.entries).getLast?.getD (publishedConfiguration published)

/-- The log that was found has no entry of another term at the index of the snapshot. -/
def Agrees (storage : LogStorage P D) (published : Option (SnapshotMeta P)) : Prop :=
  ∀ snapshot, published = some snapshot → ∀ entry,
    storage.getEntry snapshot.lastIncludedIndex = some entry →
      entry.id.term = snapshot.lastIncludedTerm

variable {storage : LogStorage P D} {dataLength : D → Nat} {snapshot : SnapshotMeta P}

omit [DecidableEq P] in
theorem firstReader_loads (snapshot : SnapshotMeta P) :
    (({} : SnapshotFsm P).onSnapshotLoadTask (firstReader snapshot)).1 = 0 := by
  have notOlder : ¬ snapshot.id < ({} : LogId) := by
    rw [LogId.lt_iff]
    simp
  simp only [SnapshotFsm.onSnapshotLoadTask, SnapshotFsm.doSnapshotLoad, firstReader,
    SnapshotReader.loadMeta, notOlder]
  rfl

theorem restart_some (snapshot : SnapshotMeta P) :
    restart storage dataLength (some snapshot) =
      (started storage dataLength).setSnapshot snapshot := by
  unfold restart
  simp only
  rw [if_pos (firstReader_loads snapshot)]

theorem started_configurations (dataLength : D → Nat) (wellFormed : storage.WellFormed) :
    (started storage dataLength).configManager.configurations = configurationsOf storage.entries ∧
      (started storage dataLength).configManager.snapshot = .default := by
  have sorted := configurationsOf_sorted wellFormed.consecutive.increasing
  obtain ⟨_, configurations, noSnapshot⟩ :=
    addConfigurations_accepted storage.entries (ConfigurationManager.init : ConfigurationManager P)
      (by
        change History.Sorted ConfigurationEntry.index ([] ++ configurationsOf storage.entries)
        rw [List.nil_append]
        exact sorted)
  exact ⟨configurations, noSnapshot⟩

omit [DecidableEq P] in
theorem getEntry_outside {index : Nat} (positive : 0 < storage.first)
    (outside : index = 0 ∨ storage.lastLogIndex < index ∨ index < storage.firstLogIndex) :
    storage.getEntry index = none := by
  refine (storage.get?_eq_none_iff index).mpr ?_
  simp only [LogStorage.lastLogIndex, LogStorage.firstLogIndex] at outside
  omega

theorem started_getTerm (dataLength : D → Nat) (wellFormed : storage.WellFormed) (index : Nat) :
    (started storage dataLength).getTerm index = storage.getTerm index := by
  have missing (outside : index = 0 ∨ storage.lastLogIndex < index ∨
      index < storage.firstLogIndex) : storage.getTerm index = 0 := by
    unfold LogStorage.getTerm
    rw [getEntry_outside wellFormed.positive outside]
  unfold getTerm
  by_cases zero : index = 0
  · rw [if_pos zero, missing (Or.inl zero)]
  · have noVirtual : ¬ index = (started storage dataLength).virtualFirstLogId.index := zero
    have noSnapshot : ¬ index = (started storage dataLength).lastSnapshotId.index := zero
    rw [if_neg zero, if_neg noVirtual, if_neg noSnapshot]
    by_cases outside : (started storage dataLength).lastLogIndex < index ∨
        index < (started storage dataLength).firstLogIndex
    · rw [if_pos outside, missing (Or.inr outside)]
    · rw [if_neg outside]
      rfl

omit [DecidableEq P] in
theorem reads_storage {manager : LogManager P D LogId} {index : Nat} {entry : LogEntry P D}
    (memory : manager.logsInMemory = []) (lower : manager.firstLogIndex ≤ index)
    (upper : index ≤ manager.lastLogIndex) (behindVirtual : manager.virtualFirstLogId.index < index)
    (behind : manager.lastSnapshotId.index < index)
    (found : manager.storage.getEntry index = some entry) :
    manager.getEntry index = some entry ∧ manager.getTerm index = entry.id.term := by
  have none : manager.getEntryFromMemory index = Option.none := by
    unfold getEntryFromMemory
    rw [memory]
    rfl
  constructor
  · unfold getEntry
    rw [if_neg (by omega), none]
    exact found
  · unfold getTerm
    rw [if_neg (by omega), if_neg (by omega), if_neg (by omega), if_neg (by omega), none]
    exact LogStorage.getTerm_of_getEntry found

/-- `set_snapshot` of a started manager: the log behind the snapshot is kept, and without a
conflict it can be read. -/
theorem started_setSnapshot (dataLength : D → Nat) (wellFormed : storage.WellFormed)
    (first : storage.first ≤ snapshot.lastIncludedIndex + 1)
    (positive : 0 < snapshot.lastIncludedIndex) :
    ∃ restarted, (started storage dataLength).setSnapshot snapshot = some restarted ∧
      restarted.configManager.lastConfiguration =
        (configurationsOf restarted.logicalLog.entries).getLast?.getD (.ofSnapshot snapshot) ∧
      (Agrees storage (some snapshot) → ∀ entry : LogEntry P D,
        storage.getEntry entry.id.index = some entry →
        snapshot.lastIncludedIndex < entry.id.index →
          restarted.getEntry entry.id.index = some entry ∧
            restarted.getTerm entry.id.index = entry.id.term) ∧
      (¬ Agrees storage (some snapshot) →
        restarted.firstLogIndex = snapshot.lastIncludedIndex + 1 ∧
          restarted.lastLogIndex = snapshot.lastIncludedIndex) := by
  have configurations := (started_configurations dataLength wellFormed).1
  have sorted := configurationsOf_sorted wellFormed.consecutive.increasing
  have isTerm := started_getTerm dataLength wellFormed
    snapshot.lastIncludedIndex
  have newer : (started storage dataLength).lastSnapshotId.index < snapshot.lastIncludedIndex :=
    positive
  have isFirst : (started storage dataLength).firstLogIndex = storage.first := rfl
  have isLast : (started storage dataLength).lastLogIndex = storage.stop - 1 := rfl
  have atSnapshot {entry : LogEntry P D}
      (found : storage.getEntry snapshot.lastIncludedIndex = some entry) :
      (started storage dataLength).getTerm snapshot.lastIncludedIndex = entry.id.term ∧
        0 < entry.id.term := by
    rw [isTerm, LogStorage.getTerm_of_getEntry found]
    exact ⟨rfl, (wellFormed.indexed _ _ found).2⟩
  have total : ∃ restarted, (started storage dataLength).setSnapshot snapshot = some restarted := by
    unfold LogManager.setSnapshot
    rw [if_neg (not_le.mpr newer)]
    simp only
    split_ifs with missing same former
    · exact truncatePrefix_total first
    · exact absurd former (lt_irrefl 0)
    · exact ⟨_, rfl⟩
    · exact ⟨_, rfl⟩
  obtain ⟨restarted, stepped⟩ := total
  refine ⟨restarted, stepped, ?_⟩
  rcases setSnapshot_cases newer stepped with ⟨missing, stepped⟩ | ⟨_, same, ⟨former, _⟩ | rfl⟩ |
    ⟨hasTerm, other, rfl⟩
  · -- the log ends before the snapshot, or starts right behind it
    have absent (entry : LogEntry P D) :
        storage.getEntry snapshot.lastIncludedIndex ≠ some entry := by
      intro found
      have terms := atSnapshot found
      omega
    obtain ⟨_, rfl⟩ := truncatePrefix_some stepped
    refine ⟨?_, ?_, ?_⟩
    · change _ = (configurationsOf (storage.dropBelow
        (snapshot.lastIncludedIndex + 1)).entries).getLast?.getD (.ofSnapshot snapshot)
      rw [configurationsOf_dropBelow wellFormed, ← sorted.dropWhile, ← configurations]
      rfl
    · intro _ entry found behind
      have inside := IndexedLog.get?_bounds found
      have notShort : ¬ storage.stop - 1 < snapshot.lastIncludedIndex + 1 := by omega
      refine reads_storage rfl behind ?_ behind behind found
      change entry.id.index ≤ if storage.stop - 1 < snapshot.lastIncludedIndex + 1 then
        snapshot.lastIncludedIndex + 1 - 1 else storage.stop - 1
      rw [if_neg notShort]
      omega
    · intro differs
      refine absurd ?_ differs
      intro other isOther entry found
      obtain rfl := Option.some.inj isOther
      exact absurd found (absent entry)
  · exact absurd former (lt_irrefl 0)
  · refine ⟨?_, ?_, ?_⟩
    · change _ = (configurationsOf storage.entries).getLast?.getD (.ofSnapshot snapshot)
      rw [← configurations]
      rfl
    · intro _ entry found behind
      have inside := IndexedLog.get?_bounds found
      refine reads_storage rfl inside.1 ?_ (show 0 < entry.id.index by omega) behind found
      change entry.id.index ≤ storage.stop - 1
      omega
    · intro differs
      refine absurd ?_ differs
      intro found isFound entry isEntry
      obtain rfl := Option.some.inj isFound
      exact (atSnapshot isEntry).1.symm.trans same
  · refine ⟨?_, ?_, fun _ => ⟨rfl, rfl⟩⟩
    · have none := sorted.cutBoth (Nat.succ_pos snapshot.lastIncludedIndex)
      rw [← configurations] at none
      change ((List.dropWhile
        (fun item => ConfigurationEntry.index item < snapshot.lastIncludedIndex + 1)
        (started storage dataLength).configManager.configurations).rdropWhile
          (fun item => snapshot.lastIncludedIndex + 1 - 1 <
            ConfigurationEntry.index item)).getLast?.getD (.ofSnapshot snapshot) = _
      rw [none]
      rfl
    · intro agrees
      cases found : storage.getEntry snapshot.lastIncludedIndex with
      | none =>
          rw [isTerm, LogStorage.getTerm, found] at hasTerm
          contradiction
      | some entry =>
          have same := agrees snapshot rfl entry found
          exact absurd ((atSnapshot found).1.trans same) other

def ReadsBack (restarted : LogManager P D LogId) (entry : LogEntry P D) : Prop :=
  restarted.getEntry entry.id.index = some entry ∧
    restarted.getTerm entry.id.index = entry.id.term

theorem restart_total (dataLength : D → Nat) {published : Option (SnapshotMeta P)}
    (wellFormed : storage.WellFormed)
    (first : storage.first ≤ publishedIndex published + 1)
    (positive : ∀ snapshot, published = some snapshot → 0 < snapshot.lastIncludedIndex) :
    ∃ restarted, restart storage dataLength published = some restarted ∧
      Recovers published restarted ∧
      (Agrees storage published → ∀ entry : LogEntry P D,
        storage.getEntry entry.id.index = some entry →
        publishedIndex published < entry.id.index → restarted.ReadsBack entry) ∧
      (¬ Agrees storage published →
        restarted.firstLogIndex = publishedIndex published + 1 ∧
          restarted.lastLogIndex = publishedIndex published) := by
  cases published with
  | none =>
      have above := wellFormed.positive
      have atOne : storage.first = 1 := le_antisymm first above
      have windowed := init_windowed wellFormed (Or.inl ⟨atOne, rfl⟩ :
        storage.first = 1 ∧ started storage dataLength = init storage _ dataLength ∨ _)
      obtain ⟨configurations, noSnapshot⟩ :=
        started_configurations dataLength wellFormed
      refine ⟨started storage dataLength, rfl, ⟨windowed.kept.consistent, ?_, ?_⟩, ?_, ?_⟩
      · intro snapshot isSnapshot
        contradiction
      · unfold ConfigurationManager.lastConfiguration
        rw [configurations, noSnapshot]
        rfl
      · intro _ entry found behind
        have inside := IndexedLog.get?_bounds found
        refine reads_storage rfl inside.1 ?_ behind behind found
        change entry.id.index ≤ storage.stop - 1
        omega
      · intro differs
        refine absurd ?_ differs
        intro snapshot isSnapshot
        contradiction
  | some snapshot =>
      have above := positive snapshot rfl
      obtain ⟨restarted, stepped, configuration, reads, emptied⟩ :=
        started_setSnapshot dataLength wellFormed first above
      have windowed := init_windowed wellFormed (Or.inr ⟨snapshot, above, stepped⟩)
      have isSnapshot := (setSnapshot_ids (show
        (started storage dataLength).lastSnapshotId.index < snapshot.lastIncludedIndex from above)
          stepped).1
      refine ⟨restarted, (restart_some snapshot).trans stepped,
        ⟨windowed.kept.consistent, ?_, configuration⟩, reads, emptied⟩
      intro other isOther
      obtain rfl := Option.some.inj isOther
      have term := windowed.kept.term
      rw [isSnapshot] at term
      exact term

end LogManager

end QuorumKit
