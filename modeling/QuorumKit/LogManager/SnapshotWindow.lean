/-
The window of the log around the last snapshot.

`set_snapshot` drops the log up to the snapshot before, all of it up to the new
snapshot, or everything.  In each case the log starts behind the last snapshot at the
latest and ends at its index at the earliest.  The disk thread changes neither.
-/

import QuorumKit.LogManager.StableClosure

namespace QuorumKit

namespace LogManager

variable {P D C : Type}

def view (manager : LogManager P D C) : Nat × Nat × LogId × LogId × LogId × ConfigurationManager P :=
  (manager.firstLogIndex, manager.lastLogIndex, manager.lastSnapshotId, manager.virtualFirstLogId,
    manager.appliedId, manager.configManager)

variable {manager manager' : LogManager P D C} {action : Action P D C}

theorem operate_view (storage : LogStorage P D) (outcome : DiskOutcome P D) :
    (manager.operate storage outcome).view = manager.view ∧
      (manager.operate storage outcome).diskQueue = manager.diskQueue := by
  cases outcome <;> exact ⟨rfl, rfl⟩

theorem Performs.view {thread thread' : DiskThread P D C} {task : DiskTask P D C}
    {outcome : DiskOutcome P D} (performs : Performs manager thread outcome task manager' thread') :
    manager'.view = manager.view ∧ manager'.diskQueue = manager.diskQueue := by
  cases performs with
  | empty | lastLogId => exact ⟨rfl, rfl⟩
  | truncatePrefix | truncateSuffix | truncateFailed | reset => exact operate_view _ _

theorem diskFlush_view {limit : Nat} (stepped : manager.diskFlush limit = some manager') :
    manager'.view = manager.view ∧ manager'.diskQueue = manager.diskQueue := by
  have wrote (toAppend : List (LogEntry P D)) (lastId : LogId) :
      (manager.appendToStorage toAppend lastId limit).2.view = manager.view ∧
        (manager.appendToStorage toAppend lastId limit).2.diskQueue = manager.diskQueue := by
    unfold appendToStorage
    split
    · exact ⟨rfl, rfl⟩
    · simp only
      split <;> exact ⟨rfl, rfl⟩
  unfold LogManager.diskFlush at stepped
  split at stepped
  · split at stepped
    · obtain rfl := Option.some.inj stepped
      exact wrote _ _
    · contradiction
  · contradiction

theorem diskTask_view {outcome : DiskOutcome P D}
    (stepped : manager.diskTask outcome = some manager') :
    manager'.view = manager.view ∧ manager'.diskQueue = manager.diskQueue := by
  cases takesTask_of_stepped stepped with
  | batched => exact ⟨rfl, rfl⟩
  | performed _ _ _ _ _ _ performs => exact performs.view

theorem background_view [DecidableEq P]
    (stepped : LogManager.step action manager = some manager') (background : Background action) :
    manager'.view = manager.view := by
  cases action with
  | appendEntries context entries sees => exact background.elim
  | setSnapshot snapshot => exact background.elim
  | clearBufferredLogs => exact background.elim
  | setAppliedId appliedId => exact background.elim
  | clearMemoryLogs id =>
      simp only [LogManager.step, LogManager.clearMemoryLogs] at stepped
      split at stepped
      · obtain rfl := Option.some.inj stepped
        rfl
      · contradiction
  | flushLastLogId ticket =>
      obtain rfl := Option.some.inj stepped
      unfold LogManager.flushLastLogId
      split <;> rfl
  | readEntry index =>
      obtain rfl := Option.some.inj stepped
      unfold LogManager.readEntry
      split_ifs <;> rfl
  | diskStart =>
      simp only [LogManager.step, LogManager.diskStart] at stepped
      split at stepped
      · obtain rfl := Option.some.inj stepped
        rfl
      · contradiction
  | diskTake =>
      simp only [LogManager.step, LogManager.diskTake] at stepped
      split at stepped
      · obtain rfl := Option.some.inj stepped
        rfl
      · contradiction
  | diskEnd =>
      simp only [LogManager.step, LogManager.diskEnd] at stepped
      split at stepped
      · obtain rfl := Option.some.inj stepped
        rfl
      · contradiction
  | diskFlush limit => exact (diskFlush_view stepped).1
  | diskRun =>
      simp only [LogManager.step, LogManager.diskRun] at stepped
      split at stepped
      · split at stepped
        · obtain rfl := Option.some.inj stepped
          rfl
        · contradiction
      · contradiction
  | diskTask outcome => exact (diskTask_view stepped).1
  | diskFinish =>
      obtain ⟨lastId, rfl⟩ := diskFinish_cases stepped
      unfold LogManager.setDiskId
      split <;> rfl
  | runAsync position =>
      obtain ⟨done, status, _, rfl⟩ := runAsync_cases stepped
      rfl

/-- The disk thread takes tasks from the front of the queue; only `last_log_id` adds one. -/
theorem background_queue [DecidableEq P]
    (stepped : LogManager.step action manager = some manager') (background : Background action) :
    manager'.diskQueue = manager.diskQueue ∨
      (∃ task, manager.diskQueue = task :: manager'.diskQueue) ∨
      ∃ ticket, manager'.diskQueue = manager.diskQueue ++ [.lastLogId ticket] := by
  cases action with
  | appendEntries context entries sees => exact background.elim
  | setSnapshot snapshot => exact background.elim
  | clearBufferredLogs => exact background.elim
  | setAppliedId appliedId => exact background.elim
  | clearMemoryLogs id =>
      simp only [LogManager.step, LogManager.clearMemoryLogs] at stepped
      split at stepped
      · obtain rfl := Option.some.inj stepped
        exact Or.inl rfl
      · contradiction
  | flushLastLogId ticket =>
      obtain rfl := Option.some.inj stepped
      unfold LogManager.flushLastLogId
      split
      · exact Or.inl rfl
      · exact Or.inr (Or.inr ⟨ticket, rfl⟩)
  | readEntry index =>
      obtain rfl := Option.some.inj stepped
      unfold LogManager.readEntry
      split_ifs <;> exact Or.inl rfl
  | diskStart =>
      simp only [LogManager.step, LogManager.diskStart] at stepped
      split at stepped
      · obtain rfl := Option.some.inj stepped
        exact Or.inl rfl
      · contradiction
  | diskTake =>
      simp only [LogManager.step, LogManager.diskTake] at stepped
      split at stepped
      · rename_i isQueue
        obtain rfl := Option.some.inj stepped
        exact Or.inr (Or.inl ⟨_, isQueue⟩)
      · contradiction
  | diskEnd =>
      simp only [LogManager.step, LogManager.diskEnd] at stepped
      split at stepped
      · obtain rfl := Option.some.inj stepped
        exact Or.inl rfl
      · contradiction
  | diskFlush limit => exact Or.inl (diskFlush_view stepped).2
  | diskRun =>
      simp only [LogManager.step, LogManager.diskRun] at stepped
      split at stepped
      · split at stepped
        · obtain rfl := Option.some.inj stepped
          exact Or.inl rfl
        · contradiction
      · contradiction
  | diskTask outcome => exact Or.inl (diskTask_view stepped).2
  | diskFinish =>
      obtain ⟨lastId, rfl⟩ := diskFinish_cases stepped
      refine Or.inl ?_
      unfold LogManager.setDiskId
      split <;> rfl
  | runAsync position =>
      obtain ⟨done, status, _, rfl⟩ := runAsync_cases stepped
      exact Or.inl rfl

structure Windowed (manager : LogManager P D C) : Prop where
  positive : 0 < manager.firstLogIndex
  opened : manager.Opened
  inside : manager.lastSnapshotId.index ≤ manager.lastLogIndex
  applied : manager.lastSnapshotId.index ≤ manager.appliedId.index
  behind : manager.virtualFirstLogId = manager.lastSnapshotId ∨
    manager.virtualFirstLogId.index < manager.lastSnapshotId.index
  start : manager.lastSnapshotId.index = 0 → manager.lastSnapshotId = {} ∧ manager.firstLogIndex = 1

theorem Windowed.of_view (windowed : Windowed manager) (same : manager'.view = manager.view) :
    Windowed manager' := by
  simp only [view, Prod.mk.injEq] at same
  obtain ⟨first, last, snapshot, behind, applied, _⟩ := same
  constructor
  · rw [first]
    exact windowed.positive
  · unfold Opened
    rw [first, snapshot]
    exact windowed.opened
  · rw [snapshot, last]
    exact windowed.inside
  · rw [snapshot, applied]
    exact windowed.applied
  · rw [behind, snapshot]
    exact windowed.behind
  · rw [snapshot, first]
    exact windowed.start

theorem resolve_last {entries remaining : List (LogEntry P D)} {front back : LogEntry P D}
    {resolved : LogManager P D C}
    (indexes : (∀ entry ∈ entries, entry.id.index = 0) ∨
      ∃ start, 0 < start ∧ Consecutive start entries)
    (isFront : entries.head? = some front) (isBack : entries.getLast? = some back)
    (accepted : manager.checkAndResolveConflict entries front back =
      some (.accepted remaining resolved)) :
    resolved.virtualFirstLogId = manager.virtualFirstLogId ∧
      (manager.lastLogIndex ≤ resolved.lastLogIndex ∨
        manager.appliedId.index ≤ resolved.lastLogIndex) := by
  have frontMember := List.mem_of_mem_head? isFront
  have nonempty : 0 < entries.length := List.length_pos_of_mem frontMember
  have numbered (follower : front.id.index ≠ 0) :
      ∃ start, 0 < start ∧ Consecutive start entries := by
    rcases indexes with zero | consecutive
    · exact absurd (zero front frontMember) follower
    · exact consecutive
  cases resolves_of_accepted accepted with
  | leader isLeader => exact ⟨rfl, Or.inl (Nat.le_add_right _ _)⟩
  | next follower isNext new =>
      obtain ⟨start, _, consecutive⟩ := numbered follower
      have frontIndex := consecutive.front isFront
      have backIndex := consecutive.back isBack
      refine ⟨rfl, Or.inl ?_⟩
      change manager.lastLogIndex ≤ back.id.index
      omega
  | known => exact ⟨rfl, Or.inl (le_refl _)⟩
  | conflict follower inside new split same differs overlaps truncated =>
      obtain ⟨_, _, rfl⟩ := unsafeTruncateSuffix_some truncated
      exact ⟨rfl, Or.inr new.le⟩
  | extension follower inside new split same differs beyond =>
      obtain ⟨start, _, consecutive⟩ := numbered follower
      have backIndex := consecutive.back isBack
      have placed := consecutive _ _ (show entries[_]? = some _ by
        rw [← split, List.getElem?_append_right (le_refl _), Nat.sub_self, List.getElem?_cons_zero])
      have total := congrArg List.length split
      rw [List.length_append, List.length_cons] at total
      refine ⟨rfl, Or.inl ?_⟩
      change manager.lastLogIndex ≤ back.id.index
      omega

theorem Windowed.appendEntries [DecidableEq P] {context : C} {entries : List (LogEntry P D)}
    {sees : Bool} (windowed : Windowed manager) (appendable : manager.Appendable entries)
    (stepped : manager.appendEntries context entries sees = some manager') :
    Windowed manager' := by
  rcases appendEntries_cases stepped with ⟨status, rfl, _⟩ | ⟨rfl, rfl⟩ |
    ⟨front, back, remaining, resolved, isFront, isBack, accepted, rfl⟩
  · exact windowed.of_view rfl
  · exact windowed.of_view rfl
  · obtain ⟨_, _, applied, first, snapshot⟩ := resolve_books accepted
    obtain ⟨behind, last⟩ := resolve_last appendable.indexes isFront isBack accepted
    have inside := windowed.inside
    have toApplied := windowed.applied
    constructor
    · exact first.symm ▸ windowed.positive
    · change resolved.Opened
      unfold Opened
      rw [first, snapshot]
      exact windowed.opened
    · change resolved.lastSnapshotId.index ≤ resolved.lastLogIndex
      rw [snapshot]
      omega
    · change resolved.lastSnapshotId.index ≤ resolved.appliedId.index
      rw [snapshot, applied]
      exact toApplied
    · change resolved.virtualFirstLogId = resolved.lastSnapshotId ∨
        resolved.virtualFirstLogId.index < resolved.lastSnapshotId.index
      rw [behind, snapshot]
      exact windowed.behind
    · change resolved.lastSnapshotId.index = 0 →
        resolved.lastSnapshotId = {} ∧ resolved.firstLogIndex = 1
      rw [snapshot, first]
      exact windowed.start

theorem truncatePrefix_total {firstIndexKept : Nat} (above : manager.firstLogIndex ≤ firstIndexKept) :
    ∃ after, manager.truncatePrefix firstIndexKept = some after := by
  unfold truncatePrefix
  rw [if_neg (not_lt.mpr above)]
  exact ⟨_, rfl⟩

theorem Windowed.setSnapshot_total [DecidableEq P] (windowed : Windowed manager)
    (snapshot : SnapshotMeta P) : ∃ after, manager.setSnapshot snapshot = some after := by
  have opened : manager.firstLogIndex ≤ manager.lastSnapshotId.index + 1 := windowed.opened
  unfold LogManager.setSnapshot
  by_cases old : snapshot.lastIncludedIndex ≤ manager.lastSnapshotId.index
  · rw [if_pos old]
    exact ⟨_, rfl⟩
  · rw [if_neg old]
    simp only
    split_ifs
    · exact truncatePrefix_total (show manager.firstLogIndex ≤ _ by omega)
    · exact truncatePrefix_total (show manager.firstLogIndex ≤ _ from opened)
    · exact ⟨_, rfl⟩
    · exact ⟨_, rfl⟩

theorem Windowed.clearBufferredLogs_total (windowed : Windowed manager) :
    ∃ after, manager.clearBufferredLogs = some after := by
  unfold LogManager.clearBufferredLogs
  split
  · exact truncatePrefix_total (show manager.firstLogIndex ≤ _ from windowed.opened)
  · exact ⟨_, rfl⟩

theorem le_last_of_getTerm {index : Nat}
    (behind : manager.virtualFirstLogId = manager.lastSnapshotId ∨
      manager.virtualFirstLogId.index < manager.lastSnapshotId.index)
    (newer : manager.lastSnapshotId.index < index) (hasTerm : manager.getTerm index ≠ 0) :
    index ≤ manager.lastLogIndex := by
  have virtualBelow : manager.virtualFirstLogId.index ≤ manager.lastSnapshotId.index := by
    rcases behind with same | below
    · rw [same]
    · exact below.le
  by_contra beyond
  unfold getTerm at hasTerm
  rw [if_neg (by omega), if_neg (by omega), if_neg (by omega), if_pos (by omega)] at hasTerm
  exact hasTerm rfl

theorem setSnapshot_window [DecidableEq P] {snapshot : SnapshotMeta P}
    (positive : 0 < manager.firstLogIndex)
    (behind : manager.virtualFirstLogId = manager.lastSnapshotId ∨
      manager.virtualFirstLogId.index < manager.lastSnapshotId.index)
    (newer : manager.lastSnapshotId.index < snapshot.lastIncludedIndex)
    (ordered : InOrder manager.appliedId snapshot.id ∨ InOrder snapshot.id manager.appliedId)
    (stepped : manager.setSnapshot snapshot = some manager') :
    0 < manager'.firstLogIndex ∧ manager'.lastSnapshotId = snapshot.id ∧
      snapshot.lastIncludedIndex ≤ manager'.lastLogIndex ∧
      snapshot.lastIncludedIndex ≤ manager'.appliedId.index ∧
      (manager'.virtualFirstLogId = snapshot.id ∨
        manager'.virtualFirstLogId.index < snapshot.lastIncludedIndex) := by
  have covers : snapshot.lastIncludedIndex ≤ (manager.noteSnapshot snapshot).appliedId.index := by
    rcases noteSnapshot_applied ordered with ⟨same, below⟩ | ⟨same, _⟩
    · rw [same]
      exact below
    · rw [same]
      exact le_refl _
  have reach : manager.getTerm snapshot.lastIncludedIndex ≠ 0 →
      snapshot.lastIncludedIndex ≤ manager.lastLogIndex := le_last_of_getTerm behind newer
  rcases setSnapshot_cases newer stepped with ⟨_, stepped⟩ |
    ⟨hasTerm, _, ⟨_, stepped⟩ | rfl⟩ | ⟨_, _, rfl⟩
  · obtain ⟨_, rfl⟩ := truncatePrefix_some stepped
    refine ⟨Nat.succ_pos _, rfl, ?_, covers, Or.inl rfl⟩
    change _ ≤ if manager.lastLogIndex < snapshot.lastIncludedIndex + 1 then
      snapshot.lastIncludedIndex + 1 - 1 else manager.lastLogIndex
    split <;> omega
  · obtain ⟨_, rfl⟩ := truncatePrefix_some stepped
    have inside := reach hasTerm
    refine ⟨Nat.succ_pos _, rfl, ?_, covers, Or.inr newer⟩
    change _ ≤ if manager.lastLogIndex < manager.lastSnapshotId.index + 1 then
      manager.lastSnapshotId.index + 1 - 1 else manager.lastLogIndex
    split <;> omega
  · refine ⟨positive, rfl, reach hasTerm, covers, Or.inr ?_⟩
    rcases behind with same | below
    · change manager.virtualFirstLogId.index < _
      rw [same]
      exact newer
    · exact below.trans newer
  · exact ⟨Nat.succ_pos _, rfl, le_refl _, covers, Or.inl rfl⟩

theorem Windowed.setSnapshot [DecidableEq P] {snapshot : SnapshotMeta P}
    (windowed : Windowed manager) (allowed : Allowed (.setSnapshot snapshot) manager)
    (stepped : manager.setSnapshot snapshot = some manager') : Windowed manager' := by
  by_cases newer : manager.lastSnapshotId.index < snapshot.lastIncludedIndex
  · obtain ⟨positive, isSnapshot, inside, applied, behind⟩ :=
      setSnapshot_window windowed.positive windowed.behind newer
        (allowed.resolve_left (not_le.mpr newer)) stepped
    have opened := setSnapshot_opened stepped (Or.inl windowed.opened)
    constructor
    · exact positive
    · exact opened
    · rw [isSnapshot]
      exact inside
    · rw [isSnapshot]
      exact applied
    · rw [isSnapshot]
      exact behind
    · rw [isSnapshot]
      intro none
      have none : snapshot.lastIncludedIndex = 0 := none
      omega
  · obtain rfl := setSnapshot_stale newer stepped
    exact windowed

theorem Windowed.clearBufferredLogs (windowed : Windowed manager)
    (stepped : manager.clearBufferredLogs = some manager') : Windowed manager' := by
  have inside := windowed.inside
  unfold LogManager.clearBufferredLogs at stepped
  split at stepped
  · rename_i hasSnapshot
    obtain ⟨_, rfl⟩ := truncatePrefix_some stepped
    constructor
    · exact Nat.succ_pos _
    · exact le_refl _
    · simp only [execute]
      split <;> omega
    · exact windowed.applied
    · exact Or.inl rfl
    · exact fun none => absurd none hasSnapshot
  · obtain rfl := Option.some.inj stepped
    exact windowed

theorem Windowed.step [DecidableEq P] (windowed : Windowed manager)
    (allowed : Allowed action manager)
    (stepped : LogManager.step action manager = some manager') : Windowed manager' := by
  cases action with
  | appendEntries context entries sees => exact windowed.appendEntries allowed stepped
  | setSnapshot snapshot => exact windowed.setSnapshot allowed stepped
  | clearBufferredLogs => exact windowed.clearBufferredLogs stepped
  | setAppliedId appliedId =>
      obtain rfl := Option.some.inj stepped
      unfold LogManager.setAppliedId
      split
      · exact windowed
      · rename_i notOlder
        refine { windowed with applied := ?_ }
        rcases allowed with late | same | ⟨newer, _⟩
        · exact absurd late notOlder
        · exact same ▸ windowed.applied
        · exact windowed.applied.trans newer.le
  | clearMemoryLogs id => exact windowed.of_view (background_view stepped trivial)
  | flushLastLogId ticket => exact windowed.of_view (background_view stepped trivial)
  | readEntry index => exact windowed.of_view (background_view stepped trivial)
  | diskStart => exact windowed.of_view (background_view stepped trivial)
  | diskTake => exact windowed.of_view (background_view stepped trivial)
  | diskEnd => exact windowed.of_view (background_view stepped trivial)
  | diskFlush limit => exact windowed.of_view (background_view stepped trivial)
  | diskRun => exact windowed.of_view (background_view stepped trivial)
  | diskTask outcome => exact windowed.of_view (background_view stepped trivial)
  | diskFinish => exact windowed.of_view (background_view stepped trivial)
  | runAsync position => exact windowed.of_view (background_view stepped trivial)

/-- The log manager right after `init`, or after the snapshot that is loaded next. -/
theorem init_windowed [DecidableEq P] {storage : LogStorage P D} {configManager : ConfigurationManager P}
    {dataLength : D → Nat} (wellFormed : storage.WellFormed)
    (start : storage.first = 1 ∧ manager = init storage configManager dataLength ∨
      ∃ snapshot : SnapshotMeta P, 0 < snapshot.lastIncludedIndex ∧
        (init storage configManager dataLength).setSnapshot snapshot = some manager) :
    Windowed manager := by
  rcases start with ⟨atOne, rfl⟩ | ⟨snapshot, positive, stepped⟩
  · exact ⟨wellFormed.positive, le_of_eq atOne, Nat.zero_le _, le_refl _, Or.inl rfl,
      fun _ => ⟨rfl, atOne⟩⟩
  · have later : InOrder ({} : LogId) snapshot.id := Or.inr ⟨positive, Nat.zero_le _⟩
    have opened := setSnapshot_opened stepped (Or.inr ⟨rfl, rfl, positive⟩)
    obtain ⟨first, isSnapshot, inside, applied, behind⟩ :=
      setSnapshot_window wellFormed.positive (Or.inl rfl) positive (Or.inl later) stepped
    constructor
    · exact first
    · exact opened
    · rw [isSnapshot]
      exact inside
    · rw [isSnapshot]
      exact applied
    · rw [isSnapshot]
      exact behind
    · rw [isSnapshot]
      intro none
      have none : snapshot.lastIncludedIndex = 0 := none
      omega

theorem Initial.windowed [DecidableEq P] (initial : Initial manager) : Windowed manager := by
  obtain ⟨storage, configManager, dataLength, wellFormed, _, start⟩ := initial
  rcases start with fresh | ⟨snapshot, positive, _, stepped⟩
  · exact init_windowed wellFormed (Or.inl fresh)
  · exact init_windowed wellFormed (Or.inr ⟨snapshot, positive, stepped⟩)

theorem windowed_of_reachable [DecidableEq P] (reached : system.Reachable manager) :
    Windowed manager := by
  induction reached with
  | start initial => exact Initial.windowed initial
  | next _ allowed stepped ih => exact ih.step allowed stepped

structure WindowKept (manager : LogManager P D C) : Prop where
  window : manager.lastSnapshotId ≠ {} → manager.firstLogIndex - 1 ≤ manager.lastSnapshotId.index ∧
    manager.lastSnapshotId.index ≤ manager.lastLogIndex
  term : manager.getTerm manager.lastSnapshotId.index = manager.lastSnapshotId.term
  consistent : manager.checkConsistency = some (.ok ())

theorem Windowed.kept (windowed : Windowed manager) : WindowKept manager := by
  have opened : manager.firstLogIndex ≤ manager.lastSnapshotId.index + 1 := windowed.opened
  have positive := windowed.positive
  have window : manager.firstLogIndex - 1 ≤ manager.lastSnapshotId.index ∧
      manager.lastSnapshotId.index ≤ manager.lastLogIndex := ⟨by omega, windowed.inside⟩
  refine ⟨fun _ => window, ?_, ?_⟩
  · unfold getTerm
    by_cases atZero : manager.lastSnapshotId.index = 0
    · rw [if_pos atZero, (windowed.start atZero).1]
    · rw [if_neg atZero]
      by_cases atVirtual : manager.lastSnapshotId.index = manager.virtualFirstLogId.index
      · rw [if_pos atVirtual]
        rcases windowed.behind with same | below
        · rw [same]
        · omega
      · rw [if_neg atVirtual, if_pos rfl]
  · unfold checkConsistency
    rw [if_neg (by omega)]
    by_cases none : manager.lastSnapshotId = {}
    · have first := (windowed.start (congrArg LogId.index none)).2
      rw [if_pos none, if_pos first]
    · rw [if_neg none, if_pos window]

structure SnapshotCut (manager : LogManager P D C) (snapshot : SnapshotMeta P)
    (manager' : LogManager P D C) : Prop where
  kept : manager.getTerm snapshot.lastIncludedIndex = snapshot.lastIncludedTerm →
    ∀ index, snapshot.lastIncludedIndex < index → manager'.getEntry index = manager.getEntry index
  emptied : manager.getTerm snapshot.lastIncludedIndex ≠ snapshot.lastIncludedTerm ∨
      manager.lastLogIndex < snapshot.lastIncludedIndex →
    manager'.firstLogIndex = snapshot.lastIncludedIndex + 1 ∧
      manager'.lastLogIndex = snapshot.lastIncludedIndex

theorem Compacts.getEntry_eq {log log' : LogStorage P D} (compacts : Compacts log log')
    {index : Nat} (inside : log'.first ≤ index) (goesOn : log'.first < log'.stop) :
    log'.getEntry index = log.getEntry index := by
  cases compacts with
  | kept => rfl
  | dropped firstIndexKept lower =>
      have inside : firstIndexKept ≤ index := inside
      rw [LogStorage.getEntry, IndexedLog.get?_dropBelow lower, if_neg (not_lt.mpr inside)]
      rfl
  | emptied nextLogIndex => exact absurd goesOn (lt_irrefl _)

theorem Sound.last_lt_of_getTerm {low index : Nat} {log : LogStorage P D}
    (sound : Sound low manager log) (lower : low ≤ index) (inside : manager.firstLogIndex ≤ index)
    (noTerm : manager.getTerm index = 0) : manager.lastLogIndex < index := by
  have first := sound.first
  have last := sound.last
  by_contra reaches
  obtain ⟨entry, found⟩ := IndexedLog.exists_get? (show log.first ≤ index by omega)
    (show index < log.stop by omega)
  have read := sound.toTracks.getTerm_eq lower found
  have positive := (sound.wellFormed.indexed _ _ found).2
  omega

theorem Windowed.cut [DecidableEq P] {snapshot : SnapshotMeta P} {log : LogStorage P D}
    (windowed : Windowed manager) (sound : Sound (manager.appliedId.index + 1) manager log)
    (allowed : Allowed (.setSnapshot snapshot) manager)
    (newer : manager.appliedId.index < snapshot.lastIncludedIndex)
    (stepped : manager.setSnapshot snapshot = some manager') :
    SnapshotCut manager snapshot manager' := by
  have applied := windowed.applied
  have opened : manager.firstLogIndex ≤ manager.lastSnapshotId.index + 1 := windowed.opened
  have ends : manager.getTerm snapshot.lastIncludedIndex = 0 →
      manager.lastLogIndex < snapshot.lastIncludedIndex :=
    sound.last_lt_of_getTerm newer (by omega)
  have reach : manager.getTerm snapshot.lastIncludedIndex ≠ 0 →
      snapshot.lastIncludedIndex ≤ manager.lastLogIndex :=
    le_last_of_getTerm windowed.behind (by omega)
  obtain ⟨log', compacts, sound', _⟩ :=
    sound.setSnapshot (le_refl _) (Or.inl windowed.opened) allowed stepped
  have first := sound'.first
  have last := sound'.last
  -- entries behind the snapshot are read from the log, before and after
  have read (start : manager'.firstLogIndex ≤ snapshot.lastIncludedIndex + 1)
      (goesOn : manager'.firstLogIndex ≤ manager'.lastLogIndex) :
      ∀ index, snapshot.lastIncludedIndex < index →
        manager'.getEntry index = manager.getEntry index := by
    intro index behind
    rw [sound'.toHolds.getEntry_eq (by omega), sound.toHolds.getEntry_eq (by omega)]
    exact compacts.getEntry_eq (by omega) (by omega)
  rcases setSnapshot_cases (by omega) stepped with ⟨noTerm, stepped⟩ |
    ⟨hasTerm, same, ⟨_, stepped⟩ | rfl⟩ | ⟨hasTerm, other, rfl⟩
  · have beyond := ends noTerm
    obtain ⟨_, rfl⟩ := truncatePrefix_some stepped
    have isLast : (if manager.lastLogIndex < snapshot.lastIncludedIndex + 1 then
        snapshot.lastIncludedIndex + 1 - 1 else manager.lastLogIndex) =
          snapshot.lastIncludedIndex := by
      rw [if_pos (by omega), Nat.add_sub_cancel]
    refine ⟨?_, fun _ => ⟨rfl, isLast⟩⟩
    intro _ index behind
    have none : manager.getEntry index = none := by
      unfold getEntry
      rw [if_pos (by omega)]
    rw [none]
    unfold getEntry
    exact if_pos (Or.inl (lt_of_eq_of_lt isLast behind))
  · have inside := reach hasTerm
    obtain ⟨_, rfl⟩ := truncatePrefix_some stepped
    have isLast : (if manager.lastLogIndex < manager.lastSnapshotId.index + 1 then
        manager.lastSnapshotId.index + 1 - 1 else manager.lastLogIndex) =
          manager.lastLogIndex := if_neg (by omega)
    refine ⟨fun _ => read ?_ ?_, ?_⟩
    · change manager.lastSnapshotId.index + 1 ≤ _
      omega
    · change manager.lastSnapshotId.index + 1 ≤ if manager.lastLogIndex <
        manager.lastSnapshotId.index + 1 then manager.lastSnapshotId.index + 1 - 1
          else manager.lastLogIndex
      rw [isLast]
      omega
    · rintro (differs | beyond)
      · exact absurd same differs
      · omega
  · have inside := reach hasTerm
    refine ⟨fun _ => read ?_ ?_, ?_⟩
    · change manager.firstLogIndex ≤ _
      omega
    · change manager.firstLogIndex ≤ manager.lastLogIndex
      omega
    · rintro (differs | beyond)
      · exact absurd same differs
      · omega
  · exact ⟨fun same => absurd same other, fun _ => ⟨rfl, rfl⟩⟩

/-- The operations that move the window; the disk thread works in between. -/
def MovesWindow (action : Action P D C) (_ : LogManager P D C) : Prop :=
  ∀ appliedId, action ≠ .setAppliedId appliedId

variable [DecidableEq P]

theorem setSnapshot_ids {snapshot : SnapshotMeta P}
    (newer : manager.lastSnapshotId.index < snapshot.lastIncludedIndex)
    (stepped : manager.setSnapshot snapshot = some manager') :
    manager'.lastSnapshotId = snapshot.id ∧
      manager'.appliedId = (manager.noteSnapshot snapshot).appliedId := by
  rcases setSnapshot_cases newer stepped with ⟨_, stepped⟩ | ⟨_, _, ⟨_, stepped⟩ | rfl⟩ |
    ⟨_, _, rfl⟩
  · obtain ⟨_, rfl⟩ := truncatePrefix_some stepped
    exact ⟨rfl, rfl⟩
  · obtain ⟨_, rfl⟩ := truncatePrefix_some stepped
    exact ⟨rfl, rfl⟩
  · exact ⟨rfl, rfl⟩
  · exact ⟨rfl, rfl⟩

theorem setSnapshot_applied_eq {snapshot : SnapshotMeta P}
    (same : manager.appliedId = manager.lastSnapshotId)
    (allowed : Allowed (.setSnapshot snapshot) manager)
    (stepped : manager.setSnapshot snapshot = some manager') :
    manager'.appliedId = manager'.lastSnapshotId := by
  by_cases newer : manager.lastSnapshotId.index < snapshot.lastIncludedIndex
  · obtain ⟨isSnapshot, isApplied⟩ := setSnapshot_ids newer stepped
    rw [isSnapshot, isApplied]
    rcases noteSnapshot_applied (allowed.resolve_left (not_le.mpr newer)) with
      ⟨_, below⟩ | ⟨isNew, _⟩
    · rw [same] at below
      omega
    · exact isNew
  · obtain rfl := setSnapshot_stale newer stepped
    exact same

/-- Without `set_applied_id` the applied entry is that of the last snapshot. -/
theorem applied_eq (reached : (system.restrict MovesWindow).Reachable manager) :
    manager.appliedId = manager.lastSnapshotId := by
  have viewed {former after : LogManager P D C} (same : former.appliedId = former.lastSnapshotId)
      (kept : after.view = former.view) : after.appliedId = after.lastSnapshotId := by
    simp only [view, Prod.mk.injEq] at kept
    obtain ⟨_, _, snapshot, _, applied, _⟩ := kept
    rw [snapshot, applied]
    exact same
  induction reached with
  | start initial =>
      obtain ⟨storage, configManager, dataLength, _, _, start⟩ := initial
      rcases start with ⟨_, rfl⟩ | ⟨snapshot, positive, _, stepped⟩
      · rfl
      · have later : InOrder ({} : LogId) snapshot.id := Or.inr ⟨positive, Nat.zero_le _⟩
        exact setSnapshot_applied_eq rfl (Or.inr (Or.inl later)) stepped
  | next _ allowed stepped ih =>
      rename_i action former after _
      have stepped : LogManager.step action former = some after := stepped
      cases action with
      | appendEntries context entries sees =>
          rcases appendEntries_cases stepped with ⟨status, rfl, _⟩ | ⟨rfl, rfl⟩ |
            ⟨front, back, remaining, resolved, _, _, accepted, rfl⟩
          · exact ih
          · exact ih
          · obtain ⟨_, _, applied, _, snapshot⟩ := resolve_books accepted
            change resolved.appliedId = resolved.lastSnapshotId
            rw [applied, snapshot]
            exact ih
      | setSnapshot snapshot => exact setSnapshot_applied_eq ih allowed.1 stepped
      | clearBufferredLogs =>
          simp only [LogManager.step, LogManager.clearBufferredLogs] at stepped
          split at stepped
          · obtain ⟨_, rfl⟩ := truncatePrefix_some stepped
            exact ih
          · obtain rfl := Option.some.inj stepped
            exact ih
      | setAppliedId appliedId => exact absurd rfl (allowed.2 appliedId)
      | _ => exact viewed ih (background_view stepped trivial)

/-- Appends, snapshots and `clear_bufferred_logs` keep the window, and the checks hold. -/
theorem snapshot_window (reached : (system.restrict MovesWindow).Reachable manager) :
    WindowKept manager ∧ (∃ after, manager.clearBufferredLogs = some after) ∧
      ∀ snapshot, Allowed (.setSnapshot snapshot) manager →
        ∃ after, manager.setSnapshot snapshot = some after ∧
          (manager.hasError = false → manager.lastSnapshotId.index < snapshot.lastIncludedIndex →
            SnapshotCut manager snapshot after) := by
  have windowed := windowed_of_reachable reached.of_restrict
  have durable := durable_of_reachable reached.of_restrict
  refine ⟨windowed.kept, windowed.clearBufferredLogs_total, ?_⟩
  intro snapshot allowed
  obtain ⟨after, stepped⟩ := windowed.setSnapshot_total snapshot
  refine ⟨after, stepped, ?_⟩
  intro works newer
  obtain ⟨log, sound, _⟩ := durable.sound works
  refine windowed.cut sound allowed ?_ stepped
  rw [applied_eq reached]
  exact newer

def firstSnapshot : SnapshotMeta Nat :=
  { lastIncludedIndex := 1, lastIncludedTerm := 1, peers := [1], oldPeers := [] }

theorem snapshot_window_firstSnapshot :
    ∃ manager after : LogManager Nat Nat Nat, WindowKept manager ∧
      manager.setSnapshot firstSnapshot = some after ∧ after.lastSnapshotId.index = 1 ∧
      SnapshotCut manager firstSnapshot after := by
  have follows : ∃ manager : LogManager Nat Nat Nat, (system.restrict MovesWindow).Follows
      [.appendEntries 0 [firstEntry] false] freshManager manager ∧ manager.hasError = false ∧
      manager.lastSnapshotId = {} ∧ manager.appliedId = {} :=
    ⟨_, ⟨⟨firstEntry_appendable (Or.inl rfl) rfl, nofun⟩, _, rfl, rfl⟩, rfl, rfl, rfl⟩
  obtain ⟨manager, follows, works, noSnapshot, notApplied⟩ := follows
  have reached := TransitionSystem.Reachable.follows _ (.start freshManager_initial) follows
  have allowed : Allowed (.setSnapshot firstSnapshot) manager := by
    refine Or.inr (Or.inl ?_)
    rw [notApplied]
    exact Or.inr ⟨by decide, by decide⟩
  have newer : manager.lastSnapshotId.index < firstSnapshot.lastIncludedIndex := by
    rw [noSnapshot]
    decide
  obtain ⟨kept, _, snapshots⟩ := snapshot_window reached
  obtain ⟨after, stepped, cut⟩ := snapshots firstSnapshot allowed
  exact ⟨manager, after, kept, stepped, congrArg LogId.index (setSnapshot_ids newer stepped).1,
    cut works newer⟩

end LogManager

end QuorumKit
