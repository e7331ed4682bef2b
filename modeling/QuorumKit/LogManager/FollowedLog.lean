/-
What the calls of a log manager leave alone.

The log that a run is followed with is the log that the manager stands for.  A batch that
has the committed entries cuts neither them nor their configurations, and compaction keeps
what is behind the last snapshot.
-/

import QuorumKit.LogManager.ConfigurationHistory
import QuorumKit.LogManager.FlushedLastLogId

namespace QuorumKit

variable {P D C : Type}

namespace LogManager

variable {manager manager' : LogManager P D C}

theorem logicalLog_queued (tasks : List (DiskTask P D C))
    (storage : manager'.storage = manager.storage)
    (thread : manager'.diskThread = manager.diskThread)
    (queue : manager'.diskQueue = manager.diskQueue ++ tasks) :
    manager'.logicalLog = tasks.foldl (fun log task => task.apply log) manager.logicalLog := by
  unfold logicalLog pending
  rw [storage, thread, queue, ← List.append_assoc, List.foldl_append]

def QueuesOnly (manager manager' : LogManager P D C) : Prop :=
  manager'.storage = manager.storage ∧ manager'.diskThread = manager.diskThread ∧
    ∃ tasks, manager'.diskQueue = manager.diskQueue ++ tasks

theorem QueuesOnly.refl (manager : LogManager P D C) : QueuesOnly manager manager :=
  ⟨rfl, rfl, [], (List.append_nil _).symm⟩

variable [DecidableEq P]

omit [DecidableEq P] in
theorem queuesOnly_accepted {entries remaining : List (LogEntry P D)} {front back : LogEntry P D}
    {resolved : LogManager P D C}
    (accepted : manager.checkAndResolveConflict entries front back =
      some (.accepted remaining resolved)) : QueuesOnly manager resolved := by
  cases resolves_of_accepted accepted with
  | conflict _ _ _ _ _ _ _ truncated =>
      obtain ⟨_, lastTermKept, rfl⟩ := unsafeTruncateSuffix_some truncated
      exact ⟨rfl, rfl, [_], rfl⟩
  | leader | next | known | extension => exact QueuesOnly.refl manager

theorem queuesOnly_of_front {action : Action P D C}
    (stepped : LogManager.step action manager = some manager') (front : ¬ Background action) :
    QueuesOnly manager manager' := by
  cases action with
  | appendEntries context entries sees =>
      rcases appendEntries_cases stepped with ⟨status, rfl, _⟩ | ⟨_, rfl⟩ |
        ⟨front, back, remaining, resolved, _, _, accepted, rfl⟩
      · exact QueuesOnly.refl manager
      · exact ⟨rfl, rfl, [_], rfl⟩
      · obtain ⟨storage, thread, tasks, queue⟩ := queuesOnly_accepted accepted
        have queue := congrArg (fun queued => queued ++ [DiskTask.append (.queued context
          (if front.id.index = 0 then remaining else entries) remaining)]) queue
        exact ⟨storage, thread, _, queue.trans (List.append_assoc _ _ _)⟩
  | setSnapshot snapshot =>
      by_cases newer : manager.lastSnapshotId.index < snapshot.lastIncludedIndex
      · rcases setSnapshot_cases newer stepped with ⟨_, stepped⟩ | ⟨_, _, ⟨_, stepped⟩ | rfl⟩ |
          ⟨_, _, rfl⟩
        · obtain ⟨_, rfl⟩ := truncatePrefix_some stepped
          exact ⟨rfl, rfl, [_], rfl⟩
        · obtain ⟨_, rfl⟩ := truncatePrefix_some stepped
          exact ⟨rfl, rfl, [_], rfl⟩
        · exact QueuesOnly.refl manager
        · exact ⟨rfl, rfl, [_], rfl⟩
      · obtain rfl := setSnapshot_stale newer stepped
        exact QueuesOnly.refl _
  | clearBufferredLogs =>
      simp only [LogManager.step, LogManager.clearBufferredLogs] at stepped
      split_ifs at stepped
      · obtain ⟨_, rfl⟩ := truncatePrefix_some stepped
        exact ⟨rfl, rfl, [_], rfl⟩
      · obtain rfl := Option.some.inj stepped
        exact QueuesOnly.refl manager
  | setAppliedId appliedId =>
      obtain rfl := Option.some.inj stepped
      unfold LogManager.setAppliedId
      split
      · exact QueuesOnly.refl manager
      · exact QueuesOnly.refl manager
  | _ => exact absurd trivial front

theorem hasError_kept {action : Action P D C}
    (stepped : LogManager.step action manager = some manager') (failed : manager.hasError = true) :
    manager'.hasError = true := by
  cases action with
  | appendEntries context entries sees =>
      rcases appendEntries_cases stepped with ⟨status, rfl, _⟩ | ⟨_, rfl⟩ |
        ⟨front, back, remaining, resolved, _, _, accepted, rfl⟩
      · exact failed
      · exact failed
      · exact (congrArg Prod.fst (resolve_books accepted).1).trans failed
  | setSnapshot snapshot => exact (congrArg Prod.fst (setSnapshot_books stepped).1).trans failed
  | clearBufferredLogs =>
      exact (congrArg Prod.fst (clearBufferredLogs_books stepped).1).trans failed
  | setAppliedId appliedId =>
      obtain rfl := Option.some.inj stepped
      unfold LogManager.setAppliedId
      split <;> exact failed
  | clearMemoryLogs id =>
      simp only [LogManager.step, LogManager.clearMemoryLogs] at stepped
      split at stepped
      · obtain rfl := Option.some.inj stepped
        exact failed
      · contradiction
  | flushLastLogId ticket =>
      obtain rfl := Option.some.inj stepped
      unfold LogManager.flushLastLogId
      split <;> exact failed
  | readEntry index =>
      obtain rfl := Option.some.inj stepped
      unfold LogManager.readEntry
      split_ifs
      · exact failed
      · rfl
      · exact failed
  | diskStart =>
      simp only [LogManager.step, LogManager.diskStart] at stepped
      split at stepped
      · obtain rfl := Option.some.inj stepped
        exact failed
      · contradiction
  | diskTake =>
      simp only [LogManager.step, LogManager.diskTake] at stepped
      split at stepped
      · obtain rfl := Option.some.inj stepped
        exact failed
      · contradiction
  | diskEnd =>
      simp only [LogManager.step, LogManager.diskEnd] at stepped
      split at stepped
      · obtain rfl := Option.some.inj stepped
        exact failed
      · contradiction
  | diskFlush limit =>
      cases works : manager'.hasError with
      | true => rfl
      | false =>
          rw [(diskFlush_frame stepped).2.2 works] at failed
          contradiction
  | diskRun =>
      simp only [LogManager.step, LogManager.diskRun] at stepped
      split at stepped
      · split at stepped
        · obtain rfl := Option.some.inj stepped
          exact failed
        · contradiction
      · contradiction
  | diskTask outcome =>
      cases works : manager'.hasError with
      | true => rfl
      | false =>
          rw [(diskTask_frame stepped).2.1 works] at failed
          contradiction
  | diskFinish =>
      obtain ⟨lastId, rfl⟩ := diskFinish_cases stepped
      unfold LogManager.setDiskId
      split <;> exact failed
  | runAsync position =>
      obtain ⟨done, status, _, rfl⟩ := runAsync_cases stepped
      exact failed

end LogManager

namespace ConfigurationRun

variable [DecidableEq P] {run : ConfigurationRun P D C} {manager : LogManager P D C}
  {action : LogManager.Action P D C}

theorem follow_front (isLog : run.log = run.manager.logicalLog)
    (stepped : LogManager.step action run.manager = some manager)
    (front : ¬ LogManager.Background action) :
    (run.follow action manager).log = manager.logicalLog := by
  obtain ⟨storage, thread, tasks, queue⟩ := LogManager.queuesOnly_of_front stepped front
  change (queued run.manager manager).foldl (fun log task => task.apply log) run.log = _
  rw [LogManager.logicalLog_queued tasks storage thread queue, queued_eq tasks queue, isLog]

theorem follow_logicalLog (durable : LogManager.Durable run.manager)
    (isLog : run.log = run.manager.logicalLog)
    (stepped : LogManager.step action run.manager = some manager)
    (works : manager.hasError = false) : (run.follow action manager).log = manager.logicalLog := by
  by_cases background : LogManager.Background action
  · have worked : run.manager.hasError = false := by
      by_contra failed
      rw [LogManager.hasError_kept stepped (Bool.not_eq_false _ ▸ failed)] at works
      contradiction
    obtain ⟨sound, _⟩ := durable.soundLog worked
    obtain ⟨after, _⟩ := sound.background (durable.settles worked stepped) stepped works background
    rw [after.toHolds.logicalLog_eq, follow_background run stepped background]
    exact isLog
  · exact follow_front isLog stepped background

theorem follow_setAppliedId {after : ConfigurationRun P D C} {appliedId : LogId}
    (stepped : ConfigurationRun.step (.setAppliedId appliedId) run = some after) :
    after = { run with manager := run.manager.setAppliedId appliedId } := by
  obtain ⟨manager', moved, rfl⟩ := Option.map_eq_some_iff.mp stepped
  obtain rfl := Option.some.inj moved
  refine follow_idle _ _ nofun (Or.inl (queued_eq [] ?_))
  rw [List.append_nil]
  unfold LogManager.setAppliedId
  split <;> rfl

/-- Entries between the applied one and the bound are kept, and what was in effect in the
log up to the bound is still in effect there. -/
structure Keeps (bound : Nat) (run after : ConfigurationRun P D C) : Prop where
  applied : after.manager.appliedId = run.manager.appliedId
  entries : ∀ index entry, run.manager.appliedId.index < index → index ≤ bound →
    run.log.getEntry index = some entry → after.log.getEntry index = some entry
  effective : ∀ index, index ≤ max bound run.manager.appliedId.index → index < run.log.stop →
    effective after.history index = effective run.history index
  reach : run.manager.appliedId.index < run.log.stop →
    run.manager.appliedId.index < after.log.stop
  snapshot : run.manager.lastSnapshotId.index ≤ after.manager.lastSnapshotId.index

variable {bound : Nat} {after : ConfigurationRun P D C}

omit [DecidableEq P] in
theorem Keeps.same (applied : after.manager.appliedId = run.manager.appliedId)
    (log : after.log = run.log) (history : after.history = run.history)
    (snapshot : run.manager.lastSnapshotId.index ≤ after.manager.lastSnapshotId.index) :
    Keeps bound run after := by
  refine ⟨applied, ?_, ?_, ?_, snapshot⟩
  · intro index entry _ _ found
    rw [log]
    exact found
  · intro index _ _
    rw [history]
  · rw [log]
    exact id

def HasCommitted (bound : Nat) (log : LogStorage P D) (action : LogManager.Action P D C) : Prop :=
  match action with
  | .appendEntries _ entries _ => ∀ entry ∈ entries, entry.id.index ≤ bound →
      ∀ found, log.getEntry entry.id.index = some found → found.id = entry.id
  | _ => True

omit [DecidableEq P] in
theorem head_conflicts {entries rest : List (LogEntry P D)} {front back conflicting : LogEntry P D}
    {resolved : LogManager P D C} (isFront : entries.head? = some front)
    (accepted : manager.checkAndResolveConflict entries front back =
      some (.accepted (conflicting :: rest) resolved))
    (inside : conflicting.id.index ≤ manager.lastLogIndex) :
    conflicting ∈ entries ∧ manager.getTerm conflicting.id.index ≠ conflicting.id.term := by
  obtain ⟨remaining, isRemaining⟩ : ∃ remaining, remaining = conflicting :: rest := ⟨_, rfl⟩
  rw [← isRemaining] at accepted
  cases LogManager.resolves_of_accepted accepted with
  | leader isLeader =>
      have isHead := LogManager.assignIndexes_getElem? entries manager.lastLogIndex 0
      rw [isRemaining, List.getElem?_cons_zero, eq_comm, Option.map_eq_some_iff] at isHead
      obtain ⟨_, _, rfl⟩ := isHead
      simp only at inside
      omega
  | next follower isNext new =>
      rw [isRemaining] at isFront
      obtain rfl := Option.some.inj isFront
      omega
  | known => contradiction
  | conflict _ _ _ split _ differs =>
      obtain ⟨rfl, rfl⟩ := List.cons.inj isRemaining
      exact ⟨by rw [← split]; simp, differs⟩
  | extension _ _ _ split _ differs =>
      obtain ⟨rfl, rfl⟩ := List.cons.inj isRemaining
      exact ⟨by rw [← split]; simp, differs⟩

theorem cut_above {entries remaining : List (LogEntry P D)} {front back : LogEntry P D}
    {base resolved : LogManager P D C} {cut index : Nat} (tracked : Tracked run)
    (tracks : LogManager.Tracks (run.manager.appliedId.index + 1) run.manager run.log)
    (committed : ∀ entry ∈ entries, entry.id.index ≤ bound →
      ∀ found, run.log.getEntry entry.id.index = some found → found.id = entry.id)
    (isFront : entries.head? = some front)
    (accepted : run.manager.checkAndResolveConflict entries front back =
      some (.accepted remaining resolved))
    (prepared : LogManager.Prepared run.manager base resolved run.log cut remaining)
    (consecutive : LogManager.Consecutive cut remaining)
    (behind : index ≤ max bound run.manager.appliedId.index) (inside : index < run.log.stop) :
    index < cut := by
  have last := tracked.last
  rcases prepared.2 with ⟨_, isStop⟩ | ⟨_, applied, upper⟩
  · omega
  · by_contra notAbove
    cases remaining with
    | nil =>
        -- a call that leaves nothing has not cut the log
        have same := FlushRun.resolved_of_nothing isFront accepted
        have isLast := congrArg LogManager.lastLogIndex (same.symm.trans prepared.1)
        simp only [List.length_nil] at isLast
        omega
    | cons conflicting rest =>
        have atCut : conflicting.id.index = cut := consecutive 0 conflicting rfl
        obtain ⟨member, other⟩ := head_conflicts isFront accepted (by omega)
        have first := tracked.first
        have opened : run.manager.firstLogIndex ≤ run.manager.lastSnapshotId.index + 1 :=
          tracked.windowed.opened
        have toApplied := tracked.windowed.applied
        obtain ⟨found, isFound⟩ : ∃ found, run.log.getEntry conflicting.id.index = some found :=
          IndexedLog.exists_get? (by omega) (by omega)
        have same := committed conflicting member (by omega) found isFound
        rw [tracks.getTerm_eq (by omega) isFound, same] at other
        exact other rfl

theorem Keeps.appendEntries {context : C} {entries : List (LogEntry P D)} {sees : Bool}
    {after : LogManager P D C} (tracked : Tracked run)
    (tracks : LogManager.Tracks (run.manager.appliedId.index + 1) run.manager run.log)
    (appendable : run.manager.Appendable entries)
    (committed : HasCommitted bound run.log
      (.appendEntries context entries sees : LogManager.Action P D C))
    (stepped : run.manager.appendEntries context entries sees = some after) :
    Keeps bound run (run.follow (.appendEntries context entries sees) after) := by
  rcases LogManager.appendEntries_cases stepped with ⟨status, rfl, _⟩ | ⟨rfl, rfl⟩ |
    ⟨front, back, remaining, resolved, isFront, isBack, accepted, rfl⟩
  · have idle : queued run.manager (run.manager.runInBthread
        { context := context, submitted := entries } status) = [] :=
      queued_eq [] (List.append_nil _).symm
    rw [follow_idle (.appendEntries context entries sees) _ nofun (Or.inl idle)]
    exact Keeps.same rfl rfl rfl (le_refl _)
  · rw [follow_nothing]
    exact Keeps.same rfl rfl rfl (le_refl _)
  · obtain ⟨base, cut, prepared, consecutive, _⟩ :=
      prepared_of_accepted tracked.windowed tracked.last appendable isFront isBack accepted
    obtain ⟨_, stop, _, _⟩ := tracked.prepared prepared
    have above (index : Nat) (behind : index ≤ max bound run.manager.appliedId.index)
        (inside : index < run.log.stop) : index < cut :=
      cut_above tracked tracks committed isFront accepted prepared consecutive behind inside
    obtain ⟨_, _, applied, _, snapshotId⟩ := LogManager.resolve_books accepted
    rw [tracked.follow_prepared prepared context entries
      (if front.id.index = 0 then remaining else entries) sees]
    refine ⟨applied, ?_, ?_, ?_, (congrArg LogId.index snapshotId).ge⟩
    · intro index entry _ behind found
      have before := above index (by omega) (IndexedLog.get?_bounds found).2
      change ((run.log.keepBelow cut).append remaining).get? index = some entry
      rw [IndexedLog.get?_append, stop, if_pos before, IndexedLog.get?_keepBelow, if_pos before]
      exact found
    · intro index behind inside
      have before := above index behind inside
      refine (effective_append ?_).trans (effective_upTo _ (by omega))
      intro conf member
      have placed := (batch_index consecutive conf member).1
      omega
    · intro inside
      have before := above _ (le_max_right _ _) inside
      change _ < ((run.log.keepBelow cut).append remaining).stop
      rw [IndexedLog.append_stop, stop]
      omega

theorem Keeps.truncatePrefix {noted manager : LogManager P D C} {firstIndexKept : Nat}
    (tracked : Tracked run) (stepped : noted.truncatePrefix firstIndexKept = some manager)
    (first : noted.firstLogIndex = run.manager.firstLogIndex)
    (queue : noted.diskQueue = run.manager.diskQueue)
    (applied : noted.appliedId = run.manager.appliedId)
    (below : firstIndexKept ≤ run.manager.appliedId.index + 1)
    (snapshot : run.manager.lastSnapshotId.index ≤ noted.lastSnapshotId.index)
    (isAfter : after = { manager := manager
                         log := (queued run.manager manager).foldl
                           (fun log task => task.apply log) run.log
                         history := run.history }) : Keeps bound run after := by
  subst isAfter
  obtain ⟨lower, rfl⟩ := LogManager.truncatePrefix_some stepped
  have lower : run.log.first ≤ firstIndexKept := by
    rw [← tracked.first, ← first]
    exact lower
  rw [queued_eq [.truncatePrefix firstIndexKept]
    (congrArg (fun tasks => tasks ++ [.truncatePrefix firstIndexKept]) queue)]
  refine ⟨applied, ?_, fun index _ _ => rfl, ?_, snapshot⟩
  · intro index entry above _ found
    change (run.log.dropBelow firstIndexKept).get? index = some entry
    rw [IndexedLog.get?_dropBelow lower, if_neg (by omega)]
    exact found
  · intro inside
    change _ < (run.log.dropBelow firstIndexKept).stop
    rw [IndexedLog.dropBelow_stop _ lower]
    exact inside.trans_le (le_max_right _ _)

theorem Keeps.setSnapshot {snapshot : SnapshotMeta P} {after : LogManager P D C}
    (tracked : Tracked run)
    (inOrder : LogManager.InOrder snapshot.id run.manager.appliedId)
    (reads : run.manager.lastSnapshotId.index < snapshot.lastIncludedIndex →
      0 < snapshot.lastIncludedTerm ∧
        run.manager.getTerm snapshot.lastIncludedIndex = snapshot.lastIncludedTerm)
    (stepped : run.manager.setSnapshot snapshot = some after) :
    Keeps bound run (run.follow (.setSnapshot snapshot) after) := by
  by_cases newer : run.manager.lastSnapshotId.index < snapshot.lastIncludedIndex
  · obtain ⟨positive, same⟩ := reads newer
    have history : noted run.manager snapshot run.history = run.history := by
      rw [noted_newer run.history newer, if_neg (by omega), if_pos same]
    have applied : (run.manager.noteSnapshot snapshot).appliedId = run.manager.appliedId := by
      change (if run.manager.appliedId < snapshot.id then _ else _) = _
      exact if_neg inOrder.le
    have behind := inOrder.index_le
    rcases LogManager.setSnapshot_cases newer stepped with ⟨missing, _⟩ |
      ⟨_, _, ⟨_, stepped⟩ | rfl⟩ | ⟨_, other, _⟩
    · omega
    · refine Keeps.truncatePrefix tracked stepped rfl rfl applied ?_ newer.le ?_
      · have behind : snapshot.lastIncludedIndex ≤ run.manager.appliedId.index := behind
        omega
      · unfold follow
        simp only [history]
    · have none : queued run.manager (run.manager.noteSnapshot snapshot) = [] :=
        queued_eq [] (List.append_nil _).symm
      refine Keeps.same applied ?_ history newer.le
      unfold follow
      rw [none]
      rfl
    · exact absurd same other
  · rw [follow_stale (not_lt.mp newer) stepped]
    exact Keeps.same rfl rfl rfl (le_refl _)

theorem Keeps.clearBufferredLogs {after : LogManager P D C} (tracked : Tracked run)
    (stepped : run.manager.clearBufferredLogs = some after) :
    Keeps bound run (run.follow .clearBufferredLogs after) := by
  unfold LogManager.clearBufferredLogs at stepped
  split at stepped
  · have toApplied := tracked.windowed.applied
    refine Keeps.truncatePrefix tracked stepped rfl rfl rfl (by omega) (le_refl _) ?_
    obtain ⟨_, rfl⟩ := LogManager.truncatePrefix_some stepped
    unfold follow
    rw [queued_eq [.truncatePrefix (run.manager.lastSnapshotId.index + 1)] rfl]
    rfl
  · obtain rfl := Option.some.inj stepped
    rw [follow_idle .clearBufferredLogs _ nofun
      (Or.inl (queued_eq [] (List.append_nil _).symm))]
    exact Keeps.same rfl rfl rfl (le_refl _)

def Others (action : LogManager.Action P D C) : Prop :=
  match action with
  | .setSnapshot _ => False
  | .setAppliedId _ => False
  | _ => True

theorem keeps_of_step (tracked : Tracked run)
    (tracks : LogManager.Tracks (run.manager.appliedId.index + 1) run.manager run.log)
    (allowed : LogManager.Allowed action run.manager)
    (committed : HasCommitted bound run.log action) (others : Others action)
    (stepped : LogManager.step action run.manager = some manager) :
    Keeps bound run (run.follow action manager) := by
  cases action with
  | appendEntries context entries sees =>
      exact Keeps.appendEntries tracked tracks allowed committed stepped
  | setSnapshot snapshot => exact others.elim
  | setAppliedId appliedId => exact others.elim
  | clearBufferredLogs => exact Keeps.clearBufferredLogs tracked stepped
  | _ =>
      have view := LogManager.background_view stepped trivial
      simp only [LogManager.view, Prod.mk.injEq] at view
      obtain ⟨_, _, snapshotId, _, applied, _⟩ := view
      rw [follow_background run stepped trivial]
      exact Keeps.same applied rfl rfl (congrArg LogId.index snapshotId).ge

end ConfigurationRun

end QuorumKit
