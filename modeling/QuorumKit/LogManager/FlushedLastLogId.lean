/-
The last log id behind a flush: `last_log_id(true)` and `last_log_index(true)`.

The disk thread answers with a last id of its own.  A write and a cut of the suffix
change it; between two iterations it is kept in `_disk_id`, which only takes an id that
is not smaller.  In the runs in which no iteration ends with a smaller id, the answer
is the end of the log at the time of the call.
-/

import QuorumKit.LogManager.PendingLog

namespace QuorumKit

variable {P D C : Type}

/-! ### The last id of the disk thread -/

/-- `last_id` after a write. -/
def lastIdOf (entries : List (LogEntry P D)) (lastId : LogId) : LogId :=
  match entries.getLast? with
  | some last => last.id
  | none => lastId

/-- `last_id` after a task. -/
def DiskTask.lastIdAfter (task : DiskTask P D C) (lastId : LogId) : LogId :=
  match task with
  | .append done => lastIdOf done.entries lastId
  | .truncateSuffix lastIndexKept lastTermKept => { index := lastIndexKept, term := lastTermKept }
  | _ => lastId

namespace LogManager

/-- `last_id` of the running iteration, or of the next one. -/
def startId (manager : LogManager P D C) : LogId :=
  match manager.diskThread with
  | some thread => thread.lastId
  | none => manager.diskId

/-- `last_id` once all pending tasks have been performed. -/
def finalId (manager : LogManager P D C) : LogId :=
  manager.pending.foldl (fun lastId task => task.lastIdAfter lastId) manager.startId

/-- The id of the last entry of the log, or that of the last snapshot. -/
def endId (manager : LogManager P D C) : LogId :=
  match manager.logicalLog.entries.getLast? with
  | some last => last.id
  | none => manager.lastSnapshotId

end LogManager

/-- A log manager, and the end of its log at each call of `last_log_id(true)`. -/
structure FlushRun (P D C : Type) where
  manager : LogManager P D C
  expected : List (Nat × LogId) := []

namespace FlushRun

variable [DecidableEq P]

def step (action : LogManager.Action P D C) (run : FlushRun P D C) : Option (FlushRun P D C) :=
  (LogManager.step action run.manager).map (fun after =>
    { manager := after
      expected :=
        match action with
        | .flushLastLogId ticket => (ticket, run.manager.endId) :: run.expected
        | _ => run.expected })

/-- Every call has a ticket of its own, and a snapshot of applied entries has the term of
the last one. -/
def Allowed (action : LogManager.Action P D C) (run : FlushRun P D C) : Prop :=
  LogManager.Allowed action run.manager ∧
    match action with
    | .flushLastLogId ticket => ∀ id, (ticket, id) ∉ run.expected
    | .setSnapshot snapshot =>
        snapshot.lastIncludedIndex ≤ run.manager.appliedId.index →
        ∀ entry, run.manager.logicalLog.getEntry snapshot.lastIncludedIndex = some entry →
          entry.id.term = snapshot.lastIncludedTerm
    | _ => True

def system : TransitionSystem (FlushRun P D C) (LogManager.Action P D C) :=
  { init := fun run => LogManager.Initial run.manager ∧ run.expected = []
    allowed := Allowed
    step := step }

/-- The iteration of the disk thread does not end with an id before `_disk_id`. -/
def EndsInOrder (action : LogManager.Action P D C) (run : FlushRun P D C) : Prop :=
  match action with
  | .diskFinish => ∀ thread, run.manager.diskThread = some thread →
      ¬ thread.lastId < run.manager.diskId
  | _ => True

/-- What the callers are given: no answer but the expected one, and `set_last_log_id`
passes its check. -/
structure AnswersRight (run : FlushRun P D C) : Prop where
  answered : ∀ answer ∈ run.manager.lastLogIds, answer ∈ run.expected
  next : ∀ thread ticket, run.manager.diskThread = some thread →
    thread.batch = [] → thread.task = some (.lastLogId ticket) →
    (ticket, thread.lastId) ∈ run.expected ∧
      (thread.lastId.index ≠ 0 → thread.lastId.term ≠ 0)

def Answers (expected : List (Nat × LogId)) (task : DiskTask P D C) (lastId : LogId) : Prop :=
  match task with
  | .lastLogId ticket => (ticket, lastId) ∈ expected ∧ (lastId.index ≠ 0 → lastId.term ≠ 0)
  | _ => True

structure Flushes (manager : LogManager P D C) (expected : List (Nat × LogId)) : Prop where
  anchored : ∀ entry, manager.logicalLog.getEntry manager.lastSnapshotId.index = some entry →
    entry.id = manager.lastSnapshotId
  reaches : manager.firstLogIndex ≤ manager.lastLogIndex →
    ∃ entry, manager.logicalLog.getEntry manager.lastLogIndex = some entry ∧
      manager.finalId = entry.id
  waits : Pending.Ensures DiskTask.lastIdAfter (Answers expected) manager.startId manager.pending
  answered : ∀ answer ∈ manager.lastLogIds, answer ∈ expected

structure Flushing (run : FlushRun P D C) : Prop where
  durable : LogManager.Durable run.manager
  windowed : LogManager.Windowed run.manager
  flushes : run.manager.hasError = false → Flushes run.manager run.expected

variable {manager manager' : LogManager P D C} {expected : List (Nat × LogId)}
  {low : Nat} {log : LogStorage P D}

/-- What `Flushes` is about. -/
def flushView (manager : LogManager P D C) :
    LogStorage P D × List (DiskTask P D C) × LogId × LogId × Nat × Nat × List (Nat × LogId) :=
  (manager.storage, manager.pending, manager.startId, manager.lastSnapshotId,
    manager.firstLogIndex, manager.lastLogIndex, manager.lastLogIds)

omit [DecidableEq P] in
theorem Flushes.of_view (flushes : Flushes manager expected)
    (same : flushView manager' = flushView manager) : Flushes manager' expected := by
  simp only [flushView, Prod.mk.injEq] at same
  obtain ⟨storage, pending, start, snapshot, first, last, answers⟩ := same
  have sameLog := LogManager.logicalLog_congr storage pending
  have sameFinal : manager'.finalId = manager.finalId := by
    unfold LogManager.finalId
    rw [pending, start]
  constructor
  · rw [sameLog, snapshot]
    exact flushes.anchored
  · rw [sameLog, first, last, sameFinal]
    exact flushes.reaches
  · rw [start, pending]
    exact flushes.waits
  · rw [answers]
    exact flushes.answered

omit [DecidableEq P] in
theorem finalId_execute (manager : LogManager P D C) (task : DiskTask P D C) :
    (manager.execute task).finalId = task.lastIdAfter manager.finalId := by
  unfold LogManager.finalId
  rw [LogManager.pending_execute, List.foldl_append]
  rfl

omit [DecidableEq P] in
theorem waits_execute {task : DiskTask P D C}
    (waits : Pending.Ensures DiskTask.lastIdAfter (Answers expected) manager.startId
      manager.pending)
    (answers : Answers expected task (task.lastIdAfter manager.finalId)) :
    Pending.Ensures DiskTask.lastIdAfter (Answers expected) (manager.execute task).startId
      (manager.execute task).pending := by
  rw [LogManager.pending_execute]
  have drains : Pending.Drains DiskTask.lastIdAfter (fun _ _ => True) manager.startId
      manager.pending manager.finalId := Pending.drains_foldl (fun _ _ => trivial) _ _
  exact waits.snoc drains answers

omit [DecidableEq P] in
theorem resolved_of_nothing {entries : List (LogEntry P D)} {front back : LogEntry P D}
    {resolved : LogManager P D C} (isFront : entries.head? = some front)
    (accepted : manager.checkAndResolveConflict entries front back =
      some (.accepted [] resolved)) : resolved = manager := by
  cases entries with
  | nil => contradiction
  | cons head rest =>
      cases LogManager.resolves_of_accepted accepted with
      | known => rfl

theorem Flushes.appended {base resolved : LogManager P D C} {cut : Nat}
    {submitted remaining : List (LogEntry P D)} (flushes : Flushes manager expected)
    (sound : LogManager.Sound low manager manager.logicalLog) (opened : manager.Opened)
    (lowApplied : low ≤ manager.appliedId.index + 1)
    (prepared : LogManager.Prepared manager base resolved manager.logicalLog cut remaining)
    (appends : LogManager.Appends low manager.appliedId manager.logicalLog submitted remaining cut)
    (goesOn : cut < manager.logicalLog.stop → remaining ≠ []) (context : C) :
    Flushes (resolved.enqueue context submitted remaining) expected := by
  have stop := IndexedLog.keepBelow_stop manager.logicalLog appends.lower appends.upper
  have isLog := (sound.appended opened lowApplied prepared appends context).toHolds.logicalLog_eq
  have last := sound.last
  have positive := sound.wellFormed.positive
  have lower := appends.lower
  have upper := appends.upper
  have inside := sound.snapshotInside
  have toApplied := sound.applied
  have isResolved := prepared.1
  subst isResolved
  have isBase : base.lastSnapshotId = manager.lastSnapshotId ∧
      base.firstLogIndex = manager.firstLogIndex ∧ base.lastLogIds = manager.lastLogIds ∧
      manager.lastSnapshotId.index < cut ∧
      Pending.Ensures DiskTask.lastIdAfter (Answers expected) base.startId base.pending ∧
      (remaining = [] → base.finalId = manager.finalId ∧ cut = manager.logicalLog.stop) := by
    rcases prepared.2 with ⟨rfl, atEnd⟩ | ⟨truncated, applied, before⟩
    · exact ⟨rfl, rfl, rfl, by omega, flushes.waits, fun _ => ⟨rfl, atEnd⟩⟩
    · obtain ⟨_, lastTermKept, rfl⟩ := LogManager.unsafeTruncateSuffix_some truncated
      exact ⟨rfl, rfl, rfl, by omega, waits_execute flushes.waits trivial,
        fun none => absurd none (goesOn before)⟩
  obtain ⟨snapshot, first, answers, above, waits, none⟩ := isBase
  constructor
  · rw [isLog]
    intro entry found
    have found : ((manager.logicalLog.keepBelow cut).append remaining).get?
        base.lastSnapshotId.index = some entry := found
    rw [snapshot, IndexedLog.get?_append_of_lt remaining (by omega), IndexedLog.get?_keepBelow,
      if_pos above] at found
    change entry.id = base.lastSnapshotId
    rw [snapshot]
    exact flushes.anchored entry found
  · intro goes
    have goes : base.firstLogIndex ≤ cut + remaining.length - 1 := goes
    rw [isLog]
    change ∃ entry, ((manager.logicalLog.keepBelow cut).append remaining).get?
        (cut + remaining.length - 1) = some entry ∧ _
    have isFinal : (({ base with lastLogIndex := cut + remaining.length - 1 } :
        LogManager P D C).enqueue context submitted remaining).finalId =
          (DiskTask.append (.queued context submitted remaining)).lastIdAfter base.finalId :=
      finalId_execute _ _
    rw [isFinal]
    cases isLast : remaining.getLast? with
    | none =>
        have empty := List.getLast?_eq_none_iff.mp isLast
        obtain ⟨final, atEnd⟩ := none empty
        subst empty
        rw [first, List.length_nil] at goes
        rw [IndexedLog.append_nil, List.length_nil, IndexedLog.get?_keepBelow, if_pos (by omega)]
        change ∃ entry : LogEntry P D, _ ∧ base.finalId = entry.id
        rw [final]
        have reached := flushes.reaches (by omega)
        rwa [show manager.lastLogIndex = cut + 0 - 1 by omega] at reached
    | some entry =>
        have nonempty : 0 < remaining.length :=
          List.length_pos_of_mem (List.mem_of_getLast? isLast)
        refine ⟨entry, ?_, ?_⟩
        · rw [IndexedLog.get?_append, if_neg (by omega), stop]
          rw [List.getLast?_eq_getElem?] at isLast
          rw [← isLast]
          congr 1
          omega
        · simp only [DiskTask.lastIdAfter, StableClosure.queued, lastIdOf, isLast]
  · have stored : Pending.Ensures DiskTask.lastIdAfter (Answers expected)
        ({ base with
          lastLogIndex := cut + remaining.length - 1
          configManager := LogManager.addConfigurations base.configManager remaining
          logsInMemory := base.logsInMemory ++ remaining
          accepted := base.accepted ++ submitted } : LogManager P D C).startId base.pending := waits
    exact waits_execute stored trivial
  · change ∀ answer ∈ base.lastLogIds, answer ∈ expected
    rw [answers]
    exact flushes.answered

/-! ### Snapshots -/

omit [DecidableEq P] in
theorem Flushes.truncatePrefix {firstIndexKept : Nat} {noted : LogManager P D C}
    (flushes : Flushes manager expected)
    (sound : LogManager.Sound low manager manager.logicalLog)
    (stepped : noted.truncatePrefix firstIndexKept = some manager')
    (same : noted.storage = manager.storage ∧ noted.pending = manager.pending ∧
      noted.startId = manager.startId ∧ noted.lastLogIds = manager.lastLogIds ∧
      noted.firstLogIndex = manager.firstLogIndex ∧ noted.lastLogIndex = manager.lastLogIndex)
    (anchored : firstIndexKept ≤ noted.lastSnapshotId.index →
      ∀ entry, manager.logicalLog.getEntry noted.lastSnapshotId.index = some entry →
        entry.id = noted.lastSnapshotId) :
    Flushes manager' expected := by
  obtain ⟨storage, pending, start, answers, first, last⟩ := same
  have sameLog := LogManager.logicalLog_congr storage pending
  have sameFinal : noted.finalId = manager.finalId := by
    unfold LogManager.finalId
    rw [pending, start]
  obtain ⟨lower, rfl⟩ := LogManager.truncatePrefix_some stepped
  rw [first, sound.first] at lower
  have isLog : (({ noted with
      logsInMemory := noted.logsInMemory.dropWhile (fun entry => entry.id.index < firstIndexKept)
      firstLogIndex := firstIndexKept
      lastLogIndex :=
        if noted.lastLogIndex < firstIndexKept then firstIndexKept - 1 else noted.lastLogIndex
      configManager := noted.configManager.truncatePrefix firstIndexKept } :
      LogManager P D C).execute (.truncatePrefix firstIndexKept)).logicalLog =
        manager.logicalLog.dropBelow firstIndexKept := by
    rw [LogManager.logicalLog_execute, ← sameLog]
    rfl
  constructor
  · rw [isLog]
    intro entry found
    change (manager.logicalLog.dropBelow firstIndexKept).get? noted.lastSnapshotId.index =
      some entry at found
    rw [IndexedLog.get?_dropBelow lower] at found
    split_ifs at found with dropped
    exact anchored (not_lt.mp dropped) entry found
  · rw [isLog]
    intro goes
    have goes : firstIndexKept ≤ if noted.lastLogIndex < firstIndexKept then
      firstIndexKept - 1 else noted.lastLogIndex := goes
    have positive := sound.wellFormed.positive
    have kept : ¬ noted.lastLogIndex < firstIndexKept := by
      intro dropped
      rw [if_pos dropped] at goes
      omega
    rw [if_neg kept] at goes
    rw [last] at goes kept
    obtain ⟨entry, found, isFinal⟩ := flushes.reaches (by rw [sound.first]; omega)
    change ∃ entry, (manager.logicalLog.dropBelow firstIndexKept).get?
      (if noted.lastLogIndex < firstIndexKept then firstIndexKept - 1 else noted.lastLogIndex) =
        some entry ∧ _
    rw [last, if_neg kept, IndexedLog.get?_dropBelow lower, if_neg kept]
    refine ⟨entry, found, ?_⟩
    rw [finalId_execute, ← isFinal, ← sameFinal]
    rfl
  · have waits := flushes.waits
    rw [← start, ← pending] at waits
    exact waits_execute waits trivial
  · change ∀ answer ∈ noted.lastLogIds, answer ∈ expected
    rw [answers]
    exact flushes.answered

theorem Flushes.setSnapshot {snapshot : SnapshotMeta P} (flushes : Flushes manager expected)
    (sound : LogManager.Sound (manager.appliedId.index + 1) manager manager.logicalLog)
    (genuine : snapshot.lastIncludedIndex ≤ manager.appliedId.index →
      ∀ entry, manager.logicalLog.getEntry snapshot.lastIncludedIndex = some entry →
        entry.id.term = snapshot.lastIncludedTerm)
    (stepped : manager.setSnapshot snapshot = some manager') : Flushes manager' expected := by
  by_cases newer : manager.lastSnapshotId.index < snapshot.lastIncludedIndex
  · -- the entry at the snapshot is that of the snapshot, if the terms agree
    have atSnapshot (same : manager.getTerm snapshot.lastIncludedIndex =
        snapshot.lastIncludedTerm) : ∀ entry,
        manager.logicalLog.getEntry snapshot.lastIncludedIndex = some entry →
          entry.id = snapshot.id := by
      intro entry found
      ext
      · exact (sound.wellFormed.indexed _ _ found).1
      · by_cases covered : snapshot.lastIncludedIndex ≤ manager.appliedId.index
        · exact genuine covered entry found
        · exact (sound.toTracks.getTerm_eq (by omega) found).symm.trans same
    rcases LogManager.setSnapshot_cases newer stepped with ⟨missing, stepped⟩ |
      ⟨hasTerm, same, ⟨_, stepped⟩ | rfl⟩ | ⟨hasTerm, other, rfl⟩
    · exact flushes.truncatePrefix sound stepped ⟨rfl, rfl, rfl, rfl, rfl, rfl⟩
        (fun inside => absurd inside (Nat.not_succ_le_self _))
    · exact flushes.truncatePrefix sound stepped ⟨rfl, rfl, rfl, rfl, rfl, rfl⟩
        (fun _ => atSnapshot same)
    · exact
        { anchored := atSnapshot same
          reaches := flushes.reaches
          waits := flushes.waits
          answered := flushes.answered }
    · constructor
      · intro entry found
        have found : (LogStorage.reset (snapshot.lastIncludedIndex + 1) : LogStorage P D).get?
            snapshot.lastIncludedIndex = some entry := by
          rw [LogManager.reset, LogManager.logicalLog_execute] at found
          exact found
        have below := (IndexedLog.get?_bounds found).1
        exact absurd below (Nat.not_succ_le_self _)
      · exact fun goes => absurd goes (Nat.not_succ_le_self _)
      · exact waits_execute flushes.waits trivial
      · exact flushes.answered
  · obtain rfl := LogManager.setSnapshot_stale newer stepped
    exact flushes

omit [DecidableEq P] in
theorem Flushes.clearBufferredLogs (flushes : Flushes manager expected)
    (sound : LogManager.Sound low manager manager.logicalLog)
    (stepped : manager.clearBufferredLogs = some manager') : Flushes manager' expected := by
  unfold LogManager.clearBufferredLogs at stepped
  split at stepped
  · exact flushes.truncatePrefix sound stepped ⟨rfl, rfl, rfl, rfl, rfl, rfl⟩
      (fun _ => flushes.anchored)
  · obtain rfl := Option.some.inj stepped
    exact flushes

/-! ### The disk thread -/

omit [DecidableEq P] in
theorem lastIdAfter_batch (batch : List (StableClosure P D C)) : ∀ lastId : LogId,
    (batch.map DiskTask.append).foldl (fun lastId task => task.lastIdAfter lastId) lastId =
      lastIdOf (batch.flatMap StableClosure.entries) lastId := by
  induction batch with
  | nil => exact fun _ => rfl
  | cons done rest ih =>
      intro lastId
      rw [List.map_cons, List.foldl_cons, ih, List.flatMap_cons]
      unfold lastIdOf
      rw [List.getLast?_append]
      cases (rest.flatMap StableClosure.entries).getLast? with
      | some last => rfl
      | none => rfl

omit [DecidableEq P] in
theorem appendToStorage_lastId (toAppend : List (LogEntry P D)) (lastId : LogId) (limit : Nat)
    (noError : manager.hasError = false)
    (works : (manager.appendToStorage toAppend lastId limit).2.hasError = false) :
    (manager.appendToStorage toAppend lastId limit).1 = lastIdOf toAppend lastId := by
  unfold LogManager.appendToStorage at works ⊢
  rw [noError, if_neg (by decide)] at works ⊢
  simp only at works ⊢
  have all : (manager.storage.appendEntries toAppend limit).1 = toAppend.length := by
    by_contra some'
    rw [if_pos some'] at works
    simp [LogManager.reportError] at works
  rw [all, List.take_length]
  unfold lastIdOf
  cases toAppend.getLast? <;> rfl

omit [DecidableEq P] in
theorem Flushes.diskFlush {limit : Nat} (flushes : Flushes manager expected)
    (sound : LogManager.Sound low manager manager.logicalLog)
    (stepped : manager.diskFlush limit = some manager') (works : manager'.hasError = false) :
    Flushes manager' expected := by
  have sameLog := (sound.diskFlush stepped works).toHolds.logicalLog_eq
  have same := (LogManager.diskFlush_view stepped).1
  simp only [LogManager.view, Prod.mk.injEq] at same
  obtain ⟨first, last, snapshot, _⟩ := same
  unfold LogManager.diskFlush at stepped
  split at stepped
  · rename_i thread isThread
    split at stepped
    · have isPending := LogManager.pending_thread isThread
      have isStart : manager.startId = thread.lastId := by
        unfold LogManager.startId
        rw [isThread]
      have isLastId := appendToStorage_lastId thread.toAppend thread.lastId limit sound.noError
      have written := LogManager.appendToStorage_works thread.toAppend thread.lastId limit
        sound.noError
      rcases result : manager.appendToStorage thread.toAppend thread.lastId limit with
        ⟨lastId, wrote⟩
      rw [result] at stepped isLastId written
      obtain rfl := Option.some.inj stepped
      have isLast : lastId = lastIdOf thread.toAppend thread.lastId := isLastId works
      obtain rfl := written works
      have folded : (thread.batch.map DiskTask.append).foldl
          (fun lastId task => task.lastIdAfter lastId) manager.startId = lastId := by
        rw [lastIdAfter_batch, isStart, isLast]
        rfl
      have waits := flushes.waits
      have reaches := flushes.reaches
      unfold LogManager.finalId at reaches
      rw [isPending] at waits reaches
      rw [List.foldl_append, folded] at reaches
      have waits := waits.drop
      rw [folded] at waits
      constructor
      · rw [sameLog]
        exact flushes.anchored
      · rw [sameLog]
        exact reaches
      · exact waits
      · exact flushes.answered
    · contradiction
  · contradiction

omit [DecidableEq P] in
theorem performs_lastId {thread thread' : DiskThread P D C} {task : DiskTask P D C}
    {outcome : LogManager.DiskOutcome P D}
    (performs : LogManager.Performs manager thread outcome task manager' thread')
    (works : manager'.hasError = false) :
    thread'.lastId = task.lastIdAfter thread.lastId ∧
      (manager'.lastLogIds = manager.lastLogIds ∨ ∃ ticket, task = .lastLogId ticket ∧
        manager'.lastLogIds = (ticket, thread.lastId) :: manager.lastLogIds) := by
  have operated (storage : LogStorage P D) :
      (manager.operate storage outcome).lastLogIds = manager.lastLogIds := by
    cases outcome <;> rfl
  cases performs with
  | empty none =>
      refine ⟨?_, Or.inl rfl⟩
      simp only [DiskTask.lastIdAfter, lastIdOf, none, List.getLast?_nil]
  | lastLogId ticket => exact ⟨rfl, Or.inr ⟨ticket, rfl, rfl⟩⟩
  | truncatePrefix | truncateSuffix | reset => exact ⟨rfl, Or.inl (operated _)⟩
  | truncateFailed _ _ left failed =>
      subst failed
      simp [LogManager.operate, LogManager.reportError] at works

omit [DecidableEq P] in
theorem Flushes.diskTask {outcome : LogManager.DiskOutcome P D} (flushes : Flushes manager expected)
    (sound : LogManager.Sound low manager manager.logicalLog)
    (stepped : manager.diskTask outcome = some manager') (works : manager'.hasError = false) :
    Flushes manager' expected := by
  have sameLog := (sound.diskTask stepped works).1.toHolds.logicalLog_eq
  have same := (LogManager.diskTask_view stepped).1
  simp only [LogManager.view, Prod.mk.injEq] at same
  obtain ⟨first, last, snapshot, _⟩ := same
  cases LogManager.takesTask_of_stepped stepped with
  | batched isThread isTask =>
      refine flushes.of_view ?_
      simp [flushView, LogManager.pending, LogManager.startId, isThread, isTask, DiskThread.tasks]
  | @performed thread thread' task after isThread isTask _ isPending noBatch _ performs =>
      have isStart : manager.startId = thread.lastId := by
        unfold LogManager.startId
        rw [isThread]
      obtain ⟨_, _, queue, _, _, batch, noTask, _⟩ := performs.works works
      obtain ⟨lastId, answers⟩ := performs_lastId performs works
      have isPending' : ({ after with diskThread := some thread' } :
          LogManager P D C).pending = manager.diskQueue := by
        rw [LogManager.pending_thread rfl, batch, noBatch, noTask]
        exact queue
      have waits := flushes.waits
      have reaches := flushes.reaches
      unfold LogManager.finalId at reaches
      rw [isPending, isStart] at waits reaches
      constructor
      · rw [sameLog, snapshot]
        exact flushes.anchored
      · have isFinal : ({ after with diskThread := some thread' } :
            LogManager P D C).finalId = manager.diskQueue.foldl
              (fun lastId task => task.lastIdAfter lastId) thread'.lastId := by
          unfold LogManager.finalId
          rw [isPending']
          rfl
        rw [sameLog, isFinal, lastId, first, last]
        exact reaches
      · rw [isPending']
        change Pending.Ensures _ _ thread'.lastId _
        rw [lastId]
        exact waits.2
      · change ∀ answer ∈ after.lastLogIds, answer ∈ expected
        rcases answers with kept | ⟨ticket, isLastLogId, added⟩
        · rw [kept]
          exact flushes.answered
        · -- the call at hand is answered
          subst isLastLogId
          rw [added]
          intro answer member
          rcases List.mem_cons.mp member with rfl | former
          · exact waits.1.1
          · exact flushes.answered answer former

omit [DecidableEq P] in
theorem Flushes.diskFinish (flushes : Flushes manager expected)
    (inOrder : ∀ thread, manager.diskThread = some thread → ¬ thread.lastId < manager.diskId)
    (stepped : manager.diskFinish = some manager') : Flushes manager' expected := by
  unfold LogManager.diskFinish at stepped
  split at stepped
  · rename_i lastId isThread
    obtain rfl := Option.some.inj stepped
    refine flushes.of_view ?_
    have kept : ¬ lastId < manager.diskId := inOrder _ isThread
    unfold LogManager.setDiskId
    rw [if_neg kept]
    simp [flushView, LogManager.pending, LogManager.startId, isThread, DiskThread.tasks]
  · contradiction

omit [DecidableEq P] in
theorem Flushes.flushLastLogId {ticket : Nat} (flushes : Flushes manager expected)
    (windowed : LogManager.Windowed manager)
    (sound : LogManager.Sound low manager manager.logicalLog) :
    Flushes (manager.flushLastLogId ticket) ((ticket, manager.endId) :: expected) := by
  have last := sound.last
  have positive := sound.wellFormed.positive
  have isEnd : ∀ entry, manager.logicalLog.getEntry manager.lastLogIndex = some entry →
      manager.endId = entry.id := by
    intro entry found
    unfold LogManager.endId
    rw [IndexedLog.getLast?_eq, show manager.logicalLog.stop - 1 = manager.lastLogIndex by omega,
      show manager.logicalLog.get? manager.lastLogIndex = some entry from found]
  have more : ∀ (task : DiskTask P D C) (lastId : LogId), Answers expected task lastId →
      Answers ((ticket, manager.endId) :: expected) task lastId := by
    intro task lastId answers
    cases task with
    | lastLogId other => exact ⟨List.mem_cons_of_mem _ answers.1, answers.2⟩
    | _ => trivial
  have waits := flushes.waits.mono more
  unfold LogManager.flushLastLogId
  by_cases atSnapshot : manager.lastLogIndex = manager.lastSnapshotId.index
  · rw [if_pos atSnapshot]
    have isSnapshot : manager.endId = manager.lastSnapshotId := by
      unfold LogManager.endId
      rw [IndexedLog.getLast?_eq, show manager.logicalLog.stop - 1 = manager.lastSnapshotId.index
        by omega]
      cases found : manager.logicalLog.get? manager.lastSnapshotId.index with
      | none => rfl
      | some entry => exact flushes.anchored entry found
    refine { anchored := flushes.anchored, reaches := flushes.reaches, waits := waits,
             answered := ?_ }
    intro answer member
    rcases List.mem_cons.mp member with rfl | former
    · rw [isSnapshot]
      exact List.mem_cons_self
    · exact List.mem_cons_of_mem _ (flushes.answered answer former)
  · rw [if_neg atSnapshot]
    have inside := windowed.inside
    have opened : manager.firstLogIndex ≤ manager.lastSnapshotId.index + 1 := windowed.opened
    obtain ⟨entry, found, isFinal⟩ := flushes.reaches (show manager.firstLogIndex ≤ _ by omega)
    have sameLog : (manager.execute (.lastLogId ticket)).logicalLog = manager.logicalLog :=
      LogManager.logicalLog_execute _ _
    constructor
    · rw [sameLog]
      exact flushes.anchored
    · rw [sameLog, finalId_execute]
      exact flushes.reaches
    · refine waits_execute waits ⟨?_, fun _ => ?_⟩
      · change (ticket, manager.finalId) ∈ _
        rw [isFinal, isEnd entry found]
        exact List.mem_cons_self
      · change manager.finalId.term ≠ 0
        rw [isFinal]
        exact Nat.pos_iff_ne_zero.mp (sound.wellFormed.indexed _ _ found).2
    · exact fun answer member => List.mem_cons_of_mem _ (flushes.answered answer member)

/-! ### Runs -/

theorem Flushing.step {action : LogManager.Action P D C} {run after : FlushRun P D C}
    (flushing : Flushing run) (allowed : Allowed action run) (inOrder : EndsInOrder action run)
    (stepped : step action run = some after) : Flushing after := by
  obtain ⟨manager', moved, rfl⟩ := Option.map_eq_some_iff.mp stepped
  have durable := flushing.durable.step allowed.1 moved
  refine ⟨durable, flushing.windowed.step allowed.1 moved, fun works => ?_⟩
  have noError := (flushing.durable.toBooked.step allowed.1 moved).2.2 works
  have flushes := flushing.flushes noError
  have sound := (flushing.durable.soundLog noError).1
  have opened := flushing.windowed.opened
  cases action with
  | appendEntries context entries sees =>
      rcases LogManager.appendEntries_cases moved with ⟨status, rfl, _⟩ | ⟨rfl, rfl⟩ |
        ⟨front, back, remaining, resolved, isFront, isBack, accepted, rfl⟩
      · exact flushes.of_view rfl
      · have last := sound.last
        have prepared : LogManager.Prepared run.manager run.manager run.manager
            run.manager.logicalLog run.manager.logicalLog.stop [] := by
          refine ⟨?_, Or.inl ⟨rfl, rfl⟩⟩
          rw [List.length_nil, show run.manager.logicalLog.stop + 0 - 1 =
            run.manager.lastLogIndex by omega]
        have consecutive : LogManager.Consecutive 1 ([] : List (LogEntry P D)) :=
          fun _ _ found => absurd found (by simp)
        have appends := sound.toTracks.appends_duplicates allowed.1 consecutive
          (fun _ member => absurd member List.not_mem_nil)
        exact flushes.appended sound opened (le_refl _) prepared appends
          (fun before => absurd before (lt_irrefl _)) context
      · obtain ⟨base, cut, prepared, appends⟩ :=
          sound.toTracks.resolve_accepted opened allowed.1 isFront isBack accepted
        refine flushes.appended sound opened (le_refl _) prepared appends ?_ context
        rintro before rfl
        have same := resolved_of_nothing isFront accepted
        have isLast : run.manager.lastLogIndex = cut + 0 - 1 :=
          congrArg LogManager.lastLogIndex (same.symm.trans prepared.1)
        have last := sound.last
        have lower := appends.lower
        have positive := sound.wellFormed.positive
        omega
  | setSnapshot snapshot => exact flushes.setSnapshot sound allowed.2 moved
  | clearBufferredLogs => exact flushes.clearBufferredLogs sound moved
  | setAppliedId appliedId =>
      obtain rfl := Option.some.inj moved
      refine flushes.of_view ?_
      unfold LogManager.setAppliedId
      split <;> rfl
  | clearMemoryLogs id =>
      simp only [LogManager.step, LogManager.clearMemoryLogs] at moved
      split at moved
      · obtain rfl := Option.some.inj moved
        exact flushes.of_view rfl
      · contradiction
  | flushLastLogId ticket =>
      obtain rfl := Option.some.inj moved
      exact flushes.flushLastLogId flushing.windowed sound
  | readEntry index =>
      obtain rfl := Option.some.inj moved
      refine flushes.of_view ?_
      unfold LogManager.readEntry
      split_ifs <;> rfl
  | diskStart =>
      simp only [LogManager.step, LogManager.diskStart] at moved
      split at moved
      · rename_i isThread _
        obtain rfl := Option.some.inj moved
        refine flushes.of_view ?_
        simp [flushView, LogManager.pending, LogManager.startId, isThread, DiskThread.tasks]
      · contradiction
  | diskTake =>
      simp only [LogManager.step, LogManager.diskTake] at moved
      split at moved
      · rename_i isThread isQueue
        obtain rfl := Option.some.inj moved
        refine flushes.of_view ?_
        simp [flushView, LogManager.pending, LogManager.startId, isThread, isQueue,
          DiskThread.tasks]
      · contradiction
  | diskEnd =>
      simp only [LogManager.step, LogManager.diskEnd] at moved
      split at moved
      · rename_i isThread
        obtain rfl := Option.some.inj moved
        refine flushes.of_view ?_
        simp [flushView, LogManager.pending, LogManager.startId, isThread, DiskThread.tasks]
      · contradiction
  | diskFlush limit => exact flushes.diskFlush sound moved works
  | diskRun =>
      simp only [LogManager.step, LogManager.diskRun] at moved
      split at moved
      · rename_i isThread
        split at moved
        · obtain rfl := Option.some.inj moved
          refine flushes.of_view ?_
          simp [flushView, LogManager.pending, LogManager.startId, LogManager.finish, isThread,
            DiskThread.tasks]
        · contradiction
      · contradiction
  | diskTask outcome => exact flushes.diskTask sound moved works
  | diskFinish => exact flushes.diskFinish inOrder moved
  | runAsync position =>
      obtain ⟨done, status, _, rfl⟩ := LogManager.runAsync_cases moved
      exact flushes.of_view rfl

theorem initial_flushes {manager : LogManager P D C} (initial : LogManager.Initial manager) :
    Flushes manager [] := by
  obtain ⟨storage, configManager, dataLength, wellFormed, _, start⟩ := initial
  have positive := wellFormed.positive
  have below := storage.first_le_stop
  have loaded : Flushes (LogManager.init storage configManager dataLength : LogManager P D C)
      [] := by
    constructor
    · intro entry found
      have inside := (IndexedLog.get?_bounds found).1
      exact absurd positive (not_lt.mpr inside)
    · intro goes
      have goes : storage.first ≤ storage.stop - 1 := goes
      obtain ⟨entry, found⟩ := IndexedLog.exists_get? goes
        (show storage.stop - 1 < storage.stop by omega)
      have found : storage.getEntry (storage.stop - 1) = some entry := found
      refine ⟨entry, found, ?_⟩
      change (⟨storage.stop - 1, storage.getTerm (storage.stop - 1)⟩ : LogId) = entry.id
      rw [LogStorage.getTerm_of_getEntry found]
      ext
      · exact (wellFormed.indexed _ _ found).1.symm
      · rfl
    · trivial
    · exact fun answer member => absurd member List.not_mem_nil
  rcases start with ⟨_, rfl⟩ | ⟨snapshot, above, notOlder, stepped⟩
  · exact loaded
  · refine loaded.setSnapshot (LogManager.init_sound wellFormed configManager dataLength) ?_ stepped
    exact fun covered => absurd above (not_lt.mpr covered)

theorem flushing_of_reachable {run : FlushRun P D C}
    (reached : (system.restrict EndsInOrder).Reachable run) : Flushing run := by
  induction reached with
  | start initial =>
      obtain ⟨started, none⟩ := initial
      refine ⟨LogManager.Initial.durable started, LogManager.Initial.windowed started,
        fun _ => ?_⟩
      rw [none]
      exact initial_flushes started
  | next _ allowed stepped ih => exact ih.step allowed.1 allowed.2 stepped

omit [DecidableEq P] in
theorem Flushes.right {run : FlushRun P D C} (flushes : Flushes run.manager run.expected) :
    AnswersRight run := by
  refine ⟨flushes.answered, ?_⟩
  intro thread ticket isThread noBatch isTask
  have waits := flushes.waits
  rw [LogManager.pending_thread isThread, noBatch, isTask] at waits
  unfold LogManager.startId at waits
  rw [isThread] at waits
  exact waits.1

/-- While no iteration ends with an id before `_disk_id`, a flush answers with the end of
the log. -/
theorem flushedLastLogId_right {run : FlushRun P D C}
    (reached : (system.restrict EndsInOrder).Reachable run)
    (works : run.manager.hasError = false) : AnswersRight run :=
  ((flushing_of_reachable reached).flushes works).right

def dataEntry (index term : Nat) : LogEntry Nat Nat :=
  { type := .data, id := { index := index, term := term }, data := 0 }

def uncommittedLog : LogManager Nat Nat Nat :=
  LogManager.init { first := 1, entries := [dataEntry 1 1, dataEntry 2 3] } .init (fun _ => 1)

theorem uncommittedLog_storage :
    uncommittedLog.storage.WellFormed ∧ LogManager.SortedAbove 0 uncommittedLog.storage := by
  have entries : ∀ index entry, uncommittedLog.storage.getEntry index = some entry →
      index = 1 ∧ entry = dataEntry 1 1 ∨ index = 2 ∧ entry = dataEntry 2 3 := by
    intro index entry found
    unfold LogStorage.getEntry IndexedLog.get? at found
    match index with
    | 0 => simp [uncommittedLog, LogManager.init] at found
    | 1 => exact Or.inl ⟨rfl, (Option.some.inj found).symm⟩
    | 2 => exact Or.inr ⟨rfl, (Option.some.inj found).symm⟩
    | index + 3 => simp [uncommittedLog, LogManager.init] at found
  refine ⟨⟨by decide, ?_⟩, ?_⟩
  · intro index entry found
    rcases entries index entry found with ⟨rfl, rfl⟩ | ⟨rfl, rfl⟩
    · decide
    · decide
  · intro former later entry entry' _ below found found'
    rcases entries former entry found with ⟨rfl, rfl⟩ | ⟨rfl, rfl⟩
    · rcases entries later entry' found' with ⟨rfl, rfl⟩ | ⟨rfl, rfl⟩
      · decide
      · decide
    · rcases entries later entry' found' with ⟨rfl, rfl⟩ | ⟨rfl, rfl⟩
      · omega
      · decide

theorem uncommittedLog_initial : LogManager.Initial uncommittedLog :=
  ⟨_, .init, _, uncommittedLog_storage.1, uncommittedLog_storage.2, Or.inl ⟨rfl, rfl⟩⟩

theorem conflicting_appendable : uncommittedLog.Appendable [dataEntry 2 2] := by
  constructor
  · refine Or.inr ⟨2, by decide, ?_⟩
    intro position entry found
    match position with
    | 0 => exact Option.some.inj found ▸ rfl
    | position + 1 => simp at found
  · intro entry member
    rw [List.mem_singleton.mp member]
    decide
  · simp
  · intro entry member found read same
    rw [List.mem_singleton.mp member] at read same
    have isFound : found = dataEntry 2 3 := (Option.some.inj read).symm
    rw [isFound] at same
    exact absurd same (by decide)
  · intro front isFront
    obtain rfl := Option.some.inj isFront
    decide
  · exact fun entry _ _ => Nat.zero_le _

theorem flushedLastLogId_stale :
    ∃ run : FlushRun Nat Nat Nat, system.Reachable run ∧ run.manager.hasError = false ∧
      ¬ AnswersRight run := by
  have follows : ∃ run : FlushRun Nat Nat Nat, system.Follows
      [.appendEntries 0 [dataEntry 2 2] false, .diskStart, .diskTake, .diskTask .done, .diskTake,
        .diskTask .done, .diskEnd, .diskFlush 1, .diskRun, .diskFinish, .flushLastLogId 7,
        .diskStart, .diskTake, .diskTask .done]
      { manager := uncommittedLog } run ∧ run.manager.hasError = false ∧
      run.manager.lastLogIds = [(7, { index := 2, term := 3 })] ∧
      run.expected = [(7, { index := 2, term := 2 })] := by
    exact ⟨_, ⟨⟨conflicting_appendable, trivial⟩, _, rfl, ⟨trivial, trivial⟩, _, rfl,
      ⟨trivial, trivial⟩, _, rfl, ⟨trivial, trivial⟩, _, rfl, ⟨trivial, trivial⟩, _, rfl,
      ⟨trivial, trivial⟩, _, rfl, ⟨trivial, trivial⟩, _, rfl, ⟨trivial, trivial⟩, _, rfl,
      ⟨trivial, trivial⟩, _, rfl, ⟨trivial, trivial⟩, _, rfl,
      ⟨trivial, fun _ => List.not_mem_nil⟩, _, rfl, ⟨trivial, trivial⟩, _, rfl,
      ⟨trivial, trivial⟩, _, rfl, ⟨trivial, trivial⟩, _, rfl, rfl⟩, rfl, rfl, rfl⟩
  obtain ⟨run, follows, works, answers, expected⟩ := follows
  refine ⟨run, .follows _ (.start ⟨uncommittedLog_initial, rfl⟩) follows, works, fun right => ?_⟩
  have given := right.answered (7, { index := 2, term := 3 }) (by rw [answers]; simp)
  rw [expected] at given
  exact absurd given (by decide)

theorem flushedLastLogId_right_append :
    ∃ run : FlushRun Nat Nat Nat,
      run.manager.lastLogIds = [(5, { index := 1, term := 1 })] ∧ AnswersRight run := by
  have follows : ∃ run : FlushRun Nat Nat Nat, (system.restrict EndsInOrder).Follows
      [.appendEntries 0 [LogManager.firstEntry] false, .flushLastLogId 5, .diskStart, .diskTake,
        .diskTask .done, .diskTake, .diskFlush 1, .diskRun, .diskTask .done]
      { manager := LogManager.freshManager } run ∧ run.manager.hasError = false ∧
      run.manager.lastLogIds = [(5, { index := 1, term := 1 })] := by
    exact ⟨_, ⟨⟨⟨LogManager.firstEntry_appendable (Or.inl rfl) rfl, trivial⟩, trivial⟩, _, rfl,
      ⟨⟨trivial, fun _ => List.not_mem_nil⟩, trivial⟩, _, rfl,
      ⟨⟨trivial, trivial⟩, trivial⟩, _, rfl, ⟨⟨trivial, trivial⟩, trivial⟩, _, rfl,
      ⟨⟨trivial, trivial⟩, trivial⟩, _, rfl, ⟨⟨trivial, trivial⟩, trivial⟩, _, rfl,
      ⟨⟨trivial, trivial⟩, trivial⟩, _, rfl, ⟨⟨trivial, trivial⟩, trivial⟩, _, rfl,
      ⟨⟨trivial, trivial⟩, trivial⟩, _, rfl, rfl⟩, rfl, rfl⟩
  obtain ⟨run, follows, works, answers⟩ := follows
  have reached : (system.restrict EndsInOrder).Reachable run :=
    .follows _ (.start ⟨LogManager.freshManager_initial, rfl⟩) follows
  exact ⟨run, answers, flushedLastLogId_right reached works⟩

end FlushRun

end QuorumKit
