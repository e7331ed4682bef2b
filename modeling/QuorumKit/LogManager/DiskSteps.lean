/-
The disk thread performs the pending tasks.

Its steps leave the log as it is: what it performs moves from the pending tasks to
the storage.  A flush writes a batch of appends at once, which comes to the same as
one after the other.
-/

import QuorumKit.LogManager.SoundSteps

namespace QuorumKit

variable {P D C : Type}

namespace LogManager

variable {low : Nat} {manager manager' : LogManager P D C} {log : LogStorage P D}

theorem Sound.reframe (sound : Sound low manager log) (core : manager'.core = manager.core)
    (ids : manager'.snapshotIds = manager.snapshotIds)
    (applied : manager'.appliedId = manager.appliedId)
    (ready : ∀ thread, manager'.diskThread = some thread → ∀ done ∈ thread.ready,
      Covered manager.appliedId.index manager.storage done) :
    Sound low manager' log := by
  have tracks := sound.toTracks.frame core ids (le_of_eq (congrArg LogId.index applied.symm))
  simp only [LogManager.core, Prod.mk.injEq] at core
  obtain ⟨_, _, _, _, storage, pending⟩ := core
  refine { tracks with covered := ?_, ready := ?_ }
  · rw [applied, storage, pending]
    exact sound.covered
  · rw [applied, storage]
    exact ready

theorem Sound.diskStart (sound : Sound low manager log)
    (stepped : manager.diskStart = some manager') : Sound low manager' log := by
  unfold LogManager.diskStart at stepped
  split at stepped
  · rename_i isThread _
    obtain rfl := Option.some.inj stepped
    refine sound.reframe ?_ rfl rfl ?_
    · simp [core, pending, isThread, DiskThread.tasks]
    · intro thread started done member
      obtain rfl := Option.some.inj started
      contradiction
  · contradiction

theorem Sound.diskTake (sound : Sound low manager log)
    (stepped : manager.diskTake = some manager') : Sound low manager' log := by
  unfold LogManager.diskTake at stepped
  split at stepped
  · rename_i isThread isQueue
    obtain rfl := Option.some.inj stepped
    refine sound.reframe ?_ rfl rfl ?_
    · simp [core, pending, isThread, isQueue, DiskThread.tasks]
    · intro thread took done member
      obtain rfl := Option.some.inj took
      contradiction
  · contradiction

theorem Sound.diskEnd (sound : Sound low manager log)
    (stepped : manager.diskEnd = some manager') : Sound low manager' log := by
  unfold LogManager.diskEnd at stepped
  split at stepped
  · rename_i isThread
    obtain rfl := Option.some.inj stepped
    refine sound.reframe ?_ rfl rfl ?_
    · simp [core, pending, isThread, DiskThread.tasks]
    · intro thread ended done member
      obtain rfl := Option.some.inj ended
      contradiction
  · contradiction

theorem setDiskId_frame (manager : LogManager P D C) (diskId : LogId) :
    (manager.setDiskId diskId).core = manager.core ∧
      (manager.setDiskId diskId).snapshotIds = manager.snapshotIds ∧
      (manager.setDiskId diskId).appliedId = manager.appliedId ∧
      (manager.setDiskId diskId).diskThread = manager.diskThread := by
  unfold setDiskId
  split <;> exact ⟨rfl, rfl, rfl, rfl⟩

theorem Sound.diskFinish (sound : Sound low manager log)
    (stepped : manager.diskFinish = some manager') : Sound low manager' log := by
  unfold LogManager.diskFinish at stepped
  split at stepped
  · rename_i lastId isThread
    obtain rfl := Option.some.inj stepped
    obtain ⟨core, ids, applied, thread⟩ :=
      setDiskId_frame ({ manager with diskThread := none } : LogManager P D C) lastId
    refine sound.reframe (core.trans ?_) ids applied ?_
    · simp [LogManager.core, pending, isThread, DiskThread.tasks]
    · intro other isOther
      rw [thread] at isOther
      contradiction
  · contradiction

theorem Sound.diskRun (sound : Sound low manager log)
    (stepped : manager.diskRun = some manager') : Sound low manager' log := by
  unfold LogManager.diskRun at stepped
  split at stepped
  · rename_i thread isThread
    split at stepped
    · rename_i done rest isReady
      obtain rfl := Option.some.inj stepped
      refine sound.reframe ?_ rfl rfl ?_
      · simp [core, pending, finish, isThread, DiskThread.tasks]
      · intro other isOther done' member
        obtain rfl := Option.some.inj isOther
        refine sound.ready thread isThread done' ?_
        rw [isReady]
        exact List.mem_cons_of_mem _ member
    · contradiction
  · contradiction

theorem Sound.performed {task : DiskTask P D C} {rest : List (DiskTask P D C)}
    (sound : Sound low manager log) (isPending : manager.pending = task :: rest)
    (noError : manager'.hasError = false)
    (window : manager'.firstLogIndex = manager.firstLogIndex ∧
      manager'.lastLogIndex = manager.lastLogIndex ∧
      manager'.logsInMemory = manager.logsInMemory)
    (storage : manager'.storage = task.apply manager.storage)
    (pending : manager'.pending = rest)
    (ids : manager'.snapshotIds = manager.snapshotIds)
    (applied : manager'.appliedId = manager.appliedId)
    (ready : ∀ thread, manager'.diskThread = some thread → thread.ready = []) :
    Sound low manager' log ∧ task.Wanted manager.appliedId.index manager'.storage := by
  have drains := sound.drains
  have covered := sound.covered
  rw [isPending] at drains covered
  simp only [LogManager.snapshotIds, Prod.mk.injEq] at ids
  obtain ⟨snapshot, virtual⟩ := ids
  obtain ⟨first, last, memory⟩ := window
  have holds : Holds low manager' log :=
    { noError := noError
      first := first.trans sound.first
      last := by rw [last]; exact sound.last
      wellFormed := sound.wellFormed
      memory := by rw [memory]; exact sound.memory
      drains := by rw [storage, pending]; exact drains.2
      settled := by
        intro index lower inside outside other member
        rw [memory] at outside
        rw [pending] at member
        refine sound.settled index lower inside outside other ?_
        rw [isPending]
        exact List.mem_cons_of_mem _ member }
  refine ⟨?_, by rw [storage]; exact covered.1⟩
  exact
    { holds with
      snapshotInside := by rw [snapshot]; exact sound.snapshotInside
      snapshotTerm := by rw [snapshot]; exact sound.snapshotTerm
      virtualBelow := by rw [virtual]; exact sound.virtualBelow
      applied := by rw [snapshot, applied]; exact sound.applied
      covered := by rw [applied, storage, pending]; exact covered.2
      ready := by
        intro thread isThread done member
        rw [ready thread isThread] at member
        contradiction }

theorem drains_batch {batch : List (StableClosure P D C)} {rest : List (DiskTask P D C)}
    {applied : Nat} : ∀ {storage : LogStorage P D},
    Pending.Drains DiskTask.apply DiskTask.Enabled storage
      (batch.map DiskTask.append ++ rest) log →
    Pending.Ensures DiskTask.apply (DiskTask.Wanted applied) storage
      (batch.map DiskTask.append ++ rest) →
    storage.Fits (batch.flatMap StableClosure.entries) ∧
      Pending.Drains DiskTask.apply DiskTask.Enabled
        (storage.append (batch.flatMap StableClosure.entries)) rest log ∧
      Pending.Ensures DiskTask.apply (DiskTask.Wanted applied)
        (storage.append (batch.flatMap StableClosure.entries)) rest ∧
      ∀ done ∈ batch, Covered applied
        (storage.append (batch.flatMap StableClosure.entries)) done := by
  induction batch with
  | nil =>
      intro storage drains ensures
      rw [List.flatMap_nil, IndexedLog.append_nil]
      exact ⟨fun _ _ found => absurd found (by simp), drains, ensures,
        fun _ member => absurd member List.not_mem_nil⟩
  | cons head batch ih =>
      intro storage drains ensures
      obtain ⟨enabled, laterDrains⟩ := drains
      obtain ⟨wanted, laterEnsures⟩ := ensures
      have enabled : storage.Fits head.entries := enabled
      have wanted : Covered applied (storage.append head.entries) head := wanted
      obtain ⟨fits, drained, ensured, covered⟩ := ih laterDrains laterEnsures
      rw [DiskTask.apply] at drained ensured covered fits
      rw [IndexedLog.append_append] at drained ensured covered
      rw [List.flatMap_cons]
      refine ⟨?_, drained, ensured, ?_⟩
      · intro position entry found
        by_cases early : position < head.entries.length
        · rw [List.getElem?_append_left early] at found
          exact enabled position entry found
        · rw [List.getElem?_append_right (not_lt.mp early)] at found
          have placed := fits _ _ found
          rw [IndexedLog.append_stop] at placed
          exact ⟨by omega, placed.2⟩
      · intro done member
        rcases List.mem_cons.mp member with isHead | later
        · rw [isHead, ← IndexedLog.append_append]
          exact wanted.append _
        · exact covered done later

theorem pending_thread {thread : DiskThread P D C} (isThread : manager.diskThread = some thread) :
    manager.pending =
      thread.batch.map DiskTask.append ++ (thread.task.toList ++ manager.diskQueue) := by
  simp [pending, isThread, DiskThread.tasks]

theorem appendToStorage_works (toAppend : List (LogEntry P D)) (lastId : LogId) (limit : Nat)
    (noError : manager.hasError = false)
    (works : (manager.appendToStorage toAppend lastId limit).2.hasError = false) :
    (manager.appendToStorage toAppend lastId limit).2 =
      { manager with storage := manager.storage.append toAppend } := by
  unfold appendToStorage LogStorage.appendEntries at works ⊢
  simp only [noError, Bool.false_eq_true, if_false] at works ⊢
  cases isFront : toAppend.head? with
  | none =>
      rw [List.head?_eq_none_iff] at isFront
      subst isFront
      simp
  | some front =>
      rw [isFront] at works
      simp only at works ⊢
      by_cases fits : front.id.index = manager.storage.stop
      · simp only [fits, if_true] at works ⊢
        by_cases all : (toAppend.take limit).length = toAppend.length
        · have whole : toAppend.take limit = toAppend := by
            rw [List.length_take] at all
            exact List.take_of_length_le (by omega)
          rw [whole]
          simp
        · simp only [ne_eq, all, not_false_eq_true, if_true, reportError] at works
          simp at works
      · have nonempty : toAppend ≠ [] := by
          rintro rfl
          contradiction
        have some' : 0 ≠ toAppend.length := fun zero => nonempty (List.length_eq_zero_iff.mp zero.symm)
        simp only [fits, if_false, ne_eq, some', not_false_eq_true, if_true, reportError] at works
        simp at works

theorem appendToStorage_enough {toAppend : List (LogEntry P D)} {lastId : LogId} {limit : Nat}
    (noError : manager.hasError = false) (fits : manager.storage.Fits toAppend)
    (enough : toAppend.length ≤ limit) :
    (manager.appendToStorage toAppend lastId limit).2.hasError = false := by
  unfold appendToStorage LogStorage.appendEntries
  simp only [noError, Bool.false_eq_true, if_false]
  cases isFront : toAppend.head? with
  | none =>
      rw [List.head?_eq_none_iff] at isFront
      subst isFront
      simp
  | some front =>
      have atStop : front.id.index = manager.storage.stop := by
        rw [List.head?_eq_getElem?] at isFront
        exact (fits 0 front isFront).1
      simp only [atStop, if_true, List.take_of_length_le enough]
      simp

theorem Sound.diskFlush {limit : Nat} (sound : Sound low manager log)
    (stepped : manager.diskFlush limit = some manager') (works : manager'.hasError = false) :
    Sound low manager' log := by
  unfold LogManager.diskFlush at stepped
  split at stepped
  · rename_i thread isThread
    split at stepped
    · rename_i flushes
      have drains := sound.drains
      have covered := sound.covered
      rw [pending_thread isThread] at drains covered
      obtain ⟨_, drained, ensured, batchCovered⟩ := drains_batch drains covered
      have written := appendToStorage_works thread.toAppend thread.lastId limit sound.noError
      rcases result : manager.appendToStorage thread.toAppend thread.lastId limit with
        ⟨lastId, after⟩
      rw [result] at stepped written
      obtain rfl := Option.some.inj stepped
      obtain rfl := written works
      exact
        { noError := sound.noError
          first := sound.first
          last := sound.last
          wellFormed := sound.wellFormed
          memory := sound.memory
          drains := drained
          settled := by
            intro index lower inside outside other member
            refine sound.settled index lower inside outside other ?_
            rw [pending_thread isThread]
            exact List.mem_append_right _ member
          snapshotInside := sound.snapshotInside
          snapshotTerm := sound.snapshotTerm
          virtualBelow := sound.virtualBelow
          applied := sound.applied
          covered := ensured
          ready := by
            intro other isOther done member
            obtain rfl := Option.some.inj isOther
            obtain ⟨original, inBatch, rfl⟩ := List.mem_map.mp member
            exact batchCovered original inBatch }
    · contradiction
  · contradiction

/-- The empty closures that `disk_thread` runs at once. -/
def EmptyTask (manager : LogManager P D C) (done : StableClosure P D C) : Prop :=
  ∃ thread, manager.diskThread = some thread ∧ thread.task = some (.append done) ∧
    done.entries = []

theorem mustFlush_of_task {thread : DiskThread P D C} {task : DiskTask P D C}
    (isTask : thread.task = some task) (notBatched : task.batched = false) :
    manager.mustFlush thread = true := by
  unfold mustFlush
  rw [isTask]
  simp [notBatched]

inductive Performs (manager : LogManager P D C) (thread : DiskThread P D C)
    (outcome : DiskOutcome P D) :
    DiskTask P D C → LogManager P D C → DiskThread P D C → Prop
  | empty {done : StableClosure P D C} (none : done.entries = []) :
      Performs manager thread outcome (.append done) (manager.finish done 0) thread
  | lastLogId (ticket : Nat) :
      Performs manager thread outcome (.lastLogId ticket)
        { manager with lastLogIds := (ticket, thread.lastId) :: manager.lastLogIds } thread
  | truncatePrefix (firstIndexKept : Nat) :
      Performs manager thread outcome (.truncatePrefix firstIndexKept)
        (manager.operate (manager.storage.truncatePrefix firstIndexKept) outcome) thread
  | truncateSuffix (lastIndexKept lastTermKept : Nat) (isDone : outcome = .done) :
      Performs manager thread outcome (.truncateSuffix lastIndexKept lastTermKept)
        (manager.operate (manager.storage.truncateSuffix lastIndexKept) outcome)
        { thread with lastId := { index := lastIndexKept, term := lastTermKept } }
  | truncateFailed (lastIndexKept lastTermKept : Nat) (left : LogStorage P D)
      (failed : outcome = .failed left) :
      Performs manager thread outcome (.truncateSuffix lastIndexKept lastTermKept)
        (manager.operate (manager.storage.truncateSuffix lastIndexKept) outcome) thread
  | reset (nextLogIndex : Nat) :
      Performs manager thread outcome (.reset nextLogIndex)
        (manager.operate (LogStorage.reset nextLogIndex) outcome) thread

theorem performs_of_performed {thread thread' : DiskThread P D C} {task : DiskTask P D C}
    {outcome : DiskOutcome P D} (notBatched : task.batched = false)
    (performed : manager.performTask thread outcome task = some (manager', thread')) :
    Performs manager thread outcome task manager' thread' := by
  cases task with
  | append done =>
      have none : done.entries = [] := by simpa [DiskTask.batched] using notBatched
      simp only [performTask, none, List.isEmpty_nil, if_true, Option.some.injEq,
        Prod.mk.injEq] at performed
      obtain ⟨rfl, rfl⟩ := performed
      exact .empty none
  | lastLogId ticket =>
      simp only [performTask] at performed
      split at performed
      · contradiction
      · obtain ⟨rfl, rfl⟩ := Prod.mk.inj (Option.some.inj performed)
        exact .lastLogId ticket
  | truncatePrefix firstIndexKept =>
      obtain ⟨rfl, rfl⟩ := Prod.mk.inj (Option.some.inj performed)
      exact .truncatePrefix firstIndexKept
  | truncateSuffix lastIndexKept lastTermKept =>
      simp only [performTask] at performed
      cases outcome with
      | done =>
          simp only at performed
          split at performed
          · contradiction
          · obtain ⟨rfl, rfl⟩ := Prod.mk.inj (Option.some.inj performed)
            exact .truncateSuffix lastIndexKept lastTermKept rfl
      | failed left =>
          obtain ⟨rfl, rfl⟩ := Prod.mk.inj (Option.some.inj performed)
          exact .truncateFailed lastIndexKept lastTermKept left rfl
  | reset nextLogIndex =>
      obtain ⟨rfl, rfl⟩ := Prod.mk.inj (Option.some.inj performed)
      exact .reset nextLogIndex

/-- Entries go to the batch; every other task is performed, when the batch has been flushed. -/
inductive TakesTask (manager : LogManager P D C) (outcome : DiskOutcome P D) :
    LogManager P D C → Prop
  | batched {thread : DiskThread P D C} {done : StableClosure P D C}
      (isThread : manager.diskThread = some thread) (isTask : thread.task = some (.append done))
      (noneReady : thread.ready = []) (nonempty : done.entries ≠ []) :
      TakesTask manager outcome
        { manager with
          diskThread := some { thread with task := none, batch := thread.batch ++ [done] } }
  | performed {thread thread' : DiskThread P D C} {task : DiskTask P D C}
      {after : LogManager P D C} (isThread : manager.diskThread = some thread)
      (isTask : thread.task = some task) (noneReady : thread.ready = [])
      (isPending : manager.pending = task :: manager.diskQueue)
      (noBatch : thread.batch = []) (notBatched : task.batched = false)
      (performs : Performs manager { thread with task := none } outcome task after thread') :
      TakesTask manager outcome { after with diskThread := some thread' }

theorem takesTask_of_stepped {outcome : DiskOutcome P D}
    (stepped : manager.diskTask outcome = some manager') : TakesTask manager outcome manager' := by
  unfold LogManager.diskTask at stepped
  split at stepped
  · rename_i thread isThread
    split at stepped
    · rename_i task isTask
      split at stepped
      · rename_i goesOn
        obtain ⟨noneReady, flushed⟩ := goesOn
        obtain ⟨⟨after, thread'⟩, performed, isAfter⟩ := Option.map_eq_some_iff.mp stepped
        obtain rfl : { after with diskThread := some thread' } = manager' := isAfter
        cases isBatched : task.batched with
        | true =>
            cases task with
            | append done =>
                have nonempty : done.entries.isEmpty = false := by
                  simpa [DiskTask.batched] using isBatched
                simp only [performTask, nonempty, Bool.false_eq_true, if_false,
                  Option.some.injEq, Prod.mk.injEq] at performed
                obtain ⟨rfl, rfl⟩ := performed
                exact .batched isThread isTask noneReady (by simpa using nonempty)
            | lastLogId ticket => contradiction
            | truncatePrefix firstIndexKept => contradiction
            | truncateSuffix lastIndexKept lastTermKept => contradiction
            | reset nextLogIndex => contradiction
        | false =>
            have noBatch : thread.batch = [] := by
              rcases flushed with empty | idle
              · exact empty
              · exact absurd (mustFlush_of_task isTask isBatched) idle
            have isPending : manager.pending = task :: manager.diskQueue := by
              rw [pending_thread isThread, noBatch, isTask]
              rfl
            exact .performed isThread isTask noneReady isPending noBatch isBatched
              (performs_of_performed isBatched performed)
      · contradiction
    · contradiction
  · contradiction

theorem EmptyTask.isTask {thread : DiskThread P D C} {task : DiskTask P D C}
    {done : StableClosure P D C} (empty : manager.EmptyTask done)
    (isThread : manager.diskThread = some thread) (isTask : thread.task = some task) :
    task = .append done ∧ done.entries = [] := by
  obtain ⟨found, isFound, otherTask, none⟩ := empty
  rw [isThread] at isFound
  obtain rfl := Option.some.inj isFound
  rw [isTask] at otherTask
  exact ⟨Option.some.inj otherTask, none⟩

theorem Performs.works {thread thread' : DiskThread P D C} {task : DiskTask P D C}
    {outcome : DiskOutcome P D} (performs : Performs manager thread outcome task manager' thread')
    (works : manager'.hasError = false) :
    (manager'.firstLogIndex = manager.firstLogIndex ∧
      manager'.lastLogIndex = manager.lastLogIndex ∧
      manager'.logsInMemory = manager.logsInMemory) ∧
      manager'.storage = task.apply manager.storage ∧
      manager'.diskQueue = manager.diskQueue ∧
      manager'.snapshotIds = manager.snapshotIds ∧ manager'.appliedId = manager.appliedId ∧
      thread'.batch = thread.batch ∧ thread'.task = thread.task ∧ thread'.ready = thread.ready := by
  have operated {storage : LogStorage P D}
      (works : (manager.operate storage outcome).hasError = false) :
      manager.operate storage outcome = { manager with storage := storage } := by
    cases outcome with
    | done => rfl
    | failed left => simp [operate, reportError] at works
  cases performs with
  | empty none =>
      refine ⟨⟨rfl, rfl, rfl⟩, ?_, rfl, rfl, rfl, rfl, rfl, rfl⟩
      rw [DiskTask.apply, none, IndexedLog.append_nil]
      rfl
  | lastLogId => exact ⟨⟨rfl, rfl, rfl⟩, rfl, rfl, rfl, rfl, rfl, rfl, rfl⟩
  | truncatePrefix | truncateSuffix | truncateFailed | reset =>
      rw [operated works]
      exact ⟨⟨rfl, rfl, rfl⟩, rfl, rfl, rfl, rfl, rfl, rfl, rfl⟩

theorem Sound.diskTask {outcome : DiskOutcome P D} (sound : Sound low manager log)
    (stepped : manager.diskTask outcome = some manager') (works : manager'.hasError = false) :
    Sound low manager' log ∧
      ∀ done, manager.EmptyTask done → Covered manager.appliedId.index manager'.storage done := by
  cases takesTask_of_stepped stepped with
  | batched isThread isTask noneReady nonempty =>
      constructor
      · refine sound.reframe ?_ rfl rfl ?_
        · simp [core, pending, isThread, isTask, DiskThread.tasks]
        · intro other isOther done member
          obtain rfl := Option.some.inj isOther
          exact sound.ready _ isThread done member
      · intro other empty
        obtain ⟨same, none⟩ := empty.isTask isThread isTask
        injection same with same
        exact absurd (same ▸ none) nonempty
  | performed isThread isTask noneReady isPending noBatch notBatched performs =>
      obtain ⟨window, storage, queue, ids, applied, batch, noTask, ready⟩ := performs.works works
      obtain ⟨after', wanted⟩ := sound.performed isPending works window storage
        (by
          rw [pending_thread rfl]
          simp only [batch, noBatch, noTask, queue]
          rfl) ids applied
        (by
          intro other isOther
          obtain rfl := Option.some.inj isOther
          rw [ready]
          exact noneReady)
      refine ⟨after', ?_⟩
      intro done empty
      obtain ⟨same, _⟩ := empty.isTask isThread isTask
      subst same
      exact wanted

def ClearsSettled (low : Nat) (manager : LogManager P D C) (id : LogId) : Prop :=
  ∀ entry ∈ manager.entriesToClear id, entry.id.index < low ∨
    ∀ task ∈ manager.pending, ¬ task.Touches entry.id.index

theorem entriesToClear_getElem? (manager : LogManager P D C) (id : LogId) {position : Nat}
    (inside : position < (manager.entriesToClear id).length) :
    (manager.entriesToClear id)[position]? = manager.logsInMemory[position]? := by
  have whole : manager.entriesToClear id <+: manager.logsInMemory :=
    (List.takeWhile_prefix _).trans (List.take_prefix _ _)
  obtain ⟨rest, split⟩ := whole
  rw [← split, List.getElem?_append_left inside]

theorem Sound.clearMemoryLogs {id : LogId} (sound : Sound low manager log)
    (clears : ClearsSettled low manager id)
    (stepped : manager.clearMemoryLogs id = some manager') : Sound low manager' log := by
  unfold LogManager.clearMemoryLogs at stepped
  split at stepped
  · obtain rfl := Option.some.inj stepped
    have settled : ∀ index, low ≤ index → log.first ≤ index →
        index + (manager.logsInMemory.drop (manager.entriesToClear id).length).length < log.stop →
        ∀ task ∈ manager.pending, ¬ task.Touches index := by
      intro index lower inside outside
      by_cases former : index + manager.logsInMemory.length < log.stop
      · exact sound.settled index lower inside former
      · -- the entry has just been dropped from memory
        obtain ⟨before, entries⟩ := sound.memory
        have total : log.entries.length = before.length + manager.logsInMemory.length := by
          rw [← entries, List.length_append]
        have stop : log.stop = log.first + before.length + manager.logsInMemory.length := by
          rw [IndexedLog.stop, total]
          omega
        rw [List.length_drop] at outside
        have cleared : index + manager.logsInMemory.length - log.stop <
            (manager.entriesToClear id).length := by omega
        have found := entriesToClear_getElem? manager id cleared
        have isEntry := List.getElem?_eq_getElem cleared
        rw [isEntry] at found
        have placed := sound.toHolds.memory_indexed found.symm
        have atIndex : (manager.entriesToClear id)[index + manager.logsInMemory.length -
            log.stop].id.index = index := by omega
        rcases clears _ (List.mem_of_getElem? isEntry) with below | untouched
        · omega
        · rw [← atIndex]
          exact untouched
    exact
      { sound with
        memory := (List.drop_suffix _ _).trans sound.memory
        settled := settled }
  · contradiction

end LogManager

end QuorumKit
