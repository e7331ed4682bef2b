/-
The closures that the disk thread of a log manager holds.

A closure is held from the call of `append_entries` that queues it until it is run.
A step that appends nothing takes tasks from the front of the queue, adds no
closure, brings no entry into memory and moves the last index back only when a
snapshot resets the log.
-/

import QuorumKit.LogManager.StableClosure

namespace QuorumKit

variable {P D C : Type}

def DiskTask.closure? : DiskTask P D C → Option (StableClosure P D C)
  | .append done => some done
  | _ => none

def DiskTask.closures (tasks : List (DiskTask P D C)) : List (StableClosure P D C) :=
  tasks.filterMap DiskTask.closure?

theorem DiskTask.mem_closures {tasks : List (DiskTask P D C)} {done : StableClosure P D C} :
    done ∈ DiskTask.closures tasks ↔ .append done ∈ tasks := by
  unfold DiskTask.closures
  rw [List.mem_filterMap]
  constructor
  · rintro ⟨task, member, isDone⟩
    cases task with
    | append other => exact Option.some.inj isDone ▸ member
    | lastLogId ticket => contradiction
    | truncatePrefix firstIndexKept => contradiction
    | truncateSuffix lastIndexKept lastTermKept => contradiction
    | reset nextLogIndex => contradiction
  · exact fun member => ⟨_, member, rfl⟩

def StableClosure.written (done : StableClosure P D C) : StableClosure P D C :=
  { done with entries := [] }

namespace LogManager

def readyClosures (manager : LogManager P D C) : List (StableClosure P D C) :=
  manager.diskThread.elim [] DiskThread.ready

def held (manager : LogManager P D C) : List (StableClosure P D C) :=
  manager.readyClosures ++ DiskTask.closures manager.pending

/-- `set_snapshot` finds another term at the index of the snapshot. -/
def Resets (manager : LogManager P D C) (snapshot : SnapshotMeta P) : Prop :=
  manager.lastSnapshotId.index < snapshot.lastIncludedIndex ∧
    manager.getTerm snapshot.lastIncludedIndex ≠ 0 ∧
    manager.getTerm snapshot.lastIncludedIndex ≠ snapshot.lastIncludedTerm

structure Serves (action : Action P D C) (manager manager' : LogManager P D C) : Prop where
  queue : ∃ performed rest added, manager.pending = performed ++ rest ∧
    manager'.pending = rest ++ added ∧ DiskTask.closures added = [] ∧
    ∀ ticket, .lastLogId ticket ∈ added → action = .flushLastLogId ticket
  ready : ∀ done ∈ manager'.readyClosures, done ∈ manager.readyClosures ∨
    (∃ limit, action = .diskFlush limit) ∧
      ∃ former ∈ DiskTask.closures manager.pending, done = former.written
  memory : ∀ entry ∈ manager'.logsInMemory, entry ∈ manager.logsInMemory
  snapshot : manager.lastSnapshotId.index ≤ manager'.lastSnapshotId.index
  last : manager.lastLogIndex ≤ manager'.lastLogIndex ∨ ∃ snapshot, action = .setSnapshot snapshot ∧
    manager.Resets snapshot ∧ manager'.logsInMemory = [] ∧
    manager'.lastLogIndex = snapshot.lastIncludedIndex
  answers : ∀ ticket id, (ticket, id) ∈ manager'.lastLogIds →
    (ticket, id) ∈ manager.lastLogIds ∨
      (action = .flushLastLogId ticket ∧ manager.lastLogIndex = manager.lastSnapshotId.index) ∨
      (manager'.readyClosures = [] ∧ manager.pending = .lastLogId ticket :: manager'.pending)
  async : ∀ item ∈ manager'.asyncClosures, item ∈ manager.asyncClosures
  storage : manager'.storage = manager.storage ∨ manager'.readyClosures = [] ∨
    ∃ limit, action = .diskFlush limit

variable {manager manager' : LogManager P D C} {action : Action P D C}

def callerSide (manager : LogManager P D C) :
    List (LogEntry P D) × LogId × Nat × List (StableClosure P D C × Int) :=
  (manager.logsInMemory, manager.lastSnapshotId, manager.lastLogIndex, manager.asyncClosures)

theorem Serves.of_taken (performed : List (DiskTask P D C))
    (side : manager'.callerSide = manager.callerSide)
    (pending : manager.pending = performed ++ manager'.pending)
    (ready : ∀ done ∈ manager'.readyClosures, done ∈ manager.readyClosures ∨
      (∃ limit, action = .diskFlush limit) ∧
        ∃ former ∈ DiskTask.closures manager.pending, done = former.written)
    (answers : ∀ ticket id, (ticket, id) ∈ manager'.lastLogIds →
      (ticket, id) ∈ manager.lastLogIds ∨
        (manager'.readyClosures = [] ∧ manager.pending = .lastLogId ticket :: manager'.pending))
    (storage : manager'.storage = manager.storage ∨ manager'.readyClosures = [] ∨
      ∃ limit, action = .diskFlush limit) :
    Serves action manager manager' := by
  simp only [callerSide, Prod.mk.injEq] at side
  obtain ⟨memory, snapshot, last, async⟩ := side
  refine
    { queue := ⟨performed, manager'.pending, [], pending, (List.append_nil _).symm, rfl, ?_⟩
      ready := ready
      memory := fun entry member => by rwa [memory] at member
      snapshot := by rw [snapshot]
      last := Or.inl (by rw [last])
      answers := fun ticket id member => (answers ticket id member).imp_right Or.inr
      async := fun item member => by rwa [async] at member
      storage := storage }
  intro ticket member
  contradiction

theorem Serves.of_same (side : manager'.callerSide = manager.callerSide)
    (pending : manager'.pending = manager.pending)
    (ready : ∀ done ∈ manager'.readyClosures, done ∈ manager.readyClosures)
    (answers : manager'.lastLogIds = manager.lastLogIds)
    (storage : manager'.storage = manager.storage) : Serves action manager manager' := by
  refine .of_taken [] side pending.symm (fun done member => Or.inl (ready done member)) ?_
    (Or.inl storage)
  intro ticket id member
  rw [answers] at member
  exact Or.inl member

theorem Serves.truncatePrefix [DecidableEq P] {noted : LogManager P D C} {firstIndexKept : Nat}
    (stepped : noted.truncatePrefix firstIndexKept = some manager')
    (memory : noted.logsInMemory = manager.logsInMemory)
    (snapshot : manager.lastSnapshotId.index ≤ noted.lastSnapshotId.index)
    (last : noted.lastLogIndex = manager.lastLogIndex)
    (disk : noted.diskThread = manager.diskThread ∧ noted.diskQueue = manager.diskQueue)
    (answers : noted.lastLogIds = manager.lastLogIds)
    (async : noted.asyncClosures = manager.asyncClosures)
    (storage : noted.storage = manager.storage) : Serves action manager manager' := by
  obtain ⟨_, rfl⟩ := truncatePrefix_some stepped
  have pending : noted.pending = manager.pending := by
    unfold LogManager.pending
    rw [disk.1, disk.2]
  constructor
  · refine ⟨[], manager.pending, [.truncatePrefix firstIndexKept], rfl, ?_, rfl, ?_⟩
    · rw [pending_execute, ← pending]
      rfl
    · intro ticket member
      simp at member
  · intro done member
    refine Or.inl ?_
    unfold readyClosures at member ⊢
    rwa [← disk.1]
  · intro entry member
    rw [← memory]
    exact (List.dropWhile_suffix _).subset member
  · exact snapshot
  · refine Or.inl ?_
    change manager.lastLogIndex ≤ if noted.lastLogIndex < firstIndexKept then firstIndexKept - 1
      else noted.lastLogIndex
    rw [last]
    split <;> omega
  · intro ticket id member
    refine Or.inl ?_
    rwa [← answers]
  · intro item member
    rwa [← async]
  · exact Or.inl storage

variable [DecidableEq P]

theorem Serves.setSnapshot {snapshot : SnapshotMeta P}
    (stepped : manager.setSnapshot snapshot = some manager') :
    Serves (.setSnapshot snapshot) manager manager' := by
  by_cases newer : manager.lastSnapshotId.index < snapshot.lastIncludedIndex
  · rcases setSnapshot_cases newer stepped with ⟨_, stepped⟩ | ⟨_, _, ⟨_, stepped⟩ | rfl⟩ |
      ⟨missing, same, rfl⟩
    · exact .truncatePrefix stepped rfl newer.le rfl ⟨rfl, rfl⟩ rfl rfl rfl
    · exact .truncatePrefix stepped rfl newer.le rfl ⟨rfl, rfl⟩ rfl rfl rfl
    · exact
        { queue := ⟨[], manager.pending, [], rfl, (List.append_nil _).symm, rfl,
            fun _ member => absurd member List.not_mem_nil⟩
          ready := fun _ member => Or.inl member
          memory := fun _ member => member
          snapshot := newer.le
          last := Or.inl (le_refl _)
          answers := fun _ _ member => Or.inl member
          async := fun _ member => member
          storage := Or.inl rfl }
    · have resets : manager.Resets snapshot := ⟨newer, missing, same⟩
      refine
        { queue := ⟨[], manager.pending, [.reset (snapshot.lastIncludedIndex + 1)], rfl, ?_, rfl, ?_⟩
          ready := fun _ member => Or.inl member
          memory := fun _ member => absurd member List.not_mem_nil
          snapshot := newer.le
          last := Or.inr ⟨snapshot, rfl, resets, rfl, rfl⟩
          answers := fun _ _ member => Or.inl member
          async := fun _ member => member
          storage := Or.inl rfl }
      · exact pending_execute _ _
      · intro ticket member
        simp at member
  · obtain rfl := setSnapshot_stale newer stepped
    exact .of_same rfl rfl (fun _ member => member) rfl rfl

omit [DecidableEq P] in
theorem Serves.flushLastLogId (ticket : Nat) :
    Serves (.flushLastLogId ticket) manager (manager.flushLastLogId ticket) := by
  unfold LogManager.flushLastLogId
  by_cases shortcut : manager.lastLogIndex = manager.lastSnapshotId.index
  · rw [if_pos shortcut]
    refine
      { queue := ⟨[], manager.pending, [], rfl, (List.append_nil _).symm, rfl,
          fun _ member => absurd member List.not_mem_nil⟩
        ready := fun _ member => Or.inl member
        memory := fun _ member => member
        snapshot := le_refl _
        last := Or.inl (le_refl _)
        answers := ?_
        async := fun _ member => member
        storage := Or.inl rfl }
    intro other id member
    rcases List.mem_cons.mp member with same | former
    · obtain ⟨rfl, _⟩ := Prod.mk.inj same
      exact Or.inr (Or.inl ⟨rfl, shortcut⟩)
    · exact Or.inl former
  · rw [if_neg shortcut]
    refine
      { queue := ⟨[], manager.pending, [.lastLogId ticket], rfl, pending_execute _ _, rfl, ?_⟩
        ready := fun _ member => Or.inl member
        memory := fun _ member => member
        snapshot := le_refl _
        last := Or.inl (le_refl _)
        answers := fun _ _ member => Or.inl member
        async := fun _ member => member
        storage := Or.inl rfl }
    intro other member
    have same : other = ticket := by simpa using member
    rw [same]

omit [DecidableEq P] in
theorem Serves.diskFlush {limit : Nat} (stepped : manager.diskFlush limit = some manager') :
    Serves (.diskFlush limit) manager manager' := by
  unfold LogManager.diskFlush at stepped
  split at stepped
  · rename_i thread isThread
    split at stepped
    · have wrote : (manager.appendToStorage thread.toAppend thread.lastId limit).2.callerSide =
            manager.callerSide ∧
          (manager.appendToStorage thread.toAppend thread.lastId limit).2.diskQueue =
            manager.diskQueue ∧
          (manager.appendToStorage thread.toAppend thread.lastId limit).2.lastLogIds =
            manager.lastLogIds := by
        unfold appendToStorage
        split_ifs
        · exact ⟨rfl, rfl, rfl⟩
        · simp only
          split <;> exact ⟨rfl, rfl, rfl⟩
      obtain ⟨side, queue, answers⟩ := wrote
      rcases result : manager.appendToStorage thread.toAppend thread.lastId limit with
        ⟨lastId, after⟩
      rw [result] at stepped side queue answers
      obtain rfl := Option.some.inj stepped
      have queue : after.diskQueue = manager.diskQueue := queue
      have pending := pending_thread isThread
      refine .of_taken (thread.batch.map DiskTask.append) side ?_ ?_ ?_ (Or.inr (Or.inr ⟨limit, rfl⟩))
      · rw [pending]
        simp [LogManager.pending, DiskThread.tasks, queue]
      · intro done member
        obtain ⟨former, inBatch, rfl⟩ := List.mem_map.mp member
        refine Or.inr ⟨⟨limit, rfl⟩, former, DiskTask.mem_closures.mpr ?_, rfl⟩
        rw [pending]
        exact List.mem_append_left _ (List.mem_map_of_mem inBatch)
      · intro ticket id member
        refine Or.inl ?_
        rwa [← answers]
    · contradiction
  · contradiction

omit [DecidableEq P] in
theorem Performs.side {thread thread' : DiskThread P D C} {task : DiskTask P D C}
    {outcome : DiskOutcome P D} (performs : Performs manager thread outcome task manager' thread') :
    manager'.callerSide = manager.callerSide ∧ manager'.diskQueue = manager.diskQueue ∧
      thread'.batch = thread.batch ∧ thread'.task = thread.task ∧ thread'.ready = thread.ready ∧
      ∀ item ∈ manager'.lastLogIds, item ∈ manager.lastLogIds ∨ task = .lastLogId item.1 := by
  have operated (storage : LogStorage P D) :
      (manager.operate storage outcome).callerSide = manager.callerSide ∧
        (manager.operate storage outcome).diskQueue = manager.diskQueue ∧
        (manager.operate storage outcome).lastLogIds = manager.lastLogIds := by
    cases outcome <;> exact ⟨rfl, rfl, rfl⟩
  cases performs with
  | empty => exact ⟨rfl, rfl, rfl, rfl, rfl, fun item member => Or.inl member⟩
  | lastLogId ticket =>
      refine ⟨rfl, rfl, rfl, rfl, rfl, ?_⟩
      intro item member
      rcases List.mem_cons.mp member with rfl | former
      · exact Or.inr rfl
      · exact Or.inl former
  | truncatePrefix | truncateSuffix | truncateFailed | reset =>
      obtain ⟨side, queue, answers⟩ := operated _
      exact ⟨side, queue, rfl, rfl, rfl, fun item member => Or.inl (answers ▸ member)⟩

omit [DecidableEq P] in
theorem Serves.diskTask {outcome : DiskOutcome P D}
    (stepped : manager.diskTask outcome = some manager') :
    Serves (.diskTask outcome) manager manager' := by
  cases takesTask_of_stepped stepped with
  | batched isThread isTask noneReady nonempty =>
      refine .of_same rfl ?_ ?_ rfl rfl
      · simp [pending, isThread, isTask, DiskThread.tasks]
      · intro other member
        change other ∈ DiskThread.ready _ at member
        rw [noneReady] at member
        contradiction
  | @performed thread thread' task after isThread isTask noneReady isPending noBatch _ performs =>
      obtain ⟨side, queue, batch, noTask, ready, answers⟩ := performs.side
      have after' : ({ after with diskThread := some thread' } :
          LogManager P D C).pending = manager.diskQueue := by
        rw [pending_thread rfl]
        simp [batch, noBatch, noTask, queue]
      have noneLeft : ({ after with diskThread := some thread' } :
          LogManager P D C).readyClosures = [] := ready.trans noneReady
      refine .of_taken [task] side ?_ ?_ ?_ (Or.inr (Or.inl noneLeft))
      · rw [isPending, after']
        rfl
      · intro other member
        rw [noneLeft] at member
        contradiction
      · intro ticket id member
        rcases answers (ticket, id) member with former | isTicket
        · exact Or.inl former
        · refine Or.inr ⟨noneLeft, ?_⟩
          rw [isPending, after', isTicket]

theorem serves_step (notAppend : ∀ context entries sees, action ≠ .appendEntries context entries sees)
    (stepped : LogManager.step action manager = some manager') : Serves action manager manager' := by
  cases action with
  | appendEntries context entries sees => exact absurd rfl (notAppend context entries sees)
  | setSnapshot snapshot => exact .setSnapshot stepped
  | clearBufferredLogs =>
      simp only [LogManager.step, LogManager.clearBufferredLogs] at stepped
      split at stepped
      · exact .truncatePrefix stepped rfl (le_refl _) rfl ⟨rfl, rfl⟩ rfl rfl rfl
      · obtain rfl := Option.some.inj stepped
        exact .of_same rfl rfl (fun _ member => member) rfl rfl
  | setAppliedId appliedId =>
      obtain rfl := Option.some.inj stepped
      unfold LogManager.setAppliedId
      split <;> exact .of_same rfl rfl (fun _ member => member) rfl rfl
  | clearMemoryLogs id =>
      simp only [LogManager.step, LogManager.clearMemoryLogs] at stepped
      split at stepped
      · obtain rfl := Option.some.inj stepped
        exact
          { queue := ⟨[], manager.pending, [], rfl, (List.append_nil _).symm, rfl,
              fun _ member => absurd member List.not_mem_nil⟩
            ready := fun _ member => Or.inl member
            memory := fun _ member => List.mem_of_mem_drop member
            snapshot := le_refl _
            last := Or.inl (le_refl _)
            answers := fun _ _ member => Or.inl member
            async := fun _ member => member
            storage := Or.inl rfl }
      · contradiction
  | flushLastLogId ticket =>
      obtain rfl := Option.some.inj stepped
      exact .flushLastLogId ticket
  | readEntry index =>
      obtain rfl := Option.some.inj stepped
      unfold LogManager.readEntry
      split_ifs <;> exact .of_same rfl rfl (fun _ member => member) rfl rfl
  | diskStart =>
      simp only [LogManager.step, LogManager.diskStart] at stepped
      split at stepped
      · rename_i isThread _
        obtain rfl := Option.some.inj stepped
        refine .of_same rfl ?_ (fun _ member => absurd member List.not_mem_nil) rfl rfl
        simp [pending, isThread, DiskThread.tasks]
      · contradiction
  | diskTake =>
      simp only [LogManager.step, LogManager.diskTake] at stepped
      split at stepped
      · rename_i isThread isQueue
        obtain rfl := Option.some.inj stepped
        refine .of_same rfl ?_ (fun _ member => absurd member List.not_mem_nil) rfl rfl
        simp [pending, isThread, isQueue, DiskThread.tasks]
      · contradiction
  | diskEnd =>
      simp only [LogManager.step, LogManager.diskEnd] at stepped
      split at stepped
      · rename_i isThread
        obtain rfl := Option.some.inj stepped
        refine .of_same rfl ?_ (fun _ member => absurd member List.not_mem_nil) rfl rfl
        simp [pending, isThread, DiskThread.tasks]
      · contradiction
  | diskFlush limit => exact .diskFlush stepped
  | diskRun =>
      simp only [LogManager.step, LogManager.diskRun] at stepped
      split at stepped
      · rename_i thread isThread
        split at stepped
        · rename_i done rest isReady
          obtain rfl := Option.some.inj stepped
          refine .of_same rfl ?_ ?_ rfl rfl
          · simp [pending, finish, isThread, DiskThread.tasks]
          · intro other member
            unfold readyClosures
            rw [isThread]
            change other ∈ thread.ready
            rw [isReady]
            exact List.mem_cons_of_mem _ member
        · contradiction
      · contradiction
  | diskTask outcome => exact .diskTask stepped
  | diskFinish =>
      simp only [LogManager.step, LogManager.diskFinish] at stepped
      split at stepped
      · rename_i lastId isThread
        obtain rfl := Option.some.inj stepped
        have pending : ({ manager with diskThread := none } : LogManager P D C).pending =
            manager.pending := by
          simp [LogManager.pending, isThread, DiskThread.tasks]
        unfold setDiskId
        split
        · exact .of_same rfl pending (fun _ member => absurd member List.not_mem_nil) rfl rfl
        · exact .of_same rfl pending (fun _ member => absurd member List.not_mem_nil) rfl rfl
      · contradiction
  | runAsync position =>
      obtain ⟨done, status, _, rfl⟩ := runAsync_cases stepped
      exact
        { queue := ⟨[], manager.pending, [], rfl, (List.append_nil _).symm, rfl,
            fun _ member => absurd member List.not_mem_nil⟩
          ready := fun _ member => Or.inl member
          memory := fun _ member => member
          snapshot := le_refl _
          last := Or.inl (le_refl _)
          answers := fun _ _ member => Or.inl member
          async := fun _ member => List.mem_of_mem_eraseIdx member
          storage := Or.inl rfl }

omit [DecidableEq P] in
theorem Serves.pending_closures (serves : Serves action manager manager') :
    ∀ done ∈ DiskTask.closures manager'.pending, done ∈ DiskTask.closures manager.pending := by
  obtain ⟨performed, rest, added, before, after, noClosure, _⟩ := serves.queue
  intro done member
  unfold DiskTask.closures at noClosure member ⊢
  rw [after, List.filterMap_append, noClosure, List.append_nil] at member
  rw [before, List.filterMap_append]
  exact List.mem_append_right _ member

omit [DecidableEq P] in
theorem Serves.held (serves : Serves action manager manager') :
    ∀ done ∈ manager'.held, ∃ former ∈ manager.held, done = former ∨ done = former.written := by
  intro done member
  rcases List.mem_append.mp member with ready | waiting
  · rcases serves.ready done ready with still | ⟨_, former, waited, isWritten⟩
    · exact ⟨done, List.mem_append_left _ still, Or.inl rfl⟩
    · exact ⟨former, List.mem_append_right _ waited, Or.inr isWritten⟩
  · exact ⟨done, List.mem_append_right _ (serves.pending_closures done waiting), Or.inl rfl⟩

omit [DecidableEq P] in
theorem Sound.diskFlush_stored {low limit : Nat} {log : LogStorage P D}
    (sound : Sound low manager log) (stepped : manager.diskFlush limit = some manager')
    (works : manager'.hasError = false) :
    ∀ done ∈ manager'.readyClosures, ∃ former ∈ DiskTask.closures manager.pending,
      done = former.written ∧
        ∀ entry ∈ former.entries, manager'.storage.getEntry entry.id.index = some entry := by
  unfold LogManager.diskFlush at stepped
  split at stepped
  · rename_i thread isThread
    split at stepped
    · have drains := sound.drains
      have covered := sound.covered
      rw [pending_thread isThread] at drains covered
      have fits := (drains_batch drains covered).1
      have written := appendToStorage_works thread.toAppend thread.lastId limit sound.noError
      rcases result : manager.appendToStorage thread.toAppend thread.lastId limit with
        ⟨lastId, after⟩
      rw [result] at stepped written
      obtain rfl := Option.some.inj stepped
      obtain rfl := written works
      intro done member
      obtain ⟨former, inBatch, rfl⟩ := List.mem_map.mp member
      refine ⟨former, DiskTask.mem_closures.mpr ?_, rfl, ?_⟩
      · rw [pending_thread isThread]
        exact List.mem_append_left _ (List.mem_map_of_mem inBatch)
      · intro entry inside
        exact stored_of_fits fits (List.mem_flatMap.mpr ⟨former, inBatch, inside⟩)
    · contradiction
  · contradiction

/-- The closures that are ready after a step without an error: they were so before, or
the step has stored their entries. -/
theorem Serves.ready_stored {low : Nat} {log : LogStorage P D}
    (serves : Serves action manager manager') (sound : Sound low manager log)
    (stepped : LogManager.step action manager = some manager')
    (works : manager'.hasError = false) :
    ∀ done ∈ manager'.readyClosures,
      (done ∈ manager.readyClosures ∧ manager'.storage = manager.storage) ∨
        ∃ former ∈ DiskTask.closures manager.pending, done = former.written ∧
          ∀ entry ∈ former.entries, manager'.storage.getEntry entry.id.index = some entry := by
  intro done member
  rcases serves.ready done member with still | ⟨⟨limit, rfl⟩, _⟩
  · rcases serves.storage with same | none | ⟨limit, rfl⟩
    · exact Or.inl ⟨still, same⟩
    · rw [none] at member
      contradiction
    · exact Or.inr (sound.diskFlush_stored stepped works done member)
  · exact Or.inr (sound.diskFlush_stored stepped works done member)

structure Queues (context : C) (submitted remaining : List (LogEntry P D))
    (manager manager' : LogManager P D C) : Prop where
  queue : ∃ cuts, manager'.pending =
      manager.pending ++ cuts ++ [.append (.queued context submitted remaining)] ∧
    DiskTask.closures cuts = [] ∧ ∀ ticket, .lastLogId ticket ∉ cuts
  ready : manager'.readyClosures = manager.readyClosures
  storage : manager'.storage = manager.storage
  answers : manager'.lastLogIds = manager.lastLogIds
  async : manager'.asyncClosures = manager.asyncClosures
  finished : manager'.finished = manager.finished

omit [DecidableEq P] in
theorem Queues.closures {context : C} {submitted remaining : List (LogEntry P D)}
    (queues : Queues context submitted remaining manager manager') :
    DiskTask.closures manager'.pending =
      DiskTask.closures manager.pending ++ [.queued context submitted remaining] := by
  obtain ⟨cuts, pending, noClosure, _⟩ := queues.queue
  unfold DiskTask.closures at noClosure ⊢
  rw [pending, List.filterMap_append, List.filterMap_append, noClosure, List.append_nil]
  rfl

omit [DecidableEq P] in
theorem Queues.held {context : C} {submitted remaining : List (LogEntry P D)}
    (queues : Queues context submitted remaining manager manager') :
    manager'.held = manager.held ++ [.queued context submitted remaining] := by
  unfold LogManager.held
  rw [queues.ready, queues.closures, List.append_assoc]

theorem queues_enqueue (context : C) (submitted remaining : List (LogEntry P D))
    {resolved : LogManager P D C} {cuts : List (DiskTask P D C)}
    (pending : resolved.pending = manager.pending ++ cuts) (noClosure : DiskTask.closures cuts = [])
    (noTicket : ∀ ticket, .lastLogId ticket ∉ cuts)
    (ready : resolved.readyClosures = manager.readyClosures)
    (storage : resolved.storage = manager.storage)
    (answers : resolved.lastLogIds = manager.lastLogIds)
    (async : resolved.asyncClosures = manager.asyncClosures)
    (finished : resolved.finished = manager.finished) :
    Queues context submitted remaining manager (resolved.enqueue context submitted remaining) := by
  refine ⟨⟨cuts, ?_, noClosure, noTicket⟩, ready, storage, answers, async, finished⟩
  rw [← pending]
  exact pending_execute _ _

omit [DecidableEq P] in
theorem resolve_queue {entries remaining : List (LogEntry P D)} {front back : LogEntry P D}
    {resolved : LogManager P D C}
    (accepted : manager.checkAndResolveConflict entries front back =
      some (.accepted remaining resolved)) :
    (∃ cuts, resolved.pending = manager.pending ++ cuts ∧ DiskTask.closures cuts = [] ∧
      ∀ ticket, .lastLogId ticket ∉ cuts) ∧
      resolved.readyClosures = manager.readyClosures ∧ resolved.storage = manager.storage ∧
      resolved.lastLogIds = manager.lastLogIds := by
  have unchanged : ∃ cuts, manager.pending = manager.pending ++ cuts ∧
      DiskTask.closures cuts = [] ∧ ∀ ticket, .lastLogId ticket ∉ cuts :=
    ⟨[], (List.append_nil _).symm, rfl, fun _ => List.not_mem_nil⟩
  cases resolves_of_accepted accepted with
  | conflict _ _ _ _ _ _ _ truncated =>
      obtain ⟨_, lastTermKept, rfl⟩ := unsafeTruncateSuffix_some truncated
      refine ⟨⟨[.truncateSuffix _ lastTermKept], pending_execute manager _, rfl, ?_⟩, rfl, rfl, rfl⟩
      intro ticket member
      simp at member
  | leader | next | known | extension => exact ⟨unchanged, rfl, rfl, rfl⟩

theorem appendEntries_queues {context : C} {entries : List (LogEntry P D)} {sees : Bool}
    (stepped : manager.appendEntries context entries sees = some manager') :
    (∃ status, manager' =
      manager.runInBthread { context := context, submitted := entries } status) ∨
    ∃ submitted remaining, Queues context submitted remaining manager manager' := by
  rcases appendEntries_cases stepped with ⟨status, rfl, _⟩ | ⟨_, rfl⟩ |
    ⟨front, back, remaining, resolved, _, _, accepted, rfl⟩
  · exact Or.inl ⟨status, rfl⟩
  · exact Or.inr ⟨[], [], queues_enqueue context [] [] (List.append_nil _).symm rfl
      (fun _ => List.not_mem_nil) rfl rfl rfl rfl rfl⟩
  · obtain ⟨⟨cuts, pending, noClosure, noTicket⟩, ready, storage, answers⟩ :=
      resolve_queue accepted
    obtain ⟨same, _⟩ := resolve_books accepted
    simp only [books, Prod.mk.injEq] at same
    exact Or.inr ⟨if front.id.index = 0 then remaining else entries, remaining,
      queues_enqueue context _ remaining pending noClosure noTicket ready storage answers
        same.2.2.1 same.2.2.2⟩

theorem appendEntries_leader {context : C} {entries : List (LogEntry P D)} {sees : Bool}
    (leader : ∀ entry ∈ entries, entry.id.index = 0)
    (stepped : manager.appendEntries context entries sees = some manager') :
    manager' = manager.runInBthread { context := context, submitted := entries } EIO ∨
      manager' = ({ manager with lastLogIndex := manager.lastLogIndex + entries.length } :
          LogManager P D C).enqueue context (assignIndexes manager.lastLogIndex entries)
            (assignIndexes manager.lastLogIndex entries) := by
  unfold LogManager.appendEntries at stepped
  simp only at stepped
  split_ifs at stepped with seen
  · exact Or.inl (Option.some.inj stepped).symm
  · refine Or.inr ?_
    cases entries with
    | nil =>
        obtain rfl := Option.some.inj stepped
        rfl
    | cons front rest =>
        have atZero := leader front List.mem_cons_self
        rw [List.head?_cons, List.getLast?_eq_some_getLast (List.cons_ne_nil front rest)] at stepped
        simp only [checkAndResolveConflict, atZero, if_true] at stepped
        exact (Option.some.inj stepped).symm

end LogManager

end QuorumKit
