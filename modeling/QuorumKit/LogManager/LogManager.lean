/-
The log manager, `LogManager` of `braft/log_manager.cpp`.

Every function that holds the mutex is one step.  The disk thread is split where
another thread can get between: at each task, before and after a write, at each
closure it runs, and at `set_disk_id`.  `clear_memory_logs` takes the mutex once
for each 256 entries.  A failing `CHECK` and a fatal log line end the process.
-/

import Mathlib.Algebra.GroupWithZero.Nat
import Mathlib.Data.List.DropRight
import QuorumKit.Configuration
import QuorumKit.Errno
import QuorumKit.LogManager.LogStorage
import QuorumKit.Snapshot.SnapshotStorage

namespace QuorumKit

/-- `StableClosure`.  `context` is what the caller's subclass carries.  `submitted`
keeps the entries that the caller passed, with the indexes of a leader's entries
assigned and before any of them was dropped. -/
structure StableClosure (P D C : Type) where
  context : C
  submitted : List (LogEntry P D) := []
  firstLogIndex : Nat := 0
  entries : List (LogEntry P D) := []
deriving DecidableEq

/-- The closure of a call of `append_entries` that goes on with `entries`. -/
def StableClosure.queued {P D C : Type} (context : C) (submitted entries : List (LogEntry P D)) :
    StableClosure P D C :=
  { context := context
    submitted := submitted
    firstLogIndex := (entries.head?.map (fun front => front.id.index)).getD 0
    entries := entries }

/-- A closure in the queue of the disk thread.  `lastLogId` names the caller that
waits for the answer. -/
inductive DiskTask (P D C : Type) where
  | append (done : StableClosure P D C)
  | lastLogId (ticket : Nat)
  | truncatePrefix (firstIndexKept : Nat)
  | truncateSuffix (lastIndexKept lastTermKept : Nat)
  | reset (nextLogIndex : Nat)
deriving DecidableEq

/-- The task goes to the `AppendBatcher`. -/
def DiskTask.batched {P D C : Type} : DiskTask P D C → Bool
  | .append done => ¬ done.entries.isEmpty
  | _ => false

/-- The locals of `disk_thread`: the `AppendBatcher`, the closures of a flush
that have not been run yet, and the task at hand. -/
structure DiskThread (P D C : Type) where
  lastId : LogId
  batch : List (StableClosure P D C) := []
  ready : List (StableClosure P D C) := []
  task : Option (DiskTask P D C) := none
  ended : Bool := false

def DiskThread.toAppend {P D C : Type} (thread : DiskThread P D C) : List (LogEntry P D) :=
  thread.batch.flatMap StableClosure.entries

structure LogManager (P D C : Type) where
  storage : LogStorage P D
  configManager : ConfigurationManager P
  firstLogIndex : Nat
  lastLogIndex : Nat
  diskId : LogId
  appliedId : LogId := {}
  lastSnapshotId : LogId := {}
  virtualFirstLogId : LogId := {}
  logsInMemory : List (LogEntry P D) := []
  hasError : Bool := false
  diskQueue : List (DiskTask P D C) := []
  diskThread : Option (DiskThread P D C) := none
  /-- Calls of `clear_memory_logs` that have not finished. -/
  clearing : List LogId := []
  /-- Closures given to `run_closure_in_bthread`, with their status. -/
  asyncClosures : List (StableClosure P D C × Int) := []
  /-- Closures that have been run, newest first, with their status. -/
  finished : List (StableClosure P D C × Int) := []
  /-- The entries of all accepted calls of `append_entries`, oldest first. -/
  accepted : List (LogEntry P D) := []
  /-- Answers to `last_log_id(true)`. -/
  lastLogIds : List (Nat × LogId) := []
  maxAppendBufferSize : Nat := 256 * 1024
  dataLength : D → Nat

namespace LogManager

variable {P D C : Type}

def getEntryFromMemory (manager : LogManager P D C) (index : Nat) : Option (LogEntry P D) :=
  match manager.logsInMemory.head?, manager.logsInMemory.getLast? with
  | some front, some back =>
      if front.id.index ≤ index ∧ index ≤ back.id.index then
        manager.logsInMemory[index - front.id.index]?
      else none
  | _, _ => none

/-- `get_term`, which is also `unsafe_get_term`. -/
def getTerm (manager : LogManager P D C) (index : Nat) : Nat :=
  if index = 0 then 0
  else if index = manager.virtualFirstLogId.index then manager.virtualFirstLogId.term
  else if index = manager.lastSnapshotId.index then manager.lastSnapshotId.term
  else if manager.lastLogIndex < index ∨ index < manager.firstLogIndex then 0
  else
    match manager.getEntryFromMemory index with
    | some entry => entry.id.term
    | none => manager.storage.getTerm index

def getEntry (manager : LogManager P D C) (index : Nat) : Option (LogEntry P D) :=
  if manager.lastLogIndex < index ∨ index < manager.firstLogIndex then none
  else
    match manager.getEntryFromMemory index with
    | some entry => some entry
    | none => manager.storage.getEntry index

/-- `last_log_id` without a flush. -/
def lastLogId (manager : LogManager P D C) : LogId :=
  if manager.firstLogIndex ≤ manager.lastLogIndex then
    { index := manager.lastLogIndex, term := manager.getTerm manager.lastLogIndex }
  else manager.lastSnapshotId

def reportError (manager : LogManager P D C) : LogManager P D C :=
  { manager with hasError := true }

/-- `get_entry` with its effect: an entry of the log that the storage does not
have is reported. -/
def readEntry (manager : LogManager P D C) (index : Nat) : LogManager P D C :=
  if manager.lastLogIndex < index ∨ index < manager.firstLogIndex then manager
  else if (manager.getEntry index).isNone then manager.reportError
  else manager

def execute (manager : LogManager P D C) (task : DiskTask P D C) : LogManager P D C :=
  { manager with diskQueue := manager.diskQueue ++ [task] }

def runInBthread (manager : LogManager P D C) (done : StableClosure P D C) (status : Int) :
    LogManager P D C :=
  { manager with asyncClosures := manager.asyncClosures ++ [(done, status)] }

/-- `last_log_id(true)` up to the wait. -/
def flushLastLogId (manager : LogManager P D C) (ticket : Nat) : LogManager P D C :=
  if manager.lastLogIndex = manager.lastSnapshotId.index then
    { manager with lastLogIds := (ticket, manager.lastSnapshotId) :: manager.lastLogIds }
  else manager.execute (.lastLogId ticket)

section Calls

variable [DecidableEq P]

def truncatePrefix (manager : LogManager P D C) (firstIndexKept : Nat) :
    Option (LogManager P D C) :=
  if firstIndexKept < manager.firstLogIndex then none
  else
    let kept : LogManager P D C :=
      { manager with
        logsInMemory := manager.logsInMemory.dropWhile (fun entry => entry.id.index < firstIndexKept)
        firstLogIndex := firstIndexKept
        lastLogIndex :=
          if manager.lastLogIndex < firstIndexKept then firstIndexKept - 1
          else manager.lastLogIndex
        configManager := manager.configManager.truncatePrefix firstIndexKept }
    some (kept.execute (.truncatePrefix firstIndexKept))

def reset (manager : LogManager P D C) (nextLogIndex : Nat) : LogManager P D C :=
  let emptied : LogManager P D C :=
    { manager with
      logsInMemory := []
      firstLogIndex := nextLogIndex
      lastLogIndex := nextLogIndex - 1
      configManager :=
        (manager.configManager.truncatePrefix nextLogIndex).truncateSuffix (nextLogIndex - 1) }
  emptied.execute (.reset nextLogIndex)

def unsafeTruncateSuffix (manager : LogManager P D C) (lastIndexKept : Nat) :
    Option (LogManager P D C) :=
  if lastIndexKept < manager.appliedId.index then none
  else
    let kept : LogManager P D C :=
      { manager with
        logsInMemory := manager.logsInMemory.rdropWhile (fun entry => lastIndexKept < entry.id.index)
        lastLogIndex := lastIndexKept }
    let lastTermKept := kept.getTerm lastIndexKept
    if lastIndexKept ≠ 0 ∧ lastTermKept = 0 then none
    else
      let truncated : LogManager P D C :=
        { kept with configManager := kept.configManager.truncateSuffix lastIndexKept }
      some (truncated.execute (.truncateSuffix lastIndexKept lastTermKept))

def assignIndexes (lastLogIndex : Nat) : List (LogEntry P D) → List (LogEntry P D)
  | [] => []
  | entry :: rest =>
      { entry with id := { entry.id with index := lastLogIndex + 1 } } ::
        assignIndexes (lastLogIndex + 1) rest

/-- The outcome of `check_and_resolve_conflict`: the closure goes to a bthread
with a status, or the remaining entries are appended. -/
inductive Resolution (P D C : Type) where
  | refused (status : Int)
  | accepted (entries : List (LogEntry P D)) (manager : LogManager P D C)

def checkAndResolveConflict (manager : LogManager P D C) (entries : List (LogEntry P D))
    (front back : LogEntry P D) : Option (Resolution P D C) :=
  if front.id.index = 0 then
    some (.accepted (assignIndexes manager.lastLogIndex entries)
      { manager with lastLogIndex := manager.lastLogIndex + entries.length })
  else if manager.lastLogIndex + 1 < front.id.index then some (.refused EINVAL)
  else if back.id.index ≤ manager.appliedId.index then some (.refused 0)
  else if front.id.index = manager.lastLogIndex + 1 then
    some (.accepted entries { manager with lastLogIndex := back.id.index })
  else
    -- the entries before the first conflict are already in the log
    match entries.dropWhile (fun entry => manager.getTerm entry.id.index = entry.id.term) with
    | [] => some (.accepted [] manager)
    | conflicting :: rest =>
        if conflicting.id.index ≤ manager.lastLogIndex then
          (manager.unsafeTruncateSuffix (conflicting.id.index - 1)).map (fun truncated =>
            .accepted (conflicting :: rest) { truncated with lastLogIndex := back.id.index })
        else
          some (.accepted (conflicting :: rest)
            { manager with lastLogIndex := back.id.index })

/-- The configuration entries of a batch go to the configuration manager. -/
def addConfigurations (configManager : ConfigurationManager P) (entries : List (LogEntry P D)) :
    ConfigurationManager P :=
  entries.foldl
    (fun configManager entry =>
      if entry.type = .configuration then
        configManager.add (ConfigurationEntry.ofLogEntry entry)
      else configManager)
    configManager

/-- The end of `append_entries`: the entries that are left go to memory and, with
their closure, to the disk thread. -/
def enqueue (manager : LogManager P D C) (context : C)
    (submitted entries : List (LogEntry P D)) : LogManager P D C :=
  let stored : LogManager P D C :=
    { manager with
      configManager := addConfigurations manager.configManager entries
      logsInMemory := manager.logsInMemory ++ entries
      accepted := manager.accepted ++ submitted }
  stored.execute (.append (.queued context submitted entries))

/-- `append_entries`.  `sees` says whether the relaxed load of `_has_error` sees
an error that another thread has stored. -/
def appendEntries (manager : LogManager P D C) (context : C) (entries : List (LogEntry P D))
    (sees : Bool) : Option (LogManager P D C) :=
  let done : StableClosure P D C := { context := context, submitted := entries }
  if manager.hasError ∧ sees then some (manager.runInBthread done EIO)
  else
    match entries.head?, entries.getLast? with
    | some front, some back =>
        match manager.checkAndResolveConflict entries front back with
        | none => none
        | some (.refused status) => some (manager.runInBthread done status)
        | some (.accepted remaining resolved) =>
            let submitted := if front.id.index = 0 then remaining else entries
            some (resolved.enqueue context submitted remaining)
    | _, _ => some (manager.enqueue context [] [])

/-- `_last_snapshot_id`, `_applied_id` and the configuration in `set_snapshot`. -/
def noteSnapshot (manager : LogManager P D C) (snapshot : SnapshotMeta P) : LogManager P D C :=
  { manager with
    configManager := manager.configManager.setSnapshot
      { id := snapshot.id
        conf := Configuration.ofList snapshot.peers
        oldConf := Configuration.ofList snapshot.oldPeers }
    lastSnapshotId := snapshot.id
    appliedId := if manager.appliedId < snapshot.id then snapshot.id else manager.appliedId }

def setSnapshot (manager : LogManager P D C) (snapshot : SnapshotMeta P) :
    Option (LogManager P D C) :=
  if snapshot.lastIncludedIndex ≤ manager.lastSnapshotId.index then some manager
  else
    let term := manager.getTerm snapshot.lastIncludedIndex
    let lastButOneSnapshotId := manager.lastSnapshotId
    let noted := manager.noteSnapshot snapshot
    if term = 0 then
      { noted with virtualFirstLogId := snapshot.id }.truncatePrefix
        (snapshot.lastIncludedIndex + 1)
    else if term = snapshot.lastIncludedTerm then
      -- the log behind the former snapshot is kept for slow followers
      if 0 < lastButOneSnapshotId.index then
        { noted with virtualFirstLogId := lastButOneSnapshotId }.truncatePrefix
          (lastButOneSnapshotId.index + 1)
      else some noted
    else
      some ({ noted with virtualFirstLogId := snapshot.id }.reset
        (snapshot.lastIncludedIndex + 1))

def clearBufferredLogs (manager : LogManager P D C) : Option (LogManager P D C) :=
  if manager.lastSnapshotId.index ≠ 0 then
    { manager with virtualFirstLogId := manager.lastSnapshotId }.truncatePrefix
      (manager.lastSnapshotId.index + 1)
  else some manager

end Calls

/-- `check_consistency`; a log that starts at 0 fails its first check. -/
def checkConsistency (manager : LogManager P D C) : Option (Except (Int × String) Unit) :=
  if manager.firstLogIndex = 0 then none
  else if manager.lastSnapshotId = {} then
    if manager.firstLogIndex = 1 then some (.ok ())
    else
      some (.error ( EIO, "Missing logs in (0, " ++ toString manager.firstLogIndex ++ ")"))
  else if manager.firstLogIndex - 1 ≤ manager.lastSnapshotId.index ∧
      manager.lastSnapshotId.index ≤ manager.lastLogIndex then
    some (.ok ())
  else
    some (.error ( EIO, "There's a gap between snapshot=\x7b" ++
      toString manager.lastSnapshotId.index ++ ", " ++ toString manager.lastSnapshotId.term ++
      "\x7d and log=[" ++ toString manager.firstLogIndex ++ ", " ++
      toString manager.lastLogIndex ++ "] "))

def setDiskId (manager : LogManager P D C) (diskId : LogId) : LogManager P D C :=
  if diskId < manager.diskId then manager
  else
    { manager with
      diskId := diskId
      clearing := manager.clearing ++ [min diskId manager.appliedId] }

def setAppliedId (manager : LogManager P D C) (appliedId : LogId) : LogManager P D C :=
  if appliedId < manager.appliedId then manager
  else
    { manager with
      appliedId := appliedId
      clearing := manager.clearing ++ [min manager.diskId appliedId] }

/-- The entries that one round of `clear_memory_logs` drops. -/
def entriesToClear (manager : LogManager P D C) (id : LogId) : List (LogEntry P D) :=
  (manager.logsInMemory.take 256).takeWhile (fun entry => ¬ id < entry.id)

/-- One round of a pending `clear_memory_logs`. -/
def clearMemoryLogs (manager : LogManager P D C) (id : LogId) : Option (LogManager P D C) :=
  if id ∈ manager.clearing then
    let count := (manager.entriesToClear id).length
    some
      { manager with
        logsInMemory := manager.logsInMemory.drop count
        clearing := if count = 256 then manager.clearing else manager.clearing.erase id }
  else none

inductive DiskOutcome (P D : Type) where
  | done
  | failed (left : LogStorage P D)

/-- `append_to_storage`. -/
def appendToStorage (manager : LogManager P D C) (toAppend : List (LogEntry P D))
    (lastId : LogId) (limit : Nat) : LogId × LogManager P D C :=
  if manager.hasError then (lastId, manager)
  else
    match manager.storage.appendEntries toAppend limit with
    | (appended, storage) =>
        let written : LogManager P D C := { manager with storage := storage }
        let lastId :=
          match (toAppend.take appended).getLast? with
          | some last => last.id
          | none => lastId
        (lastId, if appended ≠ toAppend.length then written.reportError else written)

/-- The buffer of the `AppendBatcher` is full. -/
def batchFull (manager : LogManager P D C) (thread : DiskThread P D C) : Bool :=
  thread.batch.length = 256 ∨
    manager.maxAppendBufferSize ≤
      (thread.toAppend.map (fun entry => manager.dataLength entry.data)).sum

/-- The `AppendBatcher` has to be flushed before the thread goes on. -/
def mustFlush (manager : LogManager P D C) (thread : DiskThread P D C) : Bool :=
  match thread.task with
  | some task => ¬ task.batched ∨ manager.batchFull thread
  | none => thread.ended

def diskStart (manager : LogManager P D C) : Option (LogManager P D C) :=
  match manager.diskThread, manager.diskQueue with
  | none, _ :: _ => some { manager with diskThread := some { lastId := manager.diskId } }
  | _, _ => none

def diskTake (manager : LogManager P D C) : Option (LogManager P D C) :=
  match manager.diskThread, manager.diskQueue with
  | some { lastId, batch, ready := [], task := none, ended := false }, task :: rest =>
      some
        { manager with
          diskThread := some { lastId := lastId, batch := batch, task := some task }
          diskQueue := rest }
  | _, _ => none

def diskEnd (manager : LogManager P D C) : Option (LogManager P D C) :=
  match manager.diskThread with
  | some { lastId, batch, ready := [], task := none, ended := false } =>
      some
        { manager with
          diskThread := some { lastId := lastId, batch := batch, ended := true } }
  | _ => none

/-- The write of `AppendBatcher::flush`. -/
def diskFlush (manager : LogManager P D C) (limit : Nat) : Option (LogManager P D C) :=
  match manager.diskThread with
  | some thread =>
      if thread.ready = [] ∧ thread.batch ≠ [] ∧ manager.mustFlush thread then
        match manager.appendToStorage thread.toAppend thread.lastId limit with
        | (lastId, manager) =>
            some
              { manager with
                diskThread := some
                  { thread with
                    lastId := lastId
                    batch := []
                    ready := thread.batch.map (fun done => { done with entries := [] }) } }
      else none
  | none => none

def finish (manager : LogManager P D C) (done : StableClosure P D C) (status : Int) :
    LogManager P D C :=
  { manager with finished := (done, status) :: manager.finished }

/-- The next closure of a flush is run, with an error when one is recorded. -/
def diskRun (manager : LogManager P D C) : Option (LogManager P D C) :=
  match manager.diskThread with
  | some thread =>
      match thread.ready with
      | done :: rest =>
          some
            ({ manager with diskThread := some { thread with ready := rest } }.finish done
              (if manager.hasError then EIO else 0))
      | [] => none
  | none => none

def operate (manager : LogManager P D C) (storage : LogStorage P D) :
    DiskOutcome P D → LogManager P D C
  | .done => { manager with storage := storage }
  | .failed left => { manager with storage := left }.reportError

/-- What `disk_thread` does with the task at hand. -/
def performTask (manager : LogManager P D C) (thread : DiskThread P D C)
    (outcome : DiskOutcome P D) : DiskTask P D C → Option (LogManager P D C × DiskThread P D C)
  | .append done =>
      if done.entries.isEmpty then some (manager.finish done 0, thread)
      else some (manager, { thread with batch := thread.batch ++ [done] })
  | .lastLogId ticket =>
      if thread.lastId.index ≠ 0 ∧ thread.lastId.term = 0 then none
      else
        some ({ manager with lastLogIds := (ticket, thread.lastId) :: manager.lastLogIds }, thread)
  | .truncatePrefix firstIndexKept =>
      some (manager.operate (manager.storage.truncatePrefix firstIndexKept) outcome, thread)
  | .truncateSuffix lastIndexKept lastTermKept =>
      let truncated := manager.operate (manager.storage.truncateSuffix lastIndexKept) outcome
      match outcome with
      | .done =>
          if lastIndexKept ≠ 0 ∧ lastTermKept = 0 then none
          else
            some (truncated,
              { thread with lastId := { index := lastIndexKept, term := lastTermKept } })
      | .failed _ => some (truncated, thread)
  | .reset nextLogIndex =>
      some (manager.operate (LogStorage.reset nextLogIndex) outcome, thread)

def diskTask (manager : LogManager P D C) (outcome : DiskOutcome P D) :
    Option (LogManager P D C) :=
  match manager.diskThread with
  | some thread =>
      match thread.task with
      | some task =>
          if thread.ready = [] ∧ (thread.batch = [] ∨ ¬ manager.mustFlush thread) then
            (manager.performTask { thread with task := none } outcome task).map (fun after =>
              { after.1 with diskThread := some after.2 })
          else none
      | none => none
  | none => none

/-- The end of `disk_thread`. -/
def diskFinish (manager : LogManager P D C) : Option (LogManager P D C) :=
  match manager.diskThread with
  | some { lastId, batch := [], ready := [], task := none, ended := true } =>
      some ({ manager with diskThread := none }.setDiskId lastId)
  | _ => none

def runAsync (manager : LogManager P D C) (position : Nat) : Option (LogManager P D C) :=
  match manager.asyncClosures[position]? with
  | some (done, status) =>
      some
        ({ manager with asyncClosures := manager.asyncClosures.eraseIdx position }.finish done
          status)
  | none => none

/-- `init` over a storage that has been initialised. -/
def init (storage : LogStorage P D) (configManager : ConfigurationManager P)
    (dataLength : D → Nat) : LogManager P D C :=
  { storage := storage
    configManager := configManager
    firstLogIndex := storage.firstLogIndex
    lastLogIndex := storage.lastLogIndex
    diskId :=
      { index := storage.lastLogIndex
        term := storage.getTerm storage.lastLogIndex }
    accepted := storage.entries
    dataLength := dataLength }

inductive Action (P D C : Type) where
  | appendEntries (context : C) (entries : List (LogEntry P D)) (sees : Bool)
  | setSnapshot (snapshot : SnapshotMeta P)
  | clearBufferredLogs
  | setAppliedId (appliedId : LogId)
  | clearMemoryLogs (id : LogId)
  | flushLastLogId (ticket : Nat)
  | readEntry (index : Nat)
  | diskStart
  | diskTake
  | diskEnd
  | diskFlush (limit : Nat)
  | diskRun
  | diskTask (outcome : DiskOutcome P D)
  | diskFinish
  | runAsync (position : Nat)

def step [DecidableEq P] (action : Action P D C) (manager : LogManager P D C) :
    Option (LogManager P D C) :=
  match action with
  | .appendEntries context entries sees => manager.appendEntries context entries sees
  | .setSnapshot snapshot => manager.setSnapshot snapshot
  | .clearBufferredLogs => manager.clearBufferredLogs
  | .setAppliedId appliedId => some (manager.setAppliedId appliedId)
  | .clearMemoryLogs id => manager.clearMemoryLogs id
  | .flushLastLogId ticket => some (manager.flushLastLogId ticket)
  | .readEntry index => some (manager.readEntry index)
  | .diskStart => manager.diskStart
  | .diskTake => manager.diskTake
  | .diskEnd => manager.diskEnd
  | .diskFlush limit => manager.diskFlush limit
  | .diskRun => manager.diskRun
  | .diskTask outcome => manager.diskTask outcome
  | .diskFinish => manager.diskFinish
  | .runAsync position => manager.runAsync position

end LogManager

end QuorumKit
