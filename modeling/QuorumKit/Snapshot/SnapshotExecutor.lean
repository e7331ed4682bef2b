/-
The snapshot executor, `SnapshotExecutor` of `braft/snapshot_executor.cpp`.

The calls of `LogManager::set_snapshot`, the answers to `InstallSnapshot` and
the reported errors are recorded in the order in which they happen.  Loading is
done by `FSMCaller::do_snapshot_load`.
-/

import QuorumKit.Snapshot.SnapshotCopier

namespace QuorumKit

structure InstallSnapshotRequest (P : Type) where
  term : Nat
  snapshotMeta : SnapshotMeta P
  uri : String
deriving DecidableEq, Repr

inductive InstallSnapshotResponse where
  | failed (code : Int)
  | replied (term : Nat) (success : Bool)
deriving DecidableEq, Repr

structure SnapshotExecutor (P : Type) where
  lastSnapshotTerm : Nat := 0
  lastSnapshotIndex : Nat := 0
  term : Nat := 0
  savingSnapshot : Bool := false
  loadingSnapshot : Bool := false
  stopped : Bool := false
  snapshotStorage : SnapshotStorage P := {}
  loadingSnapshotMeta : Option (SnapshotMeta P) := none
  /-- The request that the running download will answer. -/
  downloadingSnapshot : Option (InstallSnapshotRequest P) := none
  curCopierCancelled : Bool := false
  setSnapshotCalls : List (SnapshotMeta P) := []
  responses : List (InstallSnapshotRequest P × InstallSnapshotResponse) := []
  reportedErrors : List Int := []

namespace SnapshotExecutor

variable {P : Type}

def reportError (executor : SnapshotExecutor P) (code : Int) : SnapshotExecutor P :=
  { executor with reportedErrors := executor.reportedErrors ++ [code] }

def respond (executor : SnapshotExecutor P) (request : InstallSnapshotRequest P)
    (response : InstallSnapshotResponse) : SnapshotExecutor P :=
  { executor with responses := executor.responses ++ [(request, response)] }

/-- The new last snapshot and the call of `LogManager::set_snapshot`. -/
def setSnapshot (executor : SnapshotExecutor P) (snapshot : SnapshotMeta P) :
    SnapshotExecutor P :=
  { executor with
    lastSnapshotIndex := snapshot.lastIncludedIndex
    lastSnapshotTerm := snapshot.lastIncludedTerm
    setSnapshotCalls := executor.setSnapshotCalls ++ [snapshot] }

/-- The writer and the return code with which `on_snapshot_save_done` goes to
`close`. -/
def finishWriter (executor : SnapshotExecutor P) (status : Int) (snapshot : SnapshotMeta P)
    (writer : SnapshotWriter P) : Int × SnapshotWriter P :=
  let (ret, writer) :=
    if status = 0 ∧ snapshot.lastIncludedIndex ≤ executor.lastSnapshotIndex then
      (ESTALE, writer.setError ESTALE)
    else (status, writer)
  if ret = 0 then
    match writer.saveMeta snapshot with
    | (rc, writer) => (if rc ≠ 0 then EIO else ret, writer)
  else (ret, if writer.ok then writer.setError ret else writer)

def onSnapshotSaveDone (executor : SnapshotExecutor P) (status : Int)
    (snapshot : SnapshotMeta P) (writer : SnapshotWriter P) : Int × SnapshotExecutor P :=
  match executor.finishWriter status snapshot writer with
  | (ret, writer) =>
      match executor.snapshotStorage.close writer false with
      | (rc, storage) =>
          let ret := if rc ≠ 0 then EIO else ret
          let executor := { executor with snapshotStorage := storage }
          let executor := if ret = 0 then executor.setSnapshot snapshot else executor
          let executor := if ret = EIO then executor.reportError EIO else executor
          (ret, { executor with savingSnapshot := false })

/-- `load_downloading_snapshot` after the copier has been joined: the reader
that goes to the state machine, if any. -/
def loadDownloadingSnapshot (executor : SnapshotExecutor P) (copier : SnapshotCopier P)
    (answered : InstallSnapshotRequest P) (snapshot : SnapshotMeta P) :
    Option (SnapshotReader P) × SnapshotExecutor P :=
  if copier.errorCode ≠ 0 then
    let executor :=
      if copier.errorCode = EIO then executor.reportError copier.errorCode else executor
    let storage :=
      match copier.reader with
      | some reader => executor.snapshotStorage.closeReader reader
      | none => executor.snapshotStorage
    (none,
      { executor with snapshotStorage := storage, downloadingSnapshot := none }.respond answered
        (.failed copier.errorCode))
  else
    match copier.reader with
    | none =>
        (none,
          { executor with downloadingSnapshot := none }.respond answered (.failed EINTERNAL))
    | some reader =>
        (some reader,
          { executor with loadingSnapshot := true, loadingSnapshotMeta := some snapshot })

/-- `on_snapshot_load_done`. -/
def onSnapshotLoadDone (executor : SnapshotExecutor P) (status : Int) : SnapshotExecutor P :=
  let executor :=
    match executor.loadingSnapshotMeta with
    | some snapshot => if status = 0 then executor.setSnapshot snapshot else executor
    | none => executor
  let finished := { executor with loadingSnapshot := false, downloadingSnapshot := none }
  match executor.downloadingSnapshot with
  | none => finished
  | some request =>
      if status ≠ 0 then finished.respond request (.failed status)
      else finished.respond request (.replied request.term true)

end SnapshotExecutor

/-- What `FSMCaller` keeps about the state machine, and how the next load goes:
`queueAccepts` is the result of the execution queue and `onSnapshotLoad` the
return value of the user's function. -/
structure SnapshotFsm (P : Type) where
  lastAppliedId : LogId := {}
  errorCode : Int := 0
  queueAccepts : Bool := true
  onSnapshotLoad : Int := 0
  loaded : Option (SnapshotMeta P) := none

/-- `do_snapshot_load`, with the status that the closure gets. -/
def SnapshotFsm.doSnapshotLoad {P : Type} (fsm : SnapshotFsm P) (reader : SnapshotReader P) :
    Int × SnapshotFsm P :=
  match reader.loadMeta with
  | none => (-1, fsm)
  | some snapshot =>
      if snapshot.id < fsm.lastAppliedId then (ESTALE, fsm)
      else if fsm.onSnapshotLoad ≠ 0 then
        (fsm.onSnapshotLoad, { fsm with errorCode := fsm.onSnapshotLoad })
      else (0, { fsm with lastAppliedId := snapshot.id, loaded := some snapshot })

/-- The load task of the queue: refused when the node is down or the state
machine is in error. -/
def SnapshotFsm.onSnapshotLoadTask {P : Type} (fsm : SnapshotFsm P)
    (reader : SnapshotReader P) : Int × SnapshotFsm P :=
  if ¬ fsm.queueAccepts then (EHOSTDOWN, fsm)
  else if fsm.errorCode ≠ 0 then (EINVAL, fsm)
  else fsm.doSnapshotLoad reader

end QuorumKit
