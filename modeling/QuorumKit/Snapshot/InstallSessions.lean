/-
The threads that are in a snapshot executor: `install_snapshot`, `do_snapshot`,
`on_snapshot_save_done`, `on_snapshot_load_done`, `interrupt_downloading_snapshot` and
`shutdown` of `braft/snapshot_executor.cpp`.

A step is what one thread does while it holds the mutex, or what it does between two such
sections.  The copier, the state machine and the queue of `FSMCaller` take their own
steps.  A check that fails is recorded, and the thread goes on.
-/

import QuorumKit.Snapshot.SnapshotExecutor

namespace QuorumKit

/-- `DownloadingSnapshot`.  The ticket stands for the controller, the response and the
closure of one RPC. -/
structure DownloadingSnapshot (P : Type) where
  ticket : Nat
  request : InstallSnapshotRequest P
deriving DecidableEq

/-- The object that `_downloading_snapshot` points to: its address and its content, which
a retry replaces. -/
structure Downloading (P : Type) where
  address : Nat
  content : DownloadingSnapshot P
deriving DecidableEq

/-- `_cur_copier`.  When it has finished it has an error code, and perhaps a good reader. -/
structure CurCopier where
  cancelled : Bool := false
  finished : Option (Int × Bool) := none
deriving DecidableEq

/-- The thread of an RPC that has the right to download, or the closure it has left with the
state machine. -/
inductive InstallSession (P : Type) where
  /-- `register_downloading_snapshot` has returned 0. -/
  | joining (address : Nat) (snapshot : SnapshotMeta P)
  | joined (address : Nat) (snapshot : SnapshotMeta P)
  /-- `_loading_snapshot` has been set. -/
  | submitting
  /-- `InstallSnapshotDone` is going to be run, with a status of its own if it was refused. -/
  | loading (refused : Option Int)
  /-- `on_snapshot_load_done` has given up the lock. -/
  | finishing (downloading : Option Nat) (status : Int)
deriving DecidableEq

/-- The closure `SaveSnapshotDone` and the thread of `on_snapshot_save_done`. -/
inductive SaveSession (P : Type) where
  /-- `SaveSnapshotDone` is going to be run, with a status of its own if it was refused. -/
  | saving (hasDone : Bool) (refused : Option Int)
  | closing (hasDone : Bool) (status ret : Int) (snapshot : SnapshotMeta P)
  /-- Between `set_snapshot` and the last section. -/
  | closed (hasDone : Bool) (status ret : Int)
deriving DecidableEq

inductive TailStep (P : Type) where
  | reply (answered : DownloadingSnapshot P) (response : InstallSnapshotResponse)
  | signal
  | saveAnswer (status : Int)
deriving DecidableEq

structure InstallSessions (P : Type) where
  lastSnapshotTerm : Nat := 0
  lastSnapshotIndex : Nat := 0
  term : Nat := 0
  minIndexGap : Nat := 1
  savingSnapshot : Bool := false
  loadingSnapshot : Bool := false
  stopped : Bool := false
  loadingSnapshotMeta : Option (SnapshotMeta P) := none
  downloadingSnapshot : Option (Downloading P) := none
  curCopier : Option CurCopier := none
  runningJobs : Int := 0
  /-- The queue of `FSMCaller` has been stopped. -/
  queueStopped : Bool := false
  /-- No check has failed so far. -/
  checksHold : Bool := true
  setSnapshotCalls : List (SnapshotMeta P) := []
  reportedErrors : List Int := []
  /-- RPCs that are before `register_downloading_snapshot`. -/
  arrived : List (DownloadingSnapshot P) := []
  sessions : List (InstallSession P) := []
  saves : List (SaveSession P) := []
  /-- Calls of `shutdown` between their sections, with the term they have saved. -/
  stopping : List Nat := []
  tails : List (List (TailStep P)) := []
  /-- The closures that have been run, with their responses. -/
  answered : List (Nat × InstallSnapshotResponse) := []
  saveAnswers : List Int := []
  /-- How many RPCs there have been. -/
  calls : Nat := 0

namespace InstallSessions

variable {P : Type}

def check (executor : InstallSessions P) (holds : Bool) : InstallSessions P :=
  { executor with checksHold := executor.checksHold && holds }

def leave (executor : InstallSessions P) (tail : List (TailStep P)) : InstallSessions P :=
  { executor with tails := executor.tails ++ [tail] }

/-- The closure guard of `install_snapshot` runs the closure. -/
def refuse (executor : InstallSessions P) (ds : DownloadingSnapshot P)
    (response : InstallSnapshotResponse) : InstallSessions P :=
  executor.leave [.reply ds response]

def reportError (executor : InstallSessions P) (code : Int) : InstallSessions P :=
  { executor with reportedErrors := executor.reportedErrors ++ [code] }

def cancelCopier (executor : InstallSessions P) : InstallSessions P :=
  { executor with
    curCopier := executor.curCopier.map (fun copier => { copier with cancelled := true }) }

def setSnapshot (executor : InstallSessions P) (snapshot : SnapshotMeta P) :
    InstallSessions P :=
  { executor with
    lastSnapshotIndex := snapshot.lastIncludedIndex
    lastSnapshotTerm := snapshot.lastIncludedTerm
    setSnapshotCalls := executor.setSnapshotCalls ++ [snapshot] }

/-- `install_snapshot` up to the registration. -/
def installSnapshot (executor : InstallSessions P) (request : InstallSnapshotRequest P)
    (throttled : Bool) : InstallSessions P :=
  let ds : DownloadingSnapshot P := { ticket := executor.calls, request := request }
  let executor := { executor with calls := executor.calls + 1 }
  if throttled then executor.refuse ds (.failed EBUSY)
  else { executor with arrived := executor.arrived ++ [ds] }

/-- `register_downloading_snapshot` where nothing is being downloaded. -/
def startDownloading (executor : InstallSessions P) (ds : DownloadingSnapshot P)
    (copierStarts : Bool) : InstallSessions P :=
  let executor := executor.check executor.curCopier.isNone
  if copierStarts then
    { executor with
      downloadingSnapshot := some { address := ds.ticket, content := ds }
      curCopier := some {}
      runningJobs := executor.runningJobs + 1
      sessions := executor.sessions ++ [.joining ds.ticket ds.request.snapshotMeta] }
  else { executor with curCopier := none }.refuse ds (.failed EINVAL)

/-- `register_downloading_snapshot` where a former snapshot is being installed. -/
def meetDownloading (executor : InstallSessions P) (former : Downloading P)
    (ds : DownloadingSnapshot P) : InstallSessions P :=
  let index := ds.request.snapshotMeta.lastIncludedIndex
  let formerIndex := former.content.request.snapshotMeta.lastIncludedIndex
  if formerIndex = index then
    -- the former RPC is answered now, this one by the session that goes on
    { executor with
      downloadingSnapshot := some { former with content := ds } }.refuse former.content
        (.failed EINTR)
  else if index < formerIndex then executor.refuse ds (.failed EINVAL)
  else if executor.loadingSnapshot then executor.refuse ds (.failed EBUSY)
  else (executor.check executor.curCopier.isSome).cancelCopier.refuse ds (.failed EBUSY)

/-- `register_downloading_snapshot` for an RPC. -/
def registerDownloadingSnapshot (executor : InstallSessions P) (ds : DownloadingSnapshot P)
    (copierStarts : Bool) : InstallSessions P :=
  if executor.stopped then executor.refuse ds (.failed EHOSTDOWN)
  else if ds.request.term ≠ executor.term then executor.refuse ds (.replied executor.term false)
  else if ds.request.snapshotMeta.lastIncludedIndex ≤ executor.lastSnapshotIndex then
    executor.refuse ds (.replied executor.term true)
  else if executor.savingSnapshot then executor.refuse ds (.failed EBUSY)
  else
    match executor.downloadingSnapshot with
    | none => executor.startDownloading ds copierStarts
    | some former => executor.meetDownloading former ds

/-- `load_downloading_snapshot` with the result of the copier. -/
def finishCopy (executor : InstallSessions P) (downloading : Downloading P)
    (snapshot : SnapshotMeta P) (code : Int) (hasReader : Bool) : InstallSessions P :=
  let finished := { executor with curCopier := none, downloadingSnapshot := none }
  if code ≠ 0 then
    (if code = EIO then finished.reportError code else finished).leave
      [.signal, .reply downloading.content (.failed code)]
  else if ¬ hasReader then
    finished.leave [.signal, .reply downloading.content (.failed EINTERNAL)]
  else
    { executor with
      curCopier := none
      loadingSnapshot := true
      loadingSnapshotMeta := some snapshot
      sessions := executor.sessions ++ [.submitting] }

/-- `load_downloading_snapshot` up to the end of its section. -/
def loadDownloadingSnapshot (executor : InstallSessions P) (address : Nat)
    (snapshot : SnapshotMeta P) : InstallSessions P :=
  let executor := executor.check
    (executor.downloadingSnapshot.map Downloading.address = some address)
  let executor := executor.check executor.curCopier.isSome
  match executor.downloadingSnapshot, executor.curCopier.bind CurCopier.finished with
  | some downloading, some (code, hasReader) =>
      executor.finishCopy downloading snapshot code hasReader
  | _, _ => executor

/-- The first section of `on_snapshot_load_done`. -/
def loadDone (executor : InstallSessions P) (status : Int) : InstallSessions P :=
  let executor := executor.check executor.loadingSnapshot
  let executor :=
    match executor.loadingSnapshotMeta with
    | some snapshot => if status = 0 then executor.setSnapshot snapshot else executor
    | none => executor
  { executor with
    sessions := executor.sessions ++
      [.finishing (executor.downloadingSnapshot.map Downloading.address) status] }

/-- The second section; the RPC that is answered is the one that is there now. -/
def loadEnd (executor : InstallSessions P) (address : Option Nat) (status : Int) :
    InstallSessions P :=
  let finished := { executor with loadingSnapshot := false, downloadingSnapshot := none }
  match executor.downloadingSnapshot, address with
  | some downloading, some _ =>
      finished.leave
        [.reply downloading.content
            (if status ≠ 0 then .failed status
              else .replied downloading.content.request.term true),
          .signal]
  | _, _ => finished.leave [.signal]

/-- What the thread of a session does next.  `status` is the status that the state machine
gives to the closure. -/
def sessionStep (executor : InstallSessions P) (status : Int) :
    InstallSession P → Option (InstallSessions P)
  | .joining address snapshot =>
      let checked := executor.check executor.curCopier.isSome
      match executor.curCopier with
      | some copier =>
          if copier.finished.isSome then
            some { checked with sessions := checked.sessions ++ [.joined address snapshot] }
          else none
      | none => some checked
  | .joined address snapshot => some (executor.loadDownloadingSnapshot address snapshot)
  | .submitting =>
      some
        { executor with
          sessions := executor.sessions ++
            [.loading (if executor.queueStopped then some EHOSTDOWN else none)] }
  | .loading refused => some (executor.loadDone (refused.getD status))
  | .finishing address status => some (executor.loadEnd address status)

/-- The user's closure of `do_snapshot`, if there is one. -/
def answerSave (executor : InstallSessions P) (hasDone : Bool) (status : Int) :
    InstallSessions P :=
  if hasDone then executor.leave [.saveAnswer status] else executor

/-- `do_snapshot`.  When the queue refuses the closure, it is run only if the user gave one. -/
def doSnapshot (executor : InstallSessions P) (appliedIndex : Nat) (createsWriter hasDone : Bool) :
    InstallSessions P :=
  if executor.stopped then executor.answerSave hasDone EPERM
  else if executor.downloadingSnapshot.isSome then executor.answerSave hasDone EBUSY
  else if executor.savingSnapshot then executor.answerSave hasDone EBUSY
  else if appliedIndex < executor.lastSnapshotIndex + executor.minIndexGap then
    executor.answerSave hasDone 0
  else if ¬ createsWriter then (executor.answerSave hasDone EIO).reportError EIO
  else
    let saving := { executor with savingSnapshot := true }
    if executor.queueStopped then
      if hasDone then
        { saving with saves := saving.saves ++ [.saving hasDone (some EHOSTDOWN)] }
      else saving
    else
      { saving with
        saves := saving.saves ++ [.saving hasDone none]
        runningJobs := saving.runningJobs + 1 }

/-- What `on_snapshot_save_done` does next.  `status` and `snapshot` come from the state
machine; `writes` says whether the writer takes the meta and is closed without an error. -/
def saveStep (executor : InstallSessions P) (status : Int) (snapshot : SnapshotMeta P)
    (writes : Bool) : SaveSession P → InstallSessions P
  | .saving hasDone refused =>
      let status := refused.getD status
      let ret :=
        if status = 0 ∧ snapshot.lastIncludedIndex ≤ executor.lastSnapshotIndex then ESTALE
        else status
      { executor with saves := executor.saves ++ [.closing hasDone status ret snapshot] }
  | .closing hasDone status ret snapshot =>
      let ret := if writes then ret else EIO
      let executor := if ret = 0 then executor.setSnapshot snapshot else executor
      { executor with saves := executor.saves ++ [.closed hasDone status ret] }
  | .closed hasDone status ret =>
      let executor := if ret = EIO then executor.reportError EIO else executor
      { executor with savingSnapshot := false }.leave
        (.signal :: if hasDone then [.saveAnswer (if ret ≠ 0 ∧ status = 0 then ret else status)]
          else [])

/-- `interrupt_downloading_snapshot`. -/
def interruptDownloadingSnapshot (executor : InstallSessions P) (newTerm : Nat) :
    InstallSessions P :=
  let executor := { executor with term := newTerm }
  if executor.downloadingSnapshot.isNone then executor
  else if executor.loadingSnapshot then executor
  else (executor.check executor.curCopier.isSome).cancelCopier

/-- The first section of `shutdown`. -/
def shutdown (executor : InstallSessions P) : InstallSessions P :=
  { executor with stopped := true, stopping := executor.stopping ++ [executor.term] }

/-- The checks of the destructor, after `join`. -/
def destroy (executor : InstallSessions P) : InstallSessions P :=
  executor.check (¬ executor.savingSnapshot ∧ executor.curCopier.isNone ∧
    ¬ executor.loadingSnapshot ∧ executor.downloadingSnapshot.isNone)

def tailStep (executor : InstallSessions P) : TailStep P → InstallSessions P
  | .reply ds response =>
      { executor with answered := executor.answered ++ [(ds.ticket, response)] }
  | .signal => { executor with runningJobs := executor.runningJobs - 1 }
  | .saveAnswer status => { executor with saveAnswers := executor.saveAnswers ++ [status] }

inductive Action (P : Type) where
  | installSnapshot (request : InstallSnapshotRequest P) (throttled : Bool)
  | doSnapshot (appliedIndex : Nat) (createsWriter hasDone : Bool)
  | interrupt (newTerm : Nat)
  | shutdown
  /-- `FSMCaller::shutdown`, which a node calls after that of the executor. -/
  | stopQueue
  | destroy
  | register (position : Nat) (copierStarts : Bool)
  | copierFinishes (code : Int) (hasReader : Bool)
  | session (position : Nat) (status : Int)
  | save (position : Nat) (status : Int) (snapshot : SnapshotMeta P) (writes : Bool)
  | stop (position : Nat)
  | tail (position : Nat)

def step (action : Action P) (executor : InstallSessions P) : Option (InstallSessions P) :=
  match action with
  | .installSnapshot request throttled => some (executor.installSnapshot request throttled)
  | .doSnapshot appliedIndex createsWriter hasDone =>
      some (executor.doSnapshot appliedIndex createsWriter hasDone)
  | .interrupt newTerm => some (executor.interruptDownloadingSnapshot newTerm)
  | .shutdown => some executor.shutdown
  | .stopQueue => if executor.stopped then some { executor with queueStopped := true } else none
  | .destroy =>
      -- `join` waits for the running jobs
      if executor.stopped ∧ executor.runningJobs ≤ 0 then some executor.destroy else none
  | .register position copierStarts =>
      executor.arrived[position]?.map (fun ds =>
        { executor with arrived := executor.arrived.eraseIdx position }.registerDownloadingSnapshot
          ds copierStarts)
  | .copierFinishes code hasReader =>
      match executor.curCopier with
      | some { cancelled, finished := none } =>
          some
            { executor with
              curCopier := some { cancelled := cancelled, finished := some (code, hasReader) } }
      | _ => none
  | .session position status =>
      executor.sessions[position]?.bind (fun session =>
        { executor with sessions := executor.sessions.eraseIdx position }.sessionStep status session)
  | .save position status snapshot writes =>
      executor.saves[position]?.map (fun save =>
        { executor with saves := executor.saves.eraseIdx position }.saveStep status snapshot writes
          save)
  | .stop position =>
      executor.stopping[position]?.map (fun term =>
        { executor with stopping := executor.stopping.eraseIdx position }.interruptDownloadingSnapshot
          term)
  | .tail position =>
      match executor.tails[position]? with
      | some (first :: rest) =>
          some ({ executor with
            tails := executor.tails.eraseIdx position ++ [rest] }.tailStep first)
      | _ => none

end InstallSessions

end QuorumKit
