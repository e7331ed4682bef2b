/-
`Replicator`: how a leader keeps one follower supplied with entries.

Requests are sent without waiting for the answers to earlier ones.  The queue of those in
flight, the next index and their number of entries are kept together: a success takes
requests from the front of the queue, any failure empties it.  The log manager, the answers,
the timers and the calls that are woken by new entries come with each action.
-/

import QuorumKit.AppendEntries
import QuorumKit.Library.TransitionSystem

namespace QuorumKit

inductive ReplicatorState where
  | idle
  | blocking
  | appendingEntries
  | installingSnapshot
deriving DecidableEq, Repr

structure FlyingAppendEntriesRpc where
  logIndex : Nat
  entriesSize : Nat
  callId : Nat
deriving DecidableEq, Repr

/-- The options of a replicator; `noData` is an empty buffer. -/
structure ReplicatorOptions (P D : Type) where
  serverId : P
  term : Nat
  isWitness : Bool := false
  nodeIsWitness : Bool := false
  noData : D

/-- What `_install_snapshot` finds in the snapshot storage. -/
inductive SnapshotFound where
  | notOpened
  | noUri
  | noMeta
  | found (lastIncludedIndex : Nat)
deriving DecidableEq, Repr

/-- What a call of `_install_snapshot`, and of `_block` behind it, meets. -/
structure InstallAttempt where
  throttled : Bool := false
  snapshot : SnapshotFound := .notOpened
  timerAdded : Bool := true
deriving DecidableEq, Repr

/-- What the replicator reads while it runs, with the flags; each call of `_install_snapshot`
or `_block` takes the next of the attempts. -/
structure ReplicatorSurroundings (P D C : Type) where
  logManager : LogManager P D C
  lastCommittedIndex : Nat := 0
  maxEntriesSize : Nat := 1024
  maxParallelAppendEntriesRpcNum : Nat := 1
  maxBodySize : Nat := 512 * 1024
  enableWitnessToLeader : Bool := false
  attempts : List InstallAttempt := [{}]

structure Replicator (P D : Type) where
  nextIndex : Nat
  flyingAppendEntriesSize : Nat := 0
  hasSucceeded : Bool := false
  timeoutNowIndex : Nat := 0
  readonlyIndex : Nat := 0
  st : ReplicatorState := .idle
  appendEntriesInFly : List FlyingAppendEntriesRpc := []
  /-- The last index of the snapshot that is being installed. -/
  installSnapshotInFly : Option Nat := none
  reader : Bool := false
  waitId : Nat := 0
  isWaiterCanceled : Bool := false
  destroyed : Bool := false
  /-- All requests, in the order of their call ids. -/
  sent : List (AppendEntriesRequest P D) := []
  /-- Calls of `_continue_sending` that the log manager has not made. -/
  waiters : Nat := 0
  lastWaitId : Nat := 0
  /-- Timers of `_block`, and those that have set the state but not yet sent anything. -/
  blockTimers : Nat := 0
  blockTimeouts : Nat := 0
  /-- The calls of `commit_at`, newest first. -/
  committed : List (Nat × Nat) := []
  /-- The last indexes of the requests that succeeded, newest first. -/
  acknowledged : List Nat := []
  /-- The last indexes of the snapshots that were installed, newest first. -/
  installed : List Nat := []

namespace Replicator

variable {P D C : Type}

def minFlyingIndex (r : Replicator P D) : Nat := r.nextIndex - r.flyingAppendEntriesSize

/-- `_reset_next_index`; a waiter that is removed may have been woken already. -/
def resetNextIndex (r : Replicator P D) : Replicator P D :=
  { r with
    nextIndex := r.nextIndex - r.flyingAppendEntriesSize
    flyingAppendEntriesSize := 0
    appendEntriesInFly := []
    isWaiterCanceled := true
    waitId := 0 }

/-- `LogManager::wait` gives no id to a waiter that it wakes at once. -/
def waitMoreEntries (around : ReplicatorSurroundings P D C) (r : Replicator P D) : Replicator P D :=
  let waiting : Replicator P D :=
    if r.waitId = 0 ∧ r.flyingAppendEntriesSize < around.maxEntriesSize ∧
        r.appendEntriesInFly.length < around.maxParallelAppendEntriesRpcNum then
      { r with
        waitId := if around.logManager.lastLogIndex ≠ r.nextIndex - 1 then 0 else r.lastWaitId + 1
        lastWaitId := r.lastWaitId + 1
        waiters := r.waiters + 1
        isWaiterCanceled := false }
    else r
  if waiting.flyingAppendEntriesSize = 0 then { waiting with st := .idle } else waiting

/-- `_block`; `retry` sends empty entries when there is no timer. -/
def block (attempt : InstallAttempt) (retry : Replicator P D → Option (Replicator P D))
    (r : Replicator P D) : Option (Replicator P D) :=
  if r.st = .blocking then some r
  else if attempt.timerAdded then
    some { r with st := .blocking, blockTimers := r.blockTimers + 1 }
  else retry r

def installSnapshot (options : ReplicatorOptions P D) (attempt : InstallAttempt)
    (retry : Replicator P D → Option (Replicator P D)) (r : Replicator P D) :
    Option (Replicator P D) :=
  if options.nodeIsWitness then block attempt retry r
  else if r.reader then some r
  else if attempt.throttled then block attempt retry r
  else
    let installing : Replicator P D := { r with st := .installingSnapshot }
    match attempt.snapshot with
    | .notOpened => some installing
    | .noUri => block attempt retry installing
    | .noMeta => some { installing with reader := true }
    | .found lastIncludedIndex =>
        some { installing with reader := true, installSnapshotInFly := some lastIncludedIndex }

/-- `_fill_common_fields`: the entry before the request, if it is not compacted. -/
def fillCommonFields (manager : LogManager P D C) (prevLogIndex : Nat) (isHeartbeat : Bool) :
    Option (Option (Nat × Nat)) :=
  let prevLogTerm := manager.getTerm prevLogIndex
  if prevLogTerm = 0 ∧ prevLogIndex ≠ 0 then
    if isHeartbeat then some (some (0, prevLogTerm))
    else if prevLogIndex < manager.firstLogIndex then some none
    else none
  else some (some (prevLogIndex, prevLogTerm))

def request (options : ReplicatorOptions P D) (around : ReplicatorSurroundings P D C)
    (prevLog : Nat × Nat) (entries : List (EntryMeta P D)) : AppendEntriesRequest P D :=
  { serverId := options.serverId
    term := options.term
    prevLogIndex := prevLog.1
    prevLogTerm := prevLog.2
    committedIndex := around.lastCommittedIndex
    entries := entries }

def push (request : AppendEntriesRequest P D) (r : Replicator P D) : Replicator P D :=
  { r with
    appendEntriesInFly := r.appendEntriesInFly ++
      [{ logIndex := r.nextIndex, entriesSize := request.entries.length,
         callId := r.sent.length }]
    sent := r.sent ++ [request]
    nextIndex := r.nextIndex + request.entries.length
    flyingAppendEntriesSize := r.flyingAppendEntriesSize + request.entries.length
    st := .appendingEntries }

/-- `_send_empty_entries(false)`. -/
def sendEmptyEntries (options : ReplicatorOptions P D) (around : ReplicatorSurroundings P D C) :
    List InstallAttempt → Replicator P D → Option (Replicator P D)
  | [], _ => none
  | attempt :: rest, r =>
      match fillCommonFields around.logManager (r.nextIndex - 1) false with
      | none => none
      | some none => installSnapshot options attempt (sendEmptyEntries options around rest) r
      | some (some prevLog) =>
          if r.appendEntriesInFly ≠ [] ∨ r.flyingAppendEntriesSize ≠ 0 then none
          else some (r.push (request options around prevLog []))

/-- `_prepare_entry`: an error number, or the entry with its size. -/
def prepareEntry (options : ReplicatorOptions P D) (around : ReplicatorSurroundings P D C)
    (offset dataLength : Nat) (r : Replicator P D) :
    Option (Except Int (EntryMeta P D × Nat × Replicator P D)) :=
  if around.maxBodySize ≤ dataLength then some (.error ERANGE)
  else
    let logIndex := r.nextIndex + offset
    match around.logManager.getEntry logIndex with
    | none => some (.error ENOENT)
    | some entry =>
        let readonly : Bool := r.readonlyIndex ≠ 0 ∧ r.readonlyIndex ≤ logIndex
        if readonly ∧ entry.type ≠ .configuration then some (.error EREADONLY)
        else if entry.peers.elim (decide (entry.type = .configuration)) List.isEmpty then none
        else
          let withData : Bool := ¬ options.isWitness ∨ around.enableWitnessToLeader
          let entryMeta : EntryMeta P D :=
            { term := entry.id.term
              type := entry.type
              peers := entry.peers.getD []
              oldPeers := if entry.peers.isNone then [] else entry.oldPeers.getD []
              data := if withData then entry.data else options.noData }
          some (.ok (entryMeta, if withData then around.logManager.dataLength entry.data else 0,
            if readonly then { r with readonlyIndex := logIndex + 1 } else r))

/-- The loop of `_send_entries` over at most `left` entries, with the last error number. -/
def prepareEntries (options : ReplicatorOptions P D) (around : ReplicatorSurroundings P D C) :
    Nat → Nat → Nat → Replicator P D → Option (List (EntryMeta P D) × Int × Replicator P D)
  | 0, _, _, r => some ([], 0, r)
  | left + 1, offset, dataLength, r =>
      match prepareEntry options around offset dataLength r with
      | none => none
      | some (.error errorCode) => some ([], errorCode, r)
      | some (.ok (entryMeta, size, prepared)) =>
          (prepareEntries options around left (offset + 1) (dataLength + size) prepared).map
            (fun (entries, errorCode, last) => (entryMeta :: entries, errorCode, last))

/-- `_install_snapshot` where no entries have been sent. -/
def startInstall (options : ReplicatorOptions P D) (around : ReplicatorSurroundings P D C)
    (r : Replicator P D) : Option (Replicator P D) :=
  match around.attempts with
  | [] => none
  | attempt :: rest => installSnapshot options attempt (sendEmptyEntries options around rest) r

def sendEntries (options : ReplicatorOptions P D) (around : ReplicatorSurroundings P D C)
    (r : Replicator P D) : Option (Replicator P D) :=
  let manager := around.logManager
  if around.maxEntriesSize ≤ r.flyingAppendEntriesSize ∨
      around.maxParallelAppendEntriesRpcNum ≤ r.appendEntriesInFly.length ∨
      r.st = .blocking then
    some r
  else
    match fillCommonFields manager (r.nextIndex - 1) false with
    | none => none
    | some none => startInstall options around r.resetNextIndex
    | some (some prevLog) =>
        match prepareEntries options around
            (around.maxEntriesSize - r.flyingAppendEntriesSize) 0 0 r with
        | none => none
        | some ([], errorCode, prepared) =>
            if prepared.nextIndex < manager.firstLogIndex then
              startInstall options around prepared.resetNextIndex
            else if errorCode = EREADONLY then
              some (if prepared.flyingAppendEntriesSize = 0 then { prepared with st := .idle }
                else prepared)
            else some (prepared.waitMoreEntries around)
        | some (entryMeta :: entries, _, prepared) =>
            some ((prepared.push (request options around prevLog
              (entryMeta :: entries))).waitMoreEntries around)

/-- What `_on_rpc_returned` is called with. -/
inductive RpcAnswer where
  | failed
  | returned (response : AppendEntriesResponse)
deriving DecidableEq, Repr

def isValidRpc (callId rpcFirstIndex : Nat) (r : Replicator P D) : Bool :=
  (r.appendEntriesInFly.takeWhile (fun rpc => rpc.logIndex ≤ rpcFirstIndex)).any
    (fun rpc => rpc.callId = callId)

def popSucceeded (rpcFirstIndex : Nat) :
    List FlyingAppendEntriesRpc → Nat → List FlyingAppendEntriesRpc × Nat
  | [], size => ([], size)
  | rpc :: rest, size =>
      if rpc.logIndex ≤ rpcFirstIndex then popSucceeded rpcFirstIndex rest (size - rpc.entriesSize)
      else (rpc :: rest, size)

/-- `_send_timeout_now`, when it is due. -/
def timeoutNow (r : Replicator P D) : Replicator P D :=
  if 0 < r.timeoutNowIndex ∧ r.timeoutNowIndex < r.minFlyingIndex then
    { r with timeoutNowIndex := 0 }
  else r

/-- The next index after an answer that the entry before the request does not match. -/
def indexAfterMismatch (lastLogIndex nextIndex : Nat) : Nat :=
  if lastLogIndex + 1 < nextIndex then lastLogIndex + 1
  else if 1 < nextIndex then nextIndex - 1
  else nextIndex

/-- `_block` where an answer has failed. -/
def blockFailed (options : ReplicatorOptions P D) (around : ReplicatorSurroundings P D C)
    (r : Replicator P D) : Option (Replicator P D) :=
  match around.attempts with
  | [] => none
  | attempt :: rest => block attempt (sendEmptyEntries options around rest) r

/-- The success of a request: it and all requests before it leave the queue. -/
def succeed (request : AppendEntriesRequest P D) (r : Replicator P D) : Replicator P D :=
  let rpcLastLogIndex := request.prevLogIndex + request.entries.length
  let popped := popSucceeded (request.prevLogIndex + 1) r.appendEntriesInFly
    r.flyingAppendEntriesSize
  { r with
    committed :=
      if request.entries.isEmpty then r.committed
      else (r.minFlyingIndex, rpcLastLogIndex) :: r.committed
    acknowledged := rpcLastLogIndex :: r.acknowledged
    appendEntriesInFly := popped.1
    flyingAppendEntriesSize := popped.2
    hasSucceeded := true }

def onRpcReturned (options : ReplicatorOptions P D) (around : ReplicatorSurroundings P D C) (callId : Nat)
    (answer : RpcAnswer) (r : Replicator P D) : Option (Replicator P D) :=
  match r.sent[callId]? with
  | none => none
  | some request =>
      if r.minFlyingIndex = 0 then none
      else if ¬ r.isValidRpc callId (request.prevLogIndex + 1) then some r
      else
        match answer with
        | .failed => blockFailed options around r.resetNextIndex
        | .returned response =>
            if ¬ response.success then
              if options.term < response.term then
                some { r.resetNextIndex with destroyed := true }
              else
                let reset := r.resetNextIndex
                sendEmptyEntries options around around.attempts
                  { reset with
                    nextIndex := indexAfterMismatch response.lastLogIndex reset.nextIndex }
            else if response.term ≠ options.term then some r.resetNextIndex
            else sendEntries options around (r.succeed request).timeoutNow

def onInstallSnapshotReturned (options : ReplicatorOptions P D) (around : ReplicatorSurroundings P D C)
    (success : Bool) (r : Replicator P D) : Option (Replicator P D) :=
  match r.installSnapshotInFly with
  | none => none
  | some lastIncludedIndex =>
      let closed : Replicator P D := { r with reader := false, installSnapshotInFly := none }
      if ¬ success then blockFailed options around closed
      else
        let installed : Replicator P D :=
          { closed with
            nextIndex := lastIncludedIndex + 1
            installed := lastIncludedIndex :: closed.installed
            hasSucceeded := true }
        sendEntries options around installed.timeoutNow

/-- The first half of `_on_block_timedout_in_new_thread`. -/
def onBlockTimedout (r : Replicator P D) : Option (Replicator P D) :=
  if r.blockTimers = 0 then none
  else
    some { r with
      st := .idle
      blockTimers := r.blockTimers - 1
      blockTimeouts := r.blockTimeouts + 1 }

/-- `_continue_sending` with `ETIMEDOUT`. -/
def continueTimedout (options : ReplicatorOptions P D) (around : ReplicatorSurroundings P D C)
    (r : Replicator P D) : Option (Replicator P D) :=
  if r.blockTimeouts = 0 then none
  else
    let timedout : Replicator P D := { r with blockTimeouts := r.blockTimeouts - 1 }
    if r.waitId ≠ 0 then some timedout
    else sendEmptyEntries options around around.attempts timedout

/-- `_continue_sending` from the log manager, with `ESTOP` once it has stopped. -/
def continueSending (options : ReplicatorOptions P D) (around : ReplicatorSurroundings P D C)
    (stopped : Bool) (r : Replicator P D) : Option (Replicator P D) :=
  if r.waiters = 0 then none
  else
    let woken : Replicator P D := { r with waiters := r.waiters - 1 }
    if ¬ stopped ∧ ¬ r.isWaiterCanceled then sendEntries options around { woken with waitId := 0 }
    else some woken

def changeReadonlyConfig (around : ReplicatorSurroundings P D C) (readonly : Bool) (r : Replicator P D) :
    Replicator P D :=
  if readonly = decide (r.readonlyIndex ≠ 0) then r
  else if readonly then { r with readonlyIndex := around.logManager.lastLogIndex + 1 }
  else { r with readonlyIndex := 0 }.waitMoreEntries around

def transferLeadership (logIndex : Nat) (r : Replicator P D) : Replicator P D :=
  if r.hasSucceeded ∧ logIndex < r.minFlyingIndex then { r with timeoutNowIndex := 0 }
  else { r with timeoutNowIndex := logIndex }

/-- `sendHeartbeat` is `_send_empty_entries(true)`, and `destroy` an answer with a higher term
to a heartbeat or another request, or the end of the replicator by `stop`. -/
inductive Action (P D C : Type) where
  | onRpcReturned (around : ReplicatorSurroundings P D C) (callId : Nat) (answer : RpcAnswer)
  | onInstallSnapshotReturned (around : ReplicatorSurroundings P D C) (success : Bool)
  | onBlockTimedout
  | continueTimedout (around : ReplicatorSurroundings P D C)
  | continueSending (around : ReplicatorSurroundings P D C) (stopped : Bool)
  | changeReadonlyConfig (around : ReplicatorSurroundings P D C) (readonly : Bool)
  | sendHeartbeat (around : ReplicatorSurroundings P D C)
  | transferLeadership (logIndex : Nat)
  | stopTransferLeadership
  | destroy

def step (options : ReplicatorOptions P D) (action : Action P D C) (r : Replicator P D) :
    Option (Replicator P D) :=
  if r.destroyed then some r
  else
    match action with
    | .onRpcReturned around callId answer => r.onRpcReturned options around callId answer
    | .onInstallSnapshotReturned around success =>
        r.onInstallSnapshotReturned options around success
    | .onBlockTimedout => r.onBlockTimedout
    | .continueTimedout around => r.continueTimedout options around
    | .continueSending around stopped => r.continueSending options around stopped
    | .changeReadonlyConfig around readonly => some (r.changeReadonlyConfig around readonly)
    | .sendHeartbeat around =>
        (fillCommonFields around.logManager (r.nextIndex - 1) true).map (fun _ => r)
    | .transferLeadership logIndex => some (r.transferLeadership logIndex)
    | .stopTransferLeadership => some { r with timeoutNowIndex := 0 }
    | .destroy => some { r with destroyed := true }

/-- A replicator at the end of `start`. -/
def Started (options : ReplicatorOptions P D) (C : Type) (r : Replicator P D) : Prop :=
  ∃ around : ReplicatorSurroundings P D C,
    sendEmptyEntries options around around.attempts
      { nextIndex := around.logManager.lastLogIndex + 1 } = some r

def system (options : ReplicatorOptions P D) (C : Type) :
    TransitionSystem (Replicator P D) (Action P D C) :=
  { init := Started options C, allowed := fun _ _ => True, step := step options }

end Replicator

end QuorumKit
