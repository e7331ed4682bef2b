/-
The caller of the state machine, `FSMCaller` and `IteratorImpl` of
`braft/fsm_caller.cpp`.

`run` only decides which calls a batch of tasks leads to; the calls are then made
one after the other.  What a call reads of the log and which closures it has popped
is passed to it, since other threads change both.  The state machine consumes each
iterator and does not roll back.
-/

import QuorumKit.LogEntry
import QuorumKit.Errno

namespace QuorumKit

variable {P D K : Type}

/-- What `do_committed` sees of the log and the closures that it has popped. -/
structure Surroundings (P D K : Type) where
  getEntry : Nat → Option (LogEntry P D)
  getTerm : Nat → Nat
  closures : List K := []
  firstClosureIndex : Nat := 0

structure IteratorImpl (P D K : Type) where
  closures : List K := []
  firstClosureIndex : Nat := 0
  curIndex : Nat
  committedIndex : Nat
  curEntry : Option (LogEntry P D) := none
  hasError : Bool := false

namespace IteratorImpl

def next (iter : IteratorImpl P D K) (getEntry : Nat → Option (LogEntry P D)) :
    IteratorImpl P D K :=
  if iter.curIndex ≤ iter.committedIndex then
    if iter.curIndex + 1 ≤ iter.committedIndex then
      { iter with
        curIndex := iter.curIndex + 1
        curEntry := getEntry (iter.curIndex + 1)
        hasError := iter.hasError || (getEntry (iter.curIndex + 1)).isNone }
    else { iter with curIndex := iter.curIndex + 1, curEntry := none }
  else { iter with curEntry := none }

def init (closures : List K) (firstClosureIndex lastAppliedIndex committedIndex : Nat)
    (getEntry : Nat → Option (LogEntry P D)) : IteratorImpl P D K :=
  next
    { closures := closures
      firstClosureIndex := firstClosureIndex
      curIndex := lastAppliedIndex
      committedIndex := committedIndex }
    getEntry

def isGood (iter : IteratorImpl P D K) : Bool :=
  iter.curIndex ≤ iter.committedIndex ∧ iter.hasError = false

def done (iter : IteratorImpl P D K) : Option K :=
  if iter.curIndex < iter.firstClosureIndex then none
  else iter.closures[iter.curIndex - iter.firstClosureIndex]?

/-- `Iterator::valid`: the current entry is one for the state machine. -/
def data (iter : IteratorImpl P D K) : Option (LogEntry P D) :=
  if iter.isGood then iter.curEntry.filter (fun entry => entry.type = .data) else none

end IteratorImpl

/-- What the state machine is called with: the entries of one iterator, or a
snapshot to load. -/
inductive FsmEvent (P D : Type) where
  | onApply (entries : List (LogEntry P D))
  | onSnapshotLoad (id : LogId)

/-- How the steps of `do_snapshot_load` go. -/
inductive SnapshotLoad where
  | noReader
  | badMeta (ret : Int)
  | opened (id : LogId) (ret : Int)

inductive ApplyTask where
  | committed (committedIndex : Nat)
  | snapshotLoad (load : SnapshotLoad)
  | error
  /-- `SNAPSHOT_SAVE` and the notifications, which change nothing here. -/
  | other

structure FSMCaller (P D : Type) where
  lastAppliedIndex : Nat
  lastAppliedTerm : Nat
  error : Bool := false
  /-- The calls of the state machine, oldest first. -/
  events : List (FsmEvent P D) := []

namespace FSMCaller

/-- The loop of `on_apply` over the iterator. -/
def onApply (getEntry : Nat → Option (LogEntry P D)) :
    Nat → IteratorImpl P D K → List (LogEntry P D) × IteratorImpl P D K
  | 0, iter => ([], iter)
  | fuel + 1, iter =>
      match iter.data with
      | some entry =>
          match onApply getEntry fuel (iter.next getEntry) with
          | (later, iter) => (entry :: later, iter)
      | none => ([], iter)

/-- The loop of `do_committed`. -/
def applyLoop (getEntry : Nat → Option (LogEntry P D)) :
    Nat → IteratorImpl P D K → List (FsmEvent P D) × IteratorImpl P D K
  | 0, iter => ([], iter)
  | fuel + 1, iter =>
      if iter.isGood then
        if iter.data.isSome then
          match onApply getEntry (fuel + 1) iter with
          | (entries, iter) =>
              match applyLoop getEntry fuel iter with
              | (later, iter) => (.onApply entries :: later, iter)
        else applyLoop getEntry fuel (iter.next getEntry)
      else ([], iter)

def doCommitted (caller : FSMCaller P D) (view : Surroundings P D K) (committedIndex : Nat) :
    FSMCaller P D :=
  if caller.error then caller
  else if committedIndex ≤ caller.lastAppliedIndex then caller
  else
    let iter := IteratorImpl.init view.closures view.firstClosureIndex caller.lastAppliedIndex
      committedIndex view.getEntry
    match applyLoop view.getEntry (committedIndex - caller.lastAppliedIndex + 1) iter with
    | (events, iter) =>
        { lastAppliedIndex := committedIndex
          lastAppliedTerm := view.getTerm (iter.curIndex - 1)
          error := iter.hasError
          events := caller.events ++ events }

def doSnapshotLoad (caller : FSMCaller P D) : SnapshotLoad → FSMCaller P D
  | .noReader => caller
  | .badMeta ret => if ret = EIO then { caller with error := true } else caller
  | .opened id ret =>
      if id < { index := caller.lastAppliedIndex, term := caller.lastAppliedTerm } then caller
      else if ret ≠ 0 then { caller with error := true }
      else
        { caller with
          lastAppliedIndex := id.index
          lastAppliedTerm := id.term
          events := caller.events ++ [.onSnapshotLoad id] }

inductive Call where
  | doCommitted (committedIndex : Nat)
  | doSnapshotLoad (load : SnapshotLoad)
  | doOnError

def flush (maxCommittedIndex : Option Nat) : List Call :=
  (maxCommittedIndex.map Call.doCommitted).toList

/-- The loop of `run`.  `maxCommittedIndex` is `-1` in the source when there is
nothing to commit. -/
def calls (batchSize : Nat) : List ApplyTask → Option Nat → Nat → List Call
  | [], maxCommittedIndex, _ => flush maxCommittedIndex
  | .committed committedIndex :: rest, maxCommittedIndex, counter =>
      if counter < batchSize then
        if maxCommittedIndex.all (· < committedIndex) then
          calls batchSize rest (some committedIndex) (counter + 1)
        else calls batchSize rest maxCommittedIndex counter
      else
        -- the counter only grows, so something is there to flush
        flush maxCommittedIndex ++ calls batchSize rest (some committedIndex) 1
  | .snapshotLoad load :: rest, maxCommittedIndex, counter =>
      flush maxCommittedIndex ++ .doSnapshotLoad load ::
        calls batchSize rest none (if maxCommittedIndex.isSome then 0 else counter)
  | .error :: rest, maxCommittedIndex, counter =>
      flush maxCommittedIndex ++ .doOnError ::
        calls batchSize rest none (if maxCommittedIndex.isSome then 0 else counter)
  | .other :: rest, maxCommittedIndex, counter =>
      flush maxCommittedIndex ++
        calls batchSize rest none (if maxCommittedIndex.isSome then 0 else counter)

def run (batchSize : Nat) (tasks : List ApplyTask) : List Call := calls batchSize tasks none 0

/-- One call.  `pass_by_status` skips a snapshot while there is an error. -/
def perform (caller : FSMCaller P D) (view : Surroundings P D K) : Call → FSMCaller P D
  | .doCommitted committedIndex => caller.doCommitted view committedIndex
  | .doSnapshotLoad load => if caller.error then caller else caller.doSnapshotLoad load
  | .doOnError => { caller with error := true }

end FSMCaller

end QuorumKit
