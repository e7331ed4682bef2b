/-
Catching up with a follower, `wait_for_caught_up` in `braft/replicator.cpp`.

A closure waits in the replicator until a success finds the follower near enough to the end of
the log, its timer expires or the replicator goes away.  A timer that has expired waits for the
lock of the replicator, and then knows nothing but the replicator.  The closures are numbered
in the order in which they are given, and the runs of them are kept.
-/

import QuorumKit.Replicator.TimeoutNow

namespace QuorumKit

structure CatchUpPoint (P D : Type) where
  replicator : Replicator P D
  lastLogIndex : Nat

/-- `settledAt` is where the status was set by a comparison with the margin. -/
structure CatchupClosure (P D : Type) where
  number : Nat
  maxMargin : Int := 0
  hasTimer : Bool := false
  errorWasSet : Bool := false
  errorCode : Int := 0
  settledAt : Option (CatchUpPoint P D) := none

structure CatchUpRun (P D : Type) where
  closure : CatchupClosure P D
  timer : Option Nat

structure CatchUps (P D : Type) where
  replicator : Replicator P D
  catchupClosure : Option (CatchupClosure P D) := none
  given : Nat := 0
  /-- Newest first. -/
  runs : List (CatchUpRun P D) := []
  timers : List Nat := []
  /-- Timers that have expired and wait for the lock. -/
  expired : List Nat := []
  /-- The replicator is in the map of its group. -/
  inGroup : Bool := true
  /-- Calls of `stop` whose `ESTOP` is not handled. -/
  stops : Nat := 0
  /-- The requests of `_send_timeout_now` in flight, with `old_leader_stepped_down`. -/
  timeoutNows : List Bool := []

variable {P D C : Type}

namespace Replicator

def isCatchup (manager : LogManager P D C) (maxMargin : Int) (r : Replicator P D) : Bool :=
  ¬ r.nextIndex < manager.firstLogIndex ∧
    ¬ (r.minFlyingIndex : Int) - 1 + maxMargin < manager.lastLogIndex

end Replicator

namespace CatchupClosure

def settle (manager : LogManager P D C) (errorCode : Int) (r : Replicator P D)
    (closure : CatchupClosure P D) : CatchupClosure P D :=
  { closure with
    errorWasSet := true
    errorCode := if errorCode ≠ 0 then errorCode else closure.errorCode
    settledAt := some { replicator := r, lastLogIndex := manager.lastLogIndex } }

def fail (errorCode : Int) (closure : CatchupClosure P D) : CatchupClosure P D :=
  if ¬ closure.errorWasSet then { closure with errorCode := errorCode } else closure

end CatchupClosure

namespace CatchUps

/-- `run_closure_in_bthread`. -/
def run (timer : Option Nat) (closure : CatchupClosure P D) (ups : CatchUps P D) : CatchUps P D :=
  { ups with runs := { closure := closure, timer := timer } :: ups.runs }

/-- `bthread_timer_del` finds a timer running once it has expired. -/
def notifyOnCaughtUp (manager : LogManager P D C) (errorCode : Int) (beforeDestroy : Bool)
    (timer : Option Nat) (ups : CatchUps P D) : CatchUps P D :=
  match ups.catchupClosure with
  | none => ups
  | some closure =>
      if errorCode ≠ ETIMEDOUT ∧ errorCode ≠ EPERM then
        if ¬ ups.replicator.isCatchup manager closure.maxMargin then ups
        else if closure.errorWasSet then ups
        else
          let settled := closure.settle manager errorCode ups.replicator
          if closure.hasTimer ∧ ¬ beforeDestroy then
            if closure.number ∈ ups.expired then { ups with catchupClosure := some settled }
            else
              { ups with
                catchupClosure := none
                timers := ups.timers.erase closure.number }.run timer settled
          else { ups with catchupClosure := none }.run timer settled
      else
        { ups with catchupClosure := none }.run timer (closure.fail errorCode)

def destroy (ups : CatchUps P D) : CatchUps P D :=
  { ups with replicator := { ups.replicator with destroyed := true } }

/-- `wait_for_caught_up` for the next closure. -/
def waitForCaughtUp (manager : LogManager P D C) (maxMargin : Int) (dueTime timerAdded : Bool)
    (ups : CatchUps P D) : CatchUps P D :=
  let done : CatchupClosure P D := { number := ups.given }
  let ups : CatchUps P D := { ups with given := ups.given + 1 }
  if ups.replicator.destroyed then ups.run none { done with errorCode := EINVAL }
  else if ups.catchupClosure.isSome then ups.run none { done with errorCode := EINVAL }
  else
    let done : CatchupClosure P D := { done with maxMargin := maxMargin }
    if ups.replicator.hasSucceeded ∧ ups.replicator.isCatchup manager maxMargin then
      ups.run none { done with
        settledAt := some { replicator := ups.replicator, lastLogIndex := manager.lastLogIndex } }
    else if dueTime then
      let done : CatchupClosure P D := { done with hasTimer := true }
      if ¬ timerAdded then ups.run none { done with errorCode := EINVAL }
      else { ups with catchupClosure := some done, timers := done.number :: ups.timers }
    else { ups with catchupClosure := some done }

/-- `ReplicatorGroup::wait_caughtup`, which keeps the closure if the peer is not in its map. -/
def waitCaughtup (manager : LogManager P D C) (maxMargin : Int) (dueTime timerAdded : Bool)
    (ups : CatchUps P D) : CatchUps P D :=
  if ¬ ups.inGroup then ups else ups.waitForCaughtUp manager maxMargin dueTime timerAdded

def expire (number : Nat) (ups : CatchUps P D) : Option (CatchUps P D) :=
  if number ∈ ups.timers then
    some { ups with
      timers := ups.timers.erase number
      expired := number :: ups.expired }
  else none

/-- `_on_catch_up_timedout`, behind the lock of the replicator. -/
def onCatchUpTimedout (manager : LogManager P D C) (number : Nat) (ups : CatchUps P D) :
    Option (CatchUps P D) :=
  if number ∈ ups.expired then
    let ups : CatchUps P D := { ups with expired := ups.expired.erase number }
    some (if ups.replicator.destroyed then ups
      else ups.notifyOnCaughtUp manager ETIMEDOUT false (some number))
  else none

/-- `Replicator::stop`, by a group that has taken the replicator from its map. -/
def stop (manager : LogManager P D C) (ups : CatchUps P D) : CatchUps P D :=
  let ups : CatchUps P D := { ups with inGroup := false }
  if ups.replicator.destroyed then ups
  else
    let notified := ups.notifyOnCaughtUp manager EPERM true none
    { notified with stops := notified.stops + 1 }

/-- `_on_error` with `ESTOP`. -/
def onError (manager : LogManager P D C) (ups : CatchUps P D) : Option (CatchUps P D) :=
  if ups.stops = 0 then none
  else
    let ups : CatchUps P D := { ups with stops := ups.stops - 1 }
    some (if ups.replicator.destroyed then ups
      else (ups.notifyOnCaughtUp manager ESTOP true none).destroy)

/-- `send_timeout_now_and_stop`, for the candidate of `stop_all_and_find_the_next_candidate`. -/
def sendTimeoutNowAndStop (ups : CatchUps P D) : CatchUps P D :=
  let ups : CatchUps P D := { ups with inGroup := false }
  if ups.replicator.destroyed then ups else { ups with timeoutNows := true :: ups.timeoutNows }

def onTimeoutNowReturned (manager : LogManager P D C) (oldLeaderSteppedDown higherTerm : Bool)
    (ups : CatchUps P D) : Option (CatchUps P D) :=
  if oldLeaderSteppedDown ∈ ups.timeoutNows then
    let ups : CatchUps P D :=
      { ups with timeoutNows := ups.timeoutNows.erase oldLeaderSteppedDown }
    some (if ups.replicator.destroyed then ups
      else if higherTerm then (ups.notifyOnCaughtUp manager EPERM true none).destroy
      else if oldLeaderSteppedDown then (ups.notifyOnCaughtUp manager ESTOP true none).destroy
      else ups)
  else none

/-- `_on_heartbeat_returned` with a higher term. -/
def onHeartbeatReturned (manager : LogManager P D C) (ups : CatchUps P D) : CatchUps P D :=
  if ups.replicator.destroyed then ups
  else (ups.notifyOnCaughtUp manager EPERM true none).destroy

/-- A call of `_notify_on_caught_up` in a step of the replicator. -/
structure Notification (P D C : Type) where
  replicator : Replicator P D
  logManager : LogManager P D C
  errorCode : Int
  beforeDestroy : Bool

/-- The answer to a request, or to a snapshot, that is followed by a call. -/
def notification (options : ReplicatorOptions P D) :
    Replicator.Action P D C → Replicator P D → Option (Notification P D C)
  | .onRpcReturned around callId (.returned response), r =>
      match r.sent[callId]? with
      | none => none
      | some request =>
          if ¬ r.isValidRpc callId (request.prevLogIndex + 1) then none
          else if ¬ response.success then
            if options.term < response.term then
              some ⟨r.resetNextIndex, around.logManager, EPERM, true⟩
            else none
          else if response.term ≠ options.term then none
          else some ⟨r.succeed request, around.logManager, 0, false⟩
  | .onInstallSnapshotReturned around true, r =>
      r.installSnapshotInFly.map (fun lastIncludedIndex =>
        ⟨r.snapshotInstalled lastIncludedIndex, around.logManager, 0, false⟩)
  | _, _ => none

def notify (call : Option (Notification P D C)) (ups : CatchUps P D) : CatchUps P D :=
  match call with
  | none => ups
  | some call =>
      { ups with replicator := call.replicator }.notifyOnCaughtUp call.logManager call.errorCode
        call.beforeDestroy none

/-- A step of the replicator; `destroy` is not one of its own here. -/
def replicate (options : ReplicatorOptions P D) (action : Replicator.Action P D C)
    (ups : CatchUps P D) : Option (CatchUps P D) :=
  match action with
  | .destroy => none
  | action =>
      (Replicator.step options action ups.replicator).map (fun after =>
        { (if ups.replicator.destroyed then ups
            else ups.notify (notification options action ups.replicator)) with
          replicator := after
          timeoutNows :=
            if Replicator.sendsTimeoutNow options action ups.replicator then
              false :: ups.timeoutNows
            else ups.timeoutNows })

inductive Action (P D C : Type) where
  | replicate (action : Replicator.Action P D C)
  | waitCaughtup (manager : LogManager P D C) (maxMargin : Int) (dueTime timerAdded : Bool)
  | expire (number : Nat)
  | onCatchUpTimedout (manager : LogManager P D C) (number : Nat)
  | stop (manager : LogManager P D C)
  | onError (manager : LogManager P D C)
  | sendTimeoutNowAndStop
  | onTimeoutNowReturned (manager : LogManager P D C) (oldLeaderSteppedDown higherTerm : Bool)
  | onHeartbeatReturned (manager : LogManager P D C)

def step (options : ReplicatorOptions P D) (action : Action P D C) (ups : CatchUps P D) :
    Option (CatchUps P D) :=
  match action with
  | .replicate action => ups.replicate options action
  | .waitCaughtup manager maxMargin dueTime timerAdded =>
      some (ups.waitCaughtup manager maxMargin dueTime timerAdded)
  | .expire number => ups.expire number
  | .onCatchUpTimedout manager number => ups.onCatchUpTimedout manager number
  | .stop manager => some (ups.stop manager)
  | .onError manager => ups.onError manager
  | .sendTimeoutNowAndStop => some ups.sendTimeoutNowAndStop
  | .onTimeoutNowReturned manager oldLeaderSteppedDown higherTerm =>
      ups.onTimeoutNowReturned manager oldLeaderSteppedDown higherTerm
  | .onHeartbeatReturned manager => some (ups.onHeartbeatReturned manager)

def system (options : ReplicatorOptions P D) (C : Type) :
    TransitionSystem (CatchUps P D) (Action P D C) :=
  { init := fun ups => ∃ r, Replicator.Started options C r ∧ ups = { replicator := r }
    allowed := fun _ _ => True
    step := step options }

end CatchUps

end QuorumKit
