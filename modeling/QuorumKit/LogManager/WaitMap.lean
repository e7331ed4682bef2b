/-
The waiters of a log manager, `wait` and `remove_waiter` of `braft/log_manager.cpp`.

A waiter is kept under an id until the log grows or the log manager stops; then a thread of
its own is started for it.  Ids are handed out as an `int`, of which the 32 bits are kept
here, from a counter with 64 bits.  The threads run in any order, and later.
-/

import Mathlib.Algebra.Ring.Nat
import Mathlib.Data.List.Basic
import QuorumKit.Errno

namespace QuorumKit

/-- `started` are the calls of `run_on_new_log` that have not been made yet, with their error
codes. -/
structure WaitMap (W : Type) where
  stopped : Bool := false
  nextWaitId : Nat := 0
  waitMap : List (Nat × W) := []
  started : List (W × Int) := []

namespace WaitMap

variable {W : Type}

def errorCode (waits : WaitMap W) : Int := if waits.stopped then ESTOP else 0

def counted (waits : WaitMap W) : Nat :=
  if waits.nextWaitId = 0 then waits.nextWaitId + 1 else waits.nextWaitId

/-- The id of the next waiter, as an `int`. -/
def waitId (waits : WaitMap W) : Nat := waits.counted % 2 ^ 32

/-- `_wait_map[wait_id] = wm`. -/
def insert (id : Nat) (waiter : W) (waitMap : List (Nat × W)) : List (Nat × W) :=
  (id, waiter) :: waitMap.filter (fun entry => entry.1 ≠ id)

def notifyOnNewLog (expectedLastLogIndex lastLogIndex : Nat) (waiter : W) (waits : WaitMap W) :
    Nat × WaitMap W :=
  if expectedLastLogIndex ≠ lastLogIndex ∨ waits.stopped then
    (0, { waits with started := waits.started ++ [(waiter, waits.errorCode)] })
  else
    (waits.waitId,
      { waits with
        nextWaitId := waits.counted + 1
        waitMap := insert waits.waitId waiter waits.waitMap })

def removeWaiter (id : Nat) (waits : WaitMap W) : WaitMap W :=
  { waits with waitMap := waits.waitMap.filter (fun entry => entry.1 ≠ id) }

def wakeupAllWaiter (waits : WaitMap W) : WaitMap W :=
  { waits with
    waitMap := []
    started := waits.started ++ waits.waitMap.map (fun entry => (entry.2, waits.errorCode)) }

def shutdown (waits : WaitMap W) : WaitMap W := wakeupAllWaiter { waits with stopped := true }

def runOnNewLog (index : Nat) (waits : WaitMap W) : WaitMap W :=
  { waits with started := waits.started.eraseIdx index }

def NextIdFree (waits : WaitMap W) : Prop :=
  waits.waitId ≠ 0 ∧ ∀ entry ∈ waits.waitMap, entry.1 ≠ waits.waitId

theorem insert_free {id : Nat} (waiter : W) {waitMap : List (Nat × W)}
    (free : ∀ entry ∈ waitMap, entry.1 ≠ id) : insert id waiter waitMap = (id, waiter) :: waitMap := by
  unfold insert
  rw [List.filter_eq_self.mpr]
  intro entry member
  exact decide_eq_true (free entry member)

end WaitMap

end QuorumKit
