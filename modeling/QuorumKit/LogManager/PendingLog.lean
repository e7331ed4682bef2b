/-
The log of a manager as a function of its state.

`logicalLog` performs all pending tasks on the storage.  It is the log that a sound
manager stands for, and a queued task changes it at once.
-/

import QuorumKit.LogManager.SnapshotWindow

namespace QuorumKit

namespace LogManager

variable {P D C : Type}

def logicalLog (manager : LogManager P D C) : LogStorage P D :=
  manager.pending.foldl (fun storage task => task.apply storage) manager.storage

variable {low : Nat} {manager manager' : LogManager P D C} {log : LogStorage P D}

theorem Holds.logicalLog_eq (holds : Holds low manager log) : manager.logicalLog = log :=
  holds.drains.foldl

theorem logicalLog_execute (manager : LogManager P D C) (task : DiskTask P D C) :
    (manager.execute task).logicalLog = task.apply manager.logicalLog := by
  unfold logicalLog
  rw [pending_execute, List.foldl_append]
  rfl

theorem logicalLog_congr (storage : manager'.storage = manager.storage)
    (pending : manager'.pending = manager.pending) : manager'.logicalLog = manager.logicalLog := by
  unfold logicalLog
  rw [storage, pending]

theorem Durable.soundLog [DecidableEq P] (durable : Durable manager)
    (works : manager.hasError = false) :
    Sound (manager.appliedId.index + 1) manager manager.logicalLog ∧
      Ordered manager.appliedId manager.logicalLog := by
  obtain ⟨log, sound, ordered⟩ := durable.sound works
  rw [sound.toHolds.logicalLog_eq]
  exact ⟨sound, ordered⟩

end LogManager

end QuorumKit
