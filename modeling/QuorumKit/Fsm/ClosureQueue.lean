/-
The queue of closures of a leader, `ClosureQueue` of `braft/closure_queue.cpp`.

The queue knows the index of its first closure.  `clear` gives the closures back,
so that the caller can run them with an error.
-/

import Mathlib.Init

namespace QuorumKit

structure ClosureQueue (K : Type) where
  firstIndex : Nat := 0
  queue : List K := []

namespace ClosureQueue

variable {K : Type}

def clear (_ : ClosureQueue K) : ClosureQueue K := {}

def resetFirstIndex (closures : ClosureQueue K) (firstIndex : Nat) : Option (ClosureQueue K) :=
  if closures.queue.isEmpty then some { closures with firstIndex := firstIndex } else none

def appendPendingClosure (closures : ClosureQueue K) (closure : K) : ClosureQueue K :=
  { closures with queue := closures.queue ++ [closure] }

/-- `pop_closure_until`: the first index and the closures from there on.  An index
behind the last closure is a failing `CHECK`. -/
def popClosureUntil (closures : ClosureQueue K) (index : Nat) :
    Option ((Nat × List K) × ClosureQueue K) :=
  if closures.queue.isEmpty ∨ index < closures.firstIndex then some ((index + 1, []), closures)
  else if closures.firstIndex + closures.queue.length ≤ index then none
  else
    some ((closures.firstIndex, closures.queue.take (index + 1 - closures.firstIndex)),
      { firstIndex := index + 1
        queue := closures.queue.drop (index + 1 - closures.firstIndex) })

end ClosureQueue

end QuorumKit
