/-
The log storage as the log manager uses it: `LogStorage` of `braft/storage.h`.

A storage is a first index and the entries from there on.  `append_entries` may
stop early, and then reports how many entries it took; a batch that does not
start right after the last entry is refused.
-/

import QuorumKit.LogEntry
import QuorumKit.Library.IndexedLog

namespace QuorumKit

abbrev LogStorage (P D : Type) := IndexedLog (LogEntry P D)

namespace LogStorage

variable {P D : Type}

def empty : LogStorage P D := { first := 1, entries := [] }

def firstLogIndex (storage : LogStorage P D) : Nat := storage.first

def lastLogIndex (storage : LogStorage P D) : Nat := storage.stop - 1

def getEntry (storage : LogStorage P D) (index : Nat) : Option (LogEntry P D) :=
  storage.get? index

/-- `get_term`: `0` outside of the log. -/
def getTerm (storage : LogStorage P D) (index : Nat) : Nat :=
  match storage.getEntry index with
  | some entry => entry.id.term
  | none => 0

/-- `append_entries` that takes at most `limit` entries; the result is their
number. -/
def appendEntries (storage : LogStorage P D) (entries : List (LogEntry P D)) (limit : Nat) :
    Nat × LogStorage P D :=
  match entries.head? with
  | none => (0, storage)
  | some front =>
      if front.id.index = storage.stop then
        ((entries.take limit).length, storage.append (entries.take limit))
      else (0, storage)

def truncatePrefix (storage : LogStorage P D) (firstIndexKept : Nat) : LogStorage P D :=
  storage.dropBelow firstIndexKept

def truncateSuffix (storage : LogStorage P D) (lastIndexKept : Nat) : LogStorage P D :=
  storage.keepBelow (lastIndexKept + 1)

def reset (nextLogIndex : Nat) : LogStorage P D := { first := nextLogIndex, entries := [] }

structure WellFormed (storage : LogStorage P D) : Prop where
  positive : 0 < storage.first
  indexed : ∀ index entry, storage.getEntry index = some entry →
    entry.id.index = index ∧ 0 < entry.id.term

theorem getTerm_of_getEntry {storage : LogStorage P D} {index : Nat} {entry : LogEntry P D}
    (found : storage.getEntry index = some entry) : storage.getTerm index = entry.id.term := by
  simp only [getTerm, found]

end LogStorage

end QuorumKit
