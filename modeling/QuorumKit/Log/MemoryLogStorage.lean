/-
The in-memory log, `class MemoryLogStorage` of `braft/memory_log.cpp`.

The entries are a deque between two counters.  The source never compares the
counters with the deque: that they agree is the invariant `Implements`, which
also says which abstract log the deque stands for.
-/

import Mathlib.Data.List.DropRight
import QuorumKit.Errno
import QuorumKit.LogManager.LogStorage

namespace QuorumKit

structure MemoryLogStorage (P D : Type) where
  firstLogIndex : Int := 1
  lastLogIndex : Int := 0
  logEntryData : List (LogEntry P D) := []
deriving DecidableEq, Repr

namespace MemoryLogStorage

variable {P D : Type}

def init (storage : MemoryLogStorage P D) : Int × MemoryLogStorage P D :=
  (0, { storage with firstLogIndex := 1, lastLogIndex := 0 })

def getEntry (storage : MemoryLogStorage P D) (index : Int) : Option (LogEntry P D) :=
  if index < storage.firstLogIndex ∨ storage.lastLogIndex < index then none
  else storage.logEntryData[(index - storage.firstLogIndex).toNat]?

def getTerm (storage : MemoryLogStorage P D) (index : Int) : Nat :=
  if index < storage.firstLogIndex ∨ storage.lastLogIndex < index then 0
  else
    match storage.logEntryData[(index - storage.firstLogIndex).toNat]? with
    | some entry => entry.id.term
    | none => 0

def appendEntry (storage : MemoryLogStorage P D) (entry : LogEntry P D) :
    Int × MemoryLogStorage P D :=
  if (entry.id.index : Int) ≠ storage.lastLogIndex + 1 then (ERANGE, storage)
  else
    (0,
      { storage with
        logEntryData := storage.logEntryData ++ [entry]
        lastLogIndex := storage.lastLogIndex + 1 })

/-- The loop of `append_entries`, which drops the results of `append_entry`. -/
def appendLoop : List (LogEntry P D) → MemoryLogStorage P D → MemoryLogStorage P D
  | [], storage => storage
  | entry :: rest, storage => appendLoop rest (storage.appendEntry entry).2

def appendEntries (storage : MemoryLogStorage P D) (entries : List (LogEntry P D)) :
    Int × MemoryLogStorage P D :=
  if entries.isEmpty then (0, storage)
  else (entries.length, appendLoop entries storage)

def truncatePrefix (storage : MemoryLogStorage P D) (firstIndexKept : Int) :
    Int × MemoryLogStorage P D :=
  let kept := storage.logEntryData.dropWhile
    (fun entry => (entry.id.index : Int) < firstIndexKept)
  let last :=
    if storage.lastLogIndex < firstIndexKept then firstIndexKept - 1 else storage.lastLogIndex
  (0, { logEntryData := kept, firstLogIndex := firstIndexKept, lastLogIndex := last })

def truncateSuffix (storage : MemoryLogStorage P D) (lastIndexKept : Int) :
    Int × MemoryLogStorage P D :=
  let kept := storage.logEntryData.rdropWhile
    (fun entry => lastIndexKept < (entry.id.index : Int))
  let first :=
    if lastIndexKept < storage.firstLogIndex then lastIndexKept + 1 else storage.firstLogIndex
  (0, { logEntryData := kept, firstLogIndex := first, lastLogIndex := lastIndexKept })

def reset (storage : MemoryLogStorage P D) (nextLogIndex : Int) :
    Int × MemoryLogStorage P D :=
  if nextLogIndex ≤ 0 then (EINVAL, storage)
  else
    (0,
      { logEntryData := [], firstLogIndex := nextLogIndex, lastLogIndex := nextLogIndex - 1 })

end MemoryLogStorage

/-- The `k`-th entry has index `first + k`. -/
def IndexedFrom {P D : Type} (first : Nat) (entries : List (LogEntry P D)) : Prop :=
  ∀ (position : Nat) entry, entries[position]? = some entry → entry.id.index = first + position

namespace IndexedFrom

variable {P D : Type} {first : Nat} {entries : List (LogEntry P D)}

theorem nil : IndexedFrom first ([] : List (LogEntry P D)) := by
  intro position entry found
  simp at found

theorem tail {entry : LogEntry P D} {rest : List (LogEntry P D)}
    (indexed : IndexedFrom first (entry :: rest)) : IndexedFrom (first + 1) rest := by
  intro position other found
  have atNext := indexed (position + 1) other found
  omega

theorem append {added : List (LogEntry P D)} (indexed : IndexedFrom first entries)
    (addedIndexed : IndexedFrom (first + entries.length) added) :
    IndexedFrom first (entries ++ added) := by
  intro position entry found
  by_cases inside : position < entries.length
  · rw [List.getElem?_append_left inside] at found
    exact indexed position entry found
  · rw [List.getElem?_append_right (Nat.le_of_not_lt inside)] at found
    have atAdded := addedIndexed _ entry found
    omega

theorem take (indexed : IndexedFrom first entries) (count : Nat) :
    IndexedFrom first (entries.take count) := by
  intro position entry found
  rw [List.getElem?_take] at found
  split at found
  · exact indexed position entry found
  · contradiction

theorem drop (indexed : IndexedFrom first entries) (count : Nat) :
    IndexedFrom (first + count) (entries.drop count) := by
  intro position entry found
  rw [List.getElem?_drop] at found
  have atPosition := indexed _ entry found
  omega

theorem dropWhile_lt (indexed : IndexedFrom first entries) (kept : Nat) :
    entries.dropWhile (fun entry => ((entry.id.index : Nat) : Int) < kept) =
      entries.drop (kept - first) := by
  induction entries generalizing first with
  | nil => simp
  | cons entry rest ih =>
      have atHead := indexed 0 entry rfl
      by_cases below : entry.id.index < kept
      · rw [List.dropWhile_cons_of_pos (by simpa using below), ih indexed.tail]
        have count : kept - first = (kept - (first + 1)) + 1 := by omega
        rw [count, List.drop_succ_cons]
      · rw [List.dropWhile_cons_of_neg (by simpa using below)]
        have count : kept - first = 0 := by omega
        rw [count, List.drop_zero]

theorem rdropWhile_gt (indexed : IndexedFrom first entries) (kept : Nat) :
    entries.rdropWhile (fun entry => (kept : Int) < ((entry.id.index : Nat) : Int)) =
      entries.take (kept + 1 - first) := by
  induction entries using List.reverseRecOn with
  | nil => simp
  | append_singleton rest entry ih =>
      have atEnd := indexed rest.length entry (by simp)
      have front : IndexedFrom first rest := by
        have taken := indexed.take rest.length
        rwa [List.take_left' rfl] at taken
      by_cases above : kept < entry.id.index
      · rw [List.rdropWhile_concat_pos _ _ _ (by simpa using above), ih front,
          List.take_append_of_le_length (by omega)]
      · rw [List.rdropWhile_concat_neg _ _ _ (by simpa using above),
          List.take_of_length_le (by simp only [List.length_append, List.length_singleton]; omega)]

end IndexedFrom

namespace MemoryLogStorage

variable {P D : Type}

structure Implements (storage : MemoryLogStorage P D) (log : LogStorage P D) : Prop where
  first : storage.firstLogIndex = log.first
  last : storage.lastLogIndex + 1 = log.stop
  entries : storage.logEntryData = log.entries
  indexed : IndexedFrom log.first log.entries

variable {storage : MemoryLogStorage P D} {log : LogStorage P D}

theorem implements_init : ((MemoryLogStorage.init ({} : MemoryLogStorage P D)).2).Implements
    LogStorage.empty :=
  ⟨rfl, rfl, rfl, IndexedFrom.nil⟩

theorem Implements.getEntry (implements : storage.Implements log) (index : Int) :
    storage.getEntry index = if index < 0 then none else log.get? index.toNat := by
  have first := implements.first
  have last := implements.last
  unfold MemoryLogStorage.getEntry
  by_cases outside : index < storage.firstLogIndex ∨ storage.lastLogIndex < index
  · rw [if_pos outside]
    split
    · rfl
    · exact ((log.get?_eq_none_iff index.toNat).mpr (by omega)).symm
  · have position : (index - storage.firstLogIndex).toNat = index.toNat - log.first := by omega
    rw [if_neg outside, if_neg (by omega), implements.entries, position, IndexedLog.get?,
      if_neg (by omega)]

theorem getTerm_eq (storage : MemoryLogStorage P D) (index : Int) :
    storage.getTerm index = ((storage.getEntry index).map (fun entry => entry.id.term)).getD 0 := by
  unfold getTerm MemoryLogStorage.getEntry
  split
  · rfl
  · cases storage.logEntryData[(index - storage.firstLogIndex).toNat]? <;> rfl

theorem Implements.appendLoop {entries : List (LogEntry P D)}
    (implements : storage.Implements log) (follows : IndexedFrom log.stop entries) :
    (MemoryLogStorage.appendLoop entries storage).Implements (log.append entries) := by
  induction entries generalizing storage log with
  | nil =>
      rw [IndexedLog.append_nil]
      exact implements
  | cons entry rest ih =>
      have atStop := follows 0 entry rfl
      have last := implements.last
      have accepted : ¬ ((entry.id.index : Int) ≠ storage.lastLogIndex + 1) := by omega
      have pushed : (storage.appendEntry entry).2.Implements (log.append [entry]) := by
        unfold appendEntry
        rw [if_neg accepted]
        refine ⟨implements.first, ?_, ?_, ?_⟩
        · rw [IndexedLog.append_stop, List.length_singleton]
          push_cast
          omega
        · simp only [implements.entries, IndexedLog.append]
        · refine implements.indexed.append ?_
          intro position other found
          have isHead : position = 0 := by
            have inside := (List.getElem?_eq_some_iff.mp found).1
            simpa using inside
          subst isHead
          rw [List.getElem?_cons_zero, Option.some.injEq] at found
          rw [← found, atStop]
          rfl
      have tail := ih pushed (by
        rw [IndexedLog.append_stop, List.length_singleton]
        exact follows.tail)
      rwa [IndexedLog.append_append] at tail

theorem Implements.appendEntries {entries : List (LogEntry P D)}
    (implements : storage.Implements log) (follows : IndexedFrom log.stop entries) :
    (storage.appendEntries entries).2.Implements (log.append entries) := by
  unfold MemoryLogStorage.appendEntries
  cases entries with
  | nil =>
      rw [IndexedLog.append_nil]
      exact implements
  | cons entry rest => exact implements.appendLoop follows

theorem Implements.truncatePrefix {kept : Nat} (implements : storage.Implements log)
    (lower : log.first ≤ kept) :
    (storage.truncatePrefix kept).2.Implements (log.truncatePrefix kept) := by
  have last := implements.last
  have stop := log.dropBelow_stop lower
  refine ⟨rfl, ?_, ?_, ?_⟩
  · change (if storage.lastLogIndex < kept then ((kept : Int) - 1) else storage.lastLogIndex) + 1 =
      ((log.dropBelow kept).stop : Int)
    rw [stop]
    split <;> omega
  · change storage.logEntryData.dropWhile _ = log.entries.drop (kept - log.first)
    rw [implements.entries]
    exact implements.indexed.dropWhile_lt kept
  · have dropped := implements.indexed.drop (kept - log.first)
    rwa [Nat.add_sub_cancel' lower] at dropped

theorem Implements.truncateSuffix {kept : Nat} (implements : storage.Implements log)
    (lower : log.first ≤ kept + 1) (upper : kept + 1 ≤ log.stop) :
    (storage.truncateSuffix kept).2.Implements (log.truncateSuffix kept) := by
  have first := implements.first
  refine ⟨?_, ?_, ?_, implements.indexed.take _⟩
  · change (if (kept : Int) < storage.firstLogIndex then (kept : Int) + 1
      else storage.firstLogIndex) = log.first
    split <;> omega
  · change (kept : Int) + 1 = ((log.keepBelow (kept + 1)).stop : Int)
    rw [log.keepBelow_stop lower upper]
    push_cast
    rfl
  · change storage.logEntryData.rdropWhile _ = log.entries.take (kept + 1 - log.first)
    rw [implements.entries]
    exact implements.indexed.rdropWhile_gt kept

theorem implements_reset (storage : MemoryLogStorage P D) {next : Nat} (positive : 0 < next) :
    (storage.reset next).2.Implements (LogStorage.reset next) := by
  unfold reset
  rw [if_neg (by omega)]
  refine ⟨rfl, ?_, rfl, IndexedFrom.nil⟩
  change (next : Int) - 1 + 1 = ((LogStorage.reset next : LogStorage P D).stop : Int)
  simp [LogStorage.reset, IndexedLog.stop]

end MemoryLogStorage

end QuorumKit
