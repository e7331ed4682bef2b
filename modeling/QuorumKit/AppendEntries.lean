/-
The messages of `append_entries`.

A request has the entries behind `prev_log_index`, without their indexes.  The follower
counts these up and leaves out entries of the unknown type.
-/

import QuorumKit.LogManager.ConflictResolution

namespace QuorumKit

variable {P D : Type}

/-- `EntryMeta` with its part of the attachment. -/
structure EntryMeta (P D : Type) where
  term : Nat
  type : EntryType
  peers : List P := []
  oldPeers : List P := []
  data : D

structure AppendEntriesRequest (P D : Type) where
  serverId : P
  term : Nat
  prevLogIndex : Nat
  prevLogTerm : Nat
  committedIndex : Nat := 0
  entries : List (EntryMeta P D)

structure AppendEntriesResponse where
  success : Bool
  term : Nat
  lastLogIndex : Nat := 0
  readonly : Bool := false
deriving DecidableEq, Repr

def EntryMeta.toLogEntry (entryMeta : EntryMeta P D) (index : Nat) : LogEntry P D :=
  { type := entryMeta.type
    id := { index := index, term := entryMeta.term }
    peers := if entryMeta.peers.isEmpty then none else some entryMeta.peers
    oldPeers :=
      if entryMeta.peers.isEmpty ∨ entryMeta.oldPeers.isEmpty then none
      else some entryMeta.oldPeers
    data := entryMeta.data }

/-- The loop over the entries of a request; a configuration has peers and nothing else
has. -/
def parseEntries (index : Nat) : List (EntryMeta P D) → Option (List (LogEntry P D))
  | [] => some []
  | entryMeta :: rest =>
      if entryMeta.type = .unknown then parseEntries (index + 1) rest
      else if entryMeta.peers.isEmpty = decide (entryMeta.type = .configuration) then none
      else (parseEntries (index + 1) rest).map (entryMeta.toLogEntry (index + 1) :: ·)

/-- The entries of a request that names no entry of an unknown type. -/
def logEntries (index : Nat) : List (EntryMeta P D) → List (LogEntry P D)
  | [] => []
  | entryMeta :: rest => entryMeta.toLogEntry (index + 1) :: logEntries (index + 1) rest

/-- What `EntryMeta` of a log looks like. -/
structure EntryMeta.Valid (entryMeta : EntryMeta P D) : Prop where
  known : entryMeta.type ≠ .unknown
  peers : entryMeta.peers ≠ [] ↔ entryMeta.type = .configuration
  term : 0 < entryMeta.term

theorem parseEntries_valid : ∀ (entries : List (EntryMeta P D)) (index : Nat),
    (∀ entryMeta ∈ entries, entryMeta.Valid) →
      parseEntries index entries = some (logEntries index entries) := by
  intro entries
  induction entries with
  | nil => exact fun _ _ => rfl
  | cons head rest ih =>
      intro index valid
      have isValid := valid head List.mem_cons_self
      have checked : ¬ head.peers.isEmpty = decide (head.type = .configuration) := by
        intro same
        cases isPeers : head.peers with
        | nil =>
            rw [isPeers, List.isEmpty_nil] at same
            exact isValid.peers.mpr (of_decide_eq_true same.symm) isPeers
        | cons peer peers =>
            rw [isPeers, List.isEmpty_cons] at same
            have nonempty : head.peers ≠ [] := by
              rw [isPeers]
              exact List.cons_ne_nil _ _
            exact of_decide_eq_false same.symm (isValid.peers.mp nonempty)
      rw [parseEntries, if_neg isValid.known, if_neg checked,
        ih (index + 1) (fun entryMeta member => valid entryMeta (List.mem_cons_of_mem _ member))]
      rfl

theorem logEntries_getElem? : ∀ (entries : List (EntryMeta P D)) (index position : Nat),
    (logEntries index entries)[position]? =
      entries[position]?.map (fun entryMeta => entryMeta.toLogEntry (index + 1 + position)) := by
  intro entries
  induction entries with
  | nil => exact fun _ _ => rfl
  | cons head rest ih =>
      intro index position
      cases position with
      | zero => rfl
      | succ position =>
          rw [logEntries, List.getElem?_cons_succ, List.getElem?_cons_succ, ih]
          rw [show index + 1 + 1 + position = index + 1 + (position + 1) by omega]

theorem logEntries_length (entries : List (EntryMeta P D)) : ∀ index : Nat,
    (logEntries index entries).length = entries.length := by
  induction entries with
  | nil => exact fun _ => rfl
  | cons head rest ih => exact fun index => congrArg Nat.succ (ih (index + 1))

theorem logEntries_consecutive (index : Nat) (entries : List (EntryMeta P D)) :
    LogManager.Consecutive (index + 1) (logEntries index entries) := by
  intro position entry found
  rw [logEntries_getElem?, Option.map_eq_some_iff] at found
  obtain ⟨entryMeta, _, rfl⟩ := found
  rfl

theorem logEntries_term {index : Nat} {entries : List (EntryMeta P D)} {entry : LogEntry P D}
    (member : entry ∈ logEntries index entries) :
    ∃ entryMeta ∈ entries, entryMeta.term = entry.id.term := by
  obtain ⟨position, found⟩ := List.mem_iff_getElem?.mp member
  rw [logEntries_getElem?, Option.map_eq_some_iff] at found
  obtain ⟨entryMeta, isMeta, rfl⟩ := found
  exact ⟨entryMeta, List.mem_of_getElem? isMeta, rfl⟩

theorem logEntries_sorted {entries : List (EntryMeta P D)}
    (sorted : entries.Pairwise (fun former later => former.term ≤ later.term)) :
    ∀ index : Nat, (logEntries index entries).Pairwise
      (fun former later => former.id.term ≤ later.id.term) := by
  induction sorted with
  | nil => exact fun _ => .nil
  | cons notOlder _ ih =>
      intro index
      refine .cons ?_ (ih (index + 1))
      intro entry member
      obtain ⟨entryMeta, isMeta, sameTerm⟩ := logEntries_term member
      rw [← sameTerm]
      exact notOlder entryMeta isMeta

def AppendEntriesRequest.logEntries (request : AppendEntriesRequest P D) : List (LogEntry P D) :=
  QuorumKit.logEntries request.prevLogIndex request.entries

theorem AppendEntriesRequest.back {request : AppendEntriesRequest P D}
    (nonempty : request.entries ≠ []) : ∃ back, request.logEntries.getLast? = some back ∧
      back.id.index = request.prevLogIndex + request.entries.length := by
  have length := logEntries_length request.entries request.prevLogIndex
  have positive := List.length_pos_iff.mpr nonempty
  cases isBack : request.logEntries.getLast? with
  | none =>
      rw [List.getLast?_eq_none_iff] at isBack
      rw [AppendEntriesRequest.logEntries] at isBack
      rw [isBack, List.length_nil] at length
      omega
  | some back =>
      have index := (logEntries_consecutive request.prevLogIndex request.entries).back isBack
      exact ⟨back, rfl, by omega⟩

end QuorumKit
