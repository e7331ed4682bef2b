/-
The log of a follower under the requests of a leader.

`handle_append_entries_request` looks at the entry before the batch and gives the batch to
the log manager, which looks for the first entry that it does not have and cuts the log
there.  Both read terms with `get_term`.  A request may be late or come again: an index
that is compacted by then has the term 0, and the entry before index 1 always matches.
-/

import QuorumKit.AppendEntries
import QuorumKit.LogManager.SuffixCut
import QuorumKit.Node.Election

namespace QuorumKit

variable {P D C : Type}

structure Follower (P D C : Type) where
  election : ElectionNode P
  logManager : LogManager P D C
  installingSnapshot : Bool := false
  nodeReadonly : Bool := false

/-- How a call ends: the controller fails, a response is sent (and the ballot box told an
index, if there are no entries), or the request is kept for later. -/
inductive Handled where
  | failed (errorCode : Int)
  | answered (response : AppendEntriesResponse)
  | heartbeat (response : AppendEntriesResponse) (committedIndex : Nat)
  | cached
  | appending (term : Nat)
deriving DecidableEq, Repr

namespace Follower

variable [DecidableEq P]

/-- `cached` is what `handle_out_of_order_append_entries` returns; `stored` and `sees` are
those of `step_down` and of `append_entries`. -/
def handleAppendEntriesRequest (node : Follower P D C) (request : AppendEntriesRequest P D)
    (context : C) (fromAppendEntriesCache cached stored sees : Bool) :
    Option (Follower P D C × Handled) :=
  let election :=
    node.election.handleLeaderRequest request.term request.serverId (¬ fromAppendEntriesCache)
      stored
  let checked := { node with election := election }
  let manager := node.logManager
  if ¬ node.election.state.isActive then some (checked, .failed EINVAL)
  else if request.term < node.election.currentTerm then
    some (checked, .answered { success := false, term := node.election.currentTerm })
  else if election.leaderId ≠ some request.serverId then
    some (checked, .answered { success := false, term := request.term + 1 })
  else if ¬ request.entries.isEmpty ∧ node.installingSnapshot then some (checked, .failed EBUSY)
  else if manager.getTerm request.prevLogIndex ≠ request.prevLogTerm then
    if ¬ fromAppendEntriesCache ∧ cached then some (checked, .cached)
    else
      some (checked, .answered
        { success := false, term := election.currentTerm, lastLogIndex := manager.lastLogIndex })
  else if request.entries.isEmpty then
    some (checked, .heartbeat
      { success := true, term := election.currentTerm, lastLogIndex := manager.lastLogIndex,
        readonly := node.nodeReadonly }
      (min request.committedIndex request.prevLogIndex))
  else
    match parseEntries request.prevLogIndex request.entries with
    | none => none
    | some entries =>
        (manager.appendEntries context entries sees).map (fun after =>
          ({ checked with logManager := after }, .appending election.currentTerm))

def Appends (node : Follower P D C) (request : AppendEntriesRequest P D)
    (fromAppendEntriesCache stored : Bool) : Prop :=
  node.election.state.isActive ∧ node.election.currentTerm ≤ request.term ∧
    (node.election.handleLeaderRequest request.term request.serverId (¬ fromAppendEntriesCache)
      stored).leaderId = some request.serverId ∧
    request.entries ≠ [] ∧ node.installingSnapshot = false ∧
    node.logManager.getTerm request.prevLogIndex = request.prevLogTerm

instance (node : Follower P D C) (request : AppendEntriesRequest P D)
    (fromAppendEntriesCache stored : Bool) :
    Decidable (node.Appends request fromAppendEntriesCache stored) :=
  inferInstanceAs (Decidable (_ ∧ _ ∧ _ ∧ _ ≠ _ ∧ _ ∧ _))

end Follower

/-- The promises of a leader about the log that it sends from: it is a log, it has every
committed entry, and entries with the same id are the same entry. -/
structure FromLeader (manager : LogManager P D C) (request : AppendEntriesRequest P D) : Prop where
  valid : ∀ entryMeta ∈ request.entries, entryMeta.Valid
  sorted : request.entries.Pairwise (fun former later => former.term ≤ later.term)
  current : ∀ entryMeta ∈ request.entries,
    request.prevLogTerm ≤ entryMeta.term ∧ entryMeta.term ≤ request.term
  previous : request.prevLogIndex = 0 ∧ request.prevLogTerm = 0 ∨
    0 < request.prevLogIndex ∧ 0 < request.prevLogTerm
  committed : ∀ entry ∈ request.logEntries, entry.id.index ≤ manager.appliedId.index →
    ∀ found, manager.logicalLog.getEntry entry.id.index = some found → found = entry
  snapshot : ∀ entry ∈ request.logEntries, ∀ id,
    id = manager.lastSnapshotId ∨ id = manager.virtualFirstLogId →
      entry.id.index = id.index → entry.id.term = id.term
  later : ∀ entry ∈ request.logEntries, manager.appliedId.index < entry.id.index →
    manager.appliedId.term ≤ entry.id.term
  matching : ∀ entry ∈ request.logEntries, ∀ found,
    manager.getEntry entry.id.index = some found → found.id = entry.id → found = entry

namespace FromLeader

variable {manager : LogManager P D C} {request : AppendEntriesRequest P D}

theorem terms (legit : FromLeader manager request) :
    ∀ entry ∈ request.logEntries, 0 < entry.id.term := by
  intro entry member
  obtain ⟨entryMeta, isMeta, sameTerm⟩ := logEntries_term member
  rw [← sameTerm]
  exact (legit.valid entryMeta isMeta).term

theorem appendable (legit : FromLeader manager request)
    (agrees : manager.getTerm request.prevLogIndex = request.prevLogTerm) :
    manager.Appendable request.logEntries := by
  constructor
  · exact Or.inr ⟨request.prevLogIndex + 1, Nat.succ_pos _, logEntries_consecutive _ _⟩
  · exact legit.terms
  · exact logEntries_sorted legit.sorted _
  · exact legit.matching
  · intro front isFront
    have index := (logEntries_consecutive _ _).front isFront
    obtain ⟨entryMeta, isMeta, sameTerm⟩ := logEntries_term (List.mem_of_mem_head? isFront)
    unfold LogManager.batchStart
    rw [if_neg (by omega), index, Nat.add_sub_cancel, agrees, ← sameTerm]
    exact (legit.current entryMeta isMeta).1
  · intro entry member above
    have index : entry.id.index ≠ 0 := by
      obtain ⟨position, found⟩ := List.mem_iff_getElem?.mp member
      have placed := logEntries_consecutive _ _ position entry found
      omega
    exact legit.later entry member (above.resolve_left index)

end FromLeader

namespace Follower

variable [DecidableEq P] {node : Follower P D C} {request : AppendEntriesRequest P D}
  {context : C} {fromAppendEntriesCache cached stored sees : Bool}

theorem handle_appends (appends : node.Appends request fromAppendEntriesCache stored)
    (valid : ∀ entryMeta ∈ request.entries, entryMeta.Valid) :
    node.handleAppendEntriesRequest request context fromAppendEntriesCache cached stored sees =
      (node.logManager.appendEntries context request.logEntries sees).map (fun after =>
        ({ node with
            election := node.election.handleLeaderRequest request.term request.serverId
              (¬ fromAppendEntriesCache) stored
            logManager := after },
          .appending (node.election.handleLeaderRequest request.term request.serverId
            (¬ fromAppendEntriesCache) stored).currentTerm)) := by
  obtain ⟨active, notStale, isLeader, nonempty, notInstalling, known⟩ := appends
  unfold handleAppendEntriesRequest
  simp only
  rw [if_neg (not_not.mpr active), if_neg (not_lt.mpr notStale), if_neg (not_not.mpr isLeader),
    if_neg (by simp [notInstalling]), if_neg (not_not.mpr known),
    if_neg (by simpa using nonempty), parseEntries_valid _ _ valid]
  rfl

theorem handle_other (other : ¬ node.Appends request fromAppendEntriesCache stored) (context : C)
    (cached sees : Bool) :
    ∃ election handled,
      node.handleAppendEntriesRequest request context fromAppendEntriesCache cached stored sees =
        some ({ node with election := election }, handled) := by
  unfold Appends at other
  unfold handleAppendEntriesRequest
  simp only
  by_cases active : node.election.state.isActive = true
  · by_cases stale : request.term < node.election.currentTerm
    · rw [if_neg (not_not.mpr active), if_pos stale]
      exact ⟨_, _, rfl⟩
    · by_cases isLeader : (node.election.handleLeaderRequest request.term request.serverId
          (¬ fromAppendEntriesCache) stored).leaderId = some request.serverId
      · rw [if_neg (not_not.mpr active), if_neg stale, if_neg (not_not.mpr isLeader)]
        split_ifs with busy unknown kept empty
        · exact ⟨_, _, rfl⟩
        · exact ⟨_, _, rfl⟩
        · exact ⟨_, _, rfl⟩
        · exact ⟨_, _, rfl⟩
        · refine absurd ⟨active, not_lt.mp stale, isLeader, by simpa using empty, ?_,
            not_not.mp unknown⟩ other
          simpa [empty] using busy
      · rw [if_neg (not_not.mpr active), if_neg stale, if_pos isLeader]
        exact ⟨_, _, rfl⟩
  · rw [if_pos active]
    exact ⟨_, _, rfl⟩

/-- What `unsafe_truncate_suffix` is asked to keep in this call. -/
def suffixCut (node : Follower P D C) (request : AppendEntriesRequest P D)
    (fromAppendEntriesCache stored sees : Bool) : Option Nat :=
  if node.Appends request fromAppendEntriesCache stored then
    (parseEntries request.prevLogIndex request.entries).bind (fun entries =>
      node.logManager.suffixCut entries sees)
  else none

structure KeepsApplied (node : Follower P D C) (request : AppendEntriesRequest P D) (context : C)
    (fromAppendEntriesCache cached stored sees : Bool) : Prop where
  cut : ∀ kept, node.suffixCut request fromAppendEntriesCache stored sees = some kept →
    node.logManager.appliedId.index ≤ kept
  contiguous : node.logManager.hasError = false → ∃ after handled,
    node.handleAppendEntriesRequest request context fromAppendEntriesCache cached stored sees =
      some (after, handled) ∧ after.logManager.Contiguous

theorem reachable_handle (reached : LogManager.system.Reachable node.logManager)
    (legit : FromLeader node.logManager request) {after : Follower P D C} {handled : Handled}
    (step : node.handleAppendEntriesRequest request context fromAppendEntriesCache cached stored
      sees = some (after, handled)) :
    LogManager.system.Reachable after.logManager := by
  by_cases appends : node.Appends request fromAppendEntriesCache stored
  · rw [handle_appends appends legit.valid, Option.map_eq_some_iff] at step
    obtain ⟨manager, stepped, same⟩ := step
    obtain ⟨rfl, _⟩ := Prod.mk.inj same
    have allowed : LogManager.system.allowed
        (.appendEntries context request.logEntries sees) node.logManager :=
      legit.appendable appends.2.2.2.2.2
    exact .next reached allowed stepped
  · obtain ⟨election, other, same⟩ := handle_other appends context cached sees
    rw [same, Option.some_inj, Prod.mk.injEq] at step
    obtain ⟨rfl, _⟩ := step
    exact reached

/-- `get_term` does not know an applied index of the log in two cases: the index is compacted
and no snapshot ends there, or the storage is read behind a cut that is still pending. -/
theorem getTerm_unknown_iff (reached : LogManager.system.Reachable node.logManager)
    (works : node.logManager.hasError = false) (legit : FromLeader node.logManager request)
    {entry : LogEntry P D} (member : entry ∈ request.logEntries)
    (applied : entry.id.index ≤ node.logManager.appliedId.index)
    (inside : entry.id.index ≤ node.logManager.lastLogIndex) :
    node.logManager.getTerm entry.id.index ≠ entry.id.term ↔
      entry.id.index ≠ node.logManager.lastSnapshotId.index ∧
      entry.id.index ≠ node.logManager.virtualFirstLogId.index ∧
      (entry.id.index < node.logManager.firstLogIndex ∨
        node.logManager.getEntryFromMemory entry.id.index = none ∧
          node.logManager.storage.getTerm entry.id.index ≠ entry.id.term) := by
  have holds := ((LogManager.durable_of_reachable reached).soundLog works).1.toHolds
  have positive := legit.terms entry member
  have index : entry.id.index ≠ 0 := by
    obtain ⟨position, found⟩ := List.mem_iff_getElem?.mp member
    have placed := logEntries_consecutive _ _ position entry found
    omega
  unfold LogManager.getTerm
  rw [if_neg index]
  by_cases atVirtual : entry.id.index = node.logManager.virtualFirstLogId.index
  · rw [if_pos atVirtual, legit.snapshot entry member _ (Or.inr rfl) atVirtual]
    simp [atVirtual]
  by_cases atSnapshot : entry.id.index = node.logManager.lastSnapshotId.index
  · rw [if_neg atVirtual, if_pos atSnapshot, legit.snapshot entry member _ (Or.inl rfl) atSnapshot]
    simp [atSnapshot]
  rw [if_neg atVirtual, if_neg atSnapshot]
  by_cases compacted : entry.id.index < node.logManager.firstLogIndex
  · rw [if_pos (Or.inr compacted)]
    exact ⟨fun _ => ⟨atSnapshot, atVirtual, Or.inl compacted⟩, fun _ => by omega⟩
  rw [if_neg (by omega)]
  cases inMemory : node.logManager.getEntryFromMemory entry.id.index with
  | none =>
      simp only
      constructor
      · intro stale
        exact ⟨atSnapshot, atVirtual, Or.inr ⟨trivial, stale⟩⟩
      · rintro ⟨_, _, gone | ⟨_, stale⟩⟩
        · exact absurd gone compacted
        · exact stale
  | some found =>
      have read := holds.getEntryFromMemory_eq entry.id.index
      rw [inMemory] at read
      have inLog : node.logManager.logicalLog.getEntry entry.id.index = some found := by
        split_ifs at read
        exact read.symm
      have same := legit.committed entry member applied found inLog
      simp only
      constructor
      · intro other
        exact absurd (congrArg (fun entry => entry.id.term) same) other
      · rintro ⟨_, _, gone | ⟨absent, _⟩⟩
        · exact absurd gone compacted
        · contradiction

/-- A request of a leader cuts nothing that is applied exactly when it does not reach the log
manager, ends at or below the applied index, or has applied entries only that `get_term`
knows. -/
theorem handleAppendEntriesRequest_keeps_iff
    (reached : LogManager.system.Reachable node.logManager)
    (legit : FromLeader node.logManager request) (context : C)
    (fromAppendEntriesCache cached stored sees : Bool) :
    KeepsApplied node request context fromAppendEntriesCache cached stored sees ↔
      (node.Appends request fromAppendEntriesCache stored →
        ¬ (node.logManager.hasError ∧ sees) →
          request.prevLogIndex + request.entries.length ≤ node.logManager.appliedId.index ∨
            node.logManager.KnowsApplied request.logEntries) := by
  have consecutive : LogManager.Consecutive (request.prevLogIndex + 1) request.logEntries :=
    logEntries_consecutive _ _
  have durable := LogManager.durable_of_reachable reached
  have asked (appends : node.Appends request fromAppendEntriesCache stored) :
      node.suffixCut request fromAppendEntriesCache stored sees =
        node.logManager.suffixCut request.logEntries sees := by
    unfold suffixCut
    rw [if_pos appends, parseEntries_valid _ _ legit.valid]
    rfl
  constructor
  · intro keeps appends unseen
    obtain ⟨back, isBack, index⟩ := AppendEntriesRequest.back appends.2.2.2.1
    by_contra wrong
    obtain ⟨above, unknown⟩ := not_or.mp wrong
    apply unknown
    intro entry member applied inside
    by_contra notKnown
    obtain ⟨kept, isKept, below⟩ := LogManager.suffixCut_below unseen consecutive isBack
      (by omega) member applied inside notKnown
    have notBelow := keeps.cut kept (by rw [asked appends, isKept])
    omega
  · intro knows
    by_cases appends : node.Appends request fromAppendEntriesCache stored
    · obtain ⟨back, isBack, index⟩ := AppendEntriesRequest.back appends.2.2.2.1
      constructor
      · intro kept isKept
        rw [asked appends] at isKept
        obtain ⟨front, last, conflicting, rest, _, isLast, _, _, above, _, _, _, unseen⟩ :=
          LogManager.suffixCut_some isKept
        rw [isBack, Option.some_inj] at isLast
        subst isLast
        rcases knows appends unseen with early | knows
        · omega
        · exact knows.cut_above isKept
      · intro works
        have sound := (durable.soundLog works).1
        have before : request.prevLogIndex = 0 ∨
            node.logManager.getTerm request.prevLogIndex ≠ 0 := by
          rw [appends.2.2.2.2.2]
          rcases legit.previous with ⟨none, _⟩ | ⟨_, positive⟩
          · exact Or.inl none
          · exact Or.inr positive.ne'
        have knows := knows appends (by simp [works])
        rw [← index] at knows
        obtain ⟨after, stepped, contiguous⟩ := sound.toTracks.appendEntries_contiguous
          durable.opened consecutive legit.terms before isBack knows context sees
        rw [handle_appends appends legit.valid]
        exact ⟨_, _, congrArg (Option.map _) stepped, contiguous⟩
    · constructor
      · intro kept isKept
        unfold suffixCut at isKept
        rw [if_neg appends] at isKept
        contradiction
      · intro works
        obtain ⟨election, handled, same⟩ := handle_other appends context cached sees
        exact ⟨_, _, same, ((durable.soundLog works).1.toHolds).contiguous⟩

open FlushRun (dataEntry)

/-- Four entries of term 1, of which three are applied and two compacted: the snapshots end at
the second and at the third. -/
def fourEntries : LogManager Nat Nat Nat :=
  LogManager.init
    { first := 1, entries := [dataEntry 1 1, dataEntry 2 1, dataEntry 3 1, dataEntry 4 1] } .init
    (fun _ => 1)

def compacted : LogManager Nat Nat Nat :=
  ((fourEntries.setSnapshot { lastIncludedIndex := 2, lastIncludedTerm := 1 }).bind (fun manager =>
    manager.setSnapshot { lastIncludedIndex := 3, lastIncludedTerm := 1 })).getD fourEntries

theorem fourEntries_entry {index : Nat} {entry : LogEntry Nat Nat}
    (found : fourEntries.storage.getEntry index = some entry) :
    0 < index ∧ entry = dataEntry index 1 := by
  unfold LogStorage.getEntry IndexedLog.get? at found
  match index with
  | 0 => simp [fourEntries, LogManager.init] at found
  | 1 => exact ⟨by decide, (Option.some.inj found).symm⟩
  | 2 => exact ⟨by decide, (Option.some.inj found).symm⟩
  | 3 => exact ⟨by decide, (Option.some.inj found).symm⟩
  | 4 => exact ⟨by decide, (Option.some.inj found).symm⟩
  | index + 5 => simp [fourEntries, LogManager.init] at found

theorem fourEntries_initial : LogManager.Initial fourEntries := by
  refine ⟨fourEntries.storage, .init, _, ⟨by decide, ?_⟩, ?_, Or.inl ⟨rfl, rfl⟩⟩
  · intro index entry found
    obtain ⟨_, rfl⟩ := fourEntries_entry found
    exact ⟨rfl, Nat.one_pos⟩
  · intro former later entry entry' _ _ found found'
    obtain ⟨_, rfl⟩ := fourEntries_entry found
    obtain ⟨_, rfl⟩ := fourEntries_entry found'
    exact le_refl _

theorem compacted_reachable : LogManager.system.Reachable compacted := by
  have follows : LogManager.system.Follows
      [.setSnapshot { lastIncludedIndex := 2, lastIncludedTerm := 1 },
        .setSnapshot { lastIncludedIndex := 3, lastIncludedTerm := 1 }]
      fourEntries compacted := by
    exact ⟨Or.inr (Or.inl (Or.inr ⟨by decide, by decide⟩)), _, rfl,
      Or.inr (Or.inl (Or.inr ⟨by decide, by decide⟩)), _, rfl, rfl⟩
  exact .follows _ (.start fourEntries_initial) follows

def dataRequest (prevLogIndex prevLogTerm count : Nat) : AppendEntriesRequest Nat Nat :=
  { serverId := 2
    term := 1
    prevLogIndex := prevLogIndex
    prevLogTerm := prevLogTerm
    entries := List.replicate count { term := 1, type := .data, data := 0 } }

theorem dataRequest_entry {prevLogIndex prevLogTerm count : Nat} {entry : LogEntry Nat Nat}
    (member : entry ∈ (dataRequest prevLogIndex prevLogTerm count).logEntries) :
    entry = dataEntry entry.id.index 1 ∧ prevLogIndex < entry.id.index := by
  obtain ⟨position, found⟩ := List.mem_iff_getElem?.mp member
  unfold AppendEntriesRequest.logEntries at found
  rw [logEntries_getElem?, Option.map_eq_some_iff] at found
  obtain ⟨entryMeta, isMeta, rfl⟩ := found
  obtain rfl := List.eq_of_mem_replicate (List.mem_of_getElem? isMeta)
  refine ⟨rfl, ?_⟩
  change prevLogIndex < prevLogIndex + 1 + position
  omega

theorem compacted_entry {index : Nat} {entry : LogEntry Nat Nat}
    (found : compacted.logicalLog.getEntry index = some entry) : entry = dataEntry index 1 := by
  have isLog : compacted.logicalLog =
      { first := 3, entries := [dataEntry 3 1, dataEntry 4 1] } := rfl
  rw [isLog] at found
  unfold LogStorage.getEntry IndexedLog.get? at found
  match index with
  | 0 => simp at found
  | 1 => simp at found
  | 2 => simp at found
  | 3 => exact (Option.some.inj found).symm
  | 4 => exact (Option.some.inj found).symm
  | index + 5 => simp at found

theorem dataRequest_legit (prevLogIndex prevLogTerm count : Nat)
    (previous : prevLogIndex = 0 ∧ prevLogTerm = 0 ∨ 0 < prevLogIndex ∧ prevLogTerm = 1) :
    FromLeader compacted (dataRequest prevLogIndex prevLogTerm count) := by
  have atMost : prevLogTerm ≤ 1 := by omega
  constructor
  · intro entryMeta member
    obtain rfl := List.eq_of_mem_replicate member
    constructor
    · decide
    · decide
    · decide
  · exact List.pairwise_replicate.mpr (Or.inr (le_refl _))
  · intro entryMeta member
    obtain rfl := List.eq_of_mem_replicate member
    exact ⟨atMost, le_refl _⟩
  · rcases previous with none | ⟨positive, rfl⟩
    · exact Or.inl none
    · exact Or.inr ⟨positive, Nat.one_pos⟩
  · intro entry member _ found isFound
    rw [(dataRequest_entry member).1]
    exact compacted_entry isFound
  · intro entry member id isId _
    rw [(dataRequest_entry member).1]
    rcases isId with rfl | rfl
    · rfl
    · rfl
  · intro entry member _
    rw [(dataRequest_entry member).1]
    exact le_refl _
  · intro entry member found isFound _
    rw [(dataRequest_entry member).1]
    change (if _ then none else fourEntries.storage.getEntry entry.id.index) = some found at isFound
    split_ifs at isFound
    exact (fourEntries_entry isFound).2

def compactedFollower : Follower Nat Nat Nat :=
  { election := .startedNode [1, 2, 3], logManager := compacted }

/-- The request with all entries comes again: index 1 is compacted, and the process ends. -/
theorem duplicate_cuts_applied :
    ∃ (node : Follower Nat Nat Nat) (request : AppendEntriesRequest Nat Nat),
      LogManager.system.Reachable node.logManager ∧ FromLeader node.logManager request ∧
        node.suffixCut request false true false = some 0 ∧ node.logManager.appliedId.index = 3 ∧
        node.handleAppendEntriesRequest request 0 false false true false = none ∧
        ¬ KeepsApplied node request 0 false false true false := by
  refine ⟨compactedFollower, dataRequest 0 0 4, compacted_reachable,
    dataRequest_legit 0 0 4 (Or.inl ⟨rfl, rfl⟩), rfl, rfl, rfl, ?_⟩
  intro keeps
  exact absurd (keeps.cut 0 rfl) (by decide)

/-- The last of the entries and one more behind the applied one. -/
theorem handleAppendEntriesRequest_keeps_compacted :
    KeepsApplied compactedFollower (dataRequest 3 1 2) 0 false false true false := by
  refine (handleAppendEntriesRequest_keeps_iff compacted_reachable
    (dataRequest_legit 3 1 2 (Or.inr ⟨by decide, rfl⟩)) 0 false false true false).mpr ?_
  intro _ _
  refine Or.inr ?_
  intro entry member applied
  have above := (dataRequest_entry member).2
  have isApplied : compactedFollower.logManager.appliedId.index = 3 := rfl
  omega

theorem reachable_handle_compacted :
    ∃ after handled,
      compactedFollower.handleAppendEntriesRequest (dataRequest 3 1 2) 0 false false true false =
        some (after, handled) ∧ LogManager.system.Reachable after.logManager := by
  have handles : (compactedFollower.handleAppendEntriesRequest (dataRequest 3 1 2) 0 false false
      true false).isSome = true := rfl
  obtain ⟨⟨after, handled⟩, step⟩ := Option.isSome_iff_exists.mp handles
  exact ⟨after, handled, step, reachable_handle compacted_reachable
    (dataRequest_legit 3 1 2 (Or.inr ⟨by decide, rfl⟩)) step⟩

end Follower

end QuorumKit
