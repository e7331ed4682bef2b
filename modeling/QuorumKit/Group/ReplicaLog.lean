/-
The log of a node of a group, when nothing is compacted and the storage does not fail.

The entries are those that the log manager answers with.  The disk thread changes the
storage one task after another, and a crash leaves what it has stored by then.  A closure
is run when all tasks before it are done, and may wait while its batch is stored.  The functions are those of
`braft/log_manager.cpp` with the first index 1.
-/

import QuorumKit.AppendEntries
import QuorumKit.Library.LeaderLogs
import QuorumKit.Library.PendingTasks

namespace QuorumKit

variable {P D : Type}

/-- `LeaderStableClosure`, with the term of the leader kept for the statements, and
`FollowerStableClosure`. -/
inductive AppendDone (P D : Type) where
  | leader (term nentries : Nat)
  | follower (request : AppendEntriesRequest P D) (term : Nat)

/-- What the disk thread does: it changes the storage, or runs a closure with its
`_first_log_index`. -/
inductive LogTask (P D : Type) where
  | truncateSuffix (lastIndexKept : Nat)
  | append (entry : LogEntry P D)
  | run (done : AppendDone P D) (firstLogIndex : Nat)

def LogTask.apply (task : LogTask P D) (stored : List (LogEntry P D)) : List (LogEntry P D) :=
  match task with
  | .truncateSuffix lastIndexKept => stored.take lastIndexKept
  | .append entry => stored ++ [entry]
  | .run _ _ => stored

def LogTask.isRun : LogTask P D → Bool
  | .run _ _ => true
  | _ => false

/-- `asyncClosures` are given to `run_closure_in_bthread`, with their status. -/
structure ReplicaLog (P D : Type) where
  entries : List (LogEntry P D) := []
  stored : List (LogEntry P D) := []
  diskQueue : List (LogTask P D) := []
  asyncClosures : List (AppendDone P D × Int) := []
  appliedIndex : Nat := 0

def LogEntry.term (entry : LogEntry P D) : Nat := entry.id.term

/-- `get_term`. -/
def termAt (entries : List (LogEntry P D)) (index : Nat) : Nat :=
  if index = 0 then 0 else (entries[index - 1]?.map LogEntry.term).getD 0

/-- `last_log_id`. -/
def lastEntryId (entries : List (LogEntry P D)) : LogId :=
  { index := entries.length, term := termAt entries entries.length }

theorem termAt_succ (entries : List (LogEntry P D)) (position : Nat) :
    termAt entries (position + 1) = (entries[position]?.map LogEntry.term).getD 0 := by
  rw [termAt, if_neg (Nat.succ_ne_zero _), Nat.add_sub_cancel]

theorem termAt_length (entries : List (LogEntry P D)) :
    termAt entries entries.length = LeaderLogs.lastTerm LogEntry.term entries := by
  unfold termAt LeaderLogs.lastTerm
  rw [List.getLast?_eq_getElem?]
  split_ifs with empty
  · rw [List.length_eq_zero_iff.mp empty]
    rfl
  · rfl

/-- The comparison of `handle_request_vote_request` is that of the last entries. -/
theorem upToDate_of_le {entries other : List (LogEntry P D)}
    (notOlder : lastEntryId entries ≤ lastEntryId other) :
    LeaderLogs.UpToDate LogEntry.term entries other := by
  rw [LogId.le_iff] at notOlder
  unfold lastEntryId at notOlder
  rw [termAt_length, termAt_length] at notOlder
  exact notOlder

namespace ReplicaLog

def unsafeTruncateSuffix (log : ReplicaLog P D) (lastIndexKept : Nat) : Option (ReplicaLog P D) :=
  if lastIndexKept < log.appliedIndex then none
  else
    let kept := log.entries.take lastIndexKept
    if lastIndexKept ≠ 0 ∧ termAt kept lastIndexKept = 0 then none
    else
      some { log with
        entries := kept
        diskQueue := log.diskQueue ++ [.truncateSuffix lastIndexKept] }

/-- The outcome of `check_and_resolve_conflict`, as that of the log manager. -/
inductive Resolution (P D : Type) where
  | refused (status : Int)
  | accepted (entries : List (LogEntry P D)) (log : ReplicaLog P D)

def checkAndResolveConflict (log : ReplicaLog P D) (entries : List (LogEntry P D))
    (front back : LogEntry P D) : Option (Resolution P D) :=
  if front.id.index = 0 then
    some (.accepted (LogManager.assignIndexes log.entries.length entries) log)
  else if log.entries.length + 1 < front.id.index then some (.refused EINVAL)
  else if back.id.index ≤ log.appliedIndex then some (.refused 0)
  else if front.id.index = log.entries.length + 1 then some (.accepted entries log)
  else
    match entries.dropWhile (fun entry => termAt log.entries entry.id.index = entry.id.term) with
    | [] => some (.accepted [] log)
    | conflicting :: rest =>
        if conflicting.id.index ≤ log.entries.length then
          (log.unsafeTruncateSuffix (conflicting.id.index - 1)).map
            (.accepted (conflicting :: rest))
        else some (.accepted (conflicting :: rest) log)

def enqueue (log : ReplicaLog P D) (done : AppendDone P D) (entries : List (LogEntry P D)) :
    ReplicaLog P D :=
  { log with
    entries := log.entries ++ entries
    diskQueue := log.diskQueue ++ entries.map .append ++
      [.run done ((entries.head?.map (fun front => front.id.index)).getD 0)] }

def appendEntries (log : ReplicaLog P D) (done : AppendDone P D) (entries : List (LogEntry P D)) :
    Option (ReplicaLog P D) :=
  match entries.head?, entries.getLast? with
  | some front, some back =>
      match log.checkAndResolveConflict entries front back with
      | none => none
      | some (.refused status) =>
          some { log with asyncClosures := log.asyncClosures ++ [(done, status)] }
      | some (.accepted remaining resolved) => some (resolved.enqueue done remaining)
  | _, _ => some (log.enqueue done [])

def restart (log : ReplicaLog P D) : ReplicaLog P D := { entries := log.stored, stored := log.stored }

/-- The next task of the disk thread; `batches` stores the next entry of an `AppendBatcher`
while the closures before it wait. -/
def takeTask (log : ReplicaLog P D) (batches : Bool) : Option (LogTask P D × ReplicaLog P D) :=
  if batches then
    match log.diskQueue.dropWhile LogTask.isRun with
    | .append entry :: rest =>
        some (.append entry,
          { log with
            stored := log.stored ++ [entry]
            diskQueue := log.diskQueue.takeWhile LogTask.isRun ++ rest })
    | _ => none
  else
    match log.diskQueue with
    | [] => none
    | task :: rest => some (task, { log with stored := task.apply log.stored, diskQueue := rest })

def Drained (log : ReplicaLog P D) : Prop :=
  log.diskQueue.foldl (fun stored task => task.apply stored) log.stored = log.entries

/-- It holds of the storage now and after each task, and so of the log. -/
def Always (Holds : List (LogEntry P D) → Prop) (log : ReplicaLog P D) : Prop :=
  Pending.Throughout LogTask.apply Holds log.stored log.diskQueue

def Promised (Claim : AppendDone P D → Nat → List (LogEntry P D) → Prop) (log : ReplicaLog P D) :
    Prop :=
  Pending.Promises LogTask.apply
    (fun task stored =>
      match task with
      | .run done firstLogIndex => Claim done firstLogIndex stored
      | _ => True)
    log.stored log.diskQueue

variable {log after : ReplicaLog P D} {Holds : List (LogEntry P D) → Prop}
  {Claim : AppendDone P D → Nat → List (LogEntry P D) → Prop}

theorem Always.entries (always : log.Always Holds) (drained : log.Drained) : Holds log.entries :=
  drained ▸ Pending.Throughout.final always

theorem Always.stored (always : log.Always Holds) : Holds log.stored := Pending.Throughout.now always

theorem Always.mono {Weaker : List (LogEntry P D) → Prop} (always : log.Always Holds)
    (weaker : ∀ entries, Holds entries → Weaker entries) : log.Always Weaker :=
  Pending.Throughout.mono weaker always

theorem Promised.mono {Weaker : AppendDone P D → Nat → List (LogEntry P D) → Prop}
    (promised : log.Promised Claim)
    (weaker : ∀ done firstLogIndex, .run done firstLogIndex ∈ log.diskQueue →
      ∀ entries, Claim done firstLogIndex entries → Weaker done firstLogIndex entries) :
    log.Promised Weaker := by
  apply Pending.Promises.mono _ promised
  intro task member stored claims
  cases task with
  | run done firstLogIndex => exact weaker done firstLogIndex member stored claims
  | truncateSuffix lastIndexKept => trivial
  | append entry => trivial

theorem restart_drained (log : ReplicaLog P D) : log.restart.Drained := rfl

theorem takeTask_kept {task : LogTask P D} {batches : Bool}
    (taken : log.takeTask batches = some (task, after)) :
    (log.Drained → after.Drained) ∧
      (∀ Holds : List (LogEntry P D) → Prop, log.Always Holds → after.Always Holds) ∧
      (∀ Claim : AppendDone P D → Nat → List (LogEntry P D) → Prop, log.Promised Claim →
        after.Promised Claim ∧ ∀ done firstLogIndex, task = .run done firstLogIndex →
          after.Always (Claim done firstLogIndex)) ∧
      task ∈ log.diskQueue ∧ after.diskQueue ⊆ log.diskQueue ∧ after.entries = log.entries ∧
      after.asyncClosures = log.asyncClosures ∧ after.appliedIndex = log.appliedIndex := by
  unfold takeTask at taken
  split_ifs at taken
  · have isQueue := List.takeWhile_append_dropWhile (p := LogTask.isRun) (l := log.diskQueue)
    have idle : ∀ other ∈ log.diskQueue.takeWhile LogTask.isRun, ∀ stored : List (LogEntry P D),
        other.apply stored = stored := by
      intro other member stored
      have isRun := List.mem_takeWhile_imp member
      cases other with
      | run done firstLogIndex => rfl
      | truncateSuffix lastIndexKept => contradiction
      | append entry => contradiction
    split at taken
    · rename_i entry rest isRest
      simp only [Option.some_inj, Prod.mk.injEq] at taken
      obtain ⟨rfl, rfl⟩ := taken
      rw [isRest] at isQueue
      generalize log.diskQueue.takeWhile LogTask.isRun = waiting at isQueue idle
      unfold Drained Always Promised
      rw [← isQueue]
      refine ⟨(Pending.foldl_overtake log.stored idle).trans,
        fun Holds always => always.overtake idle,
        fun Claim promised => ⟨promised.overtake idle, fun _ _ isRun => by cases isRun⟩,
        List.mem_append_right _ List.mem_cons_self, ?_, rfl, rfl, rfl⟩
      exact ((List.sublist_cons_self _ _).append_left waiting).subset
    · contradiction
  split at taken
  · contradiction
  · rename_i head rest isQueue
    simp only [Option.some_inj, Prod.mk.injEq] at taken
    obtain ⟨rfl, rfl⟩ := taken
    unfold Drained Always Promised
    rw [isQueue]
    refine ⟨id, fun Holds always => always.2, ?_, List.mem_cons_self, List.subset_cons_self _ _,
      rfl, rfl, rfl⟩
    intro Claim promised
    refine ⟨promised.2, ?_⟩
    intro done firstLogIndex isRun
    have claims := promised.1
    rw [isRun] at claims
    rw [isRun]
    exact claims

/-- The log is cut, goes on with `remaining`, and the closure waits behind both. -/
structure Added (log after : ReplicaLog P D) (done : AppendDone P D) (cut : Nat)
    (remaining : List (LogEntry P D)) : Prop where
  stored : after.stored = log.stored
  entries : after.entries = log.entries.take cut ++ remaining
  queue : after.diskQueue = log.diskQueue ++
    ((if cut < log.entries.length then [.truncateSuffix cut] else []) ++ remaining.map .append ++
      [.run done ((remaining.head?.map (fun front => front.id.index)).getD 0)])
  async : after.asyncClosures = log.asyncClosures
  applied : after.appliedIndex = log.appliedIndex

variable {done : AppendDone P D} {cut : Nat} {remaining : List (LogEntry P D)}

theorem foldl_append (entries : List (LogEntry P D)) : ∀ stored : List (LogEntry P D),
    (entries.map LogTask.append).foldl (fun stored task => task.apply stored) stored =
      stored ++ entries := by
  induction entries with
  | nil => exact fun stored => (List.append_nil stored).symm
  | cons entry rest ih =>
      intro stored
      rw [List.map_cons, List.foldl_cons, ih, LogTask.apply, List.append_assoc,
        List.singleton_append]

theorem throughout_append (entries : List (LogEntry P D)) : ∀ stored : List (LogEntry P D),
    (∀ version, stored <+: version → version <+: stored ++ entries → Holds version) →
      Pending.Throughout LogTask.apply Holds stored (entries.map LogTask.append) := by
  induction entries with
  | nil => exact fun stored between => between stored (List.prefix_refl _) (List.prefix_append _ _)
  | cons entry rest ih =>
      intro stored between
      refine ⟨between stored (List.prefix_refl _) (List.prefix_append _ _), ih _ ?_⟩
      intro version above below
      apply between version ((List.prefix_append _ _).trans above)
      rw [LogTask.apply, List.append_assoc, List.singleton_append] at below
      exact below

namespace Added

variable (added : Added log after done cut remaining)

include added

omit added in
theorem cut_fold :
    ((if cut < log.entries.length then [LogTask.truncateSuffix cut] else []) :
      List (LogTask P D)).foldl (fun stored task => task.apply stored) log.entries =
        log.entries.take cut := by
  split_ifs with inside
  · rfl
  · exact (List.take_of_length_le (not_lt.mp inside)).symm

theorem drained (drained : log.Drained) : after.Drained := by
  unfold Drained at drained ⊢
  rw [added.stored, added.queue, added.entries, List.foldl_append, drained, List.foldl_append,
    List.foldl_append, cut_fold, foldl_append]
  rfl

theorem throughout (now : Holds log.entries)
    (between : ∀ version, log.entries.take cut <+: version → version <+: after.entries →
      Holds version) :
    Pending.Throughout LogTask.apply Holds log.entries
      ((if cut < log.entries.length then [.truncateSuffix cut] else []) ++
        remaining.map .append ++
        [.run done ((remaining.head?.map (fun front => front.id.index)).getD 0)]) := by
  have whole : Holds (log.entries.take cut) :=
    between _ (List.prefix_refl _) (added.entries ▸ List.prefix_append _ _)
  rw [Pending.throughout_append, Pending.throughout_append, List.foldl_append,
    cut_fold, foldl_append]
  refine ⟨⟨?_, ?_⟩, ?_⟩
  · split_ifs with inside
    · exact ⟨now, whole⟩
    · exact now
  · apply throughout_append
    rw [← added.entries]
    exact between
  · rw [← added.entries]
    have last := between after.entries (added.entries ▸ List.prefix_append _ _)
      (List.prefix_refl _)
    exact ⟨last, last⟩

theorem always (drained : log.Drained) (always : log.Always Holds)
    (between : ∀ version, log.entries.take cut <+: version → version <+: after.entries →
      Holds version) : after.Always Holds := by
  unfold Always
  rw [added.stored, added.queue, Pending.throughout_append]
  refine ⟨always, ?_⟩
  rw [drained]
  exact added.throughout (always.entries drained) between

/-- The closures that wait keep what they promise, and the new one promises something of the
new log. -/
theorem promised (drained : log.Drained) (promised : log.Promised Claim)
    (kept : ∀ other firstLogIndex, .run other firstLogIndex ∈ log.diskQueue →
      Claim other firstLogIndex log.entries →
      ∀ version, log.entries.take cut <+: version → version <+: after.entries →
        Claim other firstLogIndex version)
    (claims : Claim done ((remaining.head?.map (fun front => front.id.index)).getD 0)
      after.entries) : after.Promised Claim := by
  unfold Promised
  rw [added.stored, added.queue]
  apply Pending.Promises.append promised
  · intro task member claim
    rw [drained] at claim ⊢
    apply added.throughout claim
    cases task with
    | run other firstLogIndex => exact kept other firstLogIndex member claim
    | truncateSuffix lastIndexKept => exact fun _ _ _ => trivial
    | append entry => exact fun _ _ _ => trivial
  · rw [drained]
    have silent : ∀ task ∈ (if cut < log.entries.length then [LogTask.truncateSuffix cut] else []) ++
        remaining.map .append, ∀ other firstLogIndex, task ≠ LogTask.run other firstLogIndex := by
      intro task member other firstLogIndex isRun
      rw [isRun] at member
      rcases List.mem_append.mp member with isCut | isAppend
      · split_ifs at isCut with inside
        · cases List.mem_singleton.mp isCut
        · exact List.not_mem_nil isCut
      · obtain ⟨entry, _, isEntry⟩ := List.mem_map.mp isAppend
        cases isEntry
    apply Pending.Promises.append
    · apply Pending.promises_of_all
      intro task member stored
      cases task with
      | run other firstLogIndex => exact absurd rfl (silent _ member other firstLogIndex)
      | truncateSuffix lastIndexKept => trivial
      | append entry => trivial
    · intro task member _
      apply Pending.Throughout.of_all
      intro stored
      cases task with
      | run other firstLogIndex => exact absurd rfl (silent _ member other firstLogIndex)
      | truncateSuffix lastIndexKept => trivial
      | append entry => trivial
    · refine ⟨?_, trivial⟩
      rw [List.foldl_append, cut_fold, foldl_append, ← added.entries]
      exact claims

end Added

end ReplicaLog

end QuorumKit
