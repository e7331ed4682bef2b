/-
The disk thread on a whole queue, `AppendBatcher` and `disk_thread` of `braft/log_manager.cpp`.

The storage is what implements `LogStorage`, and may fail.  It is called for whole batches;
what it is called with and which closures are run is written down in order.  The same queue with
a flush behind every task is the run without batches.  No other thread reports an error here,
and a failing `CHECK` ends the process.
-/

import Mathlib.Algebra.Ring.Nat
import Mathlib.Data.List.Infix
import QuorumKit.Log.MemoryLogStorage
import QuorumKit.LogManager.LogManager

namespace QuorumKit

/-! ### The code -/

/-- What the disk thread calls: the number of entries that were appended, and the codes of the
others. -/
structure DiskOperations (S P D : Type) where
  appendEntries : List (LogEntry P D) → S → Nat × S
  truncatePrefix : Nat → S → Int × S
  truncateSuffix : Nat → S → Int × S
  reset : Nat → S → Int × S

/-- The size of the array of closures, and `FLAGS_raft_max_append_buffer_size`. -/
structure BatchLimits (D : Type) where
  cap : Nat := 256
  maxAppendBufferSize : Nat := 256 * 1024
  dataLength : D → Nat

inductive DiskEvent (P D C : Type) where
  | appended (batch : List (StableClosure P D C))
  | operated (task : DiskTask P D C)
  | ran (task : DiskTask P D C) (status : Int)
deriving DecidableEq

/-- The locals of `disk_thread`, the members of its batcher and what they work on. -/
structure BatchedDisk (S P D C : Type) where
  storage : S
  hasError : Bool := false
  lastId : LogId := {}
  batch : List (StableClosure P D C) := []
  toAppend : List (LogEntry P D) := []
  bufferSize : Nat := 0
  answers : List (Nat × LogId) := []
  events : List (DiskEvent P D C) := []
deriving DecidableEq

namespace BatchedDisk

variable {S P D C : Type} (limits : BatchLimits D) (ops : DiskOperations S P D)

def lastWritten (toAppend : List (LogEntry P D)) (appended : Nat) (lastId : LogId) : LogId :=
  ((toAppend.take appended).getLast?.map LogEntry.id).getD lastId

def appendToStorage (disk : BatchedDisk S P D C) : BatchedDisk S P D C :=
  if disk.hasError then { disk with toAppend := [] }
  else
    let (appended, storage) := ops.appendEntries disk.toAppend disk.storage
    { disk with
      storage := storage
      hasError := appended ≠ disk.toAppend.length
      lastId := lastWritten disk.toAppend appended disk.lastId
      toAppend := []
      events := disk.events ++ [.appended disk.batch] }

def flush (disk : BatchedDisk S P D C) : BatchedDisk S P D C :=
  if disk.batch.isEmpty then { disk with bufferSize := 0 }
  else
    let written := disk.appendToStorage ops
    { written with
      batch := []
      bufferSize := 0
      events := written.events ++ disk.batch.map (fun done =>
        .ran (.append done) (if written.hasError then EIO else 0)) }

def push (disk : BatchedDisk S P D C) (done : StableClosure P D C) : BatchedDisk S P D C :=
  { disk with
    batch := disk.batch ++ [done]
    toAppend := disk.toAppend ++ done.entries
    bufferSize :=
      disk.bufferSize + (done.entries.map (fun entry => limits.dataLength entry.data)).sum }

def append (disk : BatchedDisk S P D C) (done : StableClosure P D C) : BatchedDisk S P D C :=
  if disk.batch.length = limits.cap ∨ limits.maxAppendBufferSize ≤ disk.bufferSize then
    (disk.flush ops).push limits done
  else disk.push limits done

def ran (disk : BatchedDisk S P D C) (task : DiskTask P D C) : BatchedDisk S P D C :=
  { disk with events := disk.events ++ [.ran task 0] }

def operated (disk : BatchedDisk S P D C) (task : DiskTask P D C) (result : Int × S) :
    BatchedDisk S P D C :=
  { disk with
    storage := result.2
    hasError := disk.hasError || result.1 ≠ 0
    events := disk.events ++ [.operated task] }

def perform (disk : BatchedDisk S P D C) (task : DiskTask P D C) :
    Option (BatchedDisk S P D C) :=
  match task with
  | .append _ => some (disk.ran task)
  | .lastLogId ticket =>
      if disk.lastId.index ≠ 0 ∧ disk.lastId.term = 0 then none
      else some ({ disk with answers := (ticket, disk.lastId) :: disk.answers }.ran task)
  | .truncatePrefix firstIndexKept =>
      some ((disk.operated task (ops.truncatePrefix firstIndexKept disk.storage)).ran task)
  | .truncateSuffix lastIndexKept lastTermKept =>
      let truncated := disk.operated task (ops.truncateSuffix lastIndexKept disk.storage)
      if (ops.truncateSuffix lastIndexKept disk.storage).1 = 0 then
        if lastIndexKept ≠ 0 ∧ lastTermKept = 0 then none
        else some ({ truncated with lastId := ⟨lastIndexKept, lastTermKept⟩ }.ran task)
      else some (truncated.ran task)
  | .reset nextLogIndex =>
      some ((disk.operated task (ops.reset nextLogIndex disk.storage)).ran task)

def iterate (disk : BatchedDisk S P D C) (task : DiskTask P D C) :
    Option (BatchedDisk S P D C) :=
  match task with
  | .append done =>
      if done.entries.isEmpty then (disk.flush ops).perform ops task
      else some (disk.append limits ops done)
  | _ => (disk.flush ops).perform ops task

def diskThread (tasks : List (DiskTask P D C)) (disk : BatchedDisk S P D C) :
    Option (BatchedDisk S P D C) :=
  (tasks.foldlM (iterate limits ops) disk).map (flush ops)

def alone (disk : BatchedDisk S P D C) (task : DiskTask P D C) :
    Option (BatchedDisk S P D C) :=
  (disk.iterate limits ops task).map (flush ops)

def oneByOne (tasks : List (DiskTask P D C)) (disk : BatchedDisk S P D C) :
    Option (BatchedDisk S P D C) :=
  tasks.foldlM (alone limits ops) disk

def outcome {K : Type} (content : S → K) (disk : BatchedDisk S P D C) :
    K × Bool × LogId × List (Nat × LogId) :=
  (content disk.storage, disk.hasError, disk.lastId, disk.answers)

def results (events : List (DiskEvent P D C)) : List (DiskTask P D C × Int) :=
  events.filterMap (fun event =>
    match event with
    | .ran task status => some (task, status)
    | _ => none)

def requested : DiskTask P D C → List (LogEntry P D ⊕ DiskTask P D C)
  | .append done => done.entries.map Sum.inl
  | .lastLogId _ => []
  | task => [.inr task]

def performed (events : List (DiskEvent P D C)) : List (LogEntry P D ⊕ DiskTask P D C) :=
  events.flatMap (fun event =>
    match event with
    | .appended batch => batch.flatMap (fun done => done.entries.map Sum.inl)
    | .operated task => [.inr task]
    | .ran _ _ => [])

/-- A closure is run when the storage has been called with its entries, or with an error. -/
def Handed (earlier : List (DiskEvent P D C)) : DiskEvent P D C → Prop
  | .ran (.append done) status =>
      done.entries = [] ∨ status = EIO ∨ ∃ batch, .appended batch ∈ earlier ∧ done ∈ batch
  | _ => True

def HandedFirst : List (DiskEvent P D C) → List (DiskEvent P D C) → Prop
  | _, [] => True
  | earlier, event :: later => Handed earlier event ∧ HandedFirst (earlier ++ [event]) later

section Batching

variable {K : Type} (content : S → K)

def Agree {R : Type} (first second : R × S) : Prop :=
  first.1 = second.1 ∧ content first.2 = content second.2

/-- What is in the storage decides how a call goes, and entries are appended one after another
up to the first one that fails. -/
structure EntryByEntry : Prop where
  appendEntries : ∀ entries first second, content first = content second →
    Agree content (ops.appendEntries entries first) (ops.appendEntries entries second)
  truncatePrefix : ∀ index first second, content first = content second →
    Agree content (ops.truncatePrefix index first) (ops.truncatePrefix index second)
  truncateSuffix : ∀ index first second, content first = content second →
    Agree content (ops.truncateSuffix index first) (ops.truncateSuffix index second)
  reset : ∀ index first second, content first = content second →
    Agree content (ops.reset index first) (ops.reset index second)
  appended_le : ∀ entries storage, (ops.appendEntries entries storage).1 ≤ entries.length
  goesOn : ∀ first second storage, (ops.appendEntries first storage).1 = first.length →
    Agree content (ops.appendEntries (first ++ second) storage)
      (first.length + (ops.appendEntries second (ops.appendEntries first storage).2).1,
        (ops.appendEntries second (ops.appendEntries first storage).2).2)
  stops : ∀ first second storage, (ops.appendEntries first storage).1 ≠ first.length →
    Agree content (ops.appendEntries (first ++ second) storage) (ops.appendEntries first storage)

variable {limits ops content} {disk first second : BatchedDisk S P D C}
variable {done : StableClosure P D C} {task : DiskTask P D C}

/-! ### A flush -/

structure Emptied (disk : BatchedDisk S P D C) : Prop where
  batch : disk.batch = []
  toAppend : disk.toAppend = []

def Packed (disk : BatchedDisk S P D C) : Prop :=
  disk.toAppend = disk.batch.flatMap StableClosure.entries

theorem Packed.push (packed : Packed disk) : Packed (disk.push limits done) := by
  unfold Packed BatchedDisk.push
  rw [List.flatMap_append, List.flatMap_singleton, show disk.toAppend = _ from packed]

theorem Emptied.packed (emptied : Emptied disk) : Packed disk := by
  unfold Packed
  rw [emptied.toAppend, emptied.batch]
  rfl

theorem flush_none (none : disk.batch = []) : disk.flush ops = { disk with bufferSize := 0 } := by
  unfold flush
  rw [none]
  rfl

theorem flush_some (some : disk.batch ≠ []) :
    disk.flush ops =
      { disk.appendToStorage ops with
        batch := []
        bufferSize := 0
        events := (disk.appendToStorage ops).events ++ disk.batch.map (fun done =>
          .ran (.append done) (if (disk.appendToStorage ops).hasError then EIO else 0)) } := by
  unfold flush
  rw [if_neg (by simpa using some)]

theorem appendToStorage_toAppend : (disk.appendToStorage ops).toAppend = [] := by
  unfold appendToStorage
  split <;> rfl

theorem appendToStorage_error (failed : disk.hasError = true) :
    disk.appendToStorage ops = { disk with toAppend := [] } := by
  unfold appendToStorage
  rw [if_pos failed]

theorem appendToStorage_works (works : disk.hasError = false) :
    disk.appendToStorage ops =
      { disk with
        storage := (ops.appendEntries disk.toAppend disk.storage).2
        hasError := (ops.appendEntries disk.toAppend disk.storage).1 ≠ disk.toAppend.length
        lastId := lastWritten disk.toAppend (ops.appendEntries disk.toAppend disk.storage).1
          disk.lastId
        toAppend := []
        events := disk.events ++ [.appended disk.batch] } := by
  unfold appendToStorage
  rw [if_neg (by simp [works])]

theorem Packed.flush (packed : Packed disk) : Emptied (disk.flush ops) := by
  by_cases none : disk.batch = []
  · rw [flush_none none]
    refine ⟨none, ?_⟩
    change disk.toAppend = []
    rw [show disk.toAppend = _ from packed, none]
    rfl
  · rw [flush_some none]
    exact ⟨rfl, appendToStorage_toAppend⟩

theorem outcome_flush_none (none : disk.batch = []) :
    outcome content (disk.flush ops) = outcome content disk := by
  rw [flush_none none]
  rfl

theorem outcome_flush_some (some : disk.batch ≠ []) :
    outcome content (disk.flush ops) = outcome content (disk.appendToStorage ops) := by
  rw [flush_some some]
  rfl

theorem outcome_flush_error (failed : disk.hasError = true) :
    outcome content (disk.flush ops) = outcome content disk := by
  by_cases none : disk.batch = []
  · exact outcome_flush_none none
  · rw [outcome_flush_some none, appendToStorage_error failed]
    rfl

theorem flush_hasError (failed : disk.hasError = true) : (disk.flush ops).hasError = true := by
  by_cases none : disk.batch = []
  · rw [flush_none none]
    exact failed
  · rw [flush_some none, appendToStorage_error failed]
    exact failed

theorem lastWritten_append_le {first second : List (LogEntry P D)} {appended : Nat}
    (within : appended ≤ first.length) (lastId : LogId) :
    lastWritten (first ++ second) appended lastId = lastWritten first appended lastId := by
  unfold lastWritten
  rw [List.take_append_of_le_length within]

theorem lastWritten_append (first second : List (LogEntry P D)) (appended : Nat)
    (lastId : LogId) :
    lastWritten (first ++ second) (first.length + appended) lastId =
      lastWritten second appended (lastWritten first first.length lastId) := by
  unfold lastWritten
  rw [List.take_length_add_append, List.take_length, List.getLast?_append]
  cases (second.take appended).getLast? with
  | none => rfl
  | some last => rfl

theorem push_batch : (disk.push limits done).batch ≠ [] := by
  unfold BatchedDisk.push
  exact List.append_ne_nil_of_right_ne_nil _ (List.cons_ne_nil _ _)

theorem outcome_flush_push (works : disk.hasError = false) :
    outcome content ((disk.push limits done).flush ops) =
      (content (ops.appendEntries (disk.toAppend ++ done.entries) disk.storage).2,
        decide ((ops.appendEntries (disk.toAppend ++ done.entries) disk.storage).1 ≠
          (disk.toAppend ++ done.entries).length),
        lastWritten (disk.toAppend ++ done.entries)
          (ops.appendEntries (disk.toAppend ++ done.entries) disk.storage).1 disk.lastId,
        disk.answers) := by
  have pushed : (disk.push limits done).hasError = false := works
  rw [outcome_flush_some push_batch, appendToStorage_works pushed]
  rfl

theorem outcome_flush_push_error (failed : disk.hasError = true) :
    outcome content ((disk.push limits done).flush ops) = outcome content disk := by
  have pushed : (disk.push limits done).hasError = true := failed
  rw [outcome_flush_error pushed]
  rfl

theorem flush_push (laws : EntryByEntry ops content) (packed : Packed disk) :
    outcome content (((disk.flush ops).push limits done).flush ops) =
      outcome content ((disk.push limits done).flush ops) := by
  by_cases failed : disk.hasError = true
  · rw [outcome_flush_push_error (flush_hasError failed), outcome_flush_error failed,
      outcome_flush_push_error failed]
  have works : disk.hasError = false := by simpa using failed
  by_cases none : disk.batch = []
  · have flushed : (disk.flush ops).hasError = false := by
      rw [flush_none none]
      exact works
    rw [outcome_flush_push flushed, outcome_flush_push works, flush_none none]
  have emptied : Emptied (disk.flush ops) := packed.flush
  have written : disk.appendToStorage ops = _ := appendToStorage_works works
  by_cases complete : (ops.appendEntries disk.toAppend disk.storage).1 = disk.toAppend.length
  · obtain ⟨count, left⟩ := laws.goesOn disk.toAppend done.entries disk.storage complete
    have flushed : (disk.flush ops).hasError = false := by
      rw [flush_some none, written]
      simpa using complete
    rw [outcome_flush_push flushed, outcome_flush_push works, emptied.toAppend, List.nil_append,
      count, left, lastWritten_append, flush_some none, written, complete]
    simp only [List.length_append, ne_eq, Nat.add_left_cancel_iff]
  · obtain ⟨count, left⟩ := laws.stops disk.toAppend done.entries disk.storage complete
    have short := laws.appended_le disk.toAppend disk.storage
    have flushed : (disk.flush ops).hasError = true := by
      rw [flush_some none, written]
      simpa using complete
    have missing : (ops.appendEntries disk.toAppend disk.storage).1 ≠
        (disk.toAppend ++ done.entries).length := by
      rw [List.length_append]
      omega
    rw [outcome_flush_push_error flushed, outcome_flush_push works, count, left,
      lastWritten_append_le short, outcome_flush_some none, written]
    unfold outcome
    simp only [complete, missing, ne_eq, not_false_eq_true]

/-! ### The same outcome -/

structure Alike (content : S → K) (first second : BatchedDisk S P D C) : Prop where
  leaves : first.outcome content = second.outcome content
  first : Emptied first
  second : Emptied second

theorem Alike.content_eq (alike : Alike content first second) :
    content first.storage = content second.storage :=
  congrArg (fun left => left.1) alike.leaves

theorem Alike.hasError_eq (alike : Alike content first second) :
    first.hasError = second.hasError :=
  congrArg (fun left => left.2.1) alike.leaves

theorem Alike.lastId_eq (alike : Alike content first second) : first.lastId = second.lastId :=
  congrArg (fun left => left.2.2.1) alike.leaves

theorem Alike.answers_eq (alike : Alike content first second) :
    first.answers = second.answers :=
  congrArg (fun left => left.2.2.2) alike.leaves

theorem Alike.flush (alike : Alike content first second) :
    Alike content (first.flush ops) (second.flush ops) := by
  refine ⟨?_, alike.first.packed.flush, alike.second.packed.flush⟩
  rw [outcome_flush_none alike.first.batch, outcome_flush_none alike.second.batch]
  exact alike.leaves

theorem Alike.flush_push (laws : EntryByEntry ops content) (alike : Alike content first second) :
    outcome content ((first.push limits done).flush ops) =
      outcome content ((second.push limits done).flush ops) := by
  by_cases failed : first.hasError = true
  · rw [outcome_flush_push_error failed,
      outcome_flush_push_error (alike.hasError_eq ▸ failed)]
    exact alike.leaves
  have works : first.hasError = false := by simpa using failed
  have agree := laws.appendEntries done.entries first.storage second.storage alike.content_eq
  rw [outcome_flush_push works, outcome_flush_push (alike.hasError_eq ▸ works),
    alike.first.toAppend, alike.second.toAppend, List.nil_append, agree.1, agree.2,
    alike.lastId_eq, alike.answers_eq]

theorem outcome_flush_append (laws : EntryByEntry ops content) (packed : Packed disk) :
    outcome content ((disk.append limits ops done).flush ops) =
      outcome content (((disk.flush ops).push limits done).flush ops) := by
  unfold BatchedDisk.append
  split
  · rfl
  · exact (BatchedDisk.flush_push laws packed).symm

theorem Packed.append (packed : Packed disk) : Packed (disk.append limits ops done) := by
  unfold BatchedDisk.append
  split
  · exact packed.flush.packed.push
  · exact packed.push

theorem Alike.operated (alike : Alike content first second) (task : DiskTask P D C)
    {one other : Int × S} (agree : Agree content one other) :
    Alike content ((first.operated task one).ran task) ((second.operated task other).ran task) := by
  refine ⟨?_, ⟨alike.first.batch, alike.first.toAppend⟩,
    ⟨alike.second.batch, alike.second.toAppend⟩⟩
  unfold BatchedDisk.operated BatchedDisk.ran BatchedDisk.outcome
  simp only [alike.hasError_eq, alike.lastId_eq, alike.answers_eq, agree.1, agree.2]

def BothAlike (content : S → K) :
    Option (BatchedDisk S P D C) → Option (BatchedDisk S P D C) → Prop
  | some first, some second => Alike content first second
  | none, none => True
  | _, _ => False

theorem Alike.perform (laws : EntryByEntry ops content) (alike : Alike content first second)
    (task : DiskTask P D C) :
    BothAlike content (first.perform ops task) (second.perform ops task) := by
  have same := alike.content_eq
  cases task with
  | append done =>
      exact ⟨alike.leaves, ⟨alike.first.batch, alike.first.toAppend⟩,
        ⟨alike.second.batch, alike.second.toAppend⟩⟩
  | lastLogId ticket =>
      unfold BatchedDisk.perform
      rw [alike.lastId_eq]
      by_cases fails : second.lastId.index ≠ 0 ∧ second.lastId.term = 0
      · simp only [if_pos fails]
        trivial
      · simp only [if_neg fails]
        refine ⟨?_, ⟨alike.first.batch, alike.first.toAppend⟩,
          ⟨alike.second.batch, alike.second.toAppend⟩⟩
        unfold BatchedDisk.ran BatchedDisk.outcome
        simp only [same, alike.hasError_eq, alike.answers_eq]
  | truncatePrefix firstIndexKept =>
      exact alike.operated _ (laws.truncatePrefix firstIndexKept _ _ same)
  | truncateSuffix lastIndexKept lastTermKept =>
      have agree := laws.truncateSuffix lastIndexKept _ _ same
      unfold BatchedDisk.perform
      simp only [agree.1]
      by_cases works : (ops.truncateSuffix lastIndexKept second.storage).1 = 0
      · simp only [if_pos works]
        by_cases fails : lastIndexKept ≠ 0 ∧ lastTermKept = 0
        · simp only [if_pos fails]
          trivial
        · simp only [if_neg fails]
          refine ⟨?_, ⟨alike.first.batch, alike.first.toAppend⟩,
            ⟨alike.second.batch, alike.second.toAppend⟩⟩
          unfold BatchedDisk.operated BatchedDisk.ran BatchedDisk.outcome
          simp only [agree.1, agree.2, alike.hasError_eq, alike.answers_eq]
      · simp only [if_neg works]
        exact alike.operated _ agree
  | reset nextLogIndex => exact alike.operated _ (laws.reset nextLogIndex _ _ same)

theorem iterate_cases (limits : BatchLimits D) (ops : DiskOperations S P D)
    (task : DiskTask P D C) :
    (∃ done, task = .append done ∧ done.entries ≠ [] ∧
      ∀ disk : BatchedDisk S P D C,
        disk.iterate limits ops task = some (disk.append limits ops done)) ∨
      ((∀ done, task = .append done → done.entries = []) ∧
        ∀ disk : BatchedDisk S P D C,
          disk.iterate limits ops task = (disk.flush ops).perform ops task) := by
  cases task with
  | append done =>
      by_cases empty : done.entries = []
      · refine Or.inr ⟨?_, fun disk => ?_⟩
        · intro other same
          cases same
          exact empty
        · unfold BatchedDisk.iterate
          simp only [empty, List.isEmpty_nil, if_true]
      · refine Or.inl ⟨done, rfl, empty, fun disk => ?_⟩
        unfold BatchedDisk.iterate
        simp only [List.isEmpty_iff, empty, if_false]
  | lastLogId ticket => exact Or.inr ⟨fun _ same => (by cases same), fun _ => rfl⟩
  | truncatePrefix firstIndexKept => exact Or.inr ⟨fun _ same => (by cases same), fun _ => rfl⟩
  | truncateSuffix lastIndexKept lastTermKept =>
      exact Or.inr ⟨fun _ same => (by cases same), fun _ => rfl⟩
  | reset nextLogIndex => exact Or.inr ⟨fun _ same => (by cases same), fun _ => rfl⟩

theorem Alike.flush_right (alike : Alike content first second) :
    Alike content first (second.flush ops) := by
  refine ⟨?_, alike.first, alike.second.packed.flush⟩
  rw [outcome_flush_none alike.second.batch]
  exact alike.leaves

theorem batches_alike (laws : EntryByEntry ops content) (tasks : List (DiskTask P D C)) :
    ∀ {disk other : BatchedDisk S P D C}, Packed disk → Alike content (disk.flush ops) other →
      BothAlike content (disk.diskThread limits ops tasks) (other.oneByOne limits ops tasks) := by
  induction tasks with
  | nil =>
      intro disk other _ alike
      exact alike
  | cons task rest ih =>
      intro disk other packed alike
      unfold BatchedDisk.diskThread BatchedDisk.oneByOne
      rw [List.foldlM_cons, List.foldlM_cons]
      rcases iterate_cases limits ops task with ⟨done, rfl, _, rounds⟩ | ⟨_, rounds⟩
      · have next : Alike content ((disk.append limits ops done).flush ops)
            ((other.append limits ops done).flush ops) := by
          refine ⟨?_, packed.append.flush, alike.second.packed.append.flush⟩
          rw [outcome_flush_append laws packed, outcome_flush_append laws alike.second.packed]
          exact (alike.flush_right).flush_push laws
        have single : other.alone limits ops (.append done) =
            some ((other.append limits ops done).flush ops) := by
          unfold BatchedDisk.alone
          rw [rounds]
          rfl
        rw [rounds, single]
        exact ih packed.append next
      · have flushed : Alike content (disk.flush ops) (other.flush ops) := alike.flush_right
        have both := flushed.perform laws task
        have single : other.alone limits ops task =
            ((other.flush ops).perform ops task).map (BatchedDisk.flush ops) := by
          unfold BatchedDisk.alone
          rw [rounds]
        rw [rounds, single]
        revert both
        cases (disk.flush ops).perform ops task with
        | none =>
            cases (other.flush ops).perform ops task with
            | none => exact fun _ => trivial
            | some after => exact fun both => absurd both id
        | some after =>
            cases (other.flush ops).perform ops task with
            | none => exact fun both => absurd both id
            | some left =>
                intro both
                exact ih both.first.packed both.flush

/-! ### What happened -/

def expected (began : Bool) : DiskTask P D C → Int
  | .append done => if done.entries.isEmpty then 0 else if began then EIO else 0
  | _ => 0

structure Traced (began : Bool) (tasks : List (DiskTask P D C)) (disk : BatchedDisk S P D C) :
    Prop where
  stays : began = true → disk.hasError = true
  filled : ∀ done ∈ disk.batch, done.entries ≠ []
  order : (results disk.events).map Prod.fst ++ disk.batch.map DiskTask.append = tasks
  statuses : disk.hasError = began →
    results disk.events ++ disk.batch.map (fun done =>
      (DiskTask.append done, if began then EIO else 0)) =
      tasks.map (fun task => (task, expected began task))
  called : List.Sublist
    (performed disk.events ++ disk.batch.flatMap (fun done => done.entries.map Sum.inl))
    (tasks.flatMap requested)
  complete : disk.hasError = false →
    performed disk.events ++ disk.batch.flatMap (fun done => done.entries.map Sum.inl) =
      tasks.flatMap requested
  handed : HandedFirst [] disk.events

variable {began : Bool} {tasks : List (DiskTask P D C)} {after : BatchedDisk S P D C}

theorem results_append (first second : List (DiskEvent P D C)) :
    results (first ++ second) = results first ++ results second := List.filterMap_append

theorem performed_append (first second : List (DiskEvent P D C)) :
    performed (first ++ second) = performed first ++ performed second := List.flatMap_append

theorem results_map (batch : List (StableClosure P D C)) (status : Int) :
    results (batch.map (fun done => DiskEvent.ran (.append done) status)) =
      batch.map (fun done => (DiskTask.append done, status)) := by
  induction batch with
  | nil => rfl
  | cons done rest ih => exact congrArg (List.cons (DiskTask.append done, status)) ih

theorem performed_map (batch : List (StableClosure P D C)) (status : Int) :
    performed (batch.map (fun done => DiskEvent.ran (.append done) status)) = [] := by
  induction batch with
  | nil => rfl
  | cons done rest ih => exact ih

theorem handedFirst_append (first second : List (DiskEvent P D C)) :
    ∀ earlier, HandedFirst earlier (first ++ second) ↔
      HandedFirst earlier first ∧ HandedFirst (earlier ++ first) second := by
  induction first with
  | nil =>
      intro earlier
      simp only [List.nil_append, List.append_nil, HandedFirst, true_and]
  | cons event rest ih =>
      intro earlier
      have same : earlier ++ event :: rest = earlier ++ [event] ++ rest := by
        rw [List.append_assoc, List.singleton_append]
      rw [List.cons_append, HandedFirst, HandedFirst, ih (earlier ++ [event]), and_assoc, same]

theorem handedFirst_map {batch : List (StableClosure P D C)} {status : Int} :
    ∀ {earlier : List (DiskEvent P D C)},
      (∀ done ∈ batch, status = EIO ∨ ∃ handed, .appended handed ∈ earlier ∧ done ∈ handed) →
      HandedFirst earlier (batch.map (fun done => DiskEvent.ran (.append done) status)) := by
  induction batch with
  | nil => exact fun _ => trivial
  | cons done rest ih =>
      intro earlier handed
      refine ⟨Or.inr (handed done List.mem_cons_self), ih (fun other member => ?_)⟩
      refine (handed other (List.mem_cons_of_mem _ member)).imp_right ?_
      rintro ⟨batch, isBatch, inside⟩
      exact ⟨batch, List.mem_append_left _ isBatch, inside⟩

theorem Traced.flush (traced : Traced began tasks disk) :
    Traced began tasks (disk.flush ops) := by
  obtain ⟨stays, filled, order, statuses, called, complete, handed⟩ := traced
  by_cases none : disk.batch = []
  · rw [flush_none none]
    exact ⟨stays, filled, order, statuses, called, complete, handed⟩
  rw [flush_some none]
  by_cases failed : disk.hasError = true
  · have isEvents : (disk.appendToStorage ops).events = disk.events := by
      rw [appendToStorage_error failed]
    have isError : (disk.appendToStorage ops).hasError = true := by
      rw [appendToStorage_error failed]
      exact failed
    simp only [isEvents, isError, if_true]
    refine ⟨fun _ => rfl, fun _ member => absurd member List.not_mem_nil, ?_, ?_, ?_, ?_, ?_⟩
    · rw [results_append, results_map, List.map_append, List.map_map, List.map_nil,
        List.append_nil]
      exact order
    · intro same
      have isBegan : began = true := same.symm
      have before := statuses (failed.trans isBegan.symm)
      rw [isBegan] at before ⊢
      rw [results_append, results_map, List.map_nil, List.append_nil]
      exact before
    · rw [performed_append, performed_map, List.append_nil, List.flatMap_nil, List.append_nil]
      exact (List.sublist_append_left _ _).trans called
    · intro works
      contradiction
    · exact (handedFirst_append _ _ _).mpr ⟨handed, handedFirst_map (fun _ _ => Or.inl rfl)⟩
  · have works : disk.hasError = false := by simpa using failed
    have isEvents : (disk.appendToStorage ops).events = disk.events ++ [.appended disk.batch] := by
      rw [appendToStorage_works works]
    have isBegan : began = false := by
      cases began with
      | false => rfl
      | true => exact absurd (stays rfl) failed
    have calls : performed (disk.events ++ [.appended disk.batch]) =
        performed disk.events ++ disk.batch.flatMap (fun done => done.entries.map Sum.inl) := by
      rw [performed_append]
      exact congrArg _ (List.flatMap_singleton _ _)
    simp only [isEvents]
    refine ⟨?_, fun _ member => absurd member List.not_mem_nil, ?_, ?_, ?_, ?_, ?_⟩
    · intro same
      rw [isBegan] at same
      contradiction
    · rw [results_append, results_map, results_append, List.map_append, List.map_append,
        List.map_map, List.map_nil, List.append_nil]
      simp only [results, List.filterMap_cons_none, List.filterMap_nil, List.map_nil,
        List.append_nil]
      exact order
    · intro same
      have before := statuses (works.trans isBegan.symm)
      rw [results_append, results_map, results_append, List.map_nil, List.append_nil]
      simp only [show (disk.appendToStorage ops).hasError = began from same]
      simp only [results, List.filterMap_cons_none, List.filterMap_nil, List.append_nil] at before ⊢
      exact before
    · rw [performed_append, performed_map, calls, List.append_nil, List.flatMap_nil,
        List.append_nil]
      exact called
    · intro _
      rw [performed_append, performed_map, calls, List.append_nil, List.flatMap_nil,
        List.append_nil]
      exact complete works
    · refine (handedFirst_append _ _ _).mpr
        ⟨(handedFirst_append _ _ _).mpr ⟨handed, trivial, trivial⟩, ?_⟩
      refine handedFirst_map (fun done member => Or.inr ⟨disk.batch, ?_, member⟩)
      exact List.mem_append_right _ (List.mem_append_right _ (List.mem_singleton_self _))

theorem Traced.push (traced : Traced began tasks disk) (hasEntries : done.entries ≠ []) :
    Traced began (tasks ++ [.append done]) (disk.push limits done) := by
  have joined : performed disk.events ++ (disk.batch ++ [done]).flatMap (fun done =>
      done.entries.map Sum.inl) =
      performed disk.events ++ disk.batch.flatMap (fun done => done.entries.map Sum.inl) ++
        requested (DiskTask.append done) := by
    rw [List.flatMap_append, List.flatMap_singleton, List.append_assoc]
    rfl
  have asked : (tasks ++ [DiskTask.append done]).flatMap requested =
      tasks.flatMap requested ++ requested (DiskTask.append done) := by
    rw [List.flatMap_append, List.flatMap_singleton]
  constructor
  · exact traced.stays
  · intro other member
    rcases List.mem_append.mp member with earlier | last
    · exact traced.filled other earlier
    · rw [List.mem_singleton.mp last]
      exact hasEntries
  · change _ ++ (disk.batch ++ [done]).map DiskTask.append = _
    rw [List.map_append, ← List.append_assoc]
    exact congrArg (· ++ [DiskTask.append done]) traced.order
  · intro same
    have before := traced.statuses same
    have status : expected began (DiskTask.append done) = if began then EIO else 0 := by
      unfold expected
      simp only [List.isEmpty_iff, hasEntries, if_false]
    change results disk.events ++ (disk.batch ++ [done]).map _ = _
    rw [List.map_append, ← List.append_assoc, before, List.map_append, List.map_singleton,
      List.map_singleton, status]
  · change List.Sublist (performed disk.events ++ (disk.batch ++ [done]).flatMap _) _
    rw [joined, asked]
    exact traced.called.append (List.Sublist.refl _)
  · intro works
    change performed disk.events ++ (disk.batch ++ [done]).flatMap _ = _
    rw [joined, asked, traced.complete works]
  · exact traced.handed

theorem Traced.append (traced : Traced began tasks disk) (hasEntries : done.entries ≠ []) :
    Traced began (tasks ++ [.append done]) (disk.append limits ops done) := by
  unfold BatchedDisk.append
  split
  · exact traced.flush.push hasEntries
  · exact traced.push hasEntries

structure Performs (task : DiskTask P D C) (disk after : BatchedDisk S P D C) : Prop where
  block : ∃ block, after.events = disk.events ++ block ∧ results block = [(task, 0)] ∧
    performed block = requested task ∧ ∀ earlier, HandedFirst earlier block
  batch : after.batch = disk.batch
  toAppend : after.toAppend = disk.toAppend
  stays : disk.hasError = true → after.hasError = true

theorem performs_operated (result : Int × S) (asks : requested task = [.inr task])
    (notAppend : ∀ done, task ≠ .append done) :
    Performs task disk ((disk.operated task result).ran task) := by
  refine ⟨⟨[.operated task, .ran task 0], List.append_assoc _ _ _, rfl, asks.symm, ?_⟩,
    rfl, rfl, ?_⟩
  · intro earlier
    refine ⟨trivial, ?_, trivial⟩
    cases task with
    | append done => exact absurd rfl (notAppend done)
    | lastLogId ticket => trivial
    | truncatePrefix firstIndexKept => trivial
    | truncateSuffix lastIndexKept lastTermKept => trivial
    | reset nextLogIndex => trivial
  · intro failed
    change (disk.hasError || _) = true
    rw [failed, Bool.true_or]

theorem performs_perform (quiet : ∀ done, task = .append done → done.entries = [])
    (performed : disk.perform ops task = some after) : Performs task disk after := by
  cases task with
  | append done =>
      obtain rfl := Option.some.inj performed
      have none := quiet done rfl
      refine ⟨⟨[.ran (.append done) 0], rfl, rfl, ?_, fun _ => ⟨Or.inl none, trivial⟩⟩,
        rfl, rfl, id⟩
      simp only [requested, none, List.map_nil]
      rfl
  | lastLogId ticket =>
      unfold perform at performed
      simp only at performed
      split at performed
      · contradiction
      · obtain rfl := Option.some.inj performed
        exact ⟨⟨[.ran (.lastLogId ticket) 0], rfl, rfl, rfl, fun _ => ⟨trivial, trivial⟩⟩,
          rfl, rfl, id⟩
  | truncatePrefix firstIndexKept =>
      obtain rfl := Option.some.inj performed
      exact performs_operated _ rfl (fun _ same => (by cases same))
  | truncateSuffix lastIndexKept lastTermKept =>
      have plain : Performs (.truncateSuffix lastIndexKept lastTermKept) disk
          ((disk.operated (.truncateSuffix lastIndexKept lastTermKept)
            (ops.truncateSuffix lastIndexKept disk.storage)).ran
              (.truncateSuffix lastIndexKept lastTermKept)) :=
        performs_operated _ rfl (fun _ same => (by cases same))
      unfold perform at performed
      simp only at performed
      split at performed
      · split at performed
        · contradiction
        · obtain rfl := Option.some.inj performed
          exact ⟨plain.block, plain.batch, plain.toAppend, plain.stays⟩
      · obtain rfl := Option.some.inj performed
        exact plain
  | reset nextLogIndex =>
      obtain rfl := Option.some.inj performed
      exact performs_operated _ rfl (fun _ same => (by cases same))

theorem Traced.performs (traced : Traced began tasks disk) (noBatch : disk.batch = [])
    (quiet : ∀ done, task = .append done → done.entries = [])
    (performs : Performs task disk after) : Traced began (tasks ++ [task]) after := by
  obtain ⟨⟨block, isEvents, isResults, isPerformed, handed⟩, batch, _, stays⟩ := performs
  have none : after.batch = [] := batch.trans noBatch
  have order := traced.order
  have called := traced.called
  rw [noBatch, List.map_nil, List.append_nil] at order
  rw [noBatch, List.flatMap_nil, List.append_nil] at called
  have asked : (tasks ++ [task]).flatMap requested = tasks.flatMap requested ++ requested task := by
    rw [List.flatMap_append, List.flatMap_singleton]
  constructor
  · exact fun same => stays (traced.stays same)
  · rw [none]
    exact fun _ member => absurd member List.not_mem_nil
  · rw [none, isEvents, results_append, isResults, List.map_append, order]
    exact List.append_nil _
  · intro same
    have before : disk.hasError = began := by
      cases began with
      | true => exact traced.stays rfl
      | false =>
          by_contra failed
          have isError : disk.hasError = true := by simpa using failed
          rw [stays isError] at same
          contradiction
    have statuses := traced.statuses before
    have status : expected began task = 0 := by
      cases task with
      | append done =>
          simp only [expected, quiet done rfl, List.isEmpty_nil, if_true]
      | lastLogId ticket => rfl
      | truncatePrefix firstIndexKept => rfl
      | truncateSuffix lastIndexKept lastTermKept => rfl
      | reset nextLogIndex => rfl
    rw [noBatch, List.map_nil, List.append_nil] at statuses
    rw [none, List.map_nil, List.append_nil, isEvents, results_append, isResults, statuses,
      List.map_append, List.map_singleton, status]
  · rw [none, List.flatMap_nil, List.append_nil, isEvents, performed_append, isPerformed, asked]
    exact called.append (List.Sublist.refl _)
  · intro works
    have before : disk.hasError = false := by
      by_contra failed
      have isError : disk.hasError = true := by simpa using failed
      rw [stays isError] at works
      contradiction
    have complete := traced.complete before
    rw [noBatch, List.flatMap_nil, List.append_nil] at complete
    rw [none, List.flatMap_nil, List.append_nil, isEvents, performed_append, isPerformed, asked,
      complete]
  · rw [isEvents]
    exact (handedFirst_append _ _ _).mpr ⟨traced.handed, handed _⟩

theorem Traced.iterate (traced : Traced began tasks disk) (packed : Packed disk)
    (stepped : disk.iterate limits ops task = some after) :
    Traced began (tasks ++ [task]) after ∧ Packed after := by
  rcases iterate_cases limits ops task with ⟨done, rfl, hasEntries, rounds⟩ | ⟨quiet, rounds⟩
  · obtain rfl := Option.some.inj ((rounds disk).symm.trans stepped)
    exact ⟨traced.append hasEntries, packed.append⟩
  · rw [rounds] at stepped
    have emptied : Emptied (disk.flush ops) := packed.flush
    have performs := performs_perform quiet stepped
    refine ⟨traced.flush.performs emptied.batch quiet performs, Emptied.packed ⟨?_, ?_⟩⟩
    · exact performs.batch.trans emptied.batch
    · exact performs.toAppend.trans emptied.toAppend

theorem Traced.alone (traced : Traced began tasks disk) (packed : Packed disk)
    (stepped : disk.alone limits ops task = some after) :
    Traced began (tasks ++ [task]) after ∧ Packed after := by
  obtain ⟨middle, isMiddle, rfl⟩ := Option.map_eq_some_iff.mp stepped
  obtain ⟨next, packedNext⟩ := traced.iterate packed isMiddle
  exact ⟨next.flush, packedNext.flush.packed⟩

theorem traced_rounds (round : BatchedDisk S P D C → DiskTask P D C → Option (BatchedDisk S P D C))
    (kept : ∀ {tasks disk task after}, Traced began tasks disk → Packed disk →
      round disk task = some after → Traced began (tasks ++ [task]) after ∧ Packed after)
    (rest : List (DiskTask P D C)) :
    ∀ {tasks disk}, Traced began tasks disk → Packed disk → rest.foldlM round disk = some after →
      Traced began (tasks ++ rest) after ∧ Packed after := by
  induction rest with
  | nil =>
      intro tasks disk traced packed stepped
      obtain rfl := Option.some.inj stepped
      rw [List.append_nil]
      exact ⟨traced, packed⟩
  | cons task rest ih =>
      intro tasks disk traced packed stepped
      rw [List.foldlM_cons] at stepped
      obtain ⟨middle, isMiddle, goesOn⟩ := Option.bind_eq_some_iff.mp stepped
      obtain ⟨next, packedNext⟩ := kept traced packed isMiddle
      have same : tasks ++ task :: rest = tasks ++ [task] ++ rest := by
        rw [List.append_assoc, List.singleton_append]
      rw [same]
      exact ih next packedNext goesOn

def start (storage : S) (hasError : Bool) (lastId : LogId) : BatchedDisk S P D C :=
  { storage := storage, hasError := hasError, lastId := lastId }

variable {storage : S} {hasError : Bool} {lastId : LogId}

theorem start_traced :
    Traced hasError [] (start storage hasError lastId : BatchedDisk S P D C) :=
  ⟨id, fun _ member => absurd member List.not_mem_nil, rfl, fun _ => rfl, List.Sublist.refl _,
    fun _ => rfl, trivial⟩

theorem start_emptied : Emptied (start storage hasError lastId : BatchedDisk S P D C) :=
  ⟨rfl, rfl⟩

theorem diskThread_traced
    (runs : (start storage hasError lastId).diskThread limits ops tasks = some after) :
    Traced hasError tasks after ∧ Emptied after := by
  obtain ⟨middle, isMiddle, rfl⟩ := Option.map_eq_some_iff.mp runs
  obtain ⟨traced, packed⟩ :=
    traced_rounds _ Traced.iterate tasks start_traced start_emptied.packed isMiddle
  exact ⟨traced.flush, packed.flush⟩

theorem oneByOne_traced
    (runs : (start storage hasError lastId).oneByOne limits ops tasks = some after) :
    Traced hasError tasks after ∧ Packed after :=
  traced_rounds _ Traced.alone tasks start_traced start_emptied.packed runs

/-! ### No check fails -/

/-- What the checks of `last_id` ask for. -/
def HasTerm (id : LogId) : Prop := ¬ (id.index ≠ 0 ∧ id.term = 0)

def Termed : DiskTask P D C → Prop
  | .append done => ∀ entry ∈ done.entries, HasTerm entry.id
  | .truncateSuffix lastIndexKept lastTermKept => HasTerm ⟨lastIndexKept, lastTermKept⟩
  | _ => True

structure Sane (disk : BatchedDisk S P D C) : Prop where
  lastId : HasTerm disk.lastId
  toAppend : ∀ entry ∈ disk.toAppend, HasTerm entry.id

theorem hasTerm_lastWritten {toAppend : List (LogEntry P D)} {lastId : LogId}
    (terms : ∀ entry ∈ toAppend, HasTerm entry.id) (known : HasTerm lastId) (appended : Nat) :
    HasTerm (lastWritten toAppend appended lastId) := by
  unfold lastWritten
  cases isLast : (toAppend.take appended).getLast? with
  | none => exact known
  | some last => exact terms last (List.mem_of_mem_take (List.mem_of_getLast? isLast))

theorem Sane.flush (sane : Sane disk) : Sane (disk.flush ops) := by
  by_cases none : disk.batch = []
  · rw [flush_none none]
    exact ⟨sane.lastId, sane.toAppend⟩
  rw [flush_some none]
  by_cases failed : disk.hasError = true
  · rw [appendToStorage_error failed]
    exact ⟨sane.lastId, fun _ member => absurd member List.not_mem_nil⟩
  · rw [appendToStorage_works (by simpa using failed)]
    exact ⟨hasTerm_lastWritten sane.toAppend sane.lastId _,
      fun _ member => absurd member List.not_mem_nil⟩

theorem Sane.push (sane : Sane disk) (termed : Termed (DiskTask.append done)) :
    Sane (disk.push limits done) := by
  refine ⟨sane.lastId, fun entry member => ?_⟩
  rcases List.mem_append.mp member with earlier | last
  · exact sane.toAppend entry earlier
  · exact termed entry last

theorem Sane.append (sane : Sane disk) (termed : Termed (DiskTask.append done)) :
    Sane (disk.append limits ops done) := by
  unfold BatchedDisk.append
  split
  · exact sane.flush.push termed
  · exact sane.push termed

theorem Sane.perform (sane : Sane disk) (termed : Termed task) :
    ∃ after, disk.perform ops task = some after ∧ Sane after := by
  cases task with
  | append done => exact ⟨_, rfl, sane.lastId, sane.toAppend⟩
  | lastLogId ticket => exact ⟨_, if_neg sane.lastId, sane.lastId, sane.toAppend⟩
  | truncatePrefix firstIndexKept => exact ⟨_, rfl, sane.lastId, sane.toAppend⟩
  | truncateSuffix lastIndexKept lastTermKept =>
      unfold BatchedDisk.perform
      simp only
      by_cases works : (ops.truncateSuffix lastIndexKept disk.storage).1 = 0
      · rw [if_pos works, if_neg (show ¬ (lastIndexKept ≠ 0 ∧ lastTermKept = 0) from termed)]
        exact ⟨_, rfl, termed, sane.toAppend⟩
      · rw [if_neg works]
        exact ⟨_, rfl, sane.lastId, sane.toAppend⟩
  | reset nextLogIndex => exact ⟨_, rfl, sane.lastId, sane.toAppend⟩

theorem Sane.iterate (sane : Sane disk) (termed : Termed task) :
    ∃ after, disk.iterate limits ops task = some after ∧ Sane after := by
  rcases iterate_cases limits ops task with ⟨done, rfl, _, rounds⟩ | ⟨_, rounds⟩
  · exact ⟨_, rounds disk, sane.append termed⟩
  · rw [rounds]
    exact sane.flush.perform termed

theorem Sane.diskThread (tasks : List (DiskTask P D C)) :
    ∀ {disk : BatchedDisk S P D C}, Sane disk → (∀ task ∈ tasks, Termed task) →
      ∃ after, disk.diskThread limits ops tasks = some after := by
  induction tasks with
  | nil => exact fun _ _ => ⟨_, rfl⟩
  | cons task rest ih =>
      intro disk sane termed
      obtain ⟨middle, isMiddle, saneMiddle⟩ :
          ∃ middle, disk.iterate limits ops task = some middle ∧ Sane middle :=
        sane.iterate (termed task List.mem_cons_self)
      obtain ⟨after, isAfter⟩ :=
        ih saneMiddle (fun other member => termed other (List.mem_cons_of_mem _ member))
      refine ⟨after, ?_⟩
      unfold BatchedDisk.diskThread
      rw [List.foldlM_cons, isMiddle]
      exact isAfter

structure DiskOrder (limits : BatchLimits D) (ops : DiskOperations S P D) (content : S → K)
    (tasks : List (DiskTask P D C)) (disk : BatchedDisk S P D C) : Prop where
  returns : HasTerm disk.lastId → (∀ task ∈ tasks, Termed task) →
    ∃ after, disk.diskThread limits ops tasks = some after
  same : (disk.diskThread limits ops tasks).map (outcome content) =
    (disk.oneByOne limits ops tasks).map (outcome content)
  results : ∀ after single, disk.diskThread limits ops tasks = some after →
    disk.oneByOne limits ops tasks = some single → after.hasError = disk.hasError →
      results after.events = results single.events
  once : ∀ after, disk.diskThread limits ops tasks = some after →
    (BatchedDisk.results after.events).map Prod.fst = tasks
  called : ∀ after, disk.diskThread limits ops tasks = some after →
    List.Sublist (performed after.events) (tasks.flatMap requested) ∧
      (after.hasError = false → performed after.events = tasks.flatMap requested)
  handed : ∀ after, disk.diskThread limits ops tasks = some after → HandedFirst [] after.events

theorem BothAlike.map_eq {first second : Option (BatchedDisk S P D C)}
    (both : BothAlike content first second) :
    first.map (outcome content) = second.map (outcome content) := by
  cases first with
  | none =>
      cases second with
      | none => rfl
      | some second => exact absurd both id
  | some first =>
      cases second with
      | none => exact absurd both id
      | some second => exact congrArg some both.leaves

theorem Traced.results_eq (traced : Traced began tasks disk) (noBatch : disk.batch = [])
    (same : disk.hasError = began) :
    BatchedDisk.results disk.events = tasks.map (fun task => (task, expected began task)) := by
  have statuses := traced.statuses same
  rw [noBatch, List.map_nil, List.append_nil] at statuses
  exact statuses

end Batching

section Memory

variable {P D : Type}

def memoryOperations : DiskOperations (MemoryLogStorage P D) P D where
  appendEntries entries storage :=
    ((storage.appendEntries entries).1.toNat, (storage.appendEntries entries).2)
  truncatePrefix firstIndexKept storage := storage.truncatePrefix firstIndexKept
  truncateSuffix lastIndexKept storage := storage.truncateSuffix lastIndexKept
  reset nextLogIndex storage := storage.reset nextLogIndex

theorem appendLoop_append (first second : List (LogEntry P D)) :
    ∀ storage : MemoryLogStorage P D, MemoryLogStorage.appendLoop (first ++ second) storage =
      MemoryLogStorage.appendLoop second (MemoryLogStorage.appendLoop first storage) := by
  induction first with
  | nil => exact fun _ => rfl
  | cons entry rest ih => exact fun storage => ih (storage.appendEntry entry).2

theorem memoryOperations_append (entries : List (LogEntry P D)) (storage : MemoryLogStorage P D) :
    memoryOperations.appendEntries entries storage =
      (entries.length, MemoryLogStorage.appendLoop entries storage) := by
  cases entries with
  | nil => rfl
  | cons entry rest => rfl

theorem memoryOperations_entryByEntry :
    EntryByEntry (memoryOperations : DiskOperations (MemoryLogStorage P D) P D) id := by
  constructor
  · rintro entries first _ rfl
    exact ⟨rfl, rfl⟩
  · rintro index first _ rfl
    exact ⟨rfl, rfl⟩
  · rintro index first _ rfl
    exact ⟨rfl, rfl⟩
  · rintro index first _ rfl
    exact ⟨rfl, rfl⟩
  · intro entries storage
    rw [memoryOperations_append]
  · intro first second storage _
    simp only [memoryOperations_append, appendLoop_append, List.length_append]
    exact ⟨rfl, rfl⟩
  · intro first second storage stopped
    rw [memoryOperations_append] at stopped
    exact absurd rfl stopped

end Memory

def entryAt (index : Nat) : LogEntry Nat Unit :=
  { type := .data, id := ⟨index, 1⟩, data := () }

def closureOf (entries : List (LogEntry Nat Unit)) : StableClosure Nat Unit Nat :=
  .queued 0 entries entries

def cutQueue : List (DiskTask Nat Unit Nat) :=
  [.append (closureOf [entryAt 1]), .append (closureOf [entryAt 2, entryAt 3]),
    .truncateSuffix 2 1, .append (closureOf [entryAt 3]), .lastLogId 7]

def smallOperations : DiskOperations (List (LogEntry Nat Unit)) Nat Unit where
  appendEntries entries log :=
    ((entries.take (1 - log.length)).length, log ++ entries.take (1 - log.length))
  truncatePrefix _ log := (0, log)
  truncateSuffix _ log := (0, log)
  reset _ log := (0, log)

def fullQueue : List (DiskTask Nat Unit Nat) :=
  [.append (closureOf [entryAt 1, entryAt 2]), .truncatePrefix 1, .append (closureOf [entryAt 3])]

end BatchedDisk

end QuorumKit
