/-
What the storage of a log manager keeps while its operations take effect.

The first index of the storage goes ahead with the queued tasks, and what no pending task
takes stays in the storage, also after an error of `get_entry`.  As long as there is none,
the storage has the entries of a closure behind the applied id of its call when the
closure's turn comes.
-/

import QuorumKit.LogManager.GetEntryRace
import QuorumKit.LogManager.HeldClosures
import QuorumKit.LogManager.SnapshotWindow

namespace QuorumKit

variable {P D C : Type}

namespace DiskTask

def Cuts (task : DiskTask P D C) (index : Nat) : Prop :=
  match task with
  | .append _ => False
  | .lastLogId _ => False
  | .truncatePrefix firstIndexKept => index < firstIndexKept
  | .truncateSuffix lastIndexKept _ => lastIndexKept < index
  | .reset _ => True

instance (task : DiskTask P D C) (index : Nat) : Decidable (task.Cuts index) :=
  match task with
  | .append _ => inferInstanceAs (Decidable False)
  | .lastLogId _ => inferInstanceAs (Decidable False)
  | .truncatePrefix firstIndexKept => inferInstanceAs (Decidable (index < firstIndexKept))
  | .truncateSuffix lastIndexKept _ => inferInstanceAs (Decidable (lastIndexKept < index))
  | .reset _ => inferInstanceAs (Decidable True)

def firstAfter (task : DiskTask P D C) (first : Nat) : Nat :=
  match task with
  | .truncatePrefix firstIndexKept => firstIndexKept
  | .reset nextLogIndex => nextLogIndex
  | _ => first

def Ahead (task : DiskTask P D C) (first : Nat) : Prop := first ≤ task.firstAfter first

theorem apply_first (task : DiskTask P D C) (storage : LogStorage P D) :
    (task.apply storage).first = task.firstAfter storage.first := by
  cases task with
  | append done => rfl
  | lastLogId ticket => rfl
  | truncatePrefix firstIndexKept => rfl
  | truncateSuffix lastIndexKept lastTermKept => rfl
  | reset nextLogIndex => rfl

theorem apply_uncut {task : DiskTask P D C} {storage : LogStorage P D} {index : Nat}
    {entry : LogEntry P D} (ahead : task.Ahead storage.first) (uncut : ¬ task.Cuts index)
    (found : storage.getEntry index = some entry) :
    (task.apply storage).getEntry index = some entry := by
  cases task with
  | append done => exact IndexedLog.get?_append_kept done.entries found
  | lastLogId ticket => exact found
  | truncatePrefix firstIndexKept =>
      have kept : ¬ index < firstIndexKept := uncut
      have ahead : storage.first ≤ firstIndexKept := ahead
      rw [apply, LogStorage.truncatePrefix, LogStorage.getEntry, IndexedLog.get?_dropBelow ahead,
        if_neg kept]
      exact found
  | truncateSuffix lastIndexKept lastTermKept =>
      have kept : ¬ lastIndexKept < index := uncut
      rw [apply, LogStorage.truncateSuffix, LogStorage.getEntry, IndexedLog.get?_keepBelow,
        if_pos (by omega)]
      exact found
  | reset nextLogIndex => exact absurd trivial uncut

theorem apply_unbatched {task : DiskTask P D C} {storage : LogStorage P D}
    (notBatched : task.batched = false) (ahead : task.Ahead storage.first)
    (wellFormed : storage.WellFormed) : LogStorage.WellFormed (task.apply storage) := by
  cases task with
  | append done =>
      have empty : done.entries = [] := by simpa [DiskTask.batched] using notBatched
      rw [apply, empty, IndexedLog.append_nil]
      exact wellFormed
  | lastLogId ticket => exact wellFormed
  | truncatePrefix firstIndexKept => exact wellFormed.dropBelow ahead
  | truncateSuffix lastIndexKept lastTermKept => exact wellFormed.keepBelow _
  | reset nextLogIndex => exact .reset (lt_of_lt_of_le wellFormed.positive ahead)

end DiskTask

theorem first_le_of_drains {tasks : List (DiskTask P D C)} : ∀ {first final : Nat},
    Pending.Drains DiskTask.firstAfter DiskTask.Ahead first tasks final → first ≤ final := by
  induction tasks with
  | nil =>
      intro first final same
      exact le_of_eq same
  | cons task rest ih =>
      intro first final drains
      exact drains.1.trans (ih drains.2)

theorem drains_of_batch {rest : List (DiskTask P D C)} {final : Nat}
    (batch : List (StableClosure P D C)) : ∀ {first : Nat},
    Pending.Drains DiskTask.firstAfter DiskTask.Ahead first (batch.map DiskTask.append ++ rest)
      final →
    Pending.Drains DiskTask.firstAfter DiskTask.Ahead first rest final := by
  induction batch with
  | nil => exact fun drains => drains
  | cons done batch ih => exact fun drains => ih drains.2

def Stored (storage : LogStorage P D) (done : StableClosure P D LogId) : Prop :=
  ∀ entry ∈ done.submitted, done.context.index < entry.id.index →
    storage.getEntry entry.id.index = some entry

theorem Stored.append {storage : LogStorage P D} {done : StableClosure P D LogId}
    (stored : Stored storage done) (entries : List (LogEntry P D)) :
    Stored (storage.append entries) done := by
  intro entry member behind
  exact IndexedLog.get?_append_kept entries (stored entry member behind)

def DiskTask.Stores (task : DiskTask P D LogId) (storage : LogStorage P D) : Prop :=
  match task with
  | .append done => Stored storage done
  | _ => True

theorem stored_of_batch {rest : List (DiskTask P D LogId)}
    (batch : List (StableClosure P D LogId)) : ∀ {storage : LogStorage P D},
    Pending.Ensures DiskTask.apply DiskTask.Stores storage
      (batch.map DiskTask.append ++ rest) →
    Pending.Ensures DiskTask.apply DiskTask.Stores
        (storage.append (batch.flatMap StableClosure.entries)) rest ∧
      ∀ done ∈ batch, Stored (storage.append (batch.flatMap StableClosure.entries)) done := by
  induction batch with
  | nil =>
      intro storage ensures
      rw [List.flatMap_nil, IndexedLog.append_nil]
      exact ⟨ensures, fun _ member => absurd member List.not_mem_nil⟩
  | cons head batch ih =>
      intro storage ensures
      have wanted : Stored (storage.append head.entries) head := ensures.1
      obtain ⟨later, stored⟩ := ih ensures.2
      rw [DiskTask.apply, IndexedLog.append_append] at later stored
      rw [List.flatMap_cons]
      refine ⟨later, ?_⟩
      intro done member
      rcases List.mem_cons.mp member with isHead | inBatch
      · rw [isHead, ← IndexedLog.append_append]
        exact wanted.append _
      · exact stored done inBatch

namespace LogManager

variable {manager after : LogManager P D LogId} {action : Action P D LogId}

/-- The storage is a log, its first index goes ahead, and as long as no error is recorded
every closure gets what it promises. -/
structure DiskKept (manager : LogManager P D LogId) : Prop where
  wellFormed : manager.storage.WellFormed
  ahead : Pending.Drains DiskTask.firstAfter DiskTask.Ahead manager.storage.first manager.pending
    manager.firstLogIndex
  waiting : manager.hasError = false →
    Pending.Ensures DiskTask.apply DiskTask.Stores manager.storage manager.pending
  ready : manager.hasError = false →
    ∀ done ∈ manager.readyClosures, Stored manager.storage done

def KeepsUncut (manager after : LogManager P D LogId) : Prop :=
  ∀ index entry, manager.storage.getEntry index = some entry →
    (∀ task ∈ manager.pending, ¬ task.Cuts index) → after.storage.getEntry index = some entry

structure Adds (added : List (DiskTask P D LogId)) (manager after : LogManager P D LogId) :
    Prop where
  storage : after.storage = manager.storage
  pending : after.pending = manager.pending ++ added
  ready : ∀ done ∈ after.readyClosures, done ∈ manager.readyClosures
  error : after.hasError = false → manager.hasError = false
  first : Pending.Drains DiskTask.firstAfter DiskTask.Ahead manager.firstLogIndex added
    after.firstLogIndex

theorem Adds.keepsUncut {added : List (DiskTask P D LogId)} (adds : Adds added manager after) :
    KeepsUncut manager after := by
  intro index entry found _
  rw [adds.storage]
  exact found

theorem Adds.diskKept {added : List (DiskTask P D LogId)} (adds : Adds added manager after)
    (kept : DiskKept manager)
    (waiting : after.hasError = false →
      Pending.Ensures DiskTask.apply DiskTask.Stores manager.storage (manager.pending ++ added)) :
    DiskKept after := by
  constructor
  · rw [adds.storage]
    exact kept.wellFormed
  · rw [adds.storage, adds.pending]
    exact Pending.drains_append.mpr ⟨_, kept.ahead, adds.first⟩
  · intro works
    rw [adds.storage, adds.pending]
    exact waiting works
  · intro works done member
    rw [adds.storage]
    exact kept.ready (adds.error works) done (adds.ready done member)

theorem ensures_silent {added : List (DiskTask P D LogId)}
    (silent : DiskTask.closures added = []) : ∀ {storage : LogStorage P D}
    {tasks : List (DiskTask P D LogId)},
    Pending.Ensures DiskTask.apply DiskTask.Stores storage tasks →
      Pending.Ensures DiskTask.apply DiskTask.Stores storage (tasks ++ added) := by
  have alone : ∀ storage : LogStorage P D,
      Pending.Ensures DiskTask.apply DiskTask.Stores storage added := by
    induction added with
    | nil => exact fun _ => trivial
    | cons task rest ih =>
        intro storage
        unfold DiskTask.closures at silent ih
        cases task with
        | append done => simp [DiskTask.closure?] at silent
        | lastLogId ticket => exact ⟨trivial, ih silent _⟩
        | truncatePrefix firstIndexKept => exact ⟨trivial, ih silent _⟩
        | truncateSuffix lastIndexKept lastTermKept => exact ⟨trivial, ih silent _⟩
        | reset nextLogIndex => exact ⟨trivial, ih silent _⟩
  intro storage tasks
  induction tasks generalizing storage with
  | nil => exact fun _ => alone storage
  | cons task rest ih => exact fun ensures => ⟨ensures.1, ih ensures.2⟩

theorem adds_of_background [DecidableEq P]
    (stepped : LogManager.step action manager = some after) (background : Background action)
    (notFlush : ∀ limit, action ≠ .diskFlush limit)
    (notTask : ∀ outcome, action ≠ .diskTask outcome) :
    ∃ added, DiskTask.closures added = [] ∧ Adds added manager after := by
  have same (other : LogManager P D LogId) (storage : other.storage = manager.storage)
      (pending : other.pending = manager.pending)
      (ready : ∀ done ∈ other.readyClosures, done ∈ manager.readyClosures)
      (error : other.hasError = false → manager.hasError = false)
      (first : other.firstLogIndex = manager.firstLogIndex) :
      ∃ added, DiskTask.closures added = [] ∧ Adds added manager other := by
    refine ⟨[], rfl, ⟨storage, ?_, ready, error, first.symm⟩⟩
    rw [pending, List.append_nil]
  cases action with
  | appendEntries context entries sees => exact background.elim
  | setSnapshot snapshot => exact background.elim
  | clearBufferredLogs => exact background.elim
  | setAppliedId appliedId => exact background.elim
  | clearMemoryLogs id =>
      simp only [LogManager.step, LogManager.clearMemoryLogs] at stepped
      split at stepped
      · obtain rfl := Option.some.inj stepped
        exact same _ rfl rfl (fun _ member => member) (fun works => works) rfl
      · contradiction
  | flushLastLogId ticket =>
      obtain rfl := Option.some.inj stepped
      unfold LogManager.flushLastLogId
      split
      · exact same _ rfl rfl (fun _ member => member) (fun works => works) rfl
      · exact ⟨[.lastLogId ticket], rfl, ⟨rfl, pending_execute _ _, fun _ member => member,
          fun works => works, ⟨le_refl _, rfl⟩⟩⟩
  | readEntry index =>
      obtain rfl := Option.some.inj stepped
      unfold LogManager.readEntry
      split_ifs
      · exact same _ rfl rfl (fun _ member => member) (fun works => works) rfl
      · exact same _ rfl rfl (fun _ member => member)
          (fun works => absurd works (by simp [reportError])) rfl
      · exact same _ rfl rfl (fun _ member => member) (fun works => works) rfl
  | diskStart =>
      simp only [LogManager.step, LogManager.diskStart] at stepped
      split at stepped
      · rename_i isThread _
        obtain rfl := Option.some.inj stepped
        refine same _ rfl ?_ (fun _ member => absurd member List.not_mem_nil) (fun works => works) rfl
        simp [pending, isThread, DiskThread.tasks]
      · contradiction
  | diskTake =>
      simp only [LogManager.step, LogManager.diskTake] at stepped
      split at stepped
      · rename_i isThread isQueue
        obtain rfl := Option.some.inj stepped
        refine same _ rfl ?_ (fun _ member => absurd member List.not_mem_nil) (fun works => works) rfl
        simp [pending, isThread, isQueue, DiskThread.tasks]
      · contradiction
  | diskEnd =>
      simp only [LogManager.step, LogManager.diskEnd] at stepped
      split at stepped
      · rename_i isThread
        obtain rfl := Option.some.inj stepped
        refine same _ rfl ?_ (fun _ member => absurd member List.not_mem_nil) (fun works => works) rfl
        simp [pending, isThread, DiskThread.tasks]
      · contradiction
  | diskFlush limit => exact absurd rfl (notFlush limit)
  | diskRun =>
      simp only [LogManager.step, LogManager.diskRun] at stepped
      split at stepped
      · rename_i thread isThread
        split at stepped
        · rename_i done rest isReady
          obtain rfl := Option.some.inj stepped
          refine same _ rfl ?_ ?_ (fun works => works) rfl
          · simp [pending, finish, isThread, DiskThread.tasks]
          · intro other member
            unfold readyClosures
            rw [isThread]
            change other ∈ thread.ready
            rw [isReady]
            exact List.mem_cons_of_mem _ member
        · contradiction
      · contradiction
  | diskTask outcome => exact absurd rfl (notTask outcome)
  | diskFinish =>
      simp only [LogManager.step, LogManager.diskFinish] at stepped
      split at stepped
      · rename_i lastId isThread
        obtain rfl := Option.some.inj stepped
        have pending : ({ manager with diskThread := none } : LogManager P D LogId).pending =
            manager.pending := by
          simp [LogManager.pending, isThread, DiskThread.tasks]
        unfold setDiskId
        split
        · exact same _ rfl pending (fun _ member => absurd member List.not_mem_nil)
            (fun works => works) rfl
        · exact same _ rfl pending (fun _ member => absurd member List.not_mem_nil)
            (fun works => works) rfl
      · contradiction
  | runAsync position =>
      obtain ⟨done, status, _, rfl⟩ := runAsync_cases stepped
      exact same _ rfl rfl (fun _ member => member) (fun works => works) rfl

theorem DiskKept.diskFlush [DecidableEq P] {limit : Nat} (kept : DiskKept manager)
    (durable : Durable manager)
    (whole : GetEntryRun.FaultFree (.diskFlush limit : Action P D LogId) manager)
    (stepped : manager.diskFlush limit = some after) :
    DiskKept after ∧ KeepsUncut manager after ∧
      (manager.hasError = false → after.hasError = false) := by
  unfold LogManager.diskFlush at stepped
  split at stepped
  · rename_i thread isThread
    split at stepped
    · have isPending := pending_thread isThread
      have ahead := kept.ahead
      rw [isPending] at ahead
      cases failed : manager.hasError with
      | true =>
          have unwritten : manager.appendToStorage thread.toAppend thread.lastId limit =
              (thread.lastId, manager) := by
            unfold appendToStorage
            rw [if_pos failed]
          rw [unwritten] at stepped
          obtain rfl := Option.some.inj stepped
          refine ⟨⟨kept.wellFormed, drains_of_batch _ ahead, ?_, ?_⟩, fun _ _ found _ => found, ?_⟩
          · exact fun works => absurd works (by rw [failed]; decide)
          · exact fun works => absurd works (by rw [failed]; decide)
          · exact fun works => absurd works (by decide)
      | false =>
          obtain ⟨log, sound, _⟩ := durable.sound failed
          have drains := sound.drains
          have covered := sound.covered
          rw [isPending] at drains covered
          have fits := (drains_batch drains covered).1
          have works :
              (manager.appendToStorage thread.toAppend thread.lastId limit).2.hasError = false :=
            appendToStorage_enough failed fits (whole thread isThread)
          have written := appendToStorage_works thread.toAppend thread.lastId limit failed works
          rcases result : manager.appendToStorage thread.toAppend thread.lastId limit with
            ⟨lastId, wrote⟩
          rw [result] at stepped written
          obtain rfl := written
          obtain rfl := Option.some.inj stepped
          have waiting := kept.waiting failed
          rw [isPending] at waiting
          obtain ⟨later, stored⟩ := stored_of_batch thread.batch waiting
          refine ⟨⟨kept.wellFormed.append fits, drains_of_batch _ ahead, fun _ => later, ?_⟩, ?_,
            fun _ => failed⟩
          · intro _ done member
            obtain ⟨former, inBatch, rfl⟩ := List.mem_map.mp member
            exact stored former inBatch
          · intro index entry found _
            exact IndexedLog.get?_append_kept _ found
    · contradiction
  · contradiction

theorem Performs.stores {thread thread' : DiskThread P D LogId} {task : DiskTask P D LogId}
    (performs : Performs manager thread .done task after thread') :
    after.storage = task.apply manager.storage ∧ after.firstLogIndex = manager.firstLogIndex ∧
      after.hasError = manager.hasError := by
  cases performs with
  | empty none =>
      rw [DiskTask.apply, none, IndexedLog.append_nil]
      exact ⟨rfl, rfl, rfl⟩
  | lastLogId | truncatePrefix | truncateSuffix | reset => exact ⟨rfl, rfl, rfl⟩
  | truncateFailed _ _ _ failed => contradiction

theorem diskTask_performed {outcome : DiskOutcome P D} (works : outcome = .done)
    (stepped : manager.diskTask outcome = some after) :
    (∀ done, ¬ manager.EmptyTask done) ∧ after.storage = manager.storage ∧
        after.pending = manager.pending ∧ after.readyClosures = [] ∧
        after.firstLogIndex = manager.firstLogIndex ∧ after.hasError = manager.hasError ∨
      ∃ task, task.batched = false ∧ manager.pending = task :: after.pending ∧
        (∀ done, manager.EmptyTask done → task = .append done) ∧
        after.storage = task.apply manager.storage ∧ after.readyClosures = [] ∧
        after.firstLogIndex = manager.firstLogIndex ∧ after.hasError = manager.hasError := by
  subst works
  cases takesTask_of_stepped stepped with
  | batched isThread isTask noneReady nonempty =>
      refine Or.inl ⟨?_, rfl, ?_, noneReady, rfl, rfl⟩
      · intro other empty
        obtain ⟨same, none⟩ := empty.isTask isThread isTask
        injection same with same
        exact nonempty (same ▸ none)
      · simp [pending, isThread, isTask, DiskThread.tasks]
  | @performed thread thread' task performed isThread isTask noneReady isPending noBatch notBatched
      performs =>
      obtain ⟨_, queue, batch, noTask, ready, _⟩ := performs.side
      obtain ⟨storage, first, error⟩ := performs.stores
      have left : ({ performed with diskThread := some thread' } :
          LogManager P D LogId).pending = manager.diskQueue := by
        rw [pending_thread rfl]
        simp [batch, noBatch, noTask, queue]
      refine Or.inr ⟨task, notBatched, ?_, fun done empty => (empty.isTask isThread isTask).1,
        storage, ?_, first, error⟩
      · rw [left, isPending]
      · exact ready.trans noneReady

theorem DiskKept.diskTask {outcome : DiskOutcome P D} (kept : DiskKept manager)
    (works : outcome = .done) (stepped : manager.diskTask outcome = some after) :
    DiskKept after ∧ KeepsUncut manager after ∧ after.hasError = manager.hasError ∧
      (manager.hasError = false → ∀ done, manager.EmptyTask done → Stored after.storage done) := by
  rcases diskTask_performed works stepped with
    ⟨notEmpty, storage, pending, ready, first, error⟩ |
    ⟨task, notBatched, isPending, isTask, storage, ready, first, error⟩
  · refine ⟨⟨?_, ?_, ?_, ?_⟩, ?_, error, fun _ done empty => absurd empty (notEmpty done)⟩
    · rw [storage]
      exact kept.wellFormed
    · rw [storage, pending, first]
      exact kept.ahead
    · rw [error, storage, pending]
      exact kept.waiting
    · intro _ done member
      rw [ready] at member
      contradiction
    · intro index entry found _
      rw [storage]
      exact found
  · have ahead := kept.ahead
    rw [isPending] at ahead
    refine ⟨⟨?_, ?_, ?_, ?_⟩, ?_, error, ?_⟩
    · rw [storage]
      exact DiskTask.apply_unbatched notBatched ahead.1 kept.wellFormed
    · rw [storage, DiskTask.apply_first, first]
      exact ahead.2
    · intro noError
      rw [error] at noError
      have waiting := kept.waiting noError
      rw [isPending] at waiting
      rw [storage]
      exact waiting.2
    · intro _ done member
      rw [ready] at member
      contradiction
    · intro index entry found uncut
      rw [storage]
      refine DiskTask.apply_uncut ahead.1 (uncut task ?_) found
      rw [isPending]
      exact List.mem_cons_self
    · intro noError done empty
      have waiting := kept.waiting noError
      rw [isPending, isTask done empty] at waiting
      rw [storage, isTask done empty]
      exact waiting.1

theorem adds_nothing (storage : after.storage = manager.storage)
    (pending : after.pending = manager.pending)
    (ready : after.readyClosures = manager.readyClosures)
    (error : after.hasError = manager.hasError)
    (first : after.firstLogIndex = manager.firstLogIndex) : Adds [] manager after := by
  constructor
  · exact storage
  · rw [pending, List.append_nil]
  · intro done member
    rwa [← ready]
  · intro works
    rwa [← error]
  · exact first.symm

theorem adds_truncatePrefix {noted : LogManager P D LogId} {firstIndexKept : Nat}
    (stepped : noted.truncatePrefix firstIndexKept = some after)
    (storage : noted.storage = manager.storage)
    (disk : noted.diskThread = manager.diskThread ∧ noted.diskQueue = manager.diskQueue)
    (error : noted.hasError = manager.hasError)
    (first : noted.firstLogIndex = manager.firstLogIndex) :
    Adds [.truncatePrefix firstIndexKept] manager after := by
  obtain ⟨lower, rfl⟩ := truncatePrefix_some stepped
  constructor
  · exact storage
  · rw [pending_execute]
    change noted.pending ++ _ = _
    unfold pending
    rw [disk.1, disk.2]
  · intro done member
    unfold readyClosures at member ⊢
    rwa [← disk.1]
  · intro works
    rw [← error]
    exact works
  · rw [first] at lower
    exact ⟨lower, rfl⟩

theorem adds_setSnapshot [DecidableEq P] {snapshot : SnapshotMeta P}
    (opened : manager.Opened ∨
      manager.lastSnapshotId.index = 0 ∧ manager.virtualFirstLogId.index = 0)
    (stepped : manager.setSnapshot snapshot = some after) :
    ∃ added, DiskTask.closures added = [] ∧ Adds added manager after := by
  by_cases newer : manager.lastSnapshotId.index < snapshot.lastIncludedIndex
  · rcases setSnapshot_cases newer stepped with ⟨_, stepped⟩ | ⟨_, _, ⟨_, stepped⟩ | rfl⟩ |
      ⟨hasTerm, _, rfl⟩
    · exact ⟨_, rfl, adds_truncatePrefix stepped rfl ⟨rfl, rfl⟩ rfl rfl⟩
    · exact ⟨_, rfl, adds_truncatePrefix stepped rfl ⟨rfl, rfl⟩ rfl rfl⟩
    · exact ⟨[], rfl, adds_nothing rfl rfl rfl rfl rfl⟩
    · -- a term that is read behind the last snapshot is read in the log
      have lower : manager.firstLogIndex ≤ snapshot.lastIncludedIndex + 1 := by
        rcases opened with opened | ⟨noSnapshot, noVirtual⟩
        · have window : manager.firstLogIndex ≤ manager.lastSnapshotId.index + 1 := opened
          omega
        · by_contra below
          unfold getTerm at hasTerm
          rw [if_neg (by omega), if_neg (by omega), if_neg (by omega),
            if_pos (Or.inr (by omega))] at hasTerm
          exact hasTerm rfl
      exact ⟨[.reset (snapshot.lastIncludedIndex + 1)], rfl, ⟨rfl, pending_execute _ _,
        fun _ member => member, fun works => works, ⟨lower, rfl⟩⟩⟩
  · obtain rfl := setSnapshot_stale newer stepped
    exact ⟨[], rfl, adds_nothing rfl rfl rfl rfl rfl⟩

theorem adds_clearBufferredLogs (stepped : manager.clearBufferredLogs = some after) :
    ∃ added, DiskTask.closures added = [] ∧ Adds added manager after := by
  unfold LogManager.clearBufferredLogs at stepped
  split at stepped
  · exact ⟨_, rfl, adds_truncatePrefix stepped rfl ⟨rfl, rfl⟩ rfl rfl⟩
  · obtain rfl := Option.some.inj stepped
    exact ⟨[], rfl, adds_nothing rfl rfl rfl rfl rfl⟩

theorem resolve_cuts {entries remaining : List (LogEntry P D)} {front back : LogEntry P D}
    {resolved : LogManager P D LogId}
    (accepted : manager.checkAndResolveConflict entries front back =
      some (.accepted remaining resolved)) :
    ∃ cuts, DiskTask.closures cuts = [] ∧ Adds cuts manager resolved := by
  cases resolves_of_accepted accepted with
  | conflict _ _ _ _ _ _ _ truncated =>
      obtain ⟨_, lastTermKept, rfl⟩ := unsafeTruncateSuffix_some truncated
      exact ⟨[.truncateSuffix _ lastTermKept], rfl, ⟨rfl, pending_execute manager _,
        fun _ member => member, fun works => works, ⟨le_refl _, rfl⟩⟩⟩
  | leader | next | known | extension => exact ⟨[], rfl, adds_nothing rfl rfl rfl rfl rfl⟩

theorem adds_enqueue [DecidableEq P] {cuts : List (DiskTask P D LogId)}
    {resolved : LogManager P D LogId} (adds : Adds cuts manager resolved) (context : LogId)
    (submitted remaining : List (LogEntry P D)) :
    Adds (cuts ++ [.append (.queued context submitted remaining)]) manager
      (resolved.enqueue context submitted remaining) := by
  constructor
  · exact adds.storage
  · rw [← List.append_assoc, ← adds.pending]
    exact pending_execute _ _
  · exact adds.ready
  · exact adds.error
  · exact Pending.drains_append.mpr ⟨_, adds.first, le_refl _, rfl⟩

theorem DiskKept.appendEntries [DecidableEq P] {entries : List (LogEntry P D)} {sees : Bool}
    (kept : DiskKept manager) (durable : Durable manager) (appendable : manager.Appendable entries)
    (stepped : manager.appendEntries manager.appliedId entries sees = some after) :
    ∃ added, Adds added manager after ∧ DiskKept after := by
  rcases appendEntries_cases stepped with ⟨status, rfl, _⟩ | ⟨rfl, rfl⟩ |
    ⟨front, back, remaining, resolved, isFront, isBack, accepted, rfl⟩
  · have adds : Adds [] manager (manager.runInBthread
        { context := manager.appliedId, submitted := entries } status) :=
      adds_nothing rfl rfl rfl rfl rfl
    refine ⟨[], adds, adds.diskKept kept ?_⟩
    intro works
    exact ensures_silent rfl (kept.waiting works)
  · have adds := adds_enqueue (adds_nothing rfl rfl rfl rfl rfl : Adds [] manager manager)
      manager.appliedId [] []
    refine ⟨_, adds, adds.diskKept kept ?_⟩
    intro works
    obtain ⟨log, sound, _⟩ := durable.sound (adds.error works)
    refine (kept.waiting (adds.error works)).snoc sound.drains ?_
    exact fun entry member => absurd member List.not_mem_nil
  · obtain ⟨cuts, silent, cutting⟩ := resolve_cuts accepted
    have adds := adds_enqueue cutting manager.appliedId
      (if front.id.index = 0 then remaining else entries) remaining
    refine ⟨_, adds, adds.diskKept kept ?_⟩
    intro works
    obtain ⟨log, sound, _⟩ := durable.sound (adds.error works)
    obtain ⟨base, cut, prepared, appends⟩ :=
      sound.toTracks.resolve_accepted durable.opened appendable isFront isBack accepted
    obtain ⟨baseSound, _⟩ := sound.prepared prepared appends.lower
    have isResolved := prepared.1
    subst isResolved
    have opened : manager.firstLogIndex ≤ manager.lastSnapshotId.index + 1 := durable.opened
    have toApplied := sound.applied
    have first := sound.first
    have drains := baseSound.drains
    have storage : base.storage = manager.storage := cutting.storage
    have pending : base.pending = manager.pending ++ cuts := cutting.pending
    rw [storage, pending] at drains
    rw [← List.append_assoc]
    refine (ensures_silent silent (kept.waiting (adds.error works))).snoc drains ?_
    intro entry member behind
    exact appends.stored (le_refl _) (by omega) member behind

/-- The closure of a call carries the applied id at the time of the call. -/
def CarriesApplied (action : Action P D LogId) (manager : LogManager P D LogId) : Prop :=
  match action with
  | .appendEntries context _ _ => context = manager.appliedId
  | _ => True

theorem DiskKept.added (kept : DiskKept manager)
    (found : ∃ added, DiskTask.closures added = [] ∧ Adds added manager after) :
    DiskKept after ∧ KeepsUncut manager after := by
  obtain ⟨added, silent, adds⟩ := found
  refine ⟨adds.diskKept kept ?_, adds.keepsUncut⟩
  intro works
  exact ensures_silent silent (kept.waiting (adds.error works))

theorem DiskKept.step [DecidableEq P] (kept : DiskKept manager) (durable : Durable manager)
    (allowed : Allowed action manager) (faultFree : GetEntryRun.FaultFree action manager)
    (carries : CarriesApplied action manager)
    (stepped : LogManager.step action manager = some after) :
    DiskKept after ∧ KeepsUncut manager after := by
  cases action with
  | appendEntries context entries sees =>
      have isApplied : context = manager.appliedId := carries
      subst isApplied
      obtain ⟨added, adds, after⟩ := kept.appendEntries durable allowed stepped
      exact ⟨after, adds.keepsUncut⟩
  | setSnapshot snapshot => exact kept.added (adds_setSnapshot (Or.inl durable.opened) stepped)
  | clearBufferredLogs => exact kept.added (adds_clearBufferredLogs stepped)
  | setAppliedId appliedId =>
      obtain rfl := Option.some.inj stepped
      refine kept.added ⟨[], rfl, ?_⟩
      unfold LogManager.setAppliedId
      split
      · exact adds_nothing rfl rfl rfl rfl rfl
      · exact adds_nothing rfl rfl rfl rfl rfl
  | diskFlush limit =>
      obtain ⟨after, keeps, _⟩ := kept.diskFlush durable faultFree stepped
      exact ⟨after, keeps⟩
  | diskTask outcome =>
      obtain ⟨after, keeps, _⟩ := kept.diskTask faultFree stepped
      exact ⟨after, keeps⟩
  | _ => exact kept.added (adds_of_background stepped trivial (fun _ other => by cases other)
      (fun _ other => by cases other))

end LogManager

end QuorumKit
