/-
Crashes of a node that saves and installs snapshots.

A snapshot is published before the log manager hears of it, and the truncations that follow
wait in the queue of the disk thread.  The queue never cuts behind the snapshot that has been
published, so the restart finds a log that starts right behind it at the latest.
-/

import QuorumKit.LogManager.FlushedLastLogId
import QuorumKit.Snapshot.NodeRestart
import QuorumKit.Snapshot.SaveSnapshot

namespace QuorumKit

variable {P D : Type}

/-- What the executor is doing; `_saving_snapshot` and `_downloading_snapshot` exclude each
other. -/
inductive SnapshotJob (P : Type) where
  | idle
  /-- The state machine fills the writer. -/
  | saving
  /-- `on_snapshot_save_done` has found a newer snapshot than the last one. -/
  | closing (snapshot : SnapshotMeta P)
  /-- The writer is closed, `set_snapshot` has not been called. -/
  | saved (snapshot : SnapshotMeta P)
  | downloading (snapshot : SnapshotMeta P)
  /-- The copier has closed its writer, the state machine loads. -/
  | loading (snapshot : SnapshotMeta P)

structure CrashRun (P D : Type) where
  log : AnsweredRun P D
  published : Option (SnapshotMeta P) := none
  lastSnapshotIndex : Nat := 0
  minIndexGap : Nat := 1
  job : SnapshotJob P := .idle

namespace CrashRun

inductive Action (P D : Type) where
  | log (action : LogManager.Action P D LogId)
  | doSnapshot (appliedIndex : Nat)
  | onSnapshotSaveDone (status : Int) (snapshot : SnapshotMeta P)
  | closeWriter (works : Bool)
  /-- The end of `on_snapshot_save_done`. -/
  | setSavedSnapshot
  | registerDownloadingSnapshot (snapshot : SnapshotMeta P)
  | copierFinishes (closed opened : Bool)
  | onSnapshotLoadDone (status : Int)

/-- `close` of a writer: a snapshot at the index of the last one is dropped. -/
def publish (run : CrashRun P D) (snapshot : SnapshotMeta P) : Option (SnapshotMeta P) :=
  if snapshot.lastIncludedIndex = LogManager.publishedIndex run.published then run.published
  else some snapshot

variable [DecidableEq P]

/-- The new last snapshot, and the call of `LogManager::set_snapshot`. -/
def setSnapshot (run : CrashRun P D) (snapshot : SnapshotMeta P) : Option (CrashRun P D) :=
  (AnsweredRun.step (.setSnapshot snapshot) run.log).map (fun log =>
    { run with log := log, lastSnapshotIndex := snapshot.lastIncludedIndex, job := .idle })

def doSnapshot (run : CrashRun P D) (appliedIndex : Nat) : Option (CrashRun P D) :=
  match run.job with
  | .idle =>
      if appliedIndex < run.lastSnapshotIndex + run.minIndexGap then
        (AnsweredRun.step .clearBufferredLogs run.log).map (fun log => { run with log := log })
      else some { run with job := .saving }
  | _ => some run

def step (action : Action P D) (run : CrashRun P D) : Option (CrashRun P D) :=
  match action, run.job with
  | .log action, _ => (AnsweredRun.step action run.log).map (fun log => { run with log := log })
  | .doSnapshot appliedIndex, _ => run.doSnapshot appliedIndex
  | .onSnapshotSaveDone status snapshot, .saving =>
      some
        { run with
          job := if status = 0 ∧ run.lastSnapshotIndex < snapshot.lastIncludedIndex then
              .closing snapshot
            else .idle }
  | .closeWriter works, .closing snapshot =>
      some
        (if works then { run with published := run.publish snapshot, job := .saved snapshot }
        else { run with job := .idle })
  | .setSavedSnapshot, .saved snapshot => run.setSnapshot snapshot
  | .registerDownloadingSnapshot snapshot, .idle =>
      some
        (if snapshot.lastIncludedIndex ≤ run.lastSnapshotIndex then run
        else { run with job := .downloading snapshot })
  | .copierFinishes closed opened, .downloading snapshot =>
      some
        (if closed then
          { run with
            published := run.publish snapshot
            job := if opened then .loading snapshot else .idle }
        else { run with job := .idle })
  | .onSnapshotLoadDone status, .loading snapshot =>
      if status = 0 then run.setSnapshot snapshot else some { run with job := .idle }
  | _, _ => none

/-- The log manager's own steps and those of the executor; a snapshot belongs to the log whose
entries are applied. -/
def Allowed (action : Action P D) (run : CrashRun P D) : Prop :=
  match action, run.job with
  | .log action, _ =>
      AnsweredRun.Allowed action run.log ∧ ∀ snapshot, action ≠ .setSnapshot snapshot
  | .setSavedSnapshot, .saved snapshot =>
      AnsweredRun.Allowed (.setSnapshot snapshot) run.log
  | .onSnapshotLoadDone status, .loading snapshot =>
      status = 0 → AnsweredRun.Allowed (.setSnapshot snapshot) run.log
  | _, _ => True

/-- A node that has just been started, with entries that an earlier run may have answered. -/
def Initial (run : CrashRun P D) : Prop :=
  run.job = .idle ∧ run.lastSnapshotIndex = LogManager.publishedIndex run.published ∧
    (∃ (storage : LogStorage P D) (dataLength : D → Nat), storage.WellFormed ∧
      LogManager.SortedAbove 0 storage ∧ (run.published = none → storage.first = 1) ∧
      (∀ snapshot, run.published = some snapshot →
        0 < snapshot.lastIncludedIndex ∧ LogManager.NotOlder snapshot.id storage) ∧
      LogManager.restart storage dataLength run.published = some run.log.manager) ∧
    ∀ answer ∈ run.log.answered,
      run.log.manager.storage.getEntry answer.2.id.index = some answer.2 ∧
        ∀ task ∈ run.log.manager.pending, ¬ task.Cuts answer.2.id.index

def system : TransitionSystem (CrashRun P D) (Action P D) :=
  { init := Initial, allowed := Allowed, step := step }

def restarted (run : CrashRun P D) : Option (LogManager P D LogId) :=
  LogManager.restart run.log.manager.storage run.log.manager.dataLength run.published

/-- What the executor is about to publish or to set is newer than the last snapshot. -/
def Newer (job : SnapshotJob P) (lastSnapshotIndex publishedIndex : Nat) : Prop :=
  match job with
  | .idle => True
  | .saving => True
  | .closing snapshot => lastSnapshotIndex < snapshot.lastIncludedIndex
  | .downloading snapshot => lastSnapshotIndex < snapshot.lastIncludedIndex
  | .saved snapshot =>
      lastSnapshotIndex < snapshot.lastIncludedIndex ∧
        publishedIndex = snapshot.lastIncludedIndex
  | .loading snapshot =>
      lastSnapshotIndex < snapshot.lastIncludedIndex ∧
        publishedIndex = snapshot.lastIncludedIndex

structure Kept (run : CrashRun P D) : Prop where
  log : AnsweredRun.Kept run.log
  behind : run.log.manager.lastSnapshotId.index ≤ run.lastSnapshotIndex
  published : run.lastSnapshotIndex ≤ LogManager.publishedIndex run.published
  positive : ∀ snapshot, run.published = some snapshot → 0 < snapshot.lastIncludedIndex
  job : Newer run.job run.lastSnapshotIndex (LogManager.publishedIndex run.published)

variable {run after : CrashRun P D} {action : Action P D} {snapshot : SnapshotMeta P}

omit [DecidableEq P] in
theorem publish_index (run : CrashRun P D) (snapshot : SnapshotMeta P) :
    LogManager.publishedIndex (run.publish snapshot) = snapshot.lastIncludedIndex := by
  unfold publish
  split
  · rename_i same
    exact same.symm
  · rfl

omit [DecidableEq P] in
/-- A close that meets no fault leaves the published snapshot to the next `open`. -/
theorem publish_close {storage : SnapshotStorage P} {writer : SnapshotWriter P}
    (run : CrashRun P D) (keepDataOnError : Bool) (isPublished : storage.openable = run.published)
    (isIndex : storage.lastSnapshotIndex = LogManager.publishedIndex run.published)
    (noError : writer.errorCode = 0) (hasMeta : writer.metaTable.snapshotMeta = some snapshot)
    (hasTemp : storage.fs.temp.isSome) (positive : 0 < snapshot.lastIncludedIndex)
    (works : storage.fs.Works (SnapshotFs.saveCalls storage.raftSyncMeta + 2)) :
    (storage.close writer keepDataOnError).2.openable = run.publish snapshot := by
  have isNew : writer.snapshotIndex = snapshot.lastIncludedIndex := by
    unfold SnapshotWriter.snapshotIndex
    rw [hasMeta]
  have closes : storage.Closes writer := by
    refine ⟨?_, fun _ => works⟩
    rw [noError]
    decide
  rw [storage.close_openable keepDataOnError closes]
  unfold SnapshotStorage.current publish
  by_cases same : snapshot.lastIncludedIndex = LogManager.publishedIndex run.published
  · have skipped : ¬ storage.Commits writer := by
      intro commits
      exact commits.2.2 (isNew.trans (same.trans isIndex.symm))
    rw [if_neg skipped, if_pos same]
    exact isPublished
  · have commits : storage.Commits writer := by
      refine ⟨noError, ⟨hasTemp, fun step below => works step (Nat.lt_add_right 2 below)⟩, ?_⟩
      rw [isNew, isIndex]
      exact same
    rw [if_pos commits, if_neg same, hasMeta]
    simp [Option.filter, positive.ne']

omit [DecidableEq P] in
theorem Kept.publish (kept : Kept run) (newer : run.lastSnapshotIndex < snapshot.lastIncludedIndex)
    {job : SnapshotJob P} (isNewer : Newer job run.lastSnapshotIndex snapshot.lastIncludedIndex) :
    Kept { run with published := run.publish snapshot, job := job } := by
  have index := publish_index run snapshot
  constructor
  · exact kept.log
  · exact kept.behind
  · rw [index]
    exact newer.le
  · intro last isLast
    have atLast : LogManager.publishedIndex (run.publish snapshot) = last.lastIncludedIndex :=
      congrArg LogManager.publishedIndex isLast
    omega
  · rw [index]
    exact isNewer

omit [DecidableEq P] in
theorem Kept.withJob (kept : Kept run) {job : SnapshotJob P}
    (isNewer : Newer job run.lastSnapshotIndex (LogManager.publishedIndex run.published)) :
    Kept { run with job := job } :=
  { kept with job := isNewer }

theorem lastSnapshotId_kept {action : LogManager.Action P D LogId}
    {manager manager' : LogManager P D LogId}
    (stepped : LogManager.step action manager = some manager')
    (other : ∀ snapshot, action ≠ .setSnapshot snapshot) :
    manager'.lastSnapshotId = manager.lastSnapshotId := by
  by_cases background : LogManager.Background action
  · have same := LogManager.background_view stepped background
    simp only [LogManager.view, Prod.mk.injEq] at same
    exact same.2.2.1
  · cases action with
    | appendEntries context entries sees =>
        rcases LogManager.appendEntries_cases stepped with ⟨status, rfl, _⟩ | ⟨_, rfl⟩ |
          ⟨front, back, remaining, resolved, _, _, accepted, rfl⟩
        · rfl
        · rfl
        · exact (LogManager.resolve_books accepted).2.2.2.2
    | setSnapshot snapshot => exact absurd rfl (other snapshot)
    | clearBufferredLogs =>
        change manager.clearBufferredLogs = some manager' at stepped
        unfold LogManager.clearBufferredLogs at stepped
        split at stepped
        · obtain ⟨_, rfl⟩ := LogManager.truncatePrefix_some stepped
          rfl
        · obtain rfl := Option.some.inj stepped
          rfl
    | setAppliedId appliedId =>
        obtain rfl := Option.some.inj stepped
        unfold LogManager.setAppliedId
        split <;> rfl
    | _ => exact absurd trivial background

theorem Kept.logStep (kept : Kept run) {action : LogManager.Action P D LogId}
    {log : AnsweredRun P D} (allowed : AnsweredRun.Allowed action run.log)
    (other : ∀ snapshot, action ≠ .setSnapshot snapshot)
    (stepped : AnsweredRun.step action run.log = some log) : Kept { run with log := log } := by
  have same : log.manager.lastSnapshotId = run.log.manager.lastSnapshotId := by
    obtain ⟨manager, moved, rfl⟩ := Option.map_eq_some_iff.mp stepped
    have same := lastSnapshotId_kept moved other
    exact same
  refine { kept with log := kept.log.step allowed stepped, behind := ?_ }
  change log.manager.lastSnapshotId.index ≤ _
  rw [same]
  exact kept.behind

theorem Kept.setSnapshot (kept : Kept run)
    (newer : run.lastSnapshotIndex < snapshot.lastIncludedIndex)
    (isPublished : LogManager.publishedIndex run.published = snapshot.lastIncludedIndex)
    (allowed : AnsweredRun.Allowed (.setSnapshot snapshot) run.log)
    (stepped : run.setSnapshot snapshot = some after) : Kept after := by
  obtain ⟨log, moved, rfl⟩ := Option.map_eq_some_iff.mp stepped
  have isLast : log.manager.lastSnapshotId = snapshot.id := by
    obtain ⟨manager, movedLog, rfl⟩ := Option.map_eq_some_iff.mp moved
    have isLast := (LogManager.setSnapshot_ids (kept.behind.trans_lt newer) movedLog).1
    exact isLast
  constructor
  · exact kept.log.step allowed moved
  · change log.manager.lastSnapshotId.index ≤ _
    rw [isLast]
    exact le_refl _
  · exact le_of_eq isPublished.symm
  · exact kept.positive
  · trivial

theorem Kept.doSnapshot (kept : Kept run) {appliedIndex : Nat}
    (stepped : run.doSnapshot appliedIndex = some after) : Kept after := by
  unfold CrashRun.doSnapshot at stepped
  split at stepped
  · split_ifs at stepped
    · obtain ⟨log, moved, rfl⟩ := Option.map_eq_some_iff.mp stepped
      have allowed : AnsweredRun.Allowed .clearBufferredLogs run.log := ⟨trivial, trivial, trivial⟩
      exact kept.logStep allowed (fun _ other => by cases other) moved
    · obtain rfl := Option.some.inj stepped
      exact kept.withJob trivial
  · obtain rfl := Option.some.inj stepped
    exact kept

theorem Kept.step (kept : Kept run) (allowed : Allowed action run)
    (stepped : CrashRun.step action run = some after) : Kept after := by
  have newer := kept.job
  cases action with
  | log action =>
      obtain ⟨log, moved, rfl⟩ := Option.map_eq_some_iff.mp stepped
      exact kept.logStep allowed.1 allowed.2 moved
  | doSnapshot appliedIndex => exact kept.doSnapshot stepped
  | onSnapshotSaveDone status snapshot =>
      unfold CrashRun.step at stepped
      cases isJob : run.job with
      | saving =>
          rw [isJob] at stepped
          obtain rfl := Option.some.inj stepped
          refine kept.withJob ?_
          split
          · rename_i finished
            exact finished.2
          · trivial
      | _ => simp [isJob] at stepped
  | closeWriter works =>
      unfold CrashRun.step at stepped
      cases isJob : run.job with
      | closing snapshot =>
          rw [isJob] at stepped newer
          obtain rfl := Option.some.inj stepped
          split
          · exact kept.publish newer ⟨newer, rfl⟩
          · exact kept.withJob trivial
      | _ => simp [isJob] at stepped
  | setSavedSnapshot =>
      unfold CrashRun.step at stepped
      unfold Allowed at allowed
      cases isJob : run.job with
      | saved snapshot =>
          rw [isJob] at stepped newer allowed
          exact kept.setSnapshot newer.1 newer.2 allowed stepped
      | _ => simp [isJob] at stepped
  | registerDownloadingSnapshot snapshot =>
      unfold CrashRun.step at stepped
      cases isJob : run.job with
      | idle =>
          rw [isJob] at stepped
          obtain rfl := Option.some.inj stepped
          split
          · exact kept
          · rename_i notOlder
            exact kept.withJob (not_le.mp notOlder)
      | _ => simp [isJob] at stepped
  | copierFinishes closed opened =>
      unfold CrashRun.step at stepped
      cases isJob : run.job with
      | downloading snapshot =>
          rw [isJob] at stepped newer
          obtain rfl := Option.some.inj stepped
          split
          · refine kept.publish newer ?_
            split
            · exact ⟨newer, rfl⟩
            · trivial
          · exact kept.withJob trivial
      | _ => simp [isJob] at stepped
  | onSnapshotLoadDone status =>
      unfold CrashRun.step at stepped
      unfold Allowed at allowed
      cases isJob : run.job with
      | loading snapshot =>
          rw [isJob] at stepped newer allowed
          simp only at stepped
          split_ifs at stepped with loaded
          · exact kept.setSnapshot newer.1 newer.2 (allowed loaded) stepped
          · obtain rfl := Option.some.inj stepped
            exact kept.withJob trivial
      | _ => simp [isJob] at stepped

theorem Initial.kept (initial : Initial run) : Kept run := by
  obtain ⟨idle, isLast, ⟨storage, dataLength, wellFormed, sorted, atOne, ordered, restarted⟩,
    answered⟩ := initial
  have fresh : LogManager.DiskKept (LogManager.started storage dataLength) :=
    ⟨wellFormed, rfl, fun _ => trivial, fun _ done member => absurd member List.not_mem_nil⟩
  have start : LogManager.Initial run.log.manager ∧ LogManager.DiskKept run.log.manager ∧
      run.log.manager.lastSnapshotId.index = LogManager.publishedIndex run.published ∧
      ∀ snapshot, run.published = some snapshot → 0 < snapshot.lastIncludedIndex := by
    cases isPublished : run.published with
    | none =>
        rw [isPublished] at restarted
        obtain same := Option.some.inj restarted
        rw [← same]
        exact ⟨⟨storage, _, dataLength, wellFormed, sorted, Or.inl ⟨atOne isPublished, rfl⟩⟩, fresh,
          rfl, fun _ found => by cases found⟩
    | some snapshot =>
        obtain ⟨positive, notOlder⟩ := ordered snapshot isPublished
        rw [isPublished, LogManager.restart_some] at restarted
        refine ⟨⟨storage, _, dataLength, wellFormed, sorted,
          Or.inr ⟨snapshot, positive, notOlder, restarted⟩⟩, ?_, ?_, ?_⟩
        · exact (fresh.added (LogManager.adds_setSnapshot (Or.inr ⟨rfl, rfl⟩) restarted)).1
        · have newer : (LogManager.started storage dataLength).lastSnapshotId.index <
              snapshot.lastIncludedIndex := positive
          exact congrArg LogId.index (LogManager.setSnapshot_ids newer restarted).1
        · intro other isOther
          obtain rfl := Option.some.inj isOther
          exact positive
  obtain ⟨initial, disk, isIndex, positive⟩ := start
  obtain ⟨_, _, _, _, _, noAsync⟩ := initial.sound
  constructor
  · constructor
    · exact initial.durable
    · exact initial.windowed
    · exact disk
    · intro done member
      rw [noAsync] at member
      contradiction
    · exact fun answer member => (answered answer member).2
    · exact fun answer member _ => (answered answer member).1
  · rw [isIndex, isLast]
  · exact le_of_eq isLast
  · exact positive
  · rw [idle]
    trivial

theorem kept_of_reachable (reached : (system : TransitionSystem (CrashRun P D) _).Reachable run) :
    Kept run := by
  induction reached with
  | start initial => exact Initial.kept initial
  | next _ allowed stepped ih => exact ih.step allowed stepped

/-- After a crash the node restarts from what has been stored. -/
theorem restart_recovers
    (reached : (system : TransitionSystem (CrashRun P D) (Action P D)).Reachable run) :
    ∃ restarted, run.restarted = some restarted ∧ LogManager.Recovers run.published restarted ∧
      (LogManager.Agrees run.log.manager.storage run.published →
        ∀ answer ∈ run.log.answered, answer.1.index < answer.2.id.index →
          LogManager.publishedIndex run.published < answer.2.id.index →
            restarted.ReadsBack answer.2) ∧
      (¬ LogManager.Agrees run.log.manager.storage run.published →
        restarted.firstLogIndex = LogManager.publishedIndex run.published + 1 ∧
          restarted.lastLogIndex = LogManager.publishedIndex run.published) := by
  have kept := kept_of_reachable reached
  have disk := kept.log.disk
  have opened : run.log.manager.firstLogIndex ≤ run.log.manager.lastSnapshotId.index + 1 :=
    kept.log.windowed.opened
  have first := first_le_of_drains disk.ahead
  have behind := kept.behind
  have published := kept.published
  obtain ⟨restarted, isRestarted, recovers, reads, emptied⟩ :=
    LogManager.restart_total run.log.manager.dataLength disk.wellFormed
      (show run.log.manager.storage.first ≤ LogManager.publishedIndex run.published + 1 by omega)
      kept.positive
  refine ⟨restarted, isRestarted, recovers, ?_, emptied⟩
  intro agrees answer member later uncovered
  exact reads agrees answer.2 (kept.log.stored answer member later) uncovered

open FlushRun (dataEntry)

def freshRun : CrashRun Nat Nat := { log := { manager := LogManager.started .empty (fun _ => 1) } }

theorem freshRun_initial : Initial freshRun := by
  refine ⟨rfl, rfl, ⟨.empty, _, ⟨by decide, ?_⟩, ?_, fun _ => rfl, ?_, rfl⟩, ?_⟩
  · intro index entry found
    simp [LogStorage.getEntry, IndexedLog.get?, LogStorage.empty] at found
  · intro former later entry entry' _ _ found
    simp [LogStorage.getEntry, IndexedLog.get?, LogStorage.empty] at found
  · intro snapshot isSnapshot
    contradiction
  · intro answer member
    exact absurd member List.not_mem_nil

theorem freshRun_empty (index : Nat) (found : LogEntry Nat Nat)
    (read : freshRun.log.manager.getEntry index = some found) : found = dataEntry index 1 := by
  unfold LogManager.getEntry at read
  split at read
  · contradiction
  · rename_i inside
    have inside : ¬ (0 < index ∨ index < 1) := inside
    omega

theorem firstTerm_appendable {manager : LogManager Nat Nat LogId} {entries : List (LogEntry Nat Nat)}
    (placed : ∀ position entry, entries[position]? = some entry → entry = dataEntry (position + 1) 1)
    (same : ∀ index found, manager.getEntry index = some found → found = dataEntry index 1)
    (applied : manager.appliedId.term ≤ 1) : manager.Appendable entries := by
  have isEntry (entry : LogEntry Nat Nat) (member : entry ∈ entries) :
      entry = dataEntry entry.id.index 1 := by
    obtain ⟨position, found⟩ := List.mem_iff_getElem?.mp member
    rw [placed position entry found]
    rfl
  have term (entry : LogEntry Nat Nat) (member : entry ∈ entries) : entry.id.term = 1 := by
    rw [isEntry entry member]
    rfl
  constructor
  · refine Or.inr ⟨1, Nat.one_pos, ?_⟩
    intro position entry found
    rw [placed position entry found]
    exact Nat.add_comm position 1
  · intro entry member
    rw [term entry member]
    exact Nat.one_pos
  · refine List.pairwise_iff_forall_sublist.mpr ?_
    intro former later sublist
    rw [term former (sublist.subset List.mem_cons_self),
      term later (sublist.subset (List.mem_cons_of_mem _ List.mem_cons_self))]
  · intro entry member found read _
    exact (same _ _ read).trans (isEntry entry member).symm
  · intro front isFront
    have atFirst := placed 0 front (by rw [← List.head?_eq_getElem?]; exact isFront)
    subst atFirst
    exact Nat.zero_le _
  · intro entry member _
    rw [term entry member]
    exact applied

def threeEntries : List (LogEntry Nat Nat) := [dataEntry 1 1, dataEntry 2 1, dataEntry 3 1]

def writtenRun : CrashRun Nat Nat :=
  { log :=
      { manager :=
          { freshRun.log.manager with
            storage := { first := 1, entries := threeEntries }
            lastLogIndex := 3
            logsInMemory := threeEntries
            accepted := threeEntries
            diskThread := some { lastId := { index := 3, term := 1 }, ended := true }
            finished := [({ StableClosure.queued {} threeEntries threeEntries with entries := [] }, 0)] }
        answered := threeEntries.map (fun entry => ({}, entry)) } }

theorem writtenRun_reachable :
    (system : TransitionSystem (CrashRun Nat Nat) (Action Nat Nat)).Reachable writtenRun := by
  have appendable : freshRun.log.manager.Appendable threeEntries := by
    refine firstTerm_appendable ?_ freshRun_empty (by decide)
    intro position entry found
    match position with
    | 0 => exact (Option.some.inj found).symm
    | 1 => exact (Option.some.inj found).symm
    | 2 => exact (Option.some.inj found).symm
    | position + 3 => simp [threeEntries] at found
  have follows : (system : TransitionSystem (CrashRun Nat Nat) (Action Nat Nat)).Follows
      [.log (.appendEntries {} threeEntries false), .log .diskStart, .log .diskTake,
        .log (.diskTask .done), .log .diskEnd, .log (.diskFlush 3), .log .diskRun]
      freshRun writtenRun := by
    exact ⟨⟨⟨appendable, trivial, rfl⟩, fun _ other => by cases other⟩, _, rfl,
      ⟨⟨trivial, trivial, trivial⟩, fun _ other => by cases other⟩, _, rfl,
      ⟨⟨trivial, trivial, trivial⟩, fun _ other => by cases other⟩, _, rfl,
      ⟨⟨trivial, rfl, trivial⟩, fun _ other => by cases other⟩, _, rfl,
      ⟨⟨trivial, trivial, trivial⟩, fun _ other => by cases other⟩, _, rfl,
      ⟨⟨trivial, fun thread same => Option.some.inj same ▸ le_refl 3, trivial⟩,
        fun _ other => by cases other⟩, _, rfl,
      ⟨⟨trivial, trivial, trivial⟩, fun _ other => by cases other⟩, _, rfl, rfl⟩
  exact .follows _ (.start freshRun_initial) follows

/-- The node crashes when a snapshot of the first entry has been published. -/
theorem restart_recovers_saved :
    ∃ (run : CrashRun Nat Nat) (restarted : LogManager Nat Nat LogId),
      run.published = some LogManager.firstSnapshot ∧ run.restarted = some restarted ∧
        restarted.ReadsBack (dataEntry 2 1) ∧ restarted.ReadsBack (dataEntry 3 1) := by
  have follows : ∃ run, (system : TransitionSystem (CrashRun Nat Nat) (Action Nat Nat)).Follows
      [.log (.setAppliedId { index := 1, term := 1 }), .doSnapshot 1,
        .onSnapshotSaveDone 0 LogManager.firstSnapshot, .closeWriter true] writtenRun run ∧
      run.published = some LogManager.firstSnapshot ∧
      run.log.manager.storage = { first := 1, entries := threeEntries } ∧
      run.log.answered = threeEntries.map (fun entry => ({}, entry)) := by
    exact ⟨_, ⟨⟨⟨Or.inr (Or.inr ⟨by decide, by decide, dataEntry 1 1, rfl, rfl⟩), trivial, trivial⟩,
        fun _ other => by cases other⟩, _, rfl, trivial, _, rfl, trivial, _, rfl, trivial, _, rfl,
      rfl⟩, rfl, rfl, rfl⟩
  obtain ⟨run, follows, isPublished, isStorage, isAnswered⟩ := follows
  obtain ⟨restarted, isRestarted, _, reads, _⟩ :=
    restart_recovers (.follows _ writtenRun_reachable follows)
  have agrees : LogManager.Agrees run.log.manager.storage run.published := by
    rw [isPublished, isStorage]
    intro snapshot isSnapshot entry found
    obtain rfl := Option.some.inj isSnapshot
    obtain rfl := Option.some.inj found
    rfl
  have reads := reads agrees
  rw [isAnswered, isPublished] at reads
  exact ⟨run, restarted, isPublished, isRestarted,
    reads ({}, dataEntry 2 1) (by decide) (by decide) (by decide),
    reads ({}, dataEntry 3 1) (by decide) (by decide) (by decide)⟩

/-- The restarted manager has no entry that had been answered behind the snapshot. -/
def Loses (run : CrashRun Nat Nat) : Prop :=
  ∃ restarted, run.restarted = some restarted ∧ ∃ answer ∈ run.log.answered,
    LogManager.publishedIndex run.published < answer.2.id.index ∧
      restarted.getEntry answer.2.id.index = none

def appliedRun : CrashRun Nat Nat :=
  { log :=
      { manager :=
          { freshRun.log.manager with
            lastLogIndex := 1
            appliedId := { index := 1, term := 1 }
            logsInMemory := [dataEntry 1 1]
            clearing := [{}]
            accepted := [dataEntry 1 1]
            diskQueue := [.append (.queued {} [dataEntry 1 1] [dataEntry 1 1])] } } }

theorem firstEntry_placed (position : Nat) (entry : LogEntry Nat Nat)
    (found : [dataEntry 1 1][position]? = some entry) : entry = dataEntry (position + 1) 1 := by
  match position with
  | 0 => exact (Option.some.inj found).symm
  | position + 1 => simp at found

theorem appliedRun_reachable :
    (system : TransitionSystem (CrashRun Nat Nat) (Action Nat Nat)).Reachable appliedRun := by
  have appendable : freshRun.log.manager.Appendable [dataEntry 1 1] :=
    firstTerm_appendable firstEntry_placed freshRun_empty (by decide)
  have follows : (system : TransitionSystem (CrashRun Nat Nat) (Action Nat Nat)).Follows
      [.log (.appendEntries {} [dataEntry 1 1] false),
        .log (.setAppliedId { index := 1, term := 1 })] freshRun appliedRun := by
    exact ⟨⟨⟨appendable, trivial, rfl⟩, fun _ other => by cases other⟩, _, rfl,
      ⟨⟨Or.inr (Or.inr ⟨by decide, by decide, dataEntry 1 1, rfl, rfl⟩), trivial, trivial⟩,
        fun _ other => by cases other⟩, _, rfl, rfl⟩
  exact .follows _ (.start freshRun_initial) follows

theorem unwritten_loses :
    ∃ run : CrashRun Nat Nat, (system : TransitionSystem _ (Action Nat Nat)).Reachable run ∧
      run.published = none ∧ Loses run := by
  have appendable : appliedRun.log.manager.Appendable [dataEntry 1 1] := by
    refine firstTerm_appendable firstEntry_placed ?_ (le_refl 1)
    intro index found read
    unfold LogManager.getEntry at read
    split at read
    · contradiction
    · rename_i inside
      have inside : ¬ (1 < index ∨ index < 1) := inside
      obtain rfl : index = 1 := by omega
      exact (Option.some.inj read).symm
  have follows : ∃ run, (system : TransitionSystem (CrashRun Nat Nat) (Action Nat Nat)).Follows
      [.log (.appendEntries { index := 1, term := 1 } [dataEntry 1 1] false),
        .log (.runAsync 0)] appliedRun run ∧
      run.published = none ∧ run.log.answered = [({ index := 1, term := 1 }, dataEntry 1 1)] ∧
      run.log.manager.storage = .empty := by
    exact ⟨_, ⟨⟨⟨appendable, trivial, rfl⟩, fun _ other => by cases other⟩, _, rfl,
      ⟨⟨trivial, trivial, trivial⟩, fun _ other => by cases other⟩, _, rfl, rfl⟩, rfl, rfl, rfl⟩
  obtain ⟨run, follows, isPublished, isAnswered, isStorage⟩ := follows
  refine ⟨run, .follows _ appliedRun_reachable follows, isPublished, ?_⟩
  unfold Loses restarted
  rw [isPublished, isAnswered, isStorage]
  exact ⟨_, rfl, _, List.mem_cons_self, Nat.one_pos, rfl⟩

def otherTermSnapshot : SnapshotMeta Nat := { lastIncludedIndex := 2, lastIncludedTerm := 2 }

theorem otherTerm_loses :
    ∃ run : CrashRun Nat Nat, (system : TransitionSystem _ (Action Nat Nat)).Reachable run ∧
      run.published = some otherTermSnapshot ∧ Loses run := by
  have follows : ∃ run, (system : TransitionSystem (CrashRun Nat Nat) (Action Nat Nat)).Follows
      [.registerDownloadingSnapshot otherTermSnapshot, .copierFinishes true true]
        writtenRun run ∧
      run.published = some otherTermSnapshot ∧
      run.log.answered = threeEntries.map (fun entry => ({}, entry)) ∧
      run.log.manager.storage = { first := 1, entries := threeEntries } := by
    exact ⟨_, ⟨trivial, _, rfl, trivial, _, rfl, rfl⟩, rfl, rfl, rfl⟩
  obtain ⟨run, follows, isPublished, isAnswered, isStorage⟩ := follows
  refine ⟨run, .follows _ writtenRun_reachable follows, isPublished, ?_⟩
  unfold Loses restarted
  rw [isPublished, isAnswered, isStorage]
  exact ⟨_, rfl, ({}, dataEntry 3 1), by decide, by decide, rfl⟩

theorem restart_loses_answered :
    (∃ run : CrashRun Nat Nat, (system : TransitionSystem _ (Action Nat Nat)).Reachable run ∧
      run.published = none ∧ Loses run) ∧
    ∃ run : CrashRun Nat Nat, (system : TransitionSystem _ (Action Nat Nat)).Reachable run ∧
      run.published = some otherTermSnapshot ∧ Loses run :=
  ⟨unwritten_loses, otherTerm_loses⟩

end CrashRun

end QuorumKit
