/-
The meta that `FSMCaller::do_snapshot_save` gives to the state machine.

The caller runs beside a log manager whose other threads go on: `do_committed` is split at
each call of `get_entry` and `get_term`, the load of a snapshot before `set_snapshot`, and
a saved snapshot is set at any later time.  A ghost keeps what has been applied, entry by
entry.
-/

import QuorumKit.Fsm.FSMCaller
import QuorumKit.LogManager.FollowedLog
import QuorumKit.LogManager.FollowerAppend

namespace QuorumKit

variable {P D C : Type}

/-! ### What is applied -/

structure Applied (P : Type) where
  id : LogId
  conf : Configuration P × Configuration P

namespace Applied

variable [DecidableEq P]

def ofSnapshot (snapshot : SnapshotMeta P) : Applied P :=
  { id := snapshot.id
    conf := (ConfigurationEntry.ofSnapshot snapshot).content }

def entry (applied : Applied P) (entry : LogEntry P D) : Applied P :=
  { id := entry.id
    conf :=
      if entry.type = .configuration then (ConfigurationEntry.ofLogEntry entry).content
      else applied.conf }

end Applied

/-- The meta carries the last applied entry and the configuration in effect at it. -/
def SnapshotMeta.Exact [DecidableEq P] (snapshot : SnapshotMeta P) (applied : Applied P) : Prop :=
  Applied.ofSnapshot snapshot = applied

/-! ### The caller between its calls of the log manager -/

/-- `set_error_and_rollback`. -/
def IteratorImpl.setErrorAndRollback {K : Type} (iter : IteratorImpl P D K) (ntail : Nat) :
    IteratorImpl P D K :=
  { iter with
    curIndex :=
      if iter.curEntry.any (fun entry => entry.type = .data) then iter.curIndex - (ntail - 1)
      else iter.curIndex - ntail
    curEntry := none
    hasError := true }

inductive FSMTask (P D : Type) where
  | idle
  /-- The loop of `do_committed`. -/
  | committing (iter : IteratorImpl P D Unit)
  /-- Before `set_applied_id`. -/
  | committed (appliedId : LogId)
  /-- Before `done->Run()` of `do_snapshot_load`, which sets the snapshot. -/
  | loading (snapshot : SnapshotMeta P)

/-- How the steps of `do_snapshot_load` go. -/
inductive SnapshotLoading (P : Type) where
  | noReader
  | badMeta (ret : Int)
  | opened (snapshot : SnapshotMeta P) (ret : Int)

/-- `lastAppliedId` is `_last_applied_index` with `_last_applied_term`.  `saved` keeps the
metas that the state machine was given, with what had been applied then. -/
structure SnapshotMetaRun (P D C : Type) where
  logManager : ConfigurationRun P D C
  task : FSMTask P D := .idle
  lastAppliedId : LogId
  error : Bool := false
  applied : Applied P
  saved : List (SnapshotMeta P × Applied P) := []

namespace SnapshotMetaRun

variable [DecidableEq P]

/-- The meta of `do_snapshot_save`. -/
def snapshotMeta (run : SnapshotMetaRun P D C) : SnapshotMeta P :=
  let confEntry := run.logManager.manager.configManager.get run.lastAppliedId.index
  { lastIncludedIndex := run.lastAppliedId.index
    lastIncludedTerm := run.lastAppliedId.term
    peers := confEntry.conf.peers
    oldPeers := confEntry.oldConf.peers }

def callLogManager (run : SnapshotMetaRun P D C) (action : LogManager.Action P D C) :
    Option (SnapshotMetaRun P D C) :=
  (ConfigurationRun.step action run.logManager).map (fun after => { run with logManager := after })

/-- `do_committed` up to the first entry. -/
def doCommitted (run : SnapshotMetaRun P D C) (committedIndex : Nat) :
    Option (SnapshotMetaRun P D C) :=
  match run.task with
  | .idle =>
      if run.error ∨ committedIndex ≤ run.lastAppliedId.index then some run
      else
        some
          { run with
            task := .committing (IteratorImpl.init [] 0 run.lastAppliedId.index committedIndex
              run.logManager.manager.getEntry) }
  | _ => none

def next (run : SnapshotMetaRun P D C) : Option (SnapshotMetaRun P D C) :=
  match run.task with
  | .committing iter =>
      if iter.isGood then
        iter.curEntry.map (fun entry =>
          { run with
            task := .committing (iter.next run.logManager.manager.getEntry)
            applied := run.applied.entry entry })
      else none
  | _ => none

def setErrorAndRollback (run : SnapshotMetaRun P D C) (ntail : Nat) :
    Option (SnapshotMetaRun P D C) :=
  match run.task with
  | .committing iter =>
      if ntail = 0 then none
      else some { run with task := .committing (iter.setErrorAndRollback ntail) }
  | _ => none

/-- The end of `do_committed` up to `set_applied_id`. -/
def finishCommitted (run : SnapshotMetaRun P D C) : Option (SnapshotMetaRun P D C) :=
  match run.task with
  | .committing iter =>
      if iter.isGood then none
      else
        let lastTerm := run.logManager.manager.getTerm (iter.curIndex - 1)
        some
          { run with
            task := .committed { index := iter.curIndex - 1, term := lastTerm }
            lastAppliedId := { index := iter.committedIndex, term := lastTerm }
            error := run.error || iter.hasError }
  | _ => none

def setAppliedId (run : SnapshotMetaRun P D C) : Option (SnapshotMetaRun P D C) :=
  match run.task with
  | .committed appliedId =>
      (run.callLogManager (.setAppliedId appliedId)).map (fun after => { after with task := .idle })
  | _ => none

/-- `pass_by_status` skips a snapshot while there is an error.  An error of the log manager
is an urgent task, which comes before the next save. -/
def doSnapshotSave (run : SnapshotMetaRun P D C) : Option (SnapshotMetaRun P D C) :=
  match run.task with
  | .idle =>
      if run.error then some run
      else if run.logManager.manager.hasError then none
      else some { run with saved := (run.snapshotMeta, run.applied) :: run.saved }
  | _ => none

def loadSnapshot (run : SnapshotMetaRun P D C) : SnapshotLoading P → SnapshotMetaRun P D C
  | .noReader => run
  | .badMeta ret => if ret = EIO then { run with error := true } else run
  | .opened snapshot ret =>
      if snapshot.id < run.lastAppliedId then run
      else if ret ≠ 0 then { run with error := true }
      else
        { run with
          task := .loading snapshot
          lastAppliedId := snapshot.id
          applied := .ofSnapshot snapshot }

/-- `do_snapshot_load` up to `done->Run()`. -/
def doSnapshotLoad (run : SnapshotMetaRun P D C) (loading : SnapshotLoading P) :
    Option (SnapshotMetaRun P D C) :=
  match run.task with
  | .idle => some (if run.error then run else run.loadSnapshot loading)
  | _ => none

def loadDone (run : SnapshotMetaRun P D C) : Option (SnapshotMetaRun P D C) :=
  match run.task with
  | .loading snapshot =>
      (run.callLogManager (.setSnapshot snapshot)).map (fun after => { after with task := .idle })
  | _ => none

/-- A saved snapshot is set by the bthread of `SaveSnapshotDone`. -/
def saveDone (run : SnapshotMetaRun P D C) (snapshot : SnapshotMeta P) :
    Option (SnapshotMetaRun P D C) :=
  if snapshot ∈ run.saved.map Prod.fst then run.callLogManager (.setSnapshot snapshot) else none

def doOnError (run : SnapshotMetaRun P D C) : Option (SnapshotMetaRun P D C) :=
  match run.task with
  | .idle => some { run with error := true }
  | _ => none

inductive Action (P D C : Type) where
  | logManager (action : LogManager.Action P D C)
  | onCommitted (committedIndex : Nat)
  | next
  | setErrorAndRollback (ntail : Nat)
  | finish
  | setAppliedId
  | onSnapshotSave
  | onSnapshotLoad (loading : SnapshotLoading P)
  | loadDone
  | saveDone (snapshot : SnapshotMeta P)
  | onError

def step (action : Action P D C) (run : SnapshotMetaRun P D C) : Option (SnapshotMetaRun P D C) :=
  match action with
  | .logManager action => run.callLogManager action
  | .onCommitted committedIndex => run.doCommitted committedIndex
  | .next => run.next
  | .setErrorAndRollback ntail => run.setErrorAndRollback ntail
  | .finish => run.finishCommitted
  | .setAppliedId => run.setAppliedId
  | .onSnapshotSave => run.doSnapshotSave
  | .onSnapshotLoad loading => run.doSnapshotLoad loading
  | .loadDone => run.loadDone
  | .saveDone snapshot => run.saveDone snapshot
  | .onError => run.doOnError

def bound (run : SnapshotMetaRun P D C) : Nat :=
  match run.task with
  | .committing iter => iter.committedIndex
  | .committed appliedId => appliedId.index
  | _ => 0

/-- Batches have the committed entries.  A snapshot to load comes from the same committed
log and carries the configuration in effect at its index. -/
def Allowed (action : Action P D C) (run : SnapshotMetaRun P D C) : Prop :=
  match action with
  | .logManager action =>
      ConfigurationRun.Others action ∧ LogManager.Allowed action run.logManager.manager ∧
        ConfigurationRun.HasCommitted run.bound run.logManager.log action
  | .onSnapshotLoad (.opened snapshot _) =>
      (LogManager.InOrder run.lastAppliedId snapshot.id ∨
        LogManager.InOrder snapshot.id run.lastAppliedId) ∧
        (snapshot.lastIncludedIndex = run.lastAppliedId.index →
          (ConfigurationEntry.ofSnapshot snapshot).content = run.applied.conf)
  | .loadDone => ∀ snapshot, run.task = .loading snapshot →
      ConfigurationRun.Carries (.setSnapshot snapshot : LogManager.Action P D C) run.logManager
  | _ => True

/-- After `init`, and after the first snapshot has been loaded if there is one. -/
structure Initial (run : SnapshotMetaRun P D C) : Prop where
  logManager : ConfigurationRun.Initial run.logManager
  task : run.task = .idle
  lastAppliedId : run.lastAppliedId = run.logManager.manager.lastSnapshotId
  error : run.error = false
  applied : run.applied =
    { id := run.logManager.manager.lastSnapshotId
      conf := run.logManager.manager.configManager.snapshot.content }
  saved : run.saved = []

def system : TransitionSystem (SnapshotMetaRun P D C) (Action P D C) :=
  { init := Initial
    allowed := Allowed
    step := step }

/-- `set_snapshot` reads the term of the applied entry that the snapshot ends with. -/
def ReadsSaved (action : Action P D C) (run : SnapshotMetaRun P D C) : Prop :=
  match action with
  | .saveDone snapshot =>
      run.logManager.manager.lastSnapshotId.index < snapshot.lastIncludedIndex →
        run.logManager.manager.getTerm snapshot.lastIncludedIndex = snapshot.lastIncludedTerm
  | _ => True

def SavesExact (run : SnapshotMetaRun P D C) : Prop :=
  ∀ snapshot applied, (snapshot, applied) ∈ run.saved → snapshot.Exact applied

structure Founded (run : ConfigurationRun P D C) : Prop where
  tracked : ConfigurationRun.Tracked run
  durable : LogManager.Durable run.manager
  isLog : run.log = run.manager.logicalLog
  reach : run.manager.appliedId.index < run.log.stop

structure Reached (run : ConfigurationRun P D C) (applied : Applied P) : Prop where
  inside : applied.id = run.manager.appliedId ∨ run.manager.appliedId.index < applied.id.index ∧
    ∃ entry, run.log.getEntry applied.id.index = some entry ∧ entry.id = applied.id
  conf : applied.conf = (effective run.history applied.id.index).content
  term : run.manager.lastSnapshotId.index < applied.id.index → 0 < applied.id.term

structure Ahead (run : ConfigurationRun P D C) (applied : Applied P)
    (iter : IteratorImpl P D Unit) : Prop where
  reached : Reached run applied
  behind : run.manager.appliedId.index < iter.committedIndex
  next : iter.curIndex = applied.id.index + 1
  upper : iter.curIndex ≤ iter.committedIndex + 1
  entry : iter.curIndex ≤ iter.committedIndex →
    ∃ entry, iter.curEntry = some entry ∧ run.log.getEntry iter.curIndex = some entry

def Progress (run : SnapshotMetaRun P D C) : Prop :=
  match run.task with
  | .idle => run.applied.id = run.lastAppliedId ∧
      run.logManager.manager.appliedId = run.lastAppliedId ∧ Reached run.logManager run.applied
  | .committing iter => run.logManager.manager.appliedId = run.lastAppliedId ∧
      (iter.hasError = false → Ahead run.logManager run.applied iter)
  | .committed appliedId => run.applied.id = appliedId ∧ run.lastAppliedId = appliedId ∧
      run.logManager.manager.appliedId.index < appliedId.index ∧ Reached run.logManager run.applied
  | .loading snapshot => run.applied = .ofSnapshot snapshot ∧ run.lastAppliedId = snapshot.id ∧
      LogManager.InOrder run.logManager.manager.appliedId snapshot.id ∧
      (snapshot.id = run.logManager.manager.appliedId → Reached run.logManager run.applied)

structure Pending (run : ConfigurationRun P D C) (snapshot : SnapshotMeta P) : Prop where
  inOrder : LogManager.InOrder snapshot.id run.manager.appliedId
  newer : run.manager.lastSnapshotId.index < snapshot.lastIncludedIndex →
    0 < snapshot.lastIncludedTerm ∧ (ConfigurationEntry.ofSnapshot snapshot).content =
      (effective run.history snapshot.lastIncludedIndex).content

structure Going (run : SnapshotMetaRun P D C) : Prop where
  founded : Founded run.logManager
  progress : Progress run
  pending : ∀ snapshot ∈ run.saved.map Prod.fst, Pending run.logManager snapshot

structure Kept (run : SnapshotMetaRun P D C) : Prop where
  exact : run.SavesExact
  going : run.error = false → run.logManager.manager.hasError = false → Going run

variable {run after : SnapshotMetaRun P D C} {logs logs' : ConfigurationRun P D C}
  {applied : Applied P} {bound : Nat}

/-! ### Calls of the log manager -/

theorem Founded.tracks (founded : Founded logs) (works : logs.manager.hasError = false) :
    LogManager.Tracks (logs.manager.appliedId.index + 1) logs.manager logs.log ∧
      LogManager.Ordered logs.manager.appliedId logs.log := by
  obtain ⟨sound, ordered⟩ := founded.durable.soundLog works
  rw [founded.isLog]
  exact ⟨sound.toTracks, ordered⟩

theorem Reached.inOrder (founded : Founded logs) (works : logs.manager.hasError = false)
    (reached : Reached logs applied) : LogManager.InOrder logs.manager.appliedId applied.id := by
  rcases reached.inside with same | ⟨above, entry, found, isEntry⟩
  · exact Or.inl same.symm
  · have notOlder := (founded.tracks works).2.notOlder _ _ found above
    rw [isEntry] at notOlder
    exact Or.inr ⟨above, notOlder⟩

theorem Reached.lt_stop (founded : Founded logs) (reached : Reached logs applied) :
    applied.id.index < logs.log.stop := by
  rcases reached.inside with same | ⟨_, entry, found, _⟩
  · rw [same]
    exact founded.reach
  · exact (IndexedLog.get?_bounds found).2

theorem Reached.keeps (founded : Founded logs) (reached : Reached logs applied)
    (keeps : ConfigurationRun.Keeps bound logs logs')
    (behind : applied.id.index ≤ max bound logs.manager.appliedId.index) :
    Reached logs' applied := by
  constructor
  · rw [keeps.applied]
    rcases reached.inside with same | ⟨above, entry, found, isEntry⟩
    · exact Or.inl same
    · exact Or.inr ⟨above, entry, keeps.entries _ entry above (by omega) found, isEntry⟩
  · rw [keeps.effective _ behind (reached.lt_stop founded)]
    exact reached.conf
  · exact fun newer => reached.term (keeps.snapshot.trans_lt newer)

theorem Pending.keeps {snapshot : SnapshotMeta P} (founded : Founded logs)
    (pending : Pending logs snapshot) (keeps : ConfigurationRun.Keeps bound logs logs') :
    Pending logs' snapshot := by
  constructor
  · rw [keeps.applied]
    exact pending.inOrder
  · intro newer
    obtain ⟨positive, content⟩ := pending.newer (keeps.snapshot.trans_lt newer)
    have behind : snapshot.lastIncludedIndex ≤ logs.manager.appliedId.index :=
      pending.inOrder.index_le
    rw [keeps.effective _ (behind.trans (le_max_right _ _)) (behind.trans_lt founded.reach)]
    exact ⟨positive, content⟩

theorem Going.keeps (going : Going run) (founded : Founded logs)
    (keeps : ConfigurationRun.Keeps run.bound run.logManager logs) :
    Going { run with logManager := logs } := by
  have progress := going.progress
  refine ⟨founded, ?_, fun snapshot member => (going.pending snapshot member).keeps going.founded keeps⟩
  unfold bound at keeps
  unfold Progress at progress ⊢
  cases isTask : run.task with
  | idle =>
      rw [isTask] at progress keeps
      obtain ⟨atApplied, isApplied, reached⟩ := progress
      refine ⟨atApplied, keeps.applied.trans isApplied, reached.keeps going.founded keeps ?_⟩
      rw [atApplied, isApplied]
      exact le_max_right _ _
  | committing iter =>
      rw [isTask] at progress keeps
      obtain ⟨isApplied, ahead⟩ := progress
      refine ⟨keeps.applied.trans isApplied, fun noError => ?_⟩
      obtain ⟨reached, behind, next, upper, entry⟩ := ahead noError
      refine ⟨reached.keeps going.founded keeps ?_, ?_, next, upper, ?_⟩
      · change run.applied.id.index ≤ max iter.committedIndex _
        omega
      · rw [keeps.applied]
        exact behind
      · intro inside
        obtain ⟨current, isCurrent, found⟩ := entry inside
        have above : run.logManager.manager.appliedId.index ≤ run.applied.id.index := by
          rcases reached.inside with same | ⟨above, _⟩
          · rw [same]
          · exact above.le
        exact ⟨current, isCurrent, keeps.entries _ current (by omega) inside found⟩
  | committed appliedId =>
      rw [isTask] at progress keeps
      obtain ⟨atApplied, isLast, above, reached⟩ := progress
      refine ⟨atApplied, isLast, ?_, reached.keeps going.founded keeps ?_⟩
      · rw [keeps.applied]
        exact above
      · rw [atApplied]
        exact le_max_left _ _
  | loading snapshot =>
      rw [isTask] at progress keeps
      obtain ⟨isLoaded, isLast, inOrder, again⟩ := progress
      refine ⟨isLoaded, isLast, ?_, ?_⟩
      · rw [keeps.applied]
        exact inOrder
      · rw [keeps.applied]
        intro same
        refine (again same).keeps going.founded keeps ?_
        rw [isLoaded]
        change snapshot.id.index ≤ _
        rw [same]
        exact le_max_right _ _

theorem Founded.step {action : LogManager.Action P D C} (founded : Founded logs)
    (allowed : LogManager.Allowed action logs.manager) (tracked : ConfigurationRun.Tracked logs')
    (stepped : ConfigurationRun.step action logs = some logs')
    (works : logs'.manager.hasError = false)
    (reach : logs'.manager.appliedId.index < logs'.log.stop) : Founded logs' := by
  obtain ⟨manager', moved, rfl⟩ := Option.map_eq_some_iff.mp stepped
  exact ⟨tracked, founded.durable.step allowed moved,
    ConfigurationRun.follow_logicalLog founded.durable founded.isLog moved works, reach⟩

theorem worked_before {action : LogManager.Action P D C}
    (stepped : ConfigurationRun.step action logs = some logs')
    (works : logs'.manager.hasError = false) : logs.manager.hasError = false := by
  obtain ⟨manager', moved, rfl⟩ := Option.map_eq_some_iff.mp stepped
  by_contra failed
  have stays := LogManager.hasError_kept moved (Bool.not_eq_false _ ▸ failed)
  exact absurd (stays.symm.trans works) (by decide)

theorem Kept.logManager {action : LogManager.Action P D C} (kept : Kept run)
    (allowed : Allowed (.logManager action) run)
    (stepped : run.callLogManager action = some after) : Kept after := by
  obtain ⟨logs, called, rfl⟩ := Option.map_eq_some_iff.mp stepped
  obtain ⟨others, isAllowed, committed⟩ := allowed
  refine ⟨kept.exact, fun noError works => ?_⟩
  have worked := worked_before called works
  have going := kept.going noError worked
  obtain ⟨manager', moved, rfl⟩ := Option.map_eq_some_iff.mp called
  have keeps : ConfigurationRun.Keeps run.bound run.logManager
      (run.logManager.follow action manager') :=
    ConfigurationRun.keeps_of_step going.founded.tracked (going.founded.tracks worked).1 isAllowed
      committed others moved
  have carries : ConfigurationRun.Carries action run.logManager := by
    cases action with
    | setSnapshot snapshot => exact others.elim
    | _ => trivial
  refine going.keeps (going.founded.step isAllowed
    (going.founded.tracked.step isAllowed carries called) called works ?_) keeps
  rw [keeps.applied]
  exact keeps.reach going.founded.reach

theorem Kept.saveDone {snapshot : SnapshotMeta P} (kept : Kept run)
    (reads : ReadsSaved (.saveDone snapshot : Action P D C) run)
    (stepped : run.saveDone snapshot = some after) : Kept after := by
  unfold SnapshotMetaRun.saveDone at stepped
  split_ifs at stepped with member
  obtain ⟨logs, called, rfl⟩ := Option.map_eq_some_iff.mp stepped
  refine ⟨kept.exact, fun noError works => ?_⟩
  have worked := worked_before called works
  have going := kept.going noError worked
  have pending := going.pending snapshot member
  obtain ⟨manager', moved, rfl⟩ := Option.map_eq_some_iff.mp called
  have isAllowed : LogManager.Allowed (.setSnapshot snapshot) run.logManager.manager :=
    Or.inr (Or.inr pending.inOrder)
  have windowed := going.founded.tracked.windowed.step isAllowed moved
  have tracked : ConfigurationRun.Tracked
      (run.logManager.follow (.setSnapshot snapshot) manager') :=
    going.founded.tracked.setSnapshot windowed (fun newer _ _ => (pending.newer newer).2) moved
  have keeps : ConfigurationRun.Keeps run.bound run.logManager
      (run.logManager.follow (.setSnapshot snapshot) manager') :=
    ConfigurationRun.Keeps.setSnapshot going.founded.tracked pending.inOrder
      (fun newer => ⟨(pending.newer newer).1, reads newer⟩) moved
  refine going.keeps (going.founded.step isAllowed tracked called works ?_) keeps
  rw [keeps.applied]
  exact keeps.reach going.founded.reach

/-! ### Committed entries -/

theorem getEntry_of_read (founded : Founded logs) (works : logs.manager.hasError = false)
    {index : Nat} (above : logs.manager.appliedId.index < index) {entry : LogEntry P D}
    (read : logs.manager.getEntry index = some entry) : logs.log.getEntry index = some entry := by
  rw [← (founded.tracks works).1.toHolds.getEntry_eq (by omega)]
  exact read

theorem Ahead.of_next {iter : IteratorImpl P D Unit} (founded : Founded logs)
    (works : logs.manager.hasError = false) (reached : Reached logs applied)
    (behind : logs.manager.appliedId.index < iter.committedIndex)
    (atApplied : iter.curIndex = applied.id.index)
    (upper : iter.curIndex ≤ iter.committedIndex)
    (noError : (iter.next logs.manager.getEntry).hasError = false) :
    Ahead logs applied (iter.next logs.manager.getEntry) := by
  have above : logs.manager.appliedId.index ≤ applied.id.index :=
    (reached.inOrder founded works).index_le
  unfold IteratorImpl.next at noError ⊢
  rw [if_pos upper] at noError ⊢
  by_cases inside : iter.curIndex + 1 ≤ iter.committedIndex
  · rw [if_pos inside] at noError ⊢
    refine ⟨reached, behind, congrArg Nat.succ atApplied, Nat.succ_le_succ upper, fun _ => ?_⟩
    cases isRead : logs.manager.getEntry (iter.curIndex + 1) with
    | none => simp [isRead] at noError
    | some entry =>
        have next : logs.manager.appliedId.index < iter.curIndex + 1 := by omega
        exact ⟨entry, rfl, getEntry_of_read founded works next isRead⟩
  · rw [if_neg inside] at noError ⊢
    exact ⟨reached, behind, congrArg Nat.succ atApplied, Nat.succ_le_succ upper,
      fun within => absurd within inside⟩

theorem Kept.doCommitted {committedIndex : Nat} (kept : Kept run)
    (stepped : run.doCommitted committedIndex = some after) : Kept after := by
  cases isTask : run.task with
  | idle =>
      simp only [SnapshotMetaRun.doCommitted, isTask] at stepped
      split_ifs at stepped with late
      · obtain rfl := Option.some.inj stepped
        exact kept
      · obtain rfl := Option.some.inj stepped
        refine ⟨kept.exact, fun noError works => ?_⟩
        have going := kept.going noError works
        have progress := going.progress
        unfold Progress at progress
        rw [isTask] at progress
        obtain ⟨atApplied, isApplied, reached⟩ := progress
        refine ⟨going.founded, ⟨isApplied, fun noError => ?_⟩, going.pending⟩
        rw [not_or, not_le] at late
        have behind : run.logManager.manager.appliedId.index < committedIndex := by
          rw [isApplied]
          exact late.2
        exact Ahead.of_next going.founded works reached behind
          (congrArg LogId.index atApplied.symm) late.2.le noError
  | _ => simp [SnapshotMetaRun.doCommitted, isTask] at stepped

theorem Ahead.apply {iter : IteratorImpl P D Unit} {entry : LogEntry P D}
    (founded : Founded logs) (works : logs.manager.hasError = false)
    (ahead : Ahead logs applied iter) (inside : iter.curIndex ≤ iter.committedIndex)
    (isCurrent : iter.curEntry = some entry) :
    entry.id.index = iter.curIndex ∧ Reached logs (applied.entry entry) := by
  obtain ⟨current, isEntry, found⟩ := ahead.entry inside
  rw [isCurrent] at isEntry
  obtain rfl := Option.some.inj isEntry
  obtain ⟨placed, positive⟩ := founded.tracked.wellFormed.indexed _ _ found
  have above := (ahead.reached.inOrder founded works).index_le
  have next := ahead.next
  have atIndex : (applied.entry entry).id.index = iter.curIndex := placed
  refine ⟨placed, Or.inr ⟨by omega, entry, ?_, rfl⟩, ?_, fun _ => positive⟩
  · rw [atIndex]
    exact found
  · rw [atIndex, founded.tracked.toRecorded.effective_entry found]
    unfold Applied.entry
    simp only
    split_ifs
    · rfl
    · rw [ahead.reached.conf, next, Nat.add_sub_cancel]

theorem Kept.next (kept : Kept run) (stepped : run.next = some after) : Kept after := by
  cases isTask : run.task with
  | committing iter =>
      simp only [SnapshotMetaRun.next, isTask] at stepped
      split_ifs at stepped with isGood
      obtain ⟨entry, isCurrent, rfl⟩ := Option.map_eq_some_iff.mp stepped
      refine ⟨kept.exact, fun noError works => ?_⟩
      have going := kept.going noError works
      have progress := going.progress
      unfold Progress at progress
      rw [isTask] at progress
      obtain ⟨isApplied, ahead⟩ := progress
      have good := of_decide_eq_true isGood
      have ahead := ahead good.2
      obtain ⟨atIndex, reached⟩ := ahead.apply going.founded works good.1 isCurrent
      refine ⟨going.founded, ⟨isApplied, fun noError => ?_⟩, going.pending⟩
      exact Ahead.of_next going.founded works reached ahead.behind atIndex.symm good.1 noError
  | _ => simp [SnapshotMetaRun.next, isTask] at stepped

theorem Kept.setErrorAndRollback {ntail : Nat} (kept : Kept run)
    (stepped : run.setErrorAndRollback ntail = some after) : Kept after := by
  cases isTask : run.task with
  | committing iter =>
      simp only [SnapshotMetaRun.setErrorAndRollback, isTask] at stepped
      split_ifs at stepped
      obtain rfl := Option.some.inj stepped
      refine ⟨kept.exact, fun noError works => ?_⟩
      have going := kept.going noError works
      have progress := going.progress
      unfold Progress at progress
      rw [isTask] at progress
      exact ⟨going.founded, ⟨progress.1, nofun⟩, going.pending⟩
  | _ => simp [SnapshotMetaRun.setErrorAndRollback, isTask] at stepped

theorem Kept.finishCommitted (kept : Kept run) (stepped : run.finishCommitted = some after) :
    Kept after := by
  cases isTask : run.task with
  | committing iter =>
      simp only [SnapshotMetaRun.finishCommitted, isTask] at stepped
      split_ifs at stepped with isGood
      obtain rfl := Option.some.inj stepped
      refine ⟨kept.exact, fun noError works => ?_⟩
      obtain ⟨noError, iterates⟩ := Bool.or_eq_false_iff.mp noError
      have going := kept.going noError works
      have progress := going.progress
      unfold Progress at progress
      rw [isTask] at progress
      obtain ⟨isApplied, ahead⟩ := progress
      have ahead := ahead iterates
      have past : iter.committedIndex < iter.curIndex := by
        by_contra inside
        exact isGood (decide_eq_true ⟨not_lt.mp inside, iterates⟩)
      have next := ahead.next
      have upper := ahead.upper
      have behind := ahead.behind
      -- the last entry has been applied, and its term is read from the log
      have atEnd : run.applied.id.index = iter.curIndex - 1 := by omega
      rcases ahead.reached.inside with same | ⟨above, entry, found, isEntry⟩
      · have index := congrArg LogId.index same
        omega
      · have term : run.logManager.manager.getTerm (iter.curIndex - 1) = run.applied.id.term := by
          rw [← atEnd, (going.founded.tracks works).1.getTerm_eq (by omega) found, isEntry]
        have isId : run.applied.id = { index := iter.curIndex - 1
                                       term := run.logManager.manager.getTerm (iter.curIndex - 1) } :=
          LogId.ext_fields atEnd term.symm
        refine ⟨going.founded, ⟨isId, ?_, ?_, ahead.reached⟩, going.pending⟩
        · exact LogId.ext_fields (by simp only; omega) rfl
        · change run.logManager.manager.appliedId.index < iter.curIndex - 1
          omega
  | _ => simp [SnapshotMetaRun.finishCommitted, isTask] at stepped

theorem Kept.setAppliedId (kept : Kept run) (stepped : run.setAppliedId = some after) :
    Kept after := by
  cases isTask : run.task with
  | committed appliedId =>
      simp only [SnapshotMetaRun.setAppliedId, isTask] at stepped
      obtain ⟨called, isCalled, rfl⟩ := Option.map_eq_some_iff.mp stepped
      obtain ⟨logs, called, rfl⟩ := Option.map_eq_some_iff.mp isCalled
      refine ⟨kept.exact, fun noError works => ?_⟩
      have worked := worked_before called works
      have going := kept.going noError worked
      have progress := going.progress
      unfold Progress at progress
      rw [isTask] at progress
      obtain ⟨atApplied, isLast, above, reached⟩ := progress
      have inOrder := reached.inOrder going.founded worked
      rw [atApplied] at inOrder
      rcases reached.inside with same | ⟨_, entry, found, isEntry⟩
      · have index := congrArg LogId.index same
        rw [atApplied] at index
        omega
      · rw [atApplied] at found isEntry
        have terms : run.logManager.manager.appliedId.term ≤ appliedId.term := by
          rcases inOrder with same | ⟨_, terms⟩
          · rw [same]
          · exact terms
        have isAllowed : LogManager.Allowed (.setAppliedId appliedId) run.logManager.manager := by
          refine Or.inr (Or.inr ⟨above, terms, entry, ?_, isEntry⟩)
          rw [(going.founded.tracks worked).1.toHolds.getEntry_eq (by omega)]
          exact found
        have tracked := going.founded.tracked.step isAllowed trivial called
        have isAfter := ConfigurationRun.follow_setAppliedId called
        have set : logs.manager.appliedId = appliedId := by
          rw [isAfter]
          unfold LogManager.setAppliedId
          rw [if_neg (not_lt.mpr inOrder.le)]
        have snapshot : logs.manager.lastSnapshotId = run.logManager.manager.lastSnapshotId := by
          rw [isAfter]
          unfold LogManager.setAppliedId
          split <;> rfl
        have log : logs.log = run.logManager.log := by rw [isAfter]
        have history : logs.history = run.logManager.history := by rw [isAfter]
        have founded := going.founded.step isAllowed tracked called works (by
          rw [set, log]
          exact (IndexedLog.get?_bounds found).2)
        refine ⟨founded, ⟨atApplied.trans isLast.symm, set.trans isLast.symm, ?_⟩, ?_⟩
        · refine ⟨Or.inl (atApplied.trans set.symm), ?_, ?_⟩
          · rw [history]
            exact reached.conf
          · rw [snapshot]
            exact reached.term
        · intro snapshot' member
          have pending := going.pending snapshot' member
          constructor
          · rw [set]
            exact pending.inOrder.trans inOrder
          · rw [snapshot, history]
            exact pending.newer
  | _ => simp [SnapshotMetaRun.setAppliedId, isTask] at stepped

/-! ### Snapshots -/

theorem Kept.doSnapshotSave (kept : Kept run) (stepped : run.doSnapshotSave = some after) :
    Kept after := by
  cases isTask : run.task with
  | idle =>
      simp only [SnapshotMetaRun.doSnapshotSave, isTask] at stepped
      split_ifs at stepped with failed broken
      · obtain rfl := Option.some.inj stepped
        exact kept
      · obtain rfl := Option.some.inj stepped
        have going := kept.going (Bool.eq_false_of_not_eq_true failed)
          (Bool.eq_false_of_not_eq_true broken)
        have progress := going.progress
        unfold Progress at progress
        rw [isTask] at progress
        obtain ⟨atApplied, isApplied, reached⟩ := progress
        have behind : run.logManager.manager.lastSnapshotId.index ≤ run.lastAppliedId.index := by
          rw [← isApplied]
          exact going.founded.tracked.windowed.applied
        have inEffect := going.founded.tracked.get behind
        have content : (ConfigurationEntry.ofSnapshot run.snapshotMeta).content =
            (effective run.logManager.history run.lastAppliedId.index).content := by
          rw [← inEffect]
          unfold snapshotMeta ConfigurationEntry.ofSnapshot ConfigurationEntry.content
          simp only [Configuration.ofList_peers]
        have exact : run.snapshotMeta.Exact run.applied := by
          unfold SnapshotMeta.Exact Applied.ofSnapshot
          rw [content, ← atApplied, ← reached.conf]
          exact congrArg (fun id => Applied.mk id run.applied.conf) atApplied.symm
        refine ⟨?_, fun _ _ => ⟨going.founded, ?_, ?_⟩⟩
        · intro snapshot applied member
          rcases List.mem_cons.mp member with new | former
          · obtain ⟨rfl, rfl⟩ := Prod.mk.inj new
            exact exact
          · exact kept.exact snapshot applied former
        · exact ⟨atApplied, isApplied, reached⟩
        · intro snapshot member
          rcases List.mem_cons.mp member with rfl | former
          · refine ⟨Or.inl isApplied.symm, fun newer => ⟨?_, content⟩⟩
            have positive := reached.term
            rw [atApplied] at positive
            exact positive newer
          · exact going.pending snapshot former
  | _ => simp [SnapshotMetaRun.doSnapshotSave, isTask] at stepped

theorem Kept.doSnapshotLoad {loading : SnapshotLoading P} (kept : Kept run)
    (allowed : Allowed (.onSnapshotLoad loading : Action P D C) run)
    (stepped : run.doSnapshotLoad loading = some after) : Kept after := by
  cases isTask : run.task with
  | idle =>
      simp only [SnapshotMetaRun.doSnapshotLoad, isTask] at stepped
      obtain rfl := Option.some.inj stepped
      split_ifs with failed
      · exact kept
      · cases loading with
        | noReader => exact kept
        | badMeta ret =>
            unfold loadSnapshot
            simp only
            split_ifs
            · exact ⟨kept.exact, nofun⟩
            · exact kept
        | opened snapshot ret =>
            unfold loadSnapshot
            simp only
            split_ifs with stale broken
            · exact kept
            · exact ⟨kept.exact, nofun⟩
            · refine ⟨kept.exact, fun noError works => ?_⟩
              have going := kept.going noError works
              have progress := going.progress
              unfold Progress at progress
              rw [isTask] at progress
              obtain ⟨atApplied, isApplied, reached⟩ := progress
              have inOrder : LogManager.InOrder run.lastAppliedId snapshot.id := by
                rcases allowed.1 with later | earlier
                · exact later
                · exact Or.inl (le_antisymm (not_lt.mp stale) earlier.le)
              refine ⟨going.founded, ⟨rfl, rfl, ?_, ?_⟩, going.pending⟩
              · rw [isApplied]
                exact inOrder
              · intro same
                have sameId : snapshot.id = run.applied.id :=
                  same.trans (isApplied.trans atApplied.symm)
                have content := allowed.2 (congrArg LogId.index (sameId.trans atApplied))
                have sameApplied : Applied.ofSnapshot snapshot = run.applied := by
                  unfold Applied.ofSnapshot
                  rw [content, sameId]
                change Reached run.logManager (Applied.ofSnapshot snapshot)
                rw [sameApplied]
                exact reached
  | _ => simp [SnapshotMetaRun.doSnapshotLoad, isTask] at stepped

theorem applied_of_load {manager manager' : LogManager P D C} {snapshot : SnapshotMeta P}
    (inOrder : LogManager.InOrder manager.appliedId snapshot.id)
    (newer : manager.lastSnapshotId.index < snapshot.lastIncludedIndex)
    (stepped : manager.setSnapshot snapshot = some manager') :
    manager'.appliedId = snapshot.id := by
  rw [(LogManager.setSnapshot_ids newer stepped).2]
  change (if manager.appliedId < snapshot.id then snapshot.id else manager.appliedId) = _
  split_ifs with later
  · rfl
  · exact le_antisymm inOrder.le (not_lt.mp later)

theorem Kept.loadDone (kept : Kept run) (allowed : Allowed (.loadDone : Action P D C) run)
    (stepped : run.loadDone = some after) : Kept after := by
  cases isTask : run.task with
  | loading snapshot =>
      simp only [SnapshotMetaRun.loadDone, isTask] at stepped
      obtain ⟨called, isCalled, rfl⟩ := Option.map_eq_some_iff.mp stepped
      obtain ⟨logs, called, rfl⟩ := Option.map_eq_some_iff.mp isCalled
      refine ⟨kept.exact, fun noError works => ?_⟩
      have worked := worked_before called works
      have going := kept.going noError worked
      have progress := going.progress
      unfold Progress at progress
      rw [isTask] at progress
      obtain ⟨isLoaded, isLast, inOrder, again⟩ := progress
      have isAllowed : LogManager.Allowed (.setSnapshot snapshot) run.logManager.manager :=
        Or.inr (Or.inl inOrder)
      have carries := allowed snapshot isTask
      have tracked := going.founded.tracked.step isAllowed carries called
      obtain ⟨manager', moved, isAfter⟩ := Option.map_eq_some_iff.mp called
      by_cases newer : run.logManager.manager.lastSnapshotId.index < snapshot.lastIncludedIndex
      · obtain ⟨_, _, isSnapshot, content⟩ :=
          going.founded.tracked.toRecorded.setSnapshot carries newer moved
        have set := applied_of_load inOrder newer moved
        subst isAfter
        have last := tracked.last
        have inside := tracked.windowed.inside
        change manager'.lastSnapshotId.index ≤ manager'.lastLogIndex at inside
        rw [isSnapshot, ← set] at inside
        refine ⟨going.founded.step isAllowed tracked called works (Nat.lt_of_le_of_lt inside
          (Nat.lt_of_succ_le last.le)), ⟨?_, set.trans isLast.symm, ?_⟩, ?_⟩
        · change run.applied.id = run.lastAppliedId
          rw [isLoaded, isLast]
          rfl
        · change Reached _ run.applied
          rw [isLoaded]
          refine ⟨Or.inl set.symm, content, fun behind => ?_⟩
          change manager'.lastSnapshotId.index < snapshot.id.index at behind
          rw [isSnapshot] at behind
          exact absurd behind (lt_irrefl _)
        · intro snapshot' member
          have toLoaded := (going.pending snapshot' member).inOrder.trans inOrder
          constructor
          · change LogManager.InOrder snapshot'.id manager'.appliedId
            rw [set]
            exact toLoaded
          · intro behind
            change manager'.lastSnapshotId.index < snapshot'.lastIncludedIndex at behind
            rw [isSnapshot] at behind
            exact absurd toLoaded.index_le (not_le.mpr behind)
      · rw [ConfigurationRun.follow_stale (not_lt.mp newer) moved] at isAfter
        subst isAfter
        have applied := going.founded.tracked.windowed.applied
        have same : snapshot.id = run.logManager.manager.appliedId := by
          rcases inOrder with same | ⟨above, _⟩
          · exact same.symm
          · change _ < snapshot.lastIncludedIndex at above
            omega
        refine ⟨going.founded, ⟨?_, same.symm.trans isLast.symm, again same⟩, going.pending⟩
        change run.applied.id = run.lastAppliedId
        rw [isLoaded, isLast]
        rfl
  | _ => simp [SnapshotMetaRun.loadDone, isTask] at stepped

theorem Kept.step {action : Action P D C} (kept : Kept run) (allowed : Allowed action run)
    (reads : ReadsSaved action run) (stepped : step action run = some after) : Kept after := by
  cases action with
  | logManager action => exact kept.logManager allowed stepped
  | onCommitted committedIndex => exact kept.doCommitted stepped
  | next => exact kept.next stepped
  | setErrorAndRollback ntail => exact kept.setErrorAndRollback stepped
  | finish => exact kept.finishCommitted stepped
  | setAppliedId => exact kept.setAppliedId stepped
  | onSnapshotSave => exact kept.doSnapshotSave stepped
  | onSnapshotLoad loading => exact kept.doSnapshotLoad allowed stepped
  | loadDone => exact kept.loadDone allowed stepped
  | saveDone snapshot => exact kept.saveDone reads stepped
  | onError =>
      cases isTask : run.task with
      | idle =>
          simp only [SnapshotMetaRun.step, SnapshotMetaRun.doOnError, isTask] at stepped
          obtain rfl := Option.some.inj stepped
          exact ⟨kept.exact, nofun⟩
      | _ => simp [SnapshotMetaRun.step, SnapshotMetaRun.doOnError, isTask] at stepped

theorem founded_of_initial (initial : ConfigurationRun.Initial logs) :
    Founded logs ∧ logs.manager.appliedId = logs.manager.lastSnapshotId := by
  have tracked := initial.tracked
  have inside := tracked.windowed.inside
  have last := tracked.last
  obtain ⟨storage, configManager, dataLength, history, wellFormed, terms, loaded, start⟩ := initial
  rcases start with ⟨atOne, rfl⟩ | ⟨snapshot, newer, notOlder, carries, stepped⟩
  · have durable : LogManager.Durable (LogManager.init storage configManager dataLength :
        LogManager P D C) :=
      LogManager.Initial.durable
        ⟨storage, configManager, dataLength, wellFormed, terms, Or.inl ⟨atOne, rfl⟩⟩
    exact ⟨⟨tracked, durable, rfl, Nat.lt_of_le_of_lt inside (Nat.lt_of_succ_le last.le)⟩, rfl⟩
  · obtain ⟨manager', moved, rfl⟩ := Option.map_eq_some_iff.mp stepped
    have durable : LogManager.Durable manager' :=
      LogManager.Initial.durable ⟨storage, configManager, dataLength, wellFormed, terms,
        Or.inr ⟨snapshot, newer, notOlder, moved⟩⟩
    have isApplied : manager'.appliedId = manager'.lastSnapshotId := by
      rw [applied_of_load (Or.inr ⟨newer, Nat.zero_le _⟩) newer moved,
        (LogManager.setSnapshot_ids newer moved).1]
    refine ⟨⟨tracked, durable, ConfigurationRun.follow_front rfl moved id, ?_⟩, isApplied⟩
    change manager'.appliedId.index < _
    rw [isApplied]
    exact Nat.lt_of_le_of_lt inside (Nat.lt_of_succ_le last.le)

theorem Initial.kept (initial : Initial run) : Kept run := by
  constructor
  · intro snapshot applied member
    rw [initial.saved] at member
    exact absurd member List.not_mem_nil
  · intro _ _
    obtain ⟨founded, isApplied⟩ := founded_of_initial initial.logManager
    refine ⟨founded, ?_, ?_⟩
    · unfold Progress
      rw [initial.task, initial.lastAppliedId, initial.applied]
      exact ⟨rfl, isApplied, Or.inl isApplied.symm, founded.tracked.snapshot,
        fun behind => absurd behind (lt_irrefl _)⟩
    · rw [initial.saved]
      exact fun snapshot member => absurd member List.not_mem_nil

theorem kept_of_reachable (reached : (system.restrict ReadsSaved).Reachable run) : Kept run := by
  induction reached with
  | start initial => exact Initial.kept initial
  | next _ allowed stepped ih => exact ih.step allowed.1 allowed.2 stepped

/-- While `set_snapshot` reads the terms of the saved snapshots right, every meta is exact. -/
theorem saves_exact (reached : (system.restrict ReadsSaved).Reachable run) : run.SavesExact :=
  (kept_of_reachable reached).exact

open FlushRun (dataEntry uncommittedLog)

def thirdConfiguration : LogEntry Nat Nat :=
  { type := .configuration, id := { index := 3, term := 4 }, peers := some [1, 2], data := 0 }

def uncommittedRun : SnapshotMetaRun Nat Nat Nat :=
  { logManager := { manager := uncommittedLog, log := uncommittedLog.storage, history := [] }
    lastAppliedId := {}
    applied := { id := {}, conf := ConfigurationEntry.default.content } }

theorem uncommittedRun_initial : Initial uncommittedRun := by
  refine ⟨?_, rfl, rfl, rfl, rfl, rfl⟩
  obtain ⟨wellFormed, terms⟩ := FlushRun.uncommittedLog_storage
  refine ⟨_, .init, _, [], wellFormed, terms, ?_, Or.inl ⟨rfl, rfl⟩⟩
  exact ⟨List.Pairwise.nil, fun entry member => absurd member List.not_mem_nil, rfl,
    ⟨1, le_refl _, rfl⟩, rfl⟩

theorem thirdConfiguration_committed {bound : Nat} :
    ConfigurationRun.HasCommitted 0 uncommittedRun.logManager.log
      (.appendEntries bound [dataEntry 2 2, thirdConfiguration] false) := by
  intro entry member below
  simp only [List.mem_cons, List.not_mem_nil, or_false] at member
  rcases member with rfl | rfl
  · exact absurd below (by decide)
  · exact absurd below (by decide)

/-- The storage still has the former second entry when the snapshot that ends with the new
one is set: the log is reset, and the third entry with it. -/
theorem saves_wrong : ∃ run : SnapshotMetaRun Nat Nat Nat, system.Reachable run ∧
    ¬ run.SavesExact := by
  have follows : ∃ run : SnapshotMetaRun Nat Nat Nat, system.Follows
      [.logManager (.appendEntries 0 [dataEntry 2 2, thirdConfiguration] false),
        .onCommitted 2, .next, .next, .finish, .setAppliedId,
        .logManager (.clearMemoryLogs { index := 2, term := 2 }), .onSnapshotSave,
        .onCommitted 3, .next, .finish, .setAppliedId,
        .saveDone { lastIncludedIndex := 2, lastIncludedTerm := 2 }, .onSnapshotSave]
      uncommittedRun run ∧
      run.saved.head? = some ({ lastIncludedIndex := 3, lastIncludedTerm := 4 },
        { id := { index := 3, term := 4 }
          conf := (Configuration.ofList [1, 2], Configuration.empty) }) := by
    refine ⟨_, ⟨⟨trivial, LogManager.replacing_appendable_of rfl, thirdConfiguration_committed⟩,
      _, rfl, trivial, _, rfl, trivial, _, rfl, trivial, _, rfl, trivial, _, rfl, trivial, _, rfl,
      ⟨trivial, trivial, trivial⟩, _, rfl, trivial, _, rfl, trivial, _, rfl, trivial, _, rfl,
      trivial, _, rfl, trivial, _, rfl, trivial, _, rfl, trivial, _, rfl, rfl⟩, rfl⟩
  obtain ⟨run, follows, newest⟩ := follows
  refine ⟨run, .follows _ (.start uncommittedRun_initial) follows, fun exact => ?_⟩
  have wrong := exact _ _ (List.mem_of_mem_head? newest)
  have peers := congrArg (fun applied : Applied Nat => applied.conf.1.peers) wrong
  exact absurd peers (by decide)

/-- The configuration is saved while it is the last applied entry. -/
theorem saves_exact_configuration : ∃ run : SnapshotMetaRun Nat Nat Nat, run.SavesExact ∧
    run.saved.head? = some ({ lastIncludedIndex := 3, lastIncludedTerm := 4, peers := [1, 2] },
      { id := { index := 3, term := 4 }
        conf := (Configuration.ofList [1, 2], Configuration.empty) }) := by
  have follows : ∃ run : SnapshotMetaRun Nat Nat Nat, (system.restrict ReadsSaved).Follows
      [.logManager (.appendEntries 0 [dataEntry 2 2, thirdConfiguration] false),
        .onCommitted 3, .next, .next, .next, .finish, .setAppliedId, .onSnapshotSave]
      uncommittedRun run ∧
      run.saved.head? = some ({ lastIncludedIndex := 3, lastIncludedTerm := 4, peers := [1, 2] },
        { id := { index := 3, term := 4 }
          conf := (Configuration.ofList [1, 2], Configuration.empty) }) := by
    refine ⟨_, ⟨⟨⟨trivial, LogManager.replacing_appendable_of rfl, thirdConfiguration_committed⟩,
      trivial⟩, _, rfl, ⟨trivial, trivial⟩, _, rfl, ⟨trivial, trivial⟩, _, rfl,
      ⟨trivial, trivial⟩, _, rfl, ⟨trivial, trivial⟩, _, rfl, ⟨trivial, trivial⟩, _, rfl,
      ⟨trivial, trivial⟩, _, rfl, ⟨trivial, trivial⟩, _, rfl, rfl⟩, rfl⟩
  obtain ⟨run, follows, newest⟩ := follows
  exact ⟨run, saves_exact (.follows _ (.start uncommittedRun_initial) follows), newest⟩

end SnapshotMetaRun

end QuorumKit
