/-
When a stable closure is run without an error.

After a failed write `disk_thread` still runs a closure whose entries have all
been dropped as duplicates, and with an OK status.  In every run that keeps away
from this case, a closure that is run with an OK status has its entries in the
storage or behind the applied id.
-/

import QuorumKit.LogManager.SoundRuns

namespace QuorumKit

namespace LogManager

variable {P D C : Type} [DecidableEq P]

/-- No closure whose entries were all duplicates gets to the disk thread after an
error. -/
def DuplicatesBeforeError (action : Action P D C) (manager : LogManager P D C) : Prop :=
  match action with
  | .diskTask _ =>
      ∀ done, manager.EmptyTask done → done.submitted ≠ [] → manager.hasError = false
  | _ => True

/-- A closure that the step runs with an OK status has its entries stored. -/
def StoredClosures (manager manager' : LogManager P D C) : Prop :=
  ∀ done, manager'.finished = (done, 0) :: manager.finished →
    Covered manager'.appliedId.index manager'.storage done

structure Durable (manager : LogManager P D C) : Prop extends Booked manager where
  sound : manager.hasError = false →
    ∃ log, Sound (manager.appliedId.index + 1) manager log ∧ Ordered manager.appliedId log

variable {manager manager' : LogManager P D C} {action : Action P D C}

omit [DecidableEq P] in
theorem entriesToClear_not_lt {id : LogId} {entry : LogEntry P D}
    (member : entry ∈ manager.entriesToClear id) : ¬ id < entry.id := by
  have dropped := List.mem_takeWhile_imp member
  simpa using dropped

omit [DecidableEq P] in
theorem entriesToClear_subset {id : LogId} {entry : LogEntry P D}
    (member : entry ∈ manager.entriesToClear id) : entry ∈ manager.logsInMemory :=
  List.mem_of_mem_take ((List.takeWhile_prefix _).subset member)

omit [DecidableEq P] in
theorem cleared_applied {low : Nat} {log : LogStorage P D} (sound : Sound low manager log)
    (ordered : Ordered manager.appliedId log) {id : LogId} (behind : id ≤ manager.appliedId)
    {entry : LogEntry P D} (member : entry ∈ manager.entriesToClear id) :
    entry.id.index < manager.appliedId.index + 1 := by
  obtain ⟨position, found⟩ := List.mem_iff_getElem?.mp (entriesToClear_subset member)
  have inLog := (sound.memory_getEntry found).2
  by_contra above
  have notOlder := ordered.notOlder _ _ inLog (by omega)
  refine entriesToClear_not_lt member (lt_of_le_of_lt behind ?_)
  rw [LogId.lt_iff]
  omega

theorem Initial.durable (initial : Initial manager) : Durable manager := by
  obtain ⟨log, sound, ordered, opened, noClearing, noAsync⟩ := initial.sound
  refine { opened := opened, clearing := ?_, async := ?_, sound := ?_ }
  · rw [noClearing]
    exact fun id member => absurd member List.not_mem_nil
  · intro done member
    rw [noAsync] at member
    contradiction
  · exact fun _ => ⟨log, sound.mono (Nat.zero_le _), ordered⟩

theorem Durable.settles (durable : Durable manager) (works : manager.hasError = false)
    (stepped : LogManager.step action manager = some manager') :
    Settles (manager.appliedId.index + 1) action manager := by
  obtain ⟨log, sound, ordered⟩ := durable.sound works
  cases action with
  | clearMemoryLogs id =>
      intro entry member
      have pending : id ∈ manager.clearing := by
        by_contra absent
        simp [LogManager.step, LogManager.clearMemoryLogs, absent] at stepped
      exact Or.inl (cleared_applied sound ordered (durable.clearing id pending) member)
  | _ => trivial

theorem Durable.step (durable : Durable manager) (allowed : Allowed action manager)
    (stepped : LogManager.step action manager = some manager') : Durable manager' := by
  obtain ⟨booked, inOrder, error⟩ := durable.toBooked.step allowed stepped
  refine { booked with sound := fun works => ?_ }
  obtain ⟨log, sound, ordered⟩ := durable.sound (error works)
  obtain ⟨log', after, change⟩ := sound.step durable.opened (le_refl _) allowed
    (durable.settles (error works) stepped) stepped works
  exact ⟨log', after.mono (Nat.succ_le_succ inOrder.index_le), change.ordered (le_refl _) ordered⟩

/-- At most one closure is run in a step: by the disk thread, after a write or at once, or by a
bthread. -/
theorem ran_cases (stepped : LogManager.step action manager = some manager') :
    manager'.finished = manager.finished ∨
      ∃ done status, manager'.finished = (done, status) :: manager.finished ∧
        ((action = .diskRun ∧
            (∃ thread rest, manager.diskThread = some thread ∧ thread.ready = done :: rest) ∧
            (status = 0 → manager.hasError = false)) ∨
          ((∃ outcome, action = .diskTask outcome) ∧ manager.EmptyTask done) ∨
          (done, status) ∈ manager.asyncClosures) := by
  cases action with
  | appendEntries context entries sees =>
      refine Or.inl ?_
      rcases appendEntries_cases stepped with ⟨status, rfl, _⟩ | ⟨_, rfl⟩ |
        ⟨front, back, remaining, resolved, _, _, accepted, rfl⟩
      · rfl
      · rfl
      · obtain ⟨same, _⟩ := resolve_books accepted
        exact congrArg (fun books => books.2.2.2) same
  | setSnapshot snapshot =>
      obtain ⟨same, _⟩ := setSnapshot_books stepped
      exact Or.inl (congrArg (fun books => books.2.2.2) same)
  | clearBufferredLogs =>
      obtain ⟨same, _⟩ := clearBufferredLogs_books stepped
      exact Or.inl (congrArg (fun books => books.2.2.2) same)
  | setAppliedId appliedId =>
      obtain rfl := Option.some.inj stepped
      refine Or.inl ?_
      unfold LogManager.setAppliedId
      split <;> rfl
  | clearMemoryLogs id =>
      simp only [LogManager.step, LogManager.clearMemoryLogs] at stepped
      split at stepped
      · obtain rfl := Option.some.inj stepped
        exact Or.inl rfl
      · contradiction
  | flushLastLogId ticket =>
      obtain rfl := Option.some.inj stepped
      refine Or.inl ?_
      unfold LogManager.flushLastLogId
      split <;> rfl
  | readEntry index =>
      obtain rfl := Option.some.inj stepped
      refine Or.inl ?_
      unfold LogManager.readEntry
      split_ifs <;> rfl
  | diskStart =>
      simp only [LogManager.step, LogManager.diskStart] at stepped
      split at stepped
      · obtain rfl := Option.some.inj stepped
        exact Or.inl rfl
      · contradiction
  | diskTake =>
      simp only [LogManager.step, LogManager.diskTake] at stepped
      split at stepped
      · obtain rfl := Option.some.inj stepped
        exact Or.inl rfl
      · contradiction
  | diskEnd =>
      simp only [LogManager.step, LogManager.diskEnd] at stepped
      split at stepped
      · obtain rfl := Option.some.inj stepped
        exact Or.inl rfl
      · contradiction
  | diskFlush limit => exact Or.inl (diskFlush_frame stepped).2.1
  | diskRun =>
      obtain ⟨thread, ran, rest, isThread, isReady, _, _, ranNow, _⟩ := diskRun_cases stepped
      refine Or.inr ⟨ran, _, ranNow, Or.inl ⟨rfl, ⟨thread, rest, isThread, isReady⟩, ?_⟩⟩
      -- the status is OK only while no error is recorded
      intro zero
      by_contra failed
      rw [Bool.not_eq_false] at failed
      rw [failed] at zero
      exact absurd zero (by decide)
  | diskTask outcome =>
      obtain ⟨_, _, unchanged | ⟨ran, empty, ranNow, _⟩⟩ := diskTask_frame stepped
      · exact Or.inl unchanged
      · exact Or.inr ⟨ran, 0, ranNow, Or.inr (Or.inl ⟨⟨outcome, rfl⟩, empty⟩)⟩
  | diskFinish =>
      obtain ⟨lastId, rfl⟩ := diskFinish_cases stepped
      refine Or.inl ?_
      unfold LogManager.setDiskId
      split <;> rfl
  | runAsync position =>
      obtain ⟨ran, status, member, rfl⟩ := runAsync_cases stepped
      exact Or.inr ⟨ran, status, rfl, Or.inr (Or.inr member)⟩

theorem finished_cases {done : StableClosure P D C} {status : Int}
    (stepped : LogManager.step action manager = some manager')
    (finished : manager'.finished = (done, status) :: manager.finished) :
    (action = .diskRun ∧
        (∃ thread rest, manager.diskThread = some thread ∧ thread.ready = done :: rest) ∧
        (status = 0 → manager.hasError = false)) ∨
      ((∃ outcome, action = .diskTask outcome) ∧ manager.EmptyTask done) ∨
      (done, status) ∈ manager.asyncClosures := by
  rcases ran_cases stepped with unchanged | ⟨ran, code, ranNow, origin⟩
  · rw [finished] at unchanged
    exact absurd (congrArg List.length unchanged) (by simp)
  · rw [ranNow, List.cons.injEq, Prod.mk.injEq] at finished
    obtain ⟨⟨rfl, rfl⟩, _⟩ := finished
    exact origin

theorem Durable.stored (durable : Durable manager) (allowed : Allowed action manager)
    (condition : DuplicatesBeforeError action manager)
    (stepped : LogManager.step action manager = some manager') :
    StoredClosures manager manager' := by
  intro done finished
  rcases finished_cases stepped finished with
    ⟨rfl, ⟨thread, rest, isThread, isReady⟩, works⟩ | ⟨⟨outcome, rfl⟩, empty⟩ | waiting
  · obtain ⟨_, _, _, _, _, same, _, _, storage⟩ := diskRun_cases stepped
    have applied : manager'.appliedId = manager.appliedId :=
      congrArg (fun frame => frame.2.2.1) same
    obtain ⟨log, sound, _⟩ := durable.sound (works rfl)
    rw [applied, storage]
    exact sound.ready thread isThread done (by rw [isReady]; exact List.mem_cons_self)
  · by_cases none : done.submitted = []
    · intro entry member
      rw [none] at member
      contradiction
    · have noError := condition done empty none
      obtain ⟨log, sound, _⟩ := durable.sound noError
      obtain ⟨same, _, unchanged | ⟨_, _, _, error⟩⟩ := diskTask_frame stepped
      · rw [unchanged] at finished
        exact absurd (congrArg List.length finished) (by simp)
      · have applied : manager'.appliedId = manager.appliedId :=
          congrArg (fun frame => frame.2.2.1) same
        rw [applied]
        exact (sound.diskTask stepped (error.trans noError)).2 done empty
  · have above := (durable.toBooked.step allowed stepped).2.1.index_le
    exact fun entry inside => Or.inl ((durable.async done waiting entry inside).trans above)

theorem durable_of_reachable (reached : system.Reachable manager) : Durable manager := by
  induction reached with
  | start initial => exact Initial.durable initial
  | next _ allowed stepped ih => exact ih.step allowed stepped

/-- In a run without such a closure, OK means stored or applied. -/
theorem stableClosure_stored (reached : (system.restrict DuplicatesBeforeError).Reachable manager)
    (stepped : LogManager.step action manager = some manager')
    (allowed : Allowed action manager) (condition : DuplicatesBeforeError action manager) :
    StoredClosures manager manager' :=
  (durable_of_reachable reached.of_restrict).stored allowed condition stepped

def firstEntry : LogEntry Nat Nat :=
  { type := .data, id := { index := 1, term := 1 }, data := 7 }

def freshManager : LogManager Nat Nat Nat := init .empty .init (fun _ => 1)

theorem freshManager_initial : Initial freshManager := by
  refine ⟨.empty, .init, _, ⟨by decide, ?_⟩, ?_, Or.inl ⟨rfl, rfl⟩⟩
  · intro index entry found
    simp [LogStorage.getEntry, IndexedLog.get?, LogStorage.empty] at found
  · intro former later entry entry' _ _ found
    simp [LogStorage.getEntry, IndexedLog.get?, LogStorage.empty] at found

theorem single_appendable {manager : LogManager Nat Nat Nat} {single : LogEntry Nat Nat}
    (atOne : single.id = { index := 1, term := 1 })
    (same : manager.getEntry 1 = none ∨ manager.getEntry 1 = some single)
    (none : manager.appliedId = {}) : manager.Appendable [single] := by
  have index : single.id.index = 1 := congrArg LogId.index atOne
  constructor
  · refine Or.inr ⟨1, by decide, ?_⟩
    intro position entry found
    match position with
    | 0 => exact Option.some.inj found ▸ index
    | position + 1 => simp at found
  · intro entry member
    rw [List.mem_singleton.mp member, atOne]
    decide
  · simp
  · intro entry member found read _
    rw [List.mem_singleton.mp member] at read ⊢
    rw [index] at read
    rcases same with absent | present
    · exact absurd (absent.symm.trans read) (by simp)
    · exact Option.some.inj (read.symm.trans present)
  · intro front isFront
    obtain rfl := Option.some.inj isFront
    unfold batchStart
    rw [index]
    exact Nat.zero_le _
  · rw [none]
    exact fun entry _ _ => Nat.zero_le _

theorem firstEntry_appendable {manager : LogManager Nat Nat Nat}
    (same : manager.getEntry 1 = none ∨ manager.getEntry 1 = some firstEntry)
    (none : manager.appliedId = {}) : manager.Appendable [firstEntry] :=
  single_appendable rfl same none

def afterFailure : LogManager Nat Nat Nat :=
  { freshManager with
    lastLogIndex := 1
    logsInMemory := [firstEntry]
    hasError := true
    accepted := [firstEntry, firstEntry]
    diskThread := some { lastId := {}, task := some (.append (.queued 1 [firstEntry] [])) }
    finished := [({ StableClosure.queued 0 [firstEntry] [firstEntry] with entries := [] }, EIO)] }

theorem afterFailure_reachable : system.Reachable afterFailure := by
  have follows : system.Follows
      [.appendEntries 0 [firstEntry] false, .appendEntries 1 [firstEntry] false, .diskStart,
        .diskTake, .diskTask .done, .diskTake, .diskFlush 0, .diskRun]
      freshManager afterFailure := by
    exact ⟨firstEntry_appendable (Or.inl rfl) rfl, _, rfl, firstEntry_appendable (Or.inr rfl) rfl, _,
      rfl, trivial, _, rfl, trivial, _, rfl, trivial, _, rfl, trivial, _, rfl, trivial, _, rfl,
      trivial, _, rfl, rfl⟩
  exact .follows _ (.start freshManager_initial) follows

theorem duplicate_unstored :
    ∃ (manager manager' : LogManager Nat Nat Nat) (action : Action Nat Nat Nat),
      system.Reachable manager ∧ Allowed action manager ∧
        LogManager.step action manager = some manager' ∧ ¬ StoredClosures manager manager' := by
  refine ⟨afterFailure, _, .diskTask .done, afterFailure_reachable, trivial, rfl, ?_⟩
  intro stored
  have covered := stored (.queued 1 [firstEntry] []) rfl firstEntry (by decide)
  exact absurd covered (by decide)

def afterWrite : LogManager Nat Nat Nat :=
  { freshManager with
    storage := { first := 1, entries := [firstEntry] }
    lastLogIndex := 1
    logsInMemory := [firstEntry]
    accepted := [firstEntry]
    diskThread := some
      { lastId := { index := 1, term := 1 }
        ready := [{ StableClosure.queued 0 [firstEntry] [firstEntry] with entries := [] }]
        ended := true } }

theorem afterWrite_reachable :
    (system.restrict DuplicatesBeforeError).Reachable afterWrite := by
  have follows : (system.restrict DuplicatesBeforeError).Follows
      [.appendEntries 0 [firstEntry] false, .diskStart, .diskTake, .diskTask .done, .diskEnd,
        .diskFlush 1]
      freshManager afterWrite := by
    exact ⟨⟨firstEntry_appendable (Or.inl rfl) rfl, trivial⟩, _, rfl, ⟨trivial, trivial⟩, _, rfl,
      ⟨trivial, trivial⟩, _, rfl, ⟨trivial, fun _ _ _ => rfl⟩, _, rfl, ⟨trivial, trivial⟩, _, rfl,
      ⟨trivial, trivial⟩, _, rfl, rfl⟩
  exact .follows _ (.start freshManager_initial) follows

theorem stableClosure_stored_afterWrite :
    ∃ manager' : LogManager Nat Nat Nat,
      LogManager.step .diskRun afterWrite = some manager' ∧
        manager'.finished.map Prod.snd = [0] ∧ StoredClosures afterWrite manager' :=
  ⟨_, rfl, rfl, stableClosure_stored afterWrite_reachable
    (show LogManager.step .diskRun afterWrite = some _ from rfl) trivial trivial⟩

end LogManager

end QuorumKit
