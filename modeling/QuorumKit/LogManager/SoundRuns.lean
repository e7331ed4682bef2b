/-
The log of a manager along a run.

One theorem says what any allowed step does to the log: nothing, an append or a
compaction.  It asks one thing of the rounds of `clear_memory_logs`, that what they
drop is settled, and that the step records no error.
-/

import QuorumKit.LogManager.Runs

namespace QuorumKit

namespace LogManager

variable {P D C : Type} [DecidableEq P]

variable {low : Nat} {manager manager' : LogManager P D C} {log log' : LogStorage P D}
  {action : Action P D C}

def Background (action : Action P D C) : Prop :=
  match action with
  | .appendEntries _ _ _ => False
  | .setSnapshot _ => False
  | .clearBufferredLogs => False
  | .setAppliedId _ => False
  | _ => True

inductive LogChange (low : Nat) (manager manager' : LogManager P D C) (log : LogStorage P D) :
    LogStorage P D → Prop
  | compacted {log' : LogStorage P D} (compacts : Compacts log log')
      (anchored : Anchored log log' manager.appliedId manager'.appliedId)
      (accepted : manager'.accepted = manager.accepted) : LogChange low manager manager' log log'
  | appended {submitted remaining : List (LogEntry P D)} {cut : Nat}
      (appends : Appends low manager.appliedId log submitted remaining cut)
      (applied : manager'.appliedId = manager.appliedId)
      (accepted : manager'.accepted = manager.accepted ++ submitted) :
      LogChange low manager manager' log ((log.keepBelow cut).append remaining)

omit [DecidableEq P] in
theorem LogChange.ordered (change : LogChange low manager manager' log log')
    (lowApplied : low ≤ manager.appliedId.index + 1) (ordered : Ordered manager.appliedId log) :
    Ordered manager'.appliedId log' := by
  cases change with
  | compacted compacts anchored _ => exact ordered.compacts compacts anchored
  | appended appends applied _ =>
      rw [applied]
      exact ordered.appends lowApplied appends

omit [DecidableEq P] in
theorem frame_kept (same : manager'.frame = manager.frame) :
    manager'.appliedId = manager.appliedId ∧ manager'.accepted = manager.accepted := by
  simp only [frame, Prod.mk.injEq] at same
  obtain ⟨_, _, applied, _, accepted, _⟩ := same
  exact ⟨applied, accepted⟩

theorem Sound.appendEntries {context : C} {entries : List (LogEntry P D)} {sees : Bool}
    (sound : Sound low manager log) (opened : manager.Opened)
    (lowApplied : low ≤ manager.appliedId.index + 1) (appendable : manager.Appendable entries)
    (stepped : manager.appendEntries context entries sees = some manager') :
    ∃ log', Sound low manager' log' ∧ LogChange low manager manager' log log' := by
  rcases appendEntries_cases stepped with ⟨status, rfl, _⟩ | ⟨rfl, rfl⟩ |
    ⟨front, back, remaining, resolved, isFront, isBack, accepted, rfl⟩
  · exact ⟨log, sound.reframe rfl rfl rfl sound.ready, .compacted .kept (Or.inl rfl) rfl⟩
  · have last := sound.last
    have prepared : Prepared manager manager manager log log.stop [] := by
      refine ⟨?_, Or.inl ⟨rfl, rfl⟩⟩
      have lastEq : log.stop + ([] : List (LogEntry P D)).length - 1 = manager.lastLogIndex := by
        rw [List.length_nil]
        omega
      rw [lastEq]
    have consecutive : Consecutive 1 ([] : List (LogEntry P D)) :=
      fun _ _ found => absurd found (by simp)
    have appends : Appends low manager.appliedId log [] [] log.stop :=
      sound.toTracks.appends_duplicates appendable consecutive
        (fun _ member => absurd member List.not_mem_nil)
    exact ⟨_, sound.appended opened lowApplied prepared appends context,
      .appended appends rfl rfl⟩
  · obtain ⟨base, cut, prepared, appends⟩ :=
      sound.toTracks.resolve_accepted opened appendable isFront isBack accepted
    obtain ⟨_, sameAccepted, applied, _, _⟩ := resolve_books accepted
    refine ⟨_, sound.appended opened lowApplied prepared appends context,
      .appended appends applied ?_⟩
    rw [← sameAccepted]
    rfl

/-- The step drops nothing from memory that a pending task may still change. -/
def Settles (low : Nat) (action : Action P D C) (manager : LogManager P D C) : Prop :=
  match action with
  | .clearMemoryLogs id => ClearsSettled low manager id
  | _ => True

theorem Sound.background (sound : Sound low manager log) (settles : Settles low action manager)
    (stepped : LogManager.step action manager = some manager')
    (works : manager'.hasError = false) (background : Background action) :
    Sound low manager' log ∧ manager'.appliedId = manager.appliedId ∧
      manager'.accepted = manager.accepted := by
  cases action with
  | appendEntries context entries sees => exact background.elim
  | setSnapshot snapshot => exact background.elim
  | clearBufferredLogs => exact background.elim
  | setAppliedId appliedId => exact background.elim
  | clearMemoryLogs id =>
      have after := sound.clearMemoryLogs settles stepped
      simp only [LogManager.step, LogManager.clearMemoryLogs] at stepped
      split at stepped
      · obtain rfl := Option.some.inj stepped
        exact ⟨after, rfl, rfl⟩
      · contradiction
  | flushLastLogId ticket =>
      obtain rfl := Option.some.inj stepped
      unfold LogManager.flushLastLogId
      split
      · exact ⟨sound.reframe rfl rfl rfl sound.ready, rfl, rfl⟩
      · refine ⟨?_, rfl, rfl⟩
        have holds : Holds low (manager.execute (.lastLogId ticket)) log :=
          sound.toHolds.push (.lastLogId ticket) trivial sound.noError rfl
            (pending_execute manager (.lastLogId ticket)) sound.first sound.last sound.memory
            (fun index inside outside => ⟨fun touches => touches, inside, outside⟩)
        exact sound.queued (.lastLogId ticket)
          { holds with
            snapshotInside := sound.snapshotInside
            snapshotTerm := sound.snapshotTerm
            virtualBelow := sound.virtualBelow
            applied := sound.applied }
          rfl (pending_execute _ _) rfl (le_refl _) trivial
  | readEntry index =>
      obtain rfl := Option.some.inj stepped
      have works : (manager.readEntry index).hasError = false := works
      unfold LogManager.readEntry at works ⊢
      split_ifs at works ⊢
      · exact ⟨sound, rfl, rfl⟩
      · simp [reportError] at works
      · exact ⟨sound, rfl, rfl⟩
  | diskStart =>
      have after := sound.diskStart stepped
      simp only [LogManager.step, LogManager.diskStart] at stepped
      split at stepped
      · obtain rfl := Option.some.inj stepped
        exact ⟨after, rfl, rfl⟩
      · contradiction
  | diskTake =>
      have after := sound.diskTake stepped
      simp only [LogManager.step, LogManager.diskTake] at stepped
      split at stepped
      · obtain rfl := Option.some.inj stepped
        exact ⟨after, rfl, rfl⟩
      · contradiction
  | diskEnd =>
      have after := sound.diskEnd stepped
      simp only [LogManager.step, LogManager.diskEnd] at stepped
      split at stepped
      · obtain rfl := Option.some.inj stepped
        exact ⟨after, rfl, rfl⟩
      · contradiction
  | diskFlush limit =>
      exact ⟨sound.diskFlush stepped works, frame_kept (diskFlush_frame stepped).1⟩
  | diskRun =>
      obtain ⟨_, _, _, _, _, same, _⟩ := diskRun_cases stepped
      exact ⟨sound.diskRun stepped, frame_kept same⟩
  | diskTask outcome =>
      exact ⟨(sound.diskTask stepped works).1, frame_kept (diskTask_frame stepped).1⟩
  | diskFinish =>
      have after := sound.diskFinish stepped
      obtain ⟨lastId, rfl⟩ := diskFinish_cases stepped
      refine ⟨after, ?_, ?_⟩
      all_goals
        unfold LogManager.setDiskId
        split <;> rfl
  | runAsync position =>
      obtain ⟨done, status, _, rfl⟩ := runAsync_cases stepped
      exact ⟨sound.reframe rfl rfl rfl sound.ready, rfl, rfl⟩

theorem Sound.step (sound : Sound low manager log) (opened : manager.Opened)
    (lowApplied : low ≤ manager.appliedId.index + 1) (allowed : Allowed action manager)
    (settles : Settles low action manager)
    (stepped : LogManager.step action manager = some manager')
    (works : manager'.hasError = false) :
    ∃ log', Sound low manager' log' ∧ LogChange low manager manager' log log' := by
  cases action with
  | appendEntries context entries sees =>
      exact sound.appendEntries opened lowApplied allowed stepped
  | setSnapshot snapshot =>
      obtain ⟨log', compacts, after, anchored⟩ :=
        sound.setSnapshot lowApplied (Or.inl opened) allowed stepped
      exact ⟨log', after, .compacted compacts anchored (setSnapshot_books stepped).2⟩
  | clearBufferredLogs =>
      obtain ⟨log', compacts, after, applied⟩ := sound.clearBufferredLogs stepped
      exact ⟨log', after,
        .compacted compacts (Or.inl applied) (clearBufferredLogs_books stepped).2.1⟩
  | setAppliedId appliedId =>
      obtain rfl := Option.some.inj stepped
      unfold LogManager.setAppliedId
      split
      · exact ⟨log, sound, .compacted .kept (Or.inl rfl) rfl⟩
      · rename_i notOlder
        rcases allowed with late | same | ⟨newer, terms, entry, found, isId⟩
        · exact absurd late notOlder
        · subst same
          exact ⟨log, sound.reframe rfl rfl rfl sound.ready, .compacted .kept (Or.inl rfl) rfl⟩
        · rw [sound.toHolds.getEntry_eq (by omega)] at found
          refine ⟨log, sound.frame ?_ rfl rfl rfl newer.le, .compacted .kept (Or.inr ⟨Or.inr
            ⟨newer, terms⟩, Or.inr ⟨entry, found, congrArg LogId.term isId⟩⟩) rfl⟩
          exact sound.toTracks.frame rfl rfl newer.le
  | _ =>
      obtain ⟨after, applied, accepted⟩ := sound.background settles stepped works trivial
      exact ⟨log, after, .compacted .kept (Or.inl applied) accepted⟩

end LogManager

end QuorumKit
