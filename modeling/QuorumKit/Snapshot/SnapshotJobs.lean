/-
The jobs of a snapshot executor: `_running_jobs`, `_saving_snapshot` and `join`.

A save is counted when the queue of `FSMCaller` has taken its closure.  A closure that the queue
refuses is run only if the user gave one, and then it signals a job that was not counted;
otherwise `_saving_snapshot` stays set.
-/

import QuorumKit.Snapshot.InstallProtocol

namespace QuorumKit

variable {P : Type}

namespace InstallSessions

/-- The saves and installs that have been started and have not signalled their end. -/
def activeJobs (executor : InstallSessions P) : Nat :=
  executor.sessions.length + executor.saves.length + executor.pendingSignals

/-- `do_snapshot` comes to `FSMCaller::on_snapshot_save`. -/
structure Submits (executor : InstallSessions P) (appliedIndex : Nat) (createsWriter : Bool) :
    Prop where
  running : executor.stopped = false
  notDownloading : executor.downloadingSnapshot = none
  notSaving : executor.savingSnapshot = false
  gap : executor.lastSnapshotIndex + executor.minIndexGap ≤ appliedIndex
  writer : createsWriter = true

/-- `do_snapshot` when the queue of `FSMCaller` does not take the closure. -/
def refuseSnapshot (executor : InstallSessions P) (appliedIndex : Nat)
    (createsWriter hasDone : Bool) : InstallSessions P :=
  { ({ executor with queueStopped := true } : InstallSessions P).doSnapshot appliedIndex
      createsWriter hasDone with queueStopped := executor.queueStopped }

/-- The counter is the number of active jobs, and the flag is clear while no save is active.  A
later `do_snapshot` is accepted then, and `join` returns when no job is left. -/
structure JobsCounted (executor : InstallSessions P) : Prop where
  counted : executor.runningJobs = executor.activeJobs
  notSaving : executor.saves = [] → executor.savingSnapshot = false
  accepted : executor.saves = [] → ∀ appliedIndex hasDone,
    executor.stopped = false → executor.downloadingSnapshot = none →
    executor.lastSnapshotIndex + executor.minIndexGap ≤ appliedIndex →
      (executor.doSnapshot appliedIndex true hasDone).saves = [.saving hasDone none]
  joins : executor.runningJobs ≤ 0 ↔
    executor.sessions = [] ∧ executor.saves = [] ∧ executor.pendingSignals = 0

inductive JobAction (P : Type) where
  | step (action : Action P)
  /-- The queue has no memory for a task, or has been stopped. -/
  | refuseSnapshot (appliedIndex : Nat) (createsWriter hasDone : Bool)

def jobStep (action : JobAction P) (executor : InstallSessions P) : Option (InstallSessions P) :=
  match action with
  | .step action => InstallSessions.step action executor
  | .refuseSnapshot appliedIndex createsWriter hasDone =>
      some (executor.refuseSnapshot appliedIndex createsWriter hasDone)

def jobs : TransitionSystem (InstallSessions P) (JobAction P) :=
  { init := Initial, allowed := fun _ _ => True, step := jobStep }

def TakesSaves (action : JobAction P) (executor : InstallSessions P) : Prop :=
  match action with
  | .step _ => True
  | .refuseSnapshot appliedIndex createsWriter _ => ¬ Submits executor appliedIndex createsWriter

variable {executor after : InstallSessions P}

theorem refuseSnapshot_eq {appliedIndex : Nat} {createsWriter : Bool}
    (before : ¬ Submits executor appliedIndex createsWriter) (hasDone : Bool) :
    executor.refuseSnapshot appliedIndex createsWriter hasDone =
      executor.doSnapshot appliedIndex createsWriter hasDone := by
  have answers (status : Int) :
      { ({ executor with queueStopped := true } : InstallSessions P).answerSave hasDone status with
        queueStopped := executor.queueStopped } = executor.answerSave hasDone status := by
    cases hasDone with
    | true => rfl
    | false => rfl
  unfold InstallSessions.refuseSnapshot InstallSessions.doSnapshot
  simp only
  by_cases stopped : executor.stopped = true
  · rw [if_pos stopped, if_pos stopped]
    exact answers EPERM
  rw [if_neg stopped, if_neg stopped]
  by_cases downloading : executor.downloadingSnapshot.isSome = true
  · rw [if_pos downloading, if_pos downloading]
    exact answers EBUSY
  rw [if_neg downloading, if_neg downloading]
  by_cases saving : executor.savingSnapshot = true
  · rw [if_pos saving, if_pos saving]
    exact answers EBUSY
  rw [if_neg saving, if_neg saving]
  by_cases near : appliedIndex < executor.lastSnapshotIndex + executor.minIndexGap
  · rw [if_pos near, if_pos near]
    exact answers 0
  rw [if_neg near, if_neg near]
  by_cases noWriter : ¬ createsWriter = true
  · rw [if_pos noWriter, if_pos noWriter]
    exact congrArg (fun answered : InstallSessions P => answered.reportError EIO) (answers EIO)
  · refine absurd ⟨?_, ?_, ?_, ?_, not_not.mp noWriter⟩ before
    · exact Bool.eq_false_of_not_eq_true stopped
    · exact Option.not_isSome_iff_eq_none.mp downloading
    · exact Bool.eq_false_of_not_eq_true saving
    · omega

theorem controlled_of_jobs (reached : (jobs.restrict TakesSaves).Reachable executor) :
    Controlled executor := by
  induction reached with
  | start initial => exact (controlled_of_reachable (.start initial)).1
  | @next action before after _ allowed stepped ih =>
      cases action with
      | step action =>
          rcases ih.step stepped with kept | adds
          · exact kept.controlled
          · exact adds.controlled
      | refuseSnapshot appliedIndex createsWriter hasDone =>
          have same : before.refuseSnapshot appliedIndex createsWriter hasDone = after :=
            Option.some.inj stepped
          rw [← same, refuseSnapshot_eq allowed.2]
          exact (ih.doSnapshot appliedIndex createsWriter hasDone).controlled

/-- In a run in which the queue takes every save, the jobs are counted. -/
theorem jobs_counted (reached : (jobs.restrict TakesSaves).Reachable executor) :
    JobsCounted executor := by
  have controlled := controlled_of_jobs reached
  have counted := controlled.jobs
  have notSaving (noSave : executor.saves = []) : executor.savingSnapshot = false := by
    rcases controlled.saving with ⟨_, clear⟩ | ⟨⟨save, one⟩, _, _⟩
    · exact clear
    · rw [noSave] at one
      contradiction
  constructor
  · rw [counted]
    unfold activeJobs
    push_cast
    rfl
  · exact notSaving
  · intro noSave appliedIndex hasDone running idle gap
    have takes : ¬ executor.queueStopped = true := by
      intro refuses
      have stopped := controlled.queue refuses
      rw [running] at stopped
      contradiction
    unfold InstallSessions.doSnapshot
    rw [if_neg (by rw [running]; decide), idle, if_neg (by simp),
      if_neg (by rw [notSaving noSave]; decide), if_neg (by omega), if_neg (by decide)]
    simp only
    rw [if_neg takes, noSave]
    rfl
  · rw [← List.length_eq_zero_iff, ← List.length_eq_zero_iff]
    omega

def oldSnapshot : SnapshotMeta Nat :=
  { lastIncludedIndex := 3, lastIncludedTerm := 1, peers := [1], oldPeers := [] }

def refusedWithDone : List (JobAction Nat) :=
  [.refuseSnapshot 5 true true, .step (.save 0 0 oldSnapshot true),
    .step (.save 0 0 oldSnapshot true), .step (.save 0 0 oldSnapshot true), .step (.tail 0),
    .step (.doSnapshot 5 true false)]

/-- `join` returns with a save at work.  Without a closure of the user the flag stays set. -/
theorem refusedSave_notCounted :
    (∃ executor : InstallSessions Nat, jobs.Reachable executor ∧ executor.runningJobs = 0 ∧
        executor.saves = [.saving false none] ∧ ¬ JobsCounted executor) ∧
      ∃ executor : InstallSessions Nat, jobs.Reachable executor ∧ executor.saves = [] ∧
        executor.savingSnapshot = true ∧ ¬ JobsCounted executor := by
  have initial : Initial ({ term := 1 } : InstallSessions Nat) := ⟨0, 0, 1, 1, rfl⟩
  constructor
  · have follows : ∃ executor : InstallSessions Nat,
        jobs.Follows refusedWithDone { term := 1 } executor ∧ executor.runningJobs = 0 ∧
          executor.saves = [.saving false none] :=
      ⟨_, ⟨trivial, _, rfl, trivial, _, rfl, trivial, _, rfl, trivial, _, rfl, trivial, _, rfl,
        trivial, _, rfl, rfl⟩, rfl, rfl⟩
    obtain ⟨executor, follows, zero, one⟩ := follows
    have reached := TransitionSystem.Reachable.follows refusedWithDone (.start initial) follows
    refine ⟨executor, reached, zero, one, ?_⟩
    intro counted
    have returned := counted.joins.mp (by rw [zero])
    rw [one] at returned
    exact List.cons_ne_nil _ _ returned.2.1
  · have follows : jobs.Follows [.refuseSnapshot 5 true false]
        ({ term := 1 } : InstallSessions Nat) { term := 1, savingSnapshot := true } :=
      ⟨trivial, _, rfl, rfl⟩
    have reached := TransitionSystem.Reachable.follows _ (.start initial) follows
    refine ⟨{ term := 1, savingSnapshot := true }, reached, rfl, rfl, ?_⟩
    intro counted
    exact absurd (counted.notSaving rfl) (by decide)

def failedThenSaved : List (JobAction Nat) :=
  [.step (.doSnapshot 5 true true), .step (.save 0 (-1) oldSnapshot true),
    .step (.save 0 0 oldSnapshot true), .step (.save 0 0 oldSnapshot true), .step (.tail 0),
    .refuseSnapshot 0 true true, .step (.doSnapshot 5 true false)]

theorem failedThenSaved_counted :
    ∃ executor : InstallSessions Nat, JobsCounted executor ∧ executor.runningJobs = 1 ∧
      executor.saves = [.saving false none] := by
  have initial : Initial ({ term := 1 } : InstallSessions Nat) := ⟨0, 0, 1, 1, rfl⟩
  have notSubmitted (executor : InstallSessions Nat) (isNew : executor.minIndexGap = 1) :
      ¬ Submits executor 0 true := by
    intro submits
    have gap := submits.gap
    omega
  have follows : ∃ executor : InstallSessions Nat,
      (jobs.restrict TakesSaves).Follows failedThenSaved { term := 1 } executor ∧
        executor.runningJobs = 1 ∧ executor.saves = [.saving false none] :=
    ⟨_, ⟨⟨trivial, trivial⟩, _, rfl, ⟨trivial, trivial⟩, _, rfl, ⟨trivial, trivial⟩, _, rfl,
      ⟨trivial, trivial⟩, _, rfl, ⟨trivial, trivial⟩, _, rfl, ⟨trivial, notSubmitted _ rfl⟩, _, rfl,
      ⟨trivial, trivial⟩, _, rfl, rfl⟩, rfl, rfl⟩
  obtain ⟨executor, follows, one, saves⟩ := follows
  have reached := TransitionSystem.Reachable.follows failedThenSaved (.start initial) follows
  exact ⟨executor, jobs_counted reached, one, saves⟩

end InstallSessions

end QuorumKit
