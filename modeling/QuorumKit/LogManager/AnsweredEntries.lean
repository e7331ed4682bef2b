/-
The entries whose closures have been run without an error.

The closure of a call carries the applied id at the time of the call.  An entry behind that id
is in the storage from the run of its closure until a truncation that takes it is queued.
An entry that was applied before the call may be answered before it has been written.
-/

import QuorumKit.LogManager.StoredEntries

namespace QuorumKit

variable {P D : Type}

/-- A log manager, and the entries of the closures that have been run with an OK status while
no error was recorded, with the applied id of their call.  An entry goes when a truncation
that takes it is queued. -/
structure AnsweredRun (P D : Type) where
  manager : LogManager P D LogId
  answered : List (LogId × LogEntry P D) := []

namespace AnsweredRun

/-- The entries of the closures that a step runs with an OK status. -/
def answers (former after : LogManager P D LogId) : List (LogId × LogEntry P D) :=
  if former.hasError then []
  else
    ((after.finished.take (after.finished.length - former.finished.length)).filter
      (fun ran => ran.2 = 0)).flatMap
        (fun ran => ran.1.submitted.map (fun entry => (ran.1.context, entry)))

def follow (run : AnsweredRun P D) (after : LogManager P D LogId) : AnsweredRun P D :=
  { manager := after
    answered := (run.answered ++ answers run.manager after).filter
      (fun answer => ∀ task ∈ after.pending, ¬ task.Cuts answer.2.id.index) }

variable [DecidableEq P]

def step (action : LogManager.Action P D LogId) (run : AnsweredRun P D) :
    Option (AnsweredRun P D) :=
  (LogManager.step action run.manager).map run.follow

/-- No operation of the storage fails, and a closure carries the applied id of its call. -/
def Allowed (action : LogManager.Action P D LogId) (run : AnsweredRun P D) : Prop :=
  LogManager.Allowed action run.manager ∧ GetEntryRun.FaultFree action run.manager ∧
    LogManager.CarriesApplied action run.manager

structure Kept (run : AnsweredRun P D) : Prop where
  durable : LogManager.Durable run.manager
  windowed : LogManager.Windowed run.manager
  disk : LogManager.DiskKept run.manager
  async : ∀ done, (done, 0) ∈ run.manager.asyncClosures →
    ∀ entry ∈ done.submitted, entry.id.index ≤ done.context.index
  uncut : ∀ answer ∈ run.answered, ∀ task ∈ run.manager.pending,
    ¬ task.Cuts answer.2.id.index
  stored : ∀ answer ∈ run.answered, answer.1.index < answer.2.id.index →
    run.manager.storage.getEntry answer.2.id.index = some answer.2

variable {run after : AnsweredRun P D} {action : LogManager.Action P D LogId}
  {manager manager' : LogManager P D LogId}

omit [DecidableEq P] in
theorem mem_answers {answer : LogId × LogEntry P D} (member : answer ∈ answers manager manager') :
    manager.hasError = false ∧ ∃ done, (done, 0) ∈
        manager'.finished.take (manager'.finished.length - manager.finished.length) ∧
      answer.2 ∈ done.submitted ∧ done.context = answer.1 := by
  unfold answers at member
  split at member
  · contradiction
  · rename_i works
    obtain ⟨⟨done, status⟩, ran, inside⟩ := List.mem_flatMap.mp member
    rw [List.mem_filter] at ran
    obtain ⟨entry, submitted, rfl⟩ := List.mem_map.mp inside
    have zero : status = 0 := of_decide_eq_true ran.2
    subst zero
    exact ⟨Bool.eq_false_of_not_eq_true works, done, ran.1, submitted, rfl⟩

theorem answers_ran {answer : LogId × LogEntry P D}
    (stepped : LogManager.step action manager = some manager')
    (member : answer ∈ answers manager manager') :
    manager.hasError = false ∧ ∃ done, answer.2 ∈ done.submitted ∧ done.context = answer.1 ∧
      manager'.finished = (done, 0) :: manager.finished := by
  obtain ⟨works, done, ran, submitted, context⟩ := mem_answers member
  refine ⟨works, done, submitted, context, ?_⟩
  rcases LogManager.ran_cases stepped with same | ⟨other, status, ranNow, _⟩
  · rw [same, Nat.sub_self, List.take_zero] at ran
    contradiction
  · rw [ranNow, List.length_cons, Nat.add_sub_cancel_left, List.take_succ_cons, List.take_zero,
      List.mem_singleton] at ran
    rw [ranNow, ran]

theorem Kept.ran (kept : Kept run) (allowed : Allowed action run)
    (stepped : LogManager.step action run.manager = some manager')
    (works : run.manager.hasError = false) {done : StableClosure P D LogId}
    (finished : manager'.finished = (done, 0) :: run.manager.finished) :
    Stored manager'.storage done := by
  rcases LogManager.finished_cases stepped finished with
    ⟨rfl, ⟨thread, rest, isThread, isReady⟩, _⟩ | ⟨⟨outcome, rfl⟩, empty⟩ | waiting
  · obtain ⟨_, _, _, _, _, _, _, _, storage⟩ := LogManager.diskRun_cases stepped
    rw [storage]
    refine kept.disk.ready works done ?_
    unfold LogManager.readyClosures
    rw [isThread]
    change done ∈ thread.ready
    rw [isReady]
    exact List.mem_cons_self
  · exact (kept.disk.diskTask allowed.2.1 stepped).2.2.2 works done empty
  · intro entry member behind
    have applied := kept.async done waiting entry member
    omega

theorem async_step (async : ∀ done, (done, 0) ∈ run.manager.asyncClosures →
      ∀ entry ∈ done.submitted, entry.id.index ≤ done.context.index)
    (allowed : Allowed action run)
    (stepped : LogManager.step action run.manager = some manager') :
    ∀ done, (done, 0) ∈ manager'.asyncClosures →
      ∀ entry ∈ done.submitted, entry.id.index ≤ done.context.index := by
  by_cases isAppend : ∃ context entries sees, action = .appendEntries context entries sees
  · obtain ⟨context, entries, sees, rfl⟩ := isAppend
    have isApplied : context = run.manager.appliedId := allowed.2.2
    subst isApplied
    have appendable : run.manager.Appendable entries := allowed.1
    rcases LogManager.appendEntries_cases stepped with ⟨status, rfl, applied⟩ | ⟨_, rfl⟩ |
      ⟨front, back, remaining, resolved, _, _, accepted, rfl⟩
    · intro done member entry inside
      rcases List.mem_append.mp member with former | new
      · exact async done former entry inside
      · rw [List.mem_singleton, Prod.mk.injEq] at new
        obtain ⟨rfl, zero⟩ := new
        obtain ⟨back, isBack, notLeader, backApplied⟩ := applied zero.symm
        exact appendable.all_applied isBack notLeader backApplied inside
    · exact async
    · obtain ⟨same, _⟩ := LogManager.resolve_books accepted
      have unchanged : resolved.asyncClosures = run.manager.asyncClosures :=
        congrArg (fun books => books.2.2.1) same
      intro done member
      change (done, 0) ∈ resolved.asyncClosures at member
      rw [unchanged] at member
      exact async done member
  · have serves := LogManager.serves_step
      (fun context entries sees same => isAppend ⟨context, entries, sees, same⟩) stepped
    exact fun done member => async done (serves.async _ member)

theorem Kept.step (kept : Kept run) (allowed : Allowed action run)
    (stepped : AnsweredRun.step action run = some after) : Kept after := by
  obtain ⟨manager', moved, rfl⟩ := Option.map_eq_some_iff.mp stepped
  obtain ⟨disk, keeps⟩ := kept.disk.step kept.durable allowed.1 allowed.2.1 allowed.2.2 moved
  constructor
  · exact kept.durable.step allowed.1 moved
  · exact kept.windowed.step allowed.1 moved
  · exact disk
  · exact async_step kept.async allowed moved
  · intro answer member
    exact of_decide_eq_true (List.mem_filter.mp member).2
  · intro answer member behind
    rcases List.mem_append.mp (List.mem_filter.mp member).1 with former | new
    · exact keeps _ _ (kept.stored answer former behind) (kept.uncut answer former)
    · obtain ⟨works, done, submitted, context, finished⟩ := answers_ran moved new
      rw [← context] at behind
      exact kept.ran allowed moved works finished answer.2 submitted behind

end AnsweredRun

end QuorumKit
