/-
A state machine that rolls back, `Iterator::set_error_and_rollback` of `braft/raft.h`.

The state machine is any choice of calls of the iterator for each `on_apply`.  `do_committed`
tells the log manager the last entry that was applied and not rolled back, and stores the index
of the batch as its own last applied index.
-/

import QuorumKit.Fsm.Delivery
import QuorumKit.Fsm.SnapshotMeta

namespace QuorumKit

variable {P D C : Type}

/-- The calls of `Iterator` that `on_apply` makes. -/
inductive IteratorCall where
  | next
  /-- `done()->Run()`, if there is a closure, with a status that the state machine has set. -/
  | runDone (failed : Bool)
  | setErrorAndRollback (ntail : Nat)
deriving DecidableEq, Repr

structure ClosureRun (C : Type) where
  index : Nat
  closure : C
  failed : Bool
deriving DecidableEq, Repr

/-- The last `ntail` entries, from the last iterated one on, are not applied. -/
structure Rollback where
  lastIterated : Nat
  ntail : Nat
deriving DecidableEq, Repr

def Rollback.kept (rollback : Rollback) : Nat := rollback.lastIterated - rollback.ntail

/-- A batch at work.  A null closure is `none`; `rolledBack` keeps what the state machine asked
for. -/
structure CommittedBatch (P D C : Type) where
  iter : IteratorImpl P D (Option C)
  runs : List (ClosureRun C) := []
  rolledBack : Option Rollback := none

namespace CommittedBatch

/-- `done()->Run()`. -/
def runDone (batch : CommittedBatch P D C) (failed : Bool) : CommittedBatch P D C :=
  match batch.iter.done.join with
  | some closure =>
      { batch with runs := batch.runs ++ [⟨batch.iter.curIndex, closure, failed⟩] }
  | none => batch

def lastIterated (batch : CommittedBatch P D C) : Nat :=
  if batch.iter.curEntry.any (fun entry => entry.type = .data) then batch.iter.curIndex
  else batch.iter.curIndex - 1

/-- One call of the state machine.  `Iterator::next` moves from a data entry only. -/
def call (getEntry : Nat → Option (LogEntry P D)) (batch : CommittedBatch P D C) :
    IteratorCall → CommittedBatch P D C
  | .next =>
      if batch.iter.data.isSome then { batch with iter := batch.iter.next getEntry } else batch
  | .runDone failed => batch.runDone failed
  | .setErrorAndRollback ntail =>
      if ntail = 0 then batch
      else
        { batch with
          iter := batch.iter.setErrorAndRollback ntail
          rolledBack := some ⟨batch.lastIterated, ntail⟩ }

/-- The loop of `do_committed`.  `user` are the calls of the `on_apply` that begins at an
index. -/
def applyLoop (getEntry : Nat → Option (LogEntry P D)) (user : Nat → List IteratorCall) :
    Nat → CommittedBatch P D C → CommittedBatch P D C
  | 0, batch => batch
  | fuel + 1, batch =>
      if batch.iter.isGood then
        if batch.iter.data.isSome then
          applyLoop getEntry user fuel
            (((user batch.iter.curIndex).foldl (call getEntry) batch).call getEntry .next)
        else
          applyLoop getEntry user fuel
            { batch.runDone false with iter := batch.iter.next getEntry }
      else batch

/-- `run_the_rest_closure_with_error`. -/
def runTheRest (batch : CommittedBatch P D C) : List (ClosureRun C) :=
  let first := max batch.iter.curIndex batch.iter.firstClosureIndex
  (List.range' first (batch.iter.committedIndex + 1 - first)).filterMap (fun index =>
    (batch.iter.closures[index - batch.iter.firstClosureIndex]?).join.map (fun closure =>
      ⟨index, closure, true⟩))

end CommittedBatch

/-- What `do_committed` leaves: `appliedId` is what it gives to `set_applied_id`. -/
structure CommitResult (C : Type) where
  lastAppliedIndex : Nat
  lastAppliedTerm : Nat
  appliedId : LogId
  error : Bool
  runs : List (ClosureRun C)
  rolledBack : Option Rollback
deriving DecidableEq, Repr

/-- `do_committed` behind its first two checks. -/
def FSMCaller.commitBatch (caller : FSMCaller P D) (view : Surroundings P D (Option C))
    (user : Nat → List IteratorCall) (committedIndex : Nat) : CommitResult C :=
  let iter := IteratorImpl.init view.closures view.firstClosureIndex caller.lastAppliedIndex
    committedIndex view.getEntry
  let batch := CommittedBatch.applyLoop view.getEntry user
    (committedIndex - caller.lastAppliedIndex + 1) { iter := iter }
  let lastIndex := batch.iter.curIndex - 1
  let lastTerm := view.getTerm lastIndex
  { lastAppliedIndex := committedIndex
    lastAppliedTerm := lastTerm
    appliedId := { index := lastIndex, term := lastTerm }
    error := batch.iter.hasError
    runs := if batch.iter.hasError then batch.runs ++ batch.runTheRest else batch.runs
    rolledBack := batch.rolledBack }

def Surroundings.closureAt (view : Surroundings P D (Option C)) (index : Nat) : Option C :=
  if index < view.firstClosureIndex then none
  else (view.closures[index - view.firstClosureIndex]?).join

/-- Each closure of the batch is run once, those of entries that were rolled back with an error,
and both last applied indexes are that of the last entry that was applied and kept. -/
structure RollsBack (view : Surroundings P D (Option C)) (result : CommitResult C)
    (rollback : Rollback) : Prop where
  once : ∀ index closure, view.closureAt index = some closure →
    (result.runs.filter (fun run => run.index = index)).length = 1
  failed : ∀ run ∈ result.runs, rollback.kept < run.index → run.index ≤ rollback.lastIterated →
    run.failed = true
  lastApplied : result.lastAppliedIndex = rollback.kept
  appliedId : result.appliedId =
    { index := rollback.kept, term := view.getTerm rollback.kept }

namespace CommittedBatch

/-- The iterator is in its batch.  After a rollback it stands behind the last entry that was
kept. -/
structure InBatch (committedIndex : Nat) (batch : CommittedBatch P D C) : Prop where
  committed : batch.iter.committedIndex = committedIndex
  upper : batch.iter.curIndex ≤ committedIndex + 1
  entry : batch.iter.curEntry.isSome → batch.iter.curIndex ≤ committedIndex
  kept : ∀ rollback, batch.rolledBack = some rollback →
    batch.iter.hasError = true ∧ batch.iter.curIndex - 1 = rollback.kept ∧
      rollback.kept < committedIndex

variable {committedIndex : Nat} {batch : CommittedBatch P D C}

theorem runDone_iter (batch : CommittedBatch P D C) (failed : Bool) :
    (batch.runDone failed).iter = batch.iter := by
  unfold runDone
  cases batch.iter.done.join with
  | none => rfl
  | some closure => rfl

theorem runDone_rolledBack (batch : CommittedBatch P D C) (failed : Bool) :
    (batch.runDone failed).rolledBack = batch.rolledBack := by
  unfold runDone
  cases batch.iter.done.join with
  | none => rfl
  | some closure => rfl

theorem InBatch.runDone (inBatch : InBatch committedIndex batch) (failed : Bool) :
    InBatch committedIndex (batch.runDone failed) := by
  constructor
  · rw [runDone_iter]
    exact inBatch.committed
  · rw [runDone_iter]
    exact inBatch.upper
  · rw [runDone_iter]
    exact inBatch.entry
  · rw [runDone_iter, runDone_rolledBack]
    exact inBatch.kept

theorem InBatch.next (inBatch : InBatch committedIndex batch) (isGood : batch.iter.isGood = true)
    (getEntry : Nat → Option (LogEntry P D)) :
    InBatch committedIndex { batch with iter := batch.iter.next getEntry } := by
  obtain ⟨inside, works⟩ : batch.iter.curIndex ≤ batch.iter.committedIndex ∧
      batch.iter.hasError = false := of_decide_eq_true isGood
  have committed := inBatch.committed
  have noRollback : ∀ rollback, batch.rolledBack ≠ some rollback := by
    intro rollback isRollback
    have failed := (inBatch.kept rollback isRollback).1
    rw [works] at failed
    contradiction
  unfold IteratorImpl.next
  rw [if_pos inside]
  by_cases more : batch.iter.curIndex + 1 ≤ batch.iter.committedIndex
  · rw [if_pos more]
    refine ⟨committed, ?_, ?_, fun rollback isRollback => absurd isRollback (noRollback rollback)⟩
    · simp only
      omega
    · intro _
      simp only
      omega
  · rw [if_neg more]
    refine ⟨committed, ?_, ?_, fun rollback isRollback => absurd isRollback (noRollback rollback)⟩
    · simp only
      omega
    · intro isEntry
      contradiction

theorem InBatch.rollback (inBatch : InBatch committedIndex batch) (positive : 0 < committedIndex)
    {ntail : Nat} (asked : ntail ≠ 0) :
    InBatch committedIndex
      { batch with
        iter := batch.iter.setErrorAndRollback ntail
        rolledBack := some ⟨batch.lastIterated, ntail⟩ } := by
  have upper := inBatch.upper
  refine ⟨inBatch.committed, ?_, fun isEntry => by contradiction, ?_⟩
  · unfold IteratorImpl.setErrorAndRollback
    simp only
    by_cases isData : batch.iter.curEntry.any (fun entry => entry.type = .data) = true
    · rw [if_pos isData]
      omega
    · rw [if_neg isData]
      omega
  · rintro rollback isRollback
    cases isRollback
    unfold IteratorImpl.setErrorAndRollback Rollback.kept lastIterated
    simp only
    by_cases isData : batch.iter.curEntry.any (fun entry => entry.type = .data) = true
    · have isEntry : batch.iter.curEntry.isSome = true := by
        cases isNone : batch.iter.curEntry with
        | none => rw [isNone] at isData; contradiction
        | some entry => rfl
      have inside := inBatch.entry isEntry
      rw [if_pos isData, if_pos isData]
      refine ⟨trivial, ?_, ?_⟩
      · omega
      · omega
    · rw [if_neg isData, if_neg isData]
      refine ⟨trivial, ?_, ?_⟩
      · omega
      · omega

theorem InBatch.call (inBatch : InBatch committedIndex batch) (positive : 0 < committedIndex)
    (getEntry : Nat → Option (LogEntry P D)) (iteratorCall : IteratorCall) :
    InBatch committedIndex (batch.call getEntry iteratorCall) := by
  unfold CommittedBatch.call
  cases iteratorCall with
  | next =>
      by_cases valid : batch.iter.data.isSome = true
      · simp only [if_pos valid]
        have isGood : batch.iter.isGood = true := by
          by_contra bad
          unfold IteratorImpl.data at valid
          rw [if_neg bad] at valid
          contradiction
        exact inBatch.next isGood getEntry
      · simp only [if_neg valid]
        exact inBatch
  | runDone failed => exact inBatch.runDone failed
  | setErrorAndRollback ntail =>
      by_cases nothing : ntail = 0
      · simp only [if_pos nothing]
        exact inBatch
      · simp only [if_neg nothing]
        exact inBatch.rollback positive nothing

theorem InBatch.calls (positive : 0 < committedIndex) (getEntry : Nat → Option (LogEntry P D))
    (calls : List IteratorCall) :
    ∀ {batch : CommittedBatch P D C}, InBatch committedIndex batch →
      InBatch committedIndex (calls.foldl (CommittedBatch.call getEntry) batch) := by
  induction calls with
  | nil =>
      intro batch inBatch
      exact inBatch
  | cons head rest ih =>
      intro batch inBatch
      exact ih (inBatch.call positive getEntry head)

theorem InBatch.applyLoop (positive : 0 < committedIndex)
    (getEntry : Nat → Option (LogEntry P D)) (user : Nat → List IteratorCall) (fuel : Nat) :
    ∀ {batch : CommittedBatch P D C}, InBatch committedIndex batch →
      InBatch committedIndex (batch.applyLoop getEntry user fuel) := by
  induction fuel with
  | zero =>
      intro batch inBatch
      exact inBatch
  | succ fuel ih =>
      intro batch inBatch
      unfold CommittedBatch.applyLoop
      by_cases isGood : batch.iter.isGood = true
      · rw [if_pos isGood]
        by_cases isData : batch.iter.data.isSome = true
        · rw [if_pos isData]
          exact ih ((InBatch.calls positive getEntry _ inBatch).call positive getEntry .next)
        · rw [if_neg isData]
          have ran := inBatch.runDone false
          have stillGood : (batch.runDone false).iter.isGood = true := by
            rw [runDone_iter]
            exact isGood
          have moved := ran.next stillGood getEntry
          rw [runDone_iter] at moved
          exact ih moved
      · rw [if_neg isGood]
        exact inBatch

end CommittedBatch

section Commit

variable {caller : FSMCaller P D} {view : Surroundings P D (Option C)}
  {user : Nat → List IteratorCall} {committedIndex : Nat}

theorem commitBatch_inBatch (above : caller.lastAppliedIndex < committedIndex) :
    CommittedBatch.InBatch committedIndex
      (CommittedBatch.applyLoop view.getEntry user (committedIndex - caller.lastAppliedIndex + 1)
        { iter := IteratorImpl.init view.closures view.firstClosureIndex caller.lastAppliedIndex
            committedIndex view.getEntry }) := by
  apply CommittedBatch.InBatch.applyLoop (by omega)
  unfold IteratorImpl.init IteratorImpl.next
  simp only
  rw [if_pos (by omega), if_pos (by omega)]
  refine ⟨rfl, by simp only; omega, fun _ => by simp only; omega, ?_⟩
  intro rollback isRollback
  contradiction

/-- Whatever the state machine does, a rollback leaves `last_applied_index` at the end of the
batch.  The log manager is told the last entry that was applied and kept. -/
theorem commitBatch_rollback (above : caller.lastAppliedIndex < committedIndex)
    {rollback : Rollback}
    (rolledBack : (caller.commitBatch view user committedIndex).rolledBack = some rollback) :
    (caller.commitBatch view user committedIndex).error = true ∧
      (caller.commitBatch view user committedIndex).appliedId =
        { index := rollback.kept, term := view.getTerm rollback.kept } ∧
      (caller.commitBatch view user committedIndex).lastAppliedIndex = committedIndex ∧
      rollback.kept < committedIndex ∧
      ¬ RollsBack view (caller.commitBatch view user committedIndex) rollback := by
  have inBatch := @commitBatch_inBatch P D C caller view user committedIndex above
  obtain ⟨failed, isKept, below⟩ := inBatch.kept rollback rolledBack
  refine ⟨failed, ?_, rfl, below, ?_⟩
  · change ({ index := _, term := view.getTerm _ } : LogId) = _
    rw [isKept]
  · intro rollsBack
    have lastApplied : committedIndex = rollback.kept := rollsBack.lastApplied
    omega

end Commit

/-- Three data entries with closures; the second one cannot be applied. -/
def threeEntries (index : Nat) : LogEntry Nat Nat :=
  { type := .data, id := { index := index, term := 1 }, data := index }

def threeEntriesView : Surroundings Nat Nat (Option Nat) :=
  { getEntry := fun index => some (threeEntries index), getTerm := fun _ => 1
    closures := [some 10, some 20, some 30], firstClosureIndex := 1 }

def stopsAtSecond (index : Nat) : List IteratorCall :=
  if index = 1 then [.runDone false, .next, .setErrorAndRollback 1] else []

def stoppedAtSecond : CommitResult Nat :=
  FSMCaller.freshCaller.commitBatch threeEntriesView stopsAtSecond 3

/-- The log manager is told entry 1, and `last_applied_index` is 3. -/
theorem stoppedAtSecond_lastApplied :
    stoppedAtSecond.rolledBack = some ⟨2, 1⟩ ∧ stoppedAtSecond.appliedId = ⟨1, 1⟩ ∧
      stoppedAtSecond.lastAppliedIndex = 3 ∧
      ¬ RollsBack threeEntriesView stoppedAtSecond ⟨2, 1⟩ := by
  refine ⟨by decide, by decide, by decide, ?_⟩
  intro rollsBack
  exact absurd rollsBack.lastApplied (by decide)

theorem stoppedAtSecond_rollback :
    stoppedAtSecond.error = true ∧ stoppedAtSecond.appliedId = ⟨1, 1⟩ ∧
      stoppedAtSecond.lastAppliedIndex = 3 ∧ 1 < 3 ∧
      ¬ RollsBack threeEntriesView stoppedAtSecond ⟨2, 1⟩ :=
  commitBatch_rollback (show FSMCaller.freshCaller.lastAppliedIndex < 3 by decide)
    (show stoppedAtSecond.rolledBack = some ⟨2, 1⟩ by decide)

end QuorumKit
