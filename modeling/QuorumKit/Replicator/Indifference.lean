/-
Fields that a replicator's calls leave alone.

`_block`, `_install_snapshot` and `_send_empty_entries` call each other.  They change the
state, the timers, the reader and the queue of requests, and what does not depend on these
stays as it is.
-/

import QuorumKit.Replicator.InFlight

namespace QuorumKit

namespace Replicator

variable {P D C α : Type}

structure Indifferent (value : Replicator P D → α) : Prop where
  block : ∀ r st blockTimers, value { r with st := st, blockTimers := blockTimers } = value r
  install : ∀ r st reader installSnapshotInFly,
    value { r with
      st := st, reader := reader, installSnapshotInFly := installSnapshotInFly } = value r
  push : ∀ (r : Replicator P D) request, value (r.push request) = value r

def Preserves (value : Replicator P D → α) (call : Replicator P D → Option (Replicator P D)) :
    Prop :=
  ∀ r after, call r = some after → value after = value r

variable {value : Replicator P D → α} {options : ReplicatorOptions P D}
  {around : ReplicatorSurroundings P D C}

theorem preserves_block (indifferent : Indifferent value) (attempt : InstallAttempt)
    {retry : Replicator P D → Option (Replicator P D)} (preserves : Preserves value retry) :
    Preserves value (block attempt retry) := by
  intro r after called
  unfold block at called
  by_cases blocking : r.st = .blocking
  · rw [if_pos blocking] at called
    cases called
    rfl
  rw [if_neg blocking] at called
  by_cases added : attempt.timerAdded
  · rw [if_pos added] at called
    cases called
    exact indifferent.block r .blocking _
  · rw [if_neg added] at called
    exact preserves r after called

theorem preserves_installSnapshot (indifferent : Indifferent value) (attempt : InstallAttempt)
    {retry : Replicator P D → Option (Replicator P D)} (preserves : Preserves value retry) :
    Preserves value (installSnapshot options attempt retry) := by
  intro r after called
  unfold installSnapshot at called
  by_cases witness : options.nodeIsWitness
  · rw [if_pos witness] at called
    exact preserves_block indifferent attempt preserves r after called
  rw [if_neg witness] at called
  by_cases running : r.reader
  · rw [if_pos running] at called
    cases called
    rfl
  rw [if_neg running] at called
  by_cases throttled : attempt.throttled
  · rw [if_pos throttled] at called
    exact preserves_block indifferent attempt preserves r after called
  rw [if_neg throttled] at called
  simp only at called
  cases isFound : attempt.snapshot with
  | notOpened =>
      rw [isFound] at called
      cases called
      exact indifferent.install r .installingSnapshot _ _
  | noUri =>
      rw [isFound] at called
      have blocked := preserves_block indifferent attempt preserves
        { r with st := .installingSnapshot } after called
      exact blocked.trans (indifferent.install r .installingSnapshot _ _)
  | noMeta =>
      rw [isFound] at called
      cases called
      exact indifferent.install r .installingSnapshot true _
  | found lastIncludedIndex =>
      rw [isFound] at called
      cases called
      exact indifferent.install r .installingSnapshot true (some lastIncludedIndex)

theorem preserves_sendEmptyEntries (indifferent : Indifferent value)
    (attempts : List InstallAttempt) :
    Preserves value (sendEmptyEntries options around attempts) := by
  induction attempts with
  | nil =>
      intro r after called
      cases called
  | cons attempt rest ih =>
      intro r after called
      unfold sendEmptyEntries at called
      cases filled : fillCommonFields around.logManager (r.nextIndex - 1) false with
      | none =>
          rw [filled] at called
          cases called
      | some outcome =>
          rw [filled] at called
          cases outcome with
          | none => exact preserves_installSnapshot indifferent attempt ih r after called
          | some prevLog =>
              simp only at called
              split_ifs at called with busy
              cases called
              exact indifferent.push r _

theorem preserves_startInstall (indifferent : Indifferent value) :
    Preserves value (startInstall options around : Replicator P D → _) := by
  intro r after called
  unfold startInstall at called
  cases isAttempts : around.attempts with
  | nil =>
      rw [isAttempts] at called
      cases called
  | cons attempt rest =>
      rw [isAttempts] at called
      exact preserves_installSnapshot indifferent attempt
        (preserves_sendEmptyEntries indifferent rest) r after called

theorem preserves_blockFailed (indifferent : Indifferent value) :
    Preserves value (blockFailed options around : Replicator P D → _) := by
  intro r after called
  unfold blockFailed at called
  cases isAttempts : around.attempts with
  | nil =>
      rw [isAttempts] at called
      cases called
  | cons attempt rest =>
      rw [isAttempts] at called
      exact preserves_block indifferent attempt (preserves_sendEmptyEntries indifferent rest) r
        after called

structure Unmoved (value : Replicator P D → α) : Prop extends Indifferent value where
  reset : ∀ r : Replicator P D, value r.resetNextIndex = value r
  readonly : ∀ (r : Replicator P D) readonlyIndex,
    value { r with readonlyIndex := readonlyIndex } = value r
  wait : ∀ r st waitId lastWaitId waiters isWaiterCanceled,
    value { r with
      st := st
      waitId := waitId
      lastWaitId := lastWaitId
      waiters := waiters
      isWaiterCanceled := isWaiterCanceled } = value r

theorem Unmoved.waitMoreEntries (unmoved : Unmoved value) (r : Replicator P D) :
    value (r.waitMoreEntries around) = value r := by
  obtain ⟨st, waitId, lastWaitId, waiters, canceled, _, same⟩ := waitMoreEntries_cases around r
  rw [same]
  exact unmoved.wait r st waitId lastWaitId waiters canceled

theorem preserves_sendEntries (unmoved : Unmoved value) :
    Preserves value (sendEntries options around) := by
  intro r after called
  unfold sendEntries at called
  simp only at called
  by_cases full : around.maxEntriesSize ≤ r.flyingAppendEntriesSize ∨
      around.maxParallelAppendEntriesRpcNum ≤ r.appendEntriesInFly.length ∨ r.st = .blocking
  · rw [if_pos full] at called
    cases called
    rfl
  rw [if_neg full] at called
  cases filled : fillCommonFields around.logManager (r.nextIndex - 1) false with
  | none =>
      rw [filled] at called
      cases called
  | some outcome =>
      rw [filled] at called
      cases outcome with
      | none =>
          have started := preserves_startInstall unmoved.toIndifferent r.resetNextIndex after called
          exact started.trans (unmoved.reset r)
      | some prevLog =>
          simp only at called
          cases isPrepared : prepareEntries options around
              (around.maxEntriesSize - r.flyingAppendEntriesSize) 0 0 r with
          | none =>
              rw [isPrepared] at called
              cases called
          | some result =>
              rw [isPrepared] at called
              obtain ⟨entries, errorCode, prepared⟩ := result
              obtain ⟨readonlyIndex, rfl⟩ := prepareEntries_same _ _ _ _ isPrepared
              have ready := unmoved.readonly r readonlyIndex
              cases entries with
              | nil =>
                  simp only at called
                  split_ifs at called with below readonly quiet
                  · have started := preserves_startInstall unmoved.toIndifferent
                      (resetNextIndex { r with readonlyIndex := readonlyIndex }) after called
                    exact (started.trans (unmoved.reset _)).trans ready
                  · cases called
                    exact (unmoved.block { r with readonlyIndex := readonlyIndex } .idle _).trans
                      ready
                  · cases called
                    exact ready
                  · cases called
                    exact (unmoved.waitMoreEntries _).trans ready
              | cons entryMeta entries =>
                  cases called
                  exact ((unmoved.waitMoreEntries _).trans (unmoved.push _ _)).trans ready

def Action.Routine : Action P D C → Prop
  | .onBlockTimedout | .continueTimedout _ | .continueSending _ _ | .changeReadonlyConfig _ _
  | .sendHeartbeat _ => True
  | _ => False

/-- The value does not depend on the timers of `_block` that have expired either. -/
structure Untouched (value : Replicator P D → α) : Prop extends Unmoved value where
  timeouts : ∀ (r : Replicator P D) blockTimeouts,
    value { r with blockTimeouts := blockTimeouts } = value r

theorem Untouched.routine (untouched : Untouched value) {action : Action P D C}
    (routine : action.Routine) {r after : Replicator P D}
    (stepped : step options action r = some after) : value after = value r := by
  unfold Replicator.step at stepped
  by_cases gone : r.destroyed
  · rw [if_pos gone] at stepped
    cases stepped
    rfl
  rw [if_neg gone] at stepped
  cases action with
  | onBlockTimedout =>
      simp only [Replicator.onBlockTimedout] at stepped
      split_ifs at stepped with idle
      cases stepped
      exact (untouched.timeouts { r with st := .idle, blockTimers := r.blockTimers - 1 } _).trans
        (untouched.block r .idle _)
  | continueTimedout around =>
      simp only [Replicator.continueTimedout] at stepped
      have timedOut := untouched.timeouts r (r.blockTimeouts - 1)
      split_ifs at stepped with idle waits
      · cases stepped
        exact timedOut
      · exact (preserves_sendEmptyEntries untouched.toIndifferent _ _ after stepped).trans timedOut
  | continueSending around stopped =>
      simp only [Replicator.continueSending] at stepped
      split_ifs at stepped with idle sends
      · exact (preserves_sendEntries untouched.toUnmoved _ after stepped).trans
          (untouched.wait r r.st 0 r.lastWaitId (r.waiters - 1) r.isWaiterCanceled)
      · cases stepped
        exact untouched.wait r r.st r.waitId r.lastWaitId (r.waiters - 1) r.isWaiterCanceled
  | changeReadonlyConfig around readonly =>
      cases stepped
      unfold Replicator.changeReadonlyConfig
      split_ifs with same enters
      · rfl
      · exact untouched.readonly r _
      · exact (untouched.waitMoreEntries _).trans (untouched.readonly r 0)
  | sendHeartbeat around =>
      obtain ⟨_, _, rfl⟩ := Option.map_eq_some_iff.mp stepped
      rfl
  | onRpcReturned around callId answer => exact routine.elim
  | onInstallSnapshotReturned around success => exact routine.elim
  | transferLeadership logIndex => exact routine.elim
  | stopTransferLeadership => exact routine.elim
  | destroy => exact routine.elim

end Replicator

end QuorumKit
