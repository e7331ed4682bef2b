/-
When a replicator sends `TimeoutNow`.

`_transfer_leadership` sends it at once, if the follower has everything, and otherwise keeps
the index to wait for.  A success of a request or of a snapshot compares this index with the
first one in flight.
-/

import QuorumKit.Replicator.Bookkeeping
import QuorumKit.Replicator.Indifference

namespace QuorumKit

namespace Replicator

variable {P D C : Type}

def timeoutNowDue (r : Replicator P D) : Bool :=
  0 < r.timeoutNowIndex ∧ r.timeoutNowIndex < r.minFlyingIndex

def snapshotInstalled (lastIncludedIndex : Nat) (r : Replicator P D) : Replicator P D :=
  { r with
    reader := false
    installSnapshotInFly := none
    nextIndex := lastIncludedIndex + 1
    installed := lastIncludedIndex :: r.installed
    hasSucceeded := true }

/-- The step calls `_send_timeout_now(_, false)`. -/
def sendsTimeoutNow (options : ReplicatorOptions P D) (action : Action P D C)
    (r : Replicator P D) : Bool :=
  if r.destroyed then false
  else
    match action with
    | .onRpcReturned _ callId (.returned response) =>
        match r.sent[callId]? with
        | none => false
        | some request =>
            r.isValidRpc callId (request.prevLogIndex + 1) ∧ response.success ∧
              response.term = options.term ∧ (r.succeed request).timeoutNowDue
    | .onInstallSnapshotReturned _ true =>
        match r.installSnapshotInFly with
        | none => false
        | some lastIncludedIndex => (r.snapshotInstalled lastIncludedIndex).timeoutNowDue
    | .transferLeadership logIndex => r.hasSucceeded ∧ logIndex < r.minFlyingIndex
    | _ => false

variable {r after : Replicator P D} {options : ReplicatorOptions P D}
  {around : ReplicatorSurroundings P D C}

def KeepsTimeoutNow (r after : Replicator P D) : Prop :=
  after.timeoutNowIndex = r.timeoutNowIndex ∨ after.timeoutNowIndex = 0

theorem timeoutNowIndex_unmoved : Unmoved (timeoutNowIndex : Replicator P D → Nat) :=
  ⟨⟨fun _ _ _ => rfl, fun _ _ _ _ => rfl, fun _ _ => rfl⟩, fun _ => rfl, fun _ _ => rfl,
    fun _ _ _ _ _ _ => rfl⟩

theorem timeoutNowIndex_untouched :
    Untouched (timeoutNowIndex : Replicator P D → Nat) :=
  ⟨timeoutNowIndex_unmoved, fun _ _ => rfl⟩

theorem installed_unmoved : Unmoved (installed : Replicator P D → List Nat) :=
  ⟨⟨fun _ _ _ => rfl, fun _ _ _ _ => rfl, fun _ _ => rfl⟩, fun _ => rfl, fun _ _ => rfl,
    fun _ _ _ _ _ _ => rfl⟩

theorem timeoutNow_keeps (r : Replicator P D) : KeepsTimeoutNow r r.timeoutNow := by
  unfold Replicator.timeoutNow
  by_cases due : 0 < r.timeoutNowIndex ∧ r.timeoutNowIndex < r.minFlyingIndex
  · rw [if_pos due]
    exact Or.inr rfl
  · rw [if_neg due]
    exact Or.inl rfl

theorem KeepsTimeoutNow.sent {middle : Replicator P D} (keeps : KeepsTimeoutNow r middle)
    (same : after.timeoutNowIndex = middle.timeoutNowIndex) : KeepsTimeoutNow r after := by
  unfold KeepsTimeoutNow
  rw [same]
  exact keeps

theorem onRpcReturned_keeps {callId : Nat} {answer : RpcAnswer}
    (called : r.onRpcReturned options around callId answer = some after) :
    KeepsTimeoutNow r after := by
  unfold Replicator.onRpcReturned at called
  cases isSent : r.sent[callId]? with
  | none =>
      rw [isSent] at called
      cases called
  | some request =>
      rw [isSent] at called
      simp only at called
      by_cases zero : r.minFlyingIndex = 0
      · rw [if_pos zero] at called
        cases called
      rw [if_neg zero] at called
      by_cases invalid : ¬ r.isValidRpc callId (request.prevLogIndex + 1) = true
      · rw [if_pos invalid] at called
        cases called
        exact Or.inl rfl
      rw [if_neg invalid] at called
      cases answer with
      | failed =>
          exact Or.inl (preserves_blockFailed timeoutNowIndex_unmoved.toIndifferent
            r.resetNextIndex after called)
      | returned response =>
          simp only at called
          by_cases failed : ¬ response.success = true
          · rw [if_pos failed] at called
            by_cases higher : options.term < response.term
            · rw [if_pos higher] at called
              cases called
              exact Or.inl rfl
            · rw [if_neg higher] at called
              exact Or.inl (preserves_sendEmptyEntries timeoutNowIndex_unmoved.toIndifferent
                around.attempts
                { r.resetNextIndex with
                  nextIndex := indexAfterMismatch response.lastLogIndex
                    r.resetNextIndex.nextIndex } after called)
          rw [if_neg failed] at called
          by_cases otherTerm : response.term ≠ options.term
          · rw [if_pos otherTerm] at called
            cases called
            exact Or.inl rfl
          · rw [if_neg otherTerm] at called
            exact (timeoutNow_keeps (r.succeed request)).sent
              (preserves_sendEntries timeoutNowIndex_unmoved _ after called)

theorem onInstallSnapshotReturned_keeps {success : Bool}
    (called : r.onInstallSnapshotReturned options around success = some after) :
    KeepsTimeoutNow r after := by
  unfold Replicator.onInstallSnapshotReturned at called
  cases isInstalling : r.installSnapshotInFly with
  | none =>
      rw [isInstalling] at called
      cases called
  | some lastIncludedIndex =>
      rw [isInstalling] at called
      simp only at called
      by_cases failed : ¬ success = true
      · rw [if_pos failed] at called
        exact Or.inl (preserves_blockFailed timeoutNowIndex_unmoved.toIndifferent
          { r with reader := false, installSnapshotInFly := none } after called)
      · rw [if_neg failed] at called
        exact (timeoutNow_keeps (r.snapshotInstalled lastIncludedIndex)).sent
          (preserves_sendEntries timeoutNowIndex_unmoved _ after called)

theorem step_keeps {action : Action P D C}
    (other : ∀ logIndex, action ≠ .transferLeadership logIndex)
    (stepped : step options action r = some after) : KeepsTimeoutNow r after := by
  have routine (isRoutine : action.Routine) : KeepsTimeoutNow r after :=
    Or.inl (timeoutNowIndex_untouched.routine isRoutine stepped)
  unfold Replicator.step at stepped
  by_cases gone : r.destroyed
  · rw [if_pos gone] at stepped
    cases stepped
    exact Or.inl rfl
  rw [if_neg gone] at stepped
  cases action with
  | onRpcReturned around callId answer => exact onRpcReturned_keeps stepped
  | onInstallSnapshotReturned around success => exact onInstallSnapshotReturned_keeps stepped
  | onBlockTimedout => exact routine trivial
  | continueTimedout around => exact routine trivial
  | continueSending around stopped => exact routine trivial
  | changeReadonlyConfig around readonly => exact routine trivial
  | sendHeartbeat around => exact routine trivial
  | transferLeadership logIndex => exact absurd rfl (other logIndex)
  | stopTransferLeadership =>
      cases stepped
      exact Or.inr rfl
  | destroy =>
      cases stepped
      exact Or.inl rfl

/-- The follower has acknowledged, or installed a snapshot with, all entries up to this one. -/
def HasEntries (r : Replicator P D) (logIndex : Nat) : Prop :=
  ∀ index, 0 < index → index ≤ logIndex → r.Acknowledges index ∨ r.Installs index

theorem Kept.hasEntries (kept : Kept r) (succeeded : r.hasSucceeded = true) {logIndex : Nat}
    (below : logIndex < r.minFlyingIndex) : r.HasEntries logIndex :=
  fun index positive upTo => kept.covered succeeded index positive (by omega)

theorem due_iff : r.timeoutNowDue = true ↔
    0 < r.timeoutNowIndex ∧ r.timeoutNowIndex < r.minFlyingIndex := by
  unfold timeoutNowDue
  exact decide_eq_true_iff

/-- Behind a success, `TimeoutNow` is sent once the follower has the entries. -/
theorem Kept.onRpcReturned_sends (kept : Kept r) {callId : Nat} {answer : RpcAnswer}
    (called : r.onRpcReturned options around callId answer = some after)
    (sends : sendsTimeoutNow options (.onRpcReturned around callId answer) r = true) :
    0 < r.timeoutNowIndex ∧ after.HasEntries r.timeoutNowIndex := by
  have keptAfter := (kept.onRpcReturned called).1
  unfold sendsTimeoutNow at sends
  by_cases gone : r.destroyed
  · rw [if_pos gone] at sends
    cases sends
  rw [if_neg gone] at sends
  unfold Replicator.onRpcReturned at called
  cases answer with
  | failed => cases sends
  | returned response =>
      cases isSent : r.sent[callId]? with
      | none =>
          rw [isSent] at called
          cases called
      | some request =>
          simp only [isSent, Bool.decide_and, Bool.decide_eq_true, Bool.and_eq_true,
            decide_eq_true_eq] at sends
          obtain ⟨valid, success, term, isDue⟩ := sends
          have due := due_iff.mp isDue
          rw [isSent] at called
          simp only at called
          by_cases zero : r.minFlyingIndex = 0
          · rw [if_pos zero] at called
            cases called
          rw [if_neg zero, if_neg (not_not.mpr valid), if_neg (not_not.mpr success),
            if_neg (not_not.mpr term)] at called
          obtain ⟨rpc, member, index, size⟩ := kept.toPaced.valid isSent valid
          obtain ⟨streaming, _⟩ := kept.toPaced.succeed member index size
          obtain ⟨ready, sameTimeout⟩ := streaming.timeoutNow
          have same := sameTimeout.trans (ready.sendEntries called).2
          refine ⟨due.1, keptAfter.hasEntries same.hasSucceeded ?_⟩
          rw [same.minFlyingIndex]
          exact due.2

theorem onInstallSnapshotReturned_sends {success : Bool}
    (called : r.onInstallSnapshotReturned options around success = some after)
    (sends : sendsTimeoutNow options (.onInstallSnapshotReturned around success) r = true) :
    0 < r.timeoutNowIndex ∧ after.HasEntries r.timeoutNowIndex := by
  unfold sendsTimeoutNow at sends
  by_cases gone : r.destroyed
  · rw [if_pos gone] at sends
    cases sends
  rw [if_neg gone] at sends
  unfold Replicator.onInstallSnapshotReturned at called
  cases success with
  | false => cases sends
  | true =>
      cases isInstalling : r.installSnapshotInFly with
      | none =>
          rw [isInstalling] at called
          cases called
      | some lastIncludedIndex =>
          simp only [isInstalling] at sends
          have due := due_iff.mp sends
          rw [isInstalling] at called
          change sendEntries options around (r.snapshotInstalled lastIncludedIndex).timeoutNow =
            some after at called
          have installed : after.installed = lastIncludedIndex :: r.installed := by
            rw [preserves_sendEntries installed_unmoved _ after called]
            unfold Replicator.timeoutNow
            rw [if_pos due]
            rfl
          have upTo : r.timeoutNowIndex < lastIncludedIndex + 1 - r.flyingAppendEntriesSize := due.2
          refine ⟨due.1, ?_⟩
          intro index _ below
          refine Or.inr ⟨lastIncludedIndex, ?_, by omega⟩
          rw [installed]
          exact List.mem_cons_self

theorem Kept.step_sends (kept : Kept r) {action : Action P D C}
    (other : ∀ logIndex, action ≠ .transferLeadership logIndex)
    (stepped : Replicator.step options action r = some after)
    (sends : sendsTimeoutNow options action r = true) :
    0 < r.timeoutNowIndex ∧ after.HasEntries r.timeoutNowIndex := by
  have sent := sends
  unfold sendsTimeoutNow at sent
  by_cases gone : r.destroyed
  · rw [if_pos gone] at sent
    cases sent
  rw [if_neg gone] at sent
  unfold Replicator.step at stepped
  rw [if_neg gone] at stepped
  cases action with
  | onRpcReturned around callId answer => exact kept.onRpcReturned_sends stepped sends
  | onInstallSnapshotReturned around success =>
      exact onInstallSnapshotReturned_sends stepped sends
  | transferLeadership logIndex => exact absurd rfl (other logIndex)
  | onBlockTimedout => cases sent
  | continueTimedout around => cases sent
  | continueSending around stopped => cases sent
  | changeReadonlyConfig around readonly => cases sent
  | sendHeartbeat around => cases sent
  | stopTransferLeadership => cases sent
  | destroy => cases sent

theorem Kept.transfer_sends (kept : Kept r) {logIndex : Nat}
    (sends : sendsTimeoutNow options (.transferLeadership logIndex : Action P D C) r = true) :
    (r.transferLeadership logIndex).HasEntries logIndex := by
  unfold sendsTimeoutNow at sends
  by_cases gone : r.destroyed
  · rw [if_pos gone] at sends
    cases sends
  rw [if_neg gone] at sends
  have ready : r.hasSucceeded = true ∧ logIndex < r.minFlyingIndex := of_decide_eq_true sends
  have hasEntries := kept.hasEntries ready.1 ready.2
  unfold Replicator.transferLeadership
  rw [if_pos ready]
  exact hasEntries

end Replicator

end QuorumKit
