/-
Every closure of `wait_for_caught_up` is run once.

A success finds the follower within the margin, and a replicator ends behind a call that runs
its closure.  The answer to the last `TimeoutNow` of a leader ends it behind a call that may
keep the closure, which is then never run.
-/

import QuorumKit.Replicator.CatchUpTimers

namespace QuorumKit

variable {P D C : Type}

namespace CatchUps

variable {options : ReplicatorOptions P D} {manager : LogManager P D C} {errorCode : Int}
  {beforeDestroy : Bool} {timer : Option Nat} {ups after : CatchUps P D}

theorem destroyed_unmoved : Replicator.Unmoved (Replicator.destroyed : Replicator P D → Bool) :=
  ⟨⟨fun _ _ _ => rfl, fun _ _ _ _ => rfl, fun _ _ => rfl⟩, fun _ => rfl, fun _ _ => rfl,
    fun _ _ _ _ _ _ => rfl⟩

theorem destroyed_untouched :
    Replicator.Untouched (Replicator.destroyed : Replicator P D → Bool) :=
  ⟨destroyed_unmoved, fun _ _ => rfl⟩

theorem timeoutNow_destroyed (r : Replicator P D) : r.timeoutNow.destroyed = r.destroyed := by
  unfold Replicator.timeoutNow
  split_ifs <;> rfl

theorem onRpcReturned_destroys {around : ReplicatorSurroundings P D C} {callId : Nat}
    {answer : Replicator.RpcAnswer} {r last : Replicator P D} (alive : r.destroyed = false)
    (called : r.onRpcReturned options around callId answer = some last)
    (gone : last.destroyed = true) :
    ∃ call, notification options (.onRpcReturned around callId answer) r = some call ∧
      call.errorCode = EPERM := by
  have survives (same : last.destroyed = r.destroyed) : False := by
    rw [same, alive] at gone
    cases gone
  unfold notification
  unfold Replicator.onRpcReturned at called
  cases isSent : r.sent[callId]? with
  | none =>
      rw [isSent] at called
      cases called
  | some request =>
      simp only [isSent] at called
      by_cases zero : r.minFlyingIndex = 0
      · rw [if_pos zero] at called
        cases called
      rw [if_neg zero] at called
      by_cases invalid : ¬ r.isValidRpc callId (request.prevLogIndex + 1) = true
      · rw [if_pos invalid] at called
        cases called
        exact (survives rfl).elim
      rw [if_neg invalid] at called
      cases answer with
      | failed =>
          exact (survives (Replicator.preserves_blockFailed destroyed_unmoved.toIndifferent
            r.resetNextIndex last called)).elim
      | returned response =>
          simp only [isSent]
          rw [if_neg invalid]
          simp only at called
          by_cases failed : ¬ response.success = true
          · rw [if_pos failed] at called ⊢
            by_cases higher : options.term < response.term
            · rw [if_pos higher]
              exact ⟨_, rfl, rfl⟩
            · rw [if_neg higher] at called
              have same := Replicator.preserves_sendEmptyEntries destroyed_unmoved.toIndifferent
                _ _ last called
              exact (survives same).elim
          rw [if_neg failed] at called
          by_cases otherTerm : response.term ≠ options.term
          · rw [if_pos otherTerm] at called
            cases called
            exact (survives rfl).elim
          · rw [if_neg otherTerm] at called
            exact (survives ((Replicator.preserves_sendEntries destroyed_unmoved _ last
              called).trans (timeoutNow_destroyed _))).elim

theorem onInstallSnapshotReturned_destroyed {around : ReplicatorSurroundings P D C}
    {success : Bool} {r last : Replicator P D}
    (called : r.onInstallSnapshotReturned options around success = some last) :
    last.destroyed = r.destroyed := by
  unfold Replicator.onInstallSnapshotReturned at called
  cases isInstalling : r.installSnapshotInFly with
  | none =>
      rw [isInstalling] at called
      cases called
  | some lastIncludedIndex =>
      simp only [isInstalling] at called
      by_cases failed : ¬ success = true
      · rw [if_pos failed] at called
        have same := Replicator.preserves_blockFailed destroyed_unmoved.toIndifferent _ last called
        exact same
      · rw [if_neg failed] at called
        exact (Replicator.preserves_sendEntries destroyed_unmoved _ last called).trans
          (timeoutNow_destroyed _)

theorem step_destroys {action : Replicator.Action P D C} {r last : Replicator P D}
    (alive : r.destroyed = false) (stepped : Replicator.step options action r = some last)
    (own : action ≠ .destroy) (gone : last.destroyed = true) :
    ∃ call, notification options action r = some call ∧ call.errorCode = EPERM := by
  have survives (same : last.destroyed = r.destroyed) : False := by
    rw [same, alive] at gone
    cases gone
  have routine (isRoutine : action.Routine) : False :=
    survives (destroyed_untouched.routine isRoutine stepped)
  unfold Replicator.step at stepped
  rw [if_neg (Bool.eq_false_iff.mp alive)] at stepped
  cases action with
  | onRpcReturned around callId answer => exact onRpcReturned_destroys alive stepped gone
  | onInstallSnapshotReturned around success =>
      exact (survives (onInstallSnapshotReturned_destroyed stepped)).elim
  | onBlockTimedout => exact (routine trivial).elim
  | continueTimedout around => exact (routine trivial).elim
  | continueSending around stopped => exact (routine trivial).elim
  | changeReadonlyConfig around readonly => exact (routine trivial).elim
  | sendHeartbeat around => exact (routine trivial).elim
  | transferLeadership logIndex =>
      cases stepped
      refine (survives ?_).elim
      unfold Replicator.transferLeadership
      split_ifs <;> rfl
  | stopTransferLeadership =>
      cases stepped
      exact (survives rfl).elim
  | destroy => exact absurd rfl own

/-- A closure is settled where the follower has the log up to the margin. -/
def WithinMargin (closure : CatchupClosure P D) : Prop :=
  ∃ point, closure.settledAt = some point ∧
    ∀ index : Nat, 0 < index → (index : Int) + closure.maxMargin ≤ point.lastLogIndex →
      point.replicator.Acknowledges index ∨ point.replicator.Installs index

theorem within_of_isCatchup {closure : CatchupClosure P D} {r : Replicator P D}
    (caughtUp : r.isCatchup manager closure.maxMargin = true) (covers : r.Covers)
    (settled : closure.settledAt =
      some { replicator := r, lastLogIndex := manager.lastLogIndex }) : WithinMargin closure := by
  refine ⟨_, settled, ?_⟩
  intro index positive upTo
  unfold Replicator.isCatchup at caughtUp
  have near := (of_decide_eq_true caughtUp).2
  change (index : Int) + closure.maxMargin ≤ manager.lastLogIndex at upTo
  exact covers index positive (by omega)

structure Rated (ups : CatchUps P D) : Prop where
  waiting : ∀ closure, ups.catchupClosure = some closure → closure.errorWasSet = true →
    closure.errorCode = 0 → WithinMargin closure
  ran : ∀ run ∈ ups.runs, run.closure.errorCode = 0 → WithinMargin run.closure

theorem Rated.run (rated : Rated ups) {done : CatchupClosure P D}
    (within : done.errorCode = 0 → WithinMargin done) (timers : List Nat) :
    Rated ({ ups with catchupClosure := none, timers := timers }.run timer done) := by
  constructor
  · intro closure waits
    cases waits
  · intro run member
    cases member with
    | head _ => exact within
    | tail _ earlier => exact rated.ran run earlier

theorem settle_within {closure : CatchupClosure P D} {r : Replicator P D}
    (caughtUp : r.isCatchup manager closure.maxMargin = true)
    (covers : errorCode = 0 → r.Covers)
    (success : (closure.settle manager errorCode r).errorCode = 0) :
    WithinMargin (closure.settle manager errorCode r) := by
  have isZero : errorCode = 0 := by
    by_contra failed
    change (if errorCode ≠ 0 then errorCode else closure.errorCode) = 0 at success
    rw [if_pos failed] at success
    exact failed success
  exact within_of_isCatchup caughtUp (covers isZero) rfl

theorem Notified.rated (notified : Notified manager errorCode beforeDestroy timer ups after)
    (rated : Rated ups) (covers : errorCode = 0 → ups.replicator.Covers) : Rated after := by
  cases notified with
  | idle noClosure => exact rated
  | kept closure waits calm unready => exact rated
  | postponed closure waits caughtUp unset =>
      constructor
      · intro settled same _ success
        cases same
        exact settle_within caughtUp covers success
      · exact rated.ran
  | settled closure waits caughtUp unset timers deleted =>
      exact rated.run (settle_within caughtUp covers) timers
  | failed closure waits urgent =>
      refine rated.run ?_ ups.timers
      unfold CatchupClosure.fail
      by_cases unset : ¬ closure.errorWasSet = true
      · rw [if_pos unset]
        intro success
        change errorCode = 0 at success
        rw [success] at urgent
        cases urgent with
        | inl timedOut => cases timedOut
        | inr stepped => cases stepped
      · rw [if_neg unset]
        exact rated.waiting closure waits (not_not.mp unset)

/-- The follower leaves its readonly mode as in `Replicator.LeavesReadonly`, and the answer to
the last `TimeoutNow` finds no closure, or one within its margin that is not settled. -/
def Completes (action : Action P D C) (ups : CatchUps P D) : Prop :=
  match action with
  | .replicate action => Replicator.LeavesReadonly action ups.replicator
  | .onTimeoutNowReturned manager true false =>
      ups.replicator.destroyed = false → ∀ closure, ups.catchupClosure = some closure →
        ups.replicator.isCatchup manager closure.maxMargin = true ∧ closure.errorWasSet = false
  | _ => True

structure Settled (ups : CatchUps P D) : Prop extends Rated ups where
  kept : Replicator.Kept ups.replicator
  completed : ups.replicator.destroyed = true → ups.catchupClosure = none

theorem Settled.covers (settled : Settled ups) (succeeded : ups.replicator.hasSucceeded = true) :
    ups.replicator.Covers := settled.kept.covered succeeded

theorem Settled.destroy (settled : Settled ups)
    (notified : Notified manager errorCode beforeDestroy timer ups after) (fails : errorCode ≠ 0)
    (completed : after.catchupClosure = none) : Settled after.destroy := by
  have rated := notified.rated settled.toRated (fun success => absurd success fails)
  refine { waiting := rated.waiting, ran := rated.ran, kept := ?_, completed := fun _ => completed }
  change Replicator.Kept { after.replicator with destroyed := true }
  rw [notified.frame.replicator]
  exact (settled.kept.frame _ _ _).1

theorem Settled.notified (settled : Settled ups)
    (notified : Notified manager errorCode beforeDestroy timer ups after)
    (covers : errorCode = 0 → ups.replicator.Covers) : Settled after := by
  refine { notified.rated settled.toRated covers with kept := ?_, completed := ?_ }
  · rw [notified.frame.replicator]
    exact settled.kept
  · intro gone
    rw [notified.frame.replicator] at gone
    have noClosure := settled.completed gone
    rw [notified.of_none noClosure]
    exact noClosure

theorem Settled.waitForCaughtUp (settled : Settled ups) (maxMargin : Int)
    (dueTime timerAdded : Bool) :
    Settled (ups.waitForCaughtUp manager maxMargin dueTime timerAdded) := by
  have ran {done : CatchupClosure P D} (within : done.errorCode = 0 → WithinMargin done) :
      Settled ({ ups with given := ups.given + 1 }.run none done) := by
    refine { waiting := settled.waiting, ran := ?_, kept := settled.kept,
             completed := settled.completed }
    intro run member
    cases member with
    | head _ => exact within
    | tail _ earlier => exact settled.ran run earlier
  have refused {done : CatchupClosure P D} (invalid : done.errorCode = EINVAL) :
      Settled ({ ups with given := ups.given + 1 }.run none done) := by
    refine ran ?_
    intro success
    rw [invalid] at success
    cases success
  have waits {done : CatchupClosure P D} (fresh : done.errorWasSet = false)
      (alive : ¬ ups.replicator.destroyed = true) (timers : List Nat) :
      Settled { ups with
        given := ups.given + 1
        catchupClosure := some done
        timers := timers } := by
    refine { waiting := ?_, ran := settled.ran, kept := settled.kept, completed := ?_ }
    · intro closure same set
      cases same
      rw [fresh] at set
      cases set
    · intro gone
      exact absurd gone alive
  unfold CatchUps.waitForCaughtUp
  simp only
  by_cases gone : ups.replicator.destroyed = true
  · rw [if_pos gone]
    exact refused rfl
  rw [if_neg gone]
  by_cases busy : ups.catchupClosure.isSome = true
  · rw [if_pos busy]
    exact refused rfl
  rw [if_neg busy]
  by_cases caughtUp : ups.replicator.hasSucceeded = true ∧
      ups.replicator.isCatchup manager maxMargin = true
  · rw [if_pos caughtUp]
    exact ran (fun _ => within_of_isCatchup caughtUp.2 (settled.covers caughtUp.1) rfl)
  rw [if_neg caughtUp]
  by_cases due : dueTime = true
  · rw [if_pos due]
    by_cases notAdded : ¬ timerAdded = true
    · rw [if_pos notAdded]
      exact refused rfl
    · rw [if_neg notAdded]
      exact waits rfl gone _
  · rw [if_neg due]
    exact waits rfl gone _

theorem Settled.onCatchUpTimedout (settled : Settled ups) {number : Nat}
    (called : ups.onCatchUpTimedout manager number = some after) : Settled after := by
  unfold CatchUps.onCatchUpTimedout at called
  have taken : Settled { ups with expired := ups.expired.erase number } := { settled with }
  simp only at called
  split_ifs at called with hasExpired gone
  · cases called
    exact taken
  · cases called
    exact taken.notified (notifyOnCaughtUp_notified manager ETIMEDOUT false (some number) _)
      (fun success => nomatch success)

theorem Settled.stop (settled : Settled ups) : Settled (ups.stop manager) := by
  unfold CatchUps.stop
  have left : Settled { ups with inGroup := false } := { settled with }
  simp only
  split_ifs with gone
  · exact left
  · have notified := left.notified
      (notifyOnCaughtUp_notified manager EPERM true none { ups with inGroup := false })
      (fun success => nomatch success)
    exact { notified with }

theorem Settled.onError (settled : Settled ups) (booked : Booked ups)
    (called : ups.onError manager = some after) : Settled after := by
  unfold CatchUps.onError at called
  have fewer : Settled { ups with stops := ups.stops - 1 } := { settled with }
  simp only at called
  split_ifs at called with noStops gone
  · cases called
    exact fewer
  · cases called
    have noClosure := (booked.stopped (Nat.pos_of_ne_zero noStops)).1
    have notified := notifyOnCaughtUp_notified manager ESTOP true none
      { ups with stops := ups.stops - 1 }
    refine fewer.destroy notified (by decide) ?_
    rw [notified.of_none noClosure]
    exact noClosure

theorem Settled.sendTimeoutNowAndStop (settled : Settled ups) :
    Settled ups.sendTimeoutNowAndStop := by
  unfold CatchUps.sendTimeoutNowAndStop
  simp only
  split_ifs with gone
  · exact { settled with }
  · exact { settled with }

theorem Settled.onTimeoutNowReturned (settled : Settled ups)
    {oldLeaderSteppedDown higherTerm : Bool}
    (completes : Completes (.onTimeoutNowReturned manager oldLeaderSteppedDown higherTerm) ups)
    (called : ups.onTimeoutNowReturned manager oldLeaderSteppedDown higherTerm = some after) :
    Settled after := by
  unfold CatchUps.onTimeoutNowReturned at called
  have answered : Settled
      { ups with timeoutNows := ups.timeoutNows.erase oldLeaderSteppedDown } := { settled with }
  simp only at called
  split_ifs at called with isSent gone higher stepped
  · cases called
    exact answered
  · cases called
    exact answered.destroy (notifyOnCaughtUp_notified manager EPERM true none _) (by decide)
      (notifyOnCaughtUp_urgent (Or.inr rfl))
  · cases called
    have alive : ups.replicator.destroyed = false := Bool.eq_false_of_not_eq_true gone
    refine answered.destroy (notifyOnCaughtUp_notified manager ESTOP true none _) (by decide) ?_
    cases oldLeaderSteppedDown with
    | false => cases stepped
    | true =>
        cases higherTerm with
        | true => exact absurd rfl higher
        | false => exact notifyOnCaughtUp_stopped (completes alive)
  · cases called
    exact answered

theorem Settled.onHeartbeatReturned (settled : Settled ups) :
    Settled (ups.onHeartbeatReturned manager) := by
  unfold CatchUps.onHeartbeatReturned
  split_ifs with gone
  · exact settled
  · exact settled.destroy (notifyOnCaughtUp_notified manager EPERM true none ups) (by decide)
      (notifyOnCaughtUp_urgent (Or.inr rfl))

theorem Settled.replicate (settled : Settled ups) {action : Replicator.Action P D C}
    (leaves : Replicator.LeavesReadonly action ups.replicator)
    (called : ups.replicate options action = some after) : Settled after := by
  obtain ⟨own, last, timeoutNows, stepped, rfl⟩ := replicate_cases called
  have kept := (settled.kept.step leaves stepped).1
  by_cases gone : ups.replicator.destroyed = true
  · rw [if_pos gone, step_destroyed gone stepped]
    exact { settled with }
  rw [if_neg gone]
  have alive : ups.replicator.destroyed = false := Bool.eq_false_of_not_eq_true gone
  cases isCalled : notification options action ups.replicator with
  | none =>
      refine { waiting := settled.waiting, ran := settled.ran, kept := kept, completed := ?_ }
      intro destroyed
      obtain ⟨call, isEnd, _⟩ := step_destroys alive stepped own destroyed
      rw [isCalled] at isEnd
      cases isEnd
  | some call =>
      have outcome := (notification_cases alive stepped isCalled).2
      have current : Rated { ups with replicator := call.replicator } :=
        ⟨settled.waiting, settled.ran⟩
      have covers : call.errorCode = 0 → call.replicator.Covers := by
        intro success
        cases outcome with
        | inl succeeded => exact succeeded.2.2 settled.kept
        | inr higher =>
            rw [higher.1] at success
            cases success
      have rated := (notifyOnCaughtUp_notified call.logManager call.errorCode call.beforeDestroy
        none { ups with replicator := call.replicator }).rated current covers
      refine { waiting := rated.waiting, ran := rated.ran, kept := kept, completed := ?_ }
      intro destroyed
      obtain ⟨other, isEnd, urgent⟩ := step_destroys alive stepped own destroyed
      rw [isCalled] at isEnd
      cases isEnd
      exact notifyOnCaughtUp_urgent (Or.inr urgent)

theorem Settled.step (settled : Settled ups) (booked : Booked ups) {action : Action P D C}
    (completes : Completes action ups) (stepped : ups.step options action = some after) :
    Settled after := by
  cases action with
  | replicate action => exact settled.replicate completes stepped
  | waitCaughtup manager maxMargin dueTime timerAdded =>
      cases stepped
      unfold CatchUps.waitCaughtup
      split_ifs with inGroup
      · exact settled.waitForCaughtUp maxMargin dueTime timerAdded
      · exact settled
  | expire number =>
      change ups.expire number = some after at stepped
      unfold CatchUps.expire at stepped
      split_ifs at stepped with scheduled
      cases stepped
      exact { settled with }
  | onCatchUpTimedout manager number => exact settled.onCatchUpTimedout stepped
  | stop manager =>
      cases stepped
      exact settled.stop
  | onError manager => exact settled.onError booked stepped
  | sendTimeoutNowAndStop =>
      cases stepped
      exact settled.sendTimeoutNowAndStop
  | onTimeoutNowReturned manager oldLeaderSteppedDown higherTerm =>
      exact settled.onTimeoutNowReturned completes stepped
  | onHeartbeatReturned manager =>
      cases stepped
      exact settled.onHeartbeatReturned

theorem settled_of_reachable
    (reached : ((system options C).restrict Completes).Reachable ups) : Settled ups := by
  induction reached with
  | start initial =>
      obtain ⟨r, started, rfl⟩ := initial
      exact
        { waiting := fun _ waits => nomatch waits
          ran := fun _ member => nomatch member
          kept := started.kept
          completed := fun _ => rfl }
  | next reached allowed stepped ih =>
      exact ih.step (booked_of_reachable reached.of_restrict) allowed.2 stepped

/-- Each closure that was given is run once or waits.  One that waits has its timer, and a timer
runs no other; when the replicator is destroyed none waits.  A success was within the margin. -/
structure RunOnce (ups : CatchUps P D) : Prop where
  once : ups.numbers.Perm (List.range ups.given)
  completed : ups.replicator.destroyed = true → ups.catchupClosure = none
  timed : ∀ closure, ups.catchupClosure = some closure → closure.hasTimer = true →
    closure.number ∈ ups.timers ∨ closure.number ∈ ups.expired
  owned : ∀ run ∈ ups.runs, ∀ number, run.timer = some number → number = run.closure.number
  within : ∀ run ∈ ups.runs, run.closure.errorCode = 0 → WithinMargin run.closure

/-- The closures of every run in which the last answer to the leader completes them. -/
theorem catchUp_run (reached : ((system options C).restrict Completes).Reachable ups) :
    RunOnce ups := by
  have booked := booked_of_reachable reached.of_restrict
  have settled := settled_of_reachable reached
  refine { once := booked.numbered, completed := settled.completed, timed := ?_,
           owned := booked.owned, within := settled.ran }
  intro closure waits timer
  have alive : ups.replicator.destroyed = false := by
    cases gone : ups.replicator.destroyed with
    | false => rfl
    | true =>
        rw [settled.completed gone] at waits
        cases waits
  have armed := booked.armed closure waits alive
  rw [if_pos timer] at armed
  rw [← List.mem_append, armed]
  exact List.mem_singleton_self _

/-- The last answer to the leader leaves a closure exactly if it is out of its margin, or is
settled and waits for its timer. -/
theorem onTimeoutNowReturned_completed_iff (alive : ups.replicator.destroyed = false)
    (called : ups.onTimeoutNowReturned manager true false = some after) :
    after.catchupClosure = none ↔ ∀ closure, ups.catchupClosure = some closure →
      ups.replicator.isCatchup manager closure.maxMargin = true ∧
        closure.errorWasSet = false := by
  unfold onTimeoutNowReturned at called
  by_cases isSent : true ∈ ups.timeoutNows
  · rw [if_pos isSent] at called
    simp only [alive, Bool.false_eq_true, if_false, if_true] at called
    cases called
    constructor
    · intro completed closure waits
      change catchupClosure (notifyOnCaughtUp _ _ _ _ _) = none at completed
      have notified := notifyOnCaughtUp_notified manager ESTOP true none
        { ups with timeoutNows := ups.timeoutNows.erase true }
      generalize notifyOnCaughtUp manager ESTOP true none
        { ups with timeoutNows := ups.timeoutNows.erase true } = last at completed notified
      cases notified with
      | idle noClosure =>
          change ups.catchupClosure = none at noClosure
          rw [noClosure] at waits
          cases waits
      | kept other others calm unready =>
          rw [others] at completed
          cases completed
      | postponed other others caughtUp unset => cases completed
      | settled other others caughtUp unset timers deleted =>
          change ups.catchupClosure = some other at others
          rw [others] at waits
          cases waits
          exact ⟨caughtUp, unset⟩
      | failed other others urgent =>
          cases urgent with
          | inl timedOut => cases timedOut
          | inr stepped => cases stepped
    · intro ready
      exact notifyOnCaughtUp_stopped ready
  · rw [if_neg isSent] at called
    cases called

theorem step_gone {action : Action P D C} (gone : ups.replicator.destroyed = true)
    (stepped : ups.step options action = some after) :
    after.replicator.destroyed = true ∧ after.catchupClosure = ups.catchupClosure := by
  cases action with
  | replicate action =>
      obtain ⟨_, last, timeoutNows, called, rfl⟩ := replicate_cases stepped
      rw [if_pos gone, step_destroyed gone called]
      exact ⟨gone, rfl⟩
  | waitCaughtup manager maxMargin dueTime timerAdded =>
      cases stepped
      unfold waitCaughtup waitForCaughtUp
      by_cases left : ¬ ups.inGroup = true
      · rw [if_pos left]
        exact ⟨gone, rfl⟩
      · rw [if_neg left]
        simp only [gone, if_true]
        exact ⟨gone, rfl⟩
  | expire number =>
      change ups.expire number = some after at stepped
      unfold expire at stepped
      split_ifs at stepped with scheduled
      cases stepped
      exact ⟨gone, rfl⟩
  | onCatchUpTimedout manager number =>
      change ups.onCatchUpTimedout manager number = some after at stepped
      unfold onCatchUpTimedout at stepped
      simp only [gone, if_true] at stepped
      split_ifs at stepped with hasExpired
      cases stepped
      exact ⟨gone, rfl⟩
  | stop manager =>
      cases stepped
      unfold stop
      simp only
      rw [if_pos gone]
      exact ⟨gone, rfl⟩
  | onError manager =>
      change ups.onError manager = some after at stepped
      unfold onError at stepped
      simp only [gone, if_true] at stepped
      split_ifs at stepped with noStops
      cases stepped
      exact ⟨gone, rfl⟩
  | sendTimeoutNowAndStop =>
      cases stepped
      unfold sendTimeoutNowAndStop
      simp only
      rw [if_pos gone]
      exact ⟨gone, rfl⟩
  | onTimeoutNowReturned manager oldLeaderSteppedDown higherTerm =>
      change ups.onTimeoutNowReturned manager oldLeaderSteppedDown higherTerm = some after
        at stepped
      unfold onTimeoutNowReturned at stepped
      simp only [gone, if_true] at stepped
      split_ifs at stepped with isSent
      cases stepped
      exact ⟨gone, rfl⟩
  | onHeartbeatReturned manager =>
      cases stepped
      unfold onHeartbeatReturned
      rw [if_pos gone]
      exact ⟨gone, rfl⟩

theorem never_run (reached : (system options C).Reachable ups)
    (gone : ups.replicator.destroyed = true) {closure : CatchupClosure P D}
    (waits : ups.catchupClosure = some closure)
    (reaches : (system options C).Reaches ups after) :
    closure.number ∉ after.runs.map (fun run => run.closure.number) := by
  have kept := reaches.keeps
    (fun middle => middle.replicator.destroyed = true ∧ middle.catchupClosure = some closure)
    reached (by
      intro action middle last _ _ stepped holds
      have same := step_gone holds.1 stepped
      exact ⟨same.1, same.2.trans holds.2⟩) ⟨gone, waits⟩
  have numbered := (booked_of_reachable (reached.continue reaches)).numbered
  have distinct := numbered.nodup_iff.mpr List.nodup_range
  unfold numbers at distinct
  rw [kept.2] at distinct
  intro run
  exact (List.nodup_append.mp distinct).2.2 _ run _ (List.mem_singleton_self _) rfl

def succeededReplicator : Replicator Nat Nat :=
  { nextIndex := 2
    hasSucceeded := true
    st := .idle
    waitId := 1
    sent := [Replicator.request Replicator.exampleOptions (Replicator.exampleLog 1) (1, 1) []]
    waiters := 1
    lastWaitId := 1
    acknowledged := [1] }

def lostCatchUps : CatchUps Nat Nat :=
  { replicator := { succeededReplicator with destroyed := true }
    catchupClosure := some { number := 0, maxMargin := 1, hasTimer := true }
    given := 1
    timers := [0]
    inGroup := false }

theorem lostCatchUps_reachable :
    (system Replicator.exampleOptions Nat).Reachable lostCatchUps := by
  have follows : (system Replicator.exampleOptions Nat).Follows
      [.replicate (.onRpcReturned (Replicator.exampleLog 1) 0 Replicator.answered),
        .waitCaughtup (Replicator.exampleLog 3).logManager 1 true true,
        .sendTimeoutNowAndStop,
        .onTimeoutNowReturned (Replicator.exampleLog 3).logManager true false]
      { replicator := Replicator.startedReplicator } lostCatchUps := by
    exact ⟨trivial, _, rfl, trivial, _, rfl, trivial, _, rfl, trivial, _, rfl, rfl⟩
  exact .follows _ (.start ⟨_, Replicator.startedReplicator_started, rfl⟩) follows

/-- Two entries behind, the follower is told to take over; its answer destroys the replicator,
and the closure is never run. -/
theorem lostCatchUps_never_run :
    (system Replicator.exampleOptions Nat).Reachable lostCatchUps ∧ lostCatchUps.given = 1 ∧
      ∀ after, (system Replicator.exampleOptions Nat).Reaches lostCatchUps after →
        0 ∉ after.runs.map (fun run => run.closure.number) :=
  ⟨lostCatchUps_reachable, rfl, fun _ reaches =>
    never_run lostCatchUps_reachable rfl rfl reaches⟩

def retriedCatchUps : CatchUps Nat Nat :=
  { replicator := succeededReplicator
    given := 2
    runs :=
      [{ closure :=
          { number := 1
            hasTimer := true
            errorWasSet := true
            settledAt := some
              { replicator := Replicator.startedReplicator.succeed
                  (Replicator.request Replicator.exampleOptions (Replicator.exampleLog 1) (1, 1)
                    [])
                lastLogIndex := 1 } }
         timer := none },
        { closure := { number := 0, hasTimer := true, errorCode := ETIMEDOUT }, timer := some 0 }] }

theorem retriedCatchUps_reachable :
    ((system Replicator.exampleOptions Nat).restrict Completes).Reachable retriedCatchUps := by
  have follows : ((system Replicator.exampleOptions Nat).restrict Completes).Follows
      [.waitCaughtup (Replicator.exampleLog 1).logManager 0 true true, .expire 0,
        .onCatchUpTimedout (Replicator.exampleLog 1).logManager 0,
        .waitCaughtup (Replicator.exampleLog 1).logManager 0 true true,
        .replicate (.onRpcReturned (Replicator.exampleLog 1) 0 Replicator.answered)]
      { replicator := Replicator.startedReplicator } retriedCatchUps := by
    exact ⟨⟨trivial, trivial⟩, _, rfl, ⟨trivial, trivial⟩, _, rfl, ⟨trivial, trivial⟩, _, rfl,
      ⟨trivial, trivial⟩, _, rfl, ⟨trivial, trivial⟩, _, rfl, rfl⟩
  exact .follows _ (.start ⟨_, Replicator.startedReplicator_started, rfl⟩) follows

theorem catchUp_run_retried :
    RunOnce retriedCatchUps ∧
      retriedCatchUps.runs.map (fun run => (run.closure.number, run.closure.errorCode)) =
        [(1, 0), (0, ETIMEDOUT)] :=
  ⟨catchUp_run retriedCatchUps_reachable, rfl⟩

end CatchUps

end QuorumKit
