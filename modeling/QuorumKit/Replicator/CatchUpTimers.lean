/-
The calls of `_notify_on_caught_up`, and the timers of the closures.

A call keeps the closure, settles it for a timer that is running, or runs it.  The numbers of
the closures that are run and of the one that waits are those that were given, and a timer is
always that of the closure that waits.
-/

import QuorumKit.Replicator.CatchUp

namespace QuorumKit

variable {P D C : Type}

namespace Replicator

/-- The follower has what lies before the queue. -/
def Covers (r : Replicator P D) : Prop :=
  ∀ index, 0 < index → index < r.minFlyingIndex → r.Acknowledges index ∨ r.Installs index

theorem Kept.succeed_covers {r : Replicator P D} (kept : Kept r) {callId : Nat}
    {request : AppendEntriesRequest P D} (isSent : r.sent[callId]? = some request)
    (valid : r.isValidRpc callId (request.prevLogIndex + 1)) : (r.succeed request).Covers := by
  obtain ⟨rpc, member, index, size⟩ := kept.toPaced.valid isSent valid
  have minimum := (kept.toPaced.succeed member index size).2.1
  intro index _ below
  rw [minimum] at below
  refine Or.inl ⟨request.prevLogIndex + request.entries.length, List.mem_cons_self, ?_⟩
  omega

theorem snapshotInstalled_covers (lastIncludedIndex : Nat) (r : Replicator P D) :
    (r.snapshotInstalled lastIncludedIndex).Covers := by
  intro index _ below
  have upTo : index < lastIncludedIndex + 1 - r.flyingAppendEntriesSize := below
  refine Or.inr ⟨lastIncludedIndex, List.mem_cons_self, ?_⟩
  omega

end Replicator

namespace CatchUps

/-! ### What a call does -/

/-- The numbers of the closures that are run, and of the one that waits. -/
def numbers (ups : CatchUps P D) : List Nat :=
  ups.runs.map (fun run => run.closure.number) ++
    ups.catchupClosure.toList.map (fun closure => closure.number)

/-- The outcomes of `_notify_on_caught_up`. -/
inductive Notified (manager : LogManager P D C) (errorCode : Int) (beforeDestroy : Bool)
    (timer : Option Nat) (ups : CatchUps P D) : CatchUps P D → Prop
  | idle (noClosure : ups.catchupClosure = none) :
      Notified manager errorCode beforeDestroy timer ups ups
  | kept (closure : CatchupClosure P D) (waits : ups.catchupClosure = some closure)
      (calm : errorCode ≠ ETIMEDOUT ∧ errorCode ≠ EPERM)
      (unready : ups.replicator.isCatchup manager closure.maxMargin = true →
        closure.errorWasSet = true) :
      Notified manager errorCode beforeDestroy timer ups ups
  | postponed (closure : CatchupClosure P D) (waits : ups.catchupClosure = some closure)
      (caughtUp : ups.replicator.isCatchup manager closure.maxMargin = true)
      (unset : closure.errorWasSet = false) :
      Notified manager errorCode beforeDestroy timer ups
        { ups with catchupClosure := some (closure.settle manager errorCode ups.replicator) }
  | settled (closure : CatchupClosure P D) (waits : ups.catchupClosure = some closure)
      (caughtUp : ups.replicator.isCatchup manager closure.maxMargin = true)
      (unset : closure.errorWasSet = false) (timers : List Nat)
      (deleted : if closure.hasTimer ∧ ¬ beforeDestroy then
          closure.number ∉ ups.expired ∧ timers = ups.timers.erase closure.number
        else timers = ups.timers) :
      Notified manager errorCode beforeDestroy timer ups
        ({ ups with catchupClosure := none, timers := timers }.run timer
          (closure.settle manager errorCode ups.replicator))
  | failed (closure : CatchupClosure P D) (waits : ups.catchupClosure = some closure)
      (urgent : errorCode = ETIMEDOUT ∨ errorCode = EPERM) :
      Notified manager errorCode beforeDestroy timer ups
        ({ ups with catchupClosure := none }.run timer (closure.fail errorCode))

variable {options : ReplicatorOptions P D} {manager : LogManager P D C} {errorCode : Int}
  {beforeDestroy : Bool} {timer : Option Nat} {ups after : CatchUps P D}

theorem notifyOnCaughtUp_notified (manager : LogManager P D C) (errorCode : Int)
    (beforeDestroy : Bool) (timer : Option Nat) (ups : CatchUps P D) :
    Notified manager errorCode beforeDestroy timer ups
      (ups.notifyOnCaughtUp manager errorCode beforeDestroy timer) := by
  unfold notifyOnCaughtUp
  cases waits : ups.catchupClosure with
  | none => exact .idle waits
  | some closure =>
      simp only
      by_cases calm : errorCode ≠ ETIMEDOUT ∧ errorCode ≠ EPERM
      · rw [if_pos calm]
        by_cases far : ¬ ups.replicator.isCatchup manager closure.maxMargin = true
        · rw [if_pos far]
          exact .kept closure waits calm (fun caughtUp => absurd caughtUp far)
        rw [if_neg far]
        have caughtUp := not_not.mp far
        by_cases set : closure.errorWasSet = true
        · rw [if_pos set]
          exact .kept closure waits calm (fun _ => set)
        rw [if_neg set]
        have unset : closure.errorWasSet = false := Bool.eq_false_of_not_eq_true set
        by_cases deletes : closure.hasTimer = true ∧ ¬ beforeDestroy = true
        · rw [if_pos deletes]
          by_cases running : closure.number ∈ ups.expired
          · rw [if_pos running]
            exact .postponed closure waits caughtUp unset
          · rw [if_neg running]
            refine .settled closure waits caughtUp unset (ups.timers.erase closure.number) ?_
            rw [if_pos deletes]
            exact ⟨running, rfl⟩
        · rw [if_neg deletes]
          refine .settled closure waits caughtUp unset ups.timers ?_
          rw [if_neg deletes]
      · rw [if_neg calm]
        refine .failed closure waits ?_
        by_cases timedOut : errorCode = ETIMEDOUT
        · exact Or.inl timedOut
        · exact Or.inr (by_contra (fun other => calm ⟨timedOut, other⟩))

@[simp] theorem settle_number (manager : LogManager P D C) (errorCode : Int) (r : Replicator P D)
    (closure : CatchupClosure P D) :
    (closure.settle manager errorCode r).number = closure.number := rfl

@[simp] theorem settle_hasTimer (manager : LogManager P D C) (errorCode : Int)
    (r : Replicator P D) (closure : CatchupClosure P D) :
    (closure.settle manager errorCode r).hasTimer = closure.hasTimer := rfl

@[simp] theorem fail_number (errorCode : Int) (closure : CatchupClosure P D) :
    (closure.fail errorCode).number = closure.number := by
  unfold CatchupClosure.fail
  split_ifs <;> rfl

theorem notifyOnCaughtUp_urgent (urgent : errorCode = ETIMEDOUT ∨ errorCode = EPERM) :
    (ups.notifyOnCaughtUp manager errorCode beforeDestroy timer).catchupClosure = none := by
  unfold notifyOnCaughtUp
  cases waits : ups.catchupClosure with
  | none => exact waits
  | some closure =>
      have notCalm : ¬ (errorCode ≠ ETIMEDOUT ∧ errorCode ≠ EPERM) := by
        intro calm
        cases urgent with
        | inl timedOut => exact calm.1 timedOut
        | inr stepped => exact calm.2 stepped
      simp only
      rw [if_neg notCalm]
      rfl

theorem notifyOnCaughtUp_stopped (ready : ∀ closure, ups.catchupClosure = some closure →
      ups.replicator.isCatchup manager closure.maxMargin = true ∧ closure.errorWasSet = false) :
    (ups.notifyOnCaughtUp manager ESTOP true timer).catchupClosure = none := by
  unfold notifyOnCaughtUp
  cases waits : ups.catchupClosure with
  | none => exact waits
  | some closure =>
      obtain ⟨caughtUp, unset⟩ := ready closure waits
      have calm : ESTOP ≠ ETIMEDOUT ∧ ESTOP ≠ EPERM := by decide
      simp only
      rw [if_pos calm, if_neg (not_not.mpr caughtUp), unset, if_neg Bool.false_ne_true,
        if_neg (fun deletes => deletes.2 trivial)]
      rfl

structure Frame (ups after : CatchUps P D) : Prop where
  replicator : after.replicator = ups.replicator
  given : after.given = ups.given
  expired : after.expired = ups.expired
  inGroup : after.inGroup = ups.inGroup
  stops : after.stops = ups.stops

theorem Notified.frame (notified : Notified manager errorCode beforeDestroy timer ups after) :
    Frame ups after := by
  cases notified with
  | idle noClosure => exact ⟨rfl, rfl, rfl, rfl, rfl⟩
  | kept closure waits calm unready => exact ⟨rfl, rfl, rfl, rfl, rfl⟩
  | postponed closure waits caughtUp unset => exact ⟨rfl, rfl, rfl, rfl, rfl⟩
  | settled closure waits caughtUp unset timers deleted => exact ⟨rfl, rfl, rfl, rfl, rfl⟩
  | failed closure waits urgent => exact ⟨rfl, rfl, rfl, rfl, rfl⟩

/-! ### Numbers -/

structure Counted (ups : CatchUps P D) : Prop where
  numbered : ups.numbers.Perm (List.range ups.given)
  owned : ∀ run ∈ ups.runs, ∀ number, run.timer = some number → number = run.closure.number

theorem Counted.run (counted : Counted ups) {closure done : CatchupClosure P D}
    (waits : ups.catchupClosure = some closure) (number : done.number = closure.number)
    (own : ∀ number, timer = some number → number = closure.number) (timers : List Nat) :
    Counted ({ ups with catchupClosure := none, timers := timers }.run timer done) := by
  constructor
  · have before := counted.numbered
    unfold numbers at before
    rw [waits] at before
    unfold numbers CatchUps.run
    simp only [List.map_cons, Option.toList_none, List.map_nil, List.append_nil, number]
    exact (List.perm_append_singleton _ _).symm.trans before
  · intro run member
    cases member with
    | head _ =>
        intro other same
        change other = done.number
        rw [number]
        exact own other same
    | tail _ earlier => exact counted.owned run earlier

theorem Notified.counted (notified : Notified manager errorCode beforeDestroy timer ups after)
    (counted : Counted ups)
    (own : ∀ number closure, timer = some number → ups.catchupClosure = some closure →
      number = closure.number) : Counted after := by
  cases notified with
  | idle noClosure => exact counted
  | kept closure waits calm unready => exact counted
  | postponed closure waits caughtUp unset =>
      constructor
      · have before := counted.numbered
        unfold numbers at before ⊢
        rw [waits] at before
        exact before
      · exact counted.owned
  | settled closure waits caughtUp unset timers deleted =>
      exact counted.run waits (settle_number manager errorCode ups.replicator closure)
        (fun number same => own number closure same waits) timers
  | failed closure waits urgent =>
      exact counted.run waits (fail_number errorCode closure)
        (fun number same => own number closure same waits) ups.timers

theorem Counted.runGiven (counted : Counted ups) {done : CatchupClosure P D}
    (number : done.number = ups.given) :
    Counted ({ ups with given := ups.given + 1 }.run none done) := by
  constructor
  · have before := counted.numbered
    unfold numbers at before
    unfold numbers CatchUps.run
    simp only [List.map_cons, List.cons_append, number]
    rw [List.range_succ]
    exact (before.cons _).trans (List.perm_append_singleton _ _).symm
  · intro run member
    cases member with
    | head _ =>
        intro other same
        cases same
    | tail _ earlier => exact counted.owned run earlier

theorem Counted.wait (counted : Counted ups) {done : CatchupClosure P D}
    (number : done.number = ups.given) (noClosure : ups.catchupClosure = none)
    (timers : List Nat) :
    Counted { ups with
      given := ups.given + 1
      catchupClosure := some done
      timers := timers } := by
  constructor
  · have before := counted.numbered
    unfold numbers at before
    rw [noClosure] at before
    unfold numbers
    simp only [Option.toList_none, List.map_nil, List.append_nil, Option.toList_some,
      List.map_cons, number] at before ⊢
    rw [List.range_succ]
    exact before.append_right _
  · exact counted.owned

/-! ### Timers -/

structure Booked (ups : CatchUps P D) : Prop extends Counted ups where
  armed : ∀ closure, ups.catchupClosure = some closure → ups.replicator.destroyed = false →
    ups.timers ++ ups.expired = if closure.hasTimer then [closure.number] else []
  free : ups.catchupClosure = none → ups.inGroup = true → ups.replicator.destroyed = false →
    ups.timers ++ ups.expired = []
  stopped : 0 < ups.stops → ups.catchupClosure = none ∧ ups.inGroup = false

theorem Notified.of_none (notified : Notified manager errorCode beforeDestroy timer ups after)
    (noClosure : ups.catchupClosure = none) : after = ups := by
  cases notified with
  | idle _ => rfl
  | kept closure waits calm unready => rfl
  | postponed closure waits caughtUp unset =>
      rw [noClosure] at waits
      cases waits
  | settled closure waits caughtUp unset timers deleted =>
      rw [noClosure] at waits
      cases waits
  | failed closure waits urgent =>
      rw [noClosure] at waits
      cases waits

theorem Notified.no_timers (notified : Notified manager errorCode beforeDestroy timer ups after)
    (noTimers : ups.timers = []) : after.timers = [] := by
  cases notified with
  | idle noClosure => exact noTimers
  | kept closure waits calm unready => exact noTimers
  | postponed closure waits caughtUp unset => exact noTimers
  | settled closure waits caughtUp unset timers deleted =>
      change timers = []
      split_ifs at deleted with deletes
      · rw [deleted.2, noTimers, List.erase_nil]
      · exact deleted.trans noTimers
  | failed closure waits urgent => exact noTimers

theorem Booked.notified_stopped (booked : Booked ups)
    (notified : Notified manager errorCode beforeDestroy timer ups after)
    (stops : 0 < after.stops) : after.catchupClosure = none ∧ after.inGroup = false := by
  rw [notified.frame.stops] at stops
  have stopped := booked.stopped stops
  rw [notified.of_none stopped.1]
  exact stopped

theorem Booked.destroy (booked : Booked ups)
    (notified : Notified manager errorCode beforeDestroy none ups after) :
    Booked after.destroy := by
  have counted := notified.counted booked.toCounted (fun _ _ same => nomatch same)
  constructor
  · exact ⟨counted.numbered, counted.owned⟩
  · intro closure waits alive
    cases alive
  · intro noClosure inGroup alive
    cases alive
  · intro stops
    have stopped := booked.notified_stopped notified stops
    exact stopped

theorem Booked.waitForCaughtUp (booked : Booked ups) (inGroup : ups.inGroup = true)
    (maxMargin : Int) (dueTime timerAdded : Bool) :
    Booked (ups.waitForCaughtUp manager maxMargin dueTime timerAdded) := by
  have ran {done : CatchupClosure P D} (number : done.number = ups.given) :
      Booked ({ ups with given := ups.given + 1 }.run none done) :=
    { booked.toCounted.runGiven number with
      armed := booked.armed
      free := booked.free
      stopped := booked.stopped }
  have running : ¬ 0 < ups.stops := by
    intro stops
    have stopped := (booked.stopped stops).2
    rw [inGroup] at stopped
    cases stopped
  unfold CatchUps.waitForCaughtUp
  simp only
  by_cases gone : ups.replicator.destroyed = true
  · rw [if_pos gone]
    exact ran rfl
  rw [if_neg gone]
  have alive : ups.replicator.destroyed = false := Bool.eq_false_of_not_eq_true gone
  by_cases waits : ups.catchupClosure.isSome = true
  · rw [if_pos waits]
    exact ran rfl
  rw [if_neg waits]
  have noClosure : ups.catchupClosure = none := Option.not_isSome_iff_eq_none.mp waits
  have noTimers := booked.free noClosure inGroup alive
  by_cases caughtUp : ups.replicator.hasSucceeded = true ∧
      ups.replicator.isCatchup manager maxMargin = true
  · rw [if_pos caughtUp]
    exact ran rfl
  rw [if_neg caughtUp]
  by_cases due : dueTime = true
  · rw [if_pos due]
    by_cases notAdded : ¬ timerAdded = true
    · rw [if_pos notAdded]
      exact ran rfl
    · rw [if_neg notAdded]
      refine { booked.toCounted.wait rfl noClosure _ with armed := ?_, free := ?_, stopped := ?_ }
      · intro closure same _
        cases same
        change ups.given :: ups.timers ++ ups.expired = [ups.given]
        rw [List.cons_append, noTimers]
      · intro none
        cases none
      · exact fun stops => absurd stops running
  · rw [if_neg due]
    refine { booked.toCounted.wait rfl noClosure _ with armed := ?_, free := ?_, stopped := ?_ }
    · intro closure same _
      cases same
      exact noTimers
    · intro none
      cases none
    · exact fun stops => absurd stops running

theorem Booked.waitCaughtup (booked : Booked ups) (maxMargin : Int)
    (dueTime timerAdded : Bool) :
    Booked (ups.waitCaughtup manager maxMargin dueTime timerAdded) := by
  unfold CatchUps.waitCaughtup
  by_cases inGroup : ups.inGroup = true
  · rw [if_neg (not_not.mpr inGroup)]
    exact booked.waitForCaughtUp inGroup maxMargin dueTime timerAdded
  · rw [if_pos inGroup]
    exact booked

theorem singleton_cases {timers expired : List Nat} {number : Nat}
    (single : timers ++ expired = [number]) :
    timers = [] ∧ expired = [number] ∨ timers = [number] ∧ expired = [] :=
  List.append_eq_singleton_iff.mp single

theorem Booked.expire (booked : Booked ups) {number : Nat}
    (called : ups.expire number = some after) : Booked after := by
  unfold CatchUps.expire at called
  by_cases scheduled : number ∈ ups.timers
  · rw [if_pos scheduled] at called
    cases called
    refine { numbered := booked.numbered, owned := booked.owned, armed := ?_, free := ?_,
             stopped := booked.stopped }
    · intro closure waits alive
      have armed := booked.armed closure waits alive
      change ups.timers.erase number ++ number :: ups.expired = _
      by_cases timer : closure.hasTimer = true
      · rw [if_pos timer] at armed ⊢
        cases singleton_cases armed with
        | inl expired =>
            rw [expired.1] at scheduled
            cases scheduled
        | inr timers =>
            rw [timers.1, List.mem_singleton] at scheduled
            rw [timers.1, timers.2, scheduled, List.erase_cons_head, List.nil_append]
      · rw [if_neg timer, List.append_eq_nil_iff] at armed
        rw [armed.1] at scheduled
        cases scheduled
    · intro noClosure inGroup alive
      have noTimers := List.append_eq_nil_iff.mp (booked.free noClosure inGroup alive)
      rw [noTimers.1] at scheduled
      cases scheduled
  · rw [if_neg scheduled] at called
    cases called

theorem Booked.onCatchUpTimedout (booked : Booked ups) {number : Nat}
    (called : ups.onCatchUpTimedout manager number = some after) : Booked after := by
  unfold CatchUps.onCatchUpTimedout at called
  by_cases hasExpired : number ∈ ups.expired
  · rw [if_pos hasExpired] at called
    simp only at called
    by_cases gone : ups.replicator.destroyed = true
    · rw [if_pos gone] at called
      cases called
      refine { numbered := booked.numbered, owned := booked.owned, armed := ?_, free := ?_,
               stopped := booked.stopped }
      · intro closure _ alive
        rw [gone] at alive
        cases alive
      · intro _ _ alive
        rw [gone] at alive
        cases alive
    rw [if_neg gone] at called
    cases called
    have alive : ups.replicator.destroyed = false := Bool.eq_false_of_not_eq_true gone
    have notified := notifyOnCaughtUp_notified manager ETIMEDOUT false (some number)
      { ups with expired := ups.expired.erase number }
    have none : (notifyOnCaughtUp manager ETIMEDOUT false (some number)
        { ups with expired := ups.expired.erase number }).catchupClosure = none :=
      notifyOnCaughtUp_urgent (Or.inl rfl)
    -- the closure that waits has this timer and no other
    have own (closure : CatchupClosure P D) (waits : ups.catchupClosure = some closure) :
        number = closure.number ∧ ups.timers = [] ∧ ups.expired = [number] := by
      have armed := booked.armed closure waits alive
      by_cases timer : closure.hasTimer = true
      · rw [if_pos timer] at armed
        cases singleton_cases armed with
        | inl expired =>
            rw [expired.2, List.mem_singleton] at hasExpired
            exact ⟨hasExpired, expired.1, hasExpired ▸ expired.2⟩
        | inr timers =>
            rw [timers.2] at hasExpired
            cases hasExpired
      · rw [if_neg timer, List.append_eq_nil_iff] at armed
        rw [armed.2] at hasExpired
        cases hasExpired
    have counted := notified.counted ⟨booked.numbered, booked.owned⟩ (by
      intro other closure same waits
      cases same
      exact (own closure waits).1)
    refine { counted with armed := ?_, free := ?_, stopped := ?_ }
    · intro closure waits
      rw [none] at waits
      cases waits
    · intro _ inGroup _
      rw [notified.frame.inGroup] at inGroup
      have noTimers : ups.timers = [] ∧ ups.expired.erase number = [] := by
        cases waits : ups.catchupClosure with
        | none =>
            have noTimers := List.append_eq_nil_iff.mp (booked.free waits inGroup alive)
            rw [noTimers.2] at hasExpired
            cases hasExpired
        | some closure =>
            have only := (own closure waits).2
            rw [only.2, List.erase_cons_head]
            exact ⟨only.1, rfl⟩
      rw [notified.no_timers noTimers.1, notified.frame.expired, List.nil_append]
      exact noTimers.2
    · intro stops
      rw [notified.frame.stops] at stops
      have stopped := booked.stopped stops
      rw [notified.of_none stopped.1]
      exact stopped
  · rw [if_neg hasExpired] at called
    cases called

theorem Booked.leave (booked : Booked ups) : Booked { ups with inGroup := false } :=
  { booked with
    free := by
      intro _ inGroup
      cases inGroup
    stopped := fun stops => ⟨(booked.stopped stops).1, rfl⟩ }

theorem Booked.stop (booked : Booked ups) : Booked (ups.stop manager) := by
  unfold CatchUps.stop
  simp only
  by_cases gone : ups.replicator.destroyed = true
  · rw [if_pos gone]
    exact booked.leave
  rw [if_neg gone]
  have notified := notifyOnCaughtUp_notified manager EPERM true none
    { ups with inGroup := false }
  have none : (notifyOnCaughtUp manager EPERM true none
      { ups with inGroup := false }).catchupClosure = none :=
    notifyOnCaughtUp_urgent (Or.inr rfl)
  have counted := notified.counted booked.leave.toCounted (fun _ _ same => nomatch same)
  refine { numbered := counted.numbered, owned := counted.owned, armed := ?_, free := ?_,
           stopped := ?_ }
  · intro closure waits
    change CatchUps.catchupClosure _ = some closure at waits
    rw [none] at waits
    cases waits
  · intro _ inGroup
    change CatchUps.inGroup _ = true at inGroup
    rw [notified.frame.inGroup] at inGroup
    cases inGroup
  · intro _
    exact ⟨none, notified.frame.inGroup⟩

theorem Booked.onError (booked : Booked ups) (called : ups.onError manager = some after) :
    Booked after := by
  unfold CatchUps.onError at called
  by_cases noStops : ups.stops = 0
  · rw [if_pos noStops] at called
    cases called
  rw [if_neg noStops] at called
  simp only at called
  have fewer : Booked { ups with stops := ups.stops - 1 } :=
    { booked with stopped := fun _ => booked.stopped (Nat.pos_of_ne_zero noStops) }
  by_cases gone : ups.replicator.destroyed = true
  · rw [if_pos gone] at called
    cases called
    exact fewer
  · rw [if_neg gone] at called
    cases called
    exact fewer.destroy (notifyOnCaughtUp_notified manager ESTOP true none _)

theorem Booked.sendTimeoutNowAndStop (booked : Booked ups) : Booked ups.sendTimeoutNowAndStop := by
  unfold CatchUps.sendTimeoutNowAndStop
  simp only
  split_ifs with gone
  · exact booked.leave
  · have left := booked.leave
    exact { left with }

theorem Booked.onTimeoutNowReturned (booked : Booked ups) {oldLeaderSteppedDown higherTerm : Bool}
    (called : ups.onTimeoutNowReturned manager oldLeaderSteppedDown higherTerm = some after) :
    Booked after := by
  unfold CatchUps.onTimeoutNowReturned at called
  by_cases isSent : oldLeaderSteppedDown ∈ ups.timeoutNows
  · rw [if_pos isSent] at called
    simp only at called
    have answered : Booked
        { ups with timeoutNows := ups.timeoutNows.erase oldLeaderSteppedDown } :=
      { booked with }
    split_ifs at called with gone higher stepped
    · cases called
      exact answered
    · cases called
      exact answered.destroy (notifyOnCaughtUp_notified manager EPERM true none _)
    · cases called
      exact answered.destroy (notifyOnCaughtUp_notified manager ESTOP true none _)
    · cases called
      exact answered
  · rw [if_neg isSent] at called
    cases called

theorem Booked.onHeartbeatReturned (booked : Booked ups) :
    Booked (ups.onHeartbeatReturned manager) := by
  unfold CatchUps.onHeartbeatReturned
  split_ifs with gone
  · exact booked
  · exact booked.destroy (notifyOnCaughtUp_notified manager EPERM true none ups)

/-! ### Progress -/

theorem Booked.success (booked : Booked ups)
    (notified : Notified manager errorCode beforeDestroy none ups after)
    (calm : errorCode ≠ ETIMEDOUT ∧ errorCode ≠ EPERM) (lives : beforeDestroy = false) :
    Booked after := by
  have counted := notified.counted booked.toCounted (fun _ _ same => nomatch same)
  have stopped := booked.notified_stopped notified
  cases notified with
  | idle noClosure => exact booked
  | kept closure waits calm unready => exact booked
  | postponed closure waits caughtUp unset =>
      refine { counted with armed := ?_, free := ?_, stopped := stopped }
      · intro settled same alive
        cases same
        exact booked.armed closure waits alive
      · intro none
        cases none
  | settled closure waits caughtUp unset timers deleted =>
      refine { counted with armed := ?_, free := ?_, stopped := stopped }
      · intro other none
        cases none
      · intro _ _ alive
        change timers ++ ups.expired = []
        have armed := booked.armed closure waits alive
        by_cases timer : closure.hasTimer = true
        · rw [if_pos timer] at armed
          rw [if_pos ⟨timer, lives ▸ Bool.false_ne_true⟩] at deleted
          cases singleton_cases armed with
          | inl expired =>
              rw [expired.2, List.mem_singleton] at deleted
              exact absurd rfl deleted.1
          | inr scheduled =>
              rw [deleted.2, scheduled.1, scheduled.2, List.erase_cons_head, List.nil_append]
        · rw [if_neg timer] at armed
          rw [if_neg (fun deletes => timer deletes.1)] at deleted
          rw [deleted]
          exact armed
  | failed closure waits urgent =>
      cases urgent with
      | inl timedOut => exact absurd timedOut calm.1
      | inr stepped => exact absurd stepped calm.2

theorem Booked.replace (booked : Booked ups) {r : Replicator P D}
    (alive : r.destroyed = false → ups.replicator.destroyed = false) (timeoutNows : List Bool) :
    Booked { ups with replicator := r, timeoutNows := timeoutNows } :=
  { booked with
    armed := fun closure waits isAlive => booked.armed closure waits (alive isAlive)
    free := fun noClosure inGroup isAlive => booked.free noClosure inGroup (alive isAlive) }

theorem notification_cases {action : Replicator.Action P D C} {r last : Replicator P D}
    {call : Notification P D C} (alive : r.destroyed = false)
    (stepped : Replicator.step options action r = some last)
    (called : notification options action r = some call) :
    call.replicator.destroyed = false ∧
      (call.errorCode = 0 ∧ call.beforeDestroy = false ∧
          (Replicator.Kept r → call.replicator.Covers) ∨
        call.errorCode = EPERM ∧ last.destroyed = true) := by
  unfold Replicator.step at stepped
  rw [alive, if_neg Bool.false_ne_true] at stepped
  unfold notification at called
  cases action with
  | onRpcReturned around callId answer =>
      cases answer with
      | failed => cases called
      | returned response =>
          simp only [Replicator.onRpcReturned] at stepped
          simp only at called
          cases isSent : r.sent[callId]? with
          | none =>
              rw [isSent] at called
              cases called
          | some request =>
              simp only [isSent] at called stepped
              by_cases invalid : ¬ r.isValidRpc callId (request.prevLogIndex + 1) = true
              · rw [if_pos invalid] at called
                cases called
              rw [if_neg invalid] at called stepped
              by_cases failed : ¬ response.success = true
              · rw [if_pos failed] at called stepped
                by_cases higher : options.term < response.term
                · rw [if_pos higher] at called stepped
                  cases called
                  split_ifs at stepped
                  cases stepped
                  exact ⟨alive, Or.inr ⟨rfl, rfl⟩⟩
                · rw [if_neg higher] at called
                  cases called
              rw [if_neg failed] at called
              by_cases otherTerm : response.term ≠ options.term
              · rw [if_pos otherTerm] at called
                cases called
              · rw [if_neg otherTerm] at called
                cases called
                exact ⟨alive, Or.inl ⟨rfl, rfl, fun kept =>
                  kept.succeed_covers isSent (not_not.mp invalid)⟩⟩
  | onInstallSnapshotReturned around success =>
      cases success with
      | false => cases called
      | true =>
          simp only at called
          cases isInstalling : r.installSnapshotInFly with
          | none =>
              rw [isInstalling] at called
              cases called
          | some lastIncludedIndex =>
              rw [isInstalling] at called
              cases called
              exact ⟨alive, Or.inl ⟨rfl, rfl, fun _ =>
                Replicator.snapshotInstalled_covers lastIncludedIndex r⟩⟩
  | onBlockTimedout => cases called
  | continueTimedout around => cases called
  | continueSending around stopped => cases called
  | changeReadonlyConfig around readonly => cases called
  | sendHeartbeat around => cases called
  | transferLeadership logIndex => cases called
  | stopTransferLeadership => cases called
  | destroy => cases called

theorem replicate_cases {action : Replicator.Action P D C}
    (called : ups.replicate options action = some after) :
    action ≠ .destroy ∧
      ∃ last timeoutNows, Replicator.step options action ups.replicator = some last ∧ after =
        { (if ups.replicator.destroyed then ups
            else ups.notify (notification options action ups.replicator)) with
          replicator := last
          timeoutNows := timeoutNows } := by
  unfold replicate at called
  cases action with
  | destroy => cases called
  | _ =>
      obtain ⟨last, stepped, rfl⟩ := Option.map_eq_some_iff.mp called
      exact ⟨nofun, last, _, stepped, rfl⟩

theorem step_destroyed {action : Replicator.Action P D C} {r last : Replicator P D}
    (gone : r.destroyed = true) (stepped : Replicator.step options action r = some last) :
    last = r := by
  unfold Replicator.step at stepped
  rw [if_pos gone] at stepped
  cases stepped
  rfl

theorem Booked.replicate (booked : Booked ups) {action : Replicator.Action P D C}
    (called : ups.replicate options action = some after) : Booked after := by
  obtain ⟨_, last, timeoutNows, stepped, rfl⟩ := replicate_cases called
  by_cases gone : ups.replicator.destroyed = true
  · rw [if_pos gone, step_destroyed gone stepped]
    exact booked.replace (fun alive => alive) timeoutNows
  rw [if_neg gone]
  have alive : ups.replicator.destroyed = false := Bool.eq_false_of_not_eq_true gone
  cases isCalled : notification options action ups.replicator with
  | none => exact booked.replace (fun _ => alive) timeoutNows
  | some call =>
      obtain ⟨stillAlive, outcome⟩ := notification_cases alive stepped isCalled
      have current := booked.replace (fun _ => alive : call.replicator.destroyed = false → _)
        ups.timeoutNows
      have notified := notifyOnCaughtUp_notified call.logManager call.errorCode call.beforeDestroy
        none { ups with replicator := call.replicator }
      unfold notify
      cases outcome with
      | inl success =>
          have calm : call.errorCode ≠ ETIMEDOUT ∧ call.errorCode ≠ EPERM := by
            rw [success.1]
            decide
          have same := notified.frame.replicator
          refine (current.success notified calm success.2.1).replace ?_ timeoutNows
          intro _
          rw [same]
          exact stillAlive
      | inr higher =>
          have destroyed := current.destroy notified
          refine { destroyed with armed := ?_, free := ?_ }
          · intro closure _ isAlive
            change last.destroyed = false at isAlive
            rw [higher.2] at isAlive
            cases isAlive
          · intro _ _ isAlive
            change last.destroyed = false at isAlive
            rw [higher.2] at isAlive
            cases isAlive

theorem Booked.step (booked : Booked ups) {action : Action P D C}
    (stepped : ups.step options action = some after) : Booked after := by
  cases action with
  | replicate action => exact booked.replicate stepped
  | waitCaughtup manager maxMargin dueTime timerAdded =>
      cases stepped
      exact booked.waitCaughtup maxMargin dueTime timerAdded
  | expire number => exact booked.expire stepped
  | onCatchUpTimedout manager number => exact booked.onCatchUpTimedout stepped
  | stop manager =>
      cases stepped
      exact booked.stop
  | onError manager => exact booked.onError stepped
  | sendTimeoutNowAndStop =>
      cases stepped
      exact booked.sendTimeoutNowAndStop
  | onTimeoutNowReturned manager oldLeaderSteppedDown higherTerm =>
      exact booked.onTimeoutNowReturned stepped
  | onHeartbeatReturned manager =>
      cases stepped
      exact booked.onHeartbeatReturned

theorem booked_of_reachable (reached : (system options C).Reachable ups) : Booked ups := by
  induction reached with
  | start initial =>
      obtain ⟨r, _, rfl⟩ := initial
      exact
        { numbered := List.Perm.refl _
          owned := fun _ member => nomatch member
          armed := fun _ waits => nomatch waits
          free := fun _ _ _ => rfl
          stopped := fun stops => absurd stops (lt_irrefl 0) }
  | next _ _ stepped ih => exact ih.step stepped

end CatchUps

end QuorumKit
