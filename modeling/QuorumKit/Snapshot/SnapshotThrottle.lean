/-
The throughput throttle of snapshot copies, `braft/snapshot_throttle.cpp`.

Requests are booked in the cycle of the last check time.  What each call was
granted, and when, is kept in a ledger beside the throttle, so that the bytes of
an aligned cycle can be counted.  The settings do not change, a shorter cycle
than a microsecond does not exist and sums stay within 64 bits.
-/

import QuorumKit.Library.TransitionSystem
import Mathlib.Algebra.BigOperators.Group.List.Basic
import Mathlib.Algebra.Ring.Nat

namespace QuorumKit

structure ThrottleSettings where
  throttleThroughputBytes : Nat
  minimalThrottleThresholdMb : Nat := 0
  checkCycle : Nat
  positive : 0 < checkCycle
  divides : checkCycle ≤ 1000 * 1000

namespace ThrottleSettings

variable (settings : ThrottleSettings)

def limitPerCycle : Nat :=
  max settings.throttleThroughputBytes (settings.minimalThrottleThresholdMb * 1024 * 1024) /
    settings.checkCycle

def alignment : Nat := 1000 * 1000 / settings.checkCycle

def caculateCheckTimeUs (now : Nat) : Nat := now / settings.alignment * settings.alignment

theorem alignment_pos : 0 < settings.alignment :=
  Nat.div_pos settings.divides settings.positive

end ThrottleSettings

structure SnapshotThrottle where
  lastThroughputCheckTimeUs : Nat
  curThroughputBytes : Nat
deriving DecidableEq

namespace SnapshotThrottle

variable (settings : ThrottleSettings) (throttle : SnapshotThrottle)

def throttledByThroughput (bytes now : Nat) : Nat × SnapshotThrottle :=
  let limitPerCycle := settings.limitPerCycle
  if limitPerCycle < throttle.curThroughputBytes + bytes then
    if (now : Int) - throttle.lastThroughputCheckTimeUs ≤ settings.alignment then
      (limitPerCycle - throttle.curThroughputBytes,
        { throttle with curThroughputBytes := limitPerCycle })
    else
      let availableSize := if limitPerCycle < bytes then limitPerCycle else bytes
      (availableSize,
        { lastThroughputCheckTimeUs := settings.caculateCheckTimeUs now
          curThroughputBytes := availableSize })
  else
    (bytes, { throttle with curThroughputBytes := throttle.curThroughputBytes + bytes })

def returnUnusedThroughput (acquired consumed elapseTimeUs : Int) (now : Nat) :
    SnapshotThrottle :=
  if now - elapseTimeUs < throttle.lastThroughputCheckTimeUs then throttle
  else
    { throttle with
      curThroughputBytes := (max (throttle.curThroughputBytes - (acquired - consumed)) 0).toNat }

end SnapshotThrottle

structure Grant where
  time : Nat
  bytes : Nat
deriving DecidableEq

structure ThrottledCopies where
  throttle : SnapshotThrottle
  clock : Nat
  grants : List Grant
deriving DecidableEq

inductive ThrottleAction where
  | throttled (bytes now : Nat)
  | returned (index : Nat) (acquired consumed elapseTimeUs : Int) (now : Nat)

namespace ThrottledCopies

variable (settings : ThrottleSettings)

def cycleOf (time : Nat) : Nat := time / settings.alignment

def usedIn (cycle : Nat) (grants : List Grant) : Nat :=
  (grants.map (fun grant => if cycleOf settings grant.time = cycle then grant.bytes else 0)).sum

def step : ThrottleAction → ThrottledCopies → Option ThrottledCopies
  | .throttled bytes now, state =>
      let (granted, throttle) := state.throttle.throttledByThroughput settings bytes now
      some
        { throttle := throttle
          clock := now
          grants := { time := now, bytes := granted } :: state.grants }
  | .returned index acquired consumed elapseTimeUs now, state =>
      match state.grants[index]? with
      | none => none
      | some grant =>
          some
            { throttle :=
                state.throttle.returnUnusedThroughput acquired consumed elapseTimeUs now
              clock := now
              grants := state.grants.set index
                { grant with bytes := grant.bytes - (acquired - consumed).toNat } }

/-- The clock does not go back, and what is returned was granted and is not
returned twice. -/
def allowed : ThrottleAction → ThrottledCopies → Prop
  | .throttled _ now, state => state.clock ≤ now
  | .returned index acquired consumed _ now, state =>
      state.clock ≤ now ∧ consumed ≤ acquired ∧
        ∃ grant, state.grants[index]? = some grant ∧ acquired - consumed ≤ grant.bytes

def system : TransitionSystem ThrottledCopies ThrottleAction where
  init state :=
    ∃ now, state =
      { throttle := ⟨settings.caculateCheckTimeUs now, 0⟩, clock := now, grants := [] }
  allowed := allowed
  step := step settings

/-- No cycle is over its limit, and the usage that is booked covers the grants of
the cycle it is booked for. -/
structure Bounded (state : ThrottledCopies) : Prop where
  limit : ∀ cycle, usedIn settings cycle state.grants ≤ settings.limitPerCycle
  booked : usedIn settings (cycleOf settings state.throttle.lastThroughputCheckTimeUs)
    state.grants ≤ state.throttle.curThroughputBytes

def CreditsOwnCycle (action : ThrottleAction) (state : ThrottledCopies) : Prop :=
  match action with
  | .throttled _ _ => True
  | .returned index acquired consumed elapseTimeUs now =>
      state.throttle.returnUnusedThroughput acquired consumed elapseTimeUs now ≠
          state.throttle →
        ∀ grant, state.grants[index]? = some grant →
          cycleOf settings grant.time =
            cycleOf settings state.throttle.lastThroughputCheckTimeUs

/-- A request that fits comes in the cycle of the last check time, one that does
not fit is not booked there at the first instant of the next cycle, and a return
gives no later cycle than that of its grant. -/
def Timely : ThrottleAction → ThrottledCopies → Prop
  | .throttled bytes now, state =>
      let last := state.throttle.lastThroughputCheckTimeUs
      let cur := state.throttle.curThroughputBytes
      (cur + bytes ≤ settings.limitPerCycle → 0 < bytes →
          cycleOf settings now = cycleOf settings last) ∧
        (settings.limitPerCycle < cur + bytes → now = last + settings.alignment →
          settings.limitPerCycle ≤ cur)
  | .returned index _ _ elapseTimeUs now, state =>
      ∀ grant, state.grants[index]? = some grant →
        now - elapseTimeUs < ((cycleOf settings grant.time + 1) * settings.alignment : Nat)

structure Booking (state : ThrottledCopies) : Prop where
  bounded : Bounded settings state
  aligned : settings.caculateCheckTimeUs state.throttle.lastThroughputCheckTimeUs =
    state.throttle.lastThroughputCheckTimeUs
  past : state.throttle.lastThroughputCheckTimeUs ≤ state.clock
  within : state.throttle.curThroughputBytes ≤ settings.limitPerCycle
  earlier : ∀ grant ∈ state.grants, 0 < grant.bytes →
    cycleOf settings grant.time ≤
      cycleOf settings state.throttle.lastThroughputCheckTimeUs

theorem usedIn_cons (cycle : Nat) (grant : Grant) (grants : List Grant) :
    usedIn settings cycle (grant :: grants) =
      (if cycleOf settings grant.time = cycle then grant.bytes else 0) +
        usedIn settings cycle grants := by
  simp [usedIn]

theorem usedIn_later {cycle : Nat} {grants : List Grant}
    (earlier : ∀ grant ∈ grants, 0 < grant.bytes → cycleOf settings grant.time < cycle) :
    usedIn settings cycle grants = 0 := by
  induction grants with
  | nil => rfl
  | cons grant rest ih =>
      rw [usedIn_cons, ih (fun other member => earlier other (List.mem_cons_of_mem _ member))]
      have own := earlier grant (List.mem_cons_self ..)
      by_cases same : cycleOf settings grant.time = cycle
      · rw [if_pos same]
        by_contra some
        have before := own (by omega)
        omega
      · rw [if_neg same]

theorem usedIn_set (cycle : Nat) {index unused : Nat} {grant : Grant} {grants : List Grant}
    (found : grants[index]? = some grant) (enough : unused ≤ grant.bytes) :
    usedIn settings cycle
        (grants.set index { grant with bytes := grant.bytes - unused }) +
      (if cycleOf settings grant.time = cycle then unused else 0) =
        usedIn settings cycle grants := by
  induction grants generalizing index with
  | nil => simp at found
  | cons head rest ih =>
      cases index with
      | zero =>
          have same : head = grant := by simpa using found
          subst same
          rw [List.set_cons_zero, usedIn_cons, usedIn_cons]
          dsimp only
          split_ifs
          · omega
          · omega
      | succ index =>
          have later := ih (by simpa using found)
          rw [List.set_cons_succ, usedIn_cons, usedIn_cons]
          omega

theorem cycleOf_aligned (now : Nat) :
    cycleOf settings (settings.caculateCheckTimeUs now) = cycleOf settings now :=
  Nat.mul_div_cancel _ settings.alignment_pos

theorem caculateCheckTimeUs_le (now : Nat) : settings.caculateCheckTimeUs now ≤ now :=
  Nat.div_mul_le_self now settings.alignment

theorem cycleOf_eq {last now : Nat} (aligned : settings.caculateCheckTimeUs last = last)
    (past : last ≤ now) (before : now < last + settings.alignment) :
    cycleOf settings now = cycleOf settings last := by
  have start : cycleOf settings last * settings.alignment = last := aligned
  unfold cycleOf at start ⊢
  apply Nat.div_eq_of_lt_le
  · rw [start]
    exact past
  · rw [Nat.succ_mul, start]
    exact before

theorem cycleOf_lt {last now : Nat} (aligned : settings.caculateCheckTimeUs last = last)
    (beyond : last + settings.alignment ≤ now) :
    cycleOf settings last < cycleOf settings now := by
  have start : cycleOf settings last * settings.alignment = last := aligned
  unfold cycleOf at start ⊢
  apply (Nat.le_div_iff_mul_le settings.alignment_pos).mpr
  rw [Nat.succ_mul, start]
  exact beyond

variable {settings : ThrottleSettings}

theorem Booking.grant {state : ThrottledCopies} (booking : Booking settings state)
    {now granted : Nat} (later : state.clock ≤ now)
    (own : 0 < granted →
      cycleOf settings now = cycleOf settings state.throttle.lastThroughputCheckTimeUs)
    {cur : Nat} (fits : cur ≤ settings.limitPerCycle)
    (counted : state.throttle.curThroughputBytes + granted ≤ cur) :
    Booking settings
      { throttle := { state.throttle with curThroughputBytes := cur }
        clock := now
        grants := { time := now, bytes := granted } :: state.grants } where
  bounded :=
    { limit := by
        intro cycle
        have limit := booking.bounded.limit cycle
        have booked := booking.bounded.booked
        rw [usedIn_cons]
        by_cases here : cycleOf settings now = cycle
        · rw [if_pos here]
          dsimp only
          by_cases some : 0 < granted
          · have same := own some
            rw [← same, here] at booked
            omega
          · omega
        · rw [if_neg here]
          omega
      booked := by
        have booked := booking.bounded.booked
        rw [usedIn_cons]
        dsimp only
        split_ifs
        · omega
        · omega }
  aligned := booking.aligned
  past := Nat.le_trans booking.past later
  within := fits
  earlier := by
    intro grant member some
    rcases List.mem_cons.mp member with rfl | older
    · exact Nat.le_of_eq (own some)
    · exact booking.earlier grant older some

theorem Booking.rollover {state : ThrottledCopies} (booking : Booking settings state)
    {now granted : Nat}
    (beyond : state.throttle.lastThroughputCheckTimeUs + settings.alignment ≤ now)
    (fits : granted ≤ settings.limitPerCycle) :
    Booking settings
      { throttle := ⟨settings.caculateCheckTimeUs now, granted⟩
        clock := now
        grants := { time := now, bytes := granted } :: state.grants } := by
  have later := cycleOf_lt settings booking.aligned beyond
  have fresh : usedIn settings (cycleOf settings now) state.grants = 0 := by
    apply usedIn_later
    intro grant member some
    exact Nat.lt_of_le_of_lt (booking.earlier grant member some) later
  exact
    { bounded :=
        { limit := by
            intro cycle
            have limit := booking.bounded.limit cycle
            rw [usedIn_cons]
            by_cases here : cycleOf settings now = cycle
            · rw [if_pos here, ← here, fresh]
              exact fits
            · rw [if_neg here]
              omega
          booked := by
            rw [cycleOf_aligned, usedIn_cons, if_pos rfl, fresh]
            exact Nat.le_refl _ }
      aligned := by
        rw [ThrottleSettings.caculateCheckTimeUs]
        exact congrArg (· * settings.alignment) (cycleOf_aligned settings now)
      past := caculateCheckTimeUs_le settings now
      within := fits
      earlier := by
        intro grant member some
        rw [cycleOf_aligned]
        rcases List.mem_cons.mp member with rfl | older
        · exact Nat.le_refl _
        · exact Nat.le_of_lt (Nat.lt_of_le_of_lt (booking.earlier grant older some) later) }

theorem step_throttled {state after : ThrottledCopies} (booking : Booking settings state)
    {bytes now : Nat} (later : state.clock ≤ now)
    (timely : Timely settings (.throttled bytes now) state)
    (stepped : step settings (.throttled bytes now) state = some after) :
    Booking settings after := by
  have past := booking.past
  have within := booking.within
  rcases timely with ⟨fitsHere, boundary⟩
  simp only [step, SnapshotThrottle.throttledByThroughput] at stepped
  by_cases exceeds : settings.limitPerCycle < state.throttle.curThroughputBytes + bytes
  · simp only [if_pos exceeds] at stepped
    by_cases near : (now : Int) - state.throttle.lastThroughputCheckTimeUs ≤ settings.alignment
    · simp only [if_pos near] at stepped
      injection stepped with stepped
      subst stepped
      apply booking.grant later
      · intro some
        have before : now < state.throttle.lastThroughputCheckTimeUs + settings.alignment := by
          by_contra reached
          have full := boundary exceeds (by omega)
          omega
        exact cycleOf_eq settings booking.aligned (by omega) before
      · exact Nat.le_refl _
      · omega
    · simp only [if_neg near] at stepped
      injection stepped with stepped
      subst stepped
      apply booking.rollover
      · omega
      · split_ifs
        · exact Nat.le_refl _
        · omega
  · simp only [if_neg exceeds] at stepped
    injection stepped with stepped
    subst stepped
    apply booking.grant later
    · exact fitsHere (Nat.le_of_not_lt exceeds)
    · exact Nat.le_of_not_lt exceeds
    · exact Nat.le_refl _

theorem Booking.own_cycle {state : ThrottledCopies} (booking : Booking settings state)
    {index : Nat} {grant : Grant} {elapseTimeUs : Int} {now : Nat}
    (found : state.grants[index]? = some grant) (some : 0 < grant.bytes)
    (credited : ¬ now - elapseTimeUs < state.throttle.lastThroughputCheckTimeUs)
    (reported : now - elapseTimeUs <
      ((cycleOf settings grant.time + 1) * settings.alignment : Nat)) :
    cycleOf settings grant.time =
      cycleOf settings state.throttle.lastThroughputCheckTimeUs := by
  have notLater := booking.earlier grant (List.mem_of_getElem? found) some
  have start : cycleOf settings state.throttle.lastThroughputCheckTimeUs * settings.alignment =
      state.throttle.lastThroughputCheckTimeUs := booking.aligned
  have notEarlier : cycleOf settings state.throttle.lastThroughputCheckTimeUs <
      cycleOf settings grant.time + 1 := by
    apply Nat.lt_of_mul_lt_mul_right (a := settings.alignment)
    rw [start]
    omega
  omega

theorem Booking.lower {state : ThrottledCopies} (booking : Booking settings state)
    {grants : List Grant} {cur now : Nat} (later : state.clock ≤ now)
    (fewer : ∀ cycle, usedIn settings cycle grants ≤ usedIn settings cycle state.grants)
    (older : ∀ grant ∈ grants, 0 < grant.bytes →
      cycleOf settings grant.time ≤
        cycleOf settings state.throttle.lastThroughputCheckTimeUs)
    (lowered : cur ≤ state.throttle.curThroughputBytes)
    (covers : usedIn settings (cycleOf settings state.throttle.lastThroughputCheckTimeUs) grants ≤
      cur) :
    Booking settings
      { throttle := { state.throttle with curThroughputBytes := cur }
        clock := now
        grants := grants } where
  bounded :=
    { limit := fun cycle => Nat.le_trans (fewer cycle) (booking.bounded.limit cycle)
      booked := covers }
  aligned := booking.aligned
  past := Nat.le_trans booking.past later
  within := Nat.le_trans lowered booking.within
  earlier := older

theorem step_returned {state after : ThrottledCopies} (booking : Booking settings state)
    {index : Nat} {acquired consumed elapseTimeUs : Int} {now : Nat}
    (allowed : allowed (.returned index acquired consumed elapseTimeUs now) state)
    (timely : Timely settings (.returned index acquired consumed elapseTimeUs now) state)
    (stepped : step settings (.returned index acquired consumed elapseTimeUs now) state =
      some after) :
    Booking settings after := by
  rcases allowed with ⟨later, notNegative, grant, found, enough⟩
  have reported := timely grant found
  have taken : (acquired - consumed).toNat ≤ grant.bytes := by omega
  simp only [step, found] at stepped
  injection stepped with stepped
  subst stepped
  have counted := fun cycle => usedIn_set settings cycle found taken
  have fewer : ∀ cycle, usedIn settings cycle (state.grants.set index
      { grant with bytes := grant.bytes - (acquired - consumed).toNat }) ≤
        usedIn settings cycle state.grants := by
    intro cycle
    rw [← counted cycle]
    exact Nat.le_add_right _ _
  have older : ∀ other ∈ state.grants.set index
      { grant with bytes := grant.bytes - (acquired - consumed).toNat }, 0 < other.bytes →
        cycleOf settings other.time ≤
          cycleOf settings state.throttle.lastThroughputCheckTimeUs := by
    intro other member some
    rcases List.mem_or_eq_of_mem_set member with kept | rfl
    · exact booking.earlier other kept some
    · apply booking.earlier grant (List.mem_of_getElem? found)
      dsimp only at some
      omega
  have booked := booking.bounded.booked
  by_cases ignored : now - elapseTimeUs < state.throttle.lastThroughputCheckTimeUs
  · have same : state.throttle.returnUnusedThroughput acquired consumed elapseTimeUs now =
        state.throttle := if_pos ignored
    rw [same]
    exact booking.lower later fewer older (Nat.le_refl _) (Nat.le_trans (fewer _) booked)
  · have credited : state.throttle.returnUnusedThroughput acquired consumed elapseTimeUs now =
        { state.throttle with
          curThroughputBytes :=
            (max (state.throttle.curThroughputBytes - (acquired - consumed)) 0).toNat } :=
      if_neg ignored
    rw [credited]
    apply booking.lower later fewer older
    · omega
    · have count := counted (cycleOf settings state.throttle.lastThroughputCheckTimeUs)
      by_cases some : 0 < grant.bytes
      · rw [if_pos (booking.own_cycle found some ignored reported)] at count
        omega
      · omega

theorem Booking.creditsOwnCycle {state : ThrottledCopies} (booking : Booking settings state)
    {action : ThrottleAction} (allowed : allowed action state)
    (timely : Timely settings action state) : CreditsOwnCycle settings action state := by
  cases action with
  | throttled bytes now => trivial
  | returned index acquired consumed elapseTimeUs now =>
      rcases allowed with ⟨_, notNegative, grant, found, enough⟩
      intro changed other otherFound
      have sameGrant : grant = other := Option.some.inj (found.symm.trans otherFound)
      subst sameGrant
      by_cases ignored : now - elapseTimeUs < state.throttle.lastThroughputCheckTimeUs
      · exact absurd (if_pos ignored) changed
      · apply booking.own_cycle found _ ignored (timely grant found)
        by_contra none
        have unchanged : (max ((state.throttle.curThroughputBytes : Int) -
            (acquired - consumed)) 0).toNat = state.throttle.curThroughputBytes := by omega
        apply changed
        rw [SnapshotThrottle.returnUnusedThroughput, if_neg ignored, unchanged]

theorem booking_run {state : ThrottledCopies}
    (reached : ((system settings).restrict (Timely settings)).Reachable state) :
    Booking settings state := by
  apply reached.invariant (Booking settings)
  · rintro start ⟨now, rfl⟩
    exact
      { bounded := ⟨fun cycle => Nat.zero_le _, Nat.zero_le _⟩
        aligned := congrArg (· * settings.alignment) (cycleOf_aligned settings now)
        past := caculateCheckTimeUs_le settings now
        within := Nat.zero_le _
        earlier := fun grant member => absurd member List.not_mem_nil }
  · intro action before after booking allowed stepped
    cases action with
    | throttled bytes now => exact step_throttled booking allowed.1 allowed.2 stepped
    | returned index acquired consumed elapseTimeUs now =>
        exact step_returned booking allowed.1 allowed.2 stepped

/-- In a timely run no aligned cycle is over its limit, and a return is credited
to the cycle of its grant only. -/
theorem throttle_bound {state : ThrottledCopies}
    (reached : ((system settings).restrict (Timely settings)).Reachable state) :
    Bounded settings state ∧
      ∀ action, ((system settings).restrict (Timely settings)).allowed action state →
        CreditsOwnCycle settings action state := by
  have booking := booking_run reached
  exact ⟨booking.bounded, fun action allowed => booking.creditsOwnCycle allowed.1 allowed.2⟩

def tenCycles : ThrottleSettings where
  throttleThroughputBytes := 1000
  checkCycle := 10
  positive := by decide
  divides := by decide

theorem throttle_bound_first :
    Bounded tenCycles ⟨⟨0, 60⟩, 10, [⟨10, 60⟩]⟩ ∧
      usedIn tenCycles 0 [⟨10, 60⟩] = 60 := by
  have start : ((system tenCycles).restrict (Timely tenCycles)).init ⟨⟨0, 0⟩, 0, []⟩ := ⟨0, rfl⟩
  have timely : Timely tenCycles (.throttled 60 10) ⟨⟨0, 0⟩, 0, []⟩ :=
    ⟨fun _ _ => by decide, fun exceeds => absurd exceeds (by decide)⟩
  have allowed : ((system tenCycles).restrict (Timely tenCycles)).allowed (.throttled 60 10)
      ⟨⟨0, 0⟩, 0, []⟩ := ⟨Nat.zero_le _, timely⟩
  have reached : ((system tenCycles).restrict (Timely tenCycles)).Reachable
      ⟨⟨0, 60⟩, 10, [⟨10, 60⟩]⟩ := (TransitionSystem.Reachable.start start).next allowed rfl
  exact ⟨(throttle_bound reached).1, by decide⟩

/-- Two requests of 60 bytes in the second cycle: the first one fits and is
booked in the first cycle, so the other one starts the second cycle anew. -/
theorem throttle_exceeded :
    ∃ state, (system tenCycles).Reachable state ∧
      usedIn tenCycles 1 state.grants = 120 ∧ tenCycles.limitPerCycle = 100 ∧
      ¬ Bounded tenCycles state := by
  have start : (system tenCycles).init ⟨⟨0, 0⟩, 0, []⟩ := ⟨0, rfl⟩
  have first : (system tenCycles).allowed (.throttled 60 150000) ⟨⟨0, 0⟩, 0, []⟩ :=
    Nat.zero_le _
  have second : (system tenCycles).allowed (.throttled 60 160000)
      ⟨⟨0, 60⟩, 150000, [⟨150000, 60⟩]⟩ := by
    change 150000 ≤ 160000
    decide
  have reached : (system tenCycles).Reachable
      ⟨⟨100000, 60⟩, 160000, [⟨160000, 60⟩, ⟨150000, 60⟩]⟩ :=
    ((TransitionSystem.Reachable.start start).next first rfl).next second rfl
  have used : usedIn tenCycles 1 [⟨160000, 60⟩, ⟨150000, 60⟩] = 120 := by decide
  have limit : tenCycles.limitPerCycle = 100 := by decide
  refine ⟨_, reached, used, limit, ?_⟩
  intro bounded
  have within := bounded.limit 1
  rw [used, limit] at within
  omega

end ThrottledCopies
end QuorumKit
