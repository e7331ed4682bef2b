/-
The numbers of the throughput throttle, `braft/snapshot_throttle.h` and `.cpp`.

Every intermediate result is a signed number of 64 bits here, and settings are what the
constructor takes: nothing checks the cycle.  With more than a million cycles a second the
length of a cycle is zero microseconds, and aligning a time divides by it.  The sums are those
of the usage with a request and of the flag in bytes.
-/

import QuorumKit.Library.Int64
import QuorumKit.Library.TransitionSystem
import QuorumKit.Snapshot.SnapshotThrottle

namespace QuorumKit

open Library

structure ThrottleArguments where
  throttleThroughputBytes : Int
  checkCycle : Int
  minimalThrottleThresholdMb : Int := 0
  throughput : 0 ≤ throttleThroughputBytes ∧ throttleThroughputBytes ≤ int64Max
  cycle : 1 ≤ checkCycle ∧ checkCycle ≤ int64Max
  threshold : 0 ≤ minimalThrottleThresholdMb ∧ minimalThrottleThresholdMb ≤ int64Max

/-- `_last_throughput_check_time_us` and `_cur_throughput_bytes`. -/
structure ThrottleNumbers where
  lastThroughputCheckTimeUs : Int
  curThroughputBytes : Int
deriving DecidableEq

namespace ThrottleNumbers

variable (arguments : ThrottleArguments)

def caculateCheckTimeUs (currentTimeUs checkCycle : Int) : Option Int :=
  (divide (1000 * 1000) checkCycle).bind (fun baseAligningTimeUs =>
    (divide currentTimeUs baseAligningTimeUs).bind (fun cycles =>
      checked (cycles * baseAligningTimeUs)))

def limitPerCycle : Option Int :=
  (checked (arguments.minimalThrottleThresholdMb * 1024)).bind (fun kilobytes =>
    (checked (kilobytes * 1024)).bind (fun threshold =>
      divide (max arguments.throttleThroughputBytes threshold) arguments.checkCycle))

def create (now : Int) : Option ThrottleNumbers :=
  (caculateCheckTimeUs now arguments.checkCycle).map (fun time => ⟨time, 0⟩)

def exceed (bytes now limitPerCycle : Int) (throttle : ThrottleNumbers) :
    Option (Int × ThrottleNumbers) :=
  (checked (now - throttle.lastThroughputCheckTimeUs)).bind (fun elapsed =>
    (divide (1 * 1000 * 1000) arguments.checkCycle).bind (fun cycle =>
      if elapsed ≤ cycle then
        (if throttle.curThroughputBytes < limitPerCycle then
            checked (limitPerCycle - throttle.curThroughputBytes)
          else some 0).map (fun availableSize =>
            (availableSize, { throttle with curThroughputBytes := limitPerCycle }))
      else
        let availableSize := if limitPerCycle < bytes then limitPerCycle else bytes
        (caculateCheckTimeUs now arguments.checkCycle).map (fun time =>
          (availableSize, ⟨time, availableSize⟩))))

def throttledByThroughput (bytes now : Int) (throttle : ThrottleNumbers) :
    Option (Int × ThrottleNumbers) :=
  (limitPerCycle arguments).bind (fun limitPerCycle =>
    (checked (throttle.curThroughputBytes + bytes)).bind (fun wanted =>
      if limitPerCycle < wanted then throttle.exceed arguments bytes now limitPerCycle
      else some (bytes, { throttle with curThroughputBytes := wanted })))

def returnUnusedThroughput (acquired consumed elapseTimeUs now : Int)
    (throttle : ThrottleNumbers) : Option ThrottleNumbers :=
  (checked (now - elapseTimeUs)).bind (fun start =>
    if start < throttle.lastThroughputCheckTimeUs then some throttle
    else
      (checked (acquired - consumed)).bind (fun unused =>
        (checked (throttle.curThroughputBytes - unused)).map (fun left =>
          { throttle with curThroughputBytes := max left 0 })))

inductive Action where
  | create (now : Int)
  | throttled (bytes now : Int)
  | returned (acquired consumed elapseTimeUs now : Int)

def step (action : Action) (throttle : Option ThrottleNumbers) :
    Option (Option ThrottleNumbers) :=
  match action, throttle with
  | .create now, none => (create arguments now).map some
  | .throttled bytes now, some throttle =>
      (throttle.throttledByThroughput arguments bytes now).map (fun result => some result.2)
  | .returned acquired consumed elapseTimeUs now, some throttle =>
      (throttle.returnUnusedThroughput acquired consumed elapseTimeUs now).map some
  | _, _ => none

def Allowed (action : Action) (_ : Option ThrottleNumbers) : Prop :=
  match action with
  | .create now => 0 ≤ now ∧ now ≤ int64Max
  | .throttled bytes now => (0 ≤ bytes ∧ bytes ≤ int64Max) ∧ 0 ≤ now ∧ now ≤ int64Max
  | .returned _ _ _ now => 0 ≤ now ∧ now ≤ int64Max

def system : TransitionSystem (Option ThrottleNumbers) Action :=
  { init := fun throttle => throttle = none
    allowed := Allowed
    step := step arguments }

/-- Nothing divides by zero or overflows, and a grant is between 0 and the request. -/
def Sound (action : Action) (throttle : Option ThrottleNumbers) : Prop :=
  match action, throttle with
  | .create now, none => ∃ created, create arguments now = some created
  | .throttled bytes now, some throttle =>
      (∃ time, caculateCheckTimeUs now arguments.checkCycle = some time) ∧
        ∃ granted after, throttle.throttledByThroughput arguments bytes now =
          some (granted, after) ∧ 0 ≤ granted ∧ granted ≤ bytes
  | _, _ => True

def InRange (action : Action) (throttle : Option ThrottleNumbers) : Prop :=
  match action, throttle with
  | .create _, none => arguments.checkCycle ≤ 1000 * 1000
  | .throttled bytes _, some throttle =>
      arguments.minimalThrottleThresholdMb * 1024 * 1024 ≤ int64Max ∧
        throttle.curThroughputBytes + bytes ≤ int64Max
  | _, _ => True

variable {arguments : ThrottleArguments} {throttle : ThrottleNumbers} {bytes now : Int}

def checkTime (now checkCycle : Int) : Int :=
  now / (1000 * 1000 / checkCycle) * (1000 * 1000 / checkCycle)

theorem caculateCheckTimeUs_some {checkCycle : Int} (cycle : 1 ≤ checkCycle)
    (short : checkCycle ≤ 1000 * 1000) (nonneg : 0 ≤ now) (small : now ≤ int64Max) :
    caculateCheckTimeUs now checkCycle = some (checkTime now checkCycle) ∧
      0 ≤ checkTime now checkCycle ∧ checkTime now checkCycle ≤ now := by
  have million : (1000 * 1000 : Int) ≤ int64Max := by decide
  obtain ⟨isBase, _, _⟩ := divide_nonneg (by decide) million (by omega : 0 < checkCycle)
  have positive : 0 < 1000 * 1000 / checkCycle :=
    (Int.le_ediv_iff_mul_le (by omega : 0 < checkCycle)).mpr (by omega)
  obtain ⟨isCycles, _, _⟩ := divide_nonneg nonneg small positive
  have below : checkTime now checkCycle ≤ now := Int.ediv_mul_le now (ne_of_gt positive)
  have above : 0 ≤ checkTime now checkCycle :=
    Int.mul_nonneg (Int.ediv_nonneg nonneg positive.le) positive.le
  refine ⟨?_, above, below⟩
  unfold caculateCheckTimeUs
  rw [isBase, Option.bind_some, isCycles, Option.bind_some]
  exact checked_some (fitsInt64_of_nonneg above (below.trans small))

theorem caculateCheckTimeUs_none {checkCycle : Int} (long : 1000 * 1000 < checkCycle) :
    caculateCheckTimeUs now checkCycle = none := by
  have million : (1000 * 1000 : Int) ≤ int64Max := by decide
  obtain ⟨isBase, _, _⟩ := divide_nonneg (by decide) million (by omega : 0 < checkCycle)
  have noBase : 1000 * 1000 / checkCycle = 0 := Int.ediv_eq_zero_of_lt (by decide) long
  unfold caculateCheckTimeUs
  rw [isBase, Option.bind_some, noBase, divide_zero, Option.bind_none]

def limitOf (arguments : ThrottleArguments) : Int :=
  max arguments.throttleThroughputBytes
    (arguments.minimalThrottleThresholdMb * 1024 * 1024) / arguments.checkCycle

theorem limitPerCycle_some
    (fits : arguments.minimalThrottleThresholdMb * 1024 * 1024 ≤ int64Max) :
    limitPerCycle arguments = some (limitOf arguments) ∧ 0 ≤ limitOf arguments ∧
      limitOf arguments ≤ int64Max := by
  have threshold := arguments.threshold
  have throughput := arguments.throughput
  have cycle := arguments.cycle
  have nonneg : 0 ≤ max arguments.throttleThroughputBytes
      (arguments.minimalThrottleThresholdMb * 1024 * 1024) := le_max_of_le_left throughput.1
  have small : max arguments.throttleThroughputBytes
      (arguments.minimalThrottleThresholdMb * 1024 * 1024) ≤ int64Max := max_le throughput.2 fits
  obtain ⟨isLimit, lower, upper⟩ := divide_nonneg nonneg small
    (by omega : 0 < arguments.checkCycle)
  refine ⟨?_, lower, upper.trans small⟩
  unfold limitPerCycle
  rw [checked_some (fitsInt64_of_nonneg (by omega) (by omega)), Option.bind_some,
    checked_some (fitsInt64_of_nonneg (by omega) fits), Option.bind_some]
  exact isLimit

theorem limitPerCycle_none
    (differs : ¬ arguments.minimalThrottleThresholdMb * 1024 * 1024 ≤ int64Max) :
    limitPerCycle arguments = none := by
  unfold limitPerCycle
  cases isKilobytes : checked (arguments.minimalThrottleThresholdMb * 1024) with
  | none => rfl
  | some kilobytes =>
      obtain ⟨rfl, _⟩ := checked_eq_some isKilobytes
      rw [Option.bind_some, checked_none (fun fits => differs fits.2), Option.bind_none]

structure Kept (arguments : ThrottleArguments) (throttle : ThrottleNumbers) : Prop where
  cycle : arguments.checkCycle ≤ 1000 * 1000
  time : 0 ≤ throttle.lastThroughputCheckTimeUs ∧ throttle.lastThroughputCheckTimeUs ≤ int64Max
  bytes : 0 ≤ throttle.curThroughputBytes ∧ throttle.curThroughputBytes ≤ int64Max

theorem Kept.exceed {limit : Int} (kept : Kept arguments throttle)
    (isBytes : 0 ≤ bytes ∧ bytes ≤ int64Max) (isNow : 0 ≤ now ∧ now ≤ int64Max)
    (isLimit : 0 ≤ limit ∧ limit ≤ int64Max)
    (exceeds : limit < throttle.curThroughputBytes + bytes) :
    ∃ granted after, throttle.exceed arguments bytes now limit = some (granted, after) ∧
      0 ≤ granted ∧ granted ≤ bytes ∧ Kept arguments after := by
  have time := kept.time
  have usage := kept.bytes
  have million : (1 * 1000 * 1000 : Int) ≤ int64Max := by decide
  have positive : 0 < arguments.checkCycle := by
    have cycle := arguments.cycle
    omega
  have elapsed : FitsInt64 (now - throttle.lastThroughputCheckTimeUs) := by
    unfold FitsInt64 int64Max at *
    omega
  unfold ThrottleNumbers.exceed
  rw [checked_some elapsed, Option.bind_some,
    (divide_nonneg (by decide) million positive).1, Option.bind_some]
  by_cases near : now - throttle.lastThroughputCheckTimeUs ≤ 1 * 1000 * 1000 / arguments.checkCycle
  · rw [if_pos near]
    by_cases below : throttle.curThroughputBytes < limit
    · rw [if_pos below, checked_some (fitsInt64_of_nonneg (by omega) (by omega)), Option.map_some]
      exact ⟨_, _, rfl, by omega, by omega, kept.cycle, time, isLimit⟩
    · rw [if_neg below]
      exact ⟨_, _, rfl, le_refl 0, isBytes.1, kept.cycle, time, isLimit⟩
  · obtain ⟨isTime, lower, upper⟩ :=
      caculateCheckTimeUs_some arguments.cycle.1 kept.cycle isNow.1 isNow.2
    rw [if_neg near, isTime]
    by_cases more : limit < bytes
    · simp only [if_pos more, Option.map_some]
      exact ⟨_, _, rfl, isLimit.1, more.le, kept.cycle, ⟨lower, upper.trans isNow.2⟩, isLimit⟩
    · simp only [if_neg more, Option.map_some]
      exact ⟨_, _, rfl, isBytes.1, le_refl bytes, kept.cycle, ⟨lower, upper.trans isNow.2⟩,
        isBytes⟩

theorem Kept.throttled (kept : Kept arguments throttle) (isBytes : 0 ≤ bytes ∧ bytes ≤ int64Max)
    (isNow : 0 ≤ now ∧ now ≤ int64Max)
    (inRange : InRange arguments (.throttled bytes now) (some throttle)) :
    ∃ granted after, throttle.throttledByThroughput arguments bytes now = some (granted, after) ∧
      0 ≤ granted ∧ granted ≤ bytes ∧ Kept arguments after := by
  obtain ⟨isLimit, lower, upper⟩ := limitPerCycle_some inRange.1
  have usage := kept.bytes
  have wanted : 0 ≤ throttle.curThroughputBytes + bytes := by omega
  unfold throttledByThroughput
  rw [isLimit, Option.bind_some, checked_some (fitsInt64_of_nonneg wanted inRange.2),
    Option.bind_some]
  split_ifs with exceeds
  · exact kept.exceed isBytes isNow ⟨lower, upper⟩ exceeds
  · exact ⟨bytes, _, rfl, isBytes.1, le_refl bytes, ⟨kept.cycle, kept.time, wanted, inRange.2⟩⟩

theorem throttled_none (differs : ¬ InRange arguments (.throttled bytes now) (some throttle)) :
    throttle.throttledByThroughput arguments bytes now = none := by
  unfold throttledByThroughput
  by_cases fits : arguments.minimalThrottleThresholdMb * 1024 * 1024 ≤ int64Max
  · have isLimit := (limitPerCycle_some fits).1
    have tooLarge : ¬ FitsInt64 (throttle.curThroughputBytes + bytes) :=
      fun sum => differs ⟨fits, sum.2⟩
    rw [isLimit, Option.bind_some, checked_none tooLarge, Option.bind_none]
  · rw [limitPerCycle_none fits, Option.bind_none]

theorem Kept.returned {acquired consumed elapseTimeUs : Int} {after : ThrottleNumbers}
    (kept : Kept arguments throttle)
    (stepped : throttle.returnUnusedThroughput acquired consumed elapseTimeUs now = some after) :
    Kept arguments after := by
  obtain ⟨start, _, stepped⟩ := Option.bind_eq_some_iff.mp stepped
  split_ifs at stepped
  · obtain rfl := Option.some.inj stepped
    exact kept
  · obtain ⟨unused, _, stepped⟩ := Option.bind_eq_some_iff.mp stepped
    obtain ⟨left, isLeft, rfl⟩ := Option.map_eq_some_iff.mp stepped
    obtain ⟨_, fits⟩ := checked_eq_some isLeft
    obtain ⟨rfl, _⟩ := checked_eq_some isLeft
    have zero : (0 : Int) ≤ int64Max := by decide
    exact ⟨kept.cycle, kept.time, le_max_right _ _, max_le fits.2 zero⟩

structure Describes (arguments : ThrottleArguments) (settings : ThrottleSettings) : Prop where
  throughput : arguments.throttleThroughputBytes = settings.throttleThroughputBytes
  cycle : arguments.checkCycle = settings.checkCycle
  threshold : arguments.minimalThrottleThresholdMb = settings.minimalThrottleThresholdMb

def ofThrottle (throttle : SnapshotThrottle) : ThrottleNumbers :=
  ⟨throttle.lastThroughputCheckTimeUs, throttle.curThroughputBytes⟩

theorem Describes.checkTime_eq {settings : ThrottleSettings}
    (describes : Describes arguments settings) (now : Nat) :
    checkTime now arguments.checkCycle = settings.caculateCheckTimeUs now := by
  unfold checkTime ThrottleSettings.caculateCheckTimeUs ThrottleSettings.alignment
  rw [describes.cycle]
  push_cast
  rfl

theorem Describes.limitOf_eq {settings : ThrottleSettings}
    (describes : Describes arguments settings) :
    limitOf arguments = settings.limitPerCycle := by
  unfold limitOf ThrottleSettings.limitPerCycle
  rw [describes.throughput, describes.cycle, describes.threshold, Int.natCast_ediv]
  have isMax := (Nat.mono_cast (α := Int)).map_max (a := settings.throttleThroughputBytes)
    (b := settings.minimalThrottleThresholdMb * 1024 * 1024)
  rw [isMax]
  push_cast
  rfl

theorem Describes.alignment_eq {settings : ThrottleSettings}
    (describes : Describes arguments settings) :
    1 * 1000 * 1000 / arguments.checkCycle = settings.alignment := by
  unfold ThrottleSettings.alignment
  rw [describes.cycle]
  push_cast
  rfl

theorem Describes.exceed_eq {settings : ThrottleSettings}
    (describes : Describes arguments settings) (throttle : SnapshotThrottle) (bytes now : Nat)
    (kept : Kept arguments (ofThrottle throttle)) (isNow : (now : Int) ≤ int64Max)
    (isLimit : (settings.limitPerCycle : Int) ≤ int64Max)
    (exceeds : settings.limitPerCycle < throttle.curThroughputBytes + bytes) :
    (ofThrottle throttle).exceed arguments bytes now settings.limitPerCycle =
      some (Int.ofNat (throttle.throttledByThroughput settings bytes now).1,
        ofThrottle (throttle.throttledByThroughput settings bytes now).2) := by
  have keptTime : (0 : Int) ≤ throttle.lastThroughputCheckTimeUs ∧
      (throttle.lastThroughputCheckTimeUs : Int) ≤ int64Max := kept.time
  have million : (1 * 1000 * 1000 : Int) ≤ int64Max := by decide
  have positive : 0 < arguments.checkCycle := by
    have cycle := arguments.cycle
    omega
  have elapsed : FitsInt64 ((now : Int) - throttle.lastThroughputCheckTimeUs) := by
    unfold FitsInt64 int64Max at *
    omega
  unfold exceed SnapshotThrottle.throttledByThroughput
  unfold ofThrottle
  simp only [if_pos exceeds]
  rw [checked_some elapsed, Option.bind_some, (divide_nonneg (by decide) million positive).1,
    Option.bind_some, describes.alignment_eq]
  by_cases near : (now : Int) - throttle.lastThroughputCheckTimeUs ≤ settings.alignment
  · simp only [if_pos near]
    by_cases below : (throttle.curThroughputBytes : Int) < settings.limitPerCycle
    · have left : (settings.limitPerCycle : Int) - throttle.curThroughputBytes =
          Int.ofNat (settings.limitPerCycle - throttle.curThroughputBytes) :=
        (Int.ofNat_sub (by omega)).symm
      rw [if_pos below, checked_some (fitsInt64_of_nonneg (by omega) (by omega)),
        Option.map_some, left]
    · rw [if_neg below, Option.map_some, Nat.sub_eq_zero_of_le (by omega)]
      rfl
  · obtain ⟨isTime, _⟩ := caculateCheckTimeUs_some arguments.cycle.1 kept.cycle
      (Int.natCast_nonneg now) isNow
    simp only [if_neg near]
    rw [isTime, Option.map_some, describes.checkTime_eq]
    by_cases more : settings.limitPerCycle < bytes
    · rw [if_pos more, if_pos (by omega)]
      rfl
    · rw [if_neg more, if_neg (by omega)]
      rfl

theorem Describes.throttledByThroughput_eq {settings : ThrottleSettings}
    (describes : Describes arguments settings) (throttle : SnapshotThrottle) (bytes now : Nat)
    (kept : Kept arguments (ofThrottle throttle)) (isNow : (now : Int) ≤ int64Max)
    (inRange : InRange arguments (.throttled bytes now) (some (ofThrottle throttle))) :
    (ofThrottle throttle).throttledByThroughput arguments bytes now =
      some (Int.ofNat (throttle.throttledByThroughput settings bytes now).1,
        ofThrottle (throttle.throttledByThroughput settings bytes now).2) := by
  obtain ⟨isLimit, _, upper⟩ := limitPerCycle_some inRange.1
  rw [describes.limitOf_eq] at upper isLimit
  have sum : FitsInt64 ((throttle.curThroughputBytes : Int) + bytes) :=
    fitsInt64_of_nonneg (by omega) inRange.2
  unfold ThrottleNumbers.throttledByThroughput
  rw [isLimit, Option.bind_some,
    show (ofThrottle throttle).curThroughputBytes = throttle.curThroughputBytes from rfl,
    checked_some sum, Option.bind_some]
  by_cases exceeds : settings.limitPerCycle < throttle.curThroughputBytes + bytes
  · rw [if_pos (by omega)]
    exact describes.exceed_eq throttle bytes now kept isNow upper exceeds
  · unfold SnapshotThrottle.throttledByThroughput
    simp only [if_neg exceeds]
    rw [if_neg (by omega)]
    rfl

theorem kept_of_reachable {state : Option ThrottleNumbers}
    (reached : (system arguments).Reachable state) :
    ∀ throttle ∈ state, Kept arguments throttle := by
  induction reached with
  | start initial =>
      intro throttle isThrottle
      rw [show _ = none from initial] at isThrottle
      contradiction
  | @next action before after _ allowed stepped ih =>
      intro last isLast
      cases action with
      | create now =>
          cases before with
          | some throttle => contradiction
          | none =>
              obtain ⟨created, isCreated, rfl⟩ := Option.map_eq_some_iff.mp stepped
              obtain rfl := Option.some.inj isLast
              obtain ⟨time, isTime, rfl⟩ := Option.map_eq_some_iff.mp isCreated
              have short : arguments.checkCycle ≤ 1000 * 1000 := by
                by_contra long
                rw [caculateCheckTimeUs_none (not_le.mp long)] at isTime
                contradiction
              obtain ⟨isOther, lower, upper⟩ :=
                caculateCheckTimeUs_some arguments.cycle.1 short allowed.1 allowed.2
              obtain rfl := Option.some.inj (isTime.symm.trans isOther)
              have zero : (0 : Int) ≤ int64Max := by decide
              exact ⟨short, ⟨lower, upper.trans allowed.2⟩, le_refl 0, zero⟩
      | throttled bytes now =>
          cases before with
          | none => contradiction
          | some throttle =>
              obtain ⟨⟨granted, result⟩, isResult, rfl⟩ := Option.map_eq_some_iff.mp stepped
              obtain rfl := Option.some.inj isLast
              have inRange : InRange arguments (.throttled bytes now) (some throttle) := by
                by_contra differs
                rw [throttled_none differs] at isResult
                contradiction
              obtain ⟨_, other, isOther, _, _, keptAfter⟩ :=
                (ih throttle rfl).throttled allowed.1 allowed.2 inRange
              obtain same := Option.some.inj (isResult.symm.trans isOther)
              rw [congrArg Prod.snd same]
              exact keptAfter
      | returned acquired consumed elapseTimeUs now =>
          cases before with
          | none => contradiction
          | some throttle =>
              obtain ⟨result, isResult, rfl⟩ := Option.map_eq_some_iff.mp stepped
              obtain rfl := Option.some.inj isLast
              exact (ih throttle rfl).returned isResult

/-- The arithmetic is right exactly when a cycle takes a microsecond and the sums fit. -/
theorem sound_iff_inRange {state : Option ThrottleNumbers} {action : Action}
    (reached : (system arguments).Reachable state) (allowed : Allowed action state) :
    Sound arguments action state ↔ InRange arguments action state := by
  cases action with
  | create now =>
      cases state with
      | some throttle => exact Iff.rfl
      | none =>
          constructor
          · rintro ⟨created, isCreated⟩
            by_contra long
            unfold create at isCreated
            rw [caculateCheckTimeUs_none (not_le.mp long)] at isCreated
            contradiction
          · intro short
            obtain ⟨isTime, _⟩ :=
              caculateCheckTimeUs_some arguments.cycle.1 short allowed.1 allowed.2
            have isCreated :
                create arguments now = some ⟨checkTime now arguments.checkCycle, 0⟩ := by
              unfold create
              rw [isTime]
              rfl
            exact ⟨_, isCreated⟩
  | throttled bytes now =>
      cases state with
      | none => exact Iff.rfl
      | some throttle =>
          have kept := kept_of_reachable reached throttle rfl
          constructor
          · rintro ⟨_, granted, after, isGranted, _⟩
            by_contra differs
            rw [throttled_none differs] at isGranted
            contradiction
          · intro inRange
            obtain ⟨isTime, _⟩ :=
              caculateCheckTimeUs_some arguments.cycle.1 kept.cycle allowed.2.1 allowed.2.2
            obtain ⟨granted, after, isGranted, lower, upper, _⟩ :=
              kept.throttled allowed.1 allowed.2 inRange
            exact ⟨⟨_, isTime⟩, granted, after, isGranted, lower, upper⟩
  | returned acquired consumed elapseTimeUs now => exact Iff.rfl

def slowCycles : ThrottleArguments :=
  { throttleThroughputBytes := 60
    checkCycle := 10
    throughput := by decide
    cycle := by decide
    threshold := by decide }

def fastCycles : ThrottleArguments :=
  { throttleThroughputBytes := 60
    checkCycle := 2000000
    throughput := by decide
    cycle := by decide
    threshold := by decide }

theorem sound_iff_inRange_slowCycles :
    Sound slowCycles (.throttled 9 123456) (some ⟨0, 0⟩) ∧
      ThrottleNumbers.throttledByThroughput slowCycles 9 123456 ⟨0, 0⟩ =
        some (6, ⟨100000, 6⟩) := by
  have created : (system slowCycles).step (.create 12) none = some (some ⟨0, 0⟩) := by decide
  have clock : (system slowCycles).allowed (.create 12) none := ⟨by decide, by decide⟩
  have reached : (system slowCycles).Reachable (some ⟨0, 0⟩) := .next (.start rfl) clock created
  have allowed : Allowed (.throttled 9 123456) (some ⟨0, 0⟩) :=
    ⟨⟨by decide, by decide⟩, by decide, by decide⟩
  exact ⟨(sound_iff_inRange reached allowed).mpr ⟨by decide, by decide⟩, by decide⟩

theorem throttledByThroughput_slowCycles :
    (ofThrottle ⟨0, 0⟩).throttledByThroughput slowCycles 9 123456 =
      some (6, ofThrottle ⟨100000, 6⟩) :=
  have describes : Describes slowCycles ⟨60, 0, 10, by decide, by decide⟩ := ⟨rfl, rfl, rfl⟩
  describes.throttledByThroughput_eq ⟨0, 0⟩ 9 123456
    ⟨by decide, ⟨by decide, by decide⟩, ⟨by decide, by decide⟩⟩ (by decide)
    ⟨by decide, by decide⟩

/-- The constructor divides by the length of a cycle, which is zero. -/
theorem fastCycles_not_sound :
    (system fastCycles).Reachable none ∧ Allowed (.create 12) none ∧
      divide (1000 * 1000) fastCycles.checkCycle = some 0 ∧
      ¬ Sound fastCycles (.create 12) none := by
  refine ⟨.start rfl, ⟨by decide, by decide⟩, by decide, ?_⟩
  rintro ⟨created, isCreated⟩
  have divides : create fastCycles 12 = none := by decide
  rw [divides] at isCreated
  contradiction

end ThrottleNumbers

end QuorumKit
