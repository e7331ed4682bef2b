/-
Empty requests of a replicator find nothing in flight.

`_send_empty_entries` checks that the queue is empty before it sends a request that is no
heartbeat.  The steps are stated here over any function in its place: in the runs where a
follower leaves its readonly mode only while no timer of `_block` runs and no snapshot is being
installed, they call it with an empty queue, so that they do the same without the checks.
-/

import QuorumKit.Replicator.Bookkeeping

namespace QuorumKit

namespace Replicator

variable {P D C : Type}

/-! ### The callers of `_send_empty_entries` -/

/-- A function in the place of `_send_empty_entries(false)`. -/
abbrev EmptySender (P D C : Type) :=
  ReplicatorSurroundings P D C → List InstallAttempt → Replicator P D → Option (Replicator P D)

section Callers

variable (send : EmptySender P D C) (options : ReplicatorOptions P D)
  (around : ReplicatorSurroundings P D C)

def startInstallWith (r : Replicator P D) : Option (Replicator P D) :=
  match around.attempts with
  | [] => none
  | attempt :: rest => installSnapshot options attempt (send around rest) r

def blockFailedWith (r : Replicator P D) : Option (Replicator P D) :=
  match around.attempts with
  | [] => none
  | attempt :: rest => block attempt (send around rest) r

def sendEntriesWith (r : Replicator P D) : Option (Replicator P D) :=
  let manager := around.logManager
  if around.maxEntriesSize ≤ r.flyingAppendEntriesSize ∨
      around.maxParallelAppendEntriesRpcNum ≤ r.appendEntriesInFly.length ∨
      r.st = .blocking then
    some r
  else
    match fillCommonFields manager (r.nextIndex - 1) false with
    | none => none
    | some none => startInstallWith send options around r.resetNextIndex
    | some (some prevLog) =>
        match prepareEntries options around
            (around.maxEntriesSize - r.flyingAppendEntriesSize) 0 0 r with
        | none => none
        | some ([], errorCode, prepared) =>
            if prepared.nextIndex < manager.firstLogIndex then
              startInstallWith send options around prepared.resetNextIndex
            else if errorCode = EREADONLY then
              some (if prepared.flyingAppendEntriesSize = 0 then { prepared with st := .idle }
                else prepared)
            else some (prepared.waitMoreEntries around)
        | some (entryMeta :: entries, _, prepared) =>
            some ((prepared.push (request options around prevLog
              (entryMeta :: entries))).waitMoreEntries around)

def onRpcReturnedWith (callId : Nat) (answer : RpcAnswer) (r : Replicator P D) :
    Option (Replicator P D) :=
  match r.sent[callId]? with
  | none => none
  | some request =>
      if r.minFlyingIndex = 0 then none
      else if ¬ r.isValidRpc callId (request.prevLogIndex + 1) then some r
      else
        match answer with
        | .failed => blockFailedWith send around r.resetNextIndex
        | .returned response =>
            if ¬ response.success then
              if options.term < response.term then
                some { r.resetNextIndex with destroyed := true }
              else
                let reset := r.resetNextIndex
                send around around.attempts
                  { reset with
                    nextIndex := indexAfterMismatch response.lastLogIndex reset.nextIndex }
            else if response.term ≠ options.term then some r.resetNextIndex
            else sendEntriesWith send options around (r.succeed request).timeoutNow

def onInstallSnapshotReturnedWith (success : Bool) (r : Replicator P D) :
    Option (Replicator P D) :=
  match r.installSnapshotInFly with
  | none => none
  | some lastIncludedIndex =>
      let closed : Replicator P D := { r with reader := false, installSnapshotInFly := none }
      if ¬ success then blockFailedWith send around closed
      else
        let installed : Replicator P D :=
          { closed with
            nextIndex := lastIncludedIndex + 1
            installed := lastIncludedIndex :: closed.installed
            hasSucceeded := true }
        sendEntriesWith send options around installed.timeoutNow

def continueTimedoutWith (r : Replicator P D) : Option (Replicator P D) :=
  if r.blockTimeouts = 0 then none
  else
    let timedout : Replicator P D := { r with blockTimeouts := r.blockTimeouts - 1 }
    if r.waitId ≠ 0 then some timedout
    else send around around.attempts timedout

def continueSendingWith (stopped : Bool) (r : Replicator P D) : Option (Replicator P D) :=
  if r.waiters = 0 then none
  else
    let woken : Replicator P D := { r with waiters := r.waiters - 1 }
    if ¬ stopped ∧ ¬ r.isWaiterCanceled then
      sendEntriesWith send options around { woken with waitId := 0 }
    else some woken

end Callers

def stepWith (send : EmptySender P D C) (options : ReplicatorOptions P D) (action : Action P D C)
    (r : Replicator P D) : Option (Replicator P D) :=
  if r.destroyed then some r
  else
    match action with
    | .onRpcReturned around callId answer => onRpcReturnedWith send options around callId answer r
    | .onInstallSnapshotReturned around success =>
        onInstallSnapshotReturnedWith send options around success r
    | .continueTimedout around => continueTimedoutWith send around r
    | .continueSending around stopped => continueSendingWith send options around stopped r
    | other => step options other r

/-- `_send_empty_entries(false)` without its checks. -/
def sendUnchecked (options : ReplicatorOptions P D) (around : ReplicatorSurroundings P D C) :
    List InstallAttempt → Replicator P D → Option (Replicator P D)
  | [], _ => none
  | attempt :: rest, r =>
      match fillCommonFields around.logManager (r.nextIndex - 1) false with
      | none => none
      | some none => installSnapshot options attempt (sendUnchecked options around rest) r
      | some (some prevLog) => some (r.push (request options around prevLog []))

variable {r after : Replicator P D} {options : ReplicatorOptions P D}
  {around : ReplicatorSurroundings P D C} {send other : EmptySender P D C}

theorem stepWith_sendEmptyEntries (options : ReplicatorOptions P D) (action : Action P D C)
    (r : Replicator P D) : stepWith (sendEmptyEntries options) options action r =
      step options action r := by
  unfold stepWith
  by_cases gone : r.destroyed
  · rw [if_pos gone]
    unfold step
    rw [if_pos gone]
  rw [if_neg gone]
  cases action with
  | onRpcReturned around callId answer => exact (if_neg gone).symm
  | onInstallSnapshotReturned around success => exact (if_neg gone).symm
  | onBlockTimedout => rfl
  | continueTimedout around => exact (if_neg gone).symm
  | continueSending around stopped => exact (if_neg gone).symm
  | changeReadonlyConfig around readonly => rfl
  | sendHeartbeat around => rfl
  | transferLeadership logIndex => rfl
  | stopTransferLeadership => rfl
  | destroy => rfl

structure NoneFlying (r : Replicator P D) : Prop where
  queue : r.appendEntriesInFly = []
  size : r.flyingAppendEntriesSize = 0

def AgreeAtRest (send other : EmptySender P D C) : Prop :=
  ∀ around attempts r, NoneFlying r → send around attempts r = other around attempts r

theorem noneFlying_reset (r : Replicator P D) : NoneFlying r.resetNextIndex := ⟨rfl, rfl⟩

theorem block_congr {attempt : InstallAttempt} {retry retries : Replicator P D → Option (Replicator P D)}
    (agree : ∀ r, NoneFlying r → retry r = retries r) (none : NoneFlying r) :
    block attempt retry r = block attempt retries r := by
  unfold block
  rw [agree r none]

theorem installSnapshot_congr {attempt : InstallAttempt}
    {retry retries : Replicator P D → Option (Replicator P D)}
    (agree : ∀ r, NoneFlying r → retry r = retries r) (none : NoneFlying r) :
    installSnapshot options attempt retry r = installSnapshot options attempt retries r := by
  have installing : NoneFlying { r with st := .installingSnapshot } := ⟨none.queue, none.size⟩
  unfold installSnapshot
  simp only
  rw [block_congr agree none, block_congr agree installing]

theorem startInstallWith_congr (agree : AgreeAtRest send other) (none : NoneFlying r) :
    startInstallWith send options around r = startInstallWith other options around r := by
  unfold startInstallWith
  cases around.attempts with
  | nil => rfl
  | cons attempt rest => exact installSnapshot_congr (agree around rest) none

theorem blockFailedWith_congr (agree : AgreeAtRest send other) (none : NoneFlying r) :
    blockFailedWith send around r = blockFailedWith other around r := by
  unfold blockFailedWith
  cases around.attempts with
  | nil => rfl
  | cons attempt rest => exact block_congr (agree around rest) none

theorem sendEntriesWith_congr (agree : AgreeAtRest send other) (r : Replicator P D) :
    sendEntriesWith send options around r = sendEntriesWith other options around r := by
  have installs (reset : Replicator P D) :
      startInstallWith send options around reset.resetNextIndex =
        startInstallWith other options around reset.resetNextIndex :=
    startInstallWith_congr agree (noneFlying_reset reset)
  unfold sendEntriesWith
  simp only [installs]

theorem agree_sendUnchecked (options : ReplicatorOptions P D) :
    AgreeAtRest (C := C) (sendEmptyEntries options) (sendUnchecked options) := by
  intro around attempts
  induction attempts with
  | nil =>
      intro r _
      rfl
  | cons attempt rest ih =>
      intro r none
      unfold sendEmptyEntries sendUnchecked
      cases fillCommonFields around.logManager (r.nextIndex - 1) false with
      | none => rfl
      | some outcome =>
          cases outcome with
          | none => exact installSnapshot_congr ih none
          | some prevLog =>
              simp only
              rw [if_neg (by simp [none.queue, none.size])]

/-! ### Timers and snapshots wait with an empty queue -/

/-- A follower leaves its readonly mode only while no timer of `_block` runs and no snapshot is
being installed. -/
def LeavesReadonlyClear (action : Action P D C) (r : Replicator P D) : Prop :=
  match action with
  | .changeReadonlyConfig _ false => r.readonlyIndex = 0 ∨ Clear r
  | _ => True

structure Calm (r : Replicator P D) : Prop where
  size : sizes r.appendEntriesInFly = r.flyingAppendEntriesSize
  positive : 0 < r.minFlyingIndex
  installing : r.installSnapshotInFly ≠ none → r.appendEntriesInFly = [] ∧ r.Quiet
  resting : 0 < r.blockTimers + r.blockTimeouts →
    r.appendEntriesInFly = [] ∧ r.Quiet ∧ r.installSnapshotInFly = none
  timers : r.blockTimers + r.blockTimeouts ≤ 1
  blocking : r.st = .blocking ↔ r.blockTimers = 1

structure Running (r : Replicator P D) : Prop extends Clear r where
  size : sizes r.appendEntriesInFly = r.flyingAppendEntriesSize
  positive : 0 < r.minFlyingIndex
  notBlocking : r.st ≠ .blocking

theorem Paced.calm (paced : Paced r) : Calm r :=
  { size := paced.size
    positive := paced.positive
    installing := paced.installing
    resting := paced.resting
    timers := paced.timers
    blocking := paced.blocking }

theorem Running.calm (running : Running r) : Calm r := by
  have timers := running.timers
  have timeouts := running.timeouts
  refine
    { size := running.size
      positive := running.positive
      installing := fun some => absurd running.noInstall some
      resting := ?_
      timers := by omega
      blocking := ?_ }
  · intro rests
    omega
  · constructor
    · intro blocking
      exact absurd blocking running.notBlocking
    · intro one
      omega

theorem Calm.noneFlying (calm : Calm r) (empty : r.appendEntriesInFly = []) : NoneFlying r := by
  refine ⟨empty, ?_⟩
  rw [← calm.size, empty]
  rfl

theorem Calm.clear_of_flying (calm : Calm r) (flying : r.appendEntriesInFly ≠ []) :
    Running r := by
  have still : ¬ 0 < r.blockTimers + r.blockTimeouts := fun rests => flying (calm.resting rests).1
  refine
    { timers := by omega
      timeouts := by omega
      noInstall := ?_
      size := calm.size
      positive := calm.positive
      notBlocking := ?_ }
  · by_contra some
    exact flying (calm.installing some).1
  · intro blocking
    have one := calm.blocking.mp blocking
    omega

theorem Running.reset (running : Running r) : AtRest r.resetNextIndex :=
  atRest_reset running.toClear running.positive running.notBlocking

theorem Running.frame (running : Running r) (readonlyIndex timeoutNowIndex : Nat) :
    Running { r with readonlyIndex := readonlyIndex, timeoutNowIndex := timeoutNowIndex } :=
  { running with positive := running.positive }

theorem Running.push (running : Running r) (request : AppendEntriesRequest P D) :
    Running (r.push request) := by
  refine
    { timers := running.timers
      timeouts := running.timeouts
      noInstall := running.noInstall
      size := ?_
      positive := ?_
      notBlocking := nofun }
  · change sizes (r.appendEntriesInFly ++ _) = r.flyingAppendEntriesSize + request.entries.length
    rw [← running.size]
    simp [sizes]
  · have positive := running.positive
    unfold minFlyingIndex at positive
    change 0 < r.nextIndex + request.entries.length -
      (r.flyingAppendEntriesSize + request.entries.length)
    omega

theorem Running.waitMoreEntries (running : Running r) (around : ReplicatorSurroundings P D C) :
    Running (r.waitMoreEntries around) := by
  obtain ⟨st, waitId, lastWaitId, waiters, canceled, isState, same⟩ :=
    waitMoreEntries_cases around r
  rw [same]
  refine
    { timers := running.timers
      timeouts := running.timeouts
      noInstall := running.noInstall
      size := running.size
      positive := running.positive
      notBlocking := ?_ }
  rcases isState with isIdle | isSame
  · rw [isIdle]
    exact nofun
  · rw [isSame]
    exact running.notBlocking

theorem Running.sendEntries (running : Running r)
    (called : r.sendEntries options around = some after) : Calm after := by
  unfold Replicator.sendEntries at called
  simp only at called
  by_cases full : around.maxEntriesSize ≤ r.flyingAppendEntriesSize ∨
      around.maxParallelAppendEntriesRpcNum ≤ r.appendEntriesInFly.length ∨ r.st = .blocking
  · rw [if_pos full, Option.some_inj] at called
    exact called ▸ running.calm
  rw [if_neg full] at called
  cases filled : fillCommonFields around.logManager (r.nextIndex - 1) false with
  | none =>
      rw [filled] at called
      contradiction
  | some outcome =>
      cases outcome with
      | none =>
          rw [filled] at called
          exact (keeps_startInstall _ after running.reset called).1.calm
      | some prevLog =>
          rw [filled] at called
          simp only at called
          cases isPrepared : prepareEntries options around
              (around.maxEntriesSize - r.flyingAppendEntriesSize) 0 0 r with
          | none =>
              rw [isPrepared] at called
              contradiction
          | some outcome =>
              obtain ⟨entries, errorCode, prepared⟩ := outcome
              obtain ⟨readonlyIndex, isReady⟩ := prepareEntries_same _ _ _ _ isPrepared
              have ready : Running prepared := isReady ▸ running.frame readonlyIndex r.timeoutNowIndex
              rw [isPrepared] at called
              cases entries with
              | nil =>
                  simp only at called
                  by_cases compacted : prepared.nextIndex < around.logManager.firstLogIndex
                  · rw [if_pos compacted] at called
                    exact (keeps_startInstall _ after ready.reset called).1.calm
                  rw [if_neg compacted] at called
                  by_cases readonly : errorCode = EREADONLY
                  · rw [if_pos readonly, Option.some_inj] at called
                    by_cases noSize : prepared.flyingAppendEntriesSize = 0
                    · rw [if_pos noSize] at called
                      have idle : Running { prepared with st := .idle } :=
                        { ready with
                          positive := ready.positive
                          notBlocking := nofun }
                      exact called ▸ idle.calm
                    · rw [if_neg noSize] at called
                      exact called ▸ ready.calm
                  · rw [if_neg readonly, Option.some_inj] at called
                    exact called ▸ (ready.waitMoreEntries around).calm
              | cons entryMeta entries =>
                  rw [← Option.some.inj called]
                  exact ((ready.push _).waitMoreEntries around).calm

/-! ### The steps -/

theorem popSucceeded_sizes (first : Nat) (queue : List FlyingAppendEntriesRpc) :
    sizes (popSucceeded first queue (sizes queue)).1 =
        (popSucceeded first queue (sizes queue)).2 ∧
      (popSucceeded first queue (sizes queue)).2 ≤ sizes queue := by
  induction queue with
  | nil => exact ⟨rfl, Nat.le_refl _⟩
  | cons head rest ih =>
      have size : sizes (head :: rest) - head.entriesSize = sizes rest := by
        simp only [sizes, List.map_cons, List.sum_cons]
        omega
      have smaller : sizes rest ≤ sizes (head :: rest) := by omega
      unfold popSucceeded
      by_cases pops : head.logIndex ≤ first
      · rw [if_pos pops, size]
        exact ⟨ih.1, ih.2.trans smaller⟩
      · rw [if_neg pops]
        exact ⟨rfl, Nat.le_refl _⟩

theorem Running.succeed (running : Running r) (request : AppendEntriesRequest P D) :
    Running (r.succeed request) := by
  obtain ⟨size, smaller⟩ := popSucceeded_sizes (request.prevLogIndex + 1) r.appendEntriesInFly
  have positive := running.positive
  unfold minFlyingIndex at positive
  rw [running.size] at size smaller
  refine
    { timers := running.timers
      timeouts := running.timeouts
      noInstall := running.noInstall
      size := size
      positive := ?_
      notBlocking := running.notBlocking }
  change 0 < r.nextIndex - (popSucceeded (request.prevLogIndex + 1) r.appendEntriesInFly
    r.flyingAppendEntriesSize).2
  omega

theorem Running.timeoutNow (running : Running r) : Running r.timeoutNow := by
  unfold Replicator.timeoutNow
  by_cases due : 0 < r.timeoutNowIndex ∧ r.timeoutNowIndex < r.minFlyingIndex
  · rw [if_pos due]
    exact running.frame r.readonlyIndex 0
  · rw [if_neg due]
    exact running

theorem Calm.onRpcReturned (calm : Calm r) {callId : Nat} {answer : RpcAnswer}
    (called : r.onRpcReturned options around callId answer = some after) : Calm after := by
  unfold Replicator.onRpcReturned at called
  cases isSent : r.sent[callId]? with
  | none =>
      rw [isSent] at called
      contradiction
  | some request =>
      rw [isSent] at called
      simp only at called
      by_cases zero : r.minFlyingIndex = 0
      · rw [if_pos zero] at called
        contradiction
      rw [if_neg zero] at called
      by_cases invalid : ¬ r.isValidRpc callId (request.prevLogIndex + 1)
      · rw [if_pos invalid, Option.some_inj] at called
        exact called ▸ calm
      rw [if_neg invalid] at called
      have flying : r.appendEntriesInFly ≠ [] := by
        intro empty
        unfold isValidRpc at invalid
        rw [empty] at invalid
        exact invalid nofun
      have running := calm.clear_of_flying flying
      have rests := running.reset
      cases answer with
      | failed => exact (keeps_blockFailed _ after rests called).1.calm
      | returned response =>
          simp only at called
          by_cases failed : ¬ response.success
          · rw [if_pos failed] at called
            by_cases higher : options.term < response.term
            · rw [if_pos higher, Option.some_inj] at called
              have gone : AtRest { r.resetNextIndex with destroyed := true } :=
                { rests with quiet := rests.quiet }
              exact called ▸ gone.streaming.paced.calm
            · rw [if_neg higher] at called
              have stepped : AtRest { r.resetNextIndex with
                  nextIndex := indexAfterMismatch response.lastLogIndex
                    r.resetNextIndex.nextIndex } :=
                { rests with
                  positive := indexAfterMismatch_pos rests.positive _
                  quiet := rests.quiet }
              exact (keeps_sendEmptyEntries _ _ after stepped called).1.calm
          · rw [if_neg failed] at called
            by_cases otherTerm : response.term ≠ options.term
            · rw [if_pos otherTerm, Option.some_inj] at called
              exact called ▸ rests.streaming.paced.calm
            · rw [if_neg otherTerm] at called
              exact (running.succeed request).timeoutNow.sendEntries called

theorem Calm.closed (calm : Calm r) (installs : r.installSnapshotInFly ≠ none) :
    AtRest { r with reader := false, installSnapshotInFly := none } := by
  obtain ⟨empty, quiet⟩ := calm.installing installs
  have still : ¬ 0 < r.blockTimers + r.blockTimeouts :=
    fun rests => installs (calm.resting rests).2.2
  have positive := calm.positive
  unfold minFlyingIndex at positive
  exact
  { timers := by simp only; omega
    timeouts := by simp only; omega
    noInstall := rfl
    notBlocking := by
      intro blocking
      have one := calm.blocking.mp blocking
      omega
    empty := empty
    noSize := (calm.noneFlying empty).size
    positive := by simp only; omega
    quiet := quiet }

theorem AtRest.running (rests : AtRest r) : Running r :=
  { rests.toClear with
    size := rests.streaming.size
    positive := rests.streaming.positive
    notBlocking := rests.notBlocking }

theorem Calm.onInstallSnapshotReturned (calm : Calm r) {success : Bool}
    (called : r.onInstallSnapshotReturned options around success = some after) : Calm after := by
  unfold Replicator.onInstallSnapshotReturned at called
  cases isInstalling : r.installSnapshotInFly with
  | none =>
      rw [isInstalling] at called
      contradiction
  | some lastIncludedIndex =>
      rw [isInstalling] at called
      simp only at called
      have closed := calm.closed (by rw [isInstalling]; exact Option.some_ne_none _)
      by_cases failed : ¬ success
      · rw [if_pos failed] at called
        exact (keeps_blockFailed _ after closed called).1.calm
      · rw [if_neg failed] at called
        have moved : AtRest { r with
            reader := false
            installSnapshotInFly := none
            nextIndex := lastIncludedIndex + 1
            installed := lastIncludedIndex :: r.installed
            hasSucceeded := true } :=
          { closed with
            positive := Nat.succ_pos _
            quiet := closed.quiet }
        exact moved.running.timeoutNow.sendEntries called

theorem Calm.onBlockTimedout (calm : Calm r) (called : r.onBlockTimedout = some after) :
    Calm after := by
  unfold Replicator.onBlockTimedout at called
  have timers := calm.timers
  by_cases none : r.blockTimers = 0
  · rw [if_pos none] at called
    contradiction
  rw [if_neg none, Option.some_inj] at called
  subst called
  exact
  { size := calm.size
    positive := calm.positive
    installing := calm.installing
    resting := fun _ => calm.resting (by omega)
    timers := by simp only; omega
    blocking := by simp only [reduceCtorEq, false_iff]; omega }

theorem Calm.timedout (calm : Calm r) (waits : r.blockTimeouts ≠ 0) :
    AtRest { r with blockTimeouts := r.blockTimeouts - 1 } := by
  have timers := calm.timers
  obtain ⟨empty, quiet, noInstall⟩ := calm.resting (by omega)
  have positive := calm.positive
  unfold minFlyingIndex at positive
  exact
  { timers := by simp only; omega
    timeouts := by simp only; omega
    noInstall := noInstall
    notBlocking := by
      intro blocking
      have one := calm.blocking.mp blocking
      omega
    empty := empty
    noSize := (calm.noneFlying empty).size
    positive := by simp only; omega
    quiet := quiet }

theorem Calm.continueTimedout (calm : Calm r)
    (called : r.continueTimedout options around = some after) : Calm after := by
  unfold Replicator.continueTimedout at called
  by_cases none : r.blockTimeouts = 0
  · rw [if_pos none] at called
    contradiction
  rw [if_neg none] at called
  simp only at called
  have rests := calm.timedout none
  by_cases waits : r.waitId ≠ 0
  · rw [if_pos waits, Option.some_inj] at called
    exact called ▸ rests.streaming.paced.calm
  · rw [if_neg waits] at called
    exact (keeps_sendEmptyEntries _ _ after rests called).1.calm

theorem Calm.continueSending (calm : Calm r) {stopped : Bool}
    (called : r.continueSending options around stopped = some after) : Calm after := by
  unfold Replicator.continueSending at called
  have timers := calm.timers
  by_cases none : r.waiters = 0
  · rw [if_pos none] at called
    contradiction
  rw [if_neg none] at called
  simp only at called
  by_cases sends : ¬ stopped ∧ ¬ r.isWaiterCanceled
  · rw [if_pos sends] at called
    have loud : ¬ r.Quiet := by
      intro quiet
      rcases quiet with canceled | noWaiter
      · exact sends.2 canceled
      · exact none noWaiter
    have still : ¬ 0 < r.blockTimers + r.blockTimeouts := fun rests => loud (calm.resting rests).2.1
    have woken : Running { r with waiters := r.waiters - 1, waitId := 0 } :=
      { timers := by simp only; omega
        timeouts := by simp only; omega
        noInstall := by
          by_contra some
          exact loud (calm.installing some).2
        size := calm.size
        positive := calm.positive
        notBlocking := by
          intro blocking
          have one := calm.blocking.mp blocking
          omega }
    exact woken.sendEntries called
  · rw [if_neg sends, Option.some_inj] at called
    subst called
    have quieter (quiet : r.Quiet) : Quiet { r with waiters := r.waiters - 1 } := by
      rcases quiet with canceled | noWaiter
      · exact Or.inl canceled
      · exact absurd noWaiter none
    exact
    { size := calm.size
      positive := calm.positive
      installing := fun some => ⟨(calm.installing some).1, quieter (calm.installing some).2⟩
      resting := fun rests => ⟨(calm.resting rests).1, quieter (calm.resting rests).2.1,
        (calm.resting rests).2.2⟩
      timers := timers
      blocking := calm.blocking }

theorem Calm.frame (calm : Calm r) (timeoutNowIndex readonlyIndex : Nat) (destroyed : Bool) :
    Calm { r with
      timeoutNowIndex := timeoutNowIndex
      readonlyIndex := readonlyIndex
      destroyed := destroyed } :=
  { size := calm.size
    positive := calm.positive
    installing := calm.installing
    resting := calm.resting
    timers := calm.timers
    blocking := calm.blocking }

theorem Calm.changeReadonlyConfig (calm : Calm r) {readonly : Bool}
    (leaves : readonly = false → r.readonlyIndex = 0 ∨ Clear r) :
    Calm (r.changeReadonlyConfig around readonly) := by
  unfold Replicator.changeReadonlyConfig
  by_cases already : readonly = decide (r.readonlyIndex ≠ 0)
  · rw [if_pos already]
    exact calm
  rw [if_neg already]
  cases readonly with
  | true => exact calm.frame _ _ _
  | false =>
      rcases leaves rfl with notReadonly | clear
      · rw [notReadonly] at already
        exact absurd rfl already
      · rw [if_neg Bool.false_ne_true]
        have timers := clear.timers
        have running : Running { r with readonlyIndex := 0 } :=
          { timers := clear.timers
            timeouts := clear.timeouts
            noInstall := clear.noInstall
            size := calm.size
            positive := calm.positive
            notBlocking := by
              intro blocking
              have one := calm.blocking.mp blocking
              omega }
        exact (running.waitMoreEntries around).calm

theorem Calm.step {action : Action P D C} (calm : Calm r) (leaves : LeavesReadonlyClear action r)
    (stepped : step options action r = some after) : Calm after := by
  unfold Replicator.step at stepped
  by_cases gone : r.destroyed
  · rw [if_pos gone, Option.some_inj] at stepped
    exact stepped ▸ calm
  rw [if_neg gone] at stepped
  cases action with
  | onRpcReturned around callId answer => exact calm.onRpcReturned stepped
  | onInstallSnapshotReturned around success => exact calm.onInstallSnapshotReturned stepped
  | onBlockTimedout => exact calm.onBlockTimedout stepped
  | continueTimedout around => exact calm.continueTimedout stepped
  | continueSending around stopped => exact calm.continueSending stepped
  | changeReadonlyConfig around readonly =>
      rw [← Option.some.inj stepped]
      apply calm.changeReadonlyConfig
      intro isFalse
      subst isFalse
      exact leaves
  | sendHeartbeat around =>
      obtain ⟨_, _, isSame⟩ := Option.map_eq_some_iff.mp stepped
      exact isSame ▸ calm
  | transferLeadership logIndex =>
      rw [← Option.some.inj stepped]
      unfold Replicator.transferLeadership
      by_cases caught : r.hasSucceeded ∧ logIndex < r.minFlyingIndex
      · rw [if_pos caught]
        exact calm.frame _ _ _
      · rw [if_neg caught]
        exact calm.frame _ _ _
  | stopTransferLeadership => exact Option.some.inj stepped ▸ calm.frame _ _ _
  | destroy => exact Option.some.inj stepped ▸ calm.frame _ _ _

theorem calm_of_reachable
    (reached : ((system options C).restrict LeavesReadonlyClear).Reachable r) : Calm r := by
  induction reached with
  | start initial => exact (Started.kept initial).toPaced.calm
  | next _ allowed stepped ih => exact ih.step allowed.2 stepped

/-! ### Steps without the checks -/

theorem onRpcReturnedWith_congr (agree : AgreeAtRest send other) (callId : Nat)
    (answer : RpcAnswer) (r : Replicator P D) :
    onRpcReturnedWith send options around callId answer r =
      onRpcReturnedWith other options around callId answer r := by
  unfold onRpcReturnedWith
  cases r.sent[callId]? with
  | none => rfl
  | some request =>
      simp only
      rw [blockFailedWith_congr agree (noneFlying_reset r), sendEntriesWith_congr agree]
      cases answer with
      | failed => rfl
      | returned response =>
          have stepped : NoneFlying { r.resetNextIndex with
              nextIndex := indexAfterMismatch response.lastLogIndex r.resetNextIndex.nextIndex } :=
            ⟨rfl, rfl⟩
          simp only
          rw [agree around around.attempts _ stepped]

theorem Calm.onInstallSnapshotReturnedWith_congr (calm : Calm r) (agree : AgreeAtRest send other)
    (success : Bool) :
    onInstallSnapshotReturnedWith send options around success r =
      onInstallSnapshotReturnedWith other options around success r := by
  unfold onInstallSnapshotReturnedWith
  cases isInstalling : r.installSnapshotInFly with
  | none => rfl
  | some lastIncludedIndex =>
      have rests := calm.closed (by rw [isInstalling]; exact Option.some_ne_none _)
      have closed : NoneFlying { r with reader := false, installSnapshotInFly := none } :=
        ⟨rests.empty, rests.noSize⟩
      simp only
      rw [blockFailedWith_congr agree closed, sendEntriesWith_congr agree]

theorem Calm.continueTimedoutWith_congr (calm : Calm r) (agree : AgreeAtRest send other) :
    continueTimedoutWith send around r = continueTimedoutWith other around r := by
  unfold continueTimedoutWith
  by_cases none : r.blockTimeouts = 0
  · rw [if_pos none, if_pos none]
  · have rests := calm.timedout none
    rw [if_neg none, if_neg none]
    simp only
    rw [agree around around.attempts _ ⟨rests.empty, rests.noSize⟩]

theorem Calm.stepWith_congr (calm : Calm r) (agree : AgreeAtRest send other)
    (action : Action P D C) : stepWith send options action r = stepWith other options action r := by
  unfold stepWith
  cases action with
  | onRpcReturned around callId answer =>
      simp only
      rw [onRpcReturnedWith_congr agree]
  | onInstallSnapshotReturned around success =>
      simp only
      rw [calm.onInstallSnapshotReturnedWith_congr agree]
  | onBlockTimedout => rfl
  | continueTimedout around =>
      simp only
      rw [calm.continueTimedoutWith_congr agree]
  | continueSending around stopped =>
      simp only
      unfold continueSendingWith
      simp only
      rw [sendEntriesWith_congr agree]
  | changeReadonlyConfig around readonly => rfl
  | sendHeartbeat around => rfl
  | transferLeadership logIndex => rfl
  | stopTransferLeadership => rfl
  | destroy => rfl

/-- In every run an empty request is sent with nothing in flight: a step does the same with any
function that agrees with `_send_empty_entries` there, and so without its checks. -/
theorem probes_alone (reached : ((system options C).restrict LeavesReadonlyClear).Reachable r)
    (action : Action P D C) :
    (∀ send : EmptySender P D C, AgreeAtRest send (sendEmptyEntries options) →
      stepWith send options action r = step options action r) ∧
      stepWith (sendUnchecked options) options action r = step options action r := by
  have calm := calm_of_reachable reached
  have agreeing : ∀ send : EmptySender P D C, AgreeAtRest send (sendEmptyEntries options) →
      stepWith send options action r = step options action r := by
    intro send agree
    rw [calm.stepWith_congr agree action, stepWith_sendEmptyEntries]
  refine ⟨agreeing, agreeing (sendUnchecked options) ?_⟩
  intro around attempts r none
  exact (agree_sendUnchecked options around attempts r none).symm

/-- The follower leaves its readonly mode while a timer of `_block` is running, and two entries
are sent before the timer runs out. -/
def crossedRun : List (Action Nat Nat Nat) :=
  [.onRpcReturned (exampleLog 1) 0 .failed, .changeReadonlyConfig (exampleLog 1) true,
    .changeReadonlyConfig (exampleLog 1) false, .continueSending (exampleLog 2) false,
    .continueSending (exampleLog 3) false, .onBlockTimedout]

/-- The timer sends an empty request behind them, which the checks refuse. -/
theorem crossedRun_fails_check :
    ∃ r after : Replicator Nat Nat, (system exampleOptions Nat).Reachable r ∧
      r.appendEntriesInFly.length = 2 ∧
      step exampleOptions (.continueTimedout (exampleLog 3)) r = none ∧
      stepWith (sendUnchecked exampleOptions) exampleOptions (.continueTimedout (exampleLog 3)) r =
        some after :=
  ⟨_, _, TransitionSystem.Reachable.follows crossedRun (.start startedReplicator_started)
    ⟨trivial, _, rfl, trivial, _, rfl, trivial, _, rfl, trivial, _, rfl, trivial, _, rfl,
      trivial, _, rfl, rfl⟩, rfl, rfl, rfl⟩

/-- The empty request has failed, and the timer of `_block` has run out. -/
def blockedReplicator : Replicator Nat Nat :=
  { nextIndex := 2
    isWaiterCanceled := true
    sent := [request exampleOptions (exampleLog 1) (1, 1) []]
    blockTimeouts := 1 }

def blockedRun : List (Action Nat Nat Nat) :=
  [.onRpcReturned (exampleLog 1) 0 .failed, .onBlockTimedout]

theorem blockedReplicator_reachable :
    ((system exampleOptions Nat).restrict LeavesReadonlyClear).Reachable blockedReplicator :=
  TransitionSystem.Reachable.follows blockedRun (.start startedReplicator_started)
    ⟨⟨trivial, trivial⟩, _, rfl, ⟨trivial, trivial⟩, _, rfl, rfl⟩

theorem blockedReplicator_probes :
    ∃ after : Replicator Nat Nat, after.appendEntriesInFly.length = 1 ∧
      stepWith (sendUnchecked exampleOptions) exampleOptions (.continueTimedout (exampleLog 3))
        blockedReplicator = some after :=
  ⟨_, rfl, (probes_alone blockedReplicator_reachable (.continueTimedout (exampleLog 3))).2.trans
    rfl⟩

end Replicator

end QuorumKit
