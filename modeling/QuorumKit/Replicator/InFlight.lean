/-
The requests of a replicator that are in flight.

Their ranges lie behind each other and end at the next index.  An empty request looks for the
next index: it is alone in the queue, and no waiter may send entries behind it.  The same holds
for a snapshot that is being installed and for a timer of `_block`, as long as a follower does
not leave its readonly mode then.
-/

import QuorumKit.Replicator.Replicator

namespace QuorumKit

namespace Replicator

variable {P D C : Type}

/-- The ranges start at `start`, lie behind each other and end at `next`. -/
def RangesFrom : Nat → List FlyingAppendEntriesRpc → Nat → Prop
  | start, [], next => start = next
  | start, rpc :: rest, next =>
      rpc.logIndex = start ∧ RangesFrom (start + rpc.entriesSize) rest next

def sizes (queue : List FlyingAppendEntriesRpc) : Nat := (queue.map (fun rpc => rpc.entriesSize)).sum

theorem RangesFrom.sum {queue : List FlyingAppendEntriesRpc} :
    ∀ {start next : Nat}, RangesFrom start queue next → start + sizes queue = next := by
  induction queue with
  | nil => exact fun ranges => ranges
  | cons head rest ih =>
      intro start next ranges
      have later := ih ranges.2
      simp only [sizes, List.map_cons, List.sum_cons] at later ⊢
      omega

theorem RangesFrom.push {queue : List FlyingAppendEntriesRpc} (last : FlyingAppendEntriesRpc) :
    ∀ {start : Nat}, RangesFrom start queue last.logIndex →
      RangesFrom start (queue ++ [last]) (last.logIndex + last.entriesSize) := by
  induction queue with
  | nil =>
      intro start ranges
      exact ⟨ranges.symm, congrArg (· + last.entriesSize) ranges⟩
  | cons head rest ih => exact fun ranges => ⟨ranges.1, ih ranges.2⟩

theorem RangesFrom.start_le {queue : List FlyingAppendEntriesRpc} {rpc : FlyingAppendEntriesRpc}
    (member : rpc ∈ queue) :
    ∀ {start next : Nat}, RangesFrom start queue next → start ≤ rpc.logIndex := by
  induction queue with
  | nil => contradiction
  | cons head rest ih =>
      intro start next ranges
      rcases List.mem_cons.mp member with rfl | later
      · exact ranges.1.ge
      · have above := ih later ranges.2
        omega

theorem popSucceeded_stop {queue : List FlyingAppendEntriesRpc} {start next first : Nat}
    (ranges : RangesFrom start queue next) (above : first < start) (size : Nat) :
    popSucceeded first queue size = (queue, size) := by
  cases queue with
  | nil => rfl
  | cons head rest =>
      have isStart := ranges.1
      rw [popSucceeded, if_neg (by omega)]

theorem popSucceeded_ranges {rpc : FlyingAppendEntriesRpc} {queue : List FlyingAppendEntriesRpc}
    (member : rpc ∈ queue) (positive : ∀ rpc ∈ queue, 0 < rpc.entriesSize) :
    ∀ {start next : Nat}, RangesFrom start queue next →
      ∃ rest, popSucceeded rpc.logIndex queue (sizes queue) = (rest, sizes rest) ∧ rest <:+ queue ∧
        RangesFrom (rpc.logIndex + rpc.entriesSize) rest next := by
  induction queue with
  | nil => contradiction
  | cons head rest ih =>
      intro start next ranges
      have atMost := RangesFrom.start_le member ranges
      have isStart := ranges.1
      have headPositive := positive head List.mem_cons_self
      have size : sizes (head :: rest) - head.entriesSize = sizes rest := by
        simp only [sizes, List.map_cons, List.sum_cons]
        omega
      rw [popSucceeded, if_pos (by omega), size]
      rcases List.mem_cons.mp member with same | later
      · subst same
        rw [popSucceeded_stop ranges.2 (by omega)]
        refine ⟨rest, rfl, List.suffix_cons _ _, ?_⟩
        rw [isStart]
        exact ranges.2
      · obtain ⟨last, popped, suffix, lastRanges⟩ :=
          ih later (fun rpc inRest => positive rpc (List.mem_cons_of_mem _ inRest)) ranges.2
        exact ⟨last, popped, suffix.trans (List.suffix_cons _ _), lastRanges⟩

def Quiet (r : Replicator P D) : Prop := r.isWaiterCanceled = true ∨ r.waiters = 0

/-- Neither a timer of `_block` nor a snapshot is waited for. -/
structure Clear (r : Replicator P D) : Prop where
  timers : r.blockTimers = 0
  timeouts : r.blockTimeouts = 0
  noInstall : r.installSnapshotInFly = none

structure Queue (r : Replicator P D) : Prop where
  ranges : RangesFrom r.minFlyingIndex r.appendEntriesInFly r.nextIndex
  size : sizes r.appendEntriesInFly = r.flyingAppendEntriesSize
  positive : 0 < r.minFlyingIndex
  named : ∀ rpc ∈ r.appendEntriesInFly, ∃ request, r.sent[rpc.callId]? = some request ∧
    rpc.logIndex = request.prevLogIndex + 1 ∧ rpc.entriesSize = request.entries.length

structure Streaming (r : Replicator P D) : Prop extends Queue r, Clear r where
  notBlocking : r.st ≠ .blocking
  noProbe : ∀ rpc ∈ r.appendEntriesInFly, 0 < rpc.entriesSize

structure AtRest (r : Replicator P D) : Prop extends Clear r where
  notBlocking : r.st ≠ .blocking
  empty : r.appendEntriesInFly = []
  noSize : r.flyingAppendEntriesSize = 0
  positive : 0 < r.nextIndex
  quiet : r.Quiet

structure Paced (r : Replicator P D) : Prop extends Queue r where
  probing : ∀ rpc ∈ r.appendEntriesInFly, rpc.entriesSize = 0 →
    r.appendEntriesInFly = [rpc] ∧ r.Quiet
  installing : r.installSnapshotInFly ≠ none → r.appendEntriesInFly = [] ∧ r.Quiet
  resting : 0 < r.blockTimers + r.blockTimeouts →
    r.appendEntriesInFly = [] ∧ r.Quiet ∧ r.installSnapshotInFly = none
  timers : r.blockTimers + r.blockTimeouts ≤ 1
  blocking : r.st = .blocking ↔ r.blockTimers = 1

structure SamePace (r after : Replicator P D) : Prop where
  minFlyingIndex : after.minFlyingIndex = r.minFlyingIndex
  hasSucceeded : after.hasSucceeded = r.hasSucceeded
  committed : after.committed = r.committed
  acknowledged : after.acknowledged = r.acknowledged
  installed : after.installed = r.installed

variable {r after : Replicator P D} {options : ReplicatorOptions P D}
  {around : ReplicatorSurroundings P D C}

theorem SamePace.refl (r : Replicator P D) : SamePace r r := ⟨rfl, rfl, rfl, rfl, rfl⟩

theorem SamePace.trans {middle : Replicator P D} (first : SamePace r middle)
    (second : SamePace middle after) : SamePace r after :=
  ⟨second.minFlyingIndex.trans first.minFlyingIndex,
    second.hasSucceeded.trans first.hasSucceeded, second.committed.trans first.committed,
    second.acknowledged.trans first.acknowledged, second.installed.trans first.installed⟩

theorem Streaming.paced (streaming : Streaming r) : Paced r := by
  have timers := streaming.timers
  have timeouts := streaming.timeouts
  refine
    { streaming.toQueue with
      probing := ?_
      installing := ?_
      resting := ?_
      timers := ?_
      blocking := ?_ }
  · intro rpc member none
    have positive := streaming.noProbe rpc member
    omega
  · exact fun some => absurd streaming.noInstall some
  · intro rests
    omega
  · omega
  · constructor
    · exact fun blocking => absurd blocking streaming.notBlocking
    · intro one
      omega

theorem Queue.of_empty (empty : r.appendEntriesInFly = []) (noSize : r.flyingAppendEntriesSize = 0)
    (positive : 0 < r.nextIndex) : Queue r := by
  have minimum : r.minFlyingIndex = r.nextIndex := by
    unfold minFlyingIndex
    omega
  constructor
  · rw [empty]
    exact minimum
  · rw [empty, noSize]
    rfl
  · rw [minimum]
    exact positive
  · intro rpc member
    rw [empty] at member
    contradiction

theorem AtRest.streaming (rests : AtRest r) : Streaming r := by
  refine
    { Queue.of_empty rests.empty rests.noSize rests.positive, rests.toClear with
      notBlocking := rests.notBlocking
      noProbe := ?_ }
  intro rpc member
  rw [rests.empty] at member
  contradiction

theorem AtRest.blocked (rests : AtRest r) :
    Paced { r with st := .blocking, blockTimers := r.blockTimers + 1 } := by
  have timers := rests.timers
  have timeouts := rests.timeouts
  refine
    { Queue.of_empty rests.empty rests.noSize rests.positive with
      probing := ?_
      installing := ?_
      resting := ?_
      timers := ?_
      blocking := ?_ }
  · intro rpc member
    have member : rpc ∈ r.appendEntriesInFly := member
    rw [rests.empty] at member
    contradiction
  · exact fun some => absurd rests.noInstall some
  · exact fun _ => ⟨rests.empty, rests.quiet, rests.noInstall⟩
  · simp only
    omega
  · simp only [true_iff]
    omega

theorem AtRest.installing (rests : AtRest r) (lastIncludedIndex : Nat) :
    Paced { r with
      st := .installingSnapshot
      reader := true
      installSnapshotInFly := some lastIncludedIndex } := by
  have timers := rests.timers
  have timeouts := rests.timeouts
  refine
    { Queue.of_empty rests.empty rests.noSize rests.positive with
      probing := ?_
      installing := ?_
      resting := ?_
      timers := ?_
      blocking := ?_ }
  · intro rpc member
    have member : rpc ∈ r.appendEntriesInFly := member
    rw [rests.empty] at member
    contradiction
  · exact fun _ => ⟨rests.empty, rests.quiet⟩
  · intro waits
    simp only at waits
    omega
  · simp only
    omega
  · constructor
    · intro blocking
      contradiction
    · intro one
      simp only at one
      omega

theorem SamePace.reset (r : Replicator P D) : SamePace r r.resetNextIndex :=
  ⟨rfl, rfl, rfl, rfl, rfl⟩

theorem atRest_reset (clear : Clear r) (positive : 0 < r.minFlyingIndex)
    (notBlocking : r.st ≠ .blocking) : AtRest r.resetNextIndex :=
  { timers := clear.timers
    timeouts := clear.timeouts
    noInstall := clear.noInstall
    notBlocking := notBlocking
    empty := rfl
    noSize := rfl
    positive := positive
    quiet := Or.inl rfl }

theorem waitMoreEntries_cases (around : ReplicatorSurroundings P D C) (r : Replicator P D) :
    ∃ st waitId lastWaitId waiters isWaiterCanceled, (st = .idle ∨ st = r.st) ∧
      r.waitMoreEntries around = { r with
        st := st
        waitId := waitId
        lastWaitId := lastWaitId
        waiters := waiters
        isWaiterCanceled := isWaiterCanceled } := by
  unfold waitMoreEntries
  by_cases waits : r.waitId = 0 ∧ r.flyingAppendEntriesSize < around.maxEntriesSize ∧
      r.appendEntriesInFly.length < around.maxParallelAppendEntriesRpcNum
  · rw [if_pos waits]
    by_cases none : r.flyingAppendEntriesSize = 0
    · exact ⟨_, _, _, _, _, Or.inl rfl, if_pos none⟩
    · exact ⟨_, _, _, _, _, Or.inr rfl, if_neg none⟩
  · rw [if_neg waits]
    by_cases none : r.flyingAppendEntriesSize = 0
    · exact ⟨_, _, _, _, _, Or.inl rfl, if_pos none⟩
    · exact ⟨_, _, _, _, _, Or.inr rfl, if_neg none⟩

theorem Streaming.waitMoreEntries (streaming : Streaming r) (around : ReplicatorSurroundings P D C) :
    Paced (r.waitMoreEntries around) ∧ SamePace r (r.waitMoreEntries around) := by
  obtain ⟨st, waitId, lastWaitId, waiters, canceled, isState, same⟩ :=
    waitMoreEntries_cases around r
  rw [same]
  refine ⟨Streaming.paced ?_, ⟨rfl, rfl, rfl, rfl, rfl⟩⟩
  have notBlocking : st ≠ .blocking := by
    rcases isState with rfl | rfl
    · exact nofun
    · exact streaming.notBlocking
  exact
  { ranges := streaming.ranges
    size := streaming.size
    positive := streaming.positive
    named := streaming.named
    timers := streaming.timers
    timeouts := streaming.timeouts
    noInstall := streaming.noInstall
    notBlocking := notBlocking
    noProbe := streaming.noProbe }

/-- What may be called from a replicator at rest. -/
def Keeps (call : Replicator P D → Option (Replicator P D)) : Prop :=
  ∀ r after, AtRest r → call r = some after → Paced after ∧ SamePace r after

theorem AtRest.installingSnapshot (rests : AtRest r) :
    AtRest { r with st := .installingSnapshot } :=
  { rests with notBlocking := nofun }

theorem keeps_block (attempt : InstallAttempt) {retry : Replicator P D → Option (Replicator P D)}
    (keeps : Keeps retry) : Keeps (block attempt retry) := by
  intro r after rests called
  unfold block at called
  rw [if_neg rests.notBlocking] at called
  by_cases added : attempt.timerAdded
  · rw [if_pos added, Option.some_inj] at called
    subst called
    exact ⟨rests.blocked, ⟨rfl, rfl, rfl, rfl, rfl⟩⟩
  · rw [if_neg added] at called
    exact keeps r after rests called

theorem keeps_installSnapshot (attempt : InstallAttempt)
    {retry : Replicator P D → Option (Replicator P D)} (keeps : Keeps retry) :
    Keeps (installSnapshot options attempt retry) := by
  intro r after rests called
  unfold installSnapshot at called
  by_cases witness : options.nodeIsWitness
  · rw [if_pos witness] at called
    exact keeps_block attempt keeps r after rests called
  rw [if_neg witness] at called
  by_cases running : r.reader
  · rw [if_pos running, Option.some_inj] at called
    subst called
    exact ⟨rests.streaming.paced, .refl _⟩
  rw [if_neg running] at called
  by_cases throttled : attempt.throttled
  · rw [if_pos throttled] at called
    exact keeps_block attempt keeps r after rests called
  rw [if_neg throttled] at called
  simp only at called
  cases isFound : attempt.snapshot with
  | notOpened =>
      rw [isFound] at called
      obtain rfl := Option.some.inj called
      exact ⟨rests.installingSnapshot.streaming.paced, ⟨rfl, rfl, rfl, rfl, rfl⟩⟩
  | noUri =>
      rw [isFound] at called
      obtain ⟨paced, same⟩ :=
        keeps_block attempt keeps _ after rests.installingSnapshot called
      have started : SamePace r { r with st := .installingSnapshot } :=
        ⟨rfl, rfl, rfl, rfl, rfl⟩
      exact ⟨paced, started.trans same⟩
  | noMeta =>
      rw [isFound] at called
      obtain rfl := Option.some.inj called
      have opened : AtRest { r with st := .installingSnapshot, reader := true } :=
        { rests with notBlocking := nofun }
      exact ⟨opened.streaming.paced, ⟨rfl, rfl, rfl, rfl, rfl⟩⟩
  | found lastIncludedIndex =>
      rw [isFound] at called
      obtain rfl := Option.some.inj called
      exact ⟨rests.installing lastIncludedIndex, ⟨rfl, rfl, rfl, rfl, rfl⟩⟩

theorem fillCommonFields_prev {manager : LogManager P D C} {prevLogIndex : Nat}
    {prevLog : Nat × Nat}
    (filled : fillCommonFields manager prevLogIndex false = some (some prevLog)) :
    prevLog.1 = prevLogIndex := by
  unfold fillCommonFields at filled
  simp only at filled
  split_ifs at filled with compacted isHeartbeat below
  · exact isHeartbeat.elim
  · cases filled
  · exact congrArg Prod.fst (Option.some.inj (Option.some.inj filled)).symm

theorem Queue.push (queue : Queue r) {request : AppendEntriesRequest P D}
    (isNext : request.prevLogIndex + 1 = r.nextIndex) :
    Queue (r.push request) ∧ SamePace r (r.push request) := by
  have total := queue.ranges.sum
  have size := queue.size
  have minimum : (r.push request).minFlyingIndex = r.minFlyingIndex := by
    change r.nextIndex + request.entries.length -
      (r.flyingAppendEntriesSize + request.entries.length) =
        r.nextIndex - r.flyingAppendEntriesSize
    omega
  refine ⟨?_, minimum, rfl, rfl, rfl, rfl⟩
  constructor
  · rw [minimum]
    exact RangesFrom.push ⟨r.nextIndex, request.entries.length, r.sent.length⟩ queue.ranges
  · change sizes (r.appendEntriesInFly ++ _) = r.flyingAppendEntriesSize + request.entries.length
    rw [← size]
    simp [sizes]
  · rw [minimum]
    exact queue.positive
  · intro rpc member
    rcases List.mem_append.mp member with earlier | last
    · obtain ⟨sent, isSent, index, entriesSize⟩ := queue.named rpc earlier
      refine ⟨sent, ?_, index, entriesSize⟩
      change (r.sent ++ [request])[rpc.callId]? = some sent
      rw [List.getElem?_append_left (List.getElem?_eq_some_iff.mp isSent).1, isSent]
    · obtain rfl := List.mem_singleton.mp last
      refine ⟨request, ?_, isNext.symm, rfl⟩
      change (r.sent ++ [request])[r.sent.length]? = some request
      rw [List.getElem?_append_right (le_refl _), Nat.sub_self]
      rfl

theorem AtRest.push (rests : AtRest r) {request : AppendEntriesRequest P D}
    (isNext : request.prevLogIndex + 1 = r.nextIndex) :
    Paced (r.push request) ∧ SamePace r (r.push request) := by
  have timers := rests.timers
  have timeouts := rests.timeouts
  obtain ⟨queue, same⟩ := rests.streaming.toQueue.push isNext
  refine ⟨?_, same⟩
  refine
    { queue with
      probing := ?_
      installing := ?_
      resting := ?_
      timers := ?_
      blocking := ?_ }
  · intro rpc member _
    have alone : (r.push request).appendEntriesInFly =
        [{ logIndex := r.nextIndex, entriesSize := request.entries.length,
           callId := r.sent.length }] := by
      change r.appendEntriesInFly ++ _ = _
      rw [rests.empty, List.nil_append]
    rw [alone] at member ⊢
    rw [List.mem_singleton.mp member]
    exact ⟨rfl, rests.quiet⟩
  · exact fun some => absurd rests.noInstall some
  · intro waits
    change 0 < r.blockTimers + r.blockTimeouts at waits
    omega
  · change r.blockTimers + r.blockTimeouts ≤ 1
    omega
  · constructor
    · intro blocking
      contradiction
    · intro one
      change r.blockTimers = 1 at one
      omega

theorem keeps_sendEmptyEntries (attempts : List InstallAttempt) :
    Keeps (sendEmptyEntries options around attempts) := by
  induction attempts with
  | nil =>
      intro r after _ called
      contradiction
  | cons attempt rest ih =>
      intro r after rests called
      unfold sendEmptyEntries at called
      cases filled : fillCommonFields around.logManager (r.nextIndex - 1) false with
      | none =>
          rw [filled] at called
          contradiction
      | some outcome =>
          cases outcome with
          | none =>
              rw [filled] at called
              exact keeps_installSnapshot attempt ih r after rests called
          | some prevLog =>
              rw [filled] at called
              simp only at called
              rw [if_neg (by simp [rests.empty, rests.noSize]), Option.some_inj] at called
              subst called
              have positive := rests.positive
              have isPrev : prevLog.1 = r.nextIndex - 1 := fillCommonFields_prev filled
              refine rests.push ?_
              change prevLog.1 + 1 = r.nextIndex
              omega

theorem keeps_startInstall : Keeps (startInstall options around : Replicator P D → _) := by
  intro r after rests called
  unfold startInstall at called
  cases isAttempts : around.attempts with
  | nil =>
      rw [isAttempts] at called
      contradiction
  | cons attempt rest =>
      rw [isAttempts] at called
      exact keeps_installSnapshot attempt (keeps_sendEmptyEntries rest) r after rests called

theorem keeps_blockFailed : Keeps (blockFailed options around : Replicator P D → _) := by
  intro r after rests called
  unfold blockFailed at called
  cases isAttempts : around.attempts with
  | nil =>
      rw [isAttempts] at called
      contradiction
  | cons attempt rest =>
      rw [isAttempts] at called
      exact keeps_block attempt (keeps_sendEmptyEntries rest) r after rests called

theorem prepareEntry_same {offset dataLength size : Nat} {entryMeta : EntryMeta P D}
    {prepared : Replicator P D}
    (isPrepared : prepareEntry options around offset dataLength r =
      some (.ok (entryMeta, size, prepared))) :
    ∃ readonlyIndex, prepared = { r with readonlyIndex := readonlyIndex } := by
  unfold prepareEntry at isPrepared
  by_cases full : around.maxBodySize ≤ dataLength
  · rw [if_pos full] at isPrepared
    cases isPrepared
  rw [if_neg full] at isPrepared
  simp only at isPrepared
  cases found : around.logManager.getEntry (r.nextIndex + offset) with
  | none =>
      rw [found] at isPrepared
      cases isPrepared
  | some entry =>
      rw [found] at isPrepared
      simp only at isPrepared
      split at isPrepared
      · cases isPrepared
      · split at isPrepared
        · contradiction
        · simp only [Option.some.injEq, Except.ok.injEq, Prod.mk.injEq] at isPrepared
          obtain ⟨_, _, same⟩ := isPrepared
          rw [← same]
          split
          · exact ⟨_, rfl⟩
          · exact ⟨_, rfl⟩

theorem prepareEntries_same : ∀ (left offset dataLength : Nat) (r : Replicator P D)
    {entries : List (EntryMeta P D)} {errorCode : Int} {prepared : Replicator P D},
    prepareEntries options around left offset dataLength r = some (entries, errorCode, prepared) →
      ∃ readonlyIndex, prepared = { r with readonlyIndex := readonlyIndex } := by
  intro left
  induction left with
  | zero =>
      intro offset dataLength r entries errorCode prepared isPrepared
      simp only [prepareEntries, Option.some.injEq, Prod.mk.injEq] at isPrepared
      obtain ⟨_, _, rfl⟩ := isPrepared
      exact ⟨_, rfl⟩
  | succ left ih =>
      intro offset dataLength r entries errorCode prepared isPrepared
      rw [prepareEntries] at isPrepared
      cases first : prepareEntry options around offset dataLength r with
      | none =>
          rw [first] at isPrepared
          contradiction
      | some outcome =>
          cases outcome with
          | error code =>
              rw [first] at isPrepared
              simp only [Option.some.injEq, Prod.mk.injEq] at isPrepared
              obtain ⟨_, _, rfl⟩ := isPrepared
              exact ⟨_, rfl⟩
          | ok found =>
              obtain ⟨entryMeta, size, middle⟩ := found
              rw [first] at isPrepared
              simp only [Option.map_eq_some_iff] at isPrepared
              obtain ⟨⟨others, code, last⟩, isLast, same⟩ := isPrepared
              simp only [Prod.mk.injEq] at same
              obtain ⟨_, _, rfl⟩ := same
              obtain ⟨readonlyIndex, rfl⟩ := prepareEntry_same first
              obtain ⟨lastReadonlyIndex, rfl⟩ := ih _ _ _ isLast
              exact ⟨lastReadonlyIndex, rfl⟩

theorem Streaming.readonly (streaming : Streaming r) (readonlyIndex : Nat) :
    Streaming { r with readonlyIndex := readonlyIndex } :=
  { streaming with
    ranges := streaming.ranges
    positive := streaming.positive }

theorem Streaming.push (streaming : Streaming r) {request : AppendEntriesRequest P D}
    (nonempty : request.entries ≠ []) (isNext : request.prevLogIndex + 1 = r.nextIndex) :
    Streaming (r.push request) ∧ SamePace r (r.push request) := by
  obtain ⟨queue, same⟩ := streaming.toQueue.push isNext
  refine ⟨?_, same⟩
  refine
    { queue with
      timers := streaming.timers
      timeouts := streaming.timeouts
      noInstall := streaming.noInstall
      notBlocking := nofun
      noProbe := ?_ }
  intro rpc member
  rcases List.mem_append.mp member with earlier | last
  · exact streaming.noProbe rpc earlier
  · obtain rfl := List.mem_singleton.mp last
    exact List.length_pos_iff.mpr nonempty

theorem Streaming.sendEntries (streaming : Streaming r)
    (called : r.sendEntries options around = some after) : Paced after ∧ SamePace r after := by
  unfold Replicator.sendEntries at called
  simp only at called
  by_cases full : around.maxEntriesSize ≤ r.flyingAppendEntriesSize ∨
      around.maxParallelAppendEntriesRpcNum ≤ r.appendEntriesInFly.length ∨ r.st = .blocking
  · rw [if_pos full, Option.some_inj] at called
    subst called
    exact ⟨streaming.paced, .refl _⟩
  rw [if_neg full] at called
  cases filled : fillCommonFields around.logManager (r.nextIndex - 1) false with
  | none =>
      rw [filled] at called
      contradiction
  | some outcome =>
      cases outcome with
      | none =>
          rw [filled] at called
          have rests := atRest_reset streaming.toClear streaming.positive streaming.notBlocking
          obtain ⟨paced, same⟩ := keeps_startInstall _ after rests called
          exact ⟨paced, (SamePace.reset r).trans same⟩
      | some prevLog =>
          rw [filled] at called
          simp only at called
          cases isPrepared : prepareEntries options around
              (around.maxEntriesSize - r.flyingAppendEntriesSize) 0 0 r with
          | none =>
              rw [isPrepared] at called
              contradiction
          | some outcome =>
              obtain ⟨entries, errorCode, prepared⟩ := outcome
              obtain ⟨readonlyIndex, rfl⟩ := prepareEntries_same _ _ _ _ isPrepared
              have ready := streaming.readonly readonlyIndex
              have samePace : SamePace r { r with readonlyIndex := readonlyIndex } :=
                ⟨rfl, rfl, rfl, rfl, rfl⟩
              rw [isPrepared] at called
              cases entries with
              | nil =>
                  simp only at called
                  split_ifs at called with compacted readonly none
                  · have rests := atRest_reset ready.toClear ready.positive ready.notBlocking
                    obtain ⟨paced, same⟩ := keeps_startInstall _ after rests called
                    exact ⟨paced, (samePace.trans (SamePace.reset _)).trans same⟩
                  · obtain rfl := Option.some.inj called
                    have idle : Streaming { r with
                        readonlyIndex := readonlyIndex
                        st := .idle } :=
                      { ready with
                        ranges := ready.ranges
                        positive := ready.positive
                        notBlocking := nofun }
                    exact ⟨idle.paced, ⟨rfl, rfl, rfl, rfl, rfl⟩⟩
                  · obtain rfl := Option.some.inj called
                    exact ⟨ready.paced, samePace⟩
                  · obtain rfl := Option.some.inj called
                    obtain ⟨paced, same⟩ := ready.waitMoreEntries around
                    exact ⟨paced, samePace.trans same⟩
              | cons entryMeta entries =>
                  obtain rfl := Option.some.inj called
                  have isPrev : prevLog.1 = r.nextIndex - 1 := fillCommonFields_prev filled
                  have positive := streaming.positive
                  have isNext : (request options around prevLog
                      (entryMeta :: entries)).prevLogIndex + 1 = r.nextIndex := by
                    change prevLog.1 + 1 = r.nextIndex
                    unfold minFlyingIndex at positive
                    omega
                  obtain ⟨pushed, samePush⟩ := ready.push (List.cons_ne_nil entryMeta entries) isNext
                  obtain ⟨paced, same⟩ := pushed.waitMoreEntries around
                  exact ⟨paced, (samePace.trans samePush).trans same⟩

end Replicator

end QuorumKit
