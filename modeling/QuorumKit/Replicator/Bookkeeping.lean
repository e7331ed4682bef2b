/-
What a replicator knows about its follower.

The next index is a guess until the first success.  From then on the follower has every index
below the first one in flight, and an index that it is found to have is passed to `commit_at`.
-/

import QuorumKit.Replicator.InFlight

namespace QuorumKit

namespace Replicator

variable {P D C : Type}

/-! ### Indexes of the follower -/

def Acknowledges (r : Replicator P D) (index : Nat) : Prop := ∃ last ∈ r.acknowledged, index ≤ last

def Installs (r : Replicator P D) (index : Nat) : Prop := ∃ last ∈ r.installed, index ≤ last

/-- The index has been passed to `commit_at`. -/
def Commits (r : Replicator P D) (index : Nat) : Prop :=
  ∃ range ∈ r.committed, range.1 ≤ index ∧ index ≤ range.2

/-- The queue ends at the next index and has the size that is counted, and once something has
succeeded the follower has what lies before the queue. -/
structure InFlight (r : Replicator P D) : Prop where
  ranges : RangesFrom r.minFlyingIndex r.appendEntriesInFly r.nextIndex
  size : sizes r.appendEntriesInFly = r.flyingAppendEntriesSize
  covered : r.hasSucceeded → ∀ index, 0 < index → index < r.minFlyingIndex →
    r.Acknowledges index ∨ r.Installs index

/-- What a step finds the follower to have is passed to `commit_at`. -/
structure Passes (r after : Replicator P D) : Prop where
  advanced : ∀ index, r.minFlyingIndex ≤ index → index < after.minFlyingIndex →
    after.Commits index ∨ after.Installs index
  acknowledged : r.hasSucceeded → ∀ index, 0 < index → ¬ r.Acknowledges index →
    ¬ r.Installs index → after.Acknowledges index → after.Commits index

/-- A follower leaves its readonly mode only while no empty request is in flight, no snapshot is
being installed and no timer of `_block` is running. -/
def LeavesReadonly (action : Action P D C) (r : Replicator P D) : Prop :=
  match action with
  | .changeReadonlyConfig _ false =>
      r.readonlyIndex = 0 ∨ Clear r ∧ ∀ rpc ∈ r.appendEntriesInFly, 0 < rpc.entriesSize
  | _ => True

structure Kept (r : Replicator P D) : Prop extends Paced r where
  covered : r.hasSucceeded → ∀ index, 0 < index → index < r.minFlyingIndex →
    r.Acknowledges index ∨ r.Installs index

variable {r after : Replicator P D} {options : ReplicatorOptions P D}
  {around : ReplicatorSurroundings P D C}

theorem Kept.inFlight (kept : Kept r) : InFlight r := ⟨kept.ranges, kept.size, kept.covered⟩

theorem Kept.lower (kept : Kept r) (paced : Paced after)
    (lower : after.minFlyingIndex ≤ r.minFlyingIndex)
    (hasSucceeded : after.hasSucceeded = r.hasSucceeded)
    (acknowledged : after.acknowledged = r.acknowledged)
    (installed : after.installed = r.installed) : Kept after ∧ Passes r after := by
  refine ⟨{ paced with covered := ?_ }, ?_, ?_⟩
  · intro succeeded index positive below
    rw [hasSucceeded] at succeeded
    unfold Acknowledges Installs
    rw [acknowledged, installed]
    exact kept.covered succeeded index positive (by omega)
  · intro index above below
    omega
  · intro _ index _ unknown _ known
    unfold Acknowledges at known
    rw [acknowledged] at known
    exact absurd known unknown

theorem Kept.same (kept : Kept r) (paced : Paced after) (same : SamePace r after) :
    Kept after ∧ Passes r after :=
  kept.lower paced same.minFlyingIndex.le same.hasSucceeded same.acknowledged same.installed

/-! ### Answers to requests -/

theorem Paced.clear_of_flying (paced : Paced r) {rpc : FlyingAppendEntriesRpc}
    (member : rpc ∈ r.appendEntriesInFly) : Clear r ∧ r.st ≠ .blocking := by
  have flying : r.appendEntriesInFly ≠ [] := List.ne_nil_of_mem member
  have still : ¬ 0 < r.blockTimers + r.blockTimeouts := fun rests => flying (paced.resting rests).1
  have noInstall : r.installSnapshotInFly = none := by
    by_contra some
    exact flying (paced.installing some).1
  refine ⟨⟨by omega, by omega, noInstall⟩, ?_⟩
  intro blocking
  have one := paced.blocking.mp blocking
  omega

theorem Paced.valid (paced : Paced r) {callId : Nat} {request : AppendEntriesRequest P D}
    (isSent : r.sent[callId]? = some request)
    (valid : r.isValidRpc callId (request.prevLogIndex + 1)) :
    ∃ rpc ∈ r.appendEntriesInFly, rpc.logIndex = request.prevLogIndex + 1 ∧
      rpc.entriesSize = request.entries.length := by
  obtain ⟨rpc, inFront, isCall⟩ := List.any_eq_true.mp valid
  have member := (List.takeWhile_prefix _).subset inFront
  obtain ⟨named, isNamed, index, size⟩ := paced.named rpc member
  rw [of_decide_eq_true isCall, isSent, Option.some_inj] at isNamed
  subst isNamed
  exact ⟨rpc, member, index, size⟩

theorem Paced.succeed (paced : Paced r) {request : AppendEntriesRequest P D}
    {rpc : FlyingAppendEntriesRpc} (member : rpc ∈ r.appendEntriesInFly)
    (index : rpc.logIndex = request.prevLogIndex + 1)
    (size : rpc.entriesSize = request.entries.length) :
    Streaming (r.succeed request) ∧
      (r.succeed request).minFlyingIndex = request.prevLogIndex + request.entries.length + 1 ∧
      r.minFlyingIndex ≤ request.prevLogIndex + 1 ∧
      (request.entries = [] → r.minFlyingIndex = request.prevLogIndex + 1) := by
  obtain ⟨clear, notBlocking⟩ := paced.clear_of_flying member
  have atMost := RangesFrom.start_le member paced.ranges
  have total := paced.ranges.sum
  -- an empty request is alone, and the others are not empty
  obtain ⟨rest, popped, suffix, ranges, positive, alone⟩ :
      ∃ rest, popSucceeded rpc.logIndex r.appendEntriesInFly (sizes r.appendEntriesInFly) =
          (rest, sizes rest) ∧ rest <:+ r.appendEntriesInFly ∧
        RangesFrom (rpc.logIndex + rpc.entriesSize) rest r.nextIndex ∧
        (∀ other ∈ rest, 0 < other.entriesSize) ∧
        (request.entries = [] → r.minFlyingIndex = rpc.logIndex) := by
    by_cases empty : rpc.entriesSize = 0
    · obtain ⟨isAlone, _⟩ := paced.probing rpc member empty
      have ranges := paced.ranges
      rw [isAlone] at ranges ⊢
      have pops : popSucceeded rpc.logIndex [rpc] (sizes [rpc]) = ([], sizes []) := by
        rw [popSucceeded, if_pos (le_refl _), popSucceeded]
        simp [sizes]
      refine ⟨[], pops, List.nil_suffix, ranges.1 ▸ ranges.2, ?_, fun _ => ranges.1.symm⟩
      intro other inNone
      exact absurd inNone List.not_mem_nil
    · have positive : ∀ other ∈ r.appendEntriesInFly, 0 < other.entriesSize := by
        intro other inQueue
        by_contra none
        obtain ⟨isAlone, _⟩ := paced.probing other inQueue (by omega)
        rw [isAlone, List.mem_singleton] at member
        rw [member] at empty
        omega
      obtain ⟨rest, popped, suffix, ranges⟩ :=
        popSucceeded_ranges member positive paced.ranges
      refine ⟨rest, popped, suffix, ranges, ?_, ?_⟩
      · exact fun other inRest => positive other (suffix.subset inRest)
      · intro isEmpty
        rw [size, isEmpty] at empty
        exact absurd rfl empty
  rw [index, paced.size] at popped
  have queue : (r.succeed request).appendEntriesInFly = rest := congrArg Prod.fst popped
  have counted : (r.succeed request).flyingAppendEntriesSize = sizes rest :=
    congrArg Prod.snd popped
  have left := ranges.sum
  have minimum : (r.succeed request).minFlyingIndex = rpc.logIndex + rpc.entriesSize := by
    unfold minFlyingIndex
    rw [counted]
    change r.nextIndex - sizes rest = _
    omega
  refine ⟨?_, by omega, by omega, fun isEmpty => by rw [alone isEmpty, index]⟩
  exact
  { ranges := by
      rw [queue, minimum]
      exact ranges
    size := by rw [queue, counted]
    positive := by omega
    named := by
      intro other inRest
      rw [queue] at inRest
      exact paced.named other (suffix.subset inRest)
    timers := clear.timers
    timeouts := clear.timeouts
    noInstall := clear.noInstall
    notBlocking := notBlocking
    noProbe := by
      intro other inRest
      rw [queue] at inRest
      exact positive other inRest }

theorem Streaming.timeoutNow (streaming : Streaming r) :
    Streaming r.timeoutNow ∧ SamePace r r.timeoutNow := by
  unfold Replicator.timeoutNow
  split
  · exact ⟨{ streaming with
      ranges := streaming.ranges
      positive := streaming.positive }, ⟨rfl, rfl, rfl, rfl, rfl⟩⟩
  · exact ⟨streaming, .refl _⟩

theorem Kept.succeeds (kept : Kept r) {request : AppendEntriesRequest P D}
    {rpc : FlyingAppendEntriesRpc} (member : rpc ∈ r.appendEntriesInFly)
    (index : rpc.logIndex = request.prevLogIndex + 1)
    (size : rpc.entriesSize = request.entries.length)
    (called : (r.succeed request).timeoutNow.sendEntries options around = some after) :
    Kept after ∧ Passes r after := by
  obtain ⟨streaming, minimum, lower, alone⟩ := kept.toPaced.succeed member index size
  obtain ⟨ready, sameTimeout⟩ := streaming.timeoutNow
  obtain ⟨paced, sameSent⟩ := ready.sendEntries called
  have same := sameTimeout.trans sameSent
  have isMinimum := same.minFlyingIndex.trans minimum
  have acknowledged : after.acknowledged =
      (request.prevLogIndex + request.entries.length) :: r.acknowledged := same.acknowledged
  have committed : request.entries ≠ [] → after.committed =
      (r.minFlyingIndex, request.prevLogIndex + request.entries.length) :: r.committed := by
    intro nonempty
    rw [same.committed]
    exact if_neg (by simpa using nonempty)
  have newest {index : Nat} (above : r.minFlyingIndex ≤ index)
      (below : index ≤ request.prevLogIndex + request.entries.length) : after.Commits index := by
    have nonempty : request.entries ≠ [] := by
      intro empty
      have isAlone := alone empty
      rw [empty, List.length_nil] at below
      omega
    refine ⟨(r.minFlyingIndex, request.prevLogIndex + request.entries.length), ?_, above, below⟩
    rw [committed nonempty]
    exact List.mem_cons_self
  refine ⟨{ paced with covered := ?_ }, ?_, ?_⟩
  · intro _ index _ below
    refine Or.inl ⟨_, ?_, show index ≤ request.prevLogIndex + request.entries.length by omega⟩
    rw [acknowledged]
    exact List.mem_cons_self
  · intro index above below
    exact Or.inl (newest above (by omega))
  · intro succeeded index positive unknown notInstalled known
    obtain ⟨last, isLast, below⟩ := known
    rw [acknowledged] at isLast
    rcases List.mem_cons.mp isLast with rfl | earlier
    · refine newest ?_ below
      by_contra before
      rcases kept.covered succeeded index positive (by omega) with known | installed
      · exact unknown known
      · exact notInstalled installed
    · exact absurd ⟨last, earlier, below⟩ unknown

theorem indexAfterMismatch_le (lastLogIndex nextIndex : Nat) :
    indexAfterMismatch lastLogIndex nextIndex ≤ nextIndex := by
  unfold indexAfterMismatch
  split_ifs <;> omega

theorem indexAfterMismatch_pos {nextIndex : Nat} (positive : 0 < nextIndex) (lastLogIndex : Nat) :
    0 < indexAfterMismatch lastLogIndex nextIndex := by
  unfold indexAfterMismatch
  split_ifs <;> omega

theorem Kept.onRpcReturned (kept : Kept r) {callId : Nat} {answer : RpcAnswer}
    (called : r.onRpcReturned options around callId answer = some after) :
    Kept after ∧ Passes r after := by
  unfold Replicator.onRpcReturned at called
  cases isSent : r.sent[callId]? with
  | none =>
      rw [isSent] at called
      contradiction
  | some request =>
      rw [isSent] at called
      simp only at called
      by_cases zero : r.minFlyingIndex = 0
      · rw [if_pos zero] at called
        contradiction
      rw [if_neg zero] at called
      by_cases invalid : ¬ r.isValidRpc callId (request.prevLogIndex + 1)
      · rw [if_pos invalid] at called
        obtain rfl := Option.some.inj called
        exact kept.same kept.toPaced (.refl _)
      rw [if_neg invalid] at called
      obtain ⟨rpc, member, index, size⟩ := kept.toPaced.valid isSent (not_not.mp invalid)
      obtain ⟨clear, notBlocking⟩ := kept.toPaced.clear_of_flying member
      have rests := atRest_reset clear kept.positive notBlocking
      cases answer with
      | failed =>
          obtain ⟨paced, same⟩ := keeps_blockFailed _ after rests called
          exact kept.same paced ((SamePace.reset r).trans same)
      | returned response =>
          simp only at called
          by_cases failed : ¬ response.success
          · rw [if_pos failed] at called
            by_cases higher : options.term < response.term
            · rw [if_pos higher] at called
              obtain rfl := Option.some.inj called
              have gone : AtRest { r.resetNextIndex with destroyed := true } :=
                { rests with quiet := rests.quiet }
              exact kept.same gone.streaming.paced ⟨rfl, rfl, rfl, rfl, rfl⟩
            · rw [if_neg higher] at called
              have notAbove :=
                indexAfterMismatch_le response.lastLogIndex r.resetNextIndex.nextIndex
              have stepped : AtRest { r.resetNextIndex with
                  nextIndex := indexAfterMismatch response.lastLogIndex
                    r.resetNextIndex.nextIndex } :=
                { rests with
                  positive := indexAfterMismatch_pos rests.positive _
                  quiet := rests.quiet }
              obtain ⟨paced, same⟩ := keeps_sendEmptyEntries _ _ after stepped called
              refine kept.lower paced ?_ same.hasSucceeded same.acknowledged same.installed
              rw [same.minFlyingIndex]
              exact notAbove
          · rw [if_neg failed] at called
            by_cases otherTerm : response.term ≠ options.term
            · rw [if_pos otherTerm] at called
              obtain rfl := Option.some.inj called
              exact kept.same rests.streaming.paced (.reset r)
            · rw [if_neg otherTerm] at called
              exact kept.succeeds member index size called

theorem Kept.onInstallSnapshotReturned (kept : Kept r) {success : Bool}
    (called : r.onInstallSnapshotReturned options around success = some after) :
    Kept after ∧ Passes r after := by
  unfold Replicator.onInstallSnapshotReturned at called
  cases isInstalling : r.installSnapshotInFly with
  | none =>
      rw [isInstalling] at called
      contradiction
  | some lastIncludedIndex =>
      rw [isInstalling] at called
      simp only at called
      have installing : r.installSnapshotInFly ≠ none := by
        rw [isInstalling]
        exact Option.some_ne_none _
      obtain ⟨empty, quiet⟩ := kept.installing installing
      have still : ¬ 0 < r.blockTimers + r.blockTimeouts :=
        fun rests => installing (kept.resting rests).2.2
      have noSize : r.flyingAppendEntriesSize = 0 := by
        rw [← kept.size, empty]
        rfl
      have notBlocking : r.st ≠ .blocking := by
        intro blocking
        have one := kept.blocking.mp blocking
        omega
      have minimum : r.minFlyingIndex = r.nextIndex := by
        unfold minFlyingIndex
        omega
      have closed : AtRest { r with reader := false, installSnapshotInFly := none } :=
        { timers := by simp only; omega
          timeouts := by simp only; omega
          noInstall := rfl
          notBlocking := notBlocking
          empty := empty
          noSize := noSize
          positive := minimum ▸ kept.positive
          quiet := quiet }
      by_cases failed : ¬ success
      · rw [if_pos failed] at called
        obtain ⟨paced, same⟩ := keeps_blockFailed _ after closed called
        exact kept.lower paced same.minFlyingIndex.le same.hasSucceeded same.acknowledged
          same.installed
      · rw [if_neg failed] at called
        have moved : AtRest { r with
            reader := false
            installSnapshotInFly := none
            nextIndex := lastIncludedIndex + 1
            installed := lastIncludedIndex :: r.installed
            hasSucceeded := true } :=
          { closed with
            positive := Nat.succ_pos _
            quiet := closed.quiet }
        obtain ⟨ready, sameTimeout⟩ := moved.streaming.timeoutNow
        obtain ⟨paced, sameSent⟩ := ready.sendEntries called
        have same := sameTimeout.trans sameSent
        have isMinimum : after.minFlyingIndex = lastIncludedIndex + 1 := by
          rw [same.minFlyingIndex]
          change lastIncludedIndex + 1 - r.flyingAppendEntriesSize = _
          omega
        have installed : after.installed = lastIncludedIndex :: r.installed := same.installed
        have installs {index : Nat} (below : index ≤ lastIncludedIndex) : after.Installs index := by
          refine ⟨lastIncludedIndex, ?_, below⟩
          rw [installed]
          exact List.mem_cons_self
        refine ⟨{ paced with covered := ?_ }, ?_, ?_⟩
        · exact fun _ index _ below => Or.inr (installs (by omega))
        · exact fun index _ below => Or.inr (installs (by omega))
        · intro _ index _ unknown _ known
          unfold Acknowledges at known
          rw [same.acknowledged] at known
          exact absurd known unknown

/-! ### Timers, waiters and readonly mode -/

theorem Kept.onBlockTimedout (kept : Kept r) (called : r.onBlockTimedout = some after) :
    Kept after ∧ Passes r after := by
  unfold Replicator.onBlockTimedout at called
  have timers := kept.timers
  by_cases none : r.blockTimers = 0
  · rw [if_pos none] at called
    contradiction
  rw [if_neg none, Option.some_inj] at called
  subst called
  refine kept.same ?_ ⟨rfl, rfl, rfl, rfl, rfl⟩
  exact
  { ranges := kept.ranges
    size := kept.size
    positive := kept.positive
    named := kept.named
    probing := kept.probing
    installing := kept.installing
    resting := fun _ => kept.resting (by omega)
    timers := by simp only; omega
    blocking := by simp only [reduceCtorEq, false_iff]; omega }

theorem Kept.continueTimedout (kept : Kept r)
    (called : r.continueTimedout options around = some after) : Kept after ∧ Passes r after := by
  unfold Replicator.continueTimedout at called
  have timers := kept.timers
  by_cases none : r.blockTimeouts = 0
  · rw [if_pos none] at called
    contradiction
  rw [if_neg none] at called
  simp only at called
  obtain ⟨empty, quiet, noInstall⟩ := kept.resting (by omega)
  have noSize : r.flyingAppendEntriesSize = 0 := by
    rw [← kept.size, empty]
    rfl
  have positive := kept.positive
  have rests : AtRest { r with blockTimeouts := r.blockTimeouts - 1 } :=
    { timers := by simp only; omega
      timeouts := by simp only; omega
      noInstall := noInstall
      notBlocking := by
        intro blocking
        have one := kept.blocking.mp blocking
        omega
      empty := empty
      noSize := noSize
      positive := by
        unfold minFlyingIndex at positive
        simp only
        omega
      quiet := quiet }
  by_cases waits : r.waitId ≠ 0
  · rw [if_pos waits, Option.some_inj] at called
    subst called
    exact kept.same rests.streaming.paced ⟨rfl, rfl, rfl, rfl, rfl⟩
  · rw [if_neg waits] at called
    obtain ⟨paced, same⟩ := keeps_sendEmptyEntries _ _ after rests called
    exact kept.lower paced same.minFlyingIndex.le same.hasSucceeded same.acknowledged
      same.installed

theorem Paced.streaming_of_woken (paced : Paced r) (loud : ¬ r.Quiet) (waitId waiters : Nat) :
    Streaming { r with waitId := waitId, waiters := waiters } := by
  have timers := paced.timers
  have still : ¬ 0 < r.blockTimers + r.blockTimeouts := fun rests => loud (paced.resting rests).2.1
  exact
  { ranges := paced.ranges
    size := paced.size
    positive := paced.positive
    named := paced.named
    timers := by simp only; omega
    timeouts := by simp only; omega
    noInstall := by
      by_contra some
      exact loud (paced.installing some).2
    notBlocking := by
      intro blocking
      have one := paced.blocking.mp blocking
      omega
    noProbe := by
      intro rpc member
      by_contra none
      exact loud (paced.probing rpc member (by omega)).2 }

theorem Kept.continueSending (kept : Kept r) {stopped : Bool}
    (called : r.continueSending options around stopped = some after) :
    Kept after ∧ Passes r after := by
  unfold Replicator.continueSending at called
  by_cases none : r.waiters = 0
  · rw [if_pos none] at called
    contradiction
  rw [if_neg none] at called
  simp only at called
  by_cases sends : ¬ stopped ∧ ¬ r.isWaiterCanceled
  · rw [if_pos sends] at called
    have loud : ¬ r.Quiet := by
      rintro (canceled | noWaiter)
      · exact sends.2 canceled
      · exact none noWaiter
    obtain ⟨paced, same⟩ := (kept.toPaced.streaming_of_woken loud 0 (r.waiters - 1)).sendEntries
      called
    exact kept.lower paced same.minFlyingIndex.le same.hasSucceeded same.acknowledged
      same.installed
  · rw [if_neg sends, Option.some_inj] at called
    subst called
    have quieter (quiet : r.Quiet) : Quiet { r with waiters := r.waiters - 1 } := by
      rcases quiet with canceled | noWaiter
      · exact Or.inl canceled
      · exact absurd noWaiter none
    refine kept.same ?_ ⟨rfl, rfl, rfl, rfl, rfl⟩
    exact
    { ranges := kept.ranges
      size := kept.size
      positive := kept.positive
      named := kept.named
      probing := fun rpc member empty =>
        ⟨(kept.probing rpc member empty).1, quieter (kept.probing rpc member empty).2⟩
      installing := fun some => ⟨(kept.installing some).1, quieter (kept.installing some).2⟩
      resting := fun rests => ⟨(kept.resting rests).1, quieter (kept.resting rests).2.1,
        (kept.resting rests).2.2⟩
      timers := kept.timers
      blocking := kept.blocking }

theorem Kept.frame (kept : Kept r) (timeoutNowIndex readonlyIndex : Nat) (destroyed : Bool) :
    Kept { r with
      timeoutNowIndex := timeoutNowIndex
      readonlyIndex := readonlyIndex
      destroyed := destroyed } ∧ Passes r { r with
      timeoutNowIndex := timeoutNowIndex
      readonlyIndex := readonlyIndex
      destroyed := destroyed } := by
  refine kept.same ?_ ⟨rfl, rfl, rfl, rfl, rfl⟩
  exact
  { ranges := kept.ranges
    size := kept.size
    positive := kept.positive
    named := kept.named
    probing := kept.probing
    installing := kept.installing
    resting := kept.resting
    timers := kept.timers
    blocking := kept.blocking }

theorem Kept.changeReadonlyConfig (kept : Kept r) {readonly : Bool}
    (leaves : readonly = false → r.readonlyIndex = 0 ∨
      Clear r ∧ ∀ rpc ∈ r.appendEntriesInFly, 0 < rpc.entriesSize) :
    Kept (r.changeReadonlyConfig around readonly) ∧
      Passes r (r.changeReadonlyConfig around readonly) := by
  unfold Replicator.changeReadonlyConfig
  by_cases already : readonly = decide (r.readonlyIndex ≠ 0)
  · rw [if_pos already]
    exact kept.same kept.toPaced (.refl _)
  rw [if_neg already]
  by_cases enters : readonly = true
  · rw [if_pos enters]
    exact kept.frame _ _ _
  rw [if_neg enters]
  have isFalse : readonly = false := Bool.eq_false_iff.mpr enters
  have isReadonly : r.readonlyIndex ≠ 0 := by
    intro none
    rw [isFalse, none] at already
    exact already rfl
  obtain ⟨clear, noProbe⟩ := (leaves isFalse).resolve_left isReadonly
  have timers := clear.timers
  have streaming : Streaming { r with readonlyIndex := 0 } :=
    { ranges := kept.ranges
      size := kept.size
      positive := kept.positive
      named := kept.named
      timers := clear.timers
      timeouts := clear.timeouts
      noInstall := clear.noInstall
      notBlocking := by
        intro blocking
        have one := kept.blocking.mp blocking
        omega
      noProbe := noProbe }
  obtain ⟨paced, same⟩ := streaming.waitMoreEntries around
  exact kept.lower paced same.minFlyingIndex.le same.hasSucceeded same.acknowledged same.installed

theorem Kept.step {action : Action P D C} (kept : Kept r) (leaves : LeavesReadonly action r)
    (stepped : step options action r = some after) : Kept after ∧ Passes r after := by
  unfold Replicator.step at stepped
  by_cases gone : r.destroyed
  · rw [if_pos gone, Option.some_inj] at stepped
    subst stepped
    exact kept.same kept.toPaced (.refl _)
  rw [if_neg gone] at stepped
  cases action with
  | onRpcReturned around callId answer => exact kept.onRpcReturned stepped
  | onInstallSnapshotReturned around success => exact kept.onInstallSnapshotReturned stepped
  | onBlockTimedout => exact kept.onBlockTimedout stepped
  | continueTimedout around => exact kept.continueTimedout stepped
  | continueSending around stopped => exact kept.continueSending stepped
  | changeReadonlyConfig around readonly =>
      obtain rfl := Option.some.inj stepped
      refine kept.changeReadonlyConfig ?_
      rintro rfl
      exact leaves
  | sendHeartbeat around =>
      obtain ⟨_, _, rfl⟩ := Option.map_eq_some_iff.mp stepped
      exact kept.same kept.toPaced (.refl _)
  | transferLeadership logIndex =>
      obtain rfl := Option.some.inj stepped
      unfold Replicator.transferLeadership
      split
      · exact kept.frame _ _ _
      · exact kept.frame _ _ _
  | stopTransferLeadership =>
      obtain rfl := Option.some.inj stepped
      exact kept.frame _ _ _
  | destroy =>
      obtain rfl := Option.some.inj stepped
      exact kept.frame _ _ _

theorem Started.kept (started : Started options C r) : Kept r := by
  obtain ⟨around, called⟩ := started
  have rests : AtRest ({ nextIndex := around.logManager.lastLogIndex + 1 } : Replicator P D) :=
    { timers := rfl
      timeouts := rfl
      noInstall := rfl
      notBlocking := nofun
      empty := rfl
      noSize := rfl
      positive := Nat.succ_pos _
      quiet := Or.inr rfl }
  obtain ⟨paced, same⟩ := keeps_sendEmptyEntries _ _ r rests called
  refine { paced with covered := ?_ }
  intro succeeded
  rw [same.hasSucceeded] at succeeded
  contradiction

theorem kept_of_reachable
    (reached : ((system options C).restrict LeavesReadonly).Reachable r) : Kept r := by
  induction reached with
  | start initial => exact Started.kept initial
  | next _ allowed stepped ih => exact (ih.step allowed.2 stepped).1

/-- In every run the queue is kept, and what the follower is found to have is committed, once
something has succeeded. -/
theorem bookkeeping (reached : ((system options C).restrict LeavesReadonly).Reachable r) :
    InFlight r ∧ ∀ (action : Action P D C) after, LeavesReadonly action r →
      step options action r = some after → Passes r after := by
  have kept := kept_of_reachable reached
  exact ⟨kept.inFlight, fun action after leaves stepped => (kept.step leaves stepped).2⟩

/-! ### Before a success, and behind an empty request -/

def exampleOptions : ReplicatorOptions Nat Nat := { serverId := 1, term := 1, noData := 0 }

/-- A log with this many entries of term 1, and two requests in parallel. -/
def exampleLog (count : Nat) : ReplicatorSurroundings Nat Nat Nat :=
  { logManager := LogManager.init
      { first := 1
        entries := (List.range count).map (fun position =>
          { type := .data, id := { index := position + 1, term := 1 }, data := 0 }) }
      .init (fun _ => 1)
    maxEntriesSize := 4
    maxParallelAppendEntriesRpcNum := 2 }

def answered : RpcAnswer := .returned { success := true, term := 1 }

def startedReplicator : Replicator Nat Nat :=
  ({ nextIndex := 2 } : Replicator Nat Nat).push (request exampleOptions (exampleLog 1) (1, 1) [])

theorem startedReplicator_started : Started exampleOptions Nat startedReplicator :=
  ⟨exampleLog 1, rfl⟩

def exampleRequests : List (AppendEntriesRequest Nat Nat) :=
  [request exampleOptions (exampleLog 1) (1, 1) [],
    request exampleOptions (exampleLog 2) (1, 1) [{ term := 1, type := .data, data := 0 }]]

def streamingReplicator : Replicator Nat Nat :=
  { nextIndex := 3
    flyingAppendEntriesSize := 1
    hasSucceeded := true
    st := .appendingEntries
    appendEntriesInFly := [{ logIndex := 2, entriesSize := 1, callId := 1 }]
    waitId := 1
    sent := exampleRequests
    waiters := 1
    lastWaitId := 1
    acknowledged := [1] }

theorem streamingReplicator_reachable :
    ((system exampleOptions Nat).restrict LeavesReadonly).Reachable streamingReplicator := by
  have follows : ((system exampleOptions Nat).restrict LeavesReadonly).Follows
      [.onRpcReturned (exampleLog 2) 0 answered] startedReplicator streamingReplicator := by
    exact ⟨⟨trivial, trivial⟩, _, rfl, rfl⟩
  exact .follows _ (.start startedReplicator_started) follows

/-- The second entry has been sent behind the empty request, and was taken from the queue with
it. -/
def skippedReplicator : Replicator Nat Nat :=
  { nextIndex := 3
    hasSucceeded := true
    st := .idle
    waitId := 2
    sent := exampleRequests
    waiters := 1
    lastWaitId := 2
    acknowledged := [1] }

/-- The follower leaves its readonly mode before the empty request is answered; the answer to
the second entry finds no request. -/
theorem skippedReplicator_reachable :
    (system exampleOptions Nat).Reachable skippedReplicator := by
  have follows : (system exampleOptions Nat).Follows
      [.changeReadonlyConfig (exampleLog 1) true, .changeReadonlyConfig (exampleLog 1) false,
        .continueSending (exampleLog 2) false, .onRpcReturned (exampleLog 2) 0 answered,
        .onRpcReturned (exampleLog 2) 1 answered]
      startedReplicator skippedReplicator := by
    exact ⟨trivial, _, rfl, trivial, _, rfl, trivial, _, rfl, trivial, _, rfl, trivial, _, rfl, rfl⟩
  exact .follows _ (.start startedReplicator_started) follows

def exampleSnapshot : ReplicatorSurroundings Nat Nat Nat :=
  { logManager := LogManager.init { first := 6, entries := [] } .init (fun _ => 1)
    attempts := [{ snapshot := .found 5 }] }

def strayReplicator : Replicator Nat Nat :=
  { nextIndex := 6
    flyingAppendEntriesSize := 2
    hasSucceeded := true
    st := .installingSnapshot
    appendEntriesInFly := [{ logIndex := 2, entriesSize := 1, callId := 1 },
      { logIndex := 3, entriesSize := 1, callId := 2 }]
    sent := exampleRequests ++
      [request exampleOptions (exampleLog 3) (2, 1) [{ term := 1, type := .data, data := 0 }]]
    lastWaitId := 2
    installed := [5] }

/-- The follower leaves its readonly mode while a timer of `_block` is running: the timer finds
entries in flight, and the log compacted. -/
theorem strayReplicator_reachable : (system exampleOptions Nat).Reachable strayReplicator := by
  have follows : (system exampleOptions Nat).Follows
      [.onRpcReturned (exampleLog 1) 0 .failed, .changeReadonlyConfig (exampleLog 1) true,
        .changeReadonlyConfig (exampleLog 1) false, .continueSending (exampleLog 2) false,
        .continueSending (exampleLog 3) false, .onBlockTimedout,
        .continueTimedout exampleSnapshot, .onInstallSnapshotReturned (exampleLog 5) true]
      startedReplicator strayReplicator := by
    exact ⟨trivial, _, rfl, trivial, _, rfl, trivial, _, rfl, trivial, _, rfl, trivial, _, rfl,
      trivial, _, rfl, trivial, _, rfl, trivial, _, rfl, rfl⟩
  exact .follows _ (.start startedReplicator_started) follows

/-- Before the first success the next index is a guess.  A follower that leaves its readonly
mode lets entries be sent behind an empty request, which are then taken for acknowledged and
never committed, and a snapshot be installed while entries are in flight. -/
theorem bookkeeping_guesses :
    (∃ r : Replicator Nat Nat, (system exampleOptions Nat).Reachable r ∧ 1 < r.minFlyingIndex ∧
      ¬ r.Acknowledges 1 ∧ ¬ r.Installs 1) ∧
    (∃ r : Replicator Nat Nat, (system exampleOptions Nat).Reachable r ∧ r.hasSucceeded = true ∧
      2 < r.minFlyingIndex ∧ ¬ r.Acknowledges 2 ∧ ¬ r.Installs 2 ∧ ¬ r.Commits 2) ∧
    ∃ r : Replicator Nat Nat, (system exampleOptions Nat).Reachable r ∧
      ¬ RangesFrom r.minFlyingIndex r.appendEntriesInFly r.nextIndex := by
  refine ⟨?_, ?_, ?_⟩
  · refine ⟨startedReplicator, .start startedReplicator_started, by decide, ?_, ?_⟩
    · rintro ⟨last, isLast, _⟩
      exact absurd isLast List.not_mem_nil
    · rintro ⟨last, isLast, _⟩
      exact absurd isLast List.not_mem_nil
  · refine ⟨skippedReplicator, skippedReplicator_reachable, rfl, by decide, ?_, ?_, ?_⟩
    · rintro ⟨last, isLast, below⟩
      obtain rfl := List.mem_singleton.mp isLast
      exact absurd below (by decide)
    · rintro ⟨last, isLast, _⟩
      exact absurd isLast List.not_mem_nil
    · rintro ⟨range, isRange, _⟩
      exact absurd isRange List.not_mem_nil
  · refine ⟨strayReplicator, strayReplicator_reachable, ?_⟩
    intro ranges
    exact absurd ranges.1 (by decide)

/-- The answer to the second entry passes it to `commit_at`. -/
theorem bookkeeping_streaming :
    InFlight streamingReplicator ∧ ∃ after,
      step exampleOptions (.onRpcReturned (exampleLog 2) 1 answered) streamingReplicator =
        some after ∧ Passes streamingReplicator after := by
  obtain ⟨inFlight, passes⟩ := bookkeeping streamingReplicator_reachable
  exact ⟨inFlight, _, rfl, passes (.onRpcReturned (exampleLog 2) 1 answered) _ trivial rfl⟩

end Replicator

end QuorumKit
