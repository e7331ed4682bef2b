/-
The waiter of a replicator in the log manager.

The replicator is here together with the waiters of the log manager, its own and those of
others.  `_wait_id` is the id of its waiter, and `_is_waiter_canceled` says that the last wait
was cancelled; the next wait takes the flag back.  A waiter that has been woken calls
`_continue_sending` in its own time, and finds the flag as it is by then.
-/

import QuorumKit.LogManager.WaitMap
import QuorumKit.Replicator.Bookkeeping
import QuorumKit.Replicator.Indifference

namespace QuorumKit

/-! ### State -/

/-- A waiter of the replicator, with the number of its waits before this one, or another's. -/
inductive Waiter where
  | own (ticket : Nat)
  | other
deriving DecidableEq, Repr

structure WaitSurroundings (P D C : Type) extends ReplicatorSurroundings P D C where
  lastLogIndexAtWait : Nat

/-- `waited` counts the calls of `wait`, and `canceled` those before the last call of
`_reset_next_index`. -/
structure WaitingReplicator (P D : Type) where
  replicator : Replicator P D
  waits : WaitMap Waiter := {}
  waited : Nat := 0
  canceled : Nat := 0

namespace WaitingReplicator

variable {P D C : Type}

/-! ### The code -/

def lift (call : Replicator P D → Option (Replicator P D)) (w : WaitingReplicator P D) :
    Option (WaitingReplicator P D) :=
  (call w.replicator).map (fun replicator => { w with replicator := replicator })

def resetNextIndex (w : WaitingReplicator P D) : WaitingReplicator P D :=
  { w with
    replicator := w.replicator.resetNextIndex
    waits :=
      if w.replicator.waitId ≠ 0 then w.waits.removeWaiter w.replicator.waitId else w.waits
    canceled := w.waited }

def idle (w : WaitingReplicator P D) : WaitingReplicator P D :=
  if w.replicator.flyingAppendEntriesSize = 0 then
    { w with replicator := { w.replicator with st := .idle } }
  else w

/-- The call of `wait`. -/
def wait (lastLogIndex : Nat) (w : WaitingReplicator P D) : WaitingReplicator P D :=
  let (waitId, waits) :=
    w.waits.notifyOnNewLog (w.replicator.nextIndex - 1) lastLogIndex (.own w.waited)
  { w with
    replicator := { w.replicator with waitId := waitId, isWaiterCanceled := false }
    waits := waits
    waited := w.waited + 1 }

def waitMoreEntries (around : WaitSurroundings P D C) (w : WaitingReplicator P D) :
    WaitingReplicator P D :=
  if w.replicator.waitId = 0 ∧ w.replicator.flyingAppendEntriesSize < around.maxEntriesSize ∧
      w.replicator.appendEntriesInFly.length < around.maxParallelAppendEntriesRpcNum then
    (w.wait around.lastLogIndexAtWait).idle
  else w.idle

def sendEntries (options : ReplicatorOptions P D) (around : WaitSurroundings P D C)
    (w : WaitingReplicator P D) : Option (WaitingReplicator P D) :=
  let r := w.replicator
  let manager := around.logManager
  let startInstall := lift (Replicator.startInstall options around.toReplicatorSurroundings)
  if around.maxEntriesSize ≤ r.flyingAppendEntriesSize ∨
      around.maxParallelAppendEntriesRpcNum ≤ r.appendEntriesInFly.length ∨
      r.st = .blocking then
    some w
  else
    match Replicator.fillCommonFields manager (r.nextIndex - 1) false with
    | none => none
    | some none => startInstall w.resetNextIndex
    | some (some prevLog) =>
        match Replicator.prepareEntries options around.toReplicatorSurroundings
            (around.maxEntriesSize - r.flyingAppendEntriesSize) 0 0 r with
        | none => none
        | some ([], errorCode, prepared) =>
            let ready := { w with replicator := prepared }
            if prepared.nextIndex < manager.firstLogIndex then startInstall ready.resetNextIndex
            else if errorCode = EREADONLY then some ready.idle
            else some (ready.waitMoreEntries around)
        | some (entryMeta :: entries, _, prepared) =>
            let pushed := prepared.push (Replicator.request options around.toReplicatorSurroundings
              prevLog (entryMeta :: entries))
            some (waitMoreEntries around { w with replicator := pushed })

def onRpcReturned (options : ReplicatorOptions P D) (around : WaitSurroundings P D C) (callId : Nat)
    (answer : Replicator.RpcAnswer) (w : WaitingReplicator P D) : Option (WaitingReplicator P D) :=
  let r := w.replicator
  let surroundings := around.toReplicatorSurroundings
  match r.sent[callId]? with
  | none => none
  | some request =>
      if r.minFlyingIndex = 0 then none
      else if ¬ r.isValidRpc callId (request.prevLogIndex + 1) then some w
      else
        match answer with
        | .failed => lift (Replicator.blockFailed options surroundings) w.resetNextIndex
        | .returned response =>
            if ¬ response.success then
              let reset := w.resetNextIndex
              if options.term < response.term then
                some { reset with replicator := { reset.replicator with destroyed := true } }
              else
                lift (Replicator.sendEmptyEntries options surroundings around.attempts)
                  { reset with
                    replicator :=
                      { reset.replicator with
                        nextIndex := Replicator.indexAfterMismatch response.lastLogIndex
                          reset.replicator.nextIndex } }
            else if response.term ≠ options.term then some w.resetNextIndex
            else
              sendEntries options around { w with replicator := (r.succeed request).timeoutNow }

def onInstallSnapshotReturned (options : ReplicatorOptions P D) (around : WaitSurroundings P D C)
    (success : Bool) (w : WaitingReplicator P D) : Option (WaitingReplicator P D) :=
  match w.replicator.installSnapshotInFly with
  | none => none
  | some lastIncludedIndex =>
      let closed : Replicator P D :=
        { w.replicator with reader := false, installSnapshotInFly := none }
      if ¬ success then
        lift (Replicator.blockFailed options around.toReplicatorSurroundings)
          { w with replicator := closed }
      else
        let installed : Replicator P D :=
          { closed with
            nextIndex := lastIncludedIndex + 1
            installed := lastIncludedIndex :: closed.installed
            hasSucceeded := true }
        sendEntries options around { w with replicator := installed.timeoutNow }

/-- `_continue_sending` from a thread of the log manager. -/
def continueSending (options : ReplicatorOptions P D) (around : WaitSurroundings P D C)
    (errorCode : Int) (w : WaitingReplicator P D) : Option (WaitingReplicator P D) :=
  if w.replicator.destroyed then some w
  else if errorCode ≠ ESTOP ∧ ¬ w.replicator.isWaiterCanceled then
    sendEntries options around { w with replicator := { w.replicator with waitId := 0 } }
  else some w

/-- The thread of a waiter runs; those of others do nothing here. -/
def runOnNewLog (options : ReplicatorOptions P D) (around : WaitSurroundings P D C)
    (index : Nat) (w : WaitingReplicator P D) : Option (WaitingReplicator P D) :=
  match w.waits.started[index]? with
  | none => none
  | some (.other, _) => some { w with waits := w.waits.runOnNewLog index }
  | some (.own _, errorCode) =>
      continueSending options around errorCode { w with waits := w.waits.runOnNewLog index }

def changeReadonlyConfig (around : WaitSurroundings P D C) (readonly : Bool)
    (w : WaitingReplicator P D) : WaitingReplicator P D :=
  let r := w.replicator
  if readonly = decide (r.readonlyIndex ≠ 0) then w
  else if readonly then
    { w with replicator := { r with readonlyIndex := around.logManager.lastLogIndex + 1 } }
  else waitMoreEntries around { w with replicator := { r with readonlyIndex := 0 } }

/-- `_on_error` with `ESTOP`. -/
def stop (w : WaitingReplicator P D) : WaitingReplicator P D :=
  { w with
    replicator :=
      { w.replicator with appendEntriesInFly := [], waitId := 0, destroyed := true }
    waits := w.waits.removeWaiter w.replicator.waitId }

/-- The calls that lock the id of the replicator.  `destroy` is a heartbeat that is answered
with a higher term. -/
inductive Call (P D C : Type) where
  | onRpcReturned (around : WaitSurroundings P D C) (callId : Nat) (answer : Replicator.RpcAnswer)
  | onInstallSnapshotReturned (around : WaitSurroundings P D C) (success : Bool)
  | onBlockTimedout
  | continueTimedout (around : WaitSurroundings P D C)
  | changeReadonlyConfig (around : WaitSurroundings P D C) (readonly : Bool)
  | transferLeadership (logIndex : Nat)
  | stopTransferLeadership
  | destroy
  | stop

def call (options : ReplicatorOptions P D) (w : WaitingReplicator P D) :
    Call P D C → Option (WaitingReplicator P D)
  | .onRpcReturned around callId answer => w.onRpcReturned options around callId answer
  | .onInstallSnapshotReturned around success => w.onInstallSnapshotReturned options around success
  | .onBlockTimedout => w.lift Replicator.onBlockTimedout
  | .continueTimedout around =>
      w.lift (Replicator.continueTimedout options around.toReplicatorSurroundings)
  | .changeReadonlyConfig around readonly => some (w.changeReadonlyConfig around readonly)
  | .transferLeadership logIndex =>
      some { w with replicator := w.replicator.transferLeadership logIndex }
  | .stopTransferLeadership =>
      some { w with replicator := { w.replicator with timeoutNowIndex := 0 } }
  | .destroy => some { w with replicator := { w.replicator with destroyed := true } }
  | .stop => some w.stop

/-- `wakeupAllWaiter` follows every append.  Others share the log manager: `otherWaits` and
`otherRemoves` are their calls. -/
inductive Action (P D C : Type) where
  | call (made : Call P D C)
  | runOnNewLog (around : WaitSurroundings P D C) (index : Nat)
  | wakeupAllWaiter
  | shutdown
  | otherWaits (expectedLastLogIndex lastLogIndex : Nat)
  | otherRemoves (id : Nat)

def step (options : ReplicatorOptions P D) (action : Action P D C) (w : WaitingReplicator P D) :
    Option (WaitingReplicator P D) :=
  match action with
  | .call made => if w.replicator.destroyed then some w else w.call options made
  | .runOnNewLog around index => w.runOnNewLog options around index
  | .wakeupAllWaiter => some { w with waits := w.waits.wakeupAllWaiter }
  | .shutdown => some { w with waits := w.waits.shutdown }
  | .otherWaits expectedLastLogIndex lastLogIndex =>
      some { w with
        waits := (w.waits.notifyOnNewLog expectedLastLogIndex lastLogIndex .other).2 }
  | .otherRemoves id => some { w with waits := w.waits.removeWaiter id }

/-- A replicator that has been started, in a log manager with other waiters only. -/
def Started (options : ReplicatorOptions P D) (C : Type) (w : WaitingReplicator P D) : Prop :=
  Replicator.Started options C w.replicator ∧ w.replicator.waitId = 0 ∧
    w.replicator.isWaiterCanceled = false ∧ w.waited = 0 ∧ w.canceled = 0 ∧
    (∀ entry ∈ w.waits.waitMap, entry.2 = .other) ∧ ∀ thread ∈ w.waits.started, thread.1 = .other

def system (options : ReplicatorOptions P D) (C : Type) :
    TransitionSystem (WaitingReplicator P D) (Action P D C) :=
  { init := Started options C, allowed := fun _ _ => True, step := step options }

def ownEntry : Nat × Waiter → Option (Nat × Nat)
  | (id, .own ticket) => some (id, ticket)
  | (_, .other) => none

def registered (w : WaitingReplicator P D) : List (Nat × Nat) :=
  w.waits.waitMap.filterMap ownEntry

/-- At most one waiter is registered, and then `_wait_id` is its id. -/
def OneWaiter (w : WaitingReplicator P D) : Prop :=
  w.registered = [] ∨
    ∃ ticket, w.registered = [(w.replicator.waitId, ticket)] ∧ w.replicator.waitId ≠ 0

/-- A wake-up of a cancelled wait runs before the replicator waits again, and any other wake-up
while no waiter of the replicator is registered. -/
def RunsInTime (w : WaitingReplicator P D) (index : Nat) : Prop :=
  ∀ ticket errorCode, w.waits.started[index]? = some (.own ticket, errorCode) →
    w.replicator.destroyed = true ∨ errorCode = ESTOP ∨
      ticket < w.canceled ∧ w.waited = w.canceled ∨
      w.canceled ≤ ticket ∧ w.registered = []

/-- The wake-ups run in time, the next id is free, and others remove their own waiters. -/
def Timely (action : Action P D C) (w : WaitingReplicator P D) : Prop :=
  match action with
  | .call _ => w.waits.NextIdFree
  | .runOnNewLog _ index => w.RunsInTime index ∧ w.waits.NextIdFree
  | .otherWaits _ _ => w.waits.NextIdFree
  | .otherRemoves id => ∀ ticket, (id, ticket) ∉ w.registered
  | .wakeupAllWaiter => True
  | .shutdown => True

def Woken (w : WaitingReplicator P D) (ticket : Nat) : Prop :=
  ∃ errorCode, (Waiter.own ticket, errorCode) ∈ w.waits.started

structure Sound (w : WaitingReplicator P D) : Prop where
  one : OneWaiter w
  counted : w.canceled ≤ w.waited
  flag : w.waited = w.canceled → w.waited = 0 ∨ w.replicator.isWaiterCanceled = true
  latest : ∀ id ticket, (id, ticket) ∈ w.registered → ticket + 1 = w.waited
  fresh : ∀ ticket, w.Woken ticket → ticket < w.waited
  apart : ∀ id ticket, (id, ticket) ∈ w.registered → ¬ w.Woken ticket

variable {w after : WaitingReplicator P D} {options : ReplicatorOptions P D}

/-! ### Waiters -/

theorem filterMap_own (key ticket : Nat) (rest : List (Nat × Waiter)) :
    ((key, Waiter.own ticket) :: rest).filterMap ownEntry =
      (key, ticket) :: rest.filterMap ownEntry := rfl

theorem filterMap_other (key : Nat) (rest : List (Nat × Waiter)) :
    ((key, Waiter.other) :: rest).filterMap ownEntry = rest.filterMap ownEntry := rfl

theorem registered_removeWaiter (w : WaitingReplicator P D) (id : Nat) :
    registered { w with waits := w.waits.removeWaiter id } =
      w.registered.filter (fun entry => entry.1 ≠ id) := by
  unfold registered
  change (w.waits.waitMap.filter _).filterMap ownEntry = _
  induction w.waits.waitMap with
  | nil => rfl
  | cons entry rest ih =>
      cases entry with
      | mk key waiter =>
          cases waiter with
          | own ticket =>
              rw [filterMap_own]
              by_cases same : key = id
              · rw [List.filter_cons_of_neg (by simp [same]), ih,
                  List.filter_cons_of_neg (by simp [same])]
              · rw [List.filter_cons_of_pos (by simp [same]), filterMap_own, ih,
                  List.filter_cons_of_pos (by simp [same])]
          | other =>
              rw [filterMap_other]
              by_cases same : key = id
              · rw [List.filter_cons_of_neg (by simp [same]), ih]
              · rw [List.filter_cons_of_pos (by simp [same]), filterMap_other, ih]

theorem OneWaiter.noneRegistered (one : OneWaiter w) (noWait : w.replicator.waitId = 0) :
    w.registered = [] := by
  rcases one with noneLeft | ⟨ticket, _, isWaiting⟩
  · exact noneLeft
  · exact absurd noWait isWaiting

theorem OneWaiter.resetNextIndex (one : OneWaiter w) : w.resetNextIndex.registered = [] := by
  by_cases waiting : w.replicator.waitId ≠ 0
  · have removed := registered_removeWaiter w w.replicator.waitId
    have same : w.resetNextIndex.registered =
        w.registered.filter (fun entry => entry.1 ≠ w.replicator.waitId) := by
      rw [← removed]
      unfold WaitingReplicator.resetNextIndex
      rw [if_pos waiting]
      rfl
    rw [same]
    rcases one with noneLeft | ⟨ticket, only, _⟩
    · rw [noneLeft]
      rfl
    · rw [only]
      simp
  · have same : w.resetNextIndex.registered = w.registered := by
      unfold WaitingReplicator.resetNextIndex
      rw [if_neg waiting]
      rfl
    rw [same]
    exact one.noneRegistered (not_not.mp waiting)

theorem Sound.resetNextIndex (sound : Sound w) : Sound w.resetNextIndex := by
  have noneLeft := sound.one.resetNextIndex
  have started : w.resetNextIndex.waits.started = w.waits.started := by
    unfold WaitingReplicator.resetNextIndex
    by_cases waiting : w.replicator.waitId ≠ 0
    · rw [if_pos waiting]
      rfl
    · rw [if_neg waiting]
  constructor
  · exact Or.inl noneLeft
  · exact le_refl w.waited
  · exact fun _ => Or.inr rfl
  · intro id ticket member
    rw [noneLeft] at member
    cases member
  · intro ticket woken
    unfold Woken at woken
    rw [started] at woken
    exact sound.fresh ticket woken
  · intro id ticket member
    rw [noneLeft] at member
    cases member

theorem Sound.keep (sound : Sound w) {r : Replicator P D} (waitId : r.waitId = w.replicator.waitId)
    (flag : r.isWaiterCanceled = w.replicator.isWaiterCanceled) :
    Sound { w with replicator := r } := by
  constructor
  · unfold OneWaiter
    change w.registered = [] ∨ ∃ ticket, w.registered = [(r.waitId, ticket)] ∧ r.waitId ≠ 0
    rw [waitId]
    exact sound.one
  · exact sound.counted
  · change _ → _ ∨ r.isWaiterCanceled = true
    rw [flag]
    exact sound.flag
  · exact sound.latest
  · exact sound.fresh
  · exact sound.apart

theorem Sound.idle (sound : Sound w) : Sound w.idle := by
  unfold WaitingReplicator.idle
  split_ifs with quiet
  · exact sound.keep rfl rfl
  · exact sound

theorem Sound.wait (sound : Sound w) (noWait : w.replicator.waitId = 0)
    (free : w.waits.NextIdFree) (lastLogIndex : Nat) : Sound (w.wait lastLogIndex) := by
  have noneLeft := sound.one.noneRegistered noWait
  have counted := sound.counted
  unfold WaitingReplicator.wait WaitMap.notifyOnNewLog
  by_cases atOnce : w.replicator.nextIndex - 1 ≠ lastLogIndex ∨ w.waits.stopped
  · rw [if_pos atOnce]
    constructor
    · exact Or.inl noneLeft
    · exact Nat.le_succ_of_le counted
    · intro same
      change w.waited + 1 = w.canceled at same
      omega
    · intro id ticket member
      change (id, ticket) ∈ w.registered at member
      rw [noneLeft] at member
      cases member
    · intro ticket woken
      change ticket < w.waited + 1
      cases woken with
      | intro errorCode member =>
          rcases List.mem_append.mp member with earlier | last
          · have before := sound.fresh ticket ⟨errorCode, earlier⟩
            omega
          · cases List.mem_singleton.mp last
            exact Nat.lt_succ_self _
    · intro id ticket member
      change (id, ticket) ∈ w.registered at member
      rw [noneLeft] at member
      cases member
  · have only : registered
        { w with
          replicator := { w.replicator with waitId := w.waits.waitId, isWaiterCanceled := false }
          waits :=
            { w.waits with
              nextWaitId := w.waits.counted + 1
              waitMap := WaitMap.insert w.waits.waitId (.own w.waited) w.waits.waitMap }
          waited := w.waited + 1 } = [(w.waits.waitId, w.waited)] := by
      unfold registered
      change (WaitMap.insert _ _ _).filterMap ownEntry = _
      rw [WaitMap.insert_free _ free.2, filterMap_own]
      exact congrArg _ noneLeft
    rw [if_neg atOnce]
    constructor
    · exact Or.inr ⟨w.waited, only, free.1⟩
    · exact Nat.le_succ_of_le counted
    · intro same
      change w.waited + 1 = w.canceled at same
      omega
    · intro id ticket member
      rw [only] at member
      cases List.mem_singleton.mp member
      rfl
    · intro ticket woken
      exact Nat.lt_succ_of_lt (sound.fresh ticket woken)
    · intro id ticket member woken
      rw [only] at member
      cases List.mem_singleton.mp member
      exact absurd (sound.fresh w.waited woken) (lt_irrefl _)

theorem Sound.waitMoreEntries {around : WaitSurroundings P D C} (sound : Sound w)
    (free : w.waits.NextIdFree) : Sound (w.waitMoreEntries around) := by
  unfold WaitingReplicator.waitMoreEntries
  split_ifs with waits
  · exact (sound.wait waits.1 free around.lastLogIndexAtWait).idle
  · exact sound.idle

def waiter (r : Replicator P D) : Nat × Bool := (r.waitId, r.isWaiterCanceled)

theorem waiter_indifferent : Replicator.Indifferent (waiter : Replicator P D → _) :=
  ⟨fun _ _ _ => rfl, fun _ _ _ _ => rfl, fun _ _ => rfl⟩

theorem Sound.lift (sound : Sound w) {call : Replicator P D → Option (Replicator P D)}
    (keeps : Replicator.Preserves waiter call) (called : lift call w = some after) :
    Sound after := by
  unfold WaitingReplicator.lift at called
  cases result : call w.replicator with
  | none =>
      rw [result] at called
      cases called
  | some r =>
      rw [result] at called
      cases called
      have same := keeps w.replicator r result
      exact sound.keep (congrArg Prod.fst same) (congrArg Prod.snd same)

/-! ### Steps -/

variable {around : WaitSurroundings P D C} {surroundings : ReplicatorSurroundings P D C}

theorem Sound.sendEntries (sound : Sound w) (free : w.waits.NextIdFree)
    (sent : w.sendEntries options around = some after) : Sound after := by
  unfold WaitingReplicator.sendEntries at sent
  simp only at sent
  by_cases skips : around.maxEntriesSize ≤ w.replicator.flyingAppendEntriesSize ∨
      around.maxParallelAppendEntriesRpcNum ≤ w.replicator.appendEntriesInFly.length ∨
      w.replicator.st = .blocking
  · rw [if_pos skips] at sent
    cases sent
    exact sound
  rw [if_neg skips] at sent
  cases filled : Replicator.fillCommonFields around.logManager (w.replicator.nextIndex - 1) false with
  | none =>
      rw [filled] at sent
      cases sent
  | some outcome =>
      rw [filled] at sent
      cases outcome with
      | none =>
          exact sound.resetNextIndex.lift (Replicator.preserves_startInstall waiter_indifferent)
            sent
      | some prevLog =>
          simp only at sent
          cases isPrepared : Replicator.prepareEntries options around.toReplicatorSurroundings
              (around.maxEntriesSize - w.replicator.flyingAppendEntriesSize) 0 0 w.replicator with
          | none =>
              rw [isPrepared] at sent
              cases sent
          | some result =>
              rw [isPrepared] at sent
              obtain ⟨entries, errorCode, prepared⟩ := result
              obtain ⟨readonlyIndex, rfl⟩ :=
                Replicator.prepareEntries_same _ _ _ _ isPrepared
              have ready : Sound
                  { w with replicator := { w.replicator with readonlyIndex := readonlyIndex } } :=
                sound.keep rfl rfl
              cases entries with
              | nil =>
                  simp only at sent
                  split_ifs at sent with below readonly
                  · exact ready.resetNextIndex.lift
                      (Replicator.preserves_startInstall waiter_indifferent) sent
                  · cases sent
                    exact ready.idle
                  · cases sent
                    exact ready.waitMoreEntries free
              | cons entryMeta entries =>
                  cases sent
                  refine Sound.waitMoreEntries ?_ free
                  exact sound.keep rfl rfl

theorem timeoutNow_waiter (r : Replicator P D) :
    r.timeoutNow.waitId = r.waitId ∧ r.timeoutNow.isWaiterCanceled = r.isWaiterCanceled := by
  unfold Replicator.timeoutNow
  split_ifs
  · exact ⟨rfl, rfl⟩
  · exact ⟨rfl, rfl⟩

theorem Sound.onRpcReturned {callId : Nat} {answer : Replicator.RpcAnswer} (sound : Sound w)
    (free : w.waits.NextIdFree)
    (stepped : w.onRpcReturned options around callId answer = some after) : Sound after := by
  unfold WaitingReplicator.onRpcReturned at stepped
  simp only at stepped
  cases found : w.replicator.sent[callId]? with
  | none =>
      rw [found] at stepped
      cases stepped
  | some request =>
      rw [found] at stepped
      simp only at stepped
      by_cases zero : w.replicator.minFlyingIndex = 0
      · rw [if_pos zero] at stepped
        cases stepped
      rw [if_neg zero] at stepped
      by_cases invalid : ¬ w.replicator.isValidRpc callId (request.prevLogIndex + 1) = true
      · rw [if_pos invalid] at stepped
        cases stepped
        exact sound
      rw [if_neg invalid] at stepped
      cases answer with
      | failed =>
          exact sound.resetNextIndex.lift (Replicator.preserves_blockFailed waiter_indifferent)
            stepped
      | returned response =>
          simp only at stepped
          by_cases rejected : ¬ response.success = true
          · rw [if_pos rejected] at stepped
            by_cases higher : options.term < response.term
            · rw [if_pos higher] at stepped
              cases stepped
              exact sound.resetNextIndex.keep rfl rfl
            · rw [if_neg higher] at stepped
              refine Sound.lift ?_
                (Replicator.preserves_sendEmptyEntries waiter_indifferent around.attempts) stepped
              exact sound.resetNextIndex.keep rfl rfl
          rw [if_neg rejected] at stepped
          by_cases otherTerm : response.term ≠ options.term
          · rw [if_pos otherTerm] at stepped
            cases stepped
            exact sound.resetNextIndex
          · rw [if_neg otherTerm] at stepped
            have same := timeoutNow_waiter (w.replicator.succeed request)
            exact Sound.sendEntries (sound.keep same.1 same.2) free stepped

theorem Sound.onInstallSnapshotReturned {success : Bool} (sound : Sound w)
    (free : w.waits.NextIdFree)
    (stepped : w.onInstallSnapshotReturned options around success = some after) : Sound after := by
  unfold WaitingReplicator.onInstallSnapshotReturned at stepped
  cases inFly : w.replicator.installSnapshotInFly with
  | none =>
      rw [inFly] at stepped
      cases stepped
  | some lastIncludedIndex =>
      rw [inFly] at stepped
      simp only at stepped
      by_cases failed : ¬ success = true
      · rw [if_pos failed] at stepped
        refine Sound.lift ?_ (Replicator.preserves_blockFailed waiter_indifferent) stepped
        exact sound.keep rfl rfl
      · rw [if_neg failed] at stepped
        have same := timeoutNow_waiter
          { w.replicator with
            reader := false
            installSnapshotInFly := none
            nextIndex := lastIncludedIndex + 1
            installed := lastIncludedIndex :: w.replicator.installed
            hasSucceeded := true }
        exact Sound.sendEntries (sound.keep same.1 same.2) free stepped

theorem Sound.changeReadonlyConfig (sound : Sound w) (free : w.waits.NextIdFree)
    (readonly : Bool) : Sound (w.changeReadonlyConfig around readonly) := by
  unfold WaitingReplicator.changeReadonlyConfig
  simp only
  split_ifs with same enters
  · exact sound
  · exact sound.keep rfl rfl
  · refine Sound.waitMoreEntries ?_ free
    exact sound.keep rfl rfl

theorem Sound.stop (sound : Sound w) : Sound w.stop := by
  have removed := registered_removeWaiter w w.replicator.waitId
  have noneLeft : w.stop.registered = [] := by
    change registered { w with waits := w.waits.removeWaiter w.replicator.waitId } = []
    rw [removed]
    rcases sound.one with noneLeft | ⟨ticket, only, _⟩
    · rw [noneLeft]
      rfl
    · rw [only]
      simp
  constructor
  · exact Or.inl noneLeft
  · exact sound.counted
  · exact sound.flag
  · intro id ticket member
    rw [noneLeft] at member
    cases member
  · exact sound.fresh
  · intro id ticket member
    rw [noneLeft] at member
    cases member

/-! ### Wake-ups -/

theorem mem_registered {id ticket : Nat} (member : (id, Waiter.own ticket) ∈ w.waits.waitMap) :
    (id, ticket) ∈ w.registered :=
  List.mem_filterMap.mpr ⟨_, member, rfl⟩

theorem Sound.shared (sound : Sound w) {waits : WaitMap Waiter}
    (registered : waits.waitMap.filterMap ownEntry = w.registered)
    (started : ∀ thread ∈ waits.started, thread.1 ≠ .other → thread ∈ w.waits.started) :
    Sound { w with waits := waits } := by
  have woken : ∀ ticket, Woken { w with waits := waits } ticket → w.Woken ticket := by
    intro ticket isWoken
    cases isWoken with
    | intro errorCode member => exact ⟨errorCode, started _ member (by simp)⟩
  constructor
  · change waits.waitMap.filterMap ownEntry = [] ∨
      ∃ ticket, waits.waitMap.filterMap ownEntry = [(w.replicator.waitId, ticket)] ∧ _
    rw [registered]
    exact sound.one
  · exact sound.counted
  · exact sound.flag
  · intro id ticket member
    change (id, ticket) ∈ waits.waitMap.filterMap ownEntry at member
    rw [registered] at member
    exact sound.latest id ticket member
  · exact fun ticket isWoken => sound.fresh ticket (woken ticket isWoken)
  · intro id ticket member isWoken
    change (id, ticket) ∈ waits.waitMap.filterMap ownEntry at member
    rw [registered] at member
    exact sound.apart id ticket member (woken ticket isWoken)

theorem Sound.wakeupAllWaiter (sound : Sound w) :
    Sound { w with waits := w.waits.wakeupAllWaiter } := by
  constructor
  · exact Or.inl rfl
  · exact sound.counted
  · exact sound.flag
  · intro id ticket member
    cases member
  · intro ticket woken
    cases woken with
    | intro errorCode member =>
        rcases List.mem_append.mp member with earlier | now
        · exact sound.fresh ticket ⟨errorCode, earlier⟩
        · cases List.mem_map.mp now with
          | intro entry isEntry =>
              obtain ⟨id, waiter⟩ := entry
              cases isEntry.2
              have latest := sound.latest id ticket (mem_registered isEntry.1)
              change ticket < w.waited
              omega
  · intro id ticket member
    cases member

theorem Sound.shutdown (sound : Sound w) : Sound { w with waits := w.waits.shutdown } := by
  have stopped : Sound { w with waits := { w.waits with stopped := true } } :=
    sound.shared rfl (fun _ member _ => member)
  exact stopped.wakeupAllWaiter

theorem Sound.otherWaits (sound : Sound w) (free : w.waits.NextIdFree)
    (expectedLastLogIndex lastLogIndex : Nat) :
    Sound { w with
      waits := (w.waits.notifyOnNewLog expectedLastLogIndex lastLogIndex .other).2 } := by
  unfold WaitMap.notifyOnNewLog
  split_ifs with atOnce
  · refine sound.shared rfl ?_
    intro thread member own
    rcases List.mem_append.mp member with earlier | last
    · exact earlier
    · rw [List.mem_singleton.mp last] at own
      exact absurd rfl own
  · refine sound.shared ?_ (fun _ member _ => member)
    change (WaitMap.insert _ _ _).filterMap ownEntry = _
    rw [WaitMap.insert_free _ free.2]
    exact filterMap_other _ _

theorem Sound.otherRemoves (sound : Sound w) {id : Nat}
    (others : ∀ ticket, (id, ticket) ∉ w.registered) :
    Sound { w with waits := w.waits.removeWaiter id } := by
  refine sound.shared ?_ (fun _ member _ => member)
  change registered { w with waits := w.waits.removeWaiter id } = w.registered
  rw [registered_removeWaiter, List.filter_eq_self.mpr]
  intro entry member
  by_cases same : entry.1 = id
  · obtain ⟨key, ticket⟩ := entry
    cases same
    exact absurd member (others ticket)
  · exact decide_eq_true same

theorem Sound.ended (sound : Sound w) (index : Nat) :
    Sound { w with waits := w.waits.runOnNewLog index } :=
  sound.shared rfl (fun _ member _ => List.mem_of_mem_eraseIdx member)

theorem Sound.canceled_flag (sound : Sound w) {ticket : Nat} (canceled : ticket < w.canceled)
    (last : w.waited = w.canceled) : w.replicator.isWaiterCanceled = true := by
  rcases sound.flag last with none | isSet
  · omega
  · exact isSet

theorem Sound.forget (sound : Sound w) (noneLeft : w.registered = []) :
    Sound { w with replicator := { w.replicator with waitId := 0 } } := by
  constructor
  · exact Or.inl noneLeft
  · exact sound.counted
  · exact sound.flag
  · exact sound.latest
  · exact sound.fresh
  · exact sound.apart

theorem Sound.runOnNewLog {index : Nat} (sound : Sound w) (free : w.waits.NextIdFree)
    (inTime : w.RunsInTime index) (stepped : w.runOnNewLog options around index = some after) :
    Sound after := by
  have ended := sound.ended index
  unfold WaitingReplicator.runOnNewLog at stepped
  cases found : w.waits.started[index]? with
  | none =>
      rw [found] at stepped
      cases stepped
  | some thread =>
      rw [found] at stepped
      obtain ⟨waiter, errorCode⟩ := thread
      cases waiter with
      | other =>
          cases stepped
          exact ended
      | own ticket =>
          simp only at stepped
          unfold WaitingReplicator.continueSending at stepped
          by_cases gone : w.replicator.destroyed
          · rw [if_pos gone] at stepped
            cases stepped
            exact ended
          rw [if_neg gone] at stepped
          by_cases sends : errorCode ≠ ESTOP ∧ ¬ w.replicator.isWaiterCanceled = true
          · rw [if_pos sends] at stepped
            have noneLeft : w.registered = [] := by
              rcases inTime ticket errorCode found with isGone | isStop | late | current
              · exact absurd isGone gone
              · exact absurd isStop sends.1
              · exact absurd (sound.canceled_flag late.1 late.2) sends.2
              · exact current.2
            exact (ended.forget noneLeft).sendEntries free stepped
          · rw [if_neg sends] at stepped
            cases stepped
            exact ended

/-! ### Runs -/

theorem preserves_onBlockTimedout :
    Replicator.Preserves waiter (Replicator.onBlockTimedout : Replicator P D → _) := by
  intro r after called
  unfold Replicator.onBlockTimedout at called
  split_ifs at called with idle
  cases called
  rfl

theorem preserves_continueTimedout :
    Replicator.Preserves waiter
      (Replicator.continueTimedout options surroundings : Replicator P D → _) := by
  intro r after called
  unfold Replicator.continueTimedout at called
  simp only at called
  split_ifs at called with idle waiting
  · cases called
    rfl
  · exact Replicator.preserves_sendEmptyEntries waiter_indifferent surroundings.attempts
      { r with blockTimeouts := r.blockTimeouts - 1 } after called

theorem Sound.call {made : Call P D C} (sound : Sound w) (free : w.waits.NextIdFree)
    (stepped : w.call options made = some after) : Sound after := by
  cases made with
  | onRpcReturned around callId answer => exact sound.onRpcReturned free stepped
  | onInstallSnapshotReturned around success => exact sound.onInstallSnapshotReturned free stepped
  | onBlockTimedout => exact sound.lift preserves_onBlockTimedout stepped
  | continueTimedout around => exact sound.lift preserves_continueTimedout stepped
  | changeReadonlyConfig around readonly =>
      cases stepped
      exact sound.changeReadonlyConfig free readonly
  | transferLeadership logIndex =>
      cases stepped
      unfold Replicator.transferLeadership
      split_ifs with ready
      · exact sound.keep rfl rfl
      · exact sound.keep rfl rfl
  | stopTransferLeadership =>
      cases stepped
      exact sound.keep rfl rfl
  | destroy =>
      cases stepped
      exact sound.keep rfl rfl
  | stop =>
      cases stepped
      exact sound.stop

theorem Sound.step {action : Action P D C} (sound : Sound w) (timely : Timely action w)
    (stepped : step options action w = some after) : Sound after := by
  cases action with
  | call made =>
      change (if w.replicator.destroyed then some w else w.call options made) = _ at stepped
      by_cases gone : w.replicator.destroyed
      · rw [if_pos gone] at stepped
        cases stepped
        exact sound
      · rw [if_neg gone] at stepped
        exact sound.call timely stepped
  | runOnNewLog around index => exact sound.runOnNewLog timely.2 timely.1 stepped
  | wakeupAllWaiter =>
      cases stepped
      exact sound.wakeupAllWaiter
  | shutdown =>
      cases stepped
      exact sound.shutdown
  | otherWaits expectedLastLogIndex lastLogIndex =>
      cases stepped
      exact sound.otherWaits timely expectedLastLogIndex lastLogIndex
  | otherRemoves id =>
      cases stepped
      exact sound.otherRemoves timely

theorem Started.sound (started : Started options C w) : Sound w := by
  obtain ⟨_, _, _, waited, canceled, others, threads⟩ := started
  have noneLeft : w.registered = [] := by
    refine List.filterMap_eq_nil_iff.mpr ?_
    intro entry member
    obtain ⟨id, waiter⟩ := entry
    cases others _ member
    rfl
  constructor
  · exact Or.inl noneLeft
  · omega
  · exact fun _ => Or.inl waited
  · intro id ticket member
    rw [noneLeft] at member
    cases member
  · intro ticket woken
    cases woken with
    | intro errorCode member => cases threads _ member
  · intro id ticket member
    rw [noneLeft] at member
    cases member

theorem sound_of_reachable
    (reached : ((system options C).restrict Timely).Reachable w) : Sound w := by
  induction reached with
  | start initial => exact Started.sound initial
  | next _ allowed stepped ih => exact ih.step allowed.2 stepped

theorem Sound.last_inTime (sound : Sound w) {index ticket : Nat} {errorCode : Int}
    (found : w.waits.started[index]? = some (.own ticket, errorCode))
    (last : ticket + 1 = w.waited) : w.RunsInTime index := by
  intro other code isOther
  rw [found] at isOther
  cases isOther
  have counted := sound.counted
  by_cases canceled : ticket < w.canceled
  · exact Or.inr (Or.inr (Or.inl ⟨canceled, by omega⟩))
  · refine Or.inr (Or.inr (Or.inr ⟨by omega, ?_⟩))
    rcases sound.one with noneLeft | ⟨registered, only, _⟩
    · exact noneLeft
    · have member : (w.replicator.waitId, registered) ∈ w.registered := by
        rw [only]
        exact List.mem_singleton_self _
      have isLatest := sound.latest _ _ member
      have same : registered = ticket := by omega
      subst same
      exact absurd ⟨errorCode, List.mem_of_getElem? found⟩ (sound.apart _ _ member)

theorem Sound.late_idle (sound : Sound w) {index ticket : Nat} {errorCode : Int}
    (found : w.waits.started[index]? = some (.own ticket, errorCode))
    (late : ticket < w.canceled) (inTime : w.RunsInTime index) :
    w.runOnNewLog options around index = some { w with waits := w.waits.runOnNewLog index } := by
  unfold WaitingReplicator.runOnNewLog WaitingReplicator.continueSending
  rw [found]
  simp only
  by_cases gone : w.replicator.destroyed
  · rw [if_pos gone]
  rw [if_neg gone, if_neg]
  intro sends
  rcases inTime ticket errorCode found with isGone | isStop | isLate | current
  · exact gone isGone
  · exact sends.1 isStop
  · exact sends.2 (sound.canceled_flag isLate.1 isLate.2)
  · omega

/-- In every timely run the replicator has one waiter at most, with its id, and the wake-ups of
its cancelled waits change nothing. -/
theorem oneWaiter_run (options : ReplicatorOptions P D)
    (reached : ((system options C).restrict Timely).Reachable w) :
    w.OneWaiter ∧
      ∀ (around : WaitSurroundings P D C) (index ticket : Nat) (errorCode : Int),
        w.waits.started[index]? = some (.own ticket, errorCode) → ticket < w.canceled →
          Timely (.runOnNewLog around index) w →
            step options (.runOnNewLog around index) w =
              some { w with waits := w.waits.runOnNewLog index } := by
  have sound := sound_of_reachable reached
  refine ⟨sound.one, ?_⟩
  intro around index ticket errorCode found late timely
  exact sound.late_idle found late timely.1

open Replicator (answered exampleLog exampleOptions startedReplicator startedReplicator_started)

/-- A log with this many entries, also when the replicator waits. -/
def exampleWaiting (count : Nat) : WaitSurroundings Nat Nat Nat :=
  { exampleLog count with lastLogIndexAtWait := count }

def startedWaiting : WaitingReplicator Nat Nat := { replicator := startedReplicator }

theorem startedWaiting_started : Started exampleOptions Nat startedWaiting :=
  ⟨startedReplicator_started, rfl, rfl, rfl, rfl, nofun, nofun⟩

def exampleRun (actions : List (Action Nat Nat Nat)) : WaitingReplicator Nat Nat :=
  actions.foldl (fun w action => (step exampleOptions action w).getD w) startedWaiting

/-- The second entry is sent, the replicator waits, and the third entry wakes it; then the
request fails. -/
def failedRequest : List (Action Nat Nat Nat) :=
  [.call (.onRpcReturned (exampleWaiting 2) 0 answered), .wakeupAllWaiter,
    .call (.onRpcReturned (exampleWaiting 3) 1 .failed)]

def nextWait : List (Action Nat Nat Nat) :=
  failedRequest ++
    [.call .onBlockTimedout, .call (.continueTimedout (exampleWaiting 3)),
      .call (.onRpcReturned (exampleWaiting 3) 2 answered)]

theorem exampleRun_failedRequest :
    ((system exampleOptions Nat).restrict Timely).Reachable (exampleRun failedRequest) := by
  have follows : ((system exampleOptions Nat).restrict Timely).Follows failedRequest startedWaiting
      (exampleRun failedRequest) := by
    refine ⟨⟨trivial, by decide, nofun⟩, _, rfl, ⟨trivial, trivial⟩, _, rfl,
      ⟨trivial, by decide, nofun⟩, _, rfl, rfl⟩
  exact .follows _ (.start startedWaiting_started) follows

theorem exampleRun_nextWait : (system exampleOptions Nat).Reachable (exampleRun nextWait) := by
  have follows : (system exampleOptions Nat).Follows nextWait startedWaiting
      (exampleRun nextWait) := by
    exact ⟨trivial, _, rfl, trivial, _, rfl, trivial, _, rfl, trivial, _, rfl, trivial, _, rfl,
      trivial, _, rfl, rfl⟩
  exact .follows _ (.start startedWaiting_started) follows

/-- The wake-up of the cancelled wait is in time before the next one. -/
theorem oneWaiter_run_canceled :
    (exampleRun failedRequest).OneWaiter ∧
      ∀ (around : WaitSurroundings Nat Nat Nat) (index ticket : Nat) (errorCode : Int),
        (exampleRun failedRequest).waits.started[index]? = some (.own ticket, errorCode) →
          ticket < (exampleRun failedRequest).canceled →
            Timely (.runOnNewLog around index) (exampleRun failedRequest) →
              step exampleOptions (.runOnNewLog around index) (exampleRun failedRequest) =
                some { exampleRun failedRequest with
                  waits := (exampleRun failedRequest).waits.runOnNewLog index } :=
  oneWaiter_run exampleOptions exampleRun_failedRequest

/-- Behind the next wait the same wake-up is taken for it: the replicator waits once more. -/
theorem late_wakeup_waits_again :
    ∃ before after : WaitingReplicator Nat Nat,
      (system exampleOptions Nat).Reachable before ∧ before.registered = [(2, 1)] ∧
        before.waits.started[0]? = some (.own 0, 0) ∧ 0 < before.canceled ∧
        step exampleOptions (.runOnNewLog (exampleWaiting 3) 0) before = some after ∧
        after.registered = [(3, 2), (2, 1)] ∧ after.replicator.waitId = 3 ∧ ¬ after.OneWaiter := by
  refine ⟨exampleRun nextWait, _, exampleRun_nextWait, rfl, rfl, by decide, rfl, rfl, rfl, ?_⟩
  intro one
  rcases one with noneLeft | ⟨ticket, only, _⟩
  · cases noneLeft
  · cases only

end WaitingReplicator

end QuorumKit
