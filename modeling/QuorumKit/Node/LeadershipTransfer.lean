/-
Handing over the leadership, `transfer_leadership_to` of `braft/node.cpp`.

The node reads its last log index and gives it to the replicator of the target, which sends
`TimeoutNow` once the follower has everything up to there.  The transfer ends when it times
out or the node steps down.  All replicators that were made are here: one that is stopped may
still be in a call.
-/

import QuorumKit.Node.Transferring
import QuorumKit.Replicator.TimeoutNow

namespace QuorumKit

/-- A replicator with its peer.  `target` is the last log index of the leader at its last
request to hand over to this peer. -/
structure PeerReplicator (P D : Type) where
  peer : P
  options : ReplicatorOptions P D
  replicator : Replicator P D
  target : Option Nat := none

/-- A `TimeoutNow` for a transfer, with what the follower had acknowledged and installed. -/
structure TimeoutNow (P : Type) where
  peer : P
  target : Option Nat
  acknowledged : List Nat
  installed : List Nat

/-- `rmap` has the positions of the replicators that are not stopped, and `transferTimers` the
arguments of the timers.  `logAtTransfer` is the log at the last transfer that was begun. -/
structure TransferNode (P D C : Type) where
  node : NodeImpl P D C
  rmap : List (P × Nat) := []
  replicators : List (PeerReplicator P D) := []
  transferTimers : List (Nat × P) := []
  timeoutNows : List (TimeoutNow P) := []
  logAtTransfer : Option (IndexedLog (LogEntry P D)) := none

namespace TransferNode

variable {P D C : Type} [DecidableEq P] [Inhabited D]

def callReplicator (position : Nat) (member : PeerReplicator P D)
    (action : Replicator.Action P D C) (w : TransferNode P D C) : Option (TransferNode P D C) :=
  (Replicator.step member.options action member.replicator).map (fun after =>
    { w with
      replicators := w.replicators.set position { member with replicator := after }
      timeoutNows :=
        if Replicator.sendsTimeoutNow member.options action member.replicator then
          { peer := member.peer
            target := member.target
            acknowledged := after.acknowledged
            installed := after.installed } :: w.timeoutNows
        else w.timeoutNows })

def findReplicator (w : TransferNode P D C) (peer : P) : Option (Nat × PeerReplicator P D) :=
  (w.rmap.lookup peer).bind (fun position =>
    (w.replicators[position]?).map (fun member => (position, member)))

/-- `handle_transfer_timeout`. -/
def handleTransferTimeout (term : Nat) (peer : P) (w : TransferNode P D C) :
    Option (TransferNode P D C) :=
  if term = w.node.currentTerm then
    let ended := { w with node := w.node.handleTransferTimeout term }
    match w.findReplicator peer with
    | none => some ended
    | some (position, member) => ended.callReplicator position member .stopTransferLeadership
  else some w

/-- The rest of `transfer_leadership_to`, with the position of the replicator.  A timer that
cannot be added runs out at once. -/
def transferTo (peer : P) (position : Nat) (member : PeerReplicator P D) (timerAdded : Bool)
    (w : TransferNode P D C) : Option (TransferNode P D C × Int) :=
  (w.callReplicator position { member with target := some w.node.lastLogIndex }
    (.transferLeadership w.node.lastLogIndex)).map (fun told =>
      ({ told with
          node := told.node.transferLeadership
          logAtTransfer := some told.node.log
          transferTimers := (told.node.currentTerm, peer) :: told.transferTimers },
        if timerAdded then 0 else -1))

/-- `transfer_leadership_to`; `candidate` is what `find_the_next_candidate` finds for
`ANY_PEER`. -/
def transferLeadershipTo (peer candidate : Option P) (consecutiveErrorTimes : Nat)
    (timerAdded : Bool) (w : TransferNode P D C) : Option (TransferNode P D C × Int) :=
  if w.node.state ≠ .leader then
    some (w, if w.node.state = .transferring then EBUSY else EPERM)
  else if w.node.confCtx.isBusy then some (w, EBUSY)
  else
    match peer.orElse (fun _ => candidate) with
    | none => some (w, -1)
    | some peer =>
        if peer = w.node.serverId then some (w, 0)
        else if ¬ w.node.conf.contains peer then some (w, EINVAL)
        else
          match w.findReplicator peer with
          | none => some (w, EINVAL)
          | some (position, member) =>
              if 0 < consecutiveErrorTimes then some (w, EHOSTUNREACH)
              else if member.replicator.destroyed then some (w, EINVAL)
              else w.transferTo peer position member timerAdded

/-- `replicator` is any call of a replicator but those of a transfer; the calls of the node are
all but these. -/
inductive Action (P D C : Type) where
  | node (action : NodeImpl.Action P D C)
  | transferLeadershipTo (peer candidate : Option P) (consecutiveErrorTimes : Nat)
      (timerAdded : Bool)
  | handleTransferTimeout (timer : Nat)
  | addReplicator (member : PeerReplicator P D)
  | stopReplicator (peer : P)
  | replicator (position : Nat) (action : Replicator.Action P D C)

def step (action : Action P D C) (w : TransferNode P D C) : Option (TransferNode P D C) :=
  match action with
  | .node action => (w.node.step action).map (fun node => { w with node := node })
  | .transferLeadershipTo peer candidate consecutiveErrorTimes timerAdded =>
      (w.transferLeadershipTo peer candidate consecutiveErrorTimes timerAdded).map Prod.fst
  | .handleTransferTimeout timer =>
      match w.transferTimers[timer]? with
      | none => none
      | some (term, peer) =>
          { w with transferTimers := w.transferTimers.eraseIdx timer }.handleTransferTimeout term
            peer
  | .addReplicator member =>
      some
        (if w.rmap.lookup member.peer = none then
          { w with
            rmap := (member.peer, w.replicators.length) :: w.rmap
            replicators := w.replicators ++ [member] }
        else w)
  | .stopReplicator peer => some { w with rmap := w.rmap.filter (fun entry => entry.1 ≠ peer) }
  | .replicator position action =>
      match w.replicators[position]? with
      | none => none
      | some member => w.callReplicator position member action

def OfTransfer (action : Replicator.Action P D C) : Prop :=
  match action with
  | .transferLeadership _ => True
  | .stopTransferLeadership => True
  | _ => False

def Allowed (action : Action P D C) (w : TransferNode P D C) : Prop :=
  match action with
  | .node action => NodeImpl.Allowed action w.node ∧ ¬ action.Transfers
  | .addReplicator member =>
      Replicator.Started member.options C member.replicator ∧ member.target = none
  | .replicator _ action => ¬ OfTransfer action
  | _ => True

variable (P D C) in
def system : TransitionSystem (TransferNode P D C) (Action P D C) :=
  { init := fun w => NodeImpl.Initial w.node ∧ w = { node := w.node }
    allowed := Allowed
    step := step }

/-- The follower had acknowledged every entry up to the last one of the leader at its request,
or had it in a snapshot. -/
def Complete (sent : TimeoutNow P) : Prop :=
  ∃ lastLogIndex, sent.target = some lastLogIndex ∧
    ∀ index, 0 < index → index ≤ lastLogIndex →
      (∃ last ∈ sent.acknowledged, index ≤ last) ∨ ∃ last ∈ sent.installed, index ≤ last

def Refuses (node : NodeImpl P D C) : Prop :=
  (∀ tasks rejectNewUserLogs, node.apply tasks rejectNewUserLogs =
    some { node with
      rejected := tasks.map (fun task => (task.done, EBUSY)) ++ node.rejected }) ∧
  ∀ newConf waits, node.registerConfChange newConf waits =
    some { node with
      requests := node.requests + 1
      responses := (node.requests, EBUSY) :: node.responses }

def LeavesReadonly (action : Action P D C) (w : TransferNode P D C) : Prop :=
  match action with
  | .replicator position action => ∀ member, w.replicators[position]? = some member →
      Replicator.LeavesReadonly action member.replicator
  | _ => True

structure Tracked (member : PeerReplicator P D) : Prop where
  kept : Replicator.Kept member.replicator
  target : member.replicator.timeoutNowIndex ≠ 0 →
    member.target = some member.replicator.timeoutNowIndex

structure Sound (w : TransferNode P D C) : Prop where
  replicators : ∀ member ∈ w.replicators, Tracked member
  timeoutNows : ∀ sent ∈ w.timeoutNows, Complete sent
  transferring : w.node.state = .transferring → w.logAtTransfer = some w.node.log

variable {w : TransferNode P D C} {member : PeerReplicator P D}

def Fulfils (member : PeerReplicator P D) (action : Replicator.Action P D C) : Prop :=
  ∀ after, Replicator.step member.options action member.replicator = some after →
    Tracked { member with replicator := after } ∧
      (Replicator.sendsTimeoutNow member.options action member.replicator = true →
        Complete
          { peer := member.peer
            target := member.target
            acknowledged := after.acknowledged
            installed := after.installed })

omit [DecidableEq P] [Inhabited D] in
theorem Tracked.fulfils (tracked : Tracked member) {action : Replicator.Action P D C}
    (other : ∀ logIndex, action ≠ .transferLeadership logIndex)
    (leaves : Replicator.LeavesReadonly action member.replicator) : Fulfils member action := by
  intro after stepped
  have kept := (tracked.kept.step leaves stepped).1
  constructor
  · refine ⟨kept, ?_⟩
    intro waits
    change after.timeoutNowIndex ≠ 0 at waits
    rcases Replicator.step_keeps other stepped with same | forgotten
    · change member.target = some after.timeoutNowIndex
      rw [same] at waits ⊢
      exact tracked.target waits
    · exact absurd forgotten waits
  · intro sends
    have sent := tracked.kept.step_sends other stepped sends
    exact ⟨_, tracked.target (by omega), sent.2⟩

omit [DecidableEq P] [Inhabited D] in
theorem Tracked.fulfils_transfer (tracked : Tracked member)
    (alive : ¬ member.replicator.destroyed = true) (lastLogIndex : Nat) :
    Fulfils { member with target := some lastLogIndex }
      (.transferLeadership lastLogIndex : Replicator.Action P D C) := by
  intro after stepped
  have isAfter : after = member.replicator.transferLeadership lastLogIndex := by
    unfold Replicator.step at stepped
    rw [if_neg alive] at stepped
    cases stepped
    rfl
  have leaves : Replicator.LeavesReadonly
      (.transferLeadership lastLogIndex : Replicator.Action P D C) member.replicator := trivial
  have kept := (tracked.kept.step leaves stepped).1
  constructor
  · refine ⟨kept, ?_⟩
    intro waits
    change after.timeoutNowIndex ≠ 0 at waits
    change some lastLogIndex = some after.timeoutNowIndex
    rw [isAfter] at waits ⊢
    unfold Replicator.transferLeadership at waits ⊢
    by_cases ready : member.replicator.hasSucceeded = true ∧
        lastLogIndex < member.replicator.minFlyingIndex
    · rw [if_pos ready] at waits
      exact absurd rfl waits
    · rw [if_neg ready]
  · intro sends
    have hasEntries := tracked.kept.transfer_sends sends
    rw [← isAfter] at hasEntries
    exact ⟨lastLogIndex, rfl, hasEntries⟩

omit [DecidableEq P] [Inhabited D] in
theorem Sound.callReplicator (sound : Sound w) {position : Nat}
    {action : Replicator.Action P D C} {after : TransferNode P D C}
    (fulfils : Fulfils member action)
    (called : w.callReplicator position member action = some after) :
    Sound after ∧ after.node = w.node ∧ after.logAtTransfer = w.logAtTransfer := by
  obtain ⟨r, stepped, rfl⟩ := Option.map_eq_some_iff.mp called
  have result := fulfils r stepped
  refine ⟨⟨?_, ?_, sound.transferring⟩, rfl, rfl⟩
  · intro other isMember
    rcases List.mem_or_eq_of_mem_set isMember with before | same
    · exact sound.replicators other before
    · rw [same]
      exact result.1
  · intro sent isSent
    change sent ∈ (if Replicator.sendsTimeoutNow member.options action member.replicator = true
      then _ else w.timeoutNows) at isSent
    by_cases sends : Replicator.sendsTimeoutNow member.options action member.replicator = true
    · rw [if_pos sends] at isSent
      rcases List.mem_cons.mp isSent with same | before
      · rw [same]
        exact result.2 sends
      · exact sound.timeoutNows sent before
    · rw [if_neg sends] at isSent
      exact sound.timeoutNows sent isSent

omit [Inhabited D] in
theorem findReplicator_mem {peer : P} {position : Nat}
    (found : w.findReplicator peer = some (position, member)) : member ∈ w.replicators := by
  obtain ⟨index, _, found⟩ := Option.bind_eq_some_iff.mp found
  obtain ⟨other, isOther, same⟩ := Option.map_eq_some_iff.mp found
  cases same
  exact List.mem_of_getElem? isOther

omit [DecidableEq P] [Inhabited D] in
theorem Sound.node (sound : Sound w) {node : NodeImpl P D C}
    (transferring : node.state = .transferring → w.logAtTransfer = some node.log) :
    Sound { w with node := node } := by
  constructor
  · exact sound.replicators
  · exact sound.timeoutNows
  · exact transferring

omit [Inhabited D] in
theorem Sound.handleTransferTimeout (sound : Sound w) {term : Nat} {peer : P}
    {after : TransferNode P D C} (called : w.handleTransferTimeout term peer = some after) :
    Sound after ∧ (after.node = w.node ∨ after.node = w.node.handleTransferTimeout term) := by
  unfold TransferNode.handleTransferTimeout at called
  by_cases current : term = w.node.currentTerm
  · rw [if_pos current] at called
    simp only at called
    have ended : Sound { w with node := w.node.handleTransferTimeout term } := by
      apply sound.node
      intro transferring
      unfold NodeImpl.handleTransferTimeout at transferring ⊢
      by_cases ends : term = w.node.currentTerm ∧ w.node.state = .transferring
      · rw [if_pos ends] at transferring
        cases transferring
      · rw [if_neg ends] at transferring ⊢
        exact sound.transferring transferring
    cases found : w.findReplicator peer with
    | none =>
        rw [found] at called
        cases called
        exact ⟨ended, Or.inr rfl⟩
    | some entry =>
        rw [found] at called
        obtain ⟨position, member⟩ := entry
        have tracked := sound.replicators member (findReplicator_mem found)
        have fulfils : Fulfils member (.stopTransferLeadership : Replicator.Action P D C) :=
          tracked.fulfils nofun trivial
        have result := ended.callReplicator fulfils called
        exact ⟨result.1, Or.inr result.2.1⟩
  · rw [if_neg current] at called
    cases called
    exact ⟨sound, Or.inl rfl⟩

omit [DecidableEq P] [Inhabited D] in
theorem Sound.transferTo (sound : Sound w) {peer : P} {position : Nat} {timerAdded : Bool}
    {after : TransferNode P D C} {result : Int} (tracked : Tracked member)
    (alive : ¬ member.replicator.destroyed = true)
    (called : w.transferTo peer position member timerAdded = some (after, result)) :
    Sound after ∧ after.node = w.node.transferLeadership := by
  obtain ⟨told, isTold, same⟩ := Option.map_eq_some_iff.mp called
  cases same
  have state := sound.callReplicator (tracked.fulfils_transfer alive _) isTold
  have node := state.2.1
  refine ⟨⟨state.1.replicators, state.1.timeoutNows, ?_⟩, ?_⟩
  · intro _
    change some told.node.log = some told.node.transferLeadership.log
    unfold NodeImpl.transferLeadership
    split_ifs <;> rfl
  · change told.node.transferLeadership = _
    rw [node]

omit [Inhabited D] in
theorem Sound.transferLeadershipTo (sound : Sound w) {peer candidate : Option P}
    {consecutiveErrorTimes : Nat} {timerAdded : Bool} {after : TransferNode P D C} {result : Int}
    (called : w.transferLeadershipTo peer candidate consecutiveErrorTimes timerAdded =
      some (after, result)) :
    Sound after ∧ (after.node = w.node ∨ after.node = w.node.transferLeadership) := by
  unfold TransferNode.transferLeadershipTo at called
  by_cases notLeader : w.node.state ≠ .leader
  · rw [if_pos notLeader] at called
    cases called
    exact ⟨sound, Or.inl rfl⟩
  rw [if_neg notLeader] at called
  by_cases busy : w.node.confCtx.isBusy = true
  · rw [if_pos busy] at called
    cases called
    exact ⟨sound, Or.inl rfl⟩
  rw [if_neg busy] at called
  cases isPeer : peer.orElse (fun _ => candidate) with
  | none =>
      rw [isPeer] at called
      cases called
      exact ⟨sound, Or.inl rfl⟩
  | some peer =>
      rw [isPeer] at called
      simp only at called
      by_cases self : peer = w.node.serverId
      · rw [if_pos self] at called
        cases called
        exact ⟨sound, Or.inl rfl⟩
      rw [if_neg self] at called
      by_cases outside : ¬ w.node.conf.contains peer = true
      · rw [if_pos outside] at called
        cases called
        exact ⟨sound, Or.inl rfl⟩
      rw [if_neg outside] at called
      cases found : w.findReplicator peer with
      | none =>
          rw [found] at called
          cases called
          exact ⟨sound, Or.inl rfl⟩
      | some entry =>
          rw [found] at called
          obtain ⟨position, member⟩ := entry
          simp only at called
          by_cases errors : 0 < consecutiveErrorTimes
          · rw [if_pos errors] at called
            cases called
            exact ⟨sound, Or.inl rfl⟩
          rw [if_neg errors] at called
          by_cases gone : member.replicator.destroyed = true
          · rw [if_pos gone] at called
            cases called
            exact ⟨sound, Or.inl rfl⟩
          · rw [if_neg gone] at called
            have tracked := sound.replicators member (findReplicator_mem found)
            have result := sound.transferTo tracked gone called
            exact ⟨result.1, Or.inr result.2⟩

theorem Sound.nodeStep (sound : Sound w) {action : NodeImpl.Action P D C}
    (reached : (NodeImpl.system P D C).Reachable w.node) (allowed : NodeImpl.Allowed action w.node)
    (other : ¬ action.Transfers) {node : NodeImpl P D C} (stepped : w.node.step action = some node) :
    Sound { w with node := node } := by
  apply sound.node
  intro transferring
  by_cases before : w.node.state = .transferring
  · have idle := (NodeImpl.changing_of_reachable reached).idle (by simp [before])
    rw [NodeImpl.step_transferring before idle allowed stepped]
    exact sound.transferring before
  · exact absurd transferring (NodeImpl.step_not_transferring other before stepped)

omit [DecidableEq P] [Inhabited D] in
theorem tracked_started {added : PeerReplicator P D}
    (started : Replicator.Started added.options C added.replicator) : Tracked added := by
  refine ⟨Replicator.Started.kept started, ?_⟩
  intro waits
  obtain ⟨around, sent⟩ := started
  exact absurd (Replicator.preserves_sendEmptyEntries
    Replicator.timeoutNowIndex_unmoved.toIndifferent around.attempts
    { nextIndex := around.logManager.lastLogIndex + 1 } _ sent) waits

omit [DecidableEq P] [Inhabited D] in
theorem Sound.addReplicator (sound : Sound w) {added : PeerReplicator P D}
    (tracked : Tracked added) :
    Sound { w with
      rmap := (added.peer, w.replicators.length) :: w.rmap
      replicators := w.replicators ++ [added] } := by
  constructor
  · intro other isMember
    rcases List.mem_append.mp isMember with before | last
    · exact sound.replicators other before
    · rw [List.mem_singleton.mp last]
      exact tracked
  · exact sound.timeoutNows
  · exact sound.transferring

theorem Sound.step (sound : Sound w) {action : Action P D C} {after : TransferNode P D C}
    (reached : (NodeImpl.system P D C).Reachable w.node) (allowed : Allowed action w)
    (leaves : LeavesReadonly action w) (stepped : step action w = some after) :
    Sound after ∧ (NodeImpl.system P D C).Reachable after.node := by
  cases action with
  | node action =>
      obtain ⟨node, isNode, rfl⟩ := Option.map_eq_some_iff.mp stepped
      exact ⟨sound.nodeStep reached allowed.1 allowed.2 isNode, .next reached allowed.1 isNode⟩
  | transferLeadershipTo peer candidate consecutiveErrorTimes timerAdded =>
      obtain ⟨result, called, rfl⟩ := Option.map_eq_some_iff.mp stepped
      have outcome := sound.transferLeadershipTo called
      refine ⟨outcome.1, ?_⟩
      rcases outcome.2 with same | transfers
      · rw [same]
        exact reached
      · have allowed : (NodeImpl.system P D C).allowed .transferLeadership w.node := trivial
        rw [transfers]
        exact .next reached allowed rfl
  | handleTransferTimeout timer =>
      change (match w.transferTimers[timer]? with
        | none => none
        | some (term, peer) => TransferNode.handleTransferTimeout term peer _) = _ at stepped
      cases found : w.transferTimers[timer]? with
      | none =>
          rw [found] at stepped
          cases stepped
      | some timedOut =>
          rw [found] at stepped
          have expired : Sound { w with transferTimers := w.transferTimers.eraseIdx timer } :=
            ⟨sound.replicators, sound.timeoutNows, sound.transferring⟩
          have outcome := expired.handleTransferTimeout stepped
          refine ⟨outcome.1, ?_⟩
          rcases outcome.2 with same | ends
          · rw [same]
            exact reached
          · have allowed : (NodeImpl.system P D C).allowed (.handleTransferTimeout timedOut.1)
                w.node := trivial
            rw [ends]
            exact .next reached allowed rfl
  | addReplicator added =>
      cases stepped
      split_ifs with absent
      · exact ⟨sound.addReplicator (tracked_started allowed.1), reached⟩
      · exact ⟨sound, reached⟩
  | stopReplicator peer =>
      cases stepped
      exact ⟨⟨sound.replicators, sound.timeoutNows, sound.transferring⟩, reached⟩
  | replicator position action =>
      change (match w.replicators[position]? with
        | none => none
        | some member => w.callReplicator position member action) = _ at stepped
      cases found : w.replicators[position]? with
      | none =>
          rw [found] at stepped
          cases stepped
      | some member =>
          rw [found] at stepped
          have tracked := sound.replicators member (List.mem_of_getElem? found)
          have other : ∀ logIndex, action ≠ .transferLeadership logIndex := by
            intro logIndex same
            rw [same] at allowed
            exact allowed trivial
          have result := sound.callReplicator (tracked.fulfils other (leaves member found)) stepped
          refine ⟨result.1, ?_⟩
          rw [result.2.1]
          exact reached

theorem sound_of_reachable
    (reached : ((system P D C).restrict LeavesReadonly).Reachable w) :
    Sound w ∧ (NodeImpl.system P D C).Reachable w.node := by
  induction reached with
  | start initial =>
      have isStart := initial.2
      refine ⟨?_, .start initial.1⟩
      rw [isStart]
      constructor
      · intro member isMember
        cases isMember
      · intro sent isSent
        cases isSent
      · intro transferring
        rw [initial.1.state] at transferring
        cases transferring
  | next _ allowed stepped ih => exact ih.1.step ih.2 allowed.1 allowed.2 stepped

/-- In every run where the followers leave their readonly mode in time, `TimeoutNow` goes to a
follower that has the whole log of the request, and the leader accepts nothing until the
transfer ends. -/
theorem transfer_run (reached : ((system P D C).restrict LeavesReadonly).Reachable w) :
    (∀ sent ∈ w.timeoutNows, Complete sent) ∧
      (w.node.state = .transferring → w.logAtTransfer = some w.node.log ∧ Refuses w.node) := by
  have sound := (sound_of_reachable reached).1
  refine ⟨sound.timeoutNows, ?_⟩
  intro transferring
  refine ⟨sound.transferring transferring, ?_, ?_⟩
  · exact NodeImpl.apply_transferring transferring
  · exact NodeImpl.registerConfChange_transferring transferring

def threePeers : NodeImpl Nat Nat Nat :=
  { NodeImpl.followerNode with conf := { conf := .ofList [1, 2, 3], oldConf := .empty } }

theorem threePeers_initial : NodeImpl.Initial threePeers :=
  { NodeImpl.followerNode_initial with
    conf := by decide
    fresh := rfl }

def transferOptions : ReplicatorOptions Nat Nat := { serverId := 1, term := 1, noData := 0 }

/-- The log of the leader, with the entry of its configuration or without. -/
def leaderLog (entries : List (LogEntry Nat Nat)) : ReplicatorSurroundings Nat Nat Nat :=
  { logManager := LogManager.init { first := 1, entries := entries } .init (fun _ => 1)
    maxEntriesSize := 4
    maxParallelAppendEntriesRpcNum := 2 }

def firstEntry : LogEntry Nat Nat :=
  { type := .configuration, id := { index := 1, term := 1 }, peers := some [1, 2, 3], data := 0 }

def secondPeer : PeerReplicator Nat Nat :=
  { peer := 2
    options := transferOptions
    replicator := ({ nextIndex := 1 } : Replicator Nat Nat).push
      (Replicator.request transferOptions (leaderLog []) (0, 0) []) }

theorem secondPeer_started :
    Replicator.Started secondPeer.options Nat secondPeer.replicator := ⟨leaderLog [], rfl⟩

def elected : List (Action Nat Nat Nat) :=
  [.node .electSelf, .addReplicator secondPeer, .node .becomeLeader]

def committed : List (Action Nat Nat Nat) :=
  [.node (.commitAt 1 1 1), .node (.commitAt 1 1 3), .node (.startCommitted 1),
    .node .nextCommitted, .node .finishCommitted]

def answeredProbe : Action Nat Nat Nat :=
  .replicator 0 (.onRpcReturned (leaderLog [firstEntry]) 0 Replicator.answered)

def exampleRun (actions : List (Action Nat Nat Nat)) : TransferNode Nat Nat Nat :=
  actions.foldl (fun w action => (step action w).getD w) { node := threePeers }

def acknowledgedRun : List (Action Nat Nat Nat) :=
  elected ++ [answeredProbe,
    .replicator 0 (.onRpcReturned (leaderLog [firstEntry]) 1 Replicator.answered)] ++ committed ++
      [.transferLeadershipTo (some 2) none 0 true]

def readonlyRun : List (Action Nat Nat Nat) :=
  elected ++ [.replicator 0 (.changeReadonlyConfig (leaderLog [firstEntry]) true),
    .replicator 0 (.changeReadonlyConfig (leaderLog [firstEntry]) false),
    .replicator 0 (.continueSending (leaderLog [firstEntry]) false), answeredProbe] ++ committed ++
      [.transferLeadershipTo (some 2) none 0 true]

theorem acknowledgedRun_reachable :
    ((system Nat Nat Nat).restrict LeavesReadonly).Reachable (exampleRun acknowledgedRun) := by
  have follows : ((system Nat Nat Nat).restrict LeavesReadonly).Follows acknowledgedRun
      { node := threePeers } (exampleRun acknowledgedRun) := by
    refine ⟨⟨⟨Or.inl rfl, not_false⟩, trivial⟩, _, rfl,
      ⟨⟨secondPeer_started, rfl⟩, trivial⟩, _, rfl,
      ⟨⟨trivial, not_false⟩, trivial⟩, _, rfl,
      ⟨not_false, fun _ _ => trivial⟩, _, rfl, ⟨not_false, fun _ _ => trivial⟩, _, rfl,
      ⟨⟨trivial, not_false⟩, trivial⟩, _, rfl, ⟨⟨trivial, not_false⟩, trivial⟩, _, rfl,
      ⟨⟨List.Mem.head _, not_false⟩, trivial⟩, _, rfl, ⟨⟨trivial, not_false⟩, trivial⟩, _, rfl,
      ⟨⟨trivial, not_false⟩, trivial⟩, _, rfl, ⟨trivial, trivial⟩, _, rfl, rfl⟩
  exact .follows _ (.start ⟨threePeers_initial, rfl⟩) follows

theorem transfer_run_acknowledged :
    (∀ sent ∈ (exampleRun acknowledgedRun).timeoutNows, Complete sent) ∧
      ((exampleRun acknowledgedRun).node.state = .transferring →
        (exampleRun acknowledgedRun).logAtTransfer = some (exampleRun acknowledgedRun).node.log ∧
          Refuses (exampleRun acknowledgedRun).node) :=
  transfer_run acknowledgedRun_reachable

/-- The answer to the probe takes the entry behind it from the queue as well: `TimeoutNow` goes
to a follower that has nothing. -/
theorem readonlyRun_incomplete :
    ∃ w : TransferNode Nat Nat Nat, (system Nat Nat Nat).Reachable w ∧
      w.node.state = .transferring ∧ w.node.lastLogIndex = 1 ∧
      w.timeoutNows =
        [{ peer := 2, target := some 1, acknowledged := [0], installed := [] }] ∧
      ¬ ∀ sent ∈ w.timeoutNows, Complete sent := by
  have follows : (system Nat Nat Nat).Follows readonlyRun { node := threePeers }
      (exampleRun readonlyRun) := by
    refine ⟨⟨Or.inl rfl, not_false⟩, _, rfl, ⟨secondPeer_started, rfl⟩, _, rfl,
      ⟨trivial, not_false⟩, _, rfl, not_false, _, rfl, not_false, _, rfl, not_false, _, rfl,
      not_false, _, rfl, ⟨trivial, not_false⟩, _, rfl, ⟨trivial, not_false⟩, _, rfl,
      ⟨List.Mem.head _, not_false⟩, _, rfl, ⟨trivial, not_false⟩, _, rfl,
      ⟨trivial, not_false⟩, _, rfl, trivial, _, rfl, rfl⟩
  have start : (system Nat Nat Nat).Reachable { node := threePeers } :=
    .start ⟨threePeers_initial, rfl⟩
  have sent : (exampleRun readonlyRun).timeoutNows =
      [{ peer := 2, target := some 1, acknowledged := [0], installed := [] }] := rfl
  refine ⟨exampleRun readonlyRun, .follows _ start follows, rfl, rfl, sent, ?_⟩
  intro complete
  rw [sent] at complete
  obtain ⟨lastLogIndex, isLast, covers⟩ := complete _ List.mem_cons_self
  cases isLast
  rcases covers 1 Nat.one_pos (le_refl 1) with ⟨last, isLast, below⟩ | ⟨last, isLast, _⟩
  · cases List.mem_singleton.mp isLast
    exact absurd below (by decide)
  · cases isLast

end TransferNode

end QuorumKit
