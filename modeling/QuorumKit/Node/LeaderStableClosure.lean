/-
A node with its log manager: what `LeaderStableClosure` credits to the leader.

`elect_self` waits for `last_log_id(true)` before it asks for votes, and
`become_leader` opens the ballot box behind the last index.  The closures of an
append run on the disk thread, and one of an earlier term may still be waiting
there.  A closure is run, with the call of `commit_at` in it, in one step.
-/

import QuorumKit.Ballot.BallotBox
import QuorumKit.LogManager.HeldClosures
import QuorumKit.Node.NodeImpl

namespace QuorumKit

namespace BallotBox

variable {P : Type}

/-- The indexes that the loop of `commit_at` grants. -/
def grantedIndexes (lastLogIndex : Nat) : List (Ballot P) → Nat → List Nat
  | [], _ => []
  | _ :: rest, logIndex =>
      if lastLogIndex < logIndex then []
      else logIndex :: grantedIndexes lastLogIndex rest (logIndex + 1)

/-- The indexes that `commit_at` grants to its peer. -/
def grantedBy (box : BallotBox P) (firstLogIndex lastLogIndex : Nat) : List Nat :=
  if box.pendingIndex = 0 then []
  else if lastLogIndex < box.pendingIndex then []
  else if box.pendingIndex + box.pendingMetaQueue.length ≤ lastLogIndex then []
  else
    let startAt := max box.pendingIndex firstLogIndex
    grantedIndexes lastLogIndex (box.pendingMetaQueue.drop (startAt - box.pendingIndex)) startAt

theorem mem_grantedIndexes {lastLogIndex index : Nat} {ballots : List (Ballot P)} :
    ∀ {logIndex : Nat}, index ∈ grantedIndexes lastLogIndex ballots logIndex →
      logIndex ≤ index ∧ index ≤ lastLogIndex := by
  induction ballots with
  | nil =>
      intro logIndex member
      contradiction
  | cons ballot rest ih =>
      intro logIndex member
      unfold grantedIndexes at member
      split at member
      · contradiction
      · rcases List.mem_cons.mp member with same | later
        · omega
        · have bounds := ih later
          omega

theorem mem_grantedBy {box : BallotBox P} {firstLogIndex lastLogIndex index : Nat}
    (member : index ∈ box.grantedBy firstLogIndex lastLogIndex) :
    box.pendingIndex ≠ 0 ∧ box.pendingIndex ≤ index ∧ firstLogIndex ≤ index ∧
      index ≤ lastLogIndex := by
  unfold grantedBy at member
  split_ifs at member with closed
  · contradiction
  · contradiction
  · contradiction
  · have bounds := mem_grantedIndexes member
    omega

variable [DecidableEq P]

theorem grantBallots_last (peer : P) (lastLogIndex : Nat) (ballots : List (Ballot P)) :
    ∀ (logIndex : Nat) (posHint : PosHint) (otherwise : Nat),
      (grantBallots peer lastLogIndex ballots logIndex posHint otherwise).1 = otherwise ∨
        logIndex ≤ (grantBallots peer lastLogIndex ballots logIndex posHint otherwise).1 := by
  induction ballots with
  | nil => exact fun _ _ _ => Or.inl rfl
  | cons ballot rest ih =>
      intro logIndex posHint otherwise
      unfold grantBallots
      by_cases done : lastLogIndex < logIndex
      · rw [if_pos done]
        exact Or.inl rfl
      · rw [if_neg done]
        simp only
        rcases ih (logIndex + 1) (ballot.grant peer posHint).1
          (if (ballot.grant peer posHint).2.granted then logIndex else otherwise) with same | above
        · rw [same]
          split
          · exact Or.inr (le_refl _)
          · exact Or.inl rfl
        · exact Or.inr (by omega)

theorem commitAt_pendingIndex (box : BallotBox P) (firstLogIndex lastLogIndex : Nat) (peer : P) :
    (box.pendingIndex = 0 → (box.commitAt firstLogIndex lastLogIndex peer).2 = box) ∧
      box.pendingIndex ≤ (box.commitAt firstLogIndex lastLogIndex peer).2.pendingIndex := by
  constructor
  · intro closed
    rw [commitAt, if_pos closed]
  · unfold commitAt
    split_ifs
    · exact le_refl _
    · exact le_refl _
    · exact le_refl _
    · simp only
      split_ifs with none
      · exact le_refl _
      · rcases grantBallots_last peer lastLogIndex
          (box.pendingMetaQueue.drop (max box.pendingIndex firstLogIndex - box.pendingIndex))
          (max box.pendingIndex firstLogIndex) {} 0 with zero | above
        · exact absurd zero none
        · simp only [report]
          omega

end BallotBox

/-- The closures that a node gives to `append_entries`; a `LeaderStableClosure` knows
the number of its entries. -/
inductive AppendClosure where
  | leader (nentries : Nat)
  | follower
deriving DecidableEq, Repr

structure LoggedNode (P D : Type) where
  serverId : P
  state : State := .follower
  currentTerm : Nat := 0
  manager : LogManager P D AppendClosure
  ballotBox : BallotBox P := {}

namespace LoggedNode

variable {P D : Type} [DecidableEq P]

/-- The last index of a range of `nentries` indexes. -/
def rangeEnd (firstLogIndex nentries : Nat) : Nat := firstLogIndex + nentries - 1

/-- `LeaderStableClosure::Run` and, for its effect on the ballot box, that of a
follower's closure. -/
def runClosure (node : LoggedNode P D) (done : StableClosure P D AppendClosure) (status : Int) :
    BallotBox P :=
  match done.context with
  | .leader nentries =>
      if status = 0 then
        (node.ballotBox.commitAt done.firstLogIndex (rangeEnd done.firstLogIndex nentries)
          node.serverId).2
      else node.ballotBox
  | .follower => node.ballotBox

def manage (node : LoggedNode P D) (action : LogManager.Action P D AppendClosure) :
    Option (LoggedNode P D) :=
  (LogManager.step action node.manager).map (fun manager =>
    { node with
      manager := manager
      ballotBox :=
        if node.manager.finished.length < manager.finished.length then
          match manager.finished.head? with
          | some (done, status) => node.runClosure done status
          | none => node.ballotBox
        else node.ballotBox })

/-- `elect_self` up to `last_log_id(true)`. -/
def electSelf (node : LoggedNode P D) : LoggedNode P D :=
  { node with state := .candidate, currentTerm := node.currentTerm + 1 }

def becomeLeader (node : LoggedNode P D) : Option (LoggedNode P D) :=
  if node.state = .candidate then
    (node.ballotBox.resetPendingIndex (node.manager.lastLogIndex + 1)).map (fun ballotBox =>
      { node with state := .leader, ballotBox := ballotBox })
  else none

def stepDown (node : LoggedNode P D) (term : Nat) : LoggedNode P D :=
  if ¬ node.state.isActive then node
  else
    { node with
      state := .follower
      currentTerm := max node.currentTerm term
      ballotBox :=
        if node.state.leads then node.ballotBox.clearPendingTasks else node.ballotBox }

/-- The calls of other peers' acknowledgements are `commitAt`; a leader appends its
entries after `append_pending_task` for each one. -/
inductive Action (P D : Type) where
  | electSelf
  | becomeLeader
  | stepDown (term : Nat)
  | appendPendingTask (conf : Configuration P) (oldConf : Option (Configuration P))
  | applyEntries (entries : List (LogEntry P D)) (sees : Bool)
  | receiveEntries (entries : List (LogEntry P D)) (sees : Bool)
  | commitAt (firstLogIndex lastLogIndex : Nat) (peer : P)
  | setLastCommittedIndex (lastCommittedIndex : Nat)
  | manage (action : LogManager.Action P D AppendClosure)

def step (action : Action P D) (node : LoggedNode P D) : Option (LoggedNode P D) :=
  match action with
  | .electSelf => some node.electSelf
  | .becomeLeader => node.becomeLeader
  | .stepDown term => some (node.stepDown term)
  | .appendPendingTask conf oldConf =>
      (node.ballotBox.appendPendingTask conf oldConf).map (fun ballotBox =>
        { node with ballotBox := ballotBox })
  | .applyEntries entries sees => node.manage (.appendEntries (.leader entries.length) entries sees)
  | .receiveEntries entries sees => node.manage (.appendEntries .follower entries sees)
  | .commitAt firstLogIndex lastLogIndex peer =>
      some { node with ballotBox := (node.ballotBox.commitAt firstLogIndex lastLogIndex peer).2 }
  | .setLastCommittedIndex lastCommittedIndex =>
      (node.ballotBox.setLastCommittedIndex lastCommittedIndex).map (fun result =>
        { node with ballotBox := result.2 })
  | .manage action => node.manage action

/-- What the callers promise.  The ticket of `last_log_id(true)` is the term of the
`elect_self` that waits for it. -/
def Allowed (action : Action P D) (node : LoggedNode P D) : Prop :=
  match action with
  | .electSelf => node.state = .follower ∨ node.state = .candidate
  | .becomeLeader => ∃ lastLogId, (node.currentTerm, lastLogId) ∈ node.manager.lastLogIds
  | .appendPendingTask _ _ => node.state = .leader
  | .applyEntries entries sees =>
      node.state = .leader ∧
        (∀ entry ∈ entries, entry.id.index = 0 ∧ entry.id.term = node.currentTerm) ∧
        LogManager.Allowed (.appendEntries (.leader entries.length) entries sees) node.manager
  | .receiveEntries entries sees =>
      node.state = .follower ∧
        LogManager.Allowed (.appendEntries .follower entries sees) node.manager
  | .commitAt _ _ peer => peer ≠ node.serverId
  | .manage action =>
      (∀ context entries sees, action ≠ .appendEntries context entries sees) ∧
        LogManager.Allowed action node.manager ∧
        ∀ ticket, action = .flushLastLogId ticket → ticket ≤ node.currentTerm
  | _ => True

structure Initial (node : LoggedNode P D) : Prop where
  manager : LogManager.Initial node.manager
  state : node.state = .follower
  closed : node.ballotBox.pendingIndex = 0

variable (P D) in
def system : TransitionSystem (LoggedNode P D) (Action P D) where
  init := Initial
  allowed := Allowed
  step := step

/-- When a `LeaderStableClosure` is run without an error, what it grants is stored: the
storage has the entry that the log has at each index. -/
def SelfVoteDurable (node node' : LoggedNode P D) : Prop :=
  ∀ done nentries, done.context = .leader nentries →
    node'.manager.finished = (done, 0) :: node.manager.finished →
    ∀ index ∈ node.ballotBox.grantedBy done.firstLogIndex (rangeEnd done.firstLogIndex nentries),
      ∀ entry, node'.manager.getEntry index = some entry →
        node'.manager.storage.getEntry index = some entry

/-- No closure of a leader that is still held covers an index beyond a bound. -/
def ClosuresWithin (manager : LogManager P D AppendClosure) (bound : Nat) : Prop :=
  ∀ done ∈ manager.held, ∀ nentries, done.context = .leader nentries →
    done.firstLogIndex + nentries ≤ bound + 1

/-- The shortcut of `last_log_id(true)` skips the flush only when no closure of a leader
waits beyond the last index, and a leader's log is not reset below one. -/
def FlushedBeforeVote (action : Action P D) (node : LoggedNode P D) : Prop :=
  match action with
  | .manage (.flushLastLogId ticket) =>
      node.state = .candidate → ticket = node.currentTerm →
        node.manager.lastLogIndex = node.manager.lastSnapshotId.index →
        ClosuresWithin node.manager node.manager.lastLogIndex
  | .manage (.setSnapshot snapshot) =>
      node.state = .leader → node.manager.Resets snapshot →
        ClosuresWithin node.manager snapshot.lastIncludedIndex
  | _ => True

end LoggedNode

end QuorumKit
