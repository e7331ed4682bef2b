/-
Runs of a node, with all that may happen in between.

The calls of a node come in any order: batches of tasks, requests, callbacks that are
late, acknowledgements and changes of the state.  A committed index that was reported
is applied at any time after that.
-/

import QuorumKit.Library.TransitionSystem
import QuorumKit.Node.NodeImpl

namespace QuorumKit

namespace NodeImpl

variable {P D C : Type} [DecidableEq P] [Inhabited D]

/-- The state after `init`. -/
structure Initial (node : NodeImpl P D C) : Prop where
  state : node.state = .follower
  positive : 0 < node.log.first
  indexed : ∀ index entry, node.log.get? index = some entry → entry.id.index = index
  terms : ∀ index entry, node.log.get? index = some entry → entry.id.term ≤ node.currentTerm
  applied : node.log.first ≤ node.lastAppliedIndex + 1 ∧ node.lastAppliedIndex < node.log.stop
  conf : node.conf.id.index < node.log.stop ∧
    node.configManager.lastConfiguration.id.index < node.log.stop ∧
    node.configManager.snapshot.id.index ≤ node.lastAppliedIndex
  fresh : node =
    { serverId := node.serverId
      state := node.state
      currentTerm := node.currentTerm
      conf := node.conf
      log := node.log
      configManager := node.configManager
      lastAppliedIndex := node.lastAppliedIndex }

def Allowed (action : Action P D C) (node : NodeImpl P D C) : Prop :=
  match action with
  | .electSelf => node.state = .follower ∨ node.state = .candidate
  | .setLastCommittedIndex lastCommittedIndex => lastCommittedIndex < node.log.stop
  | .receive cut entries =>
      -- the leader of a term gets nothing from another one, and a leader has all
      -- that is committed
      node.state = .follower ∧ node.leaderTerm ≠ some node.currentTerm ∧
        node.log.first ≤ cut ∧ cut ≤ node.log.stop ∧
        node.ballotBox.lastCommittedIndex < cut ∧ node.lastAppliedIndex < cut ∧
        ∀ position entry, entries[position]? = some entry →
          entry.id.index = cut + position ∧ entry.id.term ≤ node.currentTerm
  | .startCommitted committedIndex => committedIndex ∈ node.ballotBox.committed
  | _ => True

variable (P D C) in
def system : TransitionSystem (NodeImpl P D C) (Action P D C) where
  init := Initial
  allowed := Allowed
  step := step

end NodeImpl

end QuorumKit
