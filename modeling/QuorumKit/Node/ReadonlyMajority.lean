/-
The flag of a readonly majority, `change_readonly_config` and
`check_majority_nodes_readonly` of `braft/node.cpp`.

The leader counts itself and the replicators that are readonly.  Configurations
come and go as entries are appended; replicators are started and stopped with
them.  The flag is computed again only where the code does so.
-/

import QuorumKit.Library.TransitionSystem
import QuorumKit.Node.NodeImpl

namespace QuorumKit

/-- `replicators` gives the readonly index of each replicator, `0` for none. -/
structure ReadonlyNode (P : Type) where
  serverId : P
  state : State := .follower
  currentTerm : Nat := 0
  conf : ConfigurationEntry P
  nodeReadonly : Bool := false
  majorityNodesReadonly : Bool := false
  replicators : List (P × Nat) := []
  lastLogIndex : Nat := 0
deriving DecidableEq

namespace ReadonlyNode

variable {P : Type} [DecidableEq P]

/-- `ReplicatorGroup::readonly`. -/
def replicatorReadonly (node : ReadonlyNode P) (peer : P) : Bool :=
  match node.replicators.lookup peer with
  | none => false
  | some readonlyIndex => readonlyIndex ≠ 0

/-- `Replicator::_change_readonly_config`, without the entries it sends. -/
def changedIndex (node : ReadonlyNode P) (readonlyIndex : Nat) (readonly : Bool) : Nat :=
  if (readonly ∧ readonlyIndex ≠ 0) ∨ (¬ readonly ∧ readonlyIndex = 0) then readonlyIndex
  else if readonly then node.lastLogIndex + 1
  else 0

/-- `ReplicatorGroup::change_readonly_config`. -/
def changeReplicator (node : ReadonlyNode P) (peer : P) (readonly : Bool) : ReadonlyNode P :=
  { node with
    replicators := node.replicators.map (fun replicator =>
      if replicator.1 = peer then (peer, node.changedIndex replicator.2 readonly)
      else replicator) }

def memberReadonly (node : ReadonlyNode P) (peer : P) : Bool :=
  if peer = node.serverId then node.nodeReadonly else node.replicatorReadonly peer

/-- `check_majority_nodes_readonly` for one configuration. -/
def checkConfiguration (node : ReadonlyNode P) (conf : Configuration P) : ReadonlyNode P :=
  let readonlyNodes := conf.peers.countP node.memberReadonly
  let writableNodes := conf.size - readonlyNodes
  { node with majorityNodesReadonly := ¬ (conf.size / 2 + 1 ≤ writableNodes) }

def checkMajorityNodesReadonly (node : ReadonlyNode P) : ReadonlyNode P :=
  let checked := node.checkConfiguration node.conf.conf
  if ¬ node.conf.oldConf.isEmpty then checked.checkConfiguration node.conf.oldConf else checked

/-- `change_readonly_config`; `EINVAL` leaves the node alone. -/
def changeReadonlyConfig (node : ReadonlyNode P) (term : Nat) (peer : P) (readonly : Bool) :
    ReadonlyNode P :=
  if term ≠ node.currentTerm ∧ node.state ≠ .leader then node
  else (node.changeReplicator peer readonly).checkMajorityNodesReadonly

def enterReadonlyMode (node : ReadonlyNode P) : ReadonlyNode P := { node with nodeReadonly := true }

def leaveReadonlyMode (node : ReadonlyNode P) : ReadonlyNode P := { node with nodeReadonly := false }

/-- `reject_new_user_logs` of `apply`. -/
def rejectNewUserLogs (node : ReadonlyNode P) : Bool :=
  node.nodeReadonly || node.majorityNodesReadonly

def addReplicator (node : ReadonlyNode P) (peer : P) : ReadonlyNode P :=
  if (node.replicators.lookup peer).isSome then node
  else { node with replicators := (peer, 0) :: node.replicators }

def stopReplicators (node : ReadonlyNode P) (peers : List P) : ReadonlyNode P :=
  { node with replicators := node.replicators.filter (fun replicator => replicator.1 ∉ peers) }

/-- The end of a change of the configuration, `ConfigurationCtx::reset`. -/
def resetCtx (node : ReadonlyNode P) (stopped : List P) : ReadonlyNode P :=
  (node.stopReplicators stopped).checkMajorityNodesReadonly

def becomeLeader (node : ReadonlyNode P) : ReadonlyNode P :=
  let peers := (node.conf.conf.peers ++ node.conf.oldConf.peers).filter (· ≠ node.serverId)
  peers.foldl addReplicator { node with state := .leader }

/-- `step_down`; a pending change of the configuration is reset on the way. -/
def stepDown (node : ReadonlyNode P) (term : Nat) (pending : Option (List P)) : ReadonlyNode P :=
  if ¬ node.state.isActive then node
  else
    let stopped := { node with state := .follower }
    let reset := match pending with
      | none => stopped
      | some peers => stopped.resetCtx peers
    { reset with
      majorityNodesReadonly := false
      currentTerm := max node.currentTerm term
      replicators := [] }

end ReadonlyNode

inductive ReadonlyAction (P : Type) where
  | electSelf
  | becomeLeader
  | transferLeadership
  | handleTransferTimeout
  | stepDown (term : Nat) (pending : Option (List P))
  | append (lastLogIndex : Nat) (conf : ConfigurationEntry P)
  | addReplicator (peer : P)
  | resetCtx (stopped : List P)
  | enterReadonlyMode
  | leaveReadonlyMode
  | changeReadonlyConfig (term : Nat) (peer : P) (readonly : Bool)

namespace ReadonlyNode

variable {P : Type} [DecidableEq P]

def step (action : ReadonlyAction P) (node : ReadonlyNode P) : Option (ReadonlyNode P) :=
  match action with
  | .electSelf => some { node with state := .candidate, currentTerm := node.currentTerm + 1 }
  | .becomeLeader => some node.becomeLeader
  | .transferLeadership => some { node with state := .transferring }
  | .handleTransferTimeout => some { node with state := .leader }
  | .stepDown term pending => some (node.stepDown term pending)
  | .append lastLogIndex conf => some { node with lastLogIndex := lastLogIndex, conf := conf }
  | .addReplicator peer => some (node.addReplicator peer)
  | .resetCtx stopped => some (node.resetCtx stopped)
  | .enterReadonlyMode => some node.enterReadonlyMode
  | .leaveReadonlyMode => some node.leaveReadonlyMode
  | .changeReadonlyConfig term peer readonly => some (node.changeReadonlyConfig term peer readonly)

/-- What the callers promise: a change of the configuration is pending at a leader
only, and replicators are started by a leader. -/
def allowed (action : ReadonlyAction P) (node : ReadonlyNode P) : Prop :=
  match action with
  | .electSelf => node.state = .follower ∨ node.state = .candidate
  | .becomeLeader => node.state = .candidate
  | .transferLeadership => node.state = .leader
  | .handleTransferTimeout => node.state = .transferring
  | .addReplicator _ => node.state.leads = true
  | .resetCtx _ => node.state.leads = true
  | _ => True

variable (P) in
def system : TransitionSystem (ReadonlyNode P) (ReadonlyAction P) where
  init node := node.state = .follower ∧ node.majorityNodesReadonly = false ∧
    node.replicators = []
  allowed := allowed
  step := step

def writableMembers (node : ReadonlyNode P) (conf : Configuration P) : List P :=
  conf.peers.filter (fun peer => ¬ node.memberReadonly peer)

def BelowQuorum (node : ReadonlyNode P) (conf : Configuration P) : Prop :=
  (node.writableMembers conf).length < conf.size / 2 + 1

def MajorityReadonly (node : ReadonlyNode P) : Prop :=
  node.BelowQuorum node.conf.conf ∨
    (node.conf.oldConf.isEmpty = false ∧ node.BelowQuorum node.conf.oldConf)

instance (node : ReadonlyNode P) (conf : Configuration P) : Decidable (node.BelowQuorum conf) :=
  inferInstanceAs (Decidable (_ < _))

instance (node : ReadonlyNode P) : Decidable node.MajorityReadonly :=
  inferInstanceAs (Decidable (_ ∨ _))

structure FlagRight (node : ReadonlyNode P) : Prop where
  leads : node.state.leads = true → (node.majorityNodesReadonly = true ↔ node.MajorityReadonly)
  follows : node.state.leads = false → node.majorityNodesReadonly = false

def OldDecides (node : ReadonlyNode P) : Prop :=
  node.conf.oldConf.isEmpty = true ∨
    (node.BelowQuorum node.conf.conf → node.BelowQuorum node.conf.oldConf)

theorem checkConfiguration_flag (node : ReadonlyNode P) (conf : Configuration P) :
    (node.checkConfiguration conf).majorityNodesReadonly = true ↔ node.BelowQuorum conf := by
  have counted : conf.peers.length = _ := List.length_eq_countP_add_countP node.memberReadonly
  have writable : (node.writableMembers conf).length =
      conf.peers.countP (fun peer => ¬ node.memberReadonly peer) := by
    rw [writableMembers, List.countP_eq_length_filter]
  have flag : (node.checkConfiguration conf).majorityNodesReadonly =
      decide (¬ (conf.size / 2 + 1 ≤ conf.size - conf.peers.countP node.memberReadonly)) := rfl
  rw [flag, decide_eq_true_iff, BelowQuorum, writable]
  unfold Configuration.size
  omega

theorem checkMajority_iff (node : ReadonlyNode P) :
    (node.checkMajorityNodesReadonly.majorityNodesReadonly = true ↔ node.MajorityReadonly) ↔
      node.OldDecides := by
  unfold checkMajorityNodesReadonly MajorityReadonly OldDecides
  cases joint : node.conf.oldConf.isEmpty with
  | true =>
      have flag := checkConfiguration_flag node node.conf.conf
      simp [flag]
  | false =>
      have flag := checkConfiguration_flag (node.checkConfiguration node.conf.conf)
        node.conf.oldConf
      have same : (node.checkConfiguration node.conf.conf).BelowQuorum node.conf.oldConf ↔
          node.BelowQuorum node.conf.oldConf := Iff.rfl
      rw [same] at flag
      simp only [Bool.false_eq_true, not_false_eq_true, if_true, flag, true_and, false_or]
      tauto

/-- Reports come from the term of a leader, the old configuration decides only
where it may, and what happens between two checks moves neither configuration
across its quorum. -/
def Steady (action : ReadonlyAction P) (node : ReadonlyNode P) : Prop :=
  match action with
  | .changeReadonlyConfig term peer readonly =>
      (term = node.currentTerm ↔ node.state = .leader) ∧
        (node.state = .leader → (node.changeReplicator peer readonly).OldDecides)
  | .resetCtx stopped => (node.stopReplicators stopped).OldDecides
  | .becomeLeader => ¬ node.becomeLeader.MajorityReadonly
  | .append lastLogIndex conf =>
      { node with lastLogIndex := lastLogIndex, conf := conf }.MajorityReadonly ↔
        node.MajorityReadonly
  | .enterReadonlyMode => node.enterReadonlyMode.MajorityReadonly ↔ node.MajorityReadonly
  | .leaveReadonlyMode => node.leaveReadonlyMode.MajorityReadonly ↔ node.MajorityReadonly
  | _ => True

theorem majorityReadonly_congr {node other : ReadonlyNode P} (conf : other.conf = node.conf)
    (members : ∀ peer, other.memberReadonly peer = node.memberReadonly peer) :
    other.MajorityReadonly ↔ node.MajorityReadonly := by
  have counts : other.memberReadonly = node.memberReadonly := funext members
  unfold MajorityReadonly BelowQuorum writableMembers
  rw [conf, counts]

theorem addReplicator_readonly (node : ReadonlyNode P) (added peer : P) :
    (node.addReplicator added).replicatorReadonly peer = node.replicatorReadonly peer := by
  unfold addReplicator
  cases found : node.replicators.lookup added with
  | some readonlyIndex => rfl
  | none =>
      simp only [Option.isSome_none, Bool.false_eq_true, if_false]
      unfold replicatorReadonly
      by_cases same : peer = added
      · subst same
        rw [found, List.lookup_cons_self]
        rfl
      · have skip : (peer == added) = false := by simpa using same
        rw [List.lookup_cons, skip]

theorem addReplicator_frame (node : ReadonlyNode P) (added : P) :
    (node.addReplicator added).serverId = node.serverId ∧
      (node.addReplicator added).conf = node.conf ∧
      (node.addReplicator added).nodeReadonly = node.nodeReadonly ∧
      (node.addReplicator added).state = node.state ∧
      (node.addReplicator added).majorityNodesReadonly = node.majorityNodesReadonly := by
  unfold addReplicator
  split_ifs
  · exact ⟨rfl, rfl, rfl, rfl, rfl⟩
  · exact ⟨rfl, rfl, rfl, rfl, rfl⟩

theorem addReplicator_majority (node : ReadonlyNode P) (added : P) :
    (node.addReplicator added).MajorityReadonly ↔ node.MajorityReadonly := by
  rcases addReplicator_frame node added with ⟨serverId, conf, nodeReadonly, _, _⟩
  apply majorityReadonly_congr conf
  intro peer
  unfold memberReadonly
  rw [serverId, nodeReadonly, addReplicator_readonly]

theorem foldl_addReplicator (peers : List P) (node : ReadonlyNode P) :
    (peers.foldl addReplicator node).state = node.state ∧
      (peers.foldl addReplicator node).majorityNodesReadonly = node.majorityNodesReadonly := by
  induction peers generalizing node with
  | nil => exact ⟨rfl, rfl⟩
  | cons peer rest ih =>
      rcases addReplicator_frame node peer with ⟨_, _, _, state, flag⟩
      rcases ih (node.addReplicator peer) with ⟨lastState, lastFlag⟩
      exact ⟨lastState.trans state, lastFlag.trans flag⟩

theorem checkMajority_frame (node : ReadonlyNode P) :
    node.checkMajorityNodesReadonly.state = node.state ∧
      (node.checkMajorityNodesReadonly.MajorityReadonly ↔ node.MajorityReadonly) := by
  unfold checkMajorityNodesReadonly
  split_ifs
  · exact ⟨rfl, majorityReadonly_congr rfl (fun _ => rfl)⟩
  · exact ⟨rfl, majorityReadonly_congr rfl (fun _ => rfl)⟩

theorem flagRight_check {node : ReadonlyNode P} (leads : node.state.leads = true)
    (decides : node.OldDecides) : FlagRight node.checkMajorityNodesReadonly := by
  rcases checkMajority_frame node with ⟨state, short⟩
  refine ⟨fun _ => ?_, fun follows => ?_⟩
  · exact ((checkMajority_iff node).mpr decides).trans short.symm
  · rw [state, leads] at follows
    cases follows

theorem FlagRight.keep {node after : ReadonlyNode P} (right : FlagRight node)
    (leads : after.state.leads = node.state.leads)
    (flag : after.majorityNodesReadonly = node.majorityNodesReadonly)
    (short : after.MajorityReadonly ↔ node.MajorityReadonly) : FlagRight after where
  leads := by
    intro leading
    rw [flag, short]
    exact right.leads (leads ▸ leading)
  follows := by
    intro following
    rw [flag]
    exact right.follows (leads ▸ following)

theorem FlagRight.stepDown {node : ReadonlyNode P} (right : FlagRight node) (term : Nat)
    (pending : Option (List P)) : FlagRight (node.stepDown term pending) := by
  unfold ReadonlyNode.stepDown
  by_cases active : node.state.isActive = true
  · rw [if_neg (not_not.mpr active)]
    refine ⟨fun leads => ?_, fun _ => rfl⟩
    cases pending with
    | none => cases leads
    | some stopped =>
        have state := (checkMajority_frame
          (({ node with state := .follower } : ReadonlyNode P).stopReplicators stopped)).1
        simp only [resetCtx, state] at leads
        cases leads
  · rw [if_pos active]
    exact right

theorem FlagRight.step {node after : ReadonlyNode P} {action : ReadonlyAction P}
    (right : FlagRight node) (allowed : allowed action node) (steady : Steady action node)
    (stepped : step action node = some after) : FlagRight after := by
  cases action with
  | electSelf =>
      cases stepped
      refine ⟨fun leads => Bool.noConfusion leads, fun _ => ?_⟩
      apply right.follows
      rcases allowed with follower | candidate
      · rw [follower]
        rfl
      · rw [candidate]
        rfl
  | becomeLeader =>
      cases stepped
      have candidate : node.state = .candidate := allowed
      have flag : node.becomeLeader.majorityNodesReadonly = false := by
        rw [becomeLeader, (foldl_addReplicator _ _).2]
        apply right.follows
        rw [candidate]
        rfl
      have state : node.becomeLeader.state = .leader := by
        rw [becomeLeader, (foldl_addReplicator _ _).1]
      refine ⟨fun _ => ?_, fun follows => ?_⟩
      · rw [flag]
        exact iff_of_false Bool.false_ne_true steady
      · rw [state] at follows
        cases follows
  | transferLeadership =>
      cases stepped
      have leader : node.state = .leader := allowed
      refine right.keep ?_ rfl (majorityReadonly_congr rfl (fun _ => rfl))
      rw [leader]
      rfl
  | handleTransferTimeout =>
      cases stepped
      have transferring : node.state = .transferring := allowed
      refine right.keep ?_ rfl (majorityReadonly_congr rfl (fun _ => rfl))
      rw [transferring]
      rfl
  | stepDown term pending =>
      cases stepped
      exact right.stepDown term pending
  | append lastLogIndex conf =>
      cases stepped
      exact right.keep rfl rfl steady
  | addReplicator peer =>
      cases stepped
      rcases addReplicator_frame node peer with ⟨_, _, _, state, flag⟩
      exact right.keep (congrArg State.leads state) flag (addReplicator_majority node peer)
  | resetCtx stopped =>
      cases stepped
      exact flagRight_check allowed steady
  | enterReadonlyMode =>
      cases stepped
      exact right.keep rfl rfl steady
  | leaveReadonlyMode =>
      cases stepped
      exact right.keep rfl rfl steady
  | changeReadonlyConfig term peer readonly =>
      cases stepped
      rcases steady with ⟨own, decides⟩
      unfold changeReadonlyConfig
      by_cases leader : node.state = .leader
      · rw [if_neg (fun refused => refused.2 leader)]
        apply flagRight_check _ (decides leader)
        change node.state.leads = true
        rw [leader]
        rfl
      · rw [if_pos ⟨fun same => leader (own.mp same), leader⟩]
        exact right

/-- In steady runs the flag of a leader is right after every step and a report of
another term, or one that comes while the node is no leader, changes nothing; any
check is right exactly when the old configuration may decide. -/
theorem majorityNodesReadonly_run {node : ReadonlyNode P}
    (reached : ((system P).restrict Steady).Reachable node) :
    (node.state.leads = true →
        (node.majorityNodesReadonly = true ↔ node.MajorityReadonly)) ∧
      (∀ term peer readonly,
        ((system P).restrict Steady).allowed (.changeReadonlyConfig term peer readonly) node →
          term ≠ node.currentTerm ∨ node.state ≠ .leader →
            (system P).step (.changeReadonlyConfig term peer readonly) node = some node) ∧
      ((node.checkMajorityNodesReadonly.majorityNodesReadonly = true ↔
        node.MajorityReadonly) ↔ node.OldDecides) := by
  have right : FlagRight node := by
    apply reached.invariant FlagRight
    · rintro start ⟨follower, flag, _⟩
      refine ⟨fun leads => ?_, fun _ => flag⟩
      rw [follower] at leads
      cases leads
    · intro action before after right allowed stepped
      exact right.step allowed.1 allowed.2 stepped
  refine ⟨right.leads, ?_, checkMajority_iff node⟩
  intro term peer readonly allowed stale
  have own : term = node.currentTerm ↔ node.state = .leader := allowed.2.1
  have refused : term ≠ node.currentTerm ∧ node.state ≠ .leader := by
    rcases stale with other | noLeader
    · exact ⟨other, fun leader => other (own.mpr leader)⟩
    · exact ⟨fun same => noLeader (own.mp same), noLeader⟩
  change some (node.changeReadonlyConfig term peer readonly) = some node
  rw [changeReadonlyConfig, if_pos refused]

def peersOf (peers : List Nat) : Configuration Nat := Configuration.ofList peers

/-- A follower whose last configuration is the joint one of a change from the
members 1, 4 and 5 to 1, 2 and 3. -/
def jointNode : ReadonlyNode Nat where
  serverId := 1
  conf := { conf := peersOf [1, 2, 3], oldConf := peersOf [1, 4, 5] }

def jointLeader (readonly : Nat → Nat) (flag : Bool) : ReadonlyNode Nat :=
  { jointNode with
    state := .leader
    currentTerm := 1
    majorityNodesReadonly := flag
    replicators := [(5, readonly 5), (4, readonly 4), (3, readonly 3), (2, readonly 2)] }

/-- One readonly member of the new configuration leaves the flag right. -/
theorem majorityNodesReadonly_joint :
    let leader := jointLeader (fun peer => if peer = 2 then 1 else 0) false
    leader.majorityNodesReadonly = true ↔ leader.MajorityReadonly := by
  intro leader
  have start : ((system Nat).restrict Steady).Reachable jointNode := .start ⟨rfl, rfl, rfl⟩
  have elected : ¬ ({ jointNode with state := .candidate, currentTerm := 1 } :
      ReadonlyNode Nat).becomeLeader.MajorityReadonly := by decide
  have follows : ((system Nat).restrict Steady).Follows
      [.electSelf, .becomeLeader, .changeReadonlyConfig 1 2 true] jointNode leader :=
    ⟨⟨Or.inl rfl, trivial⟩, _, rfl, ⟨rfl, elected⟩, _, rfl,
      ⟨trivial, by decide, fun _ => Or.inr (by decide)⟩, _, rfl, rfl⟩
  exact (majorityNodesReadonly_run (start.follows _ follows)).1 rfl

/-- The members 2 and 3 of the new configuration report that they are readonly,
and the old configuration, all writable, clears the flag. -/
theorem jointLeader_wrong :
    let leader := jointLeader (fun peer => if peer = 2 ∨ peer = 3 then 1 else 0) false
    (system Nat).Reachable leader ∧ leader.state = .leader ∧
      leader.majorityNodesReadonly = false ∧ leader.MajorityReadonly := by
  intro leader
  have start : (system Nat).Reachable jointNode := .start ⟨rfl, rfl, rfl⟩
  have follows : (system Nat).Follows
      [.electSelf, .becomeLeader, .changeReadonlyConfig 1 2 true, .changeReadonlyConfig 1 3 true]
      jointNode leader :=
    ⟨Or.inl rfl, _, rfl, rfl, _, rfl, trivial, _, rfl, trivial, _, rfl, rfl⟩
  exact ⟨start.follows _ follows, rfl, rfl, by decide⟩

end ReadonlyNode
end QuorumKit
