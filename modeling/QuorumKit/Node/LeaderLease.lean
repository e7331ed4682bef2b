/-
Leader leases, `LeaderLease` of `braft/lease.cpp`, and how a node reports them.

A lease has a mutex of its own, and each of its functions is one step.  The call
`get_leader_lease_status` reads the lease before it takes the mutex of the node; under
that mutex it renews a suspect lease and reads it again.  Other calls may read the
lease in between, but no other function that needs the mutex of the node.
-/

import QuorumKit.Library.TransitionSystem
import QuorumKit.Node.NodeImpl

namespace QuorumKit

structure LeaderLease where
  electionTimeoutMs : Nat
  lastActiveTimestamp : Nat := 0
  term : Nat := 0
  leaseEpoch : Nat := 0
deriving DecidableEq, Repr

namespace LeaderLease

inductive InternalState where
  | disabled
  | expired
  | notReady
  | valid
  | suspect
deriving DecidableEq, Repr

structure LeaseInfo where
  state : InternalState
  term : Nat := 0
  leaseEpoch : Nat := 0
deriving DecidableEq, Repr

def onLeaderStart (lease : LeaderLease) (term : Nat) : LeaderLease :=
  { lease with
    leaseEpoch := lease.leaseEpoch + 1
    term := term
    lastActiveTimestamp := 0 }

def onLeaderStop (lease : LeaderLease) : LeaderLease :=
  { lease with lastActiveTimestamp := 0, term := 0 }

def onLeaseStart (lease : LeaderLease) (expectLeaseEpoch lastActiveTimestamp : Nat) :
    LeaderLease :=
  if lease.term = 0 ∨ expectLeaseEpoch ≠ lease.leaseEpoch then lease
  else { lease with lastActiveTimestamp := lastActiveTimestamp }

def renew (lease : LeaderLease) (lastActiveTimestamp : Nat) : LeaderLease :=
  { lease with lastActiveTimestamp := lastActiveTimestamp }

def resetElectionTimeoutMs (lease : LeaderLease) (electionTimeoutMs : Nat) : LeaderLease :=
  { lease with electionTimeoutMs := electionTimeoutMs }

/-- `get_lease_info` at the time `now`; `enabled` is `raft_enable_leader_lease`. -/
def getLeaseInfo (lease : LeaderLease) (enabled : Bool) (now : Nat) : LeaseInfo :=
  if ¬ enabled then { state := .disabled }
  else if lease.term = 0 then { state := .expired }
  else if lease.lastActiveTimestamp = 0 then { state := .notReady }
  else if now < lease.lastActiveTimestamp + lease.electionTimeoutMs then
    { state := .valid, term := lease.term, leaseEpoch := lease.leaseEpoch }
  else { state := .suspect }

theorem getLeaseInfo_valid {lease : LeaderLease} {enabled : Bool} {now : Nat}
    (valid : (lease.getLeaseInfo enabled now).state = .valid) :
    (lease.getLeaseInfo enabled now).leaseEpoch = lease.leaseEpoch ∧
      lease.lastActiveTimestamp ≠ 0 := by
  unfold getLeaseInfo at valid ⊢
  split_ifs at valid ⊢ with off stopped unready fresh
  exact ⟨rfl, unready⟩

theorem getLeaseInfo_suspect {lease : LeaderLease} {enabled : Bool} {now : Nat}
    (suspect : (lease.getLeaseInfo enabled now).state = .suspect) :
    lease.lastActiveTimestamp ≠ 0 := by
  unfold getLeaseInfo at suspect
  split_ifs at suspect with off stopped unready fresh
  exact unready

end LeaderLease

/-- `LeaseState` of `raft.h`. -/
inductive LeaseState where
  | disabled
  | expired
  | notReady
  | valid
deriving DecidableEq, Repr

structure LeaderLeaseStatus where
  state : LeaseState
  term : Nat := 0
  leaseEpoch : Nat := 0
deriving DecidableEq, Repr

structure LeasedNode where
  state : State := .follower
  currentTerm : Nat
  lease : LeaderLease
  /-- `raft_enable_leader_lease`. -/
  enabled : Bool
  /-- `monotonic_time_ms`. -/
  now : Nat := 0
  /-- Calls of `get_leader_lease_status` that found a suspect lease and wait for the
  mutex of the node, with the epoch of that lease. -/
  suspects : List Nat := []
  /-- Such a call holds the mutex and has renewed the lease. -/
  renewing : Bool := false
  /-- What was reported, newest first. -/
  statuses : List LeaderLeaseStatus := []
  /-- The epochs for which `on_lease_start` was called. -/
  started : List Nat := []

namespace LeasedNode

def report (node : LeasedNode) (status : LeaderLeaseStatus) : LeasedNode :=
  { node with statuses := status :: node.statuses }

/-- The first part of `get_leader_lease_status`. -/
def readLease (node : LeasedNode) : LeasedNode :=
  let info := node.lease.getLeaseInfo node.enabled node.now
  match info.state with
  | .disabled => node.report { state := .disabled }
  | .expired => node.report { state := .expired }
  | .notReady => node.report { state := .notReady }
  | .valid => node.report { state := .valid, term := info.term, leaseEpoch := info.leaseEpoch }
  | .suspect => { node with suspects := node.suspects ++ [node.lease.leaseEpoch] }

/-- The mutex is taken, and the lease of a leader is renewed with the result of
`last_leader_active_timestamp`. -/
def lockAndRenew (node : LeasedNode) (position lastActiveTimestamp : Nat) : Option LeasedNode :=
  if position < node.suspects.length then
    let taken := { node with suspects := node.suspects.eraseIdx position }
    if node.state ≠ .leader then some (taken.report { state := .expired })
    else some { taken with lease := node.lease.renew lastActiveTimestamp, renewing := true }
  else none

/-- `step_down`, as far as the lease is concerned. -/
def stepDown (node : LeasedNode) (term : Nat) : LeasedNode :=
  if ¬ node.state.isActive then node
  else
    { node with
      lease := if node.state = .leader then node.lease.onLeaderStop else node.lease
      state := .follower
      currentTerm := max node.currentTerm term }

/-- The rest of `get_leader_lease_status`. -/
def readAgain (node : LeasedNode) : Option LeasedNode :=
  if node.renewing then
    let info := node.lease.getLeaseInfo node.enabled node.now
    let unlocked := { node with renewing := false }
    some
      (if info.state ≠ .valid ∧ info.state ≠ .disabled then
        (unlocked.stepDown node.currentTerm).report { state := .expired }
      else if info.state = .valid then
        unlocked.report { state := .valid, term := info.term, leaseEpoch := info.leaseEpoch }
      else unlocked.report { state := .disabled })
  else none

/-- The state that `elect_self` sets. -/
def electSelf (node : LeasedNode) : LeasedNode :=
  { node with state := .candidate, currentTerm := node.currentTerm + 1 }

def becomeLeader (node : LeasedNode) : Option LeasedNode :=
  if node.state = .candidate then
    some { node with state := .leader, lease := node.lease.onLeaderStart node.currentTerm }
  else none

def transferLeadershipTo (node : LeasedNode) : Option LeasedNode :=
  if node.state = .leader then
    some { node with state := .transferring, lease := node.lease.onLeaderStop }
  else none

def handleTransferTimeout (node : LeasedNode) (term : Nat) : LeasedNode :=
  if term = node.currentTerm ∧ node.state = .transferring then
    { node with state := .leader, lease := node.lease.onLeaderStart term }
  else node

/-- `leader_lease_start`, from the FSM caller or from `ConfigurationChangeDone`. -/
def leaderLeaseStart (node : LeasedNode) (leaseEpoch lastActiveTimestamp : Nat) : LeasedNode :=
  if node.state = .leader then
    { node with
      lease := node.lease.onLeaseStart leaseEpoch lastActiveTimestamp
      started := leaseEpoch :: node.started }
  else node

/-- The calls under the mutex of the node come with the values that they compute from
the replicators. -/
inductive Action where
  | electSelf
  | becomeLeader
  | stepDown (term : Nat)
  | transferLeadershipTo
  | handleTransferTimeout (term : Nat)
  | leaderLeaseStart (leaseEpoch lastActiveTimestamp : Nat)
  | resetElectionTimeoutMs (electionTimeoutMs : Nat)
  | readLease
  | lockAndRenew (position lastActiveTimestamp : Nat)
  | readAgain
  | tick (elapsed : Nat)
  | setEnabled (enabled : Bool)

def step (action : Action) (node : LeasedNode) : Option LeasedNode :=
  match action with
  | .electSelf => some node.electSelf
  | .becomeLeader => node.becomeLeader
  | .stepDown term => some (node.stepDown term)
  | .transferLeadershipTo => node.transferLeadershipTo
  | .handleTransferTimeout term => some (node.handleTransferTimeout term)
  | .leaderLeaseStart leaseEpoch lastActiveTimestamp =>
      some (node.leaderLeaseStart leaseEpoch lastActiveTimestamp)
  | .resetElectionTimeoutMs electionTimeoutMs =>
      some { node with lease := node.lease.resetElectionTimeoutMs electionTimeoutMs }
  | .readLease => some node.readLease
  | .lockAndRenew position lastActiveTimestamp => node.lockAndRenew position lastActiveTimestamp
  | .readAgain => node.readAgain
  | .tick elapsed => some { node with now := node.now + elapsed }
  | .setEnabled enabled => some { node with enabled := enabled }

def Allowed (action : Action) (node : LeasedNode) : Prop :=
  match action with
  | .electSelf => node.renewing = false ∧ (node.state = .follower ∨ node.state = .candidate)
  | .readLease => True
  | .readAgain => True
  | .tick _ => True
  | .setEnabled _ => True
  | _ => node.renewing = false

structure Initial (node : LeasedNode) : Prop where
  state : node.state = .follower
  lease : ∃ electionTimeoutMs, node.lease = { electionTimeoutMs := electionTimeoutMs }
  suspects : node.suspects = []
  renewing : node.renewing = false
  statuses : node.statuses = []
  started : node.started = []

def system : TransitionSystem LeasedNode Action where
  init := Initial
  allowed := Allowed
  step := step

def LeaseStarted (node : LeasedNode) : Prop :=
  ∀ status ∈ node.statuses, status.state = .valid → status.leaseEpoch ∈ node.started

/-- A leader's lease is renewed only in the epoch in which it was found suspect, or
once it is ready. -/
def RenewsReady (action : Action) (node : LeasedNode) : Prop :=
  match action with
  | .lockAndRenew position _ =>
      node.state = .leader → node.suspects[position]? = some node.lease.leaseEpoch ∨
        node.lease.lastActiveTimestamp ≠ 0
  | _ => True

structure Started (node : LeasedNode) : Prop where
  ready : node.lease.lastActiveTimestamp ≠ 0 → node.lease.leaseEpoch ∈ node.started
  suspects : ∀ leaseEpoch ∈ node.suspects, leaseEpoch ∈ node.started
  reported : LeaseStarted node

variable {node node' : LeasedNode}

theorem Started.report (invariant : Started node) {status : LeaderLeaseStatus}
    (started : status.state = .valid → status.leaseEpoch ∈ node.started) :
    Started (node.report status) := by
  refine { invariant with reported := ?_ }
  intro other member valid
  rcases List.mem_cons.mp member with same | former
  · subst same
    exact started valid
  · exact invariant.reported other former valid

theorem Started.restart (invariant : Started node) (lease : LeaderLease)
    (restarted : lease.lastActiveTimestamp = 0 ∨ lease = node.lease) (state : State)
    (currentTerm : Nat) :
    Started { node with lease := lease, state := state, currentTerm := currentTerm } := by
  refine { invariant with ready := ?_ }
  intro ready
  rcases restarted with waiting | same
  · exact absurd waiting ready
  · subst same
    exact invariant.ready ready

theorem Started.stepDown (invariant : Started node) (term : Nat) : Started (node.stepDown term) := by
  unfold LeasedNode.stepDown
  split
  · exact invariant
  · refine invariant.restart _ ?_ _ _
    split
    · exact Or.inl rfl
    · exact Or.inr rfl

theorem Started.readLease (invariant : Started node) : Started node.readLease := by
  unfold LeasedNode.readLease
  simp only
  split
  · exact invariant.report (fun valid => by contradiction)
  · exact invariant.report (fun valid => by contradiction)
  · exact invariant.report (fun valid => by contradiction)
  · rename_i valid
    obtain ⟨epoch, ready⟩ := LeaderLease.getLeaseInfo_valid valid
    refine invariant.report ?_
    intro _
    change (node.lease.getLeaseInfo node.enabled node.now).leaseEpoch ∈ node.started
    rw [epoch]
    exact invariant.ready ready
  · rename_i suspect
    refine { invariant with suspects := ?_ }
    intro leaseEpoch member
    rcases List.mem_append.mp member with former | new
    · exact invariant.suspects leaseEpoch former
    · rw [List.mem_singleton.mp new]
      exact invariant.ready (LeaderLease.getLeaseInfo_suspect suspect)

theorem Started.lockAndRenew (invariant : Started node) {position lastActiveTimestamp : Nat}
    (condition : RenewsReady (.lockAndRenew position lastActiveTimestamp) node)
    (stepped : node.lockAndRenew position lastActiveTimestamp = some node') : Started node' := by
  unfold LeasedNode.lockAndRenew at stepped
  have taken : Started { node with suspects := node.suspects.eraseIdx position } :=
    { invariant with
      suspects := fun leaseEpoch member =>
        invariant.suspects leaseEpoch (List.mem_of_mem_eraseIdx member) }
  split at stepped
  · simp only at stepped
    split at stepped
    · obtain rfl := Option.some.inj stepped
      exact taken.report (fun valid => by contradiction)
    · rename_i leads
      obtain rfl := Option.some.inj stepped
      refine { taken with ready := ?_ }
      intro _
      rcases condition (not_not.mp leads) with same | ready
      · exact invariant.suspects _ (List.mem_of_getElem? same)
      · exact invariant.ready ready
  · contradiction

theorem Started.readAgain (invariant : Started node) (stepped : node.readAgain = some node') :
    Started node' := by
  unfold LeasedNode.readAgain at stepped
  have unlocked : Started { node with renewing := false } := { invariant with }
  split at stepped
  · obtain rfl := Option.some.inj stepped
    split
    · exact (unlocked.stepDown node.currentTerm).report (fun valid => by contradiction)
    · split
      · rename_i valid
        obtain ⟨epoch, ready⟩ := LeaderLease.getLeaseInfo_valid valid
        refine unlocked.report ?_
        intro _
        change (node.lease.getLeaseInfo node.enabled node.now).leaseEpoch ∈ node.started
        rw [epoch]
        exact invariant.ready ready
      · exact unlocked.report (fun valid => by contradiction)
  · contradiction

theorem Started.leaderLeaseStart (invariant : Started node) (leaseEpoch lastActiveTimestamp : Nat) :
    Started (node.leaderLeaseStart leaseEpoch lastActiveTimestamp) := by
  unfold LeasedNode.leaderLeaseStart
  split
  · constructor
    · change (node.lease.onLeaseStart leaseEpoch lastActiveTimestamp).lastActiveTimestamp ≠ 0 →
        (node.lease.onLeaseStart leaseEpoch lastActiveTimestamp).leaseEpoch ∈
          leaseEpoch :: node.started
      unfold LeaderLease.onLeaseStart
      split
      · exact fun ready => List.mem_cons_of_mem _ (invariant.ready ready)
      · rename_i accepted
        rw [not_or, not_not] at accepted
        intro _
        exact List.mem_cons.mpr (Or.inl accepted.2.symm)
    · exact fun epoch member => List.mem_cons_of_mem _ (invariant.suspects epoch member)
    · exact fun status member valid =>
        List.mem_cons_of_mem _ (invariant.reported status member valid)
  · exact invariant

theorem Started.step {action : Action} (invariant : Started node)
    (condition : RenewsReady action node) (stepped : LeasedNode.step action node = some node') :
    Started node' := by
  cases action with
  | electSelf =>
      obtain rfl := Option.some.inj stepped
      exact invariant.restart _ (Or.inr rfl) _ _
  | becomeLeader =>
      simp only [LeasedNode.step, LeasedNode.becomeLeader] at stepped
      split at stepped
      · obtain rfl := Option.some.inj stepped
        exact invariant.restart _ (Or.inl rfl) _ _
      · contradiction
  | stepDown term =>
      obtain rfl := Option.some.inj stepped
      exact invariant.stepDown term
  | transferLeadershipTo =>
      simp only [LeasedNode.step, LeasedNode.transferLeadershipTo] at stepped
      split at stepped
      · obtain rfl := Option.some.inj stepped
        exact invariant.restart _ (Or.inl rfl) _ _
      · contradiction
  | handleTransferTimeout term =>
      obtain rfl := Option.some.inj stepped
      unfold LeasedNode.handleTransferTimeout
      split
      · exact invariant.restart _ (Or.inl rfl) _ _
      · exact invariant
  | leaderLeaseStart leaseEpoch lastActiveTimestamp =>
      obtain rfl := Option.some.inj stepped
      exact invariant.leaderLeaseStart leaseEpoch lastActiveTimestamp
  | resetElectionTimeoutMs electionTimeoutMs =>
      obtain rfl := Option.some.inj stepped
      exact { invariant with }
  | readLease =>
      obtain rfl := Option.some.inj stepped
      exact invariant.readLease
  | lockAndRenew position lastActiveTimestamp => exact invariant.lockAndRenew condition stepped
  | readAgain => exact invariant.readAgain stepped
  | tick elapsed =>
      obtain rfl := Option.some.inj stepped
      exact { invariant with }
  | setEnabled enabled =>
      obtain rfl := Option.some.inj stepped
      exact { invariant with }

theorem Initial.invariant (initial : Initial node) : Started node := by
  obtain ⟨electionTimeoutMs, lease⟩ := initial.lease
  constructor
  · intro ready
    rw [lease] at ready
    exact absurd rfl ready
  · rw [initial.suspects]
    exact fun _ member => absurd member List.not_mem_nil
  · unfold LeaseStarted
    rw [initial.statuses]
    exact fun _ member => absurd member List.not_mem_nil

/-- In a run that meets the condition, only a started lease is reported valid. -/
theorem lease_started (reached : (system.restrict RenewsReady).Reachable node) :
    LeaseStarted node := by
  have invariant : Started node := by
    refine reached.invariant Started ?_ ?_
    · exact fun _ initial => initial.invariant
    · exact fun _ _ _ former allowed stepped => former.step allowed.2 stepped
  exact invariant.reported

def freshLeased : LeasedNode :=
  { currentTerm := 0, lease := { electionTimeoutMs := 1000 }, enabled := true, now := 1 }

theorem freshLeased_initial : Initial freshLeased :=
  ⟨rfl, ⟨1000, rfl⟩, rfl, rfl, rfl, rfl⟩

def reportedOnce : LeasedNode :=
  { freshLeased with
    state := .leader
    currentTerm := 1
    lease := { electionTimeoutMs := 1000, lastActiveTimestamp := 1, term := 1, leaseEpoch := 1 }
    statuses := [{ state := .valid, term := 1, leaseEpoch := 1 }]
    started := [1] }

theorem lease_started_reportedOnce :
    (⟨.valid, 1, 1⟩ : LeaderLeaseStatus) ∈ reportedOnce.statuses ∧ LeaseStarted reportedOnce := by
  have follows : (system.restrict RenewsReady).Follows
      [.electSelf, .becomeLeader, .leaderLeaseStart 1 1, .readLease] freshLeased reportedOnce :=
    ⟨⟨⟨rfl, Or.inl rfl⟩, trivial⟩, _, rfl, ⟨rfl, trivial⟩, _, rfl, ⟨rfl, trivial⟩, _, rfl,
      ⟨trivial, trivial⟩, _, rfl, rfl⟩
  exact ⟨by decide, lease_started (.follows _ (.start freshLeased_initial) follows)⟩

def renewedEarly : LeasedNode :=
  { freshLeased with
    state := .leader
    currentTerm := 2
    lease :=
      { electionTimeoutMs := 1000, lastActiveTimestamp := 2001, term := 2, leaseEpoch := 2 }
    now := 2001
    statuses := [{ state := .valid, term := 2, leaseEpoch := 2 }]
    started := [1] }

theorem renewed_early : ∃ node : LeasedNode, system.Reachable node ∧ ¬ LeaseStarted node := by
  have follows : system.Follows
      [.electSelf, .becomeLeader, .leaderLeaseStart 1 1, .tick 2000, .readLease, .stepDown 1,
        .electSelf, .becomeLeader, .lockAndRenew 0 2001, .readAgain] freshLeased renewedEarly :=
    ⟨⟨rfl, Or.inl rfl⟩, _, rfl, rfl, _, rfl, rfl, _, rfl, trivial, _, rfl, trivial, _, rfl, rfl, _,
      rfl, ⟨rfl, Or.inl rfl⟩, _, rfl, rfl, _, rfl, rfl, _, rfl, trivial, _, rfl, rfl⟩
  refine ⟨renewedEarly, .follows _ (.start freshLeased_initial) follows, ?_⟩
  intro started
  exact absurd (started _ List.mem_cons_self rfl) (by decide)

end LeasedNode

end QuorumKit
