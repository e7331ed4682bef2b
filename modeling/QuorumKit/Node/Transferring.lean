/-
A node that hands over its leadership refuses everything that would append.

Only `transfer_leadership_to` brings a node into the state of a transfer.  There it answers
tasks and changes of the configuration with an error, and no change of the configuration is
under way, so that its log stays as it is.
-/

import QuorumKit.Node.ConfigurationRuns

namespace QuorumKit

variable {P D C : Type} [DecidableEq P] [Inhabited D]

namespace NodeImpl

variable {node after : NodeImpl P D C}

def Stays (node after : NodeImpl P D C) : Prop :=
  after.state = node.state ∨ after.state = .follower

omit [DecidableEq P] [Inhabited D] in
theorem Stays.trans {middle : NodeImpl P D C} (first : Stays node middle)
    (second : Stays middle after) : Stays node after := by
  rcases second with same | follower
  · unfold Stays
    rw [same]
    exact first
  · exact Or.inr follower

omit [DecidableEq P] [Inhabited D] in
theorem stays_stepDown (node : NodeImpl P D C) (term : Nat) : Stays node (node.stepDown term) := by
  unfold NodeImpl.stepDown
  by_cases active : node.state.isActive = true
  · rw [if_neg (not_not.mpr active)]
    exact Or.inr (resetCtx_frame _ none).2.2
  · rw [if_pos active]
    exact Or.inl rfl

omit [DecidableEq P] [Inhabited D] in
theorem stays_appendPendingTask {conf : Configuration P} {oldConf : Option (Configuration P)}
    {entry : LogEntry P D} {done : Done C}
    (stepped : node.appendPendingTask conf oldConf entry done = some after) :
    after.state = node.state := by
  obtain ⟨ballotBox, _, rfl⟩ := Option.map_eq_some_iff.mp stepped
  rfl

omit [DecidableEq P] [Inhabited D] in
theorem stays_applyTasks (tasks : List (Task D C)) :
    ∀ {node : NodeImpl P D C}, node.applyTasks tasks = some after → after.state = node.state := by
  induction tasks with
  | nil =>
      intro node stepped
      cases stepped
      rfl
  | cons task rest ih =>
      intro node stepped
      unfold NodeImpl.applyTasks at stepped
      by_cases otherTerm : task.expectedTerm.any (· ≠ node.currentTerm) = true
      · rw [if_pos otherTerm] at stepped
        have same := ih stepped
        exact same
      · rw [if_neg otherTerm] at stepped
        obtain ⟨middle, appended, stepped⟩ := Option.bind_eq_some_iff.mp stepped
        exact (ih stepped).trans (stays_appendPendingTask appended)

theorem stays_unsafeApplyConfiguration {newConf : Configuration P}
    {oldConf : Option (Configuration P)} {leaderStart : Bool}
    (stepped : node.unsafeApplyConfiguration newConf oldConf leaderStart = some after) :
    after.state = node.state := by
  unfold NodeImpl.unsafeApplyConfiguration at stepped
  split_ifs at stepped with busy
  obtain ⟨middle, appended, rfl⟩ := Option.map_eq_some_iff.mp stepped
  rw [(checkAndSetConfiguration_frame _).2.2]
  have same := stays_appendPendingTask appended
  exact same

theorem stays_nextStage (stepped : node.nextStage = some after) : Stays node after := by
  unfold NodeImpl.nextStage at stepped
  simp only at stepped
  cases stage : node.confCtx.stage with
  | none =>
      rw [stage] at stepped
      cases stepped
  | catchingUp =>
      rw [stage] at stepped
      simp only at stepped
      split_ifs at stepped with several
      · have same := stays_unsafeApplyConfiguration stepped
        exact Or.inl same
      · have same := stays_unsafeApplyConfiguration stepped
        exact Or.inl same
  | joint =>
      rw [stage] at stepped
      have same := stays_unsafeApplyConfiguration stepped
      exact Or.inl same
  | stable =>
      rw [stage] at stepped
      cases stepped
      have reset : Stays node (node.resetCtx (some 0)) := Or.inl (resetCtx_frame node _).2.2
      split_ifs with remains
      · exact reset
      · exact reset.trans (stays_stepDown _ _)

theorem stays_ctxOnCaughtUp {version : Nat} {peer : P} {succ : Bool}
    (stepped : node.ctxOnCaughtUp version peer succ = some after) : Stays node after := by
  unfold NodeImpl.ctxOnCaughtUp at stepped
  simp only at stepped
  split_ifs at stepped with otherVersion otherStage succeeds last
  · cases stepped
    exact Or.inl rfl
  · have stays := stays_nextStage stepped
    exact stays
  · cases stepped
    exact Or.inl rfl
  · cases stepped
    exact Or.inl (resetCtx_frame node _).2.2

theorem stays_waitCaughtUp {waits : P → Bool} (peers : List P) :
    ∀ {node : NodeImpl P D C}, node.waitCaughtUp waits peers = some after → Stays node after := by
  induction peers with
  | nil =>
      intro node stepped
      cases stepped
      exact Or.inl rfl
  | cons peer rest ih =>
      intro node stepped
      unfold NodeImpl.waitCaughtUp at stepped
      by_cases waiting : waits peer = true
      · rw [if_pos waiting] at stepped
        have stays := ih stepped
        exact stays
      · rw [if_neg waiting] at stepped
        exact stays_ctxOnCaughtUp stepped

theorem stays_start {oldConf newConf : Configuration P} {done : Nat} {waits : P → Bool}
    (stepped : node.start oldConf newConf done waits = some after) : Stays node after := by
  unfold NodeImpl.start at stepped
  split_ifs at stepped with busy
  simp only at stepped
  split_ifs at stepped with nothing
  · have stays := stays_nextStage stepped
    exact stays
  · have stays := stays_waitCaughtUp _ stepped
    exact stays

theorem stays_registerConfChange {newConf : Configuration P} {waits : P → Bool}
    (stepped : node.registerConfChange newConf waits = some after) : Stays node after := by
  unfold NodeImpl.registerConfChange at stepped
  simp only at stepped
  by_cases refused : node.state ≠ .leader
  · rw [if_pos refused] at stepped
    cases stepped
    exact Or.inl rfl
  rw [if_neg refused] at stepped
  by_cases busy : node.confCtx.isBusy = true
  · rw [if_pos busy] at stepped
    cases stepped
    exact Or.inl rfl
  rw [if_neg busy] at stepped
  by_cases same : node.conf.conf.equals newConf = true
  · rw [if_pos same] at stepped
    cases stepped
    exact Or.inl rfl
  · rw [if_neg same] at stepped
    have stays := stays_start stepped
    exact stays

theorem stays_flush {conf oldConf : Configuration P}
    (stepped : node.flush conf oldConf = some after) : after.state = node.state := by
  unfold NodeImpl.flush at stepped
  split_ifs at stepped with busy stable
  · have same := stays_unsafeApplyConfiguration stepped
    exact same
  · have same := stays_unsafeApplyConfiguration stepped
    exact same

theorem stays_onConfigurationChangeDone {term : Nat}
    (stepped : node.onConfigurationChangeDone term = some after) : Stays node after := by
  unfold NodeImpl.onConfigurationChangeDone at stepped
  split_ifs at stepped with refused
  · cases stepped
    exact Or.inl rfl
  · exact stays_nextStage stepped

theorem stays_hand {iter : IteratorImpl P D (PendingClosure P D C)} {entry : LogEntry P D}
    (stepped : node.hand iter entry = some after) : Stays node after := by
  unfold NodeImpl.hand at stepped
  cases isDone : iter.done with
  | none =>
      rw [isDone] at stepped
      cases stepped
      exact Or.inl rfl
  | some closure =>
      rw [isDone] at stepped
      simp only at stepped
      cases kind : closure.done with
      | task done =>
          rw [kind] at stepped
          cases stepped
          exact Or.inl rfl
      | configurationChange term leaderStart =>
          rw [kind] at stepped
          have stays := stays_onConfigurationChangeDone stepped
          exact stays

def Action.Transfers (action : Action P D C) : Prop :=
  match action with
  | .transferLeadership => True
  | .handleTransferTimeout _ => True
  | _ => False

omit [DecidableEq P] [Inhabited D] in
theorem Stays.not_transferring (stays : Stays node after) (other : node.state ≠ .transferring) :
    after.state ≠ .transferring := by
  rcases stays with same | follower
  · rw [same]
    exact other
  · rw [follower]
    intro transferring
    cases transferring

theorem step_not_transferring {action : Action P D C} (other : ¬ action.Transfers)
    (notTransferring : node.state ≠ .transferring) (stepped : node.step action = some after) :
    after.state ≠ .transferring := by
  cases action with
  | transferLeadership => exact absurd trivial other
  | handleTransferTimeout term => exact absurd trivial other
  | electSelf =>
      cases stepped
      unfold NodeImpl.electSelf
      split_ifs with member
      · intro transferring
        cases transferring
      · exact notTransferring
  | becomeLeader =>
      change node.becomeLeader = some after at stepped
      unfold NodeImpl.becomeLeader at stepped
      split_ifs at stepped with candidate
      obtain ⟨ballotBox, _, stepped⟩ := Option.bind_eq_some_iff.mp stepped
      obtain ⟨closureQueue, _, stepped⟩ := Option.bind_eq_some_iff.mp stepped
      rw [stays_flush stepped]
      intro transferring
      cases transferring
  | stepDown term =>
      cases stepped
      exact (stays_stepDown node term).not_transferring notTransferring
  | onError =>
      cases stepped
      unfold NodeImpl.onError
      have stopped : Stays node
          (if node.state.isActive then node.stepDown node.currentTerm else node) := by
        split_ifs with active
        · exact stays_stepDown node _
        · exact Or.inl rfl
      simp only
      by_cases follower : (if node.state.isActive then node.stepDown node.currentTerm
          else node).state = .follower
      · rw [if_pos follower]
        intro transferring
        cases transferring
      · rw [if_neg follower]
        exact stopped.not_transferring notTransferring
  | apply tasks rejectNewUserLogs =>
      change node.apply tasks rejectNewUserLogs = some after at stepped
      unfold NodeImpl.apply at stepped
      by_cases refused : node.state ≠ .leader ∨ rejectNewUserLogs = true
      · rw [if_pos refused] at stepped
        cases stepped
        exact notTransferring
      · rw [if_neg refused] at stepped
        obtain ⟨middle, applied, rfl⟩ := Option.map_eq_some_iff.mp stepped
        rw [(checkAndSetConfiguration_frame middle).2.2, stays_applyTasks tasks applied]
        exact notTransferring
  | addPeer peer waits =>
      exact (stays_registerConfChange stepped).not_transferring notTransferring
  | removePeer peer waits =>
      exact (stays_registerConfChange stepped).not_transferring notTransferring
  | changePeers newPeers waits =>
      exact (stays_registerConfChange stepped).not_transferring notTransferring
  | onCaughtUp position status =>
      change node.onCaughtUp position status = some after at stepped
      unfold NodeImpl.onCaughtUp at stepped
      cases found : node.caughtUps[position]? with
      | none =>
          rw [found] at stepped
          cases stepped
      | some caughtUp =>
          rw [found] at stepped
          simp only at stepped
          by_cases refused : node.state ≠ .leader ∨ caughtUp.term ≠ node.currentTerm
          · rw [if_pos refused] at stepped
            cases stepped
            exact notTransferring
          · rw [if_neg refused] at stepped
            cases status with
            | ok =>
                have stays := stays_ctxOnCaughtUp stepped
                exact stays.not_transferring notTransferring
            | retried =>
                cases stepped
                exact notTransferring
            | failed =>
                have stays := stays_ctxOnCaughtUp stepped
                exact stays.not_transferring notTransferring
  | commitAt firstLogIndex lastLogIndex peer =>
      unfold NodeImpl.step at stepped
      obtain ⟨ballotBox, _, rfl⟩ := Option.map_eq_some_iff.mp stepped
      exact notTransferring
  | setLastCommittedIndex lastCommittedIndex =>
      unfold NodeImpl.step at stepped
      obtain ⟨ballotBox, _, rfl⟩ := Option.map_eq_some_iff.mp stepped
      exact notTransferring
  | receive cut entries =>
      cases stepped
      unfold NodeImpl.receive
      rw [(checkAndSetConfiguration_frame _).2.2]
      exact notTransferring
  | startCommitted committedIndex =>
      change node.startCommitted committedIndex = some after at stepped
      unfold NodeImpl.startCommitted at stepped
      split_ifs at stepped with applying old
      · cases stepped
        exact notTransferring
      · obtain ⟨popped, _, rfl⟩ := Option.map_eq_some_iff.mp stepped
        exact notTransferring
  | nextCommitted =>
      change node.nextCommitted = some after at stepped
      unfold NodeImpl.nextCommitted at stepped
      cases applying : node.iterator with
      | none =>
          rw [applying] at stepped
          cases stepped
      | some iter =>
          rw [applying] at stepped
          simp only at stepped
          split_ifs at stepped with good
          cases current : iter.curEntry with
          | none =>
              rw [current] at stepped
              cases stepped
          | some entry =>
              rw [current] at stepped
              obtain ⟨middle, handed, rfl⟩ := Option.map_eq_some_iff.mp stepped
              have stays := stays_hand handed
              exact stays.not_transferring notTransferring
  | finishCommitted =>
      change node.finishCommitted = some after at stepped
      unfold NodeImpl.finishCommitted at stepped
      cases applying : node.iterator with
      | none =>
          rw [applying] at stepped
          cases stepped
      | some iter =>
          rw [applying] at stepped
          simp only at stepped
          by_cases good : iter.isGood = true
          · rw [if_pos good] at stepped
            cases stepped
          · rw [if_neg good] at stepped
            cases stepped
            exact notTransferring

omit [DecidableEq P] [Inhabited D] in
theorem apply_transferring (transferring : node.state = .transferring) (tasks : List (Task D C))
    (rejectNewUserLogs : Bool) :
    node.apply tasks rejectNewUserLogs =
      some { node with rejected := tasks.map (fun task => (task.done, EBUSY)) ++ node.rejected } := by
  unfold NodeImpl.apply
  rw [if_pos (Or.inl (by simp [transferring]))]
  simp [transferring]

theorem registerConfChange_transferring (transferring : node.state = .transferring)
    (newConf : Configuration P) (waits : P → Bool) :
    node.registerConfChange newConf waits =
      some { node with
        requests := node.requests + 1
        responses := (node.requests, EBUSY) :: node.responses } := by
  unfold NodeImpl.registerConfChange
  simp [transferring]

theorem onConfigurationChangeDone_log (idle : node.confCtx.stage = .none) {term : Nat}
    (stepped : node.onConfigurationChangeDone term = some after) : after.log = node.log := by
  unfold NodeImpl.onConfigurationChangeDone at stepped
  split_ifs at stepped with refused
  · cases stepped
    rfl
  · unfold NodeImpl.nextStage at stepped
    simp only [idle] at stepped
    cases stepped

theorem hand_log (idle : node.confCtx.stage = .none)
    {iter : IteratorImpl P D (PendingClosure P D C)} {entry : LogEntry P D}
    (stepped : node.hand iter entry = some after) : after.log = node.log := by
  unfold NodeImpl.hand at stepped
  cases isDone : iter.done with
  | none =>
      rw [isDone] at stepped
      cases stepped
      rfl
  | some closure =>
      rw [isDone] at stepped
      simp only at stepped
      cases kind : closure.done with
      | task done =>
          rw [kind] at stepped
          cases stepped
          rfl
      | configurationChange term leaderStart =>
          rw [kind] at stepped
          change NodeImpl.onConfigurationChangeDone _ term = some after at stepped
          refine (onConfigurationChangeDone_log ?_ stepped).trans rfl
          exact idle

omit [DecidableEq P] [Inhabited D] in
theorem resetCtx_log (node : NodeImpl P D C) (status : Option Int) :
    (node.resetCtx status).log = node.log := by
  unfold NodeImpl.resetCtx
  split_ifs <;> rfl

omit [DecidableEq P] [Inhabited D] in
theorem stepDown_log (node : NodeImpl P D C) (term : Nat) : (node.stepDown term).log = node.log := by
  unfold NodeImpl.stepDown
  by_cases active : node.state.isActive = true
  · rw [if_neg (not_not.mpr active)]
    change (NodeImpl.resetCtx _ none).log = node.log
    rw [resetCtx_log]
    by_cases leads : node.state.leads = true
    · rw [if_pos leads]
      rfl
    · rw [if_neg leads]
      rfl
  · rw [if_pos active]

theorem step_transferring {action : Action P D C} (transferring : node.state = .transferring)
    (idle : node.confCtx.stage = .none) (allowed : Allowed action node)
    (stepped : node.step action = some after) : after.log = node.log := by
  cases action with
  | electSelf =>
      rcases allowed with follower | candidate
      · rw [transferring] at follower
        cases follower
      · rw [transferring] at candidate
        cases candidate
  | becomeLeader =>
      change node.becomeLeader = some after at stepped
      unfold NodeImpl.becomeLeader at stepped
      rw [if_pos (by simp [transferring])] at stepped
      cases stepped
  | stepDown term =>
      cases stepped
      exact stepDown_log node term
  | transferLeadership =>
      cases stepped
      unfold NodeImpl.transferLeadership
      split_ifs <;> rfl
  | handleTransferTimeout term =>
      cases stepped
      unfold NodeImpl.handleTransferTimeout
      split_ifs <;> rfl
  | onError =>
      cases stepped
      unfold NodeImpl.onError
      have stopped : (if node.state.isActive then node.stepDown node.currentTerm
          else node).log = node.log := by
        split_ifs
        · exact stepDown_log node _
        · rfl
      simp only
      by_cases follower : (if node.state.isActive then node.stepDown node.currentTerm
          else node).state = .follower
      · rw [if_pos follower]
        exact stopped
      · rw [if_neg follower]
        exact stopped
  | apply tasks rejectNewUserLogs =>
      change node.apply tasks rejectNewUserLogs = some after at stepped
      rw [apply_transferring transferring] at stepped
      cases stepped
      rfl
  | addPeer peer waits =>
      change node.registerConfChange _ waits = some after at stepped
      rw [registerConfChange_transferring transferring] at stepped
      cases stepped
      rfl
  | removePeer peer waits =>
      change node.registerConfChange _ waits = some after at stepped
      rw [registerConfChange_transferring transferring] at stepped
      cases stepped
      rfl
  | changePeers newPeers waits =>
      change node.registerConfChange _ waits = some after at stepped
      rw [registerConfChange_transferring transferring] at stepped
      cases stepped
      rfl
  | onCaughtUp position status =>
      change node.onCaughtUp position status = some after at stepped
      unfold NodeImpl.onCaughtUp at stepped
      cases found : node.caughtUps[position]? with
      | none =>
          rw [found] at stepped
          cases stepped
      | some caughtUp =>
          rw [found] at stepped
          simp only at stepped
          rw [if_pos (Or.inl (by simp [transferring]))] at stepped
          cases stepped
          rfl
  | commitAt firstLogIndex lastLogIndex peer =>
      unfold NodeImpl.step at stepped
      obtain ⟨ballotBox, _, rfl⟩ := Option.map_eq_some_iff.mp stepped
      rfl
  | setLastCommittedIndex lastCommittedIndex =>
      unfold NodeImpl.step at stepped
      obtain ⟨ballotBox, _, rfl⟩ := Option.map_eq_some_iff.mp stepped
      rfl
  | receive cut entries =>
      have follower := allowed.1
      rw [transferring] at follower
      cases follower
  | startCommitted committedIndex =>
      change node.startCommitted committedIndex = some after at stepped
      unfold NodeImpl.startCommitted at stepped
      split_ifs at stepped with applying old
      · cases stepped
        rfl
      · obtain ⟨popped, _, rfl⟩ := Option.map_eq_some_iff.mp stepped
        rfl
  | nextCommitted =>
      change node.nextCommitted = some after at stepped
      unfold NodeImpl.nextCommitted at stepped
      cases applying : node.iterator with
      | none =>
          rw [applying] at stepped
          cases stepped
      | some iter =>
          rw [applying] at stepped
          simp only at stepped
          split_ifs at stepped with good
          cases current : iter.curEntry with
          | none =>
              rw [current] at stepped
              cases stepped
          | some entry =>
              rw [current] at stepped
              obtain ⟨middle, handed, rfl⟩ := Option.map_eq_some_iff.mp stepped
              have same := hand_log idle handed
              exact same
  | finishCommitted =>
      change node.finishCommitted = some after at stepped
      unfold NodeImpl.finishCommitted at stepped
      cases applying : node.iterator with
      | none =>
          rw [applying] at stepped
          cases stepped
      | some iter =>
          rw [applying] at stepped
          simp only at stepped
          by_cases good : iter.isGood = true
          · rw [if_pos good] at stepped
            cases stepped
          · rw [if_neg good] at stepped
            cases stepped
            rfl

end NodeImpl

end QuorumKit
