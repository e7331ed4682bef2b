/-
Quorums intersect across a change of the configuration.

A change goes from a stable configuration to the next one through a joint stage, or
directly when one peer differs at most.  Whoever wins a ballot of one stage shares a
peer with whoever wins a ballot of the stage before.
-/

import QuorumKit.Node.ConfigurationRuns

namespace QuorumKit

namespace Ballot

variable {P : Type} [DecidableEq P]

def SatisfiedBy (ballot : Ballot P) (voters : Finset P) : Prop :=
  ∃ grants : List (P × PosHint), (∀ grant ∈ grants, grant.1 ∈ voters) ∧
    (ballot.grantAll grants).granted = true

/-- No two disjoint sets of voters can satisfy one of the ballots each. -/
def Intersects (ballot ballot' : Ballot P) : Prop :=
  ∀ voters voters', ballot.SatisfiedBy voters → ballot'.SatisfiedBy voters' →
    ¬ Disjoint voters voters'

variable {conf : Configuration P} {oldConf : Option (Configuration P)} {voters : Finset P}

theorem SatisfiedBy.quorum (satisfied : (init conf oldConf).SatisfiedBy voters) :
    Quorum conf.peers.toFinset (oldConf.map (fun old => old.peers.toFinset)) voters := by
  obtain ⟨grants, members, granted⟩ := satisfied
  have inside : ∅ ∪ grantedBy grants ⊆ voters := by
    rw [Finset.empty_union]
    intro peer isGranted
    obtain ⟨grant, member, rfl⟩ := List.mem_map.mp (List.mem_toFinset.mp isGranted)
    exact members grant member
  exact (((counts_init conf oldConf).grantAll grants).granted_iff.mp granted).mono inside

theorem intersects_of_common {ballot ballot' : Ballot P}
    (common : ∀ voters voters', ballot.SatisfiedBy voters → ballot'.SatisfiedBy voters' →
      ∃ peer, peer ∈ voters ∧ peer ∈ voters') : ballot.Intersects ballot' := by
  intro voters voters' left right disjoint
  obtain ⟨peer, member, member'⟩ := common voters voters' left right
  exact Finset.disjoint_left.mp disjoint member member'

end Ballot

section Stages

variable {P : Type} [DecidableEq P]

/-- Configurations that differ in one peer at most, as `start` counts them. -/
def Close (conf conf' : Configuration P) : Prop :=
  (conf'.minus conf).size + (conf.minus conf').size ≤ 1

inductive Consecutive :
    Configuration P × Option (Configuration P) → Configuration P × Option (Configuration P) → Prop
  | enter (conf conf' : Configuration P) : Consecutive (conf, none) (conf', some conf)
  | leave (conf conf' : Configuration P) : Consecutive (conf', some conf) (conf', none)
  | direct (conf conf' : Configuration P) (close : Close conf conf') :
      Consecutive (conf, none) (conf', none)

theorem Close.card {conf conf' : Configuration P} (close : Close conf conf') :
    (conf.peers.toFinset \ conf'.peers.toFinset).card +
      (conf'.peers.toFinset \ conf.peers.toFinset).card ≤ 1 := by
  have size (left right : Configuration P) :
      (left.peers.toFinset \ right.peers.toFinset).card = (left.minus right).size := by
    have isMinus : left.peers.toFinset \ right.peers.toFinset =
        (left.minus right).peers.toFinset := by
      ext peer
      simp [Configuration.minus]
    rw [isMinus, List.toFinset_card_of_nodup (left.minus right).nodup]
    rfl
  have isClose : (conf'.minus conf).size + (conf.minus conf').size ≤ 1 := close
  rw [size, size]
  omega

theorem Consecutive.intersects {first second : Configuration P × Option (Configuration P)}
    (consecutive : Consecutive first second) :
    (Ballot.init first.1 first.2).Intersects (Ballot.init second.1 second.2) := by
  refine Ballot.intersects_of_common (fun voters voters' left right => ?_)
  have quorum := left.quorum
  have quorum' := right.quorum
  cases consecutive with
  | enter conf conf' => exact Majority.common quorum.1 (quorum'.2 _ rfl)
  | leave conf conf' => exact Majority.common quorum.1 quorum'.1
  | direct conf conf' close => exact Majority.common_of_close close.card quorum.1 quorum'.1

/-- A stage after which the same configuration or the next one is in force. -/
def Adjacent (conf conf' : ConfigurationEntry P) : Prop :=
  conf'.conf = conf.conf ∨ conf'.oldConf = conf.conf ∨ Close conf.conf conf'.conf

/-- The voters of a ballot of the configuration, whether it is joint or not. -/
def Elects (conf : ConfigurationEntry P) (voters : Finset P) : Prop :=
  Majority conf.conf.peers.toFinset voters ∧
    (conf.oldConf.peers ≠ [] → Majority conf.oldConf.peers.toFinset voters)

theorem Adjacent.common {conf conf' : ConfigurationEntry P} (adjacent : Adjacent conf conf')
    {voters voters' : Finset P} (left : Elects conf voters) (right : Elects conf' voters') :
    ∃ peer, peer ∈ voters ∧ peer ∈ voters' := by
  rcases adjacent with same | joint | close
  · have majority := right.1
    rw [same] at majority
    exact Majority.common left.1 majority
  · have nonempty : conf.conf.peers ≠ [] := by
      intro empty
      have majority := left.1
      rw [empty] at majority
      exact absurd majority (by simp [Majority])
    have majority := right.2
    rw [joint] at majority
    exact Majority.common left.1 (majority nonempty)
  · exact Majority.common_of_close close.card left.1 right.1

end Stages

namespace NodeImpl

variable {P D C : Type} [DecidableEq P] [Inhabited D]

/-- The ballots that the node builds at its stage: for votes, for tasks and for the
configuration entry of the stage. -/
inductive Builds (node : NodeImpl P D C) : Ballot P → Prop
  | vote : Builds node node.voteBallot
  | task : Builds node (Ballot.init node.conf.conf node.oldConf)
  | joint (stage : node.confCtx.stage = .joint) :
      Builds node (Ballot.init node.confCtx.newPeers (some node.confCtx.oldPeers))
  | stable (stage : node.confCtx.stage = .stable) :
      Builds node (Ballot.init node.confCtx.newPeers none)

variable {popped : List (PendingClosure P D C)} {node node' : NodeImpl P D C}

omit [Inhabited D] in
theorem elects_of_init {voters : Finset P}
    (satisfied : (Ballot.init node.conf.conf node.oldConf).SatisfiedBy voters) :
    Elects node.conf voters := by
  have quorum := satisfied.quorum
  refine ⟨quorum.1, fun nonempty => ?_⟩
  refine quorum.2 _ ?_
  have joint : node.conf.stable = false := by
    unfold ConfigurationEntry.stable Configuration.isEmpty
    cases isOld : node.conf.oldConf.peers with
    | nil => exact absurd isOld nonempty
    | cons peer rest => rfl
  rw [oldConf, joint]
  rfl

omit [Inhabited D] in
theorem Changing.elects (changing : Changing popped node) {ballot : Ballot P}
    (builds : Builds node ballot) {voters : Finset P} (satisfied : ballot.SatisfiedBy voters) :
    Elects node.conf voters := by
  have leads (busy : node.confCtx.stage ≠ .none) : node.state.leads = true := by
    by_contra other
    refine busy (changing.idle (fun leader => other ?_))
    rw [leader]
    rfl
  cases builds with
  | vote => exact elects_of_init satisfied
  | task => exact elects_of_init satisfied
  | joint isStage =>
      have stage := changing.stage (leads (by rw [isStage]; simp))
      unfold AtStage at stage
      rw [isStage] at stage
      have quorum := satisfied.quorum
      rw [Elects, stage.conf, stage.oldConf]
      exact ⟨quorum.1, fun _ => quorum.2 _ rfl⟩
  | stable isStage =>
      have stage := changing.stage (leads (by rw [isStage]; simp))
      unfold AtStage at stage
      rw [isStage] at stage
      have quorum := satisfied.quorum
      rw [Elects, stage.conf, stage.oldConf]
      exact ⟨quorum.1, fun nonempty => absurd rfl nonempty⟩

theorem unsafeApplyConfiguration_conf (base : Base popped node) {newConf : Configuration P}
    {oldConf : Option (Configuration P)} {leaderStart : Bool}
    (stepped : node.unsafeApplyConfiguration newConf oldConf leaderStart = some node') :
    node'.conf.conf = newConf ∧ node'.conf.oldConf = oldConf.getD Configuration.empty := by
  obtain ⟨middle, _, isNode, _⟩ := unsafeApplyConfiguration_cases base stepped
  rw [isNode, ofLogEntry_configurationEntry]
  exact ⟨rfl, rfl⟩

omit [DecidableEq P] [Inhabited D] in
theorem resetCtx_conf (node : NodeImpl P D C) (status : Option Int) :
    (node.resetCtx status).conf = node.conf := by
  have same := (resetCtx_recorded node status).1
  simp only [recorded, Prod.mk.injEq] at same
  exact same.2.2.2.2.2.1

omit [DecidableEq P] [Inhabited D] in
theorem stepDown_conf (node : NodeImpl P D C) (term : Nat) :
    (node.stepDown term).conf = node.conf := by
  unfold stepDown
  by_cases active : node.state.isActive = true
  · rw [if_neg (not_not_intro active)]
    exact (resetCtx_conf _ none).trans (by simp only [setState]; split <;> rfl)
  · rw [if_pos active]

theorem nextStage_adjacent (base : Base popped node)
    (catchingUp : node.confCtx.stage = .catchingUp →
      node.conf.conf = node.confCtx.oldPeers ∧
        node.confCtx.nchanges =
          (node.confCtx.newPeers.minus node.confCtx.oldPeers).size +
            (node.confCtx.oldPeers.minus node.confCtx.newPeers).size)
    (joint : node.confCtx.stage = .joint → node.conf.conf = node.confCtx.newPeers)
    (stepped : node.nextStage = some node') : Adjacent node.conf node'.conf := by
  have staged {stage : Stage} {oldConf : Option (Configuration P)}
      (stepped : { node with confCtx := { node.confCtx with stage := stage }
        }.unsafeApplyConfiguration node.confCtx.newPeers oldConf false = some node') :
      node'.conf.conf = node.confCtx.newPeers ∧
        node'.conf.oldConf = oldConf.getD Configuration.empty := by
    have base' : Base popped { node with confCtx := { node.confCtx with stage := stage } } :=
      base.frame rfl base.answered
    exact unsafeApplyConfiguration_conf base' stepped
  unfold NodeImpl.nextStage at stepped
  simp only at stepped
  split at stepped
  · contradiction
  · next isStage =>
      obtain ⟨isOld, changes⟩ := catchingUp isStage
      split at stepped
      · exact Or.inr (Or.inl ((staged stepped).2.trans isOld.symm))
      · next few =>
          refine Or.inr (Or.inr ?_)
          unfold Close
          rw [(staged stepped).1, isOld]
          omega
  · next isStage => exact Or.inl ((staged stepped).1.trans (joint isStage).symm)
  · obtain rfl := Option.some.inj stepped
    refine Or.inl ?_
    split
    · rw [resetCtx_conf]
    · rw [stepDown_conf, resetCtx_conf]

omit [Inhabited D] in
theorem adjacent_of_conf (same : node'.conf = node.conf) :
    Adjacent node.conf node'.conf :=
  Or.inl (congrArg ConfigurationEntry.conf same)

theorem Changing.nextStage_adjacent (changing : Changing popped node)
    (leads : node.state.leads = true) (stepped : node.nextStage = some node') :
    Adjacent node.conf node'.conf := by
  have stage := changing.stage leads
  unfold AtStage at stage
  refine NodeImpl.nextStage_adjacent changing.base (fun isStage => ?_) (fun isStage => ?_) stepped
  · rw [isStage] at stage
    exact stage.2.2
  · rw [isStage] at stage
    exact stage.conf

theorem Changing.ctxOnCaughtUp_adjacent (changing : Changing popped node)
    (leads : node.state.leads = true) {version : Nat} {peer : P} {succ : Bool}
    (stepped : node.ctxOnCaughtUp version peer succ = some node') :
    Adjacent node.conf node'.conf := by
  have stage := changing.stage leads
  unfold AtStage at stage
  unfold NodeImpl.ctxOnCaughtUp at stepped
  simp only at stepped
  split at stepped
  · obtain rfl := Option.some.inj stepped
    exact adjacent_of_conf rfl
  · split at stepped
    · contradiction
    · next isStage =>
        rw [not_not] at isStage
        rw [isStage] at stage
        split at stepped
        · split at stepped
          · have base : Base popped
                { node with
                  confCtx :=
                    { node.confCtx with
                      addingPeers := node.confCtx.addingPeers.removePeer peer } } :=
              changing.base.frame rfl changing.base.answered
            have adjacent := NodeImpl.nextStage_adjacent base (fun _ => stage.2.2)
              (fun joint => absurd (isStage.symm.trans joint) (by simp)) stepped
            exact adjacent
          · obtain rfl := Option.some.inj stepped
            exact adjacent_of_conf rfl
        · obtain rfl := Option.some.inj stepped
          exact adjacent_of_conf (resetCtx_conf node _)

theorem Changing.waitCaughtUp_adjacent {waits : P → Bool} (peers : List P) :
    ∀ {node : NodeImpl P D C}, Changing popped node → node.state.leads = true →
      node.waitCaughtUp waits peers = some node' → Adjacent node.conf node'.conf := by
  induction peers with
  | nil =>
      intro node changing leads stepped
      obtain rfl := Option.some.inj stepped
      exact adjacent_of_conf rfl
  | cons peer rest ih =>
      intro node changing leads stepped
      unfold NodeImpl.waitCaughtUp at stepped
      split at stepped
      · have waiting : Changing popped
            { node with
              caughtUps :=
                { term := node.currentTerm, version := node.confCtx.version, peer := peer } ::
                  node.caughtUps } :=
          changing.frame rfl changing.base.answered id id changing.idle changing.done
            (fun leads => (changing.stage leads).of_same rfl rfl rfl)
        have adjacent := ih waiting leads stepped
        exact adjacent
      · exact changing.ctxOnCaughtUp_adjacent leads stepped

theorem Changing.start_adjacent (changing : Changing popped node) (leader : node.state = .leader)
    {newConf : Configuration P} {waits : P → Bool}
    (stepped : { node with requests := node.requests + 1 }.start node.conf.conf newConf node.requests
      waits = some node') : Adjacent node.conf node'.conf := by
  have leads : node.state.leads = true := by rw [leader]; rfl
  unfold NodeImpl.start at stepped
  split at stepped
  · contradiction
  · next free =>
      have started := changing.started leader free newConf
      change (if (newConf.minus node.conf.conf).isEmpty = true then _ else _) = some node' at stepped
      by_cases noneAdded : (newConf.minus node.conf.conf).isEmpty = true
      · rw [if_pos noneAdded] at stepped
        have adjacent := (started node.confCtx.addingPeers).nextStage_adjacent leads stepped
        exact adjacent
      · rw [if_neg noneAdded] at stepped
        have adjacent := (started (newConf.minus node.conf.conf)).waitCaughtUp_adjacent _ leads stepped
        exact adjacent

theorem Changing.registerConfChange_adjacent (changing : Changing popped node)
    {newConf : Configuration P} {waits : P → Bool}
    (stepped : node.registerConfChange newConf waits = some node') :
    Adjacent node.conf node'.conf := by
  unfold NodeImpl.registerConfChange at stepped
  simp only at stepped
  by_cases leader : node.state = .leader
  · rw [if_neg (not_not_intro leader)] at stepped
    split_ifs at stepped
    · obtain rfl := Option.some.inj stepped
      exact adjacent_of_conf rfl
    · obtain rfl := Option.some.inj stepped
      exact adjacent_of_conf rfl
    · exact changing.start_adjacent leader stepped
  · rw [if_pos leader] at stepped
    obtain rfl := Option.some.inj stepped
    exact adjacent_of_conf rfl

theorem Changing.onCaughtUp_adjacent (changing : Changing popped node) {position : Nat}
    {status : CaughtUpStatus} (stepped : node.onCaughtUp position status = some node') :
    Adjacent node.conf node'.conf := by
  unfold NodeImpl.onCaughtUp at stepped
  split at stepped
  · contradiction
  · simp only at stepped
    split at stepped
    · obtain rfl := Option.some.inj stepped
      exact adjacent_of_conf rfl
    · next current =>
        rw [not_or, not_not] at current
        have leads : node.state.leads = true := by rw [current.1]; rfl
        have ran : Changing popped
            { node with caughtUps := node.caughtUps.eraseIdx position } :=
          changing.frame rfl changing.base.answered id id changing.idle changing.done
            (fun leads => (changing.stage leads).of_same rfl rfl rfl)
        cases status with
        | ok =>
            have adjacent := ran.ctxOnCaughtUp_adjacent leads stepped
            exact adjacent
        | retried =>
            obtain rfl := Option.some.inj stepped
            exact adjacent_of_conf rfl
        | failed =>
            have adjacent := ran.ctxOnCaughtUp_adjacent leads stepped
            exact adjacent

theorem Changing.becomeLeader_adjacent (changing : Changing popped node)
    (stepped : node.becomeLeader = some node') : Adjacent node.conf node'.conf := by
  have base := changing.base
  unfold NodeImpl.becomeLeader at stepped
  split at stepped
  · contradiction
  · obtain ⟨box, reset, stepped⟩ := Option.bind_eq_some_iff.mp stepped
    obtain ⟨queue, resetQueue, flushed⟩ := Option.bind_eq_some_iff.mp stepped
    have sameQueue : queue.queue = node.closureQueue.queue := by
      unfold ClosureQueue.resetFirstIndex at resetQueue
      split_ifs at resetQueue
      obtain rfl := Option.some.inj resetQueue
      rfl
    have elected (ctx : ConfigurationCtx P) (sameDone : ctx.done = node.confCtx.done) : Base popped
        { node with
          state := .leader
          leaderTerm := some node.currentTerm
          ballotBox := box
          closureQueue := queue
          confCtx := ctx } := by
      refine ⟨base.terms, ?_, base.known, base.lastKnown, base.snapshot, ?_⟩
      · simp only [sameQueue]
        exact base.closureTerms
      · simp only [sameDone]
        exact base.answered
    refine Or.inl ?_
    unfold NodeImpl.flush at flushed
    split_ifs at flushed
    · have applied := elected
        { node.confCtx with
          newPeers := node.conf.conf
          stage := .stable
          oldPeers := node.conf.conf } rfl
      exact (unsafeApplyConfiguration_conf applied flushed).1
    · have applied := elected
        { node.confCtx with
          newPeers := node.conf.conf
          stage := .joint
          oldPeers := node.conf.oldConf } rfl
      exact (unsafeApplyConfiguration_conf applied flushed).1

omit [DecidableEq P] [Inhabited D] in
theorem applyTasks_conf (tasks : List (Task D C)) : ∀ {node : NodeImpl P D C},
    node.applyTasks tasks = some node' → node'.conf = node.conf := by
  induction tasks with
  | nil =>
      intro node stepped
      obtain rfl := Option.some.inj stepped
      rfl
  | cons task rest ih =>
      intro node stepped
      unfold NodeImpl.applyTasks at stepped
      split at stepped
      · have same := ih stepped
        exact same
      · obtain ⟨middle, appended, stepped⟩ := Option.bind_eq_some_iff.mp stepped
        obtain ⟨box, _, rfl⟩ := appendPendingTask_cases appended
        have same := ih stepped
        exact same

omit [Inhabited D] in
theorem Changing.apply_adjacent (changing : Changing popped node) {tasks : List (Task D C)}
    {rejectNewUserLogs : Bool} (stepped : node.apply tasks rejectNewUserLogs = some node') :
    Adjacent node.conf node'.conf := by
  unfold NodeImpl.apply at stepped
  split at stepped
  · obtain rfl := Option.some.inj stepped
    exact adjacent_of_conf rfl
  · next accepted =>
      rw [not_or, not_not] at accepted
      obtain ⟨middle, applied, rfl⟩ := Option.map_eq_some_iff.mp stepped
      obtain ⟨after, leader⟩ := changing.applyTasks tasks accepted.1 applied
      have current := after.current (by rw [leader]; rfl)
      rw [checkAndSetConfiguration, if_pos current]
      exact adjacent_of_conf (applyTasks_conf tasks applied)

theorem Changing.nextCommitted_adjacent (changing : Changing popped node)
    (stepped : node.nextCommitted = some node') : Adjacent node.conf node'.conf := by
  unfold NodeImpl.nextCommitted at stepped
  split at stepped
  · contradiction
  · split at stepped
    · split at stepped
      · contradiction
      · next iter _ _ _ entry _ =>
          obtain ⟨middle, handed, rfl⟩ := Option.map_eq_some_iff.mp stepped
          show Adjacent node.conf middle.conf
          unfold NodeImpl.hand at handed
          split at handed
          · obtain rfl := Option.some.inj handed
            exact adjacent_of_conf rfl
          · next closure _ =>
              simp only at handed
              split at handed
              · obtain rfl := Option.some.inj handed
                exact adjacent_of_conf rfl
              · unfold onConfigurationChangeDone at handed
                split at handed
                · obtain rfl := Option.some.inj handed
                  exact adjacent_of_conf rfl
                · next current =>
                    rw [not_or, not_not] at current
                    have stage := changing.stage current.1
                    unfold AtStage at stage
                    have base : Base popped
                        { node with handed := (closure, entry) :: node.handed } :=
                      changing.base.frame rfl changing.base.answered
                    have adjacent := NodeImpl.nextStage_adjacent base (fun isStage => ?_)
                      (fun isStage => ?_) handed
                    · exact adjacent
                    · rw [isStage] at stage
                      exact stage.2.2
                    · rw [isStage] at stage
                      exact stage.conf
    · contradiction

theorem Changing.step_adjacent {action : Action P D C} (changing : Changing popped node)
    (allowed : Allowed action node) (stepped : NodeImpl.step action node = some node')
    (leads : node'.state.leads = true) : Adjacent node.conf node'.conf := by
  cases action with
  | electSelf =>
      obtain rfl := Option.some.inj stepped
      refine adjacent_of_conf ?_
      unfold NodeImpl.electSelf
      split <;> rfl
  | becomeLeader => exact changing.becomeLeader_adjacent stepped
  | stepDown term =>
      obtain rfl := Option.some.inj stepped
      exact adjacent_of_conf (stepDown_conf node term)
  | transferLeadership =>
      obtain rfl := Option.some.inj stepped
      refine adjacent_of_conf ?_
      unfold NodeImpl.transferLeadership
      split <;> rfl
  | handleTransferTimeout term =>
      obtain rfl := Option.some.inj stepped
      refine adjacent_of_conf ?_
      unfold NodeImpl.handleTransferTimeout
      split <;> rfl
  | onError =>
      obtain rfl := Option.some.inj stepped
      refine adjacent_of_conf ?_
      have broken (stopped : NodeImpl P D C) :
          (if stopped.state = .follower then stopped.setState .error else stopped).conf =
            stopped.conf := by
        split <;> rfl
      unfold NodeImpl.onError
      split
      · exact (broken _).trans (stepDown_conf node _)
      · exact broken node
  | apply tasks rejectNewUserLogs => exact changing.apply_adjacent stepped
  | addPeer peer waits => exact changing.registerConfChange_adjacent stepped
  | removePeer peer waits => exact changing.registerConfChange_adjacent stepped
  | changePeers newPeers waits => exact changing.registerConfChange_adjacent stepped
  | onCaughtUp position status => exact changing.onCaughtUp_adjacent stepped
  | commitAt firstLogIndex lastLogIndex peer =>
      unfold NodeImpl.step at stepped
      obtain ⟨box, _, rfl⟩ := Option.map_eq_some_iff.mp stepped
      exact adjacent_of_conf rfl
  | setLastCommittedIndex lastCommittedIndex =>
      unfold NodeImpl.step at stepped
      obtain ⟨box, _, rfl⟩ := Option.map_eq_some_iff.mp stepped
      exact adjacent_of_conf rfl
  | receive cut entries =>
      obtain rfl := Option.some.inj stepped
      have state := (checkAndSetConfiguration_frame
        { node with
          log := (node.log.keepBelow cut).append entries
          configManager := LogManager.addConfigurations
            (node.configManager.truncateSuffix (cut - 1)) entries }).2.2
      unfold NodeImpl.receive at leads
      rw [state, allowed.1] at leads
      contradiction
  | startCommitted committedIndex =>
      unfold NodeImpl.step NodeImpl.startCommitted at stepped
      simp only at stepped
      split_ifs at stepped
      · obtain rfl := Option.some.inj stepped
        exact adjacent_of_conf rfl
      · obtain ⟨popped, _, rfl⟩ := Option.map_eq_some_iff.mp stepped
        exact adjacent_of_conf rfl
  | nextCommitted => exact changing.nextCommitted_adjacent stepped
  | finishCommitted =>
      unfold NodeImpl.step NodeImpl.finishCommitted at stepped
      simp only at stepped
      split at stepped
      · contradiction
      · split at stepped
        · contradiction
        · obtain rfl := Option.some.inj stepped
          exact adjacent_of_conf rfl

/-- Ballots of consecutive stages have no disjoint winners, for any configurations
and for the ballots that a leader builds before and after each of its steps. -/
theorem stages_intersect :
    (∀ first second : Configuration P × Option (Configuration P), Consecutive first second →
      (Ballot.init first.1 first.2).Intersects (Ballot.init second.1 second.2)) ∧
      ∀ (node node' : NodeImpl P D C) (action : Action P D C), (system P D C).Reachable node →
        Allowed action node → step action node = some node' → node'.state.leads = true →
          ∀ ballot ballot', Builds node ballot → Builds node' ballot' →
            ballot.Intersects ballot' := by
  constructor
  · exact fun first second consecutive => consecutive.intersects
  · intro node node' action reached allowed stepped leads ballot ballot' builds builds'
    have changing := changing_of_reachable reached
    have changing' := changing_of_reachable (reached.next allowed stepped)
    have adjacent := changing.step_adjacent allowed stepped leads
    exact Ballot.intersects_of_common (fun voters voters' left right =>
      adjacent.common (changing.elects builds left) (changing'.elects builds' right))

/-- The second peer has caught up, and is added without a joint stage. -/
theorem stages_intersect_peerAdded :
    ∃ node node' : NodeImpl Nat Nat Nat, (system Nat Nat Nat).Reachable node ∧
      step (.onCaughtUp 0 .ok) node = some node' ∧ node.conf.conf.peers = [1] ∧
      node'.conf.conf.peers = [1, 2] ∧ node.voteBallot.Intersects node'.voteBallot ∧
      (Ballot.init node.conf.conf none).Intersects (Ballot.init node'.conf.conf none) := by
  have follows : ∃ node node', (system Nat Nat Nat).Follows (peerAdded.take 7) followerNode node ∧
      step (.onCaughtUp 0 .ok) node = some node' ∧ node.conf.conf.peers = [1] ∧
      node'.conf.conf.peers = [1, 2] ∧ node'.state.leads = true ∧
      Close node.conf.conf node'.conf.conf := by
    refine ⟨_, _, ⟨Or.inl rfl, _, rfl, trivial, _, rfl, trivial, _, rfl, List.Mem.head _, _, rfl,
      trivial, _, rfl, trivial, _, rfl, trivial, _, rfl, rfl⟩, rfl, ?_, ?_, rfl, ?_⟩
    · decide
    · decide
    · exact Nat.le_of_ble_eq_true (by decide)
  obtain ⟨node, node', follows, stepped, former, later, leads, close⟩ := follows
  have reached := (TransitionSystem.Reachable.start followerNode_initial).follows _ follows
  obtain ⟨stages, steps⟩ := @stages_intersect Nat Nat Nat _ _
  exact ⟨node, node', reached, stepped, former, later,
    steps node node' (.onCaughtUp 0 .ok) reached trivial stepped leads _ _ .vote .vote,
    stages (node.conf.conf, none) (node'.conf.conf, none) (.direct _ _ close)⟩

end NodeImpl

end QuorumKit
