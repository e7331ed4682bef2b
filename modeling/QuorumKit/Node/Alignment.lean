/-
The closures of a leader and their entries.

While a node leads, the ballot box, the closure queue and the log have one tail.
Every closure that was appended is in the queue, with the FSM caller, handed out or
failed, and in one of these places only.
-/

import QuorumKit.Ballot.QuorumPrefix
import QuorumKit.Node.NodeImpl

namespace QuorumKit

namespace NodeImpl

variable {P D C : Type} [DecidableEq P] [Inhabited D]

/-- Where the closures are.  `popped` are those that the FSM caller has taken. -/
def numbers (popped : List (PendingClosure P D C)) (node : NodeImpl P D C) : List Nat :=
  (node.closureQueue.queue ++ popped ++ node.handed.map Prod.fst ++ node.failed).map
    PendingClosure.number

def Opened (reached : Nat) (node : NodeImpl P D C) : Option (CommitWindow P) → Prop
  | none => node.closureQueue.queue = []
  | some window =>
      window.first + window.votes.length = node.log.stop ∧
        node.closureQueue.firstIndex + node.closureQueue.queue.length = node.log.stop ∧
        reached < node.closureQueue.firstIndex

/-- `reached` is the index up to which the FSM caller has taken closures. -/
structure Aligned (reached : Nat) (popped : List (PendingClosure P D C))
    (node : NodeImpl P D C) : Prop where
  positive : 0 < node.log.first
  indexed : ∀ index entry, node.log.get? index = some entry → entry.id.index = index
  committed : node.ballotBox.lastCommittedIndex < node.log.stop
  increasing : node.ballotBox.Increasing
  window : ∃ window, node.ballotBox.Represents window ∧ Opened reached node window
  leads : node.state.leads = true ↔ node.ballotBox.pendingIndex ≠ 0
  reached : reached < node.log.stop
  queued : ∀ position closure, node.closureQueue.queue[position]? = some closure →
    node.log.get? (node.closureQueue.firstIndex + position) = some closure.entry
  counted : (numbers popped node).Perm (List.range node.appended)
  paired : ∀ handed ∈ node.handed, handed.1.entry = handed.2

structure Extends (node node' : NodeImpl P D C) : Prop where
  iterator : node'.iterator = node.iterator
  applied : node'.lastAppliedIndex = node.lastAppliedIndex
  first : node'.log.first = node.log.first
  committed : node.ballotBox.lastCommittedIndex ≤ node'.ballotBox.lastCommittedIndex
  kept : ∀ index, index ≤ node.ballotBox.lastCommittedIndex →
    node'.log.get? index = node.log.get? index

variable {reached : Nat} {popped : List (PendingClosure P D C)} {node node' node'' : NodeImpl P D C}

omit [DecidableEq P] [Inhabited D] in
theorem Extends.refl (node : NodeImpl P D C) : Extends node node :=
  ⟨rfl, rfl, rfl, le_refl _, fun _ _ => rfl⟩

omit [DecidableEq P] [Inhabited D] in
theorem Extends.trans (first : Extends node node') (second : Extends node' node'') :
    Extends node node'' := by
  constructor
  · exact second.iterator.trans first.iterator
  · exact second.applied.trans first.applied
  · exact second.first.trans first.first
  · exact first.committed.trans second.committed
  · intro index below
    exact (second.kept index (below.trans first.committed)).trans (first.kept index below)

def pipeline (node : NodeImpl P D C) :
    IndexedLog (LogEntry P D) × BallotBox P × ClosureQueue (PendingClosure P D C) × Nat ×
      List (PendingClosure P D C × LogEntry P D) × List (PendingClosure P D C) :=
  (node.log, node.ballotBox, node.closureQueue, node.appended, node.handed, node.failed)

def applying (node : NodeImpl P D C) :
    Option (IteratorImpl P D (PendingClosure P D C)) × Nat :=
  (node.iterator, node.lastAppliedIndex)

omit [Inhabited D] in
theorem Aligned.frame (aligned : Aligned reached popped node)
    (same : node'.pipeline = node.pipeline) (leads : node'.state.leads = node.state.leads) :
    Aligned reached popped node' := by
  simp only [pipeline, Prod.mk.injEq] at same
  obtain ⟨log, box, queue, appended, handed, failed⟩ := same
  constructor
  · rw [log]
    exact aligned.positive
  · rw [log]
    exact aligned.indexed
  · rw [log, box]
    exact aligned.committed
  · rw [box]
    exact aligned.increasing
  · obtain ⟨window, represents, opened⟩ := aligned.window
    refine ⟨window, by rwa [box], ?_⟩
    cases window with
    | none => rwa [Opened, queue]
    | some window => rwa [Opened, queue, log]
  · rw [leads, box]
    exact aligned.leads
  · rw [log]
    exact aligned.reached
  · rw [log, queue]
    exact aligned.queued
  · rw [numbers, queue, handed, failed, appended]
    exact aligned.counted
  · rw [handed]
    exact aligned.paired

omit [DecidableEq P] [Inhabited D] in
theorem Extends.of_frame (same : node'.pipeline = node.pipeline)
    (applying : node'.applying = node.applying) : Extends node node' := by
  simp only [pipeline, Prod.mk.injEq] at same
  simp only [NodeImpl.applying, Prod.mk.injEq] at applying
  obtain ⟨log, box, _⟩ := same
  exact ⟨applying.1, applying.2, by rw [log], by rw [box], fun _ _ => by rw [log]⟩

def Keeps (reached : Nat) (popped : List (PendingClosure P D C)) (node node' : NodeImpl P D C) :
    Prop :=
  Aligned reached popped node → Aligned reached popped node' ∧ Extends node node'

omit [Inhabited D] in
theorem Keeps.refl (node : NodeImpl P D C) : Keeps reached popped node node :=
  fun aligned => ⟨aligned, .refl node⟩

omit [Inhabited D] in
theorem Keeps.trans (first : Keeps reached popped node node')
    (second : Keeps reached popped node' node'') : Keeps reached popped node node'' := by
  intro aligned
  obtain ⟨between, extended⟩ := first aligned
  obtain ⟨after, later⟩ := second between
  exact ⟨after, extended.trans later⟩

omit [Inhabited D] in
theorem Keeps.frame (same : node'.pipeline = node.pipeline)
    (applying : node'.applying = node.applying) (leads : node'.state.leads = node.state.leads) :
    Keeps reached popped node node' :=
  fun aligned => ⟨aligned.frame same leads, .of_frame same applying⟩

theorem perm_appended (queue rest : List Nat) (number : Nat) :
    (queue ++ [number] ++ rest).Perm (queue ++ rest ++ [number]) := by
  simp only [List.append_assoc]
  exact List.Perm.append_left queue List.perm_append_comm

omit [Inhabited D] in
theorem appendPendingTask_keeps
    {conf : Configuration P} {oldConf : Option (Configuration P)} {entry : LogEntry P D}
    {done : Done C} (placed : entry.id.index = node.log.stop)
    (stepped : node.appendPendingTask conf oldConf entry done = some node') :
    Keeps reached popped node node' := by
  intro aligned
  have committed := aligned.committed
  have isReached := aligned.reached
  obtain ⟨box, appended, rfl⟩ := Option.map_eq_some_iff.mp stepped
  obtain ⟨window, represents, opened⟩ := aligned.window
  have boxStep : node.ballotBox.step (.appendPendingTask conf oldConf) = some box := appended
  obtain ⟨after, commits⟩ := represents.step boxStep
  have boxEq : 0 < node.ballotBox.pendingIndex ∧
      box.lastCommittedIndex = node.ballotBox.lastCommittedIndex ∧
      box.pendingIndex = node.ballotBox.pendingIndex := by
    simp only [BallotBox.appendPendingTask] at appended
    split_ifs at appended with isOpen
    obtain rfl := Option.some.inj appended
    exact ⟨isOpen, rfl, rfl⟩
  obtain ⟨isOpen, sameCommitted, samePending⟩ := boxEq
  cases window with
  | none => exact absurd represents.1 (by omega)
  | some window =>
      obtain ⟨tail, queueTail, behind⟩ := opened
      constructor
      · constructor
        · exact aligned.positive
        · intro index other found
          simp only [IndexedLog.get?_append] at found
          split_ifs at found with inside
          · exact aligned.indexed index other found
          · rw [List.getElem?_singleton] at found
            split_ifs at found with last
            obtain rfl := Option.some.inj found
            omega
        · simp only [IndexedLog.append_stop, List.length_singleton, sameCommitted]
          omega
        · exact aligned.increasing.commits commits
        · refine ⟨_, after, ?_⟩
          simp only [CommitWindow.step, Option.map_some, Opened, ClosureQueue.appendPendingClosure,
            List.length_append, List.length_singleton, IndexedLog.append_stop]
          omega
        · simp only [samePending]
          exact aligned.leads
        · simp only [IndexedLog.append_stop, List.length_singleton]
          omega
        · intro position closure found
          simp only [ClosureQueue.appendPendingClosure] at found ⊢
          rw [List.getElem?_append] at found
          rw [IndexedLog.get?_append]
          split_ifs at found with inside
          · rw [if_pos (by omega)]
            exact aligned.queued position closure found
          · rw [List.getElem?_singleton] at found
            split_ifs at found with last
            obtain rfl := Option.some.inj found
            rw [if_neg (by omega), show node.closureQueue.firstIndex + position -
              node.log.stop = 0 by omega]
            rfl
        · have counted := aligned.counted
          simp only [numbers, ClosureQueue.appendPendingClosure, List.map_append, List.map_cons,
            List.map_nil] at counted ⊢
          rw [List.range_succ]
          have moved := (perm_appended (node.closureQueue.queue.map PendingClosure.number)
            (popped.map PendingClosure.number ++
              (node.handed.map Prod.fst).map PendingClosure.number ++
                node.failed.map PendingClosure.number) node.appended).trans
            (List.Perm.append_right [node.appended] (by simpa only [List.append_assoc] using counted))
          simpa only [List.append_assoc] using moved
        · exact aligned.paired
      · refine ⟨rfl, rfl, rfl, le_of_eq sameCommitted.symm, ?_⟩
        intro index below
        rw [IndexedLog.get?_append, if_pos (by omega)]

omit [Inhabited D] in
theorem applyTasks_keeps (tasks : List (Task D C)) :
    ∀ {node : NodeImpl P D C}, node.applyTasks tasks = some node' →
      Keeps reached popped node node' := by
  induction tasks with
  | nil =>
      intro node stepped
      obtain rfl := Option.some.inj stepped
      exact .refl _
  | cons task rest ih =>
      intro node stepped
      unfold NodeImpl.applyTasks at stepped
      split at stepped
      · have same : Keeps reached popped node
            { node with rejected := (task.done, EPERM) :: node.rejected } :=
          .frame rfl rfl rfl
        exact same.trans (ih stepped)
      · obtain ⟨middle, appended, stepped⟩ := Option.bind_eq_some_iff.mp stepped
        exact (appendPendingTask_keeps rfl appended).trans (ih stepped)

omit [DecidableEq P] [Inhabited D] in
theorem checkAndSetConfiguration_frame (node : NodeImpl P D C) :
    node.checkAndSetConfiguration.pipeline = node.pipeline ∧
      node.checkAndSetConfiguration.applying = node.applying ∧
      node.checkAndSetConfiguration.state = node.state := by
  unfold checkAndSetConfiguration
  split <;> exact ⟨rfl, rfl, rfl⟩

omit [Inhabited D] in
theorem checkAndSetConfiguration_keeps (node : NodeImpl P D C) :
    Keeps reached popped node node.checkAndSetConfiguration := by
  obtain ⟨same, applying, state⟩ := checkAndSetConfiguration_frame node
  exact .frame same applying (congrArg State.leads state)

omit [Inhabited D] in
theorem apply_keeps {tasks : List (Task D C)} {rejectNewUserLogs : Bool}
    (stepped : node.apply tasks rejectNewUserLogs = some node') :
    Keeps reached popped node node' := by
  unfold apply at stepped
  split at stepped
  · obtain rfl := Option.some.inj stepped
    exact .frame rfl rfl rfl
  · obtain ⟨middle, applied, rfl⟩ := Option.map_eq_some_iff.mp stepped
    exact (applyTasks_keeps tasks applied).trans (checkAndSetConfiguration_keeps middle)

theorem unsafeApplyConfiguration_keeps {newConf : Configuration P}
    {oldConf : Option (Configuration P)} {leaderStart : Bool}
    (stepped : node.unsafeApplyConfiguration newConf oldConf leaderStart = some node') :
    Keeps reached popped node node' := by
  unfold unsafeApplyConfiguration at stepped
  split_ifs at stepped
  obtain ⟨middle, appended, rfl⟩ := Option.map_eq_some_iff.mp stepped
  have added : Keeps reached popped middle (middle.addConfiguration
      (ConfigurationEntry.ofLogEntry (node.configurationEntry newConf oldConf))) :=
    .frame rfl rfl rfl
  exact (appendPendingTask_keeps rfl appended).trans
    (added.trans (checkAndSetConfiguration_keeps _))

theorem perm_moved (queue rest failed : List Nat) :
    (rest ++ (queue ++ failed)).Perm (queue ++ rest ++ failed) := by
  rw [← List.append_assoc]
  exact List.Perm.append_right failed List.perm_append_comm

omit [DecidableEq P] [Inhabited D] in
theorem resetCtx_frame (node : NodeImpl P D C) (status : Option Int) :
    (node.resetCtx status).pipeline = node.pipeline ∧
      (node.resetCtx status).applying = node.applying ∧
      (node.resetCtx status).state = node.state := by
  unfold resetCtx
  split_ifs <;> exact ⟨rfl, rfl, rfl⟩

omit [Inhabited D] in
theorem resetCtx_keeps (node : NodeImpl P D C) (status : Option Int) :
    Keeps reached popped node (node.resetCtx status) := by
  obtain ⟨same, applying, state⟩ := resetCtx_frame node status
  exact .frame same applying (congrArg State.leads state)

omit [Inhabited D] in
theorem clearPendingTasks_keeps (node : NodeImpl P D C) :
    Keeps reached popped node (node.clearPendingTasks.setState .follower) := by
  intro aligned
  constructor
  · constructor
    · exact aligned.positive
    · exact aligned.indexed
    · exact aligned.committed
    · exact aligned.increasing
    · exact ⟨none, ⟨rfl, rfl⟩, rfl⟩
    · exact iff_of_false Bool.false_ne_true (not_not_intro rfl)
    · exact aligned.reached
    · intro position closure found
      exact absurd found (by simp [setState, clearPendingTasks, ClosureQueue.clear])
    · have counted := aligned.counted
      simp only [numbers, setState, clearPendingTasks, ClosureQueue.clear, List.nil_append,
        List.map_append] at counted ⊢
      refine List.Perm.trans ?_ counted
      have moved := perm_moved (node.closureQueue.queue.map PendingClosure.number)
        (popped.map PendingClosure.number ++
          (node.handed.map Prod.fst).map PendingClosure.number)
        (node.failed.map PendingClosure.number)
      simpa only [List.append_assoc] using moved
    · exact aligned.paired
  · exact ⟨rfl, rfl, rfl, le_refl _, fun _ _ => rfl⟩

omit [Inhabited D] in
theorem stepDown_keeps (node : NodeImpl P D C) (term : Nat) :
    Keeps reached popped node (node.stepDown term) := by
  have stopped (middle : NodeImpl P D C) :
      Keeps reached popped middle ((middle.resetCtx none).setTerm (max node.currentTerm term)) :=
    (resetCtx_keeps middle none).trans (.frame rfl rfl rfl)
  unfold stepDown
  by_cases active : node.state.isActive = true
  · rw [if_neg (not_not_intro active)]
    by_cases leads : node.state.leads = true
    · simp only [leads, if_true]
      exact (clearPendingTasks_keeps node).trans (stopped _)
    · simp only [leads, Bool.false_eq_true, if_false]
      have followed : Keeps reached popped node (node.setState .follower) :=
        .frame rfl rfl (Bool.eq_false_iff.mpr leads).symm
      exact followed.trans (stopped _)
  · rw [if_pos active]
    exact .refl node

theorem nextStage_keeps (stepped : node.nextStage = some node') :
    Keeps reached popped node node' := by
  have staged {ctx : ConfigurationCtx P} {newConf : Configuration P}
      {oldConf : Option (Configuration P)}
      (stepped : { node with confCtx := ctx }.unsafeApplyConfiguration newConf oldConf false =
        some node') : Keeps reached popped node node' := by
    have same : Keeps reached popped node { node with confCtx := ctx } := .frame rfl rfl rfl
    exact same.trans (unsafeApplyConfiguration_keeps stepped)
  unfold nextStage at stepped
  simp only at stepped
  split at stepped
  · contradiction
  · split at stepped
    · exact staged stepped
    · exact staged stepped
  · exact staged stepped
  · obtain rfl := Option.some.inj stepped
    split
    · exact resetCtx_keeps node (some 0)
    · exact (resetCtx_keeps node (some 0)).trans (stepDown_keeps _ _)

theorem ctxOnCaughtUp_keeps {version : Nat} {peer : P} {succ : Bool}
    (stepped : node.ctxOnCaughtUp version peer succ = some node') :
    Keeps reached popped node node' := by
  unfold ctxOnCaughtUp at stepped
  simp only at stepped
  split_ifs at stepped
  · obtain rfl := Option.some.inj stepped
    exact .refl node
  · have same : Keeps reached popped node
        { node with
          confCtx :=
            { node.confCtx with addingPeers := node.confCtx.addingPeers.removePeer peer } } :=
      .frame rfl rfl rfl
    exact same.trans (nextStage_keeps stepped)
  · obtain rfl := Option.some.inj stepped
    exact .frame rfl rfl rfl
  · obtain rfl := Option.some.inj stepped
    exact resetCtx_keeps node (some ECATCHUP)

theorem waitCaughtUp_keeps {waits : P → Bool} (peers : List P) :
    ∀ {node : NodeImpl P D C}, node.waitCaughtUp waits peers = some node' →
      Keeps reached popped node node' := by
  induction peers with
  | nil =>
      intro node stepped
      obtain rfl := Option.some.inj stepped
      exact .refl node
  | cons peer rest ih =>
      intro node stepped
      unfold waitCaughtUp at stepped
      split at stepped
      · have same : Keeps reached popped node
            { node with
              caughtUps :=
                { term := node.currentTerm, version := node.confCtx.version, peer := peer } ::
                  node.caughtUps } :=
          .frame rfl rfl rfl
        exact same.trans (ih stepped)
      · exact ctxOnCaughtUp_keeps stepped

theorem start_keeps {oldConf newConf : Configuration P} {done : Nat} {waits : P → Bool}
    (stepped : node.start oldConf newConf done waits = some node') :
    Keeps reached popped node node' := by
  have placed (ctx : ConfigurationCtx P) :
      Keeps reached popped node { node with confCtx := ctx } := .frame rfl rfl rfl
  unfold start at stepped
  simp only at stepped
  split_ifs at stepped
  · exact (placed _).trans (nextStage_keeps stepped)
  · exact (placed _).trans (waitCaughtUp_keeps _ stepped)

theorem flush_keeps {conf oldConf : Configuration P}
    (stepped : node.flush conf oldConf = some node') : Keeps reached popped node node' := by
  have placed (ctx : ConfigurationCtx P) :
      Keeps reached popped node { node with confCtx := ctx } := .frame rfl rfl rfl
  unfold flush at stepped
  split_ifs at stepped
  · exact (placed _).trans (unsafeApplyConfiguration_keeps stepped)
  · exact (placed _).trans (unsafeApplyConfiguration_keeps stepped)

theorem registerConfChange_keeps {newConf : Configuration P} {waits : P → Bool}
    (stepped : node.registerConfChange newConf waits = some node') :
    Keeps reached popped node node' := by
  have asked (responses : List (Nat × Int)) : Keeps reached popped node
      { node with requests := node.requests + 1, responses := responses } :=
    .frame rfl rfl rfl
  unfold registerConfChange at stepped
  simp only at stepped
  split_ifs at stepped
  · obtain rfl := Option.some.inj stepped
    exact asked _
  · obtain rfl := Option.some.inj stepped
    exact asked _
  · obtain rfl := Option.some.inj stepped
    exact asked _
  · obtain rfl := Option.some.inj stepped
    exact asked _
  · exact (asked node.responses).trans (start_keeps stepped)

theorem onCaughtUp_keeps {position : Nat} {status : CaughtUpStatus}
    (stepped : node.onCaughtUp position status = some node') :
    Keeps reached popped node node' := by
  have ran (caughtUps : List (OnCaughtUp P)) :
      Keeps reached popped node { node with caughtUps := caughtUps } := .frame rfl rfl rfl
  unfold onCaughtUp at stepped
  split at stepped
  · contradiction
  · simp only at stepped
    split at stepped
    · obtain rfl := Option.some.inj stepped
      exact ran _
    · cases status with
      | ok => exact (ran _).trans (ctxOnCaughtUp_keeps stepped)
      | retried =>
          obtain rfl := Option.some.inj stepped
          exact ran _
      | failed => exact (ran _).trans (ctxOnCaughtUp_keeps stepped)

theorem onConfigurationChangeDone_keeps {term : Nat}
    (stepped : node.onConfigurationChangeDone term = some node') :
    Keeps reached popped node node' := by
  unfold onConfigurationChangeDone at stepped
  split at stepped
  · obtain rfl := Option.some.inj stepped
    exact .refl node
  · exact nextStage_keeps stepped

theorem becomeLeader_keeps (stepped : node.becomeLeader = some node') :
    Keeps reached popped node node' := by
  intro aligned
  have positive := aligned.positive
  have nonempty := node.log.first_le_stop
  have committed := aligned.committed
  unfold becomeLeader at stepped
  split_ifs at stepped with candidate
  rw [not_not] at candidate
  obtain ⟨box, reset, stepped⟩ := Option.bind_eq_some_iff.mp stepped
  obtain ⟨queue, resetQueue, flushed⟩ := Option.bind_eq_some_iff.mp stepped
  have isLast : node.lastLogIndex + 1 = node.log.stop := by
    simp only [lastLogIndex]
    omega
  have closed : node.closureQueue.queue = [] := by
    obtain ⟨window, represents, opened⟩ := aligned.window
    cases window with
    | none => exact opened
    | some window =>
        have notLeads : node.ballotBox.pendingIndex = 0 := by
          by_contra isOpen
          have leads := aligned.leads.mpr isOpen
          rw [candidate] at leads
          contradiction
        have lower := represents.lower
        have above := represents.positive
        omega
  have isQueue : queue = { firstIndex := node.log.stop, queue := [] } := by
    simp only [ClosureQueue.resetFirstIndex, closed, List.isEmpty_nil, if_true] at resetQueue
    rw [← Option.some.inj resetQueue, isLast]
  subst isQueue
  obtain ⟨window, represents, _⟩ := aligned.window
  have boxStep : node.ballotBox.step (.resetPendingIndex (node.lastLogIndex + 1)) = some box :=
    reset
  obtain ⟨after, commits⟩ := represents.step boxStep
  simp only [BallotBox.resetPendingIndex] at reset
  split_ifs at reset
  obtain rfl := Option.some.inj reset
  have opened : Aligned reached popped
      { node with
        state := .leader
        leaderTerm := some node.currentTerm
        ballotBox := { node.ballotBox with pendingIndex := node.lastLogIndex + 1 }
        closureQueue := { firstIndex := node.log.stop, queue := [] } } := by
    constructor
    · exact aligned.positive
    · exact aligned.indexed
    · exact aligned.committed
    · exact aligned.increasing.commits commits
    · exact ⟨_, after, isLast, rfl, aligned.reached⟩
    · exact iff_of_true rfl (Nat.succ_ne_zero _)
    · exact aligned.reached
    · intro position closure found
      exact absurd found (by simp)
    · have counted := aligned.counted
      rw [numbers, closed] at counted
      exact counted
    · exact aligned.paired
  obtain ⟨final, extended⟩ := flush_keeps flushed opened
  exact ⟨final, extended.iterator, extended.applied, extended.first, extended.committed,
    extended.kept⟩

omit [Inhabited D] in
theorem electSelf_keeps (waiting : node.state.leads = false) :
    Keeps reached popped node node.electSelf := by
  unfold electSelf
  split
  · exact .frame rfl rfl waiting.symm
  · exact .refl node

omit [Inhabited D] in
theorem transferLeadership_keeps (node : NodeImpl P D C) :
    Keeps reached popped node node.transferLeadership := by
  unfold transferLeadership
  split
  next leader => exact .frame rfl rfl (by rw [leader.1]; rfl)
  next => exact .refl node

omit [Inhabited D] in
theorem handleTransferTimeout_keeps (node : NodeImpl P D C) (term : Nat) :
    Keeps reached popped node (node.handleTransferTimeout term) := by
  unfold handleTransferTimeout
  split
  next transferring => exact .frame rfl rfl (by rw [transferring.2]; rfl)
  next => exact .refl node

omit [Inhabited D] in
theorem onError_keeps (node : NodeImpl P D C) : Keeps reached popped node node.onError := by
  have broken (stopped : NodeImpl P D C) : Keeps reached popped stopped
      (if stopped.state = .follower then stopped.setState .error else stopped) := by
    split
    next follower => exact .frame rfl rfl (by rw [follower]; rfl)
    next => exact .refl stopped
  by_cases active : node.state.isActive = true
  · have unfolded : node.onError =
        if (node.stepDown node.currentTerm).state = .follower then
          (node.stepDown node.currentTerm).setState .error
        else node.stepDown node.currentTerm := by
      simp only [onError, active, if_true]
    rw [unfolded]
    exact (stepDown_keeps node _).trans (broken _)
  · have unfolded : node.onError =
        if node.state = .follower then node.setState .error else node := by
      simp only [onError, active, Bool.false_eq_true, if_false]
    rw [unfolded]
    exact broken node

omit [Inhabited D] in
theorem ballotBox_keeps {box : BallotBox P} {window : Option (CommitWindow P)}
    (represents : box.Represents window) (opened : Opened reached node window)
    (commits : node.ballotBox.Commits box) (committed : box.lastCommittedIndex < node.log.stop)
    (pending : box.pendingIndex ≠ 0 ↔ node.ballotBox.pendingIndex ≠ 0) :
    Keeps reached popped node { node with ballotBox := box } := by
  intro aligned
  constructor
  · constructor
    · exact aligned.positive
    · exact aligned.indexed
    · exact committed
    · exact aligned.increasing.commits commits
    · refine ⟨window, represents, ?_⟩
      cases window with
      | none => exact opened
      | some window => exact opened
    · exact aligned.leads.trans pending.symm
    · exact aligned.reached
    · exact aligned.queued
    · exact aligned.counted
    · exact aligned.paired
  · refine ⟨rfl, rfl, rfl, ?_, fun _ _ => rfl⟩
    rcases commits with same | raised
    · exact same.1.ge
    · exact raised.1.le

omit [Inhabited D] in
theorem commitAt_keeps {firstLogIndex lastLogIndex : Nat} {peer : P} {box : BallotBox P}
    (stepped : node.ballotBox.step (.commitAt firstLogIndex lastLogIndex peer) = some box) :
    Keeps reached popped node { node with ballotBox := box } := by
  intro aligned
  obtain ⟨window, represents, opened⟩ := aligned.window
  obtain ⟨after, commits⟩ := represents.step stepped
  cases window with
  | none =>
      obtain rfl := Option.some.inj stepped
      have refused : (node.ballotBox.commitAt firstLogIndex lastLogIndex peer).2 =
          node.ballotBox := by
        rw [BallotBox.commitAt, if_pos represents.1]
      exact ballotBox_keeps after opened commits (by rw [refused]; exact aligned.committed)
        (by rw [refused]) aligned
  | some window =>
      have tail := BallotBox.Pending.tail after
      have below := BallotBox.Pending.below after
      have lower := BallotBox.Pending.lower represents
      have positive := BallotBox.Pending.positive represents
      have upper := BallotBox.Pending.upper after
      have isOpen := BallotBox.Pending.lower after
      simp only [CommitWindow.commitAt_first, CommitWindow.commitAt_length] at upper isOpen
      obtain ⟨windowTail, queueTail, behind⟩ := opened
      have stillOpened : Opened reached node
          (some (window.commitAt firstLogIndex lastLogIndex peer)) := by
        simp only [Opened, CommitWindow.commitAt_first, CommitWindow.commitAt_length]
        exact ⟨windowTail, queueTail, behind⟩
      exact ballotBox_keeps after stillOpened commits (by omega) (by omega) aligned

omit [Inhabited D] in
theorem setLastCommittedIndex_keeps {lastCommittedIndex : Nat} {box : BallotBox P}
    (inside : lastCommittedIndex < node.log.stop)
    (stepped : node.ballotBox.step (.setLastCommittedIndex lastCommittedIndex) = some box) :
    Keeps reached popped node { node with ballotBox := box } := by
  intro aligned
  obtain ⟨window, represents, opened⟩ := aligned.window
  obtain ⟨after, commits⟩ := represents.step stepped
  have same : box.pendingIndex = node.ballotBox.pendingIndex ∧
      (box.lastCommittedIndex = node.ballotBox.lastCommittedIndex ∨
        box.lastCommittedIndex = lastCommittedIndex) := by
    simp only [BallotBox.step, BallotBox.setLastCommittedIndex] at stepped
    split_ifs at stepped
    · obtain rfl := Option.some.inj stepped
      exact ⟨rfl, Or.inl rfl⟩
    · contradiction
    · obtain rfl := Option.some.inj stepped
      exact ⟨rfl, Or.inl rfl⟩
    · obtain rfl := Option.some.inj stepped
      exact ⟨rfl, Or.inr rfl⟩
    · obtain rfl := Option.some.inj stepped
      exact ⟨rfl, Or.inl rfl⟩
  have committed := aligned.committed
  exact ballotBox_keeps after opened commits (by omega) (by rw [same.1]) aligned

omit [Inhabited D] in
theorem receive_keeps {cut : Nat} {entries : List (LogEntry P D)}
    (follower : node.state.leads = false) (lower : node.log.first ≤ cut)
    (upper : cut ≤ node.log.stop) (committed : node.ballotBox.lastCommittedIndex < cut)
    (applied : reached < cut)
    (indexed : ∀ position entry, entries[position]? = some entry →
      entry.id.index = cut + position) :
    Keeps reached popped node (node.receive cut entries) := by
  have changed : Keeps reached popped node
      { node with
        log := (node.log.keepBelow cut).append entries
        configManager :=
          LogManager.addConfigurations (node.configManager.truncateSuffix (cut - 1)) entries } := by
    intro aligned
    have stop : ((node.log.keepBelow cut).append entries).stop = cut + entries.length := by
      rw [IndexedLog.append_stop, IndexedLog.keepBelow_stop _ lower upper]
    have closed : node.closureQueue.queue = [] ∧ node.ballotBox.Represents none := by
      obtain ⟨window, represents, opened⟩ := aligned.window
      cases window with
      | none => exact ⟨opened, represents⟩
      | some window =>
          have above := represents.positive
          have below := represents.lower
          have leads := aligned.leads.mpr (by omega)
          rw [follower] at leads
          contradiction
    constructor
    · constructor
      · exact aligned.positive
      · intro index entry found
        simp only [IndexedLog.get?_append, IndexedLog.keepBelow_stop _ lower upper,
          IndexedLog.get?_keepBelow] at found
        split_ifs at found with kept
        · exact aligned.indexed index entry found
        · have isIndex := indexed _ entry found
          omega
      · simp only [stop]
        omega
      · exact aligned.increasing
      · exact ⟨none, closed.2, closed.1⟩
      · exact aligned.leads
      · simp only [stop]
        omega
      · intro position closure found
        exact absurd found (by simp [closed.1])
      · exact aligned.counted
      · exact aligned.paired
    · refine ⟨rfl, rfl, rfl, le_refl _, ?_⟩
      intro index below
      simp only [IndexedLog.get?_append, IndexedLog.keepBelow_stop _ lower upper,
        IndexedLog.get?_keepBelow]
      rw [if_pos (by omega), if_pos (by omega)]
  exact changed.trans (checkAndSetConfiguration_keeps _)

end NodeImpl

end QuorumKit
