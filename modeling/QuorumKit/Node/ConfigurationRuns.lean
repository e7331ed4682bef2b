/-
The changes of a configuration over all runs of a node.

Requests, callbacks, commits and changes of the state come in any order.  Callbacks of
an earlier change carry an older version, and closures of an earlier term carry an
older term, so neither of them moves the current change.
-/

import QuorumKit.Node.ConfigurationChange

namespace QuorumKit

namespace NodeImpl

variable {P D C : Type} [DecidableEq P] [Inhabited D]

variable {popped : List (PendingClosure P D C)} {node node' : NodeImpl P D C}

/-! ### Requests -/

theorem Changing.ctxOnCaughtUp (changing : Changing popped node) (leader : node.state = .leader)
    {version : Nat} {peer : P} {succ : Bool}
    (stepped : node.ctxOnCaughtUp version peer succ = some node') : Changing popped node' := by
  have leads : node.state.leads = true := by rw [leader]; rfl
  unfold NodeImpl.ctxOnCaughtUp at stepped
  simp only at stepped
  by_cases stale : version = node.confCtx.version
  · rw [if_neg (not_not_intro stale)] at stepped
    by_cases isStage : node.confCtx.stage = .catchingUp
    · rw [if_neg (not_not_intro isStage)] at stepped
      have atStage := changing.stage leads
      unfold AtStage at atStage
      rw [isStage] at atStage
      have waiting : Changing popped
          { node with
            confCtx :=
              { node.confCtx with addingPeers := node.confCtx.addingPeers.removePeer peer } } := by
        refine changing.frame rfl changing.base.answered id id changing.idle changing.done ?_
        intro _
        unfold AtStage
        simp only [isStage]
        exact atStage
      split_ifs at stepped
      · have quiet := waiting.quiet leader (Or.inr isStage)
        exact quiet.nextStage (waiting.current leads)
          (fun stable => absurd (isStage.symm.trans stable) (by simp)) stepped
      · obtain rfl := Option.some.inj stepped
        exact waiting
      · obtain rfl := Option.some.inj stepped
        have quiet := changing.quiet leader (Or.inr isStage)
        exact quiet.resetCtx (changing.current leads) atStage.1
          (fun none => absurd (isStage.symm.trans none) (by simp)) (some ECATCHUP)
    · rw [if_pos isStage] at stepped
      contradiction
  · rw [if_pos stale] at stepped
    obtain rfl := Option.some.inj stepped
    exact changing

theorem Changing.waitCaughtUp {waits : P → Bool} (peers : List P) : ∀ {node : NodeImpl P D C},
    Changing popped node → node.state = .leader → node.waitCaughtUp waits peers = some node' →
      Changing popped node' := by
  induction peers with
  | nil =>
      intro node changing leader stepped
      obtain rfl := Option.some.inj stepped
      exact changing
  | cons peer rest ih =>
      intro node changing leader stepped
      unfold NodeImpl.waitCaughtUp at stepped
      split at stepped
      · have waiting : Changing popped
            { node with
              caughtUps :=
                { term := node.currentTerm, version := node.confCtx.version, peer := peer } ::
                  node.caughtUps } :=
          changing.frame rfl changing.base.answered id id changing.idle changing.done
            (fun leads => (changing.stage leads).of_same rfl rfl rfl)
        exact ih waiting leader stepped
      · exact changing.ctxOnCaughtUp leader stepped

omit [Inhabited D] in
theorem Changing.started (changing : Changing popped node) (leader : node.state = .leader)
    (free : ¬ (node.confCtx.isBusy ∨ node.confCtx.done ≠ none))
    (newConf adding : Configuration P) :
    Changing popped
      { node with
        requests := node.requests + 1
        confCtx :=
          { node.confCtx with
            done := some node.requests
            stage := .catchingUp
            oldPeers := node.conf.conf
            newPeers := newConf
            nchanges := (newConf.minus node.conf.conf).size + (node.conf.conf.minus newConf).size
            addingPeers := adding } } := by
  have leads : node.state.leads = true := by rw [leader]; rfl
  rw [not_or, not_not] at free
  obtain ⟨notBusy, noDone⟩ := free
  have noStage : node.confCtx.stage = .none := by simpa [ConfigurationCtx.isBusy] using notBusy
  have stable := changing.stage leads
  unfold AtStage at stable
  rw [noStage] at stable
  refine changing.frame rfl ?_ id id (fun other => absurd leader other) (fun left => ?_) ?_
  · have answered := changing.base.answered
    rw [noDone, Option.toList_none, List.append_nil] at answered
    simp only [Option.toList_some, List.range_succ]
    exact List.Perm.append_right [node.requests] answered
  · exact absurd left (by simp)
  · intro _
    unfold AtStage
    exact ⟨stable.1, stable.2, rfl, rfl⟩

theorem Changing.start (changing : Changing popped node) (leader : node.state = .leader)
    {newConf : Configuration P} {waits : P → Bool}
    (stepped : { node with requests := node.requests + 1 }.start node.conf.conf newConf node.requests
      waits = some node') : Changing popped node' := by
  have leads : node.state.leads = true := by rw [leader]; rfl
  unfold NodeImpl.start at stepped
  split at stepped
  · contradiction
  · next free =>
      change (if (newConf.minus node.conf.conf).isEmpty = true then _ else _) = some node' at stepped
      by_cases noneAdded : (newConf.minus node.conf.conf).isEmpty = true
      · rw [if_pos noneAdded] at stepped
        have quiet := (changing.started leader free newConf node.confCtx.addingPeers).quiet leader
          (Or.inr rfl)
        exact quiet.nextStage (changing.current leads) (fun stable => absurd stable (by simp))
          stepped
      · rw [if_neg noneAdded] at stepped
        have started := changing.started leader free newConf (newConf.minus node.conf.conf)
        exact started.waitCaughtUp _ leader stepped

theorem Changing.registerConfChange (changing : Changing popped node) {newConf : Configuration P}
    {waits : P → Bool} (stepped : node.registerConfChange newConf waits = some node') :
    Changing popped node' := by
  have answered (status : Int) : Changing popped
      { node with
        requests := node.requests + 1
        responses := (node.requests, status) :: node.responses } := by
    refine changing.frame rfl ?_ id id changing.idle changing.done
      (fun leads => (changing.stage leads).of_same rfl rfl rfl)
    simp only [List.map_cons, List.cons_append, List.range_succ]
    exact ((List.perm_append_singleton node.requests _).trans
      (List.Perm.cons _ changing.base.answered.symm)).symm
  unfold NodeImpl.registerConfChange at stepped
  simp only at stepped
  by_cases leader : node.state = .leader
  · rw [if_neg (not_not_intro leader)] at stepped
    split_ifs at stepped
    · obtain rfl := Option.some.inj stepped
      exact answered EBUSY
    · obtain rfl := Option.some.inj stepped
      exact answered 0
    · exact changing.start leader stepped
  · rw [if_pos leader] at stepped
    obtain rfl := Option.some.inj stepped
    exact answered _

theorem Changing.onCaughtUp (changing : Changing popped node) {position : Nat}
    {status : CaughtUpStatus} (stepped : node.onCaughtUp position status = some node') :
    Changing popped node' := by
  have ran (caughtUps : List (OnCaughtUp P)) : Changing popped { node with caughtUps := caughtUps } :=
    changing.frame rfl changing.base.answered id id changing.idle changing.done
      (fun leads => (changing.stage leads).of_same rfl rfl rfl)
  unfold NodeImpl.onCaughtUp at stepped
  split at stepped
  · contradiction
  · simp only at stepped
    split at stepped
    · obtain rfl := Option.some.inj stepped
      exact ran _
    · next current =>
        rw [not_or, not_not] at current
        cases status with
        | ok => exact (ran (node.caughtUps.eraseIdx position)).ctxOnCaughtUp current.1 stepped
        | retried =>
            obtain rfl := Option.some.inj stepped
            exact ran _
        | failed => exact (ran (node.caughtUps.eraseIdx position)).ctxOnCaughtUp current.1 stepped

/-! ### Changes of the state -/

omit [Inhabited D] in
theorem Changing.electSelf (changing : Changing popped node)
    (waiting : node.state = .follower ∨ node.state = .candidate) :
    Changing popped node.electSelf := by
  have noLeader : node.state ≠ .leader := by
    rcases waiting with follower | candidate
    · rw [follower]
      simp
    · rw [candidate]
      simp
  have base := changing.base
  unfold NodeImpl.electSelf
  split
  · constructor
    · exact ⟨fun index entry found => (base.terms index entry found).trans (Nat.le_succ _),
        fun closure member term leaderStart isDone =>
          (base.closureTerms closure member term leaderStart isDone).trans (Nat.le_succ _),
        base.known, base.lastKnown, base.snapshot, base.answered⟩
    · exact fun leads => absurd leads Bool.false_ne_true
    · exact fun _ => changing.idle noLeader
    · exact changing.done
    · refine fun _ => ⟨?_, fun index entry found => Nat.lt_succ_of_le (base.terms index entry found)⟩
      unfold changes
      rw [List.filter_eq_nil_iff]
      intro closure member isChange
      unfold PendingClosure.changesIn at isChange
      split at isChange
      · contradiction
      · next term leaderStart isDone =>
          have old := base.closureTerms closure member term leaderStart isDone
          have same : term = node.currentTerm + 1 := by simpa using isChange
          omega
    · exact fun leads => absurd leads Bool.false_ne_true
    · exact fun leads => absurd leads Bool.false_ne_true
    · exact fun leads => absurd leads Bool.false_ne_true
    · exact single_of_term base (Nat.le_succ _) rfl rfl rfl rfl changing.single
  · exact changing

theorem Changing.becomeLeader (changing : Changing popped node)
    (stepped : node.becomeLeader = some node') : Changing popped node' := by
  unfold NodeImpl.becomeLeader at stepped
  by_cases candidate : node.state = .candidate
  · rw [if_neg (not_not_intro candidate)] at stepped
    obtain ⟨box, reset, stepped⟩ := Option.bind_eq_some_iff.mp stepped
    obtain ⟨queue, resetQueue, flushed⟩ := Option.bind_eq_some_iff.mp stepped
    have base := changing.base
    obtain ⟨empty, older⟩ := changing.fresh candidate
    have sameQueue : queue.queue = node.closureQueue.queue := by
      unfold ClosureQueue.resetFirstIndex at resetQueue
      split_ifs at resetQueue
      obtain rfl := Option.some.inj resetQueue
      rfl
    have elected (ctx : ConfigurationCtx P) (sameDone : ctx.done = node.confCtx.done) : Quiet popped
        { node with
          state := .leader
          leaderTerm := some node.currentTerm
          ballotBox := box
          closureQueue := queue
          confCtx := ctx } := by
      constructor
      · refine ⟨base.terms, ?_, base.known, base.lastKnown, base.snapshot, ?_⟩
        · intro closure member
          simp only [sameQueue] at member
          exact base.closureTerms closure member
        · simp only [sameDone]
          exact base.answered
      · rfl
      · rfl
      · rw [NodeImpl.changes, sameQueue]
        exact empty
      · rintro index entry ⟨_, found, _, term⟩
        exact absurd term (older index entry found).ne
    unfold NodeImpl.flush at flushed
    split_ifs at flushed
    · have quiet := elected
        { node.confCtx with
          newPeers := node.conf.conf
          stage := .stable
          oldPeers := node.conf.conf } rfl
      exact quiet.unsafeApplyConfiguration rfl (Or.inr ⟨rfl, rfl⟩) flushed
    · have quiet := elected
        { node.confCtx with
          newPeers := node.conf.conf
          stage := .joint
          oldPeers := node.conf.oldConf } rfl
      exact quiet.unsafeApplyConfiguration rfl (Or.inl ⟨rfl, rfl⟩) flushed
  · rw [if_pos candidate] at stepped
    contradiction

omit [Inhabited D] in
theorem Changing.transferLeadership (changing : Changing popped node) :
    Changing popped node.transferLeadership := by
  unfold NodeImpl.transferLeadership
  split
  next leader =>
    have leads : node.state.leads = true := by rw [leader.1]; rfl
    have none : node.confCtx.stage = .none := by simpa [ConfigurationCtx.isBusy] using leader.2
    exact changing.frame rfl changing.base.answered (fun _ => leads)
      (fun candidate => absurd candidate (by simp)) (fun _ => none) changing.done
      (fun _ => (changing.stage leads).of_same rfl rfl rfl)
  next => exact changing

omit [Inhabited D] in
theorem Changing.handleTransferTimeout (changing : Changing popped node) (term : Nat) :
    Changing popped (node.handleTransferTimeout term) := by
  unfold NodeImpl.handleTransferTimeout
  split
  next transferring =>
    have leads : node.state.leads = true := by rw [transferring.2]; rfl
    exact changing.frame rfl changing.base.answered (fun _ => leads)
      (fun candidate => absurd candidate (by simp)) (fun other => absurd rfl other) changing.done
      (fun _ => (changing.stage leads).of_same rfl rfl rfl)
  next => exact changing

omit [Inhabited D] in
theorem Changing.onError (changing : Changing popped node) : Changing popped node.onError := by
  have broken (stopped : NodeImpl P D C) (changing : Changing popped stopped) : Changing popped
      (if stopped.state = .follower then stopped.setState .error else stopped) := by
    split
    next follower =>
      exact changing.frame rfl changing.base.answered (fun leads => absurd leads Bool.false_ne_true)
        (fun candidate => absurd candidate (by simp [setState]))
        (fun _ => changing.idle (by rw [follower]; simp)) changing.done
        (fun leads => absurd leads Bool.false_ne_true)
    next => exact changing
  unfold NodeImpl.onError
  split
  · exact broken _ (changing.stepDown _)
  · exact broken _ changing

/-! ### Tasks, acknowledgements and followers -/

omit [Inhabited D] in
theorem Changing.apply (changing : Changing popped node) {tasks : List (Task D C)}
    {rejectNewUserLogs : Bool} (stepped : node.apply tasks rejectNewUserLogs = some node') :
    Changing popped node' := by
  unfold NodeImpl.apply at stepped
  split at stepped
  · obtain rfl := Option.some.inj stepped
    exact changing.frame rfl changing.base.answered id id changing.idle changing.done
      (fun leads => (changing.stage leads).of_same rfl rfl rfl)
  · next accepted =>
      rw [not_or, not_not] at accepted
      obtain ⟨middle, applied, rfl⟩ := Option.map_eq_some_iff.mp stepped
      obtain ⟨after, leader⟩ := changing.applyTasks tasks accepted.1 applied
      have current := after.current (by rw [leader]; rfl)
      rw [checkAndSetConfiguration, if_pos current]
      exact after

omit [Inhabited D] in
theorem Changing.ballotBox (changing : Changing popped node) {box : BallotBox P}
    (raised : node.ballotBox.lastCommittedIndex ≤ box.lastCommittedIndex) :
    Changing popped { node with ballotBox := box } := by
  have former : ∀ index entry, Uncommitted { node with ballotBox := box } index entry →
      Uncommitted node index entry :=
    fun index entry isUncommitted => ⟨raised.trans_lt isUncommitted.1, isUncommitted.2⟩
  have base := changing.base
  constructor
  · exact ⟨base.terms, base.closureTerms, base.known, base.lastKnown, base.snapshot, base.answered⟩
  · exact changing.led
  · exact changing.idle
  · exact changing.done
  · exact changing.fresh
  · exact changing.current
  · exact fun leads => (changing.stage leads).of_same rfl rfl rfl
  · exact fun leads index entry isUncommitted =>
      changing.waits leads index entry (former index entry isUncommitted)
  · exact fun led index index' entry entry' left right =>
      changing.single led index index' entry entry' (former index entry left)
        (former index' entry' right)

omit [Inhabited D] in
theorem addConfigurations_bounds {bound : Nat} (entries : List (LogEntry P D)) :
    ∀ {manager : ConfigurationManager P}, manager.lastConfiguration.id.index ≤ bound →
      (∀ entry ∈ entries, entry.id.index ≤ bound) →
      (LogManager.addConfigurations manager entries).lastConfiguration.id.index ≤ bound ∧
        (LogManager.addConfigurations manager entries).snapshot = manager.snapshot := by
  induction entries with
  | nil => exact fun bounded _ => ⟨bounded, rfl⟩
  | cons entry rest ih =>
      intro manager bounded below
      have unfolded : LogManager.addConfigurations manager (entry :: rest) =
          LogManager.addConfigurations
            (if entry.type = .configuration then
              manager.add (ConfigurationEntry.ofLogEntry entry)
            else manager) rest := rfl
      rw [unfolded]
      have later : ∀ other ∈ rest, other.id.index ≤ bound :=
        fun other member => below other (List.mem_cons_of_mem _ member)
      split
      · have added := manager.add_lastConfiguration_le (ConfigurationEntry.ofLogEntry entry) bounded
          (below entry List.mem_cons_self)
        obtain ⟨lastBounded, same⟩ := ih added later
        exact ⟨lastBounded, same.trans (manager.add_snapshot _)⟩
      · exact ih bounded later

omit [Inhabited D] in
theorem Changing.receive (changing : Changing popped node) {cut : Nat}
    {entries : List (LogEntry P D)} (follower : node.state = .follower)
    (notLed : node.leaderTerm ≠ some node.currentTerm) (lower : node.log.first ≤ cut)
    (upper : cut ≤ node.log.stop) (applied : node.lastAppliedIndex < cut)
    (placed : ∀ position entry, entries[position]? = some entry →
      entry.id.index = cut + position ∧ entry.id.term ≤ node.currentTerm) :
    Changing popped (node.receive cut entries) := by
  have base := changing.base
  have snapshot := base.snapshot
  have idle : node.confCtx.stage = .none := changing.idle (by rw [follower]; simp)
  have stop : ((node.log.keepBelow cut).append entries).stop = cut + entries.length := by
    rw [IndexedLog.append_stop, IndexedLog.keepBelow_stop _ lower upper]
  have kept := node.configManager.truncateSuffix_lastConfiguration_le
    (show node.configManager.snapshot.id.index ≤ cut - 1 by omega)
  have bounded : ∀ entry ∈ entries, entry.id.index ≤ cut + entries.length - 1 := by
    intro entry member
    obtain ⟨position, found⟩ := List.mem_iff_getElem?.mp member
    have inside := (List.getElem?_eq_some_iff.mp found).1
    have isIndex := (placed position entry found).1
    omega
  obtain ⟨lastBounded, sameSnapshot⟩ := addConfigurations_bounds entries (kept.trans
    (show cut - 1 ≤ cut + entries.length - 1 by omega)) bounded
  have lastKnown : (LogManager.addConfigurations (node.configManager.truncateSuffix (cut - 1))
      entries).lastConfiguration.id.index < cut + entries.length := by omega
  have received (conf : ConfigurationEntry P) (known : conf.id.index < cut + entries.length) :
      Changing popped
        { node with
          log := (node.log.keepBelow cut).append entries
          configManager :=
            LogManager.addConfigurations (node.configManager.truncateSuffix (cut - 1)) entries
          conf := conf } := by
    refine Changing.of_follower ?_ follower idle (changing.done idle) (fun led => absurd led notLed)
    constructor
    · intro index entry found
      simp only [IndexedLog.get?_append, IndexedLog.get?_keepBelow] at found
      split_ifs at found
      · exact base.terms index entry found
      · exact (placed _ entry found).2
    · exact base.closureTerms
    · simp only [stop]
      exact known
    · simp only [stop]
      exact lastKnown
    · simp only [sameSnapshot]
      exact snapshot
    · exact base.answered
  unfold NodeImpl.receive checkAndSetConfiguration
  split
  next same => exact received node.conf (by rw [congrArg LogId.index same]; exact lastKnown)
  next => exact received _ lastKnown

/-! ### The FSM caller -/

omit [Inhabited D] in
theorem Changing.taken {popped' : List (PendingClosure P D C)} (changing : Changing popped node)
    (queue : ClosureQueue (PendingClosure P D C))
    (iterator : Option (IteratorImpl P D (PendingClosure P D C))) {applied : Nat}
    (failed : List (PendingClosure P D C))
    (same : popped' ++ queue.queue = popped ++ node.closureQueue.queue)
    (forward : node.lastAppliedIndex ≤ applied) :
    Changing popped'
      { node with
        closureQueue := queue
        iterator := iterator
        lastAppliedIndex := applied
        failed := failed } := by
  have base := changing.base
  have changes : changes popped'
      { node with
        closureQueue := queue
        iterator := iterator
        lastAppliedIndex := applied
        failed := failed } = changes popped node := by
    simp only [NodeImpl.changes, same]
  constructor
  · refine ⟨base.terms, ?_, base.known, base.lastKnown, base.snapshot.trans forward, base.answered⟩
    simp only [same]
    exact base.closureTerms
  · exact changing.led
  · exact changing.idle
  · exact changing.done
  · rw [changes]
    exact changing.fresh
  · exact changing.current
  · exact fun leads => (changing.stage leads).of_same changes rfl rfl
  · rw [changes]
    exact changing.waits
  · exact changing.single

omit [Inhabited D] in
theorem Changing.of_change (changing : Changing popped node) (leads : node.state.leads = true)
    {closure : PendingClosure P D C} (member : closure ∈ popped ++ node.closureQueue.queue)
    (isChange : closure.changesIn node.currentTerm = true) :
    node.state = .leader ∧ changes popped node = [closure] ∧
      closure.entry.type = .configuration ∧
      ConfigurationEntry.ofLogEntry closure.entry = node.conf ∧
      node.conf.conf = node.confCtx.newPeers ∧
      (node.confCtx.stage = .joint ∧ node.conf.oldConf = node.confCtx.oldPeers ∨
        node.confCtx.stage = .stable ∧ node.conf.oldConf = Configuration.empty) := by
  have isMember : closure ∈ changes popped node := List.mem_filter.mpr ⟨member, isChange⟩
  have stage := changing.stage leads
  have leader : node.confCtx.stage ≠ .none → node.state = .leader := by
    intro busy
    by_contra other
    exact busy (changing.idle other)
  have applied {oldConf : Configuration P}
      (applied : Applied popped node node.confCtx.newPeers oldConf) :
      changes popped node = [closure] ∧ closure.entry.type = .configuration ∧
        ConfigurationEntry.ofLogEntry closure.entry = node.conf := by
    obtain ⟨other, waits, type, isConf⟩ := applied.waits
    rw [waits] at isMember
    obtain rfl := List.mem_singleton.mp isMember
    exact ⟨waits, type, isConf⟩
  unfold AtStage at stage
  cases isStage : node.confCtx.stage with
  | none =>
      rw [isStage] at stage
      rw [stage.2] at isMember
      contradiction
  | catchingUp =>
      rw [isStage] at stage
      rw [stage.2.1] at isMember
      contradiction
  | joint =>
      rw [isStage] at stage
      obtain ⟨waits, type, isConf⟩ := applied stage
      exact ⟨leader (by rw [isStage]; simp), waits, type, isConf, stage.conf,
        Or.inl ⟨rfl, stage.oldConf⟩⟩
  | stable =>
      rw [isStage] at stage
      obtain ⟨waits, type, isConf⟩ := applied stage
      exact ⟨leader (by rw [isStage]; simp), waits, type, isConf, stage.conf,
        Or.inr ⟨rfl, stage.oldConf⟩⟩

omit [DecidableEq P] [Inhabited D] in
theorem changes_cons (closure : PendingClosure P D C) (rest : List (PendingClosure P D C))
    (node : NodeImpl P D C) :
    changes (closure :: rest) node =
      if closure.changesIn node.currentTerm = true then closure :: changes rest node
      else changes rest node := by
  unfold changes
  rw [List.cons_append, List.filter_cons]

omit [Inhabited D] in
theorem Changing.handed {closure : PendingClosure P D C} {rest : List (PendingClosure P D C)}
    (changing : Changing (closure :: rest) node)
    (other : closure.changesIn node.currentTerm = true → node.state.leads ≠ true)
    (handed : List (PendingClosure P D C × LogEntry P D)) :
    Changing rest { node with handed := handed } := by
  have base := changing.base
  have same (isOther : closure.changesIn node.currentTerm ≠ true) :
      changes rest node = changes (closure :: rest) node := by
    rw [changes_cons, if_neg isOther]
  have notLeads (leads : node.state.leads = true) : closure.changesIn node.currentTerm ≠ true :=
    fun isChange => other isChange leads
  constructor
  · exact ⟨base.terms, fun closure member => base.closureTerms closure (List.mem_cons_of_mem _ member),
      base.known, base.lastKnown, base.snapshot, base.answered⟩
  · exact changing.led
  · exact changing.idle
  · exact changing.done
  · intro candidate
    obtain ⟨empty, older⟩ := changing.fresh candidate
    refine ⟨?_, older⟩
    rw [changes_cons] at empty
    split_ifs at empty
    exact empty
  · exact changing.current
  · exact fun leads => (changing.stage leads).of_same (same (notLeads leads)) rfl rfl
  · intro leads
    have waits := changing.waits leads
    rw [← same (notLeads leads)] at waits
    exact waits
  · exact changing.single

theorem Changing.hand {iter : IteratorImpl P D (PendingClosure P D C)} {entry : LogEntry P D}
    (changing : Changing node.popped node) (invariant : Invariant node)
    (isIter : node.iterator = some iter) (inside : iter.curIndex ≤ iter.committedIndex)
    (stepped : node.hand iter entry = some node') :
    Changing (iter.closures.drop (iter.curIndex + 1 - iter.firstClosureIndex)) node' := by
  have iterating := invariant.iterating iter isIter
  have isPopped : node.popped = iter.closures.drop (iter.curIndex - iter.firstClosureIndex) := by
    rw [popped, isIter]
  rw [isPopped] at changing
  unfold NodeImpl.hand at stepped
  cases isDone : iter.done with
  | none =>
      rw [isDone] at stepped
      obtain rfl := Option.some.inj stepped
      rw [iterating.not_done inside isDone]
      exact changing
  | some closure =>
      rw [isDone] at stepped
      obtain ⟨atIndex, split⟩ := iterating.done isDone
      rw [split] at changing
      simp only at stepped
      cases isClosure : closure.done with
      | task done =>
          rw [isClosure] at stepped
          obtain rfl := Option.some.inj stepped
          refine changing.handed (fun isChange => ?_) _
          unfold PendingClosure.changesIn at isChange
          rw [isClosure] at isChange
          contradiction
      | configurationChange term leaderStart =>
          rw [isClosure] at stepped
          have isChange : closure.changesIn node.currentTerm = decide (term = node.currentTerm) := by
            unfold PendingClosure.changesIn
            rw [isClosure]
          simp only [onConfigurationChangeDone] at stepped
          split at stepped
          · next left =>
              obtain rfl := Option.some.inj stepped
              refine changing.handed (fun isChange' => ?_) _
              rw [isChange, decide_eq_true_eq] at isChange'
              exact left.resolve_right (not_not_intro isChange')
          · next current =>
              rw [not_or, not_not, not_not] at current
              obtain ⟨leads, isTerm⟩ := current
              rw [decide_eq_true isTerm] at isChange
              obtain ⟨leader, waits, type, isConf, conf, stage⟩ :=
                changing.of_change leads List.mem_cons_self isChange
              have base := changing.base
              rw [changes_cons, if_pos isChange] at waits
              have committed := iterating.committed
              have isIndex := invariant.aligned.indexed _ _ atIndex
              have quiet : Quiet (iter.closures.drop (iter.curIndex + 1 - iter.firstClosureIndex))
                  { node with handed := (closure, entry) :: node.handed } := by
                refine ⟨⟨base.terms, fun closure member =>
                  base.closureTerms closure (List.mem_cons_of_mem _ member), base.known,
                  base.lastKnown, base.snapshot, base.answered⟩, leader, changing.led leads,
                  (List.cons.inj waits).2, ?_⟩
                intro index other isUncommitted
                -- the only such entry is the one that was committed
                obtain ⟨waiting, member, isEntry⟩ := changing.waits leads index other isUncommitted
                rw [changes_cons, if_pos isChange, waits, List.mem_singleton] at member
                have found := invariant.aligned.indexed index other isUncommitted.2.1
                rw [← isEntry, member] at found
                have above := isUncommitted.1
                simp only at above
                omega
              refine quiet.nextStage (changing.current leads) (fun isStable => ?_) stepped
              rcases stage with ⟨joint, _⟩ | ⟨_, noOld⟩
              · exact absurd (joint.symm.trans isStable) (by simp)
              · show node.conf.stable = true
                unfold ConfigurationEntry.stable
                rw [noOld]
                rfl

theorem Changing.nextCommitted (changing : Changing node.popped node) (invariant : Invariant node)
    (stepped : node.nextCommitted = some node') : Changing node'.popped node' := by
  unfold NodeImpl.nextCommitted at stepped
  cases isIter : node.iterator with
  | none =>
      rw [isIter] at stepped
      contradiction
  | some iter =>
      rw [isIter] at stepped
      simp only at stepped
      split_ifs at stepped with good
      rw [IteratorImpl.isGood, decide_eq_true_eq] at good
      have inside := good.1
      split at stepped
      · contradiction
      · next entry isEntry =>
          obtain ⟨middle, handed, rfl⟩ := Option.map_eq_some_iff.mp stepped
          have after := changing.hand invariant isIter inside handed
          have isPopped : popped { middle with iterator := some (iter.next middle.log.get?) } =
              iter.closures.drop (iter.curIndex + 1 - iter.firstClosureIndex) := by
            unfold popped IteratorImpl.next
            rw [if_pos inside]
            simp only
            split <;> rfl
          rw [isPopped]
          exact after.taken middle.closureQueue _ middle.failed rfl (le_refl _)

theorem popClosureUntil_append {K : Type} {closures queue : ClosureQueue K} {index first : Nat}
    {taken : List K} (popped : closures.popClosureUntil index = some ((first, taken), queue)) :
    taken ++ queue.queue = closures.queue := by
  unfold ClosureQueue.popClosureUntil at popped
  split_ifs at popped
  · simp only [Option.some.injEq, Prod.mk.injEq] at popped
    obtain ⟨⟨_, rfl⟩, rfl⟩ := popped
    rfl
  · simp only [Option.some.injEq, Prod.mk.injEq] at popped
    obtain ⟨⟨_, rfl⟩, rfl⟩ := popped
    exact List.take_append_drop _ _

omit [Inhabited D] in
theorem Changing.startCommitted (changing : Changing node.popped node) (invariant : Invariant node)
    {committedIndex : Nat} (reported : committedIndex ∈ node.ballotBox.committed)
    (stepped : node.startCommitted committedIndex = some node') : Changing node'.popped node' := by
  have committed := invariant.aligned.increasing.2 committedIndex reported
  have inside := invariant.aligned.committed
  unfold NodeImpl.startCommitted at stepped
  split_ifs at stepped with busy done
  · obtain rfl := Option.some.inj stepped
    exact changing
  · have idle : node.iterator = none := by simpa using busy
    obtain ⟨⟨⟨first, closures⟩, queue⟩, taken, rfl⟩ := Option.map_eq_some_iff.mp stepped
    obtain ⟨_, behind, _⟩ :=
      popClosureUntil_keeps (invariant.idle idle) (by omega) (by omega) taken
    have isPopped : popped
        { node with
          closureQueue := queue
          iterator := some (IteratorImpl.init closures first node.lastAppliedIndex committedIndex
            node.log.get?) } = closures := by
      have all : node.lastAppliedIndex + 1 - first = 0 := by omega
      unfold popped IteratorImpl.init IteratorImpl.next
      rw [if_pos (show node.lastAppliedIndex ≤ committedIndex by omega)]
      simp only
      split
      · simp only [all, List.drop_zero]
      · simp only [all, List.drop_zero]
    have none : node.popped = [] := by
      unfold popped
      rw [idle]
    refine isPopped.symm ▸ changing.taken queue _ node.failed ?_ (le_refl _)
    rw [none]
    exact popClosureUntil_append taken

omit [Inhabited D] in
theorem Changing.finishCommitted (changing : Changing node.popped node)
    (invariant : Invariant node) (stepped : node.finishCommitted = some node') :
    Changing node'.popped node' := by
  unfold NodeImpl.finishCommitted at stepped
  cases isIter : node.iterator with
  | none =>
      rw [isIter] at stepped
      contradiction
  | some iter =>
      rw [isIter] at stepped
      simp only at stepped
      split at stepped
      · contradiction
      · next bad =>
          obtain rfl := Option.some.inj stepped
          have iterating := invariant.iterating iter isIter
          have lower := iterating.lower
          have upper := iterating.upper
          have tail := iterating.tail
          have last : iter.committedIndex < iter.curIndex := by
            by_contra within
            refine bad ?_
            rw [IteratorImpl.isGood, decide_eq_true_eq]
            exact ⟨not_lt.mp within, iterating.works⟩
          have all : node.popped = [] := by
            unfold popped
            rw [isIter]
            exact List.drop_eq_nil_of_le (by omega)
          rw [all] at changing
          exact changing.taken node.closureQueue none _ rfl (show _ ≤ iter.committedIndex by omega)

/-! ### Runs -/

omit [Inhabited D] in
theorem Changing.initial (initial : Initial node) : Changing node.popped node := by
  have fresh := initial.fresh
  have noIterator : node.popped = [] := by
    unfold popped
    rw [fresh]
  have ctx : node.confCtx = {} := by rw [fresh]
  rw [noIterator]
  refine Changing.of_follower ?_ initial.state (by rw [ctx]) (by rw [ctx]) ?_
  · refine ⟨initial.terms, ?_, initial.conf.1, initial.conf.2.1, initial.conf.2.2, ?_⟩
    · rw [fresh]
      exact fun closure member => absurd member List.not_mem_nil
    · rw [fresh]
      exact List.Perm.nil
  · intro led
    rw [show node.leaderTerm = none by rw [fresh]] at led
    contradiction

omit [Inhabited D] in
theorem Changing.keeps (invariant : Invariant node)
    (keeps : Keeps node.reached node.popped node node') (changing : Changing node.popped node') :
    Changing node'.popped node' := by
  obtain ⟨_, extended⟩ := keeps invariant.aligned
  have same : node'.popped = node.popped := by
    unfold popped
    rw [extended.iterator]
  rw [same]
  exact changing

theorem Changing.step {action : Action P D C} (changing : Changing node.popped node)
    (invariant : Invariant node) (allowed : Allowed action node)
    (stepped : step action node = some node') : Changing node'.popped node' := by
  cases action with
  | electSelf =>
      obtain rfl := Option.some.inj stepped
      have follows : node.state.leads = false := by
        rcases allowed with follower | candidate
        · rw [follower]
          rfl
        · rw [candidate]
          rfl
      exact Changing.keeps invariant (electSelf_keeps follows) (changing.electSelf allowed)
  | becomeLeader =>
      exact Changing.keeps invariant (becomeLeader_keeps stepped) (changing.becomeLeader stepped)
  | stepDown term =>
      obtain rfl := Option.some.inj stepped
      exact Changing.keeps invariant (stepDown_keeps node term) (changing.stepDown term)
  | transferLeadership =>
      obtain rfl := Option.some.inj stepped
      exact Changing.keeps invariant (transferLeadership_keeps node) changing.transferLeadership
  | handleTransferTimeout term =>
      obtain rfl := Option.some.inj stepped
      exact Changing.keeps invariant (handleTransferTimeout_keeps node term)
        (changing.handleTransferTimeout term)
  | onError =>
      obtain rfl := Option.some.inj stepped
      exact Changing.keeps invariant (onError_keeps node) changing.onError
  | apply tasks rejectNewUserLogs =>
      exact Changing.keeps invariant (apply_keeps stepped) (changing.apply stepped)
  | addPeer peer waits =>
      exact Changing.keeps invariant (registerConfChange_keeps stepped)
        (changing.registerConfChange stepped)
  | removePeer peer waits =>
      exact Changing.keeps invariant (registerConfChange_keeps stepped)
        (changing.registerConfChange stepped)
  | changePeers newPeers waits =>
      exact Changing.keeps invariant (registerConfChange_keeps stepped)
        (changing.registerConfChange stepped)
  | onCaughtUp position status =>
      exact Changing.keeps invariant (onCaughtUp_keeps stepped) (changing.onCaughtUp stepped)
  | commitAt firstLogIndex lastLogIndex peer =>
      unfold NodeImpl.step at stepped
      obtain ⟨box, boxStep, rfl⟩ := Option.map_eq_some_iff.mp stepped
      have keeps : Keeps node.reached node.popped node { node with ballotBox := box } :=
        commitAt_keeps boxStep
      exact Changing.keeps invariant keeps (changing.ballotBox (keeps invariant.aligned).2.committed)
  | setLastCommittedIndex lastCommittedIndex =>
      unfold NodeImpl.step at stepped
      obtain ⟨box, boxStep, rfl⟩ := Option.map_eq_some_iff.mp stepped
      have keeps : Keeps node.reached node.popped node { node with ballotBox := box } :=
        setLastCommittedIndex_keeps allowed boxStep
      exact Changing.keeps invariant keeps (changing.ballotBox (keeps invariant.aligned).2.committed)
  | receive cut entries =>
      obtain rfl := Option.some.inj stepped
      obtain ⟨follower, notLed, lower, upper, _, applied, placed⟩ := allowed
      have received := changing.receive follower notLed lower upper applied placed
      have same : (node.receive cut entries).popped = node.popped := by
        have kept := (checkAndSetConfiguration_frame
          { node with
            log := (node.log.keepBelow cut).append entries
            configManager := LogManager.addConfigurations
              (node.configManager.truncateSuffix (cut - 1)) entries }).2.1
        simp only [applying, Prod.mk.injEq] at kept
        unfold popped NodeImpl.receive
        rw [kept.1]
      rw [same]
      exact received
  | startCommitted committedIndex => exact changing.startCommitted invariant allowed stepped
  | nextCommitted => exact changing.nextCommitted invariant stepped
  | finishCommitted => exact changing.finishCommitted invariant stepped

theorem changing_of_reachable (reached : (system P D C).Reachable node) :
    Changing node.popped node := by
  induction reached with
  | start initial => exact Changing.initial initial
  | next reached allowed stepped ih => exact ih.step (invariant_of_reachable reached) allowed stepped

/-- In every reachable state: a leader without a change has a stable configuration,
the term has one configuration entry to commit at most, a commit that moves the change
is that of its current stage, and every closure of a request is run once. -/
theorem configurationChange_stages (reached : (system P D C).Reachable node) :
    (node.state.leads = true → node.confCtx.isBusy = false → node.conf.stable = true) ∧
      (node.leaderTerm = some node.currentTerm → ∀ index index' entry entry',
        Uncommitted node index entry → Uncommitted node index' entry' → index = index') ∧
      (∀ iter entry closure term leaderStart, node.iterator = some iter → iter.isGood = true →
        iter.curEntry = some entry → iter.done = some closure →
        closure.done = .configurationChange term leaderStart → node.state.leads = true →
        term = node.currentTerm →
          entry.type = .configuration ∧ entry.id.index ≤ node.ballotBox.lastCommittedIndex ∧
          ConfigurationEntry.ofLogEntry entry = node.conf ∧
          node.conf.conf = node.confCtx.newPeers ∧
          (node.confCtx.stage = .joint ∧ node.conf.oldConf = node.confCtx.oldPeers ∨
            node.confCtx.stage = .stable ∧ node.conf.oldConf = Configuration.empty)) ∧
      (node.responses.map Prod.fst ++ node.confCtx.done.toList).Perm (List.range node.requests) ∧
      (node.confCtx.isBusy = false →
        (node.responses.map Prod.fst).Perm (List.range node.requests)) := by
  have changing := changing_of_reachable reached
  have invariant := invariant_of_reachable reached
  have answered := changing.base.answered
  have idle (notBusy : node.confCtx.isBusy = false) : node.confCtx.stage = .none := by
    simpa [ConfigurationCtx.isBusy] using notBusy
  refine ⟨?_, changing.single, ?_, answered, ?_⟩
  · intro leads notBusy
    have stage := changing.stage leads
    unfold AtStage at stage
    rw [idle notBusy] at stage
    exact stage.1
  · intro iter entry closure term leaderStart isIter good isEntry isDone isClosure leads isTerm
    have iterating := invariant.iterating iter isIter
    rw [IteratorImpl.isGood, decide_eq_true_eq] at good
    obtain ⟨atIndex, split⟩ := iterating.done isDone
    rw [iterating.entry good.1, atIndex] at isEntry
    obtain rfl := Option.some.inj isEntry
    have member : closure ∈ node.popped ++ node.closureQueue.queue := by
      unfold popped
      rw [isIter]
      simp only
      rw [split]
      exact List.mem_cons_self
    have isChange : closure.changesIn node.currentTerm = true := by
      unfold PendingClosure.changesIn
      rw [isClosure]
      exact decide_eq_true isTerm
    obtain ⟨_, _, type, isConf, conf, stage⟩ := changing.of_change leads member isChange
    refine ⟨type, ?_, isConf, conf, stage⟩
    rw [invariant.aligned.indexed _ _ atIndex]
    exact good.1.trans iterating.committed
  · intro notBusy
    rw [changing.done (idle notBusy), Option.toList_none, List.append_nil] at answered
    exact answered

def peerAdded : List (Action Nat Nat Nat) :=
  [.electSelf, .becomeLeader, .commitAt 1 1 1, .startCommitted 1, .nextCommitted,
    .finishCommitted, .addPeer 2 (fun _ => true), .onCaughtUp 0 .ok, .commitAt 2 2 1,
    .commitAt 2 2 2, .startCommitted 2, .nextCommitted, .finishCommitted]

theorem configurationChange_stages_peerAdded :
    ∃ node, (system Nat Nat Nat).Reachable node ∧ node.conf.conf.peers = [1, 2] ∧
      node.conf.stable = true ∧ node.responses = [(0, 0)] ∧
      (node.responses.map Prod.fst).Perm (List.range node.requests) := by
  have follows : ∃ node, (system Nat Nat Nat).Follows peerAdded followerNode node ∧
      node.conf.conf.peers = [1, 2] ∧ node.responses = [(0, 0)] ∧ node.state.leads = true ∧
      node.confCtx.isBusy = false := by
    refine ⟨_, ⟨Or.inl rfl, _, rfl, trivial, _, rfl, trivial, _, rfl, List.Mem.head _, _, rfl, trivial,
      _, rfl, trivial, _, rfl, trivial, _, rfl, trivial, _, rfl, trivial, _, rfl, trivial, _, rfl,
      List.Mem.head _, _, rfl, trivial, _, rfl, trivial, _, rfl, rfl⟩, ?_, ?_, ?_, ?_⟩
    · decide
    · decide
    · rfl
    · rfl
  obtain ⟨node, follows, peers, responses, leads, idle⟩ := follows
  have reached := (TransitionSystem.Reachable.start followerNode_initial).follows peerAdded follows
  obtain ⟨stable, _, _, _, answered⟩ := configurationChange_stages reached
  exact ⟨node, reached, peers, stable leads idle, responses, answered idle⟩

end NodeImpl

end QuorumKit
