/-
The change of the configuration of a leader, `ConfigurationCtx` of `braft/node.cpp`.

A stage is left only when its own entry is committed, so a leader has at most one
configuration entry of its term that is not committed, and one closure that waits
for it.  A leader without a change has a stable configuration.
-/

import QuorumKit.Node.ClosureDelivery

namespace QuorumKit

def PendingClosure.changesIn {P D C : Type} (term : Nat) (closure : PendingClosure P D C) : Bool :=
  match closure.done with
  | .task _ => false
  | .configurationChange changeTerm _ => changeTerm = term

namespace NodeImpl

variable {P D C : Type} [DecidableEq P] [Inhabited D]

/-- The closures that wait for a configuration entry of the current term. -/
def changes (popped : List (PendingClosure P D C)) (node : NodeImpl P D C) :
    List (PendingClosure P D C) :=
  (popped ++ node.closureQueue.queue).filter (PendingClosure.changesIn node.currentTerm)

/-- A configuration entry of the current term that is not committed. -/
def Uncommitted (node : NodeImpl P D C) (index : Nat) (entry : LogEntry P D) : Prop :=
  node.ballotBox.lastCommittedIndex < index ∧ node.log.get? index = some entry ∧
    entry.type = .configuration ∧ entry.id.term = node.currentTerm

structure Base (popped : List (PendingClosure P D C)) (node : NodeImpl P D C) : Prop where
  terms : ∀ index entry, node.log.get? index = some entry → entry.id.term ≤ node.currentTerm
  closureTerms : ∀ closure ∈ popped ++ node.closureQueue.queue, ∀ term leaderStart,
    closure.done = .configurationChange term leaderStart → term ≤ node.currentTerm
  known : node.conf.id.index < node.log.stop
  lastKnown : node.configManager.lastConfiguration.id.index < node.log.stop
  snapshot : node.configManager.snapshot.id.index ≤ node.lastAppliedIndex
  answered : (node.responses.map Prod.fst ++ node.confCtx.done.toList).Perm
    (List.range node.requests)

structure Applied (popped : List (PendingClosure P D C)) (node : NodeImpl P D C)
    (newConf oldConf : Configuration P) : Prop where
  conf : node.conf.conf = newConf
  oldConf : node.conf.oldConf = oldConf
  waits : ∃ closure, changes popped node = [closure] ∧ closure.entry.type = .configuration ∧
    ConfigurationEntry.ofLogEntry closure.entry = node.conf

def AtStage (popped : List (PendingClosure P D C)) (node : NodeImpl P D C) : Prop :=
  match node.confCtx.stage with
  | .none => node.conf.stable = true ∧ changes popped node = []
  | .catchingUp =>
      node.conf.stable = true ∧ changes popped node = [] ∧
        node.conf.conf = node.confCtx.oldPeers ∧
        node.confCtx.nchanges =
          (node.confCtx.newPeers.minus node.confCtx.oldPeers).size +
            (node.confCtx.oldPeers.minus node.confCtx.newPeers).size
  | .joint => Applied popped node node.confCtx.newPeers node.confCtx.oldPeers
  | .stable => Applied popped node node.confCtx.newPeers Configuration.empty

structure Changing (popped : List (PendingClosure P D C)) (node : NodeImpl P D C) : Prop where
  base : Base popped node
  led : node.state.leads = true → node.leaderTerm = some node.currentTerm
  idle : node.state ≠ .leader → node.confCtx.stage = .none
  done : node.confCtx.stage = .none → node.confCtx.done = none
  fresh : node.state = .candidate → changes popped node = [] ∧
    ∀ index entry, node.log.get? index = some entry → entry.id.term < node.currentTerm
  current : node.state.leads = true → node.conf.id = node.configManager.lastConfiguration.id
  stage : node.state.leads = true → AtStage popped node
  waits : node.state.leads = true → ∀ index entry, Uncommitted node index entry →
    ∃ closure ∈ changes popped node, closure.entry = entry
  single : node.leaderTerm = some node.currentTerm → ∀ index index' entry entry',
    Uncommitted node index entry → Uncommitted node index' entry' → index = index'

structure Quiet (popped : List (PendingClosure P D C)) (node : NodeImpl P D C) : Prop where
  base : Base popped node
  leader : node.state = .leader
  led : node.leaderTerm = some node.currentTerm
  changes : changes popped node = []
  committed : ∀ index entry, ¬ Uncommitted node index entry

variable {popped : List (PendingClosure P D C)} {node node' : NodeImpl P D C}

def recorded (node : NodeImpl P D C) :
    IndexedLog (LogEntry P D) × BallotBox P × ClosureQueue (PendingClosure P D C) × Nat ×
      Option Nat × ConfigurationEntry P × ConfigurationManager P × Nat :=
  (node.log, node.ballotBox, node.closureQueue, node.currentTerm, node.leaderTerm, node.conf,
    node.configManager, node.lastAppliedIndex)

omit [DecidableEq P] [Inhabited D] in
theorem changes_of_recorded (same : node'.recorded = node.recorded) :
    changes popped node' = changes popped node := by
  simp only [recorded, Prod.mk.injEq] at same
  rw [changes, changes, same.2.2.1, same.2.2.2.1]

omit [DecidableEq P] [Inhabited D] in
theorem uncommitted_of_recorded (same : node'.recorded = node.recorded) (index : Nat)
    (entry : LogEntry P D) : Uncommitted node' index entry ↔ Uncommitted node index entry := by
  simp only [recorded, Prod.mk.injEq] at same
  rw [Uncommitted, Uncommitted, same.1, same.2.1, same.2.2.2.1]

omit [DecidableEq P] [Inhabited D] in
theorem Base.frame (base : Base popped node) (same : node'.recorded = node.recorded)
    (answered : (node'.responses.map Prod.fst ++ node'.confCtx.done.toList).Perm
      (List.range node'.requests)) : Base popped node' := by
  simp only [recorded, Prod.mk.injEq] at same
  obtain ⟨log, _, queue, term, _, conf, manager, applied⟩ := same
  constructor
  · rw [log, term]
    exact base.terms
  · rw [queue, term]
    exact base.closureTerms
  · rw [conf, log]
    exact base.known
  · rw [manager, log]
    exact base.lastKnown
  · rw [manager, applied]
    exact base.snapshot
  · exact answered

omit [Inhabited D] in
theorem AtStage.of_same {popped' : List (PendingClosure P D C)} (stage : AtStage popped node)
    (changes : changes popped' node' = changes popped node) (conf : node'.conf = node.conf)
    (ctx : node'.confCtx = node.confCtx) : AtStage popped' node' := by
  unfold AtStage at stage ⊢
  rw [ctx]
  cases isStage : node.confCtx.stage with
  | none =>
      rw [isStage] at stage
      exact ⟨by rw [conf]; exact stage.1, changes.trans stage.2⟩
  | catchingUp =>
      rw [isStage] at stage
      simp only [conf, changes]
      exact stage
  | joint =>
      rw [isStage] at stage
      exact ⟨by rw [conf]; exact stage.conf, by rw [conf]; exact stage.oldConf,
        by rw [changes, conf]; exact stage.waits⟩
  | stable =>
      rw [isStage] at stage
      exact ⟨by rw [conf]; exact stage.conf, by rw [conf]; exact stage.oldConf,
        by rw [changes, conf]; exact stage.waits⟩

omit [Inhabited D] in
theorem Changing.frame (changing : Changing popped node) (same : node'.recorded = node.recorded)
    (answered : (node'.responses.map Prod.fst ++ node'.confCtx.done.toList).Perm
      (List.range node'.requests))
    (leads : node'.state.leads = true → node.state.leads = true)
    (candidate : node'.state = .candidate → node.state = .candidate)
    (idle : node'.state ≠ .leader → node'.confCtx.stage = .none)
    (done : node'.confCtx.stage = .none → node'.confCtx.done = none)
    (stage : node'.state.leads = true → AtStage popped node') : Changing popped node' := by
  have changes : changes popped node' = changes popped node := changes_of_recorded same
  have uncommitted := uncommitted_of_recorded same
  have base := changing.base.frame same answered
  simp only [recorded, Prod.mk.injEq] at same
  obtain ⟨log, _, queue, term, led, conf, manager, _⟩ := same
  constructor
  · exact base
  · intro isLeader
    rw [led, term]
    exact changing.led (leads isLeader)
  · exact idle
  · exact done
  · intro isCandidate
    rw [changes, log, term]
    exact changing.fresh (candidate isCandidate)
  · intro isLeader
    rw [conf, manager]
    exact changing.current (leads isLeader)
  · exact stage
  · intro isLeader index entry isUncommitted
    rw [changes]
    exact changing.waits (leads isLeader) index entry ((uncommitted index entry).mp isUncommitted)
  · intro isLed index index' entry entry' left right
    rw [led, term] at isLed
    exact changing.single isLed index index' entry entry' ((uncommitted index entry).mp left)
      ((uncommitted index' entry').mp right)

omit [DecidableEq P] [Inhabited D] in
theorem appendPendingTask_cases {conf : Configuration P} {oldConf : Option (Configuration P)}
    {entry : LogEntry P D} {done : Done C}
    (stepped : node.appendPendingTask conf oldConf entry done = some node') :
    ∃ box, box.lastCommittedIndex = node.ballotBox.lastCommittedIndex ∧ node' =
      { node with
        ballotBox := box
        closureQueue :=
          node.closureQueue.appendPendingClosure
            { number := node.appended, entry := entry, done := done }
        appended := node.appended + 1
        log := node.log.append [entry] } := by
  obtain ⟨box, appended, rfl⟩ := Option.map_eq_some_iff.mp stepped
  refine ⟨box, ?_, rfl⟩
  unfold BallotBox.appendPendingTask at appended
  split_ifs at appended
  obtain rfl := Option.some.inj appended
  rfl

theorem found_append {E : Type} {log : IndexedLog E} {entry other : E} {index : Nat}
    (found : (log.append [entry]).get? index = some other) :
    log.get? index = some other ∨ index = log.stop ∧ other = entry := by
  rw [IndexedLog.get?_append] at found
  split_ifs at found with inside
  · exact Or.inl found
  · rw [List.getElem?_singleton] at found
    split_ifs at found with last
    exact Or.inr ⟨by omega, (Option.some.inj found).symm⟩

omit [DecidableEq P] [Inhabited D] in
theorem changes_appendPendingClosure (popped : List (PendingClosure P D C))
    (node : NodeImpl P D C) (closure : PendingClosure P D C) (node' : NodeImpl P D C)
    (queue : node'.closureQueue = node.closureQueue.appendPendingClosure closure)
    (term : node'.currentTerm = node.currentTerm) :
    changes popped node' =
      changes popped node ++ [closure].filter (PendingClosure.changesIn node.currentTerm) := by
  unfold changes
  rw [queue, term, ClosureQueue.appendPendingClosure, ← List.append_assoc, List.filter_append]

omit [DecidableEq P] [Inhabited D] in
theorem Base.appendPendingTask (base : Base popped node) {conf : Configuration P}
    {oldConf : Option (Configuration P)} {entry : LogEntry P D} {done : Done C}
    (term : entry.id.term = node.currentTerm)
    (isTerm : ∀ term leaderStart, done = .configurationChange term leaderStart →
      term ≤ node.currentTerm)
    (stepped : node.appendPendingTask conf oldConf entry done = some node') :
    Base popped node' := by
  obtain ⟨box, _, rfl⟩ := appendPendingTask_cases stepped
  constructor
  · intro index other found
    rcases found_append found with former | ⟨_, rfl⟩
    · exact base.terms index other former
    · exact term.le
  · intro closure member term leaderStart isDone
    simp only [ClosureQueue.appendPendingClosure, ← List.append_assoc, List.mem_append,
      List.mem_singleton] at member
    rcases member with former | rfl
    · exact base.closureTerms closure (List.mem_append.mpr former) term leaderStart isDone
    · exact isTerm term leaderStart isDone
  · simp only [IndexedLog.append_stop, List.length_singleton]
    exact base.known.trans (Nat.lt_succ_self _)
  · simp only [IndexedLog.append_stop, List.length_singleton]
    exact base.lastKnown.trans (Nat.lt_succ_self _)
  · exact base.snapshot
  · exact base.answered

omit [Inhabited D] in
theorem Changing.appendData (changing : Changing popped node) (leader : node.state = .leader)
    {conf : Configuration P} {oldConf : Option (Configuration P)} {entry : LogEntry P D}
    {done : Option C} (data : entry.type = .data) (term : entry.id.term = node.currentTerm)
    (stepped : node.appendPendingTask conf oldConf entry (.task done) = some node') :
    Changing popped node' ∧ node'.state = .leader := by
  have base := changing.base.appendPendingTask term
    (fun _ _ isDone => absurd isDone (by simp)) stepped
  obtain ⟨box, committed, rfl⟩ := appendPendingTask_cases stepped
  have leads : node.state.leads = true := by rw [leader]; rfl
  have same : changes popped
      { node with
        ballotBox := box
        closureQueue :=
          node.closureQueue.appendPendingClosure
            { number := node.appended, entry := entry, done := .task done }
        appended := node.appended + 1
        log := node.log.append [entry] } = changes popped node := by
    refine (changes_appendPendingClosure popped node
      { number := node.appended, entry := entry, done := .task done } _ ?_ ?_).trans
      (List.append_nil (changes popped node))
    · rfl
    · rfl
  have former : ∀ index other,
      Uncommitted
        { node with
          ballotBox := box
          closureQueue :=
            node.closureQueue.appendPendingClosure
              { number := node.appended, entry := entry, done := .task done }
          appended := node.appended + 1
          log := node.log.append [entry] } index other →
        Uncommitted node index other := by
    rintro index other ⟨above, found, type, isTerm⟩
    rcases found_append found with former | ⟨_, rfl⟩
    · exact ⟨committed ▸ above, former, type, isTerm⟩
    · rw [data] at type
      contradiction
  refine ⟨?_, leader⟩
  constructor
  · exact base
  · exact changing.led
  · exact changing.idle
  · exact changing.done
  · intro candidate
    exact absurd (leader.symm.trans candidate) (by simp)
  · exact changing.current
  · intro _
    exact (changing.stage leads).of_same same rfl rfl
  · intro _ index other isUncommitted
    rw [same]
    exact changing.waits leads index other (former index other isUncommitted)
  · intro led index index' other other' left right
    exact changing.single led index index' other other' (former index other left)
      (former index' other' right)

omit [Inhabited D] in
theorem Changing.applyTasks (tasks : List (Task D C)) : ∀ {node : NodeImpl P D C},
    Changing popped node → node.state = .leader → node.applyTasks tasks = some node' →
      Changing popped node' ∧ node'.state = .leader := by
  induction tasks with
  | nil =>
      intro node changing leader stepped
      obtain rfl := Option.some.inj stepped
      exact ⟨changing, leader⟩
  | cons task rest ih =>
      intro node changing leader stepped
      unfold NodeImpl.applyTasks at stepped
      split at stepped
      · have rejected : Changing popped
            { node with rejected := (task.done, EPERM) :: node.rejected } :=
          changing.frame rfl changing.base.answered id id changing.idle changing.done
            (fun leads => (changing.stage leads).of_same rfl rfl rfl)
        exact ih rejected leader stepped
      · obtain ⟨middle, appended, stepped⟩ := Option.bind_eq_some_iff.mp stepped
        obtain ⟨between, leads⟩ := changing.appendData leader rfl rfl appended
        exact ih between leads stepped

theorem ofLogEntry_configurationEntry (node : NodeImpl P D C) (newConf : Configuration P)
    (oldConf : Option (Configuration P)) :
    ConfigurationEntry.ofLogEntry (node.configurationEntry newConf oldConf) =
      { id := { index := node.log.stop, term := node.currentTerm }
        conf := newConf
        oldConf := oldConf.getD Configuration.empty } := by
  unfold ConfigurationEntry.ofLogEntry configurationEntry
  simp only [Option.getD_some, Configuration.ofList_peers]
  cases oldConf with
  | none => rfl
  | some oldConf =>
      simp only [Option.map_some, Option.getD_some, Configuration.ofList_peers]

theorem unsafeApplyConfiguration_cases (base : Base popped node) {newConf : Configuration P}
    {oldConf : Option (Configuration P)} {leaderStart : Bool}
    (stepped : node.unsafeApplyConfiguration newConf oldConf leaderStart = some node') :
    ∃ middle, node.appendPendingTask newConf oldConf (node.configurationEntry newConf oldConf)
        (.configurationChange node.currentTerm leaderStart) = some middle ∧
      node' =
        { middle with
          configManager := node.configManager.add
            (ConfigurationEntry.ofLogEntry (node.configurationEntry newConf oldConf))
          conf := ConfigurationEntry.ofLogEntry (node.configurationEntry newConf oldConf) } ∧
      node'.configManager.lastConfiguration = node'.conf := by
  unfold unsafeApplyConfiguration at stepped
  split_ifs at stepped
  obtain ⟨middle, appended, rfl⟩ := Option.map_eq_some_iff.mp stepped
  have entryId : (ConfigurationEntry.ofLogEntry
      (node.configurationEntry newConf oldConf)).id.index = node.log.stop := by
    rw [ofLogEntry_configurationEntry]
  have isLast := node.configManager.add_lastConfiguration
    (ConfigurationEntry.ofLogEntry (node.configurationEntry newConf oldConf))
    (by rw [entryId]; exact base.lastKnown)
  have newer : node.conf.id ≠ (ConfigurationEntry.ofLogEntry
      (node.configurationEntry newConf oldConf)).id := by
    intro same
    have known := base.known
    rw [same, entryId] at known
    exact lt_irrefl _ known
  refine ⟨middle, appended, ?_⟩
  obtain ⟨box, _, rfl⟩ := appendPendingTask_cases appended
  simp only [checkAndSetConfiguration, addConfiguration, isLast, if_neg newer, and_self]

theorem Quiet.unsafeApplyConfiguration (quiet : Quiet popped node) {newConf : Configuration P}
    {oldConf : Option (Configuration P)} {leaderStart : Bool}
    (isNew : newConf = node.confCtx.newPeers)
    (isStage : node.confCtx.stage = .joint ∧ oldConf = some node.confCtx.oldPeers ∨
      node.confCtx.stage = .stable ∧ oldConf = none)
    (stepped : node.unsafeApplyConfiguration newConf oldConf leaderStart = some node') :
    Changing popped node' := by
  obtain ⟨middle, appended, isNode, isLast⟩ := unsafeApplyConfiguration_cases quiet.base stepped
  have base := quiet.base.appendPendingTask rfl
    (fun term _ isDone => (Done.configurationChange.inj isDone).1.ge) appended
  have entry := ofLogEntry_configurationEntry node newConf oldConf
  obtain ⟨box, committed, rfl⟩ := appendPendingTask_cases appended
  have closure : NodeImpl.changes popped node' =
      [{ number := node.appended
         entry := node.configurationEntry newConf oldConf
         done := .configurationChange node.currentTerm leaderStart }] := by
    rw [changes_appendPendingClosure popped node
      { number := node.appended
        entry := node.configurationEntry newConf oldConf
        done := .configurationChange node.currentTerm leaderStart } node'
      (by rw [isNode]) (by rw [isNode]), quiet.changes, List.nil_append, List.filter_cons_of_pos,
      List.filter_nil]
    exact decide_eq_true rfl
  have own : ∀ index other, Uncommitted node' index other →
      index = node.log.stop ∧ other = node.configurationEntry newConf oldConf := by
    rintro index other ⟨above, found, type, term⟩
    rw [isNode] at above found term
    rcases found_append found with former | last
    · exact absurd ⟨committed ▸ above, former, type, term⟩ (quiet.committed index other)
    · exact last
  have leads : node'.state = .leader := by rw [isNode]; exact quiet.leader
  have applied : Applied popped node' newConf (oldConf.getD Configuration.empty) := by
    refine ⟨by rw [isNode, entry], by rw [isNode, entry], _, closure, rfl, by rw [isNode]⟩
  have sameCtx : node'.confCtx = node.confCtx := by rw [isNode]
  constructor
  · constructor
    · rw [isNode]
      exact base.terms
    · rw [isNode]
      exact base.closureTerms
    · rw [isNode, entry]
      simp only [IndexedLog.append_stop, List.length_singleton]
      exact Nat.lt_succ_self _
    · rw [isLast, isNode, entry]
      simp only [IndexedLog.append_stop, List.length_singleton]
      exact Nat.lt_succ_self _
    · rw [isNode]
      simp only [ConfigurationManager.add_snapshot]
      exact base.snapshot
    · rw [isNode]
      exact base.answered
  · intro _
    rw [isNode]
    exact quiet.led
  · exact fun other => absurd leads other
  · intro none
    rw [sameCtx] at none
    rcases isStage with joint | stable
    · exact absurd (joint.1.symm.trans none) (by simp)
    · exact absurd (stable.1.symm.trans none) (by simp)
  · exact fun candidate => absurd (leads.symm.trans candidate) (by simp)
  · exact fun _ => by rw [isLast]
  · intro _
    unfold AtStage
    rw [sameCtx]
    rcases isStage with ⟨joint, rfl⟩ | ⟨stable, rfl⟩
    · rw [joint, ← isNew]
      exact applied
    · rw [stable, ← isNew]
      exact applied
  · intro _ index other isUncommitted
    rw [closure]
    exact ⟨_, List.mem_singleton_self _, (own index other isUncommitted).2.symm⟩
  · intro _ index index' other other' left right
    rw [(own index other left).1, (own index' other' right).1]

omit [DecidableEq P] [Inhabited D] in
theorem resetCtx_recorded (node : NodeImpl P D C) (status : Option Int) :
    (node.resetCtx status).recorded = node.recorded ∧
      (node.resetCtx status).state = node.state ∧
      (node.resetCtx status).confCtx.stage = .none := by
  unfold resetCtx
  split_ifs with idle
  · exact ⟨rfl, rfl, idle⟩
  · exact ⟨rfl, rfl, rfl⟩

omit [DecidableEq P] [Inhabited D] in
theorem resetCtx_answered (node : NodeImpl P D C) (status : Option Int)
    (done : node.confCtx.stage = .none → node.confCtx.done = none)
    (answered : (node.responses.map Prod.fst ++ node.confCtx.done.toList).Perm
      (List.range node.requests)) :
    (node.resetCtx status).confCtx.done = none ∧
      ((node.resetCtx status).responses.map Prod.fst ++
        (node.resetCtx status).confCtx.done.toList).Perm
          (List.range (node.resetCtx status).requests) := by
  unfold resetCtx
  split_ifs with idle
  · exact ⟨done idle, answered⟩
  · refine ⟨rfl, ?_⟩
    simp only
    cases isDone : node.confCtx.done with
    | none =>
        rw [isDone] at answered
        exact answered
    | some number =>
        rw [isDone] at answered
        simp only [List.map_cons, Option.toList_none, List.append_nil]
        exact (List.perm_append_singleton number _).symm.trans answered

omit [DecidableEq P] [Inhabited D] in
theorem Base.resetCtx (base : Base popped node) (status : Option Int)
    (done : node.confCtx.stage = .none → node.confCtx.done = none) :
    Base popped (node.resetCtx status) :=
  base.frame (resetCtx_recorded node status).1 (resetCtx_answered node status done base.answered).2

omit [Inhabited D] in
theorem Changing.of_follower (base : Base popped node) (follower : node.state = .follower)
    (stage : node.confCtx.stage = .none) (done : node.confCtx.done = none)
    (single : node.leaderTerm = some node.currentTerm → ∀ index index' entry entry',
      Uncommitted node index entry → Uncommitted node index' entry' → index = index') :
    Changing popped node := by
  have follows : node.state.leads ≠ true := by
    rw [follower]
    exact Bool.false_ne_true
  constructor
  · exact base
  · exact fun leads => absurd leads follows
  · exact fun _ => stage
  · exact fun _ => done
  · exact fun candidate => absurd (follower.symm.trans candidate) (by simp)
  · exact fun leads => absurd leads follows
  · exact fun leads => absurd leads follows
  · exact fun leads => absurd leads follows
  · exact single

omit [DecidableEq P] [Inhabited D] in
theorem single_of_term (base : Base popped node) {term : Nat} (later : node.currentTerm ≤ term)
    (log : node'.log = node.log)
    (committed : node'.ballotBox.lastCommittedIndex = node.ballotBox.lastCommittedIndex)
    (isTerm : node'.currentTerm = term) (led : node'.leaderTerm = node.leaderTerm)
    (single : node.leaderTerm = some node.currentTerm → ∀ index index' entry entry',
      Uncommitted node index entry → Uncommitted node index' entry' → index = index') :
    node'.leaderTerm = some node'.currentTerm → ∀ index index' entry entry',
      Uncommitted node' index entry → Uncommitted node' index' entry' → index = index' := by
  intro isLed index index' entry entry' left right
  unfold Uncommitted at left right
  rw [log, committed, isTerm] at left right
  rcases later.eq_or_lt with same | older
  · rw [led, isTerm, ← same] at isLed
    rw [← same] at left right
    exact single isLed index index' entry entry' left right
  · have bound := base.terms index entry left.2.1
    have isOld := left.2.2.2
    omega

omit [Inhabited D] in
theorem Changing.stepDown (changing : Changing popped node) (term : Nat) :
    Changing popped (node.stepDown term) := by
  have stopped (middle : NodeImpl P D C) (base : Base popped middle)
      (log : middle.log = node.log) (isTerm : middle.currentTerm = node.currentTerm)
      (committed : middle.ballotBox.lastCommittedIndex = node.ballotBox.lastCommittedIndex)
      (led : middle.leaderTerm = node.leaderTerm) (follower : middle.state = .follower)
      (done : middle.confCtx.stage = .none → middle.confCtx.done = none) :
      Changing popped ((middle.resetCtx none).setTerm (max node.currentTerm term)) := by
    obtain ⟨same, state, stage⟩ := resetCtx_recorded middle none
    obtain ⟨noDone, _⟩ := resetCtx_answered middle none done base.answered
    have reset := base.resetCtx none done
    simp only [recorded, Prod.mk.injEq] at same
    obtain ⟨logSame, boxSame, _, termSame, ledSame, _⟩ := same
    refine Changing.of_follower ?_ (state.trans follower) stage noDone ?_
    · constructor
      · intro index entry found
        have bound := reset.terms index entry found
        rw [termSame, isTerm] at bound
        exact bound.trans (le_max_left _ _)
      · intro closure member closureTerm leaderStart isDone
        have bound := reset.closureTerms closure member closureTerm leaderStart isDone
        rw [termSame, isTerm] at bound
        exact bound.trans (le_max_left _ _)
      · exact reset.known
      · exact reset.lastKnown
      · exact reset.snapshot
      · exact reset.answered
    · refine single_of_term changing.base (le_max_left node.currentTerm term) (logSame.trans log) ?_
        rfl (ledSame.trans led) changing.single
      exact (congrArg BallotBox.lastCommittedIndex boxSame).trans committed
  unfold NodeImpl.stepDown
  by_cases active : node.state.isActive = true
  · rw [if_neg (not_not_intro active)]
    by_cases leads : node.state.leads = true
    · simp only [leads, if_true]
      refine stopped (node.clearPendingTasks.setState .follower) ?_ rfl rfl rfl rfl rfl changing.done
      constructor
      · exact changing.base.terms
      · intro closure member
        refine changing.base.closureTerms closure ?_
        simp only [setState, clearPendingTasks, ClosureQueue.clear, List.append_nil] at member
        exact List.mem_append_left _ member
      · exact changing.base.known
      · exact changing.base.lastKnown
      · exact changing.base.snapshot
      · exact changing.base.answered
    · simp only [leads, Bool.false_eq_true, if_false]
      exact stopped (node.setState .follower) (changing.base.frame rfl changing.base.answered) rfl rfl
        rfl rfl rfl changing.done
  · rw [if_pos active]
    exact changing

omit [Inhabited D] in
theorem Changing.quiet (changing : Changing popped node) (leader : node.state = .leader)
    (stage : node.confCtx.stage = .none ∨ node.confCtx.stage = .catchingUp) :
    Quiet popped node := by
  have leads : node.state.leads = true := by rw [leader]; rfl
  have isStage := changing.stage leads
  have empty : changes popped node = [] := by
    unfold AtStage at isStage
    rcases stage with none | catchingUp
    · rw [none] at isStage
      exact isStage.2
    · rw [catchingUp] at isStage
      exact isStage.2.1
  refine ⟨changing.base, leader, changing.led leads, empty, ?_⟩
  intro index entry isUncommitted
  obtain ⟨closure, member, _⟩ := changing.waits leads index entry isUncommitted
  rw [empty] at member
  contradiction

omit [DecidableEq P] [Inhabited D] in
theorem Quiet.frame (quiet : Quiet popped node) (same : node'.recorded = node.recorded)
    (state : node'.state = node.state)
    (answered : (node'.responses.map Prod.fst ++ node'.confCtx.done.toList).Perm
      (List.range node'.requests)) : Quiet popped node' := by
  have uncommitted := uncommitted_of_recorded same
  refine ⟨quiet.base.frame same answered, state.trans quiet.leader, ?_,
    (changes_of_recorded same).trans quiet.changes,
    fun index entry isUncommitted =>
      quiet.committed index entry ((uncommitted index entry).mp isUncommitted)⟩
  simp only [recorded, Prod.mk.injEq] at same
  rw [same.2.2.2.1, same.2.2.2.2.1]
  exact quiet.led

omit [Inhabited D] in
theorem Quiet.resetCtx (quiet : Quiet popped node)
    (current : node.conf.id = node.configManager.lastConfiguration.id)
    (stable : node.conf.stable = true)
    (done : node.confCtx.stage = .none → node.confCtx.done = none) (status : Option Int) :
    Changing popped (node.resetCtx status) := by
  obtain ⟨same, state, stage⟩ := resetCtx_recorded node status
  obtain ⟨noDone, answered⟩ := resetCtx_answered node status done quiet.base.answered
  have quiet' := quiet.frame same state answered
  simp only [recorded, Prod.mk.injEq] at same
  obtain ⟨_, _, _, _, _, conf, manager, _⟩ := same
  constructor
  · exact quiet'.base
  · exact fun _ => quiet'.led
  · exact fun other => absurd quiet'.leader other
  · exact fun _ => noDone
  · exact fun candidate => absurd (quiet'.leader.symm.trans candidate) (by simp)
  · intro _
    rw [conf, manager]
    exact current
  · intro _
    unfold AtStage
    rw [stage]
    exact ⟨by rw [conf]; exact stable, quiet'.changes⟩
  · exact fun _ index entry isUncommitted => absurd isUncommitted (quiet'.committed index entry)
  · exact fun _ index _ entry _ left _ => absurd left (quiet'.committed index entry)

theorem Quiet.nextStage (quiet : Quiet popped node)
    (current : node.conf.id = node.configManager.lastConfiguration.id)
    (stable : node.confCtx.stage = .stable → node.conf.stable = true)
    (stepped : node.nextStage = some node') : Changing popped node' := by
  have staged {stage : Stage} {oldConf : Option (Configuration P)}
      (isStage : stage = .joint ∧ oldConf = some node.confCtx.oldPeers ∨
        stage = .stable ∧ oldConf = none)
      (stepped : { node with confCtx := { node.confCtx with stage := stage }
        }.unsafeApplyConfiguration node.confCtx.newPeers oldConf false = some node') :
      Changing popped node' := by
    have quiet' : Quiet popped { node with confCtx := { node.confCtx with stage := stage } } :=
      quiet.frame rfl rfl quiet.base.answered
    exact quiet'.unsafeApplyConfiguration rfl isStage stepped
  unfold NodeImpl.nextStage at stepped
  simp only at stepped
  split at stepped
  · contradiction
  · split at stepped
    · exact staged (Or.inl ⟨rfl, rfl⟩) stepped
    · exact staged (Or.inr ⟨rfl, rfl⟩) stepped
  · exact staged (Or.inr ⟨rfl, rfl⟩) stepped
  · next isStage =>
      obtain rfl := Option.some.inj stepped
      have left := quiet.resetCtx current (stable isStage)
        (fun none => absurd (isStage.symm.trans none) (by simp)) (some 0)
      split
      · exact left
      · exact left.stepDown node.currentTerm

end NodeImpl

end QuorumKit
