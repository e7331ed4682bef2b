/-
The configuration that a node votes and commits with, `NodeImpl::_conf`.

The copy is refreshed by `check_and_set_configuration`, which compares ids only, at the end
of `apply`, `unsafe_apply_configuration`, `handle_append_entries_request` and
`update_configuration_after_installing_snapshot`.  The calls of the log manager are steps
of their own, so that a snapshot may be set between an append and its refresh.
-/

import QuorumKit.LogManager.ConfigurationHistory
import QuorumKit.LogManager.FlushedLastLogId

namespace QuorumKit

variable {P D C : Type}

/-- `named` keeps the configurations that the log or a snapshot of the node ever had. -/
structure NodeConfiguration (P D C : Type) where
  logManager : ConfigurationRun P D C
  conf : ConfigurationEntry P
  initialConf : Configuration P
  named : List (ConfigurationEntry P)

/-- `check_and_set_configuration`. -/
def LogManager.checkAndSetConfiguration (manager : LogManager P D C)
    (current : ConfigurationEntry P) : ConfigurationEntry P :=
  if current.id ≠ manager.configManager.lastConfiguration.id then
    manager.configManager.lastConfiguration
  else current

namespace NodeConfiguration

variable [DecidableEq P]

/-- The entries of a call of `append_entries`, with the indexes that a leader's get. -/
def submitted (manager : LogManager P D C) (entries : List (LogEntry P D)) :
    List (LogEntry P D) :=
  match entries with
  | [] => []
  | front :: rest =>
      if front.id.index = 0 then LogManager.assignIndexes manager.lastLogIndex (front :: rest)
      else front :: rest

def logged (action : LogManager.Action P D C) (manager : LogManager P D C) :
    List (LogEntry P D) :=
  match action with
  | .appendEntries _ entries _ => submitted manager entries
  | _ => []

def brings (action : LogManager.Action P D C) (manager : LogManager P D C) :
    List (ConfigurationEntry P) :=
  match action with
  | .setSnapshot snapshot => [ConfigurationEntry.ofSnapshot snapshot]
  | _ => configurationsOf (logged action manager)

inductive Action (P D C : Type) where
  | logManager (action : LogManager.Action P D C)
  | checkAndSetConfiguration

def step (action : Action P D C) (node : NodeConfiguration P D C) :
    Option (NodeConfiguration P D C) :=
  match action with
  | .logManager action =>
      (ConfigurationRun.step action node.logManager).map (fun after =>
        { node with
          logManager := after
          named := brings action node.logManager.manager ++ node.named })
  | .checkAndSetConfiguration =>
      some { node with conf := node.logManager.manager.checkAndSetConfiguration node.conf }

def FirstConfigures (entries : List (LogEntry P D)) : Prop :=
  ∀ entry ∈ entries, entry.id.index = 1 → entry.type = .configuration

def Allowed (action : Action P D C) (node : NodeConfiguration P D C) : Prop :=
  match action with
  | .logManager action =>
      ConfigurationRun.system.allowed action node.logManager ∧
        FirstConfigures (logged action node.logManager.manager) ∧
        ∀ conf ∈ brings action node.logManager.manager, ∀ former ∈ node.named,
          former.id = conf.id → former.content = conf.content
  | .checkAndSetConfiguration => True

/-- `_conf` right after `NodeImpl::init`. -/
def initConf (manager : LogManager P D C) (initialConf : Configuration P) :
    ConfigurationEntry P :=
  if 0 < manager.lastLogIndex then
    manager.checkAndSetConfiguration ConfigurationEntry.default
  else { ConfigurationEntry.default with conf := initialConf }

def Initial (node : NodeConfiguration P D C) : Prop :=
  ConfigurationRun.Initial node.logManager ∧
    FirstConfigures node.logManager.log.entries ∧
    node.conf = initConf node.logManager.manager node.initialConf ∧
    node.named = node.logManager.history

def system : TransitionSystem (NodeConfiguration P D C) (Action P D C) :=
  { init := Initial
    allowed := Allowed
    step := step }

/-- The last configuration of the log, else that of the snapshot, else the initial one. -/
def latest (node : NodeConfiguration P D C) : Configuration P × Configuration P :=
  match (configurationsOf node.logManager.log.entries).getLast? with
  | some last => last.content
  | none =>
      if node.logManager.manager.lastSnapshotId.index = 0 then
        (node.initialConf, Configuration.empty)
      else node.logManager.manager.configManager.snapshot.content

structure Moves (action : LogManager.Action P D C) (run after : ConfigurationRun P D C) :
    Prop where
  history : ∀ conf ∈ after.history, conf ∈ run.history ∨
    conf ∈ brings action run.manager ∧ run.manager.lastSnapshotId.index < conf.index
  snapshot : after.manager.configManager.snapshot = run.manager.configManager.snapshot ∧
      after.manager.lastSnapshotId = run.manager.lastSnapshotId ∨
    after.manager.configManager.snapshot ∈ brings action run.manager ∧
      run.manager.lastSnapshotId.index < after.manager.lastSnapshotId.index
  entries : ∀ entry ∈ after.log.entries,
    entry ∈ run.log.entries ∨ entry ∈ logged action run.manager
  stop : after.log.stop = 1 → run.log.stop = 1

variable {action : LogManager.Action P D C} {run after : ConfigurationRun P D C}
  {manager : LogManager P D C}

theorem Moves.same (action : LogManager.Action P D C) (log : after.log = run.log)
    (history : after.history = run.history)
    (slots : ConfigurationRun.slots after.manager = ConfigurationRun.slots run.manager) :
    Moves action run after := by
  simp only [ConfigurationRun.slots, Prod.mk.injEq] at slots
  obtain ⟨configManager, snapshotId⟩ := slots
  constructor
  · intro conf member
    rw [history] at member
    exact Or.inl member
  · rw [configManager, snapshotId]
    exact Or.inl ⟨rfl, rfl⟩
  · intro entry member
    rw [log] at member
    exact Or.inl member
  · rw [log]
    exact id

omit [DecidableEq P] in
theorem remaining_submitted {entries remaining : List (LogEntry P D)} {front back : LogEntry P D}
    {resolved : LogManager P D C} (isFront : entries.head? = some front)
    (accepted : manager.checkAndResolveConflict entries front back =
      some (.accepted remaining resolved)) :
    ∀ entry ∈ remaining, entry ∈ submitted manager entries := by
  cases entries with
  | nil => contradiction
  | cons head rest =>
      obtain rfl := Option.some.inj isFront
      unfold submitted
      simp only
      cases LogManager.resolves_of_accepted accepted with
      | leader isLeader =>
          rw [if_pos isLeader]
          exact fun entry member => member
      | next follower =>
          rw [if_neg follower]
          exact fun entry member => member
      | known follower =>
          rw [if_neg follower]
          exact fun entry member => absurd member List.not_mem_nil
      | conflict follower _ _ split =>
          rw [if_neg follower, ← split]
          exact fun entry member => List.mem_append_right _ member
      | extension follower _ _ split =>
          rw [if_neg follower, ← split]
          exact fun entry member => List.mem_append_right _ member

theorem Moves.appendEntries {context : C} {entries : List (LogEntry P D)} {sees : Bool}
    {after : LogManager P D C} (tracked : ConfigurationRun.Tracked run)
    (appendable : run.manager.Appendable entries)
    (stepped : run.manager.appendEntries context entries sees = some after) :
    Moves (.appendEntries context entries sees) run
      (run.follow (.appendEntries context entries sees) after) := by
  rcases LogManager.appendEntries_cases stepped with ⟨status, rfl, _⟩ | ⟨rfl, rfl⟩ |
    ⟨front, back, remaining, resolved, isFront, isBack, accepted, rfl⟩
  · have idle : ConfigurationRun.queued run.manager (run.manager.runInBthread
        { context := context, submitted := entries } status) = [] :=
      ConfigurationRun.queued_eq [] (List.append_nil _).symm
    rw [ConfigurationRun.follow_idle (.appendEntries context entries sees) _ nofun (Or.inl idle)]
    exact Moves.same _ rfl rfl rfl
  · rw [ConfigurationRun.follow_nothing]
    exact Moves.same _ rfl rfl rfl
  · obtain ⟨base, cut, prepared, consecutive, _⟩ := ConfigurationRun.prepared_of_accepted
      tracked.windowed tracked.last appendable isFront isBack accepted
    obtain ⟨above, stop, _, _⟩ := tracked.prepared prepared
    have kept := (tracked.accepted appendable isFront isBack accepted context
      (if front.id.index = 0 then remaining else entries) sees).2.1
    have snapshotId := (LogManager.resolve_books accepted).2.2.2.2
    have inside := remaining_submitted isFront accepted
    rw [tracked.follow_prepared prepared context entries
      (if front.id.index = 0 then remaining else entries) sees]
    constructor
    · intro conf member
      rcases List.mem_append.mp member with former | new
      · exact Or.inl (History.mem_upTo.mp former).1
      · have index := (ConfigurationRun.batch_index consecutive conf new).1
        refine Or.inr ⟨?_, by omega⟩
        obtain ⟨entry, isEntry, rfl⟩ := List.mem_map.mp new
        obtain ⟨member, isConfiguration⟩ := List.mem_filter.mp isEntry
        exact List.mem_map_of_mem (List.mem_filter.mpr ⟨inside entry member, isConfiguration⟩)
    · exact Or.inl ⟨kept, snapshotId⟩
    · intro entry member
      rcases List.mem_append.mp member with former | new
      · exact Or.inl (List.mem_of_mem_take former)
      · exact Or.inr (inside entry new)
    · intro atStart
      -- a call that leaves nothing has not cut the log
      have length : (run.log.keepBelow cut).stop + remaining.length = 1 :=
        (IndexedLog.append_stop _ _).symm.trans atStart
      have isStart : cut = 1 := by omega
      have empty : remaining = [] := List.eq_nil_of_length_eq_zero (by omega)
      rcases prepared.2 with ⟨_, isStop⟩ | ⟨_, _, _⟩
      · omega
      · subst empty
        have same := FlushRun.resolved_of_nothing isFront accepted
        have isLast := congrArg LogManager.lastLogIndex (same.symm.trans prepared.1)
        have last := tracked.last
        simp only [List.length_nil] at isLast
        omega

theorem queued_truncatePrefix {noted after : LogManager P D C} {firstIndexKept : Nat}
    (tracked : ConfigurationRun.Tracked run)
    (stepped : noted.truncatePrefix firstIndexKept = some after)
    (first : noted.firstLogIndex = run.manager.firstLogIndex)
    (queue : noted.diskQueue = run.manager.diskQueue) (positive : 1 < firstIndexKept) :
    let log := (ConfigurationRun.queued run.manager after).foldl
      (fun log task => task.apply log) run.log
    log.entries ⊆ run.log.entries ∧ (log.stop = 1 → run.log.stop = 1) := by
  obtain ⟨lower, rfl⟩ := LogManager.truncatePrefix_some stepped
  have isFirst := tracked.first
  simp only
  rw [ConfigurationRun.queued_eq [.truncatePrefix firstIndexKept]
    (congrArg (fun tasks => tasks ++ [.truncatePrefix firstIndexKept]) queue)]
  change (run.log.dropBelow firstIndexKept).entries ⊆ _ ∧
    ((run.log.dropBelow firstIndexKept).stop = 1 → _)
  refine ⟨List.drop_subset _ _, ?_⟩
  rw [IndexedLog.dropBelow_stop _ (by omega)]
  omega

theorem mem_noted {snapshot : SnapshotMeta P} {history : List (ConfigurationEntry P)}
    {conf : ConfigurationEntry P}
    (member : conf ∈ ConfigurationRun.noted manager snapshot history) :
    conf ∈ history ∨ conf = ConfigurationEntry.ofSnapshot snapshot ∧
      manager.lastSnapshotId.index < conf.index := by
  unfold ConfigurationRun.noted at member
  split_ifs at member with old missing same
  · exact Or.inl member
  · rcases List.mem_cons.mp member with rfl | later
    · exact Or.inr ⟨rfl, not_le.mp old⟩
    · exact Or.inl (History.mem_since.mp later).1
  · exact Or.inl member
  · rw [List.mem_singleton] at member
    subst member
    exact Or.inr ⟨rfl, not_le.mp old⟩

theorem Moves.setSnapshot {snapshot : SnapshotMeta P} {after : LogManager P D C}
    (tracked : ConfigurationRun.Tracked run)
    (stepped : run.manager.setSnapshot snapshot = some after) :
    Moves (.setSnapshot snapshot) run (run.follow (.setSnapshot snapshot) after) := by
  by_cases newer : run.manager.lastSnapshotId.index < snapshot.lastIncludedIndex
  · have ids := LogManager.setSnapshot_ids newer stepped
    have logs : after.configManager.snapshot = ConfigurationEntry.ofSnapshot snapshot ∧
        (run.follow (.setSnapshot snapshot) after).log.entries ⊆ run.log.entries ∧
        ((run.follow (.setSnapshot snapshot) after).log.stop = 1 → run.log.stop = 1) := by
      rcases LogManager.setSnapshot_cases newer stepped with ⟨_, stepped⟩ |
        ⟨_, _, ⟨former, stepped⟩ | rfl⟩ | ⟨_, _, rfl⟩
      · have cut := queued_truncatePrefix tracked stepped rfl rfl (by omega)
        obtain ⟨_, rfl⟩ := LogManager.truncatePrefix_some stepped
        exact ⟨rfl, cut⟩
      · have cut := queued_truncatePrefix tracked stepped rfl rfl (by omega)
        obtain ⟨_, rfl⟩ := LogManager.truncatePrefix_some stepped
        exact ⟨rfl, cut⟩
      · have none : ConfigurationRun.queued run.manager (run.manager.noteSnapshot snapshot) = [] :=
          ConfigurationRun.queued_eq [] (List.append_nil _).symm
        unfold ConfigurationRun.follow
        rw [none]
        exact ⟨rfl, List.Subset.refl _, id⟩
      · unfold ConfigurationRun.follow
        rw [ConfigurationRun.queued_eq [.reset (snapshot.lastIncludedIndex + 1)] rfl]
        refine ⟨rfl, List.nil_subset _, ?_⟩
        intro atStart
        have atStart : snapshot.lastIncludedIndex + 1 = 1 := atStart
        omega
    obtain ⟨isSlot, entries, stop⟩ := logs
    constructor
    · intro conf member
      rcases mem_noted member with former | ⟨isSnapshot, behind⟩
      · exact Or.inl former
      · exact Or.inr ⟨List.mem_singleton.mpr isSnapshot, behind⟩
    · refine Or.inr ⟨?_, ?_⟩
      · exact List.mem_singleton.mpr isSlot
      · change _ < after.lastSnapshotId.index
        rw [ids.1]
        exact newer
    · exact fun entry member => Or.inl (entries member)
    · exact stop
  · rw [ConfigurationRun.follow_stale (not_lt.mp newer) stepped]
    exact Moves.same _ rfl rfl rfl

theorem Moves.clearBufferredLogs {after : LogManager P D C}
    (tracked : ConfigurationRun.Tracked run)
    (stepped : run.manager.clearBufferredLogs = some after) :
    Moves .clearBufferredLogs run (run.follow .clearBufferredLogs after) := by
  unfold LogManager.clearBufferredLogs at stepped
  split at stepped
  · have cut := queued_truncatePrefix tracked stepped rfl rfl (by omega)
    obtain ⟨_, rfl⟩ := LogManager.truncatePrefix_some stepped
    constructor
    · intro conf member
      unfold ConfigurationRun.follow at member
      rw [ConfigurationRun.queued_eq
        [.truncatePrefix (run.manager.lastSnapshotId.index + 1)] rfl] at member
      exact Or.inl member
    · exact Or.inl ⟨rfl, rfl⟩
    · exact fun entry member => Or.inl (cut.1 member)
    · exact cut.2
  · obtain rfl := Option.some.inj stepped
    rw [ConfigurationRun.follow_idle .clearBufferredLogs _ nofun
      (Or.inl (ConfigurationRun.queued_eq [] (List.append_nil _).symm))]
    exact Moves.same _ rfl rfl rfl

theorem Moves.background {manager : LogManager P D C}
    (stepped : LogManager.step action run.manager = some manager)
    (background : LogManager.Background action) : Moves action run (run.follow action manager) := by
  have view := LogManager.background_view stepped background
  simp only [LogManager.view, Prod.mk.injEq] at view
  obtain ⟨_, _, snapshotId, _, _, configManager⟩ := view
  rw [ConfigurationRun.follow_background run stepped background]
  refine Moves.same _ rfl rfl ?_
  simp only [ConfigurationRun.slots, snapshotId, configManager]

theorem moves_of_step (tracked : ConfigurationRun.Tracked run)
    (allowed : LogManager.Allowed action run.manager)
    (stepped : ConfigurationRun.step action run = some after) : Moves action run after := by
  obtain ⟨manager', moved, rfl⟩ := Option.map_eq_some_iff.mp stepped
  cases action with
  | appendEntries context entries sees => exact Moves.appendEntries tracked allowed moved
  | setSnapshot snapshot => exact Moves.setSnapshot tracked moved
  | clearBufferredLogs => exact Moves.clearBufferredLogs tracked moved
  | setAppliedId appliedId =>
      obtain rfl := Option.some.inj moved
      have idle : ConfigurationRun.queued run.manager (run.manager.setAppliedId appliedId) = [] := by
        refine ConfigurationRun.queued_eq [] ?_
        rw [List.append_nil]
        unfold LogManager.setAppliedId
        split <;> rfl
      rw [ConfigurationRun.follow_idle (.setAppliedId appliedId) _ nofun (Or.inl idle)]
      refine Moves.same _ rfl rfl ?_
      unfold LogManager.setAppliedId
      split <;> rfl
  | _ => exact Moves.background moved trivial

theorem lastConfiguration_mem (tracked : ConfigurationRun.Tracked run) :
    run.manager.configManager.lastConfiguration ∈
      run.manager.configManager.snapshot :: run.history := by
  obtain ⟨start, _, configurations⟩ := tracked.kept
  unfold ConfigurationManager.lastConfiguration
  cases found : run.manager.configManager.configurations.getLast? with
  | none => exact List.mem_cons_self
  | some back =>
      have member := List.mem_of_getLast? found
      rw [configurations] at member
      exact List.mem_cons_of_mem _ (History.mem_since.mp member).1

theorem content_eq (tracked : ConfigurationRun.Tracked run) {left right : ConfigurationEntry P}
    (isLeft : left ∈ run.manager.configManager.snapshot :: run.history)
    (isRight : right ∈ run.manager.configManager.snapshot :: run.history)
    (same : left.id = right.id) : left.content = right.content := by
  have inEffect {conf : ConfigurationEntry P}
      (member : conf ∈ run.manager.configManager.snapshot :: run.history) :
      conf.content = (effective run.history conf.index).content := by
    rcases List.mem_cons.mp member with rfl | inside
    · have index : run.manager.configManager.snapshot.index =
          run.manager.lastSnapshotId.index := congrArg LogId.index tracked.snapshotId
      rw [index]
      exact tracked.snapshot
    · rw [ConfigurationRun.effective_of_mem tracked.sorted inside]
  have index : left.index = right.index := congrArg LogId.index same
  rw [inEffect isLeft, inEffect isRight, index]

theorem lastConfiguration_start (tracked : ConfigurationRun.Tracked run)
    (positive : ∀ conf ∈ run.history, 0 < conf.index) (start : run.log.stop = 1) :
    run.manager.configManager.lastConfiguration.id = {} := by
  have last := tracked.last
  have inside := tracked.windowed.inside
  have none := (tracked.windowed.start (by omega)).1
  rcases List.mem_cons.mp (lastConfiguration_mem tracked) with isSnapshot | logged
  · rw [isSnapshot, tracked.snapshotId, none]
  · have above := positive _ logged
    have below := tracked.toRecorded.inside _ logged
    omega

/-- `_conf` has a name of its own, and it is the initial configuration while nothing has
been logged. -/
structure Kept (node : NodeConfiguration P D C) : Prop where
  tracked : ConfigurationRun.Tracked node.logManager
  agrees : ∀ conf ∈ node.logManager.manager.configManager.snapshot :: node.logManager.history,
    0 < conf.index → conf.id = node.conf.id → conf.content = node.conf.content
  conf : node.logManager.manager.lastSnapshotId.index < node.conf.index → node.conf ∈ node.named
  named : ∀ conf ∈ node.logManager.history, conf ∈ node.named
  positive : ∀ conf ∈ node.logManager.history, 0 < conf.index
  first : FirstConfigures node.logManager.log.entries
  start : node.logManager.log.stop = 1 →
    node.conf = { ConfigurationEntry.default with conf := node.initialConf }

variable {node after : NodeConfiguration P D C}

theorem Kept.logManager {action : LogManager.Action P D C} (kept : Kept node)
    (allowed : Allowed (.logManager action) node)
    (stepped : step (.logManager action) node = some after) : Kept after := by
  obtain ⟨run, moved, rfl⟩ := Option.map_eq_some_iff.mp stepped
  obtain ⟨⟨isAllowed, carries⟩, first, oneName⟩ := allowed
  have moves := moves_of_step kept.tracked isAllowed moved
  -- a new configuration that has the id of `_conf` is behind the last snapshot
  have fresh (conf : ConfigurationEntry P)
      (new : conf ∈ brings action node.logManager.manager)
      (behind : node.logManager.manager.lastSnapshotId.index < conf.index)
      (same : conf.id = node.conf.id) : conf.content = node.conf.content := by
    have index : conf.index = node.conf.index := congrArg LogId.index same
    exact (oneName conf new node.conf (kept.conf (by omega)) same.symm).symm
  constructor
  · exact kept.tracked.step isAllowed carries moved
  · intro conf member positive same
    rcases List.mem_cons.mp member with rfl | inside
    · rcases moves.snapshot with ⟨isFormer, _⟩ | ⟨new, behind⟩
      · have former : run.manager.configManager.snapshot ∈
            node.logManager.manager.configManager.snapshot :: node.logManager.history := by
          rw [isFormer]
          exact List.mem_cons_self
        exact kept.agrees _ former positive same
      · have tracked := kept.tracked.step isAllowed carries moved
        refine fresh _ new ?_ same
        rw [← tracked.snapshotId] at behind
        exact behind
    · rcases moves.history conf inside with former | ⟨new, behind⟩
      · exact kept.agrees conf (List.mem_cons_of_mem _ former) positive same
      · exact fresh conf new behind same
  · intro behind
    refine List.mem_append_right _ (kept.conf ?_)
    rcases moves.snapshot with ⟨_, same⟩ | ⟨_, later⟩
    · rw [same] at behind
      exact behind
    · exact later.trans behind
  · intro conf member
    rcases moves.history conf member with former | ⟨new, _⟩
    · exact List.mem_append_right _ (kept.named conf former)
    · exact List.mem_append_left _ new
  · intro conf member
    rcases moves.history conf member with former | ⟨_, behind⟩
    · exact kept.positive conf former
    · exact (Nat.zero_le _).trans_lt behind
  · intro entry member
    rcases moves.entries entry member with former | new
    · exact kept.first entry former
    · exact first entry new
  · intro atStart
    exact kept.start (moves.stop atStart)

/-- `_conf` is replaced by the last configuration, which has the wanted properties. -/
theorem Kept.of_last (tracked : ConfigurationRun.Tracked node.logManager)
    (named : ∀ conf ∈ node.logManager.history, conf ∈ node.named)
    (positive : ∀ conf ∈ node.logManager.history, 0 < conf.index)
    (first : FirstConfigures node.logManager.log.entries)
    (isLast : node.conf = node.logManager.manager.configManager.lastConfiguration)
    (started : node.logManager.log.stop ≠ 1) : Kept node := by
  have member := lastConfiguration_mem tracked
  rw [← isLast] at member
  constructor
  · exact tracked
  · intro conf inside _ same
    exact content_eq tracked inside member same
  · intro behind
    rcases List.mem_cons.mp member with isSnapshot | logged
    · have same : node.conf.index = node.logManager.manager.lastSnapshotId.index := by
        rw [isSnapshot]
        exact congrArg LogId.index tracked.snapshotId
      omega
    · exact named _ logged
  · exact named
  · exact positive
  · exact first
  · exact fun atStart => absurd atStart started

theorem Kept.checkAndSetConfiguration (kept : Kept node) :
    Kept { node with conf := node.logManager.manager.checkAndSetConfiguration node.conf } := by
  unfold LogManager.checkAndSetConfiguration
  split_ifs with other
  · refine Kept.of_last kept.tracked kept.named kept.positive kept.first rfl ?_
    intro atStart
    rw [lastConfiguration_start kept.tracked kept.positive atStart, kept.start atStart] at other
    exact absurd rfl other
  · exact kept

theorem Kept.step {action : Action P D C} (kept : Kept node) (allowed : Allowed action node)
    (stepped : step action node = some after) : Kept after := by
  cases action with
  | logManager action => exact kept.logManager allowed stepped
  | checkAndSetConfiguration =>
      obtain rfl := Option.some.inj stepped
      exact kept.checkAndSetConfiguration

theorem history_positive (initial : ConfigurationRun.Initial run) :
    ∀ conf ∈ run.history, 0 < conf.index := by
  obtain ⟨storage, configManager, dataLength, history, _, _, loaded, start⟩ := initial
  rcases start with ⟨_, rfl⟩ | ⟨snapshot, _, _, _, stepped⟩
  · exact fun conf member => (loaded.inside conf member).1
  · obtain ⟨manager', _, rfl⟩ := Option.map_eq_some_iff.mp stepped
    intro conf member
    rcases mem_noted member with former | ⟨_, behind⟩
    · exact (loaded.inside conf former).1
    · exact (Nat.zero_le _).trans_lt behind

theorem Initial.kept (initial : Initial node) : Kept node := by
  obtain ⟨starts, first, isConf, isNamed⟩ := initial
  have tracked := starts.tracked
  have positive := history_positive starts
  have last := tracked.last
  have named : ∀ conf ∈ node.logManager.history, conf ∈ node.named := by
    rw [isNamed]
    exact fun conf member => member
  by_cases logged : 0 < node.logManager.manager.lastLogIndex ∧
      node.logManager.manager.configManager.lastConfiguration.id ≠ {}
  · refine Kept.of_last tracked named positive first ?_ (by omega)
    rw [isConf, initConf, if_pos logged.1]
    exact if_pos logged.2.symm
  · -- the id of `_conf` is that of no entry
    have noId : node.conf.index = 0 := by
      rw [isConf, initConf]
      unfold LogManager.checkAndSetConfiguration
      split_ifs with nonempty other
      · exact absurd ⟨nonempty, fun same => other same.symm⟩ logged
      · rfl
      · rfl
    refine ⟨tracked, ?_, ?_, named, positive, first, ?_⟩
    · intro conf _ above same
      have index : conf.index = node.conf.index := congrArg LogId.index same
      omega
    · intro behind
      omega
    · intro atStart
      rw [isConf, initConf, if_neg (by omega)]

theorem kept_of_reachable (reached : system.Reachable node) : Kept node := by
  induction reached with
  | start initial => exact initial.kept
  | next _ allowed stepped ih => exact ih.step allowed stepped

theorem Kept.empty (kept : Kept node) (none : configurationsOf node.logManager.log.entries = [])
    (noSnapshot : node.logManager.manager.lastSnapshotId.index = 0) :
    node.logManager.log.stop = 1 := by
  have first := (kept.tracked.windowed.start noSnapshot).2
  have isFirst := kept.tracked.first
  have consecutive := kept.tracked.wellFormed.consecutive
  cases entries : node.logManager.log.entries with
  | nil =>
      unfold IndexedLog.stop
      rw [entries, List.length_nil]
      omega
  | cons front rest =>
      have index := consecutive 0 front (by rw [entries]; rfl)
      have isConfiguration := kept.first front (by rw [entries]; exact List.mem_cons_self)
        (by omega)
      unfold configurationsOf at none
      rw [entries, List.filter_cons_of_pos (by simpa using isConfiguration)] at none
      contradiction

theorem Kept.latest_last (kept : Kept node)
    (other : configurationsOf node.logManager.log.entries ≠ [] ∨
      node.logManager.manager.lastSnapshotId.index ≠ 0) :
    node.logManager.manager.configManager.lastConfiguration.content = node.latest ∧
      0 < node.logManager.manager.configManager.lastConfiguration.index := by
  have right := kept.tracked.right
  have member := lastConfiguration_mem kept.tracked
  unfold latest
  cases found : (configurationsOf node.logManager.log.entries).getLast? with
  | some last =>
      have isLast := right.lastLogged last found
      obtain ⟨entry, inside, sameId⟩ := mem_configurationsOf (List.mem_of_getLast? found)
      obtain ⟨position, isEntry⟩ := List.mem_iff_getElem?.mp inside
      have index := kept.tracked.wellFormed.consecutive position entry isEntry
      have positive := kept.tracked.wellFormed.positive
      rw [isLast]
      refine ⟨rfl, ?_⟩
      unfold ConfigurationEntry.index
      rw [← sameId]
      omega
  | none =>
      have none := List.getLast?_eq_none_iff.mp found
      have snapshot := other.resolve_left (not_not.mpr none)
      rw [if_neg snapshot]
      refine ⟨right.lastSnapshot none, ?_⟩
      rcases List.mem_cons.mp member with isSnapshot | logged
      · rw [isSnapshot]
        unfold ConfigurationEntry.index
        rw [right.snapshotId]
        exact Nat.pos_of_ne_zero snapshot
      · exact kept.positive _ logged

theorem Kept.checkAndSet_latest (kept : Kept node) :
    (node.logManager.manager.checkAndSetConfiguration node.conf).content = node.latest := by
  have isLast := lastConfiguration_mem kept.tracked
  by_cases nothing : configurationsOf node.logManager.log.entries = [] ∧
      node.logManager.manager.lastSnapshotId.index = 0
  · have atStart := kept.empty nothing.1 nothing.2
    have initial := kept.start atStart
    have noId := lastConfiguration_start kept.tracked kept.positive atStart
    unfold LogManager.checkAndSetConfiguration latest
    rw [noId, nothing.1, if_pos nothing.2, initial]
    rfl
  · obtain ⟨content, positive⟩ := kept.latest_last (by tauto)
    unfold LogManager.checkAndSetConfiguration
    split_ifs with other
    · exact content
    · rw [← content]
      exact (kept.agrees _ isLast positive (not_not.mp other).symm).symm

end NodeConfiguration

end QuorumKit
