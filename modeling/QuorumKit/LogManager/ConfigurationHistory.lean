/-
The configuration history of a log manager.

A run is followed together with the log that its callers see and with the list of the
configurations of that log, also of those that a snapshot has dropped since.  The entries
of `ConfigurationManager` are a back of that list, and its snapshot entry says what was
in effect at the last snapshot.
-/

import QuorumKit.Library.SortedHistory
import QuorumKit.LogManager.SnapshotWindow

namespace QuorumKit

variable {P D C : Type}

/-! ### Configurations of a log -/

section Contents

variable [DecidableEq P]

namespace ConfigurationEntry

def index (entry : ConfigurationEntry P) : Nat := entry.id.index

def content (entry : ConfigurationEntry P) : Configuration P × Configuration P :=
  (entry.conf, entry.oldConf)

def ofSnapshot (snapshot : SnapshotMeta P) : ConfigurationEntry P :=
  { id := snapshot.id
    conf := Configuration.ofList snapshot.peers
    oldConf := Configuration.ofList snapshot.oldPeers }

end ConfigurationEntry

def configurationsOf (entries : List (LogEntry P D)) : List (ConfigurationEntry P) :=
  (entries.filter (fun entry => entry.type = .configuration)).map ConfigurationEntry.ofLogEntry

def effective (history : List (ConfigurationEntry P)) (index : Nat) : ConfigurationEntry P :=
  (History.latest ConfigurationEntry.index history index).getD ConfigurationEntry.default

namespace ConfigurationManager

/-- `add` takes the entry. -/
def Accepts (manager : ConfigurationManager P) (entry : ConfigurationEntry P) : Prop :=
  ∀ back, manager.configurations.getLast? = some back → back.id.index < entry.id.index

/-- `add` takes every configuration entry of a batch. -/
def AllAccepted (manager : ConfigurationManager P) : List (LogEntry P D) → Prop
  | [] => True
  | entry :: rest =>
      if entry.type = .configuration then
        manager.Accepts (ConfigurationEntry.ofLogEntry entry) ∧
          AllAccepted (manager.add (ConfigurationEntry.ofLogEntry entry)) rest
      else AllAccepted manager rest

end ConfigurationManager

theorem configurationsOf_append (first second : List (LogEntry P D)) :
    configurationsOf (first ++ second) = configurationsOf first ++ configurationsOf second := by
  unfold configurationsOf
  rw [List.filter_append, List.map_append]

theorem mem_configurationsOf {entries : List (LogEntry P D)} {conf : ConfigurationEntry P}
    (member : conf ∈ configurationsOf entries) : ∃ entry ∈ entries, entry.id = conf.id := by
  obtain ⟨entry, inside, rfl⟩ := List.mem_map.mp member
  exact ⟨entry, List.mem_of_mem_filter inside, rfl⟩

theorem configurationsOf_since (entries : List (LogEntry P D)) (start : Nat) :
    configurationsOf (History.since (fun entry : LogEntry P D => entry.id.index) entries start) =
      History.since ConfigurationEntry.index (configurationsOf entries) start := by
  unfold configurationsOf History.since
  rw [List.filter_comm, List.filter_map]
  rfl

theorem configurationsOf_upTo (entries : List (LogEntry P D)) (stop : Nat) :
    configurationsOf (History.upTo (fun entry : LogEntry P D => entry.id.index) entries stop) =
      History.upTo ConfigurationEntry.index (configurationsOf entries) stop := by
  unfold configurationsOf History.upTo
  rw [List.filter_comm, List.filter_map]
  rfl

omit [DecidableEq P] in
theorem LogManager.Consecutive.increasing {start : Nat} {entries : List (LogEntry P D)}
    (consecutive : LogManager.Consecutive start entries) :
    History.Sorted (fun entry : LogEntry P D => entry.id.index) entries := by
  refine List.pairwise_iff_getElem.mpr ?_
  intro former later inFormer inLater before
  have formerIndex := consecutive former _ (List.getElem?_eq_getElem inFormer)
  have laterIndex := consecutive later _ (List.getElem?_eq_getElem inLater)
  simp only
  omega

theorem configurationsOf_sorted {entries : List (LogEntry P D)}
    (sorted : History.Sorted (fun entry : LogEntry P D => entry.id.index) entries) :
    History.Sorted ConfigurationEntry.index (configurationsOf entries) := by
  refine List.pairwise_map.mpr ?_
  exact List.Pairwise.filter _ sorted

omit [DecidableEq P] in
theorem LogStorage.WellFormed.consecutive {log : LogStorage P D} (wellFormed : log.WellFormed) :
    LogManager.Consecutive log.first log.entries := by
  intro position entry found
  refine (wellFormed.indexed (log.first + position) entry ?_).1
  rw [LogStorage.getEntry, IndexedLog.get?, if_neg (by omega), Nat.add_sub_cancel_left, found]

theorem configurationsOf_dropBelow {log : LogStorage P D} (wellFormed : log.WellFormed)
    (start : Nat) : configurationsOf (log.dropBelow start).entries =
      History.since ConfigurationEntry.index (configurationsOf log.entries) start := by
  have consecutive := wellFormed.consecutive
  rw [← configurationsOf_since, ← consecutive.increasing.dropWhile,
    dropWhile_below _ _ _ consecutive]
  rfl

theorem configurationsOf_keepBelow {log : LogStorage P D} (wellFormed : log.WellFormed)
    (stop : Nat) : configurationsOf (log.keepBelow (stop + 1)).entries =
      History.upTo ConfigurationEntry.index (configurationsOf log.entries) stop := by
  have consecutive := wellFormed.consecutive
  rw [← configurationsOf_upTo, ← consecutive.increasing.rdropWhile,
    rdropWhile_above _ _ _ consecutive]
  rfl

theorem addConfigurations_accepted (entries : List (LogEntry P D)) :
    ∀ manager : ConfigurationManager P,
      History.Sorted ConfigurationEntry.index
        (manager.configurations ++ configurationsOf entries) →
      manager.AllAccepted entries ∧
        (LogManager.addConfigurations manager entries).configurations =
          manager.configurations ++ configurationsOf entries ∧
        (LogManager.addConfigurations manager entries).snapshot = manager.snapshot := by
  induction entries with
  | nil =>
      intro manager _
      exact ⟨trivial, (List.append_nil _).symm, rfl⟩
  | cons entry rest ih =>
      intro manager sorted
      by_cases isConfiguration : entry.type = .configuration
      · have here : configurationsOf (entry :: rest) =
            ConfigurationEntry.ofLogEntry entry :: configurationsOf rest := by
          unfold configurationsOf
          rw [List.filter_cons_of_pos (by simpa using isConfiguration), List.map_cons]
        rw [here] at sorted ⊢
        have accepts : manager.Accepts (ConfigurationEntry.ofLogEntry entry) := by
          intro back isBack
          have across := (List.pairwise_append.mp sorted).2.2
          exact across back (List.mem_of_getLast? isBack) _ List.mem_cons_self
        have added : manager.add (ConfigurationEntry.ofLogEntry entry) =
            { manager with
              configurations :=
                manager.configurations ++ [ConfigurationEntry.ofLogEntry entry] } := by
          unfold ConfigurationManager.add
          split
          · rename_i back isBack
            rw [if_neg (not_le.mpr (accepts back isBack))]
          · rfl
        have extended : manager.configurations ++
              ConfigurationEntry.ofLogEntry entry :: configurationsOf rest =
            manager.configurations ++ [ConfigurationEntry.ofLogEntry entry] ++
              configurationsOf rest := by
          rw [List.append_assoc, List.singleton_append]
        rw [extended] at sorted ⊢
        obtain ⟨restAccepted, configurations, snapshot⟩ := ih { manager with
          configurations := manager.configurations ++ [ConfigurationEntry.ofLogEntry entry] } sorted
        have folded : LogManager.addConfigurations manager (entry :: rest) =
            LogManager.addConfigurations (manager.add (ConfigurationEntry.ofLogEntry entry))
              rest := by
          unfold LogManager.addConfigurations
          rw [List.foldl_cons, if_pos isConfiguration]
        rw [ConfigurationManager.AllAccepted, if_pos isConfiguration, folded, added]
        exact ⟨⟨accepts, restAccepted⟩, configurations, snapshot⟩
      · have here : configurationsOf (entry :: rest) = configurationsOf rest := by
          unfold configurationsOf
          rw [List.filter_cons_of_neg (by simpa using isConfiguration)]
        have folded : LogManager.addConfigurations manager (entry :: rest) =
            LogManager.addConfigurations manager rest := by
          unfold LogManager.addConfigurations
          rw [List.foldl_cons, if_neg isConfiguration]
        rw [here] at sorted ⊢
        rw [ConfigurationManager.AllAccepted, if_neg isConfiguration, folded]
        exact ih manager sorted

end Contents

/-- What a performed task does to the history: a prefix that is dropped stays in it. -/
def DiskTask.record [DecidableEq P] (task : DiskTask P D C)
    (history : List (ConfigurationEntry P)) : List (ConfigurationEntry P) :=
  match task with
  | .append done => history ++ configurationsOf done.entries
  | .truncateSuffix lastIndexKept _ =>
      History.upTo ConfigurationEntry.index history lastIndexKept
  | _ => history

/-- A log manager, the log that its callers see, and the configurations of that log from
its very beginning. -/
structure ConfigurationRun (P D C : Type) where
  manager : LogManager P D C
  log : LogStorage P D
  history : List (ConfigurationEntry P)

namespace ConfigurationRun

variable [DecidableEq P]

def queued (former after : LogManager P D C) : List (DiskTask P D C) :=
  after.diskQueue.drop former.diskQueue.length

/-- A snapshot that the log does not contain brings its own history. -/
def noted (manager : LogManager P D C) (snapshot : SnapshotMeta P)
    (history : List (ConfigurationEntry P)) : List (ConfigurationEntry P) :=
  if snapshot.lastIncludedIndex ≤ manager.lastSnapshotId.index then history
  else if manager.getTerm snapshot.lastIncludedIndex = 0 then
    ConfigurationEntry.ofSnapshot snapshot ::
      History.since ConfigurationEntry.index history (snapshot.lastIncludedIndex + 1)
  else if manager.getTerm snapshot.lastIncludedIndex = snapshot.lastIncludedTerm then history
  else [ConfigurationEntry.ofSnapshot snapshot]

def follow (run : ConfigurationRun P D C) (action : LogManager.Action P D C)
    (after : LogManager P D C) : ConfigurationRun P D C :=
  { manager := after
    log := (queued run.manager after).foldl (fun log task => task.apply log) run.log
    history :=
      match action with
      | .setSnapshot snapshot => noted run.manager snapshot run.history
      | _ => (queued run.manager after).foldl (fun history task => task.record history)
          run.history }

def step (action : LogManager.Action P D C) (run : ConfigurationRun P D C) :
    Option (ConfigurationRun P D C) :=
  (LogManager.step action run.manager).map (run.follow action)

/-- A snapshot of the own log carries the configuration in effect at its index. -/
def Carries (action : LogManager.Action P D C) (run : ConfigurationRun P D C) : Prop :=
  match action with
  | .setSnapshot snapshot =>
      run.manager.getTerm snapshot.lastIncludedIndex ≠ 0 →
      run.manager.getTerm snapshot.lastIncludedIndex = snapshot.lastIncludedTerm →
      (ConfigurationEntry.ofSnapshot snapshot).content =
        (effective run.history snapshot.lastIncludedIndex).content
  | _ => True

/-- The history is that of the log.  A segment may start before the log does, so more of
the history than the log has may have been loaded. -/
structure Loaded (storage : LogStorage P D) (configManager : ConfigurationManager P)
    (history : List (ConfigurationEntry P)) : Prop where
  sorted : History.Sorted ConfigurationEntry.index history
  inside : ∀ entry ∈ history, 0 < entry.index ∧ entry.index < storage.stop
  logged : configurationsOf storage.entries =
    History.since ConfigurationEntry.index history storage.first
  kept : ∃ start, start ≤ storage.first ∧
    configManager.configurations = History.since ConfigurationEntry.index history start
  snapshot : configManager.snapshot = ConfigurationEntry.default

/-- A manager right after `init`, or after the snapshot that is loaded next. -/
def Initial (run : ConfigurationRun P D C) : Prop :=
  ∃ (storage : LogStorage P D) (configManager : ConfigurationManager P) (dataLength : D → Nat)
    (history : List (ConfigurationEntry P)),
    storage.WellFormed ∧ LogManager.SortedAbove 0 storage ∧
      Loaded storage configManager history ∧
      let loaded : ConfigurationRun P D C :=
        { manager := LogManager.init storage configManager dataLength
          log := storage
          history := history }
      (storage.first = 1 ∧ run = loaded ∨
        ∃ snapshot : SnapshotMeta P, 0 < snapshot.lastIncludedIndex ∧
          LogManager.NotOlder snapshot.id storage ∧ Carries (.setSnapshot snapshot) loaded ∧
          step (.setSnapshot snapshot) loaded = some run)

def system : TransitionSystem (ConfigurationRun P D C) (LogManager.Action P D C) :=
  { init := Initial
    allowed := fun action run => LogManager.Allowed action run.manager ∧ Carries action run
    step := step }

/-! ### The invariant -/

/-- The log of the run and the bounds of the manager; the configurations of the manager are
the last ones of the history, at least those of the log. -/
structure Recorded (run : ConfigurationRun P D C) : Prop where
  wellFormed : run.log.WellFormed
  first : run.manager.firstLogIndex = run.log.first
  last : run.manager.lastLogIndex + 1 = run.log.stop
  sorted : History.Sorted ConfigurationEntry.index run.history
  inside : ∀ entry ∈ run.history, entry.index < run.log.stop
  logged : configurationsOf run.log.entries =
    History.since ConfigurationEntry.index run.history run.log.first
  kept : ∃ start, start ≤ run.log.first ∧ run.manager.configManager.configurations =
    History.since ConfigurationEntry.index run.history start

structure Tracked (run : ConfigurationRun P D C) : Prop extends Recorded run where
  windowed : LogManager.Windowed run.manager
  snapshotId : run.manager.configManager.snapshot.id = run.manager.lastSnapshotId
  snapshot : run.manager.configManager.snapshot.content =
    (effective run.history run.manager.lastSnapshotId.index).content

variable {run after : ConfigurationRun P D C} {manager : LogManager P D C}

def books (manager : LogManager P D C) : Nat × Nat × List (ConfigurationEntry P) :=
  (manager.firstLogIndex, manager.lastLogIndex, manager.configManager.configurations)

theorem Recorded.truncatePrefix {firstIndexKept : Nat} {noted after : LogManager P D C}
    (recorded : Recorded run) (history : List (ConfigurationEntry P))
    (stepped : noted.truncatePrefix firstIndexKept = some after)
    (same : books noted = books run.manager)
    (sorted : History.Sorted ConfigurationEntry.index history)
    (inside : ∀ entry ∈ history, entry.index < max firstIndexKept run.log.stop)
    (behind : History.since ConfigurationEntry.index history firstIndexKept =
      History.since ConfigurationEntry.index run.history firstIndexKept) :
    Recorded { manager := after, log := run.log.dropBelow firstIndexKept, history := history } := by
  simp only [books, Prod.mk.injEq] at same
  obtain ⟨sameFirst, sameLast, sameConfigurations⟩ := same
  obtain ⟨lower, rfl⟩ := LogManager.truncatePrefix_some stepped
  rw [sameFirst, recorded.first] at lower
  have positive := recorded.wellFormed.positive
  have last := recorded.last
  constructor
  · exact recorded.wellFormed.dropBelow lower
  · rfl
  · simp only [LogManager.execute]
    rw [IndexedLog.dropBelow_stop _ lower, sameLast]
    split_ifs <;> omega
  · exact sorted
  · rw [IndexedLog.dropBelow_stop _ lower]
    exact inside
  · rw [configurationsOf_dropBelow recorded.wellFormed, recorded.logged,
      History.since_since lower]
    exact behind.symm
  · obtain ⟨start, before, configurations⟩ := recorded.kept
    refine ⟨firstIndexKept, le_refl _, ?_⟩
    have sortedBack : History.Sorted ConfigurationEntry.index
        (History.since ConfigurationEntry.index run.history start) :=
      recorded.sorted.filterSince start
    change noted.configManager.configurations.dropWhile
      (fun entry => entry.index < firstIndexKept) = _
    rw [sameConfigurations, configurations, sortedBack.dropWhile,
      History.since_since (before.trans lower)]
    exact behind.symm

theorem Recorded.reset {nextLogIndex : Nat} {noted : LogManager P D C}
    {history : List (ConfigurationEntry P)} (recorded : Recorded run) (positive : 0 < nextLogIndex)
    (same : books noted = books run.manager)
    (sorted : History.Sorted ConfigurationEntry.index history)
    (inside : ∀ entry ∈ history, entry.index < nextLogIndex) :
    Recorded { manager := noted.reset nextLogIndex, log := LogStorage.reset nextLogIndex,
               history := history } := by
  simp only [books, Prod.mk.injEq] at same
  obtain ⟨_, _, sameConfigurations⟩ := same
  have none : History.since ConfigurationEntry.index history nextLogIndex = [] := by
    refine List.filter_eq_nil_iff.mpr ?_
    intro entry member
    simpa using inside entry member
  constructor
  · exact LogStorage.WellFormed.reset positive
  · rfl
  · exact Nat.sub_add_cancel positive
  · exact sorted
  · exact inside
  · exact none.symm
  · refine ⟨nextLogIndex, le_refl _, ?_⟩
    obtain ⟨start, _, configurations⟩ := recorded.kept
    have sortedBack : History.Sorted ConfigurationEntry.index
        (History.since ConfigurationEntry.index run.history start) :=
      recorded.sorted.filterSince start
    change (noted.configManager.configurations.dropWhile
      (fun entry => entry.index < nextLogIndex)).rdropWhile
        (fun entry => nextLogIndex - 1 < entry.index) = _
    rw [sameConfigurations, configurations, none]
    exact sortedBack.cutBoth positive

theorem Recorded.truncateSuffix {lastIndexKept : Nat} {after : LogManager P D C}
    (recorded : Recorded run) (lower : run.log.first ≤ lastIndexKept + 1)
    (upper : lastIndexKept + 1 ≤ run.log.stop)
    (stepped : run.manager.unsafeTruncateSuffix lastIndexKept = some after) :
    Recorded { manager := after, log := run.log.keepBelow (lastIndexKept + 1),
               history := History.upTo ConfigurationEntry.index run.history lastIndexKept } := by
  obtain ⟨_, lastTermKept, rfl⟩ := LogManager.unsafeTruncateSuffix_some stepped
  have stop := IndexedLog.keepBelow_stop run.log lower upper
  constructor
  · exact recorded.wellFormed.keepBelow _
  · exact recorded.first
  · rw [stop]
    rfl
  · exact recorded.sorted.filterUpTo lastIndexKept
  · rw [stop]
    intro entry member
    exact Nat.lt_succ_of_le (History.mem_upTo.mp member).2
  · rw [configurationsOf_keepBelow recorded.wellFormed, recorded.logged, History.since_upTo]
    rfl
  · obtain ⟨start, before, configurations⟩ := recorded.kept
    refine ⟨start, before, ?_⟩
    have sortedBack : History.Sorted ConfigurationEntry.index
        (History.since ConfigurationEntry.index run.history start) :=
      recorded.sorted.filterSince start
    change run.manager.configManager.configurations.rdropWhile
      (fun entry => lastIndexKept < entry.index) = _
    rw [configurations, sortedBack.rdropWhile, History.since_upTo]

theorem Recorded.upTo_whole (recorded : Recorded run) :
    History.upTo ConfigurationEntry.index run.history (run.log.stop - 1) = run.history := by
  refine List.filter_eq_self.mpr ?_
  intro entry member
  exact decide_eq_true (Nat.le_sub_one_of_lt (recorded.inside entry member))

theorem batch_index {stop : Nat} {remaining : List (LogEntry P D)}
    (consecutive : LogManager.Consecutive stop remaining) :
    ∀ entry ∈ configurationsOf remaining, stop ≤ entry.index ∧
      entry.index < stop + remaining.length := by
  intro conf member
  obtain ⟨entry, isEntry, sameId⟩ := mem_configurationsOf member
  obtain ⟨position, found⟩ := List.mem_iff_getElem?.mp isEntry
  have placed := consecutive position entry found
  have below := (List.getElem?_eq_some_iff.mp found).1
  have indexed : conf.index = entry.id.index := congrArg LogId.index sameId.symm
  omega

theorem Recorded.sorted_append {remaining : List (LogEntry P D)} (recorded : Recorded run)
    (consecutive : LogManager.Consecutive run.log.stop remaining) :
    History.Sorted ConfigurationEntry.index (run.history ++ configurationsOf remaining) := by
  refine recorded.sorted.append (configurationsOf_sorted consecutive.increasing) ?_
  intro former isFormer later isLater
  exact lt_of_lt_of_le (recorded.inside former isFormer) (batch_index consecutive later isLater).1

theorem since_history_append {history : List (ConfigurationEntry P)}
    {remaining : List (LogEntry P D)} {start stop : Nat}
    (consecutive : LogManager.Consecutive stop remaining) (lower : start ≤ stop) :
    History.since ConfigurationEntry.index (history ++ configurationsOf remaining) start =
      History.since ConfigurationEntry.index history start ++ configurationsOf remaining := by
  rw [History.since_append]
  congr 1
  exact History.since_eq_self
    (fun entry member => lower.trans (batch_index consecutive entry member).1)

theorem Recorded.accepts {remaining : List (LogEntry P D)} (recorded : Recorded run)
    (consecutive : LogManager.Consecutive run.log.stop remaining) :
    let configManager := run.manager.configManager
    configManager.AllAccepted remaining ∧
      (LogManager.addConfigurations configManager remaining).configurations =
        configManager.configurations ++ configurationsOf remaining ∧
      (LogManager.addConfigurations configManager remaining).snapshot = configManager.snapshot := by
  obtain ⟨start, before, configurations⟩ := recorded.kept
  refine addConfigurations_accepted remaining _ ?_
  rw [configurations, ← since_history_append consecutive (before.trans run.log.first_le_stop)]
  exact (recorded.sorted_append consecutive).filterSince start

theorem Recorded.enqueue {lastLogIndex : Nat} {remaining : List (LogEntry P D)}
    (recorded : Recorded run) (context : C) (submitted : List (LogEntry P D))
    (consecutive : LogManager.Consecutive run.log.stop remaining)
    (terms : ∀ entry ∈ remaining, 0 < entry.id.term)
    (last : lastLogIndex + 1 = run.log.stop + remaining.length) :
    Recorded
      { manager := ({ run.manager with lastLogIndex := lastLogIndex } :
          LogManager P D C).enqueue context submitted remaining
        log := run.log.append remaining
        history := run.history ++ configurationsOf remaining } := by
  have toStop := run.log.first_le_stop
  constructor
  · refine recorded.wellFormed.append ?_
    intro position entry found
    exact ⟨consecutive position entry found, terms entry (List.mem_of_getElem? found)⟩
  · exact recorded.first
  · rw [IndexedLog.append_stop]
    exact last
  · exact recorded.sorted_append consecutive
  · rw [IndexedLog.append_stop]
    intro entry member
    rcases List.mem_append.mp member with former | new
    · exact Nat.lt_add_right _ (recorded.inside entry former)
    · exact (batch_index consecutive entry new).2
  · change configurationsOf (run.log.entries ++ remaining) =
      History.since ConfigurationEntry.index (run.history ++ configurationsOf remaining)
        run.log.first
    rw [since_history_append consecutive toStop, ← recorded.logged]
    exact configurationsOf_append _ _
  · obtain ⟨start, before, configurations⟩ := recorded.kept
    refine ⟨start, before, ?_⟩
    change _ = History.since ConfigurationEntry.index
      (run.history ++ configurationsOf remaining) start
    rw [since_history_append consecutive (before.trans toStop), ← configurations]
    exact (recorded.accepts consecutive).2.1

/-! ### What is in effect -/

omit [DecidableEq P] in
theorem effective_upTo (history : List (ConfigurationEntry P)) {index stop : Nat}
    (before : index ≤ stop) :
    effective (History.upTo ConfigurationEntry.index history stop) index =
      effective history index := by
  unfold effective History.latest History.upTo
  rw [List.filter_filter]
  congr 2
  refine List.filter_congr ?_
  intro entry _
  simp only [← Bool.decide_and, decide_eq_decide]
  omega

omit [DecidableEq P] in
theorem effective_append {history added : List (ConfigurationEntry P)} {index : Nat}
    (behind : ∀ entry ∈ added, index < entry.index) :
    effective (history ++ added) index = effective history index := by
  have none : added.filter (fun entry => entry.index ≤ index) = [] := by
    refine List.filter_eq_nil_iff.mpr ?_
    intro entry member
    simpa using behind entry member
  unfold effective History.latest History.upTo
  rw [List.filter_append, none, List.append_nil]

omit [DecidableEq P] in
theorem effective_of_mem {history : List (ConfigurationEntry P)} {conf : ConfigurationEntry P}
    (sorted : History.Sorted ConfigurationEntry.index history) (member : conf ∈ history) :
    effective history conf.index = conf := by
  obtain ⟨former, later, rfl⟩ := List.append_of_mem member
  obtain ⟨_, behind, _⟩ := List.pairwise_append.mp sorted
  have cut : effective (former ++ [conf] ++ later) conf.index =
      effective (former ++ [conf]) conf.index := by
    refine effective_append ?_
    exact (List.pairwise_cons.mp behind).1
  rw [List.append_assoc, List.singleton_append] at cut
  rw [cut]
  unfold effective History.latest History.upTo
  rw [List.filter_append, List.filter_cons_of_pos (by simp), List.filter_nil,
    List.getLast?_concat]
  rfl

theorem effective_ofSnapshot {snapshot : SnapshotMeta P} {later : List (ConfigurationEntry P)}
    (behind : ∀ entry ∈ later, snapshot.lastIncludedIndex < entry.index) :
    effective (ConfigurationEntry.ofSnapshot snapshot :: later) snapshot.lastIncludedIndex =
      ConfigurationEntry.ofSnapshot snapshot := by
  have first : effective ([ConfigurationEntry.ofSnapshot snapshot] ++ later)
      snapshot.lastIncludedIndex =
        effective [ConfigurationEntry.ofSnapshot snapshot] snapshot.lastIncludedIndex :=
    effective_append behind
  have here : [ConfigurationEntry.ofSnapshot snapshot].filter
      (fun entry => entry.index ≤ snapshot.lastIncludedIndex) =
        [ConfigurationEntry.ofSnapshot snapshot] := by
    refine List.filter_eq_self.mpr ?_
    intro entry member
    rw [List.mem_singleton.mp member]
    exact decide_eq_true (le_refl _)
  rw [List.singleton_append] at first
  rw [first]
  unfold effective History.latest History.upTo
  rw [here]
  rfl

theorem Recorded.effective_entry (recorded : Recorded run) {index : Nat} {entry : LogEntry P D}
    (found : run.log.getEntry index = some entry) :
    effective run.history index =
      if entry.type = .configuration then ConfigurationEntry.ofLogEntry entry
      else effective run.history (index - 1) := by
  have placed := (recorded.wellFormed.indexed index entry found).1
  have lower := (IndexedLog.get?_bounds found).1
  have positive := recorded.wellFormed.positive
  have consecutive := recorded.wellFormed.consecutive
  split_ifs with isConfiguration
  · have member : ConfigurationEntry.ofLogEntry entry ∈ run.history := by
      have inside : entry ∈ run.log.entries := by
        unfold LogStorage.getEntry IndexedLog.get? at found
        split_ifs at found
        exact List.mem_of_getElem? found
      have logged : ConfigurationEntry.ofLogEntry entry ∈ configurationsOf run.log.entries :=
        List.mem_map_of_mem (List.mem_filter.mpr ⟨inside, decide_eq_true isConfiguration⟩)
      rw [recorded.logged] at logged
      exact (History.mem_since.mp logged).1
    have same := effective_of_mem recorded.sorted member
    have atIndex : (ConfigurationEntry.ofLogEntry entry).index = index := placed
    rw [atIndex] at same
    exact same
  · have absent : ∀ conf ∈ run.history, conf.index ≠ index := by
      intro conf member atIndex
      have logged : conf ∈ configurationsOf run.log.entries := by
        rw [recorded.logged]
        exact History.mem_since.mpr ⟨member, by omega⟩
      obtain ⟨other, isOther, rfl⟩ := List.mem_map.mp logged
      obtain ⟨inside, otherConfigures⟩ := List.mem_filter.mp isOther
      obtain ⟨position, isPlaced⟩ := List.mem_iff_getElem?.mp inside
      have otherIndex : other.id.index = index := atIndex
      have atPosition := consecutive position other isPlaced
      have same : run.log.getEntry index = some other := by
        unfold LogStorage.getEntry IndexedLog.get?
        rw [if_neg (by omega), ← isPlaced]
        congr 1
        omega
      rw [found] at same
      obtain rfl := Option.some.inj same
      exact isConfiguration (of_decide_eq_true otherConfigures)
    unfold effective History.latest History.upTo
    congr 2
    refine List.filter_congr ?_
    intro conf member
    have other := absent conf member
    rw [decide_eq_decide]
    omega

omit [DecidableEq P] in
theorem queued_eq {former after : LogManager P D C} (tasks : List (DiskTask P D C))
    (queue : after.diskQueue = former.diskQueue ++ tasks) : queued former after = tasks := by
  unfold queued
  rw [queue, List.drop_left]

theorem noted_newer {snapshot : SnapshotMeta P} (history : List (ConfigurationEntry P))
    (newer : manager.lastSnapshotId.index < snapshot.lastIncludedIndex) :
    noted manager snapshot history =
      if manager.getTerm snapshot.lastIncludedIndex = 0 then
        ConfigurationEntry.ofSnapshot snapshot ::
          History.since ConfigurationEntry.index history (snapshot.lastIncludedIndex + 1)
      else if manager.getTerm snapshot.lastIncludedIndex = snapshot.lastIncludedTerm then history
      else [ConfigurationEntry.ofSnapshot snapshot] := by
  unfold noted
  rw [if_neg (not_le.mpr newer)]

theorem Recorded.setSnapshot {snapshot : SnapshotMeta P} {after : LogManager P D C}
    (recorded : Recorded run) (carries : Carries (.setSnapshot snapshot) run)
    (newer : run.manager.lastSnapshotId.index < snapshot.lastIncludedIndex)
    (stepped : run.manager.setSnapshot snapshot = some after) :
    Recorded (run.follow (.setSnapshot snapshot) after) ∧
      after.configManager.snapshot = ConfigurationEntry.ofSnapshot snapshot ∧
      after.lastSnapshotId = snapshot.id ∧
      (ConfigurationEntry.ofSnapshot snapshot).content =
        (effective (noted run.manager snapshot run.history) snapshot.lastIncludedIndex).content := by
  have history := noted_newer run.history newer
  unfold follow
  rcases LogManager.setSnapshot_cases newer stepped with ⟨missing, stepped⟩ |
    ⟨hasTerm, same, ⟨_, stepped⟩ | rfl⟩ | ⟨hasTerm, other, rfl⟩
  · rw [if_pos missing] at history
    have behind : ∀ entry ∈ History.since ConfigurationEntry.index run.history
        (snapshot.lastIncludedIndex + 1), snapshot.lastIncludedIndex < entry.index :=
      fun entry member => (History.mem_since.mp member).2
    have cut := recorded.truncatePrefix (noted run.manager snapshot run.history) stepped
      rfl ?_ ?_ ?_
    · obtain ⟨_, rfl⟩ := LogManager.truncatePrefix_some stepped
      rw [queued_eq [.truncatePrefix (snapshot.lastIncludedIndex + 1)] rfl]
      refine ⟨cut, rfl, rfl, ?_⟩
      rw [history, effective_ofSnapshot behind]
    · rw [history]
      exact List.pairwise_cons.mpr ⟨behind, recorded.sorted.filterSince _⟩
    · rw [history]
      intro entry member
      rcases List.mem_cons.mp member with rfl | late
      · exact lt_of_lt_of_le (Nat.lt_succ_self _) (le_max_left _ _)
      · have inside := recorded.inside entry (History.mem_since.mp late).1
        exact lt_of_lt_of_le inside (le_max_right _ _)
    · rw [history]
      have notBehind : ¬ snapshot.lastIncludedIndex + 1 ≤
          (ConfigurationEntry.ofSnapshot snapshot).index := by
        exact Nat.not_succ_le_self _
      unfold History.since at behind ⊢
      rw [List.filter_cons_of_neg (by simpa using notBehind)]
      exact History.since_since (le_refl _)
  · rw [if_neg hasTerm, if_pos same] at history
    have cut := recorded.truncatePrefix (noted run.manager snapshot run.history) stepped
      rfl ?_ ?_ ?_
    · obtain ⟨_, rfl⟩ := LogManager.truncatePrefix_some stepped
      rw [queued_eq [.truncatePrefix (run.manager.lastSnapshotId.index + 1)] rfl]
      refine ⟨cut, rfl, rfl, ?_⟩
      rw [history]
      exact carries hasTerm same
    · rw [history]
      exact recorded.sorted
    · rw [history]
      exact fun entry member => lt_of_lt_of_le (recorded.inside entry member) (le_max_right _ _)
    · rw [history]
  · rw [if_neg hasTerm, if_pos same] at history
    have none : queued run.manager (run.manager.noteSnapshot snapshot) = [] :=
      queued_eq [] (List.append_nil _).symm
    rw [none]
    refine ⟨?_, rfl, rfl, ?_⟩
    · change Recorded { manager := run.manager.noteSnapshot snapshot, log := run.log,
                        history := noted run.manager snapshot run.history }
      rw [history]
      exact { recorded with }
    · rw [history]
      exact carries hasTerm same
  · rw [if_neg hasTerm, if_neg other] at history
    rw [queued_eq [.reset (snapshot.lastIncludedIndex + 1)] rfl]
    refine ⟨?_, rfl, rfl, ?_⟩
    · refine recorded.reset (Nat.succ_pos _) rfl ?_ ?_
      · change History.Sorted ConfigurationEntry.index (noted run.manager snapshot run.history)
        rw [history]
        exact List.pairwise_singleton _ _
      · intro entry member
        have member : entry ∈ noted run.manager snapshot run.history := member
        rw [history] at member
        rw [List.mem_singleton.mp member]
        exact Nat.lt_succ_self _
    · rw [history, effective_ofSnapshot (fun entry member => absurd member List.not_mem_nil)]

/-! ### Appends -/

omit [DecidableEq P] in
theorem Windowed.resolve_rest {entries dropped rest : List (LogEntry P D)}
    {conflicting back : LogEntry P D} {start : Nat} (windowed : LogManager.Windowed manager)
    (appendable : manager.Appendable entries) (consecutive : LogManager.Consecutive start entries)
    (isBack : entries.getLast? = some back)
    (inside : start ≤ manager.lastLogIndex + 1) (split : dropped ++ conflicting :: rest = entries)
    (same : ∀ entry ∈ dropped, manager.getTerm entry.id.index = entry.id.term) :
    start ≤ conflicting.id.index ∧ conflicting.id.index ≤ manager.lastLogIndex + 1 ∧
      conflicting.id.index + (conflicting :: rest).length - 1 = back.id.index ∧
      LogManager.Consecutive conflicting.id.index (conflicting :: rest) := by
  have backIndex := consecutive.back isBack
  have conflictIndex : conflicting.id.index = start + dropped.length :=
    consecutive dropped.length conflicting (by rw [← split]; simp)
  refine ⟨by omega, ?_, ?_, ?_⟩
  · rcases List.eq_nil_or_concat dropped with none | ⟨earlier, final, isFinal⟩
    · rw [none, List.length_nil] at conflictIndex
      omega
    · have finalIndex : final.id.index = start + earlier.length := by
        apply consecutive
        rw [← split, isFinal]
        simp
      have hasTerm := same final (by rw [isFinal]; simp)
      have termPositive := appendable.terms final (by rw [← split, isFinal]; simp)
      have bounds := windowed.inside
      have total : dropped.length = earlier.length + 1 := by
        rw [isFinal, List.length_concat]
      by_cases old : final.id.index ≤ manager.lastSnapshotId.index
      · omega
      · have toLast := LogManager.le_last_of_getTerm windowed.behind (not_le.mp old) (by omega)
        omega
  · have total := congrArg List.length split
    rw [List.length_append] at total
    omega
  · intro position entry found
    have placed : entry.id.index = start + (dropped.length + position) := by
      apply consecutive
      rw [← split, List.getElem?_append_right (by omega), Nat.add_sub_cancel_left, found]
    omega

omit [DecidableEq P] in
theorem prepared_of_accepted {log : LogStorage P D} {entries remaining : List (LogEntry P D)}
    {front back : LogEntry P D} {resolved : LogManager P D C}
    (windowed : LogManager.Windowed manager) (last : manager.lastLogIndex + 1 = log.stop)
    (appendable : manager.Appendable entries)
    (isFront : entries.head? = some front) (isBack : entries.getLast? = some back)
    (accepted : manager.checkAndResolveConflict entries front back =
      some (.accepted remaining resolved)) :
    ∃ base cut, LogManager.Prepared manager base resolved log cut remaining ∧
      LogManager.Consecutive cut remaining ∧ ∀ entry ∈ remaining, 0 < entry.id.term := by
  have frontMember := List.mem_of_mem_head? isFront
  have numbered (follower : front.id.index ≠ 0) :
      ∃ start, 0 < start ∧ LogManager.Consecutive start entries := by
    rcases appendable.indexes with zero | consecutive
    · exact absurd (zero front frontMember) follower
    · exact consecutive
  cases LogManager.resolves_of_accepted accepted with
  | leader isLeader =>
      refine ⟨manager, log.stop, ⟨?_, Or.inl ⟨rfl, rfl⟩⟩, ?_, ?_⟩
      · congr 1
        rw [LogManager.assignIndexes_length]
        omega
      · intro position entry found
        rw [LogManager.assignIndexes_getElem?, Option.map_eq_some_iff] at found
        obtain ⟨original, _, rfl⟩ := found
        simp only
        omega
      · intro assigned member
        obtain ⟨position, found⟩ := List.mem_iff_getElem?.mp member
        rw [LogManager.assignIndexes_getElem?, Option.map_eq_some_iff] at found
        obtain ⟨original, isOriginal, rfl⟩ := found
        exact appendable.terms original (List.mem_of_getElem? isOriginal)
  | next follower isNext new =>
      obtain ⟨start, positive, consecutive⟩ := numbered follower
      have frontIndex := consecutive.front isFront
      have backIndex := consecutive.back isBack
      have atEnd : start = log.stop := by omega
      subst atEnd
      refine ⟨manager, log.stop, ⟨?_, Or.inl ⟨rfl, rfl⟩⟩, consecutive, appendable.terms⟩
      congr 1
      omega
  | known follower inside new same =>
      refine ⟨manager, log.stop, ⟨?_, Or.inl ⟨rfl, rfl⟩⟩, ?_, ?_⟩
      · have same : log.stop + ([] : List (LogEntry P D)).length - 1 = manager.lastLogIndex := by
          rw [List.length_nil]
          omega
        rw [same]
      · exact fun position entry found => absurd found (by simp)
      · exact fun entry member => absurd member List.not_mem_nil
  | conflict follower inside new split same differs overlaps truncated =>
      obtain ⟨start, positive, consecutive⟩ := numbered follower
      have frontIndex := consecutive.front isFront
      obtain ⟨behind, reaches, lastEq, rest⟩ := Windowed.resolve_rest windowed appendable
        consecutive isBack (by omega) split same
      have applied := (LogManager.unsafeTruncateSuffix_some truncated).1
      refine ⟨_, _, ⟨by rw [lastEq], Or.inr ⟨truncated, ?_, ?_⟩⟩, rest, fun entry member =>
        appendable.terms entry (split ▸ List.mem_append_right _ member)⟩ <;> omega
  | extension follower inside new split same differs beyond =>
      obtain ⟨start, positive, consecutive⟩ := numbered follower
      have frontIndex := consecutive.front isFront
      obtain ⟨behind, reaches, lastEq, rest⟩ := Windowed.resolve_rest windowed appendable
        consecutive isBack (by omega) split same
      have atEnd : _ = log.stop := le_antisymm (reaches.trans last.le) (by omega)
      exact ⟨manager, _, ⟨by rw [lastEq], Or.inl ⟨rfl, atEnd⟩⟩, rest,
        fun entry member => appendable.terms entry (split ▸ List.mem_append_right _ member)⟩

theorem Tracked.prepared {base resolved : LogManager P D C} {cut : Nat}
    {remaining : List (LogEntry P D)} (tracked : Tracked run)
    (prepared : LogManager.Prepared run.manager base resolved run.log cut remaining) :
    run.manager.lastSnapshotId.index < cut ∧ (run.log.keepBelow cut).stop = cut ∧
      Recorded { manager := base, log := run.log.keepBelow cut,
                 history := History.upTo ConfigurationEntry.index run.history (cut - 1) } ∧
      base.configManager.snapshot = run.manager.configManager.snapshot := by
  have windowed := tracked.windowed
  have opened : run.manager.firstLogIndex ≤ run.manager.lastSnapshotId.index + 1 := windowed.opened
  have toApplied := windowed.applied
  have insideLast := windowed.inside
  have first := tracked.first
  have last := tracked.last
  have positive := tracked.wellFormed.positive
  rcases prepared.2 with ⟨rfl, rfl⟩ | ⟨truncated, applied, upper⟩
  · rw [LogManager.keepBelow_whole, tracked.toRecorded.upTo_whole]
    exact ⟨by omega, rfl, tracked.toRecorded, rfl⟩
  · have back : cut - 1 + 1 = cut := by omega
    have kept := tracked.toRecorded.truncateSuffix (by omega) (by omega) truncated
    rw [back] at kept
    obtain ⟨_, lastTermKept, rfl⟩ := LogManager.unsafeTruncateSuffix_some truncated
    exact ⟨by omega, IndexedLog.keepBelow_stop run.log (by omega) upper.le, kept, rfl⟩

theorem Tracked.allAccepted {entries remaining : List (LogEntry P D)} {front back : LogEntry P D}
    {resolved : LogManager P D C} (tracked : Tracked run)
    (appendable : run.manager.Appendable entries)
    (isFront : entries.head? = some front) (isBack : entries.getLast? = some back)
    (accepted : run.manager.checkAndResolveConflict entries front back =
      some (.accepted remaining resolved)) : resolved.configManager.AllAccepted remaining := by
  obtain ⟨base, cut, prepared, consecutive, _⟩ :=
    prepared_of_accepted tracked.windowed tracked.last appendable isFront isBack accepted
  obtain ⟨_, stop, recorded, _⟩ := tracked.prepared prepared
  rw [← stop] at consecutive
  rw [prepared.1]
  exact (recorded.accepts consecutive).1

theorem Tracked.follow_prepared {base resolved : LogManager P D C} {cut : Nat}
    {remaining : List (LogEntry P D)} (tracked : Tracked run)
    (prepared : LogManager.Prepared run.manager base resolved run.log cut remaining)
    (context : C) (entries submitted : List (LogEntry P D)) (sees : Bool) :
    run.follow (.appendEntries context entries sees)
      (resolved.enqueue context submitted remaining) =
        { manager := resolved.enqueue context submitted remaining
          log := (run.log.keepBelow cut).append remaining
          history := History.upTo ConfigurationEntry.index run.history (cut - 1) ++
            configurationsOf remaining } := by
  have isResolved := prepared.1
  subst isResolved
  unfold follow
  rcases prepared.2 with ⟨rfl, rfl⟩ | ⟨truncated, applied, upper⟩
  · rw [queued_eq [.append (.queued context submitted remaining)] rfl,
      LogManager.keepBelow_whole, tracked.toRecorded.upTo_whole]
    rfl
  · have back : cut - 1 + 1 = cut := by omega
    obtain ⟨_, lastTermKept, rfl⟩ := LogManager.unsafeTruncateSuffix_some truncated
    rw [queued_eq [.truncateSuffix (cut - 1) lastTermKept,
      .append (.queued context submitted remaining)]]
    · simp only [List.foldl_cons, List.foldl_nil, DiskTask.apply, DiskTask.record,
        LogStorage.truncateSuffix, back]
      rfl
    · exact List.append_assoc _ _ _

theorem Tracked.accepted {entries remaining : List (LogEntry P D)} {front back : LogEntry P D}
    {resolved : LogManager P D C} (tracked : Tracked run)
    (appendable : run.manager.Appendable entries)
    (isFront : entries.head? = some front) (isBack : entries.getLast? = some back)
    (accepted : run.manager.checkAndResolveConflict entries front back =
      some (.accepted remaining resolved)) (context : C) (submitted : List (LogEntry P D))
    (sees : Bool) :
    let after := resolved.enqueue context submitted remaining
    Recorded (run.follow (.appendEntries context entries sees) after) ∧
      after.configManager.snapshot = run.manager.configManager.snapshot ∧
      effective (run.follow (.appendEntries context entries sees) after).history
        run.manager.lastSnapshotId.index =
          effective run.history run.manager.lastSnapshotId.index := by
  obtain ⟨base, cut, prepared, consecutive, terms⟩ :=
    prepared_of_accepted tracked.windowed tracked.last appendable isFront isBack accepted
  obtain ⟨above, stop, recorded, snapshot⟩ := tracked.prepared prepared
  have isCut := consecutive
  rw [← stop] at consecutive
  have enqueued := recorded.enqueue context submitted consecutive terms
    (show cut + remaining.length - 1 + 1 = (run.log.keepBelow cut).stop + remaining.length by
      omega)
  have kept := (recorded.accepts consecutive).2.2.trans snapshot
  have later : ∀ entry ∈ configurationsOf remaining,
      run.manager.lastSnapshotId.index < entry.index :=
    fun entry member => above.trans_le (batch_index isCut entry member).1
  have same : effective (History.upTo ConfigurationEntry.index run.history (cut - 1) ++
      configurationsOf remaining) run.manager.lastSnapshotId.index =
        effective run.history run.manager.lastSnapshotId.index :=
    (effective_append later).trans (effective_upTo _ (by omega))
  have isFollow := tracked.follow_prepared prepared context entries submitted sees
  simp only
  rw [isFollow]
  refine ⟨?_, ?_, same⟩
  · rw [prepared.1]
    exact enqueued
  · rw [prepared.1]
    exact kept

/-! ### Runs -/

theorem follow_idle (action : LogManager.Action P D C) (after : LogManager P D C)
    (noSnapshot : ∀ snapshot, action ≠ .setSnapshot snapshot)
    (idle : queued run.manager after = [] ∨
      ∃ ticket, queued run.manager after = [.lastLogId ticket]) :
    run.follow action after = { manager := after, log := run.log, history := run.history } := by
  unfold follow
  cases action with
  | setSnapshot snapshot => exact absurd rfl (noSnapshot snapshot)
  | _ =>
      rcases idle with none | ⟨ticket, one⟩
      · rw [none]
        rfl
      · rw [one]
        rfl

theorem follow_nothing (run : ConfigurationRun P D C) (context : C) (sees : Bool) :
    run.follow (.appendEntries context [] sees) (run.manager.enqueue context [] []) =
      { manager := run.manager.enqueue context [] [], log := run.log, history := run.history } := by
  unfold follow
  rw [queued_eq [.append (.queued context [] [])] rfl]
  simp only [List.foldl_cons, List.foldl_nil, DiskTask.apply, DiskTask.record,
    StableClosure.queued]
  rw [IndexedLog.append_nil]
  exact congrArg _ (List.append_nil _)

def slots (manager : LogManager P D C) : ConfigurationManager P × LogId :=
  (manager.configManager, manager.lastSnapshotId)

theorem Tracked.frame {after : LogManager P D C} (tracked : Tracked run)
    (windowed : LogManager.Windowed after) (sameBooks : books after = books run.manager)
    (sameSlots : slots after = slots run.manager) :
    Tracked { manager := after, log := run.log, history := run.history } := by
  simp only [books, Prod.mk.injEq] at sameBooks
  simp only [slots, Prod.mk.injEq] at sameSlots
  obtain ⟨first, last, configurations⟩ := sameBooks
  obtain ⟨configManager, snapshotId⟩ := sameSlots
  constructor
  · constructor
    · exact tracked.wellFormed
    · exact first.trans tracked.first
    · change after.lastLogIndex + 1 = run.log.stop
      rw [last]
      exact tracked.last
    · exact tracked.sorted
    · exact tracked.inside
    · exact tracked.logged
    · change ∃ start, start ≤ run.log.first ∧ after.configManager.configurations = _
      rw [configurations]
      exact tracked.kept
  · exact windowed
  · change after.configManager.snapshot.id = after.lastSnapshotId
    rw [configManager, snapshotId]
    exact tracked.snapshotId
  · change after.configManager.snapshot.content =
      (effective run.history after.lastSnapshotId.index).content
    rw [configManager, snapshotId]
    exact tracked.snapshot

theorem follow_background {action : LogManager.Action P D C} {after : LogManager P D C}
    (run : ConfigurationRun P D C)
    (stepped : LogManager.step action run.manager = some after)
    (background : LogManager.Background action) :
    run.follow action after = { manager := after, log := run.log, history := run.history } := by
  have idle : queued run.manager after = [] ∨
      ∃ ticket, queued run.manager after = [.lastLogId ticket] := by
    rcases LogManager.background_queue stepped background with kept | ⟨task, taken⟩ | ⟨ticket, one⟩
    · exact Or.inl (queued_eq [] (kept.trans (List.append_nil _).symm))
    · refine Or.inl ?_
      unfold queued
      rw [taken]
      exact List.drop_of_length_le (by simp)
    · exact Or.inr ⟨ticket, queued_eq _ one⟩
  have noSnapshot : ∀ snapshot, action ≠ .setSnapshot snapshot := by
    rintro snapshot rfl
    exact background
  exact follow_idle action after noSnapshot idle

theorem Tracked.background {action : LogManager.Action P D C} {after : LogManager P D C}
    (tracked : Tracked run) (windowed : LogManager.Windowed after)
    (stepped : LogManager.step action run.manager = some after)
    (background : LogManager.Background action) : Tracked (run.follow action after) := by
  have same := LogManager.background_view stepped background
  simp only [LogManager.view, Prod.mk.injEq] at same
  obtain ⟨first, last, snapshotId, _, _, configManager⟩ := same
  rw [follow_background run stepped background]
  refine tracked.frame windowed ?_ ?_
  · simp only [books, first, last, configManager]
  · simp only [slots, snapshotId, configManager]

theorem Tracked.appendEntries {context : C} {entries : List (LogEntry P D)} {sees : Bool}
    {after : LogManager P D C} (tracked : Tracked run) (windowed : LogManager.Windowed after)
    (appendable : run.manager.Appendable entries)
    (stepped : run.manager.appendEntries context entries sees = some after) :
    Tracked (run.follow (.appendEntries context entries sees) after) := by
  rcases LogManager.appendEntries_cases stepped with ⟨status, rfl, _⟩ | ⟨rfl, rfl⟩ |
    ⟨front, back, remaining, resolved, isFront, isBack, accepted, rfl⟩
  · have idle : queued run.manager (run.manager.runInBthread
        { context := context, submitted := entries } status) = [] :=
      queued_eq [] (List.append_nil _).symm
    rw [follow_idle (.appendEntries context entries sees) _ nofun (Or.inl idle)]
    exact tracked.frame windowed rfl rfl
  · rw [follow_nothing]
    exact tracked.frame windowed rfl rfl
  · obtain ⟨recorded, snapshot, same⟩ := tracked.accepted appendable isFront isBack accepted context
      (if front.id.index = 0 then remaining else entries) sees
    have snapshotId := (LogManager.resolve_books accepted).2.2.2.2
    refine { recorded with windowed := windowed, snapshotId := ?_, snapshot := ?_ }
    · exact (congrArg ConfigurationEntry.id snapshot).trans
        (tracked.snapshotId.trans snapshotId.symm)
    · have isEffective := tracked.snapshot
      rw [← snapshot, ← same] at isEffective
      change _ = (effective _ resolved.lastSnapshotId.index).content
      rw [snapshotId]
      exact isEffective

theorem follow_stale {snapshot : SnapshotMeta P} {after : LogManager P D C}
    (old : snapshot.lastIncludedIndex ≤ run.manager.lastSnapshotId.index)
    (stepped : run.manager.setSnapshot snapshot = some after) :
    run.follow (.setSnapshot snapshot) after = run := by
  obtain rfl := LogManager.setSnapshot_stale (not_lt.mpr old) stepped
  unfold follow
  rw [queued_eq [] (List.append_nil _).symm]
  simp only [noted, if_pos old, List.foldl_nil]

theorem Tracked.setSnapshot {snapshot : SnapshotMeta P} {after : LogManager P D C}
    (tracked : Tracked run) (windowed : LogManager.Windowed after)
    (carries : run.manager.lastSnapshotId.index < snapshot.lastIncludedIndex →
      Carries (.setSnapshot snapshot) run)
    (stepped : run.manager.setSnapshot snapshot = some after) :
    Tracked (run.follow (.setSnapshot snapshot) after) := by
  by_cases newer : run.manager.lastSnapshotId.index < snapshot.lastIncludedIndex
  · obtain ⟨recorded, slot, snapshotId, content⟩ :=
      tracked.toRecorded.setSnapshot (carries newer) newer stepped
    refine { recorded with windowed := windowed, snapshotId := ?_, snapshot := ?_ }
    · change after.configManager.snapshot.id = after.lastSnapshotId
      rw [slot, snapshotId]
      rfl
    · change after.configManager.snapshot.content =
        (effective (noted run.manager snapshot run.history) after.lastSnapshotId.index).content
      rw [slot, snapshotId]
      exact content
  · rw [follow_stale (not_lt.mp newer) stepped]
    exact tracked

theorem Tracked.clearBufferredLogs {after : LogManager P D C} (tracked : Tracked run)
    (windowed : LogManager.Windowed after)
    (stepped : run.manager.clearBufferredLogs = some after) :
    Tracked (run.follow .clearBufferredLogs after) := by
  unfold LogManager.clearBufferredLogs at stepped
  split at stepped
  · have recorded := tracked.toRecorded.truncatePrefix run.history stepped rfl tracked.sorted
      (fun entry member => lt_of_lt_of_le (tracked.inside entry member) (le_max_right _ _)) rfl
    obtain ⟨_, rfl⟩ := LogManager.truncatePrefix_some stepped
    unfold follow
    rw [queued_eq [.truncatePrefix (run.manager.lastSnapshotId.index + 1)] rfl]
    exact { recorded with
      windowed := windowed, snapshotId := tracked.snapshotId, snapshot := tracked.snapshot }
  · obtain rfl := Option.some.inj stepped
    rw [follow_idle .clearBufferredLogs _ nofun
      (Or.inl (queued_eq [] (List.append_nil _).symm))]
    exact tracked

theorem Tracked.step {action : LogManager.Action P D C} (tracked : Tracked run)
    (allowed : LogManager.Allowed action run.manager) (carries : Carries action run)
    (stepped : step action run = some after) : Tracked after := by
  obtain ⟨manager', moved, rfl⟩ := Option.map_eq_some_iff.mp stepped
  have windowed := tracked.windowed.step allowed moved
  cases action with
  | appendEntries context entries sees => exact tracked.appendEntries windowed allowed moved
  | setSnapshot snapshot => exact tracked.setSnapshot windowed (fun _ => carries) moved
  | clearBufferredLogs => exact tracked.clearBufferredLogs windowed moved
  | setAppliedId appliedId =>
      obtain rfl := Option.some.inj moved
      have idle : queued run.manager (run.manager.setAppliedId appliedId) = [] := by
        refine queued_eq [] ?_
        rw [List.append_nil]
        unfold LogManager.setAppliedId
        split <;> rfl
      rw [follow_idle (.setAppliedId appliedId) _ nofun (Or.inl idle)]
      refine tracked.frame windowed ?_ ?_
      all_goals
        unfold LogManager.setAppliedId
        split <;> rfl
  | _ => exact tracked.background windowed moved trivial

theorem Initial.tracked (initial : Initial run) : Tracked run := by
  obtain ⟨storage, configManager, dataLength, history, wellFormed, terms, loaded, start⟩ := initial
  have positive := wellFormed.positive
  have below := storage.first_le_stop
  have recorded : Recorded ({ manager := LogManager.init storage configManager dataLength,
                              log := storage, history := history } : ConfigurationRun P D C) :=
    { wellFormed := wellFormed
      first := rfl
      last := Nat.sub_add_cancel (lt_of_lt_of_le positive below)
      sorted := loaded.sorted
      inside := fun entry member => (loaded.inside entry member).2
      logged := loaded.logged
      kept := loaded.kept }
  rcases start with ⟨atOne, rfl⟩ | ⟨snapshot, newer, notOlder, carries, stepped⟩
  · have windowed : LogManager.Windowed
        (LogManager.init storage configManager dataLength : LogManager P D C) :=
      LogManager.Initial.windowed
        ⟨storage, configManager, dataLength, wellFormed, terms, Or.inl ⟨atOne, rfl⟩⟩
    have none : effective history 0 = ConfigurationEntry.default := by
      have empty : History.upTo ConfigurationEntry.index history 0 = [] := by
        refine List.filter_eq_nil_iff.mpr ?_
        intro entry member
        simpa using (loaded.inside entry member).1.ne'
      unfold effective History.latest
      rw [empty]
      rfl
    refine { recorded with windowed := windowed, snapshotId := ?_, snapshot := ?_ }
    · exact congrArg ConfigurationEntry.id loaded.snapshot
    · change configManager.snapshot.content = (effective history 0).content
      rw [loaded.snapshot, none]
  · obtain ⟨manager', moved, rfl⟩ := Option.map_eq_some_iff.mp stepped
    have windowed : LogManager.Windowed manager' :=
      LogManager.Initial.windowed ⟨storage, configManager, dataLength, wellFormed, terms,
        Or.inr ⟨snapshot, newer, notOlder, moved⟩⟩
    obtain ⟨after, slot, snapshotId, content⟩ := recorded.setSnapshot carries newer moved
    refine { after with windowed := windowed, snapshotId := ?_, snapshot := ?_ }
    · change manager'.configManager.snapshot.id = manager'.lastSnapshotId
      rw [slot, snapshotId]
      rfl
    · change manager'.configManager.snapshot.content = (effective (noted
        (LogManager.init storage configManager dataLength) snapshot history)
          manager'.lastSnapshotId.index).content
      rw [slot, snapshotId]
      exact content

theorem tracked_of_reachable (reached : system.Reachable run) : Tracked run := by
  induction reached with
  | start initial => exact initial.tracked
  | next _ allowed stepped ih => exact ih.step allowed.1 allowed.2 stepped

structure HistoryRight (run : ConfigurationRun P D C) : Prop where
  lastLogged : ∀ last, (configurationsOf run.log.entries).getLast? = some last →
    run.manager.configManager.lastConfiguration = last
  lastSnapshot : configurationsOf run.log.entries = [] →
    run.manager.configManager.lastConfiguration.content =
      run.manager.configManager.snapshot.content
  snapshotId : run.manager.configManager.snapshot.id = run.manager.lastSnapshotId
  inEffect : ∀ index, run.manager.lastSnapshotId.index ≤ index →
    (run.manager.configManager.get index).content = (effective run.history index).content

theorem Tracked.get (tracked : Tracked run) {index : Nat}
    (behind : run.manager.lastSnapshotId.index ≤ index) :
    (run.manager.configManager.get index).content = (effective run.history index).content := by
  have opened : run.manager.firstLogIndex ≤ run.manager.lastSnapshotId.index + 1 :=
    tracked.windowed.opened
  have first := tracked.first
  obtain ⟨start, before, configurations⟩ := tracked.kept
  have sortedBack := tracked.sorted.filterSince start
  have isLatest := tracked.sorted.latest_behind
    (show start ≤ run.manager.lastSnapshotId.index + 1 by omega) behind
  have answer : run.manager.configManager.get index =
      (History.latest ConfigurationEntry.index
        (History.since ConfigurationEntry.index run.history start) index).getD
          run.manager.configManager.snapshot := by
    unfold ConfigurationManager.get History.latest
    rw [configurations, ← sortedBack.takeWhile]
    rfl
  have atSnapshot := tracked.snapshot
  unfold effective at atSnapshot ⊢
  rw [answer, isLatest]
  cases found : History.latest ConfigurationEntry.index
      (History.since ConfigurationEntry.index run.history start) index with
  | some entry => rfl
  | none => exact atSnapshot

theorem Tracked.lastConfiguration (tracked : Tracked run) :
    run.manager.configManager.lastConfiguration =
      run.manager.configManager.get (run.log.stop - 1) := by
  obtain ⟨start, before, configurations⟩ := tracked.kept
  have all : run.manager.configManager.configurations.takeWhile
      (fun entry => decide (entry.id.index ≤ run.log.stop - 1)) =
        run.manager.configManager.configurations := by
    refine List.takeWhile_eq_self_iff.mpr ?_
    intro entry member
    rw [configurations] at member
    have inside := tracked.inside entry (History.mem_since.mp member).1
    exact decide_eq_true (Nat.le_sub_one_of_lt inside)
  unfold ConfigurationManager.lastConfiguration ConfigurationManager.get
  rw [all]

theorem Tracked.right (tracked : Tracked run) : HistoryRight run := by
  obtain ⟨start, before, configurations⟩ := tracked.kept
  have opened : run.manager.firstLogIndex ≤ run.manager.lastSnapshotId.index + 1 :=
    tracked.windowed.opened
  have first := tracked.first
  constructor
  · intro last isLast
    have split := tracked.sorted.filterSince start
    rw [tracked.logged, ← History.since_since before] at isLast
    have isBack : (History.since ConfigurationEntry.index run.history start).getLast? =
        some last := by
      rw [← split.dropWhile] at isLast
      obtain ⟨front, whole⟩ := List.dropWhile_suffix
        (fun entry : ConfigurationEntry P => decide (entry.index < run.log.first))
        (l := History.since ConfigurationEntry.index run.history start)
      rw [← whole, List.getLast?_append, isLast]
      rfl
    unfold ConfigurationManager.lastConfiguration
    rw [configurations, isBack]
    rfl
  · intro none
    -- all that is in the history is at or below the snapshot
    have before : ∀ entry ∈ run.history, entry.index ≤ run.manager.lastSnapshotId.index := by
      intro entry member
      by_contra late
      have logged : entry ∈ configurationsOf run.log.entries := by
        rw [tracked.logged]
        exact History.mem_since.mpr ⟨member, by omega⟩
      rw [none] at logged
      exact List.not_mem_nil logged
    have whole (index : Nat) (behind : run.manager.lastSnapshotId.index ≤ index) :
        History.upTo ConfigurationEntry.index run.history index = run.history := by
      refine List.filter_eq_self.mpr ?_
      intro entry member
      exact decide_eq_true ((before entry member).trans behind)
    have inside := tracked.windowed.inside
    have last := tracked.last
    rw [tracked.lastConfiguration, tracked.get (by omega), tracked.snapshot]
    unfold effective History.latest
    rw [whole _ (by omega), whole _ (le_refl _)]
  · exact tracked.snapshotId
  · intro index behind
    exact tracked.get behind

/-- In every run the answers are right, and `add` takes the entries of every call. -/
theorem configuration_history (reached : system.Reachable run) :
    HistoryRight run ∧
      ∀ entries front back remaining resolved, run.manager.Appendable entries →
        entries.head? = some front → entries.getLast? = some back →
        run.manager.checkAndResolveConflict entries front back =
          some (.accepted remaining resolved) →
        resolved.configManager.AllAccepted remaining := by
  have tracked := tracked_of_reachable reached
  refine ⟨tracked.right, ?_⟩
  intro entries front back remaining resolved appendable isFront isBack accepted
  exact tracked.allAccepted appendable isFront isBack accepted

def firstConfiguration : LogEntry Nat Nat :=
  { type := .configuration, id := { index := 1, term := 1 }, peers := some [1, 2], data := 0 }

theorem fresh_initial :
    Initial ({ manager := LogManager.freshManager, log := .empty, history := [] } :
      ConfigurationRun Nat Nat Nat) := by
  refine ⟨.empty, .init, _, [], ⟨by decide, ?_⟩, ?_, ?_, Or.inl ⟨rfl, rfl⟩⟩
  · intro index entry found
    simp [LogStorage.getEntry, IndexedLog.get?, LogStorage.empty] at found
  · intro former later entry entry' _ _ found
    simp [LogStorage.getEntry, IndexedLog.get?, LogStorage.empty] at found
  · exact ⟨List.Pairwise.nil, fun entry member => absurd member List.not_mem_nil, rfl,
      ⟨1, le_refl _, rfl⟩, rfl⟩

/-- A fresh log and its first entry, which is a configuration. -/
theorem configuration_history_first :
    ∃ run : ConfigurationRun Nat Nat Nat, HistoryRight run ∧
      configurationsOf run.log.entries = [ConfigurationEntry.ofLogEntry firstConfiguration] ∧
      run.manager.configManager.lastConfiguration.conf.peers = [1, 2] := by
  have follows : ∃ run : ConfigurationRun Nat Nat Nat, system.Follows
      [.appendEntries 0 [firstConfiguration] false]
      { manager := LogManager.freshManager, log := .empty, history := [] } run ∧
      run.log.entries = [firstConfiguration] :=
    ⟨_, ⟨⟨LogManager.single_appendable rfl (Or.inl rfl) rfl, trivial⟩, _, rfl, rfl⟩, rfl⟩
  obtain ⟨run, follows, entries⟩ := follows
  have reached := TransitionSystem.Reachable.follows _ (.start fresh_initial) follows
  have right := (configuration_history reached).1
  have logged : configurationsOf run.log.entries =
      [ConfigurationEntry.ofLogEntry firstConfiguration] := by
    rw [entries]
    rfl
  refine ⟨run, right, logged, ?_⟩
  rw [right.lastLogged (ConfigurationEntry.ofLogEntry firstConfiguration) (by rw [logged]; rfl)]
  decide

end ConfigurationRun

end QuorumKit
