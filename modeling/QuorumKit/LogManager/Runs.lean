/-
Runs of a log manager.

`Allowed` is what the callers promise for each call.  The lemmas say once what a
step can do: to the log, to the applied id, to the closures it runs and to the
pending rounds of `clear_memory_logs`.
-/

import QuorumKit.Library.TransitionSystem
import QuorumKit.LogManager.DiskSteps

namespace QuorumKit

namespace LogManager

variable {P D C : Type} [DecidableEq P]

/-- Applied ids and snapshots come from one committed log, in order; a call that
is too late has no effect. -/
def Allowed (action : Action P D C) (manager : LogManager P D C) : Prop :=
  match action with
  | .appendEntries _ entries _ => manager.Appendable entries
  | .setSnapshot snapshot =>
      snapshot.lastIncludedIndex ≤ manager.lastSnapshotId.index ∨
        InOrder manager.appliedId snapshot.id ∨ InOrder snapshot.id manager.appliedId
  | .setAppliedId appliedId =>
      appliedId < manager.appliedId ∨ appliedId = manager.appliedId ∨
        (manager.appliedId.index < appliedId.index ∧ manager.appliedId.term ≤ appliedId.term ∧
          ∃ entry, manager.getEntry appliedId.index = some entry ∧ entry.id = appliedId)
  | _ => True

def SortedAbove (applied : Nat) (log : LogStorage P D) : Prop :=
  ∀ former later entry entry', applied < former → former ≤ later →
    log.getEntry former = some entry → log.getEntry later = some entry' →
    entry.id.term ≤ entry'.id.term

structure Ordered (applied : LogId) (log : LogStorage P D) : Prop where
  notOlder : NotOlder applied log
  sorted : SortedAbove applied.index log

/-- A manager right after `init`, or after the snapshot that is loaded next. -/
def Initial (manager : LogManager P D C) : Prop :=
  ∃ (storage : LogStorage P D) (configManager : ConfigurationManager P) (dataLength : D → Nat),
    storage.WellFormed ∧ SortedAbove 0 storage ∧
      (storage.first = 1 ∧ manager = init storage configManager dataLength ∨
        ∃ snapshot : SnapshotMeta P, 0 < snapshot.lastIncludedIndex ∧
          NotOlder snapshot.id storage ∧
          (init storage configManager dataLength).setSnapshot snapshot = some manager)

def system : TransitionSystem (LogManager P D C) (Action P D C) :=
  { init := Initial, allowed := Allowed, step := step }

variable {low : Nat} {manager manager' : LogManager P D C} {log log' : LogStorage P D}
  {action : Action P D C}

omit [DecidableEq P] in
theorem Ordered.compacts {applied applied' : LogId} (ordered : Ordered applied log)
    (compacts : Compacts log log') (anchored : Anchored log log' applied applied') :
    Ordered applied' log' := by
  have inOrder := anchored.inOrder.index_le
  constructor
  · rcases anchored with rfl | ⟨later, notOlder | ⟨anchor, isAnchor, sameTerm⟩⟩
    · exact fun index entry found => ordered.notOlder index entry (compacts.getEntry found)
    · exact notOlder
    · intro index entry found above
      have found := compacts.getEntry found
      rcases later with rfl | ⟨newer, _⟩
      · exact ordered.notOlder index entry found above
      · rw [← sameTerm]
        exact ordered.sorted _ _ _ _ newer above.le isAnchor found
  · intro former later entry entry' above below found found'
    exact ordered.sorted former later entry entry' (inOrder.trans_lt above) below
      (compacts.getEntry found) (compacts.getEntry found')

omit [DecidableEq P] in
theorem Appends.getEntry {applied : LogId} {submitted remaining : List (LogEntry P D)} {cut : Nat}
    (appends : Appends low applied log submitted remaining cut) {index : Nat}
    {entry : LogEntry P D}
    (found : LogStorage.getEntry ((log.keepBelow cut).append remaining) index = some entry) :
    (index < cut ∧ log.getEntry index = some entry) ∨
      (cut ≤ index ∧ remaining[index - cut]? = some entry) := by
  rw [LogStorage.getEntry, IndexedLog.get?_append,
    IndexedLog.keepBelow_stop log appends.lower appends.upper, IndexedLog.get?_keepBelow] at found
  split_ifs at found with kept
  · exact Or.inl ⟨kept, found⟩
  · exact Or.inr ⟨not_lt.mp kept, found⟩

omit [DecidableEq P] in
theorem Ordered.appends {applied : LogId} {submitted remaining : List (LogEntry P D)} {cut : Nat}
    (ordered : Ordered applied log) (lowApplied : low ≤ applied.index + 1)
    (appends : Appends low applied log submitted remaining cut) :
    Ordered applied ((log.keepBelow cut).append remaining) := by
  have placed {index : Nat} {entry : LogEntry P D} (above : cut ≤ index)
      (found : remaining[index - cut]? = some entry) : entry.id.index = index := by
    have fits := (appends.fits _ _ found).1
    rw [IndexedLog.keepBelow_stop log appends.lower appends.upper] at fits
    omega
  constructor
  · intro index entry found above
    rcases appends.getEntry found with ⟨_, kept⟩ | ⟨beyond, added⟩
    · exact ordered.notOlder index entry kept above
    · have atIndex := placed beyond added
      exact appends.committed entry (List.mem_of_getElem? added) (by omega)
  · intro former later entry entry' above below found found'
    rcases appends.getEntry found with ⟨inside, kept⟩ | ⟨beyond, added⟩
    · rcases appends.getEntry found' with ⟨_, kept'⟩ | ⟨beyond', added'⟩
      · exact ordered.sorted former later entry entry' above below kept kept'
      · -- across the cut, by way of the entry right before it
        have upper := appends.upper
        have lower := (IndexedLog.get?_bounds kept).1
        obtain ⟨last, isLast⟩ := IndexedLog.exists_get? (show log.first ≤ cut - 1 by omega)
          (show cut - 1 < log.stop by omega)
        have toLast := ordered.sorted former (cut - 1) entry last above (by omega) kept isLast
        cases isFront : remaining.head? with
        | none =>
            rw [List.head?_eq_none_iff] at isFront
            rw [isFront] at added'
            contradiction
        | some front =>
            have toFront := appends.boundary front last isFront (by omega) (by omega) isLast
            have toLater : front.id.term ≤ entry'.id.term := by
              have isFront := isFront
              rw [List.head?_eq_getElem?] at isFront
              obtain ⟨frontInside, frontEq⟩ := List.getElem?_eq_some_iff.mp isFront
              obtain ⟨laterInside, laterEq⟩ := List.getElem?_eq_some_iff.mp added'
              rcases Nat.eq_zero_or_pos (later - cut) with zero | positive
              · simp only [zero] at laterEq
                rw [← frontEq, ← laterEq]
              · rw [← frontEq, ← laterEq]
                exact List.pairwise_iff_getElem.mp appends.sorted 0 (later - cut) frontInside
                  laterInside positive
            exact toLast.trans (toFront.trans toLater)
    · rcases appends.getEntry found' with ⟨inside', _⟩ | ⟨beyond', added'⟩
      · omega
      · obtain ⟨formerInside, formerEq⟩ := List.getElem?_eq_some_iff.mp added
        obtain ⟨laterInside, laterEq⟩ := List.getElem?_eq_some_iff.mp added'
        rcases Nat.eq_or_lt_of_le below with same | before
        · subst same
          rw [added] at added'
          rw [Option.some.inj added']
        · rw [← formerEq, ← laterEq]
          exact List.pairwise_iff_getElem.mp appends.sorted _ _ formerInside laterInside (by omega)

omit [DecidableEq P] in
theorem init_sound {storage : LogStorage P D} (wellFormed : storage.WellFormed)
    (configManager : ConfigurationManager P) (dataLength : D → Nat) :
    Sound low (init storage configManager dataLength : LogManager P D C) storage := by
  have positive := wellFormed.positive
  have below := storage.first_le_stop
  constructor
  · constructor
    · exact
      { noError := rfl
        first := rfl
        last := by
          simp only [init, LogStorage.lastLogIndex]
          omega
        wellFormed := wellFormed
        memory := List.nil_suffix
        drains := rfl
        settled := fun _ _ _ _ _ member => absurd member List.not_mem_nil }
    · exact lt_of_lt_of_le positive below
    · intro entry _ found
      have bounds := IndexedLog.get?_bounds found
      simp only [init] at bounds
      omega
    · exact positive
    · exact le_refl _
  · trivial
  · intro thread isThread
    contradiction

theorem setSnapshot_opened {snapshot : SnapshotMeta P}
    (stepped : manager.setSnapshot snapshot = some manager')
    (opened : manager.Opened ∨ manager.lastSnapshotId.index = 0 ∧
      manager.virtualFirstLogId.index = 0 ∧ 0 < snapshot.lastIncludedIndex) :
    manager'.Opened := by
  unfold Opened at opened ⊢
  by_cases newer : manager.lastSnapshotId.index < snapshot.lastIncludedIndex
  · rcases setSnapshot_cases newer stepped with ⟨_, stepped⟩ |
      ⟨hasTerm, _, ⟨_, stepped⟩ | rfl⟩ | ⟨_, _, rfl⟩
    · obtain ⟨_, rfl⟩ := truncatePrefix_some stepped
      exact le_refl _
    · obtain ⟨_, rfl⟩ := truncatePrefix_some stepped
      simp only [execute, noteSnapshot, SnapshotMeta.id]
      omega
    · simp only [noteSnapshot, SnapshotMeta.id]
      rcases opened with window | ⟨noSnapshot, noVirtual, positive⟩
      · omega
      · -- the term has been read from the log itself
        by_contra below
        unfold getTerm at hasTerm
        rw [if_neg (by omega), if_neg (by omega), if_neg (by omega),
          if_pos (Or.inr (by omega))] at hasTerm
        exact hasTerm rfl
    · exact le_refl _
  · obtain rfl := setSnapshot_stale newer stepped
    omega

def books (manager : LogManager P D C) :
    Bool × List LogId × List (StableClosure P D C × Int) × List (StableClosure P D C × Int) :=
  (manager.hasError, manager.clearing, manager.asyncClosures, manager.finished)

theorem setSnapshot_books {snapshot : SnapshotMeta P}
    (stepped : manager.setSnapshot snapshot = some manager') :
    manager'.books = manager.books ∧ manager'.accepted = manager.accepted := by
  by_cases newer : manager.lastSnapshotId.index < snapshot.lastIncludedIndex
  · rcases setSnapshot_cases newer stepped with ⟨_, stepped⟩ | ⟨_, _, ⟨_, stepped⟩ | rfl⟩ |
      ⟨_, _, rfl⟩
    · obtain ⟨_, rfl⟩ := truncatePrefix_some stepped
      exact ⟨rfl, rfl⟩
    · obtain ⟨_, rfl⟩ := truncatePrefix_some stepped
      exact ⟨rfl, rfl⟩
    · exact ⟨rfl, rfl⟩
    · exact ⟨rfl, rfl⟩
  · obtain rfl := setSnapshot_stale newer stepped
    exact ⟨rfl, rfl⟩

omit [DecidableEq P] in
theorem clearBufferredLogs_books (stepped : manager.clearBufferredLogs = some manager') :
    manager'.books = manager.books ∧ manager'.accepted = manager.accepted ∧
      manager'.appliedId = manager.appliedId := by
  unfold LogManager.clearBufferredLogs at stepped
  split at stepped
  · obtain ⟨_, rfl⟩ := truncatePrefix_some stepped
    exact ⟨rfl, rfl, rfl⟩
  · obtain rfl := Option.some.inj stepped
    exact ⟨rfl, rfl, rfl⟩

omit [DecidableEq P] in
theorem resolve_books {entries remaining : List (LogEntry P D)} {front back : LogEntry P D}
    {resolved : LogManager P D C}
    (accepted : manager.checkAndResolveConflict entries front back =
      some (.accepted remaining resolved)) :
    resolved.books = manager.books ∧ resolved.accepted = manager.accepted ∧
      resolved.appliedId = manager.appliedId ∧ resolved.firstLogIndex = manager.firstLogIndex ∧
      resolved.lastSnapshotId = manager.lastSnapshotId := by
  cases resolves_of_accepted accepted with
  | conflict _ _ _ _ _ _ _ truncated =>
      obtain ⟨_, _, rfl⟩ := unsafeTruncateSuffix_some truncated
      exact ⟨rfl, rfl, rfl, rfl, rfl⟩
  | leader | next | known | extension => exact ⟨rfl, rfl, rfl, rfl, rfl⟩

theorem appendEntries_cases {context : C} {entries : List (LogEntry P D)} {sees : Bool}
    (stepped : manager.appendEntries context entries sees = some manager') :
    (∃ status, manager' = manager.runInBthread { context := context, submitted := entries } status ∧
      (status = 0 → ∃ back, entries.getLast? = some back ∧
        (∀ front, entries.head? = some front → front.id.index ≠ 0) ∧
        back.id.index ≤ manager.appliedId.index)) ∨
    (entries = [] ∧ manager' = manager.enqueue context [] []) ∨
    ∃ front back remaining resolved, entries.head? = some front ∧ entries.getLast? = some back ∧
      manager.checkAndResolveConflict entries front back = some (.accepted remaining resolved) ∧
      manager' = resolved.enqueue context (if front.id.index = 0 then remaining else entries)
        remaining := by
  unfold LogManager.appendEntries at stepped
  simp only at stepped
  split_ifs at stepped with seen
  · obtain rfl := Option.some.inj stepped
    exact Or.inl ⟨ EIO, rfl, fun zero => absurd zero (by decide)⟩
  · cases isFront : entries.head? with
    | none =>
        rw [isFront] at stepped
        obtain rfl := Option.some.inj stepped
        exact Or.inr (Or.inl ⟨List.head?_eq_none_iff.mp isFront, rfl⟩)
    | some front =>
        cases isBack : entries.getLast? with
        | none =>
            rw [List.getLast?_eq_none_iff] at isBack
            rw [isBack] at isFront
            contradiction
        | some back =>
            rw [isFront, isBack] at stepped
            simp only at stepped
            split at stepped
            · contradiction
            · rename_i status refused
              obtain rfl := Option.some.inj stepped
              refine Or.inl ⟨status, rfl, fun zero => ⟨back, rfl, ?_⟩⟩
              subst zero
              unfold checkAndResolveConflict at refused
              split_ifs at refused with leader gap applied next
              · simp at refused
              · simp [EINVAL] at refused
              · refine ⟨fun other isOther => ?_, applied⟩
                obtain rfl := Option.some.inj (isOther.symm.trans rfl)
                exact leader
              · simp at refused
              · split at refused
                · simp at refused
                · split_ifs at refused
                  · obtain ⟨truncated, _, isAccepted⟩ := Option.map_eq_some_iff.mp refused
                    contradiction
                  · simp at refused
            · rename_i remaining resolved accepted
              obtain rfl := Option.some.inj stepped
              exact Or.inr (Or.inr ⟨front, back, remaining, resolved, rfl, rfl, accepted, rfl⟩)

theorem Initial.sound (initial : Initial manager) :
    ∃ log, Sound 0 manager log ∧ Ordered manager.appliedId log ∧ manager.Opened ∧
      manager.clearing = [] ∧ manager.asyncClosures = [] := by
  obtain ⟨storage, configManager, dataLength, wellFormed, sorted, start⟩ := initial
  have sound : Sound 0 (init storage configManager dataLength : LogManager P D C) storage :=
    init_sound wellFormed configManager dataLength
  have ordered : Ordered {} storage := ⟨fun _ _ _ _ => Nat.zero_le _, sorted⟩
  rcases start with ⟨atOne, rfl⟩ | ⟨snapshot, positive, notOlder, stepped⟩
  · exact ⟨storage, sound, ordered, le_of_eq atOne, rfl, rfl⟩
  · have later : InOrder ({} : LogId) snapshot.id := Or.inr ⟨positive, Nat.zero_le _⟩
    obtain ⟨log, compacts, after, anchored⟩ := sound.setSnapshot (Nat.zero_le _)
      (Or.inr notOlder) (Or.inr (Or.inl later)) stepped
    obtain ⟨books, _⟩ := setSnapshot_books stepped
    simp only [LogManager.books, Prod.mk.injEq] at books
    exact ⟨log, after, ordered.compacts compacts anchored,
      setSnapshot_opened stepped (Or.inr ⟨rfl, rfl, positive⟩), books.2.1, books.2.2.1⟩

def frame (manager : LogManager P D C) :
    Nat × LogId × LogId × List (StableClosure P D C × Int) × List (LogEntry P D) ×
      List LogId :=
  (manager.firstLogIndex, manager.lastSnapshotId, manager.appliedId, manager.asyncClosures,
    manager.accepted, manager.clearing)

omit [DecidableEq P] in
theorem diskFlush_frame {limit : Nat} (stepped : manager.diskFlush limit = some manager') :
    manager'.frame = manager.frame ∧ manager'.finished = manager.finished ∧
      (manager'.hasError = false → manager.hasError = false) := by
  have wrote (toAppend : List (LogEntry P D)) (lastId : LogId) :
      (manager.appendToStorage toAppend lastId limit).2.frame = manager.frame ∧
        (manager.appendToStorage toAppend lastId limit).2.finished = manager.finished ∧
        ((manager.appendToStorage toAppend lastId limit).2.hasError = false →
          manager.hasError = false) := by
    unfold appendToStorage
    by_cases failed : manager.hasError = true
    · rw [if_pos failed]
      exact ⟨rfl, rfl, id⟩
    · rw [if_neg failed]
      simp only
      split
      · exact ⟨rfl, rfl, fun _ => by simpa using failed⟩
      · exact ⟨rfl, rfl, id⟩
  unfold LogManager.diskFlush at stepped
  split at stepped
  · rename_i thread _
    split at stepped
    · obtain rfl := Option.some.inj stepped
      exact wrote thread.toAppend thread.lastId
    · contradiction
  · contradiction

omit [DecidableEq P] in
theorem diskRun_cases (stepped : manager.diskRun = some manager') :
    ∃ thread done rest, manager.diskThread = some thread ∧ thread.ready = done :: rest ∧
      manager'.frame = manager.frame ∧ manager'.hasError = manager.hasError ∧
      manager'.finished = (done, if manager.hasError then EIO else 0) :: manager.finished ∧
      manager'.storage = manager.storage := by
  unfold LogManager.diskRun at stepped
  split at stepped
  · rename_i thread isThread
    split at stepped
    · rename_i done rest isReady
      obtain rfl := Option.some.inj stepped
      exact ⟨thread, done, rest, isThread, isReady, rfl, rfl, rfl, rfl⟩
    · contradiction
  · contradiction

omit [DecidableEq P] in
theorem diskTask_frame {outcome : DiskOutcome P D}
    (stepped : manager.diskTask outcome = some manager') :
    manager'.frame = manager.frame ∧ (manager'.hasError = false → manager.hasError = false) ∧
      (manager'.finished = manager.finished ∨ ∃ done, manager.EmptyTask done ∧
        manager'.finished = (done, 0) :: manager.finished ∧
        manager'.hasError = manager.hasError) := by
  have operated (storage : LogStorage P D) :
      (manager.operate storage outcome).frame = manager.frame ∧
        ((manager.operate storage outcome).hasError = false → manager.hasError = false) ∧
        (manager.operate storage outcome).finished = manager.finished := by
    cases outcome with
    | done => exact ⟨rfl, id, rfl⟩
    | failed left => exact ⟨rfl, fun works => absurd works (by simp [operate, reportError]), rfl⟩
  cases takesTask_of_stepped stepped with
  | batched => exact ⟨rfl, id, Or.inl rfl⟩
  | performed isThread isTask _ _ _ _ performs =>
      cases performs with
      | empty none =>
          exact ⟨rfl, id, Or.inr ⟨_, ⟨_, isThread, isTask, none⟩, rfl, rfl⟩⟩
      | lastLogId ticket => exact ⟨rfl, id, Or.inl rfl⟩
      | truncatePrefix firstIndexKept =>
          obtain ⟨frame, error, finished⟩ :=
            operated (manager.storage.truncatePrefix firstIndexKept)
          exact ⟨frame, error, Or.inl finished⟩
      | truncateSuffix lastIndexKept =>
          obtain ⟨frame, error, finished⟩ :=
            operated (manager.storage.truncateSuffix lastIndexKept)
          exact ⟨frame, error, Or.inl finished⟩
      | truncateFailed lastIndexKept =>
          obtain ⟨frame, error, finished⟩ :=
            operated (manager.storage.truncateSuffix lastIndexKept)
          exact ⟨frame, error, Or.inl finished⟩
      | reset nextLogIndex =>
          obtain ⟨frame, error, finished⟩ := operated (LogStorage.reset nextLogIndex)
          exact ⟨frame, error, Or.inl finished⟩

omit [DecidableEq P] in
theorem diskFinish_cases (stepped : manager.diskFinish = some manager') :
    ∃ lastId, manager' =
      ({ manager with diskThread := none } : LogManager P D C).setDiskId lastId := by
  unfold LogManager.diskFinish at stepped
  split at stepped
  · exact ⟨_, (Option.some.inj stepped).symm⟩
  · contradiction

omit [DecidableEq P] in
theorem runAsync_cases {position : Nat} (stepped : manager.runAsync position = some manager') :
    ∃ done status, (done, status) ∈ manager.asyncClosures ∧
      manager' = ({ manager with asyncClosures := manager.asyncClosures.eraseIdx position } :
        LogManager P D C).finish done status := by
  unfold LogManager.runAsync at stepped
  split at stepped
  · rename_i done status found
    exact ⟨done, status, List.mem_of_getElem? found, (Option.some.inj stepped).symm⟩
  · contradiction

theorem setSnapshot_applied {snapshot : SnapshotMeta P}
    (allowed : Allowed (.setSnapshot snapshot) manager)
    (stepped : manager.setSnapshot snapshot = some manager') :
    InOrder manager.appliedId manager'.appliedId := by
  by_cases newer : manager.lastSnapshotId.index < snapshot.lastIncludedIndex
  · have inOrder : InOrder manager.appliedId (manager.noteSnapshot snapshot).appliedId := by
      rcases noteSnapshot_applied (allowed.resolve_left (not_le.mpr newer)) with
        ⟨same, _⟩ | ⟨same, later⟩
      · exact Or.inl same.symm
      · rw [same]
        exact Or.inr later
    rcases setSnapshot_cases newer stepped with ⟨_, stepped⟩ | ⟨_, _, ⟨_, stepped⟩ | rfl⟩ |
      ⟨_, _, rfl⟩
    · obtain ⟨_, rfl⟩ := truncatePrefix_some stepped
      exact inOrder
    · obtain ⟨_, rfl⟩ := truncatePrefix_some stepped
      exact inOrder
    · exact inOrder
    · exact inOrder
  · obtain rfl := setSnapshot_stale newer stepped
    exact Or.inl rfl

omit [DecidableEq P] in
theorem clearBufferredLogs_opened (opened : manager.Opened)
    (stepped : manager.clearBufferredLogs = some manager') : manager'.Opened := by
  unfold LogManager.clearBufferredLogs at stepped
  split at stepped
  · obtain ⟨_, rfl⟩ := truncatePrefix_some stepped
    exact le_refl _
  · obtain rfl := Option.some.inj stepped
    exact opened

/-- Closures that are run without an error by `append_entries` itself have only
applied entries. -/
def AsyncApplied (manager : LogManager P D C) : Prop :=
  ∀ done, (done, 0) ∈ manager.asyncClosures →
    ∀ entry ∈ done.submitted, entry.id.index ≤ manager.appliedId.index

structure Booked (manager : LogManager P D C) : Prop where
  opened : manager.Opened
  clearing : ∀ id ∈ manager.clearing, id ≤ manager.appliedId
  async : manager.AsyncApplied

omit [DecidableEq P] in
theorem Booked.grow (booked : Booked manager) (first : manager'.firstLogIndex = manager.firstLogIndex)
    (snapshot : manager'.lastSnapshotId = manager.lastSnapshotId)
    (applied : InOrder manager.appliedId manager'.appliedId)
    (async : ∀ done, (done, 0) ∈ manager'.asyncClosures → (done, 0) ∈ manager.asyncClosures)
    (clearing : ∀ id ∈ manager'.clearing, id ∈ manager.clearing ∨ id ≤ manager'.appliedId) :
    Booked manager' := by
  constructor
  · have opened := booked.opened
    unfold Opened at opened ⊢
    rw [first, snapshot]
    exact opened
  · intro id member
    rcases clearing id member with former | new
    · exact (booked.clearing id former).trans applied.le
    · exact new
  · intro done member entry inside
    exact (booked.async done (async done member) entry inside).trans applied.index_le

omit [DecidableEq P] in
theorem Booked.of_frame (booked : Booked manager) (same : manager'.frame = manager.frame) :
    Booked manager' := by
  simp only [frame, Prod.mk.injEq] at same
  obtain ⟨first, snapshot, applied, async, _, clearing⟩ := same
  refine booked.grow first snapshot (Or.inl applied.symm) ?_ ?_
  · intro done member
    rwa [async] at member
  · intro id member
    rw [clearing] at member
    exact Or.inl member

/-- What a step keeps: the books, the order of the applied ids, and an error. -/
def StepsTo (manager manager' : LogManager P D C) : Prop :=
  Booked manager' ∧ InOrder manager.appliedId manager'.appliedId ∧
    (manager'.hasError = false → manager.hasError = false)

omit [DecidableEq P] in
theorem Booked.steps_of_frame (booked : Booked manager) (same : manager'.frame = manager.frame)
    (error : manager'.hasError = false → manager.hasError = false) : StepsTo manager manager' := by
  have applied : manager'.appliedId = manager.appliedId :=
    congrArg (fun frame => frame.2.2.1) same
  exact ⟨booked.of_frame same, Or.inl applied.symm, error⟩

omit [DecidableEq P] in
theorem Appendable.all_applied {entries : List (LogEntry P D)}
    (appendable : manager.Appendable entries) {back : LogEntry P D}
    (isBack : entries.getLast? = some back)
    (notLeader : ∀ front, entries.head? = some front → front.id.index ≠ 0)
    (backApplied : back.id.index ≤ manager.appliedId.index) {entry : LogEntry P D}
    (inside : entry ∈ entries) : entry.id.index ≤ manager.appliedId.index := by
  rcases appendable.indexes with leader | ⟨start, _, consecutive⟩
  · cases isFront : entries.head? with
    | none =>
        rw [List.head?_eq_none_iff.mp isFront] at inside
        contradiction
    | some front =>
        exact absurd (leader front (List.mem_of_mem_head? isFront)) (notLeader front isFront)
  · have backIndex := consecutive.back isBack
    obtain ⟨position, found⟩ := List.mem_iff_getElem?.mp inside
    have placed := consecutive position entry found
    have below : position < entries.length := (List.getElem?_eq_some_iff.mp found).1
    omega

theorem Booked.appendEntries (booked : Booked manager) {context : C}
    {entries : List (LogEntry P D)} {sees : Bool} (appendable : manager.Appendable entries)
    (stepped : manager.appendEntries context entries sees = some manager') :
    StepsTo manager manager' := by
  rcases appendEntries_cases stepped with ⟨status, rfl, applied⟩ | ⟨rfl, rfl⟩ |
    ⟨front, back, remaining, resolved, isFront, isBack, accepted, rfl⟩
  · refine ⟨⟨booked.opened, booked.clearing, ?_⟩, Or.inl rfl, id⟩
    intro done member entry inside
    rcases List.mem_append.mp member with former | new
    · exact booked.async done former entry inside
    · rw [List.mem_singleton, Prod.mk.injEq] at new
      obtain ⟨rfl, zero⟩ := new
      obtain ⟨back, isBack, notLeader, backApplied⟩ := applied zero.symm
      exact appendable.all_applied isBack notLeader backApplied inside
  · exact ⟨⟨booked.opened, booked.clearing, booked.async⟩, Or.inl rfl, id⟩
  · obtain ⟨same, _, applied, first, snapshot⟩ := resolve_books accepted
    simp only [books, Prod.mk.injEq] at same
    obtain ⟨error, clearing, async, _⟩ := same
    refine ⟨booked.grow first snapshot (Or.inl applied.symm) ?_ ?_, Or.inl applied.symm, ?_⟩
    · intro done member
      rwa [← async]
    · intro id member
      exact Or.inl (by rwa [← clearing])
    · intro works
      rwa [← error]

omit [DecidableEq P] in
theorem Booked.steps_of_books (booked : Booked manager) (opened : manager'.Opened)
    (same : manager'.books = manager.books)
    (inOrder : InOrder manager.appliedId manager'.appliedId) : StepsTo manager manager' := by
  simp only [books, Prod.mk.injEq] at same
  obtain ⟨error, clearing, async, _⟩ := same
  refine ⟨⟨opened, ?_, ?_⟩, inOrder, ?_⟩
  · intro id member
    rw [clearing] at member
    exact (booked.clearing id member).trans inOrder.le
  · intro done member entry inside
    rw [async] at member
    exact (booked.async done member entry inside).trans inOrder.index_le
  · intro works
    rwa [← error]

omit [DecidableEq P] in
theorem Booked.setAppliedId (booked : Booked manager) {appliedId : LogId}
    (allowed : Allowed (.setAppliedId appliedId : Action P D C) manager) :
    StepsTo manager (manager.setAppliedId appliedId) := by
  unfold LogManager.setAppliedId
  by_cases older : appliedId < manager.appliedId
  · rw [if_pos older]
    exact booked.steps_of_frame rfl id
  · rw [if_neg older]
    have inOrder : InOrder manager.appliedId appliedId := by
      rcases allowed with late | same | ⟨newer, terms, _⟩
      · exact absurd late older
      · exact Or.inl same.symm
      · exact Or.inr ⟨newer, terms⟩
    refine ⟨booked.grow rfl rfl inOrder (fun _ member => member) ?_, inOrder, id⟩
    intro id member
    rcases List.mem_append.mp member with former | new
    · exact Or.inl former
    · rw [List.mem_singleton.mp new]
      exact Or.inr (min_le_right _ _)

omit [DecidableEq P] in
theorem Booked.clearMemoryLogs (booked : Booked manager) {id : LogId}
    (stepped : manager.clearMemoryLogs id = some manager') : StepsTo manager manager' := by
  unfold LogManager.clearMemoryLogs at stepped
  split at stepped
  · obtain rfl := Option.some.inj stepped
    refine ⟨⟨booked.opened, ?_, booked.async⟩, Or.inl rfl, fun works => works⟩
    intro other member
    simp only at member
    split at member
    · exact booked.clearing other member
    · exact booked.clearing other (List.mem_of_mem_erase member)
  · contradiction

omit [DecidableEq P] in
theorem Booked.readEntry (booked : Booked manager) (index : Nat) :
    StepsTo manager (manager.readEntry index) := by
  have same : (manager.readEntry index).frame = manager.frame ∧
      ((manager.readEntry index).hasError = false → manager.hasError = false) := by
    unfold LogManager.readEntry
    split_ifs
    · exact ⟨rfl, id⟩
    · exact ⟨rfl, fun works => absurd works (by simp [reportError])⟩
    · exact ⟨rfl, id⟩
  exact booked.steps_of_frame same.1 same.2

omit [DecidableEq P] in
theorem Booked.diskFinish (booked : Booked manager)
    (stepped : manager.diskFinish = some manager') : StepsTo manager manager' := by
  obtain ⟨lastId, rfl⟩ := diskFinish_cases stepped
  unfold LogManager.setDiskId
  split
  · exact booked.steps_of_frame rfl id
  · refine ⟨⟨booked.opened, ?_, booked.async⟩, Or.inl rfl, fun works => works⟩
    intro id member
    rcases List.mem_append.mp member with former | new
    · exact booked.clearing id former
    · rw [List.mem_singleton.mp new]
      exact min_le_right _ _

theorem Booked.step (booked : Booked manager) (allowed : Allowed action manager)
    (stepped : LogManager.step action manager = some manager') :
    Booked manager' ∧ InOrder manager.appliedId manager'.appliedId ∧
      (manager'.hasError = false → manager.hasError = false) := by
  change StepsTo manager manager'
  cases action with
  | appendEntries context entries sees => exact booked.appendEntries allowed stepped
  | setSnapshot snapshot =>
      exact booked.steps_of_books (setSnapshot_opened stepped (Or.inl booked.opened))
        (setSnapshot_books stepped).1 (setSnapshot_applied allowed stepped)
  | clearBufferredLogs =>
      have ⟨same, _, applied⟩ := clearBufferredLogs_books stepped
      exact booked.steps_of_books (clearBufferredLogs_opened booked.opened stepped) same
        (Or.inl applied.symm)
  | setAppliedId appliedId => exact Option.some.inj stepped ▸ booked.setAppliedId allowed
  | clearMemoryLogs id => exact booked.clearMemoryLogs stepped
  | flushLastLogId ticket =>
      obtain rfl := Option.some.inj stepped
      have same : (manager.flushLastLogId ticket).frame = manager.frame ∧
          (manager.flushLastLogId ticket).hasError = manager.hasError := by
        unfold LogManager.flushLastLogId
        split <;> exact ⟨rfl, rfl⟩
      exact booked.steps_of_frame same.1 (fun works => same.2 ▸ works)
  | readEntry index => exact Option.some.inj stepped ▸ booked.readEntry index
  | diskStart =>
      simp only [LogManager.step, LogManager.diskStart] at stepped
      split at stepped
      · exact Option.some.inj stepped ▸ booked.steps_of_frame rfl id
      · contradiction
  | diskTake =>
      simp only [LogManager.step, LogManager.diskTake] at stepped
      split at stepped
      · exact Option.some.inj stepped ▸ booked.steps_of_frame rfl id
      · contradiction
  | diskEnd =>
      simp only [LogManager.step, LogManager.diskEnd] at stepped
      split at stepped
      · exact Option.some.inj stepped ▸ booked.steps_of_frame rfl id
      · contradiction
  | diskFlush limit =>
      obtain ⟨same, _, error⟩ := diskFlush_frame stepped
      exact booked.steps_of_frame same error
  | diskRun =>
      obtain ⟨_, _, _, _, _, same, error, _, _⟩ := diskRun_cases stepped
      exact booked.steps_of_frame same (fun works => error ▸ works)
  | diskTask outcome =>
      obtain ⟨same, error, _⟩ := diskTask_frame stepped
      exact booked.steps_of_frame same error
  | diskFinish => exact booked.diskFinish stepped
  | runAsync position =>
      obtain ⟨done, status, _, rfl⟩ := runAsync_cases stepped
      refine ⟨⟨booked.opened, booked.clearing, ?_⟩, Or.inl rfl, fun works => works⟩
      intro other member
      exact booked.async other (List.mem_of_mem_eraseIdx member)

end LogManager

end QuorumKit
