/-
Every step of a log manager keeps its log.

`Sound` adds to the log what the closures wait for: when a closure's task is done,
the storage has the entries that were submitted with it, or they are applied.
The steps are taken one by one, as long as no error is recorded.
-/

import QuorumKit.LogManager.ConflictResolution

namespace QuorumKit

variable {P D C : Type}

def Covered (applied : Nat) (storage : LogStorage P D) (done : StableClosure P D C) : Prop :=
  ∀ entry ∈ done.submitted, entry.id.index ≤ applied ∨
    storage.getEntry entry.id.index = some entry

theorem Covered.mono {former applied : Nat} (above : former ≤ applied)
    {storage : LogStorage P D} {done : StableClosure P D C}
    (covered : Covered former storage done) : Covered applied storage done := by
  intro entry member
  exact (covered entry member).imp_left (fun below => below.trans above)

theorem Covered.append {applied : Nat} {storage : LogStorage P D} {done : StableClosure P D C}
    (covered : Covered applied storage done) (entries : List (LogEntry P D)) :
    Covered applied (storage.append entries) done := by
  intro entry member
  exact (covered entry member).imp_right (fun found => IndexedLog.get?_append_kept entries found)

def DiskTask.Wanted (applied : Nat) (task : DiskTask P D C) (storage : LogStorage P D) : Prop :=
  match task with
  | .append done => Covered applied storage done
  | _ => True

theorem DiskTask.Wanted.mono {former applied : Nat} (above : former ≤ applied)
    (task : DiskTask P D C) (storage : LogStorage P D) (wanted : task.Wanted former storage) :
    task.Wanted applied storage := by
  cases task with
  | append done => exact Covered.mono above wanted
  | lastLogId ticket => trivial
  | truncatePrefix firstIndexKept => trivial
  | truncateSuffix lastIndexKept lastTermKept => trivial
  | reset nextLogIndex => trivial

namespace LogManager

/-- The manager stands for `log` and every closure gets what it waits for. -/
structure Sound (low : Nat) (manager : LogManager P D C) (log : LogStorage P D) : Prop
    extends Tracks low manager log where
  covered : Pending.Ensures DiskTask.apply (DiskTask.Wanted manager.appliedId.index)
    manager.storage manager.pending
  ready : ∀ thread, manager.diskThread = some thread → ∀ done ∈ thread.ready,
    Covered manager.appliedId.index manager.storage done

variable {low : Nat} {manager manager' : LogManager P D C} {log log' : LogStorage P D}

theorem Sound.mono {higher : Nat} (above : low ≤ higher) (sound : Sound low manager log) :
    Sound higher manager log :=
  { sound with toTracks := sound.toTracks.mono above }

theorem Sound.frame (sound : Sound low manager log) (tracks : Tracks low manager' log)
    (storage : manager'.storage = manager.storage) (pending : manager'.pending = manager.pending)
    (thread : manager'.diskThread = manager.diskThread)
    (applied : manager.appliedId.index ≤ manager'.appliedId.index) :
    Sound low manager' log := by
  refine { tracks with covered := ?_, ready := ?_ }
  · rw [storage, pending]
    exact sound.covered.mono (DiskTask.Wanted.mono applied)
  · rw [storage, thread]
    exact fun thread isThread done member =>
      (sound.ready thread isThread done member).mono applied

theorem Sound.queued (task : DiskTask P D C) (sound : Sound low manager log)
    (tracks : Tracks low manager' (task.apply log))
    (storage : manager'.storage = manager.storage)
    (pending : manager'.pending = manager.pending ++ [task])
    (thread : manager'.diskThread = manager.diskThread)
    (applied : manager.appliedId.index ≤ manager'.appliedId.index)
    (wanted : task.Wanted manager'.appliedId.index (task.apply log)) :
    Sound low manager' (task.apply log) := by
  refine { tracks with covered := ?_, ready := ?_ }
  · rw [storage, pending]
    exact (sound.covered.mono (DiskTask.Wanted.mono applied)).snoc sound.drains wanted
  · rw [storage, thread]
    exact fun thread isThread done member =>
      (sound.ready thread isThread done member).mono applied

theorem Tracks.unsafeTruncateSuffix {cut : Nat} (tracks : Tracks low manager log)
    (lower : log.first ≤ cut) (applied : manager.appliedId.index < cut) (upper : cut < log.stop)
    (stepped : manager.unsafeTruncateSuffix (cut - 1) = some manager') :
    Tracks low manager' (log.keepBelow cut) := by
  have positive := tracks.wellFormed.positive
  have back : cut - 1 + 1 = cut := by omega
  have holds := tracks.toHolds.unsafeTruncateSuffix (by omega) (by omega) stepped
  rw [back] at holds
  have snapshot := tracks.applied
  obtain ⟨_, lastTermKept, rfl⟩ := unsafeTruncateSuffix_some stepped
  constructor
  · exact holds
  · rw [IndexedLog.keepBelow_stop log lower (by omega)]
    exact lt_of_le_of_lt snapshot applied
  · intro entry above found
    rw [LogStorage.getEntry, IndexedLog.get?_keepBelow] at found
    split_ifs at found with kept
    exact tracks.snapshotTerm entry above found
  · exact tracks.virtualBelow
  · exact tracks.applied

theorem Tracks.enqueue [DecidableEq P] {entries : List (LogEntry P D)}
    (tracks : Tracks low manager log) (context : C) (submitted : List (LogEntry P D))
    (fits : log.Fits entries) {lastLogIndex : Nat}
    (last : lastLogIndex + 1 = log.stop + entries.length) :
    Tracks low
      (({ manager with lastLogIndex := lastLogIndex } : LogManager P D C).enqueue context
        submitted entries) (log.append entries) := by
  have inside := tracks.snapshotInside
  constructor
  · exact tracks.toHolds.enqueue context submitted fits last
  · rw [IndexedLog.append_stop]
    exact Nat.lt_add_right _ inside
  · intro entry above found
    rw [LogStorage.getEntry] at found
    have kept := IndexedLog.get?_append_of_lt entries inside
    exact tracks.snapshotTerm entry above (kept.symm.trans found)
  · exact tracks.virtualBelow
  · exact tracks.applied

theorem keepBelow_whole (log : LogStorage P D) : log.keepBelow log.stop = log := by
  cases log
  simp [IndexedLog.keepBelow, IndexedLog.stop]

theorem stored_of_fits {storage : LogStorage P D} {entries : List (LogEntry P D)}
    (fits : storage.Fits entries) {entry : LogEntry P D} (member : entry ∈ entries) :
    LogStorage.getEntry (storage.append entries) entry.id.index = some entry := by
  obtain ⟨position, found⟩ := List.mem_iff_getElem?.mp member
  have placed := (fits _ _ found).1
  rw [LogStorage.getEntry, IndexedLog.get?_append, if_neg (by omega), placed,
    Nat.add_sub_cancel_left]
  exact found

theorem Appends.stored {low : Nat} {applied : LogId} {log : LogStorage P D}
    {submitted remaining : List (LogEntry P D)} {cut : Nat}
    (appends : Appends low applied log submitted remaining cut) (lower : low ≤ applied.index + 1)
    (first : log.first ≤ applied.index + 1) {entry : LogEntry P D} (member : entry ∈ submitted)
    (behind : applied.index < entry.id.index) :
    LogStorage.getEntry ((log.keepBelow cut).append remaining) entry.id.index = some entry := by
  have stop := IndexedLog.keepBelow_stop log appends.lower appends.upper
  rcases appends.present entry member with remains | below | dropped | ⟨before, found⟩
  · exact stored_of_fits appends.fits remains
  · omega
  · omega
  · rw [LogStorage.getEntry, IndexedLog.get?_append_of_lt _ (by omega), IndexedLog.get?_keepBelow,
      if_pos before]
    exact found

theorem Sound.prepared {base resolved : LogManager P D C} {cut : Nat}
    {remaining : List (LogEntry P D)} (sound : Sound low manager log)
    (prepared : Prepared manager base resolved log cut remaining) (lower : log.first ≤ cut) :
    Sound low base (log.keepBelow cut) ∧ base.appliedId = manager.appliedId ∧
      base.accepted = manager.accepted ∧ base.clearing = manager.clearing ∧
      base.asyncClosures = manager.asyncClosures ∧ base.finished = manager.finished := by
  rcases prepared.2 with ⟨rfl, rfl⟩ | ⟨truncated, applied, upper⟩
  · rw [keepBelow_whole]
    exact ⟨sound, rfl, rfl, rfl, rfl, rfl⟩
  · have tracks := sound.toTracks.unsafeTruncateSuffix lower applied upper truncated
    obtain ⟨_, lastTermKept, rfl⟩ := unsafeTruncateSuffix_some truncated
    have back : cut - 1 + 1 = cut := by omega
    have isApply : log.keepBelow cut =
        (DiskTask.truncateSuffix (cut - 1) lastTermKept : DiskTask P D C).apply log := by
      rw [DiskTask.apply, LogStorage.truncateSuffix, back]
    rw [isApply] at tracks ⊢
    exact ⟨sound.queued _ tracks rfl (pending_execute _ _) rfl (le_refl _) trivial,
      rfl, rfl, rfl, rfl, rfl⟩

theorem Sound.appended [DecidableEq P] {base resolved : LogManager P D C} {cut : Nat}
    {submitted remaining : List (LogEntry P D)} (sound : Sound low manager log)
    (opened : manager.Opened) (lowApplied : low ≤ manager.appliedId.index + 1)
    (prepared : Prepared manager base resolved log cut remaining)
    (appends : Appends low manager.appliedId log submitted remaining cut) (context : C) :
    Sound low (resolved.enqueue context submitted remaining)
      ((log.keepBelow cut).append remaining) := by
  have positive := sound.wellFormed.positive
  have lower := appends.lower
  obtain ⟨baseSound, applied, _⟩ := sound.prepared prepared lower
  have stop := IndexedLog.keepBelow_stop log lower appends.upper
  have isResolved := prepared.1
  subst isResolved
  have tracks := baseSound.toTracks.enqueue context submitted appends.fits
    (show cut + remaining.length - 1 + 1 = (log.keepBelow cut).stop + remaining.length by
      rw [stop]; omega)
  refine baseSound.queued (.append (.queued context submitted remaining)) tracks rfl
    (pending_execute _ _) rfl (le_refl _) ?_
  intro entry member
  change entry.id.index ≤ base.appliedId.index ∨ _
  rw [applied]
  have window : manager.firstLogIndex ≤ manager.lastSnapshotId.index + 1 := opened
  have first := sound.first
  have snapshot := sound.applied
  by_cases atMost : entry.id.index ≤ manager.appliedId.index
  · exact Or.inl atMost
  · exact Or.inr (appends.stored lowApplied (by omega) member (not_le.mp atMost))

def InOrder (former later : LogId) : Prop :=
  former = later ∨ (former.index < later.index ∧ former.term ≤ later.term)

theorem InOrder.index_le {former later : LogId} (inOrder : InOrder former later) :
    former.index ≤ later.index := by
  rcases inOrder with rfl | ⟨below, _⟩
  · exact le_refl _
  · exact below.le

theorem InOrder.trans {former middle later : LogId} (first : InOrder former middle)
    (second : InOrder middle later) : InOrder former later := by
  rcases first with rfl | ⟨below, terms⟩
  · exact second
  · rcases second with rfl | ⟨above, termsAbove⟩
    · exact Or.inr ⟨below, terms⟩
    · exact Or.inr ⟨below.trans above, terms.trans termsAbove⟩

theorem InOrder.le {former later : LogId} (inOrder : InOrder former later) :
    former ≤ later := by
  rcases inOrder with rfl | ⟨below, terms⟩
  · exact le_refl _
  · rw [LogId.le_iff]
    omega

theorem noteSnapshot_applied [DecidableEq P] {snapshot : SnapshotMeta P}
    (ordered : InOrder manager.appliedId snapshot.id ∨ InOrder snapshot.id manager.appliedId) :
    ((manager.noteSnapshot snapshot).appliedId = manager.appliedId ∧
        snapshot.lastIncludedIndex ≤ manager.appliedId.index) ∨
      ((manager.noteSnapshot snapshot).appliedId = snapshot.id ∧
        manager.appliedId.index < snapshot.lastIncludedIndex ∧
        manager.appliedId.term ≤ snapshot.lastIncludedTerm) := by
  unfold noteSnapshot
  by_cases newer : manager.appliedId < snapshot.id
  · simp only [newer, if_true]
    rcases ordered with (same | later) | earlier
    · exact absurd same newer.ne
    · exact Or.inr ⟨trivial, later⟩
    · exact absurd newer (not_lt.mpr earlier.le)
  · simp only [newer, if_false]
    rcases ordered with later | earlier
    · have same : manager.appliedId = snapshot.id := le_antisymm later.le (not_lt.mp newer)
      exact Or.inl ⟨trivial, le_of_eq (congrArg LogId.index same.symm)⟩
    · exact Or.inl ⟨trivial, earlier.index_le⟩

def NotOlder (applied : LogId) (log : LogStorage P D) : Prop :=
  ∀ index entry, log.getEntry index = some entry → applied.index < index →
    applied.term ≤ entry.id.term

/-- A new applied id is that of an entry of the log, or nothing above it is older. -/
def Anchored (log log' : LogStorage P D) (former applied : LogId) : Prop :=
  applied = former ∨ InOrder former applied ∧
    (NotOlder applied log' ∨
      ∃ entry, log.getEntry applied.index = some entry ∧ entry.id.term = applied.term)

theorem Anchored.inOrder {former applied : LogId} (anchored : Anchored log log' former applied) :
    InOrder former applied := by
  rcases anchored with same | ⟨inOrder, _⟩
  · exact Or.inl same.symm
  · exact inOrder

theorem notOlder_of_stop {applied : LogId} (ends : log.stop ≤ applied.index + 1) :
    NotOlder applied log := by
  intro index entry found above
  have inside := (IndexedLog.get?_bounds found).2
  omega

inductive Compacts (log : LogStorage P D) : LogStorage P D → Prop
  | kept : Compacts log log
  | dropped (firstIndexKept : Nat) (lower : log.first ≤ firstIndexKept) :
      Compacts log (log.dropBelow firstIndexKept)
  | emptied (nextLogIndex : Nat) : Compacts log (LogStorage.reset nextLogIndex)

theorem Compacts.getEntry (compacts : Compacts log log') {index : Nat} {entry : LogEntry P D}
    (found : log'.getEntry index = some entry) : log.getEntry index = some entry := by
  cases compacts with
  | kept => exact found
  | dropped firstIndexKept lower =>
      rw [LogStorage.getEntry, IndexedLog.get?_dropBelow lower] at found
      split_ifs at found
      exact found
  | emptied nextLogIndex =>
      have bounds := IndexedLog.get?_bounds found
      simp only [LogStorage.reset, IndexedLog.stop, List.length_nil] at bounds
      omega

theorem Sound.truncatePrefix {firstIndexKept : Nat} {noted : LogManager P D C}
    (sound : Sound low manager log)
    (stepped : noted.truncatePrefix firstIndexKept = some manager')
    (core : noted.core = manager.core) (thread : noted.diskThread = manager.diskThread)
    (applied : manager.appliedId.index ≤ noted.appliedId.index)
    (inside : noted.lastSnapshotId.index < max firstIndexKept log.stop)
    (term : ∀ entry, low ≤ noted.lastSnapshotId.index →
      firstIndexKept ≤ noted.lastSnapshotId.index →
      log.getEntry noted.lastSnapshotId.index = some entry →
      entry.id.term = noted.lastSnapshotId.term)
    (virtualBelow : noted.virtualFirstLogId.index < firstIndexKept)
    (snapshotApplied : noted.lastSnapshotId.index ≤ noted.appliedId.index) :
    log.first ≤ firstIndexKept ∧ Sound low manager' (log.dropBelow firstIndexKept) := by
  have notedHolds := sound.toHolds.frame core
  have holds := notedHolds.truncatePrefix stepped
  obtain ⟨lower, rfl⟩ := truncatePrefix_some stepped
  rw [notedHolds.first] at lower
  simp only [LogManager.core, Prod.mk.injEq] at core
  have tracks : Tracks low _ (log.dropBelow firstIndexKept) :=
    { holds with
      snapshotInside := by
        rw [IndexedLog.dropBelow_stop log lower]
        exact inside
      snapshotTerm := by
        intro entry above found
        change (log.dropBelow firstIndexKept).get? noted.lastSnapshotId.index = some entry at found
        rw [IndexedLog.get?_dropBelow lower] at found
        by_cases dropped : noted.lastSnapshotId.index < firstIndexKept
        · rw [if_pos dropped] at found
          contradiction
        · rw [if_neg dropped] at found
          exact term entry above (not_lt.mp dropped) found
      virtualBelow := virtualBelow
      applied := snapshotApplied }
  refine ⟨lower, sound.queued (.truncatePrefix firstIndexKept) tracks ?_ ?_ thread applied trivial⟩
  · exact core.2.2.2.2.1
  · rw [pending_execute, ← core.2.2.2.2.2]
    rfl

theorem Sound.setSnapshot [DecidableEq P] {snapshot : SnapshotMeta P}
    (sound : Sound low manager log) (lowApplied : low ≤ manager.appliedId.index + 1)
    (opened : manager.Opened ∨ NotOlder snapshot.id log)
    (ordered : snapshot.lastIncludedIndex ≤ manager.lastSnapshotId.index ∨
      InOrder manager.appliedId snapshot.id ∨ InOrder snapshot.id manager.appliedId)
    (stepped : manager.setSnapshot snapshot = some manager') :
    ∃ log', Compacts log log' ∧ Sound low manager' log' ∧
      Anchored log log' manager.appliedId manager'.appliedId := by
  by_cases newer : manager.lastSnapshotId.index < snapshot.lastIncludedIndex
  · have applied := noteSnapshot_applied (ordered.resolve_left (not_le.mpr newer))
    have inOrder : InOrder manager.appliedId (manager.noteSnapshot snapshot).appliedId := by
      rcases applied with ⟨same, _⟩ | ⟨same, later⟩
      · exact Or.inl same.symm
      · rw [same]
        exact Or.inr later
    have covers : snapshot.lastIncludedIndex ≤ (manager.noteSnapshot snapshot).appliedId.index := by
      rcases applied with ⟨same, below⟩ | ⟨same, _⟩
      · rw [same]
        exact below
      · rw [same]
        exact le_refl _
    have first := sound.first
    have anchor {log' : LogStorage P D} (compacts : Compacts log log')
        (above : log.first ≤ snapshot.lastIncludedIndex →
          manager.appliedId.index < snapshot.lastIncludedIndex →
          log'.stop ≤ snapshot.lastIncludedIndex + 1 ∨
            ∃ entry, log.getEntry snapshot.lastIncludedIndex = some entry ∧
              entry.id.term = snapshot.lastIncludedTerm) :
        Anchored log log' manager.appliedId (manager.noteSnapshot snapshot).appliedId := by
      rcases applied with ⟨same, _⟩ | ⟨same, later⟩
      · exact Or.inl same
      · refine Or.inr ⟨inOrder, ?_⟩
        rw [same]
        rcases opened with window | notOlder
        · have window : manager.firstLogIndex ≤ manager.lastSnapshotId.index + 1 := window
          exact (above (by omega) later.1).imp_left notOlder_of_stop
        · exact Or.inl (fun index entry found => notOlder index entry (compacts.getEntry found))
    have found (same : manager.getTerm snapshot.lastIncludedIndex = snapshot.lastIncludedTerm)
        (inside : snapshot.lastIncludedIndex < log.stop)
        (above : log.first ≤ snapshot.lastIncludedIndex)
        (newer : manager.appliedId.index < snapshot.lastIncludedIndex) :
        ∃ entry, log.getEntry snapshot.lastIncludedIndex = some entry ∧
          entry.id.term = snapshot.lastIncludedTerm := by
      obtain ⟨entry, isEntry⟩ := IndexedLog.exists_get? above inside
      exact ⟨entry, isEntry, (sound.toTracks.getTerm_eq (by omega) isEntry).symm.trans same⟩
    rcases setSnapshot_cases newer stepped with ⟨_, stepped⟩ |
      ⟨missing, same, ⟨_, stepped⟩ | rfl⟩ | ⟨_, _, rfl⟩
    · -- the snapshot is not in the log, or right before it
      obtain ⟨lower, after⟩ := sound.truncatePrefix stepped rfl rfl inOrder.index_le
        (lt_of_lt_of_le (Nat.lt_succ_self _) (le_max_left _ _))
        (fun _ _ inside _ => absurd inside (Nat.not_succ_le_self _))
        (Nat.lt_succ_self _) covers
      obtain ⟨_, rfl⟩ := truncatePrefix_some stepped
      refine ⟨_, .dropped _ lower, after, anchor (.dropped _ lower) (fun inside newer => Or.inl ?_)⟩
      rw [IndexedLog.dropBelow_stop log lower]
      by_contra above
      obtain ⟨entry, found⟩ := IndexedLog.exists_get? inside
        (show snapshot.lastIncludedIndex < log.stop by omega)
      have read := sound.toTracks.getTerm_eq (by omega) found
      have positive := (sound.wellFormed.indexed _ _ found).2
      omega
    · have inside := sound.toTracks.lt_stop_of_getTerm missing
      obtain ⟨lower, after⟩ := sound.truncatePrefix stepped rfl rfl inOrder.index_le
        (lt_of_lt_of_le inside (le_max_right _ _))
        (fun entry above _ found => (sound.toTracks.getTerm_eq above found).symm.trans same)
        (Nat.lt_succ_self _) covers
      obtain ⟨_, rfl⟩ := truncatePrefix_some stepped
      exact ⟨_, .dropped _ lower, after,
        anchor (.dropped _ lower) (fun above newer => Or.inr (found same inside above newer))⟩
    · have inside := sound.toTracks.lt_stop_of_getTerm missing
      refine ⟨log, .kept, sound.frame ?_ rfl rfl rfl inOrder.index_le,
        anchor .kept (fun above newer => Or.inr (found same inside above newer))⟩
      exact
        { sound.toHolds.frame rfl with
          snapshotInside := inside
          snapshotTerm := fun entry above found =>
            (sound.toTracks.getTerm_eq above found).symm.trans same
          virtualBelow := sound.virtualBelow
          applied := covers }
    · -- a conflict with the snapshot
      have holds := sound.toHolds.reset (Nat.succ_pos snapshot.lastIncludedIndex)
      refine ⟨_, .emptied (snapshot.lastIncludedIndex + 1),
        sound.queued (.reset (snapshot.lastIncludedIndex + 1)) ?_ rfl (pending_execute _ _) rfl
          inOrder.index_le trivial, anchor (.emptied _) (fun _ _ => Or.inl ?_)⟩
      · exact
        { holds.frame rfl with
          snapshotInside := by
            simp [LogManager.reset, execute, noteSnapshot, SnapshotMeta.id, DiskTask.apply,
              LogStorage.reset, IndexedLog.stop]
          snapshotTerm := by
            intro entry _ found
            have bounds := IndexedLog.get?_bounds found
            simp [DiskTask.apply, LogStorage.reset, IndexedLog.stop] at bounds
            omega
          virtualBelow := Nat.lt_succ_self _
          applied := covers }
      · simp [LogStorage.reset, IndexedLog.stop]
  · obtain rfl := setSnapshot_stale newer stepped
    exact ⟨log, .kept, sound, Or.inl rfl⟩

theorem Sound.clearBufferredLogs (sound : Sound low manager log)
    (stepped : manager.clearBufferredLogs = some manager') :
    ∃ log', Compacts log log' ∧ Sound low manager' log' ∧
      manager'.appliedId = manager.appliedId := by
  unfold LogManager.clearBufferredLogs at stepped
  by_cases hasSnapshot : manager.lastSnapshotId.index ≠ 0
  · rw [if_pos hasSnapshot] at stepped
    obtain ⟨lower, after⟩ := sound.truncatePrefix stepped rfl rfl (le_refl _)
      (lt_of_lt_of_le sound.snapshotInside (le_max_right _ _))
      (fun entry above _ found => sound.snapshotTerm entry above found)
      (Nat.lt_succ_self _) sound.applied
    obtain ⟨_, rfl⟩ := truncatePrefix_some stepped
    exact ⟨_, .dropped _ lower, after, rfl⟩
  · rw [if_neg hasSnapshot] at stepped
    obtain rfl := Option.some.inj stepped
    exact ⟨log, .kept, sound, rfl⟩

end LogManager

end QuorumKit
