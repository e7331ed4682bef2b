/-
Saving a snapshot: what `close` leaves in the storage, and when
`on_snapshot_save_done` advances only over a snapshot that can be opened.

`close` reports nothing but `EIO`.  A meta file that cannot be written is
reported as `-1` and an existing index as `EEXIST`, so both pass for success.
-/

import Mathlib.Tactic.Set
import QuorumKit.Snapshot.SnapshotExecutor

namespace QuorumKit

variable {P : Type}

namespace SnapshotFs

theorem calls_frame (count : Nat) : ∀ fs : SnapshotFs P,
    (fs.calls count).2.snapshots = fs.snapshots ∧ (fs.calls count).2.temp = fs.temp ∧
      (fs.calls count).2.faults = fs.faults := by
  induction count with
  | zero => exact fun fs => ⟨rfl, rfl, rfl⟩
  | succ count ih =>
      intro fs
      unfold calls
      rcases call : fs.call with ⟨worked, after⟩
      have afterEq : after = fs.tick := by
        simp only [SnapshotFs.call, Prod.mk.injEq] at call
        exact call.2.symm
      subst afterEq
      cases worked with
      | true => exact ih fs.tick
      | false => exact ⟨rfl, rfl, rfl⟩

theorem calls_works (count : Nat) : ∀ fs : SnapshotFs P,
    fs.Works count → fs.calls count = (true, { fs with clock := fs.clock + count }) := by
  induction count with
  | zero => exact fun fs _ => rfl
  | succ count ih =>
      intro fs works
      have first := works 0 (by omega)
      have later : fs.tick.Works count := by
        intro step below
        have next := works (step + 1) (by omega)
        simpa [tick, Nat.add_assoc, Nat.add_comm 1 step] using next
      simp only [calls, call, Nat.add_zero] at first ⊢
      simp only [first, Option.isNone_none]
      rw [ih fs.tick later]
      simp [tick, Nat.add_assoc, Nat.add_comm 1 count]

theorem calls_fails (count : Nat) : ∀ fs : SnapshotFs P,
    ¬ fs.Works count → (fs.calls count).1 = false := by
  induction count with
  | zero =>
      intro fs fails
      exact absurd (fun step below => absurd below (Nat.not_lt_zero _)) fails
  | succ count ih =>
      intro fs fails
      unfold calls call
      cases first : fs.faults fs.clock with
      | some fault => rfl
      | none =>
          refine ih fs.tick (fun later => fails ?_)
          intro step below
          cases step with
          | zero => exact first
          | succ step =>
              have next := later step (by omega)
              simpa [tick, Nat.add_assoc, Nat.add_comm 1 step] using next

theorem works_add_two {fs : SnapshotFs P} {count : Nat} (works : fs.Works count) :
    fs.Works (count + 2) ↔
      fs.faults (fs.clock + count) = none ∧ fs.faults (fs.clock + count + 1) = none := by
  constructor
  · intro all
    exact ⟨all count (by omega), all (count + 1) (by omega)⟩
  · rintro ⟨first, second⟩ step below
    by_cases early : step < count
    · exact works step early
    · by_cases isFirst : step = count
      · rw [isFirst]
        exact first
      · rw [show step = count + 1 by omega, ← Nat.add_assoc]
        exact second

theorem saveMetaFile_frame (fs : SnapshotFs P) (raftSyncMeta : Bool) (table : MetaTable P) :
    (fs.saveMetaFile raftSyncMeta table).2.snapshots = fs.snapshots ∧
      (fs.saveMetaFile raftSyncMeta table).2.faults = fs.faults := by
  unfold saveMetaFile
  cases fs.temp with
  | none => exact ⟨rfl, rfl⟩
  | some dir =>
      have frame := calls_frame (saveCalls raftSyncMeta) fs
      rcases result : fs.calls (saveCalls raftSyncMeta) with ⟨worked, after⟩
      rw [result] at frame
      cases worked with
      | true => simpa only [result] using ⟨frame.1, frame.2.2⟩
      | false => simpa only [result] using ⟨frame.1, frame.2.2⟩

theorem saveMetaFile_works {fs : SnapshotFs P} {raftSyncMeta : Bool} {dir : SnapshotDir P}
    (table : MetaTable P) (temp : fs.temp = some dir)
    (works : fs.Works (saveCalls raftSyncMeta)) :
    fs.saveMetaFile raftSyncMeta table =
      (0,
        { fs with
          clock := fs.clock + saveCalls raftSyncMeta
          temp := some { dir with metaFile := some table } }) := by
  unfold saveMetaFile
  rw [temp]
  simp only [calls_works _ fs works]

theorem saveMetaFile_fails {fs : SnapshotFs P} {raftSyncMeta : Bool} (table : MetaTable P)
    (fails : ¬ (fs.temp.isSome ∧ fs.Works (saveCalls raftSyncMeta))) :
    (fs.saveMetaFile raftSyncMeta table).1 = -1 := by
  unfold saveMetaFile
  cases temp : fs.temp with
  | none => rfl
  | some dir =>
      have stops := calls_fails _ fs (fun works => fails ⟨by simp [temp], works⟩)
      rcases result : fs.calls (saveCalls raftSyncMeta) with ⟨worked, after⟩
      rw [result] at stops
      simp only at stops
      subst stops
      rfl

theorem lookup_erase_same (index : Nat) (snapshots : List (Nat × SnapshotDir P)) :
    (snapshots.filter (fun entry => entry.1 ≠ index)).lookup index = none := by
  induction snapshots with
  | nil => rfl
  | cons head rest ih =>
      by_cases same : head.1 = index
      · rw [List.filter_cons_of_neg (by simp [same])]
        exact ih
      · have skip : (index == head.1) = false := by
          simpa using fun equal : index = head.1 => same equal.symm
        rw [List.filter_cons_of_pos (by simpa using same)]
        rcases head with ⟨key, value⟩
        rw [List.lookup_cons, skip]
        exact ih

theorem lookup_erase_other {index other : Nat} (differs : other ≠ index)
    (snapshots : List (Nat × SnapshotDir P)) :
    (snapshots.filter (fun entry => entry.1 ≠ index)).lookup other =
      snapshots.lookup other := by
  induction snapshots with
  | nil => rfl
  | cons head rest ih =>
      rcases head with ⟨key, value⟩
      by_cases same : key = index
      · have skip : (other == key) = false := by
          rw [same]
          simpa using differs
        rw [List.filter_cons_of_neg (by simp [same]), List.lookup_cons, skip]
        exact ih
      · rw [List.filter_cons_of_pos (by simpa using same), List.lookup_cons, List.lookup_cons, ih]

theorem deleteSnapshot_works {fs : SnapshotFs P} (works : fs.faults fs.clock = none)
    (index : Nat) :
    fs.deleteSnapshot index = (true, { fs.tick with snapshots := fs.eraseSnapshot index }) := by
  simp [deleteSnapshot, works]

theorem deleteSnapshot_fails {fs : SnapshotFs P} (broken : fs.faults fs.clock ≠ none)
    (index : Nat) : (fs.deleteSnapshot index).1 = false := by
  unfold deleteSnapshot
  cases found : fs.faults fs.clock with
  | none => exact absurd found broken
  | some fault => cases fault <;> rfl

theorem deleteSnapshot_other {index other : Nat} (differs : other ≠ index)
    (fs : SnapshotFs P) : (fs.deleteSnapshot index).2.lookup other = fs.lookup other := by
  simp only [deleteSnapshot, lookup]
  cases fs.faults fs.clock with
  | none => exact lookup_erase_other differs _
  | some fault =>
      cases fault with
      | untouched => rfl
      | destroyed =>
          simp only
          induction fs.snapshots with
          | nil => rfl
          | cons head rest ih =>
              rcases head with ⟨key, value⟩
              by_cases same : key = index
              · have skip : (other == index) = false := by simpa using differs
                subst same
                simp only [List.map_cons, if_true, List.lookup_cons, skip]
                exact ih
              · simp only [List.map_cons, same, if_false, List.lookup_cons, ih]

theorem deleteSnapshot_deleted {fs : SnapshotFs P} {index : Nat}
    (deleted : (fs.deleteSnapshot index).1 = true) :
    (fs.deleteSnapshot index).2.lookup index = none := by
  unfold deleteSnapshot at deleted ⊢
  cases found : fs.faults fs.clock with
  | none => exact lookup_erase_same index fs.snapshots
  | some fault =>
      rw [found] at deleted
      cases fault <;> contradiction

theorem renameTemp_works {fs : SnapshotFs P} {dir : SnapshotDir P} {index : Nat}
    (works : fs.faults fs.clock = none) (temp : fs.temp = some dir)
    (free : fs.lookup index = none) :
    fs.renameTemp index =
      (true, { fs.tick with temp := none, snapshots := (index, dir) :: fs.snapshots }) := by
  simp [renameTemp, call, works, temp, free]

theorem renameTemp_snapshots (fs : SnapshotFs P) (index : Nat) :
    ((fs.renameTemp index).1 = false ∧ (fs.renameTemp index).2.snapshots = fs.snapshots) ∨
      ∃ dir, (fs.renameTemp index).2.snapshots = (index, dir) :: fs.snapshots := by
  unfold renameTemp call
  cases fs.faults fs.clock with
  | some fault => exact Or.inl ⟨rfl, rfl⟩
  | none =>
      cases fs.temp with
      | none => exact Or.inl ⟨rfl, rfl⟩
      | some dir =>
          simp only [Option.isNone_none]
          cases fs.lookup index with
          | none => exact Or.inr ⟨dir, rfl⟩
          | some taken => exact Or.inl ⟨rfl, rfl⟩

theorem renameTemp_fails {fs : SnapshotFs P} (broken : fs.faults fs.clock ≠ none)
    (index : Nat) : (fs.renameTemp index).1 = false := by
  unfold renameTemp call
  cases found : fs.faults fs.clock with
  | none => exact absurd found broken
  | some fault => rfl

end SnapshotFs

namespace SnapshotWriter

theorem sync_works (writer : SnapshotWriter P) {fs : SnapshotFs P} {raftSyncMeta : Bool}
    {dir : SnapshotDir P} (temp : fs.temp = some dir)
    (works : fs.Works (SnapshotFs.saveCalls raftSyncMeta)) :
    writer.sync raftSyncMeta fs =
      (0, writer,
        { fs with
          clock := fs.clock + SnapshotFs.saveCalls raftSyncMeta
          temp := some { dir with metaFile := some writer.metaTable } }) := by
  unfold sync
  rw [SnapshotFs.saveMetaFile_works _ temp works]
  simp

theorem sync_fails {writer : SnapshotWriter P} (ok : writer.errorCode = 0) {fs : SnapshotFs P}
    {raftSyncMeta : Bool}
    (fails : ¬ (fs.temp.isSome ∧ fs.Works (SnapshotFs.saveCalls raftSyncMeta))) :
    ∃ after, writer.sync raftSyncMeta fs = (-1, writer.setError (-1), after) ∧
      after.snapshots = fs.snapshots ∧ after.faults = fs.faults := by
  have frame := fs.saveMetaFile_frame raftSyncMeta writer.metaTable
  have rc := SnapshotFs.saveMetaFile_fails writer.metaTable fails
  rcases saved : fs.saveMetaFile raftSyncMeta writer.metaTable with ⟨code, after⟩
  rw [saved] at rc frame
  simp only at rc frame
  subst rc
  refine ⟨after, ?_, frame.1, frame.2⟩
  unfold sync
  simp [saved, SnapshotWriter.ok, ok]

end SnapshotWriter

namespace SnapshotStorage

/-- The snapshot that `open` finds when all its reads work. -/
def openable (storage : SnapshotStorage P) : Option (SnapshotMeta P) :=
  let storage := { storage with fs := { storage.fs with faults := fun _ => none } }
  storage.openReader.1.bind SnapshotReader.loadMeta

theorem openable_eq (storage : SnapshotStorage P) :
    storage.openable =
      if storage.lastSnapshotIndex = 0 then none
      else ((storage.fs.lookup storage.lastSnapshotIndex).bind SnapshotDir.metaFile).bind
        MetaTable.snapshotMeta := by
  unfold openable openReader
  simp only
  split
  · rfl
  · simp only [ref, SnapshotFs.lookup]
    cases storage.fs.snapshots.lookup storage.lastSnapshotIndex with
    | none => rfl
    | some dir =>
        simp only [SnapshotFs.loadMetaFile, Option.bind_some]
        cases dir.metaFile with
        | none => rfl
        | some table =>
            rw [SnapshotFs.calls_works 3 _ (fun _ _ => rfl)]
            rfl

/-- What decides whether `close` gets as far as the rename: no earlier error, a
meta file that can be written, and a new index. -/
def Commits (storage : SnapshotStorage P) (writer : SnapshotWriter P) : Prop :=
  writer.errorCode = 0 ∧
    (storage.fs.temp.isSome ∧
      storage.fs.Works (SnapshotFs.saveCalls storage.raftSyncMeta)) ∧
    writer.snapshotIndex ≠ storage.lastSnapshotIndex

instance (storage : SnapshotStorage P) (writer : SnapshotWriter P) :
    Decidable (storage.Commits writer) := by
  unfold Commits; infer_instance

/-- A writer that does not commit changes no snapshot; only its own `EIO` is
kept. -/
theorem commitWriter_skipped {storage : SnapshotStorage P} {writer : SnapshotWriter P}
    (skipped : ¬ storage.Commits writer) :
    (storage.commitWriter writer).1 ≠ 0 ∧
      ((storage.commitWriter writer).1 = EIO ↔ writer.errorCode = EIO) ∧
      (storage.commitWriter writer).2.lastSnapshotIndex = storage.lastSnapshotIndex ∧
      (storage.commitWriter writer).2.fs.snapshots = storage.fs.snapshots := by
  by_cases failed : writer.errorCode = 0
  · have notEio : writer.errorCode = EIO ↔ False := by
      rw [failed]
      decide
    by_cases written : storage.fs.temp.isSome ∧
        storage.fs.Works (SnapshotFs.saveCalls storage.raftSyncMeta)
    · have sameIndex : writer.snapshotIndex = storage.lastSnapshotIndex := by
        by_contra differs
        exact skipped ⟨failed, written, differs⟩
      obtain ⟨dir, temp⟩ := Option.isSome_iff_exists.mp written.1
      have result : (storage.commitWriter writer).1 = EEXIST ∧
          (storage.commitWriter writer).2.lastSnapshotIndex = storage.lastSnapshotIndex ∧
          (storage.commitWriter writer).2.fs.snapshots = storage.fs.snapshots := by
        unfold commitWriter
        rw [if_neg (by simp [failed]), writer.sync_works temp written.2]
        simp [sameIndex]
      rw [result.1, notEio]
      exact ⟨by decide, by decide, result.2⟩
    · obtain ⟨after, saved, sameSnapshots, _⟩ := SnapshotWriter.sync_fails failed written
      have result : storage.commitWriter writer = (-1, { storage with fs := after }) := by
        unfold commitWriter
        rw [if_neg (by simp [failed]), saved]
        simp
      rw [result, notEio]
      exact ⟨(by decide : (-1 : Int) ≠ 0), (by decide : (-1 : Int) = EIO ↔ False), rfl,
        sameSnapshots⟩
  · have result : storage.commitWriter writer = (writer.errorCode, storage) := by
      unfold commitWriter
      rw [if_pos failed]
    rw [result]
    exact ⟨failed, Iff.rfl, rfl, rfl⟩

theorem unref_lookup {storage : SnapshotStorage P} {index other : Nat}
    (differs : other ≠ index) :
    (storage.unref index).fs.lookup other = storage.fs.lookup other ∧
      (storage.unref index).lastSnapshotIndex = storage.lastSnapshotIndex := by
  unfold unref
  cases storage.refMap.lookup index with
  | none => exact ⟨rfl, rfl⟩
  | some count =>
      simp only
      split
      · exact ⟨SnapshotFs.deleteSnapshot_other differs storage.fs, rfl⟩
      · exact ⟨rfl, rfl⟩

theorem commitWriter_commits {storage : SnapshotStorage P} {writer : SnapshotWriter P}
    (commits : storage.Commits writer) :
    (storage.fs.Works (SnapshotFs.saveCalls storage.raftSyncMeta + 2) →
      (storage.commitWriter writer).1 = 0 ∧
        (storage.commitWriter writer).2.lastSnapshotIndex = writer.snapshotIndex ∧
        ((storage.commitWriter writer).2.fs.lookup writer.snapshotIndex).bind
          SnapshotDir.metaFile = some writer.metaTable) ∧
    (¬ storage.fs.Works (SnapshotFs.saveCalls storage.raftSyncMeta + 2) →
      (storage.commitWriter writer).1 = EIO) := by
  obtain ⟨ok, ⟨hasTemp, works⟩, newIndex⟩ := commits
  obtain ⟨dir, temp⟩ := Option.isSome_iff_exists.mp hasTemp
  rw [SnapshotFs.works_add_two works]
  unfold commitWriter
  rw [if_neg (by simp [ok]), writer.sync_works temp works]
  simp only [ne_eq, not_true_eq_false, if_false, newIndex]
  set synced : SnapshotFs P := { storage.fs with
    clock := storage.fs.clock + SnapshotFs.saveCalls storage.raftSyncMeta
    temp := some { dir with metaFile := some writer.metaTable } } with syncedEq
  by_cases deleteWorks : synced.faults synced.clock = none
  · rw [SnapshotFs.deleteSnapshot_works deleteWorks]
    simp only
    set deleted : SnapshotFs P :=
      { synced.tick with snapshots := synced.eraseSnapshot writer.snapshotIndex } with deletedEq
    by_cases renameWorks : deleted.faults deleted.clock = none
    · have free : deleted.lookup writer.snapshotIndex = none :=
        SnapshotFs.lookup_erase_same writer.snapshotIndex synced.snapshots
      have temp : deleted.temp = some { dir with metaFile := some writer.metaTable } := rfl
      rw [SnapshotFs.renameTemp_works renameWorks temp free]
      refine ⟨fun _ => ⟨rfl, (unref_lookup newIndex).2, ?_⟩,
        fun broken => absurd ⟨deleteWorks, renameWorks⟩ broken⟩
      simp only
      rw [(unref_lookup newIndex).1]
      simp [ref, SnapshotFs.lookup]
    · have failed := SnapshotFs.renameTemp_fails renameWorks writer.snapshotIndex
      rcases result : deleted.renameTemp writer.snapshotIndex with ⟨renamed, after⟩
      rw [result] at failed
      simp only at failed
      subst failed
      exact ⟨fun both => absurd both.2 renameWorks, fun _ => rfl⟩
  · have failed := SnapshotFs.deleteSnapshot_fails deleteWorks writer.snapshotIndex
    rcases result : synced.deleteSnapshot writer.snapshotIndex with ⟨deleted, after⟩
    rw [result] at failed
    simp only at failed
    subst failed
    exact ⟨fun both => absurd both.1 deleteWorks, fun _ => rfl⟩

theorem openable_congr {left right : SnapshotStorage P}
    (sameLast : left.lastSnapshotIndex = right.lastSnapshotIndex)
    (sameSnapshots : left.fs.snapshots = right.fs.snapshots) :
    left.openable = right.openable := by
  rw [openable_eq, openable_eq, sameLast, SnapshotFs.lookup, SnapshotFs.lookup, sameSnapshots]

theorem close_eq (storage : SnapshotStorage P) (writer : SnapshotWriter P)
    (keepDataOnError : Bool) :
    (storage.close writer keepDataOnError).1 =
        (if (storage.commitWriter writer).1 ≠ EIO then 0 else -1) ∧
      (storage.close writer keepDataOnError).2.openable =
        (storage.commitWriter writer).2.openable := by
  unfold close
  rcases storage.commitWriter writer with ⟨ret, after⟩
  refine ⟨rfl, ?_⟩
  simp only
  split
  · refine openable_congr rfl ?_
    simp only [SnapshotFs.deleteTemp]
    cases after.fs.faults after.fs.clock with
    | none => rfl
    | some fault => cases fault <;> rfl
  · rfl

/-- The snapshot that is the last one after a close without `EIO`: the new one
after a commit, the former one otherwise. -/
def current (storage : SnapshotStorage P) (writer : SnapshotWriter P) :
    Option (SnapshotMeta P) :=
  if storage.Commits writer then
    writer.metaTable.snapshotMeta.filter (fun snapshot => snapshot.lastIncludedIndex ≠ 0)
  else storage.openable

/-- When `close` returns `0`: no `EIO` before, and none from the deletion and
the rename of a commit. -/
def Closes (storage : SnapshotStorage P) (writer : SnapshotWriter P) : Prop :=
  writer.errorCode ≠ EIO ∧
    (storage.Commits writer →
      storage.fs.Works (SnapshotFs.saveCalls storage.raftSyncMeta + 2))

theorem close_iff (storage : SnapshotStorage P) (writer : SnapshotWriter P)
    (keepDataOnError : Bool) :
    (storage.close writer keepDataOnError).1 = 0 ↔ storage.Closes writer := by
  rw [(storage.close_eq writer keepDataOnError).1]
  have eio : (if (storage.commitWriter writer).1 ≠ EIO then (0 : Int) else -1) = 0 ↔
      (storage.commitWriter writer).1 ≠ EIO := by
    split <;> simp_all
  rw [eio]
  unfold Closes
  by_cases commits : storage.Commits writer
  · obtain ⟨renamed, failed⟩ := commitWriter_commits commits
    have notEio : writer.errorCode ≠ EIO := by
      rw [commits.1]
      decide
    simp only [notEio, ne_eq, not_false_eq_true, true_and, commits, true_imp_iff]
    by_cases works : storage.fs.Works (SnapshotFs.saveCalls storage.raftSyncMeta + 2)
    · rw [(renamed works).1]
      simp only [works, iff_true]
      decide
    · simp [failed works, works]
  · rw [ne_eq, (commitWriter_skipped commits).2.1]
    simp [commits]

theorem close_openable (storage : SnapshotStorage P) {writer : SnapshotWriter P}
    (keepDataOnError : Bool) (closes : storage.Closes writer) :
    (storage.close writer keepDataOnError).2.openable = storage.current writer := by
  rw [(storage.close_eq writer keepDataOnError).2]
  unfold current
  by_cases commits : storage.Commits writer
  · obtain ⟨_, last, stored⟩ := (commitWriter_commits commits).1 (closes.2 commits)
    rw [if_pos commits, openable_eq, last, stored]
    cases hasMeta : writer.metaTable.snapshotMeta with
    | none => simp [SnapshotWriter.snapshotIndex, hasMeta]
    | some snapshot =>
        by_cases zero : snapshot.lastIncludedIndex = 0
        · simp [SnapshotWriter.snapshotIndex, hasMeta, zero, Option.filter]
        · simp [SnapshotWriter.snapshotIndex, hasMeta, zero, Option.filter]
  · obtain ⟨_, _, sameLast, sameSnapshots⟩ := commitWriter_skipped commits
    rw [if_neg commits]
    exact openable_congr sameLast sameSnapshots

end SnapshotStorage

namespace SnapshotExecutor

/-- Whenever saving succeeds or moves the executor or the log on, the storage
holds the snapshot. -/
def SavedBehind (executor : SnapshotExecutor P) (status : Int) (snapshot : SnapshotMeta P)
    (writer : SnapshotWriter P) : Prop :=
  let result := executor.onSnapshotSaveDone status snapshot writer
  result.1 = 0 ∨ result.2.lastSnapshotIndex ≠ executor.lastSnapshotIndex ∨
      result.2.setSnapshotCalls ≠ executor.setSnapshotCalls →
    ∃ stored, result.2.snapshotStorage.openable = some stored ∧ stored.id = snapshot.id

/-- Saves that end in an error which is passed on, saves whose steps up to the
rename work, and saves of what the storage holds already. -/
def SaveHolds (executor : SnapshotExecutor P) (status : Int) (snapshot : SnapshotMeta P)
    (writer : SnapshotWriter P) : Prop :=
  let storage := executor.snapshotStorage
  status ≠ 0 ∨ snapshot.lastIncludedIndex ≤ executor.lastSnapshotIndex ∨
    writer.errorCode = EIO ∨
    (writer.errorCode = 0 ∧
      (storage.fs.temp.isSome ∧
        storage.fs.Works (SnapshotFs.saveCalls storage.raftSyncMeta)) ∧
      snapshot.lastIncludedIndex ≠ storage.lastSnapshotIndex) ∨
    storage.openable.map SnapshotMeta.id = some snapshot.id

theorem finishWriter_failed {executor : SnapshotExecutor P} {status : Int}
    {snapshot : SnapshotMeta P} (writer : SnapshotWriter P)
    (failed : status ≠ 0 ∨ snapshot.lastIncludedIndex ≤ executor.lastSnapshotIndex) :
    (executor.finishWriter status snapshot writer).1 ≠ 0 := by
  unfold finishWriter
  by_cases stale : status = 0 ∧ snapshot.lastIncludedIndex ≤ executor.lastSnapshotIndex
  · simp only [stale, and_self, if_true, if_neg (by decide : ¬ ESTALE = 0)]
    decide
  · have status : status ≠ 0 := by
      intro ok
      exact failed.elim (fun other => other ok) (fun older => stale ⟨ok, older⟩)
    rw [if_neg stale]
    simp [status]

theorem finishWriter_fresh {executor : SnapshotExecutor P} {snapshot : SnapshotMeta P}
    {writer : SnapshotWriter P}
    (newer : ¬ snapshot.lastIncludedIndex ≤ executor.lastSnapshotIndex) :
    executor.finishWriter 0 snapshot writer = (0, (writer.saveMeta snapshot).2) := by
  simp [finishWriter, newer, SnapshotWriter.saveMeta]

/-- The result of `on_snapshot_save_done` in terms of `finishWriter` and
`close`. -/
theorem onSnapshotSaveDone_eq (executor : SnapshotExecutor P) (status : Int)
    (snapshot : SnapshotMeta P) (writer : SnapshotWriter P) :
    let finished := executor.finishWriter status snapshot writer
    let closed := executor.snapshotStorage.close finished.2 false
    let result := executor.onSnapshotSaveDone status snapshot writer
    (result.1 = 0 ↔ closed.1 = 0 ∧ finished.1 = 0) ∧
      (result.1 ≠ 0 → result.2.lastSnapshotIndex = executor.lastSnapshotIndex ∧
        result.2.setSnapshotCalls = executor.setSnapshotCalls) ∧
      result.2.snapshotStorage = closed.2 := by
  unfold onSnapshotSaveDone
  rcases executor.finishWriter status snapshot writer with ⟨ret, finished⟩
  simp only
  rcases executor.snapshotStorage.close finished false with ⟨rc, storage⟩
  simp only
  have eioNonzero : EIO ≠ 0 := by decide
  by_cases closed : rc = 0
  · by_cases ok : ret = 0
    · have notEio : ¬ (0 : Int) = EIO := by decide
      simp [closed, ok, notEio, setSnapshot]
    · by_cases isEio : ret = EIO
      · simp [closed, isEio, eioNonzero, reportError]
      · simp [closed, ok, isEio]
  · simp [closed, eioNonzero, reportError]

/-- Saving is safe exactly in the cases of `SaveHolds`. -/
theorem onSnapshotSaveDone_iff (executor : SnapshotExecutor P) (status : Int)
    (snapshot : SnapshotMeta P) (writer : SnapshotWriter P) :
    SavedBehind executor status snapshot writer ↔
      SaveHolds executor status snapshot writer := by
  obtain ⟨succeeds, unchanged, sameStorage⟩ :=
    executor.onSnapshotSaveDone_eq status snapshot writer
  have behind : SavedBehind executor status snapshot writer ↔
      ((executor.onSnapshotSaveDone status snapshot writer).1 = 0 →
        ∃ stored, (executor.onSnapshotSaveDone status snapshot writer).2.snapshotStorage.openable =
          some stored ∧ stored.id = snapshot.id) := by
    unfold SavedBehind
    constructor
    · exact fun all ok => all (Or.inl ok)
    · intro ifOk result moved
      by_contra failed
      have notOk := fun ok => failed (ifOk ok)
      obtain ⟨sameIndex, sameCalls⟩ := unchanged notOk
      rcases moved with ok | index | calls
      · exact notOk ok
      · exact index sameIndex
      · exact calls sameCalls
  rw [behind, succeeds, sameStorage]
  unfold SaveHolds
  by_cases failed : status ≠ 0 ∨ snapshot.lastIncludedIndex ≤ executor.lastSnapshotIndex
  · -- an earlier error or a stale snapshot is returned as an error
    have nonzero := finishWriter_failed writer failed
    constructor
    · intro _
      exact failed.imp_right Or.inl
    · intro _ both
      exact absurd both.2 nonzero
  · push Not at failed
    obtain ⟨ok, newer⟩ := failed
    subst ok
    rw [finishWriter_fresh (by omega)]
    set saved := (writer.saveMeta snapshot).2 with savedEq
    have commits : executor.snapshotStorage.Commits saved ↔
        writer.errorCode = 0 ∧
          (executor.snapshotStorage.fs.temp.isSome ∧ executor.snapshotStorage.fs.Works
            (SnapshotFs.saveCalls executor.snapshotStorage.raftSyncMeta)) ∧
          snapshot.lastIncludedIndex ≠ executor.snapshotStorage.lastSnapshotIndex := Iff.rfl
    have committedCurrent (committed : executor.snapshotStorage.Commits saved) :
        executor.snapshotStorage.current saved = some snapshot := by
      have hasMeta : saved.metaTable.snapshotMeta = some snapshot := rfl
      have positive : snapshot.lastIncludedIndex ≠ 0 := by omega
      rw [SnapshotStorage.current, if_pos committed, hasMeta]
      simp [positive]
    have skippedCurrent (skipped : ¬ executor.snapshotStorage.Commits saved) :
        executor.snapshotStorage.current saved = executor.snapshotStorage.openable := by
      rw [SnapshotStorage.current, if_neg skipped]
    rw [SnapshotStorage.close_iff]
    constructor
    · intro stored
      by_cases isEio : writer.errorCode = EIO
      · exact Or.inr (Or.inr (Or.inl isEio))
      · by_cases committed : executor.snapshotStorage.Commits saved
        · exact Or.inr (Or.inr (Or.inr (Or.inl (commits.mp committed))))
        · -- the writer is dropped without an error
          have closes : executor.snapshotStorage.Closes saved :=
            ⟨isEio, fun other => absurd other committed⟩
          obtain ⟨former, isOpenable, sameId⟩ := stored ⟨closes, rfl⟩
          rw [executor.snapshotStorage.close_openable false closes,
            skippedCurrent committed] at isOpenable
          refine Or.inr (Or.inr (Or.inr (Or.inr ?_)))
          rw [isOpenable, Option.map_some, sameId]
    · rintro holds ⟨closes, _⟩
      rw [executor.snapshotStorage.close_openable false closes]
      by_cases committed : executor.snapshotStorage.Commits saved
      · exact ⟨snapshot, committedCurrent committed, rfl⟩
      · rw [skippedCurrent committed]
        rcases holds with failed | stale | isEio | works | former
        · exact absurd rfl failed
        · omega
        · exact absurd isEio closes.1
        · exact absurd (commits.mpr works) committed
        · exact Option.map_eq_some_iff.mp former

def failingMetaFile : SnapshotExecutor Nat :=
  { snapshotStorage :=
      { fs :=
          { temp := some {}
            faults := fun call => if call = 0 then some .untouched else none } } }

/-- The save succeeds and the log is compacted, without any snapshot. -/
theorem failingMetaFile_compacts :
    ¬ SavedBehind failingMetaFile 0 { lastIncludedIndex := 5, lastIncludedTerm := 1 } {} := by
  intro behind
  obtain ⟨stored, isOpenable, _⟩ := behind (Or.inl (by decide))
  have nothing : (failingMetaFile.onSnapshotSaveDone 0
      { lastIncludedIndex := 5, lastIncludedTerm := 1 } {}).2.snapshotStorage.openable = none := by
    decide
  rw [nothing] at isOpenable
  exact absurd isOpenable (by simp)

end SnapshotExecutor

end QuorumKit
