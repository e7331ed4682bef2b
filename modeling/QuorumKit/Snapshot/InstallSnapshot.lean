/-
Installing a snapshot: which snapshot the state machine loads, and when it is
the one that the executor records and the leader sent.

The copier opens the last snapshot of the storage after closing its writer.  A
close that skipped the rename without an error leaves the former snapshot there.
-/

import QuorumKit.Snapshot.SaveSnapshot

namespace QuorumKit

variable {P : Type}

namespace SnapshotStorage

theorem loadMetaFile_works {fs : SnapshotFs P} (works : fs.Works 3) (dir : SnapshotDir P) :
    (fs.loadMetaFile dir).1 = dir.metaFile := by
  unfold SnapshotFs.loadMetaFile
  cases dir.metaFile with
  | none => rfl
  | some table => simp only [SnapshotFs.calls_works 3 fs works]

theorem loadMetaFile_fails {fs : SnapshotFs P} (fails : ¬ fs.Works 3) (dir : SnapshotDir P) :
    (fs.loadMetaFile dir).1 = none := by
  unfold SnapshotFs.loadMetaFile
  cases dir.metaFile with
  | none => rfl
  | some table =>
      have stops := SnapshotFs.calls_fails 3 fs fails
      rcases result : fs.calls 3 with ⟨worked, after⟩
      rw [result] at stops
      simp only at stops
      subst stops
      rfl

theorem openReader_loadMeta (storage : SnapshotStorage P) :
    storage.openReader.1.bind SnapshotReader.loadMeta =
      if storage.fs.Works 3 then storage.openable else none := by
  rw [openable_eq]
  unfold openReader
  by_cases none : storage.lastSnapshotIndex = 0
  · simp [none]
  · simp only [none, if_false, ref]
    cases found : storage.fs.lookup storage.lastSnapshotIndex with
    | none => simp
    | some dir =>
        simp only [Option.bind_some]
        by_cases works : storage.fs.Works 3
        · have loaded := loadMetaFile_works works dir
          rcases result : storage.fs.loadMetaFile dir with ⟨table, after⟩
          rw [result] at loaded
          simp only at loaded
          rw [if_pos works, ← loaded]
          cases table <;> rfl
        · have loaded := loadMetaFile_fails works dir
          rcases result : storage.fs.loadMetaFile dir with ⟨table, after⟩
          rw [result] at loaded
          simp only at loaded
          subst loaded
          rw [if_neg works]
          rfl

end SnapshotStorage

theorem SnapshotWriter.sync_metaTable (writer : SnapshotWriter P) (raftSyncMeta : Bool)
    (fs : SnapshotFs P) : (writer.sync raftSyncMeta fs).2.1.metaTable = writer.metaTable := by
  unfold SnapshotWriter.sync
  rcases fs.saveMetaFile raftSyncMeta writer.metaTable with ⟨rc, after⟩
  simp only
  split <;> rfl

theorem MetaTable.addFile_snapshotMeta (table : MetaTable P) (filename : String)
    (fileMeta : LocalFileMeta) :
    (table.addFile filename fileMeta).2.snapshotMeta = table.snapshotMeta := by
  unfold MetaTable.addFile
  cases table.getFileMeta filename <;> rfl

namespace SnapshotCopier

/-- The copier has a writer whose table carries this snapshot meta. -/
def Writes (snapshotMeta : Option (SnapshotMeta P)) (copier : SnapshotCopier P) : Prop :=
  ∃ writer, copier.writer = some writer ∧ writer.metaTable.snapshotMeta = snapshotMeta

theorem copyFile_writes {snapshotMeta : Option (SnapshotMeta P)} (remote : RemoteSnapshot P)
    {copier : SnapshotCopier P} (writes : copier.Writes snapshotMeta)
    (storage : SnapshotStorage P) (filename : String) :
    (copyFile remote copier storage filename).1.Writes snapshotMeta := by
  obtain ⟨writer, hasWriter, sameMeta⟩ := writes
  have added (fileMeta : LocalFileMeta) :
      (writer.metaTable.addFile filename fileMeta).2.snapshotMeta = snapshotMeta :=
    (writer.metaTable.addFile_snapshotMeta filename fileMeta).trans sameMeta
  have synced (fileMeta : LocalFileMeta) (fs : SnapshotFs P) :
      ({ writer with metaTable := (writer.metaTable.addFile filename fileMeta).2 }.sync
        storage.raftSyncMeta fs).2.1.metaTable.snapshotMeta = snapshotMeta := by
    rw [SnapshotWriter.sync_metaTable]
    exact added fileMeta
  have kept (code : Int) : (copier.setError code).Writes snapshotMeta :=
    ⟨writer, hasWriter, sameMeta⟩
  unfold copyFile
  simp only [hasWriter]
  split_ifs with present failedDirectory
  · exact ⟨writer, hasWriter, sameMeta⟩
  all_goals
    cases remote.fileSession filename with
    | cancelled => exact kept _
    | notStarted => exact kept _
    | joined status =>
        simp only
        split_ifs
        · exact kept _
        all_goals first
          | exact ⟨_, rfl, added _⟩
          | exact ⟨_, rfl, synced _ _⟩

theorem copyFiles_writes {snapshotMeta : Option (SnapshotMeta P)} (remote : RemoteSnapshot P)
    (files : List String) : ∀ {copier : SnapshotCopier P} (storage : SnapshotStorage P),
      copier.Writes snapshotMeta →
      (copyFiles remote files copier storage).1.Writes snapshotMeta := by
  induction files with
  | nil => exact fun _ writes => writes
  | cons filename rest ih =>
      intro copier storage writes
      unfold copyFiles
      split
      · exact ih _ (copyFile_writes remote writes storage filename)
      · exact writes

theorem filter_writes {copier : SnapshotCopier P} (storage : SnapshotStorage P)
    (hasMeta : copier.remoteSnapshot.snapshotMeta.isSome)
    (ok : (copier.filter storage).1.errorCode = 0) :
    (copier.filter storage).1.Writes copier.remoteSnapshot.snapshotMeta := by
  obtain ⟨snapshot, isMeta⟩ := Option.isSome_iff_exists.mp hasMeta
  unfold filter at ok ⊢
  rcases creates : createWriter copier.remoteSnapshot storage with ⟨writer, created⟩
  rw [creates] at ok
  cases writer with
  | none => exact absurd ok (show EIO ≠ 0 by decide)
  | some writer =>
      simp only [isMeta]
      have table := SnapshotWriter.sync_metaTable (writer.saveMeta snapshot).2
        created.raftSyncMeta created.fs
      rcases result : (writer.saveMeta snapshot).2.sync created.raftSyncMeta created.fs with
        ⟨rc, after, fs⟩
      rw [result] at table
      simp only at table ⊢
      refine ⟨after, ?_, by rw [table]; rfl⟩
      split <;> rfl

theorem loadMetaTable_ok {remote : RemoteSnapshot P} {copier : SnapshotCopier P}
    (loaded : loadMetaTable remote = some copier) (ok : copier.errorCode = 0) :
    remote.metaTable = some copier.remoteSnapshot ∧
      copier.remoteSnapshot.snapshotMeta.isSome := by
  unfold loadMetaTable at loaded
  split_ifs at loaded with cancelled failed
  · obtain rfl := Option.some.inj loaded
    exact absurd ok (show ECANCELED ≠ 0 by decide)
  · obtain rfl := Option.some.inj loaded
    exact absurd ok failed
  · cases table : remote.metaTable with
    | none =>
        rw [table] at loaded
        obtain rfl := Option.some.inj loaded
        exact absurd ok (show (-1 : Int) ≠ 0 by decide)
    | some table' =>
        rw [table] at loaded
        simp only at loaded
        split_ifs at loaded with hasMeta
        obtain rfl := Option.some.inj loaded
        exact ⟨rfl, hasMeta⟩

theorem download_writes {remote : RemoteSnapshot P} {storage after : SnapshotStorage P}
    {copier : SnapshotCopier P} (downloaded : download remote storage = some (copier, after))
    (ok : copier.errorCode = 0) :
    copier.Writes (remote.metaTable.bind MetaTable.snapshotMeta) := by
  unfold download at downloaded
  cases loads : loadMetaTable remote with
  | none => simp [loads] at downloaded
  | some loaded =>
      simp only [loads] at downloaded
      split at downloaded
      · rename_i failed
        obtain ⟨rfl, rfl⟩ := Prod.mk.injEq .. ▸ Option.some.inj downloaded
        simp [SnapshotCopier.ok, ok] at failed
      · rename_i loadOk
        have loadedOk : loaded.errorCode = 0 := by simpa [SnapshotCopier.ok] using loadOk
        obtain ⟨remoteTable, hasMeta⟩ := loadMetaTable_ok loads loadedOk
        have sameMeta : remote.metaTable.bind MetaTable.snapshotMeta =
            loaded.remoteSnapshot.snapshotMeta := by rw [remoteTable]; rfl
        rw [sameMeta]
        rcases filters : loaded.filter storage with ⟨filtered, filteredStorage⟩
        rw [filters] at downloaded
        have written (filteredOk : filtered.errorCode = 0) :
            filtered.Writes loaded.remoteSnapshot.snapshotMeta := by
          have writes := filter_writes storage hasMeta (by rw [filters]; exact filteredOk)
          rw [filters] at writes
          exact writes
        simp only at downloaded
        split at downloaded
        · obtain ⟨rfl, rfl⟩ := Prod.mk.injEq .. ▸ Option.some.inj downloaded
          exact written ok
        · rename_i goesOn
          have filteredOk : filtered.errorCode = 0 := by
            have both := not_or.mp goesOn
            simpa [SnapshotCopier.ok] using both.1
          have copied := copyFiles_writes remote filtered.remoteSnapshot.listFiles
            filteredStorage (written filteredOk)
          rw [Option.some.inj downloaded] at copied
          exact copied

/-- The end of a download without error: the copier stays without error exactly
when the close returns `0`, and its reader is on the current snapshot. -/
theorem finish_ok {copier : SnapshotCopier P} {writer : SnapshotWriter P}
    (ok : copier.errorCode = 0) (hasWriter : copier.writer = some writer)
    (storage : SnapshotStorage P) :
    let closed := (storage.close writer storage.filterBeforeCopyRemote).2
    ((copier.finish storage).1.errorCode = 0 ↔ storage.Closes writer) ∧
      (storage.Closes writer →
        (copier.finish storage).1.reader.bind SnapshotReader.loadMeta =
          if closed.fs.Works 3 then storage.current writer else none) := by
  have isOk : copier.ok = true := by simp [SnapshotCopier.ok, ok]
  have closeIff := storage.close_iff writer storage.filterBeforeCopyRemote
  have openable (closes : storage.Closes writer) :=
    storage.close_openable storage.filterBeforeCopyRemote closes
  unfold finish
  simp only [hasWriter, isOk, not_true_eq_false, false_and, if_false]
  rcases closed : storage.close writer storage.filterBeforeCopyRemote with ⟨rc, after⟩
  rw [closed] at closeIff openable
  simp only at closeIff openable ⊢
  by_cases closes : storage.Closes writer
  · have rcZero := closeIff.mpr closes
    subst rcZero
    have opened := after.openReader_loadMeta
    rw [openable closes] at opened
    simp only [ne_eq, not_true_eq_false, false_and, if_false]
    have stillOk : ({ copier with writer := none } : SnapshotCopier P).ok = true := isOk
    rw [if_pos stillOk]
    rcases opens : after.openReader with ⟨reader, opening⟩
    rw [opens] at opened
    exact ⟨by simp [closes, ok], fun _ => opened⟩
  · have rcNonzero : rc ≠ 0 := fun zero => closes (closeIff.mp zero)
    have stillOk : ({ copier with writer := none } : SnapshotCopier P).ok = true := isOk
    simp only [ne_eq, rcNonzero, not_false_eq_true, stillOk, and_self, if_true]
    have failed : (({ copier with writer := none } : SnapshotCopier P).setError EIO).ok = false := by
      simp [SnapshotCopier.ok, SnapshotCopier.setError, EIO]
    rw [failed]
    refine ⟨?_, fun other => absurd other closes⟩
    simp [SnapshotCopier.setError, EIO, closes]

theorem finish_failed {copier : SnapshotCopier P} (failed : copier.errorCode ≠ 0)
    (storage : SnapshotStorage P) :
    (copier.finish storage).1.errorCode = copier.errorCode := by
  have notOk : copier.ok = false := by simp [SnapshotCopier.ok, failed]
  unfold finish
  cases hasWriter : copier.writer with
  | none => simp [notOk]
  | some writer =>
      have stillFailed : ({ copier with writer := none } : SnapshotCopier P).ok = false := notOk
      simp [stillFailed]

end SnapshotCopier

namespace SnapshotFsm

/-- The state machine takes a snapshot: the node is up, no error was reported,
the snapshot is not older than what has been applied, and the user's function
succeeds. -/
def Accepts (fsm : SnapshotFsm P) (snapshot : SnapshotMeta P) : Prop :=
  fsm.queueAccepts ∧ fsm.errorCode = 0 ∧ ¬ snapshot.id < fsm.lastAppliedId ∧
    fsm.onSnapshotLoad = 0

theorem onSnapshotLoadTask_accepts {fsm : SnapshotFsm P} {reader : SnapshotReader P}
    {snapshot : SnapshotMeta P} (hasMeta : reader.loadMeta = some snapshot)
    (accepts : fsm.Accepts snapshot) :
    fsm.onSnapshotLoadTask reader =
      (0, { fsm with lastAppliedId := snapshot.id, loaded := some snapshot }) := by
  obtain ⟨queue, noError, notStale, loads⟩ := accepts
  simp [onSnapshotLoadTask, doSnapshotLoad, queue, noError, hasMeta, notStale, loads]

theorem onSnapshotLoadTask_zero {fsm : SnapshotFsm P} {reader : SnapshotReader P}
    (loaded : (fsm.onSnapshotLoadTask reader).1 = 0) :
    ∃ snapshot, reader.loadMeta = some snapshot ∧ fsm.Accepts snapshot := by
  unfold onSnapshotLoadTask at loaded
  by_cases queue : fsm.queueAccepts = true
  · by_cases failed : fsm.errorCode = 0
    · simp only [queue, failed, not_true_eq_false, ne_eq, if_false, doSnapshotLoad] at loaded
      cases hasMeta : reader.loadMeta with
      | none => simp [hasMeta] at loaded
      | some snapshot =>
          by_cases stale : snapshot.id < fsm.lastAppliedId
          · simp [hasMeta, stale, ESTALE] at loaded
          · by_cases loads : fsm.onSnapshotLoad = 0
            · exact ⟨snapshot, rfl, queue, failed, stale, loads⟩
            · simp [hasMeta, stale, loads] at loaded
    · simp [queue, failed, EINVAL] at loaded
  · simp [queue, EHOSTDOWN] at loaded

end SnapshotFsm

namespace SnapshotExecutor

/-- An installation from the start of the copier to the answer: `snapshot` is
the meta of the request that started the download, `answered` the request that
is answered.  `none` when the process ends. -/
def installDownloaded (executor : SnapshotExecutor P) (answered : InstallSnapshotRequest P)
    (snapshot : SnapshotMeta P) (remote : RemoteSnapshot P) (fsm : SnapshotFsm P) :
    Option (SnapshotExecutor P × SnapshotFsm P) :=
  match SnapshotCopier.copy remote executor.snapshotStorage with
  | none => none
  | some (copier, storage) =>
      match { executor with
          snapshotStorage := storage
          downloadingSnapshot := some answered }.loadDownloadingSnapshot copier answered
            snapshot with
      | (none, executor) => some (executor, fsm)
      | (some reader, executor) =>
          match fsm.onSnapshotLoadTask reader with
          | (status, fsm) =>
              let executor := executor.onSnapshotLoadDone status
              some
                ({ executor with
                    snapshotStorage := executor.snapshotStorage.closeReader reader }, fsm)

/-- An installation answered with success has loaded the snapshot that is
recorded, handed to the log and asked for. -/
def InstallSound (executor : SnapshotExecutor P) (answered : InstallSnapshotRequest P)
    (snapshot : SnapshotMeta P) (remote : RemoteSnapshot P) (fsm : SnapshotFsm P) : Prop :=
  ∀ result fsm', executor.installDownloaded answered snapshot remote fsm = some (result, fsm') →
    result.responses = executor.responses ++ [(answered, .replied answered.term true)] →
    ∃ loaded recorded,
      fsm'.loaded = some loaded ∧
        loaded.id = { index := result.lastSnapshotIndex, term := result.lastSnapshotTerm } ∧
        result.setSnapshotCalls = executor.setSnapshotCalls ++ [recorded] ∧
        loaded.id = recorded.id ∧ loaded.id = answered.snapshotMeta.id

/-- An installation fails before the answer, or the snapshot that is current
after the close has the id of the first request and of the one answered. -/
def InstallHolds (executor : SnapshotExecutor P) (answered : InstallSnapshotRequest P)
    (snapshot : SnapshotMeta P) (remote : RemoteSnapshot P) (fsm : SnapshotFsm P) : Prop :=
  ∀ copier storage writer opened,
    SnapshotCopier.download remote executor.snapshotStorage = some (copier, storage) →
    copier.errorCode = 0 → copier.writer = some writer → storage.Closes writer →
    (storage.close writer storage.filterBeforeCopyRemote).2.fs.Works 3 →
    storage.current writer = some opened → fsm.Accepts opened →
    opened.id = snapshot.id ∧ answered.snapshotMeta.id = snapshot.id

theorem loadDownloadingSnapshot_none {executor after : SnapshotExecutor P}
    {copier : SnapshotCopier P} {answered : InstallSnapshotRequest P}
    {snapshot : SnapshotMeta P}
    (failed : executor.loadDownloadingSnapshot copier answered snapshot = (none, after))
    (success : after.responses =
      executor.responses ++ [(answered, .replied answered.term true)]) : False := by
  unfold loadDownloadingSnapshot at failed
  by_cases hasError : copier.errorCode ≠ 0
  · rw [if_pos hasError] at failed
    obtain ⟨_, rfl⟩ := Prod.mk.injEq .. ▸ failed
    have sameResponses :
        (if copier.errorCode = EIO then executor.reportError copier.errorCode
          else executor).responses = executor.responses := by
      split <;> rfl
    simp only [respond] at success
    rw [sameResponses] at success
    simp at success
  · rw [if_neg hasError] at failed
    cases noReader : copier.reader with
    | none =>
        rw [noReader] at failed
        obtain ⟨_, rfl⟩ := Prod.mk.injEq .. ▸ failed
        simp [respond] at success
    | some reader => simp [noReader] at failed

theorem loadDownloadingSnapshot_some {executor after : SnapshotExecutor P}
    {copier : SnapshotCopier P} {answered : InstallSnapshotRequest P}
    {snapshot : SnapshotMeta P} {reader : SnapshotReader P}
    (loading : executor.loadDownloadingSnapshot copier answered snapshot =
      (some reader, after)) :
    copier.errorCode = 0 ∧ copier.reader = some reader ∧
      after = { executor with loadingSnapshot := true, loadingSnapshotMeta := some snapshot } := by
  unfold loadDownloadingSnapshot at loading
  by_cases hasError : copier.errorCode ≠ 0
  · rw [if_pos hasError] at loading
    simp at loading
  · rw [if_neg hasError] at loading
    simp only [ne_eq, not_not] at hasError
    cases hasReader : copier.reader with
    | none => simp [hasReader] at loading
    | some found =>
        simp only [hasReader, Prod.mk.injEq, Option.some.injEq] at loading
        obtain ⟨rfl, rfl⟩ := loading
        exact ⟨hasError, rfl, rfl⟩

/-- A successful answer means a copier without error whose reader the state
machine loads; then this is what happens. -/
theorem installDownloaded_success {executor result : SnapshotExecutor P}
    {answered : InstallSnapshotRequest P} {snapshot : SnapshotMeta P}
    {remote : RemoteSnapshot P} {fsm fsm' : SnapshotFsm P}
    (installed : executor.installDownloaded answered snapshot remote fsm = some (result, fsm'))
    (success : result.responses =
      executor.responses ++ [(answered, .replied answered.term true)]) :
    ∃ copier storage reader loaded,
      SnapshotCopier.copy remote executor.snapshotStorage = some (copier, storage) ∧
        copier.errorCode = 0 ∧ copier.reader = some reader ∧
        reader.loadMeta = some loaded ∧ fsm.Accepts loaded ∧
        fsm'.loaded = some loaded ∧
        result.lastSnapshotIndex = snapshot.lastIncludedIndex ∧
        result.lastSnapshotTerm = snapshot.lastIncludedTerm ∧
        result.setSnapshotCalls = executor.setSnapshotCalls ++ [snapshot] := by
  unfold installDownloaded at installed
  cases copied : SnapshotCopier.copy remote executor.snapshotStorage with
  | none => simp [copied] at installed
  | some pair =>
      rcases pair with ⟨copier, storage⟩
      simp only [copied] at installed
      set started : SnapshotExecutor P := { executor with
        snapshotStorage := storage
        downloadingSnapshot := some answered } with startedEq
      rcases loading : started.loadDownloadingSnapshot copier answered snapshot with
        ⟨reader, loadingExecutor⟩
      rw [loading] at installed
      cases reader with
      | none =>
          obtain ⟨rfl, rfl⟩ := Prod.mk.injEq .. ▸ Option.some.inj installed
          exact (loadDownloadingSnapshot_none loading success).elim
      | some reader =>
          obtain ⟨copierOk, isReader, rfl⟩ := loadDownloadingSnapshot_some loading
          rcases task : fsm.onSnapshotLoadTask reader with ⟨status, loadedFsm⟩
          simp only [task] at installed
          obtain ⟨rfl, rfl⟩ := Prod.mk.injEq .. ▸ Option.some.inj installed
          by_cases loads : status = 0
          · subst loads
            obtain ⟨loaded, hasMeta, accepts⟩ := SnapshotFsm.onSnapshotLoadTask_zero
              (show (fsm.onSnapshotLoadTask reader).1 = 0 by rw [task])
            rw [SnapshotFsm.onSnapshotLoadTask_accepts hasMeta accepts] at task
            obtain ⟨_, rfl⟩ := Prod.mk.injEq .. ▸ task
            exact ⟨copier, storage, reader, loaded, rfl, copierOk, isReader, hasMeta, accepts,
              rfl, rfl, rfl, rfl⟩
          · exfalso
            simp [onSnapshotLoadDone, loads, respond, startedEq] at success

theorem installDownloaded_accepted {executor : SnapshotExecutor P}
    {answered : InstallSnapshotRequest P} {snapshot : SnapshotMeta P}
    {remote : RemoteSnapshot P} {fsm : SnapshotFsm P} {copier : SnapshotCopier P}
    {storage : SnapshotStorage P} {reader : SnapshotReader P} {loaded : SnapshotMeta P}
    (copied : SnapshotCopier.copy remote executor.snapshotStorage = some (copier, storage))
    (copierOk : copier.errorCode = 0) (isReader : copier.reader = some reader)
    (hasMeta : reader.loadMeta = some loaded) (accepts : fsm.Accepts loaded) :
    ∃ result fsm',
      executor.installDownloaded answered snapshot remote fsm = some (result, fsm') ∧
        result.responses = executor.responses ++ [(answered, .replied answered.term true)] ∧
        fsm'.loaded = some loaded ∧
        result.setSnapshotCalls = executor.setSnapshotCalls ++ [snapshot] := by
  unfold installDownloaded
  simp only [copied, loadDownloadingSnapshot, copierOk, ne_eq, not_true_eq_false, if_false,
    isReader, SnapshotFsm.onSnapshotLoadTask_accepts hasMeta accepts]
  exact ⟨_, _, rfl, rfl, rfl, rfl⟩

/-- An installation is sound exactly in the cases of `InstallHolds`. -/
theorem installSound_iff (executor : SnapshotExecutor P) (answered : InstallSnapshotRequest P)
    (snapshot : SnapshotMeta P) (remote : RemoteSnapshot P) (fsm : SnapshotFsm P) :
    InstallSound executor answered snapshot remote fsm ↔
      InstallHolds executor answered snapshot remote fsm := by
  constructor
  · intro sound copier storage writer opened downloaded ok hasWriter closes reads isCurrent
      accepts
    obtain ⟨finished, isReader⟩ := SnapshotCopier.finish_ok ok hasWriter storage
    have loads := isReader closes
    rw [if_pos reads, isCurrent] at loads
    obtain ⟨reader, hasReader, hasMeta⟩ := Option.bind_eq_some_iff.mp loads
    have copied : SnapshotCopier.copy remote executor.snapshotStorage =
        some (copier.finish storage) := by
      rw [SnapshotCopier.copy, downloaded]
      rfl
    obtain ⟨result, fsm', installed, success, isLoaded, calls⟩ :=
      installDownloaded_accepted copied (finished.mpr closes) hasReader hasMeta accepts
    obtain ⟨loaded, recorded, loadedEq, _, recordedCalls, sameRecorded, sameAnswered⟩ :=
      sound result fsm' installed success
    rw [isLoaded] at loadedEq
    obtain rfl := Option.some.inj loadedEq
    rw [calls] at recordedCalls
    obtain rfl : snapshot = recorded := by simpa using recordedCalls
    exact ⟨sameRecorded, sameAnswered.symm.trans sameRecorded⟩
  · intro holds result fsm' installed success
    obtain ⟨finished, after, reader, loaded, copied, finishedOk, hasReader, hasMeta, accepts,
      isLoaded, lastIndex, lastTerm, calls⟩ := installDownloaded_success installed success
    obtain ⟨⟨copier, storage⟩, downloaded, ends⟩ := Option.map_eq_some_iff.mp copied
    have ends : copier.finish storage = (finished, after) := ends
    have ok : copier.errorCode = 0 := by
      by_contra failed
      have stays := SnapshotCopier.finish_failed failed storage
      rw [ends] at stays
      exact failed (stays.symm.trans finishedOk)
    obtain ⟨writer, hasWriter, _⟩ := SnapshotCopier.download_writes downloaded ok
    obtain ⟨finishedIff, isReader⟩ := SnapshotCopier.finish_ok ok hasWriter storage
    rw [ends] at finishedIff isReader
    have closes := finishedIff.mp finishedOk
    have loads := isReader closes
    rw [hasReader, Option.bind_some, hasMeta] at loads
    split at loads
    · rename_i reads
      obtain ⟨sameFirst, sameAnswered⟩ := holds copier storage writer loaded downloaded ok
        hasWriter closes reads loads.symm accepts
      refine ⟨loaded, snapshot, isLoaded, ?_, calls, sameFirst, ?_⟩
      · rw [sameFirst, lastIndex, lastTerm]
        rfl
      · rw [sameFirst, sameAnswered]
    · exact absurd loads (by simp)

def formerSnapshot : SnapshotMeta Nat := { lastIncludedIndex := 3, lastIncludedTerm := 1 }

/-- An executor on `snapshot_3` whose meta file can no longer be written once
the download is over. -/
def olderSnapshot (failing : Nat) : SnapshotExecutor Nat :=
  { lastSnapshotIndex := 3
    lastSnapshotTerm := 1
    term := 2
    snapshotStorage :=
      { lastSnapshotIndex := 3
        refMap := [(3, 1)]
        fs :=
          { snapshots := [(3, { metaFile := some { snapshotMeta := some formerSnapshot } })]
            faults := fun call => if call = failing then some .untouched else none } } }

def sentSnapshot : SnapshotMeta Nat := { lastIncludedIndex := 5, lastIncludedTerm := 2 }

def sentRequest : InstallSnapshotRequest Nat :=
  { term := 2, snapshotMeta := sentSnapshot, uri := "remote://" }

/-- The state machine loads snapshot 3 and the executor records snapshot 5. -/
theorem olderSnapshot_loaded :
    ¬ InstallSound (olderSnapshot 7) sentRequest sentSnapshot
      { metaTable := some { snapshotMeta := some sentSnapshot } }
      { lastAppliedId := { index := 3, term := 1 } } := by
  intro sound
  obtain ⟨loaded, recorded, isLoaded, sameId, _, _, _⟩ := sound _ _ rfl rfl
  obtain rfl : formerSnapshot = loaded := Option.some.inj isLoaded
  exact absurd sameId (by decide)

end SnapshotExecutor

end QuorumKit
