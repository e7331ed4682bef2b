/-
The snapshot copier, `LocalSnapshotCopier` of `braft/snapshot.cpp`.

What the remote side answers and when the copier is cancelled is a parameter of
the run.  The copier writes into `temp`, closes the writer and then opens the
last snapshot of the storage, whichever that is.
-/

import QuorumKit.Snapshot.SnapshotStorage

namespace QuorumKit

inductive FileSession where
  | cancelled
  | notStarted
  | joined (status : Int)
deriving DecidableEq, Repr

structure RemoteSnapshot (P : Type) where
  metaCancelled : Bool := false
  metaStatus : Int := 0
  /-- The parsed meta file; `none` is a bad format. -/
  metaTable : Option (MetaTable P)
  /-- Result of creating the parent directories of a file. -/
  createDirectory : String → Int := fun _ => 0
  fileSession : String → FileSession := fun _ => .joined 0

structure SnapshotCopier (P : Type) where
  errorCode : Int := 0
  remoteSnapshot : MetaTable P := {}
  writer : Option (SnapshotWriter P) := none
  reader : Option (SnapshotReader P) := none

namespace SnapshotCopier

variable {P : Type}

def ok (copier : SnapshotCopier P) : Bool := copier.errorCode = 0

def setError (copier : SnapshotCopier P) (code : Int) : SnapshotCopier P :=
  { copier with errorCode := code }

/-- `load_meta_table`; a table without snapshot meta fails a `CHECK`, which ends
the process. -/
def loadMetaTable (remote : RemoteSnapshot P) : Option (SnapshotCopier P) :=
  if remote.metaCancelled then some { errorCode := ECANCELED }
  else if remote.metaStatus ≠ 0 then some { errorCode := remote.metaStatus }
  else
    match remote.metaTable with
    | none => some { errorCode := -1 }
    | some table =>
        if table.snapshotMeta.isSome then some { remoteSnapshot := table } else none

/-- What the loop of `filter_before_copy` carries. -/
structure FilterState (P : Type) where
  table : MetaTable P
  toRemove : List String
  fs : SnapshotFs P

/-- A file of the last snapshot with the same checksum is linked or referenced. -/
def reuseFile (lastSnapshot : Option (SnapshotReader P)) (filename : String)
    (checksum : Option String) (state : FilterState P) : FilterState P :=
  match lastSnapshot.bind (fun reader => reader.metaTable.getFileMeta filename) with
  | none => state
  | some localMeta =>
      if localMeta.checksum ≠ checksum then state
      else if localMeta.source = .fileSourceLocal then
        match (state.fs.deleteTempFile filename).call with
        | (false, fs) => { state with fs := fs }
        | (true, fs) =>
            { table := (state.table.addFile filename localMeta).2
              toRemove :=
                if state.toRemove.getLast? = some filename then state.toRemove.dropLast
                else state.toRemove
              fs := fs.addTempFile filename }
      else { state with table := (state.table.addFile filename localMeta).2 }

def filterFile (lastSnapshot : Option (SnapshotReader P)) (state : FilterState P)
    (remoteFile : String × LocalFileMeta) : FilterState P :=
  let (filename, remoteMeta) := remoteFile
  let dropped : FilterState P :=
    { state with
      table := state.table.removeFile filename
      toRemove := state.toRemove ++ [filename] }
  if remoteMeta.checksum.isNone then dropped
  else
    match state.table.getFileMeta filename with
    | some localMeta =>
        if localMeta.checksum = remoteMeta.checksum then state
        else reuseFile lastSnapshot filename remoteMeta.checksum dropped
    | none => reuseFile lastSnapshot filename remoteMeta.checksum state

def filterBeforeCopy (remoteSnapshot : MetaTable P) (writer : SnapshotWriter P)
    (lastSnapshot : Option (SnapshotReader P)) (storage : SnapshotStorage P) :
    Int × SnapshotWriter P × SnapshotStorage P :=
  let obsolete := writer.metaTable.listFiles.filter
    (fun name => (remoteSnapshot.getFileMeta name).isNone)
  let filtered := remoteSnapshot.fileMap.foldl (filterFile lastSnapshot)
    { table := obsolete.foldl MetaTable.removeFile writer.metaTable
      toRemove := obsolete
      fs := storage.fs }
  match { writer with metaTable := filtered.table }.sync storage.raftSyncMeta filtered.fs with
  | (rc, writer, fs) =>
      if rc ≠ 0 then (-1, writer, { storage with fs := fs })
      else
        (0, writer,
          { storage with fs := filtered.toRemove.foldl SnapshotFs.deleteTempFile fs })

/-- The writer of `filter`, reusing files when the storage filters before
copying. -/
def createWriter (remoteSnapshot : MetaTable P) (storage : SnapshotStorage P) :
    Option (SnapshotWriter P) × SnapshotStorage P :=
  match storage.create (¬ storage.filterBeforeCopyRemote) with
  | (none, storage) => (none, storage)
  | (some writer, storage) =>
      if storage.filterBeforeCopyRemote then
        match storage.openReader with
        | (reader, storage) =>
            let (writer, storage) :=
              match filterBeforeCopy remoteSnapshot writer reader storage with
              | (rc, writer, storage) =>
                  if rc ≠ 0 then
                    (storage.close (writer.setError (-1)) false).2.create true
                  else (some writer, storage)
            match reader with
            | some reader => (writer, storage.closeReader reader)
            | none => (writer, storage)
      else (some writer, storage)

def filter (copier : SnapshotCopier P) (storage : SnapshotStorage P) :
    SnapshotCopier P × SnapshotStorage P :=
  match createWriter copier.remoteSnapshot storage with
  | (none, storage) => (copier.setError EIO, storage)
  | (some writer, storage) =>
      let writer :=
        match copier.remoteSnapshot.snapshotMeta with
        | some snapshot => (writer.saveMeta snapshot).2
        | none => writer
      match writer.sync storage.raftSyncMeta storage.fs with
      | (rc, writer, fs) =>
          let copier := { copier with writer := some writer }
          (if rc ≠ 0 then copier.setError EIO else copier, { storage with fs := fs })

/-- `copy_file`.  A directory that cannot be created is an error, but the
download still starts. -/
def copyFile (remote : RemoteSnapshot P) (copier : SnapshotCopier P)
    (storage : SnapshotStorage P) (filename : String) :
    SnapshotCopier P × SnapshotStorage P :=
  match copier.writer with
  | none => (copier, storage)
  | some writer =>
      if (writer.metaTable.getFileMeta filename).isSome then (copier, storage)
      else
        let copier :=
          if remote.createDirectory filename ≠ 0 then
            copier.setError (remote.createDirectory filename)
          else copier
        let fileMeta := (copier.remoteSnapshot.getFileMeta filename).getD {}
        match remote.fileSession filename with
        | .cancelled => (copier.setError ECANCELED, storage)
        | .notStarted => (copier.setError (-1), storage)
        | .joined status =>
            if status ≠ 0 then (copier.setError status, storage)
            else
              let fs := storage.fs.addTempFile filename
              match writer.metaTable.addFile filename fileMeta with
              | (rc, table) =>
                  let writer := { writer with metaTable := table }
                  if rc ≠ 0 then
                    ({ copier with writer := some writer }.setError EIO,
                      { storage with fs := fs })
                  else
                    match writer.sync storage.raftSyncMeta fs with
                    | (rc, writer, fs) =>
                        let copier := { copier with writer := some writer }
                        (if rc ≠ 0 then copier.setError EIO else copier,
                          { storage with fs := fs })

/-- The loop over the remote files, which stops at the first error. -/
def copyFiles (remote : RemoteSnapshot P) :
    List String → SnapshotCopier P → SnapshotStorage P → SnapshotCopier P × SnapshotStorage P
  | [], copier, storage => (copier, storage)
  | filename :: rest, copier, storage =>
      if copier.ok then
        match copyFile remote copier storage filename with
        | (copier, storage) => copyFiles remote rest copier storage
      else (copier, storage)

/-- `copy` up to the point where the writer is closed. -/
def download (remote : RemoteSnapshot P) (storage : SnapshotStorage P) :
    Option (SnapshotCopier P × SnapshotStorage P) :=
  match loadMetaTable remote with
  | none => none
  | some copier =>
      if ¬ copier.ok then some (copier, storage)
      else
        match copier.filter storage with
        | (copier, storage) =>
            if ¬ copier.ok ∨ ¬ storage.copyFile then some (copier, storage)
            else some (copyFiles remote copier.remoteSnapshot.listFiles copier storage)

/-- The end of `copy`: the writer is closed, and without an error the last
snapshot is opened. -/
def finish (copier : SnapshotCopier P) (storage : SnapshotStorage P) :
    SnapshotCopier P × SnapshotStorage P :=
  let (copier, storage) :=
    match copier.writer with
    | none => (copier, storage)
    | some writer =>
        let writer :=
          if ¬ copier.ok ∧ writer.ok then writer.setError copier.errorCode else writer
        match storage.close writer storage.filterBeforeCopyRemote with
        | (rc, storage) =>
            let copier := { copier with writer := none }
            (if rc ≠ 0 ∧ copier.ok then copier.setError EIO else copier, storage)
  if copier.ok then
    match storage.openReader with
    | (reader, storage) => ({ copier with reader := reader }, storage)
  else (copier, storage)

/-- `copy`: `none` when the process ends. -/
def copy (remote : RemoteSnapshot P) (storage : SnapshotStorage P) :
    Option (SnapshotCopier P × SnapshotStorage P) :=
  (download remote storage).map (fun copied => copied.1.finish copied.2)

end SnapshotCopier

end QuorumKit
