/-
The local snapshot storage, `LocalSnapshotStorage` of `braft/snapshot.cpp`.

A storage directory holds one directory `temp` under construction and the
directories `snapshot_<index>`.  A directory is its meta file and the names of
its data files; the contents of the data files are never looked at here.  Every
call of the file system adaptor can fail, and a recursive deletion that fails
may have destroyed the content of its directory.
-/

import QuorumKit.Errno
import QuorumKit.LogEntry

namespace QuorumKit

/-- `SnapshotMeta` of `raft.proto`. -/
structure SnapshotMeta (P : Type) where
  lastIncludedIndex : Nat
  lastIncludedTerm : Nat
  peers : List P := []
  oldPeers : List P := []
deriving DecidableEq, Repr

def SnapshotMeta.id {P : Type} (snapshot : SnapshotMeta P) : LogId :=
  { index := snapshot.lastIncludedIndex, term := snapshot.lastIncludedTerm }

inductive FileSource where
  | fileSourceLocal
  | fileSourceReference
deriving DecidableEq, Repr

structure LocalFileMeta where
  source : FileSource := .fileSourceLocal
  checksum : Option String := none
deriving DecidableEq, Repr

/-- `LocalSnapshotMetaTable`; the file map is kept in the order of its keys. -/
structure MetaTable (P : Type) where
  snapshotMeta : Option (SnapshotMeta P) := none
  fileMap : List (String × LocalFileMeta) := []
deriving DecidableEq, Repr

namespace MetaTable

variable {P : Type}

def getFileMeta (table : MetaTable P) (filename : String) : Option LocalFileMeta :=
  table.fileMap.lookup filename

def insertFile (filename : String) (fileMeta : LocalFileMeta) :
    List (String × LocalFileMeta) → List (String × LocalFileMeta)
  | [] => [(filename, fileMeta)]
  | head :: rest =>
      if filename < head.1 then (filename, fileMeta) :: head :: rest
      else head :: insertFile filename fileMeta rest

/-- `add_file`: `-1` when the file is already in the table. -/
def addFile (table : MetaTable P) (filename : String) (fileMeta : LocalFileMeta) :
    Int × MetaTable P :=
  match table.getFileMeta filename with
  | some _ => (-1, table)
  | none => (0, { table with fileMap := insertFile filename fileMeta table.fileMap })

def removeFile (table : MetaTable P) (filename : String) : MetaTable P :=
  { table with fileMap := table.fileMap.filter (fun entry => entry.1 ≠ filename) }

def listFiles (table : MetaTable P) : List String := table.fileMap.map Prod.fst

end MetaTable

structure SnapshotDir (P : Type) where
  metaFile : Option (MetaTable P) := none
  files : List String := []
deriving DecidableEq, Repr

inductive SnapshotFault where
  | untouched
  | destroyed
deriving DecidableEq, Repr

structure SnapshotFs (P : Type) where
  temp : Option (SnapshotDir P) := none
  snapshots : List (Nat × SnapshotDir P) := []
  clock : Nat := 0
  faults : Nat → Option SnapshotFault := fun _ => none

namespace SnapshotFs

variable {P : Type}

def lookup (fs : SnapshotFs P) (index : Nat) : Option (SnapshotDir P) :=
  fs.snapshots.lookup index

def tick (fs : SnapshotFs P) : SnapshotFs P := { fs with clock := fs.clock + 1 }

def call (fs : SnapshotFs P) : Bool × SnapshotFs P :=
  ((fs.faults fs.clock).isNone, fs.tick)

/-- `count` calls, up to the first one that fails. -/
def calls : Nat → SnapshotFs P → Bool × SnapshotFs P
  | 0, fs => (true, fs)
  | count + 1, fs =>
      match fs.call with
      | (true, fs) => calls count fs
      | (false, fs) => (false, fs)

/-- The next `count` calls all work. -/
def Works (fs : SnapshotFs P) (count : Nat) : Prop :=
  ∀ step, step < count → fs.faults (fs.clock + step) = none

instance (fs : SnapshotFs P) (count : Nat) : Decidable (fs.Works count) := by
  unfold Works; infer_instance

def eraseSnapshot (fs : SnapshotFs P) (index : Nat) : List (Nat × SnapshotDir P) :=
  fs.snapshots.filter (fun entry => entry.1 ≠ index)

/-- `create_directory` of `temp`. -/
def createTemp (fs : SnapshotFs P) : Bool × SnapshotFs P :=
  match fs.call with
  | (true, fs) => (true, { fs with temp := some (fs.temp.getD {}) })
  | (false, fs) => (false, fs)

/-- `delete_file(temp, true)`. -/
def deleteTemp (fs : SnapshotFs P) : Bool × SnapshotFs P :=
  match fs.faults fs.clock with
  | none => (true, { fs.tick with temp := none })
  | some .untouched => (false, fs.tick)
  | some .destroyed => (false, { fs.tick with temp := fs.temp.map (fun _ => {}) })

/-- `delete_file(snapshot_<index>, true)`; deleting a missing directory works. -/
def deleteSnapshot (fs : SnapshotFs P) (index : Nat) : Bool × SnapshotFs P :=
  match fs.faults fs.clock with
  | none => (true, { fs.tick with snapshots := fs.eraseSnapshot index })
  | some .untouched => (false, fs.tick)
  | some .destroyed =>
      (false,
        { fs.tick with
          snapshots := fs.snapshots.map (fun entry =>
            if entry.1 = index then (index, {}) else entry) })

/-- `rename(temp, snapshot_<index>)` onto a name that is free. -/
def renameTemp (fs : SnapshotFs P) (index : Nat) : Bool × SnapshotFs P :=
  match fs.call, fs.temp with
  | (true, after), some dir =>
      match fs.lookup index with
      | none => (true, { after with temp := none, snapshots := (index, dir) :: fs.snapshots })
      | some _ => (false, after)
  | (_, after), _ => (false, after)

/-- Deletion of one data file of `temp`, whose result is dropped. -/
def deleteTempFile (fs : SnapshotFs P) (filename : String) : SnapshotFs P :=
  match fs.call with
  | (true, fs) =>
      { fs with
        temp := fs.temp.map (fun dir =>
          { dir with files := dir.files.filter (fun name => name ≠ filename) }) }
  | (false, fs) => fs

/-- Creation of one data file of `temp`. -/
def addTempFile (fs : SnapshotFs P) (filename : String) : SnapshotFs P :=
  { fs with temp := fs.temp.map (fun dir => { dir with files := dir.files ++ [filename] }) }

/-- The adaptor calls of `ProtoBufFile::save`: open, two writes, a sync when the
flag asks for it, rename. -/
def saveCalls (raftSyncMeta : Bool) : Nat := if raftSyncMeta then 5 else 4

/-- `save_to_file` in `temp`: any failing call leaves the old meta file. -/
def saveMetaFile (fs : SnapshotFs P) (raftSyncMeta : Bool) (table : MetaTable P) :
    Int × SnapshotFs P :=
  match fs.temp with
  | none => (-1, fs.tick)
  | some dir =>
      match fs.calls (saveCalls raftSyncMeta) with
      | (true, fs) => (0, { fs with temp := some { dir with metaFile := some table } })
      | (false, fs) => (-1, fs)

/-- `load_from_file`: open and two reads. -/
def loadMetaFile (fs : SnapshotFs P) (dir : SnapshotDir P) :
    Option (MetaTable P) × SnapshotFs P :=
  match dir.metaFile with
  | none => (none, fs.tick)
  | some table =>
      match fs.calls 3 with
      | (true, fs) => (some table, fs)
      | (false, fs) => (none, fs)

end SnapshotFs

/-- `LocalSnapshotWriter` on `temp`; `errorCode` is its status. -/
structure SnapshotWriter (P : Type) where
  errorCode : Int := 0
  metaTable : MetaTable P := {}
deriving DecidableEq, Repr

namespace SnapshotWriter

variable {P : Type}

def ok (writer : SnapshotWriter P) : Bool := writer.errorCode = 0

def setError (writer : SnapshotWriter P) (code : Int) : SnapshotWriter P :=
  { writer with errorCode := code }

def snapshotIndex (writer : SnapshotWriter P) : Nat :=
  match writer.metaTable.snapshotMeta with
  | some snapshot => snapshot.lastIncludedIndex
  | none => 0

/-- `save_meta` only changes the table in memory and always returns `0`. -/
def saveMeta (writer : SnapshotWriter P) (snapshot : SnapshotMeta P) :
    Int × SnapshotWriter P :=
  (0, { writer with metaTable := { writer.metaTable with snapshotMeta := some snapshot } })

def sync (writer : SnapshotWriter P) (raftSyncMeta : Bool) (fs : SnapshotFs P) :
    Int × SnapshotWriter P × SnapshotFs P :=
  match fs.saveMetaFile raftSyncMeta writer.metaTable with
  | (rc, fs) =>
      if rc ≠ 0 ∧ writer.ok then (rc, writer.setError rc, fs) else (rc, writer, fs)

/-- `init`: `none` stands for a writer that is deleted again.  Files of the root
directory that the meta table does not list are removed. -/
def init (fs : SnapshotFs P) : Option (SnapshotWriter P) × SnapshotFs P :=
  match fs.createTemp with
  | (false, fs) => (none, fs)
  | (true, fs) =>
      let dir := fs.temp.getD {}
      let (table, fs) :=
        match dir.metaFile with
        | none => (some ({} : MetaTable P), fs)
        | some _ => fs.loadMetaFile dir
      match table with
      | none => (none, fs)
      | some table =>
          match fs.call with
          | (false, fs) => (none, fs)
          | (true, fs) =>
              let toRemove := dir.files.filter (fun name => (table.getFileMeta name).isNone)
              (some { metaTable := table }, toRemove.foldl SnapshotFs.deleteTempFile fs)

end SnapshotWriter

/-- `LocalSnapshotReader` on `snapshot_<index>`. -/
structure SnapshotReader (P : Type) where
  snapshotIndex : Nat
  metaTable : MetaTable P
deriving DecidableEq, Repr

/-- `load_meta`: `none` is the return value `-1`. -/
def SnapshotReader.loadMeta {P : Type} (reader : SnapshotReader P) :
    Option (SnapshotMeta P) :=
  reader.metaTable.snapshotMeta

structure SnapshotStorage (P : Type) where
  filterBeforeCopyRemote : Bool := false
  copyFile : Bool := true
  raftSyncMeta : Bool := true
  lastSnapshotIndex : Nat := 0
  refMap : List (Nat × Nat) := []
  fs : SnapshotFs P := {}

namespace SnapshotStorage

variable {P : Type}

def ref (storage : SnapshotStorage P) (index : Nat) : SnapshotStorage P :=
  { storage with
    refMap := (index, (storage.refMap.lookup index).getD 0 + 1) ::
      storage.refMap.filter (fun entry => entry.1 ≠ index) }

/-- `unref`: the last reference deletes the snapshot, whatever the result. -/
def unref (storage : SnapshotStorage P) (index : Nat) : SnapshotStorage P :=
  match storage.refMap.lookup index with
  | none => storage
  | some count =>
      let others := storage.refMap.filter (fun entry => entry.1 ≠ index)
      if count = 1 then
        { storage with refMap := others, fs := (storage.fs.deleteSnapshot index).2 }
      else { storage with refMap := (index, count - 1) :: others }

/-- `create(from_empty)`. -/
def create (storage : SnapshotStorage P) (fromEmpty : Bool) :
    Option (SnapshotWriter P) × SnapshotStorage P :=
  let (cleaned, fs) :=
    if storage.fs.temp.isSome ∧ fromEmpty then storage.fs.deleteTemp else (true, storage.fs)
  if cleaned then
    match SnapshotWriter.init fs with
    | (writer, fs) => (writer, { storage with fs := fs })
  else (none, { storage with fs := fs })

/-- The steps of `close(writer)` up to the first one that fails. -/
def commitWriter (storage : SnapshotStorage P) (writer : SnapshotWriter P) :
    Int × SnapshotStorage P :=
  if writer.errorCode ≠ 0 then (writer.errorCode, storage)
  else
    match writer.sync storage.raftSyncMeta storage.fs with
    | (ret, writer, fs) =>
        let storage := { storage with fs := fs }
        if ret ≠ 0 then (ret, storage)
        else
          let oldIndex := storage.lastSnapshotIndex
          let newIndex := writer.snapshotIndex
          if newIndex = oldIndex then (EEXIST, storage)
          else
            match storage.fs.deleteSnapshot newIndex with
            | (false, fs) => ( EIO, { storage with fs := fs })
            | (true, fs) =>
                match fs.renameTemp newIndex with
                | (false, fs) => ( EIO, { storage with fs := fs })
                | (true, fs) =>
                    let storage := { storage with fs := fs }.ref newIndex
                    (0, { storage with lastSnapshotIndex := newIndex }.unref oldIndex)

/-- `close(writer, keep_data_on_error)`: only `EIO` is reported. -/
def close (storage : SnapshotStorage P) (writer : SnapshotWriter P)
    (keepDataOnError : Bool) : Int × SnapshotStorage P :=
  match storage.commitWriter writer with
  | (ret, storage) =>
      let storage :=
        if ret ≠ 0 ∧ ¬ keepDataOnError then
          { storage with fs := storage.fs.deleteTemp.2 }
        else storage
      (if ret ≠ EIO then 0 else -1, storage)

/-- `open`: a reader on the last snapshot. -/
def openReader (storage : SnapshotStorage P) :
    Option (SnapshotReader P) × SnapshotStorage P :=
  if storage.lastSnapshotIndex = 0 then (none, storage)
  else
    let index := storage.lastSnapshotIndex
    let storage := storage.ref index
    match storage.fs.lookup index with
    | none => (none, storage.unref index)
    | some dir =>
        match storage.fs.loadMetaFile dir with
        | (none, fs) => (none, { storage with fs := fs }.unref index)
        | (some table, fs) =>
            (some { snapshotIndex := index, metaTable := table }, { storage with fs := fs })

def closeReader (storage : SnapshotStorage P) (reader : SnapshotReader P) :
    SnapshotStorage P :=
  storage.unref reader.snapshotIndex

/-- Deletion of all but the newest snapshot in `init`. -/
def deleteOldSnapshots (storage : SnapshotStorage P) :
    List Nat → Int × SnapshotStorage P
  | [] => (0, storage)
  | [last] => (0, { storage with lastSnapshotIndex := last }.ref last)
  | index :: rest =>
      match storage.fs.deleteSnapshot index with
      | (true, fs) => deleteOldSnapshots { storage with fs := fs } rest
      | (false, fs) => ( EIO, { storage with fs := fs })

/-- `init` of a storage that has just been constructed. -/
def init (storage : SnapshotStorage P) : Int × SnapshotStorage P :=
  match storage.fs.call with
  | (false, fs) => (-1, { storage with fs := fs })
  | (true, fs) =>
      let (cleaned, fs) :=
        if storage.filterBeforeCopyRemote then (true, fs) else fs.deleteTemp
      if cleaned then
        match fs.call with
        | (false, fs) => ( EIO, { storage with fs := fs })
        | (true, fs) =>
            let snapshots := (fs.snapshots.map Prod.fst).mergeSort
            deleteOldSnapshots { storage with fs := fs } snapshots
      else ( EIO, { storage with fs := fs })

end SnapshotStorage

end QuorumKit
