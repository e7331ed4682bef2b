/-
A filtered copy down to the files, `LocalSnapshotCopier::copy` of
`braft/snapshot.cpp` with `filter_before_copy_remote`.

The directories are trees here: file names have several components while a
directory reader only returns the names of one level.  Of a file it is kept
where its bytes come from.  The calls of the file system work wherever the tree
lets them; the downloads and the sync of the filtered table may fail.
-/

import QuorumKit.Library.FileTree
import QuorumKit.Snapshot.SnapshotCopier

namespace QuorumKit
namespace FilteredCopy

open Library (Path FileTree)

def metaFileName : String := "__raft_snapshot_meta"

/-- Relative paths in normal form that stay clear of the meta file and of the
`.tmp` file it is written through. -/
def Named (path : Path) : Prop :=
  path ≠ [] ∧ path.head? ≠ some metaFileName ∧ path.head? ≠ some (metaFileName ++ ".tmp") ∧
    ∀ component ∈ path, component ≠ "" ∧ component ≠ "." ∧ component ≠ ".."

instance (path : Path) : Decidable (Named path) := by
  unfold Named; infer_instance

structure FileName where
  path : Path
  named : Named path
deriving DecidableEq

/-- The file map of `LocalSnapshotMetaTable`. -/
structure FileTable where
  files : List (FileName × LocalFileMeta) := []
  nodup : (files.map Prod.fst).Nodup := by first | exact List.nodup_nil | decide

namespace FileTable

def getFileMeta (table : FileTable) (filename : FileName) : Option LocalFileMeta :=
  table.files.lookup filename

def listFiles (table : FileTable) : List FileName := table.files.map Prod.fst

def lists (table : FileTable) (path : Path) : Prop :=
  ∃ filename ∈ table.listFiles, filename.path = path

instance (table : FileTable) (path : Path) : Decidable (table.lists path) := by
  unfold lists; infer_instance

def removeFile (table : FileTable) (filename : FileName) : FileTable where
  files := table.files.filter (fun entry => entry.1 ≠ filename)
  nodup := table.nodup.sublist (List.filter_sublist.map Prod.fst)

theorem absent (table : FileTable) (filename : FileName)
    (missing : table.getFileMeta filename = none) : filename ∉ table.listFiles := by
  intro member
  have found := (Library.lookup_isSome_iff table.files filename).mpr member
  rw [getFileMeta] at missing
  rw [missing] at found
  cases found

/-- `add_file`: `-1` when the file is already in the table. -/
def addFile (table : FileTable) (filename : FileName) (fileMeta : LocalFileMeta) :
    Int × FileTable :=
  if missing : table.getFileMeta filename = none then
    (0,
      { files := (filename, fileMeta) :: table.files
        nodup := List.nodup_cons.mpr ⟨table.absent filename missing, table.nodup⟩ })
  else (-1, table)

end FileTable

inductive Origin where
  | left
  | linked
  | copied
deriving DecidableEq, Repr

inductive MetaFile where
  | absent
  | unreadable
  | table (files : FileTable)

/-- What an earlier copy left in `temp`. -/
structure LeftDirectory where
  metaFile : MetaFile := .absent
  files : List Path := []
  dirs : List Path := []

namespace LeftDirectory

def tree (left : LeftDirectory) : FileTree Origin where
  files := left.files.map (fun path => (path, .left))
  dirs := left.dirs

def recorded (left : LeftDirectory) : FileTable :=
  match left.metaFile with
  | .table files => files
  | _ => {}

end LeftDirectory

structure LastSnapshot where
  index : Nat
  positive : 0 < index := by decide
  metaTable : Option FileTable := some {}
  tree : FileTree Unit := {}

structure RemoteTable where
  index : Nat
  files : FileTable

structure CopyRun where
  left : LeftDirectory := {}
  lastSnapshot : Option LastSnapshot := none
  metaCancelled : Bool := false
  metaStatus : Int := 0
  /-- The parsed meta file; `none` is a bad format. -/
  metaTable : Option RemoteTable
  fileSession : FileName → FileSession := fun _ => .joined 0
  /-- Result of the sync at the end of `filter_before_copy`. -/
  filterSync : Bool := true

structure Writer where
  table : FileTable := {}
  tree : FileTree Origin := {}

/-- `LocalSnapshotWriter::init`: what the root directory shows and the table
does not list is removed, unless it is a directory that is not empty. -/
def Writer.init (left : LeftDirectory) : Option Writer :=
  match left.metaFile with
  | .unreadable => none
  | _ =>
      let toRemove := left.tree.topLevel.filter (fun path => ¬ left.recorded.lists path)
      some { table := left.recorded, tree := toRemove.foldl FileTree.delete left.tree }

structure FilterState where
  table : FileTable
  toRemove : List FileName
  tree : FileTree Origin

def keepLinked (filename : FileName) (toRemove : List FileName) : List FileName :=
  if toRemove.getLast? = some filename then toRemove.dropLast else toRemove

/-- A file of the last snapshot with the same checksum is linked, or only added
to the table when it is a reference. -/
def reuseFile (lastTable : FileTable) (lastTree : FileTree Unit) (filename : FileName)
    (checksum : Option String) (state : FilterState) : FilterState :=
  match lastTable.getFileMeta filename with
  | none => state
  | some localMeta =>
      if localMeta.checksum ≠ checksum then state
      else if localMeta.source = .fileSourceLocal then
        let cleared := state.tree.delete filename.path
        match lastTree.link cleared filename.path .linked with
        | none => { state with tree := cleared }
        | some tree =>
            { table := (state.table.addFile filename localMeta).2
              toRemove := keepLinked filename state.toRemove
              tree := tree }
      else { state with table := (state.table.addFile filename localMeta).2 }

/-- The file is to be copied again, from the last snapshot or from the remote one. -/
def FilterState.drop (state : FilterState) (filename : FileName) : FilterState :=
  { state with
    table := state.table.removeFile filename
    toRemove := state.toRemove ++ [filename] }

def reuseLast (lastSnapshot : Option (FileTable × FileTree Unit)) (filename : FileName)
    (checksum : Option String) (state : FilterState) : FilterState :=
  match lastSnapshot with
  | none => state
  | some (lastTable, lastTree) => reuseFile lastTable lastTree filename checksum state

/-- One remote file in the loop of `filter_before_copy`. -/
def filterFile (lastSnapshot : Option (FileTable × FileTree Unit)) (state : FilterState)
    (remoteFile : FileName × LocalFileMeta) : FilterState :=
  let (filename, remoteMeta) := remoteFile
  if remoteMeta.checksum.isNone then state.drop filename
  else
    match state.table.getFileMeta filename with
    | some localMeta =>
        if localMeta.checksum = remoteMeta.checksum then state
        else reuseLast lastSnapshot filename remoteMeta.checksum (state.drop filename)
    | none => reuseLast lastSnapshot filename remoteMeta.checksum state

def obsolete (remote table : FileTable) : List FileName :=
  table.listFiles.filter (fun filename => (remote.getFileMeta filename).isNone)

def filterBeforeCopy (remote : FileTable)
    (lastSnapshot : Option (FileTable × FileTree Unit)) (writer : Writer) : Writer :=
  let filtered := remote.files.foldl (filterFile lastSnapshot)
    { table := (obsolete remote writer.table).foldl FileTable.removeFile writer.table
      toRemove := obsolete remote writer.table
      tree := writer.tree }
  { table := filtered.table
    tree := (filtered.toRemove.map FileName.path).foldl FileTree.delete filtered.tree }

namespace CopyRun

/-- `open` of the last snapshot: a reader needs its meta table. -/
def openReader (run : CopyRun) : Option (FileTable × FileTree Unit) :=
  run.lastSnapshot.bind (fun last => last.metaTable.map (fun table => (table, last.tree)))

/-- `filter`: `none` when no writer can be made.  When the filtered table cannot
be written `temp` is destroyed and a new writer made. -/
def filter (run : CopyRun) (remote : FileTable) : Option Writer :=
  match Writer.init run.left with
  | none => none
  | some writer =>
      if run.filterSync then some (filterBeforeCopy remote run.openReader writer)
      else Writer.init {}

end CopyRun

structure Copier where
  errorCode : Int := 0
  writer : Writer

namespace Copier

def ok (copier : Copier) : Bool := copier.errorCode = 0

def setError (copier : Copier) (code : Int) : Copier := { copier with errorCode := code }

/-- The end of `copy_file`, once the download has been joined. -/
def addCopied (errorCode : Int) (writer : Writer) (filename : FileName)
    (fileMeta : LocalFileMeta) (status : Int) : Copier :=
  if status ≠ 0 then { errorCode := status, writer := writer }
  else
    match writer.table.addFile filename fileMeta with
    | (rc, table) =>
        { errorCode := if rc ≠ 0 then EIO else errorCode
          writer := { writer with table := table } }

/-- `copy_file`.  A directory that cannot be created is an error, but the
download still starts; its file is opened first. -/
def copyFile (run : CopyRun) (remote : FileTable) (copier : Copier) (filename : FileName) :
    Copier :=
  if (copier.writer.table.getFileMeta filename).isSome then copier
  else
    match FileTree.makeDirectories (FileTree.ancestors filename.path) copier.writer.tree with
    | (created, tree) =>
        let copier : Copier :=
          { errorCode := if created then copier.errorCode else EEXIST
            writer := { copier.writer with tree := tree } }
        match run.fileSession filename with
        | .cancelled => copier.setError ECANCELED
        | .notStarted => copier.setError (-1)
        | .joined status =>
            match tree.openFile filename.path .copied with
            | none => copier.setError (-1)
            | some tree =>
                addCopied copier.errorCode { copier.writer with tree := tree } filename
                  ((remote.getFileMeta filename).getD {}) status

/-- The loop over the remote files, which stops at the first error. -/
def copyFiles (run : CopyRun) (remote : FileTable) : List FileName → Copier → Copier
  | [], copier => copier
  | filename :: rest, copier =>
      if copier.ok then copyFiles run remote rest (copyFile run remote copier filename)
      else copier

end Copier

/-- The snapshot directory that a copy leaves; its meta file is the table of the
remote snapshot. -/
structure Installed where
  index : Nat
  tree : FileTree Origin

namespace CopyRun

def lastIndex (run : CopyRun) : Nat := (run.lastSnapshot.map LastSnapshot.index).getD 0

/-- `close(writer)` of a writer without error: a snapshot with the index of the
last one is not installed, which `close` does not report. -/
def close (run : CopyRun) (remote : RemoteTable) (writer : Writer) : Option Installed :=
  if remote.index = run.lastIndex then none
  else some { index := remote.index, tree := writer.tree }

/-- `copy`: the error code of the copier and the directory it installs. -/
def copy (run : CopyRun) : Int × Option Installed :=
  if run.metaCancelled then (ECANCELED, none)
  else if run.metaStatus ≠ 0 then (run.metaStatus, none)
  else
    match run.metaTable with
    | none => (-1, none)
    | some remote =>
        match run.filter remote.files with
        | none => ( EIO, none)
        | some writer =>
            let copier :=
              Copier.copyFiles run remote.files remote.files.listFiles { writer := writer }
            if copier.ok then (0, run.close remote copier.writer)
            else (copier.errorCode, none)

end CopyRun

end FilteredCopy
end QuorumKit
