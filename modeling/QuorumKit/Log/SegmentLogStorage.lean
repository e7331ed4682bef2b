/-
The segmented log, `class SegmentLogStorage` of `braft/log.cpp`.

The closed segments are kept as the ascending list that `std::map` iterates
over.  The field `openSeg` is `_open_segment`; `openSegment` is the method that
creates it and rolls over to the next one.  `save_meta` replaces one file
atomically, so the first log index is the saved record of the disk.
-/

import QuorumKit.Log.Segment

namespace QuorumKit

open Library

/-- `_segments[segment->first_index()] = segment`. -/
def insertSegment (segment : Segment) : List Segment → List Segment
  | [] => [segment]
  | head :: rest =>
      if segment.firstIndex < head.firstIndex then segment :: head :: rest
      else if segment.firstIndex = head.firstIndex then segment :: rest
      else head :: insertSegment segment rest

def eraseSegment (firstIndex : Int) (segments : List Segment) : List Segment :=
  segments.filter (fun segment => segment.firstIndex ≠ firstIndex)

structure SegmentLogStorage where
  firstLogIndex : Int := 1
  lastLogIndex : Int := 0
  segments : List Segment := []
  openSeg : Option Segment := none
  checksumType : Nat := 0
  enableSync : Bool := true
  fs : LogFs

namespace SegmentLogStorage

def fresh (disk : LogDisk) (checksumType : Nat) (enableSync : Bool) : SegmentLogStorage :=
  { checksumType := checksumType, enableSync := enableSync, fs := { disk := disk } }

def saveMeta (storage : SegmentLogStorage) (logIndex : Int) : Int × SegmentLogStorage :=
  match storage.fs.perform (.save logIndex) with
  | (true, fs) => (0, { storage with fs := fs })
  | (false, fs) => (-1, { storage with fs := fs })

def createSegment (storage : SegmentLogStorage) : Int × SegmentLogStorage :=
  let segment := Segment.newOpen (storage.lastLogIndex + 1) storage.checksumType
  match segment.create storage.fs with
  | (ret, segment, fs) =>
      if ret = 0 then (0, { storage with openSeg := some segment, fs := fs })
      else (ret, { storage with openSeg := none, fs := fs })

/-- The second half of `open_segment`: a segment above the size limit is closed
and a new one created; a failure reverts to the old segment. -/
def rollOver (flags : LogFlags) (storage : SegmentLogStorage) (prev : Segment) :
    Bool × SegmentLogStorage :=
  let (ret, prev, fs) := prev.close flags storage.enableSync storage.fs
  if ret = 0 then
    let (ret, created) := createSegment
      { storage with segments := insertSegment prev storage.segments, fs := fs }
    if ret = 0 then (true, created)
    else
      (false,
        { created with
          segments := eraseSegment prev.firstIndex created.segments
          openSeg := some prev })
  else
    (false,
      { storage with
        segments := eraseSegment prev.firstIndex storage.segments
        openSeg := some prev
        fs := fs })

/-- `open_segment`: `false` where the source returns a null pointer. -/
def openSegment (flags : LogFlags) (storage : SegmentLogStorage) :
    Bool × SegmentLogStorage :=
  match storage.openSeg with
  | none =>
      let (ret, storage) := createSegment storage
      (ret = 0, storage)
  | some prev =>
      if flags.raftMaxSegmentSize < prev.bytes then rollOver flags storage prev
      else (true, storage)

section Append

variable {P : Type} [DecidableEq P] (codec : EntryCodec P) (flags : LogFlags)

/-- One round of the loop of `append_entries`; `false` where it returns. -/
def appendOne (storage : SegmentLogStorage) (entry : LogEntry P Bytes) :
    Bool × SegmentLogStorage :=
  match openSegment flags storage with
  | (false, storage) => (false, storage)
  | (true, storage) =>
      match storage.openSeg with
      | none => (false, storage)
      | some segment =>
          let (ret, segment, fs) := segment.append codec entry storage.fs
          let storage := { storage with openSeg := some segment, fs := fs }
          if ret ≠ 0 then (false, storage)
          else (true, { storage with lastLogIndex := storage.lastLogIndex + 1 })

/-- The loop of `append_entries`: the number of entries appended and whether the
loop ran to its end. -/
def appendLoop : List (LogEntry P Bytes) → SegmentLogStorage →
    Nat × Bool × SegmentLogStorage
  | [], storage => (0, true, storage)
  | entry :: rest, storage =>
      match appendOne codec flags storage entry with
      | (false, storage) => (0, false, storage)
      | (true, storage) =>
          let (appended, finished, storage) := appendLoop rest storage
          (appended + 1, finished, storage)

/-- The `sync` after the loop, whose result is dropped. -/
def syncLastSegment (storage : SegmentLogStorage) (hasConf : Bool) : SegmentLogStorage :=
  match storage.openSeg with
  | none => storage
  | some lastSegment =>
      let (_, lastSegment, fs) :=
        lastSegment.sync flags storage.enableSync hasConf storage.fs
      { storage with openSeg := some lastSegment, fs := fs }

def appendEntries (storage : SegmentLogStorage) (entries : List (LogEntry P Bytes)) :
    Int × SegmentLogStorage :=
  match entries with
  | [] => (0, storage)
  | front :: _ =>
      if storage.lastLogIndex + 1 ≠ front.id.index then (-1, storage)
      else
        match appendLoop codec flags entries storage with
        | (appended, false, storage) => (appended, storage)
        | (_, true, storage) =>
            let hasConf := entries.any (fun entry => entry.type = .configuration)
            (entries.length, syncLastSegment flags storage hasConf)

end Append

/-- `pop_segments` of `truncate_prefix`. -/
def popSegments (storage : SegmentLogStorage) (firstIndexKept : Int) :
    List Segment × SegmentLogStorage :=
  let popped := storage.segments.takeWhile (fun segment => segment.lastIndex < firstIndexKept)
  let kept := storage.segments.dropWhile (fun segment => segment.lastIndex < firstIndexKept)
  let storage := { storage with firstLogIndex := firstIndexKept, segments := kept }
  if kept.isEmpty then
    match storage.openSeg with
    | some segment =>
        if segment.lastIndex < firstIndexKept then
          (popped ++ [segment],
            { storage with openSeg := none, lastLogIndex := firstIndexKept - 1 })
        else (popped, storage)
    | none => (popped, { storage with lastLogIndex := firstIndexKept - 1 })
  else (popped, storage)

def unlinkAll : List Segment → LogFs → LogFs
  | [], fs => fs
  | segment :: rest, fs => unlinkAll rest (segment.unlink fs).2

def truncatePrefix (storage : SegmentLogStorage) (firstIndexKept : Int) :
    Int × SegmentLogStorage :=
  if firstIndexKept ≤ storage.firstLogIndex then (0, storage)
  else
    match storage.saveMeta firstIndexKept with
    | (ret, storage) =>
        if ret ≠ 0 then (-1, storage)
        else
          let (popped, storage) := storage.popSegments firstIndexKept
          (0, { storage with fs := unlinkAll popped storage.fs })

/-- `pop_segments_from_back`: the popped segments, newest first, and the
segment that holds the last index kept. -/
def popSegmentsFromBack (storage : SegmentLogStorage) (lastIndexKept : Int) :
    List Segment × Option Segment × SegmentLogStorage :=
  let storage := { storage with lastLogIndex := lastIndexKept }
  let popClosed (popped : List Segment) (storage : SegmentLogStorage) :=
    let popped := popped ++
      storage.segments.reverse.takeWhile (fun segment => lastIndexKept < segment.firstIndex)
    let kept := popped.foldl
      (fun segments segment => eraseSegment segment.firstIndex segments) storage.segments
    match kept.getLast? with
    | some last => (popped, some last, { storage with segments := kept })
    | none =>
        (popped, none,
          { storage with segments := kept, firstLogIndex := lastIndexKept + 1 })
  match storage.openSeg with
  | some segment =>
      if segment.firstIndex ≤ lastIndexKept then ([], some segment, storage)
      else popClosed [segment] { storage with openSeg := none }
  | none => popClosed [] storage

/-- The unlinks of `truncate_suffix` stop at the first failure. -/
def unlinkFromBack : Int → List Segment → LogFs → Int × LogFs
  | ret, [], fs => (ret, fs)
  | _, segment :: rest, fs =>
      match segment.unlink fs with
      | (ret, fs) => if ret ≠ 0 then (ret, fs) else unlinkFromBack ret rest fs

/-- The last step of `truncate_suffix`: a closed segment that was reopened
moves from the map to `_open_segment`. -/
def truncateLastSegment (storage : SegmentLogStorage) (lastSegment : Segment)
    (lastIndexKept : Int) : Int × SegmentLogStorage :=
  match lastSegment.truncate lastIndexKept storage.fs with
  | (ret, truncated, fs) =>
      if lastSegment.isOpen then
        (ret, { storage with openSeg := some truncated, fs := fs })
      else if ret = 0 ∧ truncated.isOpen then
        (ret,
          { storage with
            segments := eraseSegment truncated.firstIndex storage.segments
            openSeg := some truncated
            fs := fs })
      else
        (ret, { storage with segments := insertSegment truncated storage.segments, fs := fs })

def truncateSuffix (storage : SegmentLogStorage) (lastIndexKept : Int) :
    Int × SegmentLogStorage :=
  let (popped, lastSegment, storage) := storage.popSegmentsFromBack lastIndexKept
  match lastSegment with
  | none =>
      let (ret, fs) := unlinkFromBack (-1) popped storage.fs
      (ret, { storage with fs := fs })
  | some lastSegment =>
      if storage.firstLogIndex ≤ storage.lastLogIndex then
        let (ret, fs) := unlinkFromBack (-1) popped storage.fs
        let storage := { storage with fs := fs }
        if popped ≠ [] ∧ ret ≠ 0 then (ret, storage)
        else storage.truncateLastSegment lastSegment lastIndexKept
      else
        -- truncate_prefix and truncate_suffix together discard the whole log
        let storage :=
          { storage with
            segments := eraseSegment lastSegment.firstIndex storage.segments
            openSeg := none }
        let (ret, fs) := unlinkFromBack (-1) (popped ++ [lastSegment]) storage.fs
        (ret, { storage with fs := fs })

/-- `reset`: the new first index is saved before the old files are removed. -/
def reset (storage : SegmentLogStorage) (nextLogIndex : Int) : Int × SegmentLogStorage :=
  if nextLogIndex ≤ 0 then (EINVAL, storage)
  else
    let popped := storage.segments ++ storage.openSeg.toList
    let storage :=
      { storage with
        segments := []
        openSeg := none
        firstLogIndex := nextLogIndex
        lastLogIndex := nextLogIndex - 1 }
    match storage.saveMeta nextLogIndex with
    | (ret, storage) =>
        if ret ≠ 0 then (-1, storage)
        else (0, { storage with fs := unlinkAll popped storage.fs })

/-- `load_meta`: `none` is a missing file, `ENOENT`. -/
def loadMeta (storage : SegmentLogStorage) : Option SegmentLogStorage :=
  storage.fs.disk.saved.map (fun first => { storage with firstLogIndex := first })

/-- The directory scan of `list_segments`. -/
def scanDirectory (isEmpty : Bool) : List FileName → SegmentLogStorage →
    Int × SegmentLogStorage
  | [], storage => (0, storage)
  | name :: rest, storage =>
      match classifyName isEmpty name.render with
      | .unneeded =>
          scanDirectory isEmpty rest
            { storage with fs := (storage.fs.perform (.unlink name)).2 }
      | .closedSegment firstIndex lastIndex =>
          let segment := Segment.newClosed firstIndex lastIndex storage.checksumType
          scanDirectory isEmpty rest
            { storage with segments := insertSegment segment storage.segments }
      | .openSegment firstIndex =>
          match storage.openSeg with
          | none =>
              let segment := Segment.newOpen firstIndex storage.checksumType
              scanDirectory isEmpty rest { storage with openSeg := some segment }
          | some _ => (-1, storage)
      | .ignored => scanDirectory isEmpty rest storage

/-- The check of the closed segments in `list_segments`: the segments kept and
the last log index, `-1` while none was kept. -/
def checkSegments (firstLogIndex : Int) : List Segment → Int → LogFs →
    Int × List Segment × Int × LogFs
  | [], lastLogIndex, fs => (0, [], lastLogIndex, fs)
  | segment :: rest, lastLogIndex, fs =>
      if segment.lastIndex < segment.firstIndex then
        (-1, segment :: rest, lastLogIndex, fs)
      else if lastLogIndex ≠ -1 ∧ segment.firstIndex ≠ lastLogIndex + 1 then
        (-1, segment :: rest, lastLogIndex, fs)
      else if lastLogIndex = -1 ∧ firstLogIndex < segment.firstIndex then
        (-1, segment :: rest, lastLogIndex, fs)
      else if lastLogIndex = -1 ∧ segment.lastIndex < firstLogIndex then
        checkSegments firstLogIndex rest lastLogIndex (segment.unlink fs).2
      else
        let (ret, kept, last, fs) := checkSegments firstLogIndex rest segment.lastIndex fs
        (ret, segment :: kept, last, fs)

/-- `list_segments`.  A hole before the open segment is only a warning; the
final check on the open segment ends the process. -/
def listSegments (isEmpty : Bool) (storage : SegmentLogStorage) : Int × SegmentLogStorage :=
  match scanDirectory isEmpty (storage.fs.disk.names.map Prod.fst) storage with
  | (ret, storage) =>
      if ret ≠ 0 then (ret, storage)
      else
        let (ret, kept, lastLogIndex, fs) :=
          checkSegments storage.firstLogIndex storage.segments (-1) storage.fs
        let storage := { storage with segments := kept, fs := fs }
        if ret ≠ 0 then (ret, storage)
        else
          match storage.openSeg with
          | some segment =>
              if segment.lastIndex < lastLogIndex then (-1, storage) else (0, storage)
          | none => (0, storage)

section Recover

variable {P : Type} [DecidableEq P] (codec : EntryCodec P) (flags : LogFlags)

/-- The first loop of `load_segments`. -/
def loadClosed : List Segment → Int → ConfigurationManager P → LogFs →
    Int × List Segment × Int × ConfigurationManager P × LogFs
  | [], lastLogIndex, manager, fs => (0, [], lastLogIndex, manager, fs)
  | segment :: rest, lastLogIndex, manager, fs =>
      match segment.load codec flags manager fs with
      | (ret, segment, manager, fs) =>
          if ret ≠ 0 then (ret, segment :: rest, lastLogIndex, manager, fs)
          else
            let (ret, loaded, lastLogIndex, manager, fs) :=
              loadClosed rest segment.lastIndex manager fs
            (ret, segment :: loaded, lastLogIndex, manager, fs)

/-- The last lines of `load_segments`. -/
def fixLastLogIndex (storage : SegmentLogStorage) : SegmentLogStorage :=
  if storage.lastLogIndex = 0 then
    { storage with lastLogIndex := storage.firstLogIndex - 1 }
  else storage

def loadSegments (storage : SegmentLogStorage) (manager : ConfigurationManager P) :
    Int × SegmentLogStorage × ConfigurationManager P :=
  match loadClosed codec flags storage.segments storage.lastLogIndex manager storage.fs with
  | (ret, loaded, lastLogIndex, manager, fs) =>
      let storage :=
        { storage with segments := loaded, lastLogIndex := lastLogIndex, fs := fs }
      if ret ≠ 0 then (ret, storage, manager)
      else
        match storage.openSeg with
        | none => (0, storage.fixLastLogIndex, manager)
        | some segment =>
            match segment.load codec flags manager storage.fs with
            | (ret, segment, manager, fs) =>
                let storage := { storage with openSeg := some segment, fs := fs }
                if ret ≠ 0 then (ret, storage, manager)
                else if segment.lastIndex < storage.firstLogIndex then
                  let discarded :=
                    { storage with openSeg := none, fs := (segment.unlink storage.fs).2 }
                  (0, discarded.fixLastLogIndex, manager)
                else
                  (0, { storage with lastLogIndex := segment.lastIndex }.fixLastLogIndex,
                    manager)

/-- `init`, after the directory and the checksum type have been set up. -/
def init (storage : SegmentLogStorage) (manager : ConfigurationManager P) :
    Int × SegmentLogStorage × ConfigurationManager P :=
  let recover (isEmpty : Bool) (storage : SegmentLogStorage) :=
    match listSegments isEmpty storage with
    | (ret, storage) =>
        if ret ≠ 0 then (ret, storage, manager)
        else loadSegments codec flags storage manager
  match storage.loadMeta with
  | some storage => recover false storage
  | none =>
      match recover true storage with
      | (_, storage, manager) =>
          match { storage with firstLogIndex := 1, lastLogIndex := 0 }.saveMeta 1 with
          | (ret, storage) => (ret, storage, manager)

end Recover

/-- `get_segment`: the open segment, or the last closed one at or before the
index. -/
def getSegment (storage : SegmentLogStorage) (index : Int) : Option Segment :=
  if storage.firstLogIndex = storage.lastLogIndex + 1 then none
  else if index < storage.firstLogIndex ∨ storage.lastLogIndex < index then none
  else
    match storage.openSeg with
    | some segment =>
        if segment.firstIndex ≤ index then some segment
        else (storage.segments.filter (fun segment => segment.firstIndex ≤ index)).getLast?
    | none => (storage.segments.filter (fun segment => segment.firstIndex ≤ index)).getLast?

def getEntry {P : Type} (codec : EntryCodec P) (storage : SegmentLogStorage)
    (index : Int) : Option (LogEntry P Bytes) :=
  match storage.getSegment index with
  | some segment => segment.get codec index storage.fs.disk
  | none => none

def getTerm (storage : SegmentLogStorage) (index : Int) : Nat :=
  match storage.getSegment index with
  | some segment => segment.getTerm index
  | none => 0

end SegmentLogStorage

end QuorumKit
