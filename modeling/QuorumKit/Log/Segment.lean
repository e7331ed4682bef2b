/-
One segment file of the log, `class Segment` of `braft/log.cpp`.

Every function takes the file system and returns it with the calls it made.
Return values are the source's integers: `0` for success, `-1` or a positive
errno otherwise.  The table `_offset_and_term` is kept as the source keeps it;
`Segment.Holds` says which records a segment and its file stand for.
-/

import QuorumKit.Errno
import QuorumKit.Library.FileSystem
import QuorumKit.Log.EntryCodec
import QuorumKit.Log.SegmentName

namespace QuorumKit

open Library

inductive RaftSyncPolicy where
  | immediately
  | byBytes
deriving DecidableEq, Repr

/-- The gflags that `log.cpp` reads. -/
structure LogFlags where
  raftSync : Bool := true
  raftSyncPolicy : RaftSyncPolicy := .immediately
  raftSyncPerBytes : Nat := 2 ^ 31 - 1
  raftSyncSegments : Bool := false
  raftMaxSegmentSize : Nat := 8 * 1024 * 1024
  raftRecoverLogFromCorrupt : Bool := false
deriving DecidableEq, Repr

abbrev LogDisk := Disk FileName Int

abbrev LogFs := FileSystem FileName Int

structure Segment where
  firstIndex : Int
  lastIndex : Int
  isOpen : Bool
  bytes : Nat := 0
  unsyncedBytes : Nat := 0
  /-- The inode behind `_fd`, when the file has been opened. -/
  fd : Option Nat := none
  checksumType : Nat
  offsetAndTerm : List (Nat × Nat) := []
deriving DecidableEq, Repr

namespace Segment

def newOpen (firstIndex : Int) (checksumType : Nat) : Segment :=
  { firstIndex := firstIndex, lastIndex := firstIndex - 1, isOpen := true,
    checksumType := checksumType }

def newClosed (firstIndex lastIndex : Int) (checksumType : Nat) : Segment :=
  { firstIndex := firstIndex, lastIndex := lastIndex, isOpen := false,
    checksumType := checksumType }

def fileName (segment : Segment) : FileName :=
  if segment.isOpen then .inprogress segment.firstIndex
  else .closed segment.firstIndex segment.lastIndex

/-- `create`: opens `log_inprogress_<first>` with `O_CREAT | O_TRUNC`. -/
def create (segment : Segment) (fs : LogFs) : Int × Segment × LogFs :=
  if segment.isOpen then
    match fs.create (.inprogress segment.firstIndex) with
    | (some inode, fs) => (0, { segment with fd := some inode }, fs)
    | (none, fs) => (-1, segment, fs)
  else (-1, segment, fs)

section Codec

variable {P : Type} [DecidableEq P] (codec : EntryCodec P) (flags : LogFlags)

/-- What the loop of `load` has established when it ends. -/
structure LoadResult (P : Type) where
  ret : Int
  isEntryCorrupted : Bool
  entryOff : Nat
  offsetAndTerm : List (Nat × Nat)
  manager : ConfigurationManager P

/-- The loop of `load` from byte `entryOff` and index `index` on.  Every round
consumes at least a header, so the file length bounds the number of rounds. -/
def loadLoop (file : Bytes) :
    Nat → Int → Nat → List (Nat × Nat) → ConfigurationManager P → LoadResult P
  | 0, _, entryOff, table, manager => ⟨0, false, entryOff, table, manager⟩
  | fuel + 1, index, entryOff, table, manager =>
      if entryOff < file.length then
        match loadEntry codec file entryOff entryHeaderSize false with
        | .error rc =>
            if 0 < rc then ⟨0, false, entryOff, table, manager⟩
            else ⟨rc, true, entryOff, table, manager⟩
        | .ok (header, _) =>
            let skipLen := entryHeaderSize + header.dataLen
            -- the last entry was not completely written
            if file.length < entryOff + skipLen then ⟨0, false, entryOff, table, manager⟩
            else if header.type = EntryType.configuration.toNat then
              match loadEntry codec file entryOff skipLen true with
              | .error _ => ⟨0, false, entryOff, table, manager⟩
              | .ok (_, data) =>
                  match codec.parseConfiguration data with
                  | none => ⟨-1, false, entryOff, table, manager⟩
                  | some (peers, oldPeers) =>
                      let entry : ConfigurationEntry P :=
                        { id := { index := index.toNat, term := header.term }
                          conf := Configuration.ofList peers
                          oldConf := Configuration.ofList (oldPeers.getD []) }
                      loadLoop file fuel (index + 1) (entryOff + skipLen)
                        (table ++ [(entryOff, header.term)]) (manager.add entry)
            else
              loadLoop file fuel (index + 1) (entryOff + skipLen)
                (table ++ [(entryOff, header.term)]) manager
      else ⟨0, false, entryOff, table, manager⟩

/-- `load`: opens the file, rebuilds the offset table and cuts off a torn last
entry. -/
def load (segment : Segment) (manager : ConfigurationManager P) (fs : LogFs) :
    Int × Segment × ConfigurationManager P × LogFs :=
  match fs.disk.lookup segment.fileName with
  | none => (-1, segment, manager, fs)
  | some inode =>
      let file := fs.disk.content inode
      let result := loadLoop codec file file.length segment.firstIndex 0 [] manager
      let segment := { segment with fd := some inode, offsetAndTerm := result.offsetAndTerm }
      let actualLastIndex : Int :=
        segment.firstIndex - 1 + result.offsetAndTerm.length
      let ret : Int :=
        if result.ret = 0 ∧ ¬ segment.isOpen ∧ actualLastIndex ≠ segment.lastIndex then -1
        else result.ret
      if ret ≠ 0 ∧ (¬ segment.isOpen ∨ ¬ flags.raftRecoverLogFromCorrupt ∨
          ¬ result.isEntryCorrupted) then
        (ret, segment, result.manager, fs)
      else
        let segment :=
          if segment.isOpen then { segment with lastIndex := actualLastIndex } else segment
        let (truncated, fs) :=
          if result.entryOff ≠ file.length then
            fs.perform (.truncate inode result.entryOff)
          else (true, fs)
        let ret : Int := if truncated then 0 else -1
        (ret, { segment with bytes := result.entryOff }, result.manager, fs)

/-- The bookkeeping of `append` under its lock. -/
def grow (segment : Segment) (term size : Nat) : Segment :=
  { segment with
    offsetAndTerm := segment.offsetAndTerm ++ [(segment.bytes, term)]
    lastIndex := segment.lastIndex + 1
    bytes := segment.bytes + size
    unsyncedBytes := segment.unsyncedBytes + size }

/-- `append`: the header and the payload are written in one loop. -/
def append (segment : Segment) (entry : LogEntry P Bytes) (fs : LogFs) :
    Int × Segment × LogFs :=
  if ¬ segment.isOpen then (EINVAL, segment, fs)
  else if (entry.id.index : Int) ≠ segment.lastIndex + 1 then (ERANGE, segment, fs)
  else
    match Record.ofEntry? codec segment.checksumType entry, segment.fd with
    | some record, some inode =>
        let toWrite := record.encode codec
        match fs.write inode toWrite with
        | (false, fs) => (-1, segment, fs)
        | (true, fs) =>
            (0, segment.grow entry.id.term toWrite.length, fs)
    | _, _ => (-1, segment, fs)

end Codec

/-- `raft_fsync`. -/
def raftFsync (fd : Option Nat) (fs : LogFs) : Int × LogFs :=
  match fd with
  | none => (-1, fs)
  | some inode =>
      match fs.perform (.fsync inode) with
      | (true, fs) => (0, fs)
      | (false, fs) => (-1, fs)

def sync (flags : LogFlags) (segment : Segment) (willSync hasConf : Bool) (fs : LogFs) :
    Int × Segment × LogFs :=
  if segment.lastIndex < segment.firstIndex then (0, segment, fs)
  else if willSync then
    if ¬ flags.raftSync then (0, segment, fs)
    else if flags.raftSyncPolicy = .byBytes ∧
        segment.unsyncedBytes < flags.raftSyncPerBytes ∧ ¬ hasConf then
      (0, segment, fs)
    else
      let (ret, fs) := raftFsync segment.fd fs
      (ret, { segment with unsyncedBytes := 0 }, fs)
  else (0, segment, fs)

/-- `close`: a full segment is renamed to its closed name.  A single-entry
segment is never synced here.  Closing a segment that is not open fails a
`CHECK`. -/
def close (flags : LogFlags) (segment : Segment) (willSync : Bool) (fs : LogFs) :
    Int × Segment × LogFs :=
  if ¬ segment.isOpen then (-1, segment, fs)
  else
    let (ret, fs) :=
      if segment.firstIndex < segment.lastIndex ∧ flags.raftSyncSegments ∧ willSync then
        raftFsync segment.fd fs
      else (0, fs)
    if ret = 0 then
      match fs.rename (.inprogress segment.firstIndex)
          (.closed segment.firstIndex segment.lastIndex) with
      | (true, fs) => (0, { segment with isOpen := false }, fs)
      | (false, fs) => (-1, { segment with isOpen := false }, fs)
    else (ret, segment, fs)

/-- `unlink`: renamed to a `.tmp` name at once, which a background thread then
deletes. -/
def unlink (segment : Segment) (fs : LogFs) : Int × LogFs :=
  match fs.rename segment.fileName (.tmp segment.fileName) with
  | (true, fs) => (0, fs)
  | (false, fs) => (-1, fs)

/-- `truncate`: a closed segment becomes an in-progress one before its file is
cut. -/
def truncate (segment : Segment) (lastIndexKept : Int) (fs : LogFs) :
    Int × Segment × LogFs :=
  if segment.lastIndex ≤ lastIndexKept then (0, segment, fs)
  else
    let firstTruncate := (lastIndexKept + 1 - segment.firstIndex).toNat
    let truncateSize := (segment.offsetAndTerm.getD firstTruncate (0, 0)).1
    let (renamed, fs) :=
      if segment.isOpen then (true, fs)
      else fs.rename (.closed segment.firstIndex segment.lastIndex)
        (.inprogress segment.firstIndex)
    if renamed then
      let segment := { segment with isOpen := true }
      match segment.fd with
      | none => (-1, segment, fs)
      | some inode =>
          match fs.perform (.truncate inode truncateSize) with
          | (false, fs) => (-1, segment, fs)
          | (true, fs) =>
              (0,
                { segment with
                  offsetAndTerm := segment.offsetAndTerm.take firstTruncate
                  lastIndex := lastIndexKept
                  bytes := truncateSize },
                fs)
    else (-1, segment, fs)

/-- `_get_meta`: offset, length and term of the entry at an index. -/
def getMeta (segment : Segment) (index : Int) : Option (Nat × Nat × Nat) :=
  if segment.lastIndex < index ∨ index < segment.firstIndex then none
  else
    let metaIndex := (index - segment.firstIndex).toNat
    match segment.offsetAndTerm[metaIndex]? with
    | none => none
    | some (entryCursor, term) =>
        let nextCursor :=
          if index < segment.lastIndex then
            (segment.offsetAndTerm.getD (metaIndex + 1) (segment.bytes, 0)).1
          else segment.bytes
        some (entryCursor, nextCursor - entryCursor, term)

def getTerm (segment : Segment) (index : Int) : Nat :=
  match segment.getMeta index with
  | some (_, _, term) => term
  | none => 0

/-- `get`: the entry is read back from the file. -/
def get {P : Type} (codec : EntryCodec P) (segment : Segment) (index : Int)
    (disk : LogDisk) : Option (LogEntry P Bytes) :=
  match segment.getMeta index, segment.fd with
  | some (offset, length, _), some inode =>
      match loadEntry codec (disk.content inode) offset length true with
      | .error _ => none
      | .ok (header, data) =>
          let id : LogId := { index := index.toNat, term := header.term }
          match EntryType.ofNat? header.type with
          | some .data => some { type := .data, id := id, data := data }
          | some .noOp => some { type := .noOp, id := id, data := [] }
          | some .configuration =>
              match codec.parseConfiguration data with
              | some (peers, oldPeers) =>
                  some { type := .configuration, id := id, peers := some peers,
                         oldPeers := oldPeers, data := [] }
              | none => none
          | _ => none
  | _, _ => none

end Segment

end QuorumKit
