/-
The file service of a snapshot, `braft/file_service.cpp`, `braft/file_reader.cpp`
and the reader of `braft/snapshot.cpp`.

The files do not change while they are read.  How a buffer is cut into blocks,
what a throttle grants and which request the reader has served before are
parameters of each call.
-/

import QuorumKit.Errno
import QuorumKit.Snapshot.FileSegData

namespace QuorumKit

open Library (Bytes)

structure GetFileRequest where
  filename : String
  count : Nat
  offset : Nat
  readPartly : Bool

structure GetFileResponse where
  eof : Bool
  readSize : Nat
  attachment : Bytes

/-- `throttled_by_throughput`; without a throttle nothing is held back. -/
def throttledByThroughput (throttle : Option Nat) (maxCount : Nat) : Nat :=
  match throttle with
  | none => maxCount
  | some granted => min granted maxCount

theorem throttledByThroughput_le (throttle : Option Nat) (maxCount : Nat) :
    throttledByThroughput throttle maxCount ≤ maxCount := by
  cases throttle with
  | none => exact Nat.le_refl maxCount
  | some granted => exact Nat.min_le_right granted maxCount

/-- The state of `LocalDirReader` between two reads. -/
structure LocalDirReader where
  isReading : Bool := false
  currentFilename : String := ""
  eofReached : Bool := true

/-- `read_file_with_meta`: the bytes read and whether they end the file. -/
def LocalDirReader.readFileWithMeta (reader : LocalDirReader) (files : List (String × Bytes))
    (filename : String) (offset maxCount : Nat) :
    Except Int (Bytes × Bool) × LocalDirReader :=
  if reader.isReading then (.error EAGAIN, reader)
  else if filename ≠ reader.currentFilename ∧ (¬ reader.eofReached ∨ offset ≠ 0) then
    (.error EINVAL, reader)
  else
    match files.lookup filename with
    | none => (.error ENOENT, { reader with currentFilename := "" })
    | some file =>
        let data := (file.drop offset).take maxCount
        let eof : Bool := data.length < maxCount ∨ file.length = offset + maxCount
        (.ok (data, eof), { reader with currentFilename := filename, eofReached := eof })

/-- `SnapshotFileReader`.  A serialized table has less than 2 GiB and a file
offset is a signed 64-bit number. -/
structure SnapshotFileReader where
  metaFileName : String := "__raft_snapshot_meta"
  metaTable : Bytes := []
  listed : List String := []
  files : List (String × Bytes) := []
  metaFits : metaTable.length < 2 ^ 31 := by decide
  filesFit : ∀ file ∈ files, file.2.length < 2 ^ 63 := by decide

namespace SnapshotFileReader

/-- `read_file`: the meta table is sent whole, a file goes through the throttle. -/
def readFile (snapshot : SnapshotFileReader) (reader : LocalDirReader)
    (throttle : Option Nat) (request : GetFileRequest) :
    Except Int (Bytes × Bool) × LocalDirReader :=
  if request.filename = snapshot.metaFileName then (.ok (snapshot.metaTable, true), reader)
  else if request.filename ∉ snapshot.listed then (.error EPERM, reader)
  else
    let newMaxCount := throttledByThroughput throttle request.count
    if newMaxCount < request.count ∧ (¬ request.readPartly ∨ newMaxCount = 0) then
      (.error EAGAIN, reader)
    else
      reader.readFileWithMeta snapshot.files request.filename request.offset newMaxCount

def source (snapshot : SnapshotFileReader) (filename : String) : Bytes :=
  if filename = snapshot.metaFileName then snapshot.metaTable
  else (snapshot.files.lookup filename).getD []

end SnapshotFileReader

def chop : List Nat → Bytes → List Bytes
  | _, [] => []
  | [], bytes => [bytes]
  | size :: rest, bytes => bytes.take (size + 1) :: chop rest (bytes.drop (size + 1))

/-- `is_zero`: the first word is zero and the block equals itself moved by a word. -/
def isZero (block : Bytes) : Bool :=
  let size := block.length
  if 8 ≤ size then block.take 8 = List.replicate 8 0 ∧ block.take (size - 8) = block.drop 8
  else if 0 < size then block.take 1 = [0] ∧ block.take (size - 1) = block.drop 1
  else false

/-- The loop of `get_file` under `raft_file_check_hole`. -/
def appendBlocks (seg : FileSegData) : Nat → List Bytes → FileSegData
  | _, [] => seg
  | offset, block :: rest =>
      appendBlocks (if isZero block then seg else seg.append block offset)
        (offset + block.length) rest

structure FileService where
  fileCheckHole : Bool := false
  snapshot : SnapshotFileReader

namespace FileService

def attachment (service : FileService) (offset : Nat) (blocks : List Bytes) : Bytes :=
  if blocks.flatten = [] then []
  else if service.fileCheckHole then (appendBlocks {} offset blocks).close.data
  else (FileSegData.append {} blocks.flatten offset).close.data

/-- `get_file` for a reader that is registered. -/
def getFile (service : FileService) (reader : LocalDirReader) (throttle : Option Nat)
    (sizes : List Nat) (request : GetFileRequest) :
    Except Int GetFileResponse × LocalDirReader :=
  if request.count = 0 then (.error EREQUEST, reader)
  else
    match service.snapshot.readFile reader throttle request with
    | (.error rc, reader) => (.error rc, reader)
    | (.ok (data, eof), reader) =>
        (.ok
          { eof := eof
            readSize := data.length
            attachment := service.attachment request.offset (chop sizes data) }, reader)

end FileService

end QuorumKit
