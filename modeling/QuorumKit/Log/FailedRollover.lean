/-
A rollover to a new segment that fails half-way.

`open_segment` reverts to the full segment when it cannot be closed or the next one cannot be
created.  All entries stay readable.  `close` however marks the segment as closed before the
rename, and a segment that came back in this state takes no entry any more; only a failed fsync
leaves it open.
-/

import QuorumKit.Log.AppendSync
import QuorumKit.Log.StorageAgreement

namespace QuorumKit

open Library

namespace SegmentLogStorage

def repaired (storage : SegmentLogStorage) : SegmentLogStorage :=
  { storage with fs := { storage.fs with faults := fun _ => none } }

@[simp] theorem repaired_lastLogIndex (storage : SegmentLogStorage) :
    storage.repaired.lastLogIndex = storage.lastLogIndex := rfl

section Rollover

variable {P : Type} (codec : EntryCodec P) (flags : LogFlags)

/-- Once the fault has disappeared, the next entry is appended behind those that are there. -/
def TakesNext [DecidableEq P] (storage : SegmentLogStorage) : Prop :=
  ∀ entry : LogEntry P Bytes, entry.Writable codec →
    (entry.id.index : Int) = storage.lastLogIndex + 1 →
      ∃ after, storage.repaired.appendEntries codec flags [entry] = (1, after) ∧
        after.lastLogIndex = storage.lastLogIndex + 1 ∧
        after.getEntry codec entry.id.index = some entry.stored ∧
        ∀ index, index ≤ storage.lastLogIndex →
          after.getEntry codec index = storage.getEntry codec index

structure Restored [DecidableEq P] (storage failed : SegmentLogStorage) : Prop where
  readable : ∀ index, failed.getEntry codec index = storage.getEntry codec index
  takesNext : TakesNext codec flags failed

/-- `close` makes an fsync, and it fails. -/
def CloseFsyncFails (storage : SegmentLogStorage) (prev : Segment) : Prop :=
  (prev.firstIndex < prev.lastIndex ∧ flags.raftSyncSegments ∧ storage.enableSync) ∧
    ∃ count, storage.fs.faults storage.fs.clock = some count

/-- `rename` keeps the content of every inode, whether it fails or not. -/
theorem rename_content (fs : LogFs) (old new : FileName) :
    (fs.rename old new).2.disk.content = fs.disk.content := by
  unfold FileSystem.rename FileSystem.perform
  cases fs.disk.lookup old with
  | none => rfl
  | some inode =>
      cases fs.faults fs.clock with
      | none => exact Disk.content_rename fs.disk old new
      | some count => rfl

theorem close_renames {prev : Segment} (isOpen : prev.isOpen = true) {storage : SegmentLogStorage}
    {fs : LogFs} (synced : (if prev.firstIndex < prev.lastIndex ∧ flags.raftSyncSegments ∧
      storage.enableSync then Segment.raftFsync prev.fd storage.fs else (0, storage.fs)) = (0, fs))
    (content : fs.disk.content = storage.fs.disk.content) :
    ∃ ret after, prev.close flags storage.enableSync storage.fs =
        (ret, { prev with isOpen := false }, after) ∧
      after.disk.content = storage.fs.disk.content := by
  have kept := rename_content fs (.inprogress prev.firstIndex)
    (.closed prev.firstIndex prev.lastIndex)
  unfold Segment.close
  rw [if_neg (not_not.mpr isOpen), synced]
  simp only
  rw [if_pos trivial]
  cases outcome : fs.rename (.inprogress prev.firstIndex)
      (.closed prev.firstIndex prev.lastIndex) with
  | mk renamed after =>
      rw [outcome] at kept
      cases renamed with
      | true => exact ⟨0, after, rfl, kept.trans content⟩
      | false => exact ⟨-1, after, rfl, kept.trans content⟩

theorem close_outcome {prev : Segment} (isOpen : prev.isOpen = true) {inode : Nat}
    (fd : prev.fd = some inode) (storage : SegmentLogStorage) :
    (CloseFsyncFails flags storage prev ∧
        prev.close flags storage.enableSync storage.fs = (-1, prev, storage.fs.fail)) ∨
      ¬ CloseFsyncFails flags storage prev ∧ ∃ ret fs,
        prev.close flags storage.enableSync storage.fs =
            (ret, { prev with isOpen := false }, fs) ∧
          fs.disk.content = storage.fs.disk.content := by
  by_cases syncs : prev.firstIndex < prev.lastIndex ∧ flags.raftSyncSegments ∧ storage.enableSync
  · cases fault : storage.fs.faults storage.fs.clock with
    | some count =>
        left
        refine ⟨⟨syncs, count, fault⟩, ?_⟩
        have failed : Segment.raftFsync prev.fd storage.fs = (-1, storage.fs.fail) := by
          simp [Segment.raftFsync, fd, FileSystem.perform, fault]
        unfold Segment.close
        rw [if_neg (not_not.mpr isOpen), if_pos syncs, failed]
        simp only
        rw [if_neg (by decide)]
    | none =>
        right
        have synced : Segment.raftFsync prev.fd storage.fs =
            (0, storage.fs.record (.fsync inode)) := by
          simp [Segment.raftFsync, fd, FileSystem.perform, fault]
        have behind : (if prev.firstIndex < prev.lastIndex ∧ flags.raftSyncSegments ∧
            storage.enableSync then Segment.raftFsync prev.fd storage.fs else (0, storage.fs)) =
              (0, storage.fs.record (.fsync inode)) := (if_pos syncs).trans synced
        refine ⟨?_, close_renames flags isOpen behind rfl⟩
        rintro ⟨_, count, fails⟩
        rw [fault] at fails
        contradiction
  · right
    exact ⟨fun fails => syncs fails.1, close_renames flags isOpen (if_neg syncs) rfl⟩

/-- The segments, the indexes and the files are as they were, but for the state of the open
segment and the names of the files. -/
structure Reverted (storage : SegmentLogStorage) (prev : Segment) (failed : SegmentLogStorage)
    (isOpen : Bool) : Prop where
  first : failed.firstLogIndex = storage.firstLogIndex
  last : failed.lastLogIndex = storage.lastLogIndex
  segments : failed.segments = storage.segments
  openSeg : failed.openSeg = some { prev with isOpen := isOpen }
  checksumType : failed.checksumType = storage.checksumType
  content : failed.fs.disk.content = storage.fs.disk.content

theorem eraseSegment_behind {prev : Segment} {segments : List Segment}
    (behind : ∀ other ∈ segments, other.firstIndex < prev.firstIndex) :
    eraseSegment prev.firstIndex segments = segments := by
  unfold eraseSegment
  rw [List.filter_eq_self]
  intro other member
  have before := behind other member
  rw [decide_eq_true_eq]
  omega

theorem erase_insertSegment {prev : Segment} {segments : List Segment}
    (behind : ∀ other ∈ segments, other.firstIndex < prev.firstIndex) :
    eraseSegment prev.firstIndex (insertSegment prev segments) = segments := by
  have kept := eraseSegment_behind behind
  unfold eraseSegment at kept ⊢
  rw [insertSegment_last behind, List.filter_append, kept]
  simp

theorem rollOver_reverts {storage failed : SegmentLogStorage} {prev : Segment}
    (isOpen : prev.isOpen = true) {inode : Nat} (fd : prev.fd = some inode)
    (behind : ∀ other ∈ storage.segments, other.firstIndex < prev.firstIndex)
    (fails : storage.rollOver flags prev = (false, failed)) :
    (CloseFsyncFails flags storage prev ∧ Reverted storage prev failed true ∧
        failed.fs.disk = storage.fs.disk) ∨
      ¬ CloseFsyncFails flags storage prev ∧ Reverted storage prev failed false := by
  unfold rollOver at fails
  rcases close_outcome flags isOpen fd storage with
    ⟨fsync, closes⟩ | ⟨noFsync, ret, fs, closes, content⟩
  · left
    rw [closes] at fails
    simp only at fails
    rw [if_neg (by decide)] at fails
    cases fails
    have same : prev = { prev with isOpen := true } := by rw [← isOpen]
    exact ⟨fsync, ⟨rfl, rfl, eraseSegment_behind behind, congrArg some same, rfl, rfl⟩, rfl⟩
  · right
    refine ⟨noFsync, ?_⟩
    have behindClosed : ∀ other ∈ storage.segments,
        other.firstIndex < ({ prev with isOpen := false } : Segment).firstIndex := behind
    rw [closes] at fails
    simp only at fails
    by_cases renamed : ret = 0
    · rw [if_pos renamed] at fails
      cases fault : fs.faults fs.clock with
      | none =>
          rw [createSegment_ok fault] at fails
          simp only at fails
          rw [if_pos trivial] at fails
          cases fails
      | some count =>
          rw [createSegment_fails fault] at fails
          simp only at fails
          rw [if_neg (by decide)] at fails
          cases fails
          exact ⟨rfl, rfl, erase_insertSegment behindClosed, rfl, rfl, content⟩
    · rw [if_neg renamed] at fails
      cases fails
      exact ⟨rfl, rfl, eraseSegment_behind behindClosed, rfl, rfl, content⟩

theorem Reverted.getEntry {storage failed : SegmentLogStorage} {prev : Segment} {isOpen : Bool}
    (reverted : Reverted storage prev failed isOpen) (opened : storage.openSeg = some prev)
    (index : Int) : failed.getEntry codec index = storage.getEntry codec index := by
  have sameGet (segment : Segment) :
      segment.get codec index failed.fs.disk = segment.get codec index storage.fs.disk := by
    unfold Segment.get
    rw [reverted.content]
  have sameOpen : ({ prev with isOpen := isOpen } : Segment).get codec index storage.fs.disk =
      prev.get codec index storage.fs.disk := rfl
  unfold SegmentLogStorage.getEntry getSegment
  rw [reverted.first, reverted.last, reverted.segments, reverted.openSeg, opened]
  by_cases empty : storage.firstLogIndex = storage.lastLogIndex + 1
  · simp only [if_pos empty]
  simp only [if_neg empty]
  by_cases outside : index < storage.firstLogIndex ∨ storage.lastLogIndex < index
  · simp only [if_pos outside]
  simp only [if_neg outside]
  by_cases inOpen : prev.firstIndex ≤ index
  · simp only [if_pos inOpen]
    exact (sameGet _).trans sameOpen
  · simp only [if_neg inOpen]
    cases (storage.segments.filter (fun segment => segment.firstIndex ≤ index)).getLast? with
    | none => rfl
    | some segment => exact sameGet segment

variable {codec}

theorem Reverted.stands {storage failed : SegmentLogStorage} {prev : Segment} {layout : Layout}
    (reverted : Reverted storage prev failed true) (opened : storage.openSeg = some prev)
    (isOpen : prev.isOpen = true) (disk : failed.fs.disk = storage.fs.disk)
    (stands : Stands codec storage.repaired layout) : Stands codec failed.repaired layout := by
  have sameOpen : failed.openSeg = storage.openSeg := by
    rw [reverted.openSeg, opened, ← isOpen]
  have represents := stands.represents
  have known := stands.known
  refine ⟨⟨?_, ?_, ?_, ?_, ?_⟩, stands.sound, stands.consistent, rfl, ⟨?_, ?_⟩⟩
  · exact reverted.first.trans represents.first
  · exact reverted.last.trans represents.last
  · change List.Forall₂ (SegmentHolds codec failed.fs.disk false) failed.segments _
    rw [disk, reverted.segments]
    exact represents.closed
  · change List.Forall₂ (SegmentHolds codec failed.fs.disk true) failed.openSeg.toList _
    rw [disk, sameOpen]
    exact represents.opened
  · change OnDisk codec failed.fs.disk layout
    rw [disk]
    exact represents.onDisk
  · change failed.checksumType < 2
    rw [reverted.checksumType]
    exact known.own
  · intro segment member
    change segment ∈ failed.segments ++ failed.openSeg.toList at member
    rw [reverted.segments, sameOpen] at member
    exact known.segments segment member

variable [DecidableEq P]

theorem takesNext_of_stands {storage : SegmentLogStorage} {layout : Layout}
    (stands : Stands codec storage.repaired layout) : TakesNext codec flags storage := by
  intro entry writable next
  obtain ⟨after, afterLayout, records, appends, afterStands, encoded, live⟩ :=
    stands.appendEntries flags (List.cons_ne_nil entry [])
      (by
        intro other member
        rw [List.mem_singleton.mp member]
        exact writable)
      (by
        intro position other found
        have isHead : position = 0 := by
          simpa using (List.getElem?_eq_some_iff.mp found).1
        subst isHead
        rw [List.getElem?_cons_zero, Option.some_inj] at found
        rw [← found]
        simpa using next)
  obtain ⟨record, encodes, isRecords⟩ : ∃ record, Record.Encodes codec entry record ∧
      records = [record] := by
    cases encoded with
    | cons head tail =>
        cases tail with
        | nil => exact ⟨_, head, rfl⟩
  rw [isRecords] at live
  have stop := Layout.live_stop stands.consistent stands.sound.first
  have afterStop := Layout.live_stop afterStands.consistent afterStands.sound.first
  have last : storage.lastLogIndex = layout.lastLogIndex := stands.represents.last
  have afterLast := afterStands.represents.last
  rw [live, IndexedLog.append_stop, List.length_singleton] at afterStop
  refine ⟨after, appends, by omega, ?_, ?_⟩
  · have atStop : (entry.id.index : Int).toNat - layout.live.stop = 0 := by omega
    rw [afterStands.getEntry, Layout.liveAt, if_neg (by omega), live, IndexedLog.get?_append,
      if_neg (by omega), atStop]
    exact Record.toEntry_ofEntry? codec encodes rfl
  · intro index inside
    have same : afterLayout.liveAt index = layout.liveAt index := by
      unfold Layout.liveAt
      by_cases negative : index < 0
      · rw [if_pos negative, if_pos negative]
      · rw [if_neg negative, if_neg negative, live, IndexedLog.get?_append_of_lt _ (by omega)]
    rw [afterStands.getEntry, same, ← stands.getEntry]
    rfl

theorem not_takesNext {storage : SegmentLogStorage} {segment : Segment}
    (opened : storage.openSeg = some segment) (notOpen : segment.isOpen = false)
    (positive : 0 ≤ storage.lastLogIndex) (room : storage.lastLogIndex + 2 < 2 ^ 63) :
    ¬ TakesNext codec flags storage := by
  intro takes
  have isIndex : (((storage.lastLogIndex + 1).toNat : Nat) : Int) = storage.lastLogIndex + 1 := by
    omega
  generalize (storage.lastLogIndex + 1).toNat = index at isIndex
  obtain ⟨after, appends, _⟩ := takes { type := .noOp, id := ⟨index, 1⟩, data := [] }
    ⟨⟨[], rfl, by decide⟩, Nat.one_lt_two_pow (by decide), by simp only; omega⟩ isIndex
  have stops := appendOne_notOpen codec flags
    (show storage.repaired.openSeg = some segment from opened) notOpen
    { type := .noOp, id := ⟨index, 1⟩, data := [] }
  unfold appendEntries at appends
  simp only at appends
  rw [repaired_lastLogIndex, if_neg (not_not.mpr isIndex.symm)] at appends
  unfold appendLoop at appends
  cases outcome : appendOne codec flags storage.repaired
      { type := .noOp, id := ⟨index, 1⟩, data := [] } with
  | mk appended middle =>
      rw [outcome] at stops appends
      simp only at stops
      rw [stops] at appends
      have noEntry : (0 : Int) = 1 := (Prod.ext_iff.mp appends).1
      omega

end Rollover

def smallSegments : LogFlags := { raftMaxSegmentSize := 0, raftSyncSegments := true }

/-- A storage with one full segment of two entries whose next call but `skipped` ones fails. -/
def faultAfter (skipped : Nat) : SegmentLogStorage :=
  let storage := (startedPair.segment.appendEntries plainCodec {} [noOpEntry 1, noOpEntry 2]).2
  { storage with
    fs := { storage.fs with
      faults := fun clock => if clock = storage.fs.clock + skipped then some 0 else none } }

theorem noOpEntry_writable {index : Nat} (bounded : index + 1 < 2 ^ 63) :
    (noOpEntry index).Writable plainCodec :=
  ⟨⟨[], rfl, by decide⟩, by change 1 < 2 ^ 63; decide, bounded⟩

theorem Restored.takes {flags : LogFlags} {storage failed : SegmentLogStorage}
    (restored : Restored plainCodec flags storage failed) {index : Nat}
    (bounded : index + 1 < 2 ^ 63) (next : (index : Int) = failed.lastLogIndex + 1) :
    (failed.repaired.appendEntries plainCodec flags [noOpEntry index]).1 ≠ 0 := by
  have ⟨after, appends, _⟩ :=
    restored.takesNext (noOpEntry index) (noOpEntry_writable bounded) next
  rw [appends]
  exact one_ne_zero

theorem faultAfter_stands (skipped : Nat) :
    ∃ layout, Stands plainCodec (faultAfter skipped).repaired layout := by
  obtain ⟨layout, stands, _⟩ := stands_init plainCodec {} (show 0 < 2 by decide) true .init
  obtain ⟨after, afterLayout, _, appends, afterStands, _⟩ :=
    stands.appendEntries {} (show [noOpEntry 1, noOpEntry 2] ≠ [] by simp)
      (by
        intro entry member
        rcases List.mem_cons.mp member with rfl | member
        · exact noOpEntry_writable (by decide)
        · rw [List.mem_singleton.mp member]
          exact noOpEntry_writable (by decide))
      (by
        intro position entry found
        cases position with
        | zero =>
            cases found
            decide
        | succ position =>
            cases position with
            | zero =>
                cases found
                decide
            | succ position => simp at found)
  have isAfter : (faultAfter skipped).repaired = after := by
    have same : (startedPair.segment.appendEntries plainCodec {} [noOpEntry 1, noOpEntry 2]).2 =
        after := congrArg Prod.snd appends
    rw [← same]
    rfl
  rw [isAfter]
  exact ⟨afterLayout, afterStands⟩

/-- The open segment of `faultAfter`. -/
def fullSegment : Segment := (faultAfter 0).openSeg.getD (Segment.newOpen 1 0)

end SegmentLogStorage

end QuorumKit
