/-
Appending to a segmented log whose system calls work.

`append_entries` creates the open segment, rolls over to a new one above the
size limit and writes one record behind the other.  Each of these steps is
followed on the storage and on its layout at once, so the storage keeps
standing for a layout, and what it stands for grows by the records written.
-/

import QuorumKit.Library.IndexedLog
import QuorumKit.Log.AppendSync
import QuorumKit.Log.ResetCrash

namespace QuorumKit

open Library

section Steps

variable {P : Type} {codec : EntryCodec P}

/-! ### Segments that an operation leaves alone -/

theorem SegmentHolds.moved {disk after : LogDisk} {isOpen : Bool} {segment : Segment}
    {span : Int × List Record} (holds : SegmentHolds codec disk isOpen segment span)
    (sameLookup : after.lookup segment.fileName = disk.lookup segment.fileName)
    (read : after.read segment.fileName = some (encodeAll codec span.2)) :
    SegmentHolds codec after isOpen segment span := by
  obtain ⟨inode, fd, listed, _⟩ := holds.2.file
  obtain ⟨other, found, content⟩ := read_eq_some read
  rw [sameLookup, listed] at found
  rw [← Option.some.inj found] at content
  exact ⟨holds.1, holds.2.first, holds.2.last, holds.2.bytes, holds.2.table, inode, fd,
    sameLookup.trans listed, content⟩

theorem SegmentHolds.fileName_closed {disk : LogDisk} {segment : Segment}
    {span : Int × List Record} (holds : SegmentHolds codec disk false segment span) :
    segment.fileName = closedName span := by
  have first := holds.2.first
  have last := holds.2.last
  have lastEq : segment.lastIndex = span.1 + span.2.length - 1 := by omega
  simp [Segment.fileName, holds.1, closedName, first, lastEq]

theorem SegmentHolds.fileName_open {disk : LogDisk} {segment : Segment}
    {span : Int × List Record} (holds : SegmentHolds codec disk true segment span) :
    segment.fileName = .inprogress span.1 := by
  simp [Segment.fileName, holds.1, holds.2.first]

theorem closed_moved {disk after : LogDisk} {layout : Layout}
    (onDisk : OnDisk codec after layout) (sound : layout.Sound codec) {segments : List Segment}
    {spans : List (Int × List Record)}
    (holds : List.Forall₂ (SegmentHolds codec disk false) segments spans)
    (listed : ∀ span ∈ spans, span ∈ closedSpans layout.base layout.closed)
    (lookups : ∀ segment ∈ segments,
      after.lookup segment.fileName = disk.lookup segment.fileName) :
    List.Forall₂ (SegmentHolds codec after false) segments spans := by
  induction holds with
  | nil => exact List.Forall₂.nil
  | @cons segment span segments spans head _ ih =>
      refine List.Forall₂.cons (head.moved (lookups segment List.mem_cons_self) ?_)
        (ih (fun other member => listed other (List.mem_cons_of_mem _ member))
          (fun other member => lookups other (List.mem_cons_of_mem _ member)))
      rw [head.fileName_closed]
      exact onDisk.read_closed sound (listed span List.mem_cons_self)

/-! ### Creating, closing and writing the open file -/

/-- The layout of a storage without files starts at its first index. -/
def Layout.rebased (layout : Layout) : Layout :=
  if layout.closed = [] ∧ layout.opened = none then { layout with base := layout.firstLogIndex }
  else layout

def Layout.opening (layout : Layout) : Layout := { layout with opened := some [] }

def Layout.closing (layout : Layout) : Layout :=
  { layout with closed := layout.closed ++ layout.opened.toList, opened := none }

def Layout.writing (layout : Layout) (record : Record) : Layout :=
  { layout with opened := layout.opened.map (fun records => records ++ [record]) }

theorem Layout.files_opened {layout : Layout} {records : List Record}
    (isOpen : layout.opened = some records) :
    layout.files = layout.closedFiles ++ [(.inprogress layout.openFirst, records)] := by
  simp [Layout.files, Layout.closedFiles, isOpen]

theorem Layout.files_notOpened {layout : Layout} (noOpen : layout.opened = none) :
    layout.files = layout.closedFiles := by
  simp [Layout.files, Layout.closedFiles, noOpen]

theorem OnDisk.opening {disk : LogDisk} {layout : Layout} (onDisk : OnDisk codec disk layout)
    (noOpen : layout.opened = none) :
    OnDisk codec (disk.apply (.create (.inprogress layout.openFirst))) layout.opening := by
  have filesBefore := layout.files_notOpened noOpen
  have filesAfter : layout.opening.files =
      layout.closedFiles ++ [(.inprogress layout.openFirst, [])] :=
    layout.opening.files_opened rfl
  have fresh := layout.inprogress_not_closed layout.openFirst
  have read := onDisk.files (.inprogress layout.openFirst) (by simp [FileName.IsTmp])
  have unlisted : layout.closedFiles.lookup (.inprogress layout.openFirst) = none := by
    rw [← Option.not_isSome_iff_eq_none, lookup_isSome_of_map]
    exact fresh
  have missing : disk.lookup (.inprogress layout.openFirst) = none := by
    rw [filesBefore, unlisted] at read
    simpa [Disk.read] using read
  refine ⟨Disk.wellFormed_create _ onDisk.wellFormed, ?_, ?_⟩
  · rw [Disk.saved_create]
    exact onDisk.saved
  · intro name notTmp
    rw [Disk.read_create disk onDisk.wellFormed missing, filesAfter, lookup_concat fresh]
    by_cases same : name = .inprogress layout.openFirst
    · rw [if_pos same, if_pos same]
      rfl
    · rw [if_neg same, if_neg same, onDisk.files name notTmp, filesBefore]

theorem Layout.closing_eq {layout : Layout} {records : List Record}
    (isOpen : layout.opened = some records) :
    layout.closing = { layout with closed := layout.closed ++ [records], opened := none } := by
  simp [Layout.closing, isOpen]

theorem Layout.Sound.closing {layout : Layout} {records : List Record}
    (sound : layout.Sound codec) (isOpen : layout.opened = some records)
    (nonempty : records ≠ []) : layout.closing.Sound codec := by
  have sameRecords : layout.closing.records = layout.records := by
    simp [Layout.closing, Layout.records, isOpen]
  refine ⟨?_, ?_, sound.base, sound.first, ?_⟩
  · intro other member
    rw [Layout.closing_eq isOpen] at member
    rcases List.mem_append.mp member with former | added
    · exact sound.nonempty other former
    · rw [List.mem_singleton.mp added]
      exact nonempty
  · rw [sameRecords]
    exact sound.valid
  · rw [sameRecords]
    exact sound.bound

theorem OnDisk.closing {disk : LogDisk} {layout : Layout} {records : List Record}
    (onDisk : OnDisk codec disk layout) (sound : layout.Sound codec)
    (isOpen : layout.opened = some records) (nonempty : records ≠ []) :
    OnDisk codec
      (disk.apply (.rename (.inprogress layout.openFirst) (closedName (layout.openFirst, records))))
      layout.closing := by
  have filesBefore := layout.files_opened isOpen
  have filesAfter : layout.closing.files =
      layout.closedFiles ++ [(closedName (layout.openFirst, records), records)] := by
    rw [Layout.closing_eq isOpen]
    unfold Layout.files Layout.closedFiles Layout.openFirst
    simp [closedSpans_append, closedSpans]
  have fresh := layout.inprogress_not_closed layout.openFirst
  have keys := Layout.files_nodup (sound.closing isOpen nonempty).nonempty
  rw [filesAfter, List.map_append, List.nodup_append] at keys
  have closedFresh : closedName (layout.openFirst, records) ∉
      layout.closedFiles.map Prod.fst :=
    fun member => keys.2.2 _ member _ (by simp) rfl
  have read := onDisk.files (.inprogress layout.openFirst) (by simp [FileName.IsTmp])
  rw [filesBefore, lookup_concat fresh, if_pos rfl] at read
  obtain ⟨inode, found, _⟩ := read_eq_some read
  refine ⟨Disk.wellFormed_rename _ onDisk.wellFormed, ?_, ?_⟩
  · rw [Disk.saved_rename]
    exact onDisk.saved
  · intro name notTmp
    rw [Disk.read_rename disk found, filesAfter, lookup_concat closedFresh]
    by_cases isNew : name = closedName (layout.openFirst, records)
    · rw [if_pos isNew, if_pos isNew, read]
    · rw [if_neg isNew, if_neg isNew]
      by_cases isOld : name = .inprogress layout.openFirst
      · have missing : layout.closedFiles.lookup name = none := by
          rw [← Option.not_isSome_iff_eq_none, lookup_isSome_of_map, isOld]
          exact fresh
        rw [if_pos isOld, missing]
        rfl
      · rw [if_neg isOld, onDisk.files name notTmp, filesBefore, lookup_concat fresh,
          if_neg isOld]

theorem OnDisk.writing {disk : LogDisk} {layout : Layout} {records : List Record} {inode : Nat}
    (onDisk : OnDisk codec disk layout) (isOpen : layout.opened = some records)
    (found : disk.lookup (.inprogress layout.openFirst) = some inode)
    (content : disk.content inode = encodeAll codec records) (record : Record) :
    OnDisk codec (disk.apply (.write inode (record.encode codec))) (layout.writing record) := by
  have filesBefore := layout.files_opened isOpen
  have filesAfter : (layout.writing record).files =
      layout.closedFiles ++ [(.inprogress layout.openFirst, records ++ [record])] :=
    (layout.writing record).files_opened (by simp [Layout.writing, isOpen])
  have fresh := layout.inprogress_not_closed layout.openFirst
  refine ⟨Disk.wellFormed_setContent _ onDisk.wellFormed, onDisk.saved, ?_⟩
  intro name notTmp
  simp only [Disk.apply]
  rw [content, Disk.read_setContent disk onDisk.wellFormed found, filesAfter, lookup_concat fresh]
  by_cases same : name = .inprogress layout.openFirst
  · rw [if_pos same, if_pos same]
    simp
  · rw [if_neg same, if_neg same, onDisk.files name notTmp, filesBefore, lookup_concat fresh,
      if_neg same]

def Layout.live (layout : Layout) : IndexedLog Record :=
  { first := layout.firstLogIndex.toNat
    entries := layout.records.drop (layout.firstLogIndex - layout.base).toNat }

theorem Layout.live_rebased (layout : Layout) : layout.rebased.live = layout.live := by
  unfold Layout.rebased
  split
  · rename_i noFile
    simp [Layout.live, Layout.records, noFile]
  · rfl

theorem Layout.live_opening {layout : Layout} (noOpen : layout.opened = none) :
    layout.opening.live = layout.live := by
  simp [Layout.live, Layout.opening, Layout.records, noOpen]

theorem Layout.live_closing (layout : Layout) : layout.closing.live = layout.live := by
  cases isOpen : layout.opened <;>
    simp [Layout.live, Layout.closing, Layout.records, isOpen]

theorem Layout.records_writing {layout : Layout} {records : List Record}
    (isOpen : layout.opened = some records) (record : Record) :
    (layout.writing record).records = layout.records ++ [record] := by
  simp [Layout.records, Layout.writing, isOpen]

theorem Layout.live_writing {layout : Layout} {records : List Record}
    (isOpen : layout.opened = some records) (consistent : layout.Consistent) (record : Record) :
    (layout.writing record).live = layout.live.append [record] := by
  have base := consistent.base_le (Or.inr (by simp [isOpen]))
  have last := layout.lastLogIndex_of_file (Or.inr (by simp [isOpen]))
  unfold Layout.live IndexedLog.append
  rw [Layout.records_writing isOpen]
  simp only [Layout.writing, IndexedLog.mk.injEq, true_and]
  exact List.drop_append_of_le_length (by omega)

theorem Layout.Sound.rebased {layout : Layout} (sound : layout.Sound codec)
    (bound : layout.lastLogIndex + 1 < 2 ^ 63) : layout.rebased.Sound codec := by
  unfold Layout.rebased
  split
  · rename_i noFile
    have last : layout.lastLogIndex = layout.firstLogIndex - 1 := by
      simp [Layout.lastLogIndex, noFile]
    have noRecords : layout.records = [] := by simp [Layout.records, noFile]
    refine ⟨sound.nonempty, sound.valid, sound.first, sound.first, ?_⟩
    change layout.firstLogIndex + (layout.records.length : Int) < 2 ^ 63
    rw [noRecords, List.length_nil]
    omega
  · exact sound

theorem Layout.Consistent.rebased {layout : Layout} (consistent : layout.Consistent) :
    layout.rebased.Consistent := by
  unfold Layout.rebased
  split
  · rename_i noFile
    simp [Layout.Consistent, noFile]
  · exact consistent

theorem Represents.rebased {storage : SegmentLogStorage} {layout : Layout}
    (represents : Represents codec storage layout) :
    Represents codec storage layout.rebased := by
  unfold Layout.rebased
  split
  · rename_i noFile
    have closed := represents.closed
    have opened := represents.opened
    have files := represents.onDisk.files
    simp only [Layout.files, noFile, closedSpans] at closed opened files
    refine ⟨represents.first, ?_, ?_, ?_, represents.onDisk.wellFormed, represents.onDisk.saved,
      ?_⟩
    · rw [represents.last]
      simp [Layout.lastLogIndex, noFile]
    · simpa [noFile, closedSpans] using closed
    · simpa [noFile] using opened
    · simpa [Layout.files, noFile, closedSpans] using files
  · exact represents

theorem Layout.Sound.opening {layout : Layout} (sound : layout.Sound codec)
    (noOpen : layout.opened = none) : layout.opening.Sound codec := by
  have sameRecords : layout.opening.records = layout.records := by
    simp [Layout.opening, Layout.records, noOpen]
  refine ⟨sound.nonempty, ?_, sound.base, sound.first, ?_⟩
  · rw [sameRecords]
    exact sound.valid
  · rw [sameRecords]
    exact sound.bound

theorem Layout.Consistent.opening {layout : Layout} (consistent : layout.Consistent)
    (based : layout.closed = [] → layout.base = layout.firstLogIndex) :
    layout.opening.Consistent := by
  cases shape : layout.closed with
  | nil => simp [Layout.Consistent, Layout.opening, shape, based shape]
  | cons records rest => simpa [Layout.Consistent, Layout.opening, shape] using consistent

theorem Layout.Consistent.closing {layout : Layout} {records : List Record}
    (consistent : layout.Consistent) (isOpen : layout.opened = some records)
    (nonempty : records ≠ []) : layout.closing.Consistent := by
  rw [Layout.closing_eq isOpen]
  cases shape : layout.closed with
  | nil =>
      simp only [Layout.Consistent, shape, isOpen] at consistent
      simp only [Layout.Consistent, List.nil_append]
      exact ⟨consistent.1, consistent.2.resolve_right (fun empty => nonempty empty.1)⟩
  | cons head rest => simpa [Layout.Consistent, shape] using consistent

theorem Layout.Sound.writing {layout : Layout} {records : List Record} {record : Record}
    (sound : layout.Sound codec) (isOpen : layout.opened = some records)
    (valid : record.Valid codec) (bound : layout.lastLogIndex + 2 < 2 ^ 63) :
    (layout.writing record).Sound codec := by
  have last := layout.lastLogIndex_of_file (Or.inr (by simp [isOpen]))
  refine ⟨sound.nonempty, ?_, sound.base, sound.first, ?_⟩
  · intro other member
    rw [Layout.records_writing isOpen, List.mem_append, List.mem_singleton] at member
    rcases member with former | rfl
    · exact sound.valid other former
    · exact valid
  · rw [Layout.records_writing isOpen, List.length_append, List.length_singleton]
    change layout.base + ((layout.records.length + 1 : Nat) : Int) < 2 ^ 63
    omega

theorem Layout.Consistent.writing {layout : Layout} {records : List Record}
    (consistent : layout.Consistent) (isOpen : layout.opened = some records) (record : Record) :
    (layout.writing record).Consistent := by
  cases shape : layout.closed with
  | nil =>
      simp only [Layout.Consistent, shape, isOpen] at consistent
      simp only [Layout.Consistent, Layout.writing, shape, isOpen, Option.map_some,
        List.length_append, List.length_singleton]
      exact ⟨consistent.1, Or.inl (by omega)⟩
  | cons head rest => simpa [Layout.Consistent, Layout.writing, shape] using consistent

/-! ### The storage along an append -/

/-- Checksum types that `get_checksum` knows. -/
structure SegmentLogStorage.KnownChecksums (storage : SegmentLogStorage) : Prop where
  own : storage.checksumType < 2
  segments : ∀ segment ∈ storage.allSegments, segment.checksumType < 2

structure Stands (codec : EntryCodec P) (storage : SegmentLogStorage) (layout : Layout) :
    Prop where
  represents : Represents codec storage layout
  sound : layout.Sound codec
  consistent : layout.Consistent
  working : storage.fs.faults = fun _ => none
  known : storage.KnownChecksums

theorem Represents.openSegment {storage : SegmentLogStorage} {layout : Layout}
    {records : List Record} (represents : Represents codec storage layout)
    (isOpen : layout.opened = some records) :
    ∃ segment, storage.openSeg = some segment ∧
      SegmentHolds codec storage.fs.disk true segment (layout.openFirst, records) := by
  have opened := represents.opened
  rw [isOpen] at opened
  cases shape : storage.openSeg with
  | none =>
      rw [shape] at opened
      cases opened
  | some segment =>
      rw [shape] at opened
      cases opened with
      | cons head _ => exact ⟨segment, rfl, head⟩

theorem Represents.notOpen {storage : SegmentLogStorage} {layout : Layout}
    (represents : Represents codec storage layout) (noOpen : layout.opened = none) :
    storage.openSeg = none := by
  have opened := represents.opened
  rw [noOpen] at opened
  cases shape : storage.openSeg with
  | none => rfl
  | some segment =>
      rw [shape] at opened
      cases opened

theorem Layout.lastLogIndex_notOpen {layout : Layout} (noOpen : layout.opened = none)
    (based : layout.closed = [] → layout.base = layout.firstLogIndex) :
    layout.lastLogIndex + 1 = layout.openFirst := by
  by_cases noClosed : layout.closed = []
  · simp [Layout.lastLogIndex, noOpen, noClosed, Layout.openFirst, based noClosed]
  · rw [layout.lastLogIndex_of_file (Or.inl noClosed)]
    simp [Layout.records, noOpen, Layout.openFirst]

theorem Represents.closedNames {storage : SegmentLogStorage} {layout : Layout}
    (represents : Represents codec storage layout) {segment : Segment}
    (member : segment ∈ storage.segments) :
    ∃ span ∈ closedSpans layout.base layout.closed, segment.fileName = closedName span := by
  obtain ⟨span, listed, holds⟩ := forall₂_left represents.closed member
  exact ⟨span, listed, holds.fileName_closed⟩

theorem Stands.createSegment {storage : SegmentLogStorage} {layout : Layout}
    (stands : Stands codec { storage with openSeg := none } layout)
    (noOpen : layout.opened = none)
    (based : layout.closed = [] → layout.base = layout.firstLogIndex) :
    ∃ created, storage.createSegment = (0, created) ∧ Stands codec created layout.opening ∧
      created.lastLogIndex = storage.lastLogIndex := by
  have represents := stands.represents
  have last : storage.lastLogIndex = layout.lastLogIndex := represents.last
  have start : storage.lastLogIndex + 1 = layout.openFirst := by
    rw [last]
    exact Layout.lastLogIndex_notOpen noOpen based
  have works : storage.fs.faults storage.fs.clock = none := by
    have working : storage.fs.faults = fun _ => none := stands.working
    rw [working]
  have created := SegmentLogStorage.createSegment_ok works
  have onDisk := OnDisk.opening represents.onDisk noOpen
  have sound := stands.sound.opening noOpen
  have missing : storage.fs.disk.lookup (.inprogress layout.openFirst) = none := by
    have read := represents.onDisk.files (.inprogress layout.openFirst) (by simp [FileName.IsTmp])
    have unlisted : layout.closedFiles.lookup (.inprogress layout.openFirst) = none := by
      rw [← Option.not_isSome_iff_eq_none, lookup_isSome_of_map]
      exact layout.inprogress_not_closed _
    rw [layout.files_notOpened noOpen, unlisted] at read
    simpa [Disk.read] using read
  have found := Disk.lookup_create storage.fs.disk (.inprogress layout.openFirst)
    (.inprogress layout.openFirst)
  rw [if_pos rfl] at found
  rw [start] at created
  refine ⟨_, created, ⟨⟨represents.first, ?_, ?_, ?_, onDisk⟩, sound, ?_, stands.working, ?_⟩, rfl⟩
  · have openedLast := layout.opening.lastLogIndex_of_file (Or.inr (by simp [Layout.opening]))
    have sameRecords : layout.opening.records = layout.closed.flatten := by
      simp [Layout.opening, Layout.records]
    rw [openedLast, sameRecords]
    change storage.lastLogIndex = layout.base + (layout.closed.flatten.length : Int) - 1
    unfold Layout.openFirst at start
    omega
  · refine closed_moved onDisk sound represents.closed (fun _ member => member) ?_
    intro segment member
    obtain ⟨span, _, named⟩ := represents.closedNames member
    change (storage.fs.disk.apply (.create (.inprogress layout.openFirst))).lookup _ = _
    rw [Disk.lookup_create, if_neg (by rw [named]; simp [closedName])]
  · refine List.Forall₂.cons ⟨rfl, ?_, ?_, rfl, rfl, _, rfl, ?_, ?_⟩ List.Forall₂.nil
    · exact start
    · simp only [SegmentLogStorage.createdSegment, Segment.newOpen, List.length_nil]
      change storage.lastLogIndex + 1 - 1 + 1 = layout.openFirst + ((0 : Nat) : Int)
      omega
    · rw [start]
      simpa [Segment.fileName, SegmentLogStorage.createdSegment, Segment.newOpen, start,
        FileSystem.record] using found
    · simp only [start, FileSystem.record, Disk.apply, missing, Disk.createdInode,
        Option.getD_none, encodeAll_nil]
      simp [Disk.setContent]
  · exact stands.consistent.opening based
  · refine ⟨stands.known.own, ?_⟩
    intro segment member
    rcases List.mem_append.mp member with former | isNew
    · exact stands.known.segments segment (List.mem_append_left _ former)
    · have isCreated : segment = storage.createdSegment := by simpa using isNew
      rw [isCreated]
      exact stands.known.own

theorem Segment.close_working (flags : LogFlags) {segment : Segment} (willSync : Bool)
    {fs : LogFs} {inode : Nat} (isOpen : segment.isOpen = true) (fd : segment.fd = some inode)
    (working : fs.faults = fun _ => none)
    (listed : fs.disk.lookup (.inprogress segment.firstIndex) = some inode) :
    ∃ closed, segment.close flags willSync fs = (0, { segment with isOpen := false }, closed) ∧
      closed.disk = fs.disk.apply (.rename (.inprogress segment.firstIndex)
        (.closed segment.firstIndex segment.lastIndex)) ∧
      closed.faults = fun _ => none := by
  have renames : ∀ next : LogFs, next.faults = (fun _ => none) → next.disk = fs.disk →
      next.rename (.inprogress segment.firstIndex)
          (.closed segment.firstIndex segment.lastIndex) =
        (true, next.record (.rename (.inprogress segment.firstIndex)
          (.closed segment.firstIndex segment.lastIndex))) := by
    intro next nextWorking sameDisk
    simp [FileSystem.rename, sameDisk, listed, FileSystem.perform, nextWorking]
  unfold close
  by_cases syncs : segment.firstIndex < segment.lastIndex ∧ flags.raftSyncSegments ∧ willSync
  · have synced : raftFsync segment.fd fs = (0, fs.record (.fsync inode)) := by
      simp [raftFsync, fd, FileSystem.perform, working]
    have renamed := renames (fs.record (.fsync inode)) working rfl
    refine ⟨(fs.record (.fsync inode)).record (.rename (.inprogress segment.firstIndex)
      (.closed segment.firstIndex segment.lastIndex)), ?_, rfl, working⟩
    simp only [isOpen, not_true_eq_false, if_false, if_pos syncs, synced, if_true, renamed]
  · have renamed := renames fs working rfl
    refine ⟨fs.record (.rename (.inprogress segment.firstIndex)
      (.closed segment.firstIndex segment.lastIndex)), ?_, rfl, working⟩
    simp only [isOpen, not_true_eq_false, if_false, if_neg syncs, if_true, renamed]

theorem insertSegment_last {segment : Segment} {segments : List Segment}
    (last : ∀ other ∈ segments, other.firstIndex < segment.firstIndex) :
    insertSegment segment segments = segments ++ [segment] := by
  induction segments with
  | nil => rfl
  | cons head rest ih =>
      have above := last head List.mem_cons_self
      unfold insertSegment
      rw [if_neg (by omega), if_neg (by omega),
        ih (fun other member => last other (List.mem_cons_of_mem _ member))]
      rfl

theorem Stands.close {storage : SegmentLogStorage} {layout : Layout} {records : List Record}
    {segment : Segment} (stands : Stands codec storage layout) (flags : LogFlags)
    (isOpen : storage.openSeg = some segment)
    (holds : SegmentHolds codec storage.fs.disk true segment (layout.openFirst, records))
    (opened : layout.opened = some records) (nonempty : records ≠ []) :
    ∃ closed fs, segment.close flags storage.enableSync storage.fs = (0, closed, fs) ∧
      Stands codec
        { storage with
          openSeg := none, segments := insertSegment closed storage.segments, fs := fs }
        layout.closing := by
  have represents := stands.represents
  obtain ⟨inode, fd, listed, content⟩ := holds.2.file
  have first : segment.firstIndex = layout.openFirst := holds.2.first
  have last := holds.2.last
  rw [holds.fileName_open] at listed
  simp only at listed last
  obtain ⟨fs, closes, disk, working⟩ := segment.close_working flags storage.enableSync
    holds.1 fd stands.working (by rw [first]; exact listed)
  have lastEq : segment.lastIndex = layout.openFirst + records.length - 1 := by omega
  have renamed : fs.disk = storage.fs.disk.apply (.rename (.inprogress layout.openFirst)
      (closedName (layout.openFirst, records))) := by
    rw [disk, first, lastEq]
    rfl
  have onDisk : OnDisk codec fs.disk layout.closing := by
    rw [renamed]
    exact OnDisk.closing represents.onDisk stands.sound opened nonempty
  have sound := stands.sound.closing opened nonempty
  have shape := Layout.closing_eq opened
  have spans : closedSpans layout.closing.base layout.closing.closed =
      closedSpans layout.base layout.closed ++ [(layout.openFirst, records)] := by
    rw [shape]
    simp [closedSpans_append, closedSpans, Layout.openFirst]
  have behind : ∀ other ∈ storage.segments, other.firstIndex < segment.firstIndex := by
    intro other member
    obtain ⟨span, spanListed, otherHolds⟩ := forall₂_left represents.closed member
    have bounds := closedSpans_bounds spanListed
    have positive := List.length_pos_iff.mpr (stands.sound.nonempty _ bounds.2.2)
    have otherFirst := otherHolds.2.first
    unfold Layout.openFirst at first
    omega
  have inserted : insertSegment { segment with isOpen := false } storage.segments =
      storage.segments ++ [{ segment with isOpen := false }] := insertSegment_last behind
  have others : ∀ other ∈ storage.segments,
      fs.disk.lookup other.fileName = storage.fs.disk.lookup other.fileName := by
    intro other member
    obtain ⟨span, spanListed, named⟩ := represents.closedNames member
    have bounds := closedSpans_bounds spanListed
    have positive := List.length_pos_iff.mpr (stands.sound.nonempty _ bounds.2.2)
    rw [renamed, Disk.lookup_rename _ listed, if_neg, if_neg]
    · rw [named]
      simp [closedName]
    · rw [named]
      simp only [closedName, FileName.closed.injEq]
      unfold Layout.openFirst
      omega
  refine ⟨_, fs, closes, ⟨represents.first, ?_, ?_, ?_, onDisk⟩, sound,
    stands.consistent.closing opened nonempty, working, ?_⟩
  · have before := layout.lastLogIndex_of_file (Or.inr (by simp [opened]))
    have after := layout.closing.lastLogIndex_of_file (Or.inl (by simp [shape]))
    have sameRecords : layout.closing.records = layout.records := by
      simp [Layout.closing, Layout.records, opened]
    rw [after, sameRecords]
    exact represents.last.trans before
  · rw [inserted, spans]
    refine List.rel_append ?_ ?_
    · exact closed_moved onDisk sound represents.closed
        (fun span member => by rw [spans]; exact List.mem_append_left _ member) others
    · refine List.Forall₂.cons ?_ List.Forall₂.nil
      refine ⟨rfl, first, last, holds.2.bytes, holds.2.table, inode, fd, ?_, ?_⟩
      · have name : ({ segment with isOpen := false } : Segment).fileName =
            closedName (layout.openFirst, records) := by
          simp [Segment.fileName, closedName, first, lastEq]
        rw [name, renamed, Disk.lookup_rename _ listed, if_pos rfl]
      · rw [renamed, Disk.content_rename]
        exact content
  · rw [shape]
    exact List.Forall₂.nil
  · refine ⟨stands.known.own, ?_⟩
    intro other member
    change other ∈ insertSegment { segment with isOpen := false } storage.segments ++ [] at member
    rw [inserted, List.append_nil, List.mem_append, List.mem_singleton] at member
    rcases member with former | rfl
    · exact stands.known.segments other (List.mem_append_left _ former)
    · exact stands.known.segments segment (List.mem_append_right _ (by simp [isOpen]))

/-- After `open_segment` the storage has an open segment and holds what it held. -/
theorem Stands.openSegment {storage : SegmentLogStorage} {layout : Layout}
    (stands : Stands codec storage layout) (flags : LogFlags)
    (bound : storage.lastLogIndex + 1 < 2 ^ 63) :
    ∃ ready readyLayout records,
      storage.openSegment flags = (true, ready) ∧ Stands codec ready readyLayout ∧
        readyLayout.opened = some records ∧ readyLayout.live = layout.live ∧
        ready.lastLogIndex = storage.lastLogIndex := by
  cases opened : layout.opened with
  | none =>
      have notOpen := stands.represents.notOpen opened
      have rebasedOpen : layout.rebased.opened = none := by
        unfold Layout.rebased
        split <;> exact opened
      have based : layout.rebased.closed = [] →
          layout.rebased.base = layout.rebased.firstLogIndex := by
        unfold Layout.rebased
        split
        · intro _
          rfl
        · rename_i hasFile
          intro noClosed
          exact absurd ⟨noClosed, opened⟩ hasFile
      have same : ({ storage with openSeg := none } : SegmentLogStorage) = storage := by
        rw [← notOpen]
      have rebased : Stands codec { storage with openSeg := none } layout.rebased := by
        rw [same]
        exact ⟨stands.represents.rebased,
          stands.sound.rebased (by rw [← stands.represents.last]; exact bound),
          stands.consistent.rebased, stands.working, stands.known⟩
      obtain ⟨created, creates, createdStands, sameLast⟩ := rebased.createSegment rebasedOpen based
      refine ⟨created, layout.rebased.opening, [], ?_, createdStands, rfl, ?_, ?_⟩
      · unfold SegmentLogStorage.openSegment
        simp [notOpen, creates]
      · rw [Layout.live_opening rebasedOpen, Layout.live_rebased]
      · exact sameLast
  | some records =>
      obtain ⟨segment, isOpen, holds⟩ := stands.represents.openSegment opened
      by_cases full : flags.raftMaxSegmentSize < segment.bytes
      · have nonempty : records ≠ [] := by
          rintro rfl
          have bytes := holds.2.bytes
          simp only [encodeAll_nil, List.length_nil] at bytes
          omega
        obtain ⟨closed, fs, closes, closedStands⟩ :=
          stands.close flags isOpen holds opened nonempty
        have shape := Layout.closing_eq opened
        have closedOpen : layout.closing.opened = none := by rw [shape]
        obtain ⟨created, creates, createdStands, sameLast⟩ :=
          @Stands.createSegment _ _
            { storage with segments := insertSegment closed storage.segments, fs := fs } _
            closedStands closedOpen (by rw [shape]; simp)
        refine ⟨created, layout.closing.opening, [], ?_, createdStands, rfl, ?_, ?_⟩
        · unfold SegmentLogStorage.openSegment
          simp only [isOpen, if_pos full]
          unfold SegmentLogStorage.rollOver
          simp only [closes, if_true, creates]
        · rw [Layout.live_opening closedOpen, Layout.live_closing]
        · exact sameLast
      · refine ⟨storage, layout, records, ?_, stands, opened, rfl, rfl⟩
        unfold SegmentLogStorage.openSegment
        simp only [isOpen, if_neg full]

/-! ### `append_entries` -/

/-- Entries that a segment can write: a payload that serializes into 32 bits of
length, and fields that `int64_t` holds. -/
structure LogEntry.Writable (codec : EntryCodec P) (entry : LogEntry P Bytes) : Prop where
  payload : ∃ data, entryPayload codec entry = some data ∧ data.length < 2 ^ 32
  term : entry.id.term < 2 ^ 63
  index : entry.id.index + 1 < 2 ^ 63

/-- The record is what `append` writes for the entry. -/
def Record.Encodes (codec : EntryCodec P) (entry : LogEntry P Bytes) (record : Record) : Prop :=
  Record.ofEntry? codec record.checksumType entry = some record

theorem LogEntry.Writable.record {entry : LogEntry P Bytes} (writable : entry.Writable codec)
    {checksumType : Nat} (known : checksumType < 2) :
    ∃ record, Record.ofEntry? codec checksumType entry = some record ∧
      Record.Encodes codec entry record ∧ record.Valid codec := by
  obtain ⟨data, payload, short⟩ := writable.payload
  have term := writable.term
  have written : Record.ofEntry? codec checksumType entry =
      some { term := entry.id.term, type := entry.type, data := data,
             checksumType := checksumType } := by
    unfold Record.ofEntry?
    rw [payload]
    rfl
  exact ⟨_, written, written, Record.valid_of_ofEntry? codec known written (by omega) short⟩

theorem Stands.appendOne {storage : SegmentLogStorage} {layout : Layout}
    (stands : Stands codec storage layout) (flags : LogFlags) {entry : LogEntry P Bytes}
    (writable : entry.Writable codec)
    (follows : (entry.id.index : Int) = storage.lastLogIndex + 1) :
    ∃ after afterLayout record,
      storage.appendOne codec flags entry = (true, after) ∧ Stands codec after afterLayout ∧
        Record.Encodes codec entry record ∧
        afterLayout.live = layout.live.append [record] ∧
        after.lastLogIndex = storage.lastLogIndex + 1 := by
  have inRange := writable.index
  obtain ⟨ready, readyLayout, records, opens, readyStands, opened, sameLive, sameLast⟩ :=
    stands.openSegment flags (by omega)
  obtain ⟨segment, isOpen, holds⟩ := readyStands.represents.openSegment opened
  obtain ⟨record, written, encodes, valid⟩ := writable.record
    (readyStands.known.segments segment (List.mem_append_right _ (by simp [isOpen])))
  obtain ⟨inode, fd, listed, content⟩ := holds.2.file
  have readyLast := readyStands.represents.last
  have layoutLast := readyLayout.lastLogIndex_of_file (Or.inr (by simp [opened]))
  have counted : readyLayout.records.length =
      readyLayout.closed.flatten.length + records.length := by
    simp [Layout.records, opened]
  have openFirst : readyLayout.openFirst =
      readyLayout.base + readyLayout.closed.flatten.length := rfl
  have segmentLast : segment.lastIndex + 1 = readyLayout.openFirst + records.length :=
    holds.2.last
  have works : ready.fs.faults ready.fs.clock = none := by rw [readyStands.working]
  have appended : segment.append codec entry ready.fs =
      (0, segment.grow entry.id.term (record.encode codec).length,
        ready.fs.record (.write inode (record.encode codec))) := by
    unfold Segment.append
    rw [if_neg (by simp [holds.1]), if_neg (by omega)]
    simp only [written, fd, FileSystem.write, works]
  obtain ⟨other, otherWritten, _, grown, stillOpen, sameChecksum⟩ := holds.2.append codec appended
  have sameRecord : other = record := by
    rw [written] at otherWritten
    exact (Option.some.inj otherWritten).symm
  subst sameRecord
  rw [holds.fileName_open] at listed
  have onDisk := OnDisk.writing readyStands.represents.onDisk opened listed content other
  have sound := readyStands.sound.writing opened valid (by omega)
  refine ⟨{ ready with
      openSeg := some (segment.grow entry.id.term (other.encode codec).length)
      fs := ready.fs.record (.write inode (other.encode codec))
      lastLogIndex := ready.lastLogIndex + 1 }, readyLayout.writing other, other, ?_,
    ⟨⟨readyStands.represents.first, ?_, ?_, ?_, onDisk⟩, sound,
      readyStands.consistent.writing opened other, readyStands.working, ?_⟩, encodes, ?_, ?_⟩
  · unfold SegmentLogStorage.appendOne
    simp only [opens, isOpen, appended, ne_eq, not_true_eq_false, if_false]
  · have afterLast := (readyLayout.writing other).lastLogIndex_of_file
      (Or.inr (by simp [Layout.writing, opened]))
    rw [Layout.records_writing opened, List.length_append, List.length_singleton] at afterLast
    rw [afterLast]
    change ready.lastLogIndex + 1 =
      readyLayout.base + ((readyLayout.records.length + 1 : Nat) : Int) - 1
    omega
  · refine closed_moved onDisk sound readyStands.represents.closed (fun _ member => member) ?_
    intro segment _
    rfl
  · rw [show (readyLayout.writing other).opened = some (records ++ [other]) by
      simp [Layout.writing, opened]]
    exact List.Forall₂.cons ⟨stillOpen, grown⟩ List.Forall₂.nil
  · refine ⟨readyStands.known.own, ?_⟩
    intro member listed
    rcases List.mem_append.mp listed with former | isGrown
    · exact readyStands.known.segments member (List.mem_append_left _ former)
    · have isSegment : member = segment.grow entry.id.term (other.encode codec).length := by
        simpa using isGrown
      rw [isSegment]
      exact readyStands.known.segments segment (List.mem_append_right _ (by simp [isOpen]))
  · rw [Layout.live_writing opened readyStands.consistent, sameLive]
  · change ready.lastLogIndex + 1 = _
    rw [sameLast]

theorem Stands.appendLoop (flags : LogFlags) (entries : List (LogEntry P Bytes)) :
    ∀ {storage : SegmentLogStorage} {layout : Layout}, Stands codec storage layout →
      (∀ entry ∈ entries, entry.Writable codec) →
      (∀ (position : Nat) entry, entries[position]? = some entry →
        (entry.id.index : Int) = storage.lastLogIndex + 1 + position) →
      ∃ after afterLayout records,
        storage.appendLoop codec flags entries = (entries.length, true, after) ∧
          Stands codec after afterLayout ∧
          List.Forall₂ (Record.Encodes codec) entries records ∧
          afterLayout.live = layout.live.append records := by
  induction entries with
  | nil =>
      intro storage layout stands _ _
      exact ⟨storage, layout, [], rfl, stands, List.Forall₂.nil,
        (IndexedLog.append_nil _).symm⟩
  | cons entry rest ih =>
      intro storage layout stands writable follows
      have atHead := follows 0 entry rfl
      obtain ⟨middle, middleLayout, record, appends, middleStands, encodes, live, last⟩ :=
        stands.appendOne flags (writable entry List.mem_cons_self) (by simpa using atHead)
      obtain ⟨after, afterLayout, records, loops, afterStands, allEncode, allLive⟩ :=
        ih middleStands (fun other member => writable other (List.mem_cons_of_mem _ member))
          (by
            intro position other found
            have atNext := follows (position + 1) other found
            rw [last]
            push_cast at atNext
            omega)
      refine ⟨after, afterLayout, record :: records, ?_, afterStands,
        List.Forall₂.cons encodes allEncode, ?_⟩
      · unfold SegmentLogStorage.appendLoop
        simp only [appends, loops, List.length_cons]
      · rw [allLive, live, IndexedLog.append_append]
        rfl

theorem Segment.sync_keeps (flags : LogFlags) (segment : Segment) (willSync hasConf : Bool)
    {fs : LogFs} (working : fs.faults = fun _ => none) :
    ∃ ret unsynced after,
      segment.sync flags willSync hasConf fs =
          (ret, { segment with unsyncedBytes := unsynced }, after) ∧
        after.disk = fs.disk ∧ after.faults = fun _ => none := by
  unfold sync
  split
  · exact ⟨0, segment.unsyncedBytes, fs, rfl, rfl, working⟩
  · split
    · split
      · exact ⟨0, segment.unsyncedBytes, fs, rfl, rfl, working⟩
      · split
        · exact ⟨0, segment.unsyncedBytes, fs, rfl, rfl, working⟩
        · cases fd : segment.fd with
          | none => exact ⟨-1, 0, fs, rfl, rfl, working⟩
          | some inode =>
              have synced : raftFsync (some inode) fs = (0, fs.record (.fsync inode)) := by
                simp [raftFsync, FileSystem.perform, working]
              exact ⟨0, 0, fs.record (.fsync inode), by rw [synced], rfl, working⟩
    · exact ⟨0, segment.unsyncedBytes, fs, rfl, rfl, working⟩

theorem Stands.syncLastSegment {storage : SegmentLogStorage} {layout : Layout}
    (stands : Stands codec storage layout) (flags : LogFlags) (hasConf : Bool) :
    Stands codec (storage.syncLastSegment flags hasConf) layout := by
  unfold SegmentLogStorage.syncLastSegment
  cases isOpen : storage.openSeg with
  | none => exact stands
  | some segment =>
      obtain ⟨ret, unsynced, after, synced, disk, working⟩ :=
        segment.sync_keeps flags storage.enableSync hasConf stands.working
      have represents := stands.represents
      have opened := represents.opened
      rw [isOpen] at opened
      have moved : ∀ spans, List.Forall₂ (SegmentHolds codec storage.fs.disk true) [segment] spans →
          List.Forall₂ (SegmentHolds codec storage.fs.disk true)
            [{ segment with unsyncedBytes := unsynced }] spans := by
        intro spans holds
        cases holds with
        | cons head rest =>
            cases rest
            exact List.Forall₂.cons ⟨head.1, head.2.first, head.2.last, head.2.bytes,
              head.2.table, head.2.file⟩ List.Forall₂.nil
      simp only [synced]
      refine ⟨⟨represents.first, represents.last, ?_, ?_, ?_⟩, stands.sound, stands.consistent,
        working, stands.known.own, ?_⟩
      · change List.Forall₂ (SegmentHolds codec after.disk false) _ _
        rw [disk]
        exact represents.closed
      · change List.Forall₂ (SegmentHolds codec after.disk true) [_] _
        rw [disk]
        exact moved _ opened
      · change OnDisk codec after.disk layout
        rw [disk]
        exact represents.onDisk
      · intro member listed
        rcases List.mem_append.mp listed with former | isSynced
        · exact stands.known.segments member (List.mem_append_left _ former)
        · have isSegment : member = { segment with unsyncedBytes := unsynced } := by
            simpa using isSynced
          rw [isSegment]
          exact stands.known.segments segment (List.mem_append_right _ (by simp [isOpen]))

theorem Stands.appendEntries {storage : SegmentLogStorage} {layout : Layout}
    (stands : Stands codec storage layout) (flags : LogFlags)
    {entries : List (LogEntry P Bytes)} (nonempty : entries ≠ [])
    (writable : ∀ entry ∈ entries, entry.Writable codec)
    (follows : ∀ (position : Nat) entry, entries[position]? = some entry →
      (entry.id.index : Int) = storage.lastLogIndex + 1 + position) :
    ∃ after afterLayout records,
      storage.appendEntries codec flags entries = ((entries.length : Int), after) ∧
        Stands codec after afterLayout ∧
        List.Forall₂ (Record.Encodes codec) entries records ∧
        afterLayout.live = layout.live.append records := by
  obtain ⟨front, rest, rfl⟩ := List.exists_cons_of_ne_nil nonempty
  have atFront := follows 0 front rfl
  obtain ⟨after, afterLayout, records, loops, afterStands, encode, live⟩ :=
    stands.appendLoop flags (front :: rest) writable follows
  refine ⟨after.syncLastSegment flags
      ((front :: rest).any (fun entry => entry.type = .configuration)), afterLayout, records, ?_,
    afterStands.syncLastSegment flags _, encode, live⟩
  unfold SegmentLogStorage.appendEntries
  simp only
  rw [if_neg (by simpa using atFront.symm), loops]

end Steps

end QuorumKit
