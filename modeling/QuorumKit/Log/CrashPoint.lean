/-
Crash points of the storage calls that remove files.

A crash keeps a prefix of the operations that a call has made, and the
background thread may have deleted any of the renamed files.  A call is crash
safe for a property when every such directory holds a layout with the property.
-/

import QuorumKit.Log.Recovery

namespace QuorumKit

open Library

section CrashPoint

variable {P : Type} {codec : EntryCodec P}

def newOps (before after : LogFs) : List (FsOp FileName Int) :=
  after.trace.drop before.trace.length

def deleteLeftovers (disk : LogDisk) (gone : List FileName) : LogDisk :=
  gone.foldl (fun disk name => disk.apply (.unlink (.tmp name))) disk

/-- The directory after `count` of the operations made since `before`. -/
def crashedDisk (before after : LogFs) (count : Nat) (gone : List FileName) : LogDisk :=
  deleteLeftovers (before.disk.replay ((newOps before after).take count)) gone

theorem OnDisk.deleteLeftovers {disk : LogDisk} {layout : Layout} (gone : List FileName)
    (onDisk : OnDisk codec disk layout) :
    OnDisk codec (QuorumKit.deleteLeftovers disk gone) layout := by
  induction gone generalizing disk with
  | nil => exact onDisk
  | cons name rest ih => exact ih (onDisk.deleteLeftover name)

/-- After any number of the operations the directory holds a layout with the
property. -/
def CrashSafe (codec : EntryCodec P) (disk : LogDisk) (ops : List (FsOp FileName Int))
    (property : Layout → Prop) : Prop :=
  ∀ count, ∃ layout, OnDisk codec (disk.replay (ops.take count)) layout ∧ property layout

theorem CrashSafe.nil {disk : LogDisk} {property : Layout → Prop} {layout : Layout}
    (onDisk : OnDisk codec disk layout) (holds : property layout) :
    CrashSafe codec disk [] property :=
  fun _ => ⟨layout, by simpa using onDisk, holds⟩

theorem CrashSafe.cons {disk : LogDisk} {op : FsOp FileName Int}
    {ops : List (FsOp FileName Int)} {property : Layout → Prop} {layout : Layout}
    (onDisk : OnDisk codec disk layout) (holds : property layout)
    (later : CrashSafe codec (disk.apply op) ops property) :
    CrashSafe codec disk (op :: ops) property := by
  intro count
  cases count with
  | zero => exact ⟨layout, by simpa using onDisk, holds⟩
  | succ count => exact later count

theorem CrashSafe.append {disk : LogDisk} {front back : List (FsOp FileName Int)}
    {property : Layout → Prop} (earlier : CrashSafe codec disk front property)
    (later : CrashSafe codec (disk.replay front) back property) :
    CrashSafe codec disk (front ++ back) property := by
  intro count
  by_cases inFront : count ≤ front.length
  · rw [List.take_append_of_le_length inFront]
    exact earlier count
  · have split : (front ++ back).take count = front ++ back.take (count - front.length) := by
      rw [List.take_append, List.take_of_length_le (by omega)]
    rw [split, Disk.replay_append]
    exact later (count - front.length)

def unlinkOp (name : FileName) : FsOp FileName Int := .rename name (.tmp name)

theorem Segment.unlink_present (segment : Segment) {fs : LogFs}
    (working : fs.faults = fun _ => none)
    (present : (fs.disk.lookup segment.fileName).isSome) :
    segment.unlink fs = (0, fs.record (unlinkOp segment.fileName)) := by
  obtain ⟨inode, found⟩ := Option.isSome_iff_exists.mp present
  simp [Segment.unlink, FileSystem.rename, found, FileSystem.perform, working, unlinkOp]

theorem lookup_unlinkOp {disk : LogDisk} {gone name : FileName}
    (present : (disk.lookup gone).isSome) (notTmp : ¬ name.IsTmp) (differs : name ≠ gone) :
    (disk.apply (unlinkOp gone)).lookup name = disk.lookup name := by
  obtain ⟨inode, found⟩ := Option.isSome_iff_exists.mp present
  have notNew : name ≠ .tmp gone := by
    rintro rfl
    exact notTmp trivial
  rw [unlinkOp, Disk.lookup_rename disk found, if_neg notNew, if_neg differs]

structure Performed (before after : LogFs) (ops : List (FsOp FileName Int)) : Prop where
  disk : after.disk = before.disk.replay ops
  trace : after.trace = before.trace ++ ops
  working : after.faults = fun _ => none

theorem Performed.nil {fs : LogFs} (working : fs.faults = fun _ => none) :
    Performed fs fs [] :=
  ⟨rfl, by simp, working⟩

theorem Performed.record {fs : LogFs} (working : fs.faults = fun _ => none)
    (op : FsOp FileName Int) : Performed fs (fs.record op) [op] :=
  ⟨rfl, rfl, working⟩

theorem Performed.trans {first second third : LogFs} {front back : List (FsOp FileName Int)}
    (earlier : Performed first second front) (later : Performed second third back) :
    Performed first third (front ++ back) := by
  refine ⟨?_, ?_, later.working⟩
  · rw [later.disk, earlier.disk, Disk.replay_append]
  · rw [later.trace, earlier.trace, List.append_assoc]

theorem Performed.newOps_eq {before after : LogFs} {ops : List (FsOp FileName Int)}
    (performed : Performed before after ops) : newOps before after = ops := by
  rw [newOps, performed.trace, List.drop_left]

structure Listed (disk : LogDisk) (segments : List Segment) : Prop where
  present : ∀ segment ∈ segments, (disk.lookup segment.fileName).isSome
  nodup : (segments.map Segment.fileName).Nodup

theorem Segment.fileName_notTmp (segment : Segment) : ¬ segment.fileName.IsTmp := by
  unfold Segment.fileName
  split <;> simp [FileName.IsTmp]

theorem Listed.tail {disk : LogDisk} {segment : Segment} {rest : List Segment}
    (listed : Listed disk (segment :: rest)) :
    Listed (disk.apply (unlinkOp segment.fileName)) rest := by
  have nodup := listed.nodup
  rw [List.map_cons, List.nodup_cons] at nodup
  refine ⟨?_, nodup.2⟩
  intro other member
  have differs : other.fileName ≠ segment.fileName := by
    intro same
    exact nodup.1 (same ▸ List.mem_map_of_mem member)
  rw [lookup_unlinkOp (listed.present segment List.mem_cons_self) other.fileName_notTmp
    differs]
  exact listed.present other (List.mem_cons_of_mem _ member)

theorem unlinkFromBack_performed (segments : List Segment) :
    ∀ {fs : LogFs} (ret : Int), fs.faults = (fun _ => none) → Listed fs.disk segments →
      ∃ after, SegmentLogStorage.unlinkFromBack ret segments fs =
          (if segments = [] then ret else 0, after) ∧
        Performed fs after ((segments.map Segment.fileName).map unlinkOp) := by
  induction segments with
  | nil =>
      intro fs ret working _
      exact ⟨fs, rfl, Performed.nil working⟩
  | cons segment rest ih =>
      intro fs ret working listed
      have head := segment.unlink_present working
        (listed.present segment List.mem_cons_self)
      have step := Performed.record working (unlinkOp segment.fileName)
      obtain ⟨after, unlinked, performed⟩ := ih 0 step.working listed.tail
      refine ⟨after, ?_, step.trans performed⟩
      simp only [SegmentLogStorage.unlinkFromBack, head, ne_eq, not_true_eq_false, if_false,
        unlinked, reduceCtorEq]
      split <;> rfl

theorem unlinkAll_performed (segments : List Segment) :
    ∀ {fs : LogFs}, fs.faults = (fun _ => none) → Listed fs.disk segments →
      Performed fs (SegmentLogStorage.unlinkAll segments fs)
        ((segments.map Segment.fileName).map unlinkOp) := by
  induction segments with
  | nil =>
      intro fs working _
      exact Performed.nil working
  | cons segment rest ih =>
      intro fs working listed
      have head := segment.unlink_present working
        (listed.present segment List.mem_cons_self)
      have step := Performed.record working (unlinkOp segment.fileName)
      rw [SegmentLogStorage.unlinkAll, head]
      exact step.trans (ih step.working listed.tail)

theorem Listed.right {disk : LogDisk} {front back : List Segment}
    (listed : Listed disk (front ++ back)) : Listed disk back := by
  have nodup := listed.nodup
  rw [List.map_append, List.nodup_append] at nodup
  exact ⟨fun segment member => listed.present segment (List.mem_append_right _ member),
    nodup.2.1⟩

theorem Listed.reverse {disk : LogDisk} {segments : List Segment}
    (listed : Listed disk segments) : Listed disk segments.reverse := by
  refine ⟨fun segment member => listed.present segment (List.mem_reverse.mp member), ?_⟩
  rw [List.map_reverse, List.nodup_reverse]
  exact listed.nodup

theorem lookup_unlinks (segments : List Segment) {name : FileName} (notTmp : ¬ name.IsTmp) :
    ∀ {disk : LogDisk}, Listed disk segments → name ∉ segments.map Segment.fileName →
      (disk.replay ((segments.map Segment.fileName).map unlinkOp)).lookup name =
        disk.lookup name := by
  induction segments with
  | nil => intro disk _ _; rfl
  | cons segment rest ih =>
      intro disk listed other
      rw [List.map_cons, List.mem_cons, not_or] at other
      rw [List.map_cons, List.map_cons, Disk.replay_cons, ih listed.tail other.2]
      exact lookup_unlinkOp (listed.present segment List.mem_cons_self) notTmp other.1

/-- The segments of the layout with the index each one starts at. -/
def Layout.spans (layout : Layout) : List (Int × List Record) :=
  closedSpans layout.base layout.closed ++
    layout.opened.toList.map (fun records => (layout.openFirst, records))

theorem Layout.spans_pairwise {layout : Layout}
    (nonempty : ∀ records ∈ layout.closed, records ≠ []) :
    layout.spans.Pairwise (fun left right => left.1 < right.1) := by
  unfold Layout.spans
  rw [List.pairwise_append]
  refine ⟨closedSpans_pairwise layout.base nonempty, ?_, ?_⟩
  · cases layout.opened <;> simp
  · intro span member other isOpen
    obtain ⟨_, upper, listed⟩ := closedSpans_bounds member
    have positive := List.length_pos_iff.mpr (nonempty span.2 listed)
    obtain ⟨records, _, rfl⟩ := List.mem_map.mp isOpen
    unfold Layout.openFirst
    simp only
    omega

def SegmentLogStorage.allSegments (storage : SegmentLogStorage) : List Segment :=
  storage.segments ++ storage.openSeg.toList

theorem map_eq_of_forall₂ {α β γ : Type} {f : α → γ} {g : β → γ} {left : List α}
    {right : List β} (related : List.Forall₂ (fun item other => f item = g other) left right) :
    left.map f = right.map g := by
  induction related with
  | nil => rfl
  | cons head _ ih => rw [List.map_cons, List.map_cons, head, ih]

theorem Represents.bounds {storage : SegmentLogStorage} {layout : Layout}
    (represents : Represents codec storage layout) :
    List.Forall₂ (fun (segment : Segment) (span : Int × List Record) =>
        segment.firstIndex = span.1 ∧ segment.lastIndex + 1 = span.1 + (span.2.length : Int))
      storage.allSegments layout.spans := by
  refine List.rel_append ?_ ?_
  · exact represents.closed.imp (fun _ _ holds => ⟨holds.2.first, holds.2.last⟩)
  · exact represents.opened.imp (fun _ _ holds => ⟨holds.2.first, holds.2.last⟩)

theorem Represents.fileNames {storage : SegmentLogStorage} {layout : Layout}
    (represents : Represents codec storage layout) :
    storage.allSegments.map Segment.fileName = layout.files.map Prod.fst := by
  unfold SegmentLogStorage.allSegments Layout.files
  rw [List.map_append, List.map_append, List.map_map, List.map_map]
  congr 1
  · refine map_eq_of_forall₂ (represents.closed.imp ?_)
    intro segment span holds
    have last := holds.2.last
    have lastEq : segment.lastIndex = span.1 + span.2.length - 1 := by omega
    simp [Segment.fileName, holds.1, holds.2.first, closedName, lastEq]
  · have opened := represents.opened
    rw [List.forall₂_map_right_iff] at opened
    refine map_eq_of_forall₂ (opened.imp ?_)
    intro segment records holds
    simp [Segment.fileName, holds.1, holds.2.first]

theorem Represents.listed {storage : SegmentLogStorage} {layout : Layout}
    (represents : Represents codec storage layout) (sound : layout.Sound codec) :
    Listed storage.fs.disk storage.allSegments := by
  refine ⟨?_, ?_⟩
  · intro segment member
    have inFiles : segment.fileName ∈ layout.files.map Prod.fst := by
      rw [← represents.fileNames]
      exact List.mem_map_of_mem member
    rw [← represents.onDisk.listed_iff segment.fileName_notTmp] at inFiles
    exact (lookup_isSome_iff _ _).mpr inFiles
  · rw [represents.fileNames]
    exact Layout.files_nodup sound.nonempty

theorem Represents.sorted {storage : SegmentLogStorage} {layout : Layout}
    (represents : Represents codec storage layout) (sound : layout.Sound codec) :
    SortedSegments storage.allSegments := by
  have starts : storage.allSegments.map Segment.firstIndex = layout.spans.map Prod.fst :=
    map_eq_of_forall₂ (represents.bounds.imp (fun _ _ bounds => bounds.1))
  have increasing := Layout.spans_pairwise sound.nonempty
  unfold SortedSegments
  rw [← List.pairwise_map (f := Segment.firstIndex) (R := (· < ·)), starts, List.pairwise_map]
  exact increasing

end CrashPoint

def noOpRecord : Record := { term := 1, type := .noOp, data := [], checksumType := 0 }

theorem noOpRecord_valid : noOpRecord.Valid plainCodec where
  term := by decide
  dataLen := by decide
  checksumType := by decide
  known := by decide
  parses := by decide

def noOpLayout : Layout :=
  { firstLogIndex := 1, base := 1, closed := [], opened := some [noOpRecord, noOpRecord] }

def noOpDisk : LogDisk :=
  { names := [(.inprogress 1, 0)]
    content := fun _ => encodeAll plainCodec [noOpRecord, noOpRecord]
    nextInode := 1
    saved := some 1 }

def noOpStorage : SegmentLogStorage :=
  { firstLogIndex := 1
    lastLogIndex := 2
    openSeg := some
      { firstIndex := 1, lastIndex := 2, isOpen := true, bytes := 48, fd := some 0,
        checksumType := 0, offsetAndTerm := [(0, 1), (24, 1)] }
    fs := { disk := noOpDisk } }

theorem noOpLayout_onDisk : OnDisk plainCodec noOpDisk noOpLayout := by
  refine ⟨⟨by decide, by decide, by decide⟩, rfl, ?_⟩
  intro name _
  by_cases same : name = .inprogress 1
  · subst same
    rfl
  · have skip : (name == FileName.inprogress 1) = false := by simpa using same
    simp [Disk.read, Disk.lookup, noOpDisk, noOpLayout, Layout.files, closedSpans,
      Layout.openFirst, List.lookup_cons, skip]

def noOpLog : SegmentLog plainCodec where
  storage := noOpStorage
  layout := noOpLayout
  represents :=
    { first := rfl
      last := rfl
      closed := List.Forall₂.nil
      opened := List.Forall₂.cons
        ⟨rfl, ⟨rfl, rfl, rfl, rfl, 0, rfl, rfl, rfl⟩⟩ List.Forall₂.nil
      onDisk := noOpLayout_onDisk }
  sound :=
    { nonempty := by simp [noOpLayout]
      valid := by simp [noOpLayout, Layout.records, noOpRecord_valid]
      base := by decide
      first := by decide
      bound := by decide }
  consistent := by simp [Layout.Consistent, noOpLayout]
  working := rfl

end QuorumKit
