/-
Recovery of a log directory, `SegmentLogStorage::init`.

`init` is evaluated on every directory that holds a contiguous chain of segments:
closed segments wholly below the saved first index are discarded, a first
remaining closed segment that begins after it is refused, and otherwise the rest
is loaded.  A hole before the open segment is not refused.
-/

import QuorumKit.Log.DirectoryScan

namespace QuorumKit

open Library

section Recovery

variable {P : Type} {codec : EntryCodec P}

/-! ### File names of a layout -/

theorem Layout.mem_files_iff (layout : Layout) (name : FileName) :
    name ∈ layout.files.map Prod.fst ↔
      (∃ span ∈ closedSpans layout.base layout.closed, name = closedName span) ∨
        (layout.opened.isSome ∧ name = .inprogress layout.openFirst) := by
  unfold Layout.files
  rw [List.map_append, List.mem_append, List.map_map, List.mem_map]
  have openPart : name ∈ (layout.opened.toList.map
      (fun records => (FileName.inprogress layout.openFirst, records))).map Prod.fst ↔
      (layout.opened.isSome ∧ name = .inprogress layout.openFirst) := by
    cases layout.opened <;> simp
  rw [openPart]
  constructor
  · rintro (⟨span, member, rfl⟩ | isOpen)
    · exact Or.inl ⟨span, member, rfl⟩
    · exact Or.inr isOpen
  · rintro (⟨span, member, rfl⟩ | isOpen)
    · exact Or.inl ⟨span, member, rfl⟩
    · exact Or.inr isOpen

theorem lookup_isSome_of_map {N V : Type} [DecidableEq N] (entries : List (N × V))
    (name : N) : (entries.lookup name).isSome ↔ name ∈ entries.map Prod.fst := by
  induction entries with
  | nil => simp
  | cons entry rest ih =>
      rcases entry with ⟨key, value⟩
      by_cases same : name = key
      · subst same
        simp
      · have skip : (name == key) = false := by simpa using same
        simp [List.lookup_cons, skip, ih, same]

theorem OnDisk.listed_iff {disk : LogDisk} {layout : Layout}
    (onDisk : OnDisk codec disk layout) {name : FileName} (notTmp : ¬ name.IsTmp) :
    name ∈ disk.names.map Prod.fst ↔ name ∈ layout.files.map Prod.fst := by
  have same := onDisk.files name notTmp
  have readSome : (disk.read name).isSome ↔ (layout.files.lookup name).isSome := by
    rw [same, Option.isSome_map]
  rw [← lookup_isSome_iff, ← lookup_isSome_of_map, ← readSome]
  simp [Disk.read, Disk.lookup]

theorem closedName_inRange {layout : Layout} (sound : layout.Sound codec)
    {span : Int × List Record} (member : span ∈ closedSpans layout.base layout.closed) :
    (closedName span).InRange := by
  obtain ⟨lower, upper, listed⟩ := closedSpans_bounds member
  have positive : 0 < span.2.length :=
    List.length_pos_iff.mpr (sound.nonempty span.2 listed)
  have base := sound.base
  have bound := sound.bound
  simp only [Layout.records, List.length_append] at bound
  refine ⟨⟨by omega, by omega⟩, ⟨by omega, by omega⟩⟩

theorem OnDisk.inRange {disk : LogDisk} {layout : Layout}
    (onDisk : OnDisk codec disk layout) (sound : layout.Sound codec) :
    ∀ name ∈ disk.names.map Prod.fst, name.InRange := by
  intro name member
  by_cases isTmp : name.IsTmp
  · cases name with
    | tmp inner => trivial
    | closed firstIndex lastIndex => exact absurd isTmp id
    | inprogress firstIndex => exact absurd isTmp id
  · rw [onDisk.listed_iff isTmp, Layout.mem_files_iff] at member
    rcases member with ⟨span, spanMember, rfl⟩ | ⟨_, rfl⟩
    · exact closedName_inRange sound spanMember
    · have base := sound.base
      have bound := sound.bound
      simp only [Layout.records, List.length_append] at bound
      unfold FileName.InRange Layout.openFirst InInt64
      omega

/-! ### The scanned segments -/

namespace Layout

variable (layout : Layout) (checksumType : Nat)

def closedSegments : List Segment :=
  (closedSpans layout.base layout.closed).map (fun span =>
    Segment.newClosed span.1 (span.1 + span.2.length - 1) checksumType)

def openSegment : Option Segment :=
  layout.opened.map (fun _ => Segment.newOpen layout.openFirst checksumType)

theorem closedSegments_sorted (nonempty : ∀ records ∈ layout.closed, records ≠ []) :
    SortedSegments (layout.closedSegments checksumType) := by
  unfold SortedSegments closedSegments
  rw [List.pairwise_map]
  exact closedSpans_pairwise layout.base nonempty

end Layout

theorem OnDisk.closedBounds_perm {disk : LogDisk} {layout : Layout}
    (onDisk : OnDisk codec disk layout) (sound : layout.Sound codec) :
    ((disk.names.map Prod.fst).filterMap FileName.closedBounds).Perm
      ((closedSpans layout.base layout.closed).map (fun span =>
        (span.1, span.1 + span.2.length - 1))) := by
  have leftNodup : ((disk.names.map Prod.fst).filterMap FileName.closedBounds).Nodup := by
    refine List.Nodup.filterMap ?_ onDisk.wellFormed.names
    intro left right bounds leftBounds rightBounds
    cases left with
    | closed leftFirst leftLast =>
        cases right with
        | closed rightFirst rightLast =>
            simp only [FileName.closedBounds, Option.mem_def, Option.some.injEq] at *
            rw [← rightBounds] at leftBounds
            simp only [Prod.mk.injEq] at leftBounds
            rw [leftBounds.1, leftBounds.2]
        | inprogress _ => simp [FileName.closedBounds] at rightBounds
        | tmp _ => simp [FileName.closedBounds] at rightBounds
    | inprogress _ => simp [FileName.closedBounds] at leftBounds
    | tmp _ => simp [FileName.closedBounds] at leftBounds
  have rightNodup : ((closedSpans layout.base layout.closed).map (fun span =>
      (span.1, span.1 + (span.2.length : Int) - 1))).Nodup := by
    rw [List.nodup_iff_pairwise_ne, List.pairwise_map]
    refine (closedSpans_pairwise layout.base sound.nonempty).imp ?_
    intro left right below same
    simp only [Prod.mk.injEq] at same
    omega
  rw [List.perm_ext_iff_of_nodup leftNodup rightNodup]
  rintro ⟨firstIndex, lastIndex⟩
  have asName : (firstIndex, lastIndex) ∈
      (disk.names.map Prod.fst).filterMap FileName.closedBounds ↔
        FileName.closed firstIndex lastIndex ∈ disk.names.map Prod.fst := by
    rw [List.mem_filterMap]
    constructor
    · rintro ⟨name, member, bounds⟩
      cases name with
      | closed otherFirst otherLast =>
          simp only [FileName.closedBounds, Option.some.injEq, Prod.mk.injEq] at bounds
          rw [← bounds.1, ← bounds.2]
          exact member
      | inprogress _ => simp [FileName.closedBounds] at bounds
      | tmp _ => simp [FileName.closedBounds] at bounds
    · intro member
      exact ⟨_, member, rfl⟩
  rw [asName, onDisk.listed_iff (by simp [FileName.IsTmp]), Layout.mem_files_iff, List.mem_map]
  simp only [reduceCtorEq, and_false, or_false, closedName, FileName.closed.injEq,
    Prod.mk.injEq]
  constructor
  · rintro ⟨span, member, first, last⟩
    exact ⟨span, member, first.symm, last.symm⟩
  · rintro ⟨span, member, first, last⟩
    exact ⟨span, member, first.symm, last.symm⟩

theorem OnDisk.openIndex_eq {disk : LogDisk} {layout : Layout}
    (onDisk : OnDisk codec disk layout) :
    (disk.names.map Prod.fst).filterMap FileName.openIndex =
      layout.opened.toList.map (fun _ => layout.openFirst) := by
  have nodup : ((disk.names.map Prod.fst).filterMap FileName.openIndex).Nodup := by
    refine List.Nodup.filterMap ?_ onDisk.wellFormed.names
    intro left right index leftIndex rightIndex
    cases left with
    | inprogress leftFirst =>
        cases right with
        | inprogress rightFirst =>
            simp only [FileName.openIndex, Option.mem_def, Option.some.injEq] at *
            rw [leftIndex, rightIndex]
        | closed _ _ => simp [FileName.openIndex] at rightIndex
        | tmp _ => simp [FileName.openIndex] at rightIndex
    | closed _ _ => simp [FileName.openIndex] at leftIndex
    | tmp _ => simp [FileName.openIndex] at leftIndex
  have openNodup : (layout.opened.toList.map (fun _ => layout.openFirst)).Nodup := by
    cases layout.opened <;> simp
  have same : ((disk.names.map Prod.fst).filterMap FileName.openIndex).Perm
      (layout.opened.toList.map (fun _ => layout.openFirst)) := by
    rw [List.perm_ext_iff_of_nodup nodup openNodup]
    intro index
    have asName : index ∈ (disk.names.map Prod.fst).filterMap FileName.openIndex ↔
        FileName.inprogress index ∈ disk.names.map Prod.fst := by
      rw [List.mem_filterMap]
      constructor
      · rintro ⟨name, member, opens⟩
        cases name with
        | inprogress other =>
            simp only [FileName.openIndex, Option.some.injEq] at opens
            rw [← opens]
            exact member
        | closed _ _ => simp [FileName.openIndex] at opens
        | tmp _ => simp [FileName.openIndex] at opens
      · intro member
        exact ⟨_, member, rfl⟩
    rw [asName, onDisk.listed_iff (by simp [FileName.IsTmp]), Layout.mem_files_iff]
    cases layout.opened with
    | none => simp [closedName]
    | some records => simp [closedName]
  cases opened : layout.opened with
  | none =>
      rw [opened] at same
      simpa using same
  | some records =>
      rw [opened] at same
      simpa using same

theorem OnDisk.deleteLeftover {disk : LogDisk} {layout : Layout}
    (onDisk : OnDisk codec disk layout) (inner : FileName) :
    OnDisk codec (disk.apply (.unlink (.tmp inner))) layout := by
  refine ⟨Disk.wellFormed_unlink _ onDisk.wellFormed, onDisk.saved, ?_⟩
  intro name notTmp
  have other : name ≠ .tmp inner := by
    rintro rfl
    exact notTmp trivial
  have unchanged : (disk.apply (.unlink (.tmp inner))).read name = disk.read name := by
    unfold Disk.read
    rw [Disk.lookup_unlink, if_neg other]
    rfl
  exact unchanged.trans (onDisk.files name notTmp)

theorem OnDisk.unlinkTmp {fs : LogFs} {layout : Layout} (onDisk : OnDisk codec fs.disk layout)
    (name : FileName) : OnDisk codec (unlinkTmp fs name).disk layout := by
  cases name with
  | closed _ _ => exact onDisk
  | inprogress _ => exact onDisk
  | tmp inner =>
      simp only [QuorumKit.unlinkTmp, FileSystem.perform]
      cases fs.faults fs.clock with
      | some fault => exact onDisk
      | none => exact onDisk.deleteLeftover inner

theorem OnDisk.unlinkTmps {layout : Layout} (names : List FileName) :
    ∀ {fs : LogFs}, OnDisk codec fs.disk layout →
      OnDisk codec (names.foldl QuorumKit.unlinkTmp fs).disk layout := by
  induction names with
  | nil => exact fun onDisk => onDisk
  | cons name rest ih => exact fun onDisk => ih (onDisk.unlinkTmp name)

theorem unlinkTmps_faults (names : List FileName) (fs : LogFs) :
    (names.foldl QuorumKit.unlinkTmp fs).faults = fs.faults := by
  induction names generalizing fs with
  | nil => rfl
  | cons name rest ih =>
      rw [List.foldl_cons, ih]
      cases name with
      | tmp inner =>
          simp only [QuorumKit.unlinkTmp, FileSystem.perform]
          split <;> rfl
      | closed _ _ => rfl
      | inprogress _ => rfl

theorem scanDirectory_onDisk {storage : SegmentLogStorage} {layout : Layout}
    (onDisk : OnDisk codec storage.fs.disk layout) (sound : layout.Sound codec)
    (noSegments : storage.segments = []) (noOpen : storage.openSeg = none) :
    SegmentLogStorage.scanDirectory false (storage.fs.disk.names.map Prod.fst) storage =
      (0,
        { storage with
          segments := layout.closedSegments storage.checksumType
          openSeg := layout.openSegment storage.checksumType
          fs := (storage.fs.disk.names.map Prod.fst).foldl QuorumKit.unlinkTmp storage.fs }) := by
  have single : storage.openSeg.toList.length +
      ((storage.fs.disk.names.map Prod.fst).filterMap FileName.openIndex).length ≤ 1 := by
    rw [onDisk.openIndex_eq, noOpen]
    cases layout.opened <;> simp
  have sorted := foldl_insertSegment_eq
    (layout.closedSegments_sorted storage.checksumType sound.nonempty)
    (((onDisk.closedBounds_perm sound).map (fun bounds =>
      Segment.newClosed bounds.1 bounds.2 storage.checksumType)).trans (by
        rw [List.map_map]
        exact List.Perm.refl _))
  rw [SegmentLogStorage.scanDirectory_spec _ (onDisk.inRange sound) storage single,
    noSegments, sorted, noOpen, onDisk.openIndex_eq]
  have opened : Option.or none ((layout.opened.toList.map (fun _ => layout.openFirst)).head?.map
      (fun firstIndex => Segment.newOpen firstIndex storage.checksumType)) =
        layout.openSegment storage.checksumType := by
    unfold Layout.openSegment
    cases layout.opened <;> rfl
  rw [opened]

theorem OnDisk.remove {disk : LogDisk} {layout : Layout}
    (onDisk : OnDisk codec disk layout) (remaining : Layout) (name : FileName) (notTmp : ¬ name.IsTmp)
    (listed : name ∈ layout.files.map Prod.fst)
    (sameFirst : remaining.firstLogIndex = layout.firstLogIndex)
    (files : ∀ other, remaining.files.lookup other =
      if other = name then none else layout.files.lookup other) :
    OnDisk codec (disk.apply (.rename name (.tmp name))) remaining := by
  have present : (disk.lookup name).isSome := by
    have inDirectory := (onDisk.listed_iff notTmp).mpr listed
    exact (lookup_isSome_iff disk.names name).mpr inDirectory
  obtain ⟨inode, found⟩ := Option.isSome_iff_exists.mp present
  refine ⟨Disk.wellFormed_rename _ onDisk.wellFormed, ?_, ?_⟩
  · rw [Disk.saved_rename, sameFirst]
    exact onDisk.saved
  · intro other otherNotTmp
    have notNew : other ≠ .tmp name := by
      rintro rfl
      exact otherNotTmp trivial
    rw [Disk.read_rename disk found, if_neg notNew, files other]
    split
    · rfl
    · exact onDisk.files other otherNotTmp

theorem lookup_tail {N V : Type} [DecidableEq N] {key : N} {value : V}
    {rest : List (N × V)} (keys : (((key, value) :: rest).map Prod.fst).Nodup) (other : N) :
    rest.lookup other =
      if other = key then none else ((key, value) :: rest).lookup other := by
  have fresh : key ∉ rest.map Prod.fst := by
    simp only [List.map_cons, List.nodup_cons] at keys
    exact keys.1
  split
  · rename_i same
    subst same
    rw [← Option.not_isSome_iff_eq_none, lookup_isSome_of_map]
    exact fresh
  · rename_i differs
    have skip : (other == key) = false := by simpa using differs
    rw [List.lookup_cons, skip]

def Layout.dropHead (layout : Layout) : Layout :=
  match layout.closed with
  | [] => layout
  | records :: rest =>
      { layout with base := layout.base + records.length, closed := rest }

theorem Layout.files_dropHead {layout : Layout} {records : List Record}
    {rest : List (List Record)} (shape : layout.closed = records :: rest) :
    layout.files = (closedName (layout.base, records), records) :: layout.dropHead.files := by
  have sameOpen : layout.openFirst = layout.dropHead.openFirst := by
    simp only [Layout.openFirst, Layout.dropHead, shape, List.flatten_cons, List.length_append,
      Nat.cast_add]
    omega
  unfold Layout.files
  rw [sameOpen]
  simp only [Layout.dropHead, shape, closedSpans, List.map_cons, List.cons_append]

theorem Layout.dropHead_sound {layout : Layout} (sound : layout.Sound codec) :
    layout.dropHead.Sound codec := by
  cases shape : layout.closed with
  | nil => simpa [Layout.dropHead, shape] using sound
  | cons records rest =>
      have valid := sound.valid
      have bound := sound.bound
      have base := sound.base
      simp only [Layout.records, shape, List.flatten_cons, List.append_assoc,
        List.length_append] at valid bound
      simp only [Layout.dropHead, shape]
      refine ⟨?_, ?_, ?_, sound.first, ?_⟩
      · intro other member
        exact sound.nonempty other (by rw [shape]; exact List.mem_cons_of_mem _ member)
      · intro record member
        exact valid record (List.mem_append_right _ member)
      · simp only
        omega
      · simp only [Layout.records, List.length_append]
        push_cast at bound ⊢
        omega

theorem OnDisk.dropHead {disk : LogDisk} {layout : Layout} {records : List Record}
    {rest : List (List Record)} (onDisk : OnDisk codec disk layout)
    (sound : layout.Sound codec) (shape : layout.closed = records :: rest) :
    OnDisk codec
      (disk.apply (.rename (closedName (layout.base, records))
        (.tmp (closedName (layout.base, records))))) layout.dropHead := by
  have files := Layout.files_dropHead shape
  have keys := Layout.files_nodup sound.nonempty
  rw [files] at keys
  refine onDisk.remove _ _ (by simp [FileName.IsTmp, closedName]) ?_ ?_ ?_
  · rw [files]
    exact List.mem_cons_self
  · simp [Layout.dropHead, shape]
  · intro other
    rw [lookup_tail keys other, files]

/-! ### Checking the closed segments -/

def dropBelow (first : Int) : Int → List (List Record) → Int × List (List Record)
  | base, [] => (base, [])
  | base, records :: rest =>
      if base + records.length ≤ first then dropBelow first (base + records.length) rest
      else (base, records :: rest)

/-- What `list_segments` keeps of a layout. -/
def Layout.keep (layout : Layout) : Layout :=
  { layout with
    base := (dropBelow layout.firstLogIndex layout.base layout.closed).1
    closed := (dropBelow layout.firstLogIndex layout.base layout.closed).2 }

/-- `init` refuses a first remaining closed segment beyond the saved first
index. -/
def Layout.Refused (layout : Layout) : Prop :=
  layout.keep.closed ≠ [] ∧ layout.firstLogIndex < layout.keep.base

instance (layout : Layout) : Decidable layout.Refused := by
  unfold Layout.Refused; infer_instance

theorem checkSegments_contiguous (first : Int) (closed : List (List Record))
    (nonempty : ∀ records ∈ closed, records ≠ []) (checksumType : Nat) (fs : LogFs) :
    ∀ last : Int, 0 ≤ last →
      SegmentLogStorage.checkSegments first
          ((closedSpans (last + 1) closed).map (fun span =>
            Segment.newClosed span.1 (span.1 + span.2.length - 1) checksumType)) last fs =
        (0,
          (closedSpans (last + 1) closed).map (fun span =>
            Segment.newClosed span.1 (span.1 + span.2.length - 1) checksumType),
          last + closed.flatten.length, fs) := by
  induction closed with
  | nil => intro last _; simp [closedSpans, SegmentLogStorage.checkSegments]
  | cons records rest ih =>
      intro last nonneg
      have positive : 0 < records.length :=
        List.length_pos_iff.mpr (nonempty records List.mem_cons_self)
      have tail := ih (fun other member => nonempty other (List.mem_cons_of_mem _ member))
        (last + records.length) (by omega)
      have shift : last + (records.length : Int) + 1 = last + 1 + records.length := by omega
      have segmentLast : last + 1 + (records.length : Int) - 1 = last + records.length := by
        omega
      rw [shift] at tail
      simp only [closedSpans, List.map_cons, SegmentLogStorage.checkSegments,
        Segment.newClosed, segmentLast]
      rw [if_neg (by omega), if_neg (by omega), if_neg (by omega), if_neg (by omega)]
      simp only [Segment.newClosed] at tail
      rw [tail]
      simp only [List.flatten_cons, List.length_append, Nat.cast_add, Prod.mk.injEq, true_and,
        and_true]
      omega

theorem checkSegments_keep (checksumType : Nat) :
    ∀ (closed : List (List Record)) {layout : Layout} {fs : LogFs},
      layout.closed = closed → layout.Sound codec → OnDisk codec fs.disk layout →
      fs.faults = (fun _ => none) →
      if layout.Refused then
        (SegmentLogStorage.checkSegments layout.firstLogIndex
          (layout.closedSegments checksumType) (-1) fs).1 = -1
      else
        ∃ kept : LogFs,
          SegmentLogStorage.checkSegments layout.firstLogIndex
              (layout.closedSegments checksumType) (-1) fs =
            (0, layout.keep.closedSegments checksumType,
              if layout.keep.closed = [] then -1
              else layout.keep.base + layout.keep.closed.flatten.length - 1, kept) ∧
            OnDisk codec kept.disk layout.keep ∧ layout.keep.Sound codec ∧
            kept.faults = (fun _ => none) := by
  intro closed
  induction closed with
  | nil =>
      intro layout fs shape sound onDisk faults
      have same : layout.keep = layout := by
        simp [Layout.keep, shape, dropBelow]
        rw [← shape]
      rw [if_neg (by simp [Layout.Refused, same, shape]), same]
      refine ⟨fs, ?_, onDisk, sound, faults⟩
      simp [Layout.closedSegments, shape, closedSpans, SegmentLogStorage.checkSegments]
  | cons records rest ih =>
      intro layout fs shape sound onDisk faults
      have positive : 0 < records.length :=
        List.length_pos_iff.mpr (sound.nonempty records (by rw [shape]; exact List.mem_cons_self))
      have restNonempty : ∀ other ∈ rest, other ≠ [] := fun other member =>
        sound.nonempty other (by rw [shape]; exact List.mem_cons_of_mem _ member)
      have base := sound.base
      by_cases below : layout.base + records.length ≤ layout.firstLogIndex
      · -- the first segment is discarded
        have dropped : layout.dropHead.closed = rest := by simp [Layout.dropHead, shape]
        have sameFirst : layout.dropHead.firstLogIndex = layout.firstLogIndex := by
          simp [Layout.dropHead, shape]
        have sameKeep : layout.dropHead.keep = layout.keep := by
          simp [Layout.keep, Layout.dropHead, shape, dropBelow, below]
        have headDisk := onDisk.dropHead sound shape
        have listed : fs.disk.lookup (closedName (layout.base, records)) ≠ none := by
          have member : closedName (layout.base, records) ∈ fs.disk.names.map Prod.fst := by
            rw [onDisk.listed_iff (by simp [FileName.IsTmp, closedName]),
              Layout.files_dropHead shape]
            exact List.mem_cons_self
          rw [← Option.isSome_iff_ne_none]
          exact (lookup_isSome_iff _ _).mpr member
        obtain ⟨inode, found⟩ := Option.ne_none_iff_exists'.mp listed
        have unlinked : ((Segment.newClosed layout.base (layout.base + records.length - 1)
            checksumType).unlink fs).2 =
              fs.record (.rename (closedName (layout.base, records))
                (.tmp (closedName (layout.base, records)))) := by
          simp only [Segment.unlink, Segment.fileName, Segment.newClosed, FileSystem.rename]
          simp only [closedName] at found
          simp [found, FileSystem.perform, faults, closedName]
        have step := ih dropped (Layout.dropHead_sound sound)
          (show OnDisk codec (fs.record (.rename (closedName (layout.base, records))
            (.tmp (closedName (layout.base, records))))).disk layout.dropHead from headDisk)
          faults
        have sameRefused : layout.dropHead.Refused ↔ layout.Refused := by
          unfold Layout.Refused
          rw [sameKeep, sameFirst]
        simp only [sameRefused, sameKeep, sameFirst] at step
        have unfolded : SegmentLogStorage.checkSegments layout.firstLogIndex
            (layout.closedSegments checksumType) (-1) fs =
            SegmentLogStorage.checkSegments layout.firstLogIndex
              (layout.dropHead.closedSegments checksumType) (-1)
              (fs.record (.rename (closedName (layout.base, records))
                (.tmp (closedName (layout.base, records))))) := by
          have headForm : layout.closedSegments checksumType =
              Segment.newClosed layout.base (layout.base + records.length - 1) checksumType ::
                layout.dropHead.closedSegments checksumType := by
            simp [Layout.closedSegments, shape, closedSpans, Layout.dropHead]
          rw [headForm, SegmentLogStorage.checkSegments, unlinked]
          rw [if_neg (by simp only [Segment.newClosed]; omega), if_neg (by simp),
            if_neg (by simp only [Segment.newClosed]; omega),
            if_pos ⟨rfl, by simp only [Segment.newClosed]; omega⟩]
        rw [unfolded]
        exact step
      · have keeps : layout.keep = layout := by
          simp [Layout.keep, shape, dropBelow, below]
          rw [← shape]
        have headForm : layout.closedSegments checksumType =
            Segment.newClosed layout.base (layout.base + records.length - 1) checksumType ::
              (closedSpans (layout.base + records.length) rest).map (fun span =>
                Segment.newClosed span.1 (span.1 + span.2.length - 1) checksumType) := by
          simp [Layout.closedSegments, shape, closedSpans]
        have refusedIff : layout.Refused ↔ layout.firstLogIndex < layout.base := by
          unfold Layout.Refused
          rw [keeps]
          simp [shape]
        by_cases starts : layout.firstLogIndex < layout.base
        · rw [if_pos (refusedIff.mpr starts), headForm, SegmentLogStorage.checkSegments]
          rw [if_neg (by simp only [Segment.newClosed]; omega), if_neg (by simp),
            if_pos ⟨rfl, by simpa [Segment.newClosed] using starts⟩]
        · rw [if_neg (fun refused => starts (refusedIff.mp refused)), keeps]
          have tail := checkSegments_contiguous layout.firstLogIndex rest restNonempty
            checksumType fs (layout.base + records.length - 1) (by omega)
          rw [show layout.base + (records.length : Int) - 1 + 1 =
            layout.base + records.length by omega] at tail
          refine ⟨fs, ?_, onDisk, sound, faults⟩
          rw [headForm, SegmentLogStorage.checkSegments]
          rw [if_neg (by simp only [Segment.newClosed]; omega), if_neg (by simp),
            if_neg (by simp only [Segment.newClosed]; omega),
            if_neg (by simp only [Segment.newClosed]; omega)]
          simp only [Segment.newClosed] at tail ⊢
          rw [tail]
          simp only [shape, reduceCtorEq, if_false, List.flatten_cons, List.length_append,
            Nat.cast_add, Prod.mk.injEq, true_and, and_true]
          omega

theorem dropBelow_end (first base : Int) (closed : List (List Record)) :
    (dropBelow first base closed).1 + (dropBelow first base closed).2.flatten.length =
      base + closed.flatten.length := by
  induction closed generalizing base with
  | nil => simp [dropBelow]
  | cons records rest ih =>
      simp only [dropBelow]
      split
      · rw [ih]
        simp
        omega
      · rfl

theorem Layout.openSegment_keep (layout : Layout) (checksumType : Nat) :
    layout.openSegment checksumType = layout.keep.openSegment checksumType := by
  have sameFirst : layout.openFirst = layout.keep.openFirst :=
    (dropBelow_end layout.firstLogIndex layout.base layout.closed).symm
  unfold Layout.openSegment
  rw [sameFirst]
  rfl

theorem lookup_of_mem {N V : Type} [DecidableEq N] {entries : List (N × V)}
    (keys : (entries.map Prod.fst).Nodup) {key : N} {value : V}
    (member : (key, value) ∈ entries) : entries.lookup key = some value := by
  induction entries with
  | nil => simp at member
  | cons entry rest ih =>
      rcases entry with ⟨headKey, headValue⟩
      simp only [List.map_cons, List.nodup_cons] at keys
      rcases List.mem_cons.mp member with same | later
      · obtain ⟨rfl, rfl⟩ := Prod.mk.injEq .. ▸ same
        simp
      · have differs : key ≠ headKey := by
          rintro rfl
          exact keys.1 (List.mem_map_of_mem later)
        have skip : (key == headKey) = false := by simpa using differs
        rw [List.lookup_cons, skip]
        exact ih keys.2 later

theorem OnDisk.read_closed {disk : LogDisk} {layout : Layout}
    (onDisk : OnDisk codec disk layout) (sound : layout.Sound codec)
    {span : Int × List Record} (member : span ∈ closedSpans layout.base layout.closed) :
    disk.read (closedName span) = some (encodeAll codec span.2) := by
  have listed : (closedName span, span.2) ∈ layout.files :=
    List.mem_append_left _ (List.mem_map_of_mem
      (f := fun span => (closedName span, span.2)) member)
  rw [onDisk.files _ (by simp [FileName.IsTmp, closedName]),
    lookup_of_mem (Layout.files_nodup sound.nonempty) listed]
  rfl

theorem OnDisk.read_open {disk : LogDisk} {layout : Layout}
    (onDisk : OnDisk codec disk layout) (sound : layout.Sound codec)
    {records : List Record} (opened : layout.opened = some records) :
    disk.read (.inprogress layout.openFirst) = some (encodeAll codec records) := by
  have listed : (FileName.inprogress layout.openFirst, records) ∈ layout.files := by
    unfold Layout.files
    rw [opened]
    exact List.mem_append_right _ (by simp)
  rw [onDisk.files _ (by simp [FileName.IsTmp]),
    lookup_of_mem (Layout.files_nodup sound.nonempty) listed]
  rfl

variable [DecidableEq P]

theorem addConfigurations_append (index : Int) (front back : List Record)
    (manager : ConfigurationManager P) :
    addConfigurations codec index (front ++ back) manager =
      addConfigurations codec (index + front.length) back
        (addConfigurations codec index front manager) := by
  induction front generalizing index manager with
  | nil => simp [addConfigurations]
  | cons record rest ih =>
      simp only [List.cons_append, addConfigurations, ih, List.length_cons, Nat.cast_add,
        Nat.cast_one]
      rw [show index + 1 + (rest.length : Int) = index + (rest.length + 1) by omega]

theorem loadClosed_holds (flags : LogFlags) (checksumType : Nat) (fs : LogFs)
    (closed : List (List Record)) :
    ∀ (base last : Int) (manager : ConfigurationManager P),
      (∀ span ∈ closedSpans base closed,
        fs.disk.read (closedName span) = some (encodeAll codec span.2)) →
      (∀ records ∈ closed, ∀ record ∈ records, record.Valid codec) →
      ∃ loaded,
        SegmentLogStorage.loadClosed codec flags
            ((closedSpans base closed).map (fun span =>
              Segment.newClosed span.1 (span.1 + span.2.length - 1) checksumType))
            last manager fs =
          (0, loaded,
            if closed = [] then last else base + closed.flatten.length - 1,
            addConfigurations codec base closed.flatten manager, fs) ∧
        List.Forall₂ (SegmentHolds codec fs.disk false) loaded (closedSpans base closed) := by
  induction closed with
  | nil =>
      intro base last manager _ _
      exact ⟨[], by simp [closedSpans, SegmentLogStorage.loadClosed, addConfigurations],
        List.Forall₂.nil⟩
  | cons records rest ih =>
      intro base last manager reads valid
      have headRead := reads (base, records) List.mem_cons_self
      obtain ⟨head, headLoaded, headHolds, headOpen, _⟩ :=
        Segment.load_holds codec flags
          (Segment.newClosed base (base + records.length - 1) checksumType)
          (valid records List.mem_cons_self) headRead
          (fun _ => by simp only [Segment.newClosed]; omega) manager
      obtain ⟨tail, tailLoaded, tailHolds⟩ :=
        ih (base + records.length) head.lastIndex
          (addConfigurations codec base records manager)
          (fun span member => reads span (List.mem_cons_of_mem _ member))
          (fun other member => valid other (List.mem_cons_of_mem _ member))
      have headLast := headHolds.last
      refine ⟨head :: tail, ?_, List.Forall₂.cons ⟨headOpen, headHolds⟩ tailHolds⟩
      simp only [closedSpans, List.map_cons, SegmentLogStorage.loadClosed, headLoaded]
      rw [if_neg (by decide), show (Segment.newClosed base (base + records.length - 1)
        checksumType).firstIndex = base from rfl, tailLoaded]
      simp only [List.flatten_cons, addConfigurations_append, List.length_append,
        reduceCtorEq, if_false, Prod.mk.injEq, true_and, and_true]
      simp only [Segment.newClosed] at headLast
      split
      · rename_i noRest
        subst noRest
        simp
        omega
      · push_cast
        omega

/-! ### The recovered storage -/

/-- An open segment wholly below the saved first index is discarded too. -/
def Layout.recovered (layout : Layout) : Layout :=
  match layout.keep.opened with
  | none => layout.keep
  | some records =>
      if layout.keep.openFirst + records.length ≤ layout.firstLogIndex then
        { layout.keep with opened := none }
      else layout.keep

theorem dropBelow_above {first base : Int} {closed : List (List Record)}
    (kept : (dropBelow first base closed).2 ≠ []) :
    ∃ records rest, (dropBelow first base closed).2 = records :: rest ∧
      first < (dropBelow first base closed).1 + records.length := by
  induction closed generalizing base with
  | nil => simp [dropBelow] at kept
  | cons records rest ih =>
      by_cases below : base + records.length ≤ first
      · simp only [dropBelow, below, if_true] at kept ⊢
        exact ih kept
      · simp only [dropBelow, below, if_false]
        exact ⟨records, rest, rfl, by omega⟩

theorem Layout.openFirst_keep {layout : Layout} (kept : layout.keep.closed ≠ []) :
    layout.firstLogIndex < layout.keep.openFirst := by
  obtain ⟨records, rest, shape, above⟩ := dropBelow_above kept
  have closedShape : layout.keep.closed = records :: rest := shape
  unfold Layout.openFirst
  rw [closedShape, List.flatten_cons, List.length_append]
  have sameBase : layout.keep.base =
      (dropBelow layout.firstLogIndex layout.base layout.closed).1 := rfl
  rw [sameBase]
  push_cast
  omega

omit [DecidableEq P] in
theorem represents_fixLastLogIndex {storage : SegmentLogStorage} {layout : Layout}
    (first : storage.firstLogIndex = layout.firstLogIndex)
    (last : (if storage.lastLogIndex = 0 then storage.firstLogIndex - 1
      else storage.lastLogIndex) = layout.lastLogIndex)
    (closed : List.Forall₂ (SegmentHolds codec storage.fs.disk false) storage.segments
      (closedSpans layout.base layout.closed))
    (opened : List.Forall₂ (SegmentHolds codec storage.fs.disk true) storage.openSeg.toList
      (layout.opened.toList.map (fun records => (layout.openFirst, records))))
    (onDisk : OnDisk codec storage.fs.disk layout) :
    Represents codec storage.fixLastLogIndex layout := by
  unfold SegmentLogStorage.fixLastLogIndex
  split
  · rename_i zero
    rw [if_pos zero] at last
    exact ⟨first, last, closed, opened, onDisk⟩
  · rename_i nonzero
    rw [if_neg nonzero] at last
    exact ⟨first, last, closed, opened, onDisk⟩

omit [DecidableEq P] in
theorem Layout.Sound.closed_length_pos {layout : Layout} (sound : layout.Sound codec)
    (kept : layout.closed ≠ []) : 0 < layout.closed.flatten.length := by
  obtain ⟨records, rest, shape⟩ := List.exists_cons_of_ne_nil kept
  have nonempty := sound.nonempty records (by rw [shape]; exact List.mem_cons_self)
  have positive := List.length_pos_iff.mpr nonempty
  rw [shape, List.flatten_cons, List.length_append]
  omega

theorem loadSegments_keep (flags : LogFlags) {storage : SegmentLogStorage} {layout : Layout}
    (onDisk : OnDisk codec storage.fs.disk layout.keep) (sound : layout.keep.Sound codec)
    (first : storage.firstLogIndex = layout.firstLogIndex)
    (last : storage.lastLogIndex = 0)
    (segments : storage.segments = layout.keep.closedSegments storage.checksumType)
    (opened : storage.openSeg = layout.keep.openSegment storage.checksumType)
    (faults : storage.fs.faults = (fun _ => none)) (manager : ConfigurationManager P) :
    ∃ result manager',
      SegmentLogStorage.loadSegments codec flags storage manager = (0, result, manager') ∧
        Represents codec result layout.recovered ∧ layout.recovered.Sound codec := by
  have closedValid : ∀ records ∈ layout.keep.closed, ∀ record ∈ records,
      record.Valid codec := by
    intro records member record inRecords
    exact sound.valid record (List.mem_append_left _
      (List.mem_flatten.mpr ⟨records, member, inRecords⟩))
  obtain ⟨loaded, closedLoaded, closedHolds⟩ :=
    loadClosed_holds flags storage.checksumType storage.fs layout.keep.closed
      layout.keep.base storage.lastLogIndex manager
      (fun span member => onDisk.read_closed sound member) closedValid
  have segmentsEq : storage.segments = (closedSpans layout.keep.base layout.keep.closed).map
      (fun span => Segment.newClosed span.1 (span.1 + span.2.length - 1)
        storage.checksumType) := segments
  have firstPositive := sound.first
  have basePositive := sound.base
  have keepFirst : layout.keep.firstLogIndex = layout.firstLogIndex := rfl
  unfold SegmentLogStorage.loadSegments
  rw [segmentsEq, closedLoaded]
  simp only [ne_eq, not_true_eq_false, if_false]
  cases isOpen : layout.keep.opened with
  | none =>
      have noOpen : storage.openSeg = none := by
        rw [opened]
        simp [Layout.openSegment, isOpen]
      have recovered : layout.recovered = layout.keep := by
        simp [Layout.recovered, isOpen]
      rw [recovered]
      simp only [noOpen]
      refine ⟨_, _, rfl, represents_fixLastLogIndex first ?_ closedHolds ?_ onDisk, sound⟩
      · unfold Layout.lastLogIndex
        by_cases noClosed : layout.keep.closed = []
        · simp [noClosed, isOpen, last, first, keepFirst]
        · have closedPositive := sound.closed_length_pos noClosed
          simp only [noClosed, if_false, false_and, Layout.records, isOpen,
            Option.getD_none, List.append_nil]
          rw [if_neg (by omega)]
      · simp [isOpen]
  | some records =>
      have hasOpen : storage.openSeg =
          some (Segment.newOpen layout.keep.openFirst storage.checksumType) := by
        rw [opened]
        simp [Layout.openSegment, isOpen]
      have recordsValid : ∀ record ∈ records, record.Valid codec := by
        intro record member
        refine sound.valid record (List.mem_append_right _ ?_)
        rw [isOpen]
        exact member
      obtain ⟨openLoaded, loads, openHolds, stillOpen, _⟩ :=
        Segment.load_holds codec flags
          (Segment.newOpen layout.keep.openFirst storage.checksumType) recordsValid
          (onDisk.read_open sound isOpen) (by simp [Segment.newOpen])
          (addConfigurations codec layout.keep.base layout.keep.closed.flatten manager)
      have openFirst := openHolds.first
      have openLast := openHolds.last
      simp only [Segment.newOpen] at openFirst openLast
      simp only [hasOpen, loads]
      rw [if_neg (by decide)]
      by_cases below : layout.keep.openFirst + records.length ≤ layout.firstLogIndex
      · -- the open segment is discarded, and no closed one was kept
        have noClosed : layout.keep.closed = [] := by
          by_contra kept
          have above := Layout.openFirst_keep kept
          omega
        have recovered : layout.recovered = { layout.keep with opened := none } := by
          simp [Layout.recovered, isOpen, below]
        have recoveredSound : Layout.Sound codec { layout.keep with opened := none } := by
          refine ⟨sound.nonempty, ?_, sound.base, sound.first, ?_⟩
          · intro record member
            refine sound.valid record (List.mem_append_left _ ?_)
            simpa [Layout.records] using member
          · have bound := sound.bound
            simp only [Layout.records, List.length_append, Option.getD_none,
              List.append_nil] at bound ⊢
            omega
        have files : layout.keep.files =
            [(FileName.inprogress layout.keep.openFirst, records)] := by
          simp [Layout.files, noClosed, closedSpans, isOpen]
        have unlisted : Layout.files { layout.keep with opened := none } = [] := by
          simp [Layout.files, noClosed, closedSpans]
        have removed := onDisk.remove { layout.keep with opened := none }
          (.inprogress layout.keep.openFirst) (by simp [FileName.IsTmp])
          (by simp [files]) rfl (by
            intro other
            rw [files, unlisted]
            by_cases same : other = .inprogress layout.keep.openFirst
            · simp [same]
            · have skip : (other == FileName.inprogress layout.keep.openFirst) = false := by
                simpa using same
              simp [List.lookup_cons, skip])
        have listed : storage.fs.disk.lookup (.inprogress layout.keep.openFirst) ≠ none := by
          obtain ⟨inode, found, _⟩ := read_eq_some (onDisk.read_open sound isOpen)
          rw [found]
          simp
        obtain ⟨inode, found⟩ := Option.ne_none_iff_exists'.mp listed
        have openName : openLoaded.fileName = .inprogress layout.keep.openFirst := by
          simp [Segment.fileName, stillOpen, Segment.newOpen, openFirst]
        have unlinked : (openLoaded.unlink storage.fs).2 =
            storage.fs.record (.rename (.inprogress layout.keep.openFirst)
              (.tmp (.inprogress layout.keep.openFirst))) := by
          simp [Segment.unlink, openName, FileSystem.rename, found, FileSystem.perform, faults]
        rw [if_pos (by omega), unlinked, recovered]
        refine ⟨_, _, rfl, represents_fixLastLogIndex first ?_ ?_ ?_ removed, recoveredSound⟩
        · simp [Layout.lastLogIndex, noClosed, last, first, keepFirst]
        · rw [noClosed] at closedHolds ⊢
          cases closedHolds
          exact List.Forall₂.nil
        · exact List.Forall₂.nil
      · have recovered : layout.recovered = layout.keep := by
          simp [Layout.recovered, isOpen, below]
        rw [if_neg (by omega), recovered]
        refine ⟨_, _, rfl, represents_fixLastLogIndex first ?_ closedHolds ?_ onDisk, sound⟩
        · have lastEq := layout.keep.lastLogIndex_of_file
            (Or.inr (by simp [isOpen]))
          rw [lastEq]
          have counted : layout.keep.records.length =
              layout.keep.closed.flatten.length + records.length := by
            simp [Layout.records, isOpen]
          unfold Layout.openFirst at openLast openFirst below
          rw [counted]
          rw [if_neg (by simp only; omega)]
          simp only
          push_cast
          omega
        · rw [isOpen]
          exact List.Forall₂.cons ⟨stillOpen, openHolds⟩ List.Forall₂.nil

/-- `init` on a directory that holds a layout: refused, or the recovered layout. -/
theorem init_onDisk (flags : LogFlags) {disk : LogDisk} {layout : Layout}
    (onDisk : OnDisk codec disk layout) (sound : layout.Sound codec)
    (checksumType : Nat) (enableSync : Bool) (manager : ConfigurationManager P) :
    if layout.Refused then
      ((SegmentLogStorage.fresh disk checksumType enableSync).init codec flags manager).1 = -1
    else
      ∃ result manager',
        (SegmentLogStorage.fresh disk checksumType enableSync).init codec flags manager =
            (0, result, manager') ∧
          Represents codec result layout.recovered ∧ layout.recovered.Sound codec := by
  set started : SegmentLogStorage :=
    { SegmentLogStorage.fresh disk checksumType enableSync with
      firstLogIndex := layout.firstLogIndex } with startedEq
  have metaLoaded : (SegmentLogStorage.fresh disk checksumType enableSync).loadMeta =
      some started := by
    unfold SegmentLogStorage.loadMeta
    change Option.map _ disk.saved = _
    rw [onDisk.saved]
    rfl
  have startedDisk : OnDisk codec started.fs.disk layout := onDisk
  have scanned := scanDirectory_onDisk startedDisk sound rfl rfl
  have cleaned : OnDisk codec
      ((started.fs.disk.names.map Prod.fst).foldl QuorumKit.unlinkTmp started.fs).disk
      layout := onDisk.unlinkTmps _
  have cleanedFaults :
      ((started.fs.disk.names.map Prod.fst).foldl QuorumKit.unlinkTmp started.fs).faults =
        (fun _ => none) := unlinkTmps_faults _ _
  have checked := checkSegments_keep checksumType layout.closed rfl sound cleaned cleanedFaults
  unfold SegmentLogStorage.init
  simp only [metaLoaded]
  split at checked
  · rename_i refused
    rw [if_pos refused]
    rcases check : SegmentLogStorage.checkSegments layout.firstLogIndex
        (layout.closedSegments checksumType) (-1)
        ((started.fs.disk.names.map Prod.fst).foldl QuorumKit.unlinkTmp started.fs) with
      ⟨ret, kept, last, fs⟩
    rw [check] at checked
    have listed : (SegmentLogStorage.listSegments false started).1 = -1 := by
      unfold SegmentLogStorage.listSegments
      rw [scanned]
      have check' : SegmentLogStorage.checkSegments started.firstLogIndex
          (layout.closedSegments started.checksumType) (-1)
          ((started.fs.disk.names.map Prod.fst).foldl QuorumKit.unlinkTmp started.fs) =
          (ret, kept, last, fs) := check
      simp only [ne_eq, not_true_eq_false, if_false, check']
      simp only at checked
      rw [if_pos (by rw [checked]; decide)]
      exact checked
    rcases outcome : SegmentLogStorage.listSegments false started with ⟨code, failed⟩
    rw [outcome] at listed
    simp only at listed
    simp only [listed]
    rw [if_pos (by decide)]
  · rename_i notRefused
    rw [if_neg notRefused]
    obtain ⟨kept, check, keptDisk, keptSound, keptFaults⟩ := checked
    have check' : SegmentLogStorage.checkSegments started.firstLogIndex
        (layout.closedSegments started.checksumType) (-1)
        ((started.fs.disk.names.map Prod.fst).foldl QuorumKit.unlinkTmp started.fs) = _ := check
    set ready : SegmentLogStorage :=
      { started with
        segments := layout.keep.closedSegments checksumType
        openSeg := layout.keep.openSegment checksumType
        fs := kept } with readyEq
    have listed : SegmentLogStorage.listSegments false started = (0, ready) := by
      unfold SegmentLogStorage.listSegments
      rw [scanned]
      simp only [ne_eq, not_true_eq_false, if_false, check']
      simp only [layout.openSegment_keep]
      cases isOpen : layout.keep.opened with
      | none => simp [Layout.openSegment, isOpen, readyEq]
      | some records =>
          have above : (if layout.keep.closed = [] then (-1 : Int)
              else layout.keep.base + layout.keep.closed.flatten.length - 1) ≤
                layout.keep.openFirst - 1 := by
            have base := keptSound.base
            unfold Layout.openFirst
            split <;> omega
          simp only [Layout.openSegment, isOpen, Option.map_some, readyEq, Segment.newOpen]
          rw [if_neg (by omega)]
          rfl
    simp only [listed]
    exact loadSegments_keep flags keptDisk keptSound rfl rfl rfl rfl keptFaults manager

/-- The first file is not wholly below the first log index, unless it is an
open segment just created for an empty log. -/
def Layout.Consistent (layout : Layout) : Prop :=
  match layout.closed, layout.opened with
  | records :: _, _ =>
      layout.base ≤ layout.firstLogIndex ∧ layout.firstLogIndex < layout.base + records.length
  | [], some records =>
      layout.base ≤ layout.firstLogIndex ∧
        (layout.firstLogIndex < layout.base + records.length ∨
          (records = [] ∧ layout.firstLogIndex = layout.base))
  | [], none => True

omit [DecidableEq P] in
theorem Layout.Consistent.recovered {layout : Layout} (consistent : layout.Consistent) :
    ¬ layout.Refused ∧ layout.recovered.firstLogIndex = layout.firstLogIndex ∧
      layout.recovered.lastLogIndex = layout.lastLogIndex ∧
      ∀ index, layout.recovered.recordAt index = layout.recordAt index := by
  cases shape : layout.closed with
  | cons records rest =>
      simp only [Layout.Consistent, shape] at consistent
      have keeps : layout.keep = layout := by
        have notBelow : ¬ layout.base + records.length ≤ layout.firstLogIndex := by omega
        simp [Layout.keep, shape, dropBelow, notBelow]
        rw [← shape]
      have same : layout.recovered = layout := by
        have above : layout.firstLogIndex < layout.keep.openFirst :=
          Layout.openFirst_keep (by rw [keeps]; simp [shape])
        unfold Layout.recovered
        rw [keeps] at above ⊢
        split
        · rfl
        · rw [if_neg (by omega)]
      refine ⟨?_, by rw [same], by rw [same], fun index => by rw [same]⟩
      rintro ⟨_, refused⟩
      rw [keeps] at refused
      omega
  | nil =>
      have keeps : layout.keep = layout := by
        simp [Layout.keep, shape, dropBelow]
        rw [← shape]
      refine ⟨?_, ?_⟩
      · rintro ⟨kept, _⟩
        rw [keeps] at kept
        exact kept shape
      cases isOpen : layout.opened with
      | none =>
          have same : layout.recovered = layout := by
            unfold Layout.recovered
            rw [keeps]
            simp [isOpen]
          exact ⟨by rw [same], by rw [same], fun index => by rw [same]⟩
      | some records =>
          simp only [Layout.Consistent, shape, isOpen] at consistent
          obtain ⟨lower, reaches | ⟨empty, atStart⟩⟩ := consistent
          · have same : layout.recovered = layout := by
              unfold Layout.recovered
              rw [keeps, isOpen]
              simp only [Layout.openFirst, shape, List.flatten_nil, List.length_nil,
                Nat.cast_zero, Int.add_zero]
              rw [if_neg (by omega)]
            exact ⟨by rw [same], by rw [same], fun index => by rw [same]⟩
          · have dropped : layout.recovered = { layout with opened := none } := by
              unfold Layout.recovered
              rw [keeps, isOpen]
              simp only [Layout.openFirst, shape, List.flatten_nil, List.length_nil,
                Nat.cast_zero, Int.add_zero, empty]
              rw [if_pos (by omega)]
            have noRecords : layout.records = [] := by
              simp [Layout.records, shape, isOpen, empty]
            have last : layout.lastLogIndex = layout.firstLogIndex - 1 := by
              rw [layout.lastLogIndex_of_file (Or.inr (by simp [isOpen])), noRecords]
              simp
              omega
            have lastDropped : ({ layout with opened := none } : Layout).lastLogIndex =
                layout.firstLogIndex - 1 := by
              simp [Layout.lastLogIndex, shape]
            rw [dropped]
            refine ⟨rfl, lastDropped.trans last.symm, ?_⟩
            intro index
            unfold Layout.recordAt
            rw [lastDropped, last, if_neg (by simp only; omega), if_neg (by omega)]

structure SegmentLog (codec : EntryCodec P) where
  storage : SegmentLogStorage
  layout : Layout
  represents : Represents codec storage layout
  sound : layout.Sound codec
  consistent : layout.Consistent
  working : storage.fs.faults = fun _ => none

end Recovery

end QuorumKit
