/-
The directory scan of `SegmentLogStorage::list_segments`.

Whatever order the directory lists its names in, the scan ends with the closed
segments in ascending order, with the one open segment, and with the leftovers
of earlier unlinks deleted.
-/

import QuorumKit.Log.SegmentLayout

namespace QuorumKit

open Library

def SortedSegments (segments : List Segment) : Prop :=
  segments.Pairwise (fun left right => left.firstIndex < right.firstIndex)

theorem insertSegment_perm {segment : Segment} {segments : List Segment}
    (newKey : ∀ other ∈ segments, other.firstIndex ≠ segment.firstIndex) :
    (insertSegment segment segments).Perm (segment :: segments) := by
  induction segments with
  | nil => exact List.Perm.refl _
  | cons head rest ih =>
      have differs := newKey head List.mem_cons_self
      unfold insertSegment
      split
      · exact List.Perm.refl _
      · rw [if_neg (fun same => differs same.symm)]
        have tail := ih (fun other member => newKey other (List.mem_cons_of_mem _ member))
        exact (tail.cons head).trans (List.Perm.swap segment head rest)

theorem mem_insertSegment {segment other : Segment} {segments : List Segment}
    (member : other ∈ insertSegment segment segments) : other = segment ∨ other ∈ segments := by
  induction segments with
  | nil => exact Or.inl (List.mem_singleton.mp member)
  | cons head rest ih =>
      unfold insertSegment at member
      by_cases below : segment.firstIndex < head.firstIndex
      · rw [if_pos below] at member
        exact List.mem_cons.mp member
      rw [if_neg below] at member
      by_cases same : segment.firstIndex = head.firstIndex
      · rw [if_pos same] at member
        rcases List.mem_cons.mp member with isNew | later
        · exact Or.inl isNew
        · exact Or.inr (List.mem_cons_of_mem _ later)
      · rw [if_neg same] at member
        rcases List.mem_cons.mp member with isHead | later
        · exact Or.inr (by rw [isHead]; exact List.mem_cons_self)
        · rcases ih later with isNew | inRest
          · exact Or.inl isNew
          · exact Or.inr (List.mem_cons_of_mem _ inRest)

theorem insertSegment_sorted {segment : Segment} {segments : List Segment}
    (sorted : SortedSegments segments) : SortedSegments (insertSegment segment segments) := by
  induction segments with
  | nil => simp [insertSegment, SortedSegments]
  | cons head rest ih =>
      obtain ⟨headBelow, restSorted⟩ := List.pairwise_cons.mp sorted
      unfold insertSegment
      by_cases below : segment.firstIndex < head.firstIndex
      · rw [if_pos below]
        apply List.pairwise_cons.mpr ⟨_, sorted⟩
        intro other member
        rcases List.mem_cons.mp member with isHead | later
        · rw [isHead]
          exact below
        · exact lt_trans below (headBelow other later)
      rw [if_neg below]
      by_cases same : segment.firstIndex = head.firstIndex
      · rw [if_pos same]
        apply List.pairwise_cons.mpr ⟨_, restSorted⟩
        intro other member
        rw [same]
        exact headBelow other member
      · rw [if_neg same]
        apply List.pairwise_cons.mpr ⟨_, ih restSorted⟩
        intro other member
        rcases mem_insertSegment member with isNew | later
        · rw [isNew]
          omega
        · exact headBelow other later

theorem foldl_insertSegment {items sortedStart : List Segment}
    (sorted : SortedSegments sortedStart)
    (keys : ((sortedStart ++ items).map Segment.firstIndex).Nodup) :
    SortedSegments (items.foldl (fun segments item => insertSegment item segments)
        sortedStart) ∧
      (items.foldl (fun segments item => insertSegment item segments) sortedStart).Perm
        (sortedStart ++ items) := by
  induction items generalizing sortedStart with
  | nil => simpa using sorted
  | cons item rest ih =>
      have newKey : ∀ other ∈ sortedStart, other.firstIndex ≠ item.firstIndex := by
        intro other member same
        rw [List.map_append, List.nodup_append] at keys
        exact keys.2.2 _ (List.mem_map_of_mem member) _
          (List.mem_map_of_mem List.mem_cons_self) same
      have moved : (insertSegment item sortedStart ++ rest).Perm
          (sortedStart ++ item :: rest) :=
        ((insertSegment_perm newKey).append_right rest).trans List.perm_middle.symm
      have nextKeys :
          ((insertSegment item sortedStart ++ rest).map Segment.firstIndex).Nodup :=
        ((moved.map Segment.firstIndex).nodup_iff).mpr keys
      obtain ⟨outSorted, outPerm⟩ := ih (insertSegment_sorted sorted) nextKeys
      exact ⟨outSorted, outPerm.trans moved⟩

theorem sortedSegments_ext {left right : List Segment} (leftSorted : SortedSegments left)
    (rightSorted : SortedSegments right) (same : left.Perm right) : left = right := by
  refine same.eq_of_pairwise ?_ leftSorted rightSorted
  intro first second _ _ below above
  exact absurd (lt_trans below above) (lt_irrefl _)

theorem foldl_insertSegment_eq {items sorted : List Segment}
    (isSorted : SortedSegments sorted) (same : items.Perm sorted) :
    items.foldl (fun segments item => insertSegment item segments) [] = sorted := by
  have keys : ((([] : List Segment) ++ items).map Segment.firstIndex).Nodup := by
    rw [List.nil_append, (same.map Segment.firstIndex).nodup_iff, List.nodup_iff_pairwise_ne,
      List.pairwise_map]
    exact isSorted.imp (fun below => ne_of_lt below)
  obtain ⟨outSorted, outPerm⟩ := foldl_insertSegment List.Pairwise.nil keys
  exact sortedSegments_ext outSorted isSorted (outPerm.trans same)

namespace FileName

def closedBounds : FileName → Option (Int × Int)
  | .closed firstIndex lastIndex => some (firstIndex, lastIndex)
  | _ => none

def openIndex : FileName → Option Int
  | .inprogress firstIndex => some firstIndex
  | _ => none

/-- Names whose indexes `int64_t` holds. -/
def InRange : FileName → Prop
  | .closed firstIndex lastIndex => InInt64 firstIndex ∧ InInt64 lastIndex
  | .inprogress firstIndex => InInt64 firstIndex
  | .tmp _ => True

end FileName

def unlinkTmp (fs : LogFs) : FileName → LogFs
  | .tmp name => (fs.perform (.unlink (.tmp name))).2
  | _ => fs

namespace SegmentLogStorage

theorem scanDirectory_spec (names : List FileName) (inRange : ∀ name ∈ names, name.InRange) :
    ∀ storage : SegmentLogStorage,
      (storage.openSeg.toList.length + (names.filterMap FileName.openIndex).length ≤ 1) →
      scanDirectory false names storage =
        (0,
          { storage with
            segments := ((names.filterMap FileName.closedBounds).map (fun bounds =>
                Segment.newClosed bounds.1 bounds.2 storage.checksumType)).foldl
              (fun segments item => insertSegment item segments) storage.segments
            openSeg := storage.openSeg.or
              ((names.filterMap FileName.openIndex).head?.map (fun firstIndex =>
                Segment.newOpen firstIndex storage.checksumType))
            fs := names.foldl unlinkTmp storage.fs }) := by
  induction names with
  | nil =>
      intro storage _
      simp [scanDirectory]
  | cons name rest ih =>
      intro storage single
      have restRange : ∀ name ∈ rest, name.InRange :=
        fun other member => inRange other (List.mem_cons_of_mem _ member)
      have nameRange := inRange name List.mem_cons_self
      cases name with
      | closed firstIndex lastIndex =>
          have tail := ih restRange
            { storage with
              segments := insertSegment
                (Segment.newClosed firstIndex lastIndex storage.checksumType)
                storage.segments }
            (by simpa [List.filterMap_cons, FileName.openIndex] using single)
          simp only [scanDirectory, classifyName_closed nameRange.1 nameRange.2]
          rw [tail]
          simp [List.filterMap_cons, FileName.closedBounds, FileName.openIndex, unlinkTmp]
      | inprogress firstIndex =>
          have isFirst : storage.openSeg = none ∧ rest.filterMap FileName.openIndex = [] := by
            simp only [List.filterMap_cons, FileName.openIndex, List.length_cons] at single
            refine ⟨?_, List.length_eq_zero_iff.mp (by omega)⟩
            cases opened : storage.openSeg with
            | none => rfl
            | some segment => simp [opened] at single
          have tail := ih restRange
            { storage with
              openSeg := some (Segment.newOpen firstIndex storage.checksumType) }
            (by simp [isFirst.2])
          simp only [scanDirectory, classifyName_inprogress nameRange, isFirst.1]
          rw [tail]
          simp [List.filterMap_cons, FileName.closedBounds, FileName.openIndex, unlinkTmp]
      | tmp inner =>
          have tail := ih restRange
            { storage with fs := (storage.fs.perform (.unlink (.tmp inner))).2 }
            (by simpa [List.filterMap_cons, FileName.openIndex] using single)
          simp only [scanDirectory, classifyName_tmp]
          rw [tail]
          simp [List.filterMap_cons, FileName.closedBounds, FileName.openIndex, unlinkTmp]

end SegmentLogStorage

end QuorumKit
