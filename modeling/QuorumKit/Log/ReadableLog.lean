/-
The log that `SegmentLogStorage::init` leaves behind, for any directory.

`list_segments` refuses a hole between two closed segments and discards the closed segments in
front of the saved first index.  A hole in front of the open segment is only a warning, and the
last index `-1` means that no closed segment was kept so far.
-/

import QuorumKit.Library.RangeChain
import QuorumKit.Log.EntryIndex
import QuorumKit.Log.Recovery

namespace QuorumKit

open Library
open Library.RangeChain (Includes Chain chainEnd chainEnd_eq)

namespace Segment

def range (segment : Segment) : Int × Int := (segment.firstIndex, segment.lastIndex)

end Segment

namespace SegmentLogStorage

/-- One segment covers an index, and `get_term` answers the term that the header of the entry
in the file of that segment has. -/
def ReadableAt (storage : SegmentLogStorage) (index : Int) : Prop :=
  ∃ segment file header,
    (storage.segments ++ storage.openSeg.toList).filter
        (fun segment => Includes segment.range index) = [segment] ∧
      storage.fs.disk.read segment.fileName = some file ∧
      storedHeader file (index - segment.firstIndex).toNat 0 = some header ∧
      storage.getTerm index = header.term

def Readable (storage : SegmentLogStorage) : Prop :=
  ∀ index, storage.firstLogIndex ≤ index → index ≤ storage.lastLogIndex →
    storage.ReadableAt index

end SegmentLogStorage

/-! ### What a scan of the directory finds -/

/-- The closed segments that the names stand for, by first index. -/
def foundClosed (checksumType : Nat) (names : List FileName) (segments : List Segment) :
    List Segment :=
  names.foldl (fun segments name =>
    match classifyName false name.render with
    | .closedSegment firstIndex lastIndex =>
        insertSegment (Segment.newClosed firstIndex lastIndex checksumType) segments
    | _ => segments) segments

def foundOpen (names : List FileName) : Option Int :=
  names.findSome? (fun name =>
    match classifyName false name.render with
    | .openSegment firstIndex => some firstIndex
    | _ => none)

structure ClosedMap (segments : List Segment) : Prop where
  sorted : SortedSegments segments
  closed : ∀ segment ∈ segments, segment.isOpen = false

theorem ClosedMap.insert {segment : Segment} {segments : List Segment} (map : ClosedMap segments)
    (isClosed : segment.isOpen = false) : ClosedMap (insertSegment segment segments) := by
  refine ⟨insertSegment_sorted map.sorted, ?_⟩
  intro other member
  rcases mem_insertSegment member with isNew | later
  · rw [isNew]
    exact isClosed
  · exact map.closed other later

theorem foundClosed_map (checksumType : Nat) (names : List FileName) :
    ∀ {segments}, ClosedMap segments → ClosedMap (foundClosed checksumType names segments) := by
  induction names with
  | nil => exact fun map => map
  | cons name rest ih =>
      intro segments map
      unfold foundClosed
      rw [List.foldl_cons]
      cases classifyName false name.render with
      | closedSegment firstIndex lastIndex => exact ih (map.insert rfl)
      | openSegment firstIndex => exact ih map
      | unneeded => exact ih map
      | ignored => exact ih map

structure KeepsOpenFiles (disk left : LogDisk) : Prop where
  wellFormed : left.WellFormed
  reads : ∀ openFirst, left.read (.inprogress openFirst) = disk.read (.inprogress openFirst)

namespace KeepsOpenFiles

theorem refl {disk : LogDisk} (wellFormed : disk.WellFormed) : KeepsOpenFiles disk disk :=
  ⟨wellFormed, fun _ => rfl⟩

theorem trans {disk middle left : LogDisk} (first : KeepsOpenFiles disk middle)
    (second : KeepsOpenFiles middle left) : KeepsOpenFiles disk left :=
  ⟨second.wellFormed, fun openFirst => (second.reads openFirst).trans (first.reads openFirst)⟩

end KeepsOpenFiles

theorem inprogress_needed (openFirst : Int) :
    classifyName false (FileName.inprogress openFirst).render ≠ .unneeded := by
  have notTmp : tmpSuffix.isSuffixOf (FileName.inprogress openFirst).render = false :=
    tmpSuffix_not_printed openFirst _
  unfold classifyName
  rw [notTmp]
  simp only [Bool.false_and, Bool.or_self, Bool.false_eq_true, if_false]
  cases scanClosed (FileName.inprogress openFirst).render with
  | some bounds => simp
  | none =>
      cases scanOpen (FileName.inprogress openFirst).render with
      | some firstIndex => simp
      | none => simp

theorem keeps_unlink {fs : LogFs} {name : FileName} (wellFormed : fs.disk.WellFormed)
    (unneeded : classifyName false name.render = .unneeded) :
    KeepsOpenFiles fs.disk (fs.perform (.unlink name)).2.disk := by
  unfold FileSystem.perform
  cases fs.faults fs.clock with
  | some fault => exact .refl wellFormed
  | none =>
      refine ⟨Disk.wellFormed_unlink _ wellFormed, ?_⟩
      intro openFirst
      have differs : FileName.inprogress openFirst ≠ name := by
        rintro rfl
        exact inprogress_needed openFirst unneeded
      unfold Disk.read
      rw [FileSystem.record_disk, Disk.lookup_unlink, if_neg differs]
      rfl

theorem read_segmentUnlink {segment : Segment} {fs : LogFs} {name : FileName}
    (differs : name ≠ segment.fileName) (notTmp : name ≠ .tmp segment.fileName) :
    (segment.unlink fs).2.disk.read name = fs.disk.read name := by
  unfold Segment.unlink FileSystem.rename FileSystem.perform
  cases listed : fs.disk.lookup segment.fileName with
  | none => rfl
  | some inode =>
      cases fs.faults fs.clock with
      | some fault => rfl
      | none =>
          change (fs.disk.apply (.rename segment.fileName (.tmp segment.fileName))).read name = _
          rw [Disk.read_rename _ listed, if_neg notTmp, if_neg differs]

theorem keeps_segmentUnlink {segment : Segment} {fs : LogFs} (wellFormed : fs.disk.WellFormed)
    (isClosed : segment.isOpen = false) :
    KeepsOpenFiles fs.disk (segment.unlink fs).2.disk := by
  refine ⟨?_, ?_⟩
  · unfold Segment.unlink FileSystem.rename FileSystem.perform
    cases fs.disk.lookup segment.fileName with
    | none => exact wellFormed
    | some inode =>
        cases fs.faults fs.clock with
        | some fault => exact wellFormed
        | none => exact Disk.wellFormed_rename _ wellFormed
  · intro openFirst
    have isName : segment.fileName = .closed segment.firstIndex segment.lastIndex := by
      unfold Segment.fileName
      rw [isClosed]
      rfl
    apply read_segmentUnlink
    · rw [isName]
      simp
    · simp

namespace SegmentLogStorage

/-! ### Scanning and checking -/

structure ScansTo (storage scanned : SegmentLogStorage) : Prop where
  first : scanned.firstLogIndex = storage.firstLogIndex
  last : scanned.lastLogIndex = storage.lastLogIndex
  checksumType : scanned.checksumType = storage.checksumType
  files : KeepsOpenFiles storage.fs.disk scanned.fs.disk

theorem scanDirectory_finds (names : List FileName) :
    ∀ {storage scanned : SegmentLogStorage}, storage.fs.disk.WellFormed →
      scanDirectory false names storage = (0, scanned) →
      ScansTo storage scanned ∧
        scanned.segments = foundClosed storage.checksumType names storage.segments ∧
        scanned.openSeg = storage.openSeg.or ((foundOpen names).map (fun openFirst =>
          Segment.newOpen openFirst storage.checksumType)) := by
  induction names with
  | nil =>
      intro storage scanned wellFormed scans
      have isSame : storage = scanned := (Prod.ext_iff.mp scans).2
      subst isSame
      exact ⟨⟨rfl, rfl, rfl, .refl wellFormed⟩, rfl, (Option.or_none).symm⟩
  | cons name rest ih =>
      intro storage scanned wellFormed scans
      unfold scanDirectory at scans
      unfold foundClosed foundOpen
      rw [List.foldl_cons, List.findSome?_cons]
      cases isClass : classifyName false name.render with
      | unneeded =>
          rw [isClass] at scans
          have files := keeps_unlink wellFormed isClass
          obtain ⟨found, closed, opened⟩ := ih files.wellFormed scans
          exact ⟨⟨found.first, found.last, found.checksumType, files.trans found.files⟩,
            closed, opened⟩
      | closedSegment firstIndex lastIndex =>
          rw [isClass] at scans
          obtain ⟨found, closed, opened⟩ := ih (by exact wellFormed) scans
          exact ⟨⟨found.first, found.last, found.checksumType, found.files⟩, closed, opened⟩
      | openSegment firstIndex =>
          rw [isClass] at scans
          cases isOpen : storage.openSeg with
          | some segment =>
              rw [isOpen] at scans
              have failed : (-1 : Int) = 0 := (Prod.ext_iff.mp scans).1
              exact absurd failed (by decide)
          | none =>
              rw [isOpen] at scans
              obtain ⟨found, closed, opened⟩ := ih (by exact wellFormed) scans
              exact ⟨⟨found.first, found.last, found.checksumType, found.files⟩, closed, opened⟩
      | ignored =>
          rw [isClass] at scans
          exact ih wellFormed scans

/-- The closed segments that `list_segments` keeps, each with the last index of the one in
front of it; while that is `-1`, a segment has to cover the saved first index. -/
def Kept (first : Int) : Int → List (Int × Int) → Prop
  | _, [] => True
  | last, range :: rest =>
      range.1 ≤ range.2 ∧
        ((last = -1 ∧ Includes range first) ∨ (last ≠ -1 ∧ range.1 = last + 1)) ∧
        Kept first range.2 rest

def reaching (first : Int) (segments : List Segment) : List Segment :=
  segments.filter (fun segment => first ≤ segment.lastIndex)

theorem checkSegments_keeps {first : Int} {segments : List Segment} :
    ∀ {last final : Int} {kept : List Segment} {fs after : LogFs},
      last = -1 ∨ first ≤ last → fs.disk.WellFormed →
      (∀ segment ∈ segments, segment.isOpen = false) →
      checkSegments first segments last fs = (0, kept, final, after) →
      Kept first last (kept.map Segment.range) ∧
        final = chainEnd last (kept.map Segment.range) ∧
        kept = reaching first segments ∧ KeepsOpenFiles fs.disk after.disk := by
  induction segments with
  | nil =>
      intro last final kept fs after _ wellFormed _ checks
      simp only [checkSegments, Prod.mk.injEq, true_and] at checks
      obtain ⟨isKept, isFinal, isAfter⟩ := checks
      subst isKept isFinal isAfter
      exact ⟨trivial, rfl, rfl, .refl wellFormed⟩
  | cons segment rest ih =>
      intro last final kept fs after reaches wellFormed closed checks
      have restClosed : ∀ other ∈ rest, other.isOpen = false :=
        fun other member => closed other (List.mem_cons_of_mem _ member)
      unfold checkSegments at checks
      by_cases bad : segment.lastIndex < segment.firstIndex
      · rw [if_pos bad] at checks
        have failed : (-1 : Int) = 0 := (Prod.ext_iff.mp checks).1
        exact absurd failed (by decide)
      rw [if_neg bad] at checks
      by_cases unordered : last ≠ -1 ∧ segment.firstIndex ≠ last + 1
      · rw [if_pos unordered] at checks
        have failed : (-1 : Int) = 0 := (Prod.ext_iff.mp checks).1
        exact absurd failed (by decide)
      rw [if_neg unordered] at checks
      by_cases hole : last = -1 ∧ first < segment.firstIndex
      · rw [if_pos hole] at checks
        have failed : (-1 : Int) = 0 := (Prod.ext_iff.mp checks).1
        exact absurd failed (by decide)
      rw [if_neg hole] at checks
      by_cases below : last = -1 ∧ segment.lastIndex < first
      · rw [if_pos below] at checks
        have files := keeps_segmentUnlink wellFormed (closed segment List.mem_cons_self)
        obtain ⟨isKept, isFinal, isReaching, restFiles⟩ :=
          ih reaches files.wellFormed restClosed checks
        refine ⟨isKept, isFinal, ?_, files.trans restFiles⟩
        unfold reaching
        rw [List.filter_cons_of_neg (by simpa using below.2)]
        exact isReaching
      rw [if_neg below] at checks
      have reachesOn : first ≤ segment.lastIndex := by omega
      generalize tail : checkSegments first rest segment.lastIndex fs = result at checks
      obtain ⟨ret, restKept, restFinal, restAfter⟩ := result
      simp only [Prod.mk.injEq] at checks
      obtain ⟨isRet, isKept, isFinal, isAfter⟩ := checks
      subst isRet isKept isFinal isAfter
      obtain ⟨keepsOn, sameFinal, isReaching, files⟩ :=
        ih (Or.inr reachesOn) wellFormed restClosed tail
      refine ⟨⟨by exact Int.not_lt.mp bad, ?_, keepsOn⟩, sameFinal, ?_, files⟩
      · by_cases noneKept : last = -1
        · left
          exact ⟨noneKept, by unfold Includes Segment.range; omega⟩
        · right
          exact ⟨noneKept, by unfold Segment.range; omega⟩
      · unfold reaching
        rw [List.filter_cons_of_pos (by simpa using reachesOn), isReaching]
        rfl

theorem reaching_map {first : Int} {segments : List Segment} (map : ClosedMap segments) :
    ClosedMap (reaching first segments) :=
  ⟨List.Pairwise.sublist List.filter_sublist map.sorted,
    fun segment member => map.closed segment (List.mem_filter.mp member).1⟩

theorem Kept.chain {first last : Int} {ranges : List (Int × Int)} (kept : Kept first last ranges)
    (noneCovers : ∀ range ∈ ranges, ¬ Includes range first) : Chain last ranges := by
  induction ranges generalizing last with
  | nil => trivial
  | cons range rest ih =>
      obtain ⟨proper, begins, keptOn⟩ := kept
      refine ⟨?_, proper, ih keptOn (fun other member =>
        noneCovers other (List.mem_cons_of_mem _ member))⟩
      rcases begins with ⟨_, covers⟩ | ⟨_, follows⟩
      · exact absurd covers (noneCovers range List.mem_cons_self)
      · exact follows

theorem Kept.single {first : Int} {range : Int × Int} {rest : List (Int × Int)}
    (kept : Kept first (-1) (range :: rest))
    (single : ((range :: rest).filter (fun range => Includes range first)).length ≤ 1) :
    Includes range first ∧ Chain range.2 rest := by
  obtain ⟨proper, begins, keptOn⟩ := kept
  have covers : Includes range first := by
    rcases begins with ⟨_, covers⟩ | ⟨notFirst, _⟩
    · exact covers
    · exact absurd rfl notFirst
  refine ⟨covers, keptOn.chain ?_⟩
  intro other member otherCovers
  rw [List.filter_cons_of_pos (by simpa using covers), List.length_cons] at single
  have listed : other ∈ rest.filter (fun range => Includes range first) :=
    List.mem_filter.mpr ⟨member, by simpa using otherCovers⟩
  have positive := List.length_pos_of_mem listed
  omega

section Load

variable {P : Type} [DecidableEq P] {codec : EntryCodec P} {flags : LogFlags}

/-- What the first loop of `load_segments` does where no file fails. -/
structure ClosedLoaded (segments loaded : List Segment) (disk left : LogDisk) : Prop where
  ranges : loaded.map Segment.range = segments.map Segment.range
  closed : ∀ segment ∈ loaded, segment.isOpen = false
  indexed : ∀ segment ∈ loaded, segment.Indexed left
  wellFormed : left.WellFormed
  others : ∀ name, (∀ segment ∈ segments, name ≠ segment.fileName) → left.read name = disk.read name

theorem loadClosed_loads {segments : List Segment} :
    ∀ {last final : Int} {loaded : List Segment} {manager reached : ConfigurationManager P}
      {fs after : LogFs}, ClosedMap segments → fs.disk.WellFormed →
      loadClosed codec flags segments last manager fs = (0, loaded, final, reached, after) →
      ClosedLoaded segments loaded fs.disk after.disk ∧
        final = chainEnd last (segments.map Segment.range) := by
  induction segments with
  | nil =>
      intro last final loaded manager reached fs after _ wellFormed loads
      simp only [loadClosed, Prod.mk.injEq, true_and] at loads
      obtain ⟨isLoaded, isFinal, _, isAfter⟩ := loads
      subst isLoaded isFinal isAfter
      exact ⟨⟨rfl, by simp, by simp, wellFormed, fun _ _ => rfl⟩, rfl⟩
  | cons segment rest ih =>
      intro last final loaded manager reached fs after map wellFormed loads
      obtain ⟨headBelow, restSorted⟩ := List.pairwise_cons.mp map.sorted
      have restMap : ClosedMap rest :=
        ⟨restSorted, fun other member => map.closed other (List.mem_cons_of_mem _ member)⟩
      have isClosed := map.closed segment List.mem_cons_self
      unfold loadClosed at loads
      generalize one : segment.load codec flags manager fs = result at loads
      obtain ⟨ret, head, grown, middle⟩ := result
      simp only at loads
      by_cases failed : ret ≠ 0
      · rw [if_pos failed] at loads
        exact absurd (Prod.ext_iff.mp loads).1 failed
      rw [if_neg failed] at loads
      have noError : ret = 0 := Classical.not_not.mp failed
      subst noError
      have loadsHead := Segment.loadsTo_of_load one
      generalize tail : loadClosed codec flags rest head.lastIndex grown middle = result at loads
      obtain ⟨ret, restLoaded, restFinal, restManager, restAfter⟩ := result
      simp only [Prod.mk.injEq] at loads
      obtain ⟨isRet, isLoaded, isFinal, _, isAfter⟩ := loads
      subst isRet isLoaded isFinal isAfter
      obtain ⟨restLoads, sameFinal⟩ := ih restMap (loadsHead.wellFormed wellFormed) tail
      have sameRange : head.range = segment.range := by
        unfold Segment.range
        rw [loadsHead.first, loadsHead.closed isClosed]
      have headName := Segment.fileName_eq loadsHead.first loadsHead.isOpen loadsHead.closed
      have notRest : ∀ other ∈ rest, segment.fileName ≠ other.fileName := by
        intro other member same
        have below := headBelow other member
        unfold Segment.fileName at same
        rw [isClosed, restMap.closed other member] at same
        simp only [Bool.false_eq_true, if_false, FileName.closed.injEq] at same
        omega
      refine ⟨⟨?_, ?_, ?_, restLoads.wellFormed, ?_⟩, ?_⟩
      · rw [List.map_cons, List.map_cons, sameRange, restLoads.ranges]
      · intro other member
        rcases List.mem_cons.mp member with isHead | later
        · rw [isHead, loadsHead.isOpen]
          exact isClosed
        · exact restLoads.closed other later
      · intro other member
        rcases List.mem_cons.mp member with isHead | later
        · rw [isHead]
          apply loadsHead.indexed.keep
          rw [headName]
          exact restLoads.others segment.fileName notRest
        · exact restLoads.indexed other later
      · intro name differs
        rw [restLoads.others name (fun other member =>
          differs other (List.mem_cons_of_mem _ member))]
        exact loadsHead.others wellFormed name (differs segment List.mem_cons_self)
      · rw [sameFinal, List.map_cons, chainEnd]
        unfold Segment.range
        rw [loadsHead.closed isClosed]

/-! ### Loading the open segment -/

/-- The last index that `load_segments` sets; `0` is taken for an empty log. -/
def fixedLast (first last : Int) : Int := if last = 0 then first - 1 else last

/-- What becomes of the open segment, with the first index and the number of entries of its
file. -/
inductive OpenLoaded (first ends : Int) (final : SegmentLogStorage) : Option (Int × Nat) → Prop
  | missing (isOpen : final.openSeg = none) (last : final.lastLogIndex = fixedLast first ends) :
      OpenLoaded first ends final none
  | discarded {openFirst : Int} {count : Nat} (below : openFirst - 1 + count < first)
      (isOpen : final.openSeg = none) (last : final.lastLogIndex = fixedLast first ends) :
      OpenLoaded first ends final (some (openFirst, count))
  | kept {openFirst : Int} {count : Nat} (reaches : first ≤ openFirst - 1 + count)
      (segment : Segment) (isFirst : segment.firstIndex = openFirst)
      (isLast : segment.lastIndex = openFirst - 1 + count) (isOpen : final.openSeg = some segment)
      (last : final.lastLogIndex = fixedLast first (openFirst - 1 + count)) :
      OpenLoaded first ends final (some (openFirst, count))

theorem fixLastLogIndex_last (storage : SegmentLogStorage) :
    storage.fixLastLogIndex.lastLogIndex = fixedLast storage.firstLogIndex storage.lastLogIndex ∧
      storage.fixLastLogIndex.firstLogIndex = storage.firstLogIndex ∧
      storage.fixLastLogIndex.segments = storage.segments ∧
      storage.fixLastLogIndex.openSeg = storage.openSeg ∧
      storage.fixLastLogIndex.fs = storage.fs := by
  unfold fixLastLogIndex fixedLast
  by_cases isZero : storage.lastLogIndex = 0
  · rw [if_pos isZero, if_pos isZero]
    exact ⟨rfl, rfl, rfl, rfl, rfl⟩
  · rw [if_neg isZero, if_neg isZero]
    exact ⟨rfl, rfl, rfl, rfl, rfl⟩

/-- The first index of the open segment with the number of entries in its file. -/
def OpenSegmentFile (codec : EntryCodec P) (disk : LogDisk) (opened : Option Int)
    (found : Option (Int × Nat)) : Prop :=
  match opened with
  | none => found = none
  | some openFirst => ∃ file, disk.read (.inprogress openFirst) = some file ∧
      found = some (openFirst, (entriesOf codec file).length)

/-- What `load_segments` does where no file fails. -/
structure Loaded (codec : EntryCodec P) (storage : SegmentLogStorage) (opened : Option Int)
    (final : SegmentLogStorage) : Prop where
  first : final.firstLogIndex = storage.firstLogIndex
  ranges : final.segments.map Segment.range = storage.segments.map Segment.range
  indexed : ∀ segment ∈ final.segments ++ final.openSeg.toList, segment.Indexed final.fs.disk
  opened : ∃ found, OpenSegmentFile codec storage.fs.disk opened found ∧
    OpenLoaded storage.firstLogIndex
      (chainEnd storage.lastLogIndex (storage.segments.map Segment.range)) final found

theorem loadSegments_loads {storage final : SegmentLogStorage} {opened : Option Int}
    {manager reached : ConfigurationManager P}
    (loads : loadSegments codec flags storage manager = (0, final, reached))
    (map : ClosedMap storage.segments) (wellFormed : storage.fs.disk.WellFormed)
    (isOpen : storage.openSeg = opened.map (fun openFirst =>
      Segment.newOpen openFirst storage.checksumType)) :
    Loaded codec storage opened final := by
  unfold loadSegments at loads
  generalize first : loadClosed codec flags storage.segments storage.lastLogIndex manager
    storage.fs = result at loads
  obtain ⟨ret, loaded, ends, grown, middle⟩ := result
  simp only at loads
  by_cases failed : ret ≠ 0
  · rw [if_pos failed] at loads
    exact absurd (Prod.ext_iff.mp loads).1 failed
  rw [if_neg failed] at loads
  have noError : ret = 0 := Classical.not_not.mp failed
  subst noError
  obtain ⟨closedLoads, isEnd⟩ := loadClosed_loads map wellFormed first
  cases opened with
  | none =>
      rw [Option.map_none] at isOpen
      rw [isOpen] at loads
      simp only [Prod.mk.injEq, true_and] at loads
      obtain ⟨isFinal, _⟩ := loads
      subst isFinal
      obtain ⟨sameLast, sameFirst, sameSegments, sameOpen, sameFs⟩ := fixLastLogIndex_last
        { storage with segments := loaded, lastLogIndex := ends, openSeg := none, fs := middle }
      have fixed := sameLast.trans (congrArg (fixedLast storage.firstLogIndex) isEnd)
      refine ⟨sameFirst, ?_, ?_, none, rfl, .missing sameOpen fixed⟩
      · rw [sameSegments]
        exact closedLoads.ranges
      · intro segment member
        rw [sameSegments, sameOpen] at member
        rw [sameFs]
        exact closedLoads.indexed segment (by simpa using member)
  | some openFirst =>
      rw [Option.map_some] at isOpen
      rw [isOpen] at loads
      simp only at loads
      generalize second : (Segment.newOpen openFirst storage.checksumType).load codec flags grown
        middle = result at loads
      obtain ⟨ret, segment, reachedLast, after⟩ := result
      simp only at loads
      by_cases failed : ret ≠ 0
      · rw [if_pos failed] at loads
        exact absurd (Prod.ext_iff.mp loads).1 failed
      rw [if_neg failed] at loads
      have noError : ret = 0 := Classical.not_not.mp failed
      subst noError
      have loadsOpen := Segment.loadsTo_of_load second
      have openName : (Segment.newOpen openFirst storage.checksumType).fileName =
        .inprogress openFirst := rfl
      have loadedName := Segment.fileName_eq loadsOpen.first loadsOpen.isOpen loadsOpen.closed
      rw [openName] at loadedName
      obtain ⟨file, reads, sameTable⟩ := loadsOpen.table
      have isFile : storage.fs.disk.read (.inprogress openFirst) = some file := by
        rw [← closedLoads.others (.inprogress openFirst) (fun other member => by
          rw [Segment.fileName, map.closed other member]
          simp)]
        exact reads
      have isFirst : segment.firstIndex = openFirst := loadsOpen.first
      have isLast : segment.lastIndex = openFirst - 1 + (entriesOf codec file).length := by
        rw [loadsOpen.indexed.last, isFirst, sameTable]
      have closedName : ∀ other ∈ loaded, ∀ name, other.fileName ≠ .inprogress name ∧
          other.fileName ≠ .tmp (.inprogress name) := by
        intro other member name
        rw [Segment.fileName, closedLoads.closed other member]
        simp
      have closedIndexed : ∀ other ∈ loaded, other.Indexed after.disk := by
        intro other member
        apply (closedLoads.indexed other member).keep
        apply loadsOpen.others closedLoads.wellFormed
        rw [openName]
        exact (closedName other member openFirst).1
      by_cases below : segment.lastIndex < storage.firstLogIndex
      · rw [if_pos below] at loads
        simp only [Prod.mk.injEq, true_and] at loads
        obtain ⟨isFinal, _⟩ := loads
        subst isFinal
        obtain ⟨sameLast, sameFirst, sameSegments, sameOpen, sameFs⟩ := fixLastLogIndex_last
          { storage with segments := loaded, lastLogIndex := ends, openSeg := none
                         fs := (segment.unlink after).2 }
        have fixed := sameLast.trans (congrArg (fixedLast storage.firstLogIndex) isEnd)
        refine ⟨sameFirst, ?_, ?_, _, ⟨file, isFile, rfl⟩, .discarded ?_ sameOpen fixed⟩
        · rw [sameSegments]
          exact closedLoads.ranges
        · intro other member
          rw [sameSegments, sameOpen] at member
          have inLoaded : other ∈ loaded := by simpa using member
          rw [sameFs]
          apply (closedIndexed other inLoaded).keep
          have differs := closedName other inLoaded openFirst
          apply read_segmentUnlink
          · rw [loadedName]
            exact differs.1
          · rw [loadedName]
            exact differs.2
        · rw [isLast] at below
          exact below
      · rw [if_neg below] at loads
        simp only [Prod.mk.injEq, true_and] at loads
        obtain ⟨isFinal, _⟩ := loads
        subst isFinal
        obtain ⟨sameLast, sameFirst, sameSegments, sameOpen, sameFs⟩ := fixLastLogIndex_last
          { storage with segments := loaded, lastLogIndex := segment.lastIndex
                         openSeg := some segment, fs := after }
        have fixed := sameLast.trans (congrArg (fixedLast storage.firstLogIndex) isLast)
        refine ⟨sameFirst, ?_, ?_, _, ⟨file, isFile, rfl⟩,
          .kept ?_ segment isFirst isLast sameOpen fixed⟩
        · rw [sameSegments]
          exact closedLoads.ranges
        · intro other member
          rw [sameSegments, sameOpen] at member
          rw [sameFs]
          rcases List.mem_append.mp member with inLoaded | isSegment
          · exact closedIndexed other inLoaded
          · have isSame : other = segment := by simpa using isSegment
            rw [isSame]
            exact loadsOpen.indexed
        · rw [isLast] at below
          exact Int.not_lt.mp below

/-! ### The recovered log -/

def keptRanges (saved : Int) (closed : List Segment) : List (Int × Int) :=
  (reaching saved closed).map Segment.range

/-- What `init` leaves of the segments that it found, in a directory with a saved first index. -/
structure Recovered (codec : EntryCodec P) (disk : LogDisk) (saved : Int) (closed : List Segment)
    (listed : Option Int) (final : SegmentLogStorage) : Prop where
  first : final.firstLogIndex = saved
  ranges : final.segments.map Segment.range = keptRanges saved closed
  kept : Kept saved (-1) (keptRanges saved closed)
  indexed : ∀ segment ∈ final.segments ++ final.openSeg.toList, segment.Indexed final.fs.disk
  opened : ∃ found, OpenSegmentFile codec disk listed found ∧
    OpenLoaded saved (chainEnd 0 (keptRanges saved closed)) final found
  behind : ∀ openFirst, listed = some openFirst →
    chainEnd (-1) (keptRanges saved closed) < openFirst

theorem OpenSegmentFile.congr {disk left : LogDisk} {opened : Option Int} {found : Option (Int × Nat)}
    (file : OpenSegmentFile codec left opened found)
    (same : ∀ openFirst, left.read (.inprogress openFirst) = disk.read (.inprogress openFirst)) :
    OpenSegmentFile codec disk opened found := by
  cases opened with
  | none => exact file
  | some openFirst =>
      obtain ⟨bytes, reads, isFound⟩ := file
      exact ⟨bytes, (same openFirst).symm.trans reads, isFound⟩

theorem recovers (storage : SegmentLogStorage) {final : SegmentLogStorage}
    {manager reached : ConfigurationManager P}
    (fresh : storage.segments = [] ∧ storage.openSeg = none ∧ storage.lastLogIndex = 0)
    (wellFormed : storage.fs.disk.WellFormed)
    (lists : (listSegments false storage).1 = 0)
    (loads : loadSegments codec flags (listSegments false storage).2 manager = (0, final, reached)) :
    Recovered codec storage.fs.disk storage.firstLogIndex
      (foundClosed storage.checksumType (storage.fs.disk.names.map Prod.fst) [])
      (foundOpen (storage.fs.disk.names.map Prod.fst)) final := by
  unfold listSegments at lists loads
  generalize scan : scanDirectory false (storage.fs.disk.names.map Prod.fst) storage = result
    at lists loads
  obtain ⟨ret, scanned⟩ := result
  simp only at lists loads
  by_cases failed : ret ≠ 0
  · rw [if_pos failed] at lists
    exact absurd lists failed
  rw [if_neg failed] at lists loads
  have noError : ret = 0 := Classical.not_not.mp failed
  subst noError
  obtain ⟨scans, closed, opened⟩ := scanDirectory_finds _ wellFormed scan
  rw [fresh.1] at closed
  rw [fresh.2.1, Option.none_or] at opened
  have map : ClosedMap scanned.segments := by
    rw [closed]
    exact foundClosed_map _ _ ⟨List.Pairwise.nil, by simp⟩
  generalize check : checkSegments scanned.firstLogIndex scanned.segments (-1) scanned.fs = result
    at lists loads
  obtain ⟨ret, kept, last, after⟩ := result
  simp only at lists loads
  by_cases failed : ret ≠ 0
  · rw [if_pos failed] at lists
    exact absurd lists failed
  rw [if_neg failed] at lists loads
  have noError : ret = 0 := Classical.not_not.mp failed
  subst noError
  obtain ⟨isKept, isLast, isReaching, files⟩ :=
    checkSegments_keeps (Or.inl rfl) scans.files.wellFormed map.closed check
  have keptMap : ClosedMap kept := by
    rw [isReaching]
    exact reaching_map map
  have isSaved := scans.first
  have isRanges : kept.map Segment.range = keptRanges storage.firstLogIndex
      (foundClosed storage.checksumType (storage.fs.disk.names.map Prod.fst) []) := by
    rw [isReaching, isSaved, closed]
    rfl
  rw [isRanges] at isLast isKept
  rw [isSaved] at isKept
  have passes : ∀ openFirst, foundOpen (storage.fs.disk.names.map Prod.fst) = some openFirst →
      last < openFirst := by
    intro openFirst isFound
    rw [isFound] at opened
    rw [opened] at lists
    by_contra above
    have overlaps : (Segment.newOpen openFirst storage.checksumType).lastIndex < last := by
      change openFirst - 1 < last
      omega
    simp only [Option.map_some] at lists
    rw [if_pos overlaps] at lists
    have failed : (-1 : Int) = 0 := lists
    exact absurd failed (by decide)
  have listed : loadSegments codec flags { scanned with segments := kept, fs := after } manager =
      (0, final, reached) := by
    cases isFound : foundOpen (storage.fs.disk.names.map Prod.fst) with
    | none =>
        rw [isFound] at opened
        rw [opened] at loads
        rw [← loads, opened]
        rfl
    | some openFirst =>
        have below := passes openFirst isFound
        have apart : ¬ (Segment.newOpen openFirst storage.checksumType).lastIndex < last := by
          change ¬ openFirst - 1 < last
          omega
        rw [isFound] at opened
        rw [opened] at loads
        simp only [Option.map_some] at loads
        rw [if_neg apart] at loads
        rw [← loads, opened]
        rfl
  have isOpen : scanned.openSeg = (foundOpen (storage.fs.disk.names.map Prod.fst)).map
      (fun openFirst => Segment.newOpen openFirst scanned.checksumType) := by
    rw [opened, scans.checksumType]
  have loaded := loadSegments_loads listed keptMap files.wellFormed isOpen
  obtain ⟨found, file, openLoaded⟩ := loaded.opened
  have allFiles := scans.files.trans files
  refine ⟨loaded.first.trans isSaved, loaded.ranges.trans isRanges, isKept, loaded.indexed,
    ⟨found, file.congr allFiles.reads, ?_⟩, ?_⟩
  · have sameEnd : chainEnd scanned.lastLogIndex (kept.map Segment.range) =
        chainEnd 0 (keptRanges storage.firstLogIndex
          (foundClosed storage.checksumType (storage.fs.disk.names.map Prod.fst) [])) := by
      rw [isRanges, scans.last, fresh.2.2]
    rw [← sameEnd, ← isSaved]
    exact openLoaded
  · rw [← isLast]
    exact passes

theorem chain_segment {segments : List Segment} {head : Int × Int} {rest : List (Int × Int)}
    (index : Int) (ranges : segments.map Segment.range = head :: rest) (chain : Chain head.2 rest)
    (lower : head.1 ≤ index) (upper : index ≤ chainEnd head.2 rest) :
    ∃ segment, Includes segment.range index ∧
      segments.filter (fun segment => Includes segment.range index) = [segment] ∧
      (segments.filter (fun segment => segment.firstIndex ≤ index)).getLast? = some segment := by
  obtain ⟨range, covers, single, isLast⟩ := chain.includes lower upper
  rw [← ranges, List.filter_map] at single isLast
  rw [List.getLast?_map] at isLast
  obtain ⟨segment, isSegment, isRange⟩ := Option.map_eq_some_iff.mp isLast
  have segmentCovers : Includes segment.range index := by
    rw [isRange]
    exact covers
  have member : segment ∈ segments :=
    (List.mem_filter.mp (List.mem_of_getLast? isSegment)).1
  have listed : segment ∈ segments.filter (fun segment => Includes segment.range index) :=
    List.mem_filter.mpr ⟨member, by simpa using segmentCovers⟩
  obtain ⟨only, isOnly, _⟩ := List.map_eq_singleton_iff.mp single
  have isFilter : segments.filter (fun segment => Includes segment.range index) = [only] := isOnly
  rw [isFilter] at listed
  have isSame := List.mem_singleton.mp listed
  rw [← isSame] at isFilter
  exact ⟨segment, segmentCovers, isFilter, isSegment⟩

variable {storage : SegmentLogStorage} {index : Int}

theorem getSegment_open {segment : Segment} (lower : storage.firstLogIndex ≤ index)
    (upper : index ≤ storage.lastLogIndex) (isOpen : storage.openSeg = some segment)
    (begins : segment.firstIndex ≤ index) : storage.getSegment index = some segment := by
  unfold getSegment
  rw [if_neg (by omega), if_neg (by omega), isOpen]
  simp only [if_pos begins]

theorem getSegment_closed (lower : storage.firstLogIndex ≤ index)
    (upper : index ≤ storage.lastLogIndex)
    (before : ∀ segment, storage.openSeg = some segment → index < segment.firstIndex) :
    storage.getSegment index =
      (storage.segments.filter (fun segment => segment.firstIndex ≤ index)).getLast? := by
  unfold getSegment
  rw [if_neg (by omega), if_neg (by omega)]
  cases isOpen : storage.openSeg with
  | none => rfl
  | some segment =>
      have behind := before segment isOpen
      simp only
      rw [if_neg (by omega)]

/-- An index is readable where `get_segment` finds the one segment that covers it. -/
theorem readable_at {segment : Segment} (covers : Includes segment.range index)
    (indexed : segment.Indexed storage.fs.disk)
    (single : (storage.segments ++ storage.openSeg.toList).filter
      (fun segment => Includes segment.range index) = [segment])
    (found : storage.getSegment index = some segment) : storage.ReadableAt index := by
  obtain ⟨file, header, reads, isHeader, isTerm⟩ := indexed.getTerm covers.1 covers.2
  refine ⟨segment, file, header, single, reads, isHeader, ?_⟩
  unfold getTerm
  rw [found]
  exact isTerm

theorem readable_of_empty (empty : storage.lastLogIndex < storage.firstLogIndex) :
    storage.Readable := by
  intro index lower upper
  omega

/-! ### Gaps -/

/-- The index behind the closed segments that reach a saved first index. -/
def nextIndex (saved : Int) (closed : List Segment) : Int :=
  match (reaching saved closed).getLast? with
  | none => saved
  | some segment => segment.lastIndex + 1

/-- One closed segment covers the saved first index at most, and the open segment begins at the
index behind the closed ones or before it. -/
structure Gapless (saved : Int) (closed : List Segment) (listed : Option Int) : Prop where
  single : (closed.filter (fun segment => Includes segment.range saved)).length ≤ 1
  joined : ∀ openFirst, listed = some openFirst → openFirst ≤ nextIndex saved closed

/-- The last entry of the files has the index `0`, which is taken for an empty log. -/
def EndsAtZero (codec : EntryCodec P) (disk : LogDisk) (saved : Int) (closed : List Segment)
    (listed : Option Int) : Prop :=
  match listed with
  | none => ∃ segment, (reaching saved closed).getLast? = some segment ∧ segment.lastIndex = 0
  | some openFirst => ∃ file, disk.read (.inprogress openFirst) = some file ∧
      openFirst - 1 + ((entriesOf codec file).length : Int) = 0

theorem nextIndex_nil {saved : Int} {closed : List Segment} (noRanges : keptRanges saved closed = []) :
    nextIndex saved closed = saved := by
  unfold nextIndex
  rw [List.map_eq_nil_iff.mp noRanges]
  rfl

theorem getLast_reaching {saved : Int} {closed : List Segment} {head : Int × Int}
    {rest : List (Int × Int)} (ranges : keptRanges saved closed = head :: rest) :
    ∃ segment, (reaching saved closed).getLast? = some segment ∧
      segment.lastIndex = chainEnd head.2 rest ∧ saved ≤ segment.lastIndex := by
  have ends := chainEnd_eq 0 (keptRanges saved closed)
  cases isLast : (reaching saved closed).getLast? with
  | none =>
      have noRanges : keptRanges saved closed = [] := by
        unfold keptRanges
        rw [List.getLast?_eq_none_iff.mp isLast, List.map_nil]
      rw [noRanges] at ranges
      contradiction
  | some segment =>
      refine ⟨segment, rfl, ?_, ?_⟩
      · unfold keptRanges at ends ranges
        rw [List.getLast?_map, isLast, ranges] at ends
        exact ends.symm
      · have member := List.mem_of_getLast? isLast
        simpa using (List.mem_filter.mp member).2

theorem nextIndex_cons {saved : Int} {closed : List Segment} {head : Int × Int}
    {rest : List (Int × Int)} (ranges : keptRanges saved closed = head :: rest) :
    nextIndex saved closed = chainEnd head.2 rest + 1 := by
  obtain ⟨segment, isLast, ends, _⟩ := getLast_reaching ranges
  unfold nextIndex
  rw [isLast, ← ends]

theorem covering_length (saved : Int) (closed : List Segment) :
    (closed.filter (fun segment => Includes segment.range saved)).length =
      ((keptRanges saved closed).filter (fun range => Includes range saved)).length := by
  unfold keptRanges reaching
  rw [List.filter_map, List.length_map, List.filter_filter]
  congr 1
  apply List.filter_congr
  intro segment _
  by_cases covers : Includes segment.range saved
  · have reaches : saved ≤ segment.lastIndex := covers.2
    simp [covers, reaches]
  · simp [covers]

section Gaps

variable {disk : LogDisk} {saved : Int} {closed : List Segment} {listed : Option Int}
  {final : SegmentLogStorage}

theorem Recovered.range_nonempty (recovered : Recovered codec disk saved closed listed final)
    {head : Int × Int} {rest : List (Int × Int)} (ranges : keptRanges saved closed = head :: rest)
    {openFirst : Int} (isListed : listed = some openFirst) :
    saved ≤ chainEnd head.2 rest ∧ chainEnd head.2 rest < openFirst := by
  obtain ⟨segment, _, ends, reaches⟩ := getLast_reaching ranges
  have behind := recovered.behind openFirst isListed
  rw [ranges, chainEnd] at behind
  exact ⟨by omega, behind⟩

theorem fixedLast_cases (first last : Int) :
    fixedLast first last < first ∨ (last ≠ 0 ∧ fixedLast first last = last) := by
  unfold fixedLast
  by_cases isZero : last = 0
  · rw [if_pos isZero]
    left
    omega
  · rw [if_neg isZero]
    exact Or.inr ⟨isZero, rfl⟩

theorem Recovered.chain (recovered : Recovered codec disk saved closed listed final)
    {head : Int × Int} {rest : List (Int × Int)} (ranges : keptRanges saved closed = head :: rest)
    (single : (closed.filter (fun segment => Includes segment.range saved)).length ≤ 1) :
    head.1 ≤ saved ∧ Chain head.2 rest := by
  have kept := recovered.kept
  rw [covering_length, ranges] at single
  rw [ranges] at kept
  obtain ⟨covers, chain⟩ := kept.single single
  exact ⟨covers.1, chain⟩

theorem readable_closed (recovered : Recovered codec disk saved closed listed final)
    (single : (closed.filter (fun segment => Includes segment.range saved)).length ≤ 1)
    (isOpen : final.openSeg = none)
    (last : final.lastLogIndex = fixedLast saved (chainEnd 0 (keptRanges saved closed))) :
    final.Readable := by
  have first := recovered.first
  rcases fixedLast_cases saved (chainEnd 0 (keptRanges saved closed)) with empty | ⟨nonzero, same⟩
  · apply readable_of_empty
    rw [last, first]
    exact empty
  cases isRanges : keptRanges saved closed with
  | nil =>
      rw [isRanges] at nonzero
      exact absurd rfl nonzero
  | cons head rest =>
      obtain ⟨begins, chain⟩ := recovered.chain isRanges single
      rw [same, isRanges, chainEnd] at last
      intro index lower upper
      obtain ⟨segment, covers, only, isLast⟩ :=
        chain_segment index (recovered.ranges.trans isRanges) chain (by omega) (by omega)
      have member : segment ∈ final.segments :=
        (List.mem_filter.mp (List.mem_of_getLast? isLast)).1
      apply readable_at covers (recovered.indexed segment (List.mem_append_left _ member))
      · rw [isOpen, Option.toList_none, List.append_nil]
        exact only
      · rw [getSegment_closed lower upper (by simp [isOpen])]
        exact isLast

theorem Recovered.closed_behind (recovered : Recovered codec disk saved closed listed final)
    (single : (closed.filter (fun segment => Includes segment.range saved)).length ≤ 1)
    {index : Int} (behind : chainEnd (-1) (keptRanges saved closed) < index) :
    final.segments.filter (fun segment => Includes segment.range index) = [] := by
  apply List.filter_eq_nil_iff.mpr
  intro segment member
  have inRanges : segment.range ∈ keptRanges saved closed := by
    rw [← recovered.ranges]
    exact List.mem_map_of_mem member
  cases isRanges : keptRanges saved closed with
  | nil =>
      rw [isRanges] at inRanges
      contradiction
  | cons head rest =>
      obtain ⟨_, chain⟩ := recovered.chain isRanges single
      rw [isRanges] at inRanges behind
      rw [chainEnd] at behind
      have ends : segment.range.2 ≤ chainEnd head.2 rest := by
        rcases List.mem_cons.mp inRanges with isHead | later
        · rw [isHead]
          exact chain.le_chainEnd
        · exact chain.last_le_chainEnd _ later
      simpa using fun covers : Includes segment.range index => by
        have upper := covers.2
        omega

theorem readable_open (recovered : Recovered codec disk saved closed listed final)
    (gapless : Gapless saved closed listed) {openFirst : Int} (isListed : listed = some openFirst)
    {segment : Segment} (isFirst : segment.firstIndex = openFirst)
    (isOpen : final.openSeg = some segment)
    (last : final.lastLogIndex = fixedLast saved segment.lastIndex) : final.Readable := by
  have first := recovered.first
  have behind := recovered.behind openFirst isListed
  have joined := gapless.joined openFirst isListed
  rcases fixedLast_cases saved segment.lastIndex with empty | ⟨_, same⟩
  · apply readable_of_empty
    rw [last, first]
    exact empty
  rw [same] at last
  intro index lower upper
  by_cases inOpen : openFirst ≤ index
  · have covers : Includes segment.range index := by
      unfold Includes Segment.range
      omega
    have member : segment ∈ final.openSeg.toList := by
      rw [isOpen]
      exact List.mem_singleton.mpr rfl
    apply readable_at covers (recovered.indexed segment (List.mem_append_right _ member))
    · rw [List.filter_append, recovered.closed_behind gapless.single (by omega), isOpen,
        List.nil_append, Option.toList_some, List.filter_cons_of_pos (by simpa using covers)]
      rfl
    · exact getSegment_open lower upper isOpen (by omega)
  · cases isRanges : keptRanges saved closed with
    | nil =>
        rw [nextIndex_nil isRanges] at joined
        omega
    | cons head rest =>
        obtain ⟨begins, chain⟩ := recovered.chain isRanges gapless.single
        rw [nextIndex_cons isRanges] at joined
        obtain ⟨found, covers, only, isLast⟩ :=
          chain_segment index (recovered.ranges.trans isRanges) chain (by omega) (by omega)
        have member : found ∈ final.segments :=
          (List.mem_filter.mp (List.mem_of_getLast? isLast)).1
        have notOpen : ¬ Includes segment.range index := by
          intro both
          have lower := both.1
          unfold Segment.range at lower
          omega
        apply readable_at covers (recovered.indexed found (List.mem_append_left _ member))
        · rw [List.filter_append, only, isOpen, Option.toList_some,
            List.filter_cons_of_neg (by simpa using notOpen)]
          rfl
        · rw [getSegment_closed lower upper ?_]
          · exact isLast
          · intro other isOther
            rw [isOpen] at isOther
            rw [← Option.some.inj isOther]
            omega

theorem OpenSegmentFile.first {found : Option (Int × Nat)}
    (file : OpenSegmentFile codec disk listed found) : listed = found.map Prod.fst := by
  cases listed with
  | none =>
      have isFound : found = none := file
      rw [isFound]
      rfl
  | some openFirst =>
      obtain ⟨bytes, _, isFound⟩ := file
      rw [isFound]
      rfl

theorem readable_of_gapless (recovered : Recovered codec disk saved closed listed final)
    (gapless : Gapless saved closed listed) : final.Readable := by
  obtain ⟨found, file, openLoaded⟩ := recovered.opened
  have isListed := file.first
  cases openLoaded with
  | missing isOpen last => exact readable_closed recovered gapless.single isOpen last
  | discarded below isOpen last => exact readable_closed recovered gapless.single isOpen last
  | kept reaches segment isFirst isLast isOpen last =>
      rw [← isLast] at last
      exact readable_open recovered gapless isListed isFirst isOpen last

/-! ### Logs with a gap -/

structure Extent (saved : Int) (listed : Option Int) (final : SegmentLogStorage) : Prop where
  nonempty : saved ≤ final.lastLogIndex
  opened : ∀ openFirst, listed = some openFirst → openFirst - 1 ≤ final.lastLogIndex ∧
    ∃ segment, final.openSeg = some segment ∧ segment.firstIndex = openFirst

theorem Recovered.extent (recovered : Recovered codec disk saved closed listed final)
    (nonzero : ¬ EndsAtZero codec disk saved closed listed)
    (reaches : keptRanges saved closed ≠ [] ∨
      ∃ openFirst, listed = some openFirst ∧ saved < openFirst) : Extent saved listed final := by
  obtain ⟨found, file, openLoaded⟩ := recovered.opened
  have isListed := file.first
  cases openLoaded with
  | missing isOpen last =>
      have noOpen : listed = none := isListed
      subst noOpen
      cases isRanges : keptRanges saved closed with
      | nil => simp [isRanges] at reaches
      | cons head rest =>
          obtain ⟨segment, isLast, ends, reachesOn⟩ := getLast_reaching isRanges
          rw [isRanges, chainEnd] at last
          by_cases isZero : chainEnd head.2 rest = 0
          · exact absurd ⟨segment, isLast, ends.trans isZero⟩ nonzero
          · have same := last.trans (if_neg isZero)
            exact ⟨by omega, by simp⟩
  | @discarded openFirst count below isOpen last =>
      have isOpenFirst : listed = some openFirst := isListed
      rcases reaches with someRange | ⟨other, isOther, beyond⟩
      · cases isRanges : keptRanges saved closed with
        | nil => exact absurd isRanges someRange
        | cons head rest =>
            have range := recovered.range_nonempty isRanges isOpenFirst
            omega
      · rw [isOpenFirst] at isOther
        have same := Option.some.inj isOther
        omega
  | @kept openFirst count reachesOn segment isFirst isLast isOpen last =>
      have isOpenFirst : listed = some openFirst := isListed
      subst isOpenFirst
      obtain ⟨bytes, reads, isFound⟩ := file
      have isCount : count = (entriesOf codec bytes).length :=
        (Prod.ext_iff.mp (Option.some.inj isFound)).2
      have notZero : openFirst - 1 + (count : Int) ≠ 0 := by
        intro isZero
        rw [isCount] at isZero
        exact nonzero ⟨bytes, reads, isZero⟩
      have same : final.lastLogIndex = openFirst - 1 + count := by
        rw [last]
        exact if_neg notZero
      refine ⟨by omega, ?_⟩
      intro other isOther
      have sameFirst := Option.some.inj isOther
      exact ⟨by omega, segment, isOpen, by omega⟩

theorem Recovered.closed_next (recovered : Recovered codec disk saved closed listed final)
    (single : (closed.filter (fun segment => Includes segment.range saved)).length ≤ 1) :
    final.segments.filter (fun segment => Includes segment.range (nextIndex saved closed)) = [] := by
  cases isRanges : keptRanges saved closed with
  | nil =>
      have noSegments : final.segments = [] := by
        rw [← List.map_eq_nil_iff (f := Segment.range), recovered.ranges, isRanges]
      rw [noSegments]
      rfl
  | cons head rest =>
      apply recovered.closed_behind single
      rw [isRanges, nextIndex_cons isRanges, chainEnd]
      omega

theorem gapless_of_readable (recovered : Recovered codec disk saved closed listed final)
    (nonzero : ¬ EndsAtZero codec disk saved closed listed) (readable : final.Readable) :
    Gapless saved closed listed := by
  have first := recovered.first
  have single : (closed.filter (fun segment => Includes segment.range saved)).length ≤ 1 := by
    by_contra many
    rw [covering_length] at many
    have someRange : keptRanges saved closed ≠ [] := by
      intro noRanges
      rw [noRanges] at many
      exact many (Nat.zero_le 1)
    have extent := recovered.extent nonzero (Or.inl someRange)
    obtain ⟨segment, _, _, only, _⟩ := readable saved (by omega) extent.nonempty
    have length := congrArg List.length only
    rw [List.filter_append, List.length_append, List.length_singleton] at length
    have sameLength : ((keptRanges saved closed).filter (fun range => Includes range saved)).length =
        (final.segments.filter (fun segment => Includes segment.range saved)).length := by
      rw [← recovered.ranges, List.filter_map, List.length_map]
      rfl
    omega
  refine ⟨single, ?_⟩
  intro openFirst isListed
  by_contra beyond
  have lower : saved ≤ nextIndex saved closed := by
    cases isRanges : keptRanges saved closed with
    | nil => rw [nextIndex_nil isRanges]
    | cons head rest =>
        have range := recovered.range_nonempty isRanges isListed
        rw [nextIndex_cons isRanges]
        omega
  have extent := recovered.extent nonzero (Or.inr ⟨openFirst, isListed, by omega⟩)
  obtain ⟨reaches, segment, isOpen, isFirst⟩ := extent.opened openFirst isListed
  obtain ⟨_, _, _, only, _⟩ := readable (nextIndex saved closed) (by omega) (by omega)
  have notOpen : ¬ Includes segment.range (nextIndex saved closed) := by
    intro both
    have lower := both.1
    unfold Segment.range at lower
    omega
  rw [List.filter_append, recovered.closed_next single, isOpen, Option.toList_some,
    List.filter_cons_of_neg (by simpa using notOpen)] at only
  contradiction

/-- A log whose last entry has the index `0` is taken for an empty one. -/
theorem readable_of_endsAtZero (recovered : Recovered codec disk saved closed listed final)
    (zero : EndsAtZero codec disk saved closed listed) : final.Readable := by
  have first := recovered.first
  obtain ⟨found, file, openLoaded⟩ := recovered.opened
  have isListed := file.first
  apply readable_of_empty
  rw [first]
  cases openLoaded with
  | missing isOpen last =>
      have noOpen : listed = none := isListed
      subst noOpen
      obtain ⟨segment, isLast, isZero⟩ := zero
      have ends := chainEnd_eq 0 (keptRanges saved closed)
      unfold keptRanges at ends last
      rw [List.getLast?_map, isLast] at ends
      have endsAtZero : chainEnd 0 ((reaching saved closed).map Segment.range) = 0 :=
        ends.trans isZero
      rw [last, endsAtZero]
      exact Int.sub_one_lt_of_le (Int.le_refl saved)
  | @discarded openFirst count below isOpen last =>
      have isOpenFirst : listed = some openFirst := isListed
      have noRanges : keptRanges saved closed = [] := by
        cases isRanges : keptRanges saved closed with
        | nil => rfl
        | cons head rest =>
            have range := recovered.range_nonempty isRanges isOpenFirst
            omega
      rw [last, noRanges]
      exact Int.sub_one_lt_of_le (Int.le_refl saved)
  | @kept openFirst count reachesOn segment isFirst isLast isOpen last =>
      have isOpenFirst : listed = some openFirst := isListed
      subst isOpenFirst
      obtain ⟨bytes, reads, isFound⟩ := file
      obtain ⟨same, sameReads, isZero⟩ := zero
      rw [reads] at sameReads
      have isCount : count = (entriesOf codec bytes).length :=
        (Prod.ext_iff.mp (Option.some.inj isFound)).2
      rw [← Option.some.inj sameReads, ← isCount] at isZero
      rw [last, isZero]
      exact Int.sub_one_lt_of_le (Int.le_refl saved)

end Gaps

/-! ### The log after a successful `init` -/

/-- Without a saved first index nothing is kept; otherwise no more than one closed segment
covers it, and no gap is in front of the open segment. -/
def WithoutGap (codec : EntryCodec P) (checksumType : Nat) (disk : LogDisk) : Prop :=
  ∀ saved, disk.saved = some saved →
    Gapless saved (foundClosed checksumType (disk.names.map Prod.fst) [])
        (foundOpen (disk.names.map Prod.fst)) ∨
      EndsAtZero codec disk saved (foundClosed checksumType (disk.names.map Prod.fst) [])
        (foundOpen (disk.names.map Prod.fst))

theorem saveMeta_indexes (storage : SegmentLogStorage) (logIndex : Int) :
    (storage.saveMeta logIndex).2.firstLogIndex = storage.firstLogIndex ∧
      (storage.saveMeta logIndex).2.lastLogIndex = storage.lastLogIndex := by
  unfold saveMeta FileSystem.perform
  cases storage.fs.faults storage.fs.clock with
  | some fault => exact ⟨rfl, rfl⟩
  | none => exact ⟨rfl, rfl⟩

theorem init_unsaved {disk : LogDisk} (unsaved : disk.saved = none) (checksumType : Nat)
    (enableSync : Bool) (manager : ConfigurationManager P) :
    ((fresh disk checksumType enableSync).init codec flags manager).2.1.Readable := by
  have noMeta : (fresh disk checksumType enableSync).loadMeta = none := by
    unfold loadMeta fresh
    rw [unsaved]
    rfl
  apply readable_of_empty
  unfold init
  rw [noMeta]
  simp only
  rw [(saveMeta_indexes _ 1).1, (saveMeta_indexes _ 1).2]
  exact Int.zero_lt_one

theorem init_recovers {disk : LogDisk} (wellFormed : disk.WellFormed) {saved : Int}
    (isSaved : disk.saved = some saved) (checksumType : Nat) (enableSync : Bool)
    (manager : ConfigurationManager P)
    (succeeds : ((fresh disk checksumType enableSync).init codec flags manager).1 = 0) :
    Recovered codec disk saved (foundClosed checksumType (disk.names.map Prod.fst) [])
      (foundOpen (disk.names.map Prod.fst))
      ((fresh disk checksumType enableSync).init codec flags manager).2.1 := by
  have isMeta : (fresh disk checksumType enableSync).loadMeta =
      some { fresh disk checksumType enableSync with firstLogIndex := saved } := by
    unfold loadMeta fresh
    rw [isSaved]
    rfl
  unfold init at succeeds ⊢
  rw [isMeta] at succeeds ⊢
  simp only at succeeds ⊢
  generalize start : ({ fresh disk checksumType enableSync with firstLogIndex := saved } :
    SegmentLogStorage) = storage at succeeds ⊢
  have isDisk : storage.fs.disk = disk ∧ storage.checksumType = checksumType ∧
      storage.firstLogIndex = saved ∧ storage.segments = [] ∧ storage.openSeg = none ∧
      storage.lastLogIndex = 0 := by
    rw [← start]
    exact ⟨rfl, rfl, rfl, rfl, rfl, rfl⟩
  generalize lists : listSegments false storage = result at succeeds ⊢
  obtain ⟨ret, listed⟩ := result
  simp only at succeeds ⊢
  by_cases failed : ret ≠ 0
  · rw [if_pos failed] at succeeds
    exact absurd succeeds failed
  rw [if_neg failed] at succeeds ⊢
  generalize loads : loadSegments codec flags listed manager = result at succeeds ⊢
  obtain ⟨loadRet, final, reached⟩ := result
  have noError : loadRet = 0 := succeeds
  subst noError
  have recovered := recovers storage
    ⟨isDisk.2.2.2.1, isDisk.2.2.2.2.1, isDisk.2.2.2.2.2⟩
    (by rw [isDisk.1]; exact wellFormed) (by rw [lists]; exact Classical.not_not.mp failed)
    (by rw [lists]; exact loads)
  rw [isDisk.1, isDisk.2.1, isDisk.2.2.1] at recovered
  exact recovered

variable (codec flags)

end Load

def chainDisk : LogDisk :=
  { names := [(.inprogress 2, 1), (.closed 1 1, 0)]
    content := fun inode =>
      if inode = 0 then
        Record.encode plainCodec { term := 1, type := .noOp, data := [], checksumType := 0 }
      else []
    nextInode := 2
    saved := some 1 }

def gapDisk : LogDisk := { names := [(.inprogress 3, 0)], nextInode := 1, saved := some 1 }

end SegmentLogStorage

end QuorumKit
