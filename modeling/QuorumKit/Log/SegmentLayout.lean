/-
A log directory as a chain of segments, and the storages that stand for it.

A `Layout` is the abstract content: the saved first index, the index of the
first record in the files, the records of the closed segments in order and
those of the open segment.  `OnDisk` ties it to a directory and `Represents` to
a storage in memory.  Reading a storage is reading its layout.
-/

import QuorumKit.Log.SegmentFile
import QuorumKit.Log.SegmentLogStorage

namespace QuorumKit

open Library

structure Layout where
  firstLogIndex : Int
  base : Int
  closed : List (List Record)
  opened : Option (List Record)
deriving DecidableEq, Repr

def closedSpans : Int → List (List Record) → List (Int × List Record)
  | _, [] => []
  | base, records :: rest => (base, records) :: closedSpans (base + records.length) rest

theorem closedSpans_append (base : Int) (front back : List (List Record)) :
    closedSpans base (front ++ back) =
      closedSpans base front ++ closedSpans (base + front.flatten.length) back := by
  induction front generalizing base with
  | nil => simp [closedSpans]
  | cons records rest ih =>
      simp only [List.cons_append, closedSpans, ih, List.flatten_cons, List.length_append,
        Nat.cast_add]
      rw [Int.add_assoc]

def closedName (span : Int × List Record) : FileName :=
  .closed span.1 (span.1 + span.2.length - 1)

namespace Layout

def openFirst (layout : Layout) : Int := layout.base + layout.closed.flatten.length

def records (layout : Layout) : List Record :=
  layout.closed.flatten ++ layout.opened.getD []

/-- The last index of the files, or the one before the saved first index when
there is no file. -/
def lastLogIndex (layout : Layout) : Int :=
  if layout.closed = [] ∧ layout.opened = none then layout.firstLogIndex - 1
  else layout.base + layout.records.length - 1

def files (layout : Layout) : List (FileName × List Record) :=
  (closedSpans layout.base layout.closed).map (fun span => (closedName span, span.2)) ++
    layout.opened.toList.map (fun records => (.inprogress layout.openFirst, records))

/-- What any run of the storage guarantees about the files: no closed segment is
empty, records are as `append` writes them, and `int64_t` holds the indexes. -/
structure Sound {P : Type} (codec : EntryCodec P) (layout : Layout) : Prop where
  nonempty : ∀ records ∈ layout.closed, records ≠ []
  valid : ∀ record ∈ layout.records, record.Valid codec
  base : 1 ≤ layout.base
  first : 1 ≤ layout.firstLogIndex
  bound : layout.base + layout.records.length < 2 ^ 63

end Layout

theorem closedSpans_bounds {base : Int} {closed : List (List Record)}
    {span : Int × List Record} (member : span ∈ closedSpans base closed) :
    base ≤ span.1 ∧ span.1 + span.2.length ≤ base + closed.flatten.length ∧
      span.2 ∈ closed := by
  induction closed generalizing base with
  | nil => simp [closedSpans] at member
  | cons records rest ih =>
      simp only [closedSpans, List.mem_cons] at member
      simp only [List.flatten_cons, List.length_append, List.mem_cons]
      rcases member with rfl | later
      · refine ⟨le_refl _, ?_, Or.inl rfl⟩
        change base + (records.length : Int) ≤ _
        omega
      · obtain ⟨lower, upper, listed⟩ := ih later
        refine ⟨by omega, by omega, Or.inr listed⟩

theorem closedSpans_pairwise (base : Int) {closed : List (List Record)}
    (nonempty : ∀ records ∈ closed, records ≠ []) :
    (closedSpans base closed).Pairwise (fun left right => left.1 < right.1) := by
  induction closed generalizing base with
  | nil => simp [closedSpans]
  | cons records rest ih =>
      have positive : 0 < records.length :=
        List.length_pos_iff.mpr (nonempty records List.mem_cons_self)
      simp only [closedSpans, List.pairwise_cons]
      refine ⟨?_, ih _ (fun other member => nonempty other (List.mem_cons_of_mem _ member))⟩
      intro span member
      have lower := (closedSpans_bounds member).1
      omega

theorem Layout.files_nodup {layout : Layout}
    (nonempty : ∀ records ∈ layout.closed, records ≠ []) :
    (layout.files.map Prod.fst).Nodup := by
  have starts := closedSpans_pairwise layout.base nonempty
  have names : ((closedSpans layout.base layout.closed).map closedName).Nodup := by
    rw [List.nodup_iff_pairwise_ne, List.pairwise_map]
    refine starts.imp ?_
    intro left right below same
    simp only [closedName, FileName.closed.injEq] at same
    omega
  unfold Layout.files
  rw [List.map_append, List.map_map]
  change ((closedSpans layout.base layout.closed).map closedName ++ _).Nodup
  cases layout.opened with
  | none => simpa using names
  | some records =>
      simp only [Option.toList_some, List.map_cons, List.map_nil]
      rw [List.nodup_append]
      refine ⟨names, by simp, ?_⟩
      intro name member other isOpen
      obtain ⟨span, _, rfl⟩ := List.mem_map.mp member
      simp only [List.mem_singleton] at isOpen
      subst isOpen
      simp [closedName]

def FileName.IsTmp : FileName → Prop
  | .tmp _ => True
  | _ => False

/-- The directory holds exactly the files of the layout, and leftovers that are
already unlinked. -/
structure OnDisk {P : Type} (codec : EntryCodec P) (disk : LogDisk) (layout : Layout) :
    Prop where
  wellFormed : disk.WellFormed
  saved : disk.saved = some layout.firstLogIndex
  files : ∀ name, ¬ name.IsTmp →
    disk.read name = (layout.files.lookup name).map (encodeAll codec)

def SegmentHolds {P : Type} (codec : EntryCodec P) (disk : LogDisk) (isOpen : Bool)
    (segment : Segment) (span : Int × List Record) : Prop :=
  segment.isOpen = isOpen ∧ segment.Holds codec disk span.1 span.2

structure Represents {P : Type} (codec : EntryCodec P) (storage : SegmentLogStorage)
    (layout : Layout) : Prop where
  first : storage.firstLogIndex = layout.firstLogIndex
  last : storage.lastLogIndex = layout.lastLogIndex
  closed : List.Forall₂ (SegmentHolds codec storage.fs.disk false) storage.segments
    (closedSpans layout.base layout.closed)
  opened : List.Forall₂ (SegmentHolds codec storage.fs.disk true) storage.openSeg.toList
    (layout.opened.toList.map (fun records => (layout.openFirst, records)))
  onDisk : OnDisk codec storage.fs.disk layout

def Layout.recordAt (layout : Layout) (index : Int) : Option Record :=
  if layout.firstLogIndex ≤ index ∧ index ≤ layout.lastLogIndex ∧ layout.base ≤ index then
    layout.records[(index - layout.base).toNat]?
  else none

section Read

variable {P : Type} (codec : EntryCodec P)

theorem forall₂_left {α β : Type} {relation : α → β → Prop} {left : List α}
    {right : List β} (related : List.Forall₂ relation left right) {item : α}
    (member : item ∈ left) : ∃ other ∈ right, relation item other := by
  induction related with
  | nil => simp at member
  | cons head tail ih =>
      rcases List.mem_cons.mp member with rfl | later
      · exact ⟨_, List.mem_cons_self, head⟩
      · obtain ⟨other, listed, holds⟩ := ih later
        exact ⟨other, List.mem_cons_of_mem _ listed, holds⟩

theorem forall₂_getElem? {α β : Type} {relation : α → β → Prop} {left : List α}
    {right : List β} (related : List.Forall₂ relation left right) {position : Nat}
    {other : β} (found : right[position]? = some other) :
    ∃ item, left[position]? = some item ∧ relation item other := by
  induction related generalizing position with
  | nil => simp at found
  | cons head tail ih =>
      cases position with
      | zero =>
          simp only [List.getElem?_cons_zero, Option.some.injEq] at found
          exact ⟨_, rfl, found ▸ head⟩
      | succ position => exact ih found

theorem split_of_getElem? {α : Type} {items : List α} {position : Nat} {item : α}
    (found : items[position]? = some item) :
    items = items.take position ++ item :: items.drop (position + 1) := by
  obtain ⟨below, rfl⟩ := List.getElem?_eq_some_iff.mp found
  rw [← List.drop_eq_getElem_cons below, List.take_append_drop]

theorem closedSegment_covers {disk : LogDisk} {segments : List Segment} {base : Int}
    {closed : List (List Record)} (nonempty : ∀ records ∈ closed, records ≠ [])
    (holds : List.Forall₂ (SegmentHolds codec disk false) segments (closedSpans base closed))
    {index : Int} (lower : base ≤ index)
    (upper : index < base + closed.flatten.length) :
    ∃ segment start front record back,
      (segments.filter (fun segment => segment.firstIndex ≤ index)).getLast? =
          some segment ∧
        segment.Holds codec disk start (front ++ record :: back) ∧
        index = start + front.length ∧
        closed.flatten[(index - base).toNat]? = some record := by
  induction closed generalizing base segments with
  | nil =>
      simp at upper
      omega
  | cons records rest ih =>
      cases holds with
      | cons head tail =>
          rename_i segment others
          have starts : segment.firstIndex = base := head.2.first
          have restNonempty : ∀ records ∈ rest, records ≠ [] :=
            fun other member => nonempty other (List.mem_cons_of_mem _ member)
          have headKept : segment.firstIndex ≤ index := by
            rw [starts]
            exact lower
          simp only [List.flatten_cons, List.length_append] at upper
          by_cases inHead : index < base + records.length
          · -- every later segment starts beyond the index
            have noneLater : others.filter (fun segment => segment.firstIndex ≤ index) = [] := by
              rw [List.filter_eq_nil_iff]
              intro other member
              obtain ⟨span, spanMember, otherHolds⟩ := forall₂_left tail member
              have otherLower := (closedSpans_bounds spanMember).1
              have otherStarts := otherHolds.2.first
              simp only [decide_eq_true_eq]
              omega
            have below : (index - base).toNat < records.length := by omega
            have split := split_of_getElem? (List.getElem?_eq_getElem below)
            have position : ((records.take (index - base).toNat).length : Int) =
                index - base := by
              rw [List.length_take]
              omega
            refine ⟨segment, base, _, _, _, ?_, split ▸ head.2, by omega, ?_⟩
            · rw [List.filter_cons_of_pos (by simpa using headKept), noneLater]
              rfl
            · rw [List.flatten_cons, List.getElem?_append_left below,
                List.getElem?_eq_getElem below]
          · obtain ⟨found, start, front, record, back, isLast, foundHolds, position, same⟩ :=
              ih restNonempty tail (by omega) (by push_cast at upper; omega)
            refine ⟨found, start, front, record, back, ?_, foundHolds, position, ?_⟩
            · rw [List.filter_cons_of_pos (by simpa using headKept),
                List.getLast?_cons, isLast]
              rfl
            · rw [List.flatten_cons, List.getElem?_append_right (by omega)]
              have shifted : (index - base).toNat - records.length =
                  (index - (base + records.length)).toNat := by omega
              rw [shifted]
              exact same

variable {codec}

theorem Layout.lastLogIndex_of_file (layout : Layout)
    (file : layout.closed ≠ [] ∨ layout.opened ≠ none) :
    layout.lastLogIndex = layout.base + layout.records.length - 1 := by
  unfold Layout.lastLogIndex
  rw [if_neg]
  rintro ⟨noClosed, noOpen⟩
  exact file.elim (fun other => other noClosed) (fun other => other noOpen)

/-- `getSegment` finds the segment that holds the record of the layout. -/
theorem Represents.getSegment {storage : SegmentLogStorage} {layout : Layout}
    (represents : Represents codec storage layout) (sound : layout.Sound codec)
    {index : Int} {record : Record} (found : layout.recordAt index = some record) :
    ∃ segment start front back,
      storage.getSegment index = some segment ∧
        segment.Holds codec storage.fs.disk start (front ++ record :: back) ∧
        index = start + front.length := by
  unfold Layout.recordAt at found
  split at found
  · rename_i inRange
    obtain ⟨lower, upper, above⟩ := inRange
    have notEmpty : ¬ storage.firstLogIndex = storage.lastLogIndex + 1 := by
      rw [represents.first, represents.last]
      omega
    have inBounds : ¬ (index < storage.firstLogIndex ∨ storage.lastLogIndex < index) := by
      rw [represents.first, represents.last]
      omega
    have files : layout.closed ≠ [] ∨ layout.opened ≠ none := by
      by_contra none
      push Not at none
      have last : layout.lastLogIndex = layout.firstLogIndex - 1 := by
        simp [Layout.lastLogIndex, none]
      omega
    rw [layout.lastLogIndex_of_file files] at upper
    unfold SegmentLogStorage.getSegment
    simp only [notEmpty, if_false, inBounds]
    have openHolds := represents.opened
    by_cases inClosed : index < layout.openFirst
    · obtain ⟨segment, start, front, other, back, isLast, holds, position, same⟩ :=
        closedSegment_covers codec sound.nonempty represents.closed above inClosed
      have sameRecord : other = record := by
        have inFlatten : (index - layout.base).toNat < layout.closed.flatten.length := by
          unfold Layout.openFirst at inClosed
          omega
        rw [Layout.records, List.getElem?_append_left inFlatten, same] at found
        exact Option.some.inj found
      subst sameRecord
      refine ⟨segment, start, front, back, ?_, holds, position⟩
      cases opened : storage.openSeg with
      | none => exact isLast
      | some openSegment =>
          rw [opened] at openHolds
          cases layoutOpen : layout.opened with
          | none =>
              rw [layoutOpen] at openHolds
              cases openHolds
          | some records =>
              rw [layoutOpen] at openHolds
              cases openHolds with
              | cons head _ =>
                  have starts : openSegment.firstIndex = layout.openFirst := head.2.first
                  have later : ¬ openSegment.firstIndex ≤ index := by omega
                  simpa only [later, if_false] using isLast
    · -- the open segment holds the record
      have pastClosed : layout.closed.flatten.length ≤ (index - layout.base).toNat := by
        unfold Layout.openFirst at inClosed
        omega
      rw [Layout.records, List.getElem?_append_right pastClosed] at found
      cases layoutOpen : layout.opened with
      | none => simp [layoutOpen] at found
      | some records =>
          rw [layoutOpen] at openHolds found
          cases opened : storage.openSeg with
          | none =>
              rw [opened] at openHolds
              cases openHolds
          | some openSegment =>
              rw [opened] at openHolds
              cases openHolds with
              | cons head _ =>
                  have starts : openSegment.firstIndex = layout.openFirst := head.2.first
                  have shifted : (index - layout.base).toNat - layout.closed.flatten.length =
                      (index - layout.openFirst).toNat := by
                    unfold Layout.openFirst
                    omega
                  rw [shifted, Option.getD_some] at found
                  have below := (List.getElem?_eq_some_iff.mp found).1
                  have split := split_of_getElem? found
                  have position :
                      ((records.take (index - layout.openFirst).toNat).length : Int) =
                        index - layout.openFirst := by
                    rw [List.length_take]
                    omega
                  refine ⟨openSegment, layout.openFirst, _, _, ?_, split ▸ head.2, by omega⟩
                  simp only
                  rw [if_pos (by omega)]
  · simp at found

theorem Layout.valid_of_recordAt {layout : Layout} (sound : layout.Sound codec)
    {index : Int} {record : Record} (found : layout.recordAt index = some record) :
    record.Valid codec := by
  unfold Layout.recordAt at found
  split at found
  · exact sound.valid record (List.mem_of_getElem? found)
  · simp at found

theorem Represents.getEntry {storage : SegmentLogStorage} {layout : Layout}
    (represents : Represents codec storage layout) (sound : layout.Sound codec)
    {index : Int} {record : Record} (found : layout.recordAt index = some record) :
    storage.getEntry codec index = record.toEntry codec index := by
  obtain ⟨segment, start, front, back, isSegment, holds, position⟩ :=
    represents.getSegment sound found
  have read := holds.get codec (Layout.valid_of_recordAt sound found)
  unfold SegmentLogStorage.getEntry
  rw [isSegment, position]
  exact read

theorem Represents.getTerm {storage : SegmentLogStorage} {layout : Layout}
    (represents : Represents codec storage layout) (sound : layout.Sound codec)
    {index : Int} {record : Record} (found : layout.recordAt index = some record) :
    storage.getTerm index = record.term := by
  obtain ⟨segment, start, front, back, isSegment, holds, position⟩ :=
    represents.getSegment sound found
  unfold SegmentLogStorage.getTerm
  rw [isSegment, position]
  exact holds.getTerm codec

end Read

end QuorumKit
