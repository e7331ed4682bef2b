/-
Truncating and resetting a segmented log whose system calls work.

Prefix truncation and reset drop whole files from the front, suffix truncation
drops whole files from the back and cuts the segment that is then last.  The
storage keeps standing for a layout, and what it stands for is cut as asked.
-/

import QuorumKit.Log.SegmentSteps

namespace QuorumKit

open Library

section Truncate

variable {P : Type} {codec : EntryCodec P}

/-! ### Dropping files from the front -/

theorem closedSpans_drop (base : Int) (closed : List (List Record)) (count : Nat) :
    closedSpans (base + (closed.take count).flatten.length) (closed.drop count) =
      (closedSpans base closed).drop count := by
  have split := closedSpans_append base (closed.take count) (closed.drop count)
  rw [List.take_append_drop] at split
  rw [split]
  by_cases few : count ≤ closed.length
  · have length : (closedSpans base (closed.take count)).length = count := by
      rw [closedSpans_length, List.length_take, Nat.min_eq_left few]
    exact (List.drop_left' length).symm
  · have all : closed.drop count = [] := List.drop_eq_nil_of_le (by omega)
    rw [all, closedSpans, List.append_nil, List.drop_eq_nil_of_le]
    rw [closedSpans_length, List.length_take]
    omega

/-- The storage after `save_meta` and the unlinks of its first `count` files. -/
def SegmentLogStorage.dropSegments (storage : SegmentLogStorage) (first last : Int)
    (count : Nat) : SegmentLogStorage :=
  { storage with
    firstLogIndex := first
    lastLogIndex := last
    segments := storage.segments.drop count
    openSeg := if count ≤ storage.segments.length then storage.openSeg else none
    fs := SegmentLogStorage.unlinkAll (storage.allSegments.take count)
      (storage.fs.record (.save first)) }

theorem Listed.left {disk : LogDisk} {front back : List Segment}
    (listed : Listed disk (front ++ back)) : Listed disk front := by
  have nodup := listed.nodup
  rw [List.map_append, List.nodup_append] at nodup
  exact ⟨fun segment member => listed.present segment (List.mem_append_left _ member), nodup.1⟩

/-- A name among the segments behind the first `count` is not one of theirs. -/
theorem Listed.not_taken {disk : LogDisk} {segments : List Segment} (listed : Listed disk segments)
    (count : Nat) {segment : Segment} (member : segment ∈ segments.drop count) :
    segment.fileName ∉ (segments.take count).map Segment.fileName := by
  have nodup := listed.nodup
  rw [← List.take_append_drop count segments, List.map_append, List.nodup_append] at nodup
  intro taken
  exact nodup.2.2 _ taken _ (List.mem_map_of_mem member) rfl

theorem Stands.dropSegments {storage : SegmentLogStorage} {layout : Layout}
    (stands : Stands codec storage layout) {first : Int} (positive : 1 ≤ first) (count : Nat)
    (consistent : (layout.resetTo first count).Consistent) :
    Stands codec
      (storage.dropSegments first (layout.resetTo first count).lastLogIndex count)
      (layout.resetTo first count) := by
  have represents := stands.represents
  have listed := represents.listed stands.sound
  have saved := Performed.record stands.working (.save first)
  have savedListed : Listed (storage.fs.record (.save first)).disk storage.allSegments :=
    ⟨listed.present, listed.nodup⟩
  have split := List.take_append_drop count storage.allSegments
  have takenListed : Listed (storage.fs.record (.save first)).disk
      (storage.allSegments.take count) := by
    rw [← split] at savedListed
    exact savedListed.left
  have performed := unlinkAll_performed (storage.allSegments.take count) saved.working takenListed
  have onDisk : OnDisk codec
      (SegmentLogStorage.unlinkAll (storage.allSegments.take count)
        (storage.fs.record (.save first))).disk (layout.resetTo first count) := by
    have dropped := (represents.onDisk.save first).dropFiles (stands.sound.restart positive) count
    rw [performed.disk, List.map_take, represents.fileNames]
    exact dropped
  have sound : (layout.resetTo first count).Sound codec :=
    (stands.sound.restart positive).dropFiles count
  have lookups : ∀ segment ∈ storage.allSegments.drop count,
      (SegmentLogStorage.unlinkAll (storage.allSegments.take count)
        (storage.fs.record (.save first))).disk.lookup segment.fileName =
          storage.fs.disk.lookup segment.fileName := by
    intro segment member
    rw [performed.disk, lookup_unlinks _ segment.fileName_notTmp takenListed
      (listed.not_taken count member)]
    rfl
  have segmentsCount : storage.segments.length = layout.closed.length := by
    rw [represents.closed.length_eq, closedSpans_length]
  have kept : ∀ segment ∈ storage.segments.drop count, segment ∈ storage.allSegments.drop count := by
    intro segment member
    unfold SegmentLogStorage.allSegments
    rw [List.drop_append]
    exact List.mem_append_left _ member
  refine ⟨⟨rfl, rfl, ?_, ?_, onDisk⟩, sound, consistent, performed.working, ?_⟩
  · have behind : List.Forall₂ (SegmentHolds codec storage.fs.disk false)
        (storage.segments.drop count)
        (closedSpans (layout.base + (layout.closed.take count).flatten.length)
          (layout.closed.drop count)) := by
      rw [closedSpans_drop]
      exact List.forall₂_drop count represents.closed
    exact closed_moved onDisk sound behind (fun _ member => member)
      (fun segment member => lookups segment (kept segment member))
  · change List.Forall₂ _ (if count ≤ storage.segments.length then storage.openSeg
      else none).toList ((if count ≤ layout.closed.length then layout.opened
        else none).toList.map _)
    rw [segmentsCount]
    by_cases few : count ≤ layout.closed.length
    · rw [if_pos few, if_pos few]
      have openFirst : (layout.resetTo first count).openFirst = layout.openFirst :=
        layout.openFirst_dropFiles count
      have opened := represents.opened
      rw [openFirst]
      cases isOpen : layout.opened with
      | none =>
          rw [represents.notOpen isOpen]
          exact List.Forall₂.nil
      | some records =>
          obtain ⟨segment, hasOpen, holds⟩ := represents.openSegment isOpen
          rw [hasOpen]
          refine List.Forall₂.cons (holds.moved (lookups segment ?_) ?_) List.Forall₂.nil
          · unfold SegmentLogStorage.allSegments
            rw [List.drop_append_of_le_length (by omega), hasOpen]
            simp
          · rw [holds.fileName_open, ← openFirst]
            exact onDisk.read_open sound (by
              change (if count ≤ layout.closed.length then layout.opened else none) = some records
              rw [if_pos few, isOpen])
    · rw [if_neg few, if_neg few]
      exact List.Forall₂.nil
  · refine ⟨stands.known.own, ?_⟩
    intro segment member
    refine stands.known.segments segment ?_
    rcases List.mem_append.mp member with closed | opened
    · exact List.mem_append_left _ (List.mem_of_mem_drop closed)
    · refine List.mem_append_right _ ?_
      change segment ∈ (if count ≤ storage.segments.length then storage.openSeg
        else none).toList at opened
      split at opened
      · exact opened
      · contradiction

/-! ### `truncate_prefix` and `reset` -/

theorem Layout.records_dropFiles {layout : Layout} {count : Nat}
    (few : count ≤ layout.closed.length) :
    layout.records = (layout.closed.take count).flatten ++ (layout.dropFiles count).records := by
  simp only [Layout.records, Layout.dropFiles, few, if_true]
  rw [← List.append_assoc, ← List.flatten_append, List.take_append_drop]

theorem Layout.live_resetTo {layout : Layout} {first : Int} {count : Nat}
    (few : count ≤ layout.closed.length) (forward : layout.firstLogIndex ≤ first)
    (base : layout.base ≤ layout.firstLogIndex) (positive : 0 ≤ layout.firstLogIndex)
    (reaches : (layout.dropFiles count).base ≤ first) :
    (layout.resetTo first count).live = layout.live.dropBelow first.toNat := by
  have newBase : (layout.dropFiles count).base =
      layout.base + (layout.closed.take count).flatten.length := rfl
  have split := Layout.records_dropFiles few
  unfold Layout.live IndexedLog.dropBelow
  simp only [IndexedLog.mk.injEq]
  refine ⟨rfl, ?_⟩
  change (layout.dropFiles count).records.drop (first - (layout.dropFiles count).base).toNat = _
  rw [List.drop_drop, split, List.drop_append]
  have past : (layout.closed.take count).flatten.length ≤
      (layout.firstLogIndex - layout.base).toNat + (first.toNat - layout.firstLogIndex.toNat) := by
    omega
  rw [List.drop_eq_nil_of_le past, List.nil_append]
  congr 1
  omega

theorem Layout.live_noFiles {layout : Layout} (noClosed : layout.closed = [])
    (noOpen : layout.opened = none) :
    layout.live = { first := layout.firstLogIndex.toNat, entries := [] } := by
  simp [Layout.live, Layout.records, noClosed, noOpen]

theorem Layout.live_stop {layout : Layout} (consistent : layout.Consistent)
    (positive : 1 ≤ layout.firstLogIndex) : (layout.live.stop : Int) = layout.lastLogIndex + 1 := by
  unfold IndexedLog.stop Layout.live
  rw [List.length_drop]
  by_cases file : layout.closed ≠ [] ∨ layout.opened ≠ none
  · have bounds := consistent.base_le file
    have last := layout.lastLogIndex_of_file file
    push_cast
    omega
  · push Not at file
    have last : layout.lastLogIndex = layout.firstLogIndex - 1 := by
      simp [Layout.lastLogIndex, file]
    simp only [Layout.records, file, List.flatten_nil, Option.getD_none, List.append_nil,
      List.length_nil]
    push_cast
    omega

theorem Stands.dropAll {storage : SegmentLogStorage} {layout : Layout}
    (stands : Stands codec storage layout) {first : Int} (positive : 1 ≤ first) :
    ∃ afterLayout,
      Stands codec
        { storage with
          firstLogIndex := first
          lastLogIndex := first - 1
          segments := []
          openSeg := none
          fs := SegmentLogStorage.unlinkAll storage.allSegments (storage.fs.record (.save first)) }
        afterLayout ∧
      afterLayout.live = { first := first.toNat, entries := [] } := by
  have ended := Layout.dropFiles_end (Nat.lt_succ_self layout.closed.length)
  have shape : (layout.resetTo first (layout.closed.length + 1)).closed = [] ∧
      (layout.resetTo first (layout.closed.length + 1)).opened = none := ended
  have segmentsCount : storage.segments.length = layout.closed.length := by
    rw [stands.represents.closed.length_eq, closedSpans_length]
  have consistent : (layout.resetTo first (layout.closed.length + 1)).Consistent := by
    simp [Layout.Consistent, shape]
  have dropped := stands.dropSegments positive (layout.closed.length + 1) consistent
  have allTaken : storage.allSegments.take (layout.closed.length + 1) = storage.allSegments := by
    apply List.take_of_length_le
    unfold SegmentLogStorage.allSegments
    rw [List.length_append, segmentsCount]
    cases storage.openSeg <;> simp
  have noneKept : storage.segments.drop (layout.closed.length + 1) = [] :=
    List.drop_eq_nil_of_le (by omega)
  unfold SegmentLogStorage.dropSegments at dropped
  rw [allTaken, noneKept, if_neg (by omega), Layout.resetTo_last_empty first ended] at dropped
  exact ⟨_, dropped, Layout.live_noFiles shape.1 shape.2⟩

theorem Stands.reset {storage : SegmentLogStorage} {layout : Layout}
    (stands : Stands codec storage layout) {next : Int} (positive : 1 ≤ next) :
    ∃ after afterLayout, storage.reset next = (0, after) ∧ Stands codec after afterLayout ∧
      afterLayout.live = { first := next.toNat, entries := [] } := by
  obtain ⟨afterLayout, after, live⟩ := stands.dropAll positive
  refine ⟨_, afterLayout, ?_, after, live⟩
  unfold SegmentLogStorage.reset SegmentLogStorage.saveMeta
  rw [if_neg (by omega)]
  simp only [FileSystem.perform, stands.working, ne_eq, not_true_eq_false, if_false]
  rfl

theorem closedSpans_below {disk : LogDisk} {segments : List Segment} {base first : Int}
    {closed : List (List Record)} {count : Nat}
    (holds : List.Forall₂ (SegmentHolds codec disk false) segments (closedSpans base closed))
    (below : ∀ segment ∈ segments.take count, segment.lastIndex < first) (lower : base ≤ first) :
    base + (closed.take count).flatten.length ≤ first := by
  induction closed generalizing segments base count with
  | nil => simpa using lower
  | cons records rest ih =>
      cases count with
      | zero => simpa using lower
      | succ count =>
          cases holds with
          | cons head tail =>
              rename_i segment others
              have ends : segment.lastIndex + 1 = base + records.length := head.2.last
              have headBelow := below segment (by simp)
              have othersBelow : ∀ other ∈ others.take count, other.lastIndex < first :=
                fun other member => below other (by simp [member])
              have later := ih tail othersBelow (by omega)
              simp only [List.take_succ_cons, List.flatten_cons, List.length_append]
              push_cast
              omega

theorem takeWhile_length_split {α : Type} (items : List α) (keep : α → Bool) :
    items.take (items.takeWhile keep).length = items.takeWhile keep ∧
      items.drop (items.takeWhile keep).length = items.dropWhile keep := by
  have split := List.takeWhile_append_dropWhile (p := keep) (l := items)
  constructor
  · conv_lhs => rw [← split]
    exact List.take_left' (by rw [split])
  · conv_lhs => rw [← split]
    exact List.drop_left' (by rw [split])

def SegmentLogStorage.segmentsBelow (storage : SegmentLogStorage) (first : Int) : Nat :=
  (storage.segments.takeWhile (fun segment => segment.lastIndex < first)).length

def SegmentLogStorage.Reaches (storage : SegmentLogStorage) (first : Int) : Prop :=
  storage.segments.drop (storage.segmentsBelow first) ≠ [] ∨
    ∃ segment, storage.openSeg = some segment ∧ first ≤ segment.lastIndex

theorem SegmentLogStorage.segmentsBelow_le (storage : SegmentLogStorage) (first : Int) :
    storage.segmentsBelow first ≤ storage.segments.length :=
  (List.takeWhile_prefix _).length_le

theorem SegmentLogStorage.popSegments_reaches (storage : SegmentLogStorage) {first : Int}
    (reaches : storage.Reaches first) :
    storage.popSegments first =
      (storage.allSegments.take (storage.segmentsBelow first),
        { storage with
          firstLogIndex := first
          segments := storage.segments.drop (storage.segmentsBelow first) }) := by
  obtain ⟨taken, dropped⟩ := takeWhile_length_split storage.segments
    (fun segment => segment.lastIndex < first)
  have few := storage.segmentsBelow_le first
  have popped : storage.allSegments.take (storage.segmentsBelow first) =
      storage.segments.takeWhile (fun segment => segment.lastIndex < first) := by
    unfold allSegments
    rw [List.take_append_of_le_length few]
    exact taken
  unfold popSegments
  rw [popped]
  unfold Reaches segmentsBelow at reaches
  unfold segmentsBelow
  rw [dropped] at reaches ⊢
  simp only
  cases kept : storage.segments.dropWhile (fun segment => segment.lastIndex < first) with
  | cons segment rest => rfl
  | nil =>
      obtain ⟨segment, isOpen, above⟩ := reaches.resolve_left (fun some => some kept)
      simp only [List.isEmpty_nil, if_true, isOpen]
      rw [if_neg (by omega)]

theorem SegmentLogStorage.popSegments_all (storage : SegmentLogStorage) {first : Int}
    (beyond : ¬ storage.Reaches first) :
    storage.popSegments first =
      (storage.allSegments,
        { storage with
          firstLogIndex := first, lastLogIndex := first - 1, segments := [], openSeg := none }) := by
  obtain ⟨taken, dropped⟩ := takeWhile_length_split storage.segments
    (fun segment => segment.lastIndex < first)
  unfold Reaches segmentsBelow at beyond
  rw [dropped, not_or, not_not] at beyond
  have whole := List.takeWhile_append_dropWhile
    (p := fun segment : Segment => decide (segment.lastIndex < first)) (l := storage.segments)
  rw [beyond.1, List.append_nil] at whole
  unfold popSegments allSegments
  simp only [beyond.1, List.isEmpty_nil, if_true, whole]
  cases isOpen : storage.openSeg with
  | none => simp
  | some segment =>
      have below : segment.lastIndex < first := by
        by_contra above
        exact beyond.2 ⟨segment, isOpen, by omega⟩
      simp [below]

theorem SegmentLogStorage.below_of_taken (storage : SegmentLogStorage) (first : Int) :
    ∀ segment ∈ storage.segments.take (storage.segmentsBelow first),
      segment.lastIndex < first := by
  intro segment member
  rw [segmentsBelow, (takeWhile_length_split storage.segments _).1] at member
  simpa using List.mem_takeWhile_imp member

theorem SegmentLogStorage.head_reaches (storage : SegmentLogStorage) {first : Int}
    {segment : Segment} {rest : List Segment}
    (kept : storage.segments.drop (storage.segmentsBelow first) = segment :: rest) :
    first ≤ segment.lastIndex := by
  rw [segmentsBelow, (takeWhile_length_split storage.segments _).2] at kept
  have notBelow := List.head_dropWhile_not
    (fun segment : Segment => decide (segment.lastIndex < first)) (l := storage.segments)
    (by rw [kept]; simp)
  simp only [kept, List.head_cons, decide_eq_false_iff_not] at notBelow
  omega

theorem Stands.reaches_file {storage : SegmentLogStorage} {layout : Layout}
    (stands : Stands codec storage layout) {first : Int} (reaches : storage.Reaches first) :
    (layout.dropFiles (storage.segmentsBelow first)).closed ≠ [] ∨
      (layout.dropFiles (storage.segmentsBelow first)).opened ≠ none := by
  have represents := stands.represents
  have few := storage.segmentsBelow_le first
  rw [represents.closed.length_eq, closedSpans_length] at few
  rcases reaches with closed | ⟨segment, isOpen, _⟩
  · left
    intro none
    have keptHolds := List.forall₂_drop (storage.segmentsBelow first) represents.closed
    have noSpans : (closedSpans layout.base layout.closed).drop (storage.segmentsBelow first) =
        [] := by
      have none : layout.closed.drop (storage.segmentsBelow first) = [] := none
      rw [← closedSpans_drop, none]
      rfl
    rw [noSpans, List.forall₂_nil_right_iff] at keptHolds
    exact closed keptHolds
  · right
    intro noOpen
    have noOpen : layout.opened = none := by
      unfold Layout.dropFiles at noOpen
      simpa only [if_pos few] using noOpen
    rw [represents.notOpen noOpen] at isOpen
    contradiction

theorem Stands.resetTo_consistent {storage : SegmentLogStorage} {layout : Layout}
    (stands : Stands codec storage layout) {first : Int} (reaches : storage.Reaches first)
    (starts : (layout.dropFiles (storage.segmentsBelow first)).base ≤ first) :
    (layout.resetTo first (storage.segmentsBelow first)).Consistent := by
  have represents := stands.represents
  have few := storage.segmentsBelow_le first
  rw [represents.closed.length_eq, closedSpans_length] at few
  have keptHolds := List.forall₂_drop (storage.segmentsBelow first) represents.closed
  rw [← closedSpans_drop] at keptHolds
  unfold Layout.Consistent Layout.resetTo Layout.dropFiles
  simp only [if_pos few]
  unfold Layout.dropFiles at starts
  simp only at starts
  cases keptClosed : layout.closed.drop (storage.segmentsBelow first) with
  | cons records rest =>
      rw [keptClosed] at keptHolds
      cases keptSegments : storage.segments.drop (storage.segmentsBelow first) with
      | nil =>
          rw [keptSegments] at keptHolds
          cases keptHolds
      | cons segment others =>
          have above := storage.head_reaches keptSegments
          rw [keptSegments] at keptHolds
          cases keptHolds with
          | cons head _ =>
              have ends := head.2.last
              simp only at ends ⊢
              exact ⟨starts, by omega⟩
  | nil =>
      rw [keptClosed] at keptHolds
      have noSegments : storage.segments.drop (storage.segmentsBelow first) = [] := by
        cases keptSegments : storage.segments.drop (storage.segmentsBelow first) with
        | nil => rfl
        | cons segment others =>
            rw [keptSegments] at keptHolds
            cases keptHolds
      obtain ⟨segment, isSome, above⟩ := reaches.resolve_left (fun some => some noSegments)
      cases isOpen : layout.opened with
      | none =>
          rw [represents.notOpen isOpen] at isSome
          contradiction
      | some records =>
          obtain ⟨other, isOther, holds⟩ := represents.openSegment isOpen
          rw [isSome, Option.some.injEq] at isOther
          subst isOther
          have ends := holds.2.last
          have whole : layout.closed.take (storage.segmentsBelow first) = layout.closed :=
            List.take_of_length_le (List.drop_eq_nil_iff.mp keptClosed)
          simp only [whole, Layout.openFirst] at starts ends ⊢
          exact ⟨starts, Or.inl (by omega)⟩

theorem Stands.last_below {storage : SegmentLogStorage} {layout : Layout}
    (stands : Stands codec storage layout) {first : Int} (beyond : ¬ storage.Reaches first)
    (forward : layout.firstLogIndex < first) : layout.lastLogIndex < first := by
  have represents := stands.represents
  unfold SegmentLogStorage.Reaches at beyond
  rw [not_or, not_not] at beyond
  by_cases file : layout.closed ≠ [] ∨ layout.opened ≠ none
  · have base := stands.consistent.base_le file
    have last := layout.lastLogIndex_of_file file
    have ends := closedSpans_below represents.closed (storage.below_of_taken first) (by omega)
    have whole : layout.closed.take (storage.segmentsBelow first) = layout.closed := by
      apply List.take_of_length_le
      have all := List.drop_eq_nil_iff.mp beyond.1
      rwa [represents.closed.length_eq, closedSpans_length] at all
    rw [whole] at ends
    cases isOpen : layout.opened with
    | none =>
        simp only [Layout.records, isOpen, Option.getD_none, List.append_nil] at last
        omega
    | some records =>
        obtain ⟨segment, isSome, holds⟩ := represents.openSegment isOpen
        have segmentLast := holds.2.last
        have below : ¬ first ≤ segment.lastIndex := fun above => beyond.2 ⟨segment, isSome, above⟩
        simp only [Layout.records, isOpen, Option.getD_some, List.length_append] at last
        simp only [Layout.openFirst] at segmentLast
        push_cast at last
        omega
  · push Not at file
    have last : layout.lastLogIndex = layout.firstLogIndex - 1 := by
      simp [Layout.lastLogIndex, file]
    omega

theorem Stands.truncatePrefix {storage : SegmentLogStorage} {layout : Layout}
    (stands : Stands codec storage layout) {first : Int}
    (forward : storage.firstLogIndex ≤ first) :
    ∃ after afterLayout, storage.truncatePrefix first = (0, after) ∧
      Stands codec after afterLayout ∧ afterLayout.live = layout.live.dropBelow first.toNat := by
  have represents := stands.represents
  have firstEq := represents.first
  have lastEq := represents.last
  have positive := stands.sound.first
  by_cases same : storage.firstLogIndex = first
  · refine ⟨storage, layout, ?_, stands, ?_⟩
    · unfold SegmentLogStorage.truncatePrefix
      rw [if_pos (by omega)]
    · have sameFirst : first.toNat = layout.live.first := by
        rw [← same, firstEq]
        rfl
      rw [sameFirst]
      simp [IndexedLog.dropBelow]
  have moves : ¬ first ≤ storage.firstLogIndex := by omega
  have few := storage.segmentsBelow_le first
  rw [represents.closed.length_eq, closedSpans_length] at few
  by_cases reaches : storage.Reaches first
  · -- the file that holds the new first index stays
    have left := stands.reaches_file reaches
    have file : layout.closed ≠ [] ∨ layout.opened ≠ none := by
      refine left.imp ?_ ?_
      · intro some none
        exact some (by simp [Layout.dropFiles, none])
      · intro some none
        exact some (by simp [Layout.dropFiles, none])
    have base := stands.consistent.base_le file
    have starts : (layout.dropFiles (storage.segmentsBelow first)).base ≤ first :=
      closedSpans_below represents.closed (storage.below_of_taken first) (by omega)
    have consistent := stands.resetTo_consistent reaches starts
    have after := stands.dropSegments (by omega) (storage.segmentsBelow first) consistent
    refine ⟨_, _, ?_, after,
      Layout.live_resetTo few (by omega) base.1 (by omega) starts⟩
    have sameLast := Layout.resetTo_last first left
    have pops := SegmentLogStorage.popSegments_reaches
      { storage with fs := storage.fs.record (.save first) } reaches
    unfold SegmentLogStorage.truncatePrefix SegmentLogStorage.saveMeta
    simp only [if_neg moves, FileSystem.perform, stands.working, ne_eq, not_true_eq_false,
      if_false, pops]
    unfold SegmentLogStorage.dropSegments
    rw [if_pos (storage.segmentsBelow_le first), sameLast, ← lastEq]
    rfl
  · -- the whole log lies below the new first index
    have pops := SegmentLogStorage.popSegments_all
      { storage with fs := storage.fs.record (.save first) } reaches
    obtain ⟨afterLayout, after, live⟩ := stands.dropAll (show 1 ≤ first by omega)
    refine ⟨_, afterLayout, ?_, after, ?_⟩
    · unfold SegmentLogStorage.truncatePrefix SegmentLogStorage.saveMeta
      simp only [if_neg moves, FileSystem.perform, stands.working, ne_eq, not_true_eq_false,
        if_false, pops]
      rfl
    · have below := stands.last_below reaches (by omega)
      have stop := Layout.live_stop stands.consistent positive
      have liveFirst : layout.live.first = layout.firstLogIndex.toNat := rfl
      have none : layout.live.entries.drop (first.toNat - layout.live.first) = [] := by
        apply List.drop_eq_nil_of_le
        unfold IndexedLog.stop at stop
        push_cast at stop
        omega
      rw [live, IndexedLog.dropBelow, none]

def Stands.log {storage : SegmentLogStorage} {layout : Layout}
    (stands : Stands codec storage layout) : SegmentLog codec :=
  ⟨storage, layout, stands.represents, stands.sound, stands.consistent, stands.working⟩

theorem Stands.dropBack {storage : SegmentLogStorage} {layout : Layout}
    (stands : Stands codec storage layout) {lastIndexKept : Int}
    (lower : storage.firstLogIndex - 1 ≤ lastIndexKept)
    (upper : lastIndexKept < storage.lastLogIndex) {kept removed : List Segment}
    (split : storage.segments = kept ++ removed)
    (beyond : ∀ position segment, kept.length ≤ position → 0 < position →
      storage.allSegments[position]? = some segment → lastIndexKept < segment.firstIndex)
    (early : kept = [] → lastIndexKept < storage.firstLogIndex) :
    ∃ after,
      SegmentLogStorage.unlinkFromBack (-1) (removed ++ storage.openSeg.toList).reverse
          storage.fs =
        (if (removed ++ storage.openSeg.toList).reverse = [] then -1 else 0, after) ∧
      Stands codec
        { storage with
          lastLogIndex := (layout.takeFiles kept.length).lastLogIndex
          segments := kept
          openSeg := none
          fs := after }
        (layout.takeFiles kept.length) ∧
      lastIndexKept ≤ (layout.takeFiles kept.length).lastLogIndex := by
  have represents := stands.represents
  have allSplit : storage.allSegments = kept ++ (removed ++ storage.openSeg.toList) := by
    rw [SegmentLogStorage.allSegments, split, List.append_assoc]
  have listed := represents.listed stands.sound
  have gone := listed
  rw [allSplit] at gone
  obtain ⟨after, unlinked, performed⟩ := unlinkFromBack_performed
    (removed ++ storage.openSeg.toList).reverse (-1) stands.working gone.right.reverse
  obtain ⟨_, onDisk, truncated⟩ := stands.log.unlink_crashSafe lower upper allSplit beyond early
  have onDisk : OnDisk codec (storage.fs.disk.replay
      (((removed ++ storage.openSeg.toList).reverse.map Segment.fileName).map unlinkOp))
      (layout.takeFiles kept.length) := onDisk
  rw [← performed.disk] at onDisk
  have keptLe : kept.length ≤ layout.closed.length := by
    have lengths := represents.closed.length_eq
    rw [closedSpans_length, split, List.length_append] at lengths
    omega
  have lookups : ∀ segment ∈ kept,
      after.disk.lookup segment.fileName = storage.fs.disk.lookup segment.fileName := by
    intro segment member
    have other : segment.fileName ∉
        (removed ++ storage.openSeg.toList).reverse.map Segment.fileName := by
      have nodup := gone.nodup
      rw [List.map_append, List.nodup_append] at nodup
      intro listed
      rw [List.map_reverse, List.mem_reverse] at listed
      exact nodup.2.2 _ (List.mem_map_of_mem member) _ listed rfl
    rw [performed.disk]
    exact lookup_unlinks _ segment.fileName_notTmp gone.right.reverse other
  refine ⟨after, unlinked, ⟨⟨represents.first, rfl, ?_, ?_, onDisk⟩, truncated.sound,
    truncated.consistent, performed.working, stands.known.own, ?_⟩, truncated.keeps.lower⟩
  · have taken := List.forall₂_take kept.length represents.closed
    rw [split, List.take_left' rfl, ← closedSpans_take] at taken
    exact closed_moved onDisk truncated.sound taken (fun _ member => member) lookups
  · change List.Forall₂ _ [] ((if kept.length ≤ layout.closed.length then none
      else layout.opened).toList.map _)
    rw [if_pos keptLe]
    exact List.Forall₂.nil
  · intro segment member
    refine stands.known.segments segment ?_
    rw [allSplit]
    have inKept : segment ∈ kept := by simpa [SegmentLogStorage.allSegments] using member
    exact List.mem_append_left _ inKept

/-! ### Cutting the last segment -/

/-- `Segment::truncate` of an open segment that holds the last index kept. -/
theorem Segment.truncate_open {segment : Segment} {lastIndexKept : Int} {fs : LogFs}
    {inode : Nat} (isOpen : segment.isOpen = true) (fd : segment.fd = some inode)
    (working : fs.faults = fun _ => none) (beyond : lastIndexKept < segment.lastIndex) :
    let count := (lastIndexKept + 1 - segment.firstIndex).toNat
    let size := (segment.offsetAndTerm.getD count (0, 0)).1
    segment.truncate lastIndexKept fs =
      (0,
        { segment with
          offsetAndTerm := segment.offsetAndTerm.take count
          lastIndex := lastIndexKept
          bytes := size },
        fs.record (.truncate inode size)) := by
  unfold truncate
  rw [if_neg (by omega)]
  simp only [isOpen, if_true, fd, FileSystem.perform, working]

theorem Segment.truncate_closed {segment : Segment} {lastIndexKept : Int} {fs : LogFs}
    {inode : Nat} (isClosed : segment.isOpen = false) (fd : segment.fd = some inode)
    (working : fs.faults = fun _ => none)
    (listed : fs.disk.lookup (.closed segment.firstIndex segment.lastIndex) = some inode)
    (beyond : lastIndexKept < segment.lastIndex) :
    segment.truncate lastIndexKept fs =
      ({ segment with isOpen := true } : Segment).truncate lastIndexKept
        (fs.record (.rename (.closed segment.firstIndex segment.lastIndex)
          (.inprogress segment.firstIndex))) := by
  have renamed : (fs.record (.rename (.closed segment.firstIndex segment.lastIndex)
      (.inprogress segment.firstIndex))).faults = fun _ => none := working
  have isReopened : ({ segment with isOpen := true } : Segment).isOpen = true := rfl
  rw [Segment.truncate_open isReopened fd renamed beyond]
  unfold truncate
  rw [if_neg (by omega)]
  simp only [isClosed, Bool.false_eq_true, if_false, FileSystem.rename, listed, fd,
    FileSystem.perform, FileSystem.record_faults, working, if_true]

theorem Represents.lastClosed {storage : SegmentLogStorage} {layout : Layout}
    (represents : Represents codec storage layout) {front : List Segment} {segment : Segment}
    (segments : storage.segments = front ++ [segment]) :
    ∃ first records, layout.closed = first ++ [records] ∧
      List.Forall₂ (SegmentHolds codec storage.fs.disk false) front
        (closedSpans layout.base first) ∧
      SegmentHolds codec storage.fs.disk false segment
        (layout.base + first.flatten.length, records) := by
  have closed := represents.closed
  have lengths := closed.length_eq
  rw [segments, closedSpans_length] at lengths
  rcases List.eq_nil_or_concat layout.closed with none | ⟨first, records, shape⟩
  · simp [none] at lengths
  · rw [List.concat_eq_append] at shape
    rw [segments, shape, closedSpans_append] at closed
    rw [shape] at lengths
    simp only [List.length_append, List.length_cons, List.length_nil] at lengths
    have sameLength : front.length = (closedSpans layout.base first).length := by
      rw [closedSpans_length]
      omega
    have fronts := List.forall₂_take_append _ _ _ closed
    have backs := List.forall₂_drop_append _ _ _ closed
    rw [← sameLength, List.take_left' rfl] at fronts
    rw [← sameLength, List.drop_left' rfl] at backs
    cases backs with
    | cons head _ => exact ⟨first, records, shape, fronts, head⟩

theorem Stands.reopen {storage : SegmentLogStorage} {layout : Layout} {front : List Segment}
    {segment : Segment} (stands : Stands codec storage layout)
    (segments : storage.segments = front ++ [segment]) (noOpen : layout.opened = none) :
    ∃ inode records, segment.isOpen = false ∧ segment.fd = some inode ∧
      storage.fs.disk.lookup (.closed segment.firstIndex segment.lastIndex) = some inode ∧
      layout.reopen.opened = some records ∧
      SegmentHolds codec
        (storage.fs.record (.rename (.closed segment.firstIndex segment.lastIndex)
          (.inprogress segment.firstIndex))).disk true { segment with isOpen := true }
        (layout.reopen.openFirst, records) ∧
      layout.reopen.live = layout.live ∧
      Stands codec
        { storage with
          segments := front
          openSeg := some { segment with isOpen := true }
          fs := storage.fs.record (.rename (.closed segment.firstIndex segment.lastIndex)
            (.inprogress segment.firstIndex)) }
        layout.reopen := by
  have represents := stands.represents
  obtain ⟨first, records, shape, fronts, holds⟩ := represents.lastClosed segments
  obtain ⟨inode, fd, listed, content⟩ := holds.2.file
  set start := layout.base + (first.flatten.length : Int) with startEq
  have firstEq : segment.firstIndex = start := holds.2.first
  have lastEq : segment.lastIndex = start + records.length - 1 := by
    have last : segment.lastIndex + 1 = start + records.length := holds.2.last
    omega
  have name : FileName.closed segment.firstIndex segment.lastIndex =
      closedName (start, records) := by
    rw [firstEq, lastEq]
    rfl
  rw [holds.fileName_closed, ← name] at listed
  have reopened := Layout.reopen_of_concat shape
  have openFirst : layout.reopen.openFirst = start := by rw [reopened]; rfl
  have onDisk := represents.onDisk.reopen stands.sound shape noOpen
  rw [← startEq, ← name, ← firstEq] at onDisk
  have file : layout.closed ≠ [] ∨ layout.opened ≠ none := Or.inl (by simp [shape])
  have lastIndex := layout.lastLogIndex_of_file file
  have bounds := stands.consistent.base_le file
  have sound := stands.sound.reopen shape noOpen
  have sameRecords := Layout.records_reopen shape noOpen
  have consistent : layout.reopen.Consistent := by
    have before : Truncated codec (layout.lastLogIndex - 1) layout layout :=
      truncated_self stands.sound stands.consistent (by omega)
    exact (before.reopen shape noOpen).consistent
  have reopenedHolds : SegmentHolds codec
      (storage.fs.record (.rename (.closed segment.firstIndex segment.lastIndex)
        (.inprogress segment.firstIndex))).disk true { segment with isOpen := true }
      (layout.reopen.openFirst, records) := by
    refine ⟨rfl, by rw [openFirst]; exact firstEq, by rw [openFirst]; exact holds.2.last,
      holds.2.bytes, holds.2.table, inode, fd, ?_, ?_⟩
    · rw [FileSystem.record_disk, Disk.lookup_rename _ listed]
      simp [Segment.fileName]
    · rw [FileSystem.record_disk, Disk.content_rename]
      exact content
  refine ⟨inode, records, holds.1, fd, listed, by rw [reopened], reopenedHolds, ?_,
    ⟨by rw [reopened]; exact represents.first, ?_, ?_, ?_, onDisk⟩, sound, consistent,
    stands.working, stands.known.own, ?_⟩
  · unfold Layout.live
    rw [sameRecords, reopened]
  · rw [layout.reopen.lastLogIndex_of_file (Or.inr (by rw [reopened]; simp)), sameRecords]
    have sameBase : layout.reopen.base = layout.base := by rw [reopened]
    rw [sameBase, ← lastIndex]
    exact represents.last
  · have spans : closedSpans layout.reopen.base layout.reopen.closed =
        closedSpans layout.base first := by rw [reopened]
    rw [spans]
    refine closed_moved onDisk sound fronts (fun span member => by rw [spans]; exact member) ?_
    intro other member
    obtain ⟨span, spanListed, otherHolds⟩ := forall₂_left fronts member
    have otherBounds := closedSpans_bounds spanListed
    have positive := List.length_pos_iff.mpr (stands.sound.nonempty span.2 (by
      rw [shape]
      exact List.mem_append_left _ otherBounds.2.2))
    have otherName := otherHolds.fileName_closed
    rw [Disk.lookup_rename _ listed, if_neg, if_neg]
    · rw [otherName, name]
      simp only [closedName, FileName.closed.injEq]
      omega
    · rw [otherName]
      simp [closedName]
  · rw [reopened]
    rw [reopened] at reopenedHolds
    exact List.Forall₂.cons reopenedHolds List.Forall₂.nil
  · intro other member
    rcases List.mem_append.mp member with former | isReopened
    · exact stands.known.segments other (List.mem_append_left _ (by
        rw [segments]
        exact List.mem_append_left _ former))
    · cases Option.mem_toList.mp isReopened
      exact stands.known.segments segment (List.mem_append_left _ (by
        rw [segments]
        exact List.mem_append_right _ List.mem_cons_self))

theorem Stands.cutOpen {storage : SegmentLogStorage} {layout : Layout} {records : List Record}
    {segment : Segment} (stands : Stands codec storage layout) {lastIndexKept : Int}
    (isOpen : storage.openSeg = some segment) (opened : layout.opened = some records)
    (holds : SegmentHolds codec storage.fs.disk true segment (layout.openFirst, records))
    (lower : storage.firstLogIndex ≤ lastIndexKept) (starts : layout.openFirst ≤ lastIndexKept)
    (beyond : lastIndexKept < segment.lastIndex) :
    ∃ truncated fs, segment.truncate lastIndexKept storage.fs = (0, truncated, fs) ∧
      truncated.isOpen = true ∧ truncated.firstIndex = segment.firstIndex ∧
      Stands codec
        { storage with lastLogIndex := lastIndexKept, openSeg := some truncated, fs := fs }
        (layout.cut (lastIndexKept + 1 - layout.openFirst).toNat) := by
  have represents := stands.represents
  obtain ⟨inode, fd, listed, content⟩ := holds.2.file
  have first : segment.firstIndex = layout.openFirst := holds.2.first
  have last : segment.lastIndex + 1 = layout.openFirst + records.length := holds.2.last
  rw [holds.fileName_open] at listed
  have truncates := Segment.truncate_open holds.1 fd stands.working beyond
  simp only [first] at truncates
  set count := (lastIndexKept + 1 - layout.openFirst).toNat with countEq
  have inside : count < records.length := by omega
  have table : segment.offsetAndTerm = offsetTable codec 0 records := holds.2.table
  have size : (segment.offsetAndTerm.getD count (0, 0)).1 =
      (encodeAll codec (records.take count)).length := by
    rw [table]
    exact offsetTable_cut codec inside
  rw [size] at truncates
  have onDisk := OnDisk.cut represents.onDisk opened listed count
  have layoutLast := layout.lastLogIndex_of_file (Or.inr (by simp [opened]))
  have counted : layout.records.length = layout.closed.flatten.length + records.length := by
    simp [Layout.records, opened]
  have openFirst : layout.openFirst = layout.base + layout.closed.flatten.length := rfl
  have before : Truncated codec lastIndexKept layout layout :=
    truncated_self stands.sound stands.consistent (by omega)
  have truncated := before.cut opened (by rw [← represents.first]; exact lower) starts (by omega)
  have cutOpened : (layout.cut count).opened = some (records.take count) := by
    simp [Layout.cut, opened]
  have cutLast : (layout.cut count).lastLogIndex = lastIndexKept := by
    rw [(layout.cut count).lastLogIndex_of_file (Or.inr (by simp [cutOpened]))]
    have cutCount : (layout.cut count).records.length =
        layout.closed.flatten.length + count := by
      simp only [Layout.records, Layout.cut, opened, Option.map_some, Option.getD_some,
        List.length_append, List.length_take]
      omega
    change layout.base + ((layout.cut count).records.length : Int) - 1 = lastIndexKept
    omega
  refine ⟨_, _, truncates, holds.1, first.symm, ⟨represents.first, cutLast.symm, ?_, ?_, onDisk⟩,
    truncated.sound, truncated.consistent, stands.working, stands.known.own, ?_⟩
  · refine closed_moved onDisk truncated.sound represents.closed (fun _ member => member) ?_
    intro other _
    rfl
  · rw [cutOpened]
    have cutOpenFirst : (layout.cut count).openFirst = layout.openFirst := rfl
    refine List.Forall₂.cons ⟨holds.1, rfl, ?_, rfl, ?_, inode, fd, ?_, ?_⟩ List.Forall₂.nil
    · rw [cutOpenFirst, List.length_take, Nat.min_eq_left (by omega)]
      change lastIndexKept + 1 = layout.openFirst + (count : Int)
      omega
    · simp only [table]
      exact offsetTable_take codec 0 records count
    · simpa [Segment.fileName, holds.1, first, FileSystem.record, Disk.apply] using listed
    · have kept : (encodeAll codec records).take (encodeAll codec (records.take count)).length =
          encodeAll codec (records.take count) := by
        conv_lhs => rw [← List.take_append_drop count records, encodeAll_append]
        exact List.take_left' (by rw [List.take_append_drop])
      simp [FileSystem.record, Disk.apply, Disk.setContent, content, kept]
  · intro other member
    rcases List.mem_append.mp member with closed | isCut
    · exact stands.known.segments other (List.mem_append_left _ closed)
    · have known := stands.known.segments segment (List.mem_append_right _ (by simp [isOpen]))
      cases Option.mem_toList.mp isCut
      exact known

/-! ### `truncate_suffix` -/

theorem Layout.live_cut {before after : Layout} {rest : List Record} {lastIndexKept : Int}
    (sameFirst : after.firstLogIndex = before.firstLogIndex) (sameBase : after.base = before.base)
    (split : before.records = after.records ++ rest) (positive : 1 ≤ before.firstLogIndex)
    (consistent : before.Consistent) (file : after.closed ≠ [] ∨ after.opened ≠ none)
    (beforeFile : before.closed ≠ [] ∨ before.opened ≠ none)
    (lower : before.firstLogIndex ≤ lastIndexKept) (ends : after.lastLogIndex = lastIndexKept) :
    after.live = before.live.keepBelow (lastIndexKept + 1).toNat := by
  have baseLe := consistent.base_le beforeFile
  have last := after.lastLogIndex_of_file file
  unfold Layout.live IndexedLog.keepBelow
  simp only [sameFirst, sameBase, IndexedLog.mk.injEq, true_and]
  have kept : after.records = before.records.take (lastIndexKept + 1 - before.base).toNat := by
    rw [split, List.take_append_of_le_length (by omega), List.take_of_length_le (by omega)]
  rw [kept, List.drop_take]
  congr 1
  omega

theorem Stands.truncateSuffix_whole {storage : SegmentLogStorage} {layout : Layout}
    (stands : Stands codec storage layout) {lastIndexKept : Int}
    (whole : lastIndexKept + 1 = storage.firstLogIndex)
    (upper : lastIndexKept < storage.lastLogIndex) :
    ∃ afterLayout, Stands codec (storage.truncateSuffix lastIndexKept).2 afterLayout ∧
      afterLayout.live = layout.live.keepBelow (lastIndexKept + 1).toNat := by
  have tail := stands.log.tail_beyond
  change ∀ segment ∈ storage.allSegments.tail, layout.firstLogIndex < segment.firstIndex at tail
  have firstEq := stands.represents.first
  have split : storage.segments = [] ++ storage.segments := rfl
  obtain ⟨after, unlinked, dropped, _⟩ := stands.dropBack (by omega) upper split
    (by
      intro position segment _ positive found
      have beyond := tail segment (by
        rw [← List.drop_one]
        refine List.mem_of_getElem? (i := position - 1) ?_
        rw [List.getElem?_drop, show 1 + (position - 1) = position by omega]
        exact found)
      omega)
    (fun _ => by omega)
  have result := stands.log.truncateSuffix_whole whole
  change (storage.truncateSuffix lastIndexKept).2 = { storage with
    lastLogIndex := lastIndexKept
    segments := []
    openSeg := none
    fs := (SegmentLogStorage.unlinkFromBack (-1) storage.allSegments.reverse storage.fs).2 }
    at result
  have noClosed : (layout.takeFiles 0).closed = [] := rfl
  have noOpen : (layout.takeFiles 0).opened = none := by simp [Layout.takeFiles]
  have last : (layout.takeFiles 0).lastLogIndex = lastIndexKept := by
    simp only [Layout.lastLogIndex, noClosed, noOpen, and_self, if_true]
    change layout.firstLogIndex - 1 = lastIndexKept
    omega
  have fsEq : (SegmentLogStorage.unlinkFromBack (-1) storage.allSegments.reverse
      storage.fs).2 = after := congrArg Prod.snd unlinked
  refine ⟨layout.takeFiles 0, ?_, ?_⟩
  · rw [result, fsEq]
    rw [List.length_nil, last] at dropped
    exact dropped
  · rw [Layout.live_noFiles noClosed noOpen]
    have empty : (lastIndexKept + 1).toNat - layout.live.first = 0 := by
      change (lastIndexKept + 1).toNat - layout.firstLogIndex.toNat = 0
      omega
    unfold IndexedLog.keepBelow
    rw [empty, List.take_zero]
    rfl

theorem Stands.truncateSuffix_open {storage : SegmentLogStorage} {layout : Layout}
    (stands : Stands codec storage layout) {lastIndexKept : Int}
    (lower : storage.firstLogIndex ≤ lastIndexKept) (upper : lastIndexKept < storage.lastLogIndex)
    {segment : Segment} (isOpen : storage.openSeg = some segment)
    (reaches : segment.firstIndex ≤ lastIndexKept) :
    ∃ afterLayout, Stands codec (storage.truncateSuffix lastIndexKept).2 afterLayout ∧
      afterLayout.live = layout.live.keepBelow (lastIndexKept + 1).toNat := by
  have represents := stands.represents
  cases opened : layout.opened with
  | none =>
      rw [represents.notOpen opened] at isOpen
      contradiction
  | some records =>
      obtain ⟨other, otherOpen, holds⟩ := represents.openSegment opened
      rw [isOpen, Option.some.injEq] at otherOpen
      subst otherOpen
      have file : layout.closed ≠ [] ∨ layout.opened ≠ none := Or.inr (by simp [opened])
      have layoutLast := layout.lastLogIndex_of_file file
      have counted : layout.records.length = layout.closed.flatten.length + records.length := by
        simp [Layout.records, opened]
      have openFirst : layout.openFirst = layout.base + layout.closed.flatten.length := rfl
      have first : segment.firstIndex = layout.openFirst := holds.2.first
      have last : segment.lastIndex + 1 = layout.openFirst + records.length := holds.2.last
      have lastEq := represents.last
      have firstEq := represents.first
      obtain ⟨truncated, fs, truncates, _, _, after⟩ := stands.cutOpen isOpen opened holds lower
        (by omega) (by omega)
      set count := (lastIndexKept + 1 - layout.openFirst).toNat
      have cutFile : (layout.cut count).opened ≠ none := by simp [Layout.cut, opened]
      have live : (layout.cut count).live = layout.live.keepBelow (lastIndexKept + 1).toNat :=
        Layout.live_cut rfl rfl (Layout.records_cut opened count) stands.sound.first
          stands.consistent (Or.inr cutFile) file (by omega) after.represents.last.symm
      refine ⟨layout.cut count, ?_, live⟩
      unfold SegmentLogStorage.truncateSuffix SegmentLogStorage.truncateLastSegment
      simp only [popSegmentsFromBack_open _ isOpen reaches, lower, if_true,
        SegmentLogStorage.unlinkFromBack, ne_eq, not_true_eq_false, false_and, if_false,
        truncates, holds.1]
      exact after

theorem insertSegment_present {segment : Segment} {front : List Segment}
    (before : ∀ other ∈ front, other.firstIndex < segment.firstIndex) :
    insertSegment segment (front ++ [segment]) = front ++ [segment] := by
  induction front with
  | nil => simp [insertSegment]
  | cons head rest ih =>
      have above := before head List.mem_cons_self
      rw [List.cons_append]
      unfold insertSegment
      rw [if_neg (by omega), if_neg (by omega),
        ih (fun other member => before other (List.mem_cons_of_mem _ member))]

theorem eraseSegment_last {segment : Segment} {front : List Segment}
    (before : ∀ other ∈ front, other.firstIndex < segment.firstIndex) :
    eraseSegment segment.firstIndex (front ++ [segment]) = front := by
  unfold eraseSegment
  rw [List.filter_append, List.filter_eq_self.mpr, List.filter_eq_nil_iff.mpr, List.append_nil]
  · intro other member
    rw [List.mem_singleton.mp member]
    simp
  · intro other member
    have below := before other member
    simp only [ne_eq, decide_eq_true_eq]
    omega

theorem Stands.truncateSuffix_closed {storage : SegmentLogStorage} {layout : Layout}
    (stands : Stands codec storage layout) {lastIndexKept : Int}
    (lower : storage.firstLogIndex ≤ lastIndexKept) (upper : lastIndexKept < storage.lastLogIndex)
    {front removed : List Segment} {segment : Segment}
    (split : storage.segments = front ++ [segment] ++ removed)
    (below : ∀ other ∈ front ++ [segment], other.firstIndex ≤ lastIndexKept)
    (above : ∀ other ∈ removed ++ storage.openSeg.toList, lastIndexKept < other.firstIndex) :
    ∃ afterLayout, Stands codec (storage.truncateSuffix lastIndexKept).2 afterLayout ∧
      afterLayout.live = layout.live.keepBelow (lastIndexKept + 1).toNat := by
  have firstEq := stands.represents.first
  have file : layout.closed ≠ [] ∨ layout.opened ≠ none :=
    stands.log.hasFile (show storage.firstLogIndex - 1 ≤ _ by omega) upper
  have allSplit : storage.allSegments =
      (front ++ [segment]) ++ (removed ++ storage.openSeg.toList) := by
    rw [SegmentLogStorage.allSegments, split, List.append_assoc]
  obtain ⟨after, unlinked, dropped, atLeast⟩ := stands.dropBack (by omega) upper split
    (by
      intro position other atLeast _ found
      rw [allSplit, List.getElem?_append_right atLeast] at found
      exact above other (List.mem_of_getElem? found))
    (by simp)
  obtain ⟨rest, recordsSplit⟩ := layout.records_takeFiles (front ++ [segment]).length
  set shorter := layout.takeFiles (front ++ [segment]).length with shorterEq
  set popped := (removed ++ storage.openSeg.toList).reverse
  obtain ⟨first, records, shape, _, holds⟩ := dropped.represents.lastClosed rfl
  have noOpen : shorter.opened = none := by
    have lengths := stands.represents.closed.length_eq
    rw [closedSpans_length, split, List.length_append] at lengths
    have few : (front ++ [segment]).length ≤ layout.closed.length := by omega
    rw [shorterEq]
    simp only [Layout.takeFiles, few, if_true]
  have shorterFile : shorter.closed ≠ [] ∨ shorter.opened ≠ none := Or.inl (by simp [shape])
  have shorterLast := shorter.lastLogIndex_of_file shorterFile
  have lastSegment : segment.lastIndex = shorter.lastLogIndex := by
    have last : segment.lastIndex + 1 =
        shorter.base + first.flatten.length + records.length := holds.2.last
    have counted : shorter.records.length = first.flatten.length + records.length := by
      simp [Layout.records, shape, noOpen]
    omega
  have before : ∀ other ∈ front, other.firstIndex < segment.firstIndex := by
    have sorted := dropped.represents.sorted dropped.sound
    unfold SegmentLogStorage.allSegments SortedSegments at sorted
    rw [List.pairwise_append] at sorted
    have inFront := (List.pairwise_append.mp sorted.1).2.2
    intro other member
    exact inFront other member segment List.mem_cons_self
  have pops := popSegmentsFromBack_beyond _ split below above
  rw [if_neg (by simp), List.getLast?_concat] at pops
  have notFailed : ¬ (popped ≠ [] ∧ (if popped = [] then (-1 : Int) else 0) ≠ 0) := by
    rintro ⟨some, failed⟩
    rw [if_neg some] at failed
    exact failed rfl
  have result : (storage.truncateSuffix lastIndexKept).2 =
      (SegmentLogStorage.truncateLastSegment
        { storage with
          lastLogIndex := lastIndexKept, openSeg := none, segments := front ++ [segment]
          fs := after }
        segment lastIndexKept).2 := by
    unfold SegmentLogStorage.truncateSuffix
    simp only [pops, lower, if_true]
    rw [unlinked]
    exact congrArg Prod.snd (if_neg notFailed)
  rw [result]
  by_cases whole : segment.lastIndex ≤ lastIndexKept
  · -- the segment ends at the index kept
    have exact : shorter.lastLogIndex = lastIndexKept := by omega
    refine ⟨shorter, ?_, Layout.live_cut rfl rfl recordsSplit stands.sound.first
      stands.consistent shorterFile file (by omega) exact⟩
    have truncates : segment.truncate lastIndexKept after = (0, segment, after) := by
      unfold Segment.truncate
      rw [if_pos whole]
    unfold SegmentLogStorage.truncateLastSegment
    simp only [truncates, holds.1, Bool.false_eq_true, if_false, and_false,
      insertSegment_present before]
    rw [exact] at dropped
    exact dropped
  · obtain ⟨inode, reopenedRecords, isClosed, fd, listed, opened, reopenedHolds, sameLive,
      reopened⟩ := dropped.reopen rfl noOpen
    have reopenedShape := Layout.reopen_of_concat shape
    have starts : segment.firstIndex ≤ lastIndexKept := below segment (by simp)
    have openFirst : segment.firstIndex = shorter.reopen.openFirst := reopenedHolds.2.first
    obtain ⟨truncated, fs, truncates, stillOpen, sameFirst, cut⟩ :=
      reopened.cutOpen rfl opened reopenedHolds lower (by omega) (by
        change lastIndexKept < segment.lastIndex
        omega)
    have split : layout.records =
        (shorter.reopen.cut (lastIndexKept + 1 - shorter.reopen.openFirst).toNat).records ++
          (reopenedRecords.drop (lastIndexKept + 1 - shorter.reopen.openFirst).toNat ++ rest) := by
      rw [recordsSplit, ← Layout.records_reopen shape noOpen, ← List.append_assoc,
        ← Layout.records_cut opened]
    set count := (lastIndexKept + 1 - shorter.reopen.openFirst).toNat
    have cutFile : (shorter.reopen.cut count).opened ≠ none := by simp [Layout.cut, opened]
    have live : (shorter.reopen.cut count).live =
        layout.live.keepBelow (lastIndexKept + 1).toNat :=
      Layout.live_cut (by rw [reopenedShape]; rfl) (by rw [reopenedShape]; rfl) split
        stands.sound.first stands.consistent (Or.inr cutFile) file (by omega)
        cut.represents.last.symm
    refine ⟨shorter.reopen.cut count, ?_, live⟩
    have truncatesClosed := Segment.truncate_closed isClosed fd dropped.working listed
      (show lastIndexKept < segment.lastIndex by omega)
    unfold SegmentLogStorage.truncateLastSegment
    simp only at truncatesClosed truncates
    rw [truncatesClosed, truncates]
    simp only [isClosed, stillOpen, sameFirst, Bool.false_eq_true, if_false, and_self, if_true,
      eraseSegment_last before]
    exact cut

theorem Stands.truncateSuffix {storage : SegmentLogStorage} {layout : Layout}
    (stands : Stands codec storage layout) {lastIndexKept : Int}
    (lower : storage.firstLogIndex - 1 ≤ lastIndexKept)
    (upper : lastIndexKept < storage.lastLogIndex) :
    ∃ afterLayout, Stands codec (storage.truncateSuffix lastIndexKept).2 afterLayout ∧
      afterLayout.live = layout.live.keepBelow (lastIndexKept + 1).toNat := by
  by_cases whole : lastIndexKept + 1 = storage.firstLogIndex
  · exact stands.truncateSuffix_whole whole upper
  have reaches : storage.firstLogIndex ≤ lastIndexKept := by omega
  have placement : Placement storage lastIndexKept := stands.log.placement lastIndexKept
  cases placement with
  | inOpen segment isOpen starts => exact stands.truncateSuffix_open reaches upper isOpen starts
  | inClosed kept removed split below above =>
      rcases List.eq_nil_or_concat kept with rfl | ⟨front, segment, rfl⟩
      · -- the first segment starts at or before the first index
        have file : layout.closed ≠ [] ∨ layout.opened ≠ none := stands.log.hasFile lower upper
        have baseLe := (stands.consistent.base_le file).1
        have bounds := stands.represents.bounds
        rw [SegmentLogStorage.allSegments, split, List.nil_append] at bounds
        obtain ⟨span, isFirst, starts⟩ := layout.head_span file
        obtain ⟨segment, found, same, _⟩ := forall₂_getElem? bounds isFirst
        have beyond := above segment (List.mem_of_getElem? found)
        have firstEq := stands.represents.first
        omega
      · rw [List.concat_eq_append] at split below
        exact stands.truncateSuffix_closed reaches upper split below above

end Truncate

end QuorumKit
