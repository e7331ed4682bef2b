/-
Crashes inside `SegmentLogStorage::truncate_suffix`.

The call unlinks whole files from the back, then turns the segment that holds
the last index kept into an open one and cuts it.  Every state of the directory
on the way holds a prefix of the old log, so recovery from any of them yields a
prefix that still contains every index kept.
-/

import QuorumKit.Log.CrashPoint

namespace QuorumKit

open Library

section Truncate

variable {P : Type} {codec : EntryCodec P}

/-! ### Keeping the first files -/

/-- The layout without the files after the first `count`. -/
def Layout.takeFiles (layout : Layout) (count : Nat) : Layout :=
  { layout with
    closed := layout.closed.take count
    opened := if count ≤ layout.closed.length then none else layout.opened }

theorem closedSpans_length (base : Int) (closed : List (List Record)) :
    (closedSpans base closed).length = closed.length := by
  induction closed generalizing base with
  | nil => rfl
  | cons records rest ih => simp [closedSpans, ih]

theorem closedSpans_take (base : Int) (closed : List (List Record)) (count : Nat) :
    closedSpans base (closed.take count) = (closedSpans base closed).take count := by
  induction closed generalizing base count with
  | nil => simp [closedSpans]
  | cons records rest ih =>
      cases count with
      | zero => simp [closedSpans]
      | succ count => simp [closedSpans, ih]

theorem Layout.files_takeFiles (layout : Layout) (count : Nat) :
    (layout.takeFiles count).files = layout.files.take count := by
  have closedPart : (closedSpans layout.base (layout.closed.take count)).map
      (fun span => (closedName span, span.2)) =
        ((closedSpans layout.base layout.closed).map
          (fun span => (closedName span, span.2))).take count := by
    rw [closedSpans_take, List.map_take]
  have lengthEq : ((closedSpans layout.base layout.closed).map
      (fun span => (closedName span, span.2))).length = layout.closed.length := by
    rw [List.length_map, closedSpans_length]
  unfold Layout.files Layout.takeFiles
  by_cases few : count ≤ layout.closed.length
  · rw [List.take_append_of_le_length (by omega)]
    simp only [few, if_true, Option.toList_none, List.map_nil, List.append_nil]
    exact closedPart
  · have whole : layout.closed.take count = layout.closed :=
      List.take_of_length_le (by omega)
    simp only [few, if_false, whole, Layout.openFirst]
    rw [List.take_append, lengthEq, List.take_of_length_le (lengthEq.trans_le (by omega)),
      List.take_of_length_le]
    cases layout.opened with
    | none => simp
    | some records =>
        simp
        omega

theorem Layout.takeFiles_all (layout : Layout) {count : Nat}
    (all : layout.closed.length < count) : layout.takeFiles count = layout := by
  unfold Layout.takeFiles
  rw [List.take_of_length_le (by omega), if_neg (by omega)]

theorem Layout.records_takeFiles (layout : Layout) (count : Nat) :
    ∃ rest, layout.records = (layout.takeFiles count).records ++ rest := by
  by_cases few : count ≤ layout.closed.length
  · refine ⟨(layout.closed.drop count).flatten ++ layout.opened.getD [], ?_⟩
    simp only [Layout.records, Layout.takeFiles, few, if_true, Option.getD_none,
      List.append_nil]
    rw [← List.append_assoc, ← List.flatten_append, List.take_append_drop]
  · refine ⟨[], ?_⟩
    rw [layout.takeFiles_all (by omega), List.append_nil]

theorem Layout.Sound.takeFiles {layout : Layout} (sound : layout.Sound codec) (count : Nat) :
    (layout.takeFiles count).Sound codec := by
  obtain ⟨rest, split⟩ := layout.records_takeFiles count
  refine ⟨?_, ?_, sound.base, sound.first, ?_⟩
  · intro records member
    exact sound.nonempty records (List.mem_of_mem_take member)
  · intro record member
    exact sound.valid record (by rw [split]; exact List.mem_append_left _ member)
  · have bound := sound.bound
    rw [split, List.length_append] at bound
    simp only [Layout.takeFiles] at bound ⊢
    omega

theorem Layout.Consistent.takeFiles {layout : Layout} (consistent : layout.Consistent)
    (count : Nat) : (layout.takeFiles count).Consistent := by
  cases count with
  | zero => simp [Layout.Consistent, Layout.takeFiles]
  | succ count =>
      cases shape : layout.closed with
      | nil =>
          rw [layout.takeFiles_all (by simp [shape])]
          exact consistent
      | cons records rest =>
          simp only [Layout.Consistent, shape] at consistent
          simpa [Layout.Consistent, Layout.takeFiles, shape] using consistent

/-- `after` is a prefix of the log `before` that reaches `lastIndexKept`. -/
structure Keeps (lastIndexKept : Int) (before after : Layout) : Prop where
  first : after.firstLogIndex = before.firstLogIndex
  lower : lastIndexKept ≤ after.lastLogIndex
  upper : after.lastLogIndex ≤ before.lastLogIndex
  records : ∀ index, index ≤ after.lastLogIndex →
    after.recordAt index = before.recordAt index

theorem keeps_of_prefix {before after : Layout} {lastIndexKept : Int} {rest : List Record}
    (sameFirst : after.firstLogIndex = before.firstLogIndex)
    (sameBase : after.base = before.base)
    (split : before.records = after.records ++ rest)
    (beforeFile : before.closed ≠ [] ∨ before.opened ≠ none)
    (afterFile : after.closed ≠ [] ∨ after.opened ≠ none)
    (lower : lastIndexKept < after.base + after.records.length) :
    Keeps lastIndexKept before after := by
  have afterLast := after.lastLogIndex_of_file afterFile
  have beforeLast := before.lastLogIndex_of_file beforeFile
  have lengths : before.records.length = after.records.length + rest.length := by
    rw [split, List.length_append]
  refine ⟨sameFirst, by omega, by omega, ?_⟩
  intro index below
  unfold Layout.recordAt
  rw [sameFirst, sameBase]
  by_cases inRange : before.firstLogIndex ≤ index ∧ before.base ≤ index
  · rw [if_pos ⟨inRange.1, below, inRange.2⟩, if_pos ⟨inRange.1, by omega, inRange.2⟩,
      split, List.getElem?_append_left (by omega)]
  · rw [if_neg (fun found => inRange ⟨found.1, found.2.2⟩),
      if_neg (fun found => inRange ⟨found.1, found.2.2⟩)]

theorem keeps_empty {before after : Layout} {lastIndexKept : Int}
    (sameFirst : after.firstLogIndex = before.firstLogIndex)
    (noClosed : after.closed = []) (noOpen : after.opened = none)
    (lower : lastIndexKept < before.firstLogIndex)
    (upper : before.firstLogIndex ≤ before.lastLogIndex + 1) :
    Keeps lastIndexKept before after := by
  have afterLast : after.lastLogIndex = before.firstLogIndex - 1 := by
    simp [Layout.lastLogIndex, noClosed, noOpen, sameFirst]
  refine ⟨sameFirst, by omega, by omega, ?_⟩
  intro index below
  unfold Layout.recordAt
  rw [if_neg (by omega), if_neg (by omega)]

theorem OnDisk.removeLast {disk : LogDisk} {layout : Layout} (sound : layout.Sound codec)
    {count : Nat} (onDisk : OnDisk codec disk (layout.takeFiles (count + 1)))
    {name : FileName} {records : List Record}
    (isLast : layout.files[count]? = some (name, records)) :
    OnDisk codec (disk.apply (unlinkOp name)) (layout.takeFiles count) := by
  have files : (layout.takeFiles (count + 1)).files =
      (layout.takeFiles count).files ++ [(name, records)] := by
    rw [Layout.files_takeFiles, Layout.files_takeFiles, List.take_add_one, isLast]
    rfl
  have keys := Layout.files_nodup (sound.takeFiles (count + 1)).nonempty
  rw [files] at keys
  have fresh : name ∉ (layout.takeFiles count).files.map Prod.fst := by
    rw [List.map_append, List.nodup_append] at keys
    intro member
    exact keys.2.2 name member name (by simp) rfl
  have listed : name ∈ (layout.takeFiles (count + 1)).files.map Prod.fst := by
    rw [files]
    simp
  have notTmp : ¬ name.IsTmp := by
    rw [Layout.mem_files_iff] at listed
    rcases listed with ⟨span, _, rfl⟩ | ⟨_, rfl⟩ <;> simp [FileName.IsTmp, closedName]
  refine onDisk.remove _ name notTmp listed rfl ?_
  intro other
  rw [files, List.lookup_append]
  by_cases same : other = name
  · subst same
    rw [if_pos rfl, ← Option.not_isSome_iff_eq_none, lookup_isSome_of_map]
    exact fresh
  · have skip : (other == name) = false := by simpa using same
    rw [if_neg same, List.lookup_cons, skip]
    simp

theorem unlinkFromBack_crashSafe {layout : Layout} (sound : layout.Sound codec) {kept : Nat}
    {property : Layout → Prop} :
    ∀ (count : Nat) {disk : LogDisk}, kept ≤ count → count ≤ layout.files.length →
      OnDisk codec disk (layout.takeFiles count) →
      (∀ between, kept ≤ between → between ≤ count → property (layout.takeFiles between)) →
      let ops := ((((layout.files.take count).drop kept).map Prod.fst).reverse).map unlinkOp
      CrashSafe codec disk ops property ∧
        OnDisk codec (disk.replay ops) (layout.takeFiles kept) := by
  intro count
  induction count with
  | zero =>
      intro disk keptLe _ onDisk holds
      have keptZero : kept = 0 := by omega
      subst keptZero
      simp only [List.take_zero, List.drop_nil, List.map_nil, List.reverse_nil]
      exact ⟨CrashSafe.nil onDisk (holds 0 (by omega) (by omega)), onDisk⟩
  | succ count ih =>
      intro disk keptLe inFiles onDisk holds
      by_cases done : kept = count + 1
      · subst done
        have empty : (layout.files.take (count + 1)).drop (count + 1) = [] :=
          List.drop_eq_nil_of_le (by rw [List.length_take]; omega)
        simp only [empty, List.map_nil, List.reverse_nil]
        exact ⟨CrashSafe.nil onDisk (holds _ (by omega) (by omega)), onDisk⟩
      · have below : count < layout.files.length := by omega
        rcases fileEq : layout.files[count] with ⟨name, records⟩
        have isLast : layout.files[count]? = some (name, records) := by
          rw [List.getElem?_eq_getElem below, fileEq]
        have removed := OnDisk.removeLast sound onDisk isLast
        have earlier := ih (by omega) (by omega) removed
          (fun between lower upper => holds between lower (by omega))
        have opsEq : ((((layout.files.take (count + 1)).drop kept).map Prod.fst).reverse).map
            unlinkOp = unlinkOp name ::
              ((((layout.files.take count).drop kept).map Prod.fst).reverse).map unlinkOp := by
          rw [List.take_add_one, isLast, List.drop_append_of_le_length
            (by rw [List.length_take]; omega)]
          simp
        simp only [opsEq]
        exact ⟨CrashSafe.cons onDisk (holds _ (by omega) (by omega)) earlier.1, earlier.2⟩

/-! ### Reopening and cutting the last file -/

theorem lookup_concat {N V : Type} [DecidableEq N] {entries : List (N × V)} {key : N}
    (fresh : key ∉ entries.map Prod.fst) (value : V) (other : N) :
    (entries ++ [(key, value)]).lookup other =
      if other = key then some value else entries.lookup other := by
  rw [List.lookup_append]
  by_cases same : other = key
  · subst same
    have missing : entries.lookup other = none := by
      rw [← Option.not_isSome_iff_eq_none, lookup_isSome_of_map]
      exact fresh
    simp [missing]
  · have skip : (other == key) = false := by simpa using same
    simp [List.lookup_cons, skip, same]

def Layout.closedFiles (layout : Layout) : List (FileName × List Record) :=
  (closedSpans layout.base layout.closed).map (fun span => (closedName span, span.2))

theorem Layout.inprogress_not_closed (layout : Layout) (firstIndex : Int) :
    FileName.inprogress firstIndex ∉ layout.closedFiles.map Prod.fst := by
  unfold Layout.closedFiles
  rw [List.map_map]
  intro member
  obtain ⟨span, _, same⟩ := List.mem_map.mp member
  simp [closedName] at same

/-- A closed last segment that was renamed to its in-progress name. -/
def Layout.reopen (layout : Layout) : Layout :=
  match layout.closed.getLast? with
  | some records => { layout with closed := layout.closed.dropLast, opened := some records }
  | none => layout

theorem Layout.reopen_of_concat {layout : Layout} {front : List (List Record)}
    {records : List Record} (shape : layout.closed = front ++ [records]) :
    layout.reopen = { layout with closed := front, opened := some records } := by
  simp [Layout.reopen, shape]

theorem OnDisk.reopen {disk : LogDisk} {layout : Layout} {front : List (List Record)}
    {records : List Record} (onDisk : OnDisk codec disk layout) (sound : layout.Sound codec)
    (shape : layout.closed = front ++ [records]) (noOpen : layout.opened = none) :
    OnDisk codec
      (disk.apply (.rename (closedName (layout.base + front.flatten.length, records))
        (.inprogress (layout.base + front.flatten.length)))) layout.reopen := by
  set start := layout.base + (front.flatten.length : Int) with startEq
  have reopened := Layout.reopen_of_concat shape
  have filesBefore : layout.files =
      layout.reopen.closedFiles ++ [(closedName (start, records), records)] := by
    rw [reopened]
    unfold Layout.files Layout.closedFiles
    rw [shape, noOpen, closedSpans_append]
    simp [closedSpans, startEq]
  have filesAfter : layout.reopen.files =
      layout.reopen.closedFiles ++ [(.inprogress start, records)] := by
    rw [reopened]
    unfold Layout.files Layout.closedFiles
    simp [Layout.openFirst, startEq]
  have keys := Layout.files_nodup sound.nonempty
  rw [filesBefore, List.map_append, List.nodup_append] at keys
  have closedFresh : closedName (start, records) ∉ layout.reopen.closedFiles.map Prod.fst :=
    fun member => keys.2.2 _ member _ (by simp) rfl
  have read := onDisk.files (closedName (start, records))
    (by simp [FileName.IsTmp, closedName])
  rw [filesBefore, lookup_concat closedFresh, if_pos rfl] at read
  obtain ⟨inode, found, _⟩ := read_eq_some read
  refine ⟨Disk.wellFormed_rename _ onDisk.wellFormed, ?_, ?_⟩
  · rw [Disk.saved_rename, onDisk.saved, reopened]
  · intro name notTmp
    rw [Disk.read_rename disk found, filesAfter,
      lookup_concat (layout.reopen.inprogress_not_closed start)]
    by_cases isNew : name = .inprogress start
    · rw [if_pos isNew, if_pos isNew, read]
    · rw [if_neg isNew, if_neg isNew]
      by_cases isOld : name = closedName (start, records)
      · have missing : layout.reopen.closedFiles.lookup name = none := by
          rw [← Option.not_isSome_iff_eq_none, lookup_isSome_of_map, isOld]
          exact closedFresh
        rw [if_pos isOld, missing]
        rfl
      · rw [if_neg isOld, onDisk.files name notTmp, filesBefore, lookup_concat closedFresh,
          if_neg isOld]

def Layout.cut (layout : Layout) (count : Nat) : Layout :=
  { layout with opened := layout.opened.map (List.take count) }

theorem OnDisk.cut {disk : LogDisk} {layout : Layout} {records : List Record} {inode : Nat}
    (onDisk : OnDisk codec disk layout) (isOpen : layout.opened = some records)
    (found : disk.lookup (.inprogress layout.openFirst) = some inode) (count : Nat) :
    OnDisk codec
      (disk.apply (.truncate inode (encodeAll codec (records.take count)).length))
      (layout.cut count) := by
  have filesBefore : layout.files =
      layout.closedFiles ++ [(.inprogress layout.openFirst, records)] := by
    simp [Layout.files, Layout.closedFiles, isOpen]
  have filesAfter : (layout.cut count).files =
      layout.closedFiles ++ [(.inprogress layout.openFirst, records.take count)] := by
    simp [Layout.files, Layout.closedFiles, Layout.cut, Layout.openFirst, isOpen]
  have read := onDisk.files (.inprogress layout.openFirst) (by simp [FileName.IsTmp])
  rw [filesBefore, lookup_concat (layout.inprogress_not_closed _), if_pos rfl] at read
  have content : disk.content inode = encodeAll codec records := by
    obtain ⟨other, otherFound, content⟩ := read_eq_some read
    rw [found] at otherFound
    rw [Option.some.inj otherFound]
    exact content
  have kept : (disk.content inode).take (encodeAll codec (records.take count)).length =
      encodeAll codec (records.take count) := by
    have split : encodeAll codec records =
        encodeAll codec (records.take count) ++ encodeAll codec (records.drop count) := by
      rw [← encodeAll_append, List.take_append_drop]
    rw [content, split, List.take_left']
    rfl
  refine ⟨Disk.wellFormed_setContent _ onDisk.wellFormed, onDisk.saved, ?_⟩
  intro name notTmp
  simp only [Disk.apply]
  rw [kept, Disk.read_setContent disk onDisk.wellFormed found, filesAfter,
    lookup_concat (layout.inprogress_not_closed _)]
  by_cases same : name = .inprogress layout.openFirst
  · rw [if_pos same, if_pos same]
    rfl
  · rw [if_neg same, if_neg same, onDisk.files name notTmp, filesBefore,
      lookup_concat (layout.inprogress_not_closed _), if_neg same]

theorem Layout.records_cut {layout : Layout} {records : List Record}
    (isOpen : layout.opened = some records) (count : Nat) :
    layout.records = (layout.cut count).records ++ records.drop count := by
  simp [Layout.records, Layout.cut, isOpen, List.append_assoc]

theorem Layout.Sound.cut {layout : Layout} {records : List Record}
    (sound : layout.Sound codec) (isOpen : layout.opened = some records) (count : Nat) :
    (layout.cut count).Sound codec := by
  have split := Layout.records_cut isOpen count
  refine ⟨sound.nonempty, ?_, sound.base, sound.first, ?_⟩
  · intro record member
    exact sound.valid record (by rw [split]; exact List.mem_append_left _ member)
  · have bound := sound.bound
    rw [split, List.length_append] at bound
    simp only [Layout.cut] at bound ⊢
    omega

theorem Layout.records_reopen {layout : Layout} {front : List (List Record)}
    {records : List Record} (shape : layout.closed = front ++ [records])
    (noOpen : layout.opened = none) : layout.reopen.records = layout.records := by
  rw [Layout.reopen_of_concat shape]
  simp [Layout.records, shape, noOpen]

theorem Layout.Sound.reopen {layout : Layout} {front : List (List Record)}
    {records : List Record} (sound : layout.Sound codec)
    (shape : layout.closed = front ++ [records]) (noOpen : layout.opened = none) :
    layout.reopen.Sound codec := by
  have sameRecords := Layout.records_reopen shape noOpen
  have valid := sound.valid
  have bound := sound.bound
  rw [← sameRecords] at valid bound
  rw [Layout.reopen_of_concat shape] at valid bound ⊢
  refine ⟨?_, valid, sound.base, sound.first, bound⟩
  intro other member
  exact sound.nonempty other (by rw [shape]; exact List.mem_append_left _ member)

/-! ### Popping segments -/

theorem foldl_eraseSegment (kept : List Segment) (popped : List Segment) :
    ∀ removed : List Segment,
      (∀ segment ∈ kept, ∀ other ∈ popped, segment.firstIndex ≠ other.firstIndex) →
      (∀ segment ∈ removed, segment ∈ popped) →
      popped.foldl (fun segments segment => eraseSegment segment.firstIndex segments)
        (kept ++ removed) = kept := by
  induction popped with
  | nil =>
      intro removed _ inPopped
      have noneLeft : removed = [] :=
        List.eq_nil_iff_forall_not_mem.mpr (fun segment member => by
          simpa using inPopped segment member)
      rw [noneLeft, List.append_nil]
      rfl
  | cons head rest ih =>
      intro removed differs inPopped
      have keptSame : eraseSegment head.firstIndex kept = kept := by
        refine List.filter_eq_self.mpr ?_
        intro segment member
        simpa using differs segment member head List.mem_cons_self
      have split : eraseSegment head.firstIndex (kept ++ removed) =
          kept ++ eraseSegment head.firstIndex removed := by
        rw [eraseSegment, List.filter_append]
        change eraseSegment head.firstIndex kept ++ _ = _
        rw [keptSame]
        rfl
      rw [List.foldl_cons, split]
      refine ih _ (fun segment member other listed =>
        differs segment member other (List.mem_cons_of_mem _ listed)) ?_
      intro segment member
      obtain ⟨listed, notHead⟩ := List.mem_filter.mp member
      rcases List.mem_cons.mp (inPopped segment listed) with rfl | later
      · simp at notHead
      · exact later

theorem popSegmentsFromBack_open (storage : SegmentLogStorage) {lastIndexKept : Int}
    {segment : Segment} (isOpen : storage.openSeg = some segment)
    (reaches : segment.firstIndex ≤ lastIndexKept) :
    storage.popSegmentsFromBack lastIndexKept =
      ([], some segment, { storage with lastLogIndex := lastIndexKept }) := by
  simp [SegmentLogStorage.popSegmentsFromBack, isOpen, reaches]

theorem popSegmentsFromBack_beyond (storage : SegmentLogStorage) {lastIndexKept : Int}
    {kept removed : List Segment} (split : storage.segments = kept ++ removed)
    (below : ∀ segment ∈ kept, segment.firstIndex ≤ lastIndexKept)
    (above : ∀ segment ∈ removed ++ storage.openSeg.toList,
      lastIndexKept < segment.firstIndex) :
    storage.popSegmentsFromBack lastIndexKept =
      ((removed ++ storage.openSeg.toList).reverse, kept.getLast?,
        { storage with
          lastLogIndex := lastIndexKept
          openSeg := none
          segments := kept
          firstLogIndex :=
            if kept = [] then lastIndexKept + 1 else storage.firstLogIndex }) := by
  have popped : storage.segments.reverse.takeWhile
      (fun segment => lastIndexKept < segment.firstIndex) = removed.reverse := by
    have keptStop : kept.reverse.takeWhile
        (fun segment => lastIndexKept < segment.firstIndex) = [] := by
      cases shape : kept.reverse with
      | nil => rfl
      | cons last rest =>
          have member : last ∈ kept := List.mem_reverse.mp (by rw [shape]; simp)
          have stops := below last member
          rw [List.takeWhile_cons_of_neg (by simpa using stops)]
    rw [split, List.reverse_append, List.takeWhile_append_of_pos, keptStop, List.append_nil]
    intro segment member
    have beyond := above segment (List.mem_append_left _ (List.mem_reverse.mp member))
    simpa using beyond
  have erased (front : List Segment) (inFront : ∀ segment ∈ front,
      lastIndexKept < segment.firstIndex) :
      (front ++ removed.reverse).foldl
        (fun segments segment => eraseSegment segment.firstIndex segments)
        storage.segments = kept := by
    rw [split]
    refine foldl_eraseSegment kept _ removed ?_ ?_
    · intro segment member other listed
      have stops := below segment member
      have beyond : lastIndexKept < other.firstIndex := by
        rcases List.mem_append.mp listed with inFrontMember | isRemoved
        · exact inFront other inFrontMember
        · exact above other (List.mem_append_left _ (List.mem_reverse.mp isRemoved))
      omega
    · intro segment member
      exact List.mem_append_right _ (List.mem_reverse.mpr member)
  unfold SegmentLogStorage.popSegmentsFromBack
  cases isOpen : storage.openSeg with
  | none =>
      have result := erased [] (by simp)
      simp only [popped, result]
      cases shape : kept.getLast? with
      | none =>
          have noneKept : kept = [] := by simpa using shape
          simp [noneKept]
      | some last =>
          have someKept : kept ≠ [] := by
            rintro rfl
            simp at shape
          simp [someKept]
  | some segment =>
      have beyond : lastIndexKept < segment.firstIndex :=
        above segment (List.mem_append_right _ (by simp [isOpen]))
      have result := erased [segment] (by simpa using beyond)
      have notReached : ¬ segment.firstIndex ≤ lastIndexKept := by omega
      simp only [notReached, if_false, popped, result]
      cases shape : kept.getLast? with
      | none =>
          have noneKept : kept = [] := by simpa using shape
          simp [noneKept]
      | some last =>
          have someKept : kept ≠ [] := by
            rintro rfl
            simp at shape
          simp [someKept]

/-! ### Prefixes reached by a truncation -/

theorem closedSpans_getElem? (base : Int) (closed : List (List Record)) (count : Nat) :
    (closedSpans base closed)[count]? =
      closed[count]?.map (fun records => (base + (closed.take count).flatten.length, records)) := by
  induction closed generalizing base count with
  | nil => simp [closedSpans]
  | cons records rest ih =>
      cases count with
      | zero => simp [closedSpans]
      | succ count =>
          simp only [closedSpans, List.getElem?_cons_succ, ih, List.take_succ_cons,
            List.flatten_cons, List.length_append, Nat.cast_add, Int.add_assoc]

theorem Layout.start_of_span {layout : Layout} {count : Nat} {span : Int × List Record}
    (found : layout.spans[count]? = some span) :
    span.1 = layout.base + (layout.takeFiles count).records.length := by
  have lengthEq := closedSpans_length layout.base layout.closed
  unfold Layout.spans at found
  by_cases inClosed : count < layout.closed.length
  · rw [List.getElem?_append_left (by omega), closedSpans_getElem?] at found
    obtain ⟨records, _, rfl⟩ := Option.map_eq_some_iff.mp found
    simp [Layout.records, Layout.takeFiles, Nat.le_of_lt inClosed]
  · rw [List.getElem?_append_right (by omega), lengthEq] at found
    cases isOpen : layout.opened with
    | none => simp [isOpen] at found
    | some records =>
        rw [isOpen] at found
        have atEnd : count = layout.closed.length := by
          have below := (List.getElem?_eq_some_iff.mp found).1
          simp at below
          omega
        subst atEnd
        simp only [Option.toList_some, List.map_cons, List.map_nil, Nat.sub_self,
          List.getElem?_cons_zero, Option.some.injEq] at found
        subst found
        simp [Layout.records, Layout.takeFiles, Layout.openFirst]

theorem Layout.takeFiles_of_spans_end {layout : Layout} {count : Nat}
    (ended : layout.spans[count]? = none) : layout.takeFiles count = layout := by
  have lengthEq := closedSpans_length layout.base layout.closed
  rw [List.getElem?_eq_none_iff] at ended
  unfold Layout.spans at ended
  rw [List.length_append, lengthEq, List.length_map] at ended
  cases isOpen : layout.opened with
  | none =>
      rw [isOpen] at ended
      unfold Layout.takeFiles
      rw [List.take_of_length_le (by simpa using ended), isOpen, ite_self, ← isOpen]
  | some records =>
      rw [isOpen] at ended
      exact layout.takeFiles_all (by simp at ended; omega)

theorem keeps_takeFiles {layout : Layout} {lastIndexKept : Int} {count : Nat}
    (positive : 0 < count) (file : layout.closed ≠ [] ∨ layout.opened ≠ none)
    (upper : lastIndexKept < layout.lastLogIndex)
    (beyond : ∀ span, layout.spans[count]? = some span → lastIndexKept < span.1) :
    Keeps lastIndexKept layout (layout.takeFiles count) := by
  obtain ⟨rest, split⟩ := layout.records_takeFiles count
  have afterFile : (layout.takeFiles count).closed ≠ [] ∨
      (layout.takeFiles count).opened ≠ none := by
    cases shape : layout.closed with
    | nil =>
        right
        have isOpen := file.resolve_left (fun other => other shape)
        have notFew : ¬ count ≤ 0 := by omega
        simp [Layout.takeFiles, shape, notFew, isOpen]
    | cons records more =>
        left
        obtain ⟨count, rfl⟩ := Nat.exists_eq_add_of_lt positive
        simp [Layout.takeFiles, shape]
  refine keeps_of_prefix rfl rfl split file afterFile ?_
  cases found : layout.spans[count]? with
  | none =>
      have lastEq := layout.lastLogIndex_of_file file
      rw [layout.takeFiles_of_spans_end found]
      omega
  | some span =>
      have starts := Layout.start_of_span found
      have above := beyond span found
      have sameBase : (layout.takeFiles count).base = layout.base := rfl
      omega

theorem Layout.head_span (layout : Layout)
    (file : layout.closed ≠ [] ∨ layout.opened ≠ none) :
    ∃ span, layout.spans[0]? = some span ∧ span.1 = layout.base := by
  unfold Layout.spans
  cases shape : layout.closed with
  | nil =>
      obtain ⟨records, isOpen⟩ :=
        Option.ne_none_iff_exists'.mp (file.resolve_left (fun other => other shape))
      exact ⟨(layout.openFirst, records), by simp [isOpen, closedSpans],
        by simp [Layout.openFirst, shape]⟩
  | cons records rest => exact ⟨(layout.base, records), by simp [closedSpans], rfl⟩

/-- What a crash during `truncate_suffix` may leave. -/
structure Truncated (codec : EntryCodec P) (lastIndexKept : Int) (before after : Layout) :
    Prop where
  keeps : Keeps lastIndexKept before after
  sound : after.Sound codec
  consistent : after.Consistent

theorem truncated_self {layout : Layout} {lastIndexKept : Int} (sound : layout.Sound codec)
    (consistent : layout.Consistent) (upper : lastIndexKept < layout.lastLogIndex) :
    Truncated codec lastIndexKept layout layout :=
  ⟨⟨rfl, by omega, le_refl _, fun _ _ => rfl⟩, sound, consistent⟩

theorem Layout.Consistent.tail_beyond {layout : Layout} (consistent : layout.Consistent)
    {span : Int × List Record} (member : span ∈ layout.spans.tail) :
    layout.firstLogIndex < span.1 := by
  unfold Layout.spans at member
  cases shape : layout.closed with
  | nil =>
      rw [shape] at member
      cases isOpen : layout.opened with
      | none => simp [isOpen, closedSpans] at member
      | some records => simp [isOpen, closedSpans] at member
  | cons records rest =>
      simp only [Layout.Consistent, shape] at consistent
      rw [shape] at member
      simp only [closedSpans, List.cons_append, List.tail_cons] at member
      rcases List.mem_append.mp member with later | isOpen
      · have lower := (closedSpans_bounds later).1
        omega
      · obtain ⟨_, _, rfl⟩ := List.mem_map.mp isOpen
        simp only [Layout.openFirst, shape, List.flatten_cons, List.length_append]
        push_cast
        omega

theorem Layout.Consistent.base_le {layout : Layout} (consistent : layout.Consistent)
    (file : layout.closed ≠ [] ∨ layout.opened ≠ none) :
    layout.base ≤ layout.firstLogIndex ∧ layout.firstLogIndex ≤ layout.lastLogIndex + 1 := by
  have lastEq := layout.lastLogIndex_of_file file
  unfold Layout.records at lastEq
  cases shape : layout.closed with
  | nil =>
      cases isOpen : layout.opened with
      | none => simp [shape, isOpen] at file
      | some records =>
          simp only [Layout.Consistent, shape, isOpen] at consistent
          simp only [shape, isOpen, List.flatten_nil, List.nil_append, Option.getD_some] at lastEq
          rcases consistent.2 with reaches | ⟨empty, atStart⟩
          · omega
          · subst empty
            simp only [List.length_nil] at lastEq
            omega
  | cons records rest =>
      simp only [Layout.Consistent, shape] at consistent
      simp only [shape, List.flatten_cons, List.length_append] at lastEq
      push_cast at lastEq
      omega

theorem Keeps.trans {lastIndexKept : Int} {first second third : Layout}
    (earlier : Keeps lastIndexKept first second) (later : Keeps lastIndexKept second third) :
    Keeps lastIndexKept first third := by
  refine ⟨later.first.trans earlier.first, later.lower, later.upper.trans earlier.upper, ?_⟩
  intro index below
  rw [later.records index below, earlier.records index (below.trans later.upper)]

theorem Truncated.reopen {before layout : Layout} {lastIndexKept : Int}
    {front : List (List Record)} {records : List Record}
    (truncated : Truncated codec lastIndexKept before layout)
    (shape : layout.closed = front ++ [records]) (noOpen : layout.opened = none) :
    Truncated codec lastIndexKept before layout.reopen := by
  have sameRecords := Layout.records_reopen shape noOpen
  have reopened := Layout.reopen_of_concat shape
  have file : layout.closed ≠ [] ∨ layout.opened ≠ none := Or.inl (by simp [shape])
  have lastEq := layout.lastLogIndex_of_file file
  have lower := truncated.keeps.lower
  refine ⟨truncated.keeps.trans ?_, truncated.sound.reopen shape noOpen, ?_⟩
  · have reopenedLast := layout.reopen.lastLogIndex_of_file (Or.inr (by rw [reopened]; simp))
    rw [sameRecords] at reopenedLast
    have sameBase : layout.reopen.base = layout.base := by rw [reopened]
    have sameFirst : layout.reopen.firstLogIndex = layout.firstLogIndex := by rw [reopened]
    refine ⟨sameFirst, by omega, by omega, ?_⟩
    intro index _
    unfold Layout.recordAt
    rw [sameFirst, sameBase, sameRecords, reopenedLast, lastEq, sameBase]
  · have consistent := truncated.consistent
    rw [reopened]
    cases front with
    | nil =>
        simp only [Layout.Consistent, shape, List.nil_append] at consistent ⊢
        exact ⟨consistent.1, Or.inl consistent.2⟩
    | cons head rest => simpa [Layout.Consistent, shape] using consistent

theorem Truncated.cut {before layout : Layout} {lastIndexKept : Int} {records : List Record}
    (truncated : Truncated codec lastIndexKept before layout)
    (isOpen : layout.opened = some records) (reaches : layout.firstLogIndex ≤ lastIndexKept)
    (starts : layout.openFirst ≤ lastIndexKept) (below : lastIndexKept < layout.lastLogIndex) :
    Truncated codec lastIndexKept before
      (layout.cut (lastIndexKept + 1 - layout.openFirst).toNat) := by
  set count := (lastIndexKept + 1 - layout.openFirst).toNat with countEq
  have lastEq := layout.lastLogIndex_of_file (Or.inr (by simp [isOpen]))
  have total : layout.records.length = layout.closed.flatten.length + records.length := by
    simp [Layout.records, isOpen]
  have openFirst : layout.openFirst = layout.base + layout.closed.flatten.length := rfl
  have cutLength : (layout.cut count).records.length = layout.closed.flatten.length + count := by
    simp only [Layout.records, Layout.cut, isOpen, Option.map_some, Option.getD_some,
      List.length_append, List.length_take]
    omega
  have sameBase : (layout.cut count).base = layout.base := rfl
  refine ⟨truncated.keeps.trans ?_, truncated.sound.cut isOpen count, ?_⟩
  · refine keeps_of_prefix rfl rfl (Layout.records_cut isOpen count) (Or.inr (by simp [isOpen]))
      (Or.inr (by simp [Layout.cut, isOpen])) ?_
    omega
  · have consistent := truncated.consistent
    cases shape : layout.closed with
    | nil =>
        simp only [Layout.Consistent, shape, isOpen] at consistent
        simp only [Layout.Consistent, Layout.cut, shape, isOpen, Option.map_some,
          List.length_take]
        rw [shape] at openFirst total
        simp only [List.flatten_nil, List.length_nil, Nat.cast_zero] at openFirst total
        exact ⟨consistent.1, Or.inl (by omega)⟩
    | cons head rest =>
        simpa [Layout.Consistent, Layout.cut, shape] using consistent

/-! ### Truncating one segment -/

/-- The operations of `Segment::truncate`. -/
def truncateOps (segment : Segment) (lastIndexKept : Int) (inode : Nat) :
    List (FsOp FileName Int) :=
  if segment.lastIndex ≤ lastIndexKept then []
  else
    (if segment.isOpen then []
      else [.rename (.closed segment.firstIndex segment.lastIndex)
        (.inprogress segment.firstIndex)]) ++
      [.truncate inode
        (segment.offsetAndTerm.getD (lastIndexKept + 1 - segment.firstIndex).toNat (0, 0)).1]

theorem Segment.truncate_performed (segment : Segment) (lastIndexKept : Int) {fs : LogFs}
    {inode : Nat} (working : fs.faults = fun _ => none) (fd : segment.fd = some inode)
    (present : (fs.disk.lookup segment.fileName).isSome) :
    Performed fs (segment.truncate lastIndexKept fs).2.2
      (truncateOps segment lastIndexKept inode) := by
  unfold Segment.truncate truncateOps
  by_cases whole : segment.lastIndex ≤ lastIndexKept
  · simp only [whole, if_true]
    exact Performed.nil working
  · cases isOpen : segment.isOpen with
    | true =>
        simp only [whole, if_false, if_true, fd, FileSystem.perform, working]
        exact Performed.record working _
    | false =>
        obtain ⟨other, found⟩ := Option.isSome_iff_exists.mp present
        simp only [Segment.fileName, isOpen, Bool.false_eq_true, if_false] at found
        simp only [whole, if_false, Bool.false_eq_true, FileSystem.rename, found, fd,
          FileSystem.perform, FileSystem.record_faults, working, if_true]
        have renamed := Performed.record working
          (.rename (.closed segment.firstIndex segment.lastIndex)
            (.inprogress segment.firstIndex))
        exact renamed.trans (Performed.record renamed.working _)

theorem truncateLastSegment_fs (storage : SegmentLogStorage) (lastSegment : Segment)
    (lastIndexKept : Int) :
    (storage.truncateLastSegment lastSegment lastIndexKept).2.fs =
      (lastSegment.truncate lastIndexKept storage.fs).2.2 := by
  unfold SegmentLogStorage.truncateLastSegment
  rcases lastSegment.truncate lastIndexKept storage.fs with ⟨ret, truncated, fs⟩
  simp only
  split_ifs <;> rfl

theorem offsetTable_cut (codec : EntryCodec P) {records : List Record} {count : Nat}
    (inside : count < records.length) :
    ((offsetTable codec 0 records).getD count (0, 0)).1 =
      (encodeAll codec (records.take count)).length := by
  have split := split_of_getElem? (List.getElem?_eq_getElem inside)
  have entry := offsetTable_getElem? codec 0 (records.take count) records[count]
    (records.drop (count + 1))
  rw [← split, List.length_take, Nat.min_eq_left (by omega)] at entry
  rw [List.getD_eq_getElem?_getD, entry]
  simp

theorem cut_crashSafe {before layout : Layout} {disk : LogDisk} {lastIndexKept : Int}
    {records : List Record} {inode : Nat} (onDisk : OnDisk codec disk layout)
    (truncated : Truncated codec lastIndexKept before layout)
    (isOpen : layout.opened = some records)
    (found : disk.lookup (.inprogress layout.openFirst) = some inode)
    (reaches : layout.firstLogIndex ≤ lastIndexKept) (starts : layout.openFirst ≤ lastIndexKept)
    (below : lastIndexKept < layout.lastLogIndex) :
    CrashSafe codec disk
      [.truncate inode ((offsetTable codec 0 records).getD
        (lastIndexKept + 1 - layout.openFirst).toNat (0, 0)).1]
      (Truncated codec lastIndexKept before) := by
  have lastEq := layout.lastLogIndex_of_file (Or.inr (by simp [isOpen]))
  have total : layout.records.length = layout.closed.flatten.length + records.length := by
    simp [Layout.records, isOpen]
  have openFirst : layout.openFirst = layout.base + layout.closed.flatten.length := rfl
  rw [offsetTable_cut codec (by omega)]
  exact CrashSafe.cons onDisk truncated
    (CrashSafe.nil (onDisk.cut isOpen found _) (truncated.cut isOpen reaches starts below))

theorem reopen_crashSafe {before layout : Layout} {disk : LogDisk} {lastIndexKept : Int}
    {front : List (List Record)} {records : List Record} {segment : Segment} {inode : Nat}
    (onDisk : OnDisk codec disk layout)
    (truncated : Truncated codec lastIndexKept before layout)
    (shape : layout.closed = front ++ [records]) (noOpen : layout.opened = none)
    (isClosed : segment.isOpen = false)
    (starts : segment.firstIndex = layout.base + front.flatten.length)
    (last : segment.lastIndex + 1 = segment.firstIndex + records.length)
    (table : segment.offsetAndTerm = offsetTable codec 0 records)
    (found : disk.lookup segment.fileName = some inode)
    (reaches : layout.firstLogIndex ≤ lastIndexKept)
    (startsBelow : segment.firstIndex ≤ lastIndexKept) :
    CrashSafe codec disk (truncateOps segment lastIndexKept inode)
      (Truncated codec lastIndexKept before) := by
  by_cases whole : segment.lastIndex ≤ lastIndexKept
  · simp only [truncateOps, whole, if_true]
    exact CrashSafe.nil onDisk truncated
  · have lastName : segment.lastIndex =
        layout.base + front.flatten.length + records.length - 1 := by omega
    have name : segment.fileName =
        closedName (layout.base + front.flatten.length, records) := by
      simp [Segment.fileName, isClosed, closedName, starts, lastName]
    have reopened := Layout.reopen_of_concat shape
    have reopenedDisk := onDisk.reopen truncated.sound shape noOpen
    have sameOpen : layout.reopen.openFirst = layout.base + front.flatten.length := by
      rw [reopened]
      rfl
    have reopenedLast : layout.reopen.lastLogIndex = segment.lastIndex := by
      rw [layout.reopen.lastLogIndex_of_file (Or.inr (by rw [reopened]; simp)), reopened]
      simp only [Layout.records, Option.getD_some, List.length_append, Nat.cast_add]
      omega
    rw [name] at found
    have moved : (disk.apply
        (.rename (closedName (layout.base + front.flatten.length, records))
          (.inprogress layout.reopen.openFirst))).lookup
        (.inprogress layout.reopen.openFirst) = some inode := by
      rw [Disk.lookup_rename disk found, if_pos rfl]
    have sameFirst : layout.reopen.firstLogIndex = layout.firstLogIndex := by rw [reopened]
    rw [← sameOpen] at reopenedDisk moved starts
    have cutSafe := cut_crashSafe reopenedDisk (truncated.reopen shape noOpen)
      (by rw [reopened]) moved (by omega) (by omega) (by omega)
    have opsEq : truncateOps segment lastIndexKept inode =
        .rename (closedName (layout.reopen.openFirst, records))
            (.inprogress layout.reopen.openFirst) ::
          [.truncate inode ((offsetTable codec 0 records).getD
            (lastIndexKept + 1 - layout.reopen.openFirst).toNat (0, 0)).1] := by
      rw [truncateOps, if_neg whole]
      simp only [if_false, isClosed, Bool.false_eq_true, table, starts, closedName, lastName,
        sameOpen]
      rfl
    rw [opsEq]
    exact CrashSafe.cons onDisk truncated cutSafe

theorem Layout.Consistent.recordAt_isSome {layout : Layout} (consistent : layout.Consistent)
    {index : Int} (first : layout.firstLogIndex ≤ index) (last : index ≤ layout.lastLogIndex) :
    ∃ record, layout.recordAt index = some record := by
  have file : layout.closed ≠ [] ∨ layout.opened ≠ none := by
    by_contra noFile
    push Not at noFile
    have empty : layout.lastLogIndex = layout.firstLogIndex - 1 := by
      simp [Layout.lastLogIndex, noFile]
    omega
  have base := (consistent.base_le file).1
  have lastEq := layout.lastLogIndex_of_file file
  have inside : (index - layout.base).toNat < layout.records.length := by omega
  refine ⟨layout.records[(index - layout.base).toNat], ?_⟩
  rw [Layout.recordAt, if_pos ⟨first, last, base.trans first⟩, List.getElem?_eq_getElem inside]

/-! ### The whole call -/

theorem SortedSegments.split {segments : List Segment} (sorted : SortedSegments segments)
    (lastIndexKept : Int) :
    ∃ kept removed, segments = kept ++ removed ∧
      (∀ segment ∈ kept, segment.firstIndex ≤ lastIndexKept) ∧
      ∀ segment ∈ removed, lastIndexKept < segment.firstIndex := by
  induction segments with
  | nil => exact ⟨[], [], rfl, by simp, by simp⟩
  | cons head rest ih =>
      obtain ⟨headBelow, restSorted⟩ := List.pairwise_cons.mp sorted
      by_cases beyond : lastIndexKept < head.firstIndex
      · refine ⟨[], head :: rest, rfl, by simp, ?_⟩
        intro segment member
        rcases List.mem_cons.mp member with rfl | later
        · exact beyond
        · exact lt_trans beyond (headBelow segment later)
      · obtain ⟨kept, removed, rfl, below, above⟩ := ih restSorted
        refine ⟨head :: kept, removed, rfl, ?_, above⟩
        intro segment member
        rcases List.mem_cons.mp member with rfl | later
        · omega
        · exact below segment later

inductive Placement (storage : SegmentLogStorage) (lastIndexKept : Int) : Prop where
  | inOpen (segment : Segment) (isOpen : storage.openSeg = some segment)
      (reaches : segment.firstIndex ≤ lastIndexKept)
  | inClosed (kept removed : List Segment) (split : storage.segments = kept ++ removed)
      (below : ∀ segment ∈ kept, segment.firstIndex ≤ lastIndexKept)
      (above : ∀ segment ∈ removed ++ storage.openSeg.toList,
        lastIndexKept < segment.firstIndex)

theorem SegmentLog.placement (log : SegmentLog codec) (lastIndexKept : Int) :
    Placement log.storage lastIndexKept := by
  have sorted := log.represents.sorted log.sound
  unfold SegmentLogStorage.allSegments SortedSegments at sorted
  rw [List.pairwise_append] at sorted
  by_cases inOpen : ∃ segment, log.storage.openSeg = some segment ∧
      segment.firstIndex ≤ lastIndexKept
  · obtain ⟨segment, isOpen, reaches⟩ := inOpen
    exact .inOpen segment isOpen reaches
  · obtain ⟨kept, removed, split, below, above⟩ :=
      SortedSegments.split sorted.1 lastIndexKept
    refine .inClosed kept removed split below ?_
    intro segment member
    rcases List.mem_append.mp member with isRemoved | isOpen
    · exact above segment isRemoved
    · by_contra notBeyond
      exact inOpen ⟨segment, Option.mem_toList.mp isOpen, by omega⟩

theorem SegmentLog.tail_beyond (log : SegmentLog codec) :
    ∀ segment ∈ log.storage.allSegments.tail,
      log.layout.firstLogIndex < segment.firstIndex := by
  intro segment member
  have bounds := log.represents.bounds
  cases shape : log.storage.allSegments with
  | nil => simp [shape] at member
  | cons head rest =>
      rw [shape] at bounds member
      cases spansShape : log.layout.spans with
      | nil =>
          rw [spansShape] at bounds
          cases bounds
      | cons span spans =>
          rw [spansShape] at bounds
          cases bounds with
          | cons _ tail =>
              obtain ⟨other, listed, starts, _⟩ := forall₂_left tail member
              rw [starts]
              exact log.consistent.tail_beyond (by rw [spansShape]; exact listed)

theorem SegmentLog.truncateSuffix_whole (log : SegmentLog codec) {lastIndexKept : Int}
    (whole : lastIndexKept + 1 = log.storage.firstLogIndex) :
    (log.storage.truncateSuffix lastIndexKept).2 =
      { log.storage with
        lastLogIndex := lastIndexKept
        segments := []
        openSeg := none
        fs := (SegmentLogStorage.unlinkFromBack (-1) log.storage.allSegments.reverse
          log.storage.fs).2 } := by
  have tail := log.tail_beyond
  rw [← log.represents.first, ← whole] at tail
  have noRange : ¬ log.storage.firstLogIndex ≤ lastIndexKept := by omega
  unfold SegmentLogStorage.truncateSuffix
  cases log.placement lastIndexKept with
  | inOpen segment isOpen reaches =>
      have noClosed : log.storage.segments = [] := by
        by_contra closed
        have beyond := tail segment (by
          rw [SegmentLogStorage.allSegments, List.tail_append_of_ne_nil closed, isOpen]
          simp)
        omega
      simp only [popSegmentsFromBack_open _ isOpen reaches, noRange, if_false,
        SegmentLogStorage.allSegments, noClosed, isOpen]
      rfl
  | inClosed kept removed split below above =>
      simp only [popSegmentsFromBack_beyond _ split below above]
      cases kept with
      | nil => simp [SegmentLogStorage.allSegments, split, whole]
      | cons head rest =>
          have single : rest = [] := by
            by_contra more
            obtain ⟨second, others, rfl⟩ := List.exists_cons_of_ne_nil more
            have beyond := tail second (by simp [SegmentLogStorage.allSegments, split])
            have reaches := below second (by simp)
            omega
          subst single
          simp [SegmentLogStorage.allSegments, split, noRange, eraseSegment]

theorem SegmentLog.hasFile (log : SegmentLog codec) {lastIndexKept : Int}
    (lower : log.storage.firstLogIndex - 1 ≤ lastIndexKept)
    (upper : lastIndexKept < log.storage.lastLogIndex) :
    log.layout.closed ≠ [] ∨ log.layout.opened ≠ none := by
  rw [log.represents.first] at lower
  rw [log.represents.last] at upper
  by_contra noFile
  push Not at noFile
  have last : log.layout.lastLogIndex = log.layout.firstLogIndex - 1 := by
    simp [Layout.lastLogIndex, noFile]
  omega

theorem SegmentLog.unlink_crashSafe (log : SegmentLog codec) {lastIndexKept : Int}
    (lower : log.storage.firstLogIndex - 1 ≤ lastIndexKept)
    (upper : lastIndexKept < log.storage.lastLogIndex) {kept popped : List Segment}
    (split : log.storage.allSegments = kept ++ popped)
    (beyond : ∀ position segment, kept.length ≤ position → 0 < position →
      log.storage.allSegments[position]? = some segment → lastIndexKept < segment.firstIndex)
    (early : kept = [] → lastIndexKept < log.storage.firstLogIndex) :
    let ops := ((popped.reverse).map Segment.fileName).map unlinkOp
    CrashSafe codec log.storage.fs.disk ops (Truncated codec lastIndexKept log.layout) ∧
      OnDisk codec (log.storage.fs.disk.replay ops) (log.layout.takeFiles kept.length) ∧
      Truncated codec lastIndexKept log.layout (log.layout.takeFiles kept.length) := by
  have file := log.hasFile lower upper
  have names := log.represents.fileNames
  have bounds := log.represents.bounds
  rw [split] at names
  have counted : (kept ++ popped).length = log.layout.files.length := by
    have lengths := congrArg List.length names
    simpa using lengths
  have lastEq : log.storage.lastLogIndex = log.layout.lastLogIndex := log.represents.last
  have firstEq : log.storage.firstLogIndex = log.layout.firstLogIndex := log.represents.first
  have baseLe := log.consistent.base_le file
  have opsEq : ((((log.layout.files.take log.layout.files.length).drop kept.length).map
      Prod.fst).reverse).map unlinkOp = ((popped.reverse).map Segment.fileName).map unlinkOp := by
    rw [List.take_length, List.map_drop, ← names, List.map_append,
      List.drop_left' (List.length_map ..), List.map_reverse (f := Segment.fileName)]
  have whole : log.layout.takeFiles log.layout.files.length = log.layout := by
    refine Layout.takeFiles_of_spans_end ?_
    have lengths := bounds.length_eq
    rw [split, counted] at lengths
    rw [List.getElem?_eq_none_iff, ← lengths]
  have holds : ∀ between, kept.length ≤ between → between ≤ log.layout.files.length →
      Truncated codec lastIndexKept log.layout (log.layout.takeFiles between) := by
    intro between atLeast _
    refine ⟨?_, log.sound.takeFiles between, log.consistent.takeFiles between⟩
    by_cases none : between = 0
    · -- no file is left, so the first index was the next one to keep
      have inTime := early (List.eq_nil_of_length_eq_zero (by omega))
      subst none
      exact keeps_empty rfl (by simp [Layout.takeFiles]) (by simp [Layout.takeFiles])
        (by omega) baseLe.2
    · refine keeps_takeFiles (by omega) file (by omega) ?_
      intro span found
      obtain ⟨segment, listed, starts, _⟩ := forall₂_getElem? bounds found
      have above := beyond between segment atLeast (by omega) listed
      omega
  have unlinked := unlinkFromBack_crashSafe log.sound log.layout.files.length
    (show kept.length ≤ _ by rw [← counted, List.length_append]; omega) (le_refl _)
    (by rw [whole]; exact log.represents.onDisk) holds
  simp only [opsEq] at unlinked
  exact ⟨unlinked.1, unlinked.2, holds _ (le_refl _) (by
    rw [← counted, List.length_append]; omega)⟩

theorem SegmentLog.crashSafe_whole (log : SegmentLog codec) {lastIndexKept : Int}
    (whole : lastIndexKept + 1 = log.storage.firstLogIndex)
    (upper : lastIndexKept < log.storage.lastLogIndex) :
    ∃ ops, Performed log.storage.fs (log.storage.truncateSuffix lastIndexKept).2.fs ops ∧
      CrashSafe codec log.storage.fs.disk ops
        (Truncated codec lastIndexKept log.layout) := by
  obtain ⟨after, unlinked, performed⟩ := unlinkFromBack_performed
    log.storage.allSegments.reverse (-1) log.working
    (log.represents.listed log.sound).reverse
  have noneKept : log.storage.allSegments = [] ++ log.storage.allSegments := rfl
  have safe := log.unlink_crashSafe (by omega) upper noneKept
    (by
      intro position segment _ positive found
      have beyond := log.tail_beyond segment (by
        rw [← List.drop_one]
        refine List.mem_of_getElem? (i := position - 1) ?_
        rw [List.getElem?_drop, show 1 + (position - 1) = position by omega]
        exact found)
      rw [← log.represents.first] at beyond
      omega)
    (fun _ => by omega)
  refine ⟨_, ?_, safe.1⟩
  rw [log.truncateSuffix_whole whole, unlinked]
  exact performed

theorem SegmentLog.crashSafe_open (log : SegmentLog codec) {lastIndexKept : Int}
    (lower : log.storage.firstLogIndex ≤ lastIndexKept)
    (upper : lastIndexKept < log.storage.lastLogIndex) {segment : Segment}
    (isOpen : log.storage.openSeg = some segment)
    (reaches : segment.firstIndex ≤ lastIndexKept) :
    ∃ ops, Performed log.storage.fs (log.storage.truncateSuffix lastIndexKept).2.fs ops ∧
      CrashSafe codec log.storage.fs.disk ops
        (Truncated codec lastIndexKept log.layout) := by
  have firstEq := log.represents.first
  have lastEq := log.represents.last
  obtain ⟨records, layoutOpen, stillOpen, holds⟩ :
      ∃ records, log.layout.opened = some records ∧ segment.isOpen = true ∧
        segment.Holds codec log.storage.fs.disk log.layout.openFirst records := by
    have opened := log.represents.opened
    rw [isOpen] at opened
    cases shape : log.layout.opened with
    | none =>
        rw [shape] at opened
        cases opened
    | some records =>
        rw [shape] at opened
        cases opened with
        | cons head _ => exact ⟨records, rfl, head.1, head.2⟩
  obtain ⟨inode, fd, found, _⟩ := holds.file
  have starts := holds.first
  have last := holds.last
  have layoutLast := log.layout.lastLogIndex_of_file (Or.inr (by simp [layoutOpen]))
  have total : log.layout.records.length =
      log.layout.closed.flatten.length + records.length := by
    simp [Layout.records, layoutOpen]
  have openFirst : log.layout.openFirst =
      log.layout.base + log.layout.closed.flatten.length := rfl
  have notWhole : ¬ segment.lastIndex ≤ lastIndexKept := by omega
  have performed := segment.truncate_performed lastIndexKept log.working fd
    (by rw [found]; rfl)
  have opsEq : truncateOps segment lastIndexKept inode =
      [.truncate inode ((offsetTable codec 0 records).getD
        (lastIndexKept + 1 - log.layout.openFirst).toNat (0, 0)).1] := by
    simp [truncateOps, notWhole, stillOpen, holds.table, starts]
  simp only [Segment.fileName, stillOpen, if_true, starts] at found
  refine ⟨_, ?_, opsEq ▸ cut_crashSafe log.represents.onDisk
    (truncated_self log.sound log.consistent (by omega)) layoutOpen found
    (by omega) (by omega) (by omega)⟩
  unfold SegmentLogStorage.truncateSuffix
  simp only [popSegmentsFromBack_open _ isOpen reaches, lower, if_true,
    SegmentLogStorage.unlinkFromBack, ne_eq, not_true_eq_false, false_and, if_false]
  rw [truncateLastSegment_fs]
  exact performed

theorem SegmentLog.crashSafe_closed (log : SegmentLog codec) {lastIndexKept : Int}
    (lower : log.storage.firstLogIndex ≤ lastIndexKept)
    (upper : lastIndexKept < log.storage.lastLogIndex) {front removed : List Segment}
    {segment : Segment} (split : log.storage.segments = front ++ [segment] ++ removed)
    (below : ∀ other ∈ front ++ [segment], other.firstIndex ≤ lastIndexKept)
    (above : ∀ other ∈ removed ++ log.storage.openSeg.toList,
      lastIndexKept < other.firstIndex) :
    ∃ ops, Performed log.storage.fs (log.storage.truncateSuffix lastIndexKept).2.fs ops ∧
      CrashSafe codec log.storage.fs.disk ops
        (Truncated codec lastIndexKept log.layout) := by
  have firstEq := log.represents.first
  have lastEq := log.represents.last
  set popped := removed ++ log.storage.openSeg.toList with poppedEq
  have allSplit : log.storage.allSegments = (front ++ [segment]) ++ popped := by
    rw [SegmentLogStorage.allSegments, split, poppedEq, List.append_assoc]
  have listed := log.represents.listed log.sound
  rw [allSplit] at listed
  have poppedListed := listed.right.reverse
  obtain ⟨after, unlinked, performed⟩ := unlinkFromBack_performed popped.reverse (-1)
    log.working poppedListed
  obtain ⟨unlinkSafe, onDisk, truncated⟩ := log.unlink_crashSafe (by omega) upper allSplit
    (by
      intro position other atLeast _ found
      rw [allSplit, List.getElem?_append_right atLeast] at found
      exact above other (List.mem_of_getElem? found))
    (by simp)
  rw [← performed.disk] at onDisk
  set count := (front ++ [segment]).length with countEq
  -- the segment and its records
  have spanFound : ∃ records, log.layout.closed[front.length]? = some records ∧
      segment.isOpen = false ∧ segment.Holds codec log.storage.fs.disk
        (log.layout.base + (log.layout.closed.take front.length).flatten.length) records := by
    have lengths := log.represents.closed.length_eq
    rw [closedSpans_length, split] at lengths
    have inClosed : front.length < log.layout.closed.length := by
      rw [← lengths]
      simp
    have found := closedSpans_getElem? log.layout.base log.layout.closed front.length
    rw [List.getElem?_eq_getElem inClosed, Option.map_some] at found
    obtain ⟨other, otherFound, isClosed, holds⟩ :=
      forall₂_getElem? log.represents.closed found
    have same : other = segment := by
      rw [split, List.append_assoc, List.getElem?_append_right (le_refl _)] at otherFound
      simpa using otherFound.symm
    subst same
    exact ⟨_, List.getElem?_eq_getElem inClosed, isClosed, holds⟩
  obtain ⟨records, recordsFound, isClosed, holds⟩ := spanFound
  obtain ⟨inode, fd, found, _⟩ := holds.file
  have countSucc : count = front.length + 1 := by simp [countEq]
  have shape : (log.layout.takeFiles count).closed =
      log.layout.closed.take front.length ++ [records] := by
    simp [Layout.takeFiles, countSucc, List.take_add_one, recordsFound]
  have noOpen : (log.layout.takeFiles count).opened = none := by
    have inClosed := (List.getElem?_eq_some_iff.mp recordsFound).1
    have few : count ≤ log.layout.closed.length := by omega
    simp [Layout.takeFiles, few]
  have starts := holds.first
  have last := holds.last
  have stillFound : after.disk.lookup segment.fileName = some inode := by
    have other : segment.fileName ∉ popped.reverse.map Segment.fileName := by
      have nodup := listed.nodup
      rw [List.map_append, List.nodup_append] at nodup
      intro member
      exact nodup.2.2 segment.fileName (by simp) segment.fileName
        (by simpa using member) rfl
    rw [performed.disk, lookup_unlinks popped.reverse segment.fileName_notTmp poppedListed
      other]
    exact found
  have cutPerformed := segment.truncate_performed lastIndexKept performed.working fd
    (by rw [stillFound]; rfl)
  have cutSafe := reopen_crashSafe onDisk truncated shape noOpen isClosed starts
    (by omega) holds.table stillFound (by rw [firstEq] at lower; exact lower)
    (below segment (by simp))
  rw [performed.disk] at cutSafe
  refine ⟨_, ?_, CrashSafe.append unlinkSafe cutSafe⟩
  have result : (log.storage.truncateSuffix lastIndexKept).2.fs =
      (segment.truncate lastIndexKept after).2.2 := by
    have notFailed : ¬ (popped.reverse ≠ [] ∧
        (if popped.reverse = [] then (-1 : Int) else 0) ≠ 0) := by
      rintro ⟨some, failed⟩
      rw [if_neg some] at failed
      exact failed rfl
    have someKept : front ++ [segment] ≠ [] := by simp
    have pops := popSegmentsFromBack_beyond _ split below above
    rw [← poppedEq, if_neg someKept, List.getLast?_concat] at pops
    unfold SegmentLogStorage.truncateSuffix
    simp only [pops, lower, if_true, unlinked, notFailed, if_false]
    rw [truncateLastSegment_fs]
  rw [result]
  exact performed.trans cutPerformed

/-- A crash at any point of `truncate_suffix` leaves a prefix of the log. -/
theorem SegmentLog.truncateSuffix_crashSafe (log : SegmentLog codec) {lastIndexKept : Int}
    (lower : log.storage.firstLogIndex - 1 ≤ lastIndexKept)
    (upper : lastIndexKept < log.storage.lastLogIndex) :
    ∃ ops, Performed log.storage.fs (log.storage.truncateSuffix lastIndexKept).2.fs ops ∧
      CrashSafe codec log.storage.fs.disk ops
        (Truncated codec lastIndexKept log.layout) := by
  by_cases whole : lastIndexKept + 1 = log.storage.firstLogIndex
  · exact log.crashSafe_whole whole upper
  have reaches : log.storage.firstLogIndex ≤ lastIndexKept := by omega
  cases log.placement lastIndexKept with
  | inOpen segment isOpen starts => exact log.crashSafe_open reaches upper isOpen starts
  | inClosed kept removed split below above =>
      rcases List.eq_nil_or_concat kept with rfl | ⟨front, segment, rfl⟩
      · -- the first segment starts at or before the first index
        have file := log.hasFile lower upper
        have baseLe := (log.consistent.base_le file).1
        have bounds := log.represents.bounds
        rw [SegmentLogStorage.allSegments, split, List.nil_append] at bounds
        obtain ⟨span, isFirst, starts⟩ := log.layout.head_span file
        obtain ⟨segment, found, same, _⟩ := forall₂_getElem? bounds isFirst
        have beyond := above segment (List.mem_of_getElem? found)
        have firstEq := log.represents.first
        omega
      · rw [List.concat_eq_append] at split below
        exact log.crashSafe_closed reaches upper split below above

variable [DecidableEq P]

/-- After a crash inside `truncate_suffix`, `init` succeeds and recovers a
prefix of the log that reaches the last index kept. -/
theorem SegmentLog.truncateSuffix_recovers (log : SegmentLog codec) (flags : LogFlags)
    {lastIndexKept : Int} (lower : log.storage.firstLogIndex - 1 ≤ lastIndexKept)
    (upper : lastIndexKept < log.storage.lastLogIndex) (count : Nat) (gone : List FileName)
    (checksumType : Nat) (enableSync : Bool) (manager : ConfigurationManager P) :
    ∃ recovered manager',
      (SegmentLogStorage.fresh
          (crashedDisk log.storage.fs (log.storage.truncateSuffix lastIndexKept).2.fs count gone)
          checksumType enableSync).init codec flags manager = (0, recovered, manager') ∧
        recovered.firstLogIndex = log.storage.firstLogIndex ∧
        lastIndexKept ≤ recovered.lastLogIndex ∧
        recovered.lastLogIndex ≤ log.storage.lastLogIndex ∧
        ∀ index, log.storage.firstLogIndex ≤ index → index ≤ recovered.lastLogIndex →
          (recovered.getEntry codec index).isSome ∧
            recovered.getEntry codec index = log.storage.getEntry codec index ∧
            recovered.getTerm index = log.storage.getTerm index := by
  obtain ⟨ops, performed, safe⟩ := log.truncateSuffix_crashSafe lower upper
  obtain ⟨layout, onDisk, truncated⟩ := safe count
  have crashed : OnDisk codec (crashedDisk log.storage.fs
      (log.storage.truncateSuffix lastIndexKept).2.fs count gone) layout := by
    rw [crashedDisk, performed.newOps_eq]
    exact onDisk.deleteLeftovers gone
  obtain ⟨notRefused, sameFirst, sameLast, sameRecord⟩ := truncated.consistent.recovered
  have started := init_onDisk flags crashed truncated.sound checksumType enableSync manager
  rw [if_neg notRefused] at started
  obtain ⟨recovered, manager', ran, represents, sound⟩ := started
  have keeps := truncated.keeps
  have firstEq : recovered.firstLogIndex = log.storage.firstLogIndex := by
    rw [represents.first, sameFirst, keeps.first, log.represents.first]
  have lastEq : recovered.lastLogIndex = layout.lastLogIndex := by
    rw [represents.last, sameLast]
  refine ⟨recovered, manager', ran, firstEq, by rw [lastEq]; exact keeps.lower,
    by rw [lastEq, log.represents.last]; exact keeps.upper, ?_⟩
  intro index first last
  rw [lastEq] at last
  obtain ⟨record, found⟩ := log.consistent.recordAt_isSome
    (by rw [← log.represents.first]; exact first) (last.trans keeps.upper)
  have recoveredFound : layout.recovered.recordAt index = some record := by
    rw [sameRecord, keeps.records index last, found]
  rw [represents.getEntry sound recoveredFound, log.represents.getEntry log.sound found,
    represents.getTerm sound recoveredFound, log.represents.getTerm log.sound found]
  exact ⟨Record.toEntry_isSome codec (Layout.valid_of_recordAt log.sound found) index, rfl, rfl⟩

end Truncate

/-- A crash after every operation of a cut to one entry. -/
theorem noOpLog_truncated_recovers :
    ∃ recovered manager',
      (SegmentLogStorage.fresh
          (crashedDisk noOpLog.storage.fs (noOpLog.storage.truncateSuffix 1).2.fs 1 [])
          0 true).init plainCodec {} .init = (0, recovered, manager') ∧
        recovered.firstLogIndex = noOpLog.storage.firstLogIndex ∧
        1 ≤ recovered.lastLogIndex ∧
        recovered.lastLogIndex ≤ noOpLog.storage.lastLogIndex ∧
        ∀ index, noOpLog.storage.firstLogIndex ≤ index → index ≤ recovered.lastLogIndex →
          (recovered.getEntry plainCodec index).isSome ∧
            recovered.getEntry plainCodec index = noOpLog.storage.getEntry plainCodec index ∧
            recovered.getTerm index = noOpLog.storage.getTerm index :=
  noOpLog.truncateSuffix_recovers {} (by decide) (by decide) 1 [] 0 true .init

end QuorumKit
