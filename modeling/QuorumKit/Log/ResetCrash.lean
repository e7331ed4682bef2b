/-
Crashes inside `SegmentLogStorage::reset`.

The call saves the new first index and only then unlinks the old files, oldest
first.  A directory on the way holds the last files of the old log under the
new first index, and recovery accepts some of these directories.
-/

import QuorumKit.Log.TruncateCrash

namespace QuorumKit

open Library

section Reset

variable {P : Type} {codec : EntryCodec P}

/-- The layout without its first `count` files. -/
def Layout.dropFiles (layout : Layout) (count : Nat) : Layout :=
  { layout with
    base := layout.base + (layout.closed.take count).flatten.length
    closed := layout.closed.drop count
    opened := if count ≤ layout.closed.length then layout.opened else none }

theorem Layout.dropFiles_zero (layout : Layout) : layout.dropFiles 0 = layout := by
  simp [Layout.dropFiles]

theorem Layout.dropFiles_succ {layout : Layout} {count : Nat}
    (inClosed : count < layout.closed.length) :
    layout.dropFiles (count + 1) = (layout.dropFiles count).dropHead := by
  have shape := List.drop_eq_getElem_cons inClosed
  have few : count + 1 ≤ layout.closed.length := inClosed
  have fewer : count ≤ layout.closed.length := by omega
  have taken : layout.closed.take (count + 1) =
      layout.closed.take count ++ [layout.closed[count]] := by
    rw [List.take_add_one, List.getElem?_eq_getElem inClosed]
    rfl
  simp only [Layout.dropFiles, Layout.dropHead, shape, few, fewer, if_true, taken,
    List.flatten_append, List.flatten_singleton, List.length_append, Nat.cast_add,
    Int.add_assoc]

theorem Layout.dropFiles_end {layout : Layout} {count : Nat}
    (past : layout.closed.length < count) :
    (layout.dropFiles count).closed = [] ∧ (layout.dropFiles count).opened = none := by
  refine ⟨List.drop_eq_nil_of_le (by omega), ?_⟩
  simp only [Layout.dropFiles]
  rw [if_neg (by omega)]

theorem Layout.end_dropFiles {layout : Layout} {count : Nat}
    (few : count ≤ layout.closed.length) :
    (layout.dropFiles count).base + (layout.dropFiles count).records.length =
      layout.base + layout.records.length := by
  have parts := congrArg (fun parts => parts.flatten.length)
    (List.take_append_drop count layout.closed)
  simp only [List.flatten_append, List.length_append] at parts
  simp only [Layout.dropFiles, Layout.records, few, if_true, List.length_append]
  omega

theorem Layout.openFirst_dropFiles (layout : Layout) (count : Nat) :
    (layout.dropFiles count).openFirst = layout.openFirst := by
  have parts := congrArg (fun parts => parts.flatten.length)
    (List.take_append_drop count layout.closed)
  simp only [List.flatten_append, List.length_append] at parts
  simp only [Layout.dropFiles, Layout.openFirst]
  omega

theorem Layout.Sound.dropFiles {layout : Layout} (sound : layout.Sound codec) (count : Nat) :
    (layout.dropFiles count).Sound codec := by
  induction count with
  | zero =>
      rw [layout.dropFiles_zero]
      exact sound
  | succ count ih =>
      by_cases inClosed : count < layout.closed.length
      · rw [Layout.dropFiles_succ inClosed]
        exact Layout.dropHead_sound ih
      · obtain ⟨noClosed, noOpen⟩ :=
          Layout.dropFiles_end (show layout.closed.length < count + 1 by omega)
        have base := sound.base
        have bound := sound.bound
        have whole : layout.closed.take (count + 1) = layout.closed :=
          List.take_of_length_le (by omega)
        refine ⟨?_, ?_, ?_, sound.first, ?_⟩
        · simp [noClosed]
        · simp [Layout.records, noClosed, noOpen]
        · simp only [Layout.dropFiles]
          omega
        · simp only [Layout.records, noClosed, noOpen, List.flatten_nil, Option.getD_none,
            List.append_nil, List.length_nil, Nat.cast_zero, Int.add_zero]
          simp only [Layout.dropFiles, whole]
          simp only [Layout.records, List.length_append] at bound
          omega

theorem Layout.files_length_le (layout : Layout) :
    layout.files.length ≤ layout.closed.length + 1 := by
  unfold Layout.files
  rw [List.length_append, List.length_map, List.length_map, closedSpans_length]
  cases layout.opened <;> simp

theorem Layout.files_dropFiles (layout : Layout) (count : Nat) :
    (layout.dropFiles count).files = layout.files.drop count := by
  induction count with
  | zero => rw [layout.dropFiles_zero, List.drop_zero]
  | succ count ih =>
      by_cases inClosed : count < layout.closed.length
      · have shape : (layout.dropFiles count).closed =
            layout.closed[count] :: layout.closed.drop (count + 1) :=
          List.drop_eq_getElem_cons inClosed
        rw [Layout.files_dropHead shape, ← Layout.dropFiles_succ inClosed] at ih
        rw [← List.tail_drop, ← ih]
        rfl
      · obtain ⟨noClosed, noOpen⟩ :=
          Layout.dropFiles_end (show layout.closed.length < count + 1 by omega)
        have few := layout.files_length_le
        rw [List.drop_eq_nil_of_le (by omega)]
        simp [Layout.files, noClosed, noOpen, closedSpans]

theorem OnDisk.removeHead {disk : LogDisk} {layout remaining : Layout} {name : FileName}
    {records : List Record} (onDisk : OnDisk codec disk layout) (sound : layout.Sound codec)
    (files : layout.files = (name, records) :: remaining.files)
    (sameFirst : remaining.firstLogIndex = layout.firstLogIndex) :
    OnDisk codec (disk.apply (unlinkOp name)) remaining := by
  have keys := Layout.files_nodup sound.nonempty
  have listed : name ∈ layout.files.map Prod.fst := by
    rw [files]
    exact List.mem_cons_self
  have notTmp : ¬ name.IsTmp := by
    rw [Layout.mem_files_iff] at listed
    rcases listed with ⟨span, _, rfl⟩ | ⟨_, rfl⟩ <;> simp [FileName.IsTmp, closedName]
  rw [files] at keys
  refine onDisk.remove remaining name notTmp listed sameFirst ?_
  intro other
  rw [lookup_tail keys other, files]

theorem OnDisk.dropFiles {disk : LogDisk} {layout : Layout} (sound : layout.Sound codec)
    (onDisk : OnDisk codec disk layout) (count : Nat) :
    OnDisk codec (disk.replay (((layout.files.map Prod.fst).take count).map unlinkOp))
      (layout.dropFiles count) := by
  induction count with
  | zero =>
      rw [layout.dropFiles_zero]
      exact onDisk
  | succ count ih =>
      have files := layout.files_dropFiles count
      have later := layout.files_dropFiles (count + 1)
      cases found : layout.files[count]? with
      | none =>
          have ended := List.getElem?_eq_none_iff.mp found
          have same : (layout.files.map Prod.fst).take (count + 1) =
              (layout.files.map Prod.fst).take count := by
            rw [List.take_of_length_le (by rw [List.length_map]; omega),
              List.take_of_length_le (by rw [List.length_map]; omega)]
          rw [same]
          rw [List.drop_eq_nil_of_le ended] at files
          rw [List.drop_eq_nil_of_le (by omega)] at later
          exact ⟨ih.wellFormed, ih.saved, by rw [later, ← files]; exact ih.files⟩
      | some file =>
          obtain ⟨inFiles, rfl⟩ := List.getElem?_eq_some_iff.mp found
          rw [List.drop_eq_getElem_cons inFiles, ← later] at files
          have opsEq : ((layout.files.map Prod.fst).take (count + 1)).map unlinkOp =
              ((layout.files.map Prod.fst).take count).map unlinkOp ++
                [unlinkOp layout.files[count].1] := by
            rw [List.take_add_one, List.getElem?_map, found]
            simp
          rw [opsEq, Disk.replay_append]
          exact ih.removeHead (sound.dropFiles count) files rfl

theorem dropBelow_base (first base : Int) (closed : List (List Record)) :
    (dropBelow first base closed).1 = base ∧ (dropBelow first base closed).2 = closed ∨
      (dropBelow first base closed).1 ≤ first := by
  induction closed generalizing base with
  | nil => exact Or.inl ⟨rfl, rfl⟩
  | cons records rest ih =>
      simp only [dropBelow]
      split
      · rename_i below
        right
        rcases ih (base + records.length) with ⟨same, _⟩ | below
        · rw [same]
          exact below
        · exact below
      · exact Or.inl ⟨rfl, rfl⟩

/-- `init` refuses exactly when the first file is a closed segment beyond the
first index. -/
theorem Layout.refused_iff {layout : Layout} :
    layout.Refused ↔ layout.closed ≠ [] ∧ layout.firstLogIndex < layout.base := by
  have keepBase : layout.keep.base =
      (dropBelow layout.firstLogIndex layout.base layout.closed).1 := rfl
  have keepClosed : layout.keep.closed =
      (dropBelow layout.firstLogIndex layout.base layout.closed).2 := rfl
  constructor
  · rintro ⟨kept, beyond⟩
    rcases dropBelow_base layout.firstLogIndex layout.base layout.closed with
      ⟨sameBase, sameClosed⟩ | below
    · rw [keepClosed, sameClosed] at kept
      rw [keepBase, sameBase] at beyond
      exact ⟨kept, beyond⟩
    · omega
  · rintro ⟨some, beyond⟩
    obtain ⟨records, rest, shape⟩ := List.exists_cons_of_ne_nil some
    have notBelow : ¬ layout.base + records.length ≤ layout.firstLogIndex := by omega
    have same : layout.keep = layout := by
      simp [Layout.keep, shape, dropBelow, notBelow]
      rw [← shape]
    unfold Layout.Refused
    rw [same]
    exact ⟨some, beyond⟩

theorem dropBelow_nil {first base : Int} {closed : List (List Record)} (some : closed ≠ [])
    (dropped : (dropBelow first base closed).2 = []) :
    base + closed.flatten.length ≤ first := by
  induction closed generalizing base with
  | nil => exact absurd rfl some
  | cons records rest ih =>
      simp only [dropBelow] at dropped
      split at dropped
      · rename_i below
        simp only [List.flatten_cons, List.length_append, Nat.cast_add]
        cases rest with
        | nil =>
            simp
            exact below
        | cons head tail =>
            have above := ih (by simp) dropped
            omega
      · simp at dropped

theorem Layout.recovered_first (layout : Layout) :
    layout.recovered.firstLogIndex = layout.firstLogIndex := by
  unfold Layout.recovered
  split
  · rfl
  · split <;> rfl

theorem Layout.recovered_last (layout : Layout) :
    layout.recovered.lastLogIndex =
      if layout.lastLogIndex < layout.firstLogIndex then layout.firstLogIndex - 1
      else layout.lastLogIndex := by
  have ends := dropBelow_end layout.firstLogIndex layout.base layout.closed
  have keepBase : layout.keep.base =
      (dropBelow layout.firstLogIndex layout.base layout.closed).1 := rfl
  have keepClosed : layout.keep.closed =
      (dropBelow layout.firstLogIndex layout.base layout.closed).2 := rfl
  have keepFirst : layout.keep.firstLogIndex = layout.firstLogIndex := rfl
  have keepOpened : layout.keep.opened = layout.opened := rfl
  rw [← keepBase, ← keepClosed] at ends
  unfold Layout.recovered
  rw [keepOpened]
  cases isOpen : layout.opened with
  | none =>
      simp only
      by_cases noClosed : layout.closed = []
      · have kept : layout.keep.closed = [] := by rw [keepClosed, noClosed]; rfl
        simp [Layout.lastLogIndex, noClosed, isOpen, kept, keepOpened, keepFirst]
      · have lastEq := layout.lastLogIndex_of_file (Or.inl noClosed)
        simp only [Layout.records, isOpen, Option.getD_none, List.append_nil] at lastEq
        by_cases kept : layout.keep.closed = []
        · have below := dropBelow_nil noClosed (keepClosed ▸ kept)
          have keepLast : layout.keep.lastLogIndex = layout.firstLogIndex - 1 := by
            simp [Layout.lastLogIndex, kept, keepOpened, isOpen, keepFirst]
          rw [keepLast, if_pos (by omega)]
        · have above := Layout.openFirst_keep kept
          have keepLast := layout.keep.lastLogIndex_of_file (Or.inl kept)
          simp only [Layout.records, keepOpened, isOpen, Option.getD_none,
            List.append_nil] at keepLast
          unfold Layout.openFirst at above
          rw [keepLast, if_neg (by omega)]
          omega
  | some records =>
      have lastEq := layout.lastLogIndex_of_file (Or.inr (by simp [isOpen]))
      simp only [Layout.records, isOpen, Option.getD_some, List.length_append] at lastEq
      have keepOpen : layout.keep.openFirst = layout.base + layout.closed.flatten.length := ends
      simp only
      by_cases below : layout.keep.openFirst + records.length ≤ layout.firstLogIndex
      · have kept : layout.keep.closed = [] := by
          by_contra some
          have above := Layout.openFirst_keep some
          omega
        rw [if_pos below, if_pos (by omega)]
        simp [Layout.lastLogIndex, kept, keepFirst]
      · have keepLast := layout.keep.lastLogIndex_of_file
          (Or.inr (by simp [keepOpened, isOpen]))
        simp only [Layout.records, keepOpened, isOpen, Option.getD_some,
          List.length_append] at keepLast
        rw [if_neg below, if_neg (by omega), keepLast]
        omega

/-- The directory of a reset of which the save and `count` unlinks are done. -/
def Layout.resetTo (layout : Layout) (nextLogIndex : Int) (count : Nat) : Layout :=
  { layout.dropFiles count with firstLogIndex := nextLogIndex }

theorem Layout.resetTo_last {layout : Layout} (nextLogIndex : Int) {count : Nat}
    (file : (layout.dropFiles count).closed ≠ [] ∨ (layout.dropFiles count).opened ≠ none) :
    (layout.resetTo nextLogIndex count).lastLogIndex = layout.lastLogIndex := by
  have few : count ≤ layout.closed.length := by
    by_contra past
    obtain ⟨noClosed, noOpen⟩ :=
      Layout.dropFiles_end (show layout.closed.length < count by omega)
    exact file.elim (fun other => other noClosed) (fun other => other noOpen)
  have oldFile : layout.closed ≠ [] ∨ layout.opened ≠ none := by
    refine file.imp ?_ ?_
    · intro some none
      exact some (by simp [Layout.dropFiles, none])
    · intro some none
      exact some (by simp [Layout.dropFiles, none])
  have ends := Layout.end_dropFiles few
  have lastEq := layout.lastLogIndex_of_file oldFile
  have resetLast := (layout.resetTo nextLogIndex count).lastLogIndex_of_file file
  have sameBase : (layout.resetTo nextLogIndex count).base = (layout.dropFiles count).base := rfl
  have sameRecords : (layout.resetTo nextLogIndex count).records =
      (layout.dropFiles count).records := rfl
  rw [sameRecords] at resetLast
  omega

theorem Layout.resetTo_last_empty {layout : Layout} (nextLogIndex : Int) {count : Nat}
    (noFile : (layout.dropFiles count).closed = [] ∧ (layout.dropFiles count).opened = none) :
    (layout.resetTo nextLogIndex count).lastLogIndex = nextLogIndex - 1 := by
  rw [Layout.lastLogIndex, if_pos ⟨noFile.1, noFile.2⟩]
  rfl

theorem Layout.Sound.restart {layout : Layout} (sound : layout.Sound codec)
    {nextLogIndex : Int} (positive : 1 ≤ nextLogIndex) :
    Layout.Sound codec { layout with firstLogIndex := nextLogIndex } :=
  ⟨sound.nonempty, sound.valid, sound.base, positive, sound.bound⟩

theorem OnDisk.save {disk : LogDisk} {layout : Layout} (onDisk : OnDisk codec disk layout)
    (nextLogIndex : Int) :
    OnDisk codec (disk.apply (.save nextLogIndex))
      { layout with firstLogIndex := nextLogIndex } :=
  ⟨⟨onDisk.wellFormed.names, onDisk.wellFormed.inodes, onDisk.wellFormed.fresh⟩, rfl,
    onDisk.files⟩

def resetOps (names : List FileName) (nextLogIndex : Int) : List (FsOp FileName Int) :=
  .save nextLogIndex :: names.map unlinkOp

theorem SegmentLog.reset_performed (log : SegmentLog codec) {nextLogIndex : Int}
    (positive : 1 ≤ nextLogIndex) :
    Performed log.storage.fs (log.storage.reset nextLogIndex).2.fs
      (resetOps (log.layout.files.map Prod.fst) nextLogIndex) := by
  have saved := Performed.record log.working (.save nextLogIndex)
  have listed := log.represents.listed log.sound
  have unlinked := unlinkAll_performed log.storage.allSegments saved.working
    (⟨listed.present, listed.nodup⟩ :
      Listed (log.storage.fs.record (.save nextLogIndex)).disk log.storage.allSegments)
  rw [log.represents.fileNames] at unlinked
  have result : (log.storage.reset nextLogIndex).2.fs =
      SegmentLogStorage.unlinkAll log.storage.allSegments
        (log.storage.fs.record (.save nextLogIndex)) := by
    unfold SegmentLogStorage.reset SegmentLogStorage.saveMeta FileSystem.perform
    rw [if_neg (by omega)]
    simp only [log.working, ne_eq, not_true_eq_false, if_false]
    rfl
  rw [result]
  exact saved.trans unlinked

theorem SegmentLog.reset_crashed (log : SegmentLog codec) {nextLogIndex : Int}
    (positive : 1 ≤ nextLogIndex) (count : Nat) (gone : List FileName) :
    OnDisk codec
      (crashedDisk log.storage.fs (log.storage.reset nextLogIndex).2.fs count gone)
      (if count = 0 then log.layout else log.layout.resetTo nextLogIndex (count - 1)) := by
  rw [crashedDisk, (log.reset_performed positive).newOps_eq]
  refine OnDisk.deleteLeftovers gone ?_
  cases count with
  | zero => exact log.represents.onDisk
  | succ count =>
      have saved := log.represents.onDisk.save nextLogIndex
      have dropped := saved.dropFiles (log.sound.restart positive) count
      rw [if_neg (by omega), resetOps, List.take_succ_cons, Disk.replay_cons, ← List.map_take]
      exact dropped

variable [DecidableEq P]

structure SameLog (codec : EntryCodec P) (old new : SegmentLogStorage) : Prop where
  first : new.firstLogIndex = old.firstLogIndex
  last : new.lastLogIndex = old.lastLogIndex
  entries : ∀ index, old.firstLogIndex ≤ index → index ≤ old.lastLogIndex →
    new.getEntry codec index = old.getEntry codec index

/-- Recovery from the directory either fails, or gives the old log or an empty
one that starts at the new index. -/
def ResetAtomic (codec : EntryCodec P) (flags : LogFlags) (old : SegmentLogStorage)
    (nextLogIndex : Int) (crashed : LogDisk) (checksumType : Nat) (enableSync : Bool)
    (manager : ConfigurationManager P) : Prop :=
  let outcome := (SegmentLogStorage.fresh crashed checksumType enableSync).init codec flags
    manager
  outcome.1 = 0 →
    SameLog codec old outcome.2.1 ∨
      (outcome.2.1.firstLogIndex = nextLogIndex ∧
        outcome.2.1.lastLogIndex = nextLogIndex - 1)

/-- Crash points at which no file left is taken for the new log: before the
save, when the log ends below the new index, right after a save that changes
nothing, when no file is left, and when the first file left is a closed segment
beyond the new index. -/
def ResetSafe (storage : SegmentLogStorage) (nextLogIndex : Int) (count : Nat) : Prop :=
  count = 0 ∨ storage.lastLogIndex < nextLogIndex ∨
    (nextLogIndex = storage.firstLogIndex ∧ count = 1) ∨
    match storage.allSegments.drop (count - 1) with
    | [] => True
    | segment :: _ => segment.isOpen = false ∧ nextLogIndex < segment.firstIndex

omit [DecidableEq P] in
theorem SegmentLog.dropSegments (log : SegmentLog codec) (count : Nat) :
    match log.storage.allSegments.drop count with
    | [] => (log.layout.dropFiles count).closed = [] ∧
        (log.layout.dropFiles count).opened = none
    | segment :: _ =>
        count ≤ log.layout.closed.length ∧
          (segment.isOpen = false ↔ (log.layout.dropFiles count).closed ≠ []) ∧
          (segment.isOpen = true → (log.layout.dropFiles count).opened ≠ none) ∧
          segment.firstIndex = (log.layout.dropFiles count).base := by
  have lengths := log.represents.closed.length_eq
  rw [closedSpans_length] at lengths
  have opened := log.represents.opened
  unfold SegmentLogStorage.allSegments
  by_cases inClosed : count < log.layout.closed.length
  · have found := closedSpans_getElem? log.layout.base log.layout.closed count
    rw [List.getElem?_eq_getElem inClosed, Option.map_some] at found
    obtain ⟨segment, segmentFound, isClosed, holds⟩ :=
      forall₂_getElem? log.represents.closed found
    obtain ⟨inSegments, rfl⟩ := List.getElem?_eq_some_iff.mp segmentFound
    rw [List.drop_append_of_le_length (by omega), List.drop_eq_getElem_cons inSegments,
      List.cons_append]
    simp only [Layout.dropFiles]
    refine ⟨by omega, by simpa [isClosed] using inClosed, by simp [isClosed], holds.first⟩
  · rw [List.drop_append, List.drop_eq_nil_of_le (by omega), List.nil_append]
    by_cases atOpen : count = log.layout.closed.length
    · subst atOpen
      rw [lengths, Nat.sub_self, List.drop_zero]
      cases isOpen : log.storage.openSeg with
      | none =>
          have noOpen : log.layout.opened = none := by
            rw [isOpen] at opened
            cases shape : log.layout.opened with
            | none => rfl
            | some records =>
                rw [shape] at opened
                cases opened
          simp [Layout.dropFiles, noOpen]
      | some segment =>
          rw [isOpen] at opened
          cases shape : log.layout.opened with
          | none =>
              rw [shape] at opened
              cases opened
          | some records =>
              rw [shape] at opened
              cases opened with
              | cons head _ =>
                  have starts := head.2.first
                  have stillOpen := head.1
                  simp only [Layout.openFirst] at starts
                  simp [Layout.dropFiles, shape, starts, stillOpen]
    · rw [List.drop_eq_nil_of_le]
      · exact Layout.dropFiles_end (by omega)
      · cases log.storage.openSeg with
        | none => simp
        | some segment =>
            simp only [Option.toList_some, List.length_singleton]
            omega

omit [DecidableEq P] in
theorem Represents.sameLog {old new : SegmentLogStorage} {oldLayout newLayout : Layout}
    (oldRepresents : Represents codec old oldLayout) (oldSound : oldLayout.Sound codec)
    (newRepresents : Represents codec new newLayout) (newSound : newLayout.Sound codec)
    (consistent : oldLayout.Consistent)
    (first : newLayout.firstLogIndex = oldLayout.firstLogIndex)
    (last : newLayout.lastLogIndex = oldLayout.lastLogIndex)
    (records : ∀ index, newLayout.recordAt index = oldLayout.recordAt index) :
    SameLog codec old new := by
  refine ⟨by rw [newRepresents.first, first, oldRepresents.first],
    by rw [newRepresents.last, last, oldRepresents.last], ?_⟩
  intro index lower upper
  rw [oldRepresents.first] at lower
  rw [oldRepresents.last] at upper
  obtain ⟨record, found⟩ := consistent.recordAt_isSome lower upper
  rw [oldRepresents.getEntry oldSound found,
    newRepresents.getEntry newSound ((records index).trans found)]

/-- At the crash points of `ResetSafe` recovery gives the old or the new log. -/
theorem SegmentLog.resetAtomic_of_safe (log : SegmentLog codec) (flags : LogFlags)
    {nextLogIndex : Int} (positive : 1 ≤ nextLogIndex) {count : Nat} (gone : List FileName)
    (checksumType : Nat) (enableSync : Bool) (manager : ConfigurationManager P)
    (safe : ResetSafe log.storage nextLogIndex count) :
    ResetAtomic codec flags log.storage nextLogIndex
      (crashedDisk log.storage.fs (log.storage.reset nextLogIndex).2.fs count gone)
      checksumType enableSync manager := by
  have onDisk := log.reset_crashed positive count gone
  have complete : ∀ {disk : LogDisk}, OnDisk codec disk log.layout →
      ∃ result manager',
        (SegmentLogStorage.fresh disk checksumType enableSync).init codec flags manager =
            (0, result, manager') ∧ SameLog codec log.storage result := by
    intro disk whole
    obtain ⟨notRefused, sameFirst, sameLast, sameRecord⟩ := log.consistent.recovered
    have started := init_onDisk flags whole log.sound checksumType enableSync manager
    rw [if_neg notRefused] at started
    obtain ⟨result, manager', ran, represents, sound⟩ := started
    exact ⟨result, manager', ran, log.represents.sameLog log.sound represents sound
      log.consistent sameFirst sameLast sameRecord⟩
  cases count with
  | zero =>
      rw [if_pos rfl] at onDisk
      obtain ⟨result, manager', ran, same⟩ := complete onDisk
      intro _
      rw [ran]
      exact Or.inl same
  | succ count =>
      rw [if_neg (by omega), Nat.add_sub_cancel] at onDisk
      set layout := log.layout.resetTo nextLogIndex count with layoutEq
      have layoutSound : layout.Sound codec := (log.sound.dropFiles count).restart positive
      have started := init_onDisk flags onDisk layoutSound checksumType enableSync manager
      have empty (below : layout.lastLogIndex < nextLogIndex) :
          ResetAtomic codec flags log.storage nextLogIndex
            (crashedDisk log.storage.fs (log.storage.reset nextLogIndex).2.fs (count + 1) gone)
            checksumType enableSync manager := by
        intro succeeded
        split at started
        · rw [started] at succeeded
          exact absurd succeeded (by decide)
        · obtain ⟨result, manager', ran, represents, _⟩ := started
          have sameFirst : layout.firstLogIndex = nextLogIndex := rfl
          right
          simp only [ran]
          refine ⟨by rw [represents.first, layout.recovered_first, sameFirst], ?_⟩
          rw [represents.last, layout.recovered_last, sameFirst, if_pos below]
      have segments := log.dropSegments count
      rcases safe with zero | below | ⟨same, isFirst⟩ | rest
      · omega
      · refine empty ?_
        by_cases noFile : (log.layout.dropFiles count).closed = [] ∧
            (log.layout.dropFiles count).opened = none
        · have last := Layout.resetTo_last_empty nextLogIndex noFile
          rw [← layoutEq] at last
          omega
        · have last := Layout.resetTo_last nextLogIndex
            (not_and_or.mp noFile)
          rw [← layoutEq, ← log.represents.last] at last
          omega
      · have unchanged : layout = log.layout := by
          have noneDropped : count = 0 := by omega
          subst noneDropped
          rw [layoutEq, Layout.resetTo, Layout.dropFiles_zero, same, log.represents.first]
        rw [unchanged] at onDisk
        obtain ⟨result, manager', ran, sameLog⟩ := complete onDisk
        intro _
        rw [ran]
        exact Or.inl sameLog
      · rw [Nat.add_sub_cancel] at rest
        cases shape : log.storage.allSegments.drop count with
        | nil =>
            rw [shape] at segments
            refine empty ?_
            have last := Layout.resetTo_last_empty nextLogIndex segments
            rw [← layoutEq] at last
            omega
        | cons segment others =>
            rw [shape] at segments rest
            have refused : layout.Refused := by
              rw [Layout.refused_iff]
              refine ⟨segments.2.1.mp rest.1, ?_⟩
              have starts := segments.2.2.2
              have sameBase : layout.base = (log.layout.dropFiles count).base := rfl
              have sameFirst : layout.firstLogIndex = nextLogIndex := rfl
              omega
            rw [if_pos refused] at started
            intro succeeded
            rw [started] at succeeded
            exact absurd succeeded (by decide)

omit [DecidableEq P] in
theorem Represents.getEntry_none {storage : SegmentLogStorage} {layout : Layout}
    (represents : Represents codec storage layout) (noClosed : layout.closed = [])
    {index : Int} (before : index < layout.openFirst) :
    storage.getEntry codec index = none := by
  have noSegments : storage.segments = [] := by
    have closed := represents.closed
    rw [noClosed] at closed
    cases shape : storage.segments with
    | nil => rfl
    | cons head rest =>
        rw [shape] at closed
        cases closed
  have missing : storage.getSegment index = none := by
    unfold SegmentLogStorage.getSegment
    split_ifs
    · rfl
    · rfl
    · cases isOpen : storage.openSeg with
      | none => simp [noSegments]
      | some segment =>
          have opened := represents.opened
          rw [isOpen] at opened
          obtain ⟨span, listed, holds⟩ := forall₂_left opened List.mem_cons_self
          obtain ⟨records, _, rfl⟩ := List.mem_map.mp listed
          have starts : segment.firstIndex = layout.openFirst := holds.2.first
          have later : ¬ segment.firstIndex ≤ index := by omega
          simp [later, noSegments]
  rw [SegmentLogStorage.getEntry, missing]

omit [DecidableEq P] in
theorem Layout.recovered_of_open {layout : Layout} (noClosed : layout.closed = []) :
    layout.recovered.closed = [] ∧ layout.recovered.openFirst = layout.base := by
  have same : layout.keep = layout := by
    simp [Layout.keep, noClosed, dropBelow]
    rw [← noClosed]
  unfold Layout.recovered
  rw [same]
  cases layout.opened with
  | none => simp [noClosed, Layout.openFirst]
  | some records =>
      simp only
      split <;> simp [noClosed, Layout.openFirst]

theorem SegmentLog.safe_of_resetAtomic (log : SegmentLog codec) (flags : LogFlags)
    {nextLogIndex : Int} (positive : 1 ≤ nextLogIndex) {count : Nat} (gone : List FileName)
    (checksumType : Nat) (enableSync : Bool) (manager : ConfigurationManager P)
    (atomic : ResetAtomic codec flags log.storage nextLogIndex
      (crashedDisk log.storage.fs (log.storage.reset nextLogIndex).2.fs count gone)
      checksumType enableSync manager) :
    ResetSafe log.storage nextLogIndex count := by
  unfold ResetSafe
  by_contra exposed
  simp only [not_or, not_and] at exposed
  obtain ⟨started, reaches, moved, left⟩ := exposed
  obtain ⟨count, rfl⟩ := Nat.exists_eq_succ_of_ne_zero started
  rw [Nat.succ_eq_add_one, Nat.add_sub_cancel] at left
  have onDisk := log.reset_crashed positive (count + 1) gone
  rw [if_neg (by omega), Nat.add_sub_cancel] at onDisk
  have segments := log.dropSegments count
  cases shape : log.storage.allSegments.drop count with
  | nil => simp [shape] at left
  | cons segment others =>
      rw [shape] at segments
      simp only [shape, not_and] at left
      obtain ⟨few, closedIff, openIf, starts⟩ := segments
      have file : (log.layout.dropFiles count).closed ≠ [] ∨
          (log.layout.dropFiles count).opened ≠ none := by
        cases isOpen : segment.isOpen with
        | false => exact Or.inl (closedIff.mp isOpen)
        | true => exact Or.inr (openIf isOpen)
      have lastEq := Layout.resetTo_last nextLogIndex file
      have ran := init_onDisk flags onDisk ((log.sound.dropFiles count).restart positive)
        checksumType enableSync manager
      have notRefused : ¬ (log.layout.resetTo nextLogIndex count).Refused := by
        rw [Layout.refused_iff]
        rintro ⟨closed, beyond⟩
        have isClosed := closedIff.mpr closed
        have sameBase : (log.layout.resetTo nextLogIndex count).base =
            (log.layout.dropFiles count).base := rfl
        have sameFirst : (log.layout.resetTo nextLogIndex count).firstLogIndex =
            nextLogIndex := rfl
        exact left isClosed (by omega)
      rw [if_neg notRefused] at ran
      obtain ⟨result, manager', ran, represents, sound⟩ := ran
      have resultLast : result.lastLogIndex = log.storage.lastLogIndex := by
        rw [represents.last, Layout.recovered_last, lastEq, log.represents.last, if_neg]
        rw [log.represents.last] at reaches
        exact fun below => reaches below
      have outcome := atomic (by rw [ran])
      rw [ran] at outcome
      rcases outcome with same | ⟨_, emptyLast⟩
      · -- the old log had an entry at its first index, the files left do not
        have sameNext : nextLogIndex = log.storage.firstLogIndex := by
          have first := same.first
          rw [represents.first, Layout.recovered_first] at first
          exact first
        have dropped : count ≠ 0 := fun none => moved sameNext (by rw [none])
        have beyond : nextLogIndex < segment.firstIndex := by
          have inTail : segment ∈ log.storage.allSegments.tail := by
            obtain ⟨position, rfl⟩ := Nat.exists_eq_succ_of_ne_zero dropped
            have inDrop : segment ∈ log.storage.allSegments.tail.drop position := by
              rw [List.drop_tail, shape]
              exact List.mem_cons_self
            exact List.mem_of_mem_drop inDrop
          rw [sameNext, log.represents.first]
          exact log.tail_beyond segment inTail
        have noClosed : (log.layout.resetTo nextLogIndex count).closed = [] := by
          by_contra some
          exact left (closedIff.mpr some) beyond
        have missing : result.getEntry codec nextLogIndex = none := by
          refine represents.getEntry_none (Layout.recovered_of_open noClosed).1 ?_
          rw [(Layout.recovered_of_open noClosed).2]
          change nextLogIndex < (log.layout.dropFiles count).base
          rw [← starts]
          exact beyond
        have entry := same.entries nextLogIndex (by omega) (by omega)
        obtain ⟨record, found⟩ : ∃ record, log.layout.recordAt nextLogIndex = some record :=
          log.consistent.recordAt_isSome (by rw [← log.represents.first]; omega)
            (by rw [← log.represents.last]; omega)
        have present := Record.toEntry_isSome codec
          (Layout.valid_of_recordAt log.sound found) nextLogIndex
        rw [← log.represents.getEntry log.sound found, ← entry, missing] at present
        simp at present
      · simp only at emptyLast
        omega

/-- `reset` is atomic at exactly the crash points of `ResetSafe`. -/
theorem SegmentLog.resetAtomic_iff (log : SegmentLog codec) (flags : LogFlags)
    {nextLogIndex : Int} (positive : 1 ≤ nextLogIndex) (count : Nat) (gone : List FileName)
    (checksumType : Nat) (enableSync : Bool) (manager : ConfigurationManager P) :
    ResetAtomic codec flags log.storage nextLogIndex
        (crashedDisk log.storage.fs (log.storage.reset nextLogIndex).2.fs count gone)
        checksumType enableSync manager ↔
      ResetSafe log.storage nextLogIndex count :=
  ⟨log.safe_of_resetAtomic flags positive gone checksumType enableSync manager,
    log.resetAtomic_of_safe flags positive gone checksumType enableSync manager⟩

end Reset

/-- A reset of the log of two entries is atomic before the save. -/
theorem noOpLog_resetAtomic :
    ResetAtomic plainCodec {} noOpLog.storage 2
        (crashedDisk noOpLog.storage.fs (noOpLog.storage.reset 2).2.fs 0 []) 0 true .init ↔
      ResetSafe noOpLog.storage 2 0 :=
  noOpLog.resetAtomic_iff {} (by decide) 0 [] 0 true .init

/-- After the save alone, the second entry is still read at index 2. -/
theorem noOpLog_reset_exposes :
    ¬ ResetAtomic plainCodec {} noOpLog.storage 2
      (crashedDisk noOpLog.storage.fs (noOpLog.storage.reset 2).2.fs 1 []) 0 true .init := by
  intro atomic
  set outcome := (SegmentLogStorage.fresh
    (crashedDisk noOpLog.storage.fs (noOpLog.storage.reset 2).2.fs 1 []) 0 true).init
      plainCodec {} .init with outcomeEq
  have ran : outcome.1 = 0 := by decide
  have first : outcome.2.1.firstLogIndex = 2 := by decide
  have last : outcome.2.1.lastLogIndex = 2 := by decide
  have oldFirst : noOpLog.storage.firstLogIndex = 1 := rfl
  rcases atomic ran with same | ⟨_, emptyLast⟩
  · have sameFirst : outcome.2.1.firstLogIndex = noOpLog.storage.firstLogIndex := same.first
    omega
  · have emptyLast : outcome.2.1.lastLogIndex = 2 - 1 := emptyLast
    omega

end QuorumKit
