/-
When a filtered copy reproduces the remote snapshot.

The loop of the filter is followed name by name: a remote file is looked at
once, and until then and after it nothing of it changes.  A file of `temp` that
is neither recorded nor remote is removed only at the root of the directory;
below a subdirectory it is installed.
-/

import QuorumKit.Snapshot.FilteredCopy

namespace QuorumKit
namespace FilteredCopy

open Library (Path FileTree)

/-! ### Tables -/

theorem FileName.path_inj {left right : FileName} (same : left.path = right.path) :
    left = right := by
  cases left with
  | mk path named =>
      cases right with
      | mk other otherNamed =>
          cases same
          rfl

namespace FileTable

variable (table : FileTable)

theorem getFileMeta_removeFile (gone filename : FileName) :
    (table.removeFile gone).getFileMeta filename =
      if filename = gone then none else table.getFileMeta filename := by
  have filtered := Library.lookup_filter_key table.files
    (fun key => decide (key ≠ gone)) filename
  change (table.files.filter (fun entry => decide (entry.1 ≠ gone))).lookup filename = _
  rw [filtered]
  by_cases same : filename = gone
  · simp [same]
  · simp [same, getFileMeta]

theorem getFileMeta_removeFiles (gone : List FileName) (filename : FileName) :
    (gone.foldl removeFile table).getFileMeta filename =
      if filename ∈ gone then none else table.getFileMeta filename := by
  induction gone generalizing table with
  | nil => simp
  | cons head rest ih =>
      rw [List.foldl_cons, ih, getFileMeta_removeFile]
      by_cases later : filename ∈ rest
      · simp [later]
      · by_cases same : filename = head
        · simp [same]
        · simp [later, same]

theorem getFileMeta_addFile (added filename : FileName) (fileMeta : LocalFileMeta)
    (missing : table.getFileMeta added = none) :
    (table.addFile added fileMeta).2.getFileMeta filename =
      if filename = added then some fileMeta else table.getFileMeta filename := by
  unfold addFile
  rw [dif_pos missing]
  change List.lookup filename ((added, fileMeta) :: table.files) = _
  by_cases same : filename = added
  · simp [same]
  · have skip : (filename == added) = false := by simpa using same
    rw [List.lookup_cons, skip, if_neg same]
    rfl

theorem getFileMeta_addFile_other {added filename : FileName} (fileMeta : LocalFileMeta)
    (other : filename ≠ added) :
    (table.addFile added fileMeta).2.getFileMeta filename = table.getFileMeta filename := by
  by_cases missing : table.getFileMeta added = none
  · rw [getFileMeta_addFile table added filename fileMeta missing, if_neg other]
  · unfold addFile
    rw [dif_neg missing]

theorem mem_listFiles (filename : FileName) :
    filename ∈ table.listFiles ↔ (table.getFileMeta filename).isSome :=
  (Library.lookup_isSome_iff table.files filename).symm

theorem lists_path (filename : FileName) :
    table.lists filename.path ↔ (table.getFileMeta filename).isSome := by
  rw [← mem_listFiles]
  constructor
  · intro listed
    rcases listed with ⟨other, member, same⟩
    rwa [FileName.path_inj same] at member
  · intro member
    exact ⟨filename, member, rfl⟩

def records (table : FileTable) (filename : FileName) (checksum : Option String) : Prop :=
  checksum.isSome ∧ (table.getFileMeta filename).map LocalFileMeta.checksum = some checksum

instance (table : FileTable) (filename : FileName) (checksum : Option String) :
    Decidable (table.records filename checksum) := by
  unfold records; infer_instance

end FileTable

theorem left_file (left : LeftDirectory) (path : Path) :
    left.tree.file path = if path ∈ left.files then some .left else none := by
  change (left.files.map (fun path => (path, Origin.left))).lookup path = _
  induction left.files with
  | nil => simp
  | cons head rest ih =>
      rw [List.map_cons, List.lookup_cons]
      by_cases same : path = head
      · simp [same]
      · have skip : (path == head) = false := by simpa using same
        rw [skip, ih]
        simp [same]

theorem init_table {left : LeftDirectory} {writer : Writer}
    (made : Writer.init left = some writer) : writer.table = left.recorded := by
  unfold Writer.init at made
  split at made
  · cases made
  · cases made
    rfl

/-- A file survives `init` unless it lies at the root and is not recorded. -/
theorem init_file {left : LeftDirectory} {writer : Writer}
    (made : Writer.init left = some writer) (path : Path) :
    writer.tree.file path =
      if path ∈ left.files ∧ (path.length = 1 → left.recorded.lists path) then some .left
      else none := by
  unfold Writer.init at made
  split at made
  · cases made
  · cases made
    change (List.foldl FileTree.delete left.tree _).file path = _
    rw [FileTree.file_foldl_delete, left_file]
    by_cases member : path ∈ left.files
    · have present : path ∈ left.tree.files.map Prod.fst := by
        simpa [LeftDirectory.tree] using member
      by_cases top : path.length = 1
      · by_cases listed : left.recorded.lists path
        · simp [member, top, listed]
        · simp [member, top, listed, FileTree.topLevel, present]
      · simp [member, top, FileTree.topLevel]
    · simp [member]

/-! ### One remote file -/

structure OnlyChanges (filename : FileName) (before after : FilterState) : Prop where
  table : ∀ other, other ≠ filename →
    after.table.getFileMeta other = before.table.getFileMeta other
  toRemove : ∀ other, other ≠ filename → (other ∈ after.toRemove ↔ other ∈ before.toRemove)
  tree : ∀ path, path ≠ filename.path → after.tree.file path = before.tree.file path

theorem OnlyChanges.refl (filename : FileName) (state : FilterState) :
    OnlyChanges filename state state where
  table _ _ := rfl
  toRemove _ _ := Iff.rfl
  tree _ _ := rfl

theorem OnlyChanges.trans {filename : FileName} {first second third : FilterState}
    (front : OnlyChanges filename first second) (back : OnlyChanges filename second third) :
    OnlyChanges filename first third where
  table other different := (back.table other different).trans (front.table other different)
  toRemove other different :=
    (back.toRemove other different).trans (front.toRemove other different)
  tree path different := (back.tree path different).trans (front.tree path different)

theorem mem_keepLinked {filename other : FileName} (toRemove : List FileName)
    (different : other ≠ filename) :
    other ∈ keepLinked filename toRemove ↔ other ∈ toRemove := by
  unfold keepLinked
  by_cases last : toRemove.getLast? = some filename
  · rw [if_pos last]
    have split := List.dropLast_append_getLast? filename last
    constructor
    · intro member
      exact List.dropLast_subset toRemove member
    · intro member
      rw [← split] at member
      rcases List.mem_append.mp member with front | back
      · exact front
      · exact absurd (List.mem_singleton.mp back) different
  · rw [if_neg last]

theorem not_mem_keepLinked {filename : FileName} {toRemove base : List FileName}
    (unmarked : filename ∉ base) (marked : toRemove = base ∨ toRemove = base ++ [filename]) :
    filename ∉ keepLinked filename toRemove := by
  unfold keepLinked
  cases marked with
  | inl same =>
      subst same
      by_cases last : toRemove.getLast? = some filename
      · exact absurd (List.mem_of_getLast? last) unmarked
      · rwa [if_neg last]
  | inr same =>
      subst same
      simpa using unmarked

theorem reuseFile_onlyChanges (lastTable : FileTable) (lastTree : FileTree Unit)
    (filename : FileName) (checksum : Option String) (state : FilterState) :
    OnlyChanges filename state (reuseFile lastTable lastTree filename checksum state) := by
  unfold reuseFile
  split
  · exact OnlyChanges.refl filename state
  · rename_i localMeta found
    have tableKept : ∀ other, other ≠ filename →
        (state.table.addFile filename localMeta).2.getFileMeta other =
          state.table.getFileMeta other :=
      fun other different => state.table.getFileMeta_addFile_other localMeta different
    have cleared : ∀ path, path ≠ filename.path →
        (state.tree.delete filename.path).file path = state.tree.file path := by
      intro path different
      rw [FileTree.file_delete, if_neg different]
    split
    · exact OnlyChanges.refl filename state
    · split
      · dsimp only
        split
        · exact
            { table := fun _ _ => rfl
              toRemove := fun _ _ => Iff.rfl
              tree := cleared }
        · rename_i tree linked
          exact
            { table := tableKept
              toRemove := fun other different => mem_keepLinked state.toRemove different
              tree := by
                intro path different
                change tree.file path = _
                rw [FileTree.file_link linked, if_neg different]
                exact cleared path different }
      · exact
          { table := tableKept
            toRemove := fun _ _ => Iff.rfl
            tree := fun _ _ => rfl }

theorem drop_onlyChanges (state : FilterState) (filename : FileName) :
    OnlyChanges filename state (state.drop filename) where
  table other different := by
    change (state.table.removeFile filename).getFileMeta other = _
    rw [FileTable.getFileMeta_removeFile, if_neg different]
  toRemove other different := by
    change other ∈ state.toRemove ++ [filename] ↔ _
    simp [different]
  tree _ _ := rfl

theorem reuseLast_onlyChanges (last : Option (FileTable × FileTree Unit))
    (filename : FileName) (checksum : Option String) (state : FilterState) :
    OnlyChanges filename state (reuseLast last filename checksum state) := by
  cases last with
  | none => exact OnlyChanges.refl filename state
  | some pair => exact reuseFile_onlyChanges pair.1 pair.2 filename checksum state

theorem filterFile_onlyChanges (last : Option (FileTable × FileTree Unit))
    (state : FilterState) (filename : FileName) (remoteMeta : LocalFileMeta) :
    OnlyChanges filename state (filterFile last state (filename, remoteMeta)) := by
  unfold filterFile
  dsimp only
  split
  · exact drop_onlyChanges state filename
  · split
    · split
      · exact OnlyChanges.refl filename state
      · exact (drop_onlyChanges state filename).trans (reuseLast_onlyChanges last _ _ _)
    · exact reuseLast_onlyChanges last filename _ state

/-! ### What becomes of the file itself -/

/-- The last snapshot has the file with this checksum, by reference only. -/
def Referenced (last : Option (FileTable × FileTree Unit)) (filename : FileName)
    (checksum : Option String) : Prop :=
  ∃ table tree fileMeta, last = some (table, tree) ∧ checksum.isSome ∧
    table.getFileMeta filename = some fileMeta ∧ fileMeta.checksum = checksum ∧
    fileMeta.source = .fileSourceReference

/-- The last snapshot has the file with this checksum, and its bytes. -/
def Linkable (last : Option (FileTable × FileTree Unit)) (filename : FileName)
    (checksum : Option String) : Prop :=
  ∃ table tree, last = some (table, tree) ∧ table.records filename checksum ∧
    (tree.file filename.path).isSome

theorem filterFile_recorded (last : Option (FileTable × FileTree Unit))
    {state : FilterState} {filename : FileName} {remoteMeta : LocalFileMeta}
    (recorded : state.table.records filename remoteMeta.checksum) :
    filterFile last state (filename, remoteMeta) = state := by
  rcases recorded with ⟨hasChecksum, same⟩
  rcases Option.map_eq_some_iff.mp same with ⟨localMeta, found, equal⟩
  unfold filterFile
  have checked : ¬ remoteMeta.checksum.isNone := by
    cases known : remoteMeta.checksum with
    | none => rw [known] at hasChecksum; cases hasChecksum
    | some text => simp
  simp only [if_neg checked, found, if_pos equal]

theorem filterFile_unrecorded (last : Option (FileTable × FileTree Unit))
    {state : FilterState} {filename : FileName} {remoteMeta : LocalFileMeta}
    (hasChecksum : remoteMeta.checksum.isSome)
    (unrecorded : ¬ state.table.records filename remoteMeta.checksum) :
    filterFile last state (filename, remoteMeta) =
      reuseLast last filename remoteMeta.checksum
        (if (state.table.getFileMeta filename).isSome then state.drop filename else state) := by
  unfold filterFile
  have checked : ¬ remoteMeta.checksum.isNone := by
    rw [Option.isNone_iff_eq_none]
    intro missing
    rw [missing] at hasChecksum
    cases hasChecksum
  simp only [if_neg checked]
  cases found : state.table.getFileMeta filename with
  | none => rfl
  | some localMeta =>
      have different : localMeta.checksum ≠ remoteMeta.checksum := by
        intro equal
        apply unrecorded
        refine ⟨hasChecksum, ?_⟩
        rw [found, ← equal]
        rfl
      simp only [if_neg different, Option.isSome_some, if_true]

theorem reuseLast_referenced {last : Option (FileTable × FileTree Unit)}
    {filename : FileName} {checksum : Option String} {state : FilterState}
    (missing : state.table.getFileMeta filename = none)
    (referenced : Referenced last filename checksum) :
    let after := reuseLast last filename checksum state
    (after.table.getFileMeta filename).isSome ∧ after.toRemove = state.toRemove ∧
      after.tree = state.tree := by
  rcases referenced with ⟨table, tree, fileMeta, rfl, hasChecksum, found, equal, source⟩
  have remote : fileMeta.source ≠ .fileSourceLocal := by
    rw [source]
    decide
  simp only [reuseLast, reuseFile, found, equal, ne_eq, not_true, if_false, if_neg remote]
  refine ⟨?_, trivial, trivial⟩
  rw [state.table.getFileMeta_addFile filename filename fileMeta missing, if_pos rfl]
  rfl

theorem reuseLast_fresh {last : Option (FileTable × FileTree Unit)}
    {filename : FileName} {checksum : Option String} {state : FilterState}
    {base : List FileName} (hasChecksum : checksum.isSome)
    (missing : state.table.getFileMeta filename = none)
    (unmarked : filename ∉ base)
    (marked : state.toRemove = base ∨ state.toRemove = base ++ [filename])
    (present : ¬ Referenced last filename checksum) :
    let after := reuseLast last filename checksum state
    after.table.getFileMeta filename = none ∨
      ((after.table.getFileMeta filename).isSome ∧ filename ∉ after.toRemove ∧
        after.tree.file filename.path = some .linked ∧ Linkable last filename checksum) := by
  cases last with
  | none => exact Or.inl missing
  | some pair =>
      rcases pair with ⟨table, tree⟩
      dsimp only [reuseLast]
      unfold reuseFile
      split
      · exact Or.inl missing
      · rename_i localMeta found
        split
        · exact Or.inl missing
        · rename_i equal
          have same : localMeta.checksum = checksum := not_not.mp equal
          split
          · dsimp only
            split
            · exact Or.inl missing
            · rename_i linkedTree linked
              refine Or.inr ⟨?_, not_mem_keepLinked unmarked marked, ?_, ?_⟩
              · rw [state.table.getFileMeta_addFile filename filename localMeta missing,
                  if_pos rfl]
                rfl
              · rw [FileTree.file_link linked, if_pos rfl]
              · refine ⟨table, tree, rfl, ⟨hasChecksum, ?_⟩, FileTree.link_present linked⟩
                rw [found, ← same]
                rfl
          · rename_i notLocal
            exfalso
            apply present
            refine ⟨table, tree, localMeta, rfl, hasChecksum, found, same, ?_⟩
            cases source : localMeta.source with
            | fileSourceLocal => exact absurd source notLocal
            | fileSourceReference => rfl

section Loop

variable (last : Option (FileTable × FileTree Unit))

theorem foldl_filterFile_other (entries : List (FileName × LocalFileMeta))
    (state : FilterState) (filename : FileName)
    (absent : filename ∉ entries.map Prod.fst) :
    let after := entries.foldl (filterFile last) state
    after.table.getFileMeta filename = state.table.getFileMeta filename ∧
      (filename ∈ after.toRemove ↔ filename ∈ state.toRemove) := by
  induction entries generalizing state with
  | nil => exact ⟨rfl, Iff.rfl⟩
  | cons head rest ih =>
      rw [List.map_cons, List.mem_cons, not_or] at absent
      have changed := filterFile_onlyChanges last state head.1 head.2
      have later := ih (filterFile last state head) absent.2
      exact ⟨later.1.trans (changed.table filename absent.1),
        later.2.trans (changed.toRemove filename absent.1)⟩

theorem foldl_filterFile_path (entries : List (FileName × LocalFileMeta))
    (state : FilterState) (path : Path)
    (absent : ∀ filename ∈ entries.map Prod.fst, filename.path ≠ path) :
    (entries.foldl (filterFile last) state).tree.file path = state.tree.file path := by
  induction entries generalizing state with
  | nil => rfl
  | cons head rest ih =>
      have changed := filterFile_onlyChanges last state head.1 head.2
      have apart : head.1.path ≠ path := absent head.1 (by simp)
      rw [List.foldl_cons, ih]
      · exact changed.tree path (Ne.symm apart)
      · intro filename member
        exact absent filename (List.mem_cons_of_mem _ member)

theorem foldl_filterFile_at {entries : List (FileName × LocalFileMeta)}
    (nodup : (entries.map Prod.fst).Nodup) (state : FilterState) {filename : FileName}
    {remoteMeta : LocalFileMeta} (member : (filename, remoteMeta) ∈ entries) :
    ∃ before : FilterState,
      before.table.getFileMeta filename = state.table.getFileMeta filename ∧
      (filename ∈ before.toRemove ↔ filename ∈ state.toRemove) ∧
      before.tree.file filename.path = state.tree.file filename.path ∧
      let treated := filterFile last before (filename, remoteMeta)
      let after := entries.foldl (filterFile last) state
      after.table.getFileMeta filename = treated.table.getFileMeta filename ∧
      (filename ∈ after.toRemove ↔ filename ∈ treated.toRemove) ∧
      after.tree.file filename.path = treated.tree.file filename.path := by
  rcases List.append_of_mem member with ⟨front, back, rfl⟩
  rw [List.map_append, List.map_cons] at nodup
  have parts := List.nodup_append.mp nodup
  have notFront : filename ∉ front.map Prod.fst := fun inside =>
    parts.2.2 filename inside filename (by simp) rfl
  have notBack : filename ∉ back.map Prod.fst := (List.nodup_cons.mp parts.2.1).1
  have pathApart : ∀ entries : List (FileName × LocalFileMeta),
      filename ∉ entries.map Prod.fst →
        ∀ other ∈ entries.map Prod.fst, other.path ≠ filename.path := by
    intro entries absent other inside same
    rw [FileName.path_inj same] at inside
    exact absent inside
  have earlier := foldl_filterFile_other last front state filename notFront
  refine ⟨front.foldl (filterFile last) state, earlier.1, earlier.2,
    foldl_filterFile_path last front state filename.path (pathApart front notFront), ?_⟩
  rw [List.foldl_append, List.foldl_cons]
  have later := foldl_filterFile_other last back
    (filterFile last (front.foldl (filterFile last) state) (filename, remoteMeta))
    filename notBack
  exact ⟨later.1, later.2,
    foldl_filterFile_path last back _ filename.path (pathApart back notBack)⟩

end Loop

/-! ### The filtered writer -/

theorem mem_obsolete (remote table : FileTable) (filename : FileName) :
    filename ∈ obsolete remote table ↔
      (table.getFileMeta filename).isSome ∧ remote.getFileMeta filename = none := by
  unfold obsolete
  rw [List.mem_filter, FileTable.mem_listFiles, Option.isNone_iff_eq_none]

theorem mem_paths (filenames : List FileName) (filename : FileName) :
    filename.path ∈ filenames.map FileName.path ↔ filename ∈ filenames := by
  constructor
  · intro member
    rcases List.mem_map.mp member with ⟨other, inside, same⟩
    rwa [FileName.path_inj same] at inside
  · intro member
    exact List.mem_map_of_mem member

/-- What a writer may hold once the filter is through, compared with the table
and the tree it began with. -/
structure Filtered (remote recorded : FileTable) (last : Option (FileTable × FileTree Unit))
    (start : FileTree Origin) (writer : Writer) : Prop where
  kept : ∀ filename remoteMeta, remote.getFileMeta filename = some remoteMeta →
    recorded.records filename remoteMeta.checksum →
      (writer.table.getFileMeta filename).isSome ∧
        writer.tree.file filename.path = start.file filename.path
  referenced : ∀ filename remoteMeta, remote.getFileMeta filename = some remoteMeta →
    ¬ recorded.records filename remoteMeta.checksum →
      Referenced last filename remoteMeta.checksum →
        (writer.table.getFileMeta filename).isSome ∧
          (writer.tree.file filename.path = none ∨
            writer.tree.file filename.path = start.file filename.path)
  fresh : ∀ filename remoteMeta, remote.getFileMeta filename = some remoteMeta →
    ¬ recorded.records filename remoteMeta.checksum →
      ¬ Referenced last filename remoteMeta.checksum →
        writer.table.getFileMeta filename = none ∨
          ((writer.table.getFileMeta filename).isSome ∧
            writer.tree.file filename.path = some .linked ∧
            Linkable last filename remoteMeta.checksum)
  others : ∀ path, ¬ remote.lists path →
    writer.tree.file path = if recorded.lists path then none else start.file path

section Filter

variable (remote : FileTable) (last : Option (FileTable × FileTree Unit)) (writer : Writer)

def filterStart : FilterState where
  table := (obsolete remote writer.table).foldl FileTable.removeFile writer.table
  toRemove := obsolete remote writer.table
  tree := writer.tree

def filterEnd : FilterState :=
  remote.files.foldl (filterFile last) (filterStart remote writer)

theorem filterBeforeCopy_table :
    (filterBeforeCopy remote last writer).table = (filterEnd remote last writer).table := rfl

theorem filterBeforeCopy_file (filename : FileName) :
    (filterBeforeCopy remote last writer).tree.file filename.path =
      if filename ∈ (filterEnd remote last writer).toRemove then none
      else (filterEnd remote last writer).tree.file filename.path := by
  change (((filterEnd remote last writer).toRemove.map FileName.path).foldl
    FileTree.delete (filterEnd remote last writer).tree).file filename.path = _
  rw [FileTree.file_foldl_delete]
  by_cases removed : filename ∈ (filterEnd remote last writer).toRemove
  · rw [if_pos removed, if_pos ((mem_paths _ filename).mpr removed)]
  · have stays := fun member => removed ((mem_paths _ filename).mp member)
    rw [if_neg removed, if_neg stays]

theorem filterEnd_at {filename : FileName} {remoteMeta : LocalFileMeta}
    (found : remote.getFileMeta filename = some remoteMeta) :
    ∃ before : FilterState,
      before.table.getFileMeta filename = writer.table.getFileMeta filename ∧
      filename ∉ before.toRemove ∧
      before.tree.file filename.path = writer.tree.file filename.path ∧
      let treated := filterFile last before (filename, remoteMeta)
      let after := filterEnd remote last writer
      after.table.getFileMeta filename = treated.table.getFileMeta filename ∧
      (filename ∈ after.toRemove ↔ filename ∈ treated.toRemove) ∧
      after.tree.file filename.path = treated.tree.file filename.path := by
  have member : (filename, remoteMeta) ∈ remote.files :=
    Library.mem_of_lookup_eq_some found
  have current : filename ∉ obsolete remote writer.table := by
    intro gone
    rw [((mem_obsolete _ _ _).mp gone).2] at found
    cases found
  rcases foldl_filterFile_at last remote.nodup (filterStart remote writer) member with
    ⟨before, sameTable, sameRemove, sameFile, after⟩
  refine ⟨before, ?_, fun marked => current (sameRemove.mp marked), sameFile, after⟩
  rw [sameTable]
  change ((obsolete remote writer.table).foldl FileTable.removeFile
    writer.table).getFileMeta filename = _
  rw [FileTable.getFileMeta_removeFiles, if_neg current]

theorem filterBeforeCopy_kept {filename : FileName} {remoteMeta : LocalFileMeta}
    (found : remote.getFileMeta filename = some remoteMeta)
    (recorded : writer.table.records filename remoteMeta.checksum) :
    let after := filterBeforeCopy remote last writer
    (after.table.getFileMeta filename).isSome ∧
      after.tree.file filename.path = writer.tree.file filename.path := by
  rcases filterEnd_at remote last writer found with
    ⟨before, sameTable, unmarked, sameFile, table, removed, file⟩
  have stillRecorded : before.table.records filename remoteMeta.checksum := by
    unfold FileTable.records
    rw [sameTable]
    exact recorded
  rw [filterFile_recorded last stillRecorded] at table removed file
  have staying := fun marked => unmarked (removed.mp marked)
  constructor
  · rw [filterBeforeCopy_table, table, sameTable]
    rcases Option.map_eq_some_iff.mp recorded.2 with ⟨localMeta, known, _⟩
    rw [known]
    rfl
  · rw [filterBeforeCopy_file, if_neg staying, file, sameFile]

theorem drop_missing (state : FilterState) (filename : FileName) :
    (state.drop filename).table.getFileMeta filename = none := by
  change (state.table.removeFile filename).getFileMeta filename = none
  rw [FileTable.getFileMeta_removeFile, if_pos rfl]

theorem filterBeforeCopy_referenced {filename : FileName} {remoteMeta : LocalFileMeta}
    (found : remote.getFileMeta filename = some remoteMeta)
    (unrecorded : ¬ writer.table.records filename remoteMeta.checksum)
    (referenced : Referenced last filename remoteMeta.checksum) :
    let after := filterBeforeCopy remote last writer
    (after.table.getFileMeta filename).isSome ∧
      (after.tree.file filename.path = none ∨
        after.tree.file filename.path = writer.tree.file filename.path) := by
  rcases filterEnd_at remote last writer found with
    ⟨before, sameTable, unmarked, sameFile, table, removed, file⟩
  have hasChecksum : remoteMeta.checksum.isSome := by
    rcases referenced with ⟨_, _, _, _, known, _⟩
    exact known
  have stillUnrecorded : ¬ before.table.records filename remoteMeta.checksum := by
    unfold FileTable.records
    rw [sameTable]
    exact unrecorded
  rw [filterFile_unrecorded last hasChecksum stillUnrecorded] at table removed file
  dsimp only
  rw [filterBeforeCopy_table, filterBeforeCopy_file, table, file]
  by_cases known : (before.table.getFileMeta filename).isSome
  · rw [if_pos known] at removed ⊢
    have reused := reuseLast_referenced (drop_missing before filename) referenced
    refine ⟨reused.1, Or.inl ?_⟩
    rw [if_pos]
    rw [removed, reused.2.1]
    exact List.mem_append_right _ (List.mem_singleton.mpr rfl)
  · rw [if_neg known] at removed ⊢
    have reused := reuseLast_referenced (Option.not_isSome_iff_eq_none.mp known) referenced
    refine ⟨reused.1, Or.inr ?_⟩
    rw [if_neg, reused.2.2, sameFile]
    rw [removed, reused.2.1]
    exact unmarked

theorem filterBeforeCopy_fresh {filename : FileName} {remoteMeta : LocalFileMeta}
    (found : remote.getFileMeta filename = some remoteMeta)
    (unrecorded : ¬ writer.table.records filename remoteMeta.checksum)
    (present : ¬ Referenced last filename remoteMeta.checksum) :
    let after := filterBeforeCopy remote last writer
    after.table.getFileMeta filename = none ∨
      ((after.table.getFileMeta filename).isSome ∧
        after.tree.file filename.path = some .linked ∧
        Linkable last filename remoteMeta.checksum) := by
  rcases filterEnd_at remote last writer found with
    ⟨before, sameTable, unmarked, sameFile, table, removed, file⟩
  have stillUnrecorded : ¬ before.table.records filename remoteMeta.checksum := by
    unfold FileTable.records
    rw [sameTable]
    exact unrecorded
  dsimp only
  rw [filterBeforeCopy_table, filterBeforeCopy_file, table]
  by_cases hasChecksum : remoteMeta.checksum.isSome
  · rw [filterFile_unrecorded last hasChecksum stillUnrecorded] at removed file ⊢
    have outcome : ∀ state : FilterState, state.table.getFileMeta filename = none →
        (state.toRemove = before.toRemove ∨
          state.toRemove = before.toRemove ++ [filename]) → _ :=
      fun state missing marked =>
        reuseLast_fresh hasChecksum missing unmarked marked present
    by_cases known : (before.table.getFileMeta filename).isSome
    · rw [if_pos known] at removed file ⊢
      cases outcome (before.drop filename) (drop_missing before filename) (Or.inr rfl) with
      | inl missing => exact Or.inl missing
      | inr linked =>
          refine Or.inr ⟨linked.1, ?_, linked.2.2.2⟩
          rw [if_neg (fun marked => linked.2.1 (removed.mp marked)), file]
          exact linked.2.2.1
    · rw [if_neg known] at removed file ⊢
      cases outcome before (Option.not_isSome_iff_eq_none.mp known) (Or.inl rfl) with
      | inl missing => exact Or.inl missing
      | inr linked =>
          refine Or.inr ⟨linked.1, ?_, linked.2.2.2⟩
          rw [if_neg (fun marked => linked.2.1 (removed.mp marked)), file]
          exact linked.2.2.1
  · have without : remoteMeta.checksum.isNone := by
      rw [Option.isNone_iff_eq_none]
      exact Option.not_isSome_iff_eq_none.mp hasChecksum
    left
    unfold filterFile
    simp only [if_pos without]
    exact drop_missing before filename

theorem filterBeforeCopy_others (path : Path) (unnamed : ¬ remote.lists path) :
    (filterBeforeCopy remote last writer).tree.file path =
      if writer.table.lists path then none else writer.tree.file path := by
  have apart : ∀ filename ∈ remote.files.map Prod.fst, filename.path ≠ path :=
    fun filename member same => unnamed ⟨filename, member, same⟩
  have unchanged : (filterEnd remote last writer).tree.file path = writer.tree.file path :=
    foldl_filterFile_path last remote.files (filterStart remote writer) path apart
  have removed : path ∈ (filterEnd remote last writer).toRemove.map FileName.path ↔
      writer.table.lists path := by
    have same : ∀ filename : FileName, filename.path = path →
        (filename ∈ (filterEnd remote last writer).toRemove ↔
          (writer.table.getFileMeta filename).isSome) := by
      intro filename named
      have absent : filename ∉ remote.files.map Prod.fst :=
        fun member => apart filename member named
      have loop := foldl_filterFile_other last remote.files (filterStart remote writer)
        filename absent
      have unknown : remote.getFileMeta filename = none := by
        rw [← Option.not_isSome_iff_eq_none, ← FileTable.mem_listFiles]
        exact absent
      refine loop.2.trans ((mem_obsolete remote writer.table filename).trans ?_)
      exact and_iff_left unknown
    rw [List.mem_map]
    constructor
    · intro found
      rcases found with ⟨filename, member, named⟩
      exact ⟨filename, (FileTable.mem_listFiles _ _).mpr ((same filename named).mp member),
        named⟩
    · intro listed
      rcases listed with ⟨filename, member, named⟩
      exact ⟨filename, (same filename named).mpr ((FileTable.mem_listFiles _ _).mp member),
        named⟩
  change (((filterEnd remote last writer).toRemove.map FileName.path).foldl
    FileTree.delete (filterEnd remote last writer).tree).file path = _
  rw [FileTree.file_foldl_delete, unchanged]
  by_cases listed : writer.table.lists path
  · rw [if_pos listed, if_pos (removed.mpr listed)]
  · rw [if_neg listed, if_neg (fun member => listed (removed.mp member))]

theorem filterBeforeCopy_filtered :
    Filtered remote writer.table last writer.tree (filterBeforeCopy remote last writer) where
  kept _ _ found recorded := filterBeforeCopy_kept remote last writer found recorded
  referenced _ _ found unrecorded referenced :=
    filterBeforeCopy_referenced remote last writer found unrecorded referenced
  fresh _ _ found unrecorded present :=
    filterBeforeCopy_fresh remote last writer found unrecorded present
  others := filterBeforeCopy_others remote last writer

end Filter

/-! ### Copying -/

section Copying

variable (run : CopyRun) (remote : FileTable)

theorem addCopied_ok {errorCode : Int} {writer : Writer} {filename : FileName}
    {fileMeta : LocalFileMeta} {status : Int}
    (done : (Copier.addCopied errorCode writer filename fileMeta status).ok) :
    errorCode = 0 ∧
      Copier.addCopied errorCode writer filename fileMeta status =
        { errorCode := 0
          writer := { writer with table := (writer.table.addFile filename fileMeta).2 } } := by
  unfold Copier.addCopied at done ⊢
  by_cases failed : status ≠ 0
  · rw [if_pos failed] at done
    exact absurd (of_decide_eq_true done) failed
  · rw [if_neg failed] at done ⊢
    dsimp only at done ⊢
    by_cases added : (writer.table.addFile filename fileMeta).1 ≠ 0
    · rw [if_pos added] at done
      exact absurd (of_decide_eq_true done) (by change ( EIO : Int) ≠ 0; decide)
    · rw [if_neg added] at done ⊢
      have zero : errorCode = 0 := of_decide_eq_true done
      rw [zero]
      exact ⟨rfl, rfl⟩

theorem copyFile_missing {copier : Copier} {filename : FileName}
    (missing : copier.writer.table.getFileMeta filename = none)
    (done : (Copier.copyFile run remote copier filename).ok) :
    let after := Copier.copyFile run remote copier filename
    (∀ other, other ≠ filename → after.writer.table.getFileMeta other =
        copier.writer.table.getFileMeta other) ∧
      ∀ path, after.writer.tree.file path =
        if path = filename.path then some .copied else copier.writer.tree.file path := by
  have skipped : ¬ (copier.writer.table.getFileMeta filename).isSome := by
    rw [missing]
    exact Bool.false_ne_true
  have sameFiles := FileTree.file_makeDirectories (FileTree.ancestors filename.path)
    copier.writer.tree
  unfold Copier.copyFile at done ⊢
  rw [if_neg skipped] at done ⊢
  dsimp only at done ⊢
  cases session : run.fileSession filename with
  | cancelled =>
      rw [session] at done
      exact absurd (of_decide_eq_true done) (by change ECANCELED ≠ 0; decide)
  | notStarted =>
      rw [session] at done
      exact absurd (of_decide_eq_true done) (by change (-1 : Int) ≠ 0; decide)
  | joined status =>
      rw [session] at done
      dsimp only at done ⊢
      cases opened : (FileTree.makeDirectories (FileTree.ancestors filename.path)
          copier.writer.tree).2.openFile filename.path .copied with
      | none =>
          rw [opened] at done
          exact absurd (of_decide_eq_true done) (by change (-1 : Int) ≠ 0; decide)
      | some tree =>
          rw [opened] at done
          dsimp only at done ⊢
          rw [(addCopied_ok done).2]
          constructor
          · intro other different
            exact FileTable.getFileMeta_addFile_other _ _ different
          · intro path
            change tree.file path = _
            rw [FileTree.file_openFile opened, sameFiles]

theorem copyFile_listed {copier : Copier} {filename : FileName}
    (listed : (copier.writer.table.getFileMeta filename).isSome) :
    Copier.copyFile run remote copier filename = copier := by
  unfold Copier.copyFile
  rw [if_pos listed]

theorem copyFiles_ready (filenames : List FileName) (copier : Copier)
    (done : (Copier.copyFiles run remote filenames copier).ok) : copier.ok := by
  cases filenames with
  | nil => exact done
  | cons head rest =>
      unfold Copier.copyFiles at done
      by_cases ready : copier.ok
      · exact ready
      · rw [if_neg ready] at done
        exact done

theorem copyFiles_ok (filenames : List FileName) (nodup : filenames.Nodup) (copier : Copier)
    (done : (Copier.copyFiles run remote filenames copier).ok) :
    let after := Copier.copyFiles run remote filenames copier
    (∀ filename ∈ filenames, after.writer.tree.file filename.path =
        if copier.writer.table.getFileMeta filename = none then some .copied
        else copier.writer.tree.file filename.path) ∧
      ∀ path, (∀ filename ∈ filenames, filename.path ≠ path) →
        after.writer.tree.file path = copier.writer.tree.file path := by
  induction filenames generalizing copier with
  | nil =>
      refine ⟨?_, fun _ _ => rfl⟩
      intro filename member
      cases member
  | cons head rest ih =>
      have apart := List.nodup_cons.mp nodup
      unfold Copier.copyFiles at done ⊢
      by_cases ready : copier.ok
      · rw [if_pos ready] at done ⊢
        have later := ih apart.2 (Copier.copyFile run remote copier head) done
        have restApart : ∀ filename ∈ rest, filename.path ≠ head.path := by
          intro filename member same
          rw [FileName.path_inj same] at member
          exact apart.1 member
        by_cases listed : (copier.writer.table.getFileMeta head).isSome
        · have known : copier.writer.table.getFileMeta head ≠ none :=
            Option.isSome_iff_ne_none.mp listed
          rw [copyFile_listed run remote listed] at later ⊢
          refine ⟨?_, ?_⟩
          · intro filename member
            cases member with
            | head => rw [later.2 head.path restApart, if_neg known]
            | tail _ member => exact later.1 filename member
          · intro path different
            exact later.2 path (fun filename member =>
              different filename (List.mem_cons_of_mem _ member))
        · have missing := Option.not_isSome_iff_eq_none.mp listed
          have copied := copyFile_missing run remote missing
            (copyFiles_ready run remote rest _ done)
          refine ⟨?_, ?_⟩
          · intro filename member
            cases member with
            | head =>
                rw [later.2 head.path restApart, copied.2, if_pos rfl, if_pos missing]
            | tail _ member =>
                have different : filename ≠ head := by
                  intro same
                  rw [same] at member
                  exact apart.1 member
                rw [later.1 filename member, copied.1 filename different, copied.2,
                  if_neg (restApart filename member)]
          · intro path different
            rw [later.2 path (fun filename member =>
              different filename (List.mem_cons_of_mem _ member)), copied.2,
              if_neg (Ne.symm (different head (List.mem_cons_self ..)))]
      · rw [if_neg ready] at done
        exact absurd done ready

end Copying

/-! ### The installed directory -/

namespace CopyRun

variable (run : CopyRun)

def remoteFiles : FileTable := (run.metaTable.map RemoteTable.files).getD {}

def remoteIndex : Nat := (run.metaTable.map RemoteTable.index).getD 0

def Sourced (filename : FileName) (checksum : Option String) : Origin → Prop
  | .copied => True
  | .left => run.left.recorded.records filename checksum
  | .linked => Linkable run.openReader filename checksum

/-- The files of the directory are those of the remote list, each of them copied
or taken over with the checksum of the remote file. -/
structure Reproduces (installed : Installed) : Prop where
  files : ∀ path, (installed.tree.file path).isSome ↔ run.remoteFiles.lists path
  sources : ∀ filename remoteMeta origin,
    run.remoteFiles.getFileMeta filename = some remoteMeta →
      installed.tree.file filename.path = some origin →
        run.Sourced filename remoteMeta.checksum origin

/-- The runs in which the filter meets nothing that it does not see: below the
subdirectories of `temp` only files that are recorded or remote, no record of a
file that is missing, and no reference to reuse.  When the filtered table cannot
be written none of this matters, since `temp` is made anew. -/
structure Clean : Prop where
  newer : run.remoteIndex ≠ run.lastIndex
  noStray : run.filterSync → ∀ path ∈ run.left.files,
    path.length = 1 ∨ run.left.recorded.lists path ∨ run.remoteFiles.lists path
  keptPresent : run.filterSync → ∀ filename remoteMeta,
    run.remoteFiles.getFileMeta filename = some remoteMeta →
      run.left.recorded.records filename remoteMeta.checksum →
        filename.path ∈ run.left.files
  noReference : run.filterSync → ∀ filename remoteMeta,
    run.remoteFiles.getFileMeta filename = some remoteMeta →
      ¬ run.left.recorded.records filename remoteMeta.checksum →
        ¬ Referenced run.openReader filename remoteMeta.checksum

theorem copy_success {run : CopyRun} (success : run.copy.1 = 0) :
    ∃ writer final, run.filter run.remoteFiles = some writer ∧
      run.copy.2 =
        (if run.remoteIndex = run.lastIndex then none
        else some { index := run.remoteIndex, tree := final }) ∧
      (∀ filename ∈ run.remoteFiles.listFiles, final.file filename.path =
        if writer.table.getFileMeta filename = none then some .copied
        else writer.tree.file filename.path) ∧
      ∀ path, ¬ run.remoteFiles.lists path → final.file path = writer.tree.file path := by
  unfold copy at success ⊢
  by_cases cancelled : run.metaCancelled
  · rw [if_pos cancelled] at success
    exact absurd success (by change ECANCELED ≠ 0; decide)
  · rw [if_neg cancelled] at success ⊢
    by_cases failed : run.metaStatus ≠ 0
    · rw [if_pos failed] at success
      exact absurd success failed
    · rw [if_neg failed] at success ⊢
      unfold remoteFiles remoteIndex
      cases parsed : run.metaTable with
      | none =>
          rw [parsed] at success
          exact absurd success (by change (-1 : Int) ≠ 0; decide)
      | some remote =>
          rw [parsed] at success
          dsimp only [Option.map_some, Option.getD_some] at success ⊢
          cases filtered : run.filter remote.files with
          | none =>
              rw [filtered] at success
              exact absurd success (by change EIO ≠ 0; decide)
          | some writer =>
              rw [filtered] at success
              dsimp only at success ⊢
              by_cases done : (Copier.copyFiles run remote.files remote.files.listFiles
                  { writer := writer }).ok
              · rw [if_pos done]
                have copied := copyFiles_ok run remote.files remote.files.listFiles
                  remote.files.nodup { writer := writer } done
                exact ⟨writer, _, rfl, rfl, copied.1, fun path unnamed =>
                  copied.2 path (fun filename member same =>
                    unnamed ⟨filename, member, same⟩)⟩
              · rw [if_neg done] at success
                exact absurd (decide_eq_true success) done

theorem filter_result {remote : FileTable} {writer : Writer}
    (made : run.filter remote = some writer) :
    (run.filterSync ∧ ∃ start, Writer.init run.left = some start ∧
      Filtered remote run.left.recorded run.openReader start.tree writer) ∨
      (run.filterSync = false ∧ writer = {}) := by
  unfold filter at made
  cases opened : Writer.init run.left with
  | none =>
      rw [opened] at made
      cases made
  | some start =>
      rw [opened] at made
      dsimp only at made
      cases synced : run.filterSync with
      | false =>
          rw [synced, if_neg Bool.false_ne_true] at made
          cases made
          exact Or.inr ⟨rfl, rfl⟩
      | true =>
          rw [synced, if_pos rfl] at made
          cases made
          refine Or.inl ⟨rfl, start, rfl, ?_⟩
          rw [← init_table opened]
          exact filterBeforeCopy_filtered remote run.openReader start

theorem remote_file (clean : run.Clean) {writer : Writer}
    (made : run.filter run.remoteFiles = some writer) {filename : FileName}
    {remoteMeta : LocalFileMeta}
    (found : run.remoteFiles.getFileMeta filename = some remoteMeta) :
    ∃ origin,
      (if writer.table.getFileMeta filename = none then some Origin.copied
        else writer.tree.file filename.path) = some origin ∧
      run.Sourced filename remoteMeta.checksum origin := by
  cases run.filter_result made with
  | inr fresh =>
      rw [fresh.2]
      exact ⟨.copied, if_pos rfl, trivial⟩
  | inl filtered =>
      rcases filtered with ⟨synced, start, opened, filtered⟩
      by_cases recorded : run.left.recorded.records filename remoteMeta.checksum
      · have kept := filtered.kept filename remoteMeta found recorded
        have present := clean.keptPresent synced filename remoteMeta found recorded
        have listed : run.left.recorded.lists filename.path := by
          rw [FileTable.lists_path]
          rcases Option.map_eq_some_iff.mp recorded.2 with ⟨localMeta, known, _⟩
          rw [known]
          rfl
        refine ⟨.left, ?_, recorded⟩
        rw [if_neg (Option.isSome_iff_ne_none.mp kept.1), kept.2, init_file opened,
          if_pos ⟨present, fun _ => listed⟩]
      · have unreferenced := clean.noReference synced filename remoteMeta found recorded
        cases filtered.fresh filename remoteMeta found recorded unreferenced with
        | inl missing => exact ⟨.copied, if_pos missing, trivial⟩
        | inr linked =>
            refine ⟨.linked, ?_, linked.2.2⟩
            rw [if_neg (Option.isSome_iff_ne_none.mp linked.1), linked.2.1]

theorem other_file (clean : run.Clean) {writer : Writer}
    (made : run.filter run.remoteFiles = some writer) {path : Path}
    (unnamed : ¬ run.remoteFiles.lists path) : writer.tree.file path = none := by
  cases run.filter_result made with
  | inr fresh =>
      rw [fresh.2]
      rfl
  | inl filtered =>
      rcases filtered with ⟨synced, start, opened, filtered⟩
      rw [filtered.others path unnamed]
      by_cases listed : run.left.recorded.lists path
      · rw [if_pos listed]
      · rw [if_neg listed, init_file opened, if_neg]
        intro stays
        rcases clean.noStray synced path stays.1 with top | recorded | named
        · exact listed (stays.2 top)
        · exact listed recorded
        · exact unnamed named

theorem clean_reproduces (clean : run.Clean) (success : run.copy.1 = 0) :
    ∃ installed, run.copy.2 = some installed ∧ run.Reproduces installed := by
  rcases copy_success success with ⟨writer, final, made, result, copied, others⟩
  rw [if_neg clean.newer] at result
  refine ⟨_, result, ?_, ?_⟩
  · intro path
    change (final.file path).isSome ↔ _
    constructor
    · intro present
      by_contra unnamed
      rw [others path unnamed, run.other_file clean made unnamed] at present
      cases present
    · intro named
      rcases named with ⟨filename, member, rfl⟩
      rcases Option.isSome_iff_exists.mp ((FileTable.mem_listFiles _ _).mp member) with
        ⟨remoteMeta, found⟩
      rcases run.remote_file clean made found with ⟨origin, file, _⟩
      rw [copied filename member, file]
      rfl
  · intro filename remoteMeta origin found file
    change final.file filename.path = some origin at file
    have member : filename ∈ run.remoteFiles.listFiles := by
      rw [FileTable.mem_listFiles, found]
      rfl
    rcases run.remote_file clean made found with ⟨other, same, sourced⟩
    rw [copied filename member, same] at file
    cases file
    exact sourced

theorem reproduces_clean {installed : Installed} (success : run.copy.1 = 0)
    (produced : run.copy.2 = some installed) (reproduces : run.Reproduces installed) :
    run.Clean := by
  rcases copy_success success with ⟨writer, final, made, result, copied, others⟩
  have newer : run.remoteIndex ≠ run.lastIndex := by
    intro same
    rw [produced, if_pos same] at result
    cases result
  rw [produced, if_neg newer] at result
  cases result
  have files : ∀ path, (final.file path).isSome ↔ run.remoteFiles.lists path :=
    reproduces.files
  have filtered : run.filterSync → ∃ start, Writer.init run.left = some start ∧
      Filtered run.remoteFiles run.left.recorded run.openReader start.tree writer := by
    intro synced
    cases run.filter_result made with
    | inl filtered => exact filtered.2
    | inr fresh =>
        rw [fresh.1] at synced
        cases synced
  have listedFile : ∀ filename remoteMeta,
      run.remoteFiles.getFileMeta filename = some remoteMeta →
        (writer.table.getFileMeta filename).isSome →
          final.file filename.path = writer.tree.file filename.path ∧
            (final.file filename.path).isSome := by
    intro filename remoteMeta found listed
    have known : (run.remoteFiles.getFileMeta filename).isSome := by
      rw [found]
      rfl
    refine ⟨?_, (files filename.path).mpr ((FileTable.lists_path _ _).mpr known)⟩
    rw [copied filename ((FileTable.mem_listFiles _ _).mpr known),
      if_neg (Option.isSome_iff_ne_none.mp listed)]
  refine ⟨newer, ?_, ?_, ?_⟩
  · intro synced path member
    rcases filtered synced with ⟨start, opened, filtered⟩
    by_cases top : path.length = 1
    · exact Or.inl top
    · by_cases recorded : run.left.recorded.lists path
      · exact Or.inr (Or.inl recorded)
      · refine Or.inr (Or.inr ((files path).mp ?_))
        by_cases named : run.remoteFiles.lists path
        · exact (files path).mpr named
        · rw [others path named, filtered.others path named, if_neg recorded,
            init_file opened, if_pos ⟨member, fun isTop => absurd isTop top⟩]
          rfl
  · intro synced filename remoteMeta found recorded
    rcases filtered synced with ⟨start, opened, filtered⟩
    have kept := filtered.kept filename remoteMeta found recorded
    have file := listedFile filename remoteMeta found kept.1
    by_contra absent
    rw [file.1, kept.2, init_file opened, if_neg (fun stays => absent stays.1)] at file
    cases file.2
  · intro synced filename remoteMeta found unrecorded referenced
    rcases filtered synced with ⟨start, opened, filtered⟩
    have taken := filtered.referenced filename remoteMeta found unrecorded referenced
    have file := listedFile filename remoteMeta found taken.1
    cases taken.2 with
    | inl missing =>
        rw [file.1, missing] at file
        cases file.2
    | inr same =>
        rw [same, init_file opened] at file
        by_cases stays : filename.path ∈ run.left.files ∧
            (filename.path.length = 1 → run.left.recorded.lists filename.path)
        · rw [if_pos stays] at file
          exact unrecorded (reproduces.sources filename remoteMeta .left found file.1)
        · rw [if_neg stays] at file
          rw [file.1] at file
          cases file.2

/-- One file kept from `temp`, one linked from the last snapshot, one downloaded
into a subdirectory. -/
def reuseRun : CopyRun where
  left :=
    { metaFile := .table { files := [(⟨["a"], by decide⟩, { checksum := some "1" })] }
      files := [["a"], ["stale"]] }
  lastSnapshot := some
    { index := 3
      metaTable := some { files := [(⟨["b"], by decide⟩, { checksum := some "2" })] }
      tree := { files := [(["b"], ())] } }
  metaTable := some
    { index := 5
      files :=
        { files :=
            [(⟨["a"], by decide⟩, { checksum := some "1" }),
             (⟨["b"], by decide⟩, { checksum := some "2" }),
             (⟨["sub", "c"], by decide⟩, {})] } }

def strayRun : CopyRun where
  left := { metaFile := .table {}, files := [["sub", "x"]], dirs := [["sub"]] }
  metaTable := some { index := 5, files := { files := [(⟨["a"], by decide⟩, {})] } }

end CopyRun

end FilteredCopy
end QuorumKit
