/-
The offset table of a loaded segment, for any bytes of the file.

The entries of a file follow each other: the header of an entry says where the next one
begins.  `load` goes from header to header, so its table has the place and the term of every
entry that it passes.  What it cuts off lies behind the last one of them.
-/

import QuorumKit.Log.CorruptConfiguration

namespace QuorumKit

open Library

def headerAt (file : Bytes) (place : Nat) : Option EntryHeader :=
  if file.length < place + entryHeaderSize then none
  else some (unpackHeader ((file.drop place).take entryHeaderSize))

/-- The header of the entry behind `count` others, which begin at a place. -/
def storedHeader (file : Bytes) : Nat → Nat → Option EntryHeader
  | 0, place => headerAt file place
  | count + 1, place =>
      match headerAt file place with
      | none => none
      | some header => storedHeader file count (place + (entryHeaderSize + header.dataLen))

inductive Tabulates (file : Bytes) : Nat → Nat → List (Nat × Nat) → Prop
  | done (place : Nat) : Tabulates file place place []
  | entry {place stop : Nat} {header : EntryHeader} {table : List (Nat × Nat)}
      (isHeader : headerAt file place = some header)
      (rest : Tabulates file (place + (entryHeaderSize + header.dataLen)) stop table) :
      Tabulates file place stop ((place, header.term) :: table)

theorem headerAt_eq_some {file : Bytes} {place : Nat} {header : EntryHeader}
    (isHeader : headerAt file place = some header) :
    place + entryHeaderSize ≤ file.length ∧
      unpackHeader ((file.drop place).take entryHeaderSize) = header := by
  unfold headerAt at isHeader
  by_cases short : file.length < place + entryHeaderSize
  · rw [if_pos short] at isHeader
    contradiction
  · rw [if_neg short] at isHeader
    exact ⟨Nat.le_of_not_lt short, Option.some.inj isHeader⟩

theorem headerAt_take {file : Bytes} {place size : Nat} {header : EntryHeader}
    (isHeader : headerAt file place = some header) (kept : place + entryHeaderSize ≤ size) :
    headerAt (file.take size) place = some header := by
  have fits := (headerAt_eq_some isHeader).1
  have sameBytes : ((file.take size).drop place).take entryHeaderSize =
      (file.drop place).take entryHeaderSize := by
    rw [List.drop_take, List.take_take, Nat.min_eq_left (by omega)]
  unfold headerAt
  rw [if_neg (by rw [List.length_take]; omega), sameBytes, (headerAt_eq_some isHeader).2]

theorem headerAt_of_loadEntry {P : Type} {codec : EntryCodec P} {file data : Bytes} {place : Nat}
    {header : EntryHeader}
    (loaded : loadEntry codec file place entryHeaderSize false = .ok (header, data)) :
    headerAt file place = some header := by
  unfold loadEntry at loaded
  simp only [Nat.max_self] at loaded
  by_cases short : file.length < place + entryHeaderSize
  · rw [if_pos short] at loaded
    contradiction
  rw [if_neg short] at loaded
  by_cases verified : verifyChecksum codec
      (unpackHeader ((file.drop place).take entryHeaderSize)).checksumType
      (((file.drop place).take entryHeaderSize).take 20)
      (unpackBE (((file.drop place).take entryHeaderSize).drop 20)) = true
  · rw [if_pos verified] at loaded
    unfold headerAt
    rw [if_neg short]
    exact congrArg some (Prod.ext_iff.mp (Except.ok.inj loaded)).1
  · rw [if_neg verified] at loaded
    contradiction

namespace Tabulates

variable {file : Bytes}

theorem le {place stop : Nat} {table : List (Nat × Nat)} (tabulates : Tabulates file place stop table) :
    place ≤ stop := by
  induction tabulates with
  | done place => exact Nat.le_refl place
  | entry isHeader rest ih => omega

theorem take {place stop : Nat} {table : List (Nat × Nat)}
    (tabulates : Tabulates file place stop table) :
    Tabulates (file.take stop) place stop table := by
  induction tabulates with
  | done place => exact .done place
  | entry isHeader rest ih =>
      have behind := rest.le
      apply Tabulates.entry _ ih
      exact headerAt_take isHeader (by omega)

theorem storedHeader {place stop : Nat} {table : List (Nat × Nat)}
    (tabulates : Tabulates file place stop table) :
    ∀ {count offset term : Nat}, table[count]? = some (offset, term) →
      ∃ header, QuorumKit.storedHeader file count place = some header ∧ header.term = term := by
  induction tabulates with
  | done place =>
      intro count offset term found
      simp at found
  | @entry place stop header table isHeader rest ih =>
      intro count offset term found
      cases count with
      | zero =>
          rw [List.getElem?_cons_zero] at found
          refine ⟨header, isHeader, ?_⟩
          exact (Prod.ext_iff.mp (Option.some.inj found)).2
      | succ count =>
          rw [List.getElem?_cons_succ] at found
          unfold QuorumKit.storedHeader
          rw [isHeader]
          exact ih found

end Tabulates

section Scan

variable {P : Type} [DecidableEq P] (codec : EntryCodec P)

/-- One round of the loop of `load`: it ends, or it takes the entry at its place. -/
inductive Round (file : Bytes) (place : Nat) : Prop
  | stops (ends : ∀ fuel index table manager,
      (Segment.loadLoop codec file (fuel + 1) index place table manager).offsetAndTerm = table ∧
        (Segment.loadLoop codec file (fuel + 1) index place table manager).entryOff = place)
  | takes (header : EntryHeader) (isHeader : headerAt file place = some header)
      (goesOn : ∀ fuel index table manager, ∃ grown,
        Segment.loadLoop codec file (fuel + 1) index place table manager =
          Segment.loadLoop codec file fuel (index + 1) (place + (entryHeaderSize + header.dataLen))
            (table ++ [(place, header.term)]) grown)

theorem loadLoop_round (file : Bytes) (place : Nat) : Round codec file place := by
  by_cases more : place < file.length
  swap
  · apply Round.stops
    intro fuel index table manager
    rw [Segment.loadLoop, if_neg more]
    exact ⟨rfl, rfl⟩
  cases loads : loadEntry codec file place entryHeaderSize false with
  | error rc =>
      apply Round.stops
      intro fuel index table manager
      rw [Segment.loadLoop, if_pos more, loads]
      by_cases torn : 0 < rc
      · simp only [if_pos torn, and_self]
      · simp only [if_neg torn, and_self]
  | ok loaded =>
      obtain ⟨header, data⟩ := loaded
      have noData := loadEntry_header codec loads
      subst noData
      have isHeader := loads
      rw [loadEntry_drop] at isHeader
      by_cases beyond : file.length < place + (entryHeaderSize + header.dataLen)
      · apply Round.stops
        intro fuel index table manager
        rw [Segment.loadLoop, if_pos more, loads]
        simp only [if_pos beyond, and_self]
      have entry : StartsWithEntry codec (file.drop place) header :=
        ⟨isHeader, by rw [List.length_drop]; omega⟩
      have goesOn (readable : ReadableConfiguration codec (file.drop place) header) :
          Round codec file place :=
        .takes header (headerAt_of_loadEntry loads) (loadLoop_next codec entry readable)
      by_cases isConfiguration : header.type = EntryType.configuration.toNat
      swap
      · exact goesOn (fun isType => absurd isType isConfiguration)
      cases reads : loadEntry codec file place (entryHeaderSize + header.dataLen) true with
      | error rc =>
          apply Round.stops
          intro fuel index table manager
          rw [Segment.loadLoop, if_pos more, loads]
          simp only [if_neg beyond, if_pos isConfiguration, reads, and_self]
      | ok loaded =>
          cases parses : codec.parseConfiguration loaded.2 with
          | none =>
              apply Round.stops
              intro fuel index table manager
              rw [Segment.loadLoop, if_pos more, loads]
              simp only [if_neg beyond, if_pos isConfiguration, reads, parses, and_self]
          | some conf =>
              exact goesOn (fun _ => ⟨loaded, conf, by rw [← loadEntry_drop]; exact reads, parses⟩)

theorem loadLoop_tabulates (file : Bytes) (fuel : Nat) :
    ∀ place, ∃ stop found, Tabulates file place stop found ∧
      ∀ index table manager,
        (Segment.loadLoop codec file fuel index place table manager).offsetAndTerm =
            table ++ found ∧
          (Segment.loadLoop codec file fuel index place table manager).entryOff = stop := by
  induction fuel with
  | zero =>
      intro place
      refine ⟨place, [], .done place, ?_⟩
      intro index table manager
      exact ⟨(List.append_nil table).symm, rfl⟩
  | succ fuel ih =>
      intro place
      cases loadLoop_round codec file place with
      | stops ends =>
          refine ⟨place, [], .done place, ?_⟩
          intro index table manager
          rw [List.append_nil]
          exact ends fuel index table manager
      | takes header isHeader goesOn =>
          obtain ⟨stop, found, tabulates, same⟩ :=
            ih (place + (entryHeaderSize + header.dataLen))
          refine ⟨stop, (place, header.term) :: found, .entry isHeader tabulates, ?_⟩
          intro index table manager
          obtain ⟨grown, next⟩ := goesOn fuel index table manager
          obtain ⟨sameTable, sameStop⟩ :=
            same (index + 1) (table ++ [(place, header.term)]) grown
          rw [next, sameTable, sameStop, List.append_assoc]
          exact ⟨rfl, rfl⟩

/-- Place and term of the entries that `load` takes from a file. -/
def entriesOf (file : Bytes) : List (Nat × Nat) :=
  (Segment.loadLoop codec file file.length 0 0 [] .init).offsetAndTerm

theorem entriesOf_tabulates (file : Bytes) :
    ∃ stop, Tabulates file 0 stop (entriesOf codec file) ∧
      ∀ index manager,
        (Segment.loadLoop codec file file.length index 0 [] manager).offsetAndTerm =
            entriesOf codec file ∧
          (Segment.loadLoop codec file file.length index 0 [] manager).entryOff = stop := by
  obtain ⟨stop, found, tabulates, same⟩ := loadLoop_tabulates codec file file.length 0
  have isFound : entriesOf codec file = found := (same 0 [] .init).1
  rw [isFound]
  exact ⟨stop, tabulates, fun index manager => same index [] manager⟩

structure Segment.Indexed (segment : Segment) (disk : LogDisk) : Prop where
  table : ∃ file stop, disk.read segment.fileName = some file ∧
    Tabulates file 0 stop segment.offsetAndTerm
  last : segment.lastIndex = segment.firstIndex - 1 + segment.offsetAndTerm.length

/-- What a `load` without an error does. -/
structure Segment.LoadsTo (segment : Segment) (disk : LogDisk) (loaded : Segment)
    (left : LogDisk) : Prop where
  first : loaded.firstIndex = segment.firstIndex
  isOpen : loaded.isOpen = segment.isOpen
  closed : segment.isOpen = false → loaded.lastIndex = segment.lastIndex
  table : ∃ file, disk.read segment.fileName = some file ∧
    loaded.offsetAndTerm = entriesOf codec file
  indexed : loaded.Indexed left
  wellFormed : disk.WellFormed → left.WellFormed
  others : disk.WellFormed → ∀ name, name ≠ segment.fileName → left.read name = disk.read name

variable {codec}

theorem Segment.fileName_eq {segment loaded : Segment} (first : loaded.firstIndex = segment.firstIndex)
    (isOpen : loaded.isOpen = segment.isOpen)
    (closed : segment.isOpen = false → loaded.lastIndex = segment.lastIndex) :
    loaded.fileName = segment.fileName := by
  unfold Segment.fileName
  rw [isOpen, first]
  cases opened : segment.isOpen with
  | true => rfl
  | false => rw [closed opened]

theorem Segment.Indexed.keep {segment : Segment} {disk left : LogDisk}
    (indexed : segment.Indexed disk)
    (same : left.read segment.fileName = disk.read segment.fileName) : segment.Indexed left := by
  obtain ⟨file, stop, reads, tabulates⟩ := indexed.table
  exact ⟨⟨file, stop, same.trans reads, tabulates⟩, indexed.last⟩

theorem Segment.Indexed.getTerm {segment : Segment} {disk : LogDisk} {index : Int}
    (indexed : segment.Indexed disk) (lower : segment.firstIndex ≤ index)
    (upper : index ≤ segment.lastIndex) :
    ∃ file header, disk.read segment.fileName = some file ∧
      storedHeader file (index - segment.firstIndex).toNat 0 = some header ∧
      segment.getTerm index = header.term := by
  obtain ⟨file, stop, reads, tabulates⟩ := indexed.table
  have last := indexed.last
  have inTable : (index - segment.firstIndex).toNat < segment.offsetAndTerm.length := by omega
  have found := List.getElem?_eq_getElem inTable
  generalize segment.offsetAndTerm[(index - segment.firstIndex).toNat] = slot at found
  obtain ⟨offset, term⟩ := slot
  obtain ⟨header, isHeader, sameTerm⟩ := tabulates.storedHeader found
  refine ⟨file, header, reads, isHeader, ?_⟩
  unfold Segment.getTerm Segment.getMeta
  rw [if_neg (by omega), sameTerm]
  simp only [found]

/-- The cases of a `load` without an error: a file that ends with its last entry is left as it
is, another one is cut off there. -/
theorem Segment.load_cases {flags : LogFlags} {segment loaded : Segment} {fs after : LogFs}
    {manager reached : ConfigurationManager P} {inode : Nat}
    (listed : fs.disk.lookup segment.fileName = some inode)
    (loads : segment.load codec flags manager fs = (0, loaded, reached, after)) :
    ∃ result, result = loadLoop codec (fs.disk.content inode) (fs.disk.content inode).length
        segment.firstIndex 0 [] manager ∧
      loaded.firstIndex = segment.firstIndex ∧ loaded.isOpen = segment.isOpen ∧
      loaded.offsetAndTerm = result.offsetAndTerm ∧
      loaded.lastIndex = segment.firstIndex - 1 + result.offsetAndTerm.length ∧
      (segment.isOpen = false → loaded.lastIndex = segment.lastIndex) ∧
      (after.disk = fs.disk ∨
        after.disk = fs.disk.setContent inode ((fs.disk.content inode).take result.entryOff)) := by
  refine ⟨_, rfl, ?_⟩
  unfold Segment.load at loads
  rw [listed] at loads
  simp only at loads
  generalize loadLoop codec (fs.disk.content inode) (fs.disk.content inode).length
    segment.firstIndex 0 [] manager = result at loads ⊢
  generalize isRet : (if result.ret = 0 ∧ ¬ segment.isOpen = true ∧
      segment.firstIndex - 1 + (result.offsetAndTerm.length : Int) ≠ segment.lastIndex then (-1 : Int)
      else result.ret) = ret at loads
  by_cases fails : ret ≠ 0 ∧ (¬ segment.isOpen = true ∨ ¬ flags.raftRecoverLogFromCorrupt = true ∨
      ¬ result.isEntryCorrupted = true)
  · rw [if_pos fails] at loads
    exact absurd (Prod.ext_iff.mp loads).1 fails.1
  rw [if_neg fails] at loads
  have closedEnds : segment.isOpen = false →
      segment.lastIndex = segment.firstIndex - 1 + result.offsetAndTerm.length := by
    intro isClosed
    rw [isClosed] at isRet fails
    by_contra differs
    by_cases noError : result.ret = 0
    · rw [if_pos ⟨noError, by decide, fun same => differs same.symm⟩] at isRet
      exact fails ⟨by omega, Or.inl (by decide)⟩
    · rw [if_neg (fun both => noError both.1)] at isRet
      exact fails ⟨by omega, Or.inl (by decide)⟩
  have isLoaded : loaded.firstIndex = segment.firstIndex ∧ loaded.isOpen = segment.isOpen ∧
      loaded.offsetAndTerm = result.offsetAndTerm ∧
      loaded.lastIndex = segment.firstIndex - 1 + result.offsetAndTerm.length ∧
      (segment.isOpen = false → loaded.lastIndex = segment.lastIndex) := by
    have same := (Prod.ext_iff.mp (Prod.ext_iff.mp loads).2).1
    simp only at same
    rw [← same]
    cases isOpen : segment.isOpen with
    | true => simp
    | false => simp [closedEnds isOpen]
  refine ⟨isLoaded.1, isLoaded.2.1, isLoaded.2.2.1, isLoaded.2.2.2.1, isLoaded.2.2.2.2, ?_⟩
  have isAfter := (Prod.ext_iff.mp (Prod.ext_iff.mp (Prod.ext_iff.mp loads).2).2).2
  simp only at isAfter
  rw [← isAfter]
  by_cases whole : result.entryOff = (fs.disk.content inode).length
  · rw [if_neg (fun cut => cut whole)]
    exact Or.inl rfl
  · rw [if_pos whole]
    unfold FileSystem.perform
    cases fs.faults fs.clock with
    | some count => exact Or.inl rfl
    | none => exact Or.inr rfl

theorem Segment.loadsTo_of_load {flags : LogFlags} {segment loaded : Segment}
    {fs after : LogFs} {manager reached : ConfigurationManager P}
    (loads : segment.load codec flags manager fs = (0, loaded, reached, after)) :
    segment.LoadsTo codec fs.disk loaded after.disk := by
  cases listed : fs.disk.lookup segment.fileName with
  | none =>
      unfold Segment.load at loads
      rw [listed] at loads
      have failed : (-1 : Int) = 0 := (Prod.ext_iff.mp loads).1
      exact absurd failed (by decide)
  | some inode =>
      obtain ⟨result, isResult, first, isOpen, table, last, closed, left⟩ :=
        Segment.load_cases listed loads
      obtain ⟨stop, tabulates, same⟩ := entriesOf_tabulates codec (fs.disk.content inode)
      have sameTable : loaded.offsetAndTerm = entriesOf codec (fs.disk.content inode) := by
        rw [table, isResult]
        exact (same segment.firstIndex manager).1
      have isStop : result.entryOff = stop := by
        rw [isResult]
        exact (same segment.firstIndex manager).2
      have reads : fs.disk.read segment.fileName = some (fs.disk.content inode) := by
        unfold Disk.read
        rw [listed]
        rfl
      have sameName := Segment.fileName_eq first isOpen closed
      rw [isStop] at left
      refine ⟨first, isOpen, closed, ⟨_, reads, sameTable⟩, ⟨?_, ?_⟩, ?_, ?_⟩
      · rw [sameName, sameTable]
        rcases left with unchanged | cut
        · exact ⟨_, stop, by rw [unchanged, reads], tabulates⟩
        · refine ⟨_, stop, ?_, tabulates.take⟩
          rw [cut]
          unfold Disk.read
          rw [Disk.setContent_lookup, listed]
          simp [Disk.setContent]
      · rw [first, table]
        exact last
      · intro wellFormed
        rcases left with unchanged | cut
        · rw [unchanged]
          exact wellFormed
        · rw [cut]
          exact Disk.wellFormed_setContent _ wellFormed
      · intro wellFormed name differs
        rcases left with unchanged | cut
        · rw [unchanged]
        · rw [cut, Disk.read_setContent _ wellFormed listed, if_neg differs]

end Scan

end QuorumKit
