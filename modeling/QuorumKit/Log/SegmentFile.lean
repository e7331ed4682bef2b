/-
Segment files as lists of records.

`encodeAll` is the content that a sequence of appends leaves in a file, and
`offsetTable` the in-memory table that goes with it.  `Segment.load` rebuilds
the table from the content, and `Segment.get` reads every record back.
-/

import QuorumKit.Log.Segment

namespace QuorumKit

open Library

section File

variable {P : Type} (codec : EntryCodec P)

def encodeAll (records : List Record) : Bytes :=
  records.flatMap (fun record => record.encode codec)

/-- Offset and term of each record, from byte `start` on. -/
def offsetTable : Nat → List Record → List (Nat × Nat)
  | _, [] => []
  | start, record :: rest =>
      (start, record.term) :: offsetTable (start + (record.encode codec).length) rest

@[simp] theorem encodeAll_nil : encodeAll codec [] = [] := rfl

@[simp] theorem encodeAll_cons (record : Record) (rest : List Record) :
    encodeAll codec (record :: rest) = record.encode codec ++ encodeAll codec rest := by
  simp [encodeAll]

@[simp] theorem encodeAll_append (front back : List Record) :
    encodeAll codec (front ++ back) = encodeAll codec front ++ encodeAll codec back := by
  simp [encodeAll]

theorem length_le_encodeAll (records : List Record) :
    records.length ≤ (encodeAll codec records).length := by
  induction records with
  | nil => simp
  | cons record rest ih =>
      simp only [encodeAll_cons, List.length_append, List.length_cons,
        Record.encode_length, entryHeaderSize]
      omega

@[simp] theorem offsetTable_length (start : Nat) (records : List Record) :
    (offsetTable codec start records).length = records.length := by
  induction records generalizing start with
  | nil => rfl
  | cons record rest ih => simp [offsetTable, ih]

theorem offsetTable_getElem? (start : Nat) (front : List Record) (record : Record)
    (back : List Record) :
    (offsetTable codec start (front ++ record :: back))[front.length]? =
      some (start + (encodeAll codec front).length, record.term) := by
  induction front generalizing start with
  | nil => simp [offsetTable]
  | cons head rest ih =>
      simp only [List.cons_append, offsetTable, List.length_cons, List.getElem?_cons_succ,
        encodeAll_cons, List.length_append]
      rw [ih]
      simp only [Option.some.injEq, Prod.mk.injEq, and_true]
      omega

theorem offsetTable_append (start : Nat) (front back : List Record) :
    offsetTable codec start (front ++ back) =
      offsetTable codec start front ++
        offsetTable codec (start + (encodeAll codec front).length) back := by
  induction front generalizing start with
  | nil => simp [offsetTable]
  | cons record rest ih =>
      simp only [List.cons_append, offsetTable, encodeAll_cons, List.length_append, ih,
        Nat.add_assoc]

theorem offsetTable_take (start : Nat) (records : List Record) (count : Nat) :
    (offsetTable codec start records).take count =
      offsetTable codec start (records.take count) := by
  induction records generalizing start count with
  | nil => simp [offsetTable]
  | cons record rest ih =>
      cases count with
      | zero => simp [offsetTable]
      | succ count => simp [offsetTable, ih]

/-- The configuration history after the configuration records of a file. -/
def addConfigurations [DecidableEq P] : Int → List Record → ConfigurationManager P →
    ConfigurationManager P
  | _, [], manager => manager
  | index, record :: rest, manager =>
      let manager :=
        if record.type = .configuration then
          match codec.parseConfiguration record.data with
          | some (peers, oldPeers) =>
              manager.add
                { id := { index := index.toNat, term := record.term }
                  conf := Configuration.ofList peers
                  oldConf := Configuration.ofList (oldPeers.getD []) }
          | none => manager
        else manager
      addConfigurations (index + 1) rest manager

theorem EntryType.toNat_eq_configuration (type : EntryType) :
    type.toNat = EntryType.configuration.toNat ↔ type = .configuration := by
  cases type <;> simp [EntryType.toNat]

/-- One round of the loop of `load` over an entry that lies wholly in the file. -/
theorem loadLoop_record [DecidableEq P] {record : Record} (valid : record.Valid codec)
    (before after : Bytes) (fuel : Nat) (index : Int) (table : List (Nat × Nat))
    (manager : ConfigurationManager P) :
    Segment.loadLoop codec (before ++ (record.encode codec ++ after)) (fuel + 1) index
        before.length table manager =
      Segment.loadLoop codec ((before ++ record.encode codec) ++ after) fuel (index + 1)
        (before ++ record.encode codec).length (table ++ [(before.length, record.term)])
        (addConfigurations codec index [record] manager) := by
  have more : before.length < (before ++ (record.encode codec ++ after)).length := by
    simp only [List.length_append, Record.encode_length, entryHeaderSize]
    omega
  have header := loadEntry_encode codec valid before after entryHeaderSize false (by omega)
  have payload := loadEntry_encode codec valid before after
    (entryHeaderSize + record.data.length) true (by omega)
  have whole : ¬ (before ++ (record.encode codec ++ after)).length <
      before.length + (entryHeaderSize + (record.header codec).dataLen) := by
    simp only [List.length_append, Record.encode_length, Record.header]
    omega
  have stepLength : (before ++ record.encode codec).length =
      before.length + (entryHeaderSize + record.data.length) := by
    simp
  conv_lhs => unfold Segment.loadLoop
  rw [if_pos more, header, stepLength, List.append_assoc]
  simp only [whole, if_false]
  by_cases isConf : record.type = .configuration
  · have typed : (record.header codec).type = EntryType.configuration.toNat :=
      (EntryType.toNat_eq_configuration _).mpr isConf
    obtain ⟨parsed, parsedEq⟩ := Option.isSome_iff_exists.mp (valid.parses isConf)
    rw [if_pos typed]
    simp only [Record.header, payload, if_true, parsedEq, addConfigurations, isConf]
  · have typed : (record.header codec).type ≠ EntryType.configuration.toNat :=
      fun same => isConf ((EntryType.toNat_eq_configuration _).mp same)
    rw [if_neg typed]
    simp only [Record.header, addConfigurations, isConf, if_false]

theorem loadLoop_end [DecidableEq P] (file : Bytes) (fuel : Nat) (index : Int)
    (table : List (Nat × Nat)) (manager : ConfigurationManager P) :
    Segment.loadLoop codec file fuel index file.length table manager =
      ⟨0, false, file.length, table, manager⟩ := by
  cases fuel <;> simp [Segment.loadLoop]

/-- The loop of `load` reads all records and stops at the end of the file. -/
theorem loadLoop_encodeAll [DecidableEq P] (records : List Record) :
    ∀ (before : Bytes) (fuel : Nat) (index : Int) (table : List (Nat × Nat))
      (manager : ConfigurationManager P),
      (∀ record ∈ records, record.Valid codec) → records.length ≤ fuel →
      Segment.loadLoop codec (before ++ encodeAll codec records) fuel index before.length
          table manager =
        ⟨0, false, before.length + (encodeAll codec records).length,
          table ++ offsetTable codec before.length records,
          addConfigurations codec index records manager⟩ := by
  induction records with
  | nil =>
      intro before fuel index table manager _ _
      simpa [offsetTable, addConfigurations] using
        loadLoop_end codec before fuel index table manager
  | cons record rest ih =>
      intro before fuel index table manager valid enough
      cases fuel with
      | zero => simp at enough
      | succ fuel =>
          have restValid : ∀ record ∈ rest, record.Valid codec :=
            fun other member => valid other (List.mem_cons_of_mem _ member)
          have restEnough : rest.length ≤ fuel := by simpa using enough
          rw [encodeAll_cons, loadLoop_record codec (valid record List.mem_cons_self),
            ih _ _ _ _ _ restValid restEnough]
          simp [offsetTable, addConfigurations, Nat.add_assoc]

structure Segment.Holds (segment : Segment) (disk : LogDisk) (start : Int)
    (records : List Record) : Prop where
  first : segment.firstIndex = start
  last : segment.lastIndex + 1 = start + records.length
  bytes : segment.bytes = (encodeAll codec records).length
  table : segment.offsetAndTerm = offsetTable codec 0 records
  file : ∃ inode, segment.fd = some inode ∧
    disk.lookup segment.fileName = some inode ∧
    disk.content inode = encodeAll codec records

theorem read_eq_some {disk : LogDisk} {name : FileName} {content : Bytes}
    (found : disk.read name = some content) :
    ∃ inode, disk.lookup name = some inode ∧ disk.content inode = content := by
  simpa [Disk.read] using found

/-- `load` of a file of whole records.  A closed segment must promise the right
last index in its name. -/
theorem Segment.load_holds [DecidableEq P] (flags : LogFlags) (segment : Segment)
    {fs : LogFs} {records : List Record} (valid : ∀ record ∈ records, record.Valid codec)
    (found : fs.disk.read segment.fileName = some (encodeAll codec records))
    (promised : segment.isOpen = false →
      segment.lastIndex + 1 = segment.firstIndex + records.length)
    (manager : ConfigurationManager P) :
    ∃ loaded,
      segment.load codec flags manager fs =
          (0, loaded, addConfigurations codec segment.firstIndex records manager, fs) ∧
        loaded.Holds codec fs.disk segment.firstIndex records ∧
        loaded.isOpen = segment.isOpen ∧ loaded.checksumType = segment.checksumType := by
  obtain ⟨inode, listed, content⟩ := read_eq_some found
  have loop := loadLoop_encodeAll codec records [] (encodeAll codec records).length
    segment.firstIndex [] manager valid (length_le_encodeAll codec records)
  simp only [List.nil_append, List.length_nil, Nat.zero_add] at loop
  cases isOpen : segment.isOpen with
  | true =>
      refine ⟨{ segment with
        fd := some inode
        offsetAndTerm := offsetTable codec 0 records
        lastIndex := segment.firstIndex - 1 + records.length
        bytes := (encodeAll codec records).length }, ?_, ?_, isOpen, rfl⟩
      · unfold Segment.load
        simp [listed, content, loop, isOpen]
      · refine ⟨rfl, ?_, rfl, rfl, inode, rfl, ?_, content⟩
        · simp only
          omega
        · simpa [Segment.fileName, isOpen] using listed
  | false =>
      have last := promised isOpen
      have keeps : ¬ (segment.firstIndex - 1 + (records.length : Int) ≠ segment.lastIndex) := by
        omega
      refine ⟨{ segment with
        fd := some inode
        offsetAndTerm := offsetTable codec 0 records
        bytes := (encodeAll codec records).length }, ?_, ?_, isOpen, rfl⟩
      · unfold Segment.load
        simp [listed, content, loop, isOpen, keeps]
      · refine ⟨rfl, last, rfl, rfl, inode, rfl, ?_, content⟩
        simpa [Segment.fileName, isOpen] using listed

/-- A successful `append` writes one record behind the records that are there. -/
theorem Segment.Holds.append {segment grown : Segment} {fs written : LogFs} {start : Int}
    {records : List Record} {entry : LogEntry P Bytes}
    (holds : segment.Holds codec fs.disk start records)
    (appended : segment.append codec entry fs = (0, grown, written)) :
    ∃ record,
      Record.ofEntry? codec segment.checksumType entry = some record ∧
        (entry.id.index : Int) = start + records.length ∧
        grown.Holds codec written.disk start (records ++ [record]) ∧
        grown.isOpen = true ∧ grown.checksumType = segment.checksumType := by
  obtain ⟨inode, fd, listed, content⟩ := holds.file
  have startEq := holds.first
  have lastEq := holds.last
  unfold Segment.append at appended
  split at appended
  · exact absurd (Prod.ext_iff.mp appended).1 (by simp [EINVAL])
  · rename_i opened
    split at appended
    · exact absurd (Prod.ext_iff.mp appended).1 (by simp [ERANGE])
    · rename_i follows
      cases found : Record.ofEntry? codec segment.checksumType entry with
      | none => simp [found] at appended
      | some record =>
          simp only [found, fd, FileSystem.write] at appended
          cases fault : fs.faults fs.clock with
          | some count => simp [fault] at appended
          | none =>
              simp only [fault, Prod.mk.injEq, true_and] at appended
              obtain ⟨rfl, rfl⟩ := appended
              have term : record.term = entry.id.term := by
                unfold Record.ofEntry? at found
                cases payload : entryPayload codec entry with
                | none => simp [payload] at found
                | some data =>
                    rw [payload] at found
                    rw [← Option.some.inj found]
              refine ⟨record, rfl, by omega, ?_, not_not.mp opened, rfl⟩
              have sameName : (segment.grow entry.id.term (record.encode codec).length).fileName =
                  segment.fileName := by
                simp [Segment.fileName, Segment.grow, not_not.mp opened]
              refine ⟨startEq, ?_, ?_, ?_, inode, fd, by rw [sameName]; exact listed, ?_⟩
              · simp only [Segment.grow, List.length_append, List.length_singleton]
                push_cast
                omega
              · simp [Segment.grow, holds.bytes]
              · simp only [Segment.grow, offsetTable_append, offsetTable, holds.table,
                  holds.bytes, term, Nat.zero_add]
              · simp [FileSystem.record, Disk.apply, Disk.setContent, content]

/-- The entry that `get` makes of a record. -/
def Record.toEntry (record : Record) (index : Int) : Option (LogEntry P Bytes) :=
  let id : LogId := { index := index.toNat, term := record.term }
  match record.type with
  | .data => some { type := .data, id := id, data := record.data }
  | .noOp => some { type := .noOp, id := id, data := [] }
  | .configuration =>
      match codec.parseConfiguration record.data with
      | some (peers, oldPeers) =>
          some { type := .configuration, id := id, peers := some peers,
                 oldPeers := oldPeers, data := [] }
      | none => none
  | .unknown => none

theorem Record.toEntry_isSome {record : Record} (valid : record.Valid codec) (index : Int) :
    (record.toEntry codec index).isSome = true := by
  unfold Record.toEntry
  cases type : record.type with
  | unknown => exact absurd type valid.known
  | noOp => rfl
  | data => rfl
  | configuration =>
      obtain ⟨parsed, parsedEq⟩ := Option.isSome_iff_exists.mp (valid.parses type)
      simp [parsedEq]

theorem Segment.Holds.getMeta {segment : Segment} {disk : LogDisk} {firstIndex : Int}
    {front back : List Record} {record : Record}
    (holds : segment.Holds codec disk firstIndex (front ++ record :: back)) :
    segment.getMeta (firstIndex + front.length) =
      some ((encodeAll codec front).length, (record.encode codec).length, record.term) := by
  have firstEq := holds.first
  have lastEq := holds.last
  have tableEq := holds.table
  have bytesEq := holds.bytes
  simp only [List.length_append, List.length_cons] at lastEq
  have inside : ¬ (segment.lastIndex < firstIndex + (front.length : Int) ∨
      firstIndex + (front.length : Int) < segment.firstIndex) := by
    omega
  have position : (firstIndex + (front.length : Int) - segment.firstIndex).toNat =
      front.length := by
    omega
  have here := offsetTable_getElem? codec 0 front record back
  unfold Segment.getMeta
  simp only [inside, if_false, position, tableEq, here]
  cases back with
  | nil =>
      have atEnd : ¬ firstIndex + (front.length : Int) < segment.lastIndex := by
        simp only [List.length_nil] at lastEq
        omega
      simp only [atEnd, if_false, bytesEq, encodeAll_append, encodeAll_cons, encodeAll_nil,
        List.append_nil, List.length_append]
      simp
  | cons following rest =>
      have beforeEnd : firstIndex + (front.length : Int) < segment.lastIndex := by
        simp only [List.length_cons] at lastEq
        omega
      have following := offsetTable_getElem? codec 0 (front ++ [record]) following rest
      simp only [List.append_assoc, List.singleton_append, List.length_append,
        List.length_singleton, encodeAll_append, encodeAll_cons, encodeAll_nil,
        List.append_nil] at following
      simp only [beforeEnd, if_true, List.getD_eq_getElem?_getD, following]
      simp

theorem Segment.Holds.get {segment : Segment} {disk : LogDisk} {firstIndex : Int}
    {front back : List Record} {record : Record}
    (holds : segment.Holds codec disk firstIndex (front ++ record :: back))
    (valid : record.Valid codec) :
    segment.get codec (firstIndex + front.length) disk =
      record.toEntry codec (firstIndex + front.length) := by
  obtain ⟨inode, fd, _, content⟩ := holds.file
  have found := holds.getMeta
  have loaded := loadEntry_encode codec valid (encodeAll codec front)
    (encodeAll codec back) (record.encode codec).length true (by simp)
  have regroup : encodeAll codec (front ++ record :: back) =
      encodeAll codec front ++ (record.encode codec ++ encodeAll codec back) := by
    simp
  unfold Segment.get Record.toEntry
  simp only [found, fd, content, regroup, loaded, Record.header,
    EntryType.ofNat?_toNat, if_true]
  cases record.type <;> rfl

theorem Segment.Holds.getTerm {segment : Segment} {disk : LogDisk} {firstIndex : Int}
    {front back : List Record} {record : Record}
    (holds : segment.Holds codec disk firstIndex (front ++ record :: back)) :
    segment.getTerm (firstIndex + front.length) = record.term := by
  unfold Segment.getTerm
  rw [holds.getMeta]

end File

end QuorumKit
