/-
A segment file cut at an arbitrary byte, and `Segment::load` on what is left.

The process may stop anywhere inside a write, so the last entry of an open
segment may be torn.  `load` finds the entries that lie wholly in the file and
cuts the rest off.  Peers are written as text in a `ConfigurationPBMeta`, whose
wire form is a parameter.
-/

import QuorumKit.PeerId
import QuorumKit.Log.SegmentFile

namespace QuorumKit

open Library

/-- The `ConfigurationPBMeta` message, with the peers it lists as text. -/
structure ConfigurationPBMeta where
  serialize : List (List Char) → List (List Char) → Option Bytes
  parse : Bytes → Option (List (List Char) × List (List Char))
  parse_serialize : ∀ peers oldPeers bytes,
    serialize peers oldPeers = some bytes → parse bytes = some (peers, oldPeers)

section Configuration

variable {I : Type} (ips : IpText I) (message : ConfigurationPBMeta)

/-- `serialize_configuration_meta`. -/
def serializeConfigurationMeta (peers : List (PeerId I))
    (oldPeers : Option (List (PeerId I))) : Option Bytes :=
  message.serialize (peers.map (PeerId.toString ips))
    ((oldPeers.getD []).map (PeerId.toString ips))

/-- `parse_configuration_meta`; a peer that does not parse fails a `CHECK`. -/
def parseConfigurationMeta (data : Bytes) :
    Option (List (PeerId I) × Option (List (PeerId I))) :=
  match message.parse data with
  | none => none
  | some (peers, oldPeers) =>
      match peers.mapM (PeerId.parse ips), oldPeers.mapM (PeerId.parse ips) with
      | some peers, some oldPeers =>
          some (peers, if oldPeers.length > 0 then some oldPeers else none)
      | _, _ => none

theorem mapM_parse_toString (peers : List (PeerId I)) :
    (peers.map (PeerId.toString ips)).mapM (PeerId.parse ips) = some peers := by
  induction peers with
  | nil => rfl
  | cons peer rest ih =>
      rw [List.map_cons, List.mapM_cons, PeerId.parse_toString, ih]
      rfl

/-- The codec of a segment whose configurations list peers as text. -/
def peerCodec (checksum : Nat → Bytes → UInt32) : EntryCodec (PeerId I) where
  checksum := checksum
  serializeConfiguration := serializeConfigurationMeta ips message
  parseConfiguration := parseConfigurationMeta ips message
  parse_serialize := by
    intro peers oldPeers bytes serialized
    unfold parseConfigurationMeta
    rw [message.parse_serialize _ _ _ serialized]
    simp only [mapM_parse_toString]
    cases oldPeers with
    | none => rfl
    | some oldPeers =>
        cases oldPeers with
        | nil => rfl
        | cons peer rest => rfl

end Configuration

section Torn

variable {P : Type} (codec : EntryCodec P)

/-- The number of records that lie wholly in the first `cut` bytes. -/
def wholeRecords : List Record → Nat → Nat
  | [], _ => 0
  | record :: rest, cut =>
      if (record.encode codec).length ≤ cut then
        wholeRecords rest (cut - (record.encode codec).length) + 1
      else 0

theorem wholeRecords_le (records : List Record) (cut : Nat) :
    wholeRecords codec records cut ≤ records.length := by
  induction records generalizing cut with
  | nil => exact Nat.le_refl 0
  | cons record rest ih =>
      unfold wholeRecords
      split
      · exact Nat.succ_le_succ (ih _)
      · exact Nat.zero_le _

theorem lt_wholeRecords_iff (records : List Record) (cut : Nat) {position : Nat}
    (inside : position < records.length) :
    position < wholeRecords codec records cut ↔
      (encodeAll codec (records.take (position + 1))).length ≤ cut := by
  induction records generalizing cut position with
  | nil => contradiction
  | cons record rest ih =>
      rw [List.take_succ_cons, encodeAll_cons, List.length_append]
      unfold wholeRecords
      split
      · rename_i whole
        cases position with
        | zero =>
            simp only [List.take_zero, encodeAll_nil, List.length_nil]
            omega
        | succ position =>
            have tail := ih (cut - (record.encode codec).length)
              (Nat.lt_of_succ_lt_succ inside)
            omega
      · omega

theorem encodeAll_wholeRecords_le (records : List Record) (cut : Nat) :
    (encodeAll codec (records.take (wholeRecords codec records cut))).length ≤ cut := by
  cases count : wholeRecords codec records cut with
  | zero => simp
  | succ position =>
      have bounded := wholeRecords_le codec records cut
      exact (lt_wholeRecords_iff codec records cut (by omega)).mp (by omega)

/-- The loop of `load` stops at a torn entry, in its header or in its payload. -/
theorem loadLoop_torn [DecidableEq P] {record : Record} (valid : record.Valid codec)
    {kept : Nat} (torn : kept < (record.encode codec).length) (before : Bytes) (fuel : Nat)
    (index : Int) (table : List (Nat × Nat)) (manager : ConfigurationManager P) :
    Segment.loadLoop codec (before ++ (record.encode codec).take kept) fuel index before.length
        table manager =
      ⟨0, false, before.length, table, manager⟩ := by
  cases fuel with
  | zero => rfl
  | succ fuel =>
      have fileLength : (before ++ (record.encode codec).take kept).length =
          before.length + kept := by
        rw [List.length_append, List.length_take, Nat.min_eq_left (Nat.le_of_lt torn)]
      unfold Segment.loadLoop
      by_cases more : before.length < (before ++ (record.encode codec).take kept).length
      · rw [if_pos more]
        by_cases inHeader : kept < entryHeaderSize
        · have short : loadEntry codec (before ++ (record.encode codec).take kept)
              before.length entryHeaderSize false = .error 1 := by
            unfold loadEntry
            simp only [fileLength]
            rw [if_pos (by omega)]
          rw [short]
          rfl
        · -- the header is whole, its length points behind the end of the file
          have split : (record.encode codec).take kept =
              packHeader codec (record.header codec) ++
                record.data.take (kept - entryHeaderSize) := by
            unfold Record.encode
            rw [List.take_append, packHeader_length,
              List.take_of_length_le (by rw [packHeader_length]; omega)]
          have header := loadEntry_packHeader codec (Record.header_fits codec valid) before
            (record.data.take (kept - entryHeaderSize))
          have beyond : before.length + kept <
              before.length + (entryHeaderSize + (record.header codec).dataLen) := by
            rw [Record.encode_length] at torn
            change before.length + kept < before.length + (entryHeaderSize + record.data.length)
            omega
          rw [← split] at header
          rw [header]
          simp only [fileLength, if_pos beyond]
      · rw [if_neg more]

theorem loadLoop_cut [DecidableEq P] (records : List Record) :
    ∀ (cut : Nat) (before : Bytes) (fuel : Nat) (index : Int) (table : List (Nat × Nat))
      (manager : ConfigurationManager P),
      (∀ record ∈ records, record.Valid codec) → wholeRecords codec records cut ≤ fuel →
      Segment.loadLoop codec (before ++ (encodeAll codec records).take cut) fuel index
          before.length table manager =
        ⟨0, false,
          before.length +
            (encodeAll codec (records.take (wholeRecords codec records cut))).length,
          table ++ offsetTable codec before.length
            (records.take (wholeRecords codec records cut)),
          addConfigurations codec index (records.take (wholeRecords codec records cut))
            manager⟩ := by
  induction records with
  | nil =>
      intro cut before fuel index table manager _ _
      simpa [wholeRecords, offsetTable, addConfigurations] using
        loadLoop_end codec before fuel index table manager
  | cons record rest ih =>
      intro cut before fuel index table manager valid enough
      have recordValid := valid record List.mem_cons_self
      have restValid : ∀ record ∈ rest, record.Valid codec :=
        fun other member => valid other (List.mem_cons_of_mem _ member)
      rw [encodeAll_cons, List.take_append]
      by_cases whole : (record.encode codec).length ≤ cut
      · have count : wholeRecords codec (record :: rest) cut =
            wholeRecords codec rest (cut - (record.encode codec).length) + 1 := by
          rw [wholeRecords, if_pos whole]
        rw [count] at enough ⊢
        rw [List.take_of_length_le whole]
        cases fuel with
        | zero => contradiction
        | succ fuel =>
            rw [loadLoop_record codec recordValid,
              ih _ _ _ _ _ _ restValid (Nat.le_of_succ_le_succ enough)]
            simp [offsetTable, addConfigurations, Nat.add_assoc]
      · have count : wholeRecords codec (record :: rest) cut = 0 := by
          rw [wholeRecords, if_neg whole]
        have nothing : (encodeAll codec rest).take (cut - (record.encode codec).length) = [] := by
          rw [Nat.sub_eq_zero_of_le (Nat.le_of_not_le whole), List.take_zero]
        rw [count, nothing, List.append_nil,
          loadLoop_torn codec recordValid (Nat.lt_of_not_le whole)]
        simp [offsetTable, addConfigurations]

theorem encodeAll_take (records : List Record) {count cut : Nat}
    (fits : (encodeAll codec (records.take count)).length ≤ cut) :
    ((encodeAll codec records).take cut).take (encodeAll codec (records.take count)).length =
      encodeAll codec (records.take count) := by
  have split : encodeAll codec records =
      encodeAll codec (records.take count) ++ encodeAll codec (records.drop count) := by
    rw [← encodeAll_append, List.take_append_drop]
  rw [List.take_take, Nat.min_eq_left fits]
  conv_lhs => rw [split]
  exact List.take_left' rfl

/-- `load` of an open segment whose file was cut: the whole records are found and
the file ends with the last of them. -/
theorem Segment.load_cut [DecidableEq P] (flags : LogFlags) {segment : Segment} {fs : LogFs}
    {records : List Record} {cut : Nat} (isOpen : segment.isOpen = true)
    (valid : ∀ record ∈ records, record.Valid codec)
    (found : fs.disk.read segment.fileName = some ((encodeAll codec records).take cut))
    (working : fs.faults fs.clock = none) (manager : ConfigurationManager P) :
    ∃ loaded after,
      segment.load codec flags manager fs =
          (0, loaded, addConfigurations codec segment.firstIndex
            (records.take (wholeRecords codec records cut)) manager, after) ∧
        loaded.Holds codec after.disk segment.firstIndex
          (records.take (wholeRecords codec records cut)) ∧
        loaded.fileName = segment.fileName := by
  obtain ⟨inode, listed, content⟩ := read_eq_some found
  set kept := records.take (wholeRecords codec records cut) with keptEq
  have countLe := wholeRecords_le codec records cut
  have keptLength : kept.length = wholeRecords codec records cut := by
    rw [keptEq, List.length_take, Nat.min_eq_left countLe]
  have fits : (encodeAll codec kept).length ≤ cut := encodeAll_wholeRecords_le codec records cut
  have keptBytes : ((encodeAll codec records).take cut).take (encodeAll codec kept).length =
      encodeAll codec kept := encodeAll_take codec records fits
  have enough : wholeRecords codec records cut ≤ ((encodeAll codec records).take cut).length := by
    have short := length_le_encodeAll codec kept
    have prefixLength := congrArg List.length keptBytes
    rw [List.length_take] at prefixLength
    omega
  have loop := loadLoop_cut codec records cut [] ((encodeAll codec records).take cut).length
    segment.firstIndex [] manager valid enough
  simp only [List.nil_append, List.length_nil, Nat.zero_add, ← keptEq] at loop
  have loadedLast : segment.firstIndex - 1 + (kept.length : Int) + 1 =
      segment.firstIndex + kept.length := by omega
  generalize (encodeAll codec records).take cut = file at content keptBytes loop
  by_cases exactEnd : (encodeAll codec kept).length = file.length
  · refine ⟨{ segment with
      fd := some inode
      offsetAndTerm := offsetTable codec 0 kept
      lastIndex := segment.firstIndex - 1 + kept.length
      bytes := (encodeAll codec kept).length }, fs, ?_, ?_, ?_⟩
    · unfold Segment.load
      simp [listed, content, loop, isOpen, exactEnd]
    · refine ⟨rfl, loadedLast, rfl, rfl, inode, rfl, ?_, ?_⟩
      · simpa [Segment.fileName, isOpen] using listed
      · rw [content, ← keptBytes, exactEnd, List.take_length]
    · simp [Segment.fileName, isOpen]
  · refine ⟨{ segment with
      fd := some inode
      offsetAndTerm := offsetTable codec 0 kept
      lastIndex := segment.firstIndex - 1 + kept.length
      bytes := (encodeAll codec kept).length },
      fs.record (.truncate inode (encodeAll codec kept).length), ?_, ?_, ?_⟩
    · unfold Segment.load
      simp [listed, content, loop, isOpen, exactEnd, FileSystem.perform, working]
    · refine ⟨rfl, loadedLast, rfl, rfl, inode, rfl, ?_, ?_⟩
      · simpa [Segment.fileName, isOpen, FileSystem.record, Disk.apply] using listed
      · simp [FileSystem.record, Disk.apply, Disk.setContent, content, keptBytes]
    · simp [Segment.fileName, isOpen]

/-- `append` for one entry after the other, up to the first error. -/
def Segment.appendAll : List (LogEntry P Bytes) → Segment → LogFs → Int × Segment × LogFs
  | [], segment, fs => (0, segment, fs)
  | entry :: rest, segment, fs =>
      match segment.append codec entry fs with
      | (ret, segment, fs) =>
          if ret ≠ 0 then (ret, segment, fs) else appendAll rest segment fs

/-- The records that a segment with this checksum type writes for the entries. -/
def Written (checksumType : Nat) : List (LogEntry P Bytes) → List Record → Prop :=
  List.Forall₂ (fun entry record => Record.ofEntry? codec checksumType entry = some record)

theorem Segment.appendAll_holds (entries : List (LogEntry P Bytes)) :
    ∀ {segment full : Segment} {fs written : LogFs} {start : Int} {records : List Record},
      segment.Holds codec fs.disk start records → segment.isOpen = true →
      segment.appendAll codec entries fs = (0, full, written) →
      ∃ added, Written codec segment.checksumType entries added ∧
        (∀ (position : Nat) entry, entries[position]? = some entry →
          (entry.id.index : Int) = start + records.length + position) ∧
        full.Holds codec written.disk start (records ++ added) ∧ full.isOpen = true := by
  induction entries with
  | nil =>
      intro segment full fs written start records holds isOpen appended
      simp only [appendAll, Prod.mk.injEq, true_and] at appended
      obtain ⟨rfl, rfl⟩ := appended
      refine ⟨[], List.Forall₂.nil, ?_, by rwa [List.append_nil], isOpen⟩
      intro position entry found
      simp at found
  | cons entry rest ih =>
      intro segment full fs written start records holds isOpen appended
      unfold appendAll at appended
      rcases outcome : segment.append codec entry fs with ⟨ret, grown, next⟩
      rw [outcome] at appended
      simp only at appended
      by_cases failed : ret ≠ 0
      · rw [if_pos failed] at appended
        exact absurd (Prod.ext_iff.mp appended).1 failed
      · rw [if_neg failed] at appended
        rw [not_not.mp failed] at outcome
        obtain ⟨record, encoded, index, grownHolds, stillOpen, sameChecksum⟩ :=
          holds.append codec outcome
        obtain ⟨added, addedWritten, indexes, fullHolds, fullOpen⟩ :=
          ih grownHolds stillOpen appended
        rw [sameChecksum] at addedWritten
        refine ⟨record :: added, List.Forall₂.cons encoded addedWritten, ?_, ?_, fullOpen⟩
        · intro position other found
          cases position with
          | zero =>
              rw [List.getElem?_cons_zero, Option.some.injEq] at found
              rw [← found, index]
              simp
          | succ position =>
              rw [List.getElem?_cons_succ] at found
              rw [indexes position other found, List.length_append, List.length_singleton]
              push_cast
              omega
        · rwa [List.append_assoc] at fullHolds

def entrySize (entry : LogEntry P Bytes) : Nat :=
  entryHeaderSize + ((entryPayload codec entry).getD []).length

/-- The byte behind the first `count` entries. -/
def entriesEnd (entries : List (LogEntry P Bytes)) (count : Nat) : Nat :=
  ((entries.take count).map (entrySize codec)).sum

theorem Written.valid {checksumType : Nat} {entries : List (LogEntry P Bytes)}
    {records : List Record} (known : checksumType < 2)
    (written : Written codec checksumType entries records)
    (small : ∀ entry ∈ entries, ∀ payload, entryPayload codec entry = some payload →
      payload.length < 2 ^ 32)
    (terms : ∀ entry ∈ entries, entry.id.term < 2 ^ 64) :
    ∀ record ∈ records, record.Valid codec := by
  induction written with
  | nil =>
      intro record member
      contradiction
  | @cons entry record entries records encoded _ ih =>
      intro other member
      rcases List.mem_cons.mp member with rfl | later
      · refine Record.valid_of_ofEntry? codec known encoded (terms entry List.mem_cons_self) ?_
        obtain ⟨payload, isPayload, isRecord⟩ := Option.map_eq_some_iff.mp encoded
        rw [← isRecord]
        exact small entry List.mem_cons_self payload isPayload
      · exact ih (fun entry member => small entry (List.mem_cons_of_mem _ member))
          (fun entry member => terms entry (List.mem_cons_of_mem _ member)) other later

theorem Written.encodeAll_length {checksumType : Nat} {entries : List (LogEntry P Bytes)}
    {records : List Record} (written : Written codec checksumType entries records)
    (count : Nat) :
    (encodeAll codec (records.take count)).length = entriesEnd codec entries count := by
  induction written generalizing count with
  | nil => simp [entriesEnd]
  | @cons entry record entries records encoded _ ih =>
      cases count with
      | zero => simp [entriesEnd]
      | succ count =>
          have size : (record.encode codec).length = entrySize codec entry := by
            unfold Record.ofEntry? at encoded
            cases payload : entryPayload codec entry with
            | none => simp [payload] at encoded
            | some data =>
                rw [payload] at encoded
                rw [← Option.some.inj encoded]
                simp [entrySize, payload]
          rw [List.take_succ_cons, encodeAll_cons, List.length_append, ih, size]
          simp [entriesEnd]

end Torn

/-- What `append` keeps of an entry: what its type carries, and an empty list of
old peers as none. -/
def LogEntry.stored {P : Type} (entry : LogEntry P Bytes) : LogEntry P Bytes :=
  match entry.type with
  | .data => { type := .data, id := entry.id, data := entry.data }
  | .configuration =>
      { type := .configuration, id := entry.id, peers := entry.peers,
        oldPeers := keptOldPeers entry.oldPeers, data := [] }
  | type => { type := type, id := entry.id, data := [] }

theorem LogEntry.stored_eq_self {P : Type} (entry : LogEntry P Bytes)
    (data : entry.type ≠ .data → entry.data = [])
    (peers : entry.type ≠ .configuration → entry.peers = none ∧ entry.oldPeers = none)
    (oldPeers : entry.oldPeers ≠ some []) : entry.stored = entry := by
  rcases entry with ⟨type, id, entryPeers, entryOldPeers, entryData⟩
  cases type with
  | data =>
      have absent := peers (by simp)
      simp only at absent
      simp [LogEntry.stored, absent.1, absent.2]
  | configuration =>
      have empty := data (by simp)
      simp only at empty oldPeers
      cases entryOldPeers with
      | none => simp [LogEntry.stored, keptOldPeers, empty]
      | some former =>
          cases former with
          | nil => exact absurd rfl oldPeers
          | cons peer rest => simp [LogEntry.stored, keptOldPeers, empty]
  | noOp =>
      have absent := peers (by simp)
      have empty := data (by simp)
      simp only at absent empty
      simp [LogEntry.stored, absent.1, absent.2, empty]
  | unknown =>
      have absent := peers (by simp)
      have empty := data (by simp)
      simp only at absent empty
      simp [LogEntry.stored, absent.1, absent.2, empty]

theorem Record.toEntry_ofEntry? {P : Type} (codec : EntryCodec P) {checksumType : Nat}
    {entry : LogEntry P Bytes} {record : Record} {index : Int}
    (written : Record.ofEntry? codec checksumType entry = some record)
    (atIndex : (entry.id.index : Int) = index) :
    record.toEntry codec index = some entry.stored := by
  subst atIndex
  unfold Record.ofEntry? at written
  cases payload : entryPayload codec entry with
  | none => simp [payload] at written
  | some data =>
      rw [payload] at written
      rw [← Option.some.inj written]
      unfold entryPayload at payload
      cases isType : entry.type with
      | unknown => simp [isType] at payload
      | noOp => simp [Record.toEntry, LogEntry.stored, isType]
      | data =>
          simp only [isType, Option.some.injEq] at payload
          simp [Record.toEntry, LogEntry.stored, isType, payload]
      | configuration =>
          cases listed : entry.peers with
          | none => simp [isType, listed] at payload
          | some peers =>
              simp only [isType, listed] at payload
              simp [Record.toEntry, LogEntry.stored, isType, listed,
                codec.parse_serialize _ _ _ payload]

/-- A loaded segment and its file stand for the first `count` of the entries:
those that end at or before byte `cut` of `content`. -/
structure Segment.Recovers {P : Type} (codec : EntryCodec P) (loaded : Segment)
    (disk : LogDisk) (firstIndex : Int) (entries : List (LogEntry P Bytes)) (content : Bytes)
    (cut count : Nat) : Prop where
  count_le : count ≤ entries.length
  whole : ∀ position, position < entries.length →
    (position < count ↔ entriesEnd codec entries (position + 1) ≤ cut)
  first : loaded.firstIndex = firstIndex
  last : loaded.lastIndex + 1 = firstIndex + count
  get : ∀ position entry, position < count → entries[position]? = some entry →
    loaded.get codec (firstIndex + position) disk = some entry.stored
  outside : ∀ index, index < firstIndex ∨ firstIndex + count ≤ index →
    loaded.get codec index disk = none
  bytes : loaded.bytes = entriesEnd codec entries count
  file : disk.read (.inprogress firstIndex) =
    some (content.take (entriesEnd codec entries count))

theorem Segment.create_holds {P : Type} (codec : EntryCodec P) {segment created : Segment}
    {fs opened : LogFs} (isOpen : segment.isOpen = true)
    (fresh : segment.lastIndex + 1 = segment.firstIndex) (noBytes : segment.bytes = 0)
    (noTable : segment.offsetAndTerm = [])
    (success : segment.create fs = (0, created, opened)) :
    created.Holds codec opened.disk segment.firstIndex [] ∧ created.isOpen = true ∧
      created.checksumType = segment.checksumType := by
  unfold create at success
  rw [if_pos isOpen] at success
  unfold FileSystem.create at success
  cases fault : fs.faults fs.clock with
  | some count => simp [fault] at success
  | none =>
      simp only [fault, Disk.lookup_create, if_true, Prod.mk.injEq, true_and] at success
      obtain ⟨rfl, rfl⟩ := success
      refine ⟨⟨rfl, by simpa using fresh, noBytes, noTable, _, rfl, ?_, ?_⟩, isOpen, rfl⟩
      · simp [Segment.fileName, isOpen, FileSystem.record, Disk.lookup_create]
      · unfold FileSystem.record Disk.createdInode
        simp only [Disk.apply]
        cases fs.disk.lookup (.inprogress segment.firstIndex) with
        | none => simp [Disk.setContent]
        | some inode => simp [Disk.setContent]

theorem Segment.Holds.get_outside {P : Type} {codec : EntryCodec P} {segment : Segment}
    {disk : LogDisk} {start : Int} {records : List Record}
    (holds : segment.Holds codec disk start records) {index : Int}
    (outside : index < start ∨ start + records.length ≤ index) :
    segment.get codec index disk = none := by
  have first := holds.first
  have last := holds.last
  have noMeta : segment.getMeta index = none := by
    unfold Segment.getMeta
    rw [if_pos (by omega)]
  unfold Segment.get
  rw [noMeta]

theorem Segment.Holds.recovers {P : Type} {codec : EntryCodec P} {loaded : Segment}
    {disk : LogDisk} {firstIndex : Int} {checksumType cut : Nat}
    {entries : List (LogEntry P Bytes)} {records : List Record}
    (holds : loaded.Holds codec disk firstIndex
      (records.take (wholeRecords codec records cut)))
    (named : loaded.fileName = .inprogress firstIndex)
    (written : Written codec checksumType entries records)
    (indexes : ∀ (position : Nat) entry, entries[position]? = some entry →
      (entry.id.index : Int) = firstIndex + position)
    (valid : ∀ record ∈ records, record.Valid codec) :
    loaded.Recovers codec disk firstIndex entries (encodeAll codec records) cut
      (wholeRecords codec records cut) := by
  have sameLength : entries.length = records.length := written.length_eq
  have bounded := wholeRecords_le codec records cut
  have keptLength : (records.take (wholeRecords codec records cut)).length =
      wholeRecords codec records cut := by
    rw [List.length_take, Nat.min_eq_left bounded]
  have ends := written.encodeAll_length codec (wholeRecords codec records cut)
  refine ⟨sameLength ▸ bounded, ?_, holds.first, ?_, ?_, ?_, holds.bytes.trans ends, ?_⟩
  · intro position inside
    rw [← written.encodeAll_length codec (position + 1)]
    exact lt_wholeRecords_iff codec records cut (sameLength ▸ inside)
  · rw [holds.last, keptLength]
  · intro position entry below found
    have inside : position < records.length := Nat.lt_of_lt_of_le below bounded
    have inEntries : position < entries.length := sameLength ▸ inside
    have entryEq : entries[position] = entry := by
      rw [List.getElem?_eq_getElem inEntries] at found
      exact Option.some.inj found
    have encoded : Record.ofEntry? codec checksumType entry = some records[position] := by
      rw [← entryEq]
      exact written.get inEntries inside
    have split : records.take (wholeRecords codec records cut) =
        records.take position ++ records[position] ::
          (records.take (wholeRecords codec records cut)).drop (position + 1) := by
      have kept : position < (records.take (wholeRecords codec records cut)).length := by omega
      have atPosition : (records.take (wholeRecords codec records cut))[position] =
          records[position] := List.getElem_take ..
      conv_lhs => rw [← List.take_append_drop position
        (records.take (wholeRecords codec records cut))]
      rw [List.drop_eq_getElem_cons kept, atPosition, List.take_take,
        Nat.min_eq_left (Nat.le_of_lt below)]
    have frontLength : (records.take position).length = position := by
      rw [List.length_take, Nat.min_eq_left (Nat.le_of_lt inside)]
    rw [split] at holds
    have read := holds.get codec (valid _ (List.getElem_mem inside))
    rw [frontLength] at read
    rw [read]
    exact Record.toEntry_ofEntry? codec encoded (indexes position entry found)
  · intro index outside
    exact holds.get_outside (by rwa [keptLength])
  · obtain ⟨inode, _, listed, content⟩ := holds.file
    have fits := encodeAll_wholeRecords_le codec records cut
    rw [named] at listed
    unfold Disk.read
    rw [listed, Option.map_some, content, ← ends]
    conv_lhs => rw [← encodeAll_take codec records (Nat.le_refl _), List.take_take, Nat.min_self]

section Load

variable {I : Type} [DecidableEq I] (ips : IpText I) (message : ConfigurationPBMeta)
variable (checksum : Nat → Bytes → UInt32) (flags : LogFlags)

/-- Entries are appended to a new segment, the file is cut at any byte, and
`load` recovers exactly the entries that are whole. -/
theorem Segment.load_recovers {firstIndex : Int} {checksumType reloadType : Nat}
    {entries : List (LogEntry (PeerId I) Bytes)} {fs opened written reopened : LogFs}
    {segment full : Segment} {content : Bytes} (cut : Nat)
    (manager : ConfigurationManager (PeerId I))
    (known : checksumType < 2)
    (created : (newOpen firstIndex checksumType).create fs = (0, segment, opened))
    (appended : segment.appendAll (peerCodec ips message checksum) entries opened =
      (0, full, written))
    (small : ∀ entry ∈ entries, ∀ payload,
      entryPayload (peerCodec ips message checksum) entry = some payload →
        payload.length < 2 ^ 32)
    (terms : ∀ entry ∈ entries, entry.id.term < 2 ^ 64)
    (file : written.disk.read (.inprogress firstIndex) = some content)
    (cutFile : reopened.disk.read (.inprogress firstIndex) = some (content.take cut))
    (working : reopened.faults reopened.clock = none) :
    ∃ loaded manager' after count,
      (newOpen firstIndex reloadType).load (peerCodec ips message checksum) flags manager
          reopened = (0, loaded, manager', after) ∧
        loaded.Recovers (peerCodec ips message checksum) after.disk firstIndex entries content
          cut count := by
  obtain ⟨fresh, isOpen, sameChecksum⟩ :=
    Segment.create_holds (peerCodec ips message checksum) rfl (by simp [newOpen]) rfl rfl created
  obtain ⟨records, encoded, indexes, holds, fullOpen⟩ :=
    Segment.appendAll_holds (peerCodec ips message checksum) entries fresh isOpen appended
  simp only [newOpen, List.nil_append, List.length_nil, Nat.cast_zero, Int.add_zero,
    sameChecksum] at encoded indexes holds
  have valid := encoded.valid (peerCodec ips message checksum) known small terms
  obtain ⟨inode, fd, listed, fileContent⟩ := holds.file
  have contentEq : content = encodeAll (peerCodec ips message checksum) records := by
    have named : full.fileName = .inprogress firstIndex := by
      simp [Segment.fileName, fullOpen, holds.first]
    rw [named] at listed
    simpa [Disk.read, listed, fileContent] using file.symm
  subst contentEq
  have inProgress : (newOpen firstIndex reloadType).isOpen = true := rfl
  obtain ⟨loaded, after, loads, loadedHolds, named⟩ :=
    Segment.load_cut (peerCodec ips message checksum) flags inProgress valid cutFile working manager
  exact ⟨loaded, _, after, _, loads, loadedHolds.recovers named encoded indexes valid⟩

end Load

def hostText : Bool → List Char
  | true => ['1', '0', '.', '0', '.', '0', '.', '1']
  | false => ['1', '0', '.', '0', '.', '0', '.', '2']

def twoHosts : IpText Bool where
  ip2str := hostText
  str2ip text :=
    if text = hostText true then some true
    else if text = hostText false then some false else none
  str2ip_ip2str := by decide
  nonempty := by decide
  noColon := by decide
  short := by decide

def firstPeer : PeerId Bool := { ip := true, port := 8000, idx := 0, role := .replica }

/-- The wire form of a configuration of `firstPeer` alone: field 1, 17 bytes. -/
def firstPeerMeta : Bytes :=
  0x0a :: 17 :: (firstPeer.toString twoHosts).map (fun char => UInt8.ofNat char.toNat)

def firstPeerMessage : ConfigurationPBMeta where
  serialize peers oldPeers :=
    if peers = [firstPeer.toString twoHosts] ∧ oldPeers = [] then some firstPeerMeta else none
  parse data :=
    if data = firstPeerMeta then some ([firstPeer.toString twoHosts], []) else none
  parse_serialize := by
    intro peers oldPeers bytes serialized
    split at serialized
    · rename_i same
      rw [← Option.some.inj serialized, if_pos rfl, same.1, same.2]
    · contradiction

def constantCodec : EntryCodec (PeerId Bool) := peerCodec twoHosts firstPeerMessage (fun _ _ => 0)

def mixedEntries : List (LogEntry (PeerId Bool) Bytes) :=
  [{ type := .data, id := ⟨5, 2⟩, data := [1, 2, 3] },
    { type := .noOp, id := ⟨6, 2⟩, data := [] },
    { type := .configuration, id := ⟨7, 3⟩, peers := some [firstPeer], data := [] }]

def mixedCreated : Int × Segment × LogFs := (Segment.newOpen 5 0).create {}

def mixedWritten : Int × Segment × LogFs :=
  mixedCreated.2.1.appendAll constantCodec mixedEntries mixedCreated.2.2

example : entriesEnd constantCodec mixedEntries 2 = 51 ∧
    entriesEnd constantCodec mixedEntries 3 = 94 := by
  decide

/-- The header of the configuration entry is whole, its payload is not. -/
theorem Segment.load_recovers_tornConfiguration :
    ∃ loaded manager' after count,
      (newOpen 5 0).load constantCodec {} ConfigurationManager.init
          (mixedWritten.2.2.record (.truncate 0 80)) = (0, loaded, manager', after) ∧
        loaded.Recovers constantCodec after.disk 5 mixedEntries
          (mixedWritten.2.2.disk.content 0) 80 count :=
  Segment.load_recovers twoHosts firstPeerMessage (fun _ _ => 0) {} 80
    ConfigurationManager.init (by decide)
    (show (newOpen 5 0).create {} = (0, mixedCreated.2.1, mixedCreated.2.2) from rfl)
    (show mixedCreated.2.1.appendAll constantCodec mixedEntries mixedCreated.2.2 =
      (0, mixedWritten.2.1, mixedWritten.2.2) from Prod.ext (by decide) rfl)
    (by decide) (by decide) rfl rfl rfl

end QuorumKit
