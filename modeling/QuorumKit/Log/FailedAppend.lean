/-
An `append` that fails in the middle of its write, and the segment afterwards.

The table and the byte count of a segment move only at the end of `append`, while the bytes
that were written stay in the file.  The entries before them are read as before and `load` cuts
them off, but what is appended behind them cannot be read.
-/

import QuorumKit.Log.CorruptConfiguration

namespace QuorumKit

open Library

variable {P : Type} (codec : EntryCodec P)

/-! ### Later appends -/

/-- `append` for each of the entries.  The first component lists those for which it returns
success. -/
def Segment.appendEach : List (LogEntry P Bytes) → Segment → LogFs →
    List (LogEntry P Bytes) × Segment × LogFs
  | [], segment, fs => ([], segment, fs)
  | entry :: rest, segment, fs =>
      match segment.append codec entry fs with
      | (ret, segment, fs) =>
          match appendEach rest segment fs with
          | (succeeded, segment, fs) =>
              (if ret = 0 then entry :: succeeded else succeeded, segment, fs)

/-- An entry whose term is an `int64_t` and whose payload has a 32-bit length. -/
structure FitsRecord (entry : LogEntry P Bytes) : Prop where
  term : entry.id.term < 2 ^ 63
  payload : ∀ data, entryPayload codec entry = some data → data.length < 2 ^ 32

def FailsWithoutBytes (fs : LogFs) : Prop :=
  ∀ clock count, fs.faults clock = some count → count = 0

structure KeepsEntries (segment : Segment) (disk : LogDisk) (later : Segment) (laterDisk : LogDisk)
    (entries : List (LogEntry P Bytes)) : Prop where
  before : ∀ index entry, segment.get codec index disk = some entry →
    later.get codec index laterDisk = some entry
  appended : ∀ entry ∈ entries, later.get codec entry.id.index laterDisk = some entry.stored

/-- Every later `append` that returns success gives an entry that `get` returns unchanged, and
that a reload finds again. -/
def TakesAppends [DecidableEq P] (flags : LogFlags) (segment : Segment) (disk : LogDisk) : Prop :=
  ∀ (fs written : LogFs) (entries succeeded : List (LogEntry P Bytes)) (last : Segment),
    fs.disk = disk → FailsWithoutBytes fs → (∀ entry ∈ entries, FitsRecord codec entry) →
    segment.appendEach codec entries fs = (succeeded, last, written) →
      KeepsEntries codec segment disk last written.disk succeeded ∧
        ∀ reloadType manager, ∃ loaded found,
          (Segment.newOpen segment.firstIndex reloadType).load codec flags manager written =
              (0, loaded, found, written) ∧
            KeepsEntries codec segment disk loaded written.disk succeeded

/-- The call fails before it writes, or in a write that writes no byte. -/
def WritesNoByte (segment : Segment) (entry : LogEntry P Bytes) (fs : LogFs) : Prop :=
  (entry.id.index : Int) ≠ segment.lastIndex + 1 ∨
    Record.ofEntry? codec segment.checksumType entry = none ∨ fs.faults fs.clock = some 0

theorem apply_write_nil (disk : LogDisk) (inode : Nat) :
    disk.apply (.write inode []) = disk := by
  simp [Disk.apply, Disk.setContent]

theorem Segment.append_faults (segment : Segment) (entry : LogEntry P Bytes) (fs : LogFs) :
    (segment.append codec entry fs).2.2.faults = fs.faults := by
  unfold append FileSystem.write
  by_cases closed : ¬ segment.isOpen = true
  · rw [if_pos closed]
  rw [if_neg closed]
  by_cases gap : (entry.id.index : Int) ≠ segment.lastIndex + 1
  · rw [if_pos gap]
  rw [if_neg gap]
  cases Record.ofEntry? codec segment.checksumType entry with
  | none => rfl
  | some record =>
      cases segment.fd with
      | none => rfl
      | some inode =>
          cases fs.faults fs.clock with
          | none => rfl
          | some count => rfl

/-- A failed `append` leaves the segment as it was and the first bytes of the entry in the
file. -/
theorem Segment.append_failed {segment left : Segment} {fs failed : LogFs}
    {entry : LogEntry P Bytes} {ret : Int} {inode : Nat} (isOpen : segment.isOpen = true)
    (fd : segment.fd = some inode) (appended : segment.append codec entry fs = (ret, left, failed))
    (fails : ret ≠ 0) :
    left = segment ∧
      ((((entry.id.index : Int) ≠ segment.lastIndex + 1 ∨
          Record.ofEntry? codec segment.checksumType entry = none) ∧ failed.disk = fs.disk) ∨
        (entry.id.index : Int) = segment.lastIndex + 1 ∧ ∃ record count,
          Record.ofEntry? codec segment.checksumType entry = some record ∧
            fs.faults fs.clock = some count ∧
            failed.disk = fs.disk.apply (.write inode ((record.encode codec).take count))) := by
  unfold append FileSystem.write at appended
  rw [if_neg (not_not.mpr isOpen)] at appended
  by_cases gap : (entry.id.index : Int) ≠ segment.lastIndex + 1
  · rw [if_pos gap] at appended
    cases appended
    exact ⟨rfl, Or.inl ⟨Or.inl gap, rfl⟩⟩
  rw [if_neg gap] at appended
  cases found : Record.ofEntry? codec segment.checksumType entry with
  | none =>
      rw [found] at appended
      cases appended
      exact ⟨rfl, Or.inl ⟨Or.inr rfl, rfl⟩⟩
  | some record =>
      rw [found, fd] at appended
      cases fault : fs.faults fs.clock with
      | none =>
          simp only [fault] at appended
          cases appended
          exact absurd rfl fails
      | some count =>
          simp only [fault] at appended
          cases appended
          exact ⟨rfl, Or.inr ⟨not_not.mp gap, record, count, rfl, rfl, rfl⟩⟩

theorem Segment.append_noByte {segment left : Segment} {fs failed : LogFs}
    {entry : LogEntry P Bytes} {ret : Int} {inode : Nat} (isOpen : segment.isOpen = true)
    (fd : segment.fd = some inode) (appended : segment.append codec entry fs = (ret, left, failed))
    (fails : ret ≠ 0) (noByte : WritesNoByte codec segment entry fs) :
    left = segment ∧ failed.disk = fs.disk := by
  obtain ⟨same, before | ⟨follows, record, count, found, fault, disk⟩⟩ :=
    Segment.append_failed codec isOpen fd appended fails
  · exact ⟨same, before.2⟩
  · refine ⟨same, ?_⟩
    rcases noByte with gap | unwritable | nothing
    · exact absurd follows gap
    · rw [unwritable] at found
      contradiction
    · rw [fault, Option.some_inj] at nothing
      rw [disk, nothing, List.take_zero, apply_write_nil]

/-! ### A segment that stands for its file -/

theorem Segment.Holds.mem_of_get {segment : Segment} {disk : LogDisk} {start : Int}
    {records : List Record} (holds : segment.Holds codec disk start records) {index : Int}
    {entry : LogEntry P Bytes} (found : segment.get codec index disk = some entry) :
    ∃ front record back, records = front ++ record :: back ∧ index = start + front.length := by
  have inside : start ≤ index ∧ index < start + records.length := by
    by_contra outside
    have nothing := holds.get_outside (show index < start ∨ start + records.length ≤ index by omega)
    rw [nothing] at found
    contradiction
  have below : (index - start).toNat < records.length := by omega
  refine ⟨records.take (index - start).toNat, records[(index - start).toNat],
    records.drop ((index - start).toNat + 1), ?_, ?_⟩
  · rw [← List.drop_eq_getElem_cons below, List.take_append_drop]
  · rw [List.length_take]
    omega

theorem Segment.Holds.keepsEntries {segment later : Segment} {disk laterDisk : LogDisk}
    {start : Int} {checksumType : Nat} {records added : List Record}
    {entries : List (LogEntry P Bytes)} (holds : segment.Holds codec disk start records)
    (laterHolds : later.Holds codec laterDisk start (records ++ added))
    (written : Written codec checksumType entries added)
    (indexes : ∀ (position : Nat) entry, entries[position]? = some entry →
      (entry.id.index : Int) = start + records.length + position)
    (valid : ∀ record ∈ records ++ added, record.Valid codec) :
    KeepsEntries codec segment disk later laterDisk entries := by
  refine ⟨?_, ?_⟩
  · intro index entry found
    obtain ⟨front, record, back, isRecords, isIndex⟩ := holds.mem_of_get codec found
    have recordValid : record.Valid codec := valid record (by simp [isRecords])
    rw [isRecords] at holds
    rw [isRecords, List.append_assoc, List.cons_append] at laterHolds
    rw [isIndex] at found ⊢
    rw [holds.get codec recordValid] at found
    rw [laterHolds.get codec recordValid, found]
  · intro entry member
    obtain ⟨position, inside, isEntry⟩ := List.getElem_of_mem member
    have below : position < added.length := by
      rw [← written.length_eq]
      exact inside
    have encoded := written.get inside below
    have atIndex := indexes position entry (by rw [List.getElem?_eq_getElem inside, isEntry])
    simp only [List.get_eq_getElem, isEntry] at encoded
    have regroup : records ++ added =
        (records ++ added.take position) ++ added[position] :: added.drop (position + 1) := by
      rw [List.append_assoc, ← List.drop_eq_getElem_cons below, List.take_append_drop]
    have frontLength : ((records ++ added.take position).length : Int) =
        records.length + position := by
      rw [List.length_append, List.length_take, Nat.min_eq_left (Nat.le_of_lt below)]
      push_cast
      rfl
    have recordValid : (added[position]).Valid codec :=
      valid _ (List.mem_append_right _ (List.getElem_mem below))
    rw [regroup] at laterHolds
    have found := laterHolds.get codec recordValid
    rw [frontLength, ← Int.add_assoc, ← atIndex] at found
    rw [found]
    exact Record.toEntry_ofEntry? codec encoded rfl

theorem Segment.appendEach_holds (entries : List (LogEntry P Bytes)) :
    ∀ {segment last : Segment} {fs written : LogFs} {start : Int} {records : List Record}
      {succeeded : List (LogEntry P Bytes)},
      segment.Holds codec fs.disk start records → segment.isOpen = true → FailsWithoutBytes fs →
      segment.appendEach codec entries fs = (succeeded, last, written) →
      ∃ added, Written codec segment.checksumType succeeded added ∧
        (∀ (position : Nat) entry, succeeded[position]? = some entry →
          (entry.id.index : Int) = start + records.length + position) ∧
        last.Holds codec written.disk start (records ++ added) ∧ last.isOpen = true ∧
        succeeded.Sublist entries := by
  induction entries with
  | nil =>
      intro segment last fs written start records succeeded holds isOpen _ appended
      cases appended
      refine ⟨[], List.Forall₂.nil, ?_, by rwa [List.append_nil], isOpen, List.Sublist.slnil⟩
      intro position entry found
      simp at found
  | cons entry rest ih =>
      intro segment last fs written start records succeeded holds isOpen clean appended
      cases outcome : segment.append codec entry fs with
      | mk ret result =>
          rcases result with ⟨next, after⟩
          cases later : next.appendEach codec rest after with
          | mk others result =>
              rcases result with ⟨final, finish⟩
              unfold appendEach at appended
              rw [outcome] at appended
              simp only [later] at appended
              have sameFaults := Segment.append_faults codec segment entry fs
              rw [outcome] at sameFaults
              have stillClean : FailsWithoutBytes after := by
                intro clock count fault
                exact clean clock count (by rw [← sameFaults]; exact fault)
              by_cases success : ret = 0
              · rw [if_pos success] at appended
                cases appended
                rw [success] at outcome
                obtain ⟨record, encoded, atIndex, grown, grownOpen, sameChecksum⟩ :=
                  holds.append codec outcome
                obtain ⟨added, addedWritten, indexes, lastHolds, lastOpen, among⟩ :=
                  ih grown grownOpen stillClean later
                rw [sameChecksum] at addedWritten
                refine ⟨record :: added, List.Forall₂.cons encoded addedWritten, ?_, ?_, lastOpen,
                  among.cons_cons entry⟩
                · intro position other found
                  cases position with
                  | zero =>
                      rw [List.getElem?_cons_zero, Option.some.injEq] at found
                      rw [← found, atIndex]
                      simp
                  | succ position =>
                      rw [List.getElem?_cons_succ] at found
                      rw [indexes position other found, List.length_append, List.length_singleton]
                      push_cast
                      omega
                · rwa [List.append_assoc] at lastHolds
              · rw [if_neg success] at appended
                cases appended
                obtain ⟨inode, fd, _, _⟩ := holds.file
                have noByte : WritesNoByte codec segment entry fs := by
                  obtain ⟨_, before | ⟨_, record, count, found, fault, _⟩⟩ :=
                    Segment.append_failed codec isOpen fd outcome success
                  · exact before.1.imp_right Or.inl
                  · rw [clean _ _ fault] at fault
                    exact Or.inr (Or.inr fault)
                obtain ⟨sameSegment, sameDisk⟩ :=
                  Segment.append_noByte codec isOpen fd outcome success noByte
                subst sameSegment
                rw [← sameDisk] at holds
                obtain ⟨added, addedWritten, indexes, lastHolds, lastOpen, among⟩ :=
                  ih holds isOpen stillClean later
                exact ⟨added, addedWritten, indexes, lastHolds, lastOpen, among.cons entry⟩

/-! ### Bytes behind the last record -/

theorem Segment.Holds.get_behind {segment : Segment} {disk later : LogDisk} {start : Int}
    {records : List Record} (holds : segment.Holds codec disk start records)
    (valid : ∀ record ∈ records, record.Valid codec) {inode : Nat} (fd : segment.fd = some inode)
    {garbage : Bytes} (content : later.content inode = encodeAll codec records ++ garbage)
    (index : Int) : segment.get codec index later = segment.get codec index disk := by
  have first := holds.first
  have last := holds.last
  by_cases outside : segment.lastIndex < index ∨ index < segment.firstIndex
  · have noMeta : segment.getMeta index = none := by
      unfold Segment.getMeta
      rw [if_pos outside]
    unfold Segment.get
    rw [noMeta]
  have below : (index - start).toNat < records.length := by omega
  have isIndex : index = start + ((records.take (index - start).toNat).length : Int) := by
    rw [List.length_take]
    omega
  have split : records = records.take (index - start).toNat ++
      records[(index - start).toNat] :: records.drop ((index - start).toNat + 1) := by
    rw [← List.drop_eq_getElem_cons below, List.take_append_drop]
  have recordValid := valid _ (List.getElem_mem below)
  generalize records.take (index - start).toNat = front at split isIndex
  generalize records[(index - start).toNat] = record at split recordValid
  generalize records.drop ((index - start).toNat + 1) = back at split
  rw [split] at holds content
  have isMeta := holds.getMeta
  have loaded := loadEntry_encode codec recordValid (encodeAll codec front)
    (encodeAll codec back ++ garbage) (record.encode codec).length true (by simp)
  have regroup : encodeAll codec (front ++ record :: back) ++ garbage =
      encodeAll codec front ++
        (record.encode codec ++ (encodeAll codec back ++ garbage)) := by simp
  rw [isIndex, holds.get codec recordValid]
  unfold Segment.get Record.toEntry
  simp only [isMeta, fd, content, regroup, loaded, Record.header, EntryType.ofNat?_toNat, if_true]
  cases record.type <;> rfl

theorem loadEntry_term {file : Bytes} {place sizeHint : Nat} {wantData : Bool}
    {header : EntryHeader} {data : Bytes}
    (loaded : loadEntry codec file place sizeHint wantData = .ok (header, data)) :
    header.term = unpackBE ((file.drop place).take 8) := by
  have term : (unpackHeader ((file.drop place).take entryHeaderSize)).term =
      unpackBE ((file.drop place).take 8) := by
    simp [unpackHeader, List.take_take, entryHeaderSize]
  unfold loadEntry at loaded
  simp only at loaded
  generalize unpackHeader ((file.drop place).take entryHeaderSize) = front at loaded term
  by_cases torn : file.length < place + max sizeHint entryHeaderSize
  · rw [if_pos torn] at loaded
    contradiction
  rw [if_neg torn] at loaded
  by_cases verified : verifyChecksum codec front.checksumType
      (((file.drop place).take entryHeaderSize).take 20)
      (unpackBE (((file.drop place).take entryHeaderSize).drop 20)) = true
  swap
  · rw [if_neg verified] at loaded
    contradiction
  rw [if_pos verified] at loaded
  cases wantData with
  | false =>
      cases loaded
      exact term
  | true =>
      rw [if_pos rfl] at loaded
      by_cases beyond : file.length < place + (entryHeaderSize + front.dataLen)
      · rw [if_pos beyond] at loaded
        contradiction
      rw [if_neg beyond] at loaded
      by_cases same : verifyChecksum codec front.checksumType
          ((file.drop (place + entryHeaderSize)).take front.dataLen) front.dataChecksum = true
      · rw [if_pos same] at loaded
        cases loaded
        exact term
      · rw [if_neg same] at loaded
        contradiction

/-- The term of what `get` returns is in the first eight bytes at the offset. -/
theorem Segment.term_of_get {segment : Segment} {disk : LogDisk} {index : Int}
    {place length term inode : Nat} {entry : LogEntry P Bytes}
    (isMeta : segment.getMeta index = some (place, length, term))
    (fd : segment.fd = some inode) (found : segment.get codec index disk = some entry) :
    entry.id.term = unpackBE (((disk.content inode).drop place).take 8) := by
  unfold get at found
  rw [isMeta, fd] at found
  simp only at found
  cases loads : loadEntry codec (disk.content inode) place length true with
  | error rc =>
      rw [loads] at found
      contradiction
  | ok loaded =>
      rcases loaded with ⟨header, data⟩
      have isTerm := loadEntry_term codec loads
      rw [loads] at found
      simp only at found
      cases type : EntryType.ofNat? header.type with
      | none =>
          rw [type] at found
          contradiction
      | some known =>
          rw [type] at found
          cases known with
          | unknown => contradiction
          | noOp =>
              cases found
              exact isTerm
          | data =>
              cases found
              exact isTerm
          | configuration =>
              simp only at found
              cases parses : codec.parseConfiguration data with
              | none =>
                  rw [parses] at found
                  contradiction
              | some conf =>
                  rw [parses] at found
                  cases found
                  exact isTerm

/-- An entry without payload whose term does not begin with this byte. -/
def entryUnlike (byte : UInt8) (index : Nat) : LogEntry P Bytes :=
  { type := .data, id := { index := index, term := if byte = 0 then 2 ^ 56 else 1 }, data := [] }

theorem entryUnlike_writable (byte : UInt8) (index : Nat) :
    FitsRecord codec (entryUnlike byte index : LogEntry P Bytes) := by
  refine ⟨?_, ?_⟩
  · unfold entryUnlike
    by_cases zero : byte = 0
    · simp only [if_pos zero]
      omega
    · simp only [if_neg zero]
      omega
  · intro data isData
    cases isData
    exact Nat.two_pow_pos 32

theorem term_entryUnlike (byte : UInt8) (index : Nat) {rest : Bytes} (seven : rest.length = 7) :
    (entryUnlike byte index : LogEntry P Bytes).id.term ≠ unpackBE (byte :: rest) := by
  have small := unpackBE_lt rest
  rw [seven] at small
  rw [unpackBE_cons, seven]
  unfold entryUnlike
  by_cases zero : byte = 0
  · simp only [if_pos zero]
    rw [zero, UInt8.toNat_zero, Nat.zero_mul, Nat.zero_add]
    omega
  · have positive : 0 < byte.toNat := by
      rw [Nat.pos_iff_ne_zero]
      intro same
      exact zero (UInt8.toNat_inj.mp same)
    have large := Nat.mul_le_mul_right (256 ^ 7) positive
    simp only [if_neg zero]
    omega

section Load

variable [DecidableEq P] (flags : LogFlags)

theorem Segment.Holds.takesAppends {segment : Segment} {disk : LogDisk} {start : Int}
    {records : List Record} (holds : segment.Holds codec disk start records)
    (valid : ∀ record ∈ records, record.Valid codec) (isOpen : segment.isOpen = true)
    (known : segment.checksumType < 2) : TakesAppends codec flags segment disk := by
  intro fs written entries succeeded last sameDisk clean writable appended
  have current := holds
  rw [← sameDisk] at current
  obtain ⟨added, addedWritten, indexes, lastHolds, lastOpen, among⟩ :=
    Segment.appendEach_holds codec entries current isOpen clean appended
  have addedValid : ∀ record ∈ added, record.Valid codec := by
    apply addedWritten.valid codec known
    · intro entry member
      exact (writable entry (among.subset member)).payload
    · intro entry member
      have term := (writable entry (among.subset member)).term
      omega
  have allValid : ∀ record ∈ records ++ added, record.Valid codec := by
    intro record member
    rcases List.mem_append.mp member with earlier | later
    · exact valid record earlier
    · exact addedValid record later
  refine ⟨holds.keepsEntries codec lastHolds addedWritten indexes allValid, ?_⟩
  intro reloadType manager
  obtain ⟨inode, _, listed, content⟩ := lastHolds.file
  have named : last.fileName = (Segment.newOpen start reloadType).fileName := by
    simp [Segment.fileName, lastOpen, lastHolds.first, Segment.newOpen]
  have found : written.disk.read (Segment.newOpen start reloadType).fileName =
      some (encodeAll codec (records ++ added)) := by
    rw [← named]
    simp [Disk.read, listed, content]
  obtain ⟨loaded, loads, loadedHolds, _⟩ := Segment.load_holds codec flags
    (Segment.newOpen start reloadType) allValid found (fun closed => by contradiction) manager
  rw [holds.first]
  exact ⟨loaded, _, loads, holds.keepsEntries codec loadedHolds addedWritten indexes allValid⟩

/-- Behind some bytes that are no entry, `append` records a wrong offset. -/
theorem Segment.Holds.not_takesAppends {segment : Segment} {disk : LogDisk} {start : Int}
    {records : List Record} (holds : segment.Holds codec disk start records)
    (isOpen : segment.isOpen = true) {index inode : Nat}
    (follows : (index : Int) = segment.lastIndex + 1) (fd : segment.fd = some inode)
    {byte : UInt8} {garbage : Bytes} {later : LogDisk}
    (content : later.content inode = encodeAll codec records ++ byte :: garbage) :
    ¬ TakesAppends codec flags segment later := by
  intro takes
  have first := holds.first
  have last := holds.last
  have bytes := holds.bytes
  have writable := entryUnlike_writable codec byte index
  generalize isEntry : (entryUnlike byte index : LogEntry P Bytes) = entry at writable
  have atIndex : entry.id.index = index := by rw [← isEntry]; rfl
  obtain ⟨record, found⟩ : ∃ record,
      Record.ofEntry? codec segment.checksumType entry = some record := by
    rw [← isEntry]
    exact ⟨_, rfl⟩
  have runs : segment.appendEach codec [entry] { disk := later } =
      ([entry], segment.grow entry.id.term (record.encode codec).length,
        ({ disk := later } : LogFs).record (.write inode (record.encode codec))) := by
    unfold appendEach appendEach Segment.append FileSystem.write
    rw [if_neg (not_not.mpr isOpen), if_neg (not_not.mpr (by rw [atIndex]; exact follows)), found,
      fd]
    rfl
  have keeps := (takes { disk := later } _ [entry] [entry] _ rfl
    (fun clock count fault => by contradiction) (by simpa using writable) runs).1
  have reads := keeps.appended entry List.mem_cons_self
  have isMeta : (segment.grow entry.id.term (record.encode codec).length).getMeta index =
      some ((encodeAll codec records).length, (record.encode codec).length, entry.id.term) := by
    have position : ((index : Int) - segment.firstIndex).toNat = records.length := by omega
    unfold Segment.getMeta Segment.grow
    simp only [position, holds.table, bytes]
    rw [if_neg (by omega), List.getElem?_append_right (by simp)]
    simp [follows]
  rw [atIndex] at reads
  have term := Segment.term_of_get codec isMeta fd reads
  have stored : entry.stored.id = entry.id := by rw [← isEntry]; rfl
  have front :
      ((({ disk := later } : LogFs).record (.write inode (record.encode codec))).disk.content
        inode).drop (encodeAll codec records).length =
          byte :: (garbage ++ record.encode codec) := by
    simp [FileSystem.record, Disk.apply, Disk.setContent, content]
  rw [front, stored, List.take_succ_cons, ← isEntry] at term
  refine term_entryUnlike byte index ?_ term
  rw [List.length_take, List.length_append, Record.encode_length, entryHeaderSize]
  omega

omit [DecidableEq P] in
theorem wholeRecords_torn (records : List Record) {record : Record} {kept : Nat}
    (torn : kept < (record.encode codec).length) :
    wholeRecords codec (records ++ [record]) ((encodeAll codec records).length + kept) =
      records.length := by
  induction records with
  | nil =>
      rw [List.nil_append, encodeAll_nil, List.length_nil, Nat.zero_add]
      unfold wholeRecords
      rw [if_neg (Nat.not_le_of_lt torn), List.length_nil]
  | cons head rest ih =>
      rw [List.cons_append, encodeAll_cons, List.length_append]
      unfold wholeRecords
      rw [if_pos (by omega), List.length_cons]
      have behind : (head.encode codec).length + (encodeAll codec rest).length + kept -
          (head.encode codec).length = (encodeAll codec rest).length + kept := by omega
      rw [behind, ih]

omit [DecidableEq P] in
theorem Segment.Holds.get_eq {segment other : Segment} {disk otherDisk : LogDisk} {start : Int}
    {records : List Record} (holds : segment.Holds codec disk start records)
    (otherHolds : other.Holds codec otherDisk start records)
    (valid : ∀ record ∈ records, record.Valid codec) (index : Int) :
    other.get codec index otherDisk = segment.get codec index disk := by
  have same {one two : Segment} {oneDisk twoDisk : LogDisk}
      (oneHolds : one.Holds codec oneDisk start records)
      (twoHolds : two.Holds codec twoDisk start records) {entry : LogEntry P Bytes}
      (found : one.get codec index oneDisk = some entry) :
      two.get codec index twoDisk = some entry :=
    (oneHolds.keepsEntries codec (by rwa [List.append_nil])
      (show Written codec 0 [] [] from List.Forall₂.nil) (by simp)
      (by rwa [List.append_nil])).before index entry found
  cases found : segment.get codec index disk with
  | some entry => exact same holds otherHolds found
  | none =>
      cases otherFound : other.get codec index otherDisk with
      | none => rfl
      | some entry =>
          rw [same otherHolds holds otherFound] at found
          contradiction

theorem Segment.load_keeps {segment loaded : Segment} {fs after : LogFs}
    {manager conf : ConfigurationManager P} {ret : Int}
    (loads : segment.load codec flags manager fs = (ret, loaded, conf, after)) :
    loaded.isOpen = segment.isOpen ∧ loaded.checksumType = segment.checksumType := by
  unfold load at loads
  cases listed : fs.disk.lookup segment.fileName with
  | none =>
      rw [listed] at loads
      cases loads
      exact ⟨rfl, rfl⟩
  | some inode =>
      rw [listed] at loads
      simp only at loads
      generalize loadLoop codec (fs.disk.content inode) (fs.disk.content inode).length
        segment.firstIndex 0 [] manager = result at loads
      generalize (if result.ret = 0 ∧ ¬ segment.isOpen = true ∧
        segment.firstIndex - 1 + ↑result.offsetAndTerm.length ≠ segment.lastIndex then (-1 : Int)
        else result.ret) = code at loads
      by_cases fails : code ≠ 0 ∧ (¬ segment.isOpen = true ∨
          ¬ flags.raftRecoverLogFromCorrupt = true ∨ ¬ result.isEntryCorrupted = true)
      · rw [if_pos fails] at loads
        cases loads
        exact ⟨rfl, rfl⟩
      · rw [if_neg fails] at loads
        cases loads
        by_cases isOpen : segment.isOpen = true
        · simp [isOpen]
        · simp [isOpen]

theorem Segment.load_torn {start : Int} {records : List Record} {record : Record} {kept : Nat}
    (valid : ∀ record ∈ records, record.Valid codec) (recordValid : record.Valid codec)
    (torn : kept < (record.encode codec).length) {reopened : LogFs} (reloadType : Nat)
    (found : reopened.disk.read (.inprogress start) =
      some (encodeAll codec records ++ (record.encode codec).take kept))
    (working : reopened.faults reopened.clock = none) (manager : ConfigurationManager P) :
    ∃ loaded conf after,
      (newOpen start reloadType).load codec flags manager reopened = (0, loaded, conf, after) ∧
        loaded.Holds codec after.disk start records ∧ loaded.isOpen = true ∧
        loaded.checksumType = reloadType := by
  have isTaken : encodeAll codec records ++ (record.encode codec).take kept =
      (encodeAll codec (records ++ [record])).take ((encodeAll codec records).length + kept) := by
    rw [encodeAll_append, List.take_length_add_append]
    simp
  rw [isTaken] at found
  have allValid : ∀ other ∈ records ++ [record], other.Valid codec := by
    intro other member
    rcases List.mem_append.mp member with earlier | last
    · exact valid other earlier
    · rw [List.mem_singleton.mp last]
      exact recordValid
  obtain ⟨loaded, after, loads, holds, named⟩ :=
    Segment.load_cut codec flags (show (newOpen start reloadType).isOpen = true from rfl) allValid
      found working manager
  rw [wholeRecords_torn codec records torn, List.take_left] at loads holds
  obtain ⟨stillOpen, sameType⟩ := Segment.load_keeps codec flags loads
  exact ⟨loaded, _, after, loads, holds, stillOpen, sameType⟩

/-! ### A failed `append` -/

/-- The table and the byte count are as they were and the entries are read as before.  A reload
finds the same entries, and whatever is appended then. -/
structure LeavesEntries (segment : Segment) (disk : LogDisk) (left : Segment)
    (leftDisk : LogDisk) : Prop where
  sameSegment : left = segment
  before : ∀ index, left.get codec index leftDisk = segment.get codec index disk
  reload : ∀ (reopened : LogFs) (reloadType : Nat) (manager : ConfigurationManager P),
    reopened.disk = leftDisk → reopened.faults reopened.clock = none → reloadType < 2 →
      ∃ loaded conf after,
        (Segment.newOpen segment.firstIndex reloadType).load codec flags manager reopened =
            (0, loaded, conf, after) ∧
          (∀ index, loaded.get codec index after.disk = segment.get codec index disk) ∧
          TakesAppends codec flags loaded after.disk

theorem Segment.Holds.leavesEntries {segment : Segment} {disk later : LogDisk} {start : Int}
    {records : List Record} (holds : segment.Holds codec disk start records)
    (valid : ∀ record ∈ records, record.Valid codec) {inode : Nat} (fd : segment.fd = some inode)
    {record : Record} (recordValid : record.Valid codec) {kept : Nat}
    (torn : kept < (record.encode codec).length)
    (listed : later.lookup (.inprogress start) = some inode)
    (content : later.content inode =
      encodeAll codec records ++ (record.encode codec).take kept) :
    LeavesEntries codec flags segment disk segment later := by
  refine ⟨rfl, holds.get_behind codec valid fd content, ?_⟩
  intro reopened reloadType manager sameDisk working knownType
  have found : reopened.disk.read (.inprogress start) =
      some (encodeAll codec records ++ (record.encode codec).take kept) := by
    rw [sameDisk, ← content]
    simp [Disk.read, listed]
  obtain ⟨loaded, conf, after, loads, loadedHolds, loadedOpen, loadedType⟩ :=
    Segment.load_torn codec flags valid recordValid torn reloadType found working manager
  rw [holds.first]
  refine ⟨loaded, conf, after, loads, holds.get_eq codec loadedHolds valid, ?_⟩
  apply loadedHolds.takesAppends codec flags valid loadedOpen
  rw [loadedType]
  exact knownType

/-- A failed `append` of an open segment.  The segment takes further appends exactly if no byte
was written. -/
theorem Segment.failedAppend_leaves {segment left : Segment} {start : Int}
    {records : List Record} {fs failed : LogFs} {entry : LogEntry P Bytes} {ret : Int}
    (holds : segment.Holds codec fs.disk start records)
    (valid : ∀ record ∈ records, record.Valid codec) (isOpen : segment.isOpen = true)
    (known : segment.checksumType < 2) (writable : FitsRecord codec entry)
    (short : ∀ record count, Record.ofEntry? codec segment.checksumType entry = some record →
      fs.faults fs.clock = some count → count < (record.encode codec).length)
    (appended : segment.append codec entry fs = (ret, left, failed)) (fails : ret ≠ 0) :
    LeavesEntries codec flags segment fs.disk left failed.disk ∧
      (TakesAppends codec flags left failed.disk ↔ WritesNoByte codec segment entry fs) := by
  obtain ⟨inode, fd, listed, content⟩ := holds.file
  have named : segment.fileName = .inprogress start := by
    simp [Segment.fileName, isOpen, holds.first]
  rw [named] at listed
  by_cases noByte : WritesNoByte codec segment entry fs
  · obtain ⟨sameSegment, sameDisk⟩ := Segment.append_noByte codec isOpen fd appended fails noByte
    rw [sameSegment, sameDisk]
    refine ⟨?_, fun _ => noByte, fun _ => holds.takesAppends codec flags valid isOpen known⟩
    have emptyValid : Record.Valid codec ⟨0, .noOp, [], 0⟩ :=
      ⟨by decide, by decide, by decide, by decide, fun isConf => by contradiction⟩
    have notEmpty : 0 < (Record.encode codec ⟨0, .noOp, [], 0⟩).length := by
      rw [Record.encode_length]
      exact Nat.lt_add_right _ (by decide)
    apply holds.leavesEntries codec flags valid fd emptyValid notEmpty listed
    rw [content, List.take_zero, List.append_nil]
  · obtain ⟨sameSegment, before | ⟨follows, record, count, encoded, fault, disk⟩⟩ :=
      Segment.append_failed codec isOpen fd appended fails
    · exact absurd (before.1.imp_right Or.inl) noByte
    have torn := short record count encoded fault
    have recordValid : record.Valid codec := by
      obtain ⟨payload, isPayload, isRecord⟩ := Option.map_eq_some_iff.mp encoded
      have term := writable.term
      apply Record.valid_of_ofEntry? codec known encoded (by omega)
      rw [← isRecord]
      exact writable.payload payload isPayload
    have written : failed.disk.content inode =
        encodeAll codec records ++ (record.encode codec).take count := by
      rw [disk]
      simp [Disk.apply, Disk.setContent, content]
    have stillListed : failed.disk.lookup (.inprogress start) = some inode := by
      rw [disk]
      exact listed
    rw [sameSegment]
    refine ⟨holds.leavesEntries codec flags valid fd recordValid torn stillListed written,
      fun takes => ?_, fun noByte' => absurd noByte' noByte⟩
    cases isTaken : (record.encode codec).take count with
    | nil =>
        have zero : count = 0 := by
          have none := congrArg List.length isTaken
          rw [List.length_take, List.length_nil] at none
          omega
        rw [zero] at fault
        exact Or.inr (Or.inr fault)
    | cons byte garbage =>
        rw [isTaken] at written
        exact absurd takes (holds.not_takesAppends codec flags isOpen follows fd written)

end Load

def shortWrite : Int × Segment × LogFs :=
  (Segment.newOpen 1 0).create
    { faults := fun clock => if clock = 1 then some 1 else none }

def sevenEntry : LogEntry Nat Bytes := { type := .data, id := ⟨1, 1⟩, data := [7] }

def shortAppend : Int × Segment × LogFs :=
  shortWrite.2.1.append byteCodec sevenEntry shortWrite.2.2

def retriedAppend : Int × Segment × LogFs :=
  shortAppend.2.1.append byteCodec sevenEntry shortAppend.2.2

/-- The entry is appended once more with success.  `get` does not find it, and `load` fails. -/
theorem shortAppend_unusable :
    shortAppend.1 = -1 ∧ retriedAppend.1 = 0 ∧
      retriedAppend.2.1.get byteCodec 1 retriedAppend.2.2.disk = none ∧
      ((Segment.newOpen 1 0).load byteCodec {} .init retriedAppend.2.2).1 = -1 ∧
      ¬ TakesAppends byteCodec {} shortAppend.2.1 shortAppend.2.2.disk := by
  refine ⟨by decide, by decide, by decide, by decide, ?_⟩
  intro takes
  have keeps := (takes { disk := shortAppend.2.2.disk } _ [sevenEntry] [sevenEntry] _ rfl
    (fun clock count fault => by contradiction) (by
      intro entry member
      rw [List.mem_singleton.mp member]
      refine ⟨by decide, ?_⟩
      intro data isData
      cases isData
      decide) rfl).1
  have found := keeps.appended sevenEntry List.mem_cons_self
  exact absurd found (by decide)

/-- The failed call leaves the new segment empty and without room for another call. -/
theorem shortAppend_leaves :
    LeavesEntries byteCodec {} shortWrite.2.1 shortWrite.2.2.disk shortAppend.2.1
        shortAppend.2.2.disk ∧
      (TakesAppends byteCodec {} shortAppend.2.1 shortAppend.2.2.disk ↔
        WritesNoByte byteCodec shortWrite.2.1 sevenEntry shortWrite.2.2) := by
  have holds : shortWrite.2.1.Holds byteCodec shortWrite.2.2.disk 1 [] :=
    (Segment.create_holds byteCodec (show (Segment.newOpen 1 0).isOpen = true from rfl) rfl rfl rfl
      (show (Segment.newOpen 1 0).create
          { faults := fun clock => if clock = 1 then some 1 else none } =
        (0, shortWrite.2.1, shortWrite.2.2) from rfl)).1
  refine Segment.failedAppend_leaves byteCodec {} holds (by simp) rfl (by decide) ?_ ?_
    (show shortWrite.2.1.append byteCodec sevenEntry shortWrite.2.2 =
      (-1, shortAppend.2.1, shortAppend.2.2) from rfl) (by decide)
  · refine ⟨by decide, ?_⟩
    intro data isData
    cases isData
    decide
  · intro record count encoded fault
    cases encoded
    cases fault
    decide

end QuorumKit
