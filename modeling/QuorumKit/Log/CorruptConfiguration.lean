/-
What `Segment::load` cuts off an open segment, for any bytes of the file.

The scan goes from entry to entry and stops at the first one that is torn, has a damaged
header or is a configuration that cannot be read.  A damaged header is an error.  A whole
configuration entry whose payload does not match its checksum is taken for a torn one and
cut off, with all entries behind it.
-/

import QuorumKit.Log.TornTail

namespace QuorumKit

open Library

variable {P : Type} (codec : EntryCodec P)

structure StartsWithEntry (bytes : Bytes) (header : EntryHeader) : Prop where
  isHeader : loadEntry codec bytes 0 entryHeaderSize false = .ok (header, [])
  whole : entryHeaderSize + header.dataLen ≤ bytes.length

/-- A configuration entry has the payload that its checksum is of, and it parses. -/
def ReadableConfiguration (bytes : Bytes) (header : EntryHeader) : Prop :=
  header.type = EntryType.configuration.toNat →
    ∃ loaded conf,
      loadEntry codec bytes 0 (entryHeaderSize + header.dataLen) true = .ok loaded ∧
        codec.parseConfiguration loaded.2 = some conf

/-- A whole configuration entry whose payload does not match its checksum. -/
def CorruptConfiguration (bytes : Bytes) : Prop :=
  ∃ header, StartsWithEntry codec bytes header ∧
    header.type = EntryType.configuration.toNat ∧
    ∃ rc, loadEntry codec bytes 0 (entryHeaderSize + header.dataLen) true = .error rc

inductive Passes (file : Bytes) : Nat → Prop
  | start : Passes file 0
  | next {place : Nat} {header : EntryHeader} (passed : Passes file place)
      (entry : StartsWithEntry codec (file.drop place) header)
      (readable : ReadableConfiguration codec (file.drop place) header) :
      Passes file (place + (entryHeaderSize + header.dataLen))

/-- No scan meets a whole configuration entry whose payload does not match its checksum. -/
def NoCorruptConfiguration (file : Bytes) : Prop :=
  ∀ place, Passes codec file place → ¬ CorruptConfiguration codec (file.drop place)

theorem loadEntry_drop (file : Bytes) (place sizeHint : Nat) (wantData : Bool) :
    loadEntry codec file place sizeHint wantData =
      loadEntry codec (file.drop place) 0 sizeHint wantData := by
  unfold loadEntry
  simp only [List.length_drop, List.drop_drop, Nat.zero_add, Nat.add_zero]
  have size : 0 < entryHeaderSize := by decide
  have short : file.length < place + max sizeHint entryHeaderSize ↔
      file.length - place < max sizeHint entryHeaderSize := by omega
  have shortData : ∀ length, file.length < place + (entryHeaderSize + length) ↔
      file.length - place < entryHeaderSize + length := by
    intro length
    omega
  simp only [short, shortData]

theorem loadEntry_header {file : Bytes} {place sizeHint : Nat} {header : EntryHeader} {data : Bytes}
    (loaded : loadEntry codec file place sizeHint false = .ok (header, data)) : data = [] := by
  unfold loadEntry at loaded
  simp only at loaded
  by_cases short : file.length < place + max sizeHint entryHeaderSize
  · rw [if_pos short] at loaded
    contradiction
  rw [if_neg short] at loaded
  by_cases verified : verifyChecksum codec
      (unpackHeader ((file.drop place).take entryHeaderSize)).checksumType
      (((file.drop place).take entryHeaderSize).take 20)
      (unpackBE (((file.drop place).take entryHeaderSize).drop 20)) = true
  · rw [if_pos verified] at loaded
    exact (Prod.ext_iff.mp (Except.ok.inj loaded)).2.symm
  · rw [if_neg verified] at loaded
    contradiction

section Scan

variable [DecidableEq P]

theorem loadLoop_next {file : Bytes} {place : Nat} {header : EntryHeader}
    (entry : StartsWithEntry codec (file.drop place) header)
    (readable : ReadableConfiguration codec (file.drop place) header) (fuel : Nat) (index : Int)
    (table : List (Nat × Nat)) (manager : ConfigurationManager P) :
    ∃ grown, Segment.loadLoop codec file (fuel + 1) index place table manager =
      Segment.loadLoop codec file fuel (index + 1)
        (place + (entryHeaderSize + header.dataLen)) (table ++ [(place, header.term)]) grown := by
  have size : 0 < entryHeaderSize := by decide
  have whole := entry.whole
  rw [List.length_drop] at whole
  have isHeader := entry.isHeader
  rw [← loadEntry_drop] at isHeader
  rw [Segment.loadLoop, if_pos (by omega), isHeader]
  simp only
  rw [if_neg (by omega)]
  by_cases isConfiguration : header.type = EntryType.configuration.toNat
  · obtain ⟨loaded, conf, loads, parses⟩ := readable isConfiguration
    rw [← loadEntry_drop] at loads
    rw [if_pos isConfiguration, loads]
    simp only
    rw [parses]
    exact ⟨_, rfl⟩
  · rw [if_neg isConfiguration]
    exact ⟨_, rfl⟩

theorem loadLoop_passes {file : Bytes} {place : Nat} (passed : Passes codec file place)
    (first : Int) (manager : ConfigurationManager P) :
    ∃ fuel index table reached, file.length ≤ place + fuel ∧
      Segment.loadLoop codec file file.length first 0 [] manager =
        Segment.loadLoop codec file fuel index place table reached := by
  induction passed with
  | start => exact ⟨file.length, first, [], manager, by omega, rfl⟩
  | @next place header passed entry readable ih =>
      obtain ⟨fuel, index, table, reached, enough, same⟩ := ih
      have size : 0 < entryHeaderSize := by decide
      have whole := entry.whole
      rw [List.length_drop] at whole
      cases fuel with
      | zero => omega
      | succ fuel =>
          obtain ⟨grown, next⟩ := loadLoop_next codec entry readable fuel index table reached
          exact ⟨fuel, _, _, grown, by omega, same.trans next⟩

theorem loadLoop_corrupt {file : Bytes} {place : Nat}
    (corrupt : CorruptConfiguration codec (file.drop place)) {fuel : Nat}
    (enough : file.length ≤ place + fuel) (index : Int) (table : List (Nat × Nat))
    (manager : ConfigurationManager P) :
    Segment.loadLoop codec file fuel index place table manager =
      ⟨0, false, place, table, manager⟩ := by
  obtain ⟨header, entry, isConfiguration, rc, fails⟩ := corrupt
  have size : 0 < entryHeaderSize := by decide
  have whole := entry.whole
  rw [List.length_drop] at whole
  have isHeader := entry.isHeader
  rw [← loadEntry_drop] at isHeader fails
  cases fuel with
  | zero => omega
  | succ fuel =>
      unfold Segment.loadLoop
      rw [if_pos (by omega), isHeader]
      simp only
      rw [if_neg (by omega), if_pos isConfiguration, fails]

theorem loadLoop_stops (file : Bytes) (fuel : Nat) :
    ∀ (index : Int) (place : Nat) (table : List (Nat × Nat)) (manager : ConfigurationManager P),
      Passes codec file place → file.length ≤ place + fuel →
      (Segment.loadLoop codec file fuel index place table manager).ret = 0 →
        ∃ stop, (Segment.loadLoop codec file fuel index place table manager).entryOff = stop ∧
          Passes codec file stop ∧
          ((∀ header, ¬ StartsWithEntry codec (file.drop stop) header) ∨
            CorruptConfiguration codec (file.drop stop)) := by
  have size : 0 < entryHeaderSize := by decide
  induction fuel with
  | zero =>
      intro index place table manager passed enough _
      refine ⟨place, rfl, passed, Or.inl ?_⟩
      intro header entry
      have whole := entry.whole
      rw [List.length_drop] at whole
      omega
  | succ fuel ih =>
      intro index place table manager passed enough noError
      by_cases more : place < file.length
      swap
      · unfold Segment.loadLoop
        rw [if_neg more]
        refine ⟨place, rfl, passed, Or.inl ?_⟩
        intro header entry
        have whole := entry.whole
        rw [List.length_drop] at whole
        omega
      cases loads : loadEntry codec file place entryHeaderSize false with
      | error rc =>
          have isError : loadEntry codec (file.drop place) 0 entryHeaderSize false = .error rc := by
            rw [← loadEntry_drop]
            exact loads
          have noEntry : ∀ header, ¬ StartsWithEntry codec (file.drop place) header := by
            intro header entry
            have isHeader := entry.isHeader
            rw [isError] at isHeader
            contradiction
          rw [Segment.loadLoop, if_pos more, loads] at noError ⊢
          simp only at noError ⊢
          by_cases torn : 0 < rc
          · rw [if_pos torn]
            exact ⟨place, rfl, passed, Or.inl noEntry⟩
          · rw [if_neg torn]
            exact ⟨place, rfl, passed, Or.inl noEntry⟩
      | ok loaded =>
          obtain ⟨header, data⟩ := loaded
          have noData := loadEntry_header codec loads
          subst noData
          have isHeader := loads
          rw [loadEntry_drop] at isHeader
          by_cases beyond : file.length < place + (entryHeaderSize + header.dataLen)
          · rw [Segment.loadLoop, if_pos more, loads]
            simp only
            rw [if_pos beyond]
            refine ⟨place, rfl, passed, Or.inl ?_⟩
            intro other entry
            have sameHeader := entry.isHeader
            rw [isHeader] at sameHeader
            have isSame : header = other := (Prod.ext_iff.mp (Except.ok.inj sameHeader)).1
            have whole := entry.whole
            rw [List.length_drop, ← isSame] at whole
            omega
          have entry : StartsWithEntry codec (file.drop place) header :=
            ⟨isHeader, by rw [List.length_drop]; omega⟩
          have goesOn (readable : ReadableConfiguration codec (file.drop place) header) :
              ∃ stop, (Segment.loadLoop codec file (fuel + 1) index place table manager).entryOff =
                  stop ∧ Passes codec file stop ∧
                ((∀ header, ¬ StartsWithEntry codec (file.drop stop) header) ∨
                  CorruptConfiguration codec (file.drop stop)) := by
            obtain ⟨grown, next⟩ := loadLoop_next codec entry readable fuel index table manager
            rw [next] at noError ⊢
            exact ih _ _ _ grown (passed.next entry readable) (by omega) noError
          by_cases isConfiguration : header.type = EntryType.configuration.toNat
          swap
          · exact goesOn (fun isType => absurd isType isConfiguration)
          cases reads : loadEntry codec file place (entryHeaderSize + header.dataLen) true with
          | error rc =>
              have corrupt : CorruptConfiguration codec (file.drop place) :=
                ⟨header, entry, isConfiguration, rc, by rw [← loadEntry_drop]; exact reads⟩
              rw [loadLoop_corrupt codec corrupt enough]
              exact ⟨place, rfl, passed, Or.inr corrupt⟩
          | ok loaded =>
              cases parses : codec.parseConfiguration loaded.2 with
              | none =>
                  rw [Segment.loadLoop, if_pos more, loads] at noError
                  simp only at noError
                  rw [if_neg beyond, if_pos isConfiguration, reads] at noError
                  simp only at noError
                  rw [parses] at noError
                  contradiction
              | some conf =>
                  exact goesOn (fun _ => ⟨loaded, conf, by rw [← loadEntry_drop]; exact reads,
                    parses⟩)

/-- No entry is at the front of what a successful `load` cuts off the file. -/
def DiscardsNoEntry (flags : LogFlags) (segment : Segment) (file : Bytes) : Prop :=
  ∀ (fs after : LogFs) (manager loadedManager : ConfigurationManager P) (loaded : Segment)
    (left : Bytes), fs.disk.read segment.fileName = some file →
      segment.load codec flags manager fs = (0, loaded, loadedManager, after) →
      after.disk.read segment.fileName = some left → left ≠ file →
      ∀ header, ¬ StartsWithEntry codec (file.drop left.length) header

theorem Segment.load_open {flags : LogFlags} {segment loaded : Segment} {fs after : LogFs}
    {manager loadedManager : ConfigurationManager P} {file : Bytes}
    (isOpen : segment.isOpen = true) (recovers : flags.raftRecoverLogFromCorrupt = false)
    (found : fs.disk.read segment.fileName = some file)
    (loads : segment.load codec flags manager fs = (0, loaded, loadedManager, after)) :
    (loadLoop codec file file.length segment.firstIndex 0 [] manager).ret = 0 ∧
      after.disk.read segment.fileName =
        some (file.take (loadLoop codec file file.length segment.firstIndex 0 [] manager).entryOff) := by
  obtain ⟨inode, listed, content⟩ := read_eq_some found
  unfold Segment.load at loads
  rw [listed] at loads
  simp only [content] at loads
  generalize loadLoop codec file file.length segment.firstIndex 0 [] manager = result at loads ⊢
  have isRet : (if result.ret = 0 ∧ ¬ segment.isOpen = true ∧
      segment.firstIndex - 1 + ↑result.offsetAndTerm.length ≠ segment.lastIndex then (-1 : Int)
      else result.ret) = result.ret := if_neg (fun closed => closed.2.1 isOpen)
  rw [isRet] at loads
  by_cases fails : result.ret = 0
  swap
  · rw [if_pos ⟨fails, Or.inr (Or.inl (by rw [recovers]; exact Bool.false_ne_true))⟩] at loads
    exact absurd (Prod.ext_iff.mp loads).1 fails
  refine ⟨fails, ?_⟩
  rw [if_neg (fun both => both.1 fails)] at loads
  by_cases whole : result.entryOff = file.length
  · have uncut : (if result.entryOff ≠ file.length then
        fs.perform (.truncate inode result.entryOff) else (true, fs)) = (true, fs) :=
      if_neg (fun cut => cut whole)
    rw [uncut] at loads
    have isAfter : fs = after := (Prod.ext_iff.mp (Prod.ext_iff.mp (Prod.ext_iff.mp loads).2).2).2
    rw [← isAfter, found, whole, List.take_length]
  · have cut : (if result.entryOff ≠ file.length then
        fs.perform (.truncate inode result.entryOff) else (true, fs)) =
          fs.perform (.truncate inode result.entryOff) := if_pos whole
    rw [cut] at loads
    unfold FileSystem.perform at loads
    cases fault : fs.faults fs.clock with
    | some count =>
        rw [fault] at loads
        have failed : (-1 : Int) = 0 := (Prod.ext_iff.mp loads).1
        exact absurd failed (by decide)
    | none =>
        rw [fault] at loads
        have isAfter : fs.record (.truncate inode result.entryOff) = after :=
          (Prod.ext_iff.mp (Prod.ext_iff.mp (Prod.ext_iff.mp loads).2).2).2
        rw [← isAfter]
        unfold Disk.read
        have isListed : (fs.record (.truncate inode result.entryOff)).disk.lookup
            segment.fileName = some inode := listed
        rw [isListed]
        simp [FileSystem.record, Disk.apply, Disk.setContent, content]

def oneFile (name : FileName) (file : Bytes) : LogFs :=
  { disk := { names := [(name, 0)], content := fun _ => file, nextInode := 1 } }

theorem oneFile_read (name : FileName) (file : Bytes) :
    (oneFile name file).disk.read name = some file := by
  unfold oneFile Disk.read Disk.lookup
  simp

/-- For any bytes of an open segment, a successful `load` cuts off no entry exactly if no scan
meets a whole configuration entry whose payload does not match its checksum. -/
theorem discardsNoEntry_iff (flags : LogFlags) (recovers : flags.raftRecoverLogFromCorrupt = false)
    (segment : Segment) (isOpen : segment.isOpen = true) (file : Bytes) :
    DiscardsNoEntry codec flags segment file ↔ NoCorruptConfiguration codec file := by
  constructor
  · intro discards place passed corrupt
    obtain ⟨fuel, index, table, reached, enough, same⟩ :=
      loadLoop_passes codec passed segment.firstIndex .init
    rw [loadLoop_corrupt codec corrupt enough] at same
    obtain ⟨header, entry, _⟩ := corrupt
    have whole := entry.whole
    rw [List.length_drop] at whole
    have size : 0 < entryHeaderSize := by decide
    obtain ⟨loaded, loadedManager, after, loads⟩ : ∃ loaded loadedManager after,
        segment.load codec flags .init (oneFile segment.fileName file) =
          (0, loaded, loadedManager, after) := by
      have listed : (oneFile segment.fileName file).disk.lookup segment.fileName = some 0 := by
        simp [oneFile, Disk.lookup]
      have working : (oneFile segment.fileName file).faults (oneFile segment.fileName file).clock =
        none := rfl
      have content : (oneFile segment.fileName file).disk.content 0 = file := rfl
      unfold Segment.load FileSystem.perform
      rw [listed]
      simp only [content, same, working]
      simp [isOpen, show place ≠ file.length by omega]
    obtain ⟨_, left⟩ := Segment.load_open codec isOpen recovers
      (oneFile_read segment.fileName file) loads
    rw [same] at left
    have cut : (file.take place).length = place := by
      rw [List.length_take]
      omega
    apply discards _ after _ loadedManager loaded _ (oneFile_read segment.fileName file) loads left
    · intro isWhole
      rw [isWhole] at cut
      omega
    · rw [cut]
      exact entry
  · intro noCorrupt fs after manager loadedManager loaded left found loads isLeft cut header entry
    obtain ⟨noError, isTaken⟩ := Segment.load_open codec isOpen recovers found loads
    obtain ⟨stop, isStop, passed, either⟩ := loadLoop_stops codec file file.length
      segment.firstIndex 0 [] manager .start (by omega) noError
    rw [isStop] at isTaken
    have isPrefix : left = file.take stop := Option.some.inj (isLeft.symm.trans isTaken)
    have inside : stop < file.length := by
      by_contra beyond
      apply cut
      rw [isPrefix, List.take_of_length_le (by omega)]
    rw [isPrefix, List.length_take, Nat.min_eq_left (Nat.le_of_lt inside)] at entry
    rcases either with noEntry | corrupt
    · exact noEntry header entry
    · exact noCorrupt stop passed corrupt

end Scan

def byteCodec : EntryCodec Nat where
  checksum := fun _ bytes => UInt32.ofNat (bytes.map (fun byte => byte.toNat)).sum
  serializeConfiguration := fun peers oldPeers =>
    if oldPeers = none ∧ ∀ peer ∈ peers, peer < 256 then some (peers.map UInt8.ofNat) else none
  parseConfiguration := fun bytes => some (bytes.map (fun byte => byte.toNat), none)
  parse_serialize := by
    intro peers oldPeers bytes serialized
    by_cases plain : oldPeers = none ∧ ∀ peer ∈ peers, peer < 256
    · rw [if_pos plain, Option.some_inj] at serialized
      rw [← serialized, plain.1, List.map_map]
      have same : peers.map ((fun byte => byte.toNat) ∘ UInt8.ofNat) = peers := by
        apply (List.map_congr_left _).trans (List.map_id peers)
        intro peer member
        have small := plain.2 peer member
        exact UInt8.toNat_ofNat_of_lt' small
      rw [same]
      rfl
    · rw [if_neg plain] at serialized
      contradiction

def configurationRecord : Record :=
  { term := 1, type := .configuration, data := [7], checksumType := 0 }

def corruptFile : Bytes := packHeader byteCodec (configurationRecord.header byteCodec) ++ [8]

/-- `load` cuts off the configuration entry and returns success. -/
theorem corruptFile_discarded :
    ¬ DiscardsNoEntry byteCodec {} (Segment.newOpen 1 0) corruptFile := by
  intro discards
  have reads : (oneFile (.inprogress 1) corruptFile).disk.read (.inprogress 1) = some corruptFile :=
    oneFile_read _ _
  refine discards (oneFile (.inprogress 1) corruptFile) _ .init _ _ [] reads rfl rfl (by decide)
    (configurationRecord.header byteCodec) ⟨by decide, by decide⟩

/-- The first two bytes of a header are cut off and are no entry. -/
theorem tornFile_discarded :
    DiscardsNoEntry byteCodec {} (Segment.newOpen 1 0) [0, 0] := by
  refine (discardsNoEntry_iff byteCodec {} rfl (Segment.newOpen 1 0) rfl [0, 0]).mpr ?_
  intro place passed corrupt
  obtain ⟨header, entry, _⟩ := corrupt
  have whole := entry.whole
  rw [List.length_drop] at whole
  have size : entryHeaderSize = 24 := rfl
  change entryHeaderSize + header.dataLen ≤ 2 - place at whole
  omega

end QuorumKit
