/-
The on-disk form of one log entry, `Segment::_load_entry` and the encoding part
of `Segment::append` in `braft/log.cpp`.

An entry is a 24-byte header in network order followed by its payload.  The two
checksums and the protobuf form of a configuration are parameters: the segment
code only relies on a serialized configuration parsing back.
-/

import Mathlib.Tactic.IntervalCases
import QuorumKit.Configuration
import QuorumKit.Library.Bytes

namespace QuorumKit

open Library

def keptOldPeers {P : Type} : Option (List P) → Option (List P)
  | some [] => none
  | oldPeers => oldPeers

/-- What `log.cpp` calls: the checksum of each checksum type and the
`ConfigurationPBMeta` message. -/
structure EntryCodec (P : Type) where
  checksum : Nat → Bytes → UInt32
  serializeConfiguration : List P → Option (List P) → Option Bytes
  parseConfiguration : Bytes → Option (List P × Option (List P))
  parse_serialize : ∀ peers oldPeers bytes,
    serializeConfiguration peers oldPeers = some bytes →
      parseConfiguration bytes = some (peers, keptOldPeers oldPeers)

def plainCodec : EntryCodec Nat where
  checksum := fun _ _ => 0
  serializeConfiguration := fun _ _ => none
  parseConfiguration := fun _ => none
  parse_serialize := by simp

def entryHeaderSize : Nat := 24

structure EntryHeader where
  term : Nat
  type : Nat
  checksumType : Nat
  dataLen : Nat
  dataChecksum : Nat
deriving DecidableEq, Repr

def metaField (type checksumType : Nat) : Nat :=
  (type <<< 24 ||| checksumType <<< 16) % 2 ^ 32

def metaFieldType (field : Nat) : Nat := field >>> 24

def metaFieldChecksumType (field : Nat) : Nat := ((field <<< 8) % 2 ^ 32) >>> 24

theorem metaField_fields {type checksumType : Nat} (knownType : type < 4)
    (knownChecksum : checksumType < 2) :
    metaField type checksumType < 256 ^ 4 ∧
      metaFieldType (metaField type checksumType) = type ∧
      metaFieldChecksumType (metaField type checksumType) = checksumType := by
  interval_cases type <;> interval_cases checksumType <;> decide

def verifyChecksum {P : Type} (codec : EntryCodec P) (checksumType : Nat)
    (data : Bytes) (value : Nat) : Bool :=
  match checksumType with
  | 0 => value == (codec.checksum 0 data).toNat
  | 1 => value == (codec.checksum 1 data).toNat
  | _ => false

theorem verifyChecksum_self {P : Type} (codec : EntryCodec P) {checksumType : Nat}
    (known : checksumType < 2) (data : Bytes) :
    verifyChecksum codec checksumType data
      (codec.checksum checksumType data).toNat = true := by
  interval_cases checksumType <;> simp [verifyChecksum]

def packHeaderFront (header : EntryHeader) : Bytes :=
  packBE 8 header.term ++ packBE 4 (metaField header.type header.checksumType) ++
    packBE 4 header.dataLen ++ packBE 4 header.dataChecksum

def packHeader {P : Type} (codec : EntryCodec P) (header : EntryHeader) : Bytes :=
  packHeaderFront header ++
    packBE 4 (codec.checksum header.checksumType (packHeaderFront header)).toNat

@[simp] theorem packHeaderFront_length (header : EntryHeader) :
    (packHeaderFront header).length = 20 := by
  simp [packHeaderFront]

@[simp] theorem packHeader_length {P : Type} (codec : EntryCodec P)
    (header : EntryHeader) : (packHeader codec header).length = entryHeaderSize := by
  simp [packHeader, entryHeaderSize]

/-- The fields of a header as `RawUnpacker` reads them. -/
def unpackHeader (front : Bytes) : EntryHeader :=
  let field := unpackBE ((front.drop 8).take 4)
  { term := unpackBE (front.take 8)
    type := metaFieldType field
    checksumType := metaFieldChecksumType field
    dataLen := unpackBE ((front.drop 12).take 4)
    dataChecksum := unpackBE ((front.drop 16).take 4) }

structure EntryHeader.Fits (header : EntryHeader) : Prop where
  term : header.term < 2 ^ 64
  type : header.type < 4
  checksumType : header.checksumType < 2
  dataLen : header.dataLen < 2 ^ 32
  dataChecksum : header.dataChecksum < 2 ^ 32

theorem unpackHeader_packHeaderFront {header : EntryHeader} (fits : header.Fits) :
    unpackHeader (packHeaderFront header) = header := by
  obtain ⟨fieldBound, typeBack, checksumBack⟩ :=
    metaField_fields fits.type fits.checksumType
  have termBack : unpackBE (packBE 8 header.term) = header.term :=
    unpackBE_packBE_of_lt (by have := fits.term; omega)
  have fieldBack :
      unpackBE (packBE 4 (metaField header.type header.checksumType)) =
        metaField header.type header.checksumType :=
    unpackBE_packBE_of_lt fieldBound
  have lengthBack : unpackBE (packBE 4 header.dataLen) = header.dataLen :=
    unpackBE_packBE_of_lt (by have := fits.dataLen; omega)
  have checksumValueBack :
      unpackBE (packBE 4 header.dataChecksum) = header.dataChecksum :=
    unpackBE_packBE_of_lt (by have := fits.dataChecksum; omega)
  unfold unpackHeader packHeaderFront
  simp [List.drop_append, termBack, fieldBack, lengthBack,
    checksumValueBack, typeBack, checksumBack]

/-- `_load_entry`: error `1` is a torn entry at the end of the file, `-1` a
checksum mismatch.  The payload is read only when the caller asks for it. -/
def loadEntry {P : Type} (codec : EntryCodec P) (file : Bytes)
    (offset sizeHint : Nat) (wantData : Bool) : Except Int (EntryHeader × Bytes) :=
  let toRead := max sizeHint entryHeaderSize
  if file.length < offset + toRead then .error 1
  else
    let headerBuf := (file.drop offset).take entryHeaderSize
    let header := unpackHeader headerBuf
    if verifyChecksum codec header.checksumType (headerBuf.take 20)
        (unpackBE (headerBuf.drop 20)) then
      if wantData then
        if file.length < offset + (entryHeaderSize + header.dataLen) then .error 1
        else
          let data := (file.drop (offset + entryHeaderSize)).take header.dataLen
          if verifyChecksum codec header.checksumType data header.dataChecksum then
            .ok (header, data)
          else .error (-1)
      else .ok (header, [])
    else .error (-1)

/-- The payload bytes that `append` writes for an entry; `none` where it
returns an error instead. -/
def entryPayload {P : Type} (codec : EntryCodec P) (entry : LogEntry P Bytes) :
    Option Bytes :=
  match entry.type with
  | .data => some entry.data
  | .noOp => some []
  | .configuration =>
      match entry.peers with
      | some peers => codec.serializeConfiguration peers entry.oldPeers
      | none => none
  | .unknown => none

structure Record where
  term : Nat
  type : EntryType
  data : Bytes
  checksumType : Nat
deriving DecidableEq, Repr

def Record.header {P : Type} (codec : EntryCodec P) (record : Record) : EntryHeader :=
  { term := record.term
    type := record.type.toNat
    checksumType := record.checksumType
    dataLen := record.data.length
    dataChecksum := (codec.checksum record.checksumType record.data).toNat }

/-- The bytes of one `append`: header and payload. -/
def Record.encode {P : Type} (codec : EntryCodec P) (record : Record) : Bytes :=
  packHeader codec (record.header codec) ++ record.data

/-- `append` of a segment with this checksum type turns an entry into a record. -/
def Record.ofEntry? {P : Type} (codec : EntryCodec P) (checksumType : Nat)
    (entry : LogEntry P Bytes) : Option Record :=
  (entryPayload codec entry).map (fun data =>
    { term := entry.id.term, type := entry.type, data := data,
      checksumType := checksumType })

/-- Records that `append` can write: fields within their widths, and a payload
that parses when it is a configuration. -/
structure Record.Valid {P : Type} (codec : EntryCodec P) (record : Record) : Prop where
  term : record.term < 2 ^ 64
  dataLen : record.data.length < 2 ^ 32
  checksumType : record.checksumType < 2
  known : record.type ≠ .unknown
  parses : record.type = .configuration →
    (codec.parseConfiguration record.data).isSome

section Load

variable {P : Type} (codec : EntryCodec P)

@[simp] theorem Record.encode_length (record : Record) :
    (record.encode codec).length =
      entryHeaderSize + record.data.length := by
  simp [Record.encode]

theorem Record.valid_of_ofEntry? {checksumType : Nat} {entry : LogEntry P Bytes}
    {record : Record} (known : checksumType < 2)
    (written : Record.ofEntry? codec checksumType entry = some record)
    (term : entry.id.term < 2 ^ 64) (dataLen : record.data.length < 2 ^ 32) :
    record.Valid codec := by
  unfold Record.ofEntry? at written
  cases payload : entryPayload codec entry with
  | none =>
      rw [payload] at written
      contradiction
  | some data =>
      rw [payload] at written
      rw [← Option.some.inj written]
      rw [← Option.some.inj written] at dataLen
      unfold entryPayload at payload
      refine ⟨term, dataLen, known, ?_, ?_⟩
      · intro unknown
        simp only at unknown
        simp [unknown] at payload
      · intro isConf
        simp only at isConf ⊢
        cases listed : entry.peers with
        | none => simp [isConf, listed] at payload
        | some peers =>
            simp only [isConf, listed] at payload
            rw [codec.parse_serialize _ _ _ payload]
            rfl

theorem Record.header_fits {record : Record} (valid : record.Valid codec) :
    (record.header codec).Fits where
  term := valid.term
  type := record.type.toNat_lt
  checksumType := valid.checksumType
  dataLen := valid.dataLen
  dataChecksum := (codec.checksum record.checksumType record.data).toNat_lt

theorem unpackHeader_packHeader {header : EntryHeader} (fits : header.Fits) :
    unpackHeader (packHeader codec header) = header := by
  have fromFront : unpackHeader (packHeader codec header) =
      unpackHeader (packHeaderFront header) := by
    unfold packHeader packHeaderFront unpackHeader
    simp [List.drop_append]
  rw [fromFront, unpackHeader_packHeaderFront fits]

theorem verifyChecksum_packHeader {header : EntryHeader} (fits : header.Fits) :
    verifyChecksum codec header.checksumType ((packHeader codec header).take 20)
      (unpackBE ((packHeader codec header).drop 20)) = true := by
  have front : (packHeader codec header).take 20 = packHeaderFront header := by
    simp [packHeader]
  have last : (packHeader codec header).drop 20 =
      packBE 4 (codec.checksum header.checksumType (packHeaderFront header)).toNat := by
    simp [packHeader]
  rw [front, last,
    unpackBE_packBE_of_lt (codec.checksum header.checksumType (packHeaderFront header)).toNat_lt]
  exact verifyChecksum_self codec fits.checksumType _

theorem loadEntry_packHeader {header : EntryHeader} (fits : header.Fits)
    (before after : Bytes) :
    loadEntry codec (before ++ (packHeader codec header ++ after)) before.length
      entryHeaderSize false = .ok (header, []) := by
  have headerBuf :
      ((before ++ (packHeader codec header ++ after)).drop before.length).take
        entryHeaderSize = packHeader codec header := by
    simp
  have enough : ¬ (before ++ (packHeader codec header ++ after)).length <
      before.length + max entryHeaderSize entryHeaderSize := by
    simp only [List.length_append, packHeader_length]
    omega
  unfold loadEntry
  simp only [enough, if_false, headerBuf, unpackHeader_packHeader codec fits,
    verifyChecksum_packHeader codec fits, if_true]
  rfl

/-- An entry that lies wholly in the file is loaded back, with or without its
payload, for every size hint that does not reach beyond the file. -/
theorem loadEntry_encode {record : Record} (valid : record.Valid codec) (before after : Bytes)
    (sizeHint : Nat) (wantData : Bool)
    (hintFits : sizeHint ≤ entryHeaderSize + record.data.length + after.length) :
    loadEntry codec (before ++ (record.encode codec ++ after))
        before.length sizeHint wantData =
      .ok (record.header codec,
        if wantData then record.data else []) := by
  have fits := Record.header_fits codec valid
  set header := record.header codec with headerEq
  have headerBuf :
      ((before ++ (record.encode codec ++ after)).drop before.length).take
          entryHeaderSize = packHeader codec header := by
    simp [Record.encode, ← headerEq]
  have dataBuf :
      ((before ++ (record.encode codec ++ after)).drop
          (before.length + entryHeaderSize)).take header.dataLen = record.data := by
    simp [Record.encode, headerEq, Record.header, entryHeaderSize,
      ← List.drop_drop]
  have dataSum : verifyChecksum codec header.checksumType record.data
      header.dataChecksum = true :=
    verifyChecksum_self codec valid.checksumType record.data
  have enough : ¬ (before ++ (record.encode codec ++ after)).length <
      before.length + max sizeHint entryHeaderSize := by
    simp only [List.length_append, Record.encode_length]
    omega
  have enoughData : ¬ (before ++ (record.encode codec ++ after)).length <
      before.length + (entryHeaderSize + header.dataLen) := by
    simp only [List.length_append, Record.encode_length, headerEq, Record.header]
    omega
  unfold loadEntry
  simp only [enough, if_false, headerBuf, unpackHeader_packHeader codec fits,
    verifyChecksum_packHeader codec fits, if_true, enoughData, dataBuf, dataSum]
  cases wantData <;> rfl

end Load

end QuorumKit
