/-
The attachment of a file reply, `FileSegData` of `braft/util.cpp`.

A segment is an offset, a length and that many bytes; the header of the open
segment is filled in when the segment is closed.  Lengths are kept as numbers
here and reduced to 32 bits where they are packed.
-/

import QuorumKit.Library.SparseFile

namespace QuorumKit

open Library (Bytes packBE unpackBE)

structure FileSegData where
  data : Bytes := []
  segOffset : Nat := 0
  segLen : Nat := 0
  body : Bytes := []

namespace FileSegData

def segHeaderSize : Nat := 12

def segHeader (offset len : Nat) : Bytes := packBE 8 offset ++ packBE 4 len

def close (seg : FileSegData) : FileSegData :=
  { data := if 0 < seg.segLen then
        seg.data ++ segHeader seg.segOffset seg.segLen ++ seg.body
      else seg.data }

/-- Data right behind the open segment joins it, unless that segment starts at
the offset `0`. -/
def append (seg : FileSegData) (bytes : Bytes) (offset : Nat) : FileSegData :=
  if seg.segOffset ≠ 0 ∧ offset = seg.segOffset + seg.segLen then
    { seg with segLen := seg.segLen + bytes.length, body := seg.body ++ bytes }
  else
    { data := seg.close.data, segOffset := offset, segLen := bytes.length, body := bytes }

/-- `next`: the length of the segment, its offset, its bytes and what follows. -/
def next (data : Bytes) : Nat × Nat × Bytes × Bytes :=
  let header := data.take segHeaderSize
  let segLen := unpackBE (header.drop 8)
  let rest := data.drop segHeaderSize
  (segLen, unpackBE (header.take 8), rest.take segLen, rest.drop segLen)

def segmentsWithin : Nat → Bytes → List (Nat × Bytes)
  | 0, _ => []
  | fuel + 1, data =>
      if data = [] then []
      else
        match next data with
        | (segLen, offset, body, rest) =>
            if segLen = 0 then [] else (offset, body) :: segmentsWithin fuel rest

/-- A segment takes more than its header, so the length bounds their number. -/
def segments (data : Bytes) : List (Nat × Bytes) := segmentsWithin data.length data

def encodeSegment (segment : Nat × Bytes) : Bytes :=
  segHeader segment.1 segment.2.length ++ segment.2

structure Fits (segment : Nat × Bytes) : Prop where
  offset : segment.1 < 2 ^ 64
  some : 0 < segment.2.length
  len : segment.2.length < 2 ^ 32

theorem segHeader_length (offset len : Nat) :
    (segHeader offset len).length = segHeaderSize := by
  simp [segHeader, segHeaderSize]

theorem next_encodeSegment {segment : Nat × Bytes} (fits : Fits segment) (rest : Bytes) :
    next (encodeSegment segment ++ rest) =
      (segment.2.length, segment.1, segment.2, rest) := by
  have header : (encodeSegment segment ++ rest).take segHeaderSize =
      segHeader segment.1 segment.2.length := by
    rw [encodeSegment, List.append_assoc,
      List.take_left' (segHeader_length segment.1 segment.2.length)]
  have behind : (encodeSegment segment ++ rest).drop segHeaderSize = segment.2 ++ rest := by
    rw [encodeSegment, List.append_assoc,
      List.drop_left' (segHeader_length segment.1 segment.2.length)]
  have offset : unpackBE ((segHeader segment.1 segment.2.length).take 8) = segment.1 := by
    rw [segHeader, List.take_left' (Library.packBE_length 8 segment.1)]
    exact Library.unpackBE_packBE_of_lt (by simpa using fits.offset)
  have len : unpackBE ((segHeader segment.1 segment.2.length).drop 8) =
      segment.2.length := by
    rw [segHeader, List.drop_left' (Library.packBE_length 8 segment.1)]
    exact Library.unpackBE_packBE_of_lt (by simpa using fits.len)
  simp only [next, header, behind, offset, len]
  rw [List.take_left, List.drop_left]

theorem segmentsWithin_encode (pieces : List (Nat × Bytes))
    (fits : ∀ piece ∈ pieces, Fits piece) (fuel : Nat) (enough : pieces.length ≤ fuel) :
    segmentsWithin fuel (pieces.flatMap encodeSegment) = pieces := by
  induction pieces generalizing fuel with
  | nil =>
      cases fuel with
      | zero => rfl
      | succ fuel => rfl
  | cons piece rest ih =>
      have pieceFits := fits piece (List.mem_cons_self ..)
      have later := fun other member => fits other (List.mem_cons_of_mem piece member)
      cases fuel with
      | zero => cases enough
      | succ fuel =>
          rw [List.flatMap_cons, segmentsWithin, next_encodeSegment pieceFits]
          have occupied : encodeSegment piece ++ rest.flatMap encodeSegment ≠ [] := by
            intro empty
            have lengths := congrArg List.length empty
            simp only [encodeSegment, List.length_append, segHeader_length,
              segHeaderSize, List.length_nil] at lengths
            omega
          have taken : piece.2.length ≠ 0 := Nat.ne_of_gt pieceFits.some
          simp only [if_neg occupied, if_neg taken]
          rw [ih later fuel (Nat.le_of_succ_le_succ enough)]

theorem encode_length (pieces : List (Nat × Bytes)) :
    pieces.length ≤ (pieces.flatMap encodeSegment).length := by
  induction pieces with
  | nil => exact Nat.le_refl 0
  | cons piece rest ih =>
      rw [List.flatMap_cons, List.length_append, List.length_cons]
      have header : 1 ≤ (encodeSegment piece).length := by
        simp only [encodeSegment, List.length_append, segHeader_length, segHeaderSize]
        omega
      omega

theorem segments_encode (pieces : List (Nat × Bytes)) (fits : ∀ piece ∈ pieces, Fits piece) :
    segments (pieces.flatMap encodeSegment) = pieces :=
  segmentsWithin_encode pieces fits _ (encode_length pieces)

structure Holds (seg : FileSegData) (closed : List (Nat × Bytes)) : Prop where
  data : seg.data = closed.flatMap encodeSegment
  length : seg.segLen = seg.body.length
  start : seg.body = [] → seg.segOffset = 0

def pieces (seg : FileSegData) (closed : List (Nat × Bytes)) : List (Nat × Bytes) :=
  if seg.body = [] then closed else closed ++ [(seg.segOffset, seg.body)]

theorem Holds.empty : Holds {} [] where
  data := rfl
  length := rfl
  start _ := rfl

theorem Holds.close_data {seg : FileSegData} {closed : List (Nat × Bytes)}
    (holds : Holds seg closed) :
    seg.close.data = (seg.pieces closed).flatMap encodeSegment := by
  unfold close pieces
  by_cases empty : seg.body = []
  · have zero : ¬ 0 < seg.segLen := by
      rw [holds.length, empty]
      exact Nat.lt_irrefl 0
    simp only [if_neg zero, if_pos empty]
    exact holds.data
  · have some : 0 < seg.segLen := by
      rw [holds.length]
      exact List.length_pos_iff.mpr empty
    simp only [if_pos some, if_neg empty]
    rw [List.flatMap_append, ← holds.data, List.flatMap_singleton, encodeSegment,
      holds.length, List.append_assoc]

theorem Holds.append {seg : FileSegData} {closed : List (Nat × Bytes)}
    (holds : Holds seg closed) {bytes : Bytes} (some : bytes ≠ []) (offset : Nat) :
    ∃ after, Holds (seg.append bytes offset) after ∧
      ((seg.append bytes offset).pieces after = seg.pieces closed ++ [(offset, bytes)] ∨
        ∃ front last, seg.pieces closed = front ++ [last] ∧
          offset = last.1 + last.2.length ∧
          (seg.append bytes offset).pieces after = front ++ [(last.1, last.2 ++ bytes)]) := by
  unfold FileSegData.append
  by_cases joins : seg.segOffset ≠ 0 ∧ offset = seg.segOffset + seg.segLen
  · rw [if_pos joins]
    have occupied : seg.body ≠ [] := fun empty => joins.1 (holds.start empty)
    have grown : seg.body ++ bytes ≠ [] := fun empty =>
      occupied (List.append_eq_nil_iff.mp empty).1
    refine ⟨closed, ⟨holds.data, ?_, fun empty => absurd empty grown⟩, Or.inr ?_⟩
    · rw [holds.length, List.length_append]
    · refine ⟨closed, (seg.segOffset, seg.body), ?_, ?_, ?_⟩
      · rw [pieces, if_neg occupied]
      · rw [joins.2, holds.length]
      · rw [pieces, if_neg grown]
  · rw [if_neg joins]
    refine ⟨seg.pieces closed, ⟨holds.close_data, rfl, fun empty => absurd empty some⟩,
      Or.inl ?_⟩
    rw [pieces, if_neg some]

end FileSegData

end QuorumKit
