/-
The buffer of a `FileSegData`, with its headers in place.

`append` reserves the header of a new segment, lets contiguous pieces join the segment, and
comes back to the header when the segment is closed.  Offsets are those of the source, which
go around at `2 ^ 64`; the first segment at the offset `0` is not told from no segment.  The
reader trusts the headers and checks that the buffer has all they promise.
-/

import QuorumKit.Snapshot.FileSegData

namespace QuorumKit

open Library (Bytes writeAt unpackBE)
open FileSegData (segHeaderSize segHeader encodeSegment)

/-- `_seg_header` is the place of the reserved area, if there is one. -/
structure SegmentBuffer where
  data : Bytes := []
  segHeader : Option Nat := none
  segOffset : UInt64 := 0
  segLen : UInt32 := 0

namespace SegmentBuffer

/-- What `reserve` leaves in a buffer of this length until it is overwritten. -/
def reserved (memory : Nat → UInt8) (length : Nat) : Bytes :=
  (List.range segHeaderSize).map (fun place => memory (length + place))

/-- The header of the last segment is filled in; there has to be an area for it. -/
def closeSegment (buffer : SegmentBuffer) : Option Bytes :=
  if 0 < buffer.segLen then
    buffer.segHeader.map (fun area =>
      writeAt buffer.data area
        (FileSegData.segHeader buffer.segOffset.toNat buffer.segLen.toNat))
  else some buffer.data

def append (memory : Nat → UInt8) (bytes : Bytes) (offset : UInt64) (buffer : SegmentBuffer) :
    Option SegmentBuffer :=
  let len := UInt32.ofNat bytes.length
  if 0 ≠ buffer.segOffset ∧ offset = buffer.segOffset + buffer.segLen.toUInt64 then
    some { buffer with data := buffer.data ++ bytes, segLen := buffer.segLen + len }
  else
    buffer.closeSegment.map (fun data =>
      { data := data ++ reserved memory data.length ++ bytes
        segHeader := some data.length
        segOffset := offset
        segLen := len })

def close (buffer : SegmentBuffer) : Option SegmentBuffer :=
  buffer.closeSegment.map (fun data => { buffer with data := data, segOffset := 0, segLen := 0 })

/-- The calls of a writer; `data` gives the buffer out and closes it before. -/
inductive Call where
  | append (offset : UInt64) (bytes : Bytes)
  | data

def call (memory : Nat → UInt8) : Call → SegmentBuffer → Option SegmentBuffer
  | .append offset bytes, buffer => buffer.append memory bytes offset
  | .data, buffer => buffer.close

def calls (memory : Nat → UInt8) : List Call → SegmentBuffer → Option SegmentBuffer
  | [], buffer => some buffer
  | head :: rest, buffer => (buffer.call memory head).bind (calls memory rest)

/-- `next` of a buffer that is not empty, with its checks. -/
def next (data : Bytes) : Option (Nat × UInt64 × Bytes × Bytes) :=
  if data.length < segHeaderSize then none
  else
    match FileSegData.next data with
    | (segLen, offset, body, rest) =>
        if body.length = segLen then some (segLen, UInt64.ofNat offset, body, rest) else none

def iterate : Nat → Bytes → Option (List (UInt64 × Bytes) × Bytes)
  | 0, _ => none
  | fuel + 1, data =>
      if data = [] then some ([], [])
      else
        match next data with
        | none => none
        | some (segLen, offset, body, rest) =>
            if segLen = 0 then some ([], rest)
            else (iterate fuel rest).map (fun read => ((offset, body) :: read.1, read.2))

def encode (segment : UInt64 × Bytes) : Bytes := encodeSegment (segment.1.toNat, segment.2)

structure Segments where
  former : List (UInt64 × Bytes) := []
  last : Option (UInt64 × Bytes) := none

namespace Segments

def all (segments : Segments) : List (UInt64 × Bytes) := segments.former ++ segments.last.toList

/-- A contiguous piece joins the last segment, unless that one starts at the offset `0`. -/
def append (offset : UInt64) (bytes : Bytes) (segments : Segments) : Segments :=
  match segments.last with
  | none => { segments with last := some (offset, bytes) }
  | some (start, body) =>
      if 0 ≠ start ∧ offset = start + UInt64.ofNat body.length then
        { segments with last := some (start, body ++ bytes) }
      else { former := segments.all, last := some (offset, bytes) }

def call : Call → Segments → Segments
  | .append offset bytes, segments => segments.append offset bytes
  | .data, segments => { former := segments.all }

def calls (script : List Call) (segments : Segments) : Segments :=
  script.foldl (fun segments call => segments.call call) segments

end Segments

def piece? : Call → Option (UInt64 × Bytes)
  | .append offset bytes => some (offset, bytes)
  | .data => none

def pieces (script : List Call) : List (UInt64 × Bytes) := script.filterMap piece?

/-- The bytes that the pieces write, each at its offset, in order. -/
def writes (pieces : List (UInt64 × Bytes)) : List (UInt64 × UInt8) :=
  pieces.flatMap (fun piece =>
    piece.2.mapIdx (fun place byte => (piece.1 + UInt64.ofNat place, byte)))

theorem writes_append (left right : List (UInt64 × Bytes)) :
    writes (left ++ right) = writes left ++ writes right :=
  List.flatMap_append

theorem writes_join (start : UInt64) (body bytes : Bytes) :
    writes [(start, body ++ bytes)] =
      writes [(start, body)] ++ writes [(start + UInt64.ofNat body.length, bytes)] := by
  unfold writes
  simp only [List.flatMap_singleton]
  rw [List.mapIdx_append]
  congr 1
  apply List.mapIdx_eq_mapIdx_iff.mpr
  intro place inside
  rw [Nat.add_comm, UInt64.ofNat_add, UInt64.add_assoc]

theorem Segments.call_writes (call : Call) (segments : Segments) :
    writes (segments.call call).all = writes segments.all ++ writes (piece? call).toList := by
  cases call with
  | data =>
      simp [Segments.call, Segments.all, piece?, writes]
  | append offset bytes =>
      unfold Segments.call Segments.append
      cases isLast : segments.last with
      | none =>
          simp only [Segments.all, isLast, Option.toList_none, List.append_nil, piece?,
            Option.toList_some]
          exact writes_append _ _
      | some last =>
          simp only [isLast]
          split_ifs with joins
          · simp only [Segments.all, isLast, Option.toList_some, piece?]
            rw [writes_append, writes_append, List.append_assoc, joins.2, writes_join]
          · simp only [piece?, Segments.all, Option.toList_some]
            exact writes_append _ _

theorem Segments.calls_writes (script : List Call) : ∀ segments : Segments,
    writes (segments.calls script).all = writes segments.all ++ writes (pieces script) := by
  induction script with
  | nil =>
      intro segments
      simp [Segments.calls, pieces, writes]
  | cons call rest ih =>
      intro segments
      have later := ih (segments.call call)
      rw [segments.call_writes call] at later
      have split : pieces (call :: rest) = (piece? call).toList ++ pieces rest := by
        unfold pieces
        cases isPiece : piece? call with
        | none => simp [isPiece]
        | some piece => simp [isPiece]
      rw [split, writes_append, ← List.append_assoc]
      exact later

/-- The buffer holds the segments, the last one behind an area for its header. -/
def Holds (buffer : SegmentBuffer) (segments : Segments) : Prop :=
  let former := segments.former.flatMap encode
  match segments.last with
  | none => buffer.data = former ∧ buffer.segOffset = 0 ∧ buffer.segLen = 0
  | some (start, body) =>
      buffer.segOffset = start ∧ buffer.segLen = UInt32.ofNat body.length ∧ body ≠ [] ∧
        buffer.segHeader = some former.length ∧
        ∃ area : Bytes, area.length = segHeaderSize ∧ buffer.data = former ++ area ++ body

variable {memory : Nat → UInt8} {buffer : SegmentBuffer} {segments : Segments}

def Segments.Short (segments : Segments) : Prop :=
  ∀ segment ∈ segments.all, segment.2.length < 2 ^ 32

theorem writeAt_area (former area body header : Bytes) (same : header.length = area.length) :
    writeAt (former ++ area ++ body) former.length header = former ++ header ++ body := by
  have covered : former.length ≤ (former ++ area ++ body).length := by
    simp only [List.length_append]
    omega
  have front : (former ++ area ++ body).take former.length = former := by
    rw [List.append_assoc, List.take_left]
  have back : (former ++ area ++ body).drop (former.length + header.length) = body := by
    rw [same, ← List.length_append, List.drop_left]
  rw [writeAt, Library.padTo_of_le covered, front, back]

theorem Holds.closeSegment (holds : Holds buffer segments) (short : segments.Short) :
    buffer.closeSegment = some (segments.all.flatMap encode) := by
  unfold Holds at holds
  unfold SegmentBuffer.closeSegment Segments.all
  cases isLast : segments.last with
  | none =>
      rw [isLast] at holds
      obtain ⟨data, _, noLen⟩ := holds
      have notPositive : ¬ 0 < buffer.segLen := by
        rw [noLen]
        decide
      rw [if_neg notPositive, data, Option.toList_none, List.append_nil]
  | some last =>
      obtain ⟨start, body⟩ := last
      rw [isLast] at holds
      obtain ⟨isOffset, isLen, nonempty, isHeader, area, areaLength, data⟩ := holds
      have bounded : body.length < 2 ^ 32 :=
        short (start, body) (by simp [Segments.all, isLast])
      have length : buffer.segLen.toNat = body.length := by
        rw [isLen, UInt32.toNat_ofNat_of_lt' bounded]
      have positive : 0 < buffer.segLen := by
        rw [UInt32.lt_iff_toNat_lt, length]
        exact List.length_pos_iff.mpr nonempty
      rw [if_pos positive, isHeader, Option.map_some, data, length, isOffset,
        writeAt_area _ _ _ _ (by rw [areaLength]; exact FileSegData.segHeader_length _ _),
        Option.toList_some, List.flatMap_append, List.flatMap_singleton, encode, encodeSegment,
        List.append_assoc]

theorem Holds.close (holds : Holds buffer segments) (short : segments.Short) :
    ∃ after, buffer.close = some after ∧ Holds after (segments.call .data) ∧
      after.data = segments.all.flatMap encode := by
  unfold SegmentBuffer.close
  rw [holds.closeSegment short]
  exact ⟨_, rfl, ⟨rfl, rfl, rfl⟩, rfl⟩

theorem Holds.append (holds : Holds buffer segments) (short : segments.Short) {bytes : Bytes}
    (nonempty : bytes ≠ []) (offset : UInt64) :
    ∃ after, buffer.append memory bytes offset = some after ∧
      Holds after (segments.append offset bytes) := by
  have starts : ∃ after,
      buffer.closeSegment.map (fun data =>
        ({ data := data ++ reserved memory data.length ++ bytes
           segHeader := some data.length
           segOffset := offset
           segLen := UInt32.ofNat bytes.length } : SegmentBuffer)) = some after ∧
        Holds after { former := segments.all, last := some (offset, bytes) } := by
    rw [holds.closeSegment short]
    refine ⟨_, rfl, rfl, rfl, nonempty, rfl, _, ?_, rfl⟩
    rw [reserved, List.length_map, List.length_range]
  have held := holds
  unfold Holds at held
  unfold SegmentBuffer.append Segments.append
  cases isLast : segments.last with
  | none =>
      rw [isLast] at held
      simp only
      rw [if_neg (fun joins => joins.1 held.2.1.symm)]
      have same : segments.all = segments.former := by
        rw [Segments.all, isLast, Option.toList_none, List.append_nil]
      rw [same] at starts
      exact starts
  | some last =>
      obtain ⟨start, body⟩ := last
      rw [isLast] at held
      obtain ⟨isOffset, isLen, bodyNonempty, isHeader, area, areaLength, data⟩ := held
      have bounded : body.length < 2 ^ 32 :=
        short (start, body) (by simp [Segments.all, isLast])
      have length : buffer.segLen.toUInt64 = UInt64.ofNat body.length := by
        rw [isLen, UInt32.toUInt64_ofNat' bounded]
      simp only
      rw [length]
      subst isOffset
      split_ifs with joins
      · refine ⟨_, rfl, rfl, ?_, ?_, isHeader, area, areaLength, ?_⟩
        · rw [isLen, List.length_append, UInt32.ofNat_add]
        · exact fun empty => bodyNonempty (List.append_eq_nil_iff.mp empty).1
        · rw [data, List.append_assoc]
      · exact starts

theorem Segments.Short.of_call {call : Call} (short : (segments.call call).Short) :
    segments.Short := by
  intro segment member
  cases call with
  | data =>
      refine short segment ?_
      rw [Segments.call, Segments.all, Option.toList_none, List.append_nil]
      exact member
  | append offset bytes =>
      change (segments.append offset bytes).Short at short
      unfold Segments.append at short
      cases isLast : segments.last with
      | none =>
          simp only [isLast] at short
          rw [Segments.all, isLast, Option.toList_none, List.append_nil] at member
          exact short segment (List.mem_append_left _ member)
      | some last =>
          simp only [isLast] at short
          split_ifs at short with joins
          · rw [Segments.all, isLast, Option.toList_some] at member
            rcases List.mem_append.mp member with former | isSegment
            · exact short segment (List.mem_append_left _ former)
            · rw [List.mem_singleton] at isSegment
              have joined := short (last.1, last.2 ++ bytes)
                (List.mem_append_right _ (List.mem_singleton_self _))
              rw [List.length_append] at joined
              rw [isSegment]
              exact lt_of_le_of_lt (Nat.le_add_right _ _) joined
          · exact short segment (List.mem_append_left _ member)

theorem Segments.Short.of_calls {script : List Call} : ∀ {segments : Segments},
    (segments.calls script).Short → segments.Short := by
  induction script with
  | nil => exact fun short => short
  | cons call rest ih => exact fun short => (ih short).of_call

def Segments.Full (segments : Segments) : Prop := ∀ segment ∈ segments.all, segment.2 ≠ []

theorem Segments.Full.call (full : segments.Full) {call : Call}
    (nonempty : ∀ piece ∈ piece? call, piece.2 ≠ []) : (segments.call call).Full := by
  intro segment member
  cases call with
  | data =>
      rw [Segments.call, Segments.all, Option.toList_none, List.append_nil] at member
      exact full segment member
  | append offset bytes =>
      have some : bytes ≠ [] := nonempty (offset, bytes) rfl
      change segment ∈ (segments.append offset bytes).all at member
      unfold Segments.append at member
      cases isLast : segments.last with
      | none =>
          simp only [isLast] at member
          rcases List.mem_append.mp member with former | isNew
          · exact full segment (List.mem_append_left _ former)
          · rw [List.mem_singleton.mp isNew]
            exact some
      | some last =>
          simp only [isLast] at member
          split_ifs at member with joins
          · rcases List.mem_append.mp member with former | isJoined
            · exact full segment (List.mem_append_left _ former)
            · rw [List.mem_singleton.mp isJoined]
              exact fun empty => some (List.append_eq_nil_iff.mp empty).2
          · rcases List.mem_append.mp member with former | isNew
            · exact full segment former
            · rw [List.mem_singleton.mp isNew]
              exact some

theorem calls_append (memory : Nat → UInt8) (script later : List Call) :
    ∀ buffer : SegmentBuffer, calls memory (script ++ later) buffer =
      (calls memory script buffer).bind (calls memory later) := by
  induction script with
  | nil => exact fun _ => rfl
  | cons call rest ih =>
      intro buffer
      change (buffer.call memory call).bind (calls memory (rest ++ later)) = _
      rw [funext ih, ← Option.bind_assoc]
      rfl

theorem Holds.calls (memory : Nat → UInt8) (script : List Call) :
    ∀ {buffer : SegmentBuffer} {segments : Segments}, Holds buffer segments → segments.Full →
      (∀ piece ∈ pieces script, piece.2 ≠ []) → (segments.calls script).Short →
        ∃ after, calls memory script buffer = some after ∧ Holds after (segments.calls script) ∧
          (segments.calls script).Full := by
  induction script with
  | nil => exact fun holds full _ _ => ⟨_, rfl, holds, full⟩
  | cons call rest ih =>
      intro buffer segments holds full nonempty short
      have shortAfter : (segments.call call).Short := Segments.Short.of_calls short
      have shortNow := shortAfter.of_call
      have callNonempty : ∀ piece ∈ piece? call, piece.2 ≠ [] := by
        intro piece isPiece
        exact nonempty piece (List.mem_filterMap.mpr ⟨call, List.mem_cons_self, isPiece⟩)
      have restNonempty : ∀ piece ∈ pieces rest, piece.2 ≠ [] := by
        intro piece member
        obtain ⟨other, inRest, isPiece⟩ := List.mem_filterMap.mp member
        exact nonempty piece
          (List.mem_filterMap.mpr ⟨other, List.mem_cons_of_mem _ inRest, isPiece⟩)
      have called : ∃ after, buffer.call memory call = some after ∧
          Holds after (segments.call call) := by
        cases call with
        | append offset bytes =>
            exact holds.append shortNow (callNonempty (offset, bytes) rfl) offset
        | data =>
            obtain ⟨after, isAfter, holdsAfter, _⟩ := holds.close shortNow
            exact ⟨after, isAfter, holdsAfter⟩
      obtain ⟨after, isAfter, holdsAfter⟩ := called
      obtain ⟨last, isLast, holdsLast⟩ := ih holdsAfter (full.call callNonempty) restNonempty short
      refine ⟨last, ?_, holdsLast⟩
      rw [SegmentBuffer.calls, isAfter]
      exact isLast

/-- The writer without its area: the header is put in when the segment is closed. -/
def Segments.toFileSegData (segments : Segments) : FileSegData :=
  match segments.last with
  | none => { data := segments.former.flatMap encode }
  | some (start, body) =>
      { data := segments.former.flatMap encode
        segOffset := start.toNat
        segLen := body.length
        body := body }

theorem Segments.Full.toFileSegData_close (full : segments.Full) :
    segments.toFileSegData.close.data = segments.all.flatMap encode := by
  unfold Segments.toFileSegData Segments.all FileSegData.close
  cases isLast : segments.last with
  | none =>
      rw [if_neg (lt_irrefl 0), Option.toList_none, List.append_nil]
  | some last =>
      have nonempty : last.2 ≠ [] := full last (by simp [Segments.all, isLast])
      have positive : 0 < last.2.length := List.length_pos_iff.mpr nonempty
      simp only
      rw [if_pos positive, Option.toList_some, List.flatMap_append, List.flatMap_singleton, encode,
        encodeSegment, List.append_assoc]

theorem Segments.Full.toFileSegData_append (full : segments.Full) (offset : UInt64)
    (bytes : Bytes)
    (inside : ∀ last ∈ segments.last, last.1.toNat + last.2.length < 2 ^ 64) :
    (segments.append offset bytes).toFileSegData =
      segments.toFileSegData.append bytes offset.toNat := by
  have closed := full.toFileSegData_close
  unfold Segments.append FileSegData.append
  cases isLast : segments.last with
  | none =>
      have noSegment : segments.toFileSegData.segOffset = 0 := by
        simp [Segments.toFileSegData, isLast]
      have all : segments.all = segments.former := by
        rw [Segments.all, isLast, Option.toList_none, List.append_nil]
      rw [if_neg (fun joins => joins.1 noSegment), closed, all]
      rfl
  | some last =>
      obtain ⟨start, body⟩ := last
      have below := inside (start, body) isLast
      have isWriter : segments.toFileSegData =
          { data := segments.former.flatMap encode
            segOffset := start.toNat
            segLen := body.length
            body := body } := by
        simp [Segments.toFileSegData, isLast]
      have isEnd : (start + UInt64.ofNat body.length).toNat = start.toNat + body.length := by
        rw [UInt64.toNat_add, UInt64.toNat_ofNat', Nat.add_mod_mod, Nat.mod_eq_of_lt below]
      have same : (0 ≠ start ∧ offset = start + UInt64.ofNat body.length) ↔
          segments.toFileSegData.segOffset ≠ 0 ∧
            offset.toNat = segments.toFileSegData.segOffset + segments.toFileSegData.segLen := by
        rw [isWriter, ← isEnd]
        constructor
        · rintro ⟨started, rfl⟩
          exact ⟨fun zero => started (UInt64.toNat_inj.mp zero).symm, rfl⟩
        · rintro ⟨started, atEnd⟩
          exact ⟨fun zero => started (congrArg UInt64.toNat zero.symm), UInt64.toNat_inj.mp atEnd⟩
      simp only
      by_cases joins : 0 ≠ start ∧ offset = start + UInt64.ofNat body.length
      · rw [if_pos joins, if_pos (same.mp joins), isWriter]
        simp only [Segments.toFileSegData, List.length_append]
      · rw [if_neg joins, if_neg (fun also => joins (same.mpr also)), closed]
        rfl

theorem next_encode {segment : UInt64 × Bytes} (nonempty : segment.2 ≠ [])
    (short : segment.2.length < 2 ^ 32) (rest : Bytes) :
    next (encode segment ++ rest) = some (segment.2.length, segment.1, segment.2, rest) := by
  have fits : FileSegData.Fits (segment.1.toNat, segment.2) :=
    ⟨segment.1.toNat_lt, List.length_pos_iff.mpr nonempty, short⟩
  have long : ¬ (encode segment ++ rest).length < segHeaderSize := by
    simp only [encode, encodeSegment, List.length_append, FileSegData.segHeader_length]
    omega
  unfold SegmentBuffer.next
  rw [if_neg long, encode, FileSegData.next_encodeSegment fits rest]
  simp

theorem iterate_encode (written : List (UInt64 × Bytes)) :
    (∀ segment ∈ written, segment.2 ≠ [] ∧ segment.2.length < 2 ^ 32) →
      ∀ fuel, written.length < fuel →
        iterate fuel (written.flatMap encode) = some (written, []) := by
  induction written with
  | nil =>
      intro _ fuel enough
      obtain ⟨fuel, rfl⟩ := Nat.exists_eq_succ_of_ne_zero (Nat.ne_of_gt enough)
      rfl
  | cons segment rest ih =>
      intro fit fuel enough
      obtain ⟨fuel, rfl⟩ := Nat.exists_eq_succ_of_ne_zero (by omega : fuel ≠ 0)
      obtain ⟨nonempty, short⟩ := fit segment List.mem_cons_self
      have later := ih (fun other member => fit other (List.mem_cons_of_mem _ member)) fuel
        (Nat.lt_of_succ_lt_succ enough)
      have occupied : encode segment ++ rest.flatMap encode ≠ [] := by
        intro empty
        have lengths := congrArg List.length empty
        simp only [encode, encodeSegment, List.length_append, FileSegData.segHeader_length,
          segHeaderSize, List.length_nil] at lengths
        omega
      have some : segment.2.length ≠ 0 := by
        intro empty
        exact nonempty (List.length_eq_zero_iff.mp empty)
      rw [List.flatMap_cons, iterate, if_neg occupied, next_encode nonempty short]
      simp only
      rw [if_neg some, later, Option.map_some]

theorem length_le_encode (written : List (UInt64 × Bytes)) :
    written.length ≤ (written.flatMap encode).length := by
  have pairs : written.flatMap encode =
      (written.map (fun segment => (segment.1.toNat, segment.2))).flatMap encodeSegment := by
    rw [List.flatMap_map]
    rfl
  rw [pairs]
  have bound := FileSegData.encode_length
    (written.map (fun segment => (segment.1.toNat, segment.2)))
  rwa [List.length_map] at bound

/-- What has been written is read back, up to the end of the buffer. -/
theorem read_written (memory : Nat → UInt8) (script : List Call)
    (nonempty : ∀ piece ∈ pieces script, piece.2 ≠ [])
    (short : (Segments.calls script {}).Short) :
    ∃ buffer, calls memory (script ++ [.data]) {} = some buffer ∧
      ∀ fuel, buffer.data.length < fuel →
        ∃ segments, iterate fuel buffer.data = some (segments, []) ∧
          writes segments = writes (pieces script) := by
  have start : Holds {} {} := ⟨rfl, rfl, rfl⟩
  obtain ⟨buffer, isBuffer, holds, full⟩ :=
    start.calls memory script (fun _ member => absurd member List.not_mem_nil) nonempty short
  obtain ⟨after, isAfter, _, data⟩ := holds.close short
  refine ⟨after, ?_, ?_⟩
  · rw [calls_append, isBuffer, Option.bind_some]
    change buffer.close.bind (calls memory []) = _
    rw [isAfter]
    rfl
  · intro fuel enough
    refine ⟨(Segments.calls script {}).all, ?_, ?_⟩
    · rw [data] at enough ⊢
      exact iterate_encode _
        (fun segment member => ⟨full segment member, short segment member⟩) fuel
        (lt_of_le_of_lt (length_le_encode _) enough)
    · have same := Segments.calls_writes script {}
      exact same

/-- Two pieces at the start of a file stay apart, the third joins the second. -/
theorem read_written_threePieces :
    ∃ buffer, calls (fun _ => 9) [.append 0 [1, 2], .append 2 [3], .append 3 [4], .data] {} =
      some buffer ∧ ∃ segments, iterate 40 buffer.data = some (segments, []) ∧
        writes segments = [(0, 1), (1, 2), (2, 3), (3, 4)] := by
  obtain ⟨buffer, isBuffer, reads⟩ := read_written (fun _ => 9)
    [.append 0 [1, 2], .append 2 [3], .append 3 [4]] (by decide)
    (by unfold Segments.Short; decide)
  have length : buffer.data.length < 40 := by
    have same : calls (fun _ => 9)
        ([.append 0 [1, 2], .append 2 [3], .append 3 [4]] ++ [.data]) {} = some
          { data := [0, 0, 0, 0, 0, 0, 0, 0, 0, 0, 0, 2, 1, 2,
              0, 0, 0, 0, 0, 0, 0, 2, 0, 0, 0, 2, 3, 4]
            segHeader := some 14 } := by rfl
    rw [isBuffer] at same
    rw [Option.some.inj same]
    decide
  exact ⟨buffer, isBuffer, reads 40 length⟩

end SegmentBuffer

end QuorumKit
