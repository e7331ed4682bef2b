/-
Files that are written piece by piece at increasing offsets.

A piece of zeros may be left out: it shows as zeros once something is written
behind it, and is missing from the file until then.  `Covers` is the relation
between such a file and the bytes it is a copy of.
-/

import QuorumKit.Library.Bytes

namespace QuorumKit
namespace Library

def padTo (file : Bytes) (offset : Nat) : Bytes :=
  file ++ List.replicate (offset - file.length) 0

theorem padTo_length {file : Bytes} {offset : Nat} (beyond : file.length ≤ offset) :
    (padTo file offset).length = offset := by
  simp only [padTo, List.length_append, List.length_replicate]
  omega

theorem padTo_of_le {file : Bytes} {offset : Nat} (within : offset ≤ file.length) :
    padTo file offset = file := by
  rw [padTo, Nat.sub_eq_zero_of_le within]
  exact List.append_nil file

def writeAt (file : Bytes) (offset : Nat) (data : Bytes) : Bytes :=
  (padTo file offset).take offset ++ data ++ file.drop (offset + data.length)

theorem writeAt_beyond {file : Bytes} {offset : Nat} (beyond : file.length ≤ offset)
    (data : Bytes) : writeAt file offset data = padTo file offset ++ data := by
  have covered : file.length ≤ offset + data.length := by omega
  rw [writeAt, List.take_of_length_le (Nat.le_of_eq (padTo_length beyond)),
    List.drop_eq_nil_of_le covered, List.append_nil]

def resizeAppend (file : Bytes) (offset : Nat) (data : Bytes) : Bytes :=
  (padTo file offset).take offset ++ data

theorem resizeAppend_beyond {file : Bytes} {offset : Nat} (beyond : file.length ≤ offset)
    (data : Bytes) : resizeAppend file offset data = padTo file offset ++ data := by
  rw [resizeAppend, List.take_of_length_le (Nat.le_of_eq (padTo_length beyond))]

theorem take_padTo_length (file : Bytes) (offset : Nat) :
    ((padTo file offset).take offset).length = offset := by
  rw [List.length_take, padTo, List.length_append, List.length_replicate]
  omega

theorem writeAt_writeAt (file : Bytes) (offset : Nat) (first second : Bytes) :
    writeAt (writeAt file offset first) (offset + first.length) second =
      writeAt file offset (first ++ second) := by
  have front : ((padTo file offset).take offset ++ first).length =
      offset + first.length := by
    rw [List.length_append, take_padTo_length]
  have long : offset + first.length ≤ (writeAt file offset first).length := by
    rw [writeAt, List.length_append, front]
    exact Nat.le_add_right _ _
  have behind : (writeAt file offset first).drop (offset + first.length + second.length) =
      file.drop (offset + first.length + second.length) := by
    rw [← List.drop_drop, writeAt, List.drop_left' front, List.drop_drop]
  rw [writeAt, padTo_of_le long, behind]
  rw [writeAt, List.take_left' front, writeAt, List.length_append]
  simp only [List.append_assoc, Nat.add_assoc]

theorem resizeAppend_resizeAppend (file : Bytes) (offset : Nat) (first second : Bytes) :
    resizeAppend (resizeAppend file offset first) (offset + first.length) second =
      resizeAppend file offset (first ++ second) := by
  have front : (resizeAppend file offset first).length = offset + first.length := by
    rw [resizeAppend, List.length_append, take_padTo_length]
  rw [resizeAppend, padTo_of_le (Nat.le_of_eq front.symm),
    List.take_of_length_le (Nat.le_of_eq front), resizeAppend, resizeAppend,
    List.append_assoc]

structure Covers (file source : Bytes) (offset : Nat) : Prop where
  short : file.length ≤ offset
  within : offset ≤ source.length
  padded : padTo file offset = source.take offset

theorem Covers.start (source : Bytes) : Covers [] source 0 where
  short := Nat.le_refl 0
  within := Nat.zero_le _
  padded := by simp [padTo]

theorem take_add_piece (source : Bytes) (offset : Nat) {piece : Bytes}
    (next : piece <+: source.drop offset) :
    source.take (offset + piece.length) = source.take offset ++ piece := by
  rw [List.take_add, ← List.prefix_iff_eq_take.mp next]

theorem piece_within {source : Bytes} {offset : Nat} {piece : Bytes}
    (inside : offset ≤ source.length) (next : piece <+: source.drop offset) :
    offset + piece.length ≤ source.length := by
  have bound := next.length_le
  rw [List.length_drop] at bound
  omega

theorem Covers.write {file source piece : Bytes} {offset : Nat}
    (covers : Covers file source offset) (next : piece <+: source.drop offset) :
    Covers (padTo file offset ++ piece) source (offset + piece.length) where
  short := by
    rw [List.length_append, padTo_length covers.short]
  within := piece_within covers.within next
  padded := by
    rw [padTo_of_le, take_add_piece source offset next, covers.padded]
    rw [List.length_append, padTo_length covers.short]

theorem Covers.skip {file source : Bytes} {offset count : Nat}
    (covers : Covers file source offset)
    (next : List.replicate count 0 <+: source.drop offset) :
    Covers file source (offset + count) where
  short := Nat.le_trans covers.short (Nat.le_add_right offset count)
  within := by
    have bound := piece_within covers.within next
    rwa [List.length_replicate] at bound
  padded := by
    have reached := take_add_piece source offset next
    rw [List.length_replicate] at reached
    have split : offset + count - file.length = (offset - file.length) + count := by
      have short := covers.short
      omega
    rw [reached, ← covers.padded, padTo, padTo, split, List.append_assoc,
      List.replicate_append_replicate]

theorem take_padTo {file : Bytes} {offset count : Nat} (within : count ≤ offset) :
    (padTo file offset).take count = padTo (file.take count) count := by
  rw [padTo, padTo, List.take_append, List.take_replicate, List.length_take]
  congr 2
  omega

theorem drop_padTo (file : Bytes) (offset count : Nat) :
    (padTo file offset).drop count = padTo (file.drop count) (offset - count) := by
  rw [padTo, padTo, List.drop_append, List.drop_replicate, List.length_drop]
  congr 2
  omega

theorem Covers.drop {file source : Bytes} {offset count : Nat}
    (covers : Covers file source offset) (inside : count ≤ offset) :
    Covers (file.drop count) (source.drop count) (offset - count) where
  short := by
    have short := covers.short
    rw [List.length_drop]
    omega
  within := by
    have within := covers.within
    rw [List.length_drop]
    omega
  padded := by
    rw [← drop_padTo, covers.padded, List.drop_take]

theorem Covers.take {file source : Bytes} {offset count : Nat}
    (covers : Covers file source offset) (inside : count ≤ offset) :
    padTo (file.take count) count = source.take count := by
  rw [← take_padTo inside, covers.padded, List.take_take, Nat.min_eq_left inside]

theorem Covers.exact_iff {file source : Bytes} (covers : Covers file source source.length) :
    file = source ↔ file.length = source.length := by
  constructor
  · intro same
    rw [same]
  · intro same
    have padded := covers.padded
    rwa [padTo_of_le (Nat.le_of_eq same.symm), List.take_length] at padded

end Library
end QuorumKit
