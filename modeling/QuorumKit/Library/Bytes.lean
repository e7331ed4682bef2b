/-
Big-endian packing of natural numbers into bytes.

The widths are numbers of bytes and values are reduced modulo the width, as a
cast to a fixed-width unsigned integer does.  Nothing here is about one file
format.
-/

import Mathlib.Data.List.Induction
import Mathlib.Tactic.Ring

namespace QuorumKit
namespace Library

abbrev Bytes := List UInt8

/-- The `width` low bytes of `value`, most significant first. -/
def packBE : Nat → Nat → Bytes
  | 0, _ => []
  | width + 1, value => packBE width (value / 256) ++ [UInt8.ofNat (value % 256)]

def unpackBE (bytes : Bytes) : Nat :=
  bytes.foldl (fun value byte => value * 256 + byte.toNat) 0

@[simp] theorem packBE_length (width value : Nat) :
    (packBE width value).length = width := by
  induction width generalizing value with
  | zero => rfl
  | succ width ih => simp [packBE, ih]

@[simp] theorem packBE_take_of_le {width count : Nat} (covers : width ≤ count)
    (value : Nat) : (packBE width value).take count = packBE width value :=
  List.take_of_length_le (by simpa using covers)

@[simp] theorem packBE_drop_of_le {width count : Nat} (covers : width ≤ count)
    (value : Nat) : (packBE width value).drop count = [] :=
  List.drop_eq_nil_of_le (by simpa using covers)

@[simp] theorem unpackBE_concat (bytes : Bytes) (byte : UInt8) :
    unpackBE (bytes ++ [byte]) = unpackBE bytes * 256 + byte.toNat := by
  simp [unpackBE]

theorem unpackBE_packBE (width value : Nat) :
    unpackBE (packBE width value) = value % 256 ^ width := by
  induction width generalizing value with
  | zero => simp [packBE, unpackBE, Nat.mod_one]
  | succ width ih =>
      have lowByte : (UInt8.ofNat (value % 256)).toNat = value % 256 := by
        simp
      rw [packBE, unpackBE_concat, ih, lowByte, Nat.pow_succ,
        Nat.mul_comm (256 ^ width) 256, Nat.mod_mul]
      ring

theorem unpackBE_packBE_of_lt {width value : Nat} (fits : value < 256 ^ width) :
    unpackBE (packBE width value) = value := by
  rw [unpackBE_packBE, Nat.mod_eq_of_lt fits]

theorem foldl_unpackBE (bytes : Bytes) (value : Nat) :
    bytes.foldl (fun value byte => value * 256 + byte.toNat) value =
      value * 256 ^ bytes.length + unpackBE bytes := by
  induction bytes generalizing value with
  | nil => simp [unpackBE]
  | cons byte rest ih =>
      rw [unpackBE, List.foldl_cons, List.foldl_cons, ih, ih, List.length_cons]
      ring

theorem unpackBE_cons (byte : UInt8) (rest : Bytes) :
    unpackBE (byte :: rest) = byte.toNat * 256 ^ rest.length + unpackBE rest := by
  rw [unpackBE, List.foldl_cons, Nat.zero_mul, Nat.zero_add, foldl_unpackBE]

theorem unpackBE_lt (bytes : Bytes) : unpackBE bytes < 256 ^ bytes.length := by
  induction bytes with
  | nil => exact Nat.one_pos
  | cons byte rest ih =>
      have small : byte.toNat + 1 ≤ 256 := byte.toNat_lt
      have scaled := Nat.mul_le_mul_right (256 ^ rest.length) small
      rw [unpackBE_cons, List.length_cons, Nat.pow_succ, Nat.mul_comm _ 256]
      rw [Nat.succ_mul] at scaled
      omega

theorem packBE_unpackBE (bytes : Bytes) : packBE bytes.length (unpackBE bytes) = bytes := by
  induction bytes using List.reverseRecOn with
  | nil => rfl
  | append_singleton front byte ih =>
      have small := byte.toNat_lt
      have high : (unpackBE front * 256 + byte.toNat) / 256 = unpackBE front := by omega
      have low : (unpackBE front * 256 + byte.toNat) % 256 = byte.toNat := by omega
      rw [List.length_append, List.length_singleton, packBE, unpackBE_concat, high, low, ih,
        UInt8.ofNat_toNat]

end Library
end QuorumKit
