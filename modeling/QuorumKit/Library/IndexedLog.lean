/-
Logs as a first index and a list.

The entry at index `first + k` is the `k`-th of the list, so a log has no hole.
The operations are those of a replicated log: append at the end, cut a suffix,
drop a prefix.  Each one is described by what it does to the entry at an index.
-/

import Mathlib.Data.List.Basic
import Mathlib.Data.List.Forall2

namespace QuorumKit

structure IndexedLog (E : Type) where
  first : Nat
  entries : List E
deriving DecidableEq, Repr

namespace IndexedLog

variable {E : Type}

def stop (log : IndexedLog E) : Nat := log.first + log.entries.length

def get? (log : IndexedLog E) (index : Nat) : Option E :=
  if index < log.first then none else log.entries[index - log.first]?

def append (log : IndexedLog E) (added : List E) : IndexedLog E :=
  { log with entries := log.entries ++ added }

def keepBelow (log : IndexedLog E) (index : Nat) : IndexedLog E :=
  { log with entries := log.entries.take (index - log.first) }

def dropBelow (log : IndexedLog E) (index : Nat) : IndexedLog E :=
  { first := index, entries := log.entries.drop (index - log.first) }

theorem first_le_stop (log : IndexedLog E) : log.first ≤ log.stop := Nat.le_add_right _ _

@[simp] theorem append_first (log : IndexedLog E) (added : List E) :
    (log.append added).first = log.first := rfl

@[simp] theorem append_stop (log : IndexedLog E) (added : List E) :
    (log.append added).stop = log.stop + added.length := by
  simp only [stop, append, List.length_append]
  omega

@[simp] theorem append_nil (log : IndexedLog E) : log.append [] = log := by
  cases log
  simp [append]

theorem append_append (log : IndexedLog E) (first second : List E) :
    (log.append first).append second = log.append (first ++ second) := by
  simp [append]

@[simp] theorem keepBelow_first (log : IndexedLog E) (index : Nat) :
    (log.keepBelow index).first = log.first := rfl

theorem keepBelow_stop (log : IndexedLog E) {index : Nat} (lower : log.first ≤ index)
    (upper : index ≤ log.stop) : (log.keepBelow index).stop = index := by
  simp only [stop, keepBelow, List.length_take] at upper ⊢
  omega

@[simp] theorem dropBelow_first (log : IndexedLog E) (index : Nat) :
    (log.dropBelow index).first = index := rfl

theorem dropBelow_stop (log : IndexedLog E) {index : Nat} (lower : log.first ≤ index) :
    (log.dropBelow index).stop = max index log.stop := by
  simp only [stop, dropBelow, List.length_drop]
  omega

theorem get?_eq_none_iff (log : IndexedLog E) (index : Nat) :
    log.get? index = none ↔ index < log.first ∨ log.stop ≤ index := by
  unfold get? stop
  by_cases below : index < log.first
  · simp [below]
  · simp only [below, if_false, List.getElem?_eq_none_iff, false_or]
    omega

theorem get?_bounds {log : IndexedLog E} {index : Nat} {entry : E}
    (found : log.get? index = some entry) : log.first ≤ index ∧ index < log.stop := by
  by_contra outside
  have missing := (log.get?_eq_none_iff index).mpr (by omega)
  rw [missing] at found
  contradiction

theorem exists_get? {log : IndexedLog E} {index : Nat} (lower : log.first ≤ index)
    (upper : index < log.stop) : ∃ entry, log.get? index = some entry := by
  cases found : log.get? index with
  | some entry => exact ⟨entry, rfl⟩
  | none =>
      have outside := (log.get?_eq_none_iff index).mp found
      omega

theorem get?_append (log : IndexedLog E) (added : List E) (index : Nat) :
    (log.append added).get? index =
      if index < log.stop then log.get? index else added[index - log.stop]? := by
  unfold get? append stop
  by_cases below : index < log.first
  · rw [if_pos below, if_pos (by omega), if_pos below]
  · simp only [below, if_false]
    by_cases inside : index < log.first + log.entries.length
    · rw [if_pos inside, List.getElem?_append_left (by omega)]
    · rw [if_neg inside, List.getElem?_append_right (by omega)]
      congr 1
      omega

theorem get?_append_of_lt {log : IndexedLog E} (added : List E) {index : Nat}
    (inside : index < log.stop) : (log.append added).get? index = log.get? index := by
  rw [get?_append, if_pos inside]

theorem get?_append_kept {log : IndexedLog E} (added : List E) {index : Nat} {entry : E}
    (found : log.get? index = some entry) : (log.append added).get? index = some entry := by
  rw [get?_append_of_lt added (get?_bounds found).2, found]

theorem get?_keepBelow (log : IndexedLog E) (cut index : Nat) :
    (log.keepBelow cut).get? index = if index < cut then log.get? index else none := by
  unfold get? keepBelow
  by_cases below : index < log.first
  · simp [below]
  · simp only [below, if_false, List.getElem?_take]
    by_cases kept : index < cut
    · rw [if_pos kept, if_pos (by omega)]
    · rw [if_neg kept, if_neg (by omega)]

theorem get?_dropBelow {log : IndexedLog E} {cut : Nat} (lower : log.first ≤ cut)
    (index : Nat) :
    (log.dropBelow cut).get? index = if index < cut then none else log.get? index := by
  unfold get? dropBelow
  by_cases dropped : index < cut
  · simp [dropped]
  · simp only [dropped, if_false, List.getElem?_drop]
    rw [if_neg (by omega)]
    congr 1
    omega

theorem getLast?_eq (log : IndexedLog E) : log.entries.getLast? = log.get? (log.stop - 1) := by
  rw [List.getLast?_eq_getElem?]
  unfold get? stop
  cases isEntries : log.entries with
  | nil => split <;> simp
  | cons head rest =>
      rw [List.length_cons, if_neg (by omega)]
      congr 1
      omega

structure Matches {F : Type} (relation : E → F → Prop) (left : IndexedLog E)
    (right : IndexedLog F) : Prop where
  first : left.first = right.first
  entries : List.Forall₂ relation left.entries right.entries

namespace Matches

variable {F : Type} {relation : E → F → Prop} {left : IndexedLog E} {right : IndexedLog F}

theorem stop (same : left.Matches relation right) : left.stop = right.stop := by
  unfold IndexedLog.stop
  rw [same.first, same.entries.length_eq]

theorem append {addedLeft : List E} {addedRight : List F} (same : left.Matches relation right)
    (added : List.Forall₂ relation addedLeft addedRight) :
    (left.append addedLeft).Matches relation (right.append addedRight) :=
  ⟨same.first, List.rel_append same.entries added⟩

theorem keepBelow (same : left.Matches relation right) (index : Nat) :
    (left.keepBelow index).Matches relation (right.keepBelow index) := by
  refine ⟨same.first, ?_⟩
  unfold IndexedLog.keepBelow
  rw [same.first]
  exact List.forall₂_take _ same.entries

theorem dropBelow (same : left.Matches relation right) (index : Nat) :
    (left.dropBelow index).Matches relation (right.dropBelow index) := by
  refine ⟨rfl, ?_⟩
  unfold IndexedLog.dropBelow
  rw [same.first]
  exact List.forall₂_drop _ same.entries

theorem get? (same : left.Matches relation right) (index : Nat) :
    Option.Rel relation (left.get? index) (right.get? index) := by
  unfold IndexedLog.get?
  rw [same.first]
  by_cases below : index < right.first
  · rw [if_pos below, if_pos below]
    exact Option.Rel.none
  · rw [if_neg below, if_neg below]
    have lengths := same.entries.length_eq
    by_cases inside : index - right.first < left.entries.length
    · rw [List.getElem?_eq_getElem inside, List.getElem?_eq_getElem (by omega)]
      exact Option.Rel.some (same.entries.get inside (by omega))
    · rw [List.getElem?_eq_none (by omega), List.getElem?_eq_none (by omega)]
      exact Option.Rel.none

end Matches

end IndexedLog

end QuorumKit
