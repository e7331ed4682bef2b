/-
The largest values of a stream, kept in a heap of bounded size.

A heap is given by its values in ascending order, so its top is the first one.  A value
is pushed first, and the smallest one is popped when the heap has become too large.
What is left are the largest values so far.
-/

import Mathlib.Data.List.Induction
import Mathlib.Data.List.Sort

namespace QuorumKit

namespace BoundedHeap

variable {V : Type} [LinearOrder V]

def push (bound : Nat) (heap : List V) (value : V) : List V :=
  let pushed := heap.orderedInsert (· ≤ ·) value
  if bound < pushed.length then pushed.tail else pushed

def pushAll (bound : Nat) (values : List V) : List V := values.foldl (push bound) []

structure Largest (bound : Nat) (values heap : List V) : Prop where
  sorted : heap.Pairwise (· ≤ ·)
  length : heap.length = min bound values.length
  above : ∃ dropped, values.Perm (heap ++ dropped) ∧
    ∀ value ∈ dropped, ∀ kept ∈ heap, value ≤ kept

theorem largest_nil (bound : Nat) : Largest bound ([] : List V) [] :=
  ⟨List.Pairwise.nil, by simp, [], List.Perm.refl _, by simp⟩

theorem Largest.push {bound : Nat} {values heap : List V} (largest : Largest bound values heap)
    (value : V) : Largest bound (values ++ [value]) (push bound heap value) := by
  obtain ⟨sorted, length, dropped, perm, below⟩ := largest
  have insertSorted : (heap.orderedInsert (· ≤ ·) value).Pairwise (· ≤ ·) :=
    List.Pairwise.orderedInsert value heap sorted
  have insertPerm : (heap.orderedInsert (· ≤ ·) value).Perm (value :: heap) :=
    List.perm_orderedInsert _ _ _
  have insertLength := insertPerm.length_eq
  rw [List.length_cons] at insertLength
  have whole : (values ++ [value]).Perm (heap.orderedInsert (· ≤ ·) value ++ dropped) := by
    refine (List.perm_append_comm.trans ?_).trans (insertPerm.symm.append_right dropped)
    exact perm.cons value
  unfold BoundedHeap.push
  by_cases full : bound < (heap.orderedInsert (· ≤ ·) value).length
  · simp only [full, if_true]
    cases heap with
    | nil =>
        have none : bound = 0 := by simpa using full
        refine ⟨List.Pairwise.nil, by simp [none], value :: dropped, by simpa using whole, ?_⟩
        exact fun _ _ kept member => absurd member List.not_mem_nil
    | cons top rest =>
        by_cases small : value ≤ top
        · -- the value itself is the smallest one
          rw [List.orderedInsert_cons_of_le _ rest small] at full whole ⊢
          refine ⟨sorted, ?_, value :: dropped, whole.trans List.perm_middle.symm, ?_⟩
          · simp only [List.tail_cons, List.length_cons, List.length_append] at length full ⊢
            omega
          · intro other member kept inside
            rcases List.mem_cons.mp member with rfl | former
            · rcases List.mem_cons.mp inside with rfl | later
              · exact small
              · exact small.trans ((List.pairwise_cons.mp sorted).1 kept later)
            · exact below other former kept inside
        · rw [List.orderedInsert_of_not_le _ rest small] at full whole insertSorted insertLength ⊢
          have restPerm := List.perm_orderedInsert (· ≤ ·) value rest
          refine ⟨(List.pairwise_cons.mp insertSorted).2, ?_, top :: dropped,
            whole.trans List.perm_middle.symm, ?_⟩
          · simp only [List.tail_cons, List.length_cons, List.length_append, List.length_nil]
              at insertLength length full ⊢
            omega
          · intro other member kept inside
            rcases List.mem_cons.mp member with rfl | former
            · exact (List.pairwise_cons.mp insertSorted).1 kept inside
            · rcases List.mem_cons.mp (restPerm.mem_iff.mp inside) with rfl | later
              · exact (below other former top List.mem_cons_self).trans (le_of_not_ge small)
              · exact below other former kept (List.mem_cons_of_mem _ later)
  · simp only [full, if_false]
    refine ⟨insertSorted, ?_, dropped, whole, ?_⟩
    · rw [List.length_append, List.length_singleton]
      omega
    · intro other member kept inInsert
      have few : values.length < bound := by omega
      have none : dropped = [] := by
        have lengths := perm.length_eq
        rw [List.length_append] at lengths
        exact List.length_eq_zero_iff.mp (by omega)
      rw [none] at member
      exact absurd member List.not_mem_nil

theorem pushAll_largest (bound : Nat) (values : List V) :
    Largest bound values (pushAll bound values) := by
  induction values using List.reverseRecOn with
  | nil => exact largest_nil bound
  | append_singleton values value ih =>
      unfold pushAll at ih ⊢
      rw [List.foldl_append]
      exact ih.push value

variable {bound : Nat} {values : List V} {top : V} {rest : List V}

theorem Largest.count_le (largest : Largest bound values (top :: rest)) :
    (top :: rest).length ≤ values.countP (fun value => top ≤ value) := by
  obtain ⟨sorted, _, dropped, perm, _⟩ := largest
  have all : (top :: rest).countP (fun value => top ≤ value) = (top :: rest).length := by
    rw [List.countP_eq_length]
    intro value member
    rcases List.mem_cons.mp member with rfl | later
    · simp
    · simpa using (List.pairwise_cons.mp sorted).1 value later
  rw [perm.countP_eq, List.countP_append, all]
  exact Nat.le_add_right _ _

theorem Largest.count_lt (largest : Largest bound values (top :: rest)) :
    values.countP (fun value => top < value) < (top :: rest).length := by
  obtain ⟨_, _, dropped, perm, below⟩ := largest
  have noneDropped : dropped.countP (fun value => top < value) = 0 := by
    rw [List.countP_eq_zero]
    intro value member
    simpa using below value member top List.mem_cons_self
  rw [perm.countP_eq, List.countP_append, noneDropped, Nat.add_zero,
    List.countP_cons_of_neg (by simp), List.length_cons]
  exact Nat.lt_succ_of_le List.countP_le_length

end BoundedHeap

end QuorumKit
