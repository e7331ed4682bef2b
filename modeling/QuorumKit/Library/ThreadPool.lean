/-
Threads as a list.

A scheduler picks a thread by its position, takes it out and puts back what is left of
it.  The lemmas say what this does to counts and to sums over all threads.
-/

import Mathlib.Algebra.BigOperators.Group.List.Basic
import Mathlib.Algebra.GroupWithZero.Nat
import Mathlib.Data.List.Perm.Basic

namespace QuorumKit

namespace ThreadPool

variable {T K : Type} {threads : List T} {position : Nat} {thread : T}

theorem perm_eraseIdx (found : threads[position]? = some thread) :
    List.Perm threads (thread :: threads.eraseIdx position) := by
  obtain ⟨inside, isThread⟩ := List.getElem?_eq_some_iff.mp found
  have taken := List.getElem_cons_eraseIdx_perm inside
  rw [isThread] at taken
  exact taken.symm

theorem count_eraseIdx [DecidableEq K] (keys : T → List K)
    (found : threads[position]? = some thread) (key : K) :
    (threads.flatMap keys).count key =
      (keys thread).count key + ((threads.eraseIdx position).flatMap keys).count key := by
  have moved := (perm_eraseIdx found).flatMap_right keys
  rw [moved.count_eq, List.flatMap_cons, List.count_append]

theorem sum_eraseIdx (weight : T → Nat) (found : threads[position]? = some thread) :
    (threads.map weight).sum =
      weight thread + ((threads.eraseIdx position).map weight).sum := by
  have moved := (perm_eraseIdx found).map weight
  rw [moved.sum_eq, List.map_cons, List.sum_cons]

end ThreadPool

end QuorumKit
