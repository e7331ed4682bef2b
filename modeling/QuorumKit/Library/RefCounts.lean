/-
Reference counts by name.

A table has the count of every name that somebody holds, and no other entry.  One
relation says that the table counts a given number of holders; taking and giving back a
reference keep it, and the last holder of a name is told so.
-/

import Mathlib.Data.List.Basic

namespace QuorumKit

namespace RefCounts

variable {K : Type} [DecidableEq K]

def acquire (counts : List (K × Nat)) (key : K) : List (K × Nat) :=
  (key, (counts.lookup key).getD 0 + 1) :: counts.filter (fun entry => entry.1 ≠ key)

def release (counts : List (K × Nat)) (key : K) : Bool × List (K × Nat) :=
  match counts.lookup key with
  | none => (false, counts)
  | some count =>
      let others := counts.filter (fun entry => entry.1 ≠ key)
      if count = 1 then (true, others) else (false, (key, count - 1) :: others)

def Counts (counts : List (K × Nat)) (held : K → Nat) : Prop :=
  ∀ key, counts.lookup key = if held key = 0 then none else some (held key)

variable {counts : List (K × Nat)} {held held' : K → Nat} {key : K}

theorem lookup_filter_ne (counts : List (K × Nat)) (key other : K) :
    (counts.filter (fun entry => entry.1 ≠ key)).lookup other =
      if other = key then none else counts.lookup other := by
  induction counts with
  | nil =>
      rw [List.filter_nil, List.lookup_nil]
      split <;> rfl
  | cons head rest ih =>
      rcases head with ⟨name, count⟩
      by_cases same : name = key
      · rw [List.filter_cons_of_neg (by simpa using same), ih, List.lookup_cons]
        by_cases asked : other = key
        · rw [if_pos asked, if_pos asked]
        · have skip : (other == name) = false := by
            rw [same]
            exact beq_eq_false_iff_ne.mpr asked
          rw [if_neg asked, if_neg asked, skip]
      · rw [List.filter_cons_of_pos (by simpa using same), List.lookup_cons, List.lookup_cons, ih]
        by_cases asked : other = key
        · have skip : (other == name) = false :=
            beq_eq_false_iff_ne.mpr (fun equal => same (equal.symm.trans asked))
          simp only [skip, if_pos asked]
        · rw [if_neg asked, if_neg asked]

theorem lookup_update (counts : List (K × Nat)) (key other : K) (count : Nat) :
    ((key, count) :: counts.filter (fun entry => entry.1 ≠ key)).lookup other =
      if other = key then some count else counts.lookup other := by
  rw [List.lookup_cons, lookup_filter_ne]
  by_cases asked : other = key
  · simp only [if_pos asked, beq_iff_eq.mpr asked]
  · simp only [if_neg asked, beq_eq_false_iff_ne.mpr asked]

theorem Counts.positive (holds : Counts counts held) {count : Nat}
    (found : counts.lookup key = some count) : 0 < count := by
  rw [holds key] at found
  split_ifs at found with none
  obtain rfl := Option.some.inj found
  exact Nat.pos_of_ne_zero none

theorem Counts.acquire (holds : Counts counts held) (key : K)
    (more : ∀ other, held' other = held other + if other = key then 1 else 0) :
    Counts (RefCounts.acquire counts key) held' := by
  intro other
  unfold RefCounts.acquire
  rw [lookup_update, more other]
  by_cases asked : other = key
  · rw [if_pos asked, if_pos asked, if_neg (Nat.succ_ne_zero _), asked, holds key]
    by_cases none : held key = 0
    · rw [if_pos none, none]
      rfl
    · rw [if_neg none]
      rfl
  · rw [if_neg asked, if_neg asked, Nat.add_zero]
    exact holds other

theorem Counts.release (holds : Counts counts held) (key : K)
    (fewer : ∀ other, held other = held' other + if other = key then 1 else 0) :
    Counts (RefCounts.release counts key).2 held' ∧
      ((RefCounts.release counts key).1 = true ↔ held' key = 0) := by
  have before := fewer key
  rw [if_pos rfl] at before
  have found := holds key
  rw [if_neg (by omega)] at found
  have others : ∀ other, other ≠ key → held' other = held other := by
    intro other asked
    have same := fewer other
    rw [if_neg asked] at same
    exact same.symm
  unfold RefCounts.release
  rw [found]
  simp only
  by_cases last : held key = 1
  · rw [if_pos last]
    refine ⟨fun other => ?_, fun _ => by omega, fun _ => rfl⟩
    rw [lookup_filter_ne]
    by_cases asked : other = key
    · rw [if_pos asked, if_pos (by rw [asked]; omega)]
    · rw [if_neg asked, others other asked]
      exact holds other
  · rw [if_neg last]
    refine ⟨fun other => ?_, fun impossible => absurd impossible (by simp), fun none => by omega⟩
    rw [lookup_update]
    by_cases asked : other = key
    · rw [if_pos asked, asked, if_neg (by omega)]
      congr 1
      omega
    · rw [if_neg asked, others other asked]
      exact holds other

theorem Counts.release_absent (holds : Counts counts held) (key : K) (none : held key = 0) :
    RefCounts.release counts key = (false, counts) := by
  unfold RefCounts.release
  rw [holds key, if_pos none]

theorem Counts.congr (holds : Counts counts held) (same : ∀ other, held' other = held other) :
    Counts counts held' := by
  intro other
  rw [same other]
  exact holds other

end RefCounts

end QuorumKit
