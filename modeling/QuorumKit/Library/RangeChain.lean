/-
Chains of index ranges.

A range goes from its first index to its last one, both of them included.  In a chain every
range begins right behind the one in front of it, so a chain covers each of its indexes exactly
once, and the range that covers an index is the last one that begins at or before it.
-/

import Mathlib.Data.List.Basic
import Mathlib.Tactic.Common

namespace QuorumKit
namespace Library
namespace RangeChain

def Includes (range : Int × Int) (index : Int) : Prop :=
  range.1 ≤ index ∧ index ≤ range.2

instance (range : Int × Int) (index : Int) : Decidable (Includes range index) := by
  unfold Includes
  infer_instance

def Chain : Int → List (Int × Int) → Prop
  | _, [] => True
  | last, range :: rest => range.1 = last + 1 ∧ range.1 ≤ range.2 ∧ Chain range.2 rest

def chainEnd : Int → List (Int × Int) → Int
  | last, [] => last
  | _, range :: rest => chainEnd range.2 rest

theorem chainEnd_eq (last : Int) (ranges : List (Int × Int)) :
    chainEnd last ranges = (ranges.getLast?.map Prod.snd).getD last := by
  induction ranges generalizing last with
  | nil => rfl
  | cons range rest ih =>
      rw [chainEnd, ih, List.getLast?_cons]
      cases rest.getLast? with
      | none => rfl
      | some final => rfl

variable {last : Int} {ranges : List (Int × Int)}

theorem Chain.lt_first (chain : Chain last ranges) : ∀ range ∈ ranges, last < range.1 := by
  induction ranges generalizing last with
  | nil => simp
  | cons head rest ih =>
      intro range member
      have begins := chain.1
      have proper := chain.2.1
      rcases List.mem_cons.mp member with isHead | later
      · rw [isHead]
        omega
      · have behind := ih chain.2.2 range later
        omega

theorem Chain.le_chainEnd (chain : Chain last ranges) : last ≤ chainEnd last ranges := by
  induction ranges generalizing last with
  | nil => exact Int.le_refl last
  | cons head rest ih =>
      have begins := chain.1
      have proper := chain.2.1
      have behind := ih chain.2.2
      rw [chainEnd]
      omega

theorem Chain.last_le_chainEnd (chain : Chain last ranges) :
    ∀ range ∈ ranges, range.2 ≤ chainEnd last ranges := by
  induction ranges generalizing last with
  | nil => simp
  | cons head rest ih =>
      intro range member
      rw [chainEnd]
      rcases List.mem_cons.mp member with isHead | later
      · rw [isHead]
        exact chain.2.2.le_chainEnd
      · exact ih chain.2.2 range later

theorem Chain.includes {head : Int × Int} {rest : List (Int × Int)} {index : Int}
    (chain : Chain head.2 rest) (lower : head.1 ≤ index) (upper : index ≤ chainEnd head.2 rest) :
    ∃ range, Includes range index ∧
      (head :: rest).filter (fun range => Includes range index) = [range] ∧
      ((head :: rest).filter (fun range => range.1 ≤ index)).getLast? = some range := by
  induction rest generalizing head with
  | nil =>
      have covers : Includes head index := ⟨lower, upper⟩
      refine ⟨head, covers, ?_, ?_⟩
      · simp [covers]
      · simp [lower]
  | cons next later ih =>
      have begins := chain.1
      by_cases inHead : index ≤ head.2
      · have covers : Includes head index := ⟨lower, inHead⟩
        have behind : ∀ range ∈ next :: later, ¬ range.1 ≤ index := by
          intro range member
          have above := chain.lt_first range member
          omega
        have noneCovers : (next :: later).filter (fun range => Includes range index) = [] := by
          apply List.filter_eq_nil_iff.mpr
          intro range member
          simpa using fun both : Includes range index => behind range member both.1
        have noneBegins : (next :: later).filter (fun range => range.1 ≤ index) = [] := by
          apply List.filter_eq_nil_iff.mpr
          intro range member
          simpa using behind range member
        refine ⟨head, covers, ?_, ?_⟩
        · rw [List.filter_cons_of_pos (by simpa using covers), noneCovers]
        · rw [List.filter_cons_of_pos (by simpa using lower), noneBegins]
          rfl
      · have beginsBefore : next.1 ≤ index := by omega
        obtain ⟨range, covers, single, isLast⟩ := ih chain.2.2 beginsBefore upper
        have notHead : ¬ Includes head index := fun both => inHead both.2
        refine ⟨range, covers, ?_, ?_⟩
        · rw [List.filter_cons_of_neg (by simpa using notHead)]
          exact single
        · rw [List.filter_cons_of_pos (by simpa using lower), List.getLast?_cons, isLast]
          rfl

end RangeChain
end Library
end QuorumKit
