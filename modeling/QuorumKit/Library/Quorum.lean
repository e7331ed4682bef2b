/-
Majorities of finite sets.

Voters form a majority of some members when more than half of the members are
among them.  Two majorities of one set have a common voter, and so have majorities
of two sets that differ in at most one member.
-/

import Mathlib.Data.Finset.Card
import Mathlib.Data.Finset.SDiff

namespace QuorumKit

variable {P : Type} [DecidableEq P]

def Majority (members voters : Finset P) : Prop := members.card < 2 * (members ∩ voters).card

instance (members voters : Finset P) : Decidable (Majority members voters) :=
  inferInstanceAs (Decidable (_ < _))

namespace Majority

variable {members others voters voters' : Finset P}

theorem mono (majority : Majority members voters) (more : voters ⊆ voters') :
    Majority members voters' := by
  have grows := Finset.card_le_card (Finset.inter_subset_inter (Finset.Subset.refl members) more)
  unfold Majority at majority ⊢
  omega

/-- Two sets of members that differ in at most one do not let two disjoint sets of
voters have a majority each. -/
theorem common_of_close (close : (members \ others).card + (others \ members).card ≤ 1)
    (left : Majority members voters) (right : Majority others voters') :
    ∃ peer, peer ∈ voters ∧ peer ∈ voters' := by
  by_contra apart
  have disjoint : Disjoint (members ∩ voters) (others ∩ voters') := by
    rw [Finset.disjoint_left]
    intro peer inLeft inRight
    exact apart ⟨peer, (Finset.mem_inter.mp inLeft).2, (Finset.mem_inter.mp inRight).2⟩
  have together : (members ∩ voters ∪ others ∩ voters').card ≤ (members ∪ others).card :=
    Finset.card_le_card
      (Finset.union_subset_union Finset.inter_subset_left Finset.inter_subset_left)
  rw [Finset.card_union_of_disjoint disjoint] at together
  have fromLeft : (members ∪ others).card = members.card + (others \ members).card := by
    rw [← Finset.union_sdiff_self_eq_union, Finset.card_union_of_disjoint Finset.disjoint_sdiff]
  have fromRight : (members ∪ others).card = others.card + (members \ others).card := by
    rw [Finset.union_comm, ← Finset.union_sdiff_self_eq_union,
      Finset.card_union_of_disjoint Finset.disjoint_sdiff]
  unfold Majority at left right
  omega

theorem common (left : Majority members voters) (right : Majority members voters') :
    ∃ peer, peer ∈ voters ∧ peer ∈ voters' := by
  refine common_of_close ?_ left right
  rw [Finset.sdiff_self, Finset.card_empty]
  omega

end Majority

/-- A majority of the members and, during a change, of the former members too. -/
def Quorum (members : Finset P) (former : Option (Finset P)) (voters : Finset P) : Prop :=
  Majority members voters ∧ ∀ old ∈ former, Majority old voters

instance (members : Finset P) (former : Option (Finset P)) (voters : Finset P) :
    Decidable (Quorum members former voters) :=
  inferInstanceAs (Decidable (_ ∧ _))

theorem Quorum.mono {members voters voters' : Finset P} {former : Option (Finset P)}
    (quorum : Quorum members former voters) (more : voters ⊆ voters') :
    Quorum members former voters' :=
  ⟨quorum.1.mono more, fun old isOld => (quorum.2 old isOld).mono more⟩

end QuorumKit
