/-
Histories whose items have strictly increasing positions.

The item in effect at a position is the last one at or below it.  A history may be cut
on both sides with filters, and what is in effect behind a cut can be told from the
items that are left and the item in effect at the cut.
-/

import Mathlib.Data.List.DropRight
import Mathlib.Data.List.Pairwise

namespace QuorumKit

namespace History

variable {E : Type} (position : E → Nat)

def Sorted (items : List E) : Prop :=
  items.Pairwise (fun former later => position former < position later)

def since (items : List E) (start : Nat) : List E :=
  items.filter (fun item => start ≤ position item)

def upTo (items : List E) (stop : Nat) : List E :=
  items.filter (fun item => position item ≤ stop)

def latest (items : List E) (index : Nat) : Option E := (upTo position items index).getLast?

variable {position}

theorem mem_since {items : List E} {start : Nat} {item : E} :
    item ∈ since position items start ↔ item ∈ items ∧ start ≤ position item := by
  simp [since]

theorem mem_upTo {items : List E} {stop : Nat} {item : E} :
    item ∈ upTo position items stop ↔ item ∈ items ∧ position item ≤ stop := by
  simp [upTo]

theorem since_since {items : List E} {former start : Nat} (later : former ≤ start) :
    since position (since position items former) start = since position items start := by
  unfold since
  rw [List.filter_filter]
  refine List.filter_congr ?_
  intro item _
  simp only [← Bool.decide_and, decide_eq_decide]
  omega

theorem since_upTo (items : List E) (start stop : Nat) :
    since position (upTo position items stop) start =
      upTo position (since position items start) stop := by
  unfold since upTo
  exact List.filter_comm _ _ _

theorem since_append (first second : List E) (start : Nat) :
    since position (first ++ second) start =
      since position first start ++ since position second start :=
  List.filter_append _ _

theorem since_eq_self {items : List E} {start : Nat}
    (behind : ∀ item ∈ items, start ≤ position item) : since position items start = items := by
  refine List.filter_eq_self.mpr ?_
  intro item member
  exact decide_eq_true (behind item member)

theorem Sorted.filterSince {items : List E} (sorted : Sorted position items) (start : Nat) :
    Sorted position (since position items start) :=
  List.Pairwise.filter _ sorted

theorem Sorted.filterUpTo {items : List E} (sorted : Sorted position items) (stop : Nat) :
    Sorted position (upTo position items stop) :=
  List.Pairwise.filter _ sorted

theorem Sorted.append {first second : List E} (sorted : Sorted position first)
    (later : Sorted position second)
    (across : ∀ former ∈ first, ∀ item ∈ second, position former < position item) :
    Sorted position (first ++ second) :=
  List.pairwise_append.mpr ⟨sorted, later, across⟩

theorem Sorted.dropWhile {items : List E} (sorted : Sorted position items) (start : Nat) :
    items.dropWhile (fun item => position item < start) = since position items start := by
  induction items with
  | nil => rfl
  | cons head rest ih =>
      obtain ⟨below, tailSorted⟩ := List.pairwise_cons.mp sorted
      unfold since at ih ⊢
      by_cases front : position head < start
      · rw [List.dropWhile_cons_of_pos (by simpa using front), ih tailSorted,
          List.filter_cons_of_neg (by simpa using front)]
      · rw [List.dropWhile_cons_of_neg (by simpa using front)]
        symm
        refine List.filter_eq_self.mpr ?_
        intro item member
        rcases List.mem_cons.mp member with rfl | inside
        · simpa using front
        · have above := below item inside
          simp only [decide_eq_true_eq]
          omega

theorem Sorted.takeWhile {items : List E} (sorted : Sorted position items) (stop : Nat) :
    items.takeWhile (fun item => position item ≤ stop) = upTo position items stop := by
  induction items with
  | nil => rfl
  | cons head rest ih =>
      obtain ⟨below, tailSorted⟩ := List.pairwise_cons.mp sorted
      unfold upTo at ih ⊢
      by_cases front : position head ≤ stop
      · rw [List.takeWhile_cons_of_pos (by simpa using front), ih tailSorted,
          List.filter_cons_of_pos (by simpa using front)]
      · rw [List.takeWhile_cons_of_neg (by simpa using front)]
        symm
        refine List.filter_eq_nil_iff.mpr ?_
        intro item member
        rcases List.mem_cons.mp member with rfl | inside
        · simpa using front
        · have above := below item inside
          simp only [decide_eq_true_eq]
          omega

theorem Sorted.rdropWhile {items : List E} (sorted : Sorted position items) (stop : Nat) :
    items.rdropWhile (fun item => stop < position item) = upTo position items stop := by
  induction items using List.reverseRecOn with
  | nil => rfl
  | append_singleton rest back ih =>
      obtain ⟨restSorted, _, below⟩ := List.pairwise_append.mp sorted
      unfold upTo at ih ⊢
      by_cases cut : stop < position back
      · rw [List.rdropWhile_concat_pos _ _ _ (by simpa using cut), ih restSorted, List.filter_append]
        simp [cut]
      · rw [List.rdropWhile_concat_neg _ _ _ (by simpa using cut)]
        symm
        refine List.filter_eq_self.mpr ?_
        intro item member
        rcases List.mem_append.mp member with inside | isBack
        · have above := below item inside back (List.mem_singleton_self back)
          simp only [decide_eq_true_eq]
          omega
        · rw [List.mem_singleton.mp isBack]
          simpa using cut

theorem Sorted.split {items : List E} (sorted : Sorted position items) {start stop : Nat}
    (before : start ≤ stop + 1) :
    upTo position items stop =
      items.filter (fun item => position item < start) ++
        upTo position (since position items start) stop := by
  induction items with
  | nil => rfl
  | cons head rest ih =>
      obtain ⟨below, tailSorted⟩ := List.pairwise_cons.mp sorted
      unfold upTo since at ih ⊢
      by_cases front : position head < start
      · rw [List.filter_cons_of_pos (by simpa using (by omega : position head ≤ stop)),
          List.filter_cons_of_pos (by simpa using front),
          List.filter_cons_of_neg (a := head) (by simpa using front), ih tailSorted]
        rfl
      · have none : (head :: rest).filter (fun item => decide (position item < start)) = [] := by
          refine List.filter_eq_nil_iff.mpr ?_
          intro item member
          rcases List.mem_cons.mp member with rfl | inside
          · simpa using front
          · have above := below item inside
            simp only [decide_eq_true_eq]
            omega
        have all : (head :: rest).filter (fun item => decide (start ≤ position item)) =
            head :: rest := by
          refine List.filter_eq_self.mpr ?_
          intro item member
          rcases List.mem_cons.mp member with rfl | inside
          · simpa using front
          · have above := below item inside
            simp only [decide_eq_true_eq]
            omega
        rw [none, all, List.nil_append]

theorem Sorted.latest_behind {items : List E} (sorted : Sorted position items)
    {start cut index : Nat} (before : start ≤ cut + 1) (behind : cut ≤ index) :
    latest position items index =
      (latest position (since position items start) index).or
        (latest position items cut) := by
  unfold latest
  rw [sorted.split (show start ≤ index + 1 by omega), sorted.split before,
    List.getLast?_append, List.getLast?_append]
  cases found : (upTo position (since position items start) index).getLast? with
  | some item => rfl
  | none =>
      have empty := List.getLast?_eq_none_iff.mp found
      have noneAtCut : upTo position (since position items start) cut = [] := by
        refine List.filter_eq_nil_iff.mpr ?_
        intro item member
        have absent : item ∉ upTo position (since position items start) index := by
          rw [empty]
          exact List.not_mem_nil
        rw [mem_upTo] at absent
        simp only [decide_eq_true_eq]
        intro atCut
        exact absent ⟨member, atCut.trans behind⟩
      rw [noneAtCut]
      rfl

theorem Sorted.cutBoth {items : List E} (sorted : Sorted position items) {start : Nat} (positive : 0 < start) :
    (items.dropWhile (fun item => position item < start)).rdropWhile
      (fun item => start - 1 < position item) = [] := by
  rw [sorted.dropWhile, (sorted.filterSince start).rdropWhile]
  refine List.filter_eq_nil_iff.mpr ?_
  intro item member
  have behind := (mem_since.mp member).2
  simp only [decide_eq_true_eq]
  omega

end History

end QuorumKit
