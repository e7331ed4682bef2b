/-
Sorted maps of spans.

A span goes from its start to its finish.  A map keeps one span for a start, sorted by it,
and a new span is compared with its two neighbours only.  Where the spans of the map are
apart from each other, a span that is apart from its neighbours is apart from all of them.
-/

import Mathlib.Data.List.Pairwise
import Mathlib.Data.List.TakeDrop

namespace QuorumKit

namespace Spans

variable {V : Type} (start finish : V → Nat)

def Apart (spans : List V) : Prop :=
  spans.Pairwise (fun former later => finish former ≤ start later)

def insert (span : V) : List V → List V
  | [] => [span]
  | head :: tail =>
      if start span < start head then span :: head :: tail
      else if start span = start head then head :: tail
      else head :: insert span tail

def below (key : Nat) (spans : List V) : List V :=
  spans.takeWhile (fun span => start span < key)

/-- The spans from the first one that does not start below a key. -/
def lowerBound (key : Nat) (spans : List V) : List V :=
  spans.dropWhile (fun span => start span < key)

def MeetsFormer (span : V) (spans : List V) : Prop :=
  ∃ former, (below start (start span) spans).getLast? = some former ∧ start span < finish former

def MeetsLater (span : V) (spans : List V) : Prop :=
  ∃ later, (lowerBound start (start span) spans).head? = some later ∧ start later < finish span

variable {start finish}

theorem below_append_lowerBound (key : Nat) (spans : List V) :
    below start key spans ++ lowerBound start key spans = spans :=
  List.takeWhile_append_dropWhile

theorem below_cons (key : Nat) (head : V) (tail : List V) :
    below start key (head :: tail) =
      if start head < key then head :: below start key tail else [] := by
  unfold below
  by_cases inFront : start head < key
  · simp [inFront]
  · simp [inFront]

theorem lowerBound_cons (key : Nat) (head : V) (tail : List V) :
    lowerBound start key (head :: tail) =
      if start head < key then lowerBound start key tail else head :: tail := by
  unfold lowerBound
  by_cases inFront : start head < key
  · simp [inFront]
  · simp [inFront]

theorem start_lt_of_mem_below {key : Nat} {spans : List V} {former : V}
    (member : former ∈ below start key spans) : start former < key := by
  induction spans with
  | nil => contradiction
  | cons head tail ih =>
      rw [below_cons] at member
      by_cases inFront : start head < key
      · rw [if_pos inFront] at member
        rcases List.mem_cons.mp member with isSame | inTail
        · rw [isSame]
          exact inFront
        · exact ih inTail
      · rw [if_neg inFront] at member
        contradiction

theorem Apart.tail {head : V} {tail : List V} (apart : Apart start finish (head :: tail)) :
    Apart start finish tail :=
  (List.pairwise_cons.mp apart).2

theorem Apart.head {head : V} {tail : List V} (apart : Apart start finish (head :: tail)) :
    ∀ later ∈ tail, finish head ≤ start later :=
  (List.pairwise_cons.mp apart).1

theorem Apart.sublist {spans kept : List V} (apart : Apart start finish spans)
    (sublist : kept.Sublist spans) : Apart start finish kept :=
  List.Pairwise.sublist sublist apart

theorem below_apart {span : V} {spans : List V} (apart : Apart start finish spans)
    (free : ¬ MeetsFormer start finish span spans) :
    ∀ former ∈ below start (start span) spans, finish former ≤ start span := by
  intro former member
  have ordered : Apart start finish (below start (start span) spans) :=
    apart.sublist (List.takeWhile_sublist _)
  cases isLast : (below start (start span) spans).getLast? with
  | none =>
      rw [List.getLast?_eq_none_iff.mp isLast] at member
      contradiction
  | some last =>
      have ends : finish last ≤ start span := by
        apply Nat.le_of_not_lt
        intro meets
        exact free ⟨last, isLast, meets⟩
      obtain ⟨front, isFront⟩ := List.getLast?_eq_some_iff.mp isLast
      have lastMember : last ∈ below start (start span) spans := List.mem_of_getLast? isLast
      have lastBelow := start_lt_of_mem_below lastMember
      rw [isFront] at member ordered
      rcases List.mem_append.mp member with inFront | isSame
      · have upper := (List.pairwise_append.mp ordered).2.2 former inFront last
          (List.mem_singleton.mpr rfl)
        omega
      · rw [List.mem_singleton.mp isSame]
        exact ends

theorem lowerBound_apart {span : V} {spans : List V} (apart : Apart start finish spans)
    (proper : ∀ other ∈ spans, start other < finish other)
    (free : ¬ MeetsLater start finish span spans) :
    ∀ later ∈ lowerBound start (start span) spans, finish span ≤ start later := by
  intro later member
  have ordered : Apart start finish (lowerBound start (start span) spans) :=
    apart.sublist (List.dropWhile_sublist _)
  cases isRest : lowerBound start (start span) spans with
  | nil =>
      rw [isRest] at member
      contradiction
  | cons head tail =>
      have first : finish span ≤ start head := by
        apply Nat.le_of_not_lt
        intro meets
        exact free ⟨head, by rw [isRest]; rfl, meets⟩
      have headProper : start head < finish head := by
        apply proper
        apply (List.dropWhile_sublist _).mem
        change head ∈ lowerBound start (start span) spans
        rw [isRest]
        exact List.mem_cons_self
      rw [isRest] at member ordered
      rcases List.mem_cons.mp member with isSame | inTail
      · rw [isSame]
        exact first
      · have upper := ordered.head later inTail
        omega

theorem insert_eq {span : V} (spans : List V) (spanProper : start span < finish span)
    (free : ¬ MeetsLater start finish span spans) :
    insert start span spans =
      below start (start span) spans ++ span :: lowerBound start (start span) spans := by
  induction spans with
  | nil => rfl
  | cons head tail ih =>
      unfold insert
      unfold MeetsLater at free
      rw [lowerBound_cons] at free
      rw [below_cons, lowerBound_cons]
      by_cases inFront : start head < start span
      · rw [if_pos inFront] at free
        rw [if_pos inFront, if_pos inFront, if_neg (by omega), if_neg (by omega), ih free,
          List.cons_append]
      · rw [if_neg inFront] at free
        have above : finish span ≤ start head := by
          apply Nat.le_of_not_lt
          intro meets
          exact free ⟨head, rfl, meets⟩
        rw [if_neg inFront, if_neg inFront, if_pos (by omega), List.nil_append]

theorem insert_perm {span : V} {spans : List V} (spanProper : start span < finish span)
    (free : ¬ MeetsLater start finish span spans) :
    (insert start span spans).Perm (span :: spans) := by
  rw [insert_eq spans spanProper free]
  apply List.perm_middle.trans
  rw [below_append_lowerBound]

theorem Apart.insert {span : V} {spans : List V} (apart : Apart start finish spans)
    (proper : ∀ other ∈ spans, start other < finish other) (spanProper : start span < finish span)
    (former : ¬ MeetsFormer start finish span spans)
    (later : ¬ MeetsLater start finish span spans) :
    Apart start finish (insert start span spans) := by
  rw [insert_eq spans spanProper later]
  have lower := below_apart apart former
  have upper := lowerBound_apart apart proper later
  apply List.pairwise_append.mpr
  refine ⟨apart.sublist (List.takeWhile_sublist _), ?_, ?_⟩
  · exact List.pairwise_cons.mpr ⟨upper, apart.sublist (List.dropWhile_sublist _)⟩
  · intro first inFirst second inSecond
    have ends := lower first inFirst
    rcases List.mem_cons.mp inSecond with isSame | inRest
    · rw [isSame]
      exact ends
    · have starts := upper second inRest
      omega

theorem Apart.increasing {spans : List V} (apart : Apart start finish spans)
    (proper : ∀ other ∈ spans, start other < finish other) :
    spans.Pairwise (fun former later => start former < start later) := by
  induction spans with
  | nil => exact List.Pairwise.nil
  | cons head tail ih =>
      apply List.pairwise_cons.mpr
      constructor
      · intro later inTail
        have ends := apart.head later inTail
        have headProper := proper head List.mem_cons_self
        omega
      · apply ih apart.tail
        intro other inTail
        exact proper other (List.mem_cons_of_mem _ inTail)

end Spans

end QuorumKit
