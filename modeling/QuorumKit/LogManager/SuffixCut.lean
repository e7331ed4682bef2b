/-
Where `append_entries` cuts the log.

`suffixCut` is the argument of the call of `unsafe_truncate_suffix`, if there is one.  It is
below the applied index exactly when `get_term` does not read the term of some applied entry
of the batch.  A batch that is cut above it leaves a log without holes.
-/

import QuorumKit.LogManager.FollowerAppend

namespace QuorumKit

namespace LogManager

variable {P D C : Type}

/-- The entries of a follower from the first one that `get_term` does not know on. -/
def unknownEntries (manager : LogManager P D C) (entries : List (LogEntry P D)) :
    List (LogEntry P D) :=
  entries.dropWhile (fun entry => manager.getTerm entry.id.index = entry.id.term)

def suffixCut (manager : LogManager P D C) (entries : List (LogEntry P D)) (sees : Bool) :
    Option Nat :=
  if manager.hasError ∧ sees then none
  else
    match entries.head?, entries.getLast? with
    | some front, some back =>
        if front.id.index = 0 ∨ manager.lastLogIndex + 1 < front.id.index ∨
            back.id.index ≤ manager.appliedId.index ∨
            front.id.index = manager.lastLogIndex + 1 then
          none
        else
          match manager.unknownEntries entries with
          | [] => none
          | conflicting :: _ =>
              if conflicting.id.index ≤ manager.lastLogIndex then
                some (conflicting.id.index - 1)
              else none
    | _, _ => none

/-- `get_term` knows the applied entries of a batch. -/
def KnowsApplied (manager : LogManager P D C) (entries : List (LogEntry P D)) : Prop :=
  ∀ entry ∈ entries, entry.id.index ≤ manager.appliedId.index →
    entry.id.index ≤ manager.lastLogIndex → manager.getTerm entry.id.index = entry.id.term

/-- Every index between the first and the last one has its entry, and the memory holds the
end of the log. -/
structure Contiguous (manager : LogManager P D C) : Prop where
  noHole : ∀ index, manager.firstLogIndex ≤ index → index ≤ manager.lastLogIndex →
    ∃ entry, manager.logicalLog.getEntry index = some entry ∧ entry.id.index = index
  noMore : ∀ index entry, manager.logicalLog.getEntry index = some entry →
    manager.firstLogIndex ≤ index ∧ index ≤ manager.lastLogIndex
  memory : manager.logsInMemory <:+ manager.logicalLog.entries

variable {low start : Nat} {manager : LogManager P D C} {log : LogStorage P D}
  {front back conflicting : LogEntry P D} {entries rest : List (LogEntry P D)} {sees : Bool}

theorem Holds.contiguous (holds : Holds low manager log) : manager.Contiguous := by
  have first := holds.first
  have last := holds.last
  constructor
  · intro index lower upper
    rw [holds.logicalLog_eq]
    obtain ⟨entry, found⟩ := IndexedLog.exists_get? (show log.first ≤ index by omega)
      (show index < log.stop by omega)
    exact ⟨entry, found, (holds.wellFormed.indexed index entry found).1⟩
  · intro index entry found
    rw [holds.logicalLog_eq] at found
    have bounds := IndexedLog.get?_bounds found
    omega
  · rw [holds.logicalLog_eq]
    exact holds.memory

theorem suffixCut_overlap (unseen : ¬ (manager.hasError ∧ sees))
    (isFront : entries.head? = some front) (isBack : entries.getLast? = some back)
    (notLeader : front.id.index ≠ 0) (upper : front.id.index ≤ manager.lastLogIndex)
    (above : manager.appliedId.index < back.id.index) :
    manager.suffixCut entries sees =
      match manager.unknownEntries entries with
      | [] => none
      | conflicting :: _ =>
          if conflicting.id.index ≤ manager.lastLogIndex then some (conflicting.id.index - 1)
          else none := by
  unfold suffixCut
  rw [if_neg unseen, isFront, isBack]
  simp only
  rw [if_neg]
  rintro (leads | gap | applied | next)
  · exact notLeader leads
  · omega
  · omega
  · omega

theorem suffixCut_some {kept : Nat} (asked : manager.suffixCut entries sees = some kept) :
    ∃ front back conflicting rest, entries.head? = some front ∧ entries.getLast? = some back ∧
      front.id.index ≠ 0 ∧ front.id.index ≤ manager.lastLogIndex ∧
      manager.appliedId.index < back.id.index ∧
      manager.unknownEntries entries = conflicting :: rest ∧
      conflicting.id.index ≤ manager.lastLogIndex ∧ kept = conflicting.id.index - 1 ∧
      ¬ (manager.hasError ∧ sees) := by
  unfold suffixCut at asked
  by_cases seen : manager.hasError ∧ sees
  · rw [if_pos seen] at asked
    contradiction
  rw [if_neg seen] at asked
  cases isFront : entries.head? with
  | none =>
      rw [isFront] at asked
      contradiction
  | some front =>
      cases isBack : entries.getLast? with
      | none =>
          rw [isFront, isBack] at asked
          contradiction
      | some back =>
          rw [isFront, isBack] at asked
          simp only at asked
          by_cases early : front.id.index = 0 ∨ manager.lastLogIndex + 1 < front.id.index ∨
              back.id.index ≤ manager.appliedId.index ∨
              front.id.index = manager.lastLogIndex + 1
          · rw [if_pos early] at asked
            contradiction
          · rw [if_neg early] at asked
            cases isRest : manager.unknownEntries entries with
            | nil =>
                rw [isRest] at asked
                contradiction
            | cons conflicting rest =>
                rw [isRest] at asked
                simp only at asked
                by_cases inside : conflicting.id.index ≤ manager.lastLogIndex
                · rw [if_pos inside] at asked
                  refine ⟨front, back, conflicting, rest, rfl, rfl, ?_, ?_, ?_, rfl, inside,
                    (Option.some.inj asked).symm, seen⟩
                  · omega
                  · omega
                  · omega
                · rw [if_neg inside] at asked
                  contradiction

variable [DecidableEq P]

omit [DecidableEq P] in
theorem KnowsApplied.cut_above (knows : manager.KnowsApplied entries) {kept : Nat}
    (asked : manager.suffixCut entries sees = some kept) : manager.appliedId.index ≤ kept := by
  obtain ⟨front, back, conflicting, rest, _, _, _, _, _, isRest, inside, isKept, _⟩ :=
    suffixCut_some asked
  have member : conflicting ∈ entries :=
    (List.dropWhile_suffix _).subset (isRest ▸ List.mem_cons_self)
  have unknown : manager.getTerm conflicting.id.index ≠ conflicting.id.term := by
    unfold unknownEntries at isRest
    have notKnown := List.head_dropWhile_not
      (fun entry : LogEntry P D => decide (manager.getTerm entry.id.index = entry.id.term))
      (l := entries) (by rw [isRest]; exact List.cons_ne_nil _ _)
    simpa only [isRest, List.head_cons, decide_eq_false_iff_not] using notKnown
  by_contra below
  exact unknown (knows conflicting member (by omega) inside)

omit [DecidableEq P] in
theorem suffixCut_below (unseen : ¬ (manager.hasError ∧ sees))
    (consecutive : Consecutive (start + 1) entries) (isBack : entries.getLast? = some back)
    (above : manager.appliedId.index < back.id.index) {entry : LogEntry P D}
    (member : entry ∈ entries) (applied : entry.id.index ≤ manager.appliedId.index)
    (inside : entry.id.index ≤ manager.lastLogIndex)
    (unknown : manager.getTerm entry.id.index ≠ entry.id.term) :
    ∃ kept, manager.suffixCut entries sees = some kept ∧ kept < manager.appliedId.index := by
  obtain ⟨position, found⟩ := List.mem_iff_getElem?.mp member
  have placed := consecutive position entry found
  cases isFront : entries.head? with
  | none =>
      rw [List.head?_eq_none_iff] at isFront
      rw [isFront] at member
      contradiction
  | some front =>
      have frontIndex := consecutive.front isFront
      rw [suffixCut_overlap unseen isFront isBack (by omega) (by omega) above]
      cases isRest : manager.unknownEntries entries with
      | nil =>
          have known := List.dropWhile_eq_nil_iff.mp isRest entry member
          exact absurd (of_decide_eq_true known) unknown
      | cons conflicting rest =>
          obtain ⟨dropped, split, known, _, conflictIndex, fits⟩ :=
            dropWhile_parts consecutive isRest
          have notLater : conflicting.id.index ≤ entry.id.index := by
            rw [split] at member
            rcases List.mem_append.mp member with early | late
            · exact absurd (of_decide_eq_true (known entry early)) unknown
            · obtain ⟨place, isEntry⟩ := List.mem_iff_getElem?.mp late
              have index := fits place entry isEntry
              omega
          simp only
          rw [if_pos (by omega)]
          exact ⟨_, rfl, by omega⟩

omit [DecidableEq P] in
theorem Tracks.unknown_reaches (tracks : Tracks low manager log)
    (consecutive : Consecutive (start + 1) entries) (terms : ∀ entry ∈ entries, 0 < entry.id.term)
    (upper : start + 1 ≤ log.stop) (isRest : manager.unknownEntries entries = conflicting :: rest) :
    conflicting.id.index ≤ log.stop ∧ 0 < conflicting.id.index ∧
      (conflicting.id.index = start + 1 ∨ manager.getTerm (conflicting.id.index - 1) ≠ 0) := by
  obtain ⟨dropped, split, known, _, conflictIndex, _⟩ := dropWhile_parts consecutive isRest
  rcases List.eq_nil_or_concat dropped with none | ⟨earlier, former, isFormer⟩
  · rw [none, List.length_nil] at conflictIndex
    omega
  · subst isFormer
    have member : former ∈ entries := by
      rw [split]
      simp
    have formerIndex : former.id.index = start + 1 + earlier.length :=
      consecutive _ _ (by rw [split]; simp)
    have isKnown : manager.getTerm former.id.index = former.id.term :=
      of_decide_eq_true (known former (by simp))
    have hasTerm : manager.getTerm former.id.index ≠ 0 := by
      rw [isKnown]
      exact Nat.pos_iff_ne_zero.mp (terms former member)
    have inside := tracks.lt_stop_of_getTerm hasTerm
    simp only [List.concat_eq_append, List.length_append, List.length_singleton] at conflictIndex
    have before : conflicting.id.index - 1 = former.id.index := by omega
    rw [before]
    exact ⟨by omega, by omega, Or.inr hasTerm⟩

theorem appendEntries_works (works : manager.hasError = false) (context : C)
    (entries : List (LogEntry P D)) (sees : Bool) :
    manager.appendEntries context entries sees = manager.appendEntries context entries false := by
  unfold LogManager.appendEntries
  rw [if_neg (by simp [works]), if_neg (by simp [works])]

omit [DecidableEq P] in
theorem Holds.runInBthread (holds : Holds low manager log) (done : StableClosure P D C)
    (status : Int) : Holds low (manager.runInBthread done status) log :=
  holds.frame rfl

theorem Tracks.appendEntries_contiguous (tracks : Tracks (manager.appliedId.index + 1) manager log)
    (opened : manager.Opened) (consecutive : Consecutive (start + 1) entries)
    (terms : ∀ entry ∈ entries, 0 < entry.id.term)
    (before : start = 0 ∨ manager.getTerm start ≠ 0) (isBack : entries.getLast? = some back)
    (knows : back.id.index ≤ manager.appliedId.index ∨ manager.KnowsApplied entries)
    (context : C) (sees : Bool) :
    ∃ after, manager.appendEntries context entries sees = some after ∧ after.Contiguous := by
  have window : manager.firstLogIndex ≤ manager.lastSnapshotId.index + 1 := opened
  have first := tracks.first
  have last := tracks.last
  have snapshot := tracks.applied
  have aboveFirst := log.first_le_stop
  have positive := tracks.wellFormed.positive
  cases isFront : entries.head? with
  | none =>
      rw [List.head?_eq_none_iff] at isFront
      rw [isFront] at isBack
      contradiction
  | some front =>
      have frontIndex := consecutive.front isFront
      rw [appendEntries_works tracks.noError,
        appendEntries_eq manager context isFront isBack (by omega)]
      unfold checkAndResolveConflict
      rw [if_neg (by omega)]
      by_cases gap : manager.lastLogIndex + 1 < front.id.index
      · rw [if_pos gap]
        exact ⟨_, rfl, (tracks.toHolds.runInBthread _ _).contiguous⟩
      by_cases applied : back.id.index ≤ manager.appliedId.index
      · rw [if_neg gap, if_pos applied]
        exact ⟨_, rfl, (tracks.toHolds.runInBthread _ _).contiguous⟩
      rw [if_neg gap, if_neg applied]
      have knows := knows.resolve_left applied
      by_cases next : front.id.index = manager.lastLogIndex + 1
      · rw [if_pos next]
        have atEnd : Consecutive front.id.index entries := by
          rw [frontIndex]
          exact consecutive
        exact ⟨_, rfl, (tracks.toHolds.appendsEnd (by omega) (by omega) atEnd terms isBack
          entries).contiguous⟩
      rw [if_neg next]
      cases isRest : manager.unknownEntries entries with
      | nil =>
          unfold unknownEntries at isRest
          rw [isRest]
          have whole : Holds _ (({ manager with lastLogIndex := manager.lastLogIndex } :
              LogManager P D C).enqueue context entries []) (log.append []) :=
            tracks.toHolds.enqueue context entries (fun _ _ found => absurd found (by simp))
              (by rw [List.length_nil]; omega)
          exact ⟨_, rfl, whole.contiguous⟩
      | cons conflicting rest =>
          obtain ⟨reaches, notZero, hasTerm⟩ :=
            tracks.unknown_reaches consecutive terms (by omega) isRest
          obtain ⟨dropped, split, _, unknown, _, fits⟩ := dropWhile_parts consecutive isRest
          have unknown : manager.getTerm conflicting.id.index ≠ conflicting.id.term :=
            of_decide_eq_false unknown
          have member : conflicting ∈ entries := by
            rw [split]
            simp
          have restTerms : ∀ entry ∈ conflicting :: rest, 0 < entry.id.term := by
            intro entry inRest
            refine terms entry ?_
            rw [split]
            exact List.mem_append_right _ inRest
          have toBack : (conflicting :: rest).getLast? = some back := by
            rw [split, List.getLast?_append_cons] at isBack
            exact isBack
          unfold unknownEntries at isRest
          rw [isRest]
          simp only
          by_cases inside : conflicting.id.index ≤ manager.lastLogIndex
          · have above : manager.appliedId.index < conflicting.id.index := by
              by_contra below
              exact unknown (knows conflicting member (by omega) inside)
            have term : conflicting.id.index - 1 = 0 ∨
                manager.getTerm (conflicting.id.index - 1) ≠ 0 := by
              rcases hasTerm with atStart | hasTerm
              · rw [show conflicting.id.index - 1 = start by omega]
                exact before
              · exact Or.inr hasTerm
            obtain ⟨truncated, cut⟩ :=
              tracks.toHolds.unsafeTruncateSuffix_total (by omega) (by omega) term
            rw [if_pos inside, cut]
            exact ⟨_, rfl, (tracks.toHolds.appendsCut (by omega) (by omega) inside fits restTerms
              toBack entries cut).contiguous⟩
          · rw [if_neg inside]
            exact ⟨_, rfl, (tracks.toHolds.appendsEnd (by omega) reaches fits restTerms toBack
              entries).contiguous⟩

end LogManager

end QuorumKit
