/-
What `append_entries` does to the log: conflict resolution.

The entries that a call leaves out are in the log already, the others start where
the log is cut.  This needs what every caller promises about its entries, which is
collected in `Appendable`.
-/

import QuorumKit.LogManager.LogicalSteps

namespace QuorumKit

namespace LogManager

variable {P D C : Type}

/-- The entries have consecutive indexes from `start` on. -/
def Consecutive (start : Nat) (entries : List (LogEntry P D)) : Prop :=
  ∀ position entry, entries[position]? = some entry → entry.id.index = start + position

/-- Where a batch starts: a leader leaves the indexes to the log manager. -/
def batchStart (manager : LogManager P D C) (front : LogEntry P D) : Nat :=
  if front.id.index = 0 then manager.lastLogIndex + 1 else front.id.index

/-- A leader appends at the end; a follower has checked the entry before the
batch.  Entries with the same id are the same entry, terms do not decrease along
a log, and what is above the applied entry is not older than it. -/
structure Appendable (manager : LogManager P D C) (entries : List (LogEntry P D)) : Prop where
  indexes : (∀ entry ∈ entries, entry.id.index = 0) ∨ ∃ start, 0 < start ∧ Consecutive start entries
  terms : ∀ entry ∈ entries, 0 < entry.id.term
  sorted : entries.Pairwise (fun former later => former.id.term ≤ later.id.term)
  matching : ∀ entry ∈ entries, ∀ found, manager.getEntry entry.id.index = some found →
    found.id = entry.id → found = entry
  previous : ∀ front, entries.head? = some front →
    manager.getTerm (manager.batchStart front - 1) ≤ front.id.term
  committed : ∀ entry ∈ entries,
    entry.id.index = 0 ∨ manager.appliedId.index < entry.id.index →
    manager.appliedId.term ≤ entry.id.term

theorem assignIndexes_getElem? (entries : List (LogEntry P D)) : ∀ (lastLogIndex position : Nat),
    (assignIndexes lastLogIndex entries)[position]? =
      entries[position]?.map (fun entry =>
        { entry with id := { entry.id with index := lastLogIndex + 1 + position } }) := by
  induction entries with
  | nil => simp [assignIndexes]
  | cons head rest ih =>
      intro lastLogIndex position
      cases position with
      | zero => rfl
      | succ position =>
          rw [assignIndexes, List.getElem?_cons_succ, List.getElem?_cons_succ, ih]
          rw [show lastLogIndex + 1 + 1 + position = lastLogIndex + 1 + (position + 1) by omega]

theorem assignIndexes_length (entries : List (LogEntry P D)) : ∀ lastLogIndex : Nat,
    (assignIndexes lastLogIndex entries).length = entries.length := by
  induction entries with
  | nil => exact fun _ => rfl
  | cons head rest ih => exact fun _ => congrArg Nat.succ (ih _)

theorem assignIndexes_sorted {entries : List (LogEntry P D)}
    (sorted : entries.Pairwise (fun former later => former.id.term ≤ later.id.term)) :
    ∀ lastLogIndex : Nat, (assignIndexes lastLogIndex entries).Pairwise
      (fun former later => former.id.term ≤ later.id.term) := by
  have terms (entries : List (LogEntry P D)) : ∀ lastLogIndex : Nat,
      (assignIndexes lastLogIndex entries).map (fun entry => entry.id.term) =
        entries.map (fun entry => entry.id.term) := by
    induction entries with
    | nil => exact fun _ => rfl
    | cons head rest ih => exact fun lastLogIndex => congrArg (head.id.term :: ·) (ih _)
  intro lastLogIndex
  rw [← List.pairwise_map (f := fun entry : LogEntry P D => entry.id.term), terms,
    List.pairwise_map]
  exact sorted

theorem Consecutive.back {start : Nat} {entries : List (LogEntry P D)} {back : LogEntry P D}
    (consecutive : Consecutive start entries) (isBack : entries.getLast? = some back) :
    back.id.index + 1 = start + entries.length := by
  rw [List.getLast?_eq_getElem?] at isBack
  have placed := consecutive _ _ isBack
  have nonempty := (List.getElem?_eq_some_iff.mp isBack).1
  omega

theorem Consecutive.front {start : Nat} {entries : List (LogEntry P D)} {front : LogEntry P D}
    (consecutive : Consecutive start entries) (isFront : entries.head? = some front) :
    front.id.index = start := by
  rw [List.head?_eq_getElem?] at isFront
  exact consecutive _ _ isFront

/-- What a call appends: `submitted` are its entries, the log is cut at `cut` and
goes on with `remaining`. -/
structure Appends (low : Nat) (applied : LogId) (log : LogStorage P D)
    (submitted remaining : List (LogEntry P D)) (cut : Nat) : Prop where
  lower : log.first ≤ cut
  upper : cut ≤ log.stop
  consecutive : ∃ start, Consecutive start submitted
  suffix : remaining <:+ submitted
  fits : LogStorage.Fits (log.keepBelow cut) remaining
  present : ∀ entry ∈ submitted, entry ∈ remaining ∨ entry.id.index < low ∨
    entry.id.index < log.first ∨
      (entry.id.index < cut ∧ log.getEntry entry.id.index = some entry)
  sorted : remaining.Pairwise (fun former later => former.id.term ≤ later.id.term)
  boundary : ∀ front former, remaining.head? = some front → low ≤ cut - 1 → 0 < cut →
    log.getEntry (cut - 1) = some former → former.id.term ≤ front.id.term
  committed : ∀ entry ∈ remaining, applied.index < entry.id.index → applied.term ≤ entry.id.term

/-- How the log manager has been prepared for the remaining entries. -/
def Prepared (manager base resolved : LogManager P D C) (log : LogStorage P D) (cut : Nat)
    (remaining : List (LogEntry P D)) : Prop :=
  resolved = { base with lastLogIndex := cut + remaining.length - 1 } ∧
    (base = manager ∧ cut = log.stop ∨
      manager.unsafeTruncateSuffix (cut - 1) = some base ∧ manager.appliedId.index < cut ∧
        cut < log.stop)

variable {low : Nat} {manager : LogManager P D C} {log : LogStorage P D}

theorem Tracks.appends_end (tracks : Tracks low manager log) {entries : List (LogEntry P D)}
    (consecutive : Consecutive log.stop entries) (terms : ∀ entry ∈ entries, 0 < entry.id.term)
    (sorted : entries.Pairwise (fun former later => former.id.term ≤ later.id.term))
    (previous : ∀ front, entries.head? = some front →
      manager.getTerm (log.stop - 1) ≤ front.id.term)
    (committed : ∀ entry ∈ entries, manager.appliedId.index < entry.id.index →
      manager.appliedId.term ≤ entry.id.term) :
    Appends low manager.appliedId log entries entries log.stop := by
  have whole : log.keepBelow log.stop = log := by
    cases log
    simp [IndexedLog.keepBelow, IndexedLog.stop]
  constructor
  · exact log.first_le_stop
  · exact le_refl _
  · exact ⟨_, consecutive⟩
  · exact List.suffix_refl _
  · intro position entry found
    rw [whole]
    exact ⟨consecutive _ _ found, terms entry (List.mem_of_getElem? found)⟩
  · exact fun entry member => Or.inl member
  · exact sorted
  · intro front former isFront lower _ found
    have bound := previous front isFront
    rwa [tracks.getTerm_eq lower found] at bound
  · exact committed

theorem Tracks.duplicate (tracks : Tracks low manager log) {entries : List (LogEntry P D)}
    (appendable : manager.Appendable entries) {entry : LogEntry P D} (member : entry ∈ entries)
    (same : manager.getTerm entry.id.index = entry.id.term) :
    entry.id.index < log.stop ∧
      (entry.id.index < low ∨ entry.id.index < log.first ∨
        log.getEntry entry.id.index = some entry) := by
  have hasTerm : manager.getTerm entry.id.index ≠ 0 := by
    have positive := appendable.terms entry member
    omega
  have inside := tracks.lt_stop_of_getTerm hasTerm
  refine ⟨inside, ?_⟩
  by_cases below : entry.id.index < low
  · exact Or.inl below
  · by_cases dropped : entry.id.index < log.first
    · exact Or.inr (Or.inl dropped)
    · obtain ⟨found, isFound⟩ := IndexedLog.exists_get? (not_lt.mp dropped) inside
      have isFound : log.getEntry entry.id.index = some found := isFound
      have lower : low ≤ entry.id.index := by omega
      have sameId : found.id = entry.id := by
        ext
        · exact (tracks.wellFormed.indexed _ _ isFound).1
        · exact (tracks.getTerm_eq lower isFound).symm.trans same
      have read : manager.getEntry entry.id.index = some found := by
        rw [tracks.getEntry_eq lower, isFound]
      obtain rfl := appendable.matching entry member found read sameId
      exact Or.inr (Or.inr isFound)

theorem Tracks.appends_duplicates (tracks : Tracks low manager log)
    {entries : List (LogEntry P D)} (appendable : manager.Appendable entries) {start : Nat}
    (consecutive : Consecutive start entries)
    (same : ∀ entry ∈ entries, manager.getTerm entry.id.index = entry.id.term) :
    Appends low manager.appliedId log entries [] log.stop := by
  constructor
  · exact log.first_le_stop
  · exact le_refl _
  · exact ⟨start, consecutive⟩
  · exact List.nil_suffix
  · intro position entry found
    contradiction
  · intro entry member
    obtain ⟨inside, present⟩ := tracks.duplicate appendable member (same entry member)
    exact Or.inr (present.imp_right (Or.imp_right fun found => ⟨inside, found⟩))
  · exact List.Pairwise.nil
  · intro front former isFront
    contradiction
  · intro entry member
    contradiction

theorem Tracks.appends_conflict (tracks : Tracks low manager log)
    {dropped rest : List (LogEntry P D)} {conflicting : LogEntry P D}
    (appendable : manager.Appendable (dropped ++ conflicting :: rest)) {start : Nat}
    (consecutive : Consecutive start (dropped ++ conflicting :: rest))
    (same : ∀ entry ∈ dropped, manager.getTerm entry.id.index = entry.id.term)
    (lower : log.first ≤ conflicting.id.index)
    (upper : conflicting.id.index ≤ log.stop) :
    Appends low manager.appliedId log (dropped ++ conflicting :: rest) (conflicting :: rest)
      conflicting.id.index := by
  have conflictIndex : conflicting.id.index = start + dropped.length :=
    consecutive dropped.length conflicting (by simp)
  constructor
  · exact lower
  · exact upper
  · exact ⟨start, consecutive⟩
  · exact List.suffix_append _ _
  · intro position entry found
    have placed : entry.id.index = start + (dropped.length + position) := by
      apply consecutive
      rw [List.getElem?_append_right (by omega), Nat.add_sub_cancel_left, found]
    rw [IndexedLog.keepBelow_stop log lower upper]
    refine ⟨by omega, appendable.terms entry ?_⟩
    exact List.mem_append_right _ (List.mem_of_getElem? found)
  · intro entry member
    rcases List.mem_append.mp member with early | late
    · obtain ⟨_, present⟩ := tracks.duplicate appendable member (same entry early)
      have before : entry.id.index < conflicting.id.index := by
        obtain ⟨position, found⟩ := List.mem_iff_getElem?.mp early
        have inside := (List.getElem?_eq_some_iff.mp found).1
        have placed := consecutive position entry
          (by rw [List.getElem?_append_left inside, found])
        omega
      exact Or.inr (present.imp_right (Or.imp_right fun found => ⟨before, found⟩))
    · exact Or.inl late
  · exact (List.pairwise_append.mp appendable.sorted).2.1
  · intro front former isFront lowerFormer positive found
    obtain rfl : conflicting = front := by simpa using isFront
    rcases List.eq_nil_or_concat dropped with none | ⟨earlier, last, isLast⟩
    · subst none
      have bound := appendable.previous conflicting rfl
      have startIndex : manager.batchStart conflicting = conflicting.id.index :=
        if_neg (by omega)
      rwa [startIndex, tracks.getTerm_eq lowerFormer found] at bound
    · -- the entry before the cut is the last one that was left out
      subst isLast
      have lastIndex : last.id.index = conflicting.id.index - 1 := by
        have placed := consecutive earlier.length last (by simp)
        simp at conflictIndex
        omega
      have member : last ∈ earlier.concat last ++ conflicting :: rest := by simp
      obtain ⟨_, present⟩ := tracks.duplicate appendable member (same last (by simp))
      have inside := (IndexedLog.get?_bounds found).1
      have isFormer : log.getEntry last.id.index = some last := by
        rcases present with below | below | isLast
        · omega
        · omega
        · exact isLast
      rw [lastIndex, found] at isFormer
      obtain rfl := Option.some.inj isFormer
      have ordered := (List.pairwise_append.mp appendable.sorted).2.2
      exact ordered former (by simp) conflicting List.mem_cons_self
  · intro entry member above
    exact appendable.committed entry (List.mem_append_right _ member) (Or.inr above)

theorem Tracks.resolve_rest {entries dropped rest : List (LogEntry P D)}
    {conflicting back : LogEntry P D} {start : Nat} (tracks : Tracks low manager log)
    (appendable : manager.Appendable entries) (consecutive : Consecutive start entries)
    (isBack : entries.getLast? = some back) (inside : start ≤ log.stop)
    (split : dropped ++ conflicting :: rest = entries)
    (same : ∀ entry ∈ dropped, manager.getTerm entry.id.index = entry.id.term) :
    start ≤ conflicting.id.index ∧ conflicting.id.index ≤ log.stop ∧
      conflicting.id.index + (conflicting :: rest).length - 1 = back.id.index ∧
      (log.first ≤ conflicting.id.index → Appends low manager.appliedId log entries
        (conflicting :: rest) conflicting.id.index) := by
  have backIndex := consecutive.back isBack
  have conflictIndex : conflicting.id.index = start + dropped.length :=
    consecutive dropped.length conflicting (by rw [← split]; simp)
  have reaches : conflicting.id.index ≤ log.stop := by
    rcases List.eq_nil_or_concat dropped with none | ⟨earlier, final, isFinal⟩
    · rw [none, List.length_nil] at conflictIndex
      omega
    · -- the entry before it has a term, so it is inside
      have finalIndex : final.id.index = start + earlier.length := by
        apply consecutive
        rw [← split, isFinal]
        simp
      have member : final ∈ entries := by
        rw [← split, isFinal]
        simp
      have inside := (tracks.duplicate appendable member
        (same final (by rw [isFinal]; simp))).1
      simp [isFinal] at conflictIndex
      omega
  refine ⟨by omega, reaches, ?_, ?_⟩
  · have total := congrArg List.length split
    rw [List.length_append] at total
    omega
  · intro lower
    subst split
    exact tracks.appends_conflict appendable consecutive same lower reaches

theorem Tracks.resolve_accepted {entries remaining : List (LogEntry P D)}
    {front back : LogEntry P D} {resolved : LogManager P D C}
    (tracks : Tracks low manager log) (opened : manager.Opened)
    (appendable : manager.Appendable entries) (isFront : entries.head? = some front)
    (isBack : entries.getLast? = some back)
    (accepted : manager.checkAndResolveConflict entries front back =
      some (.accepted remaining resolved)) :
    ∃ base cut, Prepared manager base resolved log cut remaining ∧
      Appends low manager.appliedId log (if front.id.index = 0 then remaining else entries)
        remaining cut := by
  have last := tracks.last
  have frontMember := List.mem_of_mem_head? isFront
  have numbered (follower : front.id.index ≠ 0) :
      ∃ start, 0 < start ∧ Consecutive start entries := by
    rcases appendable.indexes with zero | consecutive
    · exact absurd (zero front frontMember) follower
    · exact consecutive
  cases resolves_of_accepted accepted with
  | leader isLeader =>
      rw [if_pos isLeader]
      have original {assigned : LogEntry P D}
          (member : assigned ∈ assignIndexes manager.lastLogIndex entries) :
          ∃ entry ∈ entries, entry.id.term = assigned.id.term := by
        obtain ⟨position, found⟩ := List.mem_iff_getElem?.mp member
        rw [assignIndexes_getElem?, Option.map_eq_some_iff] at found
        obtain ⟨entry, isEntry, rfl⟩ := found
        exact ⟨entry, List.mem_of_getElem? isEntry, rfl⟩
      refine ⟨manager, log.stop, ⟨?_, Or.inl ⟨rfl, rfl⟩⟩, tracks.appends_end ?_ ?_ ?_ ?_ ?_⟩
      · congr 1
        rw [assignIndexes_length]
        omega
      · intro position entry found
        rw [assignIndexes_getElem?, Option.map_eq_some_iff] at found
        obtain ⟨original, _, rfl⟩ := found
        simp only
        omega
      · intro assigned member
        obtain ⟨entry, isEntry, sameTerm⟩ := original member
        exact sameTerm ▸ appendable.terms entry isEntry
      · exact assignIndexes_sorted appendable.sorted _
      · intro assigned isAssigned
        rw [List.head?_eq_getElem?, assignIndexes_getElem?, ← List.head?_eq_getElem?, isFront,
          Option.map_some] at isAssigned
        obtain rfl := Option.some.inj isAssigned
        have bound := appendable.previous front isFront
        have startIndex : manager.batchStart front = log.stop := by
          rw [batchStart, if_pos isLeader, last]
        rwa [startIndex] at bound
      · intro assigned member _
        obtain ⟨entry, isEntry, sameTerm⟩ := original member
        have zero : entry.id.index = 0 := by
          rcases appendable.indexes with zero | ⟨start, nonzero, consecutive⟩
          · exact zero entry isEntry
          · have frontIndex := consecutive.front isFront
            omega
        exact sameTerm ▸ appendable.committed entry isEntry (Or.inl zero)
  | next follower isNext new =>
      -- the batch starts right after the log
      rw [if_neg follower]
      obtain ⟨start, nonzero, consecutive⟩ := numbered follower
      have frontIndex := consecutive.front isFront
      have backIndex := consecutive.back isBack
      have atEnd : start = log.stop := by omega
      subst atEnd
      refine ⟨manager, log.stop, ⟨?_, Or.inl ⟨rfl, rfl⟩⟩,
        tracks.appends_end consecutive appendable.terms appendable.sorted ?_
          (fun entry member above => appendable.committed entry member (Or.inr above))⟩
      · congr 1
        omega
      · intro other isOther
        have bound := appendable.previous other isOther
        have startIndex : manager.batchStart other = log.stop := by
          rw [isFront] at isOther
          obtain rfl := Option.some.inj isOther
          rw [batchStart, if_neg follower, frontIndex]
        rwa [startIndex] at bound
  | known follower inside new same =>
      rw [if_neg follower]
      obtain ⟨start, nonzero, consecutive⟩ := numbered follower
      refine ⟨manager, log.stop, ⟨?_, Or.inl ⟨rfl, rfl⟩⟩,
        tracks.appends_duplicates appendable consecutive same⟩
      have lastEq : log.stop + ([] : List (LogEntry P D)).length - 1 = manager.lastLogIndex := by
        rw [List.length_nil]
        omega
      rw [lastEq]
  | conflict follower inside new split same differs overlaps truncated =>
      rw [if_neg follower]
      obtain ⟨start, nonzero, consecutive⟩ := numbered follower
      have frontIndex := consecutive.front isFront
      obtain ⟨behind, reaches, lastEq, appends⟩ :=
        tracks.resolve_rest appendable consecutive isBack (by omega) split same
      have applied := (unsafeTruncateSuffix_some truncated).1
      have window : manager.firstLogIndex ≤ manager.lastSnapshotId.index + 1 := opened
      have first := tracks.first
      have snapshot := tracks.applied
      refine ⟨_, _, ⟨by rw [lastEq], Or.inr ⟨truncated, ?_, ?_⟩⟩, appends ?_⟩ <;> omega
  | extension follower inside new split same differs beyond =>
      rw [if_neg follower]
      obtain ⟨start, nonzero, consecutive⟩ := numbered follower
      have frontIndex := consecutive.front isFront
      obtain ⟨behind, reaches, lastEq, appends⟩ :=
        tracks.resolve_rest appendable consecutive isBack (by omega) split same
      have atEnd : _ = log.stop := le_antisymm reaches (by omega)
      have firstBelow := log.first_le_stop
      exact ⟨manager, _, ⟨by rw [lastEq], Or.inl ⟨rfl, atEnd⟩⟩, appends (by omega)⟩

end LogManager

end QuorumKit
