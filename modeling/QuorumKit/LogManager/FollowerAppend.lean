/-
The log after `append_entries` with the entries of a leader.

The entries that the log already has are left out; the log is cut before the first of
the others and goes on with them.  `get_term` finds the first one.  At indexes that are
applied it may still read the storage before a cut that is pending, and the batch is
then taken for one that cuts applied entries.
-/

import QuorumKit.LogManager.FlushedLastLogId

namespace QuorumKit

variable {P D C : Type}

def LogStorage.HasTerm (log : LogStorage P D) (entry : LogEntry P D) : Prop :=
  (log.getEntry entry.id.index).map (fun found => found.id.term) = some entry.id.term

instance (log : LogStorage P D) (entry : LogEntry P D) : Decidable (log.HasTerm entry) :=
  inferInstanceAs (Decidable (_ = _))

theorem LogStorage.HasTerm.lt_stop {log : LogStorage P D} {entry : LogEntry P D}
    (known : log.HasTerm entry) : entry.id.index < log.stop := by
  obtain ⟨found, isFound, _⟩ := Option.map_eq_some_iff.mp known
  exact (IndexedLog.get?_bounds isFound).2

/-- The log up to the first entry of the batch that it does not have, and the batch from
there on. -/
def LogStorage.merge (log : LogStorage P D) (entries : List (LogEntry P D)) : LogStorage P D :=
  match entries.dropWhile (fun entry => log.HasTerm entry) with
  | [] => log
  | front :: rest => (log.keepBelow front.id.index).append (front :: rest)

namespace LogManager

def appendedLog (manager : LogManager P D C) (entries : List (LogEntry P D)) : LogStorage P D :=
  if ∀ entry ∈ entries, entry.id.index ≤ manager.appliedId.index then manager.logicalLog
  else manager.logicalLog.merge entries

/-- A batch without a hole that starts in the log or right after it, and has no conflict
with applied entries. -/
structure LeaderBatch (manager : LogManager P D C) (front : LogEntry P D)
    (entries : List (LogEntry P D)) : Prop where
  isFront : entries.head? = some front
  consecutive : Consecutive front.id.index entries
  terms : ∀ entry ∈ entries, 0 < entry.id.term
  lower : manager.firstLogIndex ≤ front.id.index
  upper : front.id.index ≤ manager.lastLogIndex + 1
  noConflict : ∀ entry ∈ entries, entry.id.index ≤ manager.appliedId.index →
    ∀ found, manager.logicalLog.getEntry entry.id.index = some found →
      found.id.term = entry.id.term

/-- `append_entries` returns with this log, the end of which is in memory. -/
def AppendsRight [DecidableEq P] (manager : LogManager P D C) (context : C)
    (entries : List (LogEntry P D)) : Prop :=
  ∃ after, manager.appendEntries context entries false = some after ∧
    after.logicalLog = manager.appendedLog entries ∧
    after.firstLogIndex = after.logicalLog.first ∧
    after.lastLogIndex + 1 = after.logicalLog.stop ∧
    after.logsInMemory <:+ after.logicalLog.entries

/-- `get_term` knows the terms of the batch up to the applied entry, and some term of the
applied entry when it is the last one that is kept. -/
structure ReadsApplied (manager : LogManager P D C) (front : LogEntry P D)
    (entries : List (LogEntry P D)) : Prop where
  inBatch : ∀ entry ∈ entries, entry.id.index ≤ manager.appliedId.index →
    entry.id.index ≤ manager.lastLogIndex → manager.getTerm entry.id.index = entry.id.term
  before : front.id.index = manager.appliedId.index + 1 →
    front.id.index ≤ manager.lastLogIndex → manager.getTerm front.id.index ≠ front.id.term →
    manager.appliedId.index = 0 ∨ manager.getTerm manager.appliedId.index ≠ 0

variable {low : Nat} {manager manager' : LogManager P D C} {log : LogStorage P D}
  {front back : LogEntry P D} {entries : List (LogEntry P D)}

theorem getEntryFromMemory_of {start : Nat} (consecutive : Consecutive start manager.logsInMemory)
    (index : Nat) :
    manager.getEntryFromMemory index =
      if start ≤ index then manager.logsInMemory[index - start]? else none := by
  unfold getEntryFromMemory
  cases isFront : manager.logsInMemory.head? with
  | none =>
      rw [List.head?_eq_none_iff] at isFront
      rw [isFront]
      simp
  | some front =>
      cases isBack : manager.logsInMemory.getLast? with
      | none =>
          rw [List.getLast?_eq_none_iff] at isBack
          rw [isBack] at isFront
          contradiction
      | some back =>
          have frontIndex := consecutive.front isFront
          have backIndex := consecutive.back isBack
          simp only
          rw [frontIndex]
          by_cases above : start ≤ index
          · rw [if_pos above]
            by_cases inside : index ≤ back.id.index
            · rw [if_pos ⟨above, inside⟩]
            · rw [if_neg (fun both => inside both.2), List.getElem?_eq_none (by omega)]
          · rw [if_neg above, if_neg (fun both => above both.1)]

theorem Holds.memory_consecutive (holds : Holds low manager log) :
    Consecutive (log.stop - manager.logsInMemory.length) manager.logsInMemory := by
  have length := holds.memory.length_le
  have stop : log.stop = log.first + log.entries.length := rfl
  intro position entry found
  have placed := holds.memory_indexed found
  omega

theorem Holds.getTerm_kept (holds : Holds low manager log) {kept : Nat}
    (upper : kept ≤ manager.lastLogIndex) :
    ({ manager with
      logsInMemory := manager.logsInMemory.rdropWhile (fun entry => kept < entry.id.index)
      lastLogIndex := kept } : LogManager P D C).getTerm kept = manager.getTerm kept := by
  have consecutive := holds.memory_consecutive
  have cut := rdropWhile_above manager.logsInMemory kept _ consecutive
  have memory : ({ manager with
      logsInMemory := manager.logsInMemory.rdropWhile (fun entry => kept < entry.id.index)
      lastLogIndex := kept } : LogManager P D C).getEntryFromMemory kept =
        manager.getEntryFromMemory kept := by
    rw [getEntryFromMemory_of consecutive]
    have shorter : Consecutive (log.stop - manager.logsInMemory.length)
        (manager.logsInMemory.rdropWhile (fun entry => kept < entry.id.index)) := by
      intro position entry found
      rw [cut, List.getElem?_take] at found
      split_ifs at found
      exact consecutive position entry found
    rw [getEntryFromMemory_of shorter]
    simp only [cut, List.getElem?_take]
    split_ifs
    · rfl
    · omega
    · rfl
  unfold getTerm
  rw [memory]
  simp only [lt_self_iff_false, false_or, not_lt.mpr upper]

theorem Holds.unsafeTruncateSuffix_total (holds : Holds low manager log) {kept : Nat}
    (upper : kept ≤ manager.lastLogIndex) (applied : manager.appliedId.index ≤ kept)
    (hasTerm : kept = 0 ∨ manager.getTerm kept ≠ 0) :
    ∃ after, manager.unsafeTruncateSuffix kept = some after := by
  unfold LogManager.unsafeTruncateSuffix
  rw [if_neg (not_lt.mpr applied)]
  simp only
  rw [holds.getTerm_kept upper, if_neg]
  · exact ⟨_, rfl⟩
  · rintro ⟨nonzero, none⟩
    exact hasTerm.elim nonzero (fun some => some none)

theorem Tracks.getTerm_iff (tracks : Tracks (manager.appliedId.index + 1) manager log)
    (isLog : manager.logicalLog = log) (batch : LeaderBatch manager front entries)
    (reads : ReadsApplied manager front entries) {entry : LogEntry P D}
    (member : entry ∈ entries) :
    manager.getTerm entry.id.index = entry.id.term ↔ log.HasTerm entry := by
  have last := tracks.last
  have positive := batch.terms entry member
  have above : log.first ≤ entry.id.index := by
    obtain ⟨position, found⟩ := List.mem_iff_getElem?.mp member
    have placed := batch.consecutive position entry found
    have lower := batch.lower
    rw [tracks.first] at lower
    omega
  unfold LogStorage.HasTerm
  by_cases inside : entry.id.index < log.stop
  · obtain ⟨found, isFound⟩ := IndexedLog.exists_get? above inside
    have isFound : log.getEntry entry.id.index = some found := isFound
    rw [isFound, Option.map_some, Option.some_inj]
    by_cases applied : entry.id.index ≤ manager.appliedId.index
    · have same := batch.noConflict entry member applied found (by rw [isLog, isFound])
      have read := reads.inBatch entry member applied (by omega)
      exact ⟨fun _ => same, fun _ => read⟩
    · rw [tracks.getTerm_eq (by omega) isFound]
  · have missing : log.getEntry entry.id.index = none :=
      (log.get?_eq_none_iff _).mpr (Or.inr (by omega))
    rw [missing]
    constructor
    · intro same
      exact absurd (tracks.lt_stop_of_getTerm (by omega)) inside
    · intro impossible
      contradiction

theorem dropWhile_congr {left right : LogEntry P D → Bool}
    (same : ∀ entry ∈ entries, left entry = right entry) :
    entries.dropWhile left = entries.dropWhile right := by
  induction entries with
  | nil => rfl
  | cons head rest ih =>
      rw [List.dropWhile_cons, List.dropWhile_cons, same head List.mem_cons_self,
        ih (fun entry member => same entry (List.mem_cons_of_mem _ member))]

theorem dropWhile_parts {known : LogEntry P D → Bool} {start : Nat}
    (consecutive : Consecutive start entries) {conflicting : LogEntry P D}
    {rest : List (LogEntry P D)} (isRest : entries.dropWhile known = conflicting :: rest) :
    ∃ dropped, entries = dropped ++ conflicting :: rest ∧ (∀ entry ∈ dropped, known entry) ∧
      known conflicting = false ∧ conflicting.id.index = start + dropped.length ∧
      Consecutive conflicting.id.index (conflicting :: rest) := by
  obtain ⟨dropped, isDropped⟩ : ∃ dropped, dropped = entries.takeWhile known := ⟨_, rfl⟩
  have split : entries = dropped ++ conflicting :: rest := by
    rw [isDropped, ← isRest]
    exact List.takeWhile_append_dropWhile.symm
  have conflictIndex : conflicting.id.index = start + dropped.length :=
    consecutive _ _ (by rw [split]; simp)
  refine ⟨dropped, split, ?_, ?_, conflictIndex, ?_⟩
  · intro entry member
    rw [isDropped] at member
    exact List.mem_takeWhile_imp member
  · have nonempty : entries.dropWhile known ≠ [] := by
      rw [isRest]
      exact List.cons_ne_nil _ _
    have first := List.head_dropWhile_not known nonempty
    simpa only [isRest, List.head_cons] using first
  · intro position entry found
    have placed := consecutive (dropped.length + position) entry (by
      rw [split, List.getElem?_append_right (by omega), Nat.add_sub_cancel_left, found])
    omega

variable [DecidableEq P] {context : C}

theorem appendEntries_eq (manager : LogManager P D C) (context : C)
    (isFront : entries.head? = some front) (isBack : entries.getLast? = some back)
    (notLeader : front.id.index ≠ 0) :
    manager.appendEntries context entries false =
      match manager.checkAndResolveConflict entries front back with
      | none => none
      | some (.refused status) =>
          some (manager.runInBthread { context := context, submitted := entries } status)
      | some (.accepted remaining resolved) =>
          some (resolved.enqueue context entries remaining) := by
  unfold LogManager.appendEntries
  rw [if_neg (fun seen => Bool.noConfusion seen.2), isFront, isBack]
  simp only
  cases manager.checkAndResolveConflict entries front back with
  | none => rfl
  | some resolution =>
      cases resolution with
      | refused status => rfl
      | accepted remaining resolved => simp only [if_neg notLeader]

theorem AppendsRight.of_holds {after : LogManager P D C}
    (stepped : manager.appendEntries context entries false = some after)
    (holds : Holds low after (manager.appendedLog entries)) :
    AppendsRight manager context entries := by
  refine ⟨after, stepped, holds.logicalLog_eq, ?_, ?_, ?_⟩
  · rw [holds.logicalLog_eq]
    exact holds.first
  · rw [holds.logicalLog_eq]
    exact holds.last
  · rw [holds.logicalLog_eq]
    exact holds.memory

omit [DecidableEq P] in
theorem fits_cut (lower : log.first ≤ front.id.index) (upper : front.id.index ≤ log.stop)
    (consecutive : Consecutive front.id.index entries)
    (terms : ∀ entry ∈ entries, 0 < entry.id.term) :
    LogStorage.Fits (log.keepBelow front.id.index) entries := by
  intro position entry found
  rw [IndexedLog.keepBelow_stop log lower upper]
  exact ⟨consecutive position entry found, terms entry (List.mem_of_getElem? found)⟩

theorem Holds.appendsEnd (holds : Holds low manager log)
    (above : manager.lastLogIndex < front.id.index) (upper : front.id.index ≤ log.stop)
    (consecutive : Consecutive front.id.index entries)
    (terms : ∀ entry ∈ entries, 0 < entry.id.term) (isBack : entries.getLast? = some back)
    (submitted : List (LogEntry P D)) :
    Holds low
      (({ manager with lastLogIndex := back.id.index } : LogManager P D C).enqueue context
        submitted entries) ((log.keepBelow front.id.index).append entries) := by
  have last := holds.last
  have backIndex := consecutive.back isBack
  have atEnd : front.id.index = log.stop := by omega
  have fits := fits_cut (by rw [atEnd]; exact log.first_le_stop) upper consecutive terms
  rw [atEnd, keepBelow_whole] at fits ⊢
  exact holds.enqueue context submitted fits (by omega)

theorem Holds.appendsCut (holds : Holds low manager log) (positive : 0 < front.id.index)
    (lower : log.first ≤ front.id.index) (inside : front.id.index ≤ manager.lastLogIndex)
    (consecutive : Consecutive front.id.index entries)
    (terms : ∀ entry ∈ entries, 0 < entry.id.term) (isBack : entries.getLast? = some back)
    (submitted : List (LogEntry P D)) {truncated : LogManager P D C}
    (cut : manager.unsafeTruncateSuffix (front.id.index - 1) = some truncated) :
    Holds low
      (({ truncated with lastLogIndex := back.id.index } : LogManager P D C).enqueue context
        submitted entries) ((log.keepBelow front.id.index).append entries) := by
  have last := holds.last
  have backIndex := consecutive.back isBack
  have kept := holds.unsafeTruncateSuffix (by omega) (by omega) cut
  rw [Nat.sub_add_cancel positive] at kept
  refine kept.enqueue context submitted (fits_cut lower (by omega) consecutive terms) ?_
  rw [IndexedLog.keepBelow_stop log lower (by omega)]
  exact backIndex

omit [DecidableEq P] in
theorem Tracks.hasTerm_before (tracks : Tracks (manager.appliedId.index + 1) manager log)
    (opened : manager.Opened) (batch : LeaderBatch manager front entries)
    (reads : ReadsApplied manager front entries) {dropped rest : List (LogEntry P D)}
    {conflicting : LogEntry P D} (split : entries = dropped ++ conflicting :: rest)
    (known : ∀ entry ∈ dropped, manager.getTerm entry.id.index = entry.id.term)
    (unknown : manager.getTerm conflicting.id.index ≠ conflicting.id.term)
    (inside : conflicting.id.index ≤ manager.lastLogIndex) :
    manager.appliedId.index < conflicting.id.index ∧
      (conflicting.id.index - 1 = 0 ∨ manager.getTerm (conflicting.id.index - 1) ≠ 0) := by
  have member : conflicting ∈ entries := by
    rw [split]
    simp
  have above : manager.appliedId.index < conflicting.id.index := by
    by_contra applied
    exact unknown (reads.inBatch conflicting member (by omega) inside)
  refine ⟨above, ?_⟩
  have conflictIndex : conflicting.id.index = front.id.index + dropped.length :=
    batch.consecutive _ _ (by rw [split]; simp)
  rcases List.eq_nil_or_concat dropped with none | ⟨earlier, former, isFormer⟩
  · -- the batch starts with it
    have isFront := batch.isFront
    rw [split, none, List.nil_append, List.head?_cons, Option.some_inj] at isFront
    subst isFront
    by_cases next : conflicting.id.index = manager.appliedId.index + 1
    · have before := reads.before next inside unknown
      rwa [next]
    · have window : manager.firstLogIndex ≤ manager.lastSnapshotId.index + 1 := opened
      have first := tracks.first
      have last := tracks.last
      have applied := tracks.applied
      obtain ⟨found, isFound⟩ : ∃ found, log.getEntry (conflicting.id.index - 1) = some found :=
        IndexedLog.exists_get? (by omega) (by omega)
      refine Or.inr ?_
      rw [tracks.getTerm_eq (by omega) isFound]
      exact Nat.pos_iff_ne_zero.mp (tracks.wellFormed.indexed _ _ isFound).2
  · subst isFormer
    have formerMember : former ∈ entries := by
      rw [split]
      simp
    have formerIndex : former.id.index = front.id.index + earlier.length :=
      batch.consecutive _ _ (by rw [split]; simp)
    simp only [List.concat_eq_append, List.length_append, List.length_singleton] at conflictIndex
    refine Or.inr ?_
    rw [show conflicting.id.index - 1 = former.id.index by omega, known former (by simp)]
    exact Nat.pos_iff_ne_zero.mp (batch.terms former formerMember)

theorem Tracks.appendsRight (tracks : Tracks (manager.appliedId.index + 1) manager log)
    (isLog : manager.logicalLog = log) (opened : manager.Opened)
    (batch : LeaderBatch manager front entries) (isBack : entries.getLast? = some back)
    (reads : back.id.index ≤ manager.appliedId.index ∨ ReadsApplied manager front entries)
    (context : C) : AppendsRight manager context entries := by
  have positive := tracks.wellFormed.positive
  have lower := batch.lower
  have first := tracks.first
  have last := tracks.last
  have upper := batch.upper
  have backIndex := batch.consecutive.back isBack
  have nonempty := List.length_pos_of_mem (List.mem_of_getLast? isBack)
  have notLeader : front.id.index ≠ 0 := by omega
  have notGap : ¬ manager.lastLogIndex + 1 < front.id.index := by omega
  have step := appendEntries_eq manager context batch.isFront isBack notLeader
  unfold checkAndResolveConflict at step
  rw [if_neg notLeader, if_neg notGap] at step
  by_cases applied : back.id.index ≤ manager.appliedId.index
  · rw [if_pos applied] at step
    have asked : manager.appendedLog entries = log := by
      unfold appendedLog
      rw [if_pos, isLog]
      intro entry member
      obtain ⟨position, found⟩ := List.mem_iff_getElem?.mp member
      have placed := batch.consecutive position entry found
      have below := (List.getElem?_eq_some_iff.mp found).1
      omega
    exact .of_holds step (by rw [asked]; exact tracks.toHolds.frame rfl)
  · have reads := reads.resolve_left applied
    rw [if_neg applied] at step
    have asked : manager.appendedLog entries = log.merge entries := by
      unfold appendedLog
      rw [if_neg, isLog]
      exact fun all => applied (all back (List.mem_of_getLast? isBack))
    have sameKnown : entries.dropWhile (fun entry => manager.getTerm entry.id.index =
          entry.id.term) = entries.dropWhile (fun entry => log.HasTerm entry) :=
      dropWhile_congr (fun entry member =>
        decide_eq_decide.mpr (tracks.getTerm_iff isLog batch reads member))
    have isMerge : log.merge entries =
        match entries.dropWhile (fun entry => manager.getTerm entry.id.index = entry.id.term) with
        | [] => log
        | front :: rest => (log.keepBelow front.id.index).append (front :: rest) := by
      rw [sameKnown]
      rfl
    have rightAfter : ∀ after, manager.appendEntries context entries false = some after →
        Holds (manager.appliedId.index + 1) after (log.merge entries) →
          AppendsRight manager context entries :=
      fun after stepped holds => .of_holds stepped (by rw [asked]; exact holds)
    have frontMember := List.mem_of_mem_head? batch.isFront
    have frontUnknown : front.id.index = manager.lastLogIndex + 1 →
        manager.getTerm front.id.index ≠ front.id.term := by
      intro next known
      have inside := ((tracks.getTerm_iff isLog batch reads frontMember).mp known).lt_stop
      omega
    cases isRest : entries.dropWhile
        (fun entry => manager.getTerm entry.id.index = entry.id.term) with
    | nil =>
        have notNext : front.id.index ≠ manager.lastLogIndex + 1 := by
          intro next
          have known := List.dropWhile_eq_nil_iff.mp isRest front frontMember
          exact frontUnknown next (of_decide_eq_true known)
        rw [if_neg notNext, isRest] at step
        rw [isRest] at isMerge
        refine rightAfter _ step ?_
        rw [isMerge]
        have whole : Holds _ (({ manager with lastLogIndex := manager.lastLogIndex } :
            LogManager P D C).enqueue context entries []) (log.append []) :=
          tracks.toHolds.enqueue context entries (fun _ _ found => absurd found (by simp))
            (by rw [List.length_nil]; omega)
        rwa [IndexedLog.append_nil] at whole
    | cons conflicting rest =>
        obtain ⟨dropped, split, known, unknown, conflictIndex, consecutive⟩ :=
          dropWhile_parts batch.consecutive isRest
        rw [isRest] at isMerge
        have known : ∀ entry ∈ dropped, manager.getTerm entry.id.index = entry.id.term :=
          fun entry member => of_decide_eq_true (known entry member)
        have unknown := of_decide_eq_false unknown
        have inBatch : ∀ entry ∈ conflicting :: rest, entry ∈ entries := by
          intro entry member
          rw [split]
          exact List.mem_append_right _ member
        have terms : ∀ entry ∈ conflicting :: rest, 0 < entry.id.term :=
          fun entry member => batch.terms entry (inBatch entry member)
        have toBack : (conflicting :: rest).getLast? = some back := by
          rw [split, List.getLast?_append_cons] at isBack
          exact isBack
        have reaches : conflicting.id.index ≤ log.stop := by
          rcases List.eq_nil_or_concat dropped with none | ⟨earlier, former, isFormer⟩
          · rw [none, List.length_nil] at conflictIndex
            omega
          · subst isFormer
            have formerIndex : former.id.index = front.id.index + earlier.length :=
              batch.consecutive _ _ (by rw [split]; simp)
            have inside := ((tracks.getTerm_iff isLog batch reads
              (by rw [split]; simp)).mp (known former (by simp))).lt_stop
            simp only [List.concat_eq_append, List.length_append, List.length_singleton]
              at conflictIndex
            omega
        by_cases next : front.id.index = manager.lastLogIndex + 1
        · -- the batch starts with the first new entry
          have isWhole : entries = conflicting :: rest := by
            rcases dropped with _ | ⟨head, dropped⟩
            · exact split
            · have isFront := batch.isFront
              rw [split, List.cons_append, List.head?_cons, Option.some_inj] at isFront
              subst isFront
              exact absurd (known head List.mem_cons_self) (frontUnknown next)
          rw [if_pos next] at step
          refine rightAfter _ step ?_
          rw [isMerge]
          have after : Holds (manager.appliedId.index + 1)
              (({ manager with lastLogIndex := back.id.index } : LogManager P D C).enqueue context
                entries (conflicting :: rest)) _ :=
            tracks.toHolds.appendsEnd (by omega) reaches consecutive terms toBack entries
          rw [isWhole] at after ⊢
          exact after
        · rw [if_neg next, isRest] at step
          simp only at step
          by_cases inside : conflicting.id.index ≤ manager.lastLogIndex
          · obtain ⟨above, hasTerm⟩ :=
              tracks.hasTerm_before opened batch reads split known unknown inside
            obtain ⟨truncated, cut⟩ :=
              tracks.toHolds.unsafeTruncateSuffix_total (by omega) (by omega) hasTerm
            rw [if_pos inside, cut] at step
            refine rightAfter _ step ?_
            rw [isMerge]
            exact tracks.toHolds.appendsCut (by omega) (by omega) inside consecutive terms toBack
              entries cut
          · rw [if_neg inside] at step
            refine rightAfter _ step ?_
            rw [isMerge]
            exact tracks.toHolds.appendsEnd (by omega) reaches consecutive terms toBack entries

omit [DecidableEq P] in
theorem Holds.unsafeTruncateSuffix_none (holds : Holds low manager log) {kept : Nat}
    (upper : kept ≤ manager.lastLogIndex)
    (bad : kept < manager.appliedId.index ∨ kept ≠ 0 ∧ manager.getTerm kept = 0) :
    manager.unsafeTruncateSuffix kept = none := by
  unfold LogManager.unsafeTruncateSuffix
  by_cases applied : kept < manager.appliedId.index
  · rw [if_pos applied]
  · rw [if_neg applied]
    simp only
    rw [holds.getTerm_kept upper, if_pos (bad.resolve_left applied)]

theorem Tracks.appendEntries_none (tracks : Tracks (manager.appliedId.index + 1) manager log)
    (batch : LeaderBatch manager front entries) (isBack : entries.getLast? = some back)
    (above : ¬ back.id.index ≤ manager.appliedId.index) {conflicting : LogEntry P D}
    {rest : List (LogEntry P D)}
    (isRest : entries.dropWhile
      (fun entry => manager.getTerm entry.id.index = entry.id.term) = conflicting :: rest)
    (inside : conflicting.id.index ≤ manager.lastLogIndex)
    (bad : conflicting.id.index - 1 < manager.appliedId.index ∨
      conflicting.id.index - 1 ≠ 0 ∧ manager.getTerm (conflicting.id.index - 1) = 0) :
    manager.appendEntries context entries false = none := by
  have positive := tracks.wellFormed.positive
  have lower := batch.lower
  have upper := batch.upper
  have first := tracks.first
  obtain ⟨dropped, _, _, _, conflictIndex, _⟩ := dropWhile_parts batch.consecutive isRest
  rw [appendEntries_eq manager context batch.isFront isBack (by omega)]
  unfold checkAndResolveConflict
  rw [if_neg (by omega), if_neg (by omega), if_neg above, if_neg (by omega), isRest]
  simp only
  rw [if_pos inside, tracks.toHolds.unsafeTruncateSuffix_none (by omega) bad]
  rfl

theorem Tracks.reads_of_some (tracks : Tracks (manager.appliedId.index + 1) manager log)
    (batch : LeaderBatch manager front entries) (isBack : entries.getLast? = some back)
    (above : ¬ back.id.index ≤ manager.appliedId.index) {after : LogManager P D C}
    (stepped : manager.appendEntries context entries false = some after) :
    ReadsApplied manager front entries := by
  have positive := tracks.wellFormed.positive
  have lower := batch.lower
  have first := tracks.first
  have ended {conflicting : LogEntry P D} {rest : List (LogEntry P D)}
      (isRest : entries.dropWhile
        (fun entry => manager.getTerm entry.id.index = entry.id.term) = conflicting :: rest)
      (inside : conflicting.id.index ≤ manager.lastLogIndex)
      (bad : conflicting.id.index - 1 < manager.appliedId.index ∨
        conflicting.id.index - 1 ≠ 0 ∧ manager.getTerm (conflicting.id.index - 1) = 0) : False := by
    rw [tracks.appendEntries_none batch isBack above isRest inside bad] at stepped
    contradiction
  constructor
  · intro entry member applied inside
    by_contra unknown
    cases isRest : entries.dropWhile
        (fun entry => manager.getTerm entry.id.index = entry.id.term) with
    | nil => exact unknown (of_decide_eq_true (List.dropWhile_eq_nil_iff.mp isRest entry member))
    | cons conflicting rest =>
        obtain ⟨dropped, split, known, _, conflictIndex, consecutive⟩ :=
          dropWhile_parts batch.consecutive isRest
        have notLater : conflicting.id.index ≤ entry.id.index := by
          rw [split] at member
          rcases List.mem_append.mp member with early | late
          · exact absurd (of_decide_eq_true (known entry early)) unknown
          · obtain ⟨position, found⟩ := List.mem_iff_getElem?.mp late
            have placed := consecutive position entry found
            omega
        exact ended isRest (by omega) (Or.inl (by omega))
  · intro next inside unknown
    by_contra none
    obtain ⟨nonzero, noTerm⟩ := not_or.mp none
    cases isEntries : entries with
    | nil =>
        rw [isEntries] at isBack
        contradiction
    | cons head rest =>
        have isFront := batch.isFront
        rw [isEntries, List.head?_cons, Option.some_inj] at isFront
        subst isFront
        have isRest : entries.dropWhile
            (fun entry => manager.getTerm entry.id.index = entry.id.term) = head :: rest := by
          rw [isEntries, List.dropWhile_cons, if_neg (by simpa using unknown)]
        refine ended isRest inside (Or.inr ?_)
        rw [next, Nat.add_sub_cancel]
        exact ⟨nonzero, not_not.mp noTerm⟩

/-- A batch of a leader leads to the log that is asked for exactly when it ends at or below
the applied entry, or `get_term` knows the terms up to there. -/
theorem appendEntries_right_iff (reached : system.Reachable manager)
    (works : manager.hasError = false) (batch : LeaderBatch manager front entries)
    (isBack : entries.getLast? = some back) (context : C) :
    AppendsRight manager context entries ↔
      back.id.index ≤ manager.appliedId.index ∨ ReadsApplied manager front entries := by
  have durable := durable_of_reachable reached
  have tracks := (durable.soundLog works).1.toTracks
  constructor
  · intro right
    obtain ⟨after, stepped, _⟩ := right
    by_cases applied : back.id.index ≤ manager.appliedId.index
    · exact Or.inl applied
    · exact Or.inr (tracks.reads_of_some batch isBack applied stepped)
  · intro reads
    exact tracks.appendsRight rfl durable.opened batch isBack reads context

open FlushRun (dataEntry uncommittedLog uncommittedLog_initial)

theorem replacing_appendable_of {last : LogEntry Nat Nat}
    (isLast : last.id = { index := 3, term := 4 }) :
    uncommittedLog.Appendable [dataEntry 2 2, last] := by
  constructor
  · refine Or.inr ⟨2, by decide, ?_⟩
    intro position entry found
    match position with
    | 0 => exact Option.some.inj found ▸ rfl
    | 1 =>
        obtain rfl : last = entry := Option.some.inj found
        rw [isLast]
    | position + 2 => simp at found
  · intro entry member
    simp only [List.mem_cons, List.not_mem_nil, or_false] at member
    rcases member with rfl | rfl
    · decide
    · rw [isLast]
      decide
  · simp [dataEntry, isLast]
  · intro entry member found read same
    cases member with
    | head =>
        obtain rfl : dataEntry 2 3 = found := Option.some.inj read
        exact absurd same (by decide)
    | tail _ member =>
        obtain rfl := List.mem_singleton.mp member
        rw [isLast] at read
        contradiction
  · intro front isFront
    obtain rfl := Option.some.inj isFront
    decide
  · exact fun entry _ _ => Nat.zero_le _

theorem replacing_appendable : uncommittedLog.Appendable [dataEntry 2 2, dataEntry 3 4] :=
  replacing_appendable_of rfl

/-- The state in which the cut is pending, the new entries are applied, and the first of
them is no longer in memory. -/
def cutPending : LogManager Nat Nat Nat :=
  { uncommittedLog with
    lastLogIndex := 3
    appliedId := { index := 3, term := 4 }
    logsInMemory := [dataEntry 3 4]
    diskQueue := [.truncateSuffix 1 1,
      .append (.queued 0 [dataEntry 2 2, dataEntry 3 4] [dataEntry 2 2, dataEntry 3 4])]
    accepted := uncommittedLog.accepted ++ [dataEntry 2 2, dataEntry 3 4] }

theorem cutPending_reachable : system.Reachable cutPending := by
  have follows : system.Follows
      [.appendEntries 0 [dataEntry 2 2, dataEntry 3 4] false,
        .setAppliedId { index := 3, term := 4 }, .clearMemoryLogs { index := 2, term := 3 }]
      uncommittedLog cutPending := by
    exact ⟨replacing_appendable, _, rfl,
      Or.inr (Or.inr ⟨by decide, by decide, dataEntry 3 4, rfl, rfl⟩), _, rfl, trivial, _, rfl,
      rfl⟩
  exact .follows _ (.start uncommittedLog_initial) follows

theorem cutPending_batch :
    LeaderBatch cutPending (dataEntry 2 2) [dataEntry 2 2, dataEntry 3 4, dataEntry 4 4] := by
  constructor
  · rfl
  · intro position entry found
    match position with
    | 0 => exact Option.some.inj found ▸ rfl
    | 1 => exact Option.some.inj found ▸ rfl
    | 2 => exact Option.some.inj found ▸ rfl
    | position + 3 => simp at found
  · decide
  · decide
  · decide
  · intro entry member applied found isFound
    simp only [List.mem_cons, List.not_mem_nil, or_false] at member
    rcases member with rfl | rfl | rfl
    · exact Option.some.inj isFound ▸ rfl
    · exact Option.some.inj isFound ▸ rfl
    · exact absurd applied (by decide)

theorem appendEntries_duplicate_fatal :
    ∃ manager : LogManager Nat Nat Nat, system.Reachable manager ∧ manager.hasError = false ∧
      ∃ front entries, LeaderBatch manager front entries ∧ ¬ AppendsRight manager 1 entries := by
  refine ⟨cutPending, cutPending_reachable, rfl, _, _, cutPending_batch, ?_⟩
  rintro ⟨after, stepped, _⟩
  have ended : cutPending.appendEntries 1 [dataEntry 2 2, dataEntry 3 4, dataEntry 4 4] false =
      none := rfl
  rw [ended] at stepped
  contradiction

/-- Before the cut the first of these entries replaces the one of term 3. -/
theorem appendEntries_right_iff_uncommitted :
    AppendsRight uncommittedLog 0 [dataEntry 2 2] ∧
      uncommittedLog.appendedLog [dataEntry 2 2] =
        { first := 1, entries := [dataEntry 1 1, dataEntry 2 2] } := by
  have batch : LeaderBatch uncommittedLog (dataEntry 2 2) [dataEntry 2 2] := by
    constructor
    · rfl
    · intro position entry found
      match position with
      | 0 => exact Option.some.inj found ▸ rfl
      | position + 1 => simp at found
    · decide
    · decide
    · decide
    · intro entry member applied
      obtain rfl := List.mem_singleton.mp member
      exact absurd applied (by decide)
  refine ⟨(appendEntries_right_iff (.start uncommittedLog_initial) rfl batch rfl 0).mpr
    (Or.inr ⟨?_, ?_⟩), rfl⟩
  · intro entry member applied
    obtain rfl := List.mem_singleton.mp member
    exact absurd applied (by decide)
  · intro next
    exact absurd next (by decide)

end LogManager

end QuorumKit
