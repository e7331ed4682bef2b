/-
`NodeImpl::read_committed_user_log` of `braft/node.cpp`.

The call loads the applied index once and then reads one entry after another from the log
manager, between whose steps other threads run.  So the answers of `get_entry` are a function
of the index, each at its own time.  While nothing is compacted and no applied entry is cut,
they are what the log had at the start of the call.
-/

import QuorumKit.LogManager.UndisturbedLog

namespace QuorumKit

variable {P D C : Type}

structure UserLog (D : Type) where
  logIndex : Int
  logData : D
deriving DecidableEq

def deletedUserLog (index : Int) : Int × String :=
  ( ELOGDELETED, "user log is deleted at index:" ++ toString index)

def noUserLog (index lastAppliedIndex : Int) : Int × String :=
  ( ENOMOREUSERLOG, "no user log between index:" ++ toString index ++
    " and last_applied_index:" ++ toString lastAppliedIndex)

def searchUserLog (lastAppliedIndex : Int) (getEntry : Int → Option (LogEntry P D)) (index : Int)
    (curIndex : Int) (entry : LogEntry P D) : Except (Int × String) (UserLog D) :=
  if entry.type = .data then .ok ⟨curIndex, entry.data⟩
  else if lastAppliedIndex < curIndex + 1 then .error (noUserLog index lastAppliedIndex)
  else
    match getEntry (curIndex + 1) with
    | none => .error (deletedUserLog (curIndex + 1))
    | some next => searchUserLog lastAppliedIndex getEntry index (curIndex + 1) next
termination_by (lastAppliedIndex - curIndex).toNat
decreasing_by omega

def readCommittedUserLog (lastAppliedIndex : Int) (getEntry : Int → Option (LogEntry P D))
    (index : Int) : Except (Int × String) (UserLog D) :=
  if index ≤ 0 then
    .error ( EINVAL, "request index:" ++ toString index ++ " is invalid.")
  else if lastAppliedIndex < index then
    .error ( ENOMOREUSERLOG, "request index:" ++ toString index ++
      " is greater than last_applied_index:" ++ toString lastAppliedIndex)
  else
    match getEntry index with
    | none => .error (deletedUserLog index)
    | some entry => searchUserLog lastAppliedIndex getEntry index index entry

def NoData (log : Int → Option (LogEntry P D)) (first last : Int) : Prop :=
  ∀ index entry, first ≤ index → index ≤ last → log index = some entry → entry.type ≠ .data

structure FirstData (log : Int → Option (LogEntry P D)) (first last index : Int)
    (entry : LogEntry P D) : Prop where
  lower : first ≤ index
  upper : index ≤ last
  isEntry : log index = some entry
  isData : entry.type = .data
  before : NoData log first (index - 1)

structure CommittedRead (log : Int → Option (LogEntry P D)) (first last lastAppliedIndex : Int)
    (index : Int) (result : Except (Int × String) (UserLog D)) : Prop where
  invalid : index ≤ 0 →
    result = .error ( EINVAL, "request index:" ++ toString index ++ " is invalid.")
  beyond : 0 < index → lastAppliedIndex < index →
    result = .error ( ENOMOREUSERLOG, "request index:" ++ toString index ++
      " is greater than last_applied_index:" ++ toString lastAppliedIndex)
  found : 0 < index → first ≤ index → ∀ place entry,
    FirstData log index lastAppliedIndex place entry → result = .ok ⟨place, entry.data⟩
  noMore : 0 < index → first ≤ index → index ≤ lastAppliedIndex → lastAppliedIndex ≤ last →
    NoData log index lastAppliedIndex → result = .error (noUserLog index lastAppliedIndex)
  deleted : 0 < index → index ≤ lastAppliedIndex →
    ((index < first ∨ (last < lastAppliedIndex ∧ NoData log index lastAppliedIndex)) ↔
      ∃ missing, result = .error (deletedUserLog missing))

section Search

variable {getEntry : Int → Option (LogEntry P D)} {lastAppliedIndex index : Int}

def Passed (getEntry : Int → Option (LogEntry P D)) (first stop : Int) : Prop :=
  ∀ index, first ≤ index → index < stop →
    ∃ entry, getEntry index = some entry ∧ entry.type ≠ .data

/-- How the search ends: at the first data entry, at the first missing one or behind the
applied index. -/
theorem searchUserLog_cases (rounds : Nat) :
    ∀ {curIndex : Int} {entry : LogEntry P D},
      getEntry curIndex = some entry → curIndex ≤ lastAppliedIndex →
      (lastAppliedIndex - curIndex).toNat ≤ rounds →
      (∃ stop found, curIndex ≤ stop ∧ stop ≤ lastAppliedIndex ∧ Passed getEntry curIndex stop ∧
        getEntry stop = some found ∧ found.type = .data ∧
        searchUserLog lastAppliedIndex getEntry index curIndex entry =
          .ok ⟨stop, found.data⟩) ∨
      (∃ stop, curIndex < stop ∧ stop ≤ lastAppliedIndex ∧ Passed getEntry curIndex stop ∧
        getEntry stop = none ∧
        searchUserLog lastAppliedIndex getEntry index curIndex entry =
          .error (deletedUserLog stop)) ∨
      (Passed getEntry curIndex (lastAppliedIndex + 1) ∧
        searchUserLog lastAppliedIndex getEntry index curIndex entry =
          .error (noUserLog index lastAppliedIndex)) := by
  induction rounds with
  | zero =>
      intro curIndex entry isEntry inside few
      rw [searchUserLog]
      by_cases isData : entry.type = .data
      · rw [if_pos isData]
        refine Or.inl ⟨curIndex, entry, le_refl _, inside, ?_, isEntry, isData, rfl⟩
        intro other lower upper
        omega
      · rw [if_neg isData, if_pos (by omega)]
        refine Or.inr (Or.inr ⟨?_, rfl⟩)
        intro other lower upper
        obtain rfl : other = curIndex := by omega
        exact ⟨entry, isEntry, isData⟩
  | succ rounds ih =>
      intro curIndex entry isEntry inside few
      rw [searchUserLog]
      by_cases isData : entry.type = .data
      · rw [if_pos isData]
        refine Or.inl ⟨curIndex, entry, le_refl _, inside, ?_, isEntry, isData, rfl⟩
        intro other lower upper
        omega
      have extend {stop : Int} (passed : Passed getEntry (curIndex + 1) stop) :
          Passed getEntry curIndex stop := by
        intro other lower upper
        by_cases here : other = curIndex
        · exact ⟨entry, here ▸ isEntry, isData⟩
        · exact passed other (by omega) upper
      rw [if_neg isData]
      by_cases ends : lastAppliedIndex < curIndex + 1
      · rw [if_pos ends]
        exact Or.inr (Or.inr ⟨extend (fun _ lower upper => by omega), rfl⟩)
      · rw [if_neg ends]
        cases isNext : getEntry (curIndex + 1) with
        | none =>
            refine Or.inr (Or.inl ⟨curIndex + 1, by omega, by omega, ?_, isNext, rfl⟩)
            exact extend (fun _ lower upper => by omega)
        | some next =>
            rcases ih isNext (by omega) (by omega) with
              ⟨stop, found, lower, upper, passed, isFound, hasData, result⟩ |
              ⟨stop, lower, upper, passed, missing, result⟩ | ⟨passed, result⟩
            · exact Or.inl ⟨stop, found, by omega, upper, extend passed, isFound, hasData, result⟩
            · exact Or.inr (Or.inl ⟨stop, by omega, upper, extend passed, missing, result⟩)
            · exact Or.inr (Or.inr ⟨extend passed, result⟩)

variable (getEntry) in
theorem readCommittedUserLog_cases (positive : 0 < index) (inside : index ≤ lastAppliedIndex) :
    (∃ stop found, index ≤ stop ∧ stop ≤ lastAppliedIndex ∧ Passed getEntry index stop ∧
      getEntry stop = some found ∧ found.type = .data ∧
      readCommittedUserLog lastAppliedIndex getEntry index = .ok ⟨stop, found.data⟩) ∨
    (∃ stop, index ≤ stop ∧ stop ≤ lastAppliedIndex ∧ Passed getEntry index stop ∧
      getEntry stop = none ∧
      readCommittedUserLog lastAppliedIndex getEntry index = .error (deletedUserLog stop)) ∨
    (Passed getEntry index (lastAppliedIndex + 1) ∧
      readCommittedUserLog lastAppliedIndex getEntry index =
        .error (noUserLog index lastAppliedIndex)) := by
  unfold readCommittedUserLog
  rw [if_neg (not_le.mpr positive), if_neg (not_lt.mpr inside)]
  cases isEntry : getEntry index with
  | none =>
      refine Or.inr (Or.inl ⟨index, le_refl _, inside, ?_, isEntry, rfl⟩)
      intro other lower upper
      omega
  | some entry =>
      rcases searchUserLog_cases _ isEntry inside (le_refl _) with
        found | ⟨stop, lower, missing⟩ | passed
      · exact Or.inl found
      · exact Or.inr (Or.inl ⟨stop, lower.le, missing⟩)
      · exact Or.inr (Or.inr passed)

/-- What is read up to the applied index is what the log has there, and the log has its
indexes and no others. -/
structure Answers (getEntry log : Int → Option (LogEntry P D))
    (first last lastAppliedIndex : Int) : Prop where
  same : ∀ index, 0 < index → index ≤ lastAppliedIndex → getEntry index = log index
  present : ∀ index, 0 < index → first ≤ index → index ≤ last → ∃ entry, log index = some entry
  absent : ∀ index, index < first ∨ last < index → log index = none

variable {log : Int → Option (LogEntry P D)} {first last : Int}

theorem Answers.bounds (answers : Answers getEntry log first last lastAppliedIndex) {place : Int}
    {entry : LogEntry P D} (isEntry : log place = some entry) : first ≤ place ∧ place ≤ last := by
  by_contra outside
  have missing := answers.absent place (by omega)
  rw [missing] at isEntry
  contradiction

theorem Answers.missing (answers : Answers getEntry log first last lastAppliedIndex) {place : Int}
    (positive : 0 < place) (inside : place ≤ lastAppliedIndex) (missing : getEntry place = none) :
    place < first ∨ last < place := by
  by_contra within
  obtain ⟨entry, isEntry⟩ := answers.present place positive (by omega) (by omega)
  rw [answers.same place positive inside, isEntry] at missing
  contradiction

theorem Answers.passed (answers : Answers getEntry log first last lastAppliedIndex) {stop : Int}
    (positive : 0 < index) (upper : stop ≤ lastAppliedIndex + 1)
    (passed : Passed getEntry index stop) : Passed log index stop := by
  intro place lower below
  rw [← answers.same place (by omega) (by omega)]
  exact passed place lower below

theorem Passed.noData {stop : Int} (passed : Passed log index stop) :
    NoData log index (stop - 1) := by
  intro place entry lower upper isEntry isData
  obtain ⟨other, isOther, noData⟩ := passed place lower (by omega)
  obtain rfl := Option.some.inj (isEntry.symm.trans isOther)
  exact noData isData

theorem NoData.lt_of_firstData {stop : Int} (noData : NoData log index stop) {place : Int}
    {entry : LogEntry P D} (isFirst : FirstData log index last place entry) : stop < place := by
  by_contra before
  exact noData place entry isFirst.lower (by omega) isFirst.isEntry isFirst.isData

theorem Answers.cases (answers : Answers getEntry log first last lastAppliedIndex)
    (positive : 0 < index) (inside : index ≤ lastAppliedIndex) :
    (∃ stop entry, FirstData log index lastAppliedIndex stop entry ∧ first ≤ index ∧
      readCommittedUserLog lastAppliedIndex getEntry index = .ok ⟨stop, entry.data⟩) ∨
    (∃ stop, index ≤ stop ∧ stop ≤ lastAppliedIndex ∧ (stop < first ∨ last < stop) ∧
      NoData log index (stop - 1) ∧
      readCommittedUserLog lastAppliedIndex getEntry index = .error (deletedUserLog stop)) ∨
    (first ≤ index ∧ lastAppliedIndex ≤ last ∧ NoData log index lastAppliedIndex ∧
      readCommittedUserLog lastAppliedIndex getEntry index =
        .error (noUserLog index lastAppliedIndex)) := by
  rcases readCommittedUserLog_cases getEntry positive inside with
    ⟨stop, entry, lower, upper, passed, isEntry, isData, result⟩ |
    ⟨stop, lower, upper, passed, missing, result⟩ | ⟨passed, result⟩
  · rw [answers.same stop (by omega) upper] at isEntry
    have passed := answers.passed positive (by omega) passed
    refine Or.inl ⟨stop, entry, ⟨lower, upper, isEntry, isData, passed.noData⟩, ?_, result⟩
    rcases lower.eq_or_lt with rfl | before
    · exact (answers.bounds isEntry).1
    · obtain ⟨front, isFront, _⟩ := passed index (le_refl _) before
      exact (answers.bounds isFront).1
  · exact Or.inr (Or.inl ⟨stop, lower, upper, answers.missing (by omega) upper missing,
      (answers.passed positive (by omega) passed).noData, result⟩)
  · have passed := answers.passed positive (le_refl _) passed
    obtain ⟨front, isFront, _⟩ := passed index (le_refl _) (by omega)
    obtain ⟨back, isBack, _⟩ := passed lastAppliedIndex inside (by omega)
    have noData := passed.noData
    rw [Int.add_sub_cancel] at noData
    exact Or.inr (Or.inr ⟨(answers.bounds isFront).1, (answers.bounds isBack).2, noData, result⟩)

theorem Answers.found (answers : Answers getEntry log first last lastAppliedIndex)
    (positive : 0 < index) (kept : first ≤ index) {place : Int} {entry : LogEntry P D}
    (isFirst : FirstData log index lastAppliedIndex place entry) :
    readCommittedUserLog lastAppliedIndex getEntry index = .ok ⟨place, entry.data⟩ := by
  have lower := isFirst.lower
  have upper := isFirst.upper
  have bounds := answers.bounds isFirst.isEntry
  rcases answers.cases positive (lower.trans upper) with
    ⟨stop, other, isStop, _, result⟩ | ⟨stop, above, _, outside, noData, _⟩ | ⟨_, _, noData, _⟩
  · have forward := isFirst.before.lt_of_firstData isStop
    have backward := isStop.before.lt_of_firstData isFirst
    obtain rfl : place = stop := by omega
    obtain rfl := Option.some.inj (isFirst.isEntry.symm.trans isStop.isEntry)
    exact result
  · have behind := noData.lt_of_firstData isFirst
    omega
  · have behind := noData.lt_of_firstData isFirst
    omega

theorem Answers.noMore (answers : Answers getEntry log first last lastAppliedIndex)
    (positive : 0 < index) (kept : first ≤ index) (inside : index ≤ lastAppliedIndex)
    (reaches : lastAppliedIndex ≤ last) (noData : NoData log index lastAppliedIndex) :
    readCommittedUserLog lastAppliedIndex getEntry index =
      .error (noUserLog index lastAppliedIndex) := by
  rcases answers.cases positive inside with
    ⟨stop, entry, isFirst, _⟩ | ⟨stop, above, _, outside, _⟩ | ⟨_, _, _, result⟩
  · have behind := noData.lt_of_firstData isFirst
    have upper := isFirst.upper
    omega
  · omega
  · exact result

theorem Answers.deleted (answers : Answers getEntry log first last lastAppliedIndex)
    (positive : 0 < index) (inside : index ≤ lastAppliedIndex) :
    (index < first ∨ (last < lastAppliedIndex ∧ NoData log index lastAppliedIndex)) ↔
      ∃ missing, readCommittedUserLog lastAppliedIndex getEntry index =
        .error (deletedUserLog missing) := by
  rcases answers.cases positive inside with
    ⟨stop, entry, isFirst, kept, result⟩ | ⟨stop, above, upper, outside, noData, result⟩ |
    ⟨kept, reaches, _, result⟩
  · constructor
    · rintro (compacted | ⟨_, noData⟩)
      · omega
      · have behind := noData.lt_of_firstData isFirst
        have upper := isFirst.upper
        omega
    · rintro ⟨missing, isError⟩
      rw [result] at isError
      contradiction
  · refine ⟨fun _ => ⟨stop, result⟩, fun _ => ?_⟩
    by_cases compacted : index < first
    · exact Or.inl compacted
    · refine Or.inr ⟨by omega, ?_⟩
      intro place entry lower _ isEntry
      have bounds := answers.bounds isEntry
      exact noData place entry lower (by omega) isEntry
  · constructor
    · rintro (compacted | ⟨short, _⟩) <;> omega
    · rintro ⟨missing, isError⟩
      rw [result] at isError
      have codes : ENOMOREUSERLOG = ELOGDELETED := congrArg Prod.fst (Except.error.inj isError)
      exact absurd codes (by decide)

theorem Answers.committedRead (answers : Answers getEntry log first last lastAppliedIndex) :
    CommittedRead log first last lastAppliedIndex index
      (readCommittedUserLog lastAppliedIndex getEntry index) := by
  constructor
  · intro invalid
    exact if_pos invalid
  · intro positive beyond
    unfold readCommittedUserLog
    rw [if_neg (not_le.mpr positive), if_pos beyond]
  · intro positive kept place entry isFirst
    exact answers.found positive kept isFirst
  · intro positive kept inside reaches noData
    exact answers.noMore positive kept inside reaches noData
  · intro positive inside
    exact answers.deleted positive inside

end Search

namespace LogManager

def entryAt (manager : LogManager P D C) (index : Int) : Option (LogEntry P D) :=
  manager.getEntry index.toNat

variable [DecidableEq P] {start : LogManager P D C} {views : Int → LogManager P D C}
  {lastAppliedIndex index : Int}

theorem answers_undisturbed (reached : (system.restrict ClearsWritten).Reachable start)
    (later : ∀ place, ((system.restrict ClearsWritten).restrict
      (Undisturbed lastAppliedIndex)).Reaches start (views place))
    (works : ∀ place, (views place).hasError = false) :
    Answers (fun place => (views place).entryAt place) start.entryAt start.firstLogIndex
      start.lastLogIndex lastAppliedIndex := by
  have reads := reads_of_reachable reached
  obtain ⟨sound, _⟩ := reads.sound ((reads_undisturbed reached (later 0)).2 (works 0)).1
  have positive := sound.wellFormed.positive
  have first := sound.first
  have last := sound.last
  constructor
  · intro place _ inside
    exact ((reads_undisturbed reached (later place)).2 (works place)).2 place.toNat (by omega)
  · intro place _ lower upper
    obtain ⟨entry, found⟩ : ∃ entry, start.logicalLog.get? place.toNat = some entry :=
      IndexedLog.exists_get? (by omega) (by omega)
    refine ⟨entry, ?_⟩
    unfold entryAt
    rw [sound.toHolds.getEntry_eq (Nat.zero_le _)]
    exact found
  · intro place outside
    unfold entryAt getEntry
    rw [if_pos (by omega)]

/-- Each entry is read at its own time; up to the applied index nothing is compacted or cut in
between. -/
theorem readCommittedUserLog_read (reached : (system.restrict ClearsWritten).Reachable start)
    (later : ∀ place, ((system.restrict ClearsWritten).restrict
      (Undisturbed lastAppliedIndex)).Reaches start (views place))
    (works : ∀ place, (views place).hasError = false) :
    CommittedRead start.entryAt start.firstLogIndex start.lastLogIndex lastAppliedIndex index
      (readCommittedUserLog lastAppliedIndex (fun place => (views place).entryAt place) index) :=
  (answers_undisturbed reached later works).committedRead

def leaderEntry (type : EntryType) (data : Nat) : LogEntry Nat Nat :=
  { type := type, id := { index := 0, term := 1 }, data := data }

theorem leaderEntry_appendable {manager : LogManager Nat Nat Nat} {type : EntryType} {data : Nat}
    (first : 0 < manager.firstLogIndex) (terms : manager.getTerm manager.lastLogIndex ≤ 1)
    (applied : manager.appliedId = {}) : manager.Appendable [leaderEntry type data] := by
  have onlyEntry {entry : LogEntry Nat Nat} (member : entry ∈ [leaderEntry type data]) :
      entry = leaderEntry type data := List.mem_singleton.mp member
  constructor
  · exact Or.inl (fun entry member => onlyEntry member ▸ rfl)
  · exact fun entry member => onlyEntry member ▸ Nat.one_pos
  · exact List.pairwise_singleton _ _
  · intro entry member found read
    rw [onlyEntry member] at read
    unfold getEntry at read
    have below : (leaderEntry type data).id.index < manager.firstLogIndex := first
    rw [if_pos (Or.inr below)] at read
    contradiction
  · intro front isFront
    obtain rfl := Option.some.inj isFront
    exact terms
  · rw [applied]
    exact fun entry _ _ => Nat.zero_le _

/-- The second entry is found behind one without data, while a third one is appended. -/
theorem readCommittedUserLog_read_noOp :
    ∃ start after : LogManager Nat Nat Nat, start.lastLogIndex = 2 ∧ after.lastLogIndex = 3 ∧
      readCommittedUserLog 2
        (fun place => (if place = 1 then start else after).entryAt place) 1 = .ok ⟨2, 7⟩ := by
  have appended : ∃ start after : LogManager Nat Nat Nat,
      (system.restrict ClearsWritten).Follows [.appendEntries 0 [leaderEntry .noOp 0] false,
        .appendEntries 1 [leaderEntry .data 7] false] freshManager start ∧
      ((system.restrict ClearsWritten).restrict (Undisturbed 2)).Follows
        [.appendEntries 2 [leaderEntry .data 9] false] start after ∧
      (start.lastLogIndex = 2 ∧ after.lastLogIndex = 3) ∧ start.firstLogIndex = 1 ∧
      (start.hasError = false ∧ after.hasError = false) ∧
      start.getEntry 1 = some { leaderEntry .noOp 0 with id := { index := 1, term := 1 } } ∧
      start.getEntry 2 = some { leaderEntry .data 7 with id := { index := 2, term := 1 } } := by
    refine ⟨_, _, ⟨⟨leaderEntry_appendable Nat.one_pos (Nat.zero_le _) rfl, trivial⟩, _, rfl,
      ⟨leaderEntry_appendable Nat.one_pos (le_refl _) rfl, trivial⟩, _, rfl, rfl⟩,
      ⟨⟨⟨leaderEntry_appendable Nat.one_pos (le_refl _) rfl, trivial⟩, by decide, ?_⟩, _, rfl, rfl⟩,
      ⟨rfl, rfl⟩, rfl, ⟨rfl, rfl⟩, rfl, rfl⟩
    intro entry member above
    rw [List.mem_singleton.mp member] at above
    exact absurd above (by decide)
  obtain ⟨start, after, follows, later, lasts, first, works, atOne, atTwo⟩ := appended
  have reached := TransitionSystem.Reachable.follows _ (.start freshManager_initial) follows
  refine ⟨start, after, lasts.1, lasts.2, ?_⟩
  have views (place : Int) : ((system.restrict ClearsWritten).restrict (Undisturbed 2)).Reaches
      start (if place = 1 then start else after) := by
    by_cases atStart : place = 1
    · rw [if_pos atStart]
      exact .refl
    · rw [if_neg atStart]
      exact .follows _ .refl later
  have works (place : Int) : (if place = 1 then start else after).hasError = false := by
    by_cases atStart : place = 1
    · rw [if_pos atStart]
      exact works.1
    · rw [if_neg atStart]
      exact works.2
  have read : CommittedRead start.entryAt _ _ 2 1 _ :=
    readCommittedUserLog_read reached views works
  refine read.found (by decide) (by rw [first]; decide) 2 _ ⟨by decide, by decide, atTwo, rfl, ?_⟩
  intro place entry lower upper isEntry
  obtain rfl : place = 1 := by omega
  obtain rfl := Option.some.inj (atOne.symm.trans isEntry)
  decide

/-- An index that is not positive is refused, though an entry follows it, and a log that ends
before the applied index is taken for a compacted one. -/
theorem readCommittedUserLog_refuses :
    ∃ manager : LogManager Nat Nat Nat, (system.restrict ClearsWritten).Reachable manager ∧
      manager.hasError = false ∧ manager.firstLogIndex = 1 ∧
      (FirstData manager.entryAt 0 1 1 (FlushRun.dataEntry 1 1) ∧
        readCommittedUserLog 1 manager.entryAt 0 =
          .error ( EINVAL, "request index:0 is invalid.")) ∧
      NoData manager.entryAt 3 4 ∧
        readCommittedUserLog 4 manager.entryAt 3 = .error (deletedUserLog 3) := by
  refine ⟨FlushRun.uncommittedLog, .start FlushRun.uncommittedLog_initial, rfl, rfl,
    ⟨⟨by decide, by decide, rfl, rfl, ?_⟩, rfl⟩, ?_, rfl⟩
  · intro place entry lower upper isEntry
    obtain rfl : place = 0 := by omega
    contradiction
  · intro place entry lower upper isEntry
    have outside : FlushRun.uncommittedLog.entryAt place = none := by
      unfold entryAt getEntry
      exact if_pos (Or.inl (show 2 < place.toNat by omega))
    rw [outside] at isEntry
    contradiction

end LogManager

end QuorumKit
