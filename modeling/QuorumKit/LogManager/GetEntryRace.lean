/-
`LogManager::get_entry` in the two parts between which other threads run.

The index is checked against the log under the mutex; the storage is read after the
mutex has been released.  In the runs in which no step leaves an index that is being
read both outside the log and outside the storage, a corrupted entry is reported only
for an index of the log.
-/

import QuorumKit.LogManager.SnapshotWindow

namespace QuorumKit

variable {P D C : Type}

/-- The index is in `[first_log_index, last_log_index]`. -/
def LogManager.InLog (manager : LogManager P D C) (index : Nat) : Prop :=
  manager.firstLogIndex ≤ index ∧ index ≤ manager.lastLogIndex

/-- A call of `report_error` in `get_entry`, with the log at the time of the lookup. -/
structure CorruptedEntry where
  index : Nat
  firstLogIndex : Nat
  lastLogIndex : Nat
deriving DecidableEq

def CorruptedEntry.status (report : CorruptedEntry) : Int × String :=
  ( EIO, "Corrupted entry at index=" ++ toString report.index)

/-- A log manager, the calls of `get_entry` that are about to read the storage, and what
the others have returned and reported. -/
structure GetEntryRun (P D C : Type) where
  manager : LogManager P D C
  reading : List Nat := []
  returned : List (Nat × Option (LogEntry P D)) := []
  reports : List CorruptedEntry := []

namespace GetEntryRun

/-- `get_entry` up to the release of the mutex. -/
def getEntry (run : GetEntryRun P D C) (index : Nat) : GetEntryRun P D C :=
  if run.manager.lastLogIndex < index ∨ index < run.manager.firstLogIndex then
    { run with returned := (index, none) :: run.returned }
  else
    match run.manager.getEntryFromMemory index with
    | some entry => { run with returned := (index, some entry) :: run.returned }
    | none => { run with reading := index :: run.reading }

/-- The rest of a call of `get_entry`. -/
def lookup (run : GetEntryRun P D C) (index : Nat) : Option (GetEntryRun P D C) :=
  if index ∈ run.reading then
    let entry := run.manager.storage.getEntry index
    let answered : GetEntryRun P D C :=
      { run with
        reading := run.reading.erase index
        returned := (index, entry) :: run.returned }
    some
      (if entry.isNone then
        { answered with
          manager := run.manager.reportError
          reports :=
            { index := index
              firstLogIndex := run.manager.firstLogIndex
              lastLogIndex := run.manager.lastLogIndex } :: run.reports }
      else answered)
  else none

inductive Action (P D C : Type) where
  | log (action : LogManager.Action P D C)
  | getEntry (index : Nat)
  | lookup (index : Nat)

def step [DecidableEq P] (action : Action P D C) (run : GetEntryRun P D C) :
    Option (GetEntryRun P D C) :=
  match action with
  | .log action => (LogManager.step action run.manager).map ({ run with manager := · })
  | .getEntry index => some (run.getEntry index)
  | .lookup index => run.lookup index

def FaultFree (action : LogManager.Action P D C) (manager : LogManager P D C) : Prop :=
  match action with
  | .diskFlush limit => ∀ thread, manager.diskThread = some thread →
      thread.toAppend.length ≤ limit
  | .diskTask outcome => outcome = .done
  | _ => True

/-- `readEntry` is `get_entry` in one step, which is not used here. -/
def Allowed (action : Action P D C) (run : GetEntryRun P D C) : Prop :=
  match action with
  | .log (.readEntry _) => False
  | .log action => LogManager.Allowed action run.manager ∧ FaultFree action run.manager
  | _ => True

def system [DecidableEq P] : TransitionSystem (GetEntryRun P D C) (Action P D C) :=
  { init := fun run => LogManager.Initial run.manager ∧ run.reading = [] ∧ run.reports = []
    allowed := Allowed
    step := step }

def Readable (manager : LogManager P D C) (index : Nat) : Prop :=
  manager.InLog index ∨ (manager.storage.getEntry index).isSome

/-- The step of another thread does not leave an index that is being read outside the log
and outside the storage. -/
def KeepsReading [DecidableEq P] (action : Action P D C) (run : GetEntryRun P D C) : Prop :=
  match action with
  | .log action => ∀ after, LogManager.step action run.manager = some after →
      ∀ index ∈ run.reading, Readable after index
  | _ => True

/-- A corrupted entry was in the log when the storage did not have it. -/
def ReportsInside (run : GetEntryRun P D C) : Prop :=
  ∀ report ∈ run.reports,
    report.firstLogIndex ≤ report.index ∧ report.index ≤ report.lastLogIndex

structure Reading (run : GetEntryRun P D C) : Prop where
  readable : ∀ index ∈ run.reading, Readable run.manager index
  inside : ReportsInside run

variable {run after : GetEntryRun P D C}

theorem Reading.getEntry (reading : Reading run) (index : Nat) :
    Reading (run.getEntry index) := by
  unfold GetEntryRun.getEntry
  by_cases outside : run.manager.lastLogIndex < index ∨ index < run.manager.firstLogIndex
  · rw [if_pos outside]
    exact ⟨reading.readable, reading.inside⟩
  · rw [if_neg outside]
    cases run.manager.getEntryFromMemory index with
    | some entry => exact ⟨reading.readable, reading.inside⟩
    | none =>
        refine ⟨?_, reading.inside⟩
        intro other member
        cases member with
        | head =>
            refine Or.inl ⟨?_, ?_⟩
            · exact not_lt.mp (fun below => outside (Or.inr below))
            · exact not_lt.mp (fun above => outside (Or.inl above))
        | tail _ former => exact reading.readable other former

theorem Reading.lookup {index : Nat} (reading : Reading run)
    (stepped : run.lookup index = some after) : Reading after := by
  unfold GetEntryRun.lookup at stepped
  by_cases pending : index ∈ run.reading
  · rw [if_pos pending] at stepped
    obtain rfl := Option.some.inj stepped
    have readable : ∀ other ∈ run.reading.erase index, Readable run.manager other :=
      fun other member => reading.readable other (List.mem_of_mem_erase member)
    simp only
    cases found : run.manager.storage.getEntry index with
    | some entry => exact ⟨readable, reading.inside⟩
    | none =>
        refine ⟨readable, ?_⟩
        intro report member
        cases member with
        | head =>
            -- the storage does not have it, so it is in the log
            rcases reading.readable index pending with inLog | stored
            · exact inLog
            · rw [found] at stored
              contradiction
        | tail _ former => exact reading.inside report former
  · rw [if_neg pending] at stepped
    contradiction

variable [DecidableEq P]

theorem Reading.step {action : Action P D C} (reading : Reading run)
    (keeps : KeepsReading action run) (stepped : step action run = some after) :
    Reading after := by
  cases action with
  | log action =>
      obtain ⟨manager, moved, rfl⟩ := Option.map_eq_some_iff.mp stepped
      exact ⟨keeps manager moved, reading.inside⟩
  | getEntry index =>
      obtain rfl := Option.some.inj stepped
      exact reading.getEntry index
  | lookup index => exact reading.lookup stepped

omit [DecidableEq P] in
theorem lookup_missing {index : Nat} (pending : index ∈ run.reading)
    (missing : run.manager.storage.getEntry index = none) :
    run.lookup index = some
      { run with
        manager := run.manager.reportError
        reading := run.reading.erase index
        returned := (index, none) :: run.returned
        reports :=
          { index := index
            firstLogIndex := run.manager.firstLogIndex
            lastLogIndex := run.manager.lastLogIndex } :: run.reports } := by
  unfold GetEntryRun.lookup
  rw [if_pos pending, missing]
  rfl

theorem lookup_outside {action : LogManager.Action P D C}
    (breaks : ¬ KeepsReading (.log action) run) :
    ∃ moved after index, step (.log action) run = some moved ∧
      step (.lookup index) moved = some after ∧ ¬ ReportsInside after := by
  unfold KeepsReading at breaks
  push Not at breaks
  obtain ⟨manager, moved, index, pending, lost⟩ := breaks
  have missing : manager.storage.getEntry index = none := by
    rw [← Option.not_isSome_iff_eq_none]
    exact fun stored => lost (Or.inr stored)
  have isMoved : step (.log action) run = some { run with manager := manager } :=
    Option.map_eq_some_iff.mpr ⟨manager, moved, rfl⟩
  refine ⟨_, _, index, isMoved, lookup_missing pending missing, ?_⟩
  intro inside
  exact lost (Or.inl (inside _ List.mem_cons_self))

end GetEntryRun

end QuorumKit
