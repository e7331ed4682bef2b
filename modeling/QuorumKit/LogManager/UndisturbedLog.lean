/-
Reads of one log at different times.

A reader takes its entries one after another, and other threads take steps in between.
While no step compacts the log and no batch conflicts with an entry up to an index, every
entry up to it is read as it was at the start.
-/

import QuorumKit.LogManager.DiskLag

namespace QuorumKit

namespace LogManager

variable {P D C : Type}

/-- Nothing is compacted, and a batch agrees with what the log has up to the index.  A node
appends nothing while it loads a snapshot, so the log gets there. -/
def Undisturbed [DecidableEq P] (lastAppliedIndex : Int) (action : Action P D C)
    (manager : LogManager P D C) : Prop :=
  match action with
  | .appendEntries _ entries _ =>
      lastAppliedIndex ≤ manager.lastLogIndex ∧
        ∀ entry ∈ entries, manager.firstLogIndex ≤ entry.id.index →
          entry.id.index ≤ lastAppliedIndex → manager.getTerm entry.id.index = entry.id.term
  | .setSnapshot snapshot => ∀ after, manager.setSnapshot snapshot = some after →
      after.firstLogIndex = manager.firstLogIndex ∧ after.lastLogIndex = manager.lastLogIndex
  | .clearBufferredLogs => ∀ after, manager.clearBufferredLogs = some after →
      after.firstLogIndex = manager.firstLogIndex ∧ after.lastLogIndex = manager.lastLogIndex
  | _ => True

variable {manager manager' start : LogManager P D C} {log log' : LogStorage P D}
  {action : Action P D C} {lastAppliedIndex : Int} {low : Nat}

theorem resolve_conflict {entries remaining : List (LogEntry P D)} {front back : LogEntry P D}
    {resolved : LogManager P D C}
    (accepted : manager.checkAndResolveConflict entries front back =
      some (.accepted remaining resolved)) :
    resolved.diskQueue = manager.diskQueue ∨
      ∃ conflicting ∈ entries, remaining[0]? = some conflicting ∧
        manager.getTerm conflicting.id.index ≠ conflicting.id.term := by
  cases resolves_of_accepted accepted with
  | conflict _ _ _ split _ differs => exact Or.inr ⟨_, by rw [← split]; simp, rfl, differs⟩
  | leader | next | known | extension => exact Or.inl rfl

theorem Prepared.undisturbed {base resolved : LogManager P D C} {cut : Nat}
    {entries submitted remaining : List (LogEntry P D)} {front back : LogEntry P D}
    (prepared : Prepared manager base resolved log cut remaining)
    (appends : Appends low manager.appliedId log submitted remaining cut)
    (accepted : manager.checkAndResolveConflict entries front back =
      some (.accepted remaining resolved))
    (first : manager.firstLogIndex ≤ cut) (last : manager.lastLogIndex + 1 = log.stop)
    (reaches : lastAppliedIndex ≤ manager.lastLogIndex)
    (agree : ∀ entry ∈ entries, manager.firstLogIndex ≤ entry.id.index →
      entry.id.index ≤ lastAppliedIndex → manager.getTerm entry.id.index = entry.id.term) :
    lastAppliedIndex < cut := by
  obtain ⟨rfl, ⟨_, rfl⟩ | ⟨truncated, _, _⟩⟩ := prepared
  · omega
  · obtain ⟨_, lastTermKept, rfl⟩ := unsafeTruncateSuffix_some truncated
    rcases resolve_conflict accepted with same | ⟨conflicting, member, isHead, differs⟩
    · have lengths := congrArg List.length same
      simp [execute] at lengths
    · have stop := IndexedLog.keepBelow_stop log appends.lower appends.upper
      have placed := (appends.fits 0 conflicting isHead).1
      rw [stop, Nat.add_zero] at placed
      by_contra reached
      exact differs (agree conflicting member (by omega) (by omega))

theorem get?_appended {cut index : Nat} (lower : log.first ≤ cut) (upper : cut ≤ log.stop)
    (remaining : List (LogEntry P D)) (before : index < cut) :
    ((log.keepBelow cut).append remaining).get? index = log.get? index := by
  have stop := IndexedLog.keepBelow_stop log lower upper
  rw [IndexedLog.get?_append_of_lt _ (by omega), IndexedLog.get?_keepBelow, if_pos before]

theorem Compacts.kept_of_ends (compacts : Compacts log log') (first : log'.first = log.first)
    (stop : log'.stop = log.stop) (index : Nat) : log'.getEntry index = log.getEntry index := by
  by_cases inside : log.first ≤ index ∧ index < log.stop
  · exact compacts.getEntry_eq (by omega) (by omega)
  · unfold LogStorage.getEntry
    rw [(IndexedLog.get?_eq_none_iff log index).mpr (by omega),
      (IndexedLog.get?_eq_none_iff log' index).mpr (by omega)]

variable [DecidableEq P]

theorem Sound.undisturbed_append {context : C} {entries : List (LogEntry P D)} {sees : Bool}
    (sound : Sound 0 manager log) (opened : manager.Opened)
    (appendable : manager.Appendable entries)
    (undisturbed : Undisturbed lastAppliedIndex (.appendEntries context entries sees) manager)
    (stepped : manager.appendEntries context entries sees = some manager') {index : Nat}
    (inside : (index : Int) ≤ lastAppliedIndex) :
    manager'.getEntry index = manager.getEntry index := by
  obtain ⟨reaches, agree⟩ := undisturbed
  have first := sound.first
  have last := sound.last
  rcases appendEntries_cases stepped with ⟨status, rfl, _⟩ | ⟨rfl, rfl⟩ |
    ⟨front, back, remaining, resolved, isFront, isBack, accepted, rfl⟩
  · rfl
  · unfold getEntry getEntryFromMemory enqueue execute
    simp only [List.append_nil]
  · obtain ⟨base, cut, prepared, appends⟩ :=
      sound.toTracks.resolve_accepted opened appendable isFront isBack accepted
    have lower := appends.lower
    have before := prepared.undisturbed appends accepted (by omega) last reaches agree
    have after := sound.appended opened (Nat.zero_le _) prepared appends context
    rw [after.toHolds.getEntry_eq (Nat.zero_le _), sound.toHolds.getEntry_eq (Nat.zero_le _)]
    exact get?_appended lower appends.upper remaining (by omega)

theorem Reads.undisturbed (reads : Reads manager) (allowed : Allowed action manager)
    (clears : ClearsWritten action manager)
    (undisturbed : Undisturbed lastAppliedIndex action manager)
    (stepped : LogManager.step action manager = some manager')
    (works : manager'.hasError = false) {index : Nat}
    (inside : (index : Int) ≤ lastAppliedIndex) :
    manager'.getEntry index = manager.getEntry index := by
  obtain ⟨_, _, error⟩ := reads.toBooked.step allowed stepped
  obtain ⟨sound, _⟩ := reads.sound (error works)
  have first := sound.first
  have last := sound.last
  -- what is left of the log between the same ends
  have compacted {log' : LogStorage P D} (compacts : Compacts manager.logicalLog log')
      (after : Sound 0 manager' log') (sameFirst : manager'.firstLogIndex = manager.firstLogIndex)
      (sameLast : manager'.lastLogIndex = manager.lastLogIndex) :
      manager'.getEntry index = manager.getEntry index := by
    have first' := after.first
    have last' := after.last
    rw [after.toHolds.getEntry_eq (Nat.zero_le _), sound.toHolds.getEntry_eq (Nat.zero_le _)]
    exact compacts.kept_of_ends (by omega) (by omega) index
  cases action with
  | appendEntries context entries sees =>
      exact sound.undisturbed_append reads.opened allowed undisturbed stepped inside
  | setSnapshot snapshot =>
      obtain ⟨sameFirst, sameLast⟩ := undisturbed manager' stepped
      obtain ⟨log', compacts, after, _⟩ :=
        sound.setSnapshot (Nat.zero_le _) (Or.inl reads.opened) allowed stepped
      exact compacted compacts after sameFirst sameLast
  | clearBufferredLogs =>
      obtain ⟨sameFirst, sameLast⟩ := undisturbed manager' stepped
      obtain ⟨log', compacts, after, _⟩ := sound.clearBufferredLogs stepped
      exact compacted compacts after sameFirst sameLast
  | setAppliedId appliedId =>
      obtain rfl := Option.some.inj stepped
      unfold LogManager.setAppliedId
      split <;> rfl
  | _ =>
      obtain ⟨after, _⟩ := sound.background clears.settles stepped works trivial
      rw [after.toHolds.getEntry_eq (Nat.zero_le _), sound.toHolds.getEntry_eq (Nat.zero_le _)]

theorem reads_undisturbed (reached : (system.restrict ClearsWritten).Reachable start)
    (reaches : ((system.restrict ClearsWritten).restrict (Undisturbed lastAppliedIndex)).Reaches
      start manager) :
    Reads manager ∧ (manager.hasError = false →
      start.hasError = false ∧ ∀ index : Nat, (index : Int) ≤ lastAppliedIndex →
        manager.getEntry index = start.getEntry index) := by
  induction reaches with
  | refl => exact ⟨reads_of_reachable reached, fun works => ⟨works, fun _ _ => rfl⟩⟩
  | next _ allowed stepped ih =>
      obtain ⟨reads, former⟩ := ih
      obtain ⟨⟨promised, clears⟩, undisturbed⟩ := allowed
      refine ⟨reads.step promised clears stepped, fun works => ?_⟩
      obtain ⟨_, _, error⟩ := reads.toBooked.step promised stepped
      obtain ⟨worked, same⟩ := former (error works)
      refine ⟨worked, fun index inside => ?_⟩
      exact (reads.undisturbed promised clears undisturbed stepped works inside).trans
        (same index inside)

end LogManager

end QuorumKit
