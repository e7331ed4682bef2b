/-
The ids of waiters over whole runs, `braft/log_manager.cpp`.

Every call of `wait` makes a waiter.  Beside the map it is written down which waiters were
registered, and under which ids, which were removed, and which callbacks have run.  An id is
the number of the registration in 32 bits: it is 0 after 2 ^ 32 of them, and the next one is
that of the first waiter.
-/

import Mathlib.Data.List.Perm.Basic
import Mathlib.Data.List.Nodup
import QuorumKit.LogManager.WaitMap
import QuorumKit.Library.TransitionSystem

namespace QuorumKit

structure WaitCall where
  number : Nat
  registration : Nat
deriving DecidableEq

structure WaitCalls where
  waits : WaitMap WaitCall := {}
  lastLogIndex : Nat := 0
  made : List WaitCall := []
  registered : List (Nat × WaitCall) := []
  removed : List WaitCall := []
  ran : List (WaitCall × Int) := []

namespace WaitCalls

/-- `logged` are changes of the last index that wake nobody, as a snapshot's is. -/
inductive Action where
  | wait (expectedLastLogIndex : Nat)
  | remove (id : Nat) (waiter : WaitCall)
  | logged (lastLogIndex : Nat)
  | appended (lastLogIndex : Nat)
  | shutdown
  | run (index : Nat)

variable (calls : WaitCalls)

def pending : List WaitCall := calls.waits.waitMap.map Prod.snd

def woken : List WaitCall := calls.waits.started.map Prod.fst

def returned : List WaitCall := calls.ran.map Prod.fst

def next : WaitCall := ⟨calls.made.length, calls.registered.length + 1⟩

def Registers (expectedLastLogIndex : Nat) : Prop :=
  ¬ (expectedLastLogIndex ≠ calls.lastLogIndex ∨ calls.waits.stopped)

instance (expectedLastLogIndex : Nat) : Decidable (calls.Registers expectedLastLogIndex) :=
  inferInstanceAs (Decidable (¬ (_ ∨ _)))

def notify (expectedLastLogIndex : Nat) : Nat × WaitMap WaitCall :=
  calls.waits.notifyOnNewLog expectedLastLogIndex calls.lastLogIndex calls.next

def wait (expectedLastLogIndex : Nat) : WaitCalls :=
  { calls with
    waits := (calls.notify expectedLastLogIndex).2
    made := calls.next :: calls.made
    registered :=
      if calls.Registers expectedLastLogIndex then
        ((calls.notify expectedLastLogIndex).1, calls.next) :: calls.registered
      else calls.registered }

def remove (id : Nat) (waiter : WaitCall) : WaitCalls :=
  { calls with
    waits := calls.waits.removeWaiter id
    removed := if waiter ∈ calls.pending then waiter :: calls.removed else calls.removed }

def step (action : Action) (calls : WaitCalls) : Option WaitCalls :=
  match action with
  | .wait expectedLastLogIndex => some (calls.wait expectedLastLogIndex)
  | .remove id waiter => some (calls.remove id waiter)
  | .logged lastLogIndex => some { calls with lastLogIndex := lastLogIndex }
  | .appended lastLogIndex =>
      some { calls with waits := calls.waits.wakeupAllWaiter, lastLogIndex := lastLogIndex }
  | .shutdown => some { calls with waits := calls.waits.shutdown }
  | .run index =>
      calls.waits.started[index]?.map (fun started =>
        { calls with waits := calls.waits.runOnNewLog index, ran := started :: calls.ran })

def Allowed (action : Action) (calls : WaitCalls) : Prop :=
  match action with
  | .remove id waiter => (id, waiter) ∈ calls.registered
  | _ => True

def system : TransitionSystem WaitCalls Action :=
  { init := fun calls => calls = {}
    allowed := Allowed
    step := step }

/-- The id of a registration is not 0 and nobody else's, and removing an id removes its waiter
and no other. -/
def Sound (action : Action) (calls : WaitCalls) : Prop :=
  match action with
  | .wait expectedLastLogIndex =>
      calls.Registers expectedLastLogIndex →
        (calls.notify expectedLastLogIndex).1 ≠ 0 ∧
          ∀ entry ∈ calls.waits.waitMap, entry.1 ≠ (calls.notify expectedLastLogIndex).1
  | .remove id waiter =>
      ∀ entry, entry ∈ (calls.waits.removeWaiter id).waitMap ↔
        entry ∈ calls.waits.waitMap ∧ entry.2 ≠ waiter
  | _ => True

/-- The number of the registration is no multiple of 2 ^ 32, and no other pending waiter is a
multiple of 2 ^ 32 registrations away. -/
def Fresh (action : Action) (calls : WaitCalls) : Prop :=
  match action with
  | .wait expectedLastLogIndex =>
      calls.Registers expectedLastLogIndex →
        calls.next.registration % 2 ^ 32 ≠ 0 ∧
          ∀ waiter ∈ calls.pending,
            waiter.registration % 2 ^ 32 ≠ calls.next.registration % 2 ^ 32
  | .remove _ waiter =>
      ∀ other ∈ calls.pending,
        other.registration % 2 ^ 32 = waiter.registration % 2 ^ 32 → other = waiter
  | _ => True

structure Accounted (calls : WaitCalls) : Prop where
  once : ∀ waiter ∈ calls.made, calls.pending.count waiter + calls.woken.count waiter +
    calls.returned.count waiter + calls.removed.count waiter = 1
  others : ∀ waiter ∉ calls.made, waiter ∉ calls.returned
  ends : ∃ after, (system.restrict Fresh).Reaches calls after ∧
    ∀ waiter ∈ calls.made, waiter ∉ calls.removed → after.returned.count waiter = 1

variable {calls : WaitCalls}

structure Numbered (calls : WaitCalls) : Prop where
  counter : calls.waits.counted = calls.registered.length + 1
  ids : ∀ entry ∈ calls.registered, entry.1 = entry.2.registration % 2 ^ 32
  kept : ∀ entry ∈ calls.waits.waitMap, entry ∈ calls.registered
  numbers : ∀ waiter ∈ calls.made, waiter.number < calls.made.length

theorem notify_registers {expectedLastLogIndex : Nat}
    (registers : calls.Registers expectedLastLogIndex) :
    calls.notify expectedLastLogIndex =
      (calls.waits.waitId,
        { calls.waits with
          nextWaitId := calls.waits.counted + 1
          waitMap := WaitMap.insert calls.waits.waitId calls.next calls.waits.waitMap }) :=
  if_neg registers

theorem notify_atOnce {expectedLastLogIndex : Nat}
    (atOnce : ¬ calls.Registers expectedLastLogIndex) :
    calls.notify expectedLastLogIndex =
      (0, { calls.waits with
        started := calls.waits.started ++ [(calls.next, calls.waits.errorCode)] }) :=
  if_pos (not_not.mp atOnce)

theorem Numbered.waitId (numbered : Numbered calls) :
    calls.waits.waitId = calls.next.registration % 2 ^ 32 := by
  unfold WaitMap.waitId
  rw [numbered.counter]
  rfl

theorem Numbered.entry_id (numbered : Numbered calls) {entry : Nat × WaitCall}
    (member : entry ∈ calls.waits.waitMap) : entry.1 = entry.2.registration % 2 ^ 32 :=
  numbered.ids entry (numbered.kept entry member)

theorem Numbered.wait (numbered : Numbered calls) (expectedLastLogIndex : Nat) :
    Numbered (calls.wait expectedLastLogIndex) := by
  have numbers : ∀ waiter ∈ calls.next :: calls.made,
      waiter.number < (calls.next :: calls.made).length := by
    intro waiter member
    rcases List.mem_cons.mp member with rfl | earlier
    · exact Nat.lt_succ_self _
    · exact Nat.lt_succ_of_lt (numbered.numbers waiter earlier)
  unfold WaitCalls.wait
  by_cases registers : calls.Registers expectedLastLogIndex
  · rw [notify_registers registers, if_pos registers]
    refine ⟨?_, ?_, ?_, numbers⟩
    · change WaitMap.counted { calls.waits with nextWaitId := calls.waits.counted + 1, .. } = _
      unfold WaitMap.counted
      rw [if_neg (Nat.succ_ne_zero _)]
      exact congrArg (· + 1) numbered.counter
    · intro entry member
      rcases List.mem_cons.mp member with rfl | earlier
      · exact numbered.waitId
      · exact numbered.ids entry earlier
    · intro entry member
      rcases List.mem_cons.mp member with rfl | earlier
      · exact List.mem_cons_self
      · exact List.mem_cons_of_mem _ (numbered.kept entry (List.mem_of_mem_filter earlier))
  · rw [notify_atOnce registers, if_neg registers]
    exact ⟨numbered.counter, numbered.ids, numbered.kept, numbers⟩

theorem Numbered.step {action : Action} {after : WaitCalls} (numbered : Numbered calls)
    (stepped : WaitCalls.step action calls = some after) : Numbered after := by
  obtain ⟨counter, ids, kept, numbers⟩ := numbered
  cases action with
  | wait expectedLastLogIndex =>
      obtain rfl := Option.some.inj stepped
      exact Numbered.wait ⟨counter, ids, kept, numbers⟩ expectedLastLogIndex
  | remove id waiter =>
      obtain rfl := Option.some.inj stepped
      exact ⟨counter, ids, fun entry member => kept entry (List.mem_of_mem_filter member), numbers⟩
  | logged lastLogIndex =>
      obtain rfl := Option.some.inj stepped
      exact ⟨counter, ids, kept, numbers⟩
  | appended lastLogIndex =>
      obtain rfl := Option.some.inj stepped
      exact ⟨counter, ids, fun _ member => absurd member List.not_mem_nil, numbers⟩
  | shutdown =>
      obtain rfl := Option.some.inj stepped
      exact ⟨counter, ids, fun _ member => absurd member List.not_mem_nil, numbers⟩
  | run index =>
      obtain ⟨started, _, rfl⟩ := Option.map_eq_some_iff.mp stepped
      exact ⟨counter, ids, kept, numbers⟩

theorem numbered_of_reachable (reached : system.Reachable calls) : Numbered calls := by
  refine reached.invariant Numbered ?_ (fun _ _ _ numbered _ stepped => numbered.step stepped)
  rintro _ rfl
  refine ⟨rfl, ?_, ?_, ?_⟩ <;> intro _ member <;> cases member

theorem Numbered.sound_iff {action : Action} (numbered : Numbered calls)
    (allowed : Allowed action calls) : Sound action calls ↔ Fresh action calls := by
  cases action with
  | wait expectedLastLogIndex =>
      refine imp_congr_right (fun registers => ?_)
      rw [notify_registers registers, numbered.waitId]
      refine and_congr_right (fun _ => ?_)
      constructor
      · intro differs waiter member
        obtain ⟨entry, isEntry, rfl⟩ := List.mem_map.mp member
        rw [← numbered.entry_id isEntry]
        exact differs entry isEntry
      · intro differs entry member
        rw [numbered.entry_id member]
        exact differs entry.2 (List.mem_map_of_mem member)
  | remove id waiter =>
      have isId : id = waiter.registration % 2 ^ 32 := numbered.ids _ allowed
      have removed (entry : Nat × WaitCall) : entry ∈ (calls.waits.removeWaiter id).waitMap ↔
          entry ∈ calls.waits.waitMap ∧ entry.1 ≠ id := by
        unfold WaitMap.removeWaiter
        rw [List.mem_filter, decide_eq_true_iff]
      constructor
      · intro sound other member same
        obtain ⟨entry, isEntry, rfl⟩ := List.mem_map.mp member
        by_contra differs
        have left := (removed entry).mp ((sound entry).mpr ⟨isEntry, differs⟩)
        exact left.2 (by rw [numbered.entry_id isEntry, same, isId])
      · intro fresh entry
        rw [removed]
        refine and_congr_right (fun isEntry => not_congr ?_)
        rw [numbered.entry_id isEntry, isId]
        constructor
        · exact fresh entry.2 (List.mem_map_of_mem isEntry)
        · rintro rfl
          rfl
  | logged lastLogIndex => exact Iff.rfl
  | appended lastLogIndex => exact Iff.rfl
  | shutdown => exact Iff.rfl
  | run index => exact Iff.rfl

structure Balanced (calls : WaitCalls) : Prop where
  balance : ∀ waiter, calls.pending.count waiter + calls.woken.count waiter +
    calls.returned.count waiter + calls.removed.count waiter = calls.made.count waiter
  distinct : calls.made.Nodup

theorem Balanced.pending_le_one (balanced : Balanced calls) (waiter : WaitCall) :
    calls.pending.count waiter ≤ 1 := by
  have balance := balanced.balance waiter
  have once := List.nodup_iff_count_le_one.mp balanced.distinct waiter
  omega

theorem Numbered.next_new (numbered : Numbered calls) : calls.next ∉ calls.made :=
  fun member => absurd (numbered.numbers _ member) (lt_irrefl _)

theorem Balanced.wait (balanced : Balanced calls) (numbered : Numbered calls)
    {expectedLastLogIndex : Nat} (sound : Sound (.wait expectedLastLogIndex) calls) :
    Balanced (calls.wait expectedLastLogIndex) := by
  refine ⟨fun waiter => ?_, List.nodup_cons.mpr ⟨numbered.next_new, balanced.distinct⟩⟩
  have balance := balanced.balance waiter
  by_cases registers : calls.Registers expectedLastLogIndex
  · have free := (sound registers).2
    rw [notify_registers registers] at free
    have pending : (calls.wait expectedLastLogIndex).pending = calls.next :: calls.pending := by
      unfold WaitCalls.pending WaitCalls.wait
      rw [notify_registers registers, WaitMap.insert_free _ free]
      rfl
    have woken : (calls.wait expectedLastLogIndex).woken = calls.woken := by
      unfold WaitCalls.woken WaitCalls.wait
      rw [notify_registers registers]
    rw [pending, woken]
    change _ + _ + calls.returned.count waiter + calls.removed.count waiter =
      (calls.next :: calls.made).count waiter
    rw [List.count_cons, List.count_cons]
    omega
  · have pending : (calls.wait expectedLastLogIndex).pending = calls.pending := by
      unfold WaitCalls.pending WaitCalls.wait
      rw [notify_atOnce registers]
    have woken : (calls.wait expectedLastLogIndex).woken = calls.woken ++ [calls.next] := by
      unfold WaitCalls.woken WaitCalls.wait
      rw [notify_atOnce registers]
      exact List.map_append
    rw [pending, woken]
    change _ + _ + calls.returned.count waiter + calls.removed.count waiter =
      (calls.next :: calls.made).count waiter
    rw [List.count_append, List.count_cons, List.count_cons, List.count_nil]
    omega

theorem pending_remove {id : Nat} {waiter : WaitCall} (sound : Sound (.remove id waiter) calls) :
    (calls.remove id waiter).pending = calls.pending.filter (fun other => other ≠ waiter) := by
  have same : calls.waits.waitMap.filter (fun entry => entry.1 ≠ id) =
      calls.waits.waitMap.filter (fun entry => entry.2 ≠ waiter) := by
    refine List.filter_congr (fun entry isEntry => ?_)
    have here := sound entry
    unfold WaitMap.removeWaiter at here
    rw [List.mem_filter, and_congr_right_iff] at here
    have agree := here isEntry
    rw [decide_eq_true_iff] at agree
    exact decide_eq_decide.mpr agree
  unfold WaitCalls.pending WaitCalls.remove WaitMap.removeWaiter
  rw [same, List.filter_map]
  rfl

theorem Balanced.remove (balanced : Balanced calls) {id : Nat} {waiter : WaitCall}
    (sound : Sound (.remove id waiter) calls) : Balanced (calls.remove id waiter) := by
  refine ⟨fun other => ?_, balanced.distinct⟩
  have balance := balanced.balance other
  have once := balanced.pending_le_one other
  rw [pending_remove sound]
  change _ + calls.woken.count other + calls.returned.count other +
    (if waiter ∈ calls.pending then waiter :: calls.removed else calls.removed).count other =
      calls.made.count other
  by_cases same : other = waiter
  · subst same
    have gone : (calls.pending.filter (fun kept => kept ≠ other)).count other = 0 := by
      refine List.count_eq_zero.mpr (fun member => ?_)
      exact of_decide_eq_true (List.mem_filter.mp member).2 rfl
    rw [gone]
    split_ifs with member
    · have present := List.count_pos_iff.mpr member
      rw [List.count_cons_self]
      omega
    · have absent := List.count_eq_zero.mpr member
      omega
  · have kept : (calls.pending.filter (fun left => left ≠ waiter)).count other =
        calls.pending.count other := List.count_filter (decide_eq_true same)
    rw [kept]
    split_ifs with member
    · rw [List.count_cons_of_ne (Ne.symm same)]
      exact balance
    · exact balance

theorem Balanced.wakeup (balanced : Balanced calls) (waits : WaitMap WaitCall)
    (waitMap : waits.waitMap = calls.waits.waitMap)
    (started : waits.started = calls.waits.started) (lastLogIndex : Nat) :
    Balanced { calls with waits := waits.wakeupAllWaiter, lastLogIndex := lastLogIndex } := by
  refine ⟨fun waiter => ?_, balanced.distinct⟩
  have balance := balanced.balance waiter
  have woken : (waits.wakeupAllWaiter.started).map Prod.fst = calls.woken ++ calls.pending := by
    unfold WaitMap.wakeupAllWaiter
    rw [List.map_append, List.map_map, waitMap, started]
    rfl
  change List.count waiter [] + (waits.wakeupAllWaiter.started.map Prod.fst).count waiter + _ + _ =
    _
  rw [woken, List.count_append, List.count_nil]
  change 0 + _ + calls.returned.count waiter + calls.removed.count waiter =
    calls.made.count waiter
  omega

theorem Balanced.run (balanced : Balanced calls) {index : Nat} {started : WaitCall × Int}
    (isStarted : calls.waits.started[index]? = some started) :
    Balanced
      { calls with waits := calls.waits.runOnNewLog index, ran := started :: calls.ran } := by
  refine ⟨fun waiter => ?_, balanced.distinct⟩
  have balance := balanced.balance waiter
  obtain ⟨inside, same⟩ := List.getElem?_eq_some_iff.mp isStarted
  have split := ((List.getElem_cons_eraseIdx_perm inside).map Prod.fst).count_eq waiter
  rw [same, List.map_cons, List.count_cons] at split
  change calls.pending.count waiter +
    ((calls.waits.started.eraseIdx index).map Prod.fst).count waiter +
    (started.1 :: calls.returned).count waiter + calls.removed.count waiter =
      calls.made.count waiter
  rw [List.count_cons]
  unfold WaitCalls.woken at balance
  omega

theorem Balanced.step {action : Action} {after : WaitCalls} (balanced : Balanced calls)
    (numbered : Numbered calls) (sound : Sound action calls)
    (stepped : WaitCalls.step action calls = some after) : Balanced after := by
  cases action with
  | wait expectedLastLogIndex =>
      obtain rfl := Option.some.inj stepped
      exact balanced.wait numbered sound
  | remove id waiter =>
      obtain rfl := Option.some.inj stepped
      exact balanced.remove sound
  | logged lastLogIndex =>
      obtain rfl := Option.some.inj stepped
      exact ⟨balanced.balance, balanced.distinct⟩
  | appended lastLogIndex =>
      obtain rfl := Option.some.inj stepped
      exact balanced.wakeup calls.waits rfl rfl lastLogIndex
  | shutdown =>
      obtain rfl := Option.some.inj stepped
      exact balanced.wakeup { calls.waits with stopped := true } rfl rfl calls.lastLogIndex
  | run index =>
      obtain ⟨started, isStarted, rfl⟩ := Option.map_eq_some_iff.mp stepped
      exact balanced.run isStarted

theorem balanced_of_reachable (reached : (system.restrict Fresh).Reachable calls) :
    Balanced calls := by
  induction reached with
  | start initial =>
      rw [show _ = _ from initial]
      exact ⟨fun _ => rfl, List.nodup_nil⟩
  | next reached allowed stepped ih =>
      have numbered := numbered_of_reachable reached.of_restrict
      exact ih.step numbered ((numbered.sound_iff allowed.1).mpr allowed.2) stepped

structure Quiet (before after : WaitCalls) : Prop where
  pending : after.pending = []
  woken : after.woken = []
  made : after.made = before.made
  removed : after.removed = before.removed

theorem threads_end (before : WaitCalls) (count : Nat) :
    ∀ middle : WaitCalls, (system.restrict Fresh).Reaches before middle →
      middle.pending = [] → middle.waits.started.length = count →
      ∃ after, (system.restrict Fresh).Reaches before after ∧ Quiet middle after := by
  induction count with
  | zero =>
      intro middle reaches nonePending noThread
      have noneWoken : middle.woken = [] :=
        List.map_eq_nil_iff.mpr (List.length_eq_zero_iff.mp noThread)
      exact ⟨middle, reaches, nonePending, noneWoken, rfl, rfl⟩
  | succ count ih =>
      intro middle reaches nonePending threads
      cases isStarted : middle.waits.started with
      | nil =>
          rw [isStarted] at threads
          contradiction
      | cons started rest =>
          have stepped : WaitCalls.step (.run 0) middle =
              some { middle with
                waits := middle.waits.runOnNewLog 0, ran := started :: middle.ran } := by
            unfold WaitCalls.step
            rw [isStarted]
            rfl
          have allowed : (system.restrict Fresh).allowed (.run 0) middle := ⟨trivial, trivial⟩
          have fewer : (middle.waits.started.eraseIdx 0).length = count := by
            rw [isStarted] at threads ⊢
            exact Nat.succ.inj threads
          obtain ⟨after, reachesAfter, quiet⟩ :=
            ih _ (reaches.next allowed stepped) nonePending fewer
          exact ⟨after, reachesAfter, quiet.pending, quiet.woken, quiet.made, quiet.removed⟩

theorem quiet_reached (calls : WaitCalls) :
    ∃ after, (system.restrict Fresh).Reaches calls after ∧ Quiet calls after := by
  have allowed : (system.restrict Fresh).allowed .shutdown calls := ⟨trivial, trivial⟩
  have stopped : (system.restrict Fresh).Reaches calls
      { calls with waits := calls.waits.shutdown } := .next .refl allowed rfl
  obtain ⟨after, reaches, quiet⟩ := threads_end calls _ _ stopped rfl rfl
  exact ⟨after, reaches, quiet.pending, quiet.woken, quiet.made, quiet.removed⟩

theorem Balanced.accounted (balanced : Balanced calls)
    (reached : (system.restrict Fresh).Reachable calls) : Accounted calls := by
  constructor
  · intro waiter member
    rw [balanced.balance, List.count_eq_one_of_mem balanced.distinct member]
  · intro waiter absent member
    have balance := balanced.balance waiter
    have present := List.count_pos_iff.mpr member
    rw [List.count_eq_zero.mpr absent] at balance
    omega
  · obtain ⟨after, reaches, quiet⟩ := quiet_reached calls
    refine ⟨after, reaches, fun waiter member kept => ?_⟩
    have balance := (balanced_of_reachable (reached.continue reaches)).balance waiter
    rw [quiet.pending, quiet.woken, quiet.made, quiet.removed, List.count_nil,
      List.count_eq_zero.mpr kept, List.count_eq_one_of_mem balanced.distinct member] at balance
    omega

/-- As long as the numbers are fresh every waiter is accounted for, and the next call is sound
exactly when its number is fresh too. -/
theorem sound_iff_fresh (reached : (system.restrict Fresh).Reachable calls) :
    Accounted calls ∧
      ∀ action, Allowed action calls → (Sound action calls ↔ Fresh action calls) :=
  ⟨(balanced_of_reachable reached).accounted reached, fun _ allowed =>
    (numbered_of_reachable reached.of_restrict).sound_iff allowed⟩

def firstWaiter : WaitCall := ⟨0, 1⟩

structure Crowded (later : Nat) (calls : WaitCalls) : Prop where
  waits : calls.waits = { nextWaitId := later + 2, waitMap := [(1, firstWaiter)] }
  index : calls.lastLogIndex = 0
  registered : calls.registered.length = later + 1
  made : calls.made.length = later + 1
  ran : calls.ran = []
  removed : firstWaiter ∉ calls.removed

theorem Crowded.registers {later : Nat} (crowded : Crowded later calls) : calls.Registers 0 := by
  unfold Registers
  rw [crowded.index, crowded.waits]
  rintro (differs | stopped)
  · exact differs rfl
  · contradiction

theorem Crowded.waitId {later : Nat} (crowded : Crowded later calls) :
    calls.waits.waitId = (later + 2) % 2 ^ 32 := by
  rw [crowded.waits]
  rfl

theorem Crowded.next_ne {later : Nat} (crowded : Crowded later calls) :
    calls.next ≠ firstWaiter := by
  intro same
  have number : calls.made.length = 0 := congrArg WaitCall.number same
  rw [crowded.made] at number
  contradiction

theorem Crowded.wait_waits {later : Nat} (crowded : Crowded later calls)
    (small : later + 2 ≤ 2 ^ 32) :
    (calls.wait 0).waits =
      { nextWaitId := later + 3
        waitMap := [((later + 2) % 2 ^ 32, calls.next), (1, firstWaiter)] } := by
  have other : (later + 2) % 2 ^ 32 ≠ 1 := by omega
  have free : ∀ entry ∈ [(1, firstWaiter)], entry.1 ≠ (later + 2) % 2 ^ 32 := by
    intro entry member
    rw [List.mem_singleton.mp member]
    exact Ne.symm other
  unfold WaitCalls.wait
  rw [notify_registers crowded.registers, crowded.waitId, crowded.waits]
  simp only [WaitMap.insert_free _ free]
  rfl

theorem Crowded.more {later : Nat} (crowded : Crowded later calls)
    (small : later + 2 ≤ 2 ^ 32) :
    Crowded (later + 1) ((calls.wait 0).remove ((later + 2) % 2 ^ 32) calls.next) := by
  have other : (later + 2) % 2 ^ 32 ≠ 1 := by omega
  constructor
  · unfold WaitCalls.remove WaitMap.removeWaiter
    rw [crowded.wait_waits small]
    simp only
    rw [List.filter_cons_of_neg (by simp), List.filter_cons_of_pos (by simpa using Ne.symm other),
      List.filter_nil]
  · exact crowded.index
  · change (calls.wait 0).registered.length = later + 1 + 1
    unfold WaitCalls.wait
    rw [if_pos crowded.registers, List.length_cons, crowded.registered]
  · change (calls.next :: calls.made).length = later + 1 + 1
    rw [List.length_cons, crowded.made]
  · exact crowded.ran
  · change firstWaiter ∉ if calls.next ∈ (calls.wait 0).pending then calls.next :: calls.removed
      else calls.removed
    split_ifs
    · exact List.not_mem_cons_of_ne_of_not_mem crowded.next_ne.symm crowded.removed
    · exact crowded.removed

theorem crowded_reached (later : Nat) (small : later + 1 ≤ 2 ^ 32) :
    ∃ calls, system.Reachable calls ∧ Crowded later calls := by
  induction later with
  | zero =>
      have waited : system.step (.wait 0) {} = some (WaitCalls.wait {} 0) := rfl
      have allowed : system.allowed (.wait 0) {} := trivial
      refine ⟨_, .next (.start rfl) allowed waited, ?_⟩
      exact ⟨rfl, rfl, rfl, rfl, rfl, List.not_mem_nil⟩
  | succ later ih =>
      obtain ⟨calls, reached, crowded⟩ := ih (by omega)
      have allowed : system.allowed (.wait 0) calls := trivial
      have own : system.allowed (.remove ((later + 2) % 2 ^ 32) calls.next) (calls.wait 0) := by
        change _ ∈ (calls.wait 0).registered
        unfold WaitCalls.wait
        rw [if_pos crowded.registers, notify_registers crowded.registers, crowded.waitId]
        exact List.mem_cons_self
      exact ⟨_, (reached.next allowed rfl).next own rfl, crowded.more (by omega)⟩

theorem Crowded.zero_not_sound (crowded : Crowded (2 ^ 32 - 2) calls) :
    ¬ Sound (.wait 0) calls := by
  intro sound
  have differs := (sound crowded.registers).1
  rw [notify_registers crowded.registers, crowded.waitId] at differs
  exact differs rfl

theorem Crowded.lost (crowded : Crowded (2 ^ 32 - 1) calls) :
    firstWaiter ∉ (calls.wait 0).pending ∧ firstWaiter ∉ (calls.wait 0).woken ∧
      firstWaiter ∉ (calls.wait 0).returned ∧ firstWaiter ∉ (calls.wait 0).removed := by
  have isId : (2 ^ 32 - 1 + 2) % 2 ^ 32 = 1 := rfl
  have pending : (calls.wait 0).pending = [calls.next] := by
    unfold WaitCalls.pending WaitCalls.wait
    rw [notify_registers crowded.registers, crowded.waitId, crowded.waits, isId]
    rfl
  have woken : (calls.wait 0).woken = [] := by
    unfold WaitCalls.woken WaitCalls.wait
    rw [notify_registers crowded.registers, crowded.waits]
    rfl
  have returned : (calls.wait 0).returned = [] := congrArg (List.map Prod.fst) crowded.ran
  rw [pending, woken, returned]
  refine ⟨fun member => ?_, List.not_mem_nil, List.not_mem_nil, crowded.removed⟩
  exact crowded.next_ne (List.mem_singleton.mp member).symm

/-- The id of the 2 ^ 32nd registration is 0, and the one after it takes the place of the first
waiter, whose callback never runs. -/
theorem ids_come_again :
    (∃ calls, system.Reachable calls ∧ calls.waits.nextWaitId = 2 ^ 32 ∧
      ¬ Sound (.wait 0) calls) ∧
      ∃ calls, system.Reachable calls ∧ firstWaiter ∈ calls.pending ∧
        firstWaiter ∉ (calls.wait 0).pending ∧ firstWaiter ∉ (calls.wait 0).woken ∧
        firstWaiter ∉ (calls.wait 0).returned ∧ firstWaiter ∉ (calls.wait 0).removed := by
  constructor
  · obtain ⟨calls, reached, crowded⟩ := crowded_reached (2 ^ 32 - 2) (by decide)
    exact ⟨calls, reached, congrArg WaitMap.nextWaitId crowded.waits, crowded.zero_not_sound⟩
  · obtain ⟨calls, reached, crowded⟩ := crowded_reached (2 ^ 32 - 1) (by decide)
    have member : firstWaiter ∈ calls.pending := by
      unfold WaitCalls.pending
      rw [crowded.waits]
      exact List.mem_singleton_self _
    exact ⟨calls, reached, member, crowded.lost⟩

/-- Two waiters, the second of which is removed. -/
theorem sound_iff_fresh_removed :
    Accounted ((WaitCalls.wait {} 0).wait 0) ∧
      Sound (.remove 2 ⟨1, 2⟩) ((WaitCalls.wait {} 0).wait 0) := by
  have allowedFirst : (system.restrict Fresh).allowed (.wait 0) {} :=
    ⟨trivial, fun _ => ⟨by decide, fun _ member => absurd member List.not_mem_nil⟩⟩
  have allowedSecond : (system.restrict Fresh).allowed (.wait 0) (WaitCalls.wait {} 0) :=
    ⟨trivial, fun _ => by decide⟩
  have reached : (system.restrict Fresh).Reachable ((WaitCalls.wait {} 0).wait 0) :=
    ((TransitionSystem.Reachable.start rfl).next allowedFirst rfl).next allowedSecond rfl
  have allowed : Allowed (.remove 2 ⟨1, 2⟩) ((WaitCalls.wait {} 0).wait 0) := by
    change (2, (⟨1, 2⟩ : WaitCall)) ∈ ((WaitCalls.wait {} 0).wait 0).registered
    decide
  have fresh : Fresh (.remove 2 ⟨1, 2⟩) ((WaitCalls.wait {} 0).wait 0) := by
    unfold Fresh
    decide
  obtain ⟨accounted, sound⟩ := sound_iff_fresh reached
  exact ⟨accounted, (sound _ allowed).mpr fresh⟩

end WaitCalls

end QuorumKit
