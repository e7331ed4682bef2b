/-
The state machine gets the committed log once and in order.

Any batches of tasks lead to calls that apply the data entries of a committed log,
each run of them right after the former one.  Only a snapshot skips entries, and it
never goes back.
-/

import Mathlib.Data.List.Range
import Mathlib.Tactic.Ring
import QuorumKit.Fsm.FSMCaller

namespace QuorumKit

variable {P D K : Type}

structure CommittedLog (log : Nat → LogEntry P D) : Prop where
  indexed : ∀ index, 0 < index → (log index).id.index = index
  sorted : ∀ former later, 0 < former → former ≤ later →
    (log former).id.term ≤ (log later).id.term

/-- The data entries at the indexes from `first` up to `stop`, which is not included. -/
def dataIn (log : Nat → LogEntry P D) (first stop : Nat) : List (LogEntry P D) :=
  ((List.range' first (stop - first)).map log).filter (fun entry => entry.type = .data)

theorem dataIn_empty (log : Nat → LogEntry P D) {first stop : Nat} (none : stop ≤ first) :
    dataIn log first stop = [] := by
  rw [dataIn, Nat.sub_eq_zero_of_le none]
  rfl

theorem dataIn_cons (log : Nat → LogEntry P D) {first stop : Nat} (some : first < stop) :
    dataIn log first stop =
      (if (log first).type = .data then [log first] else []) ++ dataIn log (first + 1) stop := by
  obtain ⟨count, isCount⟩ := Nat.exists_eq_succ_of_ne_zero (show stop - first ≠ 0 by omega)
  rw [dataIn, dataIn, isCount, List.range'_succ, List.map_cons, List.filter_cons,
    show stop - (first + 1) = count by omega]
  split_ifs with isData <;> simp_all

theorem dataIn_append (log : Nat → LogEntry P D) {first middle stop : Nat} (lower : first ≤ middle)
    (upper : middle ≤ stop) :
    dataIn log first stop = dataIn log first middle ++ dataIn log middle stop := by
  rw [dataIn, dataIn, dataIn, ← List.filter_append, ← List.map_append,
    show stop - first = (middle - first) + (stop - middle) by omega, ← List.range'_append]
  congr 4
  omega

/-- The calls of a state machine that follows the log from `start` on and has got
to `last`. -/
inductive Delivered (log : Nat → LogEntry P D) (start : Nat) : List (FsmEvent P D) → Nat → Prop
  | start : Delivered log start [] start
  | applied {events : List (FsmEvent P D)} {last upTo : Nat} {runs : List (List (LogEntry P D))}
      (before : Delivered log start events last) (grows : last ≤ upTo)
      (exactly : runs.flatten = dataIn log (last + 1) (upTo + 1)) :
      Delivered log start (events ++ runs.map FsmEvent.onApply) upTo
  | loaded {events : List (FsmEvent P D)} {last : Nat} {id : LogId}
      (before : Delivered log start events last) (newer : last ≤ id.index) :
      Delivered log start (events ++ [.onSnapshotLoad id]) id.index

def FsmEvent.entries : FsmEvent P D → List (LogEntry P D)
  | .onApply entries => entries
  | .onSnapshotLoad _ => []

theorem dataIn_indexes {log : Nat → LogEntry P D} (committed : CommittedLog log) {first : Nat}
    (positive : 0 < first) (stop : Nat) :
    ((dataIn log first stop).map (fun entry => entry.id.index)).Pairwise (· < ·) ∧
      ∀ entry ∈ dataIn log first stop, first ≤ entry.id.index ∧ entry.id.index < stop := by
  constructor
  · rw [dataIn, List.pairwise_map]
    refine List.Pairwise.filter _ (List.pairwise_map.mpr ?_)
    refine List.Pairwise.imp_of_mem ?_ List.pairwise_lt_range'
    intro former later isFormer isLater below
    rw [List.mem_range'_1] at isFormer isLater
    rw [committed.indexed _ (by omega), committed.indexed _ (by omega)]
    exact below
  · intro entry member
    obtain ⟨index, isIndex, rfl⟩ := List.mem_map.mp (List.mem_of_mem_filter member)
    rw [List.mem_range'_1] at isIndex
    rw [committed.indexed _ (by omega)]
    omega

theorem Delivered.increasing {log : Nat → LogEntry P D} (committed : CommittedLog log)
    {start last : Nat} {events : List (FsmEvent P D)} (delivered : Delivered log start events last) :
    ((events.flatMap FsmEvent.entries).map (fun entry => entry.id.index)).Pairwise (· < ·) ∧
      ∀ entry ∈ events.flatMap FsmEvent.entries, entry.id.index ≤ last := by
  induction delivered with
  | start => simp
  | @applied events last upTo runs _ grows exactly ih =>
      obtain ⟨sorted, bounded⟩ := ih
      obtain ⟨sortedNew, boundedNew⟩ :=
        dataIn_indexes committed (Nat.succ_pos last) (upTo + 1)
      have entries : (runs.map FsmEvent.onApply).flatMap FsmEvent.entries =
          dataIn log (last + 1) (upTo + 1) := by
        rw [← exactly, List.flatMap_map]
        exact List.flatMap_id
      rw [List.flatMap_append, entries]
      constructor
      · rw [List.map_append, List.pairwise_append]
        refine ⟨sorted, sortedNew, ?_⟩
        intro former isFormer later isLater
        obtain ⟨entry, member, rfl⟩ := List.mem_map.mp isFormer
        obtain ⟨entry', member', rfl⟩ := List.mem_map.mp isLater
        have below := bounded entry member
        have above := (boundedNew entry' member').1
        omega
      · intro entry member
        rcases List.mem_append.mp member with former | new
        · exact (bounded entry former).trans grows
        · have below := (boundedNew entry new).2
          omega
  | loaded _ newer ih =>
      obtain ⟨sorted, bounded⟩ := ih
      rw [List.flatMap_append, List.flatMap_singleton, FsmEvent.entries, List.append_nil]
      exact ⟨sorted, fun entry member => (bounded entry member).trans newer⟩

namespace IteratorImpl

structure At (log : Nat → LogEntry P D) (committedIndex index : Nat) (iter : IteratorImpl P D K) :
    Prop where
  committed : iter.committedIndex = committedIndex
  position : iter.curIndex = index
  upper : index ≤ committedIndex + 1
  entry : index ≤ committedIndex → iter.curEntry = some (log index)
  works : iter.hasError = false

variable {log : Nat → LogEntry P D} {getEntry : Nat → Option (LogEntry P D)}
  {committedIndex index : Nat} {iter : IteratorImpl P D K}

theorem At.next (isAt : At log committedIndex index iter) (inside : index ≤ committedIndex)
    (reads : index < committedIndex → getEntry (index + 1) = some (log (index + 1))) :
    At log committedIndex (index + 1) (iter.next getEntry) := by
  have committed := isAt.committed
  have isIndex := isAt.position
  unfold IteratorImpl.next
  rw [if_pos (by omega)]
  by_cases more : iter.curIndex + 1 ≤ iter.committedIndex
  · rw [if_pos more, isIndex, reads (by omega)]
    exact ⟨committed, rfl, by omega, fun _ => rfl, by simpa using isAt.works⟩
  · rw [if_neg more]
    exact ⟨committed, congrArg Nat.succ isIndex, by omega, fun last => by omega, isAt.works⟩

theorem At.isGood_iff (isAt : At log committedIndex index iter) :
    iter.isGood = true ↔ index ≤ committedIndex := by
  rw [isGood, decide_eq_true_eq, isAt.committed, isAt.position]
  exact and_iff_left isAt.works

theorem At.data (isAt : At log committedIndex index iter) (inside : index ≤ committedIndex) :
    iter.data = if (log index).type = .data then some (log index) else none := by
  rw [IteratorImpl.data, if_pos (isAt.isGood_iff.mpr inside), isAt.entry inside]
  simp [Option.filter]

end IteratorImpl

namespace FSMCaller

open IteratorImpl

variable {log : Nat → LogEntry P D} {getEntry : Nat → Option (LogEntry P D)}
  {committedIndex : Nat}

theorem onApply_spec : ∀ (fuel : Nat) {index : Nat} {iter : IteratorImpl P D K},
    At log committedIndex index iter → committedIndex + 1 - index < fuel →
    (∀ later, index < later → later ≤ committedIndex → getEntry later = some (log later)) →
    ∃ index', index ≤ index' ∧
      At log committedIndex index' (onApply getEntry fuel iter).2 ∧
      (onApply getEntry fuel iter).1 = dataIn log index index' ∧
      (iter.data.isSome → index < index') := by
  intro fuel
  induction fuel with
  | zero =>
      intro index iter _ enough
      omega
  | succ fuel ih =>
      intro index iter isAt enough reads
      unfold onApply
      cases isData : iter.data with
      | none => exact ⟨index, le_refl _, isAt, (dataIn_empty log (le_refl _)).symm, by simp⟩
      | some entry =>
          have inside : index ≤ committedIndex := by
            by_contra outside
            rw [IteratorImpl.data, if_neg (mt isAt.isGood_iff.mp outside)] at isData
            contradiction
          rw [isAt.data inside] at isData
          split_ifs at isData with hasData
          obtain rfl := Option.some.inj isData
          have moved := isAt.next inside (fun more => reads _ (Nat.lt_succ_self _) more)
          obtain ⟨index', above, isAt', entries, _⟩ := ih moved (by omega)
            (fun later below => reads later (by omega))
          refine ⟨index', by omega, isAt', ?_, fun _ => by omega⟩
          rw [dataIn_cons log (by omega), if_pos hasData]
          exact congrArg (List.cons (log index)) entries

theorem applyLoop_spec : ∀ (fuel : Nat) {index : Nat} {iter : IteratorImpl P D K},
    At log committedIndex index iter → committedIndex + 1 - index < fuel →
    (∀ later, index < later → later ≤ committedIndex → getEntry later = some (log later)) →
    At log committedIndex (committedIndex + 1) (applyLoop getEntry fuel iter).2 ∧
      ∃ runs : List (List (LogEntry P D)), (applyLoop getEntry fuel iter).1 = runs.map FsmEvent.onApply ∧
        runs.flatten = dataIn log index (committedIndex + 1) := by
  intro fuel
  induction fuel with
  | zero =>
      intro index iter _ enough
      omega
  | succ fuel ih =>
      intro index iter isAt enough reads
      have upper := isAt.upper
      unfold applyLoop
      by_cases inside : index ≤ committedIndex
      · rw [if_pos (isAt.isGood_iff.mpr inside)]
        by_cases hasData : iter.data.isSome
        · rw [if_pos hasData]
          obtain ⟨index', above, isAt', entries, moves⟩ := onApply_spec (fuel + 1) isAt enough reads
          have moved := moves hasData
          have upper' := isAt'.upper
          obtain ⟨final, runs, isRuns, exactly⟩ := ih isAt' (by omega)
            (fun later below => reads later (by omega))
          refine ⟨final, (onApply getEntry (fuel + 1) iter).1 :: runs, ?_, ?_⟩
          · exact congrArg (List.cons _) isRuns
          · rw [List.flatten_cons, exactly, entries, ← dataIn_append log above upper']
        · rw [if_neg hasData]
          have moved := isAt.next inside (fun more => reads _ (Nat.lt_succ_self _) more)
          obtain ⟨final, runs, isRuns, exactly⟩ := ih moved (by omega)
            (fun later below => reads later (by omega))
          refine ⟨final, runs, isRuns, ?_⟩
          have notData : (log index).type ≠ .data := by
            intro isData
            rw [isAt.data inside, if_pos isData] at hasData
            exact hasData rfl
          rw [exactly, dataIn_cons log (by omega : index < committedIndex + 1), if_neg notData]
          rfl
      · rw [if_neg (mt isAt.isGood_iff.mp inside)]
        obtain rfl : index = committedIndex + 1 := by omega
        exact ⟨isAt, [], rfl, (dataIn_empty log (le_refl _)).symm⟩

def AppliedIs (log : Nat → LogEntry P D) (caller : FSMCaller P D) : Prop :=
  caller.lastAppliedTerm = if caller.lastAppliedIndex = 0 then 0
    else (log caller.lastAppliedIndex).id.term

/-- What a call finds: the log manager still has what is not applied, and a snapshot
is one of the log. -/
def Finds (log : Nat → LogEntry P D) (caller : FSMCaller P D) (view : Surroundings P D K) :
    Call → Prop
  | .doCommitted committedIndex =>
      caller.lastAppliedIndex < committedIndex →
        (∀ index, caller.lastAppliedIndex < index → index ≤ committedIndex →
          view.getEntry index = some (log index)) ∧
        view.getTerm committedIndex = (log committedIndex).id.term
  | .doSnapshotLoad (.opened id _) => 0 < id.index ∧ id = (log id.index).id
  | _ => True

variable {start : Nat} {caller : FSMCaller P D} {view : Surroundings P D K}

theorem doCommitted_delivers (delivered : Delivered log start caller.events caller.lastAppliedIndex)
    (applied : caller.AppliedIs log) (finds : caller.Finds log view (.doCommitted committedIndex)) :
    Delivered log start (caller.doCommitted view committedIndex).events
        (caller.doCommitted view committedIndex).lastAppliedIndex ∧
      (caller.doCommitted view committedIndex).AppliedIs log ∧
      (caller.doCommitted view committedIndex).error = caller.error ∧
      caller.lastAppliedIndex ≤ (caller.doCommitted view committedIndex).lastAppliedIndex ∧
      (caller.error = false →
        committedIndex ≤ (caller.doCommitted view committedIndex).lastAppliedIndex) := by
  unfold doCommitted
  by_cases failed : caller.error = true
  · rw [if_pos failed]
    exact ⟨delivered, applied, rfl, le_refl _, by simp [failed]⟩
  · rw [if_neg failed]
    by_cases late : committedIndex ≤ caller.lastAppliedIndex
    · rw [if_pos late]
      exact ⟨delivered, applied, rfl, le_refl _, fun _ => late⟩
    · rw [if_neg late]
      obtain ⟨reads, term⟩ := finds (not_le.mp late)
      have first : At log committedIndex (caller.lastAppliedIndex + 1)
          (IteratorImpl.init view.closures view.firstClosureIndex caller.lastAppliedIndex
            committedIndex view.getEntry) := by
        unfold IteratorImpl.init IteratorImpl.next
        simp only
        rw [if_pos (by omega), if_pos (by omega), reads _ (Nat.lt_succ_self _) (by omega)]
        exact ⟨rfl, rfl, by omega, fun _ => rfl, rfl⟩
      obtain ⟨final, runs, isRuns, exactly⟩ := applyLoop_spec
        (committedIndex - caller.lastAppliedIndex + 1) first (by omega)
        (fun later above => reads later (by omega))
      simp only
      rw [isRuns]
      refine ⟨.applied delivered (by omega) exactly, ?_, ?_, by omega, fun _ => le_refl _⟩
      · unfold AppliedIs
        simp only
        rw [if_neg (by omega), final.position, Nat.add_sub_cancel, term]
      · rw [final.works]
        simpa using failed

theorem doSnapshotLoad_delivers (committed : CommittedLog log)
    (delivered : Delivered log start caller.events caller.lastAppliedIndex)
    (applied : caller.AppliedIs log) {load : SnapshotLoad}
    (finds : caller.Finds log view (.doSnapshotLoad load)) :
    Delivered log start (caller.doSnapshotLoad load).events
        (caller.doSnapshotLoad load).lastAppliedIndex ∧
      (caller.doSnapshotLoad load).AppliedIs log ∧
      ((caller.doSnapshotLoad load).error = false → caller.error = false) ∧
      caller.lastAppliedIndex ≤ (caller.doSnapshotLoad load).lastAppliedIndex := by
  cases load with
  | noReader => exact ⟨delivered, applied, id, le_refl _⟩
  | badMeta ret =>
      simp only [doSnapshotLoad]
      split_ifs
      · exact ⟨delivered, applied, fun works => absurd works (by simp), le_refl _⟩
      · exact ⟨delivered, applied, id, le_refl _⟩
  | opened snapshotId ret =>
      obtain ⟨positive, ofLog⟩ := finds
      simp only [doSnapshotLoad]
      split_ifs with stale failed
      · exact ⟨delivered, applied, id, le_refl _⟩
      · exact ⟨delivered, applied, fun works => absurd works (by simp), le_refl _⟩
      · -- ids of one log are ordered by their indexes
        have newer : caller.lastAppliedIndex ≤ snapshotId.index := by
          by_contra older
          have terms := committed.sorted snapshotId.index caller.lastAppliedIndex positive
            (by omega)
          have appliedTerm := applied
          unfold AppliedIs at appliedTerm
          rw [if_neg (by omega)] at appliedTerm
          have isTerm := congrArg LogId.term ofLog
          rw [LogId.lt_iff] at stale
          simp only at stale
          omega
        refine ⟨.loaded delivered newer, ?_, id, newer⟩
        unfold AppliedIs
        simp only
        rw [if_neg (by omega), ← ofLog]

def performAll (caller : FSMCaller P D) (steps : List (Call × Surroundings P D K)) :
    FSMCaller P D :=
  steps.foldl (fun caller step => caller.perform step.2 step.1) caller

def FindsAll (log : Nat → LogEntry P D) : FSMCaller P D → List (Call × Surroundings P D K) → Prop
  | _, [] => True
  | caller, step :: rest =>
      caller.Finds log step.2 step.1 ∧ FindsAll log (caller.perform step.2 step.1) rest

theorem perform_delivers (committed : CommittedLog log)
    (delivered : Delivered log start caller.events caller.lastAppliedIndex)
    (applied : caller.AppliedIs log) {call : Call} (finds : caller.Finds log view call) :
    Delivered log start (caller.perform view call).events
        (caller.perform view call).lastAppliedIndex ∧
      (caller.perform view call).AppliedIs log ∧
      ((caller.perform view call).error = false → caller.error = false) ∧
      caller.lastAppliedIndex ≤ (caller.perform view call).lastAppliedIndex ∧
      ∀ committedIndex, call = .doCommitted committedIndex →
        (caller.perform view call).error = false →
        committedIndex ≤ (caller.perform view call).lastAppliedIndex := by
  cases call with
  | doCommitted committedIndex =>
      obtain ⟨after, same, error, grows, reached⟩ := doCommitted_delivers delivered applied finds
      refine ⟨after, same, fun works => error ▸ works, grows, ?_⟩
      intro index isIndex works
      obtain rfl := Call.doCommitted.inj isIndex
      exact reached (error ▸ works)
  | doSnapshotLoad load =>
      simp only [perform]
      split_ifs with failed
      · exact ⟨delivered, applied, id, le_refl _, fun index isIndex => by contradiction⟩
      · obtain ⟨after, same, error, grows⟩ :=
          doSnapshotLoad_delivers committed delivered applied finds
        exact ⟨after, same, error, grows, fun index isIndex => by contradiction⟩
  | doOnError =>
      exact ⟨delivered, applied, fun works => absurd works (by simp [perform]), le_refl _,
        fun index isIndex => by contradiction⟩

theorem performAll_delivers (committed : CommittedLog log) :
    ∀ (steps : List (Call × Surroundings P D K)) {caller : FSMCaller P D},
      Delivered log start caller.events caller.lastAppliedIndex → caller.AppliedIs log →
      FindsAll log caller steps →
      Delivered log start (caller.performAll steps).events
          (caller.performAll steps).lastAppliedIndex ∧
        ((caller.performAll steps).error = false → caller.error = false) ∧
        caller.lastAppliedIndex ≤ (caller.performAll steps).lastAppliedIndex ∧
        ((caller.performAll steps).error = false → ∀ committedIndex,
          .doCommitted committedIndex ∈ steps.map Prod.fst →
          committedIndex ≤ (caller.performAll steps).lastAppliedIndex) := by
  intro steps
  induction steps with
  | nil =>
      intro caller delivered _ _
      exact ⟨delivered, id, le_refl _, fun _ committedIndex member => by simp at member⟩
  | cons step rest ih =>
      intro caller delivered applied finds
      obtain ⟨after, same, error, grows, reached⟩ :=
        perform_delivers committed delivered applied finds.1
      obtain ⟨final, errors, growsAll, reachedAll⟩ := ih after same finds.2
      have unfolded : caller.performAll (step :: rest) =
          (caller.perform step.2 step.1).performAll rest := rfl
      rw [unfolded]
      refine ⟨final, fun works => error (errors works), grows.trans growsAll, ?_⟩
      intro works committedIndex member
      rw [List.map_cons, List.mem_cons] at member
      rcases member with here | later
      · exact (reached committedIndex here.symm (errors works)).trans growsAll
      · exact reachedAll works committedIndex later

theorem calls_cover (batchSize : Nat) : ∀ (tasks : List ApplyTask)
    (maxCommittedIndex : Option Nat) (counter committedIndex : Nat),
    .committed committedIndex ∈ tasks ∨ maxCommittedIndex = some committedIndex →
    ∃ reached, committedIndex ≤ reached ∧
      .doCommitted reached ∈ calls batchSize tasks maxCommittedIndex counter := by
  intro tasks
  induction tasks with
  | nil =>
      intro maxCommittedIndex counter committedIndex asked
      obtain rfl := asked.resolve_left List.not_mem_nil
      exact ⟨committedIndex, le_refl _, by simp [calls, flush]⟩
  | cons task rest ih =>
      intro maxCommittedIndex counter committedIndex asked
      -- what is flushed before the task, and what comes after it
      have flushed {later : List Call} (isMax : maxCommittedIndex = some committedIndex) :
          ∃ reached, committedIndex ≤ reached ∧
            .doCommitted reached ∈ flush maxCommittedIndex ++ later :=
        ⟨committedIndex, le_refl _, List.mem_append_left _ (by simp [flush, isMax])⟩
      have follows {earlier : List Call} (counter : Nat) {max : Option Nat}
          (asked : .committed committedIndex ∈ rest ∨ max = some committedIndex) :
          ∃ reached, committedIndex ≤ reached ∧
            .doCommitted reached ∈ earlier ++ calls batchSize rest max counter := by
        obtain ⟨reached, above, called⟩ := ih max counter committedIndex asked
        exact ⟨reached, above, List.mem_append_right _ called⟩
      cases task with
      | committed index =>
          rw [calls]
          split_ifs with room newer
          · rcases asked with member | isMax
            · rcases List.mem_cons.mp member with same | later
              · obtain rfl := ApplyTask.committed.inj same
                exact ih _ _ _ (Or.inr rfl)
              · exact ih _ _ _ (Or.inl later)
            · rw [isMax, Option.all_some, decide_eq_true_eq] at newer
              obtain ⟨reached, above, called⟩ := ih (some index) (counter + 1) index (Or.inr rfl)
              exact ⟨reached, newer.le.trans above, called⟩
          · rcases asked with member | isMax
            · rcases List.mem_cons.mp member with same | later
              · obtain rfl := ApplyTask.committed.inj same
                cases isMax : maxCommittedIndex with
                | none => exact absurd (by rw [isMax]; rfl) newer
                | some max =>
                    rw [isMax, Option.all_some, decide_eq_true_eq, not_lt] at newer
                    obtain ⟨reached, above, called⟩ := ih (some max) counter max (Or.inr rfl)
                    exact ⟨reached, newer.trans above, called⟩
              · exact ih _ _ _ (Or.inl later)
            · exact ih _ _ _ (Or.inr isMax)
          · rcases asked with member | isMax
            · rcases List.mem_cons.mp member with same | later
              · obtain rfl := ApplyTask.committed.inj same
                exact follows 1 (Or.inr rfl)
              · exact follows 1 (Or.inl later)
            · exact flushed isMax
      | snapshotLoad load =>
          rw [calls, List.append_cons]
          rcases asked with member | isMax
          · exact follows _ (Or.inl ((List.mem_cons.mp member).resolve_left (by simp)))
          · rw [List.append_assoc]
            exact flushed isMax
      | error =>
          rw [calls, List.append_cons]
          rcases asked with member | isMax
          · exact follows _ (Or.inl ((List.mem_cons.mp member).resolve_left (by simp)))
          · rw [List.append_assoc]
            exact flushed isMax
      | other =>
          rw [calls]
          rcases asked with member | isMax
          · exact follows _ (Or.inl ((List.mem_cons.mp member).resolve_left (by simp)))
          · exact flushed isMax

/-- Whatever the batches are, the state machine gets the committed log, and without
an error it gets all that was reported. -/
theorem run_delivers {log : Nat → LogEntry P D} (committed : CommittedLog log)
    {caller : FSMCaller P D} (fresh : caller.events = []) (applied : caller.AppliedIs log)
    (batchSize : Nat) (batches : List (List ApplyTask))
    {steps : List (Call × Surroundings P D K)}
    (made : steps.map Prod.fst = batches.flatMap (run batchSize))
    (finds : FindsAll log caller steps) :
    Delivered log caller.lastAppliedIndex (caller.performAll steps).events
        (caller.performAll steps).lastAppliedIndex ∧
      (((caller.performAll steps).events.flatMap FsmEvent.entries).map
        (fun entry => entry.id.index)).Pairwise (· < ·) ∧
      ((caller.performAll steps).error = false → ∀ batch ∈ batches, ∀ committedIndex,
        .committed committedIndex ∈ batch →
        committedIndex ≤ (caller.performAll steps).lastAppliedIndex) := by
  have delivered : Delivered log caller.lastAppliedIndex caller.events caller.lastAppliedIndex := by
    rw [fresh]
    exact .start
  obtain ⟨final, _, _, reachedAll⟩ := performAll_delivers committed steps delivered applied finds
  refine ⟨final, (final.increasing committed).1, ?_⟩
  intro works batch isBatch committedIndex member
  obtain ⟨reached, above, called⟩ :=
    calls_cover batchSize batch none 0 committedIndex (Or.inl member)
  refine above.trans (reachedAll works reached ?_)
  rw [made]
  exact List.mem_flatMap.mpr ⟨batch, isBatch, called⟩

def fourEntries (index : Nat) : LogEntry Nat Nat :=
  { type := if index = 1 then .configuration else .data
    id := { index := index, term := 1 }
    data := index }

def fourEntriesView : Surroundings Nat Nat Nat :=
  { getEntry := fun index => some (fourEntries index), getTerm := fun _ => 1 }

def freshCaller : FSMCaller Nat Nat := { lastAppliedIndex := 0, lastAppliedTerm := 0 }

/-- A repeated task, and a snapshot before the last one. -/
theorem run_delivers_fourEntries :
    ∃ caller : FSMCaller Nat Nat, caller.lastAppliedIndex = 4 ∧
      (caller.events.flatMap FsmEvent.entries).map LogEntry.data = [2, 4] ∧
      Delivered fourEntries 0 caller.events caller.lastAppliedIndex := by
  have committed : CommittedLog fourEntries := ⟨fun _ _ => rfl, fun _ _ _ _ => le_refl _⟩
  have applied : freshCaller.AppliedIs fourEntries := rfl
  have finds : FindsAll fourEntries freshCaller
      [(.doCommitted 2, fourEntriesView), (.doCommitted 2, fourEntriesView),
        (.doSnapshotLoad (.opened { index := 3, term := 1 } 0), fourEntriesView),
        (.doCommitted 4, fourEntriesView)] :=
    ⟨fun _ => ⟨fun _ _ _ => rfl, rfl⟩, fun _ => ⟨fun _ _ _ => rfl, rfl⟩, ⟨by decide, rfl⟩,
      fun _ => ⟨fun _ _ _ => rfl, rfl⟩, trivial⟩
  have delivered := run_delivers committed rfl applied 512
    [[.committed 2, .committed 1],
      [.committed 2, .snapshotLoad (.opened { index := 3, term := 1 } 0), .committed 4]]
    rfl finds
  exact ⟨_, rfl, rfl, delivered.1⟩

end FSMCaller

end QuorumKit
