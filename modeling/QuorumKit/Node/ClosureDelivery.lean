/-
Every closure of a leader is run once.

The FSM caller takes closures from the queue and hands them out with the entries that
it reads later.  What it has taken belongs to committed indexes, which keep their
entries whatever the node does in between.
-/

import QuorumKit.Node.Alignment
import QuorumKit.Node.Runs

namespace QuorumKit

namespace NodeImpl

variable {P D C : Type} [DecidableEq P] [Inhabited D]

def popped (node : NodeImpl P D C) : List (PendingClosure P D C) :=
  match node.iterator with
  | none => []
  | some iter => iter.closures.drop (iter.curIndex - iter.firstClosureIndex)

def reached (node : NodeImpl P D C) : Nat :=
  match node.iterator with
  | none => node.lastAppliedIndex
  | some iter => iter.committedIndex

structure Iterating (node : NodeImpl P D C)
    (iter : IteratorImpl P D (PendingClosure P D C)) : Prop where
  works : iter.hasError = false
  committed : iter.committedIndex ≤ node.ballotBox.lastCommittedIndex
  lower : node.lastAppliedIndex < iter.curIndex
  upper : iter.curIndex ≤ iter.committedIndex + 1
  entry : iter.curIndex ≤ iter.committedIndex → iter.curEntry = node.log.get? iter.curIndex
  tail : iter.firstClosureIndex + iter.closures.length = iter.committedIndex + 1
  entries : ∀ position closure, iter.closures[position]? = some closure →
    node.log.get? (iter.firstClosureIndex + position) = some closure.entry

structure Invariant (node : NodeImpl P D C) : Prop where
  aligned : Aligned node.reached node.popped node
  iterating : ∀ iter, node.iterator = some iter → Iterating node iter
  first : node.log.first ≤ node.lastAppliedIndex + 1

variable {reached : Nat} {node node' : NodeImpl P D C} {iter : IteratorImpl P D (PendingClosure P D C)}

omit [DecidableEq P] [Inhabited D] in
theorem Iterating.extends (iterating : Iterating node iter) (extended : Extends node node') :
    Iterating node' iter := by
  have committed := iterating.committed
  constructor
  · exact iterating.works
  · exact committed.trans extended.committed
  · rw [extended.applied]
    exact iterating.lower
  · exact iterating.upper
  · intro inside
    rw [extended.kept _ (inside.trans committed)]
    exact iterating.entry inside
  · exact iterating.tail
  · intro position closure found
    have inside := (List.getElem?_eq_some_iff.mp found).1
    have tail := iterating.tail
    rw [extended.kept _ (by omega)]
    exact iterating.entries position closure found

omit [DecidableEq P] [Inhabited D] in
theorem Iterating.frame (log : node'.log = node.log) (box : node'.ballotBox = node.ballotBox)
    (applied : node'.lastAppliedIndex = node.lastAppliedIndex) (iterating : Iterating node iter) :
    Iterating node' iter := by
  constructor
  · exact iterating.works
  · rw [box]
    exact iterating.committed
  · rw [applied]
    exact iterating.lower
  · exact iterating.upper
  · rw [log]
    exact iterating.entry
  · exact iterating.tail
  · rw [log]
    exact iterating.entries

omit [Inhabited D] in
theorem Invariant.keeps (invariant : Invariant node)
    (keeps : Keeps node.reached node.popped node node') : Invariant node' := by
  obtain ⟨aligned, extended⟩ := keeps invariant.aligned
  constructor
  · rw [reached, popped, extended.iterator, extended.applied]
    exact aligned
  · intro iter isIter
    rw [extended.iterator] at isIter
    exact (invariant.iterating iter isIter).extends extended
  · rw [extended.first, extended.applied]
    exact invariant.first

omit [Inhabited D] in
theorem Invariant.idle (invariant : Invariant node) (idle : node.iterator = none) :
    Aligned node.lastAppliedIndex [] node := by
  have aligned := invariant.aligned
  rw [NodeImpl.reached, popped, idle] at aligned
  exact aligned

theorem perm_taken {E : Type} (queue rest : List E) (taken : Nat) :
    (queue.drop taken ++ (queue.take taken ++ rest)).Perm (queue ++ rest) := by
  rw [← List.append_assoc]
  refine List.Perm.append_right rest ?_
  exact List.perm_append_comm.trans (List.Perm.of_eq (List.take_append_drop taken queue))

structure Moved (getEntry : Nat → Option (LogEntry P D))
    (iter iter' : IteratorImpl P D (PendingClosure P D C)) : Prop where
  curIndex : iter'.curIndex = iter.curIndex + 1
  committedIndex : iter'.committedIndex = iter.committedIndex
  closures : iter'.closures = iter.closures
  firstClosureIndex : iter'.firstClosureIndex = iter.firstClosureIndex
  hasError : iter'.hasError = iter.hasError
  curEntry : iter'.curIndex ≤ iter'.committedIndex → iter'.curEntry = getEntry iter'.curIndex

omit [DecidableEq P] [Inhabited D] in
theorem next_moved {getEntry : Nat → Option (LogEntry P D)}
    (inside : iter.curIndex ≤ iter.committedIndex)
    (reads : iter.curIndex + 1 ≤ iter.committedIndex → (getEntry (iter.curIndex + 1)).isSome) :
    Moved getEntry iter (iter.next getEntry) := by
  unfold IteratorImpl.next
  rw [if_pos inside]
  by_cases more : iter.curIndex + 1 ≤ iter.committedIndex
  · rw [if_pos more]
    have found := Option.isNone_eq_false_iff.mpr (reads more)
    exact ⟨rfl, rfl, rfl, rfl, by rw [found, Bool.or_false], fun _ => rfl⟩
  · rw [if_neg more]
    exact ⟨rfl, rfl, rfl, rfl, rfl, fun last => absurd last more⟩

omit [DecidableEq P] [Inhabited D] in
theorem Iterating.moved {iter' : IteratorImpl P D (PendingClosure P D C)}
    (moved : Moved node.log.get? iter iter') (works : iter.hasError = false)
    (committed : iter.committedIndex ≤ node.ballotBox.lastCommittedIndex)
    (lower : node.lastAppliedIndex ≤ iter.curIndex) (upper : iter.curIndex ≤ iter.committedIndex)
    (tail : iter.firstClosureIndex + iter.closures.length = iter.committedIndex + 1)
    (entries : ∀ position closure, iter.closures[position]? = some closure →
      node.log.get? (iter.firstClosureIndex + position) = some closure.entry) :
    Iterating node iter' := by
  have curIndex := moved.curIndex
  constructor
  · exact moved.hasError.trans works
  · rw [moved.committedIndex]
    exact committed
  · omega
  · rw [moved.committedIndex]
    omega
  · exact moved.curEntry
  · rw [moved.firstClosureIndex, moved.closures, moved.committedIndex]
    exact tail
  · rw [moved.firstClosureIndex, moved.closures]
    exact entries

omit [Inhabited D] in
theorem popClosureUntil_keeps {committedIndex first : Nat} {closures : List (PendingClosure P D C)}
    {queue : ClosureQueue (PendingClosure P D C)} (aligned : Aligned reached [] node)
    (ahead : reached < committedIndex) (inside : committedIndex < node.log.stop)
    (taken : node.closureQueue.popClosureUntil committedIndex = some ((first, closures), queue)) :
    Aligned committedIndex closures { node with closureQueue := queue } ∧
      reached < first ∧ first + closures.length = committedIndex + 1 ∧
      ∀ position closure, closures[position]? = some closure →
        node.log.get? (first + position) = some closure.entry := by
  obtain ⟨window, represents, opened⟩ := aligned.window
  unfold ClosureQueue.popClosureUntil at taken
  split_ifs at taken with none beyond
  · -- nothing is taken
    simp only [Option.some.injEq, Prod.mk.injEq] at taken
    obtain ⟨⟨rfl, rfl⟩, rfl⟩ := taken
    refine ⟨?_, by omega, rfl, fun position closure found => absurd found (by simp)⟩
    refine { aligned with window := ⟨window, represents, ?_⟩, reached := inside }
    cases window with
    | none => exact opened
    | some window =>
        obtain ⟨windowTail, queueTail, behind⟩ := opened
        refine ⟨windowTail, queueTail, ?_⟩
        rcases none with empty | below
        · rw [List.isEmpty_iff.mp empty, List.length_nil] at queueTail
          show committedIndex < node.closureQueue.firstIndex
          omega
        · exact below
  · simp only [Option.some.injEq, Prod.mk.injEq] at taken
    obtain ⟨⟨rfl, rfl⟩, rfl⟩ := taken
    rw [not_or, not_lt] at none
    cases window with
    | none => exact absurd (List.isEmpty_iff.mpr opened) none.1
    | some window =>
        obtain ⟨windowTail, queueTail, behind⟩ := opened
        refine ⟨?_, behind, ?_, ?_⟩
        · constructor
          · exact aligned.positive
          · exact aligned.indexed
          · exact aligned.committed
          · exact aligned.increasing
          · refine ⟨some window, represents, windowTail, ?_, Nat.lt_succ_self _⟩
            simp only [List.length_drop]
            omega
          · exact aligned.leads
          · exact inside
          · intro position closure found
            simp only [List.getElem?_drop] at found ⊢
            have isEntry := aligned.queued _ closure found
            rw [← isEntry]
            congr 1
            omega
          · have counted := aligned.counted
            simp only [numbers, List.append_nil, List.append_assoc] at counted ⊢
            refine List.Perm.trans ?_ counted
            exact List.Perm.map _ (perm_taken _ _ _)
          · exact aligned.paired
        · rw [List.length_take]
          omega
        · intro position closure found
          rw [List.getElem?_take] at found
          split_ifs at found
          exact aligned.queued position closure found

omit [Inhabited D] in
theorem Invariant.startCommitted (invariant : Invariant node) {committedIndex : Nat}
    (reported : committedIndex ∈ node.ballotBox.committed)
    (stepped : node.startCommitted committedIndex = some node') : Invariant node' := by
  have committed := invariant.aligned.increasing.2 committedIndex reported
  have inside := invariant.aligned.committed
  have readable := invariant.first
  unfold NodeImpl.startCommitted at stepped
  split_ifs at stepped with busy done
  · obtain rfl := Option.some.inj stepped
    exact invariant
  · have idle : node.iterator = none := by simpa using busy
    obtain ⟨⟨⟨first, closures⟩, queue⟩, taken, rfl⟩ := Option.map_eq_some_iff.mp stepped
    have aligned := invariant.idle idle
    obtain ⟨after, behind, tail, entries⟩ :=
      popClosureUntil_keeps aligned (by omega) (by omega) taken
    have moved : Moved node.log.get?
        { closures := closures
          firstClosureIndex := first
          curIndex := node.lastAppliedIndex
          committedIndex := committedIndex }
        (IteratorImpl.init closures first node.lastAppliedIndex committedIndex node.log.get?) := by
      refine next_moved (show node.lastAppliedIndex ≤ committedIndex by omega) (fun _ => ?_)
      obtain ⟨entry, found⟩ := IndexedLog.exists_get? readable
        (show node.lastAppliedIndex + 1 < node.log.stop by omega)
      exact Option.isSome_iff_exists.mpr ⟨entry, found⟩
    constructor
    · have all : node.lastAppliedIndex + 1 - first = 0 := by omega
      simp only [reached, popped, moved.committedIndex, moved.closures, moved.curIndex,
        moved.firstClosureIndex, all, List.drop_zero]
      exact after.frame rfl rfl
    · intro iter isIter
      obtain rfl := Option.some.inj isIter
      refine Iterating.frame rfl rfl rfl ?_
      exact Iterating.moved moved rfl committed (le_refl _)
        (show node.lastAppliedIndex ≤ committedIndex by omega) tail entries
    · exact readable

omit [DecidableEq P] [Inhabited D] in
theorem Iterating.done (iterating : Iterating node iter) {closure : PendingClosure P D C}
    (isDone : iter.done = some closure) :
    node.log.get? iter.curIndex = some closure.entry ∧
      iter.closures.drop (iter.curIndex - iter.firstClosureIndex) =
        closure :: iter.closures.drop (iter.curIndex + 1 - iter.firstClosureIndex) := by
  unfold IteratorImpl.done at isDone
  split_ifs at isDone with before
  have isEntry := iterating.entries _ closure isDone
  rw [show iter.firstClosureIndex + (iter.curIndex - iter.firstClosureIndex) = iter.curIndex by
    omega] at isEntry
  refine ⟨isEntry, ?_⟩
  obtain ⟨within, isClosure⟩ := List.getElem?_eq_some_iff.mp isDone
  rw [List.drop_eq_getElem_cons within, isClosure,
    show iter.curIndex + 1 - iter.firstClosureIndex =
      iter.curIndex - iter.firstClosureIndex + 1 by omega]

omit [DecidableEq P] [Inhabited D] in
theorem Iterating.not_done (iterating : Iterating node iter)
    (inside : iter.curIndex ≤ iter.committedIndex) (notDone : iter.done = none) :
    iter.curIndex + 1 - iter.firstClosureIndex = iter.curIndex - iter.firstClosureIndex := by
  have tail := iterating.tail
  unfold IteratorImpl.done at notDone
  split_ifs at notDone with before
  · omega
  · have beyond := List.getElem?_eq_none_iff.mp notDone
    omega

theorem perm_handed {E : Type} (queue rest handed failed : List E) (closure : E) :
    (queue ++ rest ++ closure :: handed ++ failed).Perm
      (queue ++ closure :: rest ++ handed ++ failed) := by
  refine List.Perm.append_right failed ?_
  simp only [List.append_assoc, List.cons_append]
  exact List.Perm.append_left queue List.perm_middle

theorem hand_keeps {entry : LogEntry P D} (invariant : Invariant node)
    (isIter : node.iterator = some iter) (inside : iter.curIndex ≤ iter.committedIndex)
    (found : node.log.get? iter.curIndex = some entry)
    (stepped : node.hand iter entry = some node') :
    Aligned iter.committedIndex
        (iter.closures.drop (iter.curIndex + 1 - iter.firstClosureIndex)) node' ∧
      Extends node node' := by
  have iterating := invariant.iterating iter isIter
  have aligned := invariant.aligned
  rw [NodeImpl.reached, popped, isIter] at aligned
  simp only at aligned
  unfold hand at stepped
  cases isDone : iter.done with
  | none =>
      rw [isDone] at stepped
      obtain rfl := Option.some.inj stepped
      rw [iterating.not_done inside isDone]
      exact ⟨aligned, .refl node⟩
  | some closure =>
      rw [isDone] at stepped
      obtain ⟨isEntry, rest⟩ := iterating.done isDone
      obtain rfl := Option.some.inj (found.symm.trans isEntry)
      have handed : Aligned iter.committedIndex
          (iter.closures.drop (iter.curIndex + 1 - iter.firstClosureIndex))
          { node with handed := (closure, closure.entry) :: node.handed } := by
        refine { aligned with counted := ?_, paired := ?_ }
        · have counted := aligned.counted
          rw [numbers, rest] at counted
          exact List.Perm.trans (List.Perm.map _ (perm_handed _ _ _ _ _)) counted
        · intro pair member
          rcases List.mem_cons.mp member with rfl | former
          · rfl
          · exact aligned.paired pair former
      simp only at stepped
      split at stepped
      · obtain rfl := Option.some.inj stepped
        exact ⟨handed, ⟨rfl, rfl, rfl, le_refl _, fun _ _ => rfl⟩⟩
      · obtain ⟨after, extended⟩ := onConfigurationChangeDone_keeps stepped handed
        exact ⟨after, extended.iterator, extended.applied, extended.first, extended.committed,
          extended.kept⟩

theorem Invariant.nextCommitted (invariant : Invariant node)
    (stepped : node.nextCommitted = some node') : Invariant node' := by
  unfold NodeImpl.nextCommitted at stepped
  cases isIter : node.iterator with
  | none =>
      rw [isIter] at stepped
      contradiction
  | some iter =>
      rw [isIter] at stepped
      simp only at stepped
      split_ifs at stepped with good
      rw [IteratorImpl.isGood, decide_eq_true_eq] at good
      have inside := good.1
      have iterating := invariant.iterating iter isIter
      split at stepped
      · contradiction
      · rename_i entry isEntry
        rw [iterating.entry inside] at isEntry
        obtain ⟨middle, handed, rfl⟩ := Option.map_eq_some_iff.mp stepped
        obtain ⟨after, extended⟩ := hand_keeps invariant isIter inside isEntry handed
        have still := iterating.extends extended
        have readable := invariant.first
        have committed := still.committed
        have stop := after.committed
        have lower := still.lower
        have moved : Moved middle.log.get? iter (iter.next middle.log.get?) := by
          refine next_moved inside (fun more => ?_)
          obtain ⟨next, found⟩ := IndexedLog.exists_get?
            (show middle.log.first ≤ iter.curIndex + 1 by
              rw [extended.first]
              rw [extended.applied] at lower
              omega)
            (show iter.curIndex + 1 < middle.log.stop by omega)
          exact Option.isSome_iff_exists.mpr ⟨next, found⟩
        constructor
        · simp only [NodeImpl.reached, popped, moved.committedIndex, moved.closures,
            moved.curIndex, moved.firstClosureIndex]
          exact after.frame rfl rfl
        · intro iter' isIter'
          obtain rfl := Option.some.inj isIter'
          refine Iterating.frame rfl rfl rfl ?_
          exact Iterating.moved moved still.works committed lower.le inside still.tail still.entries
        · rw [← extended.first, ← extended.applied] at readable
          exact readable

omit [Inhabited D] in
theorem Invariant.finishCommitted (invariant : Invariant node)
    (stepped : node.finishCommitted = some node') : Invariant node' := by
  unfold NodeImpl.finishCommitted at stepped
  cases isIter : node.iterator with
  | none =>
      rw [isIter] at stepped
      contradiction
  | some iter =>
      rw [isIter] at stepped
      simp only at stepped
      split_ifs at stepped with bad error
      · have works := (invariant.iterating iter isIter).works
        rw [error] at works
        contradiction
      · obtain rfl := Option.some.inj stepped
        have iterating := invariant.iterating iter isIter
        have readable := invariant.first
        have lower := iterating.lower
        have upper := iterating.upper
        have tail := iterating.tail
        have last : iter.committedIndex < iter.curIndex := by
          by_contra inside
          refine bad ?_
          rw [IteratorImpl.isGood, decide_eq_true_eq]
          exact ⟨not_lt.mp inside, iterating.works⟩
        have aligned := invariant.aligned
        rw [NodeImpl.reached, popped, isIter] at aligned
        simp only at aligned
        rw [List.drop_eq_nil_of_le (by omega)] at aligned
        constructor
        · exact aligned.frame rfl rfl
        · intro iter' isIter'
          exact absurd isIter' (by simp)
        · show node.log.first ≤ iter.committedIndex + 1
          omega

omit [Inhabited D] in
theorem Invariant.initial (initial : Initial node) : Invariant node := by
  have fresh := initial.fresh
  have applied := initial.applied
  have idle : node.iterator = none := by rw [fresh]
  constructor
  · rw [NodeImpl.reached, popped, idle]
    constructor
    · exact initial.positive
    · exact initial.indexed
    · rw [show node.ballotBox = {} by rw [fresh]]
      exact lt_of_le_of_lt (Nat.zero_le _) applied.2
    · rw [show node.ballotBox = {} by rw [fresh]]
      exact ⟨List.Pairwise.nil, fun index member => absurd member List.not_mem_nil⟩
    · rw [show node.ballotBox = {} by rw [fresh]]
      exact ⟨none, ⟨rfl, rfl⟩, by rw [fresh]; rfl⟩
    · rw [initial.state, show node.ballotBox = {} by rw [fresh]]
      exact iff_of_false Bool.false_ne_true (not_not_intro rfl)
    · exact applied.2
    · rw [fresh]
      exact fun position closure found => absurd found (by simp)
    · rw [fresh]
      exact List.Perm.nil
    · rw [fresh]
      exact fun handed member => absurd member List.not_mem_nil
  · rw [idle]
    exact fun iter isIter => absurd isIter (by simp)
  · exact applied.1

theorem Invariant.step {action : Action P D C} (invariant : Invariant node)
    (allowed : Allowed action node) (stepped : step action node = some node') :
    Invariant node' := by
  cases action with
  | electSelf =>
      obtain rfl := Option.some.inj stepped
      refine invariant.keeps (electSelf_keeps ?_)
      rcases allowed with follower | candidate
      · rw [follower]
        rfl
      · rw [candidate]
        rfl
  | becomeLeader => exact invariant.keeps (becomeLeader_keeps stepped)
  | stepDown term =>
      obtain rfl := Option.some.inj stepped
      exact invariant.keeps (stepDown_keeps node term)
  | transferLeadership =>
      obtain rfl := Option.some.inj stepped
      exact invariant.keeps (transferLeadership_keeps node)
  | handleTransferTimeout term =>
      obtain rfl := Option.some.inj stepped
      exact invariant.keeps (handleTransferTimeout_keeps node term)
  | onError =>
      obtain rfl := Option.some.inj stepped
      exact invariant.keeps (onError_keeps node)
  | apply tasks rejectNewUserLogs => exact invariant.keeps (apply_keeps stepped)
  | addPeer peer waits => exact invariant.keeps (registerConfChange_keeps stepped)
  | removePeer peer waits => exact invariant.keeps (registerConfChange_keeps stepped)
  | changePeers newPeers waits => exact invariant.keeps (registerConfChange_keeps stepped)
  | onCaughtUp position status => exact invariant.keeps (onCaughtUp_keeps stepped)
  | commitAt firstLogIndex lastLogIndex peer =>
      unfold NodeImpl.step at stepped
      obtain ⟨box, boxStep, rfl⟩ := Option.map_eq_some_iff.mp stepped
      exact invariant.keeps (commitAt_keeps boxStep)
  | setLastCommittedIndex lastCommittedIndex =>
      unfold NodeImpl.step at stepped
      obtain ⟨box, boxStep, rfl⟩ := Option.map_eq_some_iff.mp stepped
      exact invariant.keeps (setLastCommittedIndex_keeps allowed boxStep)
  | receive cut entries =>
      obtain rfl := Option.some.inj stepped
      obtain ⟨follower, _, lower, upper, committed, applied, indexed⟩ := allowed
      have taken : node.reached < cut := by
        unfold NodeImpl.reached
        split
        · exact applied
        · next iter isIter => exact (invariant.iterating iter isIter).committed.trans_lt committed
      exact invariant.keeps (receive_keeps (by rw [follower]; rfl) lower upper committed taken
        (fun position entry found => (indexed position entry found).1))
  | startCommitted committedIndex => exact invariant.startCommitted allowed stepped
  | nextCommitted => exact invariant.nextCommitted stepped
  | finishCommitted => exact invariant.finishCommitted stepped

theorem invariant_of_reachable (reached : (system P D C).Reachable node) : Invariant node := by
  induction reached with
  | start initial => exact Invariant.initial initial
  | next _ allowed stepped ih => exact ih.step allowed stepped

omit [Inhabited D] in
theorem startCommitted_isSome (invariant : Invariant node) (idle : node.iterator = none)
    {committedIndex : Nat} (reported : committedIndex ∈ node.ballotBox.committed) :
    (node.startCommitted committedIndex).isSome := by
  have aligned := invariant.aligned
  have committed := aligned.increasing.2 committedIndex reported
  have inside := aligned.committed
  obtain ⟨window, represents, opened⟩ := aligned.window
  unfold NodeImpl.startCommitted ClosureQueue.popClosureUntil
  rw [idle, Option.isSome_none, if_neg Bool.false_ne_true]
  split_ifs with old none beyond
  · rfl
  · rfl
  · rw [not_or, not_lt] at none
    cases window with
    | none => exact absurd (List.isEmpty_iff.mpr opened) none.1
    | some window =>
        obtain ⟨_, queueTail, _⟩ := opened
        omega
  · rfl

def followerNode : NodeImpl Nat Nat Nat :=
  { serverId := 1
    state := .follower
    currentTerm := 0
    conf := { conf := .ofList [1], oldConf := .empty }
    log := { first := 1, entries := [] }
    configManager := .init }

theorem followerNode_initial : Initial followerNode := by
  constructor
  · rfl
  · decide
  · intro index entry found
    exact absurd found (by simp [followerNode, IndexedLog.get?])
  · intro index entry found
    exact absurd found (by simp [followerNode, IndexedLog.get?])
  · decide
  · decide
  · rfl

def steppedDown : List (Action Nat Nat Nat) :=
  [.electSelf, .becomeLeader, .apply [{ data := 5, done := some 7 }] false, .commitAt 1 2 1,
    .apply [{ data := 6, done := some 8 }] false, .startCommitted 2, .stepDown 3,
    .nextCommitted, .nextCommitted, .finishCommitted]

end NodeImpl

end QuorumKit
