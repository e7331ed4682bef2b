/-
The cached requests that `process_runable_rpcs` takes out.

The loop takes the request behind an index and goes on with the end of that request in place
of the index, also where the index is higher.  A request that starts behind a gap is left
then, although the log of the follower has the entry before it.
-/

import Mathlib.Data.List.Chain
import QuorumKit.Node.CachedRequests

namespace QuorumKit

variable {P D : Type}

namespace AppendEntriesCache

/-- Each request starts at or below the end of the one before it. -/
def Linked (rpcs : List (AppendEntriesRpc P D)) : Prop :=
  List.IsChain (fun former later => later.prevLogIndex ≤ former.lastIndex) rpcs

def upTo (index : Nat) (rpcs : List (AppendEntriesRpc P D)) : List (AppendEntriesRpc P D) :=
  rpcs.filter (fun rpc => rpc.prevLogIndex ≤ index)

def Increasing (rpcs : List (AppendEntriesRpc P D)) : Prop :=
  rpcs.Pairwise (fun former later => former.prevLogIndex < later.prevLogIndex)

theorem upTo_cons_of_le {index : Nat} {rpc : AppendEntriesRpc P D}
    (reached : rpc.prevLogIndex ≤ index) (rest : List (AppendEntriesRpc P D)) :
    upTo index (rpc :: rest) = rpc :: upTo index rest :=
  List.filter_cons_of_pos (decide_eq_true reached)

theorem upTo_eq_nil {index : Nat} {rpcs : List (AppendEntriesRpc P D)}
    (ahead : ∀ rpc ∈ rpcs, index < rpc.prevLogIndex) : upTo index rpcs = [] := by
  apply List.filter_eq_nil_iff.mpr
  intro rpc member reached
  have lower := ahead rpc member
  have upper := of_decide_eq_true reached
  omega

theorem Increasing.ahead {rpc : AppendEntriesRpc P D} {rest : List (AppendEntriesRpc P D)}
    (increasing : Increasing (rpc :: rest)) {index : Nat} (ahead : index < rpc.prevLogIndex) :
    ∀ other ∈ rpc :: rest, index < other.prevLogIndex := by
  intro other member
  rcases List.mem_cons.mp member with isSame | inRest
  · rw [isSame]
    exact ahead
  · have lower := (List.pairwise_cons.mp increasing).1 other inRest
    omega

theorem runable_left_iff {index : Nat} (rpcs : List (AppendEntriesRpc P D)) :
    ∀ bound, Increasing rpcs →
      ((∀ rpc ∈ (runable bound rpcs).2, index < rpc.prevLogIndex) ↔
        (∀ first ∈ (upTo index rpcs).head?, first.prevLogIndex ≤ bound) ∧
          Linked (upTo index rpcs)) := by
  induction rpcs with
  | nil =>
      intro bound _
      constructor
      · intro _
        exact ⟨nofun, .nil⟩
      · intro _ rpc member
        contradiction
  | cons rpc rest ih =>
      intro bound increasing
      have restIncreasing := (List.pairwise_cons.mp increasing).2
      by_cases ahead : index < rpc.prevLogIndex
      · -- no request is asked for
        have all := increasing.ahead ahead
        rw [upTo_eq_nil all]
        constructor
        · intro _
          exact ⟨nofun, .nil⟩
        · intro _ other member
          apply all
          rw [← runable_append (rpc :: rest) bound]
          exact List.mem_append_right _ member
      · have reached : rpc.prevLogIndex ≤ index := Nat.le_of_not_lt ahead
        rw [upTo_cons_of_le reached]
        unfold runable
        by_cases stops : bound < rpc.prevLogIndex
        · rw [if_pos stops]
          constructor
          · intro left
            exact absurd (left rpc List.mem_cons_self) ahead
          · intro linked
            have lower := linked.1 rpc rfl
            omega
        · rw [if_neg stops]
          have later := ih (rpc.prevLogIndex + rpc.entriesSize) restIncreasing
          constructor
          · intro left
            refine ⟨?_, List.isChain_cons.mpr (later.mp left)⟩
            intro first isFirst
            rw [← Option.some.inj isFirst]
            exact Nat.le_of_not_lt stops
          · intro linked
            exact later.mpr (List.isChain_cons.mp linked.2)

theorem runable_none_left_iff {rpcs : List (AppendEntriesRpc P D)} (increasing : Increasing rpcs)
    (index : Nat) :
    (∀ rpc ∈ (runable index rpcs).2, index < rpc.prevLogIndex) ↔ Linked (upTo index rpcs) := by
  rw [runable_left_iff rpcs index increasing]
  constructor
  · intro both
    exact both.2
  · intro linked
    refine ⟨?_, linked⟩
    intro first isFirst
    exact of_decide_eq_true (List.mem_filter.mp (List.mem_of_mem_head? isFirst)).2

end AppendEntriesCache

namespace CacheNode

open AppendEntriesCache

def cached (node : CacheNode P D) : List (AppendEntriesRpc P D) :=
  match node.appendEntriesCache with
  | none => []
  | some cache => cache.rpcMap

structure Filled (cache : AppendEntriesCache P D) : Prop where
  filled : cache.rpcMap ≠ []
  increasing : Increasing cache.rpcMap
  same : cache.rpcQueue.Perm cache.rpcMap
  distinct : (cache.rpcQueue.map AppendEntriesRpc.address).Nodup

def HasContent (node : CacheNode P D) : Prop :=
  ∀ cache, node.appendEntriesCache = some cache → Filled cache

/-- What a call takes out is handed over at once, in the order of the starts. -/
def TakesInOrder (starts : Bool) (node after : CacheNode P D) : Prop :=
  ∃ taken, Increasing taken ∧ node.cached = taken ++ after.cached ∧
    (after.world.handlers = node.world.handlers ++ (if starts ∧ taken ≠ [] then [taken] else [])) ∧
    after.world.failed = node.world.failed ++ (if starts then [] else taken)

variable {node after : CacheNode P D}

theorem stopTimer_hands (cache : AppendEntriesCache P D) (world : CacheWorld P D) :
    (cache.stopTimer world).2.handlers = world.handlers ∧
      (cache.stopTimer world).2.failed = world.failed := by
  unfold stopTimer
  cases cache.timer with
  | none => exact ⟨rfl, rfl⟩
  | some timer =>
      simp only
      by_cases waits : (world.timers.any (fun waiting => waiting.timer = timer)) = true
      · rw [if_pos waits]
        exact ⟨rfl, rfl⟩
      · rw [if_neg waits]
        exact ⟨rfl, rfl⟩

theorem handled_hands (starts : Bool) (taken : List (AppendEntriesRpc P D))
    (world : CacheWorld P D) :
    (if taken.isEmpty then world else startToHandle starts taken world).handlers =
        world.handlers ++ (if starts ∧ taken ≠ [] then [taken] else []) ∧
      (if taken.isEmpty then world else startToHandle starts taken world).failed =
        world.failed ++ (if starts then [] else taken) := by
  cases taken with
  | nil =>
      cases starts with
      | false => exact ⟨(List.append_nil _).symm, (List.append_nil _).symm⟩
      | true => exact ⟨(List.append_nil _).symm, (List.append_nil _).symm⟩
  | cons rpc rest =>
      cases starts with
      | false => exact ⟨(List.append_nil _).symm, rfl⟩
      | true => exact ⟨rfl, (List.append_nil _).symm⟩

theorem Filled.process {cache : AppendEntriesCache P D} (whole : Filled cache)
    (localLastIndex : Nat) (starts : Bool) (world : CacheWorld P D) :
    ∃ processed, cache.processRunableRpcs localLastIndex starts world = some processed ∧
      processed.1.rpcMap = (runable localLastIndex cache.rpcMap).2 ∧
      processed.1.rpcQueue.Perm processed.1.rpcMap ∧
      (processed.1.rpcQueue.map AppendEntriesRpc.address).Nodup ∧
      processed.2.handlers = world.handlers ++
        (if starts ∧ (runable localLastIndex cache.rpcMap).1 ≠ [] then
          [(runable localLastIndex cache.rpcMap).1] else []) ∧
      processed.2.failed = world.failed ++
        (if starts then [] else (runable localLastIndex cache.rpcMap).1) := by
  have queueFilled : cache.rpcQueue ≠ [] := by
    intro isEmpty
    apply whole.filled
    apply List.Perm.eq_nil
    rw [← isEmpty]
    exact whole.same.symm
  have split := runable_append cache.rpcMap localLastIndex
  unfold processRunableRpcs
  rw [if_neg (by simp [whole.filled, queueFilled])]
  simp only
  generalize runable localLastIndex cache.rpcMap = parts at split ⊢
  obtain ⟨same, distinct⟩ := removeAll_perm parts.1 cache.rpcQueue parts.2
    (by rw [split]; exact whole.same) whole.distinct
  obtain ⟨handlers, failed⟩ := handled_hands starts parts.1 world
  by_cases isLeft : parts.2.isEmpty = true
  · rw [if_pos isLeft]
    obtain ⟨queue, map, _⟩ := stopTimer_keeps
      { cache with
        rpcQueue := parts.1.foldl (fun queue rpc => removeFromList rpc queue) cache.rpcQueue
        rpcMap := parts.2 }
      (if parts.1.isEmpty then world else startToHandle starts parts.1 world)
    obtain ⟨stillHandlers, stillFailed⟩ := stopTimer_hands
      { cache with
        rpcQueue := parts.1.foldl (fun queue rpc => removeFromList rpc queue) cache.rpcQueue
        rpcMap := parts.2 }
      (if parts.1.isEmpty then world else startToHandle starts parts.1 world)
    refine ⟨_, rfl, map, ?_, ?_, stillHandlers.trans handlers, stillFailed.trans failed⟩
    · rw [queue, map]
      exact same
    · rw [queue]
      exact distinct
  · rw [if_neg isLeft]
    exact ⟨_, rfl, rfl, same, distinct, handlers, failed⟩

theorem HasContent.check (content : node.HasContent) (localLastIndex : Nat) (starts : Bool) :
    ∃ after, node.checkAppendEntriesCache localLastIndex starts = some after ∧
      after.HasContent ∧ after.cached = (runable localLastIndex node.cached).2 ∧
      TakesInOrder starts node after := by
  unfold checkAppendEntriesCache
  cases isCache : node.appendEntriesCache with
  | none =>
      have none : node.cached = [] := by
        unfold cached
        rw [isCache]
      refine ⟨node, rfl, content, by rw [none]; rfl, [], .nil, rfl, ?_⟩
      cases starts with
      | false => exact ⟨(List.append_nil _).symm, (List.append_nil _).symm⟩
      | true => exact ⟨(List.append_nil _).symm, (List.append_nil _).symm⟩
  | some cache =>
      have whole := content cache isCache
      have isCached : node.cached = cache.rpcMap := by
        unfold cached
        rw [isCache]
      obtain ⟨processed, processes, map, same, distinct, handlers, failed⟩ :=
        whole.process localLastIndex starts node.world
      have split := runable_append cache.rpcMap localLastIndex
      have increasing := whole.increasing
      rw [← split] at increasing
      have left : cached { node with
          appendEntriesCache := dropEmpty processed.1
          world := processed.2 } = processed.1.rpcMap := by
        unfold cached dropEmpty AppendEntriesCache.isEmpty
        cases isMap : processed.1.rpcMap with
        | nil => rfl
        | cons rpc rest =>
            rw [if_neg (by exact Bool.false_ne_true)]
            exact isMap
      simp only
      rw [processes]
      refine ⟨_, rfl, ?_, left.trans (by rw [isCached]; exact map), ?_⟩
      · intro kept isKept
        change dropEmpty processed.1 = some kept at isKept
        unfold dropEmpty AppendEntriesCache.isEmpty at isKept
        by_cases isEmpty : processed.1.rpcMap.isEmpty = true
        · rw [if_pos isEmpty] at isKept
          contradiction
        · rw [if_neg isEmpty, Option.some_inj] at isKept
          subst isKept
          refine ⟨fun isNil => isEmpty (List.isEmpty_iff.mpr isNil), ?_, same, distinct⟩
          rw [map]
          exact (List.pairwise_append.mp increasing).2.1
      · refine ⟨_, (List.pairwise_append.mp increasing).1, ?_, handlers, failed⟩
        rw [left, isCached, map]
        exact split.symm

/-- Behind each call no request is left that starts at or below its index, and what the call
takes out is handed over in order. -/
def NoneLeftBehind : List (Nat × Bool) → CacheNode P D → Prop
  | [], _ => True
  | (localLastIndex, starts) :: rest, node =>
      ∃ after, node.checkAppendEntriesCache localLastIndex starts = some after ∧
        (∀ rpc ∈ after.cached, localLastIndex < rpc.prevLogIndex) ∧
        TakesInOrder starts node after ∧ NoneLeftBehind rest after

def MeetsNoGap : List (Nat × Bool) → CacheNode P D → Prop
  | [], _ => True
  | (localLastIndex, starts) :: rest, node =>
      Linked (upTo localLastIndex node.cached) ∧
        ∀ after, node.checkAppendEntriesCache localLastIndex starts = some after →
          MeetsNoGap rest after

/-- For any content of the cache and any sequence of indexes, each call takes out what can run
exactly if the requests that can run leave no gap between each other. -/
theorem noneLeftBehind_iff_meetsNoGap (calls : List (Nat × Bool)) :
    ∀ node : CacheNode P D, node.HasContent →
      (NoneLeftBehind calls node ↔ MeetsNoGap calls node) := by
  induction calls with
  | nil =>
      intro node _
      exact Iff.rfl
  | cons call rest ih =>
      intro node content
      obtain ⟨localLastIndex, starts⟩ := call
      obtain ⟨after, called, stillContent, left, order⟩ := content.check localLastIndex starts
      have increasing : Increasing node.cached := by
        unfold cached
        cases isCache : node.appendEntriesCache with
        | none => exact .nil
        | some cache => exact (content cache isCache).increasing
      have noneLeft := runable_none_left_iff increasing localLastIndex
      rw [← left] at noneLeft
      constructor
      · intro holds
        obtain ⟨other, isOther, behind, _, later⟩ := holds
        rw [called, Option.some_inj] at isOther
        subst isOther
        refine ⟨noneLeft.mp behind, ?_⟩
        intro other isOther
        rw [called, Option.some_inj] at isOther
        subst isOther
        exact (ih after stillContent).mp later
      · intro holds
        exact ⟨after, called, noneLeft.mpr holds.1, order,
          (ih after stillContent).mpr (holds.2 after called)⟩

def gapNode : CacheNode Nat Nat :=
  (handleOutOfOrderAppendEntries 8 {} (exampleCall 8 11)
    (handleOutOfOrderAppendEntries 8 {} (exampleCall 5 10) {}).1).1

theorem gapNode_hasContent : gapNode.HasContent := by
  intro cache isCache
  rw [← Option.some.inj isCache]
  exact ⟨nofun, by unfold Increasing; decide, .refl _, by decide⟩

/-- A log that goes up to 10 lets the request behind 5 run and not the one behind 8. -/
theorem gapNode_leaves_request : ¬ NoneLeftBehind [(10, true)] gapNode := by
  intro holds
  obtain ⟨after, called, behind, _⟩ := holds
  rw [← Option.some.inj called] at behind
  exact absurd (behind _ List.mem_cons_self) (by decide)

theorem gapNode_at_end : NoneLeftBehind [(6, true), (9, true)] gapNode :=
  (noneLeftBehind_iff_meetsNoGap _ gapNode gapNode_hasContent).mpr
    ⟨.singleton _, fun _ called => Option.some.inj called ▸ ⟨.singleton _, fun _ _ => trivial⟩⟩

end CacheNode

end QuorumKit
