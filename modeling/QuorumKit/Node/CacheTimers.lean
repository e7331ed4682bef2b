/-
The timers of the cache of out-of-order requests.

A cache whose first timer could not be started is cleared, and `store` reports a success all
the same, so that the node keeps an empty cache and the next check of it fails.  A callback of
a timer looks for the version of its cache, which is the same for every cache, and for its own
version, which each cache counts from the start.
-/

import QuorumKit.Node.CachedRequests

namespace QuorumKit

variable {P D : Type}

namespace AppendEntriesCache

variable {cache : AppendEntriesCache P D} {world : CacheWorld P D}

/-! ### Stores that leave nothing -/

theorem trim_length (sound : Sound cache) (maxSize : Nat) (starts : Bool) (world : CacheWorld P D) :
    (cache.trim maxSize starts world).1.rpcMap.length =
      cache.rpcMap.length - (cache.rpcMap.length - maxSize) :=
  (evict_sound _ cache [] sound).2.1

theorem makeRoom_empty_iff (starts : Bool) (rpc : AppendEntriesRpc P D) (world : CacheWorld P D) :
    (cache.makeRoom starts rpc world).1.rpcMap = [] ↔
      cache.rpcMap = [] ∨ cache.needClear rpc = true := by
  unfold makeRoom
  by_cases clears : ¬ cache.rpcMap.isEmpty ∧ cache.needClear rpc
  · rw [if_pos clears]
    constructor
    · intro _
      exact Or.inr clears.2
    · intro _
      rfl
  · rw [if_neg clears]
    constructor
    · intro isEmpty
      exact Or.inl isEmpty
    · intro either
      rcases either with isEmpty | meets
      · exact isEmpty
      · by_contra filled
        apply clears
        exact ⟨fun isEmpty => filled (List.isEmpty_iff.mp isEmpty), meets⟩

theorem store_empty_iff (sound : Sound cache) {rpc : AppendEntriesRpc P D}
    (size : 0 < rpc.entriesSize)
    (fresh : rpc.address ∉ cache.rpcQueue.map AppendEntriesRpc.address) {maxSize : Nat}
    (limit : 0 < maxSize) (around : StoreSurroundings) :
    (cache.store maxSize around rpc world).1.rpcMap = [] ↔
      (cache.rpcMap = [] ∨ cache.needClear rpc = true) ∧ around.timerAdds = false := by
  obtain ⟨roomSound, free, _, subset, _⟩ := makeRoom_keeps sound around.clearStarts rpc world
  rw [← makeRoom_empty_iff around.clearStarts rpc world]
  unfold store
  generalize cache.makeRoom around.clearStarts rpc world = room at roomSound free subset ⊢
  obtain ⟨addedSound, length⟩ :=
    roomSound.push size (fun inQueue => fresh (List.map_subset _ subset inQueue)) free
  have trimmed : ∀ (other : AppendEntriesCache P D) (starts : Bool) (handled : CacheWorld P D),
      Sound other → 0 < other.rpcMap.length → (other.trim maxSize starts handled).1.rpcMap ≠ [] := by
    intro other starts handled otherSound filled isEmpty
    have left := trim_length otherSound maxSize starts handled
    rw [isEmpty, List.length_nil] at left
    omega
  simp only
  by_cases first : (room.1.push rpc).rpcMap.length = 1
  · have isEmpty : room.1.rpcMap = [] := List.length_eq_zero_iff.mp (by omega)
    rw [if_pos first]
    cases adds : around.timerAdds with
    | false =>
        rw [if_pos ⟨first, Bool.false_ne_true⟩]
        exact ⟨fun _ => ⟨isEmpty, rfl⟩, fun _ => rfl⟩
    | true =>
        rw [if_neg (fun both => both.2 rfl)]
        have startedSound : Sound ((room.1.push rpc).startTimer true room.2).1 :=
          ⟨addedSound.apart, addedSound.proper, addedSound.same, addedSound.distinct⟩
        constructor
        · intro none
          have filled : 0 < ((room.1.push rpc).startTimer true room.2).1.rpcMap.length := by
            rw [startTimer_rpcMap, first]
            exact Nat.one_pos
          exact absurd none (trimmed _ around.evictStarts
            ((room.1.push rpc).startTimer true room.2).2 startedSound filled)
        · intro both
          exact absurd both.2 Bool.noConfusion
  · rw [if_neg first, if_neg (fun both => first both.1)]
    constructor
    · intro none
      have filled : 0 < (room.1.push rpc).rpcMap.length := by omega
      exact absurd none (trimmed _ around.evictStarts room.2 addedSound filled)
    · intro both
      rw [length, both.1] at first
      exact absurd rfl first

end AppendEntriesCache

/-! ### Runs whose timers start -/

namespace CacheNode

open AppendEntriesCache

variable {node after : CacheNode P D}

/-- The request is alone in the cache once it is stored: there is no other one, or its range
meets a neighbour. -/
def StoredFirst (node : CacheNode P D) (call : OutOfOrder P D) : Prop :=
  node.cacheFor.1.rpcMap = [] ∨ node.cacheFor.1.needClear (node.newRpc call) = true

def TimerStarts : Action P D → CacheNode P D → Prop
  | .outOfOrder _ around call, node =>
      ¬ Declines call → node.StoredFirst call → around.timerAdds = true
  | _, _ => True

def NeverEmpty (node : CacheNode P D) : Prop :=
  ∀ cache, node.appendEntriesCache = some cache → cache.rpcMap ≠ []

theorem newRpc_fresh_in_cache (consistent : Consistent node) (call : OutOfOrder P D) :
    (node.newRpc call).address ∉ node.cacheFor.1.rpcQueue.map AppendEntriesRpc.address := by
  obtain ⟨_, queue, _⟩ := consistent.cacheFor
  intro member
  apply consistent.newRpc_fresh call
  apply List.map_subset _ consistent.conserved.subset
  rw [List.map_append, ← queue]
  exact List.mem_append_left _ member

theorem outOfOrder_stores (consistent : Consistent node) {call : OutOfOrder P D}
    (stores : ¬ Declines call) (maxSize : Nat) (around : StoreSurroundings) :
    (node.handleOutOfOrderAppendEntries maxSize around call).1.appendEntriesCache =
      some (node.cacheFor.1.store maxSize around (node.newRpc call) node.cacheFor.2).1 := by
  obtain ⟨_, _, taken, _⟩ := consistent.stores stores maxSize around
  unfold handleOutOfOrderAppendEntries
  rw [if_neg stores]
  simp only
  rw [taken, if_neg (fun both => both.1 rfl)]

theorem neverEmpty_dropEmpty (cache : AppendEntriesCache P D) (world : CacheWorld P D)
    (node : CacheNode P D) :
    NeverEmpty { node with appendEntriesCache := dropEmpty cache, world := world } := by
  intro kept isKept
  obtain ⟨same, filled⟩ := dropEmpty_eq_some isKept
  exact same ▸ filled

theorem NeverEmpty.step (consistent : Consistent node) (filled : node.NeverEmpty)
    {action : Action P D} (allowed : Allowed action node) (startable : TimerStarts action node)
    (stepped : step action node = some after) : after.NeverEmpty := by
  cases action with
  | outOfOrder maxSize around call =>
      rw [← Option.some.inj stepped]
      by_cases declines : Declines call
      · unfold handleOutOfOrderAppendEntries
        rw [if_pos declines]
        exact filled
      · intro cache isCache isEmpty
        rw [outOfOrder_stores consistent declines, Option.some_inj] at isCache
        subst isCache
        have empties := (store_empty_iff consistent.cacheFor.1 (entriesSize_newRpc declines node)
          (newRpc_fresh_in_cache consistent call) allowed around).mp isEmpty
        have added := startable declines empties.1
        rw [empties.2] at added
        contradiction
  | check localLastIndex starts =>
      rcases checkAppendEntriesCache_cases stepped with same | ⟨_, _, _, _, same⟩
      · exact same ▸ filled
      · subst same
        exact neverEmpty_dropEmpty _ _ _
  | clear starts =>
      rw [← Option.some.inj stepped]
      unfold clearAppendEntriesCache
      cases isCache : node.appendEntriesCache with
      | none => exact filled
      | some cache =>
          intro kept isKept
          contradiction
  | expire position =>
      obtain ⟨timer, _, isAfter⟩ := Option.map_eq_some_iff.mp stepped
      subst isAfter
      exact filled
  | timedout position adds starts =>
      obtain ⟨timer, _, handles⟩ := Option.bind_eq_some_iff.mp stepped
      rcases handleAppendEntriesCacheTimedout_cases handles with ⟨same, _⟩ | ⟨_, _, _, _, same⟩
      · exact same ▸ filled
      · subst same
        exact neverEmpty_dropEmpty _ _ _
  | dispatch position =>
      obtain ⟨rpc, rest, _, same⟩ := dispatch_cases stepped
      subst same
      exact filled

def BothFilled (node : CacheNode P D) : Prop :=
  ∀ cache, node.appendEntriesCache = some cache → cache.rpcMap ≠ [] ∧ cache.rpcQueue ≠ []

theorem neverEmpty_of_reachable (reached : (system.restrict TimerStarts).Reachable node) :
    NeverEmpty node := by
  have both : Consistent node ∧ NeverEmpty node := by
    apply reached.invariant (fun node => Consistent node ∧ NeverEmpty node)
    · intro first initial
      rw [initial]
      refine ⟨.start, ?_⟩
      intro cache isCache
      contradiction
    · intro action before after both allowed stepped
      exact ⟨both.1.step action stepped, both.2.step both.1 allowed.1 allowed.2 stepped⟩
  exact both.2

theorem Consistent.filled (consistent : Consistent node) (neverEmpty : NeverEmpty node) :
    BothFilled node := by
  intro cache isCache
  constructor
  · exact neverEmpty cache isCache
  · intro isEmpty
    apply neverEmpty cache isCache
    apply List.Perm.eq_nil
    rw [← isEmpty]
    exact (consistent.sound cache isCache).same.symm

theorem BothFilled.firstIndex (filled : BothFilled node) {cache : AppendEntriesCache P D}
    (isCache : node.appendEntriesCache = some cache) : cache.firstIndex ≠ none := by
  unfold AppendEntriesCache.firstIndex
  rw [if_neg (fun isEmpty => (filled cache isCache).2 (List.isEmpty_iff.mp isEmpty))]
  intro none
  rw [Option.map_eq_none_iff, List.head?_eq_none_iff] at none
  exact (filled cache isCache).1 none

theorem BothFilled.checks (filled : BothFilled node) (localLastIndex : Nat) (starts : Bool) :
    ∃ after, node.checkAppendEntriesCache localLastIndex starts = some after := by
  unfold checkAppendEntriesCache
  cases isCache : node.appendEntriesCache with
  | none => exact ⟨node, rfl⟩
  | some cache =>
      simp only
      unfold processRunableRpcs
      rw [if_neg (by simp [filled cache isCache])]
      simp only
      by_cases isLeft : (runable localLastIndex cache.rpcMap).2.isEmpty = true
      · rw [if_pos isLeft]
        exact ⟨_, rfl⟩
      · rw [if_neg isLeft]
        exact ⟨_, rfl⟩

theorem BothFilled.handles (filled : BothFilled node) (arg : AppendEntriesCacheTimerArg)
    (adds starts : Bool) :
    ∃ after, node.handleAppendEntriesCacheTimedout arg adds starts = some after := by
  unfold handleAppendEntriesCacheTimedout
  cases isCache : node.appendEntriesCache with
  | none => exact ⟨_, rfl⟩
  | some cache =>
      simp only
      by_cases foreign : arg.cacheVersion ≠ cache.cacheVersion
      · rw [if_pos foreign]
        exact ⟨_, rfl⟩
      rw [if_neg foreign]
      unfold doHandleAppendEntriesCacheTimedout
      by_cases stale : arg.timerVersion ≠ cache.timerVersion
      · rw [if_pos stale]
        exact ⟨_, rfl⟩
      rw [if_neg stale]
      cases isMap : cache.rpcMap with
      | nil => exact absurd isMap (filled cache isCache).1
      | cons first others =>
          cases isQueue : cache.rpcQueue with
          | nil => exact absurd isQueue (filled cache isCache).2
          | cons front rest =>
              simp only
              by_cases waited : front.receiveTimeMs ≤ arg.timerStartMs
              · rw [if_pos waited]
                exact ⟨_, rfl⟩
              rw [if_neg waited]
              cases adds with
              | true => exact ⟨_, rfl⟩
              | false => exact ⟨_, rfl⟩

theorem unstarted_empty (consistent : Consistent node) {action : Action P D}
    (allowed : Allowed action node) (unstarted : ¬ TimerStarts action node) :
    ∃ after cache, step action node = some after ∧ after.appendEntriesCache = some cache ∧
      cache.rpcMap = [] := by
  cases action with
  | outOfOrder maxSize around call =>
      have declines : ¬ Declines call := by
        intro declines
        exact unstarted (fun stores => absurd declines stores)
      have first : node.StoredFirst call := by
        by_contra notFirst
        exact unstarted (fun _ first => absurd first notFirst)
      have fails : around.timerAdds = false := by
        apply Bool.eq_false_of_not_eq_true
        intro adds
        exact unstarted (fun _ _ => adds)
      refine ⟨_, _, rfl, outOfOrder_stores consistent declines maxSize around, ?_⟩
      exact (store_empty_iff consistent.cacheFor.1 (entriesSize_newRpc declines node)
        (newRpc_fresh_in_cache consistent call) allowed around).mpr ⟨first, fails⟩
  | check localLastIndex starts => exact absurd trivial unstarted
  | clear starts => exact absurd trivial unstarted
  | expire position => exact absurd trivial unstarted
  | timedout position adds starts => exact absurd trivial unstarted
  | dispatch position => exact absurd trivial unstarted

/-- Along a run whose first timers start the node never keeps an empty cache, so that no check
of the cache fails.  A store that cannot start the timer it needs leaves an empty one. -/
theorem cache_never_empty (reached : (system.restrict TimerStarts).Reachable node) :
    (∀ cache, node.appendEntriesCache = some cache →
      cache.rpcMap ≠ [] ∧ cache.rpcQueue ≠ [] ∧ cache.firstIndex ≠ none) ∧
      (∀ localLastIndex starts, ∃ after,
        node.checkAppendEntriesCache localLastIndex starts = some after) ∧
      (∀ position timer adds starts, node.world.timedout[position]? = some timer →
        ∃ after, node.timedout position adds starts = some after) ∧
      (∀ action, Allowed action node → ¬ TimerStarts action node →
        ∃ after cache, step action node = some after ∧ after.appendEntriesCache = some cache ∧
          cache.rpcMap = []) := by
  have consistent := consistent_of_reachable reached.of_restrict
  have filled := consistent.filled (neverEmpty_of_reachable reached)
  refine ⟨?_, filled.checks, ?_, ?_⟩
  · intro cache isCache
    exact ⟨(filled cache isCache).1, (filled cache isCache).2, filled.firstIndex isCache⟩
  · intro position timer adds starts found
    have finished : BothFilled (node.finish position) := filled
    unfold CacheNode.timedout
    rw [found, Option.bind_some]
    exact finished.handles timer.arg adds starts
  · intro action allowed unstarted
    exact unstarted_empty consistent allowed unstarted

def unstartedNode : CacheNode Nat Nat :=
  (handleOutOfOrderAppendEntries 8 { timerAdds := false } (exampleCall 5 10) {}).1

def unstartedRun : List (Action Nat Nat) := [.outOfOrder 8 { timerAdds := false } (exampleCall 5 10)]

/-- The node keeps an empty cache, and the check of the next request ends the process. -/
theorem unstartedNode_empty :
    system.Reachable unstartedNode ∧
      (∃ cache, unstartedNode.appendEntriesCache = some cache ∧ cache.rpcMap = []) ∧
      unstartedNode.checkAppendEntriesCache 6 true = none :=
  ⟨TransitionSystem.Reachable.follows unstartedRun (.start rfl) ⟨Nat.succ_pos 7, _, rfl, rfl⟩,
    ⟨_, rfl, rfl⟩, rfl⟩

def startedRun : List (Action Nat Nat) := [.outOfOrder 8 {} (exampleCall 5 10)]

theorem startedNode_never_empty :
    ∃ after, (handleOutOfOrderAppendEntries 8 {} (exampleCall 5 10)
      ({} : CacheNode Nat Nat)).1.checkAppendEntriesCache 4 true = some after :=
  (cache_never_empty (TransitionSystem.Reachable.follows startedRun (.start rfl)
    ⟨⟨Nat.succ_pos 7, fun _ _ => rfl⟩, _, rfl, rfl⟩)).2.1 4 true

end CacheNode

/-! ### Versions -/

namespace AppendEntriesCache

def Unversioned (cache : AppendEntriesCache P D) (world : CacheWorld P D) : Prop :=
  cache.cacheVersion = 0 ∧ ∀ timer ∈ world.timers ++ world.timedout, timer.arg.cacheVersion = 0

variable {cache : AppendEntriesCache P D} {world : CacheWorld P D}

theorem Unversioned.congr (plain : Unversioned cache world) {other : AppendEntriesCache P D}
    {around : CacheWorld P D} (version : other.cacheVersion = cache.cacheVersion)
    (timers : ∀ timer ∈ around.timers ++ around.timedout, timer ∈ world.timers ++ world.timedout) :
    Unversioned other around :=
  ⟨version.trans plain.1, fun timer member => plain.2 timer (timers timer member)⟩

theorem Unversioned.startToHandle (plain : Unversioned cache world) (starts : Bool)
    (rpcs : List (AppendEntriesRpc P D)) : Unversioned cache (startToHandle starts rpcs world) := by
  unfold AppendEntriesCache.startToHandle
  cases starts with
  | true => exact plain
  | false => exact plain

theorem Unversioned.startTimer (plain : Unversioned cache world) (adds : Bool) :
    Unversioned (cache.startTimer adds world).1 (cache.startTimer adds world).2 := by
  unfold AppendEntriesCache.startTimer
  cases adds with
  | false => exact plain
  | true =>
      refine ⟨plain.1, ?_⟩
      intro timer member
      rcases List.mem_append.mp member with waits | called
      · rcases List.mem_append.mp waits with isOld | isNew
        · exact plain.2 timer (List.mem_append_left _ isOld)
        · rw [List.mem_singleton.mp isNew]
          exact plain.1
      · exact plain.2 timer (List.mem_append_right _ called)

theorem Unversioned.stopTimer (plain : Unversioned cache world) :
    Unversioned (cache.stopTimer world).1 (cache.stopTimer world).2 := by
  unfold AppendEntriesCache.stopTimer
  cases cache.timer with
  | none => exact plain
  | some timer =>
      simp only
      by_cases waits : (world.timers.any (fun waiting => waiting.timer = timer)) = true
      · rw [if_pos waits]
        apply plain.congr rfl
        intro other member
        rcases List.mem_append.mp member with isLeft | called
        · exact List.mem_append_left _ (List.mem_of_mem_filter isLeft)
        · exact List.mem_append_right _ called
      · rw [if_neg waits]
        exact plain

theorem Unversioned.clear (plain : Unversioned cache world) (starts : Bool) :
    Unversioned (cache.clear starts world).1 (cache.clear starts world).2 := by
  unfold AppendEntriesCache.clear
  have stopped := plain.stopTimer.startToHandle starts (cache.stopTimer world).1.rpcQueue
  exact ⟨stopped.1, stopped.2⟩

theorem Unversioned.trim (plain : Unversioned cache world) (maxSize : Nat) (starts : Bool) :
    Unversioned (cache.trim maxSize starts world).1 (cache.trim maxSize starts world).2 := by
  have versions := evict_versions (cache.rpcMap.length - maxSize) cache []
  unfold AppendEntriesCache.trim
  generalize evict (cache.rpcMap.length - maxSize) cache [] = evicted at versions ⊢
  simp only
  cases evicted.2.isEmpty with
  | true => exact ⟨versions.2.trans plain.1, plain.2⟩
  | false => exact ⟨versions.2.trans plain.1, (plain.startToHandle starts evicted.2).2⟩

theorem Unversioned.store (plain : Unversioned cache world) (maxSize : Nat)
    (around : StoreSurroundings) (rpc : AppendEntriesRpc P D) :
    Unversioned (cache.store maxSize around rpc world).1
      (cache.store maxSize around rpc world).2.1 := by
  have room : Unversioned (cache.makeRoom around.clearStarts rpc world).1
      (cache.makeRoom around.clearStarts rpc world).2 := by
    unfold makeRoom
    by_cases clears : ¬ cache.rpcMap.isEmpty ∧ cache.needClear rpc
    · rw [if_pos clears]
      exact plain.clear _
    · rw [if_neg clears]
      exact plain
  unfold AppendEntriesCache.store
  generalize cache.makeRoom around.clearStarts rpc world = made at room ⊢
  have added : Unversioned (made.1.push rpc) made.2 := room.congr rfl (fun _ member => member)
  simp only
  by_cases first : (made.1.push rpc).rpcMap.length = 1
  · rw [if_pos first]
    by_cases fails : (made.1.push rpc).rpcMap.length = 1 ∧ ¬ around.timerAdds = true
    · rw [if_pos fails]
      exact (added.startTimer _).clear _
    · rw [if_neg fails]
      exact (added.startTimer _).trim _ _
  · rw [if_neg first, if_neg (fun both => first both.1)]
    exact added.trim _ _

theorem Unversioned.processRunableRpcs (plain : Unversioned cache world) {localLastIndex : Nat}
    {starts : Bool} {processed : AppendEntriesCache P D × CacheWorld P D}
    (called : cache.processRunableRpcs localLastIndex starts world = some processed) :
    Unversioned processed.1 processed.2 := by
  unfold AppendEntriesCache.processRunableRpcs at called
  by_cases isEmpty : cache.rpcMap.isEmpty ∨ cache.rpcQueue.isEmpty
  · rw [if_pos isEmpty] at called
    contradiction
  rw [if_neg isEmpty] at called
  simp only at called
  generalize runable localLastIndex cache.rpcMap = parts at called
  have handled : Unversioned
      { cache with
        rpcQueue := parts.1.foldl (fun queue rpc => removeFromList rpc queue) cache.rpcQueue
        rpcMap := parts.2 }
      (if parts.1.isEmpty then world else AppendEntriesCache.startToHandle starts parts.1 world) := by
    apply plain.congr rfl
    intro timer member
    cases isTaken : parts.1.isEmpty with
    | true =>
        rw [isTaken] at member
        exact member
    | false =>
        rw [isTaken] at member
        cases starts with
        | true => exact member
        | false => exact member
  by_cases isLeft : parts.2.isEmpty = true
  · rw [if_pos isLeft, Option.some_inj] at called
    exact called ▸ handled.stopTimer
  · rw [if_neg isLeft, Option.some_inj] at called
    exact called ▸ handled

theorem Unversioned.timedout (plain : Unversioned cache world) {timerVersion timerStartMs : Nat}
    {adds starts : Bool} {handled : AppendEntriesCache P D × CacheWorld P D}
    (called : cache.doHandleAppendEntriesCacheTimedout timerVersion timerStartMs adds starts world =
      some handled) :
    Unversioned handled.1 handled.2 := by
  unfold doHandleAppendEntriesCacheTimedout at called
  by_cases stale : timerVersion ≠ cache.timerVersion
  · rw [if_pos stale, Option.some_inj] at called
    exact called ▸ plain
  rw [if_neg stale] at called
  cases isMap : cache.rpcMap with
  | nil =>
      rw [isMap] at called
      contradiction
  | cons first others =>
      cases isQueue : cache.rpcQueue with
      | nil =>
          rw [isMap, isQueue] at called
          contradiction
      | cons front rest =>
          rw [isMap, isQueue] at called
          simp only at called
          by_cases waited : front.receiveTimeMs ≤ timerStartMs
          · rw [if_pos waited, Option.some_inj] at called
            exact called ▸ plain.clear starts
          · rw [if_neg waited] at called
            cases adds with
            | true => exact Option.some.inj called ▸ plain.startTimer true
            | false => exact Option.some.inj called ▸ (plain.startTimer false).clear starts

end AppendEntriesCache

/-! ### Callbacks of earlier caches -/

namespace CacheNode

open AppendEntriesCache

variable {node after : CacheNode P D}

structure VersionZero (node : CacheNode P D) : Prop where
  cache : ∀ cache, node.appendEntriesCache = some cache → cache.cacheVersion = 0
  timers : ∀ timer ∈ node.world.timers ++ node.world.timedout, timer.arg.cacheVersion = 0

theorem VersionZero.unversioned (zero : VersionZero node) {cache : AppendEntriesCache P D}
    (isCache : node.appendEntriesCache = some cache) : Unversioned cache node.world :=
  ⟨zero.cache cache isCache, zero.timers⟩

theorem VersionZero.dropEmpty {cache : AppendEntriesCache P D} {world : CacheWorld P D}
    (plain : Unversioned cache world) (node : CacheNode P D) :
    VersionZero { node with appendEntriesCache := dropEmpty cache, world := world } := by
  refine ⟨?_, plain.2⟩
  intro kept isKept
  obtain ⟨same, _⟩ := dropEmpty_eq_some isKept
  exact same ▸ plain.1

theorem VersionZero.cacheFor (zero : VersionZero node) :
    Unversioned node.cacheFor.1 node.cacheFor.2 := by
  unfold CacheNode.cacheFor
  cases isCache : node.appendEntriesCache with
  | none => exact ⟨rfl, zero.timers⟩
  | some cache => exact zero.unversioned isCache

theorem VersionZero.expire (zero : VersionZero node) {position : Nat}
    (stepped : node.expire position = some after) : VersionZero after := by
  obtain ⟨timer, found, isAfter⟩ := Option.map_eq_some_iff.mp stepped
  subst isAfter
  refine ⟨zero.cache, ?_⟩
  intro other member
  apply zero.timers
  rcases List.mem_append.mp member with waits | called
  · exact List.mem_append_left _ (List.mem_of_mem_eraseIdx waits)
  · rcases List.mem_append.mp called with isOld | isNew
    · exact List.mem_append_right _ isOld
    · rw [List.mem_singleton.mp isNew]
      exact List.mem_append_left _ (List.mem_of_getElem? found)

theorem VersionZero.finish (zero : VersionZero node) (position : Nat) :
    VersionZero (node.finish position) := by
  refine ⟨zero.cache, ?_⟩
  intro other member
  apply zero.timers
  rcases List.mem_append.mp member with waits | called
  · exact List.mem_append_left _ waits
  · exact List.mem_append_right _ (List.mem_of_mem_eraseIdx called)

theorem VersionZero.step (zero : VersionZero node) {action : Action P D}
    (stepped : step action node = some after) : VersionZero after := by
  cases action with
  | outOfOrder maxSize around call =>
      rw [← Option.some.inj stepped]
      unfold handleOutOfOrderAppendEntries
      by_cases declines : Declines call
      · rw [if_pos declines]
        exact zero
      rw [if_neg declines]
      have stored := zero.cacheFor.store maxSize around (node.newRpc call)
      refine ⟨?_, stored.2⟩
      intro cache isCache
      simp only at isCache
      by_cases fails : ¬ (node.cacheFor.1.store maxSize around (node.newRpc call)
          node.cacheFor.2).2.2 = true ∧ (node.cacheFor.1.store maxSize around (node.newRpc call)
            node.cacheFor.2).1.isEmpty = true
      · rw [if_pos fails] at isCache
        contradiction
      · rw [if_neg fails, Option.some_inj] at isCache
        exact isCache ▸ stored.1
  | check localLastIndex starts =>
      rcases checkAppendEntriesCache_cases stepped with
        same | ⟨cache, processed, isCache, processes, same⟩
      · exact same ▸ zero
      · subst same
        exact .dropEmpty ((zero.unversioned isCache).processRunableRpcs processes) node
  | clear starts =>
      rw [← Option.some.inj stepped]
      unfold clearAppendEntriesCache
      cases isCache : node.appendEntriesCache with
      | none => exact zero
      | some cache => exact ⟨nofun, ((zero.unversioned isCache).clear starts).2⟩
  | expire position => exact zero.expire stepped
  | timedout position adds starts =>
      obtain ⟨timer, _, handles⟩ := Option.bind_eq_some_iff.mp stepped
      have finished := zero.finish position
      rcases handleAppendEntriesCacheTimedout_cases handles with
        ⟨same, _⟩ | ⟨cache, handled, isCache, processes, same⟩
      · exact same ▸ finished
      · subst same
        exact .dropEmpty ((finished.unversioned isCache).timedout processes) _
  | dispatch position =>
      obtain ⟨rpc, rest, _, same⟩ := dispatch_cases stepped
      subst same
      exact ⟨zero.cache, zero.timers⟩

theorem versionZero_of_reachable (reached : system.Reachable node) : VersionZero node := by
  apply reached.invariant VersionZero
  · intro first initial
    rw [initial]
    refine ⟨?_, ?_⟩
    · intro cache isCache
      contradiction
    · intro timer member
      contradiction
  · intro action before after zero _ stepped
    exact zero.step stepped

/-- The timer was added by a cache that is gone; the live cache is the last one created. -/
def OfEarlierCache (node : CacheNode P D) (timer : CacheTimer) : Prop :=
  node.appendEntriesCache ≠ none ∧ timer.armedBy < node.world.appendEntriesCacheVersion

/-- The callback changes nothing but that it does not wait any more: no request leaves the
cache, no timer is added or deleted, and the cache has the same version of its timer. -/
def Untouched (position : Nat) (adds starts : Bool) (node : CacheNode P D) : Prop :=
  ∃ after, node.timedout position adds starts = some after ∧
    after.world = (node.finish position).world ∧ after.queued = node.queued ∧
    ∀ cache, after.appendEntriesCache = some cache → node.appendEntriesCache = some cache

theorem queued_dropEmpty {cache : AppendEntriesCache P D} (sound : cache.Sound)
    (world : CacheWorld P D) (node : CacheNode P D) :
    queued { node with appendEntriesCache := dropEmpty cache, world := world } = cache.rpcQueue := by
  unfold queued dropEmpty AppendEntriesCache.isEmpty
  cases isMap : cache.rpcMap with
  | nil =>
      symm
      apply List.Perm.eq_nil
      rw [← isMap]
      exact sound.same
  | cons rpc rest => rfl

theorem touched_of_same_version (zero : VersionZero node) {position : Nat} {timer : CacheTimer}
    {cache : AppendEntriesCache P D}
    (found : node.world.timedout[position]? = some timer)
    (isCache : node.appendEntriesCache = some cache)
    (same : timer.arg.timerVersion = cache.timerVersion) (adds starts : Bool) :
    ¬ Untouched position adds starts node := by
  intro untouched
  obtain ⟨after, handles, world, queue, _⟩ := untouched
  have isQueue : node.queued = cache.rpcQueue := by
    unfold queued
    rw [isCache]
  unfold CacheNode.timedout at handles
  rw [found, Option.bind_some] at handles
  unfold handleAppendEntriesCacheTimedout at handles
  have isLive : (node.finish position).appendEntriesCache = some cache := isCache
  rw [isLive] at handles
  have version : timer.arg.cacheVersion = cache.cacheVersion :=
    (zero.timers timer (List.mem_append_right _ (List.mem_of_getElem? found))).trans
      (zero.cache cache isCache).symm
  simp only at handles
  rw [if_neg (fun foreign => foreign version)] at handles
  obtain ⟨handled, processes, isAfter⟩ := Option.map_eq_some_iff.mp handles
  subst isAfter
  unfold doHandleAppendEntriesCacheTimedout at processes
  rw [if_neg (fun stale => stale same)] at processes
  cases isMap : cache.rpcMap with
  | nil =>
      rw [isMap] at processes
      contradiction
  | cons first others =>
      cases isFront : cache.rpcQueue with
      | nil =>
          rw [isMap, isFront] at processes
          contradiction
      | cons front rest =>
          rw [isMap, isFront] at processes
          simp only at processes
          rw [isQueue, isFront] at queue
          by_cases waited : front.receiveTimeMs ≤ timer.arg.timerStartMs
          · rw [if_pos waited, Option.some_inj] at processes
            subst processes
            contradiction
          · rw [if_neg waited] at processes
            cases adds with
            | true =>
                rw [if_pos rfl, Option.some_inj] at processes
                subst processes
                have timers := congrArg (fun world => world.timers.length) world
                simp only [startTimer, if_pos] at timers
                rw [List.length_append, List.length_singleton] at timers
                exact absurd timers (Nat.succ_ne_self _)
            | false =>
                rw [if_neg Bool.false_ne_true, Option.some_inj] at processes
                subst processes
                contradiction

theorem untouched_of_other_version (consistent : Consistent node) {position : Nat}
    {timer : CacheTimer} {cache : AppendEntriesCache P D}
    (found : node.world.timedout[position]? = some timer)
    (isCache : node.appendEntriesCache = some cache)
    (other : timer.arg.timerVersion ≠ cache.timerVersion) (adds starts : Bool) :
    Untouched position adds starts node := by
  have isQueue : node.queued = cache.rpcQueue := by
    unfold queued
    rw [isCache]
  have isLive : (node.finish position).appendEntriesCache = some cache := isCache
  unfold Untouched CacheNode.timedout
  rw [found, Option.bind_some]
  unfold handleAppendEntriesCacheTimedout
  rw [isLive]
  simp only
  by_cases foreign : timer.arg.cacheVersion ≠ cache.cacheVersion
  · rw [if_pos foreign]
    exact ⟨_, rfl, rfl, rfl, fun _ isSame => isSame⟩
  rw [if_neg foreign]
  unfold doHandleAppendEntriesCacheTimedout
  rw [if_pos other]
  refine ⟨_, rfl, rfl, ?_, ?_⟩
  · rw [isQueue]
    exact queued_dropEmpty (consistent.sound cache isCache) _ (node.finish position)
  · intro kept isKept
    obtain ⟨same, _⟩ := dropEmpty_eq_some isKept
    exact same ▸ isCache

/-- In every state a callback of an earlier cache leaves the live one alone exactly if the two
caches have counted their timers differently. -/
theorem earlier_callback_untouched_iff (reached : system.Reachable node) {position : Nat}
    {timer : CacheTimer} (found : node.world.timedout[position]? = some timer)
    (adds starts : Bool) :
    (OfEarlierCache node timer → Untouched position adds starts node) ↔
      (OfEarlierCache node timer → ∀ cache, node.appendEntriesCache = some cache →
        timer.arg.timerVersion ≠ cache.timerVersion) := by
  have consistent := consistent_of_reachable reached
  have zero := versionZero_of_reachable reached
  constructor
  · intro leaves earlier cache isCache same
    exact touched_of_same_version zero found isCache same adds starts (leaves earlier)
  · intro differs earlier
    cases isCache : node.appendEntriesCache with
    | none => exact absurd isCache earlier.1
    | some cache =>
        exact untouched_of_other_version consistent found isCache (differs earlier cache isCache)
          adds starts

/-- The timer of the first cache has run out, its request is taken out before the callback gets
the mutex, and another request makes a second cache. -/
def recreatedRun : List (Action Nat Nat) :=
  [.outOfOrder 8 {} (exampleCall 5 10), .expire 0, .check 5 true,
    .outOfOrder 8 {} (exampleCall 9 20)]

def recreatedNode : Option (CacheNode Nat Nat) :=
  (((handleOutOfOrderAppendEntries 8 {} (exampleCall 5 10) {}).1.expire 0).bind
    (checkAppendEntriesCache 5 true)).map
      (fun node => (node.handleOutOfOrderAppendEntries 8 {} (exampleCall 9 20)).1)

theorem recreatedNode_reachable {node : CacheNode Nat Nat} (ends : recreatedNode = some node) :
    system.Reachable node :=
  TransitionSystem.Reachable.follows recreatedRun (.start rfl)
    ⟨Nat.succ_pos 7, _, rfl, trivial, _, rfl, trivial, _, rfl, Nat.succ_pos 7, _, ends, rfl⟩

theorem recreatedNode_touched :
    ∃ node timer, recreatedNode = some node ∧ system.Reachable node ∧
      node.world.timedout[0]? = some timer ∧ OfEarlierCache node timer ∧
      ¬ Untouched 0 true true node :=
  ⟨_, _, rfl, recreatedNode_reachable rfl, rfl, ⟨nofun, by decide⟩,
    touched_of_same_version (versionZero_of_reachable (recreatedNode_reachable rfl)) rfl rfl rfl
      true true⟩

def repeatedNode : Option (CacheNode Nat Nat) :=
  recreatedNode.map (fun node => (node.handleOutOfOrderAppendEntries 8 {} (exampleCall 9 21)).1)

def repeatedRun : List (Action Nat Nat) := [.outOfOrder 8 {} (exampleCall 9 21)]

theorem repeatedNode_reachable {node : CacheNode Nat Nat} (ends : repeatedNode = some node) :
    system.Reachable node :=
  TransitionSystem.Reachable.follows repeatedRun (recreatedNode_reachable rfl)
    ⟨Nat.succ_pos 7, _, ends, rfl⟩

theorem repeatedNode_untouched :
    ∃ node timer, repeatedNode = some node ∧ node.world.timedout[0]? = some timer ∧
      OfEarlierCache node timer ∧ Untouched 0 true true node := by
  refine ⟨_, _, rfl, rfl, ⟨nofun, by decide⟩, ?_⟩
  refine (earlier_callback_untouched_iff (repeatedNode_reachable rfl) rfl true true).mpr ?_
    ⟨nofun, by decide⟩
  intro _ cache isCache same
  rw [← Option.some.inj isCache] at same
  exact absurd same (by decide)

end CacheNode

end QuorumKit
