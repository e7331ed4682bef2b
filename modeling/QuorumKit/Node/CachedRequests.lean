/-
What the cache of out-of-order requests keeps.

The map and the queue have the same requests, whose ranges lie apart from each other.  A
request that leaves one of them leaves both and goes to a thread or is answered, so that
each stored request is at one place at any time.
-/

import QuorumKit.Node.AppendEntriesCache

namespace QuorumKit

variable {P D : Type}

/-- The requests that the cache has given away. -/
def CacheWorld.settled (world : CacheWorld P D) : List (AppendEntriesRpc P D) :=
  world.handlers.flatten ++ world.redispatched ++ world.failed

namespace AppendEntriesCache

structure Sound (cache : AppendEntriesCache P D) : Prop where
  apart : Spans.Apart AppendEntriesRpc.prevLogIndex AppendEntriesRpc.lastIndex cache.rpcMap
  proper : ∀ rpc ∈ cache.rpcMap, rpc.prevLogIndex < rpc.lastIndex
  same : cache.rpcQueue.Perm cache.rpcMap
  distinct : (cache.rpcQueue.map AppendEntriesRpc.address).Nodup

/-- A timer that waits, or whose callback waits, has the versions of the cache. -/
def Watched (cache : AppendEntriesCache P D) (world : CacheWorld P D) : Prop :=
  ∃ timer ∈ world.timers ++ world.timedout,
    timer.arg.timerVersion = cache.timerVersion ∧ timer.arg.cacheVersion = cache.cacheVersion

variable {cache : AppendEntriesCache P D} {world : CacheWorld P D}

theorem sound_of_empty (queue : cache.rpcQueue = []) (map : cache.rpcMap = []) : Sound cache := by
  constructor
  · rw [map]
    exact List.Pairwise.nil
  · intro rpc member
    rw [map] at member
    contradiction
  · rw [queue, map]
  · rw [queue]
    exact List.nodup_nil

/-! ### The timer -/

@[simp] theorem startTimer_rpcQueue (adds : Bool) :
    (cache.startTimer adds world).1.rpcQueue = cache.rpcQueue := by
  unfold startTimer
  cases adds with
  | false => rfl
  | true => rfl

@[simp] theorem startTimer_rpcMap (adds : Bool) :
    (cache.startTimer adds world).1.rpcMap = cache.rpcMap := by
  unfold startTimer
  cases adds with
  | false => rfl
  | true => rfl

@[simp] theorem startTimer_settled (adds : Bool) :
    (cache.startTimer adds world).2.settled = world.settled := by
  unfold startTimer
  cases adds with
  | false => rfl
  | true => rfl

theorem startTimer_watched :
    Watched (cache.startTimer true world).1 (cache.startTimer true world).2 := by
  refine ⟨_, List.mem_append_left _ (List.mem_append_right _ (List.mem_singleton.mpr rfl)), ?_⟩
  exact ⟨rfl, rfl⟩

theorem stopTimer_keeps (cache : AppendEntriesCache P D) (world : CacheWorld P D) :
    (cache.stopTimer world).1.rpcQueue = cache.rpcQueue ∧
      (cache.stopTimer world).1.rpcMap = cache.rpcMap ∧
      (cache.stopTimer world).2.settled = world.settled := by
  unfold stopTimer
  cases cache.timer with
  | none => exact ⟨rfl, rfl, rfl⟩
  | some timer =>
      simp only
      by_cases waits : (world.timers.any (fun waiting => waiting.timer = timer)) = true
      · rw [if_pos waits]
        exact ⟨rfl, rfl, rfl⟩
      · rw [if_neg waits]
        exact ⟨rfl, rfl, rfl⟩

/-! ### Requests that leave the cache -/

theorem startToHandle_settled (starts : Bool) (rpcs : List (AppendEntriesRpc P D))
    (world : CacheWorld P D) :
    (startToHandle starts rpcs world).settled.Perm (rpcs ++ world.settled) := by
  unfold startToHandle CacheWorld.settled
  cases starts with
  | true =>
      change ((world.handlers ++ [rpcs]).flatten ++ world.redispatched ++ world.failed).Perm _
      rw [List.flatten_append, List.flatten_singleton]
      simp only [List.append_assoc]
      exact List.perm_append_comm_assoc _ _ _
  | false =>
      rw [if_neg Bool.false_ne_true]
      change ((_ ++ _) ++ (world.failed ++ rpcs)).Perm _
      rw [← List.append_assoc]
      exact List.perm_append_comm

theorem startToHandle_watched {starts : Bool} {rpcs : List (AppendEntriesRpc P D)}
    (watched : Watched cache world) : Watched cache (startToHandle starts rpcs world) := by
  unfold startToHandle
  cases starts with
  | true => exact watched
  | false => exact watched

@[simp] theorem clear_rpcQueue (starts : Bool) : (cache.clear starts world).1.rpcQueue = [] := rfl

@[simp] theorem clear_rpcMap (starts : Bool) : (cache.clear starts world).1.rpcMap = [] := rfl

theorem clear_settled (starts : Bool) (cache : AppendEntriesCache P D) (world : CacheWorld P D) :
    (cache.clear starts world).2.settled.Perm (cache.rpcQueue ++ world.settled) := by
  obtain ⟨queue, _, settled⟩ := stopTimer_keeps cache world
  unfold clear
  rw [← settled, ← queue]
  exact startToHandle_settled _ _ _

theorem removeFromList_perm {queue rest : List (AppendEntriesRpc P D)} {rpc : AppendEntriesRpc P D}
    (same : queue.Perm (rpc :: rest)) (distinct : (queue.map AppendEntriesRpc.address).Nodup) :
    (removeFromList rpc queue).Perm rest := by
  have others : (rpc.address :: rest.map AppendEntriesRpc.address).Nodup :=
    (same.map AppendEntriesRpc.address).nodup_iff.mp distinct
  have absent := (List.nodup_cons.mp others).1
  unfold removeFromList
  apply (same.filter _).trans
  rw [List.filter_cons_of_neg (by simp)]
  rw [List.filter_eq_self.mpr]
  intro other member
  apply decide_eq_true
  intro isSame
  exact absent (isSame ▸ List.mem_map_of_mem member)

theorem removeFromList_distinct {queue : List (AppendEntriesRpc P D)} (rpc : AppendEntriesRpc P D)
    (distinct : (queue.map AppendEntriesRpc.address).Nodup) :
    ((removeFromList rpc queue).map AppendEntriesRpc.address).Nodup :=
  distinct.sublist (List.filter_sublist.map _)

theorem evict_sound (excess : Nat) :
    ∀ (cache : AppendEntriesCache P D) (released : List (AppendEntriesRpc P D)), Sound cache →
      Sound (evict excess cache released).1 ∧
        (evict excess cache released).1.rpcMap.length = cache.rpcMap.length - excess ∧
        ((evict excess cache released).1.rpcQueue ++ (evict excess cache released).2).Perm
          (cache.rpcQueue ++ released) := by
  induction excess with
  | zero =>
      intro cache released sound
      exact ⟨sound, rfl, List.Perm.refl _⟩
  | succ excess ih =>
      intro cache released sound
      unfold evict
      cases isLast : cache.rpcMap.getLast? with
      | none =>
          have empty := List.getLast?_eq_none_iff.mp isLast
          refine ⟨sound, ?_, List.Perm.refl _⟩
          change cache.rpcMap.length = _
          rw [empty]
          simp
      | some rpc =>
          obtain ⟨front, isFront⟩ := List.getLast?_eq_some_iff.mp isLast
          have drops : cache.rpcMap.dropLast = front := by rw [isFront, List.dropLast_concat]
          have ordered : cache.rpcQueue.Perm (rpc :: front) := by
            apply sound.same.trans
            rw [isFront]
            exact List.perm_append_comm
          have removed := removeFromList_perm ordered sound.distinct
          have smaller : Sound
              { cache with
                rpcQueue := removeFromList rpc cache.rpcQueue
                rpcMap := cache.rpcMap.dropLast } := by
            constructor
            · exact sound.apart.sublist (List.dropLast_sublist _)
            · intro other member
              exact sound.proper other (List.dropLast_subset _ member)
            · change (removeFromList rpc cache.rpcQueue).Perm cache.rpcMap.dropLast
              rw [drops]
              exact removed
            · exact removeFromList_distinct rpc sound.distinct
          obtain ⟨kept, length, settled⟩ := ih _ (released ++ [rpc]) smaller
          refine ⟨kept, ?_, ?_⟩
          · apply length.trans
            change cache.rpcMap.dropLast.length - excess = _
            rw [List.length_dropLast]
            omega
          · apply settled.trans
            change (removeFromList rpc cache.rpcQueue ++ (released ++ [rpc])).Perm _
            apply (removed.append_right _).trans
            apply List.Perm.trans _ (ordered.symm.append_right _)
            rw [← List.append_assoc]
            exact List.perm_append_comm

theorem evict_versions (excess : Nat) :
    ∀ (cache : AppendEntriesCache P D) (released : List (AppendEntriesRpc P D)),
      (evict excess cache released).1.timerVersion = cache.timerVersion ∧
        (evict excess cache released).1.cacheVersion = cache.cacheVersion := by
  induction excess with
  | zero =>
      intro cache released
      exact ⟨rfl, rfl⟩
  | succ excess ih =>
      intro cache released
      unfold evict
      cases cache.rpcMap.getLast? with
      | none => exact ⟨rfl, rfl⟩
      | some rpc => exact ih _ _

theorem trim_keeps (sound : Sound cache) (maxSize : Nat) (starts : Bool) (world : CacheWorld P D) :
    Sound (cache.trim maxSize starts world).1 ∧
      (cache.trim maxSize starts world).1.rpcMap.length ≤ maxSize ∧
      ((cache.trim maxSize starts world).1.rpcQueue ++
        (cache.trim maxSize starts world).2.settled).Perm (cache.rpcQueue ++ world.settled) ∧
      (Watched cache world →
        Watched (cache.trim maxSize starts world).1 (cache.trim maxSize starts world).2) := by
  obtain ⟨kept, length, moved⟩ := evict_sound (cache.rpcMap.length - maxSize) cache [] sound
  obtain ⟨timerVersion, cacheVersion⟩ := evict_versions (cache.rpcMap.length - maxSize) cache []
  unfold trim
  generalize evict (cache.rpcMap.length - maxSize) cache [] = evicted at *
  rw [List.append_nil] at moved
  have same : Watched cache world → Watched evicted.1 world := by
    intro watched
    unfold Watched
    rw [timerVersion, cacheVersion]
    exact watched
  simp only
  refine ⟨kept, by omega, ?_, ?_⟩
  · cases isReleased : evicted.2 with
    | nil =>
        rw [isReleased, List.append_nil] at moved
        exact moved.append_right _
    | cons rpc rest =>
        rw [← isReleased, if_neg (by rw [isReleased]; exact Bool.false_ne_true)]
        apply ((startToHandle_settled _ _ _).append_left _).trans
        rw [← List.append_assoc]
        exact moved.append_right _
  · intro watched
    cases evicted.2.isEmpty with
    | true => exact same watched
    | false => exact startToHandle_watched (same watched)

/-! ### A new request -/

theorem needClear_iff {rpc : AppendEntriesRpc P D} :
    cache.needClear rpc = true ↔
      Spans.MeetsFormer AppendEntriesRpc.prevLogIndex AppendEntriesRpc.lastIndex rpc cache.rpcMap ∨
        Spans.MeetsLater AppendEntriesRpc.prevLogIndex AppendEntriesRpc.lastIndex rpc
          cache.rpcMap := by
  unfold needClear Spans.MeetsFormer Spans.MeetsLater
  simp only [Bool.or_eq_true, Option.any_eq_true, decide_eq_true_eq]
  rfl

theorem Sound.push (sound : Sound cache) {rpc : AppendEntriesRpc P D} (size : 0 < rpc.entriesSize)
    (fresh : rpc.address ∉ cache.rpcQueue.map AppendEntriesRpc.address)
    (free : cache.needClear rpc = false) :
    Sound (cache.push rpc) ∧ (cache.push rpc).rpcMap.length = cache.rpcMap.length + 1 := by
  have rpcProper : rpc.prevLogIndex < rpc.lastIndex := by
    unfold AppendEntriesRpc.lastIndex
    omega
  have noMeeting := mt needClear_iff.mpr (by rw [free]; exact Bool.false_ne_true)
  have former := mt Or.inl noMeeting
  have later := mt Or.inr noMeeting
  have inserted := Spans.insert_perm rpcProper later
  refine ⟨?_, inserted.length_eq⟩
  constructor
  · exact sound.apart.insert sound.proper rpcProper former later
  · intro other member
    rcases List.mem_cons.mp (inserted.subset member) with isNew | isOld
    · rw [isNew]
      exact rpcProper
    · exact sound.proper other isOld
  · apply List.Perm.trans _ inserted.symm
    exact List.perm_append_comm.trans (sound.same.cons rpc)
  · change ((cache.rpcQueue ++ [rpc]).map AppendEntriesRpc.address).Nodup
    rw [List.map_append, List.nodup_append]
    refine ⟨sound.distinct, List.nodup_singleton _, ?_⟩
    intro former isOld latter isNew same
    rw [List.map_singleton, List.mem_singleton] at isNew
    exact fresh (isNew ▸ same ▸ isOld)

theorem makeRoom_keeps (sound : Sound cache) (starts : Bool) (rpc : AppendEntriesRpc P D)
    (world : CacheWorld P D) :
    Sound (cache.makeRoom starts rpc world).1 ∧
      (cache.makeRoom starts rpc world).1.needClear rpc = false ∧
      ((cache.makeRoom starts rpc world).1.rpcQueue ++
        (cache.makeRoom starts rpc world).2.settled).Perm (cache.rpcQueue ++ world.settled) ∧
      (cache.makeRoom starts rpc world).1.rpcQueue ⊆ cache.rpcQueue ∧
      ((cache.makeRoom starts rpc world).1.rpcMap = [] ∨
        cache.makeRoom starts rpc world = (cache, world)) := by
  unfold makeRoom
  by_cases meets : cache.needClear rpc = true
  · have filled : ¬ cache.rpcMap.isEmpty = true := by
      intro isEmpty
      unfold needClear at meets
      rw [List.isEmpty_iff.mp isEmpty] at meets
      contradiction
    rw [if_pos ⟨filled, meets⟩]
    refine ⟨sound_of_empty rfl rfl, rfl, clear_settled starts cache world, ?_, Or.inl rfl⟩
    exact List.nil_subset _
  · rw [if_neg (fun both => meets both.2)]
    exact ⟨sound, Bool.eq_false_of_not_eq_true meets, List.Perm.refl _, List.Subset.refl _, Or.inr rfl⟩

theorem store_keeps (sound : Sound cache) {rpc : AppendEntriesRpc P D} (size : 0 < rpc.entriesSize)
    (fresh : rpc.address ∉ cache.rpcQueue.map AppendEntriesRpc.address) (maxSize : Nat)
    (around : StoreSurroundings) (watched : cache.rpcMap ≠ [] → Watched cache world) :
    Sound (cache.store maxSize around rpc world).1 ∧
      (cache.store maxSize around rpc world).1.rpcMap.length ≤ maxSize ∧
      (cache.store maxSize around rpc world).2.2 = true ∧
      ((cache.store maxSize around rpc world).1.rpcQueue ++
        (cache.store maxSize around rpc world).2.1.settled).Perm
          (rpc :: (cache.rpcQueue ++ world.settled)) ∧
      ((cache.store maxSize around rpc world).1.rpcMap ≠ [] →
        Watched (cache.store maxSize around rpc world).1
          (cache.store maxSize around rpc world).2.1) := by
  obtain ⟨roomSound, free, moved, subset, emptied⟩ :=
    makeRoom_keeps sound around.clearStarts rpc world
  unfold store
  generalize cache.makeRoom around.clearStarts rpc world = room at roomSound free moved subset emptied
  obtain ⟨addedSound, length⟩ :=
    roomSound.push size (fun inQueue => fresh (List.map_subset _ subset inQueue)) free
  have added : ((room.1.push rpc).rpcQueue ++ room.2.settled).Perm
      (rpc :: (cache.rpcQueue ++ world.settled)) := by
    change (room.1.rpcQueue ++ [rpc] ++ room.2.settled).Perm _
    rw [List.append_assoc]
    exact List.perm_middle.trans (moved.cons rpc)
  simp only
  by_cases first : (room.1.push rpc).rpcMap.length = 1
  · rw [if_pos first]
    cases adds : around.timerAdds with
    | false =>
        rw [if_pos ⟨first, Bool.false_ne_true⟩]
        refine ⟨sound_of_empty rfl rfl, Nat.zero_le _, rfl, ?_, fun filled => absurd rfl filled⟩
        apply (clear_settled _ _ _).trans
        rw [startTimer_rpcQueue, startTimer_settled]
        exact added
    | true =>
        rw [if_neg (fun both => both.2 rfl)]
        have startedSound : Sound ((room.1.push rpc).startTimer true room.2).1 :=
          ⟨addedSound.apart, addedSound.proper, addedSound.same, addedSound.distinct⟩
        obtain ⟨kept, upper, settled, stillWatched⟩ :=
          trim_keeps startedSound maxSize around.evictStarts
            ((room.1.push rpc).startTimer true room.2).2
        refine ⟨kept, upper, rfl, settled.trans ?_, fun _ => stillWatched startTimer_watched⟩
        rw [startTimer_rpcQueue, startTimer_settled]
        exact added
  · rw [if_neg first, if_neg (fun both => first both.1)]
    obtain ⟨kept, upper, settled, stillWatched⟩ :=
      trim_keeps addedSound maxSize around.evictStarts room.2
    refine ⟨kept, upper, rfl, settled.trans added, fun _ => stillWatched ?_⟩
    -- the request is not the first one, so that nothing was cleared
    rcases emptied with isEmpty | isSame
    · rw [length, isEmpty] at first
      exact absurd rfl first
    · rw [isSame] at length first ⊢
      apply watched
      intro isEmpty
      rw [length, isEmpty] at first
      exact first rfl

/-! ### Requests that can run -/

theorem runable_append (rpcs : List (AppendEntriesRpc P D)) :
    ∀ localLastIndex, (runable localLastIndex rpcs).1 ++ (runable localLastIndex rpcs).2 = rpcs := by
  induction rpcs with
  | nil =>
      intro localLastIndex
      rfl
  | cons rpc rest ih =>
      intro localLastIndex
      unfold runable
      by_cases ahead : localLastIndex < rpc.prevLogIndex
      · rw [if_pos ahead]
        rfl
      · rw [if_neg ahead]
        exact congrArg (rpc :: ·) (ih _)

theorem removeAll_perm (taken : List (AppendEntriesRpc P D)) :
    ∀ queue left : List (AppendEntriesRpc P D), queue.Perm (taken ++ left) →
      (queue.map AppendEntriesRpc.address).Nodup →
        (taken.foldl (fun queue rpc => removeFromList rpc queue) queue).Perm left ∧
          ((taken.foldl (fun queue rpc => removeFromList rpc queue) queue).map
            AppendEntriesRpc.address).Nodup := by
  induction taken with
  | nil =>
      intro queue left same distinct
      exact ⟨same, distinct⟩
  | cons rpc rest ih =>
      intro queue left same distinct
      exact ih _ left (removeFromList_perm same distinct) (removeFromList_distinct rpc distinct)

theorem processRunableRpcs_keeps (sound : Sound cache) {localLastIndex : Nat} {starts : Bool}
    {processed : AppendEntriesCache P D × CacheWorld P D}
    (called : cache.processRunableRpcs localLastIndex starts world = some processed)
    (watched : Watched cache world) :
    Sound processed.1 ∧
      (processed.1.rpcQueue ++ processed.2.settled).Perm (cache.rpcQueue ++ world.settled) ∧
      (processed.1.rpcMap ≠ [] → Watched processed.1 processed.2) := by
  have split := runable_append cache.rpcMap localLastIndex
  unfold processRunableRpcs at called
  by_cases isEmpty : cache.rpcMap.isEmpty ∨ cache.rpcQueue.isEmpty
  · rw [if_pos isEmpty] at called
    contradiction
  rw [if_neg isEmpty] at called
  simp only at called
  generalize runable localLastIndex cache.rpcMap = parts at split called
  obtain ⟨same, distinct⟩ := removeAll_perm parts.1 cache.rpcQueue parts.2
    (by rw [split]; exact sound.same) sound.distinct
  have moved : ((if parts.1.isEmpty then world else startToHandle starts parts.1 world).settled).Perm
      (parts.1 ++ world.settled) := by
    cases isTaken : parts.1 with
    | nil => exact List.Perm.refl _
    | cons rpc rest => exact startToHandle_settled _ _ _
  have conserved : (parts.1.foldl (fun queue rpc => removeFromList rpc queue) cache.rpcQueue ++
      (if parts.1.isEmpty then world else startToHandle starts parts.1 world).settled).Perm
        (cache.rpcQueue ++ world.settled) := by
    apply (same.append moved).trans
    rw [← List.append_assoc]
    apply List.Perm.append_right
    apply List.perm_append_comm.trans
    rw [split]
    exact sound.same.symm
  have smaller : Sound
      { cache with
        rpcQueue := parts.1.foldl (fun queue rpc => removeFromList rpc queue) cache.rpcQueue
        rpcMap := parts.2 } := by
    constructor
    · exact sound.apart.sublist (split ▸ List.sublist_append_right _ _)
    · intro rpc member
      exact sound.proper rpc (split ▸ List.mem_append_right _ member)
    · exact same
    · exact distinct
  by_cases isLeft : parts.2.isEmpty = true
  · rw [if_pos isLeft, Option.some_inj] at called
    subst called
    obtain ⟨queue, map, settled⟩ := stopTimer_keeps
      { cache with
        rpcQueue := parts.1.foldl (fun queue rpc => removeFromList rpc queue) cache.rpcQueue
        rpcMap := parts.2 }
      (if parts.1.isEmpty then world else startToHandle starts parts.1 world)
    refine ⟨?_, ?_, ?_⟩
    · constructor
      · rw [map]
        exact smaller.apart
      · rw [map]
        exact smaller.proper
      · rw [map, queue]
        exact smaller.same
      · rw [queue]
        exact smaller.distinct
    · rw [queue, settled]
      exact conserved
    · intro filled
      rw [map] at filled
      exact absurd (List.isEmpty_iff.mp isLeft) filled
  · rw [if_neg isLeft, Option.some_inj] at called
    subst called
    refine ⟨smaller, conserved, ?_⟩
    intro _
    change Watched cache _
    cases parts.1.isEmpty with
    | true => exact watched
    | false => exact startToHandle_watched watched

theorem timedout_keeps (sound : Sound cache) {timerVersion timerStartMs : Nat} {adds starts : Bool}
    {handled : AppendEntriesCache P D × CacheWorld P D}
    (called : cache.doHandleAppendEntriesCacheTimedout timerVersion timerStartMs adds starts world =
      some handled)
    (watched : timerVersion ≠ cache.timerVersion → cache.rpcMap ≠ [] → Watched cache world) :
    Sound handled.1 ∧
      (handled.1.rpcQueue ++ handled.2.settled).Perm (cache.rpcQueue ++ world.settled) ∧
      (handled.1.rpcMap ≠ [] → Watched handled.1 handled.2) := by
  have cleared : ∀ (other : AppendEntriesCache P D) (around : CacheWorld P D),
      other.rpcQueue = cache.rpcQueue → around.settled = world.settled →
        ((other.clear starts around).1.rpcQueue ++ (other.clear starts around).2.settled).Perm
          (cache.rpcQueue ++ world.settled) := by
    intro other around queue settled
    rw [clear_rpcQueue, List.nil_append, ← queue, ← settled]
    exact clear_settled _ _ _
  unfold doHandleAppendEntriesCacheTimedout at called
  by_cases stale : timerVersion ≠ cache.timerVersion
  · rw [if_pos stale, Option.some_inj] at called
    subst called
    exact ⟨sound, List.Perm.refl _, watched stale⟩
  rw [if_neg stale] at called
  cases isMap : cache.rpcMap with
  | nil =>
      rw [isMap] at called
      contradiction
  | cons first others =>
      cases isQueue : cache.rpcQueue with
      | nil =>
          rw [isMap, isQueue] at called
          contradiction
      | cons front rest =>
          rw [isMap, isQueue] at called
          simp only at called
          rw [← isQueue]
          by_cases waited : front.receiveTimeMs ≤ timerStartMs
          · rw [if_pos waited, Option.some_inj] at called
            subst called
            exact ⟨sound_of_empty rfl rfl, cleared _ _ rfl rfl, fun filled => absurd rfl filled⟩
          · rw [if_neg waited] at called
            cases adds with
            | true =>
                rw [if_pos rfl, Option.some_inj] at called
                subst called
                refine ⟨⟨sound.apart, sound.proper, sound.same, sound.distinct⟩, ?_, fun _ =>
                  startTimer_watched⟩
                rw [startTimer_rpcQueue, startTimer_settled]
            | false =>
                rw [if_neg Bool.false_ne_true, Option.some_inj] at called
                subst called
                exact ⟨sound_of_empty rfl rfl, cleared _ _ rfl rfl, fun filled => absurd rfl filled⟩

end AppendEntriesCache

/-! ### Every run -/

namespace CacheNode

/-- The requests in the queue of the cache. -/
def queued (node : CacheNode P D) : List (AppendEntriesRpc P D) :=
  match node.appendEntriesCache with
  | none => []
  | some cache => cache.rpcQueue

structure Conserving (node : CacheNode P D) : Prop where
  sound : ∀ cache, node.appendEntriesCache = some cache → cache.Sound
  conserved : (node.queued ++ node.world.settled).Perm node.stored
  fresh : ∀ rpc ∈ node.stored, rpc.address < node.nextAddress
  distinct : (node.stored.map AppendEntriesRpc.address).Nodup

structure Consistent (node : CacheNode P D) : Prop extends Conserving node where
  watched : ∀ cache, node.appendEntriesCache = some cache → cache.rpcMap ≠ [] →
    cache.Watched node.world

variable {node after : CacheNode P D}

theorem Consistent.start : Consistent ({} : CacheNode P D) :=
  { sound := by
      intro cache isCache
      contradiction
    conserved := List.Perm.refl _
    fresh := by
      intro rpc member
      contradiction
    distinct := List.nodup_nil
    watched := by
      intro cache isCache
      contradiction }

theorem Conserving.update (conserving : Conserving node) (cache : Option (AppendEntriesCache P D))
    (world : CacheWorld P D)
    (sound : ∀ kept, cache = some kept → kept.Sound)
    (watched : ∀ kept, cache = some kept → kept.rpcMap ≠ [] → kept.Watched world)
    (moved : (queued { node with appendEntriesCache := cache, world := world } ++
      world.settled).Perm (node.queued ++ node.world.settled)) :
    Consistent { node with appendEntriesCache := cache, world := world } :=
  { sound := sound
    watched := watched
    conserved := moved.trans conserving.conserved
    fresh := conserving.fresh
    distinct := conserving.distinct }

theorem Conserving.dropEmpty (conserving : Conserving node) {cache : AppendEntriesCache P D}
    {world : CacheWorld P D} (sound : cache.Sound)
    (watched : cache.rpcMap ≠ [] → cache.Watched world)
    (moved : (cache.rpcQueue ++ world.settled).Perm (node.queued ++ node.world.settled)) :
    Consistent { node with appendEntriesCache := dropEmpty cache, world := world } := by
  unfold CacheNode.dropEmpty
  cases isMap : cache.rpcMap with
  | nil =>
      have isQueue : cache.rpcQueue = [] := by
        apply List.Perm.eq_nil
        rw [← isMap]
        exact sound.same
      rw [if_pos (by unfold AppendEntriesCache.isEmpty; rw [isMap]; rfl)]
      apply conserving.update none world
      · intro kept isKept
        contradiction
      · intro kept isKept
        contradiction
      · rw [isQueue] at moved
        exact moved
  | cons first others =>
      rw [if_neg (by unfold AppendEntriesCache.isEmpty; rw [isMap]; exact Bool.false_ne_true)]
      apply conserving.update (some cache) world
      · intro kept isKept
        exact Option.some.inj isKept ▸ sound
      · intro kept isKept
        exact Option.some.inj isKept ▸ watched
      · exact moved

theorem Consistent.cacheFor (consistent : Consistent node) :
    node.cacheFor.1.Sound ∧ node.cacheFor.1.rpcQueue = node.queued ∧
      node.cacheFor.2.settled = node.world.settled ∧
      (node.cacheFor.1.rpcMap ≠ [] → node.cacheFor.1.Watched node.cacheFor.2) := by
  unfold CacheNode.cacheFor queued
  cases isCache : node.appendEntriesCache with
  | none =>
      refine ⟨AppendEntriesCache.sound_of_empty rfl rfl, rfl, rfl, ?_⟩
      intro filled
      exact absurd rfl filled
  | some cache => exact ⟨consistent.sound cache isCache, rfl, rfl, consistent.watched cache isCache⟩

theorem entriesSize_newRpc {call : OutOfOrder P D} (stores : ¬ Declines call)
    (node : CacheNode P D) : 0 < (node.newRpc call).entriesSize := by
  apply List.length_pos_iff.mpr
  intro none
  exact stores (Or.inr (Or.inr none))

theorem Consistent.newRpc_fresh (consistent : Consistent node) (call : OutOfOrder P D) :
    (node.newRpc call).address ∉ node.stored.map AppendEntriesRpc.address := by
  intro member
  obtain ⟨rpc, isStored, same⟩ := List.mem_map.mp member
  have lower := consistent.fresh rpc isStored
  rw [same] at lower
  exact absurd lower (Nat.lt_irrefl _)

theorem Consistent.stores (consistent : Consistent node) {call : OutOfOrder P D}
    (stores : ¬ Declines call) (maxSize : Nat) (around : StoreSurroundings) :
    (node.cacheFor.1.store maxSize around (node.newRpc call) node.cacheFor.2).1.Sound ∧
      (node.cacheFor.1.store maxSize around (node.newRpc call) node.cacheFor.2).1.rpcMap.length ≤
        maxSize ∧
      (node.cacheFor.1.store maxSize around (node.newRpc call) node.cacheFor.2).2.2 = true ∧
      ((node.cacheFor.1.store maxSize around (node.newRpc call) node.cacheFor.2).1.rpcQueue ++
        (node.cacheFor.1.store maxSize around (node.newRpc call) node.cacheFor.2).2.1.settled).Perm
          (node.newRpc call :: (node.queued ++ node.world.settled)) ∧
      ((node.cacheFor.1.store maxSize around (node.newRpc call) node.cacheFor.2).1.rpcMap ≠ [] →
        (node.cacheFor.1.store maxSize around (node.newRpc call) node.cacheFor.2).1.Watched
          (node.cacheFor.1.store maxSize around (node.newRpc call) node.cacheFor.2).2.1) := by
  obtain ⟨sound, queue, settled, watched⟩ := consistent.cacheFor
  rw [← queue, ← settled]
  apply AppendEntriesCache.store_keeps sound (entriesSize_newRpc stores node) _ maxSize around
    watched
  intro member
  apply consistent.newRpc_fresh call
  apply List.map_subset _ consistent.conserved.subset
  rw [List.map_append, ← queue]
  exact List.mem_append_left _ member

theorem Consistent.outOfOrder (consistent : Consistent node) (maxSize : Nat)
    (around : StoreSurroundings) (call : OutOfOrder P D) :
    Consistent (node.handleOutOfOrderAppendEntries maxSize around call).1 := by
  unfold handleOutOfOrderAppendEntries
  by_cases declines : Declines call
  · rw [if_pos declines]
    exact consistent
  rw [if_neg declines]
  obtain ⟨sound, _, taken, moved, watched⟩ := consistent.stores declines maxSize around
  simp only
  rw [taken, if_pos rfl, if_neg (fun both => both.1 rfl)]
  refine ⟨⟨?_, ?_, ?_, ?_⟩, ?_⟩
  · intro cache isCache
    exact Option.some.inj isCache ▸ sound
  · apply moved.trans
    apply (consistent.conserved.cons _).trans
    exact (List.perm_append_singleton _ _).symm
  · intro rpc member
    rcases List.mem_append.mp member with isOld | isNew
    · exact Nat.lt_succ_of_lt (consistent.fresh rpc isOld)
    · rw [List.mem_singleton.mp isNew]
      exact Nat.lt_succ_self _
  · change ((node.stored ++ [node.newRpc call]).map AppendEntriesRpc.address).Nodup
    rw [List.map_append, List.nodup_append]
    refine ⟨consistent.distinct, List.nodup_singleton _, ?_⟩
    intro former isOld latter isNew same
    rw [List.map_singleton, List.mem_singleton] at isNew
    exact consistent.newRpc_fresh call (isNew ▸ same ▸ isOld)
  · intro cache isCache
    exact Option.some.inj isCache ▸ watched

theorem Consistent.check (consistent : Consistent node) {localLastIndex : Nat} {starts : Bool}
    (called : node.checkAppendEntriesCache localLastIndex starts = some after) :
    Consistent after := by
  rcases checkAppendEntriesCache_cases called with same | ⟨cache, processed, isCache, processes, same⟩
  · exact same ▸ consistent
  · subst same
    have sound := consistent.sound cache isCache
    -- the cache is not empty, as the check has not failed
    have filled : cache.rpcMap ≠ [] := by
      intro isEmpty
      unfold AppendEntriesCache.processRunableRpcs at processes
      rw [if_pos (Or.inl (by rw [isEmpty]; rfl))] at processes
      contradiction
    obtain ⟨kept, moved, watched⟩ :=
      AppendEntriesCache.processRunableRpcs_keeps sound processes
        (consistent.watched cache isCache filled)
    apply consistent.toConserving.dropEmpty kept watched
    unfold queued
    rw [isCache]
    exact moved

theorem Consistent.clear (consistent : Consistent node) (starts : Bool) :
    Consistent (node.clearAppendEntriesCache starts) := by
  unfold clearAppendEntriesCache
  cases isCache : node.appendEntriesCache with
  | none => exact consistent
  | some cache =>
      apply consistent.toConserving.update none
      · intro kept isKept
        contradiction
      · intro kept isKept
        contradiction
      · unfold queued
        rw [isCache]
        exact AppendEntriesCache.clear_settled starts cache node.world

theorem Consistent.expire (consistent : Consistent node) {position : Nat}
    (called : node.expire position = some after) : Consistent after := by
  unfold CacheNode.expire at called
  obtain ⟨timer, found, isAfter⟩ := Option.map_eq_some_iff.mp called
  subst isAfter
  refine ⟨⟨consistent.sound, consistent.conserved, consistent.fresh, consistent.distinct⟩, ?_⟩
  intro cache isCache filled
  obtain ⟨watching, member, versions⟩ := consistent.watched cache isCache filled
  refine ⟨watching, ?_, versions⟩
  rcases List.mem_append.mp member with waits | called
  · by_cases isTimer : watching = timer
    · apply List.mem_append_right
      apply List.mem_append_right
      exact List.mem_singleton.mpr isTimer
    · apply List.mem_append_left
      obtain ⟨place, isPlace⟩ := List.mem_iff_getElem?.mp waits
      apply List.mem_eraseIdx_iff_getElem?.mpr
      refine ⟨place, ?_, isPlace⟩
      intro same
      rw [same, found] at isPlace
      exact isTimer (Option.some.inj isPlace).symm
  · apply List.mem_append_right
    exact List.mem_append_left _ called

theorem mem_of_other {timers timedout : List CacheTimer} {position : Nat}
    {timer watching : CacheTimer} (found : timedout[position]? = some timer)
    (other : watching ≠ timer) (member : watching ∈ timers ++ timedout) :
    watching ∈ timers ++ timedout.eraseIdx position := by
  rcases List.mem_append.mp member with waits | called
  · exact List.mem_append_left _ waits
  · apply List.mem_append_right
    obtain ⟨place, isPlace⟩ := List.mem_iff_getElem?.mp called
    apply List.mem_eraseIdx_iff_getElem?.mpr
    refine ⟨place, ?_, isPlace⟩
    intro same
    rw [same, found] at isPlace
    exact other (Option.some.inj isPlace).symm

theorem Conserving.handled (conserving : Conserving node) {arg : AppendEntriesCacheTimerArg}
    {adds starts : Bool}
    (watched : ∀ cache, node.appendEntriesCache = some cache → cache.rpcMap ≠ [] →
      arg.timerVersion ≠ cache.timerVersion ∨ arg.cacheVersion ≠ cache.cacheVersion →
        cache.Watched node.world)
    (called : node.handleAppendEntriesCacheTimedout arg adds starts = some after) :
    Consistent after := by
  rcases handleAppendEntriesCacheTimedout_cases called with
    ⟨same, foreign⟩ | ⟨cache, handled, isCache, handles, same⟩
  · subst same
    refine ⟨conserving, ?_⟩
    intro cache isCache filled
    exact watched cache isCache filled (Or.inr (foreign cache isCache))
  · subst same
    obtain ⟨kept, moved, stillWatched⟩ :=
      AppendEntriesCache.timedout_keeps (conserving.sound cache isCache) handles
        (fun stale filled => watched cache isCache filled (Or.inl stale))
    apply conserving.dropEmpty kept stillWatched
    unfold queued
    rw [isCache]
    exact moved

theorem Consistent.timedout (consistent : Consistent node) {position : Nat} {adds starts : Bool}
    (called : node.timedout position adds starts = some after) : Consistent after := by
  unfold CacheNode.timedout at called
  obtain ⟨timer, found, handles⟩ := Option.bind_eq_some_iff.mp called
  have conserving : Conserving (node.finish position) :=
    ⟨consistent.sound, consistent.conserved, consistent.fresh, consistent.distinct⟩
  apply conserving.handled _ handles
  intro cache isCache filled others
  obtain ⟨watching, member, versions⟩ := consistent.watched cache isCache filled
  refine ⟨watching, mem_of_other found ?_ member, versions⟩
  intro same
  subst same
  rcases others with timer | version
  · exact timer versions.1
  · exact version versions.2

theorem dispatched_perm {handlers : List (List (AppendEntriesRpc P D))} {position : Nat}
    {rpc : AppendEntriesRpc P D} {rest redispatched failed : List (AppendEntriesRpc P D)}
    (found : handlers[position]? = some (rpc :: rest)) :
    ((handlers.set position rest).flatten ++ (redispatched ++ [rpc]) ++ failed).Perm
      (handlers.flatten ++ redispatched ++ failed) := by
  obtain ⟨inside, isPlace⟩ := List.getElem?_eq_some_iff.mp found
  have split := List.take_append_drop position handlers
  rw [List.drop_eq_getElem_cons inside, isPlace] at split
  rw [List.set_eq_take_append_cons_drop, if_pos inside]
  nth_rewrite 3 [← split]
  simp only [List.flatten_append, List.flatten_cons, List.append_assoc, List.cons_append,
    List.nil_append]
  apply List.Perm.append_left
  have moved := @List.perm_middle _ rpc
    (rest ++ ((handlers.drop (position + 1)).flatten ++ redispatched)) failed
  simpa only [List.append_assoc] using moved

theorem Consistent.dispatch (consistent : Consistent node) {position : Nat}
    (called : node.dispatch position = some after) : Consistent after := by
  obtain ⟨rpc, rest, found, same⟩ := dispatch_cases called
  subst same
  refine ⟨⟨consistent.sound, ?_, consistent.fresh, consistent.distinct⟩, consistent.watched⟩
  apply List.Perm.trans _ consistent.conserved
  apply List.Perm.append_left
  exact dispatched_perm found

theorem Consistent.step (consistent : Consistent node) (action : Action P D)
    (stepped : step action node = some after) : Consistent after := by
  cases action with
  | outOfOrder maxSize around call =>
      exact Option.some.inj stepped ▸ consistent.outOfOrder maxSize around call
  | check localLastIndex starts => exact consistent.check stepped
  | clear starts => exact Option.some.inj stepped ▸ consistent.clear starts
  | expire position => exact consistent.expire stepped
  | timedout position adds starts => exact consistent.timedout stepped
  | dispatch position => exact consistent.dispatch stepped

theorem consistent_of_reachable (reached : system.Reachable node) : Consistent node := by
  apply reached.invariant Consistent
  · intro first initial
    rw [initial]
    exact .start
  · intro action before after consistent _ stepped
    exact consistent.step action stepped

/-- A request with one entry behind an index. -/
def exampleCall (prevLogIndex receiveTimeMs : Nat) : OutOfOrder Nat Nat :=
  { request :=
      { serverId := 1
        term := 1
        prevLogIndex := prevLogIndex
        prevLogTerm := 1
        entries := [{ term := 1, type := .data, data := 7 }] }
    receiveTimeMs := receiveTimeMs
    localLastIndex := 3 }

def exampleNode : Option (CacheNode Nat Nat) :=
  (handleOutOfOrderAppendEntries 8 {} (exampleCall 5 11)
    (handleOutOfOrderAppendEntries 8 {} (exampleCall 7 10) {}).1).1.checkAppendEntriesCache 5 true

def exampleRun : List (Action Nat Nat) :=
  [.outOfOrder 8 {} (exampleCall 7 10), .outOfOrder 8 {} (exampleCall 5 11), .check 5 true]

theorem exampleNode_reachable {node : CacheNode Nat Nat} (ends : exampleNode = some node) :
    system.Reachable node :=
  TransitionSystem.Reachable.follows exampleRun (.start rfl)
    ⟨Nat.succ_pos 7, _, rfl, Nat.succ_pos 7, _, rfl, trivial, _, ends, rfl⟩

end CacheNode

end QuorumKit
