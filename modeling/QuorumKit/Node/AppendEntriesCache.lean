/-
The cache of out-of-order `append_entries` requests of a follower.

The requests are in two containers, a map sorted by `prev_log_index` and a queue in the order
of their arrival.  What leaves the cache goes to a background thread that hands it to
`handle_append_entries_request` again, or is answered with an error where no thread can be
started.  A timer of the cache holds the version of the cache and its own version.
-/

import QuorumKit.AppendEntries
import QuorumKit.Library.Spans
import QuorumKit.Library.TransitionSystem

namespace QuorumKit

variable {P D : Type}

structure AppendEntriesRpc (P D : Type) where
  address : Nat
  request : AppendEntriesRequest P D
  receiveTimeMs : Nat

namespace AppendEntriesRpc

def prevLogIndex (rpc : AppendEntriesRpc P D) : Nat := rpc.request.prevLogIndex

def entriesSize (rpc : AppendEntriesRpc P D) : Nat := rpc.request.entries.length

def lastIndex (rpc : AppendEntriesRpc P D) : Nat := rpc.prevLogIndex + rpc.entriesSize

end AppendEntriesRpc

structure AppendEntriesCacheTimerArg where
  timerVersion : Nat
  cacheVersion : Nat
  timerStartMs : Nat
deriving DecidableEq, Repr

/-- A timer of the timer thread.  `armedBy` is the number of the cache, counted from 1, that
added the timer; no code reads it. -/
structure CacheTimer where
  timer : Nat
  arg : AppendEntriesCacheTimerArg
  armedBy : Nat
deriving DecidableEq, Repr

structure AppendEntriesCache (P D : Type) where
  rpcQueue : List (AppendEntriesRpc P D) := []
  rpcMap : List (AppendEntriesRpc P D) := []
  timer : Option Nat := none
  cacheVersion : Nat
  timerVersion : Nat := 0

/-- What the cache uses of the node and of the process: the timers that wait, the callbacks
that wait for the mutex, the threads with requests and what came of each request. -/
structure CacheWorld (P D : Type) where
  timers : List CacheTimer := []
  timedout : List CacheTimer := []
  nextTimer : Nat := 0
  handlers : List (List (AppendEntriesRpc P D)) := []
  redispatched : List (AppendEntriesRpc P D) := []
  failed : List (AppendEntriesRpc P D) := []
  appendEntriesCacheVersion : Nat := 0

/-- Which calls of the library succeed in a call of `store`: `bthread_start_background` for the
requests that are cleared first, `bthread_timer_add`, and `bthread_start_background` for what
is cleared after it and for what does not fit. -/
structure StoreSurroundings where
  clearStarts : Bool := true
  timerAdds : Bool := true
  fallbackStarts : Bool := true
  evictStarts : Bool := true

namespace AppendEntriesCache

def new (_version : Nat) : AppendEntriesCache P D := { cacheVersion := 0 }

def isEmpty (cache : AppendEntriesCache P D) : Bool := cache.rpcMap.isEmpty

def firstIndex (cache : AppendEntriesCache P D) : Option Nat :=
  if cache.rpcQueue.isEmpty then none
  else cache.rpcMap.head?.map (fun rpc => rpc.prevLogIndex + 1)

def removeFromList (rpc : AppendEntriesRpc P D) (queue : List (AppendEntriesRpc P D)) :
    List (AppendEntriesRpc P D) :=
  queue.filter (fun other => other.address ≠ rpc.address)

/-- Where no thread is started, `ack_fail` answers each request. -/
def startToHandle (starts : Bool) (rpcs : List (AppendEntriesRpc P D)) (world : CacheWorld P D) :
    CacheWorld P D :=
  if starts then { world with handlers := world.handlers ++ [rpcs] }
  else { world with failed := world.failed ++ rpcs }

def startTimer (adds : Bool) (cache : AppendEntriesCache P D) (world : CacheWorld P D) :
    AppendEntriesCache P D × CacheWorld P D :=
  let timerVersion := cache.timerVersion + 1
  let timerStartMs := (cache.rpcQueue.head?.map (·.receiveTimeMs)).getD 0
  let arg : AppendEntriesCacheTimerArg :=
    { timerVersion := timerVersion
      cacheVersion := cache.cacheVersion
      timerStartMs := timerStartMs }
  if adds then
    ({ cache with timerVersion := timerVersion, timer := some world.nextTimer },
      { world with
        timers := world.timers ++
          [{ timer := world.nextTimer, arg := arg, armedBy := world.appendEntriesCacheVersion }]
        nextTimer := world.nextTimer + 1 })
  else ({ cache with timerVersion := timerVersion }, world)

/-- `bthread_timer_del` succeeds only for a timer that has not run. -/
def stopTimer (cache : AppendEntriesCache P D) (world : CacheWorld P D) :
    AppendEntriesCache P D × CacheWorld P D :=
  match cache.timer with
  | none => (cache, world)
  | some timer =>
      let stopped := { cache with timerVersion := cache.timerVersion + 1 }
      if world.timers.any (fun waiting => waiting.timer = timer) then
        ({ stopped with timer := none },
          { world with timers := world.timers.filter (fun waiting => waiting.timer ≠ timer) })
      else (stopped, world)

def clear (starts : Bool) (cache : AppendEntriesCache P D) (world : CacheWorld P D) :
    AppendEntriesCache P D × CacheWorld P D :=
  let stopped := cache.stopTimer world
  ({ stopped.1 with rpcQueue := [], rpcMap := [] },
    startToHandle starts stopped.1.rpcQueue stopped.2)

def needClear (cache : AppendEntriesCache P D) (rpc : AppendEntriesRpc P D) : Bool :=
  let former := (Spans.below AppendEntriesRpc.prevLogIndex rpc.prevLogIndex cache.rpcMap).getLast?
  let next :=
    (Spans.lowerBound AppendEntriesRpc.prevLogIndex rpc.prevLogIndex cache.rpcMap).head?
  former.any (fun prevRpc => rpc.prevLogIndex < prevRpc.prevLogIndex + prevRpc.entriesSize) ||
    next.any (fun nextRpc => nextRpc.prevLogIndex < rpc.lastIndex)

/-- The loop of `store` that takes out the last requests; `excess` is the number of them. -/
def evict : Nat → AppendEntriesCache P D → List (AppendEntriesRpc P D) →
    AppendEntriesCache P D × List (AppendEntriesRpc P D)
  | 0, cache, released => (cache, released)
  | excess + 1, cache, released =>
      match cache.rpcMap.getLast? with
      | none => (cache, released)
      | some rpc =>
          evict excess
            { cache with
              rpcQueue := removeFromList rpc cache.rpcQueue
              rpcMap := cache.rpcMap.dropLast }
            (released ++ [rpc])

def trim (maxSize : Nat) (starts : Bool) (cache : AppendEntriesCache P D)
    (world : CacheWorld P D) : AppendEntriesCache P D × CacheWorld P D :=
  let evicted := evict (cache.rpcMap.length - maxSize) cache []
  (evicted.1, if evicted.2.isEmpty then world else startToHandle starts evicted.2 world)

def makeRoom (starts : Bool) (rpc : AppendEntriesRpc P D) (cache : AppendEntriesCache P D)
    (world : CacheWorld P D) : AppendEntriesCache P D × CacheWorld P D :=
  if ¬ cache.rpcMap.isEmpty ∧ cache.needClear rpc then cache.clear starts world
  else (cache, world)

def push (rpc : AppendEntriesRpc P D) (cache : AppendEntriesCache P D) : AppendEntriesCache P D :=
  { cache with
    rpcQueue := cache.rpcQueue ++ [rpc]
    rpcMap := Spans.insert AppendEntriesRpc.prevLogIndex rpc cache.rpcMap }

def store (maxSize : Nat) (around : StoreSurroundings) (rpc : AppendEntriesRpc P D)
    (cache : AppendEntriesCache P D) (world : CacheWorld P D) :
    AppendEntriesCache P D × CacheWorld P D × Bool :=
  let room := cache.makeRoom around.clearStarts rpc world
  let added := room.1.push rpc
  -- the first rpc needs to start the timer
  let started :=
    if added.rpcMap.length = 1 then added.startTimer around.timerAdds room.2 else (added, room.2)
  if added.rpcMap.length = 1 ∧ ¬ around.timerAdds then
    let cleared := started.1.clear around.fallbackStarts started.2
    (cleared.1, cleared.2, true)
  else
    let trimmed := started.1.trim maxSize around.evictStarts started.2
    (trimmed.1, trimmed.2, true)

/-- The loop of `process_runable_rpcs` over the map: what it takes out and what it leaves. -/
def runable : Nat → List (AppendEntriesRpc P D) →
    List (AppendEntriesRpc P D) × List (AppendEntriesRpc P D)
  | _, [] => ([], [])
  | localLastIndex, rpc :: rest =>
      if localLastIndex < rpc.prevLogIndex then ([], rpc :: rest)
      else
        let later := runable (rpc.prevLogIndex + rpc.entriesSize) rest
        (rpc :: later.1, later.2)

/-- `none` where a check fails. -/
def processRunableRpcs (localLastIndex : Nat) (starts : Bool) (cache : AppendEntriesCache P D)
    (world : CacheWorld P D) : Option (AppendEntriesCache P D × CacheWorld P D) :=
  if cache.rpcMap.isEmpty ∨ cache.rpcQueue.isEmpty then none
  else
    let split := runable localLastIndex cache.rpcMap
    let handled := if split.1.isEmpty then world else startToHandle starts split.1 world
    let processed : AppendEntriesCache P D :=
      { cache with
        rpcQueue := split.1.foldl (fun queue rpc => removeFromList rpc queue) cache.rpcQueue
        rpcMap := split.2 }
    if split.2.isEmpty then some (processed.stopTimer handled) else some (processed, handled)

def doHandleAppendEntriesCacheTimedout (timerVersion timerStartMs : Nat) (adds starts : Bool)
    (cache : AppendEntriesCache P D) (world : CacheWorld P D) :
    Option (AppendEntriesCache P D × CacheWorld P D) :=
  if timerVersion ≠ cache.timerVersion then some (cache, world)
  else
    match cache.rpcMap, cache.rpcQueue with
    | _ :: _, front :: _ =>
        if front.receiveTimeMs ≤ timerStartMs then some (cache.clear starts world)
        else
          let started := cache.startTimer adds world
          if adds then some started else some (started.1.clear starts started.2)
    | _, _ => none

end AppendEntriesCache

/-- `stored` has the requests that the cache has taken; no code reads it. -/
structure CacheNode (P D : Type) where
  appendEntriesCache : Option (AppendEntriesCache P D) := none
  world : CacheWorld P D := {}
  nextAddress : Nat := 0
  stored : List (AppendEntriesRpc P D) := []

structure OutOfOrder (P D : Type) where
  request : AppendEntriesRequest P D
  receiveTimeMs : Nat
  localLastIndex : Nat
  enableCache : Bool := true

namespace CacheNode

def dropEmpty (cache : AppendEntriesCache P D) : Option (AppendEntriesCache P D) :=
  if cache.isEmpty then none else some cache

/-- The requests that `handle_out_of_order_append_entries` does not store. -/
def Declines (call : OutOfOrder P D) : Prop :=
  ¬ call.enableCache ∨ call.request.prevLogIndex ≤ call.localLastIndex ∨ call.request.entries = []

instance (call : OutOfOrder P D) : Decidable (Declines call) :=
  decidable_of_iff (¬ call.enableCache ∨ call.request.prevLogIndex ≤ call.localLastIndex ∨
    call.request.entries.isEmpty) (by rw [Declines, List.isEmpty_iff])

/-- The cache that a request is stored in, and the world after its creation. -/
def cacheFor (node : CacheNode P D) : AppendEntriesCache P D × CacheWorld P D :=
  match node.appendEntriesCache with
  | some cache => (cache, node.world)
  | none =>
      let version := node.world.appendEntriesCacheVersion + 1
      (.new version, { node.world with appendEntriesCacheVersion := version })

def newRpc (node : CacheNode P D) (call : OutOfOrder P D) : AppendEntriesRpc P D :=
  { address := node.nextAddress, request := call.request, receiveTimeMs := call.receiveTimeMs }

def handleOutOfOrderAppendEntries (maxSize : Nat) (around : StoreSurroundings)
    (call : OutOfOrder P D) (node : CacheNode P D) : CacheNode P D × Bool :=
  if Declines call then (node, false)
  else
    let rpc := node.newRpc call
    let kept := node.cacheFor.1.store maxSize around rpc node.cacheFor.2
    let rc := kept.2.2
    ({ appendEntriesCache := if ¬ rc ∧ kept.1.isEmpty then none else some kept.1
       world := kept.2.1
       nextAddress := node.nextAddress + 1
       stored := if rc then node.stored ++ [rpc] else node.stored }, rc)

def checkAppendEntriesCache (localLastIndex : Nat) (starts : Bool) (node : CacheNode P D) :
    Option (CacheNode P D) :=
  match node.appendEntriesCache with
  | none => some node
  | some cache =>
      (cache.processRunableRpcs localLastIndex starts node.world).map (fun processed =>
        { node with appendEntriesCache := dropEmpty processed.1, world := processed.2 })

def clearAppendEntriesCache (starts : Bool) (node : CacheNode P D) : CacheNode P D :=
  match node.appendEntriesCache with
  | none => node
  | some cache =>
      { node with appendEntriesCache := none, world := (cache.clear starts node.world).2 }

def handleAppendEntriesCacheTimedout (arg : AppendEntriesCacheTimerArg) (adds starts : Bool)
    (node : CacheNode P D) : Option (CacheNode P D) :=
  match node.appendEntriesCache with
  | none => some node
  | some cache =>
      if arg.cacheVersion ≠ cache.cacheVersion then some node
      else
        (cache.doHandleAppendEntriesCacheTimedout arg.timerVersion arg.timerStartMs adds starts
          node.world).map (fun handled =>
            { node with appendEntriesCache := dropEmpty handled.1, world := handled.2 })

/-- `expire` is the timer thread, `timedout` a callback that gets the mutex, and `dispatch` a
background thread that hands its next request to `handle_append_entries_request`. -/
inductive Action (P D : Type) where
  | outOfOrder (maxSize : Nat) (around : StoreSurroundings) (call : OutOfOrder P D)
  | check (localLastIndex : Nat) (starts : Bool)
  | clear (starts : Bool)
  | expire (position : Nat)
  | timedout (position : Nat) (adds starts : Bool)
  | dispatch (position : Nat)

def expire (position : Nat) (node : CacheNode P D) : Option (CacheNode P D) :=
  (node.world.timers[position]?).map (fun timer =>
    { node with
      world :=
        { node.world with
          timers := node.world.timers.eraseIdx position
          timedout := node.world.timedout ++ [timer] } })

def finish (position : Nat) (node : CacheNode P D) : CacheNode P D :=
  { node with world := { node.world with timedout := node.world.timedout.eraseIdx position } }

def timedout (position : Nat) (adds starts : Bool) (node : CacheNode P D) :
    Option (CacheNode P D) :=
  (node.world.timedout[position]?).bind (fun timer =>
    (node.finish position).handleAppendEntriesCacheTimedout timer.arg adds starts)

def dispatch (position : Nat) (node : CacheNode P D) : Option (CacheNode P D) :=
  match node.world.handlers[position]? with
  | some (rpc :: rest) =>
      some
        { node with
          world :=
            { node.world with
              handlers := node.world.handlers.set position rest
              redispatched := node.world.redispatched ++ [rpc] } }
  | _ => none

variable {node after : CacheNode P D}

theorem dropEmpty_eq_some {cache kept : AppendEntriesCache P D}
    (isKept : dropEmpty cache = some kept) : kept = cache ∧ cache.rpcMap ≠ [] := by
  unfold dropEmpty AppendEntriesCache.isEmpty at isKept
  by_cases isEmpty : cache.rpcMap.isEmpty = true
  · rw [if_pos isEmpty] at isKept
    contradiction
  · rw [if_neg isEmpty, Option.some_inj] at isKept
    exact ⟨isKept.symm, fun none => isEmpty (List.isEmpty_iff.mpr none)⟩

theorem checkAppendEntriesCache_cases {localLastIndex : Nat} {starts : Bool}
    (called : node.checkAppendEntriesCache localLastIndex starts = some after) :
    after = node ∨
      ∃ cache processed, node.appendEntriesCache = some cache ∧
        cache.processRunableRpcs localLastIndex starts node.world = some processed ∧
        after =
          { node with appendEntriesCache := dropEmpty processed.1, world := processed.2 } := by
  unfold checkAppendEntriesCache at called
  cases isCache : node.appendEntriesCache with
  | none =>
      rw [isCache] at called
      exact Or.inl (Option.some.inj called).symm
  | some cache =>
      rw [isCache] at called
      obtain ⟨processed, processes, isAfter⟩ := Option.map_eq_some_iff.mp called
      exact Or.inr ⟨cache, processed, rfl, processes, isAfter.symm⟩

theorem handleAppendEntriesCacheTimedout_cases {arg : AppendEntriesCacheTimerArg}
    {adds starts : Bool}
    (called : node.handleAppendEntriesCacheTimedout arg adds starts = some after) :
    (after = node ∧
        ∀ cache, node.appendEntriesCache = some cache → arg.cacheVersion ≠ cache.cacheVersion) ∨
      ∃ cache handled, node.appendEntriesCache = some cache ∧
        cache.doHandleAppendEntriesCacheTimedout arg.timerVersion arg.timerStartMs adds starts
          node.world = some handled ∧
        after = { node with appendEntriesCache := dropEmpty handled.1, world := handled.2 } := by
  unfold handleAppendEntriesCacheTimedout at called
  cases isCache : node.appendEntriesCache with
  | none =>
      rw [isCache] at called
      refine Or.inl ⟨(Option.some.inj called).symm, ?_⟩
      intro cache isSome
      contradiction
  | some cache =>
      rw [isCache] at called
      simp only at called
      by_cases foreign : arg.cacheVersion ≠ cache.cacheVersion
      · rw [if_pos foreign, Option.some_inj] at called
        refine Or.inl ⟨called.symm, ?_⟩
        intro other isOther
        exact Option.some.inj isOther ▸ foreign
      · rw [if_neg foreign] at called
        obtain ⟨handled, handles, isAfter⟩ := Option.map_eq_some_iff.mp called
        exact Or.inr ⟨cache, handled, rfl, handles, isAfter.symm⟩

theorem dispatch_cases {position : Nat} (called : node.dispatch position = some after) :
    ∃ rpc rest, node.world.handlers[position]? = some (rpc :: rest) ∧
      after =
        { node with
          world :=
            { node.world with
              handlers := node.world.handlers.set position rest
              redispatched := node.world.redispatched ++ [rpc] } } := by
  unfold CacheNode.dispatch at called
  cases found : node.world.handlers[position]? with
  | none =>
      rw [found] at called
      contradiction
  | some rpcs =>
      rw [found] at called
      cases rpcs with
      | nil => contradiction
      | cons rpc rest => exact ⟨rpc, rest, rfl, (Option.some.inj called).symm⟩

def step : Action P D → CacheNode P D → Option (CacheNode P D)
  | .outOfOrder maxSize around call, node =>
      some (node.handleOutOfOrderAppendEntries maxSize around call).1
  | .check localLastIndex starts, node => node.checkAppendEntriesCache localLastIndex starts
  | .clear starts, node => some (node.clearAppendEntriesCache starts)
  | .expire position, node => node.expire position
  | .timedout position adds starts, node => node.timedout position adds starts
  | .dispatch position, node => node.dispatch position

def Allowed : Action P D → CacheNode P D → Prop
  | .outOfOrder maxSize _ _, _ => 0 < maxSize
  | _, _ => True

def system : TransitionSystem (CacheNode P D) (Action P D) where
  init := fun node => node = {}
  allowed := Allowed
  step := step

end CacheNode

end QuorumKit
