/-
Peer sets, configuration entries and the configuration history of
`braft/configuration.h` and `braft/configuration_manager.cpp`.

A `Configuration` is a `std::set<PeerId>`: the list of its members in iteration
order, with the proof that none is repeated.  The history keeps its entries in
strictly increasing index order, which `ConfigurationManager::add` enforces.
-/

import Mathlib.Data.List.Dedup
import Mathlib.Data.List.DropRight
import QuorumKit.LogEntry

namespace QuorumKit

structure Configuration (P : Type) where
  peers : List P
  nodup : peers.Nodup
deriving DecidableEq

namespace Configuration

variable {P : Type} [DecidableEq P]

/-- The set built from a `std::vector` of peers. -/
def ofList (peers : List P) : Configuration P :=
  ⟨peers.dedup, peers.nodup_dedup⟩

def empty : Configuration P := ⟨[], List.nodup_nil⟩

def isEmpty (conf : Configuration P) : Bool := conf.peers.isEmpty

def size (conf : Configuration P) : Nat := conf.peers.length

def contains (conf : Configuration P) (peer : P) : Bool := peer ∈ conf.peers

/-- `add_peer`. -/
def addPeer (conf : Configuration P) (peer : P) : Configuration P :=
  if inside : peer ∈ conf.peers then conf
  else ⟨conf.peers ++ [peer], List.nodup_append.mpr
    ⟨conf.nodup, List.nodup_singleton peer, fun _ member _ isPeer =>
      fun equal => inside (List.mem_singleton.mp isPeer ▸ equal ▸ member)⟩⟩

/-- `remove_peer`. -/
def removePeer (conf : Configuration P) (peer : P) : Configuration P :=
  ⟨conf.peers.erase peer, conf.nodup.erase peer⟩

/-- The first result of `diffs`: the peers that `rhs` does not have. -/
def minus (conf rhs : Configuration P) : Configuration P :=
  ⟨conf.peers.filter (· ∉ rhs.peers), conf.nodup.filter _⟩

/-- `diffs`: the peers that are included and those that are excluded. -/
def diffs (conf rhs : Configuration P) : Configuration P × Configuration P :=
  (conf.minus rhs, rhs.minus conf)

/-- `equals`. -/
def equals (conf rhs : Configuration P) : Bool :=
  conf.size = rhs.size ∧ ∀ peer ∈ conf.peers, rhs.contains peer = true

@[simp] theorem contains_iff (conf : Configuration P) (peer : P) :
    conf.contains peer = true ↔ peer ∈ conf.peers := by
  simp [contains]

theorem ofList_peers (conf : Configuration P) : ofList conf.peers = conf := by
  cases conf with
  | mk peers nodup =>
      unfold ofList
      congr
      exact nodup.dedup

end Configuration

structure ConfigurationEntry (P : Type) where
  id : LogId := {}
  conf : Configuration P
  oldConf : Configuration P
deriving DecidableEq

namespace ConfigurationEntry

variable {P : Type} [DecidableEq P]

def default : ConfigurationEntry P :=
  { conf := Configuration.empty, oldConf := Configuration.empty }

def ofLogEntry {D : Type} (entry : LogEntry P D) : ConfigurationEntry P :=
  { id := entry.id
    conf := Configuration.ofList (entry.peers.getD [])
    oldConf := Configuration.ofList (entry.oldPeers.getD []) }

def stable (entry : ConfigurationEntry P) : Bool := entry.oldConf.isEmpty

def contains (entry : ConfigurationEntry P) (peer : P) : Bool :=
  entry.conf.contains peer || entry.oldConf.contains peer

end ConfigurationEntry

structure ConfigurationManager (P : Type) where
  configurations : List (ConfigurationEntry P) := []
  snapshot : ConfigurationEntry P

namespace ConfigurationManager

variable {P : Type} [DecidableEq P]

def init : ConfigurationManager P := { snapshot := ConfigurationEntry.default }

/-- `add`: refused (`CHECK(false)`, `-1`) when the index does not grow. -/
def add (manager : ConfigurationManager P) (entry : ConfigurationEntry P) :
    ConfigurationManager P :=
  match manager.configurations.getLast? with
  | some back =>
      if entry.id.index ≤ back.id.index then manager
      else { manager with configurations := manager.configurations ++ [entry] }
  | none => { manager with configurations := manager.configurations ++ [entry] }

def truncatePrefix (manager : ConfigurationManager P) (firstIndexKept : Nat) :
    ConfigurationManager P :=
  { manager with
    configurations :=
      manager.configurations.dropWhile (fun entry => entry.id.index < firstIndexKept) }

def truncateSuffix (manager : ConfigurationManager P) (lastIndexKept : Nat) :
    ConfigurationManager P :=
  { manager with
    configurations :=
      manager.configurations.rdropWhile (fun entry => lastIndexKept < entry.id.index) }

def setSnapshot (manager : ConfigurationManager P) (entry : ConfigurationEntry P) :
    ConfigurationManager P :=
  { manager with snapshot := entry }

/-- `get`: the newest configuration at or below an index. -/
def get (manager : ConfigurationManager P) (lastIncludedIndex : Nat) :
    ConfigurationEntry P :=
  ((manager.configurations.takeWhile
      (fun entry => entry.id.index ≤ lastIncludedIndex)).getLast?).getD manager.snapshot

def lastConfiguration (manager : ConfigurationManager P) : ConfigurationEntry P :=
  manager.configurations.getLast?.getD manager.snapshot

omit [DecidableEq P] in
theorem add_snapshot (manager : ConfigurationManager P) (entry : ConfigurationEntry P) :
    (manager.add entry).snapshot = manager.snapshot := by
  unfold add
  split
  · split_ifs <;> rfl
  · rfl

omit [DecidableEq P] in
theorem add_lastConfiguration (manager : ConfigurationManager P) (entry : ConfigurationEntry P)
    (newer : manager.lastConfiguration.id.index < entry.id.index) :
    (manager.add entry).lastConfiguration = entry := by
  unfold add
  cases isBack : manager.configurations.getLast? with
  | none =>
      unfold lastConfiguration
      simp only [List.getLast?_concat, Option.getD_some]
  | some back =>
      rw [lastConfiguration, isBack, Option.getD_some] at newer
      simp only [lastConfiguration, if_neg (not_le.mpr newer), List.getLast?_concat,
        Option.getD_some]

omit [DecidableEq P] in
theorem add_lastConfiguration_le (manager : ConfigurationManager P) (entry : ConfigurationEntry P)
    {bound : Nat} (former : manager.lastConfiguration.id.index ≤ bound)
    (added : entry.id.index ≤ bound) : (manager.add entry).lastConfiguration.id.index ≤ bound := by
  by_cases newer : manager.lastConfiguration.id.index < entry.id.index
  · rw [add_lastConfiguration manager entry newer]
    exact added
  · unfold add
    cases isBack : manager.configurations.getLast? with
    | none =>
        unfold lastConfiguration
        simpa only [List.getLast?_concat, Option.getD_some] using added
    | some back =>
        rw [lastConfiguration, isBack, Option.getD_some] at newer
        simpa only [if_pos (not_lt.mp newer)] using former

omit [DecidableEq P] in
theorem truncateSuffix_lastConfiguration_le (manager : ConfigurationManager P)
    {lastIndexKept : Nat} (snapshot : manager.snapshot.id.index ≤ lastIndexKept) :
    (manager.truncateSuffix lastIndexKept).lastConfiguration.id.index ≤ lastIndexKept := by
  unfold lastConfiguration truncateSuffix
  simp only
  cases isLast : (manager.configurations.rdropWhile
      (fun entry => lastIndexKept < entry.id.index)).getLast? with
  | none => exact snapshot
  | some last =>
      have nonempty : manager.configurations.rdropWhile
          (fun entry => lastIndexKept < entry.id.index) ≠ [] := by
        intro empty
        rw [empty] at isLast
        contradiction
      have kept := List.rdropWhile_last_not
        (fun entry : ConfigurationEntry P => decide (lastIndexKept < entry.id.index)) _ nonempty
      rw [List.getLast?_eq_some_getLast nonempty] at isLast
      rw [Option.some.inj isLast] at kept
      simpa using kept

end ConfigurationManager

end QuorumKit
