/-
The segmented log and the memory log implement one abstract log.

Both are run side by side on the same operations, within what the log manager
promises and without failing system calls.  The segmented storage stands for a
layout and the memory storage for a list of entries; the records of the layout
are those that `append` writes for the entries, index by index.
-/

import QuorumKit.Library.TransitionSystem
import QuorumKit.Log.MemoryLogStorage
import QuorumKit.Log.TornTail
import QuorumKit.Log.TruncateSteps

namespace QuorumKit

open Library

def Layout.liveAt (layout : Layout) (index : Int) : Option Record :=
  if index < 0 then none else layout.live.get? index.toNat

theorem Layout.recordAt_eq {layout : Layout} (consistent : layout.Consistent)
    (positive : 1 ≤ layout.firstLogIndex) (index : Int) :
    layout.recordAt index = layout.liveAt index := by
  have stop := Layout.live_stop consistent positive
  have liveFirst : layout.live.first = layout.firstLogIndex.toNat := rfl
  unfold Layout.recordAt Layout.liveAt
  by_cases inside : layout.firstLogIndex ≤ index ∧ index ≤ layout.lastLogIndex
  · have file : layout.closed ≠ [] ∨ layout.opened ≠ none := by
      by_contra noFile
      push Not at noFile
      have last : layout.lastLogIndex = layout.firstLogIndex - 1 := by
        simp [Layout.lastLogIndex, noFile]
      omega
    have base := (consistent.base_le file).1
    rw [if_pos ⟨inside.1, inside.2, by omega⟩, if_neg (by omega), IndexedLog.get?,
      if_neg (by omega)]
    change _ = (layout.records.drop (layout.firstLogIndex - layout.base).toNat)[_]?
    rw [List.getElem?_drop]
    congr 1
    omega
  · rw [if_neg (fun found => inside ⟨found.1, found.2.1⟩)]
    split
    · rfl
    · exact ((layout.live.get?_eq_none_iff index.toNat).mpr (by omega)).symm

section Agreement

variable {P : Type} {codec : EntryCodec P}

theorem Stands.getSegment_outside {storage : SegmentLogStorage} {layout : Layout}
    (stands : Stands codec storage layout) {index : Int} (missing : layout.liveAt index = none) :
    storage.getSegment index = none := by
  have first := stands.represents.first
  have last := stands.represents.last
  have stop := Layout.live_stop stands.consistent stands.sound.first
  have liveFirst : layout.live.first = layout.firstLogIndex.toNat := rfl
  have positive := stands.sound.first
  have outside : index < storage.firstLogIndex ∨ storage.lastLogIndex < index := by
    unfold Layout.liveAt at missing
    by_cases negative : index < 0
    · left
      omega
    · rw [if_neg negative, IndexedLog.get?_eq_none_iff] at missing
      omega
  unfold SegmentLogStorage.getSegment
  split
  · rfl
  · rfl

theorem Stands.getEntry {storage : SegmentLogStorage} {layout : Layout}
    (stands : Stands codec storage layout) (index : Int) :
    storage.getEntry codec index =
      (layout.liveAt index).bind (fun record => record.toEntry codec index) := by
  cases found : layout.liveAt index with
  | none =>
      unfold SegmentLogStorage.getEntry
      rw [stands.getSegment_outside found]
      rfl
  | some record =>
      rw [← Layout.recordAt_eq stands.consistent stands.sound.first] at found
      exact stands.represents.getEntry stands.sound found

theorem Stands.getTerm {storage : SegmentLogStorage} {layout : Layout}
    (stands : Stands codec storage layout) (index : Int) :
    storage.getTerm index = ((layout.liveAt index).map Record.term).getD 0 := by
  cases found : layout.liveAt index with
  | none =>
      unfold SegmentLogStorage.getTerm
      rw [stands.getSegment_outside found]
      rfl
  | some record =>
      rw [← Layout.recordAt_eq stands.consistent stands.sound.first] at found
      exact stands.represents.getTerm stands.sound found

theorem Record.Encodes.term {entry : LogEntry P Bytes} {record : Record}
    (encodes : Record.Encodes codec entry record) : record.term = entry.id.term := by
  unfold Record.Encodes Record.ofEntry? at encodes
  obtain ⟨data, _, written⟩ := Option.map_eq_some_iff.mp encodes
  rw [← written]

structure LogEntry.Canonical (entry : LogEntry P Bytes) : Prop where
  data : entry.type ≠ .data → entry.data = []
  peers : entry.type ≠ .configuration → entry.peers = none ∧ entry.oldPeers = none
  oldPeers : entry.oldPeers ≠ some []

theorem MemoryLogStorage.mem_of_getEntry {memory : MemoryLogStorage P Bytes} {index : Int}
    {entry : LogEntry P Bytes} (found : memory.getEntry index = some entry) :
    entry ∈ memory.logEntryData := by
  unfold MemoryLogStorage.getEntry at found
  split at found
  · contradiction
  · exact List.mem_of_getElem? found

structure Agrees (codec : EntryCodec P) (segment : SegmentLogStorage)
    (memory : MemoryLogStorage P Bytes) (layout : Layout) (log : LogStorage P Bytes) : Prop where
  stands : Stands codec segment layout
  implements : memory.Implements log
  records : log.Matches (Record.Encodes codec) layout.live

variable {segment : SegmentLogStorage} {memory : MemoryLogStorage P Bytes} {layout : Layout}
  {log : LogStorage P Bytes}

theorem Agrees.first (agrees : Agrees codec segment memory layout log) :
    segment.firstLogIndex = memory.firstLogIndex := by
  have positive := agrees.stands.sound.first
  have same : log.first = layout.firstLogIndex.toNat := agrees.records.first
  rw [agrees.stands.represents.first, agrees.implements.first]
  omega

theorem Agrees.last (agrees : Agrees codec segment memory layout log) :
    segment.lastLogIndex = memory.lastLogIndex := by
  have stop := Layout.live_stop agrees.stands.consistent agrees.stands.sound.first
  have same := agrees.records.stop
  have last := agrees.implements.last
  have segmentLast := agrees.stands.represents.last
  omega

theorem Agrees.liveAt (agrees : Agrees codec segment memory layout log) (index : Int) :
    Option.Rel (Record.Encodes codec) (memory.getEntry index) (layout.liveAt index) := by
  rw [agrees.implements.getEntry, Layout.liveAt]
  by_cases negative : index < 0
  · rw [if_pos negative, if_pos negative]
    exact Option.Rel.none
  · rw [if_neg negative, if_neg negative]
    exact agrees.records.get? index.toNat

theorem Agrees.getTerm (agrees : Agrees codec segment memory layout log) (index : Int) :
    segment.getTerm index = memory.getTerm index := by
  have atIndex := agrees.liveAt index
  rw [agrees.stands.getTerm, MemoryLogStorage.getTerm_eq]
  generalize memory.getEntry index = entry at atIndex ⊢
  generalize layout.liveAt index = record at atIndex ⊢
  cases atIndex with
  | none => rfl
  | some encodes => exact encodes.term

/-- An entry read from the segmented storage is what `append` keeps of the entry of
the memory storage. -/
theorem Agrees.getEntry (agrees : Agrees codec segment memory layout log) (index : Int) :
    segment.getEntry codec index = (memory.getEntry index).map LogEntry.stored := by
  have atIndex := agrees.liveAt index
  rw [agrees.stands.getEntry]
  generalize layout.liveAt index = record at atIndex ⊢
  cases found : memory.getEntry index with
  | none =>
      rw [found] at atIndex
      cases atIndex
      rfl
  | some entry =>
      rw [found] at atIndex
      have here : (entry.id.index : Int) = index := by
        rw [agrees.implements.getEntry] at found
        split at found
        · contradiction
        · have bounds := IndexedLog.get?_bounds found
          unfold IndexedLog.get? at found
          rw [if_neg (by omega)] at found
          have indexed := agrees.implements.indexed _ _ found
          omega
      cases atIndex with
      | some encodes => exact Record.toEntry_ofEntry? codec encodes here

def SegmentLogStorage.Follows (segment : SegmentLogStorage) (entries : List (LogEntry P Bytes)) :
    Prop :=
  ∀ (position : Nat) entry, entries[position]? = some entry →
    (entry.id.index : Int) = segment.lastLogIndex + 1 + position

theorem Agrees.appendEntries (agrees : Agrees codec segment memory layout log) (flags : LogFlags)
    {entries : List (LogEntry P Bytes)} (nonempty : entries ≠ [])
    (writable : ∀ entry ∈ entries, entry.Writable codec) (follows : segment.Follows entries) :
    ∃ layout log, Agrees codec (segment.appendEntries codec flags entries).2
      (memory.appendEntries entries).2 layout log := by
  obtain ⟨after, afterLayout, records, appends, stands, encode, live⟩ :=
    agrees.stands.appendEntries flags nonempty writable follows
  have sameLast := agrees.last
  have last := agrees.implements.last
  have indexed : IndexedFrom log.stop entries := by
    intro position entry found
    have atIndex := follows position entry found
    omega
  refine ⟨afterLayout, log.append entries, ?_, agrees.implements.appendEntries indexed, ?_⟩
  · rw [appends]
    exact stands
  · rw [live]
    exact agrees.records.append encode

theorem Agrees.truncatePrefix (agrees : Agrees codec segment memory layout log) {kept : Int}
    (lower : segment.firstLogIndex ≤ kept) :
    ∃ layout log, Agrees codec (segment.truncatePrefix kept).2 (memory.truncatePrefix kept).2
      layout log := by
  obtain ⟨after, afterLayout, truncates, stands, live⟩ := agrees.stands.truncatePrefix lower
  have first := agrees.first
  have memoryFirst := agrees.implements.first
  have keptNat : ((kept.toNat : Nat) : Int) = kept := by omega
  have implements := agrees.implements.truncatePrefix (show log.first ≤ kept.toNat by omega)
  rw [keptNat] at implements
  refine ⟨afterLayout, _, ?_, implements, ?_⟩
  · rw [truncates]
    exact stands
  · rw [live]
    exact agrees.records.dropBelow kept.toNat

theorem Agrees.truncateSuffix (agrees : Agrees codec segment memory layout log) {kept : Int}
    (lower : segment.firstLogIndex - 1 ≤ kept) (upper : kept < segment.lastLogIndex) :
    ∃ layout log, Agrees codec (segment.truncateSuffix kept).2 (memory.truncateSuffix kept).2
      layout log := by
  obtain ⟨afterLayout, stands, live⟩ := agrees.stands.truncateSuffix lower upper
  have first := agrees.first
  have last := agrees.last
  have memoryFirst := agrees.implements.first
  have memoryLast := agrees.implements.last
  have positive := agrees.stands.sound.first
  have segmentFirst := agrees.stands.represents.first
  have keptNat : ((kept.toNat : Nat) : Int) = kept := by omega
  have implements := agrees.implements.truncateSuffix (show log.first ≤ kept.toNat + 1 by omega)
    (by omega)
  rw [keptNat] at implements
  refine ⟨afterLayout, _, stands, implements, ?_⟩
  rw [live, show (kept + 1).toNat = kept.toNat + 1 by omega]
  exact agrees.records.keepBelow (kept.toNat + 1)

theorem Agrees.reset (agrees : Agrees codec segment memory layout log) {next : Int}
    (positive : 1 ≤ next) :
    ∃ layout log, Agrees codec (segment.reset next).2 (memory.reset next).2 layout log := by
  obtain ⟨after, afterLayout, resets, stands, live⟩ := agrees.stands.reset positive
  have nextNat : ((next.toNat : Nat) : Int) = next := by omega
  have implements := memory.implements_reset (show 0 < next.toNat by omega)
  rw [nextNat] at implements
  refine ⟨afterLayout, _, ?_, implements, ?_⟩
  · rw [resets]
    exact stands
  · rw [live]
    exact ⟨rfl, List.Forall₂.nil⟩

variable [DecidableEq P]

theorem stands_init (codec : EntryCodec P) (flags : LogFlags) {checksumType : Nat}
    (known : checksumType < 2) (enableSync : Bool) (manager : ConfigurationManager P) :
    ∃ layout, Stands codec
        ((SegmentLogStorage.fresh {} checksumType enableSync).init codec flags manager).2.1 layout ∧
      layout.live = { first := 1, entries := [] } := by
  have started : ((SegmentLogStorage.fresh {} checksumType enableSync).init codec flags
      manager).2.1 =
        { SegmentLogStorage.fresh {} checksumType enableSync with
          fs := ({ disk := {} } : LogFs).record (.save 1) } := rfl
  have onDisk : OnDisk codec (({} : LogDisk).apply (.save 1)) ⟨1, 1, [], none⟩ :=
    ⟨⟨List.nodup_nil, List.nodup_nil, by simp [Disk.apply]⟩, rfl, fun _ _ => rfl⟩
  have sound : Layout.Sound codec ⟨1, 1, [], none⟩ :=
    ⟨by simp, by simp [Layout.records], le_refl 1, le_refl 1, by simp [Layout.records]⟩
  have noSegments : (SegmentLogStorage.fresh {} checksumType enableSync).allSegments = [] := rfl
  refine ⟨⟨1, 1, [], none⟩, ?_, rfl⟩
  rw [started]
  refine ⟨⟨rfl, rfl, List.Forall₂.nil, List.Forall₂.nil, onDisk⟩, sound,
    by simp [Layout.Consistent], rfl, known, ?_⟩
  intro segment member
  change segment ∈ (SegmentLogStorage.fresh {} checksumType enableSync).allSegments at member
  rw [noSegments] at member
  contradiction

structure LogPair (P : Type) where
  segment : SegmentLogStorage
  memory : MemoryLogStorage P Bytes

inductive LogOperation (P : Type) where
  | appendEntries (flags : LogFlags) (entries : List (LogEntry P Bytes))
  | truncatePrefix (firstIndexKept : Int)
  | truncateSuffix (lastIndexKept : Int)
  | reset (nextLogIndex : Int)

def LogPair.step (codec : EntryCodec P) (pair : LogPair P) : LogOperation P → LogPair P
  | .appendEntries flags entries =>
      { segment := (pair.segment.appendEntries codec flags entries).2
        memory := (pair.memory.appendEntries entries).2 }
  | .truncatePrefix firstIndexKept =>
      { segment := (pair.segment.truncatePrefix firstIndexKept).2
        memory := (pair.memory.truncatePrefix firstIndexKept).2 }
  | .truncateSuffix lastIndexKept =>
      { segment := (pair.segment.truncateSuffix lastIndexKept).2
        memory := (pair.memory.truncateSuffix lastIndexKept).2 }
  | .reset nextLogIndex =>
      { segment := (pair.segment.reset nextLogIndex).2
        memory := (pair.memory.reset nextLogIndex).2 }

def LogPair.Promised (codec : EntryCodec P) (pair : LogPair P) : LogOperation P → Prop
  | .appendEntries _ entries =>
      entries ≠ [] ∧ (∀ entry ∈ entries, entry.Writable codec) ∧ pair.segment.Follows entries
  | .truncatePrefix firstIndexKept => pair.segment.firstLogIndex ≤ firstIndexKept
  | .truncateSuffix lastIndexKept =>
      pair.segment.firstLogIndex - 1 ≤ lastIndexKept ∧ lastIndexKept < pair.segment.lastLogIndex
  | .reset nextLogIndex => 1 ≤ nextLogIndex

/-- Both storages after `init`, the segmented one over an empty directory. -/
def LogPair.Started (codec : EntryCodec P) (pair : LogPair P) : Prop :=
  ∃ flags checksumType enableSync manager, checksumType < 2 ∧
    pair.segment =
      ((SegmentLogStorage.fresh {} checksumType enableSync).init codec flags manager).2.1 ∧
    pair.memory = (MemoryLogStorage.init {}).2

def storagePair (codec : EntryCodec P) : TransitionSystem (LogPair P) (LogOperation P) where
  init := LogPair.Started codec
  allowed operation pair := pair.Promised codec operation
  step operation pair := some (pair.step codec operation)

theorem storagePair_agrees {pair : LogPair P} (reached : (storagePair codec).Reachable pair) :
    ∃ layout log, Agrees codec pair.segment pair.memory layout log := by
  refine reached.invariant
    (fun pair => ∃ layout log, Agrees codec pair.segment pair.memory layout log) ?_ ?_
  · intro pair started
    obtain ⟨flags, checksumType, enableSync, manager, known, isSegment, isMemory⟩ := started
    obtain ⟨layout, stands, live⟩ := stands_init codec flags known enableSync manager
    rw [isSegment, isMemory]
    refine ⟨layout, _, stands, MemoryLogStorage.implements_init, ?_⟩
    rw [live]
    exact ⟨rfl, List.Forall₂.nil⟩
  · intro operation before after holds promised stepped
    obtain ⟨layout, log, agrees⟩ := holds
    change some (before.step codec operation) = some after at stepped
    rw [← Option.some.inj stepped]
    cases operation with
    | appendEntries flags entries =>
        exact agrees.appendEntries flags promised.1 promised.2.1 promised.2.2
    | truncatePrefix firstIndexKept => exact agrees.truncatePrefix promised
    | truncateSuffix lastIndexKept => exact agrees.truncateSuffix promised.1 promised.2
    | reset nextLogIndex => exact agrees.reset promised

/-- Both storages report the same bounds, terms and entries.  What is read back
from a file is the part of an entry that `append` keeps, the whole of a canonical
entry. -/
structure LogPair.SameLog (codec : EntryCodec P) (pair : LogPair P) : Prop where
  first : pair.segment.firstLogIndex = pair.memory.firstLogIndex
  last : pair.segment.lastLogIndex = pair.memory.lastLogIndex
  term : ∀ index, pair.segment.getTerm index = pair.memory.getTerm index
  stored : ∀ index, pair.segment.getEntry codec index =
    (pair.memory.getEntry index).map LogEntry.stored
  entry : (∀ entry ∈ pair.memory.logEntryData, entry.Canonical) →
    ∀ index, pair.segment.getEntry codec index = pair.memory.getEntry index

theorem storagePair_sameLog {pair : LogPair P} (reached : (storagePair codec).Reachable pair) :
    pair.SameLog codec := by
  obtain ⟨layout, log, agrees⟩ := storagePair_agrees reached
  refine ⟨agrees.first, agrees.last, agrees.getTerm, agrees.getEntry, ?_⟩
  intro canonical index
  rw [agrees.getEntry]
  cases found : pair.memory.getEntry index with
  | none => rfl
  | some entry =>
      have member := canonical entry (MemoryLogStorage.mem_of_getEntry found)
      rw [Option.map_some, entry.stored_eq_self member.data member.peers member.oldPeers]

end Agreement

def startedPair : LogPair Nat where
  segment := ((SegmentLogStorage.fresh {} 0 true).init plainCodec {} .init).2.1
  memory := (MemoryLogStorage.init {}).2

def noOpEntry (index : Nat) : LogEntry Nat Bytes :=
  { type := .noOp, id := { index := index, term := 1 }, data := [] }

def rolledOperations : List (LogOperation Nat) :=
  [.appendEntries { raftMaxSegmentSize := 0 } [noOpEntry 1],
    .appendEntries { raftMaxSegmentSize := 0 } [noOpEntry 2],
    .truncateSuffix 1]

def rolledPair : LogPair Nat := rolledOperations.foldl (LogPair.step plainCodec) startedPair

theorem noOpEntry_promised (flags : LogFlags) (pair : LogPair Nat) {index : Nat}
    (small : index + 1 < 2 ^ 63) (next : pair.segment.lastLogIndex + 1 = index) :
    pair.Promised plainCodec (.appendEntries flags [noOpEntry index]) := by
  refine ⟨by simp, ?_, ?_⟩
  · intro entry member
    rw [List.mem_singleton.mp member]
    exact ⟨⟨[], rfl, by decide⟩, show 1 < 2 ^ 63 by decide, small⟩
  · intro position entry found
    have isHead : position = 0 := by
      have inside := (List.getElem?_eq_some_iff.mp found).1
      simpa using inside
    subst isHead
    rw [List.getElem?_cons_zero, Option.some.injEq] at found
    rw [← found, next]
    simp [noOpEntry]

theorem rolledPair_sameLog : rolledPair.SameLog plainCodec := by
  have started : (storagePair plainCodec).Reachable startedPair :=
    .start ⟨{}, 0, true, .init, by decide, rfl, rfl⟩
  refine storagePair_sameLog (started.follows rolledOperations ?_)
  exact ⟨noOpEntry_promised { raftMaxSegmentSize := 0 } _ (by decide) (by decide), _, rfl,
    noOpEntry_promised { raftMaxSegmentSize := 0 } _ (by decide) (by decide), _, rfl,
    ⟨by decide, by decide⟩, _, rfl, rfl⟩

/-- The second entry had its own segment, which the cut removed. -/
example : rolledPair.segment.segments.length = 1 ∧ rolledPair.segment.openSeg = none ∧
    rolledPair.segment.lastLogIndex = 1 := by decide

end QuorumKit
