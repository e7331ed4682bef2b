/-
What an acknowledged append has synced, for `SegmentLogStorage::append_entries`.

The call is followed system call by system call: the number it returns counts
the entries written, and an entry is durable when a later fsync of the file it
was written to succeeds.  `batchSynced` reads off the batch, the flags and the
pattern of failures whether that holds for every entry that was counted.

The sync policy is the immediate one and the storage has syncing enabled; the
segment flag and all failures are arbitrary.
-/

import QuorumKit.Log.SegmentLogStorage

namespace QuorumKit

open Library

namespace SegmentLogStorage

/-! ### Durable writes -/

/-- The `i`-th write of a trace put `expected` into `file`, and `file` was synced
after it. -/
def SyncedWrite : List (FsOp FileName Int) → Nat → Nat → Bytes → Prop
  | [], _, _, _ => False
  | .write inode bytes :: rest, 0, file, expected =>
      inode = file ∧ bytes = expected ∧ FsOp.fsync inode ∈ rest
  | .write _ _ :: rest, i + 1, file, expected => SyncedWrite rest i file expected
  | _ :: rest, i, file, expected => SyncedWrite rest i file expected

def NoWrite (ops : List (FsOp FileName Int)) : Prop :=
  ∀ inode bytes, FsOp.write inode bytes ∉ ops

theorem syncedWrite_append {front : List (FsOp FileName Int)} (noWrite : NoWrite front)
    (back : List (FsOp FileName Int)) (i file : Nat) (expected : Bytes) :
    SyncedWrite (front ++ back) i file expected ↔ SyncedWrite back i file expected := by
  induction front with
  | nil => rfl
  | cons op rest ih =>
      have restNoWrite : NoWrite rest := by
        intro inode bytes member
        exact noWrite inode bytes (List.mem_cons_of_mem _ member)
      cases op with
      | write inode bytes => exact absurd List.mem_cons_self (noWrite inode bytes)
      | create name => simpa [SyncedWrite] using ih restNoWrite
      | fsync inode => simpa [SyncedWrite] using ih restNoWrite
      | rename old new => simpa [SyncedWrite] using ih restNoWrite
      | unlink name => simpa [SyncedWrite] using ih restNoWrite
      | truncate inode size => simpa [SyncedWrite] using ih restNoWrite
      | save record => simpa [SyncedWrite] using ih restNoWrite

section Sync

variable {P : Type} (codec : EntryCodec P) (flags : LogFlags)

/-- Every entry that the call counts as appended was written and synced. -/
def AppendsDurably (storage : SegmentLogStorage) (entries : List (LogEntry P Bytes)) :
    Prop :=
  let (appended, result) := appendEntries codec flags storage entries
  let ops := result.fs.trace.drop storage.fs.trace.length
  ∀ i : Nat, (i : Int) < appended →
    ∃ entry record file,
      entries[i]? = some entry ∧ Record.ofEntry? codec storage.checksumType entry = some record ∧
        SyncedWrite ops i file (record.encode codec)

structure OpenFile where
  count : Nat
  bytes : Nat
  clock : Nat

variable (faults : Nat → Option Nat) (checksumType : Nat)

/-- The size that an entry adds to the file when its append succeeds. -/
def writtenSize (clock : Nat) (index : Int) (entry : LogEntry P Bytes) : Option Nat :=
  match Record.ofEntry? codec checksumType entry with
  | some record =>
      if (entry.id.index : Int) = index ∧ faults clock = none then
        some (record.encode codec).length
      else none
  | none => none

def OpenFile.write (file : OpenFile) (index : Int) (entry : LogEntry P Bytes) :
    Option OpenFile :=
  (writtenSize codec faults checksumType file.clock index entry).map (fun size =>
    { count := file.count + 1, bytes := file.bytes + size, clock := file.clock + 1 })

def OpenFile.isFull (file : OpenFile) : Prop := flags.raftMaxSegmentSize < file.bytes

instance (file : OpenFile) : Decidable (file.isFull flags) := by
  unfold OpenFile.isFull; infer_instance

/-- Leaving a file syncs it only with `raft_sync_segments` and from two entries
on. -/
def OpenFile.closeSyncs (file : OpenFile) : Prop :=
  flags.raftSyncSegments = true ∧ 2 ≤ file.count

instance (file : OpenFile) : Decidable (file.closeSyncs flags) := by
  unfold OpenFile.closeSyncs; infer_instance

/-- The file that the next entry goes to: a full file is synced, renamed and
replaced, and each of the three calls may fail. -/
def OpenFile.next (file : OpenFile) : Option OpenFile :=
  if file.isFull flags then
    let renameAt := if file.closeSyncs flags then file.clock + 1 else file.clock
    if (file.closeSyncs flags → faults file.clock = none) ∧ faults renameAt = none ∧
        faults (renameAt + 1) = none then
      some { count := 0, bytes := 0, clock := renameAt + 2 }
    else none
  else some file

/-- The rest of the batch syncs the file in use: by leaving it, or by ending in
it without a failure and with a successful last fsync. -/
def fileSynced (file : OpenFile) (index : Int) : List (LogEntry P Bytes) → Prop
  | [] => faults file.clock = none
  | entry :: rest =>
      if file.isFull flags then file.closeSyncs flags ∧ faults file.clock = none
      else
        match file.write codec faults checksumType index entry with
        | none => False
        | some file => fileSynced file (index + 1) rest

/-- Every entry of the batch that gets written goes to a file that the rest of
the batch syncs. -/
def batchSynced (file : OpenFile) (index : Int) : List (LogEntry P Bytes) → Prop
  | [] => True
  | entry :: rest =>
      match (file.next flags faults).bind
          (fun file => file.write codec faults checksumType index entry) with
      | none => True
      | some file =>
          fileSynced codec flags faults checksumType file (index + 1) rest ∧
            batchSynced file (index + 1) rest

def SyncsBatch (storage : SegmentLogStorage) (entries : List (LogEntry P Bytes)) : Prop :=
  let index := storage.lastLogIndex + 1
  let clock := storage.fs.clock
  (∀ front, entries.head? = some front → (front.id.index : Int) = index) →
    match storage.openSeg with
    | none =>
        storage.fs.faults clock = none →
          batchSynced codec flags storage.fs.faults storage.checksumType
            { count := 0, bytes := 0, clock := clock + 1 } index entries
    | some segment =>
        segment.isOpen = true →
          batchSynced codec flags storage.fs.faults storage.checksumType
            { count := (segment.lastIndex + 1 - segment.firstIndex).toNat
              bytes := segment.bytes
              clock := clock }
            index entries

/-- The storage has this segment open for writing, and `file` describes it. -/
structure Ready (storage : SegmentLogStorage) (segment : Segment) (inode : Nat)
    (file : OpenFile) : Prop where
  opened : storage.openSeg = some segment
  isOpen : segment.isOpen = true
  fd : segment.fd = some inode
  named : storage.fs.disk.lookup (.inprogress segment.firstIndex) = some inode
  last : segment.lastIndex = storage.lastLogIndex
  count : segment.lastIndex + 1 - segment.firstIndex = file.count
  bytes : segment.bytes = file.bytes
  clock : storage.fs.clock = file.clock
  faults : storage.fs.faults = faults
  segmentChecksum : segment.checksumType = checksumType
  checksum : storage.checksumType = checksumType
  disk : storage.fs.disk.WellFormed
  enableSync : storage.enableSync = true

def Settled (disk : LogDisk) (inode : Nat) : Prop :=
  inode < disk.nextInode ∧ ∀ firstIndex, disk.lookup (.inprogress firstIndex) ≠ some inode

def NoSync (ops : List (FsOp FileName Int)) : Prop :=
  ∀ inode, FsOp.fsync inode ∉ ops

variable {faults checksumType}
variable {storage : SegmentLogStorage} {segment : Segment} {inode : Nat} {file : OpenFile}

/-- `append` succeeds exactly when the file description takes the entry. -/
theorem append_written (ready : Ready faults checksumType storage segment inode file)
    {entry : LogEntry P Bytes} {written : OpenFile}
    (taken : file.write codec faults checksumType (storage.lastLogIndex + 1) entry =
      some written) :
    ∃ record,
      Record.ofEntry? codec checksumType entry = some record ∧
        let size := (record.encode codec).length
        let appended := segment.grow entry.id.term size
        let fs := storage.fs.record (.write inode (record.encode codec))
        segment.append codec entry storage.fs = (0, appended, fs) ∧
          Ready faults checksumType
            { storage with
              openSeg := some appended
              fs := fs
              lastLogIndex := storage.lastLogIndex + 1 }
            appended inode written := by
  unfold OpenFile.write writtenSize at taken
  cases found : Record.ofEntry? codec checksumType entry with
  | none => simp [found] at taken
  | some record =>
      simp only [found] at taken
      split at taken
      · rename_i accepted
        have works : storage.fs.faults storage.fs.clock = none := by
          rw [ready.faults, ready.clock]
          exact accepted.2
        simp only [Option.map_some, Option.some.injEq] at taken
        have indexFits : ¬ ((entry.id.index : Int) ≠ segment.lastIndex + 1) := by
          rw [ready.last]
          exact not_not.mpr accepted.1
        refine ⟨record, rfl, ?_, ?_⟩
        · unfold Segment.append
          simp only [ready.isOpen, not_true_eq_false, if_false, indexFits, found, ready.fd,
            FileSystem.write, works, ready.segmentChecksum]
        · subst taken
          have counted := ready.count
          refine ⟨rfl, ready.isOpen, ready.fd, ready.named, ?_, ?_, ?_, ?_, ready.faults,
            ready.segmentChecksum, ready.checksum, ?_, ready.enableSync⟩
          · simp [Segment.grow, ready.last]
          · simp only [Segment.grow]
            push_cast
            omega
          · simp [Segment.grow, ready.bytes]
          · simp [FileSystem.record, ready.clock]
          · exact Disk.wellFormed_setContent _ ready.disk
      · simp at taken

theorem append_refused (ready : Ready faults checksumType storage segment inode file)
    {entry : LogEntry P Bytes}
    (refused : file.write codec faults checksumType (storage.lastLogIndex + 1) entry =
      none) :
    ∃ ret fs ops,
      segment.append codec entry storage.fs = (ret, segment, fs) ∧ ret ≠ 0 ∧
        fs.trace = storage.fs.trace ++ ops ∧ NoSync ops := by
  unfold Segment.append
  simp only [ready.isOpen, not_true_eq_false, if_false, ready.last, ready.segmentChecksum]
  by_cases indexFits : (entry.id.index : Int) ≠ storage.lastLogIndex + 1
  · rw [if_pos indexFits]
    exact ⟨_, _, [], rfl, by decide, by simp, by simp [NoSync]⟩
  · rw [if_neg indexFits]
    cases found : Record.ofEntry? codec checksumType entry with
    | none => exact ⟨_, _, [], rfl, by decide, by simp, by simp [NoSync]⟩
    | some record =>
        simp only [ready.fd, FileSystem.write]
        cases fault : storage.fs.faults storage.fs.clock with
        | none =>
            rw [ready.faults, ready.clock] at fault
            have accepted : (entry.id.index : Int) = storage.lastLogIndex + 1 ∧
                faults file.clock = none := ⟨not_not.mp indexFits, fault⟩
            simp [OpenFile.write, writtenSize, found, accepted] at refused
        | some partialSize =>
            exact ⟨_, _, [_], rfl, by decide, rfl, by simp [NoSync]⟩

/-! ### Rolling over -/

theorem closeSyncs_iff (ready : Ready faults checksumType storage segment inode file) :
    (segment.firstIndex < segment.lastIndex ∧ flags.raftSyncSegments = true ∧
        storage.enableSync = true) ↔ file.closeSyncs flags := by
  have counted := ready.count
  unfold OpenFile.closeSyncs
  constructor
  · rintro ⟨several, segments, _⟩
    exact ⟨segments, by omega⟩
  · rintro ⟨segments, several⟩
    exact ⟨by omega, segments, ready.enableSync⟩

/-- The files that settled before a rename and a creation stay settled, and the
renamed file joins them. -/
theorem settled_rename_create {disk : LogDisk} (wellFormed : disk.WellFormed)
    {firstIndex : Int} (lastIndex nextIndex : Int) {inode : Nat}
    (named : disk.lookup (.inprogress firstIndex) = some inode) {x : Nat}
    (settled : x = inode ∨ Settled disk x) :
    Settled ((disk.apply (.rename (.inprogress firstIndex)
      (.closed firstIndex lastIndex))).apply (.create (.inprogress nextIndex))) x := by
  set renamed := disk.apply (.rename (.inprogress firstIndex)
    (.closed firstIndex lastIndex)) with renamedEq
  have renamedWellFormed : renamed.WellFormed := Disk.wellFormed_rename disk wellFormed
  have below : x < renamed.nextInode := by
    rw [renamedEq, Disk.nextInode_rename]
    rcases settled with rfl | ⟨below, _⟩
    · exact Disk.lookup_lt_nextInode disk wellFormed named
    · exact below
  have unnamed : ∀ index, renamed.lookup (.inprogress index) ≠ some x := by
    intro index found
    rw [renamedEq, Disk.lookup_rename disk named] at found
    simp only [reduceCtorEq, if_false] at found
    split at found
    · contradiction
    · rename_i otherName
      rcases settled with rfl | ⟨_, unnamed⟩
      · exact otherName (lookup_inj wellFormed.inodes found named)
      · exact unnamed index found
  refine ⟨lt_of_lt_of_le below (Disk.nextInode_le_create renamed _), ?_⟩
  intro index found
  rw [Disk.lookup_create] at found
  split at found
  · have created : renamed.createdInode (.inprogress nextIndex) = x :=
      Option.some.inj found
    unfold Disk.createdInode at created
    cases listed : renamed.lookup (.inprogress nextIndex) with
    | none =>
        rw [listed] at created
        simp only [Option.getD_none] at created
        omega
    | some old =>
        rw [listed] at created
        simp only [Option.getD_some] at created
        exact unnamed nextIndex (by rw [listed, created])
  · exact unnamed index found

theorem close_after_sync {fs closedFs : LogFs} {renamed : Bool}
    (isOpen : segment.isOpen = true)
    (synced : (if segment.firstIndex < segment.lastIndex ∧
        flags.raftSyncSegments = true ∧ storage.enableSync = true then
          Segment.raftFsync segment.fd storage.fs
        else (0, storage.fs)) = (0, fs))
    (outcome : fs.rename (.inprogress segment.firstIndex)
      (.closed segment.firstIndex segment.lastIndex) = (renamed, closedFs)) :
    segment.close flags storage.enableSync storage.fs =
      (if renamed then 0 else -1, { segment with isOpen := false }, closedFs) := by
  unfold Segment.close
  simp only [isOpen, not_true_eq_false, if_false, synced, if_true, outcome]
  cases renamed <;> rfl

/-- The segment that `createSegment` opens. -/
def createdSegment (storage : SegmentLogStorage) : Segment :=
  { Segment.newOpen (storage.lastLogIndex + 1) storage.checksumType with
    fd := some (storage.fs.disk.createdInode (.inprogress (storage.lastLogIndex + 1))) }

theorem createSegment_ok (works : storage.fs.faults storage.fs.clock = none) :
    createSegment storage =
      (0,
        { storage with
          openSeg := some storage.createdSegment
          fs := storage.fs.record (.create (.inprogress (storage.lastLogIndex + 1))) }) := by
  have opened := Disk.lookup_create storage.fs.disk
    (.inprogress (storage.lastLogIndex + 1)) (.inprogress (storage.lastLogIndex + 1))
  rw [if_pos rfl] at opened
  simp only [createSegment, Segment.create, Segment.newOpen, FileSystem.create, works,
    if_true, opened]
  rfl

theorem createSegment_fails {fault : Nat}
    (fails : storage.fs.faults storage.fs.clock = some fault) :
    createSegment storage = (-1, { storage with openSeg := none, fs := storage.fs.fail }) := by
  simp only [createSegment, Segment.create, Segment.newOpen, FileSystem.create, fails,
    if_true]
  rw [if_neg (by decide)]

theorem createdSegment_ready (works : storage.fs.faults = faults)
    (checksum : storage.checksumType = checksumType) (disk : storage.fs.disk.WellFormed)
    (enableSync : storage.enableSync = true) :
    Ready faults checksumType
      { storage with
        openSeg := some storage.createdSegment
        fs := storage.fs.record (.create (.inprogress (storage.lastLogIndex + 1))) }
      storage.createdSegment
      (storage.fs.disk.createdInode (.inprogress (storage.lastLogIndex + 1)))
      { count := 0, bytes := 0, clock := storage.fs.clock + 1 } where
  opened := rfl
  isOpen := rfl
  fd := rfl
  named := by
    have opened := Disk.lookup_create storage.fs.disk
      (.inprogress (storage.lastLogIndex + 1)) (.inprogress (storage.lastLogIndex + 1))
    rw [if_pos rfl] at opened
    exact opened
  last := by simp [createdSegment, Segment.newOpen]
  count := by simp [createdSegment, Segment.newOpen]
  bytes := rfl
  clock := rfl
  faults := works
  segmentChecksum := checksum
  checksum := checksum
  disk := Disk.wellFormed_create _ disk
  enableSync := enableSync

theorem rollOver_after_sync (ready : Ready faults checksumType storage segment inode file)
    (fs : LogFs) (sameDisk : fs.disk = storage.fs.disk) (sameFaults : fs.faults = faults)
    (synced : (if segment.firstIndex < segment.lastIndex ∧
        flags.raftSyncSegments = true ∧ storage.enableSync = true then
          Segment.raftFsync segment.fd storage.fs
        else (0, storage.fs)) = (0, fs)) :
    if faults fs.clock = none ∧ faults (fs.clock + 1) = none then
      ∃ result created newInode ops,
        rollOver flags storage segment = (true, result) ∧
          Ready faults checksumType result created newInode
            { count := 0, bytes := 0, clock := fs.clock + 2 } ∧
          result.fs.trace = fs.trace ++ ops ∧ NoWrite ops ∧ NoSync ops ∧
          result.lastLogIndex = storage.lastLogIndex ∧
          ∀ x, x = inode ∨ Settled storage.fs.disk x → Settled result.fs.disk x
    else
      ∃ result ops,
        rollOver flags storage segment = (false, result) ∧
          result.fs.trace = fs.trace ++ ops ∧ NoWrite ops ∧ NoSync ops := by
  have listed : fs.disk.lookup (.inprogress segment.firstIndex) = some inode := by
    rw [sameDisk]
    exact ready.named
  cases renameFault : faults fs.clock with
  | some fault =>
      rw [if_neg (by simp)]
      have renamed : fs.rename (.inprogress segment.firstIndex)
          (.closed segment.firstIndex segment.lastIndex) = (false, fs.fail) := by
        simp [FileSystem.rename, listed, FileSystem.perform, sameFaults, renameFault]
      have closed := close_after_sync flags ready.isOpen synced renamed
      have reverted : rollOver flags storage segment =
          (false,
            { storage with
              segments := eraseSegment segment.firstIndex storage.segments
              openSeg := some { segment with isOpen := false }
              fs := fs.fail }) := by
        unfold rollOver
        rw [closed]
        rfl
      exact ⟨_, [], reverted, by simp [FileSystem.fail], by simp [NoWrite],
        by simp [NoSync]⟩
  | none =>
      set renamedFs := fs.record (.rename (.inprogress segment.firstIndex)
        (.closed segment.firstIndex segment.lastIndex)) with renamedEq
      have renamed : fs.rename (.inprogress segment.firstIndex)
          (.closed segment.firstIndex segment.lastIndex) = (true, renamedFs) := by
        simp [FileSystem.rename, listed, FileSystem.perform, sameFaults, renameFault,
          renamedEq]
      have closed := close_after_sync flags ready.isOpen synced renamed
      have nextFaults : renamedFs.faults renamedFs.clock = faults (fs.clock + 1) := by
        simp [renamedEq, FileSystem.record, sameFaults]
      set closing : SegmentLogStorage :=
        { storage with
          segments := insertSegment { segment with isOpen := false } storage.segments
          fs := renamedFs } with closingEq
      cases createFault : faults (fs.clock + 1) with
      | some fault =>
          rw [if_neg (by simp)]
          have created := @createSegment_fails closing fault
            (nextFaults.trans createFault)
          have reverted : rollOver flags storage segment =
              (false,
                { closing with
                  segments := eraseSegment segment.firstIndex closing.segments
                  openSeg := some { segment with isOpen := false }
                  fs := renamedFs.fail }) := by
            unfold rollOver
            rw [closed]
            simp only [if_true, ← closingEq, created]
            rfl
          have traced : renamedFs.fail.trace = fs.trace ++
              [.rename (.inprogress segment.firstIndex)
                (.closed segment.firstIndex segment.lastIndex)] := rfl
          exact ⟨_, _, reverted, traced, by simp [NoWrite], by simp [NoSync]⟩
      | none =>
          rw [if_pos ⟨rfl, rfl⟩]
          have created := @createSegment_ok closing
            (nextFaults.trans createFault)
          have renamedDisk : renamedFs.disk = storage.fs.disk.apply
              (.rename (.inprogress segment.firstIndex)
                (.closed segment.firstIndex segment.lastIndex)) := by
            rw [renamedEq, ← sameDisk]
            rfl
          have renamedWellFormed : renamedFs.disk.WellFormed := by
            rw [renamedDisk]
            exact Disk.wellFormed_rename _ ready.disk
          have createdReady := @createdSegment_ready faults checksumType closing
            sameFaults ready.checksum renamedWellFormed ready.enableSync
          have rolled : rollOver flags storage segment =
              (true,
                { closing with
                  openSeg := some closing.createdSegment
                  fs := closing.fs.record
                    (.create (.inprogress (closing.lastLogIndex + 1))) }) := by
            unfold rollOver
            rw [closed]
            simp only [if_true, ← closingEq, created]
          have traced : (closing.fs.record
                (.create (.inprogress (closing.lastLogIndex + 1)))).trace =
              fs.trace ++
                [.rename (.inprogress segment.firstIndex)
                    (.closed segment.firstIndex segment.lastIndex),
                  .create (.inprogress (closing.lastLogIndex + 1))] := by
            simp [FileSystem.record, renamedEq, closingEq]
          refine ⟨_, _, _, _, rolled, createdReady, traced, by simp [NoWrite],
            by simp [NoSync], rfl, ?_⟩
          · intro x settled
            have moved := settled_rename_create ready.disk segment.lastIndex
              (storage.lastLogIndex + 1) ready.named settled
            rw [← renamedDisk] at moved
            exact moved

/-- The files that leaving `file` syncs: its own inode, when it is full enough
and the call works. -/
def LeavingSyncs (flags : LogFlags) (faults : Nat → Option Nat) (file : OpenFile)
    (inode : Nat) (ops : List (FsOp FileName Int)) : Prop :=
  ∀ x, FsOp.fsync x ∈ ops ↔
    x = inode ∧ file.isFull flags ∧ file.closeSyncs flags ∧ faults file.clock = none

theorem rollOver_next (ready : Ready faults checksumType storage segment inode file)
    (full : file.isFull flags) :
    match file.next flags faults with
    | some fresh =>
        ∃ result created newInode ops,
          rollOver flags storage segment = (true, result) ∧
            Ready faults checksumType result created newInode fresh ∧
            result.fs.trace = storage.fs.trace ++ ops ∧ NoWrite ops ∧
            LeavingSyncs flags faults file inode ops ∧
            result.lastLogIndex = storage.lastLogIndex ∧
            ∀ x, x = inode ∨ Settled storage.fs.disk x → Settled result.fs.disk x
    | none =>
        ∃ result ops,
          rollOver flags storage segment = (false, result) ∧
            result.fs.trace = storage.fs.trace ++ ops ∧ NoWrite ops ∧
            LeavingSyncs flags faults file inode ops := by
  have syncing := closeSyncs_iff flags ready
  by_cases closing : file.closeSyncs flags
  · cases syncFault : faults file.clock with
    | some fault =>
        -- the fsync in `close` fails and the segment stays open
        have stays : file.next flags faults = none := by
          simp [OpenFile.next, full, closing, syncFault]
        rw [stays]
        have synced : segment.close flags storage.enableSync storage.fs =
            (-1, segment, storage.fs.fail) := by
          have fails : storage.fs.faults storage.fs.clock = some fault := by
            rw [ready.faults, ready.clock]
            exact syncFault
          unfold Segment.close
          simp only [ready.isOpen, not_true_eq_false, if_false, syncing.mpr closing,
            and_self, if_true, Segment.raftFsync, ready.fd, FileSystem.perform, fails]
          rw [if_neg (by decide)]
        have reverted : rollOver flags storage segment =
            (false,
              { storage with
                segments := eraseSegment segment.firstIndex storage.segments
                openSeg := some segment
                fs := storage.fs.fail }) := by
          unfold rollOver
          rw [synced]
          rfl
        exact ⟨_, [], reverted, by simp [FileSystem.fail], by simp [NoWrite],
          by simp [LeavingSyncs, syncFault]⟩
    | none =>
        have works : storage.fs.faults storage.fs.clock = none := by
          rw [ready.faults, ready.clock]
          exact syncFault
        set syncedFs := storage.fs.record (.fsync inode) with syncedEq
        have synced : (if segment.firstIndex < segment.lastIndex ∧
            flags.raftSyncSegments = true ∧ storage.enableSync = true then
              Segment.raftFsync segment.fd storage.fs
            else (0, storage.fs)) = (0, syncedFs) := by
          rw [if_pos (syncing.mpr closing)]
          simp [Segment.raftFsync, ready.fd, FileSystem.perform, works, syncedEq]
        have clock : syncedFs.clock = file.clock + 1 := by
          simp [syncedEq, FileSystem.record, ready.clock]
        have rolled := rollOver_after_sync flags ready syncedFs rfl ready.faults synced
        rw [clock] at rolled
        have synced : LeavingSyncs flags faults file inode [.fsync inode] := by
          intro x
          simp [full, closing, syncFault]
        by_cases moves : faults (file.clock + 1) = none ∧ faults (file.clock + 2) = none
        · have goesOn : file.next flags faults =
              some { count := 0, bytes := 0, clock := file.clock + 3 } := by
            simp [OpenFile.next, full, closing, syncFault, moves]
          rw [if_pos moves] at rolled
          rw [goesOn]
          obtain ⟨result, created, newInode, ops, rolled, newReady, traced, noWrite, noSync,
            last, settled⟩ := rolled
          refine ⟨result, created, newInode, .fsync inode :: ops, rolled, newReady, ?_, ?_,
            ?_, last, settled⟩
          · simp [traced, syncedEq, FileSystem.record]
          · intro x bytes
            simp [noWrite x bytes]
          · intro x
            simpa [noSync x] using synced x
        · have stops : file.next flags faults = none := by
            simp only [OpenFile.next, full, closing, syncFault, if_true]
            rw [if_neg]
            rintro ⟨_, renames, creates⟩
            exact moves ⟨renames, creates⟩
          rw [if_neg moves] at rolled
          rw [stops]
          obtain ⟨result, ops, rolled, traced, noWrite, noSync⟩ := rolled
          refine ⟨result, .fsync inode :: ops, rolled, ?_, ?_, ?_⟩
          · simp [traced, syncedEq, FileSystem.record]
          · intro x bytes
            simp [noWrite x bytes]
          · intro x
            simpa [noSync x] using synced x
  · have skipped : (if segment.firstIndex < segment.lastIndex ∧
        flags.raftSyncSegments = true ∧ storage.enableSync = true then
          Segment.raftFsync segment.fd storage.fs
        else (0, storage.fs)) = (0, storage.fs) :=
      if_neg (fun closes => closing (syncing.mp closes))
    have rolled := rollOver_after_sync flags ready storage.fs rfl ready.faults skipped
    rw [ready.clock] at rolled
    by_cases moves : faults file.clock = none ∧ faults (file.clock + 1) = none
    · have goesOn : file.next flags faults =
          some { count := 0, bytes := 0, clock := file.clock + 2 } := by
        simp [OpenFile.next, full, closing, moves]
      rw [if_pos moves] at rolled
      rw [goesOn]
      obtain ⟨result, created, newInode, ops, rolled, newReady, traced, noWrite, noSync,
        last, settled⟩ := rolled
      exact ⟨result, created, newInode, ops, rolled, newReady, traced, noWrite,
        fun x => by simp [noSync x, closing], last, settled⟩
    · have stops : file.next flags faults = none := by
        simp [OpenFile.next, full, closing, moves]
      rw [if_neg moves] at rolled
      rw [stops]
      obtain ⟨result, ops, rolled, traced, noWrite, noSync⟩ := rolled
      exact ⟨result, ops, rolled, traced, noWrite, fun x => by simp [noSync x, closing]⟩

/-! ### One entry -/

theorem appendOne_opened {opened : SegmentLogStorage} {fresh : OpenFile}
    (opens : openSegment flags storage = (true, opened))
    (ready : Ready faults checksumType opened segment inode fresh)
    (entry : LogEntry P Bytes) :
    match fresh.write codec faults checksumType (opened.lastLogIndex + 1) entry with
    | some written =>
        ∃ record result newSegment,
          appendOne codec flags storage entry = (true, result) ∧
            Record.ofEntry? codec checksumType entry = some record ∧
            Ready faults checksumType result newSegment inode written ∧
            result.fs = opened.fs.record (.write inode (record.encode codec)) ∧
            result.lastLogIndex = opened.lastLogIndex + 1
    | none =>
        ∃ result ops,
          appendOne codec flags storage entry = (false, result) ∧
            result.fs.trace = opened.fs.trace ++ ops ∧ NoSync ops := by
  cases taken : fresh.write codec faults checksumType (opened.lastLogIndex + 1) entry with
  | some written =>
      obtain ⟨record, found, appended, newReady⟩ := append_written codec ready taken
      refine ⟨record, _, _, ?_, found, newReady, rfl, rfl⟩
      unfold appendOne
      rw [opens]
      simp only [ready.opened, appended]
      rw [if_neg (by decide)]
  | none =>
      obtain ⟨ret, fs, ops, refused, failed, traced, noSync⟩ := append_refused codec ready taken
      have stopped : appendOne codec flags storage entry =
          (false, { opened with openSeg := some segment, fs := fs }) := by
        unfold appendOne
        rw [opens]
        simp only [ready.opened, refused]
        rw [if_pos failed]
      exact ⟨_, ops, stopped, traced, noSync⟩

theorem appendOne_spec (ready : Ready faults checksumType storage segment inode file)
    (entry : LogEntry P Bytes) :
    match (file.next flags faults).bind (fun file =>
        file.write codec faults checksumType (storage.lastLogIndex + 1) entry) with
    | some written =>
        ∃ record result newSegment newInode front,
          appendOne codec flags storage entry = (true, result) ∧
            Record.ofEntry? codec checksumType entry = some record ∧
            Ready faults checksumType result newSegment newInode written ∧
            result.fs.trace = storage.fs.trace ++
              (front ++ [.write newInode (record.encode codec)]) ∧
            NoWrite front ∧ LeavingSyncs flags faults file inode front ∧
            result.lastLogIndex = storage.lastLogIndex + 1 ∧
            (¬ file.isFull flags → newInode = inode) ∧
            ∀ x, (x = inode ∧ file.isFull flags) ∨ Settled storage.fs.disk x →
              Settled result.fs.disk x
    | none =>
        ∃ result ops,
          appendOne codec flags storage entry = (false, result) ∧
            result.fs.trace = storage.fs.trace ++ ops ∧
            LeavingSyncs flags faults file inode ops := by
  by_cases full : file.isFull flags
  · have overflows : flags.raftMaxSegmentSize < segment.bytes := by
      rw [ready.bytes]
      exact full
    have opens : openSegment flags storage = rollOver flags storage segment := by
      unfold openSegment
      simp only [ready.opened]
      rw [if_pos overflows]
    have rolled := rollOver_next flags ready full
    cases goesOn : file.next flags faults with
    | none =>
        rw [goesOn] at rolled
        obtain ⟨result, ops, rolled, traced, _, leaving⟩ := rolled
        have stopped : appendOne codec flags storage entry = (false, result) := by
          unfold appendOne
          rw [opens, rolled]
        exact ⟨result, ops, stopped, traced, leaving⟩
    | some fresh =>
        rw [goesOn] at rolled
        obtain ⟨opened, created, newInode, front, rolled, newReady, traced, noWrite, leaving,
          last, settled⟩ := rolled
        have appended := appendOne_opened codec flags (opens.trans rolled) newReady entry
        rw [last] at appended
        simp only [Option.bind_some]
        cases taken : fresh.write codec faults checksumType (storage.lastLogIndex + 1) entry with
        | none =>
            rw [taken] at appended
            obtain ⟨result, ops, stopped, tracedAfter, noSync⟩ := appended
            refine ⟨result, front ++ ops, stopped, ?_, ?_⟩
            · rw [tracedAfter, traced, List.append_assoc]
            · intro x
              simpa [noSync x] using leaving x
        | some written =>
            rw [taken] at appended
            obtain ⟨record, result, newSegment, goes, found, ready', sameFs, newLast⟩ :=
              appended
            refine ⟨record, result, newSegment, newInode, front, goes, found, ready', ?_,
              noWrite, leaving, newLast, fun notFull => absurd full notFull, ?_⟩
            · rw [sameFs]
              simp [FileSystem.record, traced]
            · intro x before
              rw [sameFs]
              exact settled x (before.imp And.left id)
  · have opens : openSegment flags storage = (true, storage) := by
      have fits : ¬ flags.raftMaxSegmentSize < segment.bytes := by
        rw [ready.bytes]
        exact full
      unfold openSegment
      simp only [ready.opened]
      rw [if_neg fits]
    have stays : file.next flags faults = some file := by
      simp [OpenFile.next, full]
    have leaving : LeavingSyncs flags faults file inode [] := by
      intro x
      simp [full]
    have appended := appendOne_opened codec flags opens ready entry
    simp only [stays, Option.bind_some]
    cases taken : file.write codec faults checksumType (storage.lastLogIndex + 1) entry with
    | none =>
        rw [taken] at appended
        obtain ⟨result, ops, stopped, traced, noSync⟩ := appended
        exact ⟨result, ops, stopped, traced, fun x => by simp [full, noSync x]⟩
    | some written =>
        rw [taken] at appended
        obtain ⟨record, result, newSegment, goes, found, ready', sameFs, newLast⟩ := appended
        refine ⟨record, result, newSegment, inode, [], goes, found, ready', ?_,
          by simp [NoWrite], leaving, newLast, fun _ => rfl, ?_⟩
        · rw [sameFs]
          rfl
        · rintro x (⟨_, isFull⟩ | settled)
          · exact absurd isFull full
          · rw [sameFs]
            exact settled

/-! ### The whole batch -/

/-- The loop and the sync after it, without the check of the first index. -/
def appendAll (codec : EntryCodec P) (flags : LogFlags) (hasConf : Bool)
    (storage : SegmentLogStorage) (entries : List (LogEntry P Bytes)) :
    Nat × SegmentLogStorage :=
  match appendLoop codec flags entries storage with
  | (appended, false, storage) => (appended, storage)
  | (appended, true, storage) => (appended, syncLastSegment flags storage hasConf)

/-- The first `appended` entries, counted from the head of `entries`, were
written and synced by `ops`. -/
def DurablyIn (codec : EntryCodec P) (checksumType : Nat)
    (ops : List (FsOp FileName Int)) (entries : List (LogEntry P Bytes))
    (appended : Nat) : Prop :=
  ∀ i : Nat, i < appended →
    ∃ entry record file,
      entries[i]? = some entry ∧ Record.ofEntry? codec checksumType entry = some record ∧
        SyncedWrite ops i file (record.encode codec)

theorem durablyIn_cons {front rest : List (FsOp FileName Int)} (noWrite : NoWrite front)
    {entry : LogEntry P Bytes} {record : Record}
    (found : Record.ofEntry? codec checksumType entry = some record) (inode : Nat)
    (entries : List (LogEntry P Bytes)) (appended : Nat) :
    DurablyIn codec checksumType
        (front ++ .write inode (record.encode codec) :: rest)
        (entry :: entries) (appended + 1) ↔
      FsOp.fsync inode ∈ rest ∧ DurablyIn codec checksumType rest entries appended := by
  constructor
  · intro durable
    refine ⟨?_, ?_⟩
    · obtain ⟨_, _, file, _, _, synced⟩ := durable 0 (by omega)
      rw [syncedWrite_append noWrite] at synced
      exact synced.2.2
    · intro i below
      obtain ⟨other, otherRecord, file, listed, otherFound, synced⟩ :=
        durable (i + 1) (by omega)
      rw [syncedWrite_append noWrite] at synced
      exact ⟨other, otherRecord, file, by simpa using listed, otherFound, synced⟩
  · rintro ⟨synced, durable⟩ i below
    cases i with
    | zero =>
        refine ⟨entry, record, inode, by simp, found, ?_⟩
        rw [syncedWrite_append noWrite]
        exact ⟨rfl, rfl, synced⟩
    | succ i =>
        obtain ⟨other, otherRecord, file, listed, otherFound, later⟩ := durable i (by omega)
        refine ⟨other, otherRecord, file, by simpa using listed, otherFound, ?_⟩
        rw [syncedWrite_append noWrite]
        exact later

theorem write_count {index : Int} {entry : LogEntry P Bytes} {written : OpenFile}
    (taken : file.write codec faults checksumType index entry = some written) :
    0 < written.count := by
  unfold OpenFile.write at taken
  obtain ⟨size, _, rfl⟩ := Option.map_eq_some_iff.mp taken
  exact Nat.succ_pos _

theorem not_settled (ready : Ready faults checksumType storage segment inode file) :
    ¬ Settled storage.fs.disk inode :=
  fun settled => settled.2 _ ready.named

theorem syncLastSegment_spec (ready : Ready faults checksumType storage segment inode file)
    (raftSync : flags.raftSync = true)
    (immediately : flags.raftSyncPolicy = .immediately) (hasConf : Bool) :
    ∃ ops,
      (syncLastSegment flags storage hasConf).fs.trace = storage.fs.trace ++ ops ∧
        (0 < file.count → (FsOp.fsync inode ∈ ops ↔ faults file.clock = none)) ∧
        ∀ x, x ≠ inode → FsOp.fsync x ∉ ops := by
  have counted := ready.count
  unfold syncLastSegment
  simp only [ready.opened, Segment.sync]
  by_cases empty : segment.lastIndex < segment.firstIndex
  · simp only [empty, if_true]
    exact ⟨[], by simp, fun positive => by omega, by simp⟩
  · simp only [empty, if_false, ready.enableSync, if_true, raftSync, not_true_eq_false,
      immediately, reduceCtorEq, false_and, Segment.raftFsync, ready.fd,
      FileSystem.perform, ready.faults, ready.clock]
    cases fault : faults file.clock with
    | none => exact ⟨[.fsync inode], rfl, by simp, by simp⟩
    | some errno => exact ⟨[], by simp [FileSystem.fail], by simp, by simp⟩

/-- One pass over the batch: which files the rest of the call syncs, and whether
every entry it counts is durable. -/
theorem appendAll_spec (raftSync : flags.raftSync = true)
    (immediately : flags.raftSyncPolicy = .immediately) (hasConf : Bool)
    (entries : List (LogEntry P Bytes)) :
    ∀ {storage : SegmentLogStorage} {segment : Segment} {inode : Nat} {file : OpenFile},
      Ready faults checksumType storage segment inode file →
      ∃ appended result ops,
        appendAll codec flags hasConf storage entries = (appended, result) ∧
          result.fs.trace = storage.fs.trace ++ ops ∧
          (0 < file.count → (FsOp.fsync inode ∈ ops ↔
            fileSynced codec flags faults checksumType file
              (storage.lastLogIndex + 1) entries)) ∧
          (∀ x, Settled storage.fs.disk x → FsOp.fsync x ∉ ops) ∧
          (DurablyIn codec checksumType ops entries appended ↔
            batchSynced codec flags faults checksumType file
              (storage.lastLogIndex + 1) entries) := by
  induction entries with
  | nil =>
      intro storage segment inode file ready
      obtain ⟨ops, traced, synced, others⟩ :=
        syncLastSegment_spec flags ready raftSync immediately hasConf
      refine ⟨0, _, ops, rfl, traced, synced, ?_, ?_⟩
      · intro x settled
        exact others x (fun same => not_settled ready (same ▸ settled))
      · simp [DurablyIn, batchSynced]
  | cons entry rest ih =>
      intro storage segment inode file ready
      have one := appendOne_spec codec flags ready entry
      cases taken : (file.next flags faults).bind (fun file =>
          file.write codec faults checksumType (storage.lastLogIndex + 1) entry) with
      | none =>
          rw [taken] at one
          obtain ⟨result, ops, stopped, traced, leaving⟩ := one
          have ends : appendAll codec flags hasConf storage (entry :: rest) = (0, result) := by
            simp only [appendAll, appendLoop, stopped]
          refine ⟨0, result, ops, ends, traced, ?_, ?_, ?_⟩
          · intro _
            rw [leaving inode]
            unfold fileSynced
            by_cases full : file.isFull flags
            · simp [full]
            · have refused : file.write codec faults checksumType
                  (storage.lastLogIndex + 1) entry = none := by
                simpa [OpenFile.next, full] using taken
              simp [full, refused]
          · intro x settled member
            have same := ((leaving x).mp member).1
            exact not_settled ready (same ▸ settled)
          · simp [DurablyIn, batchSynced, taken]
      | some written =>
          rw [taken] at one
          obtain ⟨record, middle, newSegment, newInode, front, goes, found, newReady, traced,
            noWrite, leaving, last, sameFile, settles⟩ := one
          have positive : 0 < written.count := by
            obtain ⟨fresh, _, wrote⟩ := Option.bind_eq_some_iff.mp taken
            exact write_count codec wrote
          obtain ⟨appended, result, ops, rests, tracedAfter, synced, others, durable⟩ :=
            ih newReady
          rw [last] at synced durable
          have ends : appendAll codec flags hasConf storage (entry :: rest) =
              (appended + 1, result) := by
            unfold appendAll at rests ⊢
            simp only [appendLoop, goes]
            rcases loop : appendLoop codec flags rest middle with ⟨count, finished, stopped⟩
            rw [loop] at rests
            cases finished <;> simp_all
          refine ⟨appended + 1, result,
            front ++ .write newInode (record.encode codec) :: ops, ends, ?_, ?_,
            ?_, ?_⟩
          · rw [tracedAfter, traced]
            simp
          · intro _
            have split : FsOp.fsync inode ∈
                front ++ .write newInode (record.encode codec) :: ops ↔
                  FsOp.fsync inode ∈ front ∨ FsOp.fsync inode ∈ ops := by
              simp
            rw [split, leaving inode]
            unfold fileSynced
            by_cases full : file.isFull flags
            · have left := others inode (settles inode (Or.inl ⟨rfl, full⟩))
              simp [full, left]
            · have wrote : file.write codec faults checksumType
                  (storage.lastLogIndex + 1) entry = some written := by
                simpa [OpenFile.next, full] using taken
              rw [sameFile full] at synced
              simp [full, wrote, synced positive]
          · intro x settled member
            simp only [List.mem_append, List.mem_cons, reduceCtorEq, false_or] at member
            rcases member with inFront | inOps
            · have same := ((leaving x).mp inFront).1
              exact not_settled ready (same ▸ settled)
            · exact others x (settles x (Or.inr settled)) inOps
          · rw [durablyIn_cons codec noWrite found, durable, synced positive, batchSynced, taken]

theorem appendLoop_finished (entries : List (LogEntry P Bytes)) :
    ∀ {storage result : SegmentLogStorage} {appended : Nat},
      appendLoop codec flags entries storage = (appended, true, result) →
        appended = entries.length := by
  induction entries with
  | nil =>
      intro storage result appended ran
      simp only [appendLoop, Prod.mk.injEq] at ran
      simp [← ran.1]
  | cons entry rest ih =>
      intro storage result appended ran
      rcases one : appendOne codec flags storage entry with ⟨goes, middle⟩
      cases goes with
      | false => simp [appendLoop, one] at ran
      | true =>
          rcases loop : appendLoop codec flags rest middle with ⟨count, finished, stopped⟩
          simp only [appendLoop, one, loop, Prod.mk.injEq] at ran
          obtain ⟨rfl, rfl, rfl⟩ := ran
          simp [ih loop]

/-- `append_entries` is the loop with its sync once the first index fits. -/
theorem appendEntries_eq_appendAll {entry : LogEntry P Bytes}
    (rest : List (LogEntry P Bytes))
    (fits : (entry.id.index : Int) = storage.lastLogIndex + 1) :
    ∃ hasConf,
      appendEntries codec flags storage (entry :: rest) =
        (((appendAll codec flags hasConf storage (entry :: rest)).1 : Int),
          (appendAll codec flags hasConf storage (entry :: rest)).2) := by
  refine ⟨(entry :: rest).any (fun entry => entry.type = .configuration), ?_⟩
  unfold appendEntries appendAll
  simp only [ne_eq, fits, not_true_eq_false, if_false]
  rcases loop : appendLoop codec flags (entry :: rest) storage with
    ⟨count, finished, stopped⟩
  cases finished with
  | false => rfl
  | true =>
      have counted := appendLoop_finished codec flags (entry :: rest) loop
      subst counted
      rfl

/-! ### Acknowledged appends -/

/-- States that the storage is in between two calls: the open segment ends the
log and its descriptor is the file found under its name. -/
structure AppendSound (storage : SegmentLogStorage) : Prop where
  disk : storage.fs.disk.WellFormed
  opened : ∀ segment, storage.openSeg = some segment → segment.isOpen = true →
    segment.lastIndex = storage.lastLogIndex ∧
      segment.firstIndex ≤ segment.lastIndex + 1 ∧
      segment.checksumType = storage.checksumType ∧
      ∃ inode, segment.fd = some inode ∧
        storage.fs.disk.lookup (.inprogress segment.firstIndex) = some inode

theorem durablyIn_zero (ops : List (FsOp FileName Int)) (entries : List (LogEntry P Bytes)) :
    DurablyIn codec checksumType ops entries 0 := by
  intro i below
  omega

theorem appendAll_stopped {entry : LogEntry P Bytes} {rest : List (LogEntry P Bytes)}
    {result : SegmentLogStorage} (hasConf : Bool)
    (stops : appendOne codec flags storage entry = (false, result)) :
    (appendAll codec flags hasConf storage (entry :: rest)).1 = 0 := by
  simp only [appendAll, appendLoop, stops]

theorem appendOne_notOpen (opened : storage.openSeg = some segment)
    (notOpen : segment.isOpen = false) (entry : LogEntry P Bytes) :
    (appendOne codec flags storage entry).1 = false := by
  unfold appendOne openSegment
  simp only [opened]
  by_cases full : flags.raftMaxSegmentSize < segment.bytes
  · have refused : segment.close flags storage.enableSync storage.fs =
        (-1, segment, storage.fs) := by
      simp [Segment.close, notOpen]
    simp [full, rollOver, refused]
  · have refused : segment.append codec entry storage.fs =
        (EINVAL, segment, storage.fs) := by
      simp [Segment.append, notOpen]
    simp only [full, if_false, opened, refused]
    rfl

theorem appendAll_durable_iff (sound : storage.AppendSound)
    (enableSync : storage.enableSync = true) (raftSync : flags.raftSync = true)
    (immediately : flags.raftSyncPolicy = .immediately) (hasConf : Bool)
    {entry : LogEntry P Bytes} {rest : List (LogEntry P Bytes)}
    (fits : (entry.id.index : Int) = storage.lastLogIndex + 1) :
    DurablyIn codec storage.checksumType
        ((appendAll codec flags hasConf storage (entry :: rest)).2.fs.trace.drop
          storage.fs.trace.length)
        (entry :: rest) (appendAll codec flags hasConf storage (entry :: rest)).1 ↔
      SyncsBatch codec flags storage (entry :: rest) := by
  have applies : ∀ front, (entry :: rest).head? = some front →
      (front.id.index : Int) = storage.lastLogIndex + 1 := by
    intro front isFront
    simp only [List.head?_cons, Option.some.injEq] at isFront
    rw [← isFront, fits]
  cases opened : storage.openSeg with
  | none =>
      cases fault : storage.fs.faults storage.fs.clock with
      | some errno =>
          have stops : appendOne codec flags storage entry =
              (false, { storage with openSeg := none, fs := storage.fs.fail }) := by
            unfold appendOne openSegment
            simp only [opened, createSegment_fails fault]
            rfl
          have trivially : SyncsBatch codec flags storage (entry :: rest) := by
            simp [SyncsBatch, opened, fault]
          rw [appendAll_stopped codec flags hasConf stops]
          exact iff_of_true (durablyIn_zero codec _ _) trivially
      | none =>
          set created : SegmentLogStorage :=
            { storage with
              openSeg := some storage.createdSegment
              fs := storage.fs.record (.create (.inprogress (storage.lastLogIndex + 1))) }
            with createdEq
          have ready := @createdSegment_ready _ _ storage rfl rfl sound.disk enableSync
          rw [← createdEq] at ready
          have opens : openSegment flags storage = (true, created) := by
            unfold openSegment
            simp only [opened, createSegment_ok fault]
            rfl
          have reopens : openSegment flags created = (true, created) := by
            unfold openSegment
            simp only [ready.opened]
            rw [if_neg (by rw [ready.bytes]; simp)]
          have sameOne : appendOne codec flags storage entry =
              appendOne codec flags created entry := by
            unfold appendOne
            rw [opens, reopens]
          have sameAll : appendAll codec flags hasConf storage (entry :: rest) =
              appendAll codec flags hasConf created (entry :: rest) := by
            simp only [appendAll, appendLoop, sameOne]
          obtain ⟨appended, result, ops, ran, traced, _, _, durable⟩ :=
            appendAll_spec codec flags raftSync immediately hasConf (entry :: rest) ready
          have newOps : result.fs.trace.drop storage.fs.trace.length =
              FsOp.create (.inprogress (storage.lastLogIndex + 1)) :: ops := by
            simp [traced, createdEq, FileSystem.record]
          have skip : DurablyIn codec storage.checksumType
              (FsOp.create (.inprogress (storage.lastLogIndex + 1)) :: ops)
              (entry :: rest) appended ↔
              DurablyIn codec storage.checksumType ops (entry :: rest) appended := Iff.rfl
          rw [sameAll, ran]
          simp only [newOps]
          rw [skip, durable]
          unfold SyncsBatch
          simp only [opened, fault, forall_const]
          exact ⟨fun synced _ => synced, fun synced => synced applies⟩
  | some segment =>
      cases isOpen : segment.isOpen with
      | false =>
          have stops : appendOne codec flags storage entry =
              (false, (appendOne codec flags storage entry).2) :=
            Prod.ext (appendOne_notOpen codec flags opened isOpen entry) rfl
          have trivially : SyncsBatch codec flags storage (entry :: rest) := by
            simp [SyncsBatch, opened, isOpen]
          rw [appendAll_stopped codec flags hasConf stops]
          exact iff_of_true (durablyIn_zero codec _ _) trivially
      | true =>
          obtain ⟨last, nonneg, checksum, inode, fd, named⟩ :=
            sound.opened segment opened isOpen
          have ready : Ready storage.fs.faults storage.checksumType storage segment inode
              { count := (segment.lastIndex + 1 - segment.firstIndex).toNat
                bytes := segment.bytes
                clock := storage.fs.clock } :=
            ⟨opened, isOpen, fd, named, last, by simp only; omega, rfl, rfl, rfl, checksum,
              rfl, sound.disk, enableSync⟩
          obtain ⟨appended, result, ops, ran, traced, _, _, durable⟩ :=
            appendAll_spec codec flags raftSync immediately hasConf (entry :: rest) ready
          have newOps : result.fs.trace.drop storage.fs.trace.length = ops := by
            simp [traced]
          rw [ran]
          simp only [newOps]
          rw [durable]
          unfold SyncsBatch
          simp only [opened, isOpen, forall_const]
          exact ⟨fun synced _ => synced, fun synced => synced applies⟩

end Sync

def failingFsync : SegmentLogStorage :=
  { fs := { faults := fun call => if call = 2 then some 0 else none } }

def firstEntry : LogEntry Nat Bytes :=
  { type := .noOp, id := { index := 1, term := 1 }, data := [] }

end SegmentLogStorage

end QuorumKit
