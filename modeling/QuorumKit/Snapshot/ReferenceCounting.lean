/-
The references of `LocalSnapshotStorage` with threads in between.

`open`, `close` of a reader and `close` of a writer hold the mutex only for their steps
on `_ref_map` and `_last_snapshot_index`; the file system is used without it.  The count
of a snapshot is the number of its holders: readers, calls of `open`, the storage for
its last snapshot, and the call of `close` that replaces it.
-/

import QuorumKit.Library.RefCounts
import QuorumKit.Library.TransitionSystem
import QuorumKit.Snapshot.SaveSnapshot

namespace QuorumKit

variable {P : Type}

/-! ### The two parts of `unref` -/

namespace SnapshotStorage

/-- `unref` up to the release of the mutex, and whether the snapshot is to be deleted. -/
def releaseRef (storage : SnapshotStorage P) (index : Nat) : Bool × SnapshotStorage P :=
  ((RefCounts.release storage.refMap index).1,
    { storage with refMap := (RefCounts.release storage.refMap index).2 })

end SnapshotStorage

/-! ### Threads -/

/-- Where a call of `close(writer)` has got to. -/
inductive CloseStage where
  | synced
  | compared
  | cleared
  | renamed
  | referenced
  | published
deriving DecidableEq

/-- A running call of `close(writer, keep_data_on_error)`. -/
structure WriterClose where
  stage : CloseStage := .synced
  oldIndex : Nat := 0
  newIndex : Nat
  keepDataOnError : Bool

/-- A storage with the calls that are running.  There is one writer at a time.
`destroying` are the snapshots between the two parts of `unref`, `destroyed` those whose
deletion has been called, with its result. -/
structure SnapshotRun (P : Type) where
  storage : SnapshotStorage P
  opening : List Nat := []
  readers : List (SnapshotReader P) := []
  closing : Option WriterClose := none
  destroying : List Nat := []
  destroyed : List (Nat × Bool) := []
  /-- The snapshots that have been the last one, with their content. -/
  published : List (Nat × SnapshotDir P) := []

namespace SnapshotRun

def unref (run : SnapshotRun P) (index : Nat) : SnapshotRun P :=
  match run.storage.releaseRef index with
  | (true, storage) =>
      { run with storage := storage, destroying := index :: run.destroying }
  | (false, storage) => { run with storage := storage }

/-- `open` up to the release of the mutex. -/
def openLocked (run : SnapshotRun P) : SnapshotRun P :=
  if run.storage.lastSnapshotIndex = 0 then run
  else
    { run with
      storage := run.storage.ref run.storage.lastSnapshotIndex
      opening := run.storage.lastSnapshotIndex :: run.opening }

/-- `init` of the reader, and the end of `open`. -/
def openReader (run : SnapshotRun P) (index : Nat) : Option (SnapshotRun P) :=
  if index ∈ run.opening then
    let left : SnapshotRun P := { run with opening := run.opening.erase index }
    match run.storage.fs.lookup index with
    | none => some (left.unref index)
    | some dir =>
        match run.storage.fs.loadMetaFile dir with
        | (none, fs) => some ({ left with storage := { run.storage with fs := fs } }.unref index)
        | (some table, fs) =>
            some
              { left with
                storage := { run.storage with fs := fs }
                readers := { snapshotIndex := index, metaTable := table } :: run.readers }
  else none

def closeReader [DecidableEq P] (run : SnapshotRun P) (reader : SnapshotReader P) :
    Option (SnapshotRun P) :=
  if reader ∈ run.readers then
    some ({ run with readers := run.readers.erase reader }.unref reader.snapshotIndex)
  else none

/-- `destroy_snapshot` at the end of `unref`; its result is dropped. -/
def destroySnapshot (run : SnapshotRun P) (index : Nat) : Option (SnapshotRun P) :=
  if index ∈ run.destroying then
    match run.storage.fs.deleteSnapshot index with
    | (deleted, fs) =>
        some
          { run with
            storage := { run.storage with fs := fs }
            destroying := run.destroying.erase index
            destroyed := (index, deleted) :: run.destroyed }
  else none

/-- The end of a `close` that has failed. -/
def closeFailed (run : SnapshotRun P) (keepDataOnError : Bool) (fs : SnapshotFs P) :
    SnapshotRun P :=
  { run with
    storage := { run.storage with fs := if keepDataOnError then fs else fs.deleteTemp.2 }
    closing := none }

/-- `close(writer)` up to the end of `sync`. -/
def closeWriter (run : SnapshotRun P) (writer : SnapshotWriter P) (keepDataOnError : Bool) :
    Option (SnapshotRun P) :=
  match run.closing with
  | some _ => none
  | none =>
      if writer.errorCode ≠ 0 then some (run.closeFailed keepDataOnError run.storage.fs)
      else
        match writer.sync run.storage.raftSyncMeta run.storage.fs with
        | (ret, synced, fs) =>
            if ret ≠ 0 then some (run.closeFailed keepDataOnError fs)
            else
              some
                { run with
                  storage := { run.storage with fs := fs }
                  closing := some
                    { newIndex := synced.snapshotIndex, keepDataOnError := keepDataOnError } }

/-- `close` after a call of the file system: it fails with `EIO` or goes on. -/
def closeAttempt (run : SnapshotRun P) (close : WriterClose) (next : CloseStage) :
    Bool × SnapshotFs P → SnapshotRun P
  | (false, fs) => run.closeFailed close.keepDataOnError fs
  | (true, fs) =>
      { run with
        storage := { run.storage with fs := fs }
        closing := some { close with stage := next } }

/-- The next part of `close(writer)`.  Its `CHECK_EQ` ends the process. -/
def closeNext (run : SnapshotRun P) : Option (SnapshotRun P) :=
  match run.closing with
  | none => none
  | some close =>
      match close.stage with
      | .synced =>
          let oldIndex := run.storage.lastSnapshotIndex
          if close.newIndex = oldIndex then some (run.closeFailed close.keepDataOnError run.storage.fs)
          else
            some { run with closing := some { close with stage := .compared, oldIndex := oldIndex } }
      | .compared =>
          some (run.closeAttempt close .cleared (run.storage.fs.deleteSnapshot close.newIndex))
      | .cleared =>
          some (run.closeAttempt close .renamed (run.storage.fs.renameTemp close.newIndex))
      | .renamed =>
          some
            { run with
              storage := run.storage.ref close.newIndex
              closing := some { close with stage := .referenced } }
      | .referenced =>
          if close.oldIndex ≠ run.storage.lastSnapshotIndex then none
          else
            some
              { run with
                storage := { run.storage with lastSnapshotIndex := close.newIndex }
                closing := some { close with stage := .published }
                published :=
                  (close.newIndex, (run.storage.fs.lookup close.newIndex).getD {}) ::
                    run.published }
      | .published => some ({ run with closing := none }.unref close.oldIndex)

inductive Action (P : Type) where
  | openLocked
  | openReader (index : Nat)
  | closeReader (reader : SnapshotReader P)
  | destroySnapshot (index : Nat)
  /-- What a writer does in `temp`. -/
  | write (temp : Option (SnapshotDir P)) (clock : Nat)
  | closeWriter (writer : SnapshotWriter P) (keepDataOnError : Bool)
  | closeNext

def step [DecidableEq P] (action : Action P) (run : SnapshotRun P) : Option (SnapshotRun P) :=
  match action with
  | .openLocked => some run.openLocked
  | .openReader index => run.openReader index
  | .closeReader reader => run.closeReader reader
  | .destroySnapshot index => run.destroySnapshot index
  | .write temp clock =>
      some
        { run with
          storage :=
            { run.storage with fs := { run.storage.fs with temp := temp, clock := clock } } }
  | .closeWriter writer keepDataOnError => run.closeWriter writer keepDataOnError
  | .closeNext => run.closeNext

def Allowed (action : Action P) (run : SnapshotRun P) : Prop :=
  match action with
  | .closeWriter writer _ => run.storage.lastSnapshotIndex < writer.snapshotIndex
  | _ => True

/-- After `init` on a directory of snapshots. -/
def Initial (run : SnapshotRun P) : Prop :=
  ∃ constructed : SnapshotStorage P,
    constructed.lastSnapshotIndex = 0 ∧ constructed.refMap = [] ∧
      (constructed.fs.snapshots.map Prod.fst).Nodup ∧
      (∀ entry ∈ constructed.fs.snapshots, 0 < entry.1) ∧
      constructed.init = (0, run.storage) ∧
      run = { storage := run.storage
              published := run.storage.fs.snapshots }

def system [DecidableEq P] : TransitionSystem (SnapshotRun P) (Action P) :=
  { init := Initial, allowed := Allowed, step := step }

/-- The reference of a running `close(writer)`: the new snapshot before it is the last one,
the old one afterwards. -/
def closeHeld (closing : Option WriterClose) (index : Nat) : Nat :=
  match closing with
  | none => 0
  | some close =>
      match close.stage with
      | .referenced => if index = close.newIndex then 1 else 0
      | .published => if index = close.oldIndex ∧ index ≠ 0 then 1 else 0
      | _ => 0

/-- The indexes of the calls of `open` and of the readers. -/
def openIndexes (run : SnapshotRun P) : List Nat :=
  run.opening ++ run.readers.map SnapshotReader.snapshotIndex

def held (run : SnapshotRun P) (index : Nat) : Nat :=
  run.openIndexes.count index +
    (if index = run.storage.lastSnapshotIndex ∧ index ≠ 0 then 1 else 0) +
    closeHeld run.closing index

def gone (run : SnapshotRun P) : List Nat := run.destroying ++ run.destroyed.map Prod.fst

/-- What holds between the parts of `close(writer)`. -/
structure Staged (run : SnapshotRun P) (close : WriterClose) : Prop where
  newer : close.stage ≠ .published → run.storage.lastSnapshotIndex < close.newIndex
  compared : close.stage ≠ .synced → close.stage ≠ .published →
    close.oldIndex = run.storage.lastSnapshotIndex
  present : close.stage = .renamed ∨ close.stage = .referenced →
    (run.storage.fs.lookup close.newIndex).isSome
  former : close.stage = .published →
    close.oldIndex < run.storage.lastSnapshotIndex ∧
      (close.oldIndex ≠ 0 → close.oldIndex ∈ run.published.map Prod.fst)

def known (run : SnapshotRun P) : List Nat := run.published.map Prod.fst

/-- The table counts the holders and the references that are `owed` to it; a published
snapshot without either has been given to `destroy_snapshot` once, the others have their
content. -/
structure Counted (owed : Nat → Nat) (run : SnapshotRun P) : Prop where
  counts : RefCounts.Counts run.storage.refMap (fun index => run.held index + owed index)
  opened : ∀ index ∈ run.openIndexes, index ∈ run.known
  last : run.storage.lastSnapshotIndex ≠ 0 → run.storage.lastSnapshotIndex ∈ run.known
  bounded : ∀ index ∈ run.known, 0 < index ∧ index ≤ run.storage.lastSnapshotIndex
  kept : ∀ entry ∈ run.published, run.held entry.1 + owed entry.1 ≠ 0 →
    run.storage.fs.lookup entry.1 = some entry.2
  once : ∀ index, run.gone.count index =
    if index ∈ run.known ∧ run.held index + owed index = 0 then 1 else 0
  deleted : ∀ index, (index, true) ∈ run.destroyed → run.storage.fs.lookup index = none
  staged : ∀ close, run.closing = some close → Staged run close

def one (index other : Nat) : Nat := if other = index then 1 else 0

variable {run run' : SnapshotRun P} {owed owed' : Nat → Nat}

theorem known_of_gone (counted : Counted owed run) {index : Nat} (member : index ∈ run.gone) :
    index ∈ run.known := by
  have once := counted.once index
  have positive := List.count_pos_iff.mpr member
  split_ifs at once with unheld
  · exact unheld.1
  · omega

theorem known_of_destroyed (counted : Counted owed run) {index : Nat} {deleted : Bool}
    (member : (index, deleted) ∈ run.destroyed) : index ∈ run.known :=
  known_of_gone counted
    (List.mem_append_right _ (List.mem_map.mpr ⟨(index, deleted), member, rfl⟩))

theorem Counted.keep (counted : Counted owed run)
    (counts : RefCounts.Counts run'.storage.refMap (fun index => run'.held index + owed' index))
    (last : run'.storage.lastSnapshotIndex = run.storage.lastSnapshotIndex)
    (published : run'.published = run.published)
    (gone : run'.destroying = run.destroying ∧ run'.destroyed = run.destroyed)
    (content : ∀ index ∈ run.known,
      run'.storage.fs.lookup index = run.storage.fs.lookup index)
    (opened : ∀ index ∈ run'.openIndexes, index ∈ run.known)
    (unheld : ∀ index ∈ run.known,
      run'.held index + owed' index = 0 ↔ run.held index + owed index = 0)
    (staged : ∀ close, run'.closing = some close → Staged run' close) : Counted owed' run' := by
  have sameKnown : run'.known = run.known := congrArg (List.map Prod.fst) published
  constructor
  · exact counts
  · rw [sameKnown]
    exact opened
  · rw [sameKnown, last]
    exact counted.last
  · rw [sameKnown, last]
    exact counted.bounded
  · intro entry member held
    rw [published] at member
    have isKnown : entry.1 ∈ run.known := List.mem_map.mpr ⟨entry, member, rfl⟩
    rw [content _ isKnown]
    exact counted.kept entry member (fun none => held ((unheld _ isKnown).mpr none))
  · intro index
    have sameGone : run'.gone = run.gone := by
      unfold SnapshotRun.gone
      rw [gone.1, gone.2]
    rw [sameGone, sameKnown, counted.once index]
    refine if_congr ?_ rfl rfl
    exact and_congr_right (fun isKnown => (unheld index isKnown).symm)
  · intro index member
    rw [gone.2] at member
    rw [content _ (known_of_destroyed counted member)]
    exact counted.deleted index member
  · exact staged

theorem Counted.unref {index : Nat} (counted : Counted (one index) run)
    (isKnown : index ∈ run.known) : Counted (fun _ => 0) (run.unref index) := by
  have before : ∀ other, run.held other + one index other =
      run.held other + if other = index then 1 else 0 := fun other => rfl
  obtain ⟨released, isLast⟩ := counted.counts.release index before
  have others {other : Nat} (differs : other ≠ index) : one index other = 0 := if_neg differs
  have atIndex : one index index = 1 := if_pos rfl
  unfold SnapshotRun.unref SnapshotStorage.releaseRef
  cases last : (RefCounts.release run.storage.refMap index).1 with
  | false =>
      have stillHeld : run.held index ≠ 0 := by
        intro none
        rw [isLast.mpr none] at last
        contradiction
      refine counted.keep (by exact released) rfl rfl ⟨rfl, rfl⟩ (fun _ _ => rfl) counted.opened
        ?_ (fun close running => ?_)
      · intro other _
        by_cases same : other = index
        · subst same
          constructor
          · intro none
            exact absurd none stillHeld
          · intro none
            omega
        · rw [others same]
          exact Iff.rfl
      · have staged := counted.staged close running
        exact ⟨staged.newer, staged.compared, staged.present, staged.former⟩
  | true =>
      have unheld := isLast.mp last
      constructor
      · exact released
      · exact counted.opened
      · exact counted.last
      · exact counted.bounded
      · intro entry member held
        refine counted.kept entry member ?_
        intro none
        exact held (Nat.eq_zero_of_add_eq_zero_right none)
      · intro other
        change (index :: run.destroying ++ run.destroyed.map Prod.fst).count other =
          if other ∈ run.known ∧ run.held other + 0 = 0 then 1 else 0
        have once : (run.destroying ++ run.destroyed.map Prod.fst).count other = _ :=
          counted.once other
        rw [List.cons_append, List.count_cons]
        by_cases same : other = index
        · subst same
          rw [if_neg (fun both => absurd both.2 (by omega))] at once
          rw [once, if_pos (beq_self_eq_true other), if_pos ⟨isKnown, unheld⟩]
        · rw [others same] at once
          rw [once, if_neg (fun equal => same (eq_of_beq equal).symm), Nat.add_zero]
      · exact counted.deleted
      · intro close running
        have staged := counted.staged close running
        exact ⟨staged.newer, staged.compared, staged.present, staged.former⟩

theorem Counted.held_zero (counted : Counted owed run) : run.held 0 = 0 := by
  have unopened : run.openIndexes.count 0 = 0 := by
    rw [List.count_eq_zero]
    intro member
    exact absurd (counted.bounded 0 (counted.opened 0 member)).1 (lt_irrefl 0)
  have unclosed : closeHeld run.closing 0 = 0 := by
    unfold closeHeld
    cases closing : run.closing with
    | none => rfl
    | some close =>
        have staged := counted.staged close closing
        cases stage : close.stage with
        | referenced =>
            have newer := staged.newer (by rw [stage]; decide)
            simp only [stage]
            exact if_neg (by omega)
        | _ => simp [stage]
  unfold SnapshotRun.held
  rw [unopened, unclosed, if_neg (fun both => both.2 rfl)]

theorem Counted.unref_zero (counted : Counted (fun _ => 0) run) :
    run.unref 0 = run := by
  unfold SnapshotRun.unref SnapshotStorage.releaseRef
  rw [counted.counts.release_absent 0 (by rw [counted.held_zero])]

/-! ### Readers -/

theorem count_cons_one (index other : Nat) (indexes : List Nat) :
    (index :: indexes).count other = indexes.count other + one index other := by
  rw [List.count_cons]
  unfold one
  by_cases same : other = index
  · rw [if_pos same, if_pos (beq_iff_eq.mpr same.symm)]
  · rw [if_neg same, if_neg (fun equal => same (eq_of_beq equal).symm)]

theorem count_erase {A : Type} [DecidableEq A] {items : List A} {item : A} (f : A → Nat)
    (member : item ∈ items) (index : Nat) :
    (items.map f).count index = ((items.erase item).map f).count index + one (f item) index := by
  rw [((List.perm_cons_erase member).map f).count_eq index, List.map_cons, count_cons_one]

theorem Counted.openLocked (counted : Counted (fun _ => 0) run) :
    Counted (fun _ => 0) run.openLocked := by
  unfold SnapshotRun.openLocked
  by_cases none : run.storage.lastSnapshotIndex = 0
  · rw [if_pos none]
    exact counted
  · rw [if_neg none]
    have isKnown := counted.last none
    have more : ∀ other, held
        { run with
          storage := run.storage.ref run.storage.lastSnapshotIndex
          opening := run.storage.lastSnapshotIndex :: run.opening } other =
        run.held other + one run.storage.lastSnapshotIndex other := by
      intro other
      have opened := count_cons_one run.storage.lastSnapshotIndex other run.openIndexes
      change (run.storage.lastSnapshotIndex :: run.openIndexes).count other +
        (if other = run.storage.lastSnapshotIndex ∧ other ≠ 0 then 1 else 0) +
        closeHeld run.closing other = _
      unfold SnapshotRun.held
      omega
    refine counted.keep ?_ rfl rfl ⟨rfl, rfl⟩ (fun _ _ => rfl) ?_ ?_ (fun close running => ?_)
    · refine (counted.counts.acquire run.storage.lastSnapshotIndex (fun other => rfl)).congr ?_
      intro other
      rw [more other]
      unfold one
      omega
    · intro index member
      cases member with
      | head => exact isKnown
      | tail _ former => exact counted.opened index former
    · intro index _
      rw [more index]
      unfold one
      by_cases same : index = run.storage.lastSnapshotIndex
      · have heldLast : run.held index ≠ 0 := by
          unfold SnapshotRun.held
          rw [if_pos ⟨same, by omega⟩]
          omega
        omega
      · rw [if_neg same]
    · have staged := counted.staged close running
      exact ⟨staged.newer, staged.compared, staged.present, staged.former⟩

theorem held_less {index extra : Nat}
    (last : run'.storage.lastSnapshotIndex = run.storage.lastSnapshotIndex)
    (closing : run'.closing = run.closing)
    (opens : run.openIndexes.count index = run'.openIndexes.count index + extra) :
    run'.held index + extra = run.held index + 0 := by
  unfold SnapshotRun.held
  rw [last, closing, opens]
  omega

theorem Counted.framed (counted : Counted owed run)
    (refMap : run'.storage.refMap = run.storage.refMap)
    (last : run'.storage.lastSnapshotIndex = run.storage.lastSnapshotIndex)
    (snapshots : run'.storage.fs.snapshots = run.storage.fs.snapshots)
    (published : run'.published = run.published)
    (gone : run'.destroying = run.destroying ∧ run'.destroyed = run.destroyed)
    (opened : ∀ index ∈ run'.openIndexes, index ∈ run.known)
    (total : ∀ index, run'.held index + owed' index = run.held index + owed index)
    (staged : ∀ close, run'.closing = some close → Staged run' close) : Counted owed' run' := by
  refine counted.keep ?_ last published gone (fun index _ => ?_) opened (fun index _ => ?_) staged
  · rw [refMap]
    exact counted.counts.congr total
  · unfold SnapshotFs.lookup
    rw [snapshots]
  · rw [total index]

theorem Staged.of_frame {close : WriterClose} (staged : Staged run close)
    (last : run'.storage.lastSnapshotIndex = run.storage.lastSnapshotIndex)
    (snapshots : run'.storage.fs.snapshots = run.storage.fs.snapshots)
    (published : run'.published = run.published) : Staged run' close := by
  constructor
  · rw [last]
    exact staged.newer
  · rw [last]
    exact staged.compared
  · unfold SnapshotFs.lookup
    rw [snapshots]
    exact staged.present
  · rw [last, published]
    exact staged.former

theorem loadMetaFile_snapshots (fs : SnapshotFs P) (dir : SnapshotDir P) :
    (fs.loadMetaFile dir).2.snapshots = fs.snapshots := by
  unfold SnapshotFs.loadMetaFile
  cases dir.metaFile with
  | none => rfl
  | some table =>
      have frame := (fs.calls_frame 3).1
      simp only
      rcases called : fs.calls 3 with ⟨worked, after⟩
      rw [called] at frame
      cases worked with
      | true => exact frame
      | false => exact frame

theorem Counted.openReader {index : Nat} (counted : Counted (fun _ => 0) run)
    (stepped : run.openReader index = some run') : Counted (fun _ => 0) run' := by
  unfold SnapshotRun.openReader at stepped
  by_cases pending : index ∈ run.opening
  · rw [if_pos pending] at stepped
    simp only at stepped
    have isKnown : index ∈ run.known := counted.opened index (List.mem_append_left _ pending)
    have fewer (other : Nat) : run.opening.count other =
        (run.opening.erase index).count other + one index other := by
      have same := count_erase id pending other
      rwa [List.map_id, List.map_id] at same
    -- the call of `open` gives its reference back
    have failed (fs : SnapshotFs P) (snapshots : fs.snapshots = run.storage.fs.snapshots) :
        Counted (fun _ => 0) (SnapshotRun.unref
          { run with opening := run.opening.erase index, storage := { run.storage with fs := fs } }
          index) := by
      refine Counted.unref ?_ isKnown
      refine counted.framed rfl rfl snapshots rfl ⟨rfl, rfl⟩ ?_ ?_ ?_
      · intro other member
        refine counted.opened other ?_
        rcases List.mem_append.mp member with early | late
        · exact List.mem_append_left _ (List.mem_of_mem_erase early)
        · exact List.mem_append_right _ late
      · intro other
        refine held_less rfl rfl ?_
        have less := fewer other
        simp only [openIndexes, List.count_append, less]
        omega
      · exact fun close running => (counted.staged close running).of_frame rfl snapshots rfl
    cases found : run.storage.fs.lookup index with
    | none =>
        rw [found] at stepped
        obtain rfl := Option.some.inj stepped
        exact failed run.storage.fs rfl
    | some dir =>
        have snapshots := loadMetaFile_snapshots run.storage.fs dir
        rw [found] at stepped
        simp only at stepped
        rcases loaded : run.storage.fs.loadMetaFile dir with ⟨table, fs⟩
        rw [loaded] at stepped snapshots
        cases table with
        | none =>
            obtain rfl := Option.some.inj stepped
            exact failed fs snapshots
        | some table =>
            obtain rfl := Option.some.inj stepped
            have moved (other : Nat) : (run.opening.erase index ++ index ::
                run.readers.map SnapshotReader.snapshotIndex).count other =
                run.openIndexes.count other := by
              have less := fewer other
              unfold openIndexes
              rw [List.count_append, List.count_append, count_cons_one, less]
              omega
            refine counted.framed rfl rfl snapshots rfl ⟨rfl, rfl⟩ ?_ ?_ ?_
            · intro other member
              refine counted.opened other (List.count_pos_iff.mp ?_)
              rw [← moved other]
              exact List.count_pos_iff.mpr member
            · intro other
              exact held_less rfl rfl (moved other).symm
            · exact fun close running => (counted.staged close running).of_frame rfl snapshots rfl
  · rw [if_neg pending] at stepped
    contradiction

theorem Counted.closeReader [DecidableEq P] {reader : SnapshotReader P}
    (counted : Counted (fun _ => 0) run) (stepped : run.closeReader reader = some run') :
    Counted (fun _ => 0) run' := by
  unfold SnapshotRun.closeReader at stepped
  by_cases isOpen : reader ∈ run.readers
  · rw [if_pos isOpen] at stepped
    obtain rfl := Option.some.inj stepped
    have member : reader.snapshotIndex ∈ run.openIndexes :=
      List.mem_append_right _ (List.mem_map.mpr ⟨reader, isOpen, rfl⟩)
    refine Counted.unref ?_ (counted.opened _ member)
    refine counted.framed rfl rfl rfl rfl ⟨rfl, rfl⟩ ?_ ?_ ?_
    · intro other member
      refine counted.opened other ?_
      rcases List.mem_append.mp member with early | late
      · exact List.mem_append_left _ early
      · obtain ⟨left, inside, rfl⟩ := List.mem_map.mp late
        exact List.mem_append_right _ (List.mem_map.mpr ⟨left, List.mem_of_mem_erase inside, rfl⟩)
    · intro other
      refine held_less rfl rfl ?_
      have less := count_erase SnapshotReader.snapshotIndex isOpen other
      simp only [openIndexes, List.count_append, less]
      omega
    · exact fun close running => (counted.staged close running).of_frame rfl rfl rfl
  · rw [if_neg isOpen] at stepped
    contradiction

theorem Counted.destroySnapshot {index : Nat} (counted : Counted (fun _ => 0) run)
    (stepped : run.destroySnapshot index = some run') : Counted (fun _ => 0) run' := by
  unfold SnapshotRun.destroySnapshot at stepped
  by_cases pending : index ∈ run.destroying
  · rw [if_pos pending] at stepped
    obtain rfl := Option.some.inj stepped
    have isGone : index ∈ run.gone := List.mem_append_left _ pending
    have isKnown := known_of_gone counted isGone
    have onceIndex := counted.once index
    have positive := List.count_pos_iff.mpr isGone
    have unheld : run.held index + 0 = 0 := by
      by_contra isHeld
      rw [if_neg (fun both => isHeld both.2)] at onceIndex
      omega
    have sameGone (other : Nat) : (run.destroying.erase index ++
        index :: run.destroyed.map Prod.fst).count other = run.gone.count other := by
      have less := count_erase id pending other
      rw [List.map_id, List.map_id] at less
      unfold SnapshotRun.gone
      rw [List.count_append, List.count_append, count_cons_one, less]
      simp only [id]
      omega
    constructor
    · exact counted.counts
    · exact counted.opened
    · exact counted.last
    · exact counted.bounded
    · intro entry member isHeld
      have differs : entry.1 ≠ index := fun same => isHeld (same ▸ unheld)
      exact (SnapshotFs.deleteSnapshot_other differs _).trans (counted.kept entry member isHeld)
    · intro other
      exact (sameGone other).trans (counted.once other)
    · intro other member
      by_cases same : other = index
      · subst same
        rcases List.mem_cons.mp member with new | former
        · exact SnapshotFs.deleteSnapshot_deleted (Prod.mk.inj new).2.symm
        · -- it would have been deleted twice
          have twice : other ∈ run.destroyed.map Prod.fst :=
            List.mem_map.mpr ⟨_, former, rfl⟩
          have early := List.count_pos_iff.mpr pending
          have late := List.count_pos_iff.mpr twice
          rw [if_pos ⟨isKnown, unheld⟩] at onceIndex
          unfold SnapshotRun.gone at onceIndex
          rw [List.count_append] at onceIndex
          omega
      · rcases List.mem_cons.mp member with new | former
        · exact absurd (Prod.mk.inj new).1 same
        · exact (SnapshotFs.deleteSnapshot_other same _).trans (counted.deleted other former)
    · intro close running
      have staged := counted.staged close running
      refine ⟨staged.newer, staged.compared, fun stage => ?_, staged.former⟩
      have newer := staged.newer (by rcases stage with same | same <;> rw [same] <;> decide)
      have bounded := (counted.bounded index isKnown).2
      have differs : close.newIndex ≠ index := by omega
      change ((run.storage.fs.deleteSnapshot index).2.lookup close.newIndex).isSome
      rw [SnapshotFs.deleteSnapshot_other differs]
      exact staged.present stage
  · rw [if_neg pending] at stepped
    contradiction

/-! ### Writers -/

theorem sync_frame (writer : SnapshotWriter P) (raftSyncMeta : Bool) (fs : SnapshotFs P) :
    (writer.sync raftSyncMeta fs).2.1.snapshotIndex = writer.snapshotIndex ∧
      (writer.sync raftSyncMeta fs).2.2.snapshots = fs.snapshots := by
  have frame := (fs.saveMetaFile_frame raftSyncMeta writer.metaTable).1
  unfold SnapshotWriter.sync
  rcases saved : fs.saveMetaFile raftSyncMeta writer.metaTable with ⟨rc, after⟩
  rw [saved] at frame
  simp only
  split
  · exact ⟨rfl, frame⟩
  · exact ⟨rfl, frame⟩

theorem deleteTemp_snapshots (fs : SnapshotFs P) :
    fs.deleteTemp.2.snapshots = fs.snapshots := by
  unfold SnapshotFs.deleteTemp
  cases fs.faults fs.clock with
  | none => rfl
  | some fault => cases fault <;> rfl

theorem Counted.closeFailed (counted : Counted (fun _ => 0) run) (keepDataOnError : Bool)
    {fs : SnapshotFs P} (unclosed : ∀ index, closeHeld run.closing index = 0)
    (content : ∀ index ∈ run.known, fs.lookup index = run.storage.fs.lookup index) :
    Counted (fun _ => 0) (run.closeFailed keepDataOnError fs) := by
  have total (index : Nat) : (run.closeFailed keepDataOnError fs).held index = run.held index := by
    unfold SnapshotRun.held
    rw [unclosed index]
    rfl
  refine counted.keep ?_ rfl rfl ⟨rfl, rfl⟩ ?_ counted.opened ?_ (fun close running => ?_)
  · exact counted.counts.congr (fun index => by rw [total index])
  · intro index isKnown
    rw [← content index isKnown]
    unfold SnapshotRun.closeFailed SnapshotFs.lookup
    cases keepDataOnError with
    | true => rfl
    | false => exact congrArg (List.lookup index) (deleteTemp_snapshots fs)
  · intro index _
    rw [total index]
  · contradiction

theorem Counted.closeWriter {writer : SnapshotWriter P} {keepDataOnError : Bool}
    (counted : Counted (fun _ => 0) run)
    (newer : run.storage.lastSnapshotIndex < writer.snapshotIndex)
    (stepped : run.closeWriter writer keepDataOnError = some run') :
    Counted (fun _ => 0) run' := by
  unfold SnapshotRun.closeWriter at stepped
  cases closing : run.closing with
  | some close =>
      rw [closing] at stepped
      contradiction
  | none =>
      have unclosed : ∀ index, closeHeld run.closing index = 0 := by
        rw [closing]
        exact fun index => rfl
      rw [closing] at stepped
      simp only at stepped
      by_cases bad : writer.errorCode ≠ 0
      · rw [if_pos bad] at stepped
        obtain rfl := Option.some.inj stepped
        exact counted.closeFailed keepDataOnError unclosed (fun _ _ => rfl)
      · rw [if_neg bad] at stepped
        obtain ⟨sameIndex, snapshots⟩ :=
          sync_frame writer run.storage.raftSyncMeta run.storage.fs
        rcases synced : writer.sync run.storage.raftSyncMeta run.storage.fs with ⟨ret, after, fs⟩
        rw [synced] at stepped sameIndex snapshots
        simp only at stepped sameIndex snapshots
        by_cases failed : ret ≠ 0
        · rw [if_pos failed] at stepped
          obtain rfl := Option.some.inj stepped
          refine counted.closeFailed keepDataOnError unclosed (fun index _ => ?_)
          unfold SnapshotFs.lookup
          rw [snapshots]
        · rw [if_neg failed] at stepped
          obtain rfl := Option.some.inj stepped
          refine counted.framed rfl rfl snapshots rfl ⟨rfl, rfl⟩ counted.opened ?_ ?_
          · intro index
            unfold SnapshotRun.held
            rw [unclosed index]
            rfl
          · intro close running
            obtain rfl := Option.some.inj running
            refine ⟨fun _ => ?_, fun begun => absurd rfl begun, ?_, ?_⟩
            · change run.storage.lastSnapshotIndex < after.snapshotIndex
              rw [sameIndex]
              exact newer
            · intro stage
              rcases stage with same | same <;> contradiction
            · intro stage
              contradiction

theorem closeHeld_early {close : WriterClose} (early : close.stage ≠ .referenced)
    (notPublished : close.stage ≠ .published) (index : Nat) :
    closeHeld (some close) index = 0 := by
  unfold closeHeld
  cases stage : close.stage with
  | referenced => exact absurd stage early
  | published => exact absurd stage notPublished
  | _ => simp only [stage]

theorem Counted.advance {close next : WriterClose}
    (counted : Counted (fun _ => 0) run) (fs : SnapshotFs P) (closing : run.closing = some close)
    (sameHeld : ∀ index, closeHeld (some next) index = closeHeld (some close) index)
    (content : ∀ index ∈ run.known, fs.lookup index = run.storage.fs.lookup index)
    (staged : Staged { run with
      storage := { run.storage with fs := fs }
      closing := some next } next) :
    Counted (fun _ => 0) { run with
      storage := { run.storage with fs := fs }
      closing := some next } := by
  have total (index : Nat) : held { run with
      storage := { run.storage with fs := fs }
      closing := some next } index = run.held index := by
    unfold SnapshotRun.held
    rw [closing, ← sameHeld index]
    rfl
  refine counted.keep ?_ rfl rfl ⟨rfl, rfl⟩ content counted.opened ?_ (fun other running => ?_)
  · exact counted.counts.congr (fun index => by rw [total index])
  · intro index _
    rw [total index]
  · obtain rfl := Option.some.inj running
    exact staged

theorem Counted.refNew {close : WriterClose} (counted : Counted (fun _ => 0) run)
    (closing : run.closing = some close) (stage : close.stage = .renamed) :
    Counted (fun _ => 0) { run with
      storage := run.storage.ref close.newIndex
      closing := some { close with stage := .referenced } } := by
  have staged := counted.staged close closing
  have newer := staged.newer (by rw [stage]; decide)
  have more (index : Nat) : held { run with
      storage := run.storage.ref close.newIndex
      closing := some { close with stage := .referenced } } index =
      run.held index + one close.newIndex index := by
    have unclosed : closeHeld run.closing index = 0 := by
      rw [closing]
      exact closeHeld_early (by rw [stage]; decide) (by rw [stage]; decide) index
    unfold SnapshotRun.held
    rw [unclosed]
    rfl
  refine counted.keep ?_ rfl rfl ⟨rfl, rfl⟩ (fun _ _ => rfl) counted.opened ?_
    (fun other running => ?_)
  · refine (counted.counts.acquire close.newIndex (fun index => rfl)).congr ?_
    intro index
    rw [more index]
    rfl
  · intro index isKnown
    have bounded := (counted.bounded index isKnown).2
    rw [more index, show one close.newIndex index = 0 from if_neg (by omega)]
  · obtain rfl := Option.some.inj running
    refine ⟨fun _ => newer, fun _ _ => ?_, fun _ => ?_, fun impossible => by contradiction⟩
    · exact staged.compared (by rw [stage]; decide) (by rw [stage]; decide)
    · exact staged.present (Or.inl stage)

theorem Counted.publish {close : WriterClose} (counted : Counted (fun _ => 0) run)
    (closing : run.closing = some close) (stage : close.stage = .referenced) :
    Counted (fun _ => 0) { run with
      storage := { run.storage with lastSnapshotIndex := close.newIndex }
      closing := some { close with stage := .published }
      published :=
        (close.newIndex, (run.storage.fs.lookup close.newIndex).getD {}) :: run.published } := by
  have staged := counted.staged close closing
  have newer := staged.newer (by rw [stage]; decide)
  have former := staged.compared (by rw [stage]; decide) (by rw [stage]; decide)
  have unknown : close.newIndex ∉ run.known := by
    intro isKnown
    have bounded := (counted.bounded _ isKnown).2
    omega
  have total (index : Nat) : held { run with
      storage := { run.storage with lastSnapshotIndex := close.newIndex }
      closing := some { close with stage := .published }
      published :=
        (close.newIndex, (run.storage.fs.lookup close.newIndex).getD {}) :: run.published }
      index = run.held index := by
    have atOld : closeHeld (some { close with stage := .published }) index =
        if index = run.storage.lastSnapshotIndex ∧ index ≠ 0 then 1 else 0 := by
      rw [← former]
      rfl
    have atNew : closeHeld run.closing index =
        if index = close.newIndex ∧ index ≠ 0 then 1 else 0 := by
      rw [closing]
      simp only [closeHeld, stage]
      refine if_congr ⟨fun same => ⟨same, by omega⟩, fun both => both.1⟩ rfl rfl
    change run.openIndexes.count index + (if index = close.newIndex ∧ index ≠ 0 then 1 else 0) +
      closeHeld (some { close with stage := .published }) index = run.held index
    unfold SnapshotRun.held
    rw [atOld, atNew]
    exact Nat.add_right_comm _ _ _
  constructor
  · exact counted.counts.congr (fun index => by rw [total index])
  · exact fun index member => List.mem_cons_of_mem _ (counted.opened index member)
  · exact fun _ => List.mem_cons_self
  · intro index member
    change index ∈ close.newIndex :: run.known at member
    change 0 < index ∧ index ≤ close.newIndex
    rcases List.mem_cons.mp member with new | earlier
    · omega
    · have bounded := counted.bounded index earlier
      omega
  · intro entry member isHeld
    rw [total] at isHeld
    rcases List.mem_cons.mp member with new | earlier
    · obtain ⟨dir, found⟩ := Option.isSome_iff_exists.mp (staged.present (Or.inr stage))
      subst new
      change run.storage.fs.lookup close.newIndex = some (Option.getD _ {})
      rw [found]
      rfl
    · exact counted.kept entry earlier isHeld
  · intro index
    change run.gone.count index = if index ∈ close.newIndex :: run.known ∧ _ then 1 else 0
    rw [total index, counted.once index]
    refine if_congr ?_ rfl rfl
    constructor
    · exact fun both => ⟨List.mem_cons_of_mem _ both.1, both.2⟩
    · rintro ⟨member, none⟩
      rcases List.mem_cons.mp member with new | earlier
      · -- the new snapshot is held by the call
        have isHeld : closeHeld run.closing index = 1 := by
          rw [closing]
          simp only [closeHeld, stage]
          exact if_pos new
        unfold SnapshotRun.held at none
        omega
      · exact ⟨earlier, none⟩
  · exact counted.deleted
  · intro other running
    obtain rfl := Option.some.inj running
    refine ⟨fun impossible => absurd rfl impossible, fun _ impossible => absurd rfl impossible,
      fun either => by rcases either with same | same <;> contradiction, fun _ => ?_⟩
    refine ⟨?_, fun nonzero => ?_⟩
    · change close.oldIndex < close.newIndex
      omega
    · rw [former] at nonzero ⊢
      exact List.mem_cons_of_mem _ (counted.last nonzero)

theorem Counted.unrefOld {close : WriterClose} (counted : Counted (fun _ => 0) run)
    (closing : run.closing = some close) (stage : close.stage = .published) :
    Counted (fun _ => 0) (SnapshotRun.unref { run with closing := none } close.oldIndex) := by
  have staged := counted.staged close closing
  have fewer (index : Nat) : closeHeld run.closing index =
      if index = close.oldIndex ∧ index ≠ 0 then 1 else 0 := by
    rw [closing]
    simp only [closeHeld, stage]
  by_cases zero : close.oldIndex = 0
  · have released : Counted (fun _ => 0) { run with closing := none } := by
      refine counted.framed rfl rfl rfl rfl ⟨rfl, rfl⟩ counted.opened (fun index => ?_)
        (fun other running => by contradiction)
      have unclosed : closeHeld run.closing index = 0 := by
        rw [fewer index]
        exact if_neg (fun both => both.2 (both.1.trans zero))
      unfold SnapshotRun.held
      rw [unclosed]
      rfl
    rw [zero, released.unref_zero]
    exact released
  · refine Counted.unref ?_ ((staged.former stage).2 zero)
    refine counted.framed rfl rfl rfl rfl ⟨rfl, rfl⟩ counted.opened (fun index => ?_)
      (fun other running => by contradiction)
    have sameHeld : closeHeld run.closing index = one close.oldIndex index := by
      rw [fewer index]
      exact if_congr ⟨fun both => both.1, fun same => ⟨same, by omega⟩⟩ rfl rfl
    unfold SnapshotRun.held
    rw [sameHeld]
    rfl

theorem Counted.attempt {close : WriterClose} {next : CloseStage} {outcome : Bool × SnapshotFs P}
    (counted : Counted (fun _ => 0) run) (closing : run.closing = some close)
    (early : close.stage ≠ .referenced ∧ close.stage ≠ .published ∧ close.stage ≠ .synced)
    (isNext : next = .cleared ∨ next = .renamed)
    (content : ∀ index, index ≠ close.newIndex →
      outcome.2.lookup index = run.storage.fs.lookup index)
    (present : outcome.1 = true → next = .renamed →
      (outcome.2.lookup close.newIndex).isSome) :
    Counted (fun _ => 0) (run.closeAttempt close next outcome) := by
  obtain ⟨notReferenced, notPublished, notSynced⟩ := early
  have staged := counted.staged close closing
  have newer := staged.newer notPublished
  have kept : ∀ index ∈ run.known, outcome.2.lookup index = run.storage.fs.lookup index := by
    intro index isKnown
    have bounded := (counted.bounded index isKnown).2
    exact content index (by omega)
  have unclosed := closeHeld_early notReferenced notPublished
  have later : next ≠ .referenced ∧ next ≠ .published := by
    rcases isNext with rfl | rfl <;> decide
  rcases outcome with ⟨worked, fs⟩
  cases worked with
  | false =>
      refine counted.closeFailed close.keepDataOnError (fun index => ?_) kept
      rw [closing]
      exact unclosed index
  | true =>
      refine counted.advance _ closing (fun index => ?_) kept ?_
      · rw [unclosed index]
        exact closeHeld_early later.1 later.2 index
      · refine ⟨fun _ => newer, fun _ _ => staged.compared notSynced notPublished, ?_,
          fun impossible => absurd impossible later.2⟩
        intro either
        exact present rfl (either.resolve_right later.1)

theorem Counted.closeNext (counted : Counted (fun _ => 0) run)
    (stepped : run.closeNext = some run') : Counted (fun _ => 0) run' := by
  unfold SnapshotRun.closeNext at stepped
  cases closing : run.closing with
  | none =>
      rw [closing] at stepped
      contradiction
  | some close =>
      have staged := counted.staged close closing
      rw [closing] at stepped
      simp only at stepped
      cases stage : close.stage with
      | synced =>
          have unclosed : ∀ index, closeHeld (some close) index = 0 :=
            closeHeld_early (by rw [stage]; decide) (by rw [stage]; decide)
          rw [stage] at stepped
          simp only at stepped
          by_cases same : close.newIndex = run.storage.lastSnapshotIndex
          · rw [if_pos same] at stepped
            obtain rfl := Option.some.inj stepped
            refine counted.closeFailed close.keepDataOnError (fun index => ?_) (fun _ _ => rfl)
            rw [closing]
            exact unclosed index
          · rw [if_neg same] at stepped
            obtain rfl := Option.some.inj stepped
            refine counted.advance run.storage.fs closing (fun index => ?_) (fun _ _ => rfl) ?_
            · rw [unclosed index]
              rfl
            · exact ⟨fun _ => staged.newer (by rw [stage]; decide), fun _ _ => rfl,
                fun either => by rcases either with same | same <;> contradiction,
                fun impossible => by contradiction⟩
      | compared =>
          rw [stage] at stepped
          obtain rfl := Option.some.inj stepped
          exact counted.attempt closing (by rw [stage]; decide) (Or.inl rfl)
            (fun index differs => SnapshotFs.deleteSnapshot_other differs _)
            (fun _ impossible => by contradiction)
      | cleared =>
          have renames := run.storage.fs.renameTemp_snapshots close.newIndex
          rw [stage] at stepped
          obtain rfl := Option.some.inj stepped
          refine counted.attempt closing (by rw [stage]; decide) (Or.inr rfl) ?_ ?_
          · intro index differs
            unfold SnapshotFs.lookup
            rcases renames with ⟨_, same⟩ | ⟨dir, added⟩
            · rw [same]
            · rw [added, List.lookup_cons, beq_eq_false_iff_ne.mpr differs]
          · intro worked _
            rcases renames with ⟨failed, _⟩ | ⟨dir, added⟩
            · rw [failed] at worked
              contradiction
            · unfold SnapshotFs.lookup
              rw [added, List.lookup_cons, beq_self_eq_true]
              rfl
      | renamed =>
          rw [stage] at stepped
          obtain rfl := Option.some.inj stepped
          exact counted.refNew closing stage
      | referenced =>
          have former := staged.compared (by rw [stage]; decide) (by rw [stage]; decide)
          rw [stage] at stepped
          simp only at stepped
          rw [if_neg (not_not.mpr former)] at stepped
          obtain rfl := Option.some.inj stepped
          exact counted.publish closing stage
      | published =>
          rw [stage] at stepped
          obtain rfl := Option.some.inj stepped
          exact counted.unrefOld closing stage

/-! ### The start -/

def Fresh (storage : SnapshotStorage P) : Prop :=
  storage.lastSnapshotIndex = 0 ∧ storage.refMap = [] ∧ storage.fs.snapshots = [] ∨
    ∃ index dir, 0 < index ∧ storage.lastSnapshotIndex = index ∧ storage.refMap = [(index, 1)] ∧
      storage.fs.snapshots = [(index, dir)]

theorem deleteOldSnapshots_fresh (indexes : List Nat) : ∀ storage after : SnapshotStorage P,
    storage.lastSnapshotIndex = 0 → storage.refMap = [] → indexes.Nodup →
    (∀ index ∈ indexes, 0 < index) → (storage.fs.snapshots.map Prod.fst).Perm indexes →
    storage.deleteOldSnapshots indexes = (0, after) → Fresh after := by
  induction indexes with
  | nil =>
      intro storage after last refMap _ _ names deleted
      obtain ⟨_, rfl⟩ := Prod.mk.inj deleted
      exact Or.inl ⟨last, refMap, List.map_eq_nil_iff.mp (List.perm_nil.mp names)⟩
  | cons index rest ih =>
      intro storage after last refMap distinct positive names deleted
      cases rest with
      | nil =>
          obtain ⟨_, rfl⟩ := Prod.mk.inj deleted
          obtain ⟨entry, snapshots, rfl⟩ := List.map_eq_singleton_iff.mp (List.perm_singleton.mp names)
          refine Or.inr ⟨entry.1, entry.2, positive _ List.mem_cons_self, rfl, ?_, snapshots⟩
          simp only [SnapshotStorage.ref, refMap]
          rfl
      | cons second rest =>
          unfold SnapshotStorage.deleteOldSnapshots at deleted
          cases works : storage.fs.faults storage.fs.clock with
          | some fault =>
              have broken : storage.fs.faults storage.fs.clock ≠ none := by
                rw [works]
                simp
              have failed := SnapshotFs.deleteSnapshot_fails broken index
              rcases call : storage.fs.deleteSnapshot index with ⟨worked, fs⟩
              rw [call] at failed deleted
              simp only at failed
              subst failed
              exact absurd (Prod.mk.inj deleted).1 (by decide)
          | none =>
              rw [SnapshotFs.deleteSnapshot_works works] at deleted
              have fresh := List.nodup_cons.mp distinct
              refine ih _ after ?_ ?_ fresh.2
                (fun other member => positive other (List.mem_cons_of_mem _ member)) ?_ deleted
              · exact last
              · exact refMap
              · change ((storage.fs.snapshots.filter _).map Prod.fst).Perm _
                have filtered := names.filter (fun other => other ≠ index)
                have keeps : (second :: rest).filter (fun other => other ≠ index) =
                    second :: rest := by
                  rw [List.filter_eq_self]
                  intro other member
                  exact decide_eq_true (fun same => fresh.1 (same ▸ member))
                rw [List.filter_cons_of_neg (by simp), List.filter_map, keeps] at filtered
                exact filtered

theorem init_fresh {constructed after : SnapshotStorage P}
    (last : constructed.lastSnapshotIndex = 0) (refMap : constructed.refMap = [])
    (distinct : (constructed.fs.snapshots.map Prod.fst).Nodup)
    (positive : ∀ entry ∈ constructed.fs.snapshots, 0 < entry.1)
    (started : constructed.init = (0, after)) : Fresh after := by
  -- the directory is read after calls that leave the snapshots alone
  have listed (fs : SnapshotFs P) (snapshots : fs.snapshots = constructed.fs.snapshots)
      (deleted : ({ constructed with fs := fs } : SnapshotStorage P).deleteOldSnapshots
        (fs.snapshots.map Prod.fst).mergeSort = (0, after)) : Fresh after := by
    rw [snapshots] at deleted
    have sorted := List.mergeSort_perm (constructed.fs.snapshots.map Prod.fst) (fun a b => a ≤ b)
    refine deleteOldSnapshots_fresh _ { constructed with fs := fs } after last refMap
      (sorted.nodup_iff.mpr distinct) ?_ ?_ deleted
    · intro index member
      obtain ⟨entry, inside, rfl⟩ := List.mem_map.mp (sorted.mem_iff.mp member)
      exact positive entry inside
    · change (fs.snapshots.map Prod.fst).Perm _
      rw [snapshots]
      exact sorted.symm
  have called (fs : SnapshotFs P) (snapshots : fs.snapshots = constructed.fs.snapshots)
      (read : (match fs.call with
        | (false, fs) => ( EIO, { constructed with fs := fs })
        | (true, fs) => ({ constructed with fs := fs } : SnapshotStorage P).deleteOldSnapshots
            (fs.snapshots.map Prod.fst).mergeSort) = (0, after)) : Fresh after := by
    unfold SnapshotFs.call at read
    cases works : (fs.faults fs.clock).isNone with
    | false =>
        rw [works] at read
        exact absurd (Prod.mk.inj read).1 (by decide)
    | true =>
        rw [works] at read
        exact listed fs.tick snapshots read
  unfold SnapshotStorage.init at started
  rcases first : constructed.fs.call with ⟨worked, fs⟩
  have snapshots : fs.snapshots = constructed.fs.snapshots := by
    have same := congrArg (fun result => result.2.snapshots) first
    exact same.symm
  rw [first] at started
  cases worked with
  | false => exact absurd (Prod.mk.inj started).1 (by decide)
  | true =>
      simp only at started
      by_cases filter : constructed.filterBeforeCopyRemote = true
      · rw [if_pos filter] at started
        exact called fs snapshots started
      · rw [if_neg filter] at started
        have cleaned := deleteTemp_snapshots fs
        rcases deleting : fs.deleteTemp with ⟨deleted, left⟩
        rw [deleting] at started cleaned
        cases deleted with
        | false => exact absurd (Prod.mk.inj started).1 (by decide)
        | true => exact called left (cleaned.trans snapshots) started

theorem Fresh.parts {storage : SnapshotStorage P} (fresh : Fresh storage) :
    (∀ index, index ∈ storage.fs.snapshots.map Prod.fst ↔
      index = storage.lastSnapshotIndex ∧ index ≠ 0) ∧
    (∀ index, storage.refMap.lookup index =
      if index = storage.lastSnapshotIndex ∧ index ≠ 0 then some 1 else none) ∧
    ∀ entry ∈ storage.fs.snapshots, storage.fs.lookup entry.1 = some entry.2 := by
  rcases fresh with ⟨noLast, noRefs, noSnapshots⟩ | ⟨index, dir, above, isLast, refs, snapshots⟩
  · rw [noLast, noRefs, noSnapshots]
    refine ⟨fun index => ?_, fun index => ?_, fun entry member => ?_⟩
    · exact ⟨fun member => absurd member List.not_mem_nil, fun both => absurd both.1 both.2⟩
    · rw [if_neg (fun both => both.2 both.1)]
      rfl
    · contradiction
  · unfold SnapshotFs.lookup
    rw [isLast, refs, snapshots]
    refine ⟨fun other => ?_, fun other => ?_, fun entry member => ?_⟩
    · rw [List.map_singleton, List.mem_singleton]
      exact ⟨fun same => ⟨same, by omega⟩, fun both => both.1⟩
    · by_cases same : other = index
      · rw [if_pos ⟨same, by omega⟩, List.lookup_cons, beq_iff_eq.mpr same]
      · rw [if_neg (fun both => same both.1), List.lookup_cons, beq_eq_false_iff_ne.mpr same]
        rfl
    · rw [List.mem_singleton.mp member, List.lookup_cons, beq_self_eq_true]

theorem Initial.counted (initial : Initial run) : Counted (fun _ => 0) run := by
  obtain ⟨constructed, last, refMap, distinct, positive, started, isRun⟩ := initial
  obtain ⟨names, refs, content⟩ := (init_fresh last refMap distinct positive started).parts
  have published : run.published = run.storage.fs.snapshots := by
    rw [isRun]
  have isKnown (index : Nat) : index ∈ run.known ↔
      index = run.storage.lastSnapshotIndex ∧ index ≠ 0 := by
    unfold known
    rw [published]
    exact names index
  have unopened : run.openIndexes = [] := by
    rw [isRun]
    rfl
  have notClosing : run.closing = none := by
    rw [isRun]
  have noneGone : run.gone = [] ∧ run.destroyed = [] := by
    rw [isRun]
    exact ⟨rfl, rfl⟩
  have total (index : Nat) : run.held index =
      if index = run.storage.lastSnapshotIndex ∧ index ≠ 0 then 1 else 0 := by
    unfold SnapshotRun.held
    rw [unopened, notClosing, List.count_nil, Nat.zero_add]
    rfl
  constructor
  · intro index
    rw [refs index]
    simp only [total index, Nat.add_zero]
    split
    · rfl
    · rfl
  · intro index member
    rw [unopened] at member
    contradiction
  · exact fun nonzero => (isKnown _).mpr ⟨rfl, nonzero⟩
  · intro index member
    have atLast := (isKnown index).mp member
    omega
  · intro entry member _
    rw [published] at member
    exact content entry member
  · intro index
    rw [noneGone.1, if_neg]
    · rfl
    · rintro ⟨member, unheld⟩
      rw [total index, if_pos ((isKnown index).mp member)] at unheld
      exact absurd unheld (by decide)
  · intro index member
    rw [noneGone.2] at member
    contradiction
  · intro close running
    rw [notClosing] at running
    contradiction

/-! ### Runs -/

theorem Counted.step [DecidableEq P] {action : Action P} (counted : Counted (fun _ => 0) run)
    (allowed : Allowed action run) (stepped : step action run = some run') :
    Counted (fun _ => 0) run' := by
  cases action with
  | openLocked =>
      obtain rfl := Option.some.inj stepped
      exact counted.openLocked
  | openReader index => exact counted.openReader stepped
  | closeReader reader => exact counted.closeReader stepped
  | destroySnapshot index => exact counted.destroySnapshot stepped
  | write temp clock =>
      obtain rfl := Option.some.inj stepped
      exact counted.framed rfl rfl rfl rfl ⟨rfl, rfl⟩ counted.opened (fun _ => rfl)
        (fun close running => (counted.staged close running).of_frame rfl rfl rfl)
  | closeWriter writer keepDataOnError => exact counted.closeWriter allowed stepped
  | closeNext => exact counted.closeNext stepped

theorem counted_of_reachable [DecidableEq P] (reached : system.Reachable run) :
    Counted (fun _ => 0) run := by
  induction reached with
  | start initial => exact Initial.counted initial
  | next _ allowed stepped ih => exact ih.step allowed stepped

/-- The snapshots in use have their content, and every count is the number of holders.
Each snapshot that is no longer the last one is given to `destroy_snapshot` once, when it
has lost its count, and no other snapshot is. -/
structure ReferencesRight (run : SnapshotRun P) : Prop where
  readers : ∀ reader ∈ run.readers, ∃ dir, (reader.snapshotIndex, dir) ∈ run.published ∧
    run.storage.fs.lookup reader.snapshotIndex = some dir
  last : run.storage.lastSnapshotIndex ≠ 0 →
    ∃ dir, (run.storage.lastSnapshotIndex, dir) ∈ run.published ∧
      run.storage.fs.lookup run.storage.lastSnapshotIndex = some dir
  positive : ∀ index count, run.storage.refMap.lookup index = some count →
    0 < count ∧ count = run.held index
  superseded : ∀ index ∈ run.known, index ≠ run.storage.lastSnapshotIndex →
    run.gone.count index = if (run.storage.refMap.lookup index).isNone then 1 else 0
  gone : ∀ index ∈ run.gone, index ∈ run.known ∧ index ≠ run.storage.lastSnapshotIndex
  deleted : ∀ index, (index, true) ∈ run.destroyed → run.storage.fs.lookup index = none

theorem Counted.right (counted : Counted (fun _ => 0) run) : ReferencesRight run := by
  have content {index : Nat} (isKnown : index ∈ run.known) (isHeld : run.held index ≠ 0) :
      ∃ dir, (index, dir) ∈ run.published ∧ run.storage.fs.lookup index = some dir := by
    obtain ⟨entry, member, rfl⟩ := List.mem_map.mp isKnown
    exact ⟨entry.2, member, counted.kept entry member isHeld⟩
  have lastHeld (nonzero : run.storage.lastSnapshotIndex ≠ 0) :
      run.held run.storage.lastSnapshotIndex ≠ 0 := by
    unfold SnapshotRun.held
    rw [if_pos ⟨rfl, nonzero⟩]
    omega
  constructor
  · intro reader isOpen
    have member : reader.snapshotIndex ∈ run.openIndexes :=
      List.mem_append_right _ (List.mem_map.mpr ⟨reader, isOpen, rfl⟩)
    refine content (counted.opened _ member) ?_
    have positive := List.count_pos_iff.mpr member
    unfold SnapshotRun.held
    omega
  · exact fun nonzero => content (counted.last nonzero) (lastHeld nonzero)
  · intro index count found
    have positive := counted.counts.positive found
    rw [counted.counts index] at found
    split_ifs at found
    exact ⟨positive, (Option.some.inj found).symm⟩
  · intro index isKnown _
    rw [counted.once index, counted.counts index]
    refine if_congr ?_ rfl rfl
    by_cases unheld : run.held index + 0 = 0
    · rw [if_pos unheld]
      exact ⟨fun _ => rfl, fun _ => ⟨isKnown, unheld⟩⟩
    · rw [if_neg unheld]
      exact ⟨fun both => absurd both.2 unheld, fun impossible => by contradiction⟩
  · intro index member
    have isKnown := known_of_gone counted member
    refine ⟨isKnown, ?_⟩
    rintro rfl
    have once := counted.once run.storage.lastSnapshotIndex
    have positive := List.count_pos_iff.mpr member
    have nonzero := (counted.bounded _ isKnown).1
    rw [if_neg (fun both => lastHeld (by omega) both.2)] at once
    omega
  · exact counted.deleted

def emptyWriter (index : Nat) : SnapshotWriter Nat :=
  { metaTable := { snapshotMeta := some { lastIncludedIndex := index, lastIncludedTerm := 1 } } }

def emptyReader (index : Nat) : SnapshotReader Nat :=
  { snapshotIndex := index, metaTable := (emptyWriter index).metaTable }

theorem initial_empty : Initial (P := Nat) { storage := { fs := { clock := 3 } } } := by
  refine ⟨{}, rfl, rfl, List.nodup_nil, fun entry member => by contradiction, ?_, rfl⟩
  simp [SnapshotStorage.init, SnapshotFs.call, SnapshotFs.deleteTemp, SnapshotFs.tick,
    SnapshotStorage.deleteOldSnapshots]

end SnapshotRun

end QuorumKit
