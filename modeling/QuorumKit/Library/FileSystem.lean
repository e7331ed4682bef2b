/-
A directory of files under system calls that may fail and crashes that may
interrupt them.

Names point to inodes and inodes to bytes, so an open descriptor keeps its file
across a rename.  One small record of type `M` is replaced atomically beside
the files.  Every effective operation is recorded: the state after a crash is
the replay of a prefix of the recorded operations.
-/

import Mathlib.Data.List.Nodup
import QuorumKit.Library.Bytes

namespace QuorumKit
namespace Library

structure Disk (N M : Type) where
  names : List (N × Nat) := []
  content : Nat → Bytes := fun _ => []
  nextInode : Nat := 0
  saved : Option M := none

inductive FsOp (N M : Type) where
  | create (name : N)
  | write (inode : Nat) (bytes : Bytes)
  | fsync (inode : Nat)
  | rename (old new : N)
  | unlink (name : N)
  | truncate (inode : Nat) (size : Nat)
  | save (record : M)
deriving DecidableEq

namespace Disk

variable {N M : Type} [DecidableEq N]

def lookup (disk : Disk N M) (name : N) : Option Nat := disk.names.lookup name

def read (disk : Disk N M) (name : N) : Option Bytes :=
  (disk.lookup name).map disk.content

def setContent (disk : Disk N M) (inode : Nat) (bytes : Bytes) : Disk N M :=
  { disk with content := Function.update disk.content inode bytes }

def apply (disk : Disk N M) : FsOp N M → Disk N M
  | .create name =>
      match disk.lookup name with
      | some inode => disk.setContent inode []
      | none =>
          { disk.setContent disk.nextInode [] with
            names := (name, disk.nextInode) :: disk.names
            nextInode := disk.nextInode + 1 }
  | .write inode bytes => disk.setContent inode (disk.content inode ++ bytes)
  | .fsync _ => disk
  | .rename old new =>
      match disk.lookup old with
      | some inode =>
          { disk with
            names := (new, inode) ::
              disk.names.filter (fun entry => entry.1 ≠ old ∧ entry.1 ≠ new) }
      | none => disk
  | .unlink name =>
      { disk with names := disk.names.filter (fun entry => entry.1 ≠ name) }
  | .truncate inode size => disk.setContent inode ((disk.content inode).take size)
  | .save record => { disk with saved := some record }

/-- The state that a sequence of operations leaves on the disk. -/
def replay (disk : Disk N M) (ops : List (FsOp N M)) : Disk N M :=
  ops.foldl apply disk

@[simp] theorem replay_nil (disk : Disk N M) : disk.replay [] = disk := rfl

@[simp] theorem replay_cons (disk : Disk N M) (op : FsOp N M) (ops : List (FsOp N M)) :
    disk.replay (op :: ops) = (disk.apply op).replay ops := rfl

theorem replay_append (disk : Disk N M) (front back : List (FsOp N M)) :
    disk.replay (front ++ back) = (disk.replay front).replay back := by
  simp [replay]

/-- Directories in which no name is listed twice and no file has two names;
every inode in use is below the next one. -/
structure WellFormed (disk : Disk N M) : Prop where
  names : (disk.names.map Prod.fst).Nodup
  inodes : (disk.names.map Prod.snd).Nodup
  fresh : ∀ entry ∈ disk.names, entry.2 < disk.nextInode

end Disk

theorem lookup_filter_key {N V : Type} [BEq N] [LawfulBEq N] (entries : List (N × V))
    (keep : N → Bool) (name : N) :
    (entries.filter (fun entry => keep entry.1)).lookup name =
      if keep name then entries.lookup name else none := by
  induction entries with
  | nil => simp
  | cons entry rest ih =>
      rcases entry with ⟨key, inode⟩
      by_cases same : name = key
      · subst same
        cases kept : keep name with
        | true => simp [kept]
        | false => simp [kept, ih]
      · have skip : (name == key) = false := by simpa using same
        cases kept : keep key with
        | true => simp [kept, List.lookup_cons, skip, ih]
        | false => simp [kept, List.lookup_cons, skip, ih]

theorem lookup_isSome_iff {N V : Type} [BEq N] [LawfulBEq N] (entries : List (N × V))
    (name : N) :
    (entries.lookup name).isSome ↔ name ∈ entries.map Prod.fst := by
  induction entries with
  | nil => simp
  | cons entry rest ih =>
      rcases entry with ⟨key, inode⟩
      by_cases same : name = key
      · subst same
        simp
      · have skip : (name == key) = false := by simpa using same
        simp [List.lookup_cons, skip, ih, same]

theorem mem_of_lookup_eq_some {N V : Type} [BEq N] [LawfulBEq N] {entries : List (N × V)}
    {name : N} {inode : V} (found : entries.lookup name = some inode) :
    (name, inode) ∈ entries := by
  induction entries with
  | nil => simp at found
  | cons entry rest ih =>
      rcases entry with ⟨key, other⟩
      by_cases same : name = key
      · subst same
        simp only [List.lookup_cons, beq_self_eq_true, Option.some.injEq] at found
        simp [found]
      · have skip : (name == key) = false := by simpa using same
        rw [List.lookup_cons, skip] at found
        exact List.mem_cons_of_mem _ (ih found)

theorem lookup_inj {N : Type} [DecidableEq N] {entries : List (N × Nat)}
    (nodup : (entries.map Prod.snd).Nodup) {left right : N} {inode : Nat}
    (leftFound : entries.lookup left = some inode)
    (rightFound : entries.lookup right = some inode) : left = right := by
  have leftMember := mem_of_lookup_eq_some leftFound
  have rightMember := mem_of_lookup_eq_some rightFound
  have same : (left, inode) = (right, inode) :=
    List.inj_on_of_nodup_map nodup leftMember rightMember rfl
  exact congrArg Prod.fst same

namespace Disk

variable {N M : Type} [DecidableEq N] (disk : Disk N M)

@[simp] theorem setContent_lookup (inode : Nat) (bytes : Bytes) (name : N) :
    (disk.setContent inode bytes).lookup name = disk.lookup name := rfl

omit [DecidableEq N] in
@[simp] theorem setContent_names (inode : Nat) (bytes : Bytes) :
    (disk.setContent inode bytes).names = disk.names := rfl

omit [DecidableEq N] in
@[simp] theorem setContent_saved (inode : Nat) (bytes : Bytes) :
    (disk.setContent inode bytes).saved = disk.saved := rfl

theorem lookup_rename {old new : N} {inode : Nat} (found : disk.lookup old = some inode)
    (name : N) :
    (disk.apply (.rename old new)).lookup name =
      if name = new then some inode
      else if name = old then none else disk.lookup name := by
  simp only [apply, found]
  change List.lookup name ((new, inode) ::
    disk.names.filter (fun entry => entry.1 ≠ old ∧ entry.1 ≠ new)) = _
  by_cases isNew : name = new
  · subst isNew
    simp
  · have skip : (name == new) = false := by simpa using isNew
    rw [List.lookup_cons, skip]
    have filtered := lookup_filter_key disk.names
      (fun key => decide (key ≠ old ∧ key ≠ new)) name
    simp only [filtered, isNew, if_false]
    by_cases isOld : name = old
    · simp [isOld]
    · simp [isOld, isNew, lookup]

theorem lookup_unlink (gone name : N) :
    (disk.apply (.unlink gone)).lookup name =
      if name = gone then none else disk.lookup name := by
  have filtered := lookup_filter_key disk.names (fun key => decide (key ≠ gone)) name
  change (disk.names.filter (fun entry => entry.1 ≠ gone)).lookup name = _
  rw [filtered]
  by_cases isGone : name = gone
  · simp [isGone]
  · simp [isGone, lookup]

@[simp] theorem content_rename (old new : N) :
    (disk.apply (.rename old new)).content = disk.content := by
  simp only [apply]
  split <;> rfl

@[simp] theorem saved_rename (old new : N) :
    (disk.apply (.rename old new)).saved = disk.saved := by
  simp only [apply]
  split <;> rfl

theorem read_rename {old new : N} {inode : Nat} (found : disk.lookup old = some inode)
    (name : N) :
    (disk.apply (.rename old new)).read name =
      if name = new then disk.read old
      else if name = old then none else disk.read name := by
  unfold read
  rw [lookup_rename disk found, content_rename]
  split_ifs with isNew isOld
  · simp [found]
  · rfl
  · rfl

theorem wellFormed_rename {old new : N} (wellFormed : disk.WellFormed) :
    (disk.apply (.rename old new)).WellFormed := by
  simp only [apply]
  cases found : disk.lookup old with
  | none => exact wellFormed
  | some inode =>
      have listed := mem_of_lookup_eq_some found
      refine ⟨?_, ?_, ?_⟩
      · simp only [List.map_cons, List.nodup_cons]
        refine ⟨?_, wellFormed.names.sublist ((List.filter_sublist).map Prod.fst)⟩
        intro member
        rcases List.mem_map.mp member with ⟨entry, kept, sameName⟩
        simp [sameName] at kept
      · simp only [List.map_cons, List.nodup_cons]
        refine ⟨?_, wellFormed.inodes.sublist ((List.filter_sublist).map Prod.snd)⟩
        intro member
        rcases List.mem_map.mp member with ⟨entry, kept, sameInode⟩
        rw [List.mem_filter] at kept
        have same : entry = (old, inode) :=
          List.inj_on_of_nodup_map wellFormed.inodes kept.1 listed sameInode
        simp [same] at kept
      · intro entry member
        rcases List.mem_cons.mp member with rfl | member
        · exact wellFormed.fresh (old, inode) listed
        · exact wellFormed.fresh entry (List.mem_filter.mp member).1

theorem wellFormed_unlink {name : N} (wellFormed : disk.WellFormed) :
    (disk.apply (.unlink name)).WellFormed where
  names := wellFormed.names.sublist ((List.filter_sublist).map Prod.fst)
  inodes := wellFormed.inodes.sublist ((List.filter_sublist).map Prod.snd)
  fresh entry member := wellFormed.fresh entry (List.mem_filter.mp member).1

/-- The inode that a creation opens: the old file's, or a new one. -/
def createdInode (name : N) : Nat := (disk.lookup name).getD disk.nextInode

theorem lookup_create (name other : N) :
    (disk.apply (.create name)).lookup other =
      if other = name then some (disk.createdInode name) else disk.lookup other := by
  simp only [apply, createdInode]
  cases found : disk.lookup name with
  | some inode =>
      by_cases same : other = name
      · subst same
        simp [found]
      · simp [same]
  | none =>
      change List.lookup other ((name, disk.nextInode) :: disk.names) = _
      by_cases same : other = name
      · subst same
        simp
      · have skip : (other == name) = false := by simpa using same
        rw [List.lookup_cons, skip]
        simp [same, lookup]

theorem nextInode_le_create (name : N) :
    disk.nextInode ≤ (disk.apply (.create name)).nextInode := by
  simp only [apply]
  cases disk.lookup name with
  | some inode => exact Nat.le_refl _
  | none => exact Nat.le_succ _

theorem wellFormed_create {name : N} (wellFormed : disk.WellFormed) :
    (disk.apply (.create name)).WellFormed := by
  simp only [apply]
  cases found : disk.lookup name with
  | some inode => exact ⟨wellFormed.names, wellFormed.inodes, wellFormed.fresh⟩
  | none =>
      have unlisted : name ∉ disk.names.map Prod.fst := by
        rw [← lookup_isSome_iff]
        change ¬ (disk.lookup name).isSome
        rw [found]
        simp
      refine ⟨?_, ?_, ?_⟩
      · exact List.nodup_cons.mpr ⟨unlisted, wellFormed.names⟩
      · refine List.nodup_cons.mpr ⟨?_, wellFormed.inodes⟩
        intro member
        rcases List.mem_map.mp member with ⟨entry, listed, used⟩
        have below := wellFormed.fresh entry listed
        have used : entry.2 = disk.nextInode := used
        omega
      · intro entry member
        rcases List.mem_cons.mp member with rfl | listed
        · exact Nat.lt_succ_self _
        · exact Nat.lt_succ_of_lt (wellFormed.fresh entry listed)

theorem read_create (wellFormed : disk.WellFormed) {name : N} (missing : disk.lookup name = none)
    (other : N) :
    (disk.apply (.create name)).read other = if other = name then some [] else disk.read other := by
  have content : (disk.apply (.create name)).content =
      Function.update disk.content disk.nextInode [] := by
    simp only [apply, missing]
    rfl
  unfold read
  rw [lookup_create, content]
  by_cases same : other = name
  · simp [same, createdInode, missing]
  · simp only [same, if_false]
    cases found : disk.lookup other with
    | none => rfl
    | some inode =>
        have below := wellFormed.fresh _ (mem_of_lookup_eq_some found)
        have different : inode ≠ disk.nextInode := Nat.ne_of_lt below
        simp [different]

@[simp] theorem saved_create (name : N) :
    (disk.apply (.create name)).saved = disk.saved := by
  simp only [apply]
  split <;> rfl

@[simp] theorem nextInode_rename (old new : N) :
    (disk.apply (.rename old new)).nextInode = disk.nextInode := by
  simp only [apply]
  split <;> rfl

theorem lookup_lt_nextInode (wellFormed : disk.WellFormed) {name : N} {inode : Nat}
    (found : disk.lookup name = some inode) : inode < disk.nextInode :=
  wellFormed.fresh _ (mem_of_lookup_eq_some found)

omit [DecidableEq N] in
theorem wellFormed_setContent {inode : Nat} {bytes : Bytes} (wellFormed : disk.WellFormed) :
    (disk.setContent inode bytes).WellFormed :=
  ⟨wellFormed.names, wellFormed.inodes, wellFormed.fresh⟩

theorem read_setContent (wellFormed : disk.WellFormed) {name : N} {inode : Nat}
    (found : disk.lookup name = some inode) (bytes : Bytes) (other : N) :
    (disk.setContent inode bytes).read other =
      if other = name then some bytes else disk.read other := by
  unfold read
  rw [setContent_lookup]
  by_cases same : other = name
  · subst same
    simp [found, setContent]
  · simp only [same, if_false]
    cases otherFound : disk.lookup other with
    | none => rfl
    | some otherInode =>
        have different : otherInode ≠ inode := by
          rintro rfl
          exact same (lookup_inj wellFormed.inodes otherFound found)
        simp [setContent, different]

end Disk

/-- A disk in use: `faults` says which system call fails, and for a write how
many bytes it still writes. -/
structure FileSystem (N M : Type) where
  disk : Disk N M := {}
  clock : Nat := 0
  faults : Nat → Option Nat := fun _ => none
  trace : List (FsOp N M) := []

namespace FileSystem

variable {N M : Type} [DecidableEq N] (fs : FileSystem N M)

/-- An operation that happened, with its call counted. -/
def record (op : FsOp N M) : FileSystem N M :=
  { fs with
    disk := fs.disk.apply op
    clock := fs.clock + 1
    trace := fs.trace ++ [op] }

@[simp] theorem record_faults (op : FsOp N M) :
    (fs.record op).faults = fs.faults := rfl

theorem record_disk (op : FsOp N M) : (fs.record op).disk = fs.disk.apply op := rfl

def fail : FileSystem N M := { fs with clock := fs.clock + 1 }

def perform (op : FsOp N M) : Bool × FileSystem N M :=
  match fs.faults fs.clock with
  | none => (true, fs.record op)
  | some _ => (false, fs.fail)

/-- `rename(2)`, which also fails when the old name does not exist. -/
def rename (old new : N) : Bool × FileSystem N M :=
  match fs.disk.lookup old with
  | none => (false, fs.fail)
  | some _ => fs.perform (.rename old new)

/-- The write loop: a failure leaves the bytes that were already written. -/
def write (inode : Nat) (bytes : Bytes) : Bool × FileSystem N M :=
  match fs.faults fs.clock with
  | none => (true, fs.record (.write inode bytes))
  | some written => (false, fs.record (.write inode (bytes.take written)))

/-- `open(name, O_CREAT | O_TRUNC)`. -/
def create (name : N) : Option Nat × FileSystem N M :=
  match fs.faults fs.clock with
  | none => ((fs.disk.apply (.create name)).lookup name, fs.record (.create name))
  | some _ => (none, fs.fail)

/-- The machine stops after the first `count` recorded operations. -/
def crash (initial : Disk N M) (count : Nat) : Disk N M :=
  initial.replay (fs.trace.take count)

end FileSystem

end Library
end QuorumKit
