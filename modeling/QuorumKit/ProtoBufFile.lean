/-
One protobuf message in a file, `ProtoBufFile` of `braft/protobuf_file.cpp`.

A save writes a temporary file beside the target and renames it.  Serialising
and parsing are parameters; what the code relies on is carried by `Codec`.  The
results of both library calls are ignored, as the code ignores them.
-/

import QuorumKit.Library.FileSystem

namespace QuorumKit

open Library (Bytes packBE unpackBE Disk FsOp FileSystem)

/-- A message type with its wire format.  What `parse` leaves in the message is
kept beside its result. -/
structure Codec (Message : Type) where
  serialize : Message → Bytes
  parse : Bytes → Bool × Message
  serializeFits : ∀ message, (serialize message).length < 2 ^ 31
  parseSerialize : ∀ message, parse (serialize message) = (true, message)

namespace ProtoBufFile

variable {Message M : Type} (codec : Codec Message)

def tmpPath (path : String) : String := path ++ ".tmp"

def save (fs : FileSystem String M) (path : String) (message : Message) (sync : Bool) :
    Bool × FileSystem String M :=
  match fs.create (tmpPath path) with
  | (none, fs) => (false, fs)
  | (some file, fs) =>
      let msgBuf := codec.serialize message
      match fs.write file (packBE 4 msgBuf.length) with
      | (false, fs) => (false, fs)
      | (true, fs) =>
          match fs.write file msgBuf with
          | (false, fs) => (false, fs)
          | (true, fs) =>
              match if sync then fs.perform (.fsync file) else (true, fs) with
              | (false, fs) => (false, fs)
              | (true, fs) => fs.rename (tmpPath path) path

/-- `file_pread`: a negative size reads nothing and is no error. -/
def pread (content : Bytes) (failed : Bool) (offset : Nat) (size : Int) : Int × Bytes :=
  if size ≤ 0 then (0, [])
  else if failed then (-1, [])
  else
    let bytes := (content.drop offset).take size.toNat
    (bytes.length, bytes)

/-- The message after a load that returns `0`; `failed` says which read fails. -/
def load (file : Option Bytes) (failed : Nat → Bool) : Option Message :=
  match file with
  | none => none
  | some content =>
      let header := pread content (failed 0) 0 4
      if header.1 ≠ 4 then none
      else
        let leftLen := (BitVec.ofNat 32 (unpackBE header.2)).toInt
        let body := pread content (failed 1) 4 leftLen
        if leftLen ≠ body.1 then none else some (codec.parse body.2).2

/-! ### What a file holds -/

structure Holds (content body : Bytes) : Prop where
  fits : body.length < 2 ^ 31
  starts : packBE 4 body.length ++ body <+: content

def encode (message : Message) : Bytes :=
  packBE 4 (codec.serialize message).length ++ codec.serialize message

theorem encode_holds (message : Message) :
    Holds (encode codec message) (codec.serialize message) where
  fits := codec.serializeFits message
  starts := List.prefix_rfl

theorem pread_length {content bytes : Bytes} {failed : Bool} {offset : Nat} {size : Int}
    (full : pread content failed offset size = (size, bytes)) :
    0 ≤ size ∧ (bytes.length : Int) = size ∧ bytes <+: content.drop offset := by
  unfold pread at full
  by_cases empty : size ≤ 0
  · rw [if_pos empty] at full
    injection full with noSize noBytes
    subst noSize
    subst noBytes
    exact ⟨Int.le_refl 0, rfl, List.nil_prefix⟩
  · rw [if_neg empty] at full
    cases failed with
    | true =>
        injection full with wrong noBytes
        omega
    | false =>
        injection full with sameSize sameBytes
        subst sameBytes
        exact ⟨by omega, sameSize, List.take_prefix _ _⟩

theorem pread_full {content : Bytes} {offset : Nat} {bytes : Bytes}
    (present : bytes <+: content.drop offset) :
    pread content false offset bytes.length = ((bytes.length : Int), bytes) := by
  unfold pread
  cases bytes with
  | nil => rfl
  | cons byte rest =>
      have positive : ¬((byte :: rest).length : Int) ≤ 0 := by
        simp only [List.length_cons]
        omega
      rw [if_neg positive]
      simp only [Bool.false_eq_true, if_false, Int.toNat_natCast]
      rw [← List.prefix_iff_eq_take.mp present]

theorem toInt_length {length : Nat} (fits : length < 2 ^ 31) :
    (BitVec.ofNat 32 length).toInt = length := by
  rw [BitVec.toInt_ofNat', Int.bmod_def]
  split_ifs <;> omega

theorem header_of_toInt {header : Bytes} (four : header.length = 4) {length : Nat}
    (packed : (BitVec.ofNat 32 (unpackBE header)).toInt = length) :
    unpackBE header = length := by
  have bound := Library.unpackBE_lt header
  rw [four] at bound
  rw [BitVec.toInt_ofNat', Int.bmod_def] at packed
  split_ifs at packed <;> omega

theorem load_of_holds {content body : Bytes} (holds : Holds content body) :
    load codec (some content) (fun _ => false) = some (codec.parse body).2 := by
  have headerStarts : packBE 4 body.length <+: content.drop 0 :=
    (List.prefix_append _ _).trans holds.starts
  have bodyStarts : body <+: content.drop 4 := by
    rcases holds.starts with ⟨rest, whole⟩
    rw [← whole, List.append_assoc, List.drop_left' (Library.packBE_length 4 body.length)]
    exact List.prefix_append _ _
  have headerRead : pread content false 0 4 = (4, packBE 4 body.length) := by
    have full := pread_full headerStarts
    rwa [Library.packBE_length] at full
  have small : body.length < 256 ^ 4 := Nat.lt_trans holds.fits (by decide)
  have length : (BitVec.ofNat 32 (unpackBE (packBE 4 body.length))).toInt =
      (body.length : Int) := by
    rw [Library.unpackBE_packBE_of_lt small, toInt_length holds.fits]
  simp only [load, headerRead, length, pread_full bodyStarts]
  rw [if_neg (not_not.mpr rfl), if_neg (not_not.mpr rfl)]

theorem holds_of_load {content : Bytes} {failed : Nat → Bool} {message : Message}
    (loaded : load codec (some content) failed = some message) :
    ∃ body, Holds content body ∧ message = (codec.parse body).2 := by
  simp only [load] at loaded
  rcases headerIs : pread content (failed 0) 0 4 with ⟨count, header⟩
  simp only [headerIs] at loaded
  by_cases short : count ≠ 4
  · rw [if_pos short] at loaded
    cases loaded
  · rw [if_neg short] at loaded
    have count4 : count = 4 := not_not.mp short
    subst count4
    rcases pread_length headerIs with ⟨_, headerLength, headerStarts⟩
    rcases bodyIs : pread content (failed 1) 4
      (BitVec.ofNat 32 (unpackBE header)).toInt with ⟨length, body⟩
    simp only [bodyIs] at loaded
    by_cases cut : (BitVec.ofNat 32 (unpackBE header)).toInt ≠ length
    · rw [if_pos cut] at loaded
      cases loaded
    · rw [if_neg cut] at loaded
      have same := not_not.mp cut
      rw [← same] at bodyIs
      rcases pread_length bodyIs with ⟨_, bodyLength, bodyStarts⟩
      have four : header.length = 4 := by omega
      have bound := BitVec.toInt_lt (x := BitVec.ofNat 32 (unpackBE header))
      have packed : packBE 4 body.length = header := by
        rw [← header_of_toInt four bodyLength.symm, ← four]
        exact Library.packBE_unpackBE header
      refine ⟨body, ⟨by omega, ?_⟩, (Option.some.inj loaded).symm⟩
      rw [List.drop_zero] at headerStarts
      rcases headerStarts with ⟨rest, whole⟩
      rw [← whole, List.drop_left' four] at bodyStarts
      rw [packed, ← whole]
      exact (List.prefix_append_right_inj header).mpr bodyStarts

def DetectsDamage (content : Bytes) : Prop :=
  ∀ failed message, load codec (some content) failed = some message →
    ∃ body, Holds content body ∧ (codec.parse body).1 = true

theorem holds_unique {content first second : Bytes} (firstHolds : Holds content first)
    (secondHolds : Holds content second) : first = second := by
  have front : packBE 4 first.length = packBE 4 second.length := by
    have firstFront := (List.prefix_append (packBE 4 first.length) first).trans
      firstHolds.starts
    have secondFront := (List.prefix_append (packBE 4 second.length) second).trans
      secondHolds.starts
    apply (List.prefix_of_prefix_length_le firstFront secondFront _).eq_of_length
    · simp
    · simp
  have firstSmall : first.length < 256 ^ 4 := Nat.lt_trans firstHolds.fits (by decide)
  have secondSmall : second.length < 256 ^ 4 := Nat.lt_trans secondHolds.fits (by decide)
  have lengths : first.length = second.length := by
    rw [← Library.unpackBE_packBE_of_lt firstSmall, front,
      Library.unpackBE_packBE_of_lt secondSmall]
  have whole : packBE 4 first.length ++ first = packBE 4 second.length ++ second := by
    apply (List.prefix_of_prefix_length_le firstHolds.starts secondHolds.starts _).eq_of_length
    · simp [lengths]
    · simp [lengths]
  rw [front] at whole
  exact List.append_cancel_left whole

theorem detectsDamage_iff (content : Bytes) :
    DetectsDamage codec content ↔
      ∀ body, Holds content body → (codec.parse body).1 = true := by
  constructor
  · intro detects body holds
    rcases detects _ _ (load_of_holds codec holds) with ⟨other, otherHolds, parses⟩
    rwa [holds_unique holds otherHolds]
  · intro parses failed message loaded
    rcases holds_of_load codec loaded with ⟨body, holds, _⟩
    exact ⟨body, holds, parses body holds⟩

def OnFile (inode : Nat) : FsOp String M → Prop
  | .write other _ => other = inode
  | .fsync other => other = inode
  | _ => False

def OnTmp (path : String) (inode : Nat) (ops : List (FsOp String M)) : Prop :=
  ops = [] ∨ ∃ rest, ops = .create (tmpPath path) :: rest ∧ ∀ op ∈ rest, OnFile inode op

def dataOps (message : Message) (sync : Bool) (inode : Nat) : List (FsOp String M) :=
  [.write inode (packBE 4 (codec.serialize message).length),
    .write inode (codec.serialize message)] ++ if sync then [.fsync inode] else []

def saveOps (path : String) (message : Message) (sync : Bool) (inode : Nat) :
    List (FsOp String M) :=
  .create (tmpPath path) :: dataOps codec message sync inode ++ [.rename (tmpPath path) path]

theorem dataOps_onFile (message : Message) (sync : Bool) (inode : Nat) :
    ∀ op ∈ dataOps (M := M) codec message sync inode, OnFile inode op := by
  intro op member
  cases sync with
  | true =>
      simp only [dataOps, if_true, List.cons_append, List.nil_append, List.mem_cons,
        List.not_mem_nil, or_false] at member
      rcases member with rfl | rfl | rfl <;> rfl
  | false =>
      simp only [dataOps, Bool.false_eq_true, if_false, List.append_nil, List.mem_cons,
        List.not_mem_nil, or_false] at member
      rcases member with rfl | rfl <;> rfl

theorem OnTmp.take {path : String} {inode : Nat} {ops : List (FsOp String M)}
    (onTmp : OnTmp path inode ops) (count : Nat) : OnTmp path inode (ops.take count) := by
  rcases onTmp with rfl | ⟨rest, rfl, onFile⟩
  · exact Or.inl List.take_nil
  · cases count with
    | zero => exact Or.inl rfl
    | succ count =>
        refine Or.inr ⟨rest.take count, rfl, ?_⟩
        intro op member
        exact onFile op (List.mem_of_mem_take member)

theorem saveOps_take (path : String) (message : Message) (sync : Bool) (inode count : Nat) :
    OnTmp path inode ((saveOps (M := M) codec path message sync inode).take count) ∨
      (saveOps (M := M) codec path message sync inode).take count =
        saveOps codec path message sync inode := by
  by_cases whole : (saveOps (M := M) codec path message sync inode).length ≤ count
  · exact Or.inr (List.take_of_length_le whole)
  · left
    have shorter : count ≤
        (.create (tmpPath path) :: dataOps (M := M) codec message sync inode).length := by
      rw [saveOps, List.length_append, List.length_singleton] at whole
      omega
    have inside : OnTmp path inode
        (.create (tmpPath path) :: dataOps (M := M) codec message sync inode) :=
      Or.inr ⟨_, rfl, dataOps_onFile codec message sync inode⟩
    rw [saveOps, List.take_append_of_le_length shorter]
    exact inside.take count

/-! ### Outcomes of the calls -/

/-- Calls that started at one file system and have recorded `ops`. -/
structure Recorded (before after : FileSystem String M) (ops : List (FsOp String M)) : Prop where
  trace : after.trace = before.trace ++ ops
  disk : after.disk = before.disk.replay ops

namespace Recorded

theorem start (fs : FileSystem String M) : Recorded fs fs [] where
  trace := (List.append_nil _).symm
  disk := rfl

variable {before fs : FileSystem String M} {ops : List (FsOp String M)}

theorem record (recorded : Recorded before fs ops) (op : FsOp String M) :
    Recorded before (fs.record op) (ops ++ [op]) where
  trace := by
    change fs.trace ++ [op] = _
    rw [recorded.trace, List.append_assoc]
  disk := by
    rw [FileSystem.record_disk, recorded.disk, Disk.replay_append]
    rfl

theorem fail (recorded : Recorded before fs ops) : Recorded before fs.fail ops :=
  ⟨recorded.trace, recorded.disk⟩

theorem create (recorded : Recorded before fs ops) (name : String) :
    (∃ next, fs.create name = (some (fs.disk.createdInode name), next) ∧
        Recorded before next (ops ++ [.create name])) ∨
      ∃ next, fs.create name = (none, next) ∧ Recorded before next ops := by
  unfold FileSystem.create
  cases fs.faults fs.clock with
  | none =>
      left
      rw [Disk.lookup_create, if_pos rfl]
      exact ⟨_, rfl, recorded.record _⟩
  | some _ => exact Or.inr ⟨_, rfl, recorded.fail⟩

theorem write (recorded : Recorded before fs ops) (inode : Nat) (bytes : Bytes) :
    (∃ next, fs.write inode bytes = (true, next) ∧
        Recorded before next (ops ++ [.write inode bytes])) ∨
      ∃ next part, fs.write inode bytes = (false, next) ∧
        Recorded before next (ops ++ [.write inode part]) := by
  unfold FileSystem.write
  cases fs.faults fs.clock with
  | none => exact Or.inl ⟨_, rfl, recorded.record _⟩
  | some written => exact Or.inr ⟨_, bytes.take written, rfl, recorded.record _⟩

theorem perform (recorded : Recorded before fs ops) (op : FsOp String M) :
    (∃ next, fs.perform op = (true, next) ∧ Recorded before next (ops ++ [op])) ∨
      ∃ next, fs.perform op = (false, next) ∧ Recorded before next ops := by
  unfold FileSystem.perform
  cases fs.faults fs.clock with
  | none => exact Or.inl ⟨_, rfl, recorded.record op⟩
  | some _ => exact Or.inr ⟨_, rfl, recorded.fail⟩

theorem rename (recorded : Recorded before fs ops) (old new : String) :
    (∃ next, fs.rename old new = (true, next) ∧
        Recorded before next (ops ++ [.rename old new])) ∨
      ∃ next, fs.rename old new = (false, next) ∧ Recorded before next ops := by
  unfold FileSystem.rename
  cases fs.disk.lookup old with
  | none => exact Or.inr ⟨_, rfl, recorded.fail⟩
  | some _ => exact recorded.perform (.rename old new)

end Recorded

theorem save_ops (fs : FileSystem String M) (path : String) (message : Message) (sync : Bool) :
    ∃ ops, Recorded fs (save codec fs path message sync).2 ops ∧
      (((save codec fs path message sync).1 = true ∧
          ops = saveOps codec path message sync (fs.disk.createdInode (tmpPath path))) ∨
        ((save codec fs path message sync).1 = false ∧
          OnTmp path (fs.disk.createdInode (tmpPath path)) ops)) := by
  have partWritten : ∀ writes : List Bytes, OnTmp path (fs.disk.createdInode (tmpPath path))
      (.create (tmpPath path) ::
        writes.map (fun bytes => (.write (fs.disk.createdInode (tmpPath path)) bytes :
          FsOp String M))) := by
    intro writes
    refine Or.inr ⟨_, rfl, ?_⟩
    intro op member
    rcases List.mem_map.mp member with ⟨bytes, _, rfl⟩
    rfl
  unfold save
  rcases (Recorded.start fs).create (tmpPath path) with
    ⟨opened, created, recorded⟩ | ⟨stopped, created, recorded⟩
  · rw [created]
    rcases recorded.write (fs.disk.createdInode (tmpPath path))
      (packBE 4 (codec.serialize message).length) with
      ⟨headed, header, recorded⟩ | ⟨stopped, part, header, recorded⟩
    · simp only [header]
      rcases recorded.write (fs.disk.createdInode (tmpPath path)) (codec.serialize message) with
        ⟨written, body, recorded⟩ | ⟨stopped, part, body, recorded⟩
      · simp only [body]
        cases sync with
        | true =>
            rcases recorded.perform (.fsync (fs.disk.createdInode (tmpPath path))) with
              ⟨durable, synced, recorded⟩ | ⟨stopped, synced, recorded⟩
            · simp only [if_true, synced]
              rcases recorded.rename (tmpPath path) path with
                ⟨finished, renamed, recorded⟩ | ⟨stopped, renamed, recorded⟩
              · rw [renamed]
                exact ⟨_, recorded, Or.inl ⟨rfl, rfl⟩⟩
              · rw [renamed]
                exact ⟨_, recorded, Or.inr ⟨rfl, Or.inr
                  ⟨_, rfl, dataOps_onFile codec message true _⟩⟩⟩
            · simp only [if_true, synced]
              exact ⟨_, recorded, Or.inr ⟨trivial, partWritten [_, _]⟩⟩
        | false =>
            simp only [Bool.false_eq_true, if_false]
            rcases recorded.rename (tmpPath path) path with
              ⟨finished, renamed, recorded⟩ | ⟨stopped, renamed, recorded⟩
            · rw [renamed]
              exact ⟨_, recorded, Or.inl ⟨rfl, rfl⟩⟩
            · rw [renamed]
              exact ⟨_, recorded, Or.inr ⟨rfl, partWritten [_, _]⟩⟩
      · simp only [body]
        exact ⟨_, recorded, Or.inr ⟨trivial, partWritten [_, part]⟩⟩
    · simp only [header]
      exact ⟨_, recorded, Or.inr ⟨trivial, partWritten [part]⟩⟩
  · rw [created]
    exact ⟨_, recorded, Or.inr ⟨rfl, Or.inl rfl⟩⟩

theorem tmpPath_ne (path : String) : path ≠ tmpPath path := by
  intro same
  have lengths := congrArg String.length same
  rw [tmpPath, String.length_append] at lengths
  have suffix : ".tmp".length = 4 := rfl
  omega

structure Kept (disk : Disk String M) (path : String) (bytes : Bytes) (inode : Nat) : Prop where
  found : ∃ other, disk.lookup path = some other ∧ disk.content other = bytes ∧ other ≠ inode

theorem kept_create {disk : Disk String M} (wellFormed : disk.WellFormed) {path : String}
    {bytes : Bytes} (present : disk.read path = some bytes) :
    Kept (disk.apply (.create (tmpPath path))) path bytes
      (disk.createdInode (tmpPath path)) := by
  rcases Option.map_eq_some_iff.mp present with ⟨inode, found, content⟩
  have apart : inode ≠ disk.createdInode (tmpPath path) := by
    unfold Disk.createdInode
    cases tmp : disk.lookup (tmpPath path) with
    | none => exact Nat.ne_of_lt (disk.lookup_lt_nextInode wellFormed found)
    | some other =>
        intro same
        have same : inode = other := same
        subst same
        exact tmpPath_ne path (Library.lookup_inj wellFormed.inodes found tmp)
  refine ⟨inode, ?_, ?_, apart⟩
  · rw [Disk.lookup_create, if_neg (tmpPath_ne path)]
    exact found
  · have truncated : (disk.apply (.create (tmpPath path))).content =
        Function.update disk.content (disk.createdInode (tmpPath path)) [] := by
      unfold Disk.createdInode
      simp only [Disk.apply]
      cases disk.lookup (tmpPath path) with
      | none => rfl
      | some other => rfl
    rw [truncated, Function.update_of_ne apart]
    exact content

theorem Kept.replay {disk : Disk String M} {path : String} {bytes : Bytes} {inode : Nat}
    (kept : Kept disk path bytes inode) (ops : List (FsOp String M))
    (onFile : ∀ op ∈ ops, OnFile inode op) : Kept (disk.replay ops) path bytes inode := by
  induction ops generalizing disk with
  | nil => exact kept
  | cons op rest ih =>
      apply ih
      · rcases kept.found with ⟨other, found, content, apart⟩
        have here := onFile op (List.mem_cons_self ..)
        cases op with
        | write target data =>
            have same : target = inode := here
            subst same
            refine ⟨other, found, ?_, apart⟩
            change Function.update disk.content target _ other = bytes
            rw [Function.update_of_ne apart]
            exact content
        | fsync target => exact kept
        | create name => cases here
        | rename old new => cases here
        | unlink name => cases here
        | truncate target size => cases here
        | save record => cases here
      · intro later member
        exact onFile later (List.mem_cons_of_mem op member)

/-! ### Crashes -/

def unsynced (ops : List (FsOp String M)) (inode : Nat) : Bool :=
  ops.foldl (fun dirty op =>
    match op with
    | .write other _ => dirty || other == inode
    | .fsync other => dirty && other != inode
    | _ => dirty) false

/-- The disk after a crash: `lost` says what is left of the files whose last
writes were not synced. -/
def crashed (disk : Disk String M) (ops : List (FsOp String M)) (lost : Nat → Option Bytes) :
    Disk String M :=
  let after := disk.replay ops
  { after with
    content := fun inode =>
      if unsynced ops inode then (lost inode).getD (after.content inode)
      else after.content inode }

theorem crashed_lookup (disk : Disk String M) (ops : List (FsOp String M))
    (lost : Nat → Option Bytes) (name : String) :
    (crashed disk ops lost).lookup name = (disk.replay ops).lookup name := rfl

theorem crashed_content (disk : Disk String M) {ops : List (FsOp String M)}
    {lost : Nat → Option Bytes} {inode : Nat}
    (safe : unsynced ops inode = false ∨ lost inode = none) :
    (crashed disk ops lost).content inode = (disk.replay ops).content inode := by
  simp only [crashed]
  rcases safe with synced | kept
  · rw [synced]
    rfl
  · rw [kept]
    exact ite_self _

theorem unsynced_onFile {inode other : Nat} (apart : other ≠ inode)
    {ops : List (FsOp String M)} (onFile : ∀ op ∈ ops, OnFile inode op) :
    unsynced ops other = false := by
  unfold unsynced
  induction ops with
  | nil => rfl
  | cons op rest ih =>
      have later := ih (fun op member => onFile op (List.mem_cons_of_mem _ member))
      have here := onFile op (List.mem_cons_self ..)
      cases op with
      | write target data =>
          have same : target = inode := here
          have different : (target == other) = false := by
            rw [same]
            exact beq_false_of_ne apart.symm
          rw [List.foldl_cons]
          simp only [different, Bool.or_false]
          exact later
      | fsync target =>
          rw [List.foldl_cons]
          exact later
      | create name => cases here
      | rename old new => cases here
      | unlink name => cases here
      | truncate target size => cases here
      | save record => cases here

theorem read_crashed_onTmp {disk : Disk String M} (wellFormed : disk.WellFormed)
    {path : String} {bytes : Bytes} (present : disk.read path = some bytes)
    {ops : List (FsOp String M)} (onTmp : OnTmp path (disk.createdInode (tmpPath path)) ops)
    (lost : Nat → Option Bytes) : (crashed disk ops lost).read path = some bytes := by
  rcases onTmp with rfl | ⟨rest, rfl, onFile⟩
  · exact present
  · have kept := (kept_create wellFormed present).replay rest onFile
    rcases kept.found with ⟨other, found, content, apart⟩
    have synced : unsynced (.create (tmpPath path) :: rest) other = false := by
      change unsynced rest other = false
      exact unsynced_onFile apart onFile
    rw [Disk.read, crashed_lookup, Disk.replay_cons, found, Option.map_some,
      crashed_content disk (Or.inl synced), Disk.replay_cons, content]

theorem replay_dataOps {disk : Disk String M} {inode : Nat} (empty : disk.content inode = [])
    (message : Message) (sync : Bool) :
    (disk.replay (dataOps codec message sync inode)).content inode = encode codec message ∧
      ∀ name, (disk.replay (dataOps codec message sync inode)).lookup name =
        disk.lookup name := by
  cases sync with
  | true =>
      refine ⟨?_, fun name => rfl⟩
      simp [dataOps, Disk.apply, Disk.setContent, empty, encode]
  | false =>
      refine ⟨?_, fun name => rfl⟩
      simp [dataOps, Disk.apply, Disk.setContent, empty, encode]

theorem read_crashed_saveOps (disk : Disk String M) (path : String) (message : Message)
    (sync : Bool) {lost : Nat → Option Bytes}
    (durable : sync = true ∨ ∀ inode, lost inode = none) :
    (crashed disk (saveOps codec path message sync (disk.createdInode (tmpPath path)))
      lost).read path = some (encode codec message) := by
  let inode := disk.createdInode (tmpPath path)
  let opened := disk.apply (.create (tmpPath path))
  have openedLookup : opened.lookup (tmpPath path) = some inode := by
    rw [Disk.lookup_create, if_pos rfl]
  have openedEmpty : opened.content inode = [] := by
    have truncated : opened.content = Function.update disk.content inode [] := by
      simp only [opened, inode, Disk.createdInode, Disk.apply]
      cases disk.lookup (tmpPath path) with
      | none => rfl
      | some other => rfl
    rw [truncated, Function.update_self]
  rcases replay_dataOps codec openedEmpty message sync with ⟨content, names⟩
  have tmpFound := (names (tmpPath path)).trans openedLookup
  have replayed : disk.replay (saveOps codec path message sync inode) =
      (opened.replay (dataOps codec message sync inode)).apply (.rename (tmpPath path) path) := by
    rw [saveOps, List.cons_append, Disk.replay_cons, Disk.replay_append]
    rfl
  have safe : unsynced (saveOps (M := M) codec path message sync inode) inode = false ∨
      lost inode = none := by
    rcases durable with rfl | kept
    · left
      simp [unsynced, saveOps, dataOps]
    · exact Or.inr (kept inode)
  have target : (disk.replay (saveOps codec path message sync inode)).lookup path =
      some inode := by
    rw [replayed, Disk.lookup_rename _ tmpFound, if_pos rfl]
  rw [Disk.read, crashed_lookup, target, Option.map_some, crashed_content disk safe,
    replayed, Disk.content_rename, content]

def SavesRoundTrip (path : String) : Prop :=
  ∀ (fs : FileSystem String M) (message : Message) (sync : Bool),
    (save codec fs path message sync).1 = true →
      load codec ((save codec fs path message sync).2.disk.read path) (fun _ => false) =
        some message

/-- A save that fails anywhere and a crash after any of its operations.  Writes
may be lost up to the sync, and none are when the save asks for no sync. -/
def SaveIsAtomic (path : String) : Prop :=
  ∀ (fs : FileSystem String M) (old message : Message) (sync : Bool) (count : Nat)
    (lost : Nat → Option Bytes),
    fs.disk.WellFormed → fs.trace = [] → fs.disk.read path = some (encode codec old) →
    (sync = true ∨ ∀ inode, lost inode = none) →
      let ops := (save codec fs path message sync).2.trace.take count
      load codec ((crashed fs.disk ops lost).read path) (fun _ => false) = some old ∨
        load codec ((crashed fs.disk ops lost).read path) (fun _ => false) = some message

theorem load_encode (message : Message) :
    load codec (some (encode codec message)) (fun _ => false) = some message := by
  rw [load_of_holds codec (encode_holds codec message), codec.parseSerialize]

theorem savesRoundTrip (path : String) : SavesRoundTrip (M := M) codec path := by
  intro fs message sync saved
  rcases save_ops codec fs path message sync with ⟨ops, recorded, ⟨_, whole⟩ | ⟨failed, _⟩⟩
  · have present := read_crashed_saveOps codec fs.disk path message sync
      (Or.inr (fun inode => (rfl : (fun _ => none : Nat → Option Bytes) inode = none)))
    have unchanged : (crashed fs.disk ops (fun _ => none)).read path =
        (fs.disk.replay ops).read path := by
      have same : (crashed fs.disk ops (fun _ => none)).content = (fs.disk.replay ops).content :=
        funext (fun inode => crashed_content fs.disk (Or.inr rfl))
      rw [Disk.read, Disk.read, crashed_lookup, same]
    rw [← whole, unchanged, ← recorded.disk] at present
    rw [present]
    exact load_encode codec message
  · rw [saved] at failed
    cases failed

theorem saveIsAtomic (path : String) : SaveIsAtomic (M := M) codec path := by
  intro fs old message sync count lost wellFormed noTrace present durable
  have before : ∀ ops, OnTmp path (fs.disk.createdInode (tmpPath path)) ops →
      load codec ((crashed fs.disk ops lost).read path) (fun _ => false) = some old := by
    intro ops onTmp
    rw [read_crashed_onTmp wellFormed present onTmp lost]
    exact load_encode codec old
  rcases save_ops codec fs path message sync with ⟨ops, recorded, outcome⟩
  have trace : (save codec fs path message sync).2.trace = ops := by
    rw [recorded.trace, noTrace]
    rfl
  simp only [trace]
  rcases outcome with ⟨_, whole⟩ | ⟨_, onTmp⟩
  · rcases saveOps_take codec path message sync (fs.disk.createdInode (tmpPath path)) count with
      onTmp | all
    · rw [whole]
      exact Or.inl (before _ onTmp)
    · right
      rw [whole, all, read_crashed_saveOps codec fs.disk path message sync durable]
      exact load_encode codec message
  · exact Or.inl (before _ (onTmp.take count))

/-- A save is atomic and read back; damage is seen exactly in the files that
hold no complete body which fails to parse. -/
theorem save_load_iff (path : String) (content : Bytes) :
    (SavesRoundTrip (M := M) codec path ∧ SaveIsAtomic (M := M) codec path ∧
        DetectsDamage codec content) ↔
      ∀ body, Holds content body → (codec.parse body).1 = true := by
  constructor
  · rintro ⟨_, _, detects⟩
    exact (detectsDamage_iff codec content).mp detects
  · intro parses
    exact ⟨savesRoundTrip codec path, saveIsAtomic codec path,
      (detectsDamage_iff codec content).mpr parses⟩

end ProtoBufFile

/-- `LogPBMeta` of `local_storage.proto`. -/
structure LogPBMeta where
  firstLogIndex : Fin (2 ^ 64)
deriving DecidableEq

namespace LogPBMeta

def varint (value : Nat) : Bytes :=
  if value < 128 then [UInt8.ofNat value]
  else UInt8.ofNat (128 + value % 128) :: varint (value / 128)
termination_by value

def readVarint : Bytes → Option (Nat × Bytes)
  | [] => none
  | byte :: rest =>
      if byte.toNat < 128 then some (byte.toNat, rest)
      else
        match readVarint rest with
        | none => none
        | some (high, rest) => some (high * 128 + (byte.toNat - 128), rest)

theorem readVarint_varint (value : Nat) (rest : Bytes) :
    readVarint (varint value ++ rest) = some (value, rest) := by
  induction value using Nat.strongRecOn with
  | ind value ih =>
      rw [varint]
      by_cases small : value < 128
      · have byte : (UInt8.ofNat value).toNat = value :=
          UInt8.toNat_ofNat_of_lt' (Nat.lt_trans small (by decide))
        rw [if_pos small, List.singleton_append, readVarint, byte, if_pos small]
      · have byte : (UInt8.ofNat (128 + value % 128)).toNat = 128 + value % 128 :=
          UInt8.toNat_ofNat_of_lt' (by
            have size : UInt8.size = 256 := rfl
            omega)
        rw [if_neg small, List.cons_append, readVarint, byte, if_neg (by omega),
          ih (value / 128) (by omega)]
        simp only [Option.some.injEq, Prod.mk.injEq, and_true]
        omega

theorem varint_length {value bound : Nat} (fits : value < 128 ^ (bound + 1)) :
    (varint value).length ≤ bound + 1 := by
  induction bound generalizing value with
  | zero =>
      have small : value < 128 := by simpa using fits
      rw [varint, if_pos small, List.length_singleton]
  | succ bound ih =>
      rw [varint]
      by_cases small : value < 128
      · rw [if_pos small, List.length_singleton]
        omega
      · rw [Nat.pow_succ] at fits
        have below : value / 128 < 128 ^ (bound + 1) := Nat.div_lt_of_lt_mul (by omega)
        have shorter := ih below
        rw [if_neg small, List.length_cons]
        omega

def serialize (message : LogPBMeta) : Bytes := 8 :: varint message.firstLogIndex.val

/-- The required field alone; anything else fails and leaves the default. -/
def parse (bytes : Bytes) : Bool × LogPBMeta :=
  match bytes with
  | 8 :: rest =>
      match readVarint rest with
      | some (value, []) => (true, ⟨Fin.ofNat (2 ^ 64) value⟩)
      | _ => (false, ⟨0⟩)
  | _ => (false, ⟨0⟩)

def codec : Codec LogPBMeta where
  serialize := serialize
  parse := parse
  serializeFits message := by
    have fits : message.firstLogIndex.val < 128 ^ (9 + 1) :=
      Nat.lt_of_lt_of_le message.firstLogIndex.isLt (by decide)
    have short := varint_length fits
    rw [serialize, List.length_cons]
    omega
  parseSerialize message := by
    have read := readVarint_varint message.firstLogIndex.val []
    rw [List.append_nil] at read
    have kept : Fin.ofNat (2 ^ 64) message.firstLogIndex.val = message.firstLogIndex :=
      Fin.ext (Nat.mod_eq_of_lt message.firstLogIndex.isLt)
    simp only [serialize, parse, read, kept]

def damaged : Bytes := [0, 0, 0, 1, 255]

/-- The damaged file loads as a first index of `0`. -/
theorem damaged_loads :
    ProtoBufFile.load codec (some damaged) (fun _ => false) = some ⟨0⟩ ∧
      ¬ ProtoBufFile.DetectsDamage codec damaged := by
  have holds : ProtoBufFile.Holds damaged [255] := ⟨by decide, [], rfl⟩
  refine ⟨ProtoBufFile.load_of_holds codec holds, ?_⟩
  intro detects
  have parses := (ProtoBufFile.detectsDamage_iff codec damaged).mp detects [255] holds
  exact absurd parses (by decide)

end LogPBMeta
end QuorumKit
