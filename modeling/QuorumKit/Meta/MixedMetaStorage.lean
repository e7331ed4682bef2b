/-
`MixedMetaStorage` of `braft/raft_meta.cpp`.

Term and vote of a node are kept in a file of the node and in a database that the
nodes of a disk share.  A call writes one store after the other, and a read lets the
older store catch up.  Each write takes effect as a whole or not at all; the caller of
a function says what became of its writes.
-/

import QuorumKit.Errno
import QuorumKit.PeerId

namespace QuorumKit

abbrev VersionedGroupId := String

structure StablePBMeta where
  term : Int
  votedfor : List Char
deriving DecidableEq, Repr

structure StableMeta (I : Type) where
  term : Int
  votedfor : PeerId I
deriving DecidableEq, Repr

/-- Texts of addresses, and `butil::IP_ANY`. -/
structure EndPointText (I : Type) extends IpText I where
  ipAny : I

namespace PeerId

variable {I : Type} [DecidableEq I]

/-- `operator==`, which does not look at the role. -/
def same (id1 id2 : PeerId I) : Bool :=
  decide (id1.ip = id2.ip ∧ id1.port = id2.port ∧ id1.idx = id2.idx)

def anyPeer (texts : EndPointText I) : PeerId I :=
  { ip := texts.ipAny, port := 0, idx := 0, role := .replica }

theorem same_iff {id1 id2 : PeerId I} :
    id1.same id2 = true ↔ id1.ip = id2.ip ∧ id1.port = id2.port ∧ id1.idx = id2.idx :=
  decide_eq_true_iff

@[simp] theorem same_refl (peer : PeerId I) : peer.same peer = true :=
  same_iff.mpr ⟨rfl, rfl, rfl⟩

theorem same_symm {id1 id2 : PeerId I} (equal : id1.same id2 = true) : id2.same id1 = true := by
  obtain ⟨ip, port, idx⟩ := same_iff.mp equal
  exact same_iff.mpr ⟨ip.symm, port.symm, idx.symm⟩

theorem same_trans {id1 id2 id3 : PeerId I} (first : id1.same id2 = true)
    (second : id2.same id3 = true) : id1.same id3 = true := by
  obtain ⟨ip, port, idx⟩ := same_iff.mp first
  obtain ⟨ip', port', idx'⟩ := same_iff.mp second
  exact same_iff.mpr ⟨ip.trans ip', port.trans port', idx.trans idx'⟩

end PeerId

inductive WriteOutcome where
  | stored
  | failed (error : String)
  | crashed (effect : Bool)
deriving DecidableEq, Repr

/-- A `butil::Status` that is not OK, or the end of the process. -/
inductive Failure where
  | status (code : Int) (text : String)
  | crash
deriving DecidableEq, Repr

namespace WriteOutcome

def takesEffect : WriteOutcome → Bool
  | .stored => true
  | .failed _ => false
  | .crashed effect => effect

def result (outcome : WriteOutcome) (onFailure : String → Failure) : Except Failure Unit :=
  match outcome with
  | .stored => .ok ()
  | .failed error => .error (onFailure error)
  | .crashed _ => .error .crash

end WriteOutcome

/-- The stores, `file` and `db`, with the objects of a process that use them. -/
structure MixedMetaStorage (I : Type) where
  group : VersionedGroupId
  singlePath : String
  mergedPath : String
  file : Option StablePBMeta
  db : VersionedGroupId → Option StablePBMeta
  isBad : Bool := false
  isInited : Bool := false
  singleInited : Bool := false
  mergedInited : Bool := false
  term : Int := 1
  votedfor : PeerId I

namespace MixedMetaStorage

variable {I : Type} [DecidableEq I] (texts : EndPointText I)

/-- `load`: a vote that cannot be parsed leaves the peer reset. -/
def singleLoad (storage : MixedMetaStorage I) (readable : Bool) : MixedMetaStorage I × Bool :=
  if ¬ readable then (storage, false)
  else
    match storage.file with
    | none => (storage, true)
    | some message =>
        match PeerId.parse texts.toIpText message.votedfor with
        | some peer => ({ storage with term := message.term, votedfor := peer }, true)
        | none =>
            ({ storage with term := message.term, votedfor := PeerId.anyPeer texts }, false)

def singleInit (storage : MixedMetaStorage I) (createError : Option Int) (readable : Bool) :
    MixedMetaStorage I × Except Failure Unit :=
  if storage.singleInited then (storage, .ok ())
  else
    match createError with
    | some code =>
        (storage, .error (.status code
          ("Fail to create dir when init SingleMetaStorage, path: " ++ storage.singlePath)))
    | none =>
        match storage.singleLoad texts readable with
        | (loaded, false) =>
            (loaded, .error (.status EIO
              ("Fail to load pb meta when init stabel storage, path: " ++ storage.singlePath)))
        | (loaded, true) => ({ loaded with singleInited := true }, .ok ())

def singleNotInit (storage : MixedMetaStorage I) : Failure :=
  .status EINVAL ("SingleMetaStorage not init, path: " ++ storage.singlePath)

/-- `set_term_and_votedfor` with `save`: memory is set whatever becomes of the file. -/
def singleSet (storage : MixedMetaStorage I) (term : Int) (peerId : PeerId I)
    (outcome : WriteOutcome) : MixedMetaStorage I × Except Failure Unit :=
  if ¬ storage.singleInited then (storage, .error storage.singleNotInit)
  else
    let message : StablePBMeta := { term := term, votedfor := peerId.toString texts.toIpText }
    ({ storage with
        term := term
        votedfor := peerId
        file := if outcome.takesEffect then some message else storage.file },
      outcome.result (fun _ =>
        .status EIO ("SingleMetaStorage failed to save pb meta, path: " ++ storage.singlePath)))

def singleGet (storage : MixedMetaStorage I) : Except Failure (StableMeta I) :=
  if ¬ storage.singleInited then .error storage.singleNotInit
  else .ok { term := storage.term, votedfor := storage.votedfor }

def mergedInit (storage : MixedMetaStorage I) (createError : Option Int)
    (openError : Option String) (queueStarted : Bool) : MixedMetaStorage I × Except Failure Unit :=
  if storage.mergedInited then (storage, .ok ())
  else
    match createError, openError with
    | some code, _ =>
        (storage, .error (.status code
          ("Fail to create dir when init MergedMetaStorage, path: " ++ storage.mergedPath)))
    | none, some error =>
        (storage, .error (.status EIO
          ("Fail to open db, path: " ++ storage.mergedPath ++ ", error: " ++ error)))
    | none, none =>
        if ¬ queueStarted then
          (storage, .error (.status EINVAL
            ("Fail to start execution_queue, path: " ++ storage.mergedPath)))
        else ({ storage with mergedInited := true }, .ok ())

def mergedNotInit (storage : MixedMetaStorage I) : Failure :=
  .status EINVAL ("MergedMetaStorage of group " ++ storage.group ++ " not init, path: " ++
    storage.mergedPath)

/-- `set_term_and_votedfor` with the task that it queues, `none` for a task that the
queue does not take. -/
def mergedSet (storage : MixedMetaStorage I) (term : Int) (peerId : PeerId I)
    (task : Option WriteOutcome) : MixedMetaStorage I × Except Failure Unit :=
  if ¬ storage.mergedInited then (storage, .error storage.mergedNotInit)
  else
    match task with
    | none => (storage, .error (.status EIO "Failed to put task into queue"))
    | some outcome =>
        let message : StablePBMeta := { term := term, votedfor := peerId.toString texts.toIpText }
        ({ storage with
            db :=
              if outcome.takesEffect then Function.update storage.db storage.group (some message)
              else storage.db },
          outcome.result (fun error =>
            .status EIO ("MergedMetaStorage failed to write batch, path: " ++
              storage.mergedPath ++ ", error: " ++ error)))

def mergedGet (storage : MixedMetaStorage I) (readError : Option String)
    (initial : Option WriteOutcome) : MixedMetaStorage I × Except Failure (StableMeta I) :=
  if ¬ storage.mergedInited then (storage, .error storage.mergedNotInit)
  else
    match readError with
    | some error =>
        (storage, .error (.status EIO ("MergedMetaStorage of group " ++ storage.group ++
          " failed toget value from db, path: " ++ storage.mergedPath ++ ", error: " ++ error)))
    | none =>
        match storage.db storage.group with
        | none =>
            let (stored, result) := storage.mergedSet texts 1 (PeerId.anyPeer texts) initial
            (stored, result.map (fun _ => { term := 1, votedfor := PeerId.anyPeer texts }))
        | some message =>
            match PeerId.parse texts.toIpText message.votedfor with
            | none =>
                (storage, .error (.status EINVAL ("MergedMetaStorage of group " ++
                  storage.group ++ " failed to parse votedfor when loading meta from db, path: " ++
                  storage.mergedPath)))
            | some peer => (storage, .ok { term := message.term, votedfor := peer })

/-- What an `init` meets. -/
structure InitOutcome where
  singleCreateError : Option Int := none
  readable : Bool := true
  mergedCreateError : Option Int := none
  openError : Option String := none
  queueStarted : Bool := true
deriving DecidableEq, Repr

def init (storage : MixedMetaStorage I) (outcome : InitOutcome) :
    MixedMetaStorage I × Except Failure Unit :=
  if storage.isInited then (storage, .ok ())
  else if storage.isBad then
    (storage, .error (.status EINVAL ("MixedMetaStorage is bad, path " ++ storage.singlePath)))
  else
    match storage.singleInit texts outcome.singleCreateError outcome.readable with
    | (single, .error failure) => (single, .error failure)
    | (single, .ok _) =>
        match single.mergedInit outcome.mergedCreateError outcome.openError
          outcome.queueStarted with
        | (merged, .error failure) => (merged, .error failure)
        | (merged, .ok _) => ({ merged with isInited := true }, .ok ())

def notInit (storage : MixedMetaStorage I) : Failure :=
  .status EINVAL ("MixedMetaStorage of group " ++ storage.group ++ " not init, path: " ++
    storage.singlePath)

def setTermAndVotedfor (storage : MixedMetaStorage I) (term : Int) (peerId : PeerId I)
    (single : WriteOutcome) (merged : Option WriteOutcome) :
    MixedMetaStorage I × Except Failure Unit :=
  if ¬ storage.isInited then (storage, .error storage.notInit)
  else
    match storage.singleSet texts term peerId single with
    | (written, .error failure) => (written, .error failure)
    | (written, .ok _) => written.mergedSet texts term peerId merged

/-- What the reads and writes of a `get_term_and_votedfor` meet. -/
structure GetOutcome where
  readError : Option String := none
  initial : Option WriteOutcome := some .stored
  merged : Option WriteOutcome := some .stored
  single : WriteOutcome := .stored
deriving DecidableEq, Repr

def unexpectedConflict : Failure := .status EINVAL "Unexpected conflict"

def singleNewerThanMerged (single merged : StableMeta I) : Bool :=
  single.term > merged.term ||
    (single.term == merged.term && !single.votedfor.same (PeerId.anyPeer texts) &&
      merged.votedfor.same (PeerId.anyPeer texts))

def catchUp (storage : MixedMetaStorage I) (single merged : StableMeta I) (outcome : GetOutcome) :
    MixedMetaStorage I × Except Failure (StableMeta I) :=
  if singleNewerThanMerged texts single merged then
    let (written, result) := storage.mergedSet texts single.term single.votedfor outcome.merged
    (written, result.map (fun _ => single))
  else
    let (written, result) := storage.singleSet texts merged.term merged.votedfor outcome.single
    (written, result.map (fun _ => merged))

def getTermAndVotedfor (storage : MixedMetaStorage I) (outcome : GetOutcome) :
    MixedMetaStorage I × Except Failure (StableMeta I) :=
  if ¬ storage.isInited then (storage, .error storage.notInit)
  else
    match storage.singleGet with
    | .error failure => (storage, .error failure)
    | .ok single =>
        match storage.mergedGet texts outcome.readError outcome.initial with
        | (read, .error failure) => (read, .error failure)
        | (read, .ok merged) =>
            if single.term = merged.term ∧ single.votedfor.same merged.votedfor then
              (read, .ok single)
            else if single.term = merged.term ∧
                ¬ single.votedfor.same (PeerId.anyPeer texts) ∧
                ¬ merged.votedfor.same (PeerId.anyPeer texts) then
              (read, .error unexpectedConflict)
            else read.catchUp texts single merged outcome

/-- A new object over the same stores; the database object lives as long as its process. -/
def reopen (storage : MixedMetaStorage I) : MixedMetaStorage I :=
  { storage with
    isInited := false
    singleInited := false
    term := 1
    votedfor := PeerId.anyPeer texts }

def crash (storage : MixedMetaStorage I) : MixedMetaStorage I :=
  { storage.reopen texts with mergedInited := false }

end MixedMetaStorage

end QuorumKit
