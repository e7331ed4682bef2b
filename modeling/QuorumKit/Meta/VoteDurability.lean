/-
Durability of votes over runs of `MixedMetaStorage`.

The database holds a pair that the user of the storage knows, so a call that renews what
is known keeps the file ahead of the database.  A user that has not read since an `init`
does not know a vote that took effect without being acknowledged.
-/

import QuorumKit.Library.TransitionSystem
import QuorumKit.Meta.StoreOrder

namespace QuorumKit

/-- A node that keeps its votes.  `acknowledged` is the pair of the last call of
`set_term_and_votedfor` that succeeded, `asked` the term of the last call, `known` what
was acknowledged or read since the storage was opened, and `fresh` says that no call has
been made since. -/
structure MetaRun (I : Type) where
  storage : MixedMetaStorage I
  acknowledged : StableMeta I
  asked : Int
  known : Option (StableMeta I)
  fresh : Bool

namespace MetaRun

open MixedMetaStorage

variable {I : Type} [DecidableEq I] (texts : EndPointText I)

inductive Action (I : Type) where
  | init (outcome : InitOutcome)
  | set (pair : StableMeta I) (single : WriteOutcome) (merged : Option WriteOutcome)
  | get (outcome : GetOutcome)
  | reopen
  | crash
  | otherGroup (group : VersionedGroupId) (message : Option StablePBMeta)

def closed (run : MetaRun I) (storage : MixedMetaStorage I) : MetaRun I :=
  { run with storage := storage, known := none, fresh := true }

def set (run : MetaRun I) (pair : StableMeta I) (single : WriteOutcome)
    (merged : Option WriteOutcome) : MetaRun I :=
  let run := { run with asked := pair.term }
  match run.storage.setTermAndVotedfor texts pair.term pair.votedfor single merged with
  | (storage, .ok _) =>
      { run with storage := storage, acknowledged := pair, known := some pair, fresh := false }
  | (storage, .error .crash) => run.closed (storage.crash texts)
  | (storage, .error (.status _ _)) => { run with storage := storage, fresh := false }

def get (run : MetaRun I) (outcome : GetOutcome) : MetaRun I :=
  match run.storage.getTermAndVotedfor texts outcome with
  | (storage, .ok pair) => { run with storage := storage, known := some pair }
  | (storage, .error .crash) => run.closed (storage.crash texts)
  | (storage, .error (.status _ _)) => { run with storage := storage }

def step (action : Action I) (run : MetaRun I) : Option (MetaRun I) :=
  match action with
  | .init outcome => some { run with storage := (run.storage.init texts outcome).1 }
  | .set pair single merged => some (run.set texts pair single merged)
  | .get outcome => some (run.get texts outcome)
  | .reopen => some (run.closed (run.storage.reopen texts))
  | .crash => some (run.closed (run.storage.crash texts))
  | .otherGroup group message =>
      some
        { run with
          storage :=
            { run.storage with db := Function.update run.storage.db group message } }

/-- Terms do not decrease, and an acknowledged vote is not replaced within its term. -/
def Allowed (action : Action I) (run : MetaRun I) : Prop :=
  match action with
  | .set pair _ _ =>
      run.asked ≤ pair.term ∧
        (run.acknowledged.term = pair.term →
          run.acknowledged.votedfor.same (PeerId.anyPeer texts) = true ∨
            run.acknowledged.votedfor.same pair.votedfor = true)
  | .get _ => run.fresh = true
  | .otherGroup group _ => group ≠ run.storage.group
  | _ => True

/-- A call renews what has been acknowledged or read since the storage was opened. -/
def Informed (action : Action I) (run : MetaRun I) : Prop :=
  match action with
  | .set pair _ _ => ∃ known, run.known = some known ∧ Renews texts known pair
  | .get _ => run.fresh = true
  | .otherGroup group _ => group ≠ run.storage.group
  | _ => True

structure Initial (run : MetaRun I) : Prop where
  started : run.storage = run.storage.crash texts
  file : heldBy texts run.storage.file = some run.acknowledged
  db : heldBy texts (run.storage.db run.storage.group) = some run.acknowledged
  asked : run.asked = run.acknowledged.term
  known : run.known = none
  fresh : run.fresh = true

def system : TransitionSystem (MetaRun I) (Action I) where
  init := Initial texts
  allowed := Allowed texts
  step := step texts

def informedSystem : TransitionSystem (MetaRun I) (Action I) :=
  { system texts with allowed := Informed texts }

variable {texts}

structure Ordered (texts : EndPointText I) (run : MetaRun I) (single merged : StableMeta I) :
    Prop where
  stores : Stores texts run.storage single merged
  acknowledged : Renews texts run.acknowledged merged
  known : ∀ known, run.known = some known → Renews texts merged known
  read : run.fresh = true → ∀ known, run.known = some known → known = single
  loaded : run.fresh = true → Loaded texts run.storage single

variable {run run' : MetaRun I} {single merged : StableMeta I}

omit [DecidableEq I] in
theorem loaded_new {storage : MixedMetaStorage I} (closed : storage.singleInited = false)
    (new : storage.memory = { term := 1, votedfor := PeerId.anyPeer texts }) :
    Loaded texts storage single := by
  refine ⟨?_, fun _ => new⟩
  intro inited
  rw [closed] at inited
  contradiction

theorem Ordered.closed (ordered : Ordered texts run single merged)
    {storage : MixedMetaStorage I} (stores : Stores texts storage single merged)
    (closed : storage.singleInited = false)
    (new : storage.memory = { term := 1, votedfor := PeerId.anyPeer texts }) :
    Ordered texts (run.closed storage) single merged :=
  ⟨stores, ordered.acknowledged, nofun, nofun, fun _ => loaded_new closed new⟩

theorem Ordered.init (ordered : Ordered texts run single merged) (outcome : InitOutcome) :
    Ordered texts { run with storage := (run.storage.init texts outcome).1 } single merged := by
  rcases init_spec texts run.storage outcome with same | ⟨isInited, mergedInited, changed⟩
  · rw [same]
    exact ordered
  · rw [changed]
    have kept := singleInit_stored texts run.storage outcome.singleCreateError outcome.readable
    simp only [stored, Prod.mk.injEq] at kept
    obtain ⟨file, db, group⟩ := kept
    refine ⟨⟨?_, ?_, ordered.stores.behind⟩, ordered.acknowledged, ordered.known, ordered.read, ?_⟩
    · rw [file]
      exact ordered.stores.file
    · rw [db, group]
      exact ordered.stores.db
    · intro fresh
      have opened := (ordered.loaded fresh).singleInit ordered.stores.file
        outcome.singleCreateError outcome.readable
      exact ⟨opened.read, opened.new⟩

theorem Ordered.set {pair : StableMeta I} (ordered : Ordered texts run single merged)
    (informed : ∃ known, run.known = some known ∧ Renews texts known pair)
    (outcome : WriteOutcome) (task : Option WriteOutcome) :
    ∃ single' merged', Ordered texts (run.set texts pair outcome task) single' merged' := by
  obtain ⟨known, isKnown, renews⟩ := informed
  have renews := (ordered.known known isKnown).trans renews
  obtain ⟨_, single', merged', stores, isMerged, stored, failed⟩ :=
    setTermAndVotedfor_spec ordered.stores renews outcome task
  have acknowledged : Renews texts run.acknowledged merged' := by
    rcases isMerged with rfl | rfl
    · exact ordered.acknowledged
    · exact ordered.acknowledged.trans renews
  refine ⟨single', merged', ?_⟩
  unfold MetaRun.set
  simp only
  split
  · rename_i storage _ isResult
    rw [isResult] at stores stored
    obtain rfl := stored rfl
    refine ⟨stores, .refl _, ?_, nofun, nofun⟩
    intro other same
    obtain rfl := Option.some.inj same
    exact .refl _
  · rename_i storage isResult
    rw [isResult] at stores
    exact ⟨⟨stores.file, stores.db, stores.behind⟩, acknowledged, nofun,
      nofun, fun _ => loaded_new rfl rfl⟩
  · rename_i storage code text isResult
    rw [isResult] at stores failed
    obtain rfl := failed code text rfl
    exact ⟨stores, ordered.acknowledged, ordered.known, nofun, nofun⟩

theorem Ordered.get (ordered : Ordered texts run single merged) (fresh : run.fresh = true)
    (outcome : GetOutcome) : ∃ merged', Ordered texts (run.get texts outcome) single merged' := by
  have loaded := ordered.loaded fresh
  obtain ⟨db, merged', changed, held, isMerged, given, _⟩ :=
    getTermAndVotedfor_spec loaded.read ordered.stores.db ordered.stores.behind outcome
  have behind : Renews texts merged' single := by
    rcases isMerged with rfl | rfl
    · exact ordered.stores.behind
    · exact .refl _
  have acknowledged : Renews texts run.acknowledged merged' := by
    rcases isMerged with rfl | rfl
    · exact ordered.acknowledged
    · exact ordered.acknowledged.trans ordered.stores.behind
  have stores : Stores texts { run.storage with db := db } single merged' :=
    ⟨ordered.stores.file, held, behind⟩
  refine ⟨merged', ?_⟩
  unfold MetaRun.get
  split
  · rename_i storage pair isResult
    rw [isResult] at changed given
    obtain rfl : storage = { run.storage with db := db } := changed
    obtain ⟨rfl, _⟩ := given pair rfl
    refine ⟨stores, acknowledged, ?_, ?_, fun _ => ⟨loaded.read, loaded.new⟩⟩
    · intro other same
      obtain rfl := Option.some.inj same
      exact behind
    · intro _ other same
      exact (Option.some.inj same).symm
  · rename_i storage isResult
    rw [isResult] at changed
    obtain rfl : storage = { run.storage with db := db } := changed
    exact ⟨⟨stores.file, stores.db, stores.behind⟩, acknowledged, nofun,
      nofun, fun _ => loaded_new rfl rfl⟩
  · rename_i storage code text isResult
    rw [isResult] at changed
    obtain rfl : storage = { run.storage with db := db } := changed
    refine ⟨stores, acknowledged, ?_, ordered.read, fun _ => ⟨loaded.read, loaded.new⟩⟩
    intro known isKnown
    rw [ordered.read fresh known isKnown]
    exact behind

theorem Ordered.step {action : Action I} (ordered : Ordered texts run single merged)
    (informed : Informed texts action run) (stepped : MetaRun.step texts action run = some run') :
    ∃ single' merged', Ordered texts run' single' merged' := by
  cases action with
  | init outcome =>
      obtain rfl := Option.some.inj stepped
      exact ⟨single, merged, ordered.init outcome⟩
  | set pair outcome task =>
      obtain rfl := Option.some.inj stepped
      exact ordered.set informed outcome task
  | get outcome =>
      obtain rfl := Option.some.inj stepped
      exact ⟨single, ordered.get informed outcome⟩
  | reopen =>
      obtain rfl := Option.some.inj stepped
      have stores : Stores texts (run.storage.reopen texts) single merged :=
        ⟨ordered.stores.file, ordered.stores.db, ordered.stores.behind⟩
      exact ⟨single, merged, ordered.closed stores rfl rfl⟩
  | crash =>
      obtain rfl := Option.some.inj stepped
      have stores : Stores texts (run.storage.crash texts) single merged :=
        ⟨ordered.stores.file, ordered.stores.db, ordered.stores.behind⟩
      exact ⟨single, merged, ordered.closed stores rfl rfl⟩
  | otherGroup group message =>
      obtain rfl := Option.some.inj stepped
      refine ⟨single, merged, ⟨ordered.stores.file, ?_, ordered.stores.behind⟩,
        ordered.acknowledged, ordered.known, ordered.read, ?_⟩
      · simp only [Function.update_of_ne (Ne.symm informed)]
        exact ordered.stores.db
      · intro fresh
        exact ⟨(ordered.loaded fresh).read, (ordered.loaded fresh).new⟩

theorem ordered_of_reachable (reached : (informedSystem texts).Reachable run) :
    ∃ single merged, Ordered texts run single merged := by
  induction reached with
  | start initial =>
      refine ⟨_, _, ⟨initial.file, initial.db, .refl _⟩, .refl _, ?_, ?_, ?_⟩
      · rw [initial.known]
        exact nofun
      · rw [initial.known]
        exact nofun
      · intro _
        rw [initial.started]
        exact loaded_new rfl rfl
  | next _ allowed stepped ih =>
      obtain ⟨single, merged, ordered⟩ := ih
      exact ordered.step allowed stepped

variable (texts) in
/-- A store holds a pair: it reads as its term and a vote for its peer. -/
def Holds (message : Option StablePBMeta) (pair : StableMeta I) : Prop :=
  ∃ held, heldBy texts message = some held ∧ held.term = pair.term ∧
    held.votedfor.same pair.votedfor = true

/-- A read after an `init` gives a pair that renews the acknowledged one, and leaves it
in both stores. -/
theorem vote_durable (reached : (informedSystem texts).Reachable run) (fresh : run.fresh = true)
    (outcome : GetOutcome) :
    (run.storage.getTermAndVotedfor texts outcome).2 ≠ .error unexpectedConflict ∧
      ∀ pair, (run.storage.getTermAndVotedfor texts outcome).2 = .ok pair →
        Renews texts run.acknowledged pair ∧
          Holds texts (run.storage.getTermAndVotedfor texts outcome).1.file pair ∧
          Holds texts ((run.storage.getTermAndVotedfor texts outcome).1.db run.storage.group)
            pair := by
  obtain ⟨single, merged, ordered⟩ := ordered_of_reachable reached
  obtain ⟨db, merged', changed, held, _, given, noConflict⟩ :=
    getTermAndVotedfor_spec (ordered.loaded fresh).read ordered.stores.db ordered.stores.behind
      outcome
  refine ⟨noConflict, ?_⟩
  intro pair isPair
  obtain ⟨rfl, term, vote⟩ := given pair isPair
  rw [changed]
  refine ⟨ordered.acknowledged.trans ordered.stores.behind, ?_, ?_⟩
  · exact ⟨pair, ordered.stores.file, rfl, PeerId.same_refl _⟩
  · exact ⟨merged', held, term, vote⟩

def hostText : EndPointText Bool where
  ip2str ip := if ip then "127.0.0.1".toList else "0.0.0.0".toList
  str2ip text :=
    if text = "127.0.0.1".toList then some true
    else if text = "0.0.0.0".toList then some false
    else none
  str2ip_ip2str := by decide
  nonempty := by decide
  noColon := by decide
  short := by decide
  ipAny := false

def localPeer (port : Int32) : PeerId Bool :=
  { ip := true, port := port, idx := 0, role := .replica }

def firstStart : MetaRun Bool :=
  { storage :=
      { group := "group_0"
        singlePath := "single"
        mergedPath := "merged"
        file := none
        db := fun _ => none
        votedfor := PeerId.anyPeer hostText }
    acknowledged := { term := 1, votedfor := PeerId.anyPeer hostText }
    asked := 1
    known := none
    fresh := true }

theorem firstStart_initial : Initial hostText firstStart := ⟨rfl, rfl, rfl, rfl, rfl, rfl⟩

/-- A vote is stored in the file only, and read after a crash. -/
theorem vote_durable_catchesUp :
    ∃ run : MetaRun Bool, run.fresh = true ∧
      (run.storage.getTermAndVotedfor hostText {}).2 =
        .ok { term := 2, votedfor := localPeer 8001 } ∧
      Renews hostText run.acknowledged { term := 2, votedfor := localPeer 8001 } := by
  have follows : ∃ run, (informedSystem hostText).Follows
      [.init {}, .get {}, .set { term := 2, votedfor := localPeer 8001 } .stored
        (some (.crashed false)), .init {}] firstStart run ∧ run.fresh = true ∧
      (run.storage.getTermAndVotedfor hostText {}).2 =
        .ok { term := 2, votedfor := localPeer 8001 } :=
    ⟨_, ⟨trivial, _, rfl, rfl, _, rfl, ⟨_, rfl, Or.inl (by decide)⟩, _, rfl, trivial, _, rfl, rfl⟩,
      rfl, rfl⟩
  obtain ⟨run, follows, fresh, read⟩ := follows
  have reached := TransitionSystem.Reachable.follows _ (.start firstStart_initial) follows
  exact ⟨run, fresh, read, ((vote_durable reached fresh {}).2 _ read).1⟩

/-- A vote takes effect in both stores without being acknowledged; another vote of the
term reaches the file only. -/
theorem stores_conflict :
    ∃ run : MetaRun Bool, (system hostText).Reachable run ∧ run.fresh = true ∧
      (run.storage.getTermAndVotedfor hostText {}).2 = .error unexpectedConflict := by
  have follows : ∃ run, (system hostText).Follows
      [.init {}, .set { term := 2, votedfor := localPeer 8001 } .stored (some (.crashed true)),
        .init {}, .set { term := 2, votedfor := localPeer 8002 } .stored (some (.crashed false)),
        .init {}] firstStart run ∧ run.fresh = true ∧
      (run.storage.getTermAndVotedfor hostText {}).2 = .error unexpectedConflict :=
    ⟨_, ⟨trivial, _, rfl, ⟨by decide, nofun⟩, _, rfl, trivial, _, rfl, ⟨by decide, nofun⟩, _, rfl,
      trivial, _, rfl, rfl⟩, rfl, rfl⟩
  obtain ⟨run, follows, fresh, read⟩ := follows
  exact ⟨run, .follows _ (.start firstStart_initial) follows, fresh, read⟩

end MetaRun

end QuorumKit
