/-
The order of the two stores of `MixedMetaStorage`.

The file is written first, so it is never behind the database.  Then a read finds no
conflict: it gives what the file holds, and the database takes it over if it is behind.
-/

import QuorumKit.Meta.MixedMetaStorage

namespace QuorumKit

variable {I : Type} {texts : EndPointText I}

namespace MixedMetaStorage

variable (texts) in
/-- The pair that a message stands for; a store without a message stands for term 1. -/
def heldBy (message : Option StablePBMeta) : Option (StableMeta I) :=
  match message with
  | none => some { term := 1, votedfor := PeerId.anyPeer texts }
  | some message =>
      (PeerId.parse texts.toIpText message.votedfor).map
        (fun peer => { term := message.term, votedfor := peer })

theorem heldBy_written (term : Int) (peerId : PeerId I) :
    heldBy texts (some { term := term, votedfor := peerId.toString texts.toIpText }) =
      some { term := term, votedfor := peerId } := by
  simp only [heldBy, PeerId.parse_toString, Option.map_some]

theorem status_ne_conflict {code : Int} {text : String}
    (other : code = EIO ∨ text.toList.head? ≠ some 'U') :
    Failure.status code text ≠ unexpectedConflict := by
  intro same
  injection same with sameCode sameText
  rcases other with io | start
  · rw [io] at sameCode
    exact absurd sameCode (by decide)
  · rw [sameText] at start
    exact absurd rfl start

theorem map_eq_ok {result : Except Failure Unit} {pair returned : StableMeta I}
    (same : result.map (fun _ => pair) = .ok returned) : result = .ok () ∧ returned = pair := by
  cases result with
  | error failure => contradiction
  | ok _ => exact ⟨rfl, (Except.ok.inj same).symm⟩

theorem map_ne_error {result : Except Failure Unit} {pair : StableMeta I} {failure : Failure}
    (other : result ≠ .error failure) : result.map (fun _ => pair) ≠ .error failure := by
  cases result with
  | error actual =>
      intro same
      exact other (congrArg _ (Except.error.inj same))
  | ok _ => nofun

variable (texts) in
theorem singleSet_spec (storage : MixedMetaStorage I) (term : Int) (peerId : PeerId I)
    (outcome : WriteOutcome) :
    ((storage.singleSet texts term peerId outcome).1.group = storage.group ∧
      (storage.singleSet texts term peerId outcome).1.db = storage.db) ∧
    ((storage.singleSet texts term peerId outcome).1.file = storage.file ∨
      heldBy texts (storage.singleSet texts term peerId outcome).1.file =
        some { term := term, votedfor := peerId }) ∧
    ((storage.singleSet texts term peerId outcome).2 = .ok () →
      heldBy texts (storage.singleSet texts term peerId outcome).1.file =
        some { term := term, votedfor := peerId }) := by
  unfold singleSet
  split
  · exact ⟨⟨rfl, rfl⟩, Or.inl rfl, nofun⟩
  · refine ⟨⟨rfl, rfl⟩, ?_⟩
    cases outcome with
    | stored => exact ⟨Or.inr (heldBy_written _ _), fun _ => heldBy_written _ _⟩
    | failed error => exact ⟨Or.inl rfl, nofun⟩
    | crashed effect =>
        cases effect with
        | false => exact ⟨Or.inl rfl, nofun⟩
        | true => exact ⟨Or.inr (heldBy_written _ _), nofun⟩

variable (texts) in
theorem mergedSet_spec (storage : MixedMetaStorage I) (term : Int) (peerId : PeerId I)
    (task : Option WriteOutcome) :
    ∃ db, (storage.mergedSet texts term peerId task).1 = { storage with db := db } ∧
      (db storage.group = storage.db storage.group ∨
        heldBy texts (db storage.group) = some { term := term, votedfor := peerId }) ∧
      ((storage.mergedSet texts term peerId task).2 = .ok () →
        heldBy texts (db storage.group) = some { term := term, votedfor := peerId }) ∧
      (∀ code text, (storage.mergedSet texts term peerId task).2 = .error (.status code text) →
        db = storage.db) ∧
      (storage.mergedSet texts term peerId task).2 ≠ .error unexpectedConflict := by
  have written : heldBy texts (Function.update storage.db storage.group
      (some { term := term, votedfor := peerId.toString texts.toIpText }) storage.group) =
        some { term := term, votedfor := peerId } := by
    rw [Function.update_self]
    exact heldBy_written _ _
  have io (text : String) : (Except.error (.status EIO text) : Except Failure Unit) ≠
      .error unexpectedConflict := by
    intro same
    exact status_ne_conflict (Or.inl rfl) (Except.error.inj same)
  unfold mergedSet
  split
  · refine ⟨storage.db, rfl, Or.inl rfl, nofun, fun _ _ _ => rfl, ?_⟩
    intro same
    refine status_ne_conflict (Or.inr ?_) (Except.error.inj same)
    simp [String.toList_append]
  · cases task with
    | none => exact ⟨storage.db, rfl, Or.inl rfl, nofun, fun _ _ _ => rfl, io _⟩
    | some outcome =>
        refine ⟨_, rfl, ?_⟩
        cases outcome with
        | stored => exact ⟨Or.inr written, fun _ => written, nofun, nofun⟩
        | failed error => exact ⟨Or.inl rfl, nofun, fun _ _ _ => rfl, io _⟩
        | crashed effect =>
            cases effect with
            | false => exact ⟨Or.inl rfl, nofun, nofun, nofun⟩
            | true => exact ⟨Or.inr written, nofun, nofun, nofun⟩

end MixedMetaStorage

variable [DecidableEq I]

variable (texts) in
/-- A newer pair keeps the vote of its term, unless there was none. -/
def Renews (older newer : StableMeta I) : Prop :=
  older.term < newer.term ∨
    older.term = newer.term ∧
      (older.votedfor.same (PeerId.anyPeer texts) = true ∨
        older.votedfor.same newer.votedfor = true)

variable {older middle newer : StableMeta I}

theorem Renews.refl (held : StableMeta I) : Renews texts held held :=
  Or.inr ⟨rfl, Or.inr (PeerId.same_refl _)⟩

theorem Renews.trans (first : Renews texts older middle) (second : Renews texts middle newer) :
    Renews texts older newer := by
  rcases first with below | ⟨term, vote⟩
  · rcases second with below' | ⟨term', _⟩
    · exact Or.inl (below.trans below')
    · exact Or.inl (term' ▸ below)
  · rcases second with below' | ⟨term', vote'⟩
    · exact Or.inl (term ▸ below')
    · refine Or.inr ⟨term.trans term', ?_⟩
      rcases vote with none | kept
      · exact Or.inl none
      · rcases vote' with none' | kept'
        · exact Or.inl (PeerId.same_trans kept none')
        · exact Or.inr (PeerId.same_trans kept kept')

namespace MixedMetaStorage

variable {storage : MixedMetaStorage I} {single merged : StableMeta I}

omit [DecidableEq I] in
theorem mergedGet_spec
    (held : heldBy texts (storage.db storage.group) = some merged) (readError : Option String)
    (initial : Option WriteOutcome) :
    ∃ db, (storage.mergedGet texts readError initial).1 = { storage with db := db } ∧
      heldBy texts (db storage.group) = some merged ∧
      (∀ pair, (storage.mergedGet texts readError initial).2 = .ok pair → pair = merged) ∧
      (storage.mergedGet texts readError initial).2 ≠ .error unexpectedConflict := by
  unfold mergedGet
  split
  · refine ⟨storage.db, rfl, held, nofun, ?_⟩
    intro same
    refine status_ne_conflict (Or.inr ?_) (Except.error.inj same)
    simp [String.toList_append]
  · cases readError with
    | some error =>
        refine ⟨storage.db, rfl, held, nofun, ?_⟩
        intro same
        exact status_ne_conflict (Or.inl rfl) (Except.error.inj same)
    | none =>
        cases isMessage : storage.db storage.group with
        | none =>
            rw [isMessage] at held
            obtain rfl : { term := 1, votedfor := PeerId.anyPeer texts } = merged :=
              Option.some.inj held
            obtain ⟨db, changed, written, _, _, noConflict⟩ :=
              mergedSet_spec texts storage 1 (PeerId.anyPeer texts) initial
            simp only
            refine ⟨db, changed, ?_, ?_, ?_⟩
            · rcases written with former | new
              · rw [former, isMessage]
                exact held
              · exact new
            · exact fun pair same => (map_eq_ok same).2
            · exact map_ne_error noConflict
        | some message =>
            rw [isMessage] at held
            obtain ⟨peer, parsed, rfl⟩ := Option.map_eq_some_iff.mp held
            simp only [parsed]
            refine ⟨storage.db, rfl, ?_, ?_, nofun⟩
            · rw [isMessage]
              exact held
            · intro pair same
              exact (Except.ok.inj same).symm

theorem behind_no_conflict (behind : Renews texts merged single)
    (differ : ¬ (single.term = merged.term ∧ single.votedfor.same merged.votedfor = true)) :
    ¬ (single.term = merged.term ∧ ¬ single.votedfor.same (PeerId.anyPeer texts) = true ∧
      ¬ merged.votedfor.same (PeerId.anyPeer texts) = true) := by
  rintro ⟨term, _, vote⟩
  rcases behind with below | ⟨_, none | kept⟩
  · exact absurd term below.ne'
  · exact vote none
  · exact differ ⟨term, PeerId.same_symm kept⟩

theorem behind_newer (behind : Renews texts merged single)
    (differ : ¬ (single.term = merged.term ∧ single.votedfor.same merged.votedfor = true)) :
    singleNewerThanMerged texts single merged = true := by
  unfold singleNewerThanMerged
  rcases behind with below | ⟨term, none | kept⟩
  · simp [below]
  · have voted : single.votedfor.same (PeerId.anyPeer texts) = false := by
      rw [Bool.eq_false_iff]
      intro noVote
      exact differ ⟨term.symm, PeerId.same_trans noVote (PeerId.same_symm none)⟩
    simp [term, none, voted]
  · exact absurd ⟨term.symm, PeerId.same_symm kept⟩ differ

theorem getTermAndVotedfor_spec
    (memory : storage.singleInited = true → { term := storage.term, votedfor := storage.votedfor } =
      single)
    (held : heldBy texts (storage.db storage.group) = some merged)
    (behind : Renews texts merged single) (outcome : GetOutcome) :
    ∃ db merged', (storage.getTermAndVotedfor texts outcome).1 = { storage with db := db } ∧
      heldBy texts (db storage.group) = some merged' ∧ (merged' = merged ∨ merged' = single) ∧
      (∀ pair, (storage.getTermAndVotedfor texts outcome).2 = .ok pair →
        pair = single ∧ merged'.term = single.term ∧
          merged'.votedfor.same single.votedfor = true) ∧
      (storage.getTermAndVotedfor texts outcome).2 ≠ .error unexpectedConflict := by
  have untouched (failure : Failure) (other : failure ≠ unexpectedConflict) :
      ∃ db merged', storage = { storage with db := db } ∧
        heldBy texts (db storage.group) = some merged' ∧ (merged' = merged ∨ merged' = single) ∧
        (∀ pair, (.error failure : Except Failure (StableMeta I)) = .ok pair →
          pair = single ∧ merged'.term = single.term ∧
            merged'.votedfor.same single.votedfor = true) ∧
        (.error failure : Except Failure (StableMeta I)) ≠ .error unexpectedConflict :=
    ⟨storage.db, merged, rfl, held, Or.inl rfl, nofun, fun same => other (Except.error.inj same)⟩
  unfold getTermAndVotedfor singleGet
  by_cases isInited : storage.isInited
  · by_cases singleInited : storage.singleInited
    · rw [if_neg (not_not.mpr isInited), if_neg (not_not.mpr singleInited), memory singleInited]
      simp only
      obtain ⟨db, changed, stillHeld, given, noConflict⟩ :=
        mergedGet_spec held outcome.readError outcome.initial
      split
      · rename_i read failure isRead
        rw [isRead] at changed noConflict
        exact ⟨db, merged, changed, stillHeld, Or.inl rfl, nofun, noConflict⟩
      · rename_i read pair isRead
        rw [isRead] at changed given
        obtain rfl := given pair rfl
        obtain rfl : read = { storage with db := db } := changed
        split
        · rename_i equal
          refine ⟨db, pair, rfl, stillHeld, Or.inl rfl, ?_, nofun⟩
          intro returned same
          exact ⟨(Except.ok.inj same).symm, equal.1.symm, PeerId.same_symm equal.2⟩
        · rename_i differ
          rw [if_neg (behind_no_conflict behind differ)]
          unfold catchUp
          rw [if_pos (behind_newer behind differ)]
          obtain ⟨db', rewritten, written, acknowledged, _, noConflict'⟩ :=
            mergedSet_spec texts { storage with db := db } single.term single.votedfor outcome.merged
          have caught : ∃ merged', heldBy texts (db' storage.group) = some merged' ∧
              (merged' = pair ∨ merged' = single) := by
            rcases written with former | new
            · exact ⟨pair, (congrArg _ former).trans stillHeld, Or.inl rfl⟩
            · exact ⟨single, new, Or.inr rfl⟩
          obtain ⟨merged', heldNow, isPair⟩ := caught
          refine ⟨db', merged', rewritten, heldNow, isPair, ?_, ?_⟩
          · intro returned same
            obtain ⟨stored, isSingle⟩ := map_eq_ok same
            obtain rfl : single = merged' :=
              Option.some.inj ((acknowledged stored).symm.trans heldNow)
            exact ⟨isSingle, rfl, PeerId.same_refl _⟩
          · exact map_ne_error noConflict'
    · rw [if_neg (not_not.mpr isInited), if_pos singleInited]
      refine untouched _ (status_ne_conflict (Or.inr ?_))
      simp [String.toList_append]
  · rw [if_pos isInited]
    refine untouched _ (status_ne_conflict (Or.inr ?_))
    simp [String.toList_append]

def memory (storage : MixedMetaStorage I) : StableMeta I :=
  { term := storage.term, votedfor := storage.votedfor }

variable (texts) in
structure Loaded (storage : MixedMetaStorage I) (single : StableMeta I) : Prop where
  read : storage.singleInited = true → storage.memory = single
  new : storage.singleInited = false →
    storage.memory = { term := 1, votedfor := PeerId.anyPeer texts }

def stored (storage : MixedMetaStorage I) :
    Option StablePBMeta × (VersionedGroupId → Option StablePBMeta) × VersionedGroupId :=
  (storage.file, storage.db, storage.group)

variable (texts) in
omit [DecidableEq I] in
theorem singleInit_stored (storage : MixedMetaStorage I) (createError : Option Int)
    (readable : Bool) :
    (storage.singleInit texts createError readable).1.stored = storage.stored := by
  have kept : (storage.singleLoad texts readable).1.stored = storage.stored := by
    unfold singleLoad
    split
    · rfl
    · split
      · rfl
      · split <;> rfl
  unfold singleInit
  split
  · rfl
  · split
    · rfl
    · split
      · rename_i isLoaded
        rw [isLoaded] at kept
        exact kept
      · rename_i isLoaded
        rw [isLoaded] at kept
        exact kept

omit [DecidableEq I] in
theorem Loaded.singleInit (loaded : Loaded texts storage single)
    (held : heldBy texts storage.file = some single) (createError : Option Int)
    (readable : Bool) : Loaded texts (storage.singleInit texts createError readable).1 single := by
  unfold MixedMetaStorage.singleInit
  split
  · exact loaded
  · rename_i notInited
    cases createError with
    | some code => exact loaded
    | none =>
        cases readable with
        | false => exact loaded
        | true =>
            have new := loaded.new (Bool.eq_false_iff.mpr notInited)
            cases isFile : storage.file with
            | none =>
                rw [isFile] at held
                simp only [singleLoad, isFile, not_true_eq_false, if_false]
                refine ⟨?_, nofun⟩
                intro _
                exact new.trans (Option.some.inj held)
            | some message =>
                rw [isFile] at held
                obtain ⟨peer, parsed, rfl⟩ := Option.map_eq_some_iff.mp held
                simp only [singleLoad, isFile, parsed, not_true_eq_false, if_false]
                exact ⟨fun _ => rfl, nofun⟩

omit [DecidableEq I] in
theorem mergedInit_spec (storage : MixedMetaStorage I) (createError : Option Int)
    (openError : Option String) (queueStarted : Bool) :
    ∃ inited, (storage.mergedInit createError openError queueStarted).1 =
      { storage with mergedInited := inited } := by
  unfold mergedInit
  split
  · exact ⟨_, rfl⟩
  · split
    · exact ⟨_, rfl⟩
    · exact ⟨_, rfl⟩
    · split
      · exact ⟨_, rfl⟩
      · exact ⟨_, rfl⟩

variable (texts) in
omit [DecidableEq I] in
theorem init_spec (storage : MixedMetaStorage I) (outcome : InitOutcome) :
    (storage.init texts outcome).1 = storage ∨
      ∃ isInited mergedInited, (storage.init texts outcome).1 =
        { (storage.singleInit texts outcome.singleCreateError outcome.readable).1 with
          isInited := isInited
          mergedInited := mergedInited } := by
  unfold init
  split
  · exact Or.inl rfl
  · split
    · exact Or.inl rfl
    · refine Or.inr ?_
      cases opened : storage.singleInit texts outcome.singleCreateError outcome.readable with
      | mk file result =>
          cases result with
          | error failure => exact ⟨_, _, rfl⟩
          | ok _ =>
              obtain ⟨inited, changed⟩ := mergedInit_spec file outcome.mergedCreateError
                outcome.openError outcome.queueStarted
              simp only
              split
              · rename_i isMerged
                rw [isMerged] at changed
                exact ⟨_, _, changed⟩
              · rename_i isMerged
                rw [isMerged] at changed
                obtain rfl := changed
                exact ⟨_, _, rfl⟩

variable (texts) in
structure Stores (storage : MixedMetaStorage I) (single merged : StableMeta I) : Prop where
  file : heldBy texts storage.file = some single
  db : heldBy texts (storage.db storage.group) = some merged
  behind : Renews texts merged single

theorem setTermAndVotedfor_spec {pair : StableMeta I}
    (stores : Stores texts storage single merged) (renews : Renews texts merged pair)
    (outcome : WriteOutcome) (task : Option WriteOutcome) :
    (storage.setTermAndVotedfor texts pair.term pair.votedfor outcome task).1.group =
        storage.group ∧
      ∃ single' merged',
        Stores texts
          (storage.setTermAndVotedfor texts pair.term pair.votedfor outcome task).1 single' merged' ∧
        (merged' = merged ∨ merged' = pair) ∧
        ((storage.setTermAndVotedfor texts pair.term pair.votedfor outcome task).2 = .ok () →
          merged' = pair) ∧
        (∀ code text,
          (storage.setTermAndVotedfor texts pair.term pair.votedfor outcome task).2 =
            .error (.status code text) → merged' = merged) := by
  unfold setTermAndVotedfor
  split
  · exact ⟨rfl, single, merged, stores, Or.inl rfl, nofun, fun _ _ _ => rfl⟩
  · have spec := singleSet_spec texts storage pair.term pair.votedfor outcome
    split
    · rename_i written failure isWritten
      rw [isWritten] at spec
      obtain ⟨⟨group, db⟩, file, _⟩ := spec
      have stillHeld : heldBy texts (written.db written.group) = some merged := by
        rw [db, group]
        exact stores.db
      rcases file with former | new
      · exact ⟨group, single, merged, ⟨(congrArg _ former).trans stores.file, stillHeld,
          stores.behind⟩, Or.inl rfl, nofun, fun _ _ _ => rfl⟩
      · exact ⟨group, pair, merged, ⟨new, stillHeld, renews⟩, Or.inl rfl, nofun,
          fun _ _ _ => rfl⟩
    · rename_i written _ isWritten
      rw [isWritten] at spec
      obtain ⟨⟨group, db⟩, _, new⟩ := spec
      have new := new rfl
      have stillHeld : heldBy texts (written.db written.group) = some merged := by
        rw [db, group]
        exact stores.db
      obtain ⟨db', changed, isDb, acknowledged, refused, _⟩ :=
        mergedSet_spec texts written pair.term pair.votedfor task
      rw [changed]
      rcases isDb with former | newer
      · refine ⟨group, pair, merged, ⟨new, (congrArg _ former).trans stillHeld, renews⟩,
          Or.inl rfl, ?_, fun _ _ _ => rfl⟩
        intro stored
        exact Option.some.inj (((congrArg _ former).trans stillHeld).symm.trans
          (acknowledged stored))
      · refine ⟨group, pair, pair, ⟨new, newer, .refl pair⟩, Or.inr rfl, fun _ => rfl, ?_⟩
        intro code text failed
        rw [refused code text failed] at newer
        exact Option.some.inj (newer.symm.trans stillHeld)

end MixedMetaStorage

end QuorumKit
