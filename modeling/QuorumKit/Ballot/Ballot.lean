/-
Ballots, `Ballot` of `braft/ballot.cpp`.

A ballot keeps the peers of a configuration, and of the old one in a change, and
counts down the grants that are still missing.  A grant may carry a hint where the
peer was found in another ballot.  A ballot is granted by exactly the sets of
peers that are a quorum, whatever the hints are.
-/

import QuorumKit.Configuration
import QuorumKit.Library.Quorum

namespace QuorumKit

structure UnfoundPeerId (P : Type) where
  peerId : P
  found : Bool := false
deriving DecidableEq

structure PosHint where
  pos0 : Int := -1
  pos1 : Int := -1
deriving DecidableEq

structure Ballot (P : Type) where
  peers : List (UnfoundPeerId P) := []
  quorum : Int := 0
  oldPeers : List (UnfoundPeerId P) := []
  oldQuorum : Int := 0
deriving DecidableEq

namespace Ballot

variable {P : Type} [DecidableEq P]

def init (conf : Configuration P) (oldConf : Option (Configuration P)) : Ballot P :=
  let ballot : Ballot P :=
    { peers := conf.peers.map (fun peer => { peerId := peer })
      quorum := (conf.size / 2 + 1 : Nat) }
  match oldConf with
  | none => ballot
  | some oldConf =>
      { ballot with
        oldPeers := oldConf.peers.map (fun peer => { peerId := peer })
        oldQuorum := (oldConf.size / 2 + 1 : Nat) }

/-- `find_peer`: the position of the peer, which is tried at the hint first. -/
def findPeer (peer : P) (peers : List (UnfoundPeerId P)) (posHint : Int) : Option Nat :=
  if posHint < 0 ∨ (peers.length : Int) ≤ posHint ∨
      peers[posHint.toNat]?.map UnfoundPeerId.peerId ≠ some peer then
    peers.findIdx? (fun other => other.peerId = peer)
  else some posHint.toNat

/-- What `grant` does for each of the two lists of peers: the peers, the grants
still missing and the new hint. -/
def grantPeer (peer : P) (peers : List (UnfoundPeerId P)) (quorum pos : Int) :
    List (UnfoundPeerId P) × Int × Int :=
  match findPeer peer peers pos with
  | some position =>
      (peers.modify position (fun other => { other with found := true }),
        if (peers[position]?.map UnfoundPeerId.found).getD true then quorum else quorum - 1,
        position)
  | none => (peers, quorum, -1)

def grant (ballot : Ballot P) (peer : P) (hint : PosHint) : PosHint × Ballot P :=
  match grantPeer peer ballot.peers ballot.quorum hint.pos0 with
  | (peers, quorum, pos0) =>
      let ballot : Ballot P := { ballot with peers := peers, quorum := quorum }
      if ballot.oldPeers.isEmpty then ({ pos0 := pos0, pos1 := -1 }, ballot)
      else
        match grantPeer peer ballot.oldPeers ballot.oldQuorum hint.pos1 with
        | (oldPeers, oldQuorum, pos1) =>
            ({ pos0 := pos0, pos1 := pos1 },
              { ballot with oldPeers := oldPeers, oldQuorum := oldQuorum })

def granted (ballot : Ballot P) : Bool := ballot.quorum ≤ 0 ∧ ballot.oldQuorum ≤ 0

structure Tallied (members : List P) (voters : Finset P) (peers : List (UnfoundPeerId P))
    (quorum : Int) : Prop where
  found : peers = members.map (fun peer => { peerId := peer, found := decide (peer ∈ voters) })
  missing : quorum = (members.length / 2 + 1 : Nat) - ((members.toFinset ∩ voters).card : Int)

theorem tallied_init (members : List P) :
    Tallied members ∅ (members.map (fun peer => { peerId := peer }))
      (members.length / 2 + 1 : Nat) := by
  constructor
  · simp
  · simp

variable {members : List P} {voters : Finset P} {peers : List (UnfoundPeerId P)} {quorum : Int}

theorem Tallied.nonpos_iff (tallied : Tallied members voters peers quorum)
    (nodup : members.Nodup) : quorum ≤ 0 ↔ Majority members.toFinset voters := by
  rw [Majority, List.toFinset_card_of_nodup nodup, tallied.missing]
  omega

theorem findPeer_some {peer : P} {pos : Int} {position : Nat}
    (found : findPeer peer peers pos = some position) :
    peers[position]?.map UnfoundPeerId.peerId = some peer := by
  unfold findPeer at found
  split_ifs at found with searched
  · obtain ⟨inside, isPeer, _⟩ := List.findIdx?_eq_some_iff_getElem.mp found
    rw [List.getElem?_eq_getElem inside]
    simpa using isPeer
  · obtain rfl := Option.some.inj found
    by_contra other
    exact searched (Or.inr (Or.inr other))

theorem findPeer_none {peer : P} {pos : Int} (missing : findPeer peer peers pos = none) :
    ∀ other ∈ peers, other.peerId ≠ peer := by
  unfold findPeer at missing
  split_ifs at missing
  simpa using List.findIdx?_eq_none_iff.mp missing

theorem Tallied.grantPeer (tallied : Tallied members voters peers quorum) (nodup : members.Nodup)
    (peer : P) (pos : Int) :
    Tallied members (insert peer voters) (grantPeer peer peers quorum pos).1
      (grantPeer peer peers quorum pos).2.1 := by
  unfold Ballot.grantPeer
  cases isFound : findPeer peer peers pos with
  | none =>
      have absent : ∀ other ∈ members, other ≠ peer := by
        have missing := findPeer_none isFound
        rw [tallied.found] at missing
        simpa using missing
      constructor
      · rw [tallied.found]
        refine List.map_congr_left (fun other member => ?_)
        simp [absent other member]
      · have outside : peer ∉ members.toFinset := by
          rw [List.mem_toFinset]
          exact fun member => absent peer member rfl
        rw [Finset.inter_insert_of_notMem outside]
        exact tallied.missing
  | some position =>
      have isPeer : members[position]? = some peer := by
        have isPeer := findPeer_some isFound
        rw [tallied.found, List.getElem?_map, Option.map_map] at isPeer
        obtain ⟨other, atPosition, same⟩ := Option.map_eq_some_iff.mp isPeer
        rw [atPosition, ← same]
        rfl
      obtain ⟨inside, atPosition⟩ := List.getElem?_eq_some_iff.mp isPeer
      constructor
      · rw [tallied.found]
        apply List.ext_getElem?
        intro index
        simp only [List.getElem?_modify, List.getElem?_map]
        cases atIndex : members[index]? with
        | none => rfl
        | some other =>
            by_cases here : position = index
            · subst here
              obtain rfl := Option.some.inj (isPeer.symm.trans atIndex)
              simp
            · have differs : other ≠ peer := by
                rintro rfl
                obtain ⟨indexInside, atIndex⟩ := List.getElem?_eq_some_iff.mp atIndex
                exact here (nodup.getElem_inj_iff.mp (atPosition.trans atIndex.symm))
              simp [here, differs]
      · have member : peer ∈ members.toFinset := by
          rw [List.mem_toFinset, ← atPosition]
          exact List.getElem_mem inside
        have isVoter : (peers[position]?.map UnfoundPeerId.found).getD true =
            decide (peer ∈ voters) := by
          rw [tallied.found, List.getElem?_map, isPeer]
          rfl
        simp only [isVoter, decide_eq_true_eq]
        rw [tallied.missing]
        by_cases voted : peer ∈ voters
        · rw [if_pos voted, Finset.insert_eq_of_mem voted]
        · have fresh : peer ∉ members.toFinset ∩ voters :=
            fun both => voted (Finset.mem_inter.mp both).2
          rw [if_neg voted, Finset.inter_insert_of_mem member, Finset.card_insert_of_notMem fresh]
          push_cast
          omega

/-- The ballot of a configuration that has got the votes of `voters`. -/
structure Counts (conf : Configuration P) (oldConf : Option (Configuration P))
    (voters : Finset P) (ballot : Ballot P) : Prop where
  conf : Tallied conf.peers voters ballot.peers ballot.quorum
  oldConf : match oldConf with
    | none => ballot.oldPeers = [] ∧ ballot.oldQuorum = 0
    | some oldConf => Tallied oldConf.peers voters ballot.oldPeers ballot.oldQuorum

theorem counts_init (conf : Configuration P) (oldConf : Option (Configuration P)) :
    Counts conf oldConf ∅ (init conf oldConf) := by
  cases oldConf with
  | none => exact ⟨tallied_init conf.peers, rfl, rfl⟩
  | some oldConf => exact ⟨tallied_init conf.peers, tallied_init oldConf.peers⟩

variable {conf : Configuration P} {oldConf : Option (Configuration P)} {ballot : Ballot P}

theorem Counts.grant (counts : Counts conf oldConf voters ballot) (peer : P) (hint : PosHint) :
    Counts conf oldConf (insert peer voters) (ballot.grant peer hint).2 := by
  have granted := counts.conf.grantPeer conf.nodup peer hint.pos0
  have former := counts.oldConf
  cases oldConf with
  | none =>
      obtain ⟨noPeers, noQuorum⟩ := former
      unfold Ballot.grant
      simp only [noPeers, List.isEmpty_nil, if_true]
      exact ⟨granted, rfl, noQuorum⟩
  | some oldConf =>
      have grantedOld := former.grantPeer oldConf.nodup peer hint.pos1
      unfold Ballot.grant
      simp only
      split_ifs with noPeers
      · -- an old configuration without peers has nobody to grant
        have none : oldConf.peers = [] := by
          have found := former.found
          rw [List.isEmpty_iff.mp noPeers] at found
          exact List.map_eq_nil_iff.mp found.symm
        refine ⟨granted, ?_, ?_⟩
        · rw [List.isEmpty_iff.mp noPeers, none]
          rfl
        · have missing := former.missing
          rw [none] at missing ⊢
          simpa using missing
      · exact ⟨granted, grantedOld⟩

theorem Counts.granted_iff (counts : Counts conf oldConf voters ballot) :
    ballot.granted = true ↔
      Quorum conf.peers.toFinset (oldConf.map (fun old => old.peers.toFinset)) voters := by
  have former := counts.oldConf
  unfold granted Quorum
  rw [decide_eq_true_eq, counts.conf.nonpos_iff conf.nodup]
  cases oldConf with
  | none => simp [former.2]
  | some oldConf =>
      rw [former.nonpos_iff oldConf.nodup]
      simp

def grantAll (ballot : Ballot P) (grants : List (P × PosHint)) : Ballot P :=
  grants.foldl (fun ballot grant => (ballot.grant grant.1 grant.2).2) ballot

def grantedBy (grants : List (P × PosHint)) : Finset P := (grants.map Prod.fst).toFinset

theorem Counts.grantAll (grants : List (P × PosHint)) : ∀ {voters : Finset P} {ballot : Ballot P},
    Counts conf oldConf voters ballot →
      Counts conf oldConf (voters ∪ grantedBy grants) (ballot.grantAll grants) := by
  induction grants with
  | nil =>
      intro voters ballot counts
      rw [grantedBy, List.map_nil, List.toFinset_nil, Finset.union_empty]
      exact counts
  | cons grant rest ih =>
      intro voters ballot counts
      have later := ih (counts.grant grant.1 grant.2)
      have same : voters ∪ grantedBy (grant :: rest) =
          insert grant.1 voters ∪ grantedBy rest := by
        rw [grantedBy, List.map_cons, List.toFinset_cons, Finset.union_insert,
          Finset.insert_union, grantedBy]
      rw [same]
      exact later

theorem Counts.unique {other : Ballot P} (counts : Counts conf oldConf voters ballot)
    (others : Counts conf oldConf voters other) : ballot = other := by
  have peers := counts.conf.found.trans others.conf.found.symm
  have quorum := counts.conf.missing.trans others.conf.missing.symm
  have old : ballot.oldPeers = other.oldPeers ∧ ballot.oldQuorum = other.oldQuorum := by
    have former := counts.oldConf
    have latter := others.oldConf
    cases oldConf with
    | none => exact ⟨former.1.trans latter.1.symm, former.2.trans latter.2.symm⟩
    | some oldConf =>
        exact ⟨former.found.trans latter.found.symm, former.missing.trans latter.missing.symm⟩
  cases ballot with
  | mk ballotPeers ballotQuorum ballotOldPeers ballotOldQuorum =>
      cases other with
      | mk otherPeers otherQuorum otherOldPeers otherOldQuorum =>
          rw [Ballot.mk.injEq]
          exact ⟨peers, quorum, old.1, old.2⟩

theorem Tallied.findPeer_scan (tallied : Tallied members voters peers quorum)
    (nodup : members.Nodup) (peer : P) (pos : Int) :
    findPeer peer peers pos = peers.findIdx? (fun other => other.peerId = peer) := by
  unfold findPeer
  split_ifs with searched
  · rfl
  · push Not at searched
    obtain ⟨_, _, isPeer⟩ := searched
    obtain ⟨atHint, found, isHint⟩ := Option.map_eq_some_iff.mp isPeer
    obtain ⟨inside, isFound⟩ := List.getElem?_eq_some_iff.mp found
    have distinct : (peers.map UnfoundPeerId.peerId).Nodup := by
      rw [tallied.found, List.map_map]
      have same : (UnfoundPeerId.peerId ∘ fun peer : P =>
          ({ peerId := peer, found := decide (peer ∈ voters) } : UnfoundPeerId P)) = id := rfl
      rw [same, List.map_id]
      exact nodup
    refine (List.findIdx?_eq_some_iff_getElem.mpr ⟨inside, ?_, ?_⟩).symm
    · rw [isFound]
      exact decide_eq_true isHint
    · intro earlier before
      have earlierInside : earlier < peers.length := before.trans inside
      have differs : (peers.get ⟨earlier, earlierInside⟩).peerId ≠ peer := by
        intro same
        have left : (peers.map UnfoundPeerId.peerId)[earlier]? = some peer := by
          rw [List.getElem?_map, List.getElem?_eq_getElem earlierInside]
          exact congrArg some same
        have right : (peers.map UnfoundPeerId.peerId)[pos.toNat]? = some peer := by
          rw [List.getElem?_map]
          exact isPeer
        have atOne := (List.nodup_iff_getElem?_ne_getElem?.mp distinct) earlier pos.toNat before
          (by rw [List.length_map]; exact inside)
        exact atOne (left.trans right.symm)
      simpa using differs

theorem Counts.grant_scan (counts : Counts conf oldConf voters ballot) (peer : P)
    (hint : PosHint) : ballot.grant peer hint = ballot.grant peer {} := by
  have granted (pos other : Int) : Ballot.grantPeer peer ballot.peers ballot.quorum pos =
      Ballot.grantPeer peer ballot.peers ballot.quorum other := by
    unfold Ballot.grantPeer
    rw [counts.conf.findPeer_scan conf.nodup peer pos,
      counts.conf.findPeer_scan conf.nodup peer other]
  have former := counts.oldConf
  unfold Ballot.grant
  rw [granted hint.pos0 (-1)]
  cases oldConf with
  | none =>
      simp only [former.1, List.isEmpty_nil, if_true]
  | some oldConf =>
      have grantedOld (pos other : Int) :
          Ballot.grantPeer peer ballot.oldPeers ballot.oldQuorum pos =
            Ballot.grantPeer peer ballot.oldPeers ballot.oldQuorum other := by
        unfold Ballot.grantPeer
        rw [former.findPeer_scan oldConf.nodup peer pos,
          former.findPeer_scan oldConf.nodup peer other]
      simp only
      rw [grantedOld hint.pos1 (-1)]

structure GrantsAsSet (conf : Configuration P) (oldConf : Option (Configuration P))
    (grants : List (P × PosHint)) : Prop where
  hint : ∀ peer hint, ((init conf oldConf).grantAll grants).grant peer hint =
    ((init conf oldConf).grantAll grants).grant peer {}
  plain : (init conf oldConf).grantAll grants =
    (init conf oldConf).grantAll (grants.map (fun grant => (grant.1, {})))
  set : ∀ others, grantedBy others = grantedBy grants →
    (init conf oldConf).grantAll others = (init conf oldConf).grantAll grants
  granted : ((init conf oldConf).grantAll grants).granted = true ↔
    Quorum conf.peers.toFinset (oldConf.map (fun old => old.peers.toFinset)) (grantedBy grants)

theorem grants_as_set (conf : Configuration P) (oldConf : Option (Configuration P))
    (grants : List (P × PosHint)) : GrantsAsSet conf oldConf grants := by
  have counted (others : List (P × PosHint)) :
      Counts conf oldConf (grantedBy others) ((init conf oldConf).grantAll others) := by
    have counts := (counts_init conf oldConf).grantAll others
    rwa [Finset.empty_union] at counts
  have set (others : List (P × PosHint)) (same : grantedBy others = grantedBy grants) :
      (init conf oldConf).grantAll others = (init conf oldConf).grantAll grants := by
    have counts := counted others
    rw [same] at counts
    exact counts.unique (counted grants)
  constructor
  · exact fun peer hint => (counted grants).grant_scan peer hint
  · refine (set _ ?_).symm
    unfold grantedBy
    rw [List.map_map]
    rfl
  · exact set
  · exact (counted grants).granted_iff

end Ballot

end QuorumKit
