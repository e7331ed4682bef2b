/-
`become_leader` is for a live candidacy.

A candidate's ballot belongs to its term, and a context that is reset gives its
timers up.  `elect_self` may take the mutex again when the node has stepped down in the
same term.  It then grants its own vote, which makes a leader of a follower if that
vote alone is enough.
-/

import QuorumKit.Node.Election

namespace QuorumKit

/-! ### A vote that is counted again -/

namespace Ballot

variable {P : Type} [DecidableEq P]

theorem findPeer_modify (peer : P) (peers : List (UnfoundPeerId P)) (position : Nat) :
    findPeer peer (peers.modify position (fun other => { other with found := true })) (-1) =
      findPeer peer peers (-1) := by
  have same : (peers.modify position (fun other => { other with found := true })).map
      UnfoundPeerId.peerId = peers.map UnfoundPeerId.peerId := by
    apply List.ext_getElem?
    intro index
    simp only [List.getElem?_map, List.getElem?_modify]
    cases peers[index]? with
    | none => rfl
    | some other =>
        by_cases here : position = index
        · simp [here]
        · simp [here]
  have searched (members : List (UnfoundPeerId P)) : findPeer peer members (-1) =
      (members.map UnfoundPeerId.peerId).findIdx? (fun other => other = peer) := by
    unfold findPeer
    rw [if_pos (Or.inl (by decide)), List.findIdx?_map]
    rfl
  rw [searched, searched, same]

theorem grantPeer_again (peer : P) (peers : List (UnfoundPeerId P)) (quorum other : Int) :
    (grantPeer peer (grantPeer peer peers quorum (-1)).1 other (-1)).2.1 = other := by
  cases found : findPeer peer peers (-1) with
  | none => simp [grantPeer, found]
  | some position =>
      have inside : position < peers.length := by
        have isPeer := findPeer_some found
        by_contra outside
        rw [List.getElem?_eq_none (by omega)] at isPeer
        contradiction
      simp [grantPeer, found, findPeer_modify, inside]

theorem grant_again (ballot : Ballot P) (peer : P) :
    ((ballot.grant peer {}).2.grant peer {}).2.granted = (ballot.grant peer {}).2.granted := by
  have emptied : (grantPeer peer ballot.oldPeers ballot.oldQuorum (-1)).1.isEmpty =
      ballot.oldPeers.isEmpty := by
    unfold grantPeer
    split
    · cases ballot.oldPeers with
      | nil => simp
      | cons other rest => simp [List.isEmpty_eq_false_iff]
    · rfl
  unfold grant granted
  simp only
  by_cases none : ballot.oldPeers.isEmpty
  · simp only [none, if_true, grantPeer_again]
  · simp only [none, emptied, if_false, grantPeer_again, Bool.false_eq_true]

end Ballot

namespace ElectionNode

variable {P : Type} [DecidableEq P]

/-- When `elect_self` takes the mutex in its own term, the node is still a candidate, or
its own vote is not enough. -/
def RelocksAsCandidate (action : Action P) (node : ElectionNode P) : Prop :=
  match action with
  | .resume position _ _ stored _ =>
      match node.waiting[position]? with
      | some (.electSelf oldTerm) =>
          oldTerm = node.currentTerm → node.state = .candidate ∨ stored = false ∨
            ¬ node.OwnVoteWins node.voteCtx.ballot
      | _ => True
  | _ => True

/-- `become_leader` finds a candidate, and a ballot that was granted in its term. -/
structure Live (candidacy : Candidacy P) : Prop where
  state : candidacy.state = .candidate
  granted : candidacy.ctx.granted = true
  term : candidacy.ctx.startTerm = candidacy.term
  votes : ∀ vote ∈ candidacy.ctx.votes, vote.2 = candidacy.term

/-! ### Invariant -/

structure Collects (term : Nat) (ctx : VoteBallotCtx P) : Prop where
  started : ctx.startTerm = term
  votes : ∀ vote ∈ ctx.votes, vote.2 = term

/-- A timer of the vote context has been armed, and may still be noticed. -/
def Armed (node : ElectionNode P) : Prop :=
  node.voteCtx.grantSelfArg ≠ none ∨ (.vote, node.voteCtx.version) ∈ node.timedOut

structure Candid (node : ElectionNode P) : Prop where
  live : ∀ candidacy ∈ node.candidacies, Live candidacy
  collects : node.state = .candidate → Collects node.currentTerm node.voteCtx
  armed : ∀ version, node.voteCtx.grantSelfArg = some version → version = node.voteCtx.version
  stale : ∀ version, (.vote, version) ∈ node.timedOut → version ≤ node.voteCtx.version
  lone : node.state.isActive = true → node.state ≠ .candidate → Armed node →
    ¬ node.OwnVoteWins node.voteCtx.ballot

def standing (node : ElectionNode P) :
    P × State × Nat × VoteBallotCtx P × List (VoteKind × Nat) × List (Candidacy P) :=
  (node.serverId, node.state, node.currentTerm, node.voteCtx, node.timedOut, node.candidacies)

variable {node node' : ElectionNode P}

theorem Candid.of_standing (candid : Candid node) (same : node'.standing = node.standing) :
    Candid node' := by
  simp only [standing, Prod.mk.injEq] at same
  obtain ⟨serverId, state, term, ctx, timedOut, candidacies⟩ := same
  constructor
  · rw [candidacies]
    exact candid.live
  · rw [state, term, ctx]
    exact candid.collects
  · rw [ctx]
    exact candid.armed
  · rw [timedOut, ctx]
    exact candid.stale
  · unfold Armed OwnVoteWins
    rw [state, ctx, timedOut, serverId]
    exact candid.lone

theorem Candid.restate (candid : Candid node) (state : State) (term : Nat)
    (other : state ≠ .candidate)
    (kept : state.isActive = true → node.state.isActive = true ∧ node.state ≠ .candidate)
    (same : node'.standing =
      (node.serverId, state, term, node.voteCtx, node.timedOut, node.candidacies)) :
    Candid node' := by
  simp only [standing, Prod.mk.injEq] at same
  obtain ⟨serverId, isState, _, ctx, timedOut, candidacies⟩ := same
  constructor
  · rw [candidacies]
    exact candid.live
  · rw [isState]
    exact fun isCandidate => absurd isCandidate other
  · rw [ctx]
    exact candid.armed
  · rw [timedOut, ctx]
    exact candid.stale
  · unfold Armed OwnVoteWins
    rw [isState, ctx, timedOut, serverId]
    exact fun active _ armed => candid.lone (kept active).1 (kept active).2 armed

theorem Candid.renewed (candid : Candid node) (ctx : VoteBallotCtx P) (state : State) (term : Nat)
    (newer : ctx.version = node.voteCtx.version + 1) (unarmed : ctx.grantSelfArg = none)
    (collects : state = .candidate → Collects term ctx)
    (same : node'.standing =
      (node.serverId, state, term, ctx, node.timedOut, node.candidacies)) : Candid node' := by
  simp only [standing, Prod.mk.injEq] at same
  obtain ⟨_, isState, isTerm, isCtx, timedOut, candidacies⟩ := same
  have older (version : Nat) (member : (.vote, version) ∈ node.timedOut) : version < ctx.version := by
    have bound := candid.stale version member
    omega
  constructor
  · rw [candidacies]
    exact candid.live
  · rw [isState, isTerm, isCtx]
    exact collects
  · rw [isCtx, unarmed]
    exact nofun
  · rw [timedOut, isCtx]
    exact fun version member => (older version member).le
  · unfold Armed
    rw [isCtx, timedOut, unarmed]
    rintro _ _ (armed | member)
    · exact absurd rfl armed
    · exact absurd (older _ member) (lt_irrefl _)

theorem Candid.stepDown (candid : Candid node) (term : Nat) (stored : Bool) :
    Candid (node.stepDown term stored) := by
  cases isActive : node.state.isActive with
  | false =>
      rw [stepDown_inactive isActive]
      exact candid
  | true =>
      obtain ⟨_, same⟩ := stepDown_active isActive term stored
      rw [same]
      by_cases isCandidate : node.state = .candidate
      · refine candid.renewed node.voteCtx.reset .follower (max node.currentTerm term) rfl rfl
          (fun _ => by contradiction) ?_
        unfold standing voteCtxAfter
        rw [if_pos isCandidate]
      · refine candid.restate .follower (max node.currentTerm term) (by decide)
          (fun _ => ⟨isActive, isCandidate⟩) ?_
        unfold standing voteCtxAfter
        rw [if_neg isCandidate]

theorem Candid.electSelf (candid : Candid node) (oldLeaderSteppedDown : Bool) :
    Candid (node.electSelf oldLeaderSteppedDown) := by
  unfold ElectionNode.electSelf
  split
  · exact candid
  · simp only
    refine candid.renewed _ .candidate _ ?_ ?_ ?_ rfl
    · split <;> rfl
    · split <;> rfl
    · intro _
      constructor
      · split <;> rfl
      · intro vote member
        split at member <;> exact absurd member List.not_mem_nil

theorem Candid.becomeLeader (candid : Candid node) (isCandidate : node.state = .candidate)
    (granted : node.voteCtx.granted = true) : Candid node.becomeLeader := by
  have collects := candid.collects isCandidate
  have entered : Candid
      { node with
        candidacies := { state := node.state, term := node.currentTerm, ctx := node.voteCtx } ::
          node.candidacies } := by
    refine { candid with live := ?_ }
    intro candidacy member
    rcases List.mem_cons.mp member with same | former
    · rw [same]
      exact ⟨isCandidate, granted, collects.started, collects.votes⟩
    · exact candid.live candidacy former
  exact entered.renewed node.voteCtx.reset .leader _ rfl rfl (fun _ => by contradiction) rfl

/-! ### Votes -/

structure Extends (term : Nat) (ctx ctx' : VoteBallotCtx P) : Prop where
  version : ctx'.version = ctx.version
  startTerm : ctx'.startTerm = ctx.startTerm
  armed : ctx'.grantSelfArg = none ∨ ctx'.grantSelfArg = ctx.grantSelfArg
  votes : ∀ vote ∈ ctx'.votes, vote ∈ ctx.votes ∨ vote.2 = term

omit [DecidableEq P] in
theorem Extends.trans {term : Nat} {ctx ctx' ctx'' : VoteBallotCtx P} (first : Extends term ctx ctx')
    (second : Extends term ctx' ctx'') : Extends term ctx ctx'' := by
  refine ⟨second.version.trans first.version, second.startTerm.trans first.startTerm, ?_, ?_⟩
  · rcases second.armed with none | same
    · exact Or.inl none
    · rw [same]
      exact first.armed
  · intro vote member
    rcases second.votes vote member with former | new
    · exact first.votes vote former
    · exact Or.inr new

omit [DecidableEq P] in
theorem Extends.of_same {term : Nat} {ctx ctx' : VoteBallotCtx P}
    (same : (ctx'.version, ctx'.startTerm, ctx'.grantSelfArg, ctx'.votes) =
      (ctx.version, ctx.startTerm, ctx.grantSelfArg, ctx.votes)) : Extends term ctx ctx' := by
  simp only [Prod.mk.injEq] at same
  obtain ⟨version, startTerm, armed, votes⟩ := same
  refine ⟨version, startTerm, Or.inr armed, ?_⟩
  rw [votes]
  exact fun vote member => Or.inl member

theorem Extends.grant (term : Nat) (ctx : VoteBallotCtx P) (peer : P) :
    Extends term ctx (ctx.grant peer term) := by
  refine ⟨rfl, rfl, Or.inr rfl, ?_⟩
  intro vote member
  rcases List.mem_cons.mp member with same | former
  · rw [same]
    exact Or.inr rfl
  · exact Or.inl former

omit [DecidableEq P] in
theorem Extends.stopGrantSelfTimer (term : Nat) (ctx : VoteBallotCtx P) :
    Extends term ctx ctx.stopGrantSelfTimer :=
  ⟨rfl, rfl, Or.inl rfl, fun _ member => Or.inl member⟩

theorem Candid.extend (candid : Candid node) (isCandidate : node.state = .candidate)
    {ctx : VoteBallotCtx P} (extended : Extends node.currentTerm node.voteCtx ctx)
    (same : node'.standing = (node.serverId, node.state, node.currentTerm, ctx, node.timedOut,
      node.candidacies)) : Candid node' := by
  simp only [standing, Prod.mk.injEq] at same
  obtain ⟨_, state, term, isCtx, timedOut, candidacies⟩ := same
  have collects := candid.collects isCandidate
  constructor
  · rw [candidacies]
    exact candid.live
  · rw [term, isCtx]
    intro _
    refine ⟨extended.startTerm.trans collects.started, ?_⟩
    intro vote member
    rcases extended.votes vote member with former | new
    · exact collects.votes vote former
    · exact new
  · rw [isCtx, extended.version]
    intro version armed
    rcases extended.armed with none | kept
    · rw [none] at armed
      contradiction
    · rw [kept] at armed
      exact candid.armed version armed
  · rw [timedOut, isCtx, extended.version]
    exact candid.stale
  · rw [state]
    exact fun _ other => absurd isCandidate other

theorem Candid.grantSelf (candid : Candid node) (kind : VoteKind) (waits : Bool)
    (safe : kind = .vote → node.state = .candidate ∨ ¬ node.OwnVoteWins node.voteCtx.ballot) :
    Candid (node.grantSelf kind waits) := by
  unfold ElectionNode.grantSelf
  cases kind with
  | preVote =>
      split
      · exact candid.of_standing rfl
      · simp only
        split
        · exact candid.of_standing rfl
        · refine Candid.electSelf (candid.of_standing ?_) false
          rfl
  | vote =>
      have safe := safe rfl
      split
      · refine { candid with collects := ?_, armed := ?_, lone := ?_ }
        · intro isCandidate
          exact ⟨(candid.collects isCandidate).started, (candid.collects isCandidate).votes⟩
        · intro version armed
          exact (Option.some.inj armed).symm
        · intro _ other _
          rcases safe with isCandidate | loses
          · exact absurd isCandidate other
          · exact loses
      · simp only
        have again : (node.setCtx .vote ((node.ctx .vote).grant node.serverId
            node.currentTerm)).standing = (node.serverId, node.state, node.currentTerm,
              node.voteCtx.grant node.serverId node.currentTerm, node.timedOut,
              node.candidacies) := rfl
        split
        · rcases safe with isCandidate | loses
          · exact candid.extend isCandidate (.grant _ _ _) again
          · refine { candid with collects := ?_, lone := ?_ }
            · intro isCandidate
              exact (candid.extend isCandidate (.grant _ _ _) again).collects isCandidate
            · intro _ _ _ wins
              exact loses ((Ballot.grant_again node.voteCtx.ballot node.serverId).symm.trans wins)
        · rename_i wins
          rcases safe with isCandidate | loses
          · exact (candid.extend isCandidate (.grant _ _ _) again).becomeLeader isCandidate
              (not_not.mp wins)
          · exact absurd (not_not.mp wins) loses

/-! ### Calls -/

theorem Candid.resumePreVote (candid : Candid node) (oldTerm : Nat) (triggered waits : Bool)
    (lastLogId : LogId) : Candid (node.resumePreVote oldTerm triggered lastLogId waits) := by
  unfold ElectionNode.resumePreVote
  split
  · exact candid
  · refine Candid.grantSelf (candid.of_standing ?_) .preVote waits nofun
    rfl

theorem Candid.setLastLogId (candid : Candid node) (lastLogId : LogId) :
    Candid { node with voteCtx := node.voteCtx.setLastLogId lastLogId } := by
  constructor
  · exact candid.live
  · intro isCandidate
    exact ⟨(candid.collects isCandidate).started, (candid.collects isCandidate).votes⟩
  · exact candid.armed
  · exact candid.stale
  · exact candid.lone

theorem Candid.resumeElectSelf (candid : Candid node) {oldTerm : Nat} {lastLogId : LogId}
    {stored waits : Bool}
    (condition : oldTerm = node.currentTerm → node.state = .candidate ∨ stored = false ∨
      ¬ node.OwnVoteWins node.voteCtx.ballot) :
    Candid (node.resumeElectSelf oldTerm lastLogId stored waits) := by
  unfold ElectionNode.resumeElectSelf
  split
  · exact candid
  · rename_i same
    have noted := candid.setLastLogId lastLogId
    simp only
    split
    · rename_i isStored
      refine Candid.grantSelf (noted.of_standing ?_) .vote waits ?_
      · rfl
      · intro _
        rcases condition (not_not.mp same) with isCandidate | failed | loses
        · exact Or.inl isCandidate
        · exact absurd (failed.symm.trans isStored) (by decide)
        · exact Or.inr loses
    · exact noted.of_standing rfl

theorem Candid.voteFor (candid : Candid node) (request : RequestVoteRequest P)
    (stepStored stored : Bool) : Candid (node.voteFor request stepStored stored) := by
  unfold ElectionNode.voteFor
  split
  · refine (candid.stepDown request.term stepStored).of_standing ?_
    unfold setTermAndVotedfor
    split <;> rfl
  · exact candid

theorem Candid.resumeRequestVote (candid : Candid node) (request : RequestVoteRequest P)
    (previousTerm : Nat) (lastLogId : LogId) (stepStored stored waits : Bool) :
    Candid (node.resumeRequestVote request previousTerm lastLogId stepStored stored waits) := by
  have replied {node : ElectionNode P} (candid : Candid node) (rejected disrupted : Bool) :
      Candid (node.reply request previousTerm rejected disrupted) := candid.of_standing rfl
  unfold ElectionNode.resumeRequestVote
  split
  · exact replied candid _ _
  · simp only
    split
    · exact replied candid _ _
    · refine replied ?_ _ _
      have raised : Candid (if node.currentTerm < request.term then
          node.stepDown request.term stepStored else node) := by
        split
        · exact candid.stepDown _ _
        · exact candid
      split
      · exact raised.voteFor request stepStored stored
      · exact raised

theorem Candid.preVote (candid : Candid node) (triggered installing : Bool) :
    Candid (node.preVote triggered installing) := by
  unfold ElectionNode.preVote
  split
  · exact candid
  · split
    · exact candid
    · exact candid.of_standing rfl

theorem Candid.handleElectionTimeout (candid : Candid node) (expired installing : Bool) :
    Candid (node.handleElectionTimeout expired installing) := by
  unfold ElectionNode.handleElectionTimeout
  split
  · exact candid
  · split
    · exact candid
    · refine Candid.preVote (candid.of_standing ?_) _ _
      rfl

theorem Candid.handleVoteTimeout (candid : Candid node) (stepsDown installing stored : Bool) :
    Candid (node.handleVoteTimeout stepsDown installing stored) := by
  unfold ElectionNode.handleVoteTimeout
  split
  · exact candid
  · split
    · exact (candid.stepDown _ _).preVote _ _
    · exact candid.electSelf _

omit [DecidableEq P] in
theorem Extends.noteDisrupted (term : Nat) (ctx : VoteBallotCtx P) (rpc : VoteRpc P)
    (response : RequestVoteResponse) : Extends term ctx (noteDisrupted ctx rpc response) := by
  unfold ElectionNode.noteDisrupted
  split <;> exact .of_same rfl

omit [DecidableEq P] in
theorem Extends.popGrantablePeers (term : Nat) (ctx : VoteBallotCtx P) :
    Extends term ctx ctx.popGrantablePeers.2 := by
  unfold VoteBallotCtx.popGrantablePeers
  split <;> exact .of_same rfl

theorem Extends.countVote (node : ElectionNode P) (rpc : VoteRpc P)
    (current : rpc.term = node.currentTerm) :
    Extends node.currentTerm node.voteCtx (node.countVote rpc).voteCtx := by
  unfold ElectionNode.countVote
  simp only
  rw [current]
  split
  · exact ((Extends.grant _ _ _).trans (.grant _ _ _)).trans (.stopGrantSelfTimer _ _)
  · exact .grant _ _ _

theorem Candid.countVote (candid : Candid node) (isCandidate : node.state = .candidate)
    (rpc : VoteRpc P) (current : rpc.term = node.currentTerm) : Candid (node.countVote rpc) :=
  candid.extend isCandidate (.countVote node rpc current) rfl

theorem Candid.retry (candid : Candid node) (isCandidate : node.state = .candidate) :
    Candid node.retryVoteOnReservedPeers :=
  candid.extend isCandidate (.popGrantablePeers _ _) rfl

theorem Candid.reserve (candid : Candid node) (isCandidate : node.state = .candidate) (peer : P) :
    Candid { node with voteCtx := node.voteCtx.reserve peer } := by
  have kept : Extends node.currentTerm node.voteCtx (node.voteCtx.reserve peer) := .of_same rfl
  exact candid.extend isCandidate kept rfl

theorem Candid.handleRequestVoteResponse (candid : Candid node) (rpc : VoteRpc P)
    (response : RequestVoteResponse) (stored : Bool) :
    Candid (node.handleRequestVoteResponse rpc response stored) := by
  unfold ElectionNode.handleRequestVoteResponse
  split
  · exact candid
  · split
    · exact candid
    · rename_i isCandidate
      have isCandidate := not_not.mp isCandidate
      split
      · exact candid
      · rename_i current
        have current := not_not.mp current
        split
        · exact candid.stepDown _ _
        · split
          · exact candid
          · simp only
            have noted : Candid { node with voteCtx := noteDisrupted node.voteCtx rpc response } :=
              candid.extend isCandidate (.noteDisrupted _ _ _ _) rfl
            split
            · have counted := noted.countVote isCandidate rpc current
              split
              · rename_i granted
                exact counted.becomeLeader isCandidate granted
              · exact counted.retry isCandidate
            · exact (noted.reserve isCandidate rpc.peerId).retry isCandidate

theorem Candid.handlePreVoteResponse (candid : Candid node) (rpc : VoteRpc P)
    (response : RequestVoteResponse) (stored : Bool) :
    Candid (node.handlePreVoteResponse rpc response stored) := by
  unfold ElectionNode.handlePreVoteResponse
  split
  · exact candid
  · split
    · exact candid
    · split
      · exact candid
      · split
        · exact candid.stepDown _ _
        · split
          · exact candid
          · split
            · exact candid
            · simp only
              obtain ⟨ctx, counted⟩ := grantPreVotes_eq
                (popPreVotes (noteDisrupted node.preVoteCtx rpc response) rpc response).1
                { node with
                  preVoteCtx :=
                    (popPreVotes (noteDisrupted node.preVoteCtx rpc response) rpc response).2 }
              rw [counted]
              have same : Candid { node with preVoteCtx := ctx } := candid.of_standing rfl
              split
              · exact same.electSelf false
              · exact same

theorem Candid.grantSelfTimeout (candid : Candid node) {kind : VoteKind}
    (stepped : node.grantSelfTimeout kind = some node') : Candid node' := by
  obtain ⟨version, isArmed, rfl⟩ := Option.map_eq_some_iff.mp stepped
  cases kind with
  | preVote =>
      have noticed (other : Nat) (member : (.vote, other) ∈ node.timedOut ++ [(.preVote, version)]) :
          (.vote, other) ∈ node.timedOut := by
        rcases List.mem_append.mp member with former | new
        · exact former
        · simp at new
      constructor
      · exact candid.live
      · exact candid.collects
      · exact candid.armed
      · exact fun other member => candid.stale other (noticed other member)
      · intro active other armed
        exact candid.lone active other (armed.imp_right (noticed _))
  | vote =>
      have current : version = node.voteCtx.version := candid.armed version isArmed
      have wasArmed : Armed node := by
        refine Or.inl ?_
        intro none
        rw [show node.voteCtx.grantSelfArg = some version from isArmed] at none
        contradiction
      constructor
      · exact candid.live
      · intro isCandidate
        exact ⟨(candid.collects isCandidate).started, (candid.collects isCandidate).votes⟩
      · exact nofun
      · intro other member
        rcases List.mem_append.mp member with former | new
        · exact candid.stale other former
        · have same : other = version := by simpa using new
          exact (same.trans current).le
      · exact fun active other _ => candid.lone active other wasArmed

theorem Candid.handleGrantSelfTimedout (candid : Candid node) {position : Nat} {waits : Bool}
    (stepped : node.handleGrantSelfTimedout position waits = some node') : Candid node' := by
  obtain ⟨⟨kind, version⟩, isArg, rfl⟩ := Option.map_eq_some_iff.mp stepped
  have taken : Candid { node with timedOut := node.timedOut.eraseIdx position } := by
    constructor
    · exact candid.live
    · exact candid.collects
    · exact candid.armed
    · exact fun other member => candid.stale other (List.mem_of_mem_eraseIdx member)
    · intro active other armed
      exact candid.lone active other (armed.imp_right List.mem_of_mem_eraseIdx)
  simp only
  split
  · exact taken
  · rename_i live
    rw [not_or, not_not, not_not] at live
    refine taken.grantSelf kind waits ?_
    rintro rfl
    by_cases isCandidate : node.state = .candidate
    · exact Or.inl isCandidate
    · refine Or.inr (candid.lone live.1 isCandidate (Or.inr ?_))
      have same : node.voteCtx.version = version := live.2
      rw [same]
      exact List.mem_of_getElem? isArg

theorem Candid.checkStepDown (candid : Candid node) (requestTerm : Nat) (serverId : P)
    (stored : Bool) : Candid (node.checkStepDown requestTerm serverId stored) := by
  unfold ElectionNode.checkStepDown
  have settled {checked : ElectionNode P} (candid : Candid checked) :
      Candid (if checked.leaderId = none then checked.setLeaderId serverId else checked) := by
    split
    · exact candid.of_standing rfl
    · exact candid
  refine settled ?_
  split
  · exact candid.stepDown _ _
  · exact candid

theorem Candid.handleLeaderRequest (candid : Candid node) (term : Nat) (serverId : P)
    (renews stored : Bool) : Candid (node.handleLeaderRequest term serverId renews stored) := by
  unfold ElectionNode.handleLeaderRequest
  have checked := candid.checkStepDown term serverId stored
  split
  · exact candid
  · split
    · exact candid
    · simp only
      split
      · exact checked.stepDown _ _
      · split
        · exact checked.of_standing rfl
        · exact checked

theorem Candid.stepDownIf (candid : Candid node) (condition : Bool) (term : Nat) (stored : Bool) :
    Candid (if condition then node.stepDown term stored else node) := by
  cases condition with
  | false => exact candid
  | true => exact candid.stepDown term stored

theorem Candid.handleStepdownTimeout (candid : Candid node) (witness dead oldDead stored : Bool) :
    Candid (node.handleStepdownTimeout witness dead oldDead stored) := by
  unfold ElectionNode.handleStepdownTimeout
  split
  · exact candid
  · exact ((candid.stepDownIf witness _ _).stepDownIf dead _ _).stepDownIf oldDead _ _

theorem Candid.resetPeers (candid : Candid node) (newPeers : Configuration P) (busy stored : Bool) :
    Candid (node.resetPeers newPeers busy stored) := by
  have changed (conf : ConfigurationEntry P) (term : Nat) :
      Candid ({ node with conf := conf }.stepDown term stored) := by
    have same : Candid { node with conf := conf } := candid.of_standing rfl
    exact same.stepDown term stored
  unfold ElectionNode.resetPeers
  split_ifs
  · exact candid
  · exact changed _ _
  · exact candid
  · exact candid
  · exact changed _ _
  · exact candid

theorem Candid.onError (candid : Candid node) (stored : Bool) : Candid (node.onError stored) := by
  unfold ElectionNode.onError
  split
  · exact (candid.stepDown _ _).restate .error _ (by decide) (fun active => by contradiction) rfl
  · exact candid

theorem Candid.shutdown (candid : Candid node) (stored : Bool) : Candid (node.shutdown stored) := by
  unfold ElectionNode.shutdown
  split
  · exact candid
  · exact (candid.stepDownIf node.state.isActive _ _).restate .shutting _ (by decide)
      (fun active => by contradiction) rfl

theorem Candid.step {action : Action P} (candid : Candid node)
    (condition : RelocksAsCandidate action node)
    (stepped : ElectionNode.step action node = some node') : Candid node' := by
  have total {last : ElectionNode P} (after : Candid last) (same : some last = some node') :
      Candid node' := Option.some.inj same ▸ after
  cases action with
  | start =>
      simp only [ElectionNode.step, ElectionNode.start] at stepped
      split at stepped
      · obtain rfl := Option.some.inj stepped
        have started : Candid { node with starting := false } := candid.of_standing rfl
        split
        · exact started.electSelf false
        · exact started
      · contradiction
  | resume position lastLogId stepStored stored waits =>
      obtain ⟨call, isCall, rfl⟩ := Option.map_eq_some_iff.mp stepped
      simp only [RelocksAsCandidate, isCall] at condition
      have relocked : Candid { node with waiting := node.waiting.eraseIdx position } :=
        candid.of_standing rfl
      cases call with
      | preVote oldTerm triggered => exact relocked.resumePreVote _ _ _ _
      | electSelf oldTerm => exact relocked.resumeElectSelf condition
      | requestVote request previousTerm => exact relocked.resumeRequestVote _ _ _ _ _ _
  | electionTimeout expired installing => exact total (candid.handleElectionTimeout _ _) stepped
  | voteTimeout stepsDown installing stored =>
      exact total (candid.handleVoteTimeout _ _ _) stepped
  | requestVoteResponse rpc response stored =>
      exact total (candid.handleRequestVoteResponse _ _ _) stepped
  | preVoteResponse rpc response stored =>
      exact total (candid.handlePreVoteResponse _ _ _) stepped
  | grantSelfTimeout kind => exact candid.grantSelfTimeout stepped
  | grantSelfTimedout position waits => exact candid.handleGrantSelfTimedout stepped
  | requestVoteRequest request =>
      refine total ?_ stepped
      unfold handleRequestVoteRequest
      split
      · exact candid
      · split
        · exact candid.of_standing rfl
        · exact candid.of_standing rfl
  | timeoutNowRequest term oldLeaderSteppedDown stored =>
      refine total ?_ stepped
      unfold handleTimeoutNowRequest
      split
      · split
        · exact candid.stepDown _ _
        · exact candid
      · split
        · exact candid
        · exact candid.electSelf _
  | leaderRequest term serverId renews stored =>
      exact total (candid.handleLeaderRequest _ _ _ _) stepped
  | setConfiguration conf =>
      refine total ?_ stepped
      exact candid.of_standing rfl
  | resetPeers newPeers busy stored => exact total (candid.resetPeers _ _ _) stepped
  | increaseTermTo newTerm stored =>
      refine total ?_ stepped
      unfold ElectionNode.increaseTermTo
      split
      · exact candid
      · exact candid.stepDown _ _
  | stepdownTimeout witness dead oldDead stored =>
      exact total (candid.handleStepdownTimeout _ _ _ _) stepped
  | leaseExpired stored =>
      refine total ?_ stepped
      unfold ElectionNode.leaseExpired
      split
      · exact candid
      · exact candid.stepDown _ _
  | configurationChangeDone term removed stored =>
      refine total ?_ stepped
      unfold onConfigurationChangeDone
      split
      · exact candid
      · exact candid.stepDownIf removed _ _
  | transferLeadershipTo =>
      refine total ?_ stepped
      unfold ElectionNode.transferLeadershipTo
      split
      · exact candid
      · rename_i leads
        have leads := not_not.mp leads
        refine candid.restate .transferring _ (by decide) (fun _ => ?_) rfl
        rw [leads]
        exact ⟨rfl, by decide⟩
  | transferTimeout term =>
      refine total ?_ stepped
      unfold handleTransferTimeout
      split
      · rename_i transfers
        refine candid.restate .leader _ (by decide) (fun _ => ?_) rfl
        rw [transfers.2]
        exact ⟨rfl, by decide⟩
      · exact candid
  | vote =>
      refine total ?_ stepped
      unfold ElectionNode.vote
      split
      · exact candid
      · exact candid.of_standing rfl
  | error stored => exact total (candid.onError stored) stepped
  | shutdown stored => exact total (candid.shutdown stored) stepped
  | afterShutdown =>
      simp only [ElectionNode.step, ElectionNode.afterShutdown] at stepped
      split at stepped
      · obtain rfl := Option.some.inj stepped
        exact candid.restate .shutdown _ (by decide) (fun active => by contradiction) rfl
      · contradiction

theorem Initial.candid (initial : Initial node) : Candid node := by
  constructor
  · rw [initial.candidacies]
    exact fun _ member => absurd member List.not_mem_nil
  · intro isCandidate
    exact absurd (initial.state.symm.trans isCandidate) (by decide)
  · rw [initial.armed.1]
    exact nofun
  · rw [initial.timedOut]
    exact fun _ member => absurd member List.not_mem_nil
  · rintro _ _ (armed | member)
    · exact absurd initial.armed.1 armed
    · rw [initial.timedOut] at member
      exact absurd member List.not_mem_nil

/-- In a run that meets the condition, `become_leader` is entered by live candidates. -/
theorem candidacy_live (reached : ((system P).restrict RelocksAsCandidate).Reachable node) :
    ∀ candidacy ∈ node.candidacies, Live candidacy := by
  have candid : Candid node := by
    refine reached.invariant Candid ?_ ?_
    · exact fun _ initial => Initial.candid initial
    · exact fun _ _ _ former allowed stepped => former.step allowed.2 stepped
  exact candid.live

def loneVoter : ElectionNode Nat :=
  { startedNode [1] with starting := false }.electSelf false

theorem candidacy_live_loneVoter :
    ∃ node : ElectionNode Nat, loneVoter.resume 0 {} true true false = some node ∧
      node.candidacies.length = 1 ∧ ∀ candidacy ∈ node.candidacies, Live candidacy := by
  have follows : ((system Nat).restrict RelocksAsCandidate).Follows [.start] (startedNode [1])
      loneVoter := ⟨⟨trivial, trivial⟩, _, rfl, rfl⟩
  have reached := TransitionSystem.Reachable.follows _ (.start (startedNode_initial [1])) follows
  have allowed : ((system Nat).restrict RelocksAsCandidate).allowed (.resume 0 {} true true false)
      loneVoter := by
    refine ⟨trivial, ?_⟩
    intro _
    exact Or.inl rfl
  exact ⟨_, rfl, rfl, candidacy_live (reached.next allowed rfl)⟩

/-- The only voter steps down on its vote timeout while `elect_self` waits. -/
def loneSteppedDown : ElectionNode Nat := loneVoter.handleVoteTimeout true false true

theorem becomeLeader_follower :
    ∃ node : ElectionNode Nat, (system Nat).Reachable node ∧
      ∃ candidacy ∈ node.candidacies, candidacy.state = .follower ∧ ¬ Live candidacy := by
  have follows : (system Nat).Follows [.start, .voteTimeout true false true] (startedNode [1])
      loneSteppedDown := ⟨trivial, _, rfl, trivial, _, rfl, rfl⟩
  have reached := TransitionSystem.Reachable.follows _ (.start (startedNode_initial [1])) follows
  have allowed : (system Nat).allowed (.resume 0 {} true true false) loneSteppedDown := trivial
  refine ⟨_, reached.next allowed rfl, _, List.mem_cons_self, rfl, ?_⟩
  intro live
  exact absurd live.state (by decide)

end ElectionNode

end QuorumKit
