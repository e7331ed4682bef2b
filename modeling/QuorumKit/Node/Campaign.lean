/-
Campaigns of a node in a fixed group.

A candidate counts votes of its own term, and its ballot is granted by the quorums of
the group.  A node that has stepped down in its term may still be waiting for its own
vote, which is then the only one of its ballot.  So a node becomes leader with a quorum
of votes for its term, or it is the only voter.
-/

import QuorumKit.Node.StoredVotes

namespace QuorumKit

namespace ConfigurationEntry

variable {P : Type} [DecidableEq P]

def SameMembers (entry other : ConfigurationEntry P) : Prop :=
  entry.conf = other.conf ∧ entry.oldConf = other.oldConf

def former (entry : ConfigurationEntry P) : Option (Configuration P) :=
  if entry.stable then none else some entry.oldConf

def Elects (entry : ConfigurationEntry P) (voters : Finset P) : Prop :=
  Quorum entry.conf.peers.toFinset (entry.former.map (fun old => old.peers.toFinset)) voters

variable {entry : ConfigurationEntry P}

theorem Elects.common {voters others : Finset P} (left : entry.Elects voters)
    (right : entry.Elects others) : ∃ peer, peer ∈ voters ∧ peer ∈ others :=
  left.1.common right.1

theorem mem_of_lone {members : List P} {peer other : P} (lone : Majority members.toFinset {peer})
    (member : other ∈ members) : other = peer := by
  have few : (members.toFinset ∩ {peer}).card ≤ 1 :=
    (Finset.card_le_card Finset.inter_subset_right).trans (Finset.card_singleton peer).le
  have alone : members.toFinset.card ≤ 1 := by
    unfold Majority at lone
    omega
  have inside : peer ∈ members.toFinset := by
    by_contra outside
    rw [Majority, Finset.inter_singleton_of_notMem outside, Finset.card_empty] at lone
    omega
  exact Finset.card_le_one.mp alone other (List.mem_toFinset.mpr member) peer inside

theorem Elects.only {peer other : P} (lone : entry.Elects {peer})
    (member : entry.contains other = true) : other = peer := by
  unfold contains at member
  rcases Bool.or_eq_true_iff.mp member with inConf | inOld
  · exact mem_of_lone lone.1 ((Configuration.contains_iff _ _).mp inConf)
  · have isOld := (Configuration.contains_iff _ _).mp inOld
    have unstable : ¬ entry.stable = true := by
      unfold stable Configuration.isEmpty
      intro none
      rw [List.isEmpty_iff.mp none] at isOld
      exact absurd isOld List.not_mem_nil
    have old := lone.2 entry.oldConf.peers.toFinset (by
      unfold former
      rw [if_neg unstable]
      rfl)
    exact mem_of_lone old isOld

end ConfigurationEntry

namespace ElectionNode

variable {P : Type} [DecidableEq P] {configures : ConfigurationEntry P → Prop}
  {node node' : ElectionNode P} {stored : List (Nat × Option P)} {entry : ConfigurationEntry P}
  {voted : P → Nat → Prop}

def voters (ctx : VoteBallotCtx P) : Finset P := (ctx.votes.map Prod.fst).toFinset

/-- A member that a quorum has voted for, or that is a quorum of its own. -/
def Elected (entry : ConfigurationEntry P) (voted : P → Nat → Prop) (serverId : P) (term : Nat) :
    Prop :=
  entry.contains serverId = true ∧
    (entry.Elects {serverId} ∨ ∃ voters, entry.Elects voters ∧ ∀ voter ∈ voters, voted voter term)

/-- The votes that a node counts; `voted` says who has voted for it in a term. -/
structure Campaign (entry : ConfigurationEntry P) (voted : P → Nat → Prop)
    (node : ElectionNode P) : Prop where
  conf : node.conf.SameMembers entry
  own : node.state = .candidate → node.votedId = some node.serverId
  begun : node.state = .candidate ∨ node.electing ≠ [] ∨ Armed node → node.voteCtx.startTerm ≠ 0
  contained : node.voteCtx.startTerm ≠ 0 → entry.contains node.serverId = true
  counts : node.voteCtx.startTerm ≠ 0 →
    Ballot.Counts entry.conf entry.former (voters node.voteCtx) node.voteCtx.ballot
  received : ∀ vote ∈ node.voteCtx.votes, vote.1 ≠ node.serverId → voted vote.1 vote.2
  current : node.state = .candidate → ∀ vote ∈ node.voteCtx.votes, vote.2 = node.currentTerm
  unvoted : node.currentTerm ∈ node.electing → node.voteCtx.votes = []
  lone : node.state.isActive = true → node.state ≠ .candidate → Armed node →
    ∀ vote ∈ node.voteCtx.votes, vote.1 = node.serverId
  addressed : ∀ rpc ∈ node.voteRpcs,
    rpc.request.serverId = node.serverId ∧ rpc.request.term = rpc.term
  honest : ∀ reply ∈ node.replies, reply.2.granted = true → reply.2.term = reply.1.term
  elected : ∀ term ∈ node.ledTerms, Elected entry voted node.serverId term

omit [DecidableEq P] in
theorem mem_voteTimeouts {version : Nat} :
    version ∈ node.voteTimeouts ↔ (VoteKind.vote, version) ∈ node.timedOut := by
  unfold ElectionNode.voteTimeouts
  rw [List.mem_filterMap]
  constructor
  · intro found
    obtain ⟨⟨kind, other⟩, member, same⟩ := found
    by_cases isVote : kind = .vote
    · rw [if_pos isVote, Option.some_inj] at same
      rw [← isVote, ← same]
      exact member
    · rw [if_neg isVote] at same
      contradiction
  · exact fun member => ⟨_, member, if_pos rfl⟩

omit [DecidableEq P] in
theorem Pledge.unarmed_reset (pledge : Pledge stored node) (node' : ElectionNode P)
    (ctx : node'.voteCtx = node.voteCtx.reset) (timedOut : node'.timedOut = node.timedOut) :
    ¬ Armed node' := by
  unfold Armed
  rw [ctx, timedOut]
  intro armed
  rcases armed with waits | member
  · exact waits rfl
  · exact absurd (pledge.stale _ (mem_voteTimeouts.mpr member)) (Nat.not_succ_le_self _)

theorem Campaign.mono (campaign : Campaign entry voted node) {voted' : P → Nat → Prop}
    (more : ∀ voter term, voted voter term → voted' voter term) : Campaign entry voted' node := by
  refine { campaign with received := ?_, elected := ?_ }
  · exact fun vote member other => more _ _ (campaign.received vote member other)
  · intro term member
    obtain ⟨contained, alone | ⟨voters, elects, votes⟩⟩ := campaign.elected term member
    · exact ⟨contained, Or.inl alone⟩
    · exact ⟨contained, Or.inr ⟨voters, elects, fun voter isVoter => more _ _ (votes voter isVoter)⟩⟩

theorem Campaign.keep (campaign : Campaign entry voted node) (keeps : Keeps node node') :
    Campaign entry voted node' := by
  have polls := keeps.polls
  have polled := polls.polled
  simp only [ElectionNode.polled, Prod.mk.injEq] at polled
  obtain ⟨serverId, term, votedId, _, ctx, rpcs, replies, candidacies⟩ := polled
  have candidate (isCandidate : node'.state = .candidate) : node.state = .candidate := by
    rcases keeps.state with same | inactive | ⟨_, leads⟩
    · rw [← same]
      exact isCandidate
    · rw [isCandidate] at inactive
      contradiction
    · rw [isCandidate] at leads
      contradiction
  have armed (isArmed : Armed node') : Armed node := by
    unfold Armed at isArmed ⊢
    rw [ctx] at isArmed
    apply isArmed.imp_right
    intro member
    exact mem_voteTimeouts.mp (polls.voteTimeouts.subset (mem_voteTimeouts.mpr member))
  constructor
  · rw [keeps.conf]
    exact campaign.conf
  · rw [votedId, serverId]
    exact fun isCandidate => campaign.own (candidate isCandidate)
  · rw [ctx]
    intro busy
    apply campaign.begun
    rcases busy with isCandidate | waits | isArmed
    · exact Or.inl (candidate isCandidate)
    · refine Or.inr (Or.inl ?_)
      intro none
      have fewer := polls.electing
      rw [none] at fewer
      exact waits (List.sublist_nil.mp fewer)
    · exact Or.inr (Or.inr (armed isArmed))
  · rw [ctx, serverId]
    exact campaign.contained
  · rw [ctx]
    exact campaign.counts
  · rw [ctx, serverId]
    exact campaign.received
  · rw [ctx, term]
    exact fun isCandidate => campaign.current (candidate isCandidate)
  · rw [ctx, term]
    exact fun waits => campaign.unvoted (polls.electing.subset waits)
  · rw [ctx, serverId]
    intro active other isArmed
    rcases keeps.state with same | inactive | ⟨leads, _⟩
    · rw [same] at active other
      exact campaign.lone active other (armed isArmed)
    · rw [active] at inactive
      contradiction
    · apply campaign.lone _ _ (armed isArmed)
      · cases isState : node.state <;> rw [isState] at leads <;> first | rfl | contradiction
      · intro isCandidate
        rw [isCandidate] at leads
        contradiction
  · rw [rpcs, serverId]
    exact campaign.addressed
  · rw [replies]
    exact campaign.honest
  · unfold ledTerms
    rw [candidacies, serverId]
    exact campaign.elected

theorem Campaign.stepDown (campaign : Campaign entry voted node) (pledge : Pledge stored node)
    (term : Nat) (writes : Bool) : Campaign entry voted (node.stepDown term writes) := by
  by_cases inactive : node.state.isActive = false
  · rw [stepDown_inactive inactive]
    exact campaign
  have active := Bool.eq_true_of_not_eq_false inactive
  obtain ⟨preVoteCtx, same⟩ := stepDown_active active term writes
  -- a candidate gives up its context, which keeps its votes and its start
  have votes : node.voteCtxAfter.votes = node.voteCtx.votes ∧
      node.voteCtxAfter.ballot = node.voteCtx.ballot ∧
      node.voteCtxAfter.startTerm = node.voteCtx.startTerm := by
    unfold voteCtxAfter
    split
    · exact ⟨rfl, rfl, rfl⟩
    · exact ⟨rfl, rfl, rfl⟩
  have armed (isArmed : Armed (node.stepDown term writes)) :
      node.state ≠ .candidate ∧ Armed node := by
    rw [same] at isArmed
    by_cases isCandidate : node.state = .candidate
    · refine absurd isArmed (pledge.unarmed_reset _ ?_ rfl)
      unfold voteCtxAfter
      rw [if_pos isCandidate]
    · refine ⟨isCandidate, ?_⟩
      unfold Armed voteCtxAfter at isArmed
      rw [if_neg isCandidate] at isArmed
      exact isArmed
  rw [same] at armed ⊢
  constructor
  · exact campaign.conf
  · exact State.noConfusion
  · intro busy
    rw [votes.2.2]
    apply campaign.begun
    rcases busy with isCandidate | waits | isArmed
    · contradiction
    · exact Or.inr (Or.inl waits)
    · exact Or.inr (Or.inr (armed isArmed).2)
  · rw [votes.2.2]
    exact campaign.contained
  · unfold voters
    rw [votes.1, votes.2.1, votes.2.2]
    exact campaign.counts
  · rw [votes.1]
    exact campaign.received
  · exact State.noConfusion
  · rw [votes.1]
    intro waits
    have bound := pledge.electing _ waits
    have current : max node.currentTerm term = node.currentTerm :=
      le_antisymm bound (le_max_left _ _)
    apply campaign.unvoted
    have waits : max node.currentTerm term ∈ node.electing := waits
    rw [current] at waits
    exact waits
  · rw [votes.1]
    intro _ _ isArmed
    obtain ⟨other, wasArmed⟩ := armed isArmed
    exact campaign.lone active other wasArmed
  · exact campaign.addressed
  · exact campaign.honest
  · exact campaign.elected

theorem contains_of_sameMembers {other : ConfigurationEntry P} (same : other.SameMembers entry)
    {peer : P} (contained : other.contains peer = true) : entry.contains peer = true := by
  unfold ConfigurationEntry.contains at contained ⊢
  rw [← same.1, ← same.2]
  exact contained

omit [DecidableEq P] in
theorem former_of_sameMembers {other : ConfigurationEntry P} (same : other.SameMembers entry) :
    other.former = entry.former := by
  unfold ConfigurationEntry.former ConfigurationEntry.stable
  rw [same.2]

theorem Campaign.electSelf (campaign : Campaign entry voted node) (oldLeaderSteppedDown : Bool) :
    Campaign entry voted (node.electSelf oldLeaderSteppedDown) := by
  unfold ElectionNode.electSelf
  by_cases outside : ¬ node.conf.contains node.serverId = true
  · rw [if_pos outside]
    exact campaign
  rw [if_neg outside]
  simp only
  have started (ctx : VoteBallotCtx P)
      (isCtx : (ctx.votes, ctx.startTerm, ctx.ballot) =
        (([] : List (P × Nat)), node.currentTerm + 1,
          Ballot.init node.conf.conf node.oldConf)) :
      Campaign entry voted
        { node with
          leaderId := none
          state := .candidate
          currentTerm := node.currentTerm + 1
          votedId := some node.serverId
          preVoteCtx := node.preVoteCtx.reset
          voteCtx := ctx
          waiting := node.waiting ++ [.electSelf (node.currentTerm + 1)] } := by
    simp only [Prod.mk.injEq] at isCtx
    obtain ⟨votes, startTerm, ballot⟩ := isCtx
    constructor
    · exact campaign.conf
    · exact fun _ => rfl
    · rw [startTerm]
      exact fun _ => Nat.succ_ne_zero _
    · exact fun _ => contains_of_sameMembers campaign.conf (not_not.mp outside)
    · intro _
      unfold voters
      rw [votes, ballot, ← former_of_sameMembers campaign.conf, ← campaign.conf.1]
      exact Ballot.counts_init node.conf.conf node.conf.former
    · rw [votes]
      exact fun vote member => absurd member List.not_mem_nil
    · rw [votes]
      exact fun _ vote member => absurd member List.not_mem_nil
    · exact fun _ => votes
    · exact fun _ other => absurd rfl other
    · exact campaign.addressed
    · exact campaign.honest
    · exact campaign.elected
  cases oldLeaderSteppedDown with
  | false => exact started _ rfl
  | true => exact started _ rfl

theorem Campaign.effect (effect : Effect configures node node')
    (fixed : ∀ conf, configures conf → conf.SameMembers entry)
    (campaign : Campaign entry voted node) (pledge : Pledge stored node) :
    Campaign entry voted node' := by
  induction effect with
  | keep keeps => exact campaign.keep keeps
  | configure node may =>
      exact { campaign with conf := fixed _ may, begun := campaign.begun, lone := campaign.lone }
  | stepDown node term writes => exact campaign.stepDown pledge term writes
  | electSelf node oldLeaderSteppedDown => exact campaign.electSelf oldLeaderSteppedDown
  | reply node request previousTerm rejectedByLease disrupted =>
      refine { campaign with begun := campaign.begun, lone := campaign.lone, honest := ?_ }
      intro reply member granted
      rcases List.mem_cons.mp member with new | past
      · rw [new] at granted ⊢
        have votes : request.term = node.currentTerm ∧ node.votedId = some request.serverId :=
          of_decide_eq_true granted
        exact votes.1.symm
      · exact campaign.honest reply past granted
  | @expireVote node version armed =>
      have wasArmed : Armed node := by
        refine Or.inl ?_
        rw [armed]
        exact Option.some_ne_none version
      refine { campaign with begun := ?_, lone := ?_ }
      · intro _
        exact campaign.begun (Or.inr (Or.inr wasArmed))
      · intro active other _
        exact campaign.lone active other wasArmed
  | trans first _ firstIh secondIh =>
      exact secondIh (firstIh campaign pledge) (pledge.effect first)

/-- The votes that may be counted: those of the current term with the own one, or own ones. -/
def Countable (voted : P → Nat → Prop) (node : ElectionNode P) (ctx : VoteBallotCtx P) : Prop :=
  (voted node.serverId node.currentTerm ∧
      ∀ vote ∈ ctx.votes, vote.2 = node.currentTerm ∧
        (vote.1 ≠ node.serverId → voted vote.1 vote.2)) ∨
    ∀ vote ∈ ctx.votes, vote.1 = node.serverId

theorem Campaign.becomeLeader (campaign : Campaign entry voted node) (pledge : Pledge stored node)
    (started : node.voteCtx.startTerm ≠ 0) (granted : node.voteCtx.granted = true)
    (countable : Countable voted node node.voteCtx) : Campaign entry voted node.becomeLeader := by
  have elects : entry.Elects (voters node.voteCtx) :=
    (campaign.counts started).granted_iff.mp granted
  have isVoter {voter : P} (member : voter ∈ voters node.voteCtx) :
      ∃ vote ∈ node.voteCtx.votes, vote.1 = voter := by
    obtain ⟨vote, inside, same⟩ := List.mem_map.mp (List.mem_toFinset.mp member)
    exact ⟨vote, inside, same⟩
  have elected : Elected entry voted node.serverId node.currentTerm := by
    refine ⟨campaign.contained started, ?_⟩
    rcases countable with ⟨own, current⟩ | alone
    · refine Or.inr ⟨voters node.voteCtx, elects, ?_⟩
      intro voter member
      obtain ⟨vote, inside, same⟩ := isVoter member
      obtain ⟨term, votes⟩ := current vote inside
      by_cases isOwn : vote.1 = node.serverId
      · rw [← same, isOwn]
        exact own
      · rw [← same, ← term]
        exact votes isOwn
    · refine Or.inl (elects.mono ?_)
      intro voter member
      obtain ⟨vote, inside, same⟩ := isVoter member
      rw [← same, alone vote inside]
      exact Finset.mem_singleton_self _
  have unarmed : ¬ Armed node.becomeLeader := pledge.unarmed_reset _ rfl rfl
  constructor
  · exact campaign.conf
  · exact State.noConfusion
  · exact fun _ => started
  · exact campaign.contained
  · exact campaign.counts
  · exact campaign.received
  · exact State.noConfusion
  · exact campaign.unvoted
  · exact fun _ _ armed => absurd armed unarmed
  · exact campaign.addressed
  · exact campaign.honest
  · intro term member
    rcases List.mem_cons.mp member with new | past
    · rw [new]
      exact elected
    · exact campaign.elected term past

theorem Campaign.recount (campaign : Campaign entry voted node)
    (closed : node.currentTerm ∉ node.electing) {ctx : VoteBallotCtx P}
    (started : node.voteCtx.startTerm ≠ 0) (goesOn : ctx.startTerm = node.voteCtx.startTerm)
    (counts : Ballot.Counts entry.conf entry.former (voters ctx) ctx.ballot)
    (received : ∀ vote ∈ ctx.votes, vote.1 ≠ node.serverId → voted vote.1 vote.2)
    (current : node.state = .candidate → ∀ vote ∈ ctx.votes, vote.2 = node.currentTerm)
    (lone : node.state ≠ .candidate → ∀ vote ∈ ctx.votes, vote.1 = node.serverId) :
    Campaign entry voted { node with voteCtx := ctx } := by
  constructor
  · exact campaign.conf
  · exact campaign.own
  · intro _
    rw [goesOn]
    exact started
  · rw [goesOn]
    exact campaign.contained
  · exact fun _ => counts
  · exact received
  · exact current
  · exact fun waits => absurd waits closed
  · exact fun _ other _ => lone other
  · exact campaign.addressed
  · exact campaign.honest
  · exact campaign.elected

theorem voters_grant (ctx : VoteBallotCtx P) (peer : P) (term : Nat) :
    voters (ctx.grant peer term) = insert peer (voters ctx) := by
  unfold voters VoteBallotCtx.grant
  rw [List.map_cons, List.toFinset_cons]

theorem counts_tally (term : Nat) (peers : List P) :
    ∀ {ctx : VoteBallotCtx P}, Ballot.Counts entry.conf entry.former (voters ctx) ctx.ballot →
      Ballot.Counts entry.conf entry.former (voters (ctx.tally term peers))
        (ctx.tally term peers).ballot := by
  induction peers with
  | nil => exact fun counts => counts
  | cons peer rest ih =>
      intro ctx counts
      apply ih
      rw [voters_grant]
      exact counts.grant peer {}

theorem mem_tally {term : Nat} {vote : P × Nat} (peers : List P) :
    ∀ {ctx : VoteBallotCtx P}, vote ∈ (ctx.tally term peers).votes →
      vote ∈ ctx.votes ∨ vote.1 ∈ peers ∧ vote.2 = term := by
  induction peers with
  | nil => exact fun member => Or.inl member
  | cons peer rest ih =>
      intro ctx member
      rcases ih member with counted | ⟨inRest, isTerm⟩
      · rcases List.mem_cons.mp counted with new | past
        · rw [new]
          exact Or.inr ⟨List.mem_cons_self, rfl⟩
        · exact Or.inl past
      · exact Or.inr ⟨List.mem_cons_of_mem _ inRest, isTerm⟩

theorem Campaign.requestPeersToVote (campaign : Campaign entry voted node) (peers : List P) :
    Campaign entry voted (node.requestPeersToVote peers) := by
  refine { campaign with begun := campaign.begun, lone := campaign.lone, addressed := ?_ }
  intro rpc member
  rcases List.mem_append.mp member with past | new
  · exact campaign.addressed rpc past
  · obtain ⟨peer, _, isRpc⟩ := List.mem_map.mp new
    subst isRpc
    exact ⟨rfl, rfl⟩

theorem Campaign.grantSelf (campaign : Campaign entry voted node) (pledge : Pledge stored node)
    (closed : node.currentTerm ∉ node.electing) (started : node.voteCtx.startTerm ≠ 0)
    (own : node.state = .candidate → voted node.serverId node.currentTerm)
    (alone : node.state ≠ .candidate → ∀ vote ∈ node.voteCtx.votes, vote.1 = node.serverId)
    (waits : Bool) : Campaign entry voted (node.grantSelf .vote waits) := by
  have counts := campaign.counts started
  unfold ElectionNode.grantSelf
  cases waits with
  | true =>
      exact campaign.recount closed started rfl counts campaign.received campaign.current alone
  | false =>
      rw [if_neg Bool.false_ne_true]
      simp only
      have received : ∀ vote ∈ (node.serverId, node.currentTerm) :: node.voteCtx.votes,
          vote.1 ≠ node.serverId → voted vote.1 vote.2 := by
        intro vote member other
        rcases List.mem_cons.mp member with new | past
        · rw [new] at other
          exact absurd rfl other
        · exact campaign.received vote past other
      have current (isCandidate : node.state = .candidate) :
          ∀ vote ∈ (node.serverId, node.currentTerm) :: node.voteCtx.votes,
            vote.2 = node.currentTerm := by
        intro vote member
        rcases List.mem_cons.mp member with new | past
        · rw [new]
        · exact campaign.current isCandidate vote past
      have lone (other : node.state ≠ .candidate) :
          ∀ vote ∈ (node.serverId, node.currentTerm) :: node.voteCtx.votes,
            vote.1 = node.serverId := by
        intro vote member
        rcases List.mem_cons.mp member with new | past
        · rw [new]
        · exact alone other vote past
      have counted : Campaign entry voted
          { node with voteCtx := node.voteCtx.grant node.serverId node.currentTerm } := by
        refine campaign.recount closed started rfl ?_ received current lone
        rw [voters_grant]
        exact counts.grant node.serverId {}
      have countedPledge := pledge.extend closed (.grant _ node.voteCtx node.serverId)
      split
      · exact counted
      · rename_i granted
        apply counted.becomeLeader countedPledge started (not_not.mp granted)
        by_cases isCandidate : node.state = .candidate
        · refine Or.inl ⟨own isCandidate, ?_⟩
          exact fun vote member => ⟨current isCandidate vote member, received vote member⟩
        · exact Or.inr (lone isCandidate)

theorem Campaign.setLastLogId (campaign : Campaign entry voted node) (lastLogId : LogId) :
    Campaign entry voted { node with voteCtx := node.voteCtx.setLastLogId lastLogId } :=
  { campaign with begun := campaign.begun, lone := campaign.lone }

theorem Campaign.resumeElectSelf (campaign : Campaign entry voted node)
    (pledge : Pledge stored node) {position : Nat}
    (found : node.waiting[position]? = some (.electSelf node.currentTerm))
    (own : voted node.serverId node.currentTerm) (lastLogId : LogId) (waits : Bool) :
    Campaign entry voted
      ({ node with waiting := node.waiting.eraseIdx position }.resumeElectSelf node.currentTerm
        lastLogId true waits) := by
  have closed := electing_eraseIdx pledge.apart found
  have opened : node.currentTerm ∈ node.electing :=
    List.mem_filterMap.mpr ⟨_, List.mem_of_getElem? found, rfl⟩
  have started := campaign.begun (Or.inr (Or.inl (List.ne_nil_of_mem opened)))
  have written : Campaign entry voted
      { node with
        waiting := node.waiting.eraseIdx position
        persisted := (node.currentTerm, some node.serverId) } := by
    refine { campaign with begun := ?_, unvoted := ?_, lone := campaign.lone }
    · exact fun _ => started
    · exact fun waits => absurd waits closed
  unfold ElectionNode.resumeElectSelf
  rw [if_neg (not_not.mpr rfl)]
  have asked := (written.setLastLogId lastLogId).requestPeersToVote node.conf.listPeers
  have askedPledge := ((pledge.writeOwn found).setLastLogId lastLogId).requestPeersToVote closed
    node.conf.listPeers
  apply asked.grantSelf askedPledge closed started (fun _ => own)
  intro _ vote member
  have none : node.voteCtx.votes = [] := campaign.unvoted opened
  change vote ∈ node.voteCtx.votes at member
  rw [none] at member
  exact absurd member List.not_mem_nil

theorem Campaign.takeAnswer (campaign : Campaign entry voted node) (pledge : Pledge stored node)
    {rpc : VoteRpc P} {response : RequestVoteResponse} (sent : rpc ∈ node.voteRpcs)
    (answers : Answers node rpc response)
    (heard : response.granted = true → voted rpc.peerId node.currentTerm)
    (own : voted node.serverId node.currentTerm) :
    Campaign entry voted (node.takeAnswer rpc response) := by
  have closed := pledge.closed_of_answer sent answers.term
  have started := campaign.begun (Or.inl answers.state)
  obtain ⟨ctx, tallied, outcome⟩ := takeAnswer_cases answers
  have votes (vote : P × Nat) (member : vote ∈ ctx.votes) :
      vote.2 = node.currentTerm ∧ (vote.1 ≠ node.serverId → voted vote.1 vote.2) := by
    rw [tallied.votes] at member
    rcases mem_tally _ member with past | ⟨brought, term⟩
    · exact ⟨campaign.current answers.state vote past, campaign.received vote past⟩
    · refine ⟨term, ?_⟩
      intro other
      rw [term]
      unfold broughtPeers at brought
      by_cases granted : response.granted = true
      · rw [if_pos granted] at brought
        have isSender : vote.1 = rpc.peerId := by
          by_cases last : some rpc.peerId = node.lastLeader
          · rw [if_pos last] at brought
            rcases List.mem_cons.mp brought with sender | self
            · exact sender
            · exact absurd (List.mem_singleton.mp self) other
          · rw [if_neg last] at brought
            exact List.mem_singleton.mp brought
        rw [isSender]
        exact heard granted
      · rw [if_neg granted] at brought
        exact absurd brought List.not_mem_nil
  have counted : Campaign entry voted { node with voteCtx := ctx } := by
    refine campaign.recount closed started tallied.goesOn.startTerm ?_
      (fun vote member => (votes vote member).2) (fun _ vote member => (votes vote member).1)
      (fun other => absurd answers.state other)
    have sums := counts_tally node.currentTerm (node.broughtPeers rpc response)
      (campaign.counts started)
    unfold voters at sums ⊢
    rw [tallied.votes, tallied.ballot]
    exact sums
  have countedPledge := pledge.extend closed tallied.goesOn
  rcases outcome with ⟨wins, leads⟩ | ⟨_, asked, retries⟩
  · rw [leads]
    have goesOn : ctx.startTerm ≠ 0 := by
      rw [tallied.goesOn.startTerm]
      exact started
    exact counted.becomeLeader countedPledge goesOn wins.2 (Or.inl ⟨own, votes⟩)
  · rw [retries]
    exact counted.requestPeersToVote asked

theorem Campaign.castVote (campaign : Campaign entry voted node) (unvoted : node.votedId = none)
    (peer : P) (writes : Bool) : Campaign entry voted (node.castVote peer writes) := by
  have notCandidate : node.state ≠ .candidate := by
    intro isCandidate
    have own := campaign.own isCandidate
    rw [unvoted] at own
    contradiction
  cases writes with
  | false =>
      exact { campaign with
        own := fun isCandidate => absurd isCandidate notCandidate
        begun := campaign.begun
        lone := campaign.lone }
  | true =>
      exact { campaign with
        own := fun isCandidate => absurd isCandidate notCandidate
        begun := campaign.begun
        lone := campaign.lone }

def Writes : Action P → Prop
  | .resume _ _ _ stored _ => stored = true
  | _ => True

/-- A granted response comes from a peer that has voted for the node. -/
def Heard (voted : P → Nat → Prop) (node : ElectionNode P) : Action P → Prop
  | .requestVoteResponse rpc response _ =>
      Answers node rpc response → response.granted = true → voted rpc.peerId node.currentTerm
  | _ => True

theorem Campaign.step {action : Action P} (campaign : Campaign entry voted node)
    (pledge : Pledge stored node) (allowed : Allowed action node) (writes : Writes action)
    (fixed : ∀ conf, Configures action conf → conf.SameMembers entry)
    (heard : Heard voted node action)
    (own : ∀ term, (term, some node.serverId) ∈ node'.persisted :: stored →
      voted node.serverId term)
    (stepCase : StepCase node action node') : Campaign entry voted node' := by
  cases stepCase with
  | effect effect => exact campaign.effect effect fixed pledge
  | @vote middle position lastLogId stepStored stored waits before unvoted request previousTerm
      disrupted =>
      have stepped := campaign.effect before (fun _ none => absurd none id) pledge
      have votes := stepped.castVote unvoted request.serverId stored
      have votesPledge := (pledge.effect before).castVote unvoted request.serverId stored
      have replies : Effect (fun _ => False) (middle.castVote request.serverId stored) _ :=
        .reply _ request previousTerm false disrupted
      exact votes.effect replies (fun _ none => absurd none id) votesPledge
  | resume position lastLogId stepStored stored waits waiting =>
      have isStored : stored = true := writes
      subst isStored
      have persisted := resumeElectSelf_persisted
        { node with waiting := node.waiting.eraseIdx position } lastLogId true waits
      apply campaign.resumeElectSelf pledge waiting
      apply own
      rw [persisted]
      exact List.mem_cons_self
  | answer rpc response stored answers =>
      have isOwn := pledge.own_stored (campaign.own answers.state)
        (pledge.closed_of_answer allowed answers.term)
      exact campaign.takeAnswer pledge allowed answers (heard answers)
        (own _ (List.mem_cons_of_mem _ isOwn))
  | timer position waits timedOut active =>
      have closed := pledge.closed_of_timer timedOut
      have armed : Armed node := Or.inr (List.mem_of_getElem? timedOut)
      have started := campaign.begun (Or.inr (Or.inr armed))
      have dropped := Keeps.drop_timeout node position
      apply (campaign.keep dropped).grantSelf (pledge.of_samePolls dropped.polls) closed started
      · intro isCandidate
        have isOwn := pledge.own_stored (campaign.own isCandidate) closed
        exact own _ (List.mem_cons_of_mem _ isOwn)
      · exact fun other => campaign.lone active other armed

end ElectionNode

end QuorumKit
