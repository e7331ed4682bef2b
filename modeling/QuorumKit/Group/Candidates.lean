/-
Candidates and their logs.

A candidate asks for votes with the last id of its log, and no other node is leader of its
term before it has lost.  Where no server is a quorum of its own, a node becomes leader as a
candidate that has written its own vote, in a term in which it has never led before.
-/

import QuorumKit.Group.VoteRequests

namespace QuorumKit

namespace ElectionNode

variable {P : Type}

def sentTerms (node : ElectionNode P) : List Nat :=
  node.voteRpcs.map (fun rpc => rpc.request.term)

/-- What a node tells of its log in an election.  `tip` is the last id of the log, `opened`
holds of the terms without a leader, and `calm` of a node without work of a former leadership;
the terms are those of former lives. -/
structure Standing (opened : Nat → Prop) (tip : LogId) (calm : Prop) (pastLed pastSent : List Nat)
    (node : ElectionNode P) : Prop where
  led : ∀ term ∈ node.ledTerms ++ pastLed, term ≤ node.persisted.1
  fresh : node.state = .candidate →
    0 < node.currentTerm ∧ ∀ term ∈ node.ledTerms ++ pastLed, term < node.currentTerm
  sent : ∀ term ∈ node.sentTerms ++ pastSent, term ≤ node.persisted.1
  past : node.state = .candidate → ∀ term ∈ pastSent, term < node.currentTerm
  leads : node.state.leads = true → node.currentTerm ∈ node.ledTerms
  campaign : node.state = .candidate → node.currentTerm ∉ node.electing →
    calm ∧ (opened node.currentTerm → node.voteCtx.lastLogId = tip)
  asks : ∀ rpc ∈ node.voteRpcs, rpc.request.term = node.currentTerm → opened node.currentTerm →
    rpc.request.lastLogId = tip

variable {opened : Nat → Prop} {tip : LogId} {calm : Prop} {pastLed pastSent : List Nat}
  {configures : ConfigurationEntry P → Prop} {node node' : ElectionNode P}
  {stored : List (Nat × Option P)} {entry : ConfigurationEntry P} {voted : P → Nat → Prop}

theorem Standing.of_same (standing : Standing opened tip calm pastLed pastSent node)
    (same : (node'.currentTerm, node'.persisted, node'.voteRpcs, node'.candidacies, node'.electing,
      node'.voteCtx.lastLogId) = (node.currentTerm, node.persisted, node.voteRpcs, node.candidacies,
        node.electing, node.voteCtx.lastLogId))
    (state : node'.state = node.state) : Standing opened tip calm pastLed pastSent node' := by
  simp only [Prod.mk.injEq] at same
  obtain ⟨term, persisted, rpcs, candidacies, electing, lastLogId⟩ := same
  constructor
  · unfold ledTerms
    rw [candidacies, persisted]
    exact standing.led
  · unfold ledTerms
    rw [candidacies, term, state]
    exact standing.fresh
  · unfold sentTerms
    rw [rpcs, persisted]
    exact standing.sent
  · rw [term, state]
    exact standing.past
  · unfold ledTerms
    rw [candidacies, term, state]
    exact standing.leads
  · rw [term, state, electing, lastLogId]
    exact standing.campaign
  · rw [rpcs, term]
    exact standing.asks

theorem Standing.keep (standing : Standing opened tip calm pastLed pastSent node)
    (keeps : Keeps node node') : Standing opened tip calm pastLed pastSent node' := by
  have polls := keeps.polls
  have polled := polls.polled
  simp only [ElectionNode.polled, Prod.mk.injEq] at polled
  obtain ⟨_, term, _, persisted, ctx, rpcs, _, candidacies⟩ := polled
  have candidate (isCandidate : node'.state = .candidate) : node.state = .candidate := by
    rcases keeps.state with same | inactive | ⟨_, leads⟩
    · rw [← same]
      exact isCandidate
    · rw [isCandidate] at inactive
      contradiction
    · rw [isCandidate] at leads
      contradiction
  constructor
  · unfold ledTerms
    rw [candidacies, persisted]
    exact standing.led
  · unfold ledTerms
    rw [candidacies, term]
    exact fun isCandidate => standing.fresh (candidate isCandidate)
  · unfold sentTerms
    rw [rpcs, persisted]
    exact standing.sent
  · rw [term]
    exact fun isCandidate => standing.past (candidate isCandidate)
  · unfold ledTerms
    rw [candidacies, term]
    exact fun leads => standing.leads (keeps.leads leads)
  · rw [term, ctx]
    intro isCandidate closed
    exact standing.campaign (candidate isCandidate) (fun waits => closed (polls.waits waits))
  · rw [rpcs, term]
    exact standing.asks

theorem Standing.stepDown (standing : Standing opened tip calm pastLed pastSent node)
    (below : node.persisted.1 ≤ node.currentTerm) (term : Nat) (writes : Bool) :
    Standing opened tip calm pastLed pastSent (node.stepDown term writes) := by
  by_cases inactive : node.state.isActive = false
  · rw [stepDown_inactive inactive]
    exact standing
  obtain ⟨preVoteCtx, same⟩ :=
    stepDown_active (Bool.eq_true_of_not_eq_false inactive) term writes
  rw [same]
  have notLower : node.persisted.1 ≤ (if node.currentTerm < term ∧ writes = true then
      ((term, none) : Nat × Option P) else node.persisted).1 := by
    split
    · rename_i raised
      exact below.trans raised.1.le
    · exact le_refl _
  constructor
  · exact fun other member => (standing.led other member).trans notLower
  · exact State.noConfusion
  · exact fun other member => (standing.sent other member).trans notLower
  · exact State.noConfusion
  · exact fun leads => absurd leads Bool.false_ne_true
  · exact State.noConfusion
  · intro rpc member isTerm isOpen
    have isTerm : rpc.request.term = max node.currentTerm term := isTerm
    have isOpen : opened (max node.currentTerm term) := isOpen
    have bound := standing.sent rpc.request.term
      (List.mem_append_left _ (List.mem_map.mpr ⟨rpc, member, rfl⟩))
    have current : max node.currentTerm term = node.currentTerm := by omega
    rw [current] at isTerm isOpen
    exact standing.asks rpc member isTerm isOpen

theorem Standing.retip (standing : Standing opened tip calm pastLed pastSent node)
    (other : node.state ≠ .candidate) {opened' : Nat → Prop} (closed : ¬ opened' node.currentTerm)
    (tip' : LogId) (calm' : Prop) : Standing opened' tip' calm' pastLed pastSent node :=
  { standing with
    campaign := fun isCandidate => absurd isCandidate other
    asks := fun _ _ _ isOpen => absurd isOpen closed }

theorem Standing.opens (standing : Standing opened tip calm pastLed pastSent node)
    {opened' : Nat → Prop} (fewer : ∀ term, opened' term → opened term) :
    Standing opened' tip calm pastLed pastSent node :=
  { standing with
    campaign := fun isCandidate closed =>
      (standing.campaign isCandidate closed).imp_right (fun isTip isOpen => isTip (fewer _ isOpen))
    asks := fun rpc member isTerm isOpen => standing.asks rpc member isTerm (fewer _ isOpen) }

variable [DecidableEq P]

theorem Standing.electSelf (standing : Standing opened tip calm pastLed pastSent node)
    (below : node.persisted.1 ≤ node.currentTerm) (oldLeaderSteppedDown : Bool) :
    Standing opened tip calm pastLed pastSent (node.electSelf oldLeaderSteppedDown) := by
  by_cases outside : ¬ node.conf.contains node.serverId = true
  · unfold ElectionNode.electSelf
    rw [if_pos outside]
    exact standing
  have waits := electing_electSelf (not_not.mp outside) oldLeaderSteppedDown
  unfold ElectionNode.electSelf at waits ⊢
  rw [if_neg outside] at waits ⊢
  simp only at waits ⊢
  constructor
  · exact standing.led
  · exact fun _ => ⟨Nat.succ_pos _,
      fun term member => Nat.lt_succ_of_le ((standing.led term member).trans below)⟩
  · exact standing.sent
  · intro _ term member
    exact Nat.lt_succ_of_le ((standing.sent term (List.mem_append_right _ member)).trans below)
  · exact fun leads => absurd leads Bool.false_ne_true
  · intro _ closed
    refine absurd ?_ closed
    rw [waits]
    exact List.mem_append_right _ (List.mem_singleton.mpr rfl)
  · intro rpc member isTerm
    have bound := standing.sent rpc.request.term
      (List.mem_append_left _ (List.mem_map.mpr ⟨rpc, member, rfl⟩))
    have isTerm : rpc.request.term = node.currentTerm + 1 := isTerm
    omega

theorem Standing.effect (effect : Effect configures node node')
    (standing : Standing opened tip calm pastLed pastSent node) (pledge : Pledge stored node) :
    Standing opened tip calm pastLed pastSent node' := by
  induction effect with
  | keep keeps => exact standing.keep keeps
  | configure node may => exact standing.of_same rfl rfl
  | stepDown node term writes => exact standing.stepDown pledge.below term writes
  | electSelf node oldLeaderSteppedDown => exact standing.electSelf pledge.below oldLeaderSteppedDown
  | reply node request previousTerm rejectedByLease disrupted => exact standing.of_same rfl rfl
  | expireVote node armed => exact standing.of_same rfl rfl
  | trans before _ first second => exact second (first standing pledge) (pledge.effect before)

structure Promoted (node node' : ElectionNode P) : Prop where
  candidate : node.state = .candidate
  closed : node.currentTerm ∉ node.electing
  leader : node'.state = .leader
  term : node'.currentTerm = node.currentTerm
  persisted : node'.persisted = node.persisted
  written : node.persisted.1 = node.currentTerm
  added : node'.ledTerms = node.currentTerm :: node.ledTerms

inductive Turn (node node' : ElectionNode P) : Prop
  | same (ledTerms : node'.ledTerms = node.ledTerms)
      (leads : node'.state.leads = true → node.state.leads = true ∧
        node'.currentTerm = node.currentTerm)
  | promoted (promoted : Promoted node node')

theorem not_granted (several : ∀ server, ¬ entry.Elects {server}) {ctx : VoteBallotCtx P}
    (counts : Ballot.Counts entry.conf entry.former (voters ctx) ctx.ballot) {server : P}
    (alone : ∀ vote ∈ ctx.votes, vote.1 = server) : ctx.granted = false := by
  rw [Bool.eq_false_iff]
  intro granted
  have elects : entry.Elects (voters ctx) := counts.granted_iff.mp granted
  refine several server (elects.mono ?_)
  intro voter member
  obtain ⟨vote, inside, same⟩ := List.mem_map.mp (List.mem_toFinset.mp member)
  rw [← same, alone vote inside]
  exact Finset.mem_singleton_self _

theorem grantSelf_cases (campaign : Campaign entry voted node)
    (several : ∀ server, ¬ entry.Elects {server}) (started : node.voteCtx.startTerm ≠ 0)
    (waits : Bool) :
    ∃ ctx, ctx.lastLogId = node.voteCtx.lastLogId ∧
      (node.grantSelf .vote waits = { node with voteCtx := ctx } ∨
        node.grantSelf .vote waits = { node with voteCtx := ctx }.becomeLeader ∧
          ¬ ∀ vote ∈ node.voteCtx.votes, vote.1 = node.serverId) := by
  unfold ElectionNode.grantSelf
  cases waits with
  | true => exact ⟨node.voteCtx.startGrantSelfTimer, rfl, Or.inl rfl⟩
  | false =>
      rw [if_neg Bool.false_ne_true]
      simp only
      split
      · exact ⟨node.voteCtx.grant node.serverId node.currentTerm, rfl, Or.inl rfl⟩
      · rename_i granted
        refine ⟨node.voteCtx.grant node.serverId node.currentTerm, rfl, Or.inr ⟨rfl, ?_⟩⟩
        intro alone
        have counts : Ballot.Counts entry.conf entry.former
            (voters (node.voteCtx.grant node.serverId node.currentTerm))
            (node.voteCtx.grant node.serverId node.currentTerm).ballot := by
          rw [voters_grant]
          exact (campaign.counts started).grant node.serverId {}
        have single : ∀ vote ∈ (node.voteCtx.grant node.serverId node.currentTerm).votes,
            vote.1 = node.serverId := by
          intro vote member
          rcases List.mem_cons.mp member with new | former
          · rw [new]
          · exact alone vote former
        have lost := not_granted several counts single
        have won : (node.voteCtx.grant node.serverId node.currentTerm).granted = true :=
          not_not.mp granted
        rw [lost] at won
        contradiction

omit [DecidableEq P] in
theorem Standing.becomeLeader (standing : Standing opened tip calm pastLed pastSent node)
    (written : node.persisted.1 = node.currentTerm) (ctx : VoteBallotCtx P) :
    Standing opened tip calm pastLed pastSent { node with voteCtx := ctx }.becomeLeader := by
  constructor
  · intro term member
    rcases List.mem_cons.mp member with new | former
    · rw [new]
      exact written.ge
    · exact standing.led term former
  · exact State.noConfusion
  · exact standing.sent
  · exact State.noConfusion
  · exact fun _ => List.mem_cons_self
  · exact State.noConfusion
  · exact standing.asks

omit [DecidableEq P] in
theorem Standing.setVoteCtx (standing : Standing opened tip calm pastLed pastSent node)
    {ctx : VoteBallotCtx P} (same : ctx.lastLogId = node.voteCtx.lastLogId) :
    Standing opened tip calm pastLed pastSent { node with voteCtx := ctx } := by
  refine standing.of_same ?_ rfl
  simp only [same]
  rfl

theorem Standing.requestPeersToVote (standing : Standing opened tip calm pastLed pastSent node)
    (written : node.persisted.1 = node.currentTerm) (peers : List P)
    (isTip : opened node.currentTerm → node.voteCtx.lastLogId = tip) :
    Standing opened tip calm pastLed pastSent (node.requestPeersToVote peers) := by
  constructor
  · exact standing.led
  · exact standing.fresh
  · intro term member
    rcases List.mem_append.mp member with sent | former
    · obtain ⟨rpc, asked, isTerm⟩ := List.mem_map.mp sent
      rcases List.mem_append.mp asked with old | new
      · exact standing.sent term
          (List.mem_append_left _ (List.mem_map.mpr ⟨rpc, old, isTerm⟩))
      · obtain ⟨peer, _, isRpc⟩ := List.mem_map.mp new
        rw [← isTerm, ← isRpc]
        exact written.ge
    · exact standing.sent term (List.mem_append_right _ former)
  · exact standing.past
  · exact standing.leads
  · exact standing.campaign
  · intro rpc member isTerm isOpen
    rcases List.mem_append.mp member with old | new
    · exact standing.asks rpc old isTerm isOpen
    · obtain ⟨peer, _, isRpc⟩ := List.mem_map.mp new
      rw [← isRpc]
      exact isTip isOpen

/-- A candidate that does not wait in `elect_self` has written its vote. -/
theorem Pledge.own_written (pledge : Pledge stored node) (campaign : Campaign entry voted node)
    (isCandidate : node.state = .candidate) (closed : node.currentTerm ∉ node.electing) :
    node.persisted.1 = node.currentTerm := by
  have own := campaign.own isCandidate
  rcases pledge.voted (by rw [own]; exact Option.some_ne_none _) with same | waits
  · rw [same]
  · exact absurd waits closed

theorem takeAnswer_lastLogId (node : ElectionNode P) (rpc : VoteRpc P)
    (response : RequestVoteResponse) :
    (node.takeAnswer rpc response).state = .leader ∨
      (node.takeAnswer rpc response).voteCtx.lastLogId = node.voteCtx.lastLogId := by
  have noted : (noteDisrupted node.voteCtx rpc response).lastLogId = node.voteCtx.lastLogId := by
    unfold noteDisrupted
    split <;> rfl
  have popped (ctx : VoteBallotCtx P) : ctx.popGrantablePeers.2.lastLogId = ctx.lastLogId := by
    unfold VoteBallotCtx.popGrantablePeers
    split <;> rfl
  have counted : (ElectionNode.countVote
      { node with voteCtx := noteDisrupted node.voteCtx rpc response } rpc).voteCtx.lastLogId =
        node.voteCtx.lastLogId := by
    unfold ElectionNode.countVote
    simp only
    split
    · exact noted
    · exact noted
  unfold takeAnswer
  simp only
  split
  · split
    · exact Or.inl rfl
    · exact Or.inr ((popped _).trans counted)
  · exact Or.inr ((popped _).trans noted)

/-- What a call that goes on has read is the last id of a log without other work. -/
def ReadsTip (tip : LogId) (calm : Prop) : Action P → ElectionNode P → Prop
  | .resume position lastLogId _ _ _, node =>
      node.waiting[position]? = some (.electSelf node.currentTerm) → calm ∧ lastLogId = tip
  | _, _ => True

theorem Standing.resumeElectSelf (standing : Standing opened tip calm pastLed pastSent node)
    (pledge : Pledge stored node) (campaign : Campaign entry voted node)
    (several : ∀ server, ¬ entry.Elects {server}) {position : Nat}
    (found : node.waiting[position]? = some (.electSelf node.currentTerm)) (waits : Bool)
    (isCalm : calm) {node' : ElectionNode P}
    (isNode : node' = { node with waiting := node.waiting.eraseIdx position }.resumeElectSelf
      node.currentTerm tip true waits) :
    Standing opened tip calm pastLed pastSent node' ∧ node'.state = node.state ∧
      node'.currentTerm = node.currentTerm ∧ node'.ledTerms = node.ledTerms := by
  have opened' : node.currentTerm ∈ node.electing :=
    List.mem_filterMap.mpr ⟨_, List.mem_of_getElem? found, rfl⟩
  have started := campaign.begun (Or.inr (Or.inl (List.ne_nil_of_mem opened')))
  have below := pledge.below
  have written : Standing opened tip calm pastLed pastSent
      { node with
        waiting := node.waiting.eraseIdx position
        voteCtx := node.voteCtx.setLastLogId tip
        persisted := (node.currentTerm, some node.serverId) } := by
    constructor
    · exact fun term member => (standing.led term member).trans below
    · exact standing.fresh
    · exact fun term member => (standing.sent term member).trans below
    · exact standing.past
    · exact standing.leads
    · exact fun _ _ => ⟨isCalm, fun _ => rfl⟩
    · exact standing.asks
  have asked := written.requestPeersToVote rfl node.conf.listPeers (fun _ => rfl)
  have counted : Campaign entry voted
      ({ node with
        waiting := node.waiting.eraseIdx position
        voteCtx := node.voteCtx.setLastLogId tip
        persisted := (node.currentTerm, some node.serverId) }.requestPeersToVote
          node.conf.listPeers) := by
    have relocked : Campaign entry voted
        { node with
          waiting := node.waiting.eraseIdx position
          voteCtx := node.voteCtx.setLastLogId tip
          persisted := (node.currentTerm, some node.serverId) } := by
      refine { campaign with begun := fun _ => started, unvoted := ?_, lone := campaign.lone }
      exact fun waits => absurd waits (electing_eraseIdx pledge.apart found)
    exact relocked.requestPeersToVote node.conf.listPeers
  have none : node.voteCtx.votes = [] := campaign.unvoted opened'
  obtain ⟨ctx, lastLogId, same | ⟨_, wins⟩⟩ := grantSelf_cases counted several started waits
  · have isAfter : node' = { ({ node with
        waiting := node.waiting.eraseIdx position
        voteCtx := node.voteCtx.setLastLogId tip
        persisted := (node.currentTerm, some node.serverId) } :
          ElectionNode P).requestPeersToVote node.conf.listPeers with voteCtx := ctx } := by
      rw [isNode, ← same]
      unfold ElectionNode.resumeElectSelf
      rw [if_neg (not_not.mpr rfl)]
      rfl
    rw [isAfter]
    exact ⟨asked.setVoteCtx lastLogId, rfl, rfl, rfl⟩
  · refine absurd ?_ wins
    intro vote member
    have member : vote ∈ node.voteCtx.votes := member
    rw [none] at member
    exact absurd member List.not_mem_nil

theorem Standing.step {action : Action P}
    (standing : Standing opened tip calm pastLed pastSent node) (pledge : Pledge stored node)
    (campaign : Campaign entry voted node) (several : ∀ server, ¬ entry.Elects {server})
    (allowed : Allowed action node) (writes : Writes action) (reads : ReadsTip tip calm action node)
    (stepCase : StepCase node action node') :
    Standing opened tip calm pastLed pastSent node' ∧ Turn node node' := by
  cases stepCase with
  | effect effect => exact ⟨standing.effect effect pledge, .same effect.modest.ledTerms effect.modest.leads⟩
  | @vote middle position lastLogId stepStored stored' waits before unvoted request previousTerm
      disrupted =>
      have middleStanding := standing.effect before pledge
      have below := (pledge.effect before).below
      cases stored' with
      | false => exact ⟨middleStanding.of_same rfl rfl, .same before.modest.ledTerms before.modest.leads⟩
      | true =>
          refine ⟨?_, .same before.modest.ledTerms before.modest.leads⟩
          exact { middleStanding with
            led := fun term member => (middleStanding.led term member).trans below
            sent := fun term member => (middleStanding.sent term member).trans below }
  | resume position lastLogId stepStored stored' waits waiting =>
      have isStored : stored' = true := writes
      subst isStored
      obtain ⟨isCalm, isTip⟩ := reads waiting
      subst isTip
      obtain ⟨after, state, term, ledTerms⟩ :=
        standing.resumeElectSelf pledge campaign several waiting waits isCalm rfl
      refine ⟨after, .same ledTerms ?_⟩
      intro leads
      rw [state] at leads
      exact ⟨leads, term⟩
  | answer rpc response stored' answers =>
      have closed := pledge.closed_of_answer allowed answers.term
      have written := pledge.own_written campaign answers.state closed
      have lastLogId := takeAnswer_lastLogId node rpc response
      have isTip := (standing.campaign answers.state closed).2
      obtain ⟨ctx, _, ⟨_, leads⟩ | ⟨_, asked, retries⟩⟩ := takeAnswer_cases answers
      · rw [leads]
        have promoted : Promoted node ({ node with voteCtx := ctx } : ElectionNode P).becomeLeader :=
          ⟨answers.state, closed, rfl, rfl, rfl, written, rfl⟩
        exact ⟨standing.becomeLeader written ctx, .promoted promoted⟩
      · rw [retries] at lastLogId ⊢
        have same : ctx.lastLogId = node.voteCtx.lastLogId := by
          rcases lastLogId with leads | same
          · have leads : node.state = .leader := leads
            rw [answers.state] at leads
            contradiction
          · exact same
        refine ⟨(standing.setVoteCtx same).requestPeersToVote written asked ?_, ?_⟩
        · intro isOpen
          exact same.trans (isTip isOpen)
        · exact .same rfl (fun leads => ⟨leads, rfl⟩)
  | timer position waits timedOut active =>
      have closed := pledge.closed_of_timer timedOut
      have armed : Armed node := Or.inr (List.mem_of_getElem? timedOut)
      have started := campaign.begun (Or.inr (Or.inr armed))
      have dropped := Keeps.drop_timeout node position
      obtain ⟨ctx, lastLogId, same | ⟨leads, wins⟩⟩ :=
        grantSelf_cases (campaign.keep dropped) several started waits
      · rw [same]
        exact ⟨(standing.keep dropped).setVoteCtx lastLogId,
          .same rfl (fun leads => ⟨leads, rfl⟩)⟩
      · -- a node that is not a candidate has only its own vote
        have isCandidate : node.state = .candidate := by
          by_contra other
          exact wins (fun vote member => campaign.lone active other armed vote member)
        have written := pledge.own_written campaign isCandidate closed
        rw [leads]
        refine ⟨?_, .promoted ⟨isCandidate, closed, rfl, rfl, rfl, written, rfl⟩⟩
        exact (standing.keep dropped).becomeLeader written ctx

theorem grantSelf_kept (node : ElectionNode P) (waits : Bool) :
    (node.grantSelf .vote waits).currentTerm = node.currentTerm ∧
      (node.grantSelf .vote waits).voteRpcs = node.voteRpcs := by
  unfold ElectionNode.grantSelf
  simp only
  split_ifs <;> exact ⟨rfl, rfl⟩

theorem StepCase.grows {action : Action P} (stepCase : StepCase node action node')
    (pledge : Pledge stored node) :
    node.currentTerm ≤ node'.currentTerm ∧ node.persisted.1 ≤ node'.persisted.1 ∧
      node.voteRpcs ⊆ node'.voteRpcs := by
  cases stepCase with
  | effect effect =>
      have modest := effect.modest
      rw [modest.voteRpcs]
      exact ⟨modest.term, (modest.below pledge.below).1, List.Subset.refl _⟩
  | @vote middle position lastLogId stepStored stored' waits before unvoted request previousTerm
      disrupted =>
      have modest := before.modest
      obtain ⟨notLower, below⟩ := modest.below pledge.below
      have voteRpcs : node.voteRpcs ⊆ middle.voteRpcs := by
        rw [modest.voteRpcs]
        exact List.Subset.refl _
      cases stored' with
      | true => exact ⟨modest.term, notLower.trans below, voteRpcs⟩
      | false => exact ⟨modest.term, notLower, voteRpcs⟩
  | resume position lastLogId stepStored stored' waits waiting =>
      have persisted := resumeElectSelf_persisted
        { node with waiting := node.waiting.eraseIdx position } lastLogId stored' waits
      unfold ElectionNode.resumeElectSelf at persisted ⊢
      rw [if_neg (not_not.mpr rfl)] at persisted ⊢
      cases stored' with
      | true =>
          rw [if_pos rfl] at persisted ⊢
          rw [(grantSelf_kept _ _).1, (grantSelf_kept _ _).2, persisted]
          exact ⟨le_refl _, pledge.below, List.subset_append_left _ _⟩
      | false => exact ⟨le_refl _, le_refl _, List.subset_append_left _ _⟩
  | answer rpc response stored' answers =>
      obtain ⟨ctx, _, ⟨_, leads⟩ | ⟨_, asked, retries⟩⟩ := takeAnswer_cases answers
      · rw [leads]
        exact ⟨le_refl _, le_refl _, List.Subset.refl _⟩
      · rw [retries]
        exact ⟨le_refl _, le_refl _, List.subset_append_left _ _⟩
  | timer position waits timedOut active =>
      rw [(grantSelf_kept _ _).1, (grantSelf_kept _ _).2, grantSelf_persisted]
      exact ⟨le_refl _, le_refl _, List.Subset.refl _⟩

end ElectionNode

end QuorumKit
