/-
Requests for votes that a node has still to answer.

`handle_request_vote_request` waits for the last log id of the node, and goes on only in
the term in which it was called.  What it then writes is a vote for the sender, in a term
that is not above that of the request.
-/

import QuorumKit.Node.Campaign

namespace QuorumKit

namespace ElectionNode

variable {P : Type}

def requested? : Waiting P → Option (RequestVoteRequest P × Nat)
  | .requestVote request previousTerm => some (request, previousTerm)
  | _ => none

def requested (node : ElectionNode P) : List (RequestVoteRequest P × Nat) :=
  node.waiting.filterMap requested?

theorem requested_snoc {node node' : ElectionNode P} {call : Waiting P}
    (added : node'.waiting = node.waiting ++ [call]) (other : requested? call = none) :
    node'.requested = node.requested := by
  unfold requested
  rw [added, List.filterMap_append, List.filterMap_cons_none other, List.filterMap_nil,
    List.append_nil]

@[simp] theorem stepDown_requested (node : ElectionNode P) (term : Nat) (stored : Bool) :
    (node.stepDown term stored).requested = node.requested := by
  by_cases active : node.state.isActive = true
  · obtain ⟨preVoteCtx, same⟩ := stepDown_active active term stored
    rw [same]
    rfl
  · rw [stepDown_inactive (Bool.eq_false_of_not_eq_true active)]

variable [DecidableEq P]

@[simp] theorem electSelf_requested (node : ElectionNode P) (oldLeaderSteppedDown : Bool) :
    (node.electSelf oldLeaderSteppedDown).requested = node.requested := by
  unfold ElectionNode.electSelf
  split
  · rfl
  · exact requested_snoc rfl rfl

@[simp] theorem preVote_requested (node : ElectionNode P) (triggered installing : Bool) :
    (node.preVote triggered installing).requested = node.requested := by
  unfold ElectionNode.preVote
  split_ifs
  · rfl
  · exact requested_snoc rfl rfl
  · rfl

theorem grantSelf_requested (node : ElectionNode P) (kind : VoteKind) (waits : Bool) :
    (node.grantSelf kind waits).requested = node.requested := by
  unfold ElectionNode.grantSelf
  cases kind with
  | preVote =>
      simp only
      split_ifs
      · rfl
      · exact electSelf_requested _ _
      · rfl
  | vote =>
      simp only
      split_ifs <;> rfl

theorem resumeRequestVote_requested (node : ElectionNode P)
    (request : RequestVoteRequest P) (previousTerm : Nat) (lastLogId : LogId)
    (stepStored stored waits : Bool) :
    (node.resumeRequestVote request previousTerm lastLogId stepStored stored waits).requested =
      node.requested := by
  have voted (checked : ElectionNode P) :
      (checked.voteFor request stepStored stored).requested = checked.requested := by
    unfold ElectionNode.voteFor
    split
    · refine Eq.trans ?_ (stepDown_requested checked request.term stepStored)
      cases stored <;> rfl
    · rfl
  unfold ElectionNode.resumeRequestVote
  simp only
  split_ifs
  · rfl
  · rfl
  · exact (voted _).trans (stepDown_requested _ _ _)
  · exact voted _
  · exact stepDown_requested _ _ _
  · rfl

omit [DecidableEq P] in
@[simp] theorem checkStepDown_requested (node : ElectionNode P) (requestTerm : Nat) (serverId : P)
    (stored : Bool) :
    (node.checkStepDown requestTerm serverId stored).requested = node.requested := by
  unfold ElectionNode.checkStepDown
  simp only
  split_ifs
  · exact stepDown_requested _ _ _
  · exact stepDown_requested _ _ _
  · rfl
  · rfl

theorem handlePreVoteResponse_requested (node : ElectionNode P) (rpc : VoteRpc P)
    (response : RequestVoteResponse) (stored : Bool) :
    (node.handlePreVoteResponse rpc response stored).requested = node.requested := by
  have counted (checked : ElectionNode P) (peers : List P) :
      (checked.grantPreVotes peers).requested = checked.requested := by
    obtain ⟨ctx, counted⟩ := grantPreVotes_eq peers checked
    rw [counted]
    rfl
  unfold ElectionNode.handlePreVoteResponse
  simp only
  split_ifs
  · rfl
  · rfl
  · rfl
  · exact stepDown_requested _ _ _
  · rfl
  · rfl
  · exact (electSelf_requested _ _).trans (counted _ _)
  · exact counted _ _

theorem step_requested {action : Action P} {node node' : ElectionNode P}
    (stepped : step action node = some node') :
    ∀ call ∈ node'.requested, call ∈ node.requested ∨
      action = .requestVoteRequest call.1 ∧ call.2 = node.currentTerm ∧
        node.currentTerm ≤ call.1.term := by
  intro call member
  cases action with
  | resume position lastLogId stepStored stored waits =>
      obtain ⟨waiting, _, rfl⟩ := Option.map_eq_some_iff.mp stepped
      have fewer : ({ node with waiting := node.waiting.eraseIdx position } :
          ElectionNode P).requested.Sublist node.requested :=
        (List.eraseIdx_sublist _ _).filterMap _
      refine Or.inl (fewer.subset ?_)
      cases waiting with
      | preVote oldTerm triggered =>
          simp only [ElectionNode.resumePreVote] at member
          split at member
          · exact member
          · rwa [grantSelf_requested] at member
      | electSelf oldTerm =>
          simp only [ElectionNode.resumeElectSelf] at member
          split_ifs at member
          · exact member
          · rwa [grantSelf_requested] at member
          · exact member
      | requestVote request previousTerm => rwa [resumeRequestVote_requested] at member
  | requestVoteRequest request =>
      obtain rfl := Option.some.inj stepped
      unfold ElectionNode.handleRequestVoteRequest at member
      split_ifs at member with active stale
      · exact Or.inl member
      · have waits : call ∈ node.requested ++ [(request, node.currentTerm)] := by
          unfold requested at member ⊢
          rw [List.filterMap_append] at member
          exact member
        rcases List.mem_append.mp waits with former | new
        · exact Or.inl former
        · rw [List.mem_singleton.mp new]
          exact Or.inr ⟨rfl, rfl, not_lt.mp stale⟩
      · exact Or.inl member
  | start =>
      simp only [ElectionNode.step, ElectionNode.start] at stepped
      split_ifs at stepped
      · obtain rfl := Option.some.inj stepped
        rw [electSelf_requested] at member
        exact Or.inl member
      · obtain rfl := Option.some.inj stepped
        exact Or.inl member
  | grantSelfTimeout kind =>
      obtain ⟨version, _, rfl⟩ := Option.map_eq_some_iff.mp stepped
      cases kind <;> exact Or.inl member
  | grantSelfTimedout position waits =>
      obtain ⟨arg, _, rfl⟩ := Option.map_eq_some_iff.mp stepped
      simp only at member
      split at member
      · exact Or.inl member
      · rw [grantSelf_requested] at member
        exact Or.inl member
  | afterShutdown =>
      simp only [ElectionNode.step, ElectionNode.afterShutdown] at stepped
      split_ifs at stepped
      obtain rfl := Option.some.inj stepped
      exact Or.inl member
  | setConfiguration conf =>
      obtain rfl := Option.some.inj stepped
      exact Or.inl member
  | preVoteResponse rpc response stored =>
      obtain rfl := Option.some.inj stepped
      exact Or.inl (handlePreVoteResponse_requested node rpc response stored ▸ member)
  | _ =>
      -- the others leave the calls that wait for a vote alone
      obtain rfl := Option.some.inj stepped
      refine Or.inl ((congrArg (call ∈ ·) ?_).mp member)
      simp only [ElectionNode.handleElectionTimeout, ElectionNode.handleVoteTimeout,
        ElectionNode.handleRequestVoteResponse, ElectionNode.handleTimeoutNowRequest,
        ElectionNode.handleLeaderRequest, ElectionNode.resetPeers, ElectionNode.increaseTermTo,
        ElectionNode.handleStepdownTimeout, ElectionNode.leaseExpired,
        ElectionNode.onConfigurationChangeDone, ElectionNode.transferLeadershipTo,
        ElectionNode.handleTransferTimeout, ElectionNode.vote, ElectionNode.onError,
        ElectionNode.shutdown]
      split_ifs <;> first
        | rfl
        | exact stepDown_requested _ _ _
        | exact electSelf_requested _ _
        | exact preVote_requested _ _ _
        | exact checkStepDown_requested _ _ _ _
        | simp only [stepDown_requested, preVote_requested, checkStepDown_requested]

variable {configures : ConfigurationEntry P → Prop} {node node' : ElectionNode P}

structure Modest (node node' : ElectionNode P) : Prop where
  term : node.currentTerm ≤ node'.currentTerm
  below : node.persisted.1 ≤ node.currentTerm →
    node.persisted.1 ≤ node'.persisted.1 ∧ node'.persisted.1 ≤ node'.currentTerm
  persisted : node'.persisted = node.persisted ∨ node'.persisted.2 = none
  voteRpcs : node'.voteRpcs = node.voteRpcs
  ledTerms : node'.ledTerms = node.ledTerms
  leads : node'.state.leads = true →
    node.state.leads = true ∧ node'.currentTerm = node.currentTerm

omit [DecidableEq P] in
theorem Modest.of_same (same : (node'.currentTerm, node'.persisted, node'.voteRpcs,
    node'.candidacies) = (node.currentTerm, node.persisted, node.voteRpcs, node.candidacies))
    (leads : node'.state.leads = true → node.state.leads = true) : Modest node node' := by
  simp only [Prod.mk.injEq] at same
  obtain ⟨term, persisted, voteRpcs, candidacies⟩ := same
  refine ⟨term.ge, ?_, Or.inl persisted, voteRpcs, ?_, fun leader => ⟨leads leader, term⟩⟩
  · rw [term, persisted]
    exact fun below => ⟨le_refl _, below⟩
  · unfold ElectionNode.ledTerms
    rw [candidacies]

omit [DecidableEq P] in
theorem Modest.stepDown (node : ElectionNode P) (term : Nat) (stored : Bool) :
    Modest node (node.stepDown term stored) := by
  by_cases active : node.state.isActive = true
  · obtain ⟨preVoteCtx, same⟩ := stepDown_active active term stored
    rw [same]
    refine ⟨le_max_left _ _, ?_, ?_, rfl, rfl, fun leads => absurd leads Bool.false_ne_true⟩
    · simp only
      split_ifs with raised
      · exact fun below => ⟨below.trans raised.1.le, le_max_right _ _⟩
      · exact fun below => ⟨le_refl _, below.trans (le_max_left _ _)⟩
    · simp only
      split_ifs
      · exact Or.inr rfl
      · exact Or.inl rfl
  · rw [stepDown_inactive (Bool.eq_false_of_not_eq_true active)]
    exact .of_same rfl id

omit [DecidableEq P] in
theorem Keeps.leads (keeps : Keeps node node') (leads : node'.state.leads = true) :
    node.state.leads = true := by
  rcases keeps.state with same | inactive | ⟨former, _⟩
  · rwa [same] at leads
  · unfold State.leads at leads
    unfold State.isActive at inactive
    cases isState : node'.state <;> rw [isState] at leads inactive <;> contradiction
  · exact former

theorem Effect.modest (effect : Effect configures node node') : Modest node node' := by
  induction effect with
  | keep keeps =>
      have polled := keeps.polls.polled
      simp only [ElectionNode.polled, Prod.mk.injEq] at polled
      obtain ⟨_, term, _, persisted, _, voteRpcs, _, candidacies⟩ := polled
      exact .of_same (by rw [term, persisted, voteRpcs, candidacies]) keeps.leads
  | configure node may => exact .of_same rfl id
  | stepDown node term stored => exact .stepDown node term stored
  | electSelf node oldLeaderSteppedDown =>
      unfold ElectionNode.electSelf
      split
      · exact .of_same rfl id
      · exact ⟨Nat.le_succ _, fun below => ⟨le_refl _, below.trans (Nat.le_succ _)⟩, Or.inl rfl, rfl,
          rfl, fun leads => absurd leads Bool.false_ne_true⟩
  | reply node request previousTerm rejectedByLease disrupted => exact .of_same rfl id
  | expireVote node armed => exact .of_same rfl id
  | trans _ _ first second =>
      refine ⟨first.term.trans second.term, ?_, ?_, second.voteRpcs.trans first.voteRpcs,
        second.ledTerms.trans first.ledTerms, ?_⟩
      · intro below
        obtain ⟨notLower, middle⟩ := first.below below
        exact ⟨notLower.trans (second.below middle).1, (second.below middle).2⟩
      · rcases second.persisted with same | unvoted
        · rw [same]
          exact first.persisted
        · exact Or.inr unvoted
      · intro leads
        obtain ⟨middle, sameTerm⟩ := second.leads leads
        obtain ⟨former, alsoSame⟩ := first.leads middle
        exact ⟨former, sameTerm.trans alsoSame⟩

inductive WrittenVote (node node' : ElectionNode P) (position : Nat) (lastLogId : LogId) : P → Prop
  | own (waiting : node.waiting[position]? = some (.electSelf node.currentTerm))
      (persisted : node'.persisted = (node.currentTerm, some node.serverId)) :
      WrittenVote node node' position lastLogId node.serverId
  | other (request : RequestVoteRequest P)
      (waiting : node.waiting[position]? = some (.requestVote request node.currentTerm))
      (upToDate : lastLogId ≤ request.lastLogId)
      (term : node'.persisted.1 = node.currentTerm ∨ node'.persisted.1 = request.term) :
      WrittenVote node node' position lastLogId request.serverId

omit [DecidableEq P] in
/-- The term of the vote in `handle_request_vote_request`; a node that is not active any more
keeps its own term. -/
theorem voteFor_persisted (node : ElectionNode P) (request : RequestVoteRequest P)
    (stepStored stored : Bool) {peer : P} :
    (node.voteFor request stepStored stored).persisted.2 = some peer →
      (node.voteFor request stepStored stored).persisted = node.persisted ∨
        peer = request.serverId ∧
          (node.voteFor request stepStored stored).persisted.1 =
            (node.stepDown request.term stepStored).currentTerm := by
  intro isVote
  unfold ElectionNode.voteFor at isVote ⊢
  split at isVote
  · rename_i unvoted
    rw [if_pos unvoted]
    cases stored with
    | true => exact Or.inr ⟨(Option.some.inj isVote).symm, rfl⟩
    | false =>
        rcases (Modest.stepDown node request.term stepStored).persisted with same | open_
        · exact Or.inl same
        · have none : (node.stepDown request.term stepStored).persisted.2 = some peer := isVote
          rw [open_] at none
          contradiction
  · rename_i voted
    rw [if_neg voted]
    exact Or.inl rfl

omit [DecidableEq P] in
theorem stepDown_currentTerm (node : ElectionNode P) (term : Nat) (stored : Bool) :
    (node.stepDown term stored).currentTerm = node.currentTerm ∨
      (node.stepDown term stored).currentTerm = term ∧ node.currentTerm < term := by
  by_cases active : node.state.isActive = true
  · obtain ⟨preVoteCtx, same⟩ := stepDown_active active term stored
    rw [same]
    rcases Nat.lt_or_ge node.currentTerm term with higher | notHigher
    · exact Or.inr ⟨max_eq_right higher.le, higher⟩
    · exact Or.inl (max_eq_left notHigher)
  · rw [stepDown_inactive (Bool.eq_false_of_not_eq_true active)]
    exact Or.inl rfl

theorem resumeRequestVote_persisted (node : ElectionNode P) (request : RequestVoteRequest P)
    (previousTerm : Nat) (lastLogId : LogId) (stepStored stored waits : Bool) {peer : P}
    (isVote : (node.resumeRequestVote request previousTerm lastLogId stepStored stored
      waits).persisted.2 = some peer) :
    (node.resumeRequestVote request previousTerm lastLogId stepStored stored waits).persisted =
        node.persisted ∨
      previousTerm = node.currentTerm ∧ lastLogId ≤ request.lastLogId ∧ peer = request.serverId ∧
        ((node.resumeRequestVote request previousTerm lastLogId stepStored stored
            waits).persisted.1 = node.currentTerm ∨
          (node.resumeRequestVote request previousTerm lastLogId stepStored stored
            waits).persisted.1 = request.term) := by
  unfold ElectionNode.resumeRequestVote at isVote ⊢
  by_cases sameTerm : previousTerm ≠ node.currentTerm
  · rw [if_pos sameTerm]
    exact Or.inl rfl
  rw [if_neg sameTerm] at isVote ⊢
  simp only at isVote ⊢
  by_cases waiting : waits = true
  · rw [if_pos waiting]
    exact Or.inl rfl
  rw [if_neg waiting] at isVote ⊢
  have raisedStorage : (if node.currentTerm < request.term then node.stepDown request.term stepStored
      else node).persisted = node.persisted ∨ (if node.currentTerm < request.term then
        node.stepDown request.term stepStored else node).persisted.2 = none := by
    split
    · exact (Modest.stepDown _ _ _).persisted
    · exact Or.inl rfl
  have raisedTerm : (if node.currentTerm < request.term then node.stepDown request.term stepStored
      else node).currentTerm = node.currentTerm ∨ (if node.currentTerm < request.term then
        node.stepDown request.term stepStored else node).currentTerm = request.term := by
    split
    · exact (stepDown_currentTerm _ _ _).imp_right And.left
    · exact Or.inl rfl
  generalize (if node.currentTerm < request.term then node.stepDown request.term stepStored
    else node) = raised at raisedStorage raisedTerm isVote ⊢
  by_cases isOk : lastLogId ≤ request.lastLogId
  · rw [if_pos (decide_eq_true isOk)] at isVote ⊢
    rcases voteFor_persisted raised request stepStored stored isVote with same | ⟨isPeer, term⟩
    · have same : ((raised.voteFor request stepStored stored).reply request previousTerm false
          (decide (node.currentTerm < request.term ∧ node.state.leads = true))).persisted =
            raised.persisted := same
      rw [same] at isVote ⊢
      rcases raisedStorage with kept | open_
      · exact Or.inl kept
      · rw [open_] at isVote
        contradiction
    · refine Or.inr ⟨not_not.mp sameTerm, isOk, isPeer, ?_⟩
      have term : ((raised.voteFor request stepStored stored).reply request previousTerm false
          (decide (node.currentTerm < request.term ∧ node.state.leads = true))).persisted.1 =
            (raised.stepDown request.term stepStored).currentTerm := term
      rw [term]
      rcases stepDown_currentTerm raised request.term stepStored with same | ⟨isRequest, _⟩
      · rw [same]
        exact raisedTerm
      · exact Or.inr isRequest
  · rw [if_neg (by rwa [decide_eq_true_eq])] at isVote ⊢
    rcases raisedStorage with kept | open_
    · exact Or.inl kept
    · have none : raised.persisted.2 = some peer := isVote
      rw [open_] at none
      contradiction

theorem vote_written {action : Action P} (stepped : step action node = some node') {peer : P}
    (isVote : node'.persisted.2 = some peer) :
    node'.persisted = node.persisted ∨
      ∃ position lastLogId stepStored stored waits,
        action = .resume position lastLogId stepStored stored waits ∧
          WrittenVote node node' position lastLogId peer := by
  cases step_cases stepped with
  | effect effect =>
      rcases effect.modest.persisted with same | open_
      · exact Or.inl same
      · rw [open_] at isVote
        contradiction
  | vote position lastLogId stepStored stored waits before unvoted request previousTerm disrupted =>
      obtain ⟨call, found, isNode⟩ := Option.map_eq_some_iff.mp stepped
      cases call with
      | preVote oldTerm triggered =>
          have effect : Effect (fun _ => False) _ _ := .resumePreVote
            { node with waiting := node.waiting.eraseIdx position } oldTerm triggered waits lastLogId
          rw [← isNode] at isVote ⊢
          rcases effect.modest.persisted with same | open_
          · exact Or.inl same
          · have none : _ = some peer := isVote
            rw [open_] at none
            contradiction
      | electSelf oldTerm =>
          by_cases same : oldTerm = node.currentTerm
          · subst same
            have persisted := resumeElectSelf_persisted
              { node with waiting := node.waiting.eraseIdx position } lastLogId stored waits
            rw [← isNode] at isVote ⊢
            simp only at isVote ⊢
            rw [persisted] at isVote ⊢
            cases stored with
            | false => exact Or.inl rfl
            | true =>
                obtain rfl := Option.some.inj isVote
                refine Or.inr ⟨position, lastLogId, stepStored, true, waits, rfl, ?_⟩
                exact .own found persisted
          · refine Or.inl ?_
            rw [← isNode]
            simp only
            unfold ElectionNode.resumeElectSelf
            rw [if_pos same]
      | requestVote asked oldTerm =>
          rw [← isNode] at isVote ⊢
          rcases resumeRequestVote_persisted
            { node with waiting := node.waiting.eraseIdx position } asked oldTerm lastLogId
            stepStored stored waits isVote with same | ⟨isTerm, isOk, isPeer, term⟩
          · exact Or.inl same
          · have isTerm : oldTerm = node.currentTerm := isTerm
            subst isTerm
            subst isPeer
            exact Or.inr ⟨position, lastLogId, stepStored, stored, waits, rfl,
              .other asked found isOk term⟩
  | resume position lastLogId stepStored stored waits waiting =>
      have persisted := resumeElectSelf_persisted
        { node with waiting := node.waiting.eraseIdx position } lastLogId stored waits
      cases stored with
      | false => exact Or.inl persisted
      | true =>
          have persisted : _ = (node.currentTerm, some node.serverId) := persisted
          rw [persisted] at isVote
          obtain rfl := Option.some.inj isVote
          exact Or.inr ⟨position, lastLogId, stepStored, true, waits, rfl, .own waiting persisted⟩
  | answer rpc response stored answers =>
      refine Or.inl ?_
      obtain ⟨ctx, _, ⟨_, leads⟩ | ⟨_, asked, retries⟩⟩ := takeAnswer_cases answers
      · rw [leads]
        rfl
      · rw [retries]
        rfl
  | timer position waits timedOut active =>
      exact Or.inl (grantSelf_persisted { node with timedOut := node.timedOut.eraseIdx position }
        waits)

end ElectionNode

end QuorumKit
