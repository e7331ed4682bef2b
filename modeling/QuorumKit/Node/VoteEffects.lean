/-
What a call can do to the votes of a node.

Most calls are made of a few effects: stepping down, starting an election, writing a
vote for a candidate and answering.  The votes for the node itself are counted at three
places only, where `elect_self` goes on, where a response is counted and where the timer
of `grant_self` goes off.  Every invariant of votes is a case analysis over these.
-/

import QuorumKit.Node.LiveCandidacy

namespace QuorumKit

/-- The term of an `elect_self` that waits. -/
def Waiting.electing? {P : Type} : Waiting P → Option Nat
  | .electSelf oldTerm => some oldTerm
  | _ => none

def VoteBallotCtx.tally {P : Type} [DecidableEq P] (ctx : VoteBallotCtx P) (term : Nat)
    (peers : List P) : VoteBallotCtx P :=
  peers.foldl (fun counted peer => counted.grant peer term) ctx

namespace ElectionNode

variable {P : Type} [DecidableEq P]

/-! ### Effects -/

/-- The terms of the calls of `elect_self` that wait for the last log id. -/
def electing (node : ElectionNode P) : List Nat := node.waiting.filterMap Waiting.electing?

/-- The versions with which timers of the vote context have gone off. -/
def voteTimeouts (node : ElectionNode P) : List Nat :=
  node.timedOut.filterMap (fun arg => if arg.1 = .vote then some arg.2 else none)

def polled (node : ElectionNode P) :
    P × Nat × Option P × (Nat × Option P) × VoteBallotCtx P × List (VoteRpc P) ×
      List (RequestVoteRequest P × RequestVoteResponse) × List (Candidacy P) :=
  (node.serverId, node.currentTerm, node.votedId, node.persisted, node.voteCtx, node.voteRpcs,
    node.replies, node.candidacies)

structure SamePolls (node node' : ElectionNode P) : Prop where
  polled : node'.polled = node.polled
  electing : node'.electing.Sublist node.electing
  waits : node.currentTerm ∈ node.electing → node.currentTerm ∈ node'.electing
  voteTimeouts : node'.voteTimeouts.Sublist node.voteTimeouts

/-- The state stays, or goes on leading, or is not active any more. -/
def Restates (state state' : State) : Prop :=
  state' = state ∨ state'.isActive = false ∨ state.leads = true ∧ state'.leads = true

structure Keeps (node node' : ElectionNode P) : Prop where
  polls : SamePolls node node'
  conf : node'.conf = node.conf
  state : Restates node.state node'.state

def castVote (node : ElectionNode P) (peer : P) (stored : Bool) : ElectionNode P :=
  { node with votedId := if stored then some peer else none }.setTermAndVotedfor stored
    node.currentTerm (some peer)

def expireVote (node : ElectionNode P) (version : Nat) : ElectionNode P :=
  { node with
    voteCtx := node.voteCtx.stopGrantSelfTimer
    timedOut := node.timedOut ++ [(.vote, version)] }

inductive Effect (configures : ConfigurationEntry P → Prop) :
    ElectionNode P → ElectionNode P → Prop
  | keep {node node' : ElectionNode P} (keeps : Keeps node node') : Effect configures node node'
  | configure (node : ElectionNode P) {conf : ConfigurationEntry P} (may : configures conf) :
      Effect configures node { node with conf := conf }
  | stepDown (node : ElectionNode P) (term : Nat) (stored : Bool) :
      Effect configures node (node.stepDown term stored)
  | electSelf (node : ElectionNode P) (oldLeaderSteppedDown : Bool) :
      Effect configures node (node.electSelf oldLeaderSteppedDown)
  | reply (node : ElectionNode P) (request : RequestVoteRequest P) (previousTerm : Nat)
      (rejectedByLease disrupted : Bool) :
      Effect configures node (node.reply request previousTerm rejectedByLease disrupted)
  | expireVote (node : ElectionNode P) {version : Nat}
      (armed : node.voteCtx.grantSelfArg = some version) :
      Effect configures node (node.expireVote version)
  | trans {node middle node' : ElectionNode P} (first : Effect configures node middle)
      (second : Effect configures middle node') : Effect configures node node'

/-- A response that `handle_request_vote_response` counts or reserves. -/
structure Answers (node : ElectionNode P) (rpc : VoteRpc P) (response : RequestVoteResponse) :
    Prop where
  version : rpc.ctxVersion = node.voteCtx.version
  state : node.state = .candidate
  term : rpc.term = node.currentTerm
  known : response.term ≤ node.currentTerm
  useful : response.granted = true ∨ response.rejectedByLease = true

def takeAnswer (node : ElectionNode P) (rpc : VoteRpc P) (response : RequestVoteResponse) :
    ElectionNode P :=
  let noted := { node with voteCtx := noteDisrupted node.voteCtx rpc response }
  if response.granted then
    let counted := noted.countVote rpc
    if counted.voteCtx.granted then counted.becomeLeader else counted.retryVoteOnReservedPeers
  else
    { noted with voteCtx := noted.voteCtx.reserve rpc.peerId }.retryVoteOnReservedPeers

def Configures : Action P → ConfigurationEntry P → Prop
  | .setConfiguration conf, entry => entry = conf
  | .resetPeers _ _ _, _ => True
  | _, _ => False

inductive StepCase (node : ElectionNode P) : Action P → ElectionNode P → Prop
  | effect {action : Action P} {node' : ElectionNode P}
      (effect : Effect (Configures action) node node') : StepCase node action node'
  | vote {middle : ElectionNode P} (position : Nat) (lastLogId : LogId)
      (stepStored stored waits : Bool) (before : Effect (fun _ => False) node middle)
      (unvoted : middle.votedId = none) (request : RequestVoteRequest P) (previousTerm : Nat)
      (disrupted : Bool) :
      StepCase node (.resume position lastLogId stepStored stored waits)
        ((middle.castVote request.serverId stored).reply request previousTerm false disrupted)
  | resume (position : Nat) (lastLogId : LogId) (stepStored stored waits : Bool)
      (waiting : node.waiting[position]? = some (.electSelf node.currentTerm)) :
      StepCase node (.resume position lastLogId stepStored stored waits)
        ({ node with waiting := node.waiting.eraseIdx position }.resumeElectSelf node.currentTerm
          lastLogId stored waits)
  | answer (rpc : VoteRpc P) (response : RequestVoteResponse) (stored : Bool)
      (answers : Answers node rpc response) :
      StepCase node (.requestVoteResponse rpc response stored) (node.takeAnswer rpc response)
  | timer (position : Nat) (waits : Bool)
      (timedOut : node.timedOut[position]? = some (.vote, node.voteCtx.version))
      (active : node.state.isActive = true) :
      StepCase node (.grantSelfTimedout position waits)
        ({ node with timedOut := node.timedOut.eraseIdx position }.grantSelf .vote waits)

variable {configures : ConfigurationEntry P → Prop} {node node' : ElectionNode P}

omit [DecidableEq P] in
theorem Keeps.refl (node : ElectionNode P) : Keeps node node :=
  ⟨⟨rfl, List.Sublist.refl _, id, List.Sublist.refl _⟩, rfl, Or.inl rfl⟩

theorem Effect.refl (node : ElectionNode P) : Effect configures node node := .keep (.refl node)

theorem Effect.stepDownIf (condition : Bool) (term : Nat) (stored : Bool) :
    Effect configures node (if condition then node.stepDown term stored else node) := by
  cases condition with
  | false => exact .refl node
  | true => exact .stepDown node term stored

theorem Effect.then_keep {middle : ElectionNode P} (first : Effect configures node middle)
    (keeps : Keeps middle node') : Effect configures node node' := .trans first (.keep keeps)

omit [DecidableEq P] in
/-- A call takes the mutex again, and it is not `elect_self` in its own term. -/
theorem Keeps.relock {position : Nat} {call : Waiting P}
    (found : node.waiting[position]? = some call)
    (other : call.electing? ≠ some node.currentTerm) :
    Keeps node { node with waiting := node.waiting.eraseIdx position } := by
  refine ⟨⟨rfl, (List.eraseIdx_sublist _ _).filterMap _, ?_, List.Sublist.refl _⟩, rfl, Or.inl rfl⟩
  intro member
  obtain ⟨electing, waits, isTerm⟩ := List.mem_filterMap.mp member
  obtain ⟨place, isPlace⟩ := List.mem_iff_getElem?.mp waits
  refine List.mem_filterMap.mpr ⟨electing, ?_, isTerm⟩
  apply List.mem_eraseIdx_iff_getElem?.mpr
  refine ⟨place, ?_, isPlace⟩
  intro same
  rw [same, found] at isPlace
  exact other (Option.some.inj isPlace ▸ isTerm)

omit [DecidableEq P] in
theorem Keeps.drop_timeout (node : ElectionNode P) (position : Nat) :
    Keeps node { node with timedOut := node.timedOut.eraseIdx position } :=
  ⟨⟨rfl, List.Sublist.refl _, id, (List.eraseIdx_sublist _ _).filterMap _⟩, rfl, Or.inl rfl⟩

omit [DecidableEq P] in
theorem Keeps.wait (node : ElectionNode P) {call : Waiting P} (other : call.electing? = none) :
    Keeps node { node with waiting := node.waiting ++ [call] } := by
  have same : { node with waiting := node.waiting ++ [call] }.electing = node.electing := by
    unfold ElectionNode.electing
    rw [List.filterMap_append, List.filterMap_cons_none other, List.filterMap_nil, List.append_nil]
  refine ⟨⟨rfl, ?_, ?_, List.Sublist.refl _⟩, rfl, Or.inl rfl⟩
  · rw [same]
  · rw [same]
    exact id

omit [DecidableEq P] in
theorem Keeps.expirePreVote (node : ElectionNode P) (version : Nat) (ctx : VoteBallotCtx P) :
    Keeps node
      { node with preVoteCtx := ctx, timedOut := node.timedOut ++ [(.preVote, version)] } := by
  refine ⟨⟨rfl, List.Sublist.refl _, id, ?_⟩, rfl, Or.inl rfl⟩
  unfold ElectionNode.voteTimeouts
  rw [List.filterMap_append, List.filterMap_cons_none (by simp), List.filterMap_nil,
    List.append_nil]

omit [DecidableEq P] in
theorem Keeps.restate (node : ElectionNode P) {state : State} (restates : Restates node.state state) :
    Keeps node { node with state := state } :=
  ⟨⟨rfl, List.Sublist.refl _, id, List.Sublist.refl _⟩, rfl, restates⟩

/-! ### Calls -/

theorem Effect.preVote (node : ElectionNode P) (triggered installing : Bool) :
    Effect configures node (node.preVote triggered installing) := by
  unfold ElectionNode.preVote
  split
  · exact .refl node
  · split
    · exact .refl node
    · exact .keep (.wait node rfl)

theorem Effect.handleElectionTimeout (node : ElectionNode P) (expired installing : Bool) :
    Effect configures node (node.handleElectionTimeout expired installing) := by
  unfold ElectionNode.handleElectionTimeout
  split
  · exact .refl node
  · split
    · exact .refl node
    · have noted : Keeps node { node with voteTriggered := false, leaderId := none } :=
        ⟨⟨rfl, List.Sublist.refl _, id, List.Sublist.refl _⟩, rfl, Or.inl rfl⟩
      exact .trans (.keep noted) (.preVote _ _ _)

theorem Effect.handleVoteTimeout (node : ElectionNode P) (stepsDown installing stored : Bool) :
    Effect configures node (node.handleVoteTimeout stepsDown installing stored) := by
  unfold ElectionNode.handleVoteTimeout
  split
  · exact .refl node
  · split
    · exact .trans (.stepDown node _ _) (.preVote _ _ _)
    · exact .electSelf node _

omit [DecidableEq P] in
theorem Keeps.setPreVote (node : ElectionNode P) (ctx : VoteBallotCtx P) :
    Keeps node (node.setCtx .preVote ctx) :=
  ⟨⟨rfl, List.Sublist.refl _, id, List.Sublist.refl _⟩, rfl, Or.inl rfl⟩

theorem Effect.grantSelfPreVote (node : ElectionNode P) (waits : Bool) :
    Effect configures node (node.grantSelf .preVote waits) := by
  unfold ElectionNode.grantSelf
  split
  · exact .keep (.setPreVote node _)
  · simp only
    split
    · exact .keep (.setPreVote node _)
    · exact .trans (.keep (.setPreVote node _)) (.electSelf _ _)

theorem Effect.resumePreVote (node : ElectionNode P) (oldTerm : Nat) (triggered waits : Bool)
    (lastLogId : LogId) :
    Effect configures node (node.resumePreVote oldTerm triggered lastLogId waits) := by
  unfold ElectionNode.resumePreVote
  split
  · exact .refl node
  · refine .trans (.keep ?_) (.grantSelfPreVote _ _)
    exact ⟨⟨rfl, List.Sublist.refl _, id, List.Sublist.refl _⟩, rfl, Or.inl rfl⟩

omit [DecidableEq P] in
theorem voteFor_unvoted (unvoted : node.votedId = none) (request : RequestVoteRequest P)
    (stepStored stored : Bool) :
    (node.stepDown request.term stepStored).votedId = none ∧
      node.voteFor request stepStored stored =
        (node.stepDown request.term stepStored).castVote request.serverId stored := by
  constructor
  · by_cases active : node.state.isActive = true
    · obtain ⟨ctx, same⟩ := stepDown_active active request.term stepStored
      rw [same]
      simp only
      split
      · rfl
      · exact unvoted
    · rw [stepDown_inactive (Bool.eq_false_of_not_eq_true active)]
      exact unvoted
  · unfold ElectionNode.voteFor
    rw [if_pos unvoted]
    rfl

theorem resumeRequestVote_cases (node : ElectionNode P) (request : RequestVoteRequest P)
    (previousTerm : Nat) (lastLogId : LogId) (stepStored stored waits : Bool) :
    Effect configures node
        (node.resumeRequestVote request previousTerm lastLogId stepStored stored waits) ∨
      ∃ middle disrupted, Effect configures node middle ∧ middle.votedId = none ∧
        node.resumeRequestVote request previousTerm lastLogId stepStored stored waits =
          (middle.castVote request.serverId stored).reply request previousTerm false disrupted := by
  unfold ElectionNode.resumeRequestVote
  split
  · exact Or.inl (.reply node _ _ _ _)
  · simp only
    split
    · exact Or.inl (.reply node _ _ _ _)
    · have raised : Effect configures node
          (if node.currentTerm < request.term then node.stepDown request.term stepStored
            else node) := by
        split
        · exact .stepDown node _ _
        · exact .refl node
      generalize (if node.currentTerm < request.term then node.stepDown request.term stepStored
        else node) = checked at raised ⊢
      split
      · by_cases unvoted : checked.votedId = none
        · obtain ⟨follows, votes⟩ := voteFor_unvoted unvoted request stepStored stored
          rw [votes]
          exact Or.inr ⟨_, _, .trans raised (.stepDown _ _ _), follows, rfl⟩
        · have same : checked.voteFor request stepStored stored = checked := if_neg unvoted
          rw [same]
          exact Or.inl (.trans raised (.reply _ _ _ _ _))
      · exact Or.inl (.trans raised (.reply _ _ _ _ _))

theorem Effect.handleRequestVoteRequest (node : ElectionNode P) (request : RequestVoteRequest P) :
    Effect configures node (node.handleRequestVoteRequest request) := by
  unfold ElectionNode.handleRequestVoteRequest
  split
  · exact .refl node
  · split
    · exact .reply node _ _ _ _
    · exact .keep (.wait node rfl)

theorem Effect.handlePreVoteResponse (node : ElectionNode P) (rpc : VoteRpc P)
    (response : RequestVoteResponse) (stored : Bool) :
    Effect configures node (node.handlePreVoteResponse rpc response stored) := by
  unfold ElectionNode.handlePreVoteResponse
  split
  · exact .refl node
  · split
    · exact .refl node
    · split
      · exact .refl node
      · split
        · exact .stepDown node _ _
        · split
          · exact .refl node
          · split
            · exact .refl node
            · simp only
              obtain ⟨ctx, counted⟩ := grantPreVotes_eq
                (popPreVotes (noteDisrupted node.preVoteCtx rpc response) rpc response).1
                { node with
                  preVoteCtx :=
                    (popPreVotes (noteDisrupted node.preVoteCtx rpc response) rpc response).2 }
              rw [counted]
              have same : Keeps node { node with preVoteCtx := ctx } := .setPreVote node ctx
              split
              · exact .trans (.keep same) (.electSelf _ _)
              · exact .keep same

theorem Effect.checkStepDown (node : ElectionNode P) (requestTerm : Nat) (serverId : P)
    (stored : Bool) : Effect configures node (node.checkStepDown requestTerm serverId stored) := by
  unfold ElectionNode.checkStepDown
  have settled (checked : ElectionNode P) : Effect configures checked
      (if checked.leaderId = none then checked.setLeaderId serverId else checked) := by
    split
    · exact .keep ⟨⟨rfl, List.Sublist.refl _, id, List.Sublist.refl _⟩, rfl, Or.inl rfl⟩
    · exact .refl checked
  refine .trans ?_ (settled _)
  split
  · exact .stepDown node _ _
  · exact .refl node

theorem Effect.handleLeaderRequest (node : ElectionNode P) (term : Nat) (serverId : P)
    (renews stored : Bool) :
    Effect configures node (node.handleLeaderRequest term serverId renews stored) := by
  unfold ElectionNode.handleLeaderRequest
  have checked : Effect configures node (node.checkStepDown term serverId stored) :=
    .checkStepDown node _ _ _
  split
  · exact .refl node
  · split
    · exact .refl node
    · simp only
      split
      · exact .trans checked (.stepDown _ _ _)
      · split
        · exact checked.then_keep
            ⟨⟨rfl, List.Sublist.refl _, id, List.Sublist.refl _⟩, rfl, Or.inl rfl⟩
        · exact checked

theorem Effect.resetPeers (node : ElectionNode P) (newPeers : Configuration P) (busy stored : Bool)
    (may : ∀ conf, configures conf) :
    Effect configures node (node.resetPeers newPeers busy stored) := by
  unfold ElectionNode.resetPeers
  split_ifs
  · exact .refl node
  · exact .trans (.configure node (may _)) (.stepDown _ _ _)
  · exact .refl node
  · exact .refl node
  · exact .trans (.configure node (may _)) (.stepDown _ _ _)
  · exact .refl node

theorem Effect.handleStepdownTimeout (node : ElectionNode P)
    (witness dead oldDead stored : Bool) :
    Effect configures node (node.handleStepdownTimeout witness dead oldDead stored) := by
  unfold ElectionNode.handleStepdownTimeout
  split
  · exact .refl node
  · have first : Effect configures node
        (if witness then node.stepDown node.currentTerm stored else node) := .stepDownIf _ _ _
    exact .trans (.trans first (.stepDownIf dead _ _)) (.stepDownIf oldDead _ _)

theorem Effect.grantSelfTimeout {kind : VoteKind}
    (stepped : node.grantSelfTimeout kind = some node') : Effect configures node node' := by
  obtain ⟨version, armed, rfl⟩ := Option.map_eq_some_iff.mp stepped
  cases kind with
  | preVote => exact .keep (.expirePreVote node version _)
  | vote => exact .expireVote node armed

/-! ### Steps -/

theorem StepCase.grantSelfTimedout {position : Nat} {waits : Bool}
    (stepped : node.handleGrantSelfTimedout position waits = some node') :
    StepCase node (.grantSelfTimedout position waits) node' := by
  obtain ⟨⟨kind, version⟩, found, rfl⟩ := Option.map_eq_some_iff.mp stepped
  have dropped : Keeps node { node with timedOut := node.timedOut.eraseIdx position } :=
    .drop_timeout node position
  simp only
  split
  · exact .effect (.keep dropped)
  · rename_i live
    rw [not_or, not_not, not_not] at live
    cases kind with
    | preVote => exact .effect (.trans (.keep dropped) (.grantSelfPreVote _ _))
    | vote =>
        have same : node.voteCtx.version = version := live.2
        subst same
        exact .timer position waits found live.1

theorem handleRequestVoteResponse_answers {rpc : VoteRpc P} {response : RequestVoteResponse}
    (answers : Answers node rpc response) (stored : Bool) :
    node.handleRequestVoteResponse rpc response stored = node.takeAnswer rpc response := by
  have useful : ¬ (¬ response.granted = true ∧ ¬ response.rejectedByLease = true) := by
    rw [not_and_or, not_not, not_not]
    exact answers.useful
  unfold ElectionNode.handleRequestVoteResponse
  rw [if_neg (not_not.mpr answers.version), if_neg (not_not.mpr answers.state),
    if_neg (not_not.mpr answers.term), if_neg (not_lt.mpr answers.known), if_neg useful]
  rfl

theorem StepCase.handleRequestVoteResponse (node : ElectionNode P) (rpc : VoteRpc P)
    (response : RequestVoteResponse) (stored : Bool) :
    StepCase node (.requestVoteResponse rpc response stored)
      (node.handleRequestVoteResponse rpc response stored) := by
  unfold ElectionNode.handleRequestVoteResponse
  by_cases version : rpc.ctxVersion ≠ node.voteCtx.version
  · rw [if_pos version]
    exact .effect (.refl node)
  rw [if_neg version]
  by_cases state : node.state ≠ .candidate
  · rw [if_pos state]
    exact .effect (.refl node)
  rw [if_neg state]
  by_cases term : rpc.term ≠ node.currentTerm
  · rw [if_pos term]
    exact .effect (.refl node)
  rw [if_neg term]
  by_cases higher : node.currentTerm < response.term
  · rw [if_pos higher]
    exact .effect (.stepDown node _ _)
  rw [if_neg higher]
  by_cases useless : ¬ response.granted ∧ ¬ response.rejectedByLease
  · rw [if_pos useless]
    exact .effect (.refl node)
  rw [if_neg useless]
  refine .answer rpc response stored ⟨not_not.mp version, not_not.mp state, not_not.mp term,
    not_lt.mp higher, ?_⟩
  rw [not_and_or, not_not, not_not] at useless
  exact useless

theorem StepCase.relock {position : Nat} {lastLogId : LogId} {stepStored stored waits : Bool}
    (stepped : node.resume position lastLogId stepStored stored waits = some node') :
    StepCase node (.resume position lastLogId stepStored stored waits) node' := by
  obtain ⟨call, found, rfl⟩ := Option.map_eq_some_iff.mp stepped
  cases call with
  | preVote oldTerm triggered =>
      have relocked := Keeps.relock found (Option.some_ne_none _).symm
      exact .effect (.trans (.keep relocked) (.resumePreVote _ _ _ _ _))
  | electSelf oldTerm =>
      by_cases same : oldTerm = node.currentTerm
      · subst same
        exact .resume position lastLogId stepStored stored waits found
      · refine .effect ?_
        simp only
        unfold ElectionNode.resumeElectSelf
        rw [if_pos same]
        exact .keep (.relock found (fun isTerm => same (Option.some.inj isTerm)))
  | requestVote request previousTerm =>
      have relocked :
          Effect (fun _ => False) node { node with waiting := node.waiting.eraseIdx position } :=
        .keep (.relock found (Option.some_ne_none _).symm)
      rcases resumeRequestVote_cases { node with waiting := node.waiting.eraseIdx position }
        request previousTerm lastLogId stepStored stored waits with
        effect | ⟨middle, disrupted, before, unvoted, votes⟩
      · exact .effect (.trans relocked effect)
      · simp only
        rw [votes]
        exact .vote _ _ _ _ _ (.trans relocked before) unvoted _ _ _

theorem step_cases {action : Action P} (stepped : step action node = some node') :
    StepCase node action node' := by
  have total {last : ElectionNode P} (after : StepCase node action last)
      (same : some last = some node') : StepCase node action node' := Option.some.inj same ▸ after
  cases action with
  | start =>
      simp only [ElectionNode.step, ElectionNode.start] at stepped
      split at stepped
      · obtain rfl := Option.some.inj stepped
        have started : Keeps node { node with starting := false } :=
          ⟨⟨rfl, List.Sublist.refl _, id, List.Sublist.refl _⟩, rfl, Or.inl rfl⟩
        refine .effect ?_
        split
        · exact .trans (.keep started) (.electSelf _ _)
        · exact .keep started
      · contradiction
  | resume position lastLogId stepStored stored waits => exact .relock stepped
  | electionTimeout expired installing =>
      exact total (.effect (.handleElectionTimeout node _ _)) stepped
  | voteTimeout stepsDown installing stored =>
      exact total (.effect (.handleVoteTimeout node _ _ _)) stepped
  | requestVoteResponse rpc response stored =>
      exact total (.handleRequestVoteResponse node rpc response stored) stepped
  | preVoteResponse rpc response stored =>
      exact total (.effect (.handlePreVoteResponse node _ _ _)) stepped
  | grantSelfTimeout kind => exact .effect (.grantSelfTimeout stepped)
  | grantSelfTimedout position waits => exact .grantSelfTimedout stepped
  | requestVoteRequest request =>
      exact total (.effect (.handleRequestVoteRequest node request)) stepped
  | timeoutNowRequest term oldLeaderSteppedDown stored =>
      refine total (.effect ?_) stepped
      unfold handleTimeoutNowRequest
      split
      · split
        · exact .stepDown node _ _
        · exact .refl node
      · split
        · exact .refl node
        · exact .electSelf node _
  | leaderRequest term serverId renews stored =>
      exact total (.effect (.handleLeaderRequest node _ _ _ _)) stepped
  | setConfiguration conf => exact total (.effect (.configure node rfl)) stepped
  | resetPeers newPeers busy stored =>
      exact total (.effect (.resetPeers node _ _ _ (fun _ => trivial))) stepped
  | increaseTermTo newTerm stored =>
      refine total (.effect ?_) stepped
      unfold ElectionNode.increaseTermTo
      split
      · exact .refl node
      · exact .stepDown node _ _
  | stepdownTimeout witness dead oldDead stored =>
      exact total (.effect (.handleStepdownTimeout node _ _ _ _)) stepped
  | leaseExpired stored =>
      refine total (.effect ?_) stepped
      unfold ElectionNode.leaseExpired
      split
      · exact .refl node
      · exact .stepDown node _ _
  | configurationChangeDone term removed stored =>
      refine total (.effect ?_) stepped
      unfold onConfigurationChangeDone
      split
      · exact .refl node
      · exact .stepDownIf removed _ _
  | transferLeadershipTo =>
      refine total (.effect ?_) stepped
      unfold ElectionNode.transferLeadershipTo
      split
      · exact .refl node
      · rename_i leads
        refine .keep (.restate node (Or.inr (Or.inr ⟨?_, rfl⟩)))
        rw [not_not.mp leads]
        rfl
  | transferTimeout term =>
      refine total (.effect ?_) stepped
      unfold handleTransferTimeout
      split
      · rename_i transfers
        refine .keep (.restate node (Or.inr (Or.inr ⟨?_, rfl⟩)))
        rw [transfers.2]
        rfl
      · exact .refl node
  | vote =>
      refine total (.effect ?_) stepped
      unfold ElectionNode.vote
      split
      · exact .refl node
      · exact .keep ⟨⟨rfl, List.Sublist.refl _, id, List.Sublist.refl _⟩, rfl, Or.inl rfl⟩
  | error stored =>
      refine total (.effect ?_) stepped
      unfold ElectionNode.onError
      split
      · exact .trans (.stepDown node _ _) (.keep (.restate _ (Or.inr (Or.inl rfl))))
      · exact .refl node
  | shutdown stored =>
      refine total (.effect ?_) stepped
      unfold ElectionNode.shutdown
      split
      · exact .refl node
      · have stopped : Effect (Configures (.shutdown stored : Action P)) node
            (if node.state.isActive then node.stepDown node.currentTerm stored else node) :=
          .stepDownIf _ _ _
        exact stopped.then_keep
          ⟨⟨rfl, List.Sublist.refl _, id, List.Sublist.refl _⟩, rfl, Or.inr (Or.inl rfl)⟩
  | afterShutdown =>
      simp only [ElectionNode.step, ElectionNode.afterShutdown] at stepped
      split at stepped
      · obtain rfl := Option.some.inj stepped
        exact .effect (.keep
          ⟨⟨rfl, List.Sublist.refl _, id, List.Sublist.refl _⟩, rfl, Or.inr (Or.inl rfl)⟩)
      · contradiction

/-! ### Answers -/

/-- The peers whose votes a response brings: its sender, and the node itself with the last
leader. -/
def broughtPeers (node : ElectionNode P) (rpc : VoteRpc P) (response : RequestVoteResponse) :
    List P :=
  if response.granted then
    if some rpc.peerId = node.lastLeader then [rpc.peerId, node.serverId] else [rpc.peerId]
  else []

structure Tallied (node : ElectionNode P) (peers : List P) (ctx : VoteBallotCtx P) : Prop where
  goesOn : Extends node.currentTerm node.voteCtx ctx
  ballot : ctx.ballot = (node.voteCtx.tally node.currentTerm peers).ballot
  votes : ctx.votes = (node.voteCtx.tally node.currentTerm peers).votes

theorem Tallied.keep {peers : List P} {ctx ctx' : VoteBallotCtx P}
    (tallied : Tallied node peers ctx) (goesOn : Extends node.currentTerm ctx ctx')
    (ballot : ctx'.ballot = ctx.ballot) (votes : ctx'.votes = ctx.votes) : Tallied node peers ctx' :=
  ⟨tallied.goesOn.trans goesOn, ballot.trans tallied.ballot, votes.trans tallied.votes⟩

theorem Tallied.noteDisrupted (node : ElectionNode P) (rpc : VoteRpc P)
    (response : RequestVoteResponse) :
    Tallied node [] (noteDisrupted node.voteCtx rpc response) := by
  refine ⟨.noteDisrupted _ _ _ _, ?_, ?_⟩
  · unfold ElectionNode.noteDisrupted
    split <;> rfl
  · unfold ElectionNode.noteDisrupted
    split <;> rfl

theorem Tallied.retry {peers : List P} {ctx : VoteBallotCtx P} (tallied : Tallied node peers ctx) :
    Tallied node peers ctx.popGrantablePeers.2 := by
  apply tallied.keep (.popGrantablePeers _ _)
  · unfold VoteBallotCtx.popGrantablePeers
    split <;> rfl
  · unfold VoteBallotCtx.popGrantablePeers
    split <;> rfl

theorem Tallied.grant {peers : List P} {ctx : VoteBallotCtx P} (tallied : Tallied node peers ctx)
    (peer : P) : Tallied node (peers ++ [peer]) (ctx.grant peer node.currentTerm) := by
  refine ⟨tallied.goesOn.trans (.grant _ _ _), ?_, ?_⟩
  · unfold VoteBallotCtx.grant VoteBallotCtx.tally
    rw [List.foldl_append, tallied.ballot]
    rfl
  · unfold VoteBallotCtx.grant VoteBallotCtx.tally
    rw [List.foldl_append, tallied.votes]
    rfl

theorem countVote_tallied {rpc : VoteRpc P} (current : rpc.term = node.currentTerm)
    {noted : VoteBallotCtx P} (tallied : Tallied node [] noted) :
    ∃ ctx, { node with voteCtx := noted }.countVote rpc = { node with voteCtx := ctx } ∧
      Tallied node
        (if some rpc.peerId = node.lastLeader then [rpc.peerId, node.serverId] else [rpc.peerId])
        ctx := by
  have granted : Tallied node [rpc.peerId] (noted.grant rpc.peerId node.currentTerm) :=
    tallied.grant rpc.peerId
  unfold ElectionNode.countVote
  simp only
  rw [current]
  by_cases last : some rpc.peerId = node.lastLeader
  · have both := granted.grant node.serverId
    refine ⟨_, rfl, ?_⟩
    rw [if_pos last, if_pos last]
    exact both.keep (.stopGrantSelfTimer _ _) rfl rfl
  · refine ⟨_, rfl, ?_⟩
    rw [if_neg last, if_neg last]
    exact granted

def Wins (response : RequestVoteResponse) (ctx : VoteBallotCtx P) : Prop :=
  response.granted = true ∧ ctx.granted = true

theorem takeAnswer_cases {rpc : VoteRpc P} {response : RequestVoteResponse}
    (answers : Answers node rpc response) :
    ∃ ctx, Tallied node (node.broughtPeers rpc response) ctx ∧
      (Wins response ctx ∧
          node.takeAnswer rpc response = { node with voteCtx := ctx }.becomeLeader ∨
        ¬ Wins response ctx ∧ ∃ asked,
          node.takeAnswer rpc response =
            { node with voteCtx := ctx }.requestPeersToVote asked) := by
  have noted : Tallied node [] (noteDisrupted node.voteCtx rpc response) := .noteDisrupted _ _ _
  unfold takeAnswer broughtPeers Wins
  simp only
  by_cases granted : response.granted = true
  · rw [if_pos granted, if_pos granted]
    obtain ⟨ctx, same, tallied⟩ := countVote_tallied answers.term noted
    rw [same]
    simp only
    by_cases wins : ctx.granted = true
    · rw [if_pos wins]
      exact ⟨ctx, tallied, Or.inl ⟨⟨granted, wins⟩, rfl⟩⟩
    · rw [if_neg wins]
      refine ⟨_, tallied.retry, Or.inr ⟨?_, _, rfl⟩⟩
      intro both
      have completes := both.2
      unfold VoteBallotCtx.granted at completes wins
      rw [tallied.retry.ballot] at completes
      rw [tallied.ballot] at wins
      exact wins completes
  · rw [if_neg granted, if_neg granted]
    have reserved : Tallied node []
        ((noteDisrupted node.voteCtx rpc response).reserve rpc.peerId) :=
      noted.keep (.of_same rfl) rfl rfl
    exact ⟨_, reserved.retry, Or.inr ⟨fun both => granted both.1, _, rfl⟩⟩

omit [DecidableEq P] in
theorem stepDown_serverId (node : ElectionNode P) (term : Nat) (stored : Bool) :
    (node.stepDown term stored).serverId = node.serverId := by
  by_cases active : node.state.isActive = true
  · obtain ⟨preVoteCtx, same⟩ := stepDown_active active term stored
    rw [same]
  · rw [stepDown_inactive (Bool.eq_false_of_not_eq_true active)]

theorem Effect.serverId (effect : Effect configures node node') :
    node'.serverId = node.serverId := by
  induction effect with
  | keep keeps => exact congrArg Prod.fst keeps.polls.polled
  | configure node may => rfl
  | stepDown node term stored => exact stepDown_serverId node term stored
  | electSelf node oldLeaderSteppedDown =>
      unfold ElectionNode.electSelf
      split
      · rfl
      · rfl
  | reply node request previousTerm rejectedByLease disrupted => rfl
  | expireVote node armed => rfl
  | trans _ _ first second => exact second.trans first

theorem grantSelf_serverId (node : ElectionNode P) (waits : Bool) :
    (node.grantSelf .vote waits).serverId = node.serverId := by
  unfold ElectionNode.grantSelf
  split
  · rfl
  · simp only
    split
    · rfl
    · rfl

theorem StepCase.serverId {action : Action P} (stepCase : StepCase node action node') :
    node'.serverId = node.serverId := by
  cases stepCase with
  | effect effect => exact effect.serverId
  | vote position lastLogId stepStored stored waits before unvoted request previousTerm disrupted =>
      refine Eq.trans ?_ before.serverId
      unfold reply castVote setTermAndVotedfor
      cases stored with
      | false => rfl
      | true => rfl
  | resume position lastLogId stepStored stored waits waiting =>
      unfold ElectionNode.resumeElectSelf
      rw [if_neg (not_not.mpr rfl)]
      cases stored with
      | false => rfl
      | true => exact grantSelf_serverId _ waits
  | answer rpc response stored answers =>
      obtain ⟨ctx, _, ⟨_, leads⟩ | ⟨_, asked, retries⟩⟩ := takeAnswer_cases answers
      · rw [leads]
        rfl
      · rw [retries]
        rfl
  | timer position waits timedOut active => exact grantSelf_serverId _ waits

end ElectionNode

end QuorumKit
