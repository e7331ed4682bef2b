/-
Elections of a node, `pre_vote`, `elect_self` and the functions around them of
`braft/node.cpp`.

`pre_vote`, `elect_self` and `handle_request_vote_request` release the mutex of the
node to wait for `last_log_id(true)`; each of them is split there, and the calls that
wait are part of the state.  What the lease, the snapshot executor, the replicators and
the meta storage answer comes with each call.  A `CHECK` that fails does not stop the
function, which is what its logger does by default.
-/

import QuorumKit.Ballot.Ballot
import QuorumKit.Library.TransitionSystem
import QuorumKit.Node.NodeImpl

namespace QuorumKit

/-- `list_peers` of a configuration entry. -/
def ConfigurationEntry.listPeers {P : Type} [DecidableEq P] (entry : ConfigurationEntry P) : List P :=
  (entry.conf.peers ++ entry.oldConf.peers).dedup

/-- `DisruptedLeader`; the peer may be empty. -/
structure DisruptedLeader (P : Type) where
  peerId : Option P
  term : Nat
deriving DecidableEq

/-- `VoteBallotCtx`.  `grantSelfArg` is the version with which a timer that has not gone
off was armed.  The term of the last `init` and the terms of the votes that were counted
are kept for the statements. -/
structure VoteBallotCtx (P : Type) where
  ballot : Ballot P := {}
  version : Nat := 0
  grantSelfArg : Option Nat := none
  triggered : Bool := false
  reservedPeers : List P := []
  disruptedLeader : Option (DisruptedLeader P) := none
  lastLogId : LogId := {}
  startTerm : Nat := 0
  votes : List (P × Nat) := []

namespace VoteBallotCtx

variable {P : Type} [DecidableEq P]

def stopGrantSelfTimer (ctx : VoteBallotCtx P) : VoteBallotCtx P :=
  { ctx with grantSelfArg := none }

def startGrantSelfTimer (ctx : VoteBallotCtx P) : VoteBallotCtx P :=
  { ctx with grantSelfArg := some ctx.version }

def reset (ctx : VoteBallotCtx P) : VoteBallotCtx P :=
  { ctx.stopGrantSelfTimer with
    version := ctx.version + 1
    triggered := false
    lastLogId := {}
    disruptedLeader := none
    reservedPeers := [] }

def init (ctx : VoteBallotCtx P) (conf : Configuration P) (oldConf : Option (Configuration P))
    (triggered : Bool) (term : Nat) : VoteBallotCtx P :=
  { ctx.reset with
    ballot := Ballot.init conf oldConf
    triggered := triggered
    startTerm := term
    votes := [] }

/-- `grant`, with the term that the vote is for. -/
def grant (ctx : VoteBallotCtx P) (peer : P) (term : Nat) : VoteBallotCtx P :=
  { ctx with
    ballot := (ctx.ballot.grant peer {}).2
    votes := (peer, term) :: ctx.votes }

def granted (ctx : VoteBallotCtx P) : Bool := ctx.ballot.granted

def reserve (ctx : VoteBallotCtx P) (peer : P) : VoteBallotCtx P :=
  { ctx with reservedPeers := ctx.reservedPeers.insert peer }

def setDisruptedLeader (ctx : VoteBallotCtx P) (leader : DisruptedLeader P) : VoteBallotCtx P :=
  { ctx with disruptedLeader := some leader }

def popGrantablePeers (ctx : VoteBallotCtx P) : List P × VoteBallotCtx P :=
  if ctx.disruptedLeader = none then ([], ctx)
  else (ctx.reservedPeers, { ctx with reservedPeers := [] })

def setLastLogId (ctx : VoteBallotCtx P) (lastLogId : LogId) : VoteBallotCtx P :=
  { ctx with lastLogId := lastLogId }

end VoteBallotCtx

/-- `RequestVoteRequest`, of a vote or a pre-vote. -/
structure RequestVoteRequest (P : Type) where
  serverId : P
  term : Nat
  lastLogId : LogId
  disruptedLeader : Option (DisruptedLeader P) := none

structure RequestVoteResponse where
  term : Nat
  granted : Bool
  rejectedByLease : Bool := false
  disrupted : Bool := false
  previousTerm : Nat := 0
deriving DecidableEq

/-- `OnRequestVoteRPCDone` and `OnPreVoteRPCDone`. -/
structure VoteRpc (P : Type) where
  peerId : P
  term : Nat
  ctxVersion : Nat
  request : RequestVoteRequest P

/-- A call that has released the mutex for `last_log_id(true)`. -/
inductive Waiting (P : Type) where
  | preVote (oldTerm : Nat) (triggered : Bool)
  | electSelf (oldTerm : Nat)
  | requestVote (request : RequestVoteRequest P) (previousTerm : Nat)

inductive VoteKind where
  | preVote
  | vote
deriving DecidableEq

/-- What `become_leader` finds when it is entered. -/
structure Candidacy (P : Type) where
  state : State
  term : Nat
  ctx : VoteBallotCtx P

structure ElectionNode (P : Type) where
  serverId : P
  state : State := .follower
  currentTerm : Nat
  votedId : Option P := none
  leaderId : Option P := none
  conf : ConfigurationEntry P
  voteTriggered : Bool := false
  /-- `last_leader` of the follower lease. -/
  lastLeader : Option P := none
  preVoteCtx : VoteBallotCtx P := {}
  voteCtx : VoteBallotCtx P := {}
  /-- The term and the vote in the meta storage. -/
  persisted : Nat × Option P
  waiting : List (Waiting P) := []
  /-- `handle_grant_self_timedout` waits for the mutex, with its context and version. -/
  timedOut : List (VoteKind × Nat) := []
  preVoteRpcs : List (VoteRpc P) := []
  voteRpcs : List (VoteRpc P) := []
  /-- The answers to requests for votes, newest first. -/
  replies : List (RequestVoteRequest P × RequestVoteResponse) := []
  /-- `init` has still to take the mutex at its end. -/
  starting : Bool := true
  /-- The FSM caller will call `after_shutdown`. -/
  stopping : Bool := false
  /-- The states that `after_shutdown` has found. -/
  foundAtShutdown : List State := []
  candidacies : List (Candidacy P) := []

namespace ElectionNode

variable {P : Type} [DecidableEq P]

def oldConf (node : ElectionNode P) : Option (Configuration P) :=
  if node.conf.stable then none else some node.conf.oldConf

def ctx (node : ElectionNode P) : VoteKind → VoteBallotCtx P
  | .preVote => node.preVoteCtx
  | .vote => node.voteCtx

def setCtx (node : ElectionNode P) (kind : VoteKind) (ctx : VoteBallotCtx P) : ElectionNode P :=
  match kind with
  | .preVote => { node with preVoteCtx := ctx }
  | .vote => { node with voteCtx := ctx }

/-- `set_term_and_votedfor`; a write that fails leaves the storage as it was. -/
def setTermAndVotedfor (node : ElectionNode P) (stored : Bool) (term : Nat)
    (votedFor : Option P) : ElectionNode P :=
  if stored then { node with persisted := (term, votedFor) } else node

/-- `reset_leader_id` with a leader. -/
def setLeaderId (node : ElectionNode P) (newLeaderId : P) : ElectionNode P :=
  { node with
    leaderId := some newLeaderId
    preVoteCtx := if node.leaderId = none then node.preVoteCtx.reset else node.preVoteCtx }

def stepDown (node : ElectionNode P) (term : Nat) (stored : Bool) : ElectionNode P :=
  if ¬ node.state.isActive then node
  else
    let stopped : ElectionNode P :=
      match node.state with
      | .candidate => { node with voteCtx := node.voteCtx.reset }
      | .follower => { node with preVoteCtx := node.preVoteCtx.reset }
      | _ => node
    let follower : ElectionNode P := { stopped with leaderId := none, state := .follower }
    if follower.currentTerm < term then
      { follower with currentTerm := term, votedId := none }.setTermAndVotedfor stored term none
    else follower

omit [DecidableEq P] in
theorem stepDown_inactive {node : ElectionNode P} (inactive : node.state.isActive = false)
    (term : Nat) (stored : Bool) : node.stepDown term stored = node := by
  unfold stepDown
  rw [if_pos (by simp [inactive])]

def voteCtxAfter (node : ElectionNode P) : VoteBallotCtx P :=
  if node.state = .candidate then node.voteCtx.reset else node.voteCtx

omit [DecidableEq P] in
theorem stepDown_active {node : ElectionNode P} (active : node.state.isActive = true)
    (term : Nat) (stored : Bool) :
    ∃ preVoteCtx, node.stepDown term stored =
      { node with
        leaderId := none
        state := .follower
        currentTerm := max node.currentTerm term
        votedId := if node.currentTerm < term then none else node.votedId
        preVoteCtx := preVoteCtx
        voteCtx := node.voteCtxAfter
        persisted :=
          if node.currentTerm < term ∧ stored = true then (term, none) else node.persisted } := by
  refine ⟨if node.state = .follower then node.preVoteCtx.reset else node.preVoteCtx, ?_⟩
  unfold stepDown setTermAndVotedfor voteCtxAfter
  rw [if_neg (by simp [active])]
  by_cases raised : node.currentTerm < term
  · have term_max : max node.currentTerm term = term := max_eq_right raised.le
    cases node.state <;> cases stored <;> simp [raised, term_max]
  · have term_max : max node.currentTerm term = node.currentTerm := max_eq_left (by omega)
    cases node.state <;> simp [raised, term_max]

def becomeLeader (node : ElectionNode P) : ElectionNode P :=
  { node with
    candidacies := { state := node.state, term := node.currentTerm, ctx := node.voteCtx } ::
      node.candidacies
    voteCtx := node.voteCtx.reset
    state := .leader
    leaderId := some node.serverId
    lastLeader := none }

/-- `elect_self` up to `last_log_id(true)`. -/
def electSelf (node : ElectionNode P) (oldLeaderSteppedDown : Bool) : ElectionNode P :=
  if ¬ node.conf.contains node.serverId then node
  else
    let term := node.currentTerm + 1
    let voteCtx := node.voteCtx.init node.conf.conf node.oldConf false term
    { node with
      leaderId := none
      state := .candidate
      currentTerm := term
      votedId := some node.serverId
      preVoteCtx := node.preVoteCtx.reset
      voteCtx :=
        if oldLeaderSteppedDown then
          voteCtx.setDisruptedLeader { peerId := node.leaderId, term := node.currentTerm }
        else voteCtx
      waiting := node.waiting ++ [.electSelf term] }

/-- `grant_self`; `waits` says that the follower lease is not votable yet. -/
def grantSelf (node : ElectionNode P) (kind : VoteKind) (waits : Bool) : ElectionNode P :=
  if waits then node.setCtx kind (node.ctx kind).startGrantSelfTimer
  else
    let granted := node.setCtx kind ((node.ctx kind).grant node.serverId node.currentTerm)
    if ¬ (granted.ctx kind).granted then granted
    else
      match kind with
      | .preVote => granted.electSelf false
      | .vote => granted.becomeLeader

/-- The closures of the requests to `peers`. -/
def voteRpcsTo (node : ElectionNode P) (peers : List P) (term ctxVersion : Nat)
    (lastLogId : LogId) (disruptedLeader : Option (DisruptedLeader P)) : List (VoteRpc P) :=
  (peers.filter (fun peer => peer ≠ node.serverId)).map (fun peer =>
    { peerId := peer
      term := node.currentTerm
      ctxVersion := ctxVersion
      request :=
        { serverId := node.serverId
          term := term
          lastLogId := lastLogId
          disruptedLeader := disruptedLeader } })

def requestPeersToVote (node : ElectionNode P) (peers : List P) : ElectionNode P :=
  { node with
    voteRpcs := node.voteRpcs ++
      node.voteRpcsTo peers node.currentTerm node.voteCtx.version node.voteCtx.lastLogId
        (node.voteCtx.disruptedLeader.filter (fun leader => leader.peerId.isSome)) }

/-- The rest of `elect_self`. -/
def resumeElectSelf (node : ElectionNode P) (oldTerm : Nat) (lastLogId : LogId)
    (stored waits : Bool) : ElectionNode P :=
  if oldTerm ≠ node.currentTerm then node
  else
    let asked := { node with voteCtx := node.voteCtx.setLastLogId lastLogId }.requestPeersToVote
      node.conf.listPeers
    if stored then
      (asked.setTermAndVotedfor true node.currentTerm (some node.serverId)).grantSelf .vote waits
    else { asked with votedId := none }

/-- `pre_vote` up to `last_log_id(true)`. -/
def preVote (node : ElectionNode P) (triggered installing : Bool) : ElectionNode P :=
  if installing then node
  else if ¬ node.conf.contains node.serverId then node
  else { node with waiting := node.waiting ++ [.preVote node.currentTerm triggered] }

/-- The rest of `pre_vote`. -/
def resumePreVote (node : ElectionNode P) (oldTerm : Nat) (triggered : Bool) (lastLogId : LogId)
    (waits : Bool) : ElectionNode P :=
  if oldTerm ≠ node.currentTerm then node
  else
    let started : ElectionNode P :=
      { node with
        preVoteCtx := node.preVoteCtx.init node.conf.conf node.oldConf triggered node.currentTerm }
    { started with
      preVoteRpcs := node.preVoteRpcs ++
        started.voteRpcsTo node.conf.listPeers (node.currentTerm + 1) started.preVoteCtx.version
          lastLogId none }.grantSelf .preVote waits

def handleElectionTimeout (node : ElectionNode P) (expired installing : Bool) : ElectionNode P :=
  if node.state ≠ .follower then node
  else if ¬ node.voteTriggered ∧ ¬ expired then node
  else
    { node with voteTriggered := false, leaderId := none }.preVote node.voteTriggered installing

/-- `stepsDown` is `raft_step_down_when_vote_timedout`. -/
def handleVoteTimeout (node : ElectionNode P) (stepsDown installing stored : Bool) :
    ElectionNode P :=
  if node.state ≠ .candidate then node
  else if stepsDown then (node.stepDown node.currentTerm stored).preVote false installing
  else node.electSelf false

/-- A vote that is granted, and the own vote with that of the last leader. -/
def countVote (node : ElectionNode P) (rpc : VoteRpc P) : ElectionNode P :=
  let granted := node.voteCtx.grant rpc.peerId rpc.term
  { node with
    voteCtx :=
      if some rpc.peerId = node.lastLeader then
        (granted.grant node.serverId node.currentTerm).stopGrantSelfTimer
      else granted }

def retryVoteOnReservedPeers (node : ElectionNode P) : ElectionNode P :=
  { node with voteCtx := node.voteCtx.popGrantablePeers.2 }.requestPeersToVote
    node.voteCtx.popGrantablePeers.1

def noteDisrupted (ctx : VoteBallotCtx P) (rpc : VoteRpc P) (response : RequestVoteResponse) :
    VoteBallotCtx P :=
  if response.disrupted then
    ctx.setDisruptedLeader { peerId := some rpc.peerId, term := response.previousTerm }
  else ctx

def handleRequestVoteResponse (node : ElectionNode P) (rpc : VoteRpc P)
    (response : RequestVoteResponse) (stored : Bool) : ElectionNode P :=
  if rpc.ctxVersion ≠ node.voteCtx.version then node
  else if node.state ≠ .candidate then node
  else if rpc.term ≠ node.currentTerm then node
  else if node.currentTerm < response.term then node.stepDown response.term stored
  else if ¬ response.granted ∧ ¬ response.rejectedByLease then node
  else
    let noted := { node with voteCtx := noteDisrupted node.voteCtx rpc response }
    if response.granted then
      let counted := noted.countVote rpc
      if counted.voteCtx.granted then counted.becomeLeader else counted.retryVoteOnReservedPeers
    else
      { noted with
        voteCtx := noted.voteCtx.reserve rpc.peerId }.retryVoteOnReservedPeers

/-- The votes of the peers that `handle_pre_vote_response` counts. -/
def grantPreVotes (node : ElectionNode P) : List P → ElectionNode P
  | [] => node
  | peer :: rest =>
      let granted := node.preVoteCtx.grant peer node.currentTerm
      grantPreVotes
        { node with
          preVoteCtx :=
            if some peer = node.lastLeader then
              (granted.grant node.serverId node.currentTerm).stopGrantSelfTimer
            else granted } rest

theorem grantPreVotes_eq (peers : List P) :
    ∀ node : ElectionNode P, ∃ ctx, node.grantPreVotes peers = { node with preVoteCtx := ctx } := by
  induction peers with
  | nil => exact fun node => ⟨node.preVoteCtx, rfl⟩
  | cons peer rest ih =>
      intro node
      obtain ⟨ctx, same⟩ := ih _
      exact ⟨ctx, same⟩

def popPreVotes (ctx : VoteBallotCtx P) (rpc : VoteRpc P) (response : RequestVoteResponse) :
    List P × VoteBallotCtx P :=
  if response.rejectedByLease then (ctx.reserve rpc.peerId).popGrantablePeers
  else (ctx.popGrantablePeers.1.insert rpc.peerId, ctx.popGrantablePeers.2)

def handlePreVoteResponse (node : ElectionNode P) (rpc : VoteRpc P)
    (response : RequestVoteResponse) (stored : Bool) : ElectionNode P :=
  if rpc.ctxVersion ≠ node.preVoteCtx.version then node
  else if node.state ≠ .follower then node
  else if rpc.term ≠ node.currentTerm then node
  else if node.currentTerm < response.term then node.stepDown response.term stored
  else if ¬ response.granted ∧ ¬ response.rejectedByLease then node
  else if response.rejectedByLease ∧ ¬ node.preVoteCtx.triggered then node
  else
    let popped := popPreVotes (noteDisrupted node.preVoteCtx rpc response) rpc response
    let counted := { node with preVoteCtx := popped.2 }.grantPreVotes popped.1
    if counted.preVoteCtx.granted then counted.electSelf false else counted

/-- The timer of `start_grant_self_timer` goes off. -/
def grantSelfTimeout (node : ElectionNode P) (kind : VoteKind) : Option (ElectionNode P) :=
  (node.ctx kind).grantSelfArg.map (fun version =>
    { node.setCtx kind (node.ctx kind).stopGrantSelfTimer with
      timedOut := node.timedOut ++ [(kind, version)] })

def handleGrantSelfTimedout (node : ElectionNode P) (position : Nat) (waits : Bool) :
    Option (ElectionNode P) :=
  node.timedOut[position]?.map (fun arg =>
    let node := { node with timedOut := node.timedOut.eraseIdx position }
    if ¬ node.state.isActive ∨ (node.ctx arg.1).version ≠ arg.2 then node
    else node.grantSelf arg.1 waits)

def reply (node : ElectionNode P) (request : RequestVoteRequest P) (previousTerm : Nat)
    (rejectedByLease disrupted : Bool) : ElectionNode P :=
  { node with
    replies :=
      (request,
        { term := node.currentTerm
          granted := request.term = node.currentTerm ∧ node.votedId = some request.serverId
          rejectedByLease := rejectedByLease
          disrupted := disrupted
          previousTerm := previousTerm }) :: node.replies }

/-- `handle_request_vote_request` up to `last_log_id(true)`. -/
def handleRequestVoteRequest (node : ElectionNode P) (request : RequestVoteRequest P) :
    ElectionNode P :=
  if ¬ node.state.isActive then node
  else if request.term < node.currentTerm then node.reply request node.currentTerm false false
  else { node with waiting := node.waiting ++ [.requestVote request node.currentTerm] }

def voteFor (node : ElectionNode P) (request : RequestVoteRequest P) (stepStored stored : Bool) :
    ElectionNode P :=
  if node.votedId = none then
    let follower := node.stepDown request.term stepStored
    { follower with votedId := if stored then some request.serverId else none }.setTermAndVotedfor
      stored follower.currentTerm (some request.serverId)
  else node

/-- The rest of `handle_request_vote_request`. -/
def resumeRequestVote (node : ElectionNode P) (request : RequestVoteRequest P) (previousTerm : Nat)
    (lastLogId : LogId) (stepStored stored waits : Bool) : ElectionNode P :=
  if previousTerm ≠ node.currentTerm then node.reply request previousTerm false false
  else
    let logIsOk : Bool := lastLogId ≤ request.lastLogId
    if waits then node.reply request previousTerm logIsOk false
    else
      let raised :=
        if node.currentTerm < request.term then node.stepDown request.term stepStored else node
      let voted := if logIsOk then raised.voteFor request stepStored stored else raised
      voted.reply request previousTerm false
        (node.currentTerm < request.term ∧ node.state.leads)

def handleTimeoutNowRequest (node : ElectionNode P) (term : Nat) (oldLeaderSteppedDown stored : Bool) :
    ElectionNode P :=
  if term ≠ node.currentTerm then
    if node.currentTerm < term then node.stepDown term stored else node
  else if node.state ≠ .follower then node
  else node.electSelf oldLeaderSteppedDown

def checkStepDown (node : ElectionNode P) (requestTerm : Nat) (serverId : P) (stored : Bool) :
    ElectionNode P :=
  let checked :=
    if node.currentTerm < requestTerm ∨ node.state ≠ .follower ∨ node.leaderId = none then
      node.stepDown requestTerm stored
    else node
  if checked.leaderId = none then checked.setLeaderId serverId else checked

/-- `handle_append_entries_request` and `handle_install_snapshot_request` up to the
checks of the leader; `renews` for entries that are not from the cache. -/
def handleLeaderRequest (node : ElectionNode P) (term : Nat) (serverId : P)
    (renews stored : Bool) : ElectionNode P :=
  if ¬ node.state.isActive then node
  else if term < node.currentTerm then node
  else
    let checked := node.checkStepDown term serverId stored
    if checked.leaderId ≠ some serverId then checked.stepDown (term + 1) stored
    else if renews then { checked with lastLeader := checked.leaderId }
    else checked

def resetPeers (node : ElectionNode P) (newPeers : Configuration P) (busy stored : Bool) :
    ElectionNode P :=
  if newPeers.isEmpty then node
  else if ¬ node.state.isActive then node
  else if node.conf.conf.isEmpty then
    { node with conf := { node.conf with conf := newPeers } }.stepDown (node.currentTerm + 1) stored
  else if node.state = .leader ∧ busy then node
  else if node.conf.conf.equals newPeers then node
  else
    { node with
      conf := { node.conf with conf := newPeers, oldConf := Configuration.empty } }.stepDown
        (node.currentTerm + 1) stored

def increaseTermTo (node : ElectionNode P) (newTerm : Nat) (stored : Bool) : ElectionNode P :=
  if newTerm ≤ node.currentTerm then node else node.stepDown newTerm stored

/-- The flags are the results of `check_witness` and of `check_dead_nodes` for the two
configurations. -/
def handleStepdownTimeout (node : ElectionNode P) (witness dead oldDead stored : Bool) :
    ElectionNode P :=
  if ¬ node.state.leads then node
  else
    let checked := if witness then node.stepDown node.currentTerm stored else node
    let checked := if dead then checked.stepDown checked.currentTerm stored else checked
    if oldDead then checked.stepDown checked.currentTerm stored else checked

/-- `get_leader_lease_status` with a lease that has expired. -/
def leaseExpired (node : ElectionNode P) (stored : Bool) : ElectionNode P :=
  if node.state ≠ .leader then node else node.stepDown node.currentTerm stored

/-- `on_configuration_change_done`; `removed` when the node is not in a new
configuration that has become stable. -/
def onConfigurationChangeDone (node : ElectionNode P) (term : Nat) (removed stored : Bool) :
    ElectionNode P :=
  if ¬ node.state.leads ∨ term ≠ node.currentTerm then node
  else if removed then node.stepDown node.currentTerm stored
  else node

def transferLeadershipTo (node : ElectionNode P) : ElectionNode P :=
  if node.state ≠ .leader then node else { node with state := .transferring }

def handleTransferTimeout (node : ElectionNode P) (term : Nat) : ElectionNode P :=
  if term = node.currentTerm ∧ node.state = .transferring then { node with state := .leader }
  else node

def vote (node : ElectionNode P) : ElectionNode P :=
  if node.state ≠ .follower then node else { node with voteTriggered := true }

def onError (node : ElectionNode P) (stored : Bool) : ElectionNode P :=
  if node.state.isActive then { node.stepDown node.currentTerm stored with state := .error }
  else node

def shutdown (node : ElectionNode P) (stored : Bool) : ElectionNode P :=
  if node.state = .shutting ∨ node.state = .shutdown then node
  else
    let stopped :=
      if node.state.isActive then node.stepDown node.currentTerm stored else node
    { stopped with state := .shutting, stopping := true }

def afterShutdown (node : ElectionNode P) : Option (ElectionNode P) :=
  if node.stopping then
    some
      { node with
        foundAtShutdown := node.state :: node.foundAtShutdown
        state := .shutdown
        stopping := false }
  else none

/-- The end of `init`: the only peer of a group elects itself. -/
def start (node : ElectionNode P) : Option (ElectionNode P) :=
  if node.starting then
    let started := { node with starting := false }
    some
      (if node.conf.stable ∧ node.conf.conf.size = 1 ∧ node.conf.conf.contains node.serverId then
        started.electSelf false
      else started)
  else none

def resume (node : ElectionNode P) (position : Nat) (lastLogId : LogId)
    (stepStored stored waits : Bool) : Option (ElectionNode P) :=
  node.waiting[position]?.map (fun call =>
    let node := { node with waiting := node.waiting.eraseIdx position }
    match call with
    | .preVote oldTerm triggered => node.resumePreVote oldTerm triggered lastLogId waits
    | .electSelf oldTerm => node.resumeElectSelf oldTerm lastLogId stored waits
    | .requestVote request previousTerm =>
        node.resumeRequestVote request previousTerm lastLogId stepStored stored waits)

inductive Action (P : Type) where
  | start
  | resume (position : Nat) (lastLogId : LogId) (stepStored stored waits : Bool)
  | electionTimeout (expired installing : Bool)
  | voteTimeout (stepsDown installing stored : Bool)
  | requestVoteResponse (rpc : VoteRpc P) (response : RequestVoteResponse) (stored : Bool)
  | preVoteResponse (rpc : VoteRpc P) (response : RequestVoteResponse) (stored : Bool)
  | grantSelfTimeout (kind : VoteKind)
  | grantSelfTimedout (position : Nat) (waits : Bool)
  | requestVoteRequest (request : RequestVoteRequest P)
  | timeoutNowRequest (term : Nat) (oldLeaderSteppedDown stored : Bool)
  | leaderRequest (term : Nat) (serverId : P) (renews stored : Bool)
  | setConfiguration (conf : ConfigurationEntry P)
  | resetPeers (newPeers : Configuration P) (busy stored : Bool)
  | increaseTermTo (newTerm : Nat) (stored : Bool)
  | stepdownTimeout (witness dead oldDead stored : Bool)
  | leaseExpired (stored : Bool)
  | configurationChangeDone (term : Nat) (removed stored : Bool)
  | transferLeadershipTo
  | transferTimeout (term : Nat)
  | vote
  | error (stored : Bool)
  | shutdown (stored : Bool)
  | afterShutdown

def step (action : Action P) (node : ElectionNode P) : Option (ElectionNode P) :=
  match action with
  | .start => node.start
  | .resume position lastLogId stepStored stored waits =>
      node.resume position lastLogId stepStored stored waits
  | .electionTimeout expired installing => some (node.handleElectionTimeout expired installing)
  | .voteTimeout stepsDown installing stored =>
      some (node.handleVoteTimeout stepsDown installing stored)
  | .requestVoteResponse rpc response stored =>
      some (node.handleRequestVoteResponse rpc response stored)
  | .preVoteResponse rpc response stored => some (node.handlePreVoteResponse rpc response stored)
  | .grantSelfTimeout kind => node.grantSelfTimeout kind
  | .grantSelfTimedout position waits => node.handleGrantSelfTimedout position waits
  | .requestVoteRequest request => some (node.handleRequestVoteRequest request)
  | .timeoutNowRequest term oldLeaderSteppedDown stored =>
      some (node.handleTimeoutNowRequest term oldLeaderSteppedDown stored)
  | .leaderRequest term serverId renews stored =>
      some (node.handleLeaderRequest term serverId renews stored)
  | .setConfiguration conf => some { node with conf := conf }
  | .resetPeers newPeers busy stored => some (node.resetPeers newPeers busy stored)
  | .increaseTermTo newTerm stored => some (node.increaseTermTo newTerm stored)
  | .stepdownTimeout witness dead oldDead stored =>
      some (node.handleStepdownTimeout witness dead oldDead stored)
  | .leaseExpired stored => some (node.leaseExpired stored)
  | .configurationChangeDone term removed stored =>
      some (node.onConfigurationChangeDone term removed stored)
  | .transferLeadershipTo => some node.transferLeadershipTo
  | .transferTimeout term => some (node.handleTransferTimeout term)
  | .vote => some node.vote
  | .error stored => some (node.onError stored)
  | .shutdown stored => some (node.shutdown stored)
  | .afterShutdown => node.afterShutdown

def Allowed (action : Action P) (node : ElectionNode P) : Prop :=
  match action with
  | .requestVoteResponse rpc _ _ => rpc ∈ node.voteRpcs
  | .preVoteResponse rpc _ _ => rpc ∈ node.preVoteRpcs
  | _ => True

/-- A node at the end of `init`, when the others can call it. -/
structure Initial (node : ElectionNode P) : Prop where
  state : node.state = .follower
  armed : node.voteCtx.grantSelfArg = none ∧ node.preVoteCtx.grantSelfArg = none
  waiting : node.waiting = []
  timedOut : node.timedOut = []
  starting : node.starting = true
  stopping : node.stopping = false
  foundAtShutdown : node.foundAtShutdown = []
  candidacies : node.candidacies = []

variable (P) in
def system : TransitionSystem (ElectionNode P) (Action P) where
  init := Initial
  allowed := Allowed
  step := step

def OwnVoteWins (node : ElectionNode P) (ballot : Ballot P) : Prop :=
  (ballot.grant node.serverId {}).2.granted = true

/-- Server 1 of a group at the end of its `init`. -/
def startedNode (peers : List Nat) : ElectionNode Nat :=
  { serverId := 1
    currentTerm := 1
    conf := { conf := Configuration.ofList peers, oldConf := Configuration.empty }
    persisted := (1, none) }

theorem startedNode_initial (peers : List Nat) : Initial (startedNode peers) :=
  ⟨rfl, ⟨rfl, rfl⟩, rfl, rfl, rfl, rfl, rfl, rfl⟩

end ElectionNode

end QuorumKit
