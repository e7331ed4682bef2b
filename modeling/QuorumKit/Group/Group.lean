/-
A group of servers that elect leaders and replicate their logs.

Every server is a node with its log and its ballot box.  Requests and answers may be lost,
repeated, delayed and reordered, and a server may stop at any moment and start again with
its two storages, in which no write fails.  The members stay as they are, and nothing is
compacted.  A replicator sends and counts while its node leads.
-/

import QuorumKit.Ballot.QuorumPrefix
import QuorumKit.Group.ReplicaLog
import QuorumKit.Node.ElectionSafety

namespace QuorumKit

variable {P D : Type}

structure CastVote (P D : Type) where
  server : P
  term : Nat
  entries : List (LogEntry P D)
  count : Nat

structure Acknowledgement (P D : Type) where
  server : P
  term : Nat
  entries : List (LogEntry P D)

/-- Leaders with their logs, votes, acknowledgements, and what the leaders have committed in
their terms; no server reads it. -/
structure History (P D : Type) where
  reigns : Nat → Option (LeaderLogs.Reign (LogEntry P D)) := fun _ => none
  count : Nat := 0
  votes : List (CastVote P D) := []
  acknowledgements : List (Acknowledgement P D) := []
  committed : List (Nat × List (LogEntry P D)) := []

namespace History

def castVote (history : History P D) (server : P) (term : Nat) (entries : List (LogEntry P D)) :
    History P D :=
  { history with
    votes := { server := server, term := term, entries := entries, count := history.count } ::
      history.votes }

def lead (history : History P D) (server : P) (term : Nat) (entries : List (LogEntry P D)) :
    History P D :=
  { history.castVote server term entries with
    reigns := Function.update history.reigns term (some { rank := history.count, base := entries })
    count := history.count + 1 }

def extend (history : History P D) (term : Nat) (entries : List (LogEntry P D)) : History P D :=
  { history with
    reigns := Function.update history.reigns term
      ((history.reigns term).map (fun reign => { reign with own := reign.own ++ entries })) }

def acknowledge (history : History P D) (server : P) (term : Nat)
    (entries : List (LogEntry P D)) : History P D :=
  { history with
    acknowledgements := { server := server, term := term, entries := entries } ::
      history.acknowledgements }

def commit (history : History P D) (term : Nat) (entries : List (LogEntry P D)) : History P D :=
  { history with committed := (term, entries) :: history.committed }

def noteVote [DecidableEq P] (history : History P D) (node after : ElectionNode P)
    (entries : List (LogEntry P D)) : History P D :=
  if after.persisted = node.persisted ∨ after.persisted.2 = none then history
  else history.castVote node.serverId after.persisted.1 entries

def noteLeader (history : History P D) (node after : ElectionNode P)
    (entries : List (LogEntry P D)) : History P D :=
  if after.ledTerms.length = node.ledTerms.length then history
  else history.lead node.serverId after.currentTerm entries

end History

/-- `commits` are the calls of `set_last_committed_index` that are made without the mutex of
the node and have still to come. -/
structure Replica (P D : Type) where
  log : ReplicaLog P D := {}
  ballotBox : BallotBox P := {}
  commits : List Nat := []

structure Group (P D : Type) where
  cluster : Cluster P
  replica : P → Replica P D := fun _ => {}
  requests : List (AppendEntriesRequest P D) := []
  /-- Successful answers, with the server that gives them. -/
  responses : List (P × AppendEntriesRequest P D) := []
  history : History P D := {}

def LogEntry.toMeta (entry : LogEntry P D) : EntryMeta P D :=
  { term := entry.id.term
    type := entry.type
    peers := entry.peers.getD []
    oldPeers := if entry.peers.isNone then [] else entry.oldPeers.getD []
    data := entry.data }

/-- What `apply` and `unsafe_apply_configuration` hand over: a configuration has peers and
nothing else has. -/
structure LogEntry.Proposed (entry : LogEntry P D) : Prop where
  known : entry.type ≠ .unknown
  peers : entry.peers ≠ none ↔ entry.type = .configuration
  nonempty : entry.peers ≠ some []
  oldPeers : entry.peers = none → entry.oldPeers = none
  oldNonempty : entry.oldPeers ≠ some []

namespace Replica

variable [DecidableEq P]

/-- `become_leader` opens the ballot box, and `step_down` of a leader closes it. -/
def follow (replica : Replica P D) (node after : ElectionNode P) : Option (Replica P D) :=
  if after.ledTerms.length = node.ledTerms.length then
    if node.state.leads ∧ ¬ after.state.leads then
      some { replica with ballotBox := replica.ballotBox.clearPendingTasks }
    else some replica
  else
    (replica.ballotBox.resetPendingIndex (replica.log.entries.length + 1)).map (fun ballotBox =>
      { replica with ballotBox := ballotBox })

/-- `handle_append_entries_request` of the node, which is `after` once it has checked the
sender. -/
def receive (replica : Replica P D) (node after : ElectionNode P)
    (request : AppendEntriesRequest P D) : Option (Replica P D) :=
  if ¬ node.state.isActive then some replica
  else if request.term < node.currentTerm then some replica
  else if after.leaderId ≠ some request.serverId then some replica
  else if termAt replica.log.entries request.prevLogIndex ≠ request.prevLogTerm then some replica
  else if request.entries.isEmpty then
    some { replica with
      commits := replica.commits ++ [min request.committedIndex request.prevLogIndex] }
  else
    match parseEntries request.prevLogIndex request.entries with
    | none => none
    | some entries =>
        (replica.log.appendEntries (.follower request after.currentTerm) entries).map (fun log =>
          { replica with log := log })

end Replica

/-- `append_pending_task` for each of so many entries. -/
def appendPendingTasks [DecidableEq P] (node : ElectionNode P) :
    Nat → BallotBox P → Option (BallotBox P)
  | 0, ballotBox => some ballotBox
  | count + 1, ballotBox =>
      (ballotBox.appendPendingTask node.conf.conf node.oldConf).bind (appendPendingTasks node count)

namespace Group

variable [DecidableEq P]

def node (group : Group P D) (server : P) : ElectionNode P := (group.cluster.lived server).node

def setReplica (group : Group P D) (server : P) (replica : Replica P D) : Group P D :=
  { group with replica := Function.update group.replica server replica }

@[simp] theorem setReplica_self (group : Group P D) (server : P) (replica : Replica P D) :
    (group.setReplica server replica).replica server = replica := Function.update_self _ _ _

def call (group : Group P D) (server : P) (action : ElectionNode.Action P) : Option (Group P D) :=
  (Cluster.step { server := server, action := .call action } group.cluster).bind (fun cluster =>
    let node := group.node server
    let after := (cluster.lived server).node
    let entries := (group.replica server).log.entries
    ((group.replica server).follow node after).map (fun replica =>
      { group.setReplica server replica with
        cluster := cluster
        history := (group.history.noteVote node after entries).noteLeader node after entries }))

def restart (group : Group P D) (server : P) (conf : ConfigurationEntry P) (stored : Bool) :
    Option (Group P D) :=
  let log := (group.replica server).log.restart
  (Cluster.step
    { server := server, action := .restart conf (lastEntryId log.entries).term stored }
    group.cluster).map (fun cluster =>
      { group.setReplica server { log := log } with cluster := cluster })

def handleAppendEntriesRequest (group : Group P D) (server : P)
    (request : AppendEntriesRequest P D) (fromAppendEntriesCache stored : Bool) :
    Option (Group P D) :=
  (group.call server
    (.leaderRequest request.term request.serverId (¬ fromAppendEntriesCache) stored)).bind
      (fun called =>
        ((called.replica server).receive (group.node server) (called.node server) request).map
          (called.setReplica server))

/-- `apply`, or `unsafe_apply_configuration`, which goes on while leadership is transferred. -/
def apply (group : Group P D) (server : P) (entries : List (LogEntry P D)) : Option (Group P D) :=
  let node := group.node server
  let replica := group.replica server
  if ¬ node.state.leads then none
  else
    let entries := entries.map (fun entry =>
      { entry with id := { index := 0, term := node.currentTerm } })
    (appendPendingTasks node entries.length replica.ballotBox).bind (fun ballotBox =>
      (replica.log.appendEntries (.leader node.currentTerm entries.length) entries).map (fun log =>
        { group.setReplica server { replica with log := log, ballotBox := ballotBox } with
          history := group.history.extend node.currentTerm
            (log.entries.drop replica.log.entries.length) }))

/-- `commit_at`; what it commits is noted with the term of the node. -/
def commitAt (group : Group P D) (server : P) (firstLogIndex lastLogIndex : Nat) (peer : P) :
    Group P D :=
  let replica := group.replica server
  let ballotBox := (replica.ballotBox.commitAt firstLogIndex lastLogIndex peer).2
  { group.setReplica server { replica with ballotBox := ballotBox } with
    history :=
      if ballotBox.lastCommittedIndex = replica.ballotBox.lastCommittedIndex then group.history
      else
        group.history.commit (group.node server).currentTerm
          (replica.log.entries.take ballotBox.lastCommittedIndex) }

/-- `FollowerStableClosure::run` without an error. -/
def answerLeader (group : Group P D) (server : P) (request : AppendEntriesRequest P D)
    (term : Nat) : Group P D :=
  if term ≠ (group.node server).currentTerm then group
  else
    let replica := group.replica server
    { group.setReplica server
        { replica with
          commits := replica.commits ++
            [min request.committedIndex (request.prevLogIndex + request.entries.length)] } with
      responses := (server, request) :: group.responses }

/-- The server has stored the entries of its term up to an index. -/
def acknowledge (group : Group P D) (server : P) (upTo : Nat) : Group P D :=
  { group with
    history := group.history.acknowledge server (group.node server).currentTerm
      ((group.replica server).log.stored.take upTo) }

def runStable (group : Group P D) (server : P) (done : AppendDone P D) (firstLogIndex : Nat) :
    Group P D :=
  match done with
  | .leader _ nentries =>
      let lastLogIndex := firstLogIndex + nentries - 1
      let known :=
        if (group.node server).state.leads then group.acknowledge server lastLogIndex else group
      known.commitAt server firstLogIndex lastLogIndex server
  | .follower request term =>
      let known :=
        if term = (group.node server).currentTerm then
          group.acknowledge server (request.prevLogIndex + request.entries.length)
        else group
      known.answerLeader server request term

def diskThread (group : Group P D) (server : P) (batches : Bool) : Option (Group P D) :=
  let replica := group.replica server
  (replica.log.takeTask batches).map (fun taken =>
    let moved := group.setReplica server { replica with log := taken.2 }
    match taken.1 with
    | .run done firstLogIndex => moved.runStable server done firstLogIndex
    | _ => moved)

/-- A closure that was given to `run_closure_in_bthread`.  The entries of a leader are never
refused. -/
def runAsync (group : Group P D) (server : P) (position : Nat) : Option (Group P D) :=
  let replica := group.replica server
  replica.log.asyncClosures[position]?.map (fun closure =>
    let removed := group.setReplica server
      { replica with
        log := { replica.log with
          asyncClosures := replica.log.asyncClosures.eraseIdx position } }
    match closure with
    | (.follower request term, 0) => removed.answerLeader server request term
    | _ => removed)

def setLastCommittedIndex (group : Group P D) (server : P) (position : Nat) :
    Option (Group P D) :=
  let replica := group.replica server
  replica.commits[position]?.bind (fun lastCommittedIndex =>
    (replica.ballotBox.setLastCommittedIndex lastCommittedIndex).map (fun result =>
      group.setReplica server
        { replica with ballotBox := result.2, commits := replica.commits.eraseIdx position }))

def setAppliedId (group : Group P D) (server : P) (index : Nat) : Group P D :=
  let replica := group.replica server
  group.setReplica server { replica with log := { replica.log with appliedIndex := index } }

/-- The request of a replicator; without entries it is a heartbeat or a probe. -/
def sendEntries (group : Group P D) (server : P) (prevLogIndex entriesSize : Nat) :
    Option (Group P D) :=
  let node := group.node server
  let replica := group.replica server
  let entries := replica.log.entries
  if ¬ node.state.leads ∨ entries.length < prevLogIndex then none
  else
    some { group with
      requests :=
        { serverId := server
          term := node.currentTerm
          prevLogIndex := prevLogIndex
          prevLogTerm := termAt entries prevLogIndex
          committedIndex := replica.ballotBox.lastCommittedIndex
          entries := ((entries.drop prevLogIndex).take entriesSize).map LogEntry.toMeta } ::
            group.requests }

/-- A replicator counts a successful answer; it starts at the first index in flight. -/
def onRpcReturned (group : Group P D) (server peer : P) (request : AppendEntriesRequest P D)
    (minFlyingIndex : Nat) : Option (Group P D) :=
  let node := group.node server
  if ¬ node.state.leads ∨ request.term ≠ node.currentTerm then none
  else
    some (group.commitAt server minFlyingIndex
      (request.prevLogIndex + request.entries.length) peer)

inductive Action (P D : Type) where
  | call (server : P) (action : ElectionNode.Action P)
  | restart (server : P) (conf : ConfigurationEntry P) (stored : Bool)
  | appendEntriesRequest (server : P) (request : AppendEntriesRequest P D)
      (fromAppendEntriesCache stored : Bool)
  | apply (server : P) (entries : List (LogEntry P D))
  | diskThread (server : P) (batches : Bool)
  | runAsync (server : P) (position : Nat)
  | setLastCommittedIndex (server : P) (position : Nat)
  | setAppliedId (server : P) (index : Nat)
  | sendEntries (server : P) (prevLogIndex entriesSize : Nat)
  | onRpcReturned (server peer : P) (request : AppendEntriesRequest P D) (minFlyingIndex : Nat)

def step (action : Action P D) (group : Group P D) : Option (Group P D) :=
  match action with
  | .call server action => group.call server action
  | .restart server conf stored => group.restart server conf stored
  | .appendEntriesRequest server request fromAppendEntriesCache stored =>
      group.handleAppendEntriesRequest server request fromAppendEntriesCache stored
  | .apply server entries => group.apply server entries
  | .diskThread server batches => group.diskThread server batches
  | .runAsync server position => group.runAsync server position
  | .setLastCommittedIndex server position => group.setLastCommittedIndex server position
  | .setAppliedId server index => some (group.setAppliedId server index)
  | .sendEntries server prevLogIndex entriesSize =>
      group.sendEntries server prevLogIndex entriesSize
  | .onRpcReturned server peer request minFlyingIndex =>
      group.onRpcReturned server peer request minFlyingIndex

/-- The requests for votes that a server has sent in any of its lives. -/
def voteRpcs (group : Group P D) (server : P) : List (VoteRpc P) :=
  ((group.cluster.lived server).node :: (group.cluster.lived server).past).flatMap
    ElectionNode.voteRpcs

/-- Requests and answers come from the servers that send them.  What is applied is
committed. -/
def Allowed (entry : ConfigurationEntry P) (action : Action P D) (group : Group P D) : Prop :=
  match action with
  | .call server action =>
      Cluster.Allowed entry { server := server, action := .call action } group.cluster ∧
        match action with
        | .requestVoteRequest request =>
            ∃ rpc ∈ group.voteRpcs request.serverId, rpc.peerId = server ∧ rpc.request = request
        | .leaderRequest _ _ _ _ => False
        | _ => True
  | .restart server conf stored =>
      Cluster.Allowed entry { server := server, action := .restart conf 0 stored } group.cluster
  | .appendEntriesRequest server request _ _ =>
      request ∈ group.requests ∧ request.serverId ≠ server
  | .apply _ entries => ∀ entry ∈ entries, entry.Proposed
  | .setAppliedId server index =>
      (group.replica server).log.appliedIndex ≤ index ∧
        index ≤ (group.replica server).ballotBox.lastCommittedIndex
  | .onRpcReturned server peer request _ =>
      (peer, request) ∈ group.responses ∧ request.serverId = server ∧ request.entries ≠ []
  | _ => True

/-- A call that goes on behind `last_log_id(true)` finds the id that it has read: no entry has
come since the disk thread has answered it. -/
def Flushed (action : Action P D) (group : Group P D) : Prop :=
  match action with
  | .call server (.resume position lastLogId _ _ _) =>
      (∀ oldTerm triggered,
        (group.node server).waiting[position]? ≠ some (.preVote oldTerm triggered)) →
        (group.replica server).log.diskQueue = [] ∧
          lastLogId = lastEntryId (group.replica server).log.entries
  | _ => True

structure Initial (entry : ConfigurationEntry P) (group : Group P D) : Prop where
  cluster : Cluster.Initial entry group.cluster
  votes : ∀ server, (group.node server).persisted.2 = none
  replica : ∀ server, group.replica server = {}
  requests : group.requests = []
  responses : group.responses = []
  history : group.history = {}

variable (D) in
def system (entry : ConfigurationEntry P) : TransitionSystem (Group P D) (Action P D) where
  init := Initial entry
  allowed := Allowed entry
  step := step

end Group

end QuorumKit
