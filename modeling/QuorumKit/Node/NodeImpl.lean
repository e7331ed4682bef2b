/-
The node as the leader of its group, `NodeImpl` of `braft/node.cpp`.

The model has what a leader does between an entry and its closure: the log, the
ballot box, the closure queue, the iterator of the FSM caller and the change of the
configuration.  Functions that hold the mutex of the node are one step; the FSM
caller is split at each entry.  A failing `CHECK` ends the process.
-/

import QuorumKit.Ballot.BallotBox
import QuorumKit.Fsm.ClosureQueue
import QuorumKit.Fsm.FSMCaller
import QuorumKit.LogManager.LogManager

namespace QuorumKit

/-- `State` of `raft.h`. -/
inductive State where
  | leader
  | transferring
  | candidate
  | follower
  | error
  | uninitialized
  | shutting
  | shutdown
deriving DecidableEq

/-- `_state <= STATE_TRANSFERRING`. -/
def State.leads (state : State) : Bool := state = .leader ∨ state = .transferring

def State.isActive (state : State) : Bool :=
  state = .leader ∨ state = .transferring ∨ state = .candidate ∨ state = .follower

/-- A closure that goes to the ballot box: that of a task, which may be null, or
`ConfigurationChangeDone`. -/
inductive Done (C : Type) where
  | task (done : Option C)
  | configurationChange (term : Nat) (leaderStart : Bool)

/-- A closure in the closure queue.  The closures are numbered, and each one keeps
the entry that it was appended with. -/
structure PendingClosure (P D C : Type) where
  number : Nat
  entry : LogEntry P D
  done : Done C

/-- `Task`. -/
structure Task (D C : Type) where
  data : D
  done : Option C := none
  expectedTerm : Option Nat := none

inductive Stage where
  | none
  | catchingUp
  | joint
  | stable
deriving DecidableEq

/-- `ConfigurationCtx`.  The closure of the user is known by its number. -/
structure ConfigurationCtx (P : Type) where
  stage : Stage := .none
  nchanges : Nat := 0
  version : Nat := 0
  newPeers : Configuration P := Configuration.empty
  oldPeers : Configuration P := Configuration.empty
  addingPeers : Configuration P := Configuration.empty
  done : Option Nat := none

def ConfigurationCtx.isBusy {P : Type} (ctx : ConfigurationCtx P) : Bool := ctx.stage ≠ .none

/-- `OnCaughtUp`. -/
structure OnCaughtUp (P : Type) where
  term : Nat
  version : Nat
  peer : P

/-- The status with which `OnCaughtUp` runs.  `retried` is a timeout of a peer that
is alive, after which the closure waits again. -/
inductive CaughtUpStatus where
  | ok
  | retried
  | failed

structure NodeImpl (P D C : Type) where
  serverId : P
  state : State
  currentTerm : Nat
  conf : ConfigurationEntry P
  confCtx : ConfigurationCtx P := {}
  log : IndexedLog (LogEntry P D)
  configManager : ConfigurationManager P
  ballotBox : BallotBox P := {}
  closureQueue : ClosureQueue (PendingClosure P D C) := {}
  lastAppliedIndex : Nat := 0
  iterator : Option (IteratorImpl P D (PendingClosure P D C)) := none
  caughtUps : List (OnCaughtUp P) := []
  /-- The term in which the node became leader last. -/
  leaderTerm : Option Nat := none
  /-- The number of closures that went to the ballot box. -/
  appended : Nat := 0
  /-- Closures that were handed out, each with the entry it came with. -/
  handed : List (PendingClosure P D C × LogEntry P D) := []
  failed : List (PendingClosure P D C) := []
  /-- The number of changes of the configuration that were asked for. -/
  requests : Nat := 0
  /-- The closures of changes that were run, with their status. -/
  responses : List (Nat × Int) := []
  /-- The closures of tasks that were refused. -/
  rejected : List (Option C × Int) := []

namespace NodeImpl

variable {P D C : Type} [DecidableEq P] [Inhabited D]

/-- `last_log_index`. -/
def lastLogIndex (node : NodeImpl P D C) : Nat := node.log.stop - 1

/-- `check_and_set_configuration` on the configuration of the node. -/
def checkAndSetConfiguration (node : NodeImpl P D C) : NodeImpl P D C :=
  if node.conf.id = node.configManager.lastConfiguration.id then node
  else { node with conf := node.configManager.lastConfiguration }

def oldConf (node : NodeImpl P D C) : Option (Configuration P) :=
  if node.conf.stable then none else some node.conf.oldConf

/-- The ballot of a candidate, of `VoteBallotCtx::init`. -/
def voteBallot (node : NodeImpl P D C) : Ballot P := Ballot.init node.conf.conf node.oldConf

/-- `append_pending_task` with the closure and the entry of one index. -/
def appendPendingTask (node : NodeImpl P D C) (conf : Configuration P)
    (oldConf : Option (Configuration P)) (entry : LogEntry P D) (done : Done C) :
    Option (NodeImpl P D C) :=
  (node.ballotBox.appendPendingTask conf oldConf).map (fun ballotBox =>
    { node with
      ballotBox := ballotBox
      closureQueue :=
        node.closureQueue.appendPendingClosure
          { number := node.appended, entry := entry, done := done }
      appended := node.appended + 1
      log := node.log.append [entry] })

def dataEntry (node : NodeImpl P D C) (data : D) : LogEntry P D :=
  { type := .data, id := { index := node.log.stop, term := node.currentTerm }, data := data }

/-- The loop of `apply` over the tasks. -/
def applyTasks (node : NodeImpl P D C) : List (Task D C) → Option (NodeImpl P D C)
  | [] => some node
  | task :: rest =>
      if task.expectedTerm.any (· ≠ node.currentTerm) then
        applyTasks { node with rejected := (task.done, EPERM) :: node.rejected } rest
      else
        (node.appendPendingTask node.conf.conf node.oldConf (node.dataEntry task.data)
          (.task task.done)).bind (fun node => applyTasks node rest)

def apply (node : NodeImpl P D C) (tasks : List (Task D C)) (rejectNewUserLogs : Bool) :
    Option (NodeImpl P D C) :=
  if node.state ≠ .leader ∨ rejectNewUserLogs then
    let status :=
      if node.state = .leader then EREADONLY
      else if node.state ≠ .transferring then EPERM
      else EBUSY
    some { node with rejected := tasks.map (fun task => (task.done, status)) ++ node.rejected }
  else (node.applyTasks tasks).map checkAndSetConfiguration

def configurationEntry (node : NodeImpl P D C) (newConf : Configuration P)
    (oldConf : Option (Configuration P)) : LogEntry P D :=
  { type := .configuration
    id := { index := node.log.stop, term := node.currentTerm }
    peers := some newConf.peers
    oldPeers := oldConf.map Configuration.peers
    data := default }

def addConfiguration (node : NodeImpl P D C) (entry : ConfigurationEntry P) : NodeImpl P D C :=
  { node with configManager := node.configManager.add entry }

def unsafeApplyConfiguration (node : NodeImpl P D C) (newConf : Configuration P)
    (oldConf : Option (Configuration P)) (leaderStart : Bool) : Option (NodeImpl P D C) :=
  if node.confCtx.isBusy then
    let entry := node.configurationEntry newConf oldConf
    (node.appendPendingTask newConf oldConf entry
      (.configurationChange node.currentTerm leaderStart)).map (fun node =>
        (node.addConfiguration (ConfigurationEntry.ofLogEntry entry)).checkAndSetConfiguration)
  else none

/-- `reset`; the status is a null pointer when the leader steps down. -/
def resetCtx (node : NodeImpl P D C) (status : Option Int) : NodeImpl P D C :=
  if node.confCtx.stage = .none then node
  else
    { node with
      confCtx := { version := node.confCtx.version + 1 }
      responses :=
        match node.confCtx.done with
        | some done => (done, status.getD EPERM) :: node.responses
        | none => node.responses }

/-- `clear_pending_tasks`, which fails the closures of the queue. -/
def clearPendingTasks (node : NodeImpl P D C) : NodeImpl P D C :=
  { node with
    ballotBox := node.ballotBox.clearPendingTasks
    closureQueue := node.closureQueue.clear
    failed := node.closureQueue.queue ++ node.failed }

def setState (node : NodeImpl P D C) (state : State) : NodeImpl P D C :=
  { node with state := state }

def setTerm (node : NodeImpl P D C) (term : Nat) : NodeImpl P D C :=
  { node with currentTerm := term }

def stepDown (node : NodeImpl P D C) (term : Nat) : NodeImpl P D C :=
  if ¬ node.state.isActive then node
  else
    let stopped := if node.state.leads then node.clearPendingTasks else node
    ((stopped.setState .follower).resetCtx none).setTerm (max node.currentTerm term)

def nextStage (node : NodeImpl P D C) : Option (NodeImpl P D C) :=
  let ctx := node.confCtx
  match ctx.stage with
  | .none => none
  | .catchingUp =>
      if 1 < ctx.nchanges then
        { node with confCtx := { ctx with stage := .joint } }.unsafeApplyConfiguration ctx.newPeers
          (some ctx.oldPeers) false
      else
        { node with confCtx := { ctx with stage := .stable } }.unsafeApplyConfiguration ctx.newPeers
          none false
  | .joint =>
      { node with confCtx := { ctx with stage := .stable } }.unsafeApplyConfiguration ctx.newPeers
        none false
  | .stable =>
      let finished := node.resetCtx (some 0)
      some (if node.serverId ∈ ctx.newPeers.peers then finished
        else finished.stepDown node.currentTerm)

/-- `ConfigurationCtx::on_caughtup`. -/
def ctxOnCaughtUp (node : NodeImpl P D C) (version : Nat) (peer : P) (succ : Bool) :
    Option (NodeImpl P D C) :=
  let ctx := node.confCtx
  if version ≠ ctx.version then some node
  else if ctx.stage ≠ .catchingUp then none
  else if succ then
    let adding := ctx.addingPeers.removePeer peer
    let waiting : NodeImpl P D C := { node with confCtx := { ctx with addingPeers := adding } }
    if adding.isEmpty then waiting.nextStage else some waiting
  else some (node.resetCtx (some ECATCHUP))

/-- The loop of `start` over the peers to add.  `waits` says for which of them a
replicator starts and waits. -/
def waitCaughtUp (node : NodeImpl P D C) (waits : P → Bool) : List P → Option (NodeImpl P D C)
  | [] => some node
  | peer :: rest =>
      if waits peer then
        waitCaughtUp
          { node with
            caughtUps :=
              { term := node.currentTerm, version := node.confCtx.version, peer := peer } ::
                node.caughtUps }
          waits rest
      else node.ctxOnCaughtUp node.confCtx.version peer false

def start (node : NodeImpl P D C) (oldConf newConf : Configuration P) (done : Nat)
    (waits : P → Bool) : Option (NodeImpl P D C) :=
  if node.confCtx.isBusy ∨ node.confCtx.done ≠ none then none
  else
    match newConf.diffs oldConf with
    | (adding, removing) =>
        let ctx : ConfigurationCtx P :=
          { node.confCtx with
            done := some done
            stage := .catchingUp
            oldPeers := oldConf
            newPeers := newConf
            nchanges := adding.size + removing.size }
        if adding.isEmpty then { node with confCtx := ctx }.nextStage
        else
          { node with confCtx := { ctx with addingPeers := adding } }.waitCaughtUp waits
            adding.peers

def flush (node : NodeImpl P D C) (conf oldConf : Configuration P) : Option (NodeImpl P D C) :=
  if node.confCtx.isBusy then none
  else if oldConf.isEmpty then
    { node with
      confCtx := { node.confCtx with newPeers := conf, stage := .stable, oldPeers := conf }
      }.unsafeApplyConfiguration conf none true
  else
    { node with
      confCtx := { node.confCtx with newPeers := conf, stage := .joint, oldPeers := oldConf }
      }.unsafeApplyConfiguration conf (some oldConf) true

/-- `elect_self` up to the request of votes. -/
def electSelf (node : NodeImpl P D C) : NodeImpl P D C :=
  if node.conf.contains node.serverId then
    { node with state := .candidate, currentTerm := node.currentTerm + 1 }
  else node

def becomeLeader (node : NodeImpl P D C) : Option (NodeImpl P D C) :=
  if node.state ≠ .candidate then none
  else
    (node.ballotBox.resetPendingIndex (node.lastLogIndex + 1)).bind (fun ballotBox =>
      (node.closureQueue.resetFirstIndex (node.lastLogIndex + 1)).bind (fun closureQueue =>
        { node with
          state := .leader
          leaderTerm := some node.currentTerm
          ballotBox := ballotBox
          closureQueue := closureQueue }.flush node.conf.conf node.conf.oldConf))

/-- `transfer_leadership_to` a peer that the replicators accept. -/
def transferLeadership (node : NodeImpl P D C) : NodeImpl P D C :=
  if node.state = .leader ∧ ¬ node.confCtx.isBusy then { node with state := .transferring }
  else node

def handleTransferTimeout (node : NodeImpl P D C) (term : Nat) : NodeImpl P D C :=
  if term = node.currentTerm ∧ node.state = .transferring then { node with state := .leader }
  else node

/-- `on_error`. -/
def onError (node : NodeImpl P D C) : NodeImpl P D C :=
  let stopped := if node.state.isActive then node.stepDown node.currentTerm else node
  if stopped.state = .follower then stopped.setState .error else stopped

/-- `unsafe_register_conf_change`; the closure of the request gets the next number. -/
def registerConfChange (node : NodeImpl P D C) (newConf : Configuration P) (waits : P → Bool) :
    Option (NodeImpl P D C) :=
  let done := node.requests
  let asked : NodeImpl P D C := { node with requests := node.requests + 1 }
  if node.state ≠ .leader then
    some { asked with
      responses := (done, if node.state = .transferring then EBUSY else EPERM) :: node.responses }
  else if node.confCtx.isBusy then some { asked with responses := (done, EBUSY) :: node.responses }
  else if node.conf.conf.equals newConf then
    some { asked with responses := (done, 0) :: node.responses }
  else asked.start node.conf.conf newConf done waits

def addPeer (node : NodeImpl P D C) (peer : P) (waits : P → Bool) : Option (NodeImpl P D C) :=
  node.registerConfChange (node.conf.conf.addPeer peer) waits

def removePeer (node : NodeImpl P D C) (peer : P) (waits : P → Bool) : Option (NodeImpl P D C) :=
  node.registerConfChange (node.conf.conf.removePeer peer) waits

def changePeers (node : NodeImpl P D C) (newPeers : Configuration P) (waits : P → Bool) :
    Option (NodeImpl P D C) :=
  node.registerConfChange newPeers waits

/-- `on_caughtup`, run by the closure at a position. -/
def onCaughtUp (node : NodeImpl P D C) (position : Nat) (status : CaughtUpStatus) :
    Option (NodeImpl P D C) :=
  match node.caughtUps[position]? with
  | none => none
  | some caughtUp =>
      let ran : NodeImpl P D C := { node with caughtUps := node.caughtUps.eraseIdx position }
      if node.state ≠ .leader ∨ caughtUp.term ≠ node.currentTerm then some ran
      else
        match status with
        | .ok => ran.ctxOnCaughtUp caughtUp.version caughtUp.peer true
        | .retried => some { ran with caughtUps := caughtUp :: ran.caughtUps }
        | .failed => ran.ctxOnCaughtUp caughtUp.version caughtUp.peer false

/-- `on_configuration_change_done`. -/
def onConfigurationChangeDone (node : NodeImpl P D C) (term : Nat) : Option (NodeImpl P D C) :=
  if ¬ node.state.leads ∨ term ≠ node.currentTerm then some node else node.nextStage

def receive (node : NodeImpl P D C) (cut : Nat) (entries : List (LogEntry P D)) :
    NodeImpl P D C :=
  { node with
    log := (node.log.keepBelow cut).append entries
    configManager :=
      LogManager.addConfigurations (node.configManager.truncateSuffix (cut - 1)) entries
    }.checkAndSetConfiguration

/-- `do_committed` up to the first entry. -/
def startCommitted (node : NodeImpl P D C) (committedIndex : Nat) : Option (NodeImpl P D C) :=
  if node.iterator.isSome then none
  else if committedIndex ≤ node.lastAppliedIndex then some node
  else
    (node.closureQueue.popClosureUntil committedIndex).map (fun popped =>
      { node with
        closureQueue := popped.2
        iterator := some (IteratorImpl.init popped.1.2 popped.1.1 node.lastAppliedIndex
          committedIndex node.log.get?) })

/-- The closure of the current entry is run or given to the state machine. -/
def hand (node : NodeImpl P D C) (iter : IteratorImpl P D (PendingClosure P D C))
    (entry : LogEntry P D) : Option (NodeImpl P D C) :=
  match iter.done with
  | none => some node
  | some closure =>
      let handed : NodeImpl P D C := { node with handed := (closure, entry) :: node.handed }
      match closure.done with
      | .task _ => some handed
      | .configurationChange term _ => handed.onConfigurationChangeDone term

/-- One entry in the loop of `do_committed`. -/
def nextCommitted (node : NodeImpl P D C) : Option (NodeImpl P D C) :=
  match node.iterator with
  | none => none
  | some iter =>
      if iter.isGood then
        match iter.curEntry with
        | none => none
        | some entry =>
            (node.hand iter entry).map (fun node =>
              { node with iterator := some (iter.next node.log.get?) })
      else none

/-- The end of `do_committed`. -/
def finishCommitted (node : NodeImpl P D C) : Option (NodeImpl P D C) :=
  match node.iterator with
  | none => none
  | some iter =>
      if iter.isGood then none
      else
        some
          { node with
            iterator := none
            lastAppliedIndex := iter.committedIndex
            -- `run_the_rest_closure_with_error`
            failed :=
              if iter.hasError then
                iter.closures.drop (max iter.curIndex iter.firstClosureIndex -
                  iter.firstClosureIndex) ++ node.failed
              else node.failed }

inductive Action (P D C : Type) where
  | electSelf
  | becomeLeader
  | stepDown (term : Nat)
  | transferLeadership
  | handleTransferTimeout (term : Nat)
  | onError
  | apply (tasks : List (Task D C)) (rejectNewUserLogs : Bool)
  | addPeer (peer : P) (waits : P → Bool)
  | removePeer (peer : P) (waits : P → Bool)
  | changePeers (newPeers : Configuration P) (waits : P → Bool)
  | onCaughtUp (position : Nat) (status : CaughtUpStatus)
  | commitAt (firstLogIndex lastLogIndex : Nat) (peer : P)
  | setLastCommittedIndex (lastCommittedIndex : Nat)
  | receive (cut : Nat) (entries : List (LogEntry P D))
  | startCommitted (committedIndex : Nat)
  | nextCommitted
  | finishCommitted

def step (action : Action P D C) (node : NodeImpl P D C) : Option (NodeImpl P D C) :=
  match action with
  | .electSelf => some node.electSelf
  | .becomeLeader => node.becomeLeader
  | .stepDown term => some (node.stepDown term)
  | .transferLeadership => some node.transferLeadership
  | .handleTransferTimeout term => some (node.handleTransferTimeout term)
  | .onError => some node.onError
  | .apply tasks rejectNewUserLogs => node.apply tasks rejectNewUserLogs
  | .addPeer peer waits => node.addPeer peer waits
  | .removePeer peer waits => node.removePeer peer waits
  | .changePeers newPeers waits => node.changePeers newPeers waits
  | .onCaughtUp position status => node.onCaughtUp position status
  | .commitAt firstLogIndex lastLogIndex peer =>
      (node.ballotBox.step (.commitAt firstLogIndex lastLogIndex peer)).map (fun ballotBox =>
        { node with ballotBox := ballotBox })
  | .setLastCommittedIndex lastCommittedIndex =>
      (node.ballotBox.step (.setLastCommittedIndex lastCommittedIndex)).map (fun ballotBox =>
        { node with ballotBox := ballotBox })
  | .receive cut entries => some (node.receive cut entries)
  | .startCommitted committedIndex => node.startCommitted committedIndex
  | .nextCommitted => node.nextCommitted
  | .finishCommitted => node.finishCommitted

end NodeImpl

end QuorumKit
