/-
What holds of every server of a group.

The log of a server comes from leaders, and so does everything that it will have stored
after any task of its disk thread.  What it has acknowledged stays in the log, unless a
later leader has not had it.  A leader has the log that its history records, and its ballot
box counts acknowledgements.
-/

import QuorumKit.Group.Candidates
import QuorumKit.Group.Records

namespace QuorumKit

variable {P D : Type}

namespace ElectionNode

theorem Started.standing {node : ElectionNode P} {serverId : P} {persisted : Nat × Option P}
    {conf : ConfigurationEntry P} {opened : Nat → Prop} {tip : LogId} {calm : Prop}
    {pastLed pastSent : List Nat} (started : Started serverId persisted conf node)
    (led : ∀ term ∈ pastLed, term ≤ node.persisted.1)
    (sent : ∀ term ∈ pastSent, term ≤ node.persisted.1) :
    Standing opened tip calm pastLed pastSent node := by
  have follower {state : State} (isState : node.state = state) : state = .follower :=
    isState.symm.trans started.state
  constructor
  · unfold ledTerms
    rw [started.young.2]
    exact led
  · exact fun isCandidate => State.noConfusion (follower isCandidate)
  · unfold sentTerms
    rw [started.idle.2.2]
    exact sent
  · exact fun isCandidate => State.noConfusion (follower isCandidate)
  · rw [started.state]
    exact fun leads => absurd leads Bool.false_ne_true
  · exact fun isCandidate => State.noConfusion (follower isCandidate)
  · rw [started.idle.2.2]
    exact fun rpc member => absurd member List.not_mem_nil

end ElectionNode

structure ProperLog (entries : List (LogEntry P D)) : Prop where
  consecutive : LogManager.Consecutive 1 entries
  proposed : ∀ entry ∈ entries, entry.Proposed
  positive : ∀ entry ∈ entries, 0 < entry.term

theorem ProperLog.nil : ProperLog ([] : List (LogEntry P D)) :=
  ⟨fun position entry found => by simp at found, fun _ member => absurd member List.not_mem_nil,
    fun _ member => absurd member List.not_mem_nil⟩

theorem ProperLog.of_shorter {entries held : List (LogEntry P D)} (proper : ProperLog entries)
    (shorter : held <+: entries) : ProperLog held :=
  ⟨fun position entry found =>
      proper.consecutive position entry (LeaderLogs.getElem?_of_shorter shorter found),
    fun entry member => proper.proposed entry (shorter.subset member),
    fun entry member => proper.positive entry (shorter.subset member)⟩

theorem ProperLog.append {entries added : List (LogEntry P D)} (proper : ProperLog entries)
    (consecutive : LogManager.Consecutive (entries.length + 1) added)
    (proposed : ∀ new ∈ added, new.Proposed) (positive : ∀ new ∈ added, 0 < new.term) :
    ProperLog (entries ++ added) := by
  refine ⟨?_, ?_, ?_⟩
  · intro position found isFound
    rw [List.getElem?_append] at isFound
    split_ifs at isFound with inside
    · exact proper.consecutive position found isFound
    · rw [consecutive _ found isFound]
      omega
  · intro new member
    exact (List.mem_append.mp member).elim (proper.proposed new) (proposed new)
  · intro new member
    exact (List.mem_append.mp member).elim (proper.positive new) (positive new)

namespace Group

structure KeepsLog (history : History P D) (server : P) (term : Nat) (log : ReplicaLog P D) :
    Prop where
  drained : log.Drained
  traced : log.Always (LeaderLogs.Traced LogEntry.term history.reigns history.count)
  proper : log.Always ProperLog
  current : log.Always (fun entries => ∀ entry ∈ entries, entry.term ≤ term)
  kept : ∀ former held, history.Acked server former held →
    (∃ entry ∈ held, entry.term = former) →
    LeaderLogs.Disowned history.reigns history.count former held ∨
      former ≤ term ∧ log.Always (held <+: ·)

structure KeepsVotes (history : History P D) (voteRpcs : P → List (VoteRpc P)) (server : P)
    (node : ElectionNode P) (stored : List (Nat × Option P)) : Prop where
  votes : ∀ vote ∈ history.votes, vote.server = server →
    vote.term ≤ node.persisted.1 ∧ vote.count ≤ history.count ∧
      LeaderLogs.Traced LogEntry.term history.reigns vote.count vote.entries ∧
      ∀ former held, history.Acked server former held → former < vote.term →
        (∃ entry ∈ held, entry.term = former) →
        held <+: vote.entries ∨ LeaderLogs.Disowned history.reigns vote.count former held
  voted : ∀ term peer, (term, some peer) ∈ stored →
    ∃ vote ∈ history.votes, vote.server = server ∧ vote.term = term ∧
      (peer = server ∨ ∃ rpc ∈ voteRpcs peer, term ≤ rpc.request.term ∧
        lastEntryId vote.entries ≤ rpc.request.lastLogId)
  asked : ∀ call ∈ node.requested, call.2 ≤ call.1.term ∧
    ∃ rpc ∈ voteRpcs call.1.serverId, rpc.request = call.1

def Calm (log : ReplicaLog P D) : Prop :=
  ∀ term nentries firstLogIndex, .run (.leader term nentries) firstLogIndex ∉ log.diskQueue

/-- The pending indexes of a leader: those behind the log that it was elected with.  A server
that has voted for one has acknowledged the log up to there. -/
structure Counts [DecidableEq P] (entry : ConfigurationEntry P) (history : History P D) (term : Nat)
    (reign : LeaderLogs.Reign (LogEntry P D)) (window : CommitWindow P) : Prop where
  first : window.first = reign.base.length + 1
  last : window.first + window.votes.length = reign.log.length + 1
  members : ∀ vote ∈ window.votes, vote.conf = entry.conf ∧ vote.oldConf = entry.former
  voters : ∀ position vote, window.votes[position]? = some vote → ∀ voter ∈ vote.voters,
    ∃ ack ∈ history.acknowledgements, ack.server = voter ∧ ack.term = term ∧
      window.first + position ≤ ack.entries.length

structure KeepsLead [DecidableEq P] (entry : ConfigurationEntry P) (history : History P D)
    (node : ElectionNode P) (replica : Replica P D) : Prop where
  leads : node.state.leads = true → ∃ reign window,
    history.reigns node.currentTerm = some reign ∧ reign.log = replica.log.entries ∧
      replica.ballotBox.Pending window ∧ Counts entry history node.currentTerm reign window
  closed : node.state.leads = false →
    replica.ballotBox.pendingIndex = 0 ∧ replica.ballotBox.pendingMetaQueue = []
  own : node.state.leads = true → ∀ made ∈ history.committed, made.1 = node.currentTerm →
    made.2.length ≤ replica.ballotBox.lastCommittedIndex

structure KeepsCommits (history : History P D) (term : Nat) (replica : Replica P D) : Prop where
  settled : history.Settled term replica.log.entries replica.ballotBox.lastCommittedIndex
  late : ∀ index ∈ replica.commits, history.Settled term replica.log.entries index
  applied : replica.log.appliedIndex ≤ replica.ballotBox.lastCommittedIndex

/-- The entries up to the index are those of the leader of the term. -/
def HasIssued (history : History P D) (term upTo : Nat) (entries : List (LogEntry P D)) : Prop :=
  ∃ held, held.length = upTo ∧ held <+: entries ∧ history.Issued term held

/-- What the log has when a closure is run; nothing once the term is over. -/
def Claim (history : History P D) (node : ElectionNode P) (done : AppendDone P D)
    (firstLogIndex : Nat) (entries : List (LogEntry P D)) : Prop :=
  match done with
  | .leader term nentries => node.state.leads = true → term = node.currentTerm ∧
      HasIssued history term (firstLogIndex + nentries - 1) entries
  | .follower request term => term = node.currentTerm →
      HasIssued history term (request.prevLogIndex + request.entries.length) entries

def Answers (requests : List (AppendEntriesRequest P D)) (term : Nat) : AppendDone P D → Prop
  | .leader _ _ => True
  | .follower request requestTerm =>
      request ∈ requests ∧ request.term = requestTerm ∧ requestTerm ≤ term

structure KeepsClosures (history : History P D) (requests : List (AppendEntriesRequest P D))
    (node : ElectionNode P) (replica : Replica P D) : Prop where
  promised : replica.log.Promised (Claim history node)
  queued : ∀ done firstLogIndex, .run done firstLogIndex ∈ replica.log.diskQueue →
    Answers requests node.currentTerm done
  async : ∀ closure ∈ replica.log.asyncClosures, Answers requests node.currentTerm closure.1 ∧
    ∀ request term, closure = (.follower request term, 0) →
      request.prevLogIndex + request.entries.length ≤ replica.ballotBox.lastCommittedIndex

structure Server [DecidableEq P] (entry : ConfigurationEntry P) (group : Group P D) (server : P) :
    Prop where
  log : KeepsLog group.history server (group.node server).currentTerm (group.replica server).log
  votes : KeepsVotes group.history group.voteRpcs server (group.node server)
    (group.cluster.lived server).stored
  standing : (group.node server).Standing (fun term => group.history.reigns term = none)
    (lastEntryId (group.replica server).log.entries) (Calm (group.replica server).log)
    ((group.cluster.lived server).past.flatMap ElectionNode.ledTerms)
    ((group.cluster.lived server).past.flatMap ElectionNode.sentTerms)
  lead : KeepsLead entry group.history (group.node server) (group.replica server)
  commits : KeepsCommits group.history (group.node server).currentTerm (group.replica server)
  closures : KeepsClosures group.history group.requests (group.node server) (group.replica server)

theorem KeepsLead.started [DecidableEq P] {entry : ConfigurationEntry P} {history : History P D}
    {node : ElectionNode P} (follower : node.state = .follower) (log : ReplicaLog P D) :
    KeepsLead entry history node { log := log } := by
  have idle : ¬ node.state.leads = true := by
    rw [follower]
    exact Bool.false_ne_true
  exact ⟨fun leads => absurd leads idle, fun _ => ⟨rfl, rfl⟩, fun leads => absurd leads idle⟩

variable {history later : History P D} {server : P} {term term' : Nat} {log : ReplicaLog P D}
  {node : ElectionNode P} {replica : Replica P D} {stored : List (Nat × Option P)}

theorem KeepsLog.grows (keeps : KeepsLog history server term log) (grows : history.Grows later)
    (notEarlier : term ≤ term')
    (same : ∀ former held, later.Acked server former held → history.Acked server former held) :
    KeepsLog later server term' log := by
  refine ⟨keeps.drained, ?_, keeps.proper, ?_, ?_⟩
  · exact keeps.traced.mono (fun entries traced => (traced.grows grows.reigns).mono grows.count)
  · exact keeps.current.mono (fun entries current entry member => (current entry member).trans notEarlier)
  · intro former held acked own
    rcases keeps.kept former held (same former held acked) own with disowned | ⟨early, always⟩
    · exact Or.inl ((disowned.grows grows.reigns).mono grows.count)
    · exact Or.inr ⟨early.trans notEarlier, always⟩

theorem KeepsVotes.grows {voteRpcs voteRpcs' : P → List (VoteRpc P)}
    (keeps : KeepsVotes history voteRpcs server node stored) (grows : history.Grows later)
    (more : ∀ peer, voteRpcs peer ⊆ voteRpcs' peer)
    (acks : ∀ former held, later.Acked server former held → former < node.persisted.1 →
      history.Acked server former held)
    (votes : ∀ vote ∈ later.votes, vote.server = server → vote ∈ history.votes) :
    KeepsVotes later voteRpcs' server node stored := by
  refine ⟨?_, ?_, ?_⟩
  · intro vote member isServer
    obtain ⟨written, counted, traced, kept⟩ :=
      keeps.votes vote (votes vote member isServer) isServer
    refine ⟨written, counted.trans grows.count, traced.grows grows.reigns, ?_⟩
    intro former held acked early own
    exact (kept former held (acks former held acked (early.trans_le written)) early own).imp_right
      (fun disowned => disowned.grows grows.reigns)
  · intro term peer voted
    obtain ⟨vote, member, isServer, isTerm, asked⟩ := keeps.voted term peer voted
    refine ⟨vote, grows.votes member, isServer, isTerm, asked.imp_right ?_⟩
    rintro ⟨rpc, sent, early, upToDate⟩
    exact ⟨rpc, more peer sent, early, upToDate⟩
  · intro call member
    obtain ⟨early, rpc, sent, isRequest⟩ := keeps.asked call member
    exact ⟨early, rpc, more _ sent, isRequest⟩

theorem HasIssued.grows {upTo : Nat} {entries : List (LogEntry P D)}
    (issued : HasIssued history term upTo entries) (grows : history.Grows later) :
    HasIssued later term upTo entries := by
  obtain ⟨held, length, prefixes, isIssued⟩ := issued
  exact ⟨held, length, prefixes, isIssued.grows grows⟩

theorem Claim.grows {done : AppendDone P D} {firstLogIndex : Nat} {entries : List (LogEntry P D)}
    (claim : Claim history node done firstLogIndex entries) (grows : history.Grows later) :
    Claim later node done firstLogIndex entries := by
  cases done with
  | leader term nentries => exact fun leads => ⟨(claim leads).1, (claim leads).2.grows grows⟩
  | follower request term => exact fun same => (claim same).grows grows

theorem Answers.more {requests requests' : List (AppendEntriesRequest P D)} {done : AppendDone P D}
    (answers : Answers requests term done) (more : requests ⊆ requests') (notEarlier : term ≤ term') :
    Answers requests' term' done := by
  cases done with
  | leader _ _ => trivial
  | follower request requestTerm =>
      exact ⟨more answers.1, answers.2.1, answers.2.2.trans notEarlier⟩

theorem KeepsClosures.grows {requests requests' : List (AppendEntriesRequest P D)}
    (keeps : KeepsClosures history requests node replica) (grows : history.Grows later)
    (more : requests ⊆ requests') : KeepsClosures later requests' node replica := by
  refine ⟨?_, ?_, ?_⟩
  · exact keeps.promised.mono (fun _ _ _ _ claim => claim.grows grows)
  · exact fun done firstLogIndex member =>
      (keeps.queued done firstLogIndex member).more more (le_refl _)
  · intro closure member
    obtain ⟨answers, applied⟩ := keeps.async closure member
    exact ⟨answers.more more (le_refl _), applied⟩

theorem KeepsCommits.grows (keeps : KeepsCommits history term replica) (grows : history.Grows later)
    (notEarlier : term ≤ term') : KeepsCommits later term' replica :=
  ⟨(keeps.settled.grows grows).later_term notEarlier,
    fun index member => ((keeps.late index member).grows grows).later_term notEarlier,
    keeps.applied⟩

variable [DecidableEq P] {entry : ConfigurationEntry P} {group after : Group P D}

theorem Counts.grows {reign : LeaderLogs.Reign (LogEntry P D)} {window : CommitWindow P}
    (counts : Counts entry history term reign window) (grows : history.Grows later) :
    Counts entry later term reign window := by
  refine ⟨counts.first, counts.last, counts.members, ?_⟩
  intro position vote found voter voted
  obtain ⟨ack, member, rest⟩ := counts.voters position vote found voter voted
  exact ⟨ack, grows.acknowledgements member, rest⟩

theorem KeepsLead.grows (keeps : KeepsLead entry history node replica)
    (grows : history.Grows later)
    (same : node.state.leads = true →
      later.reigns node.currentTerm = history.reigns node.currentTerm ∧
        ∀ made ∈ later.committed, made.1 = node.currentTerm → made ∈ history.committed) :
    KeepsLead entry later node replica := by
  refine ⟨?_, keeps.closed, ?_⟩
  · intro leads
    obtain ⟨reign, window, isReign, isLog, pending, counts⟩ := keeps.leads leads
    rw [← (same leads).1] at isReign
    exact ⟨reign, window, isReign, isLog, pending, counts.grows grows⟩
  · intro leads made member isTerm
    exact keeps.own leads made ((same leads).2 made member isTerm) isTerm

structure Untouched (group after : Group P D) (server : P) : Prop where
  lived : after.cluster.lived server = group.cluster.lived server
  replica : after.replica server = group.replica server
  grows : group.history.Grows after.history
  requests : group.requests ⊆ after.requests
  voteRpcs : ∀ peer, group.voteRpcs peer ⊆ after.voteRpcs peer
  acks : ∀ former held, after.history.Acked server former held →
    group.history.Acked server former held
  votes : ∀ vote ∈ after.history.votes, vote.server = server → vote ∈ group.history.votes
  reign : (group.node server).state.leads = true →
    after.history.reigns (group.node server).currentTerm =
        group.history.reigns (group.node server).currentTerm ∧
      ∀ made ∈ after.history.committed, made.1 = (group.node server).currentTerm →
        made ∈ group.history.committed

theorem Server.untouched (holds : Server entry group server) (untouched : Untouched group after server) :
    Server entry after server := by
  have grows := untouched.grows
  have node : after.node server = group.node server := congrArg LivedNode.node untouched.lived
  constructor
  · rw [node, untouched.replica]
    exact holds.log.grows grows (le_refl _) untouched.acks
  · rw [node, untouched.lived]
    exact holds.votes.grows grows untouched.voteRpcs
      (fun former held acked _ => untouched.acks former held acked) untouched.votes
  · rw [node, untouched.replica, untouched.lived]
    exact holds.standing.opens (fun _ free => grows.opened free)
  · rw [node, untouched.replica]
    exact holds.lead.grows grows untouched.reign
  · rw [node, untouched.replica]
    exact holds.commits.grows grows (le_refl _)
  · rw [node, untouched.replica]
    exact holds.closures.grows grows untouched.requests

end Group

end QuorumKit
