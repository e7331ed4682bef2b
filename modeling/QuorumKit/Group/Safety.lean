/-
Safety of a group.

Every step keeps what holds of the servers and of the history.  So logs match, what is
committed is in the log of every later leader and in the storages of a quorum, and no two
servers apply different entries at an index.
-/

import QuorumKit.Group.Restarts

namespace QuorumKit

namespace Group

variable {P D : Type} [DecidableEq P] {entry : ConfigurationEntry P} {group after : Group P D}

theorem Initial.sound (initial : Initial entry group) : Sound entry group := by
  have lived (server : P) : (group.cluster.lived server).past = [] ∧
      (group.cluster.lived server).stored = [(group.node server).persisted] ∧
        ∃ serverId persisted conf, (group.node server).Started serverId persisted conf := by
    obtain ⟨past, stored, serverId, persisted, conf, lastLogTerm, writes, starts⟩ :=
      initial.cluster.started server
    exact ⟨past, stored, serverId, persisted, conf, ElectionNode.init_started starts⟩
  have reigns (term : Nat) : group.history.reigns term = none := by
    rw [initial.history]
  have acked (server : P) (term : Nat) (held : List (LogEntry P D)) :
      ¬ group.history.Acked server term held := by
    rintro ⟨ack, member, _⟩
    rw [initial.history] at member
    exact List.not_mem_nil member
  have led (server : P) : group.led server = [] := by
    obtain ⟨past, _, serverId, persisted, conf, started⟩ := lived server
    unfold Group.led LivedNode.ledTerms
    rw [past, List.flatMap_cons, List.flatMap_nil, List.append_nil]
    unfold ElectionNode.ledTerms
    have candidacies : (group.cluster.lived server).node.candidacies = [] := started.young.2
    rw [candidacies]
    rfl
  refine ⟨Cluster.Initial.orderly initial.cluster, ?_, ?_⟩
  · refine { chronicle := ⟨?_, ?_, ?_⟩, reigned := ?_, led := ?_, elected := ?_, acknowledged := ?_,
             committed := ?_, requests := ?_, responses := ?_ }
    · exact fun number reign isReign => by rw [reigns] at isReign; contradiction
    · exact fun number reign isReign => by rw [reigns] at isReign; contradiction
    · exact fun number reign isReign => by rw [reigns] at isReign; contradiction
    · exact fun number reign isReign => by rw [reigns] at isReign; contradiction
    · intro server term member
      rw [led] at member
      exact absurd member List.not_mem_nil
    · exact fun number reign isReign => by rw [reigns] at isReign; contradiction
    · rw [initial.history]
      exact fun ack member => absurd member List.not_mem_nil
    · intro made member
      rw [initial.history] at member
      exact absurd member List.not_mem_nil
    · rw [initial.requests]
      exact fun request member => absurd member List.not_mem_nil
    · rw [initial.responses]
      exact fun response member => absurd member List.not_mem_nil
  · intro server
    obtain ⟨past, stored, serverId, persisted, conf, started⟩ := lived server
    constructor
    · rw [initial.replica]
      exact ⟨rfl, LeaderLogs.Traced.nil, ProperLog.nil, fun held member => absurd member List.not_mem_nil,
        fun former held isAcked => absurd isAcked (acked server former held)⟩
    · refine ⟨?_, ?_, ?_⟩
      · rw [initial.history]
        exact fun vote member => absurd member List.not_mem_nil
      · rw [stored]
        intro term peer member
        have isVote := congrArg Prod.snd (List.mem_singleton.mp member)
        rw [initial.votes server] at isVote
        contradiction
      · unfold ElectionNode.requested
        rw [started.idle.1]
        exact fun call member => absurd member List.not_mem_nil
    · rw [past]
      exact started.standing (fun term member => absurd member List.not_mem_nil)
        (fun term member => absurd member List.not_mem_nil)
    · rw [initial.replica]
      exact .started started.state _
    · rw [initial.replica]
      exact ⟨Or.inl rfl, fun index member => absurd member List.not_mem_nil, le_refl _⟩
    · rw [initial.replica]
      exact ⟨trivial, fun done firstLogIndex member => absurd member List.not_mem_nil,
        fun closure member => absurd member List.not_mem_nil⟩

theorem Sound.step (sound : Sound entry group) (several : ∀ server, ¬ entry.Elects {server})
    {action : Action P D} (allowed : Allowed entry action group) (flushed : Flushed action group)
    (stepped : step action group = some after) : Goes entry group after := by
  cases action with
  | call server action =>
      refine sound.call several allowed.1 ?_ flushed stepped
      rintro request rfl
      obtain ⟨rpc, sent, _, isRequest⟩ := allowed.2
      exact ⟨rpc, sent, isRequest⟩
  | restart server conf stored => exact sound.restart allowed.2 stepped
  | appendEntriesRequest server request fromAppendEntriesCache stored =>
      exact sound.handleAppendEntriesRequest several allowed.1 stepped
  | apply server entries => exact sound.apply allowed stepped
  | diskThread server batches => exact sound.diskThread stepped
  | runAsync server position => exact sound.runAsync stepped
  | setLastCommittedIndex server position => exact sound.setLastCommittedIndex stepped
  | setAppliedId server index =>
      obtain rfl := Option.some.inj stepped
      exact sound.setAppliedId allowed.2
  | sendEntries server prevLogIndex entriesSize => exact sound.sendEntries stepped
  | onRpcReturned server peer request minFlyingIndex =>
      exact sound.onRpcReturned allowed.1 allowed.2.2 stepped

theorem sound_of_reachable (several : ∀ server, ¬ entry.Elects {server})
    (reached : ((system D entry).restrict Flushed).Reachable group) : Sound entry group := by
  apply reached.invariant (Sound entry)
  · exact fun _ initial => Initial.sound initial
  · exact fun _ _ _ sound allowed stepped => (sound.step several allowed.1 allowed.2 stepped).sound

theorem reaches_grows (several : ∀ server, ¬ entry.Elects {server})
    (reached : ((system D entry).restrict Flushed).Reachable group)
    (reaches : ((system D entry).restrict Flushed).Reaches group after) :
    group.history.Grows after.history := by
  apply reaches.keeps (fun last => group.history.Grows last.history) reached
  · intro action middle last reachedMiddle allowed stepped grows
    exact grows.trans ((sound_of_reachable several reachedMiddle).step several allowed.1 allowed.2
      stepped).grows
  · exact .refl _

def threeStarted : Group Nat Nat := { cluster := Cluster.threeStarted }

theorem threeStarted_initial : Initial LivedNode.groupOfThree threeStarted :=
  ⟨Cluster.threeStarted_initial, fun _ => rfl, fun _ => rfl, rfl, rfl, rfl⟩

theorem several_three (server : Nat) : ¬ LivedNode.groupOfThree.Elects {server} := by
  rintro ⟨majority, _⟩
  have few : ((LivedNode.groupOfThree.conf.peers.toFinset) ∩ {server}).card ≤ 1 :=
    (Finset.card_le_card Finset.inter_subset_right).trans (Finset.card_singleton server).le
  have members : LivedNode.groupOfThree.conf.peers.toFinset.card = 3 := rfl
  unfold Majority at majority
  omega

def newEntry : LogEntry Nat Nat := { type := .data, id := { index := 0, term := 0 }, data := 7 }

theorem newEntry_proposed (entry : LogEntry Nat Nat) (member : entry ∈ [newEntry]) :
    entry.Proposed := by
  obtain rfl := List.mem_singleton.mp member
  exact ⟨fun same => EntryType.noConfusion same,
    ⟨fun other => absurd rfl other, fun same => EntryType.noConfusion same⟩, nofun, fun _ => rfl,
    nofun⟩

def firstRequest : AppendEntriesRequest Nat Nat :=
  { serverId := 1, term := 2, prevLogIndex := 0, prevLogTerm := 0,
    entries := [{ term := 2, type := .data, data := 7 }] }

def heartbeat : AppendEntriesRequest Nat Nat :=
  { serverId := 1, term := 2, prevLogIndex := 1, prevLogTerm := 2, committedIndex := 1,
    entries := [] }

def requestOfThird : VoteRpc Nat :=
  { peerId := 2
    term := 3
    ctxVersion := 1
    request := { serverId := 3, term := 3, lastLogId := {} } }

def probe : AppendEntriesRequest Nat Nat :=
  { serverId := 1, term := 2, prevLogIndex := 0, prevLogTerm := 0, entries := [] }

/-- Server 3 asks server 2 for a vote, and server 2 reads its last log id before the entry of
server 1 comes. -/
def firstCommit : List (Action Nat Nat) :=
  [.call 1 (.timeoutNowRequest 1 false true), .call 1 (.resume 0 {} true true false),
    .call 2 (.requestVoteRequest LivedNode.requestToSecond.request),
    .call 2 (.resume 0 {} true true false),
    .call 1 (.requestVoteResponse LivedNode.requestToSecond
      { term := 2, granted := true, previousTerm := 1 } true),
    .sendEntries 1 0 0, .appendEntriesRequest 3 probe false true,
    .call 3 (.timeoutNowRequest 2 false true), .call 3 (.resume 0 {} true true false),
    .call 2 (.requestVoteRequest requestOfThird.request), .apply 1 [newEntry],
    .sendEntries 1 0 1, .appendEntriesRequest 2 firstRequest false true, .diskThread 1 true,
    .diskThread 1 false, .diskThread 2 true, .diskThread 2 false,
    .onRpcReturned 1 2 firstRequest 1, .setAppliedId 1 1]

def secondCommit : List (Action Nat Nat) :=
  [.sendEntries 1 1 0, .appendEntriesRequest 2 heartbeat false true, .setLastCommittedIndex 2 1,
    .setAppliedId 2 1]

def lateVote : List (Action Nat Nat) :=
  [.call 2 (.resume 0 {} true true false),
    .call 3 (.requestVoteResponse requestOfThird
      { term := 3, granted := true, previousTerm := 2 } true)]

theorem commits_reached : ∃ group after late : Group Nat Nat,
    ((system Nat LivedNode.groupOfThree).restrict Flushed).Reachable group ∧
      ((system Nat LivedNode.groupOfThree).restrict Flushed).Reaches group after ∧
      (system Nat LivedNode.groupOfThree).Reaches group late ∧
      ((group.node 1).state.leads = true ∧ (group.node 1).currentTerm = 2 ∧
        (after.node 1).state.leads = true ∧ (after.node 1).currentTerm = 2) ∧
      (group.replica 1).log.entries = [{ newEntry with id := { index := 1, term := 2 } }] ∧
      (group.replica 2).log.stored = [{ newEntry with id := { index := 1, term := 2 } }] ∧
      (group.replica 1).ballotBox.lastCommittedIndex = 1 ∧
      (group.replica 1).log.appliedIndex = 1 ∧ (after.replica 2).log.appliedIndex = 1 ∧
      (late.node 3).state.leads = true ∧ (late.node 3).currentTerm = 3 ∧
      (late.replica 3).log.entries = [] := by
  have start : ((system Nat LivedNode.groupOfThree).restrict Flushed).Reachable threeStarted :=
    .start threeStarted_initial
  refine ⟨_, _, _, start.follows firstCommit
    ⟨⟨⟨⟨trivial, trivial, fun _ => False.elim, trivial⟩, trivial⟩, trivial⟩, _, rfl,
      ⟨⟨⟨trivial, rfl, fun _ => False.elim, trivial⟩, trivial⟩, fun _ => ⟨rfl, rfl⟩⟩, _, rfl,
      ⟨⟨⟨trivial, trivial, fun _ => False.elim, trivial⟩,
        _, List.mem_cons_self, rfl, rfl⟩, trivial⟩, _, rfl,
      ⟨⟨⟨trivial, rfl, fun _ => False.elim, trivial⟩, trivial⟩, fun _ => ⟨rfl, rfl⟩⟩, _, rfl,
      ⟨⟨⟨List.mem_cons_self, trivial, fun _ => False.elim,
        _, List.mem_cons_self, List.mem_cons_self⟩, trivial⟩, trivial⟩, _, rfl,
      ⟨trivial, trivial⟩, _, rfl,
      ⟨⟨List.mem_cons_self, by decide⟩, trivial⟩, _, rfl,
      ⟨⟨⟨trivial, trivial, fun _ => False.elim, trivial⟩, trivial⟩, trivial⟩, _, rfl,
      ⟨⟨⟨trivial, rfl, fun _ => False.elim, trivial⟩, trivial⟩, fun _ => ⟨rfl, rfl⟩⟩, _, rfl,
      ⟨⟨⟨trivial, trivial, fun _ => False.elim, trivial⟩,
        _, List.mem_cons_of_mem _ List.mem_cons_self, rfl, rfl⟩, trivial⟩, _, rfl,
      ⟨newEntry_proposed, trivial⟩, _, rfl,
      ⟨trivial, trivial⟩, _, rfl,
      ⟨⟨List.mem_cons_self, by decide⟩, trivial⟩, _, rfl,
      ⟨trivial, trivial⟩, _, rfl,
      ⟨trivial, trivial⟩, _, rfl,
      ⟨trivial, trivial⟩, _, rfl,
      ⟨trivial, trivial⟩, _, rfl,
      ⟨⟨List.mem_cons_self, rfl, nofun⟩, trivial⟩, _, rfl,
      ⟨⟨Nat.zero_le _, by decide⟩, trivial⟩, _, rfl, rfl⟩,
    TransitionSystem.Reaches.follows secondCommit .refl
    ⟨⟨trivial, trivial⟩, _, rfl,
      ⟨⟨List.mem_cons_self, by decide⟩, trivial⟩, _, rfl,
      ⟨trivial, trivial⟩, _, rfl,
      ⟨⟨Nat.zero_le _, by decide⟩, trivial⟩, _, rfl, rfl⟩,
    TransitionSystem.Reaches.follows lateVote .refl
    ⟨⟨⟨trivial, rfl, fun _ => False.elim, trivial⟩, trivial⟩, _, rfl,
      ⟨⟨List.mem_cons_of_mem _ List.mem_cons_self, trivial, fun _ => False.elim,
        _, List.mem_cons_self, List.mem_cons_self⟩, trivial⟩, _, rfl, rfl⟩,
    ⟨rfl, rfl, rfl, rfl⟩, rfl, rfl, rfl, rfl, rfl, rfl, rfl, rfl⟩

end Group

end QuorumKit
