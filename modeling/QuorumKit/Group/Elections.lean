/-
Calls of the nodes of a group.

A call may write a vote, which is recorded with the log of the voter, or make its node leader
of a term that has had none.  The log of a new leader is not behind those of its voters.
-/

import QuorumKit.Group.Proposals

namespace QuorumKit

namespace Group

variable {P D : Type} [DecidableEq P] {entry : ConfigurationEntry P} {group after : Group P D}
  {server : P} {action : ElectionNode.Action P}

/-! ### Calls -/

/-- The group after a call that leaves the node `node` and the replica `replica`. -/
def called (group : Group P D) (server : P) (node : ElectionNode P) (replica : Replica P D) :
    Group P D :=
  { group.setReplica server replica with
    cluster :=
      { lived := Function.update group.cluster.lived server
          { group.cluster.lived server with
            node := node
            stored := node.persisted :: (group.cluster.lived server).stored } }
    history :=
      (group.history.noteVote (group.node server) node
        (group.replica server).log.entries).noteLeader (group.node server) node
          (group.replica server).log.entries }

theorem call_cases (stepped : group.call server action = some after) :
    ∃ node replica, ElectionNode.step action (group.node server) = some node ∧
      (group.replica server).follow (group.node server) node = some replica ∧
        after = group.called server node replica ∧
          Cluster.step { server := server, action := .call action } group.cluster =
            some after.cluster := by
  obtain ⟨cluster, moves, stepped⟩ := Option.bind_eq_some_iff.mp stepped
  obtain ⟨run, runs, isCluster⟩ := Option.map_eq_some_iff.mp moves
  obtain ⟨node, calls, isRun⟩ := Option.map_eq_some_iff.mp runs
  have isNode : (cluster.lived server).node = node := by
    rw [← isCluster, ← isRun]
    simp only [Function.update_self]
  simp only at stepped
  rw [isNode] at stepped
  obtain ⟨replica, follows, rfl⟩ := Option.map_eq_some_iff.mp stepped
  refine ⟨node, replica, calls, follows, ?_, moves⟩
  rw [← isCluster, ← isRun]
  rfl

section Called

variable (group server) (node : ElectionNode P) (replica : Replica P D)

theorem called_lived : (group.called server node replica).cluster.lived server =
    { group.cluster.lived server with
      node := node
      stored := node.persisted :: (group.cluster.lived server).stored } :=
  Function.update_self _ _ _

theorem called_node : (group.called server node replica).node server = node :=
  congrArg LivedNode.node (called_lived group server node replica)

theorem called_replica : (group.called server node replica).replica server = replica :=
  Function.update_self _ _ _

theorem called_node_other {other : P} (apart : other ≠ server) :
    (group.called server node replica).cluster.lived other = group.cluster.lived other :=
  Function.update_of_ne apart _ _

variable {group server node}

theorem called_voteRpcs (more : (group.node server).voteRpcs ⊆ node.voteRpcs) (peer : P) :
    group.voteRpcs peer ⊆ (group.called server node replica).voteRpcs peer := by
  unfold voteRpcs
  by_cases same : peer = server
  · subst same
    rw [called_lived, List.flatMap_cons, List.flatMap_cons]
    intro rpc member
    rcases List.mem_append.mp member with current | past
    · exact List.mem_append_left _ (more current)
    · exact List.mem_append_right _ past
  · rw [called_node_other group server node replica same]
    exact List.Subset.refl _

theorem called_led (more : (group.node server).ledTerms ⊆ node.ledTerms) (other : P) :
    group.led other ⊆ (group.called server node replica).led other := by
  unfold led LivedNode.ledTerms
  by_cases same : other = server
  · subst same
    rw [called_lived, List.flatMap_cons, List.flatMap_cons]
    intro term member
    rcases List.mem_append.mp member with current | past
    · exact List.mem_append_left _ (more current)
    · exact List.mem_append_right _ past
  · rw [called_node_other group server node replica same]
    exact List.Subset.refl _

theorem called_led_same (same : node.ledTerms = (group.node server).ledTerms) :
    (group.called server node replica).led = group.led := by
  funext other
  unfold led LivedNode.ledTerms
  by_cases isServer : other = server
  · subst isServer
    rw [called_lived, List.flatMap_cons, List.flatMap_cons, same]
    rfl
  · rw [called_node_other group server node replica isServer]

end Called

variable {history later : History P D} {voteRpcs voteRpcs' : P → List (VoteRpc P)} {term : Nat}
  {log : ReplicaLog P D} {node node' : ElectionNode P} {stored : List (Nat × Option P)}

omit [DecidableEq P] in
theorem KeepsVotes.call (keeps : KeepsVotes history voteRpcs server node stored)
    (keepsLog : KeepsLog history server term log) (grows : history.Grows later)
    (more : ∀ peer, voteRpcs peer ⊆ voteRpcs' peer)
    (acks : ∀ former held, later.Acked server former held → history.Acked server former held)
    (votes : ∀ vote ∈ later.votes, vote.server = server → vote ∈ history.votes ∨
      vote = ⟨server, node'.persisted.1, log.entries, history.count⟩)
    (notLower : node.persisted.1 ≤ node'.persisted.1)
    (written : ∀ peer, node'.persisted.2 = some peer → node'.persisted ∈ stored ∨
      ∃ vote ∈ later.votes, vote.server = server ∧ vote.term = node'.persisted.1 ∧
        (peer = server ∨ ∃ rpc ∈ voteRpcs peer, node'.persisted.1 ≤ rpc.request.term ∧
          lastEntryId vote.entries ≤ rpc.request.lastLogId))
    (asked : ∀ call ∈ node'.requested, call ∈ node.requested ∨ call.2 ≤ call.1.term ∧
      ∃ rpc ∈ voteRpcs call.1.serverId, rpc.request = call.1) :
    KeepsVotes later voteRpcs' server node' (node'.persisted :: stored) := by
  have former {term : Nat} {peer : P} (voted : (term, some peer) ∈ stored) :
      ∃ vote ∈ later.votes, vote.server = server ∧ vote.term = term ∧
        (peer = server ∨ ∃ rpc ∈ voteRpcs' peer, term ≤ rpc.request.term ∧
          lastEntryId vote.entries ≤ rpc.request.lastLogId) := by
    obtain ⟨vote, member, isServer, isTerm, rest⟩ := keeps.voted term peer voted
    refine ⟨vote, grows.votes member, isServer, isTerm, rest.imp_right ?_⟩
    exact fun ⟨rpc, sent, upToDate⟩ => ⟨rpc, more peer sent, upToDate⟩
  refine ⟨?_, ?_, ?_⟩
  · intro vote member isServer
    rcases votes vote member isServer with old | rfl
    · obtain ⟨below, counted, traced, kept⟩ := keeps.votes vote old isServer
      refine ⟨below.trans notLower, counted.trans grows.count, traced.grows grows.reigns, ?_⟩
      exact fun former held acked early own =>
        (kept former held (acks former held acked) early own).imp_right
          (fun disowned => disowned.grows grows.reigns)
    · refine ⟨le_refl _, grows.count,
        (keepsLog.traced.entries keepsLog.drained).grows grows.reigns, ?_⟩
      intro former held acked _ own
      rcases keepsLog.kept former held (acks former held acked) own with disowned | ⟨_, always⟩
      · exact Or.inr (disowned.grows grows.reigns)
      · exact Or.inl (always.entries keepsLog.drained)
  · intro term peer voted
    rcases List.mem_cons.mp voted with new | old
    · have isVote : node'.persisted.2 = some peer := (congrArg Prod.snd new).symm
      rcases written peer isVote with inStored | ⟨vote, member, isServer, isTerm, rest⟩
      · rw [← new] at inStored
        exact former inStored
      · rw [← new] at isTerm rest
        refine ⟨vote, member, isServer, isTerm, rest.imp_right ?_⟩
        exact fun ⟨rpc, sent, upToDate⟩ => ⟨rpc, more peer sent, upToDate⟩
    · exact former old
  · intro call member
    rcases asked call member with old | ⟨early, rpc, sent, isRequest⟩
    · obtain ⟨early, rpc, sent, isRequest⟩ := keeps.asked call old
      exact ⟨early, rpc, more _ sent, isRequest⟩
    · exact ⟨early, rpc, more _ sent, isRequest⟩

theorem Sound.turn (sound : Sound entry group) (several : ∀ server, ¬ entry.Elects {server})
    (allowed : Cluster.Allowed entry { server := server, action := .call action } group.cluster)
    (flushed : Flushed (.call server action) group)
    (stepped : ElectionNode.step action (group.node server) = some node) :
    node.Standing (fun term => group.history.reigns term = none)
        (lastEntryId (group.replica server).log.entries) (Calm (group.replica server).log)
        ((group.cluster.lived server).past.flatMap ElectionNode.ledTerms)
        ((group.cluster.lived server).past.flatMap ElectionNode.sentTerms) ∧
      ElectionNode.Turn (group.node server) node := by
  have orderly := sound.orderly server
  refine (sound.servers server).standing.step orderly.sworn.pledge orderly.campaign several allowed.1
    allowed.2.1 ?_ (ElectionNode.step_cases stepped)
  cases action with
  | resume position lastLogId stepStored stored waits =>
      intro waiting
      obtain ⟨idle, isTip⟩ := flushed (by
        intro oldTerm triggered preVote
        rw [waiting] at preVote
        cases preVote)
      refine ⟨?_, isTip⟩
      intro term nentries firstLogIndex member
      rw [idle] at member
      exact absurd member List.not_mem_nil
  | _ => trivial

theorem Sound.voteFor (sound : Sound entry group) (flushed : Flushed (.call server action) group)
    (stepped : ElectionNode.step action (group.node server) = some node) {peer : P}
    (isVote : node.persisted.2 = some peer)
    (changed : node.persisted ≠ (group.node server).persisted) :
    peer = server ∨ ∃ rpc ∈ group.voteRpcs peer, node.persisted.1 ≤ rpc.request.term ∧
      lastEntryId (group.replica server).log.entries ≤ rpc.request.lastLogId := by
  have named : (group.node server).serverId = server := (sound.orderly server).named
  rcases ElectionNode.vote_written stepped isVote with same |
    ⟨position, lastLogId, stepStored, stored, waits, rfl, written⟩
  · exact absurd same changed
  cases written with
  | own waiting persisted => exact Or.inl named
  | other request waiting upToDate isTerm =>
      obtain ⟨_, isTip⟩ := flushed (by
        intro oldTerm triggered preVote
        rw [waiting] at preVote
        cases preVote)
      have member : (request, (group.node server).currentTerm) ∈ (group.node server).requested :=
        List.mem_filterMap.mpr ⟨_, List.mem_of_getElem? waiting, rfl⟩
      obtain ⟨early, rpc, sent, isRequest⟩ := (sound.servers server).votes.asked _ member
      simp only at early sent isRequest
      refine Or.inr ⟨rpc, sent, ?_, ?_⟩
      · rw [isRequest]
        rcases isTerm with current | asked
        · exact current ▸ early
        · exact asked.le
      · rw [isRequest, ← isTip]
        exact upToDate

theorem asked_of_call (stepped : ElectionNode.step action (group.node server) = some node)
    (sender : ∀ request, action = .requestVoteRequest request →
      ∃ rpc ∈ group.voteRpcs request.serverId, rpc.request = request) :
    ∀ call ∈ node.requested, call ∈ (group.node server).requested ∨
      call.2 ≤ call.1.term ∧ ∃ rpc ∈ group.voteRpcs call.1.serverId, rpc.request = call.1 := by
  intro call member
  rcases ElectionNode.step_requested stepped call member with old | ⟨isAction, current, early⟩
  · exact Or.inl old
  · exact Or.inr ⟨current ▸ early, sender call.1 isAction⟩

theorem noteVote_cases (history : History P D) (node node' : ElectionNode P)
    (entries : List (LogEntry P D)) :
    (history.noteVote node node' entries = history ∧
        (node'.persisted = node.persisted ∨ node'.persisted.2 = none)) ∨
      history.noteVote node node' entries =
          history.castVote node.serverId node'.persisted.1 entries ∧
        node'.persisted ≠ node.persisted := by
  unfold History.noteVote
  split_ifs with unchanged
  · exact Or.inl ⟨rfl, unchanged⟩
  · exact Or.inr ⟨rfl, fun same => unchanged (Or.inl same)⟩

/-! ### Calls that make no leader -/

variable {replica replica' : Replica P D} {requests : List (AppendEntriesRequest P D)}

omit [DecidableEq P] in
theorem follow_same (follows : replica.follow node node' = some replica')
    (ledTerms : node'.ledTerms = node.ledTerms) :
    (replica' = replica ∧ (node.state.leads = true → node'.state.leads = true)) ∨
      replica' = { replica with ballotBox := replica.ballotBox.clearPendingTasks } ∧
        node'.state.leads = false := by
  unfold Replica.follow at follows
  rw [ledTerms, if_pos rfl] at follows
  split_ifs at follows with stops
  · obtain rfl := Option.some.inj follows
    exact Or.inr ⟨rfl, Bool.eq_false_of_not_eq_true stops.2⟩
  · obtain rfl := Option.some.inj follows
    refine Or.inl ⟨rfl, fun leads => ?_⟩
    by_contra idle
    exact stops ⟨leads, idle⟩

theorem KeepsLead.follow (keeps : KeepsLead entry history node replica)
    (follows : replica.follow node node' = some replica')
    (ledTerms : node'.ledTerms = node.ledTerms)
    (leads : node'.state.leads = true → node.state.leads = true ∧
      node'.currentTerm = node.currentTerm) : KeepsLead entry history node' replica' := by
  rcases follow_same follows ledTerms with ⟨rfl, goesOn⟩ | ⟨rfl, stops⟩
  · refine ⟨?_, ?_, ?_⟩
    · intro isLeader
      obtain ⟨former, same⟩ := leads isLeader
      rw [same]
      exact keeps.leads former
    · intro idle
      apply keeps.closed
      by_contra former
      rw [goesOn (Bool.eq_true_of_not_eq_false former)] at idle
      contradiction
    · intro isLeader
      obtain ⟨former, same⟩ := leads isLeader
      rw [same]
      exact keeps.own former
  · refine ⟨?_, fun _ => ⟨rfl, rfl⟩, ?_⟩
    · intro isLeader
      rw [stops] at isLeader
      contradiction
    · intro isLeader
      rw [stops] at isLeader
      contradiction

omit [DecidableEq P] in
theorem KeepsClosures.turn (keeps : KeepsClosures history requests node replica)
    (log : replica'.log = replica.log)
    (committed : replica'.ballotBox.lastCommittedIndex = replica.ballotBox.lastCommittedIndex)
    (notEarlier : node.currentTerm ≤ node'.currentTerm)
    (leads : node'.state.leads = true → Calm replica.log ∨ node.state.leads = true ∧
      node'.currentTerm = node.currentTerm) : KeepsClosures history requests node' replica' := by
  refine ⟨?_, ?_, ?_⟩
  · rw [log]
    apply keeps.promised.mono
    intro done firstLogIndex member entries claim
    cases done with
    | leader term nentries =>
        intro isLeader
        rcases leads isLeader with calm | ⟨former, same⟩
        · exact absurd member (calm term nentries firstLogIndex)
        · rw [same]
          exact claim former
    | follower request term =>
        intro current
        obtain ⟨_, _, early⟩ := keeps.queued _ firstLogIndex member
        exact claim (by omega)
  · rw [log]
    exact fun done firstLogIndex member =>
      (keeps.queued done firstLogIndex member).more (List.Subset.refl _) notEarlier
  · rw [log, committed]
    intro closure member
    exact (keeps.async closure member).imp_left
      (fun answers => answers.more (List.Subset.refl _) notEarlier)

structure Called (entry : ConfigurationEntry P) (group : Group P D) (server : P)
    (node : ElectionNode P) (replica : Replica P D) : Prop where
  orderly : ∀ other, Cluster.Orderly entry (group.called server node replica).cluster other
  term : (group.node server).currentTerm ≤ node.currentTerm
  persisted : (group.node server).persisted.1 ≤ node.persisted.1
  voteRpcs : (group.node server).voteRpcs ⊆ node.voteRpcs
  standing : node.Standing (fun term => group.history.reigns term = none)
    (lastEntryId (group.replica server).log.entries) (Calm (group.replica server).log)
    ((group.cluster.lived server).past.flatMap ElectionNode.ledTerms)
    ((group.cluster.lived server).past.flatMap ElectionNode.sentTerms)
  asked : ∀ call ∈ node.requested, call ∈ (group.node server).requested ∨
    call.2 ≤ call.1.term ∧ ∃ rpc ∈ group.voteRpcs call.1.serverId, rpc.request = call.1

theorem Sound.called_same (sound : Sound entry group) (known : Called entry group server node replica)
    (follows : (group.replica server).follow (group.node server) node = some replica)
    (ledTerms : node.ledTerms = (group.node server).ledTerms)
    (leads : node.state.leads = true → (group.node server).state.leads = true ∧
      node.currentTerm = (group.node server).currentTerm)
    (voteFor : ∀ peer, node.persisted.2 = some peer →
      node.persisted ≠ (group.node server).persisted →
        peer = server ∨ ∃ rpc ∈ group.voteRpcs peer, node.persisted.1 ≤ rpc.request.term ∧
          lastEntryId (group.replica server).log.entries ≤ rpc.request.lastLogId) :
    Goes entry group (group.called server node replica) := by
  have holds := sound.servers server
  have pledge : (group.node server).Pledge (group.cluster.lived server).stored :=
    (sound.orderly server).sworn.pledge
  have named : (group.node server).serverId = server := (sound.orderly server).named
  have more (peer : P) := called_voteRpcs replica known.voteRpcs peer
  have isHistory : (group.called server node replica).history =
      group.history.noteVote (group.node server) node (group.replica server).log.entries := by
    change History.noteLeader _ _ _ _ = _
    unfold History.noteLeader
    rw [ledTerms, if_pos rfl]
  have votes := noteVote_cases group.history (group.node server) node
    (group.replica server).log.entries
  rw [← isHistory, named] at votes
  obtain ⟨grows, reigns, count, acknowledgements, committed⟩ :
      group.history.Grows (group.called server node replica).history ∧
      (group.called server node replica).history.reigns = group.history.reigns ∧
      (group.called server node replica).history.count = group.history.count ∧
      (group.called server node replica).history.acknowledgements =
        group.history.acknowledgements ∧
      (group.called server node replica).history.committed = group.history.committed := by
    rcases votes with ⟨same, _⟩ | ⟨cast, _⟩
    · rw [same]
      exact ⟨.refl _, rfl, rfl, rfl, rfl⟩
    · rw [cast]
      exact ⟨History.grows_castVote _ _ _ _, rfl, rfl, rfl, rfl⟩
  have led := called_led_same replica ledTerms
  have leaders : Leaders entry (group.called server node replica).history
      (group.called server node replica).led := by
    rw [led]
    exact sound.annals.toLeaders.grows reigns count grows
  have isVote : ∀ vote ∈ (group.called server node replica).history.votes,
      vote ∈ group.history.votes ∨
        vote = ⟨server, node.persisted.1, (group.replica server).log.entries,
          group.history.count⟩ := by
    intro vote member
    rcases votes with ⟨same, _⟩ | ⟨cast, _⟩
    · rw [same] at member
      exact Or.inl member
    · rw [cast] at member
      exact (List.mem_cons.mp member).symm
  refine Moves.goes server ⟨known.orderly, leaders, grows,
    fun _ apart => called_node_other _ _ _ _ apart, fun _ apart => Function.update_of_ne apart _ _,
    fun _ => by rw [led]; exact List.Subset.refl _, more, List.Subset.refl _,
    fun _ member => Or.inl member,
    fun vote member => (isVote vote member).imp_right (congrArg CastVote.server),
    fun ack member => Or.inl (acknowledgements ▸ member), fun made member => Or.inl (committed ▸ member),
    fun _ member => Or.inl member, fun _ _ _ => by rw [reigns]⟩ sound ?_
  have acked (former : Nat) (held : List (LogEntry P D))
      (acked : (group.called server node replica).history.Acked server former held) :
      group.history.Acked server former held := by
    unfold History.Acked at acked
    rw [acknowledgements] at acked
    exact acked
  have kept := follow_same follows ledTerms
  obtain ⟨log, late, lastCommitted⟩ : replica.log = (group.replica server).log ∧
      replica.commits = (group.replica server).commits ∧
      replica.ballotBox.lastCommittedIndex =
        (group.replica server).ballotBox.lastCommittedIndex := by
    rcases kept with ⟨rfl, _⟩ | ⟨rfl, _⟩ <;> exact ⟨rfl, rfl, rfl⟩
  constructor
  · rw [called_node, called_replica, log]
    exact holds.log.grows grows known.term acked
  · rw [called_node, called_lived]
    apply holds.votes.call holds.log grows more acked (fun vote member _ => isVote vote member)
      known.persisted
    · intro peer isVote
      rcases votes with ⟨_, unchanged | unvoted⟩ | ⟨cast, changed⟩
      · rw [unchanged] at isVote ⊢
        exact Or.inl (pledge.written peer isVote)
      · rw [unvoted] at isVote
        contradiction
      · refine Or.inr ⟨⟨server, node.persisted.1, (group.replica server).log.entries,
          group.history.count⟩, ?_, rfl, rfl, voteFor peer isVote changed⟩
        rw [cast]
        exact List.mem_cons_self
    · exact known.asked
  · rw [called_node, called_replica, called_lived, reigns, log]
    exact known.standing
  · rw [called_node, called_replica]
    refine (holds.lead.follow follows ledTerms leads).grows grows (fun _ => ?_)
    rw [reigns, committed]
    exact ⟨rfl, fun made member _ => member⟩
  · rw [called_node, called_replica]
    have commits := holds.commits.grows grows known.term
    refine ⟨?_, ?_, ?_⟩
    · rw [log, lastCommitted]
      exact commits.settled
    · rw [log, late]
      exact commits.late
    · rw [log, lastCommitted]
      exact commits.applied
  · rw [called_node, called_replica]
    exact (holds.closures.turn log lastCommitted known.term
      (fun isLeader => Or.inr (leads isLeader))).grows grows (List.Subset.refl _)

/-! ### A call that makes a leader -/

omit [DecidableEq P] in
theorem follow_promoted (follows : replica.follow node node' = some replica')
    (promoted : ElectionNode.Promoted node node') :
    ∃ box, replica.ballotBox.resetPendingIndex (replica.log.entries.length + 1) = some box ∧
      replica' = { replica with ballotBox := box } := by
  have longer : ¬ node'.ledTerms.length = node.ledTerms.length := by
    rw [promoted.added, List.length_cons]
    omega
  unfold Replica.follow at follows
  rw [if_neg longer] at follows
  obtain ⟨box, opens, isReplica⟩ := Option.map_eq_some_iff.mp follows
  exact ⟨box, opens, isReplica.symm⟩

theorem Sound.free (sound : Sound entry group)
    (orderly : ∀ other, Cluster.Orderly entry (group.called server node replica).cluster other)
    (promoted : ElectionNode.Promoted (group.node server) node) :
    group.history.reigns (group.node server).currentTerm = none := by
  cases isReign : group.history.reigns (group.node server).currentTerm with
  | none => rfl
  | some reign =>
      obtain ⟨_, _, _, other, isLed⟩ := sound.annals.reigned _ reign isReign
      have more : (group.node server).ledTerms ⊆ node.ledTerms := by
        rw [promoted.added]
        exact List.subset_cons_self _ _
      have leads : (group.node server).currentTerm ∈
          ((group.called server node replica).cluster.lived server).ledTerms := by
        unfold LivedNode.ledTerms
        rw [called_lived, List.flatMap_cons, promoted.added]
        exact List.mem_append_left _ List.mem_cons_self
      have same := Group.leader_unique orderly leads (called_led replica more other isLed)
      subst same
      -- the server has not led its term before
      have fresh := ((sound.servers server).standing.fresh promoted.candidate).2
      unfold Group.led LivedNode.ledTerms at isLed
      rw [List.flatMap_cons] at isLed
      exact absurd (fresh _ isLed) (lt_irrefl _)

theorem Sound.electors (sound : Sound entry group) (several : ∀ server, ¬ entry.Elects {server})
    (orderly : ∀ other, Cluster.Orderly entry (group.called server node replica).cluster other)
    (promoted : ElectionNode.Promoted (group.node server) node)
    (free : group.history.reigns (group.node server).currentTerm = none) :
    ∃ voters, entry.Elects voters ∧ ∀ voter ∈ voters, voter = server ∨
      ∃ vote ∈ group.history.votes, vote.server = voter ∧
        vote.term = (group.node server).currentTerm ∧ vote.count ≤ group.history.count ∧
          LeaderLogs.UpToDate LogEntry.term vote.entries (group.replica server).log.entries := by
  have standing := (sound.servers server).standing
  have leads : (group.node server).currentTerm ∈
      ((group.called server node replica).cluster.lived server).ledTerms := by
    unfold LivedNode.ledTerms
    rw [called_lived, List.flatMap_cons, promoted.added]
    exact List.mem_append_left _ List.mem_cons_self
  obtain ⟨_, alone | ⟨voters, elects, votes⟩⟩ := (orderly server).elected _ leads
  · exact absurd alone (several server)
  refine ⟨voters, elects, ?_⟩
  intro voter isVoter
  by_cases own : voter = server
  · exact Or.inl own
  refine Or.inr ?_
  have voted := votes voter isVoter
  unfold Cluster.Voted at voted
  rw [called_node_other group server node replica own] at voted
  obtain ⟨vote, member, isServer, isTerm, isOwn | ⟨rpc, sent, early, upToDate⟩⟩ :=
    (sound.servers voter).votes.voted _ _ voted
  · exact absurd isOwn.symm own
  refine ⟨vote, member, isServer, isTerm,
    ((sound.servers voter).votes.votes vote member isServer).2.1, upToDate_of_le ?_⟩
  unfold voteRpcs at sent
  rw [List.flatMap_cons] at sent
  rcases List.mem_append.mp sent with current | past
  · -- a request of this campaign has the last id of the log
    have bound := standing.sent rpc.request.term
      (List.mem_append_left _ (List.mem_map.mpr ⟨rpc, current, rfl⟩))
    have written := promoted.written
    rw [standing.asks rpc current (by omega) free] at upToDate
    exact upToDate
  · -- former lives have asked for votes of lower terms
    obtain ⟨life, isLife, inLife⟩ := List.mem_flatMap.mp past
    have lower := standing.past promoted.candidate rpc.request.term
      (List.mem_flatMap.mpr ⟨life, isLife, List.mem_map.mpr ⟨rpc, inLife, rfl⟩⟩)
    omega

theorem Leaders.lead {led led' : P → List Nat} {entries : List (LogEntry P D)}
    (leaders : Leaders entry history led) (free : history.reigns term = none)
    (more : ∀ server, led server ⊆ led' server)
    (new : ∀ other, ∀ number ∈ led' other, number ∈ led other ∨ number = term)
    (isLed : term ∈ led' server) (positive : 0 < term) (proper : ProperLog entries)
    (traced : LeaderLogs.Traced LogEntry.term history.reigns history.count entries)
    (notLater : ∀ held ∈ entries, held.term ≤ term)
    (electors : ∃ voters, entry.Elects voters ∧ ∀ voter ∈ voters, voter = server ∨
      ∃ vote ∈ history.votes, vote.server = voter ∧ vote.term = term ∧
        vote.count ≤ history.count ∧ LeaderLogs.UpToDate LogEntry.term vote.entries entries) :
    Leaders entry (history.lead server term entries) led' := by
  have grows := History.grows_lead server entries free
  have isReign : (history.lead server term entries).reigns term =
      some { rank := history.count, base := entries } := Function.update_self _ _ _
  have others (other : Nat) (apart : other ≠ term) :
      (history.lead server term entries).reigns other = history.reigns other :=
    Function.update_of_ne apart _ _
  have earlier : ∀ held ∈ entries, held.term < term := by
    intro held member
    obtain ⟨position, found⟩ := List.mem_iff_getElem?.mp member
    obtain ⟨reign, hasReign, _⟩ := traced position held found
    refine lt_of_le_of_ne (notLater held member) ?_
    intro same
    rw [same, free] at hasReign
    contradiction
  constructor
  · exact leaders.chronicle.lead rfl earlier traced grows.reigns isReign others
  · intro number reign isOther
    by_cases same : number = term
    · subst same
      rw [isReign] at isOther
      obtain rfl := Option.some.inj isOther
      refine ⟨Nat.lt_succ_self _, positive, ?_, server, isLed⟩
      rw [LeaderLogs.Reign.log, List.append_nil]
      exact proper
    · rw [others number same] at isOther
      obtain ⟨rank, isPositive, isProper, other, wasLed⟩ := leaders.reigned number reign isOther
      exact ⟨Nat.lt_succ_of_lt rank, isPositive, isProper, other, more other wasLed⟩
  · intro other number member
    by_cases same : number = term
    · rw [same, isReign]
      exact Option.some_ne_none _
    · rw [others number same]
      rcases new other number member with old | isNew
      · exact leaders.led other number old
      · exact absurd isNew same
  · intro number reign isOther
    by_cases same : number = term
    · subst same
      rw [isReign] at isOther
      obtain rfl := Option.some.inj isOther
      obtain ⟨voters, elects, votes⟩ := electors
      refine ⟨voters, elects, ?_⟩
      intro voter isVoter
      rcases votes voter isVoter with rfl | ⟨vote, member, rest⟩
      · exact ⟨_, List.mem_cons_self, rfl, rfl, le_refl _, LeaderLogs.UpToDate.refl _⟩
      · exact ⟨vote, grows.votes member, rest⟩
    · rw [others number same] at isOther
      obtain ⟨voters, elects, votes⟩ := leaders.elected number reign isOther
      refine ⟨voters, elects, ?_⟩
      intro voter isVoter
      obtain ⟨vote, member, rest⟩ := votes voter isVoter
      exact ⟨vote, grows.votes member, rest⟩

theorem Sound.called_promoted (sound : Sound entry group)
    (several : ∀ server, ¬ entry.Elects {server}) (known : Called entry group server node replica)
    (follows : (group.replica server).follow (group.node server) node = some replica)
    (promoted : ElectionNode.Promoted (group.node server) node) :
    Goes entry group (group.called server node replica) := by
  have holds := sound.servers server
  have pledge : (group.node server).Pledge (group.cluster.lived server).stored :=
    (sound.orderly server).sworn.pledge
  have named : (group.node server).serverId = server := (sound.orderly server).named
  have more (peer : P) := called_voteRpcs replica known.voteRpcs peer
  have free := sound.free known.orderly promoted
  have electors := sound.electors several known.orderly promoted free
  have calm := (holds.standing.campaign promoted.candidate promoted.closed).1
  obtain ⟨box, opens, isReplica⟩ := follow_promoted follows promoted
  have isHistory : (group.called server node replica).history =
      group.history.lead server (group.node server).currentTerm
        (group.replica server).log.entries := by
    change History.noteLeader _ _ _ _ = _
    unfold History.noteLeader History.noteVote
    rw [promoted.added, List.length_cons, if_neg (Nat.succ_ne_self _), promoted.persisted,
      if_pos (Or.inl rfl), promoted.term, named]
  have isLived := called_lived group server node replica
  have isNode := called_node group server node replica
  have isCalled := called_replica group server node replica
  have others (other : P) (apart : other ≠ server) :=
    called_node_other group server node replica apart
  have ledMore : (group.node server).ledTerms ⊆ node.ledTerms := by
    rw [promoted.added]
    exact List.subset_cons_self _ _
  have isLed := called_led replica ledMore
  have orderly := known.orderly
  have replicas (other : P) (apart : other ≠ server) :
      (group.called server node replica).replica other = group.replica other :=
    Function.update_of_ne apart _ _
  have records : (group.called server node replica).requests = group.requests ∧
      (group.called server node replica).responses = group.responses := ⟨rfl, rfl⟩
  generalize group.called server node replica = after
    at isHistory isLived isNode isCalled others isLed orderly replicas records more ⊢
  obtain ⟨requests, responses⟩ := records
  have grows := History.grows_lead server (group.replica server).log.entries free
  rw [← isHistory] at grows
  have leaders : Leaders entry after.history after.led := by
    rw [isHistory]
    refine sound.annals.toLeaders.lead free isLed ?_ ?_
      (holds.standing.fresh promoted.candidate).1 (holds.log.proper.entries holds.log.drained)
      (holds.log.traced.entries holds.log.drained) (holds.log.current.entries holds.log.drained)
      electors
    · intro other number member
      by_cases isServer : other = server
      · subst isServer
        unfold led LivedNode.ledTerms at member ⊢
        rw [isLived, List.flatMap_cons, promoted.added] at member
        rw [List.flatMap_cons]
        rcases List.mem_append.mp member with current | past
        · rcases List.mem_cons.mp current with isNew | old
          · exact Or.inr isNew
          · exact Or.inl (List.mem_append_left _ old)
        · exact Or.inl (List.mem_append_right _ past)
      · unfold led at member ⊢
        rw [others other isServer] at member
        exact Or.inl member
    · unfold led LivedNode.ledTerms
      rw [isLived, List.flatMap_cons, promoted.added]
      exact List.mem_append_left _ List.mem_cons_self
  have acked (former : Nat) (held : List (LogEntry P D))
      (acked : after.history.Acked server former held) : group.history.Acked server former held := by
    rw [isHistory] at acked
    exact acked
  have isVote : ∀ vote ∈ after.history.votes, vote ∈ group.history.votes ∨
      vote = ⟨server, (group.node server).currentTerm, (group.replica server).log.entries,
        group.history.count⟩ := by
    rw [isHistory]
    exact fun vote member => (List.mem_cons.mp member).symm
  have reigns (other : P) (apart : other ≠ server) (leads : (group.node other).state.leads = true) :
      after.history.reigns (group.node other).currentTerm =
        group.history.reigns (group.node other).currentTerm := by
    rw [isHistory]
    refine Function.update_of_ne ?_ _ _
    intro same
    have isReign := sound.annals.led other _ ((sound.servers other).leads_led leads)
    rw [same] at isReign
    exact isReign free
  have committed : after.history.committed = group.history.committed := by
    rw [isHistory]
    rfl
  refine Moves.goes server ⟨orderly, leaders, grows, others, replicas, isLed, more,
    by rw [requests]; exact List.Subset.refl _, fun _ member => Or.inl (requests ▸ member),
    fun vote member => (isVote vote member).imp_right (congrArg CastVote.server), ?_,
    fun made member => Or.inl (committed ▸ member), fun _ member => Or.inl (responses ▸ member),
    reigns⟩ sound ?_
  · rw [isHistory]
    exact fun _ member => Or.inl member
  have isReign : after.history.reigns (group.node server).currentTerm =
      some { rank := group.history.count, base := (group.replica server).log.entries } := by
    rw [isHistory]
    exact Function.update_self _ _ _
  obtain ⟨pending, commits⟩ := @BallotBox.Represents.step P _ _ box none
    (.resetPendingIndex ((group.replica server).log.entries.length + 1))
    (holds.lead.closed (by rw [promoted.candidate]; rfl)) opens
  have lastCommitted : box.lastCommittedIndex =
      (group.replica server).ballotBox.lastCommittedIndex := by
    unfold BallotBox.resetPendingIndex at opens
    split_ifs at opens
    rw [← Option.some.inj opens]
  have standing := known.standing
  subst isReplica
  constructor
  · rw [isNode, isCalled, promoted.term]
    exact holds.log.grows grows (le_refl _) acked
  · rw [isNode, isLived]
    apply holds.votes.call holds.log grows more acked
    · rw [promoted.persisted, promoted.written]
      exact fun vote member _ => isVote vote member
    · rw [promoted.persisted]
    · rw [promoted.persisted]
      exact fun peer isVote => Or.inl (pledge.written peer isVote)
    · exact known.asked
  · rw [isNode, isCalled, isLived]
    exact standing.opens (fun number => grows.opened)
  · rw [isNode, isCalled]
    refine ⟨fun _ => ⟨{ rank := group.history.count, base := (group.replica server).log.entries },
      { first := (group.replica server).log.entries.length + 1 }, ?_, List.append_nil _, pending,
      ?_⟩, ?_, ?_⟩
    · rw [promoted.term]
      exact isReign
    · refine ⟨rfl, ?_, fun vote member => absurd member List.not_mem_nil, ?_⟩
      · rw [LeaderLogs.Reign.log, List.append_nil]
        rfl
      · intro position vote found
        rw [List.getElem?_nil] at found
        contradiction
    · intro idle
      rw [promoted.leader] at idle
      contradiction
    · rw [committed, promoted.term]
      intro _ made member isTerm
      obtain ⟨reign, hasReign, _⟩ := (sound.annals.committed made member).led
      rw [isTerm, free] at hasReign
      contradiction
  · rw [isNode, isCalled, promoted.term]
    refine (KeepsCommits.grows ⟨?_, holds.commits.late, ?_⟩ grows (le_refl _))
    · rw [lastCommitted]
      exact holds.commits.settled
    · rw [lastCommitted]
      exact holds.commits.applied
  · rw [isNode, isCalled, requests]
    have turned : KeepsClosures group.history group.requests node
        { group.replica server with ballotBox := box } :=
      holds.closures.turn rfl lastCommitted promoted.term.ge (fun _ => Or.inl calm)
    exact turned.grows grows (List.Subset.refl _)

theorem Sound.call (sound : Sound entry group) (several : ∀ server, ¬ entry.Elects {server})
    (allowed : Cluster.Allowed entry { server := server, action := .call action } group.cluster)
    (sender : ∀ request, action = .requestVoteRequest request →
      ∃ rpc ∈ group.voteRpcs request.serverId, rpc.request = request)
    (flushed : Flushed (.call server action) group)
    (stepped : group.call server action = some after) : Goes entry group after := by
  obtain ⟨node, replica, calls, follows, rfl, moves⟩ := call_cases stepped
  obtain ⟨standing, turn⟩ := sound.turn several allowed flushed calls
  obtain ⟨term, persisted, voteRpcs⟩ :=
    (ElectionNode.step_cases calls).grows (sound.orderly server).sworn.pledge
  have known : Called entry group server node replica :=
    ⟨Cluster.Orderly.step sound.orderly allowed moves, term, persisted, voteRpcs, standing,
      asked_of_call calls sender⟩
  cases turn with
  | same ledTerms leads =>
      exact sound.called_same known follows ledTerms leads
        (fun peer isVote changed => sound.voteFor flushed calls isVote changed)
  | promoted promoted => exact sound.called_promoted several known follows promoted

end Group

end QuorumKit
