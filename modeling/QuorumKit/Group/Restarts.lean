/-
Servers that stop and start again.

A server starts with the log that it has stored.  It has what it has acknowledged, and its
term is not below that of its last entry.
-/

import QuorumKit.Group.Followers

namespace QuorumKit

namespace ElectionNode

variable {P : Type} {node : ElectionNode P}

theorem init_term {serverId : P} {persisted : Nat × Option P} {conf : ConfigurationEntry P}
    {lastLogTerm : Nat} {writes : Bool}
    (starts : init serverId persisted conf lastLogTerm writes = some node) :
    lastLogTerm ≤ node.currentTerm := by
  obtain ⟨loaded, loads, isNode⟩ := Option.map_eq_some_iff.mp starts
  have known : lastLogTerm ≤ loaded.currentTerm := by
    unfold initMetaStorage at loads
    simp only at loads
    split_ifs at loads with old
    · rw [← Option.some.inj loads]
      exact Nat.le_succ _
    · rw [← Option.some.inj loads]
      exact not_lt.mp old
  rw [← isNode]
  split
  · exact known
  · exact known.trans ((ElectionNode.Modest.stepDown loaded loaded.currentTerm writes).term)

end ElectionNode

namespace Group

variable {P D : Type} [DecidableEq P] {entry : ConfigurationEntry P} {group after : Group P D}
  {server : P} {conf : ConfigurationEntry P} {stored : Bool} {node : ElectionNode P}

/-- The group when a server has started again with `node`. -/
def restarted (group : Group P D) (server : P) (node : ElectionNode P) : Group P D :=
  { group.setReplica server { log := (group.replica server).log.restart } with
    cluster :=
      { lived := Function.update group.cluster.lived server
          { node := node
            stored := node.persisted :: (group.cluster.lived server).stored
            past := group.node server :: (group.cluster.lived server).past } } }

theorem restart_cases (stepped : group.restart server conf stored = some after) :
    ∃ node, ElectionNode.init (group.node server).serverId (group.node server).persisted conf
        (lastEntryId (group.replica server).log.stored).term stored = some node ∧
      after = group.restarted server node ∧
        Cluster.step
          { server := server
            action := .restart conf (lastEntryId (group.replica server).log.stored).term stored }
          group.cluster = some after.cluster := by
  obtain ⟨cluster, moves, rfl⟩ := Option.map_eq_some_iff.mp stepped
  obtain ⟨run, runs, isCluster⟩ := Option.map_eq_some_iff.mp moves
  obtain ⟨node, starts, isRun⟩ := Option.map_eq_some_iff.mp runs
  refine ⟨node, starts, ?_, moves⟩
  rw [← isCluster, ← isRun]
  rfl

theorem Sound.restart_log (sound : Sound entry group)
    (known : (lastEntryId (group.replica server).log.stored).term ≤ node.currentTerm) :
    KeepsLog group.history server node.currentTerm (group.replica server).log.restart := by
  have keeps := (sound.servers server).log
  have traced := keeps.traced.stored
  have bounded : ∀ held ∈ (group.replica server).log.stored, held.term ≤ node.currentTerm := by
    intro held member
    have last := LeaderLogs.le_lastTerm sound.annals.chronicle traced member
    rw [← termAt_length] at last
    exact last.trans known
  refine ⟨ReplicaLog.restart_drained _, traced, keeps.proper.stored, bounded, ?_⟩
  intro former held acked own
  refine (keeps.kept former held acked own).imp_right ?_
  rintro ⟨_, always⟩
  refine ⟨?_, always.stored⟩
  obtain ⟨last, member, rfl⟩ := own
  exact bounded last (always.stored.subset member)

theorem Sound.restart (sound : Sound entry group) (members : conf.SameMembers entry)
    (stepped : group.restart server conf stored = some after) : Goes entry group after := by
  obtain ⟨node, starts, rfl, moves⟩ := restart_cases stepped
  have allowed : Cluster.Allowed entry
      { server := server
        action := .restart conf (lastEntryId (group.replica server).log.stored).term stored }
      group.cluster := ⟨trivial, members⟩
  have orderly := Cluster.Orderly.step sound.orderly allowed moves
  have started := ElectionNode.init_started starts
  have known := ElectionNode.init_term starts
  have holds := sound.servers server
  have pledge : (group.node server).Pledge (group.cluster.lived server).stored :=
    (sound.orderly server).sworn.pledge
  have isLived : (group.restarted server node).cluster.lived server =
      { node := node
        stored := node.persisted :: (group.cluster.lived server).stored
        past := group.node server :: (group.cluster.lived server).past } :=
    Function.update_self _ _ _
  have others {other : P} (apart : other ≠ server) :
      (group.restarted server node).cluster.lived other = group.cluster.lived other :=
    Function.update_of_ne apart _ _
  have isNode : (group.restarted server node).node server = node := congrArg LivedNode.node isLived
  have isReplica : (group.restarted server node).replica server =
      { log := (group.replica server).log.restart } := Function.update_self _ _ _
  have ledTerms : node.ledTerms = [] := by
    unfold ElectionNode.ledTerms
    rw [started.young.2]
    rfl
  have notLower : (group.node server).persisted.1 ≤ node.persisted.1 := by
    rcases started.storage with same | ⟨raised, _⟩
    · rw [same]
    · exact raised.le
  have led : (group.restarted server node).led = group.led := by
    funext other
    unfold Group.led LivedNode.ledTerms
    by_cases isServer : other = server
    · subst isServer
      rw [isLived, List.flatMap_cons, ledTerms]
      rfl
    · rw [others isServer]
  have more (peer : P) : group.voteRpcs peer ⊆ (group.restarted server node).voteRpcs peer := by
    unfold voteRpcs
    by_cases isServer : peer = server
    · subst isServer
      rw [isLived]
      exact List.subset_append_right node.voteRpcs _
    · rw [others isServer]
      exact List.Subset.refl _
  refine Moves.goes server ⟨orderly, ?_, .refl _, fun _ apart => others apart,
    fun _ apart => Function.update_of_ne apart _ _, ?_, more, List.Subset.refl _,
    fun _ member => Or.inl member, fun _ member => Or.inl member, fun _ member => Or.inl member,
    fun _ member => Or.inl member, fun _ member => Or.inl member, fun _ _ _ => rfl⟩ sound ?_
  · rw [led]
    exact sound.annals.toLeaders
  · rw [led]
    exact fun _ => List.Subset.refl _
  constructor
  · rw [isNode, isReplica]
    exact sound.restart_log known
  · rw [isNode, isLived]
    apply holds.votes.call holds.log (.refl _) more (fun _ _ acked => acked)
      (fun _ member _ => Or.inl member) notLower
    · intro peer isVote
      rcases started.storage with same | ⟨_, unvoted⟩
      · rw [same] at isVote ⊢
        exact Or.inl (pledge.written peer isVote)
      · rw [unvoted] at isVote
        contradiction
    · unfold ElectionNode.requested
      rw [started.idle.1]
      exact fun call member => absurd member List.not_mem_nil
  · rw [isNode, isReplica, isLived]
    exact started.standing
      (fun term member => (holds.standing.led term member).trans notLower)
      (fun term member => (holds.standing.sent term member).trans notLower)
  · rw [isNode, isReplica]
    exact .started started.state _
  · rw [isReplica]
    exact ⟨Or.inl rfl, fun index member => absurd member List.not_mem_nil, le_refl _⟩
  · rw [isReplica]
    exact ⟨trivial, fun done firstLogIndex member => absurd member List.not_mem_nil,
      fun closure member => absurd member List.not_mem_nil⟩

end Group

end QuorumKit
