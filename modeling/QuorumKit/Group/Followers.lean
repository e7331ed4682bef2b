/-
Followers and their leader.

A follower that accepts a request is in the leader's term.  Where its log agrees with that
of the leader before the entries, the entries are merged into it, and it keeps what is
committed and what a later leader may need.
-/

import QuorumKit.Group.Elections

namespace QuorumKit

namespace ElectionNode

variable {P : Type} [DecidableEq P] {node : ElectionNode P} {term : Nat} {serverId : P}
  {renews stored : Bool}

theorem handleLeaderRequest_accepted (active : node.state.isActive = true)
    (notStale : ¬ term < node.currentTerm)
    (accepted : (node.handleLeaderRequest term serverId renews stored).leaderId = some serverId) :
    (node.handleLeaderRequest term serverId renews stored).currentTerm = term ∧
      (node.handleLeaderRequest term serverId renews stored).state = .follower := by
  have checked : (node.checkStepDown term serverId stored).currentTerm = term ∧
      (node.checkStepDown term serverId stored).state = .follower := by
    have stopped : (if node.currentTerm < term ∨ node.state ≠ .follower ∨ node.leaderId = none then
          node.stepDown term stored else node).currentTerm = term ∧
        (if node.currentTerm < term ∨ node.state ≠ .follower ∨ node.leaderId = none then
          node.stepDown term stored else node).state = .follower := by
      split
      · obtain ⟨preVoteCtx, same⟩ := stepDown_active active term stored
        rw [same]
        exact ⟨max_eq_right (not_lt.mp notStale), rfl⟩
      · rename_i kept
        rw [not_or, not_or, not_not] at kept
        exact ⟨le_antisymm (not_lt.mp notStale) (not_lt.mp kept.1), kept.2.1⟩
    unfold ElectionNode.checkStepDown
    simp only
    generalize (if node.currentTerm < term ∨ node.state ≠ .follower ∨ node.leaderId = none then
      node.stepDown term stored else node) = stopping at stopped ⊢
    split
    · exact stopped
    · exact stopped
  unfold ElectionNode.handleLeaderRequest at accepted ⊢
  rw [if_neg (not_not.mpr active), if_neg notStale] at accepted ⊢
  simp only at accepted ⊢
  generalize node.checkStepDown term serverId stored = stopped at accepted checked ⊢
  split_ifs at accepted ⊢ with other
  · -- a node that steps down has no leader
    obtain ⟨preVoteCtx, same⟩ := stepDown_active (by rw [checked.2]; rfl) (term + 1) stored
    rw [same] at accepted
    contradiction
  · exact checked
  · exact checked

end ElectionNode

namespace Group

variable {P D : Type} [DecidableEq P] {entry : ConfigurationEntry P} {group after : Group P D}
  {server : P} {request : AppendEntriesRequest P D} {reign : LeaderLogs.Reign (LogEntry P D)}
  {term : Nat}

theorem Sound.agrees (sound : Sound entry group) (isReign : group.history.reigns term = some reign)
    {index : Nat} (inside : index ≤ reign.log.length)
    (same : termAt (group.replica server).log.entries index = termAt reign.log index) :
    index ≤ (group.replica server).log.entries.length ∧
      (group.replica server).log.entries.take index = reign.log.take index := by
  cases index with
  | zero => exact ⟨Nat.zero_le _, rfl⟩
  | succ position =>
      have holds := sound.servers server
      obtain ⟨_, _, proper, _⟩ := sound.annals.reigned term reign isReign
      have isSent : reign.log[position]? = some reign.log[position] :=
        List.getElem?_eq_getElem inside
      have isTerm := ReplicaLog.termAt_inside isSent
      rw [isTerm] at same
      obtain ⟨held, found, sameTerm⟩ := ReplicaLog.getElem?_of_termAt
        (proper.positive _ (List.mem_of_getElem? isSent)) same
      exact ⟨(List.getElem?_eq_some_iff.mp found).1,
        (holds.log.traced.entries holds.log.drained).matching (sound.traced_reign isReign) found
          isSent sameTerm⟩

theorem Sound.follows (sound : Sound entry group)
    (isReign : group.history.reigns request.term = some reign)
    (current : (group.node server).currentTerm = request.term)
    (slice : ReplicaLog.Slice reign.log request.prevLogIndex request.logEntries)
    (nonempty : request.entries ≠ [])
    (reaches : request.prevLogIndex ≤ (group.replica server).log.entries.length)
    (agrees : (group.replica server).log.entries.take request.prevLogIndex =
      reign.log.take request.prevLogIndex) :
    ReplicaLog.Follows (group.replica server).log reign.log request.prevLogIndex
      request.logEntries := by
  have holds := sound.servers server
  obtain ⟨_, _, proper, _⟩ := sound.annals.reigned _ reign isReign
  have settled := holds.commits.settled.smaller holds.commits.applied
  constructor
  · exact slice
  · exact logEntries_consecutive _ _
  · intro isNil
    have length := logEntries_length request.entries request.prevLogIndex
    rw [AppendEntriesRequest.logEntries] at isNil
    rw [isNil, List.length_nil] at length
    exact nonempty (List.length_eq_zero_iff.mp length.symm)
  · exact matching_of_traced (holds.log.traced.entries holds.log.drained)
      (sound.traced_reign isReign)
  · exact proper.positive
  · exact agrees
  · exact reaches
  · exact sound.settled_led settled current.le isReign
  · exact settled.inside

variable {log merged : ReplicaLog P D} {done : AppendDone P D} {cut upTo : Nat}
  {remaining : List (LogEntry P D)}

theorem Sound.merge_log (sound : Sound entry group)
    (isReign : group.history.reigns (group.node server).currentTerm = some reign)
    (added : ReplicaLog.Added (group.replica server).log merged done cut remaining)
    (merges : Merged (group.replica server).log.entries reign.log merged.entries upTo cut) :
    KeepsLog group.history server (group.node server).currentTerm merged := by
  have keeps := (sound.servers server).log
  have drained := keeps.drained
  obtain ⟨rank, _, proper, _⟩ := sound.annals.reigned _ reign isReign
  refine ⟨added.drained drained, ?_, ?_, ?_, ?_⟩
  · apply added.always drained keeps.traced
    intro version above below
    rcases merges.between version above below with old | sent
    · exact (keeps.traced.entries drained).of_shorter old
    · exact (sound.traced_reign isReign).of_shorter sent
  · apply added.always drained keeps.proper
    intro version above below
    rcases merges.between version above below with old | sent
    · exact (keeps.proper.entries drained).of_shorter old
    · exact proper.of_shorter sent
  · apply added.always drained keeps.current
    intro version above below held member
    rcases merges.between version above below with old | sent
    · exact keeps.current.entries drained held (old.subset member)
    · exact sound.annals.chronicle.le_of_mem isReign (sent.subset member)
  · intro former held acked own
    rcases keeps.kept former held acked own with disowned | ⟨early, always⟩
    · exact Or.inl disowned
    · obtain ⟨ack, isAck, _, isTerm, shorter⟩ := acked
      obtain ⟨issuer, isIssuer, prefixes⟩ := sound.annals.acknowledged ack isAck
      rw [isTerm] at isIssuer
      rcases LeaderLogs.kept_or_disowned isIssuer (shorter.trans prefixes) early isReign rank with
        has | disowned
      · refine Or.inr ⟨early, added.always drained always ?_⟩
        intro version above _
        exact (merges.kept held (always.entries drained) has).trans above
      · exact Or.inl disowned

theorem Sound.merge_settled (sound : Sound entry group)
    (isReign : group.history.reigns term = some reign)
    (added : ReplicaLog.Added (group.replica server).log merged done cut remaining)
    (merges : Merged (group.replica server).log.entries reign.log merged.entries upTo cut)
    {index : Nat}
    (settled : group.history.Settled term (group.replica server).log.entries index) :
    group.history.Settled term merged.entries index := by
  rcases settled with isZero | ⟨made, member, early, long, prefixes⟩
  · exact Or.inl isZero
  · refine Or.inr ⟨made, member, early, long, ?_⟩
    have led := (List.take_prefix index _).trans (sound.committed_led member early isReign)
    rw [added.entries]
    exact (merges.kept _ prefixes led).trans (List.prefix_append _ _)

theorem Sound.merge_closures (sound : Sound entry group)
    (isReign : group.history.reigns (group.node server).currentTerm = some reign)
    (follower : (group.node server).state.leads = false) (asked : request ∈ group.requests)
    (current : request.term = (group.node server).currentTerm)
    (inside : request.prevLogIndex + request.entries.length ≤ reign.log.length)
    (added : ReplicaLog.Added (group.replica server).log merged
      (.follower request (group.node server).currentTerm) cut remaining)
    (merges : Merged (group.replica server).log.entries reign.log merged.entries
      (request.prevLogIndex + request.entries.length) cut) :
    KeepsClosures group.history group.requests (group.node server)
      { group.replica server with log := merged } := by
  have closures := (sound.servers server).closures
  have drained := (sound.servers server).log.drained
  refine ⟨?_, ?_, ?_⟩
  · apply added.promised drained closures.promised
    · intro other firstLogIndex _ claim version above _
      cases other with
      | leader term nentries =>
          intro leads
          rw [follower] at leads
          contradiction
      | follower former term =>
          intro same
          obtain ⟨held, length, prefixes, issuer, isIssuer, issued⟩ := claim same
          rw [same, isReign] at isIssuer
          obtain rfl := Option.some.inj isIssuer
          rw [← same] at isReign
          exact ⟨held, length, (merges.kept held prefixes issued).trans above, reign, isReign, issued⟩
    · intro _
      exact ⟨_, List.length_take_of_le inside, merges.has, reign, isReign, List.take_prefix _ _⟩
  · intro other firstLogIndex member
    simp only at member
    rw [added.queue] at member
    rcases List.mem_append.mp member with old | new
    · exact closures.queued other firstLogIndex old
    · rcases List.mem_append.mp new with changes | last
      · rcases List.mem_append.mp changes with cuts | appends
        · split_ifs at cuts
          · cases List.mem_singleton.mp cuts
          · exact absurd cuts List.not_mem_nil
        · obtain ⟨_, _, isTask⟩ := List.mem_map.mp appends
          cases isTask
      · have isDone := List.mem_singleton.mp last
        simp only [LogTask.run.injEq] at isDone
        rw [isDone.1]
        exact ⟨asked, current, le_refl _⟩
  · simp only
    rw [added.async]
    exact closures.async

theorem Sound.merge (sound : Sound entry group)
    (isReign : group.history.reigns (group.node server).currentTerm = some reign)
    (follower : (group.node server).state = .follower) (asked : request ∈ group.requests)
    (current : request.term = (group.node server).currentTerm)
    (inside : request.prevLogIndex + request.entries.length ≤ reign.log.length)
    (added : ReplicaLog.Added (group.replica server).log merged
      (.follower request (group.node server).currentTerm) cut remaining)
    (merges : Merged (group.replica server).log.entries reign.log merged.entries
      (request.prevLogIndex + request.entries.length) cut) :
    Goes entry group (group.setReplica server { group.replica server with log := merged }) := by
  have holds := sound.servers server
  have idle : (group.node server).state.leads = false := by
    rw [follower]
    rfl
  have works : Works entry group _ server := .setReplica group server
    { group.replica server with log := merged }
  refine works.goes sound ⟨?_, holds.votes, ?_, ?_, ?_, ?_⟩
  · rw [setReplica_self]
    exact sound.merge_log isReign added merges
  · refine holds.standing.retip ?_ ?_ _ _
    · intro isCandidate
      have isFollower : (group.node server).state = .candidate := isCandidate
      rw [follower] at isFollower
      contradiction
    · intro free
      have free : group.history.reigns (group.node server).currentTerm = none := free
      rw [isReign] at free
      contradiction
  · rw [setReplica_self]
    refine ⟨?_, holds.lead.closed, holds.lead.own⟩
    intro leads
    have leads : (group.node server).state.leads = true := leads
    rw [idle] at leads
    contradiction
  · rw [setReplica_self]
    refine ⟨sound.merge_settled isReign added merges holds.commits.settled, ?_, ?_⟩
    · exact fun index member =>
        sound.merge_settled isReign added merges (holds.commits.late index member)
    · simp only
      rw [added.applied]
      exact holds.commits.applied
  · rw [setReplica_self]
    exact sound.merge_closures isReign idle asked current inside added merges

theorem Sound.heartbeat (sound : Sound entry group) {index : Nat}
    (settled : group.history.Settled (group.node server).currentTerm
      (group.replica server).log.entries index) :
    Goes entry group (group.setReplica server
      { group.replica server with commits := (group.replica server).commits ++ [index] }) := by
  have holds := sound.servers server
  refine sound.setReplica rfl id holds.log ⟨holds.lead.leads, holds.lead.closed, holds.lead.own⟩
    ?_ ?_
  · refine ⟨holds.commits.settled, ?_, holds.commits.applied⟩
    intro other member
    rcases List.mem_append.mp member with former | new
    · exact holds.commits.late other former
    · rw [List.mem_singleton.mp new]
      exact settled
  · exact ⟨holds.closures.promised, holds.closures.queued, holds.closures.async⟩

/-- A node that has checked the sender merges the entries into its log, and no `CHECK` fails. -/
theorem Sound.receive (sound : Sound entry group) (asked : request ∈ group.requests)
    {former : ElectionNode P}
    (accepted : former.state.isActive = true → ¬ request.term < former.currentTerm →
      (group.node server).leaderId = some request.serverId →
        (group.node server).currentTerm = request.term ∧ (group.node server).state = .follower) :
    ∃ replica, (group.replica server).receive former (group.node server) request = some replica ∧
      Goes entry group (group.setReplica server replica) := by
  have holds := sound.servers server
  have unchanged : Goes entry group (group.setReplica server (group.replica server)) := by
    unfold Group.setReplica
    rw [Function.update_eq_self]
    exact ⟨sound, .refl _⟩
  have sent := sound.annals.requests request asked
  obtain ⟨reign, isReign, slice, prevLogTerm⟩ := sent.slice
  unfold Replica.receive
  by_cases active : ¬ former.state.isActive = true
  · rw [if_pos active]
    exact ⟨_, rfl, unchanged⟩
  by_cases stale : request.term < former.currentTerm
  · rw [if_neg active, if_pos stale]
    exact ⟨_, rfl, unchanged⟩
  by_cases other : (group.node server).leaderId ≠ some request.serverId
  · rw [if_neg active, if_neg stale, if_pos other]
    exact ⟨_, rfl, unchanged⟩
  by_cases gap : termAt (group.replica server).log.entries request.prevLogIndex ≠ request.prevLogTerm
  · rw [if_neg active, if_neg stale, if_neg other, if_pos gap]
    exact ⟨_, rfl, unchanged⟩
  rw [if_neg active, if_neg stale, if_neg other, if_neg gap]
  obtain ⟨current, follower⟩ := accepted (not_not.mp active) stale (not_not.mp other)
  obtain ⟨reaches, agrees⟩ := sound.agrees isReign slice.inside
    ((not_not.mp gap).trans prevLogTerm)
  by_cases isEmpty : request.entries.isEmpty = true
  · rw [if_pos isEmpty]
    refine ⟨_, rfl, sound.heartbeat ?_⟩
    rw [current]
    apply sound.settled_request asked
    refine ⟨_, List.length_take_of_le reaches, List.take_prefix _ _, reign, isReign, ?_⟩
    rw [agrees]
    exact List.take_prefix _ _
  rw [if_neg isEmpty, parseEntries_valid request.entries request.prevLogIndex sent.valid]
  have nonempty : request.entries ≠ [] := by
    rintro isNil
    rw [isNil] at isEmpty
    exact isEmpty rfl
  have follows := sound.follows isReign current slice nonempty reaches agrees
  have length := logEntries_length request.entries request.prevLogIndex
  have inside := slice.upTo
  rw [AppendEntriesRequest.logEntries, length] at inside
  rcases ReplicaLog.appendEntries_follower follows (.follower request (group.node server).currentTerm)
    with ⟨applied, refused⟩ | ⟨merged, cut, remaining, accepts, added, merges⟩
  · rw [AppendEntriesRequest.logEntries] at refused applied
    simp only
    rw [refused]
    rw [length] at applied
    refine ⟨_, rfl, sound.setLog rfl holds.commits.applied id ?_ ?_⟩
    · exact ⟨holds.log.drained, holds.log.traced, holds.log.proper, holds.log.current,
        holds.log.kept⟩
    · refine ⟨holds.closures.promised, holds.closures.queued, ?_⟩
      intro closure member
      rcases List.mem_append.mp member with old | new
      · exact holds.closures.async closure old
      · rw [List.mem_singleton.mp new]
        refine ⟨⟨asked, current.symm, le_refl _⟩, ?_⟩
        intro other term isClosure
        simp only [Prod.mk.injEq, AppendDone.follower.injEq] at isClosure
        rw [← isClosure.1.1]
        exact applied.trans holds.commits.applied
  · rw [AppendEntriesRequest.logEntries] at accepts merges
    simp only
    rw [accepts]
    rw [length] at merges
    rw [← current] at isReign
    exact ⟨_, rfl, sound.merge isReign follower asked current.symm inside added merges⟩

theorem Sound.checked (sound : Sound entry group) (several : ∀ server, ¬ entry.Elects {server})
    (asked : request ∈ group.requests) {fromAppendEntriesCache stored : Bool} {called : Group P D}
    (calls : group.call server (.leaderRequest request.term request.serverId
      (¬ fromAppendEntriesCache) stored) = some called) :
    ∃ replica, (called.replica server).receive (group.node server) (called.node server) request =
        some replica ∧ Goes entry group (called.setReplica server replica) := by
  have allowed : Cluster.Allowed entry
      { server := server
        action := .call (.leaderRequest request.term request.serverId (¬ fromAppendEntriesCache)
          stored) } group.cluster := ⟨trivial, trivial, fun _ never => False.elim never, trivial⟩
  have goes := sound.call several allowed (fun _ isRequest => by cases isRequest) trivial calls
  have stillAsked : request ∈ called.requests := by
    obtain ⟨_, _, _, _, rfl, _⟩ := call_cases calls
    exact asked
  have accepted : (group.node server).state.isActive = true →
      ¬ request.term < (group.node server).currentTerm →
        (called.node server).leaderId = some request.serverId →
          (called.node server).currentTerm = request.term ∧
            (called.node server).state = .follower := by
    intro active notStale accepted
    obtain ⟨node, other, steps, _, rfl, _⟩ := call_cases calls
    rw [called_node] at accepted ⊢
    obtain rfl := Option.some.inj steps
    exact ElectionNode.handleLeaderRequest_accepted active notStale accepted
  obtain ⟨replica, receives, received⟩ := goes.sound.receive stillAsked accepted
  exact ⟨replica, receives, goes.continue (fun _ => received)⟩

theorem Sound.handleAppendEntriesRequest (sound : Sound entry group)
    (several : ∀ server, ¬ entry.Elects {server}) (asked : request ∈ group.requests)
    {fromAppendEntriesCache stored : Bool}
    (stepped : group.handleAppendEntriesRequest server request fromAppendEntriesCache stored =
      some after) : Goes entry group after := by
  obtain ⟨called, calls, received⟩ := Option.bind_eq_some_iff.mp stepped
  obtain ⟨replica, receives, isAfter⟩ := sound.checked several asked calls
  rw [receives] at received
  rw [← Option.some.inj received]
  exact isAfter

end Group

end QuorumKit
