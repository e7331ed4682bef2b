/-
The steps of a server that has no request to handle.

The disk thread does a task, a closure answers the leader or counts the own vote, a
committed index arrives at the ballot box, and the state machine applies entries.
-/

import QuorumKit.Group.Commits

namespace QuorumKit

namespace Group

variable {P D : Type} [DecidableEq P] {entry : ConfigurationEntry P} {group after : Group P D}
  {server : P} {term upTo : Nat} {request : AppendEntriesRequest P D}

theorem Sound.settled_request (sound : Sound entry group) {entries : List (LogEntry P D)}
    (asked : request ∈ group.requests)
    (issued : HasIssued group.history request.term upTo entries) :
    group.history.Settled request.term entries (min request.committedIndex upTo) := by
  obtain ⟨held, length, prefixes, reign, isReign, isPrefix⟩ := issued
  rcases (sound.annals.requests request asked).committed with isZero | ⟨made, member, early, long⟩
  · exact Or.inl (by omega)
  · refine Or.inr ⟨made, member, early, by omega, ?_⟩
    have led := sound.committed_led member early isReign
    refine List.IsPrefix.trans ?_ prefixes
    apply List.prefix_of_prefix_length_le ((List.take_prefix _ _).trans led) isPrefix
    rw [List.length_take]
    omega

theorem Sound.answerLeader (sound : Sound entry group) (asked : request ∈ group.requests)
    (isTerm : request.term = term)
    (settled : term = (group.node server).currentTerm →
      group.history.Settled term (group.replica server).log.entries
        (min request.committedIndex (request.prevLogIndex + request.entries.length)))
    (answered : term = (group.node server).currentTerm →
      Answered group.history server term (request.prevLogIndex + request.entries.length)) :
    Goes entry group (group.answerLeader server request term) := by
  have holds := sound.servers server
  unfold Group.answerLeader
  by_cases old : term ≠ (group.node server).currentTerm
  · rw [if_pos old]
    exact ⟨sound, .refl _⟩
  rw [if_neg old]
  have current : term = (group.node server).currentTerm := not_not.mp old
  have works : Works entry group
      { group.setReplica server
          { group.replica server with
            commits := (group.replica server).commits ++
              [min request.committedIndex (request.prevLogIndex + request.entries.length)] } with
        responses := (server, request) :: group.responses } server := by
    refine { Works.setReplica group server _ with responses := ?_ }
    intro response member
    rcases List.mem_cons.mp member with new | former
    · rw [new]
      rw [← isTerm] at answered current
      exact Or.inr ⟨asked, answered current⟩
    · exact Or.inl former
  refine works.goes sound (works.keeps holds ?_ ?_ (fun _ _ acked _ => acked) ?_ ?_ ?_ ?_)
  all_goals simp only [setReplica_self]
  · exact id
  · exact holds.log
  · exact ⟨holds.lead.leads, holds.lead.closed, holds.lead.own⟩
  · refine ⟨holds.commits.settled, ?_, holds.commits.applied⟩
    intro index member
    rcases List.mem_append.mp member with former | new
    · exact holds.commits.late index former
    · rw [List.mem_singleton.mp new, ← current]
      exact settled current
  · exact ⟨holds.closures.promised, holds.closures.queued, holds.closures.async⟩

theorem Sound.setLog (sound : Sound entry group) {log : ReplicaLog P D}
    (entries : log.entries = (group.replica server).log.entries)
    (applied : log.appliedIndex ≤ (group.replica server).ballotBox.lastCommittedIndex)
    (calm : Calm (group.replica server).log → Calm log)
    (keeps : KeepsLog group.history server (group.node server).currentTerm log)
    (closures : KeepsClosures group.history group.requests (group.node server)
      { group.replica server with log := log }) :
    Goes entry group (group.setReplica server { group.replica server with log := log }) := by
  have holds := sound.servers server
  refine sound.setReplica entries calm keeps ⟨?_, holds.lead.closed, holds.lead.own⟩
    ⟨?_, ?_, applied⟩ closures
  · simp only [entries]
    exact holds.lead.leads
  · simp only [entries]
    exact holds.commits.settled
  · simp only [entries]
    exact holds.commits.late

theorem Sound.takeTask (sound : Sound entry group) {task : LogTask P D} {log : ReplicaLog P D}
    {batches : Bool} (taken : (group.replica server).log.takeTask batches = some (task, log)) :
    Goes entry group (group.setReplica server { group.replica server with log := log }) ∧
      ∀ done firstLogIndex, task = .run done firstLogIndex →
        Answers group.requests (group.node server).currentTerm done ∧
          log.Always (Claim group.history (group.node server) done firstLogIndex) := by
  have holds := sound.servers server
  obtain ⟨drained, always, promised, waited, rest, entries, async, applied⟩ :=
    ReplicaLog.takeTask_kept taken
  refine ⟨sound.setLog entries ?_ ?_ ?_ ?_, ?_⟩
  · rw [applied]
    exact holds.commits.applied
  · exact fun calm term nentries firstLogIndex member => calm term nentries firstLogIndex (rest member)
  · have keeps := holds.log
    refine ⟨drained keeps.drained, always _ keeps.traced, always _ keeps.proper,
      always _ keeps.current, ?_⟩
    intro former held acked own
    exact (keeps.kept former held acked own).imp_right (fun both => ⟨both.1, always _ both.2⟩)
  · refine ⟨(promised _ holds.closures.promised).1, ?_, ?_⟩
    · exact fun done firstLogIndex member => holds.closures.queued done firstLogIndex (rest member)
    · simp only
      rw [async]
      exact holds.closures.async
  · rintro done firstLogIndex rfl
    exact ⟨holds.closures.queued done firstLogIndex waited,
      (promised _ holds.closures.promised).2 done firstLogIndex rfl⟩

theorem Sound.setAppliedId (sound : Sound entry group) {index : Nat}
    (committed : index ≤ (group.replica server).ballotBox.lastCommittedIndex) :
    Goes entry group (group.setAppliedId server index) := by
  have holds := sound.servers server
  change Goes entry group (group.setReplica server
    { group.replica server with
      log := { (group.replica server).log with appliedIndex := index } })
  refine sound.setLog rfl committed id ?_ ?_
  · exact ⟨holds.log.drained, holds.log.traced, holds.log.proper, holds.log.current, holds.log.kept⟩
  · exact ⟨holds.closures.promised, holds.closures.queued, holds.closures.async⟩

theorem Sound.runStable (sound : Sound entry group) {done : AppendDone P D} {firstLogIndex : Nat}
    (answers : Answers group.requests (group.node server).currentTerm done)
    (claim : (group.replica server).log.Always
      (Claim group.history (group.node server) done firstLogIndex)) :
    Goes entry group (group.runStable server done firstLogIndex) := by
  cases done with
  | leader term nentries =>
      unfold Group.runStable
      simp only
      by_cases leads : (group.node server).state.leads = true
      · rw [if_pos leads]
        have current := (claim.stored leads).1
        have issued : (group.replica server).log.Always (HasIssued group.history
            (group.node server).currentTerm (firstLogIndex + nentries - 1)) := by
          rw [← current]
          exact claim.mono (fun _ claims => (claims leads).2)
        refine (sound.acknowledge issued).continue (fun sound => sound.commitAt (fun _ => Or.inr ?_))
        refine ⟨_, List.mem_cons_self, rfl, rfl, ?_⟩
        rw [(issued.stored.take issued.stored).2.1]
      · rw [if_neg leads]
        exact sound.commitAt (fun isLeader => absurd isLeader leads)
  | follower request term =>
      obtain ⟨asked, isTerm, _⟩ := answers
      unfold Group.runStable
      simp only
      by_cases current : term = (group.node server).currentTerm
      · rw [if_pos current]
        have issued : (group.replica server).log.Always (HasIssued group.history term
            (request.prevLogIndex + request.entries.length)) :=
          claim.mono (fun _ claims => claims current)
        have issuedNow := issued.entries (sound.servers server).log.drained
        have acked := issued
        rw [current] at acked
        refine (sound.acknowledge acked).continue (fun known => known.answerLeader asked isTerm ?_ ?_)
        · intro _
          rw [← isTerm] at issuedNow ⊢
          exact (sound.settled_request asked issuedNow).grows
            (sameLeaders_acknowledge _ _ _ _).grows
        · intro _
          refine Or.inl ⟨_, List.mem_cons_self, rfl, current.symm, ?_⟩
          rw [(issued.stored.take issued.stored).2.1]
      · rw [if_neg current]
        exact sound.answerLeader asked isTerm (fun same => absurd same current)
          (fun same => absurd same current)

theorem Sound.diskThread (sound : Sound entry group) {batches : Bool}
    (stepped : group.diskThread server batches = some after) : Goes entry group after := by
  obtain ⟨⟨task, log⟩, taken, rfl⟩ := Option.map_eq_some_iff.mp stepped
  obtain ⟨moved, claims⟩ := sound.takeTask taken
  cases task with
  | truncateSuffix lastIndexKept => exact moved
  | append added => exact moved
  | run done firstLogIndex =>
      obtain ⟨answers, claim⟩ := claims done firstLogIndex rfl
      simp only
      refine moved.continue (fun sound => sound.runStable answers ?_)
      rw [setReplica_self]
      exact claim

omit [DecidableEq P] in
theorem answered_of_settled {history : History P D} {entries : List (LogEntry P D)}
    (settled : history.Settled term entries upTo) : Answered history server term upTo := by
  rcases settled with isZero | ⟨made, member, early, long, _⟩
  · exact Or.inr (Or.inl isZero)
  · exact Or.inr (Or.inr ⟨made, member, early, long⟩)

theorem Sound.runAsync (sound : Sound entry group) {position : Nat}
    (stepped : group.runAsync server position = some after) : Goes entry group after := by
  have holds := sound.servers server
  obtain ⟨closure, found, rfl⟩ := Option.map_eq_some_iff.mp stepped
  obtain ⟨answers, committed⟩ := holds.closures.async closure (List.mem_of_getElem? found)
  have removed : Goes entry group (group.setReplica server
      { group.replica server with
        log := { (group.replica server).log with
          asyncClosures := (group.replica server).log.asyncClosures.eraseIdx position } }) := by
    refine sound.setLog rfl holds.commits.applied id ?_ ?_
    · exact ⟨holds.log.drained, holds.log.traced, holds.log.proper, holds.log.current,
        holds.log.kept⟩
    · exact ⟨holds.closures.promised, holds.closures.queued,
        fun closure member => holds.closures.async closure (List.mem_of_mem_eraseIdx member)⟩
  split
  · rename_i request term
    obtain ⟨asked, isTerm, _⟩ := answers
    have settled : term = (group.node server).currentTerm → group.history.Settled term
        (group.replica server).log.entries (request.prevLogIndex + request.entries.length) := by
      intro current
      rw [current]
      exact holds.commits.settled.smaller (committed request term rfl)
    refine removed.continue (fun sound => sound.answerLeader asked isTerm ?_
      (fun current => answered_of_settled (settled current)))
    intro current
    rw [setReplica_self]
    exact (settled current).smaller (Nat.min_le_right _ _)
  · exact removed

theorem Sound.setLastCommittedIndex (sound : Sound entry group) {position : Nat}
    (stepped : group.setLastCommittedIndex server position = some after) : Goes entry group after := by
  have holds := sound.servers server
  obtain ⟨index, found, stepped⟩ := Option.bind_eq_some_iff.mp stepped
  obtain ⟨⟨status, box⟩, sets, rfl⟩ := Option.map_eq_some_iff.mp stepped
  have late := holds.commits.late index (List.mem_of_getElem? found)
  -- the box is that of before, or it is closed and has the index of the leader
  have changes : box = (group.replica server).ballotBox ∨
      (group.replica server).ballotBox.pendingIndex = 0 ∧
        (group.replica server).ballotBox.pendingMetaQueue = [] ∧
          (group.replica server).ballotBox.lastCommittedIndex < index ∧
            box = (group.replica server).ballotBox.report index := by
    unfold BallotBox.setLastCommittedIndex at sets
    split_ifs at sets with opened below stale newer
    · exact Or.inl (congrArg Prod.snd (Option.some.inj sets)).symm
    · exact Or.inl (congrArg Prod.snd (Option.some.inj sets)).symm
    · rw [not_or, not_not, not_not] at opened
      exact Or.inr ⟨opened.1, opened.2, newer, (congrArg Prod.snd (Option.some.inj sets)).symm⟩
    · exact Or.inl (congrArg Prod.snd (Option.some.inj sets)).symm
  have later : ∀ index ∈ (group.replica server).commits.eraseIdx position,
      group.history.Settled (group.node server).currentTerm (group.replica server).log.entries index :=
    fun index member => holds.commits.late index (List.mem_of_mem_eraseIdx member)
  refine sound.setReplica rfl id holds.log ?_ ?_ ?_
  · rcases changes with rfl | ⟨closed, noBallots, newer, rfl⟩
    · exact ⟨holds.lead.leads, holds.lead.closed, holds.lead.own⟩
    · refine ⟨?_, fun _ => ⟨closed, noBallots⟩, ?_⟩
      · intro leads
        obtain ⟨reign, window, _, _, pending, _⟩ := holds.lead.leads leads
        have positive := pending.positive
        have lower := pending.lower
        omega
      · exact fun leads made member isTerm => (holds.lead.own leads made member isTerm).trans newer.le
  · rcases changes with rfl | ⟨_, _, newer, rfl⟩
    · exact ⟨holds.commits.settled, later, holds.commits.applied⟩
    · exact ⟨late, later, holds.commits.applied.trans newer.le⟩
  · refine ⟨holds.closures.promised, holds.closures.queued, ?_⟩
    intro closure member
    obtain ⟨answers, committed⟩ := holds.closures.async closure member
    refine ⟨answers, fun request term isClosure => (committed request term isClosure).trans ?_⟩
    rcases changes with rfl | ⟨_, _, newer, rfl⟩
    · exact le_refl _
    · exact newer.le

theorem Sound.onRpcReturned (sound : Sound entry group) {peer : P} {minFlyingIndex : Nat}
    (answered : (peer, request) ∈ group.responses) (nonempty : request.entries ≠ [])
    (stepped : group.onRpcReturned server peer request minFlyingIndex = some after) :
    Goes entry group after := by
  have holds := sound.servers server
  unfold Group.onRpcReturned at stepped
  simp only at stepped
  split_ifs at stepped with refused
  rw [not_or, not_not, not_not] at refused
  obtain ⟨leads, isTerm⟩ := refused
  obtain rfl := Option.some.inj stepped
  apply sound.commitAt
  intro _
  obtain ⟨reign, window, isReign, _, pending, counts⟩ := holds.lead.leads leads
  have first := counts.first
  have lower := pending.lower
  have below := pending.below
  rcases (sound.annals.responses _ answered).2 with ⟨ack, member, isPeer, ackTerm, long⟩ |
    isZero | ⟨made, member, early, long⟩
  · exact Or.inr ⟨ack, member, isPeer, ackTerm.trans isTerm, long⟩
  · have positive := List.length_pos_iff.mpr nonempty
    simp only at isZero
    omega
  · refine Or.inl ?_
    simp only at early long
    rw [isTerm] at early
    rcases Nat.eq_or_lt_of_le early with same | earlier
    · have own := holds.lead.own leads made member same
      omega
    · have based := (sound.committed_base member earlier isReign).length_le
      omega

end Group

end QuorumKit
