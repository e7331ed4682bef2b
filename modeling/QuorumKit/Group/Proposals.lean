/-
The entries that a leader appends.

They get the term of the leader and the next indexes, and the ballot box counts the votes
for each of them.
-/

import QuorumKit.Group.Requests

namespace QuorumKit

namespace Group

variable {P D : Type}

variable {history later : History P D} {server : P} {term index upTo : Nat}
  {held entries whole : List (LogEntry P D)} {node : ElectionNode P}
  {log after : ReplicaLog P D} {done : AppendDone P D} {remaining : List (LogEntry P D)}

theorem HasIssued.longer (issued : HasIssued history term upTo entries) (more : entries <+: whole) :
    HasIssued history term upTo whole := by
  obtain ⟨held, length, prefixes, isIssued⟩ := issued
  exact ⟨held, length, prefixes.trans more, isIssued⟩

theorem Claim.longer {firstLogIndex : Nat} (claim : Claim history node done firstLogIndex entries)
    (more : entries <+: whole) : Claim history node done firstLogIndex whole := by
  cases done with
  | leader term nentries => exact fun leads => ⟨(claim leads).1, (claim leads).2.longer more⟩
  | follower request term => exact fun same => (claim same).longer more

theorem settled_longer (settled : history.Settled term entries index) (more : entries <+: whole) :
    history.Settled term whole index := by
  rcases settled with isZero | ⟨made, member, early, long, prefixes⟩
  · exact Or.inl isZero
  · exact Or.inr ⟨made, member, early, long, prefixes.trans more⟩

theorem KeepsLog.append (keeps : KeepsLog history server term log)
    (added : ReplicaLog.Added log after done log.entries.length remaining)
    (traced : LeaderLogs.Traced LogEntry.term history.reigns history.count after.entries)
    (proper : ProperLog after.entries) (current : ∀ entry ∈ after.entries, entry.term ≤ term) :
    KeepsLog history server term after := by
  refine ⟨added.drained keeps.drained, ?_, ?_, ?_, ?_⟩
  · exact added.always keeps.drained keeps.traced (fun _ _ below => traced.of_shorter below)
  · exact added.always keeps.drained keeps.proper (fun _ _ below => proper.of_shorter below)
  · exact added.always keeps.drained keeps.current
      (fun _ _ below entry member => current entry (below.subset member))
  · intro former held acked own
    refine (keeps.kept former held acked own).imp_right ?_
    rintro ⟨early, always⟩
    refine ⟨early, added.always keeps.drained always ?_⟩
    intro version above _
    rw [List.take_length] at above
    exact (always.entries keeps.drained).trans above

variable [DecidableEq P]

theorem appendPendingTasks_eq (node : ElectionNode P) : ∀ (count : Nat) {box : BallotBox P}
    {window : CommitWindow P}, box.Pending window →
      ∃ box', appendPendingTasks node count box = some box' ∧
        box'.Pending { window with
          votes := window.votes ++
            List.replicate count { conf := node.conf.conf, oldConf := node.oldConf } } ∧
        box'.lastCommittedIndex = box.lastCommittedIndex := by
  intro count
  induction count with
  | zero =>
      intro box window pending
      refine ⟨box, rfl, ?_, rfl⟩
      rw [List.replicate_zero, List.append_nil]
      exact pending
  | succ count ih =>
      intro box window pending
      have positive := pending.positive
      have lower := pending.lower
      have opened : box.appendPendingTask node.conf.conf node.oldConf =
          some { box with
            pendingMetaQueue :=
              box.pendingMetaQueue ++ [Ballot.init node.conf.conf node.oldConf] } :=
        if_pos (by omega)
      obtain ⟨represents, _⟩ := @BallotBox.Represents.step P _ box _ (some window)
        (.appendPendingTask node.conf.conf node.oldConf) pending opened
      obtain ⟨box', appended, pending', same⟩ := ih represents
      refine ⟨box', ?_, ?_, same⟩
      · rw [appendPendingTasks, opened]
        exact appended
      · rw [List.replicate_succ, List.append_cons]
        exact pending'

variable {entry : ConfigurationEntry P} {group next : Group P D}
  {reign : LeaderLogs.Reign (LogEntry P D)} {window : CommitWindow P}

theorem Counts.append (counts : Counts entry history term reign window)
    (grows : history.Grows later) (added : List (LogEntry P D)) :
    Counts entry later term { reign with own := reign.own ++ added }
      { window with
        votes := window.votes ++
          List.replicate added.length { conf := entry.conf, oldConf := entry.former } } := by
  have first := counts.first
  have last := counts.last
  refine ⟨first, ?_, ?_, ?_⟩
  · rw [List.length_append, List.length_replicate]
    have length : ({ reign with own := reign.own ++ added } :
        LeaderLogs.Reign (LogEntry P D)).log.length = reign.log.length + added.length := by
      simp only [LeaderLogs.Reign.log, List.length_append]
      omega
    simp only
    omega
  · intro vote member
    rcases List.mem_append.mp member with former | new
    · exact counts.members vote former
    · rw [List.eq_of_mem_replicate new]
      exact ⟨rfl, rfl⟩
  · intro position vote found voter voted
    simp only at found
    rw [List.getElem?_append] at found
    split_ifs at found with inside
    · obtain ⟨ack, member, rest⟩ := counts.voters position vote found voter voted
      exact ⟨ack, grows.acknowledgements member, rest⟩
    · rw [List.eq_of_mem_replicate (List.mem_of_getElem? found)] at voted
      exact absurd voted (Finset.notMem_empty voter)

theorem Leaders.extend {led : P → List Nat} (leaders : Leaders entry history led)
    (isReign : history.reigns term = some reign) {added : List (LogEntry P D)}
    (own : ∀ new ∈ added, new.term = term) (proper : ProperLog (reign.log ++ added)) :
    Leaders entry (history.extend term added) led := by
  have grows := History.grows_extend history term added
  have isLater : (history.extend term added).reigns term =
      some { reign with own := reign.own ++ added } := by
    refine (Function.update_self _ _ _).trans ?_
    rw [isReign]
    rfl
  have others (other : Nat) (apart : other ≠ term) :
      (history.extend term added).reigns other = history.reigns other :=
    Function.update_of_ne apart _ _
  constructor
  · exact leaders.chronicle.extend isReign own grows.reigns isLater others
  · intro other longer isOther
    by_cases same : other = term
    · subst same
      rw [isLater] at isOther
      obtain rfl := Option.some.inj isOther
      obtain ⟨rank, positive, _, isLed⟩ := leaders.reigned other reign isReign
      refine ⟨rank, positive, ?_, isLed⟩
      rw [LeaderLogs.Reign.log, ← List.append_assoc]
      exact proper
    · rw [others other same] at isOther
      exact leaders.reigned other longer isOther
  · intro server other member
    by_cases same : other = term
    · rw [same, isLater]
      exact Option.some_ne_none _
    · rw [others other same]
      exact leaders.led server other member
  · intro other longer isOther
    by_cases same : other = term
    · subst same
      obtain ⟨voters, elects, votes⟩ := leaders.elected other reign isReign
      exact elected_grows grows ⟨reign, voters, isReign, elects, votes⟩ longer isOther
    · rw [others other same] at isOther
      exact leaders.elected other longer isOther

omit [DecidableEq P] in
theorem proposed_entries {entries : List (LogEntry P D)}
    (proposed : ∀ entry ∈ entries, entry.Proposed) (term last : Nat) :
    (∀ new ∈ LogManager.assignIndexes last (entries.map (fun entry =>
        ({ entry with id := { index := 0, term := term } } : LogEntry P D))),
      new.term = term ∧ new.Proposed) ∧
      LogManager.Consecutive (last + 1) (LogManager.assignIndexes last (entries.map (fun entry =>
        ({ entry with id := { index := 0, term := term } } : LogEntry P D)))) := by
  have found {position : Nat} {new : LogEntry P D}
      (isNew : (LogManager.assignIndexes last (entries.map (fun entry =>
        ({ entry with id := { index := 0, term := term } } : LogEntry P D))))[position]? = some new) :
      ∃ old ∈ entries, new = { old with id := { index := last + 1 + position, term := term } } := by
    rw [LogManager.assignIndexes_getElem?, List.getElem?_map, Option.map_map] at isNew
    obtain ⟨old, isOld, rfl⟩ := Option.map_eq_some_iff.mp isNew
    exact ⟨old, List.mem_of_getElem? isOld, rfl⟩
  constructor
  · intro new member
    obtain ⟨position, isNew⟩ := List.mem_iff_getElem?.mp member
    obtain ⟨old, isOld, rfl⟩ := found isNew
    have proper := proposed old isOld
    exact ⟨rfl, proper.known, proper.peers, proper.nonempty, proper.oldPeers, proper.oldNonempty⟩
  · intro position new isNew
    obtain ⟨old, _, rfl⟩ := found isNew
    rfl

omit [DecidableEq P] in
theorem appendEntries_unassigned {entries : List (LogEntry P D)}
    (unassigned : ∀ entry ∈ entries, entry.id.index = 0) :
    log.appendEntries done entries =
      some (log.enqueue done (LogManager.assignIndexes log.entries.length entries)) := by
  by_cases empty : entries = []
  · rw [empty]
    rfl
  · exact ReplicaLog.appendEntries_leader empty unassigned

theorem Sound.append (sound : Sound entry group) (leads : (group.node server).state.leads = true)
    {added : List (LogEntry P D)} {box : BallotBox P}
    (own : ∀ new ∈ added, new.term = (group.node server).currentTerm ∧ new.Proposed)
    (consecutive : LogManager.Consecutive ((group.replica server).log.entries.length + 1) added)
    (appended : appendPendingTasks (group.node server) added.length
      (group.replica server).ballotBox = some box) :
    Goes entry group
      { group.setReplica server
          { group.replica server with
            log := (group.replica server).log.enqueue
              (.leader (group.node server).currentTerm added.length) added
            ballotBox := box } with
        history := group.history.extend (group.node server).currentTerm added } := by
  have holds := sound.servers server
  obtain ⟨reign, window, isReign, isLog, pending, counts⟩ := holds.lead.leads leads
  obtain ⟨box', isBox, pending', committed⟩ :=
    appendPendingTasks_eq (group.node server) added.length pending
  rw [appended] at isBox
  obtain rfl := Option.some.inj isBox
  obtain ⟨rank, positive, _, _⟩ := sound.annals.reigned _ reign isReign
  have grows := History.grows_extend group.history (group.node server).currentTerm added
  have drained := holds.log.drained
  have proper : ProperLog ((group.replica server).log.entries ++ added) := by
    refine (holds.log.proper.entries drained).append consecutive (fun new member => (own new member).2) ?_
    intro new member
    rw [(own new member).1]
    exact positive
  have leaders : Leaders entry (group.history.extend (group.node server).currentTerm added)
      group.led := by
    apply sound.annals.toLeaders.extend isReign (fun new member => (own new member).1)
    rw [isLog]
    exact proper
  have isLater : (group.history.extend (group.node server).currentTerm added).reigns
      (group.node server).currentTerm = some { reign with own := reign.own ++ added } := by
    refine (Function.update_self _ _ _).trans ?_
    rw [isReign]
    rfl
  have others (other : Nat) (apart : other ≠ (group.node server).currentTerm) :
      (group.history.extend (group.node server).currentTerm added).reigns other =
        group.history.reigns other := Function.update_of_ne apart _ _
  have isLonger : ({ reign with own := reign.own ++ added } : LeaderLogs.Reign (LogEntry P D)).log =
      (group.replica server).log.entries ++ added := by
    rw [← isLog]
    exact (List.append_assoc _ _ _).symm
  have enqueued := ReplicaLog.enqueue_added (group.replica server).log
    (.leader (group.node server).currentTerm added.length) added
  have traced : LeaderLogs.Traced LogEntry.term _ group.history.count _ :=
    leaders.chronicle.traced_log isLater rank
  rw [isLonger] at traced
  have isOther (other : P) (apart : other ≠ server)
      (alsoLeads : (group.node other).state.leads = true) :
      (group.node other).currentTerm ≠ (group.node server).currentTerm := by
    intro sameTerm
    have isLed := (sound.servers other).leads_led alsoLeads
    rw [sameTerm] at isLed
    exact apart (sound.leader_unique isLed (holds.leads_led leads))
  refine Moves.goes server ⟨sound.orderly, leaders, grows, fun _ _ => rfl,
    fun _ apart => Function.update_of_ne apart _ _, fun _ => List.Subset.refl _,
    fun _ => List.Subset.refl _, List.Subset.refl _, fun _ member => Or.inl member,
    fun _ member => Or.inl member, fun _ member => Or.inl member, fun _ member => Or.inl member,
    fun _ member => Or.inl member,
    fun other apart alsoLeads => others _ (isOther other apart alsoLeads)⟩ sound ?_
  constructor
  · change KeepsLog _ server (group.node server).currentTerm _
    simp only [setReplica_self]
    refine (holds.log.grows grows (le_refl _) (fun _ _ acked => acked)).append enqueued traced
      proper ?_
    intro new member
    have inReign : new ∈ ({ reign with own := reign.own ++ added } :
        LeaderLogs.Reign (LogEntry P D)).log := by
      rw [isLonger]
      exact member
    exact leaders.chronicle.le_of_mem isLater inReign
  · exact holds.votes.grows grows (fun _ => List.Subset.refl _) (fun _ _ acked _ => acked)
      (fun _ member _ => member)
  · refine holds.standing.retip ?_ ?_ _ _
    · intro isCandidate
      rw [isCandidate] at leads
      exact absurd leads Bool.false_ne_true
    · change ¬ (group.history.extend (group.node server).currentTerm added).reigns
        (group.node server).currentTerm = none
      rw [isLater]
      exact Option.some_ne_none _
  · change KeepsLead entry _ (group.node server) _
    simp only [setReplica_self]
    refine ⟨fun _ => ⟨_, _, isLater, isLonger, pending', ?_⟩, ?_, ?_⟩
    · have conf := (sound.orderly server).campaign.conf
      have same : ((group.node server).conf.conf, (group.node server).oldConf) =
          (entry.conf, entry.former) :=
        Prod.ext conf.1 (ElectionNode.former_of_sameMembers conf)
      simp only [Prod.mk.injEq] at same
      rw [same.1, same.2]
      exact counts.append grows added
    · intro idle
      rw [leads] at idle
      contradiction
    · rw [committed]
      exact holds.lead.own
  · change KeepsCommits _ (group.node server).currentTerm _
    simp only [setReplica_self]
    have more : (group.replica server).log.entries <+:
        (group.replica server).log.entries ++ added := List.prefix_append _ _
    refine ⟨?_, ?_, ?_⟩
    · rw [committed]
      exact settled_longer (holds.commits.settled.grows grows) more
    · exact fun index member => settled_longer ((holds.commits.late index member).grows grows) more
    · rw [committed]
      exact holds.commits.applied
  · change KeepsClosures _ group.requests (group.node server) _
    simp only [setReplica_self]
    refine ⟨?_, ?_, ?_⟩
    · refine enqueued.promised drained
        (holds.closures.promised.mono (fun _ _ _ _ claim => claim.grows grows)) ?_ ?_
      · intro done firstLogIndex _ claim version above _
        rw [List.take_length] at above
        exact claim.longer above
      · intro _
        refine ⟨rfl, ?_⟩
        cases added with
        | nil => exact ⟨[], rfl, List.nil_prefix, _, isLater, List.nil_prefix⟩
        | cons front rest =>
            have index : front.id.index = (group.replica server).log.entries.length + 1 :=
              consecutive 0 front rfl
            refine ⟨_, ?_, List.prefix_refl _, _, isLater, ?_⟩
            · change ((group.replica server).log.entries ++ front :: rest).length =
                front.id.index + (front :: rest).length - 1
              rw [List.length_append, index]
              omega
            · rw [isLonger]
              exact List.prefix_refl _
    · intro done firstLogIndex member
      rcases List.mem_append.mp member with former | new
      · rcases List.mem_append.mp former with old | appends
        · exact holds.closures.queued done firstLogIndex old
        · obtain ⟨_, _, isTask⟩ := List.mem_map.mp appends
          cases isTask
      · have isDone := List.mem_singleton.mp new
        simp only [LogTask.run.injEq] at isDone
        rw [isDone.1]
        trivial
    · rw [committed]
      exact holds.closures.async

theorem Sound.apply (sound : Sound entry group) {entries : List (LogEntry P D)}
    (proposed : ∀ new ∈ entries, new.Proposed)
    (stepped : group.apply server entries = some next) : Goes entry group next := by
  unfold Group.apply at stepped
  simp only at stepped
  split_ifs at stepped with leads
  obtain ⟨box, appended, stepped⟩ := Option.bind_eq_some_iff.mp stepped
  rw [appendEntries_unassigned (by
    intro new member
    obtain ⟨old, _, rfl⟩ := List.mem_map.mp member
    rfl)] at stepped
  obtain ⟨own, consecutive⟩ := proposed_entries proposed (group.node server).currentTerm
    (group.replica server).log.entries.length
  have length := LogManager.assignIndexes_length (entries.map (fun new =>
    ({ new with id := { index := 0, term := (group.node server).currentTerm } } : LogEntry P D)))
    (group.replica server).log.entries.length
  rw [← length] at appended stepped
  obtain rfl := Option.some.inj stepped
  have result := sound.append leads own consecutive appended
  have isAdded (new : List (LogEntry P D)) :
      ((group.replica server).log.entries ++ new).drop (group.replica server).log.entries.length =
        new := List.drop_left
  simp only [ReplicaLog.enqueue, isAdded] at result ⊢
  exact result

end Group

end QuorumKit
