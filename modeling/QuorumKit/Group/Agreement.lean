/-
What the servers of a group agree about.

Logs match, leaders append, and what one server has committed is in the log of every later
leader, in the storages of a quorum, and never different on another server.
-/

import QuorumKit.Group.Safety

namespace QuorumKit

namespace Group

variable {P D : Type} [DecidableEq P] {entry : ConfigurationEntry P} {group after : Group P D}
  {server other leader : P}

/-- Logs with an entry of one term at one index are the same up to there, in memory and in the
storages. -/
theorem log_matching (several : ∀ server, ¬ entry.Elects {server})
    (reached : ((system D entry).restrict Flushed).Reachable group)
    {entries entries' : List (LogEntry P D)}
    (isLog : entries ∈ [(group.replica server).log.entries, (group.replica server).log.stored])
    (isLog' : entries' ∈ [(group.replica other).log.entries, (group.replica other).log.stored])
    {position : Nat} {held held' : LogEntry P D} (found : entries[position]? = some held)
    (found' : entries'[position]? = some held') (same : held.term = held'.term) :
    entries.take (position + 1) = entries'.take (position + 1) := by
  have sound := sound_of_reachable several reached
  have traced (server : P) (log : List (LogEntry P D))
      (isLog : log ∈ [(group.replica server).log.entries, (group.replica server).log.stored]) :
      LeaderLogs.Traced LogEntry.term group.history.reigns group.history.count log := by
    have keeps := (sound.servers server).log
    rcases List.mem_cons.mp isLog with rfl | stored
    · exact keeps.traced.entries keeps.drained
    · rw [List.mem_singleton.mp stored]
      exact keeps.traced.stored
  exact (traced server entries isLog).matching (traced other entries' isLog') found found' same

theorem log_matching_three : ∃ group : Group Nat Nat,
    (group.replica 1).log.entries[0]? ≠ none ∧
      (group.replica 1).log.entries.take 1 = (group.replica 2).log.stored.take 1 := by
  obtain ⟨group, _, _, reached, _, _, _, isLog, isStored, _⟩ := commits_reached
  refine ⟨group, ?_, ?_⟩
  · rw [isLog]
    nofun
  · exact log_matching several_three reached List.mem_cons_self
      (List.mem_cons_of_mem _ List.mem_cons_self) (by rw [isLog]; rfl) (by rw [isStored]; rfl) rfl

/-- While a server leads in one term, it only appends to its log. -/
theorem leader_appends (several : ∀ server, ¬ entry.Elects {server})
    (reached : ((system D entry).restrict Flushed).Reachable group)
    (reaches : ((system D entry).restrict Flushed).Reaches group after)
    (leads : (group.node server).state.leads = true) (leads' : (after.node server).state.leads = true)
    (same : (after.node server).currentTerm = (group.node server).currentTerm) :
    (group.replica server).log.entries <+: (after.replica server).log.entries := by
  have sound := sound_of_reachable several reached
  have soundAfter := sound_of_reachable several (reached.continue reaches)
  obtain ⟨reign, _, isReign, isLog, _⟩ := (sound.servers server).lead.leads leads
  obtain ⟨later, _, isLater, isLaterLog, _⟩ := (soundAfter.servers server).lead.leads leads'
  obtain ⟨added, grown⟩ := (reaches_grows several reached reaches).reigns _ reign isReign
  rw [same, grown] at isLater
  rw [← isLog, ← isLaterLog, ← Option.some.inj isLater]
  exact reign.log_prefix added

theorem leader_appends_three : ∃ group after : Group Nat Nat,
    (group.replica 1).log.entries ≠ [] ∧
      (group.replica 1).log.entries <+: (after.replica 1).log.entries := by
  obtain ⟨group, after, _, reached, reaches, _, ⟨leads, term, leads', term'⟩, isLog, _⟩ :=
    commits_reached
  refine ⟨group, after, ?_, ?_⟩
  · rw [isLog]
    nofun
  · exact leader_appends several_three reached reaches leads leads' (term'.trans term.symm)

/-- What a server has committed is in the log of every leader, now and later, whose term is not
below that of the server. -/
theorem leader_completeness (several : ∀ server, ¬ entry.Elects {server})
    (reached : ((system D entry).restrict Flushed).Reachable group)
    (reaches : ((system D entry).restrict Flushed).Reaches group after)
    (leads : (after.node leader).state.leads = true)
    (notEarlier : (group.node server).currentTerm ≤ (after.node leader).currentTerm) :
    (group.replica server).log.entries.take
        (group.replica server).ballotBox.lastCommittedIndex <+:
      (after.replica leader).log.entries := by
  have sound := sound_of_reachable several reached
  have soundAfter := sound_of_reachable several (reached.continue reaches)
  have grows := reaches_grows several reached reaches
  obtain ⟨reign, _, isReign, isLog, _⟩ := (soundAfter.servers leader).lead.leads leads
  rw [← isLog]
  exact soundAfter.settled_led ((sound.servers server).commits.settled.grows grows) notEarlier
    isReign

theorem leader_completeness_three : ∃ group after : Group Nat Nat,
    (group.replica 1).ballotBox.lastCommittedIndex = 1 ∧
      (group.replica 1).log.entries.take (group.replica 1).ballotBox.lastCommittedIndex <+:
        (after.replica 1).log.entries := by
  obtain ⟨group, after, _, reached, reaches, _, ⟨_, term, leads', term'⟩, _, _, committed, _⟩ :=
    commits_reached
  exact ⟨group, after, committed,
    leader_completeness several_three reached reaches leads' (term.trans term'.symm).le⟩

theorem settled_comparable (sound : Sound entry group) {term term' index index' : Nat}
    {entries entries' : List (LogEntry P D)} (settled : group.history.Settled term entries index)
    (settled' : group.history.Settled term' entries' index') :
    entries.take index <+: entries'.take index' ∨ entries'.take index' <+: entries.take index := by
  rcases settled with rfl | ⟨made, member, _, long, prefixes⟩
  · exact Or.inl List.nil_prefix
  rcases settled' with rfl | ⟨made', member', _, long', prefixes'⟩
  · exact Or.inr List.nil_prefix
  rw [take_of_settled long prefixes, take_of_settled long' prefixes']
  rcases (sound.annals.committed made member).comparable sound.elections sound.annals.chronicle
    (sound.annals.committed made' member') with shorter | shorter
  · exact List.prefix_or_prefix_of_prefix ((List.take_prefix _ _).trans shorter)
      (List.take_prefix _ _)
  · exact List.prefix_or_prefix_of_prefix (List.take_prefix _ _)
      ((List.take_prefix _ _).trans shorter)

/-- No two servers apply different entries at one index, at whatever times they do it and however
often they start again. -/
theorem applied_agree (several : ∀ server, ¬ entry.Elects {server})
    (reached : ((system D entry).restrict Flushed).Reachable group)
    (reaches : ((system D entry).restrict Flushed).Reaches group after) {position : Nat}
    (applied : position < (group.replica server).log.appliedIndex)
    (applied' : position < (after.replica other).log.appliedIndex) :
    ∃ held, (group.replica server).log.entries[position]? = some held ∧
      (after.replica other).log.entries[position]? = some held := by
  have sound := sound_of_reachable several reached
  have soundAfter := sound_of_reachable several (reached.continue reaches)
  have grows := reaches_grows several reached reaches
  have commits := (sound.servers server).commits
  have commits' := (soundAfter.servers other).commits
  have settled := commits.settled.grows grows
  have settled' := commits'.settled
  have below := applied.trans_le commits.applied
  have below' := applied'.trans_le commits'.applied
  have inside := settled.inside
  have isHeld : (group.replica server).log.entries[position]? =
      some (group.replica server).log.entries[position] := List.getElem?_eq_getElem (by omega)
  have inTake {entries : List (LogEntry P D)} {index : Nat} (early : position < index) :
      (entries.take index)[position]? = entries[position]? := List.getElem?_take_of_lt early
  refine ⟨_, isHeld, ?_⟩
  rcases settled_comparable soundAfter settled settled' with shorter | shorter
  · rw [← inTake below']
    apply LeaderLogs.getElem?_of_shorter shorter
    rw [inTake below]
    exact isHeld
  · have inside' := settled'.inside
    have isOther : (after.replica other).log.entries[position]? =
        some (after.replica other).log.entries[position] := List.getElem?_eq_getElem (by omega)
    have same := LeaderLogs.getElem?_of_shorter shorter (by
      rw [inTake below']
      exact isOther)
    rw [inTake below, isHeld] at same
    rw [isOther, ← same]

theorem applied_agree_three : ∃ (group after : Group Nat Nat) (held : LogEntry Nat Nat),
    (group.replica 1).log.entries[0]? = some held ∧ (after.replica 2).log.entries[0]? = some held := by
  obtain ⟨group, after, _, reached, reaches, _, _, _, _, _, applied, applied', _⟩ := commits_reached
  exact ⟨group, after, applied_agree several_three reached reaches (by rw [applied]; exact Nat.one_pos)
    (by rw [applied']; exact Nat.one_pos)⟩

/-- What a server has committed is in the storages of a quorum, at every moment. -/
theorem committed_stored (several : ∀ server, ¬ entry.Elects {server})
    (reached : ((system D entry).restrict Flushed).Reachable group)
    (positive : 0 < (group.replica server).ballotBox.lastCommittedIndex) :
    ∃ voters, entry.Elects voters ∧ ∀ voter ∈ voters,
      (group.replica server).log.entries.take
        (group.replica server).ballotBox.lastCommittedIndex <+: (group.replica voter).log.stored := by
  have sound := sound_of_reachable several reached
  rcases (sound.servers server).commits.settled with isZero | ⟨made, member, _, long, prefixes⟩
  · omega
  have chosen := sound.annals.committed made member
  obtain ⟨voters, elects, acks⟩ := chosen.acks
  refine ⟨voters, elects, ?_⟩
  intro voter isVoter
  rw [take_of_settled long prefixes]
  refine (List.take_prefix _ _).trans ?_
  rcases (sound.servers voter).log.kept _ _ (acks voter isVoter) chosen.own with
    ⟨later, reign, above, isReign, _, lacks⟩ | ⟨_, always⟩
  · exact absurd (sound.committed_base member above isReign) lacks
  · exact always.stored

theorem committed_stored_three : ∃ (group : Group Nat Nat) (voters : Finset Nat),
    LivedNode.groupOfThree.Elects voters ∧ ∀ voter ∈ voters,
      (group.replica 1).log.entries.take (group.replica 1).ballotBox.lastCommittedIndex <+:
        (group.replica voter).log.stored := by
  obtain ⟨group, _, _, reached, _, _, _, _, _, committed, _⟩ := commits_reached
  exact ⟨group, committed_stored several_three reached (by rw [committed]; exact Nat.one_pos)⟩

/-- Runs have to be `Flushed`: a vote with a last log id that entries have overtaken makes a
leader that lacks an entry which another server has applied.  Only the lease of the follower
could refuse the vote. -/
theorem overtaken_read_loses : ∃ group after : Group Nat Nat,
    ((system Nat LivedNode.groupOfThree).restrict Flushed).Reachable group ∧
      (system Nat LivedNode.groupOfThree).Reaches group after ∧
      (group.replica 1).log.appliedIndex = 1 ∧
      (group.replica 1).log.entries = [{ newEntry with id := { index := 1, term := 2 } }] ∧
      (group.node 1).currentTerm = 2 ∧ (after.node 3).state.leads = true ∧
      (after.node 3).currentTerm = 3 ∧ (after.replica 3).log.entries = [] := by
  obtain ⟨group, _, late, reached, _, reaches, ⟨_, isTerm, _⟩, isLog, _, _, applied, _, lost⟩ :=
    commits_reached
  exact ⟨group, late, reached, reaches, applied, isLog, isTerm, lost⟩

end Group

end QuorumKit
