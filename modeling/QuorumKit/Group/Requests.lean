/-
The requests that a leader sends.

A replicator sends a part of its leader's log without the indexes, and the follower finds
the same entries in it.
-/

import QuorumKit.Group.Closures

namespace QuorumKit

variable {P D : Type}

theorem LogEntry.toMeta_valid {entry : LogEntry P D} (proposed : entry.Proposed)
    (positive : 0 < entry.term) : entry.toMeta.Valid := by
  refine ⟨proposed.known, Iff.trans ?_ proposed.peers, positive⟩
  have nonempty := proposed.nonempty
  unfold LogEntry.toMeta
  cases isPeers : entry.peers with
  | none => exact ⟨fun other => absurd rfl other, fun other => absurd rfl other⟩
  | some peers =>
      rw [isPeers] at nonempty
      exact ⟨fun _ => Option.some_ne_none _, fun _ isNil => nonempty (congrArg some isNil)⟩

theorem LogEntry.toLogEntry_toMeta {entry : LogEntry P D} (proposed : entry.Proposed) :
    entry.toMeta.toLogEntry entry.id.index = entry := by
  obtain ⟨type, ⟨index, term⟩, peers, oldPeers, data⟩ := entry
  have nonempty := proposed.nonempty
  have unpaired := proposed.oldPeers
  have oldNonempty := proposed.oldNonempty
  simp only at nonempty unpaired oldNonempty
  unfold LogEntry.toMeta EntryMeta.toLogEntry
  cases peers with
  | none =>
      rw [unpaired rfl]
      rfl
  | some peers =>
      cases peers with
      | nil => exact absurd rfl nonempty
      | cons peer rest =>
          cases oldPeers with
          | none => rfl
          | some oldPeers =>
              cases oldPeers with
              | nil => exact absurd rfl oldNonempty
              | cons oldPeer others => rfl

theorem logEntries_toMeta : ∀ {entries : List (LogEntry P D)} {index : Nat},
    LogManager.Consecutive (index + 1) entries → (∀ entry ∈ entries, entry.Proposed) →
      logEntries index (entries.map LogEntry.toMeta) = entries := by
  intro entries
  induction entries with
  | nil => exact fun _ _ => rfl
  | cons entry rest ih =>
      intro index consecutive proposed
      have isIndex : entry.id.index = index + 1 := consecutive 0 entry rfl
      rw [List.map_cons, logEntries, ← isIndex,
        LogEntry.toLogEntry_toMeta (proposed entry List.mem_cons_self), isIndex, ih]
      · intro position other found
        rw [consecutive (position + 1) other found]
        omega
      · exact fun other member => proposed other (List.mem_cons_of_mem _ member)

namespace Group

variable [DecidableEq P] {entry : ConfigurationEntry P} {group after : Group P D} {server : P}

theorem Sound.sent (sound : Sound entry group) (leads : (group.node server).state.leads = true)
    {prevLogIndex : Nat} (inside : prevLogIndex ≤ (group.replica server).log.entries.length)
    (entriesSize : Nat) : Sent group.history group.led
      { serverId := server
        term := (group.node server).currentTerm
        prevLogIndex := prevLogIndex
        prevLogTerm := termAt (group.replica server).log.entries prevLogIndex
        committedIndex := (group.replica server).ballotBox.lastCommittedIndex
        entries := (((group.replica server).log.entries.drop prevLogIndex).take entriesSize).map
          LogEntry.toMeta } := by
  have holds := sound.servers server
  obtain ⟨reign, window, isReign, isLog, _⟩ := holds.lead.leads leads
  have proper := holds.log.proper.entries holds.log.drained
  have isPart : ((group.replica server).log.entries.drop prevLogIndex).take entriesSize <+:
      (group.replica server).log.entries.drop prevLogIndex := List.take_prefix _ _
  have inLog {sent : LogEntry P D} (member : sent ∈
      ((group.replica server).log.entries.drop prevLogIndex).take entriesSize) :
      sent ∈ (group.replica server).log.entries :=
    List.mem_of_mem_drop (List.mem_of_mem_take member)
  constructor
  · refine ⟨reign, isReign, ?_, ?_⟩
    · have read : AppendEntriesRequest.logEntries
          { serverId := server
            term := (group.node server).currentTerm
            prevLogIndex := prevLogIndex
            prevLogTerm := termAt (group.replica server).log.entries prevLogIndex
            committedIndex := (group.replica server).ballotBox.lastCommittedIndex
            entries := (((group.replica server).log.entries.drop prevLogIndex).take
              entriesSize).map LogEntry.toMeta } =
          ((group.replica server).log.entries.drop prevLogIndex).take entriesSize := by
        apply logEntries_toMeta
        · intro position sent found
          have behind := LeaderLogs.getElem?_of_shorter isPart found
          rw [List.getElem?_drop] at behind
          rw [proper.consecutive _ sent behind]
          change 1 + (prevLogIndex + position) = prevLogIndex + 1 + position
          omega
        · exact fun sent member => proper.proposed sent (inLog member)
      rw [read, isLog]
      refine ⟨inside, ?_⟩
      have whole := List.take_append_drop prevLogIndex (group.replica server).log.entries
      conv_rhs => rw [← whole]
      exact List.prefix_append_right_inj _ |>.mpr isPart
    · rw [isLog]
  · intro entryMeta member
    obtain ⟨sent, isSent, rfl⟩ := List.mem_map.mp member
    exact LogEntry.toMeta_valid (proper.proposed sent (inLog isSent))
      (proper.positive sent (inLog isSent))
  · rcases holds.commits.settled with isZero | ⟨made, member, early, long, _⟩
    · exact Or.inl isZero
    · exact Or.inr ⟨made, member, early, long⟩
  · exact holds.leads_led leads

theorem Sound.sendEntries (sound : Sound entry group) {prevLogIndex entriesSize : Nat}
    (stepped : group.sendEntries server prevLogIndex entriesSize = some after) :
    Goes entry group after := by
  unfold Group.sendEntries at stepped
  simp only at stepped
  split_ifs at stepped with refused
  rw [not_or, not_not, not_lt] at refused
  obtain ⟨leads, inside⟩ := refused
  have sent := sound.sent leads inside entriesSize
  obtain rfl := Option.some.inj stepped
  have annals := sound.annals
  refine ⟨⟨sound.orderly, { annals with requests := ?_, responses := ?_ }, ?_⟩, .refl _⟩
  · intro request member
    rcases List.mem_cons.mp member with new | former
    · rw [new]
      exact sent
    · exact annals.requests request former
  · intro response member
    obtain ⟨asked, answered⟩ := annals.responses response member
    exact ⟨List.mem_cons_of_mem _ asked, answered⟩
  · intro other
    apply (sound.servers other).untouched
    exact ⟨rfl, rfl, .refl _, List.subset_cons_self _ _, fun _ => List.Subset.refl _,
      fun _ _ acked => acked, fun _ member _ => member, fun _ => ⟨rfl, fun _ member _ => member⟩⟩

end Group

end QuorumKit
