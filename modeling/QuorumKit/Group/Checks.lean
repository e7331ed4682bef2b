/-
The checks of the source.

A failing `CHECK` ends the process.  None fails: a new leader finds its ballot box closed and
its log not behind what it has committed, a leader that learns of a committed index has
committed it already, a follower never cuts what it has applied, and the entries of a request
are those of a leader.
-/

import QuorumKit.Group.Safety

namespace QuorumKit

namespace Group

variable {P D : Type} [DecidableEq P] {entry : ConfigurationEntry P} {group : Group P D}
  {server : P}

def Enabled (action : Action P D) (group : Group P D) : Prop :=
  match action with
  | .call server action => (ElectionNode.step action (group.node server)).isSome = true
  | .restart server conf stored =>
      (ElectionNode.init (group.node server).serverId (group.node server).persisted conf
        (lastEntryId (group.replica server).log.stored).term stored).isSome = true
  | .apply server _ => (group.node server).state.leads = true
  | .diskThread server batches => ((group.replica server).log.takeTask batches).isSome = true
  | .runAsync server position => position < (group.replica server).log.asyncClosures.length
  | .setLastCommittedIndex server position => position < (group.replica server).commits.length
  | .sendEntries server prevLogIndex _ =>
      (group.node server).state.leads = true ∧
        prevLogIndex ≤ (group.replica server).log.entries.length
  | .onRpcReturned server _ request _ =>
      (group.node server).state.leads = true ∧ request.term = (group.node server).currentTerm
  | _ => True

theorem Sound.follow_some (sound : Sound entry group) {node : ElectionNode P}
    (turn : ElectionNode.Turn (group.node server) node) :
    ∃ replica, (group.replica server).follow (group.node server) node = some replica := by
  have holds := sound.servers server
  unfold Replica.follow
  cases turn with
  | same ledTerms leads =>
      rw [ledTerms, if_pos rfl]
      split_ifs
      · exact ⟨_, rfl⟩
      · exact ⟨_, rfl⟩
  | promoted promoted =>
      obtain ⟨closed, noBallots⟩ := holds.lead.closed (by rw [promoted.candidate]; rfl)
      have inside := holds.commits.settled.inside
      have opens : (group.replica server).ballotBox.resetPendingIndex
          ((group.replica server).log.entries.length + 1) =
            some { (group.replica server).ballotBox with
              pendingIndex := (group.replica server).log.entries.length + 1 } :=
        if_pos ⟨closed, noBallots, Nat.lt_succ_of_le inside⟩
      rw [promoted.added, List.length_cons, if_neg (Nat.succ_ne_self _), opens]
      exact ⟨_, rfl⟩

theorem Sound.call_some (sound : Sound entry group) (several : ∀ server, ¬ entry.Elects {server})
    {action : ElectionNode.Action P}
    (allowed : Cluster.Allowed entry { server := server, action := .call action } group.cluster)
    (flushed : Flushed (.call server action) group)
    (enabled : (ElectionNode.step action (group.node server)).isSome = true) :
    ∃ after, group.call server action = some after := by
  obtain ⟨node, calls⟩ := Option.isSome_iff_exists.mp enabled
  obtain ⟨replica, follows⟩ := sound.follow_some (sound.turn several allowed flushed calls).2
  have moves : Cluster.step { server := server, action := .call action } group.cluster =
      some
        { lived :=
            Function.update group.cluster.lived server
              { group.cluster.lived server with
                node := node
                stored := node.persisted :: (group.cluster.lived server).stored } } := by
    unfold Cluster.step LivedNode.step
    unfold Group.node at calls
    simp only
    rw [calls]
    rfl
  unfold Group.call
  rw [moves, Option.bind_some]
  simp only [Function.update_self]
  rw [follows]
  exact ⟨_, rfl⟩

theorem Sound.setLastCommittedIndex_some (sound : Sound entry group) {index : Nat}
    (late : index ∈ (group.replica server).commits) :
    ∃ result, (group.replica server).ballotBox.setLastCommittedIndex index = some result := by
  have holds := sound.servers server
  have settled := holds.commits.late index late
  unfold BallotBox.setLastCommittedIndex
  cases leads : (group.node server).state.leads with
  | false =>
      obtain ⟨closed, noBallots⟩ := holds.lead.closed leads
      rw [if_neg (by rw [closed, noBallots]; exact fun opened => opened.elim (· rfl) (· rfl))]
      split_ifs
      · exact ⟨_, rfl⟩
      · exact ⟨_, rfl⟩
      · exact ⟨_, rfl⟩
  | true =>
      obtain ⟨reign, window, isReign, _, pending, counts⟩ := holds.lead.leads leads
      have first := counts.first
      have lower := pending.lower
      have below := pending.below
      have early : index < (group.replica server).ballotBox.pendingIndex := by
        rcases settled with isZero | ⟨made, member, early, long, _⟩
        · omega
        · rcases Nat.eq_or_lt_of_le early with same | earlier
          · have own := holds.lead.own leads made member same
            omega
          · have based := (sound.committed_base member earlier isReign).length_le
            omega
      rw [if_pos (Or.inl (by omega)), if_pos early]
      exact ⟨_, rfl⟩

theorem Sound.apply_some (sound : Sound entry group) (leads : (group.node server).state.leads = true)
    (entries : List (LogEntry P D)) : ∃ after, group.apply server entries = some after := by
  obtain ⟨reign, window, _, _, pending, _⟩ := (sound.servers server).lead.leads leads
  unfold Group.apply
  simp only
  rw [if_neg (not_not.mpr leads)]
  obtain ⟨box, appended, _⟩ := appendPendingTasks_eq (group.node server)
    (entries.map (fun new => ({ new with id := { index := 0, term := (group.node server).currentTerm } }
      : LogEntry P D))).length pending
  rw [appended, Option.bind_some, appendEntries_unassigned]
  · exact ⟨_, rfl⟩
  · intro new member
    obtain ⟨old, _, rfl⟩ := List.mem_map.mp member
    rfl

/-- In every run, each step for which there is something to do passes its checks. -/
theorem checks_pass (several : ∀ server, ¬ entry.Elects {server})
    (reached : ((system D entry).restrict Flushed).Reachable group) {action : Action P D}
    (allowed : Allowed entry action group) (flushed : Flushed action group)
    (enabled : Enabled action group) : ∃ after, step action group = some after := by
  have sound := sound_of_reachable several reached
  cases action with
  | call server action => exact sound.call_some several allowed.1 flushed enabled
  | restart server conf stored =>
      obtain ⟨node, starts⟩ := Option.isSome_iff_exists.mp enabled
      unfold Group.node at starts
      simp only [Group.step, Group.restart, Cluster.step, LivedNode.step]
      have isLog : (group.replica server).log.restart.entries = (group.replica server).log.stored := rfl
      rw [isLog, starts]
      exact ⟨_, rfl⟩
  | appendEntriesRequest server request fromAppendEntriesCache stored =>
      have allowed' : Cluster.Allowed entry
          { server := server
            action := .call (.leaderRequest request.term request.serverId
              (¬ fromAppendEntriesCache) stored) } group.cluster :=
        ⟨trivial, trivial, fun _ never => False.elim never, trivial⟩
      obtain ⟨called, calls⟩ := sound.call_some several allowed' trivial rfl
      obtain ⟨replica, receives, _⟩ := sound.checked several allowed.1 calls
      simp only [Group.step, Group.handleAppendEntriesRequest]
      rw [calls, Option.bind_some, receives]
      exact ⟨_, rfl⟩
  | apply server entries => exact sound.apply_some enabled entries
  | diskThread server batches =>
      obtain ⟨taken, takes⟩ := Option.isSome_iff_exists.mp enabled
      simp only [Group.step, Group.diskThread]
      rw [takes]
      exact ⟨_, rfl⟩
  | runAsync server position =>
      simp only [Group.step, Group.runAsync]
      rw [List.getElem?_eq_getElem enabled]
      exact ⟨_, rfl⟩
  | setLastCommittedIndex server position =>
      obtain ⟨result, sets⟩ := sound.setLastCommittedIndex_some (List.getElem_mem enabled)
      simp only [Group.step, Group.setLastCommittedIndex]
      rw [List.getElem?_eq_getElem enabled, Option.bind_some, sets]
      exact ⟨_, rfl⟩
  | setAppliedId server index => exact ⟨_, rfl⟩
  | sendEntries server prevLogIndex entriesSize =>
      simp only [Group.step, Group.sendEntries]
      rw [if_neg (by rw [not_or, not_not, not_lt]; exact enabled)]
      exact ⟨_, rfl⟩
  | onRpcReturned server peer request minFlyingIndex =>
      simp only [Group.step, Group.onRpcReturned]
      rw [if_neg (by rw [not_or, not_not, not_not]; exact enabled)]
      exact ⟨_, rfl⟩

theorem checks_pass_three : ∃ group : Group Nat Nat,
    (group.replica 1).log.entries ≠ [] ∧
      ∃ after, step (.apply 1 [newEntry]) group = some after := by
  obtain ⟨group, _, _, reached, _, _, ⟨leads, _⟩, isLog, _⟩ := commits_reached
  refine ⟨group, ?_, ?_⟩
  · rw [isLog]
    nofun
  · exact checks_pass several_three reached newEntry_proposed trivial leads

end Group

end QuorumKit
