/-
What a server records when it acknowledges and commits.

The disk thread runs a closure once its entries are stored.  A follower then answers its
leader, and a leader counts its own vote and those of the others.  An index is committed
when a quorum has acknowledged it, so the committed entries are chosen.
-/

import QuorumKit.Group.Annals

namespace QuorumKit

variable {P D : Type}

namespace Group

structure SameLeaders (former later : History P D) : Prop where
  reigns : later.reigns = former.reigns
  count : later.count = former.count
  votes : later.votes = former.votes
  acknowledgements : former.acknowledgements ⊆ later.acknowledgements
  committed : former.committed ⊆ later.committed

variable {history later : History P D} {server : P} {term upTo : Nat}
  {held entries other : List (LogEntry P D)} {log : ReplicaLog P D}

theorem SameLeaders.refl (history : History P D) : SameLeaders history history :=
  ⟨rfl, rfl, rfl, List.Subset.refl _, List.Subset.refl _⟩

theorem SameLeaders.grows (same : SameLeaders history later) : history.Grows later := by
  refine ⟨?_, same.count.ge, ?_, same.acknowledgements, same.committed⟩
  · intro term reign isReign
    refine ⟨[], ?_⟩
    rw [same.reigns, List.append_nil]
    exact isReign
  · rw [same.votes]
    exact List.Subset.refl _

variable [DecidableEq P] {entry : ConfigurationEntry P} {group after : Group P D}

theorem Leaders.grows {led : P → List Nat} (leaders : Leaders entry history led)
    (reigns : later.reigns = history.reigns) (count : later.count = history.count)
    (grows : history.Grows later) : Leaders entry later led := by
  refine ⟨?_, ?_, ?_, ?_⟩
  · rw [reigns]
    exact leaders.chronicle
  · rw [reigns, count]
    exact leaders.reigned
  · rw [reigns]
    exact leaders.led
  · intro term reign isReign
    have isFormer := isReign
    rw [reigns] at isFormer
    obtain ⟨voters, elects, voted⟩ := leaders.elected term reign isFormer
    exact elected_grows grows ⟨reign, voters, isFormer, elects, voted⟩ reign isReign

structure Works (entry : ConfigurationEntry P) (group after : Group P D) (server : P) : Prop where
  cluster : after.cluster = group.cluster
  replicas : ∀ other, other ≠ server → after.replica other = group.replica other
  leaders : SameLeaders group.history after.history
  requests : after.requests = group.requests
  acks : ∀ ack ∈ after.history.acknowledgements, ack ∈ group.history.acknowledgements ∨
    ack.server = server ∧ group.history.Issued ack.term ack.entries
  committed : ∀ made ∈ after.history.committed, made ∈ group.history.committed ∨
    (group.node server).state.leads = true ∧ made.1 = (group.node server).currentTerm ∧
      LeaderLogs.Chosen LogEntry.term group.history.reigns entry.Elects group.history.Acked
        made.1 made.2
  responses : ∀ response ∈ after.responses, response ∈ group.responses ∨
    response.2 ∈ group.requests ∧ Answered group.history response.1 response.2.term
      (response.2.prevLogIndex + response.2.entries.length)

theorem Works.setReplica (group : Group P D) (server : P) (replica : Replica P D) :
    Works entry group (group.setReplica server replica) server :=
  ⟨rfl, fun _ apart => Function.update_of_ne apart _ _, .refl _, rfl,
    fun _ member => Or.inl member, fun _ member => Or.inl member, fun _ member => Or.inl member⟩

theorem Works.node (works : Works entry group after server) (other : P) :
    after.node other = group.node other := by
  unfold Group.node
  rw [works.cluster]

theorem Works.goes (works : Works entry group after server) (sound : Sound entry group)
    (acts : Server entry after server) : Goes entry group after := by
  have led : after.led = group.led := by
    unfold Group.led
    rw [works.cluster]
  have voteRpcs : after.voteRpcs = group.voteRpcs := by
    unfold Group.voteRpcs
    rw [works.cluster]
  have moves : Moves entry group after server := by
    refine ⟨?_, ?_, works.leaders.grows, ?_, works.replicas, ?_, ?_, ?_, ?_, ?_, works.acks,
      works.committed, works.responses, ?_⟩
    · rw [works.cluster]
      exact sound.orderly
    · rw [led]
      exact sound.annals.toLeaders.grows works.leaders.reigns works.leaders.count works.leaders.grows
    · rw [works.cluster]
      exact fun _ _ => rfl
    · rw [led]
      exact fun _ => List.Subset.refl _
    · rw [voteRpcs]
      exact fun _ => List.Subset.refl _
    · rw [works.requests]
      exact List.Subset.refl _
    · rw [works.requests]
      exact fun _ member => Or.inl member
    · rw [works.leaders.votes]
      exact fun _ member => Or.inl member
    · rw [works.leaders.reigns]
      exact fun _ _ _ => rfl
  exact Moves.goes server moves sound acts

theorem Works.keeps (works : Works entry group after server) (holds : Server entry group server)
    (entries : (after.replica server).log.entries = (group.replica server).log.entries)
    (calm : Calm (group.replica server).log → Calm (after.replica server).log)
    (acks : ∀ former held, after.history.Acked server former held →
      former < (group.node server).persisted.1 → group.history.Acked server former held)
    (log : KeepsLog after.history server (group.node server).currentTerm (after.replica server).log)
    (lead : KeepsLead entry after.history (group.node server) (after.replica server))
    (commits : KeepsCommits after.history (group.node server).currentTerm (after.replica server))
    (closures : KeepsClosures after.history group.requests (group.node server)
      (after.replica server)) : Server entry after server := by
  constructor
  · rw [works.node]
    exact log
  · unfold voteRpcs
    rw [works.node, works.cluster]
    exact holds.votes.grows works.leaders.grows (fun _ => List.Subset.refl _) acks
      (fun vote member _ => works.leaders.votes ▸ member)
  · rw [works.node, works.cluster, works.leaders.reigns, entries]
    have standing := holds.standing
    exact { standing with
      campaign := fun isCandidate closed => (standing.campaign isCandidate closed).imp_left calm }
  · rw [works.node]
    exact lead
  · rw [works.node]
    exact commits
  · rw [works.node, works.requests]
    exact closures

theorem Sound.setReplica (sound : Sound entry group) {replica : Replica P D}
    (entries : replica.log.entries = (group.replica server).log.entries)
    (calm : Calm (group.replica server).log → Calm replica.log)
    (log : KeepsLog group.history server (group.node server).currentTerm replica.log)
    (lead : KeepsLead entry group.history (group.node server) replica)
    (commits : KeepsCommits group.history (group.node server).currentTerm replica)
    (closures : KeepsClosures group.history group.requests (group.node server) replica) :
    Goes entry group (group.setReplica server replica) := by
  have works : Works entry group _ server := .setReplica group server replica
  refine works.goes sound (works.keeps (sound.servers server) ?_ ?_ (fun _ _ acked _ => acked)
    ?_ ?_ ?_ ?_)
  all_goals rw [setReplica_self]
  · exact entries
  · exact calm
  · exact log
  · exact lead
  · exact commits
  · exact closures

omit [DecidableEq P] in
theorem acked_acknowledge {former : Nat} {acknowledged : P}
    (acked : (history.acknowledge server term entries).Acked acknowledged former held) :
    history.Acked acknowledged former held ∨
      acknowledged = server ∧ former = term ∧ held <+: entries := by
  obtain ⟨ack, member, isServer, isTerm, prefixes⟩ := acked
  rcases List.mem_cons.mp member with new | old
  · rw [new] at isServer isTerm prefixes
    exact Or.inr ⟨isServer.symm, isTerm.symm, prefixes⟩
  · exact Or.inl ⟨ack, old, isServer, isTerm, prefixes⟩

omit [DecidableEq P] in
theorem sameLeaders_acknowledge (history : History P D) (server : P) (term : Nat)
    (entries : List (LogEntry P D)) :
    SameLeaders history (history.acknowledge server term entries) :=
  { SameLeaders.refl history with acknowledgements := List.subset_cons_self _ _ }

omit [DecidableEq P] in
theorem sameLeaders_commit (history : History P D) (term : Nat) (entries : List (LogEntry P D)) :
    SameLeaders history (history.commit term entries) :=
  { SameLeaders.refl history with committed := List.subset_cons_self _ _ }

omit [DecidableEq P] in
theorem HasIssued.take (issued : HasIssued history term upTo entries)
    (issued' : HasIssued history term upTo other) :
    entries.take upTo <+: other ∧ (entries.take upTo).length = upTo ∧
      history.Issued term (entries.take upTo) := by
  obtain ⟨held, length, prefixes, isIssued⟩ := issued
  obtain ⟨held', length', prefixes', isIssued'⟩ := issued'
  have isTake : entries.take upTo = held := by
    rw [List.prefix_iff_eq_take.mp prefixes, length]
  have same : held = held' := by
    rcases isIssued.comparable isIssued' with shorter | shorter
    · exact shorter.eq_of_length (length.trans length'.symm)
    · exact (shorter.eq_of_length (length'.trans length.symm)).symm
  rw [isTake]
  exact ⟨same ▸ prefixes', length, isIssued⟩

omit [DecidableEq P] in
theorem KeepsLog.acknowledge (keeps : KeepsLog history server term log)
    (issued : log.Always (HasIssued history term upTo)) :
    KeepsLog (history.acknowledge server term (log.stored.take upTo)) server term log := by
  refine { keeps with kept := ?_ }
  intro former held acked own
  rcases acked_acknowledge acked with old | ⟨_, isTerm, prefixes⟩
  · exact keeps.kept former held old own
  · refine Or.inr ⟨isTerm.le, issued.mono ?_⟩
    exact fun version isIssued => prefixes.trans (issued.stored.take isIssued).1

theorem Sound.acknowledge (sound : Sound entry group) {upTo : Nat}
    (issued : (group.replica server).log.Always
      (HasIssued group.history (group.node server).currentTerm upTo)) :
    Goes entry group (group.acknowledge server upTo) := by
  have holds := sound.servers server
  have leaders := sameLeaders_acknowledge group.history server (group.node server).currentTerm
    ((group.replica server).log.stored.take upTo)
  have works : Works entry group (group.acknowledge server upTo) server := by
    refine ⟨rfl, fun _ _ => rfl, leaders, rfl, ?_, fun made member => Or.inl member,
      fun response member => Or.inl member⟩
    intro ack member
    rcases List.mem_cons.mp member with new | old
    · rw [new]
      exact Or.inr ⟨rfl, (issued.stored.take issued.stored).2.2⟩
    · exact Or.inl old
  refine works.goes sound (works.keeps holds rfl id ?_ ?_ ?_ ?_ ?_)
  · intro former held acked early
    rcases acked_acknowledge acked with old | ⟨_, isTerm, _⟩
    · exact old
    · have below := (sound.orderly server).sworn.pledge.below
      have below : (group.node server).persisted.1 ≤ (group.node server).currentTerm := below
      omega
  · exact holds.log.acknowledge issued
  · exact holds.lead.grows leaders.grows (fun _ => ⟨rfl, fun _ member _ => member⟩)
  · exact holds.commits.grows leaders.grows (le_refl _)
  · exact holds.closures.grows leaders.grows (List.Subset.refl _)

variable {box : BallotBox P} {window : CommitWindow P} {firstLogIndex lastLogIndex : Nat} {peer : P}
  {reign : LeaderLogs.Reign (LogEntry P D)}

theorem Counts.commitAt (counts : Counts entry history term reign window)
    (acked : ∃ ack ∈ history.acknowledgements, ack.server = peer ∧ ack.term = term ∧
      lastLogIndex ≤ ack.entries.length) :
    Counts entry history term reign (window.commitAt firstLogIndex lastLogIndex peer) := by
  by_cases inside : lastLogIndex < window.first + window.votes.length
  · have votes : (window.commitAt firstLogIndex lastLogIndex peer).votes =
        PendingVote.ack peer firstLogIndex lastLogIndex window.first window.votes :=
      CommitWindow.commitAt_votes inside
    have former {position : Nat} {vote : PendingVote P} (found :
        (window.commitAt firstLogIndex lastLogIndex peer).votes[position]? = some vote) :
        ∃ old, window.votes[position]? = some old ∧
          (vote = old ∨ vote = old.acked peer ∧ window.first + position ≤ lastLogIndex) := by
      rw [votes, PendingVote.ack_getElem?] at found
      obtain ⟨old, isOld, rfl⟩ := Option.map_eq_some_iff.mp found
      refine ⟨old, isOld, ?_⟩
      split_ifs with between
      · exact Or.inr ⟨rfl, between.2⟩
      · exact Or.inl rfl
    constructor
    · rw [CommitWindow.commitAt_first]
      exact counts.first
    · rw [CommitWindow.commitAt_first, CommitWindow.commitAt_length]
      exact counts.last
    · intro vote member
      obtain ⟨position, found⟩ := List.mem_iff_getElem?.mp member
      obtain ⟨old, isOld, same⟩ := former found
      have members := counts.members old (List.mem_of_getElem? isOld)
      rcases same with rfl | ⟨rfl, _⟩
      · exact members
      · exact members
    · intro position vote found voter voted
      rw [CommitWindow.commitAt_first]
      obtain ⟨old, isOld, rfl | ⟨rfl, below⟩⟩ := former found
      · exact counts.voters position _ isOld voter voted
      · rcases Finset.mem_insert.mp voted with isPeer | already
        · obtain ⟨ack, member, isServer, isTerm, long⟩ := acked
          exact ⟨ack, member, isServer.trans isPeer.symm, isTerm, below.trans long⟩
        · exact counts.voters position old isOld voter already
  · rw [CommitWindow.commitAt, if_neg inside]
    exact counts

theorem Counts.chosen (counts : Counts entry history term reign window)
    (chronicle : LeaderLogs.Chronicle LogEntry.term history.reigns)
    (acknowledged : ∀ ack ∈ history.acknowledgements, history.Issued ack.term ack.entries)
    (isReign : history.reigns term = some reign) {index : Nat} (granted : window.Granted index) :
    index ≤ reign.log.length ∧
      LeaderLogs.Chosen LogEntry.term history.reigns entry.Elects history.Acked term
        (reign.log.take index) := by
  obtain ⟨above, vote, found, isQuorum⟩ := granted
  rw [Option.mem_def] at found
  have first := counts.first
  have last := counts.last
  have inVotes := (List.getElem?_eq_some_iff.mp found).1
  have inside : index ≤ reign.log.length := by omega
  refine ⟨inside, ⟨reign, isReign, List.take_prefix _ _⟩, ?_, ?_⟩
  · -- the last of the entries is one that the leader has appended
    have isLast : reign.log[index - 1]? = some reign.log[index - 1] :=
      List.getElem?_eq_getElem (by omega)
    have inOwn : reign.log[index - 1] ∈ reign.own := by
      have behind : (reign.base ++ reign.own)[index - 1]? = some reign.log[index - 1] := isLast
      rw [List.getElem?_append_right (by omega)] at behind
      exact List.mem_of_getElem? behind
    refine ⟨_, ?_, chronicle.own term reign isReign _ inOwn⟩
    apply List.mem_of_getElem? (i := index - 1)
    rw [List.getElem?_take_of_lt (by omega)]
    exact isLast
  · obtain ⟨conf, oldConf⟩ := counts.members vote (List.mem_of_getElem? found)
    refine ⟨vote.voters, ?_, ?_⟩
    · unfold PendingVote.Granted at isQuorum
      rw [conf, oldConf] at isQuorum
      exact isQuorum
    · intro voter voted
      obtain ⟨ack, member, isServer, isTerm, long⟩ := counts.voters _ vote found voter voted
      refine ⟨ack, member, isServer, isTerm, ?_⟩
      obtain ⟨issuer, isIssuer, prefixes⟩ := acknowledged ack member
      rw [isTerm, isReign] at isIssuer
      rw [← Option.some.inj isIssuer] at prefixes
      apply List.prefix_of_prefix_length_le (List.take_prefix _ _) prefixes
      rw [List.length_take]
      omega

theorem commitAt_eq_self
    (same : ((group.replica server).ballotBox.commitAt firstLogIndex lastLogIndex peer).2 =
      (group.replica server).ballotBox) :
    group.commitAt server firstLogIndex lastLogIndex peer = group := by
  unfold Group.commitAt
  simp only
  rw [same, if_pos rfl]
  unfold setReplica
  rw [Function.update_eq_self]

theorem Sound.counts (sound : Sound entry group) (leads : (group.node server).state.leads = true)
    (isReign : group.history.reigns (group.node server).currentTerm = some reign)
    (isLog : reign.log = (group.replica server).log.entries)
    (isBox : ((group.replica server).ballotBox.commitAt firstLogIndex lastLogIndex peer).2 = box)
    (pending : box.Pending window)
    (counts : Counts entry group.history (group.node server).currentTerm reign window)
    (notLower : (group.replica server).ballotBox.lastCommittedIndex ≤ box.lastCommittedIndex)
    (granted : box.lastCommittedIndex ≠ (group.replica server).ballotBox.lastCommittedIndex →
      window.Granted box.lastCommittedIndex) :
    Goes entry group (group.commitAt server firstLogIndex lastLogIndex peer) := by
  have holds := sound.servers server
  have isReplica : (group.commitAt server firstLogIndex lastLogIndex peer).replica server =
      { group.replica server with ballotBox := box } := isBox ▸ Function.update_self _ _ _
  have others (other : P) (apart : other ≠ server) :
      (group.commitAt server firstLogIndex lastLogIndex peer).replica other =
        group.replica other := Function.update_of_ne apart _ _
  have isHistory : (group.commitAt server firstLogIndex lastLogIndex peer).history =
      if box.lastCommittedIndex = (group.replica server).ballotBox.lastCommittedIndex then
        group.history
      else
        group.history.commit (group.node server).currentTerm
          ((group.replica server).log.entries.take box.lastCommittedIndex) := isBox ▸ rfl
  have records : (group.commitAt server firstLogIndex lastLogIndex peer).cluster = group.cluster ∧
      (group.commitAt server firstLogIndex lastLogIndex peer).requests = group.requests ∧
      (group.commitAt server firstLogIndex lastLogIndex peer).responses = group.responses :=
    ⟨rfl, rfl, rfl⟩
  generalize group.commitAt server firstLogIndex lastLogIndex peer = after
    at isReplica others isHistory records ⊢
  obtain ⟨cluster, requests, responses⟩ := records
  have chosen (raised : box.lastCommittedIndex ≠
      (group.replica server).ballotBox.lastCommittedIndex) :=
    counts.chosen sound.annals.chronicle sound.annals.acknowledged isReign (granted raised)
  rw [isLog] at chosen
  have made (new : Nat × List (LogEntry P D)) (member : new ∈ after.history.committed) :
      new ∈ group.history.committed ∨ box.lastCommittedIndex ≠
          (group.replica server).ballotBox.lastCommittedIndex ∧
        new = ((group.node server).currentTerm,
          (group.replica server).log.entries.take box.lastCommittedIndex) := by
    rw [isHistory] at member
    split at member
    · exact Or.inl member
    · rename_i raised
      exact (List.mem_cons.mp member).symm.imp_right (fun isNew => ⟨raised, isNew⟩)
  have leaders : SameLeaders group.history after.history := by
    rw [isHistory]
    split
    · exact .refl _
    · exact sameLeaders_commit _ _ _
  have acks : after.history.acknowledgements = group.history.acknowledgements := by
    rw [isHistory]
    split <;> rfl
  have settled : after.history.Settled (group.node server).currentTerm
      (group.replica server).log.entries box.lastCommittedIndex := by
    by_cases raised : box.lastCommittedIndex = (group.replica server).ballotBox.lastCommittedIndex
    · rw [raised]
      exact holds.commits.settled.grows leaders.grows
    · refine Or.inr ⟨((group.node server).currentTerm,
        (group.replica server).log.entries.take box.lastCommittedIndex), ?_, le_refl _, ?_,
        (List.take_prefix _ _).trans (List.take_prefix _ _)⟩
      · rw [isHistory, if_neg raised]
        exact List.mem_cons_self
      · rw [List.length_take_of_le (chosen raised).1]
  have acked (former : Nat) (held : List (LogEntry P D))
      (acked : after.history.Acked server former held) : group.history.Acked server former held := by
    unfold History.Acked at acked
    rw [acks] at acked
    exact acked
  have works : Works entry group after server := by
    refine ⟨cluster, others, leaders, requests, ?_, ?_, ?_⟩
    · rw [acks]
      exact fun ack member => Or.inl member
    · intro new member
      rcases made new member with old | ⟨raised, isNew⟩
      · exact Or.inl old
      · rw [isNew]
        exact Or.inr ⟨leads, rfl, (chosen raised).2⟩
    · rw [responses]
      exact fun response member => Or.inl member
  refine works.goes sound (works.keeps holds ?_ ?_ (fun former held isAcked _ => acked former held isAcked)
    ?_ ?_ ?_ ?_)
  · rw [isReplica]
  · rw [isReplica]
    exact id
  · rw [isReplica]
    exact holds.log.grows leaders.grows (le_refl _) acked
  · rw [isReplica]
    refine ⟨?_, ?_, ?_⟩
    · intro _
      refine ⟨reign, window, ?_, isLog, pending, counts.grows leaders.grows⟩
      rw [leaders.reigns]
      exact isReign
    · intro idle
      rw [leads] at idle
      contradiction
    · intro _ new member isTerm
      rcases made new member with old | ⟨_, isNew⟩
      · exact (holds.lead.own leads new old isTerm).trans notLower
      · rw [isNew]
        exact List.length_take_le _ _
  · rw [isReplica]
    exact ⟨settled, fun index member => (holds.commits.late index member).grows leaders.grows,
      holds.commits.applied.trans notLower⟩
  · rw [isReplica]
    have closures := holds.closures.grows leaders.grows (List.Subset.refl group.requests)
    refine ⟨closures.promised, closures.queued, ?_⟩
    intro closure member
    obtain ⟨answers, applied⟩ := closures.async closure member
    exact ⟨answers, fun request term isClosure => (applied request term isClosure).trans notLower⟩

theorem Sound.commitAt (sound : Sound entry group)
    (counted : (group.node server).state.leads = true →
      lastLogIndex < (group.replica server).ballotBox.pendingIndex ∨
        ∃ ack ∈ group.history.acknowledgements, ack.server = peer ∧
          ack.term = (group.node server).currentTerm ∧ lastLogIndex ≤ ack.entries.length) :
    Goes entry group (group.commitAt server firstLogIndex lastLogIndex peer) := by
  have holds := sound.servers server
  have unchanged : Goes entry group group := ⟨sound, .refl _⟩
  cases leads : (group.node server).state.leads with
  | false =>
      rw [commitAt_eq_self]
      · exact unchanged
      · rw [BallotBox.commitAt, if_pos (holds.lead.closed leads).1]
  | true =>
      obtain ⟨reign, window, isReign, isLog, pending, counts⟩ := holds.lead.leads leads
      rcases counted leads with below | acked
      · rw [commitAt_eq_self]
        · exact unchanged
        · unfold BallotBox.commitAt
          split_ifs <;> rfl
      · obtain ⟨pending', _, advances⟩ := pending.commitAt firstLogIndex lastLogIndex peer
        have below := pending.below
        have lower := pending.lower
        apply sound.counts leads isReign isLog rfl pending' (counts.commitAt acked)
        · rcases advances with ⟨same, _⟩ | raised
          · exact same.ge
          · omega
        · intro changes
          rcases advances with ⟨same, _⟩ | raised
          · exact absurd same changes
          · apply pending'.largest.2
            rw [CommitWindow.commitAt_first]
            exact lower.trans raised

end Group

end QuorumKit
