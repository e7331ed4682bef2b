/-
What the history of a group tells.

A term has one leader, which a quorum has voted for, and a leader commits what a quorum has
acknowledged in its term.  So what is committed is in the log of every later leader, and the
requests of a leader name parts of its log.
-/

import QuorumKit.Group.Servers

namespace QuorumKit

variable {P D : Type}

namespace ReplicaLog

theorem Slice.of_shorter {sent longer entries : List (LogEntry P D)} {previous : Nat}
    (slice : Slice sent previous entries) (shorter : sent <+: longer) :
    Slice longer previous entries := by
  obtain ⟨rest, rfl⟩ := shorter
  refine ⟨?_, ?_⟩
  · rw [List.length_append]
    exact slice.inside.trans (Nat.le_add_right _ _)
  · rw [List.take_append_of_le_length slice.inside]
    exact slice.slice.trans (List.prefix_append _ _)

end ReplicaLog

theorem termAt_of_shorter {entries longer : List (LogEntry P D)} {index : Nat}
    (shorter : entries <+: longer) (inside : index ≤ entries.length) :
    termAt longer index = termAt entries index := by
  obtain ⟨rest, rfl⟩ := shorter
  unfold termAt
  split_ifs with isZero
  · rfl
  · rw [List.getElem?_append_left (by omega)]

namespace Group

structure Sent (history : History P D) (led : P → List Nat) (request : AppendEntriesRequest P D) :
    Prop where
  slice : ∃ reign, history.reigns request.term = some reign ∧
    ReplicaLog.Slice reign.log request.prevLogIndex request.logEntries ∧
      request.prevLogTerm = termAt reign.log request.prevLogIndex
  valid : ∀ entryMeta ∈ request.entries, entryMeta.Valid
  committed : request.committedIndex = 0 ∨ ∃ made ∈ history.committed,
    made.1 ≤ request.term ∧ request.committedIndex ≤ made.2.length
  sender : request.term ∈ led request.serverId

/-- A server has acknowledged the entries up to the index, or they were committed already. -/
def Answered (history : History P D) (server : P) (term upTo : Nat) : Prop :=
  (∃ ack ∈ history.acknowledgements, ack.server = server ∧ ack.term = term ∧
      upTo ≤ ack.entries.length) ∨
    upTo = 0 ∨ ∃ made ∈ history.committed, made.1 ≤ term ∧ upTo ≤ made.2.length

def led (group : Group P D) (server : P) : List Nat := (group.cluster.lived server).ledTerms

structure Leaders [DecidableEq P] (entry : ConfigurationEntry P) (history : History P D)
    (led : P → List Nat) : Prop where
  chronicle : LeaderLogs.Chronicle LogEntry.term history.reigns
  reigned : ∀ term reign, history.reigns term = some reign →
    reign.rank < history.count ∧ 0 < term ∧ ProperLog reign.log ∧ ∃ server, term ∈ led server
  led : ∀ server, ∀ term ∈ led server, history.reigns term ≠ none
  elected : ∀ term reign, history.reigns term = some reign →
    ∃ voters, entry.Elects voters ∧ ∀ server ∈ voters,
      ∃ vote ∈ history.votes, vote.server = server ∧ vote.term = term ∧
        vote.count ≤ reign.rank ∧
          LeaderLogs.UpToDate LogEntry.term vote.entries reign.base

structure Annals [DecidableEq P] (entry : ConfigurationEntry P) (group : Group P D) : Prop
    extends Leaders entry group.history group.led where
  acknowledged : ∀ ack ∈ group.history.acknowledgements,
    group.history.Issued ack.term ack.entries
  committed : ∀ made ∈ group.history.committed,
    LeaderLogs.Chosen LogEntry.term group.history.reigns entry.Elects group.history.Acked
      made.1 made.2
  requests : ∀ request ∈ group.requests, Sent group.history group.led request
  responses : ∀ response ∈ group.responses,
    response.2 ∈ group.requests ∧ Answered group.history response.1 response.2.term
      (response.2.prevLogIndex + response.2.entries.length)

structure Sound [DecidableEq P] (entry : ConfigurationEntry P) (group : Group P D) : Prop where
  orderly : ∀ server, Cluster.Orderly entry group.cluster server
  annals : Annals entry group
  servers : ∀ server, Server entry group server

variable {history later : History P D} {term : Nat} {held entries : List (LogEntry P D)}
  {server : P}

theorem Sent.grows {led led' : P → List Nat} {request : AppendEntriesRequest P D}
    (sent : Sent history led request) (grows : history.Grows later)
    (more : ∀ server, led server ⊆ led' server) : Sent later led' request := by
  refine ⟨?_, sent.valid, ?_, more _ sent.sender⟩
  · obtain ⟨reign, isReign, slice, prevLogTerm⟩ := sent.slice
    obtain ⟨added, isLater⟩ := grows.reigns _ reign isReign
    have longer := reign.log_prefix added
    refine ⟨_, isLater, slice.of_shorter longer, ?_⟩
    rw [termAt_of_shorter longer slice.inside]
    exact prevLogTerm
  · exact sent.committed.imp_right (fun ⟨made, member, rest⟩ => ⟨made, grows.committed member, rest⟩)

theorem Answered.grows {upTo : Nat} (answered : Answered history server term upTo)
    (grows : history.Grows later) : Answered later server term upTo := by
  rcases answered with ⟨ack, member, rest⟩ | isZero | ⟨made, member, rest⟩
  · exact Or.inl ⟨ack, grows.acknowledgements member, rest⟩
  · exact Or.inr (Or.inl isZero)
  · exact Or.inr (Or.inr ⟨made, grows.committed member, rest⟩)

theorem chosen_grows {quorum : Finset P → Prop}
    (chosen : LeaderLogs.Chosen LogEntry.term history.reigns quorum history.Acked term held)
    (grows : history.Grows later) :
    LeaderLogs.Chosen LogEntry.term later.reigns quorum later.Acked term held := by
  refine ⟨?_, chosen.own, ?_⟩
  · exact History.Issued.grows chosen.led grows
  · obtain ⟨voters, isQuorum, acks⟩ := chosen.acks
    exact ⟨voters, isQuorum, fun server member => (acks server member).grows grows⟩

variable [DecidableEq P] {entry : ConfigurationEntry P} {group after : Group P D}

theorem elected_grows (grows : history.Grows later)
    (elected : ∃ reign voters, history.reigns term = some reign ∧ entry.Elects voters ∧
      ∀ server ∈ voters, ∃ vote ∈ history.votes, vote.server = server ∧ vote.term = term ∧
        vote.count ≤ reign.rank ∧ LeaderLogs.UpToDate LogEntry.term vote.entries reign.base) :
    ∀ reign, later.reigns term = some reign → ∃ voters, entry.Elects voters ∧
      ∀ server ∈ voters, ∃ vote ∈ later.votes, vote.server = server ∧ vote.term = term ∧
        vote.count ≤ reign.rank ∧ LeaderLogs.UpToDate LogEntry.term vote.entries reign.base := by
  intro reign isReign
  obtain ⟨former, voters, isFormer, elects, votes⟩ := elected
  obtain ⟨added, isLater⟩ := grows.reigns term former isFormer
  rw [isLater] at isReign
  obtain rfl := Option.some.inj isReign
  refine ⟨voters, elects, ?_⟩
  intro server member
  obtain ⟨vote, voted, rest⟩ := votes server member
  exact ⟨vote, grows.votes voted, rest⟩

theorem leader_unique {cluster : Cluster P}
    (orderly : ∀ server, Cluster.Orderly entry cluster server) {other : P}
    (leads : term ∈ (cluster.lived server).ledTerms)
    (alsoLeads : term ∈ (cluster.lived other).ledTerms) : server = other := by
  obtain ⟨contained, alone | ⟨voters, elects, votes⟩⟩ := (orderly server).elected term leads
  · obtain ⟨otherContained, _⟩ := (orderly other).elected term alsoLeads
    exact (alone.only otherContained).symm
  · obtain ⟨_, otherAlone | ⟨otherVoters, otherElects, otherVotes⟩⟩ :=
      (orderly other).elected term alsoLeads
    · exact otherAlone.only contained
    · obtain ⟨voter, inVoters, inOthers⟩ := elects.common otherElects
      exact (orderly voter).sworn.pledge.unique term server other (votes voter inVoters)
        (otherVotes voter inOthers)

theorem Sound.leader_unique (sound : Sound entry group) {other : P}
    (leads : term ∈ group.led server) (alsoLeads : term ∈ group.led other) : server = other :=
  Group.leader_unique sound.orderly leads alsoLeads

theorem Server.leads_led (holds : Server entry group server)
    (leads : (group.node server).state.leads = true) :
    (group.node server).currentTerm ∈ group.led server := by
  unfold Group.led LivedNode.ledTerms
  rw [List.flatMap_cons]
  exact List.mem_append_left _ (holds.standing.leads leads)

structure Goes (entry : ConfigurationEntry P) (group after : Group P D) : Prop where
  sound : Sound entry after
  grows : group.history.Grows after.history

theorem Goes.continue {middle : Group P D} (first : Goes entry group middle)
    (second : Sound entry middle → Goes entry middle after) : Goes entry group after :=
  ⟨(second first.sound).sound, first.grows.trans (second first.sound).grows⟩

structure Moves (entry : ConfigurationEntry P) (group after : Group P D) (server : P) : Prop where
  orderly : ∀ other, Cluster.Orderly entry after.cluster other
  leaders : Leaders entry after.history after.led
  grows : group.history.Grows after.history
  lived : ∀ other, other ≠ server → after.cluster.lived other = group.cluster.lived other
  replicas : ∀ other, other ≠ server → after.replica other = group.replica other
  led : ∀ other, group.led other ⊆ after.led other
  voteRpcs : ∀ peer, group.voteRpcs peer ⊆ after.voteRpcs peer
  more : group.requests ⊆ after.requests
  requests : ∀ request ∈ after.requests, request ∈ group.requests ∨
    Sent group.history group.led request
  votes : ∀ vote ∈ after.history.votes, vote ∈ group.history.votes ∨ vote.server = server
  acks : ∀ ack ∈ after.history.acknowledgements, ack ∈ group.history.acknowledgements ∨
    ack.server = server ∧ group.history.Issued ack.term ack.entries
  committed : ∀ made ∈ after.history.committed, made ∈ group.history.committed ∨
    (group.node server).state.leads = true ∧ made.1 = (group.node server).currentTerm ∧
      LeaderLogs.Chosen LogEntry.term group.history.reigns entry.Elects group.history.Acked
        made.1 made.2
  responses : ∀ response ∈ after.responses, response ∈ group.responses ∨
    response.2 ∈ group.requests ∧ Answered group.history response.1 response.2.term
      (response.2.prevLogIndex + response.2.entries.length)
  reigns : ∀ other, other ≠ server → (group.node other).state.leads = true →
    after.history.reigns (group.node other).currentTerm =
      group.history.reigns (group.node other).currentTerm

theorem Moves.annals (moves : Moves entry group after server) (annals : Annals entry group) :
    Annals entry after := by
  have grows := moves.grows
  refine { moves.leaders with acknowledged := ?_, committed := ?_, requests := ?_, responses := ?_ }
  · intro ack member
    rcases moves.acks ack member with former | ⟨_, issued⟩
    · exact (annals.acknowledged ack former).grows grows
    · exact issued.grows grows
  · intro made member
    rcases moves.committed made member with former | ⟨_, _, chosen⟩
    · exact chosen_grows (annals.committed made former) grows
    · exact chosen_grows chosen grows
  · intro request member
    rcases moves.requests request member with former | sent
    · exact (annals.requests request former).grows grows moves.led
    · exact sent.grows grows moves.led
  · intro response member
    rcases moves.responses response member with former | ⟨asked, answered⟩
    · obtain ⟨asked, answered⟩ := annals.responses response former
      exact ⟨moves.more asked, answered.grows grows⟩
    · exact ⟨moves.more asked, answered.grows grows⟩

theorem Moves.untouched (moves : Moves entry group after server) (sound : Sound entry group)
    {other : P} (apart : other ≠ server) : Untouched group after other := by
  refine ⟨moves.lived other apart, moves.replicas other apart, moves.grows, moves.more,
    moves.voteRpcs, ?_, ?_, fun leads => ⟨moves.reigns other apart leads, ?_⟩⟩
  · rintro former held ⟨ack, member, isServer, rest⟩
    rcases moves.acks ack member with old | ⟨isOther, _⟩
    · exact ⟨ack, old, isServer, rest⟩
    · rw [isServer] at isOther
      exact absurd isOther apart
  · intro vote member isServer
    rcases moves.votes vote member with old | isOther
    · exact old
    · rw [isServer] at isOther
      exact absurd isOther apart
  · intro made member isTerm
    rcases moves.committed made member with old | ⟨alsoLeads, alsoTerm, _⟩
    · exact old
    · -- the server that commits would lead the same term
      have isLed := (sound.servers other).leads_led leads
      have alsoLed := (sound.servers server).leads_led alsoLeads
      rw [← isTerm, alsoTerm] at isLed
      exact absurd (sound.leader_unique isLed alsoLed) apart

theorem Moves.goes (server : P) (moves : Moves entry group after server)
    (sound : Sound entry group) (acts : Server entry after server) : Goes entry group after := by
  refine ⟨⟨moves.orderly, moves.annals sound.annals, ?_⟩, moves.grows⟩
  intro other
  by_cases same : other = server
  · rw [same]
    exact acts
  · exact (sound.servers other).untouched (moves.untouched sound same)

theorem Sound.elections (sound : Sound entry group) :
    LeaderLogs.Elections LogEntry.term group.history.reigns entry.Elects
      (fun server number log bound => ∃ vote ∈ group.history.votes, vote.server = server ∧
        vote.term = number ∧ vote.entries = log ∧ vote.count = bound) group.history.Acked := by
  constructor
  · exact fun _ _ elects others => elects.common others
  · intro number reign isReign
    obtain ⟨voters, elects, votes⟩ := sound.annals.elected number reign isReign
    refine ⟨voters, elects, ?_⟩
    intro server member
    obtain ⟨vote, voted, isServer, isTerm, early, upToDate⟩ := votes server member
    exact ⟨vote.entries, vote.count, ⟨vote, voted, isServer, isTerm, rfl, rfl⟩, early, upToDate⟩
  · rintro server number log bound ⟨vote, voted, isServer, rfl, rfl, rfl⟩
    exact ((sound.servers server).votes.votes vote voted isServer).2.2.1
  · rintro server number log bound former held ⟨vote, voted, isServer, rfl, rfl, rfl⟩ acked early own
    exact ((sound.servers server).votes.votes vote voted isServer).2.2.2 former held acked early own

theorem Sound.committed_led (sound : Sound entry group) {made : Nat × List (LogEntry P D)}
    (member : made ∈ group.history.committed) (notEarlier : made.1 ≤ term)
    {reign : LeaderLogs.Reign (LogEntry P D)} (isReign : group.history.reigns term = some reign) :
    made.2 <+: reign.log :=
  (sound.annals.committed made member).led_from sound.elections sound.annals.chronicle notEarlier
    isReign

theorem Sound.committed_base (sound : Sound entry group) {made : Nat × List (LogEntry P D)}
    (member : made ∈ group.history.committed) (earlier : made.1 < term)
    {reign : LeaderLogs.Reign (LogEntry P D)} (isReign : group.history.reigns term = some reign) :
    made.2 <+: reign.base :=
  (sound.annals.committed made member).later sound.elections sound.annals.chronicle earlier isReign

omit [DecidableEq P] in
theorem take_of_settled {index : Nat} {made : List (LogEntry P D)} (long : index ≤ made.length)
    (prefixes : made.take index <+: entries) : entries.take index = made.take index := by
  rw [List.prefix_iff_eq_take, List.length_take_of_le long] at prefixes
  exact prefixes.symm

theorem Sound.settled_led (sound : Sound entry group) {index later : Nat}
    (settled : group.history.Settled term entries index) (notEarlier : term ≤ later)
    {reign : LeaderLogs.Reign (LogEntry P D)} (isReign : group.history.reigns later = some reign) :
    entries.take index <+: reign.log := by
  rcases settled with rfl | ⟨made, member, early, long, prefixes⟩
  · exact List.nil_prefix
  · rw [take_of_settled long prefixes]
    exact (List.take_prefix _ _).trans
      (sound.committed_led member (early.trans notEarlier) isReign)

omit [DecidableEq P] in
theorem matching_of_traced {bound bound' : Nat} {other : List (LogEntry P D)}
    (traced : LeaderLogs.Traced LogEntry.term history.reigns bound entries)
    (traced' : LeaderLogs.Traced LogEntry.term history.reigns bound' other) :
    Matching entries other :=
  fun _ _ _ found found' same => traced.matching traced' found found' same

theorem Sound.traced_reign (sound : Sound entry group) {reign : LeaderLogs.Reign (LogEntry P D)}
    (isReign : group.history.reigns term = some reign) :
    LeaderLogs.Traced LogEntry.term group.history.reigns group.history.count reign.log :=
  sound.annals.chronicle.traced_log isReign (sound.annals.reigned term reign isReign).1

end Group

end QuorumKit
