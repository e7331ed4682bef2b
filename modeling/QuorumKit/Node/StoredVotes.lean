/-
Votes and the meta storage.

A node writes a vote before it answers with it.  In each term of its lives the storage
holds one vote at most, whatever writes fail.  `elect_self` asks for votes before it has
written its own one, and goes on as a candidate where the write fails: its own vote is
then missing when the responses come.
-/

import QuorumKit.Node.VoteEffects

namespace QuorumKit

namespace ElectionNode

variable {P : Type}

def ledTerms (node : ElectionNode P) : List Nat := node.candidacies.map Candidacy.term

/-- The terms and the candidates of the votes that the node has answered with. -/
def grantedVotes (node : ElectionNode P) : List (Nat × P) :=
  (node.replies.filter (fun reply => reply.2.granted)).map
    (fun reply => (reply.2.term, reply.1.serverId))

/-- `elect_self` waits in the current term: the node's own vote is not written yet, and
nobody has been asked for one. -/
structure Window (node : ElectionNode P) : Prop where
  own : node.votedId = some node.serverId
  unwritten : node.persisted.1 < node.currentTerm
  unarmed : node.voteCtx.grantSelfArg = none
  unexpired : node.voteCtx.version ∉ node.voteTimeouts
  unsent : ∀ rpc ∈ node.voteRpcs, rpc.term ≠ node.currentTerm

structure Pledge (stored : List (Nat × Option P)) (node : ElectionNode P) : Prop where
  below : node.persisted.1 ≤ node.currentTerm
  agrees : node.persisted.1 = node.currentTerm → node.persisted.2 = node.votedId
  voted : node.votedId ≠ none →
    node.persisted = (node.currentTerm, node.votedId) ∨ node.currentTerm ∈ node.electing
  window : node.currentTerm ∈ node.electing → Window node
  electing : ∀ term ∈ node.electing, term ≤ node.currentTerm
  apart : node.electing.Nodup
  sent : ∀ rpc ∈ node.voteRpcs, rpc.peerId ≠ node.serverId ∧ rpc.term ≤ node.currentTerm
  armed : ∀ version, node.voteCtx.grantSelfArg = some version → version = node.voteCtx.version
  stale : ∀ version ∈ node.voteTimeouts, version ≤ node.voteCtx.version
  history : ∀ term peer, (term, some peer) ∈ stored →
    term < node.persisted.1 ∨ node.persisted = (term, some peer)
  unique : ∀ term peer other, (term, some peer) ∈ stored → (term, some other) ∈ stored →
    peer = other
  written : ∀ peer, node.persisted.2 = some peer → node.persisted ∈ stored
  granted : ∀ vote ∈ node.grantedVotes, vote.2 ≠ node.serverId → (vote.1, some vote.2) ∈ stored

variable {configures : ConfigurationEntry P → Prop} {node node' : ElectionNode P}
  {stored : List (Nat × Option P)}

/-- The storage holds the vote of the current term once `elect_self` has written it. -/
theorem Pledge.own_stored (pledge : Pledge stored node) {peer : P}
    (own : node.votedId = some peer) (written : node.currentTerm ∉ node.electing) :
    (node.currentTerm, some peer) ∈ stored := by
  have voted : node.votedId ≠ none := by
    rw [own]
    exact Option.some_ne_none peer
  rcases pledge.voted voted with same | waits
  · have isPeer : node.persisted.2 = some peer := by
      rw [same]
      exact own
    have member := pledge.written peer isPeer
    rw [same, own] at member
    exact member
  · exact absurd waits written

theorem Pledge.unvoted_unstored (pledge : Pledge stored node) {peer : P}
    (other : node.votedId ≠ some peer) : (node.currentTerm, some peer) ∉ stored := by
  intro member
  rcases pledge.history _ _ member with past | same
  · exact absurd past (not_lt.mpr pledge.below)
  · have agrees := pledge.agrees (by rw [same])
    rw [same] at agrees
    exact other agrees.symm

theorem Pledge.of_samePolls (pledge : Pledge stored node) (polls : SamePolls node node') :
    Pledge stored node' := by
  have polled := polls.polled
  simp only [ElectionNode.polled, Prod.mk.injEq] at polled
  obtain ⟨serverId, term, votedId, persisted, ctx, rpcs, replies, _⟩ := polled
  constructor
  · rw [persisted, term]
    exact pledge.below
  · rw [persisted, term, votedId]
    exact pledge.agrees
  · rw [persisted, term, votedId]
    exact fun voted => (pledge.voted voted).imp_right polls.waits
  · rw [term]
    intro waits
    have window := pledge.window (polls.electing.subset waits)
    constructor
    · rw [votedId, serverId]
      exact window.own
    · rw [persisted, term]
      exact window.unwritten
    · rw [ctx]
      exact window.unarmed
    · rw [ctx]
      exact fun member => window.unexpired (polls.voteTimeouts.subset member)
    · rw [rpcs, term]
      exact window.unsent
  · rw [term]
    exact fun other member => pledge.electing other (polls.electing.subset member)
  · exact polls.electing.nodup pledge.apart
  · rw [rpcs, serverId, term]
    exact pledge.sent
  · rw [ctx]
    exact pledge.armed
  · rw [ctx]
    exact fun version member => pledge.stale version (polls.voteTimeouts.subset member)
  · rw [persisted]
    exact pledge.history
  · exact pledge.unique
  · rw [persisted]
    exact pledge.written
  · unfold grantedVotes
    rw [replies, serverId]
    exact pledge.granted

theorem Pledge.setVoteCtx (pledge : Pledge stored node) (ctx : VoteBallotCtx P)
    (armed : ∀ version, ctx.grantSelfArg = some version → version = ctx.version)
    (grows : node.voteCtx.version ≤ ctx.version)
    (window : node.currentTerm ∈ node.electing →
      ctx.grantSelfArg = none ∧ ctx.version ∉ node.voteTimeouts) :
    Pledge stored { node with voteCtx := ctx } :=
  { pledge with
    window := fun waits =>
      { pledge.window waits with unarmed := (window waits).1, unexpired := (window waits).2 }
    armed := armed
    stale := fun version member => (pledge.stale version member).trans grows }

theorem Pledge.resetVoteCtx (pledge : Pledge stored node) :
    Pledge stored { node with voteCtx := node.voteCtx.reset } := by
  apply pledge.setVoteCtx node.voteCtx.reset
  · intro version armed
    contradiction
  · exact Nat.le_succ _
  · intro _
    refine ⟨rfl, ?_⟩
    intro member
    have late := pledge.stale _ member
    exact absurd late (Nat.not_succ_le_self _)

theorem Pledge.raise (pledge : Pledge stored node) {term : Nat} (higher : node.currentTerm < term)
    (writes : Bool) :
    Pledge stored
      { node with
        currentTerm := term
        votedId := none
        persisted := if writes then (term, none) else node.persisted } := by
  have unelected : term ∉ node.electing :=
    fun member => absurd (pledge.electing term member) (not_le.mpr higher)
  have below := pledge.below
  constructor
  · cases writes with
    | true => exact le_refl term
    | false => exact below.trans higher.le
  · cases writes with
    | true => exact fun _ => rfl
    | false =>
        intro same
        exact absurd same (ne_of_lt (lt_of_le_of_lt below higher))
  · exact fun voted => absurd rfl voted
  · exact fun waits => absurd waits unelected
  · exact fun other member => (pledge.electing other member).trans higher.le
  · exact pledge.apart
  · exact fun rpc member => ⟨(pledge.sent rpc member).1, (pledge.sent rpc member).2.trans higher.le⟩
  · exact pledge.armed
  · exact pledge.stale
  · intro past peer member
    cases writes with
    | false => exact pledge.history past peer member
    | true =>
        refine Or.inl ?_
        change past < term
        rcases pledge.history past peer member with former | same
        · omega
        · rw [same] at below
          exact lt_of_le_of_lt below higher
  · exact pledge.unique
  · cases writes with
    | false => exact pledge.written
    | true =>
        intro peer isPeer
        contradiction
  · exact pledge.granted

theorem Pledge.stepDown (pledge : Pledge stored node) (term : Nat) (writes : Bool) :
    Pledge stored (node.stepDown term writes) := by
  by_cases active : node.state.isActive = true
  · obtain ⟨preVoteCtx, same⟩ := stepDown_active active term writes
    have renewed : Pledge stored { node with voteCtx := node.voteCtxAfter } := by
      unfold voteCtxAfter
      split
      · exact pledge.resetVoteCtx
      · exact pledge
    rw [same]
    by_cases higher : node.currentTerm < term
    · have raised := renewed.raise higher writes
      apply raised.of_samePolls
      refine ⟨?_, List.Sublist.refl _, id, List.Sublist.refl _⟩
      simp [polled, higher, higher.le]
    · apply renewed.of_samePolls
      have term_max : max node.currentTerm term = node.currentTerm := max_eq_left (by omega)
      refine ⟨?_, List.Sublist.refl _, ?_, List.Sublist.refl _⟩
      · simp [polled, higher, term_max]
      · exact id
  · rw [stepDown_inactive (Bool.eq_false_of_not_eq_true active)]
    exact pledge

variable [DecidableEq P]

theorem electing_electSelf (contained : node.conf.contains node.serverId = true)
    (oldLeaderSteppedDown : Bool) :
    (node.electSelf oldLeaderSteppedDown).electing = node.electing ++ [node.currentTerm + 1] := by
  unfold ElectionNode.electSelf ElectionNode.electing
  rw [if_neg (not_not.mpr contained)]
  exact List.filterMap_append

theorem Pledge.electSelf (pledge : Pledge stored node) (oldLeaderSteppedDown : Bool) :
    Pledge stored (node.electSelf oldLeaderSteppedDown) := by
  by_cases outside : ¬ node.conf.contains node.serverId = true
  · unfold ElectionNode.electSelf
    rw [if_pos outside]
    exact pledge
  have waits := electing_electSelf (not_not.mp outside) oldLeaderSteppedDown
  have higher : node.currentTerm < node.currentTerm + 1 := Nat.lt_succ_self _
  unfold ElectionNode.electSelf at waits ⊢
  rw [if_neg outside] at waits ⊢
  simp only at waits ⊢
  have version : (if oldLeaderSteppedDown then
      (node.voteCtx.init node.conf.conf node.oldConf false (node.currentTerm + 1)).setDisruptedLeader
        { peerId := node.leaderId, term := node.currentTerm }
      else node.voteCtx.init node.conf.conf node.oldConf false (node.currentTerm + 1)).version =
        node.voteCtx.version + 1 := by
    split <;> rfl
  have unarmed : (if oldLeaderSteppedDown then
      (node.voteCtx.init node.conf.conf node.oldConf false (node.currentTerm + 1)).setDisruptedLeader
        { peerId := node.leaderId, term := node.currentTerm }
      else node.voteCtx.init node.conf.conf node.oldConf false
        (node.currentTerm + 1)).grantSelfArg = none := by
    split <;> rfl
  constructor
  · exact pledge.below.trans higher.le
  · intro same
    exact absurd same (ne_of_lt (lt_of_le_of_lt pledge.below higher))
  · intro _
    rw [waits]
    exact Or.inr (List.mem_append_right _ (List.mem_singleton.mpr rfl))
  · intro _
    refine ⟨rfl, lt_of_le_of_lt pledge.below higher, unarmed, ?_, ?_⟩
    · rw [version]
      intro member
      exact absurd (pledge.stale _ member) (Nat.not_succ_le_self _)
    · intro rpc member same
      have past := (pledge.sent rpc member).2
      rw [same] at past
      exact absurd past (Nat.not_succ_le_self _)
  · rw [waits]
    intro term member
    rcases List.mem_append.mp member with former | new
    · exact (pledge.electing term former).trans higher.le
    · rw [List.mem_singleton.mp new]
  · rw [waits, List.nodup_append]
    refine ⟨pledge.apart, List.nodup_singleton _, ?_⟩
    intro former member latter new same
    rw [List.mem_singleton] at new
    have past := pledge.electing former member
    omega
  · intro rpc member
    exact ⟨(pledge.sent rpc member).1, (pledge.sent rpc member).2.trans higher.le⟩
  · rw [unarmed]
    intro other armed
    contradiction
  · rw [version]
    exact fun other member => (pledge.stale other member).trans (Nat.le_succ _)
  · exact pledge.history
  · exact pledge.unique
  · exact pledge.written
  · exact pledge.granted

omit [DecidableEq P] in
theorem Pledge.expireVote (pledge : Pledge stored node) {version : Nat}
    (armed : node.voteCtx.grantSelfArg = some version) : Pledge stored (node.expireVote version) := by
  have closed : node.currentTerm ∉ node.electing := by
    intro waits
    rw [(pledge.window waits).unarmed] at armed
    contradiction
  have expired : (node.expireVote version).voteTimeouts = node.voteTimeouts ++ [version] := by
    unfold ElectionNode.expireVote ElectionNode.voteTimeouts
    exact List.filterMap_append
  refine { pledge with window := ?_, armed := ?_, stale := ?_ }
  · exact fun waits => absurd waits closed
  · intro other again
    contradiction
  · rw [expired]
    intro other member
    rcases List.mem_append.mp member with former | new
    · exact pledge.stale other former
    · rw [List.mem_singleton.mp new]
      exact (pledge.armed version armed).le

theorem Pledge.reply (pledge : Pledge stored node) (request : RequestVoteRequest P)
    (previousTerm : Nat) (rejectedByLease disrupted : Bool) :
    Pledge stored (node.reply request previousTerm rejectedByLease disrupted) := by
  refine { pledge with window := ?_, granted := ?_ }
  · intro waits
    have window := pledge.window waits
    exact ⟨window.own, window.unwritten, window.unarmed, window.unexpired, window.unsent⟩
  · intro vote member other
    obtain ⟨answer, answered, isVote⟩ := List.mem_map.mp member
    obtain ⟨inReplies, isGranted⟩ := List.mem_filter.mp answered
    rcases List.mem_cons.mp inReplies with new | former
    · subst new
      subst isVote
      have votes : request.term = node.currentTerm ∧ node.votedId = some request.serverId :=
        of_decide_eq_true isGranted
      apply pledge.own_stored votes.2
      intro waits
      have own := (pledge.window waits).own
      rw [votes.2, Option.some_inj] at own
      exact other own
    · exact pledge.granted vote
        (List.mem_map.mpr ⟨answer, List.mem_filter.mpr ⟨former, isGranted⟩, isVote⟩) other

theorem Pledge.effect (effect : Effect configures node node') (pledge : Pledge stored node) :
    Pledge stored node' := by
  induction effect with
  | keep keeps => exact pledge.of_samePolls keeps.polls
  | configure node may =>
      refine { pledge with window := ?_ }
      intro waits
      have window := pledge.window waits
      exact ⟨window.own, window.unwritten, window.unarmed, window.unexpired, window.unsent⟩
  | stepDown node term writes => exact pledge.stepDown term writes
  | electSelf node oldLeaderSteppedDown => exact pledge.electSelf oldLeaderSteppedDown
  | reply node request previousTerm rejectedByLease disrupted =>
      exact pledge.reply request previousTerm rejectedByLease disrupted
  | expireVote node armed => exact pledge.expireVote armed
  | trans _ _ first second => exact second (first pledge)

omit [DecidableEq P] in
theorem Pledge.mono (pledge : Pledge stored node) : Pledge (node.persisted :: stored) node := by
  have kept {term : Nat} {peer : P} (member : (term, some peer) ∈ node.persisted :: stored) :
      (term, some peer) ∈ stored := by
    rcases List.mem_cons.mp member with new | former
    · have isPeer : node.persisted.2 = some peer := by rw [← new]
      have held := pledge.written peer isPeer
      rw [← new] at held
      exact held
    · exact former
  refine { pledge with history := ?_, unique := ?_, written := ?_, granted := ?_ }
  · exact fun term peer member => pledge.history term peer (kept member)
  · exact fun term peer other left right => pledge.unique term peer other (kept left) (kept right)
  · exact fun peer isPeer => List.mem_cons_self
  · exact fun vote member other => List.mem_cons_of_mem _ (pledge.granted vote member other)

omit [DecidableEq P] in
theorem Pledge.store (pledge : Pledge stored node) (peer : P) {waiting : List (Waiting P)}
    (fresh : ∀ other, (node.currentTerm, some other) ∉ stored)
    (fewer : (waiting.filterMap Waiting.electing?).Sublist node.electing)
    (closed : node.currentTerm ∉ waiting.filterMap Waiting.electing?) :
    Pledge ((node.currentTerm, some peer) :: stored)
      { node with
        waiting := waiting
        votedId := some peer
        persisted := (node.currentTerm, some peer) } := by
  have below := pledge.below
  constructor
  · exact le_refl _
  · exact fun _ => rfl
  · exact fun _ => Or.inl rfl
  · exact fun waits => absurd waits closed
  · exact fun term member => pledge.electing term (fewer.subset member)
  · exact fewer.nodup pledge.apart
  · exact pledge.sent
  · exact pledge.armed
  · exact pledge.stale
  · intro term other member
    rcases List.mem_cons.mp member with new | former
    · exact Or.inr new.symm
    · refine Or.inl ?_
      change term < node.currentTerm
      rcases pledge.history term other former with past | same
      · omega
      · rw [same] at below
        refine lt_of_le_of_ne below ?_
        intro current
        subst current
        exact fresh other former
  · intro term left right isLeft isRight
    rcases List.mem_cons.mp isLeft with newLeft | oldLeft
    · rcases List.mem_cons.mp isRight with newRight | oldRight
      · simp only [Prod.mk.injEq, Option.some_inj] at newLeft newRight
        rw [newLeft.2, newRight.2]
      · simp only [Prod.mk.injEq] at newLeft
        rw [newLeft.1] at oldRight
        exact absurd oldRight (fresh right)
    · rcases List.mem_cons.mp isRight with newRight | oldRight
      · simp only [Prod.mk.injEq] at newRight
        rw [newRight.1] at oldLeft
        exact absurd oldLeft (fresh left)
      · exact pledge.unique term left right oldLeft oldRight
  · exact fun other isOther => List.mem_cons_self
  · exact fun vote member other => List.mem_cons_of_mem _ (pledge.granted vote member other)

omit [DecidableEq P] in
theorem Pledge.castVote (pledge : Pledge stored node) (unvoted : node.votedId = none) (peer : P)
    (writes : Bool) :
    Pledge ((node.castVote peer writes).persisted :: stored) (node.castVote peer writes) := by
  cases writes with
  | false =>
      have same : node.castVote peer false = node := by
        unfold ElectionNode.castVote setTermAndVotedfor
        simp [← unvoted]
      rw [same]
      exact pledge.mono
  | true =>
      have closed : node.currentTerm ∉ node.electing := by
        intro waits
        rw [(pledge.window waits).own] at unvoted
        contradiction
      have fresh (other : P) : (node.currentTerm, some other) ∉ stored := by
        apply pledge.unvoted_unstored
        rw [unvoted]
        exact (Option.some_ne_none other).symm
      exact pledge.store peer fresh (List.Sublist.refl _) closed

theorem Pledge.requestPeersToVote (pledge : Pledge stored node)
    (closed : node.currentTerm ∉ node.electing) (peers : List P) :
    Pledge stored (node.requestPeersToVote peers) := by
  refine { pledge with window := ?_, sent := ?_ }
  · exact fun waits => absurd waits closed
  · intro rpc member
    rcases List.mem_append.mp member with former | new
    · exact pledge.sent rpc former
    · obtain ⟨peer, isPeer, isRpc⟩ := List.mem_map.mp new
      subst isRpc
      exact ⟨of_decide_eq_true (List.mem_filter.mp isPeer).2, le_refl _⟩

omit [DecidableEq P] in
theorem Pledge.becomeLeader (pledge : Pledge stored node) : Pledge stored node.becomeLeader := by
  have reset := pledge.resetVoteCtx
  refine { reset with window := ?_ }
  intro waits
  have window := reset.window waits
  exact ⟨window.own, window.unwritten, window.unarmed, window.unexpired, window.unsent⟩

theorem Pledge.grantSelf (pledge : Pledge stored node) (closed : node.currentTerm ∉ node.electing)
    (waits : Bool) : Pledge stored (node.grantSelf .vote waits) := by
  have granted : Pledge stored
      (node.setCtx .vote ((node.ctx .vote).grant node.serverId node.currentTerm)) :=
    pledge.setVoteCtx _ pledge.armed (le_refl _) (fun opened => absurd opened closed)
  unfold ElectionNode.grantSelf
  split
  · apply pledge.setVoteCtx
    · exact fun version armed => (Option.some.inj armed).symm
    · exact le_refl _
    · exact fun opened => absurd opened closed
  · simp only
    split
    · exact granted
    · exact granted.becomeLeader

omit [DecidableEq P] in
theorem electing_eraseIdx (apart : node.electing.Nodup) {position term : Nat}
    (found : node.waiting[position]? = some (.electSelf term)) :
    term ∉ (node.waiting.eraseIdx position).filterMap Waiting.electing? := by
  obtain ⟨inside, isCall⟩ := List.getElem?_eq_some_iff.mp found
  have split : node.waiting =
      node.waiting.take position ++ .electSelf term :: node.waiting.drop (position + 1) := by
    rw [← isCall, ← List.drop_eq_getElem_cons inside, List.take_append_drop]
  unfold electing at apart
  have isTerm : (Waiting.electSelf term : Waiting P).electing? = some term := rfl
  rw [split, List.filterMap_append, List.filterMap_cons_some isTerm, List.nodup_middle] at apart
  rw [List.eraseIdx_eq_take_drop_succ, List.filterMap_append]
  exact (List.nodup_cons.mp apart).1

omit [DecidableEq P] in
theorem Pledge.unvote (pledge : Pledge stored node) {waiting : List (Waiting P)}
    (unwritten : node.persisted.1 < node.currentTerm)
    (fewer : (waiting.filterMap Waiting.electing?).Sublist node.electing)
    (closed : node.currentTerm ∉ waiting.filterMap Waiting.electing?) :
    Pledge stored { node with waiting := waiting, votedId := none } := by
  refine { pledge with agrees := ?_, voted := ?_, window := ?_, electing := ?_, apart := ?_ }
  · exact fun same => absurd same (ne_of_lt unwritten)
  · exact fun voted => absurd rfl voted
  · exact fun waits => absurd waits closed
  · exact fun term member => pledge.electing term (fewer.subset member)
  · exact fewer.nodup pledge.apart

omit [DecidableEq P] in
theorem Pledge.setLastLogId (pledge : Pledge stored node) (lastLogId : LogId) :
    Pledge stored { node with voteCtx := node.voteCtx.setLastLogId lastLogId } := by
  apply pledge.setVoteCtx
  · exact pledge.armed
  · exact le_refl _
  · exact fun waits => ⟨(pledge.window waits).unarmed, (pledge.window waits).unexpired⟩

omit [DecidableEq P] in
theorem Pledge.writeOwn (pledge : Pledge stored node) {position : Nat}
    (found : node.waiting[position]? = some (.electSelf node.currentTerm)) :
    Pledge ((node.currentTerm, some node.serverId) :: stored)
      { node with
        waiting := node.waiting.eraseIdx position
        persisted := (node.currentTerm, some node.serverId) } := by
  have window := pledge.window (List.mem_filterMap.mpr ⟨_, List.mem_of_getElem? found, rfl⟩)
  have fresh (other : P) : (node.currentTerm, some other) ∉ stored := by
    intro member
    have unwritten := window.unwritten
    rcases pledge.history _ _ member with past | same
    · omega
    · rw [same] at unwritten
      exact lt_irrefl _ unwritten
  have written := pledge.store node.serverId fresh ((List.eraseIdx_sublist _ _).filterMap _)
    (electing_eraseIdx pledge.apart found)
  apply written.of_samePolls
  refine ⟨?_, List.Sublist.refl _, id, List.Sublist.refl _⟩
  simp only [polled, window.own]

theorem Pledge.resumeElectSelf (pledge : Pledge stored node) {position : Nat}
    (found : node.waiting[position]? = some (.electSelf node.currentTerm)) (lastLogId : LogId)
    (writes waits : Bool) {after : ElectionNode P}
    (isAfter : after = { node with waiting := node.waiting.eraseIdx position }.resumeElectSelf
      node.currentTerm lastLogId writes waits) :
    Pledge (if writes then (node.currentTerm, some node.serverId) :: stored else stored) after := by
  have closed := electing_eraseIdx pledge.apart found
  have window := pledge.window (List.mem_filterMap.mpr ⟨_, List.mem_of_getElem? found, rfl⟩)
  subst isAfter
  unfold ElectionNode.resumeElectSelf
  rw [if_neg (not_not.mpr rfl)]
  cases writes with
  | false =>
      have failed := pledge.unvote window.unwritten ((List.eraseIdx_sublist _ _).filterMap _) closed
      exact (failed.setLastLogId lastLogId).requestPeersToVote closed node.conf.listPeers
  | true =>
      have asked := ((pledge.writeOwn found).setLastLogId lastLogId).requestPeersToVote closed
        node.conf.listPeers
      exact asked.grantSelf closed waits

theorem grantSelf_persisted (node : ElectionNode P) (waits : Bool) :
    (node.grantSelf .vote waits).persisted = node.persisted := by
  unfold ElectionNode.grantSelf
  split
  · rfl
  · simp only
    split
    · rfl
    · rfl

theorem resumeElectSelf_persisted (node : ElectionNode P) (lastLogId : LogId)
    (writes waits : Bool) :
    (node.resumeElectSelf node.currentTerm lastLogId writes waits).persisted =
      if writes then (node.currentTerm, some node.serverId) else node.persisted := by
  unfold ElectionNode.resumeElectSelf
  rw [if_neg (not_not.mpr rfl)]
  cases writes with
  | false => rfl
  | true => exact grantSelf_persisted _ waits

omit [DecidableEq P] in
theorem Pledge.closed_of_answer (pledge : Pledge stored node) {rpc : VoteRpc P}
    (sent : rpc ∈ node.voteRpcs) (current : rpc.term = node.currentTerm) :
    node.currentTerm ∉ node.electing :=
  fun waits => (pledge.window waits).unsent rpc sent current

omit [DecidableEq P] in
theorem Pledge.closed_of_timer (pledge : Pledge stored node) {position : Nat}
    (timedOut : node.timedOut[position]? = some (.vote, node.voteCtx.version)) :
    node.currentTerm ∉ node.electing := by
  intro waits
  apply (pledge.window waits).unexpired
  exact List.mem_filterMap.mpr ⟨_, List.mem_of_getElem? timedOut, if_pos rfl⟩

omit [DecidableEq P] in
theorem Pledge.extend (pledge : Pledge stored node) (closed : node.currentTerm ∉ node.electing)
    {ctx : VoteBallotCtx P} (goesOn : Extends node.currentTerm node.voteCtx ctx) :
    Pledge stored { node with voteCtx := ctx } := by
  apply pledge.setVoteCtx
  · intro version armed
    rw [goesOn.version]
    rcases goesOn.armed with unarmed | same
    · rw [unarmed] at armed
      contradiction
    · rw [same] at armed
      exact pledge.armed version armed
  · exact goesOn.version.ge
  · exact fun waits => absurd waits closed

theorem Pledge.takeAnswer (pledge : Pledge stored node) {rpc : VoteRpc P}
    {response : RequestVoteResponse} (sent : rpc ∈ node.voteRpcs)
    (answers : Answers node rpc response) : Pledge stored (node.takeAnswer rpc response) := by
  have closed := pledge.closed_of_answer sent answers.term
  obtain ⟨ctx, tallied, ⟨_, leads⟩ | ⟨_, asked, retries⟩⟩ := takeAnswer_cases answers
  · rw [leads]
    exact (pledge.extend closed tallied.goesOn).becomeLeader
  · rw [retries]
    exact (pledge.extend closed tallied.goesOn).requestPeersToVote closed asked

theorem Pledge.step {action : Action P} (pledge : Pledge stored node)
    (allowed : Allowed action node) (stepCase : StepCase node action node') :
    Pledge (node'.persisted :: stored) node' := by
  cases stepCase with
  | effect effect => exact (pledge.effect effect).mono
  | vote position lastLogId stepStored writes waits before unvoted request previousTerm disrupted =>
      exact ((pledge.effect before).castVote unvoted request.serverId writes).reply _ _ _ _
  | resume position lastLogId stepStored writes waits waiting =>
      have resumed := pledge.resumeElectSelf waiting lastLogId writes waits rfl
      have persisted := resumeElectSelf_persisted
        { node with waiting := node.waiting.eraseIdx position } lastLogId writes waits
      cases writes with
      | false => exact resumed.mono
      | true =>
          rw [persisted]
          exact resumed
  | answer rpc response writes answers => exact (pledge.takeAnswer allowed answers).mono
  | timer position waits timedOut active =>
      have closed := pledge.closed_of_timer timedOut
      have dropped := pledge.of_samePolls (Keeps.drop_timeout node position).polls
      exact (dropped.grantSelf closed waits).mono

end ElectionNode

end QuorumKit
