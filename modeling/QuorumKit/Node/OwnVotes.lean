/-
The votes of a node for itself, in runs with restarts.

A restarted node has the term and the vote of its meta storage.  The own vote is
counted where `grant_self` finds it written, and with the vote of the last leader.  A
response also counts after the write of `elect_self` has failed, and a timer may go off
in a later term.
-/

import QuorumKit.Node.StoredVotes

namespace QuorumKit

namespace ElectionNode

variable {P : Type} [DecidableEq P] {configures : ConfigurationEntry P → Prop}
  {node node' : ElectionNode P} {stored : List (Nat × Option P)}

structure Loyal (stored : List (Nat × Option P)) (node : ElectionNode P) : Prop where
  counted : ∀ term, (node.serverId, term) ∈ node.voteCtx.votes → (term, some node.serverId) ∈ stored
  led : ∀ term ∈ node.ledTerms, (term, some node.serverId) ∈ stored

omit [DecidableEq P] in
theorem Loyal.mono (loyal : Loyal stored node) (value : Nat × Option P) :
    Loyal (value :: stored) node :=
  ⟨fun term member => List.mem_cons_of_mem _ (loyal.counted term member),
    fun term member => List.mem_cons_of_mem _ (loyal.led term member)⟩

omit [DecidableEq P] in
theorem Loyal.of_same (loyal : Loyal stored node)
    (same : (node'.serverId, node'.voteCtx.votes, node'.candidacies) =
      (node.serverId, node.voteCtx.votes, node.candidacies)) : Loyal stored node' := by
  simp only [Prod.mk.injEq] at same
  obtain ⟨serverId, votes, candidacies⟩ := same
  constructor
  · rw [serverId, votes]
    exact loyal.counted
  · unfold ledTerms
    rw [serverId, candidacies]
    exact loyal.led

omit [DecidableEq P] in
theorem Loyal.stepDown (loyal : Loyal stored node) (term : Nat) (writes : Bool) :
    Loyal stored (node.stepDown term writes) := by
  by_cases active : node.state.isActive = true
  · obtain ⟨preVoteCtx, same⟩ := stepDown_active active term writes
    rw [same]
    apply loyal.of_same
    unfold voteCtxAfter
    simp only
    split
    · rfl
    · rfl
  · rw [stepDown_inactive (Bool.eq_false_of_not_eq_true active)]
    exact loyal

theorem Loyal.electSelf (loyal : Loyal stored node) (oldLeaderSteppedDown : Bool) :
    Loyal stored (node.electSelf oldLeaderSteppedDown) := by
  unfold ElectionNode.electSelf
  split
  · exact loyal
  · refine ⟨?_, loyal.led⟩
    intro term member
    cases oldLeaderSteppedDown with
    | false => exact absurd member List.not_mem_nil
    | true => exact absurd member List.not_mem_nil

theorem Loyal.effect (effect : Effect configures node node') (loyal : Loyal stored node) :
    Loyal stored node' := by
  induction effect with
  | keep keeps =>
      have polled := keeps.polls.polled
      simp only [ElectionNode.polled, Prod.mk.injEq] at polled
      obtain ⟨serverId, _, _, _, ctx, _, _, candidacies⟩ := polled
      apply loyal.of_same
      rw [serverId, ctx, candidacies]
  | configure node may => exact loyal.of_same rfl
  | stepDown node term writes => exact loyal.stepDown term writes
  | electSelf node oldLeaderSteppedDown => exact loyal.electSelf oldLeaderSteppedDown
  | reply node request previousTerm rejectedByLease disrupted => exact loyal.of_same rfl
  | expireVote node armed => exact loyal.of_same rfl
  | trans _ _ first second => exact second (first loyal)

omit [DecidableEq P] in
theorem Loyal.becomeLeader (loyal : Loyal stored node)
    (own : (node.currentTerm, some node.serverId) ∈ stored) : Loyal stored node.becomeLeader := by
  refine ⟨loyal.counted, ?_⟩
  intro term member
  rcases List.mem_cons.mp member with new | former
  · rw [new]
    exact own
  · exact loyal.led term former

theorem Loyal.grant (loyal : Loyal stored node) (peer : P)
    (own : peer = node.serverId → (node.currentTerm, some node.serverId) ∈ stored) :
    Loyal stored { node with voteCtx := node.voteCtx.grant peer node.currentTerm } := by
  refine ⟨?_, loyal.led⟩
  intro term member
  rcases List.mem_cons.mp member with new | former
  · simp only [Prod.mk.injEq] at new
    rw [new.2]
    exact own new.1.symm
  · exact loyal.counted term former

theorem Loyal.grantSelf (loyal : Loyal stored node) {waits : Bool}
    (own : waits = false → (node.currentTerm, some node.serverId) ∈ stored) :
    Loyal stored (node.grantSelf .vote waits) := by
  unfold ElectionNode.grantSelf
  cases waits with
  | true => exact loyal.of_same rfl
  | false =>
      have counted := loyal.grant node.serverId (fun _ => own rfl)
      rw [if_neg Bool.false_ne_true]
      simp only
      split
      · exact counted
      · exact counted.becomeLeader (own rfl)

/-- A vote of another one is counted with the own one, or makes the node leader, while the
node's vote is its own; so does the timer of `grant_self`. -/
def CountsOwnVote (action : Action P) (node : ElectionNode P) : Prop :=
  match action with
  | .requestVoteResponse rpc response _ =>
      Answers node rpc response → response.granted = true →
        (some rpc.peerId = node.lastLeader ∨
          (node.voteCtx.grant rpc.peerId node.currentTerm).granted = true) →
        node.votedId = some node.serverId
  | .grantSelfTimedout position waits =>
      node.timedOut[position]? = some (.vote, node.voteCtx.version) →
        node.state.isActive = true → waits = false → node.votedId = some node.serverId
  | _ => True

theorem Loyal.tally (loyal : Loyal stored node) {term : Nat} (current : term = node.currentTerm) :
    ∀ peers : List P,
      (node.serverId ∈ peers → (node.currentTerm, some node.serverId) ∈ stored) →
        Loyal stored { node with voteCtx := node.voteCtx.tally term peers } := by
  intro peers
  induction peers using List.reverseRecOn with
  | nil => exact fun _ => loyal
  | append_singleton peers peer ih =>
      intro own
      have former := ih (fun member => own (List.mem_append_left _ member))
      have counted := former.grant peer
        (fun same => own (List.mem_append_right _ (List.mem_singleton.mpr same.symm)))
      unfold VoteBallotCtx.tally at counted ⊢
      rw [List.foldl_append]
      subst current
      exact counted

theorem own_of_answer (pledge : Pledge stored node) {rpc : VoteRpc P}
    {response : RequestVoteResponse} {writes : Bool} (sent : rpc ∈ node.voteRpcs)
    (counts : CountsOwnVote (.requestVoteResponse rpc response writes) node)
    (answers : Answers node rpc response) {ctx : VoteBallotCtx P}
    (tallied : Tallied node (node.broughtPeers rpc response) ctx)
    (needed : node.serverId ∈ node.broughtPeers rpc response ∨ Wins response ctx) :
    (node.currentTerm, some node.serverId) ∈ stored := by
  refine pledge.own_stored ?_ (pledge.closed_of_answer sent answers.term)
  have foreign := (pledge.sent rpc sent).1
  have ballot := tallied.ballot
  unfold broughtPeers at needed ballot
  by_cases granted : response.granted = true
  · apply counts answers granted
    by_cases last : some rpc.peerId = node.lastLeader
    · exact Or.inl last
    · rw [if_pos granted, if_neg last] at needed ballot
      rcases needed with member | wins
      · exact absurd (List.mem_singleton.mp member).symm foreign
      · refine Or.inr ?_
        have completes := wins.2
        unfold VoteBallotCtx.granted at completes ⊢
        rw [ballot] at completes
        exact completes
  · rw [if_neg granted] at needed
    rcases needed with member | wins
    · exact absurd member List.not_mem_nil
    · exact absurd wins.1 granted

theorem Loyal.takeAnswer (loyal : Loyal stored node) (pledge : Pledge stored node) {rpc : VoteRpc P}
    {response : RequestVoteResponse} {writes : Bool} (sent : rpc ∈ node.voteRpcs)
    (counts : CountsOwnVote (.requestVoteResponse rpc response writes) node)
    (answers : Answers node rpc response) : Loyal stored (node.takeAnswer rpc response) := by
  obtain ⟨ctx, tallied, outcome⟩ := takeAnswer_cases answers
  have own := own_of_answer pledge sent counts answers tallied
  have counted : Loyal stored { node with voteCtx := ctx } := by
    have summed := loyal.tally rfl (node.broughtPeers rpc response)
      (fun member => own (Or.inl member))
    apply summed.of_same
    rw [← tallied.votes]
  rcases outcome with ⟨wins, leads⟩ | ⟨_, asked, retries⟩
  · rw [leads]
    exact counted.becomeLeader (own (Or.inr wins))
  · rw [retries]
    exact counted.of_same rfl

theorem Loyal.resumeElectSelf (loyal : Loyal stored node) (lastLogId : LogId)
    (writes waits : Bool) :
    Loyal ((node.resumeElectSelf node.currentTerm lastLogId writes waits).persisted :: stored)
      (node.resumeElectSelf node.currentTerm lastLogId writes waits) := by
  rw [resumeElectSelf_persisted]
  unfold ElectionNode.resumeElectSelf
  rw [if_neg (not_not.mpr rfl)]
  cases writes with
  | false => exact (loyal.mono _).of_same rfl
  | true =>
      have written := loyal.mono (node.currentTerm, some node.serverId)
      have asked : Loyal ((node.currentTerm, some node.serverId) :: stored)
          (({ node with
            voteCtx := node.voteCtx.setLastLogId lastLogId }.requestPeersToVote
              node.conf.listPeers).setTermAndVotedfor true node.currentTerm (some node.serverId)) :=
        written.of_same rfl
      exact asked.grantSelf (fun _ => List.mem_cons_self)

theorem Loyal.step {action : Action P} (loyal : Loyal stored node) (pledge : Pledge stored node)
    (allowed : Allowed action node) (counts : CountsOwnVote action node)
    (stepCase : StepCase node action node') : Loyal (node'.persisted :: stored) node' := by
  cases stepCase with
  | effect effect => exact (loyal.effect effect).mono _
  | vote position lastLogId stepStored writes waits before unvoted request previousTerm disrupted =>
      apply ((loyal.effect before).mono _).of_same
      unfold reply castVote setTermAndVotedfor
      cases writes with
      | false => rfl
      | true => rfl
  | resume position lastLogId stepStored writes waits waiting =>
      have relocked : Loyal stored { node with waiting := node.waiting.eraseIdx position } :=
        loyal.of_same rfl
      exact relocked.resumeElectSelf lastLogId writes waits
  | answer rpc response writes answers =>
      exact (loyal.takeAnswer pledge allowed counts answers).mono _
  | timer position waits timedOut active =>
      have dropped : Loyal stored { node with timedOut := node.timedOut.eraseIdx position } :=
        loyal.of_same rfl
      have own (votes : waits = false) : (node.currentTerm, some node.serverId) ∈ stored :=
        pledge.own_stored (counts timedOut active votes) (pledge.closed_of_timer timedOut)
      exact (dropped.grantSelf own).mono _

/-- `init_meta_storage` with the term of the last log entry; a write that fails ends it. -/
def initMetaStorage (node : ElectionNode P) (lastLogTerm : Nat) (stored : Bool) :
    Option (ElectionNode P) :=
  let loaded := { node with currentTerm := node.persisted.1, votedId := node.persisted.2 }
  if loaded.currentTerm < lastLogTerm then
    if stored then
      some ({ loaded with currentTerm := lastLogTerm + 1, votedId := none }.setTermAndVotedfor true
        (lastLogTerm + 1) none)
    else none
  else some loaded

/-- `init` up to the point where the others can call the node. -/
def init (serverId : P) (persisted : Nat × Option P) (conf : ConfigurationEntry P)
    (lastLogTerm : Nat) (stored : Bool) : Option (ElectionNode P) :=
  ({ serverId := serverId, currentTerm := 0, conf := conf, persisted := persisted } :
    ElectionNode P).initMetaStorage lastLogTerm stored |>.map (fun node =>
      if conf.conf.isEmpty then node else node.stepDown node.currentTerm stored)

structure Started (serverId : P) (persisted : Nat × Option P) (conf : ConfigurationEntry P)
    (node : ElectionNode P) : Prop where
  serverId : node.serverId = serverId
  conf : node.conf = conf
  loaded : node.persisted = (node.currentTerm, node.votedId)
  storage : node.persisted = persisted ∨ persisted.1 < node.persisted.1 ∧ node.persisted.2 = none
  state : node.state = .follower
  voteCtx : node.voteCtx = {}
  idle : node.waiting = [] ∧ node.timedOut = [] ∧ node.voteRpcs = []
  young : node.replies = [] ∧ node.candidacies = []

omit [DecidableEq P] in
theorem Started.stepDown {serverId : P} {persisted : Nat × Option P} {conf : ConfigurationEntry P}
    (started : Started serverId persisted conf node) (writes : Bool) :
    Started serverId persisted conf (node.stepDown node.currentTerm writes) := by
  obtain ⟨preVoteCtx, same⟩ :=
    stepDown_active (by rw [started.state]; rfl) node.currentTerm writes
  have current : ¬ node.currentTerm < node.currentTerm := lt_irrefl _
  have unreset : node.voteCtxAfter = node.voteCtx := by
    unfold voteCtxAfter
    rw [started.state, if_neg State.noConfusion]
  rw [same, unreset, max_self, if_neg current, if_neg (fun both => current both.1)]
  exact ⟨started.serverId, started.conf, started.loaded, started.storage, rfl, started.voteCtx,
    started.idle, started.young⟩

omit [DecidableEq P] in
theorem init_started {serverId : P} {persisted : Nat × Option P} {conf : ConfigurationEntry P}
    {lastLogTerm : Nat} {writes : Bool}
    (starts : init serverId persisted conf lastLogTerm writes = some node) :
    Started serverId persisted conf node := by
  obtain ⟨loaded, loads, isNode⟩ := Option.map_eq_some_iff.mp starts
  have started : Started serverId persisted conf loaded := by
    unfold initMetaStorage at loads
    simp only at loads
    by_cases old : persisted.1 < lastLogTerm
    · rw [if_pos old] at loads
      cases writes with
      | false => contradiction
      | true =>
          rw [← Option.some.inj loads]
          exact ⟨rfl, rfl, rfl, Or.inr ⟨Nat.lt_succ_of_lt old, rfl⟩, rfl, rfl, ⟨rfl, rfl, rfl⟩,
            ⟨rfl, rfl⟩⟩
    · rw [if_neg old] at loads
      rw [← Option.some.inj loads]
      exact ⟨rfl, rfl, rfl, Or.inl rfl, rfl, rfl, ⟨rfl, rfl, rfl⟩, ⟨rfl, rfl⟩⟩
  rw [← isNode]
  split
  · exact started
  · exact started.stepDown writes

omit [DecidableEq P] in
theorem Started.pledge {serverId : P} {persisted : Nat × Option P} {conf : ConfigurationEntry P}
    (started : Started serverId persisted conf node)
    (history : ∀ term peer, (term, some peer) ∈ stored →
      term < persisted.1 ∨ persisted = (term, some peer))
    (unique : ∀ term peer other, (term, some peer) ∈ stored → (term, some other) ∈ stored →
      peer = other) : Pledge (node.persisted :: stored) node := by
  have idle := started.idle
  have electing : node.electing = [] := by
    unfold ElectionNode.electing
    rw [idle.1]
    rfl
  have timeouts : node.voteTimeouts = [] := by
    unfold ElectionNode.voteTimeouts
    rw [idle.2.1]
    rfl
  have past {term : Nat} {peer : P} (member : (term, some peer) ∈ stored) :
      term < node.persisted.1 ∨ node.persisted = (term, some peer) := by
    rcases started.storage with same | ⟨raised, _⟩
    · rw [same]
      exact history term peer member
    · refine Or.inl ?_
      rcases history term peer member with former | same
      · exact former.trans raised
      · rw [same] at raised
        exact raised
  have settled {term : Nat} {peer other : P} (held : node.persisted = (term, some peer))
      (member : (term, some other) ∈ stored) : peer = other := by
    rcases past member with former | same
    · rw [held] at former
      exact absurd former (lt_irrefl _)
    · rw [held] at same
      simp only [Prod.mk.injEq, Option.some_inj] at same
      exact same.2
  constructor
  · rw [started.loaded]
  · intro _
    rw [started.loaded]
  · exact fun _ => Or.inl started.loaded
  · rw [electing]
    exact fun waits => absurd waits List.not_mem_nil
  · rw [electing]
    exact fun term member => absurd member List.not_mem_nil
  · rw [electing]
    exact List.nodup_nil
  · rw [idle.2.2]
    exact fun rpc member => absurd member List.not_mem_nil
  · rw [started.voteCtx]
    intro version armed
    contradiction
  · rw [timeouts]
    exact fun version member => absurd member List.not_mem_nil
  · intro term peer member
    rcases List.mem_cons.mp member with new | former
    · exact Or.inr new.symm
    · exact past former
  · intro term peer other left right
    rcases List.mem_cons.mp left with newLeft | oldLeft
    · rcases List.mem_cons.mp right with newRight | oldRight
      · rw [← newLeft] at newRight
        simp only [Prod.mk.injEq, Option.some_inj] at newRight
        exact newRight.2.symm
      · exact settled newLeft.symm oldRight
    · rcases List.mem_cons.mp right with newRight | oldRight
      · exact (settled newRight.symm oldLeft).symm
      · exact unique term peer other oldLeft oldRight
  · exact fun peer isPeer => List.mem_cons_self
  · unfold grantedVotes
    rw [started.young.1]
    exact fun vote member => absurd member List.not_mem_nil

omit [DecidableEq P] in
theorem Started.loyal {serverId : P} {persisted : Nat × Option P} {conf : ConfigurationEntry P}
    (started : Started serverId persisted conf node) : Loyal stored node := by
  constructor
  · rw [started.voteCtx]
    exact fun term member => absurd member List.not_mem_nil
  · unfold ledTerms
    rw [started.young.2]
    exact fun term member => absurd member List.not_mem_nil

end ElectionNode

structure LivedNode (P : Type) where
  node : ElectionNode P
  stored : List (Nat × Option P)
  past : List (ElectionNode P) := []

namespace LivedNode

variable {P : Type} [DecidableEq P]

inductive Action (P : Type) where
  | call (action : ElectionNode.Action P)
  | restart (conf : ConfigurationEntry P) (lastLogTerm : Nat) (stored : Bool)

def step : Action P → LivedNode P → Option (LivedNode P)
  | .call action, run =>
      (ElectionNode.step action run.node).map (fun node =>
        { run with node := node, stored := node.persisted :: run.stored })
  | .restart conf lastLogTerm stored, run =>
      (ElectionNode.init run.node.serverId run.node.persisted conf lastLogTerm stored).map
        (fun node =>
          { node := node
            stored := node.persisted :: run.stored
            past := run.node :: run.past })

def Allowed : Action P → LivedNode P → Prop
  | .call action, run => ElectionNode.Allowed action run.node
  | .restart _ _ _, _ => True

def Initial (run : LivedNode P) : Prop :=
  run.past = [] ∧ run.stored = [run.node.persisted] ∧
    ∃ serverId persisted conf lastLogTerm stored,
      ElectionNode.init serverId persisted conf lastLogTerm stored = some run.node

variable (P) in
def system : TransitionSystem (LivedNode P) (Action P) where
  init := Initial
  allowed := Allowed
  step := step

def ledTerms (run : LivedNode P) : List Nat :=
  (run.node :: run.past).flatMap ElectionNode.ledTerms

def grantedVotes (run : LivedNode P) : List (Nat × P) :=
  (run.node :: run.past).flatMap ElectionNode.grantedVotes

def CountsOwnVote (action : Action P) (run : LivedNode P) : Prop :=
  match action with
  | .call action => ElectionNode.CountsOwnVote action run.node
  | .restart _ _ _ => True

structure Sworn (run : LivedNode P) : Prop where
  pledge : run.node.Pledge run.stored
  past : ∀ vote ∈ run.past.flatMap ElectionNode.grantedVotes, vote.2 ≠ run.node.serverId →
    (vote.1, some vote.2) ∈ run.stored

structure Devoted (run : LivedNode P) : Prop where
  loyal : run.node.Loyal run.stored
  past : ∀ term ∈ run.past.flatMap ElectionNode.ledTerms,
    (term, some run.node.serverId) ∈ run.stored

variable {run after : LivedNode P}

omit [DecidableEq P] in
theorem Initial.sworn (initial : Initial run) : Sworn run := by
  obtain ⟨past, stored, serverId, persisted, conf, lastLogTerm, writes, starts⟩ := initial
  constructor
  · rw [stored]
    apply (ElectionNode.init_started starts).pledge
    · exact fun term peer member => absurd member List.not_mem_nil
    · exact fun term peer other left right => absurd left List.not_mem_nil
  · rw [past]
    exact fun vote member => absurd member List.not_mem_nil

omit [DecidableEq P] in
theorem Initial.devoted (initial : Initial run) : Devoted run := by
  obtain ⟨past, _, serverId, persisted, conf, lastLogTerm, writes, starts⟩ := initial
  constructor
  · exact (ElectionNode.init_started starts).loyal
  · rw [past]
    exact fun term member => absurd member List.not_mem_nil

theorem Sworn.step (sworn : Sworn run) {action : Action P} (allowed : Allowed action run)
    (stepped : step action run = some after) : Sworn after := by
  cases action with
  | call action =>
      obtain ⟨node, calls, isAfter⟩ := Option.map_eq_some_iff.mp stepped
      have stepCase := ElectionNode.step_cases calls
      subst isAfter
      refine ⟨sworn.pledge.step allowed stepCase, ?_⟩
      rw [stepCase.serverId]
      exact fun vote member other => List.mem_cons_of_mem _ (sworn.past vote member other)
  | restart conf lastLogTerm writes =>
      obtain ⟨node, starts, isAfter⟩ := Option.map_eq_some_iff.mp stepped
      have started := ElectionNode.init_started starts
      subst isAfter
      refine ⟨started.pledge sworn.pledge.history sworn.pledge.unique, ?_⟩
      rw [started.serverId]
      intro vote member other
      rw [List.flatMap_cons] at member
      apply List.mem_cons_of_mem
      rcases List.mem_append.mp member with last | former
      · exact sworn.pledge.granted vote last other
      · exact sworn.past vote former other

theorem Devoted.step (devoted : Devoted run) (sworn : Sworn run) {action : Action P}
    (allowed : Allowed action run) (counts : CountsOwnVote action run)
    (stepped : step action run = some after) : Devoted after := by
  cases action with
  | call action =>
      obtain ⟨node, calls, isAfter⟩ := Option.map_eq_some_iff.mp stepped
      have stepCase := ElectionNode.step_cases calls
      subst isAfter
      refine ⟨devoted.loyal.step sworn.pledge allowed counts stepCase, ?_⟩
      rw [stepCase.serverId]
      exact fun term member => List.mem_cons_of_mem _ (devoted.past term member)
  | restart conf lastLogTerm writes =>
      obtain ⟨node, starts, isAfter⟩ := Option.map_eq_some_iff.mp stepped
      have started := ElectionNode.init_started starts
      subst isAfter
      refine ⟨started.loyal, ?_⟩
      rw [started.serverId]
      intro term member
      rw [List.flatMap_cons] at member
      apply List.mem_cons_of_mem
      rcases List.mem_append.mp member with last | former
      · exact devoted.loyal.led term last
      · exact devoted.past term former

theorem sworn_of_reachable (reached : (system P).Reachable run) : Sworn run := by
  apply reached.invariant Sworn
  · exact fun _ initial => initial.sworn
  · exact fun _ _ _ sworn allowed stepped => sworn.step allowed stepped

/-- In every run, whatever writes fail, a vote for another candidate was stored before it was
answered with, and the storage never held votes for two peers in one term. -/
theorem granted_stored (reached : (system P).Reachable run) :
    (∀ vote ∈ run.grantedVotes, vote.2 ≠ run.node.serverId → (vote.1, some vote.2) ∈ run.stored) ∧
      ∀ term peer other, (term, some peer) ∈ run.stored → (term, some other) ∈ run.stored →
        peer = other := by
  have sworn := sworn_of_reachable reached
  refine ⟨?_, sworn.pledge.unique⟩
  intro vote member other
  unfold grantedVotes at member
  rw [List.flatMap_cons] at member
  rcases List.mem_append.mp member with last | former
  · exact sworn.pledge.granted vote last other
  · exact sworn.past vote former other

theorem devoted_of_reachable (reached : ((system P).restrict CountsOwnVote).Reachable run) :
    Devoted run := by
  have both : Sworn run ∧ Devoted run := by
    apply reached.invariant (fun run => Sworn run ∧ Devoted run)
    · exact fun _ initial => ⟨Initial.sworn initial, Initial.devoted initial⟩
    · intro action before after both allowed stepped
      exact ⟨both.1.step allowed.1 stepped, both.2.step both.1 allowed.1 allowed.2 stepped⟩
  exact both.2

/-- Where own votes count only while they are the node's vote, each of them was stored, and the
node never votes for another candidate in a term that it has led. -/
theorem own_vote_stored (reached : ((system P).restrict CountsOwnVote).Reachable run) :
    (∀ term, (run.node.serverId, term) ∈ run.node.voteCtx.votes →
      (term, some run.node.serverId) ∈ run.stored) ∧
      ∀ term ∈ run.ledTerms, ∀ vote ∈ run.grantedVotes, vote.1 = term →
        vote.2 = run.node.serverId := by
  have devoted := devoted_of_reachable reached
  have granted := granted_stored reached.of_restrict
  refine ⟨devoted.loyal.counted, ?_⟩
  intro term led vote member current
  by_contra other
  have isStored := granted.1 vote member other
  have own : (term, some run.node.serverId) ∈ run.stored := by
    unfold ledTerms at led
    rw [List.flatMap_cons] at led
    rcases List.mem_append.mp led with last | former
    · exact devoted.loyal.led term last
    · exact devoted.past term former
  rw [current] at isStored
  exact other (granted.2 term _ _ isStored own)

theorem takeAnswer_persisted {node : ElectionNode P} {rpc : VoteRpc P}
    {response : RequestVoteResponse} (answers : node.Answers rpc response) :
    (node.takeAnswer rpc response).persisted = node.persisted := by
  obtain ⟨ctx, _, ⟨_, leads⟩ | ⟨_, asked, retries⟩⟩ := ElectionNode.takeAnswer_cases answers
  · rw [leads]
    rfl
  · rw [retries]
    rfl

/-- An answer of the last leader counts the own vote, and one that completes the ballot makes
the node leader. -/
theorem takeAnswer_counts {node : ElectionNode P} {rpc : VoteRpc P}
    {response : RequestVoteResponse} (answers : node.Answers rpc response)
    (granted : response.granted = true)
    (needed : some rpc.peerId = node.lastLeader ∨
      (node.voteCtx.grant rpc.peerId node.currentTerm).granted = true) :
    (node.serverId, node.currentTerm) ∈ (node.takeAnswer rpc response).voteCtx.votes ∨
      node.currentTerm ∈ (node.takeAnswer rpc response).ledTerms := by
  obtain ⟨ctx, tallied, outcome⟩ := ElectionNode.takeAnswer_cases answers
  have votes := tallied.votes
  have ballot := tallied.ballot
  unfold ElectionNode.broughtPeers at votes ballot
  rw [if_pos granted] at votes ballot
  by_cases last : some rpc.peerId = node.lastLeader
  · rw [if_pos last] at votes
    have own : (node.serverId, node.currentTerm) ∈ ctx.votes := by
      rw [votes]
      exact List.mem_cons_self
    rcases outcome with ⟨_, leads⟩ | ⟨_, asked, retries⟩
    · rw [leads]
      exact Or.inl own
    · rw [retries]
      exact Or.inl own
  · rw [if_neg last] at ballot
    have completes := needed.resolve_left last
    have wins : ElectionNode.Wins response ctx := by
      refine ⟨granted, ?_⟩
      unfold VoteBallotCtx.granted at completes ⊢
      rw [ballot]
      exact completes
    rcases outcome with ⟨_, leads⟩ | ⟨loses, _⟩
    · rw [leads]
      exact Or.inr List.mem_cons_self
    · exact absurd wins loses

theorem grantSelf_counts (node : ElectionNode P) :
    (node.serverId, node.currentTerm) ∈ (node.grantSelf .vote false).voteCtx.votes := by
  unfold ElectionNode.grantSelf
  rw [if_neg Bool.false_ne_true]
  simp only
  split
  · exact List.mem_cons_self
  · exact List.mem_cons_self

/-- Any step against the condition counts a vote of the node for itself, or makes it leader,
in a term for which its vote has never been stored. -/
theorem miscount_unstored (reached : (system P).Reachable run) {action : ElectionNode.Action P}
    (against : ¬ ElectionNode.CountsOwnVote action run.node) :
    ∃ after, step (.call action) run = some after ∧
      (run.node.currentTerm, some run.node.serverId) ∉ after.stored ∧
      ((run.node.serverId, run.node.currentTerm) ∈ after.node.voteCtx.votes ∨
        run.node.currentTerm ∈ after.node.ledTerms) := by
  have pledge := (sworn_of_reachable reached).pledge
  cases action with
  | requestVoteResponse rpc response writes =>
      simp only [ElectionNode.CountsOwnVote, Classical.not_imp] at against
      obtain ⟨answers, granted, needed, other⟩ := against
      have takes := ElectionNode.handleRequestVoteResponse_answers answers writes
      refine ⟨_, rfl, ?_, ?_⟩
      · simp only
        rw [takes, takeAnswer_persisted answers]
        exact pledge.mono.unvoted_unstored other
      · simp only
        rw [takes]
        exact takeAnswer_counts answers granted needed
  | grantSelfTimedout position waits =>
      simp only [ElectionNode.CountsOwnVote, Classical.not_imp] at against
      obtain ⟨timedOut, active, votes, other⟩ := against
      subst votes
      have goesOff : ElectionNode.step (.grantSelfTimedout position false) run.node =
          some ({ run.node with
            timedOut := run.node.timedOut.eraseIdx position }.grantSelf .vote false) := by
        change run.node.handleGrantSelfTimedout position false = _
        unfold ElectionNode.handleGrantSelfTimedout
        rw [timedOut, Option.map_some]
        simp only
        rw [if_neg]
        rw [not_or, not_not, not_not]
        exact ⟨active, rfl⟩
      refine ⟨_, by rw [step, goesOff, Option.map_some], ?_, Or.inl ?_⟩
      · simp only
        rw [ElectionNode.grantSelf_persisted]
        exact pledge.mono.unvoted_unstored other
      · exact grantSelf_counts { run.node with timedOut := run.node.timedOut.eraseIdx position }
  | _ => exact absurd trivial against

def groupOfThree : ConfigurationEntry Nat :=
  { conf := Configuration.ofList [1, 2, 3], oldConf := Configuration.empty }

def firstLife : LivedNode Nat :=
  { node :=
      { serverId := 1
        currentTerm := 1
        conf := groupOfThree
        persisted := (1, none)
        preVoteCtx := { version := 1 } }
    stored := [(1, none)] }

theorem firstLife_initial : Initial firstLife :=
  ⟨rfl, rfl, 1, (1, none), groupOfThree, 0, true, rfl⟩

def requestToSecond : VoteRpc Nat :=
  { peerId := 2
    term := 2
    ctxVersion := 1
    request := { serverId := 1, term := 2, lastLogId := {} } }

/-- Server 2 leads, tells server 1 to elect itself and votes for it.  The flag says whether
the vote of server 1 for itself is written. -/
def electedBy (written : Bool) : List (Action Nat) :=
  [.call .start, .call (.leaderRequest 1 2 true true), .call (.timeoutNowRequest 1 false true),
    .call (.resume 0 {} true written false),
    .call (.requestVoteResponse requestToSecond { term := 2, granted := true } true)]

def secondVote : List (Action Nat) :=
  [.call (.requestVoteRequest { serverId := 3, term := 2, lastLogId := {} }),
    .call (.resume 0 {} true true false)]

/-- The write of `elect_self` fails.  The node counts its own vote, leads term 2 and votes for
server 3 in term 2. -/
theorem unwritten_vote_counted :
    ∃ run : LivedNode Nat, (system Nat).Reachable run ∧ run.node.serverId = 1 ∧
      (1, 2) ∈ run.node.voteCtx.votes ∧ (2, some 1) ∉ run.stored ∧
      2 ∈ run.ledTerms ∧ (2, 3) ∈ run.grantedVotes := by
  refine ⟨_, TransitionSystem.Reachable.follows (electedBy false ++ secondVote)
    (.start firstLife_initial)
    ⟨trivial, _, rfl, trivial, _, rfl, trivial, _, rfl, trivial, _, rfl,
      List.mem_cons_self, _, rfl, trivial, _, rfl, trivial, _, rfl, rfl⟩, rfl, ?_⟩
  decide

/-- The vote of server 1 is written, and it leads term 2 with the vote of server 2. -/
theorem own_vote_stored_elected :
    ∃ run : LivedNode Nat, 2 ∈ run.ledTerms ∧ (2, some 1) ∈ run.stored ∧
      ∀ term ∈ run.ledTerms, ∀ vote ∈ run.grantedVotes, vote.1 = term →
        vote.2 = run.node.serverId := by
  have start : ((system Nat).restrict CountsOwnVote).Reachable firstLife :=
    .start firstLife_initial
  have reached := start.follows (electedBy true)
    ⟨⟨trivial, trivial⟩, _, rfl, ⟨trivial, trivial⟩, _, rfl, ⟨trivial, trivial⟩, _, rfl,
      ⟨trivial, trivial⟩, _, rfl, ⟨List.mem_cons_self, fun _ _ _ => rfl⟩, _, rfl, rfl⟩
  exact ⟨_, by decide, by decide, (own_vote_stored reached).2⟩

end LivedNode

end QuorumKit
