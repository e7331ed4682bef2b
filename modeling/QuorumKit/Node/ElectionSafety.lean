/-
Elections of several nodes in a fixed group.

Any number of nodes run side by side.  A request for a vote may come at any time and
from anywhere, and an answer is one that its sender has given in some life, to any
request like it.  So messages are lost, repeated, delayed and reordered.  The nodes
crash and restart with their meta storages.
-/

import QuorumKit.Node.Campaign
import QuorumKit.Node.OwnVotes

namespace QuorumKit

structure Cluster (P : Type) where
  lived : P → LivedNode P

namespace Cluster

variable {P : Type} [DecidableEq P]

structure Move (P : Type) where
  server : P
  action : LivedNode.Action P

def step (move : Move P) (cluster : Cluster P) : Option (Cluster P) :=
  (LivedNode.step move.action (cluster.lived move.server)).map (fun run =>
    { lived := Function.update cluster.lived move.server run })

def Answered (cluster : Cluster P) (server : P) (request : RequestVoteRequest P)
    (response : RequestVoteResponse) : Prop :=
  ∃ life ∈ (cluster.lived server).node :: (cluster.lived server).past,
    (request, response) ∈ life.replies

/-- The members stay as they are, the votes of resumed calls are written, and answers come from
the peers that were asked. -/
def Allowed (entry : ConfigurationEntry P) (move : Move P) (cluster : Cluster P) : Prop :=
  LivedNode.Allowed move.action (cluster.lived move.server) ∧
    match move.action with
    | .restart conf _ _ => conf.SameMembers entry
    | .call action =>
        ElectionNode.Writes action ∧
          (∀ conf, ElectionNode.Configures action conf → conf.SameMembers entry) ∧
          match action with
          | .requestVoteResponse rpc response _ => cluster.Answered rpc.peerId rpc.request response
          | _ => True

structure Initial (entry : ConfigurationEntry P) (cluster : Cluster P) : Prop where
  started : ∀ server, LivedNode.Initial (cluster.lived server)
  named : ∀ server, (cluster.lived server).node.serverId = server
  members : ∀ server, (cluster.lived server).node.conf.SameMembers entry

def system (entry : ConfigurationEntry P) : TransitionSystem (Cluster P) (Move P) where
  init := Initial entry
  allowed := Allowed entry
  step := step

def Voted (cluster : Cluster P) (candidate voter : P) (term : Nat) : Prop :=
  (term, some candidate) ∈ (cluster.lived voter).stored

structure Orderly (entry : ConfigurationEntry P) (cluster : Cluster P) (server : P) : Prop where
  named : (cluster.lived server).node.serverId = server
  sworn : (cluster.lived server).Sworn
  campaign : (cluster.lived server).node.Campaign entry (cluster.Voted server)
  honest : ∀ life ∈ (cluster.lived server).past, ∀ reply ∈ life.replies,
    reply.2.granted = true → reply.2.term = reply.1.term
  elected : ∀ term ∈ (cluster.lived server).ledTerms,
    ElectionNode.Elected entry (cluster.Voted server) server term

end Cluster

namespace ElectionNode

variable {P : Type} [DecidableEq P] {node : ElectionNode P}

theorem Started.campaign {serverId : P} {persisted : Nat × Option P} {conf : ConfigurationEntry P}
    (started : Started serverId persisted conf node) {entry : ConfigurationEntry P}
    (members : conf.SameMembers entry) (voted : P → Nat → Prop) : Campaign entry voted node := by
  have idle := started.idle
  have electing : node.electing = [] := by
    unfold ElectionNode.electing
    rw [idle.1]
    rfl
  have follower : node.state ≠ .candidate := by
    rw [started.state]
    exact State.noConfusion
  have unarmed : ¬ Armed node := by
    unfold Armed
    rw [started.voteCtx, idle.2.1]
    intro armed
    rcases armed with waits | member
    · exact waits rfl
    · exact absurd member List.not_mem_nil
  have unstarted : ¬ node.voteCtx.startTerm ≠ 0 := by
    rw [started.voteCtx]
    exact fun other => other rfl
  have votes : node.voteCtx.votes = [] := by
    rw [started.voteCtx]
  constructor
  · rw [started.conf]
    exact members
  · exact fun isCandidate => absurd isCandidate follower
  · intro busy
    rcases busy with isCandidate | waits | armed
    · exact absurd isCandidate follower
    · exact absurd electing waits
    · exact absurd armed unarmed
  · exact fun begun => absurd begun unstarted
  · exact fun begun => absurd begun unstarted
  · rw [votes]
    exact fun vote member => absurd member List.not_mem_nil
  · exact fun isCandidate => absurd isCandidate follower
  · exact fun _ => votes
  · exact fun _ _ armed => absurd armed unarmed
  · rw [idle.2.2]
    exact fun rpc member => absurd member List.not_mem_nil
  · rw [started.young.1]
    exact fun reply member => absurd member List.not_mem_nil
  · unfold ledTerms
    rw [started.young.2]
    exact fun term member => absurd member List.not_mem_nil

end ElectionNode

namespace Cluster

variable {P : Type} [DecidableEq P] {entry : ConfigurationEntry P} {cluster after : Cluster P}

theorem Initial.orderly (initial : Initial entry cluster) (server : P) :
    Orderly entry cluster server := by
  have sworn := (initial.started server).sworn
  obtain ⟨past, _, serverId, persisted, conf, lastLogTerm, writes, starts⟩ :=
    initial.started server
  have started := ElectionNode.init_started starts
  have members := initial.members server
  rw [started.conf] at members
  have campaign := started.campaign members (cluster.Voted server)
  refine ⟨initial.named server, sworn, campaign, ?_, ?_⟩
  · rw [past]
    exact fun life member => absurd member List.not_mem_nil
  · unfold LivedNode.ledTerms
    rw [past]
    intro term member
    rw [List.flatMap_cons, List.flatMap_nil, List.append_nil] at member
    have elected := campaign.elected term member
    rw [initial.named server] at elected
    exact elected

theorem Orderly.heard {server peer : P} (orderly : Orderly entry cluster peer)
    {request : RequestVoteRequest P} {response : RequestVoteResponse}
    (answered : cluster.Answered peer request response) (granted : response.granted = true)
    (sender : request.serverId = server) (other : server ≠ peer) :
    cluster.Voted server peer request.term := by
  obtain ⟨life, member, replied⟩ := answered
  have honest : response.term = request.term := by
    rcases List.mem_cons.mp member with current | past
    · rw [current] at replied
      exact orderly.campaign.honest _ replied granted
    · exact orderly.honest life past _ replied granted
  have votes : (request.term, server) ∈ life.grantedVotes := by
    refine List.mem_map.mpr ⟨(request, response), List.mem_filter.mpr ⟨replied, granted⟩, ?_⟩
    rw [honest, sender]
  have foreign : server ≠ (cluster.lived peer).node.serverId := by
    rw [orderly.named]
    exact other
  rcases List.mem_cons.mp member with current | past
  · rw [current] at votes
    exact orderly.sworn.pledge.granted _ votes foreign
  · exact orderly.sworn.past _ (List.mem_flatMap.mpr ⟨life, past, votes⟩) foreign

theorem elected_mono {voted voted' : P → Nat → Prop} {server : P} {term : Nat}
    (elected : ElectionNode.Elected entry voted server term)
    (more : ∀ voter term, voted voter term → voted' voter term) :
    ElectionNode.Elected entry voted' server term := by
  obtain ⟨contained, alone | ⟨voters, elects, votes⟩⟩ := elected
  · exact ⟨contained, Or.inl alone⟩
  · exact ⟨contained, Or.inr ⟨voters, elects, fun voter isVoter => more _ _ (votes voter isVoter)⟩⟩

theorem step_stored {action : LivedNode.Action P} {run next : LivedNode P}
    (stepped : LivedNode.step action run = some next) :
    next.stored = next.node.persisted :: run.stored := by
  cases action with
  | call action =>
      obtain ⟨node, _, isNext⟩ := Option.map_eq_some_iff.mp stepped
      rw [← isNext]
  | restart conf lastLogTerm writes =>
      obtain ⟨node, _, isNext⟩ := Option.map_eq_some_iff.mp stepped
      rw [← isNext]

theorem Orderly.of_lived {server : P} (orderly : Orderly entry cluster server)
    (same : after.lived server = cluster.lived server)
    (more : ∀ voter term, cluster.Voted server voter term → after.Voted server voter term) :
    Orderly entry after server := by
  constructor
  · rw [same]
    exact orderly.named
  · rw [same]
    exact orderly.sworn
  · rw [same]
    exact orderly.campaign.mono more
  · rw [same]
    exact orderly.honest
  · rw [same]
    exact fun term member => elected_mono (orderly.elected term member) more

theorem Orderly.acts {move : Move P} (orderly : ∀ server, Orderly entry cluster server)
    (allowed : Allowed entry move cluster) {run : LivedNode P}
    (stepped : LivedNode.step move.action (cluster.lived move.server) = some run)
    (same : after.lived move.server = run)
    (more : ∀ voter term, cluster.Voted move.server voter term →
      after.Voted move.server voter term) :
    Orderly entry after move.server := by
  obtain ⟨server, action⟩ := move
  simp only at allowed stepped same more ⊢
  have former := orderly server
  have pledge := former.sworn.pledge
  have sworn := former.sworn.step allowed.1 stepped
  have stored := step_stored stepped
  have elected {led : List Nat} (isLed : ∀ term ∈ led,
      ElectionNode.Elected entry (after.Voted server) server term)
      (term : Nat) (member : term ∈ led ++ (cluster.lived server).past.flatMap
        ElectionNode.ledTerms) :
      ElectionNode.Elected entry (after.Voted server) server term := by
    rcases List.mem_append.mp member with new | past
    · exact isLed term new
    · apply elected_mono _ more
      apply former.elected
      unfold LivedNode.ledTerms
      rw [List.flatMap_cons]
      exact List.mem_append_right _ past
  cases action with
  | call action =>
      obtain ⟨node, calls, isRun⟩ := Option.map_eq_some_iff.mp stepped
      have stepCase := ElectionNode.step_cases calls
      have named : node.serverId = server := stepCase.serverId.trans former.named
      have heard : ElectionNode.Heard (after.Voted server) (cluster.lived server).node action := by
        cases action with
        | requestVoteResponse rpc response writes =>
            intro answers granted
            obtain ⟨sender, term⟩ := former.campaign.addressed rpc allowed.1
            have foreign := (pledge.sent rpc allowed.1).1
            rw [former.named] at sender foreign
            have votes := (orderly rpc.peerId).heard allowed.2.2.2 granted sender foreign.symm
            rw [term, answers.term] at votes
            exact more _ _ votes
        | _ => trivial
      have own (term : Nat)
          (member : (term, some (cluster.lived server).node.serverId) ∈
            node.persisted :: (cluster.lived server).stored) :
          after.Voted server (cluster.lived server).node.serverId term := by
        rw [former.named] at member ⊢
        unfold Voted
        rw [same, stored, ← isRun]
        exact member
      have campaign := (former.campaign.mono more).step pledge allowed.1 allowed.2.1 allowed.2.2.1
        heard own stepCase
      subst isRun
      constructor
      · rw [same]
        exact named
      · rw [same]
        exact sworn
      · rw [same]
        exact campaign
      · rw [same]
        exact former.honest
      · rw [same]
        apply elected
        intro term member
        have isElected := campaign.elected term member
        rw [named] at isElected
        exact isElected
  | restart conf lastLogTerm writes =>
      obtain ⟨node, starts, isRun⟩ := Option.map_eq_some_iff.mp stepped
      have started := ElectionNode.init_started starts
      subst isRun
      constructor
      · rw [same]
        exact started.serverId.trans former.named
      · rw [same]
        exact sworn
      · rw [same]
        exact started.campaign allowed.2 _
      · rw [same]
        intro life member
        rcases List.mem_cons.mp member with last | past
        · rw [last]
          exact former.campaign.honest
        · exact former.honest life past
      · rw [same]
        intro term member
        unfold LivedNode.ledTerms ElectionNode.ledTerms at member
        rw [List.flatMap_cons, started.young.2] at member
        exact elected_mono (former.elected term member) more

theorem Orderly.step {move : Move P} (orderly : ∀ server, Orderly entry cluster server)
    (allowed : Allowed entry move cluster) (stepped : step move cluster = some after) :
    ∀ server, Orderly entry after server := by
  obtain ⟨run, acts, isAfter⟩ := Option.map_eq_some_iff.mp stepped
  have moved : after.lived move.server = run := by
    rw [← isAfter]
    exact Function.update_self move.server run cluster.lived
  have others {server : P} (other : server ≠ move.server) :
      after.lived server = cluster.lived server := by
    rw [← isAfter]
    exact Function.update_of_ne other run cluster.lived
  have more (candidate voter : P) (term : Nat) (votes : cluster.Voted candidate voter term) :
      after.Voted candidate voter term := by
    unfold Voted at votes ⊢
    by_cases moves : voter = move.server
    · subst moves
      rw [moved, step_stored acts]
      exact List.mem_cons_of_mem _ votes
    · rw [others moves]
      exact votes
  intro server
  by_cases moves : server = move.server
  · subst moves
    exact Orderly.acts orderly allowed acts moved (more move.server)
  · exact (orderly server).of_lived (others moves) (more server)

theorem orderly_of_reachable (reached : (system entry).Reachable cluster) :
    ∀ server, Orderly entry cluster server := by
  apply reached.invariant (fun cluster => ∀ server, Orderly entry cluster server)
  · exact fun _ initial server => Initial.orderly initial server
  · exact fun _ _ _ orderly allowed stepped => Orderly.step orderly allowed stepped

/-- In a group with fixed members two servers never become leaders of one term. -/
theorem election_safety (reached : (system entry).Reachable cluster) (server other : P) (term : Nat)
    (leads : term ∈ (cluster.lived server).ledTerms)
    (alsoLeads : term ∈ (cluster.lived other).ledTerms) : server = other := by
  have orderly := orderly_of_reachable reached
  obtain ⟨contained, alone | ⟨voters, elects, votes⟩⟩ := (orderly server).elected term leads
  · obtain ⟨otherContained, _⟩ := (orderly other).elected term alsoLeads
    exact (alone.only otherContained).symm
  · obtain ⟨_, otherAlone | ⟨otherVoters, otherElects, otherVotes⟩⟩ :=
      (orderly other).elected term alsoLeads
    · exact otherAlone.only contained
    · obtain ⟨voter, inVoters, inOthers⟩ := elects.common otherElects
      exact (orderly voter).sworn.pledge.unique term server other (votes voter inVoters)
        (otherVotes voter inOthers)

def threeStarted : Cluster Nat :=
  { lived := fun server =>
      { node :=
          { serverId := server
            currentTerm := 1
            conf := LivedNode.groupOfThree
            persisted := (1, none)
            preVoteCtx := { version := 1 } }
        stored := [(1, none)] } }

theorem threeStarted_initial : Initial LivedNode.groupOfThree threeStarted :=
  ⟨fun server => ⟨rfl, rfl, server, (1, none), LivedNode.groupOfThree, 0, true, rfl⟩,
    fun _ => rfl, fun _ => ⟨rfl, rfl⟩⟩

def firstElection : List (Move Nat) :=
  [⟨1, .call (.timeoutNowRequest 1 false true)⟩, ⟨1, .call (.resume 0 {} true true false)⟩,
    ⟨2, .call (.requestVoteRequest LivedNode.requestToSecond.request)⟩,
    ⟨2, .call (.resume 0 {} true true false)⟩,
    ⟨1, .call (.requestVoteResponse LivedNode.requestToSecond
      { term := 2, granted := true, previousTerm := 1 } true)⟩]

theorem firstElection_reached : ∃ cluster : Cluster Nat,
    (system LivedNode.groupOfThree).Reachable cluster ∧ 2 ∈ (cluster.lived 1).ledTerms := by
  have start : (system LivedNode.groupOfThree).Reachable threeStarted :=
    .start threeStarted_initial
  refine ⟨_, start.follows firstElection
    ⟨⟨trivial, trivial, fun _ none => False.elim none, trivial⟩, _, rfl,
      ⟨trivial, rfl, fun _ none => False.elim none, trivial⟩, _, rfl,
      ⟨trivial, trivial, fun _ none => False.elim none, trivial⟩, _, rfl,
      ⟨trivial, rfl, fun _ none => False.elim none, trivial⟩, _, rfl,
      ⟨List.mem_cons_self, trivial, fun _ none => False.elim none,
        _, List.mem_cons_self, List.mem_cons_self⟩, _, rfl, rfl⟩, ?_⟩
  exact List.mem_cons_self

theorem election_safety_three : ∃ cluster : Cluster Nat, 2 ∈ (cluster.lived 1).ledTerms ∧
    ∀ other, 2 ∈ (cluster.lived other).ledTerms → 1 = other := by
  obtain ⟨cluster, reached, leads⟩ := firstElection_reached
  exact ⟨cluster, leads, fun other => election_safety reached 1 other 2 leads⟩

end Cluster

end QuorumKit
