/-
A node that has failed or shuts down stays so.

Every function that sets the state checks it first, except the ends of `pre_vote`,
`elect_self` and `init`, which only compare the term after they took the mutex.  A
node whose own vote wins may be set to candidate there.
-/

import QuorumKit.Node.Election

namespace QuorumKit

namespace ElectionNode

variable {P : Type} [DecidableEq P]

/-- When `pre_vote`, `elect_self` or `init` takes the mutex for its last part, the node
is active or its own vote is not enough. -/
def LiveAtRelock (action : Action P) (node : ElectionNode P) : Prop :=
  match action with
  | .start =>
      node.state.isActive = true ∨ ¬ (node.conf.stable ∧ node.conf.conf.size = 1 ∧
        node.conf.conf.contains node.serverId)
  | .resume position _ _ stored waits =>
      match node.waiting[position]? with
      | some (.preVote oldTerm _) =>
          oldTerm = node.currentTerm → node.state.isActive = true ∨ waits = true ∨
            ¬ node.OwnVoteWins (Ballot.init node.conf.conf node.oldConf)
      | some (.electSelf oldTerm) =>
          oldTerm = node.currentTerm → node.state.isActive = true ∨ waits = true ∨
            stored = false ∨ ¬ node.OwnVoteWins node.voteCtx.ballot
      | _ => True
  | _ => True

def life (node : ElectionNode P) : State × Bool × List State :=
  (node.state, node.stopping, node.foundAtShutdown)

def ending (node : ElectionNode P) : Bool × List State := (node.stopping, node.foundAtShutdown)

structure Lives (node node' : ElectionNode P) : Prop where
  ending : node'.ending = node.ending
  inactive : node.state.isActive = false → node'.state = node.state

structure Ended (node : ElectionNode P) : Prop where
  stopping : node.stopping = true → node.state = .shutting
  found : ∀ state ∈ node.foundAtShutdown, state = .shutting

variable {node node' : ElectionNode P}

omit [DecidableEq P] in
theorem Lives.of_life (same : node'.life = node.life) : Lives node node' := by
  simp only [life, Prod.mk.injEq] at same
  obtain ⟨state, stopping, found⟩ := same
  refine ⟨?_, fun _ => state⟩
  unfold ElectionNode.ending
  rw [stopping, found]

omit [DecidableEq P] in
theorem Lives.refl (node : ElectionNode P) : Lives node node := .of_life rfl

omit [DecidableEq P] in
theorem Lives.trans {middle last : ElectionNode P} (first : Lives node middle)
    (second : Lives middle last) : Lives node last := by
  refine ⟨second.ending.trans first.ending, ?_⟩
  intro inactive
  have same := first.inactive inactive
  rw [second.inactive (by rw [same]; exact inactive), same]

omit [DecidableEq P] in
theorem Lives.of_active (active : node.state.isActive = true) (ending : node'.ending = node.ending) :
    Lives node node' :=
  ⟨ending, fun inactive => absurd (inactive.symm.trans active) (by decide)⟩

omit [DecidableEq P] in
theorem Lives.setCtx (kind : VoteKind) (ctx : VoteBallotCtx P) : Lives node (node.setCtx kind ctx) := by
  cases kind with
  | preVote => exact .of_life rfl
  | vote => exact .of_life rfl

omit [DecidableEq P] in
theorem Lives.setTermAndVotedfor (stored : Bool) (term : Nat) (votedFor : Option P) :
    Lives node (node.setTermAndVotedfor stored term votedFor) := by
  unfold ElectionNode.setTermAndVotedfor
  split <;> exact .of_life rfl

omit [DecidableEq P] in
theorem Lives.stepDown (term : Nat) (stored : Bool) : Lives node (node.stepDown term stored) := by
  cases isActive : node.state.isActive with
  | false =>
      rw [stepDown_inactive isActive]
      exact .refl node
  | true =>
      obtain ⟨_, same⟩ := stepDown_active isActive term stored
      rw [same]
      exact .of_active isActive rfl

omit [DecidableEq P] in
theorem Lives.becomeLeader (active : node.state.isActive = true) : Lives node node.becomeLeader :=
  .of_active active rfl

theorem Lives.electSelf (active : node.state.isActive = true) (oldLeaderSteppedDown : Bool) :
    Lives node (node.electSelf oldLeaderSteppedDown) := by
  unfold ElectionNode.electSelf
  split
  · exact .refl node
  · exact .of_active active rfl

omit [DecidableEq P] in
@[simp] theorem setCtx_state (kind : VoteKind) (ctx : VoteBallotCtx P) :
    (node.setCtx kind ctx).state = node.state := by
  cases kind <;> rfl

theorem Lives.grantSelf (kind : VoteKind) (waits : Bool)
    (live : node.state.isActive = true ∨ waits = true ∨
      ¬ node.OwnVoteWins (node.ctx kind).ballot) : Lives node (node.grantSelf kind waits) := by
  unfold ElectionNode.grantSelf
  have granted : Lives node
      (node.setCtx kind ((node.ctx kind).grant node.serverId node.currentTerm)) := .setCtx kind _
  split
  · exact .setCtx kind _
  · rename_i goesOn
    simp only
    split
    · exact granted
    · rename_i wins
      have active : node.state.isActive = true := by
        rcases live with active | waiting | loses
        · exact active
        · exact absurd waiting goesOn
        · refine absurd ?_ loses
          cases kind with
          | preVote => exact not_not.mp wins
          | vote => exact not_not.mp wins
      have stillActive (ctx : VoteBallotCtx P) : (node.setCtx kind ctx).state.isActive = true := by
        rw [setCtx_state]
        exact active
      cases kind with
      | preVote => exact granted.trans (Lives.electSelf (stillActive _) false)
      | vote => exact granted.trans (Lives.becomeLeader (stillActive _))

theorem Lives.resumePreVote {oldTerm : Nat} {triggered waits : Bool} {lastLogId : LogId}
    (live : oldTerm = node.currentTerm → node.state.isActive = true ∨ waits = true ∨
      ¬ node.OwnVoteWins (Ballot.init node.conf.conf node.oldConf)) :
    Lives node (node.resumePreVote oldTerm triggered lastLogId waits) := by
  unfold ElectionNode.resumePreVote
  split
  · exact .refl node
  · rename_i same
    refine Lives.trans (.of_life ?_) (Lives.grantSelf .preVote waits (live (not_not.mp same)))
    rfl

theorem Lives.resumeElectSelf {oldTerm : Nat} {lastLogId : LogId} {stored waits : Bool}
    (live : oldTerm = node.currentTerm → node.state.isActive = true ∨ waits = true ∨
      stored = false ∨ ¬ node.OwnVoteWins node.voteCtx.ballot) :
    Lives node (node.resumeElectSelf oldTerm lastLogId stored waits) := by
  unfold ElectionNode.resumeElectSelf
  split
  · exact .refl node
  · rename_i same
    simp only
    split
    · rename_i isStored
      refine Lives.trans (.of_life ?_) (Lives.grantSelf .vote waits ?_)
      · rfl
      · rcases live (not_not.mp same) with active | waiting | failed | loses
        · exact Or.inl active
        · exact Or.inr (Or.inl waiting)
        · exact absurd (failed.symm.trans isStored) (by decide)
        · exact Or.inr (Or.inr loses)
    · exact .of_life rfl

omit [DecidableEq P] in
theorem Lives.voteFor (request : RequestVoteRequest P) (stepStored stored : Bool) :
    Lives node (node.voteFor request stepStored stored) := by
  unfold ElectionNode.voteFor
  split
  · refine (Lives.stepDown request.term stepStored).trans (.trans (.of_life ?_)
      (.setTermAndVotedfor stored _ _))
    rfl
  · exact .refl node

theorem Lives.resumeRequestVote {request : RequestVoteRequest P} {previousTerm : Nat}
    {lastLogId : LogId} {stepStored stored waits : Bool} :
    Lives node (node.resumeRequestVote request previousTerm lastLogId stepStored stored waits) := by
  have replied (node : ElectionNode P) (rejected disrupted : Bool) :
      Lives node (node.reply request previousTerm rejected disrupted) := .of_life rfl
  unfold ElectionNode.resumeRequestVote
  split
  · exact replied node _ _
  · simp only
    split
    · exact replied node _ _
    · refine Lives.trans ?_ (replied _ _ _)
      have raised : Lives node (if node.currentTerm < request.term then
          node.stepDown request.term stepStored else node) := by
        split
        · exact .stepDown _ _
        · exact .refl node
      split
      · exact raised.trans (.voteFor request stepStored stored)
      · exact raised

theorem Lives.preVote (triggered installing : Bool) :
    Lives node (node.preVote triggered installing) := by
  unfold ElectionNode.preVote
  split
  · exact .refl node
  · split
    · exact .refl node
    · exact .of_life rfl

theorem Lives.handleElectionTimeout (expired installing : Bool) :
    Lives node (node.handleElectionTimeout expired installing) := by
  unfold ElectionNode.handleElectionTimeout
  split
  · exact .refl node
  · split
    · exact .refl node
    · refine Lives.trans (.of_life ?_) (.preVote _ _)
      rfl

theorem Lives.handleVoteTimeout (stepsDown installing stored : Bool) :
    Lives node (node.handleVoteTimeout stepsDown installing stored) := by
  unfold ElectionNode.handleVoteTimeout
  split
  · exact .refl node
  · rename_i isCandidate
    split
    · exact (Lives.stepDown _ _).trans (.preVote _ _)
    · exact .electSelf (by rw [not_not.mp isCandidate]; rfl) false

theorem Lives.handleRequestVoteResponse (rpc : VoteRpc P) (response : RequestVoteResponse)
    (stored : Bool) : Lives node (node.handleRequestVoteResponse rpc response stored) := by
  unfold ElectionNode.handleRequestVoteResponse
  split
  · exact .refl node
  · split
    · exact .refl node
    · rename_i isCandidate
      have active : node.state.isActive = true := by rw [not_not.mp isCandidate]; rfl
      split
      · exact .refl node
      · split
        · exact .stepDown _ _
        · split
          · exact .refl node
          · simp only
            split
            · split
              · exact .of_active active rfl
              · exact .of_life rfl
            · exact .of_life rfl

theorem Lives.handlePreVoteResponse (rpc : VoteRpc P) (response : RequestVoteResponse)
    (stored : Bool) : Lives node (node.handlePreVoteResponse rpc response stored) := by
  unfold ElectionNode.handlePreVoteResponse
  split
  · exact .refl node
  · split
    · exact .refl node
    · rename_i isFollower
      split
      · exact .refl node
      · split
        · exact .stepDown _ _
        · split
          · exact .refl node
          · split
            · exact .refl node
            · simp only
              obtain ⟨ctx, counted⟩ := grantPreVotes_eq
                (popPreVotes (noteDisrupted node.preVoteCtx rpc response) rpc response).1
                { node with
                  preVoteCtx :=
                    (popPreVotes (noteDisrupted node.preVoteCtx rpc response) rpc response).2 }
              rw [counted]
              split
              · refine Lives.trans (.of_life ?_) (.electSelf ?_ false)
                · rfl
                · change node.state.isActive = true
                  rw [not_not.mp isFollower]
                  rfl
              · exact .of_life rfl

omit [DecidableEq P] in
theorem Lives.grantSelfTimeout {kind : VoteKind} (stepped : node.grantSelfTimeout kind = some node') :
    Lives node node' := by
  obtain ⟨version, _, rfl⟩ := Option.map_eq_some_iff.mp stepped
  refine .of_life ?_
  cases kind <;> rfl

theorem Lives.handleGrantSelfTimedout {position : Nat} {waits : Bool}
    (stepped : node.handleGrantSelfTimedout position waits = some node') : Lives node node' := by
  obtain ⟨arg, _, rfl⟩ := Option.map_eq_some_iff.mp stepped
  simp only
  split
  · exact .of_life rfl
  · rename_i live
    rw [not_or, not_not] at live
    refine Lives.trans (.of_life ?_) (.grantSelf arg.1 waits (Or.inl live.1))
    rfl

omit [DecidableEq P] in
theorem Lives.checkStepDown (requestTerm : Nat) (serverId : P) (stored : Bool) :
    Lives node (node.checkStepDown requestTerm serverId stored) := by
  have settled (checked : ElectionNode P) (lives : Lives node checked) :
      Lives node (if checked.leaderId = none then checked.setLeaderId serverId else checked) := by
    split
    · exact lives.trans (.of_life rfl)
    · exact lives
  refine settled _ ?_
  split
  · exact .stepDown _ _
  · exact .refl node

omit [DecidableEq P] in
theorem Lives.stepDownIf (condition : Bool) (term : Nat) (stored : Bool) :
    Lives node (if condition then node.stepDown term stored else node) := by
  cases condition with
  | false => exact .refl node
  | true => exact .stepDown term stored

theorem Lives.handleLeaderRequest (term : Nat) (serverId : P) (renews stored : Bool) :
    Lives node (node.handleLeaderRequest term serverId renews stored) := by
  unfold ElectionNode.handleLeaderRequest
  split
  · exact .refl node
  · split
    · exact .refl node
    · have checked : Lives node (node.checkStepDown term serverId stored) :=
        .checkStepDown term serverId stored
      simp only
      split
      · exact checked.trans (.stepDown _ _)
      · split
        · refine checked.trans (.of_life ?_)
          rfl
        · exact checked

omit [DecidableEq P] in
theorem Lives.handleStepdownTimeout (witness dead oldDead stored : Bool) :
    Lives node (node.handleStepdownTimeout witness dead oldDead stored) := by
  unfold ElectionNode.handleStepdownTimeout
  split
  · exact .refl node
  · exact ((Lives.stepDownIf witness _ _).trans (.stepDownIf dead _ _)).trans
      (.stepDownIf oldDead _ _)

theorem Lives.resetPeers (newPeers : Configuration P) (busy stored : Bool) :
    Lives node (node.resetPeers newPeers busy stored) := by
  have changed (conf : ConfigurationEntry P) (term : Nat) :
      Lives node ({ node with conf := conf }.stepDown term stored) := by
    refine Lives.trans (.of_life ?_) (.stepDown term stored)
    rfl
  unfold ElectionNode.resetPeers
  split_ifs
  · exact .refl node
  · exact changed _ _
  · exact .refl node
  · exact .refl node
  · exact changed _ _
  · exact .refl node

theorem Lives.start (stepped : node.start = some node') (condition : LiveAtRelock .start node) :
    Lives node node' := by
  unfold ElectionNode.start at stepped
  split at stepped
  · obtain rfl := Option.some.inj stepped
    split
    · rename_i alone
      rcases condition with active | others
      · refine Lives.trans (.of_life ?_) (.electSelf ?_ false)
        · rfl
        · exact active
      · exact absurd alone others
    · exact .of_life rfl
  · contradiction

theorem Lives.resume {position : Nat} {lastLogId : LogId} {stepStored stored waits : Bool}
    (stepped : node.resume position lastLogId stepStored stored waits = some node')
    (condition : LiveAtRelock (.resume position lastLogId stepStored stored waits) node) :
    Lives node node' := by
  obtain ⟨call, isCall, rfl⟩ := Option.map_eq_some_iff.mp stepped
  simp only [LiveAtRelock, isCall] at condition
  have relocked : Lives node { node with waiting := node.waiting.eraseIdx position } := .of_life rfl
  cases call with
  | preVote oldTerm triggered => exact relocked.trans (.resumePreVote condition)
  | electSelf oldTerm => exact relocked.trans (.resumeElectSelf condition)
  | requestVote request previousTerm => exact relocked.trans .resumeRequestVote

theorem Lives.step {action : Action P} (condition : LiveAtRelock action node)
    (stepped : ElectionNode.step action node = some node')
    (noError : ∀ stored, action ≠ .error stored) (noShutdown : ∀ stored, action ≠ .shutdown stored)
    (notAfter : action ≠ .afterShutdown) : Lives node node' := by
  have total {last : ElectionNode P} (lives : Lives node last) (same : some last = some node') :
      Lives node node' := Option.some.inj same ▸ lives
  cases action with
  | start => exact .start stepped condition
  | resume position lastLogId stepStored stored waits => exact .resume stepped condition
  | electionTimeout expired installing => exact total (.handleElectionTimeout _ _) stepped
  | voteTimeout stepsDown installing stored => exact total (.handleVoteTimeout _ _ _) stepped
  | requestVoteResponse rpc response stored =>
      exact total (.handleRequestVoteResponse _ _ _) stepped
  | preVoteResponse rpc response stored => exact total (.handlePreVoteResponse _ _ _) stepped
  | grantSelfTimeout kind => exact .grantSelfTimeout stepped
  | grantSelfTimedout position waits => exact .handleGrantSelfTimedout stepped
  | requestVoteRequest request =>
      refine total ?_ stepped
      unfold handleRequestVoteRequest
      split
      · exact .refl node
      · split
        · exact .of_life rfl
        · exact .of_life rfl
  | timeoutNowRequest term oldLeaderSteppedDown stored =>
      refine total ?_ stepped
      unfold handleTimeoutNowRequest
      split
      · split
        · exact .stepDown _ _
        · exact .refl node
      · split
        · exact .refl node
        · rename_i isFollower
          exact .electSelf (by rw [not_not.mp isFollower]; rfl) _
  | leaderRequest term serverId renews stored => exact total (.handleLeaderRequest _ _ _ _) stepped
  | setConfiguration conf =>
      refine total ?_ stepped
      exact .of_life rfl
  | resetPeers newPeers busy stored => exact total (.resetPeers _ _ _) stepped
  | increaseTermTo newTerm stored =>
      refine total ?_ stepped
      unfold ElectionNode.increaseTermTo
      split
      · exact .refl node
      · exact .stepDown _ _
  | stepdownTimeout witness dead oldDead stored =>
      exact total (.handleStepdownTimeout _ _ _ _) stepped
  | leaseExpired stored =>
      refine total ?_ stepped
      unfold ElectionNode.leaseExpired
      split
      · exact .refl node
      · exact .stepDown _ _
  | configurationChangeDone term removed stored =>
      refine total ?_ stepped
      unfold onConfigurationChangeDone
      split
      · exact .refl node
      · split
        · exact .stepDown _ _
        · exact .refl node
  | transferLeadershipTo =>
      refine total ?_ stepped
      unfold ElectionNode.transferLeadershipTo
      split
      · exact .refl node
      · rename_i leads
        exact .of_active (by rw [not_not.mp leads]; rfl) rfl
  | transferTimeout term =>
      refine total ?_ stepped
      unfold handleTransferTimeout
      split
      · rename_i transfers
        exact .of_active (by rw [transfers.2]; rfl) rfl
      · exact .refl node
  | vote =>
      refine total ?_ stepped
      unfold ElectionNode.vote
      split
      · exact .refl node
      · exact .of_life rfl
  | error stored => exact absurd rfl (noError stored)
  | shutdown stored => exact absurd rfl (noShutdown stored)
  | afterShutdown => exact absurd rfl notAfter

omit [DecidableEq P] in
theorem Ended.lives (ended : Ended node) (lives : Lives node node') : Ended node' := by
  have ending := lives.ending
  simp only [ElectionNode.ending, Prod.mk.injEq] at ending
  constructor
  · intro stopping
    have shutting := ended.stopping (ending.1.symm.trans stopping)
    rw [lives.inactive (by rw [shutting]; rfl), shutting]
  · rw [ending.2]
    exact ended.found

omit [DecidableEq P] in
theorem Ended.onError (ended : Ended node) (stored : Bool) : Ended (node.onError stored) := by
  unfold ElectionNode.onError
  split
  · rename_i active
    have stepped := ended.lives (.stepDown node.currentTerm stored)
    refine { stepped with stopping := ?_ }
    intro stopping
    have lives : Lives node (node.stepDown node.currentTerm stored) := .stepDown _ _
    have same := lives.ending
    simp only [ElectionNode.ending, Prod.mk.injEq] at same
    have shutting := ended.stopping (same.1.symm.trans stopping)
    rw [shutting] at active
    contradiction
  · exact ended

omit [DecidableEq P] in
theorem Ended.shutdown (ended : Ended node) (stored : Bool) : Ended (node.shutdown stored) := by
  unfold ElectionNode.shutdown
  split
  · exact ended
  · have stepped := ended.lives (.stepDownIf node.state.isActive node.currentTerm stored)
    exact { stepped with stopping := fun _ => rfl }

omit [DecidableEq P] in
theorem Ended.afterShutdown (ended : Ended node) (stepped : node.afterShutdown = some node') :
    Ended node' := by
  unfold ElectionNode.afterShutdown at stepped
  split at stepped
  · rename_i stopping
    obtain rfl := Option.some.inj stepped
    constructor
    · intro again
      contradiction
    · intro state member
      rcases List.mem_cons.mp member with same | former
      · exact same.trans (ended.stopping stopping)
      · exact ended.found state former
  · contradiction

theorem Ended.step {action : Action P} (ended : Ended node) (condition : LiveAtRelock action node)
    (stepped : ElectionNode.step action node = some node') :
    Ended node' ∧ (node.state.isActive = false → node'.state.isActive = false) := by
  have lived (lives : Lives node node') :
      Ended node' ∧ (node.state.isActive = false → node'.state.isActive = false) := by
    refine ⟨ended.lives lives, ?_⟩
    intro inactive
    rw [lives.inactive inactive]
    exact inactive
  cases action with
  | error stored =>
      obtain rfl := Option.some.inj stepped
      refine ⟨ended.onError stored, ?_⟩
      intro inactive
      unfold ElectionNode.onError
      rw [inactive]
      exact inactive
  | shutdown stored =>
      obtain rfl := Option.some.inj stepped
      refine ⟨ended.shutdown stored, ?_⟩
      intro inactive
      unfold ElectionNode.shutdown
      split
      · exact inactive
      · rfl
  | afterShutdown =>
      refine ⟨ended.afterShutdown stepped, ?_⟩
      intro _
      simp only [ElectionNode.step, ElectionNode.afterShutdown] at stepped
      split at stepped
      · obtain rfl := Option.some.inj stepped
        rfl
      · contradiction
  | _ => exact lived (.step condition stepped nofun nofun nofun)

theorem ended_of_reachable (reached : ((system P).restrict LiveAtRelock).Reachable node) :
    Ended node := by
  induction reached with
  | start initial =>
      constructor
      · intro stopping
        exact absurd (initial.stopping.symm.trans stopping) (by decide)
      · rw [initial.foundAtShutdown]
        exact fun _ member => absurd member List.not_mem_nil
  | next _ allowed stepped ih => exact (ih.step allowed.2 stepped).1

/-- An inactive node stays inactive, and is shutting when its shutdown ends. -/
theorem inactive_absorbing (reached : ((system P).restrict LiveAtRelock).Reachable node)
    (reaches : ((system P).restrict LiveAtRelock).Reaches node node') :
    (node.state.isActive = false → node'.state.isActive = false) ∧
      ∀ state ∈ node'.foundAtShutdown, state = .shutting := by
  refine ⟨?_, (ended_of_reachable (reached.continue reaches)).found⟩
  refine reaches.keeps (fun node => node.state.isActive = false) reached ?_
  intro action middle last reached allowed stepped inactive
  exact ((ended_of_reachable reached).step allowed.2 stepped).2 inactive

/-- A member of a group shuts down while `pre_vote` waits for the last log id. -/
def groupShutting : ElectionNode Nat :=
  ((startedNode [1, 2, 3]).handleElectionTimeout true false).shutdown true

theorem inactive_absorbing_groupShutting :
    groupShutting.state.isActive = false ∧
      ((groupShutting.resume 0 {} true true false).map ElectionNode.state = some .shutting) ∧
      ∃ node' : ElectionNode Nat, groupShutting.resume 0 {} true true false = some node' ∧
        (groupShutting.state.isActive = false → node'.state.isActive = false) ∧
        ∀ state ∈ node'.foundAtShutdown, state = .shutting := by
  have follows : ((system Nat).restrict LiveAtRelock).Follows
      [.electionTimeout true false, .shutdown true] (startedNode [1, 2, 3]) groupShutting :=
    ⟨⟨trivial, trivial⟩, _, rfl, ⟨trivial, trivial⟩, _, rfl, rfl⟩
  have reached := TransitionSystem.Reachable.follows _ (.start (startedNode_initial _)) follows
  have allowed : ((system Nat).restrict LiveAtRelock).allowed (.resume 0 {} true true false)
      groupShutting := by
    refine ⟨trivial, ?_⟩
    intro _
    refine Or.inr (Or.inr ?_)
    unfold OwnVoteWins
    decide
  exact ⟨rfl, rfl, _, rfl, inactive_absorbing reached (.next .refl allowed rfl)⟩

def loneShutting : ElectionNode Nat :=
  (({ startedNode [1] with starting := false }.electSelf false).handleVoteTimeout true false
    true).shutdown true

theorem shutting_becomes_candidate :
    ∃ node node' : ElectionNode Nat, (system Nat).Reachable node ∧ (system Nat).Reaches node node' ∧
      node.state = .shutting ∧ node'.state = .candidate := by
  have follows : (system Nat).Follows [.start, .voteTimeout true false true, .shutdown true]
      (startedNode [1]) loneShutting :=
    ⟨trivial, _, rfl, trivial, _, rfl, trivial, _, rfl, rfl⟩
  have reached := TransitionSystem.Reachable.follows _ (.start (startedNode_initial [1])) follows
  have allowed : (system Nat).allowed (.resume 1 {} true true false) loneShutting := trivial
  exact ⟨loneShutting, _, reached, .next .refl allowed rfl, rfl, rfl⟩

end ElectionNode

end QuorumKit
