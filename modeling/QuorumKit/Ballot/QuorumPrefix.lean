/-
A ballot box commits the quorum prefix.

Every call keeps the box in step with the window that the calls describe.  What
follows holds after any list of calls: reported indexes increase, the last one is
the largest index with a quorum, and the order of acknowledgements is irrelevant.
-/

import QuorumKit.Ballot.CommitWindow

namespace QuorumKit

namespace BallotBox

variable {P : Type} [DecidableEq P]

variable {box box' : BallotBox P} {window : CommitWindow P} {firstLogIndex lastLogIndex : Nat}
  {peer : P}

structure Pending (box : BallotBox P) (window : CommitWindow P) : Prop where
  positive : 0 < window.first
  lower : window.first ≤ box.pendingIndex
  upper : box.pendingIndex ≤ window.first + window.votes.length
  counted : List.Forall₂ Counted box.pendingMetaQueue
    (window.votes.drop (box.pendingIndex - window.first))
  waiting : ∀ index, box.pendingIndex ≤ index → ¬ window.Granted index
  below : box.lastCommittedIndex < box.pendingIndex
  passed : window.first < box.pendingIndex →
    box.lastCommittedIndex + 1 = box.pendingIndex ∧ window.Granted box.lastCommittedIndex

def Represents (box : BallotBox P) : Option (CommitWindow P) → Prop
  | some window => Pending box window
  | none => box.pendingIndex = 0 ∧ box.pendingMetaQueue = []

theorem Pending.tail (pending : Pending box window) :
    box.pendingIndex + box.pendingMetaQueue.length = window.first + window.votes.length := by
  have lower := pending.lower
  have upper := pending.upper
  rw [pending.counted.length_eq, List.length_drop]
  omega

theorem Pending.largest (pending : Pending box window) :
    window.LargestGranted box.lastCommittedIndex := by
  have below := pending.below
  constructor
  · intro index granted
    by_contra above
    by_cases inQueue : box.pendingIndex ≤ index
    · exact pending.waiting index inQueue granted
    · obtain ⟨isLast, _⟩ := pending.passed (lt_of_le_of_lt granted.1 (not_le.mp inQueue))
      omega
  · intro inside
    exact (pending.passed (lt_of_le_of_lt inside below)).2

theorem Pending.commitAt_below (pending : Pending box window)
    (below : lastLogIndex < box.pendingIndex) :
    Pending box (window.commitAt firstLogIndex lastLogIndex peer) := by
  have lower := pending.lower
  have upper := pending.upper
  constructor
  · simpa using pending.positive
  · simpa using lower
  · simpa using upper
  · have same : (window.commitAt firstLogIndex lastLogIndex peer).votes.drop
        (box.pendingIndex - window.first) =
        window.votes.drop (box.pendingIndex - window.first) := by
      rw [CommitWindow.commitAt_votes (by omega), PendingVote.ack_drop]
      exact PendingVote.ack_outside (fun position _ => Or.inr (by omega))
    rw [CommitWindow.commitAt_first, same]
    exact pending.counted
  · intro index above granted
    exact pending.waiting index above (granted.of_commitAt (Or.inr (by omega)))
  · exact pending.below
  · intro passed
    rw [CommitWindow.commitAt_first] at passed
    obtain ⟨isLast, granted⟩ := pending.passed passed
    exact ⟨isLast, granted.commitAt⟩

theorem Pending.grants (pending : Pending box window) (firstLogIndex : Nat) (peer : P)
    (inside : box.pendingIndex ≤ lastLogIndex)
    (tail : lastLogIndex < window.first + window.votes.length) {startAt skipped : Nat}
    (isStart : startAt = max box.pendingIndex firstLogIndex)
    (isSkipped : skipped = startAt - box.pendingIndex) :
    let loop := grantBallots peer lastLogIndex (box.pendingMetaQueue.drop skipped) startAt {} 0
    let window' := window.commitAt firstLogIndex lastLogIndex peer
    List.Forall₂ Counted (box.pendingMetaQueue.take skipped ++ loop.2)
        (window'.votes.drop (box.pendingIndex - window.first)) ∧
      (loop.1 = 0 ∧ (∀ index, box.pendingIndex ≤ index → ¬ window'.Granted index) ∨
        box.pendingIndex ≤ loop.1 ∧ loop.1 ≤ lastLogIndex ∧ window'.Granted loop.1 ∧
          ∀ index, loop.1 < index → ¬ window'.Granted index) := by
  intro loop window'
  have lower := pending.lower
  have positive := pending.positive
  have votes : window'.votes.drop (box.pendingIndex - window.first) =
      PendingVote.ack peer firstLogIndex lastLogIndex box.pendingIndex
        (window.votes.drop (box.pendingIndex - window.first)) := by
    rw [CommitWindow.commitAt_votes tail, PendingVote.ack_drop,
      show window.first + (box.pendingIndex - window.first) = box.pendingIndex by omega]
  have later : PendingVote.ack peer firstLogIndex lastLogIndex startAt
      ((window.votes.drop (box.pendingIndex - window.first)).drop skipped) =
      window'.votes.drop (startAt - window'.first) := by
    rw [CommitWindow.commitAt_first, CommitWindow.commitAt_votes tail, PendingVote.ack_drop,
      List.drop_drop, show window.first + (startAt - window.first) = startAt by omega,
      show box.pendingIndex - window.first + skipped = startAt - window.first by omega]
  obtain ⟨counted, latest⟩ := grantBallots_spec peer firstLogIndex lastLogIndex
    (List.forall₂_drop skipped pending.counted) startAt {} 0
    (show firstLogIndex ≤ startAt by omega)
  have outside : ∀ index, index < startAt ∨ lastLogIndex < index → box.pendingIndex ≤ index →
      ¬ window'.Granted index := by
    intro index apart above granted
    exact pending.waiting index above (granted.of_commitAt (by omega))
  constructor
  · rw [votes, ← List.take_append_drop skipped (PendingVote.ack _ _ _ _ _), PendingVote.ack_take,
      PendingVote.ack_drop, show box.pendingIndex + skipped = startAt by omega]
    refine List.rel_append ?_ counted
    rw [PendingVote.ack_outside]
    · exact List.forall₂_take skipped pending.counted
    · intro position within
      rw [List.length_take] at within
      omega
  · rw [later] at latest
    rcases latest with ⟨isZero, none⟩ | ⟨position, vote, found, isIndex, upper, granted, none⟩
    · refine Or.inl ⟨isZero, ?_⟩
      intro index above granted
      by_cases apart : index < startAt ∨ lastLogIndex < index
      · exact outside index apart above granted
      · rw [show index = startAt + (index - startAt) by omega,
          CommitWindow.granted_iff_drop (by rw [CommitWindow.commitAt_first]; omega)] at granted
        obtain ⟨vote, found, granted⟩ := granted
        exact none _ vote found (by omega) granted
    · have isIndex : loop.1 = startAt + position := isIndex
      refine Or.inr ⟨by omega, by omega, ?_, ?_⟩
      · rw [isIndex, CommitWindow.granted_iff_drop (by rw [CommitWindow.commitAt_first]; omega)]
        exact ⟨vote, found, granted⟩
      · intro index above granted
        by_cases apart : lastLogIndex < index
        · exact outside index (Or.inr apart) (by omega) granted
        · rw [show index = startAt + (index - startAt) by omega,
            CommitWindow.granted_iff_drop (by rw [CommitWindow.commitAt_first]; omega)] at granted
          obtain ⟨vote', found', granted⟩ := granted
          exact none _ vote' (by omega) found' (by omega) granted

/-- A call leaves the committed index alone, or raises and reports it. -/
def Commits (box box' : BallotBox P) : Prop :=
  (box'.lastCommittedIndex = box.lastCommittedIndex ∧ box'.committed = box.committed) ∨
    (box.lastCommittedIndex < box'.lastCommittedIndex ∧
      box'.committed = box'.lastCommittedIndex :: box.committed)

/-- Within a window the committed index is raised past the pending index. -/
def Advances (box box' : BallotBox P) : Prop :=
  (box'.lastCommittedIndex = box.lastCommittedIndex ∧ box'.pendingIndex = box.pendingIndex) ∨
    box.pendingIndex ≤ box'.lastCommittedIndex

theorem Pending.commitAt (pending : Pending box window) (firstLogIndex lastLogIndex : Nat)
    (peer : P) :
    Pending (box.commitAt firstLogIndex lastLogIndex peer).2
        (window.commitAt firstLogIndex lastLogIndex peer) ∧
      Commits box (box.commitAt firstLogIndex lastLogIndex peer).2 ∧
      Advances box (box.commitAt firstLogIndex lastLogIndex peer).2 := by
  have positive := pending.positive
  have lower := pending.lower
  have upper := pending.upper
  have tail := pending.tail
  unfold BallotBox.commitAt
  rw [if_neg (show ¬ box.pendingIndex = 0 by omega)]
  by_cases below : lastLogIndex < box.pendingIndex
  · rw [if_pos below]
    exact ⟨pending.commitAt_below below, Or.inl ⟨rfl, rfl⟩, Or.inl ⟨rfl, rfl⟩⟩
  · rw [if_neg below]
    by_cases beyond : box.pendingIndex + box.pendingMetaQueue.length ≤ lastLogIndex
    · rw [if_pos beyond, CommitWindow.commitAt, if_neg (by omega)]
      exact ⟨pending, Or.inl ⟨rfl, rfl⟩, Or.inl ⟨rfl, rfl⟩⟩
    · rw [if_neg beyond]
      obtain ⟨counted, found⟩ := pending.grants firstLogIndex peer (not_lt.mp below) (by omega)
        rfl rfl
      simp only
      rcases found with ⟨isZero, none⟩ | ⟨above, inside, granted, last⟩
      · rw [if_pos isZero]
        refine ⟨?_, Or.inl ⟨rfl, rfl⟩, Or.inl ⟨rfl, rfl⟩⟩
        constructor
        · simpa using positive
        · simpa using lower
        · simpa using upper
        · simpa using counted
        · exact none
        · exact pending.below
        · intro passed
          rw [CommitWindow.commitAt_first] at passed
          obtain ⟨isLast, granted⟩ := pending.passed passed
          exact ⟨isLast, granted.commitAt⟩
      · rw [if_neg (by omega)]
        refine ⟨?_, Or.inr ⟨lt_of_lt_of_le pending.below above, rfl⟩, Or.inr above⟩
        constructor
        · simpa using positive
        · simp only [report, CommitWindow.commitAt_first]
          omega
        · simp only [report, CommitWindow.commitAt_first, CommitWindow.commitAt_length]
          omega
        · have rest := List.forall₂_drop
            ((grantBallots peer lastLogIndex (box.pendingMetaQueue.drop
              (max box.pendingIndex firstLogIndex - box.pendingIndex))
              (max box.pendingIndex firstLogIndex) {} 0).1 + 1 - box.pendingIndex) counted
          rw [List.drop_drop] at rest
          simp only [report, CommitWindow.commitAt_first]
          convert rest using 2
          omega
        · exact fun index beyondLast => last index beyondLast
        · exact Nat.lt_succ_self _
        · exact fun _ => ⟨rfl, granted⟩

variable {state : Option (CommitWindow P)} {action : Action P}

theorem Represents.step (represents : Represents box state) (stepped : box.step action = some box') :
    Represents box' (CommitWindow.step state action) ∧ Commits box box' := by
  cases action with
  | resetPendingIndex newPendingIndex =>
      simp only [BallotBox.step, resetPendingIndex] at stepped
      split_ifs at stepped with free
      obtain rfl := Option.some.inj stepped
      obtain ⟨_, noBallots, above⟩ := free
      refine ⟨⟨?_, le_refl _, le_refl _, ?_, ?_, above, ?_⟩, Or.inl ⟨rfl, rfl⟩⟩
      · exact lt_of_le_of_lt (Nat.zero_le _) above
      · simp only [noBallots, List.drop_nil]
        exact List.Forall₂.nil
      · rintro index _ ⟨_, vote, found, _⟩
        simp at found
      · exact fun passed => absurd passed (lt_irrefl _)
  | appendPendingTask conf oldConf =>
      simp only [BallotBox.step, appendPendingTask] at stepped
      split_ifs at stepped with opened
      obtain rfl := Option.some.inj stepped
      cases state with
      | none => exact absurd represents.1 (by omega)
      | some window =>
          have tail := Pending.tail represents
          have lower := represents.lower
          have upper := represents.upper
          refine ⟨⟨represents.positive, lower, ?_, ?_, ?_, represents.below, ?_⟩, Or.inl ⟨rfl, rfl⟩⟩
          · simp only [List.length_append, List.length_singleton]
            omega
          · simp only
            rw [List.drop_append_of_le_length (by omega)]
            exact List.rel_append represents.counted
              (List.Forall₂.cons (Ballot.counts_init conf oldConf) List.Forall₂.nil)
          · rintro index above ⟨first, vote, found, granted⟩
            simp only [Option.mem_def] at found first
            rw [List.getElem?_append] at found
            split_ifs at found with inside
            · exact represents.waiting index above ⟨first, vote, found, granted⟩
            · -- nobody has voted for the new index
              rw [List.getElem?_singleton] at found
              split_ifs at found
              obtain rfl := Option.some.inj found
              exact absurd granted.1 (by simp [Majority])
          · intro passed
            obtain ⟨isLast, first, vote, found, granted⟩ := represents.passed passed
            rw [Option.mem_def] at found
            refine ⟨isLast, first, vote, ?_, granted⟩
            simp only [Option.mem_def]
            rw [List.getElem?_append_left (List.getElem?_eq_some_iff.mp found).1]
            exact found
  | commitAt firstLogIndex lastLogIndex peer =>
      obtain rfl := Option.some.inj stepped
      cases state with
      | none =>
          obtain ⟨closed, noBallots⟩ := represents
          rw [BallotBox.commitAt, if_pos closed]
          exact ⟨⟨closed, noBallots⟩, Or.inl ⟨rfl, rfl⟩⟩
      | some window =>
          obtain ⟨pending, commits, _⟩ :=
            Pending.commitAt represents firstLogIndex lastLogIndex peer
          exact ⟨pending, commits⟩
  | clearPendingTasks =>
      obtain rfl := Option.some.inj stepped
      exact ⟨⟨rfl, rfl⟩, Or.inl ⟨rfl, rfl⟩⟩
  | setLastCommittedIndex lastCommittedIndex =>
      simp only [BallotBox.step, setLastCommittedIndex] at stepped
      split_ifs at stepped with leader
      · obtain rfl := Option.some.inj stepped
        exact ⟨represents, Or.inl ⟨rfl, rfl⟩⟩
      · simp at stepped
      · obtain rfl := Option.some.inj stepped
        exact ⟨represents, Or.inl ⟨rfl, rfl⟩⟩
      · rename_i newer
        obtain rfl := Option.some.inj stepped
        cases state with
        | none => exact ⟨represents, Or.inr ⟨newer, rfl⟩⟩
        | some window =>
            have positive := represents.positive
            have lower := represents.lower
            exact absurd (Or.inl (by omega)) leader
      · obtain rfl := Option.some.inj stepped
        exact ⟨represents, Or.inl ⟨rfl, rfl⟩⟩

def Increasing (box : BallotBox P) : Prop :=
  box.committed.Pairwise (fun later former => former < later) ∧
    ∀ index ∈ box.committed, index ≤ box.lastCommittedIndex

omit [DecidableEq P] in
theorem Increasing.commits (increasing : Increasing box) (commits : Commits box box') :
    Increasing box' := by
  obtain ⟨sorted, bounded⟩ := increasing
  rcases commits with ⟨last, same⟩ | ⟨raised, reported⟩
  · rw [Increasing, same, last]
    exact ⟨sorted, bounded⟩
  · rw [Increasing, reported]
    constructor
    · exact List.Pairwise.cons (fun index member => (bounded index member).trans_lt raised) sorted
    · intro index member
      rcases List.mem_cons.mp member with rfl | former
      · exact le_refl _
      · exact (bounded index former).trans raised.le

theorem run_represents (actions : List (Action P)) :
    ∀ {box box' : BallotBox P} {state : Option (CommitWindow P)}, Represents box state →
      Increasing box → box.run actions = some box' →
      Represents box' (actions.foldl CommitWindow.step state) ∧ Increasing box' := by
  induction actions with
  | nil =>
      intro box box' state represents increasing ran
      obtain rfl := Option.some.inj ran
      exact ⟨represents, increasing⟩
  | cons action rest ih =>
      intro box box' state represents increasing ran
      obtain ⟨middle, stepped, ran⟩ := Option.bind_eq_some_iff.mp ran
      obtain ⟨represents, commits⟩ := represents.step stepped
      exact ih represents (increasing.commits commits) ran

/-- Calls of `commit_at`, one after the other. -/
def commitAll (box : BallotBox P) (calls : List (Nat × Nat × P)) : BallotBox P :=
  calls.foldl (fun box call => (box.commitAt call.1 call.2.1 call.2.2).2) box

theorem Pending.commitAll (calls : List (Nat × Nat × P)) :
    ∀ {box : BallotBox P} {window : CommitWindow P}, Pending box window →
      Pending (box.commitAll calls)
          (calls.foldl (fun window call => window.commitAt call.1 call.2.1 call.2.2) window) ∧
        Advances box (box.commitAll calls) := by
  induction calls with
  | nil => exact fun pending => ⟨pending, Or.inl ⟨rfl, rfl⟩⟩
  | cons call rest ih =>
      intro box window pending
      obtain ⟨pending, _, advances⟩ := pending.commitAt call.1 call.2.1 call.2.2
      obtain ⟨after, later⟩ := ih pending
      refine ⟨after, ?_⟩
      have below := pending.below
      have unfolded : box.commitAll (call :: rest) =
          (box.commitAt call.1 call.2.1 call.2.2).2.commitAll rest := rfl
      unfold Advances at advances later ⊢
      rw [unfolded]
      rcases advances with ⟨last, same⟩ | raised
      · rwa [last, same] at later
      · omega

theorem Pending.lastCommittedIndex_eq {first second : BallotBox P} (pending : Pending first window)
    (pending' : Pending second window) (advances : Advances box first)
    (advances' : Advances box second) (opened : window.first ≤ box.pendingIndex) :
    first.lastCommittedIndex = second.lastCommittedIndex := by
  obtain ⟨bounded, isGranted⟩ := pending.largest
  obtain ⟨bounded', isGranted'⟩ := pending'.largest
  rcases advances with ⟨last, same⟩ | raised
  · rcases advances' with ⟨last', _⟩ | raised'
    · rw [last, last']
    · have granted := isGranted' (opened.trans raised')
      have waiting := pending.waiting second.lastCommittedIndex
      exact absurd granted (waiting (by omega))
  · have granted := isGranted (opened.trans raised)
    rcases advances' with ⟨_, same'⟩ | raised'
    · exact absurd granted (pending'.waiting first.lastCommittedIndex (by omega))
    · exact le_antisymm (bounded' _ granted) (bounded _ (isGranted' (opened.trans raised')))

theorem Represents.commitAll_perm {state : Option (CommitWindow P)} (represents : Represents box state)
    {calls calls' : List (Nat × Nat × P)} (perm : calls.Perm calls') :
    (box.commitAll calls).lastCommittedIndex = (box.commitAll calls').lastCommittedIndex := by
  cases state with
  | none =>
      have closed (calls : List (Nat × Nat × P)) : box.commitAll calls = box := by
        induction calls with
        | nil => rfl
        | cons call rest ih =>
            have refused : (box.commitAt call.1 call.2.1 call.2.2).2 = box := by
              rw [BallotBox.commitAt, if_pos represents.1]
            exact (congrArg (fun box => BallotBox.commitAll box rest) refused).trans ih
      rw [closed, closed]
  | some window =>
      obtain ⟨pending, advances⟩ := Pending.commitAll calls represents
      obtain ⟨pending', advances'⟩ := Pending.commitAll calls' represents
      have same := perm.foldl_eq'
        (f := fun (window : CommitWindow P) call => window.commitAt call.1 call.2.1 call.2.2)
        (fun first _ second _ window => CommitWindow.commitAt_comm window _ _ _ _ _ _) window
      rw [same] at pending
      refine pending.lastCommittedIndex_eq pending' advances advances' ?_
      rw [CommitWindow.commitAll_first]
      exact represents.lower

/-- After any list of calls: what has been reported increases, the last committed
index is the largest one of the window with a quorum, and calls of `commit_at` may
come in any order. -/
theorem commits_quorumPrefix {actions : List (Action P)} {box : BallotBox P}
    (ran : ({} : BallotBox P).run actions = some box) :
    box.committed.Pairwise (fun later former => former < later) ∧
      (∀ window, CommitWindow.after actions = some window →
        window.LargestGranted box.lastCommittedIndex) ∧
      ∀ calls calls' : List (Nat × Nat × P), calls.Perm calls' →
        (box.commitAll calls).lastCommittedIndex = (box.commitAll calls').lastCommittedIndex := by
  have start : Represents ({} : BallotBox P) none := ⟨rfl, rfl⟩
  have empty : Increasing ({} : BallotBox P) :=
    ⟨List.Pairwise.nil, fun index member => absurd member List.not_mem_nil⟩
  obtain ⟨represents, increasing⟩ := run_represents actions start empty ran
  refine ⟨increasing.1, ?_, fun calls calls' perm => represents.commitAll_perm perm⟩
  intro window isWindow
  rw [CommitWindow.after] at isWindow
  rw [isWindow] at represents
  exact Pending.largest represents

def threePeerCalls : List (Action Nat) :=
  [.resetPendingIndex 1, .appendPendingTask (.ofList [1, 2, 3]) none,
    .appendPendingTask (.ofList [1, 2]) (some (.ofList [1, 2, 3])), .commitAt 1 1 1,
    .commitAt 1 2 2, .commitAt 2 5 1]

theorem commits_quorumPrefix_threePeers :
    ∃ box, ({} : BallotBox Nat).run threePeerCalls = some box ∧ box.committed = [1] ∧
      ∀ window, CommitWindow.after threePeerCalls = some window →
        window.LargestGranted box.lastCommittedIndex :=
  ⟨_, rfl, rfl, (commits_quorumPrefix (show _ = some _ from rfl)).2.1⟩

end BallotBox

end QuorumKit
