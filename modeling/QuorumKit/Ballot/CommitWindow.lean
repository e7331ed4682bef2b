/-
What a ballot box commits.

A pending window is read off the calls alone: the indexes that were appended since
the last reset, each with the peers that have acknowledged it.  The box represents
the window, and its last committed index is the largest one with a quorum.
-/

import Mathlib.Data.List.Forall2
import QuorumKit.Ballot.BallotBox

namespace QuorumKit

variable {P : Type} [DecidableEq P]

structure PendingVote (P : Type) where
  conf : Configuration P
  oldConf : Option (Configuration P)
  voters : Finset P := ∅

namespace PendingVote

def Granted (vote : PendingVote P) : Prop :=
  Quorum vote.conf.peers.toFinset (vote.oldConf.map (fun old => old.peers.toFinset)) vote.voters

def acked (vote : PendingVote P) (peer : P) : PendingVote P :=
  { vote with voters := insert peer vote.voters }

theorem Granted.acked {vote : PendingVote P} (granted : vote.Granted) (peer : P) :
    (vote.acked peer).Granted :=
  Quorum.mono granted (Finset.subset_insert peer vote.voters)

theorem acked_comm (vote : PendingVote P) (first second : P) :
    (vote.acked first).acked second = (vote.acked second).acked first := by
  simp only [PendingVote.acked, Finset.insert_comm]

/-- The votes from index `start` on, after an acknowledgement of a range. -/
def ack (peer : P) (firstLogIndex lastLogIndex start : Nat) (votes : List (PendingVote P)) :
    List (PendingVote P) :=
  votes.mapIdx (fun position vote =>
    if firstLogIndex ≤ start + position ∧ start + position ≤ lastLogIndex then vote.acked peer
    else vote)

variable {peer : P} {firstLogIndex lastLogIndex start : Nat} {votes : List (PendingVote P)}

theorem ack_length : (ack peer firstLogIndex lastLogIndex start votes).length = votes.length :=
  List.length_mapIdx

theorem ack_getElem? (position : Nat) :
    (ack peer firstLogIndex lastLogIndex start votes)[position]? =
      votes[position]?.map (fun vote =>
        if firstLogIndex ≤ start + position ∧ start + position ≤ lastLogIndex then vote.acked peer
        else vote) :=
  List.getElem?_mapIdx

theorem ack_cons (vote : PendingVote P) :
    ack peer firstLogIndex lastLogIndex start (vote :: votes) =
      (if firstLogIndex ≤ start ∧ start ≤ lastLogIndex then vote.acked peer else vote) ::
        ack peer firstLogIndex lastLogIndex (start + 1) votes := by
  unfold ack
  rw [List.mapIdx_cons]
  simp only [Nat.add_zero, Nat.add_assoc, Nat.add_comm 1]

theorem ack_drop (skipped : Nat) :
    (ack peer firstLogIndex lastLogIndex start votes).drop skipped =
      ack peer firstLogIndex lastLogIndex (start + skipped) (votes.drop skipped) := by
  apply List.ext_getElem?
  intro position
  rw [List.getElem?_drop, ack_getElem?, ack_getElem?, List.getElem?_drop, Nat.add_assoc]

theorem ack_take (taken : Nat) :
    (ack peer firstLogIndex lastLogIndex start votes).take taken =
      ack peer firstLogIndex lastLogIndex start (votes.take taken) := by
  apply List.ext_getElem?
  intro position
  rw [List.getElem?_take, ack_getElem?, ack_getElem?, List.getElem?_take]
  split_ifs <;> rfl

theorem ack_outside
    (outside : ∀ position, position < votes.length →
      start + position < firstLogIndex ∨ lastLogIndex < start + position) :
    ack peer firstLogIndex lastLogIndex start votes = votes := by
  apply List.ext_getElem?
  intro position
  rw [ack_getElem?]
  by_cases inside : position < votes.length
  · have apart := outside position inside
    simp only [show ¬ (firstLogIndex ≤ start + position ∧ start + position ≤ lastLogIndex) by omega,
      if_false, Option.map_id']
  · rw [List.getElem?_eq_none (not_lt.mp inside)]
    rfl

theorem ack_comm (other : P) (firstLogIndex' lastLogIndex' : Nat) :
    ack peer firstLogIndex lastLogIndex start
        (ack other firstLogIndex' lastLogIndex' start votes) =
      ack other firstLogIndex' lastLogIndex' start
        (ack peer firstLogIndex lastLogIndex start votes) := by
  apply List.ext_getElem?
  intro position
  simp only [ack_getElem?, Option.map_map]
  congr 1
  funext vote
  simp only [Function.comp_apply]
  split_ifs <;> first | rfl | exact acked_comm _ _ _

end PendingVote

structure CommitWindow (P : Type) where
  first : Nat
  votes : List (PendingVote P) := []

namespace CommitWindow

def Granted (window : CommitWindow P) (index : Nat) : Prop :=
  window.first ≤ index ∧ ∃ vote ∈ window.votes[index - window.first]?, vote.Granted

def commitAt (window : CommitWindow P) (firstLogIndex lastLogIndex : Nat) (peer : P) :
    CommitWindow P :=
  if lastLogIndex < window.first + window.votes.length then
    { window with
      votes := PendingVote.ack peer firstLogIndex lastLogIndex window.first window.votes }
  else window

def step (window : Option (CommitWindow P)) : BallotBox.Action P → Option (CommitWindow P)
  | .resetPendingIndex newPendingIndex => some { first := newPendingIndex }
  | .appendPendingTask conf oldConf =>
      window.map (fun window =>
        { window with votes := window.votes ++ [{ conf := conf, oldConf := oldConf }] })
  | .commitAt firstLogIndex lastLogIndex peer =>
      window.map (fun window => window.commitAt firstLogIndex lastLogIndex peer)
  | .clearPendingTasks => none
  | .setLastCommittedIndex _ => window

def after (actions : List (BallotBox.Action P)) : Option (CommitWindow P) :=
  actions.foldl step none

/-- The index is the largest one with a quorum, or no index of the window has one. -/
def LargestGranted (window : CommitWindow P) (lastCommittedIndex : Nat) : Prop :=
  (∀ index, window.Granted index → index ≤ lastCommittedIndex) ∧
    (window.first ≤ lastCommittedIndex → window.Granted lastCommittedIndex)

variable {window : CommitWindow P} {firstLogIndex lastLogIndex index : Nat} {peer : P}

@[simp] theorem commitAt_first :
    (window.commitAt firstLogIndex lastLogIndex peer).first = window.first := by
  unfold commitAt
  split <;> rfl

@[simp] theorem commitAt_length :
    (window.commitAt firstLogIndex lastLogIndex peer).votes.length = window.votes.length := by
  unfold commitAt
  split
  · exact PendingVote.ack_length
  · rfl

theorem commitAll_first (calls : List (Nat × Nat × P)) : ∀ window : CommitWindow P,
    (calls.foldl (fun window call => window.commitAt call.1 call.2.1 call.2.2) window).first =
      window.first := by
  induction calls with
  | nil => exact fun _ => rfl
  | cons call rest ih => exact fun window => (ih _).trans commitAt_first

theorem commitAt_votes (inside : lastLogIndex < window.first + window.votes.length) :
    (window.commitAt firstLogIndex lastLogIndex peer).votes =
      PendingVote.ack peer firstLogIndex lastLogIndex window.first window.votes := by
  rw [commitAt, if_pos inside]

theorem Granted.commitAt (granted : window.Granted index) :
    (window.commitAt firstLogIndex lastLogIndex peer).Granted index := by
  unfold CommitWindow.commitAt
  split_ifs
  · obtain ⟨above, vote, found, granted⟩ := granted
    rw [Option.mem_def] at found
    unfold Granted
    simp only [PendingVote.ack_getElem?, found]
    refine ⟨above, _, rfl, ?_⟩
    split_ifs
    · exact granted.acked peer
    · exact granted
  · exact granted

theorem Granted.of_commitAt
    (granted : (window.commitAt firstLogIndex lastLogIndex peer).Granted index)
    (outside : index < firstLogIndex ∨ lastLogIndex < index) : window.Granted index := by
  unfold CommitWindow.commitAt at granted
  split_ifs at granted
  · obtain ⟨above, vote, found, granted⟩ := granted
    rw [Option.mem_def] at found
    simp only [PendingVote.ack_getElem?] at found above
    rw [show window.first + (index - window.first) = index by omega] at found
    obtain ⟨former, isFormer, rfl⟩ := Option.map_eq_some_iff.mp found
    rw [if_neg (by omega)] at granted
    exact ⟨above, former, isFormer, granted⟩
  · exact granted

theorem granted_iff_drop {start position : Nat} (lower : window.first ≤ start) :
    window.Granted (start + position) ↔
      ∃ vote, (window.votes.drop (start - window.first))[position]? = some vote ∧ vote.Granted := by
  unfold Granted
  rw [List.getElem?_drop,
    show start + position - window.first = start - window.first + position by omega]
  constructor
  · intro granted
    exact granted.2
  · intro granted
    exact ⟨by omega, granted⟩

theorem commitAt_comm (window : CommitWindow P) (firstLogIndex lastLogIndex : Nat) (peer : P)
    (firstLogIndex' lastLogIndex' : Nat) (peer' : P) :
    (window.commitAt firstLogIndex lastLogIndex peer).commitAt firstLogIndex' lastLogIndex' peer' =
      (window.commitAt firstLogIndex' lastLogIndex' peer').commitAt firstLogIndex lastLogIndex
        peer := by
  unfold commitAt
  by_cases inside : lastLogIndex < window.first + window.votes.length
  · by_cases inside' : lastLogIndex' < window.first + window.votes.length
    · simp only [inside, inside', if_true, PendingVote.ack_length]
      rw [PendingVote.ack_comm]
    · simp only [inside, inside', if_true, if_false, PendingVote.ack_length]
  · by_cases inside' : lastLogIndex' < window.first + window.votes.length
    · simp only [inside, inside', if_true, if_false, PendingVote.ack_length]
    · simp only [inside, inside', if_false]

end CommitWindow

namespace BallotBox

variable {peer : P} {firstLogIndex lastLogIndex : Nat}

def Counted (ballot : Ballot P) (vote : PendingVote P) : Prop :=
  Ballot.Counts vote.conf vote.oldConf vote.voters ballot

theorem Counted.granted_iff {ballot : Ballot P} {vote : PendingVote P}
    (counted : Counted ballot vote) : ballot.granted = true ↔ vote.Granted :=
  Ballot.Counts.granted_iff counted

/-- The index is that of the last granted vote up to an index, `otherwise` without one. -/
def LatestGranted (votes : List (PendingVote P)) (start lastLogIndex otherwise index : Nat) :
    Prop :=
  (index = otherwise ∧ ∀ position vote, votes[position]? = some vote →
      start + position ≤ lastLogIndex → ¬ vote.Granted) ∨
    ∃ position vote, votes[position]? = some vote ∧ index = start + position ∧
      start + position ≤ lastLogIndex ∧ vote.Granted ∧
      ∀ later vote', position < later → votes[later]? = some vote' →
        start + later ≤ lastLogIndex → ¬ vote'.Granted

theorem LatestGranted.cons {vote : PendingVote P} {votes : List (PendingVote P)}
    {start otherwise index : Nat} [Decidable vote.Granted] (inside : start ≤ lastLogIndex)
    (latest : LatestGranted votes (start + 1) lastLogIndex
      (if vote.Granted then start else otherwise) index) :
    LatestGranted (vote :: votes) start lastLogIndex otherwise index := by
  rcases latest with ⟨isIndex, none⟩ | ⟨position, other, found, isIndex, upper, granted, none⟩
  · have rest : ∀ later vote', 0 < later → (vote :: votes)[later]? = some vote' →
        start + later ≤ lastLogIndex → ¬ vote'.Granted := by
      intro later vote' positive found upper
      obtain ⟨position, rfl⟩ := Nat.exists_eq_succ_of_ne_zero positive.ne'
      exact none position vote' found (by omega)
    split_ifs at isIndex with granted
    · exact Or.inr ⟨0, vote, rfl, isIndex, inside, granted, rest⟩
    · refine Or.inl ⟨isIndex, ?_⟩
      intro position other found upper
      cases position with
      | zero =>
          obtain rfl := Option.some.inj found
          exact granted
      | succ position => exact rest (position + 1) other (Nat.succ_pos _) found upper
  · refine Or.inr ⟨position + 1, other, found, by omega, by omega, granted, ?_⟩
    intro later vote' above found upper
    obtain ⟨later, rfl⟩ := Nat.exists_eq_succ_of_ne_zero (show later ≠ 0 by omega)
    exact none later vote' (by omega) found (by omega)

theorem grantBallots_spec (peer : P) (firstLogIndex lastLogIndex : Nat)
    {ballots : List (Ballot P)} {votes : List (PendingVote P)}
    (counted : List.Forall₂ Counted ballots votes) :
    ∀ (logIndex : Nat) (posHint : PosHint) (otherwise : Nat), firstLogIndex ≤ logIndex →
      List.Forall₂ Counted
          (grantBallots peer lastLogIndex ballots logIndex posHint otherwise).2
          (PendingVote.ack peer firstLogIndex lastLogIndex logIndex votes) ∧
        LatestGranted (PendingVote.ack peer firstLogIndex lastLogIndex logIndex votes) logIndex
          lastLogIndex otherwise
          (grantBallots peer lastLogIndex ballots logIndex posHint otherwise).1 := by
  classical
  induction counted with
  | nil =>
      intro logIndex posHint otherwise _
      refine ⟨List.Forall₂.nil, Or.inl ⟨rfl, ?_⟩⟩
      intro position vote found
      simp [PendingVote.ack] at found
  | @cons ballot vote ballots votes head rest ih =>
      intro logIndex posHint otherwise lower
      unfold grantBallots
      by_cases done : lastLogIndex < logIndex
      · have untouched : PendingVote.ack peer firstLogIndex lastLogIndex logIndex (vote :: votes) =
            vote :: votes :=
          PendingVote.ack_outside (fun position _ => Or.inr (by omega))
        rw [if_pos done, untouched]
        refine ⟨List.Forall₂.cons head rest, Or.inl ⟨rfl, ?_⟩⟩
        intro position other _ upper
        omega
      · have granted : Counted (ballot.grant peer posHint).2 (vote.acked peer) :=
          Ballot.Counts.grant head peer posHint
        obtain ⟨counted, latest⟩ := ih (logIndex + 1) (ballot.grant peer posHint).1
          (if (ballot.grant peer posHint).2.granted then logIndex else otherwise) (by omega)
        rw [if_neg done, PendingVote.ack_cons, if_pos ⟨lower, not_lt.mp done⟩]
        refine ⟨List.Forall₂.cons granted counted, LatestGranted.cons (not_lt.mp done) ?_⟩
        have test := if_congr granted.granted_iff (Eq.refl logIndex) (Eq.refl otherwise)
        rw [← test]
        exact latest

end BallotBox

end QuorumKit
