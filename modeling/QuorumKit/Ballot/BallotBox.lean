/-
The ballot box, `BallotBox` of `braft/ballot_box.cpp`.

The box holds one ballot for each pending index of a leader.  `commit_at` grants
the ballots of a range and commits up to the last one that is granted.  A failing
`CHECK` ends the process.
-/

import QuorumKit.Ballot.Ballot
import QuorumKit.Errno

namespace QuorumKit

structure BallotBox (P : Type) where
  lastCommittedIndex : Nat := 0
  pendingIndex : Nat := 0
  pendingMetaQueue : List (Ballot P) := []
  /-- The arguments of `on_committed`, newest first. -/
  committed : List Nat := []
deriving DecidableEq

namespace BallotBox

variable {P : Type} [DecidableEq P]

/-- The loop of `commit_at` over the ballots from `logIndex` on. -/
def grantBallots (peer : P) (lastLogIndex : Nat) :
    List (Ballot P) → Nat → PosHint → Nat → Nat × List (Ballot P)
  | [], _, _, lastCommittedIndex => (lastCommittedIndex, [])
  | ballot :: rest, logIndex, posHint, lastCommittedIndex =>
      if lastLogIndex < logIndex then (lastCommittedIndex, ballot :: rest)
      else
        match ballot.grant peer posHint with
        | (posHint, ballot) =>
            match grantBallots peer lastLogIndex rest (logIndex + 1) posHint
                (if ballot.granted then logIndex else lastCommittedIndex) with
            | (lastCommittedIndex, rest) => (lastCommittedIndex, ballot :: rest)

def report (box : BallotBox P) (lastCommittedIndex : Nat) : BallotBox P :=
  { box with
    lastCommittedIndex := lastCommittedIndex
    committed := lastCommittedIndex :: box.committed }

def commitAt (box : BallotBox P) (firstLogIndex lastLogIndex : Nat) (peer : P) :
    Int × BallotBox P :=
  if box.pendingIndex = 0 then (EINVAL, box)
  else if lastLogIndex < box.pendingIndex then (0, box)
  else if box.pendingIndex + box.pendingMetaQueue.length ≤ lastLogIndex then (ERANGE, box)
  else
    let startAt := max box.pendingIndex firstLogIndex
    let skipped := startAt - box.pendingIndex
    match grantBallots peer lastLogIndex (box.pendingMetaQueue.drop skipped) startAt {} 0 with
    | (lastCommittedIndex, granted) =>
        let queue := box.pendingMetaQueue.take skipped ++ granted
        if lastCommittedIndex = 0 then (0, { box with pendingMetaQueue := queue })
        else
          (0, { box with
            pendingMetaQueue := queue.drop (lastCommittedIndex + 1 - box.pendingIndex)
            pendingIndex := lastCommittedIndex + 1 }.report lastCommittedIndex)

def clearPendingTasks (box : BallotBox P) : BallotBox P :=
  { box with pendingMetaQueue := [], pendingIndex := 0 }

def resetPendingIndex (box : BallotBox P) (newPendingIndex : Nat) : Option (BallotBox P) :=
  if box.pendingIndex = 0 ∧ box.pendingMetaQueue = [] ∧
      box.lastCommittedIndex < newPendingIndex then
    some { box with pendingIndex := newPendingIndex }
  else none

def appendPendingTask (box : BallotBox P) (conf : Configuration P)
    (oldConf : Option (Configuration P)) : Option (BallotBox P) :=
  if 0 < box.pendingIndex then
    some { box with pendingMetaQueue := box.pendingMetaQueue ++ [Ballot.init conf oldConf] }
  else none

def setLastCommittedIndex (box : BallotBox P) (lastCommittedIndex : Nat) :
    Option (Int × BallotBox P) :=
  if box.pendingIndex ≠ 0 ∨ box.pendingMetaQueue ≠ [] then
    if lastCommittedIndex < box.pendingIndex then some (-1, box) else none
  else if lastCommittedIndex < box.lastCommittedIndex then some (EINVAL, box)
  else if box.lastCommittedIndex < lastCommittedIndex then some (0, box.report lastCommittedIndex)
  else some (0, box)

inductive Action (P : Type) where
  | resetPendingIndex (newPendingIndex : Nat)
  | appendPendingTask (conf : Configuration P) (oldConf : Option (Configuration P))
  | commitAt (firstLogIndex lastLogIndex : Nat) (peer : P)
  | clearPendingTasks
  | setLastCommittedIndex (lastCommittedIndex : Nat)

def step (box : BallotBox P) : Action P → Option (BallotBox P)
  | .resetPendingIndex newPendingIndex => box.resetPendingIndex newPendingIndex
  | .appendPendingTask conf oldConf => box.appendPendingTask conf oldConf
  | .commitAt firstLogIndex lastLogIndex peer =>
      some (box.commitAt firstLogIndex lastLogIndex peer).2
  | .clearPendingTasks => some box.clearPendingTasks
  | .setLastCommittedIndex lastCommittedIndex =>
      (box.setLastCommittedIndex lastCommittedIndex).map Prod.snd

/-- The box after a list of calls, `none` when one of them ends the process. -/
def run (box : BallotBox P) (actions : List (Action P)) : Option (BallotBox P) :=
  actions.foldlM step box

end BallotBox

end QuorumKit
