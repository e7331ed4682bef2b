/-
What the history of a group records, and how it grows.

Leaders append to their logs, and nothing else that is recorded changes.  So what was
issued by a leader, acknowledged or committed stays so, and a prefix that a later leader
has not had is never needed again.
-/

import QuorumKit.Group.Group
import QuorumKit.Group.LogMerge

namespace QuorumKit

namespace History

variable {P D : Type}

def Issued (history : History P D) (term : Nat) (held : List (LogEntry P D)) : Prop :=
  ∃ reign, history.reigns term = some reign ∧ held <+: reign.log

/-- The server has stored this prefix when it answered the leader of the term. -/
def Acked (history : History P D) (server : P) (term : Nat) (held : List (LogEntry P D)) : Prop :=
  ∃ ack ∈ history.acknowledgements, ack.server = server ∧ ack.term = term ∧ held <+: ack.entries

/-- The entries up to the index are committed in a term that is not later. -/
def Settled (history : History P D) (term : Nat) (entries : List (LogEntry P D)) (index : Nat) :
    Prop :=
  index = 0 ∨ ∃ made ∈ history.committed, made.1 ≤ term ∧ index ≤ made.2.length ∧
    made.2.take index <+: entries

structure Grows (former later : History P D) : Prop where
  reigns : LeaderLogs.Grown former.reigns later.reigns
  count : former.count ≤ later.count
  votes : former.votes ⊆ later.votes
  acknowledgements : former.acknowledgements ⊆ later.acknowledgements
  committed : former.committed ⊆ later.committed

variable {former later history : History P D} {term index : Nat}
  {held entries : List (LogEntry P D)} {server : P}

theorem Grows.refl (history : History P D) : history.Grows history :=
  ⟨fun _ reign isReign => ⟨[], by rw [isReign, List.append_nil]⟩, le_refl _,
    List.Subset.refl _, List.Subset.refl _, List.Subset.refl _⟩

theorem Grows.trans {last : History P D} (first : former.Grows later) (second : later.Grows last) :
    former.Grows last := by
  refine ⟨?_, first.count.trans second.count, List.Subset.trans first.votes second.votes,
    List.Subset.trans first.acknowledgements second.acknowledgements,
    List.Subset.trans first.committed second.committed⟩
  intro term reign isReign
  obtain ⟨added, isLater⟩ := first.reigns term reign isReign
  obtain ⟨more, isLast⟩ := second.reigns term _ isLater
  refine ⟨added ++ more, ?_⟩
  rw [isLast, List.append_assoc]

theorem Grows.opened (grows : former.Grows later) (free : later.reigns term = none) :
    former.reigns term = none := by
  cases isReign : former.reigns term with
  | none => rfl
  | some reign =>
      obtain ⟨added, isLater⟩ := grows.reigns term reign isReign
      rw [isLater] at free
      contradiction

theorem Issued.grows (issued : former.Issued term held) (grows : former.Grows later) :
    later.Issued term held := by
  obtain ⟨reign, isReign, prefixes⟩ := issued
  obtain ⟨added, isLater⟩ := grows.reigns term reign isReign
  exact ⟨_, isLater, prefixes.trans (reign.log_prefix added)⟩

theorem Issued.comparable (issued : history.Issued term held)
    (issued' : history.Issued term entries) : held <+: entries ∨ entries <+: held := by
  obtain ⟨reign, isReign, prefixes⟩ := issued
  obtain ⟨reign', isReign', prefixes'⟩ := issued'
  rw [isReign] at isReign'
  obtain rfl := Option.some.inj isReign'
  exact List.prefix_or_prefix_of_prefix prefixes prefixes'

theorem Acked.grows (acked : former.Acked server term held) (grows : former.Grows later) :
    later.Acked server term held := by
  obtain ⟨ack, member, rest⟩ := acked
  exact ⟨ack, grows.acknowledgements member, rest⟩

theorem Settled.grows (settled : former.Settled term entries index) (grows : former.Grows later) :
    later.Settled term entries index := by
  rcases settled with isZero | ⟨made, member, rest⟩
  · exact Or.inl isZero
  · exact Or.inr ⟨made, grows.committed member, rest⟩

theorem Settled.later_term (settled : history.Settled term entries index) {term' : Nat}
    (notEarlier : term ≤ term') : history.Settled term' entries index := by
  rcases settled with isZero | ⟨made, member, early, rest⟩
  · exact Or.inl isZero
  · exact Or.inr ⟨made, member, early.trans notEarlier, rest⟩

theorem Settled.inside (settled : history.Settled term entries index) : index ≤ entries.length := by
  rcases settled with isZero | ⟨made, _, _, long, prefixes⟩
  · omega
  · have shorter := prefixes.length_le
    rw [List.length_take_of_le long] at shorter
    exact shorter

theorem Settled.smaller (settled : history.Settled term entries index) {index' : Nat}
    (below : index' ≤ index) : history.Settled term entries index' := by
  rcases settled with isZero | ⟨made, member, early, long, prefixes⟩
  · exact Or.inl (by omega)
  · refine Or.inr ⟨made, member, early, below.trans long, ?_⟩
    refine List.IsPrefix.trans ?_ prefixes
    rw [← Nat.min_eq_left below, ← List.take_take]
    exact List.take_prefix _ _

theorem grows_castVote (history : History P D) (server : P) (term : Nat)
    (entries : List (LogEntry P D)) : history.Grows (history.castVote server term entries) :=
  { Grows.refl history with votes := List.subset_cons_self _ _ }

theorem grows_lead (server : P) (entries : List (LogEntry P D))
    (free : history.reigns term = none) : history.Grows (history.lead server term entries) := by
  have cast := grows_castVote history server term entries
  refine ⟨?_, Nat.le_succ _, cast.votes, cast.acknowledgements, cast.committed⟩
  intro other reign isReign
  refine ⟨[], ?_⟩
  have apart : other ≠ term := by
    intro same
    rw [same, free] at isReign
    contradiction
  change Function.update history.reigns term _ other = _
  rw [Function.update_of_ne apart, List.append_nil]
  exact isReign

theorem grows_extend (history : History P D) (term : Nat) (entries : List (LogEntry P D)) :
    history.Grows (history.extend term entries) := by
  refine { Grows.refl history with reigns := ?_ }
  intro other reign isReign
  change ∃ added, Function.update history.reigns term _ other = _
  by_cases same : other = term
  · subst same
    refine ⟨entries, ?_⟩
    rw [Function.update_self, isReign]
    rfl
  · refine ⟨[], ?_⟩
    rw [Function.update_of_ne same, List.append_nil]
    exact isReign

end History

end QuorumKit
