/-
The log of a node after the entries of a leader.

Where the log of the leader and that of the follower agree before the entries, the
follower keeps what both logs have, and what it does not share with the leader is cut at
the first entry of another term.  The entries that it skips are the leader's.
-/

import QuorumKit.Group.ReplicaLog

namespace QuorumKit

variable {P D : Type}

/-- The follower's log `merged` after entries of the log `sent` up to `upTo`; `cut` is where
its former log ends. -/
structure Merged (former sent merged : List (LogEntry P D)) (upTo cut : Nat) : Prop where
  has : sent.take upTo <+: merged
  kept : ∀ held, held <+: former → held <+: sent → held <+: former.take cut
  between : ∀ version, former.take cut <+: version → version <+: merged →
    version <+: former ∨ version <+: sent

/-- Entries of one term at one position come behind the same entries. -/
def Matching (entries other : List (LogEntry P D)) : Prop :=
  ∀ (position : Nat) (entry entry' : LogEntry P D), entries[position]? = some entry →
    other[position]? = some entry' → entry.term = entry'.term →
    entries.take (position + 1) = other.take (position + 1)

namespace ReplicaLog

variable {log : ReplicaLog P D} {sent entries : List (LogEntry P D)} {previous : Nat}
  {done : AppendDone P D}

/-- The entries behind the first `previous` ones. -/
structure Slice (sent : List (LogEntry P D)) (previous : Nat) (entries : List (LogEntry P D)) :
    Prop where
  inside : previous ≤ sent.length
  slice : sent.take previous ++ entries <+: sent

theorem Slice.getElem? (slice : Slice sent previous entries) {position : Nat}
    {entry : LogEntry P D} (found : entries[position]? = some entry) :
    sent[previous + position]? = some entry := by
  apply LeaderLogs.getElem?_of_shorter slice.slice
  have length : (sent.take previous).length = previous := List.length_take_of_le slice.inside
  rw [List.getElem?_append_right (by omega), length, Nat.add_sub_cancel_left]
  exact found

theorem Slice.take (slice : Slice sent previous entries) :
    sent.take (previous + entries.length) = sent.take previous ++ entries := by
  have length : (sent.take previous ++ entries).length = previous + entries.length := by
    rw [List.length_append, List.length_take_of_le slice.inside]
  rw [← length]
  exact (List.prefix_iff_eq_take.mp slice.slice).symm

theorem Slice.upTo (slice : Slice sent previous entries) :
    previous + entries.length ≤ sent.length := by
  have shorter := slice.slice.length_le
  rw [List.length_append, List.length_take_of_le slice.inside] at shorter
  exact shorter

theorem Slice.drop (slice : Slice sent previous entries) {skipped : Nat}
    (few : skipped ≤ entries.length) :
    Slice sent (previous + skipped) (entries.drop skipped) := by
  have upTo := slice.upTo
  refine ⟨by omega, ?_⟩
  have whole := slice.take
  have front : sent.take (previous + skipped) = sent.take previous ++ entries.take skipped := by
    have shorter : sent.take (previous + skipped) =
        (sent.take (previous + entries.length)).take (previous + skipped) := by
      rw [List.take_take, Nat.min_eq_left (by omega)]
    rw [shorter, whole, List.take_append, List.length_take_of_le slice.inside,
      Nat.add_sub_cancel_left, List.take_of_length_le (by rw [List.length_take]; omega)]
  rw [front, List.append_assoc, List.take_append_drop]
  exact slice.slice

theorem termAt_inside {held : List (LogEntry P D)} {position : Nat} {entry : LogEntry P D}
    (found : held[position]? = some entry) : termAt held (position + 1) = entry.term := by
  rw [termAt_succ, found]
  rfl

theorem getElem?_of_termAt {held : List (LogEntry P D)} {position term : Nat} (positive : 0 < term)
    (same : termAt held (position + 1) = term) :
    ∃ entry, held[position]? = some entry ∧ entry.term = term := by
  rw [termAt_succ] at same
  cases found : held[position]? with
  | none =>
      rw [found] at same
      have same : 0 = term := same
      omega
  | some entry =>
      rw [found] at same
      exact ⟨entry, rfl, same⟩

structure Skips (held sent : List (LogEntry P D)) (previous : Nat)
    (entries rest : List (LogEntry P D)) (skipped : Nat) : Prop where
  few : skipped ≤ entries.length
  rest : rest = entries.drop skipped
  agrees : held.take (previous + skipped) = sent.take (previous + skipped)
  inside : previous + skipped ≤ held.length
  conflict : ∀ entry, entries[skipped]? = some entry →
    termAt held (previous + skipped + 1) ≠ entry.term

theorem skips {held : List (LogEntry P D)} (matching : Matching held sent)
    (positive : ∀ entry ∈ sent, 0 < entry.term) : ∀ {entries : List (LogEntry P D)} {previous : Nat},
    Slice sent previous entries → LogManager.Consecutive (previous + 1) entries →
    held.take previous = sent.take previous → previous ≤ held.length →
    ∃ skipped, Skips held sent previous entries
      (entries.dropWhile (fun entry => termAt held entry.id.index = entry.id.term)) skipped := by
  intro entries
  induction entries with
  | nil =>
      intro previous _ _ agrees inside
      exact ⟨0, le_refl _, rfl, agrees, inside, fun entry found => by simp at found⟩
  | cons front rest ih =>
      intro previous slice consecutive agrees inside
      have isFront : sent[previous]? = some front := slice.getElem? (show (front :: rest)[0]? = _ from rfl)
      have index : front.id.index = previous + 1 := consecutive 0 front rfl
      by_cases same : termAt held front.id.index = front.id.term
      · rw [List.dropWhile_cons, if_pos (decide_eq_true same)]
        rw [index] at same
        obtain ⟨entry, found, isTerm⟩ := getElem?_of_termAt
          (positive front (List.mem_of_getElem? isFront)) same
        have further := matching previous entry front found isFront isTerm
        have longer := (List.getElem?_eq_some_iff.mp found).1
        have behind : LogManager.Consecutive (previous + 1 + 1) rest := by
          intro position entry isEntry
          rw [consecutive (position + 1) entry isEntry]
          omega
        have tail := slice.drop (show 1 ≤ (front :: rest).length by rw [List.length_cons]; omega)
        obtain ⟨skipped, skips⟩ := ih tail behind further longer
        refine ⟨skipped + 1, ?_, ?_, ?_, ?_, ?_⟩
        · rw [List.length_cons]
          exact Nat.succ_le_succ skips.few
        · rw [List.drop_succ_cons]
          exact skips.rest
        · rw [show previous + (skipped + 1) = previous + 1 + skipped by omega]
          exact skips.agrees
        · rw [show previous + (skipped + 1) = previous + 1 + skipped by omega]
          exact skips.inside
        · rw [show previous + (skipped + 1) = previous + 1 + skipped by omega]
          exact skips.conflict
      · rw [List.dropWhile_cons, if_neg (by rwa [decide_eq_true_eq])]
        refine ⟨0, Nat.zero_le _, rfl, agrees, inside, ?_⟩
        intro entry found
        obtain rfl := Option.some.inj found
        rw [index] at same
        exact same

theorem Merged.of_take {held : List (LogEntry P D)} {upTo cut : Nat}
    (conflict : cut < held.length → ∃ entry entry', held[cut]? = some entry ∧
      sent[cut]? = some entry' ∧ entry.term ≠ entry'.term) :
    Merged held sent (sent.take upTo) upTo cut := by
  refine ⟨List.prefix_refl _, ?_, ?_⟩
  · intro common inHeld inSent
    by_cases inside : cut < held.length
    · obtain ⟨entry, entry', found, found', differs⟩ := conflict inside
      exact LeaderLogs.prefix_cut inHeld inSent found found' differs
    · rw [List.take_of_length_le (not_lt.mp inside)]
      exact inHeld
  · intro version _ below
    exact Or.inr (below.trans (List.take_prefix _ _))

theorem Merged.of_present {held : List (LogEntry P D)} {upTo : Nat} (has : sent.take upTo <+: held) :
    Merged held sent held upTo held.length := by
  refine ⟨has, ?_, fun version _ below => Or.inl below⟩
  intro common inHeld _
  rw [List.take_length]
  exact inHeld

theorem enqueue_added (log : ReplicaLog P D) (done : AppendDone P D)
    (remaining : List (LogEntry P D)) :
    Added log (log.enqueue done remaining) done log.entries.length remaining := by
  refine ⟨rfl, ?_, ?_, rfl, rfl⟩
  · rw [List.take_length]
    rfl
  · rw [if_neg (lt_irrefl _), List.nil_append, ← List.append_assoc]
    rfl

theorem appendEntries_leader (nonempty : entries ≠ [])
    (unassigned : ∀ entry ∈ entries, entry.id.index = 0) :
    log.appendEntries done entries =
      some (log.enqueue done (LogManager.assignIndexes log.entries.length entries)) := by
  obtain ⟨front, rest, rfl⟩ := List.exists_cons_of_ne_nil nonempty
  unfold appendEntries checkAndResolveConflict
  rw [List.head?_cons, List.getLast?_cons]
  simp only
  rw [if_pos (unassigned front List.mem_cons_self)]

structure Follows (log : ReplicaLog P D) (sent : List (LogEntry P D)) (previous : Nat)
    (entries : List (LogEntry P D)) : Prop where
  slice : Slice sent previous entries
  consecutive : LogManager.Consecutive (previous + 1) entries
  nonempty : entries ≠ []
  matching : Matching log.entries sent
  positive : ∀ entry ∈ sent, 0 < entry.term
  agrees : log.entries.take previous = sent.take previous
  reaches : previous ≤ log.entries.length
  applied : log.entries.take log.appliedIndex <+: sent
  appliedInside : log.appliedIndex ≤ log.entries.length

theorem Follows.ends (follows : Follows log sent previous entries) :
    ∃ front back, entries.head? = some front ∧ entries.getLast? = some back ∧
      front.id.index = previous + 1 ∧ back.id.index = previous + entries.length := by
  obtain ⟨front, rest, isEntries⟩ := List.exists_cons_of_ne_nil follows.nonempty
  have isFront : entries.head? = some front := by
    rw [isEntries]
    rfl
  obtain ⟨back, isBack⟩ : ∃ back, entries.getLast? = some back :=
    ⟨_, List.getLast?_eq_some_getLast follows.nonempty⟩
  have last := follows.consecutive.back isBack
  exact ⟨front, back, isFront, isBack, follows.consecutive.front isFront, by omega⟩

theorem Follows.above_applied (follows : Follows log sent previous entries) {position : Nat}
    {entry entry' : LogEntry P D} (found : log.entries[position]? = some entry)
    (found' : sent[position]? = some entry') (differs : entry.term ≠ entry'.term) :
    log.appliedIndex ≤ position := by
  have kept := LeaderLogs.prefix_cut (List.take_prefix log.appliedIndex log.entries)
    follows.applied found found' differs
  have short := kept.length_le
  have inside := follows.appliedInside
  rw [List.length_take, List.length_take] at short
  omega

/-- `check_and_resolve_conflict` cuts the log where it differs from that of the leader. -/
theorem unsafeTruncateSuffix_eq (follows : Follows log sent previous entries) {cut : Nat}
    (agrees : log.entries.take cut = sent.take cut) (inside : cut ≤ log.entries.length)
    (above : log.appliedIndex ≤ cut) :
    log.unsafeTruncateSuffix cut =
      some { log with
        entries := log.entries.take cut
        diskQueue := log.diskQueue ++ [.truncateSuffix cut] } := by
  unfold unsafeTruncateSuffix
  rw [if_neg (not_lt.mpr above)]
  simp only
  rw [if_neg]
  rintro ⟨positive, noTerm⟩
  obtain ⟨position, rfl⟩ := Nat.exists_eq_succ_of_ne_zero positive
  have found : (log.entries.take (position + 1))[position]? = some log.entries[position] := by
    rw [List.getElem?_take_of_lt (Nat.lt_succ_self _), List.getElem?_eq_getElem]
  have member : log.entries[position] ∈ sent := by
    rw [agrees] at found
    exact List.mem_of_mem_take (List.mem_of_getElem? found)
  rw [termAt_inside found] at noTerm
  have isPositive := follows.positive _ member
  omega

theorem appendEntries_follower (follows : Follows log sent previous entries)
    (done : AppendDone P D) :
    (previous + entries.length ≤ log.appliedIndex ∧
        log.appendEntries done entries =
          some { log with asyncClosures := log.asyncClosures ++ [(done, 0)] }) ∨
      ∃ after cut remaining, log.appendEntries done entries = some after ∧
        Added log after done cut remaining ∧
        Merged log.entries sent after.entries (previous + entries.length) cut := by
  obtain ⟨front, back, isFront, isBack, frontIndex, backIndex⟩ := follows.ends
  have reaches := follows.reaches
  have known : ¬ front.id.index = 0 := by omega
  have noGap : ¬ log.entries.length + 1 < front.id.index := by omega
  unfold appendEntries checkAndResolveConflict
  rw [isFront, isBack]
  simp only
  rw [if_neg known, if_neg noGap]
  by_cases isApplied : back.id.index ≤ log.appliedIndex
  · rw [if_pos isApplied]
    exact Or.inl ⟨by omega, rfl⟩
  rw [if_neg isApplied]
  refine Or.inr ?_
  by_cases atEnd : front.id.index = log.entries.length + 1
  · -- the entries go on where the log ends
    rw [if_pos atEnd]
    have isEnd : log.entries.length = previous := by omega
    refine ⟨_, log.entries.length, entries, rfl, enqueue_added log done entries, ?_⟩
    have whole : (log.enqueue done entries).entries = sent.take (previous + entries.length) := by
      rw [follows.slice.take, ← follows.agrees, ← isEnd, List.take_length]
      rfl
    rw [whole]
    exact Merged.of_take (fun inside => absurd inside (lt_irrefl _))
  rw [if_neg atEnd]
  obtain ⟨skipped, skips⟩ := skips follows.matching follows.positive follows.slice
    follows.consecutive follows.agrees follows.reaches
  have isRest := skips.rest
  generalize entries.dropWhile (fun entry => termAt log.entries entry.id.index = entry.id.term) =
    rest at isRest ⊢
  cases rest with
  | nil =>
      -- every entry is in the log
      have all : entries.length ≤ skipped := List.drop_eq_nil_iff.mp isRest.symm
      refine ⟨_, log.entries.length, [], rfl, enqueue_added log done [], ?_⟩
      have same : (log.enqueue done []).entries = log.entries := List.append_nil _
      rw [same]
      apply Merged.of_present
      rw [show previous + entries.length = previous + skipped by
        have few := skips.few
        omega, ← skips.agrees]
      exact List.take_prefix _ _
  | cons conflicting remaining =>
      have found : entries[skipped]? = some conflicting := by
        rw [← List.head?_drop, ← isRest]
        rfl
      have inSent := follows.slice.getElem? found
      have index : conflicting.id.index = previous + skipped + 1 := by
        rw [follows.consecutive skipped conflicting found]
        omega
      have goesOn : sent.take (previous + entries.length) =
          log.entries.take (previous + skipped) ++ conflicting :: remaining := by
        have tail := (follows.slice.drop skips.few).take
        rw [skips.agrees, isRest, ← tail, List.length_drop,
          show previous + skipped + (entries.length - skipped) = previous + entries.length by
            have few := skips.few
            omega]
      have inside := skips.inside
      simp only
      by_cases cuts : conflicting.id.index ≤ log.entries.length
      · rw [if_pos cuts, show conflicting.id.index - 1 = previous + skipped by omega]
        have isOld : log.entries[previous + skipped]? = some log.entries[previous + skipped] :=
          List.getElem?_eq_getElem (by omega)
        have differs : log.entries[previous + skipped].term ≠ conflicting.term := by
          rw [← termAt_inside isOld]
          exact skips.conflict conflicting found
        rw [unsafeTruncateSuffix_eq follows skips.agrees inside
          (follows.above_applied isOld inSent differs), Option.map_some]
        refine ⟨_, previous + skipped, conflicting :: remaining, rfl, ?_, ?_⟩
        · refine ⟨rfl, rfl, ?_, rfl, rfl⟩
          rw [if_pos (by omega)]
          simp only [enqueue, List.append_assoc]
        · rw [show (ReplicaLog.enqueue
              { log with
                entries := log.entries.take (previous + skipped)
                diskQueue := log.diskQueue ++ [.truncateSuffix (previous + skipped)] } done
              (conflicting :: remaining)).entries =
                sent.take (previous + entries.length) from goesOn.symm]
          exact Merged.of_take (fun _ => ⟨_, _, isOld, inSent, differs⟩)
      · -- the log ends before the first entry that it does not have
        rw [if_neg cuts]
        have isEnd : previous + skipped = log.entries.length := by omega
        refine ⟨_, log.entries.length, conflicting :: remaining, rfl,
          enqueue_added log done _, ?_⟩
        rw [isEnd, List.take_length] at goesOn
        rw [show (log.enqueue done (conflicting :: remaining)).entries =
          sent.take (previous + entries.length) from goesOn.symm]
        exact Merged.of_take (fun longer => absurd longer (lt_irrefl _))

end ReplicaLog

end QuorumKit
