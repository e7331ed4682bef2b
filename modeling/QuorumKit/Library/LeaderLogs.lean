/-
Logs that the leaders of different terms replicate.

Each term has one leader at most, which starts with the log that it was elected with and
only appends entries of its own term.  The entries of any other log are copied from such
logs, prefix by prefix, so two logs with an entry of the same term at the same position are
the same up to there.  What a quorum has acknowledged in a term is in the log of every
later leader: some voter had acknowledged it, and a candidate is not behind its voters.
-/

import Mathlib.Data.Finset.Basic

namespace QuorumKit

namespace LeaderLogs

variable {E S : Type}

theorem getElem?_of_shorter {short long : List E} (shorter : short <+: long) {position : Nat}
    {entry : E} (found : short[position]? = some entry) : long[position]? = some entry := by
  obtain ⟨rest, rfl⟩ := shorter
  rw [List.getElem?_append_left (List.getElem?_eq_some_iff.mp found).1]
  exact found

structure Reign (E : Type) where
  rank : Nat
  base : List E
  own : List E := []

def Reign.log (reign : Reign E) : List E := reign.base ++ reign.own

theorem Reign.base_prefix (reign : Reign E) : reign.base <+: reign.log :=
  List.prefix_append _ _

/-- Every prefix that ends with an entry is one of the leader of that entry's term. -/
def Traced (term : E → Nat) (reigns : Nat → Option (Reign E)) (bound : Nat) (log : List E) : Prop :=
  ∀ position entry, log[position]? = some entry →
    ∃ reign, reigns (term entry) = some reign ∧ reign.rank < bound ∧
      log.take (position + 1) <+: reign.log

structure Chronicle (term : E → Nat) (reigns : Nat → Option (Reign E)) : Prop where
  earlier : ∀ number reign, reigns number = some reign → ∀ entry ∈ reign.base, term entry < number
  own : ∀ number reign, reigns number = some reign → ∀ entry ∈ reign.own, term entry = number
  traced : ∀ number reign, reigns number = some reign → Traced term reigns reign.rank reign.base

variable {term : E → Nat} {reigns : Nat → Option (Reign E)} {bound : Nat} {log other : List E}

theorem Traced.mono (traced : Traced term reigns bound log) {bound' : Nat}
    (later : bound ≤ bound') : Traced term reigns bound' log := by
  intro position entry found
  obtain ⟨reign, isReign, before, matched⟩ := traced position entry found
  exact ⟨reign, isReign, before.trans_le later, matched⟩

theorem Traced.of_shorter (traced : Traced term reigns bound log) (shorter : other <+: log) :
    Traced term reigns bound other := by
  intro position entry found
  have inside : position < other.length := (List.getElem?_eq_some_iff.mp found).1
  obtain ⟨reign, isReign, before, matched⟩ :=
    traced position entry (getElem?_of_shorter shorter found)
  have same : other.take (position + 1) = log.take (position + 1) :=
    List.prefix_iff_eq_take.mp shorter ▸ by
      rw [List.take_take, Nat.min_eq_left (by omega)]
  rw [same]
  exact ⟨reign, isReign, before, matched⟩

theorem Traced.nil : Traced term reigns bound [] := by
  intro position entry found
  rw [List.getElem?_nil] at found
  contradiction

theorem Traced.matching (left : Traced term reigns bound log) {bound' : Nat}
    (right : Traced term reigns bound' other) {position : Nat} {entry entry' : E}
    (found : log[position]? = some entry) (found' : other[position]? = some entry')
    (same : term entry = term entry') :
    log.take (position + 1) = other.take (position + 1) := by
  obtain ⟨reign, isReign, _, matched⟩ := left position entry found
  obtain ⟨reign', isReign', _, matched'⟩ := right position entry' found'
  rw [same, isReign'] at isReign
  obtain rfl := Option.some.inj isReign
  have inside := (List.getElem?_eq_some_iff.mp found).1
  have inside' := (List.getElem?_eq_some_iff.mp found').1
  rw [List.prefix_iff_eq_take.mp matched, List.prefix_iff_eq_take.mp matched',
    List.length_take, List.length_take, Nat.min_eq_left (by omega), Nat.min_eq_left (by omega)]

/-- Leaders have appended to their logs, and there may be new ones. -/
def Grown (reigns reigns' : Nat → Option (Reign E)) : Prop :=
  ∀ number reign, reigns number = some reign → ∃ added,
    reigns' number = some { reign with own := reign.own ++ added }

variable {reigns' : Nat → Option (Reign E)}

theorem Reign.log_prefix (reign : Reign E) (added : List E) :
    reign.log <+: ({ reign with own := reign.own ++ added } : Reign E).log :=
  ⟨added, List.append_assoc _ _ _⟩

theorem Traced.grows (traced : Traced term reigns bound log) (grown : Grown reigns reigns') :
    Traced term reigns' bound log := by
  intro position entry found
  obtain ⟨reign, isReign, before, prefixes⟩ := traced position entry found
  obtain ⟨added, isLater⟩ := grown _ reign isReign
  exact ⟨_, isLater, before, prefixes.trans (reign.log_prefix added)⟩

theorem Chronicle.extend (chronicle : Chronicle term reigns) {number : Nat} {reign : Reign E}
    (isReign : reigns number = some reign) {added : List E} (own : ∀ entry ∈ added, term entry = number)
    (grown : Grown reigns reigns')
    (isLater : reigns' number = some { reign with own := reign.own ++ added })
    (others : ∀ other, other ≠ number → reigns' other = reigns other) : Chronicle term reigns' := by
  have former (other : Nat) (later : Reign E) (isOther : reigns' other = some later) :
      ∃ old, reigns other = some old ∧ later.base = old.base ∧ later.rank = old.rank ∧
        ∀ entry ∈ later.own, entry ∈ old.own ∨ other = number ∧ entry ∈ added := by
    by_cases same : other = number
    · subst same
      rw [isLater] at isOther
      obtain rfl := Option.some.inj isOther
      refine ⟨reign, isReign, rfl, rfl, ?_⟩
      exact fun entry member => (List.mem_append.mp member).imp_right (fun new => ⟨rfl, new⟩)
    · rw [others other same] at isOther
      exact ⟨later, isOther, rfl, rfl, fun entry member => Or.inl member⟩
  constructor
  · intro other later isOther
    obtain ⟨old, isOld, base, _, _⟩ := former other later isOther
    rw [base]
    exact chronicle.earlier other old isOld
  · intro other later isOther entry member
    obtain ⟨old, isOld, _, _, owns⟩ := former other later isOther
    rcases owns entry member with inOld | ⟨rfl, new⟩
    · exact chronicle.own other old isOld entry inOld
    · exact own entry new
  · intro other later isOther
    obtain ⟨old, isOld, base, rank, _⟩ := former other later isOther
    rw [base, rank]
    exact (chronicle.traced other old isOld).grows grown

theorem Chronicle.lead (chronicle : Chronicle term reigns) {number : Nat} {reign : Reign E}
    (fresh : reign.own = []) (earlier : ∀ entry ∈ reign.base, term entry < number)
    (traced : Traced term reigns reign.rank reign.base) (grown : Grown reigns reigns')
    (isReign : reigns' number = some reign)
    (others : ∀ other, other ≠ number → reigns' other = reigns other) : Chronicle term reigns' := by
  constructor
  · intro other later isOther
    by_cases same : other = number
    · subst same
      rw [isReign] at isOther
      exact Option.some.inj isOther ▸ earlier
    · rw [others other same] at isOther
      exact chronicle.earlier other later isOther
  · intro other later isOther
    by_cases same : other = number
    · subst same
      rw [isReign] at isOther
      rw [← Option.some.inj isOther, fresh]
      exact fun entry member => absurd member List.not_mem_nil
    · rw [others other same] at isOther
      exact chronicle.own other later isOther
  · intro other later isOther
    by_cases same : other = number
    · subst same
      rw [isReign] at isOther
      exact Option.some.inj isOther ▸ traced.grows grown
    · rw [others other same] at isOther
      exact (chronicle.traced other later isOther).grows grown

namespace Chronicle

variable (chronicle : Chronicle term reigns)

include chronicle

theorem le_of_mem {number : Nat} {reign : Reign E} (isReign : reigns number = some reign) {entry : E}
    (member : entry ∈ reign.log) : term entry ≤ number := by
  rcases List.mem_append.mp member with inBase | inOwn
  · exact (chronicle.earlier number reign isReign entry inBase).le
  · exact (chronicle.own number reign isReign entry inOwn).le

theorem traced_log {number : Nat} {reign : Reign E} (isReign : reigns number = some reign)
    (before : reign.rank < bound) : Traced term reigns bound reign.log := by
  intro position entry found
  by_cases inBase : position < reign.base.length
  · have inside : reign.base[position]? = some entry := by
      rw [Reign.log, List.getElem?_append_left inBase] at found
      exact found
    obtain ⟨former, isFormer, rank, matched⟩ :=
      chronicle.traced number reign isReign position entry inside
    refine ⟨former, isFormer, rank.trans before, ?_⟩
    rw [Reign.log, List.take_append_of_le_length (by omega)]
    exact matched
  · have inOwn : entry ∈ reign.own := by
      rw [Reign.log, List.getElem?_append_right (not_lt.mp inBase)] at found
      exact List.mem_of_getElem? found
    rw [chronicle.own number reign isReign entry inOwn]
    exact ⟨reign, isReign, before, List.take_prefix _ _⟩

theorem ascending (traced : Traced term reigns bound log) {position later : Nat} {entry entry' : E}
    (found : log[position]? = some entry) (found' : log[later]? = some entry')
    (before : position ≤ later) : term entry ≤ term entry' := by
  obtain ⟨reign, isReign, _, matched⟩ := traced later entry' found'
  refine chronicle.le_of_mem isReign (matched.subset ?_)
  refine List.mem_of_getElem? (i := position) ?_
  rw [List.getElem?_take_of_lt (by omega)]
  exact found

end Chronicle

def lastTerm (term : E → Nat) (log : List E) : Nat := (log.getLast?.map term).getD 0

/-- A vote for a candidate with the log `other`. -/
def UpToDate (term : E → Nat) (log other : List E) : Prop :=
  lastTerm term log < lastTerm term other ∨
    lastTerm term log = lastTerm term other ∧ log.length ≤ other.length

theorem UpToDate.refl (log : List E) : UpToDate term log log := Or.inr ⟨rfl, le_refl _⟩

theorem le_lastTerm (chronicle : Chronicle term reigns) (traced : Traced term reigns bound log)
    {entry : E} (member : entry ∈ log) : term entry ≤ lastTerm term log := by
  obtain ⟨position, found⟩ := List.mem_iff_getElem?.mp member
  have inside := (List.getElem?_eq_some_iff.mp found).1
  unfold lastTerm
  rw [List.getLast?_eq_getElem?]
  cases isLast : log[log.length - 1]? with
  | none =>
      have outside := List.getElem?_eq_none_iff.mp isLast
      omega
  | some last => exact chronicle.ascending traced found isLast (by omega)

def Disowned (reigns : Nat → Option (Reign E)) (bound number : Nat) (held : List E) : Prop :=
  ∃ later reign, number < later ∧ reigns later = some reign ∧ reign.rank < bound ∧
    ¬ held <+: reign.base

theorem Disowned.mono {number : Nat} {held : List E} (disowned : Disowned reigns bound number held)
    {bound' : Nat} (later : bound ≤ bound') : Disowned reigns bound' number held := by
  obtain ⟨term, reign, above, isReign, before, lacks⟩ := disowned
  exact ⟨term, reign, above, isReign, before.trans_le later, lacks⟩

theorem Disowned.grows {number : Nat} {held : List E} (disowned : Disowned reigns bound number held)
    {reigns' : Nat → Option (Reign E)} (grown : Grown reigns reigns') :
    Disowned reigns' bound number held := by
  obtain ⟨term, reign, above, isReign, before, lacks⟩ := disowned
  obtain ⟨added, isLater⟩ := grown term reign isReign
  exact ⟨term, _, above, isLater, before, lacks⟩

theorem prefix_cut {held sent : List E} (holds : held <+: log) (leads : held <+: sent)
    {position : Nat} {entry entry' : E} (found : log[position]? = some entry)
    (found' : sent[position]? = some entry') (differs : term entry ≠ term entry') :
    held <+: log.take position := by
  have short : held.length ≤ position := by
    by_contra long
    rw [not_le] at long
    have here : held[position]? = some held[position] := List.getElem?_eq_getElem long
    have inLog := getElem?_of_shorter holds here
    have inSent := getElem?_of_shorter leads here
    rw [found] at inLog
    rw [found'] at inSent
    exact differs (congrArg term ((Option.some.inj inLog).trans (Option.some.inj inSent).symm))
  rw [List.prefix_take_iff]
  exact ⟨holds, short⟩

/-- A follower of a leader keeps what it has acknowledged before, unless the leader does
not have it. -/
theorem kept_or_disowned {number later : Nat} {former reign : Reign E} {held : List E}
    (isFormer : reigns number = some former) (acknowledged : held <+: former.log)
    (notOlder : number ≤ later) (isReign : reigns later = some reign) (before : reign.rank < bound) :
    held <+: reign.log ∨ Disowned reigns bound number held := by
  rcases Nat.eq_or_lt_of_le notOlder with same | above
  · rw [same, isReign] at isFormer
    rw [Option.some.inj isFormer]
    exact Or.inl acknowledged
  · by_cases has : held <+: reign.base
    · exact Or.inl (has.trans reign.base_prefix)
    · exact Or.inr ⟨later, reign, above, isReign, before, has⟩

structure Elections (term : E → Nat) (reigns : Nat → Option (Reign E)) (quorum : Finset S → Prop)
    (voted : S → Nat → List E → Nat → Prop) (acknowledged : S → Nat → List E → Prop) : Prop where
  common : ∀ voters voters', quorum voters → quorum voters' → ∃ server, server ∈ voters ∧ server ∈ voters'
  elected : ∀ number reign, reigns number = some reign → ∃ voters, quorum voters ∧
    ∀ server ∈ voters, ∃ log bound, voted server number log bound ∧ bound ≤ reign.rank ∧
      UpToDate term log reign.base
  traced : ∀ server number log bound, voted server number log bound → Traced term reigns bound log
  kept : ∀ server number log bound former held, voted server number log bound →
    acknowledged server former held → former < number → (∃ entry ∈ held, term entry = former) →
      held <+: log ∨ Disowned reigns bound former held

variable {quorum : Finset S → Prop} {voted : S → Nat → List E → Nat → Prop}
  {acknowledged : S → Nat → List E → Prop}

/-- A candidate has a prefix that one of its voters has, if every leader of a term in
between has it. -/
theorem UpToDate.carries (chronicle : Chronicle term reigns) {bound' number : Nat}
    {former : Reign E} {held : List E} (traced : Traced term reigns bound log)
    (traced' : Traced term reigns bound' other) (upToDate : UpToDate term log other)
    (isFormer : reigns number = some former) (acknowledged : held <+: former.log)
    (own : ∃ entry ∈ held, term entry = number) (holds : held <+: log)
    (between : ∀ later reign, number < later → reigns later = some reign → reign.rank < bound' →
      held <+: reign.base) : held <+: other := by
  obtain ⟨entry, member, isTerm⟩ := own
  have recent : number ≤ lastTerm term log := by
    rw [← isTerm]
    exact le_lastTerm chronicle traced (holds.subset member)
  have nonempty : log ≠ [] := List.ne_nil_of_mem (holds.subset member)
  have positive : 0 < other.length := by
    rw [List.length_pos_iff]
    rintro rfl
    rcases upToDate with newer | ⟨_, longer⟩
    · exact absurd newer (Nat.not_lt_zero _)
    · exact nonempty (List.length_eq_zero_iff.mp (Nat.le_zero.mp longer))
  obtain ⟨last, isLast⟩ : ∃ last, other[other.length - 1]? = some last :=
    ⟨_, List.getElem?_eq_getElem (by omega)⟩
  have lastTerm_other : lastTerm term other = term last := by
    unfold lastTerm
    rw [List.getLast?_eq_getElem?, isLast]
    rfl
  obtain ⟨reign, isReign, before, matched⟩ := traced' _ last isLast
  rw [show other.length - 1 + 1 = other.length by omega, List.take_length] at matched
  rcases upToDate with newer | ⟨same, longer⟩
  · -- the leader of the candidate's last entry has the prefix, and it ends before that entry
    rw [lastTerm_other] at newer
    have has := between (term last) reign (by omega) isReign before
    apply List.prefix_of_prefix_length_le (has.trans reign.base_prefix) matched
    by_contra short
    rw [not_le] at short
    have inside : held[other.length - 1]? = some held[other.length - 1] :=
      List.getElem?_eq_getElem (by omega)
    have inReign := getElem?_of_shorter (has.trans reign.base_prefix) inside
    rw [getElem?_of_shorter matched isLast, Option.some_inj] at inReign
    have older := chronicle.le_of_mem isFormer
      (acknowledged.subset (List.mem_of_getElem? inside))
    rw [← inReign] at older
    omega
  · -- both logs end in one term, so the longer one has all of the other
    have positive' : 0 < log.length := List.length_pos_iff.mpr nonempty
    obtain ⟨last', isLast'⟩ : ∃ last', log[log.length - 1]? = some last' :=
      ⟨_, List.getElem?_eq_getElem (by omega)⟩
    have lastTerm_log : lastTerm term log = term last' := by
      unfold lastTerm
      rw [List.getLast?_eq_getElem?, isLast']
      rfl
    obtain ⟨reign', isReign', _, matched'⟩ := traced _ last' isLast'
    rw [show log.length - 1 + 1 = log.length by omega, List.take_length] at matched'
    rw [← lastTerm_log, same, lastTerm_other, isReign] at isReign'
    rw [← Option.some.inj isReign'] at matched'
    exact holds.trans (List.prefix_of_prefix_length_le matched' matched longer)

/-- What a quorum has acknowledged in a term, with an entry of that term, is in the log with
which any later leader begins. -/
theorem Elections.complete (elections : Elections term reigns quorum voted acknowledged)
    (chronicle : Chronicle term reigns) {number : Nat} {former : Reign E} {held : List E}
    (isFormer : reigns number = some former) (prefixes : held <+: former.log)
    (own : ∃ entry ∈ held, term entry = number) {voters : Finset S} (isQuorum : quorum voters)
    (acks : ∀ server ∈ voters, acknowledged server number held) :
    ∀ later reign, number < later → reigns later = some reign → held <+: reign.base := by
  suffices ∀ rank later reign, reign.rank = rank → number < later → reigns later = some reign →
      held <+: reign.base from
    fun later reign above isReign => this _ later reign rfl above isReign
  intro rank
  induction rank using Nat.strong_induction_on with
  | h rank ih =>
      rintro later reign rfl above isReign
      obtain ⟨electors, elects, votes⟩ := elections.elected later reign isReign
      obtain ⟨server, isVoter, isElector⟩ := elections.common _ _ isQuorum elects
      obtain ⟨log, bound, vote, early, upToDate⟩ := votes server isElector
      have between (other : Nat) (otherReign : Reign E) (between : number < other)
          (isOther : reigns other = some otherReign) (before : otherReign.rank < reign.rank) :
          held <+: otherReign.base :=
        ih otherReign.rank before other otherReign rfl between isOther
      have holds : held <+: log := by
        rcases elections.kept server later log bound number held vote (acks server isVoter) above own
          with holds | ⟨other, otherReign, after, isOther, before, lacks⟩
        · exact holds
        · exact absurd (between other otherReign after isOther (before.trans_le early)) lacks
      exact upToDate.carries chronicle (elections.traced _ _ _ _ vote)
        (chronicle.traced later reign isReign) isFormer prefixes own holds between

/-- Acknowledged by a quorum in one term, and part of the leader's log up to an entry of
its term. -/
structure Chosen (term : E → Nat) (reigns : Nat → Option (Reign E)) (quorum : Finset S → Prop)
    (acknowledged : S → Nat → List E → Prop) (number : Nat) (held : List E) : Prop where
  led : ∃ reign, reigns number = some reign ∧ held <+: reign.log
  own : ∃ entry ∈ held, term entry = number
  acks : ∃ voters, quorum voters ∧ ∀ server ∈ voters, acknowledged server number held

theorem Chosen.later (elections : Elections term reigns quorum voted acknowledged)
    (chronicle : Chronicle term reigns) {number later : Nat} {held : List E} {reign : Reign E}
    (chosen : Chosen term reigns quorum acknowledged number held) (above : number < later)
    (isReign : reigns later = some reign) : held <+: reign.base := by
  obtain ⟨former, isFormer, prefixes⟩ := chosen.led
  obtain ⟨voters, isQuorum, acks⟩ := chosen.acks
  exact elections.complete chronicle isFormer prefixes chosen.own isQuorum acks later reign above
    isReign

theorem Chosen.led_from (elections : Elections term reigns quorum voted acknowledged)
    (chronicle : Chronicle term reigns) {number later : Nat} {held : List E} {reign : Reign E}
    (chosen : Chosen term reigns quorum acknowledged number held) (notOlder : number ≤ later)
    (isReign : reigns later = some reign) : held <+: reign.log := by
  rcases Nat.eq_or_lt_of_le notOlder with same | above
  · obtain ⟨former, isFormer, prefixes⟩ := chosen.led
    rw [same, isReign] at isFormer
    rw [Option.some.inj isFormer]
    exact prefixes
  · exact (chosen.later elections chronicle above isReign).trans reign.base_prefix

theorem Chosen.comparable (elections : Elections term reigns quorum voted acknowledged)
    (chronicle : Chronicle term reigns) {number number' : Nat} {held held' : List E}
    (chosen : Chosen term reigns quorum acknowledged number held)
    (chosen' : Chosen term reigns quorum acknowledged number' held') :
    held <+: held' ∨ held' <+: held := by
  rcases le_total number number' with notOlder | notOlder
  · obtain ⟨reign, isReign, prefixes⟩ := chosen'.led
    exact List.prefix_or_prefix_of_prefix
      (chosen.led_from elections chronicle notOlder isReign) prefixes
  · obtain ⟨reign, isReign, prefixes⟩ := chosen.led
    exact (List.prefix_or_prefix_of_prefix
      (chosen'.led_from elections chronicle notOlder isReign) prefixes).symm

end LeaderLogs

end QuorumKit
