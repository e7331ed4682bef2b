/-
Log identifiers and log entries of `braft/log_entry.h`.

A `LogId` is compared by term first and by index second, which is the order
that the vote rules and the in-memory log window both rely on.  Entries are
generic in the peer type and in the payload type: the segment storage reads
payloads as bytes, the replication proofs do not look inside them.
-/

import Mathlib.Order.Lattice
import Mathlib.Order.Defs.LinearOrder
import Mathlib.Tactic.SplitIfs

namespace QuorumKit

structure LogId where
  index : Nat := 0
  term : Nat := 0
deriving DecidableEq, Repr

namespace LogId

/-- `operator<` of `log_entry.h`: term first, index among equal terms. -/
instance : LT LogId :=
  ⟨fun lhs rhs =>
    if lhs.term = rhs.term then lhs.index < rhs.index else lhs.term < rhs.term⟩

/-- `operator<=` is defined there as the negation of `operator>`. -/
instance : LE LogId := ⟨fun lhs rhs => ¬ rhs < lhs⟩

theorem lt_def (lhs rhs : LogId) :
    lhs < rhs ↔
      (if lhs.term = rhs.term then lhs.index < rhs.index
        else lhs.term < rhs.term) := Iff.rfl

theorem lt_iff (lhs rhs : LogId) :
    lhs < rhs ↔
      lhs.term < rhs.term ∨ (lhs.term = rhs.term ∧ lhs.index < rhs.index) := by
  rw [lt_def]
  split_ifs with sameTerm
  · constructor
    · intro below
      exact Or.inr ⟨sameTerm, below⟩
    · rintro (below | ⟨_, below⟩)
      · omega
      · exact below
  · constructor
    · exact Or.inl
    · rintro (below | ⟨same, _⟩)
      · exact below
      · exact absurd same sameTerm

theorem le_iff (lhs rhs : LogId) :
    lhs ≤ rhs ↔
      lhs.term < rhs.term ∨ (lhs.term = rhs.term ∧ lhs.index ≤ rhs.index) := by
  change ¬ rhs < lhs ↔ _
  rw [lt_iff]
  omega

instance (lhs rhs : LogId) : Decidable (lhs < rhs) :=
  decidable_of_iff _ (lt_iff lhs rhs).symm

instance (lhs rhs : LogId) : Decidable (lhs ≤ rhs) :=
  decidable_of_iff _ (le_iff lhs rhs).symm

@[ext] theorem ext_fields {lhs rhs : LogId} (index : lhs.index = rhs.index)
    (term : lhs.term = rhs.term) : lhs = rhs := by
  cases lhs
  cases rhs
  simp_all

/-- `std::min` and `std::max` on identifiers are those of this linear order. -/
instance : LinearOrder LogId where
  le_refl id := by rw [le_iff]; omega
  le_trans first second third := by simp only [le_iff]; omega
  lt_iff_le_not_ge first second := by simp only [le_iff, lt_iff]; omega
  le_antisymm first second := by
    simp only [le_iff]
    intro forward backward
    ext <;> omega
  le_total first second := by simp only [le_iff]; omega
  toDecidableLE := inferInstance
  toDecidableLT := inferInstance
  toDecidableEq := inferInstance

end LogId

/-- `EntryType` of `enum.proto`. -/
inductive EntryType where
  | unknown
  | noOp
  | data
  | configuration
deriving DecidableEq, Repr

def EntryType.toNat : EntryType → Nat
  | .unknown => 0
  | .noOp => 1
  | .data => 2
  | .configuration => 3

def EntryType.ofNat? : Nat → Option EntryType
  | 0 => some .unknown
  | 1 => some .noOp
  | 2 => some .data
  | 3 => some .configuration
  | _ => none

@[simp] theorem EntryType.ofNat?_toNat (type : EntryType) :
    EntryType.ofNat? type.toNat = some type := by
  cases type <;> rfl

theorem EntryType.toNat_lt (type : EntryType) : type.toNat < 4 := by
  cases type <;> decide

/-- `LogEntry`; the two peer lists are null pointers unless the entry is a
configuration. -/
structure LogEntry (P D : Type) where
  type : EntryType
  id : LogId
  peers : Option (List P) := none
  oldPeers : Option (List P) := none
  data : D
deriving DecidableEq, Repr

end QuorumKit
