/-
Names of the files in a log directory, as `Segment` prints them and as
`SegmentLogStorage::list_segments` parses them back.

Names are kept structured; `FileName.render` gives the characters and
`classifyName` reads characters with the same `strncmp` and `sscanf` calls as
the source, in the same order.  The main result is that every name the storage
writes is recognised as what it was.
-/

import Mathlib.Data.List.TakeWhile
import Mathlib.Tactic.Ring

namespace QuorumKit

/-- The files of a log directory other than `log_meta`. -/
inductive FileName where
  | closed (firstIndex lastIndex : Int)
  | inprogress (firstIndex : Int)
  | tmp (name : FileName)
deriving DecidableEq, Repr

def digitChar (digit : Nat) : Char := Char.ofNat (48 + digit)

/-- The `width` low decimal digits of a number. -/
def decimal : Nat → Nat → List Char
  | 0, _ => []
  | width + 1, value => decimal width (value / 10) ++ [digitChar (value % 10)]

/-- `printf("%020ld")`. -/
def printIndex (index : Int) : List Char :=
  if 0 ≤ index then decimal 20 index.toNat else '-' :: decimal 19 index.natAbs

def logPrefix : List Char := ['l', 'o', 'g', '_']

def inprogressPrefix : List Char :=
  ['l', 'o', 'g', '_', 'i', 'n', 'p', 'r', 'o', 'g', 'r', 'e', 's', 's', '_']

def tmpSuffix : List Char := ['.', 't', 'm', 'p']

def FileName.render : FileName → List Char
  | .closed firstIndex lastIndex =>
      logPrefix ++ (printIndex firstIndex ++ ('_' :: printIndex lastIndex))
  | .inprogress firstIndex => inprogressPrefix ++ printIndex firstIndex
  | .tmp name => name.render ++ tmpSuffix

def isSpace (char : Char) : Bool :=
  char == ' ' || (9 ≤ char.toNat && char.toNat ≤ 13)

def digitsValue (digits : List Char) : Nat :=
  digits.foldl (fun value char => value * 10 + (char.toNat - 48)) 0

/-- `strtol` saturates at the bounds of `int64_t`. -/
def clampInt64 (value : Int) : Int := max (-2 ^ 63) (min (2 ^ 63 - 1) value)

/-- `sscanf("%020ld")`: leading blanks, a sign, and at most 20 characters. -/
def scanIndex (input : List Char) : Option (Int × List Char) :=
  let input := input.dropWhile isSpace
  let (sign, width, input) : Int × Nat × List Char :=
    match input with
    | '-' :: rest => (-1, 19, rest)
    | '+' :: rest => (1, 19, rest)
    | input => (1, 20, input)
  let digits := (input.take width).takeWhile Char.isDigit
  if digits.isEmpty then none
  else some (clampInt64 (sign * digitsValue digits), input.drop digits.length)

def scanLiteral : List Char → List Char → Option (List Char)
  | [], input => some input
  | expected :: literal, char :: input =>
      if expected = char then scanLiteral literal input else none
  | _ :: _, [] => none

/-- `sscanf` with the closed pattern, matching both numbers. -/
def scanClosed (name : List Char) : Option (Int × Int) := do
  let rest ← scanLiteral logPrefix name
  let (firstIndex, rest) ← scanIndex rest
  let rest ← scanLiteral ['_'] rest
  let (lastIndex, _) ← scanIndex rest
  return (firstIndex, lastIndex)

def scanOpen (name : List Char) : Option Int := do
  let rest ← scanLiteral inprogressPrefix name
  let (firstIndex, _) ← scanIndex rest
  return firstIndex

/-- What `list_segments` takes a directory entry for. -/
inductive NameClass where
  | unneeded
  | closedSegment (firstIndex lastIndex : Int)
  | openSegment (firstIndex : Int)
  | ignored
deriving DecidableEq, Repr

def classifyName (isEmpty : Bool) (name : List Char) : NameClass :=
  if (isEmpty && logPrefix.isPrefixOf name) || tmpSuffix.isSuffixOf name then .unneeded
  else
    match scanClosed name with
    | some (firstIndex, lastIndex) => .closedSegment firstIndex lastIndex
    | none =>
        match scanOpen name with
        | some firstIndex => .openSegment firstIndex
        | none => .ignored

/-- Indexes that `int64_t` holds. -/
def InInt64 (index : Int) : Prop := 0 ≤ index ∧ index < 2 ^ 63

instance (index : Int) : Decidable (InInt64 index) := by
  unfold InInt64; infer_instance

@[simp] theorem decimal_length (width value : Nat) :
    (decimal width value).length = width := by
  induction width generalizing value with
  | zero => rfl
  | succ width ih => simp [decimal, ih]

theorem digitChar_facts {digit : Nat} (small : digit < 10) :
    (digitChar digit).isDigit = true ∧ (digitChar digit).toNat = 48 + digit ∧
      isSpace (digitChar digit) = false ∧ digitChar digit ≠ '-' ∧
      digitChar digit ≠ '+' ∧ digitChar digit ≠ 'p' := by
  have table : ∀ digit : Fin 10,
      (digitChar digit).isDigit = true ∧ (digitChar digit).toNat = 48 + digit ∧
        isSpace (digitChar digit) = false ∧ digitChar digit ≠ '-' ∧
        digitChar digit ≠ '+' ∧ digitChar digit ≠ 'p' := by
    decide
  exact table ⟨digit, small⟩

theorem exists_digit_of_mem_decimal {width value : Nat} {char : Char}
    (member : char ∈ decimal width value) :
    ∃ digit, digit < 10 ∧ char = digitChar digit := by
  induction width generalizing value with
  | zero => simp [decimal] at member
  | succ width ih =>
      rw [decimal, List.mem_append, List.mem_singleton] at member
      rcases member with earlier | last
      · exact ih earlier
      · exact ⟨value % 10, Nat.mod_lt _ (by omega), last⟩

theorem digitsValue_decimal (width value : Nat) :
    digitsValue (decimal width value) = value % 10 ^ width := by
  induction width generalizing value with
  | zero => simp [decimal, digitsValue, Nat.mod_one]
  | succ width ih =>
      have lastDigit := (digitChar_facts (Nat.mod_lt value (by omega : 10 > 0))).2.1
      have unfolded : digitsValue (decimal (width + 1) value) =
          digitsValue (decimal width (value / 10)) * 10 +
            ((digitChar (value % 10)).toNat - 48) := by
        simp [decimal, digitsValue]
      rw [unfolded, ih, lastDigit, Nat.pow_succ, Nat.mul_comm (10 ^ width) 10,
        Nat.mod_mul]
      omega

theorem decimal_cons (width value : Nat) :
    ∃ digit rest, digit < 10 ∧ decimal (width + 1) value = digitChar digit :: rest := by
  cases shape : decimal (width + 1) value with
  | nil =>
      have length := decimal_length (width + 1) value
      rw [shape] at length
      simp at length
  | cons char rest =>
      have member : char ∈ decimal (width + 1) value := by
        rw [shape]
        exact List.mem_cons_self
      obtain ⟨digit, small, isDigit⟩ := exists_digit_of_mem_decimal member
      exact ⟨digit, rest, small, by rw [isDigit]⟩

theorem scanIndex_printIndex {index : Int} (inRange : InInt64 index)
    (rest : List Char) :
    scanIndex (printIndex index ++ rest) = some (index, rest) := by
  obtain ⟨nonneg, below⟩ := inRange
  have printed : printIndex index = decimal 20 index.toNat := by
    simp [printIndex, nonneg]
  obtain ⟨digit, tail, small, headForm⟩ := decimal_cons 19 index.toNat
  obtain ⟨_, _, notSpace, notMinus, notPlus, _⟩ := digitChar_facts small
  have allDigits : ∀ char ∈ decimal 20 index.toNat, char.isDigit = true := by
    intro char member
    obtain ⟨digit, small, rfl⟩ := exists_digit_of_mem_decimal member
    exact (digitChar_facts small).1
  have noBlank : (decimal 20 index.toNat ++ rest).dropWhile isSpace =
      decimal 20 index.toNat ++ rest := by
    rw [headForm, List.cons_append, List.dropWhile_cons_of_neg (by simp [notSpace])]
  have taken : (decimal 20 index.toNat ++ rest).take 20 = decimal 20 index.toNat := by
    simp
  have digits : (decimal 20 index.toNat).takeWhile Char.isDigit =
      decimal 20 index.toNat :=
    List.takeWhile_eq_self_iff.mpr allDigits
  have value : digitsValue (decimal 20 index.toNat) = index.toNat := by
    rw [digitsValue_decimal, Nat.mod_eq_of_lt (by omega)]
  have unsigned : (match decimal 20 index.toNat ++ rest with
      | '-' :: rest => ((-1 : Int), 19, rest)
      | '+' :: rest => (1, 19, rest)
      | input => (1, 20, input)) = ((1 : Int), 20, decimal 20 index.toNat ++ rest) := by
    rw [headForm, List.cons_append]
    split
    · rename_i same
      exact absurd (List.cons.inj same).1 notMinus
    · rename_i same
      exact absurd (List.cons.inj same).1 notPlus
    · rfl
  have nonempty : (decimal 20 index.toNat).isEmpty = false := by
    rw [headForm]
    rfl
  have clamped : clampInt64 (1 * (index.toNat : Int)) = index := by
    unfold clampInt64
    omega
  unfold scanIndex
  simp only [printed, noBlank, unsigned, taken, digits, nonempty, value, clamped]
  simp

@[simp] theorem scanLiteral_append (literal rest : List Char) :
    scanLiteral literal (literal ++ rest) = some rest := by
  induction literal with
  | nil => rfl
  | cons char literal ih => simp [scanLiteral, ih]

theorem printIndex_ends (index : Int) :
    ∃ front digit, digit < 10 ∧ printIndex index = front ++ [digitChar digit] := by
  unfold printIndex
  by_cases nonneg : 0 ≤ index
  · rw [if_pos nonneg]
    exact ⟨decimal 19 (index.toNat / 10), index.toNat % 10, Nat.mod_lt _ (by omega), rfl⟩
  · rw [if_neg nonneg]
    exact ⟨'-' :: decimal 18 (index.natAbs / 10), index.natAbs % 10, Nat.mod_lt _ (by omega), rfl⟩

theorem tmpSuffix_not_printed (index : Int) (before : List Char) :
    tmpSuffix.isSuffixOf (before ++ printIndex index) = false := by
  obtain ⟨front, digit, small, printed⟩ := printIndex_ends index
  have notLetter := (digitChar_facts small).2.2.2.2.2
  rw [printed, ← List.append_assoc, Bool.eq_false_iff, ne_eq, List.isSuffixOf_iff_suffix]
  rintro ⟨before, same⟩
  have ends : tmpSuffix = ['.', 't', 'm'] ++ ['p'] := rfl
  rw [ends, ← List.append_assoc] at same
  have lastSame := (List.append_inj' same rfl).2
  exact notLetter (List.cons.inj lastSame).1.symm

theorem classifyName_closed {firstIndex lastIndex : Int} (firstRange : InInt64 firstIndex)
    (lastRange : InInt64 lastIndex) :
    classifyName false (FileName.closed firstIndex lastIndex).render =
      .closedSegment firstIndex lastIndex := by
  have notTmp : tmpSuffix.isSuffixOf (FileName.closed firstIndex lastIndex).render = false := by
    have regroup : (FileName.closed firstIndex lastIndex).render =
        (logPrefix ++ (printIndex firstIndex ++ ['_'])) ++ printIndex lastIndex := by
      simp [FileName.render]
    rw [regroup]
    exact tmpSuffix_not_printed lastIndex _
  have scanned : scanClosed (FileName.closed firstIndex lastIndex).render =
      some (firstIndex, lastIndex) := by
    have lastScanned := scanIndex_printIndex lastRange []
    rw [List.append_nil] at lastScanned
    simp [scanClosed, FileName.render, scanIndex_printIndex firstRange, scanLiteral,
      lastScanned]
  simp [classifyName, notTmp, scanned]

theorem classifyName_inprogress {firstIndex : Int} (inRange : InInt64 firstIndex) :
    classifyName false (FileName.inprogress firstIndex).render =
      .openSegment firstIndex := by
  have notTmp : tmpSuffix.isSuffixOf (FileName.inprogress firstIndex).render = false :=
    tmpSuffix_not_printed firstIndex _
  have notClosed : scanClosed (FileName.inprogress firstIndex).render = none := by
    have noNumber : ∀ rest, scanIndex ('i' :: rest) = none := by
      intro rest
      simp [scanIndex, isSpace, Char.isDigit]
    have literal : scanLiteral logPrefix (FileName.inprogress firstIndex).render =
        some ('i' :: (['n', 'p', 'r', 'o', 'g', 'r', 'e', 's', 's', '_'] ++
          printIndex firstIndex)) := rfl
    simp only [scanClosed, literal]
    simp [noNumber]
  have scanned : scanOpen (FileName.inprogress firstIndex).render = some firstIndex := by
    have firstScanned := scanIndex_printIndex inRange []
    rw [List.append_nil] at firstScanned
    simp [scanOpen, FileName.render, firstScanned]
  simp [classifyName, notTmp, notClosed, scanned]

@[simp] theorem classifyName_tmp (isEmpty : Bool) (name : FileName) :
    classifyName isEmpty (FileName.tmp name).render = .unneeded := by
  have suffixed : tmpSuffix.isSuffixOf (name.render ++ tmpSuffix) = true := by
    rw [List.isSuffixOf_iff_suffix]
    exact List.suffix_append _ _
  simp [classifyName, FileName.render, suffixed]

end QuorumKit
