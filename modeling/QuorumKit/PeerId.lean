/-
`PeerId` of `braft/configuration.h` and its text form.

A peer is printed with `snprintf` as address, index and role and read back with
one `sscanf` call.  The conversion of an IP address is a parameter: it belongs
to `butil`, and the code only relies on its own output being read back.
-/

import Mathlib.Data.Nat.Log
import QuorumKit.Log.SegmentName

namespace QuorumKit

/-- `printf("%d")`. -/
def printInt (value : Int) : List Char :=
  let digits := decimal (Nat.log 10 value.natAbs + 1) value.natAbs
  if 0 ≤ value then digits else '-' :: digits

/-- `sscanf("%d")`: leading blanks, a sign and any number of digits. -/
def scanInt (input : List Char) : Option (Int × List Char) :=
  let input := input.dropWhile isSpace
  let (sign, input) : Int × List Char :=
    match input with
    | '-' :: rest => (-1, rest)
    | '+' :: rest => (1, rest)
    | input => (1, input)
  let digits := input.takeWhile Char.isDigit
  if digits.isEmpty then none
  else some (sign * digitsValue digits, input.dropWhile Char.isDigit)

/-- A character set of `sscanf`, which takes at least one character. -/
def scanSet (keep : Char → Bool) (input : List Char) : Option (List Char × List Char) :=
  if (input.takeWhile keep).isEmpty then none
  else some (input.takeWhile keep, input.dropWhile keep)

theorem decimal_isDigit {width value : Nat} {char : Char}
    (member : char ∈ decimal width value) : char.isDigit = true := by
  obtain ⟨digit, small, rfl⟩ := exists_digit_of_mem_decimal member
  exact (digitChar_facts small).1

theorem digitsValue_printed (value : Nat) :
    digitsValue (decimal (Nat.log 10 value + 1) value) = value := by
  rw [digitsValue_decimal]
  exact Nat.mod_eq_of_lt (Nat.lt_pow_succ_log_self (by decide) value)

theorem takeWhile_isDigit (width value : Nat) {rest : List Char}
    (ends : ∀ char ∈ rest.head?, char.isDigit = false) :
    (decimal width value ++ rest).takeWhile Char.isDigit = decimal width value ∧
      (decimal width value ++ rest).dropWhile Char.isDigit = rest := by
  have all : ∀ char ∈ decimal width value, char.isDigit = true :=
    fun char member => decimal_isDigit member
  have stops : rest.takeWhile Char.isDigit = [] ∧ rest.dropWhile Char.isDigit = rest := by
    cases rest with
    | nil => exact ⟨rfl, rfl⟩
    | cons char rest =>
        have notDigit := ends char rfl
        simp [notDigit]
  constructor
  · rw [List.takeWhile_append_of_pos all, stops.1, List.append_nil]
  · rw [List.dropWhile_append_of_pos all, stops.2]

theorem scanInt_printInt (value : Int) {rest : List Char}
    (ends : ∀ char ∈ rest.head?, char.isDigit = false) :
    scanInt (printInt value ++ rest) = some (value, rest) := by
  obtain ⟨digit, tail, small, headForm⟩ := decimal_cons (Nat.log 10 value.natAbs) value.natAbs
  obtain ⟨_, _, notSpace, notMinus, notPlus, _⟩ := digitChar_facts small
  obtain ⟨taken, dropped⟩ := takeWhile_isDigit (Nat.log 10 value.natAbs + 1) value.natAbs ends
  have nonempty : (decimal (Nat.log 10 value.natAbs + 1) value.natAbs).isEmpty = false := by
    rw [headForm]
    rfl
  have read := digitsValue_printed value.natAbs
  by_cases nonneg : 0 ≤ value
  · have printed : printInt value = decimal (Nat.log 10 value.natAbs + 1) value.natAbs := by
      simp [printInt, nonneg]
    have noBlank : (printInt value ++ rest).dropWhile isSpace = printInt value ++ rest := by
      rw [printed, headForm, List.cons_append, List.dropWhile_cons_of_neg (by simp [notSpace])]
    have unsigned : (match printInt value ++ rest with
        | '-' :: rest => ((-1 : Int), rest)
        | '+' :: rest => (1, rest)
        | input => (1, input)) = ((1 : Int), printInt value ++ rest) := by
      rw [printed, headForm, List.cons_append]
      split
      · rename_i same
        exact absurd (List.cons.inj same).1 notMinus
      · rename_i same
        exact absurd (List.cons.inj same).1 notPlus
      · rfl
    unfold scanInt
    simp only [noBlank, unsigned]
    rw [printed, taken, dropped, nonempty, read]
    simp only [Bool.false_eq_true, if_false, Option.some.injEq, Prod.mk.injEq, and_true]
    omega
  · have printed : printInt value =
        '-' :: decimal (Nat.log 10 value.natAbs + 1) value.natAbs := by
      simp [printInt, nonneg]
    have noBlank : (printInt value ++ rest).dropWhile isSpace = printInt value ++ rest := by
      rw [printed, List.cons_append, List.dropWhile_cons_of_neg (by decide)]
    unfold scanInt
    simp only [noBlank]
    rw [printed, List.cons_append]
    simp only
    rw [taken, dropped, nonempty, read]
    simp only [Bool.false_eq_true, if_false, Option.some.injEq, Prod.mk.injEq, and_true]
    omega

theorem printInt_length {value : Int} (lower : -2 ^ 31 ≤ value) (upper : value < 2 ^ 31) :
    (printInt value).length ≤ 11 := by
  have digits : Nat.log 10 value.natAbs < 10 :=
    Nat.log_lt_of_lt_pow' (by decide) (by omega)
  unfold printInt
  simp only
  split
  · rw [decimal_length]
    omega
  · rw [List.length_cons, decimal_length]
    omega

/-- `butil::ip2str` and `butil::str2ip` for the addresses `I`. -/
structure IpText (I : Type) where
  ip2str : I → List Char
  str2ip : List Char → Option I
  str2ip_ip2str : ∀ ip, str2ip (ip2str ip) = some ip
  nonempty : ∀ ip, ip2str ip ≠ []
  noColon : ∀ ip, ':' ∉ ip2str ip
  short : ∀ ip, (ip2str ip).length < 64

inductive Role where
  | replica
  | witness
deriving DecidableEq, Repr

def Role.toInt : Role → Int
  | .replica => 0
  | .witness => 1

/-- The role of a number, `none` beyond `WITNESS`.  The enumeration has no
negative value, so a negative number is beyond it too. -/
def Role.ofInt? : Int → Option Role
  | 0 => some .replica
  | 1 => some .witness
  | _ => none

@[simp] theorem Role.ofInt?_toInt (role : Role) :
    Role.ofInt? role.toInt = some role := by
  cases role <;> rfl

/-- `addr` is the pair of `ip` and `port`.  `operator==` does not look at the
role, so a set of peers has one member for an address and an index. -/
structure PeerId (I : Type) where
  ip : I
  port : Int32
  idx : Int32
  role : Role
deriving DecidableEq, Repr

namespace PeerId

variable {I : Type} (ips : IpText I)

/-- `to_string`, cut to the 127 characters that its buffer holds. -/
def toString (peer : PeerId I) : List Char :=
  (ips.ip2str peer.ip ++ ':' :: (printInt peer.port.toInt ++
    ':' :: (printInt peer.idx.toInt ++ ':' :: printInt peer.role.toInt))).take 127

/-- A number after one or more colons, `%*[:]%d`. -/
def scanField (input : List Char) : Option (Int × List Char) :=
  match scanSet (· == ':') input with
  | none => none
  | some (_, rest) => scanInt rest

/-- `parse`: the address needs a port, index and role are optional. -/
def parse (str : List Char) : Option (PeerId I) :=
  match scanSet (· != ':') str with
  | none => none
  | some (ipStr, rest) =>
      match scanField rest with
      | none => none
      | some (port, rest) =>
          let (idx, value) : Int × Int :=
            match scanField rest with
            | none => (0, 0)
            | some (idx, rest) =>
                match scanField rest with
                | none => (idx, 0)
                | some (value, _) => (idx, value)
          match Role.ofInt? value, ips.str2ip ipStr with
          | some role, some ip =>
              some { ip := ip, port := Int32.ofInt port, idx := Int32.ofInt idx, role := role }
          | _, _ => none

theorem scanField_printInt (value : Int) {rest : List Char}
    (ends : ∀ char ∈ rest.head?, char.isDigit = false) :
    scanField (':' :: (printInt value ++ rest)) = some (value, rest) := by
  have number : ∀ char ∈ (printInt value ++ rest).head?, (char == ':') = false := by
    intro char isHead
    obtain ⟨digit, tail, small, headForm⟩ := decimal_cons (Nat.log 10 value.natAbs) value.natAbs
    have digitOrSign : char = '-' ∨ char = digitChar digit := by
      unfold printInt at isHead
      simp only at isHead
      rw [headForm] at isHead
      split at isHead
      · exact Or.inr (by simpa using isHead.symm)
      · exact Or.inl (by simpa using isHead.symm)
    rcases digitOrSign with rfl | rfl
    · decide
    · have isDigit := (digitChar_facts small).1
      by_contra colon
      have colon : digitChar digit = ':' := by simpa using colon
      rw [colon] at isDigit
      exact absurd isDigit (by decide)
  have colons : scanSet (· == ':') (':' :: (printInt value ++ rest)) =
      some ([':'], printInt value ++ rest) := by
    unfold scanSet
    cases shape : printInt value ++ rest with
    | nil => rfl
    | cons char tail =>
        rw [shape] at number
        have other := number char rfl
        simp [other]
  unfold scanField
  simp only [colons]
  exact scanInt_printInt value ends

theorem scanSet_ip (ip : I) (rest : List Char) :
    scanSet (· != ':') (ips.ip2str ip ++ ':' :: rest) = some (ips.ip2str ip, ':' :: rest) := by
  have all : ∀ char ∈ ips.ip2str ip, (char != ':') = true := by
    intro char member
    rw [bne_iff_ne]
    rintro rfl
    exact ips.noColon ip member
  have taken : (ips.ip2str ip ++ ':' :: rest).takeWhile (· != ':') = ips.ip2str ip := by
    rw [List.takeWhile_append_of_pos all, List.takeWhile_cons_of_neg (by decide),
      List.append_nil]
  have dropped : (ips.ip2str ip ++ ':' :: rest).dropWhile (· != ':') = ':' :: rest := by
    rw [List.dropWhile_append_of_pos all, List.dropWhile_cons_of_neg (by decide)]
  have nonempty : (ips.ip2str ip).isEmpty = false := by
    have := ips.nonempty ip
    simpa using this
  unfold scanSet
  rw [taken, dropped, nonempty]
  rfl

theorem toString_eq (peer : PeerId I) :
    peer.toString ips = ips.ip2str peer.ip ++ ':' :: (printInt peer.port.toInt ++
      ':' :: (printInt peer.idx.toInt ++ ':' :: printInt peer.role.toInt)) := by
  have ipShort := ips.short peer.ip
  have portShort := printInt_length peer.port.le_toInt peer.port.toInt_lt
  have idxShort := printInt_length peer.idx.le_toInt peer.idx.toInt_lt
  have roleShort : (printInt peer.role.toInt).length ≤ 1 := by
    cases peer.role <;> decide
  unfold toString
  apply List.take_of_length_le
  simp only [List.length_append, List.length_cons]
  omega

theorem parse_toString (peer : PeerId I) : parse ips (peer.toString ips) = some peer := by
  have role := @scanField_printInt peer.role.toInt [] (by simp)
  rw [List.append_nil] at role
  unfold parse
  rw [toString_eq, scanSet_ip]
  simp only
  rw [scanField_printInt peer.port.toInt (by simp [Char.isDigit])]
  simp only
  rw [scanField_printInt peer.idx.toInt (by simp [Char.isDigit])]
  simp only [role, Role.ofInt?_toInt, ips.str2ip_ip2str, Int32.ofInt_toInt]

end PeerId

end QuorumKit
