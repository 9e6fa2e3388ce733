import Mathlib.Data.List.DropRight
import Mathlib.Tactic.Ring
import LearningKernels.Toyos.Format

/-!
# Reading numerals back

What it means for text to denote a number: the value of a numeral in a base, and
of a signed decimal numeral between spaces. The digits `number` writes for a value
that is not negative denote that value.
-/

namespace Toyos

open Machine

/-- The value of a digit character. -/
def digitValue (char : Byte) : Option Nat :=
  if 48 ≤ char.toNat ∧ char.toNat ≤ 57 then some (char.toNat - 48)
  else if 65 ≤ char.toNat ∧ char.toNat ≤ 90 then some (char.toNat - 55)
  else if 97 ≤ char.toNat ∧ char.toNat ≤ 122 then some (char.toNat - 87)
  else none

/-- The value of a row of digits of a base, behind a value read already. -/
def readDigits (base : Nat) : List Byte → Nat → Option Nat
  | [], value => some value
  | char :: text, value => do
      let digit ← digitValue char
      if digit < base then readDigits base text (value * base + digit) else none

/-- The value of a numeral. -/
def readNumeral (base : Nat) (text : List Byte) : Option Nat :=
  if text = [] then none else readDigits base text 0

/-- The value of a decimal numeral with a sign or without one. -/
def readSigned : List Byte → Option Int
  | [] => none
  | char :: text =>
      if char = chr '-' then (readNumeral 10 text).map fun value => -(value : Int)
      else if char = chr '+' then (readNumeral 10 text).map fun value => (value : Int)
      else (readNumeral 10 (char :: text)).map fun value => (value : Int)

/-- The text without the spaces around it. -/
def trimSpaces (text : List Byte) : List Byte :=
  (text.dropWhile fun char => char = chr ' ').rdropWhile fun char => char = chr ' '

theorem digitValue_zero : digitValue (chr '0') = some 0 := by decide

section Digits

variable {base : Nat}

theorem readDigits_append (first second : List Byte) (value : Nat) :
    readDigits base (first ++ second) value =
      (readDigits base first value).bind (readDigits base second) := by
  induction first generalizing value with
  | nil => rfl
  | cons char first ih =>
      simp only [List.cons_append, readDigits, Option.bind_eq_bind, Option.bind_assoc]
      congr 1
      funext digit
      split_ifs
      · exact ih _
      · rfl

theorem readDigits_zeros (positive : 0 < base) (count : Nat) (text : List Byte) :
    readDigits base (List.replicate count (chr '0') ++ text) 0 = readDigits base text 0 := by
  induction count with
  | zero => rfl
  | succ count ih =>
      rw [List.replicate_succ, List.cons_append, readDigits, digitValue_zero,
        Option.bind_eq_bind, Option.bind_some, if_pos positive, Nat.zero_mul, Nat.add_zero, ih]

/-- A table entry below 36 is a digit character. -/
theorem digitValue_digitAt (stray : Stray) (small : Bool) {digit : Nat} (bounded : digit < 36) :
    digitValue (digitAt stray small digit) = some digit := by
  have every : ∀ small : Bool, ∀ digit : Fin 36,
      digitValue (digitAt (fun _ _ => 0) small digit.val) = some digit.val := by decide
  have inside : digitAt stray small digit = digitAt (fun _ _ => 0) small digit := by
    unfold digitAt
    split_ifs <;> first | rfl | omega
  rw [inside]
  exact every small ⟨digit, bounded⟩

/-- Digits written last first denote their value. -/
theorem readDigits_digitAt (stray : Stray) (small : Bool) (radix : base ≤ 36)
    {digits : List Nat} (bounded : ∀ digit ∈ digits, digit < base) (value : Nat) :
    readDigits base (digits.map fun digit : Nat => digitAt stray small digit).reverse value =
      some (Nat.ofDigits base digits + value * base ^ digits.length) := by
  induction digits with
  | nil => simp [readDigits]
  | cons digit digits ih =>
      have first := bounded digit List.mem_cons_self
      rw [List.map_cons, List.reverse_cons, readDigits_append,
        ih fun other member => bounded other (List.mem_cons_of_mem _ member), Option.bind_some,
        readDigits, digitValue_digitAt stray small (by omega), Option.bind_eq_bind,
        Option.bind_some, if_pos first, readDigits, Nat.ofDigits_cons, List.length_cons]
      congr 1
      ring

end Digits

/-- The digits of a value that is not negative, most significant first. -/
def numeral (stray : Stray) (small : Bool) (base value : Nat) : List Byte :=
  if value = 0 then [chr '0']
  else ((Nat.digits base value).map fun digit : Nat => digitAt stray small digit).reverse

section Numerals

variable (stray : Stray) (small : Bool) {base : Nat} (value : Nat)

theorem numeral_ne_nil : numeral stray small base value ≠ [] := by
  unfold numeral
  split_ifs with zero
  · exact List.cons_ne_nil _ _
  · simpa only [ne_eq, List.reverse_eq_nil_iff, List.map_eq_nil_iff,
      Nat.digits_eq_nil_iff_eq_zero] using zero

variable (lower : 2 ≤ base) (upper : base ≤ 36)

include lower upper

theorem readDigits_numeral :
    readDigits base (numeral stray small base value) 0 = some value := by
  unfold numeral
  split_ifs with zero
  · rw [readDigits, digitValue_zero, Option.bind_eq_bind, Option.bind_some, if_pos (by omega),
      Nat.zero_mul, zero]
    rfl
  · rw [readDigits_digitAt stray small upper fun digit member =>
      Nat.digits_lt_base (by omega) member, Nat.ofDigits_digits, Nat.zero_mul, Nat.add_zero]

/-- A numeral begins with a zero only for zero. -/
theorem numeral_head
    (leading : (numeral stray small base value).head? = some (chr '0')) : value = 0 := by
  by_contra nonzero
  have digits : Nat.digits base value ≠ [] := Nat.digits_ne_nil_iff_ne_zero.mpr nonzero
  have member := List.getLast_mem digits
  have bounded := Nat.digits_lt_base (by omega) member
  rw [numeral, if_neg nonzero, List.head?_reverse, List.getLast?_map,
    List.getLast?_eq_some_getLast digits, Option.map_some, Option.some.injEq] at leading
  have last := digitValue_digitAt stray small (bounded.trans_le upper)
  rw [leading] at last
  exact Nat.getLast_digit_ne_zero base nonzero (Option.some.inj (last.symm.trans digitValue_zero))

end Numerals

section Zeros

variable (stray : Stray) (type : Flags) {base : Nat} (lower : 2 ≤ base) (upper : base ≤ 36)

/-- A value that is negative has a zero among its characters where the table has one in front
of its first entry, at the negated digit. -/
def ZeroDigit (small : Bool) (base : Nat) (num : Int) : Prop :=
  num < 0 ∧ ∃ digit ∈ Nat.digits base num.natAbs, digit ≠ 0 ∧ stray small (-(digit : Int)) = 0

instance (small : Bool) (base : Nat) (num : Int) : Decidable (ZeroDigit stray small base num) :=
  inferInstanceAs (Decidable (num < 0 ∧ ∃ digit ∈ Nat.digits base num.natAbs,
    digit ≠ 0 ∧ stray small (-(digit : Int)) = 0))

theorem digitAt_neg (small : Bool) {digit : Nat} (nonzero : digit ≠ 0) :
    digitAt stray small (-(digit : Int)) = stray small (-(digit : Int)) := by
  rw [digitAt, if_neg (by omega), if_neg (by omega), if_neg (by omega)]

theorem digitAt_ne_zero (small : Bool) {digit : Nat} (bounded : digit < 36) :
    digitAt stray small digit ≠ 0 := by
  intro zero
  have value := digitValue_digitAt stray small bounded
  have none : digitValue 0 = none := by decide
  rw [zero, none] at value
  cases value

include lower upper

/-- The characters of a number have a zero among them only for a stray one. -/
theorem zero_mem_tmpChars (num : Int) :
    0 ∈ tmpChars stray type num base ↔ ZeroDigit stray type.small base num := by
  have small {value digit : Nat} (member : digit ∈ Nat.digits base value) : digit < 36 :=
    (Nat.digits_lt_base (by omega) member).trans_le upper
  rcases lt_or_ge num 0 with negative | positive
  · obtain ⟨value, rfl⟩ : ∃ value : Nat, num = -value := ⟨num.natAbs, by omega⟩
    rw [tmpChars, if_neg (by omega), divLoop_neg, divLoop_natCast value lower, List.map_map,
      List.map_map, List.mem_map, ZeroDigit, Int.natAbs_neg, Int.natAbs_natCast]
    refine ⟨?_, ?_⟩
    · rintro ⟨digit, member, zero⟩
      have nonzero : digit ≠ 0 := by
        rintro rfl
        exact absurd zero (digitAt_ne_zero stray type.small (by decide : 0 < 36))
      exact ⟨negative, digit, member, nonzero, (digitAt_neg stray _ nonzero).symm.trans zero⟩
    · rintro ⟨_, digit, member, nonzero, zero⟩
      exact ⟨digit, member, (digitAt_neg stray _ nonzero).trans zero⟩
  · obtain ⟨value, rfl⟩ : ∃ value : Nat, num = value := ⟨num.toNat, by omega⟩
    refine ⟨fun member => ?_, fun stray => absurd stray.1 (by omega)⟩
    exfalso
    rw [tmpChars] at member
    split_ifs at member
    · exact absurd member (by decide)
    · rw [divLoop_natCast value lower, List.map_map] at member
      obtain ⟨digit, inside, zero⟩ := List.mem_map.mp member
      exact digitAt_ne_zero stray type.small (small inside) zero

end Zeros

section Signed

/-- Every character of a row of digits is a digit. -/
theorem digitValue_of_readDigits {base : Nat} {text : List Byte} {start value : Nat}
    (read : readDigits base text start = some value) :
    ∀ char ∈ text, digitValue char ≠ none := by
  induction text generalizing start with
  | nil => exact fun char member => absurd member List.not_mem_nil
  | cons first text ih =>
      rw [readDigits] at read
      cases digit : digitValue first with
      | none =>
          rw [digit] at read
          cases read
      | some found =>
          rw [digit, Option.bind_eq_bind, Option.bind_some] at read
          split_ifs at read with inside
          rw [List.forall_mem_cons]
          exact ⟨by rw [digit]; exact Option.some_ne_none found, ih read⟩

theorem dropWhile_spaces (count : Nat) (text : List Byte) :
    (List.replicate count (chr ' ') ++ text).dropWhile (fun char => char = chr ' ') =
      text.dropWhile fun char => char = chr ' ' := by
  induction count with
  | zero => rfl
  | succ count ih => rw [List.replicate_succ, List.cons_append, List.dropWhile_cons_of_pos rfl, ih]

/-- Spaces around a text that neither begins nor ends with one are trimmed off. -/
theorem trimSpaces_padded {text : List Byte} (inside : text ≠ [])
    (first : text.head inside ≠ chr ' ') (last : text.getLast inside ≠ chr ' ')
    (before after : Nat) :
    trimSpaces (List.replicate before (chr ' ') ++ text ++ List.replicate after (chr ' ')) =
      text := by
  have front : (text ++ List.replicate after (chr ' ')).dropWhile (fun char => char = chr ' ') =
      text ++ List.replicate after (chr ' ') := by
    cases text with
    | nil => exact absurd rfl inside
    | cons char text => exact List.dropWhile_cons_of_neg (by simpa using first)
  rw [trimSpaces, List.append_assoc, dropWhile_spaces, front, List.rdropWhile,
    List.reverse_append, List.reverse_replicate, dropWhile_spaces, ← List.rdropWhile]
  exact List.rdropWhile_eq_self_iff.mpr fun _ => by simpa using last

variable {body : List Byte} {value : Nat} (inside : body ≠ [])
  (read : readDigits 10 body 0 = some value)

include inside read

/-- A row of digits behind no sign or a space reads as its value. -/
theorem readSigned_unsigned (before after : Nat) :
    readSigned (trimSpaces (List.replicate before (chr ' ') ++ body ++
      List.replicate after (chr ' '))) = some (value : Int) := by
  have digits := digitValue_of_readDigits read
  have first := digits _ (List.head_mem inside)
  have last := digits _ (List.getLast_mem inside)
  rw [trimSpaces_padded inside (fun same => first (by rw [same]; decide))
    fun same => last (by rw [same]; decide)]
  cases body with
  | nil => exact absurd rfl inside
  | cons char text =>
      rw [List.head_cons] at first
      rw [readSigned, if_neg fun same => first (by rw [same]; decide),
        if_neg fun same => first (by rw [same]; decide), readNumeral, if_neg inside, read]
      rfl

/-- A row of digits behind a sign reads as its value with that sign. -/
theorem readSigned_signed {sign : Byte} (known : sign = chr '-' ∨ sign = chr '+')
    (before after : Nat) :
    readSigned (trimSpaces (List.replicate before (chr ' ') ++ (sign :: body) ++
      List.replicate after (chr ' '))) =
      some (if sign = chr '-' then -(value : Int) else value) := by
  have last := digitValue_of_readDigits read _ (List.getLast_mem inside)
  have numeral : readNumeral 10 body = some value := by rw [readNumeral, if_neg inside, read]
  rw [trimSpaces_padded (List.cons_ne_nil sign body)
    (by rw [List.head_cons]; rcases known with rfl | rfl <;> decide)
    (by rw [List.getLast_cons inside]; exact fun same => last (by rw [same]; decide))]
  rcases known with rfl | rfl
  · rw [readSigned, if_pos rfl, if_pos rfl, numeral]
    rfl
  · rw [readSigned, if_neg (by decide), if_pos rfl, if_neg (by decide), numeral]
    rfl

end Signed

end Toyos
