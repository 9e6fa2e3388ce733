import LearningKernels.Toyos.Field

/-!
# Values of 64 bits

`%p` and the conversions with the qualifier `l` get values of 64 bits, but `number` takes an
`int`: the scanner drops the qualifier and the call drops the upper half. The digits denote
the value exactly below `2 ^ 31` (`Toyos.long_denotes_iff`); from there on the `int` is
negative and the digit table is read in front of its first entry, or it is another number.
-/

namespace Toyos

open Machine

/-- The conversions `%p`, `%lx`, `%lo` and `%lu`. -/
inductive LongConversion where
  | pointer
  | hexadecimal
  | octal
  | decimal
  deriving DecidableEq, Repr

namespace LongConversion

/-- The text of the directive. -/
def text : LongConversion → List Byte
  | pointer => [chr '%', chr 'p']
  | hexadecimal => [chr '%', chr 'l', chr 'x']
  | octal => [chr '%', chr 'l', chr 'o']
  | decimal => [chr '%', chr 'l', chr 'u']

/-- The base of the numeral. -/
def base : LongConversion → Nat
  | pointer => 16
  | hexadecimal => 16
  | octal => 8
  | decimal => 10

variable (conversion : LongConversion)

/-- The digits that are written for the value denote it. -/
def Denotes (stray : Stray) (value : Nat) : Prop :=
  ∃ formatted, vsprintf stray conversion.text [.word value] = .ok formatted ∧
    readNumeral conversion.base formatted.printed.text = some value

/-- The type options that the conversion passes to `number`. -/
def type : LongConversion → Flags
  | pointer => { zeropad := true }
  | hexadecimal => { small := true }
  | octal => {}
  | decimal => {}

/-- The width that the conversion passes to `number`: an address has eight places. -/
def size : LongConversion → Int
  | pointer => 8
  | _ => -1

theorem base_bounds : 2 ≤ conversion.base ∧ conversion.base ≤ 36 := by
  cases conversion <;> decide

/-- The directive alone is a call of `number` with the low half of the value. -/
theorem vsprintf_low (stray : Stray) (value : Int) {printed : Printed}
    (written : number stray (wrap32 value) conversion.base conversion.size (-1)
      conversion.type = some printed) :
    vsprintf stray conversion.text [.word value] = .ok ⟨printed, []⟩ := by
  have nulFree : 0 ∉ conversion.text := by cases conversion <;> decide
  have scanned : ∃ char, scan conversion.text = [.directive ⟨{}, .absent, .absent, char⟩] ∧
      conversionOf {} (-1) char =
        .number conversion.type conversion.base conversion.size := by
    cases conversion
    · exact ⟨chr 'p', by decide +kernel, rfl⟩
    · exact ⟨chr 'x', by decide +kernel, rfl⟩
    · exact ⟨chr 'o', by decide +kernel, rfl⟩
    · exact ⟨chr 'u', by decide +kernel, rfl⟩
  obtain ⟨char, items, number⟩ := scanned
  exact vsprintf_number stray nulFree items number written

/-- The field is zeros and the digits. -/
theorem fieldText_eq (value : Nat) :
    ∃ zeros, fieldText conversion.type value conversion.base conversion.size (-1) =
      List.replicate zeros (chr '0') ++
        digitText conversion.type.small conversion.base value := by
  have bare : signText conversion.type = [] ∧ markText conversion.type conversion.base = [] ∧
      conversion.type.left = false := by
    cases conversion <;> exact ⟨rfl, rfl, rfl⟩
  simp only [fieldText, bare, Bool.false_eq_true, ↓reduceIte, List.nil_append, List.append_nil,
    List.length_nil]
  split_ifs with zeropad
  · exact ⟨_, by rw [List.replicate_add, List.append_assoc]⟩
  · have narrow : conversion.size = -1 := by
      cases conversion
      · exact absurd rfl zeropad
      · rfl
      · rfl
      · rfl
    have room : (max 0 (conversion.size - (0 : Nat) - (0 : Nat) - max
        ((digitText conversion.type.small conversion.base value).length : Int) (-1))).toNat =
        0 := by
      omega
    rw [room, List.replicate_zero, List.nil_append]
    exact ⟨_, rfl⟩

/-- An `int` that is not negative is written as its digits. -/
theorem number_denotes (stray : Stray) {value : Nat} (int : value < 2 ^ 31) :
    ∃ printed, number stray value conversion.base conversion.size (-1) conversion.type =
      some printed ∧ readNumeral conversion.base printed.text = some value := by
  obtain ⟨lower, upper⟩ := conversion.base_bounds
  have sized : -1 ≤ conversion.size ∧ conversion.size ≤ 2 ^ 30 := by
    cases conversion <;> exact ⟨by decide, by decide⟩
  obtain ⟨printed, written, text⟩ := number_field_text stray conversion.type int lower upper
    sized ⟨le_rfl, by decide⟩
  obtain ⟨zeros, field⟩ := conversion.fieldText_eq value
  rw [← numeral_eq_digitText stray _ lower upper] at field
  have digits := @numeral_ne_nil stray conversion.type.small conversion.base value
  refine ⟨printed, written, ?_⟩
  rw [text, field, readNumeral, if_neg (by simp [digits]), readDigits_zeros (by omega),
    readDigits_numeral stray _ value lower upper]

/-- With no digits in front of the digit table, a negative `int` is written with something
else. -/
theorem not_denotes_of_negative {value : Nat} (negative : wrap32 value < 0) :
    ¬ conversion.Denotes (fun _ _ => 0) value := by
  rintro ⟨formatted, ran, read⟩
  obtain ⟨lower, upper⟩ := conversion.base_bounds
  obtain ⟨printed, written, _⟩ := number_columns (fun _ _ => 0) conversion.type (wrap32 value)
    lower upper conversion.size (-1)
  cases (conversion.vsprintf_low _ value written).symm.trans ran
  have unsigned : (splitSign conversion.type.masked (wrap32 value)).2 = wrap32 value := by
    cases conversion <;> rfl
  have zero : 0 ∈ printed.text := by
    have nonzero : (wrap32 value).natAbs ≠ 0 := by omega
    have digits : Nat.digits conversion.base (wrap32 value).natAbs ≠ [] :=
      Nat.digits_ne_nil_iff_ne_zero.mpr nonzero
    rw [mem_number _ _ _ _ _ _ written (by omega) (by omega) (by decide), unsigned,
      zero_mem_tmpChars _ _ lower upper]
    exact ⟨negative, _, List.getLast_mem digits, Nat.getLast_digit_ne_zero _ nonzero, rfl⟩
  unfold readNumeral at read
  split_ifs at read
  exact digitValue_of_readDigits read 0 zero (by decide)

/-- Below `2 ^ 31` the digits denote the value. -/
theorem denotes_of_int (stray : Stray) {value : Nat} (int : value < 2 ^ 31) :
    conversion.Denotes stray value := by
  obtain ⟨printed, written, read⟩ := conversion.number_denotes stray int
  rw [← @wrap32_of_range value (by omega) (by omega)] at written
  exact ⟨_, conversion.vsprintf_low stray value written, read⟩

/-- An upper half that is not zero is lost. -/
theorem not_denotes_of_upper (stray : Stray) {value : Nat} (positive : 0 ≤ wrap32 value)
    (large : 2 ^ 31 ≤ value) : ¬ conversion.Denotes stray value := by
  rintro ⟨formatted, ran, read⟩
  obtain ⟨low, same⟩ : ∃ low : Nat, wrap32 value = low := ⟨(wrap32 value).toNat, by omega⟩
  have range := wrap32_range value
  obtain ⟨printed, written, denotes⟩ := @number_denotes conversion stray low (by omega)
  rw [← same] at written
  cases (conversion.vsprintf_low stray value written).symm.trans ran
  have equal : low = value := Option.some.inj (denotes.symm.trans read)
  omega

end LongConversion

/-- **Values of 64 bits.** The digits for `%p`, `%lx`, `%lo` and `%lu` denote the value,
whatever lies around the digit tables, exactly for the values below `2 ^ 31`. -/
theorem long_denotes_iff (conversion : LongConversion) (value : BitVec 64) :
    (∀ stray, conversion.Denotes stray value.toNat) ↔ value.toNat < 2 ^ 31 := by
  constructor
  · intro denotes
    by_contra large
    rcases lt_or_ge (wrap32 value.toNat) 0 with negative | positive
    · exact conversion.not_denotes_of_negative negative (denotes _)
    · exact conversion.not_denotes_of_upper (fun _ _ => 0) positive (by omega) (denotes _)
  · intro int stray
    exact conversion.denotes_of_int stray int

/-- `%lx` of `2 ^ 32` prints a zero, and `%p` of an address from `2 ^ 31` on prints what lies in
front of the digit table. -/
theorem long_loses_upper :
    (∀ stray, ¬ LongConversion.hexadecimal.Denotes stray 0x100000000) ∧
      ¬ LongConversion.pointer.Denotes (fun _ _ => 0) 0x80200000 :=
  ⟨fun stray => LongConversion.hexadecimal.not_denotes_of_upper stray (by decide) (by decide),
    LongConversion.pointer.not_denotes_of_negative (by decide)⟩

end Toyos
