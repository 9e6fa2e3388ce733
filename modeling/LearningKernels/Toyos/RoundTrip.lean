import LearningKernels.Toyos.Spelling

/-!
# Numbers that read back

`number` carries every value as a signed `int`. A value that is not negative is
written with its digits and reads back; a negative one has lost its digits when
`%d` writes it (`num -= num`) and leaves the digit table when an unsigned
conversion does. So `%d` and `%i` read back exactly the values from zero on
(`Toyos.decimal_roundTrip_iff`), and `%u`, `%o`, `%x` and `%X` those below `2 ^ 31`
(`Toyos.unsigned_roundTrip_iff`).
-/

namespace Toyos

open Machine

section Values

variable (stray : Stray) {base : Nat} (lower : 2 ≤ base) (upper : base ≤ 36)

theorem length_numeral (small : Bool) (radix : 2 ≤ base) {value : Nat} (int : value < 2 ^ 31) :
    (numeral stray small base value).length ≤ 31 := by
  unfold numeral
  split_ifs with zero
  · decide
  · rw [List.length_reverse, List.length_map, Nat.digits_length_le_iff (by omega)]
    exact int.trans_le (Nat.pow_le_pow_left radix 31)

include lower

/-- `tmp` holds the digits of a value that is not negative, last one first. -/
theorem tmpChars_natCast (type : Flags) (value : Nat) :
    tmpChars stray type value base = (numeral stray type.small base value).reverse := by
  rw [tmpChars, divLoop_natCast value lower, numeral, List.map_map]
  by_cases zero : value = 0
  · rw [if_pos (by omega), if_pos zero]
    rfl
  · rw [if_neg (by omega), if_neg zero, List.reverse_reverse]
    rfl

include upper

/-- `number` on a value that is not negative once its sign is split off. -/
theorem number_split {num : Int} {type : Flags} {sign : Option Byte} {value : Nat}
    (split : splitSign type.masked num = (sign, (value : Int))) (size precision : Int) :
    number stray num base size precision type =
      some
        { text := layout type.masked sign (radixMark stray type.masked base)
            (numeral stray type.masked.small base value).reverse
            (shrinkSize type.masked sign base size) precision
          reads := (Nat.digits base value).map (fun digit : Nat => (digit : Int)) ++
            radixReads type.masked base } := by
  rw [number_eq _ _ _ _ _ _ (by omega) (by omega), split]
  simp only [tmpChars_natCast stray lower, divLoop_natCast value lower]

end Values

section Unsigned

/-- Without a width and a precision the field is the digits. -/
theorem layout_bare (small : Bool) {tmp : List Byte} (short : tmp.length ≤ 31) :
    layout { small := small } none [] tmp (-1) (-1) = tmp.reverse := by
  have room : (-1 - max (-1) (tmp.length : Int)).toNat = 0 := by omega
  have zeros : (max (-1) (tmp.length : Int) - tmp.length).toNat = 0 := by omega
  rw [layout_of_range _ _ _ _ _ _ (by omega) (by omega)]
  simp only [room, zeros, Bool.false_eq_true, ↓reduceIte, Option.toList_none, List.replicate_zero,
    List.nil_append]

/-- Without flags, width and precision a value that is not negative is written as its
numeral. -/
theorem number_bare (stray : Stray) (small : Bool) {base : Nat} (lower : 2 ≤ base)
    (upper : base ≤ 36) {value : Nat} (int : value < 2 ^ 31) :
    number stray value base (-1) (-1) { small := small } =
      some
        { text := numeral stray small base value
          reads := (Nat.digits base value).map fun digit : Nat => (digit : Int) } := by
  have short := length_numeral stray small lower int
  rw [← List.length_reverse] at short
  have text := layout_bare small short
  rw [List.reverse_reverse] at text
  have split : splitSign (Flags.masked { small := small }) value = (none, (value : Int)) := rfl
  have reads : radixReads (Flags.masked { small := small }) base = [] := rfl
  rw [number_split stray lower upper split, reads, List.append_nil]
  exact congrArg (fun text => some (Printed.mk text _ [])) text

/-- An unsigned conversion of a negative value reads the digit table at the negated
digits. -/
theorem number_reads (stray : Stray) (small : Bool) {base : Nat} (lower : 2 ≤ base)
    (upper : base ≤ 36) (num : Int) :
    ∃ printed, number stray num base (-1) (-1) { small := small } = some printed ∧
      printed.reads = divLoop num base := by
  rw [number_eq _ _ _ _ _ _ (by omega) (by omega)]
  exact ⟨_, rfl, List.append_nil _⟩

/-- A negative value leaves the digit table. -/
theorem divLoop_leaves {num : Int} (negative : num < 0) {base : Nat} (radix : 2 ≤ base) :
    ∃ index ∈ divLoop num base, index < 0 := by
  obtain ⟨magnitude, rfl⟩ : ∃ magnitude : Nat, num = -magnitude := ⟨num.natAbs, by omega⟩
  have nonzero : magnitude ≠ 0 := by omega
  have digits : Nat.digits base magnitude ≠ [] := Nat.digits_ne_nil_iff_ne_zero.mpr nonzero
  have last := Nat.getLast_digit_ne_zero base nonzero
  refine ⟨-((Nat.digits base magnitude).getLast digits : Int), ?_, by omega⟩
  rw [divLoop_neg, divLoop_natCast magnitude radix, List.map_map]
  exact List.mem_map.mpr ⟨_, List.getLast_mem digits, rfl⟩

/-- A directive without flags, width and precision that calls `number`. -/
theorem vsprintf_number (stray : Stray) {fmt : List Byte} (nulFree : 0 ∉ fmt) {char : Byte}
    (scanned : scan fmt = [.directive ⟨{}, .absent, .absent, char⟩]) {type : Flags} {base : Nat}
    {size : Int} (conversion : conversionOf {} (-1) char = .number type base size) {value : Int}
    {printed : Printed}
    (written : number stray (wrap32 value) base size (-1) type = some printed) :
    vsprintf stray fmt [.word value] = .ok ⟨printed, []⟩ := by
  have converted : convert stray {} (-1) (-1) char [.word value] 0 = .ok (printed, []) := by
    rw [convert_eq, conversion]
    simp only [Conversion.run, convertNumber, vaArgInt, bind, Except.bind, written]
    rfl
  have print : Directive.print stray ⟨{}, .absent, .absent, char⟩ [.word value] 0 =
      convert stray {} (-1) (-1) char [.word value] 0 := rfl
  rw [vsprintf_single stray nulFree scanned, print, converted]
  rfl

/-- The unsigned conversions `%u`, `%o`, `%x` and `%X`. -/
inductive UnsignedConversion where
  | decimal
  | octal
  | hexSmall
  | hexCapital
  deriving DecidableEq, Repr

namespace UnsignedConversion

/-- The conversion character. -/
def char : UnsignedConversion → Byte
  | decimal => chr 'u'
  | octal => chr 'o'
  | hexSmall => chr 'x'
  | hexCapital => chr 'X'

/-- The base of the numeral. -/
def base : UnsignedConversion → Nat
  | decimal => 10
  | octal => 8
  | hexSmall => 16
  | hexCapital => 16

/-- The numeral has small letters. -/
def small : UnsignedConversion → Bool
  | hexSmall => true
  | _ => false

variable (conversion : UnsignedConversion)

theorem base_range : 2 ≤ conversion.base ∧ conversion.base ≤ 36 := by
  cases conversion <;> decide

/-- The call reads the digit table inside the base only, and the text is the numeral of
the value without a leading zero. -/
def RoundTrips (stray : Stray) (value : Nat) : Prop :=
  ∃ formatted, vsprintf stray [chr '%', conversion.char] [.word value] = .ok formatted ∧
    (∀ index ∈ formatted.printed.reads, 0 ≤ index ∧ index < conversion.base) ∧
    readNumeral conversion.base formatted.printed.text = some value ∧
    (formatted.printed.text.head? = some (chr '0') → value = 0)

/-- The directive alone is a call of `number`. -/
theorem vsprintf_eq (stray : Stray) {value : Int} {printed : Printed}
    (written : number stray (wrap32 value) conversion.base (-1) (-1)
      { small := conversion.small } = some printed) :
    vsprintf stray [chr '%', conversion.char] [.word value] = .ok ⟨printed, []⟩ := by
  have nulFree : 0 ∉ [chr '%', conversion.char] := by cases conversion <;> decide
  have scanned : scan [chr '%', conversion.char] =
      [.directive ⟨{}, .absent, .absent, conversion.char⟩] := by
    cases conversion <;> decide +kernel
  have number : conversionOf {} (-1) conversion.char =
      .number { small := conversion.small } conversion.base (-1) := by
    cases conversion <;> rfl
  exact vsprintf_number stray nulFree scanned number written

/-- Below `2 ^ 31` the value reads back. -/
theorem roundTrips_of_int (stray : Stray) {value : Nat} (int : value < 2 ^ 31) :
    conversion.RoundTrips stray value := by
  obtain ⟨lower, upper⟩ := conversion.base_range
  have written := number_bare stray conversion.small lower upper int
  rw [← @wrap32_of_range value (by omega) (by omega)] at written
  refine ⟨_, conversion.vsprintf_eq stray written, ?_, ?_, ?_⟩
  · intro index member
    obtain ⟨digit, inside, rfl⟩ := List.mem_map.mp member
    have bounded := Nat.digits_lt_base (by omega) inside
    omega
  · rw [readNumeral, if_neg (numeral_ne_nil stray _ value),
      readDigits_numeral stray _ value lower upper]
  · exact numeral_head stray _ value lower upper

/-- From `2 ^ 31` on the digit table is read at a negative index. -/
theorem not_roundTrips (stray : Stray) {value : Nat} (word : value < 2 ^ 32)
    (negative : 2 ^ 31 ≤ value) : ¬ conversion.RoundTrips stray value := by
  rintro ⟨formatted, ran, inside, _⟩
  obtain ⟨lower, upper⟩ := conversion.base_range
  obtain ⟨printed, written, reads⟩ :=
    number_reads stray conversion.small lower upper (wrap32 value)
  cases (conversion.vsprintf_eq stray written).symm.trans ran
  obtain ⟨index, member, below⟩ :=
    @divLoop_leaves (wrap32 value) (by unfold wrap32; omega) _ lower
  rw [← reads] at member
  have bound := (inside index member).1
  omega

end UnsignedConversion

/-- **Unsigned conversions.** `%u`, `%o`, `%x` and `%X` read the digit table inside the
base only and write the numeral of the value exactly for the values below `2 ^ 31`. -/
theorem unsigned_roundTrip_iff (stray : Stray) (conversion : UnsignedConversion) {value : Nat}
    (word : value < 2 ^ 32) :
    conversion.RoundTrips stray value ↔ value < 2 ^ 31 := by
  constructor
  · intro roundTrips
    by_contra negative
    exact conversion.not_roundTrips stray word (by omega) roundTrips
  · exact conversion.roundTrips_of_int stray

/-- `%x` reads 255 back. -/
theorem unsigned_roundTrip_255 : UnsignedConversion.hexSmall.RoundTrips (fun _ _ => 0) 255 :=
  (unsigned_roundTrip_iff _ _ (by decide)).mpr (by decide)

/-- `%u` of the largest unsigned value reads the table in front of its first entry. -/
theorem unsigned_leaves_table :
    ¬ UnsignedConversion.decimal.RoundTrips (fun _ _ => 0) 4294967295 :=
  UnsignedConversion.decimal.not_roundTrips _ (by decide) (by decide)

end Unsigned

section Decimal

/-- A directive `%d` or `%i` with flags among `-`, `+`, space and `0`, a literal width and
a literal precision, both below `2 ^ 30`. Zeros in front of the width are flags. -/
structure DecimalDirective where
  flags : List Byte
  width : List Byte
  precision : Option (List Byte)
  conversion : Byte
  flags_known : ∀ char ∈ flags, char ∈ [chr '-', chr '+', chr ' ', chr '0']
  width_digits : ∀ char ∈ width, isDigit char
  width_head : width.headD 0 ≠ chr '0'
  width_small : literalValue width 0 < 2 ^ 30
  precision_digits : ∀ digits ∈ precision, ∀ char ∈ digits, isDigit char
  precision_small : ∀ digits ∈ precision, literalValue digits 0 < 2 ^ 30
  conversion_known : conversion = chr 'd' ∨ conversion = chr 'i'

namespace DecimalDirective

/-- The text of the precision. -/
def precisionText (precision : Option (List Byte)) : List Byte :=
  match precision with
  | none => []
  | some digits => chr '.' :: digits

variable (directive : DecimalDirective)

/-- The text of the directive. -/
def text : List Byte :=
  chr '%' :: (directive.flags ++ (directive.width ++
    (precisionText directive.precision ++ [directive.conversion])))

/-- The call writes, between spaces, a decimal numeral whose signed value is `n`. -/
def RoundTrips (stray : Stray) (n : Int) : Prop :=
  ∃ formatted, vsprintf stray directive.text [.word n] = .ok formatted ∧
    readSigned (trimSpaces formatted.printed.text) = some n

end DecimalDirective

namespace DecimalDirective

variable (directive : DecimalDirective)

/-- The directive as a literal one. -/
def literal : LiteralDirective where
  flags := directive.flags
  qualifier := []
  conversion := directive.conversion
  flags_known char member := by
    have known := directive.flags_known char member
    simp only [List.mem_cons, List.not_mem_nil, or_false] at known
    rcases known with rfl | rfl | rfl | rfl <;> decide
  qualifier_known := List.mem_cons_self
  conversion_known := by
    rcases directive.conversion_known with known | known <;> rw [known] <;> decide
  width := directive.width
  precision := directive.precision
  width_digits := directive.width_digits
  width_head := directive.width_head
  width_small := directive.width_small.trans (by decide)
  precision_digits := directive.precision_digits
  precision_small digits given := (directive.precision_small digits given).trans (by decide)

theorem text_eq : directive.text = directive.literal.text := by
  have precision (given : Option (List Byte))
      (all : ∀ digits ∈ given, ∀ char ∈ digits, isDigit char) :
      precisionText given = (spellPrecision given all).text := by
    cases given <;> rfl
  rw [text, precision _ directive.precision_digits]
  rfl

theorem special_flags : (flagsOf directive.flags).special = false := by
  rw [special_flagsOf, decide_eq_false_iff_not]
  intro member
  exact absurd (directive.flags_known _ member) (by decide)

theorem fieldWidth_range : -1 ≤ directive.literal.fieldWidth ∧
    directive.literal.fieldWidth < 2 ^ 30 := by
  have small : literalValue directive.literal.width 0 < 2 ^ 30 := directive.width_small
  unfold LiteralDirective.fieldWidth
  split_ifs <;> omega

theorem precisionValue_range : -1 ≤ directive.literal.precisionValue ∧
    directive.literal.precisionValue < 2 ^ 30 := by
  have small : ∀ digits ∈ directive.literal.precision, literalValue digits 0 < 2 ^ 30 :=
    directive.precision_small
  unfold LiteralDirective.precisionValue
  cases given : directive.literal.precision with
  | none => exact ⟨by decide, by decide⟩
  | some digits =>
      have bound := small digits given
      simp only
      omega

/-- The directive alone is a call of `number` with the sign option and without a mark. -/
theorem vsprintf_eq (stray : Stray) {n : Int} (lower : -2 ^ 31 ≤ n) (upper : n < 2 ^ 31) :
    ∃ type size precision, Flags.sign type = true ∧ type.special = false ∧
      (-1 ≤ size ∧ size < 2 ^ 30) ∧ (-1 ≤ precision ∧ precision < 2 ^ 30) ∧
      ∀ printed, number stray n 10 size precision type = some printed →
        vsprintf stray directive.text [.word n] = .ok ⟨printed, []⟩ := by
  refine ⟨{ flagsOf directive.flags with sign := true }, _, _, rfl, directive.special_flags,
    directive.fieldWidth_range, directive.precisionValue_range, ?_⟩
  intro printed written
  have converted : convert stray (flagsOf directive.flags) directive.literal.fieldWidth
      directive.literal.precisionValue directive.conversion [.word n] 0 =
      convertNumber stray { flagsOf directive.flags with sign := true }
        directive.literal.fieldWidth directive.literal.precisionValue 10 [.word n] := by
    rcases directive.conversion_known with known | known <;> rw [known] <;> rfl
  rw [text_eq, directive.literal.vsprintf_eq]
  change (convert stray (flagsOf directive.flags) _ _ directive.conversion _ 0).map _ = _
  rw [converted, convertNumber]
  simp only [vaArgInt, bind, Except.bind, wrap32_of_range lower upper, written]
  rfl

end DecimalDirective

section Field

variable (stray : Stray) {type : Flags} {n : Int} {value : Nat} {sign : Option Byte}

/-- The field of a decimal number, when neither the width nor the precision is near the
end of the range. -/
theorem number_field (special : type.special = false) (int : value < 2 ^ 31)
    (split : splitSign type.masked n = (sign, (value : Int))) {size precision : Int}
    (sized : -1 ≤ size ∧ size < 2 ^ 30) (precise : -1 ≤ precision ∧ precision < 2 ^ 30) :
    ∃ printed before zeros after, number stray n 10 size precision type = some printed ∧
      printed.text = List.replicate before (chr ' ') ++ sign.toList ++
        (List.replicate zeros (chr '0') ++ numeral stray type.masked.small 10 value) ++
        List.replicate after (chr ' ') := by
  have plain : type.masked.special = false := by
    unfold Flags.masked
    split_ifs <;> exact special
  have mark : radixMark stray type.masked 10 = [] := by
    rw [radixMark, plain]
    rfl
  have short := length_numeral stray type.masked.small (by decide : 2 ≤ 10) int
  have shrunk : size - 1 ≤ shrinkSize type.masked sign 10 size ∧
      shrinkSize type.masked sign 10 size ≤ size := by
    simp only [shrinkSize, plain, Bool.false_eq_true, ↓reduceIte]
    split_ifs
    · rw [wrap32_of_range (by omega) (by omega)]
      omega
    · omega
  have written := @number_split stray 10 (by decide) (by decide) _ _ _ _ split size precision
  obtain ⟨before, zeros, after, shape⟩ := layout_shape type.masked sign []
    (numeral stray type.masked.small 10 value).reverse (shrinkSize type.masked sign 10 size)
    precision (by rw [List.length_reverse]; omega) (by omega)
  refine ⟨_, before, zeros, after, written, ?_⟩
  rw [List.reverse_reverse, List.append_nil] at shape
  simp only [Nat.cast_ofNat, mark, shape, List.append_assoc]

/-- A signed numeral between spaces reads as its value with that sign. -/
theorem readSigned_field
    (known : sign ∈ [none, some (chr ' '), some (chr '+'), some (chr '-')]) (small : Bool)
    (before zeros after : Nat) :
    readSigned (trimSpaces (List.replicate before (chr ' ') ++ sign.toList ++
      (List.replicate zeros (chr '0') ++ numeral stray small 10 value) ++
      List.replicate after (chr ' '))) =
      some (if sign = some (chr '-') then -(value : Int) else value) := by
  have inside : List.replicate zeros (chr '0') ++ numeral stray small 10 value ≠ [] :=
    List.append_ne_nil_of_right_ne_nil _ (numeral_ne_nil stray small value)
  have read : readDigits 10 (List.replicate zeros (chr '0') ++ numeral stray small 10 value) 0 =
      some value := by
    rw [readDigits_zeros (by decide), readDigits_numeral stray small value (by decide) (by decide)]
  simp only [List.mem_cons, List.not_mem_nil, or_false] at known
  rcases known with rfl | rfl | rfl | rfl
  · rw [Option.toList_none, List.append_nil]
    exact readSigned_unsigned inside read before after
  · -- The sign is one more space of the padding.
    rw [Option.toList_some, ← List.replicate_succ']
    exact readSigned_unsigned inside read (before + 1) after
  · rw [Option.toList_some, List.append_assoc _ [chr '+']]
    exact readSigned_signed inside read (.inr rfl) before after
  · rw [Option.toList_some, List.append_assoc _ [chr '-']]
    exact readSigned_signed inside read (.inl rfl) before after

end Field

namespace DecimalDirective

variable (directive : DecimalDirective)

/-- What the call writes reads as `n` when `n` is not negative, and as zero otherwise. -/
theorem vsprintf_reads (stray : Stray) {n : Int} (lower : -2 ^ 31 ≤ n) (upper : n < 2 ^ 31) :
    ∃ formatted, vsprintf stray directive.text [.word n] = .ok formatted ∧
      readSigned (trimSpaces formatted.printed.text) = some (if n < 0 then 0 else n) := by
  obtain ⟨type, size, precision, signed, special, sized, precise, run⟩ :=
    directive.vsprintf_eq stray lower upper
  have masked : type.masked.sign = true := by
    unfold Flags.masked
    split_ifs <;> exact signed
  by_cases negative : n < 0
  · have split : splitSign type.masked n = (some (chr '-'), ((0 : Nat) : Int)) := by
      rw [splitSign, if_pos ⟨masked, negative⟩, Int.sub_self]
      rfl
    obtain ⟨printed, before, zeros, after, written, text⟩ :=
      number_field stray special (by decide) split sized precise
    refine ⟨_, run printed written, ?_⟩
    rw [text, readSigned_field stray (by decide), if_pos negative]
    rfl
  · obtain ⟨sign, known, split⟩ : ∃ sign ∈ [none, some (chr ' '), some (chr '+')],
        splitSign type.masked n = (sign, (n.toNat : Int)) := by
      rw [splitSign, if_neg fun both => negative both.2, Int.toNat_of_nonneg (by omega)]
      refine ⟨_, ?_, rfl⟩
      split_ifs <;> decide
    obtain ⟨printed, before, zeros, after, written, text⟩ :=
      number_field stray special (by omega) split sized precise
    have positive : sign ≠ some (chr '-') := by
      rintro rfl
      exact absurd known (by decide)
    refine ⟨_, run printed written, ?_⟩
    rw [text, readSigned_field stray (List.mem_of_mem_dropLast known), if_neg positive,
      if_neg negative, Int.toNat_of_nonneg (by omega)]

theorem not_roundTrips (stray : Stray) {n : Int} (lower : -2 ^ 31 ≤ n) (negative : n < 0) :
    ¬ directive.RoundTrips stray n := by
  rintro ⟨formatted, ran, read⟩
  obtain ⟨_, sameRun, reads⟩ := directive.vsprintf_reads stray lower (by omega)
  cases sameRun.symm.trans ran
  rw [reads, if_pos negative, Option.some.injEq] at read
  omega

/-- `%d`. -/
def plain : DecimalDirective where
  flags := []
  width := []
  precision := none
  conversion := chr 'd'
  flags_known := by decide
  width_digits := by decide
  width_head := by decide
  width_small := by decide
  precision_digits := by decide
  precision_small := by decide
  conversion_known := .inl rfl

end DecimalDirective

/-- **Signed conversions.** Under every choice of flags, width and precision `%d` and
`%i` write a numeral of the value exactly for the values that are not negative. -/
theorem decimal_roundTrip_iff (stray : Stray) (directive : DecimalDirective) {n : Int}
    (lower : -2 ^ 31 ≤ n) (upper : n < 2 ^ 31) :
    directive.RoundTrips stray n ↔ 0 ≤ n := by
  constructor
  · intro roundTrips
    by_contra negative
    exact directive.not_roundTrips stray lower (by omega) roundTrips
  · intro natural
    obtain ⟨formatted, ran, reads⟩ := directive.vsprintf_reads stray lower upper
    rw [if_neg (by omega)] at reads
    exact ⟨formatted, ran, reads⟩

/-- `%d` reads 42 back. -/
theorem decimal_roundTrip_42 : DecimalDirective.plain.RoundTrips (fun _ _ => 0) 42 :=
  (decimal_roundTrip_iff _ _ (by decide) (by decide)).mpr (by decide)

/-- `%d` of -5 is `-0`. -/
theorem decimal_loses_digits : ¬ DecimalDirective.plain.RoundTrips (fun _ _ => 0) (-5) :=
  DecimalDirective.plain.not_roundTrips _ (by decide) (by decide)

end Decimal

end Toyos
