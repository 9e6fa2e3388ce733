import LearningKernels.Toyos.Printk
import LearningKernels.Toyos.RoundTrip

/-!
# The field of a number

What `number` is to write for a value that is not negative: a sign, the mark of the base,
zeros up to the precision and the digits, and padding that the flags place to the left,
between the mark and the digits, or to the right. The five loops of `number`, which share
their counters, write this field for every width and precision up to `2 ^ 30`
(`Toyos.number_writes_field`).
-/

namespace Toyos

open Machine

/-- The character of a digit. -/
def digitChar (small : Bool) (digit : Nat) : Byte :=
  BitVec.ofNat 8 (if digit < 10 then 48 + digit else (if small then 87 else 55) + digit)

/-- The digits of a value without leading zeros. -/
def digitText (small : Bool) (base num : Nat) : List Byte :=
  if num = 0 then [chr '0'] else ((Nat.digits base num).map (digitChar small)).reverse

/-- The sign of a value that is not negative. -/
def signText (type : Flags) : List Byte :=
  if type.plus then [chr '+'] else if type.space then [chr ' '] else []

/-- The mark of the base. -/
def markText (type : Flags) (base : Nat) : List Byte :=
  if type.special then
    if base = 8 then [chr '0']
    else if base = 16 then [chr '0', if type.small then chr 'x' else chr 'X']
    else []
  else []

/-- **The field** of a value that is not negative. -/
def fieldText (type : Flags) (num base : Nat) (size precision : Int) : List Byte :=
  let digits := digitText type.small base num
  let places := max (digits.length : Int) precision
  let front := signText type ++ markText type base
  let zeros := List.replicate (places - digits.length).toNat (chr '0')
  let pad := (max 0 (size - (signText type).length - (markText type base).length - places)).toNat
  if type.left then front ++ zeros ++ digits ++ List.replicate pad (chr ' ')
  else if type.zeropad then front ++ List.replicate pad (chr '0') ++ zeros ++ digits
  else List.replicate pad (chr ' ') ++ front ++ zeros ++ digits

section Field

variable (stray : Stray) (type : Flags)

theorem digitAt_natCast (small : Bool) {digit : Nat} (bounded : digit < 36) :
    digitAt stray small digit = digitChar small digit := by
  unfold digitAt digitChar
  by_cases decimal : digit < 10
  · rw [if_pos (by omega), if_pos decimal, ← BitVec.ofInt_natCast]
    rfl
  · rw [if_neg (by omega), if_pos (by omega), if_neg decimal, ← BitVec.ofInt_natCast]
    cases small <;> rfl

theorem numeral_eq_digitText (small : Bool) {base : Nat} (lower : 2 ≤ base) (upper : base ≤ 36)
    (num : Nat) : numeral stray small base num = digitText small base num := by
  unfold numeral digitText
  split_ifs
  · rfl
  · congr 1
    apply List.map_congr_left
    intro digit member
    exact digitAt_natCast stray small ((Nat.digits_lt_base (by omega) member).trans_le upper)

theorem radixMark_eq (base : Nat) : radixMark stray type base = markText type base := by
  have octal : (base : Int) = 8 ↔ base = 8 := by omega
  have hexadecimal : (base : Int) = 16 ↔ base = 16 := by omega
  have letter : digitAt stray type.small 33 = if type.small then chr 'x' else chr 'X' := by
    cases type.small <;> rfl
  simp only [radixMark, markText, octal, hexadecimal, letter]

/-- For a value that is not negative the sign is that of the flags, and the value stays. -/
theorem splitSign_natCast (num : Nat) :
    (splitSign type num).1.toList = signText type ∧ (splitSign type num).2 = num := by
  rw [splitSign, if_neg fun both => absurd both.2 (by omega)]
  refine ⟨?_, rfl⟩
  simp only [signText]
  split_ifs <;> rfl

/-- Masking the padding with zeros does not change the field. -/
theorem fieldText_masked (num base : Nat) (size precision : Int) :
    fieldText type.masked num base size precision = fieldText type num base size precision := by
  unfold Flags.masked
  split_ifs with left
  · simp only [fieldText, signText, markText, left, ↓reduceIte]
  · rfl

/-- `layout` around the digits of a value is its field. -/
theorem layout_eq_fieldText {num base : Nat} (int : num < 2 ^ 31) (lower : 2 ≤ base)
    (upper : base ≤ 36) {size precision : Int} (sized : -1 ≤ size ∧ size ≤ 2 ^ 30)
    (precise : -1 ≤ precision ∧ precision ≤ 2 ^ 30) {sign : Option Byte}
    (signed : sign.toList = signText type) :
    layout type sign (radixMark stray type base) (numeral stray type.small base num).reverse
        (shrinkSize type sign base size) precision =
      fieldText type num base size precision := by
  have short := length_numeral stray type.small lower int
  have fewSigns := Option.length_toList_le (o := sign)
  have fewMarks := markColumns_le type base
  have mark : markColumns type base = (markText type base).length := by
    rw [← length_radixMark stray, radixMark_eq]
  rw [numeral_eq_digitText stray type.small lower upper] at short ⊢
  rw [mark] at fewMarks
  rw [signed] at fewSigns
  rw [shrinkSize_of_range (by omega), radixMark_eq, signed, mark]
  have room : (size - (signText type).length - (markText type base).length -
      max precision (digitText type.small base num).length).toNat =
      (max 0 (size - (signText type).length - (markText type base).length -
        max ((digitText type.small base num).length : Int) precision)).toNat := by omega
  have zeros : max precision ((digitText type.small base num).length : Int) =
      max ((digitText type.small base num).length : Int) precision := max_comm _ _
  rw [layout_of_range _ _ _ _ _ _ (by rw [List.length_reverse]; omega)
    (by rw [List.length_reverse]; omega)]
  simp only [fieldText, signed, List.length_reverse, List.reverse_reverse, List.append_assoc]
  rw [room, zeros]

/-- `number` on a value that is not negative writes its field. -/
theorem number_field_text {num base : Nat} (int : num < 2 ^ 31) (lower : 2 ≤ base)
    (upper : base ≤ 36) {size precision : Int} (sized : -1 ≤ size ∧ size ≤ 2 ^ 30)
    (precise : -1 ≤ precision ∧ precision ≤ 2 ^ 30) :
    ∃ printed, number stray num base size precision type = some printed ∧
      printed.text = fieldText type num base size precision := by
  obtain ⟨sign, value⟩ := splitSign_natCast type.masked num
  have split : splitSign type.masked num = ((splitSign type.masked num).1, (num : Int)) :=
    Prod.ext rfl value
  refine ⟨_, number_split stray lower upper split size precision, ?_⟩
  rw [← fieldText_masked]
  exact layout_eq_fieldText stray type.masked int lower upper sized precise sign

/-- `number` writes the field of every value that is not negative, and uses no more than the
36 characters of `tmp`. -/
theorem number_writes_field {num base : Nat} (int : num < 2 ^ 31) (lower : 2 ≤ base)
    (upper : base ≤ 36) {size precision : Int} (sized : -1 ≤ size ∧ size ≤ 2 ^ 30)
    (precise : -1 ≤ precision ∧ precision ≤ 2 ^ 30) :
    ∃ printed, number stray num base size precision type = some printed ∧
      printed.text = fieldText type num base size precision ∧
      (tmpChars stray type num base).length ≤ 36 := by
  obtain ⟨printed, written, text⟩ := number_field_text stray type int lower upper sized precise
  have short := length_numeral stray type.small lower int
  refine ⟨printed, written, text, ?_⟩
  rw [tmpChars_natCast stray lower, List.length_reverse]
  omega

end Field

/-- The ten columns of ` +0x0000ff`: a space, the sign, the mark and six places. -/
theorem number_writes_field_hexadecimal : ∃ printed,
    number (fun _ _ => 0) (255 : Nat) (16 : Nat) 10 6
        { plus := true, special := true, small := true } = some printed ∧
      printed.text = fieldText { plus := true, special := true, small := true } 255 16 10 6 ∧
      (tmpChars (fun _ _ => 0) { plus := true, special := true, small := true } (255 : Nat)
        (16 : Nat)).length ≤ 36 :=
  number_writes_field _ _ (by decide) (by decide) (by decide) ⟨by decide, by decide⟩
    ⟨by decide, by decide⟩

end Toyos
