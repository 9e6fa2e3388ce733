import Mathlib.Data.Nat.Digits.Lemmas
import LearningKernels.Machine.Countdown

/-!
# Formatting one number

`do_div` and `number` of `vsprintf.cpp`. The value is a signed `int` throughout,
so the remainder that indexes the digit table is negative for a negative value;
what the table reads as there is a parameter. The pointer `str` only moves
forward by one with each store, so the stores are the list of bytes written.
-/

namespace Toyos

open Machine

/-- The byte of an ASCII character. -/
def chr (char : Char) : Byte := BitVec.ofNat 8 char.toNat

/-- The type options `ZEROPAD`, `SIGN`, `PLUS`, `SPACE`, `LEFT`, `SPECIAL`, `SMALL`. -/
structure Flags where
  zeropad : Bool := false
  sign : Bool := false
  plus : Bool := false
  space : Bool := false
  left : Bool := false
  special : Bool := false
  small : Bool := false
  deriving DecidableEq, Repr

/-- What the digit tables read as outside their 37 bytes, by table and index. -/
abbrev Stray := Bool → Int → Byte

/-- `digits[index]`, in the table of small letters or of capitals. -/
def digitAt (stray : Stray) (small : Bool) (index : Int) : Byte :=
  if 0 ≤ index ∧ index < 10 then
    BitVec.ofInt 8 (48 + index)
  else if 10 ≤ index ∧ index < 36 then
    BitVec.ofInt 8 ((if small then 87 else 55) + index)
  else if index = 36 then
    0
  else
    stray small index

/-- `do_div`: the remainder, and the quotient left in `*n`. -/
def doDiv (num base : Int) : Int × Int := (num.tmod base, num.tdiv base)

/-- The table indices of the division loop of `number`. The bases below two, on which
it would not end, `number` has turned away before. -/
def divLoop (num base : Int) : List Int :=
  if _more : num ≠ 0 ∧ 2 ≤ base then
    (doDiv num base).1 :: divLoop (doDiv num base).2 base
  else
    []
termination_by num.natAbs
decreasing_by
  rw [doDiv, Int.natAbs_tdiv]
  exact Nat.div_lt_self (by omega) (by omega)

/-- What a conversion does: the bytes it stores, the digit-table indices it reads and
the cells it stores to. -/
structure Printed where
  text : List Byte
  reads : List Int := []
  cells : List (Int × Int) := []
  deriving DecidableEq

/-- The sign character and the value left to print. The source clears a negative value
(`num -= num`) where it means to negate it. -/
def splitSign (type : Flags) (num : Int) : Option Byte × Int :=
  if type.sign ∧ num < 0 then
    (some (chr '-'), wrap32 (num - num))
  else
    (if type.plus then some (chr '+') else if type.space then some (chr ' ') else none, num)

/-- The characters `SPECIAL` puts in front of the digits. -/
def radixMark (stray : Stray) (type : Flags) (base : Int) : List Byte :=
  if type.special then
    if base = 8 then [chr '0']
    else if base = 16 then [chr '0', digitAt stray type.small 33]
    else []
  else []

/-- The table index `SPECIAL` reads for the `x`. -/
def radixReads (type : Flags) (base : Int) : List Int :=
  if type.special ∧ base = 16 then [33] else []

/-- The width left beside the sign and the mark. -/
def shrinkSize (type : Flags) (sign : Option Byte) (base size : Int) : Int :=
  let size := if sign.isSome then wrap32 (size - 1) else size
  if type.special then
    if base = 16 then wrap32 (size - 2) else if base = 8 then wrap32 (size - 1) else size
  else size

/-- The second half of `number`: the field around the digits in `tmp`, which are the
last ones first. -/
def layout (type : Flags) (sign : Option Byte) (mark tmp : List Byte) (size precision : Int) :
    List Byte :=
  let c := if type.zeropad then chr '0' else chr ' '
  let i : Int := tmp.length
  let precision := if precision < i then i else precision
  let size := wrap32 (size - precision)
  let (lead, size) :=
    if ¬ (type.zeropad ∨ type.left) then fillWhile (chr ' ') 0 size else ([], size)
  let (fill, size) := if ¬ type.left then fillWhile c 0 size else ([], size)
  let (zeros, _) := fillWhile (chr '0') i precision
  let (trail, _) := fillWhile (chr ' ') 0 size
  lead ++ sign.toList ++ mark ++ fill ++ zeros ++ tmp.reverse ++ trail

/-- Left adjustment turns the padding with zeros off. -/
def Flags.masked (type : Flags) : Flags :=
  if type.left then { type with zeropad := false } else type

/-- `number`; `none` is the null pointer it returns for a base it cannot handle. -/
def number (stray : Stray) (num base size precision : Int) (type : Flags) : Option Printed :=
  let type := type.masked
  if base < 2 ∨ 36 < base then
    none
  else
    let (sign, num) := splitSign type num
    let size := shrinkSize type sign base size
    let reads := divLoop num base
    let tmp := if num = 0 then [chr '0'] else reads.map (digitAt stray type.small)
    some
      { text := layout type sign (radixMark stray type base) tmp size precision
        reads := reads ++ radixReads type base }

/-- The characters that `number` stores to `tmp`, from index 0 on. -/
def tmpChars (stray : Stray) (type : Flags) (num base : Int) : List Byte :=
  if num = 0 then [chr '0'] else (divLoop num base).map (digitAt stray type.small)

/-- The table indices of a value that is not negative are its digits. -/
theorem divLoop_natCast (value : Nat) {base : Nat} (radix : 2 ≤ base) :
    divLoop value base = (Nat.digits base value).map fun digit : Nat => (digit : Int) := by
  induction value using Nat.strong_induction_on with
  | _ value ih =>
      rw [divLoop]
      rcases Nat.eq_zero_or_pos value with zero | positive
      · subst zero
        simp
      · have less : value / base < value := Nat.div_lt_self positive (by omega)
        rw [dif_pos ⟨by omega, by omega⟩, doDiv, ← Int.ofNat_tmod, ← Int.ofNat_tdiv,
          ih _ less, Nat.digits_def' (by omega) positive, List.map_cons]

/-- A negative value has the negated indices of its magnitude. -/
theorem divLoop_neg (num base : Int) :
    divLoop (-num) base = (divLoop num base).map fun index => -index := by
  fun_induction divLoop num base with
  | case1 num more ih =>
      rw [divLoop, dif_pos ⟨by omega, more.2⟩, List.map_cons, ← ih]
      simp only [doDiv, Int.neg_tmod, Int.neg_tdiv]
  | case2 num done =>
      rw [divLoop, dif_neg (by omega), List.map_nil]

/-- The padding loops `number` runs through. -/
def padRounds (type : Flags) : Nat := if type.left then 1 else if type.zeropad then 2 else 3

/-- The length of the field `number` lays out, for `digits` digits. -/
def fieldLength (type : Flags) (sign : Option Byte) (mark digits : Nat) (size precision : Int) :
    Nat :=
  sign.toList.length + mark + (max precision digits).toNat +
    whileColumns 0 (padRounds type) (wrap32 (size - max precision digits))

section Layout

variable (type : Flags) (sign : Option Byte) (mark tmp : List Byte) (size precision : Int)

theorem extend_precision (digits : Nat) :
    (if precision < digits then (digits : Int) else precision) = max precision digits := by
  split_ifs <;> omega

theorem length_layout :
    (layout type sign mark tmp size precision).length =
      fieldLength type sign mark.length tmp.length size precision := by
  simp only [layout, extend_precision, fieldLength, padRounds]
  generalize wrap32 (size - max precision tmp.length) = room
  have zeros : (max precision (tmp.length : Int) - tmp.length).toNat + tmp.length =
      (max precision (tmp.length : Int)).toNat := by omega
  by_cases left : type.left
  · simp only [left, or_true, not_true_eq_false, ↓reduceIte, fillWhile_eq, List.nil_append,
      List.append_nil, List.length_append, List.length_replicate, List.length_reverse, whileColumns]
    omega
  · by_cases zeropad : type.zeropad
    · simp only [left, zeropad, Bool.false_eq_true, or_false, not_true_eq_false,
        not_false_eq_true, ↓reduceIte, fillWhile_eq, List.nil_append, List.length_append,
        List.length_replicate, List.length_reverse, whileColumns]
      omega
    · simp only [left, zeropad, Bool.false_eq_true, or_self, not_false_eq_true, ↓reduceIte,
        fillWhile_eq, List.length_append, List.length_replicate, List.length_reverse,
        whileColumns]
      omega

/-- When the width does not wrap around, the field is as the flags say: adjusted to the left,
filled up with zeros behind the mark, or adjusted to the right. -/
theorem layout_of_range (lower : -2 ^ 31 + 3 ≤ size - max precision tmp.length)
    (upper : size - max precision tmp.length < 2 ^ 31) :
    layout type sign mark tmp size precision =
      let room := (size - max precision tmp.length).toNat
      let number := List.replicate (max precision tmp.length - tmp.length).toNat (chr '0') ++
        tmp.reverse
      if type.left then sign.toList ++ mark ++ number ++ List.replicate room (chr ' ')
      else if type.zeropad then sign.toList ++ mark ++ List.replicate room (chr '0') ++ number
      else List.replicate room (chr ' ') ++ sign.toList ++ mark ++ number := by
  simp only [layout, extend_precision]
  rw [wrap32_of_range (by omega) upper]
  generalize size - max precision tmp.length = room at lower upper
  by_cases left : type.left
  · simp only [left, or_true, not_true_eq_false, ↓reduceIte, fillWhile_eq, List.nil_append,
      List.append_nil, Int.sub_zero, List.append_assoc]
  · have spent : wrap32 (min 0 room - 1) = min 0 room - 1 := wrap32_of_range (by omega) (by omega)
    have empty : (min 0 room - 1).toNat = 0 := by omega
    by_cases zeropad : type.zeropad
    · simp only [left, zeropad, Bool.false_eq_true, or_false, not_true_eq_false,
        not_false_eq_true, ↓reduceIte, fillWhile_eq, spent, empty, List.replicate_zero,
        List.nil_append, List.append_nil, Int.sub_zero, List.append_assoc]
    · have spentTwice : wrap32 (min 0 (min 0 room - 1) - 1) = min 0 (min 0 room - 1) - 1 :=
        wrap32_of_range (by omega) (by omega)
      have emptyTwice : (min 0 (min 0 room - 1) - 1).toNat = 0 := by omega
      simp only [left, zeropad, Bool.false_eq_true, or_self, not_false_eq_true, ↓reduceIte,
        fillWhile_eq, spent, spentTwice, empty, emptyTwice, List.replicate_zero,
        List.append_nil, Int.sub_zero, List.append_assoc]

/-- Then the field is spaces, the sign and the mark, zeros and digits, and spaces again. -/
theorem layout_shape (lower : -2 ^ 31 + 3 ≤ size - max precision tmp.length)
    (upper : size - max precision tmp.length < 2 ^ 31) :
    ∃ before zeros after, layout type sign mark tmp size precision =
      List.replicate before (chr ' ') ++ sign.toList ++ mark ++
        List.replicate zeros (chr '0') ++ tmp.reverse ++ List.replicate after (chr ' ') := by
  rw [layout_of_range _ _ _ _ _ _ lower upper]
  generalize (size - max precision tmp.length).toNat = room
  generalize (max precision tmp.length - tmp.length).toNat = zeros
  simp only
  split_ifs
  · exact ⟨0, zeros, room, by simp only [List.replicate_zero, List.nil_append, List.append_assoc]⟩
  · exact ⟨0, room + zeros, 0, by simp only [List.replicate_zero, List.nil_append,
      List.append_nil, List.replicate_add, List.append_assoc]⟩
  · exact ⟨room, zeros, 0, by simp only [List.replicate_zero, List.append_nil, List.append_assoc]⟩

/-- Whatever the counters do, a field is made of padding, the sign, the mark and the digits. -/
theorem layout_parts : ∃ before between zeros after, ∃ byte ∈ [chr ' ', chr '0'],
    layout type sign mark tmp size precision =
      List.replicate before (chr ' ') ++ sign.toList ++ mark ++ List.replicate between byte ++
        List.replicate zeros (chr '0') ++ tmp.reverse ++ List.replicate after (chr ' ') := by
  by_cases left : type.left
  · simp only [layout, left, or_true, not_true_eq_false, ↓reduceIte, fillWhile_eq]
    exact ⟨0, 0, _, _, chr ' ', by decide, rfl⟩
  · by_cases zeropad : type.zeropad
    · simp only [layout, left, zeropad, Bool.false_eq_true, or_false, not_true_eq_false,
        not_false_eq_true, ↓reduceIte, fillWhile_eq]
      exact ⟨0, _, _, _, chr '0', by decide, rfl⟩
    · simp only [layout, left, zeropad, Bool.false_eq_true, or_self, not_false_eq_true,
        ↓reduceIte, fillWhile_eq]
      exact ⟨_, _, _, _, chr ' ', by decide, rfl⟩

/-- The characters of a field are those of the sign, the mark and the digits, and padding. -/
theorem mem_layout {char : Byte} (visible : char ∉ [chr ' ', chr '0']) :
    char ∈ layout type sign mark tmp size precision ↔
      char ∈ sign.toList ∨ char ∈ mark ∨ char ∈ tmp := by
  obtain ⟨before, between, zeros, after, byte, known, parts⟩ :=
    layout_parts type sign mark tmp size precision
  have padding {count : Nat} {other : Byte} (paddingByte : other ∈ [chr ' ', chr '0']) :
      char ∉ List.replicate count other := by
    intro inside
    rw [(List.mem_replicate.mp inside).2] at visible
    exact visible paddingByte
  simp only [parts, List.mem_append, List.mem_reverse, padding known,
    padding (show chr ' ' ∈ [chr ' ', chr '0'] by decide),
    padding (show chr '0' ∈ [chr ' ', chr '0'] by decide), or_false, false_or, or_assoc]

end Layout

section Number

variable (stray : Stray) (num base size precision : Int) (type : Flags)

/-- `number` on a base it handles. -/
theorem number_eq (lower : 2 ≤ base) (upper : base ≤ 36) :
    number stray num base size precision type =
      some
        { text := layout type.masked (splitSign type.masked num).1
            (radixMark stray type.masked base)
            (tmpChars stray type.masked (splitSign type.masked num).2 base)
            (shrinkSize type.masked (splitSign type.masked num).1 base size) precision
          reads := divLoop (splitSign type.masked num).2 base ++
            radixReads type.masked base } := by
  rw [number, if_neg (by omega)]
  rfl

theorem splitSign_subset :
    (splitSign type num).1.toList ⊆ [chr '-', chr '+', chr ' '] := by
  unfold splitSign
  split_ifs <;> simp

theorem radixMark_subset : radixMark stray type base ⊆ [chr '0', chr 'x', chr 'X'] := by
  unfold radixMark
  split_ifs
  · simp
  · cases type.small
    · change [chr '0', chr 'X'] ⊆ _
      simp
    · change [chr '0', chr 'x'] ⊆ _
      simp
  · simp
  · simp

/-- A character that is no padding, sign or mark is one of the digits. -/
theorem mem_number {printed : Printed}
    (written : number stray num base size precision type = some printed)
    (lower : 2 ≤ base) (upper : base ≤ 36) {char : Byte}
    (visible : char ∉ [chr ' ', chr '0', chr '-', chr '+', chr 'x', chr 'X']) :
    char ∈ printed.text ↔
      char ∈ tmpChars stray type.masked (splitSign type.masked num).2 base := by
  rw [number_eq _ _ _ _ _ _ lower upper] at written
  cases written
  simp only [List.mem_cons, List.not_mem_nil, or_false, not_or] at visible
  obtain ⟨space, zero, minus, plus, small, capital⟩ := visible
  have sign : char ∉ (splitSign type.masked num).1.toList := fun member => by
    simpa [minus, plus, space] using splitSign_subset num type.masked member
  have mark : char ∉ radixMark stray type.masked base := fun member => by
    simpa [zero, small, capital] using radixMark_subset stray base type.masked member
  rw [mem_layout _ _ _ _ _ _ (by simp [space, zero])]
  simp only [sign, mark, false_or]

end Number

end Toyos
