import Mathlib.Data.List.TakeWhile
import LearningKernels.Toyos.Concatenation

/-!
# The buffer of `printk`

`printk` lets `vsprintf` write into a static buffer of 1024 bytes and does not tell
it the size. How many bytes a call stores is determined by the format and its
arguments before anything is formatted: each item takes a number of columns that its
width, its precision and its argument give, which for the usual widths is the larger
of the width and of what is to be shown (`Toyos.numberColumns_of_range` and its
neighbours). The stores stay inside the buffer exactly when these columns leave room
for the final zero (`Toyos.printk_inBounds_iff`).
-/

namespace Toyos

open Machine

/-- What a slot of the argument list holds. -/
inductive Kind where
  | word
  | str
  deriving DecidableEq, Repr

/-- The kind of a slot. -/
def Arg.kind : Arg → Kind
  | .word _ => .word
  | .str _ => .str

/-- The slots a width or a precision reads. -/
def Amount.kinds : Amount → List Kind
  | .star => [.word]
  | _ => []

/-- The slot a conversion reads. -/
def Conversion.kinds : Conversion → List Kind
  | .char => [.word]
  | .str => [.str]
  | .number _ _ _ => [.word]
  | .cell => [.word]
  | .other => []

/-- The slot a conversion character reads. Flags and width do not matter. -/
def conversionKinds (char : Byte) : List Kind := (conversionOf {} 0 char).kinds

/-- The slots an item reads. -/
def Item.kinds : Item → List Kind
  | .literal _ => []
  | .directive spec => spec.fieldWidth.kinds ++ (spec.precision.kinds ++
      conversionKinds spec.conversion)

/-- The arguments begin with the slots of these kinds. -/
def Supplies (args : List Arg) (kinds : List Kind) : Prop := kinds <+: args.map Arg.kind

instance (args : List Arg) (kinds : List Kind) : Decidable (Supplies args kinds) :=
  inferInstanceAs (Decidable (kinds <+: args.map Arg.kind))

/-- The argument list matches the format. -/
def Matching (fmt : List Byte) (args : List Arg) : Prop :=
  Supplies args ((scan fmt).flatMap Item.kinds)

instance (fmt : List Byte) (args : List Arg) : Decidable (Matching fmt args) :=
  inferInstanceAs (Decidable (Supplies args ((scan fmt).flatMap Item.kinds)))

section Measure

/-- The `int` in the first slot. -/
def intAt : List Arg → Int
  | .word value :: _ => wrap32 value
  | _ => 0

/-- The string in the first slot. -/
def strAt : List Arg → List Byte
  | .str text :: _ => text
  | _ => []

/-- A field width, where a star stands for the first slot. -/
def Amount.widthOf (amount : Amount) (flags : Flags) (args : List Arg) : Int × Flags :=
  match amount with
  | .absent => (-1, flags)
  | .literal value => (value, flags)
  | .star =>
      if intAt args < 0 then (wrap32 (-intAt args), { flags with left := true })
      else (intAt args, flags)

/-- A precision, where a star stands for the first slot. -/
def Amount.precisionOf (amount : Amount) (args : List Arg) : Int :=
  match amount with
  | .absent => -1
  | .literal value => if value < 0 then 0 else value
  | .star => if intAt args < 0 then 0 else intAt args

/-- The padding loops of `%c` and `%s`. -/
def textRounds (flags : Flags) : Nat := if flags.left then 1 else 2

/-- The columns of `%c`. -/
def charColumns (flags : Flags) (fieldWidth : Int) : Nat :=
  1 + beforeColumns (textRounds flags) fieldWidth

/-- The characters of a string of a given length that `%s` copies. -/
def clipped (precision : Int) (length : Nat) : Int :=
  if precision < 0 then wrap32 length
  else if precision < wrap32 length then precision else wrap32 length

/-- The columns of `%s` for a string of a given length. -/
def strColumns (flags : Flags) (fieldWidth precision : Int) (length : Nat) : Nat :=
  (clipped precision length).toNat +
    whileColumns (clipped precision length) (textRounds flags) fieldWidth

/-- The digits of a magnitude, one for zero. -/
def digitColumns (base : Nat) (num : Int) : Nat :=
  if num = 0 then 1 else (Nat.digits base num.natAbs).length

/-- The columns of the mark in front of the digits. -/
def markColumns (type : Flags) (base : Nat) : Nat :=
  if type.special then if base = 8 then 1 else if base = 16 then 2 else 0 else 0

/-- The columns of a number. -/
def numberColumns (type : Flags) (num : Int) (base : Nat) (size precision : Int) : Nat :=
  let (sign, value) := splitSign type.masked num
  fieldLength type.masked sign (markColumns type.masked base) (digitColumns base value)
    (shrinkSize type.masked sign base size) precision

/-- The columns of a conversion. -/
def Conversion.columns (flags : Flags) (fieldWidth precision : Int) (char : Byte)
    (args : List Arg) : Conversion → Nat
  | .char => charColumns flags fieldWidth
  | .str => strColumns flags fieldWidth precision (strAt args).length
  | .number type base size => numberColumns type (intAt args) base size precision
  | .cell => 0
  | .other => (if char ≠ chr '%' then 1 else 0) + if char ≠ 0 then 1 else 0

/-- The columns of an item. -/
def Item.columns (item : Item) (args : List Arg) : Nat :=
  match item with
  | .literal _ => 1
  | .directive spec =>
      let (fieldWidth, flags) := spec.fieldWidth.widthOf spec.flags args
      let args := args.drop spec.fieldWidth.kinds.length
      let precision := spec.precision.precisionOf args
      (conversionOf flags fieldWidth spec.conversion).columns flags fieldWidth precision
        spec.conversion (args.drop spec.precision.kinds.length)

/-- The columns of a list of items on their arguments. -/
def formattedLength : List Item → List Arg → Nat
  | [], _ => 0
  | item :: items, args =>
      item.columns args + formattedLength items (args.drop item.kinds.length)

end Measure

section Plain

variable {fieldWidth precision : Int} (sized : -1 ≤ fieldWidth ∧ fieldWidth < 2 ^ 31)

include sized

/-- A character takes its width, and one column at least. -/
theorem charColumns_of_range (flags : Flags) :
    (charColumns flags fieldWidth : Int) = max 1 fieldWidth := by
  have first : wrap32 (fieldWidth - 1) = fieldWidth - 1 := wrap32_of_range (by omega) (by omega)
  have second : wrap32 (min (fieldWidth - 1) 0 - 1) = min (fieldWidth - 1) 0 - 1 :=
    wrap32_of_range (by omega) (by omega)
  rw [charColumns, textRounds]
  split_ifs
  · simp only [beforeColumns, first]
    omega
  · simp only [beforeColumns, first, second]
    omega

/-- A string takes its width, and the characters it copies at least. -/
theorem strColumns_of_range (flags : Flags) {length : Nat} (int : length < 2 ^ 31) :
    (strColumns flags fieldWidth precision length : Int) =
      max fieldWidth (clipped precision length) := by
  have copied : 0 ≤ clipped precision length ∧ clipped precision length < 2 ^ 31 := by
    rw [clipped, wrap32_of_range (by omega) (by omega)]
    split_ifs <;> omega
  have padded : whileColumns (clipped precision length) (textRounds flags) fieldWidth =
      (fieldWidth - clipped precision length).toNat := by
    unfold textRounds
    split_ifs
    · exact whileColumns_of_range 0 (by omega) copied.2
    · exact whileColumns_of_range 1 (by omega) copied.2
  rw [strColumns, padded]
  omega

theorem shrinkSize_of_range (type : Flags) (sign : Option Byte) (base : Nat) :
    shrinkSize type sign base fieldWidth =
      fieldWidth - sign.toList.length - markColumns type base := by
  cases sign with
  | none =>
      simp (disch := omega) only [shrinkSize, markColumns, Option.isSome_none,
        Bool.false_eq_true, ↓reduceIte, Option.toList_none, List.length_nil, wrap32_of_range]
      split_ifs <;> omega
  | some char =>
      simp (disch := omega) only [shrinkSize, markColumns, Option.isSome_some, ↓reduceIte,
        Option.toList_some, List.length_singleton, wrap32_of_range]
      split_ifs <;> omega

omit sized

theorem markColumns_le (type : Flags) (base : Nat) : markColumns type base ≤ 2 := by
  unfold markColumns
  split_ifs <;> decide

/-- An `int` has at most 32 digits. -/
theorem digitColumns_le {base : Nat} (radix : 2 ≤ base) {num : Int}
    (bounded : num.natAbs < 2 ^ 32) : digitColumns base num ≤ 32 := by
  unfold digitColumns
  split_ifs
  · decide
  · rw [Nat.digits_length_le_iff (by omega)]
    exact bounded.trans_le (Nat.pow_le_pow_left radix 32)

theorem splitSign_bounded (type : Flags) {num : Int} (lower : -2 ^ 31 ≤ num)
    (upper : num < 2 ^ 31) : (splitSign type num).2.natAbs < 2 ^ 32 := by
  by_cases negative : type.sign ∧ num < 0
  · rw [splitSign, if_pos negative, Int.sub_self]
    decide
  · rw [splitSign, if_neg negative]
    omega

include sized

/-- A number takes its width, and its sign, its mark and its digits at least. -/
theorem numberColumns_of_range (precise : precision < 2 ^ 30) (type : Flags) {num : Int}
    (lower : -2 ^ 31 ≤ num) (upper : num < 2 ^ 31) {base : Nat} (radix : 2 ≤ base) :
    (numberColumns type num base fieldWidth precision : Int) =
      max fieldWidth ((splitSign type.masked num).1.toList.length +
        markColumns type.masked base +
        max precision (digitColumns base (splitSign type.masked num).2)) := by
  have digits := digitColumns_le radix (splitSign_bounded type.masked lower upper)
  have marks := markColumns_le type.masked base
  have signs := Option.length_toList_le (o := (splitSign type.masked num).1)
  simp only [numberColumns, fieldLength, shrinkSize_of_range sized]
  generalize (splitSign type.masked num).1.toList.length = sign at signs ⊢
  generalize markColumns type.masked base = mark at marks ⊢
  generalize digitColumns base (splitSign type.masked num).2 = count at digits ⊢
  rw [wrap32_of_range (by omega) (by omega)]
  have padded (rounds : Nat) (few : rounds ≤ 2) :=
    @whileColumns_of_range rounds 0 (fieldWidth - sign - mark - max precision count) (by omega)
      (by decide)
  unfold padRounds
  split_ifs
  · rw [padded 0 (by decide)]
    omega
  · rw [padded 1 (by decide)]
    omega
  · rw [padded 2 (by decide)]
    omega

end Plain

section Columns

variable (stray : Stray) {args : List Arg} {kinds : List Kind}

theorem Supplies.drop {front : List Kind} (supplies : Supplies args (front ++ kinds)) :
    Supplies (args.drop front.length) kinds := by
  have dropped := List.IsPrefix.drop supplies front.length
  rwa [List.drop_left, ← List.map_drop] at dropped

theorem vaArgInt_supplied (supplies : Supplies args (.word :: kinds)) :
    vaArgInt args = .ok (intAt args, args.drop 1) := by
  obtain ⟨rest, split⟩ := supplies
  rcases args with _ | ⟨value | text, args⟩
  · cases split
  · rfl
  · cases split

theorem vaArgStr_supplied (supplies : Supplies args (.str :: kinds)) :
    vaArgStr args = .ok (strAt args, args.drop 1) := by
  obtain ⟨rest, split⟩ := supplies
  rcases args with _ | ⟨value | text, args⟩
  · cases split
  · cases split
  · rfl

theorem vaArgCell_supplied (supplies : Supplies args (.word :: kinds)) :
    ∃ address, vaArgCell args = .ok (address, args.drop 1) := by
  obtain ⟨rest, split⟩ := supplies
  rcases args with _ | ⟨value | text, args⟩
  · cases split
  · exact ⟨value, rfl⟩
  · cases split

theorem resolveWidth_supplied {amount : Amount} (supplies : Supplies args (amount.kinds ++ kinds))
    (flags : Flags) :
    amount.resolveWidth flags args =
      .ok ((amount.widthOf flags args).1, (amount.widthOf flags args).2,
        args.drop amount.kinds.length) := by
  cases amount with
  | absent => rfl
  | literal value => rfl
  | star =>
      simp only [Amount.resolveWidth, Amount.widthOf, vaArgInt_supplied supplies, bind,
        Except.bind]
      split_ifs <;> rfl

theorem resolvePrecision_supplied {amount : Amount}
    (supplies : Supplies args (amount.kinds ++ kinds)) :
    amount.resolvePrecision args =
      .ok (amount.precisionOf args, args.drop amount.kinds.length) := by
  cases amount with
  | absent => rfl
  | literal value => rfl
  | star =>
      simp only [Amount.resolvePrecision, vaArgInt_supplied supplies, bind, Except.bind]
      rfl

theorem length_convertChar (flags : Flags) (fieldWidth value : Int) :
    (convertChar flags fieldWidth value).text.length = charColumns flags fieldWidth := by
  simp only [convertChar, charColumns, textRounds]
  by_cases left : flags.left
  · simp only [left, not_true_eq_false, ↓reduceIte, fillBefore_eq, List.nil_append,
      List.length_append, List.length_replicate, List.length_singleton, beforeColumns]
    omega
  · simp only [left, Bool.false_eq_true, not_false_eq_true, ↓reduceIte, fillBefore_eq,
      List.length_append, List.length_replicate, List.length_singleton, beforeColumns]
    omega

/-- Not more is copied than the string has. -/
theorem clipped_le (precision : Int) (length : Nat) : clipped precision length ≤ length := by
  have wrapped : wrap32 length ≤ length := by
    unfold wrap32
    omega
  unfold clipped
  split_ifs <;> omega

theorem length_convertStr (flags : Flags) (fieldWidth precision : Int) (s : List Byte) :
    (convertStr flags fieldWidth precision s).text.length =
      strColumns flags fieldWidth precision s.length := by
  have copied := clipped_le precision s.length
  have clip : (if precision < 0 then wrap32 s.length else
      if precision < wrap32 s.length then precision else wrap32 s.length) =
      clipped precision s.length := rfl
  simp only [convertStr, clip, strColumns, textRounds]
  generalize clipped precision s.length = len at copied
  by_cases left : flags.left
  · simp only [left, not_true_eq_false, ↓reduceIte, fillWhile_eq, List.nil_append,
      List.length_append, List.length_replicate, List.length_take, whileColumns]
    omega
  · simp only [left, Bool.false_eq_true, not_false_eq_true, ↓reduceIte, fillWhile_eq,
      List.length_append, List.length_replicate, List.length_take, whileColumns]
    omega

theorem length_divLoop (num : Int) {base : Nat} (radix : 2 ≤ base) :
    (divLoop num base).length = (Nat.digits base num.natAbs).length := by
  rcases Int.natAbs_eq num with positive | negative
  · rw [positive, divLoop_natCast _ radix, List.length_map, Int.natAbs_natCast]
  · rw [negative, divLoop_neg, divLoop_natCast _ radix, List.length_map, List.length_map,
      Int.natAbs_neg, Int.natAbs_natCast]

theorem length_radixMark (type : Flags) (base : Nat) :
    (radixMark stray type base).length = markColumns type base := by
  have octal : (base : Int) = 8 ↔ base = 8 := by omega
  have hexadecimal : (base : Int) = 16 ↔ base = 16 := by omega
  simp only [radixMark, markColumns, octal, hexadecimal]
  split_ifs <;> rfl

/-- `number` handles the bases 2 to 36, in the columns the measure says. -/
theorem number_columns (type : Flags) (num : Int) {base : Nat} (lower : 2 ≤ base)
    (upper : base ≤ 36) (size precision : Int) :
    ∃ printed, number stray num base size precision type = some printed ∧
      printed.text.length = numberColumns type num base size precision := by
  have digits (value : Int) :
      (tmpChars stray type.masked value base).length = digitColumns base value := by
    unfold tmpChars digitColumns
    split_ifs
    · rfl
    · rw [List.length_map, length_divLoop value lower]
  refine ⟨_, number_eq _ _ _ _ _ _ (by omega) (by omega), ?_⟩
  rw [numberColumns, length_layout, length_radixMark, digits]

theorem convertNumber_columns (supplies : Supplies args (.word :: kinds)) (flags : Flags)
    (fieldWidth precision : Int) {base : Nat} (lower : 2 ≤ base) (upper : base ≤ 36) :
    ∃ printed, convertNumber stray flags fieldWidth precision base args =
        .ok (printed, args.drop 1) ∧
      printed.text.length = numberColumns flags (intAt args) base fieldWidth precision := by
  obtain ⟨printed, written, length⟩ :=
    number_columns stray flags (intAt args) lower upper fieldWidth precision
  refine ⟨printed, ?_, length⟩
  simp only [convertNumber, vaArgInt_supplied supplies, bind, Except.bind, written]
  rfl

theorem length_convertOther (char : Byte) :
    (convertOther char).text.length =
      (if char ≠ chr '%' then 1 else 0) + if char ≠ 0 then 1 else 0 := by
  rw [convertOther, List.length_append]
  split_ifs <;> rfl

theorem conversionOf_kinds (flags : Flags) (fieldWidth : Int) (char : Byte) :
    (conversionOf flags fieldWidth char).kinds = conversionKinds char := by
  unfold conversionKinds conversionOf
  simp only [apply_ite Conversion.kinds]
  simp only [Conversion.kinds, ite_self]

/-- A base that `number` handles. -/
def Conversion.HasBase : Conversion → Prop
  | .number _ base _ => 2 ≤ base ∧ base ≤ 36
  | _ => True

theorem conversionOf_hasBase (flags : Flags) (fieldWidth : Int) (char : Byte) :
    (conversionOf flags fieldWidth char).HasBase := by
  unfold conversionOf
  repeat' refine @iteInduction _ _ _ Conversion.HasBase _ _ (fun _ => ?_) fun _ => ?_
  all_goals first | exact trivial | exact ⟨by decide, by decide⟩

/-- A conversion with its argument stores what the measure says. -/
theorem convert_columns {char : Byte} (supplies : Supplies args (conversionKinds char ++ kinds))
    (flags : Flags) (fieldWidth precision : Int) (position : Nat) :
    ∃ printed, convert stray flags fieldWidth precision char args position =
        .ok (printed, args.drop (conversionKinds char).length) ∧
      printed.text.length = (conversionOf flags fieldWidth char).columns flags fieldWidth
        precision char args := by
  have bounds := conversionOf_hasBase flags fieldWidth char
  rw [← conversionOf_kinds flags fieldWidth] at supplies ⊢
  rw [convert_eq]
  generalize conversionOf flags fieldWidth char = conversion at bounds supplies ⊢
  cases conversion with
  | char =>
      refine ⟨_, ?_, length_convertChar flags fieldWidth (intAt args)⟩
      rw [Conversion.run, vaArgInt_supplied supplies]
      rfl
  | str =>
      refine ⟨_, ?_, length_convertStr flags fieldWidth precision (strAt args)⟩
      rw [Conversion.run, vaArgStr_supplied supplies]
      rfl
  | number type base size =>
      exact convertNumber_columns stray supplies type size precision bounds.1 bounds.2
  | cell =>
      obtain ⟨address, read⟩ := vaArgCell_supplied supplies
      rw [Conversion.run, read]
      exact ⟨_, rfl, rfl⟩
  | other => exact ⟨convertOther char, rfl, length_convertOther char⟩

/-- An item with its arguments stores what the measure says. -/
theorem Item.print_columns {item : Item} (supplies : Supplies args (item.kinds ++ kinds))
    (position : Nat) :
    ∃ printed, item.print stray args position = .ok (printed, args.drop item.kinds.length) ∧
      printed.text.length = item.columns args := by
  cases item with
  | literal char => exact ⟨{ text := [char] }, rfl, rfl⟩
  | directive spec =>
      rw [Item.kinds, List.append_assoc] at supplies
      have behindWidth := supplies.drop
      rw [List.append_assoc] at behindWidth
      obtain ⟨printed, converted, length⟩ := convert_columns stray behindWidth.drop
        (spec.fieldWidth.widthOf spec.flags args).2 (spec.fieldWidth.widthOf spec.flags args).1
        (spec.precision.precisionOf (args.drop spec.fieldWidth.kinds.length)) position
      refine ⟨printed, ?_, length⟩
      simp only [Item.print, Directive.print, resolveWidth_supplied supplies,
        resolvePrecision_supplied behindWidth, bind, Except.bind]
      rw [converted, List.drop_drop, List.drop_drop, Item.kinds, List.length_append,
        List.length_append]

/-- A list of items with their arguments stores what the measure says. -/
theorem render_columns {items : List Item} (supplies : Supplies args (items.flatMap Item.kinds))
    (done : Printed) :
    ∃ printed rest, render stray items args done = .ok (printed, rest) ∧
      printed.text.length = done.text.length + formattedLength items args := by
  induction items generalizing args done with
  | nil => exact ⟨done, args, rfl, rfl⟩
  | cons item items ih =>
      rw [List.flatMap_cons] at supplies
      obtain ⟨first, printed, length⟩ := item.print_columns stray supplies done.text.length
      obtain ⟨all, rest, rendered, total⟩ := ih supplies.drop (done.append first)
      refine ⟨all, rest, ?_, ?_⟩
      · rw [render, printed]
        exact rendered
      · rw [total, Printed.append, List.length_append, length, formattedLength, Nat.add_assoc]

/-- A call with matching arguments returns and stores what the measure says. -/
theorem vsprintf_columns {fmt : List Byte} (nulFree : 0 ∉ fmt) (matching : Matching fmt args) :
    ∃ formatted, vsprintf stray fmt args = .ok formatted ∧
      formatted.printed.text.length = formattedLength (scan fmt) args := by
  obtain ⟨printed, rest, rendered, length⟩ := render_columns stray matching ⟨[], [], []⟩
  refine ⟨⟨printed, rest⟩, ?_, by rw [length, List.length_nil, Nat.zero_add]⟩
  rw [vsprintf_eq_render stray nulFree, rendered]
  rfl

end Columns

section Printk

/-- The size of the static `buf`. -/
def bufSize : Nat := 1024

/-- The stores of a call through `buf`, each with its index. -/
def Formatted.stores (formatted : Formatted) : List (Byte × Nat) := formatted.stored.zipIdx

/-- `strlen`, from index `len` on and on one unit of fuel for each byte. -/
def strlen (str : Memory) : (fuel len : Nat) → Except Fault Nat
  | 0, _ => .error .unfinished
  | fuel + 1, len => if str len = 0 then .ok len else strlen str fuel (len + 1)

/-- What a call of `printk` has done: its stores through `buf`, the memory from `buf` on
behind them, the characters put on the console, and the value returned. -/
structure Printout where
  stores : List (Byte × Nat)
  memory : Memory
  console : List Byte
  ret : Int

/-- `printk`; `buf` is the memory from the static buffer on. -/
def printk (stray : Stray) (buf : Memory) (fmt : List Byte) (args : List Arg) :
    Except Fault Printout := do
  let formatted ← vsprintf stray fmt args
  let memory := formatted.stores.foldl (fun memory store =>
    Function.update memory store.2 store.1) buf
  let size ← strlen memory formatted.stored.length 0
  pure
    { stores := formatted.stores
      memory := memory
      console := (List.range (wrap32 size).toNat).map memory
      ret := formatted.ret }

/-- Every store is to a byte of the buffer. -/
def Printout.InBounds (printout : Printout) : Prop :=
  ∀ store ∈ printout.stores, store.2 < bufSize

instance (printout : Printout) : Decidable printout.InBounds :=
  inferInstanceAs (Decidable (∀ store ∈ printout.stores, store.2 < bufSize))

/-- Stores one behind the other put a list of bytes into memory. -/
theorem foldl_update_zipIdx (memory : Memory) (bytes : List Byte) (start query : Nat) :
    (bytes.zipIdx start).foldl (fun memory store =>
      Function.update memory store.2 store.1) memory query =
      if start ≤ query then bytes[query - start]?.getD (memory query) else memory query := by
  induction bytes generalizing memory start with
  | nil =>
      rw [List.zipIdx_nil, List.foldl_nil, List.getElem?_nil, Option.getD_none, ite_self]
  | cons byte bytes ih =>
      rw [List.zipIdx_cons, List.foldl_cons, ih]
      rcases lt_trichotomy query start with before | same | behind
      · rw [if_neg (by omega), if_neg (by omega), Function.update_of_ne (by omega)]
      · subst same
        rw [if_neg (by omega), if_pos le_rfl, Nat.sub_self, Function.update_self]
        rfl
      · have index : query - start = query - (start + 1) + 1 := by omega
        rw [if_pos (by omega), if_pos (by omega), Function.update_of_ne (by omega), index,
          List.getElem?_cons_succ]

/-- `strlen` finds the first zero. -/
theorem strlen_eq {str : Memory} {stop : Nat} (zero : str stop = 0) {fuel len : Nat}
    (before : ∀ index, len ≤ index → index < stop → str index ≠ 0) (reached : len ≤ stop)
    (enough : stop < len + fuel) : strlen str fuel len = .ok stop := by
  induction fuel generalizing len with
  | zero => omega
  | succ fuel ih =>
      rw [strlen]
      by_cases here : len = stop
      · rw [here, if_pos zero]
      · rw [if_neg (before len le_rfl (by omega))]
        exact ih (fun index above below => before index (by omega) below) (by omega) (by omega)

/-- What is in front of the first zero of a terminated text. -/
theorem terminated_split (text : List Byte) :
    ∃ rest, text ++ [0] = text.takeWhile (fun byte => byte ≠ 0) ++ 0 :: rest := by
  induction text with
  | nil => exact ⟨[], rfl⟩
  | cons byte text ih =>
      by_cases zero : byte = 0
      · subst zero
        exact ⟨text ++ [0], rfl⟩
      · obtain ⟨rest, split⟩ := ih
        refine ⟨rest, ?_⟩
        rw [List.takeWhile_cons_of_pos (by simpa using zero), List.cons_append, split,
          List.cons_append]

section Terminated

variable (buf : Memory) {front rest : List Byte}

theorem getD_front {index : Nat} (below : index < front.length) :
    (front ++ rest)[index]?.getD (buf index) = front.get ⟨index, below⟩ := by
  rw [List.getElem?_append_left below, List.getElem?_eq_getElem below, Option.getD_some,
    List.get_eq_getElem]

theorem strlen_terminated (visible : ∀ byte ∈ front, byte ≠ 0) {fuel : Nat}
    (enough : front.length < fuel) :
    strlen (fun query => (front ++ 0 :: rest)[query]?.getD (buf query)) fuel 0 =
      .ok front.length := by
  apply strlen_eq
  · simp only [List.getElem?_append_right le_rfl, Nat.sub_self, List.getElem?_cons_zero,
      Option.getD_some]
  · intro index _ below
    rw [getD_front buf below]
    exact visible _ (List.get_mem _ _)
  · exact Nat.zero_le _
  · rwa [Nat.zero_add]

theorem map_range_front :
    (List.range front.length).map (fun query => (front ++ rest)[query]?.getD (buf query)) =
      front := by
  apply List.ext_getElem
  · rw [List.length_map, List.length_range]
  · intro index _ below
    rw [List.getElem_map, List.getElem_range, getD_front buf below, List.get_eq_getElem]

end Terminated

/-- `printk` returns whenever `vsprintf` does. The stores are those of `vsprintf`, and the
console shows the text up to its first zero. -/
theorem printk_eq (stray : Stray) (buf : Memory) {fmt : List Byte} {args : List Arg}
    {formatted : Formatted} (ran : vsprintf stray fmt args = .ok formatted) :
    ∃ printout, printk stray buf fmt args = .ok printout ∧
      printout.stores = formatted.stores ∧ printout.ret = formatted.ret ∧
      (formatted.printed.text.length < 2 ^ 31 →
        printout.console = formatted.printed.text.takeWhile fun byte => byte ≠ 0) := by
  obtain ⟨rest, split⟩ := terminated_split formatted.printed.text
  have visible : ∀ byte ∈ formatted.printed.text.takeWhile (fun byte => byte ≠ 0), byte ≠ 0 :=
    fun byte member => by simpa using List.mem_takeWhile_imp member
  generalize formatted.printed.text.takeWhile (fun byte => byte ≠ 0) = front at split visible ⊢
  have memory : formatted.stores.foldl (fun memory store =>
      Function.update memory store.2 store.1) buf = fun query =>
        (front ++ 0 :: rest)[query]?.getD (buf query) := by
    funext query
    rw [Formatted.stores, foldl_update_zipIdx, if_pos (Nat.zero_le query), Nat.sub_zero,
      Formatted.stored, split]
  have length := congrArg List.length split
  rw [List.length_append, List.length_append, List.length_singleton, List.length_cons] at length
  have size := @strlen_terminated buf front rest visible formatted.stored.length
    (by rw [Formatted.stored, List.length_append, List.length_singleton]; omega)
  have printed : printk stray buf fmt args = .ok
      { stores := formatted.stores
        memory := fun query => (front ++ 0 :: rest)[query]?.getD (buf query)
        console := (List.range (wrap32 front.length).toNat).map fun query =>
          (front ++ 0 :: rest)[query]?.getD (buf query)
        ret := formatted.ret } := by
    simp only [printk, ran, memory, size, bind, Except.bind]
    rfl
  refine ⟨_, printed, rfl, rfl, ?_⟩
  intro int
  rw [wrap32_of_range (by omega) (by omega), Int.toNat_natCast]
  exact map_range_front buf

/-- The stores are in bounds when the text leaves room for its zero. -/
theorem inBounds_stores (formatted : Formatted) :
    (∀ store ∈ formatted.stores, store.2 < bufSize) ↔
      formatted.printed.text.length < bufSize := by
  have indices : formatted.stores.map Prod.snd = List.range' 0 formatted.stored.length :=
    List.zipIdx_map_snd 0 formatted.stored
  have length : formatted.stored.length = formatted.printed.text.length + 1 := by
    rw [Formatted.stored, List.length_append, List.length_singleton]
  have every : (∀ store ∈ formatted.stores, store.2 < bufSize) ↔
      ∀ index ∈ formatted.stores.map Prod.snd, index < bufSize := by rw [List.forall_mem_map]
  rw [every, indices, length]
  constructor
  · intro inside
    exact inside _ (List.mem_range'_1.mpr (by omega))
  · intro room index member
    have below := (List.mem_range'_1.mp member).2
    omega

/-- A call with matching arguments returns, and its stores are in bounds exactly when the
columns of the format leave room for the final zero. -/
theorem printk_measured (stray : Stray) (buf : Memory) {fmt : List Byte} (nulFree : 0 ∉ fmt)
    {args : List Arg} (matching : Matching fmt args) :
    ∃ printout, printk stray buf fmt args = .ok printout ∧
      (printout.InBounds ↔ formattedLength (scan fmt) args < bufSize) := by
  obtain ⟨formatted, ran, length⟩ := vsprintf_columns stray nulFree matching
  obtain ⟨printout, printed, stores, _⟩ := printk_eq stray buf ran
  refine ⟨printout, printed, ?_⟩
  rw [Printout.InBounds, stores, inBounds_stores, length]

/-- The call returns and stays inside the buffer. -/
def PrintsInBounds (stray : Stray) (buf : Memory) (fmt : List Byte) (args : List Arg) : Prop :=
  ∃ printout, printk stray buf fmt args = .ok printout ∧ printout.InBounds

/-- **The buffer of `printk`.** On matching arguments `printk` returns and writes inside
its buffer exactly when the columns of the items of the format are fewer than 1024. -/
theorem printk_inBounds_iff (stray : Stray) (buf : Memory) {fmt : List Byte} (nulFree : 0 ∉ fmt)
    {args : List Arg} (matching : Matching fmt args) :
    PrintsInBounds stray buf fmt args ↔ formattedLength (scan fmt) args < bufSize := by
  obtain ⟨printout, printed, measured⟩ := printk_measured stray buf nulFree matching
  constructor
  · rintro ⟨_, again, inside⟩
    cases printed.symm.trans again
    exact measured.mp inside
  · intro fits
    exact ⟨printout, printed, measured.mpr fits⟩

/-- The format of the kernel's greeting. -/
def greeting : List Byte := [chr '%', chr 's', chr ' ', chr '%', chr 'd', chr '\n']

/-- The arguments of the kernel's greeting. -/
def greetingArgs : List Arg :=
  [.str ([ 'h', 'e', 'l', 'l', 'o', ' ', 'w', 'o', 'r', 'l', 'd', '!'].map chr), .word 1024]

/-- The kernel's greeting takes 18 columns. -/
theorem printk_greeting : PrintsInBounds (fun _ _ => 0) (fun _ => 0) greeting greetingArgs :=
  (printk_inBounds_iff _ _ (by decide) (by decide +kernel)).mpr (by decide +kernel)

/-- A width of 1024 puts the final zero behind the buffer. -/
theorem printk_wide_char : ¬ PrintsInBounds (fun _ _ => 0) (fun _ => 0)
    [chr '%', chr '1', chr '0', chr '2', chr '4', chr 'c'] [.word 65] := by
  rintro ⟨_, again, inside⟩
  obtain ⟨_, printed, measured⟩ := @printk_measured (fun _ _ => 0) (fun _ => 0)
    [chr '%', chr '1', chr '0', chr '2', chr '4', chr 'c'] (by decide) [.word 65]
    (by decide +kernel)
  cases printed.symm.trans again
  exact absurd (measured.mp inside) (by decide +kernel)

end Printk

end Toyos
