import LearningKernels.Toyos.Spelling

/-!
# The fields of `%s` and `%c`

Both conversions run two padding loops over one counter, in two different loop forms. What
they write is a text padded with spaces on one side (`Toyos.vsprintf_text_fields`).
-/

namespace Toyos

open Machine

/-- A text padded with spaces to a width, on the right when it is adjusted to the left. -/
def padded (left : Bool) (width : Nat) (text : List Byte) : List Byte :=
  let spaces := List.replicate (width - text.length) (chr ' ')
  if left then text ++ spaces else spaces ++ text

section Characters

variable (flags : Flags) (fieldWidth precision : Int) {char : Byte} (visible : char ≠ chr ' ')

include visible

theorem not_mem_spaces (count : Nat) : char ∉ List.replicate count (chr ' ') :=
  fun inside => visible (List.mem_replicate.mp inside).2

/-- But for padding `case 'c'` writes its byte. -/
theorem mem_convertChar {value : Int} :
    char ∈ (convertChar flags fieldWidth value).text ↔ char = BitVec.ofInt 8 value := by
  have spaces := not_mem_spaces visible
  by_cases left : flags.left
  · simp only [convertChar, left, not_true_eq_false, ↓reduceIte, fillBefore_eq, List.nil_append,
      List.mem_append, List.mem_singleton, spaces, or_false]
  · simp only [convertChar, left, Bool.false_eq_true, not_false_eq_true, ↓reduceIte,
      fillBefore_eq, List.mem_append, List.mem_singleton, spaces, or_false, false_or]

/-- But for padding `case 's'` writes characters of the string. -/
theorem mem_of_mem_convertStr {s : List Byte}
    (member : char ∈ (convertStr flags fieldWidth precision s).text) : char ∈ s := by
  have spaces := not_mem_spaces visible
  by_cases left : flags.left
  · simp only [convertStr, left, not_true_eq_false, ↓reduceIte, fillWhile_eq, List.nil_append,
      List.mem_append, spaces, or_false] at member
    exact List.mem_of_mem_take member
  · simp only [convertStr, left, Bool.false_eq_true, not_false_eq_true, ↓reduceIte,
      fillWhile_eq, List.mem_append, spaces, or_false, false_or] at member
    exact List.mem_of_mem_take member

end Characters

section Conversions

variable (flags : Flags) {fieldWidth : Int} (width : -1 ≤ fieldWidth ∧ fieldWidth < 2 ^ 31)

include width

/-- `case 'c'` writes its byte padded to the width. -/
theorem convertChar_eq_padded (value : Int) :
    convertChar flags fieldWidth value =
      { text := padded flags.left fieldWidth.toNat [BitVec.ofInt 8 value] } := by
  have first : wrap32 (fieldWidth - 1) = fieldWidth - 1 := wrap32_of_range (by omega) (by omega)
  have count : (fieldWidth - 1).toNat = fieldWidth.toNat - 1 := by omega
  by_cases left : flags.left
  · simp only [convertChar, padded, left, not_true_eq_false, ↓reduceIte, fillBefore_eq, first,
      count, List.nil_append, List.length_singleton]
  · -- the second loop starts where the first one stopped and only takes its decrement
    have second : wrap32 (min (fieldWidth - 1) 0 - 1) = min (fieldWidth - 1) 0 - 1 :=
      wrap32_of_range (by omega) (by omega)
    have empty : (min (fieldWidth - 1) 0 - 1).toNat = 0 := by omega
    simp only [convertChar, padded, left, Bool.false_eq_true, not_false_eq_true, ↓reduceIte,
      fillBefore_eq, first, second, count, empty, List.replicate_zero, List.append_nil,
      List.length_singleton]

/-- `case 's'` with a length that the precision has cut already. -/
theorem fillWhile_eq_padded {len : Int} (text : List Byte) (length : len = text.length)
    (short : len < 2 ^ 31) :
    (let (lead, fieldWidth) :=
      if ¬ flags.left then fillWhile (chr ' ') len fieldWidth else ([], fieldWidth)
    lead ++ text ++ (fillWhile (chr ' ') len fieldWidth).1) =
      padded flags.left fieldWidth.toNat text := by
  have count : (fieldWidth - len).toNat = fieldWidth.toNat - text.length := by omega
  by_cases left : flags.left
  · simp only [padded, left, not_true_eq_false, ↓reduceIte, fillWhile_eq, count, List.nil_append]
  · have last : wrap32 (min len fieldWidth - 1) = min len fieldWidth - 1 :=
      wrap32_of_range (by omega) (by omega)
    have empty : (min len fieldWidth - 1 - len).toNat = 0 := by omega
    simp only [padded, left, Bool.false_eq_true, not_false_eq_true, ↓reduceIte, fillWhile_eq,
      last, count, empty, List.replicate_zero, List.append_nil]

/-- `case 's'` writes the string, or its front, padded to the width. -/
theorem convertStr_eq_padded {precision : Int} {s : List Byte} (short : s.length < 2 ^ 31) :
    convertStr flags fieldWidth precision s =
      { text := padded flags.left fieldWidth.toNat
          (if precision < 0 then s else s.take precision.toNat) } := by
  have whole : wrap32 s.length = s.length := wrap32_of_range (by omega) (by omega)
  rw [Printed.mk.injEq]
  refine ⟨?_, rfl, rfl⟩
  simp only [convertStr, whole]
  by_cases absent : precision < 0
  · simp only [if_pos absent, Int.toNat_natCast, List.take_length]
    exact fillWhile_eq_padded flags width s rfl (by omega)
  · simp only [if_neg absent]
    by_cases cut : precision < s.length
    · have taken : precision = (s.take precision.toNat).length := by
        rw [List.length_take]
        omega
      simp only [if_pos cut]
      exact fillWhile_eq_padded flags width _ taken (by omega)
    · have all : s.take precision.toNat = s := List.take_of_length_le (by omega)
      simp only [if_neg cut, Int.toNat_natCast, List.take_length, all]
      exact fillWhile_eq_padded flags width s rfl (by omega)

end Conversions

namespace LiteralDirective

variable (directive : LiteralDirective)

/-- The width of the field, zero for none. -/
def columns : Nat := literalValue directive.width 0

/-- A text in the field of the directive. -/
def pad (text : List Byte) : List Byte :=
  padded (chr '-' ∈ directive.flags) directive.columns text

/-- The part of a string that the precision leaves. -/
def limit (s : List Byte) : List Byte :=
  match directive.precision with
  | none => s
  | some digits => s.take (literalValue digits 0)

theorem fieldWidth_columns :
    (-1 ≤ directive.fieldWidth ∧ directive.fieldWidth < 2 ^ 31) ∧
      directive.fieldWidth.toNat = directive.columns := by
  have small := directive.width_small
  unfold fieldWidth columns
  split_ifs with empty
  · rw [empty]
    exact ⟨⟨by decide, by decide⟩, rfl⟩
  · omega

theorem limit_eq (s : List Byte) :
    (if directive.precisionValue < 0 then s else s.take directive.precisionValue.toNat) =
      directive.limit s := by
  unfold precisionValue limit
  cases directive.precision with
  | none => rfl
  | some digits => rfl

end LiteralDirective

/-- **Text fields.** `%s` writes the string as far as the precision goes and `%c` writes its
byte, padded with spaces to the width on the side that the flag `-` chooses. -/
theorem vsprintf_text_fields (stray : Stray) (directive : LiteralDirective) (args : List Arg) :
    (directive.conversion = chr 's' → ∀ s : List Byte, 0 ∉ s → s.length < 2 ^ 31 →
      vsprintf stray directive.text (.str s :: args) =
        .ok ⟨{ text := directive.pad (directive.limit s) }, args⟩) ∧
    (directive.conversion = chr 'c' → ∀ value : Int,
      vsprintf stray directive.text (.word value :: args) =
        .ok ⟨{ text := directive.pad [BitVec.ofInt 8 value] }, args⟩) := by
  obtain ⟨width, columns⟩ := directive.fieldWidth_columns
  constructor
  · intro conversion s nulFree short
    have converted := @convertStr_eq_padded (flagsOf directive.flags) _ width
      directive.precisionValue s short
    rw [left_flagsOf, columns, directive.limit_eq] at converted
    rw [directive.vsprintf_eq, conversion, LiteralDirective.pad, ← converted]
    rfl
  · intro conversion value
    have converted := convertChar_eq_padded (flagsOf directive.flags) width (wrap32 value)
    rw [left_flagsOf, columns, ofInt_wrap32] at converted
    rw [directive.vsprintf_eq, conversion, LiteralDirective.pad, ← converted]
    rfl

/-- `%-5.2s` of `abc` and `%3c` of `A`. -/
theorem vsprintf_text_fields_both :
    vsprintf (fun _ _ => 0) [chr '%', chr '-', chr '5', chr '.', chr '2', chr 's']
        [.str [chr 'a', chr 'b', chr 'c']] =
      .ok ⟨{ text := [chr 'a', chr 'b', chr ' ', chr ' ', chr ' '] }, []⟩ ∧
    vsprintf (fun _ _ => 0) [chr '%', chr '3', chr 'c'] [.word 65] =
      .ok ⟨{ text := [chr ' ', chr ' ', chr 'A'] }, []⟩ := by
  constructor
  · exact (vsprintf_text_fields _ ⟨⟨[chr '-'], [], chr 's', by decide, by decide, by decide⟩,
      [chr '5'], some [chr '2'], by decide, by decide, by decide, by decide, by decide⟩ []).1
      rfl _ (by decide) (by decide)
  · exact (vsprintf_text_fields _ ⟨⟨[], [], chr 'c', by decide, by decide, by decide⟩,
      [chr '3'], none, by decide, by decide, by decide, by decide, by decide⟩ []).2 rfl 65

end Toyos
