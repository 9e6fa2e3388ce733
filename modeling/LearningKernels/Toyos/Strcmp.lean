import Mathlib.Algebra.Order.Ring.Int
import LearningKernels.Toyos.StringBuffer

/-!
# Comparing C strings

`strcmp` of `libc/string.cpp` returns the difference of the first two bytes that differ as
an `int8_t`, and `char` is unsigned on the target. The sign is that of the lexicographic
order exactly when this difference is in the range of the result
(`Toyos.Libc.strcmp_orders_iff`).
-/

namespace Toyos.Libc

open Machine

/-- `strcmp`, whose difference of two `int`s is narrowed to an `int8_t`. -/
def strcmp : (src dest : Cells) → Option (BitVec 8)
  | char :: src, other :: dest =>
      if char ≠ 0 ∧ other ≠ 0 ∧ char = other then strcmp src dest
      else some (.ofInt 8 (char.toNat - other.toNat))
  | _, _ => none

/-- The difference of the first two bytes in which two texts differ, where a text that ends
counts as zero. -/
def gap : (text other : List Byte) → Int
  | [], [] => 0
  | char :: _, [] => char.toNat
  | [], char :: _ => -char.toNat
  | char :: text, char' :: other =>
      if char = char' then gap text other else char.toNat - char'.toNat

namespace CString

/-- The sign of `strcmp` says which string is the greater one. -/
def Orders (a b : CString) : Prop :=
  ∃ result, strcmp a.cells b.cells = some result ∧
    (0 < result.toInt ↔ b.text < a.text) ∧ (result.toInt = 0 ↔ a.text = b.text) ∧
    (result.toInt < 0 ↔ a.text < b.text)

/-- The sign of `strcmp`. -/
def sign (a b : CString) : Option Int :=
  (strcmp a.cells b.cells).map fun result => result.toInt.sign

/-- The difference of the first bytes that differ is in the range of an `int8_t`. -/
def Near (a b : CString) : Prop := -128 ≤ gap a.text b.text ∧ gap a.text b.text ≤ 127

instance (a b : CString) : Decidable (a.Near b) :=
  inferInstanceAs (Decidable (-128 ≤ gap a.text b.text ∧ gap a.text b.text ≤ 127))

end CString

section Gap

variable {text other : List Byte}

theorem toNat_pos {char : Byte} (shown : char ≠ 0) : 0 < char.toNat := by
  rw [Nat.pos_iff_ne_zero]
  intro zero
  exact shown (BitVec.eq_of_toNat_eq zero)

/-- `strcmp` narrows the difference. -/
theorem strcmp_append (visible : 0 ∉ text) (shown : 0 ∉ other) (behind rest : List Byte) :
    strcmp (text ++ 0 :: behind) (other ++ 0 :: rest) = some (.ofInt 8 (gap text other)) := by
  have zero : ((0 : Byte).toNat : Int) = 0 := rfl
  fun_induction gap text other with
  | case1 => rfl
  | case2 char text =>
      rw [List.nil_append, List.cons_append, strcmp, if_neg fun both => both.2.1 rfl, zero,
        Int.sub_zero]
  | case3 char other =>
      rw [List.nil_append, List.cons_append, strcmp, if_neg fun both => both.1 rfl, zero,
        Int.zero_sub]
  | case4 text char other ih =>
      obtain ⟨first, visible⟩ := visible_cons.mp visible
      obtain ⟨second, shown⟩ := visible_cons.mp shown
      rw [List.cons_append, List.cons_append, strcmp, if_pos ⟨first, second, rfl⟩,
        ih visible shown]
  | case5 char text char' other apart =>
      rw [List.cons_append, List.cons_append, strcmp, if_neg fun both => apart both.2.2]

/-- The difference has the sign of the lexicographic order. -/
theorem gap_sign (visible : 0 ∉ text) (shown : 0 ∉ other) :
    (0 < gap text other ↔ other < text) ∧ (gap text other = 0 ↔ text = other) ∧
      (gap text other < 0 ↔ text < other) := by
  fun_induction gap text other with
  | case1 => simp only [Int.lt_irrefl, List.lt_irrefl, and_self]
  | case2 char text =>
      have positive := toNat_pos (visible_cons.mp visible).1
      simp only [List.not_lt_nil, List.nil_lt_cons, reduceCtorEq, iff_false, iff_true]
      omega
  | case3 char other =>
      have positive := toNat_pos (visible_cons.mp shown).1
      simp only [List.not_lt_nil, List.nil_lt_cons, reduceCtorEq, iff_false, iff_true]
      omega
  | case4 text char other ih =>
      simp only [List.cons_lt_cons_iff, List.cons.injEq, BitVec.lt_irrefl, false_or, true_and]
      exact ih (visible_cons.mp visible).2 (visible_cons.mp shown).2
  | case5 char text char' other apart =>
      have different : char.toNat ≠ char'.toNat := fun equal =>
        apart (BitVec.eq_of_toNat_eq equal)
      simp only [List.cons_lt_cons_iff, List.cons.injEq, apart, Ne.symm apart, false_and, or_false,
        BitVec.lt_def, iff_false]
      omega

theorem gap_comm (text other : List Byte) : gap other text = -gap text other := by
  fun_induction gap text other with
  | case1 => rfl
  | case2 char text => rfl
  | case3 char other => rw [gap, Int.neg_neg]
  | case4 text char other ih => rw [gap, if_pos rfl, ih]
  | case5 char text char' other apart => rw [gap, if_neg (Ne.symm apart), Int.neg_sub]

theorem gap_bounds (text other : List Byte) : -255 ≤ gap text other ∧ gap text other ≤ 255 := by
  fun_induction gap text other with
  | case1 => decide
  | case2 char text =>
      have byte := char.isLt
      omega
  | case3 char other =>
      have byte := char.isLt
      omega
  | case4 text char other ih => exact ih
  | case5 char text char' other apart =>
      have byte := char.isLt
      have byte' := char'.isLt
      omega

/-- A difference of bytes as an `int8_t`. -/
theorem toInt_narrow {difference : Int} (bounds : -255 ≤ difference ∧ difference ≤ 255) :
    (BitVec.ofInt 8 difference).toInt =
      if difference < -128 then difference + 256
      else if difference ≤ 127 then difference else difference - 256 := by
  rw [BitVec.toInt_ofInt, Int.bmod_def]
  split <;> split <;> omega

end Gap

namespace CString

/-- The result is the difference, or 256 away from it. -/
theorem strcmp_cells (a b : CString) :
    ∃ result, strcmp a.cells b.cells = some result ∧
      result.toInt =
        if gap a.text b.text < -128 then gap a.text b.text + 256
        else if gap a.text b.text ≤ 127 then gap a.text b.text else gap a.text b.text - 256 :=
  ⟨_, strcmp_append a.visible b.visible a.behind b.behind, toInt_narrow (gap_bounds _ _)⟩

/-- The strings are ordered as the difference says exactly when it is not narrowed. -/
theorem orders_iff (a b : CString) : a.Orders b ↔ a.Near b := by
  obtain ⟨result, compared, narrowed⟩ := strcmp_cells a b
  obtain ⟨greater, same, less⟩ := gap_sign a.visible b.visible
  have bounds := gap_bounds a.text b.text
  have signs : a.Orders b ↔
      (0 < result.toInt ↔ 0 < gap a.text b.text) ∧ (result.toInt = 0 ↔ gap a.text b.text = 0) ∧
        (result.toInt < 0 ↔ gap a.text b.text < 0) := by
    rw [greater, same, less, Orders, compared]
    refine ⟨?_, fun signs => ⟨result, rfl, signs⟩⟩
    rintro ⟨other, equal, signs⟩
    cases equal
    exact signs
  rw [signs, Near, narrowed]
  split <;> omega

theorem sign_eq_sign_iff (x y : Int) :
    x.sign = y.sign ↔ (0 < x ↔ 0 < y) ∧ (x = 0 ↔ y = 0) ∧ (x < 0 ↔ y < 0) := by
  refine ⟨?_, ?_⟩
  · intro same
    refine ⟨?_, ?_, ?_⟩
    · rw [← Int.sign_eq_one_iff_pos, same, Int.sign_eq_one_iff_pos]
    · rw [← Int.sign_eq_zero_iff_zero, same, Int.sign_eq_zero_iff_zero]
    · rw [← Int.sign_eq_neg_one_iff_neg, same, Int.sign_eq_neg_one_iff_neg]
  · rintro ⟨positive, zero, negative⟩
    rcases Int.lt_trichotomy x 0 with below | here | above
    · rw [Int.sign_eq_neg_one_of_neg below, Int.sign_eq_neg_one_of_neg (negative.mp below)]
    · rw [here, zero.mp here]
    · rw [Int.sign_eq_one_of_pos above, Int.sign_eq_one_of_pos (positive.mp above)]

/-- The sign of `strcmp` is the one of the difference exactly when that is not narrowed. -/
theorem sign_iff (a b : CString) : a.sign b = some (gap a.text b.text).sign ↔ a.Near b := by
  obtain ⟨result, compared, narrowed⟩ := strcmp_cells a b
  have bounds := gap_bounds a.text b.text
  rw [CString.sign, compared, Option.map_some, Option.some.injEq, sign_eq_sign_iff, narrowed, Near]
  split <;> omega

/-- Two differences of 128 are narrowed to the same result. -/
theorem opposite_iff (a b : CString) :
    (∃ sign, a.sign b = some sign ∧ b.sign a = some (-sign)) ↔
      gap a.text b.text ≠ 128 ∧ gap a.text b.text ≠ -128 := by
  obtain ⟨there, compared, narrowed⟩ := strcmp_cells a b
  obtain ⟨back, comparedBack, narrowedBack⟩ := strcmp_cells b a
  have bounds := gap_bounds a.text b.text
  rw [gap_comm a.text b.text] at narrowedBack
  have signs : (∃ sign, a.sign b = some sign ∧ b.sign a = some (-sign)) ↔
      back.toInt.sign = (-there.toInt).sign := by
    rw [CString.sign, CString.sign, compared, comparedBack, Int.sign_neg]
    simp only [Option.map_some, Option.some.injEq, exists_eq_left']
  rw [signs, sign_eq_sign_iff, narrowed, narrowedBack]
  split <;> split <;> omega

/-- The sign of the difference is transitive, as the lexicographic order is. -/
theorem gap_trans (a b c : CString) {sign : Int} (first : (gap a.text b.text).sign = sign)
    (second : (gap b.text c.text).sign = sign) : (gap a.text c.text).sign = sign := by
  obtain ⟨greater, same, less⟩ := gap_sign a.visible b.visible
  obtain ⟨greater', same', less'⟩ := gap_sign b.visible c.visible
  obtain ⟨greaterBoth, sameBoth, lessBoth⟩ := gap_sign a.visible c.visible
  rw [← first] at second ⊢
  obtain ⟨positive, zero, negative⟩ := (sign_eq_sign_iff _ _).mp second
  rcases Int.lt_trichotomy (gap a.text b.text) 0 with below | here | above
  · rw [Int.sign_eq_neg_one_of_neg below, Int.sign_eq_neg_one_iff_neg, lessBoth]
    exact List.lt_trans (less.mp below) (less'.mp (negative.mpr below))
  · rw [here, Int.sign_zero, Int.sign_eq_zero_iff_zero, sameBoth, same.mp here]
    exact same'.mp (zero.mpr here)
  · rw [Int.sign_eq_one_of_pos above, Int.sign_eq_one_iff_pos, greaterBoth]
    exact List.lt_trans (greater'.mp (positive.mpr above)) (greater.mp above)

end CString

/-- The sign of `strcmp` is that of the lexicographic order exactly when the first bytes that
differ are at most 127 apart, or 128 with the smaller one in front. Exchanged strings have
opposite signs unless these bytes are 128 apart, and the order goes from two pairs of
strings over to the third one when that one meets the condition. -/
theorem strcmp_orders_iff (a b c : CString) :
    (a.Orders b ↔ a.Near b) ∧
      ((∃ sign, a.sign b = some sign ∧ b.sign a = some (-sign)) ↔
        gap a.text b.text ≠ 128 ∧ gap a.text b.text ≠ -128) ∧
      ∀ sign, a.Near b → b.Near c → a.sign b = some sign → b.sign c = some sign →
        (a.sign c = some sign ↔ a.Near c) := by
  refine ⟨a.orders_iff b, a.opposite_iff b, ?_⟩
  intro sign first second signed signed'
  have here := Option.some.inj (((a.sign_iff b).mpr first).symm.trans signed)
  have next := Option.some.inj (((b.sign_iff c).mpr second).symm.trans signed')
  rw [← CString.gap_trans a b c here next, a.sign_iff c]

/-- "zoo", "yes" and the empty string are in this order. -/
theorem strcmp_orders_ascii :
    (CString.ofText [122, 111, 111] (by decide)).Orders (.ofText [121, 101, 115] (by decide)) ∧
      (CString.ofText [122, 111, 111] (by decide)).sign (.ofText [] (by decide)) = some 1 := by
  have claimed := strcmp_orders_iff (.ofText [122, 111, 111] (by decide))
    (.ofText [121, 101, 115] (by decide)) (.ofText [] (by decide))
  exact ⟨claimed.1.mpr (by decide),
    (claimed.2.2 1 (by decide) (by decide) (by decide) (by decide)).mpr (by decide)⟩

/-- The byte 200 compares as less than the byte 10, although it is the greater one. -/
theorem not_orders_far :
    ¬ (CString.ofText [200] (by decide)).Orders (.ofText [10] (by decide)) ∧
      (CString.ofText [200] (by decide)).sign (.ofText [10] (by decide)) = some (-1) := by
  refine ⟨?_, by decide⟩
  rintro ⟨result, compared, greater, -, -⟩
  have negative : strcmp (CString.ofText [200] (by decide)).cells
      (CString.ofText [10] (by decide)).cells = some (-66) := by decide
  cases compared.symm.trans negative
  exact absurd (greater.mpr (by decide)) (by decide)

end Toyos.Libc
