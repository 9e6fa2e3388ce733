import Mathlib.Data.List.TakeWhile
import Mathlib.Data.Nat.Digits.Lemmas

/-!
# Digits in a field of fixed width

The digits of a number with leading zeros, as a buffer of fixed width holds them, and the
same digits without the zeros. Digits are in order, the most significant one first.
-/

namespace Machine

variable {base : Nat}

/-- The `width` last digits of a value. -/
def fixedDigits (base : Nat) : (width value : Nat) → List Nat
  | 0, _ => []
  | width + 1, value => fixedDigits base width (value / base) ++ [value % base]

/-- The value of a row of digits. -/
def horner (base : Nat) (digits : List Nat) : Nat :=
  digits.foldl (fun value digit => value * base + digit) 0

theorem fixedDigits_lt (positive : 0 < base) {width value digit : Nat}
    (member : digit ∈ fixedDigits base width value) : digit < base := by
  induction width generalizing value with
  | zero => exact absurd member List.not_mem_nil
  | succ width ih =>
      rw [fixedDigits, List.mem_append, List.mem_singleton] at member
      obtain front | rfl := member
      · exact ih front
      · exact Nat.mod_lt _ positive

/-- The digit at a place, counted from the left. -/
theorem fixedDigits_eq_map (width value : Nat) :
    fixedDigits base width value =
      (List.range width).map fun place => value / base ^ (width - 1 - place) % base := by
  induction width generalizing value with
  | zero => rfl
  | succ width ih =>
      rw [fixedDigits, ih, List.range_succ, List.map_append, List.map_singleton]
      congr 1
      · apply List.map_congr_left
        intro place member
        have inside := List.mem_range.mp member
        have power : width + 1 - 1 - place = width - 1 - place + 1 := by omega
        rw [power, Nat.pow_succ', Nat.div_div_eq_div_mul]
      · rw [Nat.add_sub_cancel, Nat.sub_self, Nat.pow_zero, Nat.div_one]

/-- A field that is wide enough holds zeros and then the digits of the value. -/
theorem fixedDigits_eq_append (radix : 1 < base) {width value : Nat}
    (bound : value < base ^ width) :
    ∃ zeros, fixedDigits base width value =
      List.replicate zeros 0 ++ (Nat.digits base value).reverse := by
  induction width generalizing value with
  | zero =>
      rw [Nat.pow_zero, Nat.lt_one_iff] at bound
      rw [bound]
      exact ⟨0, by simp [fixedDigits]⟩
  | succ width ih =>
      have less : value / base < base ^ width := by
        rw [Nat.div_lt_iff_lt_mul (by omega), ← Nat.pow_succ]
        exact bound
      obtain ⟨zeros, front⟩ := ih less
      rw [fixedDigits, front]
      by_cases zero : value = 0
      · refine ⟨zeros + 1, ?_⟩
        rw [zero, Nat.zero_div, Nat.zero_mod, Nat.digits_zero, List.reverse_nil, List.append_nil,
          List.append_nil, List.replicate_succ']
      · refine ⟨zeros, ?_⟩
        rw [Nat.digits_def' radix (Nat.pos_of_ne_zero zero), List.reverse_cons, List.append_assoc]

/-- Without its leading zeros a field that is wide enough is the numeral. -/
theorem dropWhile_fixedDigits (radix : 1 < base) {width value : Nat}
    (bound : value < base ^ width) :
    (fixedDigits base width value).dropWhile (fun digit => digit = 0) =
      (Nat.digits base value).reverse := by
  obtain ⟨zeros, split⟩ := fixedDigits_eq_append radix bound
  have skipped : ∀ digit ∈ List.replicate zeros 0, decide (digit = 0) = true :=
    fun digit member => decide_eq_true (List.eq_of_mem_replicate member)
  rw [split, List.dropWhile_append_of_pos skipped]
  by_cases zero : value = 0
  · rw [zero, Nat.digits_zero]
    rfl
  · rw [List.dropWhile_eq_self_iff]
    intro nonempty
    rw [List.getElem_zero, List.head_reverse, decide_eq_true_iff]
    exact Nat.getLast_digit_ne_zero base zero

/-- The numeral of a value denotes it. -/
theorem horner_digits (base value : Nat) : horner base (Nat.digits base value).reverse = value := by
  rw [horner, List.foldl_reverse]
  calc (Nat.digits base value).foldr (fun digit rest => rest * base + digit) 0
      = Nat.ofDigits base (Nat.digits base value) := by
        rw [Nat.ofDigits_eq_foldr]
        congr 1
        funext digit rest
        rw [Nat.mul_comm, Nat.add_comm]
        rfl
    _ = value := Nat.ofDigits_digits base value

end Machine
