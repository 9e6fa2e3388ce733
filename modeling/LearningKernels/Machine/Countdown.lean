import Mathlib.Order.MinMax
import LearningKernels.Machine.ByteMemory

/-!
# Loops that count an `int` down

The values of a 32-bit `int` are the integers of its range, and its arithmetic
wraps around. Two loops that emit a byte while they count down are given with
the bytes they emit and the value they leave in the counter.
-/

namespace Machine

/-- The 32-bit two's-complement value of an integer. -/
def wrap32 (value : Int) : Int := (value + 2 ^ 31) % 2 ^ 32 - 2 ^ 31

theorem wrap32_of_range {value : Int} (lower : -2 ^ 31 ≤ value) (upper : value < 2 ^ 31) :
    wrap32 value = value := by
  unfold wrap32
  omega

theorem wrap32_range (value : Int) : -2 ^ 31 ≤ wrap32 value ∧ wrap32 value < 2 ^ 31 := by
  unfold wrap32
  omega

theorem wrap32_add_wrap32 (left right : Int) :
    wrap32 (wrap32 left + wrap32 right) = wrap32 (left + right) := by
  unfold wrap32
  omega

/-- The low byte of an integer is that of its 32-bit value. -/
theorem ofInt_wrap32 (value : Int) : BitVec.ofInt 8 (wrap32 value) = BitVec.ofInt 8 value := by
  apply BitVec.eq_of_toNat_eq
  rw [BitVec.toNat_ofInt, BitVec.toNat_ofInt, wrap32]
  omega

/-- `while (low < counter--) *str++ = byte`: the bytes and the last `counter`. Above
`low` the decrement does not overflow. -/
def fillWhile (byte : Byte) (low counter : Int) : List Byte × Int :=
  if low < counter then
    let rest := fillWhile byte low (counter - 1)
    (byte :: rest.1, rest.2)
  else
    ([], wrap32 (counter - 1))
termination_by (counter - low).toNat
decreasing_by omega

/-- `while (--counter > 0) *str++ = byte`: the bytes and the last `counter`. -/
def fillBefore (byte : Byte) (counter : Int) : List Byte × Int :=
  if 0 < wrap32 (counter - 1) then
    let rest := fillBefore byte (wrap32 (counter - 1))
    (byte :: rest.1, rest.2)
  else
    ([], wrap32 (counter - 1))
termination_by (wrap32 (counter - 1)).toNat
decreasing_by
  have range := wrap32_range (counter - 1)
  rw [@wrap32_of_range (wrap32 (counter - 1) - 1) (by omega) (by omega)]
  omega

/-- The first loop emits what the counter is above the limit and leaves it one below
where it stops. -/
theorem fillWhile_eq (byte : Byte) (low counter : Int) :
    fillWhile byte low counter =
      (List.replicate (counter - low).toNat byte, wrap32 (min low counter - 1)) := by
  fun_induction fillWhile byte low counter with
  | case1 counter above rest ih =>
      have count : (counter - low).toNat = (counter - 1 - low).toNat + 1 := by omega
      have same : min low (counter - 1) = min low counter := by omega
      simp only [rest, ih, count, List.replicate_succ, same]
  | case2 counter below =>
      have count : (counter - low).toNat = 0 := by omega
      rw [count, List.replicate_zero, min_eq_right (by omega)]

/-- The second loop emits one byte less than its counter says and leaves zero, or
only takes the decrement. -/
theorem fillBefore_eq (byte : Byte) (counter : Int) :
    fillBefore byte counter =
      (List.replicate (wrap32 (counter - 1)).toNat byte, min (wrap32 (counter - 1)) 0) := by
  fun_induction fillBefore byte counter with
  | case1 counter above rest ih =>
      have range := wrap32_range (counter - 1)
      simp only [rest]
      generalize wrap32 (counter - 1) = next at above ih range ⊢
      have inner : wrap32 (next - 1) = next - 1 := wrap32_of_range (by omega) (by omega)
      have count : next.toNat = (next - 1).toNat + 1 := by omega
      have least : min (next - 1) 0 = min next 0 := by omega
      rw [inner, least] at ih
      simp only [ih, count, List.replicate_succ]
  | case2 counter below =>
      have count : (wrap32 (counter - 1)).toNat = 0 := by omega
      rw [count, List.replicate_zero, min_eq_left (by omega)]

/-- The bytes that `rounds` loops of the first kind in a row emit. A counter at the lower
end of the range wraps around between two of them. -/
def whileColumns (low : Int) : (rounds : Nat) → (counter : Int) → Nat
  | 0, _ => 0
  | rounds + 1, counter =>
      (counter - low).toNat + whileColumns low rounds (wrap32 (min low counter - 1))

/-- The bytes that `rounds` loops of the second kind in a row emit. -/
def beforeColumns : (rounds : Nat) → (counter : Int) → Nat
  | 0, _ => 0
  | rounds + 1, counter =>
      (wrap32 (counter - 1)).toNat + beforeColumns rounds (min (wrap32 (counter - 1)) 0)

/-- Away from the lower end of the range only the first loop emits. -/
theorem whileColumns_of_range (rounds : Nat) {low counter : Int}
    (lower : -2 ^ 31 + rounds ≤ min low counter) (upper : low < 2 ^ 31) :
    whileColumns low (rounds + 1) counter = (counter - low).toNat := by
  induction rounds generalizing counter with
  | zero => rfl
  | succ rounds ih =>
      have next : wrap32 (min low counter - 1) = min low counter - 1 :=
        wrap32_of_range (by omega) (by omega)
      rw [whileColumns, next, ih (by omega)]
      omega

end Machine
