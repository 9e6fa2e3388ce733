import Mathlib.Algebra.Order.Ring.Nat
import Mathlib.Tactic.Ring

/-!
# Blocks covered by regions

A run of equal blocks lies block by block inside the regions of a list exactly when its
first block does and no region breaks off inside the run without another one covering the
block at its end.
-/

namespace Machine

/-- The addresses from `start` up to `stop`. -/
structure Region where
  start : Nat
  stop : Nat
  deriving DecidableEq, Repr

/-- The block of `size` bytes at `addr` lies inside one region. -/
def Covered (regions : List Region) (size addr : Nat) : Prop :=
  ∃ region ∈ regions, region.start ≤ addr ∧ addr + size ≤ region.stop

instance (regions : List Region) (size addr : Nat) : Decidable (Covered regions size addr) :=
  inferInstanceAs (Decidable (∃ region ∈ regions, _))

/-- The last block boundary of a region. -/
def Region.edge (region : Region) (size : Nat) : Nat := region.stop / size * size

/-- The first of `count` blocks is covered, and so is the block at every region's last
boundary inside the run. -/
def Unbroken (regions : List Region) (size first count : Nat) : Prop :=
  count = 0 ∨ Covered regions size first ∧ ∀ region ∈ regions,
    first < region.edge size → region.edge size < first + size * count →
      Covered regions size (region.edge size)

instance (regions : List Region) (size first count : Nat) :
    Decidable (Unbroken regions size first count) :=
  inferInstanceAs (Decidable (_ ∨ _ ∧ _))

variable {regions : List Region} {size first count : Nat}

/-- From one covered block to the next: the same region, or the one at its edge. -/
theorem Unbroken.next (positive : 0 < size) (aligned : size ∣ first)
    (edges : ∀ region ∈ regions, first < region.edge size →
      region.edge size < first + size * count → Covered regions size (region.edge size))
    {index : Nat} (inside : index + 1 < count)
    (covered : Covered regions size (first + size * index)) :
    Covered regions size (first + size * (index + 1)) := by
  obtain ⟨block, rfl⟩ := aligned
  obtain ⟨region, member, lower, upper⟩ := covered
  by_cases further : size * block + size * (index + 1) + size ≤ region.stop
  · exact ⟨region, member, by rw [Nat.mul_add_one]; omega, further⟩
  · have edge : region.edge size = size * block + size * (index + 1) := by
      have quotient : region.stop / size = block + (index + 1) := by
        apply Nat.div_eq_of_lt_le
        · calc (block + (index + 1)) * size = size * block + size * index + size := by ring
            _ ≤ region.stop := upper
        · calc region.stop < size * block + size * (index + 1) + size := by omega
            _ = (block + (index + 1) + 1) * size := by ring
      rw [Region.edge, quotient]
      ring
    rw [← edge]
    apply edges region member
    · rw [edge, Nat.mul_add_one]
      omega
    · rw [edge]
      exact Nat.add_lt_add_left (Nat.mul_lt_mul_of_pos_left inside positive) _

/-- A run of aligned blocks is covered exactly when it is unbroken. -/
theorem covered_iff_unbroken (positive : 0 < size) (aligned : size ∣ first) :
    (∀ index < count, Covered regions size (first + size * index)) ↔
      Unbroken regions size first count := by
  constructor
  · intro covered
    rcases Nat.eq_zero_or_pos count with none | some
    · exact Or.inl none
    refine Or.inr ⟨by simpa using covered 0 some, ?_⟩
    intro region _ lower upper
    obtain ⟨block, rfl⟩ := aligned
    rw [Region.edge, Nat.mul_comm (region.stop / size)] at lower upper ⊢
    have after : block < region.stop / size := Nat.lt_of_mul_lt_mul_left lower
    have before : region.stop / size < block + count := by
      apply Nat.lt_of_mul_lt_mul_left
      calc size * (region.stop / size) < size * block + size * count := upper
        _ = size * (block + count) := by ring
    have block_eq : size * (region.stop / size) =
        size * block + size * (region.stop / size - block) := by
      rw [← Nat.mul_add, Nat.add_sub_cancel' (Nat.le_of_lt after)]
    rw [block_eq]
    exact covered _ (by omega)
  · rintro (none | ⟨start, edges⟩) index inside
    · omega
    · induction index with
      | zero => simpa using start
      | succ index ih => exact Unbroken.next positive aligned edges inside (ih (by omega))

end Machine
