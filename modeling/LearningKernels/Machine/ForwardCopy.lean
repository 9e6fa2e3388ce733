import Mathlib.Logic.Function.Basic
import Mathlib.Order.Basic

/-!
# Copying cells upwards

A loop that copies one cell after the other reads what it has written itself when the target
starts inside the source. Then the target repeats the cells in front of it. With truncated
subtraction, and `index % 0 = index`, one formula covers all positions of the two blocks
(`Machine.copyForward_target`).
-/

namespace Machine

variable {α : Type}

/-- Copy `count` cells, one after the other and upwards. -/
def copyForward : (count target source : Nat) → (cells : Nat → α) → Nat → α
  | 0, _, _, cells => cells
  | count + 1, target, source, cells =>
      copyForward count (target + 1) (source + 1)
        (Function.update cells target (cells source))

/-- The cells of a block come again after a number of cells. -/
def Repeats (cells : Nat → α) (source size period : Nat) : Prop :=
  ∀ index, index + period < size → cells (source + (index + period)) = cells (source + index)

variable {cells : Nat → α} {count target source size period addr index : Nat}

theorem copyForward_of_outside (outside : addr < target ∨ target + count ≤ addr) :
    copyForward count target source cells addr = cells addr := by
  induction count generalizing target source cells with
  | zero => rfl
  | succ count ih =>
      rw [copyForward, ih (by omega), Function.update_of_ne (by omega)]

/-- One cell ahead in the source, after the first cell is written. -/
theorem update_ahead :
    Function.update cells target (cells source) (source + 1 + index % (target - source)) =
      cells (source + (index + 1) % (target - source)) := by
  by_cases above : target ≤ source
  · have none : target - source = 0 := Nat.sub_eq_zero_of_le above
    rw [none, Nat.mod_zero, Nat.mod_zero, Function.update_of_ne (by omega), Nat.add_assoc,
      Nat.add_comm 1]
  · obtain ⟨gap, rfl⟩ := Nat.exists_eq_add_of_lt (Nat.lt_of_not_le above)
    have distance : source + gap + 1 - source = gap + 1 := by omega
    have small : index % (gap + 1) < gap + 1 := Nat.mod_lt _ (Nat.succ_pos gap)
    rw [distance]
    by_cases last : index % (gap + 1) = gap
    · -- the first cell written is read again
      have around : (index + 1) % (gap + 1) = 0 := by
        rw [Nat.add_mod, last]
        cases gap with
        | zero => exact Nat.mod_one _
        | succ gap =>
            rw [Nat.mod_eq_of_lt (show 1 < gap + 1 + 1 by omega), Nat.mod_self]
      have there : source + 1 + index % (gap + 1) = source + gap + 1 := by omega
      rw [there, Function.update_self, around, Nat.add_zero]
    · have ahead : (index + 1) % (gap + 1) = index % (gap + 1) + 1 := by
        rw [Nat.add_mod, Nat.mod_eq_of_lt (show 1 < gap + 1 by omega), Nat.mod_eq_of_lt (by omega)]
      rw [Function.update_of_ne (by omega), ahead, Nat.add_assoc, Nat.add_comm 1]

/-- The cells of the target, wherever the two blocks lie. -/
theorem copyForward_target (inside : index < count) :
    copyForward count target source cells (target + index) =
      cells (source + index % (target - source)) := by
  induction count generalizing target source cells index with
  | zero => exact absurd inside (Nat.not_lt_zero index)
  | succ count ih =>
      rw [copyForward]
      cases index with
      | zero =>
          rw [copyForward_of_outside (by omega), Nat.add_zero, Function.update_self, Nat.zero_mod,
            Nat.add_zero]
      | succ index =>
          have place : target + (index + 1) = target + 1 + index := by omega
          have distance : target + 1 - (source + 1) = target - source := by omega
          rw [place, ih (Nat.lt_of_succ_lt_succ inside), distance, update_ahead]

/-- What the loop reads in a round. -/
theorem copyForward_read :
    copyForward count target source cells (source + count) =
      cells (source + count % (target - source)) := by
  by_cases behind : target ≤ source ∨ source + count < target
  · rw [copyForward_of_outside (by omega)]
    obtain above | before := behind
    · rw [Nat.sub_eq_zero_of_le above, Nat.mod_zero]
    · rw [Nat.mod_eq_of_lt (by omega)]
  · obtain ⟨index, place⟩ : ∃ index, source + count = target + index :=
      Nat.exists_eq_add_of_le (by omega)
    have rounds : count = index + (target - source) := by omega
    rw [place, copyForward_target (by omega), rounds, Nat.add_mod_right]

/-- The source after the loop, when the target does not lie below it. -/
theorem copyForward_source (above : source ≤ target) (inside : index < count) :
    copyForward count target source cells (source + index) =
      cells (source + index % (target - source)) := by
  by_cases before : source + index < target
  · rw [copyForward_of_outside (.inl before), Nat.mod_eq_of_lt (by omega)]
  · obtain ⟨offset, place⟩ : ∃ offset, source + index = target + offset :=
      Nat.exists_eq_add_of_le (by omega)
    have rounds : index = offset + (target - source) := by omega
    rw [place, copyForward_target (by omega), rounds, Nat.add_mod_right]

theorem repeats_iff_mod :
    Repeats cells source size period ↔
      ∀ index < size, cells (source + index % period) = cells (source + index) := by
  constructor
  · intro again index inside
    induction index using Nat.strongRecOn with
    | ind index ih =>
        by_cases early : index < period ∨ period = 0
        · obtain small | rfl := early
          · rw [Nat.mod_eq_of_lt small]
          · rw [Nat.mod_zero]
        · obtain ⟨less, rfl⟩ := Nat.exists_eq_add_of_le (show period ≤ index by omega)
          rw [Nat.add_mod_left, ih less (by omega) (by omega), Nat.add_comm period,
            again less (by omega)]
  · intro same index inside
    rw [← same (index + period) inside, Nat.add_mod_right, same index (by omega)]

/-- **The target gets the cells that the source had when they repeat by the distance.** -/
theorem copyForward_faithful_iff :
    (∀ index < count, copyForward count target source cells (target + index) =
      cells (source + index)) ↔ Repeats cells source count (target - source) := by
  rw [repeats_iff_mod]
  refine forall₂_congr ?_
  intro index inside
  rw [copyForward_target inside]

/-- The two blocks are the same after the loop when the cells repeat by the distance in the
other direction. -/
theorem copyForward_same_iff :
    (∀ index < count, copyForward count target source cells (target + index) =
      copyForward count target source cells (source + index)) ↔
      Repeats cells source count (source - target) := by
  by_cases above : source ≤ target
  · rw [Nat.sub_eq_zero_of_le above]
    refine iff_of_true ?_ fun index _ => rfl
    intro index inside
    rw [copyForward_target inside, copyForward_source above inside]
  · have none : target - source = 0 := by omega
    have written (index : Nat) (inside : index < count) :
        copyForward count target source cells (target + index) = cells (source + index) := by
      rw [copyForward_target inside, none, Nat.mod_zero]
    have shifted (index : Nat) (inside : index + (source - target) < count) :
        copyForward count target source cells (source + index) =
          cells (source + (index + (source - target))) := by
      have place : source + index = target + (index + (source - target)) := by omega
      rw [place, written _ inside]
    constructor
    · intro same index inside
      rw [← shifted index inside, ← same index (by omega), written index (by omega)]
    · intro again index inside
      rw [written index inside]
      by_cases within : index + (source - target) < count
      · rw [shifted index within, again index within]
      · rw [copyForward_of_outside (by omega)]

end Machine
