import Mathlib.Logic.Function.Basic

/-!
# A sequence of writes

Memory after writes to places that may repeat: a place holds what was written there last. A
pointer of fixed width that is counted up comes back to its start, so that only the last lap of
what was written is left (`Machine.writeAll_last`).
-/

namespace Machine

variable {α β : Type} [DecidableEq α] {place : Nat → α} {values : Nat → β} {memory : α → β}
  {index count : Nat} {addr : α}

/-- The first `count` writes. -/
def writeAll (place : Nat → α) (values : Nat → β) : (count : Nat) → (α → β) → α → β
  | 0, memory => memory
  | count + 1, memory =>
      Function.update (writeAll place values count memory) (place count) (values count)

/-- A place that is not written to. -/
theorem writeAll_of_absent (absent : ∀ index < count, addr ≠ place index) :
    writeAll place values count memory addr = memory addr := by
  induction count with
  | zero => rfl
  | succ count ih =>
      rw [writeAll, Function.update_of_ne (absent count (Nat.lt_succ_self count))]
      exact ih fun index inside => absent index (Nat.lt_succ_of_lt inside)

/-- The last write to a place. -/
theorem writeAll_last (inside : index < count)
    (last : ∀ later, index < later → later < count → place index ≠ place later) :
    writeAll place values count memory (place index) = values index := by
  induction count with
  | zero => exact absurd inside (Nat.not_lt_zero index)
  | succ count ih =>
      rw [writeAll]
      obtain before | rfl := Nat.lt_succ_iff_lt_or_eq.mp inside
      · rw [Function.update_of_ne (last count before (Nat.lt_succ_self count))]
        exact ih before fun later after within =>
          last later after (Nat.lt_succ_of_lt within)
      · exact Function.update_self _ _ _

end Machine
