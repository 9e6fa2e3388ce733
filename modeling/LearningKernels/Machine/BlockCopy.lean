import Mathlib.Data.Set.BooleanAlgebra
import Mathlib.Data.Set.Disjoint
import Mathlib.Order.CompletePartialOrder
import LearningKernels.Machine.Stack

/-!
# Copying a block of memory

Spans of 32-bit addresses, which may wrap around, and the byte loop that copies one to
another from its lower end on. Where the two spans are apart the loop lays the source
over the target (`Machine.copyUp_eq_overlay`).
-/

namespace Machine

/-- The `size` addresses from `base` on. -/
def Span (base : BitVec 32) (size : Nat) : Set (BitVec 32) :=
  {addr | (addr - base).toNat < size}

instance (base : BitVec 32) (size : Nat) (addr : BitVec 32) :
    Decidable (addr ∈ Span base size) :=
  inferInstanceAs (Decidable ((addr - base).toNat < size))

/-- Copy `count` bytes, one after the other and upwards. -/
def copyUp : (count : Nat) → (source target : BitVec 32) → Ram → Ram
  | 0, _, _, ram => ram
  | count + 1, source, target, ram =>
      copyUp count (source + 1#32) (target + 1#32) (Function.update ram target (ram source))

/-- Memory with a block of an image laid over it. -/
def overlay (image : Ram) (source target : BitVec 32) (count : Nat) (ram : Ram) : Ram :=
  fun addr => if addr ∈ Span target count then image (source + (addr - target)) else ram addr

variable {base source target addr : BitVec 32} {size count : Nat} {ram image : Ram}

theorem mem_span : addr ∈ Span base size ↔ (addr - base).toNat < size := Iff.rfl

theorem mem_span_of_fits (fits : base.toNat + size ≤ 2 ^ 32) :
    addr ∈ Span base size ↔ base.toNat ≤ addr.toNat ∧ addr.toNat < base.toNat + size := by
  rw [mem_span]
  constructor
  · intro inside
    bv_omega
  · rintro ⟨lower, upper⟩
    bv_omega

/-- A span that ends before another one starts. -/
theorem span_disjoint {other : BitVec 32} {length : Nat} (before : base.toNat + size ≤ other.toNat)
    (fits : other.toNat + length ≤ 2 ^ 32) : Disjoint (Span base size) (Span other length) := by
  rw [Set.disjoint_left]
  intro addr first second
  rw [mem_span_of_fits (by omega)] at first second
  omega

/-- A part of a span. -/
theorem span_subset {offset part : Nat} (bound : size ≤ 2 ^ 32) (within : offset + part ≤ size) :
    Span (base + BitVec.ofNat 32 offset) part ⊆ Span base size := by
  intro addr inside
  rw [mem_span] at inside ⊢
  bv_omega

theorem span_mono {larger : Nat} (within : size ≤ larger) :
    Span base size ⊆ Span base larger :=
  fun _ inside => Nat.lt_of_lt_of_le inside within

theorem add_mem_span {offset : BitVec 32} (inside : offset.toNat < size) :
    base + offset ∈ Span base size := by
  rwa [mem_span, BitVec.add_comm, BitVec.add_sub_cancel]

theorem overlay_of_mem (inside : addr ∈ Span target count) :
    overlay image source target count ram addr = image (source + (addr - target)) := if_pos inside

theorem overlay_of_not_mem (outside : addr ∉ Span target count) :
    overlay image source target count ram addr = ram addr := if_neg outside

/-- The loop reads no byte that it has written before. -/
theorem copyUp_eq_overlay (bound : count ≤ 2 ^ 32)
    (apart : Disjoint (Span source count) (Span target count)) :
    copyUp count source target ram = overlay ram source target count ram := by
  induction count generalizing source target ram with
  | zero =>
      funext addr
      rw [overlay_of_not_mem (Nat.not_lt_zero _)]
      rfl
  | succ count ih =>
      have shift (start : BitVec 32) : Span (start + 1#32) count ⊆ Span start (count + 1) :=
        span_subset bound (Nat.le_of_eq (Nat.add_comm 1 count))
      rw [copyUp, ih (by omega) (apart.mono (shift source) (shift target))]
      funext addr
      by_cases first : addr = target
      · have beyond : addr ∉ Span (target + 1#32) count := by
          rw [mem_span, first]
          bv_omega
        have inside : addr ∈ Span target (count + 1) := by
          rw [mem_span, first]
          bv_omega
        rw [overlay_of_not_mem beyond, overlay_of_mem inside, first, Function.update_self,
          BitVec.sub_self, BitVec.add_zero]
      · by_cases inside : addr ∈ Span (target + 1#32) count
        · have place : source + 1#32 + (addr - (target + 1#32)) = source + (addr - target) := by
            bv_omega
          have read : source + (addr - target) ∈ Span source (count + 1) :=
            add_mem_span (shift target inside)
          have kept : source + (addr - target) ≠ target := by
            intro same
            have start : target ∈ Span target (count + 1) := by
              rw [mem_span, BitVec.sub_self]
              exact Nat.succ_pos count
            rw [same] at read
            exact Set.disjoint_left.mp apart read start
          rw [overlay_of_mem inside, overlay_of_mem (shift target inside), place,
            Function.update_of_ne kept]
        · have outside : addr ∉ Span target (count + 1) := by
            rw [mem_span] at inside ⊢
            bv_omega
          rw [overlay_of_not_mem inside, overlay_of_not_mem outside, Function.update_of_ne first]

/-- A doubleword depends on its own four bytes only. -/
theorem loadWord_congr {other : Ram} (same : ∀ query ∈ Span addr 4, other query = ram query) :
    loadWord other addr = loadWord ram addr := by
  rw [loadWord, loadWord, same _ (add_mem_span (by decide)), same _ (add_mem_span (by decide)),
    same _ (add_mem_span (by decide)), same _ (add_mem_span (by decide))]

end Machine
