import LearningKernels.Machine.Paging

/-!
# Segments in front of the page walk

A selector names a descriptor in the table that `gdtr` points to; the descriptor gives the base
and the limit of a segment, and the linear address goes through the page walk when paging is on.
The table itself stands at a linear address. Privileges and segments that grow downwards are
left out.
-/

namespace Machine

/-- Physical memory and the registers of the memory-management unit. -/
structure Mmu where
  ram : Memory
  paging : Bool
  directory : Nat
  gdtBase : Nat
  gdtLimit : Nat

/-- The base of a segment, from the two doublewords of its descriptor. -/
def segmentBase (low high : Nat) : Nat :=
  low / 65536 + high % 256 * 65536 + high / 16777216 * 16777216

/-- The last offset of a segment. Bit 23 of the upper doubleword counts in pages. -/
def segmentLimit (low high : Nat) : Nat :=
  let limit := low % 65536 + high / 65536 % 16 * 65536
  if high / 8388608 % 2 = 1 then limit * 4096 + 4095 else limit

/-- The descriptor is one of a segment, which is present and does not grow downwards. -/
def Usable (high : Nat) : Prop :=
  high / 32768 % 2 = 1 ∧ high / 4096 % 2 = 1 ∧ (high / 2048 % 2 = 1 ∨ high / 1024 % 2 = 0)

instance (high : Nat) : Decidable (Usable high) := inferInstanceAs (Decidable (_ ∧ _))

namespace Mmu

/-- The physical address of a linear one. -/
def translate (mmu : Mmu) (linear : Nat) : Option Nat :=
  if mmu.paging then walk mmu.ram mmu.directory (linear % 2 ^ 32) else some (linear % 2 ^ 32)

/-- The byte at a linear address. -/
def load8 (mmu : Mmu) (linear : Nat) : Option Byte := (mmu.translate linear).map mmu.ram

/-- The little-endian word at a linear address. -/
def load16 (mmu : Mmu) (linear : Nat) : Option Nat := do
  let first ← mmu.load8 linear
  let second ← mmu.load8 (linear + 1)
  some (first.toNat + 256 * second.toNat)

/-- The little-endian doubleword at a linear address. -/
def load32 (mmu : Mmu) (linear : Nat) : Option Nat := do
  let low ← mmu.load16 linear
  let high ← mmu.load16 (linear + 2)
  some (low + 65536 * high)

/-- The descriptor of a selector. -/
def descriptor (mmu : Mmu) (selector : Nat) : Option (Nat × Nat) :=
  if selector / 8 ≠ 0 ∧ selector / 4 % 2 = 0 ∧ selector / 8 * 8 + 7 ≤ mmu.gdtLimit then do
    let low ← mmu.load32 (mmu.gdtBase + selector / 8 * 8)
    let high ← mmu.load32 (mmu.gdtBase + selector / 8 * 8 + 4)
    some (low, high)
  else none

/-- The physical address of an offset in the segment of a selector. -/
def resolve (mmu : Mmu) (selector offset : Nat) : Option Nat := do
  let (low, high) ← mmu.descriptor selector
  if Usable high ∧ offset ≤ segmentLimit low high then
    mmu.translate (segmentBase low high + offset)
  else none

variable {mmu : Mmu} {linear phys size : Nat}

/-- A piece of linear addresses that stands in one piece of physical memory. -/
def Window (mmu : Mmu) (linear phys size : Nat) : Prop :=
  ∀ offset < size, mmu.translate (linear + offset) = some (phys + offset)

theorem Window.load16 (window : mmu.Window linear phys 2) :
    mmu.load16 linear = some (read16 mmu.ram phys) := by
  have first := window 0 (by decide)
  have second := window 1 (by decide)
  simp only [Nat.add_zero] at first
  rw [Mmu.load16, load8, load8, first, second]
  rfl

theorem Window.part (window : mmu.Window linear phys size) {start length : Nat}
    (inside : start + length ≤ size) : mmu.Window (linear + start) (phys + start) length := by
  intro offset below
  rw [Nat.add_assoc, Nat.add_assoc]
  exact window _ (by omega)

theorem Window.load32 (window : mmu.Window linear phys 4) :
    mmu.load32 linear = some (read32 mmu.ram phys) := by
  have low : mmu.Window linear phys 2 := fun offset below => window offset (by omega)
  have high : mmu.Window (linear + 2) (phys + 2) 2 := window.part (Nat.le_refl 4)
  rw [Mmu.load32, low.load16, high.load16]
  have last : phys + 2 + 1 = phys + 3 := rfl
  refine congrArg some ?_
  rw [read16, read16, read32, last]
  omega

/-- The descriptors of a table in one piece of physical memory. -/
theorem descriptor_of_window (window : mmu.Window mmu.gdtBase phys (mmu.gdtLimit + 1))
    (selector : Nat) :
    mmu.descriptor selector =
      if selector / 8 ≠ 0 ∧ selector / 4 % 2 = 0 ∧ selector / 8 * 8 + 7 ≤ mmu.gdtLimit then
        some (read32 mmu.ram (phys + selector / 8 * 8),
          read32 mmu.ram (phys + selector / 8 * 8 + 4))
      else none := by
  rw [descriptor]
  split
  · next inside =>
      have low : mmu.Window (mmu.gdtBase + selector / 8 * 8) (phys + selector / 8 * 8) 4 :=
        window.part (by omega)
      have high : mmu.Window (mmu.gdtBase + (selector / 8 * 8 + 4))
          (phys + (selector / 8 * 8 + 4)) 4 := window.part (by omega)
      rw [low.load32, Nat.add_assoc, high.load32, Nat.add_assoc]
      rfl
  · rfl

/-- Without paging a linear address is a physical one. -/
theorem window_of_flat (flat : mmu.paging = false) (bounded : linear + size ≤ 2 ^ 32) :
    mmu.Window linear linear size := by
  intro offset below
  rw [translate, flat, if_neg Bool.false_ne_true, Nat.mod_eq_of_lt (by omega)]

end Mmu

end Machine
