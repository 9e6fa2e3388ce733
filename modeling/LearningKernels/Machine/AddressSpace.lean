import LearningKernels.Machine.ByteMemory
import LearningKernels.Machine.Path

/-!
# Code over an address space

Kernel code reads and writes bytes through an address space that may refuse an
access.
-/

namespace Machine

/-- A state through which bytes are read and written at virtual addresses. -/
class AddressSpace (σ : Type) where
  load8 : σ → Nat → Except Halt Byte
  store8 : σ → Nat → Byte → Except Halt σ

namespace Path

variable {σ : Type} [AddressSpace σ]

/-- Read one byte. -/
def load8 (addr : Nat) : Path σ Byte := fun state =>
  (AddressSpace.load8 state addr).map fun byte => (byte, state)

/-- Write one byte. -/
def store8 (addr : Nat) (byte : Byte) : Path σ Unit := fun state =>
  (AddressSpace.store8 state addr byte).map fun next => ((), next)

theorem run_load8_of_ok {state : σ} {addr : Nat} {byte : Byte}
    (readable : AddressSpace.load8 state addr = .ok byte) :
    (load8 addr : Path σ Byte).run state = .ok (byte, state) := by
  change (AddressSpace.load8 state addr).map _ = _
  rw [readable]
  rfl

theorem run_load8_of_error {state : σ} {addr : Nat} {reason : Halt}
    (refused : AddressSpace.load8 state addr = .error reason) :
    (load8 addr : Path σ Byte).run state = .error reason := by
  change (AddressSpace.load8 state addr).map _ = _
  rw [refused]
  rfl

theorem run_store8_of_ok {state next : σ} {addr : Nat} {byte : Byte}
    (writable : AddressSpace.store8 state addr byte = .ok next) :
    (store8 addr byte : Path σ Unit).run state = .ok ((), next) := by
  change (AddressSpace.store8 state addr byte).map _ = _
  rw [writable]
  rfl

end Path

/-- A memory of which only the `length` bytes from `first` on may be touched. Code that
runs to its end here does so whatever the rest of memory holds. -/
structure Fenced where
  memory : Memory
  first : Nat
  length : Nat

namespace Fenced

/-- The address lies inside the fence. -/
def Within (fenced : Fenced) (addr : Nat) : Prop :=
  fenced.first ≤ addr ∧ addr < fenced.first + fenced.length

instance (fenced : Fenced) (addr : Nat) : Decidable (fenced.Within addr) :=
  inferInstanceAs (Decidable (_ ∧ _))

instance : AddressSpace Fenced where
  load8 fenced addr :=
    if fenced.Within addr then .ok (fenced.memory addr) else .error .pageFault
  store8 fenced addr byte :=
    if fenced.Within addr then
      .ok { fenced with memory := Function.update fenced.memory addr byte }
    else
      .error .pageFault

variable {fenced : Fenced} {addr : Nat}

theorem load8_within (inside : fenced.Within addr) :
    AddressSpace.load8 fenced addr = .ok (fenced.memory addr) := if_pos inside

theorem load8_outside (outside : ¬ fenced.Within addr) :
    AddressSpace.load8 fenced addr = .error .pageFault := if_neg outside

end Fenced

end Machine
