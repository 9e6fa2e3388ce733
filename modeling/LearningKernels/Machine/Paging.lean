import LearningKernels.Machine.ByteMemory

/-!
# The two-level x86 page walk

A page directory and the page tables it points to are doublewords in physical
memory. Bit 0 of an entry says that it is present and its upper twenty bits name
a frame. When the last directory entry points back to the directory, the last
four megabytes of virtual addresses expose every table entry
(`Machine.walk_selfMap`).
-/

namespace Machine

/-- The directory entry a virtual address selects. -/
def directoryIndex (va : Nat) : Nat := va / 4194304 % 1024

/-- The page-table entry a virtual address selects. -/
def tableIndex (va : Nat) : Nat := va / 4096 % 1024

theorem directoryIndex_lt (va : Nat) : directoryIndex va < 1024 := Nat.mod_lt _ (by decide)

theorem tableIndex_lt (va : Nat) : tableIndex va < 1024 := Nat.mod_lt _ (by decide)

/-- Bit 0 of an entry. -/
def Present (entry : Nat) : Prop := entry % 2 = 1

instance (entry : Nat) : Decidable (Present entry) := inferInstanceAs (Decidable (_ = _))

/-- The physical frame an entry names. -/
def frameOf (entry : Nat) : Nat := entry / 4096 * 4096

/-- The directory entry for a virtual address. -/
def directoryEntry (memory : Memory) (directory va : Nat) : Nat :=
  read32 memory (directory + 4 * directoryIndex va)

/-- Where the page-table entry for a virtual address stands. -/
def tableSlot (memory : Memory) (directory va : Nat) : Nat :=
  frameOf (directoryEntry memory directory va) + 4 * tableIndex va

/-- The physical address the memory-management unit finds for a virtual one. -/
def walk (memory : Memory) (directory va : Nat) : Option Nat :=
  if Present (directoryEntry memory directory va) then
    if Present (read32 memory (tableSlot memory directory va)) then
      some (frameOf (read32 memory (tableSlot memory directory va)) + va % 4096)
    else none
  else none

/-- The virtual address at which a directory that contains itself exposes entry
`table` of page table `entry`. -/
def selfMapAddr (table entry : Nat) : Nat := 0xffc00000 + 4096 * table + 4 * entry

variable {memory other : Memory} {directory va : Nat}

theorem walk_of_entries {pde pte : Nat} (found : directoryEntry memory directory va = pde)
    (present : Present pde) (entry : read32 memory (frameOf pde + 4 * tableIndex va) = pte)
    (mapped : Present pte) :
    walk memory directory va = some (frameOf pte + va % 4096) := by
  subst found
  change read32 memory (tableSlot memory directory va) = pte at entry
  subst entry
  simp only [walk, present, mapped, ↓reduceIte]

theorem walk_of_absent_table {pde : Nat} (found : directoryEntry memory directory va = pde)
    (absent : ¬ Present (read32 memory (frameOf pde + 4 * tableIndex va))) :
    walk memory directory va = none := by
  subst found
  have missing : ¬ Present (read32 memory (tableSlot memory directory va)) := absent
  simp only [walk, missing, ↓reduceIte, ite_self]

theorem directoryIndex_selfMapAddr {table entry : Nat} (tableBound : table < 1024)
    (entryBound : entry < 1024) : directoryIndex (selfMapAddr table entry) = 1023 := by
  unfold directoryIndex selfMapAddr
  omega

theorem tableIndex_selfMapAddr {table entry : Nat} (tableBound : table < 1024)
    (entryBound : entry < 1024) : tableIndex (selfMapAddr table entry) = table := by
  unfold tableIndex selfMapAddr
  omega

/-- Through a self-mapped directory, the walk of an exposed address reads the
page table itself: it arrives at the entry, or fails when the directory has no
such table. -/
theorem walk_selfMap {self : Nat} (selfEntry : read32 memory (directory + 4 * 1023) = self)
    (selfPresent : Present self) (selfFrame : frameOf self = directory) {table entry : Nat}
    (tableBound : table < 1024) (entryBound : entry < 1024) :
    walk memory directory (selfMapAddr table entry) =
      if Present (read32 memory (directory + 4 * table)) then
        some (frameOf (read32 memory (directory + 4 * table)) + 4 * entry)
      else none := by
  have found : directoryEntry memory directory (selfMapAddr table entry) = self := by
    rw [directoryEntry, directoryIndex_selfMapAddr tableBound entryBound, selfEntry]
  have slot : tableSlot memory directory (selfMapAddr table entry) = directory + 4 * table := by
    rw [tableSlot, found, selfFrame, tableIndex_selfMapAddr tableBound entryBound]
  have offset : selfMapAddr table entry % 4096 = 4 * entry := by
    unfold selfMapAddr
    omega
  simp only [walk, found, selfPresent, slot, offset, ↓reduceIte]

end Machine
