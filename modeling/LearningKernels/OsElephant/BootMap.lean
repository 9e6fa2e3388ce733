import LearningKernels.OsElephant.PageTableAdd

/-!
# What `setup_page` maps

The low megabyte is mapped twice and the directory maps itself, whatever memory held
before (`OsElephant.setupPage_bootMapping`). Of the page tables `setup_page` writes the
first quarter of the first one only: all other entries are what memory held before, so
the rest of the address space is unmapped exactly when none of them happens to have its
present bit set (`OsElephant.setupPage_unmapped_iff`).
-/

namespace OsElephant

open Machine

/-- The directory entry at an index. -/
def pdeAt (memory : Memory) (index : Nat) : Nat := read32 memory (pageDirTablePos + 4 * index)

/-- The boot mappings: the low megabyte at zero and at three gigabytes, a page table of its
own for every other slot of the kernel, the directory in its own last slot, and nothing
stored outside the directory and the first quarter of the first page table. -/
structure BootMapping (before after : Memory) : Prop where
  identity : ∀ va < 0x100000, walk after pageDirTablePos va = some va
  kernelWindow : ∀ offset < 0x100000,
    walk after pageDirTablePos (0xc0000000 + offset) = some offset
  present : ∀ index, 768 ≤ index → index ≤ 1022 → Present (pdeAt after index)
  inside : ∀ index, 768 ≤ index → index ≤ 1022 →
    0x101000 ≤ frameOf (pdeAt after index) ∧ frameOf (pdeAt after index) + 4096 ≤ 0x200000
  distinct : ∀ first second, 768 ≤ first → first < second → second ≤ 1022 →
    frameOf (pdeAt after first) ≠ frameOf (pdeAt after second)
  self : Present (pdeAt after 1023) ∧ frameOf (pdeAt after 1023) = pageDirTablePos
  untouched : ∀ addr, addr < 0x100000 ∨ 0x101400 ≤ addr → after addr = before addr

/-- The kernel's slots name the page tables one behind the other. -/
theorem frameOf_bootPde_kernel {index : Nat} (lower : 768 ≤ index) (upper : index < 1023) :
    frameOf (bootPde index) = 0x101000 + 4096 * (index - 768) := by
  unfold bootPde frameOf
  split_ifs <;> omega

/-- Whatever memory held before, `setup_page` establishes the boot mappings. -/
theorem setupPage_bootMapping (memory : Memory) : BootMapping memory (setupPage memory) := by
  have tables := setupPage_bootTables memory
  have entry (index : Nat) (bounded : index < 1024) :
      pdeAt (setupPage memory) index = bootPde index := tables.directory index bounded
  have frame (index : Nat) (lower : 768 ≤ index) (upper : index ≤ 1022) :
      frameOf (pdeAt (setupPage memory) index) = 0x101000 + 4096 * (index - 768) := by
    rw [entry index (by omega)]
    exact frameOf_bootPde_kernel lower (by omega)
  refine ⟨tables.walk_identity, tables.walk_kernelWindow, ?_, ?_, ?_, ?_, ?_⟩
  · intro index lower upper
    rw [entry index (by omega)]
    exact present_bootPde_heap lower (by omega)
  · intro index lower upper
    rw [frame index lower upper]
    omega
  · intro first second lower apart upper
    rw [frame first lower (by omega), frame second (by omega) upper]
    omega
  · rw [entry 1023 (by decide)]
    exact ⟨by decide, by decide⟩
  · exact fun addr outside => setupPage_of_outside memory addr outside

/-- The address is outside the low megabyte, its window and the self-map. -/
def OutsideBootMap (va : Nat) : Prop :=
  0x100000 ≤ va ∧ (va < 0xc0000000 ∨ 0xc0100000 ≤ va) ∧ va < 0xffc00000

/-- Every such address has no present directory entry or no present page-table entry. -/
def LeavesUnmapped (memory : Memory) : Prop :=
  ∀ va, OutsideBootMap va → walk memory pageDirTablePos va = none

/-- Mapping a first frame of a pool at a page of the kernel heap fails no assertion. -/
def FirstMappingAllowed (kernel : Kernel) : Prop :=
  ∀ vaddr frame, kHeapStart ≤ vaddr → vaddr < 0xffc00000 →
    usedMem ≤ frame → frame < 0xc0000000 → pgSize ∣ frame →
      (pageTableAdd vaddr frame).run kernel ≠ .error .assertFailed

/-- No doubleword between the entries that `setup_page` writes and the end of the last page
table looks like a present entry. -/
def TablesClear (memory : Memory) : Prop :=
  ∀ addr, 0x101400 ≤ addr → addr < 0x200000 → 4 ∣ addr → ¬ Present (read32 memory addr)

section Unmapped

variable {memory : Memory} (tables : BootTables memory)

include tables

/-- A page of the kernel's slots is mapped by the entry of its number behind `0x101000`. -/
theorem walk_kernelPage {page : Nat} (bounded : page < 0x3fc00) (offset : Nat)
    (low : offset < 4096) :
    walk memory pageDirTablePos (0xc0000000 + 4096 * page + offset) = none ↔
      ¬ Present (read32 memory (0x101000 + 4 * page)) := by
  have index : directoryIndex (0xc0000000 + 4096 * page + offset) = 768 + page / 1024 := by
    unfold directoryIndex
    omega
  have entry : tableIndex (0xc0000000 + 4096 * page + offset) = page % 1024 := by
    unfold tableIndex
    omega
  have found : directoryEntry memory pageDirTablePos (0xc0000000 + 4096 * page + offset) =
      bootPde (768 + page / 1024) := by
    rw [directoryEntry, index]
    exact tables.directory _ (by omega)
  have present : Present (bootPde (768 + page / 1024)) :=
    present_bootPde_heap (by omega) (by omega)
  have slot : frameOf (bootPde (768 + page / 1024)) +
      4 * tableIndex (0xc0000000 + 4096 * page + offset) = 0x101000 + 4 * page := by
    rw [frameOf_bootPde_kernel (by omega) (by omega), entry]
    omega
  constructor
  · intro missing mapped
    rw [← slot] at mapped
    rw [walk_of_entries found present rfl mapped] at missing
    cases missing
  · intro absent
    rw [← slot] at absent
    exact walk_of_absent_table found absent

/-- Below four megabytes the first page table is used again. -/
theorem walk_lowPage {va : Nat} (low : va < 0x400000)
    (absent : ¬ Present (read32 memory (0x101000 + 4 * (va / 4096)))) :
    walk memory pageDirTablePos va = none := by
  have index : directoryIndex va = 0 := by unfold directoryIndex; omega
  have entry : tableIndex va = va / 4096 := by unfold tableIndex; omega
  have found : directoryEntry memory pageDirTablePos va = 0x101007 := by
    rw [directoryEntry, index]
    exact tables.directory 0 (by decide)
  apply walk_of_absent_table found
  rw [entry]
  exact absent

/-- Between four megabytes and three gigabytes the directory is empty. -/
theorem walk_emptySlots {va : Nat} (lower : 0x400000 ≤ va) (upper : va < 0xc0000000) :
    walk memory pageDirTablePos va = none := by
  have index : 1 ≤ directoryIndex va ∧ directoryIndex va < 768 := by
    unfold directoryIndex
    omega
  have found : directoryEntry memory pageDirTablePos va = 0 := by
    rw [directoryEntry, tables.directory _ (by omega)]
    unfold bootPde
    rw [if_neg (by omega), if_neg (by omega), if_neg (by omega)]
  rw [walk, found, if_neg (by decide)]

end Unmapped

section Leftovers

variable {memory : Memory}

theorem boot_ram (before : Kernel) : (boot before).ram = setupPage before.ram := by
  rw [boot]

theorem read32_leftover {addr : Nat} (behind : 0x101400 ≤ addr) :
    read32 (setupPage memory) addr = read32 memory addr :=
  read32_congr fun query lower _ => setupPage_of_outside memory query (by omega)

/-- The rest of the address space is unmapped exactly when the entries that `setup_page` does
not write are clear. -/
theorem leavesUnmapped_iff : LeavesUnmapped (setupPage memory) ↔ TablesClear memory := by
  have tables := setupPage_bootTables memory
  constructor
  · intro unmapped addr lower upper aligned mapped
    -- The entry at this address maps a page of the kernel's part.
    obtain ⟨page, rfl⟩ : ∃ page, addr = 0x101000 + 4 * page := ⟨(addr - 0x101000) / 4, by omega⟩
    have missing : walk (setupPage memory) pageDirTablePos (0xc0000000 + 4096 * page + 0) = none :=
      unmapped _ ⟨by omega, .inr (by omega), by omega⟩
    rw [walk_kernelPage tables (by omega) 0 (by decide), read32_leftover lower] at missing
    exact missing mapped
  · intro clear va outside
    obtain ⟨lower, kernel, upper⟩ := outside
    have absent (page : Nat) (behind : 256 ≤ page) (inside : page < 0x3fc00) :
        ¬ Present (read32 (setupPage memory) (0x101000 + 4 * page)) := by
      rw [read32_leftover (by omega)]
      exact clear _ (by omega) (by omega) ⟨0x40400 + page, by omega⟩
    by_cases low : va < 0x400000
    · exact walk_lowPage tables low (absent _ (by omega) (by omega))
    by_cases middle : va < 0xc0000000
    · exact walk_emptySlots tables (by omega) middle
    · obtain ⟨page, offset, small, rfl⟩ : ∃ page offset, offset < 4096 ∧
          va = 0xc0000000 + 4096 * page + offset :=
        ⟨(va - 0xc0000000) / 4096, (va - 0xc0000000) % 4096, by omega, by omega⟩
      exact (walk_kernelPage tables (by omega) offset small).mpr
        (absent page (by omega) (by omega))

/-- With the entries clear, `page_table_add` finds the slot of the frame clear, or no page
table for it. -/
theorem firstMappingAllowed_of_clear {before : Kernel} (clear : TablesClear before.ram) :
    FirstMappingAllowed (boot before) := by
  intro vaddr frame heapLower heapUpper lower upper aligned
  have tables : BootTables (boot before).ram := by
    rw [boot_ram]
    exact setupPage_bootTables before.ram
  have heap : InHeap vaddr := by
    unfold kHeapStart at heapLower
    unfold InHeap directoryIndex
    omega
  unfold usedMem at lower
  obtain ⟨slot, rfl⟩ := aligned
  unfold pgSize at lower upper ⊢
  by_cases low : slot < 1024
  · have absent : ¬ Present (read32 (boot before).ram (0x101000 + 4 * slot)) := by
      rw [boot_ram, read32_leftover (by omega)]
      exact clear _ (by omega) (by omega) ⟨0x40400 + slot, by omega⟩
    rw [pageTableAdd_low tables rfl heap low absent]
    exact fun failed => by cases failed
  · rw [pageTableAdd_high tables rfl heap (by omega) upper]
    exact fun failed => by cases failed

end Leftovers

/-- After `setup_page` everything outside the boot mappings is unmapped, and a first mapping
in the kernel heap fails no assertion, exactly when no doubleword that memory held in the
unwritten part of the page tables has its present bit set. -/
theorem setupPage_unmapped_iff (before : Kernel) :
    (LeavesUnmapped (boot before).ram ∧ FirstMappingAllowed (boot before)) ↔
      TablesClear before.ram := by
  rw [boot_ram, leavesUnmapped_iff]
  exact ⟨fun both => both.1, fun clear => ⟨clear, firstMappingAllowed_of_clear clear⟩⟩

/-- A machine whose memory holds ones everywhere. -/
def Kernel.ones : Kernel := { Kernel.blank with ram := fun _ => 0xff }

/-- Over memory full of ones the heap is mapped already, and the first mapping fails the
assertion. -/
theorem setupPage_ones_mapped :
    ¬ LeavesUnmapped (boot Kernel.ones).ram ∧
      (pageTableAdd kHeapStart usedMem).run (boot Kernel.ones) = .error .assertFailed := by
  have ones (addr : Nat) : Present (read32 Kernel.ones.ram addr) := by
    simp only [Present, read32, Kernel.ones]
    decide
  rw [boot_ram, leavesUnmapped_iff]
  constructor
  · intro clear
    exact clear 0x101400 le_rfl (by decide) (by decide) (ones _)
  · have tables : BootTables (boot Kernel.ones).ram := by
      rw [boot_ram]
      exact setupPage_bootTables Kernel.ones.ram
    have mapped : Present (read32 (boot Kernel.ones).ram (0x101000 + 4 * 512)) := by
      rw [boot_ram, read32_leftover (by decide)]
      exact ones _
    have heap : InHeap kHeapStart := ⟨by decide, by decide⟩
    have frame : usedMem = 4096 * 512 := usedMem_eq
    rw [frame]
    exact pageTableAdd_repeat tables rfl heap (by decide) mapped

end OsElephant
