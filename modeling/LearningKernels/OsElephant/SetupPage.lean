import LearningKernels.Machine.Paging

/-!
# The boot page tables

`setup_page` of the loader runs with paging off: it clears the page directory,
writes the entries that map the low megabyte twice and lets the last entry point
back to the directory. What it leaves in memory is stated once, as the values of
the directory entries and of the low page-table entries
(`OsElephant.setupPage_bootTables`).
-/

namespace OsElephant

open Machine

/-- `PAGE_DIR_TABLE_POS` of `boot.inc`. -/
def pageDirTablePos : Nat := 0x100000

/-- `PG_US_U | PG_RW_W | PG_P`. -/
def pgAttributes : Nat := 4 ||| 2 ||| 1

/-- `.clear_page_dir`: clear `ecx` bytes of the directory from offset `esi` on. -/
def clearPageDir : (ecx esi : Nat) → Memory → Memory
  | 0, _, memory => memory
  | ecx + 1, esi, memory =>
      clearPageDir ecx (esi + 1) (Function.update memory (pageDirTablePos + esi) 0)

/-- The loop body shared by `.create_pte` and `.create_kernel_pde`: store an entry,
then step to the next slot and the next frame. -/
def createEntries (ebx : Nat) : (ecx esi entry : Nat) → Memory → Memory
  | 0, _, _, memory => memory
  | ecx + 1, esi, entry, memory =>
      createEntries ebx ecx (esi + 1) (entry + 4096) (write32 memory (ebx + esi * 4) entry)

/-- `.create_pte`: the page-table entries of the low megabyte. -/
def createPte (memory : Memory) : Memory :=
  createEntries (pageDirTablePos + 0x1000) 256 0 pgAttributes memory

/-- `.create_kernel_pde`: the directory entries 769 to 1022. -/
def createKernelPde (memory : Memory) : Memory :=
  createEntries pageDirTablePos 254 769 ((pageDirTablePos + 0x2000) ||| pgAttributes) memory

/-- `setup_page`. -/
def setupPage (memory : Memory) : Memory :=
  let cleared := clearPageDir 4096 0 memory
  let eax := (pageDirTablePos + 0x1000) ||| pgAttributes
  let first := write32 cleared (pageDirTablePos + 0x0) eax
  let kernel := write32 first (pageDirTablePos + 0xc00) eax
  let self := write32 kernel (pageDirTablePos + 4092) (eax - 0x1000)
  createKernelPde (createPte self)

/-- The directory entries `setup_page` installs. -/
def bootPde (index : Nat) : Nat :=
  if index = 0 ∨ index = 768 then 0x101007
  else if index = 1023 then 0x100007
  else if 769 ≤ index ∧ index < 1023 then 0x102007 + 4096 * (index - 769)
  else 0

/-- Memory holds the directory of `setup_page` and its map of the low megabyte. -/
structure BootTables (memory : Memory) : Prop where
  directory : ∀ index < 1024, read32 memory (pageDirTablePos + 4 * index) = bootPde index
  lowTable : ∀ index < 256, read32 memory (0x101000 + 4 * index) = 4096 * index + 7

theorem clearPageDir_apply (ecx esi : Nat) (memory : Memory) (query : Nat) :
    clearPageDir ecx esi memory query =
      if pageDirTablePos + esi ≤ query ∧ query < pageDirTablePos + esi + ecx then 0
      else memory query := by
  induction ecx generalizing esi memory with
  | zero =>
      have outside : ¬ (pageDirTablePos + esi ≤ query ∧ query < pageDirTablePos + esi + 0) := by
        omega
      simp only [clearPageDir, outside, ↓reduceIte]
  | succ ecx ih =>
      rw [clearPageDir, ih]
      by_cases here : query = pageDirTablePos + esi
      · subst here
        have first : ¬ (pageDirTablePos + (esi + 1) ≤ pageDirTablePos + esi ∧
            pageDirTablePos + esi < pageDirTablePos + (esi + 1) + ecx) := by omega
        have covered : pageDirTablePos + esi ≤ pageDirTablePos + esi ∧
            pageDirTablePos + esi < pageDirTablePos + esi + (ecx + 1) := by omega
        simp only [first, covered, and_self, ↓reduceIte, Function.update_self]
      · rw [Function.update_of_ne here]
        congr 1
        rw [eq_iff_iff]
        omega

theorem read32_createEntries (ebx ecx esi entry : Nat) (memory : Memory) (index : Nat)
    (bounded : entry + 4096 * ecx ≤ 2 ^ 32) :
    read32 (createEntries ebx ecx esi entry memory) (ebx + 4 * index) =
      if esi ≤ index ∧ index < esi + ecx then entry + 4096 * (index - esi)
      else read32 memory (ebx + 4 * index) := by
  induction ecx generalizing esi entry memory with
  | zero =>
      have outside : ¬ (esi ≤ index ∧ index < esi + 0) := by omega
      simp only [createEntries, outside, ↓reduceIte]
  | succ ecx ih =>
      rw [createEntries, ih _ _ _ (by omega)]
      by_cases here : index = esi
      · subst here
        have first : ¬ (index + 1 ≤ index ∧ index < index + 1 + ecx) := by omega
        have covered : index ≤ index ∧ index < index + (ecx + 1) := by omega
        simp only [first, covered, and_self, ↓reduceIte, Nat.sub_self, Nat.mul_zero, Nat.add_zero]
        rw [Nat.mul_comm index 4]
        exact read32_write32 _ _ _ (by omega)
      · rw [read32_write32_of_apart _ _ _ _ (by omega)]
        by_cases later : esi + 1 ≤ index ∧ index < esi + 1 + ecx
        · have covered : esi ≤ index ∧ index < esi + (ecx + 1) := by omega
          simp only [later, covered, and_self, ↓reduceIte]
          omega
        · have outside : ¬ (esi ≤ index ∧ index < esi + (ecx + 1)) := by omega
          simp only [later, outside, ↓reduceIte]

/-- The loop writes inside its slots only. -/
theorem createEntries_of_outside (ebx ecx esi entry : Nat) (memory : Memory) (query : Nat)
    (outside : query < ebx + 4 * esi ∨ ebx + 4 * (esi + ecx) ≤ query) :
    createEntries ebx ecx esi entry memory query = memory query := by
  induction ecx generalizing esi entry memory with
  | zero => rfl
  | succ ecx ih =>
      rw [createEntries, ih _ _ _ (by omega), write32_of_outside _ _ _ _ (by omega)]

/-- `setup_page` writes the directory and the first quarter of the first page
table, and nothing else. -/
theorem setupPage_of_outside (memory : Memory) (query : Nat)
    (outside : query < 0x100000 ∨ 0x101400 ≤ query) : setupPage memory query = memory query := by
  simp only [setupPage, createKernelPde, createPte]
  rw [createEntries_of_outside _ _ _ _ _ _ (by unfold pageDirTablePos; omega),
    createEntries_of_outside _ _ _ _ _ _ (by unfold pageDirTablePos; omega),
    write32_of_outside _ _ _ _ (by unfold pageDirTablePos; omega),
    write32_of_outside _ _ _ _ (by unfold pageDirTablePos; omega),
    write32_of_outside _ _ _ _ (by unfold pageDirTablePos; omega), clearPageDir_apply]
  apply if_neg
  unfold pageDirTablePos
  omega

theorem read32_clearPageDir (memory : Memory) (index : Nat) (bounded : index < 1024) :
    read32 (clearPageDir 4096 0 memory) (pageDirTablePos + 4 * index) = 0 := by
  have zero : read32 (fun _ => 0#8) (pageDirTablePos + 4 * index) = 0 := by
    simp [read32]
  rw [← zero]
  apply read32_congr
  intro query lower upper
  rw [clearPageDir_apply]
  exact if_pos (by omega)

/-- The three entries written by hand, in the cleared directory. -/
theorem read32_directory (memory : Memory) (index : Nat) (bounded : index < 1024) :
    read32 (write32 (write32 (write32 (clearPageDir 4096 0 memory) (pageDirTablePos + 0x0) 0x101007)
      (pageDirTablePos + 0xc00) 0x101007) (pageDirTablePos + 4092) 0x100007)
      (pageDirTablePos + 4 * index) =
      if index = 0 ∨ index = 768 then 0x101007 else if index = 1023 then 0x100007 else 0 := by
  by_cases last : index = 1023
  · subst last
    rw [read32_write32 _ _ _ (by decide)]
    rfl
  rw [read32_write32_of_apart _ _ _ _ (by omega)]
  by_cases kernel : index = 768
  · subst kernel
    rw [read32_write32 _ _ _ (by decide)]
    rfl
  rw [read32_write32_of_apart _ _ _ _ (by omega)]
  by_cases first : index = 0
  · subst first
    rw [read32_write32 _ _ _ (by decide)]
    rfl
  rw [read32_write32_of_apart _ _ _ _ (by omega), read32_clearPageDir _ _ bounded]
  simp only [first, kernel, last, or_self, ↓reduceIte]

theorem read32_setupPage (memory : Memory) (index : Nat) (bounded : index < 1024) :
    read32 (setupPage memory) (pageDirTablePos + 4 * index) =
      if 769 ≤ index ∧ index < 769 + 254 then 0x102007 + 4096 * (index - 769)
      else if index = 0 ∨ index = 768 then 0x101007 else if index = 1023 then 0x100007 else 0 := by
  have eax : (pageDirTablePos + 0x1000) ||| pgAttributes = 0x101007 := rfl
  have self : 0x101007 - 0x1000 = 0x100007 := rfl
  have kernel : (pageDirTablePos + 0x2000) ||| pgAttributes = 0x102007 := rfl
  rw [setupPage, createKernelPde, read32_createEntries _ _ _ _ _ _ (by decide), createPte,
    read32_congr (fun query lower upper => createEntries_of_outside _ _ _ _ _ _
      (by unfold pageDirTablePos at *; omega)), eax, self, kernel,
    read32_directory memory index bounded]

/-- **The boot tables.** Whatever memory held before, `setup_page` leaves the
directory of `bootPde` and maps the low megabyte to itself. -/
theorem setupPage_bootTables (memory : Memory) : BootTables (setupPage memory) where
  directory index bounded := by
    rw [read32_setupPage memory index bounded]
    unfold bootPde
    split_ifs <;> omega
  lowTable index bounded := by
    simp only [setupPage, createKernelPde]
    rw [read32_congr (fun query lower upper =>
      createEntries_of_outside _ _ _ _ _ _ (by unfold pageDirTablePos; omega)), createPte]
    change read32 _ (pageDirTablePos + 0x1000 + 4 * index) = _
    rw [read32_createEntries _ _ _ _ _ _ (by decide)]
    have covered : 0 ≤ index ∧ index < 0 + 256 := by omega
    simp only [covered, and_self, ↓reduceIte, Nat.sub_zero]
    change 7 + 4096 * index = _
    omega

namespace BootTables

variable {memory : Memory} (tables : BootTables memory)

include tables

/-- Stores below the directory keep the boot tables. -/
theorem congr {other : Memory} (same : ∀ query, 0x100000 ≤ query → query < 0x101400 →
    other query = memory query) : BootTables other where
  directory index bounded := by
    rw [← tables.directory index bounded]
    exact read32_congr fun query lower upper =>
      same query (by unfold pageDirTablePos at *; omega) (by unfold pageDirTablePos at *; omega)
  lowTable index bounded := by
    rw [← tables.lowTable index bounded]
    exact read32_congr fun query lower upper => same query (by omega) (by omega)

/-- A directory slot that holds the first page table exposes the low megabyte. -/
theorem walk_lowTable {slot : Nat} (bounded : slot < 1024) (shared : bootPde slot = 0x101007)
    (offset : Nat) (low : offset < 0x100000) :
    walk memory pageDirTablePos (4194304 * slot + offset) = some offset := by
  have index : directoryIndex (4194304 * slot + offset) = slot := by unfold directoryIndex; omega
  have found : directoryEntry memory pageDirTablePos (4194304 * slot + offset) = 0x101007 := by
    rw [directoryEntry, index, tables.directory slot bounded, shared]
  have inside : tableIndex (4194304 * slot + offset) = offset / 4096 := by unfold tableIndex; omega
  have entry : read32 memory (frameOf 0x101007 + 4 * tableIndex (4194304 * slot + offset)) =
      4096 * (offset / 4096) + 7 := by
    rw [inside]
    exact tables.lowTable _ (by omega)
  rw [walk_of_entries found (by decide) entry (by unfold Present; omega)]
  congr 1
  unfold frameOf
  omega

/-- The low megabyte is mapped to itself. -/
theorem walk_identity (offset : Nat) (bounded : offset < 0x100000) :
    walk memory pageDirTablePos offset = some offset := by
  simpa only [Nat.mul_zero, Nat.zero_add] using
    @walk_lowTable _ tables 0 (by decide) rfl offset bounded

/-- The kernel sees the low megabyte at three gigabytes. -/
theorem walk_kernelWindow (offset : Nat) (bounded : offset < 0x100000) :
    walk memory pageDirTablePos (0xc0000000 + offset) = some offset :=
  @walk_lowTable _ tables 768 (by decide) rfl offset bounded

/-- The self-map exposes entry `entry` of the page table at directory slot `table`. -/
theorem walk_selfMapAddr {table entry : Nat} (tableBound : table < 1024)
    (entryBound : entry < 1024) :
    walk memory pageDirTablePos (selfMapAddr table entry) =
      if Present (bootPde table) then some (frameOf (bootPde table) + 4 * entry) else none := by
  have self : read32 memory (pageDirTablePos + 4 * 1023) = 0x100007 := by
    rw [tables.directory 1023 (by decide)]
    rfl
  rw [walk_selfMap self (by decide) (by decide) tableBound entryBound,
    tables.directory table tableBound]

end BootTables

end OsElephant
