import Mathlib.Data.Set.BooleanAlgebra
import Mathlib.Order.CompletePartialOrder
import Mathlib.Order.Interval.Set.Disjoint
import LearningKernels.OsElephant.AllocatorRuns

/-!
# Where the pools lie

For every memory size from two megabytes on, `mem_pool_init` keeps the pools apart from
each other, from the page tables of the loader and from what is not memory, and its
three bitmaps apart and below the stack of the main thread (`OsElephant.start_safePools`).
The page count is kept in sixteen bits: from 258 megabytes on most of memory is in
neither pool (`OsElephant.start_coversMemory_iff`).
-/

namespace OsElephant

open Machine

/-- The physical addresses of a pool. -/
def Pool.range (pool : Pool) : Set Nat :=
  Set.Ico pool.phyAddrStart (pool.phyAddrStart + pool.poolSize)

/-- The addresses of a bitmap's bytes. -/
def Bitmap.range (btmp : Bitmap) : Set Nat := Set.Ico btmp.bits (btmp.bits + btmp.btmpBytesLen)

/-- The frame a directory entry names. -/
def frameRange (entry : Nat) : Set Nat := Set.Ico (frameOf entry) (frameOf entry + 4096)

/-- The bitmaps of the two pools and of the kernel heap. -/
def Kernel.bitmaps (kernel : Kernel) : List Bitmap :=
  [kernel.kernelPool.poolBitmap, kernel.userPool.poolBitmap, kernel.kernelVaddr.vaddrBitmap]

/-- The directory entry in a slot. -/
def Kernel.pde (kernel : Kernel) (index : Nat) : Nat := read32 kernel.ram (kernel.cr3 + 4 * index)

/-- **Pool safety** for a memory of `allMem` bytes. -/
structure SafePools (allMem : Nat) (kernel : Kernel) : Prop where
  poolsApart : Disjoint kernel.kernelPool.range kernel.userPool.range
  poolsInside : ∀ name, (kernel.pool name).range ⊆ Set.Ico 0x200000 allMem
  lowMegabyte : ∀ name, Disjoint (kernel.pool name).range (Set.Ico 0 0x100000)
  tablesInside : ∀ index < 1024, Present (kernel.pde index) →
    frameRange (kernel.pde index) ⊆ Set.Ico 0x100000 0x200000
  tablesApart : ∀ name, ∀ index < 1024, Present (kernel.pde index) →
    Disjoint (kernel.pool name).range (frameRange (kernel.pde index))
  counted : ∀ name, 8 * (kernel.pool name).poolBitmap.btmpBytesLen ≤
    (kernel.pool name).poolSize / 4096
  bitmapsInside : ∀ btmp ∈ kernel.bitmaps, btmp.range ⊆ Set.Ico 0xc009a000 0xc009e000
  bitmapsApart : kernel.bitmaps.Pairwise fun first second => Disjoint first.range second.range
  bitmapsZero : ∀ btmp ∈ kernel.bitmaps, ∀ addr ∈ btmp.range,
    AddressSpace.load8 kernel addr = .ok 0
  heapEnd : kHeapStart + 4096 * (8 * kernel.kernelVaddr.vaddrBitmap.btmpBytesLen) ≤ 0xffc00000

theorem disjoint_Ico_of_le {first last start stop : Nat} (apart : last ≤ start) :
    Disjoint (Set.Ico first last) (Set.Ico start stop) := by
  rw [Set.disjoint_left]
  intro address left right
  exact absurd (Nat.lt_of_lt_of_le left.2 apart) (Nat.not_lt.mpr right.1)

/-- The present entries of the boot directory name the frames from one to two megabytes. -/
theorem frameOf_bootPde {index : Nat} (present : Present (bootPde index)) :
    0x100000 ≤ frameOf (bootPde index) ∧ frameOf (bootPde index) + 4096 ≤ 0x200000 := by
  unfold bootPde Present at present
  unfold bootPde frameOf
  split_ifs at present ⊢ <;> omega

section Represented

variable {layout : PoolLayout} {bump : Bump} {kernel : Kernel}

theorem Represents.pde_eq (rep : Represents layout bump kernel) {index : Nat}
    (bounded : index < 1024) : kernel.pde index = bootPde index := by
  rw [Kernel.pde, rep.cr3]
  exact rep.tables.directory index bounded

theorem Represents.kernelPool_eq (rep : Represents layout bump kernel) :
    kernel.kernelPool = layout.pool .kernelPool := rep.pools .kernelPool

theorem Represents.userPool_eq (rep : Represents layout bump kernel) :
    kernel.userPool = layout.pool .userPool := rep.pools .userPool

theorem Represents.mem_bitmaps (rep : Represents layout bump kernel) {btmp : Bitmap} :
    btmp ∈ kernel.bitmaps ↔
      (∃ name, btmp = (layout.pool name).poolBitmap) ∨ btmp = layout.kernelVaddr.vaddrBitmap := by
  rw [Kernel.bitmaps, rep.kernelPool_eq, rep.userPool_eq, rep.vaddr]
  simp only [List.mem_cons, List.not_mem_nil, or_false]
  constructor
  · rintro (same | same | same)
    · exact Or.inl ⟨_, same⟩
    · exact Or.inl ⟨_, same⟩
    · exact Or.inr same
  · rintro (⟨name, same⟩ | same)
    · cases name with
      | kernelPool => exact Or.inl same
      | userPool => exact Or.inr (Or.inl same)
    · exact Or.inr (Or.inr same)

theorem byte_eq_zero {memory : Memory} {base index : Nat}
    (free : ∀ bit < 8, bitAt memory base (8 * index + bit) = false) :
    memory (base + index) = 0#8 := by
  apply BitVec.eq_of_getLsbD_eq
  intro bit inside
  have clear := free bit inside
  rw [bitAt, show (8 * index + bit) / 8 = index by omega,
    show (8 * index + bit) % 8 = bit by omega] at clear
  rw [clear, BitVec.getLsbD_zero]

/-- A bitmap in the low megabyte whose bits are all free reads as zero bytes. -/
theorem Represents.load8_zero (rep : Represents layout bump kernel) {btmp : Bitmap} {base : Nat}
    (located : btmp.bits = 0xc0000000 + base)
    (bounded : base + btmp.btmpBytesLen ≤ 0x100000)
    (free : ∀ bit < 8 * btmp.btmpBytesLen, bitAt kernel.ram base bit = false)
    {addr : Nat} (inside : addr ∈ btmp.range) : AddressSpace.load8 kernel addr = .ok 0 := by
  obtain ⟨lower, upper⟩ := inside
  rw [located] at lower upper
  obtain ⟨offset, rfl⟩ := Nat.exists_eq_add_of_le lower
  rw [Nat.add_assoc, load8_window rep.tables rep.cr3 (by omega)]
  exact congrArg Except.ok (byte_eq_zero fun bit _ => free (8 * offset + bit) (by omega))

/-- The three bitmaps lie one behind the other in the sixteen kilobytes set apart. -/
theorem PoolLayout.bitmap_bounds (layout : PoolLayout) :
    layout.kbmLength ≤ 4095 ∧
      0xc009a000 + layout.kbmLength + layout.ubmLength + layout.kbmLength ≤ 0xc009e000 := by
  have first := layout.kbmLength_le
  have second := layout.ubmLength_le
  omega

theorem Represents.bitmapsInside (rep : Represents layout bump kernel) {btmp : Bitmap}
    (member : btmp ∈ kernel.bitmaps) : btmp.range ⊆ Set.Ico 0xc009a000 0xc009e000 := by
  have bounds := layout.bitmap_bounds
  apply Set.Ico_subset_Ico
  · rcases rep.mem_bitmaps.mp member with ⟨name, rfl⟩ | rfl
    · have lower := (layout.poolBase_add_le name).1
      rw [layout.poolBitmap_bits]
      omega
    · rw [layout.vaddrBitmap_bits, PoolLayout.vaddrBase]
      omega
  · rcases rep.mem_bitmaps.mp member with ⟨name | name, rfl⟩ | rfl
    · change 0xc009a000 + layout.kbmLength ≤ _
      omega
    · change 0xc009a000 + layout.kbmLength + layout.ubmLength ≤ _
      omega
    · change 0xc009a000 + layout.kbmLength + layout.ubmLength + layout.kbmLength ≤ _
      exact bounds.2

theorem Represents.bitmapsApart (rep : Represents layout bump kernel) :
    kernel.bitmaps.Pairwise fun first second => Disjoint first.range second.range := by
  rw [Kernel.bitmaps, rep.kernelPool_eq, rep.userPool_eq, rep.vaddr]
  simp only [List.pairwise_cons, List.mem_cons, List.not_mem_nil, or_false, forall_eq_or_imp,
    forall_eq, IsEmpty.forall_iff, implies_true, List.Pairwise.nil, and_true]
  refine ⟨⟨?_, ?_⟩, ?_⟩
  · exact disjoint_Ico_of_le le_rfl
  · exact disjoint_Ico_of_le (Nat.le_add_right _ _)
  · exact disjoint_Ico_of_le le_rfl

theorem Represents.bitmapsZero (rep : Represents layout Bump.empty kernel) {btmp : Bitmap}
    (member : btmp ∈ kernel.bitmaps) {addr : Nat} (inside : addr ∈ btmp.range) :
    AddressSpace.load8 kernel addr = .ok 0 := by
  rcases rep.mem_bitmaps.mp member with ⟨name, rfl⟩ | rfl
  · have limit := layout.poolBase_limit name
    apply rep.load8_zero (layout.poolBitmap_bits name) (by omega) _ inside
    intro bit below
    rw [rep.poolBits name bit below]
    rfl
  · have limit := layout.vaddrBase_limit
    have length : layout.kernelVaddr.vaddrBitmap.btmpBytesLen = layout.kbmLength := rfl
    apply rep.load8_zero layout.vaddrBitmap_bits (by omega) _ inside
    intro bit below
    rw [rep.vaddrBits bit below]
    rfl

end Represented

/-- A kernel that represents the layout of a memory size is safe. -/
theorem Represents.safePools {allMem : Nat} {kernel : Kernel} (word : allMem < 2 ^ 32)
    (enough : 0x200000 ≤ allMem) (rep : Represents (poolLayout allMem) Bump.empty kernel) :
    SafePools allMem kernel := by
  have poolInside (name : PoolName) :
      (kernel.pool name).range ⊆ Set.Ico 0x200000 allMem := by
    rw [rep.pools]
    exact Set.Ico_subset_Ico ((poolLayout allMem).start_aligned name).1
      (poolLayout_end_le word enough name)
  have tableInside (index : Nat) (bounded : index < 1024) (present : Present (kernel.pde index)) :
      frameRange (kernel.pde index) ⊆ Set.Ico 0x100000 0x200000 := by
    rw [rep.pde_eq bounded] at present ⊢
    obtain ⟨lower, upper⟩ := frameOf_bootPde present
    exact Set.Ico_subset_Ico lower upper
  refine ⟨?_, poolInside, ?_, tableInside, ?_, ?_, fun btmp => rep.bitmapsInside,
    rep.bitmapsApart, fun btmp member addr => rep.bitmapsZero member, ?_⟩
  · rw [rep.kernelPool_eq, rep.userPool_eq]
    exact disjoint_Ico_of_le (poolLayout allMem).pools_adjacent.le
  · intro name
    have apart : Disjoint (Set.Ico 0 0x100000) (Set.Ico 0x200000 allMem) :=
      disjoint_Ico_of_le (by decide)
    exact apart.symm.mono_left (poolInside name)
  · intro name index bounded present
    have apart : Disjoint (Set.Ico 0x100000 0x200000) (Set.Ico 0x200000 allMem) :=
      disjoint_Ico_of_le le_rfl
    exact apart.symm.mono (poolInside name) (tableInside index bounded present)
  · intro name
    have sized := (poolLayout allMem).capacity_mul_le name
    rw [rep.pools]
    rw [PoolLayout.capacity, pgSize] at sized
    omega
  · have length : kernel.kernelVaddr.vaddrBitmap.btmpBytesLen = (poolLayout allMem).kbmLength := by
      rw [rep.vaddr]
      rfl
    have bound := (poolLayout allMem).kbmLength_le
    rw [length, kHeapStart]
    omega

/-- Start-up lays the pools out safely for every memory of two megabytes or more. -/
theorem start_safePools (before : Kernel) (allMem : Nat) (word : allMem < 2 ^ 32)
    (enough : 0x200000 ≤ allMem) :
    ∃ kernel, start before allMem = .ok kernel ∧ SafePools allMem kernel := by
  obtain ⟨kernel, ran, rep, -⟩ := start_run before allMem
  exact ⟨kernel, ran, rep.safePools word enough⟩

theorem start_safePools_fourGigabytes :
    ∃ kernel, start Kernel.blank 0xffffffff = .ok kernel ∧ SafePools 0xffffffff kernel :=
  start_safePools Kernel.blank 0xffffffff (by decide) (by decide)

/-- All but fourteen of the pages from two megabytes on have a bit in a pool's bitmap. -/
def CoversMemory (allMem : Nat) (kernel : Kernel) : Prop :=
  (allMem - 0x200000) / 4096 ≤ 8 * (kernel.kernelPool.poolBitmap.btmpBytesLen +
    kernel.userPool.poolBitmap.btmpBytesLen) + 14

/-- Rounding to whole bytes of bits loses seven pages of each pool. -/
theorem PoolLayout.covered (layout : PoolLayout) :
    8 * (layout.kbmLength + layout.ubmLength) ≤ layout.allFreePages ∧
      layout.allFreePages ≤ 8 * (layout.kbmLength + layout.ubmLength) + 14 := by
  unfold kbmLength ubmLength userFreePages kernelFreePages
  omega

theorem poolLayout_allFreePages {allMem : Nat} (word : allMem < 2 ^ 32)
    (enough : 0x200000 ≤ allMem) :
    (poolLayout allMem).allFreePages = (allMem - 0x200000) / 4096 % 65536 := by
  change (allMem + 2 ^ 32 - usedMem) % 2 ^ 32 / 4096 % 2 ^ 16 = _
  rw [usedMem_eq]
  omega

/-- Up to the 512 megabytes the bitmaps have room for, memory is covered exactly below 258
megabytes, where the page count still fits in sixteen bits. -/
theorem start_coversMemory_iff (before : Kernel) (allMem : Nat) (enough : 0x200000 ≤ allMem)
    (supported : allMem ≤ 0x20000000) :
    ∃ kernel, start before allMem = .ok kernel ∧
      (CoversMemory allMem kernel ↔ allMem < 0x10200000) := by
  obtain ⟨kernel, ran, rep, -⟩ := start_run before allMem
  refine ⟨kernel, ran, ?_⟩
  have pages := poolLayout_allFreePages (by omega) enough
  have bounds := (poolLayout allMem).covered
  rw [CoversMemory, rep.kernelPool_eq, rep.userPool_eq]
  change (allMem - 0x200000) / 4096 ≤
    8 * ((poolLayout allMem).kbmLength + (poolLayout allMem).ubmLength) + 14 ↔ _
  omega

theorem start_coversMemory_iff_thirtyTwo :
    ∃ kernel, start Kernel.blank 0x2000000 = .ok kernel ∧ CoversMemory 0x2000000 kernel := by
  obtain ⟨kernel, ran, covers⟩ :=
    start_coversMemory_iff Kernel.blank 0x2000000 (by decide) (by decide)
  exact ⟨kernel, ran, covers.mpr (by decide)⟩

/-- With 512 megabytes the page count wraps around, and memory is not covered. -/
theorem not_coversMemory_maximum :
    ∃ kernel, start Kernel.blank 0x20000000 = .ok kernel ∧ ¬ CoversMemory 0x20000000 kernel := by
  obtain ⟨kernel, ran, rep, -⟩ := start_run Kernel.blank 0x20000000
  refine ⟨kernel, ran, ?_⟩
  rw [CoversMemory, rep.kernelPool_eq, rep.userPool_eq]
  decide

end OsElephant
