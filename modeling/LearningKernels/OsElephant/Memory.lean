import LearningKernels.OsElephant.Bitmap
import LearningKernels.OsElephant.SetupPage

/-!
# The kernel page allocator

The functions of `memory.c`. The state is physical memory, the page directory
register and the three allocator records; bitmaps and page tables live in
physical memory and are reached through the page walk. The messages of
`mem_pool_init` go to video memory and are not part of the state.
-/

namespace OsElephant

open Machine

/-- `PG_SIZE`. -/
def pgSize : Nat := 4096

/-- `MEM_BITMAP_BASE`. -/
def memBitmapBase : Nat := 0xc009a000

/-- `K_HEAP_START`. -/
def kHeapStart : Nat := 0xc0100000

/-- `struct pool`. -/
structure Pool where
  poolBitmap : Bitmap
  phyAddrStart : Nat
  poolSize : Nat
  deriving DecidableEq, Repr

/-- `struct virtual_addr`. -/
structure VirtualAddr where
  vaddrBitmap : Bitmap
  vaddrStart : Nat
  deriving DecidableEq, Repr

/-- Physical memory, the directory register and the globals of `memory.c`. -/
structure Kernel where
  ram : Memory
  cr3 : Nat
  kernelPool : Pool
  userPool : Pool
  kernelVaddr : VirtualAddr

/-- Kernel code runs with paging on: every access goes through the walk. -/
instance : AddressSpace Kernel where
  load8 kernel va :=
    match walk kernel.ram kernel.cr3 va with
    | some pa => .ok (kernel.ram pa)
    | none => .error .pageFault
  store8 kernel va byte :=
    match walk kernel.ram kernel.cr3 va with
    | some pa => .ok { kernel with ram := Function.update kernel.ram pa byte }
    | none => .error .pageFault

/-- Zeroed memory and zeroed records. -/
def Kernel.blank : Kernel := ⟨fun _ => 0, 0, ⟨⟨0, 0⟩, 0, 0⟩, ⟨⟨0, 0⟩, 0, 0⟩, ⟨⟨0, 0⟩, 0⟩⟩

/-- What the loader hands over: the boot tables over whatever memory held, with
paging switched on. -/
def boot (before : Kernel) : Kernel :=
  { before with
    ram := setupPage before.ram
    cr3 := pageDirTablePos }

/-- Read an aligned doubleword. -/
def load32 (va : Nat) : Path Kernel Nat := fun kernel =>
  match walk kernel.ram kernel.cr3 va with
  | some pa => .ok (read32 kernel.ram pa, kernel)
  | none => .error .pageFault

/-- Write an aligned doubleword. -/
def store32 (va value : Nat) : Path Kernel Unit := fun kernel =>
  match walk kernel.ram kernel.cr3 va with
  | some pa => .ok ((), { kernel with ram := write32 kernel.ram pa value })
  | none => .error .pageFault

/-- `enum pool_flags`. -/
inductive PoolFlags where
  | pfKernel
  | pfUser
  deriving DecidableEq, Repr

/-- The values of `enum pool_flags`. -/
def PoolFlags.value : PoolFlags → Nat
  | .pfKernel => 1
  | .pfUser => 2

/-- The two pools a `struct pool *` points to. -/
inductive PoolName where
  | kernelPool
  | userPool
  deriving DecidableEq, Repr

/-- The pool behind a pointer. -/
def Kernel.pool (kernel : Kernel) : PoolName → Pool
  | .kernelPool => kernel.kernelPool
  | .userPool => kernel.userPool

/-- `used_mem`: the page tables and the low megabyte. -/
def usedMem : Nat := pgSize * 256 + 0x100000

/-- The sizes `mem_pool_init` computes, all from `all_free_pages`, a `uint16_t`. -/
structure PoolLayout where
  allFreePages : Nat
  fits : allFreePages < 2 ^ 16

/-- The layout for a memory size. -/
def poolLayout (allMem : Nat) : PoolLayout where
  allFreePages := (allMem + 2 ^ 32 - usedMem) % 2 ^ 32 / pgSize % 2 ^ 16
  fits := Nat.mod_lt _ (by decide)

namespace PoolLayout

variable (layout : PoolLayout)

/-- `kernel_free_pages`. -/
def kernelFreePages : Nat := layout.allFreePages / 2

/-- `user_free_pages`. -/
def userFreePages : Nat := layout.allFreePages - layout.kernelFreePages

/-- `kbm_length`. -/
def kbmLength : Nat := layout.kernelFreePages / 8

/-- `ubm_length`. -/
def ubmLength : Nat := layout.userFreePages / 8

/-- `kernel_pool` as `mem_pool_init` sets it up. -/
def kernelPool : Pool where
  poolBitmap := ⟨layout.kbmLength, memBitmapBase⟩
  phyAddrStart := usedMem
  poolSize := layout.kernelFreePages * pgSize

/-- `user_pool` as `mem_pool_init` sets it up. -/
def userPool : Pool where
  poolBitmap := ⟨layout.ubmLength, memBitmapBase + layout.kbmLength⟩
  phyAddrStart := usedMem + layout.kernelFreePages * pgSize
  poolSize := layout.userFreePages * pgSize

/-- `kernel_vaddr` as `mem_pool_init` sets it up. -/
def kernelVaddr : VirtualAddr where
  vaddrBitmap := ⟨layout.kbmLength, memBitmapBase + layout.kbmLength + layout.ubmLength⟩
  vaddrStart := kHeapStart

/-- The part of `mem_pool_init` after its arithmetic. -/
def install : Path Kernel Unit := do
  modify fun kernel =>
    { kernel with
      kernelPool := layout.kernelPool
      userPool := layout.userPool }
  bitmapInit layout.kernelPool.poolBitmap
  bitmapInit layout.userPool.poolBitmap
  modify fun kernel => { kernel with kernelVaddr := layout.kernelVaddr }
  bitmapInit layout.kernelVaddr.vaddrBitmap

end PoolLayout

/-- `mem_pool_init`. -/
def memPoolInit (allMem : Nat) : Path Kernel Unit := (poolLayout allMem).install

/-- The marking loop of `vaddr_get`, with `left` rounds to go. -/
def markBits (btmp : Bitmap) (bitIdxStart : Nat) : (left cnt : Nat) → Path Kernel Unit
  | 0, _ => pure ()
  | left + 1, cnt => do
      bitmapSet btmp (bitIdxStart + cnt) 1
      markBits btmp bitIdxStart left (cnt + 1)

/-- `vaddr_get`. The null pointer is address 0. -/
def vaddrGet (pf : PoolFlags) (pgCnt : Nat) : Path Kernel Nat := do
  if pf = .pfKernel then
    let kernelVaddr := (← get).kernelVaddr
    let bitIdxStart ← bitmapScan kernelVaddr.vaddrBitmap pgCnt
    if bitIdxStart = -1 then
      pure 0
    else
      markBits kernelVaddr.vaddrBitmap bitIdxStart.toNat pgCnt 0
      pure ((kernelVaddr.vaddrStart + bitIdxStart.toNat * pgSize) % 2 ^ 32)
  else
    pure 0

/-- `PDE_IDX`. -/
def pdeIdx (addr : Nat) : Nat := (addr &&& 0xffc00000) >>> 22

/-- `PTE_IDX`. -/
def pteIdx (addr : Nat) : Nat := (addr &&& 0x003ff000) >>> 12

/-- `pte_ptr`. -/
def ptePtr (vaddr : Nat) : Nat := 0xffc00000 + ((vaddr &&& 0xffc00000) >>> 10) + pteIdx vaddr * 4

/-- `pde_ptr`. -/
def pdePtr (vaddr : Nat) : Nat := 0xfffff000 + pdeIdx vaddr * 4

/-- `palloc`. -/
def palloc (mPool : PoolName) : Path Kernel Nat := do
  let pool := (← get).pool mPool
  let bitIdx ← bitmapScan pool.poolBitmap 1
  if bitIdx = -1 then
    pure 0
  else
    bitmapSet pool.poolBitmap bitIdx.toNat 1
    pure ((bitIdx.toNat * pgSize + pool.phyAddrStart) % 2 ^ 32)

/-- `page_table_add`. The page-table entry is looked up for the physical address,
as in the source. -/
def pageTableAdd (vaddr pagePhyaddr : Nat) : Path Kernel Unit := do
  let pde := pdePtr vaddr
  let pte := ptePtr pagePhyaddr
  let pdeValue ← load32 pde
  if pdeValue &&& 1 ≠ 0 then
    let pteValue ← load32 pte
    Path.require (pteValue &&& 1 = 0) .assertFailed
    let pteAgain ← load32 pte
    if pteAgain &&& 1 = 0 then
      store32 pte (pagePhyaddr ||| 4 ||| 2 ||| 1)
    else
      Path.halt .panicked
  else
    let pdePhyaddr ← palloc .kernelPool
    store32 pde (pdePhyaddr ||| 4 ||| 2 ||| 1)
    memset (pte &&& 0xfffff000) 0 pgSize
    let pteValue ← load32 pte
    Path.require (pteValue &&& 1 = 0) .assertFailed
    store32 pte (pagePhyaddr ||| 4 ||| 2 ||| 1)

/-- The loop of `malloc_page`. Besides whether it went through, it returns the
frames `palloc` handed out, page by page. -/
def mapPages (memPool : PoolName) : (cnt vaddr : Nat) → Path Kernel (Option (List Nat))
  | 0, _ => pure (some [])
  | cnt + 1, vaddr => do
      let pagePhyaddr ← palloc memPool
      if pagePhyaddr = 0 then
        pure none
      else
        pageTableAdd vaddr pagePhyaddr
        let rest ← mapPages memPool cnt ((vaddr + pgSize) % 2 ^ 32)
        pure (rest.map (pagePhyaddr :: ·))

/-- `malloc_page`, with the frames behind the block it returns. -/
def mallocPageFrames (pf : PoolFlags) (pgCnt : Nat) : Path Kernel (Nat × List Nat) := do
  Path.require (0 < pgCnt ∧ pgCnt < 3840) .assertFailed
  let vaddrStart ← vaddrGet pf pgCnt
  if vaddrStart = 0 then
    pure (0, [])
  else
    let memPool := if pf.value &&& PoolFlags.pfKernel.value ≠ 0 then .kernelPool else .userPool
    match ← mapPages memPool pgCnt vaddrStart with
    | none => pure (0, [])
    | some frames => pure (vaddrStart, frames)

/-- `malloc_page`. -/
def mallocPage (pf : PoolFlags) (pgCnt : Nat) : Path Kernel Nat :=
  Prod.fst <$> mallocPageFrames pf pgCnt

/-- `get_kernel_pages`. -/
def getKernelPages (pgCnt : Nat) : Path Kernel Nat := do
  let vaddr ← mallocPage .pfKernel pgCnt
  if vaddr = 0 then pure 0 else pure vaddr

end OsElephant
