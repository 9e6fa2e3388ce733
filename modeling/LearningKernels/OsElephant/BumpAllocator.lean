import LearningKernels.OsElephant.Memory

/-!
# What the allocator means: three counters

The allocator never gives anything back, so each of its three bitmaps is a
prefix of ones and its state is three counters: the frames taken from each pool
and the pages taken from the kernel heap. `Represents` ties the counters to the
bytes in physical memory; each operation of `memory.c` that touches the bitmaps
moves one counter (`OsElephant.palloc_run`, `OsElephant.vaddrGet_run`).
-/

namespace OsElephant

open Machine

/-- The frames taken from each pool and the pages taken from the kernel heap. -/
structure Bump where
  frames : PoolName → Nat
  pages : Nat

/-- Nothing is taken. -/
def Bump.empty : Bump := ⟨fun _ => 0, 0⟩

/-- One more frame of a pool is taken. -/
def Bump.takeFrame (bump : Bump) (name : PoolName) : Bump :=
  { bump with frames := Function.update bump.frames name (bump.frames name + 1) }

theorem Bump.takeFrame_self (bump : Bump) (name : PoolName) :
    (bump.takeFrame name).frames name = bump.frames name + 1 := by
  simp only [takeFrame, Function.update_self]

theorem Bump.takeFrame_of_ne (bump : Bump) {name other : PoolName} (different : other ≠ name) :
    (bump.takeFrame name).frames other = bump.frames other := by
  simp only [takeFrame, Function.update_of_ne different]

/-- Further pages of the kernel heap are taken. -/
def Bump.takePages (bump : Bump) (count : Nat) : Bump :=
  { bump with pages := bump.pages + count }

theorem usedMem_eq : usedMem = 0x200000 := by
  unfold usedMem pgSize
  decide

namespace PoolLayout

variable (layout : PoolLayout)

/-- The pool `mem_pool_init` puts behind a pointer. -/
def pool : PoolName → Pool
  | .kernelPool => layout.kernelPool
  | .userPool => layout.userPool

/-- The physical address of a pool's bitmap. -/
def poolBase : PoolName → Nat
  | .kernelPool => 0x9a000
  | .userPool => 0x9a000 + layout.kbmLength

/-- The physical address of the bitmap of kernel-heap pages. -/
def vaddrBase : Nat := 0x9a000 + layout.kbmLength + layout.ubmLength

/-- The number of frames a pool can hand out. -/
def capacity (name : PoolName) : Nat := 8 * (layout.pool name).poolBitmap.btmpBytesLen

theorem kbmLength_le : layout.kbmLength ≤ 4095 := by
  have bound := layout.fits
  unfold kbmLength kernelFreePages
  omega

theorem ubmLength_le : layout.ubmLength ≤ 4096 := by
  have bound := layout.fits
  unfold ubmLength userFreePages kernelFreePages
  omega

theorem poolBitmap_bits (name : PoolName) :
    (layout.pool name).poolBitmap.bits = 0xc0000000 + layout.poolBase name := by
  cases name with
  | kernelPool =>
      have base : layout.poolBase .kernelPool = 0x9a000 := rfl
      rw [base]
      rfl
  | userPool =>
      simp only [pool, userPool, memBitmapBase, poolBase]
      omega

theorem vaddrBitmap_bits :
    layout.kernelVaddr.vaddrBitmap.bits = 0xc0000000 + layout.vaddrBase := by
  simp only [kernelVaddr, memBitmapBase, vaddrBase]
  omega

/-- The bitmaps lie one behind the other and end below the low megabyte's end. -/
theorem poolBase_add_le (name : PoolName) :
    0x9a000 ≤ layout.poolBase name ∧
      8 * layout.poolBase name + layout.capacity name ≤ 8 * layout.vaddrBase ∧
      layout.vaddrBase ≤ 0x9a000 + 8191 := by
  have kernel := layout.kbmLength_le
  have user := layout.ubmLength_le
  cases name <;>
    simp only [poolBase, vaddrBase, capacity, pool, kernelPool, userPool] <;>
    omega

theorem poolBase_limit (name : PoolName) :
    layout.poolBase name + (layout.pool name).poolBitmap.btmpBytesLen + 1 ≤ 0x100000 := by
  have kernel := layout.kbmLength_le
  have user := layout.ubmLength_le
  cases name <;>
    simp only [poolBase, pool, kernelPool, userPool] <;> omega

theorem vaddrBase_limit : layout.vaddrBase + layout.kbmLength + 1 ≤ 0x9e000 := by
  have kernel := layout.kbmLength_le
  have user := layout.ubmLength_le
  unfold vaddrBase
  omega

/-- The pools stay far below four gigabytes. -/
theorem phyAddrStart_le (name : PoolName) :
    (layout.pool name).phyAddrStart ≤ 0x8200000 := by
  have bound := layout.fits
  have used := usedMem_eq
  cases name with
  | kernelPool =>
      change usedMem ≤ 0x8200000
      omega
  | userPool =>
      change usedMem + layout.allFreePages / 2 * 4096 ≤ 0x8200000
      omega

/-- The two pools' bitmaps do not overlap. -/
theorem poolBase_apart :
    8 * layout.poolBase .kernelPool + layout.capacity .kernelPool =
      8 * layout.poolBase .userPool := by
  simp only [poolBase, capacity, pool, kernelPool]
  omega

theorem capacity_le (name : PoolName) : layout.capacity name ≤ 32768 := by
  have kernel := layout.kbmLength_le
  have user := layout.ubmLength_le
  cases name <;>
    simp only [capacity, pool, kernelPool, userPool] <;> omega

theorem vaddrBitmap_len :
    8 * layout.kernelVaddr.vaddrBitmap.btmpBytesLen = layout.capacity .kernelPool := rfl

end PoolLayout

/-- **Representation.** The kernel runs on the boot tables with the records of
`mem_pool_init`, and each bitmap is a prefix of ones as long as its counter. -/
structure Represents (layout : PoolLayout) (bump : Bump) (kernel : Kernel) : Prop where
  tables : BootTables kernel.ram
  cr3 : kernel.cr3 = pageDirTablePos
  pools : ∀ name, kernel.pool name = layout.pool name
  vaddr : kernel.kernelVaddr = layout.kernelVaddr
  poolBits : ∀ name, ∀ bit < layout.capacity name,
    bitAt kernel.ram (layout.poolBase name) bit = decide (bit < bump.frames name)
  vaddrBits : ∀ bit < layout.capacity .kernelPool,
    bitAt kernel.ram (layout.vaddrBase) bit = decide (bit < bump.pages)

section Window

variable {kernel : Kernel} {btmp : Bitmap} {base : Nat}

theorem load32_run {va pa : Nat} (found : walk kernel.ram kernel.cr3 va = some pa) :
    (load32 va).run kernel = .ok (read32 kernel.ram pa, kernel) := by
  change load32 va kernel = _
  unfold load32
  rw [found]

theorem load8_window (tables : BootTables kernel.ram) (cr3 : kernel.cr3 = pageDirTablePos)
    {offset : Nat} (bounded : offset < 0x100000) :
    AddressSpace.load8 kernel (0xc0000000 + offset) = .ok (kernel.ram offset) := by
  simp only [AddressSpace.load8, cr3, tables.walk_kernelWindow offset bounded]

theorem store8_window (tables : BootTables kernel.ram) (cr3 : kernel.cr3 = pageDirTablePos)
    {offset : Nat} (bounded : offset < 0x100000) (byte : Byte) :
    AddressSpace.store8 kernel (0xc0000000 + offset) byte =
      .ok { kernel with ram := Function.update kernel.ram offset byte } := by
  simp only [AddressSpace.store8, cr3, tables.walk_kernelWindow offset bounded]

/-- A bitmap in the low megabyte is readable through the kernel window. -/
theorem shows_window (tables : BootTables kernel.ram) (cr3 : kernel.cr3 = pageDirTablePos)
    (located : btmp.bits = 0xc0000000 + base) {limit : Nat} (bounded : base + limit ≤ 0x100000) :
    Shows kernel btmp.bits kernel.ram base limit := by
  intro offset inside
  rw [located, Nat.add_assoc]
  exact load8_window tables cr3 (by omega)

theorem bitmapSet_window (tables : BootTables kernel.ram) (cr3 : kernel.cr3 = pageDirTablePos)
    (located : btmp.bits = 0xc0000000 + base) {bitIdx : Nat}
    (bounded : base + bitIdx / 8 < 0x100000) :
    (bitmapSet btmp bitIdx 1).run kernel =
      .ok ((), { kernel with ram := setBit kernel.ram base bitIdx }) := by
  apply bitmapSet_one_run
  · rw [located, Nat.add_assoc]
    exact load8_window tables cr3 bounded
  · rw [located, Nat.add_assoc]
    exact store8_window tables cr3 bounded _

/-- The marking loop sets a run of bits. -/
theorem markBits_window (tables : BootTables kernel.ram) (cr3 : kernel.cr3 = pageDirTablePos)
    (located : btmp.bits = 0xc0000000 + base) (start left cnt : Nat)
    (bounded : base + (start + cnt + left) / 8 < 0x100000) :
    (markBits btmp start left cnt).run kernel =
      .ok ((), { kernel with ram := setBits kernel.ram base (start + cnt) left }) := by
  induction left generalizing kernel cnt with
  | zero => rfl
  | succ left ih =>
      rw [markBits, Path.run_bind_of_ok (bitmapSet_window tables cr3 located (by omega))]
      have kept : BootTables (setBit kernel.ram base (start + cnt)) :=
        tables.congr fun query lower _ => setBit_of_ne _ _ _ _ (by omega)
      exact @ih { kernel with ram := setBit kernel.ram base (start + cnt) } kept cr3 (cnt + 1)
        (by omega)

theorem memsetLoop_window (tables : BootTables kernel.ram) (cr3 : kernel.cr3 = pageDirTablePos)
    (size offset : Nat) (bounded : offset + size ≤ 0x100000) :
    (memsetLoop 0 size (0xc0000000 + offset)).run kernel =
      .ok ((), { kernel with ram := clearBytes kernel.ram offset size }) := by
  induction size generalizing kernel offset with
  | zero =>
      rw [clearBytes_zero]
      rfl
  | succ size ih =>
      rw [memsetLoop, Path.run_bind_of_ok
        (Path.run_store8_of_ok (store8_window tables cr3 (by omega) 0))]
      have kept : BootTables (Function.update kernel.ram offset 0) :=
        tables.congr fun query lower _ => Function.update_of_ne (by omega) _ _
      rw [Nat.add_assoc,
        @ih { kernel with ram := Function.update kernel.ram offset 0 } kept cr3 (offset + 1)
          (by omega), clearBytes_succ]

theorem bitmapInit_window (tables : BootTables kernel.ram) (cr3 : kernel.cr3 = pageDirTablePos)
    (located : btmp.bits = 0xc0000000 + base) (bounded : base + btmp.btmpBytesLen ≤ 0x100000) :
    (bitmapInit btmp).run kernel =
      .ok ((), { kernel with ram := clearBytes kernel.ram base btmp.btmpBytesLen }) := by
  rw [bitmapInit, memset, Path.run_bind_of_ok (Path.run_require_of_true (by omega) _), located]
  exact memsetLoop_window tables cr3 _ _ bounded

end Window

section Install

variable (layout : PoolLayout)

/-- Memory after the bitmaps of the two pools and of the kernel heap were cleared. -/
def PoolLayout.cleared (memory : Memory) : Memory :=
  clearBytes (clearBytes (clearBytes memory 0x9a000 layout.kbmLength)
    (0x9a000 + layout.kbmLength) layout.ubmLength) layout.vaddrBase layout.kbmLength

theorem PoolLayout.cleared_of_outside (memory : Memory) {query : Nat}
    (apart : query < 0x9a000 ∨ layout.vaddrBase + layout.kbmLength ≤ query) :
    layout.cleared memory query = memory query := by
  unfold PoolLayout.vaddrBase at apart
  rw [PoolLayout.cleared, PoolLayout.vaddrBase, clearBytes_of_outside _ _ _ _ (by omega),
    clearBytes_of_outside _ _ _ _ (by omega), clearBytes_of_outside _ _ _ _ (by omega)]

theorem PoolLayout.bitAt_cleared_pool (memory : Memory) (name : PoolName) {bit : Nat}
    (inside : bit < layout.capacity name) :
    bitAt (layout.cleared memory) (layout.poolBase name) bit = false := by
  unfold PoolLayout.cleared PoolLayout.vaddrBase
  cases name with
  | kernelPool =>
      simp only [PoolLayout.capacity, PoolLayout.pool, PoolLayout.kernelPool] at inside
      simp only [PoolLayout.poolBase]
      rw [bitAt_congr (clearBytes_of_outside _ _ _ _ (by omega)),
        bitAt_congr (clearBytes_of_outside _ _ _ _ (by omega))]
      exact bitAt_clearBytes _ _ _ _ _ (by omega) (by omega)
  | userPool =>
      simp only [PoolLayout.capacity, PoolLayout.pool, PoolLayout.userPool] at inside
      simp only [PoolLayout.poolBase]
      rw [bitAt_congr (clearBytes_of_outside _ _ _ _ (by omega))]
      exact bitAt_clearBytes _ _ _ _ _ (by omega) (by omega)

theorem PoolLayout.bitAt_cleared_vaddr (memory : Memory) {bit : Nat}
    (inside : bit < layout.capacity .kernelPool) :
    bitAt (layout.cleared memory) layout.vaddrBase bit = false := by
  simp only [PoolLayout.capacity, PoolLayout.pool, PoolLayout.kernelPool] at inside
  exact bitAt_clearBytes _ _ _ _ _ (by omega) (by omega)

theorem PoolLayout.install_cleared {kernel : Kernel} (tables : BootTables kernel.ram)
    (cr3 : kernel.cr3 = pageDirTablePos) :
    layout.install.run kernel = .ok ((), ⟨layout.cleared kernel.ram, pageDirTablePos,
      layout.kernelPool, layout.userPool, layout.kernelVaddr⟩) := by
  have kernelBound := layout.kbmLength_le
  have userBound := layout.ubmLength_le
  have kernelLen : layout.kernelPool.poolBitmap.btmpBytesLen = layout.kbmLength := rfl
  have userLen : layout.userPool.poolBitmap.btmpBytesLen = layout.ubmLength := rfl
  have vaddrLen : layout.kernelVaddr.vaddrBitmap.btmpBytesLen = layout.kbmLength := rfl
  let first := clearBytes kernel.ram 0x9a000 layout.kbmLength
  let second := clearBytes first (0x9a000 + layout.kbmLength) layout.ubmLength
  have firstTables : BootTables first :=
    tables.congr fun query lower _ => clearBytes_of_outside _ _ _ _ (by omega)
  have secondTables : BootTables second :=
    firstTables.congr fun query lower _ => clearBytes_of_outside _ _ _ _ (by omega)
  let installed : Kernel :=
    ⟨kernel.ram, kernel.cr3, layout.kernelPool, layout.userPool, kernel.kernelVaddr⟩
  have clearKernel : (bitmapInit layout.kernelPool.poolBitmap).run installed =
      .ok ((), { installed with ram := first }) :=
    bitmapInit_window tables cr3 (layout.poolBitmap_bits .kernelPool) (by omega)
  have clearUser : (bitmapInit layout.userPool.poolBitmap).run
      { installed with ram := first } = .ok ((), { installed with ram := second }) :=
    bitmapInit_window firstTables cr3 (layout.poolBitmap_bits .userPool) (by omega)
  have clearVaddr : (bitmapInit layout.kernelVaddr.vaddrBitmap).run
      { installed with ram := second, kernelVaddr := layout.kernelVaddr } =
      .ok ((), { installed with
        ram := layout.cleared kernel.ram, kernelVaddr := layout.kernelVaddr }) :=
    bitmapInit_window secondTables cr3 layout.vaddrBitmap_bits
      (by rw [PoolLayout.vaddrBase]; omega)
  rw [PoolLayout.install, Path.run_bind_of_ok (Path.run_modify _ _),
    Path.run_bind_of_ok clearKernel, Path.run_bind_of_ok clearUser,
    Path.run_bind_of_ok (Path.run_modify _ _), clearVaddr, cr3]

/-- **Initialisation.** `mem_pool_init` always goes through; nothing is taken
afterwards and memory outside the three bitmaps is as before. -/
theorem PoolLayout.install_run {kernel : Kernel} (tables : BootTables kernel.ram)
    (cr3 : kernel.cr3 = pageDirTablePos) :
    ∃ after, layout.install.run kernel = .ok ((), after) ∧
      Represents layout Bump.empty after ∧
      ∀ query, query < 0x9a000 ∨ layout.vaddrBase + layout.kbmLength ≤ query →
        after.ram query = kernel.ram query := by
  have kernelBound := layout.kbmLength_le
  have userBound := layout.ubmLength_le
  refine ⟨_, layout.install_cleared tables cr3, ⟨?_, rfl, ?_, rfl, ?_, ?_⟩,
    fun query => layout.cleared_of_outside kernel.ram⟩
  · exact tables.congr fun query lower _ =>
      layout.cleared_of_outside _ (by unfold PoolLayout.vaddrBase; omega)
  · intro name
    cases name <;> rfl
  · intro name bit inside
    exact layout.bitAt_cleared_pool kernel.ram name inside
  · intro bit inside
    exact layout.bitAt_cleared_vaddr kernel.ram inside

end Install

section Operations

variable {layout : PoolLayout} {bump : Bump} {kernel : Kernel}

/-- Taking the next frame of a pool sets its bit and moves its counter. -/
theorem Represents.takeFrame (rep : Represents layout bump kernel) (name : PoolName)
    (room : bump.frames name < layout.capacity name) :
    Represents layout (bump.takeFrame name)
      { kernel with
        ram := setBit kernel.ram (layout.poolBase name) (bump.frames name) } where
  tables := by
    have bound := layout.poolBase_add_le name
    exact rep.tables.congr fun query lower _ => setBit_of_ne _ _ _ _ (by omega)
  cr3 := rep.cr3
  pools := fun other => by
    have same := rep.pools other
    cases other <;> exact same
  vaddr := rep.vaddr
  poolBits := by
    intro other bit inside
    by_cases same : other = name
    · subst same
      rw [bitAt_setBit, rep.poolBits other bit inside, ← Bool.decide_or]
      rw [Bump.takeFrame_self, decide_eq_decide]
      omega
    · have apart := layout.poolBase_apart
      rw [bitAt_congr (setBit_of_ne _ _ _ _ ?_), rep.poolBits other bit inside]
      · rw [Bump.takeFrame_of_ne _ same]
      · cases name <;> cases other <;> first | exact absurd rfl same | omega
  vaddrBits := by
    intro bit inside
    have bound := layout.poolBase_add_le name
    rw [bitAt_congr (setBit_of_ne _ _ _ _ (by omega)), rep.vaddrBits bit inside]
    rfl

/-- A pool with a frame left hands out the next one. -/
theorem palloc_run (rep : Represents layout bump kernel) (name : PoolName)
    (room : bump.frames name < layout.capacity name) :
    (palloc name).run kernel =
      .ok ((layout.pool name).phyAddrStart + pgSize * bump.frames name,
        { kernel with
          ram := setBit kernel.ram (layout.poolBase name) (bump.frames name) }) := by
  have located := layout.poolBitmap_bits name
  have limit := layout.poolBase_limit name
  have small := layout.capacity_le name
  have shows : Shows kernel _ kernel.ram (layout.poolBase name)
      ((layout.pool name).poolBitmap.btmpBytesLen + 1) :=
    shows_window rep.tables rep.cr3 located (by omega)
  have start := layout.phyAddrStart_le name
  have scanned : (bitmapScan (layout.pool name).poolBitmap 1).run kernel =
      .ok ((bump.frames name : Int), kernel) := by
    unfold PoolLayout.capacity at small room
    apply bitmapScan_firstFit shows (by omega) le_rfl room (by omega) (by omega)
    · intro offset bound
      rw [rep.poolBits name _ (by unfold PoolLayout.capacity; omega), decide_eq_false_iff_not]
      omega
    · intro earlier below free
      have taken := free 0 (by omega)
      rw [rep.poolBits name _ (by unfold PoolLayout.capacity; omega),
        decide_eq_false_iff_not] at taken
      omega
  have inside : layout.poolBase name + bump.frames name / 8 < 0x100000 := by
    unfold PoolLayout.capacity at room
    omega
  have marked := bitmapSet_window rep.tables rep.cr3 located inside
  rw [palloc, Path.run_bind_of_ok (Path.run_get _), rep.pools name, Path.run_bind_of_ok scanned,
    if_neg (by omega), Int.toNat_natCast, Path.run_bind_of_ok marked, Path.run_pure]
  congr 2
  unfold pgSize
  omega

/-- A pool without a frame left fails the assertion of `bitmap_scan`. -/
theorem palloc_full (rep : Represents layout bump kernel) (name : PoolName)
    (full : layout.capacity name ≤ bump.frames name) :
    (palloc name).run kernel = .error .assertFailed := by
  have located := layout.poolBitmap_bits name
  have limit := layout.poolBase_limit name
  have scanned : (bitmapScan (layout.pool name).poolBitmap 1).run kernel =
      .error .assertFailed := by
    apply bitmapScan_full 1 (shows_window rep.tables rep.cr3 located (by omega))
    intro bit inside
    rw [rep.poolBits name bit inside, decide_eq_true_iff]
    unfold PoolLayout.capacity at full
    omega
  rw [palloc, Path.run_bind_of_ok (Path.run_get _), rep.pools name,
    Path.run_bind_of_error scanned]

/-- The next `count` heap pages fit: their bits are free and end at most one bit
behind the bitmap. -/
def HeapFits (layout : PoolLayout) (bump : Bump) (kernel : Kernel) (count : Nat) : Prop :=
  bump.pages + count ≤ layout.capacity .kernelPool + 1 ∧
    FreeRun kernel.ram (layout.vaddrBase) bump.pages count

theorem Represents.shows_vaddr (rep : Represents layout bump kernel) :
    Shows kernel layout.kernelVaddr.vaddrBitmap.bits kernel.ram (layout.vaddrBase)
      (layout.kernelVaddr.vaddrBitmap.btmpBytesLen + 1) := by
  have limit := layout.vaddrBase_limit
  refine shows_window rep.tables rep.cr3 (layout.vaddrBitmap_bits) ?_
  change layout.vaddrBase + (layout.kbmLength + 1) ≤ 0x100000
  omega

/-- Taking heap pages sets their bits and moves the counter. -/
theorem Represents.takePages (rep : Represents layout bump kernel) (count : Nat)
    (bounded : bump.pages + count ≤ layout.capacity .kernelPool + 1) :
    Represents layout (bump.takePages count)
      { kernel with ram := setBits kernel.ram (layout.vaddrBase) bump.pages count } where
  tables := by
    have limit := layout.vaddrBase_limit
    have length : layout.capacity .kernelPool = 8 * layout.kbmLength := rfl
    exact rep.tables.congr fun query lower _ => setBits_of_outside _ _ _ _ _ (by omega)
  cr3 := rep.cr3
  pools := fun other => by
    have same := rep.pools other
    cases other <;> exact same
  vaddr := rep.vaddr
  poolBits := by
    intro name bit inside
    have bound := layout.poolBase_add_le name
    rw [bitAt_congr (setBits_of_outside _ _ _ _ _ (by omega)), rep.poolBits name bit inside]
    rfl
  vaddrBits := by
    intro bit inside
    rw [bitAt_setBits, rep.vaddrBits bit inside, ← Bool.decide_or, decide_eq_decide]
    simp only [Bump.takePages]
    omega

/-- A request that fits gets the next pages of the heap. -/
theorem vaddrGet_run (rep : Represents layout bump kernel) {count : Nat} (positive : 1 ≤ count)
    (room : bump.pages < layout.capacity .kernelPool) (fits : HeapFits layout bump kernel count) :
    (vaddrGet .pfKernel count).run kernel =
      .ok (kHeapStart + pgSize * bump.pages,
        { kernel with ram := setBits kernel.ram (layout.vaddrBase) bump.pages count }) := by
  have limit := layout.vaddrBase_limit
  have length : layout.capacity .kernelPool = 8 * layout.kbmLength := rfl
  have small := layout.capacity_le .kernelPool
  have sized := layout.vaddrBitmap_len
  obtain ⟨bounded, free⟩ := fits
  have scanned : (bitmapScan layout.kernelVaddr.vaddrBitmap count).run kernel =
      .ok ((bump.pages : Int), kernel) := by
    refine bitmapScan_firstFit rep.shows_vaddr (by omega) positive (by omega) (by omega)
      (by omega) free ?_
    intro earlier below run
    have taken := run 0 positive
    rw [rep.vaddrBits _ (by omega), decide_eq_false_iff_not] at taken
    omega
  have marked := markBits_window rep.tables rep.cr3 (layout.vaddrBitmap_bits) bump.pages count 0
    (by omega)
  rw [Nat.add_zero] at marked
  have address : (kernel.kernelVaddr.vaddrStart + bump.pages * pgSize) % 2 ^ 32 =
      kHeapStart + pgSize * bump.pages := by
    have start : layout.kernelVaddr.vaddrStart = kHeapStart := rfl
    rw [rep.vaddr, start]
    unfold kHeapStart pgSize
    omega
  rw [← rep.vaddr] at scanned marked
  rw [vaddrGet, if_pos rfl, Path.run_bind_of_ok (Path.run_get _), Path.run_bind_of_ok scanned,
    if_neg (by omega), Int.toNat_natCast, Path.run_bind_of_ok marked, Path.run_pure, address]

/-- A run of free pages anywhere is one at the counter. -/
theorem Represents.heapFits_of_freeRun (rep : Represents layout bump kernel) {count fit : Nat}
    (positive : 1 ≤ count) (room : bump.pages < layout.capacity .kernelPool)
    (reach : fit + count ≤ layout.capacity .kernelPool + 1)
    (run : FreeRun kernel.ram layout.vaddrBase fit count) : HeapFits layout bump kernel count := by
  have behind : bump.pages ≤ fit := by
    by_contra early
    have taken := run 0 positive
    rw [rep.vaddrBits _ (by omega), decide_eq_false_iff_not] at taken
    omega
  refine ⟨by omega, fun offset bound => ?_⟩
  by_cases inside : bump.pages + offset < layout.capacity .kernelPool
  · rw [rep.vaddrBits _ inside, decide_eq_false_iff_not]
    omega
  · have last := run offset bound
    rwa [show fit + offset = bump.pages + offset by omega] at last

/-- A request that does not fit, with some page left, gets the null pointer and
changes nothing. -/
theorem vaddrGet_null (rep : Represents layout bump kernel) {count : Nat} (positive : 1 ≤ count)
    (room : bump.pages < layout.capacity .kernelPool)
    (misfit : ¬ HeapFits layout bump kernel count) :
    (vaddrGet .pfKernel count).run kernel = .ok (0, kernel) := by
  have small := layout.capacity_le .kernelPool
  have sized := layout.vaddrBitmap_len
  have free : bitAt kernel.ram layout.vaddrBase bump.pages = false := by
    rw [rep.vaddrBits _ room, decide_eq_false_iff_not]
    omega
  have scanned : (bitmapScan layout.kernelVaddr.vaddrBitmap count).run kernel =
      .ok (-1, kernel) := by
    refine bitmapScan_noFit rep.shows_vaddr (by omega) positive ⟨bump.pages, by omega, free⟩ ?_
    intro fit reach run
    exact misfit (rep.heapFits_of_freeRun positive room reach run)
  rw [vaddrGet, if_pos rfl, Path.run_bind_of_ok (Path.run_get _), rep.vaddr,
    Path.run_bind_of_ok scanned, if_pos rfl]
  rfl

/-- With no page left every request fails the assertion of `bitmap_scan`. -/
theorem vaddrGet_full (rep : Represents layout bump kernel) (count : Nat)
    (full : layout.capacity .kernelPool ≤ bump.pages) :
    (vaddrGet .pfKernel count).run kernel = .error .assertFailed := by
  have scanned : (bitmapScan layout.kernelVaddr.vaddrBitmap count).run kernel =
      .error .assertFailed := by
    apply bitmapScan_full count rep.shows_vaddr
    intro bit inside
    rw [PoolLayout.vaddrBitmap_len] at inside
    rw [rep.vaddrBits bit inside, decide_eq_true_iff]
    omega
  rw [vaddrGet, if_pos rfl, Path.run_bind_of_ok (Path.run_get _), rep.vaddr,
    Path.run_bind_of_error scanned]

end Operations

end OsElephant
