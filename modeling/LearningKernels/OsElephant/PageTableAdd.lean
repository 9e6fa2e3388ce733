import LearningKernels.OsElephant.AllocatorRuns

/-!
# Mapping the pages of a block

`page_table_add` finds the directory entry of the virtual address but the
page-table entry of the *physical* one. On the boot tables that entry is slot
`page_phyaddr / 4096` of the first page table as long as the frame lies below
four megabytes, and lies in no page table from there on: the next access faults.
-/

namespace OsElephant

open Machine

theorem pdeIdx_eq (addr : Nat) : pdeIdx addr = directoryIndex addr := by
  rw [pdeIdx, Nat.shiftRight_and_distrib, show 0xffc00000 >>> 22 = 2 ^ 10 - 1 by decide,
    Nat.and_two_pow_sub_one_eq_mod, Nat.shiftRight_eq_div_pow, directoryIndex]

theorem pteIdx_eq (addr : Nat) : pteIdx addr = tableIndex addr := by
  rw [pteIdx, Nat.shiftRight_and_distrib, show 0x003ff000 >>> 12 = 2 ^ 10 - 1 by decide,
    Nat.and_two_pow_sub_one_eq_mod, Nat.shiftRight_eq_div_pow, tableIndex]

/-- `pde_ptr` is the self-map address of the directory entry. -/
theorem pdePtr_eq (addr : Nat) : pdePtr addr = selfMapAddr 1023 (directoryIndex addr) := by
  rw [pdePtr, pdeIdx_eq, selfMapAddr]
  omega

/-- `pte_ptr` is the self-map address of the page-table entry. -/
theorem ptePtr_eq (addr : Nat) :
    ptePtr addr = selfMapAddr (directoryIndex addr) (tableIndex addr) := by
  have table : (addr &&& 0xffc00000) >>> 10 = 4096 * directoryIndex addr := by
    rw [← pdeIdx_eq, pdeIdx]
    have aligned : addr &&& 0xffc00000 = ((addr &&& 0xffc00000) >>> 22) <<< 22 := by
      apply Nat.eq_of_testBit_eq
      intro bit
      rw [Nat.testBit_shiftLeft, Nat.testBit_shiftRight, Nat.testBit_and]
      by_cases high : 22 ≤ bit
      · simp only [high, decide_true, Bool.true_and, Nat.add_sub_cancel' high, Nat.testBit_and]
      · have low : (0xffc00000 : Nat).testBit bit = false := by
          have every : ∀ bit : Fin 22, (0xffc00000 : Nat).testBit bit.val = false := by decide
          exact every ⟨bit, by omega⟩
        simp only [high, decide_false, Bool.false_and, low, Bool.and_false]
    generalize (addr &&& 0xffc00000) >>> 22 = index at aligned ⊢
    rw [aligned, Nat.shiftLeft_eq, Nat.shiftRight_eq_div_pow]
    omega
  rw [ptePtr, table, pteIdx_eq, selfMapAddr]
  omega

section SelfMap

theorem shiftRight_eq_directoryIndex {va : Nat} (bounded : va < 2 ^ 32) :
    va >>> 22 = directoryIndex va := by
  rw [Nat.shiftRight_eq_div_pow, directoryIndex]
  omega

theorem shiftRight_and_eq_tableIndex (va : Nat) : (va >>> 12) &&& 0x3ff = tableIndex va := by
  rw [show 0x3ff = 2 ^ 10 - 1 by decide, Nat.and_two_pow_sub_one_eq_mod,
    Nat.shiftRight_eq_div_pow, tableIndex]

/-- Whatever else a self-mapped directory holds, `pde_ptr` leads to the directory entry of an
address and `pte_ptr` to its page-table entry, if there is a page table. -/
theorem selfMap_addresses (memory : Memory) (directory va : Nat)
    (present : Present (read32 memory (directory + 4 * 1023)))
    (self : frameOf (read32 memory (directory + 4 * 1023)) = directory) (bounded : va < 2 ^ 32) :
    walk memory directory (pdePtr va) = some (directory + 4 * (va >>> 22)) ∧
      ∀ frame, Present (read32 memory (directory + 4 * (va >>> 22))) →
        frameOf (read32 memory (directory + 4 * (va >>> 22))) = frame →
          walk memory directory (ptePtr va) = some (frame + 4 * ((va >>> 12) &&& 0x3ff)) := by
  rw [shiftRight_eq_directoryIndex bounded, shiftRight_and_eq_tableIndex]
  constructor
  · rw [pdePtr_eq, walk_selfMap rfl present self (by decide) (directoryIndex_lt va),
      if_pos present, self]
  · intro frame table found
    rw [ptePtr_eq, walk_selfMap rfl present self (directoryIndex_lt va) (tableIndex_lt va),
      if_pos table, found]

/-- A memory whose directory at `0x100000` holds nothing but itself. -/
def bareSelfMap : Memory := write32 (fun _ => 0) (0x100000 + 4 * 1023) 0x100003

theorem selfMap_addresses_bare :
    walk bareSelfMap 0x100000 (pdePtr 0xffffffff) = some (0x100000 + 4 * (0xffffffff >>> 22)) ∧
      ∀ frame, Present (read32 bareSelfMap (0x100000 + 4 * (0xffffffff >>> 22))) →
        frameOf (read32 bareSelfMap (0x100000 + 4 * (0xffffffff >>> 22))) = frame →
          walk bareSelfMap 0x100000 (ptePtr 0xffffffff) =
            some (frame + 4 * ((0xffffffff >>> 12) &&& 0x3ff)) := by
  have self : read32 bareSelfMap (0x100000 + 4 * 1023) = 0x100003 :=
    read32_write32 _ _ _ (by decide)
  apply selfMap_addresses
  · rw [self]
    decide
  · rw [self]
    decide
  · decide

end SelfMap

/-- The directory slots of the kernel heap. -/
def InHeap (vaddr : Nat) : Prop := 768 ≤ directoryIndex vaddr ∧ directoryIndex vaddr < 1023

theorem present_bootPde_heap {index : Nat} (lower : 768 ≤ index) (upper : index < 1023) :
    Present (bootPde index) := by
  unfold bootPde Present
  split_ifs <;> omega

theorem and_one_ne_zero (value : Nat) : value &&& 1 ≠ 0 ↔ Present value := by
  rw [Nat.and_one_is_mod, Present]
  omega

theorem and_one_eq_zero (value : Nat) : value &&& 1 = 0 ↔ ¬ Present value := by
  rw [Nat.and_one_is_mod, Present]
  omega

section Walks

variable {kernel : Kernel} {va pa : Nat}

theorem load32_fault (missing : walk kernel.ram kernel.cr3 va = none) :
    (load32 va).run kernel = .error .pageFault := by
  change load32 va kernel = _
  unfold load32
  rw [missing]

theorem store32_run (found : walk kernel.ram kernel.cr3 va = some pa) (value : Nat) :
    (store32 va value).run kernel =
      .ok ((), { kernel with ram := write32 kernel.ram pa value }) := by
  change store32 va value kernel = _
  unfold store32
  rw [found]

variable (tables : BootTables kernel.ram) (cr3 : kernel.cr3 = pageDirTablePos)

include tables cr3

theorem load32_pdePtr (vaddr : Nat) :
    (load32 (pdePtr vaddr)).run kernel = .ok (bootPde (directoryIndex vaddr), kernel) := by
  have bounded : directoryIndex vaddr < 1024 := Nat.mod_lt _ (by decide)
  have found : walk kernel.ram kernel.cr3 (pdePtr vaddr) =
      some (pageDirTablePos + 4 * directoryIndex vaddr) := by
    rw [cr3, pdePtr_eq, tables.walk_selfMapAddr (by decide) bounded, if_pos (by decide)]
    rfl
  rw [load32_run found, tables.directory _ bounded]

/-- `pte_ptr` of a frame below four megabytes leads into the first page table. -/
theorem walk_ptePtr_low {slot : Nat} (low : slot < 1024) :
    walk kernel.ram kernel.cr3 (ptePtr (4096 * slot)) = some (0x101000 + 4 * slot) := by
  have directory : directoryIndex (4096 * slot) = 0 := by unfold directoryIndex; omega
  have table : tableIndex (4096 * slot) = slot := by unfold tableIndex; omega
  rw [cr3, ptePtr_eq, directory, table, tables.walk_selfMapAddr (by decide) low,
    if_pos (by decide)]
  rfl

/-- `pte_ptr` of a frame from four megabytes up to three gigabytes leads nowhere. -/
theorem walk_ptePtr_high {frame : Nat} (lower : 0x400000 ≤ frame) (upper : frame < 0xc0000000) :
    walk kernel.ram kernel.cr3 (ptePtr frame) = none := by
  have bounds : 1 ≤ directoryIndex frame ∧ directoryIndex frame < 768 := by
    unfold directoryIndex
    omega
  have entryBound : tableIndex frame < 1024 := Nat.mod_lt _ (by decide)
  have zero : bootPde (directoryIndex frame) = 0 := by
    unfold bootPde
    rw [if_neg (by omega), if_neg (by omega), if_neg (by omega)]
  rw [cr3, ptePtr_eq, tables.walk_selfMapAddr (by omega) entryBound, zero, if_neg (by decide)]

/-- Mapping a low frame at a heap address fills the frame's own slot of the first
page table, if that slot is not present. -/
theorem pageTableAdd_low {vaddr slot : Nat} (heap : InHeap vaddr) (low : slot < 1024)
    (absent : ¬ Present (read32 kernel.ram (0x101000 + 4 * slot))) :
    (pageTableAdd vaddr (4096 * slot)).run kernel =
      .ok ((), { kernel with
        ram := write32 kernel.ram (0x101000 + 4 * slot) (4096 * slot ||| 4 ||| 2 ||| 1) }) := by
  have found := walk_ptePtr_low tables cr3 low
  have present := (and_one_ne_zero _).mpr (present_bootPde_heap heap.1 heap.2)
  have empty := (and_one_eq_zero _).mpr absent
  rw [pageTableAdd, Path.run_bind_of_ok (load32_pdePtr tables cr3 vaddr), if_pos present,
    Path.run_bind_of_ok (load32_run found),
    Path.run_bind_of_ok (Path.run_require_of_true empty _),
    Path.run_bind_of_ok (load32_run found), if_pos empty, store32_run found]

/-- A slot that is present already fails the assertion. -/
theorem pageTableAdd_repeat {vaddr slot : Nat} (heap : InHeap vaddr) (low : slot < 1024)
    (mapped : Present (read32 kernel.ram (0x101000 + 4 * slot))) :
    (pageTableAdd vaddr (4096 * slot)).run kernel = .error .assertFailed := by
  have found := walk_ptePtr_low tables cr3 low
  have present := (and_one_ne_zero _).mpr (present_bootPde_heap heap.1 heap.2)
  have taken := (and_one_ne_zero _).mpr mapped
  rw [pageTableAdd, Path.run_bind_of_ok (load32_pdePtr tables cr3 vaddr), if_pos present,
    Path.run_bind_of_ok (load32_run found),
    Path.run_bind_of_error (Path.run_require_of_false taken _)]

/-- A frame from four megabytes on cannot be mapped at a heap address. -/
theorem pageTableAdd_high {vaddr frame : Nat} (heap : InHeap vaddr) (lower : 0x400000 ≤ frame)
    (upper : frame < 0xc0000000) :
    (pageTableAdd vaddr frame).run kernel = .error .pageFault := by
  have missing := walk_ptePtr_high tables cr3 lower upper
  have present := (and_one_ne_zero _).mpr (present_bootPde_heap heap.1 heap.2)
  rw [pageTableAdd, Path.run_bind_of_ok (load32_pdePtr tables cr3 vaddr), if_pos present,
    Path.run_bind_of_error (load32_fault missing)]

end Walks

section Blocks

variable {layout : PoolLayout} {bump : Bump} {kernel : Kernel}

/-- A store into the upper three quarters of the first page table keeps the
representation. -/
theorem Represents.writeTable (rep : Represents layout bump kernel) {slot : Nat}
    (lower : 256 ≤ slot) (value : Nat) :
    Represents layout bump
      { kernel with ram := write32 kernel.ram (0x101000 + 4 * slot) value } where
  tables := rep.tables.congr fun query _ upper => write32_of_outside _ _ _ _ (by omega)
  cr3 := rep.cr3
  pools := fun name => by
    have same := rep.pools name
    cases name <;> exact same
  vaddr := rep.vaddr
  poolBits := by
    intro name bit inside
    have bound := layout.poolBase_add_le name
    rw [bitAt_congr (write32_of_outside _ _ _ _ (by omega)), rep.poolBits name bit inside]
  vaddrBits := by
    intro bit inside
    have limit := layout.vaddrBase_limit
    have length : layout.capacity .kernelPool = 8 * layout.kbmLength := rfl
    rw [bitAt_congr (write32_of_outside _ _ _ _ (by omega)), rep.vaddrBits bit inside]

/-- The kernel after one round of the loop of `malloc_page`: the next frame is
taken and its own slot of the first page table is filled. -/
def mapNext (layout : PoolLayout) (bump : Bump) (kernel : Kernel) : Kernel :=
  { kernel with
    ram := write32 (setBit kernel.ram (layout.poolBase .kernelPool) (bump.frames .kernelPool))
      (0x101000 + 4 * (512 + bump.frames .kernelPool))
      (4096 * (512 + bump.frames .kernelPool) ||| 4 ||| 2 ||| 1) }

/-- The slot the next frame would be mapped through. -/
def nextSlot (bump : Bump) (kernel : Kernel) : Nat :=
  read32 kernel.ram (0x101000 + 4 * (512 + bump.frames .kernelPool))

theorem Represents.mapNext (rep : Represents layout bump kernel)
    (room : bump.frames .kernelPool < layout.capacity .kernelPool) :
    Represents layout (bump.takeFrame .kernelPool) (mapNext layout bump kernel) :=
  (rep.takeFrame .kernelPool room).writeTable (by omega) _

/-- Memory from the directory up to the next frame's slot is as before a round. -/
theorem mapNext_below (layout : PoolLayout) (bump : Bump) (kernel : Kernel) {query : Nat}
    (room : bump.frames .kernelPool < layout.capacity .kernelPool)
    (lower : 0x100000 ≤ query) (outside : query < 0x101000 + 4 * (512 + bump.frames .kernelPool) ∨
      0x101000 + 4 * (512 + bump.frames .kernelPool) + 4 ≤ query) :
    (OsElephant.mapNext layout bump kernel).ram query = kernel.ram query := by
  have bound := layout.poolBase_add_le .kernelPool
  simp only [OsElephant.mapNext]
  rw [write32_of_outside _ _ _ _ (by omega), setBit_of_ne _ _ _ _ (by omega)]

theorem kernelFrame_eq (layout : PoolLayout) (index : Nat) :
    (layout.pool .kernelPool).phyAddrStart + pgSize * index = 4096 * (512 + index) := by
  have used := usedMem_eq
  change usedMem + 4096 * index = _
  omega

/-- Taking the next frame does not touch its slot. -/
theorem nextSlot_taken (layout : PoolLayout) (bump : Bump) (kernel : Kernel) :
    read32 (setBit kernel.ram (layout.poolBase .kernelPool) (bump.frames .kernelPool))
      (0x101000 + 4 * (512 + bump.frames .kernelPool)) = nextSlot bump kernel := by
  have bound := layout.poolBase_add_le .kernelPool
  exact read32_congr fun query lower _ => setBit_of_ne _ _ _ _ (by omega)

/-- One round of the loop, when there is a frame, it lies below four megabytes and
its slot is free. -/
theorem mapPages_step (rep : Represents layout bump kernel) {cnt vaddr : Nat}
    (heap : InHeap vaddr) (room : bump.frames .kernelPool < layout.capacity .kernelPool)
    (low : bump.frames .kernelPool < 512) (absent : ¬ Present (nextSlot bump kernel)) :
    (mapPages .kernelPool (cnt + 1) vaddr).run kernel =
      ((mapPages .kernelPool cnt ((vaddr + pgSize) % 2 ^ 32)).run
        (OsElephant.mapNext layout bump kernel)).map fun result =>
          (result.1.map (4096 * (512 + bump.frames .kernelPool) :: ·), result.2) := by
  have taken := rep.takeFrame .kernelPool room
  rw [← nextSlot_taken layout bump kernel] at absent
  have added := pageTableAdd_low taken.tables taken.cr3 heap
    (by omega : 512 + bump.frames .kernelPool < 1024) absent
  rw [mapPages, Path.run_bind_of_ok (palloc_run rep .kernelPool room), kernelFrame_eq,
    if_neg (by omega), Path.run_bind_of_ok added, StateT.run_bind]
  rfl

/-- Otherwise the loop never returns. -/
theorem mapPages_stop (rep : Represents layout bump kernel) {cnt vaddr : Nat}
    (heap : InHeap vaddr)
    (blocked : layout.capacity .kernelPool ≤ bump.frames .kernelPool ∨
      512 ≤ bump.frames .kernelPool ∨ Present (nextSlot bump kernel)) :
    ∃ reason, (mapPages .kernelPool (cnt + 1) vaddr).run kernel = .error reason := by
  by_cases room : bump.frames .kernelPool < layout.capacity .kernelPool
  · have taken := rep.takeFrame .kernelPool room
    have small := layout.capacity_le .kernelPool
    have stops {reason : Halt}
        (stopped : (pageTableAdd vaddr (4096 * (512 + bump.frames .kernelPool))).run
          { kernel with
            ram := setBit kernel.ram (layout.poolBase .kernelPool) (bump.frames .kernelPool) } =
          .error reason) :
        ∃ reason, (mapPages .kernelPool (cnt + 1) vaddr).run kernel = .error reason := by
      refine ⟨reason, ?_⟩
      rw [mapPages, Path.run_bind_of_ok (palloc_run rep .kernelPool room), kernelFrame_eq,
        if_neg (by omega), Path.run_bind_of_error stopped]
    by_cases low : bump.frames .kernelPool < 512
    · have present : Present (nextSlot bump kernel) :=
        (blocked.resolve_left (by omega)).resolve_left (by omega)
      rw [← nextSlot_taken layout bump kernel] at present
      exact stops (pageTableAdd_repeat taken.tables taken.cr3 heap (by omega) present)
    · exact stops (pageTableAdd_high taken.tables taken.cr3 heap (by omega) (by omega))
  · exact ⟨.assertFailed, by
      rw [mapPages, Path.run_bind_of_error (palloc_full rep .kernelPool (by omega))]⟩

theorem inHeap_page {page : Nat} (bounded : page < 65536) :
    InHeap (kHeapStart + pgSize * page) := by
  unfold InHeap directoryIndex kHeapStart pgSize
  omega

theorem next_page {page : Nat} (bounded : page < 65536) :
    (kHeapStart + pgSize * page + pgSize) % 2 ^ 32 = kHeapStart + pgSize * (page + 1) := by
  unfold kHeapStart pgSize
  omega

/-- **What a returning loop has done.** It has taken exactly the requested frames,
which were there and lay below four megabytes, and has left memory between the
directory and the slots of those frames alone. -/
theorem mapPages_ok (rep : Represents layout bump kernel) {cnt page : Nat}
    (bounded : page + cnt ≤ 65536) {result : Option (List Nat)} {after : Kernel}
    (ran : (mapPages .kernelPool cnt (kHeapStart + pgSize * page)).run kernel =
      .ok (result, after)) :
    (0 < cnt → bump.frames .kernelPool + cnt ≤ layout.capacity .kernelPool ∧
        bump.frames .kernelPool + cnt ≤ 512) ∧
      result.isSome ∧
      (∃ later, Represents layout later after ∧ later.pages = bump.pages ∧
        later.frames .kernelPool = bump.frames .kernelPool + cnt) ∧
      ∀ query, 0x100000 ≤ query → query < 0x101800 → after.ram query = kernel.ram query := by
  induction cnt generalizing bump kernel page result with
  | zero =>
      cases ran
      exact ⟨fun impossible => absurd impossible (Nat.lt_irrefl 0), rfl, ⟨bump, rep, rfl, rfl⟩,
        fun _ _ _ => rfl⟩
  | succ cnt ih =>
      have heap := inHeap_page (show page < 65536 by omega)
      by_cases unblocked : bump.frames .kernelPool < layout.capacity .kernelPool ∧
          bump.frames .kernelPool < 512 ∧ ¬ Present (nextSlot bump kernel)
      · obtain ⟨room, low, absent⟩ := unblocked
        rw [mapPages_step rep heap room low absent, next_page (by omega)] at ran
        obtain ⟨⟨tail, last⟩, rest, returned⟩ := map_eq_ok ran
        cases returned
        obtain ⟨within, some, ⟨later, repLater, pages, frames⟩, kept⟩ :=
          ih (rep.mapNext room) (by omega) rest
        have moved : (bump.takeFrame .kernelPool).frames .kernelPool =
            bump.frames .kernelPool + 1 := bump.takeFrame_self _
        rw [moved] at within frames
        refine ⟨fun _ => ?_, by simpa using some, ⟨later, repLater, pages, by omega⟩, ?_⟩
        · rcases Nat.eq_zero_or_pos cnt with none | more
          · omega
          · have := within more
            omega
        · intro query lower upper
          rw [kept query lower upper]
          exact mapNext_below layout bump kernel room lower (by omega)
      · obtain ⟨reason, stopped⟩ := @mapPages_stop _ _ _ rep cnt _ heap (by
          by_contra free
          push Not at free
          exact unblocked ⟨free.1, free.2.1, free.2.2⟩)
        rw [stopped] at ran
        cases ran

/-- A loop returns when the frames are there, lie below four megabytes and their
slots are free. -/
theorem mapPages_run (rep : Represents layout bump kernel) {cnt page : Nat}
    (bounded : page + cnt ≤ 65536)
    (room : bump.frames .kernelPool + cnt ≤ layout.capacity .kernelPool)
    (low : bump.frames .kernelPool + cnt ≤ 512)
    (absent : ∀ index, bump.frames .kernelPool ≤ index → index < 512 →
      ¬ Present (read32 kernel.ram (0x101000 + 4 * (512 + index)))) :
    ∃ frames after, (mapPages .kernelPool cnt (kHeapStart + pgSize * page)).run kernel =
      .ok (some frames, after) := by
  induction cnt generalizing bump kernel page with
  | zero => exact ⟨[], kernel, rfl⟩
  | succ cnt ih =>
      have moved : (bump.takeFrame .kernelPool).frames .kernelPool =
          bump.frames .kernelPool + 1 := bump.takeFrame_self _
      have heap := inHeap_page (show page < 65536 by omega)
      obtain ⟨frames, after, ran⟩ := @ih _ _ (rep.mapNext (by omega)) (page + 1) (by omega)
        (by omega) (by omega) (by
          intro index lower upper
          rw [read32_congr fun query below _ => mapNext_below layout bump kernel (by omega)
            (by omega) (by omega)]
          exact absent index (by omega) upper)
      refine ⟨4096 * (512 + bump.frames .kernelPool) :: frames, after, ?_⟩
      rw [mapPages_step rep heap (by omega) (by omega) (absent _ le_rfl (by omega)),
        next_page (by omega), ran]
      rfl

end Blocks

end OsElephant
