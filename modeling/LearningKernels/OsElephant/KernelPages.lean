import Mathlib.Data.List.Nodup
import LearningKernels.OsElephant.PageTableAdd

/-!
# Blocks of kernel pages

`get_kernel_pages` takes a run of heap pages and then one frame for each of
them. Two slips decide what callers see. The entry `page_table_add` fills is that
of the frame and not that of the page, so no page of the heap is ever mapped
(`OsElephant.getKernelPages_contract_iff`). And `bitmap_scan` looks one bit past
the bitmap and asserts that some byte is not full, so that a failed request is
clean only while a page is left and the run does not fit with one bit more
(`OsElephant.mallocPage_cleanFailure_iff`).
-/

namespace OsElephant

open Machine

/-- What `get_kernel_pages` computes, with the frames behind the block left out. -/
theorem getKernelPages_run_eq (pgCnt : Nat) (kernel : Kernel) :
    (getKernelPages pgCnt).run kernel =
      ((mallocPageFrames .pfKernel pgCnt).run kernel).map
        fun result => (result.1.1, result.2) := by
  rw [getKernelPages, mallocPage, StateT.run_bind, StateT.run_map]
  cases (mallocPageFrames .pfKernel pgCnt).run kernel with
  | error reason => rfl
  | ok result =>
      obtain ⟨⟨vaddr, frames⟩, after⟩ := result
      change (if vaddr = 0 then pure 0 else pure vaddr : Path Kernel Nat).run after =
        .ok (vaddr, after)
      split_ifs with null
      · rw [null]
        rfl
      · rfl

/-- What `malloc_page` computes, with the frames behind the block left out. -/
theorem mallocPage_run_eq (pgCnt : Nat) (kernel : Kernel) :
    (mallocPage .pfKernel pgCnt).run kernel =
      ((mallocPageFrames .pfKernel pgCnt).run kernel).map
        fun result => (result.1.1, result.2) := by
  rw [mallocPage, StateT.run_map]
  rfl

section Calls

variable {layout : PoolLayout} {bump : Bump} {kernel : Kernel} {pgCnt : Nat}

/-- A request that does not fit is refused and changes nothing. -/
theorem mallocPageFrames_refused (rep : Represents layout bump kernel)
    (sized : 0 < pgCnt ∧ pgCnt < 3840) (room : bump.pages < layout.capacity .kernelPool)
    (misfit : ¬ HeapFits layout bump kernel pgCnt) :
    (mallocPageFrames .pfKernel pgCnt).run kernel = .ok ((0, []), kernel) := by
  rw [mallocPageFrames, Path.run_bind_of_ok (Path.run_require_of_true sized _),
    Path.run_bind_of_ok (vaddrGet_null rep sized.1 room misfit), if_pos rfl]
  rfl

/-- With no heap page left a request fails an assertion. -/
theorem mallocPageFrames_full (rep : Represents layout bump kernel)
    (sized : 0 < pgCnt ∧ pgCnt < 3840) (full : layout.capacity .kernelPool ≤ bump.pages) :
    (mallocPageFrames .pfKernel pgCnt).run kernel = .error .assertFailed := by
  rw [mallocPageFrames, Path.run_bind_of_ok (Path.run_require_of_true sized _),
    Path.run_bind_of_error (vaddrGet_full rep _ full)]

/-- A request that fits goes on to the mapping loop, on the marked heap pages. -/
theorem mallocPageFrames_fits (rep : Represents layout bump kernel)
    (sized : 0 < pgCnt ∧ pgCnt < 3840) (room : bump.pages < layout.capacity .kernelPool)
    (fits : HeapFits layout bump kernel pgCnt) :
    (mallocPageFrames .pfKernel pgCnt).run kernel =
      ((mapPages .kernelPool pgCnt (kHeapStart + pgSize * bump.pages)).run
        { kernel with ram := setBits kernel.ram layout.vaddrBase bump.pages pgCnt }).map
          fun result => ((result.1.map (kHeapStart + pgSize * bump.pages, ·)).getD (0, []),
            result.2) := by
  have notNull : kHeapStart + pgSize * bump.pages ≠ 0 := by
    unfold kHeapStart
    omega
  rw [mallocPageFrames, Path.run_bind_of_ok (Path.run_require_of_true sized _),
    Path.run_bind_of_ok (vaddrGet_run rep sized.1 room fits), if_neg notNull]
  change ((mapPages .kernelPool pgCnt _ >>= _ : Path Kernel _).run _) = _
  rw [StateT.run_bind]
  cases (mapPages .kernelPool pgCnt (kHeapStart + pgSize * bump.pages)).run
      { kernel with ram := setBits kernel.ram layout.vaddrBase bump.pages pgCnt } with
  | error reason => rfl
  | ok result =>
      obtain ⟨frames, after⟩ := result
      cases frames <;> rfl

/-- **What a returning call has done.** It was refused and changed nothing, or it
has moved the heap counter and the frame counter by the same number and has left
the lower half of the first page table alone. -/
theorem mallocPageFrames_ok (rep : Represents layout bump kernel)
    (sized : 0 < pgCnt ∧ pgCnt < 3840) {vaddr : Nat} {frames : List Nat} {after : Kernel}
    (ran : (mallocPageFrames .pfKernel pgCnt).run kernel = .ok ((vaddr, frames), after)) :
    (vaddr = 0 ∧ after = kernel ∧ ¬ HeapFits layout bump kernel pgCnt) ∨
      (vaddr = kHeapStart + pgSize * bump.pages ∧
        bump.frames .kernelPool + pgCnt ≤ layout.capacity .kernelPool ∧
        bump.frames .kernelPool + pgCnt ≤ 512 ∧
        (∃ later, Represents layout later after ∧ later.pages = bump.pages + pgCnt ∧
          later.frames .kernelPool = bump.frames .kernelPool + pgCnt) ∧
        ∀ query, 0x100000 ≤ query → query < 0x101800 → after.ram query = kernel.ram query) := by
  by_cases room : bump.pages < layout.capacity .kernelPool
  · by_cases fits : HeapFits layout bump kernel pgCnt
    · have small := layout.capacity_le .kernelPool
      have limit := layout.vaddrBase_limit
      have length : layout.capacity .kernelPool = 8 * layout.kbmLength := rfl
      have reach := fits.1
      rw [mallocPageFrames_fits rep sized room fits] at ran
      obtain ⟨⟨found, last⟩, mapped, returned⟩ := map_eq_ok ran
      obtain ⟨within, isSome, ⟨later, repLater, pages, taken⟩, kept⟩ :=
        mapPages_ok (rep.takePages pgCnt reach) (by omega) mapped
      obtain ⟨block, rfl⟩ := Option.isSome_iff_exists.mp isSome
      cases returned
      obtain ⟨enough, low⟩ := within sized.1
      refine Or.inr ⟨rfl, enough, low, ⟨later, repLater, pages, taken⟩, ?_⟩
      intro query lower upper
      rw [kept query lower upper]
      exact setBits_of_outside _ _ _ _ _ (by omega)
    · rw [mallocPageFrames_refused rep sized room fits] at ran
      cases ran
      exact Or.inl ⟨rfl, rfl, fits⟩
  · rw [mallocPageFrames_full rep sized (by omega)] at ran
    cases ran

/-- A request that fits returns exactly when its frames are there and lie below
four megabytes, as long as their slots are free. -/
theorem mallocPageFrames_granted (rep : Represents layout bump kernel)
    (sized : 0 < pgCnt ∧ pgCnt < 3840) (room : bump.pages < layout.capacity .kernelPool)
    (fits : HeapFits layout bump kernel pgCnt)
    (enough : bump.frames .kernelPool + pgCnt ≤ layout.capacity .kernelPool)
    (low : bump.frames .kernelPool + pgCnt ≤ 512)
    (absent : ∀ index, bump.frames .kernelPool ≤ index → index < 512 →
      ¬ Present (read32 kernel.ram (0x101000 + 4 * (512 + index)))) :
    ∃ frames after, (mallocPageFrames .pfKernel pgCnt).run kernel =
      .ok ((kHeapStart + pgSize * bump.pages, frames), after) := by
  have small := layout.capacity_le .kernelPool
  have limit := layout.vaddrBase_limit
  have length : layout.capacity .kernelPool = 8 * layout.kbmLength := rfl
  have reach := fits.1
  have stillAbsent : ∀ index, bump.frames .kernelPool ≤ index → index < 512 →
      ¬ Present (read32 (setBits kernel.ram layout.vaddrBase bump.pages pgCnt)
        (0x101000 + 4 * (512 + index))) := by
    intro index lower upper
    rw [read32_congr fun query below _ => setBits_of_outside _ _ _ _ _ (by omega)]
    exact absent index lower upper
  obtain ⟨frames, after, mapped⟩ := mapPages_run (rep.takePages pgCnt reach)
    (show bump.pages + pgCnt ≤ 65536 by omega) enough low stillAbsent
  refine ⟨frames, after, ?_⟩
  rw [mallocPageFrames_fits rep sized room fits, mapped]
  rfl

end Calls

section Mapping

/-- A call of `get_kernel_pages` in a run: the request, the answer, the frames
`palloc` handed out for it and the kernel around it. -/
structure PageCall where
  pgCnt : Nat
  vaddr : Nat
  frames : List Nat
  before : Kernel
  after : Kernel

/-- Successive calls of `get_kernel_pages`, up to the first that does not return. -/
def getKernelPagesRun : List Nat → Kernel → List PageCall
  | [], _ => []
  | pgCnt :: rest, kernel =>
      match (mallocPageFrames .pfKernel pgCnt).run kernel with
      | .ok ((vaddr, frames), after) =>
          ⟨pgCnt, vaddr, frames, kernel, after⟩ :: getKernelPagesRun rest after
      | .error _ => []

namespace PageCall

variable (call : PageCall)

/-- Every page of the block translates to the frame taken for it. -/
def Mapped : Prop :=
  ∀ page < call.pgCnt, ∃ frame, call.frames[page]? = some frame ∧
    walk call.after.ram call.after.cr3 (call.vaddr + page * 4096) = some frame

/-- The frames of the block lie in the kernel pool. -/
def FromKernelPool : Prop :=
  ∀ frame ∈ call.frames, call.after.kernelPool.phyAddrStart ≤ frame ∧
    frame < call.after.kernelPool.phyAddrStart + call.after.kernelPool.poolSize

/-- No address outside the block translates differently after the call. -/
def Isolated : Prop :=
  ∀ va < 2 ^ 32, ¬ (call.vaddr ≤ va ∧ va < call.vaddr + call.pgCnt * 4096) →
    walk call.after.ram call.after.cr3 va = walk call.before.ram call.before.cr3 va

end PageCall

/-- The mapping contract of a sequence of calls. -/
structure MappingContract (calls : List PageCall) : Prop where
  mapped : ∀ call ∈ calls, call.vaddr ≠ 0 → call.Mapped
  fromKernelPool : ∀ call ∈ calls, call.vaddr ≠ 0 → call.FromKernelPool
  isolated : ∀ call ∈ calls, call.vaddr ≠ 0 → call.Isolated
  distinct : (calls.flatMap PageCall.frames).Nodup

/-- The contract for the calls made after start-up. -/
def KeepsMappingContract (before : Kernel) (allMem : Nat) (requests : List Nat) : Prop :=
  ∃ kernel, start before allMem = .ok kernel ∧
    MappingContract (getKernelPagesRun requests kernel)

/-- Nothing is taken, and memory is zero outside the low megabyte, the directory
and the entries of the boot loader. -/
structure Fresh (layout : PoolLayout) (kernel : Kernel) : Prop where
  rep : Represents layout Bump.empty kernel
  behindBitmaps : ∀ query, layout.vaddrBase + layout.kbmLength ≤ query → query < 0x100000 →
    kernel.ram query = 0
  behindTables : ∀ query, 0x101400 ≤ query → kernel.ram query = 0

theorem start_fresh {before : Kernel} (zeroed : before.ram = fun _ => 0) (allMem : Nat) :
    ∃ kernel, start before allMem = .ok kernel ∧ Fresh (poolLayout allMem) kernel := by
  obtain ⟨kernel, started, rep, outside⟩ := start_run before allMem
  rw [zeroed] at outside
  have limit := (poolLayout allMem).vaddrBase_limit
  generalize poolLayout allMem = layout at rep outside limit
  refine ⟨kernel, started, rep, ?_, ?_⟩
  · intro query lower upper
    rw [outside query (Or.inr lower), setupPage_of_outside _ _ (Or.inl upper)]
  · intro query lower
    rw [outside query (Or.inr (by omega)), setupPage_of_outside _ _ (Or.inr lower)]

variable {layout : PoolLayout} {kernel : Kernel} {pgCnt : Nat}

namespace Fresh

/-- Every page-table entry behind those of the boot loader is zero. -/
theorem absent (fresh : Fresh layout kernel) {slot : Nat} (behind : 256 ≤ slot) :
    ¬ Present (read32 kernel.ram (0x101000 + 4 * slot)) := by
  have zero : read32 kernel.ram (0x101000 + 4 * slot) =
      read32 (fun _ => 0#8) (0x101000 + 4 * slot) :=
    read32_congr fun query lower _ => fresh.behindTables query (by omega)
  rw [zero]
  simp [read32, Present]

/-- A request fits as long as it asks for at most one page more than there are. -/
theorem heapFits (fresh : Fresh layout kernel)
    (reach : pgCnt ≤ layout.capacity .kernelPool + 1) :
    HeapFits layout Bump.empty kernel pgCnt := by
  have limit := layout.vaddrBase_limit
  have length : layout.capacity .kernelPool = 8 * layout.kbmLength := rfl
  refine ⟨by simpa only [Bump.empty, Nat.zero_add] using reach, fun offset bound => ?_⟩
  by_cases inside : Bump.empty.pages + offset < layout.capacity .kernelPool
  · rw [fresh.rep.vaddrBits _ inside]
    simp only [Bump.empty, Nat.not_lt_zero, decide_false]
  · have behind : kernel.ram (layout.vaddrBase + (Bump.empty.pages + offset) / 8) = 0#8 :=
      fresh.behindBitmaps _ (by omega) (by simp only [Bump.empty] at *; omega)
    rw [bitAt, behind]
    simp

/-- A request for more pages than there are, even with one bit more, is refused. -/
theorem refused (fresh : Fresh layout kernel) (sized : 0 < pgCnt ∧ pgCnt < 3840)
    (room : 0 < layout.capacity .kernelPool)
    (beyond : layout.capacity .kernelPool + 1 < pgCnt) :
    (mallocPageFrames .pfKernel pgCnt).run kernel = .ok ((0, []), kernel) := by
  refine mallocPageFrames_refused fresh.rep sized room fun fits => ?_
  have reach := fits.1
  simp only [Bump.empty] at reach
  omega

/-- A request that fits but asks for more frames than can be mapped does not return. -/
theorem stops (fresh : Fresh layout kernel) (sized : 0 < pgCnt ∧ pgCnt < 3840)
    (reach : pgCnt ≤ layout.capacity .kernelPool + 1)
    (tooMany : min (layout.capacity .kernelPool) 512 < pgCnt) :
    ∃ reason, (mallocPageFrames .pfKernel pgCnt).run kernel = .error reason := by
  cases ran : (mallocPageFrames .pfKernel pgCnt).run kernel with
  | error reason => exact ⟨reason, rfl⟩
  | ok result =>
      obtain ⟨⟨vaddr, frames⟩, after⟩ := result
      rcases mallocPageFrames_ok fresh.rep sized ran with
        ⟨_, _, misfit⟩ | ⟨_, enough, low, _, _⟩
      · exact absurd (fresh.heapFits reach) misfit
      · simp only [Bump.empty] at enough low
        omega

/-- A request whose frames can be mapped returns the first page of the heap, and
this page is not mapped. -/
theorem granted_unmapped (fresh : Fresh layout kernel) (sized : 0 < pgCnt ∧ pgCnt < 3840)
    (mappable : pgCnt ≤ min (layout.capacity .kernelPool) 512) :
    ∃ frames after, (mallocPageFrames .pfKernel pgCnt).run kernel =
        .ok ((kHeapStart, frames), after) ∧
      walk after.ram after.cr3 kHeapStart = none := by
  obtain ⟨frames, after, ran⟩ := mallocPageFrames_granted fresh.rep sized
    (by simp only [Bump.empty]; omega) (fresh.heapFits (by omega))
    (by simp only [Bump.empty]; omega) (by simp only [Bump.empty]; omega)
    (fun index _ _ => fresh.absent (by omega))
  refine ⟨frames, after, ran, ?_⟩
  rcases mallocPageFrames_ok fresh.rep sized ran with
    ⟨null, _, _⟩ | ⟨_, _, _, ⟨later, rep, _, _⟩, kept⟩
  · exact absurd null (by simp only [Bump.empty, kHeapStart]; omega)
  · have slot : directoryIndex kHeapStart = 768 := rfl
    have found : directoryEntry after.ram after.cr3 kHeapStart = 0x101007 := by
      rw [directoryEntry, rep.cr3, slot, rep.tables.directory 768 (by decide)]
      rfl
    apply walk_of_absent_table found
    have entry : read32 after.ram (frameOf 0x101007 + 4 * tableIndex kHeapStart) =
        read32 kernel.ram (0x101000 + 4 * 256) :=
      read32_congr fun query lower upper => kept query
        (by change 0x101400 ≤ query at lower; omega) (by change query < 0x101404 at upper; omega)
    rw [entry]
    exact fresh.absent le_rfl

end Fresh

/-- The contract survives a refused call in front, and only that. -/
theorem mappingContract_cons_refused {calls : List PageCall} {call : PageCall}
    (null : call.vaddr = 0) (none : call.frames = []) :
    MappingContract (call :: calls) ↔ MappingContract calls := by
  have others (P : PageCall → Prop) :
      (∀ other ∈ call :: calls, other.vaddr ≠ 0 → P other) ↔
        ∀ other ∈ calls, other.vaddr ≠ 0 → P other := by
    simp only [List.forall_mem_cons, null, ne_eq, not_true_eq_false, false_imp_iff, true_and]
  constructor
  · intro contract
    exact ⟨(others _).mp contract.mapped, (others _).mp contract.fromKernelPool,
      (others _).mp contract.isolated, by simpa [none] using contract.distinct⟩
  · intro contract
    exact ⟨(others _).mpr contract.mapped, (others _).mpr contract.fromKernelPool,
      (others _).mpr contract.isolated, by simpa [none] using contract.distinct⟩

theorem mappingContract_nil : MappingContract [] where
  mapped := fun _ member => absurd member List.not_mem_nil
  fromKernelPool := fun _ member => absurd member List.not_mem_nil
  isolated := fun _ member => absurd member List.not_mem_nil
  distinct := List.nodup_nil

/-- A call that returns an unmapped block breaks the contract. -/
theorem Fresh.broken (fresh : Fresh layout kernel) (sized : 0 < pgCnt ∧ pgCnt < 3840)
    (mappable : pgCnt ≤ min (layout.capacity .kernelPool) 512) (rest : List Nat) :
    ¬ MappingContract (getKernelPagesRun (pgCnt :: rest) kernel) := by
  obtain ⟨frames, after, ran, unmapped⟩ := fresh.granted_unmapped sized mappable
  rw [getKernelPagesRun, ran]
  intro contract
  obtain ⟨frame, _, found⟩ := contract.mapped _ List.mem_cons_self
    (by simp only [kHeapStart]; omega) 0 sized.1
  rw [Nat.zero_mul, Nat.add_zero, unmapped] at found
  cases found

/-- From a fresh kernel the contract hangs on the first request that fits. -/
theorem Fresh.mappingContract_iff (fresh : Fresh layout kernel) (requests : List Nat)
    (sized : ∀ pgCnt ∈ requests, 1 ≤ pgCnt ∧ pgCnt < 3840) :
    MappingContract (getKernelPagesRun requests kernel) ↔
      ∀ pgCnt ∈ requests.find? (fun pgCnt => pgCnt ≤ layout.capacity .kernelPool + 1),
        min (layout.capacity .kernelPool) 512 < pgCnt := by
  induction requests with
  | nil =>
      exact iff_of_true mappingContract_nil fun pgCnt member => by cases member
  | cons pgCnt rest ih =>
      have first := sized pgCnt List.mem_cons_self
      by_cases reach : pgCnt ≤ layout.capacity .kernelPool + 1
      · rw [List.find?_cons_of_pos (by simpa using reach)]
        simp only [Option.mem_some_iff, forall_eq']
        by_cases mappable : pgCnt ≤ min (layout.capacity .kernelPool) 512
        · exact iff_of_false (fresh.broken first mappable rest) (by omega)
        · obtain ⟨reason, stopped⟩ := fresh.stops first reach (by omega)
          rw [getKernelPagesRun, stopped]
          exact iff_of_true mappingContract_nil (by omega)
      · rw [List.find?_cons_of_neg (by simpa using reach)]
        have sizedRest : ∀ other ∈ rest, 1 ≤ other ∧ other < 3840 :=
          fun other member => sized other (List.mem_cons_of_mem _ member)
        by_cases room : 0 < layout.capacity .kernelPool
        · rw [getKernelPagesRun, fresh.refused first room (by omega), ← ih sizedRest]
          exact mappingContract_cons_refused rfl rfl
        · -- Without a single heap page no call returns and no request can be mapped.
          rw [getKernelPagesRun, mallocPageFrames_full fresh.rep first (by omega)]
          refine iff_of_true mappingContract_nil fun other found => ?_
          have positive := (sizedRest other (List.mem_of_find?_eq_some found)).1
          omega

/-- **The mapping contract of the kernel page allocator.** Over zeroed memory the
contract holds only of sequences in which no call returns a block: those whose
first request of at most one page more than the bitmap has bits cannot be mapped
below four megabytes. -/
theorem getKernelPages_contract_iff {before : Kernel} (zeroed : before.ram = fun _ => 0)
    (allMem : Nat) (requests : List Nat)
    (sized : ∀ pgCnt ∈ requests, 1 ≤ pgCnt ∧ pgCnt < 3840) :
    KeepsMappingContract before allMem requests ↔
      ∀ pgCnt ∈ requests.find?
          (fun pgCnt => pgCnt ≤ (poolLayout allMem).capacity .kernelPool + 1),
        min ((poolLayout allMem).capacity .kernelPool) 512 < pgCnt := by
  obtain ⟨kernel, started, fresh⟩ := start_fresh zeroed allMem
  rw [← fresh.mappingContract_iff requests sized]
  constructor
  · rintro ⟨other, startedToo, contract⟩
    cases started.symm.trans startedToo
    exact contract
  · exact fun contract => ⟨kernel, started, contract⟩

/-- Asking for all of the heap and one page more never returns. -/
theorem getKernelPages_contract_too_many :
    KeepsMappingContract Kernel.blank 0x400000 [257] :=
  (getKernelPages_contract_iff rfl 0x400000 [257] (by decide)).mpr (by decide +kernel)

/-- The three pages the kernel asks for at boot, in thirty-two megabytes, are not
mapped. -/
theorem getKernelPages_boot_unmapped :
    Kernel.blank.ram = (fun _ => 0) ∧ 0x200000 ≤ 0x2000000 ∧
      ¬ KeepsMappingContract Kernel.blank 0x2000000 [3] := by
  refine ⟨rfl, by decide, ?_⟩
  rintro ⟨kernel, started, contract⟩
  obtain ⟨other, startedToo, fresh⟩ := @start_fresh Kernel.blank rfl 0x2000000
  cases started.symm.trans startedToo
  exact fresh.broken (by decide) (by decide +kernel) [] contract

end Mapping

section Failure

/-- The kernels reached from start-up by calls of `get_kernel_pages` that return. -/
inductive Reached (before : Kernel) (allMem : Nat) : Kernel → Prop
  | start {kernel : Kernel} (started : start before allMem = .ok kernel) :
      Reached before allMem kernel
  | call {kernel after : Kernel} {pgCnt vaddr : Nat} (earlier : Reached before allMem kernel)
      (sized : 1 ≤ pgCnt ∧ pgCnt < 3840)
      (ran : (getKernelPages pgCnt).run kernel = .ok (vaddr, after)) :
      Reached before allMem after

/-- Heap pages and frames are taken together. -/
theorem Reached.represents {before kernel : Kernel} {allMem : Nat}
    (reached : Reached before allMem kernel) :
    ∃ bump, Represents (poolLayout allMem) bump kernel ∧
      bump.pages = bump.frames .kernelPool := by
  induction reached with
  | start started =>
      obtain ⟨kernel, startedToo, rep, _⟩ := start_run before allMem
      cases started.symm.trans startedToo
      exact ⟨Bump.empty, rep, rfl⟩
  | call earlier sized ran ih =>
      obtain ⟨bump, rep, together⟩ := ih
      rw [getKernelPages_run_eq] at ran
      generalize poolLayout allMem = layout at rep ⊢
      obtain ⟨⟨⟨vaddr, frames⟩, after⟩, result, returned⟩ := map_eq_ok ran
      cases returned
      rcases mallocPageFrames_ok rep sized result with
        ⟨_, rfl, _⟩ | ⟨_, _, _, ⟨later, repLater, pages, taken⟩, _⟩
      · exact ⟨bump, rep, together⟩
      · exact ⟨later, repLater, by rw [pages, taken, together]⟩

/-- The bit reads as free. -/
def freeBit (kernel : Kernel) (btmp : Bitmap) (bitIdx : Nat) : Bool :=
  match (bitmapScanTest btmp bitIdx).run kernel with
  | .ok (set, _) => !set
  | .error _ => false

/-- Among the first `bits` bits of a bitmap there is a run of `cnt` free ones. -/
def HasRun (kernel : Kernel) (btmp : Bitmap) (bits cnt : Nat) : Prop :=
  ∃ first, first + cnt ≤ bits ∧ ∀ offset < cnt, freeBit kernel btmp (first + offset) = true

/-- The number of free bits of a bitmap. -/
def freeBits (kernel : Kernel) (btmp : Bitmap) : Nat :=
  (List.range (8 * btmp.btmpBytesLen)).countP (freeBit kernel btmp)

/-- There is no room for a request: the heap has no run of free pages for it, or
the kernel pool has too few free frames. -/
def NoRoom (kernel : Kernel) (pgCnt : Nat) : Prop :=
  ¬ HasRun kernel kernel.kernelVaddr.vaddrBitmap
      (8 * kernel.kernelVaddr.vaddrBitmap.btmpBytesLen) pgCnt ∨
    freeBits kernel kernel.kernelPool.poolBitmap < pgCnt

/-- The request returns the null pointer and changes nothing. -/
def CleanFailure (kernel : Kernel) (pgCnt : Nat) : Prop :=
  (mallocPage .pfKernel pgCnt).run kernel = .ok (0, kernel)

variable {layout : PoolLayout} {bump : Bump} {kernel : Kernel} {pgCnt : Nat}

namespace Represents

/-- Reading a bit of the heap bitmap, or of the byte behind it. -/
theorem freeBit_vaddr (rep : Represents layout bump kernel) {bitIdx : Nat}
    (inside : bitIdx ≤ layout.capacity .kernelPool) :
    freeBit kernel kernel.kernelVaddr.vaddrBitmap bitIdx =
      !bitAt kernel.ram layout.vaddrBase bitIdx := by
  have length := layout.vaddrBitmap_len
  rw [freeBit, rep.vaddr, bitmapScanTest_run rep.shows_vaddr (by omega)]

theorem freeBit_pool (rep : Represents layout bump kernel) {bitIdx : Nat}
    (inside : bitIdx < layout.capacity .kernelPool) :
    freeBit kernel kernel.kernelPool.poolBitmap bitIdx =
      decide (bump.frames .kernelPool ≤ bitIdx) := by
  have pool : kernel.kernelPool = layout.pool .kernelPool := rep.pools .kernelPool
  have limit := layout.poolBase_limit .kernelPool
  have shows := shows_window rep.tables rep.cr3 (layout.poolBitmap_bits .kernelPool)
    (show _ + ((layout.pool .kernelPool).poolBitmap.btmpBytesLen + 1) ≤ _ by omega)
  have covered : bitIdx / 8 < (layout.pool .kernelPool).poolBitmap.btmpBytesLen + 1 := by
    unfold PoolLayout.capacity at inside
    omega
  have reading := bitmapScanTest_run shows covered
  rw [freeBit, pool, reading, rep.poolBits _ _ inside]
  simp only [← decide_not, Nat.not_lt]

/-- The free frames are those behind the counter. -/
theorem freeBits_pool (rep : Represents layout bump kernel) :
    freeBits kernel kernel.kernelPool.poolBitmap =
      layout.capacity .kernelPool - bump.frames .kernelPool := by
  have pool : kernel.kernelPool = layout.pool .kernelPool := rep.pools .kernelPool
  have counted (bits : Nat) (inside : bits ≤ layout.capacity .kernelPool) :
      (List.range bits).countP (freeBit kernel kernel.kernelPool.poolBitmap) =
        bits - bump.frames .kernelPool := by
    induction bits with
    | zero => simp
    | succ bits ih =>
        rw [List.range_succ, List.countP_append, ih (by omega), List.countP_singleton,
          rep.freeBit_pool (by omega)]
        by_cases behind : bump.frames .kernelPool ≤ bits
        · simp only [behind, decide_true, ↓reduceIte]
          omega
        · simp only [behind, decide_false, Bool.false_eq_true, ↓reduceIte]
          omega
  rw [freeBits, ← counted _ le_rfl, PoolLayout.capacity, pool]

theorem hasRun_inside (rep : Represents layout bump kernel) (positive : 1 ≤ pgCnt) :
    HasRun kernel kernel.kernelVaddr.vaddrBitmap
        (8 * kernel.kernelVaddr.vaddrBitmap.btmpBytesLen) pgCnt ↔
      bump.pages + pgCnt ≤ layout.capacity .kernelPool := by
  rw [rep.vaddr, layout.vaddrBitmap_len, ← rep.vaddr]
  constructor
  · rintro ⟨first, reach, free⟩
    have start := free 0 positive
    rw [rep.freeBit_vaddr (by omega), rep.vaddrBits _ (by omega), ← decide_not,
      decide_eq_true_eq] at start
    omega
  · intro room
    refine ⟨bump.pages, room, fun offset bound => ?_⟩
    rw [rep.freeBit_vaddr (by omega), rep.vaddrBits _ (by omega), ← decide_not,
      decide_eq_true_eq]
    omega

/-- A run of free pages with one bit more than the heap bitmap has. -/
theorem hasRun_beyond (rep : Represents layout bump kernel) (positive : 1 ≤ pgCnt)
    (room : bump.pages < layout.capacity .kernelPool) :
    HasRun kernel kernel.kernelVaddr.vaddrBitmap
        (8 * kernel.kernelVaddr.vaddrBitmap.btmpBytesLen + 1) pgCnt ↔
      HeapFits layout bump kernel pgCnt := by
  rw [rep.vaddr, layout.vaddrBitmap_len, ← rep.vaddr]
  constructor
  · rintro ⟨first, reach, free⟩
    refine rep.heapFits_of_freeRun positive room reach fun offset bound => ?_
    have bit := free offset bound
    rwa [rep.freeBit_vaddr (by omega), Bool.not_eq_true'] at bit
  · rintro ⟨reach, free⟩
    refine ⟨bump.pages, reach, fun offset bound => ?_⟩
    rw [rep.freeBit_vaddr (by omega), free offset bound]
    rfl

theorem exists_freeBit (rep : Represents layout bump kernel) :
    (∃ bitIdx < 8 * kernel.kernelVaddr.vaddrBitmap.btmpBytesLen,
        freeBit kernel kernel.kernelVaddr.vaddrBitmap bitIdx = true) ↔
      bump.pages < layout.capacity .kernelPool := by
  rw [rep.vaddr, layout.vaddrBitmap_len, ← rep.vaddr]
  constructor
  · rintro ⟨bitIdx, inside, free⟩
    rw [rep.freeBit_vaddr (by omega), rep.vaddrBits _ inside, ← decide_not,
      decide_eq_true_eq] at free
    omega
  · intro room
    refine ⟨bump.pages, room, ?_⟩
    rw [rep.freeBit_vaddr (by omega), rep.vaddrBits _ room, ← decide_not, decide_eq_true_eq]
    omega

/-- A request without room that still fits does not return. -/
theorem stops_of_noRoom (rep : Represents layout bump kernel)
    (together : bump.pages = bump.frames .kernelPool) (sized : 1 ≤ pgCnt ∧ pgCnt < 3840)
    (short : NoRoom kernel pgCnt) (fits : HeapFits layout bump kernel pgCnt) :
    ∃ reason, (mallocPageFrames .pfKernel pgCnt).run kernel = .error reason := by
  have beyond : layout.capacity .kernelPool < bump.pages + pgCnt := by
    rcases short with noRun | tooFew
    · rw [rep.hasRun_inside sized.1] at noRun
      omega
    · rw [rep.freeBits_pool] at tooFew
      omega
  cases ran : (mallocPageFrames .pfKernel pgCnt).run kernel with
  | error reason => exact ⟨reason, rfl⟩
  | ok result =>
      obtain ⟨⟨vaddr, frames⟩, after⟩ := result
      rcases mallocPageFrames_ok rep sized ran with ⟨_, _, misfit⟩ | ⟨_, enough, _, _, _⟩
      · exact absurd fits misfit
      · omega

/-- Without room, a failed request is clean exactly when some heap page is free and
no run of free pages fits, even with one bit more than the bitmap has. -/
theorem cleanFailure_iff (rep : Represents layout bump kernel)
    (together : bump.pages = bump.frames .kernelPool) (sized : 1 ≤ pgCnt ∧ pgCnt < 3840)
    (short : NoRoom kernel pgCnt) :
    CleanFailure kernel pgCnt ↔
      (∃ bitIdx < 8 * kernel.kernelVaddr.vaddrBitmap.btmpBytesLen,
        freeBit kernel kernel.kernelVaddr.vaddrBitmap bitIdx = true) ∧
      ¬ HasRun kernel kernel.kernelVaddr.vaddrBitmap
        (8 * kernel.kernelVaddr.vaddrBitmap.btmpBytesLen + 1) pgCnt := by
  have unclean {reason : Halt}
      (stopped : (mallocPageFrames .pfKernel pgCnt).run kernel = .error reason) :
      ¬ CleanFailure kernel pgCnt := by
    rw [CleanFailure, mallocPage_run_eq, stopped]
    exact fun same => by cases same
  rw [rep.exists_freeBit]
  by_cases room : bump.pages < layout.capacity .kernelPool
  · rw [rep.hasRun_beyond sized.1 room]
    by_cases fits : HeapFits layout bump kernel pgCnt
    · obtain ⟨reason, stopped⟩ := rep.stops_of_noRoom together sized short fits
      exact iff_of_false (unclean stopped) fun clean => clean.2 fits
    · refine iff_of_true ?_ ⟨room, fits⟩
      rw [CleanFailure, mallocPage_run_eq, mallocPageFrames_refused rep sized room fits]
      rfl
  · exact iff_of_false (unclean (mallocPageFrames_full rep sized (by omega)))
      fun clean => room clean.1

end Represents

/-- **Failed allocation is clean, except at the end of the heap.** In every kernel
reached by calls of `get_kernel_pages`, a request there is no room for returns the
null pointer and changes nothing exactly when some heap page is still free and no
run of free pages fits in the heap bitmap and the bit behind it. -/
theorem mallocPage_cleanFailure_iff {before kernel : Kernel} {allMem : Nat}
    (reached : Reached before allMem kernel) {pgCnt : Nat} (sized : 1 ≤ pgCnt ∧ pgCnt < 3840)
    (short : NoRoom kernel pgCnt) :
    CleanFailure kernel pgCnt ↔
      (∃ bitIdx < 8 * kernel.kernelVaddr.vaddrBitmap.btmpBytesLen,
        freeBit kernel kernel.kernelVaddr.vaddrBitmap bitIdx = true) ∧
      ¬ HasRun kernel kernel.kernelVaddr.vaddrBitmap
        (8 * kernel.kernelVaddr.vaddrBitmap.btmpBytesLen + 1) pgCnt := by
  obtain ⟨bump, rep, together⟩ := reached.represents
  exact rep.cleanFailure_iff together sized short

/-- A fresh kernel has no room for more pages than its heap has. -/
theorem Fresh.noRoom (fresh : Fresh layout kernel) (positive : 1 ≤ pgCnt)
    (beyond : layout.capacity .kernelPool < pgCnt) : NoRoom kernel pgCnt := by
  refine Or.inl fun run => ?_
  have reach := (fresh.rep.hasRun_inside positive).mp run
  simp only [Bump.empty] at reach
  omega

/-- In four megabytes, which leave 256 heap pages, a request for 300 fails cleanly. -/
theorem mallocPage_cleanFailure_300 :
    ∃ kernel, Reached Kernel.blank 0x400000 kernel ∧ NoRoom kernel 300 ∧
      CleanFailure kernel 300 := by
  obtain ⟨kernel, started, fresh⟩ := @start_fresh Kernel.blank rfl 0x400000
  have capacity : (poolLayout 0x400000).capacity .kernelPool = 256 := by decide +kernel
  have short : NoRoom kernel 300 := fresh.noRoom (by decide) (by omega)
  have free : Bump.empty.pages < (poolLayout 0x400000).capacity .kernelPool := by
    rw [capacity]
    decide
  refine ⟨kernel, .start started, short,
    (mallocPage_cleanFailure_iff (.start started) (by decide) short).mpr ⟨?_, ?_⟩⟩
  · exact fresh.rep.exists_freeBit.mpr free
  · rw [fresh.rep.hasRun_beyond (by decide) free]
    intro fits
    have reach := fits.1
    rw [capacity] at reach
    exact absurd reach (by decide)

/-- In four megabytes a request for 257 pages does not fail cleanly. -/
theorem mallocPage_unclean_257 :
    0x200000 ≤ 0x400000 ∧ ∃ kernel, Reached Kernel.blank 0x400000 kernel ∧
      NoRoom kernel 257 ∧ ¬ CleanFailure kernel 257 := by
  obtain ⟨kernel, started, fresh⟩ := @start_fresh Kernel.blank rfl 0x400000
  have capacity : (poolLayout 0x400000).capacity .kernelPool = 256 := by decide +kernel
  have short : NoRoom kernel 257 := fresh.noRoom (by decide) (by omega)
  have fits := fresh.heapFits (show 257 ≤ (poolLayout 0x400000).capacity .kernelPool + 1 by omega)
  obtain ⟨reason, stopped⟩ := fresh.rep.stops_of_noRoom rfl (by decide) short fits
  refine ⟨by decide, kernel, .start started, short, ?_⟩
  rw [CleanFailure, mallocPage_run_eq, stopped]
  exact fun same => by cases same

end Failure

end OsElephant
