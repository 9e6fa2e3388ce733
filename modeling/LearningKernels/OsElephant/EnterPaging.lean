import LearningKernels.Machine.Segmentation
import LearningKernels.OsElephant.Console
import LearningKernels.OsElephant.SetupPage

/-!
# The loader turns paging on

Behind `setup_page`, `p_mode_start` of `loader.S` moves the descriptor table, the base of the
video segment and the stack up by three gigabytes, sets `cr3` and the paging bit and loads
`gdtr` again. The table itself stays where it is in memory and is changed in one doubleword.
Every segment keeps what it shows of the low megabyte
(`OsElephant.pModeStart_keeps`), and the kernel finds the video memory behind its selector
(`OsElephant.pModeStart_video`).
-/

namespace OsElephant

open Machine

/-- The label `gdt_ptr`, behind 64 descriptors and `total_mem_bytes`. -/
def gdtPtr : Nat := 0xb04

/-- `LOADER_STACK_TOP`. -/
def loaderStackTop : Nat := 0x900

/-- `SELECTOR_CODE`. -/
def selectorCode : Nat := 1 <<< 3

/-- `SELECTOR_DATA`. -/
def selectorData : Nat := 2 <<< 3

/-- `SELECTOR_VIDEO`. -/
def selectorVideo : Nat := 3 <<< 3

/-- `sgdt`, with paging off. -/
def sgdt (addr : Nat) (mmu : Mmu) : Mmu :=
  { mmu with ram := write32 (write16 mmu.ram addr mmu.gdtLimit) (addr + 2) mmu.gdtBase }

/-- `lgdt`. -/
def lgdt (addr : Nat) (mmu : Mmu) : Option Mmu := do
  let gdtLimit ← mmu.load16 addr
  let gdtBase ← mmu.load32 (addr + 2)
  some { mmu with gdtLimit, gdtBase }

/-- `or dword`, with paging off. -/
def orDword (addr value : Nat) (mmu : Mmu) : Mmu :=
  { mmu with ram := write32 mmu.ram addr (read32 mmu.ram addr ||| value) }

/-- `add dword`, with paging off. -/
def addDword (addr value : Nat) (mmu : Mmu) : Mmu :=
  { mmu with ram := write32 mmu.ram addr ((read32 mmu.ram addr + value) % 2 ^ 32) }

/-- `call setup_page`, with the address behind it. Its `ret` takes the address from the stack. -/
def callSetupPage (behind : BitVec 32) (esp : Nat) (mmu : Mmu) : Option Mmu :=
  let esp := (esp + 0xfffffffc) % 2 ^ 32
  let ram := setupPage (write32 mmu.ram esp behind.toNat)
  if read32 ram esp = behind.toNat then some { mmu with ram } else none

/-- `p_mode_start` from the call of `setup_page` to the second `lgdt`, with the stack pointer. -/
def pModeStart (behind : BitVec 32) (esp : Nat) (mmu : Mmu) : Option (Nat × Mmu) := do
  let mmu ← callSetupPage behind esp mmu
  let mmu := sgdt gdtPtr mmu
  let ebx := read32 mmu.ram (gdtPtr + 2)
  let mmu := orDword (ebx + 0x18 + 4) 0xc0000000 mmu
  let mmu := addDword (gdtPtr + 2) 0xc0000000 mmu
  let esp := (esp + 0xc0000000) % 2 ^ 32
  let mmu := { mmu with directory := pageDirTablePos, paging := true }
  let mmu ← lgdt gdtPtr mmu
  some (esp, mmu)

/-- The upper doubleword of descriptor `index` after the switch. -/
def raised (index high : Nat) : Nat := if index = 3 then high + 0xc0000000 else high

/-- The descriptor table before the switch: in the low megabyte, away from `gdt_ptr`, with a
video segment below one gigabyte. -/
structure LowTable (mmu : Mmu) : Prop where
  flat : mmu.paging = false
  low : mmu.gdtBase + mmu.gdtLimit < 0x100000
  room : 31 ≤ mmu.gdtLimit ∧ mmu.gdtLimit < 65536
  apart : mmu.gdtBase + mmu.gdtLimit < gdtPtr ∨ gdtPtr + 6 ≤ mmu.gdtBase
  video : read32 mmu.ram (mmu.gdtBase + 0x1c) < 2 ^ 30

/-- The four bytes below the stack pointer are in the low megabyte, away from the table and from
`gdt_ptr`. -/
structure StackApart (esp : Nat) (mmu : Mmu) : Prop where
  low : 4 ≤ esp ∧ esp ≤ 0x100000
  table : esp ≤ mmu.gdtBase ∨ mmu.gdtBase + mmu.gdtLimit + 1 ≤ esp - 4
  pointer : esp ≤ gdtPtr ∨ gdtPtr + 6 ≤ esp - 4

/-- The attributes that the descriptors of `boot.inc` share: `DESC_G_4K`, `DESC_D_32`, `DESC_P`
and `DESC_S_CODE`. -/
def descShared : Nat := 1 <<< 23 + 1 <<< 22 + 1 <<< 15 + 1 <<< 12

/-- `DESC_CODE_HIGH4`. -/
def descCodeHigh4 : Nat := 0x00 <<< 24 + descShared + 0b1111 <<< 16 + 0b1000 <<< 8 + 0x00

/-- `DESC_DATA_HIGH4`. -/
def descDataHigh4 : Nat := 0x00 <<< 24 + descShared + 0b1111 <<< 16 + 0b0010 <<< 8 + 0x00

/-- `DESC_VIDEO_HIGH4`. -/
def descVideoHigh4 : Nat := 0x00 <<< 24 + descShared + 0b0000 <<< 16 + 0b0010 <<< 8 + 0x0b

/-- The upper doubleword of a descriptor in memory: the processor sets the accessed bit when it
loads a segment register. -/
def Marked (word high : Nat) : Prop := word = high ∨ word = high + 1 <<< 8

/-- The table at `GDT_BASE`, loaded with `GDT_LIMIT`. -/
structure LoaderTable (mmu : Mmu) : Prop where
  flat : mmu.paging = false
  base : mmu.gdtBase = 0x900
  limit : mmu.gdtLimit = 31
  code : read32 mmu.ram 0x908 = 0x0000ffff ∧ Marked (read32 mmu.ram 0x90c) descCodeHigh4
  data : read32 mmu.ram 0x910 = 0x0000ffff ∧ Marked (read32 mmu.ram 0x914) descDataHigh4
  video : read32 mmu.ram 0x918 = 0x80000007 ∧ Marked (read32 mmu.ram 0x91c) descVideoHigh4

theorem LoaderTable.low {mmu : Mmu} (loader : LoaderTable mmu) : LowTable mmu := by
  obtain ⟨flat, base, limit, -, -, -, video⟩ := loader
  refine ⟨flat, by omega, by omega, .inl (by unfold gdtPtr; omega), ?_⟩
  rw [base]
  obtain clear | set := video
  · rw [clear]
    decide
  · rw [set]
    decide

theorem LoaderTable.stackApart {mmu : Mmu} (loader : LoaderTable mmu) :
    StackApart loaderStackTop mmu := by
  obtain ⟨-, base, limit, -⟩ := loader
  exact ⟨by decide, .inl (Nat.le_of_eq base.symm), .inl (by decide)⟩

/-- The loader's table in otherwise blank memory, at `p_mode_start`. -/
def loaderMmu : Mmu where
  ram := write32 (write32 (write32 (write32 (write32 (write32 (fun _ => 0) 0x908 0x0000ffff)
    0x90c (descCodeHigh4 + 1 <<< 8)) 0x910 0x0000ffff) 0x914 (descDataHigh4 + 1 <<< 8)) 0x918
    0x80000007) 0x91c (descVideoHigh4 + 1 <<< 8)
  paging := false
  directory := 0
  gdtBase := 0x900
  gdtLimit := 31

theorem loaderMmu_loaded : LoaderTable loaderMmu :=
  ⟨rfl, rfl, rfl, ⟨rfl, .inr rfl⟩, ⟨rfl, .inr rfl⟩, ⟨rfl, .inr rfl⟩⟩

/-- What the switch leaves. -/
structure Switched (esp : Nat) (before after : Mmu) : Prop where
  paging : after.paging = true
  directory : after.directory = pageDirTablePos
  tables : BootTables after.ram
  base : after.gdtBase = 0xc0000000 + before.gdtBase
  limit : after.gdtLimit = before.gdtLimit
  lower : ∀ index, index * 8 + 7 ≤ before.gdtLimit →
    read32 after.ram (before.gdtBase + index * 8) =
      read32 before.ram (before.gdtBase + index * 8)
  upper : ∀ index, index * 8 + 7 ≤ before.gdtLimit →
    read32 after.ram (before.gdtBase + index * 8 + 4) =
      raised index (read32 before.ram (before.gdtBase + index * 8 + 4))
  memory : ∀ query < 0x100000, (query < gdtPtr ∨ gdtPtr + 6 ≤ query) →
    (query < before.gdtBase + 0x1c ∨ before.gdtBase + 0x20 ≤ query) →
    (query < esp - 4 ∨ esp ≤ query) → after.ram query = before.ram query

section Switch

variable {mmu : Mmu} {esp : Nat}

/-- The bits of `0xc0000000` are clear in a doubleword below one gigabyte. -/
theorem or_high {word : Nat} (low : word < 2 ^ 30) : word ||| 0xc0000000 = word + 0xc0000000 := by
  have disjoint := Nat.two_pow_add_eq_or_of_lt low 3
  rw [Nat.or_comm, Nat.add_comm]
  exact disjoint.symm

/-- Memory behind the switch. -/
def switchRam (mmu : Mmu) : Memory :=
  let stored := write32 (write16 (setupPage mmu.ram) gdtPtr mmu.gdtLimit) (gdtPtr + 2) mmu.gdtBase
  let marked := write32 stored (mmu.gdtBase + 0x18 + 4)
    (read32 stored (mmu.gdtBase + 0x18 + 4) ||| 0xc0000000)
  write32 marked (gdtPtr + 2) ((read32 marked (gdtPtr + 2) + 0xc0000000) % 2 ^ 32)

/-- The stores of the switch are in `gdt_ptr` and in one doubleword of the table. -/
theorem switchRam_of_outside {query : Nat} (pointer : query < gdtPtr ∨ gdtPtr + 6 ≤ query)
    (entry : query < mmu.gdtBase + 0x1c ∨ mmu.gdtBase + 0x20 ≤ query) :
    switchRam mmu query = setupPage mmu.ram query := by
  rw [switchRam, write32_of_outside _ _ _ _ (by omega), write32_of_outside _ _ _ _ (by omega),
    write32_of_outside _ _ _ _ (by omega), write16_of_outside _ _ _ _ (by omega)]

theorem switchRam_tables (low : LowTable mmu) : BootTables (switchRam mmu) := by
  obtain ⟨-, inside, room, -, -⟩ := low
  refine (setupPage_bootTables mmu.ram).congr ?_
  intro query above _
  exact switchRam_of_outside (.inr (by unfold gdtPtr; omega)) (.inr (by omega))

/-- What `lgdt` will find. -/
theorem switchRam_pointer (low : LowTable mmu) :
    read16 (switchRam mmu) gdtPtr = mmu.gdtLimit ∧
      read32 (switchRam mmu) (gdtPtr + 2) = 0xc0000000 + mmu.gdtBase := by
  obtain ⟨-, inside, room, apart, -⟩ := low
  constructor
  · have same : ∀ query, gdtPtr ≤ query → query < gdtPtr + 2 → switchRam mmu query =
        write16 (setupPage mmu.ram) gdtPtr mmu.gdtLimit query := by
      intro query _ _
      rw [switchRam, write32_of_outside _ _ _ _ (by omega),
        write32_of_outside _ _ _ _ (by omega), write32_of_outside _ _ _ _ (by omega)]
    rw [read16_congr same]
    exact read16_write16 _ _ _ room.2
  · rw [switchRam, read32_write32 _ _ _ (Nat.mod_lt _ (by decide)),
      read32_write32_of_apart _ _ _ _ (by omega), read32_write32 _ _ _ (by omega)]
    omega

/-- The table behind the switch. -/
theorem switchRam_table (low : LowTable mmu) {index : Nat}
    (inside : index * 8 + 7 ≤ mmu.gdtLimit) :
    read32 (switchRam mmu) (mmu.gdtBase + index * 8) =
        read32 mmu.ram (mmu.gdtBase + index * 8) ∧
      read32 (switchRam mmu) (mmu.gdtBase + index * 8 + 4) =
        raised index (read32 mmu.ram (mmu.gdtBase + index * 8 + 4)) := by
  obtain ⟨-, below, room, apart, video⟩ := low
  have kept {addr : Nat} (lower : mmu.gdtBase ≤ addr) (upper : addr + 4 ≤ mmu.gdtBase +
      mmu.gdtLimit + 1) (other : addr + 4 ≤ mmu.gdtBase + 0x1c ∨ mmu.gdtBase + 0x20 ≤ addr) :
      read32 (switchRam mmu) addr = read32 mmu.ram addr := by
    refine read32_congr fun query _ _ => ?_
    rw [switchRam_of_outside (by omega) (by omega)]
    exact setupPage_of_outside _ _ (.inl (by omega))
  refine ⟨kept (by omega) (by omega) (by omega), ?_⟩
  by_cases third : index = 3
  · subst third
    have same : read32 (write32 (write16 (setupPage mmu.ram) gdtPtr mmu.gdtLimit) (gdtPtr + 2)
        mmu.gdtBase) (mmu.gdtBase + 0x18 + 4) = read32 mmu.ram (mmu.gdtBase + 0x1c) := by
      refine read32_congr fun query _ _ => ?_
      rw [write32_of_outside _ _ _ _ (by omega), write16_of_outside _ _ _ _ (by omega)]
      exact setupPage_of_outside _ _ (.inl (by omega))
    have word : read32 mmu.ram (mmu.gdtBase + 0x1c) ||| 0xc0000000 =
        read32 mmu.ram (mmu.gdtBase + 0x1c) + 0xc0000000 := or_high video
    change read32 (switchRam mmu) (mmu.gdtBase + 0x18 + 4) = _
    rw [switchRam, read32_write32_of_apart _ _ _ _ (by omega), same, word,
      read32_write32 _ _ _ (by omega), raised, if_pos rfl]
  · rw [raised, if_neg third]
    exact kept (by omega) (by omega) (by omega)

/-- The return address of the call of `setup_page` on the stack. -/
def pushed (behind : BitVec 32) (esp : Nat) (mmu : Mmu) : Mmu :=
  { mmu with ram := write32 mmu.ram (esp - 4) behind.toNat }

theorem pushed_of_outside (behind : BitVec 32) {query : Nat} (room : 4 ≤ esp)
    (outside : query < esp - 4 ∨ esp ≤ query) :
    (pushed behind esp mmu).ram query = mmu.ram query :=
  write32_of_outside _ _ _ _ (by omega)

/-- The return address leaves the descriptors alone. -/
theorem StackApart.descriptors (apart : StackApart esp mmu) (behind : BitVec 32) {addr : Nat}
    (lower : mmu.gdtBase ≤ addr) (upper : addr + 4 ≤ mmu.gdtBase + mmu.gdtLimit + 1) :
    read32 (pushed behind esp mmu).ram addr = read32 mmu.ram addr := by
  obtain ⟨low, table, -⟩ := apart
  exact read32_congr fun query _ _ => pushed_of_outside behind low.1 (by omega)

theorem StackApart.lowTable (apart : StackApart esp mmu) (behind : BitVec 32)
    (low : LowTable mmu) : LowTable (pushed behind esp mmu) := by
  obtain ⟨flat, inside, room, pointer, video⟩ := low
  refine ⟨flat, inside, room, pointer, ?_⟩
  change read32 (pushed behind esp mmu).ram (mmu.gdtBase + 0x1c) < 2 ^ 30
  rw [apart.descriptors behind (by omega) (by omega)]
  exact video

/-- `setup_page` leaves the stack alone, and returns. -/
theorem callSetupPage_eq (apart : StackApart esp mmu) (behind : BitVec 32) :
    callSetupPage behind esp mmu =
      some { mmu with ram := setupPage (pushed behind esp mmu).ram } := by
  have low := apart.low
  have below : (esp + 0xfffffffc) % 2 ^ 32 = esp - 4 := by omega
  have kept : read32 (setupPage (pushed behind esp mmu).ram) (esp - 4) = behind.toNat := by
    rw [read32_congr fun query _ _ => setupPage_of_outside _ query (.inl (by omega))]
    exact read32_write32 _ _ _ behind.isLt
  rw [callSetupPage, below]
  exact if_pos kept

/-- The low megabyte is where it was, and at three gigabytes. -/
theorem Switched.translate {after : Mmu} (switched : Switched esp mmu after) {linear phys : Nat}
    (low : phys < 0x100000)
    (here : linear % 2 ^ 32 = phys ∨ linear % 2 ^ 32 = 0xc0000000 + phys) :
    after.translate linear = some phys := by
  rw [Mmu.translate, switched.paging, if_pos rfl, switched.directory]
  obtain same | above := here
  · rw [same]
    exact switched.tables.walk_identity phys low
  · rw [above]
    exact switched.tables.walk_kernelWindow phys low

/-- The code up to the second `lgdt`. -/
theorem pModeStart_switched (low : LowTable mmu) (apart : StackApart esp mmu)
    (behind : BitVec 32) :
    ∃ after, pModeStart behind esp mmu = some ((esp + 0xc0000000) % 2 ^ 32, after) ∧
      Switched esp mmu after := by
  have stacked := apart.lowTable behind low
  have called := callSetupPage_eq apart behind
  have tables := switchRam_tables stacked
  obtain ⟨limit, base⟩ := switchRam_pointer stacked
  have small : mmu.gdtBase < 2 ^ 32 := by
    have inside := low.low
    omega
  have ebx : read32 (sgdt gdtPtr { mmu with ram := setupPage (pushed behind esp mmu).ram }).ram
      (gdtPtr + 2) = mmu.gdtBase := read32_write32 _ _ _ small
  have stores : addDword (gdtPtr + 2) 0xc0000000 (orDword (mmu.gdtBase + 0x18 + 4) 0xc0000000
      (sgdt gdtPtr { mmu with ram := setupPage (pushed behind esp mmu).ram })) =
      { mmu with ram := switchRam (pushed behind esp mmu) } := by
    simp only [addDword, orDword, sgdt, switchRam, pushed]
  -- the second `lgdt` reads through the new page tables
  have seen : (Mmu.mk (switchRam (pushed behind esp mmu)) true pageDirTablePos mmu.gdtBase
      mmu.gdtLimit).Window gdtPtr gdtPtr 6 := by
    intro offset below
    have inside : gdtPtr + offset < 0x100000 := by unfold gdtPtr; omega
    rw [Mmu.translate, if_pos rfl, Nat.mod_eq_of_lt (by omega)]
    exact tables.walk_identity _ inside
  have words : (Mmu.mk (switchRam (pushed behind esp mmu)) true pageDirTablePos mmu.gdtBase
      mmu.gdtLimit).Window gdtPtr gdtPtr 2 := fun offset below => seen offset (by omega)
  have dwords : (Mmu.mk (switchRam (pushed behind esp mmu)) true pageDirTablePos mmu.gdtBase
      mmu.gdtLimit).Window (gdtPtr + 2) (gdtPtr + 2) 4 := seen.part (Nat.le_refl 6)
  have loaded : lgdt gdtPtr ⟨switchRam (pushed behind esp mmu), true, pageDirTablePos,
      mmu.gdtBase, mmu.gdtLimit⟩ = some ⟨switchRam (pushed behind esp mmu), true,
      pageDirTablePos, 0xc0000000 + mmu.gdtBase, mmu.gdtLimit⟩ := by
    rw [lgdt, words.load16, dwords.load32, limit, base]
    rfl
  refine ⟨⟨switchRam (pushed behind esp mmu), true, pageDirTablePos, 0xc0000000 + mmu.gdtBase,
    mmu.gdtLimit⟩, ?_, rfl, rfl, tables, rfl, rfl, ?_, ?_, ?_⟩
  · rw [pModeStart, called]
    simp only [Option.bind_eq_bind, Option.bind_some, ebx, stores, loaded]
  · intro index inside
    have kept : read32 (pushed behind esp mmu).ram (mmu.gdtBase + index * 8) =
        read32 mmu.ram (mmu.gdtBase + index * 8) :=
      apart.descriptors behind (by omega) (by omega)
    rw [← kept]
    exact (switchRam_table stacked inside).1
  · intro index inside
    have kept : read32 (pushed behind esp mmu).ram (mmu.gdtBase + index * 8 + 4) =
        read32 mmu.ram (mmu.gdtBase + index * 8 + 4) :=
      apart.descriptors behind (by omega) (by omega)
    rw [← kept]
    exact (switchRam_table stacked inside).2
  · intro query below pointer entry stack
    have switched : switchRam (pushed behind esp mmu) query = (pushed behind esp mmu).ram query :=
      (@switchRam_of_outside (pushed behind esp mmu) query pointer entry).trans
        (setupPage_of_outside _ _ (.inl below))
    exact switched.trans (pushed_of_outside behind apart.low.1 stack)

/-- The table at its new address. -/
theorem Switched.window {after : Mmu} (switched : Switched esp mmu after) (low : LowTable mmu) :
    after.Window after.gdtBase mmu.gdtBase (after.gdtLimit + 1) := by
  intro offset below
  rw [switched.base]
  rw [switched.limit] at below
  have inside := low.low
  exact switched.translate (by omega) (.inr (by omega))

/-- What a selector names after the switch. -/
theorem Switched.descriptor {after : Mmu} (switched : Switched esp mmu after) (low : LowTable mmu)
    (selector : Nat) :
    after.descriptor selector = (mmu.descriptor selector).map fun descriptor =>
      (descriptor.1, raised (selector / 8) descriptor.2) := by
  have inside := low.low
  have before : mmu.Window mmu.gdtBase mmu.gdtBase (mmu.gdtLimit + 1) :=
    Mmu.window_of_flat low.flat (by omega)
  rw [Mmu.descriptor_of_window (switched.window low), Mmu.descriptor_of_window before,
    switched.limit]
  split
  · next valid =>
      rw [switched.lower _ valid.2.2, switched.upper _ valid.2.2]
      rfl
  · rfl

end Switch

section Loader

variable {mmu : Mmu}

/-- The descriptor of a selector of the loader. -/
theorem LoaderTable.descriptor (loader : LoaderTable mmu) {index : Nat} (least : 1 ≤ index)
    (most : index ≤ 3) :
    mmu.descriptor (index * 8) = some (read32 mmu.ram (0x900 + index * 8),
      read32 mmu.ram (0x900 + index * 8 + 4)) := by
  have window : mmu.Window mmu.gdtBase mmu.gdtBase (mmu.gdtLimit + 1) :=
    Mmu.window_of_flat loader.flat (by rw [loader.base, loader.limit]; decide)
  have entry : index * 8 / 8 = index := Nat.mul_div_cancel _ (by decide)
  have valid : index ≠ 0 ∧ index * 8 / 4 % 2 = 0 ∧ index * 8 + 7 ≤ mmu.gdtLimit := by
    rw [loader.limit]
    omega
  rw [Mmu.descriptor_of_window window, entry, if_pos valid, loader.base]

/-- What a selector of the loader shows after the switch. -/
theorem Switched.resolve {after : Mmu} (switched : Switched esp mmu after)
    (loader : LoaderTable mmu) {index lower upper base limit : Nat} (least : 1 ≤ index)
    (most : index ≤ 3)
    (first : read32 mmu.ram (0x900 + index * 8) = lower)
    (second : read32 mmu.ram (0x900 + index * 8 + 4) = upper)
    (usable : Usable (raised index upper)) (place : segmentBase lower (raised index upper) = base)
    (size : segmentLimit lower (raised index upper) = limit) (offset : Nat) :
    after.resolve (index * 8) offset =
      if offset ≤ limit then after.translate (base + offset) else none := by
  have entry : index * 8 / 8 = index := Nat.mul_div_cancel _ (by decide)
  rw [Mmu.resolve, switched.descriptor loader.low, loader.descriptor least most, first, second,
    entry]
  change (if Usable (raised index upper) ∧ offset ≤ segmentLimit lower (raised index upper) then
    after.translate (segmentBase lower (raised index upper) + offset) else none) = _
  rw [place, size]
  simp only [usable, true_and]

/-- **The kernel prints into video memory.** Behind the switch the selector of the video segment
names the video memory up to its limit, and faults behind it, as the console's stores do; the
flat segments show the low megabyte twice. -/
theorem pModeStart_video (loader : LoaderTable mmu) (behind : BitVec 32) :
    ∃ after, pModeStart behind loaderStackTop mmu = some (0xc0000900, after) ∧
      (∀ (console : Console) offset byte, console.storeGs offset byte =
        match after.resolve selectorVideo offset with
        | some phys => .ok (console.storeByte phys byte)
        | none => .error (.generalProtection offset)) ∧
      ∀ selector, selector = selectorCode ∨ selector = selectorData → ∀ phys < 0x100000,
        after.resolve selector phys = some phys ∧
          after.resolve selector (0xc0000000 + phys) = some phys := by
  obtain ⟨after, ran, switched⟩ := pModeStart_switched loader.low loader.stackApart behind
  refine ⟨after, ran, ?_, ?_⟩
  · intro console offset byte
    have shown : after.resolve selectorVideo offset =
        if offset ≤ videoLimit then after.translate (0xc00b8000 + offset) else none := by
      obtain clear | accessed := loader.video.2
      · exact switched.resolve loader (by decide : 1 ≤ 3) (by decide) loader.video.1 clear
          (by decide) (by decide) (by decide) offset
      · exact switched.resolve loader (by decide : 1 ≤ 3) (by decide) loader.video.1 accessed
          (by decide) (by decide) (by decide) offset
    rw [shown, Console.storeGs]
    by_cases inside : offset ≤ videoLimit
    · have small : offset < 0x8000 := Nat.lt_succ_of_le inside
      have there : after.translate (0xc00b8000 + offset) = some (videoBase + offset) :=
        switched.translate (by unfold videoBase; omega) (.inr (by unfold videoBase; omega))
      rw [if_pos inside, if_pos inside, there]
    · rw [if_neg inside, if_neg inside]
  · have flat {index upper : Nat} (least : 1 ≤ index) (most : index ≤ 3)
        (first : read32 mmu.ram (0x900 + index * 8) = 0x0000ffff)
        (second : read32 mmu.ram (0x900 + index * 8 + 4) = upper)
        (usable : Usable (raised index upper))
        (place : segmentBase 0x0000ffff (raised index upper) = 0)
        (size : segmentLimit 0x0000ffff (raised index upper) = 0xffffffff) (phys : Nat)
        (low : phys < 0x100000) :
        after.resolve (index * 8) phys = some phys ∧
          after.resolve (index * 8) (0xc0000000 + phys) = some phys := by
      have shown := switched.resolve loader least most first second usable place size
      rw [shown, shown, if_pos (by omega), if_pos (by omega)]
      exact ⟨switched.translate low (.inl (by omega)), switched.translate low (.inr (by omega))⟩
    rintro selector (rfl | rfl) phys low
    · obtain clear | accessed := loader.code.2
      · exact flat (by decide : 1 ≤ 1) (by decide) loader.code.1 clear (by decide) (by decide)
          (by decide) phys low
      · exact flat (by decide : 1 ≤ 1) (by decide) loader.code.1 accessed (by decide)
          (by decide) (by decide) phys low
    · obtain clear | accessed := loader.data.2
      · exact flat (by decide : 1 ≤ 2) (by decide) loader.data.1 clear (by decide) (by decide)
          (by decide) phys low
      · exact flat (by decide : 1 ≤ 2) (by decide) loader.data.1 accessed (by decide)
          (by decide) (by decide) phys low

theorem pModeStart_video_loader :
    ∃ after, pModeStart 0xd20#32 loaderStackTop loaderMmu = some (0xc0000900, after) ∧
      after.resolve selectorCode 0xc0001500 = some 0x1500 := by
  obtain ⟨after, ran, -, flat⟩ := pModeStart_video loaderMmu_loaded 0xd20#32
  exact ⟨after, ran, (flat selectorCode (.inl rfl) 0x1500 (by decide)).2⟩

end Loader

end OsElephant
