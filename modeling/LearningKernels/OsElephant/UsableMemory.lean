import LearningKernels.Machine.Coverage
import LearningKernels.OsElephant.MemoryDetect

/-!
# Which memory is pooled

The loader hands `mem_init` the highest end of any entry of the BIOS memory map, whatever
its type, and `mem_pool_init` pools everything from two megabytes up to there (with the
page count cut to sixteen bits). The frames of both pools are usable memory exactly when no
usable range breaks off inside a pool (`OsElephant.bootOn_onlyUsable_iff`).
-/

namespace OsElephant

open Machine

/-- The ranges of the map that are usable memory. -/
def usableRegions (map : List Ards) : List Region :=
  (map.filter (·.type = 1)).map fun entry =>
    ⟨entry.base.toNat, entry.base.toNat + entry.length.toNat⟩

/-- Every frame with a bit in a pool lies inside one usable range. -/
def OnlyUsable (map : List Ards) (kernel : Kernel) : Prop :=
  ∀ name, ∀ index < 8 * (kernel.pool name).poolBitmap.btmpBytesLen,
    Covered (usableRegions map) 4096 ((kernel.pool name).phyAddrStart + 4096 * index)

/-- The pages from two megabytes up to the highest end, in sixteen bits. -/
def pagesAbove (map : List Ards) : Nat :=
  (highestEnd map + 2 ^ 32 - 0x200000) % 2 ^ 32 / 4096 % 2 ^ 16

/-- No usable range breaks off in the first half of these pages, nor in the second, each cut
to a multiple of eight pages. -/
def UnbrokenPools (map : List Ards) : Prop :=
  Unbroken (usableRegions map) 4096 0x200000 (8 * (pagesAbove map / 2 / 8)) ∧
    Unbroken (usableRegions map) 4096 (0x200000 + pagesAbove map / 2 * 4096)
      (8 * ((pagesAbove map - pagesAbove map / 2) / 8))

instance (map : List Ards) : Decidable (UnbrokenPools map) :=
  inferInstanceAs (Decidable (_ ∧ _))

theorem poolLayout_frames (map : List Ards) :
    ((poolLayout (highestEnd map)).pool .kernelPool).phyAddrStart = 0x200000 ∧
      (poolLayout (highestEnd map)).capacity .kernelPool = 8 * (pagesAbove map / 2 / 8) ∧
      ((poolLayout (highestEnd map)).pool .userPool).phyAddrStart =
        0x200000 + pagesAbove map / 2 * 4096 ∧
      (poolLayout (highestEnd map)).capacity .userPool =
        8 * ((pagesAbove map - pagesAbove map / 2) / 8) := by
  have pages : (poolLayout (highestEnd map)).allFreePages = pagesAbove map := by
    rw [pagesAbove, ← usedMem_eq]
    rfl
  rw [← pages, ← usedMem_eq]
  exact ⟨rfl, rfl, rfl, rfl⟩

/-- Which frames are pooled is decided by the highest end alone. -/
theorem Represents.onlyUsable_iff {map : List Ards} {kernel : Kernel}
    (rep : Represents (poolLayout (highestEnd map)) Bump.empty kernel) :
    OnlyUsable map kernel ↔ UnbrokenPools map := by
  obtain ⟨kernelStart, kernelCount, userStart, userCount⟩ := poolLayout_frames map
  have pooled (name : PoolName) :
      (∀ index < 8 * (kernel.pool name).poolBitmap.btmpBytesLen,
        Covered (usableRegions map) 4096 ((kernel.pool name).phyAddrStart + 4096 * index)) ↔
      Unbroken (usableRegions map) 4096 ((poolLayout (highestEnd map)).pool name).phyAddrStart
        ((poolLayout (highestEnd map)).capacity name) := by
    rw [rep.pools name]
    apply covered_iff_unbroken (by decide)
    exact Nat.dvd_of_mod_eq_zero ((poolLayout (highestEnd map)).start_aligned name).2
  have kernelPool := pooled .kernelPool
  have userPool := pooled .userPool
  rw [kernelStart, kernelCount] at kernelPool
  rw [userStart, userCount] at userPool
  rw [UnbrokenPools, ← kernelPool, ← userPool]
  constructor
  · intro usable
    exact ⟨usable .kernelPool, usable .userPool⟩
  · rintro ⟨kernelUsable, userUsable⟩ name
    cases name with
    | kernelPool => exact kernelUsable
    | userPool => exact userUsable

theorem bootOn_run (map : List Ards) (before : Kernel) (nonempty : 1 ≤ map.length)
    (few : map.length ≤ 12) :
    ∃ kernel, bootOn map before = .ok kernel ∧
      Represents (poolLayout (highestEnd map)) Bump.empty kernel := by
  rw [bootOn_eq_start map before nonempty few]
  obtain ⟨kernel, ran, rep, -⟩ := start_run
    { before with ram := detectMemory map (loaderData before.ram) } (highestEnd map)
  exact ⟨kernel, ran, rep⟩

/-- After start-up on a map of one to twelve entries, only usable memory is pooled exactly
when no usable range breaks off inside a pool. -/
theorem bootOn_onlyUsable_iff (map : List Ards) (before : Kernel) (nonempty : 1 ≤ map.length)
    (few : map.length ≤ 12) :
    ∃ kernel, bootOn map before = .ok kernel ∧ (OnlyUsable map kernel ↔ UnbrokenPools map) := by
  obtain ⟨kernel, ran, rep⟩ := bootOn_run map before nonempty few
  exact ⟨kernel, ran, rep.onlyUsable_iff⟩

theorem bootOn_onlyUsable_iff_plain :
    ∃ kernel, bootOn [⟨0, 0x2000000, 1⟩] Kernel.blank = .ok kernel ∧
      OnlyUsable [⟨0, 0x2000000, 1⟩] kernel := by
  obtain ⟨kernel, booted, usable⟩ :=
    bootOn_onlyUsable_iff [⟨0, 0x2000000, 1⟩] Kernel.blank (by decide) (by decide)
  exact ⟨kernel, booted, usable.mpr (by decide)⟩

/-- The map of an emulator with 32 megabytes: the last 64 kilobytes hold tables of the
firmware. -/
def emulatorMap : List Ards :=
  [⟨0, 0x9f000, 1⟩, ⟨0x9f000, 0x1000, 2⟩, ⟨0xe8000, 0x18000, 2⟩, ⟨0x100000, 0x1ef0000, 1⟩,
   ⟨0x1ff0000, 0x10000, 3⟩, ⟨0xfffc0000, 0x40000, 2⟩]

/-- On that map frames of the firmware's tables are pooled. -/
theorem emulatorMap_not_onlyUsable :
    (∀ addr, 0x100000 ≤ addr → addr < 0x200000 →
        ∃ region ∈ usableRegions emulatorMap, region.start ≤ addr ∧ addr < region.stop) ∧
      ∃ kernel, bootOn emulatorMap Kernel.blank = .ok kernel ∧
        ¬ OnlyUsable emulatorMap kernel := by
  constructor
  · intro addr lower upper
    exact ⟨⟨0x100000, 0x1ff0000⟩, by decide, lower, Nat.lt_trans upper (by decide)⟩
  · obtain ⟨kernel, ran, rep⟩ := bootOn_run emulatorMap Kernel.blank (by decide) (by decide)
    refine ⟨kernel, ran, fun usable => ?_⟩
    have pool : kernel.pool .userPool = ⟨⟨480, 0xc009a1e0⟩, 0x1100000, 3840 * 4096⟩ :=
      rep.pools .userPool
    have frame := usable .userPool 3824
    rw [pool] at frame
    exact absurd (frame (by decide)) (by decide)

end OsElephant
