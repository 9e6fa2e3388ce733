import Mathlib.Order.Bounds.Basic
import LearningKernels.OsElephant.Bitmap

/-!
# First fit inside a fence

`bitmap_scan` on a memory of which only the bytes of the bitmap may be read. When a
run of free bits fits, the search ends inside the fence with the least fit. When none
fits it always leaves the fence: the byte loop reads `bits[btmp_bytes_len]` of a full
bitmap, and the counting loop, which starts one bit after the first free bit and makes
one test for every bit from that one on, tests the first bit behind the bitmap.
-/

namespace OsElephant

open Machine

/-- A memory fenced to the bytes of a bitmap. -/
def Bitmap.fence (btmp : Bitmap) (memory : Memory) : Fenced where
  memory := memory
  first := btmp.bits
  length := btmp.btmpBytesLen

/-- `cnt` free bits of the bitmap from bit `fit` on. -/
def Bitmap.Fits (btmp : Bitmap) (memory : Memory) (cnt fit : Nat) : Prop :=
  fit + cnt ≤ 8 * btmp.btmpBytesLen ∧ FreeRun memory btmp.bits fit cnt

variable {btmp : Bitmap} {memory : Memory}

theorem Bitmap.fence_shows (btmp : Bitmap) (memory : Memory) :
    Shows (btmp.fence memory) btmp.bits memory btmp.bits btmp.btmpBytesLen := by
  intro offset inside
  apply Fenced.load8_within
  exact ⟨Nat.le_add_right _ _, Nat.add_lt_add_left inside _⟩

/-- The byte behind the bitmap cannot be read. -/
theorem Bitmap.fence_behind (btmp : Bitmap) (memory : Memory) :
    AddressSpace.load8 (btmp.fence memory) (btmp.bits + btmp.btmpBytesLen) =
      .error .pageFault := by
  apply Fenced.load8_outside
  rintro ⟨-, below⟩
  exact Nat.lt_irrefl _ below

/-- The search returns the least fit, touching nothing but the bytes of the bitmap and
changing none of them. -/
theorem bitmapScan_leastFit (btmp : Bitmap) (memory : Memory) (cnt : Nat)
    (small : 8 * btmp.btmpBytesLen < 2 ^ 31) (positive : 1 ≤ cnt)
    (someFit : ∃ fit, btmp.Fits memory cnt fit) :
    ∃ fit : Nat, IsLeast {fit | btmp.Fits memory cnt fit} fit ∧
      (bitmapScan btmp cnt : Path Fenced Int).run (btmp.fence memory) =
        .ok ((fit : Int), btmp.fence memory) := by
  classical
  obtain ⟨inside, free⟩ := Nat.find_spec someFit
  have least : IsLeast {fit | btmp.Fits memory cnt fit} (Nat.find someFit) :=
    ⟨Nat.find_spec someFit, fun other fits => Nat.find_min' someFit fits⟩
  refine ⟨Nat.find someFit, least, ?_⟩
  apply bitmapScan_firstFit (btmp.fence_shows memory) small positive (by omega) inside (by omega)
    free
  intro earlier below fits
  exact Nat.find_min someFit below ⟨by omega, fits⟩

theorem bitmapScan_leastFit_secondByte :
    ∃ fit : Nat, IsLeast {fit | (Bitmap.mk 2 0).Fits (fun addr => if addr = 0 then 0xff else 0)
        3 fit} fit ∧
      (bitmapScan ⟨2, 0⟩ 3 : Path Fenced Int).run
          ((Bitmap.mk 2 0).fence fun addr => if addr = 0 then 0xff else 0) =
        .ok ((fit : Int), (Bitmap.mk 2 0).fence fun addr => if addr = 0 then 0xff else 0) :=
  bitmapScan_leastFit ⟨2, 0⟩ _ 3 (by decide) (by decide)
    ⟨8, by decide, by unfold FreeRun; decide⟩

/-- The byte loop of a full bitmap reads the byte behind it. -/
theorem skipFullBytes_leaves {idxByte : Nat} (start : idxByte ≤ btmp.btmpBytesLen)
    (full : ∀ index < btmp.btmpBytesLen, memory (btmp.bits + index) = 0xff#8) :
    (skipFullBytes btmp idxByte : Path Fenced Nat).run (btmp.fence memory) =
      .error .pageFault := by
  induction gap : btmp.btmpBytesLen - idxByte generalizing idxByte with
  | zero =>
      have reached : idxByte = btmp.btmpBytesLen := by omega
      rw [skipFullBytes, reached,
        Path.run_bind_of_error (Path.run_load8_of_error (btmp.fence_behind memory))]
  | succ gap ih =>
      have readable := btmp.fence_shows memory idxByte (by omega)
      rw [skipFullBytes, Path.run_bind_of_ok (Path.run_load8_of_ok readable),
        dif_pos ⟨full idxByte (by omega), by omega⟩]
      exact ih (by omega) (by omega)

/-- The counting loop goes on to the first bit behind the bitmap unless it finds a fit. -/
theorem findRun_leaves {cnt bitLeft start count : Nat} (counting : count < cnt)
    (last : start + count + bitLeft = 8 * btmp.btmpBytesLen + 1)
    (left : 0 < bitLeft) (counted : FreeRun memory btmp.bits start count)
    (noFit : ∀ fit, start ≤ fit → ¬ btmp.Fits memory cnt fit) :
    (findRun btmp cnt bitLeft (start + count) count : Path Fenced Int).run
      (btmp.fence memory) = .error .pageFault := by
  induction bitLeft generalizing start count with
  | zero => omega
  | succ bitLeft ih =>
      by_cases behind : bitLeft = 0
      · -- The last test is of the first bit behind the bitmap.
        have testedByte : (start + count) / 8 = btmp.btmpBytesLen := by omega
        have faults : (bitmapScanTest btmp (start + count) : Path Fenced Bool).run
            (btmp.fence memory) = .error .pageFault := by
          rw [bitmapScanTest, testedByte,
            Path.run_bind_of_error (Path.run_load8_of_error (btmp.fence_behind memory))]
        rw [findRun, Path.run_bind_of_error faults]
      · rw [findRun, Path.run_bind_of_ok (bitmapScanTest_run (btmp.fence_shows memory) (by omega))]
        cases tested : bitAt memory btmp.bits (start + count) with
        | false =>
            have longer := counted.snoc tested
            have short : count + 1 ≠ cnt := fun complete =>
              noFit start le_rfl ⟨by omega, complete ▸ longer⟩
            simp only [Bool.false_eq_true, ↓reduceIte]
            rw [if_neg short, Nat.add_assoc]
            exact ih (by omega) (by omega) (by omega) longer noFit
        | true =>
            simp only [↓reduceIte]
            rw [if_neg (by omega)]
            exact @ih (start + count + 1) 0 (by omega) (by omega) (by omega)
              (fun _ impossible => absurd impossible (Nat.not_lt_zero _))
              fun fit lower => noFit fit (by omega)

/-- Without a fit the search reads the byte behind the bitmap. -/
theorem bitmapScan_leaves (cnt : Nat) (small : 8 * btmp.btmpBytesLen < 2 ^ 31)
    (positive : 1 ≤ cnt) (noFit : ∀ fit, ¬ btmp.Fits memory cnt fit) :
    (bitmapScan btmp cnt : Path Fenced Int).run (btmp.fence memory) = .error .pageFault := by
  by_cases someFree : ∃ bit < 8 * btmp.btmpBytesLen, bitAt memory btmp.bits bit = false
  · obtain ⟨free, inside, clear, set⟩ := exists_firstFree someFree
    have single := FreeRun.single clear
    have several : cnt ≠ 1 := by
      rintro rfl
      exact noFit free ⟨by omega, single⟩
    rw [bitmapScan_start cnt ((btmp.fence_shows memory).mono (by omega)) inside small clear set,
      if_neg several]
    exact findRun_leaves (by omega) (by omega) (by omega) single fun fit _ => noFit fit
  · have full : ∀ index < btmp.btmpBytesLen, memory (btmp.bits + index) = 0xff#8 := by
      intro index below
      apply byte_eq_full
      intro bit bound
      by_contra clear
      exact someFree ⟨8 * index + bit, by omega, by simpa using clear⟩
    rw [bitmapScan, Path.run_bind_of_error (skipFullBytes_leaves (Nat.zero_le _) full)]

/-- The search answers -1 without touching anything but the bytes of the bitmap. -/
def ReportsFailure (btmp : Bitmap) (memory : Memory) (cnt : Nat) : Prop :=
  ∃ after, (bitmapScan btmp cnt : Path Fenced Int).run (btmp.fence memory) = .ok (-1, after)

/-- No bitmap without a fit is reported as such from inside the fence. -/
theorem not_reportsFailure_of_noFit (btmp : Bitmap) (memory : Memory) (cnt : Nat)
    (small : 8 * btmp.btmpBytesLen < 2 ^ 31) (positive : 1 ≤ cnt)
    (noFit : ∀ fit, ¬ btmp.Fits memory cnt fit) : ¬ ReportsFailure btmp memory cnt := by
  rintro ⟨after, answered⟩
  rw [bitmapScan_leaves cnt small positive noFit] at answered
  cases answered

/-- A memory whose byte 0 is full and whose other bytes are free. -/
def oneFullByte : Memory := fun addr => if addr = 0 then 0xff else 0

theorem oneFullByte_noFit (fit : Nat) : ¬ (Bitmap.mk 1 0).Fits oneFullByte 1 fit := by
  rintro ⟨inside, free⟩
  have clear := free 0 Nat.zero_lt_one
  change fit + 1 ≤ 8 * 1 at inside
  have set : ∀ bit < 8, bitAt oneFullByte 0 (bit + 0) = true := by decide
  rw [set fit (by omega)] at clear
  cases clear

theorem not_reportsFailure_oneFullByte : ¬ ReportsFailure ⟨1, 0⟩ oneFullByte 1 :=
  not_reportsFailure_of_noFit ⟨1, 0⟩ oneFullByte 1 (by decide) le_rfl oneFullByte_noFit

/-- The full bitmap of one byte has no fit, yet the search leaves it, and fails its
assertion where the byte behind can be read. -/
theorem fullBitmap_not_reported :
    (∀ fit, ¬ (Bitmap.mk 1 0).Fits oneFullByte 1 fit) ∧ ¬ ReportsFailure ⟨1, 0⟩ oneFullByte 1 ∧
      (bitmapScan ⟨1, 0⟩ 1 : Path Fenced Int).run ⟨oneFullByte, 0, 2⟩ =
        .error .assertFailed := by
  refine ⟨oneFullByte_noFit, ?_, ?_⟩
  · rintro ⟨after, answered⟩
    rw [bitmapScan_leaves 1 (by decide) le_rfl oneFullByte_noFit] at answered
    cases answered
  · apply @bitmapScan_full _ _ _ _ oneFullByte 0
    · intro offset inside
      rw [Fenced.load8_within ⟨Nat.zero_le _, Nat.add_lt_add_left inside 0⟩]
    · decide

end OsElephant
