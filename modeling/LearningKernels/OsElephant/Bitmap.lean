import Mathlib.Data.Nat.Find
import LearningKernels.Machine.AddressSpace

/-!
# Bitmaps

The functions of `bitmap.c`, over any address space. A search reads bytes only;
its result is stated in terms of the bits those bytes hold. The search for a run
of free bits also tests the first bit behind the bitmap, so what it finds is the
first fit among `8 * btmp_bytes_len + 1` bits (`OsElephant.bitmapScan_firstFit`,
`OsElephant.bitmapScan_noFit`).
-/

namespace OsElephant

open Machine

/-- `struct bitmap`: the length in bytes and the address of the bytes. -/
structure Bitmap where
  btmpBytesLen : Nat
  bits : Nat
  deriving DecidableEq, Repr

section Code

variable {σ : Type} [AddressSpace σ]

/-- The loop of `memset`. -/
def memsetLoop (value : Byte) : (size dst : Nat) → Path σ Unit
  | 0, _ => pure ()
  | size + 1, dst => do
      Path.store8 dst value
      memsetLoop value size (dst + 1)

/-- `memset` of `string.c`. -/
def memset (dst : Nat) (value : Byte) (size : Nat) : Path σ Unit := do
  Path.require (dst ≠ 0) .assertFailed
  memsetLoop value size dst

/-- `bitmap_init`. -/
def bitmapInit (btmp : Bitmap) : Path σ Unit := memset btmp.bits 0 btmp.btmpBytesLen

/-- `bitmap_scan_test`. -/
def bitmapScanTest (btmp : Bitmap) (bitIdx : Nat) : Path σ Bool := do
  let byteIdx := bitIdx / 8
  let bitOdd := bitIdx % 8
  let byte ← Path.load8 (btmp.bits + byteIdx)
  return decide ((byte &&& (1#8 <<< bitOdd)) ≠ 0#8)

/-- The first loop of `bitmap_scan`: skip the bytes without a free bit. The byte
is read before the index is compared. -/
def skipFullBytes (btmp : Bitmap) (idxByte : Nat) : Path σ Nat := do
  let byte ← Path.load8 (btmp.bits + idxByte)
  if inside : byte = 0xff#8 ∧ idxByte < btmp.btmpBytesLen then
    skipFullBytes btmp (idxByte + 1)
  else
    pure idxByte
termination_by btmp.btmpBytesLen - idxByte
decreasing_by omega

/-- The second loop of `bitmap_scan`: find the free bit inside the byte. -/
def skipSetBits (btmp : Bitmap) (idxByte idxBit : Nat) : Path σ Nat := do
  let byte ← Path.load8 (btmp.bits + idxByte)
  if set : (byte &&& (1#8 <<< idxBit)) ≠ 0#8 then
    skipSetBits btmp idxByte (idxBit + 1)
  else
    pure idxBit
termination_by 8 - idxBit
decreasing_by
  have inside : idxBit < 8 := by
    by_contra beyond
    rw [and_mask_ne_zero, BitVec.getLsbD_of_ge _ _ (by omega)] at set
    cases set
  omega

/-- The third loop of `bitmap_scan`: count consecutive free bits. -/
def findRun (btmp : Bitmap) (cnt : Nat) : (bitLeft nextBit count : Nat) → Path σ Int
  | 0, _, _ => pure (-1)
  | bitLeft + 1, nextBit, count => do
      let set ← bitmapScanTest btmp nextBit
      let count := if set then 0 else count + 1
      if count = cnt then
        pure ((nextBit : Int) - cnt + 1)
      else
        findRun btmp cnt bitLeft (nextBit + 1) count

/-- `bitmap_scan`. -/
def bitmapScan (btmp : Bitmap) (cnt : Nat) : Path σ Int := do
  let idxByte ← skipFullBytes btmp 0
  Path.require (idxByte < btmp.btmpBytesLen) .assertFailed
  if idxByte = btmp.btmpBytesLen then
    pure (-1)
  else
    let idxBit ← skipSetBits btmp idxByte 0
    let bitIdxStart := idxByte * 8 + idxBit
    if cnt = 1 then
      pure (bitIdxStart : Int)
    else
      let bitLeft := (btmp.btmpBytesLen * 8 + 2 ^ 32 - bitIdxStart) % 2 ^ 32
      findRun btmp cnt bitLeft (bitIdxStart + 1) 1

/-- `bitmap_set`. -/
def bitmapSet (btmp : Bitmap) (bitIdx : Nat) (value : Int) : Path σ Unit := do
  Path.require (value = 0 ∨ value = 1) .assertFailed
  let byteIdx := bitIdx / 8
  let bitOdd := bitIdx % 8
  let byte ← Path.load8 (btmp.bits + byteIdx)
  if value ≠ 0 then
    Path.store8 (btmp.bits + byteIdx) (byte ||| (1#8 <<< bitOdd))
  else
    Path.store8 (btmp.bits + byteIdx) (byte &&& ~~~(1#8 <<< bitOdd))

end Code

/-- `cnt` bits are free from bit `start` on. -/
def FreeRun (memory : Memory) (base start cnt : Nat) : Prop :=
  ∀ offset < cnt, bitAt memory base (start + offset) = false

theorem FreeRun.single {memory : Memory} {base bit : Nat} (clear : bitAt memory base bit = false) :
    FreeRun memory base bit 1 := by
  intro offset bound
  rw [show bit + offset = bit by omega]
  exact clear

theorem FreeRun.snoc {memory : Memory} {base start count : Nat}
    (counted : FreeRun memory base start count)
    (clear : bitAt memory base (start + count) = false) :
    FreeRun memory base start (count + 1) := by
  intro offset inside
  rcases Nat.lt_succ_iff_lt_or_eq.mp inside with earlier | rfl
  · exact counted offset earlier
  · exact clear

/-- The first `limit` bytes at address `bits` read as the bytes of `memory` from `base` on. -/
def Shows {σ : Type} [AddressSpace σ] (state : σ) (bits : Nat) (memory : Memory)
    (base limit : Nat) : Prop :=
  ∀ offset < limit, AddressSpace.load8 state (bits + offset) = .ok (memory (base + offset))

section Search

variable {σ : Type} [AddressSpace σ] {state : σ} {btmp : Bitmap} {memory : Memory} {base : Nat}

theorem Shows.mono {bits limit smaller : Nat} (shows : Shows state bits memory base limit)
    (below : smaller ≤ limit) : Shows state bits memory base smaller :=
  fun offset inside => shows offset (by omega)

theorem bitmapScanTest_run {limit bitIdx : Nat} (shows : Shows state btmp.bits memory base limit)
    (inside : bitIdx / 8 < limit) :
    (bitmapScanTest btmp bitIdx : Path σ Bool).run state =
      .ok (bitAt memory base bitIdx, state) := by
  rw [bitmapScanTest, Path.run_bind_of_ok (Path.run_load8_of_ok (shows _ inside))]
  have tested : decide ((memory (base + bitIdx / 8) &&& (1#8 <<< (bitIdx % 8))) ≠ 0#8) =
      bitAt memory base bitIdx := by
    rw [Bool.eq_iff_iff, decide_eq_true_iff]
    exact and_mask_ne_zero _ _
  rw [tested]
  rfl

/-- The byte loop stops at the first byte with a free bit. -/
theorem skipFullBytes_run {idxByte target : Nat}
    (shows : Shows state btmp.bits memory base (target + 1)) (start : idxByte ≤ target)
    (inside : target ≤ btmp.btmpBytesLen)
    (full : ∀ index, idxByte ≤ index → index < target → memory (base + index) = 0xff#8)
    (stops : memory (base + target) ≠ 0xff#8 ∨ target = btmp.btmpBytesLen) :
    (skipFullBytes btmp idxByte : Path σ Nat).run state = .ok (target, state) := by
  induction gap : target - idxByte generalizing idxByte with
  | zero =>
      have reached : idxByte = target := by omega
      subst reached
      rw [skipFullBytes, Path.run_bind_of_ok (Path.run_load8_of_ok (shows _ (by omega)))]
      have ended : ¬ (memory (base + idxByte) = 0xff#8 ∧ idxByte < btmp.btmpBytesLen) := by
        rintro ⟨ones, below⟩
        rcases stops with free | last
        · exact free ones
        · omega
      rw [dif_neg ended]
      rfl
  | succ gap ih =>
      rw [skipFullBytes, Path.run_bind_of_ok (Path.run_load8_of_ok (shows _ (by omega)))]
      have onward : memory (base + idxByte) = 0xff#8 ∧ idxByte < btmp.btmpBytesLen :=
        ⟨full idxByte (by omega) (by omega), by omega⟩
      rw [dif_pos onward]
      exact ih (by omega) (fun index lower upper => full index (by omega) upper) (by omega)

/-- The bit loop stops at the first free bit of its byte. -/
theorem skipSetBits_run {limit idxByte idxBit target : Nat}
    (shows : Shows state btmp.bits memory base limit) (inside : idxByte < limit)
    (start : idxBit ≤ target)
    (set : ∀ bit, idxBit ≤ bit → bit < target → (memory (base + idxByte)).getLsbD bit = true)
    (free : (memory (base + idxByte)).getLsbD target = false) :
    (skipSetBits btmp idxByte idxBit : Path σ Nat).run state = .ok (target, state) := by
  induction gap : target - idxBit generalizing idxBit with
  | zero =>
      have reached : idxBit = target := by omega
      subst reached
      rw [skipSetBits, Path.run_bind_of_ok (Path.run_load8_of_ok (shows _ inside))]
      have ended : ¬ ((memory (base + idxByte) &&& (1#8 <<< idxBit)) ≠ 0#8) := by
        rw [and_mask_ne_zero, free]
        exact Bool.false_ne_true
      rw [dif_neg ended]
      rfl
  | succ gap ih =>
      rw [skipSetBits, Path.run_bind_of_ok (Path.run_load8_of_ok (shows _ inside))]
      have onward : (memory (base + idxByte) &&& (1#8 <<< idxBit)) ≠ 0#8 :=
        (and_mask_ne_zero _ _).mpr (set idxBit (by omega) (by omega))
      rw [dif_pos onward]
      exact ih (by omega) (fun bit lower upper => set bit (by omega) upper) (by omega)

/-- The run loop finds the first fit. It has just counted `count` free bits from
bit `start` on and no run of `cnt` free bits starts between `start` and `fit`. -/
theorem findRun_found {limit cnt bitLeft start count fit : Nat}
    (shows : Shows state btmp.bits memory base limit)
    (readable : fit + cnt ≤ 8 * limit) (counting : count < cnt) (notBefore : start ≤ fit)
    (reach : fit + cnt ≤ start + count + bitLeft)
    (counted : FreeRun memory base start count)
    (fits : FreeRun memory base fit cnt)
    (first : ∀ earlier, start ≤ earlier → earlier < fit → ¬ FreeRun memory base earlier cnt) :
    (findRun btmp cnt bitLeft (start + count) count : Path σ Int).run state =
      .ok ((fit : Int), state) := by
  induction bitLeft generalizing start count with
  | zero => omega
  | succ bitLeft ih =>
      rw [findRun, Path.run_bind_of_ok (bitmapScanTest_run shows (by omega))]
      cases tested : bitAt memory base (start + count) with
      | false =>
          have longer := counted.snoc tested
          simp only [Bool.false_eq_true, ↓reduceIte]
          by_cases complete : count + 1 = cnt
          · have here : fit = start := by
              by_contra different
              exact first start (by omega) (by omega) (complete ▸ longer)
            rw [if_pos complete, Path.run_pure]
            congr 2
            omega
          · rw [if_neg complete, Nat.add_assoc]
            exact ih (by omega) notBefore (by omega) longer first
      | true =>
          -- A set bit cannot lie inside the run that starts at `fit`.
          have beyond : start + count < fit := by
            by_contra within
            have clear := fits (start + count - fit) (by omega)
            rw [show fit + (start + count - fit) = start + count by omega, tested] at clear
            cases clear
          simp only [↓reduceIte]
          rw [if_neg (by omega)]
          exact @ih (start + count + 1) 0 (by omega) (by omega) (by omega)
            (fun _ impossible => absurd impossible (Nat.not_lt_zero _))
            fun earlier lower upper => first earlier (by omega) upper

/-- The run loop gives up when no run fits in the bits it may test. -/
theorem findRun_none {limit cnt bitLeft start count : Nat}
    (shows : Shows state btmp.bits memory base limit)
    (readable : start + count + bitLeft ≤ 8 * limit) (counting : count < cnt)
    (counted : FreeRun memory base start count)
    (noFit : ∀ fit, start ≤ fit → fit + cnt ≤ start + count + bitLeft →
      ¬ FreeRun memory base fit cnt) :
    (findRun btmp cnt bitLeft (start + count) count : Path σ Int).run state =
      .ok (-1, state) := by
  induction bitLeft generalizing start count with
  | zero => rfl
  | succ bitLeft ih =>
      rw [findRun, Path.run_bind_of_ok (bitmapScanTest_run shows (by omega))]
      cases tested : bitAt memory base (start + count) with
      | false =>
          have longer := counted.snoc tested
          have short : count + 1 ≠ cnt := fun complete =>
            noFit start (by omega) (by omega) (complete ▸ longer)
          simp only [Bool.false_eq_true, ↓reduceIte]
          rw [if_neg short, Nat.add_assoc]
          exact ih (by omega) (by omega) longer
            fun fit lower upper => noFit fit lower (by omega)
      | true =>
          simp only [↓reduceIte]
          rw [if_neg (by omega)]
          exact @ih (start + count + 1) 0 (by omega) (by omega)
            (fun _ impossible => absurd impossible (Nat.not_lt_zero _))
            fun fit lower upper => noFit fit (by omega) (by omega)

theorem byte_eq_full {index : Nat}
    (set : ∀ bit < 8, bitAt memory base (8 * index + bit) = true) :
    memory (base + index) = 0xff#8 := by
  by_contra partly
  obtain ⟨bit, inside, clear⟩ := exists_clear_bit _ partly
  have contrary := set bit inside
  rw [bitAt, show (8 * index + bit) / 8 = index by omega,
    show (8 * index + bit) % 8 = bit by omega, clear] at contrary
  cases contrary

/-- Up to the first free bit the search is a plain skip; only then does the
request size matter. -/
theorem bitmapScan_start {free : Nat} (cnt : Nat)
    (shows : Shows state btmp.bits memory base (free / 8 + 1))
    (inside : free < 8 * btmp.btmpBytesLen) (small : 8 * btmp.btmpBytesLen < 2 ^ 31)
    (clear : bitAt memory base free = false)
    (set : ∀ bit < free, bitAt memory base bit = true) :
    (bitmapScan btmp cnt : Path σ Int).run state =
      if cnt = 1 then .ok ((free : Int), state)
      else (findRun btmp cnt (8 * btmp.btmpBytesLen - free) (free + 1) 1 : Path σ Int).run
        state := by
  have skipped : (skipFullBytes btmp 0 : Path σ Nat).run state = .ok (free / 8, state) := by
    apply skipFullBytes_run shows (Nat.zero_le _) (by omega)
    · intro index _ below
      exact byte_eq_full fun bit bound => set _ (by omega)
    · left
      intro full
      rw [bitAt, full, getLsbD_full _ (Nat.mod_lt _ (by decide))] at clear
      cases clear
  have located : (skipSetBits btmp (free / 8) 0 : Path σ Nat).run state =
      .ok (free % 8, state) := by
    apply skipSetBits_run shows (by omega) (Nat.zero_le _)
    · intro bit _ below
      have earlier := set (8 * (free / 8) + bit) (by omega)
      rwa [bitAt, show (8 * (free / 8) + bit) / 8 = free / 8 by omega,
        show (8 * (free / 8) + bit) % 8 = bit by omega] at earlier
    · exact clear
  rw [bitmapScan, Path.run_bind_of_ok skipped,
    Path.run_bind_of_ok (Path.run_require_of_true (by omega) _), if_neg (by omega),
    Path.run_bind_of_ok located, show free / 8 * 8 + free % 8 = free by omega]
  have left : (btmp.btmpBytesLen * 8 + 2 ^ 32 - free) % 2 ^ 32 =
      8 * btmp.btmpBytesLen - free := by omega
  simp only [left]
  split
  · rfl
  · rfl

/-- Among the bits below a bound there is a first free one, if there is a free one. -/
theorem exists_firstFree {bound : Nat}
    (someFree : ∃ bit < bound, bitAt memory base bit = false) :
    ∃ free < bound, bitAt memory base free = false ∧
      ∀ bit < free, bitAt memory base bit = true := by
  classical
  obtain ⟨inside, clear⟩ := Nat.find_spec someFree
  refine ⟨Nat.find someFree, inside, clear, ?_⟩
  intro bit below
  have absent := Nat.find_min someFree below
  simpa [Nat.lt_trans below inside] using absent

/-- **First fit.** The search returns the first run of `cnt` free bits that starts
inside the bitmap and ends at most one bit behind it, reading no further than the
end of that run. -/
theorem bitmapScan_firstFit {limit cnt fit : Nat}
    (shows : Shows state btmp.bits memory base limit) (small : 8 * btmp.btmpBytesLen < 2 ^ 31)
    (positive : 1 ≤ cnt) (inside : fit < 8 * btmp.btmpBytesLen)
    (readable : fit + cnt ≤ 8 * limit) (reach : fit + cnt ≤ 8 * btmp.btmpBytesLen + 1)
    (fits : FreeRun memory base fit cnt)
    (first : ∀ earlier < fit, ¬ FreeRun memory base earlier cnt) :
    (bitmapScan btmp cnt : Path σ Int).run state = .ok ((fit : Int), state) := by
  obtain ⟨free, below, clear, set⟩ :=
    exists_firstFree ⟨fit, Nat.lt_succ_self fit, fits 0 positive⟩
  have notAfter : free ≤ fit := Nat.le_of_lt_succ below
  rw [bitmapScan_start cnt (shows.mono (by omega)) (by omega) small clear set]
  by_cases single : cnt = 1
  · subst single
    rw [if_pos rfl]
    have here : free = fit := by
      by_contra different
      apply first free (by omega)
      exact FreeRun.single clear
    rw [here]
  · rw [if_neg single]
    exact findRun_found shows readable (by omega) notAfter (by omega) (FreeRun.single clear) fits
      fun earlier _ below => first earlier below

/-- **No fit.** A bitmap with a free bit but no run of `cnt` free bits, counting
the first bit behind it, makes the search answer -1. -/
theorem bitmapScan_noFit {cnt : Nat}
    (shows : Shows state btmp.bits memory base (btmp.btmpBytesLen + 1))
    (small : 8 * btmp.btmpBytesLen < 2 ^ 31) (positive : 1 ≤ cnt)
    (someFree : ∃ bit < 8 * btmp.btmpBytesLen, bitAt memory base bit = false)
    (noFit : ∀ fit, fit + cnt ≤ 8 * btmp.btmpBytesLen + 1 → ¬ FreeRun memory base fit cnt) :
    (bitmapScan btmp cnt : Path σ Int).run state = .ok (-1, state) := by
  obtain ⟨free, inside, clear, set⟩ := exists_firstFree someFree
  have single := FreeRun.single clear
  have several : cnt ≠ 1 := by
    rintro rfl
    exact noFit free (by omega) single
  rw [bitmapScan_start cnt (shows.mono (by omega)) inside small clear set, if_neg several]
  exact findRun_none shows (by omega) (by omega) single
    fun fit _ reach => noFit fit (by omega)

/-- **Full.** A bitmap without a free bit fails the assertion in front of the
answer -1. -/
theorem bitmapScan_full (cnt : Nat)
    (shows : Shows state btmp.bits memory base (btmp.btmpBytesLen + 1))
    (full : ∀ bit < 8 * btmp.btmpBytesLen, bitAt memory base bit = true) :
    (bitmapScan btmp cnt : Path σ Int).run state = .error .assertFailed := by
  have skipped : (skipFullBytes btmp 0 : Path σ Nat).run state =
      .ok (btmp.btmpBytesLen, state) :=
    skipFullBytes_run shows (Nat.zero_le _) le_rfl
      (fun index _ below => byte_eq_full fun bit bound => full _ (by omega)) (Or.inr rfl)
  rw [bitmapScan, Path.run_bind_of_ok skipped,
    Path.run_bind_of_error (Path.run_require_of_false (Nat.lt_irrefl _) _)]

/-- Setting a bit stores the byte with that bit set. -/
theorem bitmapSet_one_run {next : σ} {bitIdx : Nat} {byte : Byte}
    (readable : AddressSpace.load8 state (btmp.bits + bitIdx / 8) = .ok byte)
    (writable : AddressSpace.store8 state (btmp.bits + bitIdx / 8)
      (byte ||| (1#8 <<< (bitIdx % 8))) = .ok next) :
    (bitmapSet btmp bitIdx 1 : Path σ Unit).run state = .ok ((), next) := by
  rw [bitmapSet, Path.run_bind_of_ok (Path.run_require_of_true (Or.inr rfl) _),
    Path.run_bind_of_ok (Path.run_load8_of_ok readable), if_pos (by decide)]
  exact Path.run_store8_of_ok writable

end Search

end OsElephant
