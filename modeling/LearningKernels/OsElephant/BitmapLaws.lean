import LearningKernels.OsElephant.FirstFit

/-!
# Bitmaps as arrays of bits

`bitmap_set`, `bitmap_scan_test` and `bitmap_init` on a memory fenced to the bytes of the
bitmap. On the bits a set is the update of a function and a test is its application, so that
the laws of a bitmap are those of such updates (`OsElephant.bitmap_laws`). The model
computes in bytes where the code promotes to `int` and truncates; the two agree
(`OsElephant.bitmapSet_promoted`).
-/

namespace OsElephant

open Machine

section Promotion

variable {σ : Type} [AddressSpace σ]

/-- The value that `bitmap_set` assigns to its byte, computed in `int`. -/
def promotedByte (byte : Byte) (bitOdd : Nat) (value : Int) : Byte :=
  if value ≠ 0 then (byte.setWidth 32 ||| (1#32 <<< bitOdd)).setWidth 8
  else (byte.setWidth 32 &&& ~~~(1#32 <<< bitOdd)).setWidth 8

theorem setWidth_mask (bitOdd : Nat) : (1#32 <<< bitOdd).setWidth 8 = 1#8 <<< bitOdd :=
  BitVec.setWidth_shiftLeft_of_le (by decide)

theorem promotedByte_eq (byte : Byte) (bitOdd : Nat) (value : Int) :
    promotedByte byte bitOdd value =
      if value ≠ 0 then byte ||| (1#8 <<< bitOdd) else byte &&& ~~~(1#8 <<< bitOdd) := by
  have back : (byte.setWidth 32).setWidth 8 = byte :=
    BitVec.setWidth_setWidth_of_le byte (by decide)
  rw [promotedByte, BitVec.setWidth_or, BitVec.setWidth_and, BitVec.setWidth_not (by decide),
    setWidth_mask, back]

/-- `bitmap_set` assigns what its expression is worth in `int`. -/
theorem bitmapSet_promoted (btmp : Bitmap) (bitIdx : Nat) (value : Int) :
    (bitmapSet btmp bitIdx value : Path σ Unit) = (do
      Path.require (value = 0 ∨ value = 1) .assertFailed
      let byte ← Path.load8 (btmp.bits + bitIdx / 8)
      Path.store8 (btmp.bits + bitIdx / 8) (promotedByte byte (bitIdx % 8) value)) := by
  rw [bitmapSet]
  simp only [promotedByte_eq]
  by_cases clear : value = 0
  · simp only [clear, ne_eq, not_true_eq_false, ↓reduceIte]
  · simp only [clear, ne_eq, not_false_eq_true, ↓reduceIte]

end Promotion

/-- Calls of `bitmap_set`, one after the other. -/
def bitmapSets {σ : Type} [AddressSpace σ] (btmp : Bitmap) : List (Nat × Int) → Path σ Unit
  | [] => pure ()
  | (bitIdx, value) :: sets => do
      bitmapSet btmp bitIdx value
      bitmapSets btmp sets

/-- The value of the last set of a bit. -/
def lastSet (sets : List (Nat × Int)) (bitIdx : Nat) : Option Int :=
  (sets.reverse.find? fun set => set.1 = bitIdx).map Prod.snd

section Fence

variable (btmp : Bitmap) (memory : Memory)

/-- A byte of the bitmap is inside the fence. -/
theorem Bitmap.fence_within {offset : Nat} (inside : offset < btmp.btmpBytesLen) :
    (btmp.fence memory).Within (btmp.bits + offset) :=
  ⟨Nat.le_add_right _ _, Nat.add_lt_add_left inside _⟩

theorem Bitmap.fence_store {addr : Nat} (within : (btmp.fence memory).Within addr) (byte : Byte) :
    (Path.store8 addr byte : Path Fenced Unit).run (btmp.fence memory) =
      .ok ((), btmp.fence (Function.update memory addr byte)) :=
  Path.run_store8_of_ok (if_pos within)

/-- A test reads its bit. -/
theorem bitmapScanTest_fence {bitIdx : Nat} (inside : bitIdx < 8 * btmp.btmpBytesLen) :
    (bitmapScanTest btmp bitIdx : Path Fenced Bool).run (btmp.fence memory) =
      .ok (bitAt memory btmp.bits bitIdx, btmp.fence memory) :=
  bitmapScanTest_run (btmp.fence_shows memory) (by omega)

/-- A set gives its bit the value. -/
theorem bitmapSet_fence {bitIdx : Nat} {value : Int} (inside : bitIdx < 8 * btmp.btmpBytesLen)
    (bit : value = 0 ∨ value = 1) :
    (bitmapSet btmp bitIdx value : Path Fenced Unit).run (btmp.fence memory) =
      .ok ((), btmp.fence (putBit memory btmp.bits bitIdx (decide (value = 1)))) := by
  have within : (btmp.fence memory).Within (btmp.bits + bitIdx / 8) :=
    btmp.fence_within memory (by omega)
  have nonzero : value ≠ 0 ↔ value = 1 := by omega
  rw [bitmapSet_promoted, Path.run_bind_of_ok (Path.run_require_of_true bit _),
    Path.run_bind_of_ok (Path.run_load8_of_ok (Fenced.load8_within within)),
    btmp.fence_store memory within, promotedByte_eq, putBit]
  simp only [nonzero, decide_eq_true_eq]
  rfl

theorem memsetLoop_fence (size offset : Nat) (inside : offset + size ≤ btmp.btmpBytesLen) :
    (memsetLoop 0 size (btmp.bits + offset) : Path Fenced Unit).run (btmp.fence memory) =
      .ok ((), btmp.fence (clearBytes memory (btmp.bits + offset) size)) := by
  induction size generalizing memory offset with
  | zero =>
      rw [clearBytes_zero]
      rfl
  | succ size ih =>
      have within : (btmp.fence memory).Within (btmp.bits + offset) :=
        btmp.fence_within memory (by omega)
      rw [memsetLoop, Path.run_bind_of_ok (btmp.fence_store memory within 0), Nat.add_assoc,
        ih _ (offset + 1) (by omega), ← Nat.add_assoc, clearBytes_succ]

/-- The initialisation clears all bytes. -/
theorem bitmapInit_fence (present : btmp.bits ≠ 0) :
    (bitmapInit btmp : Path Fenced Unit).run (btmp.fence memory) =
      .ok ((), btmp.fence (clearBytes memory btmp.bits btmp.btmpBytesLen)) := by
  rw [bitmapInit, memset, Path.run_bind_of_ok (Path.run_require_of_true present _)]
  exact memsetLoop_fence btmp memory btmp.btmpBytesLen 0 (by omega)

/-- A set that `bitmap_set` accepts. -/
def Bitmap.Accepts (set : Nat × Int) : Prop :=
  set.1 < 8 * btmp.btmpBytesLen ∧ (set.2 = 0 ∨ set.2 = 1)

theorem bitmapSets_fence {sets : List (Nat × Int)} (accepted : ∀ set ∈ sets, btmp.Accepts set) :
    (bitmapSets btmp sets : Path Fenced Unit).run (btmp.fence memory) =
      .ok ((), btmp.fence (putAll memory btmp.bits
        (sets.map fun set => (set.1, decide (set.2 = 1))))) := by
  induction sets generalizing memory with
  | nil => rfl
  | cons set sets ih =>
      obtain ⟨inside, bit⟩ := accepted set List.mem_cons_self
      rw [bitmapSets, Path.run_bind_of_ok (bitmapSet_fence btmp memory inside bit),
        ih _ fun other member => accepted other (List.mem_cons_of_mem set member)]
      rfl

/-- After the initialisation, a bit is what it was last set to. -/
theorem bitAt_sets (sets : List (Nat × Int)) {bitIdx : Nat}
    (inside : bitIdx < 8 * btmp.btmpBytesLen) :
    bitAt (putAll (clearBytes memory btmp.bits btmp.btmpBytesLen) btmp.bits
        (sets.map fun set => (set.1, decide (set.2 = 1)))) btmp.bits bitIdx =
      decide (lastSet sets bitIdx = some 1) := by
  rw [bitAt_putAll, bitAt_clearBytes _ _ _ _ _ (Nat.le_add_right _ _) (by omega),
    ← List.map_reverse, List.find?_map, lastSet]
  change ((Option.map _ (sets.reverse.find? fun set => decide (set.1 = bitIdx))).map _).getD _ = _
  cases sets.reverse.find? fun set => decide (set.1 = bitIdx) with
  | none => rfl
  | some set => simp only [Option.map_some, Option.getD_some, Option.some.injEq]

/-- A test after a set reads the value at the index of the set, and the old bit elsewhere. -/
theorem bitAt_putBit_iff (i j : Nat) (value : Int) :
    bitAt (putBit memory btmp.bits i (decide (value = 1))) btmp.bits j = true ↔
      (j = i ∧ value = 1) ∨ (j ≠ i ∧ bitAt memory btmp.bits j = true) := by
  rw [bitAt_putBit]
  by_cases same : j = i
  · simp only [same, Function.update_self, decide_eq_true_eq, true_and, ne_eq, not_true_eq_false,
      false_and, or_false]
  · simp only [same, Function.update_of_ne same, false_and, ne_eq, not_false_eq_true, true_and,
      false_or]

theorem bitmapSets_comm {first second : Nat × Int} (firstOk : btmp.Accepts first)
    (secondOk : btmp.Accepts second) (apart : first.1 ≠ second.1) :
    (bitmapSets btmp [second, first] : Path Fenced Unit).run (btmp.fence memory) =
      (bitmapSets btmp [first, second] : Path Fenced Unit).run (btmp.fence memory) := by
  have exchanged := @putBit_comm memory btmp.bits _ _ (Ne.symm apart) (decide (second.2 = 1))
    (decide (first.2 = 1))
  rw [bitmapSets_fence btmp memory (List.forall_mem_cons.mpr
      ⟨secondOk, List.forall_mem_singleton.mpr firstOk⟩),
    bitmapSets_fence btmp memory (List.forall_mem_cons.mpr
      ⟨firstOk, List.forall_mem_singleton.mpr secondOk⟩)]
  exact congrArg (fun after => Except.ok ((), btmp.fence after)) exchanged

/-- **A bitmap is an array of bits.** A test after a set reads the value at the index of the
set and the old bit elsewhere, and the set changes no byte but that of its bit. Sets of
different bits commute. After the initialisation and any sets, a test reads the value of the
last set, or zero. No call looks outside of the bitmap. -/
theorem bitmap_laws (btmp : Bitmap) (memory : Memory) :
    (∀ i j : Nat, ∀ value : Int, btmp.Accepts (i, value) → j < 8 * btmp.btmpBytesLen →
      ∃ after before tested,
        (bitmapSet btmp i value : Path Fenced Unit).run (btmp.fence memory) =
          .ok ((), btmp.fence after) ∧
        (bitmapScanTest btmp j : Path Fenced Bool).run (btmp.fence memory) =
          .ok (before, btmp.fence memory) ∧
        (bitmapScanTest btmp j : Path Fenced Bool).run (btmp.fence after) =
          .ok (tested, btmp.fence after) ∧
        (tested = true ↔ (j = i ∧ value = 1) ∨ (j ≠ i ∧ before = true)) ∧
        ∀ addr, addr ≠ btmp.bits + i / 8 → after addr = memory addr) ∧
    (∀ first second : Nat × Int, btmp.Accepts first → btmp.Accepts second →
      first.1 ≠ second.1 →
      ∃ after,
        (bitmapSets btmp [first, second] : Path Fenced Unit).run (btmp.fence memory) =
          .ok ((), btmp.fence after) ∧
        (bitmapSets btmp [second, first] : Path Fenced Unit).run (btmp.fence memory) =
          .ok ((), btmp.fence after)) ∧
    (btmp.bits ≠ 0 → ∀ sets : List (Nat × Int), (∀ set ∈ sets, btmp.Accepts set) →
      ∃ after,
        (do bitmapInit btmp; bitmapSets btmp sets : Path Fenced Unit).run (btmp.fence memory) =
          .ok ((), btmp.fence after) ∧
        ∀ j < 8 * btmp.btmpBytesLen,
          (bitmapScanTest btmp j : Path Fenced Bool).run (btmp.fence after) =
            .ok (decide (lastSet sets j = some 1), btmp.fence after)) := by
  refine ⟨?_, ?_, ?_⟩
  · rintro i j value ⟨inside, bit⟩ within
    refine ⟨putBit memory btmp.bits i (decide (value = 1)), bitAt memory btmp.bits j, _,
      bitmapSet_fence btmp memory inside bit, bitmapScanTest_fence btmp memory within,
      bitmapScanTest_fence btmp _ within, bitAt_putBit_iff btmp memory i j value, ?_⟩
    intro addr other
    exact putBit_of_ne _ _ _ _ _ other
  · intro first second firstOk secondOk apart
    have ran := bitmapSets_fence btmp memory (List.forall_mem_cons.mpr
      ⟨firstOk, List.forall_mem_singleton.mpr secondOk⟩)
    exact ⟨_, ran, (bitmapSets_comm btmp memory firstOk secondOk apart).trans ran⟩
  · intro present sets accepted
    have ran : (do bitmapInit btmp; bitmapSets btmp sets : Path Fenced Unit).run
        (btmp.fence memory) = _ :=
      (Path.run_bind_of_ok (bitmapInit_fence btmp memory present)).trans
        (bitmapSets_fence btmp _ accepted)
    refine ⟨_, ran, ?_⟩
    intro j inside
    rw [bitmapScanTest_fence btmp _ inside, bitAt_sets btmp memory sets inside]

end Fence

/-- A bitmap of two bytes. -/
def twoBytes : Bitmap := ⟨2, 0x100⟩

/-- The two bytes hold ones. Bit 9 is cleared in one run; in another one bits 3 and 9 are
set, in either order; in a third one, after the initialisation, bit 3 is set and cleared
again. -/
theorem bitmap_laws_twoBytes :
    (∃ after, (bitmapSet twoBytes 9 0 : Path Fenced Unit).run (twoBytes.fence fun _ => 0xff) =
        .ok ((), twoBytes.fence after) ∧
      (bitmapScanTest twoBytes 8 : Path Fenced Bool).run (twoBytes.fence after) =
        .ok (true, twoBytes.fence after) ∧ after 0x100 = 0xff) ∧
      (∃ after,
        (bitmapSets twoBytes [(3, 1), (9, 1)] : Path Fenced Unit).run
          (twoBytes.fence fun _ => 0xff) = .ok ((), twoBytes.fence after) ∧
        (bitmapSets twoBytes [(9, 1), (3, 1)] : Path Fenced Unit).run
          (twoBytes.fence fun _ => 0xff) = .ok ((), twoBytes.fence after)) ∧
      ∃ after,
        (do bitmapInit twoBytes; bitmapSets twoBytes [(3, 1), (9, 1), (3, 0)] :
          Path Fenced Unit).run (twoBytes.fence fun _ => 0xff) =
            .ok ((), twoBytes.fence after) ∧
        (bitmapScanTest twoBytes 3 : Path Fenced Bool).run (twoBytes.fence after) =
          .ok (false, twoBytes.fence after) := by
  obtain ⟨alone, pairs, runs⟩ := bitmap_laws twoBytes fun _ => 0xff
  obtain ⟨after, before, tested, ran, read, test, law, kept⟩ :=
    alone 9 8 0 ⟨by decide, by decide⟩ (by decide)
  have was : before = true := by
    cases (bitmapScanTest_fence twoBytes (fun _ => 0xff) (by decide)).symm.trans read
    rfl
  have set : tested = true := law.mpr (.inr ⟨by decide, was⟩)
  refine ⟨⟨after, ran, set ▸ test, kept 0x100 (by decide)⟩, ?_, ?_⟩
  · exact pairs (3, 1) (9, 1) ⟨by decide, by decide⟩ ⟨by decide, by decide⟩ (by decide)
  · have accepted : ∀ set ∈ [((3, 1) : Nat × Int), (9, 1), (3, 0)], twoBytes.Accepts set := by
      unfold Bitmap.Accepts
      decide
    obtain ⟨after, ran, tests⟩ := runs (by decide) _ accepted
    exact ⟨after, ran, tests 3 (by decide)⟩

end OsElephant
