import Mathlib.Algebra.Order.Ring.Int
import Mathlib.Data.List.Induction
import Mathlib.Logic.Function.Basic
import Mathlib.Tactic.Push
import Mathlib.Tactic.SplitIfs

/-!
# Byte-addressed memory

Memory is a function from addresses to bytes. Doublewords are little-endian and
a bitmap is read bit by bit, least significant bit of each byte first. The
lemmas state what one store changes and what it leaves alone.
-/

namespace Machine

/-- One byte of memory. -/
abbrev Byte := BitVec 8

/-- Byte-addressed memory. -/
abbrev Memory := Nat → Byte

/-- The little-endian doubleword at an address. -/
def read32 (memory : Memory) (addr : Nat) : Nat :=
  (memory addr).toNat + 256 * (memory (addr + 1)).toNat +
    65536 * (memory (addr + 2)).toNat + 16777216 * (memory (addr + 3)).toNat

/-- Store a doubleword in little-endian order. -/
def write32 (memory : Memory) (addr value : Nat) : Memory := fun query =>
  if addr ≤ query ∧ query < addr + 4 then BitVec.ofNat 8 (value / 256 ^ (query - addr))
  else memory query

/-- The little-endian word at an address. -/
def read16 (memory : Memory) (addr : Nat) : Nat :=
  (memory addr).toNat + 256 * (memory (addr + 1)).toNat

/-- Store a word in little-endian order. -/
def write16 (memory : Memory) (addr value : Nat) : Memory := fun query =>
  if addr ≤ query ∧ query < addr + 2 then BitVec.ofNat 8 (value / 256 ^ (query - addr))
  else memory query

/-- Bit `index` of the bit string that starts at byte `base`. -/
def bitAt (memory : Memory) (base index : Nat) : Bool :=
  (memory (base + index / 8)).getLsbD (index % 8)

/-- A doubleword depends on its own four bytes only. -/
theorem read32_congr {first second : Memory} {addr : Nat}
    (same : ∀ query, addr ≤ query → query < addr + 4 → first query = second query) :
    read32 first addr = read32 second addr := by
  unfold read32
  rw [same addr (by omega) (by omega), same (addr + 1) (by omega) (by omega),
    same (addr + 2) (by omega) (by omega), same (addr + 3) (by omega) (by omega)]

theorem write32_of_outside (memory : Memory) (addr value query : Nat)
    (outside : query < addr ∨ addr + 4 ≤ query) :
    write32 memory addr value query = memory query := by
  have apart : ¬ (addr ≤ query ∧ query < addr + 4) := by omega
  simp only [write32, apart, ↓reduceIte]

theorem read32_write32 (memory : Memory) (addr value : Nat) (bounded : value < 2 ^ 32) :
    read32 (write32 memory addr value) addr = value := by
  have byte (offset : Nat) (inside : offset < 4) :
      (write32 memory addr value (addr + offset)).toNat = value / 256 ^ offset % 256 := by
    have within : addr ≤ addr + offset ∧ addr + offset < addr + 4 := by omega
    simp only [write32, within, and_self, ↓reduceIte, Nat.add_sub_cancel_left,
      BitVec.toNat_ofNat, Nat.reducePow]
  have first := byte 0 (by omega)
  simp only [Nat.add_zero] at first
  simp only [read32, first, byte 1 (by omega), byte 2 (by omega), byte 3 (by omega)]
  omega

/-- A doubleword stored elsewhere is a copy of its four bytes. -/
theorem write32_read32 (memory : Memory) (source target query : Nat)
    (inside : target ≤ query ∧ query < target + 4) :
    write32 memory target (read32 memory source) query = memory (source + (query - target)) := by
  rw [write32, if_pos inside]
  obtain ⟨offset, rfl⟩ := Nat.exists_eq_add_of_le inside.1
  rw [Nat.add_sub_cancel_left]
  have byte (addr : Nat) : (memory addr).toNat < 256 := (memory addr).isLt
  have first := byte source
  have second := byte (source + 1)
  have third := byte (source + 2)
  have fourth := byte (source + 3)
  apply BitVec.eq_of_toNat_eq
  rw [BitVec.toNat_ofNat, read32]
  obtain rfl | rfl | rfl | rfl : offset = 0 ∨ offset = 1 ∨ offset = 2 ∨ offset = 3 := by omega
  all_goals simp only [Nat.add_zero, Nat.reducePow]; omega

/-- A store leaves the doublewords that do not overlap it alone. -/
theorem read32_write32_of_apart (memory : Memory) (addr value other : Nat)
    (apart : other + 4 ≤ addr ∨ addr + 4 ≤ other) :
    read32 (write32 memory addr value) other = read32 memory other :=
  read32_congr fun query lower upper => write32_of_outside _ _ _ _ (by omega)

theorem write16_of_outside (memory : Memory) (addr value query : Nat)
    (outside : query < addr ∨ addr + 2 ≤ query) :
    write16 memory addr value query = memory query := by
  have apart : ¬ (addr ≤ query ∧ query < addr + 2) := by omega
  simp only [write16, apart, ↓reduceIte]

theorem read16_write16 (memory : Memory) (addr value : Nat) (bounded : value < 2 ^ 16) :
    read16 (write16 memory addr value) addr = value := by
  have low : addr ≤ addr ∧ addr < addr + 2 := by omega
  have high : addr ≤ addr + 1 ∧ addr + 1 < addr + 2 := by omega
  simp only [read16, write16, low, high, and_self, ↓reduceIte, Nat.sub_self,
    Nat.add_sub_cancel_left, BitVec.toNat_ofNat, Nat.reducePow]
  omega

theorem read16_congr {first second : Memory} {addr : Nat}
    (same : ∀ query, addr ≤ query → query < addr + 2 → first query = second query) :
    read16 first addr = read16 second addr := by
  unfold read16
  rw [same addr (by omega) (by omega), same (addr + 1) (by omega) (by omega)]

theorem bitAt_congr {first second : Memory} {base index : Nat}
    (same : first (base + index / 8) = second (base + index / 8)) :
    bitAt first base index = bitAt second base index := by
  simp only [bitAt, same]

theorem and_mask_ne_zero (byte : Byte) (bit : Nat) :
    (byte &&& (1#8 <<< bit)) ≠ 0#8 ↔ byte.getLsbD bit = true := by
  rw [← BitVec.twoPow_eq, BitVec.and_twoPow]
  by_cases inside : bit < 8
  · cases set : byte.getLsbD bit with
    | false => simp
    | true =>
        simp only [↓reduceIte, ne_eq, iff_true]
        intro zero
        have cleared := congrArg (fun word : Byte => word.getLsbD bit) zero
        simp [inside] at cleared
  · have beyond : byte.getLsbD bit = false := BitVec.getLsbD_of_ge _ _ (by omega)
    simp [beyond]

/-- Or-ing a one-bit mask into a byte sets that bit and keeps the others. -/
theorem getLsbD_or_mask (byte : Byte) (bit query : Nat) (inside : bit < 8) :
    (byte ||| (1#8 <<< bit)).getLsbD query = (byte.getLsbD query || decide (bit = query)) := by
  rw [← BitVec.twoPow_eq, BitVec.getLsbD_or, BitVec.getLsbD_twoPow]
  simp [inside]

/-- And-ing the complement of a one-bit mask into a byte clears that bit and keeps the others. -/
theorem getLsbD_and_not_mask (byte : Byte) (bit query : Nat) (inside : bit < 8) :
    (byte &&& ~~~(1#8 <<< bit)).getLsbD query = (byte.getLsbD query && !decide (bit = query)) := by
  rw [← BitVec.twoPow_eq, BitVec.getLsbD_and, BitVec.getLsbD_not, BitVec.getLsbD_twoPow]
  by_cases beyond : query < 8
  · simp only [beyond, inside, decide_true, Bool.true_and]
  · rw [BitVec.getLsbD_of_ge _ _ (Nat.le_of_not_lt beyond), Bool.false_and, Bool.false_and]

theorem getLsbD_full (bit : Nat) (inside : bit < 8) : (0xff#8).getLsbD bit = true := by
  have every : ∀ bit : Fin 8, (0xff#8).getLsbD bit.val = true := by decide
  exact every ⟨bit, inside⟩

theorem exists_clear_bit (byte : Byte) (partly : byte ≠ 0xff#8) :
    ∃ bit < 8, byte.getLsbD bit = false := by
  by_contra full
  push Not at full
  apply partly
  apply BitVec.eq_of_getLsbD_eq
  intro bit inside
  have set : byte.getLsbD bit = true := by simpa using full bit inside
  rw [set, getLsbD_full bit inside]

/-- Set bit `index` of the bit string that starts at byte `base`. -/
def setBit (memory : Memory) (base index : Nat) : Memory :=
  Function.update memory (base + index / 8) (memory (base + index / 8) ||| (1#8 <<< (index % 8)))

theorem setBit_of_ne (memory : Memory) (base index query : Nat)
    (other : query ≠ base + index / 8) : setBit memory base index query = memory query :=
  Function.update_of_ne other _ _

/-- Setting a bit changes no other bit of the string. -/
theorem bitAt_setBit (memory : Memory) (base index query : Nat) :
    bitAt (setBit memory base index) base query =
      (bitAt memory base query || decide (query = index)) := by
  by_cases sameByte : query / 8 = index / 8
  · have slot : base + query / 8 = base + index / 8 := by rw [sameByte]
    simp only [bitAt, setBit, slot, Function.update_self]
    rw [getLsbD_or_mask _ _ _ (Nat.mod_lt _ (by decide))]
    congr 1
    rw [decide_eq_decide]
    omega
  · have slot : base + query / 8 ≠ base + index / 8 := by omega
    have other : query ≠ index := fun same => sameByte (by rw [same])
    simp only [bitAt, setBit, Function.update_of_ne slot, other, decide_false, Bool.or_false]

/-- Give bit `index` of the bit string that starts at byte `base` a value. -/
def putBit (memory : Memory) (base index : Nat) (value : Bool) : Memory :=
  Function.update memory (base + index / 8)
    (if value then memory (base + index / 8) ||| (1#8 <<< (index % 8))
      else memory (base + index / 8) &&& ~~~(1#8 <<< (index % 8)))

theorem putBit_of_ne (memory : Memory) (base index query : Nat) (value : Bool)
    (other : query ≠ base + index / 8) : putBit memory base index value query = memory query :=
  Function.update_of_ne other _ _

/-- On the bits, `putBit` is the update of a function. -/
theorem bitAt_putBit (memory : Memory) (base index : Nat) (value : Bool) :
    bitAt (putBit memory base index value) base =
      Function.update (bitAt memory base) index value := by
  funext query
  by_cases sameByte : query / 8 = index / 8
  · have slot : base + query / 8 = base + index / 8 := by rw [sameByte]
    have odd : index % 8 < 8 := Nat.mod_lt _ (by decide)
    have place : index % 8 = query % 8 ↔ query = index := by omega
    simp only [bitAt, putBit, slot, Function.update_self, Function.update_apply]
    cases value with
    | false =>
        simp only [Bool.false_eq_true, ↓reduceIte, getLsbD_and_not_mask _ _ _ odd, place]
        by_cases same : query = index
        · simp only [same, decide_true, Bool.not_true, Bool.and_false, ↓reduceIte]
        · simp only [same, decide_false, Bool.not_false, Bool.and_true, ↓reduceIte]
    | true =>
        simp only [↓reduceIte, getLsbD_or_mask _ _ _ odd, place]
        by_cases same : query = index
        · simp only [same, decide_true, Bool.or_true, ↓reduceIte]
        · simp only [same, decide_false, Bool.or_false, ↓reduceIte]
  · have slot : base + query / 8 ≠ base + index / 8 := by omega
    have other : query ≠ index := fun same => sameByte (by rw [same])
    rw [Function.update_of_ne other]
    exact bitAt_congr (putBit_of_ne _ _ _ _ _ slot)

/-- The bits from a byte on, and the bytes before it, determine a memory. -/
theorem eq_of_bitAt {first second : Memory} {base : Nat}
    (below : ∀ query < base, first query = second query)
    (bits : bitAt first base = bitAt second base) : first = second := by
  funext query
  by_cases before : query < base
  · exact below query before
  · obtain ⟨offset, rfl⟩ := Nat.exists_eq_add_of_le (Nat.le_of_not_lt before)
    apply BitVec.eq_of_getLsbD_eq
    intro bit inside
    have same := congrFun bits (8 * offset + bit)
    have byte : (8 * offset + bit) / 8 = offset := by omega
    have odd : (8 * offset + bit) % 8 = bit := by omega
    rwa [bitAt, bitAt, byte, odd] at same

theorem putBit_comm (memory : Memory) {base first second : Nat} (apart : first ≠ second)
    (value other : Bool) :
    putBit (putBit memory base first value) base second other =
      putBit (putBit memory base second other) base first value := by
  apply @eq_of_bitAt _ _ base
  · intro query below
    have outside (index : Nat) : query ≠ base + index / 8 := by omega
    simp only [putBit_of_ne _ _ _ _ _ (outside _)]
  · simp only [bitAt_putBit]
    exact Function.update_comm apart _ _ _

/-- Give bits of the string their values, one after the other. -/
def putAll (memory : Memory) (base : Nat) (sets : List (Nat × Bool)) : Memory :=
  sets.foldl (fun memory set => putBit memory base set.1 set.2) memory

/-- A bit has the value it was given last, or the one it had. -/
theorem bitAt_putAll (memory : Memory) (base : Nat) (sets : List (Nat × Bool)) (query : Nat) :
    bitAt (putAll memory base sets) base query =
      ((sets.reverse.find? fun set => set.1 = query).map Prod.snd).getD
        (bitAt memory base query) := by
  induction sets using List.reverseRecOn with
  | nil => rfl
  | append_singleton sets set ih =>
      rw [putAll, List.foldl_append, List.foldl_cons, List.foldl_nil, bitAt_putBit,
        List.reverse_append, List.reverse_singleton, List.singleton_append, List.find?_cons]
      by_cases here : set.1 = query
      · simp only [here, Function.update_self, decide_true, Option.map_some, Option.getD_some]
      · rw [Function.update_of_ne (Ne.symm here)]
        simp only [here, decide_false]
        exact ih

/-- Set `count` bits from bit `start` on. -/
def setBits (memory : Memory) (base start : Nat) : Nat → Memory
  | 0 => memory
  | count + 1 => setBits (setBit memory base start) base (start + 1) count

theorem setBits_of_outside (memory : Memory) (base start count query : Nat)
    (outside : query < base + start / 8 ∨ base + (start + count + 7) / 8 ≤ query) :
    setBits memory base start count query = memory query := by
  induction count generalizing memory start with
  | zero => rfl
  | succ count ih =>
      rw [setBits, ih _ _ (by omega), setBit_of_ne _ _ _ _ (by omega)]

theorem bitAt_setBits (memory : Memory) (base start count query : Nat) :
    bitAt (setBits memory base start count) base query =
      (bitAt memory base query || decide (start ≤ query ∧ query < start + count)) := by
  induction count generalizing memory start with
  | zero =>
      have outside : ¬ (start ≤ query ∧ query < start + 0) := by omega
      simp only [setBits, outside, decide_false, Bool.or_false]
  | succ count ih =>
      rw [setBits, ih, bitAt_setBit, Bool.or_assoc, ← Bool.decide_or]
      congr 1
      rw [decide_eq_decide]
      omega

/-- Clear `count` bytes from `start` on. -/
def clearBytes (memory : Memory) (start count : Nat) : Memory := fun query =>
  if start ≤ query ∧ query < start + count then 0 else memory query

theorem clearBytes_of_outside (memory : Memory) (start count query : Nat)
    (outside : query < start ∨ start + count ≤ query) :
    clearBytes memory start count query = memory query :=
  if_neg (by omega)

theorem clearBytes_zero (memory : Memory) (start : Nat) : clearBytes memory start 0 = memory := by
  funext query
  exact clearBytes_of_outside _ _ _ _ (by omega)

/-- The first byte and the ones behind it. -/
theorem clearBytes_succ (memory : Memory) (start count : Nat) :
    clearBytes (Function.update memory start 0) (start + 1) count =
      clearBytes memory start (count + 1) := by
  funext query
  simp only [clearBytes]
  by_cases here : query = start
  · subst here
    rw [if_neg (by omega), if_pos (by omega), Function.update_self]
  · rw [Function.update_of_ne here]
    congr 1
    rw [eq_iff_iff]
    omega

theorem bitAt_clearBytes (memory : Memory) (start count base index : Nat)
    (lower : start ≤ base + index / 8) (upper : base + index / 8 < start + count) :
    bitAt (clearBytes memory start count) base index = false := by
  have cleared : clearBytes memory start count (base + index / 8) = 0#8 :=
    if_pos ⟨lower, upper⟩
  simp only [bitAt, cleared, BitVec.getLsbD_zero]

end Machine
