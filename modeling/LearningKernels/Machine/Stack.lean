import Mathlib.Algebra.Order.Ring.Int
import Mathlib.Logic.Function.Basic
import Mathlib.Tactic.SplitIfs

/-!
# Words on a stack

Byte memory over 32-bit addresses that wrap around, and a stack of doublewords in it that
grows towards lower addresses. `Machine.Stacked` lists the words from the top of the
stack on; a push puts a word in front and keeps the others, as long as they do not fill
the whole address space.
-/

namespace Machine

/-- Bytes at 32-bit addresses. -/
abbrev Ram := BitVec 32 → BitVec 8

/-- The little-endian doubleword at an address. -/
def loadWord (ram : Ram) (addr : BitVec 32) : BitVec 32 :=
  ram (addr + 3#32) ++ ram (addr + 2#32) ++ ram (addr + 1#32) ++ ram (addr + 0#32)

/-- Store a doubleword in little-endian order. -/
def storeWord (ram : Ram) (addr word : BitVec 32) : Ram := fun query =>
  if (query - addr).toNat < 4 then word.extractLsb' (8 * (query - addr).toNat) 8 else ram query

/-- The words on a stack, from its top on. -/
def Stacked (ram : Ram) : BitVec 32 → List (BitVec 32) → Prop
  | _, [] => True
  | top, word :: rest => loadWord ram top = word ∧ Stacked ram (top + 4#32) rest

variable {ram other : Ram} {top addr word : BitVec 32} {words : List (BitVec 32)}

theorem storeWord_of_inside {offset : BitVec 32} (inside : offset.toNat < 4) :
    storeWord ram addr word (addr + offset) = word.extractLsb' (8 * offset.toNat) 8 := by
  have distance : addr + offset - addr = offset := by rw [BitVec.add_comm, BitVec.add_sub_cancel]
  rw [storeWord, distance, if_pos inside]

theorem storeWord_of_outside {query : BitVec 32} (outside : 4 ≤ (query - addr).toNat) :
    storeWord ram addr word query = ram query := if_neg (Nat.not_lt.mpr outside)

theorem loadWord_storeWord (ram : Ram) (addr word : BitVec 32) :
    loadWord (storeWord ram addr word) addr = word := by
  rw [loadWord, storeWord_of_inside (by decide), storeWord_of_inside (by decide),
    storeWord_of_inside (by decide), storeWord_of_inside (by decide)]
  apply BitVec.eq_of_getLsbD_eq
  intro bit inside
  simp only [BitVec.getLsbD_append, BitVec.getLsbD_extractLsb']
  by_cases first : bit < 8
  · simp [first]
  by_cases second : bit < 16
  · have within : bit - 8 < 8 := by omega
    have place : 8 + (bit - 8) = bit := by omega
    simp [first, within, place]
  by_cases third : bit < 24
  · have beyond : ¬ bit - 8 < 8 := by omega
    have within : bit - 8 - 8 < 8 := by omega
    have place : 16 + (bit - 8 - 8) = bit := by omega
    simp [first, beyond, within, place]
  · have beyond : ¬ bit - 8 < 8 := by omega
    have further : ¬ bit - 8 - 8 < 8 := by omega
    have within : bit - 8 - 8 - 8 < 8 := by omega
    have place : 24 + (bit - 8 - 8 - 8) = bit := by omega
    simp [first, beyond, further, within, place]

theorem Stacked.congr (stacked : Stacked ram top words)
    (same : ∀ offset < 4 * words.length,
      other (top + BitVec.ofNat 32 offset) = ram (top + BitVec.ofNat 32 offset)) :
    Stacked other top words := by
  induction words generalizing top with
  | nil => trivial
  | cons word rest ih =>
      simp only [List.length_cons] at same
      obtain ⟨here, above⟩ := stacked
      constructor
      · rw [← here, loadWord, loadWord, same 3 (by omega), same 2 (by omega), same 1 (by omega),
          same 0 (by omega)]
      · apply ih above
        intro offset bound
        have shifted := same (4 + offset) (by omega)
        rwa [BitVec.ofNat_add, ← BitVec.add_assoc] at shifted

theorem Stacked.push (stacked : Stacked ram top words) (room : 4 * words.length < 2 ^ 32 - 4)
    (word : BitVec 32) :
    Stacked (storeWord ram (top - 4#32) word) (top - 4#32) (word :: words) := by
  constructor
  · exact loadWord_storeWord _ _ _
  · rw [BitVec.sub_add_cancel]
    apply stacked.congr
    intro offset bound
    apply storeWord_of_outside
    bv_omega

end Machine
