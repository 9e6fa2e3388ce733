import LearningKernels.OsElephant.ArdsBuffer
import LearningKernels.OsElephant.DiskRead

/-!
# Memory detection without a map

When the BIOS fails to give the memory map, also after some of its entries, `loader.S` asks it
for two numbers with `0xe801`, and when that fails for one number with `0x88`. What is stored
is one megabyte and the pieces, in 32 bits: the second answer is always exact, the first one
below four gigabytes only (`OsElephant.detectTotal_reports`). The entries before the failure
are in the buffer of the map, which has room for twelve of them.
-/

namespace OsElephant

open Machine

namespace Cpu

/-- `mul cx`. -/
def mulCx (cpu : Cpu) : Cpu :=
  let product := cpu.regs.ax.setWidth 32 * cpu.regs.cx.setWidth 32
  (cpu.movAx (product.extractLsb' 0 16)).movDx (product.extractLsb' 16 16)

/-- `mul ecx`. -/
def mulEcx (cpu : Cpu) : Cpu :=
  let product := cpu.regs.eax.setWidth 64 * cpu.regs.ecx.setWidth 64
  { cpu with regs :=
    { cpu.regs with eax := product.extractLsb' 0 32, edx := product.extractLsb' 32 32 } }

/-- `mov edx, value`. -/
def movEdx (value : BitVec 32) (cpu : Cpu) : Cpu :=
  { cpu with regs := { cpu.regs with edx := value } }

/-- `mov ecx, value`. -/
def movEcx (value : BitVec 32) (cpu : Cpu) : Cpu :=
  { cpu with regs := { cpu.regs with ecx := value } }

/-- `mov ah, value`. -/
def movAh (value : BitVec 8) (cpu : Cpu) : Cpu :=
  cpu.movEax (cpu.regs.eax.extractLsb' 16 16 ++ value ++ cpu.regs.al)

/-- `bx`. -/
def bx16 (cpu : Cpu) : BitVec 16 := cpu.regs.ebx.setWidth 16

end Cpu

/-- A BIOS: the entries of its map until it ends or fails, and the carry flag and the registers
that `int 0x15` leaves for other functions. -/
structure Bios where
  entries : List Ards
  failed : Bool
  int15 : Cpu → Bool × Cpu

namespace Bios

/-- `.e801_failed_so_try88`. The carry flag leads to `.error_hlt`. -/
def e801FailedSoTry88 (bios : Bios) (cpu : Cpu) : Option Cpu :=
  let (carry, cpu) := bios.int15 (cpu.movAh 0x88)
  if carry then none
  else
    let cpu := cpu.movEax (cpu.regs.eax &&& 0x0000ffff)
    let cpu := cpu.movCx 0x400
    let cpu := cpu.mulCx
    let cpu := cpu.movEdx (cpu.regs.edx <<< 16)
    let cpu := cpu.movEdx (cpu.regs.edx ||| cpu.regs.eax)
    some (cpu.movEdx (cpu.regs.edx + 0x100000))

/-- `.e820_failed_so_try_e801`. -/
def e820FailedSoTryE801 (bios : Bios) (cpu : Cpu) : Option Cpu :=
  let (carry, cpu) := bios.int15 (cpu.movAx 0xe801)
  if carry then bios.e801FailedSoTry88 cpu
  else
    let cpu := cpu.movCx 0x400
    let cpu := cpu.mulCx
    let cpu := cpu.movEdx (cpu.regs.edx <<< 16)
    let cpu := cpu.movEax (cpu.regs.eax &&& 0x0000ffff)
    let cpu := cpu.movEdx (cpu.regs.edx ||| cpu.regs.eax)
    let cpu := cpu.movEdx (cpu.regs.edx + 0x100000)
    let cpu := cpu.movEsi cpu.regs.edx
    let cpu := cpu.movEax 0
    let cpu := cpu.movAx cpu.bx16
    let cpu := cpu.movEcx 0x10000
    let cpu := cpu.mulEcx
    let cpu := cpu.movEsi (cpu.regs.esi + cpu.regs.eax)
    some (cpu.movEdx cpu.regs.esi)

end Bios

/-- The lower half of a register. -/
theorem masked_eq (value : BitVec 32) : value &&& 0x0000ffff = 0#16 ++ value.setWidth 16 := by
  apply BitVec.eq_of_getLsbD_eq
  intro bit inside
  have mask : ∀ bit : Fin 32, (0x0000ffff : BitVec 32).getLsbD bit.val = decide (bit.val < 16) := by
    decide
  have masked := mask ⟨bit, inside⟩
  simp only at masked
  rw [BitVec.getLsbD_and, masked, BitVec.getLsbD_append, BitVec.getLsbD_setWidth,
    BitVec.getLsbD_zero]
  by_cases low : bit < 16
  · simp only [low, decide_true, Bool.and_true, Bool.true_and, ↓reduceIte]
  · simp only [low, decide_false, Bool.and_false, ↓reduceIte]

/-- The two halves of a product, put together again. -/
theorem halves_or (product : BitVec 32) (upper : BitVec 16) :
    (upper ++ product.extractLsb' 16 16) <<< 16 ||| (0#16 ++ product.extractLsb' 0 16) =
      product := by
  apply BitVec.eq_of_getLsbD_eq
  intro bit inside
  rw [BitVec.getLsbD_or, BitVec.getLsbD_shiftLeft, BitVec.getLsbD_append, BitVec.getLsbD_append,
    BitVec.getLsbD_extractLsb', BitVec.getLsbD_extractLsb', BitVec.getLsbD_zero]
  by_cases low : bit < 16
  · simp only [low, decide_true, Bool.not_true, Bool.and_false, Bool.false_and, Bool.true_and,
      Bool.false_or, Nat.zero_add, ↓reduceIte]
  · have within : bit - 16 < 16 := by omega
    have place : 16 + (bit - 16) = bit := by omega
    simp only [low, inside, within, place, decide_true, decide_false, Bool.not_false,
      Bool.true_and, Bool.or_false, ↓reduceIte]

/-- The halves of a register that is masked. -/
theorem halves_of_masked (value : BitVec 32) :
    (value &&& 0x0000ffff).setWidth 16 = value.setWidth 16 ∧
      (value &&& 0x0000ffff).extractLsb' 16 16 = 0#16 := by
  rw [masked_eq]
  exact ⟨Host.half_of_append _ _, BitVec.extractLsb'_append_eq_left⟩

/-- The lower half of the product with 64 kilobytes. -/
theorem lower_product (count : BitVec 16) :
    (((0 : BitVec 32).extractLsb' 16 16 ++ count).setWidth 64 *
      (0x10000 : BitVec 32).setWidth 64).extractLsb' 0 32 = count.setWidth 32 * 0x10000 := by
  have small := count.isLt
  have zero : (0 : BitVec 32).extractLsb' 16 16 = 0#16 := by decide
  have extended : (0#16 ++ count).toNat = count.toNat := by
    rw [BitVec.toNat_append, BitVec.toNat_ofNat, Nat.zero_mod, Nat.zero_shiftLeft, Nat.zero_or]
  rw [zero]
  apply BitVec.eq_of_toNat_eq
  simp only [BitVec.extractLsb'_toNat, Nat.shiftRight_zero, BitVec.toNat_mul,
    BitVec.toNat_setWidth, extended, BitVec.ofNat_eq_ofNat, BitVec.toNat_ofNat, Nat.reducePow,
    Nat.reduceMod]
  omega

section Answers

variable {bios : Bios} {cpu next : Cpu}

/-- The answer to `0x88`, in units of one kilobyte. -/
theorem e801FailedSoTry88_edx (answered : bios.int15 (cpu.movAh 0x88) = (false, next)) :
    ∃ after, bios.e801FailedSoTry88 cpu = some after ∧
      after.regs.edx = 0x100000 + next.regs.ax.setWidth 32 * 0x400 := by
  rw [Bios.e801FailedSoTry88, answered]
  refine ⟨_, rfl, ?_⟩
  obtain ⟨low, high⟩ := halves_of_masked next.regs.eax
  simp only [Cpu.movEdx, Cpu.movEax, Cpu.mulCx, Cpu.movAx, Cpu.movDx, Cpu.movCx, Context.ax,
    Context.cx, Host.half_of_append, low, high]
  have wide : (0x400 : BitVec 16).setWidth 32 = 0x400 := by decide
  rw [halves_or, BitVec.add_comm, wide]

/-- The answer to `0xe801`, in units of one kilobyte and of 64 kilobytes. -/
theorem e820FailedSoTryE801_edx (answered : bios.int15 (cpu.movAx 0xe801) = (false, next)) :
    ∃ after, bios.e820FailedSoTryE801 cpu = some after ∧
      after.regs.edx = 0x100000 + next.regs.ax.setWidth 32 * 0x400 +
        next.bx16.setWidth 32 * 0x10000 := by
  rw [Bios.e820FailedSoTryE801, answered]
  refine ⟨_, rfl, ?_⟩
  simp only [Cpu.movEdx, Cpu.movEax, Cpu.mulCx, Cpu.movAx, Cpu.movDx, Cpu.movCx, Cpu.movEsi,
    Cpu.movEcx, Cpu.mulEcx, Cpu.bx16, Context.ax, Context.cx, Host.half_of_append, masked_eq]
  have wide : (0x400 : BitVec 16).setWidth 32 = 0x400 := by decide
  rw [halves_or, lower_product, BitVec.add_comm _ (0x100000 : BitVec 32), wide]

theorem e820FailedSoTryE801_failed (failed : bios.int15 (cpu.movAx 0xe801) = (true, next)) :
    bios.e820FailedSoTryE801 cpu = bios.e801FailedSoTry88 next := by
  rw [Bios.e820FailedSoTryE801, failed]
  rfl

/-- What the fallbacks store, in bytes: `0xe801` answers in kilobytes and in units of 64
kilobytes, `0x88` in kilobytes. -/
inductive Answers (bios : Bios) (cpu : Cpu) : (total : Nat) → Prop
  | e801 {next : Cpu} (answered : bios.int15 (cpu.movAx 0xe801) = (false, next)) :
      Answers bios cpu (0x100000 + 1024 * next.regs.ax.toNat + 65536 * next.bx16.toNat)
  | ah88 {next last : Cpu} (failed : bios.int15 (cpu.movAx 0xe801) = (true, next))
      (answered : bios.int15 (next.movAh 0x88) = (false, last)) :
      Answers bios cpu (0x100000 + 1024 * last.regs.ax.toNat)

/-- What the registers hold is the total in 32 bits. -/
theorem toNat_total (kilobytes units : BitVec 16) :
    (0x100000 + kilobytes.setWidth 32 * 0x400 + units.setWidth 32 * 0x10000).toNat =
      (0x100000 + 1024 * kilobytes.toNat + 65536 * units.toNat) % 2 ^ 32 := by
  simp only [BitVec.toNat_add, BitVec.toNat_mul, BitVec.toNat_setWidth, BitVec.ofNat_eq_ofNat,
    BitVec.toNat_ofNat, Nat.reducePow, Nat.reduceMod]
  omega

/-- The fallbacks find the total in 32 bits. -/
theorem Answers.edx {total : Nat} (answers : Answers bios cpu total) :
    ∃ after, bios.e820FailedSoTryE801 cpu = some after ∧
      after.regs.edx.toNat = total % 2 ^ 32 := by
  cases answers with
  | e801 answered =>
      obtain ⟨after, ran, edx⟩ := e820FailedSoTryE801_edx answered
      exact ⟨after, ran, edx ▸ toNat_total _ _⟩
  | ah88 failed answered =>
      rw [e820FailedSoTryE801_failed failed]
      obtain ⟨after, ran, edx⟩ := e801FailedSoTry88_edx answered
      refine ⟨after, ran, ?_⟩
      rw [edx, ← BitVec.add_zero (0x100000 + _)]
      exact toNat_total _ 0

end Answers

end OsElephant
