import LearningKernels.Machine.BlockCopy
import LearningKernels.OsElephant.InterruptReturn

/-!
# Placing the kernel's segments

`kernel_init` of `loader.S` walks the program headers of the ELF image at `0x70000` and
calls `mem_cpy` for each one that is not `PT_NULL`. Arguments, return addresses and the
outer loop's counter go over the stack, in memory that a copy could reach; a return to
another place than behind the call is the end of the run. Memory is flat, as the loader
sees it. One round of the loop is described by `OsElephant.Cpu.segmentRound_spec`.
-/

namespace OsElephant

open Machine

/-- `KERNEL_BIN_BASE_ADDR`. -/
def kernelBinBaseAddr : BitVec 32 := 0x70000

/-- `PT_NULL`. -/
def ptNull : BitVec 8 := 0

/-- The little-endian word at an address. -/
def loadHalf (ram : Ram) (addr : BitVec 32) : BitVec 16 := ram (addr + 1#32) ++ ram (addr + 0#32)

namespace Cpu

/-- `mov dx, value`. -/
def movDx (value : BitVec 16) (cpu : Cpu) : Cpu :=
  { cpu with regs := { cpu.regs with edx := cpu.regs.edx.extractLsb' 16 16 ++ value } }

/-- `mov cx, value`. -/
def movCx (value : BitVec 16) (cpu : Cpu) : Cpu :=
  { cpu with regs := { cpu.regs with ecx := cpu.regs.ecx.extractLsb' 16 16 ++ value } }

/-- `mov eax, value`. -/
def movEax (value : BitVec 32) (cpu : Cpu) : Cpu :=
  { cpu with regs := { cpu.regs with eax := value } }

/-- `cld`. The direction flag is bit 10. -/
def cld (cpu : Cpu) : Cpu :=
  { cpu with regs := { cpu.regs with eflags := cpu.regs.eflags &&& ~~~0x400#32 } }

/-- `movsb`, in the direction the flag gives. -/
def movsb (cpu : Cpu) : Cpu :=
  let step := if cpu.regs.eflags.getLsbD 10 then -1#32 else 1#32
  { cpu with
    regs := { cpu.regs with esi := cpu.regs.esi + step, edi := cpu.regs.edi + step }
    ram := Function.update cpu.ram cpu.regs.edi (cpu.ram cpu.regs.esi) }

/-- `rep movsb` with `count` in `ecx`. -/
def repMovsb : (count : Nat) → Cpu → Cpu
  | 0, cpu => cpu
  | count + 1, cpu =>
      let cpu := cpu.movsb
      repMovsb count { cpu with regs := { cpu.regs with ecx := cpu.regs.ecx - 1#32 } }

/-- `ret`. -/
def ret (cpu : Cpu) : Cpu :=
  let (eip, cpu) := cpu.pop
  { cpu with regs := { cpu.regs with eip } }

/-- `mem_cpy`. -/
def memCpy (cpu : Cpu) : Cpu :=
  let cpu := cpu.cld
  let cpu := cpu.push cpu.regs.ebp
  let cpu := { cpu with regs := { cpu.regs with ebp := cpu.regs.esp } }
  let cpu := cpu.push cpu.regs.ecx
  let cpu := { cpu with regs := { cpu.regs with edi := loadWord cpu.ram (cpu.regs.ebp + 8#32) } }
  let cpu := { cpu with regs := { cpu.regs with esi := loadWord cpu.ram (cpu.regs.ebp + 12#32) } }
  let cpu := { cpu with regs := { cpu.regs with ecx := loadWord cpu.ram (cpu.regs.ebp + 16#32) } }
  let cpu := cpu.repMovsb cpu.regs.ecx.toNat
  let (ecx, cpu) := cpu.pop
  let cpu := { cpu with regs := { cpu.regs with ecx } }
  let (ebp, cpu) := cpu.pop
  let cpu := { cpu with regs := { cpu.regs with ebp } }
  cpu.ret

/-- The arguments of `mem_cpy`, from the header at `ebx`. -/
def pushArguments (cpu : Cpu) : Cpu :=
  let cpu := cpu.push (loadWord cpu.ram (cpu.regs.ebx + 16#32))
  let cpu := cpu.movEax (loadWord cpu.ram (cpu.regs.ebx + 4#32))
  let cpu := cpu.movEax (cpu.regs.eax + kernelBinBaseAddr)
  let cpu := cpu.push cpu.regs.eax
  cpu.push (loadWord cpu.ram (cpu.regs.ebx + 8#32))

/-- `add ebx, edx`. -/
def addEbxEdx (cpu : Cpu) : Cpu :=
  { cpu with regs := { cpu.regs with ebx := cpu.regs.ebx + cpu.regs.edx } }

/-- The decrement of `loop`. -/
def decEcx (cpu : Cpu) : Cpu :=
  { cpu with regs := { cpu.regs with ecx := cpu.regs.ecx - 1#32 } }

/-- `.each_segment` up to its `loop`. The instruction behind the call is at `afterCopy`. -/
def segmentRound (afterCopy : BitVec 32) (cpu : Cpu) : Option Cpu :=
  if cpu.ram (cpu.regs.ebx + 0#32) = ptNull then
    some cpu.addEbxEdx
  else
    let cpu := cpu.pushArguments
    let cpu := (cpu.push afterCopy).memCpy
    if cpu.regs.eip = afterCopy then
      some (cpu.addEsp 12#32).addEbxEdx
    else none

/-- `.each_segment`. The counter comes back from the stack, so the rounds are bounded by fuel
only. -/
def eachSegment (afterCopy : BitVec 32) : (fuel : Nat) → Cpu → Option Cpu
  | 0, _ => none
  | fuel + 1, cpu => do
      let cpu ← cpu.segmentRound afterCopy
      let cpu := cpu.decEcx
      if cpu.regs.ecx = 0 then some cpu else eachSegment afterCopy fuel cpu

/-- `kernel_init`. -/
def kernelInit (afterCopy : BitVec 32) (fuel : Nat) (cpu : Cpu) : Option Cpu := do
  let cpu := { cpu with regs := { cpu.regs with eax := 0, ebx := 0, ecx := 0, edx := 0 } }
  let cpu := cpu.movDx (loadHalf cpu.ram (kernelBinBaseAddr + 42#32))
  let cpu := { cpu with
    regs := { cpu.regs with ebx := loadWord cpu.ram (kernelBinBaseAddr + 28#32) } }
  let cpu := { cpu with regs := { cpu.regs with ebx := cpu.regs.ebx + kernelBinBaseAddr } }
  let cpu := cpu.movCx (loadHalf cpu.ram (kernelBinBaseAddr + 44#32))
  let cpu ← cpu.eachSegment afterCopy fuel
  some cpu.ret

variable {cpu : Cpu}

/-- With the flag clear `rep movsb` is the byte loop. -/
theorem repMovsb_eq (count : Nat) (forward : cpu.regs.eflags.getLsbD 10 = false) :
    cpu.repMovsb count = { cpu with
      regs := { cpu.regs with
        ecx := cpu.regs.ecx - BitVec.ofNat 32 count
        esi := cpu.regs.esi + BitVec.ofNat 32 count
        edi := cpu.regs.edi + BitVec.ofNat 32 count }
      ram := copyUp count cpu.regs.esi cpu.regs.edi cpu.ram } := by
  induction count generalizing cpu with
  | zero => simp only [repMovsb, copyUp, BitVec.add_zero, BitVec.sub_zero]
  | succ count ih =>
      have down : cpu.regs.ecx - 1#32 - BitVec.ofNat 32 count =
          cpu.regs.ecx - BitVec.ofNat 32 (count + 1) := by bv_omega
      have up (start : BitVec 32) :
          start + 1#32 + BitVec.ofNat 32 count = start + BitVec.ofNat 32 (count + 1) := by bv_omega
      rw [repMovsb, ih (by simpa only [movsb] using forward)]
      simp only [movsb, forward, Bool.false_eq_true, ↓reduceIte, down, up, copyUp]

/-- `cld` clears the flag. -/
theorem cld_forward (cpu : Cpu) : cpu.cld.regs.eflags.getLsbD 10 = false := by
  have clear : (~~~0x400#32).getLsbD 10 = false := by decide
  rw [cld, BitVec.getLsbD_and, clear, Bool.and_false]

/-- What a call of `mem_cpy` leaves, from the state at its first instruction on. -/
structure MemCpyDone (back target source : BitVec 32) (count : Nat) (before after : Cpu) :
    Prop where
  eip : after.regs.eip = back
  esp : after.regs.esp = before.regs.esp + 4#32
  ebx : after.regs.ebx = before.regs.ebx
  ecx : after.regs.ecx = before.regs.ecx
  edx : after.regs.edx = before.regs.edx
  ram : ∀ addr ∉ Span (before.regs.esp - 8#32) 8,
    after.ram addr = overlay before.ram source target count before.ram addr

/-- Memory once `mem_cpy` has saved `ebp` and `ecx`. -/
def savedRam (cpu : Cpu) : Ram := ([cpu.regs.ecx, cpu.regs.ebp].foldr push cpu).ram

/-- Memory behind its `rep movsb`. -/
def copiedRam (cpu : Cpu) : Ram :=
  copyUp (loadWord cpu.savedRam (cpu.regs.esp - 4#32 + 16#32)).toNat
    (loadWord cpu.savedRam (cpu.regs.esp - 4#32 + 12#32))
    (loadWord cpu.savedRam (cpu.regs.esp - 4#32 + 8#32)) cpu.savedRam

/-- `mem_cpy` takes its arguments from the saved memory, and what it pops from the copied
one. -/
theorem memCpy_eq (cpu : Cpu) :
    cpu.memCpy.ram = cpu.copiedRam ∧
    cpu.memCpy.regs.ebx = cpu.regs.ebx ∧ cpu.memCpy.regs.edx = cpu.regs.edx ∧
    cpu.memCpy.regs.esp = cpu.regs.esp - 4#32 - 4#32 + 4#32 + 4#32 + 4#32 ∧
    cpu.memCpy.regs.ecx = loadWord cpu.copiedRam (cpu.regs.esp - 4#32 - 4#32) ∧
    cpu.memCpy.regs.eip =
      loadWord cpu.copiedRam (cpu.regs.esp - 4#32 - 4#32 + 4#32 + 4#32) := by
  simp only [memCpy, pop, ret, addEsp, push]
  rw [repMovsb_eq]
  · simp only [cld, copiedRam, savedRam, push, List.foldr_cons, List.foldr_nil, and_self]
  · exact cpu.cld_forward

theorem savedRam_of_outside {addr : BitVec 32} (far : addr ∉ Span (cpu.regs.esp - 8#32) 8) :
    cpu.savedRam addr = cpu.ram addr := by
  rw [mem_span] at far
  simp only [savedRam, List.foldr_cons, List.foldr_nil, push]
  rw [storeWord_of_outside (by bv_omega), storeWord_of_outside (by bv_omega)]

theorem argument_slot (esp offset : BitVec 32) : esp - 4#32 + (4#32 + offset) = esp + offset := by
  rw [← BitVec.add_assoc, BitVec.sub_add_cancel]

/-- **`mem_cpy` copies.** The source is apart from the target and neither meets the words
that the copy needs on the stack. -/
theorem memCpy_spec {back target source count : BitVec 32}
    (holds : cpu.Holds [back, target, source, count])
    (apart : Disjoint (Span source count.toNat) (Span target count.toNat))
    (sourceClear : Disjoint (Span source count.toNat) (Span (cpu.regs.esp - 8#32) 8))
    (targetClear : Disjoint (Span target count.toNat) (Span (cpu.regs.esp - 8#32) 24)) :
    MemCpyDone back target source count.toNat cpu cpu.memCpy := by
  have frame : Stacked cpu.savedRam (cpu.regs.esp - 4#32 - 4#32)
      [cpu.regs.ecx, cpu.regs.ebp, back, target, source, count] :=
    holds.pushAll [cpu.regs.ecx, cpu.regs.ebp] (by simp)
  have copied : cpu.copiedRam =
      overlay cpu.savedRam source target count.toNat cpu.savedRam := by
    obtain ⟨-, -, -, loadTarget, loadSource, loadCount, -⟩ := frame
    simp only [BitVec.sub_add_cancel, BitVec.add_assoc, BitVec.reduceAdd]
      at loadTarget loadSource loadCount
    rw [← argument_slot cpu.regs.esp 4#32] at loadTarget
    rw [← argument_slot cpu.regs.esp 8#32] at loadSource
    rw [← argument_slot cpu.regs.esp 12#32] at loadCount
    simp only [BitVec.reduceAdd] at loadTarget loadSource loadCount
    rw [copiedRam, loadTarget, loadSource, loadCount]
    exact copyUp_eq_overlay (Nat.le_of_lt count.isLt) apart
  have kept : Stacked cpu.copiedRam (cpu.regs.esp - 4#32 - 4#32)
      [cpu.regs.ecx, cpu.regs.ebp, back, target, source, count] := by
    apply frame.congr
    intro offset inside
    rw [copied]
    apply overlay_of_not_mem
    intro hit
    apply Set.disjoint_left.mp targetClear hit
    rw [List.length_cons, List.length_cons, List.length_cons, List.length_cons, List.length_cons,
      List.length_singleton] at inside
    rw [mem_span]
    bv_omega
  obtain ⟨popEcx, -, popEip, -⟩ := kept
  obtain ⟨ram, ebx, edx, esp, ecx, eip⟩ := cpu.memCpy_eq
  refine ⟨eip.trans popEip, esp.trans (by rw [BitVec.sub_add_cancel, BitVec.sub_add_cancel]), ebx,
    ecx.trans popEcx, edx, ?_⟩
  intro addr far
  rw [ram, copied]
  by_cases inside : addr ∈ Span target count.toNat
  · have read : source + (addr - target) ∈ Span source count.toNat := add_mem_span inside
    rw [overlay_of_mem inside, overlay_of_mem inside,
      savedRam_of_outside (Set.disjoint_left.mp sourceClear read)]
  · rw [overlay_of_not_mem inside, overlay_of_not_mem inside, savedRam_of_outside far]

end Cpu

/-- The fields of a program header that say where its segment is and where it goes. -/
structure ProgramHeader where
  pType : BitVec 32
  pOffset : BitVec 32
  pVaddr : BitVec 32
  pFilesz : BitVec 32
  pMemsz : BitVec 32
  deriving DecidableEq, Repr

/-- The program header at an address. -/
def programHeader (ram : Ram) (addr : BitVec 32) : ProgramHeader where
  pType := loadWord ram (addr + 0#32)
  pOffset := loadWord ram (addr + 4#32)
  pVaddr := loadWord ram (addr + 8#32)
  pFilesz := loadWord ram (addr + 16#32)
  pMemsz := loadWord ram (addr + 20#32)

namespace ProgramHeader

/-- The low byte of `p_type`, all that the loader looks at, is not `PT_NULL`. -/
def Copied (header : ProgramHeader) : Prop := header.pType.setWidth 8 ≠ ptNull

instance (header : ProgramHeader) : Decidable header.Copied :=
  inferInstanceAs (Decidable (_ ≠ _))

/-- The bytes of the segment in the image. -/
def source (header : ProgramHeader) : Set (BitVec 32) :=
  Span (header.pOffset + kernelBinBaseAddr) header.pFilesz.toNat

/-- `[p_vaddr, p_vaddr + p_filesz)`. -/
def target (header : ProgramHeader) : Set (BitVec 32) :=
  Span header.pVaddr header.pFilesz.toNat

/-- `[p_vaddr, p_vaddr + p_memsz)`. -/
def extent (header : ProgramHeader) : Set (BitVec 32) :=
  Span header.pVaddr header.pMemsz.toNat

/-- Memory once the segment of one header is in its place. -/
def place (image ram : Ram) (header : ProgramHeader) : Ram :=
  if header.Copied then
    overlay image (header.pOffset + kernelBinBaseAddr) header.pVaddr header.pFilesz.toNat ram
  else ram

end ProgramHeader

/-- The doublewords below the stack pointer that the loop uses, and the return address of
`kernel_init` at it. -/
def stackArea (esp : BitVec 32) : Set (BitVec 32) := Span (esp - 24#32) 28

/-- A header whose segment can be copied out of `image` without damage to it or to the
stack. -/
structure Clear (image : Set (BitVec 32)) (esp : BitVec 32) (header : ProgramHeader) : Prop where
  source : header.source ⊆ image
  image : Disjoint header.target image
  stack : Disjoint header.target (stackArea esp)

theorem loadWord_low (ram : Ram) (addr : BitVec 32) :
    (loadWord ram addr).setWidth 8 = ram (addr + 0#32) := by
  rw [loadWord]
  exact BitVec.setWidth_append_eq_right

namespace Cpu

variable {cpu : Cpu}

/-- What one round of `.each_segment` leaves. -/
structure RoundDone (image : Ram) (header : ProgramHeader) (before after : Cpu) : Prop where
  esp : after.regs.esp = before.regs.esp
  ebx : after.regs.ebx = before.regs.ebx + before.regs.edx
  ecx : after.regs.ecx = before.regs.ecx
  edx : after.regs.edx = before.regs.edx
  ram : ∀ addr ∉ Span (before.regs.esp - 24#32) 24,
    after.ram addr = header.place image before.ram addr

theorem pushAll_esp (pushed : List (BitVec 32)) (cpu : Cpu) :
    (pushed.foldr push cpu).regs.esp = cpu.regs.esp - BitVec.ofNat 32 (4 * pushed.length) := by
  induction pushed with
  | nil => exact (BitVec.sub_zero _).symm
  | cons word rest ih =>
      rw [List.foldr_cons, push_regs, ih, List.length_cons]
      bv_omega

/-- Pushing up to `depth` bytes changes memory in the `depth` bytes below the stack pointer
only. -/
theorem pushAll_ram_of_outside {pushed : List (BitVec 32)} {depth : Nat} {addr : BitVec 32}
    (short : 4 * pushed.length ≤ depth) (bound : depth < 2 ^ 32)
    (far : addr ∉ Span (cpu.regs.esp - BitVec.ofNat 32 depth) depth) :
    (pushed.foldr push cpu).ram addr = cpu.ram addr := by
  induction pushed with
  | nil => rfl
  | cons word rest ih =>
      rw [List.length_cons] at short
      rw [List.foldr_cons, push, pushAll_esp, ← ih (by omega)]
      apply storeWord_of_outside
      rw [mem_span] at far
      bv_omega

theorem movEax_esp (value : BitVec 32) (cpu : Cpu) :
    (cpu.movEax value).regs.esp = cpu.regs.esp := rfl

/-- The detour over `eax` in front of the pushes. -/
theorem arguments_of_loads (filesz offset base vaddr : BitVec 32) (cpu : Cpu) :
    (let cpu := (cpu.push filesz).movEax offset
     let cpu := cpu.movEax (cpu.regs.eax + base)
     let cpu := cpu.push cpu.regs.eax
     cpu.push vaddr) = [vaddr, offset + base, filesz].foldr push (cpu.movEax (offset + base)) := rfl

/-- The arguments are the fields of the header as the image has it. -/
theorem pushArguments_eq {image : Ram} {inside : Set (BitVec 32)}
    (agree : ∀ addr ∈ inside, cpu.ram addr = image addr)
    (apart : Disjoint inside (stackArea cpu.regs.esp))
    (table : Span cpu.regs.ebx 32 ⊆ inside) :
    let header := programHeader image cpu.regs.ebx
    cpu.pushArguments = [header.pVaddr, header.pOffset + kernelBinBaseAddr, header.pFilesz].foldr
      push (cpu.movEax (header.pOffset + kernelBinBaseAddr)) := by
  have field (pushed : List (BitVec 32)) (short : 4 * pushed.length ≤ 24) (offset : Nat)
      (within : offset + 4 ≤ 32) :
      loadWord (pushed.foldr push cpu).ram (cpu.regs.ebx + BitVec.ofNat 32 offset) =
        loadWord image (cpu.regs.ebx + BitVec.ofNat 32 offset) := by
    apply loadWord_congr
    intro query close
    have here : query ∈ inside := table (span_subset (by decide) within close)
    rw [← agree query here]
    apply @pushAll_ram_of_outside cpu pushed 24 query short (by decide)
    intro hit
    exact Set.disjoint_left.mp apart here (span_mono (by decide) hit)
  have filesz : loadWord cpu.ram (cpu.regs.ebx + 16#32) =
      (programHeader image cpu.regs.ebx).pFilesz := field [] (by decide) 16 (by decide)
  have offset (word : BitVec 32) :
      loadWord (cpu.push word).ram ((cpu.push word).regs.ebx + 4#32) =
        (programHeader image cpu.regs.ebx).pOffset := field [word] (by simp) 4 (by decide)
  have vaddr (size first second word : BitVec 32) :
      let pushed := (((cpu.push size).movEax first).movEax second).push word
      loadWord pushed.ram (pushed.regs.ebx + 8#32) = (programHeader image cpu.regs.ebx).pVaddr :=
    field [word, size] (by simp) 8 (by decide)
  simp only [pushArguments, filesz, offset, vaddr]
  exact arguments_of_loads _ _ _ _ cpu

/-- The call of `mem_cpy` puts a segment in its place and comes back. -/
theorem callMemCpy_spec (afterCopy : BitVec 32) {image : Ram} {inside : Set (BitVec 32)}
    {header : ProgramHeader} (agree : ∀ addr ∈ inside, cpu.ram addr = image addr)
    (apart : Disjoint inside (stackArea cpu.regs.esp)) (copied : header.Copied)
    (clear : Clear inside cpu.regs.esp header) :
    let call := [afterCopy, header.pVaddr, header.pOffset + kernelBinBaseAddr,
      header.pFilesz].foldr push cpu
    ∃ after, (if call.memCpy.regs.eip = afterCopy then
        some (call.memCpy.addEsp 12#32).addEbxEdx
      else none) = some after ∧ RoundDone image header cpu after := by
  intro call
  have start : cpu.Holds [] := trivial
  have holds : call.Holds _ := start.pushAll [afterCopy, header.pVaddr,
    header.pOffset + kernelBinBaseAddr, header.pFilesz] (by simp)
  have esp : call.regs.esp = cpu.regs.esp - 16#32 := pushAll_esp _ cpu
  have below : call.regs.esp - 8#32 = cpu.regs.esp - 24#32 := by
    rw [esp]
    bv_omega
  have unpushed (addr : BitVec 32) (far : addr ∉ Span (cpu.regs.esp - 24#32) 24) :
      call.ram addr = cpu.ram addr :=
    pushAll_ram_of_outside (by simp) (by decide) far
  have within (size : Nat) (small : size ≤ 28) :
      Span (call.regs.esp - 8#32) size ⊆ stackArea cpu.regs.esp := by
    rw [below]
    exact span_mono small
  have done := memCpy_spec holds (clear.image.symm.mono_left clear.source)
    ((apart.mono_left clear.source).mono_right (within 8 (by decide)))
    (clear.stack.mono_right (within 24 (by decide)))
  generalize call.memCpy = after at done
  have regs : call.regs = { cpu.regs with esp := cpu.regs.esp - 16#32 } := by
    rw [← esp]
    rfl
  refine ⟨_, if_pos done.eip, ?_, ?_, done.ecx.trans ?_, done.edx.trans ?_, ?_⟩
  · change after.regs.esp + 12#32 = cpu.regs.esp
    rw [done.esp, esp]
    bv_omega
  · change after.regs.ebx + after.regs.edx = cpu.regs.ebx + cpu.regs.edx
    rw [done.ebx, done.edx, regs]
  · rw [regs]
  · rw [regs]
  · intro addr far
    change after.ram addr = _
    have narrow : addr ∉ Span (call.regs.esp - 8#32) 8 := by
      rw [below]
      exact fun close => far (span_mono (by decide) close)
    rw [done.ram addr narrow, ProgramHeader.place, if_pos copied]
    by_cases hit : addr ∈ Span header.pVaddr header.pFilesz.toNat
    · have read := clear.source (add_mem_span hit)
      have unstacked := Set.disjoint_left.mp apart read
      rw [overlay_of_mem hit, overlay_of_mem hit,
        unpushed _ fun close => unstacked (span_mono (by decide) close), agree _ read]
    · rw [overlay_of_not_mem hit, overlay_of_not_mem hit, unpushed addr far]

theorem RoundDone.of_movEax {image : Ram} {header : ProgramHeader} {value : BitVec 32}
    {after : Cpu} (done : RoundDone image header (cpu.movEax value) after) :
    RoundDone image header cpu after :=
  ⟨done.esp, done.ebx, done.ecx, done.edx, done.ram⟩

/-- **One round puts one segment in its place.** Off the stack nothing else changes. -/
theorem segmentRound_spec (afterCopy : BitVec 32) {image : Ram} {inside : Set (BitVec 32)}
    (agree : ∀ addr ∈ inside, cpu.ram addr = image addr)
    (apart : Disjoint inside (stackArea cpu.regs.esp))
    (table : Span cpu.regs.ebx 32 ⊆ inside)
    (clear : (programHeader image cpu.regs.ebx).Copied →
      Clear inside cpu.regs.esp (programHeader image cpu.regs.ebx)) :
    ∃ after, cpu.segmentRound afterCopy = some after ∧
      RoundDone image (programHeader image cpu.regs.ebx) cpu after := by
  have low : cpu.ram (cpu.regs.ebx + 0#32) =
      (programHeader image cpu.regs.ebx).pType.setWidth 8 := by
    rw [programHeader, loadWord_low, agree _ (table (add_mem_span (by decide))), BitVec.add_zero,
      BitVec.add_zero]
  by_cases copied : (programHeader image cpu.regs.ebx).Copied
  · have arguments := pushArguments_eq agree apart table
    have call := @callMemCpy_spec
      (cpu.movEax ((programHeader image cpu.regs.ebx).pOffset + kernelBinBaseAddr)) afterCopy
      image inside (programHeader image cpu.regs.ebx)
    rw [movEax_esp] at call
    obtain ⟨after, ran, done⟩ := call agree apart copied (clear copied)
    refine ⟨after, ?_, done.of_movEax⟩
    rw [segmentRound, low, if_neg copied, arguments]
    exact ran
  · refine ⟨cpu.addEbxEdx, ?_, rfl, rfl, rfl, rfl, ?_⟩
    · rw [segmentRound, low, if_pos (not_not.mp copied)]
    · intro addr far
      rw [ProgramHeader.place, if_neg copied]
      rfl

end Cpu

end OsElephant
