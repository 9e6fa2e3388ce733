import Mathlib.Data.List.Induction
import Mathlib.Data.List.Pairwise
import LearningKernels.OsElephant.KernelInit

/-!
# The kernel in its place

What `kernel_init` makes of a whole table of program headers. Off the stack, memory ends up
as the segments laid over it in the order of the table
(`OsElephant.Cpu.kernelInit_spec`). Only the bytes of the file are ever written: the part of
a segment beyond `p_filesz` keeps what memory held before.
-/

namespace OsElephant

open Machine

/-- `e_phoff` of the image. -/
def ePhoff (ram : Ram) : BitVec 32 := loadWord ram (kernelBinBaseAddr + 28#32)

/-- `e_phentsize` of the image. -/
def ePhentsize (ram : Ram) : BitVec 16 := loadHalf ram (kernelBinBaseAddr + 42#32)

/-- `e_phnum` of the image. -/
def ePhnum (ram : Ram) : BitVec 16 := loadHalf ram (kernelBinBaseAddr + 44#32)

/-- Where the program header of an index is in memory. -/
def headerAddr (ram : Ram) (index : Nat) : BitVec 32 :=
  ePhoff ram + kernelBinBaseAddr + BitVec.ofNat 32 (index * (ePhentsize ram).toNat)

/-- The program headers of the image. -/
def programHeaders (ram : Ram) : List ProgramHeader :=
  (List.range (ePhnum ram).toNat).map fun index => programHeader ram (headerAddr ram index)

/-- The addresses of an image of `size` bytes. -/
def imageSpan (size : Nat) : Set (BitVec 32) := Span kernelBinBaseAddr size

/-- An ELF32 image of `size` bytes: the file header, the table of program headers and the
file ranges of the segments are inside, and a segment is no smaller in memory than in the
file. -/
structure ElfImage (ram : Ram) (size : Nat) : Prop where
  fits : kernelBinBaseAddr.toNat + size ≤ 2 ^ 32
  header : 52 ≤ size
  nonempty : 1 ≤ (ePhnum ram).toNat
  table : ∀ index < (ePhnum ram).toNat,
    (ePhoff ram).toNat + index * (ePhentsize ram).toNat + 32 ≤ size
  file : ∀ header ∈ programHeaders ram, header.Copied →
    header.pOffset.toNat + header.pFilesz.toNat ≤ size
  memsz : ∀ header ∈ programHeaders ram, header.Copied →
    header.pFilesz.toNat ≤ header.pMemsz.toNat

/-- The image, the loader and its stack are out of the way of every segment that is copied,
and the image out of the way of the stack. -/
structure Undisturbed (ram : Ram) (size : Nat) (loader : Set (BitVec 32)) (esp : BitVec 32) :
    Prop where
  image : Disjoint (imageSpan size) (stackArea esp)
  targetImage : ∀ header ∈ programHeaders ram, header.Copied →
    Disjoint header.target (imageSpan size)
  targetLoader : ∀ header ∈ programHeaders ram, header.Copied → Disjoint header.target loader
  targetStack : ∀ header ∈ programHeaders ram, header.Copied →
    Disjoint header.target (stackArea esp)

/-- Memory with the segments of a list of headers in their places. -/
def placeAll (image : Ram) (headers : List ProgramHeader) (ram : Ram) : Ram :=
  headers.foldl (fun ram header => header.place image ram) ram

instance (header : ProgramHeader) (addr : BitVec 32) : Decidable (addr ∈ header.target) :=
  inferInstanceAs (Decidable (addr ∈ Span _ _))

/-- Where the byte for an address of the segment is in memory. -/
def ProgramHeader.origin (header : ProgramHeader) (addr : BitVec 32) : BitVec 32 :=
  header.pOffset + kernelBinBaseAddr + (addr - header.pVaddr)

/-- The last header of a list that a byte is copied for. -/
def lastOver (headers : List ProgramHeader) (addr : BitVec 32) : Option ProgramHeader :=
  headers.reverse.find? fun header => header.Copied ∧ addr ∈ header.target

/-- Where the byte that ends up at an address was before. -/
def finalOrigin (headers : List ProgramHeader) (addr : BitVec 32) : BitVec 32 :=
  match lastOver headers addr with
  | some header => header.origin addr
  | none => addr

variable {ram : Ram} {headers : List ProgramHeader} {addr : BitVec 32}

/-- Later segments cover earlier ones. -/
theorem placeAll_eq (ram : Ram) (headers : List ProgramHeader) (addr : BitVec 32) :
    placeAll ram headers ram addr = ram (finalOrigin headers addr) := by
  induction headers using List.reverseRecOn with
  | nil => rfl
  | append_singleton rest header ih =>
      rw [placeAll] at ih
      rw [placeAll, List.foldl_append, List.foldl_cons, List.foldl_nil, finalOrigin, lastOver,
        List.reverse_append, List.reverse_singleton, List.singleton_append, List.find?_cons,
        ProgramHeader.place]
      by_cases copied : header.Copied
      · by_cases hit : addr ∈ header.target
        · simp only [copied, hit, and_self, decide_true, ↓reduceIte]
          exact overlay_of_mem hit
        · simp only [copied, hit, and_false, decide_false, ↓reduceIte]
          exact (overlay_of_not_mem hit).trans ih
      · simp only [copied, false_and, decide_false, ↓reduceIte]
        exact ih

theorem placeAll_of_outside
    (outside : ∀ header ∈ headers, header.Copied → addr ∉ header.target) :
    placeAll ram headers ram addr = ram addr := by
  have none : lastOver headers addr = none := by
    rw [lastOver, List.find?_eq_none]
    intro header member covers
    obtain ⟨copied, hit⟩ := of_decide_eq_true covers
    exact outside header (List.mem_reverse.mp member) copied hit
  rw [placeAll_eq, finalOrigin, none]

/-- Where the segments are apart, each has its own bytes. -/
theorem placeAll_of_mem
    (apart : (headers.filter fun header => header.Copied).Pairwise fun first second =>
      Disjoint first.target second.target)
    {header : ProgramHeader} (member : header ∈ headers) (copied : header.Copied)
    (hit : addr ∈ header.target) : placeAll ram headers ram addr = ram (header.origin addr) := by
  cases found : lastOver headers addr with
  | none =>
      rw [lastOver, List.find?_eq_none] at found
      exact absurd (decide_eq_true ⟨copied, hit⟩) (found header (List.mem_reverse.mpr member))
  | some last =>
      have search := found
      rw [lastOver] at search
      have covers := List.find?_some search
      obtain ⟨lastCopied, lastHit⟩ := of_decide_eq_true covers
      have lastMember := List.mem_reverse.mp (List.mem_of_find?_eq_some search)
      have symmetric : Std.Symm fun first second : ProgramHeader =>
          Disjoint first.target second.target := ⟨fun _ _ away => away.symm⟩
      have same : last = header := by
        by_contra different
        have away := apart.forall
          (List.mem_filter.mpr ⟨lastMember, decide_eq_true lastCopied⟩)
          (List.mem_filter.mpr ⟨member, decide_eq_true copied⟩) different
        exact Set.disjoint_left.mp away lastHit hit
      rw [placeAll_eq, finalOrigin, found, same]

namespace Cpu

variable {cpu start : Cpu} {size : Nat} {loader : Set (BitVec 32)}

/-- The state in front of the round for `index`. -/
structure AtHeader (start : Cpu) (index : Nat) (cpu : Cpu) : Prop where
  esp : cpu.regs.esp = start.regs.esp
  ebx : cpu.regs.ebx = headerAddr start.ram index
  ecx : cpu.regs.ecx = BitVec.ofNat 32 ((ePhnum start.ram).toNat - index)
  edx : cpu.regs.edx = (ePhentsize start.ram).setWidth 32
  ram : ∀ addr ∉ Span (start.regs.esp - 24#32) 24, cpu.ram addr =
    placeAll start.ram ((programHeaders start.ram).take index) start.ram addr

theorem mem_programHeaders {index : Nat} (more : index < (ePhnum ram).toNat) :
    programHeader ram (headerAddr ram index) ∈ programHeaders ram :=
  List.mem_map.mpr ⟨index, List.mem_range.mpr more, rfl⟩

theorem take_programHeaders {index : Nat} (more : index < (ePhnum ram).toNat) :
    (programHeaders ram).take (index + 1) =
      (programHeaders ram).take index ++ [programHeader ram (headerAddr ram index)] := by
  have bound : index < (programHeaders ram).length := by
    rw [programHeaders, List.length_map, List.length_range]
    exact more
  rw [List.take_succ_eq_append_getElem bound]
  simp only [programHeaders, List.getElem_map, List.getElem_range]

theorem headerAddr_succ (ram : Ram) (index : Nat) :
    headerAddr ram (index + 1) = headerAddr ram index + (ePhentsize ram).setWidth 32 := by
  rw [headerAddr, headerAddr, Nat.succ_mul, BitVec.ofNat_add, ← BitVec.add_assoc,
    BitVec.ofNat_toNat]

/-- The bytes of a header are in the image. -/
theorem span_headerAddr (elf : ElfImage ram size) {index : Nat}
    (more : index < (ePhnum ram).toNat) : Span (headerAddr ram index) 32 ⊆ imageSpan size := by
  have place : headerAddr ram index = kernelBinBaseAddr +
      BitVec.ofNat 32 ((ePhoff ram).toNat + index * (ePhentsize ram).toNat) := by
    rw [headerAddr, BitVec.ofNat_add, BitVec.ofNat_toNat, BitVec.setWidth_eq,
      BitVec.add_comm (ePhoff ram), BitVec.add_assoc]
  have fits := elf.fits
  rw [place]
  exact span_subset (by omega) (elf.table index more)

/-- A copied segment is read in the image and written off the image and the stack. -/
theorem clear_of_copied {esp : BitVec 32} (elf : ElfImage ram size)
    (undisturbed : Undisturbed ram size loader esp) {header : ProgramHeader}
    (member : header ∈ programHeaders ram) (copied : header.Copied) :
    Clear (imageSpan size) esp header := by
  have fits := elf.fits
  have inside := elf.file header member copied
  refine ⟨?_, undisturbed.targetImage header member copied,
    undisturbed.targetStack header member copied⟩
  have place : header.pOffset + kernelBinBaseAddr =
      kernelBinBaseAddr + BitVec.ofNat 32 header.pOffset.toNat := by
    rw [BitVec.ofNat_toNat, BitVec.setWidth_eq, BitVec.add_comm]
  rw [ProgramHeader.source, place]
  exact span_subset (by omega) inside

/-- The image stays as it is while its segments are copied. -/
theorem AtHeader.agree (undisturbed : Undisturbed start.ram size loader start.regs.esp)
    {index : Nat} (reached : AtHeader start index cpu) :
    ∀ addr ∈ imageSpan size, cpu.ram addr = start.ram addr := by
  intro addr inside
  have unstacked := Set.disjoint_left.mp undisturbed.image inside
  rw [reached.ram addr fun close => unstacked (span_mono (by decide) close)]
  apply placeAll_of_outside
  intro header member copied hit
  exact Set.disjoint_left.mp
    (undisturbed.targetImage header (List.mem_of_mem_take member) copied) hit inside

/-- One round goes from one header to the next. -/
theorem AtHeader.step (elf : ElfImage start.ram size)
    (undisturbed : Undisturbed start.ram size loader start.regs.esp) (afterCopy : BitVec 32)
    {index : Nat} (reached : AtHeader start index cpu) (more : index < (ePhnum start.ram).toNat) :
    ∃ after, cpu.segmentRound afterCopy = some after ∧ AtHeader start (index + 1) after.decEcx := by
  have member := mem_programHeaders more
  have apart := undisturbed.image
  rw [← reached.esp] at apart
  have round := @segmentRound_spec cpu afterCopy start.ram (imageSpan size)
    (reached.agree undisturbed) apart
  rw [reached.ebx, reached.esp] at round
  obtain ⟨after, ran, done⟩ := round (span_headerAddr elf more)
    (clear_of_copied elf undisturbed member)
  refine ⟨after, ran, ?_, ?_, ?_, ?_, ?_⟩
  · exact done.esp.trans reached.esp
  · exact done.ebx.trans (by rw [reached.ebx, reached.edx, headerAddr_succ])
  · change after.regs.ecx - 1#32 = _
    rw [done.ecx, reached.ecx]
    bv_omega
  · exact done.edx.trans reached.edx
  · intro addr far
    change after.ram addr = _
    have off : addr ∉ Span (cpu.regs.esp - 24#32) 24 := by
      rw [reached.esp]
      exact far
    rw [done.ram addr off, take_programHeaders more, placeAll, List.foldl_append,
      List.foldl_cons, List.foldl_nil, ProgramHeader.place, ProgramHeader.place]
    have before := reached.ram addr far
    split
    · simp only [overlay, before, placeAll]
    · exact before

/-- The loop ends behind the last header, after one round for each. -/
theorem AtHeader.run (elf : ElfImage start.ram size)
    (undisturbed : Undisturbed start.ram size loader start.regs.esp) (afterCopy : BitVec 32)
    {index remaining : Nat} (reached : AtHeader start index cpu)
    (rounds : index + remaining + 1 = (ePhnum start.ram).toNat) :
    ∃ after, (∀ fuel, remaining < fuel → cpu.eachSegment afterCopy fuel = some after) ∧
      AtHeader start (ePhnum start.ram).toNat after := by
  induction remaining generalizing index cpu with
  | zero =>
      obtain ⟨after, ran, next⟩ := reached.step elf undisturbed afterCopy (by omega)
      rw [Nat.add_zero] at rounds
      rw [rounds] at next
      have last : after.decEcx.regs.ecx = 0 := by
        rw [next.ecx, Nat.sub_self]
        rfl
      refine ⟨after.decEcx, ?_, next⟩
      intro fuel enough
      obtain ⟨fuel, rfl⟩ := Nat.exists_eq_add_one_of_ne_zero (Nat.ne_of_gt enough)
      simp only [eachSegment, ran, Option.bind_eq_bind, Option.bind_some, last, ↓reduceIte]
  | succ remaining ih =>
      obtain ⟨middle, ran, next⟩ := reached.step elf undisturbed afterCopy (by omega)
      obtain ⟨after, rest, finish⟩ := ih next (by omega)
      have again : middle.decEcx.regs.ecx ≠ 0 := by
        have bound := (ePhnum start.ram).isLt
        rw [next.ecx]
        bv_omega
      refine ⟨after, ?_, finish⟩
      intro fuel enough
      obtain ⟨fuel, rfl⟩ := Nat.exists_eq_add_one_of_ne_zero (Nat.ne_zero_of_lt enough)
      simp only [eachSegment, ran, Option.bind_eq_bind, Option.bind_some, again, ↓reduceIte]
      exact rest fuel (by omega)

/-- The registers that `kernel_init` sets up in front of the loop. -/
theorem atHeader_zero (cpu : Cpu) (eax : BitVec 32) :
    AtHeader cpu 0 { cpu with
      regs := { cpu.regs with
        eax
        ebx := ePhoff cpu.ram + kernelBinBaseAddr
        ecx := (0#32).extractLsb' 16 16 ++ ePhnum cpu.ram
        edx := (0#32).extractLsb' 16 16 ++ ePhentsize cpu.ram } } := by
  have extend (word : BitVec 16) : (0#32).extractLsb' 16 16 ++ word = word.setWidth 32 := by
    apply BitVec.eq_of_toNat_eq
    rw [BitVec.toNat_append, BitVec.toNat_setWidth, Nat.mod_eq_of_lt (by omega)]
    simp
  refine ⟨rfl, ?_, ?_, extend _, fun addr _ => rfl⟩
  · rw [headerAddr, Nat.zero_mul, BitVec.add_zero]
  · rw [Nat.sub_zero, BitVec.ofNat_toNat]
    exact extend _

/-- What `kernel_init` leaves. -/
structure Loaded (before after : Cpu) : Prop where
  eip : after.regs.eip = loadWord before.ram before.regs.esp
  esp : after.regs.esp = before.regs.esp + 4#32
  ram : ∀ addr ∉ stackArea before.regs.esp,
    after.ram addr = placeAll before.ram (programHeaders before.ram) before.ram addr

/-- **`kernel_init` puts every segment in its place and returns to its caller.** -/
theorem kernelInit_spec (elf : ElfImage cpu.ram size)
    (undisturbed : Undisturbed cpu.ram size loader cpu.regs.esp) (afterCopy : BitVec 32) :
    ∃ after, (∀ fuel, (ePhnum cpu.ram).toNat ≤ fuel → cpu.kernelInit afterCopy fuel = some after) ∧
      Loaded cpu after := by
  obtain ⟨remaining, count⟩ := Nat.exists_eq_add_of_le' elf.nonempty
  obtain ⟨done, ran, finish⟩ := (cpu.atHeader_zero 0).run elf undisturbed afterCopy
    (show 0 + remaining + 1 = _ by omega)
  have all : (programHeaders cpu.ram).take (ePhnum cpu.ram).toNat = programHeaders cpu.ram := by
    apply List.take_of_length_le
    rw [programHeaders, List.length_map, List.length_range]
  have memory := finish.ram
  rw [all] at memory
  refine ⟨done.ret, ?_, ?_, ?_, ?_⟩
  · intro fuel enough
    have loop := ran fuel (by omega)
    simp only [kernelInit, movDx, movCx, Option.bind_eq_bind]
    exact congrArg (fun result => Option.bind result fun cpu => some cpu.ret) loop
  · change loadWord done.ram done.regs.esp = _
    rw [finish.esp]
    apply loadWord_congr
    intro query close
    rw [mem_span] at close
    rw [memory query]
    · apply placeAll_of_outside
      intro header member copied hit
      apply Set.disjoint_left.mp (undisturbed.targetStack header member copied) hit
      rw [stackArea, mem_span]
      bv_omega
    · rw [mem_span]
      bv_omega
  · change done.regs.esp + 4#32 = _
    rw [finish.esp]
  · intro addr far
    exact memory addr fun close => far (span_mono (by decide) close)

/-- **The segments are copied, and nothing else is changed.** Every header whose type has a
low byte that is not zero counts, and the segments are apart in memory. -/
theorem kernelInit_copies_segments (elf : ElfImage cpu.ram size)
    (undisturbed : Undisturbed cpu.ram size loader cpu.regs.esp)
    (apart : ((programHeaders cpu.ram).filter fun header => header.Copied).Pairwise
      fun first second => Disjoint first.target second.target) (afterCopy : BitVec 32) :
    ∃ after,
      (∀ fuel, (ePhnum cpu.ram).toNat ≤ fuel → cpu.kernelInit afterCopy fuel = some after) ∧
      after.regs.eip = loadWord cpu.ram cpu.regs.esp ∧
      (∀ header ∈ programHeaders cpu.ram, header.Copied →
        ∀ offset < header.pFilesz.toNat,
          after.ram (header.pVaddr + BitVec.ofNat 32 offset) =
            cpu.ram (kernelBinBaseAddr + header.pOffset + BitVec.ofNat 32 offset)) ∧
      ∀ addr, addr ∉ stackArea cpu.regs.esp →
        (∀ header ∈ programHeaders cpu.ram, header.Copied → addr ∉ header.extent) →
        after.ram addr = cpu.ram addr := by
  obtain ⟨after, ran, loaded⟩ := kernelInit_spec elf undisturbed afterCopy
  refine ⟨after, ran, loaded.eip, ?_, ?_⟩
  · intro header member copied offset inside
    have hit : header.pVaddr + BitVec.ofNat 32 offset ∈ header.target := by
      apply add_mem_span
      rw [BitVec.toNat_ofNat]
      exact Nat.lt_of_le_of_lt (Nat.mod_le _ _) inside
    have unstacked := Set.disjoint_left.mp (undisturbed.targetStack header member copied) hit
    rw [loaded.ram _ unstacked, placeAll_of_mem apart member copied hit, ProgramHeader.origin,
      BitVec.add_comm header.pVaddr, BitVec.add_sub_cancel, BitVec.add_comm header.pOffset]
  · intro addr unstacked outside
    rw [loaded.ram addr unstacked]
    apply placeAll_of_outside
    intro header member copied hit
    exact outside header member copied (span_mono (elf.memsz header member copied) hit)

end Cpu

/-- An image with one segment of three bytes in the file and five in memory, and a `PT_NULL`
header behind it. The byte of memory behind the part in the file is not zero. -/
def sampleRam : Ram := fun addr =>
  ([(0x7001c, 0x34), (0x7002a, 0x20), (0x7002c, 2),
    (0x70034, 1), (0x70038, 0x80), (0x7003d, 0x15), (0x7003f, 0xc0), (0x70044, 3), (0x70048, 5),
    (0x70080, 0xaa), (0x70081, 0xbb), (0x70082, 0xcc),
    (0xc0001503, 0xff)].lookup addr).getD 0

/-- The processor in front of `kernel_init`, with the stack where the loader has it. -/
def sampleCpu : Cpu where
  regs :=
    { eax := 0, ecx := 0, edx := 0, ebx := 0, esp := 0xc00008fc, ebp := 0, esi := 0, edi := 0,
      ds := 0, es := 0, fs := 0, gs := 0, cs := 0, eip := 0, eflags := 0 }
  ram := sampleRam
  ports := []

/-- The code of the loader. -/
def loaderSpan : Set (BitVec 32) := Span 0xc0000900 0x800

theorem sampleHeaders :
    programHeaders sampleCpu.ram = [⟨1, 0x80, 0xc0001500, 3, 5⟩, ⟨0, 0, 0, 0, 0⟩] := by
  decide +kernel

theorem sample_elfImage : ElfImage sampleCpu.ram 0x100 where
  fits := by decide
  header := by decide
  nonempty := by decide +kernel
  table := by decide +kernel
  file := by
    rw [sampleHeaders]
    decide
  memsz := by
    rw [sampleHeaders]
    decide

/-- The image, the loader and the stack are away from the extent of the segment. -/
theorem sample_apart :
    Disjoint (imageSpan 0x100) (stackArea sampleCpu.regs.esp) ∧
      Disjoint (imageSpan 0x100) (Span 0xc0001500 5) ∧
      Disjoint loaderSpan (Span 0xc0001500 5) ∧
      Disjoint (stackArea sampleCpu.regs.esp) (Span 0xc0001500 5) := by
  refine ⟨?_, ?_, ?_, ?_⟩ <;> exact span_disjoint (by decide) (by decide)

theorem sample_undisturbed :
    Undisturbed sampleCpu.ram 0x100 loaderSpan sampleCpu.regs.esp := by
  obtain ⟨image, targetImage, targetLoader, targetStack⟩ := sample_apart
  have only (header : ProgramHeader) (member : header ∈ programHeaders sampleCpu.ram)
      (copied : header.Copied) : header.target ⊆ Span 0xc0001500 5 := by
    rw [sampleHeaders, List.mem_cons, List.mem_singleton] at member
    obtain rfl | rfl := member
    · exact span_mono (by decide)
    · exact absurd rfl copied
  exact ⟨image,
    fun header member copied => (targetImage.mono_right (only header member copied)).symm,
    fun header member copied => (targetLoader.mono_right (only header member copied)).symm,
    fun header member copied => (targetStack.mono_right (only header member copied)).symm⟩

/-- The sample is loaded as the theorem says. -/
theorem kernelInit_copies_sample :
    ∃ after,
      (∀ fuel, 2 ≤ fuel → sampleCpu.kernelInit 0 fuel = some after) ∧
      after.ram 0xc0001502 = 0xcc := by
  have apart : ((programHeaders sampleCpu.ram).filter fun header => header.Copied).Pairwise
      fun first second => Disjoint first.target second.target := by
    rw [sampleHeaders]
    exact List.pairwise_singleton _ _
  have count : (ePhnum sampleCpu.ram).toNat = 2 := by decide +kernel
  have member : (⟨1, 0x80, 0xc0001500, 3, 5⟩ : ProgramHeader) ∈ programHeaders sampleCpu.ram := by
    rw [sampleHeaders]
    exact List.mem_cons_self
  obtain ⟨after, ran, -, copied, -⟩ :=
    Cpu.kernelInit_copies_segments sample_elfImage sample_undisturbed apart 0
  rw [count] at ran
  refine ⟨after, ran, ?_⟩
  exact (copied _ member (by decide) 2 (by decide)).trans (by decide +kernel)

/-- `PT_LOAD`. -/
def ProgramHeader.IsLoad (header : ProgramHeader) : Prop := header.pType = 1

instance (header : ProgramHeader) : Decidable header.IsLoad :=
  inferInstanceAs (Decidable (_ = _))

/-- `[p_vaddr + p_filesz, p_vaddr + p_memsz)`. -/
def ProgramHeader.tail (header : ProgramHeader) : Set (BitVec 32) :=
  Span (header.pVaddr + header.pFilesz) (header.pMemsz.toNat - header.pFilesz.toNat)

/-- The segments of type `PT_LOAD` are apart in memory, and away from the image, the loader
and its stack. -/
structure LoadsApart (ram : Ram) (size : Nat) (loader : Set (BitVec 32)) (esp : BitVec 32) :
    Prop where
  image : Disjoint (imageSpan size) (stackArea esp)
  pairwise : ((programHeaders ram).filter fun header => header.IsLoad).Pairwise
    fun first second => Disjoint first.extent second.extent
  extentImage : ∀ header ∈ programHeaders ram, header.IsLoad →
    Disjoint header.extent (imageSpan size)
  extentLoader : ∀ header ∈ programHeaders ram, header.IsLoad → Disjoint header.extent loader
  extentStack : ∀ header ∈ programHeaders ram, header.IsLoad →
    Disjoint header.extent (stackArea esp)

/-- The headers of another type that the loader copies as well do not damage the image, the
loader or its stack. -/
def OthersClear (ram : Ram) (size : Nat) (loader : Set (BitVec 32)) (esp : BitVec 32) : Prop :=
  ∀ header ∈ programHeaders ram, header.Copied → ¬ header.IsLoad →
    Disjoint header.target (imageSpan size) ∧ Disjoint header.target loader ∧
      Disjoint header.target (stackArea esp)

/-- The part of each `PT_LOAD` segment that is not in the file holds zeros. -/
def ZeroFilled (before after : Cpu) : Prop :=
  ∀ header ∈ programHeaders before.ram, header.IsLoad → ∀ addr ∈ header.tail, after.ram addr = 0

theorem ProgramHeader.IsLoad.copied {header : ProgramHeader} (load : header.IsLoad) :
    header.Copied := by
  rw [IsLoad] at load
  rw [Copied, load]
  decide

theorem ProgramHeader.tail_subset {header : ProgramHeader}
    (memsz : header.pFilesz.toNat ≤ header.pMemsz.toNat) : header.tail ⊆ header.extent := by
  intro addr inside
  have bound := header.pMemsz.isLt
  rw [tail, mem_span] at inside
  rw [extent, mem_span]
  bv_omega

namespace Cpu

variable {cpu : Cpu} {size : Nat} {loader : Set (BitVec 32)}

theorem LoadsApart.undisturbed {esp : BitVec 32} (elf : ElfImage ram size)
    (loads : LoadsApart ram size loader esp) (others : OthersClear ram size loader esp) :
    Undisturbed ram size loader esp := by
  have within (header : ProgramHeader) (member : header ∈ programHeaders ram)
      (load : header.IsLoad) : header.target ⊆ header.extent :=
    span_mono (elf.memsz header member load.copied)
  refine ⟨loads.image, ?_, ?_, ?_⟩
  · intro header member copied
    by_cases load : header.IsLoad
    · exact (loads.extentImage header member load).mono_left (within header member load)
    · exact (others header member copied load).1
  · intro header member copied
    by_cases load : header.IsLoad
    · exact (loads.extentLoader header member load).mono_left (within header member load)
    · exact (others header member copied load).2.1
  · intro header member copied
    by_cases load : header.IsLoad
    · exact (loads.extentStack header member load).mono_left (within header member load)
    · exact (others header member copied load).2.2

/-- **Nothing is filled with zeros.** Where no header of another type is copied over the image,
the loader or its stack (`OthersClear`), the tail of the segments is zero exactly where the bytes
that end up there were zero before: what memory held, or, under a header of another type that is
copied over the tail, what the image holds for it. -/
theorem kernelInit_zeroFilled_iff (elf : ElfImage cpu.ram size)
    (loads : LoadsApart cpu.ram size loader cpu.regs.esp)
    (others : OthersClear cpu.ram size loader cpu.regs.esp) (afterCopy : BitVec 32) :
    ∃ after,
      (∀ fuel, (ePhnum cpu.ram).toNat ≤ fuel → cpu.kernelInit afterCopy fuel = some after) ∧
      (ZeroFilled cpu after ↔
        ∀ header ∈ programHeaders cpu.ram, header.IsLoad → ∀ addr ∈ header.tail,
          cpu.ram (finalOrigin (programHeaders cpu.ram) addr) = 0) := by
  obtain ⟨after, ran, loaded⟩ :=
    kernelInit_spec elf (LoadsApart.undisturbed elf loads others) afterCopy
  have final (header : ProgramHeader) (member : header ∈ programHeaders cpu.ram)
      (load : header.IsLoad) (addr : BitVec 32) (inside : addr ∈ header.tail) :
      after.ram addr = cpu.ram (finalOrigin (programHeaders cpu.ram) addr) := by
    have reach := ProgramHeader.tail_subset (elf.memsz header member load.copied) inside
    have unstacked := Set.disjoint_left.mp (loads.extentStack header member load) reach
    rw [loaded.ram addr unstacked, placeAll_eq]
  refine ⟨after, ran, ?_, ?_⟩
  · intro zero header member load addr inside
    rw [← final header member load addr inside]
    exact zero header member load addr inside
  · intro zero header member load addr inside
    rw [final header member load addr inside]
    exact zero header member load addr inside

end Cpu

theorem sample_loadsApart : LoadsApart sampleCpu.ram 0x100 loaderSpan sampleCpu.regs.esp := by
  obtain ⟨image, extentImage, extentLoader, extentStack⟩ := sample_apart
  have only (header : ProgramHeader) (member : header ∈ programHeaders sampleCpu.ram)
      (load : header.IsLoad) : header.extent = Span 0xc0001500 5 := by
    rw [sampleHeaders, List.mem_cons, List.mem_singleton] at member
    obtain rfl | rfl := member
    · rfl
    · exact absurd load (by decide)
  refine ⟨image, ?_, ?_, ?_, ?_⟩
  · rw [sampleHeaders]
    exact List.pairwise_singleton _ _
  · intro header member load
    rw [only header member load]
    exact extentImage.symm
  · intro header member load
    rw [only header member load]
    exact extentLoader.symm
  · intro header member load
    rw [only header member load]
    exact extentStack.symm

theorem sample_othersClear : OthersClear sampleCpu.ram 0x100 loaderSpan sampleCpu.regs.esp := by
  rw [OthersClear, sampleHeaders]
  intro header member copied other
  rw [List.mem_cons, List.mem_singleton] at member
  obtain rfl | rfl := member
  · exact absurd rfl other
  · exact absurd rfl copied

/-- The byte behind the part in the file, which was not zero before. -/
theorem sample_tail : ∃ header ∈ programHeaders sampleCpu.ram, header.IsLoad ∧
    (0xc0001503 : BitVec 32) ∈ header.tail ∧
      sampleCpu.ram (finalOrigin (programHeaders sampleCpu.ram) 0xc0001503) ≠ 0 := by
  refine ⟨⟨1, 0x80, 0xc0001500, 3, 5⟩, ?_, rfl, ?_, ?_⟩
  · rw [sampleHeaders]
    exact List.mem_cons_self
  · rw [ProgramHeader.tail, mem_span]
    decide
  · rw [sampleHeaders]
    decide +kernel

/-- The sample ends up with what memory held in the tail of its segment. -/
theorem kernelInit_keeps_garbage :
    ElfImage sampleCpu.ram 0x100 ∧
      LoadsApart sampleCpu.ram 0x100 loaderSpan sampleCpu.regs.esp ∧
      OthersClear sampleCpu.ram 0x100 loaderSpan sampleCpu.regs.esp ∧
      ∃ after, (∀ fuel, (ePhnum sampleCpu.ram).toNat ≤ fuel →
        sampleCpu.kernelInit 0 fuel = some after) ∧ ¬ ZeroFilled sampleCpu after := by
  refine ⟨sample_elfImage, sample_loadsApart, sample_othersClear, ?_⟩
  obtain ⟨after, ran, loaded⟩ := Cpu.kernelInit_spec sample_elfImage sample_undisturbed 0
  refine ⟨after, ran, ?_⟩
  intro zero
  obtain ⟨header, member, load, inside, garbage⟩ := sample_tail
  have unstacked : (0xc0001503 : BitVec 32) ∉ stackArea sampleCpu.regs.esp := by
    rw [stackArea, mem_span]
    decide
  have final := loaded.ram _ unstacked
  rw [placeAll_eq] at final
  rw [← final] at garbage
  exact garbage (zero header member load _ inside)

theorem kernelInit_zeroFilled_sample :
    ∃ after, (∀ fuel, (ePhnum sampleCpu.ram).toNat ≤ fuel →
      sampleCpu.kernelInit 0 fuel = some after) ∧ ¬ ZeroFilled sampleCpu after := by
  obtain ⟨after, ran, exactly⟩ :=
    Cpu.kernelInit_zeroFilled_iff sample_elfImage sample_loadsApart sample_othersClear 0
  refine ⟨after, ran, ?_⟩
  intro zero
  obtain ⟨header, member, load, inside, garbage⟩ := sample_tail
  exact garbage (exactly.mp zero header member load _ inside)

end OsElephant
