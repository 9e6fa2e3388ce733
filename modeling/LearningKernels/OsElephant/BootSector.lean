import LearningKernels.Machine.WriteSequence
import LearningKernels.OsElephant.DiskRead

/-!
# The boot sector reads the loader

`mbr.S` runs at `0x7c00` in real mode, with its data, its stack and its code in the segment that
starts at address 0. The buffer pointer of its `rd_disk_m_16` is `bx` and the counter `cx`. The
loader says why it uses `ebx` instead: behind `0xffff` the pointer starts again at 0, and what is
read may run over the stack. Here this is made exact for requests that do not run over the boot
sector itself (`OsElephant.Host.rdDiskM16_reads`). The boot sector clears the screen through the
firmware, shows its name, asks for four sectors at `0x900` and arrives in the loader
(`OsElephant.Host.mbr_enters_loader`). Interrupts that the firmware takes meanwhile are left out.
-/

namespace OsElephant

open Machine

/-- `LOADER_START_SECTOR`. -/
def loaderStartSector : BitVec 32 := 0x2

/-- `LOADER_BASE_ADDR`. -/
def loaderBaseAddr : BitVec 16 := 0x900

/-- The origin of section `MBR`. -/
def mbrOrigin : BitVec 32 := 0x7c00

/-- Where the boot sector is not followed any further: the drive is not ready yet, another
segment, a word over the end of the segment, a store into the boot sector, a return to another
place. -/
inductive RealModeStop where
  | busy
  | segment
  | segmentEnd
  | ownCode
  | elsewhere
  deriving DecidableEq, Repr

/-- What keeps a word from being stored at `pointer`. -/
def wordStop (segment pointer : BitVec 16) : Option RealModeStop :=
  if segment ≠ 0 then some .segment
  else if pointer = 0xffff then some .segmentEnd
  else if pointer.setWidth 32 ∈ Span mbrOrigin 512 ∨
      pointer.setWidth 32 + 1#32 ∈ Span mbrOrigin 512 then some .ownCode
  else none

namespace Context

/-- `bx`. -/
def bx (regs : Context) : BitVec 16 := regs.ebx.setWidth 16

/-- `sp`. -/
def sp (regs : Context) : BitVec 16 := regs.esp.setWidth 16

end Context

namespace Cpu

/-- `mov bx, value`. -/
def movBx (value : BitVec 16) (cpu : Cpu) : Cpu :=
  { cpu with regs := { cpu.regs with ebx := cpu.regs.ebx.extractLsb' 16 16 ++ value } }

/-- `mov sp, value`. -/
def movSp (value : BitVec 16) (cpu : Cpu) : Cpu :=
  { cpu with regs := { cpu.regs with esp := cpu.regs.esp.extractLsb' 16 16 ++ value } }

/-- `mov [bx], ax`. -/
def storeAx (cpu : Cpu) : Except RealModeStop Cpu :=
  match wordStop cpu.regs.ds cpu.regs.bx with
  | some stop => .error stop
  | none => .ok { cpu with ram := storeHalf cpu.ram (cpu.regs.bx.setWidth 32) cpu.regs.ax }

/-- `mov byte [gs:offset], value`. -/
def storeGs (offset : BitVec 16) (value : BitVec 8) (cpu : Cpu) : Cpu :=
  let addr := (cpu.regs.gs ++ 0#4).setWidth 32 + offset.setWidth 32
  { cpu with ram := Function.update cpu.ram addr value }

/-- `call`, with the address behind it. The stack is in the segment of the data. -/
def callNear (behind : BitVec 16) (cpu : Cpu) : Except RealModeStop Cpu :=
  let cpu := cpu.movSp (cpu.regs.sp - 2#16)
  match wordStop cpu.regs.ds cpu.regs.sp with
  | some stop => .error stop
  | none => .ok { cpu with ram := storeHalf cpu.ram (cpu.regs.sp.setWidth 32) behind }

/-- `jmp`. -/
def jmpNear (target : BitVec 16) (cpu : Cpu) : Cpu :=
  { cpu with regs := { cpu.regs with eip := target.setWidth 32 } }

/-- `ret` in real mode. -/
def retNear (cpu : Cpu) : Except RealModeStop Cpu :=
  if cpu.regs.ds ≠ 0 then .error .segment
  else if cpu.regs.sp = 0xffff then .error .segmentEnd
  else .ok ((cpu.jmpNear (loadHalf cpu.ram (cpu.regs.sp.setWidth 32))).movSp
    (cpu.regs.sp + 2#16))

/-- The segment registers and the stack pointer. -/
def loadSegments (cpu : Cpu) : Cpu :=
  let cpu := cpu.movAx cpu.regs.cs
  let cpu := { cpu with regs := { cpu.regs with ds := cpu.regs.ax } }
  let cpu := { cpu with regs := { cpu.regs with es := cpu.regs.ax } }
  let cpu := { cpu with regs := { cpu.regs with fs := cpu.regs.ax } }
  let cpu := cpu.movSp 0x7c00
  let cpu := cpu.movAx 0xb800
  { cpu with regs := { cpu.regs with gs := cpu.regs.ax } }

/-- The registers for function `0x06` of `int 0x10`. -/
def scrollScreen (cpu : Cpu) : Cpu :=
  let cpu := cpu.movAx 0x0600
  let cpu := cpu.movBx 0x0700
  let cpu := cpu.movCx 0
  { cpu with regs := { cpu.regs with edx := cpu.regs.edx.extractLsb' 16 16 ++ 0x184f#16 } }

/-- The name of the boot sector, in red on green. -/
def showName (cpu : Cpu) : Cpu :=
  let cpu := cpu.storeGs 0x00 '1'.toNat
  let cpu := cpu.storeGs 0x01 0xa4
  let cpu := cpu.storeGs 0x02 ' '.toNat
  let cpu := cpu.storeGs 0x03 0xa4
  let cpu := cpu.storeGs 0x04 'M'.toNat
  let cpu := cpu.storeGs 0x05 0xa4
  let cpu := cpu.storeGs 0x06 'B'.toNat
  let cpu := cpu.storeGs 0x07 0xa4
  let cpu := cpu.storeGs 0x08 'R'.toNat
  cpu.storeGs 0x09 0xa4

end Cpu

namespace Host

/-- One round of `.go_on_read` of `rd_disk_m_16`, with the decrement of `loop`. -/
def readRound16 (host : Host) : Except RealModeStop Host :=
  let host := host.inAxDx
  host.cpu.storeAx.map fun cpu =>
    let cpu := cpu.movBx (cpu.regs.bx + 2#16)
    { host with cpu := cpu.movCx (cpu.regs.cx - 1#16) }

theorem readRound16_cx {host next : Host} (round : host.readRound16 = .ok next) :
    next.cpu.regs.cx = host.cpu.regs.cx - 1#16 := by
  rw [readRound16, Cpu.storeAx] at round
  split at round
  · cases round
  · obtain rfl := Except.ok.inj round
    exact half_of_append _ _

/-- `.go_on_read`, in real mode. -/
def goOnRead16 (host : Host) : Except RealModeStop Host :=
  match _round : host.readRound16 with
  | .error stop => .error stop
  | .ok next => if next.cpu.regs.cx = 0 then .ok next else goOnRead16 next
termination_by (host.cpu.regs.cx - 1#16).toNat
decreasing_by
  next again =>
    rw [readRound16_cx _round] at again ⊢
    bv_omega

/-- `ret` of `rd_disk_m_16`. -/
def back16 (host : Host) : Except RealModeStop Host :=
  host.cpu.retNear.map fun cpu => { host with cpu }

/-- `rd_disk_m_16`. Up to its last loop it is `rd_disk_m_32`. -/
def rdDiskM16 (fuel : Nat) (host : Host) : Except RealModeStop Host :=
  match host.issueRead.notReady fuel with
  | none => .error .busy
  | some host => host.countWords.goOnRead16.bind back16

/-- `mbr.S` up to its `int 0x10`. -/
def atScreen (host : Host) : Host := (host.exec Cpu.loadSegments).exec Cpu.scrollScreen

/-- `mbr.S` up to the call of `rd_disk_m_16`. The firmware is `int10`. -/
def atCall (int10 : Cpu → Cpu) (host : Host) : Host :=
  let host := host.atScreen.exec int10
  let host := host.exec Cpu.showName
  let host := host.exec (Cpu.movEax loaderStartSector)
  let host := host.exec (Cpu.movBx loaderBaseAddr)
  host.exec (Cpu.movCx 4)

/-- `mbr.S`. The instruction behind its call is at `behind`. -/
def mbr (int10 : Cpu → Cpu) (behind : BitVec 16) (fuel : Nat) (host : Host) :
    Except RealModeStop Host := do
  let host := host.atCall int10
  let cpu ← host.cpu.callNear behind
  let host ← Host.rdDiskM16 fuel { host with cpu }
  if host.cpu.regs.eip = behind.setWidth 32 then
    .ok (host.exec (Cpu.jmpNear (loaderBaseAddr + 0x300)))
  else .error .elsewhere

section Ring

variable {ram : Ram} {base pointer : BitVec 16}

/-- Where a byte of the sectors goes. -/
def ringPlace (base : BitVec 16) (offset : Nat) : BitVec 32 :=
  (base + BitVec.ofNat 16 offset).setWidth 32

/-- A stored word as two writes. -/
theorem storeHalf_eq_update (addr : BitVec 32) (high low : BitVec 8) :
    storeHalf ram addr (high ++ low) =
      Function.update (Function.update ram addr low) (addr + 1#32) high := by
  funext query
  rw [storeHalf_append]
  by_cases second : query = addr + 1#32
  · have other : addr + 1#32 ≠ addr := by bv_omega
    rw [second, if_neg other, if_pos rfl, Function.update_self]
  · rw [if_neg second, Function.update_of_ne second]
    by_cases first : query = addr
    · rw [if_pos first, first, Function.update_self]
    · rw [if_neg first, Function.update_of_ne first]

/-- The second byte of a word in the segment. -/
theorem setWidth_add_one (inside : pointer ≠ 0xffff) :
    (pointer + 1#16).setWidth 32 = pointer.setWidth 32 + 1#32 := by
  have small : pointer.toNat < 65535 := by bv_omega
  apply BitVec.eq_of_toNat_eq
  simp only [BitVec.toNat_setWidth, BitVec.toNat_add, BitVec.toNat_ofNat]
  omega

theorem ringPlace_succ {words : Nat} (inside : base + BitVec.ofNat 16 (2 * words) ≠ 0xffff) :
    ringPlace base (2 * words + 1) = (base + BitVec.ofNat 16 (2 * words)).setWidth 32 + 1#32 := by
  rw [ringPlace, ← setWidth_add_one inside, BitVec.add_assoc]
  congr 2
  bv_omega

/-- One word of the sectors goes into the ring. -/
theorem writeAll_word {values : Nat → BitVec 8} {words : Nat}
    (inside : base + BitVec.ofNat 16 (2 * words) ≠ 0xffff) :
    storeHalf (writeAll (ringPlace base) values (2 * words) ram)
        ((base + BitVec.ofNat 16 (2 * words)).setWidth 32)
        (values (2 * words + 1) ++ values (2 * words)) =
      writeAll (ringPlace base) values (2 * (words + 1)) ram := by
  rw [storeHalf_eq_update, Nat.mul_add 2 words 1]
  change _ = Function.update (Function.update _ _ _) (ringPlace base (2 * words + 1)) _
  rw [ringPlace_succ inside]
  rfl

/-- Two bytes share a place when they are laps apart. -/
theorem ringPlace_eq_iff {first second : Nat} :
    ringPlace base first = ringPlace base second ↔ first % 65536 = second % 65536 := by
  rw [ringPlace, ringPlace]
  constructor
  · intro same
    have equal := congrArg BitVec.toNat same
    simp only [BitVec.toNat_setWidth, BitVec.toNat_add, BitVec.toNat_ofNat] at equal
    have small := base.isLt
    omega
  · intro same
    have equal : BitVec.ofNat 16 first = BitVec.ofNat 16 second :=
      BitVec.eq_of_toNat_eq (by simpa using same)
    rw [equal]

/-- A word at an even offset is stored when both its bytes are in the segment, away from the boot
sector. -/
theorem wordStop_eq_none_iff {word : Nat} :
    wordStop 0 (base + BitVec.ofNat 16 (2 * word)) = none ↔
      base + BitVec.ofNat 16 (2 * word) ≠ 0xffff ∧
        ringPlace base (2 * word) ∉ Span mbrOrigin 512 ∧
        ringPlace base (2 * word + 1) ∉ Span mbrOrigin 512 := by
  rw [wordStop, if_neg (not_not.mpr rfl)]
  by_cases last : base + BitVec.ofNat 16 (2 * word) = 0xffff
  · rw [if_pos last]
    exact iff_of_false (Option.some_ne_none _) fun clear => clear.1 last
  · have next := ringPlace_succ last
    rw [if_neg last, next]
    split
    · next met =>
        refine iff_of_false (Option.some_ne_none _) fun clear => ?_
        exact met.elim clear.2.1 clear.2.2
    · next clear =>
        exact iff_of_true rfl ⟨last, fun inside => clear (.inl inside),
          fun inside => clear (.inr inside)⟩

theorem wordStop_ne_busy {segment : BitVec 16} : wordStop segment pointer ≠ some .busy := by
  unfold wordStop
  split_ifs <;> simp

/-- The pointer meets the last byte of the segment. -/
theorem pointer_eq_last_iff {words : Nat} (few : words < 32768 * 2) :
    (∃ word < words, base + BitVec.ofNat 16 (2 * word) = 0xffff) ↔
      ¬ (base.toNat % 2 = 0 ∨ base.toNat + 2 * words ≤ 65536) := by
  have small := base.isLt
  constructor
  · rintro ⟨word, before, met⟩
    have equal := congrArg BitVec.toNat met
    simp only [BitVec.toNat_add, BitVec.toNat_ofNat, BitVec.ofNat_eq_ofNat] at equal
    omega
  · intro crossed
    refine ⟨(65535 - base.toNat) / 2, by omega, ?_⟩
    apply BitVec.eq_of_toNat_eq
    simp only [BitVec.toNat_add, BitVec.toNat_ofNat, BitVec.ofNat_eq_ofNat]
    omega

/-- The words of a request can be stored. -/
theorem words_stored_iff {sectors : Nat} (most : sectors ≤ 255) :
    (∀ word < 256 * sectors, wordStop 0 (base + BitVec.ofNat 16 (2 * word)) = none) ↔
      (∀ offset < 512 * sectors, ringPlace base offset ∉ Span mbrOrigin 512) ∧
        (base.toNat % 2 = 0 ∨ base.toNat + 512 * sectors ≤ 65536) := by
  have met := @pointer_eq_last_iff base (256 * sectors) (by omega)
  have size : 2 * (256 * sectors) = 512 * sectors := by omega
  rw [size] at met
  simp only [wordStop_eq_none_iff]
  constructor
  · intro stored
    refine ⟨fun offset inside => ?_, ?_⟩
    · obtain ⟨-, first, second⟩ := stored (offset / 2) (by omega)
      obtain even | odd := Nat.mod_two_eq_zero_or_one offset
      · have place : 2 * (offset / 2) = offset := by omega
        rwa [place] at first
      · have place : 2 * (offset / 2) + 1 = offset := by omega
        rwa [place] at second
    · by_contra crossed
      obtain ⟨word, inside, last⟩ := met.mpr crossed
      exact (stored word inside).1 last
  · rintro ⟨clear, ends⟩ word inside
    refine ⟨fun last => met.mp ⟨word, inside, last⟩ ends, ?_, ?_⟩
    · exact clear _ (by omega)
    · exact clear _ (by omega)

/-- A request that misses the boot sector is shorter than the segment. -/
theorem sectors_of_clear {sectors : Nat}
    (clear : ∀ offset < 512 * sectors, ringPlace base offset ∉ Span mbrOrigin 512) :
    sectors ≤ 127 := by
  by_contra long
  refine clear ((65536 + 0x7c00 - base.toNat) % 65536) (by omega) ?_
  have small := base.isLt
  have met : ringPlace base ((65536 + 0x7c00 - base.toNat) % 65536) = mbrOrigin := by
    apply BitVec.eq_of_toNat_eq
    simp only [ringPlace, mbrOrigin, BitVec.toNat_setWidth, BitVec.toNat_add, BitVec.toNat_ofNat,
      BitVec.ofNat_eq_ofNat]
    omega
  rw [met, mem_span, BitVec.sub_self]
  decide

end Ring

variable {host start : Host} {lba sectors words : Nat}

/-- The state in front of `.go_on_read`, for a request of `sectors` sectors from `lba` on. -/
structure AtData16 (lba sectors : Nat) (before after : Host) : Prop where
  commands : after.drive.commands =
    (0x20, ⟨true, BitVec.ofNat 28 lba, BitVec.ofNat 8 sectors⟩) :: before.drive.commands
  disk : after.drive.disk = before.drive.disk
  taken : after.drive.taken = 0
  ram : after.cpu.ram = before.cpu.ram
  bx : after.cpu.regs.bx = before.cpu.regs.bx
  cx : after.cpu.regs.cx = BitVec.ofNat 16 (256 * sectors)
  dx : after.cpu.regs.dx = 0x1f0
  esp : after.cpu.regs.esp = before.cpu.regs.esp
  ds : after.cpu.regs.ds = before.cpu.regs.ds

/-- The routine gets to its last loop once the drive is ready. -/
theorem rdDiskM16_atData {poll : Nat} (sector : host.cpu.regs.eax = BitVec.ofNat 32 lba)
    (count : host.cpu.regs.cx = BitVec.ofNat 16 sectors)
    (answer : host.drive.answers poll &&& 0x88 = 0x08) :
    ∃ middle, (∀ fuel, poll < fuel →
      host.rdDiskM16 fuel = middle.goOnRead16.bind back16) ∧
      AtData16 lba sectors host middle := by
  obtain ⟨called, out⟩ : ∃ called, host.issueRead = called := ⟨_, rfl⟩
  have issued := host.issueRead_spec
  have stack : host.issueRead.cpu.regs.esp = host.cpu.regs.esp := rfl
  have segment : host.issueRead.cpu.regs.ds = host.cpu.regs.ds := rfl
  rw [out] at issued stack segment
  have status : called.drive.answers (called.drive.polls + poll) &&& 0x88 = 0x08 := by
    rw [issued.answers, issued.polls, Nat.zero_add]
    exact answer
  obtain ⟨eax, polls, wait⟩ := notReady_spec issued.dx status
  have number : (BitVec.ofNat 32 lba).setWidth 28 = BitVec.ofNat 28 lba :=
    BitVec.setWidth_ofNat_of_le (by decide) _
  have amount : host.cpu.regs.cl = BitVec.ofNat 8 sectors := by
    have low : host.cpu.regs.cl = host.cpu.regs.cx.setWidth 8 :=
      (BitVec.setWidth_setWidth_of_le _ (by decide)).symm
    rw [low, count]
    exact BitVec.setWidth_ofNat_of_le (by decide) _
  have commands := issued.commands
  rw [sector, number, amount] at commands
  obtain ⟨drive, ram, ebx, dx, ecx⟩ :=
    countWords_spec ⟨called.cpu.movEax eax, { called.drive with polls }⟩
  have esp : (countWords ⟨called.cpu.movEax eax, { called.drive with polls }⟩).cpu.regs.esp =
    called.cpu.regs.esp := rfl
  have ds : (countWords ⟨called.cpu.movEax eax, { called.drive with polls }⟩).cpu.regs.ds =
    called.cpu.regs.ds := rfl
  generalize counted : countWords ⟨called.cpu.movEax eax, { called.drive with polls }⟩ = middle
    at drive ram ebx dx ecx esp ds
  refine ⟨middle, ?_, ?_, ?_, ?_, ram.trans issued.ram, ?_, ?_, dx, esp.trans stack,
    ds.trans segment⟩
  · intro fuel enough
    rw [rdDiskM16, out, wait fuel enough, ← counted]
  · rw [drive]
    exact commands
  · rw [drive]
    exact issued.disk
  · rw [drive]
    exact issued.taken
  · exact congrArg (BitVec.setWidth 16) (ebx.trans issued.ebx)
  · have kept : (called.cpu.movEax eax).regs.di = called.cpu.regs.di := rfl
    rw [Context.cx, ecx, kept, issued.di, count, half_of_append]
    bv_omega

/-- The loop after `words` of its words: what the drive has given is in the ring. -/
structure Reading (lba sectors : Nat) (start : Host) (words : Nat) (host : Host) : Prop where
  drive : host.drive = { start.drive with taken := words }
  ram : host.cpu.ram = writeAll (ringPlace start.cpu.regs.bx) (diskByte start.drive.disk lba)
    (2 * words) start.cpu.ram
  bx : host.cpu.regs.bx = start.cpu.regs.bx + BitVec.ofNat 16 (2 * words)
  cx : host.cpu.regs.cx = BitVec.ofNat 16 (256 * sectors - words)
  dx : host.cpu.regs.dx = 0x1f0
  esp : host.cpu.regs.esp = start.cpu.regs.esp
  ds : host.cpu.regs.ds = start.cpu.regs.ds

/-- A drive with a read command gives the next word of the sectors. -/
theorem Reading.nextWord {others : List (BitVec 8 × DiskAddress)}
    (command : start.drive.commands =
      (0x20, ⟨true, BitVec.ofNat 28 lba, BitVec.ofNat 8 sectors⟩) :: others)
    (small : lba < 2 ^ 28) (most : sectors ≤ 255) (more : words < 256 * sectors)
    (reading : Reading lba sectors start words host) :
    host.drive.nextWord = diskByte start.drive.disk lba (2 * words + 1) ++
      diskByte start.drive.disk lba (2 * words) := by
  have size : (BitVec.ofNat 8 sectors).toNat = sectors := by
    rw [BitVec.toNat_ofNat, Nat.mod_eq_of_lt (by omega)]
  have place : (BitVec.ofNat 28 lba).toNat = lba := by
    rw [BitVec.toNat_ofNat, Nat.mod_eq_of_lt small]
  rw [reading.drive]
  simp only [Drive.nextWord, command, size, place, more, and_self, ↓reduceIte]

/-- A round, with its store. -/
theorem readRound16_spec (port : host.cpu.regs.dx = 0x1f0) :
    host.readRound16 =
      match wordStop host.cpu.regs.ds host.cpu.regs.bx with
      | some stop => .error stop
      | none =>
          let cpu := host.cpu.movAx host.drive.nextWord
          let cpu := { cpu with
            ram := storeHalf host.cpu.ram (host.cpu.regs.bx.setWidth 32) host.drive.nextWord }
          let cpu := cpu.movBx (host.cpu.regs.bx + 2#16)
          .ok ⟨cpu.movCx (host.cpu.regs.cx - 1#16),
            { host.drive with taken := host.drive.taken + 1 }⟩ := by
  have segment : (host.cpu.movAx host.drive.nextWord).regs.ds = host.cpu.regs.ds := rfl
  have pointer : (host.cpu.movAx host.drive.nextWord).regs.bx = host.cpu.regs.bx := rfl
  have word : (host.cpu.movAx host.drive.nextWord).regs.ax = host.drive.nextWord :=
    half_of_append _ _
  simp only [readRound16, inAxDx, Drive.inWord, port, ↓reduceIte, Cpu.storeAx, segment, pointer,
    word]
  split
  · rfl
  · rfl

/-- One round where the word can be stored. -/
theorem Reading.round (reading : Reading lba sectors start words host)
    (word : host.drive.nextWord = diskByte start.drive.disk lba (2 * words + 1) ++
      diskByte start.drive.disk lba (2 * words)) (more : words < 256 * sectors)
    (data : start.cpu.regs.ds = 0)
    (stored : wordStop 0 (start.cpu.regs.bx + BitVec.ofNat 16 (2 * words)) = none) :
    ∃ next, host.readRound16 = .ok next ∧ Reading lba sectors start (words + 1) next := by
  have there : wordStop host.cpu.regs.ds host.cpu.regs.bx = none := by
    rw [reading.ds, data, reading.bx]
    exact stored
  rw [readRound16_spec reading.dx, there]
  refine ⟨_, rfl, ?_, ?_, ?_, ?_, reading.dx, reading.esp, reading.ds⟩
  · change { host.drive with taken := host.drive.taken + 1 } = _
    rw [reading.drive]
  · change storeHalf host.cpu.ram (host.cpu.regs.bx.setWidth 32) host.drive.nextWord = _
    rw [reading.ram, reading.bx, word]
    exact writeAll_word (wordStop_eq_none_iff.mp stored).1
  · refine (half_of_append _ _).trans ?_
    rw [reading.bx, Nat.mul_add 2 words 1]
    bv_omega
  · refine (half_of_append _ _).trans ?_
    rw [reading.cx]
    bv_omega

theorem goOnRead16_of_ok {next : Host} (round : host.readRound16 = .ok next) :
    host.goOnRead16 = if next.cpu.regs.cx = 0 then .ok next else next.goOnRead16 := by
  rw [goOnRead16]
  split
  · next missing => cases round.symm.trans missing
  · next other found =>
      obtain rfl := Except.ok.inj (round.symm.trans found)
      rfl

theorem goOnRead16_of_error {stop : RealModeStop} (round : host.readRound16 = .error stop) :
    host.goOnRead16 = .error stop := by
  rw [goOnRead16]
  split
  · next other found =>
      obtain rfl := Except.error.inj (round.symm.trans found)
      rfl
  · next other found => cases round.symm.trans found

/-- `ret` in the segment of the boot sector. -/
theorem back16_spec (data : host.cpu.regs.ds = 0) :
    host.back16 =
      if host.cpu.regs.sp = 0xffff then .error .segmentEnd
      else .ok { host with
        cpu := (host.cpu.jmpNear (loadHalf host.cpu.ram (host.cpu.regs.sp.setWidth 32))).movSp
          (host.cpu.regs.sp + 2#16) } := by
  rw [back16, Cpu.retNear, if_neg (not_not.mpr data)]
  split
  · rfl
  · rfl

section Loop

variable {others : List (BitVec 8 × DiskAddress)} {remaining : Nat}
  (command : start.drive.commands =
    (0x20, ⟨true, BitVec.ofNat 28 lba, BitVec.ofNat 8 sectors⟩) :: others)
  (small : lba < 2 ^ 28) (most : sectors ≤ 255) (data : start.cpu.regs.ds = 0)

include command small most data

/-- The loop up to its test: a word cannot be stored, or it is in the ring. -/
theorem Reading.advance (reading : Reading lba sectors start words host)
    (more : words < 256 * sectors) :
    (∃ stop, wordStop 0 (start.cpu.regs.bx + BitVec.ofNat 16 (2 * words)) = some stop ∧
      host.goOnRead16 = .error stop) ∨
      wordStop 0 (start.cpu.regs.bx + BitVec.ofNat 16 (2 * words)) = none ∧
        ∃ next, Reading lba sectors start (words + 1) next ∧
          host.goOnRead16 =
            if words + 1 = 256 * sectors then .ok next else next.goOnRead16 := by
  cases stored : wordStop 0 (start.cpu.regs.bx + BitVec.ofNat 16 (2 * words)) with
  | some stop =>
      refine .inl ⟨stop, rfl, goOnRead16_of_error ?_⟩
      rw [readRound16_spec reading.dx, reading.ds, data, reading.bx, stored]
  | none =>
      obtain ⟨next, round, further⟩ :=
        reading.round (reading.nextWord command small most more) more data stored
      have ends : next.cpu.regs.cx = 0 ↔ words + 1 = 256 * sectors := by
        rw [further.cx]
        constructor
        · intro zero
          bv_omega
        · intro last
          rw [last, Nat.sub_self]
          rfl
      refine .inr ⟨rfl, next, further, ?_⟩
      rw [goOnRead16_of_ok round]
      exact if_congr ends rfl rfl

/-- The loop comes to its end, unless a word cannot be stored. -/
theorem Reading.goOnRead16 (reading : Reading lba sectors start words host)
    (left : words + (remaining + 1) = 256 * sectors) :
    ((∃ after, host.goOnRead16 = .ok after) ↔ ∀ word, words ≤ word → word < 256 * sectors →
      wordStop 0 (start.cpu.regs.bx + BitVec.ofNat 16 (2 * word)) = none) ∧
    host.goOnRead16 ≠ .error .busy ∧
    ∀ after, host.goOnRead16 = .ok after → Reading lba sectors start (256 * sectors) after := by
  induction remaining generalizing words host with
  | zero =>
      obtain ⟨stop, met, stopped⟩ | ⟨stored, next, further, ran⟩ :=
        reading.advance command small most data (by omega)
      · rw [stopped]
        refine ⟨iff_of_false (fun ⟨_, ended⟩ => nomatch ended) fun all => ?_, ?_,
          fun after ended => nomatch ended⟩
        · cases met.symm.trans (all words (Nat.le_refl _) (by omega))
        · rintro ⟨⟩
          exact wordStop_ne_busy met
      · rw [ran, if_pos left]
        refine ⟨iff_of_true ⟨next, rfl⟩ ?_, ?_, ?_⟩
        · intro word above below
          obtain rfl : word = words := by omega
          exact stored
        · rintro ⟨⟩
        · intro after same
          obtain rfl := Except.ok.inj same
          rw [← left]
          exact further
  | succ remaining ih =>
      obtain ⟨stop, met, stopped⟩ | ⟨stored, next, further, ran⟩ :=
        reading.advance command small most data (by omega)
      · rw [stopped]
        refine ⟨iff_of_false (fun ⟨_, ended⟩ => nomatch ended) fun all => ?_, ?_,
          fun after ended => nomatch ended⟩
        · cases met.symm.trans (all words (Nat.le_refl _) (by omega))
        · rintro ⟨⟩
          exact wordStop_ne_busy met
      · obtain ⟨ends, ready, result⟩ := ih further (by omega)
        rw [ran, if_neg (by omega)]
        refine ⟨ends.trans ⟨?_, ?_⟩, ready, result⟩
        · intro rest word above below
          obtain rfl | beyond := Nat.eq_or_lt_of_le above
          · exact stored
          · exact rest word beyond below
        · intro all word above below
          exact all word (by omega) below

end Loop

/-- What is left of the sectors in the ring: the last 64 KiB. -/
theorem Reading.ring (reading : Reading lba sectors start (256 * sectors) host) :
    (∀ offset < 512 * sectors, 512 * sectors ≤ offset + 65536 →
      host.cpu.ram (ringPlace start.cpu.regs.bx offset) =
        start.drive.disk (lba + offset / 512) (offset % 512)) ∧
    ∀ addr, (∀ offset < 512 * sectors, addr ≠ ringPlace start.cpu.regs.bx offset) →
      host.cpu.ram addr = start.cpu.ram addr := by
  have size : 2 * (256 * sectors) = 512 * sectors := by omega
  rw [reading.ram, size]
  refine ⟨?_, fun addr outside => writeAll_of_absent outside⟩
  intro offset inside late
  refine writeAll_last inside ?_
  intro later after before same
  have apart := ringPlace_eq_iff.mp same
  omega

section Routine

variable (sector : host.cpu.regs.eax = BitVec.ofNat 32 lba) (small : lba < 2 ^ 28)
  (count : host.cpu.regs.cx = BitVec.ofNat 16 sectors) (least : 1 ≤ sectors)
  (most : sectors ≤ 255) (data : host.cpu.regs.ds = 0)
  (ready : ∃ poll, host.drive.answers poll &&& 0x88 = 0x08)

include sector small count least most data ready

/-- The routine up to its `ret`. -/
theorem rdDiskM16_run :
    ∃ polls middle, (∀ fuel, polls < fuel →
        host.rdDiskM16 fuel = middle.goOnRead16.bind back16) ∧
      AtData16 lba sectors host middle ∧ middle.goOnRead16 ≠ .error .busy ∧
      ((∃ last, middle.goOnRead16 = .ok last) ↔
        (∀ offset < 512 * sectors,
          ringPlace host.cpu.regs.bx offset ∉ Span mbrOrigin 512) ∧
        (host.cpu.regs.bx.toNat % 2 = 0 ∨ host.cpu.regs.bx.toNat + 512 * sectors ≤ 65536)) ∧
      ∀ last, middle.goOnRead16 = .ok last → Reading lba sectors middle (256 * sectors) last := by
  obtain ⟨poll, answer⟩ := ready
  obtain ⟨middle, ran, front⟩ := rdDiskM16_atData sector count answer
  have reading : Reading lba sectors middle 0 middle := by
    refine ⟨?_, rfl, (BitVec.add_zero _).symm, front.cx, front.dx, rfl, rfl⟩
    rw [← front.taken]
  obtain ⟨remaining, left⟩ := Nat.exists_eq_add_of_le' (by omega : 1 ≤ 256 * sectors)
  obtain ⟨ends, done, result⟩ := reading.goOnRead16 front.commands small most
    (front.ds.trans data) (by omega : 0 + (remaining + 1) = 256 * sectors)
  refine ⟨poll, middle, ran, front, done, ?_, result⟩
  rw [ends, front.bx, ← words_stored_iff most]
  simp only [Nat.zero_le, true_imp_iff]

/-- **`rd_disk_m_16` reads into a ring.** It returns exactly when no byte of the sectors is for the
boot sector, no word goes over the end of the segment and the return address does not either.
Then all sectors are in memory, behind `0xffff` from address 0 on, and no other byte has
changed. It returns to what is then on the stack. -/
theorem rdDiskM16_reads :
    ∃ polls outcome, (∀ fuel, polls < fuel → host.rdDiskM16 fuel = outcome) ∧
      outcome ≠ .error .busy ∧
      ((∃ after, outcome = .ok after) ↔
        (∀ offset < 512 * sectors,
          ringPlace host.cpu.regs.bx offset ∉ Span mbrOrigin 512) ∧
        (host.cpu.regs.bx.toNat % 2 = 0 ∨ host.cpu.regs.bx.toNat + 512 * sectors ≤ 65536) ∧
        host.cpu.regs.sp ≠ 0xffff) ∧
      ∀ after, outcome = .ok after →
        after.drive.commands = (0x20, ⟨true, BitVec.ofNat 28 lba, BitVec.ofNat 8 sectors⟩) ::
          host.drive.commands ∧
        (∀ offset < 512 * sectors, after.cpu.ram (ringPlace host.cpu.regs.bx offset) =
          host.drive.disk (lba + offset / 512) (offset % 512)) ∧
        (∀ addr, (∀ offset < 512 * sectors, addr ≠ ringPlace host.cpu.regs.bx offset) →
          after.cpu.ram addr = host.cpu.ram addr) ∧
        after.cpu.regs.eip =
          (loadHalf after.cpu.ram (host.cpu.regs.sp.setWidth 32)).setWidth 32 := by
  obtain ⟨polls, middle, ran, front, done, ends, result⟩ :=
    rdDiskM16_run sector small count least most data ready
  refine ⟨polls, _, ran, ?_⟩
  cases looped : middle.goOnRead16 with
  | error stop =>
      refine ⟨fun busy => done (looped.trans busy), ?_, fun after ended => nomatch ended⟩
      refine iff_of_false (fun ⟨_, ended⟩ => nomatch ended) fun clear => ?_
      obtain ⟨last, ended⟩ := ends.mpr ⟨clear.1, clear.2.1⟩
      cases looped.symm.trans ended
  | ok last =>
      have read := result last looped
      obtain ⟨clear, inside⟩ := ends.mp ⟨last, looped⟩
      have sp : last.cpu.regs.sp = host.cpu.regs.sp := by
        rw [Context.sp, read.esp, front.esp]
        rfl
      have back := back16_spec (read.ds.trans (front.ds.trans data))
      rw [sp] at back
      obtain ⟨kept, others⟩ := read.ring
      rw [front.bx, front.disk] at kept
      rw [front.bx, front.ram] at others
      have short := sectors_of_clear clear
      change last.back16 ≠ _ ∧ ((∃ after, last.back16 = _) ↔ _) ∧ ∀ after, last.back16 = _ → _
      rw [back]
      by_cases edge : host.cpu.regs.sp = 0xffff
      · rw [if_pos edge]
        refine ⟨by rintro ⟨⟩, ?_, fun after ended => nomatch ended⟩
        exact iff_of_false (fun ⟨_, ended⟩ => nomatch ended) fun all => all.2.2 edge
      · rw [if_neg edge]
        refine ⟨by rintro ⟨⟩, iff_of_true ⟨_, rfl⟩ ⟨clear, inside, edge⟩, ?_⟩
        rintro after ⟨⟩
        refine ⟨?_, fun offset within => kept offset within (by omega), others, rfl⟩
        change last.drive.commands = _
        rw [read.drive]
        exact front.commands

end Routine

/-- A request in real mode from behind the boot sector up to its stack. -/
def longRequest : Host :=
  { sampleHost with
    cpu := { sampleHost.cpu with
      regs := { sampleHost.cpu.regs with eax := 2, ecx := 127, ebx := 0x7e00, esp := 0x7bfe } } }

/-- The request goes through address 0, and the return address is from the disk. -/
theorem rdDiskM16_reads_lap :
    ∃ polls after, (∀ fuel, polls < fuel → longRequest.rdDiskM16 fuel = .ok after) ∧
      after.cpu.ram 0 = 0x43 ∧
      after.cpu.regs.eip = (loadHalf after.cpu.ram 0x7bfe).setWidth 32 ∧
      after.cpu.ram 0x7bfe = 0x7e := by
  obtain ⟨polls, outcome, ran, -, ends, result⟩ := @rdDiskM16_reads longRequest 2 127 rfl
    (by decide) rfl (by decide) (by decide) rfl ⟨1, by decide⟩
  have clear : ∀ offset < 512 * 127,
      ringPlace longRequest.cpu.regs.bx offset ∉ Span mbrOrigin 512 := by
    intro offset inside met
    have place : ringPlace longRequest.cpu.regs.bx offset =
      (0x7e00#16 + BitVec.ofNat 16 offset).setWidth 32 := rfl
    rw [place, mem_span, mbrOrigin] at met
    bv_omega
  obtain ⟨after, rfl⟩ := ends.mpr ⟨clear, .inl (by decide), by decide⟩
  obtain ⟨-, bytes, -, back⟩ := result after rfl
  exact ⟨polls, after, ran, bytes 0x8200 (by decide), back, bytes 0xfdfe (by decide)⟩

/-- What the boot sector counts on of `int 0x10`: the data and video segments, the stack pointer
and its own code are kept. -/
structure Scrolls (before after : Cpu) : Prop where
  ds : after.regs.ds = before.regs.ds
  gs : after.regs.gs = before.regs.gs
  esp : after.regs.esp = before.regs.esp
  code : ∀ addr ∈ Span mbrOrigin 512, after.ram addr = before.ram addr

/-- The name of the boot sector in video memory. -/
def screenName : List (BitVec 8) :=
  ['1', ' ', 'M', 'B', 'R'].flatMap fun letter => [BitVec.ofNat 8 letter.toNat, 0xa4]

/-- The ten stores of the name. -/
theorem showName_ram {cpu : Cpu} (video : cpu.regs.gs = 0xb800) :
    cpu.showName.ram = writeAll (fun index => 0xb8000#32 + BitVec.ofNat 32 index)
      (fun index => screenName.getD index 0) 10 cpu.ram := by
  simp only [Cpu.showName, Cpu.storeGs, video]
  rfl

/-- A request that stays in the segment has no laps. -/
theorem ringPlace_of_fits {base : BitVec 16} {offset : Nat} (fits : base.toNat + offset < 65536) :
    ringPlace base offset = BitVec.ofNat 32 (base.toNat + offset) := by
  apply BitVec.eq_of_toNat_eq
  simp only [ringPlace, BitVec.toNat_setWidth, BitVec.toNat_add, BitVec.toNat_ofNat]
  omega

/-- A word on the stack is read back when its two bytes are left alone. -/
theorem loadHalf_of_kept {ram after : Ram} {addr : BitVec 32} {word : BitVec 16}
    (first : after addr = storeHalf ram addr word addr)
    (second : after (addr + 1#32) = storeHalf ram addr word (addr + 1#32)) :
    loadHalf after addr = word := by
  have other : addr + 1#32 ≠ addr := by bv_omega
  rw [storeHalf, if_pos rfl] at first
  rw [storeHalf, if_neg other, if_pos rfl] at second
  rw [loadHalf, BitVec.add_zero, first, second]
  exact (BitVec.extractLsb'_append_extractLsb'_eq_extractLsb' rfl).trans BitVec.extractLsb'_eq_self

section Entry

variable {int10 : Cpu → Cpu} (origin : host.cpu.regs.cs = 0)
  (scrolls : Scrolls host.atScreen.cpu (int10 host.atScreen.cpu))

include origin scrolls

/-- The registers in front of the call. -/
theorem atCall_regs :
    (host.atCall int10).cpu.regs.ds = 0 ∧ (host.atCall int10).cpu.regs.sp = 0x7c00 ∧
      (host.atCall int10).cpu.regs.bx = 0x900 ∧ (host.atCall int10).cpu.regs.cx = 4 := by
  have data : host.atScreen.cpu.regs.ds = 0 := (half_of_append _ _).trans origin
  have stack : host.atScreen.cpu.regs.sp = 0x7c00 := half_of_append _ _
  refine ⟨scrolls.ds.trans data, ?_, half_of_append _ _, half_of_append _ _⟩
  have kept : (int10 host.atScreen.cpu).regs.sp = host.atScreen.cpu.regs.sp :=
    congrArg (BitVec.setWidth 16) scrolls.esp
  exact kept.trans stack

/-- The call, with the name on the screen and the return address on the stack. -/
theorem callNear_atCall (behind : BitVec 16) :
    ∃ cpu, (host.atCall int10).cpu.callNear behind = .ok cpu ∧
      cpu.regs.eax = BitVec.ofNat 32 2 ∧ cpu.regs.cx = BitVec.ofNat 16 4 ∧
      cpu.regs.bx = 0x900 ∧ cpu.regs.ds = 0 ∧ cpu.regs.sp = 0x7bfe ∧
      cpu.ram = storeHalf (writeAll (fun index => 0xb8000#32 + BitVec.ofNat 32 index)
        (fun index => screenName.getD index 0) 10 (int10 host.atScreen.cpu).ram) 0x7bfe behind := by
  obtain ⟨ds, sp, bx, cx⟩ := atCall_regs origin scrolls
  have ram := showName_ram (scrolls.gs.trans (half_of_append _ _))
  obtain ⟨pushed, moved⟩ :
      ∃ pushed, (host.atCall int10).cpu.movSp ((host.atCall int10).cpu.regs.sp - 2#16) = pushed :=
    ⟨_, rfl⟩
  have stack : pushed.regs.sp = 0x7bfe := by
    rw [← moved, sp]
    exact half_of_append _ _
  have data : pushed.regs.ds = 0 := by
    rw [← moved]
    exact ds
  have stored : wordStop 0 0x7bfe = none := by decide
  have called : (host.atCall int10).cpu.callNear behind =
      .ok { pushed with ram := storeHalf pushed.ram 0x7bfe behind } := by
    simp only [Cpu.callNear, moved, data, stack, stored]
    rfl
  refine ⟨_, called, ?_, ?_, ?_, data, stack, ?_⟩
  · rw [← moved]
    rfl
  · rw [← moved]
    exact cx
  · rw [← moved]
    exact bx
  · rw [← moved]
    exact congrArg (fun ram => storeHalf ram 0x7bfe behind) ram

/-- **The boot sector enters the loader**, whatever is on the disk and in memory: its name is on
the screen, sectors 2 to 5 are at `0x900`, its own bytes are kept, and but for these and the
return address of the call memory is as the firmware has left it. The processor is at `0xc00`. -/
theorem mbr_enters_loader (ready : ∃ poll, host.drive.answers poll &&& 0x88 = 0x08)
    (behind : BitVec 16) :
    ∃ polls after, (∀ fuel, polls < fuel → host.mbr int10 behind fuel = .ok after) ∧
      after.cpu.regs.eip = 0xc00 ∧ after.cpu.regs.sp = 0x7c00 ∧
      after.drive.commands = (0x20, ⟨true, 2, 4⟩) :: host.drive.commands ∧
      (∀ offset < 2048, after.cpu.ram (0x900#32 + BitVec.ofNat 32 offset) =
        host.drive.disk (2 + offset / 512) (offset % 512)) ∧
      (∀ index < 10, after.cpu.ram (0xb8000#32 + BitVec.ofNat 32 index) =
        screenName.getD index 0) ∧
      (∀ addr ∈ Span mbrOrigin 512, after.cpu.ram addr = host.cpu.ram addr) ∧
      ∀ addr, addr ∉ Span 0x900 2048 → addr ∉ Span 0xb8000 10 → addr ∉ Span 0x7bfe 2 →
        after.cpu.ram addr = (int10 host.atScreen.cpu).ram addr := by
  obtain ⟨cpu, called, eax, cx, bx, ds, sp, ram⟩ := callNear_atCall origin scrolls behind
  obtain ⟨polls, middle, ran, front, -, ends, result⟩ :=
    @rdDiskM16_run ⟨cpu, host.drive⟩ 2 4 eax (by decide) cx (by decide) (by decide) ds ready
  have place {offset : Nat} (inside : offset < 2048) :
      ringPlace 0x900 offset = 0x900#32 + BitVec.ofNat 32 offset := by
    rw [ringPlace_of_fits (by change 0x900 + offset < 65536; omega)]
    bv_omega
  rw [bx] at ends
  obtain ⟨last, looped⟩ := ends.mpr ⟨fun offset inside met => by
    rw [place inside, mem_span, mbrOrigin] at met
    bv_omega, .inl (by decide)⟩
  have read := result last looped
  obtain ⟨kept, others⟩ := read.ring
  rw [front.bx, front.disk, bx] at kept
  rw [front.bx, front.ram, bx] at others
  have outside {addr : BitVec 32} (away : addr ∉ Span 0x900 2048) :
      last.cpu.ram addr = cpu.ram addr := by
    refine others addr fun offset inside same => away ?_
    rw [same, place inside, mem_span]
    bv_omega
  have pushed {addr : BitVec 32} (away : addr ∉ Span 0x7bfe 2) :
      cpu.ram addr = writeAll (fun index => 0xb8000#32 + BitVec.ofNat 32 index)
        (fun index => screenName.getD index 0) 10 (int10 host.atScreen.cpu).ram addr := by
    rw [mem_span] at away
    rw [ram, storeHalf, if_neg (by rintro rfl; exact away (by decide)),
      if_neg (by rintro rfl; exact away (by decide))]
  have firmware {addr : BitVec 32} (away : addr ∉ Span 0xb8000 10) :
      writeAll (fun index => 0xb8000#32 + BitVec.ofNat 32 index)
        (fun index => screenName.getD index 0) 10 (int10 host.atScreen.cpu).ram addr =
        (int10 host.atScreen.cpu).ram addr := by
    refine writeAll_of_absent fun index inside same => away ?_
    rw [same, mem_span]
    bv_omega
  have stack : last.cpu.regs.sp = 0x7bfe := by
    rw [Context.sp, read.esp, front.esp]
    exact sp
  have back : last.back16 = .ok { last with cpu := (last.cpu.jmpNear behind).movSp 0x7c00 } := by
    have first : last.cpu.ram 0x7bfe = cpu.ram 0x7bfe := outside (by decide)
    have second : last.cpu.ram 0x7bff = cpu.ram 0x7bff := outside (by decide)
    rw [ram] at first second
    have word : loadHalf last.cpu.ram ((0x7bfe : BitVec 16).setWidth 32) = behind :=
      loadHalf_of_kept first second
    rw [back16_spec (read.ds.trans (front.ds.trans ds)), stack, if_neg (by decide), word]
    rfl
  let target := loaderBaseAddr + 0x300
  refine ⟨polls, { last with cpu := ((last.cpu.jmpNear behind).movSp 0x7c00).jmpNear target },
    ?_, rfl, half_of_append _ _, ?_, ?_, ?_, ?_, ?_⟩
  · intro fuel enough
    have read16 := ran fuel enough
    rw [looped] at read16
    have returned : Host.rdDiskM16 fuel ⟨cpu, host.drive⟩ =
        .ok { last with cpu := (last.cpu.jmpNear behind).movSp 0x7c00 } := read16.trans back
    have drive : (host.atCall int10).drive = host.drive := rfl
    rw [mbr, called]
    change (Host.rdDiskM16 fuel ⟨cpu, (host.atCall int10).drive⟩).bind _ = _
    rw [drive, returned]
    exact if_pos rfl
  · change last.drive.commands = _
    rw [read.drive]
    exact front.commands
  · intro offset inside
    have there := kept offset inside (by omega)
    rw [place inside] at there
    exact there
  · intro index inside
    have away : 0xb8000#32 + BitVec.ofNat 32 index ∉ Span 0x900 2048 := by
      rw [mem_span]
      bv_omega
    have apart : 0xb8000#32 + BitVec.ofNat 32 index ∉ Span 0x7bfe 2 := by
      rw [mem_span]
      bv_omega
    refine (outside away).trans ((pushed apart).trans (writeAll_last inside ?_))
    intro later after before
    bv_omega
  · intro addr own
    have away : addr ∉ Span 0x900 2048 ∧ addr ∉ Span 0x7bfe 2 ∧ addr ∉ Span 0xb8000 10 := by
      rw [mem_span, mbrOrigin] at own
      simp only [mem_span]
      bv_omega
    exact (outside away.1).trans ((pushed away.2.1).trans
      ((firmware away.2.2).trans (scrolls.code addr own)))
  · intro addr sectors screen stack
    exact (outside sectors).trans ((pushed stack).trans (firmware screen))

end Entry

/-- A firmware that clears the screen, keeps a byte of its own and changes `ax`. -/
def blankScreen (cpu : Cpu) : Cpu :=
  let cpu := cpu.movAx 0
  { cpu with
    ram := fun addr =>
      if addr ∈ Span 0xb8000 4000 then if addr.getLsbD 0 then 0x07 else 0x20
      else if addr = 0x450 then 0 else cpu.ram addr }

theorem mbr_enters_loader_sample :
    ∃ polls after, (∀ fuel, polls < fuel →
        sampleHost.mbr blankScreen 0x7c5f fuel = .ok after) ∧
      after.cpu.regs.eip = 0xc00 ∧ after.cpu.ram 0xb00 = 3 ∧ after.cpu.ram 0xb8004 = 0x4d ∧
      after.cpu.ram 0xb8010 = 0x20 := by
  have scrolls : Scrolls sampleHost.atScreen.cpu (blankScreen sampleHost.atScreen.cpu) := by
    refine ⟨rfl, rfl, rfl, fun addr own => ?_⟩
    rw [mem_span, mbrOrigin] at own
    have screen : addr ∉ Span 0xb8000 4000 := by
      rw [mem_span]
      bv_omega
    have data : addr ≠ 0x450 := by bv_omega
    exact (if_neg screen).trans (if_neg data)
  obtain ⟨polls, after, ran, eip, -, -, bytes, name, -, others⟩ :=
    @mbr_enters_loader sampleHost blankScreen rfl scrolls ⟨1, by decide⟩ 0x7c5f
  exact ⟨polls, after, ran, eip, bytes 0x200 (by decide), name 4 (by decide),
    others 0xb8010 (by decide) (by decide) (by decide)⟩

end Host

end OsElephant
