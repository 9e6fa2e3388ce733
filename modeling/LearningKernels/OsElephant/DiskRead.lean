import LearningKernels.OsElephant.KernelInit

/-!
# Reading sectors from the disk

`rd_disk_m_32` of `loader.S` against a drive that decodes its registers when a command
arrives. The routine keeps the sector number in `esi` and the count in `di`, shifts with
`cl`, and multiplies in 16 bits for the 32-bit counter of its last loop. For every sector
number of 28 bits and every count from 1 to 255 memory ends up with the sectors in order
(`OsElephant.Host.rdDiskM32_reads`).
-/

namespace OsElephant

open Machine

/-- What a drive makes of its address registers. -/
structure DiskAddress where
  lbaMode : Bool
  lba : BitVec 28
  sectors : BitVec 8
  deriving DecidableEq, Repr

/-- A drive with the contents of its sectors, the answers to the status reads behind a
command, and its registers `0x1f2` to `0x1f6`. The commands are recorded with the address
that was set, the last one first. -/
structure Drive where
  disk : Nat → Nat → BitVec 8
  answers : Nat → BitVec 8
  sectorCount : BitVec 8
  lbaLow : BitVec 8
  lbaMid : BitVec 8
  lbaHigh : BitVec 8
  device : BitVec 8
  commands : List (BitVec 8 × DiskAddress)
  polls : Nat
  taken : Nat

/-- Memory cells of `disk` by their place in the sectors from `first` on. -/
def diskByte (disk : Nat → Nat → BitVec 8) (first offset : Nat) : BitVec 8 :=
  disk (first + offset / 512) (offset % 512)

namespace Drive

/-- The registers as the drive reads them: bit 6 of the device register selects LBA mode,
its low four bits are the top of the sector number. -/
def address (drive : Drive) : DiskAddress where
  lbaMode := drive.device.getLsbD 6
  lba := drive.device.extractLsb' 0 4 ++ drive.lbaHigh ++ drive.lbaMid ++ drive.lbaLow
  sectors := drive.sectorCount

/-- A byte written to a port of the drive. -/
def outByte (port : BitVec 16) (value : BitVec 8) (drive : Drive) : Drive :=
  if port = 0x1f2 then { drive with sectorCount := value }
  else if port = 0x1f3 then { drive with lbaLow := value }
  else if port = 0x1f4 then { drive with lbaMid := value }
  else if port = 0x1f5 then { drive with lbaHigh := value }
  else if port = 0x1f6 then { drive with device := value }
  else if port = 0x1f7 then
    { drive with commands := (value, drive.address) :: drive.commands, polls := 0, taken := 0 }
  else drive

/-- A byte read from a port: `0x1f7` is the status. -/
def inByte (port : BitVec 16) (drive : Drive) : BitVec 8 × Drive :=
  if port = 0x1f7 then (drive.answers drive.polls, { drive with polls := drive.polls + 1 })
  else (0xff, drive)

/-- The next word of the sectors of the last read command. Behind the last of them there is
no data. -/
def nextWord (drive : Drive) : BitVec 16 :=
  match drive.commands with
  | (command, address) :: _ =>
      if command = 0x20 ∧ drive.taken < 256 * address.sectors.toNat then
        diskByte drive.disk address.lba.toNat (2 * drive.taken + 1) ++
          diskByte drive.disk address.lba.toNat (2 * drive.taken)
      else 0xffff
  | [] => 0xffff

/-- A word read from a port: `0x1f0` is the data. -/
def inWord (port : BitVec 16) (drive : Drive) : BitVec 16 × Drive :=
  if port = 0x1f0 then (drive.nextWord, { drive with taken := drive.taken + 1 })
  else (0xffff, drive)

end Drive

/-- Store a word in little-endian order. -/
def storeHalf (ram : Ram) (addr : BitVec 32) (word : BitVec 16) : Ram := fun query =>
  if query = addr then word.extractLsb' 0 8
  else if query = addr + 1#32 then word.extractLsb' 8 8
  else ram query

namespace Context

/-- `al`. -/
def al (regs : Context) : BitVec 8 := regs.eax.setWidth 8

/-- `ax`. -/
def ax (regs : Context) : BitVec 16 := regs.eax.setWidth 16

/-- `cl`. -/
def cl (regs : Context) : BitVec 8 := regs.ecx.setWidth 8

/-- `cx`. -/
def cx (regs : Context) : BitVec 16 := regs.ecx.setWidth 16

/-- `dx`. -/
def dx (regs : Context) : BitVec 16 := regs.edx.setWidth 16

/-- `di`. -/
def di (regs : Context) : BitVec 16 := regs.edi.setWidth 16

end Context

namespace Cpu

/-- `mov ax, value`. -/
def movAx (value : BitVec 16) (cpu : Cpu) : Cpu :=
  { cpu with regs := { cpu.regs with eax := cpu.regs.eax.extractLsb' 16 16 ++ value } }

/-- `mov cl, value`. -/
def movCl (value : BitVec 8) (cpu : Cpu) : Cpu :=
  { cpu with regs := { cpu.regs with ecx := cpu.regs.ecx.extractLsb' 8 24 ++ value } }

/-- `mov di, value`. -/
def movDi (value : BitVec 16) (cpu : Cpu) : Cpu :=
  { cpu with regs := { cpu.regs with edi := cpu.regs.edi.extractLsb' 16 16 ++ value } }

/-- `mov esi, value`. -/
def movEsi (value : BitVec 32) (cpu : Cpu) : Cpu :=
  { cpu with regs := { cpu.regs with esi := value } }

/-- `shr eax, cl`. -/
def shrEaxCl (cpu : Cpu) : Cpu := cpu.movEax (cpu.regs.eax >>> (cpu.regs.cl.toNat % 32))

/-- `mul dx`. -/
def mulDx (cpu : Cpu) : Cpu :=
  let product := cpu.regs.ax.setWidth 32 * cpu.regs.dx.setWidth 32
  (cpu.movAx (product.extractLsb' 0 16)).movDx (product.extractLsb' 16 16)

end Cpu

/-- The processor and the drive. -/
structure Host where
  cpu : Cpu
  drive : Drive

namespace Host

/-- An instruction that leaves the drive alone. -/
def exec (instruction : Cpu → Cpu) (host : Host) : Host :=
  { host with cpu := instruction host.cpu }

/-- `out dx, al`. -/
def outDxAl (host : Host) : Host :=
  { host with drive := host.drive.outByte host.cpu.regs.dx host.cpu.regs.al }

/-- `in al, dx`. -/
def inAlDx (host : Host) : Host :=
  let (value, drive) := host.drive.inByte host.cpu.regs.dx
  { cpu := host.cpu.movAl value, drive }

/-- `in ax, dx`. -/
def inAxDx (host : Host) : Host :=
  let (value, drive) := host.drive.inWord host.cpu.regs.dx
  { cpu := host.cpu.movAx value, drive }

/-- `rd_disk_m_32` up to the read command. -/
def issueRead (host : Host) : Host :=
  let host := host.exec fun cpu => cpu.movEsi cpu.regs.eax
  let host := host.exec fun cpu => cpu.movDi cpu.regs.cx
  let host := host.exec (Cpu.movDx 0x1f2)
  let host := host.exec fun cpu => cpu.movAl cpu.regs.cl
  let host := host.outDxAl
  let host := host.exec fun cpu => cpu.movEax cpu.regs.esi
  let host := (host.exec (Cpu.movDx 0x1f3)).outDxAl
  let host := host.exec (Cpu.movCl 8)
  let host := host.exec Cpu.shrEaxCl
  let host := (host.exec (Cpu.movDx 0x1f4)).outDxAl
  let host := host.exec Cpu.shrEaxCl
  let host := (host.exec (Cpu.movDx 0x1f5)).outDxAl
  let host := host.exec Cpu.shrEaxCl
  let host := host.exec fun cpu => cpu.movAl (cpu.regs.al &&& 0x0f)
  let host := host.exec fun cpu => cpu.movAl (cpu.regs.al ||| 0xe0)
  let host := (host.exec (Cpu.movDx 0x1f6)).outDxAl
  let host := host.exec (Cpu.movDx 0x1f7)
  let host := host.exec (Cpu.movAl 0x20)
  host.outDxAl

/-- `.not_ready`. Only the drive ends it. -/
def notReady : (fuel : Nat) → Host → Option Host
  | 0, _ => none
  | fuel + 1, host =>
      let host := host.inAlDx
      let host := host.exec fun cpu => cpu.movAl (cpu.regs.al &&& 0x88)
      if host.cpu.regs.al = 0x08 then some host else notReady fuel host

/-- The number of words, in front of `.go_on_read`. -/
def countWords (host : Host) : Host :=
  let host := host.exec fun cpu => cpu.movAx cpu.regs.di
  let host := host.exec (Cpu.movDx 256)
  let host := host.exec Cpu.mulDx
  let host := host.exec fun cpu => cpu.movCx cpu.regs.ax
  host.exec (Cpu.movDx 0x1f0)

/-- One round of `.go_on_read`, with the decrement of `loop`. -/
def readRound (host : Host) : Host :=
  let host := host.inAxDx
  let host := host.exec fun cpu =>
    { cpu with ram := storeHalf cpu.ram cpu.regs.ebx cpu.regs.ax }
  let host := host.exec fun cpu =>
    { cpu with regs := { cpu.regs with ebx := cpu.regs.ebx + 2#32 } }
  host.exec Cpu.decEcx

theorem readRound_ecx (host : Host) :
    host.readRound.cpu.regs.ecx = host.cpu.regs.ecx - 1#32 := rfl

/-- `.go_on_read`. -/
def goOnRead (host : Host) : Host :=
  if host.readRound.cpu.regs.ecx = 0 then host.readRound else goOnRead host.readRound
termination_by (host.cpu.regs.ecx - 1#32).toNat
decreasing_by
  next again =>
    rw [readRound_ecx] at again ⊢
    bv_omega

/-- `rd_disk_m_32`. -/
def rdDiskM32 (fuel : Nat) (host : Host) : Option Host := do
  let host ← host.issueRead.notReady fuel
  some (host.countWords.goOnRead.exec Cpu.ret)

theorem byte_of_append (front : BitVec 24) (value : BitVec 8) :
    (front ++ value).setWidth 8 = value :=
  BitVec.setWidth_append_eq_right

theorem half_of_append (front value : BitVec 16) : (front ++ value).setWidth 16 = value :=
  BitVec.setWidth_append_eq_right

/-- The four parts of a sector number, put together again. -/
theorem lba_parts (eax : BitVec 32) :
    ((eax >>> 8 >>> 8 >>> 8).setWidth 8 &&& 0x0f#8 ||| 0xe0#8).extractLsb' 0 4 ++
      (eax >>> 8 >>> 8).setWidth 8 ++ (eax >>> 8).setWidth 8 ++ eax.setWidth 8 =
      eax.setWidth 28 := by
  apply BitVec.eq_of_getLsbD_eq
  intro bit inside
  simp only [BitVec.getLsbD_append, BitVec.getLsbD_extractLsb', BitVec.getLsbD_setWidth,
    BitVec.getLsbD_or, BitVec.getLsbD_and, BitVec.getLsbD_ushiftRight]
  by_cases first : bit < 8
  · simp [first, inside]
  by_cases second : bit < 16
  · have within : bit - 8 < 8 := by omega
    have place : 8 + (bit - 8) = bit := by omega
    simp [first, within, place, inside]
  by_cases third : bit < 24
  · have beyond : ¬ bit - 8 < 8 := by omega
    have within : bit - 8 - 8 < 8 := by omega
    have place : 8 + (8 + (bit - 8 - 8)) = bit := by omega
    simp [first, beyond, within, place, inside]
  · have mask : ∀ top : Fin 4,
        (0x0f#8).getLsbD top.val = true ∧ (0xe0#8).getLsbD top.val = false := by decide
    obtain ⟨kept, unset⟩ := mask ⟨bit - 8 - 8 - 8, by omega⟩
    have beyond : ¬ bit - 8 < 8 := by omega
    have further : ¬ bit - 8 - 8 < 8 := by omega
    have top : bit - 8 - 8 - 8 < 4 := by omega
    have low : bit - 8 - 8 - 8 < 8 := by omega
    have place : 8 + (8 + (8 + (bit - 8 - 8 - 8))) = bit := by omega
    simp only [first, beyond, further, top, low, kept, unset, place, inside, decide_true,
      Bool.true_and, Bool.and_true, Bool.or_false, Nat.zero_add, ↓reduceIte]

/-- What the routine has set up when the command is out. -/
structure Issued (before after : Host) : Prop where
  commands : after.drive.commands =
    (0x20, ⟨true, before.cpu.regs.eax.setWidth 28, before.cpu.regs.cl⟩) :: before.drive.commands
  disk : after.drive.disk = before.drive.disk
  answers : after.drive.answers = before.drive.answers
  polls : after.drive.polls = 0
  taken : after.drive.taken = 0
  ram : after.cpu.ram = before.cpu.ram
  ebx : after.cpu.regs.ebx = before.cpu.regs.ebx
  ecx : after.cpu.regs.ecx = before.cpu.regs.ecx.extractLsb' 8 24 ++ 8#8
  dx : after.cpu.regs.dx = 0x1f7
  di : after.cpu.regs.di = before.cpu.regs.cx

/-- The bytes that go out to the drive. -/
theorem issueRead_drive (host : Host) :
    host.issueRead.drive =
      let eax := host.cpu.regs.eax
      ((((((host.drive.outByte 0x1f2 host.cpu.regs.cl).outByte 0x1f3 (eax.setWidth 8)).outByte
        0x1f4 ((eax >>> 8).setWidth 8)).outByte 0x1f5 ((eax >>> 8 >>> 8).setWidth 8)).outByte
        0x1f6 ((eax >>> 8 >>> 8 >>> 8).setWidth 8 &&& 0x0f#8 ||| 0xe0#8)).outByte 0x1f7 0x20) := by
  have shift : (8 : BitVec 8).toNat % 32 = 8 := rfl
  simp only [issueRead, exec, outDxAl, Cpu.movEsi, Cpu.movDi, Cpu.movDx, Cpu.movAl, Cpu.movEax,
    Cpu.movCl, Cpu.shrEaxCl, Context.al, Context.dx, Context.cl, byte_of_append,
    half_of_append, shift]
  rfl

theorem issueRead_spec (host : Host) : Issued host host.issueRead := by
  have drive := host.issueRead_drive
  simp only [Drive.outByte, BitVec.ofNat_eq_ofNat, BitVec.reduceEq, ↓reduceIte, Drive.address,
    lba_parts] at drive
  have mode (top : BitVec 8) : (top &&& 0x0f#8 ||| 0xe0#8).getLsbD 6 = true := by
    have set : (0xe0#8).getLsbD 6 = true := by decide
    rw [BitVec.getLsbD_or, set, Bool.or_true]
  refine ⟨?_, ?_, ?_, ?_, ?_, rfl, rfl, rfl, ?_, ?_⟩
  · rw [drive]
    simp only [mode]
    rfl
  · rw [drive]
  · rw [drive]
  · rw [drive]
  · rw [drive]
  · exact half_of_append _ _
  · exact half_of_append _ _

variable {host : Host}

/-- One look at the status register. -/
theorem pollRound_spec (port : host.cpu.regs.dx = 0x1f7) :
    ∃ eax : BitVec 32, eax.setWidth 8 = host.drive.answers host.drive.polls &&& 0x88 ∧
      (host.inAlDx.exec fun cpu => cpu.movAl (cpu.regs.al &&& 0x88)) =
        ⟨host.cpu.movEax eax, { host.drive with polls := host.drive.polls + 1 }⟩ := by
  simp only [inAlDx, Drive.inByte, port, ↓reduceIte, exec, Cpu.movAl, Context.al, byte_of_append]
  exact ⟨_, byte_of_append _ _, rfl⟩

/-- Waiting changes `eax` and the number of polls. -/
theorem notReady_spec (port : host.cpu.regs.dx = 0x1f7) {distance : Nat}
    (answer : host.drive.answers (host.drive.polls + distance) &&& 0x88 = 0x08) :
    ∃ eax polls, ∀ fuel, distance < fuel →
      host.notReady fuel = some ⟨host.cpu.movEax eax, { host.drive with polls }⟩ := by
  induction distance generalizing host with
  | zero =>
      obtain ⟨eax, low, round⟩ := pollRound_spec port
      refine ⟨eax, host.drive.polls + 1, ?_⟩
      intro fuel enough
      obtain ⟨fuel, rfl⟩ := Nat.exists_eq_add_one_of_ne_zero (Nat.ne_of_gt enough)
      rw [notReady, round]
      exact if_pos (low.trans answer)
  | succ distance ih =>
      obtain ⟨eax, low, round⟩ := pollRound_spec port
      by_cases ready : host.drive.answers host.drive.polls &&& 0x88 = 0x08
      · refine ⟨eax, host.drive.polls + 1, ?_⟩
        intro fuel enough
        obtain ⟨fuel, rfl⟩ := Nat.exists_eq_add_one_of_ne_zero (Nat.ne_zero_of_lt enough)
        rw [notReady, round]
        exact if_pos (low.trans ready)
      · obtain ⟨last, polls, rest⟩ := @ih
          ⟨host.cpu.movEax eax, { host.drive with polls := host.drive.polls + 1 }⟩ port (by
            rw [Nat.add_assoc, Nat.add_comm 1]
            exact answer)
        refine ⟨last, polls, ?_⟩
        intro fuel enough
        obtain ⟨fuel, rfl⟩ := Nat.exists_eq_add_one_of_ne_zero (Nat.ne_zero_of_lt enough)
        have again : eax.setWidth 8 ≠ 0x08 := fun same => ready (low.symm.trans same)
        rw [notReady, round]
        exact (if_neg again).trans (rest fuel (by omega))

/-- The counter of `.go_on_read` is the product of 16 bits under the upper half that `ecx`
had. -/
theorem countWords_spec (host : Host) :
    host.countWords.drive = host.drive ∧ host.countWords.cpu.ram = host.cpu.ram ∧
      host.countWords.cpu.regs.ebx = host.cpu.regs.ebx ∧ host.countWords.cpu.regs.dx = 0x1f0 ∧
      host.countWords.cpu.regs.ecx =
        host.cpu.regs.ecx.extractLsb' 16 16 ++ host.cpu.regs.di * 256#16 := by
  have product (count : BitVec 16) :
      (count.setWidth 32 * (256 : BitVec 16).setWidth 32).extractLsb' 0 16 = count * 256#16 := by
    apply BitVec.eq_of_toNat_eq
    simp only [BitVec.extractLsb'_toNat, Nat.shiftRight_zero, BitVec.toNat_mul,
      BitVec.toNat_setWidth, BitVec.ofNat_eq_ofNat, BitVec.toNat_ofNat, Nat.reducePow,
      Nat.reduceMod]
    omega
  refine ⟨rfl, rfl, rfl, half_of_append _ _, ?_⟩
  simp only [countWords, exec, Cpu.movAx, Cpu.movDx, Cpu.movCx, Cpu.mulDx, Context.ax, Context.dx,
    half_of_append, product]

/-- One word goes from the drive to memory. -/
theorem readRound_spec (port : host.cpu.regs.dx = 0x1f0) :
    host.readRound.drive = { host.drive with taken := host.drive.taken + 1 } ∧
      host.readRound.cpu.ram =
        storeHalf host.cpu.ram host.cpu.regs.ebx host.drive.nextWord ∧
      host.readRound.cpu.regs.ebx = host.cpu.regs.ebx + 2#32 ∧
      host.readRound.cpu.regs.dx = 0x1f0 := by
  simp only [readRound, inAxDx, Drive.inWord, port, ↓reduceIte, exec, Cpu.movAx, Cpu.decEcx,
    Context.ax, half_of_append, true_and]
  exact port

/-- The bytes of a stored word. -/
theorem storeHalf_append (ram : Ram) (addr query : BitVec 32) (high low : BitVec 8) :
    storeHalf ram addr (high ++ low) query =
      if query = addr then low else if query = addr + 1#32 then high else ram query := by
  have first : (high ++ low).extractLsb' 0 8 = low := BitVec.extractLsb'_append_eq_right
  have second : (high ++ low).extractLsb' 8 8 = high := BitVec.extractLsb'_append_eq_left
  rw [storeHalf, first, second]

theorem readRound_ram {address : DiskAddress} {others : List (BitVec 8 × DiskAddress)}
    (port : host.cpu.regs.dx = 0x1f0) (command : host.drive.commands = (0x20, address) :: others)
    (available : host.drive.taken < 256 * address.sectors.toNat) (addr : BitVec 32) :
    host.readRound.cpu.ram addr =
      if addr = host.cpu.regs.ebx then
        diskByte host.drive.disk address.lba.toNat (2 * host.drive.taken)
      else if addr = host.cpu.regs.ebx + 1#32 then
        diskByte host.drive.disk address.lba.toNat (2 * host.drive.taken + 1)
      else host.cpu.ram addr := by
  have word : host.drive.nextWord =
      diskByte host.drive.disk address.lba.toNat (2 * host.drive.taken + 1) ++
        diskByte host.drive.disk address.lba.toNat (2 * host.drive.taken) := by
    simp only [Drive.nextWord, command, available, and_self, ↓reduceIte]
  rw [(readRound_spec port).2.1, word, storeHalf_append]

/-- A span two bytes longer, taken apart at its lower end. -/
theorem fill_two (bytes : Nat → BitVec 8) (ram : Ram) (base addr : BitVec 32) {size : Nat}
    (bound : size + 2 < 2 ^ 32) :
    (if addr ∈ Span (base + 2#32) size then bytes (2 + (addr - (base + 2#32)).toNat)
      else if addr = base then bytes 0
      else if addr = base + 1#32 then bytes 1
      else ram addr) =
      if addr ∈ Span base (size + 2) then bytes (addr - base).toNat else ram addr := by
  simp only [mem_span]
  by_cases above : (addr - (base + 2#32)).toNat < size
  · have within : (addr - base).toNat < size + 2 := by bv_omega
    have place : 2 + (addr - (base + 2#32)).toNat = (addr - base).toNat := by bv_omega
    rw [if_pos above, if_pos within, place]
  · rw [if_neg above]
    by_cases first : addr = base
    · rw [if_pos first, first, BitVec.sub_self]
      rfl
    · rw [if_neg first]
      by_cases second : addr = base + 1#32
      · have place : addr - base = 1#32 := by bv_omega
        rw [if_pos second, place, if_pos (by rw [BitVec.toNat_ofNat]; omega)]
        rfl
      · have outside : ¬ (addr - base).toNat < size + 2 := by bv_omega
        rw [if_neg second, if_neg outside]

/-- What the loop leaves when `remaining + 1` words are still to come. -/
theorem goOnRead_spec {address : DiskAddress} {others : List (BitVec 8 × DiskAddress)}
    {remaining : Nat} (port : host.cpu.regs.dx = 0x1f0)
    (command : host.drive.commands = (0x20, address) :: others)
    (counter : host.cpu.regs.ecx = BitVec.ofNat 32 (remaining + 1))
    (bound : 2 * (remaining + 1) < 2 ^ 32)
    (available : host.drive.taken + (remaining + 1) ≤ 256 * address.sectors.toNat) :
    host.goOnRead.drive = { host.drive with taken := host.drive.taken + (remaining + 1) } ∧
      ∀ addr, host.goOnRead.cpu.ram addr =
        if addr ∈ Span host.cpu.regs.ebx (2 * (remaining + 1)) then
          diskByte host.drive.disk address.lba.toNat
            (2 * host.drive.taken + (addr - host.cpu.regs.ebx).toNat)
        else host.cpu.ram addr := by
  induction remaining generalizing host with
  | zero =>
      have last : host.readRound.cpu.regs.ecx = 0 := by
        rw [readRound_ecx, counter]
        rfl
      rw [goOnRead, if_pos last]
      refine ⟨(readRound_spec port).1, ?_⟩
      intro addr
      rw [readRound_ram port command (by omega)]
      exact fill_two
        (fun offset => diskByte host.drive.disk address.lba.toNat (2 * host.drive.taken + offset))
        host.cpu.ram host.cpu.regs.ebx addr (by decide : 0 + 2 < 2 ^ 32)
  | succ remaining ih =>
      have next : host.readRound.cpu.regs.ecx = BitVec.ofNat 32 (remaining + 1) := by
        rw [readRound_ecx, counter]
        bv_omega
      have again : host.readRound.cpu.regs.ecx ≠ 0 := by
        rw [next]
        bv_omega
      obtain ⟨drive, -, ebx, dx⟩ := readRound_spec port
      have bytes := readRound_ram port command (by omega)
      have taken : host.readRound.drive.taken = host.drive.taken + 1 := by rw [drive]
      obtain ⟨rest, memory⟩ := @ih host.readRound dx (by rw [drive]; exact command) next (by omega)
        (by omega)
      rw [goOnRead, if_neg again]
      refine ⟨?_, ?_⟩
      · rw [rest, drive, Nat.add_assoc, Nat.add_comm 1]
      · intro addr
        rw [memory addr, bytes addr, drive, ebx, Nat.mul_add 2 host.drive.taken 1]
        simp only [Nat.add_assoc]
        exact fill_two
          (fun offset =>
            diskByte host.drive.disk address.lba.toNat (2 * host.drive.taken + offset))
          host.cpu.ram host.cpu.regs.ebx addr (by omega)

/-- The upper half of `ecx` is zero for a count of at most 255, and the product fits. -/
theorem word_count {sectors : Nat} (most : sectors ≤ 255) :
    ((BitVec.ofNat 32 sectors).extractLsb' 8 24 ++ 8#8).extractLsb' 16 16 ++
      (BitVec.ofNat 32 sectors).setWidth 16 * 256#16 = BitVec.ofNat 32 (256 * sectors) := by
  have upper : (BitVec.ofNat 32 sectors).extractLsb' 8 24 = 0#24 := by
    apply BitVec.eq_of_toNat_eq
    rw [BitVec.extractLsb'_toNat, Nat.shiftRight_eq_div_pow, BitVec.toNat_ofNat,
      BitVec.toNat_ofNat]
    omega
  have top : (0#24 ++ 8#8).extractLsb' 16 16 = 0#16 := by decide
  rw [upper, top]
  apply BitVec.eq_of_toNat_eq
  rw [BitVec.toNat_append, BitVec.toNat_ofNat, Nat.zero_mod, Nat.zero_shiftLeft, Nat.zero_or]
  simp only [BitVec.toNat_setWidth, BitVec.toNat_mul, BitVec.toNat_ofNat]
  omega

/-- The state in front of `.go_on_read`, for a request of `sectors` sectors from `lba` on. -/
structure AtData (lba sectors : Nat) (before after : Host) : Prop where
  commands : after.drive.commands =
    (0x20, ⟨true, BitVec.ofNat 28 lba, BitVec.ofNat 8 sectors⟩) :: before.drive.commands
  disk : after.drive.disk = before.drive.disk
  taken : after.drive.taken = 0
  ram : after.cpu.ram = before.cpu.ram
  ebx : after.cpu.regs.ebx = before.cpu.regs.ebx
  ecx : after.cpu.regs.ecx = BitVec.ofNat 32 (256 * sectors)
  dx : after.cpu.regs.dx = 0x1f0

/-- The routine gets to its last loop once the drive is ready. -/
theorem rdDiskM32_atData {lba sectors poll : Nat}
    (sector : host.cpu.regs.eax = BitVec.ofNat 32 lba)
    (count : host.cpu.regs.ecx = BitVec.ofNat 32 sectors) (most : sectors ≤ 255)
    (answer : host.drive.answers poll &&& 0x88 = 0x08) :
    ∃ middle, (∀ fuel, poll < fuel →
      host.rdDiskM32 fuel = some (middle.goOnRead.exec Cpu.ret)) ∧
      AtData lba sectors host middle := by
  -- the state is named here, so that the equations below do not look into `issueRead`
  obtain ⟨called, out⟩ : ∃ called, host.issueRead = called := ⟨_, rfl⟩
  have issued := host.issueRead_spec
  rw [out] at issued
  have status : called.drive.answers (called.drive.polls + poll) &&& 0x88 = 0x08 := by
    rw [issued.answers, issued.polls, Nat.zero_add]
    exact answer
  obtain ⟨eax, polls, wait⟩ := notReady_spec issued.dx status
  have number : (BitVec.ofNat 32 lba).setWidth 28 = BitVec.ofNat 28 lba :=
    BitVec.setWidth_ofNat_of_le (by decide) _
  have amount : (BitVec.ofNat 32 sectors).setWidth 8 = BitVec.ofNat 8 sectors :=
    BitVec.setWidth_ofNat_of_le (by decide) _
  have commands := issued.commands
  rw [Context.cl, sector, count, number, amount] at commands
  obtain ⟨drive, ram, ebx, dx, ecx⟩ :=
    countWords_spec ⟨called.cpu.movEax eax, { called.drive with polls }⟩
  generalize counted : countWords ⟨called.cpu.movEax eax, { called.drive with polls }⟩ = middle
    at drive ram ebx dx ecx
  refine ⟨middle, ?_, ?_, ?_, ?_, ram.trans issued.ram, ebx.trans issued.ebx, ?_, dx⟩
  · intro fuel enough
    rw [rdDiskM32, out, wait fuel enough, ← counted]
    rfl
  · rw [drive]
    exact commands
  · rw [drive]
    exact issued.disk
  · rw [drive]
    exact issued.taken
  · have left : (called.cpu.movEax eax).regs.ecx = called.cpu.regs.ecx := rfl
    have kept : (called.cpu.movEax eax).regs.di = called.cpu.regs.di := rfl
    rw [ecx, left, kept, issued.ecx, issued.di, Context.cx, count]
    exact word_count most

/-- **The sectors come into memory in order.** The drive decodes the sector number and the
count, gets one read command, and gives its words into the 512 bytes for each sector from
`ebx` on; no other byte of memory changes. The only thing asked of the drive is that it
becomes ready. -/
theorem rdDiskM32_reads {lba sectors : Nat} (sector : host.cpu.regs.eax = BitVec.ofNat 32 lba)
    (small : lba < 2 ^ 28) (count : host.cpu.regs.ecx = BitVec.ofNat 32 sectors)
    (least : 1 ≤ sectors) (most : sectors ≤ 255)
    (ready : ∃ poll, host.drive.answers poll &&& 0x88 = 0x08) :
    ∃ polls after, (∀ fuel, polls < fuel → host.rdDiskM32 fuel = some after) ∧
      after.drive.commands = (0x20, ⟨true, BitVec.ofNat 28 lba, BitVec.ofNat 8 sectors⟩) ::
        host.drive.commands ∧
      after.drive.taken = 256 * sectors ∧
      (∀ offset < 512 * sectors,
        after.cpu.ram (host.cpu.regs.ebx + BitVec.ofNat 32 offset) =
          host.drive.disk (lba + offset / 512) (offset % 512)) ∧
      ∀ addr, addr ∉ Span host.cpu.regs.ebx (512 * sectors) →
        after.cpu.ram addr = host.cpu.ram addr := by
  obtain ⟨poll, answer⟩ := ready
  obtain ⟨middle, ran, data⟩ := rdDiskM32_atData sector count most answer
  have size : (BitVec.ofNat 8 sectors).toNat = sectors := by
    rw [BitVec.toNat_ofNat, Nat.mod_eq_of_lt (by omega)]
  have place : (BitVec.ofNat 28 lba).toNat = lba := by
    rw [BitVec.toNat_ofNat, Nat.mod_eq_of_lt small]
  obtain ⟨remaining, words⟩ := Nat.exists_eq_add_of_le' (by omega : 1 ≤ 256 * sectors)
  have counter := data.ecx
  rw [words] at counter
  obtain ⟨drive, memory⟩ := goOnRead_spec data.dx data.commands counter (by omega) (by
    rw [data.taken, size]
    omega)
  have span : 512 * sectors = 2 * (remaining + 1) := by omega
  simp only [data.taken, data.disk, data.ebx, data.ram, place, Nat.mul_zero, Nat.zero_add]
    at memory
  refine ⟨poll, middle.goOnRead.exec Cpu.ret, ran, ?_, ?_, ?_, ?_⟩
  · change middle.goOnRead.drive.commands = _
    rw [drive]
    exact data.commands
  · change middle.goOnRead.drive.taken = _
    rw [drive, words, data.taken, Nat.zero_add]
  · intro offset inside
    have short : (BitVec.ofNat 32 offset).toNat = offset := by
      rw [BitVec.toNat_ofNat, Nat.mod_eq_of_lt (by omega)]
    have hit : host.cpu.regs.ebx + BitVec.ofNat 32 offset ∈
        Span host.cpu.regs.ebx (2 * (remaining + 1)) := add_mem_span (by omega)
    change middle.goOnRead.cpu.ram _ = _
    rw [memory, if_pos hit, BitVec.add_comm, BitVec.add_sub_cancel, short]
    rfl
  · intro addr outside
    rw [span] at outside
    exact (memory addr).trans (if_neg outside)

end Host

/-- The call of `p_mode_start`: 200 sectors from sector 9 on to `0x70000`, from a drive that is
busy on the first look. -/
def sampleHost : Host where
  cpu :=
    { regs :=
        { eax := 9, ecx := 200, edx := 0, ebx := 0x70000, esp := 0x8fc, ebp := 0, esi := 0,
          edi := 0, ds := 0, es := 0, fs := 0, gs := 0, cs := 0, eip := 0, eflags := 0 }
      ram := fun _ => 0
      ports := [] }
  drive :=
    { disk := fun sector offset => BitVec.ofNat 8 (sector + offset)
      answers := fun poll => if poll = 0 then 0x80 else 0x58
      sectorCount := 0, lbaLow := 0, lbaMid := 0, lbaHigh := 0, device := 0
      commands := [], polls := 0, taken := 0 }

theorem rdDiskM32_reads_kernel :
    ∃ polls after, (∀ fuel, polls < fuel → sampleHost.rdDiskM32 fuel = some after) ∧
      after.drive.commands = [(0x20, ⟨true, 9, 200⟩)] ∧ after.drive.taken = 51200 ∧
      after.cpu.ram 0x70201 = 11 := by
  obtain ⟨polls, after, ran, commands, taken, bytes, -⟩ :=
    @Host.rdDiskM32_reads sampleHost 9 200 rfl (by decide) rfl (by decide) (by decide)
      ⟨1, by decide⟩
  exact ⟨polls, after, ran, commands, taken, bytes 0x201 (by decide)⟩

end OsElephant
