import LearningKernels.Machine.Stack

/-!
# Interrupt entry and exit

The stubs of `kernel.S` and the gates of `interrupt.c`. The processor pushes the flags, the
code segment and the return address, and an error code for some exceptions; the stub
pushes a zero where its author expected no error code, so that the frame has the same
shape for every vector, and `intr_exit` drops one word before `iretd`. The interrupted
context comes back exactly for the vectors where the stub agrees with the processor
(`OsElephant.Handlers.interrupt_restores_iff`).
-/

namespace OsElephant

open Machine

/-- The registers of the interrupted code. -/
structure Context where
  eax : BitVec 32
  ecx : BitVec 32
  edx : BitVec 32
  ebx : BitVec 32
  esp : BitVec 32
  ebp : BitVec 32
  esi : BitVec 32
  edi : BitVec 32
  ds : BitVec 16
  es : BitVec 16
  fs : BitVec 16
  gs : BitVec 16
  cs : BitVec 16
  eip : BitVec 32
  eflags : BitVec 32
  deriving DecidableEq, Repr

/-- Registers, memory and the bytes written to ports. -/
structure Cpu where
  regs : Context
  ram : Ram
  ports : List (BitVec 8 × BitVec 8)

/-- `struct gate_desc`. -/
structure GateDesc where
  funcOffsetLowWord : BitVec 16
  selector : BitVec 16
  dcount : BitVec 8
  attr : BitVec 8
  funcOffsetHighWord : BitVec 16
  deriving DecidableEq, Repr

/-- `SELECTOR_K_CODE`. -/
def selectorKCode : BitVec 16 := 0x08

/-- `IDT_DESC_ATTR_DPL0`: a present 32-bit interrupt gate. -/
def idtDescAttrDpl0 : BitVec 8 := 0x8e

/-- `make_idt_desc`. -/
def makeIdtDesc (attr : BitVec 8) (function : BitVec 32) : GateDesc where
  funcOffsetLowWord := (function &&& 0x0000ffff#32).setWidth 16
  selector := selectorKCode
  dcount := 0
  attr := attr
  funcOffsetHighWord := ((function &&& 0xffff0000#32) >>> 16).setWidth 16

/-- Where the processor goes through a gate. -/
def GateDesc.offset (gate : GateDesc) : BitVec 32 :=
  gate.funcOffsetHighWord ++ gate.funcOffsetLowWord

/-- The table that `idt_desc_init` makes of `intr_entry_table`. -/
def idtDescInit (intrEntryTable : Fin 0x21 → BitVec 32) (vector : Fin 0x21) : GateDesc :=
  makeIdtDesc idtDescAttrDpl0 (intrEntryTable vector)

/-- The second argument of the macro `VECTOR`. -/
inductive ErrorPush where
  | zero
  | errorCode
  deriving DecidableEq, Repr

open ErrorPush in
/-- The uses of `VECTOR`, from `0x00` to `0x20`. -/
def vectors : List ErrorPush :=
  [zero, zero, zero, zero, zero, zero, zero, zero,
   errorCode, zero, errorCode, errorCode, zero, errorCode, errorCode, zero,
   zero, errorCode, zero, zero, zero, zero, zero, zero,
   errorCode, zero, errorCode, errorCode, zero, errorCode, errorCode, zero,
   zero]

/-- What the stub of a vector does about the error code. -/
def errorPush (vector : Fin 0x21) : ErrorPush := vectors.get vector

/-- The exceptions for which the processor pushes an error code. -/
def PushesErrorCode (vector : Fin 0x21) : Prop := vector.val ∈ [8, 10, 11, 12, 13, 14, 17]

instance (vector : Fin 0x21) : Decidable (PushesErrorCode vector) :=
  inferInstanceAs (Decidable (_ ∈ _))

namespace Cpu

/-- `push` of a doubleword. -/
def push (word : BitVec 32) (cpu : Cpu) : Cpu :=
  { cpu with
    regs := { cpu.regs with esp := cpu.regs.esp - 4#32 }
    ram := storeWord cpu.ram (cpu.regs.esp - 4#32) word }

/-- `push` of a segment register. -/
def pushSegment (segment : BitVec 16) (cpu : Cpu) : Cpu := cpu.push (segment.setWidth 32)

/-- `add esp, count`. The arithmetic flags it sets are overwritten by `iretd` unread. -/
def addEsp (count : BitVec 32) (cpu : Cpu) : Cpu :=
  { cpu with regs := { cpu.regs with esp := cpu.regs.esp + count } }

/-- `pop` of a doubleword. -/
def pop (cpu : Cpu) : BitVec 32 × Cpu := (loadWord cpu.ram cpu.regs.esp, cpu.addEsp 4#32)

/-- `pushad`. -/
def pushad (cpu : Cpu) : Cpu :=
  let esp := cpu.regs.esp
  let cpu := cpu.push cpu.regs.eax
  let cpu := cpu.push cpu.regs.ecx
  let cpu := cpu.push cpu.regs.edx
  let cpu := cpu.push cpu.regs.ebx
  let cpu := cpu.push esp
  let cpu := cpu.push cpu.regs.ebp
  let cpu := cpu.push cpu.regs.esi
  cpu.push cpu.regs.edi

/-- `popad`; the stored stack pointer is dropped. -/
def popad (cpu : Cpu) : Cpu :=
  let (edi, cpu) := cpu.pop
  let (esi, cpu) := cpu.pop
  let (ebp, cpu) := cpu.pop
  let (_, cpu) := cpu.pop
  let (ebx, cpu) := cpu.pop
  let (edx, cpu) := cpu.pop
  let (ecx, cpu) := cpu.pop
  let (eax, cpu) := cpu.pop
  { cpu with regs := { cpu.regs with eax, ecx, edx, ebx, ebp, esi, edi } }

/-- `mov al, value`. -/
def movAl (value : BitVec 8) (cpu : Cpu) : Cpu :=
  { cpu with regs := { cpu.regs with eax := cpu.regs.eax.extractLsb' 8 24 ++ value } }

/-- `out port, al`. -/
def outAl (port : BitVec 8) (cpu : Cpu) : Cpu :=
  { cpu with ports := (port, cpu.regs.eax.setWidth 8) :: cpu.ports }

/-- `iretd` within one privilege level. -/
def iretd (cpu : Cpu) : Cpu :=
  let (eip, cpu) := cpu.pop
  let (cs, cpu) := cpu.pop
  let (eflags, cpu) := cpu.pop
  { cpu with regs := { cpu.regs with eip, cs := cs.setWidth 16, eflags } }

/-- What the processor does to deliver an interrupt through a gate of the same privilege
level: it pushes the return frame, and clears the flags `VM`, `RF`, `NT`, `IF`, `TF`. -/
def deliver (vector : Fin 0x21) (gate : GateDesc) (errorCode : BitVec 32) (cpu : Cpu) : Cpu :=
  let cpu := cpu.push cpu.regs.eflags
  let cpu := cpu.pushSegment cpu.regs.cs
  let cpu := cpu.push cpu.regs.eip
  let cpu := if PushesErrorCode vector then cpu.push errorCode else cpu
  { cpu with
    regs := { cpu.regs with
      eip := gate.offset
      cs := gate.selector
      eflags := cpu.regs.eflags &&& ~~~0x00034300#32 } }

/-- The macro `VECTOR` from `push ds` to its `call`, which pushes the address of the
instruction behind it. -/
def saveContext (vector : Fin 0x21) (returnAddress : BitVec 32) (cpu : Cpu) : Cpu :=
  let cpu := cpu.pushSegment cpu.regs.ds
  let cpu := cpu.pushSegment cpu.regs.es
  let cpu := cpu.pushSegment cpu.regs.fs
  let cpu := cpu.pushSegment cpu.regs.gs
  let cpu := cpu.pushad
  let cpu := cpu.movAl 0x20
  let cpu := cpu.outAl 0xa0
  let cpu := cpu.outAl 0x20
  let cpu := cpu.push (BitVec.ofNat 32 vector.val)
  cpu.push returnAddress

/-- The macro `VECTOR` up to its `call`. -/
def enter (vector : Fin 0x21) (returnAddress : BitVec 32) (cpu : Cpu) : Cpu :=
  match errorPush vector with
  | .zero => (cpu.push 0).saveContext vector returnAddress
  | .errorCode => cpu.saveContext vector returnAddress

/-- `intr_exit`. -/
def intrExit (cpu : Cpu) : Cpu :=
  let cpu := cpu.addEsp 4#32
  let cpu := cpu.popad
  let (gs, cpu) := cpu.pop
  let (fs, cpu) := cpu.pop
  let (es, cpu) := cpu.pop
  let (ds, cpu) := cpu.pop
  let cpu := { cpu with
    regs := { cpu.regs with
      gs := gs.setWidth 16
      fs := fs.setWidth 16
      es := es.setWidth 16
      ds := ds.setWidth 16 } }
  let cpu := cpu.addEsp 4#32
  cpu.iretd

end Cpu

/-- What the environment of the stubs fixes: the addresses of the stubs and of the
instructions behind their calls, the handlers in `idt_table`, and the error codes. -/
structure Handlers where
  intrEntryTable : Fin 0x21 → BitVec 32
  returnAddress : Fin 0x21 → BitVec 32
  idtTable : Fin 0x21 → Cpu → Cpu
  errorCode : BitVec 32

namespace Handlers

variable (handlers : Handlers)

/-- The state in which the handler of a vector starts. -/
def atCall (vector : Fin 0x21) (cpu : Cpu) : Cpu :=
  (cpu.deliver vector (idtDescInit handlers.intrEntryTable vector) handlers.errorCode).enter
    vector (handlers.returnAddress vector)

/-- The whole service of an interrupt. -/
def interrupt (vector : Fin 0x21) (cpu : Cpu) : Cpu :=
  (handlers.idtTable vector (handlers.atCall vector cpu)).intrExit

end Handlers

end OsElephant
