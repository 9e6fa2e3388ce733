import LearningKernels.Machine.ByteMemory
import LearningKernels.Machine.Terminal

/-!
# The console

`put_char` and `put_str` of `print.S`. The state is memory, the registers of the display
controller that hold the cursor, and the addresses stored to so far. The cursor is kept
in the sixteen-bit register `bx` and doubled to give the byte offset of its cell in the
video segment; a store behind the limit of that segment raises a general-protection
fault. Pushed and popped registers are the arguments of the Lean functions.
-/

namespace OsElephant

open Machine

/-- Memory, the display controller's index register and its data registers. -/
structure Console where
  memory : Memory
  crtcIndex : Byte
  crtc : Byte → Byte
  stores : List Nat

/-- Why printing did not return. -/
inductive Stop where
  | generalProtection (offset : Nat)
  | unfinished
  deriving DecidableEq, Repr

/-- The base of `VIDEO_DESC`. -/
def videoBase : Nat := 0xb8000

/-- The limit of `VIDEO_DESC`: eight units of four kilobytes. -/
def videoLimit : Nat := 0x7fff

/-- A sixteen-bit number as `jl` takes it. -/
def signed16 (value : Nat) : Int := if value < 0x8000 then value else (value : Int) - 0x10000

namespace Console

/-- `out dx, al` to the index port and to the data port of the display controller. -/
def out (dx : Nat) (al : Byte) (console : Console) : Console :=
  if dx = 0x03d4 then { console with crtcIndex := al }
  else if dx = 0x03d5 then
    { console with crtc := Function.update console.crtc console.crtcIndex al }
  else console

/-- `in al, dx` from the data port. -/
def inData (console : Console) : Byte := console.crtc console.crtcIndex

/-- One byte of a store. -/
def storeByte (addr : Nat) (byte : Byte) (console : Console) : Console :=
  { console with
    memory := Function.update console.memory addr byte
    stores := addr :: console.stores }

/-- `mov byte [gs:offset], byte`. -/
def storeGs (offset : Nat) (byte : Byte) (console : Console) : Except Stop Console :=
  if offset ≤ videoLimit then .ok (console.storeByte (videoBase + offset) byte)
  else .error (.generalProtection offset)

/-- `mov word [gs:offset], word`. -/
def storeGsWord (offset word : Nat) (console : Console) : Except Stop Console :=
  if offset + 1 ≤ videoLimit then
    .ok ((console.storeByte (videoBase + offset) (BitVec.ofNat 8 word)).storeByte
      (videoBase + offset + 1) (BitVec.ofNat 8 (word / 256)))
  else .error (.generalProtection offset)

/-- `movsd`. -/
def movsd (esi edi : Nat) (console : Console) : Console :=
  { console with
    memory := write32 console.memory edi (read32 console.memory esi)
    stores := [edi, edi + 1, edi + 2, edi + 3] ++ console.stores }

/-- `rep movsd`, forward. -/
def repMovsd : (ecx esi edi : Nat) → Console → Console
  | 0, _, _, console => console
  | ecx + 1, esi, edi, console => repMovsd ecx (esi + 4) (edi + 4) (console.movsd esi edi)

/-- The loop at `.cls`. -/
def cls : (ecx ebx : Nat) → Console → Except Stop Console
  | 0, _, console => .ok console
  | ecx + 1, ebx, console => do
      let console ← console.storeGsWord ebx 0x0720
      cls ecx (ebx + 2) console

/-- The code at `.set_cursor`. -/
def setCursor (bx : Nat) (console : Console) : Console :=
  let bh : Byte := BitVec.ofNat 8 (bx / 256)
  let bl : Byte := BitVec.ofNat 8 bx
  (((console.out 0x03d4 0x0e).out 0x03d5 bh).out 0x03d4 0x0f).out 0x03d5 bl

/-- The code at `.roll_screen`. -/
def rollScreen (console : Console) : Except Stop Console := do
  let console ← (console.repMovsd 960 0xb80a0 0xb8000).cls 80 3840
  return console.setCursor 1920

/-- The code at `.is_line_feed` and `.is_carriage_return`. -/
def isLineFeed (bx : Nat) (console : Console) : Except Stop Console :=
  let dx := bx % 80
  let bx := (bx + 0x10000 - dx) % 0x10000
  let bx := (bx + 80) % 0x10000
  if signed16 bx < 2000 then .ok (console.setCursor bx) else console.rollScreen

/-- The code at `.put_other`. -/
def putOther (bx : Nat) (cl : Byte) (console : Console) : Except Stop Console := do
  let bx := 2 * bx % 0x10000
  let console ← console.storeGs bx cl
  let bx := (bx + 1) % 0x10000
  let console ← console.storeGs bx 0x07
  let bx := bx / 2
  let bx := (bx + 1) % 0x10000
  if signed16 bx < 2000 then .ok (console.setCursor bx) else console.isLineFeed bx

/-- The code at `.is_backspace`. -/
def isBackspace (bx : Nat) (console : Console) : Except Stop Console := do
  let bx := (bx + 0xffff) % 0x10000
  let bx := 2 * bx % 0x10000
  let console ← console.storeGs bx 0x20
  let bx := (bx + 1) % 0x10000
  let console ← console.storeGs bx 0x07
  let bx := bx / 2
  return console.setCursor bx

/-- `put_char`. -/
def putChar (cl : Byte) (console : Console) : Except Stop Console :=
  let console := console.out 0x03d4 0x0e
  let ah := console.inData
  let console := console.out 0x03d4 0x0f
  let al := console.inData
  let bx := 256 * ah.toNat + al.toNat
  if cl = 0x0d then console.isLineFeed bx
  else if cl = 0x0a then console.isLineFeed bx
  else if cl = 0x08 then console.isBackspace bx
  else console.putOther bx cl

/-- `put_str`, from the memory the string lies in. -/
def putStr (text : BitVec 32 → Byte) : (fuel : Nat) → (ebx : BitVec 32) → Console →
    Except Stop Console
  | 0, _, _ => .error .unfinished
  | fuel + 1, ebx, console =>
      let cl := text ebx
      if cl = 0 then .ok console
      else do
        let console ← console.putChar cl
        putStr text fuel (ebx + 1) console

/-- Successive calls of `put_char`. -/
def putChars : List Byte → Console → Except Stop Console
  | [], console => .ok console
  | cl :: rest, console => do
      let console ← console.putChar cl
      putChars rest console

/-- The cursor the display controller holds. -/
def cursor (console : Console) : Nat :=
  256 * (console.crtc 0x0e).toNat + (console.crtc 0x0f).toNat

end Console

end OsElephant
