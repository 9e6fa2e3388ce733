import LearningKernels.Machine.Path
import LearningKernels.Toyos.Number

/-!
# The scanner and the conversions

`vsprintf` of `vsprintf.cpp`. The format is read through a pointer that must not
pass its terminating zero, and every argument occupies one slot of the argument
list: a word, which `va_arg` reads the low 32 bits of, or a string.
-/

namespace Toyos

open Machine

/-- One slot of the argument list. -/
inductive Arg where
  | word (value : Int)
  | str (text : List Byte)
  deriving DecidableEq, Repr

/-- How a call goes wrong: it reads the format past its end, finds no argument or one
of the wrong kind, or gets the null pointer from `number`. A loop that is out of fuel
is unfinished. -/
inductive Fault where
  | overrun
  | noArg
  | badArg
  | nullStr
  | unfinished
  deriving DecidableEq, Repr

/-- `va_arg` of an integer or a pointer, as the `int` it is used as. -/
def vaArgInt : List Arg → Except Fault (Int × List Arg)
  | .word value :: args => .ok (wrap32 value, args)
  | .str _ :: _ => .error .badArg
  | [] => .error .noArg

/-- `va_arg` of a string. -/
def vaArgStr : List Arg → Except Fault (List Byte × List Arg)
  | .str text :: args => .ok (text, args)
  | .word _ :: _ => .error .badArg
  | [] => .error .noArg

/-- `va_arg` of the address of a cell. -/
def vaArgCell : List Arg → Except Fault (Int × List Arg)
  | .word address :: args => .ok (address, args)
  | .str _ :: _ => .error .badArg
  | [] => .error .noArg

/-- `*fmt`. -/
def peek : List Byte → Except Fault Byte
  | [] => .error .overrun
  | char :: _ => .ok char

/-- `++fmt`. -/
def advance : List Byte → Except Fault (List Byte)
  | [] => .error .overrun
  | _ :: fmt => .ok fmt

/-- `is_digit`. -/
def isDigit (char : Byte) : Bool := 48 ≤ char.toNat && char.toNat ≤ 57

/-- `skip_atoi`, with the value so far. -/
def skipAtoi : (fmt : List Byte) → (i : Int) → Except Fault (Int × List Byte)
  | [], _ => .error .overrun
  | char :: fmt, i =>
      if isDigit char then skipAtoi fmt (wrap32 (i * 10 + char.toNat - 48))
      else .ok (i, char :: fmt)

/-- The flag a character stands for. -/
def setFlag (flags : Flags) (char : Byte) : Option Flags :=
  if char = chr '-' then some { flags with left := true }
  else if char = chr '+' then some { flags with plus := true }
  else if char = chr ' ' then some { flags with space := true }
  else if char = chr '#' then some { flags with special := true }
  else if char = chr '0' then some { flags with zeropad := true }
  else none

/-- The loop `repeat`, from the character behind the `%` on. -/
def getFlags : (fmt : List Byte) → Flags → Except Fault (Flags × List Byte)
  | [], _ => .error .overrun
  | char :: fmt, flags =>
      match setFlag flags char with
      | some more => getFlags fmt more
      | none => .ok (flags, char :: fmt)

/-- The field width. As in the source, a `*` is not stepped over. -/
def getFieldWidth (fmt : List Byte) (flags : Flags) (args : List Arg) :
    Except Fault (Int × Flags × List Byte × List Arg) := do
  let char ← peek fmt
  if isDigit char then
    let (fieldWidth, fmt) ← skipAtoi fmt 0
    pure (fieldWidth, flags, fmt, args)
  else if char = chr '*' then
    let (fieldWidth, args) ← vaArgInt args
    if fieldWidth < 0 then
      pure (wrap32 (-fieldWidth), { flags with left := true }, fmt, args)
    else
      pure (fieldWidth, flags, fmt, args)
  else
    pure (-1, flags, fmt, args)

/-- The precision. As in the source, a `*` is not stepped over. -/
def getPrecision (fmt : List Byte) (args : List Arg) :
    Except Fault (Int × List Byte × List Arg) := do
  let char ← peek fmt
  if char = chr '.' then
    let fmt ← advance fmt
    let char ← peek fmt
    if isDigit char then
      let (precision, fmt) ← skipAtoi fmt 0
      pure (if precision < 0 then 0 else precision, fmt, args)
    else if char = chr '*' then
      let (precision, args) ← vaArgInt args
      pure (if precision < 0 then 0 else precision, fmt, args)
    else
      pure (0, fmt, args)
  else
    pure (-1, fmt, args)

/-- The length qualifier, which nothing uses. -/
def skipQualifier (fmt : List Byte) : Except Fault (List Byte) := do
  let char ← peek fmt
  if char = chr 'h' ∨ char = chr 'l' ∨ char = chr 'L' then advance fmt else pure fmt

section Conversions

variable (stray : Stray) (flags : Flags) (fieldWidth precision : Int)

/-- `case 'c'`. -/
def convertChar (value : Int) : Printed :=
  let (lead, fieldWidth) :=
    if ¬ flags.left then fillBefore (chr ' ') fieldWidth else ([], fieldWidth)
  let (trail, _) := fillBefore (chr ' ') fieldWidth
  { text := lead ++ [BitVec.ofInt 8 value] ++ trail }

/-- `case 's'`. -/
def convertStr (s : List Byte) : Printed :=
  let len := wrap32 s.length
  let len := if precision < 0 then len else if precision < len then precision else len
  let (lead, fieldWidth) :=
    if ¬ flags.left then fillWhile (chr ' ') len fieldWidth else ([], fieldWidth)
  let (trail, _) := fillWhile (chr ' ') len fieldWidth
  { text := lead ++ s.take len.toNat ++ trail }

/-- The conversions that call `number`. -/
def convertNumber (base : Int) (args : List Arg) : Except Fault (Printed × List Arg) := do
  let (value, args) ← vaArgInt args
  match number stray value base fieldWidth precision flags with
  | some printed => pure (printed, args)
  | none => .error .nullStr

/-- `default`: an unknown conversion is copied behind a `%`. -/
def convertOther (char : Byte) : Printed :=
  { text := (if char ≠ chr '%' then [chr '%'] else []) ++ if char ≠ 0 then [char] else [] }

/-- The conversion switch; `position` is `str - buf`. -/
def convert (char : Byte) (args : List Arg) (position : Nat) :
    Except Fault (Printed × List Arg) := do
  if char = chr 'c' then
    let (value, args) ← vaArgInt args
    pure (convertChar flags fieldWidth value, args)
  else if char = chr 's' then
    let (s, args) ← vaArgStr args
    pure (convertStr flags fieldWidth precision s, args)
  else if char = chr 'o' then
    convertNumber stray flags fieldWidth precision 8 args
  else if char = chr 'p' then
    if fieldWidth = -1 then
      convertNumber stray { flags with zeropad := true } 8 precision 16 args
    else
      convertNumber stray flags fieldWidth precision 16 args
  else if char = chr 'x' then
    convertNumber stray { flags with small := true } fieldWidth precision 16 args
  else if char = chr 'X' then
    convertNumber stray flags fieldWidth precision 16 args
  else if char = chr 'd' ∨ char = chr 'i' then
    convertNumber stray { flags with sign := true } fieldWidth precision 10 args
  else if char = chr 'u' then
    convertNumber stray flags fieldWidth precision 10 args
  else if char = chr 'n' then
    let (address, args) ← vaArgCell args
    pure ({ text := [], cells := [(address, wrap32 position)] }, args)
  else
    pure (convertOther char, args)

end Conversions

/-- Everything done so far, one conversion after the other. -/
def Printed.append (before after : Printed) : Printed where
  text := before.text ++ after.text
  reads := before.reads ++ after.reads
  cells := before.cells ++ after.cells

/-- The `++fmt` of the loop behind a conversion. At the terminator the step back of
`default` undoes it. -/
def nextRound (char : Byte) (fmt : List Byte) : Except Fault (List Byte) :=
  if char = 0 then pure fmt else advance fmt

/-- The main loop, on one unit of fuel for each round. -/
def vsprintfLoop (stray : Stray) :
    (fuel : Nat) → (fmt : List Byte) → List Arg → Printed → Except Fault (Printed × List Arg)
  | 0, _, _, _ => .error .unfinished
  | fuel + 1, fmt, args, done => do
      let char ← peek fmt
      if char = 0 then
        pure (done, args)
      else if char ≠ chr '%' then
        let fmt ← advance fmt
        vsprintfLoop stray fuel fmt args (done.append { text := [char] })
      else
        let fmt ← advance fmt
        let (flags, fmt) ← getFlags fmt {}
        let (fieldWidth, flags, fmt, args) ← getFieldWidth fmt flags args
        let (precision, fmt, args) ← getPrecision fmt args
        let fmt ← skipQualifier fmt
        let char ← peek fmt
        let (printed, args) ←
          convert stray flags fieldWidth precision char args done.text.length
        let fmt ← nextRound char fmt
        vsprintfLoop stray fuel fmt args (done.append printed)

/-- What the main loop holds where it tests `*fmt`: the format from there on, the arguments
that are left and what is done. -/
structure Round where
  fmt : List Byte
  args : List Arg
  done : Printed
  deriving DecidableEq

/-- One round of the main loop; `none` is its end. -/
def vsprintfRound (stray : Stray) (round : Round) : Except Fault (Option Round) := do
  let char ← peek round.fmt
  if char = 0 then
    pure none
  else if char ≠ chr '%' then
    let fmt ← advance round.fmt
    pure (some ⟨fmt, round.args, round.done.append { text := [char] }⟩)
  else
    let fmt ← advance round.fmt
    let (flags, fmt) ← getFlags fmt {}
    let (fieldWidth, flags, fmt, args) ← getFieldWidth fmt flags round.args
    let (precision, fmt, args) ← getPrecision fmt args
    let fmt ← skipQualifier fmt
    let char ← peek fmt
    let (printed, args) ←
      convert stray flags fieldWidth precision char args round.done.text.length
    let fmt ← nextRound char fmt
    pure (some ⟨fmt, args, round.done.append printed⟩)

/-- The main loop goes through its rounds. -/
theorem vsprintfLoop_succ (stray : Stray) (fuel : Nat) (round : Round) :
    vsprintfLoop stray (fuel + 1) round.fmt round.args round.done =
      vsprintfRound stray round >>= fun
        | none => .ok (round.done, round.args)
        | some next => vsprintfLoop stray fuel next.fmt next.args next.done := by
  rw [vsprintfLoop, vsprintfRound, bind_assoc]
  congr 1
  funext char
  split_ifs
  · rfl
  · simp only [bind_assoc, pure_bind]
  · simp only [bind_assoc, pure_bind]

/-- What a call of `vsprintf` has done: its stores but for the final zero, its reads of
the digit tables, its stores through `%n`, and the arguments it did not read. -/
structure Formatted where
  printed : Printed
  rest : List Arg
  deriving DecidableEq

/-- The bytes stored through `buf`, in order from index 0. -/
def Formatted.stored (formatted : Formatted) : List Byte := formatted.printed.text ++ [0]

/-- The value returned, `str - buf`. -/
def Formatted.ret (formatted : Formatted) : Int := wrap32 formatted.printed.text.length

/-- `vsprintf` on the format `fmt`, given without its terminating zero. -/
def vsprintf (stray : Stray) (fmt : List Byte) (args : List Arg) : Except Fault Formatted := do
  let (printed, rest) ← vsprintfLoop stray (fmt.length + 1) (fmt ++ [0]) args ⟨[], [], []⟩
  pure ⟨printed, rest⟩

end Toyos
