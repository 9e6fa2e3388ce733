import LearningKernels.Machine.TerminalLines
import LearningKernels.OsElephant.ConsoleRuns
import LearningKernels.OsElephant.PutInt

/-!
# What the kernel reports

`panic_spin` of `debug.c`, behind every failed `ASSERT`, and `general_intr_handler` of
`interrupt.c`, through `put_str`, `put_int` and `put_char` down to video memory. Wherever the
cursor stands and whatever the screen shows, the report of a panic is in the rows above the
cursor in the end (`OsElephant.panicSpin_reports`).
-/

namespace OsElephant

open Machine

/-- Bytes of characters. -/
def ascii (chars : List Char) : List Byte := chars.map fun char => BitVec.ofNat 8 char.toNat

/-- The string literals of the two functions. -/
inductive Literal where
  | error
  | filename
  | line
  | function
  | condition
  | newline
  | vector
  deriving DecidableEq, Repr

/-- Their bytes. -/
def Literal.bytes : Literal → List Byte
  | .error => ascii ['\n', '\n', '\n', '!', '!', '!', '!', '!', ' ', 'e', 'r', 'r', 'o', 'r', ' ',
      '!', '!', '!', '!', '!', '\n']
  | .filename => ascii ['f', 'i', 'l', 'e', 'n', 'a', 'm', 'e', ':']
  | .line => ascii ['l', 'i', 'n', 'e', ':', '0', 'x']
  | .function => ascii ['f', 'u', 'n', 'c', 't', 'i', 'o', 'n', ':']
  | .condition => ascii ['c', 'o', 'n', 'd', 'i', 't', 'i', 'o', 'n', ':']
  | .newline => ascii ['\n']
  | .vector => ascii ['i', 'n', 't', ' ', 'v', 'e', 'c', 't', 'o', 'r', ':', ' ', '0', 'x']

/-- Where the linker put the literals and the buffer of `put_int`. -/
structure Image where
  address : Literal → BitVec 32
  putIntBuffer : BitVec 32

/-- A string stands in memory, away from the buffer. -/
def Image.Holds (image : Image) (ram : Ram) (addr : BitVec 32) (bytes : List Byte) : Prop :=
  HoldsString ram addr bytes ∧
    ∀ place ≤ bytes.length, addr + BitVec.ofNat 32 place ∉ Span image.putIntBuffer 8

/-- The literals are where the linker put them. -/
def Image.Linked (image : Image) (ram : Ram) : Prop :=
  ∀ literal, image.Holds ram (image.address literal) literal.bytes

/-- The console, the flags register, and memory but for the video memory and the stack. -/
structure Reporter where
  console : Console
  eflags : BitVec 32
  ram : Ram

/-- `enum intr_status`. -/
inductive IntrStatus where
  | intrOff
  | intrOn
  deriving DecidableEq, Repr

namespace Reporter

/-- `EFLAGS_IF`. -/
def eflagsIf : BitVec 32 := 0x00000200

/-- `intr_get_status`. -/
def intrGetStatus (reporter : Reporter) : IntrStatus :=
  if eflagsIf &&& reporter.eflags ≠ 0 then .intrOn else .intrOff

/-- `intr_disable`. -/
def intrDisable (reporter : Reporter) : IntrStatus × Reporter :=
  if .intrOn = reporter.intrGetStatus then
    (.intrOn, { reporter with eflags := reporter.eflags &&& ~~~eflagsIf })
  else (.intrOff, reporter)

/-- `put_str`. -/
def putStr (fuel : Nat) (addr : BitVec 32) (reporter : Reporter) : Except Stop Reporter := do
  let console ← reporter.console.putStr reporter.ram fuel addr
  return { reporter with console }

/-- `put_int`: the digits go to the buffer, the characters to `put_char`. -/
def putInt (image : Image) (number : BitVec 32) (reporter : Reporter) : Except Stop Reporter := do
  let printing := OsElephant.putInt image.putIntBuffer number reporter.ram
  let console ← reporter.console.putChars (printing.printed.map Prod.fst)
  return { reporter with console, ram := printing.ram }

/-- `put_char`. -/
def putChar (char : Byte) (reporter : Reporter) : Except Stop Reporter := do
  let console ← reporter.console.putChar char
  return { reporter with console }

section Code

variable (image : Image) (fuel : Nat)

/-- `panic_spin`, up to its last loop, in which nothing happens. -/
def panicSpin (filename line func condition : BitVec 32) (reporter : Reporter) :
    Except Stop Reporter := do
  let reporter := reporter.intrDisable.2
  let reporter ← reporter.putStr fuel (image.address .error)
  let reporter ← reporter.putStr fuel (image.address .filename)
  let reporter ← reporter.putStr fuel filename
  let reporter ← reporter.putStr fuel (image.address .newline)
  let reporter ← reporter.putStr fuel (image.address .line)
  let reporter ← reporter.putInt image line
  let reporter ← reporter.putStr fuel (image.address .newline)
  let reporter ← reporter.putStr fuel (image.address .function)
  let reporter ← reporter.putStr fuel func
  let reporter ← reporter.putStr fuel (image.address .newline)
  let reporter ← reporter.putStr fuel (image.address .condition)
  let reporter ← reporter.putStr fuel condition
  reporter.putStr fuel (image.address .newline)

/-- `general_intr_handler`. -/
def generalIntrHandler (vecNr : BitVec 8) (reporter : Reporter) : Except Stop Reporter :=
  if vecNr = 0x27 ∨ vecNr = 0x2f then .ok reporter
  else do
    let reporter ← reporter.putStr fuel (image.address .vector)
    let reporter ← reporter.putInt image (vecNr.setWidth 32)
    reporter.putChar 0x0a

end Code

/-- Bytes through `put_char`. -/
def say (bytes : List Byte) (reporter : Reporter) : Except Stop Reporter := do
  let console ← reporter.console.putChars bytes
  return { reporter with console }

/-- The state behind the stores of `put_int`. -/
def numbered (image : Image) (number : BitVec 32) (reporter : Reporter) : Reporter :=
  { reporter with ram := (OsElephant.putInt image.putIntBuffer number reporter.ram).ram }

variable {image : Image} {fuel : Nat} {reporter : Reporter}

theorem say_append (first second : List Byte) :
    reporter.say (first ++ second) = reporter.say first >>= say second := by
  induction first generalizing reporter with
  | nil => rfl
  | cons byte first ih =>
      obtain ⟨console, eflags, ram⟩ := reporter
      rw [List.cons_append, say, say, Console.putChars, Console.putChars]
      cases printed : console.putChar byte with
      | error stop => rfl
      | ok next => exact @ih ⟨next, eflags, ram⟩

/-- Printing leaves the strings alone. -/
theorem say_ram {bytes : List Byte} {next : Reporter} (said : reporter.say bytes = .ok next) :
    next.ram = reporter.ram := by
  rw [say] at said
  cases printed : reporter.console.putChars bytes with
  | error stop =>
      rw [printed] at said
      cases said
  | ok console =>
      rw [printed] at said
      cases said
      rfl

theorem putStr_eq_say {addr : BitVec 32} {bytes : List Byte}
    (holds : image.Holds reporter.ram addr bytes) (enough : bytes.length < fuel) :
    reporter.putStr fuel addr = reporter.say bytes := by
  rw [putStr, Console.putStr_eq_putChars holds.1 enough]
  rfl

theorem putInt_eq_say (number : BitVec 32) :
    reporter.putInt image number = (reporter.numbered image number).say (hexText number.toNat) := by
  rw [putInt, (putInt_prints_hex image.putIntBuffer number reporter.ram).1]
  rfl

/-- A string behind what is printed already. -/
theorem say_putStr {addr : BitVec 32} {first bytes : List Byte}
    (holds : image.Holds reporter.ram addr bytes) (enough : bytes.length < fuel) :
    (reporter.say first >>= putStr fuel addr) = reporter.say (first ++ bytes) := by
  rw [say_append]
  cases said : reporter.say first with
  | error stop => rfl
  | ok next =>
      rw [← say_ram said] at holds
      exact putStr_eq_say holds enough

/-- A character behind what is printed already. -/
theorem say_putChar (first : List Byte) (char : Byte) :
    (reporter.say first >>= putChar char) = reporter.say (first ++ [char]) := by
  have one (next : Reporter) : next.putChar char = next.say [char] := by
    rw [putChar, say, Console.putChars]
    cases next.console.putChar char with
    | error stop => rfl
    | ok console => rfl
  rw [say_append, funext one]

/-- A number behind what is printed already. -/
theorem say_putInt (first : List Byte) (number : BitVec 32) :
    (reporter.say first >>= putInt image number) =
      (reporter.numbered image number).say (first ++ hexText number.toNat) := by
  have earlier : (reporter.numbered image number).say first =
      (reporter.say first).map (numbered image number) := by
    rw [say, say]
    change (reporter.console.putChars first >>= _) = _
    cases reporter.console.putChars first with
    | error stop => rfl
    | ok console => rfl
  rw [say_append, earlier]
  cases said : reporter.say first with
  | error stop => rfl
  | ok next => exact putInt_eq_say number

/-- The buffer of `put_int` holds no part of a string. -/
theorem holds_numbered {addr : BitVec 32} {bytes : List Byte} (number : BitVec 32)
    (holds : image.Holds reporter.ram addr bytes) :
    image.Holds (reporter.numbered image number).ram addr bytes := by
  obtain ⟨string, apart⟩ := holds
  refine ⟨string.congr ?_, apart⟩
  intro place inside
  exact putInt_ram_of_outside (apart place inside) number reporter.ram

end Reporter

/-- The lines of the report of a panic. -/
def panicLines (filename : List Byte) (line : Nat) (func condition : List Byte) :
    List (List Byte) :=
  [[], [], ascii ['!', '!', '!', '!', '!', ' ', 'e', 'r', 'r', 'o', 'r', ' ', '!', '!', '!', '!',
    '!'], Literal.bytes .filename ++ filename, Literal.bytes .line ++ hexText line,
    Literal.bytes .function ++ func, Literal.bytes .condition ++ condition]

/-- Lines, each with its end. -/
def ended (lines : List (List Byte)) : List Byte := lines.flatMap fun line => line ++ [0x0a]

namespace Reporter

variable {image : Image} {fuel : Nat} {reporter : Reporter}
  {filename line func condition : BitVec 32} {file name text : List Byte}

/-- What `panic_spin` prints: the end of the line it finds, and its own lines. -/
theorem panicSpin_eq_say (linked : image.Linked reporter.ram)
    (first : image.Holds reporter.ram filename file) (second : image.Holds reporter.ram func name)
    (third : image.Holds reporter.ram condition text) (enough : 21 < fuel)
    (enough₁ : file.length < fuel) (enough₂ : name.length < fuel)
    (enough₃ : text.length < fuel) :
    reporter.panicSpin image fuel filename line func condition =
      (reporter.intrDisable.2.numbered image line).say
        (0x0a :: ended (panicLines file line.toNat name text)) := by
  have same : reporter.intrDisable.2.ram = reporter.ram := by
    rw [intrDisable]
    split <;> rfl
  rw [← same] at linked first second third
  have few (which : Literal) : which.bytes.length < fuel := by
    refine Nat.lt_of_le_of_lt ?_ enough
    cases which with
    | error => decide
    | filename => decide
    | line => decide
    | function => decide
    | condition => decide
    | newline => decide
    | vector => decide
  have later (which : Literal) := holds_numbered line (linked which)
  have message : 0x0a :: ended (panicLines file line.toNat name text) =
      Literal.bytes .error ++ Literal.bytes .filename ++ file ++ Literal.bytes .newline ++
        Literal.bytes .line ++ hexText line.toNat ++ Literal.bytes .newline ++
        Literal.bytes .function ++ name ++ Literal.bytes .newline ++
        Literal.bytes .condition ++ text ++ Literal.bytes .newline := by
    simp only [ended, panicLines, List.flatMap_cons, List.flatMap_nil, List.append_assoc,
      List.append_nil]
    rfl
  rw [panicSpin]
  simp only [← bind_assoc]
  rw [putStr_eq_say (linked .error) (few .error), say_putStr (linked .filename) (few .filename),
    say_putStr first enough₁, say_putStr (linked .newline) (few .newline),
    say_putStr (linked .line) (few .line), say_putInt, say_putStr (later .newline) (few .newline),
    say_putStr (later .function) (few .function), say_putStr (holds_numbered line second) enough₂,
    say_putStr (later .newline) (few .newline), say_putStr (later .condition) (few .condition),
    say_putStr (holds_numbered line third) enough₃, say_putStr (later .newline) (few .newline),
    message]

theorem intrDisable_status (reporter : Reporter) :
    reporter.intrDisable.2.intrGetStatus = .intrOff ∧
      reporter.intrDisable.2.console = reporter.console ∧
      reporter.intrDisable.2.ram = reporter.ram := by
  rw [intrDisable]
  split
  · refine ⟨?_, rfl, rfl⟩
    have cleared : eflagsIf &&& (reporter.eflags &&& ~~~eflagsIf) = 0 := by
      rw [BitVec.and_comm reporter.eflags, ← BitVec.and_assoc, BitVec.and_not_self]
      exact BitVec.zero_and
    rw [intrGetStatus, if_neg fun set => set cleared]
  · next off =>
      refine ⟨?_, rfl, rfl⟩
      cases status : reporter.intrGetStatus with
      | intrOff => rfl
      | intrOn => exact absurd status.symm off

end Reporter

section Lines

variable {screen : Screen} {row : Nat} {bytes : List Byte} {lines : List (List Byte)}
  {shown : List (List Cell)}

/-- A byte that `put_char` only shows. -/
def Plain (byte : Byte) : Prop := byte ≠ 0x08 ∧ byte ≠ 0x0a ∧ byte ≠ 0x0d

instance (byte : Byte) : Decidable (Plain byte) := inferInstanceAs (Decidable (_ ∧ _))

/-- The cells of bytes on the screen. -/
def glyphs (bytes : List Byte) : List Cell := bytes.map fun byte => ⟨byte, 0x07⟩

theorem feedAll_append (first second : List Byte) :
    screen.feedAll (first ++ second) = (screen.feedAll first).feedAll second :=
  List.foldl_append

theorem feedAll_newline (bytes : List Byte) :
    screen.feedAll (0x0a :: bytes) = Screen.feedAll (screen.newline Cell.blank) bytes := rfl

theorem feedAll_plain (plain : ∀ byte ∈ bytes, Plain byte) :
    screen.feedAll bytes = screen.type Cell.blank (glyphs bytes) := by
  induction bytes generalizing screen with
  | nil => rfl
  | cons byte bytes ih =>
      obtain ⟨⟨noBackspace, noFeed, noReturn⟩, rest⟩ := List.forall_mem_cons.mp plain
      have put : screen.feed byte = screen.put Cell.blank ⟨byte, 0x07⟩ := by
        rw [Screen.feed, if_neg (not_or.mpr ⟨noFeed, noReturn⟩), if_neg noBackspace]
      have later := @ih (screen.feed byte) rest
      rw [put] at later
      rw [glyphs, List.map_cons, Terminal.type_cons, ← glyphs, ← later, ← put]
      rfl

/-- Short lines on the screen, one below the other. -/
theorem above_ended (above : screen.Above row shown)
    (plain : ∀ line ∈ lines, ∀ byte ∈ line, Plain byte) (short : ∀ line ∈ lines, line.length < 80)
    (room : shown.length + lines.length < 25) :
    ∃ row, (screen.feedAll (ended lines)).Above row
      ((lines.map glyphs).reverse ++ shown) := by
  induction lines generalizing screen row shown with
  | nil => exact ⟨row, above⟩
  | cons line lines ih =>
      obtain ⟨plainFirst, plainRest⟩ := List.forall_mem_cons.mp plain
      obtain ⟨shortFirst, shortRest⟩ := List.forall_mem_cons.mp short
      rw [List.length_cons] at room
      have narrow : (glyphs line).length < 80 := by rwa [glyphs, List.length_map]
      obtain ⟨next, typed⟩ :=
        @Terminal.Above.typed 25 80 Cell screen Cell.blank row _ _ above narrow (by omega)
      have fed : screen.feedAll (line ++ [0x0a]) =
          (screen.type Cell.blank (glyphs line)).newline Cell.blank := by
        rw [feedAll_append, feedAll_plain plainFirst, feedAll_newline]
        rfl
      rw [← fed] at typed
      obtain ⟨last, final⟩ := ih typed plainRest shortRest (by rw [List.length_cons]; omega)
      refine ⟨last, ?_⟩
      rw [ended, List.flatMap_cons, feedAll_append, ← ended, List.map_cons, List.reverse_cons,
        List.append_assoc]
      exact final

theorem noBackspaceHome_of_absent (absent : (0x08 : Byte) ∉ bytes) :
    screen.NoBackspaceHome bytes := by
  induction bytes generalizing screen with
  | nil => trivial
  | cons byte bytes ih =>
      rw [List.mem_cons, not_or] at absent
      obtain ⟨other, rest⟩ := absent
      exact ⟨fun home => other home.1.symm, ih rest⟩

/-- No end of a line is a backspace. -/
theorem backspace_not_mem_ended (plain : ∀ line ∈ lines, ∀ byte ∈ line, Plain byte) :
    (0x08 : Byte) ∉ ended lines := by
  intro member
  obtain ⟨line, among, inside⟩ := List.mem_flatMap.mp member
  obtain shown | last := List.mem_append.mp inside
  · exact (plain line among _ shown).1 rfl
  · exact absurd (List.mem_singleton.mp last) (by decide)

end Lines

theorem hexText_plain {value : Nat} (bound : value < 2 ^ 32) :
    (hexText value).length ≤ 8 ∧ ∀ byte ∈ hexText value, Plain byte := by
  have every : ∀ digit : Fin 16, Plain (hexChar digit.val) := by decide
  rw [hexText]
  split
  · exact ⟨by decide, by decide⟩
  · refine ⟨?_, ?_⟩
    · rw [List.length_map, List.length_reverse, Nat.digits_length_le_iff (by decide)]
      exact bound
    · intro byte member
      obtain ⟨digit, among, rfl⟩ := List.mem_map.mp member
      have small := Nat.digits_lt_base (by decide) (List.mem_reverse.mp among)
      exact every ⟨digit, small⟩

section Panic

variable (image : Image) (reporter : Reporter) (filename line func condition : BitVec 32)
  (file name text : List Byte)

/-- The arguments of a panic: strings without control characters, each short enough for its
row. -/
structure PanicArguments : Prop where
  filename : image.Holds reporter.ram filename file
  func : image.Holds reporter.ram func name
  condition : image.Holds reporter.ram condition text
  plain : ∀ byte ∈ file ++ name ++ text, Plain byte
  short : file.length ≤ 70 ∧ name.length ≤ 70 ∧ text.length ≤ 69

variable {image reporter filename func condition file name text} in
/-- The lines of such a report fit. -/
theorem PanicArguments.lines
    (arguments : PanicArguments image reporter filename func condition file name text)
    (line : BitVec 32) :
    ∀ shown ∈ panicLines file line.toNat name text,
      shown.length < 80 ∧ ∀ byte ∈ shown, Plain byte := by
  obtain ⟨few, hex⟩ := hexText_plain line.isLt
  obtain ⟨first, second, third⟩ := arguments.short
  have plain := arguments.plain
  have after (which : Literal) (bytes : List Byte) (fixed : ∀ byte ∈ which.bytes, Plain byte)
      (rest : ∀ byte ∈ bytes, Plain byte) : ∀ byte ∈ which.bytes ++ bytes, Plain byte :=
    List.forall_mem_append.mpr ⟨fixed, rest⟩
  simp only [List.forall_mem_append] at plain
  obtain ⟨⟨plainFile, plainName⟩, plainText⟩ := plain
  simp only [panicLines, List.forall_mem_cons, List.length_append]
  refine ⟨⟨by decide, by decide⟩, ⟨by decide, by decide⟩, ⟨by decide, by decide⟩,
    ⟨?_, after .filename file (by decide) plainFile⟩,
    ⟨?_, after .line _ (by decide) hex⟩, ⟨?_, after .function name (by decide) plainName⟩,
    ⟨?_, after .condition text (by decide) plainText⟩,
    fun _ member => absurd member List.not_mem_nil⟩
  · have fixed : (Literal.bytes .filename).length = 9 := rfl
    omega
  · have fixed : (Literal.bytes .line).length = 7 := rfl
    omega
  · have fixed : (Literal.bytes .function).length = 9 := rfl
    omega
  · have fixed : (Literal.bytes .condition).length = 10 := rfl
    omega

/-- **A panic can be read.** Wherever the cursor was, in the end the interrupts are off, the
cursor is at the start of a row, and the rows above it start with the lines of the report. -/
theorem panicSpin_reports (linked : image.Linked reporter.ram)
    (arguments : PanicArguments image reporter filename func condition file name text)
    (inside : reporter.console.cursor < 2000) :
    ∃ (after : Reporter) (screen : Screen) (row : Nat),
      (∀ fuel, 70 < fuel →
        reporter.panicSpin image fuel filename line func condition = .ok after) ∧
      after.intrGetStatus = .intrOff ∧ Displays after.console screen ∧
      Confined reporter.console after.console ∧
      (∀ addr, addr ∉ Span image.putIntBuffer 8 → after.ram addr = reporter.ram addr) ∧
      screen.Above row ((panicLines file line.toNat name text).map glyphs).reverse := by
  have fits := arguments.lines line
  obtain ⟨few, some, less⟩ := arguments.short
  obtain ⟨off, same, kept⟩ := reporter.intrDisable_status
  have plain : ∀ shown ∈ panicLines file line.toNat name text, ∀ byte ∈ shown, Plain byte :=
    fun shown member => (fits shown member).2
  have short : ∀ shown ∈ panicLines file line.toNat name text, shown.length < 80 :=
    fun shown member => (fits shown member).1
  have clean : (reporter.console.screenOf inside).NoBackspaceHome
      (0x0a :: ended (panicLines file line.toNat name text)) := by
    apply noBackspaceHome_of_absent
    rw [List.mem_cons, not_or]
    exact ⟨by decide, backspace_not_mem_ended plain⟩
  obtain ⟨console, printed, displays, confined⟩ :=
    Console.putChars_run (reporter.console.displays_screenOf inside) clean
  obtain ⟨row, home⟩ := (reporter.console.screenOf inside).newline_above Cell.blank
  obtain ⟨last, above⟩ := above_ended home plain short (show 0 + 7 < 25 by decide)
  rw [List.append_nil] at above
  rw [feedAll_newline] at displays
  refine ⟨{ reporter.intrDisable.2.numbered image line with console }, _, last, ?_, off, displays,
    confined, ?_, above⟩
  · intro fuel enough
    rw [Reporter.panicSpin_eq_say linked arguments.filename arguments.func arguments.condition
      (by omega) (by omega) (by omega) (by omega), Reporter.say]
    change (reporter.intrDisable.2.console.putChars _ >>= _) = _
    rw [same, printed]
    rfl
  · intro addr outside
    exact (putInt_ram_of_outside outside line _).trans (congrFun kept addr)

end Panic

/-- Whether a string stands somewhere can be decided. -/
def decidableHoldsString (text : BitVec 32 → Byte) : (addr : BitVec 32) → (bytes : List Byte) →
    Decidable (HoldsString text addr bytes)
  | addr, [] => inferInstanceAs (Decidable (text addr = 0))
  | addr, byte :: rest =>
      have : Decidable (HoldsString text (addr + 1) rest) :=
        decidableHoldsString text (addr + 1) rest
      inferInstanceAs (Decidable (text addr = byte ∧ byte ≠ 0 ∧ HoldsString text (addr + 1) rest))

instance (text : BitVec 32 → Byte) (addr : BitVec 32) (bytes : List Byte) :
    Decidable (HoldsString text addr bytes) := decidableHoldsString text addr bytes

instance (image : Image) (ram : Ram) (addr : BitVec 32) (bytes : List Byte) :
    Decidable (image.Holds ram addr bytes) := inferInstanceAs (Decidable (_ ∧ _))

/-- The literals in front of the string `m.c`, 32 bytes each. -/
def linkedRam : Ram := fun addr =>
  ([Literal.error.bytes, Literal.filename.bytes, Literal.line.bytes, Literal.function.bytes,
    Literal.condition.bytes, Literal.newline.bytes, Literal.vector.bytes,
    ascii ['m', '.', 'c']].getD (addr.toNat / 32) []).getD (addr.toNat % 32) 0

/-- Where they are. -/
def linkedImage : Image where
  address
    | .error => 0
    | .filename => 32
    | .line => 64
    | .function => 96
    | .condition => 128
    | .newline => 160
    | .vector => 192
  putIntBuffer := 0x1000

theorem linkedImage_linked : linkedImage.Linked linkedRam := by
  intro literal
  cases literal with
  | error => decide
  | filename => decide
  | line => decide
  | function => decide
  | condition => decide
  | newline => decide
  | vector => decide

/-- A blank screen, with the interrupts on. -/
def linkedReporter : Reporter := ⟨Console.zeroed, 0x200, linkedRam⟩

/-- A panic in line 42. -/
theorem panicSpin_reports_mc :
    ∃ (after : Reporter) (screen : Screen) (row : Nat),
      (∀ fuel, 70 < fuel → linkedReporter.panicSpin linkedImage fuel 224 42 224 224 =
        .ok after) ∧
      after.intrGetStatus = .intrOff ∧ Displays after.console screen ∧
      Confined Console.zeroed after.console ∧
      (∀ addr, addr ∉ Span 0x1000 8 → after.ram addr = linkedRam addr) ∧
      screen.Above row ((panicLines (ascii ['m', '.', 'c']) 42 (ascii ['m', '.', 'c'])
        (ascii ['m', '.', 'c'])).map glyphs).reverse :=
  panicSpin_reports linkedImage linkedReporter 224 42 224 224 _ _ _ linkedImage_linked
    ⟨by decide, by decide, by decide, by decide, by decide⟩ (by decide)

end OsElephant
