import LearningKernels.Machine.Path
import LearningKernels.OsElephant.Console

/-!
# The console is a terminal

Video memory shows the cells of a terminal of 25 rows and 80 columns, two bytes a cell.
Every branch of `put_char` does to video memory and to the cursor what the reference
terminal does, and stores to the screen only, except for a backspace with the cursor on
the first cell: there the sixteen-bit offset wraps around and the store is behind the
limit of the video segment (`OsElephant.Console.putChar_backspaceHome`).
-/

namespace OsElephant

open Machine

/-- A character and its attribute. -/
structure Cell where
  glyph : Byte
  attr : Byte
  deriving DecidableEq, Repr

/-- The blank cell, `0x0720`. -/
def Cell.blank : Cell := ⟨0x20, 0x07⟩

/-- The reference terminal. -/
abbrev Screen := Terminal 25 80 Cell

/-- What one byte does to the reference terminal. -/
def Screen.feed (screen : Screen) (byte : Byte) : Screen :=
  if byte = 0x0a ∨ byte = 0x0d then screen.newline Cell.blank
  else if byte = 0x08 then screen.erase Cell.blank
  else screen.put Cell.blank ⟨byte, 0x07⟩

/-- What a string does to the reference terminal. -/
def Screen.feedAll (screen : Screen) (bytes : List Byte) : Screen := bytes.foldl Screen.feed screen

/-- No backspace of the string is met with the cursor on the first cell. -/
def Screen.NoBackspaceHome : Screen → List Byte → Prop
  | _, [] => True
  | screen, byte :: rest =>
      ¬ (byte = 0x08 ∧ screen.cursor.val = 0) ∧ (screen.feed byte).NoBackspaceHome rest

/-- Memory shows these cells. -/
def ShowsCells (memory : Memory) (cells : Fin (25 * 80) → Cell) : Prop :=
  ∀ index : Fin (25 * 80), memory (videoBase + 2 * index.val) = (cells index).glyph ∧
    memory (videoBase + 2 * index.val + 1) = (cells index).attr

/-- The console shows this terminal. -/
structure Displays (console : Console) (screen : Screen) : Prop where
  cells : ShowsCells console.memory screen.cells
  cursor : console.cursor = screen.cursor.val

/-- The address is one of the 4000 bytes of the screen. -/
def OnScreen (addr : Nat) : Prop := videoBase ≤ addr ∧ addr < videoBase + 4000

/-- Between two states only the screen is stored to. -/
def Confined (before after : Console) : Prop :=
  ∀ addr ∈ after.stores, addr ∈ before.stores ∨ OnScreen addr

theorem Confined.refl (console : Console) : Confined console console := fun _ => Or.inl

theorem Confined.trans {first second third : Console} (earlier : Confined first second)
    (later : Confined second third) : Confined first third := by
  intro addr stored
  rcases later addr stored with before | inside
  · exact earlier addr before
  · exact Or.inr inside

namespace ShowsCells

variable {memory : Memory} {cells : Fin (25 * 80) → Cell}

theorem store (shown : ShowsCells memory cells) (index : Fin (25 * 80)) (cell : Cell) :
    ShowsCells (Function.update (Function.update memory (videoBase + 2 * index.val) cell.glyph)
      (videoBase + 2 * index.val + 1) cell.attr) (Function.update cells index cell) := by
  intro other
  by_cases same : other = index
  · subst same
    rw [Function.update_self, Function.update_self, Function.update_of_ne (by omega),
      Function.update_self]
    exact ⟨rfl, rfl⟩
  · have apart : other.val ≠ index.val := fun equal => same (Fin.ext equal)
    rw [Function.update_of_ne same, Function.update_of_ne (by omega),
      Function.update_of_ne (by omega), Function.update_of_ne (by omega),
      Function.update_of_ne (by omega)]
    exact shown other

/-- Memory that holds the lower rows one row up and blanks in the last row shows the
scrolled cells. -/
theorem scroll (screen : Screen) {before after : Memory} (shown : ShowsCells before screen.cells)
    (moved : ∀ offset < 3840, after (videoBase + offset) = before (videoBase + offset + 160))
    (cleared : ∀ offset, 3840 ≤ offset → offset < 4000 →
      after (videoBase + offset) = if offset % 2 = 0 then 0x20 else 0x07) :
    ShowsCells after (screen.scroll Cell.blank).cells := by
  intro index
  have bound := index.isLt
  simp only [Terminal.scroll]
  by_cases lower : index.val + 80 < 25 * 80
  · rw [dif_pos lower]
    have source := shown ⟨index.val + 80, lower⟩
    have low : videoBase + 2 * (index.val + 80) = videoBase + 2 * index.val + 160 := by omega
    have high : videoBase + 2 * index.val + 160 + 1 = videoBase + (2 * index.val + 1) + 160 := by
      omega
    rw [low, high] at source
    rw [Nat.add_assoc, moved (2 * index.val) (by omega), moved (2 * index.val + 1) (by omega)]
    exact source
  · rw [dif_neg lower, Nat.add_assoc, cleared (2 * index.val) (by omega) (by omega),
      cleared (2 * index.val + 1) (by omega) (by omega), if_pos (by omega), if_neg (by omega)]
    exact ⟨rfl, rfl⟩

end ShowsCells

namespace Console

variable {console : Console} {screen : Screen}

theorem setCursor_eq (console : Console) (bx : Nat) :
    console.setCursor bx =
      { console with
        crtcIndex := 0x0f
        crtc := Function.update (Function.update console.crtc 0x0e (BitVec.ofNat 8 (bx / 256)))
          0x0f (BitVec.ofNat 8 bx) } := rfl

theorem setCursor_cursor (console : Console) {bx : Nat} (word : bx < 0x10000) :
    (console.setCursor bx).cursor = bx := by
  rw [setCursor_eq, cursor]
  dsimp only
  rw [Function.update_self, Function.update_of_ne (by decide), Function.update_self,
    BitVec.toNat_ofNat, BitVec.toNat_ofNat]
  omega

theorem setCursor_displays (shown : ShowsCells console.memory screen.cells) {bx : Nat}
    (inside : bx < 25 * 80) :
    Displays (console.setCursor bx) { screen with cursor := ⟨bx, inside⟩ } where
  cells := shown
  cursor := console.setCursor_cursor (by omega)

theorem storeGs_of_le {offset : Nat} (inside : offset ≤ 0x7fff) (byte : Byte) :
    console.storeGs offset byte = .ok (console.storeByte (videoBase + offset) byte) :=
  if_pos inside

theorem storeByte_confined {offset : Nat} (inside : offset < 4000) (byte : Byte) :
    Confined console (console.storeByte (videoBase + offset) byte) := by
  intro addr stored
  rcases List.mem_cons.mp stored with rfl | earlier
  · exact Or.inr ⟨by omega, by omega⟩
  · exact Or.inl earlier

/-- The block move copies forward, so it never reads what it has written. -/
theorem repMovsd_memory (ecx : Nat) {esi edi : Nat} (forward : edi + 4 ≤ esi) (query : Nat) :
    (console.repMovsd ecx esi edi).memory query =
      if edi ≤ query ∧ query < edi + 4 * ecx then console.memory (query + (esi - edi))
      else console.memory query := by
  induction ecx generalizing console esi edi with
  | zero =>
      rw [if_neg (by omega)]
      rfl
  | succ ecx ih =>
      rw [repMovsd, ih (by omega)]
      change (if _ then write32 _ _ _ _ else write32 _ _ _ _) = _
      by_cases later : edi + 4 ≤ query ∧ query < edi + 4 + 4 * ecx
      · rw [if_pos later, if_pos (by omega), write32_of_outside _ _ _ _ (by omega)]
        congr 1
        omega
      · rw [if_neg later]
        by_cases here : edi ≤ query ∧ query < edi + 4
        · rw [if_pos (by omega), write32_read32 _ _ _ _ here]
          congr 1
          omega
        · rw [if_neg (by omega), write32_of_outside _ _ _ _ (by omega)]

theorem repMovsd_confined (ecx : Nat) {esi edi : Nat} (lower : videoBase ≤ edi)
    (upper : edi + 4 * ecx ≤ videoBase + 4000) :
    Confined console (console.repMovsd ecx esi edi) := by
  induction ecx generalizing console esi edi with
  | zero => exact Confined.refl _
  | succ ecx ih =>
      have first : Confined console (console.movsd esi edi) := by
        intro addr stored
        rcases List.mem_append.mp stored with here | earlier
        · simp only [List.mem_cons, List.not_mem_nil, or_false] at here
          exact Or.inr ⟨by omega, by omega⟩
        · exact Or.inl earlier
      exact first.trans (ih (by omega) (by omega))

/-- The clearing loop stores blanks. -/
theorem cls_run (ecx : Nat) {ebx : Nat} (bounded : ebx + 2 * ecx ≤ 4000) :
    ∃ after, console.cls ecx ebx = .ok after ∧ Confined console after ∧
      ∀ query, after.memory query =
        if videoBase + ebx ≤ query ∧ query < videoBase + ebx + 2 * ecx then
          if (query - (videoBase + ebx)) % 2 = 0 then 0x20 else 0x07
        else console.memory query := by
  induction ecx generalizing console ebx with
  | zero =>
      refine ⟨console, rfl, Confined.refl _, fun query => ?_⟩
      rw [if_neg (by omega)]
  | succ ecx ih =>
      let cleared := (console.storeByte (videoBase + ebx) 0x20).storeByte (videoBase + ebx + 1) 0x07
      have stored : console.storeGsWord ebx 0x0720 = .ok cleared := if_pos (by
        unfold videoLimit
        omega)
      obtain ⟨after, ran, confined, memory⟩ := @ih cleared (ebx + 2) (by omega)
      refine ⟨after, ?_, ?_, ?_⟩
      · rw [cls, stored]
        exact ran
      · have low : Confined console (console.storeByte (videoBase + ebx) 0x20) :=
          storeByte_confined (by omega) _
        have high : Confined (console.storeByte (videoBase + ebx) 0x20) cleared :=
          @storeByte_confined _ (ebx + 1) (by omega) _
        exact (low.trans high).trans confined
      · intro query
        rw [memory]
        change (if _ then _ else Function.update (Function.update console.memory _ _) _ _ query) = _
        by_cases later : videoBase + (ebx + 2) ≤ query ∧ query < videoBase + (ebx + 2) + 2 * ecx
        · have parity :
              (query - (videoBase + (ebx + 2))) % 2 = (query - (videoBase + ebx)) % 2 := by
            omega
          have within : videoBase + ebx ≤ query ∧ query < videoBase + ebx + 2 * (ecx + 1) := by
            omega
          rw [if_pos later, if_pos within, parity]
        · rw [if_neg later]
          by_cases low : query = videoBase + ebx
          · rw [if_pos (by omega), if_pos (by omega), low, Function.update_of_ne (by omega),
              Function.update_self]
          · by_cases high : query = videoBase + ebx + 1
            · rw [if_pos (by omega), if_neg (by omega), high, Function.update_self]
            · rw [if_neg (by omega), Function.update_of_ne high, Function.update_of_ne low]

/-- `.roll_screen` scrolls. -/
theorem rollScreen_run (shown : ShowsCells console.memory screen.cells) :
    ∃ after, console.rollScreen = .ok after ∧ Displays after (screen.scroll Cell.blank) ∧
      Confined console after := by
  obtain ⟨cleared, ran, confined, memory⟩ :=
    @cls_run (console.repMovsd 960 0xb80a0 0xb8000) 80 3840 (by decide)
  refine ⟨cleared.setCursor 1920, ?_, ⟨?_, ?_⟩, ?_⟩
  · rw [rollScreen, ran]
    rfl
  · apply ShowsCells.scroll screen shown
    · intro offset inside
      change cleared.memory _ = _
      rw [memory, if_neg (by omega), repMovsd_memory 960 (by decide)]
      unfold videoBase
      rw [if_pos (by omega)]
    · intro offset lower upper
      change cleared.memory _ = _
      have parity : (videoBase + offset - (videoBase + 3840)) % 2 = offset % 2 := by omega
      rw [memory, if_pos (by omega), parity]
  · exact cleared.setCursor_cursor (by decide)
  · have moved : Confined console (console.repMovsd 960 0xb80a0 0xb8000) :=
      repMovsd_confined 960 le_rfl (by decide)
    exact moved.trans confined

/-- For a cursor near the screen the signed comparison is the plain one. -/
theorem signed16_lt_iff {bx : Nat} (small : bx < 0x8000) : signed16 bx < 2000 ↔ bx < 25 * 80 := by
  rw [signed16, if_pos small]
  omega

/-- Line feed and carriage return go to the start of the next row. -/
theorem isLineFeed_run (shown : ShowsCells console.memory screen.cells) {bx : Nat}
    (bounded : bx ≤ 2000) :
    ∃ after, console.isLineFeed bx = .ok after ∧
      Displays after (screen.moveTo Cell.blank (bx / 80 * 80 + 80)) ∧ Confined console after := by
  have next : ((bx + 0x10000 - bx % 80) % 0x10000 + 80) % 0x10000 = bx / 80 * 80 + 80 := by omega
  rw [isLineFeed]
  simp only [next]
  by_cases inside : bx / 80 * 80 + 80 < 25 * 80
  · rw [if_pos ((signed16_lt_iff (by omega)).mpr inside), Terminal.moveTo, dif_pos inside]
    exact ⟨_, rfl, setCursor_displays shown inside, Confined.refl _⟩
  · rw [if_neg (inside ∘ (signed16_lt_iff (by omega)).mp), Terminal.moveTo, dif_neg inside]
    exact rollScreen_run shown

/-- Both bytes of a cell. -/
def storeCell (index : Nat) (cell : Cell) (console : Console) : Console :=
  (console.storeByte (videoBase + 2 * index) cell.glyph).storeByte (videoBase + (2 * index + 1))
    cell.attr

theorem storeCell_shows (shown : ShowsCells console.memory screen.cells) (index : Fin (25 * 80))
    (cell : Cell) :
    ShowsCells (console.storeCell index.val cell).memory
      (Function.update screen.cells index cell) := shown.store index cell

theorem storeCell_confined {index : Nat} (inside : index < 2000) (cell : Cell) :
    Confined console (console.storeCell index cell) :=
  (storeByte_confined (by omega) _).trans (storeByte_confined (by omega) _)

/-- On a cell of the screen the sixteen-bit arithmetic of `.put_other` is exact. -/
theorem putOther_eq {bx : Nat} (inside : bx < 2000) (cl : Byte) :
    console.putOther bx cl =
      if signed16 (bx + 1) < 2000 then .ok ((console.storeCell bx ⟨cl, 0x07⟩).setCursor (bx + 1))
      else (console.storeCell bx ⟨cl, 0x07⟩).isLineFeed (bx + 1) := by
  have low : 2 * bx % 0x10000 = 2 * bx := by omega
  have high : (2 * bx + 1) % 0x10000 = 2 * bx + 1 := by omega
  have halved : ((2 * bx + 1) / 2 + 1) % 0x10000 = bx + 1 := by omega
  rw [putOther]
  simp only [low, high, halved]
  rw [storeGs_of_le (by omega)]
  change ((console.storeByte (videoBase + 2 * bx) cl).storeGs (2 * bx + 1) 0x07 >>= _) = _
  rw [storeGs_of_le (by omega)]
  rfl

/-- A printable byte is stored at the cursor. -/
theorem putOther_run (shown : ShowsCells console.memory screen.cells) (cl : Byte) :
    ∃ after, console.putOther screen.cursor.val cl = .ok after ∧
      Displays after (screen.put Cell.blank ⟨cl, 0x07⟩) ∧ Confined console after := by
  have inside : screen.cursor.val < 2000 := screen.cursor.isLt
  have stored := storeCell_shows shown screen.cursor ⟨cl, 0x07⟩
  have confined : Confined console (console.storeCell screen.cursor.val ⟨cl, 0x07⟩) :=
    storeCell_confined inside _
  let written : Screen :=
    { screen with cells := Function.update screen.cells screen.cursor ⟨cl, 0x07⟩ }
  rw [putOther_eq inside, Terminal.put]
  by_cases next : screen.cursor.val + 1 < 25 * 80
  · rw [if_pos ((signed16_lt_iff (by omega)).mpr next), Terminal.moveTo, dif_pos next]
    exact ⟨_, rfl, @setCursor_displays _ written stored _ next, confined⟩
  · -- The code goes on as for a line feed behind the last cell, which scrolls as well.
    obtain ⟨after, ran, displays, later⟩ :=
      @isLineFeed_run _ written stored (screen.cursor.val + 1) (by omega)
    rw [Terminal.moveTo, dif_neg (by omega)] at displays
    rw [if_neg (next ∘ (signed16_lt_iff (by omega)).mp), Terminal.moveTo, dif_neg next]
    exact ⟨after, ran, displays, confined.trans later⟩

/-- A backspace blanks the cell before the cursor, if there is one. -/
theorem isBackspace_run (shown : ShowsCells console.memory screen.cells)
    (notHome : screen.cursor.val ≠ 0) :
    ∃ after, console.isBackspace screen.cursor.val = .ok after ∧
      Displays after (screen.erase Cell.blank) ∧ Confined console after := by
  have inside : screen.cursor.val < 2000 := screen.cursor.isLt
  have back : (screen.cursor.val + 0xffff) % 0x10000 = screen.cursor.val - 1 := by omega
  have low : 2 * (screen.cursor.val - 1) % 0x10000 = 2 * (screen.cursor.val - 1) := by omega
  have high : (2 * (screen.cursor.val - 1) + 1) % 0x10000 = 2 * (screen.cursor.val - 1) + 1 := by
    omega
  have halved : (2 * (screen.cursor.val - 1) + 1) / 2 = screen.cursor.val - 1 := by omega
  refine ⟨(console.storeCell (screen.cursor.val - 1) Cell.blank).setCursor
    (screen.cursor.val - 1), ?_, ⟨?_, ?_⟩, ?_⟩
  · rw [isBackspace]
    simp only [back, low, high, halved]
    rw [storeGs_of_le (by omega)]
    change ((console.storeByte _ 0x20).storeGs _ 0x07 >>= _) = _
    rw [storeGs_of_le (by omega)]
    rfl
  · exact storeCell_shows shown ⟨screen.cursor.val - 1, by omega⟩ Cell.blank
  · exact setCursor_cursor _ (by omega)
  · exact storeCell_confined (by omega) _

theorem putChar_eq (cl : Byte) (console : Console) :
    console.putChar cl =
      if cl = 0x0d then { console with crtcIndex := 0x0f }.isLineFeed console.cursor
      else if cl = 0x0a then { console with crtcIndex := 0x0f }.isLineFeed console.cursor
      else if cl = 0x08 then { console with crtcIndex := 0x0f }.isBackspace console.cursor
      else { console with crtcIndex := 0x0f }.putOther console.cursor cl := rfl

/-- **One byte.** `put_char` does what the reference terminal does, on the screen only. -/
theorem putChar_run (displays : Displays console screen) {cl : Byte}
    (notHome : ¬ (cl = 0x08 ∧ screen.cursor.val = 0)) :
    ∃ after, console.putChar cl = .ok after ∧ Displays after (screen.feed cl) ∧
      Confined console after := by
  have inside : screen.cursor.val ≤ 2000 := Nat.le_of_lt screen.cursor.isLt
  have shown : ShowsCells { console with crtcIndex := 0x0f }.memory screen.cells := displays.cells
  rw [putChar_eq, displays.cursor, Screen.feed]
  by_cases carriage : cl = 0x0d
  · rw [if_pos carriage, if_pos (Or.inr carriage)]
    exact isLineFeed_run shown inside
  by_cases feed : cl = 0x0a
  · rw [if_neg carriage, if_pos feed, if_pos (Or.inl feed)]
    exact isLineFeed_run shown inside
  have neither : ¬ (cl = 0x0a ∨ cl = 0x0d) := by
    rintro (one | other)
    · exact feed one
    · exact carriage other
  rw [if_neg carriage, if_neg feed, if_neg neither]
  by_cases backspace : cl = 0x08
  · rw [if_pos backspace, if_pos backspace]
    exact isBackspace_run shown fun home => notHome ⟨backspace, home⟩
  · rw [if_neg backspace, if_neg backspace]
    exact putOther_run shown cl

/-- A backspace on the first cell stores behind the limit of the video segment. -/
theorem putChar_backspaceHome (home : console.cursor = 0) :
    console.putChar 0x08 = .error (.generalProtection 0xfffe) := by
  rw [putChar_eq, home]
  rfl

end Console

end OsElephant
