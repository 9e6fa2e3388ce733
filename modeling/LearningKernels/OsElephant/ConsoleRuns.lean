import LearningKernels.OsElephant.ConsoleRefinement

/-!
# Printing whole strings

From any contents of video memory and any cursor on the screen, a string leaves the
screen as the reference terminal does (`OsElephant.Console.putStr_refines`), and every
byte keeps the cursor and the stores on the screen exactly as long as no backspace is met
on the first cell (`OsElephant.Console.printsSafely_iff`).
-/

namespace OsElephant

open Machine

/-- A string in memory: its bytes and then a zero. -/
def HoldsString (text : BitVec 32 → Byte) : BitVec 32 → List Byte → Prop
  | addr, [] => text addr = 0
  | addr, byte :: rest => text addr = byte ∧ byte ≠ 0 ∧ HoldsString text (addr + 1) rest

/-- A string is where its bytes are. -/
theorem HoldsString.congr {text other : BitVec 32 → Byte} {addr : BitVec 32} {bytes : List Byte}
    (holds : HoldsString text addr bytes)
    (same : ∀ place ≤ bytes.length,
      other (addr + BitVec.ofNat 32 place) = text (addr + BitVec.ofNat 32 place)) :
    HoldsString other addr bytes := by
  have first := same 0 (Nat.zero_le _)
  rw [BitVec.add_zero] at first
  induction bytes generalizing addr with
  | nil => exact first.trans holds
  | cons byte rest ih =>
      obtain ⟨here, nonzero, later⟩ := holds
      have next (place : Nat) : addr + 1 + BitVec.ofNat 32 place =
          addr + BitVec.ofNat 32 (place + 1) := by bv_omega
      have behind : ∀ place ≤ rest.length,
          other (addr + 1 + BitVec.ofNat 32 place) = text (addr + 1 + BitVec.ofNat 32 place) := by
        intro place inside
        rw [next]
        exact same (place + 1) (Nat.succ_le_succ inside)
      refine ⟨first.trans here, nonzero, ih later behind ?_⟩
      have second := behind 0 (Nat.zero_le _)
      rwa [BitVec.add_zero] at second

theorem Screen.NoBackspaceHome.left {screen : Screen} {first second : List Byte}
    (clean : screen.NoBackspaceHome (first ++ second)) : screen.NoBackspaceHome first := by
  induction first generalizing screen with
  | nil => trivial
  | cons byte rest ih => exact ⟨clean.1, ih clean.2⟩

namespace Console

variable {console : Console} {screen : Screen}

/-- The terminal that a console with its cursor on the screen shows. -/
def screenOf (console : Console) (inside : console.cursor < 2000) : Screen where
  cells index :=
    ⟨console.memory (videoBase + 2 * index.val), console.memory (videoBase + 2 * index.val + 1)⟩
  cursor := ⟨console.cursor, inside⟩

theorem displays_screenOf (console : Console) (inside : console.cursor < 2000) :
    Displays console (console.screenOf inside) where
  cells _ := ⟨rfl, rfl⟩
  cursor := rfl

/-- `put_str` is a sequence of `put_char`s. -/
theorem putStr_eq_putChars {text : BitVec 32 → Byte} {ebx : BitVec 32} {bytes : List Byte}
    (holds : HoldsString text ebx bytes) {fuel : Nat} (enough : bytes.length < fuel) :
    console.putStr text fuel ebx = console.putChars bytes := by
  induction bytes generalizing console ebx fuel with
  | nil =>
      obtain ⟨fuel, rfl⟩ := Nat.exists_eq_add_one_of_ne_zero (Nat.ne_of_gt enough)
      rw [putStr]
      exact if_pos holds
  | cons byte rest ih =>
      obtain ⟨fuel, rfl⟩ := Nat.exists_eq_add_one_of_ne_zero (Nat.ne_zero_of_lt enough)
      obtain ⟨here, nonzero, later⟩ := holds
      rw [putStr, here]
      simp only [nonzero, ↓reduceIte]
      rw [putChars]
      congr 1
      funext next
      exact ih later (Nat.lt_of_succ_lt_succ enough)

/-- **Many bytes.** A sequence without a backspace on the first cell does what it does to
the reference terminal, on the screen only. -/
theorem putChars_run (displays : Displays console screen) {bytes : List Byte}
    (clean : screen.NoBackspaceHome bytes) :
    ∃ after, console.putChars bytes = .ok after ∧ Displays after (screen.feedAll bytes) ∧
      Confined console after := by
  induction bytes generalizing console screen with
  | nil => exact ⟨console, rfl, displays, Confined.refl _⟩
  | cons byte rest ih =>
      obtain ⟨next, first, shown, confined⟩ := putChar_run displays clean.1
      obtain ⟨after, ran, final, later⟩ := ih shown clean.2
      refine ⟨after, ?_, final, confined.trans later⟩
      rw [putChars, first]
      exact ran

/-- From every video memory and every cursor on the screen, `put_str` leaves the cells and
the cursor as the reference terminal does. -/
theorem putStr_refines (console : Console) (inside : console.cursor < 2000)
    (text : BitVec 32 → Byte) (ebx : BitVec 32) (bytes : List Byte)
    (holds : HoldsString text ebx bytes)
    (clean : (console.screenOf inside).NoBackspaceHome bytes) (fuel : Nat)
    (enough : bytes.length < fuel) :
    ∃ after, console.putStr text fuel ebx = .ok after ∧
      Displays after ((console.screenOf inside).feedAll bytes) := by
  obtain ⟨after, ran, displays, -⟩ := putChars_run (console.displays_screenOf inside) clean
  refine ⟨after, ?_, displays⟩
  rw [putStr_eq_putChars holds enough]
  exact ran

/-- Zeroed memory and the cursor on the first cell. -/
def zeroed : Console := ⟨fun _ => 0, 0, fun _ => 0, []⟩

/-- Three bytes, a line feed among them, and a backspace. -/
def sample : List Byte := [0x68, 0x0a, 0x69, 0x08]

theorem putStr_refines_sample :
    ∃ after, zeroed.putStr (fun addr => sample.getD addr.toNat 0) 5 0 = .ok after ∧
      Displays after ((zeroed.screenOf (by decide)).feedAll sample) := by
  apply putStr_refines zeroed (by decide)
  · refine ⟨rfl, by decide, rfl, by decide, rfl, by decide, rfl, by decide, rfl⟩
  · refine ⟨by decide, by decide, by decide, by decide, trivial⟩
  · decide

/-- Somewhere a sequence with a backspace on the first cell faults. -/
theorem putChars_faults (displays : Displays console screen) {bytes : List Byte}
    (unclean : ¬ screen.NoBackspaceHome bytes) :
    ∃ printed, printed <+: bytes ∧
      console.putChars printed = .error (.generalProtection 0xfffe) := by
  induction bytes generalizing console screen with
  | nil => exact absurd trivial unclean
  | cons byte rest ih =>
      by_cases home : byte = 0x08 ∧ screen.cursor.val = 0
      · refine ⟨[byte], ⟨rest, rfl⟩, ?_⟩
        have faults : console.putChar 0x08 = .error (.generalProtection 0xfffe) :=
          putChar_backspaceHome (displays.cursor.trans home.2)
        rw [home.1, putChars, faults]
        rfl
      · obtain ⟨next, first, shown, -⟩ := putChar_run displays home
        obtain ⟨printed, shorter, faults⟩ := ih shown fun clean => unclean ⟨home, clean⟩
        refine ⟨byte :: printed, List.cons_prefix_cons.mpr ⟨rfl, shorter⟩, ?_⟩
        rw [putChars, first]
        exact faults

/-- The console with nothing stored yet. -/
def unlogged (console : Console) : Console := { console with stores := [] }

/-- After every byte the cursor is on the screen and so is every byte stored. -/
def PrintsSafely (console : Console) (bytes : List Byte) : Prop :=
  ∀ printed, printed <+: bytes → ∃ after, console.unlogged.putChars printed = .ok after ∧
    after.cursor < 2000 ∧ ∀ addr ∈ after.stores, OnScreen addr

/-- A byte sequence is printed safely exactly when no backspace is met on the first cell.
Strings are printed as the sequence of their bytes. -/
theorem printsSafely_iff (console : Console) (inside : console.cursor < 2000)
    (bytes : List Byte) :
    (console.PrintsSafely bytes ↔ (console.screenOf inside).NoBackspaceHome bytes) ∧
      ∀ text ebx fuel, HoldsString text ebx bytes → bytes.length < fuel →
        console.putStr text fuel ebx = console.putChars bytes := by
  refine ⟨⟨?_, ?_⟩, fun text ebx fuel holds enough => putStr_eq_putChars holds enough⟩
  · intro safe
    by_contra unclean
    have displays := console.unlogged.displays_screenOf inside
    obtain ⟨printed, shorter, faults⟩ := putChars_faults displays unclean
    obtain ⟨after, ran, -⟩ := safe printed shorter
    rw [faults] at ran
    cases ran
  · rintro clean printed ⟨rest, rfl⟩
    have displays := console.unlogged.displays_screenOf inside
    obtain ⟨after, ran, final, confined⟩ := putChars_run displays clean.left
    refine ⟨after, ran, ?_, ?_⟩
    · rw [final.cursor]
      exact Fin.isLt _
    · intro addr stored
      exact (confined addr stored).resolve_left List.not_mem_nil

theorem printsSafely_iff_sample :
    zeroed.PrintsSafely sample ∧
      zeroed.putStr (fun addr => sample.getD addr.toNat 0) 5 0 = zeroed.putChars sample := by
  obtain ⟨safe, asString⟩ := printsSafely_iff zeroed (by decide) sample
  refine ⟨safe.mpr ?_, asString _ 0 5 ?_ (by decide)⟩
  · exact ⟨by decide, by decide, by decide, by decide, trivial⟩
  · exact ⟨rfl, by decide, rfl, by decide, rfl, by decide, rfl, by decide, rfl⟩

/-- A backspace with the cursor on the first cell is not printed safely. -/
theorem not_printsSafely_backspace : zeroed.cursor < 2000 ∧ ¬ zeroed.PrintsSafely [0x08] := by
  refine ⟨by decide, fun safe => ?_⟩
  obtain ⟨after, ran, -⟩ := safe [0x08] (List.prefix_refl _)
  have faults : zeroed.unlogged.putChar 0x08 = .error (.generalProtection 0xfffe) :=
    putChar_backspaceHome rfl
  rw [putChars, faults] at ran
  cases ran

end Console

end OsElephant
