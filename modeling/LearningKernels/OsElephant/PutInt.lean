import LearningKernels.Machine.BlockCopy
import LearningKernels.Machine.Digits

/-!
# Printing a number

`put_int` of `print.S` fills its buffer of eight bytes with the hexadecimal digits of a
number from the last one to the first, skips the zeros in front and prints the rest. The
registers are those between `pushad` and `popad`; a call of `put_char` is recorded with the
character and, where it was loaded from memory, with the address. What is printed does not
depend on memory at all (`OsElephant.putInt_prints_hex`).
-/

namespace OsElephant

open Machine

/-- The registers of `put_int`, memory, and the characters printed so far. -/
structure Printing where
  eax : BitVec 32
  edx : BitVec 32
  edi : BitVec 32
  cl : BitVec 8
  origin : Option (BitVec 32)
  ram : Ram
  printed : List (BitVec 8 × Option (BitVec 32))

namespace Printing

section Code

variable (putIntBuffer : BitVec 32)

/-- One round of `.16based_4bits`. -/
def storeDigit (state : Printing) : Printing :=
  let edx := state.edx &&& 0x0000000f#32
  let edx := if BitVec.slt 9#32 edx then edx - 10#32 + 65#32 else edx + 48#32
  { state with
    ram := Function.update state.ram (putIntBuffer + state.edi) (edx.setWidth 8)
    edi := state.edi - 1#32
    eax := state.eax >>> 4
    edx := state.eax >>> 4 }

/-- `.16based_4bits`, with the counter of its `loop`. -/
def storeDigits : (ecx : Nat) → Printing → Printing
  | 0, state => state
  | ecx + 1, state => storeDigits ecx (state.storeDigit putIntBuffer)

/-- The body of `.put_each_num`: print a character and load the next one. -/
def putNum (state : Printing) : Printing :=
  let edi := state.edi + 1#32
  { state with
    printed := state.printed ++ [(state.cl, state.origin)]
    edi
    cl := state.ram (putIntBuffer + edi)
    origin := some (putIntBuffer + edi) }

theorem putNum_edi (state : Printing) :
    (state.putNum putIntBuffer).edi = state.edi + 1#32 := rfl

/-- `.put_each_num`. -/
def putEachNum (state : Printing) : Printing :=
  let next := state.putNum putIntBuffer
  if next.edi.slt 8#32 then putEachNum next else next
termination_by (8#32 - state.edi).toNat
decreasing_by
  next again =>
    have edi : next.edi = state.edi + 1#32 := rfl
    rw [edi] at again ⊢
    have different : state.edi + 1#32 ≠ 9#32 := by
      intro same
      rw [same] at again
      exact absurd again (by decide)
    bv_omega

/-- `.go_on_skip`, up to its comparison. -/
def loadNum (state : Printing) : Printing :=
  { state with
    cl := state.ram (putIntBuffer + state.edi)
    origin := some (putIntBuffer + state.edi)
    edi := state.edi + 1#32 }

/-- `.skip_prefix_0`. -/
def skipPrefix0 (state : Printing) : Printing :=
  if state.edi = 8#32 then
    putEachNum putIntBuffer { state with cl := 48#8, origin := none }
  else
    let next := state.loadNum putIntBuffer
    if next.cl = 48#8 then skipPrefix0 next
    else putEachNum putIntBuffer { next with edi := next.edi - 1#32 }
termination_by (8#32 - state.edi).toNat
decreasing_by
  next inside _ =>
    have edi : next.edi = state.edi + 1#32 := rfl
    rw [edi]
    bv_omega

end Code

end Printing

/-- `put_int`. -/
def putInt (putIntBuffer : BitVec 32) (number : BitVec 32) (ram : Ram) : Printing :=
  let state : Printing :=
    { eax := number, edx := number, edi := 7#32, cl := 0, origin := none, ram, printed := [] }
  let state := state.storeDigits putIntBuffer 8
  let state := { state with edi := state.edi + 1#32 }
  state.skipPrefix0 putIntBuffer

/-- The character of a hexadecimal digit. -/
def hexChar (digit : Nat) : BitVec 8 :=
  if digit ≤ 9 then BitVec.ofNat 8 (48 + digit) else BitVec.ofNat 8 (65 + (digit - 10))

/-- The digit of a character. -/
def hexValue (char : BitVec 8) : Nat :=
  if char.toNat ≤ 57 then char.toNat - 48 else char.toNat - 65 + 10

/-- A number in hexadecimal digits, without leading zeros. -/
def hexText (value : Nat) : List (BitVec 8) :=
  if value = 0 then [hexChar 0] else (Nat.digits 16 value).reverse.map hexChar

theorem hexValue_hexChar {digit : Nat} (bound : digit < 16) : hexValue (hexChar digit) = digit := by
  have every : ∀ digit : Fin 16, hexValue (hexChar digit.val) = digit.val := by decide
  exact every ⟨digit, bound⟩

theorem hexChar_eq_zero {digit : Nat} (bound : digit < 16) : hexChar digit = 48#8 ↔ digit = 0 := by
  have every : ∀ digit : Fin 16, hexChar digit.val = 48#8 ↔ digit.val = 0 := by decide
  exact every ⟨digit, bound⟩

/-- A numeral reads back as its number. -/
theorem horner_hexText (value : Nat) : horner 16 ((hexText value).map hexValue) = value := by
  rw [hexText]
  split
  · next zero =>
      rw [zero]
      rfl
  · have values : ((Nat.digits 16 value).reverse.map hexChar).map hexValue =
        (Nat.digits 16 value).reverse := by
      rw [List.map_map]
      conv_rhs => rw [← List.map_id (Nat.digits 16 value).reverse]
      apply List.map_congr_left
      intro digit member
      exact hexValue_hexChar (Nat.digits_lt_base (by decide) (List.mem_reverse.mp member))
    rw [values, horner_digits]

namespace Printing

variable {putIntBuffer : BitVec 32} {state : Printing}

/-- The character that a round stores is that of the low digit of `edx`. -/
theorem digit_char (edx : BitVec 32) :
    (if BitVec.slt 9#32 (edx &&& 0x0000000f#32) then
        (edx &&& 0x0000000f#32) - 10#32 + 65#32
      else (edx &&& 0x0000000f#32) + 48#32).setWidth 8 = hexChar (edx.toNat % 16) := by
  have low : edx &&& 0x0000000f#32 = BitVec.ofNat 32 (edx.toNat % 16) := by
    apply BitVec.eq_of_toNat_eq
    have mask : (0x0000000f#32).toNat = 2 ^ 4 - 1 := rfl
    rw [BitVec.toNat_and, mask, Nat.and_two_pow_sub_one_eq_mod, BitVec.toNat_ofNat]
    omega
  have every : ∀ digit : Fin 16,
      (if BitVec.slt 9#32 (BitVec.ofNat 32 digit.val) then
          BitVec.ofNat 32 digit.val - 10#32 + 65#32
        else BitVec.ofNat 32 digit.val + 48#32).setWidth 8 = hexChar digit.val := by decide
  rw [low]
  exact every ⟨edx.toNat % 16, by omega⟩

theorem storeDigit_ram (putIntBuffer : BitVec 32) (state : Printing) :
    (state.storeDigit putIntBuffer).ram = Function.update state.ram (putIntBuffer + state.edi)
      (hexChar (state.edx.toNat % 16)) := by
  rw [← digit_char]
  rfl

/-- What is in the buffer at a place. -/
def buffered (putIntBuffer : BitVec 32) (state : Printing) (place : Nat) : BitVec 8 :=
  state.ram (putIntBuffer + BitVec.ofNat 32 place)

/-- `rounds` rounds have stored the last digits of `number`, and the others are left in `eax`
and `edx`. -/
structure Stored (putIntBuffer number : BitVec 32) (rounds : Nat) (state : Printing) : Prop where
  eax : state.eax.toNat = number.toNat / 16 ^ rounds
  edx : state.edx = state.eax
  edi : state.edi = 7#32 - BitVec.ofNat 32 rounds
  digits : ∀ place < 8, 8 - rounds ≤ place →
    state.buffered putIntBuffer place = hexChar (number.toNat / 16 ^ (7 - place) % 16)
  printed : state.printed = []

theorem Stored.step {number : BitVec 32} {rounds : Nat}
    (stored : Stored putIntBuffer number rounds state) (more : rounds < 8) :
    Stored putIntBuffer number (rounds + 1) (state.storeDigit putIntBuffer) := by
  have power : 16 ^ (rounds + 1) = 16 ^ rounds * 2 ^ 4 := Nat.pow_succ 16 rounds
  refine ⟨?_, rfl, ?_, ?_, stored.printed⟩
  · change (state.eax >>> 4).toNat = _
    rw [BitVec.toNat_ushiftRight, stored.eax, Nat.shiftRight_eq_div_pow, Nat.div_div_eq_div_mul,
      power]
  · change state.edi - 1#32 = _
    rw [stored.edi]
    bv_omega
  · intro place inside reached
    by_cases here : place = 7 - rounds
    · have addr : putIntBuffer + BitVec.ofNat 32 place = putIntBuffer + state.edi := by
        rw [stored.edi, here]
        bv_omega
      have exponent : 7 - place = rounds := by omega
      rw [buffered, storeDigit_ram, addr, Function.update_self, stored.edx, stored.eax, exponent]
    · have apart : putIntBuffer + BitVec.ofNat 32 place ≠ putIntBuffer + state.edi := by
        rw [stored.edi]
        bv_omega
      rw [buffered, storeDigit_ram, Function.update_of_ne apart]
      exact stored.digits place inside (by omega)

theorem Stored.run {number : BitVec 32} {rounds : Nat} (ecx : Nat)
    (stored : Stored putIntBuffer number rounds state) (total : rounds + ecx = 8) :
    Stored putIntBuffer number 8 (state.storeDigits putIntBuffer ecx) := by
  induction ecx generalizing state rounds with
  | zero =>
      rw [Nat.add_zero] at total
      rwa [total] at stored
  | succ ecx ih => exact ih (stored.step (by omega)) (by omega)

/-- The entry for a character printed from the buffer. -/
def entry (putIntBuffer : BitVec 32) (state : Printing) (place : Nat) :
    BitVec 8 × Option (BitVec 32) :=
  (state.buffered putIntBuffer place, some (putIntBuffer + BitVec.ofNat 32 place))

theorem slt_eight {place : Nat} (inside : place < 8) :
    (BitVec.ofNat 32 place).slt 8#32 = true := by
  have every : ∀ place : Fin 8, (BitVec.ofNat 32 place.val).slt 8#32 = true := by decide
  exact every ⟨place, inside⟩

/-- From a place in the buffer on everything is printed. -/
theorem putEachNum_printed {place remaining : Nat} (inside : place + remaining + 1 = 8)
    (edi : state.edi = BitVec.ofNat 32 place)
    (loaded : (state.cl, state.origin) = state.entry putIntBuffer place) :
    (state.putEachNum putIntBuffer).printed =
      state.printed ++ (List.range' place (remaining + 1)).map (state.entry putIntBuffer) := by
  induction remaining generalizing state place with
  | zero =>
      have stop : ¬ (state.putNum putIntBuffer).edi.slt 8#32 = true := by
        have last : place = 7 := by omega
        rw [putNum_edi, edi, last]
        decide
      rw [putEachNum, if_neg stop, List.range'_one, List.map_singleton, ← loaded]
      rfl
  | succ remaining ih =>
      have next : (state.putNum putIntBuffer).edi = BitVec.ofNat 32 (place + 1) := by
        rw [putNum_edi, edi, BitVec.ofNat_add]
      have again : (state.putNum putIntBuffer).edi.slt 8#32 = true := by
        rw [next]
        exact slt_eight (by omega)
      have reloaded : ((state.putNum putIntBuffer).cl, (state.putNum putIntBuffer).origin) =
          (state.putNum putIntBuffer).entry putIntBuffer (place + 1) := by
        rw [entry, buffered, ← next]
        rfl
      have rest := ih (by omega) next reloaded
      have split : List.range' place (remaining + 1 + 1) =
          place :: List.range' (place + 1) (remaining + 1) := List.range'_succ
      rw [putEachNum, if_pos again, rest, split, List.map_cons, ← loaded, List.append_cons]
      rfl

/-- With all places skipped only the character in `cl` is printed. -/
theorem putEachNum_full0 (edi : state.edi = 8#32) :
    (state.putEachNum putIntBuffer).printed = state.printed ++ [(state.cl, state.origin)] := by
  have stop : ¬ (state.putNum putIntBuffer).edi.slt 8#32 = true := by
    rw [putNum_edi, edi]
    decide
  rw [putEachNum, if_neg stop]
  rfl

/-- What `.skip_prefix_0` prints from a list of places on. -/
def shown (putIntBuffer : BitVec 32) (state : Printing) (places : List Nat) :
    List (BitVec 8 × Option (BitVec 32)) :=
  match places.dropWhile fun place => state.buffered putIntBuffer place = 48#8 with
  | [] => [(48#8, none)]
  | place :: rest => (place :: rest).map (state.entry putIntBuffer)

theorem shown_cons (place : Nat) (places : List Nat) :
    state.shown putIntBuffer (place :: places) =
      if state.buffered putIntBuffer place = 48#8 then state.shown putIntBuffer places
      else (place :: places).map (state.entry putIntBuffer) := by
  by_cases zero : state.buffered putIntBuffer place = 48#8
  · simp only [shown, List.dropWhile_cons, zero, decide_true, ↓reduceIte]
  · simp only [shown, List.dropWhile_cons, zero, decide_false, Bool.false_eq_true, ↓reduceIte]

/-- The zeros from a place on are skipped, and the rest is printed. -/
theorem skipPrefix0_printed {place remaining : Nat} (inside : place + remaining = 8)
    (edi : state.edi = BitVec.ofNat 32 place) :
    (state.skipPrefix0 putIntBuffer).printed =
      state.printed ++ state.shown putIntBuffer (List.range' place remaining) := by
  induction remaining generalizing state place with
  | zero =>
      rw [Nat.add_zero] at inside
      rw [inside] at edi
      rw [skipPrefix0, if_pos edi]
      exact putEachNum_full0 edi
  | succ remaining ih =>
      have more : state.edi ≠ 8#32 := by
        rw [edi]
        bv_omega
      have next : (state.loadNum putIntBuffer).edi = BitVec.ofNat 32 (place + 1) := by
        rw [loadNum, edi, BitVec.ofNat_add]
      have char : (state.loadNum putIntBuffer).cl = state.buffered putIntBuffer place := by
        rw [loadNum, edi, buffered]
      rw [skipPrefix0, if_neg more, List.range'_succ, shown_cons]
      by_cases zero : state.buffered putIntBuffer place = 48#8
      · rw [if_pos zero]
        exact (congrArg printed (if_pos (char.trans zero))).trans (ih (by omega) next)
      · have stop : (state.loadNum putIntBuffer).cl ≠ 48#8 := fun same =>
          zero (char.symm.trans same)
        have back : (state.loadNum putIntBuffer).edi - 1#32 = BitVec.ofNat 32 place := by
          rw [next]
          bv_omega
        rw [if_neg zero]
        refine (congrArg printed (if_neg stop)).trans ?_
        refine putEachNum_printed inside back ?_
        rw [entry, buffered, ← edi]
        rfl

/-- The characters shown are those of the places behind the zeros. -/
theorem shown_chars (places : List Nat) :
    (state.shown putIntBuffer places).map Prod.fst =
      match (places.map (state.buffered putIntBuffer)).dropWhile fun char => char = 48#8 with
      | [] => [48#8]
      | char :: rest => char :: rest := by
  have same : (places.map (state.buffered putIntBuffer)).dropWhile (fun char => char = 48#8) =
      (places.dropWhile fun place => state.buffered putIntBuffer place = 48#8).map
        (state.buffered putIntBuffer) := List.dropWhile_map
  rw [same, shown]
  cases places.dropWhile fun place => state.buffered putIntBuffer place = 48#8 with
  | nil => rfl
  | cons place rest =>
      simp only [List.map_cons, List.map_map]
      rfl

/-- What is shown comes out of the buffer, or is the one character that does not. -/
theorem shown_origin {places : List Nat} (inside : ∀ place ∈ places, place < 8)
    {shownEntry : BitVec 8 × Option (BitVec 32)}
    (member : shownEntry ∈ state.shown putIntBuffer places) {addr : BitVec 32}
    (origin : shownEntry.2 = some addr) : addr ∈ Span putIntBuffer 8 := by
  induction places with
  | nil =>
      rw [List.mem_singleton.mp member] at origin
      cases origin
  | cons place places ih =>
      rw [shown_cons] at member
      split at member
      · exact ih (fun other among => inside other (List.mem_cons_of_mem _ among)) member
      · obtain ⟨source, among, rfl⟩ := List.mem_map.mp member
        have bound := inside source among
        rw [← Option.some.inj origin]
        apply add_mem_span
        rw [BitVec.toNat_ofNat]
        omega

/-- Outside the buffer the digits change nothing. -/
theorem storeDigits_ram_of_outside {addr : BitVec 32} (outside : addr ∉ Span putIntBuffer 8)
    {ecx : Nat} (few : ecx ≤ 8) (edi : state.edi = BitVec.ofNat 32 ecx - 1#32) :
    (state.storeDigits putIntBuffer ecx).ram addr = state.ram addr := by
  induction ecx generalizing state with
  | zero => rfl
  | succ ecx ih =>
      have place : state.edi = BitVec.ofNat 32 ecx := by
        rw [edi]
        bv_omega
      have apart : addr ≠ putIntBuffer + state.edi := by
        rintro rfl
        rw [place] at outside
        refine outside (add_mem_span ?_)
        rw [BitVec.toNat_ofNat]
        omega
      have next : (state.storeDigit putIntBuffer).edi = BitVec.ofNat 32 ecx - 1#32 := by
        rw [← place]
        rfl
      rw [storeDigits, ih (by omega) next, storeDigit_ram, Function.update_of_ne apart]

/-- Printing only reads the buffer. -/
theorem putEachNum_ram (state : Printing) :
    (state.putEachNum putIntBuffer).ram = state.ram := by
  induction state using putEachNum.induct putIntBuffer with
  | case1 state next again ih =>
      rw [putEachNum]
      exact (congrArg Printing.ram (if_pos again)).trans ih
  | case2 state next stop =>
      rw [putEachNum]
      exact (congrArg Printing.ram (if_neg stop)).trans rfl

theorem skipPrefix0_ram (state : Printing) :
    (state.skipPrefix0 putIntBuffer).ram = state.ram := by
  induction state using skipPrefix0.induct putIntBuffer with
  | case1 state full =>
      rw [skipPrefix0, if_pos full]
      exact putEachNum_ram _
  | case2 state more next zero ih =>
      rw [skipPrefix0, if_neg more]
      exact (congrArg Printing.ram (if_pos zero)).trans ih
  | case3 state more next stop =>
      rw [skipPrefix0, if_neg more]
      exact (congrArg Printing.ram (if_neg stop)).trans (putEachNum_ram _)

end Printing

/-- `put_int` stores to its buffer only. -/
theorem putInt_ram_of_outside {putIntBuffer addr : BitVec 32}
    (outside : addr ∉ Span putIntBuffer 8) (number : BitVec 32) (ram : Ram) :
    (putInt putIntBuffer number ram).ram addr = ram addr := by
  rw [putInt]
  refine (congrFun (Printing.skipPrefix0_ram _) addr).trans ?_
  exact Printing.storeDigits_ram_of_outside outside (Nat.le_refl 8) rfl

/-- Skipping the characters of leading zeros is skipping the zeros. -/
theorem dropWhile_hexChar {digits : List Nat} (bound : ∀ digit ∈ digits, digit < 16) :
    (digits.map hexChar).dropWhile (fun char => char = 48#8) =
      (digits.dropWhile fun digit => digit = 0).map hexChar := by
  induction digits with
  | nil => rfl
  | cons digit digits ih =>
      have rest := ih fun other among => bound other (List.mem_cons_of_mem _ among)
      have same := hexChar_eq_zero (bound digit List.mem_cons_self)
      rw [List.map_cons, List.dropWhile_cons, List.dropWhile_cons]
      by_cases zero : digit = 0
      · rw [if_pos (decide_eq_true (same.mpr zero)), if_pos (decide_eq_true zero), rest]
      · have other : hexChar digit ≠ 48#8 := fun equal => zero (same.mp equal)
        rw [decide_eq_false other, decide_eq_false zero]
        rfl

/-- A field of eight characters without its leading zeros, or one zero, is the numeral. -/
theorem hexText_of_field {value : Nat} (bound : value < 16 ^ 8) :
    (match ((fixedDigits 16 8 value).map hexChar).dropWhile fun char => char = 48#8 with
      | [] => [48#8]
      | char :: rest => char :: rest) = hexText value := by
  rw [dropWhile_hexChar fun digit member => fixedDigits_lt (by decide) member,
    dropWhile_fixedDigits (by decide) bound, hexText]
  by_cases zero : value = 0
  · rw [zero]
    rfl
  · rw [if_neg zero]
    have digits : (Nat.digits 16 value).reverse ≠ [] :=
      List.reverse_ne_nil_iff.mpr (Nat.digits_ne_nil_iff_ne_zero.mpr zero)
    cases split : (Nat.digits 16 value).reverse with
    | nil => exact absurd split digits
    | cons digit rest => rfl

/-- The buffer holds the eight digits, and what is printed is shown from it. -/
theorem putInt_shown (putIntBuffer number : BitVec 32) (ram : Ram) :
    ∃ state : Printing,
      (putInt putIntBuffer number ram).printed = state.shown putIntBuffer (List.range 8) ∧
      (List.range 8).map (state.buffered putIntBuffer) =
        (fixedDigits 16 8 number.toNat).map hexChar := by
  have start : Printing.Stored putIntBuffer number 0
      { eax := number, edx := number, edi := 7#32, cl := 0, origin := none, ram, printed := [] } :=
    ⟨by rw [Nat.pow_zero, Nat.div_one], rfl, rfl, fun place inside reached => by omega, rfl⟩
  have stored := start.run 8 rfl
  generalize filled : Printing.storeDigits putIntBuffer 8 _ = state at stored
  have first : state.edi + 1#32 = BitVec.ofNat 32 0 := by
    rw [stored.edi]
    rfl
  refine ⟨{ state with edi := state.edi + 1#32 }, ?_, ?_⟩
  · have printed := @Printing.skipPrefix0_printed putIntBuffer
      { state with edi := state.edi + 1#32 } 0 8 rfl first
    rw [putInt, filled, List.range_eq_range']
    exact printed.trans (congrArg (fun before => before ++ _) stored.printed)
  · rw [fixedDigits_eq_map, List.map_map]
    apply List.map_congr_left
    intro place member
    exact stored.digits place (List.mem_range.mp member) (Nat.zero_le _)

/-- **`put_int` prints the numeral.** The characters are the hexadecimal digits without
leading zeros, they read back as the number, and each one printed from memory comes out of
the eight bytes of the buffer; what memory held before does not show. -/
theorem putInt_prints_hex (putIntBuffer number : BitVec 32) (ram : Ram) :
    (putInt putIntBuffer number ram).printed.map Prod.fst = hexText number.toNat ∧
      horner 16 (((putInt putIntBuffer number ram).printed.map Prod.fst).map hexValue) =
        number.toNat ∧
      ∀ entry ∈ (putInt putIntBuffer number ram).printed, ∀ addr, entry.2 = some addr →
        addr ∈ Span putIntBuffer 8 := by
  obtain ⟨state, printed, digits⟩ := putInt_shown putIntBuffer number ram
  have chars : (putInt putIntBuffer number ram).printed.map Prod.fst = hexText number.toNat := by
    rw [printed, Printing.shown_chars, digits]
    exact hexText_of_field number.isLt
  refine ⟨chars, ?_, ?_⟩
  · rw [chars, horner_hexText]
  · intro entry member addr origin
    rw [printed] at member
    exact Printing.shown_origin (fun place among => List.mem_range.mp among) member origin

end OsElephant
