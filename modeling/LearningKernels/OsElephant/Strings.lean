import LearningKernels.Machine.Text

/-!
# Searching for a character

The functions of `string.c` that read strings. A `char` is signed on this target, and the
character to search for is an unsigned byte: the comparison of the two, made in `int`, fails
for each byte above 127. So the three searches are right exactly for the other bytes, and for
bytes that do not occur (`OsElephant.locates_iff`).
-/

namespace OsElephant

open Machine

section Code

variable {σ : Type} [AddressSpace σ]

/-- The loop of `memcmp`. -/
def memcmpLoop : (size a b : Nat) → Path σ Int
  | 0, _, _ => pure 0
  | size + 1, a, b => do
      let charA ← Path.load8 a
      let charB ← Path.load8 b
      if charA.toInt ≠ charB.toInt then
        pure (if charA.toInt > charB.toInt then 1 else -1)
      else
        memcmpLoop size (a + 1) (b + 1)

/-- `memcmp`. -/
def memcmp (a b size : Nat) : Path σ Int := do
  Path.require (a ≠ 0 ∨ b ≠ 0) .assertFailed
  memcmpLoop size a b

/-- The loop of `strlen`, with the pointer it leaves. -/
def strlenLoop : (fuel p : Nat) → Path σ Nat
  | 0, _ => Path.halt .unfinished
  | fuel + 1, p => do
      let char ← Path.load8 p
      if char.toInt ≠ 0 then strlenLoop fuel (p + 1) else pure (p + 1)

/-- `strlen`. -/
def strlen (fuel str : Nat) : Path σ Nat := do
  Path.require (str ≠ 0) .assertFailed
  let p ← strlenLoop fuel str
  return (p - str - 1) % 2 ^ 32

/-- The loop of `strcmp`, and the comparison behind it. -/
def strcmpLoop : (fuel a b : Nat) → Path σ Int
  | 0, _, _ => Path.halt .unfinished
  | fuel + 1, a, b => do
      let charA ← Path.load8 a
      let charB ← Path.load8 b
      if charA.toInt ≠ 0 ∧ charA.toInt = charB.toInt then
        strcmpLoop fuel (a + 1) (b + 1)
      else
        pure (if charA.toInt < charB.toInt then -1
          else if charA.toInt > charB.toInt then 1 else 0)

/-- `strcmp`. -/
def strcmp (fuel a b : Nat) : Path σ Int := do
  Path.require (a ≠ 0 ∧ b ≠ 0) .assertFailed
  strcmpLoop fuel a b

/-- The loop of `strchr`. `NULL` is the address zero. -/
def strchrLoop (ch : Byte) : (fuel str : Nat) → Path σ Nat
  | 0, _ => Path.halt .unfinished
  | fuel + 1, str => do
      let char ← Path.load8 str
      if char.toInt ≠ 0 then
        if char.toInt = ch.toNat then pure str else strchrLoop ch fuel (str + 1)
      else
        pure 0

/-- `strchr`. -/
def strchr (ch : Byte) (fuel str : Nat) : Path σ Nat := do
  Path.require (str ≠ 0) .assertFailed
  strchrLoop ch fuel str

/-- The loop of `strrchr`. -/
def strrchrLoop (ch : Byte) : (fuel str lastChar : Nat) → Path σ Nat
  | 0, _, _ => Path.halt .unfinished
  | fuel + 1, str, lastChar => do
      let char ← Path.load8 str
      if char.toInt ≠ 0 then
        strrchrLoop ch fuel (str + 1) (if char.toInt = ch.toNat then str else lastChar)
      else
        pure lastChar

/-- `strrchr`. -/
def strrchr (ch : Byte) (fuel str : Nat) : Path σ Nat := do
  Path.require (str ≠ 0) .assertFailed
  strrchrLoop ch fuel str 0

/-- The loop of `strchrs`. -/
def strchrsLoop (ch : Byte) : (fuel p chCnt : Nat) → Path σ Nat
  | 0, _, _ => Path.halt .unfinished
  | fuel + 1, p, chCnt => do
      let char ← Path.load8 p
      if char.toInt ≠ 0 then
        strchrsLoop ch fuel (p + 1)
          (if char.toInt = ch.toNat then (chCnt + 1) % 2 ^ 32 else chCnt)
      else
        pure chCnt

/-- `strchrs`. -/
def strchrs (ch : Byte) (fuel str : Nat) : Path σ Nat := do
  Path.require (str ≠ 0) .assertFailed
  strchrsLoop ch fuel str 0

end Code

theorem toInt_ne_zero {char : Byte} (shown : char ≠ 0) : char.toInt ≠ 0 :=
  BitVec.toInt_ne.mpr shown

/-- A signed `char` and an unsigned byte are equal as `int`s when they are the same byte and
it is at most 127. -/
theorem toInt_eq_toNat_iff (char ch : Byte) :
    char.toInt = (ch.toNat : Int) ↔ char = ch ∧ ch.toNat < 128 := by
  have bound := char.isLt
  have bound' := ch.isLt
  rw [BitVec.toInt_eq_toNat_cond, ← BitVec.toNat_inj]
  split <;> omega

/-- A pointer to a string: it is not null, and the whole string has addresses. -/
structure StringAt {σ : Type} [AddressSpace σ] (state : σ) (str : Nat) (text : List Byte) :
    Prop where
  held : TextAt state str text
  present : str ≠ 0
  fits : str + text.length < 2 ^ 32

section Search

variable {σ : Type} [AddressSpace σ] {state : σ} {ch : Byte} {str fuel : Nat} {text : List Byte}

/-- The comparison `*str == ch`. -/
def sameChar (ch char : Byte) : Bool := decide (char.toInt = (ch.toNat : Int))

/-- `strchr` finds the first of the places. -/
theorem strchrLoop_run (walk : Walk state fuel str text) :
    (strchrLoop ch fuel str : Path σ Nat).run state =
      .ok ((places (sameChar ch) str text).head?.getD 0, state) := by
  induction walk with
  | stop read =>
      rw [strchrLoop, Path.run_bind_of_ok (Path.run_load8_of_ok read)]
      rfl
  | @next _ _ char _ shown read _ ih =>
      rw [strchrLoop, Path.run_bind_of_ok (Path.run_load8_of_ok read), if_pos (toInt_ne_zero shown),
        places, sameChar]
      by_cases same : char.toInt = (ch.toNat : Int)
      · simp only [same, decide_true, ↓reduceIte]
        rfl
      · simp only [same, decide_false, Bool.false_eq_true, ↓reduceIte]
        exact ih

/-- `strrchr` finds the last one. -/
theorem strrchrLoop_run (walk : Walk state fuel str text) (lastChar : Nat) :
    (strrchrLoop ch fuel str lastChar : Path σ Nat).run state =
      .ok ((places (sameChar ch) str text).getLast?.getD lastChar, state) := by
  induction walk generalizing lastChar with
  | stop read =>
      rw [strrchrLoop, Path.run_bind_of_ok (Path.run_load8_of_ok read)]
      rfl
  | @next _ _ char _ shown read _ ih =>
      rw [strrchrLoop, Path.run_bind_of_ok (Path.run_load8_of_ok read),
        if_pos (toInt_ne_zero shown), ih, places, sameChar]
      by_cases same : char.toInt = (ch.toNat : Int)
      · simp only [same, decide_true, ↓reduceIte, List.getLast?_cons, Option.getD_some]
      · simp only [same, decide_false, Bool.false_eq_true, ↓reduceIte]

/-- `strchrs` counts them. -/
theorem strchrsLoop_run (walk : Walk state fuel str text) {chCnt : Nat}
    (small : chCnt + text.length < 2 ^ 32) :
    (strchrsLoop ch fuel str chCnt : Path σ Nat).run state =
      .ok (chCnt + (places (sameChar ch) str text).length, state) := by
  induction walk generalizing chCnt with
  | stop read =>
      rw [strchrsLoop, Path.run_bind_of_ok (Path.run_load8_of_ok read)]
      rfl
  | @next _ _ char _ shown read _ ih =>
      rw [List.length_cons] at small
      rw [strchrsLoop, Path.run_bind_of_ok (Path.run_load8_of_ok read),
        if_pos (toInt_ne_zero shown), places, sameChar]
      by_cases same : char.toInt = (ch.toNat : Int)
      · have next : (chCnt + 1) % 2 ^ 32 = chCnt + 1 := Nat.mod_eq_of_lt (by omega)
        simp only [same, decide_true, ↓reduceIte, next, List.length_cons]
        rw [ih (by omega), Nat.add_assoc, Nat.add_comm 1]
      · simp only [same, decide_false, Bool.false_eq_true, ↓reduceIte]
        exact ih (by omega)

/-- The addresses at which a string has a byte. -/
def Occurrences (str : Nat) (text : List Byte) (ch : Byte) : Set Nat :=
  {addr | ∃ index, text[index]? = some ch ∧ addr = str + index}

/-- What the three searches should find. -/
structure Located (str : Nat) (text : List Byte) (ch : Byte) (first last count : Nat) : Prop where
  count_eq : count = text.count ch
  first_null : first = 0 ↔ count = 0
  last_null : last = 0 ↔ count = 0
  first_least : count ≠ 0 → IsLeast (Occurrences str text ch) first
  last_greatest : count ≠ 0 → IsGreatest (Occurrences str text ch) last

/-- The three functions return, and what they return is right. -/
def Locates (state : σ) (str : Nat) (text : List Byte) (ch : Byte) : Prop :=
  ∃ first last count, Returns (fun fuel => strchr ch fuel str) state first ∧
    Returns (fun fuel => strrchr ch fuel str) state last ∧
    Returns (fun fuel => strchrs ch fuel str) state count ∧ Located str text ch first last count

/-- The three results, in terms of the places that the comparison accepts. -/
theorem search_returns (string : StringAt state str text) :
    Returns (fun fuel => strchr ch fuel str) state
        ((places (sameChar ch) str text).head?.getD 0) ∧
      Returns (fun fuel => strrchr ch fuel str) state
        ((places (sameChar ch) str text).getLast?.getD 0) ∧
      Returns (fun fuel => strchrs ch fuel str) state (places (sameChar ch) str text).length := by
  obtain ⟨held, present, fits⟩ := string
  have go : (Path.require (str ≠ 0) .assertFailed : Path σ Unit).run state = .ok ((), state) :=
    Path.run_require_of_true present state
  refine ⟨⟨text.length, ?_⟩, ⟨text.length, ?_⟩, ⟨text.length, ?_⟩⟩
  · intro fuel enough
    change (strchr ch fuel str : Path σ Nat).run state = _
    rw [strchr, Path.run_bind_of_ok go]
    exact strchrLoop_run (held.walk enough)
  · intro fuel enough
    change (strrchr ch fuel str : Path σ Nat).run state = _
    rw [strrchr, Path.run_bind_of_ok go]
    exact strrchrLoop_run (held.walk enough) 0
  · intro fuel enough
    change (strchrs ch fuel str : Path σ Nat).run state = _
    rw [strchrs, Path.run_bind_of_ok go, strchrsLoop_run (held.walk enough) (by omega),
      Nat.zero_add]

/-- For a byte up to 127, the accepted places are its occurrences. -/
theorem places_eq_occurrences (small : ch.toNat < 128) :
    {addr | addr ∈ places (sameChar ch) str text} = Occurrences str text ch ∧
      (places (sameChar ch) str text).length = text.count ch := by
  have accepted (char : Byte) : sameChar ch char = true ↔ char = ch := by
    rw [sameChar, decide_eq_true_iff, toInt_eq_toNat_iff]
    exact and_iff_left small
  refine ⟨?_, ?_⟩
  · ext addr
    rw [Set.mem_ofPred_eq, mem_places]
    refine ⟨?_, ?_⟩
    · rintro ⟨index, char, found, same, place⟩
      rw [(accepted char).mp same] at found
      exact ⟨index, found, place⟩
    · rintro ⟨index, found, place⟩
      exact ⟨index, ch, found, (accepted ch).mpr rfl, place⟩
  · rw [length_places, List.count]
    apply List.countP_congr
    intro char _
    rw [accepted, beq_iff_eq]

/-- A byte above 127 is accepted nowhere. -/
theorem places_eq_nil (large : ¬ ch.toNat < 128) : places (sameChar ch) str text = [] := by
  rw [← List.length_eq_zero_iff, length_places, List.countP_eq_zero]
  intro char _ same
  exact large ((toInt_eq_toNat_iff char ch).mp (of_decide_eq_true same)).2

/-- Null pointers and a count of zero are right where nothing occurs. -/
theorem located_of_none (none : 0 = text.count ch) : Located str text ch 0 0 0 where
  count_eq := none
  first_null := iff_of_true rfl rfl
  last_null := iff_of_true rfl rfl
  first_least := fun some => absurd rfl some
  last_greatest := fun some => absurd rfl some

theorem located_of_small (present : str ≠ 0) (small : ch.toNat < 128) :
    Located str text ch ((places (sameChar ch) str text).head?.getD 0)
      ((places (sameChar ch) str text).getLast?.getD 0)
      (places (sameChar ch) str text).length := by
  obtain ⟨same, counted⟩ := @places_eq_occurrences ch str text small
  have nonzero (addr : Nat) (member : addr ∈ places (sameChar ch) str text) : addr ≠ 0 := by
    obtain ⟨index, char, -, -, rfl⟩ := mem_places.mp member
    omega
  cases empty : places (sameChar ch) str text with
  | nil =>
      rw [empty] at counted
      exact located_of_none counted
  | cons first rest =>
      have begins : (places (sameChar ch) str text).head? = some first := by
        rw [empty]
        rfl
      obtain ⟨last, ends⟩ : ∃ last, (places (sameChar ch) str text).getLast? = some last := by
        rw [empty, List.getLast?_cons]
        exact ⟨_, rfl⟩
      have several : (places (sameChar ch) str text).length ≠ 0 := by
        rw [empty]
        exact Nat.succ_ne_zero _
      have least := isLeast_head begins
      have greatest := isGreatest_getLast ends
      rw [← empty, begins, ends]
      exact
        { count_eq := counted
          first_null := iff_of_false (nonzero first least.1) several
          last_null := iff_of_false (nonzero last greatest.1) several
          first_least := fun _ => same ▸ least
          last_greatest := fun _ => same ▸ greatest }

/-- **The searches are right for bytes up to 127, and for bytes that do not occur.** -/
theorem locates_iff (state : σ) (str : Nat) (text : List Byte) (ch : Byte)
    (string : StringAt state str text) :
    Locates state str text ch ↔ ch.toNat < 128 ∨ ch ∉ text := by
  obtain ⟨first, last, count⟩ := @search_returns σ _ state ch str text string
  by_cases small : ch.toNat < 128
  · exact iff_of_true ⟨_, _, _, first, last, count, located_of_small string.present small⟩
      (.inl small)
  · rw [places_eq_nil small] at first last count
    refine ⟨?_, ?_⟩
    · -- the count is zero, so nothing may occur
      rintro ⟨first', last', count', -, -, counted, located⟩
      have zero := located.count_eq
      rw [counted.unique count] at zero
      exact .inr (List.count_eq_zero.mp zero.symm)
    · rintro (impossible | absent)
      · exact absurd impossible small
      · exact ⟨_, _, _, first, last, count,
          located_of_none (List.count_eq_zero.mpr absent).symm⟩

end Search

/-- A page with the strings `aba`, `\xc8` and `ab`. -/
def threeStrings : Fenced where
  memory addr := [0x61, 0x62, 0x61, 0, 0xc8, 0, 0x61, 0x62, 0].getD (addr - 0x1000) 0
  first := 0x1000
  length := 0x1000

/-- In `aba` the letter `a` is located. -/
theorem locates_iff_letter : Locates threeStrings 0x1000 [0x61, 0x62, 0x61] 0x61 :=
  (locates_iff threeStrings 0x1000 [0x61, 0x62, 0x61] 0x61
    ⟨⟨by decide, rfl, by decide, rfl, by decide, rfl, rfl⟩, by decide, by decide⟩).mpr
      (.inl (by decide))

/-- The byte 200 is not located in the string that consists of it: the count is zero. -/
theorem not_locates_above : ¬ Locates threeStrings 0x1004 [0xc8] 0xc8 := by
  rintro ⟨first, last, count, -, -, counted, located⟩
  have string : StringAt threeStrings 0x1004 [0xc8] :=
    ⟨⟨by decide, rfl, rfl⟩, by decide, by decide⟩
  have zero : count = 0 := counted.unique (search_returns string).2.2
  have one := located.count_eq
  rw [zero] at one
  exact absurd one (by decide)

end OsElephant
