import Mathlib.Data.List.Lex
import LearningKernels.OsElephant.Strings

/-!
# Comparing strings

`strcmp` stops at the end of the first string or at a difference, and `memcmp` after a number
of bytes or at a difference. Given one byte more than the shorter string has, the two make the
same steps (`OsElephant.Judges`), and what they return is the lexicographic order of the signed
characters, terminators included. So `strcmp` is a total order (`OsElephant.strcmp_orders`).
-/

namespace OsElephant

open Machine

/-- The signed characters of a string, with the terminator. -/
def signedText (text : List Byte) : List Int := text.map BitVec.toInt ++ [0]

@[simp]
theorem signedText_nil : signedText [] = [(0 : Byte).toInt] := rfl

@[simp]
theorem signedText_cons (char : Byte) (text : List Byte) :
    signedText (char :: text) = char.toInt :: signedText text := rfl

theorem signedText_inj {text other : List Byte} :
    signedText text = signedText other ↔ text = other := by
  have chars : Function.Injective (BitVec.toInt : Byte → Int) := fun _ _ => BitVec.eq_of_toInt_eq
  rw [signedText, signedText, List.append_left_inj, (List.map_injective_iff.mpr chars).eq_iff]

section Compare

variable {σ : Type} [AddressSpace σ] {state : σ} {a b more : Nat} {text other : List Byte}

/-- The steps of a comparison, whose first argument bounds the rounds; `more` of them may be
left at the end. -/
structure Judges (code : Nat → Nat → Nat → Path σ Int) (state : σ) (more : Nat) : Prop where
  apart : ∀ {charA charB : Byte} {a b : Nat}, charA ≠ charB →
    AddressSpace.load8 state a = .ok charA → AddressSpace.load8 state b = .ok charB →
    ∀ left, (code (left + 1) a b).run state = .ok (threeWay charA.toInt charB.toInt, state)
  again : ∀ {char : Byte} {a b : Nat}, char ≠ 0 →
    AddressSpace.load8 state a = .ok char → AddressSpace.load8 state b = .ok char →
    ∀ left, (code (left + 1) a b).run state = (code left (a + 1) (b + 1)).run state
  ends : ∀ {a b : Nat},
    AddressSpace.load8 state a = .ok 0 → AddressSpace.load8 state b = .ok 0 →
    (code (more + 1) a b).run state = .ok (0, state)

/-- A comparison of two strings ends where the shorter one does, or before that, and tells
their order. -/
theorem Judges.run {code : Nat → Nat → Nat → Path σ Int} (judges : Judges code state more)
    (held : TextAt state a text) (held' : TextAt state b other) :
    (code (min text.length other.length + more + 1) a b).run state =
      .ok (threeWay (signedText text) (signedText other), state) := by
  induction text generalizing a b other with
  | nil =>
      cases other with
      | nil =>
          rw [threeWay_self, List.length_nil, Nat.min_self, Nat.zero_add]
          exact judges.ends held held'
      | cons char other =>
          obtain ⟨shown, read, -⟩ := held'
          rw [judges.apart (Ne.symm shown) held read, signedText_nil, signedText_cons,
            threeWay_cons_of_ne (BitVec.toInt_ne.mpr (Ne.symm shown))]
  | cons char text ih =>
      obtain ⟨shown, read, rest⟩ := held
      cases other with
      | nil =>
          rw [judges.apart shown read held', signedText_nil, signedText_cons,
            threeWay_cons_of_ne (BitVec.toInt_ne.mpr shown)]
      | cons char' other =>
          obtain ⟨shown', read', rest'⟩ := held'
          rw [signedText_cons, signedText_cons]
          by_cases same : char = char'
          · subst same
            have rounds : min (char :: text).length (char :: other).length + more + 1 =
                min text.length other.length + more + 1 + 1 := by
              simp only [List.length_cons]
              omega
            rw [rounds, judges.again shown read read', ih rest rest', threeWay_cons_self]
          · rw [judges.apart same read read', threeWay_cons_of_ne (BitVec.toInt_ne.mpr same)]

theorem judges_strcmpLoop : Judges (strcmpLoop : Nat → Nat → Nat → Path σ Int) state more where
  apart := by
    intro charA charB a b apart readA readB left
    rw [strcmpLoop, Path.run_bind_of_ok (Path.run_load8_of_ok readA),
      Path.run_bind_of_ok (Path.run_load8_of_ok readB),
      if_neg fun both => BitVec.toInt_ne.mpr apart both.2, threeWay_eq_ite]
    rfl
  again := by
    intro char a b shown readA readB left
    rw [strcmpLoop, Path.run_bind_of_ok (Path.run_load8_of_ok readA),
      Path.run_bind_of_ok (Path.run_load8_of_ok readB), if_pos ⟨toInt_ne_zero shown, rfl⟩]
  ends := by
    intro a b readA readB
    rw [strcmpLoop, Path.run_bind_of_ok (Path.run_load8_of_ok readA),
      Path.run_bind_of_ok (Path.run_load8_of_ok readB)]
    rfl

/-- The size of `memcmp` leaves no round behind the terminators. -/
theorem judges_memcmpLoop : Judges (memcmpLoop : Nat → Nat → Nat → Path σ Int) state 0 where
  apart := by
    intro charA charB a b apart readA readB left
    have differ : charA.toInt ≠ charB.toInt := BitVec.toInt_ne.mpr apart
    rw [memcmpLoop, Path.run_bind_of_ok (Path.run_load8_of_ok readA),
      Path.run_bind_of_ok (Path.run_load8_of_ok readB), if_pos differ]
    rcases lt_or_gt_of_ne differ with less | greater
    · rw [if_neg (not_lt_of_gt less), threeWay_of_lt less]
      rfl
    · rw [if_pos greater, threeWay_of_gt greater]
      rfl
  again := by
    intro char a b shown readA readB left
    rw [memcmpLoop, Path.run_bind_of_ok (Path.run_load8_of_ok readA),
      Path.run_bind_of_ok (Path.run_load8_of_ok readB), if_neg fun differ => differ rfl]
  ends := by
    intro a b readA readB
    rw [memcmpLoop, Path.run_bind_of_ok (Path.run_load8_of_ok readA),
      Path.run_bind_of_ok (Path.run_load8_of_ok readB)]
    rfl

theorem strlenLoop_run {str fuel : Nat} (walk : Walk state fuel str text) :
    (strlenLoop fuel str : Path σ Nat).run state = .ok (str + text.length + 1, state) := by
  induction walk with
  | stop read =>
      rw [strlenLoop, Path.run_bind_of_ok (Path.run_load8_of_ok read)]
      rfl
  | next shown read _ ih =>
      rw [strlenLoop, Path.run_bind_of_ok (Path.run_load8_of_ok read),
        if_pos (toInt_ne_zero shown), ih, List.length_cons, Nat.add_assoc _ 1, Nat.add_comm 1]

/-- `strlen` returns the length. -/
theorem strlen_returns {str : Nat} (string : StringAt state str text) :
    Returns (fun fuel => strlen fuel str) state text.length := by
  obtain ⟨held, present, fits⟩ := string
  refine ⟨text.length, ?_⟩
  intro fuel enough
  change (strlen fuel str : Path σ Nat).run state = _
  have length : (str + text.length + 1 - str - 1) % 2 ^ 32 = text.length := by omega
  rw [strlen, Path.run_bind_of_ok (Path.run_require_of_true present state),
    Path.run_bind_of_ok (strlenLoop_run (held.walk enough)), length]
  rfl

/-- `strcmp` returns the order of the signed characters. -/
theorem strcmp_returns (string : StringAt state a text) (string' : StringAt state b other) :
    Returns (fun fuel => strcmp fuel a b) state
      (threeWay (signedText text) (signedText other)) := by
  refine ⟨min text.length other.length, ?_⟩
  intro fuel enough
  change (strcmp fuel a b : Path σ Int).run state = _
  obtain ⟨more, rfl⟩ := Nat.exists_eq_add_of_lt enough
  rw [strcmp, Path.run_bind_of_ok
    (Path.run_require_of_true ⟨string.present, string'.present⟩ state)]
  exact judges_strcmpLoop.run string.held string'.held

/-- And so does `memcmp` on one byte more than the shorter string has. -/
theorem memcmp_run (string : StringAt state a text) (string' : StringAt state b other) :
    (memcmp a b (min text.length other.length + 1) : Path σ Int).run state =
      .ok (threeWay (signedText text) (signedText other), state) := by
  rw [memcmp, Path.run_bind_of_ok (Path.run_require_of_true (.inl string.present) state)]
  exact judges_memcmpLoop.run string.held string'.held

/-- **The two comparisons agree, and they are a total order.** -/
theorem strcmp_orders (state : σ) (a b c : Nat) (textA textB textC : List Byte)
    (stringA : StringAt state a textA) (stringB : StringAt state b textB)
    (stringC : StringAt state c textC) :
    ∃ lenA lenB ab ba bc ac,
      Returns (fun fuel => strlen fuel a) state lenA ∧
      Returns (fun fuel => strlen fuel b) state lenB ∧
      Returns (fun fuel => strcmp fuel a b) state ab ∧
      Returns (fun fuel => strcmp fuel b a) state ba ∧
      Returns (fun fuel => strcmp fuel b c) state bc ∧
      Returns (fun fuel => strcmp fuel a c) state ac ∧
      min lenA lenB + 1 < 2 ^ 32 ∧
      (memcmp a b (min lenA lenB + 1) : Path σ Int).run state = .ok (ab, state) ∧
      (ab = 0 ↔ textA = textB) ∧ ba = -ab ∧ (ab ≤ 0 → bc ≤ 0 → ac ≤ 0) := by
  refine ⟨_, _, _, _, _, _, strlen_returns stringA, strlen_returns stringB,
    strcmp_returns stringA stringB, strcmp_returns stringB stringA,
    strcmp_returns stringB stringC, strcmp_returns stringA stringC, ?_,
    memcmp_run stringA stringB, ?_, threeWay_swap _ _, ?_⟩
  · have fits := stringA.fits
    have present := stringA.present
    omega
  · rw [threeWay_eq_zero_iff, signedText_inj]
  · intro first second
    exact threeWay_nonpos_iff.mpr
      ((threeWay_nonpos_iff.mp first).trans (threeWay_nonpos_iff.mp second))

end Compare

/-- The byte 200 is a negative character: its string comes before `ab`, which comes before
`aba`. -/
theorem strcmp_orders_threeStrings :
    Returns (fun fuel => strcmp fuel 0x1004 0x1006) threeStrings (-1) ∧
      Returns (fun fuel => strcmp fuel 0x1006 0x1004) threeStrings 1 ∧
      Returns (fun fuel => strcmp fuel 0x1006 0x1000) threeStrings (-1) ∧
      ∃ order, Returns (fun fuel => strcmp fuel 0x1004 0x1000) threeStrings order ∧
        order ≤ 0 := by
  have high : StringAt threeStrings 0x1004 [0xc8] :=
    ⟨⟨by decide, rfl, rfl⟩, by decide, by decide⟩
  have short : StringAt threeStrings 0x1006 [0x61, 0x62] :=
    ⟨⟨by decide, rfl, by decide, rfl, rfl⟩, by decide, by decide⟩
  have long : StringAt threeStrings 0x1000 [0x61, 0x62, 0x61] :=
    ⟨⟨by decide, rfl, by decide, rfl, by decide, rfl, rfl⟩, by decide, by decide⟩
  obtain ⟨lenA, lenB, ab, ba, bc, ac, -, -, first, back, second, both, -, -, -, swap, order⟩ :=
    strcmp_orders threeStrings 0x1004 0x1006 0x1000 _ _ _ high short long
  have less : ab = -1 := first.unique (strcmp_returns high short)
  have less' : bc = -1 := second.unique (strcmp_returns short long)
  subst less less' swap
  exact ⟨first, back, second, ac, both, order (by decide) (by decide)⟩

end OsElephant
