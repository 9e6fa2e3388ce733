import Mathlib.Data.List.Lex
import Mathlib.Order.Bounds.Basic
import Mathlib.Order.Compare
import LearningKernels.Machine.AddressSpace

/-!
# Terminated texts

A text in memory ends with a zero byte. Code that walks along it (`Machine.Walk`) is given
fuel, and it returns a value when all fuel from some amount on leads to that value. What a
search in a text can find are the addresses of some of its bytes (`Machine.places`). The order
of two values is told by a number, which is -1, 0 or 1.
-/

namespace Machine

section Returns

variable {σ α : Type} {code : Nat → Path σ α} {state : σ} {value other : α}

/-- With fuel enough, the code returns the value and leaves the state alone. -/
def Returns (code : Nat → Path σ α) (state : σ) (value : α) : Prop :=
  ∃ rounds, ∀ fuel, rounds < fuel → (code fuel).run state = .ok (value, state)

theorem Returns.unique (first : Returns code state value) (second : Returns code state other) :
    value = other := by
  obtain ⟨rounds, ran⟩ := first
  obtain ⟨rounds', ran'⟩ := second
  have both := (ran (rounds + rounds' + 1) (by omega)).symm.trans
    (ran' (rounds + rounds' + 1) (by omega))
  exact congrArg Prod.fst (Except.ok.inj both)

end Returns

/-- The bytes of a text stand at an address, with a zero behind them. -/
def TextAt {σ : Type} [AddressSpace σ] (state : σ) : (str : Nat) → (text : List Byte) → Prop
  | str, [] => AddressSpace.load8 state str = .ok 0
  | str, char :: text =>
      char ≠ 0 ∧ AddressSpace.load8 state str = .ok char ∧ TextAt state (str + 1) text

/-- A walk along a text to its end, with the fuel of each step. -/
inductive Walk {σ : Type} [AddressSpace σ] (state : σ) :
    (fuel str : Nat) → (text : List Byte) → Prop
  | stop {fuel str : Nat} (read : AddressSpace.load8 state str = .ok 0) :
      Walk state (fuel + 1) str []
  | next {fuel str : Nat} {char : Byte} {text : List Byte} (shown : char ≠ 0)
      (read : AddressSpace.load8 state str = .ok char) (rest : Walk state fuel (str + 1) text) :
      Walk state (fuel + 1) str (char :: text)

theorem TextAt.walk {σ : Type} [AddressSpace σ] {state : σ} {str fuel : Nat} {text : List Byte}
    (held : TextAt state str text) (enough : text.length < fuel) : Walk state fuel str text := by
  induction fuel generalizing str text with
  | zero => exact absurd enough (Nat.not_lt_zero _)
  | succ fuel ih =>
      cases text with
      | nil => exact .stop held
      | cons char text =>
          obtain ⟨shown, read, rest⟩ := held
          exact .next shown read (ih rest (Nat.lt_of_succ_lt_succ enough))

/-- The addresses of the bytes of a text that meet a condition, in order. -/
def places (hit : Byte → Bool) : (str : Nat) → (text : List Byte) → List Nat
  | _, [] => []
  | str, char :: text =>
      if hit char then str :: places hit (str + 1) text else places hit (str + 1) text

section Places

variable {hit : Byte → Bool} {str : Nat} {text : List Byte}

theorem length_places : (places hit str text).length = text.countP hit := by
  induction text generalizing str with
  | nil => rfl
  | cons char text ih =>
      rw [places, List.countP_cons]
      split
      · rw [List.length_cons, ih]
      · rw [ih, Nat.add_zero]

theorem mem_places {addr : Nat} :
    addr ∈ places hit str text ↔
      ∃ index char, text[index]? = some char ∧ hit char = true ∧ addr = str + index := by
  induction text generalizing str with
  | nil => simp only [places, List.not_mem_nil, List.getElem?_nil, reduceCtorEq, false_and,
      exists_false]
  | cons char text ih =>
      -- a place is the first one, or one of the rest moved by one
      have split : (∃ index other, (char :: text)[index]? = some other ∧ hit other = true ∧
          addr = str + index) ↔
          (hit char = true ∧ addr = str) ∨
            ∃ index other, text[index]? = some other ∧ hit other = true ∧
              addr = str + 1 + index := by
        refine ⟨?_, ?_⟩
        · rintro ⟨index, other, found, met, rfl⟩
          cases index with
          | zero =>
              cases found
              exact .inl ⟨met, rfl⟩
          | succ index => exact .inr ⟨index, other, found, met, by omega⟩
        · rintro (⟨met, rfl⟩ | ⟨index, other, found, met, rfl⟩)
          · exact ⟨0, char, rfl, met, rfl⟩
          · exact ⟨index + 1, other, found, met, by omega⟩
      rw [split, places, ← ih]
      by_cases met : hit char = true
      · simp only [met, ↓reduceIte, List.mem_cons, true_and]
      · simp only [met, Bool.false_eq_true, ↓reduceIte, false_and, false_or]

theorem places_sorted : (places hit str text).Pairwise (· < ·) := by
  induction text generalizing str with
  | nil => exact List.Pairwise.nil
  | cons char text ih =>
      rw [places]
      split
      · refine List.pairwise_cons.mpr ⟨?_, ih⟩
        intro addr member
        obtain ⟨index, other, -, -, rfl⟩ := mem_places.mp member
        omega
      · exact ih

/-- The first of the places is the least one. -/
theorem isLeast_head {addr : Nat} (head : (places hit str text).head? = some addr) :
    IsLeast {place | place ∈ places hit str text} addr := by
  obtain ⟨rest, shape⟩ := List.head?_eq_some_iff.mp head
  have sorted := @places_sorted hit str text
  rw [shape] at sorted ⊢
  refine ⟨List.mem_cons_self, ?_⟩
  intro place member
  obtain rfl | later := List.mem_cons.mp member
  · exact Nat.le_refl _
  · exact Nat.le_of_lt ((List.pairwise_cons.mp sorted).1 place later)

/-- The last of the places is the greatest one. -/
theorem isGreatest_getLast {addr : Nat} (last : (places hit str text).getLast? = some addr) :
    IsGreatest {place | place ∈ places hit str text} addr := by
  obtain ⟨front, shape⟩ := List.getLast?_eq_some_iff.mp last
  have sorted := @places_sorted hit str text
  rw [shape] at sorted ⊢
  refine ⟨List.mem_append_right front (List.mem_singleton_self addr), ?_⟩
  intro place member
  obtain earlier | here := List.mem_append.mp member
  · exact Nat.le_of_lt
      ((List.pairwise_append.mp sorted).2.2 place earlier addr (List.mem_singleton_self addr))
  · exact Nat.le_of_eq (List.mem_singleton.mp here)

end Places

section Order

variable {α : Type} [LinearOrder α]

/-- The order of two values as a number. -/
def threeWay (first second : α) : Int :=
  match cmp first second with
  | .lt => -1
  | .eq => 0
  | .gt => 1

theorem threeWay_of_lt {first second : α} (less : first < second) :
    threeWay first second = -1 := by
  rw [threeWay, (cmp_eq_lt_iff _ _).mpr less]

theorem threeWay_self (value : α) : threeWay value value = 0 := by
  rw [threeWay, cmp_self_eq_eq]

theorem threeWay_of_gt {first second : α} (greater : second < first) :
    threeWay first second = 1 := by
  rw [threeWay, (cmp_eq_gt_iff _ _).mpr greater]

theorem threeWay_eq_ite (first second : α) :
    threeWay first second = if first < second then -1 else if second < first then 1 else 0 := by
  rcases lt_trichotomy first second with less | rfl | greater
  · rw [threeWay_of_lt less, if_pos less]
  · rw [threeWay_self, if_neg (lt_irrefl _), if_neg (lt_irrefl _)]
  · rw [threeWay_of_gt greater, if_neg (lt_asymm greater), if_pos greater]

theorem threeWay_swap (first second : α) : threeWay second first = -threeWay first second := by
  rcases lt_trichotomy first second with less | rfl | greater
  · rw [threeWay_of_lt less, threeWay_of_gt less, Int.neg_neg]
  · rw [threeWay_self, Int.neg_zero]
  · rw [threeWay_of_lt greater, threeWay_of_gt greater]

theorem threeWay_eq_zero_iff {first second : α} : threeWay first second = 0 ↔ first = second := by
  rcases lt_trichotomy first second with less | rfl | greater
  · rw [threeWay_of_lt less]
    exact iff_of_false (by decide) less.ne
  · exact iff_of_true (threeWay_self first) rfl
  · rw [threeWay_of_gt greater]
    exact iff_of_false (by decide) greater.ne'

theorem threeWay_nonpos_iff {first second : α} : threeWay first second ≤ 0 ↔ first ≤ second := by
  rcases lt_trichotomy first second with less | rfl | greater
  · rw [threeWay_of_lt less]
    exact iff_of_true (by decide) less.le
  · rw [threeWay_self]
    exact iff_of_true (by decide) le_rfl
  · rw [threeWay_of_gt greater]
    exact iff_of_false (by decide) greater.not_ge

/-- Two lists are compared at their heads first. -/
theorem threeWay_cons_of_ne {first second : α} (apart : first ≠ second) (rest other : List α) :
    threeWay (first :: rest) (second :: other) = threeWay first second := by
  rcases lt_or_gt_of_ne apart with less | greater
  · rw [threeWay_of_lt less]
    exact threeWay_of_lt (List.cons_lt_cons_iff.mpr (.inl less))
  · rw [threeWay_of_gt greater]
    exact threeWay_of_gt (List.cons_lt_cons_iff.mpr (.inl greater))

theorem threeWay_cons_self (value : α) (rest other : List α) :
    threeWay (value :: rest) (value :: other) = threeWay rest other := by
  have head : ∀ {rest other : List α}, rest < other → value :: rest < value :: other :=
    fun less => List.cons_lt_cons_iff.mpr (.inr ⟨rfl, less⟩)
  rcases lt_trichotomy rest other with less | rfl | greater
  · rw [threeWay_of_lt less, threeWay_of_lt (head less)]
  · rw [threeWay_self, threeWay_self]
  · rw [threeWay_of_gt greater, threeWay_of_gt (head greater)]

end Order

end Machine
