import Mathlib.Logic.Basic

/-!
# Code that may halt

A `Path` is straight-line kernel code: it either ends with a value and a new state
or halts with a reason. A loop whose number of rounds the code does not bound runs
on fuel, or on the answers of its environment, and is `unfinished` when they run
out.
-/

namespace Machine

section Outcome

variable {ε α β : Type}

/-- A sequence that ends normally splits at its first step. -/
theorem bind_eq_ok {first : Except ε α} {rest : α → Except ε β} {result : β}
    (ran : (first >>= rest) = .ok result) :
    ∃ value, first = .ok value ∧ rest value = .ok result := by
  cases first with
  | error reason => cases ran
  | ok value => exact ⟨value, rfl, ran⟩

/-- A sequence that fails does so in its first step or behind it. -/
theorem bind_eq_error {first : Except ε α} {rest : α → Except ε β} {reason : ε}
    (failed : (first >>= rest) = .error reason) :
    first = .error reason ∨ ∃ value, first = .ok value ∧ rest value = .error reason := by
  cases first with
  | error other =>
      cases failed
      exact .inl rfl
  | ok value => exact .inr ⟨value, rfl, failed⟩

theorem map_eq_ok {first : Except ε α} {update : α → β} {result : β}
    (ran : first.map update = .ok result) : ∃ value, first = .ok value ∧ update value = result := by
  cases first with
  | error reason => cases ran
  | ok value => exact ⟨value, rfl, Except.ok.inj ran⟩

end Outcome

/-- Why a path of kernel code did not return. -/
inductive Halt where
  | assertFailed
  | panicked
  | pageFault
  | unfinished
  deriving DecidableEq, Repr

/-- Code that threads a state and may halt. -/
abbrev Path (σ : Type) := StateT σ (Except Halt)

namespace Path

variable {σ α β : Type}

/-- Stop for good. -/
def halt (reason : Halt) : Path σ α := fun _ => .error reason

/-- Go on only when the condition holds. -/
def require (condition : Prop) [Decidable condition] (reason : Halt) :
    Path σ Unit :=
  if condition then pure () else halt reason

theorem run_pure (value : α) (state : σ) :
    (pure value : Path σ α).run state = .ok (value, state) := rfl

theorem run_get (state : σ) : (get : Path σ σ).run state = .ok (state, state) := rfl

theorem run_modify (update : σ → σ) (state : σ) :
    (modify update : Path σ Unit).run state = .ok ((), update state) := rfl

theorem run_bind_of_ok {first : Path σ α} {rest : α → Path σ β} {state middle : σ} {value : α}
    (ran : first.run state = .ok (value, middle)) :
    (first >>= rest).run state = (rest value).run middle := by
  rw [StateT.run_bind, ran]
  rfl

theorem run_bind_of_error {first : Path σ α} {rest : α → Path σ β} {state : σ} {reason : Halt}
    (stopped : first.run state = .error reason) :
    (first >>= rest).run state = .error reason := by
  rw [StateT.run_bind, stopped]
  rfl

theorem run_bind_eq_ok {first : Path σ α} {rest : α → Path σ β} {state : σ} {result : β × σ}
    (ran : (first >>= rest).run state = .ok result) :
    ∃ value middle, first.run state = .ok (value, middle) ∧
      (rest value).run middle = .ok result := by
  rw [StateT.run_bind] at ran
  obtain ⟨⟨value, middle⟩, reached, rest⟩ := bind_eq_ok ran
  exact ⟨value, middle, reached, rest⟩

theorem run_require_of_true {condition : Prop} [Decidable condition] {reason : Halt}
    (holds : condition) (state : σ) :
    (require condition reason).run state = .ok ((), state) := by
  simp only [require, holds, ↓reduceIte]
  rfl

theorem run_require_of_false {condition : Prop} [Decidable condition] {reason : Halt}
    (fails : ¬ condition) (state : σ) :
    (require condition reason).run state = .error reason := by
  simp only [require, fails, ↓reduceIte]
  rfl

end Path

end Machine
