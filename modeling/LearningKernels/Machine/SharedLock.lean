import Mathlib.Algebra.Order.Ring.Int
import Mathlib.Data.Multiset.AddSub
import Mathlib.Data.Multiset.Count
import Mathlib.Logic.Function.Basic

/-!
# Locks that are shared or exclusive

A lock is held by any number of threads that share it or by one thread alone. A table of
locks is balanced with what its threads claim when every thread holds every lock as often,
and in the mode, as it claims to (`Machine.Matched`). Each lock operation keeps the balance
with the claims that change accordingly, and what is claimed exclusively is claimed once.
-/

namespace Machine

/-- How a lock is held. -/
inductive LockMode where
  | shared
  | exclusive
  deriving DecidableEq, Repr

/-- The holders of a lock: threads that share it, or one thread alone. -/
inductive Lock (τ : Type) where
  | shared (holders : Multiset τ)
  | exclusive (holder : τ)

namespace Lock

variable {τ : Type}

/-- A lock that nobody holds. -/
def free : Lock τ := .shared 0

variable [DecidableEq τ]

/-- How often a thread holds the lock in a mode. -/
def holds : Lock τ → τ → LockMode → Nat
  | .shared holders, thread, .shared => holders.count thread
  | .exclusive holder, thread, .exclusive => if thread = holder then 1 else 0
  | _, _, _ => 0

/-- Take the lock in a mode; there is no result where the thread has to wait. -/
def acquire (thread : τ) : LockMode → Lock τ → Option (Lock τ)
  | .shared, .shared holders => some (.shared (thread ::ₘ holders))
  | .exclusive, .shared holders => if holders = 0 then some (.exclusive thread) else none
  | _, .exclusive _ => none

/-- Give the lock up once; there is no result for a thread that does not hold it. -/
def release (thread : τ) : Lock τ → Option (Lock τ)
  | .shared holders => if thread ∈ holders then some (.shared (holders.erase thread)) else none
  | .exclusive holder => if thread = holder then some free else none

/-- Make the lock exclusive, for a thread that shares it with nobody. -/
def upgrade (thread : τ) : Lock τ → Option (Lock τ)
  | .shared holders => if holders = {thread} then some (.exclusive thread) else none
  | .exclusive _ => none

/-- Share the lock that the thread holds alone. -/
def downgrade (thread : τ) : Lock τ → Option (Lock τ)
  | .shared _ => none
  | .exclusive holder => if thread = holder then some (.shared {thread}) else none

variable {lock next : Lock τ} {thread other : τ} {mode : LockMode}

theorem eq_of_holds_exclusive {holder : τ}
    (held : 0 < (exclusive holder : Lock τ).holds thread .exclusive) : thread = holder := by
  by_contra different
  rw [holds, if_neg different] at held
  exact Nat.lt_irrefl 0 held

theorem holds_acquire (granted : lock.acquire thread mode = some next) (other : τ)
    (query : LockMode) :
    next.holds other query =
      lock.holds other query + if other = thread ∧ query = mode then 1 else 0 := by
  cases lock with
  | exclusive holder => cases mode <;> cases granted
  | shared holders =>
      cases mode with
      | shared =>
          cases granted
          cases query <;> simp [holds, Multiset.count_cons]
      | exclusive =>
          simp only [acquire] at granted
          split at granted
          next empty =>
            cases granted
            cases query <;> simp [holds, empty]
          next => cases granted

/-- A thread that holds the lock can give it up, and gives up the mode it holds. -/
theorem release_of_holds (held : 0 < lock.holds thread mode) :
    ∃ next, lock.release thread = some next ∧ ∀ other query,
      lock.holds other query =
        next.holds other query + if other = thread ∧ query = mode then 1 else 0 := by
  cases lock with
  | shared holders =>
      cases mode with
      | exclusive => exact absurd held (Nat.lt_irrefl 0)
      | shared =>
          have member : thread ∈ holders := Multiset.count_pos.mp held
          refine ⟨_, if_pos member, ?_⟩
          intro other query
          cases query with
          | exclusive => simp [holds]
          | shared =>
              change holders.count other = (holders.erase thread).count other + _
              nth_rewrite 1 [← Multiset.cons_erase member]
              rw [Multiset.count_cons]
              simp
  | exclusive holder =>
      cases mode with
      | shared => exact absurd held (Nat.lt_irrefl 0)
      | exclusive =>
          obtain rfl := eq_of_holds_exclusive held
          refine ⟨free, if_pos rfl, ?_⟩
          intro other query
          cases query <;> simp [holds, free]

theorem holds_upgrade (granted : lock.upgrade thread = some next) (other : τ)
    (query : LockMode) :
    next.holds other query + (if other = thread ∧ query = .shared then 1 else 0) =
      lock.holds other query + if other = thread ∧ query = .exclusive then 1 else 0 := by
  cases lock with
  | exclusive holder => cases granted
  | shared holders =>
      simp only [upgrade] at granted
      split at granted
      next alone =>
        cases granted
        cases query <;> simp [holds, alone, Multiset.count_singleton]
      next => cases granted

/-- The only holder can share its lock. -/
theorem downgrade_of_holds (held : 0 < lock.holds thread .exclusive) :
    ∃ next, lock.downgrade thread = some next ∧ ∀ other query,
      next.holds other query + (if other = thread ∧ query = .exclusive then 1 else 0) =
        lock.holds other query + if other = thread ∧ query = .shared then 1 else 0 := by
  cases lock with
  | shared holders => exact absurd held (Nat.lt_irrefl 0)
  | exclusive holder =>
      obtain rfl := eq_of_holds_exclusive held
      refine ⟨_, if_pos rfl, ?_⟩
      intro other query
      cases query <;> simp [holds, Multiset.count_singleton]

/-- Who holds the lock alone is its only holder, and holds it once. -/
theorem holds_alone (alone : 0 < lock.holds thread .exclusive)
    (held : 0 < lock.holds other mode) :
    other = thread ∧ mode = .exclusive ∧ lock.holds thread .exclusive = 1 := by
  cases lock with
  | shared holders => exact absurd alone (Nat.lt_irrefl 0)
  | exclusive holder =>
      obtain rfl := eq_of_holds_exclusive alone
      cases mode with
      | shared => exact absurd held (Nat.lt_irrefl 0)
      | exclusive => exact ⟨eq_of_holds_exclusive held, rfl, if_pos rfl⟩

end Lock

section Balance

variable {τ ι : Type} [DecidableEq τ] [DecidableEq ι]

/-- Every thread holds every lock as often, and in the mode, as it claims to. -/
def Matched (locks : ι → Lock τ) (claims : τ → Multiset (ι × LockMode)) : Prop :=
  ∀ index thread mode, (locks index).holds thread mode = (claims thread).count (index, mode)

namespace Matched

variable {locks : ι → Lock τ} {claims after : τ → Multiset (ι × LockMode)} {index : ι}
  {thread : τ} {mode : LockMode} {rest : Multiset (ι × LockMode)}

theorem congr (balanced : Matched locks claims) (same : ∀ other, after other = claims other) :
    Matched locks after := by
  intro query other wanted
  rw [same, balanced]

/-- An operation on one lock by one thread keeps the balance when the two counts change
alike. -/
theorem update (balanced : Matched locks claims) {next : Lock τ}
    (others : ∀ other, other ≠ thread → after other = claims other)
    (elsewhere : ∀ query mode, query ≠ index →
      (after thread).count (query, mode) = (claims thread).count (query, mode))
    (there : ∀ mode, next.holds thread mode = (after thread).count (index, mode))
    (kept : ∀ other mode, other ≠ thread →
      next.holds other mode = (locks index).holds other mode) :
    Matched (Function.update locks index next) after := by
  intro query other wanted
  by_cases here : query = index
  · subst here
    rw [Function.update_self]
    by_cases mine : other = thread
    · subst mine
      exact there wanted
    · rw [kept other wanted mine, others other mine, balanced]
  · rw [Function.update_of_ne here]
    by_cases mine : other = thread
    · subst mine
      rw [elsewhere query wanted here, balanced]
    · rw [others other mine, balanced]

theorem acquire (balanced : Matched locks claims) {next : Lock τ}
    (granted : (locks index).acquire thread mode = some next)
    (mine : after thread = (index, mode) ::ₘ claims thread)
    (others : ∀ other, other ≠ thread → after other = claims other) :
    Matched (Function.update locks index next) after := by
  refine balanced.update others ?_ ?_ ?_
  · intro query wanted away
    rw [mine, Multiset.count_cons_of_ne]
    intro same
    exact away (congrArg Prod.fst same)
  · intro wanted
    rw [Lock.holds_acquire granted, balanced, mine, Multiset.count_cons]
    simp
  · intro other wanted different
    rw [Lock.holds_acquire granted]
    simp [different]

theorem holds_of_mem (balanced : Matched locks claims)
    (claimed : (index, mode) ∈ claims thread) : 0 < (locks index).holds thread mode := by
  rw [balanced]
  exact Multiset.count_pos.mpr claimed

theorem release (balanced : Matched locks claims) {next : Lock τ}
    (released : (locks index).release thread = some next)
    (mine : claims thread = (index, mode) ::ₘ after thread)
    (others : ∀ other, other ≠ thread → after other = claims other) :
    Matched (Function.update locks index next) after := by
  obtain ⟨given, same, counted⟩ := Lock.release_of_holds
    (balanced.holds_of_mem (mine ▸ Multiset.mem_cons_self (index, mode) _))
  obtain rfl : next = given := Option.some.inj (released.symm.trans same)
  refine balanced.update others ?_ ?_ ?_
  · intro query wanted away
    rw [mine, Multiset.count_cons_of_ne]
    intro same
    exact away (congrArg Prod.fst same)
  · intro wanted
    have whole := counted thread wanted
    rw [balanced, mine, Multiset.count_cons] at whole
    simp only [true_and, Prod.mk.injEq] at whole
    omega
  · intro other wanted different
    have whole := counted other wanted
    simp only [different, false_and, ↓reduceIte, Nat.add_zero] at whole
    exact whole.symm

theorem upgrade (balanced : Matched locks claims) {next : Lock τ}
    (granted : (locks index).upgrade thread = some next)
    (before : claims thread = (index, .shared) ::ₘ rest)
    (mine : after thread = (index, .exclusive) ::ₘ rest)
    (others : ∀ other, other ≠ thread → after other = claims other) :
    Matched (Function.update locks index next) after := by
  refine balanced.update others ?_ ?_ ?_
  · intro query wanted away
    rw [mine, before, Multiset.count_cons_of_ne, Multiset.count_cons_of_ne]
    · intro same
      exact away (congrArg Prod.fst same)
    · intro same
      exact away (congrArg Prod.fst same)
  · intro wanted
    have counted := Lock.holds_upgrade granted thread wanted
    rw [balanced, before, Multiset.count_cons] at counted
    rw [mine, Multiset.count_cons]
    simp only [true_and, Prod.mk.injEq] at counted ⊢
    omega
  · intro other wanted different
    have counted := Lock.holds_upgrade granted other wanted
    simpa [different] using counted

theorem downgrade (balanced : Matched locks claims) {next : Lock τ}
    (granted : (locks index).downgrade thread = some next)
    (before : claims thread = (index, .exclusive) ::ₘ rest)
    (mine : after thread = (index, .shared) ::ₘ rest)
    (others : ∀ other, other ≠ thread → after other = claims other) :
    Matched (Function.update locks index next) after := by
  obtain ⟨given, same, counted⟩ := Lock.downgrade_of_holds
    (balanced.holds_of_mem (before ▸ Multiset.mem_cons_self (index, _) _))
  obtain rfl : next = given := Option.some.inj (granted.symm.trans same)
  refine balanced.update others ?_ ?_ ?_
  · intro query wanted away
    rw [mine, before, Multiset.count_cons_of_ne, Multiset.count_cons_of_ne]
    · intro same
      exact away (congrArg Prod.fst same)
    · intro same
      exact away (congrArg Prod.fst same)
  · intro wanted
    have whole := counted thread wanted
    rw [balanced, before, Multiset.count_cons] at whole
    rw [mine, Multiset.count_cons]
    simp only [true_and, Prod.mk.injEq] at whole ⊢
    omega
  · intro other wanted different
    have whole := counted other wanted
    simpa [different] using whole

/-- What is claimed exclusively is claimed by one thread, and once. -/
theorem alone (balanced : Matched locks claims) {other : τ}
    (claimed : (index, .exclusive) ∈ claims thread) (held : (index, mode) ∈ claims other) :
    other = thread ∧ mode = .exclusive ∧ (claims thread).count (index, .exclusive) = 1 := by
  rw [← balanced]
  exact Lock.holds_alone (balanced.holds_of_mem claimed) (balanced.holds_of_mem held)

end Matched

end Balance

end Machine
