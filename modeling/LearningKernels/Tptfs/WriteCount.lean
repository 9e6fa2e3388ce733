import Mathlib.Algebra.BigOperators.Group.Finset.Piecewise
import Mathlib.Algebra.BigOperators.Ring.Finset
import LearningKernels.Tptfs.Alias

/-!
# Write counts leased to the lower vnode

`tpt_add_writecount` and what `tpt_reclaim` does with the write count, for any number of
aliases over one lower vnode. An alias that is opened for writing leases its write count to
the lower vnode, and a forced reclamation hands the lease back. Over any run, the lower
count is what was put there directly and what the remaining aliases hold
(`Tptfs.Leases.run_conserves`).
-/

namespace Tptfs

/-- The `v_writecount` of the lower vnode and of the vnodes above it, and the aliases that
are not reclaimed, whatever mounts they belong to. -/
structure Leases where
  lowerWritecount : Int
  vWritecount : VnodeId → Int
  aliases : Finset VnodeId

/-- What can happen to the counts. An error number is the answer of the lower file system; a
direct change is one that does not come through an alias. -/
inductive LeaseEvent where
  | nodeget (vp : VnodeId)
  | addWritecount (vp : VnodeId) (inc : Int) (answer : Nat)
  | direct (inc : Int) (answer : Nat)
  | reclaim (vp : VnodeId)
  deriving DecidableEq, Repr

namespace Leases

/-- `VOP_ADD_WRITECOUNT` on the lower vnode, with the error number it returns. -/
def vopAddWritecount (leases : Leases) (inc : Int) (answer : Nat) : Nat × Leases :=
  if answer = 0 then
    (0, { leases with lowerWritecount := leases.lowerWritecount + inc })
  else
    (answer, leases)

/-- `tpt_add_writecount` on an alias. It fails where a `VNASSERT` does, and on a vnode that
has no lower one. -/
def tptAddWritecount (leases : Leases) (vp : VnodeId) (inc : Int) (answer : Nat) :
    Option (Nat × Leases) :=
  if vp ∈ leases.aliases ∧ 0 ≤ leases.vWritecount vp ∧ 0 ≤ leases.vWritecount vp + inc then
    let (error, leases) := leases.vopAddWritecount inc answer
    if error = 0 then
      some (error, { leases with vWritecount := addAt leases.vWritecount vp inc })
    else
      some (error, leases)
  else
    none

/-- `tpt_reclaim`, whose lower call succeeds and has its answer ignored. -/
def tptReclaim (leases : Leases) (vp : VnodeId) : Option Leases :=
  if vp ∈ leases.aliases then
    let leases := { leases with aliases := leases.aliases.erase vp }
    if 0 < leases.vWritecount vp then
      some (leases.vopAddWritecount (-leases.vWritecount vp) 0).2
    else if leases.vWritecount vp < 0 then
      some { leases with vWritecount := Function.update leases.vWritecount vp 0 }
    else
      some leases
  else
    none

/-- One event. A new alias has the write count zero of a new vnode. -/
def step (leases : Leases) : LeaseEvent → Option Leases
  | .nodeget vp =>
      if vp ∈ leases.aliases then none
      else some { leases with
        vWritecount := Function.update leases.vWritecount vp 0
        aliases := insert vp leases.aliases }
  | .addWritecount vp inc answer => (leases.tptAddWritecount vp inc answer).map Prod.snd
  | .direct inc answer => some (leases.vopAddWritecount inc answer).2
  | .reclaim vp => leases.tptReclaim vp

/-- A sequence of events. -/
def run : Leases → List LeaseEvent → Option Leases
  | leases, [] => some leases
  | leases, event :: rest => do
      let next ← leases.step event
      next.run rest

/-- Aliases that nobody has opened for writing. -/
def initial (lowerWritecount : Int) (aliases : Finset VnodeId) : Leases :=
  ⟨lowerWritecount, fun _ => 0, aliases⟩

end Leases

/-- What an event contributes to the lower count directly. -/
def LeaseEvent.contribution : LeaseEvent → Int
  | .nodeget _ => 0
  | .addWritecount _ _ _ => 0
  | .direct inc answer => if answer = 0 then inc else 0
  | .reclaim _ => 0

namespace Leases

variable {leases next : Leases} {vp : VnodeId} {inc : Int} {answer : Nat}

/-- What the aliases hold together. -/
def leased (leases : Leases) : Int := ∑ vp ∈ leases.aliases, leases.vWritecount vp

/-- The invariant: no alias holds a negative count, and the lower vnode has `direct` beside
what they hold. -/
structure Sound (direct : Int) (leases : Leases) : Prop where
  nonneg : ∀ vp ∈ leases.aliases, 0 ≤ leases.vWritecount vp
  conserved : leases.lowerWritecount = direct + leases.leased

theorem initial_sound (lowerWritecount : Int) (aliases : Finset VnodeId) :
    Sound lowerWritecount (initial lowerWritecount aliases) where
  nonneg _ _ := Int.le_refl 0
  conserved := by
    have nothing : (initial lowerWritecount aliases).leased = 0 := Finset.sum_const_zero
    rw [nothing, Int.add_zero]
    rfl

variable {direct : Int}

/-- The lease of one alias grows, or shrinks. -/
theorem leased_addAt (member : vp ∈ leases.aliases) (lowerWritecount inc : Int) :
    leased ⟨lowerWritecount, addAt leases.vWritecount vp inc, leases.aliases⟩ =
      leases.leased + inc := by
  have others := Finset.add_sum_erase leases.aliases leases.vWritecount member
  simp only [leased, addAt]
  rw [Finset.sum_update_of_mem member, Finset.sdiff_singleton_eq_erase]
  omega

/-- Both counts move together, or neither does. -/
theorem Sound.added (sound : leases.Sound direct) {error : Nat}
    (added : leases.tptAddWritecount vp inc answer = some (error, next)) :
    next.Sound direct := by
  rw [tptAddWritecount] at added
  split at added
  · next accepted =>
    obtain ⟨member, -, enough⟩ := accepted
    by_cases accepts : answer = 0
    · simp only [vopAddWritecount, accepts, ↓reduceIte] at added
      cases added
      refine ⟨?_, ?_⟩
      · intro other live
        by_cases same : other = vp
        · subst same
          simpa only [addAt, Function.update_self] using enough
        · simpa only [addAt, Function.update_of_ne same] using sound.nonneg other live
      · have before := sound.conserved
        rw [leased_addAt member]
        simp only
        omega
    · simp only [vopAddWritecount, accepts, ↓reduceIte] at added
      cases added
      exact sound
  · cases added

/-- A reclaimed alias hands its lease back, which is not negative. -/
theorem Sound.reclaimed (sound : leases.Sound direct)
    (reclaimed : leases.tptReclaim vp = some next) : next.Sound direct := by
  rw [tptReclaim] at reclaimed
  split at reclaimed
  · next member =>
    have others := Finset.add_sum_erase leases.aliases leases.vWritecount member
    have before := sound.conserved
    have remaining : ∀ other ∈ leases.aliases.erase vp, 0 ≤ leases.vWritecount other :=
      fun other live => sound.nonneg other (Finset.mem_of_mem_erase live)
    have held := sound.nonneg vp member
    rw [leased] at before
    by_cases positive : 0 < leases.vWritecount vp
    · simp only [positive, ↓reduceIte, vopAddWritecount] at reclaimed
      cases reclaimed
      refine ⟨remaining, ?_⟩
      simp only [leased]
      omega
    · have none : ¬ leases.vWritecount vp < 0 := by omega
      simp only [positive, none, ↓reduceIte] at reclaimed
      cases reclaimed
      refine ⟨remaining, ?_⟩
      simp only [leased]
      omega
  · cases reclaimed

/-- A new alias holds nothing. -/
theorem Sound.created (sound : leases.Sound direct) (fresh : vp ∉ leases.aliases) :
    Sound direct ⟨leases.lowerWritecount, Function.update leases.vWritecount vp 0,
      insert vp leases.aliases⟩ := by
  refine ⟨?_, ?_⟩
  · intro other live
    by_cases same : other = vp
    · subst same
      simp only [Function.update_self, Int.le_refl]
    · simp only [Function.update_of_ne same]
      exact sound.nonneg other (Finset.mem_of_mem_insert_of_ne live same)
  · simp only [leased]
    rw [Finset.sum_insert fresh, Function.update_self, Int.zero_add,
      Finset.sum_update_of_notMem fresh]
    exact sound.conserved

/-- The lower count changes beside the aliases. -/
theorem Sound.changed (sound : leases.Sound direct) :
    Sound (direct + if answer = 0 then inc else 0) (leases.vopAddWritecount inc answer).2 := by
  have before := sound.conserved
  rw [vopAddWritecount]
  split
  · refine ⟨sound.nonneg, ?_⟩
    simp only [leased] at before ⊢
    omega
  · rw [Int.add_zero]
    exact sound

/-- One event keeps the invariant, with what it contributes directly. -/
theorem Sound.step (sound : leases.Sound direct) {event : LeaseEvent}
    (stepped : leases.step event = some next) : next.Sound (direct + event.contribution) := by
  cases event with
  | nodeget vp =>
      rw [LeaseEvent.contribution, Int.add_zero]
      rw [Leases.step] at stepped
      by_cases known : vp ∈ leases.aliases
      · rw [if_pos known] at stepped
        cases stepped
      · rw [if_neg known] at stepped
        cases stepped
        exact sound.created known
  | addWritecount vp inc answer =>
      rw [LeaseEvent.contribution, Int.add_zero]
      obtain ⟨⟨error, after⟩, added, rfl⟩ := Option.map_eq_some_iff.mp stepped
      exact sound.added added
  | direct inc answer =>
      cases stepped
      exact sound.changed
  | reclaim vp =>
      rw [LeaseEvent.contribution, Int.add_zero]
      exact sound.reclaimed stepped

/-- **Any sequence of events** keeps the invariant. -/
theorem Sound.run (sound : leases.Sound direct) {events : List LeaseEvent}
    (ran : leases.run events = some next) :
    next.Sound (direct + (events.map LeaseEvent.contribution).sum) := by
  induction events generalizing leases direct with
  | nil =>
      cases ran
      rw [List.map_nil, List.sum_nil, Int.add_zero]
      exact sound
  | cons event rest ih =>
      obtain ⟨middle, stepped, later⟩ := Option.bind_eq_some_iff.mp ran
      rw [List.map_cons, List.sum_cons, ← Int.add_assoc]
      exact ih (sound.step stepped) later

/-- In every state that a run reaches, the lower write count is what it was at the start, the
changes made directly and the counts of the aliases that are not reclaimed. -/
theorem run_conserves (lowerWritecount : Int) (aliases : Finset VnodeId)
    (events : List LeaseEvent) (ran : (initial lowerWritecount aliases).run events = some leases) :
    leases.lowerWritecount =
      lowerWritecount + (events.map LeaseEvent.contribution).sum +
        ∑ vp ∈ leases.aliases, leases.vWritecount vp :=
  ((initial_sound lowerWritecount aliases).run ran).conserved

/-- Two aliases over a vnode that somebody writes directly: one is opened three times and
closed once, an open of the other is refused, a third alias comes, and the first one is
reclaimed with what it still holds. -/
def forcedUnmount : List LeaseEvent :=
  [.addWritecount 1 1 0, .addWritecount 1 2 0, .direct 1 0, .addWritecount 2 1 26,
   .addWritecount 1 (-1) 0, .nodeget 3, .addWritecount 3 4 0, .direct (-2) 26, .reclaim 1]

theorem run_conserves_forcedUnmount :
    ∃ leases, (initial 1 {1, 2}).run forcedUnmount = some leases ∧
      leases.lowerWritecount = 6 ∧
      leases.lowerWritecount =
        1 + (forcedUnmount.map LeaseEvent.contribution).sum +
          ∑ vp ∈ leases.aliases, leases.vWritecount vp := by
  have goesThrough :
      ((initial 1 {1, 2}).run forcedUnmount).map lowerWritecount = some 6 := by decide
  obtain ⟨leases, ran, counted⟩ := Option.map_eq_some_iff.mp goesThrough
  exact ⟨leases, ran, counted, run_conserves 1 {1, 2} forcedUnmount ran⟩

end Leases

end Tptfs
