import LearningKernels.Tptfs.VnodeLockFrame

/-!
# Calls that cannot go on

The only thing that stops a thread inside a call is a lock that it sleeps for. It does not
panic, has every lock that it gives up, finds its node in the hash, and the own lock of an
alias is free when `tpt_reclaim` takes it.
-/

namespace Tptfs

open Machine

namespace VnodeLocks

variable {τ : Type} [DecidableEq τ] {isTptfs : VnodeId → Bool} {locks after : VnodeLocks τ}
  {thread other : τ} {answer : LockAnswer} {xp : TptNode}

section Progress

/-- The lock that a thread sleeps for. -/
def waits (locks : VnodeLocks τ) : LockStage → Option (VnodeId × LockMode)
  | .lowerWait ask lvp => some (locks.vVnlock lvp, ask.request.mode)
  | .stdWait ask lock _ => some (lock, ask.request.mode)
  | .upgradeWait _ lowervp => some (locks.vVnlock lowervp, .exclusive)
  | .passedOut _ _ lvp mode => some (locks.vVnlock lvp, mode)
  | _ => none

variable {index : VnodeId} {mode : LockMode}

namespace Coherent

variable (inv : Coherent isTptfs locks)

include inv

theorem give_some (claimed : (index, mode) ∈ locks.claims thread) :
    ∃ after, locks.give thread index = some after := by
  obtain ⟨next, released, -⟩ := Lock.release_of_holds (inv.balanced.holds_of_mem claimed)
  exact ⟨_, Option.map_eq_some_iff.mpr ⟨next, released, rfl⟩⟩

theorem lockmgr_some {request : LockRequest}
    (claimed : ∀ mode, request.from = some mode → (index, mode) ∈ locks.claims thread) :
    ∃ result, locks.lockmgr thread index request = some result := by
  cases request with
  | shared => exact ⟨_, rfl⟩
  | exclusive => exact ⟨_, rfl⟩
  | upgrade =>
      obtain ⟨after, gave⟩ := inv.give_some (claimed .shared rfl)
      simp only [lockmgr]
      split
      · exact ⟨_, rfl⟩
      · rw [gave]
        exact ⟨_, rfl⟩
  | downgrade =>
      obtain ⟨next, shared, -⟩ :=
        Lock.downgrade_of_holds (inv.balanced.holds_of_mem (claimed .exclusive rfl))
      exact ⟨_, Option.map_eq_some_iff.mpr ⟨next, shared, rfl⟩⟩

/-- A request of `lockmgr` starts from a lock that the call has. -/
theorem requests {stage : LockStage} (standing : locks.stage thread = stage) {vp : VnodeId}
    {request : LockRequest} (member : ∀ mode, request.from = some mode → (vp, mode) ∈ stage.claims)
    {β : Type} {next : VnodeLocks τ × Bool → Option β}
    (stuck : (locks.lockmgr thread (locks.vVnlock vp) request).bind next = none) :
    ∃ result, next result = none := by
  obtain ⟨result, asked⟩ := inv.lockmgr_some fun mode start =>
    mem_claims standing (member mode start)
  rw [asked] at stuck
  exact ⟨result, stuck⟩

end Coherent

end Progress

end VnodeLocks

end Tptfs
