import LearningKernels.Tptfs.VnodeLockSteps

/-!
# The steps of the other calls

The steps of `tpt_unlock`, `tpt_nodeget`, `tpt_reclaim` and the passed-down operations that
leave the nodes alone.
-/

namespace Tptfs

open Machine

namespace VnodeLocks

variable {τ : Type} [DecidableEq τ] {isTptfs : VnodeId → Bool} {locks after : VnodeLocks τ}
  {thread : τ} {answer : LockAnswer}

namespace Coherent

variable (inv : Coherent isTptfs locks)

include inv

section Unlock

variable {vp lvp : VnodeId} {mode : LockMode}

theorem unlock_keeps (standing : locks.stage thread = .unlock vp mode)
    (ran : locks.advance thread answer = some after) : Coherent isTptfs after := by
  simp only [advance, standing] at ran
  cases data : locks.vData vp with
  | some xp =>
      rw [data] at ran
      cases ran
      have plain := (inv.node _ _ data).2.2
      have shared : locks.vVnlock xp.tptLowervp = locks.vVnlock vp := by
        rw [inv.vVnlock_plain plain, inv.vVnlock_some data]
      refine inv.onward standing (inv.still standing ?_) (fun _ => False.elim)
        (fun _ => False.elim) (claimable_singleton (inv.claimable_plain plain)) trivial
      change {(locks.vVnlock xp.tptLowervp, mode)} + 0 = _
      rw [shared]
      rfl
  | none =>
      rw [data] at ran
      obtain ⟨middle, gave, ran⟩ := Option.bind_eq_some_iff.mp ran
      obtain ⟨next, released, rfl⟩ := give_eq_some gave
      cases ran
      exact inv.onward standing (inv.given standing released rfl) (fun _ => False.elim)
        (fun _ => False.elim) claimable_zero trivial

theorem unlockLower_keeps (standing : locks.stage thread = .unlockLower lvp mode)
    (ran : locks.advance thread answer = some after) : Coherent isTptfs after := by
  simp only [advance, standing] at ran
  obtain ⟨middle, gave, ran⟩ := Option.bind_eq_some_iff.mp ran
  obtain ⟨next, released, rfl⟩ := give_eq_some gave
  cases ran
  exact inv.onward standing (inv.given standing released rfl) (fun _ => False.elim)
    (fun _ => False.elim) claimable_zero trivial

theorem unlockDrop_keeps (standing : locks.stage thread = .unlockDrop lvp)
    (ran : locks.advance thread answer = some after) : Coherent isTptfs after := by
  simp only [advance, standing] at ran
  cases ran
  exact inv.onward standing (inv.still standing rfl) (fun _ => False.elim)
    (fun _ => False.elim) claimable_zero trivial

end Unlock

section Nodeget

variable {mp : MountId} {lowervp : VnodeId} {mode : LockMode} {direct : Bool} {xp : TptNode}

/-- A node of the hash for a lower vnode shares its lock. -/
theorem vVnlock_of_search {node : TptNode} (plain : isTptfs lowervp = false)
    (found : locks.search mp lowervp = some node) :
    locks.vVnlock node.tptVnode = locks.vVnlock lowervp := by
  obtain ⟨member, below, -⟩ := search_some found
  rw [inv.vVnlock_some (inv.hashed node member).1, inv.vVnlock_plain plain, below]

theorem hashget_keeps (standing : locks.stage thread = .hashget mp lowervp mode)
    (ran : locks.advance thread answer = some after) : Coherent isTptfs after := by
  have plain := inv.stages thread
  rw [standing] at plain
  simp only [advance, standing] at ran
  cases found : locks.search mp lowervp with
  | some node =>
      rw [found] at ran
      cases ran
      have listed := (inv.hashed node (search_some found).1).2
      refine inv.returns standing (inv.still standing ?_) (fun _ => id) (fun _ => id)
        (claimable_of_listed listed)
      rw [inv.vVnlock_of_search plain found]
      rfl
  | none =>
      rw [found] at ran
      have claimable := inv.claimable_plain plain
      cases mode with
      | shared =>
          cases ran
          exact inv.onward standing (inv.still standing rfl) (fun _ => False.elim)
            (fun _ => False.elim) (claimable_singleton claimable) plain
      | exclusive =>
          cases ran
          exact inv.onward standing (inv.still standing rfl) (fun _ => False.elim)
            (fun _ => False.elim) (claimable_singleton claimable)
            ⟨plain, fun _ => search_none found⟩

theorem upgrade_keeps (standing : locks.stage thread = .upgrade mp lowervp)
    (ran : locks.advance thread answer = some after) : Coherent isTptfs after := by
  have plain := inv.stages thread
  rw [standing] at plain
  simp only [advance, standing] at ran
  obtain ⟨⟨middle, granted⟩, called, ran⟩ := Option.bind_eq_some_iff.mp ran
  have before : locks.stageLocks (.upgrade mp lowervp) =
      LockRequest.upgrade.from.elim 0 fun mode => {(locks.vVnlock lowervp, mode)} := rfl
  obtain ⟨vLock, rfl, balanced, -⟩ := inv.lockmgr_balanced standing before called
  cases granted with
  | true =>
      cases ran
      exact inv.onward standing balanced (fun _ => False.elim) (fun _ => False.elim)
        (claimable_singleton (inv.claimable_plain plain)) plain
  | false =>
      cases ran
      exact inv.onward standing balanced (fun _ => False.elim) (fun _ => False.elim)
        claimable_zero plain

theorem upgradeWait_keeps (standing : locks.stage thread = .upgradeWait mp lowervp)
    (ran : locks.advance thread answer = some after) : Coherent isTptfs after := by
  have plain := inv.stages thread
  rw [standing] at plain
  simp only [advance, standing] at ran
  obtain ⟨middle, took, ran⟩ := Option.bind_eq_some_iff.mp ran
  obtain ⟨next, acquired, rfl⟩ := take_eq_some took
  cases ran
  exact inv.onward standing (inv.granted standing acquired rfl) (fun _ => False.elim)
    (fun _ => False.elim) (claimable_singleton (inv.claimable_plain plain)) plain

theorem doomedCheck_keeps (standing : locks.stage thread = .doomedCheck mp lowervp)
    (ran : locks.advance thread answer = some after) : Coherent isTptfs after := by
  have plain := inv.stages thread
  rw [standing] at plain
  have claimable := inv.claimable_plain plain
  simp only [advance, standing] at ran
  split at ran
  next =>
    cases ran
    exact inv.onward standing (inv.still standing rfl) (fun _ => False.elim)
      (fun _ => False.elim) (claimable_singleton claimable) plain
  next =>
    cases ran
    exact inv.onward standing (inv.still standing rfl) (fun _ => False.elim)
      (fun _ => False.elim) (claimable_singleton claimable) ⟨plain, fun direct => by cases direct⟩

theorem vputLower_keeps (standing : locks.stage thread = .vputLower lowervp)
    (ran : locks.advance thread answer = some after) : Coherent isTptfs after := by
  simp only [advance, standing] at ran
  obtain ⟨middle, gave, ran⟩ := Option.bind_eq_some_iff.mp ran
  obtain ⟨next, released, rfl⟩ := give_eq_some gave
  cases ran
  exact inv.onward standing (inv.given standing released rfl) (fun _ => False.elim)
    (fun _ => False.elim) claimable_zero trivial

/-- The lower vnode of a node belongs to the other file system. -/
theorem plain_below (data : locks.vData xp.tptVnode = some xp) :
    isTptfs xp.tptLowervp = false :=
  (inv.node _ _ data).2.2

theorem destructor_keeps (standing : locks.stage thread = .destructor xp)
    (ran : locks.advance thread answer = some after) : Coherent isTptfs after := by
  have known := inv.stages thread
  rw [standing] at known
  simp only [advance, standing] at ran
  obtain ⟨middle, gave, ran⟩ := Option.bind_eq_some_iff.mp ran
  obtain ⟨next, released, rfl⟩ := give_eq_some gave
  cases ran
  exact inv.onward standing (inv.given standing released rfl) (fun _ => False.elim)
    (fun _ => False.elim) claimable_zero known

/-- Another node for the same mount and lower vnode is an alias beside the new one. -/
theorem beside_of_search {node : TptNode} (detached : locks.Detached xp)
    (found : locks.search xp.vMount xp.tptLowervp = some node) :
    locks.Beside xp node.tptVnode := by
  obtain ⟨member, below, -⟩ := search_some found
  obtain ⟨data, listed⟩ := inv.hashed node member
  refine ⟨?_, listed, node, data, below⟩
  intro same
  rw [same, detached.1] at data
  cases data
  exact detached.2 member

theorem lost_keeps {ovp : VnodeId} (standing : locks.stage thread = .lost xp ovp)
    (ran : locks.advance thread answer = some after) : Coherent isTptfs after := by
  have known := inv.stages thread
  rw [standing] at known
  simp only [advance, standing] at ran
  cases ran
  exact inv.onward standing (inv.still standing rfl) (fun _ => id) (fun _ => False.elim)
    (claimable_singleton (inv.claimable_plain (inv.plain_below known.1.1))) known

end Nodeget

section Retire

variable {xp : TptNode} {how : Retire}

theorem claimable_retire (plain : isTptfs xp.tptLowervp = false) :
    ∀ claim ∈ how.claims xp, locks.Claimable claim.1 := by
  have claimable := inv.claimable_plain plain
  cases how with
  | failed => exact claimable_zero
  | vgone => exact claimable_singleton claimable
  | lowervp => exact claimable_singleton claimable
  | lost ovp => exact claimable_singleton claimable

theorem ownLock_keeps (standing : locks.stage thread = .ownLock xp how)
    (ran : locks.advance thread answer = some after) : Coherent isTptfs after := by
  have known := inv.stages thread
  rw [standing] at known
  simp only [advance, standing] at ran
  obtain ⟨middle, took, ran⟩ := Option.bind_eq_some_iff.mp ran
  obtain ⟨next, acquired, rfl⟩ := take_eq_some took
  cases ran
  refine inv.onward standing (inv.granted standing acquired ?_) (fun _ => id) (fun _ => id)
    (inv.claimable_retire (inv.plain_below known.1.1)) known
  change (how.claims xp).map locks.resolve + {_} = _ ::ₘ ((how.claims xp).map locks.resolve + 0)
  rw [Multiset.add_comm, Multiset.singleton_add, add_zero]

omit inv in
omit [DecidableEq τ] in
theorem claimable_of_bare (bare : locks.Bare xp how) : locks.Claimable xp.tptVnode :=
  ⟨bare.2.1, fun data => absurd bare.1 data⟩

theorem vreleLower_keeps (standing : locks.stage thread = .vreleLower xp)
    (ran : locks.advance thread answer = some after) : Coherent isTptfs after := by
  have bare := inv.stages thread
  rw [standing] at bare
  simp only [advance, standing] at ran
  cases ran
  exact inv.returns standing (inv.still standing rfl) (fun _ => id) (fun _ => id)
    (claimable_of_bare bare)

/-- The alias that won shares the lower lock, which the thread still has. -/
theorem unlockOwn_keeps (standing : locks.stage thread = .unlockOwn xp how)
    (ran : locks.advance thread answer = some after) : Coherent isTptfs after := by
  have known := inv.stages thread
  rw [standing] at known
  obtain ⟨plain, bare, split⟩ := known
  simp only [advance, standing] at ran
  obtain ⟨middle, gave, ran⟩ := Option.bind_eq_some_iff.mp ran
  obtain ⟨next, released, rfl⟩ := give_eq_some gave
  cases how with
  | vgone => exact absurd rfl split
  | failed =>
      cases ran
      exact inv.onward standing (inv.given standing released rfl) (fun _ => False.elim)
        (fun _ => False.elim) claimable_zero trivial
  | lowervp =>
      cases ran
      exact inv.returns standing (inv.given standing released rfl) (fun _ => id) (fun _ => id)
        (inv.claimable_plain plain)
  | lost ovp =>
      cases ran
      obtain ⟨-, listed, node, data, below⟩ := bare.2.2 ovp rfl
      have shared : locks.vVnlock ovp = locks.vVnlock xp.tptLowervp := by
        rw [inv.vVnlock_some data, inv.vVnlock_plain plain, below]
      have less : locks.stageLocks (.unlockOwn xp (.lost ovp)) =
          (locks.vVnlock xp.tptVnode, .exclusive) ::ₘ {(locks.vVnlock ovp, .exclusive)} := by
        rw [shared]
        rfl
      exact inv.returns standing (inv.given standing released less) (fun _ => id) (fun _ => id)
        (claimable_of_listed listed)

end Retire

section Passed

variable {op : Passed} {vp lvp : VnodeId} {mode : LockMode}

theorem passBack_keeps {error : Int} (standing : locks.stage thread = .passed op vp lvp mode)
    (ran : locks.passBack thread op vp lvp mode error = some after) :
    Coherent isTptfs after := by
  have known := inv.stages thread
  rw [standing] at known
  obtain ⟨tptfs, plain, above, -, -⟩ := known
  -- the lock is given up, and the call goes for that of the upper vnode
  have switch : ∀ retry outer middle, locks.give thread (locks.vVnlock lvp) = some middle →
      Coherent isTptfs (middle.goto thread (.enter ⟨vp, .exclusive, retry, outer⟩)) := by
    intro retry outer middle gave
    obtain ⟨next, released, rfl⟩ := give_eq_some gave
    exact inv.onward standing (inv.given standing released rfl) (fun _ => False.elim)
      (fun _ => False.elim) claimable_zero ⟨⟨above.1, fun _ => ⟨tptfs, rfl⟩⟩, tptfs⟩
  -- the lock is left to the caller
  have leave : ∀ holdCount, Coherent isTptfs ({ locks with holdCount }.own thread
      (if locks.vVnlock vp = locks.vVnlock lvp then vp else lvp) mode) := by
    intro holdCount
    split
    next shared =>
      refine inv.returns standing (inv.still standing ?_) (fun _ => id) (fun _ => id)
        (claimable_of_listed above.1)
      rw [shared]
      rfl
    next =>
      exact inv.returns standing (inv.still standing rfl) (fun _ => id) (fun _ => id)
        (inv.claimable_plain plain)
  cases op with
  | lookup =>
      simp only [passBack] at ran
      split at ran
      next =>
        obtain ⟨middle, gave, ran⟩ := Option.bind_eq_some_iff.mp ran
        cases ran
        exact switch _ _ middle gave
      next =>
        cases ran
        exact leave _
  | bypass =>
      simp only [passBack] at ran
      split at ran
      next =>
        obtain ⟨middle, gave, ran⟩ := Option.bind_eq_some_iff.mp ran
        cases ran
        exact switch _ _ middle gave
      next =>
        cases ran
        exact leave _

theorem passed_keeps (standing : locks.stage thread = .passed op vp lvp mode)
    (ran : locks.advance thread answer = some after) : Coherent isTptfs after := by
  have known := inv.stages thread
  rw [standing] at known
  simp only [advance, standing] at ran
  cases returned : answer.returned with
  | none =>
      rw [returned] at ran
      obtain ⟨middle, gave, ran⟩ := Option.bind_eq_some_iff.mp ran
      obtain ⟨next, released, rfl⟩ := give_eq_some gave
      cases ran
      exact inv.onward standing (inv.given standing released rfl) (fun _ => False.elim)
        (fun _ => False.elim) claimable_zero known
  | some error =>
      rw [returned] at ran
      exact inv.passBack_keeps standing ran

theorem passedOut_keeps (standing : locks.stage thread = .passedOut op vp lvp mode)
    (ran : locks.advance thread answer = some after) : Coherent isTptfs after := by
  have known := inv.stages thread
  rw [standing] at known
  simp only [advance, standing] at ran
  obtain ⟨middle, took, ran⟩ := Option.bind_eq_some_iff.mp ran
  obtain ⟨next, acquired, rfl⟩ := take_eq_some took
  cases ran
  exact inv.onward standing (inv.granted standing acquired rfl) (fun _ => False.elim)
    (fun _ => False.elim) (claimable_singleton (inv.claimable_plain known.2.1)) known

end Passed

end Coherent

end VnodeLocks

end Tptfs
