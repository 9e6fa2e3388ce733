import LearningKernels.Tptfs.VnodeLockInvariant

/-!
# The steps of `tpt_lock`

What one step of `tpt_lock` does to the locks that the thread holds: the request starts from a
lock of the vnode or from nothing, and ends with the vnode locked through whichever lock it
uses by then, or with nothing.
-/

namespace Tptfs

open Machine

namespace VnodeLocks

variable {τ : Type} [DecidableEq τ] {isTptfs : VnodeId → Bool} {locks after : VnodeLocks τ}
  {thread : τ} {answer : LockAnswer}

theorem take_eq_some {index : VnodeId} {mode : LockMode}
    (ran : locks.take thread index mode = some after) :
    ∃ next, (locks.vLock index).acquire thread mode = some next ∧
      after = locks.setLock index next := by
  obtain ⟨next, acquired, rfl⟩ := Option.map_eq_some_iff.mp ran
  exact ⟨next, acquired, rfl⟩

theorem give_eq_some {index : VnodeId} (ran : locks.give thread index = some after) :
    ∃ next, (locks.vLock index).release thread = some next ∧
      after = locks.setLock index next := by
  obtain ⟨next, released, rfl⟩ := Option.map_eq_some_iff.mp ran
  exact ⟨next, released, rfl⟩

theorem take_only {index : VnodeId} {mode : LockMode}
    (ran : locks.take thread index mode = some after) : ∃ vLock, after = { locks with vLock } := by
  obtain ⟨next, -, rfl⟩ := take_eq_some ran
  exact ⟨_, rfl⟩

theorem give_only {index : VnodeId} (ran : locks.give thread index = some after) :
    ∃ vLock, after = { locks with vLock } := by
  obtain ⟨next, -, rfl⟩ := give_eq_some ran
  exact ⟨_, rfl⟩

theorem lockmgr_only {index : VnodeId} {request : LockRequest} {granted : Bool}
    (ran : locks.lockmgr thread index request = some (after, granted)) :
    ∃ vLock, after = { locks with vLock } := by
  cases request with
  | shared =>
      cases ran
      exact ⟨_, rfl⟩
  | exclusive =>
      cases ran
      exact ⟨_, rfl⟩
  | upgrade =>
      simp only [lockmgr] at ran
      split at ran
      next =>
        cases ran
        exact ⟨_, rfl⟩
      next =>
        obtain ⟨dropped, gave, same⟩ := Option.map_eq_some_iff.mp ran
        cases same
        exact give_only gave
  | downgrade =>
      obtain ⟨lock, -, same⟩ := Option.map_eq_some_iff.mp ran
      cases same
      exact ⟨_, rfl⟩

omit [DecidableEq τ] in
theorem dropOuter_only (locks : VnodeLocks τ) (ask : LockAsk) :
    ∃ holdCount, locks.dropOuter ask = { locks with holdCount } := by
  unfold dropOuter
  cases ask.outer with
  | none => exact ⟨_, rfl⟩
  | some vp => exact ⟨_, rfl⟩

omit [DecidableEq τ] in
/-- Two vnodes with one lock stand for the same claim. -/
theorem before_congr (ask : LockAsk) {vp other : VnodeId}
    (same : locks.vVnlock vp = locks.vVnlock other) :
    (ask.before vp).map locks.resolve = (ask.before other).map locks.resolve := by
  unfold LockAsk.before
  cases ask.request.from with
  | none => rfl
  | some mode =>
      simp only [Option.elim_some, Multiset.map_singleton, resolve, same]

theorem eq_of_mem_before {ask : LockAsk} {vp : VnodeId} {claim : VnodeId × LockMode}
    (member : claim ∈ ask.before vp) : claim.1 = vp := by
  unfold LockAsk.before at member
  cases start : ask.request.from with
  | none =>
      rw [start] at member
      exact absurd member (Multiset.notMem_zero _)
  | some mode =>
      rw [start] at member
      rw [Multiset.mem_singleton.mp member]

theorem before_eq_zero {ask : LockAsk} (vp : VnodeId) (start : ask.request.from = none) :
    ask.before vp = 0 := by
  rw [LockAsk.before, start]
  rfl

omit [DecidableEq τ] in
theorem map_before (ask : LockAsk) (vp : VnodeId) :
    (ask.before vp).map locks.resolve + 0 =
      ask.request.from.elim 0 fun mode => {(locks.vVnlock vp, mode)} := by
  unfold LockAsk.before
  cases ask.request.from with
  | none => rfl
  | some mode => rfl

omit [DecidableEq τ] in
theorem claimable_zero : ∀ claim ∈ (0 : Multiset (VnodeId × LockMode)), locks.Claimable claim.1 :=
  fun claim member => absurd member (Multiset.notMem_zero claim)

omit [DecidableEq τ] in
theorem claimable_singleton {vp : VnodeId} {mode : LockMode} (claimable : locks.Claimable vp) :
    ∀ claim ∈ ({(vp, mode)} : Multiset (VnodeId × LockMode)), locks.Claimable claim.1 := by
  intro claim member
  rw [Multiset.mem_singleton.mp member]
  exact claimable

omit [DecidableEq τ] in
theorem claimable_before {ask : LockAsk} {vp : VnodeId} (claimable : locks.Claimable vp) :
    ∀ claim ∈ ask.before vp, locks.Claimable claim.1 := by
  intro claim member
  rw [eq_of_mem_before member]
  exact claimable

omit [DecidableEq τ] in
theorem search_some {mp : MountId} {lowervp : VnodeId} {node : TptNode}
    (found : locks.search mp lowervp = some node) :
    node ∈ locks.hash ∧ node.tptLowervp = lowervp ∧ node.vMount = mp := by
  refine ⟨List.mem_of_find?_eq_some found, ?_⟩
  simpa using List.find?_some found

omit [DecidableEq τ] in
theorem search_none {mp : MountId} {lowervp : VnodeId}
    (missing : locks.search mp lowervp = none) : locks.Absent mp lowervp := by
  intro node member
  simpa using List.find?_eq_none.mp missing node member

namespace Coherent

variable (inv : Coherent isTptfs locks)

include inv

/-- `lockmgr` from the lock the request starts with: either it grants the request, or it holds
nothing and the thread has to wait. -/
theorem lockmgr_balanced {old : LockStage} (standing : locks.stage thread = old)
    {request : LockRequest} {index : VnodeId} {granted : Bool}
    (before : locks.stageLocks old = request.from.elim 0 fun mode => {(index, mode)})
    (ran : locks.lockmgr thread index request = some (after, granted)) :
    ∃ vLock, after = { locks with vLock } ∧
      Matched vLock (Function.update locks.claims thread
        ((locks.owned thread).map locks.resolve +
          if granted then {(index, request.mode)} else 0)) ∧
      (granted = false → request ≠ .downgrade) := by
  cases request with
  | shared =>
      cases ran
      exact ⟨locks.vLock, rfl, inv.still standing before.symm, fun _ => nofun⟩
  | exclusive =>
      cases ran
      exact ⟨locks.vLock, rfl, inv.still standing before.symm, fun _ => nofun⟩
  | upgrade =>
      have shared : locks.stageLocks old = (index, .shared) ::ₘ 0 := before
      simp only [lockmgr] at ran
      cases alone : (locks.vLock index).upgrade thread with
      | some next =>
          rw [alone] at ran
          cases ran
          exact ⟨_, rfl, inv.upgraded standing alone shared rfl, nofun⟩
      | none =>
          rw [alone] at ran
          obtain ⟨dropped, gave, same⟩ := Option.map_eq_some_iff.mp ran
          cases same
          obtain ⟨next, released, rfl⟩ := give_eq_some gave
          exact ⟨_, rfl, inv.given standing released shared, fun _ => nofun⟩
  | downgrade =>
      have alone : locks.stageLocks old = (index, .exclusive) ::ₘ 0 := before
      obtain ⟨next, shared, same⟩ := Option.map_eq_some_iff.mp ran
      cases same
      exact ⟨_, rfl, inv.downgraded standing shared alone rfl, nofun⟩

section Lock

variable {ask : LockAsk} {lvp : VnodeId} {locked : Bool}

theorem enter_keeps (standing : locks.stage thread = .enter ask)
    (ran : locks.advance thread answer = some after) : Coherent isTptfs after := by
  have known := inv.stages thread
  rw [standing] at known
  obtain ⟨asked, tptfs⟩ := known
  simp only [advance, standing] at ran
  cases data : locks.vData ask.vp with
  | some xp =>
      rw [data] at ran
      cases ran
      have plain := (inv.node _ _ data).2.2
      have shared : locks.vVnlock xp.tptLowervp = locks.vVnlock ask.vp := by
        rw [inv.vVnlock_plain plain, inv.vVnlock_some data]
      refine inv.onward standing (inv.still standing ?_) (fun _ => False.elim)
        (fun _ => False.elim) (claimable_before (inv.claimable_plain plain))
        ⟨asked, plain, ⟨asked.1, ?_⟩, fun _ => ?_⟩
      · exact congrArg (· + 0) (before_congr ask shared)
      · intro node same
        rw [data] at same
        cases same
        rfl
      · rw [data]
        exact nofun
  | none =>
      rw [data] at ran
      cases ran
      exact inv.onward standing (inv.still standing rfl) (fun _ => False.elim)
        (fun _ => False.elim) (claimable_before (claimable_of_listed asked.1))
        ⟨asked, data, fun some => absurd rfl some⟩

theorem lower_keeps (standing : locks.stage thread = .lower ask lvp)
    (ran : locks.advance thread answer = some after) : Coherent isTptfs after := by
  have known := inv.stages thread
  rw [standing] at known
  obtain ⟨asked, plain, above, started⟩ := known
  simp only [advance, standing] at ran
  obtain ⟨⟨middle, granted⟩, called, ran⟩ := Option.bind_eq_some_iff.mp ran
  obtain ⟨vLock, rfl, balanced, waits⟩ :=
    inv.lockmgr_balanced standing (map_before ask lvp) called
  cases granted with
  | true =>
      cases ran
      refine inv.onward standing balanced (fun _ => False.elim) (fun _ => False.elim)
        (claimable_singleton (inv.claimable_plain plain))
        ⟨asked, plain, above, fun down => started ?_⟩
      rw [down]
      exact nofun
  | false =>
      cases ran
      exact inv.onward standing balanced (fun _ => False.elim) (fun _ => False.elim)
        claimable_zero ⟨asked, plain, above, waits rfl⟩

theorem lowerWait_keeps (standing : locks.stage thread = .lowerWait ask lvp)
    (ran : locks.advance thread answer = some after) : Coherent isTptfs after := by
  have known := inv.stages thread
  rw [standing] at known
  obtain ⟨asked, plain, above, climbs⟩ := known
  simp only [advance, standing] at ran
  split at ran
  next =>
    cases ran
    exact inv.onward standing (inv.still standing rfl) (fun _ => False.elim)
      (fun _ => False.elim) claimable_zero asked
  next =>
    obtain ⟨middle, took, ran⟩ := Option.bind_eq_some_iff.mp ran
    obtain ⟨next, acquired, rfl⟩ := take_eq_some took
    cases ran
    exact inv.onward standing (inv.granted standing acquired rfl) (fun _ => False.elim)
      (fun _ => False.elim) (claimable_singleton (inv.claimable_plain plain))
      ⟨asked, plain, above, fun down => absurd down climbs⟩

/-- The vnode still has its node, so that its lock is the one that was taken, or `tpt_lock`
goes for the other lock in the mode that was wanted. -/
theorem recheck_keeps (standing : locks.stage thread = .recheck ask lvp)
    (ran : locks.advance thread answer = some after) : Coherent isTptfs after := by
  have known := inv.stages thread
  rw [standing] at known
  obtain ⟨asked, plain, above, down⟩ := known
  simp only [advance, standing] at ran
  cases data : locks.vData ask.vp with
  | some xp =>
      rw [data] at ran
      cases ran
      have below : xp.tptLowervp = lvp := above.2 xp data
      have shared : locks.vVnlock ask.vp = locks.vVnlock lvp := by
        rw [inv.vVnlock_plain plain, inv.vVnlock_some data, below]
      refine inv.onward standing (inv.still standing ?_) (fun _ => False.elim)
        (fun _ => False.elim) (claimable_singleton (claimable_of_listed asked.1)) asked
      change {(locks.vVnlock ask.vp, ask.request.mode)} + 0 = _
      rw [shared]
      rfl
  | none =>
      rw [data] at ran
      have again : ∀ request : LockRequest, request.from = none →
          request.mode = ask.request.mode →
          Coherent isTptfs (locks.goto thread (.relock { ask with request } lvp)) := by
        intro request start mode
        refine inv.onward standing (inv.still standing ?_) (fun _ => False.elim)
          (fun _ => False.elim) (claimable_singleton (inv.claimable_plain plain))
          ⟨⟨asked.1, fun retry => ⟨(asked.2 retry).1, start⟩⟩, plain, data, start⟩
        simp only [stageLocks, LockStage.claims, mode]
        rfl
      cases request : ask.request with
      | shared =>
          rw [request] at ran
          cases ran
          exact again .shared rfl (by rw [request])
      | exclusive =>
          rw [request] at ran
          cases ran
          exact again .exclusive rfl (by rw [request])
      | upgrade =>
          rw [request] at ran
          cases ran
          exact again .exclusive rfl (by rw [request]; rfl)
      | downgrade => exact absurd data (down request)

theorem relock_keeps (standing : locks.stage thread = .relock ask lvp)
    (ran : locks.advance thread answer = some after) : Coherent isTptfs after := by
  have known := inv.stages thread
  rw [standing] at known
  obtain ⟨asked, plain, data, start⟩ := known
  simp only [advance, standing] at ran
  obtain ⟨middle, gave, ran⟩ := Option.bind_eq_some_iff.mp ran
  obtain ⟨next, released, rfl⟩ := give_eq_some gave
  cases ran
  have nothing : locks.stageLocks (.std ask (some lvp)) = 0 := by
    simp only [stageLocks, LockStage.claims, LockStage.ownClaims, before_eq_zero _ start]
    rfl
  refine inv.onward standing ?_ (fun _ => False.elim) (fun _ => False.elim)
    (claimable_before (claimable_of_listed asked.1)) ⟨asked, data, fun _ => start⟩
  rw [nothing]
  exact inv.given standing released rfl

/-- `vop_stdlock` has locked the vnode or given up. -/
theorem afterStd_keeps {vLock : VnodeId → Lock τ} {holdCount : VnodeId → Int} {old : LockStage}
    (standing : locks.stage thread = old) (asked : locks.AskOk isTptfs ask)
    (balanced : Matched vLock (Function.update locks.claims thread
      ((locks.owned thread).map locks.resolve +
        if locked then {(locks.vVnlock ask.vp, ask.request.mode)} else 0)))
    (works : ∀ xp, ¬ old.Works xp) (retires : ∀ xp, ¬ old.Retires xp) (lower : Option VnodeId) :
    Coherent isTptfs
      ({ locks with vLock, holdCount }.goto thread (afterStd ask lower locked)) := by
  have claimable : ∀ claim ∈ (afterStd ask lower locked).claims, locks.Claimable claim.1 := by
    have listed := claimable_of_listed asked.1
    cases locked <;> cases lower
    all_goals first | exact claimable_zero | exact claimable_singleton listed
  refine inv.onward standing ?_ (fun xp working => absurd working (works xp))
    (fun xp retiring => absurd retiring (retires xp)) claimable ?_
  · cases locked <;> cases lower
    all_goals exact balanced
  · cases lower
    all_goals exact asked

theorem std_keeps {lower : Option VnodeId} (standing : locks.stage thread = .std ask lower)
    (ran : locks.advance thread answer = some after) : Coherent isTptfs after := by
  have known := inv.stages thread
  rw [standing] at known
  obtain ⟨asked, data, start⟩ := known
  simp only [advance, standing] at ran
  obtain ⟨⟨middle, granted⟩, called, ran⟩ := Option.bind_eq_some_iff.mp ran
  obtain ⟨vLock, rfl, balanced, waits⟩ :=
    inv.lockmgr_balanced standing (map_before ask ask.vp) called
  cases granted with
  | true =>
      cases ran
      exact inv.afterStd_keeps standing asked balanced (fun _ => id) (fun _ => id) lower
  | false =>
      cases ran
      exact inv.onward standing balanced (fun _ => False.elim) (fun _ => False.elim)
        claimable_zero ⟨asked, inv.vVnlock_none data, data⟩

theorem stdWait_keeps {lock : VnodeId} {lower : Option VnodeId}
    (standing : locks.stage thread = .stdWait ask lock lower)
    (ran : locks.advance thread answer = some after) : Coherent isTptfs after := by
  have known := inv.stages thread
  rw [standing] at known
  obtain ⟨asked, rfl, data⟩ := known
  simp only [advance, standing] at ran
  split at ran
  next =>
    cases ran
    exact inv.afterStd_keeps standing asked (inv.still standing rfl) (fun _ => id) (fun _ => id)
      lower
  next =>
    obtain ⟨middle, took, ran⟩ := Option.bind_eq_some_iff.mp ran
    obtain ⟨next, acquired, rfl⟩ := take_eq_some took
    cases ran
    refine inv.afterStd_keeps standing asked (inv.granted standing acquired ?_) (fun _ => id)
      (fun _ => id) lower
    rw [inv.vVnlock_none data]
    rfl

theorem vdrop_keeps (standing : locks.stage thread = .vdrop ask lvp locked)
    (ran : locks.advance thread answer = some after) : Coherent isTptfs after := by
  have asked := inv.stages thread
  rw [standing] at asked
  simp only [advance, standing] at ran
  cases ran
  refine inv.onward standing (inv.still standing rfl) (fun _ => False.elim)
    (fun _ => False.elim) ?_ asked
  cases locked with
  | true => exact claimable_singleton (claimable_of_listed asked.1)
  | false => exact claimable_zero

theorem done_keeps (standing : locks.stage thread = .done ask locked)
    (ran : locks.advance thread answer = some after) : Coherent isTptfs after := by
  have asked := inv.stages thread
  rw [standing] at asked
  simp only [advance, standing] at ran
  cases ran
  unfold done
  split
  next again =>
    obtain ⟨rfl, retry⟩ := again
    have start := asked.2 retry
    have nothing : locks.stageLocks (.enter ask) = 0 := by
      simp only [stageLocks, LockStage.claims, LockStage.ownClaims, before_eq_zero _ start.2]
      rfl
    refine inv.onward standing (inv.still standing ?_) (fun _ => False.elim)
      (fun _ => False.elim) (claimable_before (claimable_of_listed asked.1)) ⟨asked, start.1⟩
    rw [nothing]
    rfl
  next =>
    obtain ⟨holdCount, dropped⟩ := dropOuter_only locks ask
    rw [dropped]
    cases locked with
    | true =>
        exact inv.returns standing (inv.still standing rfl) (fun _ => id) (fun _ => id)
          (claimable_of_listed asked.1)
    | false =>
        exact inv.onward standing (inv.still standing rfl) (fun _ => False.elim)
          (fun _ => False.elim) claimable_zero trivial

end Lock

end Coherent

end VnodeLocks

end Tptfs
