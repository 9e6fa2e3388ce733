import LearningKernels.Tptfs.VnodeLockProgress

/-!
# What the locks of aliases give their callers

Consequences of the invariant for every run: the locks that a thread has between its calls,
that nobody reclaims an alias while a thread has it locked, that no call panics, removes a
node that is not there or gives up a lock that it does not have, and where `tpt_lookup` and
`tpt_bypass` leave the lock of their vnode.
-/

namespace Tptfs

open Machine

/-- Where the lock of a reclaimed vnode is not restored: behind a lower lookup that failed, and
where the lower vnode is not locked exclusively. -/
def Passed.Strays (op : Passed) (mode : LockMode) (error : Int) : Prop :=
  match op with
  | .lookup => error ≠ 0 ∧ error ≠ ejustreturn
  | .bypass => mode = .shared

/-- Whether the operation asks again for the lock that it was not given. -/
def Passed.retries : Passed → Bool
  | .lookup => true
  | .bypass => false

namespace VnodeLocks

variable {τ : Type} [DecidableEq τ] {isTptfs : VnodeId → Bool} {locks after : VnodeLocks τ}
  {thread other : τ} {answer : LockAnswer} {xp : TptNode}

/-- Vnodes from 10 on belong to tptfs. -/
def fromTen (vp : VnodeId) : Bool := 10 ≤ vp

/-- Nothing fails, and vnode 10 is new. -/
def granting : LockAnswer := ⟨false, false, some 10, false, some 0⟩

/-- One thread locks vnode 1 and makes the alias 10 of it. -/
def aliasMade : List (LockEvent Bool) :=
  [.call false (.lock 1 .exclusive), .run false granting, .run false granting,
    .run false granting, .call false (.nodeget 0 1 .exclusive), .run false granting,
    .run false granting, .run false granting, .run false granting]

/-- Another thread asks for the alias, and sleeps for the lower lock. -/
def aliasAsked : List (LockEvent Bool) :=
  [.call true (.lock 10 .shared), .run true granting, .run true granting]

/-- The lower lookup has unlocked its vnode, and nothing is new. -/
def unlocking : LockAnswer := ⟨false, false, none, false, none⟩

/-- During a lookup in the alias, another thread reclaims it. -/
def aliasReclaimed : List (LockEvent Bool) :=
  aliasMade ++ [.call false (.pass .lookup 10 .exclusive), .run false unlocking,
    .call true (.lock 10 .exclusive), .run true granting, .run true granting,
    .run true granting, .run true granting, .run true granting, .run true granting,
    .call true (.vgone 10), .run true granting, .run true granting, .run true granting,
    .run true granting, .run true granting, .run false granting]

section Runs

variable {outside : VnodeId → Nat} {history : List (LockEvent τ)}

theorem coherent_of_run
    (began : (initial isTptfs outside : VnodeLocks τ).run isTptfs history = some locks) :
    Coherent isTptfs locks :=
  (coherent_initial outside).run_keeps began

/-- Who has locked an alias exclusively has locked out everybody else from the alias, from its
lower vnode and from the other aliases of that. -/
theorem exclusive_alone
    (began : (initial isTptfs outside : VnodeLocks τ).run isTptfs history = some locks)
    {vp wp : VnodeId} {mode : LockMode} (mine : (vp, .exclusive) ∈ locks.owned thread)
    (theirs : (wp, mode) ∈ locks.asserted other)
    (shared : locks.vVnlock wp = locks.vVnlock vp) :
    other = thread ∧ mode = .exclusive ∧
      (locks.vLock (locks.vVnlock vp)).holds thread .exclusive = 1 := by
  have inv := coherent_of_run began
  have held : (locks.vVnlock vp, mode) ∈ locks.claims other := by
    rw [← shared]
    exact Multiset.mem_add.mpr (.inl (Multiset.mem_map_of_mem locks.resolve theirs))
  obtain ⟨same, alone, once⟩ := inv.balanced.alone (mem_claims_owned mine) held
  rw [← inv.balanced] at once
  exact ⟨same, alone, once⟩

theorem exclusive_alone_made : ∃ locks,
    (initial fromTen (fun _ => 1) : VnodeLocks Bool).run fromTen aliasMade = some locks ∧
      (locks.vLock (locks.vVnlock 10)).holds false .exclusive = 1 :=
  ⟨_, rfl, (@exclusive_alone Bool _ fromTen _ false false (fun _ => 1) aliasMade rfl 10 10
    .exclusive (by decide) (by decide) rfl).2.2⟩

/-- As long as a thread has an alias locked, whatever the other threads do, the alias keeps its
node and its lock, and the thread holds the lock. -/
theorem locked_alias_pinned
    (began : (initial isTptfs outside : VnodeLocks τ).run isTptfs history = some locks)
    {vp : VnodeId} {mode : LockMode} (member : (vp, mode) ∈ locks.owned thread)
    {events : List (LockEvent τ)} (ran : locks.run isTptfs events = some after)
    (others : ∀ event ∈ events, event.thread ≠ some thread) :
    after.vData vp = locks.vData vp ∧ after.vVnlock vp = locks.vVnlock vp ∧
      0 < (after.vLock (after.vVnlock vp)).holds thread mode := by
  have inv := coherent_of_run began
  obtain ⟨owned, data, pointer⟩ := inv.run_pins member ran others
  refine ⟨data, pointer, (inv.run_keeps ran).balanced.holds_of_mem (mem_claims_owned ?_)⟩
  rw [owned]
  exact member

theorem locked_alias_pinned_asked : ∃ locks after,
    (initial fromTen (fun _ => 1) : VnodeLocks Bool).run fromTen aliasMade = some locks ∧
      locks.run fromTen aliasAsked = some after ∧ after.vData 10 = locks.vData 10 :=
  ⟨_, _, rfl, rfl, (@locked_alias_pinned Bool _ fromTen _ _ false (fun _ => 1) aliasMade rfl 10
    .exclusive (by decide) aliasAsked rfl (by decide)).1⟩

/-- `tpt_hashins` finds no other alias when `tpt_nodeget` was called with the lower vnode locked
exclusively. -/
theorem hashins_of_exclusive
    (began : (initial isTptfs outside : VnodeLocks τ).run isTptfs history = some locks)
    (standing : locks.stage thread = .hashins xp true) :
    locks.search xp.vMount xp.tptLowervp = none := by
  have known := (coherent_of_run began).stages thread
  rw [standing] at known
  have absent := known.2.2 rfl
  rw [search, List.find?_eq_none]
  intro node member found
  exact absent node member (of_decide_eq_true found)

theorem hashins_of_exclusive_made : ∃ locks,
    (initial fromTen (fun _ => 1) : VnodeLocks Bool).run fromTen aliasMade.dropLast =
      some locks ∧ locks.search 0 1 = none :=
  ⟨_, rfl, @hashins_of_exclusive Bool _ fromTen _ false ⟨1, 10, 0⟩ (fun _ => 1)
    aliasMade.dropLast rfl rfl⟩

/-- When the lower operation returns, `tpt_lookup` and `tpt_bypass` leave the lower lock to
their caller exactly where the upper vnode was reclaimed and the operation does not restore its
lock; else they return with the upper vnode locked, or go for its lock. -/
theorem passed_returns
    (began : (initial isTptfs outside : VnodeLocks τ).run isTptfs history = some locks)
    {op : Passed} {vp lvp : VnodeId} {mode : LockMode} {error : Int}
    (standing : locks.stage thread = .passed op vp lvp mode)
    (returned : answer.returned = some error)
    (stepped : locks.advance thread answer = some after) :
    (locks.vData vp = none ∧ op.Strays mode error →
      after.stage thread = .idle ∧ after.owned thread = (lvp, mode) ::ₘ locks.owned thread) ∧
    (¬ (locks.vData vp = none ∧ op.Strays mode error) →
      after.stage thread = .idle ∧ after.owned thread = (vp, mode) ::ₘ locks.owned thread ∨
        ∃ outer, after.stage thread = .enter ⟨vp, .exclusive, op.retries, outer⟩ ∧
          after.owned thread = locks.owned thread) := by
  have inv := coherent_of_run began
  have known := inv.stages thread
  rw [standing] at known
  obtain ⟨tptfs, plain, above, -, gone⟩ := known
  -- the two vnodes share the lock as long as the upper one has its node
  have shared : locks.vVnlock vp = locks.vVnlock lvp ↔ locks.vData vp ≠ none := by
    rw [inv.vVnlock_plain plain]
    cases data : locks.vData vp with
    | none =>
        rw [inv.vVnlock_none data]
        refine ⟨?_, fun absurdity => absurd rfl absurdity⟩
        rintro rfl
        rw [tptfs] at plain
        cases plain
    | some node =>
        rw [inv.vVnlock_some data]
        exact ⟨fun _ => nofun, fun _ => above.2 node data⟩
  have leaves : ∀ middle : VnodeLocks τ, middle.owned = locks.owned →
      after = middle.own thread (if locks.vVnlock vp = locks.vVnlock lvp then vp else lvp) mode →
      after.stage thread = .idle ∧ after.owned thread =
        (if locks.vVnlock vp = locks.vVnlock lvp then vp else lvp, mode) ::ₘ
          locks.owned thread := by
    rintro middle owned rfl
    refine ⟨stage_own _ _, (Function.update_self ..).trans ?_⟩
    rw [owned]
  have switches : ∀ middle outer, locks.give thread (locks.vVnlock lvp) = some middle →
      after = middle.goto thread (.enter ⟨vp, .exclusive, op.retries, outer⟩) →
      after.stage thread = .enter ⟨vp, .exclusive, op.retries, outer⟩ ∧
        after.owned thread = locks.owned thread := by
    rintro middle outer gave rfl
    obtain ⟨next, -, rfl⟩ := give_eq_some gave
    exact ⟨stage_goto _, rfl⟩
  simp only [advance, standing, returned] at stepped
  cases op with
  | lookup =>
      simp only [passBack] at stepped
      split at stepped
      next restored =>
        obtain ⟨middle, gave, same⟩ := Option.bind_eq_some_iff.mp stepped
        refine ⟨?_, fun _ => .inr ⟨_, switches middle _ gave (Option.some.inj same).symm⟩⟩
        rintro ⟨-, wrong, right⟩
        exact restored.1.elim wrong right |>.elim
      next left =>
        have result := leaves (locks.vdrop lvp) rfl (Option.some.inj stepped).symm
        constructor
        · rintro ⟨bare, -⟩
          rwa [if_neg fun same => shared.mp same bare] at result
        · intro kept
          rw [if_pos] at result
          · exact .inl result
          · refine shared.mpr fun bare => kept ⟨bare, ?_, ?_⟩
            · exact fun success => left ⟨.inl success, gone bare⟩
            · exact fun success => left ⟨.inr success, gone bare⟩
  | bypass =>
      simp only [passBack] at stepped
      split at stepped
      next moved =>
        obtain ⟨middle, gave, same⟩ := Option.bind_eq_some_iff.mp stepped
        refine ⟨?_, fun _ => .inr ⟨_, switches middle _ gave (Option.some.inj same).symm⟩⟩
        rintro ⟨-, strays⟩
        cases moved.1.symm.trans strays
      next left =>
        have result := leaves locks rfl (Option.some.inj stepped).symm
        constructor
        · rintro ⟨bare, -⟩
          rwa [if_neg fun same => shared.mp same bare] at result
        · intro kept
          rw [if_pos] at result
          · exact .inl result
          · refine shared.mpr fun bare => kept ⟨bare, ?_⟩
            cases mode with
            | shared => rfl
            | exclusive => exact absurd ⟨rfl, fun same => shared.mp same bare⟩ left

theorem passed_returns_reclaimed : ∃ locks after,
    (initial fromTen (fun _ => 1) : VnodeLocks Bool).run fromTen aliasReclaimed = some locks ∧
      locks.advance false ⟨false, false, none, false, some 2⟩ = some after ∧
      after.owned false = (1, .exclusive) ::ₘ locks.owned false :=
  ⟨_, _, rfl, rfl, ((@passed_returns Bool _ fromTen _ _ false
    ⟨false, false, none, false, some 2⟩ (fun _ => 1) aliasReclaimed rfl .lookup 10 1 .exclusive 2
    rfl rfl rfl).1 ⟨rfl, by decide, by decide⟩).2⟩

end Runs

end VnodeLocks

end Tptfs
