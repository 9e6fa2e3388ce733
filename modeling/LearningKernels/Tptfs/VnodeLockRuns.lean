import LearningKernels.Tptfs.VnodeLockRetire

/-!
# Runs of calls on aliases

The calls begin with locks of their callers, and the invariant holds in every state that any
calls of any threads lead to, in any order of their steps.
-/

namespace Tptfs

open Machine

namespace VnodeLocks

variable {τ : Type} [DecidableEq τ] {isTptfs : VnodeId → Bool} {locks after : VnodeLocks τ}
  {thread other : τ} {answer : LockAnswer} {xp : TptNode}

theorem enterWith_eq_some {vp : VnodeId} {mode : LockMode} {stage : LockStage}
    (ran : locks.enterWith thread vp mode stage = some after) :
    (vp, mode) ∈ locks.owned thread ∧
      after = { locks with
        owned := Function.update locks.owned thread ((locks.owned thread).erase (vp, mode))
        stage := Function.update locks.stage thread stage } := by
  unfold enterWith at ran
  split at ran
  next member =>
    cases ran
    exact ⟨member, rfl⟩
  next => cases ran

omit [DecidableEq τ] in
theorem mem_claims_owned {vp : VnodeId} {mode : LockMode}
    (member : (vp, mode) ∈ locks.owned thread) :
    (locks.vVnlock vp, mode) ∈ locks.claims thread := by
  rw [claims_eq]
  exact Multiset.mem_add.mpr (.inl (Multiset.mem_map_of_mem locks.resolve member))

namespace Coherent

variable (inv : Coherent isTptfs locks)

include inv

theorem advance_keeps (ran : locks.advance thread answer = some after) :
    Coherent isTptfs after := by
  cases standing : locks.stage thread with
  | idle =>
      simp only [advance, standing] at ran
      cases ran
  | enter ask => exact inv.enter_keeps standing ran
  | lower ask lvp => exact inv.lower_keeps standing ran
  | lowerWait ask lvp => exact inv.lowerWait_keeps standing ran
  | recheck ask lvp => exact inv.recheck_keeps standing ran
  | relock ask lvp => exact inv.relock_keeps standing ran
  | std ask lvp => exact inv.std_keeps standing ran
  | stdWait ask lock lvp => exact inv.stdWait_keeps standing ran
  | vdrop ask lvp locked => exact inv.vdrop_keeps standing ran
  | done ask locked => exact inv.done_keeps standing ran
  | unlock vp mode => exact inv.unlock_keeps standing ran
  | unlockLower lvp mode => exact inv.unlockLower_keeps standing ran
  | unlockDrop lvp => exact inv.unlockDrop_keeps standing ran
  | hashget mp lowervp mode => exact inv.hashget_keeps standing ran
  | upgrade mp lowervp => exact inv.upgrade_keeps standing ran
  | upgradeWait mp lowervp => exact inv.upgradeWait_keeps standing ran
  | doomedCheck mp lowervp => exact inv.doomedCheck_keeps standing ran
  | getnewvnode mp lowervp direct => exact inv.getnewvnode_keeps standing ran
  | vputLower lowervp => exact inv.vputLower_keeps standing ran
  | insmntque xp direct => exact inv.insmntque_keeps standing ran
  | destructor xp => exact inv.destructor_keeps standing ran
  | hashins xp direct => exact inv.hashins_keeps standing ran
  | lost xp ovp => exact inv.lost_keeps standing ran
  | hashrem xp how => exact inv.hashrem_keeps standing ran
  | ownLock xp how => exact inv.ownLock_keeps standing ran
  | clear xp how => exact inv.clear_keeps standing ran
  | cleared xp how => exact inv.cleared_keeps standing ran
  | vreleLower xp => exact inv.vreleLower_keeps standing ran
  | unlockOwn xp how => exact inv.unlockOwn_keeps standing ran
  | passed op vp lvp mode => exact inv.passed_keeps standing ran
  | passedOut op vp lvp mode => exact inv.passedOut_keeps standing ran

/-- The node of a vnode that a thread has locked is listed and in the hash: whoever else has
it in its hands would hold the lock alone. -/
theorem hashed_of_owned (idle : locks.stage thread = .idle) {vp : VnodeId} {mode : LockMode}
    (member : (vp, mode) ∈ locks.owned thread) (data : locks.vData vp = some xp) :
    locks.status vp = .listed ∧ xp ∈ locks.hash := by
  have noded : locks.vData vp ≠ none := by
    rw [data]
    exact nofun
  have listed := (inv.claimed thread vp mode (Multiset.mem_add.mpr (.inl member))).2 noded
  refine ⟨listed, ?_⟩
  obtain hashed | ⟨worker, working⟩ := inv.indexed vp xp data listed
  · exact hashed
  · rw [← (inv.node vp xp data).1] at listed
    have held := mem_claims_owned member
    rw [inv.vVnlock_some data] at held
    obtain ⟨rfl, -⟩ := inv.balanced.alone (inv.works_claims working listed) held
    rw [idle] at working
    exact working.elim

/-- `vgone` of an alias, by its own lock or by that of the lower vnode. -/
theorem retire_keeps (idle : locks.stage thread = .idle) {vp : VnodeId} {how : Retire}
    (member : (vp, .exclusive) ∈ locks.owned thread) (hashed : xp ∈ locks.hash)
    (shared : locks.vVnlock vp = xp.tptLowervp) (called : how = .vgone ∨ how = .lowervp)
    (ran : (locks.doom xp.tptVnode).enterWith thread vp .exclusive (.hashrem xp how) =
      some after) : Coherent isTptfs after := by
  obtain ⟨-, rfl⟩ := enterWith_eq_some ran
  obtain ⟨data, listed⟩ := inv.hashed xp hashed
  have plain := inv.plain_below data
  have same : locks.stageLocks (.hashrem xp how) = {(locks.vVnlock vp, .exclusive)} := by
    have below : locks.vVnlock vp = locks.vVnlock xp.tptLowervp := by
      rw [shared, inv.vVnlock_plain plain]
    rw [below]
    obtain rfl | rfl := called
    all_goals rfl
  have marked : ∀ node, Function.update locks.doomed node true node = true :=
    fun node => Function.update_self ..
  have grown : Grown locks { locks.doom xp.tptVnode with
      owned := Function.update locks.owned thread ((locks.owned thread).erase (vp, .exclusive))
      stage := Function.update locks.stage thread (.hashrem xp how) } := by
    refine ⟨fun _ listed => listed, fun _ shown => shown, fun _ data _ => data, ?_⟩
    intro vnode doomed
    by_cases here : vnode = xp.tptVnode
    · subst here
      exact marked _
    · exact (Function.update_of_ne here _ _).trans doomed
  refine inv.changed thread grown ?_ (fun other apart => Function.update_of_ne apart _ _)
    (fun other apart => Function.update_of_ne apart _ _) ?_ ?_ ?_ inv.pointer inv.node ?_
    inv.hashed inv.distinct ?_ ?_
  · intro other different
    exact ⟨grown, fun _ hidden => hidden, fun _ _ data => .inl data, fun _ member => .inl member,
      fun _ member => .inl member⟩
  · intro claim asserted
    obtain owned | stage := Multiset.mem_add.mp asserted
    · change claim ∈ Function.update locks.owned thread _ thread at owned
      rw [Function.update_self] at owned
      exact .inl (Multiset.mem_of_mem_erase owned)
    · change claim ∈ (Function.update locks.stage thread _ thread).claims at stage
      rw [Function.update_self] at stage
      exact .inr (inv.claimable_retire plain claim stage)
  · change StageOk isTptfs _ thread (Function.update locks.stage thread _ thread)
    rw [Function.update_self]
    refine ⟨data, hashed, called, ?_⟩
    obtain rfl | rfl := called
    all_goals exact ⟨listed, marked _⟩
  · exact inv.balanced.congr (claims_enter idle member same)
  · intro vnode fresh
    obtain ⟨bare, tptfs, alive⟩ := inv.fresh vnode fresh
    refine ⟨bare, tptfs, (Function.update_of_ne ?_ _ _).trans alive⟩
    rintro rfl
    cases listed.symm.trans fresh
  · intro vnode node data listed
    have kept := inv.indexed vnode node data listed
    exact kept.imp_right (elsewhere (·.Works node) idle id)
  · intro vnode node doomed noded
    by_cases here : vnode = xp.tptVnode
    · subst here
      cases data.symm.trans noded
      refine ⟨thread, ?_⟩
      change (Function.update locks.stage thread _ thread).Retires xp
      rw [Function.update_self]
      rfl
    · have before := (Function.update_of_ne here _ _).symm.trans doomed
      exact elsewhere (·.Retires node) idle id (inv.doomedBy vnode node before noded)

theorem lock_keeps (idle : locks.stage thread = .idle) {vp : VnodeId} {request : LockRequest}
    (ran : locks.start isTptfs thread (.lock vp request) = some after) :
    Coherent isTptfs after := by
  simp only [start] at ran
  split at ran
  next listed =>
    have asked : locks.AskOk isTptfs ⟨vp, request, false, none⟩ := ⟨listed, nofun⟩
    have claimable := claimable_of_listed listed
    -- the stage in front of `tpt_lock` or `vop_stdlock`
    obtain ⟨stage, called, claims, locksOf, known⟩ : ∃ stage,
        (if isTptfs vp then LockStage.enter ⟨vp, request, false, none⟩
          else .std ⟨vp, request, false, none⟩ none) = stage ∧
        stage.claims = LockAsk.before ⟨vp, request, false, none⟩ vp ∧
        locks.stageLocks stage = request.from.elim 0 (fun mode => {(locks.vVnlock vp, mode)}) ∧
        locks.StageOk isTptfs thread stage := by
      cases tptfs : isTptfs vp with
      | true => exact ⟨_, rfl, rfl, map_before _ vp, asked, tptfs⟩
      | false =>
          exact ⟨_, rfl, rfl, map_before _ vp, asked, inv.plain tptfs,
            fun lower => absurd rfl lower⟩
    rw [called] at ran
    cases start : request.from with
    | none =>
        rw [start] at ran locksOf
        cases ran
        refine inv.onward idle (inv.still idle ?_) (fun _ => False.elim) (fun _ => False.elim) ?_
          known
        · exact locksOf
        · rw [claims]
          exact claimable_before claimable
    | some mode =>
        rw [start] at ran locksOf
        obtain ⟨member, rfl⟩ := enterWith_eq_some ran
        refine inv.enters idle member locksOf ?_ known
        rw [claims]
        exact claimable_before claimable
  next => cases ran

theorem pass_keeps (idle : locks.stage thread = .idle) {op : Passed} {vp : VnodeId}
    {mode : LockMode} (ran : locks.start isTptfs thread (.pass op vp mode) = some after) :
    Coherent isTptfs after := by
  simp only [start] at ran
  cases data : locks.vData vp with
  | none =>
      rw [data] at ran
      cases ran
  | some xp =>
      rw [data] at ran
      have plain := (inv.node vp xp data).2.2
      have enters : ∀ holdCount, (vp, mode) ∈ locks.owned thread → Coherent isTptfs { locks with
          holdCount
          owned := Function.update locks.owned thread ((locks.owned thread).erase (vp, mode))
          stage := Function.update locks.stage thread (.passed op vp xp.tptLowervp mode) } := by
        intro holdCount member
        obtain ⟨listed, hashed⟩ := inv.hashed_of_owned idle member data
        have same : ∀ node, locks.vData vp = some node → xp = node :=
          fun node noded => Option.some.inj (data.symm.trans noded)
        refine inv.enters idle member ?_ (claimable_singleton (inv.claimable_plain plain))
          ⟨(inv.node vp xp data).2.1, plain, ⟨listed, ?_⟩, ?_, ?_⟩
        · have shared : locks.vVnlock vp = locks.vVnlock xp.tptLowervp := by
            rw [inv.vVnlock_some data, inv.vVnlock_plain plain]
          rw [shared]
          rfl
        · intro node noded
          rw [same node noded]
        · intro node noded
          rw [← same node noded]
          exact .inl hashed
        · intro bare
          cases data.symm.trans bare
      cases op with
      | lookup =>
          obtain ⟨member, rfl⟩ := enterWith_eq_some ran
          exact enters _ member
      | bypass =>
          obtain ⟨member, rfl⟩ := enterWith_eq_some ran
          exact enters _ member

theorem start_keeps (idle : locks.stage thread = .idle) {call : LockCall}
    (ran : locks.start isTptfs thread call = some after) : Coherent isTptfs after := by
  have retire : ∀ mp lowervp xp, locks.search mp lowervp = some xp →
      (locks.doom xp.tptVnode).enterWith thread lowervp .exclusive (.hashrem xp .lowervp) =
        some after → Coherent isTptfs after := by
    intro mp lowervp xp found ran
    obtain ⟨hashed, below, -⟩ := search_some found
    have plain := inv.plain_below (inv.hashed xp hashed).1
    rw [below] at plain
    refine inv.retire_keeps idle (enterWith_eq_some ran).1 hashed ?_ (.inr rfl) ran
    rw [inv.vVnlock_plain plain, below]
  cases call with
  | lock vp request => exact inv.lock_keeps idle ran
  | pass op vp mode => exact inv.pass_keeps idle ran
  | unlock vp mode =>
      obtain ⟨member, rfl⟩ := enterWith_eq_some ran
      have claimable := inv.claimed thread vp mode (Multiset.mem_add.mpr (.inl member))
      exact inv.enters idle member rfl (claimable_singleton claimable) trivial
  | nodeget mp lowervp mode =>
      simp only [start] at ran
      split at ran
      next plain =>
        obtain ⟨member, rfl⟩ := enterWith_eq_some ran
        exact inv.enters idle member rfl (claimable_singleton (inv.claimable_plain plain.1)) plain.1
      next => cases ran
  | vgone vp =>
      simp only [start] at ran
      cases data : locks.vData vp with
      | none =>
          rw [data] at ran
          cases ran
      | some xp =>
          rw [data] at ran
          have member := (enterWith_eq_some ran).1
          have hashed := (inv.hashed_of_owned idle member data).2
          rw [← (inv.node vp xp data).1] at ran member data
          exact inv.retire_keeps idle member hashed (inv.vVnlock_some data) (.inl rfl) ran
  | reclaimLowervp mp lowervp =>
      simp only [start] at ran
      cases found : locks.search mp lowervp with
      | none =>
          rw [found] at ran
          cases ran
          exact inv
      | some xp =>
          rw [found] at ran
          exact retire mp lowervp xp found ran
  | unlinkLowervp mp lowervp last =>
      simp only [start] at ran
      cases found : locks.search mp lowervp with
      | none =>
          rw [found] at ran
          cases ran
          exact inv
      | some xp =>
          rw [found] at ran
          cases last with
          | true => exact retire mp lowervp xp found ran
          | false =>
              cases ran
              exact inv

/-- The counts of holds are not part of the invariant. -/
theorem counts (holdCount : VnodeId → Int) (outside : VnodeId → Nat) :
    Coherent isTptfs { locks with holdCount, outside } :=
  ⟨inv.balanced, inv.pointer, inv.node, inv.fresh, inv.hashed, inv.distinct, inv.indexed,
    inv.doomedBy, inv.claimed, inv.stages⟩

/-- **Every event keeps the invariant.** -/
theorem step_keeps {event : LockEvent τ} (ran : locks.step isTptfs event = some after) :
    Coherent isTptfs after := by
  cases event with
  | call thread call =>
      simp only [step] at ran
      split at ran
      next idle => exact inv.start_keeps idle ran
      next => cases ran
  | run thread answer => exact inv.advance_keeps ran
  | vhold vp =>
      cases ran
      exact inv.counts _ _
  | vdrop vp =>
      simp only [step] at ran
      split at ran
      next =>
        cases ran
        exact inv.counts _ _
      next => cases ran

end Coherent

/-- A sequence of events. -/
def run (isTptfs : VnodeId → Bool) : VnodeLocks τ → List (LockEvent τ) → Option (VnodeLocks τ)
  | locks, [] => some locks
  | locks, event :: rest => do
      let next ← locks.step isTptfs event
      next.run isTptfs rest

theorem Coherent.run_keeps (inv : Coherent isTptfs locks) {events : List (LockEvent τ)}
    (ran : locks.run isTptfs events = some after) : Coherent isTptfs after := by
  induction events generalizing locks with
  | nil =>
      cases ran
      exact inv
  | cons event rest ih =>
      obtain ⟨next, stepped, ran⟩ := Option.bind_eq_some_iff.mp ran
      exact ih (inv.step_keeps stepped) ran

theorem coherent_initial (outside : VnodeId → Nat) :
    Coherent isTptfs (initial isTptfs outside : VnodeLocks τ) where
  balanced := fun _ _ mode => by cases mode <;> rfl
  pointer := fun _ => rfl
  node := fun _ _ data => nomatch data
  fresh := by
    intro vp fresh
    refine ⟨rfl, ?_, rfl⟩
    change (if isTptfs vp then NodeStatus.fresh else .listed) = NodeStatus.fresh at fresh
    split at fresh
    next tptfs => exact tptfs
    next => cases fresh
  hashed := fun _ member => absurd member List.not_mem_nil
  distinct := List.nodup_nil
  indexed := fun _ _ data => nomatch data
  doomedBy := fun _ _ _ data => nomatch data
  claimed := fun _ _ _ member => absurd member (Multiset.notMem_zero _)
  stages := fun _ => trivial

end VnodeLocks

end Tptfs
