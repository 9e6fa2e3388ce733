import LearningKernels.Tptfs.VnodeHoldSteps

/-!
# The holds on lower vnodes in every run

The ledger is kept by every event. So the lower vnode is held while a thread is in its lock
operations, and when all calls have returned no hold is left over.
-/

namespace Tptfs

open Machine

namespace VnodeLocks

variable {τ : Type} [DecidableEq τ] [Fintype τ] {isTptfs : VnodeId → Bool}
  {locks after : VnodeLocks τ} {thread : τ} {answer : LockAnswer} {xp : TptNode}

namespace Counted

variable (count : Counted locks)

include count

/-- **Every step keeps the ledger.** -/
theorem advance_counted (inv : Coherent isTptfs locks)
    (ran : locks.advance thread answer = some after) : Counted after := by
  cases standing : locks.stage thread with
  | idle =>
      simp only [advance, standing] at ran
      cases ran
  | enter ask => exact count.enter_counted standing ran
  | lower ask lvp => exact count.lower_counted standing ran
  | lowerWait ask lvp =>
      simp only [advance, standing] at ran
      split at ran
      next =>
        cases ran
        exact count.paces standing rfl (fun _ => id) (fun _ => id)
      next =>
        obtain ⟨middle, took, ran⟩ := Option.bind_eq_some_iff.mp ran
        obtain ⟨vLock, rfl⟩ := take_only took
        cases ran
        exact count.paces standing rfl (fun _ => id) (fun _ => id)
  | recheck ask lvp =>
      simp only [advance, standing] at ran
      split at ran
      next =>
        cases ran
        exact count.paces standing rfl (fun _ => id) (fun _ => id)
      next =>
        split at ran
        next =>
          cases ran
          exact count.paces standing rfl (fun _ => id) (fun _ => id)
        next =>
          cases ran
          exact count.paces standing rfl (fun _ => id) (fun _ => id)
        next =>
          cases ran
          exact count.paces standing rfl (fun _ => id) (fun _ => id)
        next => cases ran
  | relock ask lvp =>
      simp only [advance, standing] at ran
      obtain ⟨middle, gave, ran⟩ := Option.bind_eq_some_iff.mp ran
      obtain ⟨vLock, rfl⟩ := give_only gave
      cases ran
      exact count.paces standing (Multiset.singleton_add lvp _) (fun _ => id) (fun _ => id)
  | std ask lvp => exact count.std_counted standing ran
  | stdWait ask lock lvp => exact count.stdWait_counted standing ran
  | vdrop ask lvp locked =>
      simp only [advance, standing] at ran
      cases ran
      exact count.lets standing rfl fun _ => Iff.rfl
  | done ask locked => exact count.done_counted standing ran
  | unlock vp mode => exact count.unlock_counted standing ran
  | unlockLower lvp mode =>
      simp only [advance, standing] at ran
      obtain ⟨middle, gave, ran⟩ := Option.bind_eq_some_iff.mp ran
      obtain ⟨vLock, rfl⟩ := give_only gave
      cases ran
      exact count.paces standing rfl (fun _ => id) (fun _ => id)
  | unlockDrop lvp =>
      simp only [advance, standing] at ran
      cases ran
      exact count.lets standing rfl fun _ => Iff.rfl
  | hashget mp lowervp mode => exact count.hashget_counted standing ran
  | upgrade mp lowervp =>
      simp only [advance, standing] at ran
      obtain ⟨⟨middle, granted⟩, called, ran⟩ := Option.bind_eq_some_iff.mp ran
      obtain ⟨vLock, rfl⟩ := lockmgr_only called
      cases granted with
      | true =>
          cases ran
          exact count.paces standing rfl (fun _ => id) (fun _ => id)
      | false =>
          cases ran
          exact count.paces standing rfl (fun _ => id) (fun _ => id)
  | upgradeWait mp lowervp =>
      simp only [advance, standing] at ran
      obtain ⟨middle, took, ran⟩ := Option.bind_eq_some_iff.mp ran
      obtain ⟨vLock, rfl⟩ := take_only took
      cases ran
      exact count.paces standing rfl (fun _ => id) (fun _ => id)
  | doomedCheck mp lowervp =>
      simp only [advance, standing] at ran
      split at ran
      next =>
        cases ran
        exact count.paces standing rfl (fun _ => id) (fun _ => id)
      next =>
        cases ran
        exact count.paces standing rfl (fun _ => id) (fun _ => id)
  | getnewvnode mp lowervp direct => exact count.getnewvnode_counted standing ran
  | vputLower lowervp =>
      simp only [advance, standing] at ran
      obtain ⟨middle, gave, ran⟩ := Option.bind_eq_some_iff.mp ran
      obtain ⟨vLock, rfl⟩ := give_only gave
      cases ran
      exact count.lets standing rfl fun _ => Iff.rfl
  | insmntque xp direct => exact count.insmntque_counted standing ran
  | destructor xp => exact count.destructor_counted inv standing ran
  | hashins xp direct => exact count.hashins_counted standing ran
  | lost xp ovp => exact count.lost_counted inv standing ran
  | hashrem xp how => exact count.hashrem_counted inv standing ran
  | ownLock xp how =>
      simp only [advance, standing] at ran
      obtain ⟨middle, took, ran⟩ := Option.bind_eq_some_iff.mp ran
      obtain ⟨vLock, rfl⟩ := take_only took
      cases ran
      exact count.stays standing rfl fun _ => Iff.rfl
  | clear xp how =>
      simp only [advance, standing] at ran
      cases ran
      exact count.stays standing rfl fun _ => Iff.rfl
  | cleared xp how => exact count.cleared_counted inv standing ran
  | vreleLower xp => exact count.vreleLower_counted inv standing ran
  | unlockOwn xp how =>
      simp only [advance, standing] at ran
      obtain ⟨middle, gave, ran⟩ := Option.bind_eq_some_iff.mp ran
      obtain ⟨vLock, rfl⟩ := give_only gave
      cases how
      all_goals
        cases ran
        exact count.paces standing rfl (fun _ => id) (fun _ => id)
  | passed op vp lvp mode =>
      simp only [advance, standing] at ran
      split at ran
      next =>
        obtain ⟨middle, gave, ran⟩ := Option.bind_eq_some_iff.mp ran
        obtain ⟨vLock, rfl⟩ := give_only gave
        cases ran
        cases op with
        | lookup => exact count.paces standing rfl (fun _ => id) (fun _ => id)
        | bypass => exact count.paces standing rfl (fun _ => id) (fun _ => id)
      next => exact count.passBack_counted standing ran
  | passedOut op vp lvp mode =>
      simp only [advance, standing] at ran
      obtain ⟨middle, took, ran⟩ := Option.bind_eq_some_iff.mp ran
      obtain ⟨vLock, rfl⟩ := take_only took
      cases ran
      cases op with
      | lookup => exact count.paces standing rfl (fun _ => id) (fun _ => id)
      | bypass => exact count.paces standing rfl (fun _ => id) (fun _ => id)

/-- The spare reference passes from the caller of `tpt_nodeget` to the call. -/
theorem nodeget_counted {owned : τ → Multiset (VnodeId × LockMode)} {mp : MountId}
    {lowervp : VnodeId} {mode : LockMode}
    (idle : locks.stage thread = .idle) (spare : 0 < locks.outside lowervp) :
    Counted { locks with
      owned
      outside := Function.update locks.outside lowervp (locks.outside lowervp - 1)
      stage := Function.update locks.stage thread (.hashget mp lowervp mode) } := by
  have others : ∀ other node,
      (Function.update locks.stage thread (.hashget mp lowervp mode) other).Refers node ↔
        (locks.stage other).Refers node := by
    intro other node
    by_cases mine : other = thread
    · subst mine
      rw [Function.update_self, idle]
      exact Iff.rfl
    · rw [Function.update_of_ne mine]
  refine ⟨?_, count.distinct, count.shown, count.hashed, ?_, ?_⟩
  · intro vp
    have before := count.counted vp
    have summed := @sum_held τ _ locks thread _ (.hashget mp lowervp mode) _ idle vp
    have held : (LockStage.hashget mp lowervp mode).held.count vp =
        if vp = lowervp then 1 else 0 := Multiset.count_singleton ..
    have nothing : LockStage.idle.held.count vp = 0 := rfl
    rw [held, nothing] at summed
    change locks.holdCount vp =
      (Function.update locks.outside lowervp (locks.outside lowervp - 1) vp : Nat) +
        (∑ other, (Function.update locks.stage thread _ other).held.count vp : Nat) +
          references locks.live vp
    rw [Function.update_apply]
    split
    next here =>
      subst here
      rw [if_pos rfl] at summed
      omega
    next elsewhere =>
      rw [if_neg elsewhere] at summed
      omega
  · exact fun other node referred => count.refers other node ((others other node).mp referred)
  · intro node member
    exact (count.known node member).imp_right fun ⟨other, referred⟩ =>
      ⟨other, (others other node).mpr referred⟩

theorem start_counted (idle : locks.stage thread = .idle) {call : LockCall}
    (ran : locks.start isTptfs thread call = some after) : Counted after := by
  cases call with
  | lock vp request =>
      simp only [start] at ran
      split at ran
      next =>
        cases tptfs : isTptfs vp
        all_goals
          rw [tptfs] at ran
          cases start : request.from with
          | none =>
              rw [start] at ran
              cases ran
              exact count.paces idle rfl (fun _ => id) (fun _ => id)
          | some mode =>
              rw [start] at ran
              obtain ⟨-, rfl⟩ := enterWith_eq_some ran
              exact count.paces idle rfl (fun _ => id) (fun _ => id)
      next => cases ran
  | unlock vp mode =>
      obtain ⟨-, rfl⟩ := enterWith_eq_some ran
      exact count.paces idle rfl (fun _ => id) (fun _ => id)
  | nodeget mp lowervp mode =>
      simp only [start] at ran
      split at ran
      next spare =>
        obtain ⟨-, rfl⟩ := enterWith_eq_some ran
        exact count.nodeget_counted idle spare.2
      next => cases ran
  | vgone vp =>
      simp only [start] at ran
      split at ran
      next =>
        obtain ⟨-, rfl⟩ := enterWith_eq_some ran
        exact count.paces idle rfl (fun _ => id) (fun _ => id)
      next => cases ran
  | reclaimLowervp mp lowervp =>
      simp only [start] at ran
      split at ran
      next =>
        obtain ⟨-, rfl⟩ := enterWith_eq_some ran
        exact count.paces idle rfl (fun _ => id) (fun _ => id)
      next =>
        cases ran
        exact count
  | unlinkLowervp mp lowervp last =>
      simp only [start] at ran
      split at ran
      next =>
        split at ran
        next =>
          obtain ⟨-, rfl⟩ := enterWith_eq_some ran
          exact count.paces idle rfl (fun _ => id) (fun _ => id)
        next =>
          cases ran
          exact count
      next =>
        cases ran
        exact count
  | pass op vp mode =>
      simp only [start] at ran
      split at ran
      next =>
        cases op with
        | lookup =>
            obtain ⟨-, rfl⟩ := enterWith_eq_some ran
            exact count.holds idle rfl fun _ => Iff.rfl
        | bypass =>
            obtain ⟨-, rfl⟩ := enterWith_eq_some ran
            exact count.paces idle rfl (fun _ => id) (fun _ => id)
      next => cases ran

theorem step_counted (inv : Coherent isTptfs locks) {event : LockEvent τ}
    (ran : locks.step isTptfs event = some after) : Counted after := by
  cases event with
  | call thread call =>
      simp only [step] at ran
      split at ran
      next idle => exact count.start_counted idle ran
      next => cases ran
  | run thread answer => exact count.advance_counted inv ran
  | vhold vp =>
      cases ran
      refine ⟨fun other => ?_, count.distinct, count.shown, count.hashed, count.refers,
        count.known⟩
      have before := count.counted other
      simp only [vhold, addAt, Function.update_apply]
      split
      next here =>
        subst here
        omega
      next => exact before
  | vdrop vp =>
      simp only [step] at ran
      split at ran
      next some =>
        cases ran
        refine ⟨fun other => ?_, count.distinct, count.shown, count.hashed, count.refers,
          count.known⟩
        have before := count.counted other
        simp only [vdrop, addAt, Function.update_apply]
        split
        next here =>
          subst here
          omega
        next => exact before
      next => cases ran

theorem run_counted (inv : Coherent isTptfs locks) {events : List (LockEvent τ)}
    (ran : locks.run isTptfs events = some after) : Counted after := by
  induction events generalizing locks with
  | nil =>
      cases ran
      exact count
  | cons event rest ih =>
      obtain ⟨next, stepped, ran⟩ := Option.bind_eq_some_iff.mp ran
      exact ih (count.step_counted inv stepped) (inv.step_keeps stepped) ran

end Counted

omit [DecidableEq τ] in
theorem counted_initial (outside : VnodeId → Nat) :
    Counted (initial isTptfs outside : VnodeLocks τ) where
  counted := by
    intro vp
    simp [initial, references, LockStage.held]
  distinct := List.nodup_nil
  shown := fun _ member => absurd member List.not_mem_nil
  hashed := fun _ member => absurd member List.not_mem_nil
  refers := fun _ _ => False.elim
  known := fun _ member => absurd member List.not_mem_nil

omit [DecidableEq τ] in
/-- A vnode that a call holds has a positive count. -/
theorem Counted.held_pos (count : Counted locks) {lvp : VnodeId}
    (held : lvp ∈ (locks.stage thread).held) : 0 < locks.holdCount lvp := by
  have own : 0 < (locks.stage thread).held.count lvp := Multiset.count_pos.mpr held
  have all : (locks.stage thread).held.count lvp ≤ ∑ other, (locks.stage other).held.count lvp :=
    Finset.single_le_sum (fun other _ => Nat.zero_le ((locks.stage other).held.count lvp))
      (Finset.mem_univ thread)
  have counted := count.counted lvp
  omega

omit [DecidableEq τ] in
/-- The lower vnode of a node with a reference has a positive count. -/
theorem Counted.live_pos (count : Counted locks) (member : xp ∈ locks.live) :
    0 < locks.holdCount xp.tptLowervp := by
  have some : 0 < references locks.live xp.tptLowervp :=
    List.countP_pos_iff.mpr ⟨xp, member, decide_eq_true rfl⟩
  have counted := count.counted xp.tptLowervp
  omega

/-- The lower vnode of a listed vnode has a positive count, by the reference of its node or of
the node that won over it. -/
theorem Counted.listed_pos (count : Counted locks) (inv : Coherent isTptfs locks) {vp : VnodeId}
    (data : locks.vData vp = some xp) (listed : locks.status vp = .listed) :
    0 < locks.holdCount xp.tptLowervp := by
  obtain hashed | ⟨worker, working⟩ := inv.indexed vp xp data listed
  · exact count.live_pos (count.hashed xp hashed)
  · obtain rfl := (inv.node vp xp data).1
    by_cases referred : (locks.stage worker).Refers xp
    · exact count.live_pos (count.refers worker xp referred)
    · -- the call has lost against another node, which stays as long as the lower lock is held
      have claimed := inv.works_claims working listed
      obtain ⟨ovp, beside⟩ := inv.beside_of_works working referred listed
      obtain ⟨different, shown, node, noded, below⟩ := beside
      rw [← below]
      obtain hashed | ⟨another, handling⟩ := inv.indexed ovp node noded shown
      · exact count.live_pos (count.hashed node hashed)
      · obtain rfl := (inv.node ovp node noded).1
        have theirs := inv.works_claims handling shown
        rw [below] at theirs
        obtain ⟨rfl, -⟩ := inv.balanced.alone claimed theirs
        obtain rfl := LockStage.works_unique working handling
        exact absurd rfl different

section Runs

variable {outside : VnodeId → Nat} {history : List (LockEvent τ)}

/-- The lower vnode is held while a thread is in its lock operations, also when the alias is
reclaimed meanwhile, and `vholdnz` gets a vnode that somebody holds. -/
theorem lower_vnode_held
    (began : (initial isTptfs outside : VnodeLocks τ).run isTptfs history = some locks) :
    (∀ thread lvp, (locks.stage thread).Inside lvp → 0 < locks.holdCount lvp) ∧
    (∀ thread ask xp, locks.stage thread = .enter ask → locks.vData ask.vp = some xp →
      0 < locks.holdCount xp.tptLowervp) ∧
    ∀ thread vp mode xp, locks.stage thread = .unlock vp mode → locks.vData vp = some xp →
      0 < locks.holdCount xp.tptLowervp := by
  have inv := coherent_of_run began
  have count := (counted_initial outside).run_counted (coherent_initial outside) began
  refine ⟨fun thread lvp inside => count.held_pos inside.held, ?_, ?_⟩
  · intro thread ask xp standing data
    have known := inv.stages thread
    rw [standing] at known
    exact count.listed_pos inv data known.1.1
  · intro thread vp mode xp standing data
    have claimed : (vp, mode) ∈ locks.asserted thread := by
      rw [asserted, standing]
      exact Multiset.mem_add.mpr (.inr (Multiset.mem_singleton_self _))
    refine count.listed_pos inv data ((inv.claimed thread vp mode claimed).2 ?_)
    rw [data]
    exact Option.some_ne_none xp

theorem lower_vnode_held_asked : ∃ locks,
    (initial fromTen (fun _ => 1) : VnodeLocks Bool).run fromTen (aliasMade ++ aliasAsked) =
      some locks ∧ (locks.stage true).Inside 1 ∧ 0 < locks.holdCount 1 :=
  ⟨_, rfl, rfl, (@lower_vnode_held Bool _ _ fromTen _ (fun _ => 1) (aliasMade ++ aliasAsked)
    rfl).1 true 1 rfl⟩

/-- When all calls have returned, the holds on a vnode are those of the rest of the kernel and
one for each alias of it in the hash. The count merges hold counts and use counts. -/
theorem holds_at_rest
    (began : (initial isTptfs outside : VnodeLocks τ).run isTptfs history = some locks)
    (rest : ∀ thread, locks.stage thread = .idle) (vp : VnodeId) :
    locks.holdCount vp =
      locks.outside vp + locks.hash.countP (fun xp => vp = xp.tptLowervp) := by
  have inv := coherent_of_run began
  have count := (counted_initial outside).run_counted (coherent_initial outside) began
  have same : locks.live.Perm locks.hash := by
    refine (List.perm_ext_iff_of_nodup count.distinct inv.distinct).mpr fun xp => ?_
    refine ⟨fun member => ?_, count.hashed xp⟩
    obtain hashed | ⟨thread, referred⟩ := count.known xp member
    · exact hashed
    · rw [rest thread] at referred
      exact referred.elim
  have counted := count.counted vp
  have nothing : (∑ thread, (locks.stage thread).held.count vp) = 0 := by
    refine Finset.sum_eq_zero fun thread _ => ?_
    rw [rest thread]
    rfl
  rw [nothing, references, same.countP_eq] at counted
  omega

theorem holds_at_rest_made : ∃ locks,
    (initial fromTen (fun _ => 1) : VnodeLocks Bool).run fromTen aliasMade = some locks ∧
      locks.holdCount 1 =
        locks.outside 1 + locks.hash.countP (fun xp => 1 = xp.tptLowervp) :=
  ⟨_, rfl, @holds_at_rest Bool _ _ fromTen _ (fun _ => 1) aliasMade rfl
    (fun thread => by cases thread <;> rfl) 1⟩

end Runs

end VnodeLocks

end Tptfs
