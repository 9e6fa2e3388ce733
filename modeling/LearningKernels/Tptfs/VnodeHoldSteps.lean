import LearningKernels.Tptfs.VnodeHolds

/-!
# The steps that hold and drop lower vnodes

How each step of the calls changes the holds of its thread, the references of the nodes and the
count together.
-/

namespace Tptfs

open Machine

namespace VnodeLocks

variable {τ : Type} [DecidableEq τ] [Fintype τ] {isTptfs : VnodeId → Bool}
  {locks after : VnodeLocks τ} {thread : τ} {answer : LockAnswer} {xp : TptNode}

namespace Counted

variable (count : Counted locks)

include count

section Lock

variable {ask : LockAsk} {lvp : VnodeId} {locked : Bool}

theorem enter_counted (standing : locks.stage thread = .enter ask)
    (ran : locks.advance thread answer = some after) : Counted after := by
  simp only [advance, standing] at ran
  split at ran
  next xp data =>
    cases ran
    exact count.holds standing rfl fun _ => Iff.rfl
  next =>
    cases ran
    exact count.paces standing (zero_add _) (fun _ => id) (fun _ => id)

theorem lower_counted (standing : locks.stage thread = .lower ask lvp)
    (ran : locks.advance thread answer = some after) : Counted after := by
  simp only [advance, standing] at ran
  obtain ⟨⟨middle, granted⟩, called, ran⟩ := Option.bind_eq_some_iff.mp ran
  obtain ⟨vLock, rfl⟩ := lockmgr_only called
  cases granted with
  | true =>
      cases ran
      exact count.paces standing rfl (fun _ => id) (fun _ => id)
  | false =>
      cases ran
      exact count.paces standing rfl (fun _ => id) (fun _ => id)

theorem std_counted {lower : Option VnodeId} (standing : locks.stage thread = .std ask lower)
    (ran : locks.advance thread answer = some after) : Counted after := by
  simp only [advance, standing] at ran
  obtain ⟨⟨middle, granted⟩, called, ran⟩ := Option.bind_eq_some_iff.mp ran
  obtain ⟨vLock, rfl⟩ := lockmgr_only called
  cases granted with
  | true =>
      cases ran
      obtain ⟨same, still⟩ := afterStd_held ask lower true
      exact count.paces standing same (fun _ => id) still
  | false =>
      cases ran
      exact count.paces standing rfl (fun _ => id) (fun _ => id)

theorem stdWait_counted {lock : VnodeId} {lower : Option VnodeId}
    (standing : locks.stage thread = .stdWait ask lock lower)
    (ran : locks.advance thread answer = some after) : Counted after := by
  simp only [advance, standing] at ran
  split at ran
  next =>
    cases ran
    obtain ⟨same, still⟩ := afterStd_held ask lower false
    exact count.paces standing same (fun _ => id) still
  next =>
    obtain ⟨middle, took, ran⟩ := Option.bind_eq_some_iff.mp ran
    obtain ⟨vLock, rfl⟩ := take_only took
    cases ran
    obtain ⟨same, still⟩ := afterStd_held ask lower true
    exact count.paces standing same (fun _ => id) still

/-- The end of `tpt_lock`, where the vnode that its caller holds is dropped. -/
theorem done_counted (standing : locks.stage thread = .done ask locked)
    (ran : locks.advance thread answer = some after) : Counted after := by
  simp only [advance, standing] at ran
  cases ran
  unfold done
  split
  next => exact count.paces standing rfl (fun _ => id) (fun _ => id)
  next =>
    unfold dropOuter
    cases outer : ask.outer with
    | none =>
        have nothing : (LockStage.done ask locked).held = 0 := by
          rw [LockStage.held, LockAsk.held, outer]
          rfl
        cases locked with
        | true => exact count.paces standing nothing.symm (fun _ => id) (fun _ => id)
        | false => exact count.paces standing nothing.symm (fun _ => id) (fun _ => id)
    | some vp =>
        have only : (LockStage.done ask locked).held = vp ::ₘ LockStage.idle.held := by
          rw [LockStage.held, LockAsk.held, outer]
          rfl
        cases locked with
        | true => exact count.lets standing only fun _ => Iff.rfl
        | false => exact count.lets standing only fun _ => Iff.rfl

end Lock

section Nodes

variable (inv : Coherent isTptfs locks)

theorem unlock_counted {vp : VnodeId} {mode : LockMode}
    (standing : locks.stage thread = .unlock vp mode)
    (ran : locks.advance thread answer = some after) : Counted after := by
  simp only [advance, standing] at ran
  split at ran
  next xp data =>
    cases ran
    exact count.holds standing rfl fun _ => Iff.rfl
  next =>
    obtain ⟨middle, gave, ran⟩ := Option.bind_eq_some_iff.mp ran
    obtain ⟨vLock, rfl⟩ := give_only gave
    cases ran
    exact count.paces standing rfl (fun _ => id) (fun _ => id)

theorem hashget_counted {mp : MountId} {lowervp : VnodeId} {mode : LockMode}
    (standing : locks.stage thread = .hashget mp lowervp mode)
    (ran : locks.advance thread answer = some after) : Counted after := by
  simp only [advance, standing] at ran
  split at ran
  next =>
    cases ran
    exact count.lets standing rfl fun _ => Iff.rfl
  next =>
    cases mode with
    | shared =>
        cases ran
        exact count.paces standing rfl (fun _ => id) (fun _ => id)
    | exclusive =>
        cases ran
        exact count.paces standing rfl (fun _ => id) (fun _ => id)

/-- The spare reference passes from the call to the new node. -/
theorem makeNode_counted {mp : MountId} {lowervp vp : VnodeId} {direct : Bool}
    (standing : locks.stage thread = .getnewvnode mp lowervp direct)
    (fresh : locks.status vp = .fresh) :
    Counted ((locks.makeNode thread ⟨lowervp, vp, mp⟩).goto thread
      (.insmntque ⟨lowervp, vp, mp⟩ direct)) := by
  have unseen : ∀ node ∈ locks.live, node.tptVnode ≠ vp := by
    rintro node member rfl
    exact count.shown node member fresh
  have kept : ∀ other node, other ≠ thread → (locks.stage other).Refers node →
      (Function.update locks.stage thread (.insmntque ⟨lowervp, vp, mp⟩ direct) other).Refers
        node := by
    intro other node different referred
    rwa [Function.update_of_ne different]
  refine ⟨?_, List.nodup_cons.mpr ⟨fun member => unseen _ member rfl, count.distinct⟩, ?_, ?_, ?_,
    ?_⟩
  · intro other
    have before := count.counted other
    have summed := @sum_held τ _ locks thread _ (.insmntque ⟨lowervp, vp, mp⟩ direct) _ standing
      other
    change locks.holdCount other = locks.outside other +
      (∑ third, (Function.update locks.stage thread _ third).held.count other : Nat) +
        references (⟨lowervp, vp, mp⟩ :: locks.live) other
    rw [references_cons]
    have spare : (LockStage.getnewvnode mp lowervp direct).held.count other =
        if other = lowervp then 1 else 0 := Multiset.count_singleton ..
    have nothing : (LockStage.insmntque ⟨lowervp, vp, mp⟩ direct).held.count other = 0 := rfl
    rw [spare, nothing] at summed
    simp only
    omega
  · intro node member
    obtain rfl | earlier := List.mem_cons.mp member
    · exact (Function.update_self ..).trans_ne nofun
    · exact (Function.update_of_ne (unseen node earlier) _ _).trans_ne (count.shown node earlier)
  · exact fun node hashed => List.mem_cons_of_mem _ (count.hashed node hashed)
  · intro other node referred
    by_cases mine : other = thread
    · subst mine
      rw [stage_goto] at referred
      cases referred
      exact List.mem_cons_self
    · refine List.mem_cons_of_mem _ (count.refers other node ?_)
      exact (Function.update_of_ne mine _ locks.stage) ▸ referred
  · intro node member
    obtain rfl | earlier := List.mem_cons.mp member
    · refine .inr ⟨thread, ?_⟩
      rw [stage_goto]
      rfl
    · obtain hashed | ⟨other, referred⟩ := count.known node earlier
      · exact .inl hashed
      · refine .inr ⟨other, kept other node ?_ referred⟩
        rintro rfl
        rw [standing] at referred
        exact referred

theorem getnewvnode_counted {mp : MountId} {lowervp : VnodeId} {direct : Bool}
    (standing : locks.stage thread = .getnewvnode mp lowervp direct)
    (ran : locks.advance thread answer = some after) : Counted after := by
  simp only [advance, standing] at ran
  split at ran
  next =>
    cases ran
    exact count.paces standing rfl (fun _ => id) (fun _ => id)
  next =>
    split at ran
    next fresh =>
      cases ran
      exact count.makeNode_counted standing fresh
    next => cases ran

theorem insmntque_counted {direct : Bool} (standing : locks.stage thread = .insmntque xp direct)
    (ran : locks.advance thread answer = some after) : Counted after := by
  simp only [advance, standing] at ran
  split at ran
  next =>
    cases ran
    exact count.stays standing rfl fun _ => Iff.rfl
  next =>
    cases ran
    refine count.moves standing rfl rfl rfl (fun _ => rfl) ?_ (fun _ member => .inl member)
      (fun _ member => .inl member) (fun _ referred => .inl referred)
      (fun _ referred => .inl referred)
    intro vp shown
    by_cases same : vp = xp.tptVnode
    · subst same
      exact (Function.update_self ..).trans_ne (by rintro ⟨⟩)
    · exact (Function.update_of_ne same _ _).trans_ne shown

theorem hashins_counted {direct : Bool} (standing : locks.stage thread = .hashins xp direct)
    (ran : locks.advance thread answer = some after) : Counted after := by
  simp only [advance, standing] at ran
  split at ran
  next =>
    cases ran
    exact count.stays standing rfl fun _ => Iff.rfl
  next =>
    cases ran
    refine count.moves standing rfl rfl rfl (fun _ => rfl) (fun _ shown => shown) ?_
      (fun _ member => .inl (List.mem_cons_of_mem xp member)) (fun _ => False.elim) ?_
    · intro node member
      obtain rfl | earlier := List.mem_cons.mp member
      · exact .inr rfl
      · exact .inl earlier
    · rintro node rfl
      exact .inr List.mem_cons_self

include inv

theorem hashrem_counted {how : Retire} (standing : locks.stage thread = .hashrem xp how)
    (ran : locks.advance thread answer = some after) : Counted after := by
  have known := inv.stages thread
  rw [standing] at known
  obtain ⟨-, member, called, -⟩ := known
  simp only [advance, standing, if_pos member] at ran
  cases ran
  refine count.moves standing rfl rfl rfl (fun _ => rfl) (fun _ shown => shown)
    (fun _ left => .inl (List.mem_of_mem_erase left)) ?_ ?_ (fun _ => False.elim)
  · intro node earlier
    by_cases same : node = xp
    · exact .inr ⟨same.symm, called⟩
    · exact .inl ((List.mem_erase_of_ne same).mpr earlier)
  · rintro node ⟨rfl, -⟩
    exact .inr member

theorem destructor_counted (standing : locks.stage thread = .destructor xp)
    (ran : locks.advance thread answer = some after) : Counted after := by
  simp only [advance, standing] at ran
  obtain ⟨middle, gave, ran⟩ := Option.bind_eq_some_iff.mp ran
  obtain ⟨vLock, rfl⟩ := give_only gave
  cases ran
  refine count.drops inv standing rfl rfl ?_ fun _ same => same.symm
  rintro node ⟨-, called⟩
  obtain called | called := called
  all_goals cases called

theorem lost_counted {ovp : VnodeId} (standing : locks.stage thread = .lost xp ovp)
    (ran : locks.advance thread answer = some after) : Counted after := by
  simp only [advance, standing] at ran
  cases ran
  refine count.drops inv standing rfl rfl ?_ fun _ same => same.symm
  rintro node ⟨-, called⟩
  obtain called | called := called
  all_goals cases called

theorem cleared_counted {how : Retire} (standing : locks.stage thread = .cleared xp how)
    (ran : locks.advance thread answer = some after) : Counted after := by
  simp only [advance, standing] at ran
  have unreferred : ∀ its : Retire, its ≠ .vgone → its ≠ .lowervp →
      ∀ node, ¬ (LockStage.cleared xp its).Refers node := by
    rintro its other another node ⟨-, called⟩
    exact called.elim other another
  cases how with
  | vgone =>
      obtain ⟨middle, gave, ran⟩ := Option.bind_eq_some_iff.mp ran
      obtain ⟨vLock, rfl⟩ := give_only gave
      cases ran
      exact count.stays standing rfl fun _ =>
        ⟨fun same => ⟨same, .inl rfl⟩, fun referred => referred.1⟩
  | lowervp =>
      cases ran
      exact count.drops inv standing ⟨rfl, rfl⟩ rfl (fun _ => id) fun _ referred =>
        referred.1.symm
  | lost ovp =>
      cases ran
      exact count.paces standing rfl (unreferred _ (by rintro ⟨⟩) (by rintro ⟨⟩)) (fun _ => id)
  | failed =>
      cases ran
      exact count.paces standing rfl (unreferred _ (by rintro ⟨⟩) (by rintro ⟨⟩)) (fun _ => id)

theorem vreleLower_counted (standing : locks.stage thread = .vreleLower xp)
    (ran : locks.advance thread answer = some after) : Counted after := by
  simp only [advance, standing] at ran
  cases ran
  exact count.drops inv standing rfl rfl (fun _ => id) fun _ same => same.symm

omit inv in
theorem passBack_counted {op : Passed} {vp lvp : VnodeId} {mode : LockMode} {error : Int}
    (standing : locks.stage thread = .passed op vp lvp mode)
    (ran : locks.passBack thread op vp lvp mode error = some after) : Counted after := by
  cases op with
  | lookup =>
      simp only [passBack] at ran
      split at ran
      next =>
        obtain ⟨middle, gave, ran⟩ := Option.bind_eq_some_iff.mp ran
        obtain ⟨vLock, rfl⟩ := give_only gave
        cases ran
        exact count.paces standing rfl (fun _ => id) (fun _ => id)
      next =>
        cases ran
        exact count.lets standing rfl fun _ => Iff.rfl
  | bypass =>
      simp only [passBack] at ran
      split at ran
      next =>
        obtain ⟨middle, gave, ran⟩ := Option.bind_eq_some_iff.mp ran
        obtain ⟨vLock, rfl⟩ := give_only gave
        cases ran
        exact count.paces standing rfl (fun _ => id) (fun _ => id)
      next =>
        cases ran
        exact count.paces standing rfl (fun _ => id) (fun _ => id)

end Nodes

end Counted

end VnodeLocks

end Tptfs
