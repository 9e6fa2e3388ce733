import LearningKernels.Tptfs.VnodeLockNodes

/-!
# Nodes in the hash, and out of it

The steps that put a node into the hash, take it out and clear it. The one that clears it moves
`v_vnlock` under the other threads, and nobody relies on it.
-/

namespace Tptfs

open Machine

namespace VnodeLocks

variable {τ : Type} [DecidableEq τ] {isTptfs : VnodeId → Bool} {locks after : VnodeLocks τ}
  {thread other : τ} {answer : LockAnswer} {xp : TptNode}

namespace Coherent

variable (inv : Coherent isTptfs locks)

include inv

/-- Nobody else has the lock of a vnode that a thread has locked exclusively. -/
theorem nobody_else (claimed : (xp.tptLowervp, .exclusive) ∈ locks.claims thread)
    (different : other ≠ thread) (mode : LockMode) :
    (xp.tptLowervp, mode) ∉ locks.claims other :=
  fun held => different (inv.balanced.alone claimed held).1

/-- `tpt_hashins` finds no other alias, and `tpt_nodeget` returns the new one. -/
theorem inserted_keeps {direct : Bool} (standing : locks.stage thread = .hashins xp direct) :
    Coherent isTptfs
      ({ locks with hash := xp :: locks.hash }.own thread xp.tptVnode .exclusive) := by
  have known := inv.stages thread
  rw [standing] at known
  obtain ⟨detached, listed, -⟩ := known
  have plain := inv.plain_below detached.1
  have claimed : (xp.tptLowervp, .exclusive) ∈ locks.claims thread := by
    refine inv.works_claims ?_ listed
    rw [standing]
    rfl
  have grown : Grown locks
      ({ locks with hash := xp :: locks.hash }.own thread xp.tptVnode .exclusive) :=
    ⟨fun _ listed => listed, fun _ shown => shown, fun _ data _ => data, fun _ doomed => doomed⟩
  refine inv.changed thread grown ?_ (fun other apart => Function.update_of_ne apart _ _)
    (fun other apart => Function.update_of_ne apart _ _) ?_ ?_ ?_ inv.pointer inv.node inv.fresh ?_
    ?_ ?_ ?_
  · intro other different
    refine ⟨grown, fun _ hidden => hidden, fun _ _ data => .inl data, ?_,
      fun _ member => .inl (List.mem_cons_of_mem xp member)⟩
    intro node member
    obtain rfl | earlier := List.mem_cons.mp member
    · exact .inr ⟨listed, inv.nobody_else claimed different⟩
    · exact .inl earlier
  · rw [asserted_own]
    intro claim member
    obtain rfl | earlier := Multiset.mem_cons.mp member
    · exact .inr (claimable_of_listed listed)
    · exact .inl earlier
  · rw [stage_own]
    trivial
  · have shared : locks.vVnlock xp.tptVnode = locks.vVnlock xp.tptLowervp := by
      rw [inv.vVnlock_some detached.1, inv.vVnlock_plain plain]
    rw [claims_own]
    refine inv.still standing ?_
    change Multiset.cons (locks.vVnlock xp.tptVnode, LockMode.exclusive) 0 = _
    rw [shared]
    rfl
  · intro node member
    obtain rfl | earlier := List.mem_cons.mp member
    · exact ⟨detached.1, listed⟩
    · exact inv.hashed node earlier
  · exact List.nodup_cons.mpr ⟨detached.2, inv.distinct⟩
  · intro vp node data shown
    by_cases new : xp = node
    · subst new
      exact .inl List.mem_cons_self
    · obtain earlier | working := inv.indexed vp node data shown
      · exact .inl (List.mem_cons_of_mem xp earlier)
      · exact .inr (elsewhere (·.Works node) standing new working)
  · intro vp node doomed data
    exact elsewhere (·.Retires node) standing id (inv.doomedBy vp node doomed data)

theorem hashins_keeps {direct : Bool} (standing : locks.stage thread = .hashins xp direct)
    (ran : locks.advance thread answer = some after) : Coherent isTptfs after := by
  have known := inv.stages thread
  rw [standing] at known
  obtain ⟨detached, listed, -⟩ := known
  simp only [advance, standing] at ran
  cases found : locks.search xp.vMount xp.tptLowervp with
  | some node =>
      rw [found] at ran
      cases ran
      exact inv.onward standing (inv.still standing rfl) (fun _ => id) (fun _ => False.elim)
        (claimable_singleton (inv.claimable_plain (inv.plain_below detached.1)))
        ⟨detached, listed, inv.beside_of_search detached found⟩
  | none =>
      rw [found] at ran
      cases ran
      exact inv.inserted_keeps standing

/-- `tpt_hashrem` finds the node. -/
theorem hashrem_keeps {how : Retire} (standing : locks.stage thread = .hashrem xp how)
    (ran : locks.advance thread answer = some after) : Coherent isTptfs after := by
  have known := inv.stages thread
  rw [standing] at known
  obtain ⟨data, member, called, retiring⟩ := known
  have plain := inv.plain_below data
  simp only [advance, standing, if_pos member] at ran
  cases ran
  have marked : locks.doomed xp.tptVnode = true := by
    obtain rfl | rfl := called
    all_goals exact retiring.2
  have claimed : (xp.tptLowervp, .exclusive) ∈ locks.claims thread := by
    have shared : how ≠ .failed := by
      obtain rfl | rfl := called
      all_goals rintro ⟨⟩
    have held := mem_claims standing (how.mem_claims xp shared)
    rwa [inv.vVnlock_plain plain] at held
  have grown : Grown locks
      ({ locks with hash := locks.hash.erase xp }.goto thread (.ownLock xp how)) :=
    ⟨fun _ listed => listed, fun _ shown => shown, fun _ data _ => data, fun _ doomed => doomed⟩
  refine inv.changed thread grown ?_ (fun _ _ => rfl)
    (fun other apart => Function.update_of_ne apart _ _) ?_ ?_ ?_ inv.pointer inv.node inv.fresh ?_
    (inv.distinct.erase xp) ?_ ?_
  · intro other different
    refine ⟨grown, fun _ hidden => hidden, fun _ _ data => .inl data,
      fun _ left => .inl (List.mem_of_mem_erase left), ?_⟩
    intro node earlier
    by_cases same : node = xp
    · subst same
      exact .inr ⟨marked, inv.nobody_else claimed different⟩
    · exact .inl ((List.mem_erase_of_ne same).mpr earlier)
  · rw [asserted_goto]
    intro claim member
    obtain owned | stage := Multiset.mem_add.mp member
    · exact .inl owned
    · exact .inr (grown.claimable (inv.claimable_retire plain claim stage))
  · rw [stage_goto]
    exact ⟨⟨data, fun left => (inv.distinct.mem_erase_iff.mp left).1 rfl⟩, retiring⟩
  · exact inv.balanced.congr (claims_goto standing rfl rfl (fun _ _ _ => rfl) rfl)
  · intro node left
    exact inv.hashed node (List.mem_of_mem_erase left)
  · intro vp node data shown
    by_cases same : node = xp
    · subst same
      refine .inr ⟨thread, ?_⟩
      rw [stage_goto]
      rfl
    · obtain earlier | working := inv.indexed vp node data shown
      · exact .inl ((List.mem_erase_of_ne same).mpr earlier)
      · exact .inr (elsewhere (·.Works node) standing id working)
  · intro vp node doomed data
    by_cases same : xp = node
    · subst same
      refine ⟨thread, ?_⟩
      rw [stage_goto]
      rfl
    · exact elsewhere (·.Retires node) standing same (inv.doomedBy vp node doomed data)

/-- Nobody relies on the lock of an alias that is about to be cleared: the thread holds the
lower lock alone and once, or nobody has seen the alias. -/
theorem unclaimed_clear {how : Retire} (standing : locks.stage thread = .clear xp how) (other : τ)
    (claim : VnodeId × LockMode) (member : claim ∈ locks.asserted other) :
    claim.1 ≠ xp.tptVnode := by
  have known := inv.stages thread
  rw [standing] at known
  obtain ⟨⟨data, -⟩, retiring⟩ := known
  obtain ⟨vp, mode⟩ := claim
  rintro rfl
  have noded : locks.vData xp.tptVnode ≠ none := by
    rw [data]
    exact nofun
  have listed := (inv.claimed other _ mode member).2 noded
  have claimed : (xp.tptLowervp, .exclusive) ∈ locks.claims thread := by
    refine inv.works_claims ?_ listed
    rw [standing]
    rfl
  have held : (xp.tptLowervp, mode) ∈ locks.claims other := by
    have resolved := Multiset.mem_map_of_mem locks.resolve member
    rw [resolve, inv.vVnlock_some data] at resolved
    exact Multiset.mem_add.mpr (.inl resolved)
  obtain ⟨rfl, rfl, once⟩ := inv.balanced.alone claimed held
  -- the claim is one of the thread itself, beside that of its call
  have plain := inv.plain_below data
  have shared : how ≠ .failed := by
    rintro rfl
    change locks.status xp.tptVnode = .hidden other at retiring
    rw [listed] at retiring
    cases retiring
  have ofCall : (xp.tptLowervp, .exclusive) ∈ locks.stageLocks (locks.stage other) := by
    rw [standing]
    have resolved := Multiset.mem_map_of_mem locks.resolve (how.mem_claims xp shared)
    rw [resolve, inv.vVnlock_plain plain] at resolved
    exact Multiset.mem_add.mpr (.inl resolved)
  obtain owned | stage := Multiset.mem_add.mp member
  · have resolved := Multiset.mem_map_of_mem locks.resolve owned
    rw [resolve, inv.vVnlock_some data] at resolved
    have twice := Nat.add_le_add (Multiset.count_pos.mpr resolved) (Multiset.count_pos.mpr ofCall)
    rw [← Multiset.count_add, ← claims_eq, once] at twice
    exact absurd twice (by decide)
  · rw [standing] at stage
    have below : xp.tptVnode = xp.tptLowervp := how.eq_of_mem_claims stage
    have tptfs := (inv.node _ _ data).2.1
    rw [below, plain] at tptfs
    cases tptfs

/-- `tpt_reclaim` and `tpt_destroy_proto` switch the alias over to its own lock, which the
thread has taken. -/
theorem clear_keeps {how : Retire} (standing : locks.stage thread = .clear xp how)
    (ran : locks.advance thread answer = some after) : Coherent isTptfs after := by
  have unclaimed := inv.unclaimed_clear standing
  have known := inv.stages thread
  rw [standing] at known
  obtain ⟨⟨data, out⟩, retiring⟩ := known
  simp only [advance, standing] at ran
  cases ran
  have plain := inv.plain_below data
  have below : xp.tptLowervp ≠ xp.tptVnode := by
    intro same
    have tptfs := (inv.node _ _ data).2.1
    rw [← same, plain] at tptfs
    cases tptfs
  have shown : locks.status xp.tptVnode ≠ .fresh := by
    intro fresh
    rw [(inv.fresh _ fresh).1] at data
    cases data
  have others : ∀ vp node, Function.update locks.vData xp.tptVnode none vp = some node →
      vp ≠ xp.tptVnode ∧ locks.vData vp = some node := by
    intro vp node now
    by_cases same : vp = xp.tptVnode
    · subst same
      rw [Function.update_self] at now
      cases now
    · exact ⟨same, (Function.update_of_ne same _ _).symm.trans now⟩
  have grown : Grown locks
      ((locks.clearNode xp.tptVnode).goto thread (.cleared xp how)) := by
    refine ⟨fun _ listed => listed, fun _ shown => shown, ?_, fun _ doomed => doomed⟩
    intro vp bare _
    refine (Function.update_of_ne ?_ _ _).trans bare
    rintro rfl
    rw [data] at bare
    cases bare
  refine inv.changed thread grown ?_ (fun _ _ => rfl)
    (fun other apart => Function.update_of_ne apart _ _) ?_ ?_ ?_ ?_ ?_ ?_ ?_ inv.distinct ?_ ?_
  · intro other different
    refine ⟨grown, fun _ hidden => hidden, ?_, fun _ member => .inl member,
      fun _ member => .inl member⟩
    intro vp node before
    by_cases same : vp = xp.tptVnode
    · subst same
      cases data.symm.trans before
      refine .inr ⟨Function.update_self .., ?_⟩
      by_cases failed : how = .failed
      · subst failed
        exact .inl retiring
      · have listed : locks.status xp.tptVnode = .listed := by
          cases how with
          | failed => exact absurd rfl failed
          | vgone => exact retiring.1
          | lowervp => exact retiring.1
          | lost ovp => exact retiring.1
        have claimed : (xp.tptLowervp, .exclusive) ∈ locks.claims thread := by
          refine inv.works_claims ?_ listed
          rw [standing]
          rfl
        exact .inr ⟨listed, out, inv.nobody_else claimed different⟩
    · exact .inl ((Function.update_of_ne same _ _).trans before)
  · rw [asserted_goto]
    intro claim member
    obtain owned | stage := Multiset.mem_add.mp member
    · exact .inl owned
    · obtain rfl | lower := Multiset.mem_cons.mp stage
      · exact .inr ⟨shown, fun now => absurd (Function.update_self ..) now⟩
      · exact .inr (grown.claimable (inv.claimable_retire plain claim lower))
  · rw [stage_goto]
    refine ⟨plain, Function.update_self .., shown, ?_⟩
    rintro ovp rfl
    obtain ⟨different, listed, node, before, shares⟩ := retiring.2
    exact ⟨different, listed, node, (Function.update_of_ne different _ _).trans before, shares⟩
  · refine inv.balanced.congr (claims_goto standing rfl rfl ?_ ?_)
    · exact fun other claim member => Function.update_of_ne (unclaimed other claim member) _ _
    · have lower : (how.claims xp).map (locks.clearNode xp.tptVnode).resolve =
          (how.claims xp).map locks.resolve := by
        refine Multiset.map_congr rfl fun claim member => ?_
        rw [← how.eq_of_mem_claims member] at below
        exact congrArg (·, claim.2) (Function.update_of_ne below _ _)
      have own : (locks.clearNode xp.tptVnode).resolve (xp.tptVnode, .exclusive) =
          (xp.tptVnode, .exclusive) :=
        congrArg (·, _) (Function.update_self ..)
      simp only [stageLocks, LockStage.claims, LockStage.ownClaims]
      rw [Multiset.map_cons, lower, own, add_zero, Multiset.add_comm, Multiset.singleton_add]
  · exact pointer_update inv.pointer rfl
  · intro vp node now
    exact inv.node vp node (others vp node now).2
  · intro vp fresh
    obtain ⟨bare, rest⟩ := inv.fresh vp fresh
    refine ⟨(Function.update_of_ne ?_ _ _).trans bare, rest⟩
    rintro rfl
    exact shown fresh
  · intro node member
    obtain ⟨before, listed⟩ := inv.hashed node member
    refine ⟨(Function.update_of_ne ?_ _ _).trans before, listed⟩
    intro same
    rw [same, data] at before
    cases before
    exact out member
  · intro vp node now listed
    obtain ⟨different, before⟩ := others vp node now
    refine (inv.indexed vp node before listed).imp_right (elsewhere (·.Works node) standing ?_)
    rintro rfl
    exact different (inv.node _ _ before).1.symm
  · intro vp node doomed now
    obtain ⟨different, before⟩ := others vp node now
    refine elsewhere (·.Retires node) standing ?_ (inv.doomedBy vp node doomed before)
    rintro rfl
    exact different (inv.node _ _ before).1.symm

theorem claimable_cleared {how : Retire} (plain : isTptfs xp.tptLowervp = false)
    (bare : locks.Bare xp how) :
    ∀ claim ∈ (xp.tptVnode, LockMode.exclusive) ::ₘ how.claims xp, locks.Claimable claim.1 :=
  Multiset.forall_mem_cons.mpr ⟨claimable_of_bare bare, inv.claimable_retire plain⟩

/-- The alias of `tpt_destroy_proto` is doomed when it has no node any more. -/
theorem doom_keeps {how : Retire} (standing : locks.stage thread = .cleared xp how)
    (split : how ≠ .vgone) :
    Coherent isTptfs ((locks.doom xp.tptVnode).goto thread (.unlockOwn xp how)) := by
  have known := inv.stages thread
  rw [standing] at known
  obtain ⟨plain, bare⟩ := known
  have grown : Grown locks ((locks.doom xp.tptVnode).goto thread (.unlockOwn xp how)) := by
    refine ⟨fun _ listed => listed, fun _ shown => shown, fun _ data _ => data, ?_⟩
    intro vp doomed
    by_cases same : vp = xp.tptVnode
    · subst same
      exact Function.update_self ..
    · exact (Function.update_of_ne same _ _).trans doomed
  refine inv.changed thread grown ?_ (fun _ _ => rfl)
    (fun other apart => Function.update_of_ne apart _ _) ?_ ?_ ?_ inv.pointer inv.node ?_
    inv.hashed inv.distinct ?_ ?_
  · intro other different
    exact ⟨grown, fun _ hidden => hidden, fun _ _ data => .inl data, fun _ member => .inl member,
      fun _ member => .inl member⟩
  · rw [asserted_goto]
    intro claim member
    obtain owned | stage := Multiset.mem_add.mp member
    · exact .inl owned
    · exact .inr (inv.claimable_cleared plain bare claim stage)
  · rw [stage_goto]
    exact ⟨plain, bare, split⟩
  · exact inv.balanced.congr (claims_goto standing rfl rfl (fun _ _ _ => rfl) rfl)
  · intro vp fresh
    obtain ⟨data, tptfs, alive⟩ := inv.fresh vp fresh
    refine ⟨data, tptfs, (Function.update_of_ne ?_ _ _).trans alive⟩
    rintro rfl
    exact bare.2.1 fresh
  · intro vp node data listed
    exact (inv.indexed vp node data listed).imp_right (elsewhere (·.Works node) standing id)
  · intro vp node doomed data
    by_cases same : vp = xp.tptVnode
    · subst same
      cases bare.1.symm.trans data
    · have before := (Function.update_of_ne same _ _).symm.trans doomed
      exact elsewhere (·.Retires node) standing id (inv.doomedBy vp node before data)

theorem cleared_keeps {how : Retire} (standing : locks.stage thread = .cleared xp how)
    (ran : locks.advance thread answer = some after) : Coherent isTptfs after := by
  have known := inv.stages thread
  rw [standing] at known
  obtain ⟨plain, bare⟩ := known
  simp only [advance, standing] at ran
  cases how with
  | vgone =>
      obtain ⟨middle, gave, ran⟩ := Option.bind_eq_some_iff.mp ran
      obtain ⟨next, released, rfl⟩ := give_eq_some gave
      cases ran
      have less : locks.stageLocks (.cleared xp .vgone) =
          (locks.vVnlock xp.tptLowervp, .exclusive) ::ₘ locks.stageLocks (.vreleLower xp) :=
        Multiset.cons_swap _ _ 0
      exact inv.onward standing (inv.given standing released less) (fun _ => False.elim)
        (fun _ => False.elim) (claimable_singleton (claimable_of_bare bare)) bare
  | lowervp =>
      cases ran
      exact inv.onward standing (inv.still standing rfl) (fun _ => False.elim)
        (fun _ => False.elim) (inv.claimable_cleared plain bare) ⟨plain, bare, by rintro ⟨⟩⟩
  | lost ovp =>
      cases ran
      exact inv.doom_keeps standing (by rintro ⟨⟩)
  | failed =>
      cases ran
      exact inv.doom_keeps standing (by rintro ⟨⟩)

end Coherent

end VnodeLocks

end Tptfs
