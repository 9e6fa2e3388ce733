import LearningKernels.Tptfs.VnodeLockApart

/-!
# Making nodes

The steps of `tpt_nodeget` that set up the vnode it got from `getnewvnode` and list it with the
mount, and what every step has to show that changes the nodes.
-/

namespace Tptfs

open Machine

namespace VnodeLocks

variable {τ : Type} [DecidableEq τ] {isTptfs : VnodeId → Bool} {locks after : VnodeLocks τ}
  {thread other : τ} {answer : LockAnswer} {xp : TptNode}

theorem stage_goto (stage : LockStage) : (locks.goto thread stage).stage thread = stage :=
  Function.update_self ..

theorem asserted_goto (stage : LockStage) :
    (locks.goto thread stage).asserted thread = locks.owned thread + stage.claims := by
  rw [asserted, stage_goto]
  rfl

theorem stage_own (vp : VnodeId) (mode : LockMode) :
    (locks.own thread vp mode).stage thread = .idle :=
  Function.update_self ..

theorem asserted_own (vp : VnodeId) (mode : LockMode) :
    (locks.own thread vp mode).asserted thread = (vp, mode) ::ₘ locks.owned thread := by
  rw [asserted, stage_own]
  exact (Multiset.add_zero _).trans (Function.update_self ..)

/-- A thread goes on, and the locks that it and the others are to hold are the same. -/
theorem claims_goto {middle : VnodeLocks τ} {old new : LockStage}
    (standing : locks.stage thread = old) (owned : middle.owned = locks.owned)
    (stage : middle.stage = locks.stage)
    (pointer : ∀ other, ∀ claim ∈ locks.asserted other,
      middle.vVnlock claim.1 = locks.vVnlock claim.1)
    (same : middle.stageLocks new = locks.stageLocks old) (other : τ) :
    (middle.goto thread new).claims other = locks.claims other := by
  by_cases mine : other = thread
  · subst mine
    rw [claims_eq, stage_goto, claims_eq, standing]
    refine congr_arg₂ (· + ·) ?_ same
    change (middle.owned other).map middle.resolve = _
    rw [owned]
    refine Multiset.map_congr rfl fun claim member => ?_
    rw [resolve, resolve, pointer other claim (Multiset.mem_add.mpr (.inl member))]
  · refine claims_congr (congrFun owned other) ?_ (pointer other)
    exact (Function.update_of_ne mine _ _).trans (congrFun stage other)

/-- `v_vnlock` is set together with `v_data`. -/
theorem pointer_update {vData : VnodeId → Option TptNode} {vVnlock : VnodeId → VnodeId}
    (pointer : ∀ vp, vVnlock vp = (vData vp).elim vp TptNode.tptLowervp) {vp lock : VnodeId}
    {data : Option TptNode} (there : lock = data.elim vp TptNode.tptLowervp) (other : VnodeId) :
    Function.update vVnlock vp lock other =
      (Function.update vData vp data other).elim other TptNode.tptLowervp := by
  by_cases same : other = vp
  · subst same
    rw [Function.update_self, Function.update_self, there]
  · rw [Function.update_of_ne same, Function.update_of_ne same, pointer]

namespace Coherent

variable (inv : Coherent isTptfs locks)

include inv

/-- **Steps that change the nodes.** What the other threads claim and know is kept. -/
theorem changed (thread : τ) (grown : Grown locks after)
    (apart : ∀ other, other ≠ thread → Apart locks after thread other)
    (owned : ∀ other, other ≠ thread → after.owned other = locks.owned other)
    (stage : ∀ other, other ≠ thread → after.stage other = locks.stage other)
    (asserted : ∀ claim ∈ after.asserted thread,
      claim ∈ locks.owned thread ∨ after.Claimable claim.1)
    (known : after.StageOk isTptfs thread (after.stage thread))
    (balanced : Matched after.vLock after.claims)
    (pointer : ∀ vp, after.vVnlock vp = (after.vData vp).elim vp TptNode.tptLowervp)
    (node : ∀ vp xp, after.vData vp = some xp →
      xp.tptVnode = vp ∧ isTptfs vp = true ∧ isTptfs xp.tptLowervp = false)
    (fresh : ∀ vp, after.status vp = .fresh →
      after.vData vp = none ∧ isTptfs vp = true ∧ after.doomed vp = false)
    (hashed : ∀ xp ∈ after.hash,
      after.vData xp.tptVnode = some xp ∧ after.status xp.tptVnode = .listed)
    (distinct : after.hash.Nodup)
    (indexed : ∀ vp xp, after.vData vp = some xp → after.status vp = .listed →
      xp ∈ after.hash ∨ ∃ thread, (after.stage thread).Works xp)
    (doomedBy : ∀ vp xp, after.doomed vp = true → after.vData vp = some xp →
      ∃ thread, (after.stage thread).Retires xp) :
    Coherent isTptfs after where
  balanced := balanced
  pointer := pointer
  node := node
  fresh := fresh
  hashed := hashed
  distinct := distinct
  indexed := indexed
  doomedBy := doomedBy
  claimed := by
    intro other vp mode member
    by_cases mine : other = thread
    · subst mine
      obtain earlier | claimable := asserted (vp, mode) member
      · exact grown.claimable (inv.claimed other vp mode (Multiset.mem_add.mpr (.inl earlier)))
      · exact claimable
    · rw [VnodeLocks.asserted, owned other mine, stage other mine] at member
      exact grown.claimable (inv.claimed other vp mode member)
  stages := by
    intro other
    by_cases mine : other = thread
    · subst mine
      exact known
    · rw [stage other mine]
      exact inv.others mine (apart other mine)

/-- Whoever has a listed node in its hands holds the lower lock alone. -/
theorem works_claims (working : (locks.stage thread).Works xp)
    (listed : locks.status xp.tptVnode = .listed) :
    (xp.tptLowervp, .exclusive) ∈ locks.claims thread := by
  have known := inv.stages thread
  have lower : ∀ stage, locks.stage thread = stage → locks.vData xp.tptVnode = some xp →
      (xp.tptLowervp, .exclusive) ∈ stage.claims →
      (xp.tptLowervp, .exclusive) ∈ locks.claims thread := by
    intro stage standing data member
    have held := mem_claims standing member
    rwa [inv.vVnlock_plain (inv.plain_below data)] at held
  -- an alias that the mount did not take is not listed
  have shared : ∀ how, locks.Retiring thread xp how → how ≠ .failed := by
    rintro how retiring rfl
    change locks.status xp.tptVnode = .hidden thread at retiring
    rw [listed] at retiring
    cases retiring
  cases standing : locks.stage thread with
  | hashins node direct =>
      rw [standing] at known working
      cases working
      exact lower _ standing known.1.1 (Multiset.mem_singleton_self _)
  | lost node ovp =>
      rw [standing] at known working
      cases working
      exact lower _ standing known.1.1 (Multiset.mem_singleton_self _)
  | ownLock node how =>
      rw [standing] at known working
      cases working
      exact lower _ standing known.1.1 (how.mem_claims xp (shared how known.2))
  | clear node how =>
      rw [standing] at known working
      cases working
      exact lower _ standing known.1.1 (how.mem_claims xp (shared how known.2))
  | _ =>
      rw [standing] at working
      exact working.elim

/-- A vnode that was not handed out is claimed by nobody. -/
theorem unclaimed_fresh {vp : VnodeId} (fresh : locks.status vp = .fresh) :
    ∀ claim ∈ locks.asserted thread, claim.1 ≠ vp := by
  rintro ⟨other, mode⟩ member rfl
  exact (inv.claimed thread other mode member).1 fresh

omit inv in
/-- Other threads go on as before when a thread takes a step. -/
theorem elsewhere (holds : LockStage → Prop) {old new : LockStage}
    (standing : locks.stage thread = old) (mine : ¬ holds old)
    (some : ∃ worker, holds (locks.stage worker)) :
    ∃ worker, holds (Function.update locks.stage thread new worker) := by
  obtain ⟨worker, held⟩ := some
  refine ⟨worker, ?_⟩
  by_cases same : worker = thread
  · subst same
    rw [standing] at held
    exact absurd held mine
  · rwa [Function.update_of_ne same]

/-- `tpt_nodeget` sets up the vnode that it got. -/
theorem makeNode_keeps {mp : MountId} {lowervp vp : VnodeId} {direct : Bool}
    (standing : locks.stage thread = .getnewvnode mp lowervp direct)
    (fresh : locks.status vp = .fresh) :
    Coherent isTptfs ((locks.makeNode thread ⟨lowervp, vp, mp⟩).goto thread
      (.insmntque ⟨lowervp, vp, mp⟩ direct)) := by
  have known := inv.stages thread
  rw [standing] at known
  obtain ⟨plain, absent⟩ := known
  obtain ⟨bare, tptfs, alive⟩ := inv.fresh vp fresh
  have below : lowervp ≠ vp := by
    rintro rfl
    rw [plain] at tptfs
    cases tptfs
  have shown : ∀ other, locks.status other ≠ .fresh → other ≠ vp := by
    rintro other seen rfl
    exact seen fresh
  have noded : ∀ other node, locks.vData other = some node → other ≠ vp := by
    rintro other node data rfl
    rw [bare] at data
    cases data
  have grown : Grown locks ((locks.makeNode thread ⟨lowervp, vp, mp⟩).goto thread
      (.insmntque ⟨lowervp, vp, mp⟩ direct)) := by
    refine ⟨?_, ?_, ?_, fun _ doomed => doomed⟩
    · intro other listed
      have different := shown other (claimable_of_listed listed).1
      exact (Function.update_of_ne different _ _).trans listed
    · intro other seen
      exact (Function.update_of_ne (shown other seen) _ _).trans_ne seen
    · intro other data seen
      exact (Function.update_of_ne (shown other seen) _ _).trans data
  refine inv.changed thread grown ?_ (fun _ _ => rfl)
    (fun other apart => Function.update_of_ne apart _ _) ?_ ?_ ?_ ?_ ?_ ?_ ?_ inv.distinct ?_ ?_
  · intro other different
    refine ⟨grown, ?_, ?_, fun _ member => .inl member, fun _ member => .inl member⟩
    · intro vnode hidden
      refine (Function.update_of_ne (shown vnode ?_) _ _).trans hidden
      rw [hidden]
      exact nofun
    · intro vnode node data
      exact .inl ((Function.update_of_ne (noded vnode node data) _ _).trans data)
  · rw [asserted_goto]
    intro claim member
    obtain owned | stage := Multiset.mem_add.mp member
    · exact .inl owned
    · rw [Multiset.mem_singleton.mp stage]
      exact .inr (grown.claimable (inv.claimable_plain plain))
  · rw [stage_goto]
    refine ⟨⟨Function.update_self .., fun member => ?_⟩, Function.update_self .., absent⟩
    exact noded _ _ (inv.hashed _ member).1 rfl
  · refine inv.balanced.congr (claims_goto standing rfl rfl ?_ ?_)
    · exact fun other claim member =>
        Function.update_of_ne (inv.unclaimed_fresh fresh claim member) _ _
    · change {(Function.update locks.vVnlock vp _ lowervp, _)} + 0 = _
      rw [Function.update_of_ne below]
      rfl
  · exact pointer_update inv.pointer (inv.vVnlock_plain plain)
  · intro other node data
    by_cases new : other = vp
    · subst new
      cases (Function.update_self ..).symm.trans data
      exact ⟨rfl, tptfs, plain⟩
    · exact inv.node other node ((Function.update_of_ne new _ _).symm.trans data)
  · intro other still
    by_cases new : other = vp
    · subst new
      cases (Function.update_self ..).symm.trans still
    · have was := inv.fresh other ((Function.update_of_ne new _ _).symm.trans still)
      exact ⟨(Function.update_of_ne new _ _).trans was.1, was.2⟩
  · intro node member
    obtain ⟨data, listed⟩ := inv.hashed node member
    have new := noded _ _ data
    exact ⟨(Function.update_of_ne new _ _).trans data, (Function.update_of_ne new _ _).trans listed⟩
  · intro other node data listed
    by_cases new : other = vp
    · subst new
      cases (Function.update_self ..).symm.trans listed
    · have was := inv.indexed other node ((Function.update_of_ne new _ _).symm.trans data)
        ((Function.update_of_ne new _ _).symm.trans listed)
      exact was.imp_right (elsewhere (·.Works node) standing id)
  · intro other node doomed data
    by_cases new : other = vp
    · subst new
      cases alive.symm.trans doomed
    · have was := inv.doomedBy other node doomed ((Function.update_of_ne new _ _).symm.trans data)
      exact elsewhere (·.Retires node) standing id was

theorem getnewvnode_keeps {mp : MountId} {lowervp : VnodeId} {direct : Bool}
    (standing : locks.stage thread = .getnewvnode mp lowervp direct)
    (ran : locks.advance thread answer = some after) : Coherent isTptfs after := by
  have known := inv.stages thread
  rw [standing] at known
  simp only [advance, standing] at ran
  cases new : answer.getnewvnode with
  | none =>
      rw [new] at ran
      cases ran
      exact inv.onward standing (inv.still standing rfl) (fun _ => False.elim)
        (fun _ => False.elim) (claimable_singleton (inv.claimable_plain known.1)) known.1
  | some vp =>
      rw [new] at ran
      simp only at ran
      split at ran
      next fresh =>
        cases ran
        exact inv.makeNode_keeps standing fresh
      next => cases ran

/-- The mount takes the vnode of the thread, and it can be found. -/
theorem insmntque1_keeps {direct : Bool} (standing : locks.stage thread = .insmntque xp direct) :
    Coherent isTptfs ((locks.insmntque1 xp.tptVnode).goto thread (.hashins xp direct)) := by
  have known := inv.stages thread
  rw [standing] at known
  obtain ⟨detached, hidden, absent⟩ := known
  have outside : ∀ vp, locks.status vp ≠ .hidden thread → vp ≠ xp.tptVnode := by
    rintro vp shown rfl
    exact shown hidden
  have grown : Grown locks
      ((locks.insmntque1 xp.tptVnode).goto thread (.hashins xp direct)) := by
    refine ⟨?_, ?_, fun _ data _ => data, fun _ doomed => doomed⟩
    · intro vp listed
      refine (Function.update_of_ne (outside vp ?_) _ _).trans listed
      rw [listed]
      exact nofun
    · intro vp shown
      by_cases same : vp = xp.tptVnode
      · subst same
        exact (Function.update_self ..).trans_ne nofun
      · exact (Function.update_of_ne same _ _).trans_ne shown
  refine inv.changed thread grown ?_ (fun _ _ => rfl)
    (fun other apart => Function.update_of_ne apart _ _) ?_ ?_ ?_ inv.pointer inv.node ?_ ?_
    inv.distinct ?_ ?_
  · intro other different
    refine ⟨grown, ?_, fun _ _ data => .inl data, fun _ member => .inl member,
      fun _ member => .inl member⟩
    intro vp mine
    refine (Function.update_of_ne (outside vp ?_) _ _).trans mine
    rw [mine]
    intro same
    cases same
    exact different rfl
  · rw [asserted_goto]
    intro claim member
    obtain owned | stage := Multiset.mem_add.mp member
    · exact .inl owned
    · rw [Multiset.mem_singleton.mp stage]
      exact .inr (grown.claimable (inv.claimable_plain (inv.plain_below detached.1)))
  · rw [stage_goto]
    exact ⟨detached, Function.update_self .., absent⟩
  · exact inv.balanced.congr (claims_goto standing rfl rfl (fun _ _ _ => rfl) rfl)
  · intro vp still
    by_cases same : vp = xp.tptVnode
    · subst same
      cases (Function.update_self ..).symm.trans still
    · exact inv.fresh vp ((Function.update_of_ne same _ _).symm.trans still)
  · intro node member
    obtain ⟨data, listed⟩ := inv.hashed node member
    exact ⟨data, grown.listed _ listed⟩
  · intro vp node data listed
    by_cases same : vp = xp.tptVnode
    · subst same
      cases detached.1.symm.trans data
      refine .inr ⟨thread, ?_⟩
      rw [stage_goto]
      rfl
    · have was := inv.indexed vp node data ((Function.update_of_ne same _ _).symm.trans listed)
      exact was.imp_right (elsewhere (·.Works node) standing id)
  · intro vp node doomed data
    exact elsewhere (·.Retires node) standing id (inv.doomedBy vp node doomed data)

theorem insmntque_keeps {direct : Bool} (standing : locks.stage thread = .insmntque xp direct)
    (ran : locks.advance thread answer = some after) : Coherent isTptfs after := by
  have known := inv.stages thread
  rw [standing] at known
  have claimable := inv.claimable_plain (inv.plain_below known.1.1)
  simp only [advance, standing] at ran
  split at ran
  next =>
    cases ran
    exact inv.onward standing (inv.still standing rfl) (fun _ => False.elim)
      (fun _ => False.elim) (claimable_singleton claimable) ⟨known.1, known.2.1⟩
  next =>
    cases ran
    exact inv.insmntque1_keeps standing

end Coherent

end VnodeLocks

end Tptfs
