import Mathlib.Algebra.BigOperators.Group.Finset.Piecewise
import Mathlib.Algebra.Order.BigOperators.Group.Finset
import LearningKernels.Tptfs.VnodeLockSafety

/-!
# The holds on lower vnodes

A thread that sleeps in the lock routine of a lower vnode must keep it from being recycled:
the alias through which it got there can be reclaimed meanwhile, and its reference with it.
Here the hold count of a vnode is what the rest of the kernel holds, what the calls hold and
one reference for each alias (`Tptfs.VnodeLocks.Counted`), in every state of every run.
-/

namespace Tptfs

open Machine

/-- The vnode that the caller of `tpt_lock` drops afterwards. -/
def LockAsk.held (ask : LockAsk) : Multiset VnodeId := ask.outer.elim 0 ({·})

namespace LockStage

/-- The vnodes that a call holds: by `vholdnz` or `vhold`, or as the spare reference of
`tpt_nodeget`. -/
def held : LockStage → Multiset VnodeId
  | .enter ask | .done ask _ => ask.held
  | .lower ask lvp | .lowerWait ask lvp | .recheck ask lvp | .relock ask lvp
  | .vdrop ask lvp _ => lvp ::ₘ ask.held
  | .std ask lvp | .stdWait ask _ lvp => lvp.elim 0 ({·}) + ask.held
  | .unlockLower lvp _ | .unlockDrop lvp => {lvp}
  | .hashget _ lowervp _ | .upgrade _ lowervp | .upgradeWait _ lowervp
  | .doomedCheck _ lowervp | .getnewvnode _ lowervp _ | .vputLower lowervp => {lowervp}
  | .passed .lookup _ lvp _ | .passedOut .lookup _ lvp _ => {lvp}
  | _ => 0

/-- The call has a node in its hands that has a reference on its lower vnode. -/
def Refers (stage : LockStage) (xp : TptNode) : Prop :=
  match stage with
  | .insmntque node _ | .destructor node | .hashins node _ | .lost node _ => node = xp
  | .ownLock node how | .clear node how | .cleared node how =>
      node = xp ∧ (how = .vgone ∨ how = .lowervp)
  | .vreleLower node => node = xp
  | _ => False

/-- The step gives up the reference of the node. -/
def Drops (stage : LockStage) (xp : TptNode) : Prop :=
  match stage with
  | .destructor node | .lost node _ | .vreleLower node => node = xp
  | .cleared node how => node = xp ∧ how = .lowervp
  | _ => False

/-- The thread is in a lock operation of a lower vnode, or in a lookup. -/
def Inside (stage : LockStage) (vp : VnodeId) : Prop :=
  match stage with
  | .lower _ lvp | .lowerWait _ lvp | .recheck _ lvp | .relock _ lvp => lvp = vp
  | .unlockLower lvp _ => lvp = vp
  | .passed .lookup _ lvp _ | .passedOut .lookup _ lvp _ => lvp = vp
  | _ => False

theorem Inside.held {stage : LockStage} {vp : VnodeId} (inside : stage.Inside vp) :
    vp ∈ stage.held := by
  cases stage with
  | lower ask lvp => exact inside ▸ Multiset.mem_cons_self lvp _
  | lowerWait ask lvp => exact inside ▸ Multiset.mem_cons_self lvp _
  | recheck ask lvp => exact inside ▸ Multiset.mem_cons_self lvp _
  | relock ask lvp => exact inside ▸ Multiset.mem_cons_self lvp _
  | unlockLower lvp mode => exact inside ▸ Multiset.mem_singleton_self lvp
  | passed op upper lvp mode =>
      cases op with
      | lookup => exact inside ▸ Multiset.mem_singleton_self lvp
      | bypass => exact inside.elim
  | passedOut op upper lvp mode =>
      cases op with
      | lookup => exact inside ▸ Multiset.mem_singleton_self lvp
      | bypass => exact inside.elim
  | _ => exact inside.elim

theorem works_unique {stage : LockStage} {xp node : TptNode} (working : stage.Works xp)
    (handling : stage.Works node) : xp = node := by
  cases stage with
  | hashins its direct => exact working.symm.trans handling
  | lost its ovp => exact working.symm.trans handling
  | ownLock its how => exact working.symm.trans handling
  | clear its how => exact working.symm.trans handling
  | _ => exact working.elim

theorem Drops.refers {stage : LockStage} {xp : TptNode} (drops : stage.Drops xp) :
    stage.Refers xp := by
  cases stage with
  | destructor node => exact drops
  | lost node ovp => exact drops
  | vreleLower node => exact drops
  | cleared node how => exact ⟨drops.1, .inr drops.2⟩
  | _ => exact drops.elim

end LockStage

namespace VnodeLocks

variable {τ : Type} [DecidableEq τ] {isTptfs : VnodeId → Bool} {locks after : VnodeLocks τ}
  {thread other : τ} {answer : LockAnswer} {xp : TptNode} {old new : LockStage}

/-- The nodes with a reference on a vnode. -/
def references (live : List TptNode) (vp : VnodeId) : Nat :=
  live.countP fun xp => vp = xp.tptLowervp

theorem references_cons (xp : TptNode) (live : List TptNode) (vp : VnodeId) :
    references (xp :: live) vp = references live vp + if vp = xp.tptLowervp then 1 else 0 := by
  simp only [references, List.countP_cons, decide_eq_true_eq]

theorem references_erase {xp : TptNode} {live : List TptNode} (member : xp ∈ live)
    (vp : VnodeId) :
    references live vp =
      references (live.erase xp) vp + if vp = xp.tptLowervp then 1 else 0 := by
  rw [← references_cons]
  exact (List.perm_cons_erase member).countP_eq _

/-- **The ledger.** Every hold is counted, and the nodes with a reference are those of the hash
and those that a call has in its hands. -/
structure Counted [Fintype τ] (locks : VnodeLocks τ) : Prop where
  counted : ∀ vp, locks.holdCount vp =
    locks.outside vp + (∑ thread, (locks.stage thread).held.count vp : Nat) +
      references locks.live vp
  distinct : locks.live.Nodup
  shown : ∀ xp ∈ locks.live, locks.status xp.tptVnode ≠ .fresh
  hashed : ∀ xp ∈ locks.hash, xp ∈ locks.live
  refers : ∀ thread xp, (locks.stage thread).Refers xp → xp ∈ locks.live
  known : ∀ xp ∈ locks.live, xp ∈ locks.hash ∨ ∃ thread, (locks.stage thread).Refers xp

theorem afterStd_held (ask : LockAsk) (lower : Option VnodeId) (locked : Bool) :
    (afterStd ask lower locked).held = lower.elim 0 ({·}) + ask.held ∧
      ∀ xp, ¬ (afterStd ask lower locked).Refers xp := by
  cases lower with
  | none => exact ⟨(zero_add _).symm, fun _ => id⟩
  | some lvp => exact ⟨(Multiset.singleton_add lvp _).symm, fun _ => id⟩

/-- A call that has a node in its hands has it to itself: the vnode is hidden, or its lower lock
is held, or its own lock is. -/
theorem Coherent.refers_phase (inv : Coherent isTptfs locks)
    (mine : (locks.stage thread).Refers xp) :
    (locks.vData xp.tptVnode = some xp ∧ xp ∉ locks.hash ∧
      (locks.status xp.tptVnode = .hidden thread ∨ locks.status xp.tptVnode = .listed ∧
        (xp.tptLowervp, .exclusive) ∈ locks.claims thread)) ∨
    (locks.vData xp.tptVnode = none ∧ (xp.tptVnode, .exclusive) ∈ locks.claims thread) := by
  have known := inv.stages thread
  have works : (locks.stage thread).Works xp → locks.status xp.tptVnode = .listed →
      locks.status xp.tptVnode = .listed ∧ (xp.tptLowervp, .exclusive) ∈ locks.claims thread :=
    fun working listed => ⟨listed, inv.works_claims working listed⟩
  have bare : ∀ stage, locks.stage thread = stage → locks.vData xp.tptVnode = none →
      (xp.tptVnode, .exclusive) ∈ stage.claims →
      (xp.tptVnode, .exclusive) ∈ locks.claims thread := by
    intro stage standing data member
    have held := mem_claims standing member
    rwa [inv.vVnlock_none data] at held
  cases standing : locks.stage thread with
  | insmntque node direct =>
      rw [standing] at known mine
      cases mine
      exact .inl ⟨known.1.1, known.1.2, .inl known.2.1⟩
  | destructor node =>
      rw [standing] at known mine
      cases mine
      exact .inl ⟨known.1.1, known.1.2, .inl known.2⟩
  | hashins node direct =>
      rw [standing] at known mine works
      cases mine
      exact .inl ⟨known.1.1, known.1.2, .inr (works rfl known.2.1)⟩
  | lost node ovp =>
      rw [standing] at known mine works
      cases mine
      exact .inl ⟨known.1.1, known.1.2, .inr (works rfl known.2.1)⟩
  | ownLock node how =>
      rw [standing] at known mine works
      obtain ⟨rfl, called⟩ := mine
      refine .inl ⟨known.1.1, known.1.2, .inr (works rfl ?_)⟩
      obtain rfl | rfl := called
      all_goals exact known.2.1
  | clear node how =>
      rw [standing] at known mine works
      obtain ⟨rfl, called⟩ := mine
      refine .inl ⟨known.1.1, known.1.2, .inr (works rfl ?_)⟩
      obtain rfl | rfl := called
      all_goals exact known.2.1
  | cleared node how =>
      rw [standing] at known mine
      obtain ⟨rfl, -⟩ := mine
      exact .inr ⟨known.2.1, bare _ standing known.2.1 (Multiset.mem_cons_self _ _)⟩
  | vreleLower node =>
      rw [standing] at known mine
      cases mine
      exact .inr ⟨known.1, bare _ standing known.1 (Multiset.mem_singleton_self _)⟩
  | _ =>
      rw [standing] at mine
      exact mine.elim

/-- A call that has lost its reference to a listed alias knows of the alias that won. -/
theorem Coherent.beside_of_works (inv : Coherent isTptfs locks)
    (working : (locks.stage thread).Works xp) (unreferred : ¬ (locks.stage thread).Refers xp)
    (listed : locks.status xp.tptVnode = .listed) : ∃ ovp, locks.Beside xp ovp := by
  have known := inv.stages thread
  have retired : ∀ how, locks.Retiring thread xp how → ¬ (how = .vgone ∨ how = .lowervp) →
      ∃ ovp, locks.Beside xp ovp := by
    intro how retiring other
    cases how with
    | vgone => exact absurd (.inl rfl) other
    | lowervp => exact absurd (.inr rfl) other
    | lost ovp => exact ⟨ovp, retiring.2⟩
    | failed =>
        change locks.status xp.tptVnode = .hidden thread at retiring
        rw [listed] at retiring
        cases retiring
  cases standing : locks.stage thread with
  | hashins node direct =>
      rw [standing] at working unreferred
      exact absurd working unreferred
  | lost node ovp =>
      rw [standing] at working unreferred
      exact absurd working unreferred
  | ownLock node how =>
      rw [standing] at known working unreferred
      cases working
      exact retired how known.2 fun called => unreferred ⟨rfl, called⟩
  | clear node how =>
      rw [standing] at known working unreferred
      cases working
      exact retired how known.2 fun called => unreferred ⟨rfl, called⟩
  | _ =>
      rw [standing] at working
      exact working.elim

/-- No two calls have one node in their hands. -/
theorem Coherent.refers_alone (inv : Coherent isTptfs locks)
    (mine : (locks.stage thread).Refers xp) (its : (locks.stage other).Refers xp) :
    other = thread := by
  obtain ⟨data, -, here⟩ | ⟨data, here⟩ := inv.refers_phase mine
  · obtain ⟨-, -, there⟩ | ⟨bare, -⟩ := inv.refers_phase its
    · obtain hidden | ⟨listed, mine⟩ := here
      · obtain same | ⟨listed, -⟩ := there
        · rw [hidden] at same
          cases same
          rfl
        · rw [hidden] at listed
          cases listed
      · obtain hidden | ⟨-, its⟩ := there
        · rw [listed] at hidden
          cases hidden
        · exact (inv.balanced.alone mine its).1
    · rw [data] at bare
      cases bare
  · obtain ⟨noded, -⟩ | ⟨-, its⟩ := inv.refers_phase its
    · rw [data] at noded
      cases noded
    · exact (inv.balanced.alone here its).1

/-- The node that a call has in its hands is not in the hash. -/
theorem Coherent.refers_out (inv : Coherent isTptfs locks)
    (mine : (locks.stage thread).Refers xp) : xp ∉ locks.hash := by
  obtain ⟨-, out, -⟩ | ⟨bare, -⟩ := inv.refers_phase mine
  · exact out
  · intro member
    have data := (inv.hashed xp member).1
    rw [bare] at data
    cases data

section Ledger

variable [Fintype τ]

/-- The holds of all calls, when one of them goes on. -/
theorem sum_held (standing : locks.stage thread = old) (vp : VnodeId) :
    (∑ other, (Function.update locks.stage thread new other).held.count vp) + old.held.count vp =
      (∑ other, (locks.stage other).held.count vp) + new.held.count vp := by
  have pushed : (fun other => (Function.update locks.stage thread new other).held.count vp) =
      Function.update (fun other => (locks.stage other).held.count vp) thread
        (new.held.count vp) := by
    funext other
    by_cases mine : other = thread
    · subst mine
      rw [Function.update_self, Function.update_self]
    · rw [Function.update_of_ne mine, Function.update_of_ne mine]
  have whole := Finset.add_sum_erase Finset.univ
    (fun other => (locks.stage other).held.count vp) (Finset.mem_univ thread)
  rw [pushed, Finset.sum_update_of_mem (Finset.mem_univ thread), Finset.sdiff_singleton_eq_erase]
  simp only [standing] at whole
  omega

namespace Counted

variable (count : Counted locks)

include count

/-- A step that leaves the references alone. -/
theorem moves (standing : locks.stage thread = old)
    (stage : after.stage = Function.update locks.stage thread new)
    (outside : after.outside = locks.outside) (live : after.live = locks.live)
    (holds : ∀ vp, after.holdCount vp + old.held.count vp =
      locks.holdCount vp + new.held.count vp)
    (status : ∀ vp, locks.status vp ≠ .fresh → after.status vp ≠ .fresh)
    (inserted : ∀ xp ∈ after.hash, xp ∈ locks.hash ∨ old.Refers xp)
    (removed : ∀ xp ∈ locks.hash, xp ∈ after.hash ∨ new.Refers xp)
    (refers : ∀ xp, new.Refers xp → old.Refers xp ∨ xp ∈ locks.hash)
    (kept : ∀ xp, old.Refers xp → new.Refers xp ∨ xp ∈ after.hash) : Counted after where
  counted := by
    intro vp
    have before := count.counted vp
    have changed := holds vp
    have summed := @sum_held τ _ locks thread old new _ standing vp
    rw [stage, outside, live]
    omega
  distinct := live ▸ count.distinct
  shown := by
    intro xp member
    rw [live] at member
    exact status _ (count.shown xp member)
  hashed := by
    intro xp member
    rw [live]
    obtain earlier | mine := inserted xp member
    · exact count.hashed xp earlier
    · exact count.refers thread xp (standing ▸ mine)
  refers := by
    intro other xp referred
    rw [live]
    rw [stage] at referred
    by_cases mine : other = thread
    · subst mine
      rw [Function.update_self] at referred
      obtain before | hashed := refers xp referred
      · exact count.refers other xp (standing ▸ before)
      · exact count.hashed xp hashed
    · rw [Function.update_of_ne mine] at referred
      exact count.refers other xp referred
  known := by
    intro xp member
    rw [live] at member
    rw [stage]
    have mine : new.Refers xp →
        ∃ other, (Function.update locks.stage thread new other).Refers xp := by
      intro referred
      refine ⟨thread, ?_⟩
      rwa [Function.update_self]
    obtain hashed | ⟨other, referred⟩ := count.known xp member
    · exact (removed xp hashed).imp_right mine
    · by_cases same : other = thread
      · subst same
        rw [standing] at referred
        exact (kept xp referred).symm.imp_right mine
      · refine .inr ⟨other, ?_⟩
        rwa [Function.update_of_ne same]

variable {vData : VnodeId → Option TptNode} {vVnlock : VnodeId → VnodeId}
  {vLock : VnodeId → Lock τ} {doomed : VnodeId → Bool} {holdCount : VnodeId → Int}
  {owned : τ → Multiset (VnodeId × LockMode)}

/-- A step that holds or drops a vnode, or does neither. -/
theorem goes (standing : locks.stage thread = old)
    (holds : ∀ vp, holdCount vp + old.held.count vp = locks.holdCount vp + new.held.count vp)
    (refers : ∀ xp, new.Refers xp ↔ old.Refers xp) :
    Counted { locks with
      vData, vVnlock, vLock, doomed, holdCount, owned
      stage := Function.update locks.stage thread new } :=
  count.moves standing rfl rfl rfl holds (fun _ shown => shown) (fun _ member => .inl member)
    (fun _ member => .inl member) (fun xp referred => .inl ((refers xp).mp referred))
    (fun xp referred => .inl ((refers xp).mpr referred))

theorem stays (standing : locks.stage thread = old) (same : new.held = old.held)
    (refers : ∀ xp, new.Refers xp ↔ old.Refers xp) :
    Counted { locks with
      vData, vVnlock, vLock, doomed, owned
      stage := Function.update locks.stage thread new } := by
  refine count.goes standing (fun vp => ?_) refers
  rw [same]

/-- The hold count after `vhold`. -/
theorem holds {lvp : VnodeId} (standing : locks.stage thread = old)
    (more : new.held = lvp ::ₘ old.held) (refers : ∀ xp, new.Refers xp ↔ old.Refers xp) :
    Counted { locks.vhold lvp with
      vLock, owned
      stage := Function.update locks.stage thread new } := by
  refine count.goes standing (fun vp => ?_) refers
  change addAt locks.holdCount lvp 1 vp + _ = _
  rw [more, Multiset.count_cons, addAt]
  by_cases same : vp = lvp
  · subst same
    rw [Function.update_self, if_pos rfl]
    omega
  · rw [Function.update_of_ne same, if_neg same, add_zero]

/-- The hold count after `vdrop`. -/
theorem lets {lvp : VnodeId} (standing : locks.stage thread = old)
    (less : old.held = lvp ::ₘ new.held) (refers : ∀ xp, new.Refers xp ↔ old.Refers xp) :
    Counted { locks.vdrop lvp with
      vLock, owned
      stage := Function.update locks.stage thread new } := by
  refine count.goes standing (fun vp => ?_) refers
  change addAt locks.holdCount lvp (-1) vp + _ = _
  rw [less, Multiset.count_cons, addAt]
  by_cases same : vp = lvp
  · subst same
    rw [Function.update_self, if_pos rfl]
    omega
  · rw [Function.update_of_ne same, if_neg same, add_zero]

/-- A step that gives up the reference of a node. -/
theorem drops (inv : Coherent isTptfs locks) (standing : locks.stage thread = old)
    (dropped : old.Drops xp) (same : new.held = old.held)
    (gone : ∀ xp, ¬ new.Refers xp) (only : ∀ node, old.Refers node → node = xp) :
    Counted { locks.dropLower xp with
      vLock, owned
      stage := Function.update locks.stage thread new } := by
  have mine : (locks.stage thread).Refers xp := standing ▸ dropped.refers
  have member := count.refers thread xp mine
  have others : ∀ other node, (Function.update locks.stage thread new other).Refers node →
      other ≠ thread ∧ (locks.stage other).Refers node := by
    intro other node referred
    by_cases same : other = thread
    · subst same
      rw [Function.update_self] at referred
      exact absurd referred (gone node)
    · rw [Function.update_of_ne same] at referred
      exact ⟨same, referred⟩
  refine ⟨?_, count.distinct.erase xp, ?_, ?_, ?_, ?_⟩
  · intro vp
    have before := count.counted vp
    have summed := @sum_held τ _ locks thread old new _ standing vp
    rw [same] at summed
    rw [references_erase member] at before
    change addAt locks.holdCount xp.tptLowervp (-1) vp =
      locks.outside vp +
        (∑ other, (Function.update locks.stage thread new other).held.count vp : Nat) +
        references (locks.live.erase xp) vp
    rw [addAt, Function.update_apply]
    split
    next here =>
      subst here
      rw [if_pos rfl] at before
      omega
    next elsewhere =>
      rw [if_neg elsewhere] at before
      omega
  · exact fun node left => count.shown node (List.mem_of_mem_erase left)
  · intro node hashed
    refine (List.mem_erase_of_ne ?_).mpr (count.hashed node hashed)
    rintro rfl
    exact inv.refers_out mine hashed
  · intro other node referred
    obtain ⟨different, before⟩ := others other node referred
    refine (List.mem_erase_of_ne ?_).mpr (count.refers other node before)
    rintro rfl
    exact different (inv.refers_alone mine before)
  · intro node left
    obtain ⟨different, before⟩ := count.distinct.mem_erase_iff.mp left
    obtain hashed | ⟨other, referred⟩ := count.known node before
    · exact .inl hashed
    · refine .inr ⟨other, ?_⟩
      by_cases same : other = thread
      · subst same
        rw [standing] at referred
        exact absurd (only node referred) different
      · change (Function.update locks.stage thread new other).Refers node
        rwa [Function.update_of_ne same]

/-- A step in a call that does not have a node in its hands, and keeps what it holds. -/
theorem paces (standing : locks.stage thread = old) (same : new.held = old.held)
    (idle : ∀ xp, ¬ old.Refers xp) (still : ∀ xp, ¬ new.Refers xp) :
    Counted { locks with
      vData, vVnlock, vLock, doomed, owned
      stage := Function.update locks.stage thread new } :=
  count.stays standing same fun xp => iff_of_false (still xp) (idle xp)

end Counted

end Ledger

end VnodeLocks

end Tptfs
