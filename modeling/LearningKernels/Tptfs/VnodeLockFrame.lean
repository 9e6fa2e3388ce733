import LearningKernels.Tptfs.VnodeLockRuns

/-!
# What the steps of other threads leave alone

A step leaves what other threads have locked and where they stand, and a vnode that a thread
has locked keeps its node and its lock while the others run.
-/

namespace Tptfs

open Machine

/-- The step at which a call stands makes no node and clears none. -/
def LockStage.Still : LockStage → Prop
  | .getnewvnode _ _ _ | .clear _ _ => False
  | _ => True

/-- The thread that an event belongs to. -/
def LockEvent.thread {τ : Type} : LockEvent τ → Option τ
  | .call thread _ | .run thread _ => some thread
  | .vhold _ | .vdrop _ => none

namespace VnodeLocks

variable {τ : Type} [DecidableEq τ] {isTptfs : VnodeId → Bool} {locks after : VnodeLocks τ}
  {thread other : τ} {answer : LockAnswer} {xp : TptNode}

section Frame

theorem goto_other {middle : VnodeLocks τ} (owned : middle.owned = locks.owned)
    (stage : middle.stage = locks.stage) (new : LockStage) (different : other ≠ thread) :
    (middle.goto thread new).owned other = locks.owned other ∧
      (middle.goto thread new).stage other = locks.stage other :=
  ⟨congrFun owned other, (Function.update_of_ne different _ _).trans (congrFun stage other)⟩

theorem own_other {middle : VnodeLocks τ} (owned : middle.owned = locks.owned)
    (stage : middle.stage = locks.stage) (vp : VnodeId) (mode : LockMode)
    (different : other ≠ thread) :
    (middle.own thread vp mode).owned other = locks.owned other ∧
      (middle.own thread vp mode).stage other = locks.stage other :=
  ⟨(Function.update_of_ne different _ _).trans (congrFun owned other),
    (Function.update_of_ne different _ _).trans (congrFun stage other)⟩

theorem passBack_others {op : Passed} {vp lvp : VnodeId} {mode : LockMode} {error : Int}
    (ran : locks.passBack thread op vp lvp mode error = some after)
    (different : other ≠ thread) :
    after.owned other = locks.owned other ∧ after.stage other = locks.stage other := by
  cases op <;> simp only [passBack] at ran <;> split at ran
  all_goals grind [Option.bind_eq_some_iff, give_only, goto_other, own_other, vdrop]

theorem passBack_still {op : Passed} {vp lvp : VnodeId} {mode : LockMode} {error : Int}
    (ran : locks.passBack thread op vp lvp mode error = some after) :
    after.vData = locks.vData ∧ after.vVnlock = locks.vVnlock := by
  cases op <;> simp only [passBack] at ran <;> split at ran
  all_goals grind [Option.bind_eq_some_iff, give_only, goto, own, vdrop]

/-- A step leaves what other threads have locked, and where they stand. -/
theorem advance_others (ran : locks.advance thread answer = some after)
    (different : other ≠ thread) :
    after.owned other = locks.owned other ∧ after.stage other = locks.stage other := by
  unfold advance at ran
  split at ran
  all_goals
    grind [Option.bind_eq_some_iff, take_only, give_only, lockmgr_only, passBack_others,
      goto_other, own_other, leave, vhold, vdrop, dropLower, dropOuter, done, makeNode,
      insmntque1, clearNode, doom]

/-- Only two steps of the calls change which vnodes have a node. -/
theorem advance_still (ran : locks.advance thread answer = some after)
    (still : (locks.stage thread).Still) :
    after.vData = locks.vData ∧ after.vVnlock = locks.vVnlock := by
  unfold advance at ran
  split at ran
  all_goals
    grind [Option.bind_eq_some_iff, take_only, give_only, lockmgr_only, passBack_still,
      LockStage.Still, goto, own, leave, vhold, vdrop, dropLower, dropOuter, done, insmntque1,
      doom]

theorem enterWith_others {vp : VnodeId} {mode : LockMode} {stage : LockStage}
    {middle : VnodeLocks τ} (ran : middle.enterWith thread vp mode stage = some after)
    (owned : middle.owned = locks.owned) (data : middle.vData = locks.vData)
    (pointer : middle.vVnlock = locks.vVnlock) (different : other ≠ thread) :
    after.owned other = locks.owned other ∧ after.vData = locks.vData ∧
      after.vVnlock = locks.vVnlock := by
  obtain ⟨-, rfl⟩ := enterWith_eq_some ran
  exact ⟨(Function.update_of_ne different _ _).trans (congrFun owned other), data, pointer⟩

/-- A call starts without touching what other threads have locked, or any node. -/
theorem start_others {call : LockCall} (ran : locks.start isTptfs thread call = some after)
    (different : other ≠ thread) :
    after.owned other = locks.owned other ∧ after.vData = locks.vData ∧
      after.vVnlock = locks.vVnlock := by
  cases call with
  | lock vp request =>
      simp only [start] at ran
      split at ran
      next =>
        cases start : request.from with
        | none =>
            rw [start] at ran
            cases ran
            exact ⟨rfl, rfl, rfl⟩
        | some mode =>
            rw [start] at ran
            exact enterWith_others ran rfl rfl rfl different
      next => cases ran
  | unlock vp mode => exact enterWith_others ran rfl rfl rfl different
  | nodeget mp lowervp mode =>
      simp only [start] at ran
      split at ran
      next => exact enterWith_others ran rfl rfl rfl different
      next => cases ran
  | vgone vp =>
      simp only [start] at ran
      cases data : locks.vData vp with
      | none =>
          rw [data] at ran
          cases ran
      | some xp =>
          rw [data] at ran
          exact enterWith_others ran rfl rfl rfl different
  | reclaimLowervp mp lowervp =>
      simp only [start] at ran
      cases found : locks.search mp lowervp with
      | none =>
          rw [found] at ran
          cases ran
          exact ⟨rfl, rfl, rfl⟩
      | some xp =>
          rw [found] at ran
          exact enterWith_others ran rfl rfl rfl different
  | unlinkLowervp mp lowervp last =>
      simp only [start] at ran
      cases found : locks.search mp lowervp with
      | none =>
          rw [found] at ran
          cases ran
          exact ⟨rfl, rfl, rfl⟩
      | some xp =>
          rw [found] at ran
          cases last with
          | true => exact enterWith_others ran rfl rfl rfl different
          | false =>
              cases ran
              exact ⟨rfl, rfl, rfl⟩
  | pass op vp mode =>
      simp only [start] at ran
      cases data : locks.vData vp with
      | none =>
          rw [data] at ran
          cases ran
      | some xp =>
          rw [data] at ran
          cases op with
          | lookup => exact enterWith_others ran rfl rfl rfl different
          | bypass => exact enterWith_others ran rfl rfl rfl different

end Frame

section Pinned

/-- No other thread clears an alias that a thread has locked, or makes one of its vnode. -/
theorem Coherent.advance_pins (inv : Coherent isTptfs locks) {vp : VnodeId} {mode : LockMode}
    (member : (vp, mode) ∈ locks.owned thread) (ran : locks.advance other answer = some after) :
    after.vData vp = locks.vData vp ∧ after.vVnlock vp = locks.vVnlock vp := by
  have asserted : (vp, mode) ∈ locks.asserted thread := Multiset.mem_add.mpr (.inl member)
  cases standing : locks.stage other with
  | getnewvnode mp lowervp direct =>
      simp only [advance, standing] at ran
      cases new : answer.getnewvnode with
      | none =>
          rw [new] at ran
          cases ran
          exact ⟨rfl, rfl⟩
      | some made =>
          rw [new] at ran
          simp only at ran
          split at ran
          next fresh =>
            cases ran
            have apart := inv.unclaimed_fresh fresh _ asserted
            exact ⟨Function.update_of_ne apart _ _, Function.update_of_ne apart _ _⟩
          next => cases ran
  | clear xp how =>
      have apart := inv.unclaimed_clear standing thread _ asserted
      simp only [advance, standing] at ran
      cases ran
      exact ⟨Function.update_of_ne apart _ _, Function.update_of_ne apart _ _⟩
  | _ =>
      have still : (locks.stage other).Still := by
        rw [standing]
        trivial
      obtain ⟨data, pointer⟩ := advance_still ran still
      exact ⟨congrFun data vp, congrFun pointer vp⟩

theorem Coherent.step_pins (inv : Coherent isTptfs locks) {vp : VnodeId} {mode : LockMode}
    {event : LockEvent τ} (member : (vp, mode) ∈ locks.owned thread)
    (ran : locks.step isTptfs event = some after) (others : event.thread ≠ some thread) :
    after.owned thread = locks.owned thread ∧ after.vData vp = locks.vData vp ∧
      after.vVnlock vp = locks.vVnlock vp := by
  cases event with
  | call other call =>
      have different : thread ≠ other := by
        rintro rfl
        exact others rfl
      simp only [step] at ran
      split at ran
      next =>
        obtain ⟨owned, data, pointer⟩ := start_others ran different
        exact ⟨owned, congrFun data vp, congrFun pointer vp⟩
      next => cases ran
  | run other answer =>
      have different : thread ≠ other := by
        rintro rfl
        exact others rfl
      exact ⟨(advance_others ran different).1, inv.advance_pins member ran⟩
  | vhold held =>
      cases ran
      exact ⟨rfl, rfl, rfl⟩
  | vdrop held =>
      simp only [step] at ran
      split at ran
      next =>
        cases ran
        exact ⟨rfl, rfl, rfl⟩
      next => cases ran

theorem Coherent.run_pins (inv : Coherent isTptfs locks) {vp : VnodeId} {mode : LockMode}
    {events : List (LockEvent τ)} (member : (vp, mode) ∈ locks.owned thread)
    (ran : locks.run isTptfs events = some after)
    (others : ∀ event ∈ events, event.thread ≠ some thread) :
    after.owned thread = locks.owned thread ∧ after.vData vp = locks.vData vp ∧
      after.vVnlock vp = locks.vVnlock vp := by
  induction events generalizing locks with
  | nil =>
      cases ran
      exact ⟨rfl, rfl, rfl⟩
  | cons event rest ih =>
      obtain ⟨next, stepped, ran⟩ := Option.bind_eq_some_iff.mp ran
      obtain ⟨owned, data, pointer⟩ :=
        inv.step_pins member stepped (others event List.mem_cons_self)
      have later := ih (inv.step_keeps stepped) (owned ▸ member) ran
        fun later found => others later (List.mem_cons_of_mem event found)
      exact ⟨later.1.trans owned, later.2.1.trans data, later.2.2.trans pointer⟩

end Pinned

end VnodeLocks

end Tptfs
