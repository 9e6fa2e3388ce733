import LearningKernels.Tptfs.VnodeLockCalls

/-!
# What a thread knows while others run

A thread that stands in its call relies on facts about nodes: which vnode has one, which are
listed and which are in the hash. They survive the steps of the others, because such a step is
on a vnode that nobody else has seen, or because the thread that takes it holds the lower lock
alone (`Tptfs.VnodeLocks.Apart`).
-/

namespace Tptfs

open Machine

theorem Retire.mem_claims (how : Retire) (xp : TptNode) (shared : how ≠ .failed) :
    (xp.tptLowervp, .exclusive) ∈ how.claims xp := by
  cases how with
  | failed => exact absurd rfl shared
  | vgone => exact Multiset.mem_singleton_self _
  | lowervp => exact Multiset.mem_singleton_self _
  | lost ovp => exact Multiset.mem_singleton_self _

theorem Retire.ne_failed_of_lost {how : Retire} {ovp : VnodeId} (lost : how = .lost ovp) :
    how ≠ .failed := by
  rintro rfl
  cases lost

theorem Retire.eq_of_mem_claims (how : Retire) {xp : TptNode} {claim : VnodeId × LockMode}
    (member : claim ∈ how.claims xp) : claim.1 = xp.tptLowervp := by
  cases how with
  | failed => exact absurd member (Multiset.notMem_zero _)
  | vgone => rw [Multiset.mem_singleton.mp member]
  | lowervp => rw [Multiset.mem_singleton.mp member]
  | lost ovp => rw [Multiset.mem_singleton.mp member]

namespace VnodeLocks

variable {τ : Type} {isTptfs : VnodeId → Bool} {locks after : VnodeLocks τ}
  {thread other : τ} {answer : LockAnswer} {xp : TptNode}

/-- What every step does to the vnodes: they are listed, doomed and cleared for good. -/
structure Grown (locks after : VnodeLocks τ) : Prop where
  listed : ∀ vp, locks.status vp = .listed → after.status vp = .listed
  shown : ∀ vp, locks.status vp ≠ .fresh → after.status vp ≠ .fresh
  bare : ∀ vp, locks.vData vp = none → locks.status vp ≠ .fresh → after.vData vp = none
  doomed : ∀ vp, locks.doomed vp = true → after.doomed vp = true

/-- What a step may do to the nodes while another thread is in a call. -/
structure Apart (locks after : VnodeLocks τ) (thread other : τ) : Prop extends
    Grown locks after where
  hidden : ∀ vp, locks.status vp = .hidden other → after.status vp = .hidden other
  data : ∀ vp xp, locks.vData vp = some xp → after.vData vp = some xp ∨
    after.vData vp = none ∧ (locks.status vp = .hidden thread ∨
      locks.status vp = .listed ∧ xp ∉ locks.hash ∧
        ∀ mode, (xp.tptLowervp, mode) ∉ locks.claims other)
  added : ∀ xp ∈ after.hash, xp ∈ locks.hash ∨
    locks.status xp.tptVnode = .listed ∧ ∀ mode, (xp.tptLowervp, mode) ∉ locks.claims other
  removed : ∀ xp ∈ locks.hash, xp ∈ after.hash ∨
    locks.doomed xp.tptVnode = true ∧ ∀ mode, (xp.tptLowervp, mode) ∉ locks.claims other

theorem Grown.claimable {vp : VnodeId} (grown : Grown locks after)
    (claimable : locks.Claimable vp) : after.Claimable vp := by
  refine ⟨grown.shown vp claimable.1, fun now => grown.listed vp (claimable.2 ?_)⟩
  intro bare
  exact now (grown.bare vp bare claimable.1)

/-- The claims of a thread stand for the same locks as long as their vnodes do. -/
theorem claims_congr (owned : after.owned thread = locks.owned thread)
    (stage : after.stage thread = locks.stage thread)
    (pointer : ∀ claim ∈ locks.asserted thread,
      after.vVnlock claim.1 = locks.vVnlock claim.1) :
    after.claims thread = locks.claims thread := by
  have asserted : after.asserted thread = locks.asserted thread := by
    rw [asserted, owned, stage, VnodeLocks.asserted]
  rw [claims, claims, asserted, stage]
  congr 1
  refine Multiset.map_congr rfl fun claim member => ?_
  rw [resolve, resolve, pointer claim member]

theorem mem_claims {stage : LockStage} (standing : locks.stage thread = stage)
    {vp : VnodeId} {mode : LockMode} (member : (vp, mode) ∈ stage.claims) :
    (locks.vVnlock vp, mode) ∈ locks.claims thread := by
  rw [claims_eq, standing]
  refine Multiset.mem_add.mpr (.inr (Multiset.mem_add.mpr (.inl ?_)))
  exact Multiset.mem_map_of_mem locks.resolve member

/-- The thread has the node to itself: nobody has seen the vnode, or it has locked it. -/
def Mine (locks : VnodeLocks τ) (thread : τ) (xp : TptNode) : Prop :=
  locks.status xp.tptVnode = .hidden thread ∨
    locks.status xp.tptVnode = .listed ∧ ∃ mode, (xp.tptLowervp, mode) ∈ locks.claims thread

namespace Apart

variable (apart : Apart locks after thread other)

include apart

theorem data_listed {vp : VnodeId} {mode : LockMode} (data : locks.vData vp = some xp)
    (listed : locks.status vp = .listed) (claimed : (xp.tptLowervp, mode) ∈ locks.claims other) :
    after.vData vp = some xp := by
  obtain kept | ⟨-, hidden | ⟨-, -, nobody⟩⟩ := apart.data vp xp data
  · exact kept
  · rw [listed] at hidden
    cases hidden
  · exact absurd claimed (nobody mode)

theorem data_mine (different : other ≠ thread) (data : locks.vData xp.tptVnode = some xp)
    (mine : locks.Mine other xp) : after.vData xp.tptVnode = some xp := by
  obtain hidden | ⟨listed, mode, claimed⟩ := mine
  · obtain kept | ⟨-, gone | ⟨listed, -⟩⟩ := apart.data _ xp data
    · exact kept
    · rw [hidden] at gone
      cases gone
      exact absurd rfl different
    · rw [hidden] at listed
      cases listed
  · exact apart.data_listed data listed claimed

theorem detached (different : other ≠ thread) (detached : locks.Detached xp)
    (mine : locks.Mine other xp) : after.Detached xp := by
  refine ⟨apart.data_mine different detached.1 mine, fun member => ?_⟩
  obtain earlier | ⟨listed, nobody⟩ := apart.added xp member
  · exact detached.2 earlier
  · obtain hidden | ⟨-, mode, claimed⟩ := mine
    · rw [hidden] at listed
      cases listed
    · exact nobody mode claimed

theorem above {vp lvp : VnodeId} (above : locks.Above vp lvp) : after.Above vp lvp := by
  refine ⟨apart.listed vp above.1, fun xp now => above.2 xp ?_⟩
  cases data : locks.vData vp with
  | none =>
      have gone := apart.bare vp data (claimable_of_listed above.1).1
      rw [gone] at now
      cases now
  | some node =>
      obtain kept | ⟨gone, -⟩ := apart.data vp node data
      · rw [kept] at now
        exact now
      · rw [gone] at now
        cases now

theorem beside {ovp : VnodeId} {mode : LockMode} (beside : locks.Beside xp ovp)
    (claimed : (xp.tptLowervp, mode) ∈ locks.claims other) : after.Beside xp ovp := by
  obtain ⟨different, listed, node, data, below⟩ := beside
  refine ⟨different, apart.listed ovp listed, node, ?_, below⟩
  rw [← below] at claimed
  exact apart.data_listed data listed claimed

theorem absent {mp : MountId} {lowervp : VnodeId} {mode : LockMode}
    (absent : locks.Absent mp lowervp) (claimed : (lowervp, mode) ∈ locks.claims other) :
    after.Absent mp lowervp := by
  rintro node member ⟨below, mounted⟩
  obtain earlier | ⟨-, nobody⟩ := apart.added node member
  · exact absent node earlier ⟨below, mounted⟩
  · rw [below] at nobody
    exact nobody mode claimed

theorem bare_keeps {how : Retire} (bare : locks.Bare xp how)
    (claimed : ∀ ovp, how = .lost ovp → (xp.tptLowervp, .exclusive) ∈ locks.claims other) :
    after.Bare xp how :=
  ⟨apart.bare _ bare.1 bare.2.1, apart.shown _ bare.2.1, fun ovp lost =>
    apart.beside (bare.2.2 ovp lost) (claimed ovp lost)⟩

theorem asked {ask : LockAsk} (asked : locks.AskOk isTptfs ask) : after.AskOk isTptfs ask :=
  ⟨apart.listed _ asked.1, asked.2⟩

theorem retiring {how : Retire} (retiring : locks.Retiring other xp how)
    (claimed : how ≠ .failed → (xp.tptLowervp, .exclusive) ∈ locks.claims other) :
    locks.Mine other xp ∧ after.Retiring other xp how := by
  cases how with
  | vgone =>
      exact ⟨.inr ⟨retiring.1, _, claimed nofun⟩, apart.listed _ retiring.1,
        apart.doomed _ retiring.2⟩
  | lowervp =>
      exact ⟨.inr ⟨retiring.1, _, claimed nofun⟩, apart.listed _ retiring.1,
        apart.doomed _ retiring.2⟩
  | lost ovp =>
      exact ⟨.inr ⟨retiring.1, _, claimed nofun⟩, apart.listed _ retiring.1,
        apart.beside retiring.2 (claimed nofun)⟩
  | failed => exact ⟨.inl retiring, apart.hidden _ retiring⟩

end Apart

variable [DecidableEq τ]

theorem Coherent.passed_others {vp lvp : VnodeId} (inv : Coherent isTptfs locks)
    (apart : Apart locks after thread other)
    (known : isTptfs vp = true ∧ isTptfs lvp = false ∧ locks.Above vp lvp ∧
      (∀ xp, locks.vData vp = some xp → xp ∈ locks.hash ∨ locks.doomed vp = true) ∧
      (locks.vData vp = none → locks.doomed vp = true)) :
    isTptfs vp = true ∧ isTptfs lvp = false ∧ after.Above vp lvp ∧
      (∀ xp, after.vData vp = some xp → xp ∈ after.hash ∨ after.doomed vp = true) ∧
      (after.vData vp = none → after.doomed vp = true) := by
  obtain ⟨tptfs, plain, above, hashed, bare⟩ := known
  refine ⟨tptfs, plain, apart.above above, ?_, ?_⟩
  · intro xp now
    cases data : locks.vData vp with
    | none => exact .inr (apart.doomed vp (bare data))
    | some node =>
        obtain kept | ⟨gone, -⟩ := apart.data vp node data
        · rw [kept] at now
          cases now
          obtain member | doomed := hashed xp data
          · obtain kept | ⟨doomed, -⟩ := apart.removed xp member
            · exact .inl kept
            · rw [(inv.node vp xp data).1] at doomed
              exact .inr (apart.doomed vp doomed)
          · exact .inr (apart.doomed vp doomed)
        · rw [gone] at now
          cases now
  · intro now
    apply apart.doomed
    cases data : locks.vData vp with
    | none => exact bare data
    | some node =>
        obtain kept | ⟨-, hidden | ⟨-, out, -⟩⟩ := apart.data vp node data
        · rw [kept] at now
          cases now
        · rw [above.1] at hidden
          cases hidden
        · exact (hashed node data).resolve_left out

/-- **What a thread knows survives the steps of the others.** -/
theorem Coherent.others (inv : Coherent isTptfs locks) (different : other ≠ thread)
    (apart : Apart locks after thread other) :
    after.StageOk isTptfs other (locks.stage other) := by
  have known := inv.stages other
  -- a claim of the call on a vnode of the other file system is on its own lock
  have holds : ∀ lvp mode, isTptfs lvp = false → (lvp, mode) ∈ (locks.stage other).claims →
      (lvp, mode) ∈ locks.claims other := by
    intro lvp mode plain member
    have held := mem_claims rfl member
    rwa [inv.vVnlock_plain plain] at held
  have shown : ∀ vp, locks.status vp = .listed → locks.status vp ≠ .fresh :=
    fun vp listed => (claimable_of_listed listed).1
  cases standing : locks.stage other with
  | idle => trivial
  | enter ask =>
      rw [standing] at known
      exact ⟨apart.asked known.1, known.2⟩
  | lower ask lvp =>
      rw [standing] at known holds
      obtain ⟨asked, plain, above, started⟩ := known
      refine ⟨apart.asked asked, plain, apart.above above, fun request => ?_⟩
      obtain ⟨xp, data⟩ := Option.ne_none_iff_exists'.mp (started request)
      obtain ⟨mode, start⟩ := Option.ne_none_iff_exists'.mp request
      have claimed : (lvp, mode) ∈ ask.before lvp := by
        rw [LockAsk.before, start]
        exact Multiset.mem_singleton_self _
      have below := above.2 xp data
      subst below
      rw [apart.data_listed data asked.1 (holds _ mode plain claimed)]
      exact Option.some_ne_none xp
  | lowerWait ask lvp =>
      rw [standing] at known
      exact ⟨apart.asked known.1, known.2.1, apart.above known.2.2.1, known.2.2.2⟩
  | recheck ask lvp =>
      rw [standing] at known holds
      obtain ⟨asked, plain, above, started⟩ := known
      refine ⟨apart.asked asked, plain, apart.above above, fun request => ?_⟩
      obtain ⟨xp, data⟩ := Option.ne_none_iff_exists'.mp (started request)
      have below := above.2 xp data
      subst below
      rw [apart.data_listed data asked.1 (holds _ _ plain (Multiset.mem_singleton_self _))]
      exact Option.some_ne_none xp
  | relock ask lvp =>
      rw [standing] at known
      obtain ⟨asked, plain, data, start⟩ := known
      exact ⟨apart.asked asked, plain, apart.bare _ data (shown _ asked.1), start⟩
  | std ask lvp =>
      rw [standing] at known
      obtain ⟨asked, data, start⟩ := known
      exact ⟨apart.asked asked, apart.bare _ data (shown _ asked.1), start⟩
  | stdWait ask lock lvp =>
      rw [standing] at known
      obtain ⟨asked, same, data⟩ := known
      exact ⟨apart.asked asked, same, apart.bare _ data (shown _ asked.1)⟩
  | vdrop ask lvp locked =>
      rw [standing] at known
      exact apart.asked known
  | done ask locked =>
      rw [standing] at known
      exact apart.asked known
  | unlock vp mode => trivial
  | unlockLower lvp mode => trivial
  | unlockDrop lvp => trivial
  | hashget mp lowervp mode =>
      rw [standing] at known
      exact known
  | upgrade mp lowervp =>
      rw [standing] at known
      exact known
  | upgradeWait mp lowervp =>
      rw [standing] at known
      exact known
  | doomedCheck mp lowervp =>
      rw [standing] at known
      exact known
  | vputLower lowervp =>
      rw [standing] at known
      exact known
  | getnewvnode mp lowervp direct =>
      rw [standing] at known holds
      have claimed := holds _ _ known.1 (Multiset.mem_singleton_self _)
      exact ⟨known.1, fun first => apart.absent (known.2 first) claimed⟩
  | insmntque xp direct =>
      rw [standing] at known holds
      obtain ⟨detached, hidden, absent⟩ := known
      have claimed := holds _ _ (inv.plain_below detached.1) (Multiset.mem_singleton_self _)
      exact ⟨apart.detached different detached (.inl hidden), apart.hidden _ hidden,
        fun first => apart.absent (absent first) claimed⟩
  | destructor xp =>
      rw [standing] at known
      exact ⟨apart.detached different known.1 (.inl known.2), apart.hidden _ known.2⟩
  | hashins xp direct =>
      rw [standing] at known holds
      obtain ⟨detached, listed, absent⟩ := known
      have claimed := holds _ _ (inv.plain_below detached.1) (Multiset.mem_singleton_self _)
      exact ⟨apart.detached different detached (.inr ⟨listed, _, claimed⟩), apart.listed _ listed,
        fun first => apart.absent (absent first) claimed⟩
  | lost xp ovp =>
      rw [standing] at known holds
      obtain ⟨detached, listed, beside⟩ := known
      have claimed := holds _ _ (inv.plain_below detached.1) (Multiset.mem_singleton_self _)
      exact ⟨apart.detached different detached (.inr ⟨listed, _, claimed⟩), apart.listed _ listed,
        apart.beside beside claimed⟩
  | hashrem xp how =>
      rw [standing] at known holds
      obtain ⟨data, member, called, retiring⟩ := known
      have claimed : (xp.tptLowervp, .exclusive) ∈ locks.claims other := by
        refine holds _ _ (inv.plain_below data) ?_
        obtain rfl | rfl := called
        all_goals exact Multiset.mem_singleton_self _
      obtain ⟨mine, retires⟩ := apart.retiring retiring fun _ => claimed
      refine ⟨apart.data_mine different data mine, ?_, called, retires⟩
      obtain kept | ⟨-, nobody⟩ := apart.removed xp member
      · exact kept
      · exact absurd claimed (nobody _)
  | ownLock xp how =>
      rw [standing] at known holds
      obtain ⟨detached, retiring⟩ := known
      have claimed : how ≠ .failed → (xp.tptLowervp, .exclusive) ∈ locks.claims other := by
        intro shared
        refine holds _ _ (inv.plain_below detached.1) (how.mem_claims xp shared)
      obtain ⟨mine, retires⟩ := apart.retiring retiring claimed
      exact ⟨apart.detached different detached mine, retires⟩
  | clear xp how =>
      rw [standing] at known holds
      obtain ⟨detached, retiring⟩ := known
      have claimed : how ≠ .failed → (xp.tptLowervp, .exclusive) ∈ locks.claims other := by
        intro shared
        refine holds _ _ (inv.plain_below detached.1) (how.mem_claims xp shared)
      obtain ⟨mine, retires⟩ := apart.retiring retiring claimed
      exact ⟨apart.detached different detached mine, retires⟩
  | cleared xp how =>
      rw [standing] at known holds
      refine ⟨known.1, apart.bare_keeps known.2 fun ovp lost => holds _ _ known.1 ?_⟩
      exact Multiset.mem_cons_of_mem (how.mem_claims xp (Retire.ne_failed_of_lost lost))
  | vreleLower xp =>
      rw [standing] at known
      exact apart.bare_keeps known fun ovp lost => by cases lost
  | unlockOwn xp how =>
      rw [standing] at known holds
      refine ⟨known.1, apart.bare_keeps known.2.1 fun ovp lost => holds _ _ known.1 ?_, known.2.2⟩
      exact Multiset.mem_cons_of_mem (how.mem_claims xp (Retire.ne_failed_of_lost lost))
  | passed op vp lvp mode =>
      rw [standing] at known
      exact inv.passed_others apart known
  | passedOut op vp lvp mode =>
      rw [standing] at known
      exact inv.passed_others apart known

end VnodeLocks

end Tptfs
