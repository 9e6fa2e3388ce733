import Mathlib.Algebra.Order.Group.Multiset
import Mathlib.Data.Multiset.MapFold
import LearningKernels.Tptfs.VnodeLock

/-!
# What the locks of aliases are held for

Every thread holds exactly the locks that its calls have left to it and those that the call
it is in has taken (`Tptfs.VnodeLocks.Coherent`). The lock of a vnode is found through
`v_vnlock`, so the one step that moves this pointer under other threads has to show that
nobody relies on it: whoever tears an alias down holds the lower lock alone, or has not shown
the alias to anybody.
-/

namespace Tptfs

open Machine

/-- The lock a request starts from, on the vnode given. -/
def LockAsk.before (ask : LockAsk) (vp : VnodeId) : Multiset (VnodeId × LockMode) :=
  ask.request.from.elim 0 fun mode => {(vp, mode)}

/-- Who tears an alias down holds the lower lock, unless the mount did not take the alias. -/
def Retire.claims (how : Retire) (xp : TptNode) : Multiset (VnodeId × LockMode) :=
  match how with
  | .failed => 0
  | _ => {(xp.tptLowervp, .exclusive)}

namespace LockStage

/-- The vnodes whose locks a call has, at the step where it stands. -/
def claims : LockStage → Multiset (VnodeId × LockMode)
  | .enter ask => ask.before ask.vp
  | .lower ask lvp => ask.before lvp
  | .recheck ask lvp | .relock ask lvp => {(lvp, ask.request.mode)}
  | .std ask _ => ask.before ask.vp
  | .vdrop ask _ locked | .done ask locked =>
      if locked then {(ask.vp, ask.request.mode)} else 0
  | .unlock vp mode => {(vp, mode)}
  | .unlockLower lvp mode => {(lvp, mode)}
  | .hashget _ lowervp mode => {(lowervp, mode)}
  | .upgrade _ lowervp => {(lowervp, .shared)}
  | .doomedCheck _ lowervp | .getnewvnode _ lowervp _ | .vputLower lowervp =>
      {(lowervp, .exclusive)}
  | .insmntque xp _ | .destructor xp | .hashins xp _ | .lost xp _ =>
      {(xp.tptLowervp, .exclusive)}
  | .hashrem xp how | .ownLock xp how | .clear xp how => how.claims xp
  | .cleared xp how | .unlockOwn xp how => (xp.tptVnode, .exclusive) ::ₘ how.claims xp
  | .vreleLower xp => {(xp.tptVnode, .exclusive)}
  | .passed _ _ lvp mode => {(lvp, mode)}
  | _ => 0

/-- The own lock of an alias that does not use it yet. -/
def ownClaims : LockStage → Multiset (VnodeId × LockMode)
  | .clear xp _ => {(xp.tptVnode, .exclusive)}
  | _ => 0

/-- The call has the node out of the hash, or not yet in it. -/
def Works (stage : LockStage) (xp : TptNode) : Prop :=
  match stage with
  | .hashins node _ | .lost node _ | .ownLock node _ | .clear node _ => node = xp
  | _ => False

/-- The call is about to clear the node. -/
def Retires (stage : LockStage) (xp : TptNode) : Prop :=
  match stage with
  | .hashrem node _ | .ownLock node _ | .clear node _ => node = xp
  | _ => False

end LockStage

namespace VnodeLocks

variable {τ : Type} [DecidableEq τ]

/-- The lock that stands behind a claim on a vnode. -/
def resolve (locks : VnodeLocks τ) (claim : VnodeId × LockMode) : VnodeId × LockMode :=
  (locks.vVnlock claim.1, claim.2)

/-- The vnodes a thread has locked, by the calls that returned and the one it is in. -/
def asserted (locks : VnodeLocks τ) (thread : τ) : Multiset (VnodeId × LockMode) :=
  locks.owned thread + (locks.stage thread).claims

/-- The locks a thread is to hold. -/
def claims (locks : VnodeLocks τ) (thread : τ) : Multiset (VnodeId × LockMode) :=
  (locks.asserted thread).map locks.resolve + (locks.stage thread).ownClaims

/-- No node of the hash is for this mount and lower vnode. -/
def Absent (locks : VnodeLocks τ) (mp : MountId) (lowervp : VnodeId) : Prop :=
  ∀ node ∈ locks.hash, ¬ (node.tptLowervp = lowervp ∧ node.vMount = mp)

/-- The alias belongs to the lower vnode as long as it has a node. -/
def Above (locks : VnodeLocks τ) (vp lvp : VnodeId) : Prop :=
  locks.status vp = .listed ∧ ∀ xp, locks.vData vp = some xp → xp.tptLowervp = lvp

/-- Another alias of the lower vnode of a node. -/
def Beside (locks : VnodeLocks τ) (xp : TptNode) (ovp : VnodeId) : Prop :=
  ovp ≠ xp.tptVnode ∧ locks.status ovp = .listed ∧
    ∃ node, locks.vData ovp = some node ∧ node.tptLowervp = xp.tptLowervp

/-- The node of a vnode, which is out of the hash. -/
def Detached (locks : VnodeLocks τ) (xp : TptNode) : Prop :=
  locks.vData xp.tptVnode = some xp ∧ xp ∉ locks.hash

/-- What is known where an alias is torn down. -/
def Retiring (locks : VnodeLocks τ) (thread : τ) (xp : TptNode) : Retire → Prop
  | .vgone | .lowervp =>
      locks.status xp.tptVnode = .listed ∧ locks.doomed xp.tptVnode = true
  | .lost ovp => locks.status xp.tptVnode = .listed ∧ locks.Beside xp ovp
  | .failed => locks.status xp.tptVnode = .hidden thread

/-- What is known of the alias of a call that has cleared it. -/
def Bare (locks : VnodeLocks τ) (xp : TptNode) (how : Retire) : Prop :=
  locks.vData xp.tptVnode = none ∧ locks.status xp.tptVnode ≠ .fresh ∧
    ∀ ovp, how = .lost ovp → locks.Beside xp ovp

variable (isTptfs : VnodeId → Bool)

/-- What `tpt_lock` knows of its arguments. -/
def AskOk (locks : VnodeLocks τ) (ask : LockAsk) : Prop :=
  locks.status ask.vp = .listed ∧
    (ask.retry = true → isTptfs ask.vp = true ∧ ask.request.from = none)

/-- What a thread knows at each step. -/
def StageOk (locks : VnodeLocks τ) (thread : τ) : LockStage → Prop
  | .idle => True
  | .enter ask => locks.AskOk isTptfs ask ∧ isTptfs ask.vp = true
  | .lower ask lvp =>
      locks.AskOk isTptfs ask ∧ isTptfs lvp = false ∧ locks.Above ask.vp lvp ∧
        (ask.request.from ≠ none → locks.vData ask.vp ≠ none)
  | .lowerWait ask lvp =>
      locks.AskOk isTptfs ask ∧ isTptfs lvp = false ∧ locks.Above ask.vp lvp ∧
        ask.request ≠ .downgrade
  | .recheck ask lvp =>
      locks.AskOk isTptfs ask ∧ isTptfs lvp = false ∧ locks.Above ask.vp lvp ∧
        (ask.request = .downgrade → locks.vData ask.vp ≠ none)
  | .relock ask lvp =>
      locks.AskOk isTptfs ask ∧ isTptfs lvp = false ∧ locks.vData ask.vp = none ∧
        ask.request.from = none
  | .std ask lvp =>
      locks.AskOk isTptfs ask ∧ locks.vData ask.vp = none ∧
        (lvp ≠ none → ask.request.from = none)
  | .stdWait ask lock _ =>
      locks.AskOk isTptfs ask ∧ lock = ask.vp ∧ locks.vData ask.vp = none
  | .vdrop ask _ _ => locks.AskOk isTptfs ask
  | .done ask _ => locks.AskOk isTptfs ask
  | .unlock _ _ => True
  | .unlockLower _ _ => True
  | .unlockDrop _ => True
  | .hashget _ lowervp _ => isTptfs lowervp = false
  | .upgrade _ lowervp => isTptfs lowervp = false
  | .upgradeWait _ lowervp => isTptfs lowervp = false
  | .doomedCheck _ lowervp => isTptfs lowervp = false
  | .getnewvnode mp lowervp direct =>
      isTptfs lowervp = false ∧ (direct = true → locks.Absent mp lowervp)
  | .vputLower lowervp => isTptfs lowervp = false
  | .insmntque xp direct =>
      locks.Detached xp ∧ locks.status xp.tptVnode = .hidden thread ∧
        (direct = true → locks.Absent xp.vMount xp.tptLowervp)
  | .destructor xp => locks.Detached xp ∧ locks.status xp.tptVnode = .hidden thread
  | .hashins xp direct =>
      locks.Detached xp ∧ locks.status xp.tptVnode = .listed ∧
        (direct = true → locks.Absent xp.vMount xp.tptLowervp)
  | .lost xp ovp =>
      locks.Detached xp ∧ locks.status xp.tptVnode = .listed ∧ locks.Beside xp ovp
  | .hashrem xp how =>
      locks.vData xp.tptVnode = some xp ∧ xp ∈ locks.hash ∧
        (how = .vgone ∨ how = .lowervp) ∧ locks.Retiring thread xp how
  | .ownLock xp how => locks.Detached xp ∧ locks.Retiring thread xp how
  | .clear xp how => locks.Detached xp ∧ locks.Retiring thread xp how
  | .cleared xp how => isTptfs xp.tptLowervp = false ∧ locks.Bare xp how
  | .vreleLower xp => locks.Bare xp .vgone
  | .unlockOwn xp how => isTptfs xp.tptLowervp = false ∧ locks.Bare xp how ∧ how ≠ .vgone
  | .passed _ vp lvp _ | .passedOut _ vp lvp _ =>
      isTptfs vp = true ∧ isTptfs lvp = false ∧ locks.Above vp lvp ∧
        (∀ xp, locks.vData vp = some xp → xp ∈ locks.hash ∨ locks.doomed vp = true) ∧
        (locks.vData vp = none → locks.doomed vp = true)

/-- **The invariant.** Locks are held as claimed; a vnode with a node uses the lock of the
lower one and any other vnode its own; and every node that a listed vnode has is in the hash
or in the hands of a thread. -/
structure Coherent (locks : VnodeLocks τ) : Prop where
  balanced : Matched locks.vLock locks.claims
  pointer : ∀ vp, locks.vVnlock vp = (locks.vData vp).elim vp TptNode.tptLowervp
  node : ∀ vp xp, locks.vData vp = some xp →
    xp.tptVnode = vp ∧ isTptfs vp = true ∧ isTptfs xp.tptLowervp = false
  fresh : ∀ vp, locks.status vp = .fresh →
    locks.vData vp = none ∧ isTptfs vp = true ∧ locks.doomed vp = false
  hashed : ∀ xp ∈ locks.hash,
    locks.vData xp.tptVnode = some xp ∧ locks.status xp.tptVnode = .listed
  distinct : locks.hash.Nodup
  indexed : ∀ vp xp, locks.vData vp = some xp → locks.status vp = .listed →
    xp ∈ locks.hash ∨ ∃ thread, (locks.stage thread).Works xp
  doomedBy : ∀ vp xp, locks.doomed vp = true → locks.vData vp = some xp →
    ∃ thread, (locks.stage thread).Retires xp
  claimed : ∀ thread vp mode, (vp, mode) ∈ locks.asserted thread →
    locks.status vp ≠ .fresh ∧ (locks.vData vp ≠ none → locks.status vp = .listed)
  stages : ∀ thread, locks.StageOk isTptfs thread (locks.stage thread)

variable {isTptfs} {locks : VnodeLocks τ} {thread : τ}

/-- A claim can be made on the vnode. -/
def Claimable (locks : VnodeLocks τ) (vp : VnodeId) : Prop :=
  locks.status vp ≠ .fresh ∧ (locks.vData vp ≠ none → locks.status vp = .listed)

/-- The locks that a call at some step is to hold. -/
def stageLocks (locks : VnodeLocks τ) (stage : LockStage) : Multiset (VnodeId × LockMode) :=
  stage.claims.map locks.resolve + stage.ownClaims

omit [DecidableEq τ] in
theorem claims_eq (locks : VnodeLocks τ) (thread : τ) :
    locks.claims thread =
      (locks.owned thread).map locks.resolve + locks.stageLocks (locks.stage thread) := by
  rw [claims, asserted, Multiset.map_add, add_assoc, stageLocks]

/-- The claims of a thread are exchanged when it takes a step. -/
theorem claims_step (locks : VnodeLocks τ) (thread : τ)
    (owned : Multiset (VnodeId × LockMode)) (stage : LockStage) :
    { locks with
      owned := Function.update locks.owned thread owned
      stage := Function.update locks.stage thread stage }.claims =
      Function.update locks.claims thread (owned.map locks.resolve + locks.stageLocks stage) := by
  funext other
  rw [claims_eq]
  by_cases mine : other = thread
  · subst mine
    simp only [Function.update_self]
    rfl
  · simp only [Function.update_of_ne mine]
    rw [claims_eq]
    rfl

theorem claims_own (locks : VnodeLocks τ) (thread : τ) (vp : VnodeId) (mode : LockMode) :
    (locks.own thread vp mode).claims = Function.update locks.claims thread
      ((locks.owned thread).map locks.resolve + {(locks.vVnlock vp, mode)}) := by
  rw [own, claims_step, Multiset.map_cons]
  congr 1
  change locks.resolve (vp, mode) ::ₘ _ + (0 + 0) = _
  rw [add_zero, add_zero, Multiset.add_comm, Multiset.singleton_add]
  rfl

/-- A call takes over the claim of its caller. -/
theorem claims_enter {new : LockStage} {vp : VnodeId} {mode : LockMode}
    (idle : locks.stage thread = .idle) (member : (vp, mode) ∈ locks.owned thread)
    (same : locks.stageLocks new = {(locks.vVnlock vp, mode)}) (other : τ) :
    { locks with
      owned := Function.update locks.owned thread ((locks.owned thread).erase (vp, mode))
      stage := Function.update locks.stage thread new }.claims other = locks.claims other := by
  rw [claims_step, same]
  by_cases mine : other = thread
  · subst mine
    rw [Function.update_self, claims_eq, idle]
    nth_rewrite 2 [← Multiset.cons_erase member]
    rw [Multiset.map_cons, Multiset.add_comm, Multiset.singleton_add]
    change _ = _ + (0 + 0)
    rw [add_zero, add_zero]
    rfl
  · rw [Function.update_of_ne mine]

omit [DecidableEq τ] in
theorem claimable_of_listed {vp : VnodeId} (listed : locks.status vp = .listed) :
    locks.Claimable vp := by
  refine ⟨?_, fun _ => listed⟩
  rw [listed]
  exact nofun

namespace Coherent

variable (inv : Coherent isTptfs locks)

include inv

theorem vVnlock_none {vp : VnodeId} (bare : locks.vData vp = none) : locks.vVnlock vp = vp := by
  rw [inv.pointer, bare]
  rfl

theorem vVnlock_some {vp : VnodeId} {xp : TptNode} (data : locks.vData vp = some xp) :
    locks.vVnlock vp = xp.tptLowervp := by
  rw [inv.pointer, data]
  rfl

theorem plain {vp : VnodeId} (other : isTptfs vp = false) : locks.vData vp = none := by
  cases data : locks.vData vp with
  | none => rfl
  | some xp =>
      have tptfs := (inv.node vp xp data).2.1
      rw [other] at tptfs
      cases tptfs

theorem vVnlock_plain {vp : VnodeId} (other : isTptfs vp = false) : locks.vVnlock vp = vp :=
  inv.vVnlock_none (inv.plain other)

theorem claimable_plain {vp : VnodeId} (other : isTptfs vp = false) : locks.Claimable vp := by
  refine ⟨?_, fun data => absurd (inv.plain other) data⟩
  intro fresh
  have tptfs := (inv.fresh vp fresh).2.1
  rw [other] at tptfs
  cases tptfs

/-- **Steps that leave the nodes alone.** Only what the thread itself claims and knows has to
be looked at. -/
theorem quiet {vLock : VnodeId → Lock τ} {live : List TptNode} {holdCount : VnodeId → Int}
    {outside : VnodeId → Nat} {owned : τ → Multiset (VnodeId × LockMode)}
    {stage : τ → LockStage}
    (balanced : Matched vLock { locks with owned, stage }.claims)
    (ownedOthers : ∀ other, other ≠ thread → owned other = locks.owned other)
    (stageOthers : ∀ other, other ≠ thread → stage other = locks.stage other)
    (works : ∀ xp, (locks.stage thread).Works xp → (stage thread).Works xp)
    (retires : ∀ xp, (locks.stage thread).Retires xp → (stage thread).Retires xp)
    (claimed : ∀ vp mode, (vp, mode) ∈ owned thread + (stage thread).claims →
      locks.Claimable vp)
    (known : locks.StageOk isTptfs thread (stage thread)) :
    Coherent isTptfs { locks with vLock, live, holdCount, outside, owned, stage } where
  balanced := balanced
  pointer := inv.pointer
  node := inv.node
  fresh := inv.fresh
  hashed := inv.hashed
  distinct := inv.distinct
  indexed := by
    intro vp xp data listed
    obtain hashed | ⟨worker, working⟩ := inv.indexed vp xp data listed
    · exact .inl hashed
    · refine .inr ⟨worker, ?_⟩
      by_cases mine : worker = thread
      · subst mine
        exact works xp working
      · change (stage worker).Works xp
        rw [stageOthers worker mine]
        exact working
  doomedBy := by
    intro vp xp doomed data
    obtain ⟨worker, retiring⟩ := inv.doomedBy vp xp doomed data
    refine ⟨worker, ?_⟩
    by_cases mine : worker = thread
    · subst mine
      exact retires xp retiring
    · change (stage worker).Retires xp
      rw [stageOthers worker mine]
      exact retiring
  claimed := by
    intro other vp mode member
    by_cases mine : other = thread
    · subst mine
      exact claimed vp mode member
    · change (vp, mode) ∈ owned other + (stage other).claims at member
      rw [ownedOthers other mine, stageOthers other mine] at member
      exact inv.claimed other vp mode member
  stages := by
    intro other
    by_cases mine : other = thread
    · subst mine
      exact known
    · change locks.StageOk isTptfs other (stage other)
      rw [stageOthers other mine]
      exact inv.stages other

variable {vLock : VnodeId → Lock τ} {live : List TptNode} {holdCount : VnodeId → Int}
  {outside : VnodeId → Nat} {old new : LockStage}

/-- A step inside a call. -/
theorem onward (standing : locks.stage thread = old)
    (balanced : Matched vLock (Function.update locks.claims thread
      ((locks.owned thread).map locks.resolve + locks.stageLocks new)))
    (works : ∀ xp, old.Works xp → new.Works xp) (retires : ∀ xp, old.Retires xp → new.Retires xp)
    (claimed : ∀ claim ∈ new.claims, locks.Claimable claim.1)
    (known : locks.StageOk isTptfs thread new) :
    Coherent isTptfs { locks with
      vLock, live, holdCount, outside
      stage := Function.update locks.stage thread new } := by
  have kept : Function.update locks.owned thread (locks.owned thread) = locks.owned :=
    Function.update_eq_self thread locks.owned
  refine @quiet τ _ isTptfs locks thread inv _ _ _ _ _ _ ?_ (fun _ _ => rfl)
    (fun other apart => Function.update_of_ne apart _ _) ?_ ?_ ?_ ?_
  · have same := claims_step locks thread (locks.owned thread) new
    rw [kept] at same
    rw [same]
    exact balanced
  · rw [standing, Function.update_self]
    exact works
  · rw [standing, Function.update_self]
    exact retires
  · intro vp mode member
    rw [Function.update_self] at member
    obtain owned | stage := Multiset.mem_add.mp member
    · exact inv.claimed thread vp mode (Multiset.mem_add.mpr (.inl owned))
    · exact claimed (vp, mode) stage
  · rw [Function.update_self]
    exact known

/-- A call that returns with a vnode locked. -/
theorem returns (standing : locks.stage thread = old) {vp : VnodeId} {mode : LockMode}
    (balanced : Matched vLock (Function.update locks.claims thread
      ((locks.owned thread).map locks.resolve + {(locks.vVnlock vp, mode)})))
    (works : ∀ xp, ¬ old.Works xp) (retires : ∀ xp, ¬ old.Retires xp)
    (claimable : locks.Claimable vp) :
    Coherent isTptfs { locks with
      vLock, live, holdCount, outside
      owned := Function.update locks.owned thread ((vp, mode) ::ₘ locks.owned thread)
      stage := Function.update locks.stage thread .idle } := by
  refine @quiet τ _ isTptfs locks thread inv _ _ _ _ _ _ ?_
    (fun other apart => Function.update_of_ne apart _ _)
    (fun other apart => Function.update_of_ne apart _ _) ?_ ?_ ?_ ?_
  · have same := claims_own locks thread vp mode
    rw [own] at same
    rw [same]
    exact balanced
  · rw [standing]
    exact fun xp working => absurd working (works xp)
  · rw [standing]
    exact fun xp retiring => absurd retiring (retires xp)
  · intro other query member
    rw [Function.update_self, Function.update_self] at member
    obtain owned | stage := Multiset.mem_add.mp member
    · obtain same | earlier := Multiset.mem_cons.mp owned
      · cases same
        exact claimable
      · exact inv.claimed thread other query (Multiset.mem_add.mpr (.inl earlier))
    · exact absurd stage (Multiset.notMem_zero _)
  · rw [Function.update_self]
    trivial

/-- A call that takes over a lock of its caller. -/
theorem enters (idle : locks.stage thread = .idle) {vp : VnodeId} {mode : LockMode}
    (member : (vp, mode) ∈ locks.owned thread)
    (same : locks.stageLocks new = {(locks.vVnlock vp, mode)})
    (claimed : ∀ claim ∈ new.claims, locks.Claimable claim.1)
    (known : locks.StageOk isTptfs thread new) :
    Coherent isTptfs { locks with
      live, holdCount, outside
      owned := Function.update locks.owned thread ((locks.owned thread).erase (vp, mode))
      stage := Function.update locks.stage thread new } := by
  refine @quiet τ _ isTptfs locks thread inv _ _ _ _ _ _ ?_
    (fun other apart => Function.update_of_ne apart _ _)
    (fun other apart => Function.update_of_ne apart _ _) ?_ ?_ ?_ ?_
  · exact inv.balanced.congr (claims_enter idle member same)
  · rw [idle]
    exact fun xp working => working.elim
  · rw [idle]
    exact fun xp retiring => retiring.elim
  · intro other query member
    rw [Function.update_self, Function.update_self] at member
    obtain owned | stage := Multiset.mem_add.mp member
    · exact inv.claimed thread other query
        (Multiset.mem_add.mpr (.inl (Multiset.mem_of_mem_erase owned)))
    · exact claimed (other, query) stage
  · rw [Function.update_self]
    exact known

section Locks

variable {part rest : Multiset (VnodeId × LockMode)} {index : VnodeId} {mode : LockMode}
  {next : Lock τ} (standing : locks.stage thread = old)

include standing

theorem still (same : part = locks.stageLocks old) :
    Matched locks.vLock (Function.update locks.claims thread
      ((locks.owned thread).map locks.resolve + part)) := by
  refine inv.balanced.congr fun other => ?_
  by_cases mine : other = thread
  · subst mine
    rw [Function.update_self, claims_eq, standing, same]
  · rw [Function.update_of_ne mine]

theorem granted (acquired : (locks.vLock index).acquire thread mode = some next)
    (more : part = (index, mode) ::ₘ locks.stageLocks old) :
    Matched (Function.update locks.vLock index next) (Function.update locks.claims thread
      ((locks.owned thread).map locks.resolve + part)) := by
  refine inv.balanced.acquire acquired ?_ fun other apart => Function.update_of_ne apart _ _
  rw [Function.update_self, claims_eq, standing, more, Multiset.add_cons]

theorem given (released : (locks.vLock index).release thread = some next)
    (less : locks.stageLocks old = (index, mode) ::ₘ part) :
    Matched (Function.update locks.vLock index next) (Function.update locks.claims thread
      ((locks.owned thread).map locks.resolve + part)) := by
  have mine : locks.claims thread = (index, mode) ::ₘ Function.update locks.claims thread
      ((locks.owned thread).map locks.resolve + part) thread := by
    rw [Function.update_self, claims_eq, standing, less, Multiset.add_cons]
  exact inv.balanced.release released mine fun other apart => Function.update_of_ne apart _ _

theorem upgraded (acquired : (locks.vLock index).upgrade thread = some next)
    (before : locks.stageLocks old = (index, .shared) ::ₘ rest)
    (behind : part = (index, .exclusive) ::ₘ rest) :
    Matched (Function.update locks.vLock index next) (Function.update locks.claims thread
      ((locks.owned thread).map locks.resolve + part)) := by
  refine @Matched.upgrade τ VnodeId _ _ _ _ _ _ _ ((locks.owned thread).map locks.resolve + rest)
    inv.balanced _ acquired ?_ ?_ fun other apart => Function.update_of_ne apart _ _
  · rw [claims_eq, standing, before, Multiset.add_cons]
  · rw [Function.update_self, behind, Multiset.add_cons]

theorem downgraded (acquired : (locks.vLock index).downgrade thread = some next)
    (before : locks.stageLocks old = (index, .exclusive) ::ₘ rest)
    (behind : part = (index, .shared) ::ₘ rest) :
    Matched (Function.update locks.vLock index next) (Function.update locks.claims thread
      ((locks.owned thread).map locks.resolve + part)) := by
  refine @Matched.downgrade τ VnodeId _ _ _ _ _ _ _
    ((locks.owned thread).map locks.resolve + rest)
    inv.balanced _ acquired ?_ ?_ fun other apart => Function.update_of_ne apart _ _
  · rw [claims_eq, standing, before, Multiset.add_cons]
  · rw [Function.update_self, behind, Multiset.add_cons]

end Locks

end Coherent

end VnodeLocks

end Tptfs
