import LearningKernels.Machine.SharedLock
import LearningKernels.Tptfs.Alias

/-!
# The locks of aliases

A tptfs vnode uses the lock of its lower vnode until it is reclaimed, and its own lock from
then on. `tpt_lock` may sleep for the lower lock while the vnode is reclaimed, and so looks
again once it has it; `tpt_reclaim` takes the own lock before it switches over, so that the
caller has the vnode locked throughout. Here any number of threads run `tpt_lock`,
`tpt_unlock`, `tpt_nodeget`, `tpt_reclaim`, `tptfs_reclaim_lowervp`, `tptfs_unlink_lowervp`,
and the parts of `tpt_lookup` and `tpt_bypass` around an operation of the lower file system.
What is done under an interlock or the hash lock is one step. Lower vnodes belong to another
file system and are locked by `vop_stdlock`.
-/

namespace Tptfs

open Machine

/-- The lock requests that `lockmgr` gets for vnodes. `LK_TRYUPGRADE`, which does not wait, is
left out. -/
inductive LockRequest where
  | shared
  | exclusive
  | upgrade
  | downgrade
  deriving DecidableEq, Repr

/-- The mode a request is for. -/
def LockRequest.mode : LockRequest → LockMode
  | .shared | .downgrade => .shared
  | .exclusive | .upgrade => .exclusive

/-- The mode in which the lock has to be held already. -/
def LockRequest.from : LockRequest → Option LockMode
  | .shared | .exclusive => none
  | .upgrade => some .shared
  | .downgrade => some .exclusive

/-- The arguments of `tpt_lock`. With `retry` the caller is `vn_lock`, which calls again after
an error; `outer` is a vnode that the caller holds and drops afterwards. -/
structure LockAsk where
  vp : VnodeId
  request : LockRequest
  retry : Bool
  outer : Option VnodeId
  deriving DecidableEq, Repr

/-- Who tears an alias down: `tpt_reclaim` for a `vgone` of the alias, `tpt_reclaim` with
`NULLV_NOUNLOCK`, or `tpt_destroy_proto` after `tpt_hashins` or from `tpt_insmntque_dtr`. -/
inductive Retire where
  | vgone
  | lowervp
  | lost (ovp : VnodeId)
  | failed
  deriving DecidableEq, Repr

/-- The operations that are passed down with the lower vnode locked. -/
inductive Passed where
  | lookup
  | bypass
  deriving DecidableEq, Repr

/-- Where a thread stands: in front of the step named. `direct` says that `tpt_nodeget` found
the lower vnode locked exclusively. -/
inductive LockStage where
  | idle
  | enter (ask : LockAsk)
  | lower (ask : LockAsk) (lvp : VnodeId)
  | lowerWait (ask : LockAsk) (lvp : VnodeId)
  | recheck (ask : LockAsk) (lvp : VnodeId)
  | relock (ask : LockAsk) (lvp : VnodeId)
  | std (ask : LockAsk) (lvp : Option VnodeId)
  | stdWait (ask : LockAsk) (lock : VnodeId) (lvp : Option VnodeId)
  | vdrop (ask : LockAsk) (lvp : VnodeId) (locked : Bool)
  | done (ask : LockAsk) (locked : Bool)
  | unlock (vp : VnodeId) (mode : LockMode)
  | unlockLower (lvp : VnodeId) (mode : LockMode)
  | unlockDrop (lvp : VnodeId)
  | hashget (mp : MountId) (lowervp : VnodeId) (mode : LockMode)
  | upgrade (mp : MountId) (lowervp : VnodeId)
  | upgradeWait (mp : MountId) (lowervp : VnodeId)
  | doomedCheck (mp : MountId) (lowervp : VnodeId)
  | getnewvnode (mp : MountId) (lowervp : VnodeId) (direct : Bool)
  | vputLower (lowervp : VnodeId)
  | insmntque (xp : TptNode) (direct : Bool)
  | destructor (xp : TptNode)
  | hashins (xp : TptNode) (direct : Bool)
  | lost (xp : TptNode) (ovp : VnodeId)
  | hashrem (xp : TptNode) (how : Retire)
  | ownLock (xp : TptNode) (how : Retire)
  | clear (xp : TptNode) (how : Retire)
  | cleared (xp : TptNode) (how : Retire)
  | vreleLower (xp : TptNode)
  | unlockOwn (xp : TptNode) (how : Retire)
  | passed (op : Passed) (vp lvp : VnodeId) (mode : LockMode)
  | passedOut (op : Passed) (vp lvp : VnodeId) (mode : LockMode)

/-- Whether a vnode has been handed out: not yet, to the thread that makes an alias of it, or
to all who find it on the list of its mount. -/
inductive NodeStatus (τ : Type) where
  | fresh
  | hidden (maker : τ)
  | listed
  deriving DecidableEq, Repr

/-- The vnodes and the threads. `live` are the nodes with a reference on their lower vnode,
`outside` counts the holds and references of the rest of the kernel, and `owned` are the
locks that returned calls have left to a thread. -/
structure VnodeLocks (τ : Type) where
  vData : VnodeId → Option TptNode
  vVnlock : VnodeId → VnodeId
  vLock : VnodeId → Lock τ
  hash : List TptNode
  live : List TptNode
  status : VnodeId → NodeStatus τ
  doomed : VnodeId → Bool
  holdCount : VnodeId → Int
  outside : VnodeId → Nat
  owned : τ → Multiset (VnodeId × LockMode)
  stage : τ → LockStage

/-- The calls that a thread can make. -/
inductive LockCall where
  | lock (vp : VnodeId) (request : LockRequest)
  | unlock (vp : VnodeId) (mode : LockMode)
  | nodeget (mp : MountId) (lowervp : VnodeId) (mode : LockMode)
  | vgone (vp : VnodeId)
  | reclaimLowervp (mp : MountId) (lowervp : VnodeId)
  | unlinkLowervp (mp : MountId) (lowervp : VnodeId) (last : Bool)
  | pass (op : Passed) (vp : VnodeId) (mode : LockMode)

/-- What the rest of the kernel decides in a step: whether `lockmgr` gives up, whether the
lower vnode is doomed, which vnode is new, whether the mount takes it, and whether the lower
operation unlocks its vnode for a while or returns. -/
structure LockAnswer where
  fail : Bool
  doomed : Bool
  getnewvnode : Option VnodeId
  insmntque1 : Bool
  returned : Option Int

/-- What can happen next. -/
inductive LockEvent (τ : Type) where
  | call (thread : τ) (call : LockCall)
  | run (thread : τ) (answer : LockAnswer)
  | vhold (vp : VnodeId)
  | vdrop (vp : VnodeId)

/-- `EJUSTRETURN`. -/
def ejustreturn : Int := -2

namespace VnodeLocks

variable {τ : Type} [DecidableEq τ]

/-- Nobody holds a lock, and no alias was made yet. -/
def initial (isTptfs : VnodeId → Bool) (outside : VnodeId → Nat) : VnodeLocks τ where
  vData _ := none
  vVnlock vp := vp
  vLock _ := .free
  hash := []
  live := []
  status vp := if isTptfs vp then .fresh else .listed
  doomed _ := false
  holdCount vp := outside vp
  outside := outside
  owned _ := 0
  stage _ := .idle

/-- The thread goes on. -/
def goto (locks : VnodeLocks τ) (thread : τ) (stage : LockStage) : VnodeLocks τ :=
  { locks with stage := Function.update locks.stage thread stage }

/-- A call returns with a vnode locked. -/
def own (locks : VnodeLocks τ) (thread : τ) (vp : VnodeId) (mode : LockMode) : VnodeLocks τ :=
  { locks with
    owned := Function.update locks.owned thread ((vp, mode) ::ₘ locks.owned thread)
    stage := Function.update locks.stage thread .idle }

/-- A call takes over a lock of its caller. -/
def enterWith (locks : VnodeLocks τ) (thread : τ) (vp : VnodeId) (mode : LockMode)
    (stage : LockStage) : Option (VnodeLocks τ) :=
  if (vp, mode) ∈ locks.owned thread then
    some { locks with
      owned := Function.update locks.owned thread ((locks.owned thread).erase (vp, mode))
      stage := Function.update locks.stage thread stage }
  else none

/-- `vhold`, and `vholdnz` where the count is not zero. -/
def vhold (locks : VnodeLocks τ) (vp : VnodeId) : VnodeLocks τ :=
  { locks with holdCount := addAt locks.holdCount vp 1 }

/-- `vdrop`, and `vrele` and `vunref` of a reference. -/
def vdrop (locks : VnodeLocks τ) (vp : VnodeId) : VnodeLocks τ :=
  { locks with holdCount := addAt locks.holdCount vp (-1) }

/-- A lock changes hands. -/
def setLock (locks : VnodeLocks τ) (index : VnodeId) (lock : Lock τ) : VnodeLocks τ :=
  { locks with vLock := Function.update locks.vLock index lock }

/-- `lockmgr` grants a lock. -/
def take (locks : VnodeLocks τ) (thread : τ) (index : VnodeId) (mode : LockMode) :
    Option (VnodeLocks τ) :=
  ((locks.vLock index).acquire thread mode).map (locks.setLock index)

/-- `lockmgr` with `LK_RELEASE`. -/
def give (locks : VnodeLocks τ) (thread : τ) (index : VnodeId) : Option (VnodeLocks τ) :=
  ((locks.vLock index).release thread).map (locks.setLock index)

/-- The start of `lockmgr`: it tells whether the request is granted at once. A thread that
shares the lock with others gives it up to upgrade it. -/
def lockmgr (locks : VnodeLocks τ) (thread : τ) (index : VnodeId) :
    LockRequest → Option (VnodeLocks τ × Bool)
  | .shared | .exclusive => some (locks, false)
  | .upgrade =>
      match (locks.vLock index).upgrade thread with
      | some lock => some (locks.setLock index lock, true)
      | none => (locks.give thread index).map fun locks => (locks, false)
  | .downgrade =>
      ((locks.vLock index).downgrade thread).map fun lock => (locks.setLock index lock, true)

/-- The search of `tpt_hashget` and `tpt_hashins`. -/
def search (locks : VnodeLocks τ) (mp : MountId) (lowervp : VnodeId) : Option TptNode :=
  locks.hash.find? fun node => node.tptLowervp = lowervp ∧ node.vMount = mp

/-- `tpt_nodeget` sets up a new vnode, which takes over the reference on the lower one. -/
def makeNode (locks : VnodeLocks τ) (thread : τ) (xp : TptNode) : VnodeLocks τ :=
  { locks with
    vData := Function.update locks.vData xp.tptVnode (some xp)
    vVnlock := Function.update locks.vVnlock xp.tptVnode (locks.vVnlock xp.tptLowervp)
    live := xp :: locks.live
    status := Function.update locks.status xp.tptVnode (.hidden thread) }

/-- The mount takes the vnode, and everybody can find it. -/
def insmntque1 (locks : VnodeLocks τ) (vp : VnodeId) : VnodeLocks τ :=
  { locks with status := Function.update locks.status vp .listed }

/-- `v_data` and `v_vnlock` are reset under the interlock. -/
def clearNode (locks : VnodeLocks τ) (vp : VnodeId) : VnodeLocks τ :=
  { locks with
    vData := Function.update locks.vData vp none
    vVnlock := Function.update locks.vVnlock vp vp }

/-- `vgone` marks the vnode. -/
def doom (locks : VnodeLocks τ) (vp : VnodeId) : VnodeLocks τ :=
  { locks with doomed := Function.update locks.doomed vp true }

/-- The reference of a node on its lower vnode is given up. -/
def dropLower (locks : VnodeLocks τ) (xp : TptNode) : VnodeLocks τ :=
  { locks.vdrop xp.tptLowervp with live := locks.live.erase xp }

/-- The call returns with nothing locked. -/
def leave (locks : VnodeLocks τ) (thread : τ) : VnodeLocks τ := locks.goto thread .idle

/-- The caller of `tpt_lock` drops the vnode that it holds. -/
def dropOuter (locks : VnodeLocks τ) (ask : LockAsk) : VnodeLocks τ :=
  match ask.outer with
  | some vp => locks.vdrop vp
  | none => locks

/-- The end of `tpt_lock`, where its caller drops what it holds or calls again. -/
def done (locks : VnodeLocks τ) (thread : τ) (ask : LockAsk) (locked : Bool) : VnodeLocks τ :=
  if locked = false ∧ ask.retry then locks.goto thread (.enter ask)
  else
    let locks := locks.dropOuter ask
    if locked then locks.own thread ask.vp ask.request.mode else locks.leave thread

/-- Behind `vop_stdlock`. -/
def afterStd (ask : LockAsk) (lvp : Option VnodeId) (locked : Bool) : LockStage :=
  match lvp with
  | some lvp => .vdrop ask lvp locked
  | none => .done ask locked

/-- What `tpt_lookup` and `tpt_bypass` do when the lower operation has returned: move the lock
from the lower vnode to the upper one, or leave it. Where the two use one lock it is the lock
of the upper vnode that is left to the caller, and else that of the lower one. `tpt_lookup` goes
for the lock with `vn_lock`, `tpt_bypass` with one `VOP_LOCK`. -/
def passBack (locks : VnodeLocks τ) (thread : τ) (op : Passed) (vp lvp : VnodeId)
    (mode : LockMode) (error : Int) : Option (VnodeLocks τ) :=
  let left := if locks.vVnlock vp = locks.vVnlock lvp then vp else lvp
  match op with
  | .lookup =>
      if (error = 0 ∨ error = ejustreturn) ∧ locks.doomed vp then do
        let locks ← locks.give thread (locks.vVnlock lvp)
        some (locks.goto thread (.enter ⟨vp, .exclusive, true, some lvp⟩))
      else some ((locks.vdrop lvp).own thread left mode)
  | .bypass =>
      if mode = .exclusive ∧ locks.vVnlock vp ≠ locks.vVnlock lvp then do
        let locks ← locks.give thread (locks.vVnlock lvp)
        some (locks.goto thread (.enter ⟨vp, .exclusive, false, none⟩))
      else some (locks.own thread left mode)

/-- The next step of a thread. There is none where it has to wait or would panic. -/
def advance (locks : VnodeLocks τ) (thread : τ) (answer : LockAnswer) :
    Option (VnodeLocks τ) :=
  match locks.stage thread with
  | .idle => none
  -- `tpt_lock`; the interlock is held from here to the `vholdnz`
  | .enter ask =>
      match locks.vData ask.vp with
      | some xp =>
          some ((locks.vhold xp.tptLowervp).goto thread (.lower ask xp.tptLowervp))
      | none => some (locks.goto thread (.std ask none))
  | .lower ask lvp => do
      let (locks, granted) ← locks.lockmgr thread (locks.vVnlock lvp) ask.request
      some (locks.goto thread (if granted then .recheck ask lvp else .lowerWait ask lvp))
  | .lowerWait ask lvp =>
      if answer.fail then some (locks.goto thread (.vdrop ask lvp false))
      else do
        let locks ← locks.take thread (locks.vVnlock lvp) ask.request.mode
        some (locks.goto thread (.recheck ask lvp))
  | .recheck ask lvp =>
      match locks.vData ask.vp with
      | some _ => some (locks.goto thread (.vdrop ask lvp true))
      | none =>
          match ask.request with
          | .shared => some (locks.goto thread (.relock { ask with request := .shared } lvp))
          | .upgrade | .exclusive =>
              some (locks.goto thread (.relock { ask with request := .exclusive } lvp))
          -- `panic("Unsupported lock request %d\n", ...)`
          | .downgrade => none
  | .relock ask lvp => do
      let locks ← locks.give thread (locks.vVnlock lvp)
      some (locks.goto thread (.std ask (some lvp)))
  | .std ask lvp => do
      let lock := locks.vVnlock ask.vp
      let (locks, granted) ← locks.lockmgr thread lock ask.request
      some (locks.goto thread (if granted then afterStd ask lvp true else .stdWait ask lock lvp))
  | .stdWait ask lock lvp =>
      if answer.fail then some (locks.goto thread (afterStd ask lvp false))
      else do
        let locks ← locks.take thread lock ask.request.mode
        some (locks.goto thread (afterStd ask lvp true))
  | .vdrop ask lvp locked => some ((locks.vdrop lvp).goto thread (.done ask locked))
  | .done ask locked => some (locks.done thread ask locked)
  -- `tpt_unlock`
  | .unlock vp mode =>
      match locks.vData vp with
      | some xp =>
          some ((locks.vhold xp.tptLowervp).goto thread (.unlockLower xp.tptLowervp mode))
      | none => do
          let locks ← locks.give thread (locks.vVnlock vp)
          some (locks.leave thread)
  | .unlockLower lvp _ => do
      let locks ← locks.give thread (locks.vVnlock lvp)
      some (locks.goto thread (.unlockDrop lvp))
  | .unlockDrop lvp => some ((locks.vdrop lvp).leave thread)
  -- `tpt_nodeget`
  | .hashget mp lowervp mode =>
      match locks.search mp lowervp with
      | some node => some ((locks.vdrop lowervp).own thread node.tptVnode mode)
      | none =>
          match mode with
          | .shared => some (locks.goto thread (.upgrade mp lowervp))
          | .exclusive => some (locks.goto thread (.getnewvnode mp lowervp true))
  | .upgrade mp lowervp => do
      let (locks, granted) ← locks.lockmgr thread (locks.vVnlock lowervp) .upgrade
      some (locks.goto thread
        (if granted then .doomedCheck mp lowervp else .upgradeWait mp lowervp))
  | .upgradeWait mp lowervp => do
      let locks ← locks.take thread (locks.vVnlock lowervp) .exclusive
      some (locks.goto thread (.doomedCheck mp lowervp))
  | .doomedCheck mp lowervp =>
      if answer.doomed then some (locks.goto thread (.vputLower lowervp))
      else some (locks.goto thread (.getnewvnode mp lowervp false))
  | .vputLower lowervp => do
      let locks ← locks.give thread (locks.vVnlock lowervp)
      some ((locks.vdrop lowervp).leave thread)
  | .getnewvnode mp lowervp direct =>
      match answer.getnewvnode with
      | none => some (locks.goto thread (.vputLower lowervp))
      | some vp =>
          if locks.status vp = .fresh then
            let xp : TptNode := ⟨lowervp, vp, mp⟩
            some ((locks.makeNode thread xp).goto thread (.insmntque xp direct))
          else none
  | .insmntque xp direct =>
      if answer.insmntque1 then some (locks.goto thread (.destructor xp))
      else some ((locks.insmntque1 xp.tptVnode).goto thread (.hashins xp direct))
  | .destructor xp => do
      let locks ← locks.give thread (locks.vVnlock xp.tptLowervp)
      some ((locks.dropLower xp).goto thread (.ownLock xp .failed))
  | .hashins xp _ =>
      match locks.search xp.vMount xp.tptLowervp with
      | some node => some (locks.goto thread (.lost xp node.tptVnode))
      | none =>
          some ({ locks with hash := xp :: locks.hash }.own thread xp.tptVnode .exclusive)
  | .lost xp ovp => some ((locks.dropLower xp).goto thread (.ownLock xp (.lost ovp)))
  -- `tpt_reclaim` and `tpt_destroy_proto`
  | .hashrem xp how =>
      if xp ∈ locks.hash then
        some ({ locks with hash := locks.hash.erase xp }.goto thread (.ownLock xp how))
      else none
  | .ownLock xp how => do
      let locks ← locks.take thread xp.tptVnode .exclusive
      some (locks.goto thread (.clear xp how))
  | .clear xp how => some ((locks.clearNode xp.tptVnode).goto thread (.cleared xp how))
  | .cleared xp how =>
      match how with
      | .vgone => do
          let locks ← locks.give thread (locks.vVnlock xp.tptLowervp)
          some (locks.goto thread (.vreleLower xp))
      | .lowervp => some ((locks.dropLower xp).goto thread (.unlockOwn xp .lowervp))
      | .lost _ | .failed =>
          some ((locks.doom xp.tptVnode).goto thread (.unlockOwn xp how))
  | .vreleLower xp => some ((locks.dropLower xp).own thread xp.tptVnode .exclusive)
  | .unlockOwn xp how => do
      let locks ← locks.give thread (locks.vVnlock xp.tptVnode)
      match how with
      | .lowervp => some (locks.own thread xp.tptLowervp .exclusive)
      | .lost ovp => some (locks.own thread ovp .exclusive)
      | .vgone | .failed => some (locks.leave thread)
  -- an operation of the lower file system
  | .passed op vp lvp mode =>
      match answer.returned with
      | none => do
          let locks ← locks.give thread (locks.vVnlock lvp)
          some (locks.goto thread (.passedOut op vp lvp mode))
      | some error => locks.passBack thread op vp lvp mode error
  | .passedOut op vp lvp mode => do
      let locks ← locks.take thread (locks.vVnlock lvp) mode
      some (locks.goto thread (.passed op vp lvp mode))

/-- A thread that does nothing else starts a call. Whether `tptfs_unlink_lowervp` finds
`v_usecount` at zero is decided together with its `vunref` (`last`). -/
def start (isTptfs : VnodeId → Bool) (locks : VnodeLocks τ) (thread : τ) :
    LockCall → Option (VnodeLocks τ)
  | .lock vp request =>
      if locks.status vp = .listed then
        let ask : LockAsk := ⟨vp, request, false, none⟩
        let stage : LockStage := if isTptfs vp then .enter ask else .std ask none
        match request.from with
        | none => some (locks.goto thread stage)
        | some mode => locks.enterWith thread vp mode stage
      else none
  | .unlock vp mode => locks.enterWith thread vp mode (.unlock vp mode)
  | .nodeget mp lowervp mode =>
      if isTptfs lowervp = false ∧ 0 < locks.outside lowervp then
        { locks with
          outside := Function.update locks.outside lowervp (locks.outside lowervp - 1) }.enterWith
            thread lowervp mode (.hashget mp lowervp mode)
      else none
  | .vgone vp =>
      match locks.vData vp with
      | some xp =>
          (locks.doom vp).enterWith thread vp .exclusive (.hashrem xp .vgone)
      | none => none
  | .reclaimLowervp mp lowervp =>
      match locks.search mp lowervp with
      | some xp =>
          (locks.doom xp.tptVnode).enterWith thread lowervp .exclusive (.hashrem xp .lowervp)
      | none => some locks
  | .unlinkLowervp mp lowervp last =>
      match locks.search mp lowervp with
      | some xp =>
          if last then
            (locks.doom xp.tptVnode).enterWith thread lowervp .exclusive (.hashrem xp .lowervp)
          else some locks
      | none => some locks
  | .pass op vp mode =>
      match locks.vData vp with
      | some xp =>
          match op with
          | .lookup =>
              (locks.vhold xp.tptLowervp).enterWith thread vp mode
                (.passed op vp xp.tptLowervp mode)
          | .bypass => locks.enterWith thread vp mode (.passed op vp xp.tptLowervp mode)
      | none => none

/-- One event. -/
def step (isTptfs : VnodeId → Bool) (locks : VnodeLocks τ) : LockEvent τ → Option (VnodeLocks τ)
  | .call thread call =>
      match locks.stage thread with
      | .idle => locks.start isTptfs thread call
      | _ => none
  | .run thread answer => locks.advance thread answer
  | .vhold vp =>
      some { locks.vhold vp with
        outside := Function.update locks.outside vp (locks.outside vp + 1) }
  | .vdrop vp =>
      if 0 < locks.outside vp then
        some { locks.vdrop vp with
          outside := Function.update locks.outside vp (locks.outside vp - 1) }
      else none

end VnodeLocks

end Tptfs
