import Mathlib.Logic.Relation
import LearningKernels.Tptfs.AliasCalls
import LearningKernels.Tptfs.VnodeLockFrame

/-!
# The calls of `tpt_nodeget`, with and without their locks

With the locks in the state, a call of `tpt_nodeget` goes through the steps that it has without
them: each of its steps is none, one or two of those
(`Tptfs.VnodeLocks.Coherent.advance_nodeget`), with the same hash and the same counts of lower
vnodes. Whatever else happens changes the hash by `tpt_hashrem` at most
(`Tptfs.VnodeLocks.step_hash`), and so a mount has one alias of a lower vnode here, too
(`Tptfs.VnodeLocks.unique_key`).
-/

namespace Tptfs

open Machine

/-- One step of a call of `tpt_nodeget`, with some answer. -/
def Nodeget.Moves (nhash : VnodeId → Nat) (before after : Nodes × Nodeget) : Prop :=
  ∃ answers, before.2.step nhash answers before.1 = some after

/-- What a call that tears its alias down returns. -/
inductive Retire.Ends : Retire → Except Nat VnodeId → Prop where
  | lost (ovp : VnodeId) : Ends (.lost ovp) (.ok ovp)
  | failed (error : Nat) : Ends .failed (.error error)

/-- Where a call of `tpt_nodeget` stands when the locks are left out. -/
inductive LockStage.Shows (isTptfs : VnodeId → Bool) :
    LockStage → MountId → VnodeId → Stage → Prop where
  | hashget (mp : MountId) (lowervp : VnodeId) (mode : LockMode) :
      Shows isTptfs (.hashget mp lowervp mode) mp lowervp .hashget
  | upgrade (mp : MountId) (lowervp : VnodeId) :
      Shows isTptfs (.upgrade mp lowervp) mp lowervp .upgrade
  | upgradeWait (mp : MountId) (lowervp : VnodeId) :
      Shows isTptfs (.upgradeWait mp lowervp) mp lowervp .upgrade
  | doomedCheck (mp : MountId) (lowervp : VnodeId) :
      Shows isTptfs (.doomedCheck mp lowervp) mp lowervp .upgrade
  | doomed (mp : MountId) (lowervp : VnodeId) :
      Shows isTptfs (.vputLower lowervp) mp lowervp .doomed
  | noVnode (mp : MountId) (lowervp : VnodeId) (error : Nat) :
      Shows isTptfs (.vputLower lowervp) mp lowervp (.noVnode error)
  | getnewvnode (mp : MountId) (lowervp : VnodeId) (direct : Bool) :
      Shows isTptfs (.getnewvnode mp lowervp direct) mp lowervp .getnewvnode
  | insmntque (xp : TptNode) (direct : Bool) :
      Shows isTptfs (.insmntque xp direct) xp.vMount xp.tptLowervp (.insmntque xp.tptVnode)
  | destructor (xp : TptNode) (error : Nat) :
      Shows isTptfs (.destructor xp) xp.vMount xp.tptLowervp (.destructor xp.tptVnode error)
  | hashins (xp : TptNode) (direct : Bool) :
      Shows isTptfs (.hashins xp direct) xp.vMount xp.tptLowervp (.hashins xp.tptVnode)
  | lost (xp : TptNode) (ovp : VnodeId) :
      Shows isTptfs (.lost xp ovp) xp.vMount xp.tptLowervp (.lost xp.tptVnode ovp)
  | destroyProto {stage : LockStage} {xp : TptNode} (how : Retire) {result : Except Nat VnodeId}
      (there : stage ∈ [.ownLock xp how, .clear xp how, .cleared xp how, .unlockOwn xp how])
      (ends : how.Ends result) (tptfs : isTptfs xp.tptVnode = true) :
      Shows isTptfs stage xp.vMount xp.tptLowervp (.destroyProto xp.tptVnode result)
  | returned (mp : MountId) (lowervp : VnodeId) (result : Except Nat VnodeId) :
      Shows isTptfs .idle mp lowervp (.returned result)

namespace VnodeLocks

variable {τ : Type} {isTptfs : VnodeId → Bool} {locks after : VnodeLocks τ}
  {thread : τ} {answer : LockAnswer} {nhash : VnodeId → Nat} {nodes : Nodes} {call : Nodeget}

/-- The nodes without the locks: the same hash, and the same counts of lower vnodes. -/
structure Agrees (isTptfs : VnodeId → Bool) (locks : VnodeLocks τ) (nodes : Nodes) : Prop where
  hash : nodes.hash = locks.hash
  counts : ∀ vp, isTptfs vp = false → nodes.useCount vp = locks.holdCount vp

/-- The call can go on without the locks to where it stands now. -/
def Follows (isTptfs : VnodeId → Bool) (nhash : VnodeId → Nat) (thread : τ) (nodes : Nodes)
    (call : Nodeget) (after : VnodeLocks τ) : Prop :=
  ∃ later next, Relation.ReflTransGen (Nodeget.Moves nhash) (nodes, call) (later, next) ∧
    Agrees isTptfs after later ∧ (after.stage thread).Shows isTptfs next.mp next.lowervp next.stage

section Steps

theorem search_eq (locks : VnodeLocks τ) (mp : MountId) (lowervp : VnodeId) :
    locks.search mp lowervp = nodeSearch locks.hash mp lowervp := rfl

theorem Agrees.congr (agrees : Agrees isTptfs locks nodes) (hash : after.hash = locks.hash)
    (holdCount : after.holdCount = locks.holdCount) : Agrees isTptfs after nodes :=
  ⟨agrees.hash.trans hash.symm, fun vp lower =>
    (agrees.counts vp lower).trans (congrFun holdCount vp).symm⟩

/-- The threads without locks count references on aliases, too. -/
theorem Agrees.refer (agrees : Agrees isTptfs locks nodes) {later : Nodes} {vp : VnodeId}
    {change : Int} (tptfs : isTptfs vp = true) (hash : later.hash = nodes.hash)
    (useCount : later.useCount = addAt nodes.useCount vp change) : Agrees isTptfs locks later := by
  refine ⟨hash.trans agrees.hash, ?_⟩
  intro query lower
  have apart : query ≠ vp := by
    rintro rfl
    cases tptfs.symm.trans lower
  rw [useCount, addAt_apply, if_neg apart, Int.add_zero, agrees.counts query lower]

theorem Agrees.vrele (agrees : Agrees isTptfs locks nodes) (vp : VnodeId) :
    Agrees isTptfs (locks.vdrop vp) (nodes.vrele vp) := by
  refine ⟨agrees.hash, ?_⟩
  intro query lower
  change addAt nodes.useCount vp (-1) query = addAt locks.holdCount vp (-1) query
  rw [addAt_apply, addAt_apply, agrees.counts query lower]

theorem Follows.stays (agrees : Agrees isTptfs after nodes)
    (shows : (after.stage thread).Shows isTptfs call.mp call.lowervp call.stage) :
    Follows isTptfs nhash thread nodes call after :=
  ⟨nodes, call, .refl, agrees, shows⟩

theorem Follows.moves {later : Nodes} {next : Nodeget} (answers : Answers)
    (stepped : call.step nhash answers nodes = some (later, next))
    (follows : Follows isTptfs nhash thread later next after) :
    Follows isTptfs nhash thread nodes call after := by
  obtain ⟨last, ended, rest, agrees, shows⟩ := follows
  exact ⟨last, ended, .head ⟨answers, stepped⟩ rest, agrees, shows⟩

end Steps

variable [DecidableEq τ] {mp : MountId} {lowervp : VnodeId} {consumed : Nat} {xp : TptNode}

theorem Coherent.hashget_follows (inv : Coherent isTptfs locks)
    (agrees : Agrees isTptfs locks nodes) {mode : LockMode}
    (standing : locks.stage thread = .hashget mp lowervp mode)
    (ran : locks.advance thread answer = some after) :
    Follows isTptfs nhash thread nodes ⟨mp, lowervp, .hashget, consumed⟩ after := by
  simp only [advance, standing, search_eq] at ran
  cases found : nodeSearch locks.hash mp lowervp with
  | some node =>
      rw [found] at ran
      cases ran
      have member : node ∈ locks.hash := List.mem_of_find?_eq_some found
      obtain ⟨-, tptfs, -⟩ := inv.node _ node (inv.hashed node member).1
      have there : nodeSearch nodes.hash mp lowervp = some node := agrees.hash ▸ found
      have referred : Agrees isTptfs locks (nodes.vref node.tptVnode) :=
        agrees.refer tptfs rfl rfl
      refine .moves (Threads.willing 0) (Threads.hashget_found there consumed) ?_
      refine .moves (Threads.willing 0) rfl (.stays ?_ ?_)
      · exact (referred.vrele lowervp).congr rfl rfl
      · rw [stage_own]
        exact .returned ..
  | none =>
      have absent : nodeSearch nodes.hash mp lowervp = none := agrees.hash ▸ found
      rw [found] at ran
      refine .moves (Threads.willing 0) (Threads.hashget_absent absent consumed) ?_
      cases mode with
      | shared =>
          cases ran
          refine .stays (agrees.congr rfl rfl) ?_
          rw [stage_goto]
          exact .upgrade ..
      | exclusive =>
          cases ran
          refine .moves (Threads.willing 0) rfl (.stays (agrees.congr rfl rfl) ?_)
          rw [stage_goto]
          exact .getnewvnode ..

/-- The upgrade of the lock on the lower vnode, up to the test of it. -/
theorem Agrees.upgrade_follows (agrees : Agrees isTptfs locks nodes)
    (standing : locks.stage thread = .upgrade mp lowervp ∨
      locks.stage thread = .upgradeWait mp lowervp ∨
      locks.stage thread = .doomedCheck mp lowervp)
    (ran : locks.advance thread answer = some after) :
    Follows isTptfs nhash thread nodes ⟨mp, lowervp, .upgrade, consumed⟩ after := by
  obtain standing | standing | standing := standing
  · simp only [advance, standing] at ran
    obtain ⟨⟨middle, granted⟩, asked, same⟩ := Option.bind_eq_some_iff.mp ran
    obtain ⟨vLock, rfl⟩ := lockmgr_only asked
    cases same
    refine .stays (agrees.congr rfl rfl) ?_
    rw [stage_goto]
    cases granted with
    | true => exact .doomedCheck ..
    | false => exact .upgradeWait ..
  · simp only [advance, standing] at ran
    obtain ⟨middle, took, same⟩ := Option.bind_eq_some_iff.mp ran
    obtain ⟨vLock, rfl⟩ := take_only took
    cases same
    refine .stays (agrees.congr rfl rfl) ?_
    rw [stage_goto]
    exact .doomedCheck ..
  · simp only [advance, standing] at ran
    split at ran
    · cases ran
      refine .moves ⟨false, true, .ok 0, 0⟩ rfl (.stays (agrees.congr rfl rfl) ?_)
      rw [stage_goto]
      exact .doomed ..
    · cases ran
      refine .moves (Threads.willing 0) rfl (.stays (agrees.congr rfl rfl) ?_)
      rw [stage_goto]
      exact .getnewvnode ..

theorem Agrees.getnewvnode_follows (agrees : Agrees isTptfs locks nodes) {direct : Bool}
    (fresh : ∀ vp, locks.status vp = .fresh → isTptfs vp = true)
    (unused : ∀ vp, answer.getnewvnode = some vp → nodes.useCount vp = 0)
    (standing : locks.stage thread = .getnewvnode mp lowervp direct)
    (ran : locks.advance thread answer = some after) :
    Follows isTptfs nhash thread nodes ⟨mp, lowervp, .getnewvnode, consumed⟩ after := by
  simp only [advance, standing] at ran
  cases new : answer.getnewvnode with
  | none =>
      rw [new] at ran
      cases ran
      refine .moves ⟨true, false, .error 0, 0⟩ rfl (.stays (agrees.congr rfl rfl) ?_)
      rw [stage_goto]
      exact .noVnode ..
  | some vp =>
      rw [new] at ran
      obtain ⟨status, same⟩ := Option.ite_none_right_eq_some.mp ran
      cases same
      have stepped : Nodeget.step nhash (Threads.willing vp) nodes
          ⟨mp, lowervp, .getnewvnode, consumed⟩ =
          some (nodes.vref vp, ⟨mp, lowervp, .insmntque vp, consumed⟩) := if_pos (unused vp new)
      have referred : Agrees isTptfs locks (nodes.vref vp) :=
        agrees.refer (fresh vp status) rfl rfl
      refine .moves _ stepped (.stays (referred.congr rfl rfl) ?_)
      rw [stage_goto]
      exact .insmntque ⟨lowervp, vp, mp⟩ direct

theorem Agrees.vputLower_follows (agrees : Agrees isTptfs locks nodes) {stage : Stage}
    (error : Nat) (standing : locks.stage thread = .vputLower lowervp)
    (shown : stage = .doomed ∨ stage = .noVnode error)
    (ran : locks.advance thread answer = some after) :
    Follows isTptfs nhash thread nodes ⟨mp, lowervp, stage, consumed⟩ after := by
  simp only [advance, standing] at ran
  obtain ⟨middle, gave, same⟩ := Option.bind_eq_some_iff.mp ran
  obtain ⟨vLock, rfl⟩ := give_only gave
  cases same
  have released : Agrees isTptfs ((({ locks with vLock } : VnodeLocks τ).vdrop lowervp).leave
      thread) (nodes.vput lowervp) := (agrees.vrele lowervp).congr rfl rfl
  have idle : ((({ locks with vLock } : VnodeLocks τ).vdrop lowervp).leave thread).stage thread =
      .idle := stage_goto _
  obtain rfl | rfl := shown
  · refine .moves (Threads.willing 0) rfl (.stays released ?_)
    rw [idle]
    exact .returned ..
  · refine .moves (Threads.willing 0) rfl (.stays released ?_)
    rw [idle]
    exact .returned ..

theorem Agrees.insmntque_follows (agrees : Agrees isTptfs locks nodes) {direct : Bool}
    (standing : locks.stage thread = .insmntque xp direct)
    (ran : locks.advance thread answer = some after) :
    Follows isTptfs nhash thread nodes
      ⟨xp.vMount, xp.tptLowervp, .insmntque xp.tptVnode, consumed⟩ after := by
  simp only [advance, standing] at ran
  split at ran
  · cases ran
    refine .moves ⟨true, false, .ok 0, 1⟩ rfl (.stays (agrees.congr rfl rfl) ?_)
    rw [stage_goto]
    exact .destructor ..
  · cases ran
    refine .moves (Threads.willing 0) rfl (.stays (agrees.congr rfl rfl) ?_)
    rw [stage_goto]
    exact .hashins ..

theorem Coherent.hashins_follows (inv : Coherent isTptfs locks)
    (agrees : Agrees isTptfs locks nodes) {direct : Bool}
    (standing : locks.stage thread = .hashins xp direct)
    (ran : locks.advance thread answer = some after) :
    Follows isTptfs nhash thread nodes
      ⟨xp.vMount, xp.tptLowervp, .hashins xp.tptVnode, consumed⟩ after := by
  simp only [advance, standing, search_eq] at ran
  cases found : nodeSearch locks.hash xp.vMount xp.tptLowervp with
  | some node =>
      rw [found] at ran
      cases ran
      have member : node ∈ locks.hash := List.mem_of_find?_eq_some found
      obtain ⟨-, tptfs, -⟩ := inv.node _ node (inv.hashed node member).1
      have stepped : Nodeget.step nhash (Threads.willing 0) nodes
          ⟨xp.vMount, xp.tptLowervp, .hashins xp.tptVnode, consumed⟩ =
          some (nodes.vref node.tptVnode,
            ⟨xp.vMount, xp.tptLowervp, .lost xp.tptVnode node.tptVnode, consumed⟩) := by
        simp only [Nodeget.step, Nodes.tptHashins, Nodes.search_eq, agrees.hash, found]
      have referred : Agrees isTptfs locks (nodes.vref node.tptVnode) :=
        agrees.refer tptfs rfl rfl
      refine .moves _ stepped (.stays (referred.congr rfl rfl) ?_)
      rw [stage_goto]
      exact .lost ..
  | none =>
      rw [found] at ran
      cases ran
      have stepped : Nodeget.step nhash (Threads.willing 0) nodes
          ⟨xp.vMount, xp.tptLowervp, .hashins xp.tptVnode, consumed⟩ =
          some ({ nodes with hash := xp :: nodes.hash },
            ⟨xp.vMount, xp.tptLowervp, .returned (.ok xp.tptVnode), consumed + 1⟩) := by
        simp only [Nodeget.step, Nodes.tptHashins, Nodes.search_eq, agrees.hash, found]
      refine .moves _ stepped (.stays ⟨?_, agrees.counts⟩ ?_)
      · exact congrArg (List.cons xp) agrees.hash
      · rw [stage_own]
        exact .returned ..

/-- The two ways to the end of an alias that nobody gets. -/
theorem Coherent.dropLower_follows (inv : Coherent isTptfs locks)
    (agrees : Agrees isTptfs locks nodes) {stage : Stage} (error ovp : Nat)
    (standing : locks.stage thread = .destructor xp ∧ stage = .destructor xp.tptVnode error ∨
      locks.stage thread = .lost xp ovp ∧ stage = .lost xp.tptVnode ovp)
    (ran : locks.advance thread answer = some after) :
    Follows isTptfs nhash thread nodes ⟨xp.vMount, xp.tptLowervp, stage, consumed⟩ after := by
  have known := inv.stages thread
  have released := agrees.vrele xp.tptLowervp
  obtain ⟨standing, rfl⟩ | ⟨standing, rfl⟩ := standing
  · rw [standing] at known
    simp only [advance, standing] at ran
    obtain ⟨middle, gave, same⟩ := Option.bind_eq_some_iff.mp ran
    obtain ⟨vLock, rfl⟩ := give_only gave
    cases same
    refine .moves (Threads.willing 0) rfl (.stays (released.congr rfl rfl) ?_)
    rw [stage_goto]
    exact .destroyProto _ List.mem_cons_self (.failed error) (inv.node _ _ known.1.1).2.1
  · rw [standing] at known
    simp only [advance, standing] at ran
    cases ran
    refine .moves (Threads.willing 0) rfl (.stays (released.congr rfl rfl) ?_)
    rw [stage_goto]
    exact .destroyProto _ List.mem_cons_self (.lost ovp) (inv.node _ _ known.1.1).2.1

/-- `tpt_destroy_proto`, which is one step when the own lock of the alias is left out. -/
theorem Agrees.destroyProto_follows (agrees : Agrees isTptfs locks nodes) {how : Retire}
    {result : Except Nat VnodeId}
    (there : locks.stage thread ∈
      [.ownLock xp how, .clear xp how, .cleared xp how, .unlockOwn xp how])
    (ends : how.Ends result) (tptfs : isTptfs xp.tptVnode = true)
    (ran : locks.advance thread answer = some after) :
    Follows isTptfs nhash thread nodes
      ⟨xp.vMount, xp.tptLowervp, .destroyProto xp.tptVnode result, consumed⟩ after := by
  simp only [List.mem_cons, List.not_mem_nil, or_false] at there
  obtain standing | standing | standing | standing := there
  · simp only [advance, standing] at ran
    obtain ⟨middle, took, same⟩ := Option.bind_eq_some_iff.mp ran
    obtain ⟨vLock, rfl⟩ := take_only took
    cases same
    refine .stays (agrees.congr rfl rfl) (.destroyProto how ?_ ends tptfs)
    rw [stage_goto]
    simp
  · simp only [advance, standing] at ran
    cases ran
    refine .stays (agrees.congr rfl rfl) (.destroyProto how ?_ ends tptfs)
    rw [stage_goto]
    simp
  · simp only [advance, standing] at ran
    refine .stays (agrees.congr ?_ ?_) (.destroyProto how ?_ ends tptfs)
    all_goals
      cases ends with
      | lost ovp =>
          cases ran
          simp [doom, goto]
      | failed error =>
          cases ran
          simp [doom, goto]
  · simp only [advance, standing] at ran
    obtain ⟨middle, gave, same⟩ := Option.bind_eq_some_iff.mp ran
    obtain ⟨vLock, rfl⟩ := give_only gave
    have dropped : Agrees isTptfs locks (nodes.destroyProto xp.tptVnode) :=
      agrees.refer tptfs rfl rfl
    refine .moves (Threads.willing 0) rfl ?_
    cases ends with
    | lost ovp =>
        cases same
        refine .stays (dropped.congr rfl rfl) ?_
        rw [stage_own]
        exact .returned ..
    | failed error =>
        cases same
        refine .stays (dropped.congr rfl rfl) ?_
        rw [leave, stage_goto]
        exact .returned ..

/-- **A call of `tpt_nodeget` goes on as it does without the locks.** -/
theorem Coherent.advance_nodeget (inv : Coherent isTptfs locks)
    (agrees : Agrees isTptfs locks nodes)
    (shows : (locks.stage thread).Shows isTptfs call.mp call.lowervp call.stage)
    (unused : ∀ vp, answer.getnewvnode = some vp → nodes.useCount vp = 0)
    (ran : locks.advance thread answer = some after) :
    Follows isTptfs nhash thread nodes call after := by
  obtain ⟨mp, lowervp, stage, consumed⟩ := call
  generalize standing : locks.stage thread = place at shows
  cases shows with
  | hashget mp lowervp mode => exact inv.hashget_follows agrees standing ran
  | upgrade mp lowervp => exact agrees.upgrade_follows (.inl standing) ran
  | upgradeWait mp lowervp => exact agrees.upgrade_follows (.inr (.inl standing)) ran
  | doomedCheck mp lowervp => exact agrees.upgrade_follows (.inr (.inr standing)) ran
  | doomed mp lowervp => exact agrees.vputLower_follows 0 standing (.inl rfl) ran
  | noVnode mp lowervp error => exact agrees.vputLower_follows error standing (.inr rfl) ran
  | getnewvnode mp lowervp direct =>
      exact agrees.getnewvnode_follows (fun vp status => (inv.fresh vp status).2.1) unused
        standing ran
  | insmntque xp direct => exact agrees.insmntque_follows standing ran
  | destructor xp error =>
      exact inv.dropLower_follows agrees error 0 (.inl ⟨standing, rfl⟩) ran
  | hashins xp direct => exact inv.hashins_follows agrees standing ran
  | lost xp ovp => exact inv.dropLower_follows agrees 0 ovp (.inr ⟨standing, rfl⟩) ran
  | destroyProto how there ends tptfs =>
      exact agrees.destroyProto_follows (standing ▸ there) ends tptfs ran
  | returned mp lowervp result =>
      simp only [advance, standing] at ran
      cases ran

section Hash

theorem passBack_hash {op : Passed} {vp lvp : VnodeId} {mode : LockMode} {error : Int}
    (ran : locks.passBack thread op vp lvp mode error = some after) : after.hash = locks.hash := by
  cases op <;> simp only [passBack] at ran <;> split at ran
  all_goals grind [Option.bind_eq_some_iff, give_only, goto, own, vdrop]

/-- The steps of a call but two leave the hash alone. -/
theorem advance_hash_same (ran : locks.advance thread answer = some after)
    (inserts : ∀ xp direct, locks.stage thread ≠ .hashins xp direct)
    (removes : ∀ xp how, locks.stage thread ≠ .hashrem xp how) : after.hash = locks.hash := by
  unfold advance at ran
  split at ran
  all_goals
    grind [Option.bind_eq_some_iff, take_only, give_only, lockmgr_only, passBack_hash, goto, own,
      leave, vhold, vdrop, dropLower, dropOuter, done, insmntque1, doom, makeNode, clearNode]

theorem advance_hash (ran : locks.advance thread answer = some after) :
    HashStep locks.hash after.hash := by
  cases standing : locks.stage thread with
  | hashins xp direct =>
      simp only [advance, standing, search_eq] at ran
      cases found : nodeSearch locks.hash xp.vMount xp.tptLowervp with
      | some node =>
          rw [found] at ran
          cases ran
          exact .same
      | none =>
          rw [found] at ran
          cases ran
          exact .hashins xp found
  | hashrem xp how =>
      simp only [advance, standing] at ran
      obtain ⟨member, same⟩ := Option.ite_none_right_eq_some.mp ran
      cases same
      exact .hashrem xp member
  | _ =>
      refine .of_eq (advance_hash_same ran ?_ ?_)
      · intro xp direct inserts
        cases standing.symm.trans inserts
      · intro xp how removes
        cases standing.symm.trans removes

theorem start_hash {call : LockCall} (ran : locks.start isTptfs thread call = some after) :
    after.hash = locks.hash := by
  cases call
  all_goals
    simp only [start] at ran
    grind [enterWith, goto, doom, vhold]

/-- **One event is one change of the hash**, at most. -/
theorem step_hash {event : LockEvent τ} (ran : locks.step isTptfs event = some after) :
    HashStep locks.hash after.hash := by
  cases event with
  | call thread call =>
      simp only [step] at ran
      split at ran
      · exact .of_eq (start_hash ran)
      · cases ran
  | run thread answer => exact advance_hash ran
  | vhold vp =>
      cases ran
      exact .same
  | vdrop vp =>
      obtain ⟨-, same⟩ := Option.ite_none_right_eq_some.mp ran
      cases same
      exact .same

theorem run_unique {events : List (LockEvent τ)} (unique : (locks.hash.map TptNode.key).Nodup)
    (ran : locks.run isTptfs events = some after) : (after.hash.map TptNode.key).Nodup := by
  induction events generalizing locks with
  | nil =>
      cases ran
      exact unique
  | cons event events ih =>
      obtain ⟨next, stepped, ran⟩ := Option.bind_eq_some_iff.mp ran
      exact ih ((step_hash stepped).unique unique) ran

/-- A mount has one alias of a lower vnode, whoever sleeps for which lock. -/
theorem unique_key {outside : VnodeId → Nat} {events : List (LockEvent τ)}
    (ran : (initial isTptfs outside : VnodeLocks τ).run isTptfs events = some after) :
    (after.hash.map TptNode.key).Nodup := by
  have empty : ((initial isTptfs outside : VnodeLocks τ).hash.map TptNode.key).Nodup :=
    List.nodup_nil
  exact run_unique empty ran

end Hash

end VnodeLocks

end Tptfs
