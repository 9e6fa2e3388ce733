import LearningKernels.Tptfs.Ledger

/-!
# Operations handed to the mount below

Five operations of `tpt_vfsops.c` call the same operation of the mount behind
`nullm_vfs`. `tpt_mountfs` stores the new mount itself there, so the mount below
a tptfs mount is that same mount: the chain of lower mounts never leaves tptfs and
none of the five operations returns (`Tptfs.delegation_never_ends`).
-/

namespace Tptfs

open Machine

/-- `struct statfs`, as far as `tptfs_statfs` copies it. -/
structure Statfs where
  fType : Nat
  fFlags : BitVec 64
  fBsize : Nat
  fIosize : Nat
  fBlocks : Nat
  fBfree : Nat
  fBavail : Nat
  fFiles : Nat
  fFfree : Nat
  deriving DecidableEq, Repr

/-- A zeroed `struct statfs`. -/
def Statfs.zero : Statfs := ⟨0, 0, 0, 0, 0, 0, 0, 0, 0⟩

/-- `MNT_RDONLY | MNT_NOEXEC | MNT_NOSUID | MNT_UNION | MNT_NOSYMFOLLOW |
MNT_AUTOMOUNTED`: the flags a mount keeps of its own. -/
def ownFlags : BitVec 64 := 0x1 ||| 0x4 ||| 0x8 ||| 0x20 ||| 0x400000 ||| 0x200000000

/-- `MNT_ROOTFS | MNT_AUTOMOUNTED`: the flags a mount does not take over. -/
def lowerFlags : BitVec 64 := 0x4000 ||| 0x200000000

/-- `LK_TYPE_MASK`. -/
def lkTypeMask : Nat := 0xff0000

/-- `MOUNTTONULLMOUNT(mp)`, followed. -/
def mountToNullMount (mp : MountId) : Path Vfs TptMount := do
  match (← get).mntData mp with
  | some data => pure data
  | none => Path.halt .pageFault

/-- An operation of a mount: its arguments and what it gives back. -/
abbrev Operation (ι α : Type) := MountId → ι → Path Vfs α

/-- The operation of the mount's own file system. Every mount that hands the call
on to another uses up one unit of fuel. -/
def dispatch {ι α : Type} (tptfs : Operation ι α → Operation ι α) (other : Operation ι α) :
    Nat → Operation ι α
  | 0, _, _ => Path.halt .unfinished
  | fuel + 1, mp, args => do
      match (← get).mntOp mp with
      | .tptfs => tptfs (dispatch tptfs other fuel) mp args
      | .other => other mp args

/-- The arguments of `quotactl`: `cmd`, `uid` and `arg`. -/
structure QuotactlArgs where
  cmd : Int
  uid : Nat
  arg : Nat

/-- The arguments of `vget`: `ino` and `flags`. -/
structure VgetArgs where
  ino : Nat
  flags : Nat

/-- The arguments of `fhtovp`: the file identifier and `flags`. -/
structure FhtovpArgs where
  fid : List Byte
  flags : Nat

/-- The arguments of `extattrctl`: `cmd`, `filename_vp`, `namespace` and `attrname`. -/
structure ExtattrctlArgs where
  cmd : Int
  filenameVp : VnodeId
  attrnamespace : Int
  attrname : List Byte

/-- `tptfs_quotactl`. -/
def tptfsQuotactl (vfsQuotactl : Operation QuotactlArgs Int) : Operation QuotactlArgs Int :=
  fun mp args => do
    let xmp ← mountToNullMount mp
    vfsQuotactl xmp.nullmVfs args

/-- `tptfs_statfs`: from the caller's `struct statfs` to the error and the new one. -/
def tptfsStatfs (vfsStatfs : Operation Statfs (Int × Statfs)) : Operation Statfs (Int × Statfs) :=
  fun mp sbp => do
    let xmp ← mountToNullMount mp
    let (error, mstat) ← vfsStatfs xmp.nullmVfs Statfs.zero
    if error ≠ 0 then
      pure (error, sbp)
    else
      pure (0,
        { fType := mstat.fType
          fFlags := (sbp.fFlags &&& ownFlags) ||| (mstat.fFlags &&& ~~~lowerFlags)
          fBsize := mstat.fBsize
          fIosize := mstat.fIosize
          fBlocks := mstat.fBlocks
          fBfree := mstat.fBfree
          fBavail := mstat.fBavail
          fFiles := mstat.fFiles
          fFfree := mstat.fFfree })

/-- The end of `tptfs_vget` and `tptfs_fhtovp`: put an alias over the lower vnode. -/
def aliasOf (tptNodeget : MountId → VnodeId → Path Vfs (Int × VnodeId)) (mp : MountId)
    (found : Int × VnodeId) : Path Vfs (Int × VnodeId) :=
  if found.1 ≠ 0 then pure found else tptNodeget mp found.2

/-- `tptfs_vget`. -/
def tptfsVget (tptNodeget : MountId → VnodeId → Path Vfs (Int × VnodeId))
    (vfsVget : Operation VgetArgs (Int × VnodeId)) : Operation VgetArgs (Int × VnodeId) :=
  fun mp args => do
    Path.require (args.flags &&& lkTypeMask ≠ 0) .panicked
    let xmp ← mountToNullMount mp
    let found ← vfsVget xmp.nullmVfs args
    aliasOf tptNodeget mp found

/-- `tptfs_fhtovp`. -/
def tptfsFhtovp (tptNodeget : MountId → VnodeId → Path Vfs (Int × VnodeId))
    (vfsFhtovp : Operation FhtovpArgs (Int × VnodeId)) : Operation FhtovpArgs (Int × VnodeId) :=
  fun mp args => do
    let xmp ← mountToNullMount mp
    let found ← vfsFhtovp xmp.nullmVfs args
    aliasOf tptNodeget mp found

/-- `tptfs_extattrctl`. -/
def tptfsExtattrctl (vfsExtattrctl : Operation ExtattrctlArgs Int) :
    Operation ExtattrctlArgs Int :=
  fun mp args => do
    let xmp ← mountToNullMount mp
    vfsExtattrctl xmp.nullmVfs args

/-- The operations of the other file systems, and `tpt_nodeget`, which runs on what
a lower mount has returned. -/
structure OtherOps where
  quotactl : Operation QuotactlArgs Int
  statfs : Operation Statfs (Int × Statfs)
  vget : Operation VgetArgs (Int × VnodeId)
  fhtovp : Operation FhtovpArgs (Int × VnodeId)
  extattrctl : Operation ExtattrctlArgs Int
  tptNodeget : MountId → VnodeId → Path Vfs (Int × VnodeId)

/-- A call of an operation returns. -/
def Returns {ι α : Type} (tptfs : Operation ι α → Operation ι α) (other : Operation ι α)
    (vfs : Vfs) (mp : MountId) (args : ι) : Prop :=
  ∃ fuel result, (dispatch tptfs other fuel mp args).run vfs = .ok result

/-- The mounts met when `nullm_vfs` is followed from a mount, up to one that is not a
tptfs mount. -/
def chain (vfs : Vfs) (mp : MountId) : Nat → Option MountId
  | 0 => some mp
  | steps + 1 => do
      let upper ← chain vfs mp steps
      match vfs.mntOp upper with
      | .tptfs => (vfs.mntData upper).map TptMount.nullmVfs
      | .other => none

/-- The chain of lower mounts ends outside tptfs. -/
def LeavesTptfs (vfs : Vfs) (mp : MountId) : Prop :=
  ∃ steps lower, chain vfs mp steps = some lower ∧ vfs.mntOp lower = .other

section Loop

variable {ι α : Type} {vfs : Vfs} {mp : MountId}

/-- The mount has the file system's operations and is its own lower mount. -/
structure SelfMounted (vfs : Vfs) (mp : MountId) : Prop where
  ops : vfs.mntOp mp = .tptfs
  lower : ∃ data, vfs.mntData mp = some data ∧ data.nullmVfs = mp

/-- From a mount that is its own lower mount the chain stands still. -/
theorem SelfMounted.chain_eq (loop : SelfMounted vfs mp) (steps : Nat) :
    chain vfs mp steps = some mp := by
  obtain ⟨data, found, self⟩ := loop.lower
  induction steps with
  | zero => rfl
  | succ steps ih =>
      rw [chain, ih]
      simp only [Option.bind_eq_bind, Option.bind_some, loop.ops, found, Option.map_some, self]

theorem SelfMounted.mountToNullMount_run (loop : SelfMounted vfs mp) :
    ∃ data, (mountToNullMount mp).run vfs = .ok (data, vfs) ∧ data.nullmVfs = mp := by
  obtain ⟨data, found, self⟩ := loop.lower
  refine ⟨data, ?_, self⟩
  rw [mountToNullMount, Path.run_bind_of_ok (Path.run_get _), found]
  rfl

/-- The operation returns only after the same operation of the same mount has. -/
def CallsItself (tptfs : Operation ι α → Operation ι α) (vfs : Vfs) (mp : MountId) : Prop :=
  ∀ lower args result, (tptfs lower mp args).run vfs = .ok result →
    ∃ lowerArgs lowerResult, (lower mp lowerArgs).run vfs = .ok lowerResult

/-- An operation that waits for itself does not return. -/
theorem CallsItself.not_returns {tptfs : Operation ι α → Operation ι α}
    (itself : CallsItself tptfs vfs mp) (ops : vfs.mntOp mp = .tptfs) (other : Operation ι α)
    (args : ι) : ¬ Returns tptfs other vfs mp args := by
  rintro ⟨fuel, result, ran⟩
  induction fuel generalizing args result with
  | zero => cases ran
  | succ fuel ih =>
      rw [dispatch, Path.run_bind_of_ok (Path.run_get _), ops] at ran
      obtain ⟨lowerArgs, lowerResult, lowerRan⟩ := itself _ _ _ ran
      exact ih lowerArgs lowerResult lowerRan

variable (loop : SelfMounted vfs mp)

include loop

/-- Code that returns after following `nullm_vfs` has gone on at the same mount. -/
theorem SelfMounted.followed {β : Type} {rest : MountId → Path Vfs β} {result : β × Vfs}
    (ran : (do let xmp ← mountToNullMount mp; rest xmp.nullmVfs : Path Vfs β).run vfs =
      .ok result) :
    (rest mp).run vfs = .ok result := by
  obtain ⟨data, follows, self⟩ := loop.mountToNullMount_run
  rwa [Path.run_bind_of_ok follows, self] at ran

/-- Code that returns after handing the call on has called itself. -/
theorem SelfMounted.handsOn {β : Type} {lower : Operation ι α} {args : ι}
    {finish : α → Path Vfs β} {result : β × Vfs}
    (ran : (do
      let xmp ← mountToNullMount mp
      let found ← lower xmp.nullmVfs args
      finish found : Path Vfs β).run vfs = .ok result) :
    ∃ lowerArgs lowerResult, (lower mp lowerArgs).run vfs = .ok lowerResult := by
  have gone : (lower mp args >>= finish).run vfs = .ok result :=
    @SelfMounted.followed vfs mp loop _ (fun below => lower below args >>= finish) _ ran
  obtain ⟨found, middle, lowerRan, _⟩ := Path.run_bind_eq_ok gone
  exact ⟨_, _, lowerRan⟩

theorem SelfMounted.quotactl_callsItself : CallsItself tptfsQuotactl vfs mp :=
  fun lower args result ran =>
    ⟨args, result, @SelfMounted.followed vfs mp loop _ (fun below => lower below args) _ ran⟩

theorem SelfMounted.statfs_callsItself : CallsItself tptfsStatfs vfs mp :=
  fun _ _ _ ran => loop.handsOn ran

theorem SelfMounted.vget_callsItself
    (tptNodeget : MountId → VnodeId → Path Vfs (Int × VnodeId)) :
    CallsItself (tptfsVget tptNodeget) vfs mp := by
  intro lower args result ran
  obtain ⟨_, middle, asserted, rest⟩ := Path.run_bind_eq_ok ran
  by_cases requested : args.flags &&& lkTypeMask ≠ 0
  · rw [Path.run_require_of_true requested] at asserted
    cases asserted
    exact loop.handsOn rest
  · rw [Path.run_require_of_false requested] at asserted
    cases asserted

theorem SelfMounted.fhtovp_callsItself
    (tptNodeget : MountId → VnodeId → Path Vfs (Int × VnodeId)) :
    CallsItself (tptfsFhtovp tptNodeget) vfs mp :=
  fun _ _ _ ran => loop.handsOn ran

theorem SelfMounted.extattrctl_callsItself : CallsItself tptfsExtattrctl vfs mp :=
  fun lower args result ran =>
    ⟨args, result, @SelfMounted.followed vfs mp loop _ (fun below => lower below args) _ ran⟩

end Loop

/-- Every mounted file system is its own lower mount. -/
def AllSelfMounted (vfs : Vfs) : Prop :=
  ∀ entry ∈ vfs.mounts, vfs.mntOp entry.1 = .tptfs ∧ entry.2.nullmVfs = entry.1

theorem AllSelfMounted.selfMounted {vfs : Vfs} (loops : AllSelfMounted vfs) {mp : MountId}
    (mounted : (vfs.mntData mp).isSome) : SelfMounted vfs mp := by
  obtain ⟨data, found⟩ := Option.isSome_iff_exists.mp mounted
  have member : (mp, data) ∈ vfs.mounts := by
    obtain ⟨before, after, split, _⟩ := List.lookup_eq_some_iff.mp found
    rw [split]
    simp
  exact ⟨(loops _ member).1, data, found, (loops _ member).2⟩

/-- One call keeps every mount its own lower mount. -/
theorem step_allSelfMounted {vfs next : Vfs} {call : Call} {error : Int}
    (loops : AllSelfMounted vfs) (ran : (step call).run vfs = .ok (error, next)) :
    AllSelfMounted next := by
  rw [step.eq_def, Path.run_bind_of_ok (Path.run_get _)] at ran
  cases ops : vfs.mntOp call.mp with
  | other =>
      rw [ops] at ran
      cases ran
      exact loops
  | tptfs =>
      rw [ops] at ran
      cases call with
      | mount mp answers =>
          by_cases succeeds : answers.AllSucceed
          · cases (tptfsMount_mounted succeeds).symm.trans ran
            intro entry member
            rcases List.mem_cons.mp member with rfl | kept
            · exact ⟨ops, rfl⟩
            · exact loops entry (List.mem_filter.mp kept).1
          · obtain ⟨failure, _, same⟩ := map_eq_ok ((tptfsMount_failed succeeds).symm.trans ran)
            cases same
            exact loops
      | unmount mp force given =>
          rcases tptfsUnmount_ok ran with ⟨_, rfl⟩ | ⟨data, mntUppers, _, _, rfl⟩
          · exact loops
          · exact fun entry member => loops entry (List.mem_filter.mp member).1

/-- Every run keeps every mount its own lower mount. -/
theorem states_allSelfMounted {vfs : Vfs} (loops : AllSelfMounted vfs) {calls : List Call}
    {reached : List Vfs} (ran : states calls vfs = .ok reached) :
    ∀ later ∈ reached, AllSelfMounted later := by
  induction calls generalizing vfs reached with
  | nil =>
      cases ran
      simpa only [List.forall_mem_singleton] using loops
  | cons call rest ih =>
      obtain ⟨error, next, later, first, tail, rfl⟩ := states_cons ran
      rw [List.forall_mem_cons]
      exact ⟨loops, ih (step_allSelfMounted loops first) tail⟩

/-- **Delegation never ends.** In every state of every run, for every mount that
`tptfs_mount` has mounted, the chain of lower mounts never leaves tptfs and none of
the five operations returns, whatever the other file systems do. -/
theorem delegation_never_ends (others : OtherOps) (mntOp : MountId → VfsOps)
    {calls : List Call} {reached : List Vfs}
    (ran : states calls (Vfs.initial mntOp) = .ok reached) {vfs : Vfs} (member : vfs ∈ reached)
    {mp : MountId} (mounted : (vfs.mntData mp).isSome) :
    ¬ LeavesTptfs vfs mp ∧
      (∀ args, ¬ Returns tptfsStatfs others.statfs vfs mp args) ∧
      (∀ args, ¬ Returns (tptfsVget others.tptNodeget) others.vget vfs mp args) ∧
      (∀ args, ¬ Returns (tptfsFhtovp others.tptNodeget) others.fhtovp vfs mp args) ∧
      (∀ args, ¬ Returns tptfsQuotactl others.quotactl vfs mp args) ∧
      ∀ args, ¬ Returns tptfsExtattrctl others.extattrctl vfs mp args := by
  have empty : AllSelfMounted (Vfs.initial mntOp) :=
    fun entry impossible => absurd impossible List.not_mem_nil
  have loop := (states_allSelfMounted empty ran vfs member).selfMounted mounted
  refine ⟨?_, loop.statfs_callsItself.not_returns loop.ops _,
    (loop.vget_callsItself _).not_returns loop.ops _,
    (loop.fhtovp_callsItself _).not_returns loop.ops _,
    loop.quotactl_callsItself.not_returns loop.ops _,
    loop.extattrctl_callsItself.not_returns loop.ops _⟩
  rintro ⟨steps, lower, reachedLower, outside⟩
  cases (loop.chain_eq steps).symm.trans reachedLower
  cases loop.ops.symm.trans outside

/-- Other file systems whose operations all return success at once. -/
def OtherOps.prompt : OtherOps where
  quotactl _ _ := pure 0
  statfs _ sbp := pure (0, sbp)
  vget _ _ := pure (0, 0)
  fhtovp _ _ := pure (0, 0)
  extattrctl _ _ := pure 0
  tptNodeget _ lowervp := pure (0, lowervp)

/-- After one mount that went well the operations of that mount do not return. -/
theorem delegation_never_ends_single :
    ∃ reached, states [.mount 0 (MountAnswers.good 7)] (Vfs.initial fun _ => .tptfs) =
        .ok reached ∧
      ∃ vfs ∈ reached, (vfs.mntData 0).isSome ∧ ¬ LeavesTptfs vfs 0 ∧
        ∀ sbp, ¬ Returns tptfsStatfs OtherOps.prompt.statfs vfs 0 sbp := by
  obtain ⟨reached, ran, mounted⟩ : ∃ reached,
      states [.mount 0 (MountAnswers.good 7)] (Vfs.initial fun _ => .tptfs) = .ok reached ∧
        (Vfs.initial fun _ => .tptfs).mounted 0 (MountAnswers.good 7) ∈ reached :=
    ⟨_, rfl, List.mem_cons_of_mem _ List.mem_cons_self⟩
  have ended := delegation_never_ends OtherOps.prompt _ ran mounted
    (show (Vfs.mntData _ 0).isSome from rfl)
  exact ⟨reached, ran, _, mounted, rfl, ended.1, ended.2.1⟩

/-- One mount that went well: its chain stands still and its `statfs` hangs. -/
theorem delegation_hangs_after_mount :
    ∃ after, (tptfsMount 0 (MountAnswers.good 7)).run (Vfs.initial fun _ => .tptfs) =
        .ok (0, after) ∧
      ¬ LeavesTptfs after 0 ∧
      ∀ sbp, ¬ Returns tptfsStatfs OtherOps.prompt.statfs after 0 sbp := by
  have loop : SelfMounted ((Vfs.initial fun _ => .tptfs).mounted 0 (MountAnswers.good 7)) 0 :=
    ⟨rfl, _, rfl, rfl⟩
  refine ⟨_, rfl, ?_, loop.statfs_callsItself.not_returns loop.ops _⟩
  rintro ⟨steps, lower, reachedLower, outside⟩
  cases (loop.chain_eq steps).symm.trans reachedLower
  cases outside

end Tptfs
