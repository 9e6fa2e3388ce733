import LearningKernels.Tptfs.Mount

/-!
# What a mount holds

Every failing mount puts back what it took. A succeeding one keeps the buffer of
the superblock, and no unmount gives back the consumer, the buffer or the
superblock copy. So the ledger is in balance exactly in the runs that never mount
anything (`Tptfs.ledger_balanced_iff`).
-/

namespace Tptfs

open Machine

/-- The device vnodes of the mounted file systems. -/
def Vfs.devices (vfs : Vfs) : Multiset VnodeId :=
  (vfs.mounts.map fun entry => entry.2.nullmLowerrootvp : List VnodeId)

/-- The ledger holds one device reference, one consumer, one `struct tpt_mount` and
one `struct tptfs` for each mount, and no buffer and no lock. -/
structure Balanced (vfs : Vfs) : Prop where
  refs : vfs.ledger.refs = vfs.devices
  locks : vfs.ledger.locks = 0
  consumers : vfs.ledger.consumers = vfs.devices
  buffers : vfs.ledger.buffers = 0
  tptMounts : vfs.ledger.tptMounts = vfs.mounts.length
  tptfss : vfs.ledger.tptfss = vfs.mounts.length

/-- The state a succeeding mount leaves: a reference, a consumer, a buffer and two
allocations more, and the new `mnt_data`. -/
def Vfs.mounted (vfs : Vfs) (mp : MountId) (answers : MountAnswers) : Vfs :=
  (vfs.account fun held =>
    { held with
      refs := answers.niVp ::ₘ held.refs
      consumers := answers.niVp ::ₘ held.consumers
      buffers := answers.niVp ::ₘ held.buffers
      tptMounts := held.tptMounts + 1
      tptfss := held.tptfss + 1 }).setMntData mp
    (some ⟨mp, answers.niVp, 0, answers.bData.take 48⟩)

section OneMount

variable {vfs : Vfs} {mp : MountId} {answers : MountAnswers}

theorem lockLeaf_run (vp : VnodeId) :
    (lockLeaf vp).run vfs = .ok ((), vfs.account fun held =>
      { held with refs := vp ::ₘ held.refs, locks := vp ::ₘ held.locks }) := rfl

/-- What `tptfs_mount` comes to when not everything succeeds. -/
def MountAnswers.failure (answers : MountAnswers) : Except Halt Int :=
  if answers.mntRootfs then .ok eopnotsupp
  else if answers.vfsGetopt ≠ 0 then .ok einval
  else
    match answers.fspec with
    | none => .error .pageFault
    | some value =>
        if value.last ≠ 0 then .ok einval
        else if answers.namei ≠ 0 then .ok answers.namei
        else if answers.vnIsdiskError ≠ 0 then .ok answers.vnIsdiskError
        else if answers.gVfsOpen ≠ 0 then .ok answers.gVfsOpen
        else .ok (-1)

/-- A failing `tpt_mountfs` gives the consumer back and has unlocked the device. -/
theorem tptMountfs_failed (devvp : VnodeId) (failed : answers.gVfsOpen ≠ 0 ∨ answers.bread ≠ 0) :
    (tptMountfs devvp mp answers).run vfs =
      .ok (if answers.gVfsOpen ≠ 0 then answers.gVfsOpen else -1,
        vfs.account fun held => { held with locks := held.locks.erase devvp }) := by
  by_cases opened : answers.gVfsOpen = 0
  · have unread : answers.bread ≠ 0 := failed.resolve_left fun closed => closed opened
    rw [tptMountfs, if_pos opened, if_neg (by simpa using opened), if_pos unread]
    simp only [openConsumer, vopUnlock, mountfsOut, gVfsClose, StateT.run_bind, Path.run_modify,
      Path.run_pure]
    simp only [Vfs.account, bind, Except.bind, Multiset.erase_cons_head, opened, ne_eq,
      not_true_eq_false, ↓reduceIte]
  · rw [tptMountfs, if_neg opened, if_pos opened, if_pos opened]
    simp only [vopUnlock, StateT.run_bind, Path.run_modify, Path.run_pure]
    rfl

/-- A succeeding `tpt_mountfs` keeps the consumer, the buffer and both allocations. -/
theorem tptMountfs_mounted (devvp : VnodeId) (opened : answers.gVfsOpen = 0)
    (read : answers.bread = 0) :
    (tptMountfs devvp mp answers).run vfs =
      .ok (0, (vfs.account fun held =>
        { held with
          locks := held.locks.erase devvp
          consumers := devvp ::ₘ held.consumers
          buffers := devvp ::ₘ held.buffers
          tptMounts := held.tptMounts + 1
          tptfss := held.tptfss + 1 }).setMntData mp
        (some ⟨mp, devvp, 0, answers.bData.take 48⟩)) := by
  rw [tptMountfs, if_pos opened, if_neg (by simpa using opened), if_neg (by simpa using read)]
  simp only [tptComputeSbData, ne_eq, not_true_eq_false, ↓reduceIte]
  simp only [openConsumer, vopUnlock, holdBuffer, mallocBoth, StateT.run_bind, Path.run_modify,
    Path.run_pure]
  rfl

/-- **A failing mount puts back what it took.** It comes to `MountAnswers.failure` and leaves
the state as it was. -/
theorem tptfsMount_failed (failed : ¬ answers.AllSucceed) :
    (tptfsMount mp answers).run vfs = answers.failure.map fun error => (error, vfs) := by
  rw [MountAnswers.failure]
  by_cases rootfs : answers.mntRootfs = true
  · rw [tptfsMount, if_pos rootfs, if_pos rootfs]
    rfl
  by_cases option : answers.vfsGetopt = 0
  swap
  · rw [tptfsMount, if_neg rootfs, if_neg rootfs, if_pos option, if_pos option]
    rfl
  have given : ¬ answers.vfsGetopt ≠ 0 := not_not.mpr option
  rw [tptfsMount, if_neg rootfs, if_neg rootfs, if_neg given, if_neg given]
  cases present : answers.fspec with
  | none => rfl
  | some value =>
      have read : (lastChar (some value)).run vfs = .ok (value.last, vfs) := rfl
      rw [Path.run_bind_of_ok read]
      by_cases terminated : value.last = 0
      swap
      · simp only [terminated, ne_eq, not_false_eq_true, ↓reduceIte]
        rfl
      rw [if_neg (by simpa using terminated), Option.isNone_some, if_neg (by decide)]
      simp only [terminated, ne_eq, not_true_eq_false, ↓reduceIte]
      by_cases found : answers.namei = 0
      swap
      · rw [if_pos found, if_pos found]
        rfl
      rw [if_neg (not_not.mpr found), if_neg (not_not.mpr found),
        Path.run_bind_of_ok (lockLeaf_run _)]
      by_cases disk : answers.vnIsdiskError = 0
      swap
      · rw [if_pos disk, if_pos disk]
        simp only [vput, vopUnlock, vrele, StateT.run_bind, Path.run_modify, Path.run_pure]
        simp only [Vfs.account, bind, Except.bind, Multiset.erase_cons_head]
        rfl
      rw [if_neg (not_not.mpr disk), if_neg (not_not.mpr disk)]
      have unmounted : answers.gVfsOpen ≠ 0 ∨ answers.bread ≠ 0 := by
        by_contra both
        push Not at both
        exact failed ⟨by simpa using rootfs, option, by rw [present, Option.map_some, terminated],
          found, disk,
          both.1, both.2⟩
      have nonzero : (if answers.gVfsOpen ≠ 0 then (answers.gVfsOpen : Int) else -1) ≠ 0 := by
        split
        · next closed => exact_mod_cast closed
        · decide
      rw [Path.run_bind_of_ok (tptMountfs_failed answers.niVp unmounted), if_pos nonzero]
      simp only [vrele, StateT.run_bind, Path.run_modify, Path.run_pure]
      simp only [Vfs.account, bind, Except.bind, Multiset.erase_cons_head]
      split <;> rfl

/-- A succeeding mount returns zero and leaves `Vfs.mounted`. -/
theorem tptfsMount_mounted (succeeds : answers.AllSucceed) :
    (tptfsMount mp answers).run vfs = .ok (0, vfs.mounted mp answers) := by
  obtain ⟨value, present, terminated⟩ := Option.map_eq_some_iff.mp succeeds.fspec
  have read : (lastChar (some value)).run vfs = .ok (value.last, vfs) := rfl
  rw [tptfsMount, if_neg (by simp [succeeds.mntRootfs]), if_neg (by simp [succeeds.vfsGetopt]),
    present, Path.run_bind_of_ok read, if_neg (by simpa using terminated), Option.isNone_some,
    if_neg (by decide),
    if_neg (by simp [succeeds.namei]), Path.run_bind_of_ok (lockLeaf_run _),
    if_neg (by simp [succeeds.vnIsdiskError]),
    Path.run_bind_of_ok (tptMountfs_mounted _ succeeds.gVfsOpen succeeds.bread),
    if_neg (by decide), Path.run_pure]
  simp only [Vfs.mounted, Vfs.account, Multiset.erase_cons_head]

theorem flushLoop_run {force : Bool} {rounds : List (Nat × Nat)} {error : Int} {after : Vfs}
    (ran : (flushLoop force rounds).run vfs = .ok (error, after)) : after = vfs := by
  induction rounds with
  | nil => cases ran
  | cons round rest ih =>
      obtain ⟨failure, left⟩ := round
      rw [flushLoop] at ran
      split_ifs at ran
      · cases ran
        rfl
      · cases ran
        rfl
      · exact ih ran
      · cases ran
        rfl

theorem awaitUppers_run {tests : List Bool} {after : Vfs}
    (ran : (awaitUppers tests).run vfs = .ok ((), after)) : after = vfs := by
  induction tests with
  | nil => cases ran
  | cons busy rest ih =>
      cases busy with
      | true => exact ih ran
      | false =>
          cases ran
          rfl

theorem leaveUppers_run {data : TptMount} {tests : List Bool} {after : Vfs}
    (ran : (leaveUppers mp data tests).run vfs = .ok ((), after)) :
    ∃ mntUppers, after = { vfs with mntUppers := mntUppers } := by
  rw [leaveUppers] at ran
  split_ifs at ran with cached
  · obtain ⟨_, waited, awaited, left⟩ := Path.run_bind_eq_ok ran
    obtain rfl := awaitUppers_run awaited
    cases left
    exact ⟨_, rfl⟩
  · cases ran
    exact ⟨vfs.mntUppers, rfl⟩

/-- The state a succeeding unmount leaves: a reference and one allocation less, and
no `mnt_data`. -/
def Vfs.unmounted (vfs : Vfs) (mp : MountId) (data : TptMount)
    (mntUppers : MountId → List MountId) : Vfs :=
  ({ vfs with mntUppers := mntUppers }.account fun held =>
    { held with
      refs := held.refs.erase data.nullmLowerrootvp
      tptMounts := held.tptMounts - 1 }).setMntData mp none

/-- A returning unmount has changed nothing, or has torn the mount down. -/
theorem tptfsUnmount_ok {force : Bool} {given : UnmountAnswers} {error : Int} {after : Vfs}
    (ran : (tptfsUnmount mp force given).run vfs = .ok (error, after)) :
    (error ≠ 0 ∧ after = vfs) ∨
      ∃ data mntUppers, vfs.mntData mp = some data ∧ error = 0 ∧
        after = vfs.unmounted mp data mntUppers := by
  obtain ⟨flushed, middle, looped, teardown⟩ := Path.run_bind_eq_ok ran
  obtain rfl := flushLoop_run looped
  by_cases busy : flushed ≠ 0
  · rw [if_pos busy] at teardown
    cases teardown
    exact Or.inl ⟨busy, rfl⟩
  · rw [if_neg busy, Path.run_bind_of_ok (Path.run_get _)] at teardown
    cases found : middle.mntData mp with
    | none =>
        rw [found] at teardown
        cases teardown
    | some data =>
        rw [found] at teardown
        obtain ⟨_, left, leaving, released⟩ := Path.run_bind_eq_ok teardown
        obtain ⟨mntUppers, rfl⟩ := leaveUppers_run leaving
        cases released
        exact Or.inr ⟨data, mntUppers, rfl, rfl, rfl⟩

theorem mntData_mounted : (vfs.mounted mp answers).mntData mp =
    some ⟨mp, answers.niVp, 0, answers.bData.take 48⟩ := by
  simp only [Vfs.mounted, Vfs.setMntData, Vfs.mntData, Option.map_some, Option.toList_some,
    List.singleton_append, List.lookup_cons_self]

/-- Mounting and unmounting again gives the device reference and the mount structure
back, and keeps a consumer, a buffer and a superblock copy for good. -/
theorem unmount_leaks {force : Bool} {given : UnmountAnswers} {after : Vfs}
    (ran : (tptfsUnmount mp force given).run (vfs.mounted mp answers) = .ok (0, after)) :
    after.ledger =
      { vfs.ledger with
        consumers := answers.niVp ::ₘ vfs.ledger.consumers
        buffers := answers.niVp ::ₘ vfs.ledger.buffers
        tptfss := vfs.ledger.tptfss + 1 } := by
  rcases tptfsUnmount_ok ran with ⟨nonzero, _⟩ | ⟨data, mntUppers, found, _, rfl⟩
  · exact absurd rfl nonzero
  · cases mntData_mounted.symm.trans found
    simp only [Vfs.unmounted, Vfs.mounted, Vfs.setMntData, Vfs.account,
      Multiset.erase_cons_head, Nat.add_sub_cancel]

end OneMount

section Runs

variable {vfs : Vfs}

/-- The call mounts something: every external call it makes succeeds. -/
def Call.Mounts (mntOp : MountId → VfsOps) : Call → Prop
  | .mount mp answers => mntOp mp = .tptfs ∧ answers.AllSucceed
  | .unmount _ _ _ => False

theorem states_cons {call : Call} {rest : List Call} {reached : List Vfs}
    (ran : states (call :: rest) vfs = .ok reached) :
    ∃ error next later, (step call).run vfs = .ok (error, next) ∧
      states rest next = .ok later ∧ reached = vfs :: later := by
  obtain ⟨pair, first, others⟩ := bind_eq_ok ran
  obtain ⟨tail, later, joined⟩ := bind_eq_ok others
  cases joined
  exact ⟨pair.1, pair.2, tail, first, later, rfl⟩

theorem mem_states {calls : List Call} {reached : List Vfs}
    (ran : states calls vfs = .ok reached) : vfs ∈ reached := by
  cases calls with
  | nil =>
      cases ran
      exact List.mem_cons_self
  | cons call rest =>
      obtain ⟨_, _, later, _, _, rfl⟩ := states_cons ran
      exact List.mem_cons_self

/-- While nothing is mounted, a call that does not mount changes nothing. -/
theorem step_idle {call : Call} {error : Int} {next : Vfs} (nothing : vfs.mounts = [])
    (idle : ¬ call.Mounts vfs.mntOp) (ran : (step call).run vfs = .ok (error, next)) :
    next = vfs := by
  rw [step.eq_def, Path.run_bind_of_ok (Path.run_get _)] at ran
  cases ops : vfs.mntOp call.mp with
  | other =>
      rw [ops] at ran
      cases ran
      rfl
  | tptfs =>
      rw [ops] at ran
      cases call with
      | mount mp answers =>
          have failed := @tptfsMount_failed vfs mp answers fun succeeds => idle ⟨ops, succeeds⟩
          obtain ⟨failure, _, same⟩ := map_eq_ok (failed.symm.trans ran)
          cases same
          rfl
      | unmount mp force given =>
          rcases tptfsUnmount_ok ran with ⟨_, unchanged⟩ | ⟨data, _, found, _⟩
          · exact unchanged
          · rw [Vfs.mntData, nothing] at found
            cases found

/-- A call that mounts leaves a buffer held. -/
theorem step_mounts {call : Call} (mounts : call.Mounts vfs.mntOp) :
    ∃ next, (step call).run vfs = .ok (0, next) ∧ next.ledger.buffers ≠ 0 := by
  cases call with
  | mount mp answers =>
      obtain ⟨ops, succeeds⟩ := mounts
      refine ⟨vfs.mounted mp answers, ?_, Multiset.cons_ne_zero⟩
      rw [step.eq_def, Path.run_bind_of_ok (Path.run_get _)]
      simp only [Call.mp, ops]
      exact tptfsMount_mounted succeeds
  | unmount mp force given => exact mounts.elim

theorem balanced_initial (mntOp : MountId → VfsOps) : Balanced (Vfs.initial mntOp) :=
  ⟨rfl, rfl, rfl, rfl, rfl, rfl⟩

/-- **The resource balance of mounting.** In a run from the state without mounts,
the ledger is in balance in every state exactly when no call of the run mounts
anything. -/
theorem ledger_balanced_iff (mntOp : MountId → VfsOps) {calls : List Call} {reached : List Vfs}
    (ran : states calls (Vfs.initial mntOp) = .ok reached) :
    (∀ vfs ∈ reached, Balanced vfs) ↔ ∀ call ∈ calls, ¬ call.Mounts mntOp := by
  induction calls generalizing reached with
  | nil =>
      cases ran
      refine iff_of_true ?_ fun call member => absurd member List.not_mem_nil
      simpa only [List.forall_mem_singleton] using balanced_initial mntOp
  | cons call rest ih =>
      obtain ⟨error, next, later, first, tail, rfl⟩ := states_cons ran
      by_cases mounts : call.Mounts mntOp
      · obtain ⟨leaking, leaked, held⟩ :=
          @step_mounts (Vfs.initial mntOp) call mounts
        cases leaked.symm.trans first
        refine iff_of_false (fun balanced => ?_) fun idle => idle call List.mem_cons_self mounts
        exact held (balanced _ (List.mem_cons_of_mem _ (mem_states tail))).buffers
      · obtain rfl := step_idle rfl mounts first
        rw [List.forall_mem_cons, List.forall_mem_cons, ih tail]
        exact ⟨fun both => ⟨mounts, both.2⟩, fun both => ⟨balanced_initial mntOp, both.2⟩⟩

/-- The answers of a mount of device `devvp` that goes well. -/
def MountAnswers.good (devvp : VnodeId) : MountAnswers where
  mntRootfs := false
  vfsGetopt := 0
  fspec := some ⟨0, [0x2f, 0]⟩
  namei := 0
  niVp := devvp
  vnIsdiskError := 0
  gVfsOpen := 0
  bread := 0
  bData := []

/-- A mount whose device does not open leaves the ledger in balance. -/
theorem ledger_balanced_unopened :
    ∃ reached, states [.mount 0 { MountAnswers.good 7 with gVfsOpen := 16 }]
        (Vfs.initial fun _ => .tptfs) = .ok reached ∧
      ∀ vfs ∈ reached, Balanced vfs := by
  obtain ⟨reached, ran⟩ : ∃ reached, states
      [.mount 0 { MountAnswers.good 7 with gVfsOpen := 16 }] (Vfs.initial fun _ => .tptfs) =
        .ok reached := ⟨_, rfl⟩
  refine ⟨reached, ran, (ledger_balanced_iff _ ran).mpr fun call member mounts => ?_⟩
  cases List.mem_singleton.mp member
  exact absurd mounts.2.gVfsOpen (by decide)

/-- A single mount that goes well keeps the buffer of the superblock. -/
theorem ledger_unbalanced_mounted :
    ∃ reached, states [.mount 0 (MountAnswers.good 7)] (Vfs.initial fun _ => .tptfs) =
        .ok reached ∧
      ∃ vfs ∈ reached, vfs.ledger.buffers = {7} ∧ ¬ Balanced vfs := by
  have held : ((Vfs.initial fun _ => .tptfs).mounted 0 (MountAnswers.good 7)).ledger.buffers =
      {7} := rfl
  refine ⟨_, rfl, (Vfs.initial fun _ => .tptfs).mounted 0 (MountAnswers.good 7),
    List.mem_cons_of_mem _ List.mem_cons_self, held, fun balanced => ?_⟩
  exact Multiset.singleton_ne_zero 7 (held.symm.trans balanced.buffers)

end Runs

end Tptfs
