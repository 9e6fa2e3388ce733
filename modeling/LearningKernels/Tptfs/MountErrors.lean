import LearningKernels.Tptfs.Ledger

/-!
# The errors of a mount

What `tptfs_mount` should report for the answers it gets, and where it does. Two ways out
go wrong: an option without a value is read before the pointer is tested, and a failing
`bread` leaves `tpt_mountfs` with `-1` instead of its error number.
-/

namespace Tptfs

open Machine

namespace MountAnswers

variable {answers : MountAnswers}

/-- The error number a mount owes its caller: that of the first call that fails, `EINVAL` for
an option that is missing or not terminated, `EOPNOTSUPP` for the root file system. -/
def errno (answers : MountAnswers) : Int :=
  if answers.mntRootfs then eopnotsupp
  else if answers.vfsGetopt ≠ 0 ∨ answers.fspec.map OptionValue.last ≠ some 0 then einval
  else if answers.namei ≠ 0 then answers.namei
  else if answers.vnIsdiskError ≠ 0 then answers.vnIsdiskError
  else if answers.gVfsOpen ≠ 0 then answers.gVfsOpen
  else answers.bread

/-- The option is there without a value: the pointer is null. -/
structure NoValue (answers : MountAnswers) : Prop where
  mntRootfs : answers.mntRootfs = false
  vfsGetopt : answers.vfsGetopt = 0
  fspec : answers.fspec = none

/-- The superblock cannot be read from a device that everything else succeeds on. -/
structure Unreadable (answers : MountAnswers) : Prop where
  mntRootfs : answers.mntRootfs = false
  vfsGetopt : answers.vfsGetopt = 0
  fspec : answers.fspec.map OptionValue.last = some 0
  namei : answers.namei = 0
  vnIsdiskError : answers.vnIsdiskError = 0
  gVfsOpen : answers.gVfsOpen = 0
  bread : answers.bread ≠ 0

theorem errno_pos (failed : ¬ answers.AllSucceed) : 0 < answers.errno := by
  rw [errno]
  split
  · decide
  next remote =>
  split
  · decide
  next option =>
  split
  · next missing => omega
  next found =>
  split
  · next other => omega
  next disk =>
  split
  · next closed => omega
  next opened =>
  push Not at option found disk opened
  have unread : answers.bread ≠ 0 := fun read =>
    failed ⟨by simpa using remote, option.1, option.2, found, disk, opened, read⟩
  omega

theorem NoValue.failure (noValue : answers.NoValue) : answers.failure = .error .pageFault := by
  simp only [MountAnswers.failure, noValue.mntRootfs, noValue.vfsGetopt, noValue.fspec,
    Bool.false_eq_true, ne_eq, not_true_eq_false, ↓reduceIte]

theorem Unreadable.failure (unreadable : answers.Unreadable) : answers.failure = .ok (-1) := by
  obtain ⟨value, present, terminated⟩ := Option.map_eq_some_iff.mp unreadable.fspec
  simp only [MountAnswers.failure, unreadable.mntRootfs, unreadable.vfsGetopt, present,
    terminated, unreadable.namei, unreadable.vnIsdiskError, unreadable.gVfsOpen,
    Bool.false_eq_true, ne_eq, not_true_eq_false, ↓reduceIte]

theorem Unreadable.not_allSucceed (unreadable : answers.Unreadable) : ¬ answers.AllSucceed :=
  fun succeeds => unreadable.bread succeeds.bread

theorem NoValue.not_allSucceed (noValue : answers.NoValue) : ¬ answers.AllSucceed := by
  intro succeeds
  have terminated := succeeds.fspec
  rw [noValue.fspec] at terminated
  cases terminated

/-- A failing mount comes to the error number it owes but for the two ways out. -/
theorem failure_eq_errno (failed : ¬ answers.AllSucceed) (value : ¬ answers.NoValue)
    (readable : ¬ answers.Unreadable) : answers.failure = .ok answers.errno := by
  rw [MountAnswers.failure, errno]
  by_cases rootfs : answers.mntRootfs = true
  · rw [if_pos rootfs, if_pos rootfs]
  by_cases option : answers.vfsGetopt = 0
  swap
  · rw [if_neg rootfs, if_neg rootfs, if_pos option, if_pos (Or.inl option)]
  rw [if_neg rootfs, if_neg rootfs, if_neg (not_not.mpr option)]
  have remote : answers.mntRootfs = false := by simpa using rootfs
  cases present : answers.fspec with
  | none => exact absurd ⟨remote, option, present⟩ value
  | some fspec =>
      by_cases terminated : fspec.last = 0
      swap
      · have bad : some fspec.last ≠ some 0 := fun same => terminated (Option.some.inj same)
        simp only [terminated, ne_eq, not_false_eq_true, ↓reduceIte, Option.map_some, bad,
          or_true]
      have last : answers.fspec.map OptionValue.last = some 0 := by
        rw [present, Option.map_some, terminated]
      have opened : answers.namei = 0 → answers.vnIsdiskError = 0 → answers.gVfsOpen ≠ 0 := by
        intro found disk opened
        by_cases read : answers.bread = 0
        · exact failed ⟨remote, option, last, found, disk, opened, read⟩
        · exact readable ⟨remote, option, last, found, disk, opened, read⟩
      simp only [terminated, option, Option.map_some, ne_eq, not_true_eq_false, or_self,
        ↓reduceIte]
      by_cases found : answers.namei = 0
      swap
      · rw [if_pos found, if_pos found]
      by_cases disk : answers.vnIsdiskError = 0
      swap
      · rw [if_neg (not_not.mpr found), if_neg (not_not.mpr found), if_pos disk, if_pos disk]
      rw [if_neg (not_not.mpr found), if_neg (not_not.mpr found), if_neg (not_not.mpr disk),
        if_neg (not_not.mpr disk), if_pos (opened found disk), if_pos (opened found disk)]

end MountAnswers

/-- **The intended report of a mount.** Zero and the new `mnt_data` where every call succeeds,
otherwise the error number, which is positive, and `mnt_data` as before. -/
def Reports (mp : MountId) (answers : MountAnswers) (vfs : Vfs) : Prop :=
  ∃ error after, (tptfsMount mp answers).run vfs = .ok (error, after) ∧
    (answers.AllSucceed → error = 0 ∧
      after.mntData mp = some ⟨mp, answers.niVp, 0, answers.bData.take 48⟩) ∧
    (¬ answers.AllSucceed → error = answers.errno ∧ 0 < error ∧
      after.mntData mp = vfs.mntData mp)

/-- **Where a mount reports its errors.** -/
theorem reports_iff (mp : MountId) (answers : MountAnswers) (vfs : Vfs) :
    Reports mp answers vfs ↔ ¬ answers.NoValue ∧ ¬ answers.Unreadable := by
  constructor
  · rintro ⟨error, after, ran, -, reported⟩
    refine ⟨?_, ?_⟩
    · intro noValue
      rw [tptfsMount_failed noValue.not_allSucceed, noValue.failure] at ran
      cases ran
    · intro unreadable
      obtain ⟨-, positive, -⟩ := reported unreadable.not_allSucceed
      rw [tptfsMount_failed unreadable.not_allSucceed, unreadable.failure] at ran
      cases ran
      exact absurd positive (by decide)
  · rintro ⟨value, readable⟩
    by_cases succeeds : answers.AllSucceed
    · exact ⟨0, vfs.mounted mp answers, tptfsMount_mounted succeeds,
        fun _ => ⟨rfl, mntData_mounted⟩, fun failed => absurd succeeds failed⟩
    · have ran := @tptfsMount_failed vfs mp answers succeeds
      rw [MountAnswers.failure_eq_errno succeeds value readable] at ran
      exact ⟨answers.errno, vfs, ran, fun all => absurd all succeeds,
        fun _ => ⟨rfl, MountAnswers.errno_pos succeeds, rfl⟩⟩

/-- A device on which everything succeeds but reading the superblock, with `EIO`. -/
def unreadableDevice : MountAnswers where
  mntRootfs := false
  vfsGetopt := 0
  fspec := some ⟨0, [47, 100, 0]⟩
  namei := 0
  niVp := 1
  vnIsdiskError := 0
  gVfsOpen := 0
  bread := 5
  bData := []

/-- The mount returns `-1` where it should return 5. -/
theorem not_reports_unreadable :
    ¬ Reports 0 unreadableDevice (Vfs.initial fun _ => .tptfs) := by
  rintro ⟨error, after, ran, -, reported⟩
  have unreadable : unreadableDevice.Unreadable := ⟨rfl, rfl, rfl, rfl, rfl, rfl, by decide⟩
  obtain ⟨-, positive, -⟩ := reported unreadable.not_allSucceed
  rw [tptfsMount_failed unreadable.not_allSucceed, unreadable.failure] at ran
  cases ran
  exact absurd positive (by decide)

end Tptfs
