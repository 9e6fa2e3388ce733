import Mathlib.Data.Multiset.AddSub
import LearningKernels.Machine.AddressSpace

/-!
# Mounting and unmounting

`tptfs_mount`, `tpt_mountfs` and `tptfs_unmount` of `tpt_vfsops.c`. What they ask
of the rest of the kernel (options, path lookup, the disk, the vnode flush) is
answered by a record that a call carries with it. The state keeps the mounted
file systems and a ledger of everything the three functions hold: references and
locks on device vnodes, GEOM consumers, buffers and `M_TPTFSMNT` allocations. The
progress messages of `uprintf` are not part of the state.
-/

namespace Tptfs

open Machine

/-- A `struct mount *`. -/
abbrev MountId := Nat

/-- A `struct vnode *`. -/
abbrev VnodeId := Nat

/-- Whose operations a mount dispatches to. -/
inductive VfsOps where
  | tptfs
  | other
  deriving DecidableEq, Repr

/-- `struct tpt_mount`; the superblock behind `fs` is kept as its bytes. -/
structure TptMount where
  nullmVfs : MountId
  nullmLowerrootvp : VnodeId
  nullmFlags : Nat
  fs : List Byte
  deriving DecidableEq, Repr

/-- The resources in the hands of the file system: vnodes referenced, vnodes
locked, vnodes with an open consumer, vnodes with a buffer held, and the numbers
of live `struct tpt_mount` and `struct tptfs`. -/
structure Ledger where
  refs : Multiset VnodeId
  locks : Multiset VnodeId
  consumers : Multiset VnodeId
  buffers : Multiset VnodeId
  tptMounts : Nat
  tptfss : Nat
  deriving DecidableEq

/-- Nothing is held. -/
def Ledger.empty : Ledger := ⟨0, 0, 0, 0, 0, 0⟩

/-- The part of the kernel the file system works on. The `mnt_data` of the mounts
is a list, so that mounts can be counted; `mnt_uppers` belongs to the lower mount. -/
structure Vfs where
  mntOp : MountId → VfsOps
  mounts : List (MountId × TptMount)
  mntUppers : MountId → List MountId
  ledger : Ledger

namespace Vfs

/-- No tptfs is mounted and nothing is held. -/
def initial (mntOp : MountId → VfsOps) : Vfs := ⟨mntOp, [], fun _ => [], Ledger.empty⟩

/-- `mp->mnt_data`. -/
def mntData (vfs : Vfs) (mp : MountId) : Option TptMount := vfs.mounts.lookup mp

/-- `mp->mnt_data = data`. -/
def setMntData (vfs : Vfs) (mp : MountId) (data : Option TptMount) : Vfs :=
  { vfs with
    mounts := (data.map (mp, ·)).toList ++ vfs.mounts.filter fun entry => entry.1 ≠ mp }

/-- Change the ledger. -/
def account (vfs : Vfs) (update : Ledger → Ledger) : Vfs :=
  { vfs with ledger := update vfs.ledger }

end Vfs

section Resources

variable (vp : VnodeId)

/-- What `namei` with `LOCKLEAF` leaves behind: a referenced and locked vnode. -/
def lockLeaf : Path Vfs Unit :=
  modify fun vfs => vfs.account fun held =>
    { held with refs := vp ::ₘ held.refs, locks := vp ::ₘ held.locks }

/-- `VOP_UNLOCK`. -/
def vopUnlock : Path Vfs Unit :=
  modify fun vfs => vfs.account fun held => { held with locks := held.locks.erase vp }

/-- `vrele`. -/
def vrele : Path Vfs Unit :=
  modify fun vfs => vfs.account fun held => { held with refs := held.refs.erase vp }

/-- `vput`. -/
def vput : Path Vfs Unit := do
  vopUnlock vp
  vrele vp

/-- What `g_vfs_open` leaves behind when it succeeds. -/
def openConsumer : Path Vfs Unit :=
  modify fun vfs => vfs.account fun held => { held with consumers := vp ::ₘ held.consumers }

/-- `g_vfs_close`. -/
def gVfsClose : Path Vfs Unit :=
  modify fun vfs => vfs.account fun held => { held with consumers := held.consumers.erase vp }

/-- What `bread` leaves behind when it succeeds. -/
def holdBuffer : Path Vfs Unit :=
  modify fun vfs => vfs.account fun held => { held with buffers := vp ::ₘ held.buffers }

/-- `brelse`. -/
def brelse : Path Vfs Unit :=
  modify fun vfs => vfs.account fun held => { held with buffers := held.buffers.erase vp }

/-- The two calls of `malloc` in `tpt_mountfs`. -/
def mallocBoth : Path Vfs Unit :=
  modify fun vfs => vfs.account fun held =>
    { held with
      tptMounts := held.tptMounts + 1
      tptfss := held.tptfss + 1 }

/-- `free` of a `struct tpt_mount`. -/
def freeTptMount : Path Vfs Unit :=
  modify fun vfs => vfs.account fun held => { held with tptMounts := held.tptMounts - 1 }

end Resources

/-- `EBUSY`. -/
def ebusy : Int := 16

/-- `EINVAL`. -/
def einval : Int := 22

/-- `EOPNOTSUPP`. -/
def eopnotsupp : Int := 45

/-- The value of an option in memory: its bytes, as many as its length says, and the byte in
front of them. -/
structure OptionValue where
  front : Byte
  bytes : List Byte
  deriving DecidableEq, Repr

/-- `fspec[len - 1]`. With a length of zero that is the byte in front. -/
def OptionValue.last (fspec : OptionValue) : Byte := fspec.bytes.getLastD fspec.front

/-- The answers a call of `tptfs_mount` gets. Error numbers are zero for success;
`fspec` is the option's value, or the null pointer. -/
structure MountAnswers where
  mntRootfs : Bool
  vfsGetopt : Nat
  fspec : Option OptionValue
  namei : Nat
  niVp : VnodeId
  vnIsdiskError : Nat
  gVfsOpen : Nat
  bread : Nat
  bData : List Byte
  deriving DecidableEq, Repr

/-- Every call `tptfs_mount` makes succeeds, on a mount it accepts. -/
structure MountAnswers.AllSucceed (answers : MountAnswers) : Prop where
  mntRootfs : answers.mntRootfs = false
  vfsGetopt : answers.vfsGetopt = 0
  fspec : answers.fspec.map OptionValue.last = some 0
  namei : answers.namei = 0
  vnIsdiskError : answers.vnIsdiskError = 0
  gVfsOpen : answers.gVfsOpen = 0
  bread : answers.bread = 0

/-- `tpt_compute_sb_data`. -/
def tptComputeSbData (_devvp : VnodeId) (_fs : List Byte) : Int := 0

/-- The exit `out` of `tpt_mountfs`. -/
def mountfsOut (bp : Option VnodeId) (cp : VnodeId) : Path Vfs Int := do
  match bp with
  | some vp => brelse vp
  | none => pure ()
  gVfsClose cp
  pure (-1)

/-- `tpt_mountfs`. The superblock is copied in the size of `struct tptfs`. -/
def tptMountfs (devvp : VnodeId) (mp : MountId) (answers : MountAnswers) : Path Vfs Int := do
  if answers.gVfsOpen = 0 then openConsumer devvp
  vopUnlock devvp
  if answers.gVfsOpen ≠ 0 then
    pure answers.gVfsOpen
  else if answers.bread ≠ 0 then
    mountfsOut none devvp
  else
    holdBuffer devvp
    mallocBoth
    let fs := answers.bData.take 48
    if tptComputeSbData devvp fs ≠ 0 then
      mountfsOut (some devvp) devvp
    else
      modify fun vfs => vfs.setMntData mp (some ⟨mp, devvp, 0, fs⟩)
      pure 0

/-- The read of `fspec[len - 1]`. The source makes it before it looks whether the pointer is
null, and the length that comes with a null pointer is zero. -/
def lastChar (fspec : Option OptionValue) : Path Vfs Byte :=
  match fspec with
  | some value => pure value.last
  | none => Path.halt .pageFault

/-- `tptfs_mount`. -/
def tptfsMount (mp : MountId) (answers : MountAnswers) : Path Vfs Int := do
  if answers.mntRootfs then
    pure eopnotsupp
  else if answers.vfsGetopt ≠ 0 then
    pure einval
  else
    let last ← lastChar answers.fspec
    if last ≠ 0 then
      pure einval
    else if answers.fspec.isNone then
      pure einval
    else if answers.namei ≠ 0 then
      pure answers.namei
    else
      let devvp := answers.niVp
      lockLeaf devvp
      if answers.vnIsdiskError ≠ 0 then
        vput devvp
        pure answers.vnIsdiskError
      else
        let error ← tptMountfs devvp mp answers
        if error ≠ 0 then
          vrele devvp
          pure error
        else
          pure 0

/-- The answers a call of `tptfs_unmount` gets: for each round the result of
`vflush` and the vnodes left on the mount, and for each test of the wait loop
whether a vnode above is still being reclaimed. -/
structure UnmountAnswers where
  rounds : List (Nat × Nat)
  vgoneUpper : List Bool
  deriving DecidableEq, Repr

/-- The flush loop of `tptfs_unmount`; zero when it goes on to the teardown. -/
def flushLoop (force : Bool) : List (Nat × Nat) → Path Vfs Int
  | [] => Path.halt .unfinished
  | (error, nvnodelistsize) :: rest =>
      if error ≠ 0 then
        pure error
      else if nvnodelistsize = 0 then
        pure 0
      else if force then
        flushLoop force rest
      else
        pure ebusy

/-- The wait for `MNTK_VGONE_UPPER`. -/
def awaitUppers : List Bool → Path Vfs Unit
  | [] => Path.halt .unfinished
  | true :: rest => awaitUppers rest
  | false :: _ => pure ()

/-- `NULLM_CACHE`. -/
def nullmCache : Nat := 1

/-- A mount with `NULLM_CACHE` leaves the list of the mount below it. -/
def leaveUppers (mp : MountId) (mntdata : TptMount) (vgoneUpper : List Bool) : Path Vfs Unit := do
  let ump := mntdata.nullmVfs
  if mntdata.nullmFlags &&& nullmCache ≠ 0 then
    awaitUppers vgoneUpper
    modify fun vfs =>
      { vfs with
        mntUppers := Function.update vfs.mntUppers ump ((vfs.mntUppers ump).erase mp) }
  else
    pure ()

/-- `tptfs_unmount`. -/
def tptfsUnmount (mp : MountId) (force : Bool) (answers : UnmountAnswers) : Path Vfs Int := do
  let error ← flushLoop force answers.rounds
  if error ≠ 0 then
    pure error
  else
    match (← get).mntData mp with
    | none => Path.halt .pageFault
    | some mntdata =>
        leaveUppers mp mntdata answers.vgoneUpper
        vrele mntdata.nullmLowerrootvp
        modify fun vfs => vfs.setMntData mp none
        freeTptMount
        pure 0

/-- A mount or an unmount, with the answers it gets. -/
inductive Call where
  | mount (mp : MountId) (answers : MountAnswers)
  | unmount (mp : MountId) (force : Bool) (answers : UnmountAnswers)
  deriving DecidableEq, Repr

/-- The mount a call is about. -/
def Call.mp : Call → MountId
  | .mount mp _ => mp
  | .unmount mp _ _ => mp

/-- Run one call. The calls of another file system's mounts go elsewhere and hold
nothing of this one. -/
def step (call : Call) : Path Vfs Int := do
  match (← get).mntOp call.mp with
  | .other => pure 0
  | .tptfs =>
      match call with
      | .mount mp answers => tptfsMount mp answers
      | .unmount mp force answers => tptfsUnmount mp force answers

/-- The states of a run, the first one included. -/
def states : List Call → Vfs → Except Halt (List Vfs)
  | [], vfs => .ok [vfs]
  | call :: rest, vfs => do
      let (_, next) ← (step call).run vfs
      let later ← states rest next
      pure (vfs :: later)

end Tptfs
