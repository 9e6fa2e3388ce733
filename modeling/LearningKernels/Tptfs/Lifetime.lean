import LearningKernels.Tptfs.Alias

/-!
# The life of an alias

When an alias goes: `tpt_need_inactive` and `tpt_inactive` with `tpt_want_recycle`,
`tpt_reclaim`, the flags `NULLV_DROP` and `NULLV_NOUNLOCK`, and the operations that set them
(`tpt_remove`, `tpt_rename`, `tpt_rmdir`, `tptfs_reclaim_lowervp`, `tptfs_unlink_lowervp`). Behind
the last release of an alias the kernel owes it the call of `VOP_INACTIVE`; when it makes the
call is not said here, but for a lock on the alias that keeps it waiting. The end of an alias
releases its lower vnode, which may be an alias itself. Each operation is one step. Two are cut
in the middle: anything may happen in `tpt_remove` while the lower file system removes, and in
`tptfs_unlink_lowervp` between the release and the test of the use count. The assertions of the
code, and of its `DIAGNOSTIC` build, are part of the steps.
-/

namespace Tptfs

namespace Lifetimes

/-- A `struct tpt_node` with its two flags, and `VI_OWEINACT` of its vnode. -/
structure LiveNode where
  node : TptNode
  nullvDrop : Bool
  nullvNounlock : Bool
  viOweinact : Bool
  deriving DecidableEq, Repr

/-- The assertions: of `tpt_checkvp`, of `tpt_nodeget` about the spare reference, and the two of
`tptfs_unlink_lowervp`. -/
inductive Assertion where
  | checkvp
  | spare
  | notReclaimed
  | reclaimed
  deriving DecidableEq, Repr

/-- The use counts of all vnodes, the live nodes, the lower vnodes with `VV_NOSYNC`, the
references that `tpt_remove` has taken for the time of the lower operation, the aliases that
`tptfs_unlink_lowervp` holds and has locked, and the assertions that have failed. `outside`
counts the references of everyone else. -/
structure Layer where
  useCount : VnodeId → Nat
  outside : VnodeId → Nat
  hash : List LiveNode
  vvNosync : VnodeId → Bool
  removes : List (Option VnodeId)
  unlinks : List VnodeId
  failed : List Assertion

namespace Layer

/-- `VTONULL`: the node of a vnode that is not doomed. -/
def vtonull (layer : Layer) (vp : VnodeId) : Option LiveNode :=
  layer.hash.find? fun live => live.node.tptVnode = vp

/-- The search of `tpt_hashget`. -/
def search (layer : Layer) (mp : MountId) (lowervp : VnodeId) : Option LiveNode :=
  layer.hash.find? fun live => live.node.tptLowervp = lowervp ∧ live.node.vMount = mp

/-- An assertion of the code. -/
def assert (assertion : Assertion) (condition : Bool) (layer : Layer) : Layer :=
  { layer with failed := if condition then layer.failed else assertion :: layer.failed }

/-- `tpt_checkvp`, behind `NULLVPTOLOWERVP`. -/
def tptCheckvp (live : LiveNode) (layer : Layer) : Layer :=
  layer.assert .checkvp (1 ≤ layer.useCount live.node.tptLowervp)

/-- A reference of everyone else comes or goes. -/
def setOutside (vp : VnodeId) (count : Nat) (layer : Layer) : Layer :=
  { layer with outside := Function.update layer.outside vp count }

/-- Change the flags of the node of a vnode. -/
def setFlags (vp : VnodeId) (flags : LiveNode → LiveNode) (layer : Layer) : Layer :=
  { layer with
    hash := layer.hash.map fun live => if live.node.tptVnode = vp then flags live else live }

/-- `NULLV_DROP` is set. -/
def markDrop (vp : VnodeId) : Layer → Layer :=
  setFlags vp fun live => { live with nullvDrop := true }

/-- `NULLV_NOUNLOCK` is set, or cleared. -/
def markNounlock (vp : VnodeId) (value : Bool) : Layer → Layer :=
  setFlags vp fun live => { live with nullvNounlock := value }

/-- `VI_OWEINACT` is set, or cleared. -/
def markOweinact (vp : VnodeId) (value : Bool) : Layer → Layer :=
  setFlags vp fun live => { live with viOweinact := value }

/-- `vref`. -/
def vref (vp : VnodeId) (layer : Layer) : Layer :=
  { layer with useCount := Function.update layer.useCount vp (layer.useCount vp + 1) }

/-- `vrele`, `vput` and `vunref`. -/
def vrele (vp : VnodeId) (layer : Layer) : Layer :=
  let layer := { layer with useCount := Function.update layer.useCount vp (layer.useCount vp - 1) }
  if layer.useCount vp = 0 then layer.markOweinact vp true else layer

/-- `tpt_hashrem`. -/
def tptHashrem (vp : VnodeId) (layer : Layer) : Layer :=
  { layer with hash := layer.hash.filter fun live => live.node.tptVnode ≠ vp }

/-- `tpt_reclaim`. -/
def tptReclaim (live : LiveNode) (layer : Layer) : Layer :=
  (layer.tptHashrem live.node.tptVnode).vrele live.node.tptLowervp

/-- `vgone`. -/
def vgone (vp : VnodeId) (layer : Layer) : Layer :=
  match layer.vtonull vp with
  | none => layer
  | some live => layer.tptReclaim live

section Mounts

variable (nullmCache : MountId → Bool)

/-- `tpt_want_recycle`. -/
def tptWantRecycle (live : LiveNode) (layer : Layer) : Bool :=
  !nullmCache live.node.vMount || live.nullvDrop || layer.vvNosync live.node.tptLowervp

/-- `tpt_need_inactive`. -/
def tptNeedInactive (live : LiveNode) (layer : Layer) : Bool :=
  layer.tptWantRecycle nullmCache live

/-- `tpt_inactive`, with `vrecycle` of a vnode that nobody uses. -/
def tptInactive (live : LiveNode) (layer : Layer) : Layer :=
  let layer := layer.tptCheckvp live
  if layer.tptWantRecycle nullmCache live then layer.tptReclaim live else layer

/-- The kernel makes good what it owes a vnode that nobody uses. -/
def vinactive (live : LiveNode) (layer : Layer) : Layer :=
  let layer := layer.tptCheckvp live
  let layer := layer.markOweinact live.node.tptVnode false
  if layer.tptNeedInactive nullmCache live then layer.tptInactive nullmCache live else layer

/-- `tpt_nodeget`, of a caller that has a spare reference on the lower vnode. `answer` is the
new vnode, if the kernel has one: nobody uses or holds it. -/
def tptNodeget (mp : MountId) (lowervp : VnodeId) (answer : Option VnodeId) (layer : Layer) :
    Option Layer :=
  let layer := layer.assert .spare (0 < layer.useCount lowervp)
  match layer.search mp lowervp with
  | some live =>
      let vp := live.node.tptVnode
      some (((layer.vref vp).setOutside vp (layer.outside vp + 1)).vrele lowervp)
  | none =>
      match answer with
      | none => some (layer.vrele lowervp)
      | some vp =>
          if layer.useCount vp = 0 ∧ layer.vtonull vp = none ∧ vp ∉ layer.unlinks then
            let layer := (layer.vref vp).setOutside vp (layer.outside vp + 1)
            some { layer with hash := ⟨⟨lowervp, vp, mp⟩, false, false, false⟩ :: layer.hash }
          else none

/-- `tpt_remove` up to the call of the lower operation. -/
def tptRemove (vp : VnodeId) (live : LiveNode) (layer : Layer) : Layer :=
  if 1 < layer.useCount vp then
    let layer := layer.tptCheckvp live
    let layer := layer.vref live.node.tptLowervp
    { layer.markDrop vp with removes := some live.node.tptLowervp :: layer.removes }
  else { layer.markDrop vp with removes := none :: layer.removes }

/-- `tpt_rename` up to the call of the lower operation, with the mounts of `fvp` and `tdvp`.
Across mounts it only gives up the references of its caller, like the bypass does later. -/
def tptRename (fvp tdvp : MountId) (tvp : Option LiveNode) (layer : Layer) : Layer :=
  if fvp ≠ tdvp ∨ tvp.any (fun tvp => fvp ≠ tvp.node.vMount) then layer
  else
    match tvp with
    | none => layer
    | some tvp => layer.markDrop tvp.node.tptVnode

/-- `tptfs_reclaim_lowervp`. -/
def tptfsReclaimLowervp (mp : MountId) (lowervp : VnodeId) (layer : Layer) : Layer :=
  match layer.search mp lowervp with
  | none => layer
  | some live =>
      let vp := live.node.tptVnode
      let layer := (layer.vref vp).markNounlock vp true
      (layer.vgone vp).vrele vp

/-- `tptfs_unlink_lowervp` up to the test of the use count. With `inactive` the kernel does at
once what it owes behind the last release. -/
def tptfsUnlinkLowervp (mp : MountId) (lowervp : VnodeId) (inactive : Bool) (layer : Layer) :
    Layer :=
  match layer.search mp lowervp with
  | none => layer
  | some live =>
      let vp := live.node.tptVnode
      let layer := ((layer.vref vp).markDrop vp).markNounlock vp true
      let layer := { layer with unlinks := vp :: layer.unlinks }
      let layer := layer.vrele vp
      match layer.vtonull vp with
      | none => layer
      | some live =>
          if inactive ∧ layer.useCount vp = 0 then layer.vinactive nullmCache live else layer

/-- `tptfs_unlink_lowervp` from the test of the use count on. -/
def tptfsUnlinked (vp : VnodeId) (layer : Layer) : Layer :=
  let layer := { layer with unlinks := layer.unlinks.erase vp }
  if layer.useCount vp = 0 then layer.assert .notReclaimed (layer.vtonull vp).isNone
  else (layer.assert .reclaimed (layer.vtonull vp).isSome).markNounlock vp false

end Mounts

end Layer

/-- What can happen next. The first two are everyone else's `vref` and `vrele`, with `inactive`
the kernel does what it owes, `vgone` is a forced unmount or the reuse of a vnode, and the lower
file system decides about `VV_NOSYNC`. -/
inductive LayerEvent where
  | acquire (vp : VnodeId)
  | release (vp : VnodeId)
  | inactive (vp : VnodeId)
  | nodeget (mp : MountId) (lowervp : VnodeId) (answer : Option VnodeId)
  | remove (vp : VnodeId)
  | removed (index : Nat)
  | rename (fvp tdvp : MountId) (tvp : Option VnodeId)
  | rmdir (vp : VnodeId)
  | vgone (vp : VnodeId)
  | reclaimLowervp (mp : MountId) (lowervp : VnodeId)
  | unlinkLowervp (mp : MountId) (lowervp : VnodeId) (inactive : Bool)
  | unlinked (vp : VnodeId)
  | nosync (vp : VnodeId) (value : Bool)
  deriving DecidableEq, Repr

namespace Layer

/-- Only outside references, and no aliases. -/
def initial (outside : VnodeId → Nat) : Layer where
  useCount := outside
  outside := outside
  hash := []
  vvNosync _ := false
  removes := []
  unlinks := []
  failed := []

/-- The caller of an operation on an alias has a reference on it. -/
def named (layer : Layer) (vp : VnodeId) : Option LiveNode :=
  if 0 < layer.outside vp then layer.vtonull vp else none

/-- No `tptfs_unlink_lowervp` has the alias of a lower vnode locked. -/
def free (layer : Layer) (mp : MountId) (lowervp : VnodeId) : Bool :=
  (layer.search mp lowervp).all fun live => live.node.tptVnode ∉ layer.unlinks

/-- One event. -/
def step (nullmCache : MountId → Bool) (layer : Layer) : LayerEvent → Option Layer
  | .acquire vp => some ((layer.vref vp).setOutside vp (layer.outside vp + 1))
  | .release vp =>
      if 0 < layer.outside vp then
        some ((layer.setOutside vp (layer.outside vp - 1)).vrele vp)
      else none
  | .inactive vp =>
      match layer.vtonull vp with
      | none => none
      | some live =>
          if layer.useCount vp = 0 ∧ live.viOweinact = true ∧ vp ∉ layer.unlinks then
            some (layer.vinactive nullmCache live)
          else none
  | .nodeget mp lowervp answer =>
      if 0 < layer.outside lowervp then
        (layer.setOutside lowervp (layer.outside lowervp - 1)).tptNodeget mp lowervp answer
      else none
  | .remove vp => (layer.named vp).map fun live => layer.tptRemove vp live
  | .removed index =>
      match layer.removes[index]? with
      | none => none
      | some taken =>
          let layer := { layer with removes := layer.removes.eraseIdx index }
          match taken with
          | none => some layer
          | some lvp => some (layer.vrele lvp)
  | .rename fvp tdvp none => some (layer.tptRename fvp tdvp none)
  | .rename fvp tdvp (some tvp) =>
      (layer.named tvp).map fun live => layer.tptRename fvp tdvp (some live)
  | .rmdir vp => (layer.named vp).map fun _ => layer.markDrop vp
  | .vgone vp => if vp ∉ layer.unlinks then some (layer.vgone vp) else none
  | .reclaimLowervp mp lowervp =>
      if layer.free mp lowervp then some (layer.tptfsReclaimLowervp mp lowervp) else none
  | .unlinkLowervp mp lowervp inactive =>
      if layer.free mp lowervp then
        some (layer.tptfsUnlinkLowervp nullmCache mp lowervp inactive)
      else none
  | .unlinked vp => if vp ∈ layer.unlinks then some (layer.tptfsUnlinked vp) else none
  | .nosync vp value =>
      some { layer with vvNosync := Function.update layer.vvNosync vp value }

/-- A sequence of events. -/
def run (nullmCache : MountId → Bool) : Layer → List LayerEvent → Option Layer
  | layer, [] => some layer
  | layer, event :: events => (layer.step nullmCache event).bind fun next =>
      next.run nullmCache events

end Layer

end Lifetimes

end Tptfs
