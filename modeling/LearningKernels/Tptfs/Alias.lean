import LearningKernels.Tptfs.Mount

/-!
# Aliases of lower vnodes

`tpt_nodeget`, the node hash of `tpt_subr.c` and `tpt_reclaim`, run by any number of
threads at once. The operations on the hash are atomic under `tpt_hash_lock`; between two
of its own steps a thread can be overtaken by any other. The rest of the kernel decides
whether the lower vnode is doomed, whether there is a new vnode and whether the mount
takes it. Vnode locks, flags and objects are not part of the state.
-/

namespace Tptfs

/-- `struct tpt_node`, with the `v_mount` of its vnode. -/
structure TptNode where
  tptLowervp : VnodeId
  tptVnode : VnodeId
  vMount : MountId
  deriving DecidableEq, Repr

/-- The use counts of all vnodes and the nodes in the hash. `outside` counts the references
that neither a node holds on its lower vnode nor a call brought along as its spare one. -/
structure Nodes where
  useCount : VnodeId → Int
  outside : VnodeId → Int
  hash : List TptNode

/-- Add to one entry of a count. -/
def addAt (counts : VnodeId → Int) (vp : VnodeId) (change : Int) : VnodeId → Int :=
  Function.update counts vp (counts vp + change)

namespace Nodes

/-- `vref`, for a reference that is handed out. -/
def vref (nodes : Nodes) (vp : VnodeId) : Nodes :=
  { nodes with
    useCount := addAt nodes.useCount vp 1
    outside := addAt nodes.outside vp 1 }

/-- `vrele` of a reference on a lower vnode. -/
def vrele (nodes : Nodes) (vp : VnodeId) : Nodes :=
  { nodes with useCount := addAt nodes.useCount vp (-1) }

/-- `vput`; the lock it gives up is not part of the state. -/
def vput (nodes : Nodes) (vp : VnodeId) : Nodes := nodes.vrele vp

/-- `vunref`. -/
def vunref (nodes : Nodes) (vp : VnodeId) : Nodes := nodes.vrele vp

/-- The `vput` of `tpt_destroy_proto`: the call gives up its reference on its own vnode. -/
def destroyProto (nodes : Nodes) (vp : VnodeId) : Nodes :=
  { nodes.vput vp with outside := addAt nodes.outside vp (-1) }

section Hash

variable (nhash : VnodeId → Nat) (nodes : Nodes)

/-- The list `NULL_NHASH(lowervp)` heads. A node stands in the list of its lower vnode. -/
def bucket (lowervp : VnodeId) : List TptNode :=
  nodes.hash.filter fun node => nhash node.tptLowervp = nhash lowervp

/-- The search of `tpt_hashget` and `tpt_hashins`. -/
def search (mp : MountId) (lowervp : VnodeId) : Option TptNode :=
  (nodes.bucket nhash lowervp).find? fun node =>
    node.tptLowervp = lowervp ∧ node.vMount = mp

/-- `tpt_hashget`. -/
def tptHashget (mp : MountId) (lowervp : VnodeId) : Option VnodeId × Nodes :=
  match nodes.search nhash mp lowervp with
  | some node => (some node.tptVnode, nodes.vref node.tptVnode)
  | none => (none, nodes)

/-- `tpt_hashins`. -/
def tptHashins (mp : MountId) (xp : TptNode) : Option VnodeId × Nodes :=
  match nodes.search nhash mp xp.tptLowervp with
  | some node => (some node.tptVnode, nodes.vref node.tptVnode)
  | none => (none, { nodes with hash := xp :: nodes.hash })

end Hash

end Nodes

/-- `ENOENT`. -/
def enoent : Nat := 2

/-- Where a call of `tpt_nodeget` stands: in front of the step named. The last two come
after its reference on the lower vnode is gone. -/
inductive Stage where
  | hashget
  | found (vp : VnodeId)
  | upgrade
  | doomed
  | getnewvnode
  | noVnode (error : Nat)
  | insmntque (vp : VnodeId)
  | destructor (vp : VnodeId) (error : Nat)
  | hashins (vp : VnodeId)
  | lost (vp ovp : VnodeId)
  | destroyProto (vp : VnodeId) (result : Except Nat VnodeId)
  | returned (result : Except Nat VnodeId)

/-- A call of `tpt_nodeget`, with the number of references on its lower vnode it has
consumed: released, or left to a node in the hash. -/
structure Nodeget where
  mp : MountId
  lowervp : VnodeId
  stage : Stage
  consumed : Nat

/-- What the rest of the kernel answers. -/
structure Answers where
  exclusive : Bool
  doomed : Bool
  getnewvnode : Except Nat VnodeId
  insmntque1 : Nat

/-- One step of `tpt_nodeget`. A new vnode is one that nobody uses. -/
def Nodeget.step (nhash : VnodeId → Nat) (answers : Answers) (nodes : Nodes) (call : Nodeget) :
    Option (Nodes × Nodeget) :=
  match call.stage with
  | .hashget =>
      match nodes.tptHashget nhash call.mp call.lowervp with
      | (some vp, nodes) => some (nodes, { call with stage := .found vp })
      | (none, nodes) => some (nodes, { call with stage := .upgrade })
  | .found vp =>
      some (nodes.vrele call.lowervp,
        { call with stage := .returned (.ok vp), consumed := call.consumed + 1 })
  | .upgrade =>
      if answers.exclusive = false ∧ answers.doomed then
        some (nodes, { call with stage := .doomed })
      else
        some (nodes, { call with stage := .getnewvnode })
  | .doomed =>
      some (nodes.vput call.lowervp,
        { call with stage := .returned (.error enoent), consumed := call.consumed + 1 })
  | .getnewvnode =>
      match answers.getnewvnode with
      | .error error => some (nodes, { call with stage := .noVnode error })
      | .ok vp =>
          if nodes.useCount vp = 0 then
            some (nodes.vref vp, { call with stage := .insmntque vp })
          else
            none
  | .noVnode error =>
      some (nodes.vput call.lowervp,
        { call with stage := .returned (.error error), consumed := call.consumed + 1 })
  | .insmntque vp =>
      if answers.insmntque1 ≠ 0 then
        some (nodes, { call with stage := .destructor vp answers.insmntque1 })
      else
        some (nodes, { call with stage := .hashins vp })
  | .destructor vp error =>
      some (nodes.vput call.lowervp,
        { call with stage := .destroyProto vp (.error error), consumed := call.consumed + 1 })
  | .hashins vp =>
      match nodes.tptHashins nhash call.mp ⟨call.lowervp, vp, call.mp⟩ with
      | (some ovp, nodes) => some (nodes, { call with stage := .lost vp ovp })
      | (none, nodes) =>
          some (nodes, { call with stage := .returned (.ok vp), consumed := call.consumed + 1 })
  | .lost vp ovp =>
      some (nodes.vrele call.lowervp,
        { call with stage := .destroyProto vp (.ok ovp), consumed := call.consumed + 1 })
  | .destroyProto vp result =>
      some (nodes.destroyProto vp, { call with stage := .returned result })
  | .returned _ => none

/-- `NULLV_NOUNLOCK`. -/
def nullvNounlock : Nat := 0x0001

/-- All threads: the calls of `tpt_nodeget`, and the nodes that a `tpt_reclaim` has taken
out of the hash and whose lower reference it still holds. -/
structure Threads where
  nodes : Nodes
  calls : List Nodeget
  reclaims : List TptNode

/-- What can happen next. The flags of a node are left to the rest of the kernel. -/
inductive Event where
  | acquire (vp : VnodeId)
  | release (vp : VnodeId)
  | nodeget (mp : MountId) (lowervp : VnodeId)
  | run (index : Nat) (answers : Answers)
  | hashrem (index : Nat)
  | dropLower (index : Nat) (tptFlags : Nat)

namespace Threads

/-- Only outside references, and nothing in the hash. -/
def initial (outside : VnodeId → Nat) : Threads :=
  ⟨⟨fun vp => outside vp, fun vp => outside vp, []⟩, [], []⟩

/-- One event. A call of `tpt_nodeget` takes its spare reference from the outside ones. -/
def step (nhash : VnodeId → Nat) (threads : Threads) : Event → Option Threads
  | .acquire vp => some { threads with nodes := threads.nodes.vref vp }
  | .release vp =>
      if 0 < threads.nodes.outside vp then
        some { threads with
          nodes := { threads.nodes.vrele vp with outside := addAt threads.nodes.outside vp (-1) } }
      else
        none
  | .nodeget mp lowervp =>
      if 0 < threads.nodes.outside lowervp then
        some { threads with
          nodes := { threads.nodes with outside := addAt threads.nodes.outside lowervp (-1) }
          calls := ⟨mp, lowervp, .hashget, 0⟩ :: threads.calls }
      else
        none
  | .run index answers => do
      let call ← threads.calls[index]?
      let (nodes, call) ← call.step nhash answers threads.nodes
      return { threads with
        nodes := nodes
        calls := threads.calls.set index call }
  | .hashrem index => do
      let node ← threads.nodes.hash[index]?
      return { threads with
        nodes := { threads.nodes with hash := threads.nodes.hash.eraseIdx index }
        reclaims := node :: threads.reclaims }
  | .dropLower index tptFlags => do
      let node ← threads.reclaims[index]?
      let nodes :=
        if tptFlags &&& nullvNounlock ≠ 0 then threads.nodes.vunref node.tptLowervp
        else threads.nodes.vput node.tptLowervp
      return { threads with
        nodes := nodes
        reclaims := threads.reclaims.eraseIdx index }

/-- A sequence of events. -/
def run (nhash : VnodeId → Nat) : Threads → List Event → Option Threads
  | threads, [] => some threads
  | threads, event :: rest => do
      let next ← threads.step nhash event
      next.run nhash rest

/-- The calls that still have their spare reference on a vnode. -/
def pending (threads : Threads) (vp : VnodeId) : Nat :=
  threads.calls.countP fun call => call.lowervp = vp ∧ call.consumed = 0

/-- The nodes in the hash over a vnode. -/
def hashed (threads : Threads) (vp : VnodeId) : Nat :=
  threads.nodes.hash.countP fun node => node.tptLowervp = vp

/-- The nodes under reclamation that still hold their reference on a vnode. -/
def reclaiming (threads : Threads) (vp : VnodeId) : Nat :=
  threads.reclaims.countP fun node => node.tptLowervp = vp

end Threads

end Tptfs
