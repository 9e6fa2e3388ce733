import Mathlib.Data.List.Nodup
import LearningKernels.Tptfs.Lifetime

/-!
# What a release leaves

The node of each vnode is one, no node is over a newer one, each reference is somebody's, and a
node that nobody uses is on a caching mount and not marked, unless the kernel still owes it
inactive processing. These hold behind a release when they hold before it, with the reference
to be released to spare (`Tptfs.Lifetimes.Layer.Sane.vrele`), and behind the end of an alias
(`Tptfs.Lifetimes.Layer.Sane.tptReclaim`).
-/

namespace Tptfs

namespace Lifetimes

/-- Taking out the element with a key takes its contribution from a count. -/
theorem countP_filter_key {α β : Type} [DecidableEq β] {key : α → β} {list : List α} {x : α}
    (distinct : (list.map key).Nodup) (member : x ∈ list) (p : α → Bool) :
    list.countP p =
      (list.filter fun y => key y ≠ key x).countP p + if p x then 1 else 0 := by
  induction list with
  | nil => exact absurd member List.not_mem_nil
  | cons y list ih =>
      rw [List.map_cons, List.nodup_cons] at distinct
      rw [List.countP_cons]
      by_cases here : key y = key x
      · -- no other element has the key
        have others : ∀ z ∈ list, key z ≠ key x := by
          intro z among same
          exact distinct.1 (List.mem_map.mpr ⟨z, among, same.trans here.symm⟩)
        obtain rfl | among := List.mem_cons.mp member
        · rw [List.filter_cons_of_neg (by simp), List.filter_eq_self.mpr (by simpa using others)]
        · exact absurd rfl (others x among)
      · have among : x ∈ list :=
          (List.mem_cons.mp member).resolve_left fun same => here (by rw [same])
        rw [List.filter_cons_of_pos (by simpa using here), List.countP_cons,
          ih distinct.2 among]
        omega

namespace Layer

/-- The nodes in the hash, without their flags. -/
def nodes (layer : Layer) : List TptNode := layer.hash.map LiveNode.node

/-- One more on a vnode. -/
def plus (vp : VnodeId) (surplus : VnodeId → Nat) : VnodeId → Nat :=
  Function.update surplus vp (surplus vp + 1)

/-- The nodes over a vnode. -/
def aliases (layer : Layer) (vp : VnodeId) : Nat :=
  layer.hash.countP fun live => live.node.tptLowervp = vp

/-- The references of `tpt_remove` on a vnode. -/
def removing (layer : Layer) (vp : VnodeId) : Nat :=
  layer.removes.countP fun taken => taken = some vp

/-- A node that nobody uses, and for which nothing is owed, is kept for later: its mount caches
and it is not marked. -/
def Kept (nullmCache : MountId → Bool) (layer : Layer) (live : LiveNode) : Prop :=
  layer.useCount live.node.tptVnode = 0 → live.viOweinact = false →
    nullmCache live.node.vMount = true ∧ live.nullvDrop = false

/-- The nodes have vnodes of their own, and a node is over older ones only. The newest node comes
first. -/
structure Shaped (nodes : List TptNode) : Prop where
  distinct : (nodes.map TptNode.tptVnode).Nodup
  ordered : nodes.Pairwise fun newer older => older.tptLowervp ≠ newer.tptVnode
  apart : ∀ node ∈ nodes, node.tptLowervp ≠ node.tptVnode

/-- What every operation keeps, but for the flags of one vnode, with references to spare that
the operation is about to give up or hand over. -/
structure SaneBut (nullmCache : MountId → Bool) (vp : VnodeId) (surplus : VnodeId → Nat)
    (layer : Layer) : Prop where
  shaped : Shaped layer.nodes
  others : ∀ live ∈ layer.hash, live.node.tptVnode ≠ vp → Kept nullmCache layer live
  accounted : ∀ vp, layer.useCount vp =
    layer.outside vp + layer.aliases vp + layer.removing vp + surplus vp
  calm : ∀ assertion ∈ layer.failed, assertion = .notReclaimed ∨ assertion = .reclaimed

/-- **What every operation keeps.** -/
structure Sane (nullmCache : MountId → Bool) (surplus : VnodeId → Nat) (layer : Layer) :
    Prop where
  shaped : Shaped layer.nodes
  kept : ∀ live ∈ layer.hash, Kept nullmCache layer live
  accounted : ∀ vp, layer.useCount vp =
    layer.outside vp + layer.aliases vp + layer.removing vp + surplus vp
  calm : ∀ assertion ∈ layer.failed, assertion = .notReclaimed ∨ assertion = .reclaimed

variable {nullmCache : MountId → Bool} {layer next : Layer} {surplus : VnodeId → Nat}
  {vp : VnodeId} {live : LiveNode} {nodes : List TptNode} {flags : LiveNode → LiveNode}

section Nodes

theorem aliases_eq (layer : Layer) (vp : VnodeId) :
    layer.aliases vp = layer.nodes.countP fun node => node.tptLowervp = vp := by
  rw [aliases, Layer.nodes, List.countP_map]
  rfl

theorem node_mem (member : live ∈ layer.hash) : live.node ∈ layer.nodes :=
  List.mem_map_of_mem member

theorem nodes_setFlags (same : ∀ live, (flags live).node = live.node) :
    (layer.setFlags vp flags).nodes = layer.nodes := by
  rw [Layer.nodes, setFlags, List.map_map]
  refine List.map_congr_left fun live _ => ?_
  simp only [Function.comp_apply]
  split
  · exact same live
  · rfl

theorem aliases_setFlags (same : ∀ live, (flags live).node = live.node) (query : VnodeId) :
    (layer.setFlags vp flags).aliases query = layer.aliases query := by
  rw [aliases_eq, aliases_eq, nodes_setFlags same]

theorem nodes_markOweinact (layer : Layer) (vp : VnodeId) (value : Bool) :
    (layer.markOweinact vp value).nodes = layer.nodes := nodes_setFlags fun _ => rfl

theorem nodes_vrele (layer : Layer) (vp : VnodeId) : (layer.vrele vp).nodes = layer.nodes := by
  rw [vrele]
  split
  · exact nodes_markOweinact _ vp true
  · rfl

theorem useCount_vrele_of_ne {other : VnodeId} (apart : other ≠ vp) :
    (layer.vrele vp).useCount other = layer.useCount other := by
  rw [vrele]
  split
  · exact Function.update_of_ne apart _ _
  · exact Function.update_of_ne apart _ _

theorem nodes_tptHashrem (layer : Layer) (vp : VnodeId) :
    (layer.tptHashrem vp).nodes = layer.nodes.filter fun node => node.tptVnode ≠ vp := by
  rw [Layer.nodes, Layer.nodes, List.filter_map]
  rfl

theorem nodes_tptReclaim (layer : Layer) (live : LiveNode) :
    (layer.tptReclaim live).nodes =
      layer.nodes.filter fun node => node.tptVnode ≠ live.node.tptVnode := by
  rw [tptReclaim, nodes_vrele, nodes_tptHashrem]

theorem tptHashrem_setFlags (same : ∀ live, (flags live).node = live.node) :
    (layer.setFlags vp flags).tptHashrem vp = layer.tptHashrem vp := by
  have kept (hash : List LiveNode) :
      (hash.map fun live => if live.node.tptVnode = vp then flags live else live).filter
        (fun live => live.node.tptVnode ≠ vp) =
      hash.filter fun live => live.node.tptVnode ≠ vp := by
    induction hash with
    | nil => rfl
    | cons first rest ih =>
        rw [List.map_cons, List.filter_cons, List.filter_cons, ih]
        by_cases here : first.node.tptVnode = vp
        · simp [here, same]
        · simp [here]
  exact congrArg (fun hash => { layer with hash }) (kept layer.hash)

theorem vtonull_setFlags (same : ∀ live, (flags live).node = live.node) :
    (layer.setFlags vp flags).vtonull vp = (layer.vtonull vp).map flags := by
  have alike : (fun live : LiveNode => decide (live.node.tptVnode = vp)) ∘
      (fun live => if live.node.tptVnode = vp then flags live else live) =
      fun live => decide (live.node.tptVnode = vp) := by
    funext live
    simp only [Function.comp_apply]
    split
    · rw [same]
    · rfl
  rw [vtonull, vtonull, setFlags, List.find?_map, alike]
  cases found : layer.hash.find? fun live => live.node.tptVnode = vp with
  | none => rfl
  | some live =>
      have here : live.node.tptVnode = vp := by simpa using List.find?_some found
      exact congrArg some (if_pos here)

theorem vtonull_eq_some (found : layer.vtonull vp = some live) :
    live ∈ layer.hash ∧ live.node.tptVnode = vp :=
  ⟨List.mem_of_find?_eq_some found, by simpa using List.find?_some found⟩

/-- Flags do not matter to the end of an alias. -/
theorem vgone_setFlags (same : ∀ live, (flags live).node = live.node)
    (found : layer.vtonull vp = some live) :
    (layer.setFlags vp flags).vgone vp = layer.tptReclaim live := by
  obtain ⟨-, here⟩ := vtonull_eq_some found
  rw [vgone, vtonull_setFlags same, found, Option.map_some]
  simp only [tptReclaim, same, here, tptHashrem_setFlags same]

theorem vtonull_eq_none_iff :
    layer.vtonull vp = none ↔ ∀ live ∈ layer.hash, live.node.tptVnode ≠ vp := by
  rw [vtonull, List.find?_eq_none]
  simp only [decide_eq_true_eq, ne_eq]

/-- A vnode is live when a node in the hash is its own. -/
theorem isSome_vtonull_iff :
    (layer.vtonull vp).isSome = true ↔ vp ∈ layer.nodes.map TptNode.tptVnode := by
  rw [← not_iff_not, Bool.not_eq_true, Option.isSome_eq_false_iff, Option.isNone_iff_eq_none,
    vtonull_eq_none_iff]
  simp only [Layer.nodes, List.map_map, List.mem_map, Function.comp_apply, not_exists, not_and,
    ne_eq]

theorem search_eq_some {mp : MountId} {lowervp : VnodeId}
    (found : layer.search mp lowervp = some live) :
    live ∈ layer.hash ∧ live.node.tptLowervp = lowervp ∧ live.node.vMount = mp :=
  ⟨List.mem_of_find?_eq_some found, by simpa using List.find?_some found⟩

end Nodes

theorem Shaped.filter (shaped : Shaped nodes) (p : TptNode → Bool) : Shaped (nodes.filter p) :=
  ⟨shaped.distinct.sublist (List.filter_sublist.map _), shaped.ordered.filter p,
    fun node member => shaped.apart node (List.mem_filter.mp member).1⟩

/-- A new node, of a vnode that no node knows. -/
theorem Shaped.cons {xp : TptNode} (shaped : Shaped nodes)
    (fresh : xp.tptVnode ∉ nodes.map TptNode.tptVnode)
    (unused : ∀ node ∈ nodes, node.tptLowervp ≠ xp.tptVnode)
    (apart : xp.tptLowervp ≠ xp.tptVnode) : Shaped (xp :: nodes) :=
  ⟨List.nodup_cons.mpr ⟨fresh, shaped.distinct⟩, List.pairwise_cons.mpr ⟨unused, shaped.ordered⟩,
    List.forall_mem_cons.mpr ⟨apart, shaped.apart⟩⟩

theorem Sane.but (sane : Sane nullmCache surplus layer) (vp : VnodeId) :
    SaneBut nullmCache vp surplus layer :=
  ⟨sane.shaped, fun live member _ => sane.kept live member, sane.accounted, sane.calm⟩

theorem SaneBut.sane (but : SaneBut nullmCache vp surplus layer)
    (kept : ∀ live ∈ layer.hash, live.node.tptVnode = vp → Kept nullmCache layer live) :
    Sane nullmCache surplus layer := by
  refine ⟨but.shaped, ?_, but.accounted, but.calm⟩
  intro live member
  by_cases here : live.node.tptVnode = vp
  · exact kept live member here
  · exact but.others live member here

/-- There is one node of a vnode. -/
theorem Sane.vtonull_of_mem (sane : Sane nullmCache surplus layer) (member : live ∈ layer.hash) :
    layer.vtonull live.node.tptVnode = some live := by
  have distinct := sane.shaped.distinct
  rw [Layer.nodes, List.map_map] at distinct
  cases found : layer.vtonull live.node.tptVnode with
  | none => exact absurd rfl (vtonull_eq_none_iff.mp found live member)
  | some other =>
      obtain ⟨among, same⟩ := vtonull_eq_some found
      exact congrArg some (List.inj_on_of_nodup_map distinct among member same)

/-- The lower vnode of a node is in use. -/
theorem Sane.lower_used (sane : Sane nullmCache surplus layer) (member : live ∈ layer.hash) :
    1 ≤ layer.useCount live.node.tptLowervp := by
  have counted : 0 < layer.aliases live.node.tptLowervp :=
    List.countP_pos_iff.mpr ⟨live, member, by simp⟩
  rw [sane.accounted]
  omega

theorem assert_of_true {assertion : Assertion} {condition : Bool} (holds : condition = true) :
    layer.assert assertion condition = layer := by
  rw [assert, if_pos holds]

theorem Sane.tptCheckvp (sane : Sane nullmCache surplus layer) (member : live ∈ layer.hash) :
    layer.tptCheckvp live = layer :=
  assert_of_true (decide_eq_true (sane.lower_used member))

theorem plus_self (vp : VnodeId) (surplus : VnodeId → Nat) :
    plus vp surplus vp = surplus vp + 1 := Function.update_self _ _ _

theorem plus_of_ne {other : VnodeId} (apart : other ≠ vp) :
    plus vp surplus other = surplus other := Function.update_of_ne apart _ _

/-- New flags for the node of a vnode. -/
theorem SaneBut.setFlags (but : SaneBut nullmCache vp surplus layer)
    (same : ∀ live, (flags live).node = live.node)
    (kept : ∀ live ∈ layer.hash, live.node.tptVnode = vp → Kept nullmCache layer (flags live)) :
    Sane nullmCache surplus (layer.setFlags vp flags) := by
  obtain ⟨shaped, others, accounted, calm⟩ := but
  refine ⟨?_, ?_, ?_, calm⟩
  · rw [nodes_setFlags same]
    exact shaped
  · intro marked member
    obtain ⟨live, among, rfl⟩ := List.mem_map.mp member
    split
    · next here => exact kept live among here
    · next other => exact others live among other
  · intro query
    rw [aliases_setFlags same]
    exact accounted query

/-- The count of a release uses up the spare reference. -/
theorem Sane.lowered (sane : Sane nullmCache (plus vp surplus) layer) :
    SaneBut nullmCache vp surplus
      { layer with useCount := Function.update layer.useCount vp (layer.useCount vp - 1) } := by
  obtain ⟨shaped, kept, accounted, calm⟩ := sane
  refine ⟨shaped, ?_, ?_, calm⟩
  · intro live member apart unused
    have same : layer.useCount live.node.tptVnode = 0 :=
      (Function.update_of_ne apart _ _).symm.trans unused
    exact kept live member same
  · intro other
    have before := accounted other
    change Function.update layer.useCount vp (layer.useCount vp - 1) other =
      layer.outside other + layer.aliases other + layer.removing other + surplus other
    by_cases here : other = vp
    · subst here
      rw [plus_self] at before
      rw [Function.update_self]
      omega
    · rw [plus_of_ne here] at before
      rw [Function.update_of_ne here, before]

/-- **A release.** Behind the last one the kernel owes the node. -/
theorem Sane.vrele (sane : Sane nullmCache (plus vp surplus) layer) :
    Sane nullmCache surplus (layer.vrele vp) := by
  have but := sane.lowered
  rw [Layer.vrele]
  split
  · refine but.setFlags (fun _ => rfl) ?_
    intro live member here unused paid
    cases paid
  · next used =>
      refine but.sane ?_
      intro live member here unused
      rw [here] at unused
      exact absurd unused used

/-- A node that goes leaves its reference on the lower vnode to spare. -/
theorem Sane.tptHashrem (sane : Sane nullmCache surplus layer) (member : live ∈ layer.hash) :
    Sane nullmCache (plus live.node.tptLowervp surplus)
      (layer.tptHashrem live.node.tptVnode) := by
  obtain ⟨shaped, kept, accounted, calm⟩ := sane
  refine ⟨?_, ?_, ?_, calm⟩
  · rw [nodes_tptHashrem]
    exact shaped.filter _
  · intro other among
    exact kept other (List.mem_filter.mp among).1
  · intro vp
    have taken := countP_filter_key shaped.distinct (node_mem member)
      fun node => node.tptLowervp = vp
    have before := accounted vp
    rw [aliases_eq, taken] at before
    rw [aliases_eq, nodes_tptHashrem]
    change layer.useCount vp = layer.outside vp + _ + layer.removing vp + _
    by_cases same : live.node.tptLowervp = vp
    · subst same
      rw [plus_self, before]
      simp only [decide_true, ↓reduceIte]
      omega
    · rw [plus_of_ne (Ne.symm same), before]
      simp only [same, decide_false, Bool.false_eq_true, ↓reduceIte]
      omega

/-- **The end of an alias.** -/
theorem Sane.tptReclaim (sane : Sane nullmCache surplus layer) (member : live ∈ layer.hash) :
    Sane nullmCache surplus (layer.tptReclaim live) :=
  (sane.tptHashrem member).vrele

theorem Sane.vgone (sane : Sane nullmCache surplus layer) (vp : VnodeId) :
    Sane nullmCache surplus (layer.vgone vp) := by
  rw [Layer.vgone]
  split
  · exact sane
  · next live found => exact sane.tptReclaim (vtonull_eq_some found).1

/-- What the kernel does for a node that it owes. -/
theorem Sane.vinactive_eq (sane : Sane nullmCache surplus layer) (member : live ∈ layer.hash) :
    layer.vinactive nullmCache live =
      if layer.tptWantRecycle nullmCache live then layer.tptReclaim live
      else layer.markOweinact live.node.tptVnode false := by
  have checked : (layer.markOweinact live.node.tptVnode false).tptCheckvp live =
      layer.markOweinact live.node.tptVnode false :=
    assert_of_true (decide_eq_true (sane.lower_used member))
  have gone : (layer.markOweinact live.node.tptVnode false).tptReclaim live =
      layer.tptReclaim live :=
    congrArg (Layer.vrele live.node.tptLowervp) (tptHashrem_setFlags fun _ => rfl)
  have wanted : (layer.markOweinact live.node.tptVnode false).tptWantRecycle nullmCache live =
      layer.tptWantRecycle nullmCache live := rfl
  simp only [vinactive, sane.tptCheckvp member, tptNeedInactive, tptInactive, checked, wanted, gone]
  split
  · rfl
  · rfl

/-- **Inactive processing**: a node that stays is to be kept. -/
theorem Sane.vinactive (sane : Sane nullmCache surplus layer) (member : live ∈ layer.hash) :
    Sane nullmCache surplus (layer.vinactive nullmCache live) := by
  rw [sane.vinactive_eq member]
  split
  · exact sane.tptReclaim member
  · next keep =>
      refine (sane.but _).setFlags (fun _ => rfl) ?_
      intro other among there _ _
      have same : layer.vtonull live.node.tptVnode = some other :=
        there ▸ sane.vtonull_of_mem among
      obtain rfl := Option.some.inj ((sane.vtonull_of_mem member).symm.trans same)
      rw [tptWantRecycle, Bool.or_eq_true, Bool.or_eq_true, not_or, not_or] at keep
      simpa using keep.1

/-- What a release and its consequences do not touch. -/
structure Keeps (before after : Layer) : Prop where
  hash : ∀ live ∈ after.hash, ∃ old ∈ before.hash,
    old.node = live.node ∧ old.nullvNounlock = live.nullvNounlock
  unlinks : after.unlinks = before.unlinks
  failed : after.failed = before.failed

theorem Keeps.refl (layer : Layer) : Keeps layer layer :=
  ⟨fun live member => ⟨live, member, rfl, rfl⟩, rfl, rfl⟩

theorem Keeps.trans {first second third : Layer} (earlier : Keeps first second)
    (later : Keeps second third) : Keeps first third := by
  refine ⟨?_, later.unlinks.trans earlier.unlinks, later.failed.trans earlier.failed⟩
  intro live member
  obtain ⟨middle, among, node, flag⟩ := later.hash live member
  obtain ⟨old, before, same, clear⟩ := earlier.hash middle among
  exact ⟨old, before, same.trans node, clear.trans flag⟩

theorem keeps_setFlags (layer : Layer) (vp : VnodeId)
    (same : ∀ live, (flags live).node = live.node ∧ (flags live).nullvNounlock =
      live.nullvNounlock) : Keeps layer (layer.setFlags vp flags) := by
  refine ⟨?_, rfl, rfl⟩
  intro marked member
  obtain ⟨live, among, rfl⟩ := List.mem_map.mp member
  refine ⟨live, among, ?_⟩
  split
  · exact ⟨(same live).1.symm, (same live).2.symm⟩
  · exact ⟨rfl, rfl⟩

theorem keeps_vrele (layer : Layer) (vp : VnodeId) : Keeps layer (layer.vrele vp) := by
  have lowered : Keeps layer
      { layer with useCount := Function.update layer.useCount vp (layer.useCount vp - 1) } :=
    ⟨fun live member => ⟨live, member, rfl, rfl⟩, rfl, rfl⟩
  rw [vrele]
  split
  · exact lowered.trans (keeps_setFlags _ vp fun _ => ⟨rfl, rfl⟩)
  · exact lowered

theorem keeps_tptHashrem (layer : Layer) (vp : VnodeId) : Keeps layer (layer.tptHashrem vp) :=
  ⟨fun live member => ⟨live, (List.mem_filter.mp member).1, rfl, rfl⟩, rfl, rfl⟩

theorem keeps_tptReclaim (layer : Layer) (live : LiveNode) :
    Keeps layer (layer.tptReclaim live) :=
  (keeps_tptHashrem layer _).trans (keeps_vrele _ _)

theorem keeps_vgone (layer : Layer) (vp : VnodeId) : Keeps layer (layer.vgone vp) := by
  rw [vgone]
  split
  · exact Keeps.refl layer
  · exact keeps_tptReclaim layer _

theorem Sane.keeps_vinactive (sane : Sane nullmCache surplus layer) (member : live ∈ layer.hash) :
    Keeps layer (layer.vinactive nullmCache live) := by
  rw [sane.vinactive_eq member]
  split
  · exact keeps_tptReclaim layer live
  · exact keeps_setFlags layer _ fun _ => ⟨rfl, rfl⟩

end Layer

end Lifetimes

end Tptfs
