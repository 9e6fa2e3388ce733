import Mathlib.Data.List.Count
import LearningKernels.Tptfs.LifetimeUnlink

/-!
# What is left when the kernel has done what it owes

The kernel may put off the inactive processing of its vnodes and do it in any order. Each alias
that goes releases its lower vnode, to which the kernel then owes the same. This comes to an end,
and the aliases that are left do not depend on the order: they are those that someone needs,
directly or through the aliases over them (`Tptfs.Lifetimes.Layer.drained_iff`).
-/

namespace Tptfs

namespace Lifetimes

namespace Layer

variable {nullmCache : MountId → Bool} {layer next later : Layer} {surplus : VnodeId → Nat}
  {vp : VnodeId} {live target : LiveNode} {node : TptNode}

/-- A node that is needed for itself: it has users outside or in a removal, it is to be kept, or
nobody uses it and nothing is owed for it. -/
def Needed (nullmCache : MountId → Bool) (layer : Layer) (live : LiveNode) : Prop :=
  0 < layer.outside live.node.tptVnode ∨ 0 < layer.removing live.node.tptVnode ∨
    layer.tptWantRecycle nullmCache live = false ∨
    layer.useCount live.node.tptVnode = 0 ∧ live.viOweinact = false

/-- A node of the hash that is needed for itself. -/
def Root (nullmCache : MountId → Bool) (layer : Layer) (node : TptNode) : Prop :=
  ∃ live ∈ layer.hash, live.node = node ∧ Needed nullmCache layer live

/-- **The aliases that someone needs**, for themselves or for an alias over them. -/
inductive Held (nullmCache : MountId → Bool) (layer : Layer) : TptNode → Prop where
  | root {node : TptNode} (root : Root nullmCache layer node) : Held nullmCache layer node
  | under {upper node : TptNode} (held : Held nullmCache layer upper)
      (member : node ∈ layer.nodes) (lower : upper.tptLowervp = node.tptVnode) :
      Held nullmCache layer node

theorem Held.mem (held : Held nullmCache layer node) : node ∈ layer.nodes := by
  cases held with
  | root root =>
      obtain ⟨live, member, rfl, -⟩ := root
      exact node_mem member
  | under _ member _ => exact member

/-- A node over a vnode uses it. -/
theorem Sane.used_of_lower (sane : Sane nullmCache surplus layer) (member : node ∈ layer.nodes)
    (lower : node.tptLowervp = vp) : layer.useCount vp ≠ 0 := by
  obtain ⟨live, among, rfl⟩ := List.mem_map.mp member
  have least := sane.lower_used among
  rw [lower] at least
  exact Nat.ne_of_gt least

/-- There is one element for a node. -/
theorem Sane.eq_of_node (sane : Sane nullmCache surplus layer) (member : live ∈ layer.hash)
    (among : target ∈ layer.hash) (same : live.node.tptVnode = target.node.tptVnode) :
    live = target := by
  have first := sane.vtonull_of_mem member
  rw [same, sane.vtonull_of_mem among] at first
  exact (Option.some.inj first).symm

/-- A needed alias that nobody uses, and that the kernel owes, is to be kept. -/
theorem Sane.keep_of_held (sane : Sane nullmCache surplus layer)
    (held : Held nullmCache layer target.node) (member : target ∈ layer.hash)
    (unused : layer.useCount target.node.tptVnode = 0) (owed : target.viOweinact = true) :
    layer.tptWantRecycle nullmCache target = false := by
  have counted := sane.accounted target.node.tptVnode
  cases held with
  | root root =>
      obtain ⟨live, among, node, needed⟩ := root
      obtain rfl := sane.eq_of_node among member (congrArg TptNode.tptVnode node)
      obtain used | used | keep | ⟨-, paid⟩ := needed
      · omega
      · omega
      · exact keep
      · cases owed.symm.trans paid
  | under held _ lower => exact absurd unused (sane.used_of_lower held.mem lower)

section Roots

/-- What a node is needed for does not depend on `NULLV_NOUNLOCK`, nor on who is owed. -/
theorem needed_congr {new : LiveNode} (node : new.node = live.node)
    (drop : new.nullvDrop = live.nullvDrop) (outside : next.outside = layer.outside)
    (removes : next.removes = layer.removes) (nosync : next.vvNosync = layer.vvNosync)
    (idle : next.useCount live.node.tptVnode = 0 ∧ new.viOweinact = false ↔
      layer.useCount live.node.tptVnode = 0 ∧ live.viOweinact = false) :
    Needed nullmCache next new ↔ Needed nullmCache layer live := by
  rw [Needed, Needed, removing, removing, tptWantRecycle, tptWantRecycle, node, drop, outside,
    removes, nosync, idle]

theorem exists_setFlags {flags : LiveNode → LiveNode} {p : LiveNode → Prop} :
    (∃ live ∈ (layer.setFlags vp flags).hash, p live) ↔
      ∃ live ∈ layer.hash, p (if live.node.tptVnode = vp then flags live else live) := by
  simp only [setFlags, List.mem_map, exists_exists_and_eq_and]

/-- A release makes no node needed, and none unneeded: behind the last one something is owed. -/
theorem root_vrele_iff (used : 0 < layer.useCount vp) :
    Root nullmCache (layer.vrele vp) node ↔ Root nullmCache layer node := by
  have others {other : VnodeId} (apart : other ≠ vp) :
      Function.update layer.useCount vp (layer.useCount vp - 1) other = layer.useCount other :=
    Function.update_of_ne apart _ _
  rw [vrele]
  split
  · next last =>
      refine exists_setFlags.trans (exists_congr fun live => and_congr_right fun _ => ?_)
      by_cases here : live.node.tptVnode = vp
      · rw [if_pos here]
        refine and_congr_right fun _ => needed_congr rfl rfl rfl rfl rfl ?_
        rw [here]
        exact iff_of_false (fun idle => Bool.true_eq_false.mp idle.2) fun idle =>
          absurd idle.1 (Nat.ne_of_gt used)
      · rw [if_neg here]
        refine and_congr_right fun _ => needed_congr rfl rfl rfl rfl rfl ?_
        exact and_congr_left' (Eq.congr_left (others here))
  · next more =>
      refine exists_congr fun live => and_congr_right fun _ => and_congr_right fun _ =>
        needed_congr rfl rfl rfl rfl rfl (and_congr_left' ?_)
      by_cases here : live.node.tptVnode = vp
      · rw [here]
        exact iff_of_false more (Nat.ne_of_gt used)
      · exact Eq.congr_left (others here)

/-- The other nodes do not mind when a node goes. -/
theorem root_tptHashrem_iff (apart : node.tptVnode ≠ vp) :
    Root nullmCache (layer.tptHashrem vp) node ↔ Root nullmCache layer node := by
  refine exists_congr fun live => ?_
  constructor
  · rintro ⟨member, same, needed⟩
    exact ⟨(List.mem_filter.mp member).1, same, needed⟩
  · rintro ⟨member, same, needed⟩
    exact ⟨List.mem_filter.mpr ⟨member, by simpa [same] using apart⟩, same, needed⟩

/-- A node that is to be kept is needed whether something is owed for it or not. -/
theorem Sane.root_markOweinact_iff (sane : Sane nullmCache surplus layer)
    (member : target ∈ layer.hash) (keep : layer.tptWantRecycle nullmCache target = false) :
    Root nullmCache (layer.markOweinact target.node.tptVnode false) node ↔
      Root nullmCache layer node := by
  refine exists_setFlags.trans (exists_congr fun live => and_congr_right fun among => ?_)
  by_cases here : live.node.tptVnode = target.node.tptVnode
  · obtain rfl := sane.eq_of_node among member here
    rw [if_pos here]
    refine and_congr_right fun _ => iff_of_true ?_ (.inr (.inr (.inl keep)))
    exact .inr (.inr (.inl keep))
  · rw [if_neg here]
    exact Iff.rfl

/-- **Inactive processing** takes a node that nobody needs, or changes nothing about who is
needed. -/
theorem Sane.held_vinactive_iff (sane : Sane nullmCache surplus layer)
    (member : target ∈ layer.hash) (unused : layer.useCount target.node.tptVnode = 0)
    (owed : target.viOweinact = true) :
    Held nullmCache (layer.vinactive nullmCache target) node ↔ Held nullmCache layer node := by
  have fewer : ∀ node ∈ (layer.vinactive nullmCache target).nodes, node ∈ layer.nodes := by
    intro node among
    obtain same | gone := sane.nodes_vinactive member
    · exact same ▸ among
    · rw [gone] at among
      exact (List.mem_filter.mp among).1
  have roots : ∀ node ∈ (layer.vinactive nullmCache target).nodes,
      Root nullmCache (layer.vinactive nullmCache target) node ↔ Root nullmCache layer node := by
    rw [sane.vinactive_eq member]
    split
    · intro node among
      rw [nodes_tptReclaim] at among
      have apart : node.tptVnode ≠ target.node.tptVnode := by
        simpa using (List.mem_filter.mp among).2
      have used : 0 < (layer.tptHashrem target.node.tptVnode).useCount target.node.tptLowervp :=
        sane.lower_used member
      exact (root_vrele_iff used).trans (root_tptHashrem_iff apart)
    · next keep =>
        intro node _
        exact sane.root_markOweinact_iff member (Bool.not_eq_true _ ▸ keep)
  have survives : ∀ node, Held nullmCache layer node →
      node ∈ (layer.vinactive nullmCache target).nodes := by
    intro node held
    rw [sane.vinactive_eq member]
    split
    · next recycle =>
        rw [nodes_tptReclaim]
        refine List.mem_filter.mpr ⟨held.mem, ?_⟩
        have apart : node.tptVnode ≠ target.node.tptVnode := by
          intro same
          obtain ⟨live, among, rfl⟩ := List.mem_map.mp held.mem
          obtain rfl := sane.eq_of_node among member same
          cases recycle.symm.trans (sane.keep_of_held held member unused owed)
        simpa using apart
    · rw [nodes_markOweinact]
      exact held.mem
  constructor
  · intro held
    induction held with
    | root root =>
        obtain ⟨live, among, rfl, -⟩ := id root
        exact .root ((roots _ (node_mem among)).mp root)
    | under _ among lower ih => exact .under ih (fewer _ among) lower
  · intro held
    induction held with
    | root root => exact .root ((roots _ (survives _ (.root root))).mpr root)
    | under held among lower ih => exact .under ih (survives _ (.under held among lower)) lower

end Roots

section Drain

/-- How many calls the kernel owes. -/
def owing (layer : Layer) : Nat := layer.hash.countP fun live => live.viOweinact

/-- What the kernel owes, by one node and the others. -/
theorem Shaped.owing_eq (shaped : Shaped layer.nodes) (member : live ∈ layer.hash) :
    layer.owing = (layer.tptHashrem live.node.tptVnode).owing +
      if live.viOweinact = true then 1 else 0 := by
  have distinct := shaped.distinct
  rw [Layer.nodes, List.map_map] at distinct
  exact countP_filter_key distinct member fun live => live.viOweinact

theorem Shaped.owing_markOweinact (shaped : Shaped layer.nodes) (member : live ∈ layer.hash)
    (value : Bool) :
    (layer.markOweinact live.node.tptVnode value).owing =
      (layer.tptHashrem live.node.tptVnode).owing + if value = true then 1 else 0 := by
  have marked : Shaped (layer.markOweinact live.node.tptVnode value).nodes := by
    rw [nodes_markOweinact]
    exact shaped
  have there : ({ live with viOweinact := value } : LiveNode) ∈
      (layer.markOweinact live.node.tptVnode value).hash := mem_setFlags member
  have gone : (layer.markOweinact live.node.tptVnode value).tptHashrem live.node.tptVnode =
      layer.tptHashrem live.node.tptVnode := tptHashrem_setFlags fun _ => rfl
  rw [marked.owing_eq there]
  change ((layer.markOweinact live.node.tptVnode value).tptHashrem live.node.tptVnode).owing + _ = _
  rw [gone]

theorem length_markOweinact (layer : Layer) (vp : VnodeId) (value : Bool) :
    (layer.markOweinact vp value).hash.length = layer.hash.length := List.length_map ..

/-- A mark of a vnode without a node. -/
theorem markOweinact_of_absent (absent : layer.vtonull vp = none) (value : Bool) :
    layer.markOweinact vp value = layer := by
  have same : ∀ live ∈ layer.hash,
      (if live.node.tptVnode = vp then { live with viOweinact := value } else live) = live :=
    fun live member => if_neg (vtonull_eq_none_iff.mp absent live member)
  exact congrArg (fun hash => { layer with hash })
    ((List.map_congr_left same).trans (List.map_id' _))

/-- A release adds one call at most. -/
theorem Shaped.vrele_owing (shaped : Shaped layer.nodes) (vp : VnodeId) :
    (layer.vrele vp).hash.length = layer.hash.length ∧
      (layer.vrele vp).owing ≤ layer.owing + 1 := by
  have marked {lowered : Layer} (same : lowered.hash = layer.hash) :
      (lowered.markOweinact vp true).owing ≤ layer.owing + 1 := by
    have shape : Shaped lowered.nodes := by
      rw [Layer.nodes, same]
      exact shaped
    have before : lowered.owing = layer.owing := by rw [owing, owing, same]
    cases found : lowered.vtonull vp with
    | none =>
        rw [markOweinact_of_absent found, before]
        exact Nat.le_succ _
    | some live =>
        obtain ⟨member, rfl⟩ := vtonull_eq_some found
        rw [shape.owing_markOweinact member, if_pos rfl, ← before, shape.owing_eq member]
        exact Nat.add_le_add_right (Nat.le_add_right _ _) 1
  rw [vrele]
  split
  · exact ⟨length_markOweinact _ vp true, marked rfl⟩
  · exact ⟨rfl, Nat.le_succ _⟩

/-- **Each round of inactive processing** leaves less. -/
theorem Sane.vinactive_less (sane : Sane nullmCache surplus layer)
    (member : target ∈ layer.hash) (owed : target.viOweinact = true) :
    (layer.vinactive nullmCache target).hash.length +
      (layer.vinactive nullmCache target).owing < layer.hash.length + layer.owing := by
  have before := sane.shaped.owing_eq member
  rw [if_pos owed] at before
  rw [sane.vinactive_eq member]
  split
  · have short : (layer.tptHashrem target.node.tptVnode).hash.length < layer.hash.length :=
      List.length_filter_lt_length_iff_exists.mpr ⟨target, member, by simp⟩
    obtain ⟨length, more⟩ :=
      (sane.tptHashrem member).shaped.vrele_owing target.node.tptLowervp
    rw [Layer.tptReclaim]
    omega
  · rw [length_markOweinact, sane.shaped.owing_markOweinact member,
      if_neg Bool.false_ne_true]
    omega

/-- **The kernel catches up**: it makes two calls for an alias at most, and who is needed stays
the same throughout. -/
theorem Sound.inactive_run (sound : Sound nullmCache layer) {vps : List VnodeId}
    (ran : layer.run nullmCache (vps.map .inactive) = some later) :
    vps.length + (later.hash.length + later.owing) ≤ layer.hash.length + layer.owing ∧
      later.unlinks = layer.unlinks ∧ Sound nullmCache later ∧
      ∀ node, Held nullmCache later node ↔ Held nullmCache layer node := by
  induction vps generalizing layer with
  | nil =>
      obtain rfl := Option.some.inj ran
      exact ⟨Nat.le_of_eq (Nat.zero_add _), rfl, sound, fun _ => Iff.rfl⟩
  | cons vp vps ih =>
      obtain ⟨middle, stepped, rest⟩ := Option.bind_eq_some_iff.mp ran
      obtain ⟨target, found, ⟨unused, owed⟩, -, rfl⟩ := step_inactive stepped
      obtain ⟨member, rfl⟩ := vtonull_eq_some found
      obtain ⟨bound, unlinks, after, held⟩ := ih (sound.step stepped) rest
      have less := sound.sane.vinactive_less member owed
      refine ⟨?_, unlinks.trans (sound.sane.keeps_vinactive member).unlinks, after, ?_⟩
      · rw [List.length_cons]
        omega
      · exact fun node =>
          (held node).trans (sound.sane.held_vinactive_iff member unused owed)

/-- There is nothing to do where nothing is owed. -/
theorem step_inactive_of_paid (paid : ∀ live ∈ layer.hash, live.viOweinact = false)
    (vp : VnodeId) : layer.step nullmCache (.inactive vp) = none := by
  cases stepped : layer.step nullmCache (.inactive vp) with
  | none => rfl
  | some next =>
      obtain ⟨live, found, ⟨-, owed⟩, -⟩ := step_inactive stepped
      cases owed.symm.trans (paid live (vtonull_eq_some found).1)

/-- When nothing can be done any more, every alias is needed: one in use is below a newer one, or
is used itself. -/
theorem Sound.held_of_settled (sound : Sound nullmCache layer) (quiet : layer.unlinks = [])
    (settled : ∀ vp, layer.step nullmCache (.inactive vp) = none) :
    ∀ node ∈ layer.nodes, Held nullmCache layer node := by
  -- by the place in the hash, where newer nodes come first
  have held : ∀ index (inside : index < layer.nodes.length),
      Held nullmCache layer layer.nodes[index] := by
    intro index
    induction index using Nat.strong_induction_on with
    | h index ih =>
        intro inside
        obtain ⟨live, member, place⟩ := List.mem_map.mp (List.getElem_mem inside)
        rw [← place]
        by_cases unused : layer.useCount live.node.tptVnode = 0
        · have stuck := settled live.node.tptVnode
          simp only [Layer.step, sound.sane.vtonull_of_mem member, unused, quiet,
            List.not_mem_nil, not_false_eq_true, and_true, true_and, ite_eq_right_iff,
            reduceCtorEq, imp_false, Bool.not_eq_true] at stuck
          exact .root ⟨live, member, rfl, .inr (.inr (.inr ⟨unused, stuck⟩))⟩
        · have counted := sound.sane.accounted live.node.tptVnode
          by_cases outside : 0 < layer.outside live.node.tptVnode
          · exact .root ⟨live, member, rfl, .inl outside⟩
          by_cases removing : 0 < layer.removing live.node.tptVnode
          · exact .root ⟨live, member, rfl, .inr (.inl removing)⟩
          have above : 0 < layer.nodes.countP fun node => node.tptLowervp = live.node.tptVnode := by
            rw [← aliases_eq]
            omega
          obtain ⟨upper, among, lower⟩ := List.countP_pos_iff.mp above
          obtain ⟨newer, within, rfl⟩ := List.getElem_of_mem among
          have here : layer.nodes[newer].tptLowervp = live.node.tptVnode := of_decide_eq_true lower
          have first : newer < index := by
            obtain before | rfl | behind := Nat.lt_trichotomy newer index
            · exact before
            · exact absurd (here.trans (congrArg TptNode.tptVnode place))
                (sound.sane.shaped.apart _ among)
            · exact absurd (here.trans (congrArg TptNode.tptVnode place))
                (List.pairwise_iff_getElem.mp sound.sane.shaped.ordered index newer inside within
                  behind)
          exact .under (ih newer first within) (node_mem member) here
  intro node member
  obtain ⟨index, inside, rfl⟩ := List.getElem_of_mem member
  exact held index inside

end Drain

section Results

variable {outside : VnodeId → Nat} {events : List LayerEvent} {vps : List VnodeId}

/-- **What is left when the kernel has done what it owes.** From every state of every run, and in
whatever order it goes on, it is done after two calls for each alias at most. The aliases that
are left then are the ones that someone needed before. -/
theorem drained_iff (ran : (initial outside).run nullmCache events = some layer)
    (quiet : layer.unlinks = []) (drained : layer.run nullmCache (vps.map .inactive) = some later) :
    vps.length ≤ 2 * layer.hash.length ∧
      ((∀ vp, later.step nullmCache (.inactive vp) = none) →
        ∀ node, node ∈ later.nodes ↔ Held nullmCache layer node) := by
  have sound := (sound_initial outside).run_keeps ran
  obtain ⟨bound, unlinks, after, held⟩ := sound.inactive_run drained
  have most : layer.owing ≤ layer.hash.length := List.countP_le_length
  refine ⟨by omega, fun settled node => ?_⟩
  rw [← held node]
  exact ⟨after.held_of_settled (unlinks.trans quiet) settled node, Held.mem⟩

/-- An alias on the first mount, an alias of it on the second one, and an alias of that one on
the first mount. All users have left. -/
def threeLayers : List LayerEvent :=
  [.acquire 1, .nodeget 1 1 (some 7), .nodeget 2 7 (some 8), .acquire 8, .nodeget 1 8 (some 9),
    .release 8, .release 9]

/-- The uppermost alias goes. The one below it is cached, and it keeps the lowermost one. -/
theorem drained_iff_three :
    ∃ layer later, (initial oneFile).run secondCaches threeLayers = some layer ∧
      layer.run secondCaches ([9, 8].map .inactive) = some later ∧
      later.nodes = [⟨7, 8, 2⟩, ⟨1, 7, 1⟩] ∧ Held secondCaches layer ⟨1, 7, 1⟩ ∧
      ¬ Held secondCaches layer ⟨8, 9, 1⟩ := by
  obtain ⟨-, left⟩ := @drained_iff secondCaches _ _ oneFile threeLayers [9, 8] rfl rfl rfl
  have settled := left (step_inactive_of_paid (by decide))
  exact ⟨_, _, rfl, rfl, rfl, (settled _).mp (by decide), fun held =>
    absurd ((settled _).mpr held) (by decide)⟩

end Results

end Layer

end Lifetimes

end Tptfs
