import LearningKernels.Tptfs.LifetimeRuns

/-!
# The test behind the release of `tptfs_unlink_lowervp`

`tptfs_unlink_lowervp` has the alias locked from its release to its test of the use count, so that
the alias neither goes nor comes meanwhile (`Tptfs.Lifetimes.Layer.Sound.locked_run`). The use
count may change: its other users do not need the lock to come and go. The two assertions
behind the test fail exactly when it was, or is, zero
(`Tptfs.Lifetimes.Layer.unlink_fails_iff`).
-/

namespace Tptfs

namespace Lifetimes

namespace Layer

variable {nullmCache : MountId → Bool} {layer next middle later after : Layer}
  {vp lowervp : VnodeId} {mp : MountId} {live : LiveNode} {event : LayerEvent}

/-- What an event does to the nodes: the aliases that are locked neither come nor go. -/
inductive NodesStep (locked : List VnodeId) (nodes : List TptNode) : List TptNode → Prop where
  | same : NodesStep locked nodes nodes
  | gone (vp : VnodeId) (free : vp ∉ locked) :
      NodesStep locked nodes (nodes.filter fun node => node.tptVnode ≠ vp)
  | made (xp : TptNode) (free : xp.tptVnode ∉ locked) : NodesStep locked nodes (xp :: nodes)

theorem NodesStep.live_iff {locked : List VnodeId} {nodes after : List TptNode}
    (changed : NodesStep locked nodes after) (held : vp ∈ locked) :
    vp ∈ after.map TptNode.tptVnode ↔ vp ∈ nodes.map TptNode.tptVnode := by
  cases changed with
  | same => rfl
  | gone other free =>
      have apart : vp ≠ other := fun same => free (same ▸ held)
      simp only [List.mem_map, List.mem_filter, decide_eq_true_eq]
      constructor
      · rintro ⟨node, ⟨member, -⟩, here⟩
        exact ⟨node, member, here⟩
      · rintro ⟨node, member, here⟩
        exact ⟨node, ⟨member, here ▸ apart⟩, here⟩
  | made xp free =>
      have apart : vp ≠ xp.tptVnode := fun same => free (same ▸ held)
      rw [List.map_cons, List.mem_cons, or_iff_right apart]

theorem NodesStep.of_eq {locked : List VnodeId} {nodes after : List TptNode}
    (same : after = nodes) : NodesStep locked nodes after := same ▸ .same

theorem nodes_vgone (layer : Layer) (vp : VnodeId) :
    (layer.vgone vp).nodes = layer.nodes ∨
      (layer.vgone vp).nodes = layer.nodes.filter fun node => node.tptVnode ≠ vp := by
  rw [vgone]
  split
  · exact .inl rfl
  · next live found =>
      rw [nodes_tptReclaim, (vtonull_eq_some found).2]
      exact .inr rfl

theorem Sane.nodes_vinactive {surplus : VnodeId → Nat} (sane : Sane nullmCache surplus layer)
    (member : live ∈ layer.hash) :
    (layer.vinactive nullmCache live).nodes = layer.nodes ∨
      (layer.vinactive nullmCache live).nodes =
        layer.nodes.filter fun node => node.tptVnode ≠ live.node.tptVnode := by
  rw [sane.vinactive_eq member]
  split
  · exact .inr (nodes_tptReclaim layer live)
  · exact .inl (nodes_markOweinact layer _ false)

/-- What the kernel has when it does what it owes. -/
theorem step_inactive (stepped : layer.step nullmCache (.inactive vp) = some next) :
    ∃ live, layer.vtonull vp = some live ∧ (layer.useCount vp = 0 ∧ live.viOweinact = true) ∧
      vp ∉ layer.unlinks ∧ next = layer.vinactive nullmCache live := by
  simp only [Layer.step] at stepped
  split at stepped
  · cases stepped
  · next live found =>
      obtain ⟨⟨unused, owed, free⟩, same⟩ := Option.ite_none_right_eq_some.mp stepped
      exact ⟨live, found, ⟨unused, owed⟩, free, (Option.some.inj same).symm⟩

/-- The end of `tpt_remove`. -/
theorem step_removed {index : Nat} (stepped : layer.step nullmCache (.removed index) = some next) :
    ∃ taken, layer.removes[index]? = some taken ∧
      next = taken.elim { layer with removes := layer.removes.eraseIdx index } fun lvp =>
        ({ layer with removes := layer.removes.eraseIdx index } : Layer).vrele lvp := by
  simp only [Layer.step] at stepped
  split at stepped
  · cases stepped
  · next taken found =>
      refine ⟨taken, found, ?_⟩
      split at stepped
      · exact (Option.some.inj stepped).symm
      · exact (Option.some.inj stepped).symm

theorem nodes_markDrop (layer : Layer) (vp : VnodeId) :
    (layer.markDrop vp).nodes = layer.nodes := nodes_setFlags fun _ => rfl

theorem nodes_markNounlock (layer : Layer) (vp : VnodeId) (value : Bool) :
    (layer.markNounlock vp value).nodes = layer.nodes := nodes_setFlags fun _ => rfl

theorem nodes_tptRemove (layer : Layer) (vp : VnodeId) (live : LiveNode) :
    (layer.tptRemove vp live).nodes = layer.nodes := by
  rw [tptRemove]
  split
  · exact nodes_markDrop _ vp
  · exact nodes_markDrop layer vp

theorem nodes_tptRename (layer : Layer) (fvp tdvp : MountId) (tvp : Option LiveNode) :
    (layer.tptRename fvp tdvp tvp).nodes = layer.nodes := by
  unfold tptRename
  split
  · rfl
  · split
    · rfl
    · exact nodes_markDrop layer _

/-- `tpt_nodeget` finds a node, or makes one of a vnode that is not locked. -/
theorem nodes_tptNodeget {answer : Option VnodeId}
    (stepped : layer.tptNodeget mp lowervp answer = some next) :
    NodesStep layer.unlinks layer.nodes next.nodes := by
  unfold tptNodeget at stepped
  simp only at stepped
  split at stepped
  · obtain rfl := Option.some.inj stepped
    exact .of_eq (nodes_vrele _ lowervp)
  · split at stepped
    · obtain rfl := Option.some.inj stepped
      exact .of_eq (nodes_vrele _ lowervp)
    · obtain ⟨fresh, same⟩ := Option.ite_none_right_eq_some.mp stepped
      obtain rfl := Option.some.inj same
      exact .made _ fresh.2.2

theorem Sane.nodes_tptfsReclaimLowervp (sane : Sane nullmCache (fun _ => 0) layer)
    (free : layer.free mp lowervp = true) :
    NodesStep layer.unlinks layer.nodes (layer.tptfsReclaimLowervp mp lowervp).nodes := by
  rw [tptfsReclaimLowervp]
  split
  · exact .same
  · next live found =>
      rw [Layer.free, found, Option.all_some, decide_eq_true_eq] at free
      have there : (layer.vref live.node.tptVnode).vtonull live.node.tptVnode = some live :=
        sane.vtonull_of_mem (search_eq_some found).1
      have gone : ((layer.vref live.node.tptVnode).markNounlock live.node.tptVnode true).vgone
          live.node.tptVnode = (layer.vref live.node.tptVnode).tptReclaim live :=
        vgone_setFlags (fun _ => rfl) there
      simp only [gone]
      rw [nodes_vrele, nodes_tptReclaim]
      exact .gone _ free

/-- The alias behind the release of `tptfs_unlink_lowervp`. -/
def dropped (vp : VnodeId) (layer : Layer) : Layer := (layer.noticed vp).vrele vp

theorem nodes_dropped (layer : Layer) (vp : VnodeId) : (layer.dropped vp).nodes = layer.nodes :=
  calc (layer.dropped vp).nodes = (layer.noticed vp).nodes := nodes_vrele _ vp
    _ = ((layer.vref vp).markDrop vp).nodes := nodes_markNounlock _ vp true
    _ = layer.nodes := nodes_markDrop _ vp

theorem mem_setFlags {flags : LiveNode → LiveNode} (member : live ∈ layer.hash) :
    flags live ∈ (layer.setFlags live.node.tptVnode flags).hash :=
  List.mem_map.mpr ⟨live, member, if_pos rfl⟩

theorem mem_vrele (member : live ∈ layer.hash) (vp : VnodeId) :
    ∃ released ∈ (layer.vrele vp).hash, released.node = live.node ∧
      released.nullvDrop = live.nullvDrop := by
  rw [vrele]
  split
  · refine ⟨_, List.mem_map_of_mem member, ?_⟩
    split
    · exact ⟨rfl, rfl⟩
    · exact ⟨rfl, rfl⟩
  · exact ⟨live, member, rfl, rfl⟩

theorem mem_dropped (member : live ∈ layer.hash) :
    ∃ marked ∈ (layer.dropped live.node.tptVnode).hash, marked.node = live.node ∧
      marked.nullvDrop = true := by
  have there : live ∈ (layer.vref live.node.tptVnode).hash := member
  have marked : ({ live with nullvDrop := true } : LiveNode) ∈
      ((layer.vref live.node.tptVnode).markDrop live.node.tptVnode).hash := mem_setFlags there
  have noticed : ({ live with nullvDrop := true, nullvNounlock := true } : LiveNode) ∈
      (layer.noticed live.node.tptVnode).hash := mem_setFlags marked
  exact mem_vrele noticed live.node.tptVnode

/-- The release of `tptfs_unlink_lowervp` on a node that it has found: the alias is there and
marked, and the kernel may do what it owes. -/
theorem Sound.tptfsUnlinkLowervp_eq (sound : Sound nullmCache layer)
    (free : layer.free mp lowervp = true) (found : layer.search mp lowervp = some live)
    (inactive : Bool) :
    ∃ marked ∈ (layer.dropped live.node.tptVnode).hash, marked.node = live.node ∧
      marked.nullvDrop = true ∧
      Sound nullmCache (layer.dropped live.node.tptVnode) ∧
      layer.tptfsUnlinkLowervp nullmCache mp lowervp inactive =
        if inactive = true ∧ (layer.dropped live.node.tptVnode).useCount live.node.tptVnode = 0 then
          (layer.dropped live.node.tptVnode).vinactive nullmCache marked
        else layer.dropped live.node.tptVnode := by
  rw [Layer.free, found, Option.all_some, decide_eq_true_eq] at free
  obtain ⟨sane, flagged, once⟩ := sound.noticed free
  have released : Sound nullmCache (layer.dropped live.node.tptVnode) :=
    Sound.vrele sane flagged once
  obtain ⟨marked, member, node, drop⟩ := mem_dropped (search_eq_some found).1
  have there := released.sane.vtonull_of_mem member
  rw [node] at there
  refine ⟨marked, member, node, drop, released, ?_⟩
  rw [Layer.tptfsUnlinkLowervp, found]
  dsimp only
  split
  · next gone => cases there.symm.trans gone
  · next again same =>
      obtain rfl := Option.some.inj (there.symm.trans same)
      rfl

theorem Sound.nodes_tptfsUnlinkLowervp (sound : Sound nullmCache layer)
    (free : layer.free mp lowervp = true) (inactive : Bool) :
    NodesStep layer.unlinks layer.nodes
      (layer.tptfsUnlinkLowervp nullmCache mp lowervp inactive).nodes := by
  cases found : layer.search mp lowervp with
  | none =>
      rw [Layer.tptfsUnlinkLowervp, found]
      exact .same
  | some live =>
      obtain ⟨marked, member, node, -, released, same⟩ :=
        sound.tptfsUnlinkLowervp_eq free found inactive
      rw [Layer.free, found, Option.all_some, decide_eq_true_eq] at free
      rw [same]
      split
      · obtain stays | goes := released.sane.nodes_vinactive member
        · exact .of_eq (stays.trans (nodes_dropped layer _))
        · rw [goes, nodes_dropped, node]
          exact .gone _ free
      · exact .of_eq (nodes_dropped layer _)

theorem nodes_tptfsUnlinked (layer : Layer) (vp : VnodeId) :
    (layer.tptfsUnlinked vp).nodes = layer.nodes := by
  rw [tptfsUnlinked]
  simp only
  split
  · rfl
  · exact nodes_markNounlock _ vp false

theorem unlinks_tptNodeget {answer : Option VnodeId}
    (stepped : layer.tptNodeget mp lowervp answer = some next) :
    next.unlinks = layer.unlinks := by
  unfold tptNodeget at stepped
  simp only at stepped
  split at stepped
  · obtain rfl := Option.some.inj stepped
    exact (keeps_vrele _ lowervp).unlinks
  · split at stepped
    · obtain rfl := Option.some.inj stepped
      exact (keeps_vrele _ lowervp).unlinks
    · obtain ⟨-, same⟩ := Option.ite_none_right_eq_some.mp stepped
      obtain rfl := Option.some.inj same
      rfl

theorem unlinks_tptRename (layer : Layer) (fvp tdvp : MountId) (tvp : Option LiveNode) :
    (layer.tptRename fvp tdvp tvp).unlinks = layer.unlinks := by
  unfold tptRename
  split
  · rfl
  · split
    · rfl
    · rfl

theorem unlinks_tptfsReclaimLowervp (layer : Layer) (mp : MountId) (lowervp : VnodeId) :
    (layer.tptfsReclaimLowervp mp lowervp).unlinks = layer.unlinks := by
  rw [tptfsReclaimLowervp]
  split
  · rfl
  · exact (keeps_vrele _ _).unlinks.trans (keeps_vgone _ _).unlinks

theorem mem_unlinks_vrele {other : VnodeId} (held : vp ∈ layer.unlinks) :
    vp ∈ (layer.vrele other).unlinks := by
  rw [(keeps_vrele layer other).unlinks]
  exact held

theorem unlinks_dropped (layer : Layer) (vp : VnodeId) :
    (layer.dropped vp).unlinks = vp :: layer.unlinks := (keeps_vrele _ vp).unlinks

theorem Sound.mem_unlinks_tptfsUnlinkLowervp (sound : Sound nullmCache layer)
    (free : layer.free mp lowervp = true) (inactive : Bool) (held : vp ∈ layer.unlinks) :
    vp ∈ (layer.tptfsUnlinkLowervp nullmCache mp lowervp inactive).unlinks := by
  cases found : layer.search mp lowervp with
  | none =>
      rw [Layer.tptfsUnlinkLowervp, found]
      exact held
  | some live =>
      obtain ⟨marked, member, -, -, released, same⟩ :=
        sound.tptfsUnlinkLowervp_eq free found inactive
      have more : vp ∈ (layer.dropped live.node.tptVnode).unlinks := by
        rw [unlinks_dropped]
        exact List.mem_cons_of_mem _ held
      rw [same]
      split
      · exact (released.sane.keeps_vinactive member).unlinks ▸ more
      · exact more

theorem unlinks_tptfsUnlinked (layer : Layer) (vp : VnodeId) :
    (layer.tptfsUnlinked vp).unlinks = layer.unlinks.erase vp := by
  rw [tptfsUnlinked]
  simp only
  split
  · rfl
  · rfl

/-- **What one event does to the nodes.** -/
theorem Sound.step_nodes (sound : Sound nullmCache layer)
    (stepped : layer.step nullmCache event = some next) :
    NodesStep layer.unlinks layer.nodes next.nodes := by
  cases event with
  | acquire vp =>
      obtain rfl := Option.some.inj stepped
      exact .same
  | release vp =>
      obtain ⟨-, same⟩ := Option.ite_none_right_eq_some.mp stepped
      obtain rfl := Option.some.inj same
      exact .of_eq (nodes_vrele _ vp)
  | inactive vp =>
      obtain ⟨live, found, -, free, rfl⟩ := step_inactive stepped
      obtain ⟨member, rfl⟩ := vtonull_eq_some found
      obtain stays | goes := sound.sane.nodes_vinactive member
      · exact .of_eq stays
      · exact goes ▸ .gone _ free
  | nodeget mp lowervp answer =>
      obtain ⟨-, made⟩ := Option.ite_none_right_eq_some.mp stepped
      have changed := nodes_tptNodeget made
      exact changed
  | remove vp =>
      obtain ⟨live, -, rfl⟩ := Option.map_eq_some_iff.mp stepped
      exact .of_eq (nodes_tptRemove layer vp live)
  | removed index =>
      obtain ⟨taken, -, rfl⟩ := step_removed stepped
      cases taken with
      | none => exact .same
      | some lvp => exact .of_eq (nodes_vrele _ lvp)
  | rename fvp tdvp tvp =>
      cases tvp with
      | none =>
          obtain rfl := Option.some.inj stepped
          exact .of_eq (nodes_tptRename layer fvp tdvp none)
      | some tvp =>
          obtain ⟨live, -, rfl⟩ := Option.map_eq_some_iff.mp stepped
          exact .of_eq (nodes_tptRename layer fvp tdvp (some live))
  | rmdir vp =>
      obtain ⟨live, -, rfl⟩ := Option.map_eq_some_iff.mp stepped
      exact .of_eq (nodes_markDrop layer vp)
  | vgone vp =>
      obtain ⟨free, same⟩ := Option.ite_none_right_eq_some.mp stepped
      obtain rfl := Option.some.inj same
      obtain stays | goes := nodes_vgone layer vp
      · exact .of_eq stays
      · exact goes ▸ .gone vp free
  | reclaimLowervp mp lowervp =>
      obtain ⟨free, same⟩ := Option.ite_none_right_eq_some.mp stepped
      obtain rfl := Option.some.inj same
      exact sound.sane.nodes_tptfsReclaimLowervp free
  | unlinkLowervp mp lowervp inactive =>
      obtain ⟨free, same⟩ := Option.ite_none_right_eq_some.mp stepped
      obtain rfl := Option.some.inj same
      exact sound.nodes_tptfsUnlinkLowervp free inactive
  | unlinked vp =>
      obtain ⟨-, same⟩ := Option.ite_none_right_eq_some.mp stepped
      obtain rfl := Option.some.inj same
      exact .of_eq (nodes_tptfsUnlinked layer vp)
  | nosync vp value =>
      obtain rfl := Option.some.inj stepped
      exact .same

/-- **What one event does to the locks**: only the test of `tptfs_unlink_lowervp` gives one up. -/
theorem Sound.step_unlinks (sound : Sound nullmCache layer)
    (stepped : layer.step nullmCache event = some next) (other : event ≠ .unlinked vp)
    (held : vp ∈ layer.unlinks) : vp ∈ next.unlinks := by
  cases event with
  | acquire _ =>
      obtain rfl := Option.some.inj stepped
      exact held
  | release query =>
      obtain ⟨-, same⟩ := Option.ite_none_right_eq_some.mp stepped
      obtain rfl := Option.some.inj same
      exact mem_unlinks_vrele held
  | inactive query =>
      obtain ⟨live, found, -, -, rfl⟩ := step_inactive stepped
      exact (sound.sane.keeps_vinactive (vtonull_eq_some found).1).unlinks ▸ held
  | nodeget mp lowervp answer =>
      obtain ⟨-, made⟩ := Option.ite_none_right_eq_some.mp stepped
      exact unlinks_tptNodeget made ▸ held
  | remove query =>
      obtain ⟨live, -, rfl⟩ := Option.map_eq_some_iff.mp stepped
      rw [Layer.tptRemove]
      split
      · exact held
      · exact held
  | removed index =>
      obtain ⟨taken, -, rfl⟩ := step_removed stepped
      cases taken with
      | none => exact held
      | some lvp => exact mem_unlinks_vrele held
  | rename fvp tdvp tvp =>
      cases tvp with
      | none =>
          obtain rfl := Option.some.inj stepped
          exact unlinks_tptRename layer fvp tdvp none ▸ held
      | some tvp =>
          obtain ⟨live, -, rfl⟩ := Option.map_eq_some_iff.mp stepped
          exact unlinks_tptRename layer fvp tdvp (some live) ▸ held
  | rmdir _ =>
      obtain ⟨live, -, rfl⟩ := Option.map_eq_some_iff.mp stepped
      exact held
  | vgone query =>
      obtain ⟨-, same⟩ := Option.ite_none_right_eq_some.mp stepped
      obtain rfl := Option.some.inj same
      exact (keeps_vgone layer query).unlinks ▸ held
  | reclaimLowervp mp lowervp =>
      obtain ⟨-, same⟩ := Option.ite_none_right_eq_some.mp stepped
      obtain rfl := Option.some.inj same
      exact unlinks_tptfsReclaimLowervp layer mp lowervp ▸ held
  | unlinkLowervp mp lowervp inactive =>
      obtain ⟨free, same⟩ := Option.ite_none_right_eq_some.mp stepped
      obtain rfl := Option.some.inj same
      exact sound.mem_unlinks_tptfsUnlinkLowervp free inactive held
  | unlinked query =>
      obtain ⟨-, same⟩ := Option.ite_none_right_eq_some.mp stepped
      obtain rfl := Option.some.inj same
      have apart : vp ≠ query := fun same => other (same ▸ rfl)
      exact unlinks_tptfsUnlinked layer query ▸ (List.mem_erase_of_ne apart).mpr held
  | nosync _ _ =>
      obtain rfl := Option.some.inj stepped
      exact held

/-- **The alias that `tptfs_unlink_lowervp` has locked is there, or not, until its test.** -/
theorem Sound.locked_run {events : List LayerEvent} (sound : Sound nullmCache middle)
    (ran : middle.run nullmCache events = some later) (closed : .unlinked vp ∉ events)
    (held : vp ∈ middle.unlinks) :
    vp ∈ later.unlinks ∧
      ((later.vtonull vp).isSome = true ↔ (middle.vtonull vp).isSome = true) := by
  induction events generalizing middle with
  | nil =>
      obtain rfl := Option.some.inj ran
      exact ⟨held, Iff.rfl⟩
  | cons event events ih =>
      obtain ⟨next, stepped, rest⟩ := Option.bind_eq_some_iff.mp ran
      obtain ⟨first, others⟩ := not_or.mp (mt List.mem_cons.mpr closed)
      have still := sound.step_unlinks stepped (Ne.symm first) held
      obtain ⟨locked, same⟩ := ih (sound.step stepped) rest others still
      refine ⟨locked, same.trans ?_⟩
      rw [isSome_vtonull_iff, isSome_vtonull_iff]
      exact (sound.step_nodes stepped).live_iff held

/-- Behind a release that the kernel follows up at once, the alias is there exactly when it is
in use. -/
theorem Sound.live_iff_used (sound : Sound nullmCache layer)
    (free : layer.free mp lowervp = true) (found : layer.search mp lowervp = some live) :
    live.node.tptVnode ∈ (layer.tptfsUnlinkLowervp nullmCache mp lowervp true).unlinks ∧
      (((layer.tptfsUnlinkLowervp nullmCache mp lowervp true).vtonull
          live.node.tptVnode).isSome = true ↔
        (layer.tptfsUnlinkLowervp nullmCache mp lowervp true).useCount live.node.tptVnode ≠ 0) := by
  obtain ⟨marked, member, node, drop, released, same⟩ :=
    sound.tptfsUnlinkLowervp_eq free found true
  have locked : live.node.tptVnode ∈ (layer.dropped live.node.tptVnode).unlinks := by
    rw [unlinks_dropped]
    exact List.mem_cons_self
  have keeps := released.sane.keeps_vinactive member
  have wanted : (layer.dropped live.node.tptVnode).tptWantRecycle nullmCache marked = true := by
    rw [tptWantRecycle, drop, Bool.or_true, Bool.true_or]
  have gone := released.sane.vinactive_eq member
  rw [if_pos wanted] at gone
  rw [same, isSome_vtonull_iff]
  split
  · next last =>
      refine ⟨keeps.unlinks ▸ locked, ?_⟩
      rw [gone, nodes_tptReclaim, node]
      refine iff_of_false ?_ (not_not.mpr ?_)
      · intro there
        obtain ⟨other, among, here⟩ := List.mem_map.mp there
        exact absurd here (by simpa using (List.mem_filter.mp among).2)
      · have apart : live.node.tptVnode ≠ marked.node.tptLowervp :=
          node ▸ (released.sane.shaped.apart _ (node_mem member)).symm
        exact (useCount_vrele_of_ne apart).trans last.2
  · next used =>
      refine ⟨locked, iff_of_true ?_ fun unused => used ⟨rfl, unused⟩⟩
      have there : marked.node.tptVnode ∈
          (layer.dropped live.node.tptVnode).nodes.map TptNode.tptVnode :=
        List.mem_map_of_mem (node_mem member)
      rw [node] at there
      exact there

/-- The test fails when the alias is there and not in use, or in use and not there. -/
theorem failed_tptfsUnlinked_iff (layer : Layer) (vp : VnodeId) :
    (layer.tptfsUnlinked vp).failed = layer.failed ↔
      ((layer.vtonull vp).isSome = true ↔ layer.useCount vp ≠ 0) := by
  have gone : (layer.vtonull vp).isNone = !(layer.vtonull vp).isSome := by
    rw [Option.not_isSome]
  rw [tptfsUnlinked]
  simp only
  by_cases unused : layer.useCount vp = 0
  · rw [if_pos unused]
    change (if (layer.vtonull vp).isNone then layer.failed else _) = _ ↔ _
    cases live : (layer.vtonull vp).isSome with
    | false => simp [gone, live, unused]
    | true => simp [gone, live, unused]
  · rw [if_neg unused]
    change (if (layer.vtonull vp).isSome then layer.failed else _) = _ ↔ _
    cases live : (layer.vtonull vp).isSome with
    | false => simp [unused]
    | true => simp [unused]

section Results

variable {outside : VnodeId → Nat} {events meanwhile : List LayerEvent}

/-- **When the assertions of `tptfs_unlink_lowervp` fail.** In every run only they can fail. Where
the kernel follows up the release at once, one of them does exactly when the alias goes out of
use, or comes into use, between the release and the test. Until one fails no operation leaves
`NULLV_NOUNLOCK` behind. -/
theorem unlink_fails_iff (ran : (initial outside).run nullmCache events = some layer)
    (found : layer.search mp lowervp = some live)
    (noticed : layer.step nullmCache (.unlinkLowervp mp lowervp true) = some middle)
    (waited : middle.run nullmCache meanwhile = some later)
    (closed : .unlinked live.node.tptVnode ∉ meanwhile)
    (tested : later.step nullmCache (.unlinked live.node.tptVnode) = some after) :
    (after.failed ≠ later.failed ↔
      ¬ (later.useCount live.node.tptVnode = 0 ↔ middle.useCount live.node.tptVnode = 0)) ∧
    (∀ assertion ∈ after.failed, assertion = .notReclaimed ∨ assertion = .reclaimed) ∧
    (after.failed = [] → ∀ live ∈ after.hash, live.nullvNounlock = true →
      live.node.tptVnode ∈ after.unlinks) := by
  have sound := (sound_initial outside).run_keeps ran
  have behind := sound.step noticed
  have waiting := behind.run_keeps waited
  have sane := waiting.step tested
  obtain ⟨free, same⟩ := Option.ite_none_right_eq_some.mp noticed
  obtain rfl := Option.some.inj same
  obtain ⟨-, ended⟩ := Option.ite_none_right_eq_some.mp tested
  obtain rfl := Option.some.inj ended
  obtain ⟨held, used⟩ := sound.live_iff_used free found
  obtain ⟨-, there⟩ := behind.locked_run waited closed held
  refine ⟨?_, sane.sane.calm, ?_⟩
  · rw [ne_eq, failed_tptfsUnlinked_iff, there, used]
    exact not_congr ⟨fun same => not_iff_not.mp same.symm, fun same => not_congr same.symm⟩
  · intro calm live member set
    exact (sane.flagged live member set).resolve_right (not_not.mpr calm)

/-- An alias with two users is removed by one of them. The other one leaves before the test. -/
theorem unlink_fails_iff_left :
    ∃ layer live middle later after,
      (initial oneFile).run secondCaches (removedInUse.take 5) = some layer ∧
      layer.search 2 1 = some live ∧
      layer.step secondCaches (.unlinkLowervp 2 1 true) = some middle ∧
      middle.run secondCaches [.release 7, .release 7] = some later ∧
      later.step secondCaches (.unlinked 7) = some after ∧ after.failed ≠ later.failed := by
  obtain ⟨fails, -⟩ := @unlink_fails_iff secondCaches _ _ _ _ 1 2 _ oneFile (removedInUse.take 5)
    [.release 7, .release 7] rfl rfl rfl rfl (by decide) rfl
  exact ⟨_, _, _, _, _, rfl, rfl, rfl, rfl, rfl, fails.mpr (by decide)⟩

end Results

end Layer

end Lifetimes

end Tptfs
