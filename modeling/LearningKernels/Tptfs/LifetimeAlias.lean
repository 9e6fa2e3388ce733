import LearningKernels.Tptfs.AliasCalls
import LearningKernels.Tptfs.LifetimeUnlink

/-!
# Lives of aliases as runs of threads

The operations on aliases take their nodes and references as the threads of `tpt_nodeget` and
`tpt_reclaim` do: each event is a run of these in which nobody overtakes
(`Tptfs.Lifetimes.Layer.Sound.simulates`), and so is each sequence of events
(`Tptfs.Lifetimes.Layer.Sound.simulates_run`). Marks and flags are what the threads do not see.
-/

namespace Tptfs

namespace Lifetimes

namespace Layer

variable {nullmCache : MountId → Bool} {nhash : VnodeId → Nat} {layer next : Layer}
  {surplus : VnodeId → Nat} {vp lowervp : VnodeId} {mp : MountId} {live : LiveNode}
  {threads : Threads}

/-- A layer as the threads of `tpt_nodeget` and `tpt_reclaim` see it. The references of removals
are references from outside to them. -/
def toNodes (layer : Layer) : Nodes where
  useCount vp := layer.useCount vp
  outside vp := layer.outside vp + layer.removing vp
  hash := layer.nodes

/-- A node goes from its place, or with its vnode. -/
theorem Shaped.eraseIdx {nodes : List TptNode} (shaped : Shaped nodes) {index : Nat}
    (inside : index < nodes.length) :
    nodes.eraseIdx index =
      nodes.filter fun node => node.tptVnode ≠ nodes[index].tptVnode := by
  have once : nodes.Nodup := shaped.distinct.of_map TptNode.tptVnode
  rw [← List.erase_eq_eraseIdx_of_idxOf (once.idxOf_getElem index inside), once.erase_eq_filter]
  refine List.filter_congr fun node member => ?_
  by_cases same : node = nodes[index]
  · simp [same]
  · have apart : node.tptVnode ≠ nodes[index].tptVnode := fun here =>
      same (List.inj_on_of_nodup_map shaped.distinct member (List.getElem_mem inside) here)
    simp [same, apart]

section Moves

theorem search_node (layer : Layer) (mp : MountId) (lowervp : VnodeId) :
    (layer.search mp lowervp).map LiveNode.node = nodeSearch layer.nodes mp lowervp := by
  rw [search, nodeSearch, Layer.nodes, List.find?_map]
  rfl

/-- One more in a count. -/
theorem natCast_succ (counts : VnodeId → Nat) (vp : VnodeId) :
    (fun query => (Function.update counts vp (counts vp + 1) query : Int)) =
      addAt (fun query => (counts query : Int)) vp 1 := by
  funext query
  rw [addAt_apply]
  by_cases here : query = vp
  · subst here
    rw [Function.update_self, if_pos rfl]
    exact Int.natCast_succ _
  · rw [Function.update_of_ne here, if_neg here, Int.add_zero]

/-- One less in a count that is not zero. -/
theorem natCast_pred {counts : VnodeId → Nat} (positive : 0 < counts vp) :
    (fun query => (Function.update counts vp (counts vp - 1) query : Int)) =
      addAt (fun query => (counts query : Int)) vp (-1) := by
  funext query
  rw [addAt_apply]
  by_cases here : query = vp
  · subst here
    rw [Function.update_self, if_pos rfl]
    omega
  · rw [Function.update_of_ne here, if_neg here, Int.add_zero]

theorem addAt_add (counts more : VnodeId → Int) (vp : VnodeId) (change : Int) :
    (fun query => addAt counts vp change query + more query) =
      addAt (fun query => counts query + more query) vp change := by
  funext query
  rw [addAt_apply, addAt_apply]
  omega

/-- Marks and flags are not part of what the threads see. -/
theorem toNodes_congr (useCount : next.useCount = layer.useCount)
    (outside : next.outside = layer.outside) (removes : next.removes = layer.removes)
    (nodes : next.nodes = layer.nodes) : next.toNodes = layer.toNodes := by
  simp only [toNodes, removing, useCount, outside, removes, nodes]

theorem toNodes_markOweinact (layer : Layer) (vp : VnodeId) (value : Bool) :
    (layer.markOweinact vp value).toNodes = layer.toNodes :=
  toNodes_congr rfl rfl rfl (nodes_markOweinact layer vp value)

theorem toNodes_markDrop (layer : Layer) (vp : VnodeId) :
    (layer.markDrop vp).toNodes = layer.toNodes :=
  toNodes_congr rfl rfl rfl (nodes_markDrop layer vp)

/-- A release, for the threads. -/
theorem toNodes_vrele (used : 0 < layer.useCount vp) :
    (layer.vrele vp).toNodes = layer.toNodes.vrele vp := by
  have lowered : ({ layer with
      useCount := Function.update layer.useCount vp (layer.useCount vp - 1) } : Layer).toNodes =
      layer.toNodes.vrele vp :=
    congrArg (fun useCount => Nodes.mk useCount _ _) (natCast_pred used)
  rw [vrele]
  split
  · exact (toNodes_markOweinact _ vp true).trans lowered
  · exact lowered

/-- A reference that is handed out, for the threads. -/
theorem toNodes_handOut (layer : Layer) (vp : VnodeId) :
    ((layer.vref vp).setOutside vp (layer.outside vp + 1)).toNodes = layer.toNodes.vref vp := by
  have outside := (congrArg (fun (counts : VnodeId → Int) query =>
    counts query + (layer.removing query : Int)) (natCast_succ layer.outside vp)).trans
    (addAt_add _ _ vp 1)
  exact congrArg₂ (fun useCount outside => Nodes.mk useCount outside _)
    (natCast_succ layer.useCount vp) outside

/-- A reference that is taken back, for the threads. -/
theorem toNodes_takeBack (held : 0 < layer.outside vp) :
    (layer.setOutside vp (layer.outside vp - 1)).toNodes =
      { layer.toNodes with outside := addAt layer.toNodes.outside vp (-1) } := by
  have outside := (congrArg (fun (counts : VnodeId → Int) query =>
    counts query + (layer.removing query : Int)) (natCast_pred held)).trans
    (addAt_add _ _ vp (-1))
  exact congrArg (fun outside => Nodes.mk _ outside _) outside

/-- The end of an alias, for the threads. -/
theorem Sane.toNodes_tptReclaim (sane : Sane nullmCache surplus layer)
    (member : live ∈ layer.hash) :
    (layer.tptReclaim live).toNodes = Nodes.vrele { layer.toNodes with
      hash := layer.nodes.filter fun node => node.tptVnode ≠ live.node.tptVnode }
      live.node.tptLowervp := by
  have used : 0 < (layer.tptHashrem live.node.tptVnode).useCount live.node.tptLowervp :=
    sane.lower_used member
  have gone : (layer.tptHashrem live.node.tptVnode).toNodes = { layer.toNodes with
      hash := layer.nodes.filter fun node => node.tptVnode ≠ live.node.tptVnode } :=
    congrArg (Nodes.mk _ _) (nodes_tptHashrem layer live.node.tptVnode)
  rw [Layer.tptReclaim, toNodes_vrele used, gone]

/-- A reference for the time of an operation. -/
theorem toNodes_vref (layer : Layer) (vp : VnodeId) :
    (layer.vref vp).toNodes =
      { layer.toNodes with useCount := addAt layer.toNodes.useCount vp 1 } :=
  congrArg (fun useCount => Nodes.mk useCount _ _) (natCast_succ layer.useCount vp)

/-- It is given back. -/
theorem vrele_of_vref (nodes : Nodes) (vp : VnodeId) :
    Nodes.vrele { nodes with useCount := addAt nodes.useCount vp 1 } vp = nodes := by
  have back : addAt (addAt nodes.useCount vp 1) vp (-1) = nodes.useCount := by
    funext query
    rw [addAt_apply, addAt_apply]
    by_cases here : query = vp
    · rw [if_pos here, if_pos here]
      exact Int.add_neg_cancel_right _ _
    · rw [if_neg here, if_neg here, Int.add_zero, Int.add_zero]
  exact congrArg (fun useCount => Nodes.mk useCount nodes.outside nodes.hash) back

/-- Two releases in either order. -/
theorem vrele_comm (nodes : Nodes) (vp other : VnodeId) :
    (nodes.vrele vp).vrele other = (nodes.vrele other).vrele vp := by
  have swap : addAt (addAt nodes.useCount vp (-1)) other (-1) =
      addAt (addAt nodes.useCount other (-1)) vp (-1) := by
    funext query
    rw [addAt_apply, addAt_apply, addAt_apply, addAt_apply]
    exact add_right_comm _ _ _
  exact congrArg (fun useCount => Nodes.mk useCount nodes.outside nodes.hash) swap

/-- The change of an outside count for what `tpt_remove` has taken. -/
def taking (taken : Option VnodeId) (change : Int) (nodes : Nodes) : Nodes :=
  { nodes with
    outside := taken.elim nodes.outside (fun lvp => addAt nodes.outside lvp change) }

/-- `tpt_remove` begins. -/
theorem toNodes_remember (layer : Layer) (taken : Option VnodeId) :
    ({ layer with removes := taken :: layer.removes } : Layer).toNodes =
      taking taken 1 layer.toNodes := by
  refine congrArg (fun outside => Nodes.mk _ outside _) ?_
  funext query
  change (layer.outside query : Int) +
    ((taken :: layer.removes).countP fun taken => taken = some query : Nat) = _
  rw [List.countP_cons]
  cases taken with
  | none => rfl
  | some lvp =>
      rw [Option.elim_some, addAt_apply]
      change _ = (layer.outside query : Int) + (layer.removing query : Nat) + _
      rw [removing]
      by_cases here : query = lvp
      · rw [if_pos (by simp [here]), if_pos here]
        omega
      · rw [if_neg (by simpa using Ne.symm here), if_neg here]
        omega

/-- `tpt_remove` is through. -/
theorem toNodes_forget {index : Nat} {taken : Option VnodeId}
    (found : layer.removes[index]? = some taken) :
    ({ layer with removes := layer.removes.eraseIdx index } : Layer).toNodes =
      taking taken (-1) layer.toNodes := by
  refine congrArg (fun outside => Nodes.mk _ outside _) ?_
  funext query
  have counted := countP_eraseIdx_add found fun taken => taken = some query
  change (layer.outside query : Int) +
    ((layer.removes.eraseIdx index).countP fun taken => taken = some query : Nat) = _
  cases taken with
  | none =>
      rw [if_neg (by simp), Nat.add_zero] at counted
      exact congrArg (fun count : Nat => (layer.outside query : Int) + count) counted
  | some lvp =>
      rw [Option.elim_some, addAt_apply]
      change _ = (layer.outside query : Int) + (layer.removing query : Nat) + _
      rw [removing]
      by_cases here : query = lvp
      · rw [if_pos (by simp [here])] at counted
        rw [if_pos here]
        omega
      · rw [if_neg (by simpa using Ne.symm here)] at counted
        rw [if_neg here]
        omega

theorem toNodes_dropped (layer : Layer) (vp : VnodeId) :
    (layer.dropped vp).toNodes = layer.toNodes := by
  have used : 0 < (layer.noticed vp).useCount vp := by
    change 0 < (layer.vref vp).useCount vp
    rw [vref_self]
    exact Nat.succ_pos _
  have noticed : (layer.noticed vp).toNodes = (layer.vref vp).toNodes :=
    toNodes_congr rfl rfl rfl ((nodes_markNounlock _ vp true).trans (nodes_markDrop _ vp))
  rw [dropped, toNodes_vrele used, noticed, toNodes_vref, vrele_of_vref]

end Moves

section Simulation

/-- The threads show a layer, with no reclamation under way. -/
structure Shows (layer : Layer) (threads : Threads) : Prop where
  nodes : threads.nodes = layer.toNodes
  reclaims : threads.reclaims = []

/-- Threads that show a layer can go on to show the next one. -/
def Simulates (nhash : VnodeId → Nat) (layer next : Layer) : Prop :=
  ∀ threads, Shows layer threads →
    ∃ events after, threads.run nhash events = some after ∧ Shows next after

theorem Simulates.of_eq (same : next.toNodes = layer.toNodes) : Simulates nhash layer next :=
  fun threads shows => ⟨[], threads, rfl, shows.nodes.trans same.symm, shows.reclaims⟩

theorem Simulates.trans {middle : Layer} (first : Simulates nhash layer middle)
    (second : Simulates nhash middle next) : Simulates nhash layer next := by
  intro threads shows
  obtain ⟨earlier, between, ran, shown⟩ := first threads shows
  obtain ⟨later, after, rest, reached⟩ := second between shown
  exact ⟨earlier ++ later, after, Threads.run_append ran rest, reached⟩

/-- Everyone else's `vref`. -/
theorem Simulates.acquire (vp : VnodeId) (same : next.toNodes = layer.toNodes.vref vp) :
    Simulates nhash layer next := by
  intro threads shows
  refine ⟨[.acquire vp], _, rfl, ?_, shows.reclaims⟩
  exact (congrArg (fun nodes : Nodes => nodes.vref vp) shows.nodes).trans same.symm

/-- Everyone else's `vrele`. -/
theorem Simulates.release (vp : VnodeId) (held : 0 < layer.toNodes.outside vp)
    (same : next.toNodes = { layer.toNodes.vrele vp with
      outside := addAt layer.toNodes.outside vp (-1) }) : Simulates nhash layer next := by
  intro threads shows
  have spare : 0 < threads.nodes.outside vp := shows.nodes ▸ held
  refine ⟨[.release vp], { threads with nodes := { threads.nodes.vrele vp with
    outside := addAt threads.nodes.outside vp (-1) } }, ?_, ?_, shows.reclaims⟩
  · simp only [Threads.run, Threads.step, if_pos spare, Option.bind_eq_bind, Option.bind_some]
  · rw [same, ← shows.nodes]

/-- The end of an alias is `tpt_hashrem` and the release of its lower vnode. -/
theorem Simulates.reclaim (sane : Sane nullmCache surplus layer) (member : live ∈ layer.hash)
    (same : next.toNodes = (layer.tptReclaim live).toNodes) : Simulates nhash layer next := by
  intro threads shows
  obtain ⟨index, inside, place⟩ := List.getElem_of_mem (node_mem member)
  have found : threads.nodes.hash[index]? = some live.node := by
    rw [shows.nodes]
    exact place ▸ List.getElem?_eq_getElem inside
  refine ⟨_, _, Threads.run_reclaim found, ?_, shows.reclaims⟩
  rw [same, sane.toNodes_tptReclaim member, shows.nodes, ← place]
  exact congrArg (fun hash => Nodes.vrele { layer.toNodes with hash } _)
    (sane.shaped.eraseIdx inside)

/-- `tpt_nodeget` is a call of `tpt_nodeget`. -/
theorem Sane.simulates_tptNodeget (sane : Sane nullmCache (fun _ => 0) layer)
    (held : 0 < layer.outside lowervp) {answer : Option VnodeId}
    (stepped : (layer.setOutside lowervp (layer.outside lowervp - 1)).tptNodeget mp lowervp
      answer = some next) : Simulates nhash layer next := by
  have taken := sane.takeBack held
  obtain ⟨entered, same⟩ :
      ∃ entered, layer.setOutside lowervp (layer.outside lowervp - 1) = entered := ⟨_, rfl⟩
  have used : 0 < entered.useCount lowervp := by
    rw [← same, taken.accounted, plus_self]
    omega
  have brought := toNodes_takeBack held
  have nodes : entered.nodes = layer.nodes := by
    rw [← same]
    rfl
  rw [same] at taken brought stepped
  have unasserted : entered.assert .spare (0 < entered.useCount lowervp) = entered :=
    assert_of_true (decide_eq_true used)
  intro threads shows
  have enter : threads.enter lowervp = entered.toNodes := by
    rw [brought, Threads.enter, shows.nodes]
  have spare : 0 < threads.nodes.outside lowervp := by
    rw [shows.nodes]
    change (0 : Int) < layer.outside lowervp + layer.removing lowervp
    omega
  have searched : nodeSearch threads.nodes.hash mp lowervp =
      (entered.search mp lowervp).map LiveNode.node := by
    rw [search_node, nodes, shows.nodes]
    rfl
  unfold Layer.tptNodeget at stepped
  simp only [unasserted] at stepped
  split at stepped
  · next live found =>
      rw [found, Option.map_some] at searched
      obtain rfl := Option.some.inj stepped
      refine ⟨_, _, Threads.run_nodeget_found spare searched (Threads.willing 0), ?_,
        shows.reclaims⟩
      have counted : 0 < ((entered.vref live.node.tptVnode).setOutside live.node.tptVnode
          (entered.outside live.node.tptVnode + 1)).useCount lowervp := by
        by_cases same : lowervp = live.node.tptVnode
        · rw [same]
          exact Nat.lt_of_lt_of_eq (Nat.succ_pos _) (vref_self entered _).symm
        · exact used.trans_eq (vref_of_ne same).symm
      rw [toNodes_vrele counted, toNodes_handOut, enter]
  · next found =>
      rw [found, Option.map_none] at searched
      split at stepped
      · obtain rfl := Option.some.inj stepped
        refine ⟨_, _, Threads.run_nodeget_noVnode spare searched 0, ?_, shows.reclaims⟩
        rw [toNodes_vrele used, enter]
        rfl
      · next vp =>
          obtain ⟨fresh, made⟩ := Option.ite_none_right_eq_some.mp stepped
          obtain rfl := Option.some.inj made
          have unused : threads.nodes.useCount vp = 0 := by
            have count : layer.useCount = entered.useCount := by
              rw [← same]
              rfl
            rw [shows.nodes]
            change ((layer.useCount vp : Nat) : Int) = 0
            rw [count, fresh.1]
            rfl
          refine ⟨_, _, Threads.run_nodeget_made spare searched unused, ?_, shows.reclaims⟩
          have given := toNodes_handOut entered vp
          have hash : threads.nodes.hash = entered.nodes := by
            rw [shows.nodes, nodes]
            rfl
          rw [enter, ← given, hash]
          rfl

theorem Sane.simulates_vinactive (sane : Sane nullmCache surplus layer)
    (member : live ∈ layer.hash) : Simulates nhash layer (layer.vinactive nullmCache live) := by
  rw [sane.vinactive_eq member]
  split
  · exact .reclaim sane member rfl
  · exact .of_eq (toNodes_markOweinact layer _ false)

theorem toNodes_tptRename (layer : Layer) (fvp tdvp : MountId) (tvp : Option LiveNode) :
    (layer.tptRename fvp tdvp tvp).toNodes = layer.toNodes := by
  unfold tptRename
  split
  · rfl
  · split
    · rfl
    · exact toNodes_markDrop layer _

theorem toNodes_tptfsUnlinked (layer : Layer) (vp : VnodeId) :
    (layer.tptfsUnlinked vp).toNodes = layer.toNodes := by
  refine toNodes_congr ?_ ?_ ?_ (nodes_tptfsUnlinked layer vp)
  all_goals
    rw [tptfsUnlinked]
    simp only
    split
    · rfl
    · rfl

theorem Sane.simulates_tptfsReclaimLowervp (sane : Sane nullmCache (fun _ => 0) layer) :
    Simulates nhash layer (layer.tptfsReclaimLowervp mp lowervp) := by
  rw [tptfsReclaimLowervp]
  split
  · exact .of_eq rfl
  · next live found =>
      obtain ⟨member, -, -⟩ := search_eq_some found
      have referred := sane.vref live.node.tptVnode
      have gone : ((layer.vref live.node.tptVnode).markNounlock live.node.tptVnode true).vgone
          live.node.tptVnode = (layer.vref live.node.tptVnode).tptReclaim live :=
        vgone_setFlags (fun _ => rfl) (referred.vtonull_of_mem member)
      simp only [gone]
      refine .reclaim sane member ?_
      -- the reference on the alias is given back behind the one on its lower vnode
      have used : 0 < ((layer.vref live.node.tptVnode).tptReclaim live).useCount
          live.node.tptVnode := by
        rw [(referred.tptReclaim member).accounted, plus_self]
        omega
      rw [toNodes_vrele used, referred.toNodes_tptReclaim member, toNodes_vref, vrele_comm,
        sane.toNodes_tptReclaim member]
      exact congrArg (fun nodes : Nodes => nodes.vrele live.node.tptLowervp)
        (vrele_of_vref { layer.toNodes with
          hash := layer.nodes.filter fun node => node.tptVnode ≠ live.node.tptVnode } _)

theorem Sound.simulates_tptfsUnlinkLowervp (sound : Sound nullmCache layer)
    (free : layer.free mp lowervp = true) (inactive : Bool) :
    Simulates nhash layer (layer.tptfsUnlinkLowervp nullmCache mp lowervp inactive) := by
  cases found : layer.search mp lowervp with
  | none =>
      rw [Layer.tptfsUnlinkLowervp, found]
      exact .of_eq rfl
  | some live =>
      obtain ⟨marked, member, -, -, released, same⟩ :=
        sound.tptfsUnlinkLowervp_eq free found inactive
      have dropped : Simulates nhash layer (layer.dropped live.node.tptVnode) :=
        .of_eq (toNodes_dropped layer _)
      rw [same]
      split
      · exact dropped.trans (released.sane.simulates_vinactive member)
      · exact dropped

theorem Sane.simulates_tptRemove (sane : Sane nullmCache surplus layer)
    (member : live ∈ layer.hash) : Simulates nhash layer (layer.tptRemove vp live) := by
  rw [tptRemove]
  split
  · simp only [sane.tptCheckvp member]
    refine .acquire live.node.tptLowervp ?_
    exact (toNodes_remember ((layer.vref live.node.tptLowervp).markDrop vp) _).trans
      ((congrArg (taking _ 1) (toNodes_markDrop _ vp)).trans
        (congrArg (taking _ 1) (toNodes_vref layer _)))
  · exact .of_eq ((toNodes_remember (layer.markDrop vp) none).trans (toNodes_markDrop layer vp))

theorem Sane.simulates_removed {index : Nat} {taken : Option VnodeId}
    (sane : Sane nullmCache (fun _ => 0) layer) (found : layer.removes[index]? = some taken) :
    Simulates nhash layer (taken.elim { layer with removes := layer.removes.eraseIdx index }
      fun lvp => ({ layer with removes := layer.removes.eraseIdx index } : Layer).vrele lvp) := by
  have forgotten := sane.forget found
  have shown := toNodes_forget found
  cases taken with
  | none => exact .of_eq shown
  | some lvp =>
      have used : 0 < ({ layer with removes := layer.removes.eraseIdx index } :
          Layer).useCount lvp := by
        rw [forgotten.accounted, Option.elim_some, plus_self]
        omega
      have counted : 0 < layer.removing lvp :=
        List.countP_pos_iff.mpr ⟨some lvp, List.mem_of_getElem? found, by simp⟩
      refine .release lvp ?_ ?_
      · change (0 : Int) < layer.outside lvp + layer.removing lvp
        omega
      · rw [Option.elim_some, toNodes_vrele used, shown]
        rfl

/-- **Every event is a run of the threads.** -/
theorem Sound.simulates (sound : Sound nullmCache layer) {event : LayerEvent}
    (stepped : layer.step nullmCache event = some next) : Simulates nhash layer next := by
  have sane := sound.sane
  cases event with
  | acquire vp =>
      obtain rfl := Option.some.inj stepped
      exact .acquire vp (toNodes_handOut layer vp)
  | release vp =>
      obtain ⟨held, same⟩ := Option.ite_none_right_eq_some.mp stepped
      obtain rfl := Option.some.inj same
      have taken := sane.takeBack held
      have used : 0 < (layer.setOutside vp (layer.outside vp - 1)).useCount vp := by
        rw [taken.accounted, plus_self]
        omega
      refine .release vp ?_ ?_
      · change (0 : Int) < layer.outside vp + layer.removing vp
        omega
      · rw [toNodes_vrele used, toNodes_takeBack held]
        rfl
  | inactive vp =>
      obtain ⟨live, found, -, -, rfl⟩ := step_inactive stepped
      exact sane.simulates_vinactive (vtonull_eq_some found).1
  | nodeget mp lowervp answer =>
      obtain ⟨held, made⟩ := Option.ite_none_right_eq_some.mp stepped
      exact sane.simulates_tptNodeget held made
  | remove vp =>
      obtain ⟨live, found, rfl⟩ := Option.map_eq_some_iff.mp stepped
      exact sane.simulates_tptRemove (vtonull_eq_some (named_eq_some found).2).1
  | removed index =>
      obtain ⟨taken, found, rfl⟩ := step_removed stepped
      exact sane.simulates_removed found
  | rename fvp tdvp tvp =>
      cases tvp with
      | none =>
          obtain rfl := Option.some.inj stepped
          exact .of_eq (toNodes_tptRename layer fvp tdvp none)
      | some tvp =>
          obtain ⟨live, -, rfl⟩ := Option.map_eq_some_iff.mp stepped
          exact .of_eq (toNodes_tptRename layer fvp tdvp (some live))
  | rmdir vp =>
      obtain ⟨live, -, rfl⟩ := Option.map_eq_some_iff.mp stepped
      exact .of_eq (toNodes_markDrop layer vp)
  | vgone vp =>
      obtain ⟨-, same⟩ := Option.ite_none_right_eq_some.mp stepped
      obtain rfl := Option.some.inj same
      rw [Layer.vgone]
      split
      · exact .of_eq rfl
      · next live found => exact .reclaim sane (vtonull_eq_some found).1 rfl
  | reclaimLowervp mp lowervp =>
      obtain ⟨-, same⟩ := Option.ite_none_right_eq_some.mp stepped
      obtain rfl := Option.some.inj same
      exact sane.simulates_tptfsReclaimLowervp
  | unlinkLowervp mp lowervp inactive =>
      obtain ⟨free, same⟩ := Option.ite_none_right_eq_some.mp stepped
      obtain rfl := Option.some.inj same
      exact sound.simulates_tptfsUnlinkLowervp free inactive
  | unlinked vp =>
      obtain ⟨-, same⟩ := Option.ite_none_right_eq_some.mp stepped
      obtain rfl := Option.some.inj same
      exact .of_eq (toNodes_tptfsUnlinked layer vp)
  | nosync vp value =>
      obtain rfl := Option.some.inj stepped
      exact .of_eq rfl

/-- **Every run of layers is a run of the threads**, so what holds of the nodes whatever the
threads do, holds of them here. -/
theorem Sound.simulates_run {events : List LayerEvent} (sound : Sound nullmCache layer)
    (ran : layer.run nullmCache events = some next) : Simulates nhash layer next := by
  induction events generalizing layer with
  | nil =>
      obtain rfl := Option.some.inj ran
      exact .of_eq rfl
  | cons event events ih =>
      obtain ⟨middle, stepped, rest⟩ := Option.bind_eq_some_iff.mp ran
      exact (sound.simulates stepped).trans (ih (sound.step stepped) rest)

/-- A mount has one alias of a lower vnode. -/
theorem unique_key {outside : VnodeId → Nat} {events : List LayerEvent}
    (ran : (initial outside).run nullmCache events = some layer) :
    (layer.nodes.map TptNode.key).Nodup := by
  have shown : Shows (initial outside) (Threads.initial outside) := by
    refine ⟨congrArg (fun counts => Nodes.mk _ counts []) ?_, rfl⟩
    funext vp
    exact (Int.add_zero _).symm
  have simulated : Simulates (fun _ => 0) (initial outside) layer :=
    (sound_initial outside).simulates_run ran
  obtain ⟨events, threads, threadsRan, shows⟩ := simulated _ shown
  have sound : threads.Sound := (Threads.initial_sound outside).run threadsRan
  have unique := sound.unique
  rw [shows.nodes] at unique
  exact unique

end Simulation

end Layer

end Lifetimes

end Tptfs
