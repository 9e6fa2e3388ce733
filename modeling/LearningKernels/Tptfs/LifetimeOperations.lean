import LearningKernels.Tptfs.AliasAccounting
import LearningKernels.Tptfs.LifetimeSteps

/-!
# What each operation keeps

References change hands, nodes come and are marked, and each operation is made of such changes
and of releases. `NULLV_NOUNLOCK` is set within an operation only: `tptfs_reclaim_lowervp` ends
the node that it sets the flag on, and `tptfs_unlink_lowervp` has the node locked until it is
gone, or clears the flag.
-/

namespace Tptfs

namespace Lifetimes

namespace Layer

variable {nullmCache : MountId → Bool} {layer next : Layer} {surplus : VnodeId → Nat}
  {vp lowervp : VnodeId} {mp : MountId} {live : LiveNode}

theorem vref_self (layer : Layer) (vp : VnodeId) :
    (layer.vref vp).useCount vp = layer.useCount vp + 1 := Function.update_self _ _ _

theorem vref_of_ne {other : VnodeId} (apart : other ≠ vp) :
    (layer.vref vp).useCount other = layer.useCount other := Function.update_of_ne apart _ _

theorem Sane.vref (sane : Sane nullmCache surplus layer) (vp : VnodeId) :
    Sane nullmCache (plus vp surplus) (layer.vref vp) := by
  obtain ⟨shaped, kept, accounted, calm⟩ := sane
  refine ⟨shaped, ?_, ?_, calm⟩
  · intro live member unused
    by_cases here : live.node.tptVnode = vp
    · rw [here, vref_self] at unused
      exact absurd unused (Nat.succ_ne_zero _)
    · rw [vref_of_ne here] at unused
      exact kept live member unused
  · intro other
    change _ = layer.outside other + layer.aliases other + layer.removing other + _
    by_cases here : other = vp
    · subst here
      rw [vref_self, plus_self, accounted]
      omega
    · rw [vref_of_ne here, plus_of_ne here, accounted]

/-- A spare reference is handed out. -/
theorem Sane.handOut (sane : Sane nullmCache (plus vp surplus) layer) :
    Sane nullmCache surplus (layer.setOutside vp (layer.outside vp + 1)) := by
  obtain ⟨shaped, kept, accounted, calm⟩ := sane
  refine ⟨shaped, kept, ?_, calm⟩
  intro other
  have before := accounted other
  change layer.useCount other = Function.update layer.outside vp (layer.outside vp + 1) other +
    layer.aliases other + layer.removing other + surplus other
  by_cases here : other = vp
  · subst here
    rw [plus_self] at before
    rw [Function.update_self, before]
    omega
  · rw [plus_of_ne here] at before
    rw [Function.update_of_ne here, before]

/-- A reference is taken back to be released. -/
theorem Sane.takeBack (sane : Sane nullmCache surplus layer) (held : 0 < layer.outside vp) :
    Sane nullmCache (plus vp surplus) (layer.setOutside vp (layer.outside vp - 1)) := by
  obtain ⟨shaped, kept, accounted, calm⟩ := sane
  refine ⟨shaped, kept, ?_, calm⟩
  intro other
  have before := accounted other
  change layer.useCount other = Function.update layer.outside vp (layer.outside vp - 1) other +
    layer.aliases other + layer.removing other + plus vp surplus other
  by_cases here : other = vp
  · subst here
    rw [plus_self, Function.update_self, before]
    omega
  · rw [plus_of_ne here, Function.update_of_ne here, before]

/-- A new node takes over the spare reference on its lower vnode. -/
theorem Sane.insert (sane : Sane nullmCache (plus lowervp surplus) layer)
    (fresh : vp ∉ layer.nodes.map TptNode.tptVnode)
    (unknown : ∀ node ∈ layer.nodes, node.tptLowervp ≠ vp) (apart : lowervp ≠ vp)
    (used : layer.useCount vp ≠ 0) :
    Sane nullmCache surplus
      { layer with hash := ⟨⟨lowervp, vp, mp⟩, false, false, false⟩ :: layer.hash } := by
  obtain ⟨shaped, kept, accounted, calm⟩ := sane
  refine ⟨shaped.cons fresh unknown apart, ?_, ?_, calm⟩
  · exact List.forall_mem_cons.mpr ⟨fun unused => absurd unused used, kept⟩
  · intro other
    have before := accounted other
    change layer.useCount other = layer.outside other +
      (⟨⟨lowervp, vp, mp⟩, false, false, false⟩ :: layer.hash).countP
        (fun live => live.node.tptLowervp = other) + layer.removing other + surplus other
    rw [List.countP_cons]
    rw [aliases] at before
    by_cases here : other = lowervp
    · subst here
      rw [plus_self] at before
      simp only [decide_true, ↓reduceIte]
      omega
    · rw [plus_of_ne here] at before
      simp only [Ne.symm here, decide_false, Bool.false_eq_true, ↓reduceIte]
      omega

/-- A mark is only made on a vnode in use. -/
theorem Sane.markDrop (sane : Sane nullmCache surplus layer) (used : layer.useCount vp ≠ 0) :
    Sane nullmCache surplus (layer.markDrop vp) := by
  refine (sane.but vp).setFlags (fun _ => rfl) ?_
  intro live member here unused
  exact absurd unused (here ▸ used)

theorem Sane.markNounlock (sane : Sane nullmCache surplus layer) (vp : VnodeId) (value : Bool) :
    Sane nullmCache surplus (layer.markNounlock vp value) :=
  (sane.but vp).setFlags (fun _ => rfl) fun live member _ => sane.kept live member

/-- A node has `NULLV_NOUNLOCK` while `tptfs_unlink_lowervp` is about it, or when an assertion
has failed. -/
def Flagged (layer : Layer) : Prop :=
  ∀ live ∈ layer.hash, live.nullvNounlock = true →
    live.node.tptVnode ∈ layer.unlinks ∨ layer.failed ≠ []

theorem Flagged.keeps (flagged : Flagged layer) (keeps : Keeps layer next) : Flagged next := by
  intro live member set
  obtain ⟨old, before, node, flag⟩ := keeps.hash live member
  rw [keeps.unlinks, keeps.failed, ← node]
  exact flagged old before (flag.trans set)

/-- The invariant between two steps. -/
structure Sound (nullmCache : MountId → Bool) (layer : Layer) : Prop where
  sane : Sane nullmCache (fun _ => 0) layer
  flagged : Flagged layer
  once : layer.unlinks.Nodup

theorem Sound.vrele (sane : Sane nullmCache (plus vp fun _ => 0) layer)
    (flagged : Flagged layer) (once : layer.unlinks.Nodup) :
    Sound nullmCache (layer.vrele vp) := by
  have keeps := keeps_vrele layer vp
  exact ⟨sane.vrele, flagged.keeps keeps, keeps.unlinks ▸ once⟩

theorem Sound.inactive (sound : Sound nullmCache layer) (member : live ∈ layer.hash) :
    Sound nullmCache (layer.vinactive nullmCache live) := by
  have keeps := sound.sane.keeps_vinactive member
  exact ⟨sound.sane.vinactive member, sound.flagged.keeps keeps, keeps.unlinks ▸ sound.once⟩

theorem Sound.vgone (sound : Sound nullmCache layer) (vp : VnodeId) :
    Sound nullmCache (layer.vgone vp) := by
  have keeps := keeps_vgone layer vp
  exact ⟨sound.sane.vgone vp, sound.flagged.keeps keeps, keeps.unlinks ▸ sound.once⟩

/-- `tpt_nodeget`, with the spare reference of its caller. -/
theorem Sound.tptNodeget (sane : Sane nullmCache (plus lowervp fun _ => 0) layer)
    (flagged : Flagged layer) (once : layer.unlinks.Nodup) {answer : Option VnodeId}
    (stepped : layer.tptNodeget mp lowervp answer = some next) : Sound nullmCache next := by
  have used : 0 < layer.useCount lowervp := by
    rw [sane.accounted, plus_self]
    omega
  have unasserted : layer.assert .spare (0 < layer.useCount lowervp) = layer :=
    assert_of_true (decide_eq_true used)
  unfold Layer.tptNodeget at stepped
  simp only [unasserted] at stepped
  split at stepped
  · -- the alias is there: its reference is handed out, the spare one is released
    next live found =>
      obtain rfl := Option.some.inj stepped
      have given := (sane.vref live.node.tptVnode).handOut
      exact Sound.vrele given flagged once
  · split at stepped
    · obtain rfl := Option.some.inj stepped
      exact Sound.vrele sane flagged once
    · next vp =>
        split at stepped
        · next fresh =>
            obtain rfl := Option.some.inj stepped
            have given := (sane.vref vp).handOut
            have counted : (layer.vref vp).useCount vp ≠ 0 := by
              rw [vref_self]
              exact Nat.succ_ne_zero _
            have absent : vp ∉ layer.nodes.map TptNode.tptVnode := by
              rw [← isSome_vtonull_iff, fresh.2.1]
              exact Bool.false_ne_true
            -- nobody uses the new vnode, so no node is over it
            have unknown : ∀ node ∈ layer.nodes, node.tptLowervp ≠ vp := by
              intro node member above
              obtain ⟨live, among, rfl⟩ := List.mem_map.mp member
              have least := sane.lower_used among
              rw [above, fresh.1] at least
              exact absurd least (by decide)
            have apart : lowervp ≠ vp := by
              rintro rfl
              exact absurd fresh.1 (Nat.ne_of_gt used)
            exact ⟨given.insert absent unknown apart counted,
              List.forall_mem_cons.mpr ⟨(fun set => nomatch set), flagged⟩, once⟩
        · cases stepped

/-- A reference on a vnode counts. -/
theorem Sane.used_of_outside (sane : Sane nullmCache surplus layer)
    (held : 0 < layer.outside vp) : layer.useCount vp ≠ 0 := by
  have counted := sane.accounted vp
  omega

theorem named_eq_some (found : layer.named vp = some live) :
    0 < layer.outside vp ∧ layer.vtonull vp = some live := by
  rw [named] at found
  split at found
  · next held => exact ⟨held, found⟩
  · cases found

theorem keeps_markDrop (layer : Layer) (vp : VnodeId) : Keeps layer (layer.markDrop vp) :=
  keeps_setFlags layer vp fun _ => ⟨rfl, rfl⟩

theorem Sound.marked (sound : Sound nullmCache layer) (found : layer.named vp = some live) :
    Sound nullmCache (layer.markDrop vp) :=
  ⟨sound.sane.markDrop (sound.sane.used_of_outside (named_eq_some found).1),
    sound.flagged.keeps (keeps_markDrop layer vp), sound.once⟩

theorem Sound.tptRename {fvp tdvp : MountId} {tvp : Option LiveNode}
    (sound : Sound nullmCache layer)
    (found : ∀ live, tvp = some live → layer.named live.node.tptVnode = some live) :
    Sound nullmCache (layer.tptRename fvp tdvp tvp) := by
  unfold Layer.tptRename
  split
  · exact sound
  · split
    · exact sound
    · next live _ => exact sound.marked (found live rfl)

/-- `tpt_remove` keeps the spare reference for the time of the lower operation. -/
theorem Sane.remember (sane : Sane nullmCache (plus lowervp surplus) layer) :
    Sane nullmCache surplus { layer with removes := some lowervp :: layer.removes } := by
  obtain ⟨shaped, kept, accounted, calm⟩ := sane
  refine ⟨shaped, kept, ?_, calm⟩
  intro other
  have before := accounted other
  change layer.useCount other = layer.outside other + layer.aliases other +
    (some lowervp :: layer.removes).countP (fun taken => taken = some other) + surplus other
  rw [List.countP_cons]
  rw [removing] at before
  by_cases here : other = lowervp
  · subst here
    rw [plus_self] at before
    simp only [decide_true, ↓reduceIte]
    omega
  · rw [plus_of_ne here] at before
    have apart : some lowervp ≠ some other := fun same => here (Option.some.inj same).symm
    simp only [apart, decide_false, Bool.false_eq_true, ↓reduceIte]
    omega

theorem Sound.tptRemove (sound : Sound nullmCache layer) (found : layer.named vp = some live) :
    Sound nullmCache (layer.tptRemove vp live) := by
  obtain ⟨held, there⟩ := named_eq_some found
  obtain ⟨member, here⟩ := vtonull_eq_some there
  have used := sound.sane.used_of_outside held
  rw [Layer.tptRemove]
  split
  · simp only [sound.sane.tptCheckvp member]
    have counted : (layer.vref live.node.tptLowervp).useCount vp ≠ 0 := by
      by_cases same : vp = live.node.tptLowervp
      · rw [same, vref_self]
        exact Nat.succ_ne_zero _
      · rw [vref_of_ne same]
        exact used
    have flagged : Flagged (layer.vref live.node.tptLowervp) := sound.flagged
    have marked := flagged.keeps (keeps_markDrop _ vp)
    exact ⟨((sound.sane.vref _).markDrop counted).remember, marked, sound.once⟩
  · obtain ⟨⟨shaped, kept, accounted, calm⟩, flagged, once⟩ := sound.marked found
    refine ⟨⟨shaped, kept, ?_, calm⟩, flagged, once⟩
    intro other
    have before := accounted other
    change _ = layer.outside other + (layer.markDrop vp).aliases other +
      (none :: layer.removes).countP (fun taken => taken = some other) + 0
    rw [List.countP_cons_of_neg (by simp)]
    exact before

/-- The end of `tpt_remove` gives the reference back. -/
theorem Sane.forget {index : Nat} {taken : Option VnodeId} (sane : Sane nullmCache surplus layer)
    (found : layer.removes[index]? = some taken) :
    Sane nullmCache (taken.elim surplus fun lvp => plus lvp surplus)
      { layer with removes := layer.removes.eraseIdx index } := by
  obtain ⟨shaped, kept, accounted, calm⟩ := sane
  refine ⟨shaped, kept, ?_, calm⟩
  intro other
  have before := accounted other
  have counted := countP_eraseIdx_add found fun taken => taken = some other
  change layer.useCount other = layer.outside other + layer.aliases other +
    (layer.removes.eraseIdx index).countP (fun taken => taken = some other) + _
  rw [removing] at before
  cases taken with
  | none =>
      rw [if_neg (by simp)] at counted
      rw [Option.elim_none]
      omega
  | some lvp =>
      rw [Option.elim_some]
      by_cases here : other = lvp
      · subst here
        rw [if_pos (by simp)] at counted
        rw [plus_self]
        omega
      · rw [if_neg (by simpa using Ne.symm here)] at counted
        rw [plus_of_ne here]
        omega

/-- The node that has `NULLV_NOUNLOCK` is gone. -/
theorem Sound.tptfsReclaimLowervp (sound : Sound nullmCache layer) :
    Sound nullmCache (layer.tptfsReclaimLowervp mp lowervp) := by
  rw [Layer.tptfsReclaimLowervp]
  split
  · exact sound
  · next live found =>
      obtain ⟨member, -, -⟩ := search_eq_some found
      have sane := sound.sane.vref live.node.tptVnode
      have there : (layer.vref live.node.tptVnode).vtonull live.node.tptVnode = some live :=
        sane.vtonull_of_mem member
      have gone : ((layer.vref live.node.tptVnode).markNounlock live.node.tptVnode true).vgone
          live.node.tptVnode = (layer.vref live.node.tptVnode).tptReclaim live :=
        vgone_setFlags (fun _ => rfl) there
      have keeps := keeps_tptReclaim (layer.vref live.node.tptVnode) live
      have flagged : Flagged (layer.vref live.node.tptVnode) := sound.flagged
      have once : (layer.vref live.node.tptVnode).unlinks.Nodup := sound.once
      simp only [gone]
      exact Sound.vrele (sane.tptReclaim member) (flagged.keeps keeps) (keeps.unlinks ▸ once)

/-- The alias in front of the release of `tptfs_unlink_lowervp`. -/
def noticed (vp : VnodeId) (layer : Layer) : Layer :=
  let layer := ((layer.vref vp).markDrop vp).markNounlock vp true
  { layer with unlinks := vp :: layer.unlinks }

theorem Sound.noticed (sound : Sound nullmCache layer) (free : vp ∉ layer.unlinks) :
    Sane nullmCache (plus vp fun _ => 0) (layer.noticed vp) ∧ Flagged (layer.noticed vp) ∧
      (layer.noticed vp).unlinks.Nodup := by
  have counted : (layer.vref vp).useCount vp ≠ 0 := by
    rw [vref_self]
    exact Nat.succ_ne_zero _
  obtain ⟨shaped, kept, accounted, calm⟩ :=
    ((sound.sane.vref vp).markDrop counted).markNounlock vp true
  refine ⟨⟨shaped, kept, accounted, calm⟩, ?_, List.nodup_cons.mpr ⟨free, sound.once⟩⟩
  intro marked member set
  obtain ⟨dropped, among, rfl⟩ := List.mem_map.mp member
  by_cases here : dropped.node.tptVnode = vp
  · rw [if_pos here]
    exact .inl (here ▸ List.mem_cons_self)
  · rw [if_neg here] at set ⊢
    obtain ⟨live, before, node, flag⟩ := (keeps_markDrop (layer.vref vp) vp).hash dropped among
    rw [← node]
    exact (sound.flagged live before (flag.trans set)).imp_left (List.mem_cons_of_mem vp)

theorem Sound.tptfsUnlinkLowervp (sound : Sound nullmCache layer) {inactive : Bool}
    (free : layer.free mp lowervp = true) :
    Sound nullmCache (layer.tptfsUnlinkLowervp nullmCache mp lowervp inactive) := by
  rw [Layer.tptfsUnlinkLowervp]
  split
  · exact sound
  · next live found =>
      rw [Layer.free, found, Option.all_some, decide_eq_true_eq] at free
      obtain ⟨sane, flagged, once⟩ := sound.noticed free
      have released := Sound.vrele sane flagged once
      dsimp only
      split
      · exact released
      · next marked there =>
          split
          · exact released.inactive (vtonull_eq_some there).1
          · exact released

/-- The end of the lock of `tptfs_unlink_lowervp`, with one of its assertions. -/
theorem Sane.closed (sane : Sane nullmCache surplus layer) {assertion : Assertion}
    {condition : Bool} (either : assertion = .notReclaimed ∨ assertion = .reclaimed) :
    Sane nullmCache surplus
      (({ layer with unlinks := layer.unlinks.erase vp } : Layer).assert assertion condition) := by
  obtain ⟨shaped, kept, accounted, calm⟩ := sane
  refine ⟨shaped, kept, accounted, ?_⟩
  rw [assert]
  split
  · exact calm
  · exact List.forall_mem_cons.mpr ⟨either, calm⟩

theorem Flagged.closed (flagged : Flagged layer) (member : live ∈ layer.hash)
    (set : live.nullvNounlock = true) (apart : live.node.tptVnode ≠ vp) (assertion : Assertion)
    (condition : Bool) :
    live.node.tptVnode ∈ layer.unlinks.erase vp ∨
      (layer.assert assertion condition).failed ≠ [] := by
  refine (flagged live member set).imp (List.mem_erase_of_ne apart).mpr ?_
  intro before
  rw [assert]
  split
  · exact before
  · exact List.cons_ne_nil _ _

theorem Sound.tptfsUnlinked (sound : Sound nullmCache layer) :
    Sound nullmCache (layer.tptfsUnlinked vp) := by
  obtain ⟨sane, flagged, once⟩ := sound
  rw [Layer.tptfsUnlinked]
  simp only
  split
  · refine ⟨sane.closed (.inl rfl), ?_, once.erase vp⟩
    intro live member set
    cases gone : layer.vtonull vp with
    | none =>
        exact flagged.closed member set (vtonull_eq_none_iff.mp gone live member) _ _
    | some found =>
        refine .inr ?_
        have fails : (layer.vtonull vp).isNone = false := by rw [gone, Option.isNone_some]
        change (if (layer.vtonull vp).isNone then layer.failed else _) ≠ []
        rw [fails, if_neg Bool.false_ne_true]
        exact List.cons_ne_nil _ _
  · refine ⟨(sane.closed (.inr rfl)).markNounlock vp false, ?_, once.erase vp⟩
    intro marked member set
    obtain ⟨live, among, rfl⟩ := List.mem_map.mp member
    by_cases here : live.node.tptVnode = vp
    · rw [if_pos here] at set
      cases set
    · rw [if_neg here] at set ⊢
      exact flagged.closed among set here _ _

end Layer

end Lifetimes

end Tptfs
