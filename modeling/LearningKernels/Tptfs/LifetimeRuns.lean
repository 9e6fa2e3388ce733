import LearningKernels.Tptfs.LifetimeOperations

/-!
# Aliases over whole runs

Every sequence of operations keeps the invariant (`Tptfs.Lifetimes.Layer.Sound.run_keeps`). So
an alias that nobody uses is on a caching mount and not marked as removed, or the kernel still
owes it inactive processing (`Tptfs.Lifetimes.Layer.idle_alias_kept`); an assertion of
`tptfs_unlink_lowervp` fails exactly when the alias goes out of use, or comes into use, behind
its back, and no other assertion fails (`Tptfs.Lifetimes.Layer.unlink_fails_iff`); and
`tpt_remove` shows the lower file system whether the file is in use
(`Tptfs.Lifetimes.Layer.remove_shows_use`).
-/

namespace Tptfs

namespace Lifetimes

namespace Layer

variable {nullmCache : MountId → Bool} {layer next : Layer} {vp lowervp : VnodeId} {mp : MountId}
  {live : LiveNode} {event : LayerEvent}

/-- **What every event keeps.** -/
theorem Sound.step (sound : Sound nullmCache layer)
    (stepped : layer.step nullmCache event = some next) : Sound nullmCache next := by
  cases event with
  | acquire vp =>
      obtain rfl := Option.some.inj stepped
      exact ⟨(sound.sane.vref vp).handOut, sound.flagged, sound.once⟩
  | release vp =>
      obtain ⟨held, same⟩ := Option.ite_none_right_eq_some.mp stepped
      obtain rfl := Option.some.inj same
      exact Sound.vrele (sound.sane.takeBack held) sound.flagged sound.once
  | inactive vp =>
      simp only [Layer.step] at stepped
      split at stepped
      · cases stepped
      · next live found =>
          obtain ⟨-, same⟩ := Option.ite_none_right_eq_some.mp stepped
          obtain rfl := Option.some.inj same
          exact sound.inactive (vtonull_eq_some found).1
  | nodeget mp lowervp answer =>
      obtain ⟨held, made⟩ := Option.ite_none_right_eq_some.mp stepped
      exact Sound.tptNodeget (sound.sane.takeBack held) sound.flagged sound.once made
  | remove vp =>
      obtain ⟨live, found, rfl⟩ := Option.map_eq_some_iff.mp stepped
      exact sound.tptRemove found
  | removed index =>
      simp only [Layer.step] at stepped
      split at stepped
      · cases stepped
      · next taken found =>
          have sane := sound.sane.forget found
          split at stepped
          · obtain rfl := Option.some.inj stepped
            exact ⟨sane, sound.flagged, sound.once⟩
          · obtain rfl := Option.some.inj stepped
            exact Sound.vrele sane sound.flagged sound.once
  | rename fvp tdvp tvp =>
      cases tvp with
      | none =>
          obtain rfl := Option.some.inj stepped
          exact sound.tptRename (fun _ absent => absurd absent (Option.some_ne_none _).symm)
      | some tvp =>
          obtain ⟨live, found, rfl⟩ := Option.map_eq_some_iff.mp stepped
          refine sound.tptRename ?_
          intro _ same
          obtain rfl := Option.some.inj same
          rw [(vtonull_eq_some (named_eq_some found).2).2]
          exact found
  | rmdir vp =>
      obtain ⟨live, found, rfl⟩ := Option.map_eq_some_iff.mp stepped
      exact sound.marked found
  | vgone vp =>
      obtain ⟨-, same⟩ := Option.ite_none_right_eq_some.mp stepped
      obtain rfl := Option.some.inj same
      exact sound.vgone vp
  | reclaimLowervp mp lowervp =>
      obtain ⟨-, same⟩ := Option.ite_none_right_eq_some.mp stepped
      obtain rfl := Option.some.inj same
      exact sound.tptfsReclaimLowervp
  | unlinkLowervp mp lowervp inactive =>
      obtain ⟨free, same⟩ := Option.ite_none_right_eq_some.mp stepped
      obtain rfl := Option.some.inj same
      exact sound.tptfsUnlinkLowervp free
  | unlinked vp =>
      obtain ⟨-, same⟩ := Option.ite_none_right_eq_some.mp stepped
      obtain rfl := Option.some.inj same
      exact sound.tptfsUnlinked
  | nosync vp value =>
      obtain rfl := Option.some.inj stepped
      exact ⟨⟨sound.sane.shaped, sound.sane.kept, sound.sane.accounted, sound.sane.calm⟩,
        sound.flagged, sound.once⟩

theorem sound_initial (outside : VnodeId → Nat) : Sound nullmCache (initial outside) where
  sane := ⟨⟨List.nodup_nil, .nil, List.forall_mem_nil _⟩, List.forall_mem_nil _, fun _ => rfl,
    List.forall_mem_nil _⟩
  flagged := List.forall_mem_nil _
  once := List.nodup_nil

/-- **The invariant over runs.** -/
theorem Sound.run_keeps {events : List LayerEvent} (sound : Sound nullmCache layer)
    (ran : layer.run nullmCache events = some next) : Sound nullmCache next := by
  induction events generalizing layer with
  | nil =>
      obtain rfl := Option.some.inj ran
      exact sound
  | cons event events ih =>
      obtain ⟨middle, stepped, rest⟩ := Option.bind_eq_some_iff.mp ran
      exact ih (sound.step stepped) rest

section Results

variable {outside : VnodeId → Nat} {events : List LayerEvent}

/-- **In every run an alias that nobody uses, and for which nothing is owed, is on a caching mount
and not marked as removed**, and the uses of a vnode are those of the outside, of the aliases
over it and of the removals under way. -/
theorem idle_alias_kept (ran : (initial outside).run nullmCache events = some layer) :
    (∀ live ∈ layer.hash, layer.useCount live.node.tptVnode = 0 → live.viOweinact = false →
      nullmCache live.node.vMount = true ∧ live.nullvDrop = false) ∧
    ∀ vp, layer.useCount vp = layer.outside vp + layer.aliases vp + layer.removing vp := by
  have sound := (sound_initial outside).run_keeps ran
  exact ⟨sound.sane.kept, sound.sane.accounted⟩

/-- Two mounts, of which the second one caches. -/
def secondCaches (mp : MountId) : Bool := mp = 2

/-- One vnode with one reference. -/
def oneFile (vp : VnodeId) : Nat := if vp = 1 then 1 else 0

/-- An alias is looked up twice, removed by one of its two users, whose lower file system tells
the mount, and released once. -/
def removedInUse : List LayerEvent :=
  [.acquire 1, .nodeget 2 1 (some 7), .acquire 1, .nodeget 2 1 none, .remove 7,
    .unlinkLowervp 2 1 true, .unlinked 7, .removed 0, .release 7]

/-- A cached alias without users, and one on the other mount that has gone with its last user. -/
def cachedAlias : List LayerEvent :=
  [.acquire 1, .nodeget 2 1 (some 7), .acquire 1, .nodeget 1 1 (some 8), .release 7, .release 8,
    .inactive 7, .inactive 8]

theorem idle_alias_kept_cached :
    ∃ layer live, (initial oneFile).run secondCaches cachedAlias = some layer ∧
      layer.hash = [live] ∧ layer.useCount 7 = 0 ∧ live.viOweinact = false ∧
      (secondCaches live.node.vMount = true ∧ live.nullvDrop = false) ∧
      layer.useCount 1 = layer.outside 1 + layer.aliases 1 + layer.removing 1 := by
  obtain ⟨kept, accounted⟩ := @idle_alias_kept secondCaches _ oneFile cachedAlias rfl
  exact ⟨_, _, rfl, rfl, rfl, rfl, kept _ (List.mem_singleton.mpr rfl) rfl rfl, accounted 1⟩

/-- **`tpt_remove` shows the lower file system the use of the file**: its vnode has more than
one use exactly when the alias or the vnode itself had, and the reference taken is there until
the end of the removal, next to that of an alias. -/
theorem remove_shows_use (ran : (initial outside).run nullmCache events = some layer) :
    (∀ vp live, layer.named vp = some live →
      (1 < (layer.tptRemove vp live).useCount live.node.tptLowervp ↔
        1 < layer.useCount vp ∨ 1 < layer.useCount live.node.tptLowervp)) ∧
    ∀ lvp, some lvp ∈ layer.removes →
      0 < layer.useCount lvp ∧ (0 < layer.aliases lvp → 1 < layer.useCount lvp) := by
  have sane := ((sound_initial outside).run_keeps ran).sane
  constructor
  · intro vp live found
    obtain ⟨member, -⟩ := vtonull_eq_some (named_eq_some found).2
    have lower := sane.lower_used member
    rw [Layer.tptRemove]
    split
    · next used =>
        simp only [sane.tptCheckvp member]
        change 1 < (layer.vref live.node.tptLowervp).useCount live.node.tptLowervp ↔ _
        rw [vref_self]
        exact ⟨fun _ => .inl used, fun _ => by omega⟩
    · next alone =>
        change 1 < layer.useCount live.node.tptLowervp ↔ _
        exact ⟨.inr, fun either => either.resolve_left alone⟩
  · intro lvp member
    have counted : 0 < layer.removing lvp := List.countP_pos_iff.mpr ⟨_, member, by simp⟩
    have total := sane.accounted lvp
    omega

/-- The removal of an alias with two users is under way, and the second one could remove it,
too. -/
theorem remove_shows_use_removing :
    ∃ layer live, (initial oneFile).run secondCaches (removedInUse.take 5) = some layer ∧
      layer.named 7 = some live ∧ live.node.tptLowervp = 1 ∧
      1 < (layer.tptRemove 7 live).useCount live.node.tptLowervp ∧ 1 < layer.useCount 1 := by
  obtain ⟨shown, meanwhile⟩ :=
    @remove_shows_use secondCaches _ oneFile (removedInUse.take 5) rfl
  exact ⟨_, _, rfl, rfl, rfl, (shown 7 _ rfl).mpr (.inl (by decide)),
    (meanwhile 1 (List.mem_singleton.mpr rfl)).2 (by decide)⟩

end Results

end Layer

end Lifetimes

end Tptfs
