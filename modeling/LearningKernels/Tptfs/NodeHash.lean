import Mathlib.Data.List.Nodup
import LearningKernels.Tptfs.AliasAccounting

/-!
# The hash of nodes

What `tpt_hashget`, `tpt_hashins` and `tpt_hashrem` are to each other, whatever else is in the
state: under `tpt_hash_lock` a node goes in whose key is not there, or a node goes out. The calls
of `tpt_nodeget` and `tpt_reclaim` do no more to the hash than that
(`Tptfs.Threads.Sound.step_hash`).
-/

namespace Tptfs

/-- A search through all nodes. -/
def nodeSearch (hash : List TptNode) (mp : MountId) (lowervp : VnodeId) : Option TptNode :=
  hash.find? fun node => node.tptLowervp = lowervp ∧ node.vMount = mp

/-- What happens to the hash at once. -/
inductive HashStep (hash : List TptNode) : List TptNode → Prop where
  | same : HashStep hash hash
  | hashins (xp : TptNode) (absent : nodeSearch hash xp.vMount xp.tptLowervp = none) :
      HashStep hash (xp :: hash)
  | hashrem (xp : TptNode) (member : xp ∈ hash) : HashStep hash (hash.erase xp)

variable {hash after : List TptNode} {mp : MountId} {lowervp : VnodeId}

theorem nodeSearch_eq_none_iff :
    nodeSearch hash mp lowervp = none ↔ (mp, lowervp) ∉ hash.map TptNode.key := by
  rw [nodeSearch, List.find?_eq_none, List.mem_map]
  constructor
  · rintro absent ⟨node, member, same⟩
    obtain ⟨mount, lower⟩ := Prod.mk.inj same
    exact absent node member (by simp [mount, lower])
  · intro absent node member found
    obtain ⟨lower, mount⟩ := of_decide_eq_true found
    exact absent ⟨node, member, Prod.ext mount lower⟩

/-- No key comes into the hash twice. -/
theorem HashStep.unique (step : HashStep hash after) (unique : (hash.map TptNode.key).Nodup) :
    (after.map TptNode.key).Nodup := by
  cases step with
  | same => exact unique
  | hashins xp absent =>
      rw [List.map_cons, List.nodup_cons]
      exact ⟨nodeSearch_eq_none_iff.mp absent, unique⟩
  | hashrem xp member => exact unique.sublist (List.erase_sublist.map _)

theorem HashStep.of_eq (same : after = hash) : HashStep hash after := same ▸ .same

/-- The place of a node does not matter when it goes. -/
theorem HashStep.eraseIdx (unique : (hash.map TptNode.key).Nodup) {index : Nat} {xp : TptNode}
    (found : hash[index]? = some xp) : HashStep hash (hash.eraseIdx index) := by
  obtain ⟨inside, rfl⟩ := List.getElem?_eq_some_iff.mp found
  have once : hash.Nodup := unique.of_map TptNode.key
  rw [← List.erase_eq_eraseIdx_of_idxOf (once.idxOf_getElem index inside)]
  exact .hashrem _ (List.getElem_mem inside)

/-- The search of a list of the hash table is that of all nodes. -/
theorem Nodes.search_eq (nhash : VnodeId → Nat) (nodes : Nodes) (mp : MountId)
    (lowervp : VnodeId) : nodes.search nhash mp lowervp = nodeSearch nodes.hash mp lowervp := by
  rw [search, bucket, nodeSearch, List.find?_filter]
  congr 1
  funext node
  by_cases lower : node.tptLowervp = lowervp
  · simp [lower]
  · simp [lower]

namespace Threads

variable {nhash : VnodeId → Nat} {threads next : Threads}

/-- **One event is one change of the hash**, at most. -/
theorem Sound.step_hash (sound : threads.Sound) {event : Event}
    (stepped : threads.step nhash event = some next) :
    HashStep threads.nodes.hash next.nodes.hash := by
  cases event with
  | acquire vp =>
      cases stepped
      exact .same
  | release vp =>
      simp only [Threads.step] at stepped
      split at stepped
      · cases stepped
        exact .same
      · cases stepped
  | nodeget mp lowervp =>
      simp only [Threads.step] at stepped
      split at stepped
      · cases stepped
        exact .same
      · cases stepped
  | run index answers =>
      obtain ⟨call, -, stepped⟩ := Option.bind_eq_some_iff.mp stepped
      obtain ⟨⟨nodes, after⟩, moved, ended⟩ := Option.bind_eq_some_iff.mp stepped
      cases ended
      cases Nodeget.step_effect moved with
      | quiet stage before later => exact .same
      | refer vp stage before later => exact .same
      | release stage before later => exact .same
      | insert vp before absent =>
          rw [Nodes.search_eq] at absent
          exact .hashins ⟨call.lowervp, vp, call.mp⟩ absent
      | destroy vp result before => exact .same
  | hashrem index =>
      obtain ⟨node, found, ended⟩ := Option.bind_eq_some_iff.mp stepped
      cases ended
      exact .eraseIdx sound.unique found
  | dropLower index tptFlags =>
      obtain ⟨node, -, ended⟩ := Option.bind_eq_some_iff.mp stepped
      cases ended
      refine .of_eq ?_
      change (if _ then _ else _ : Nodes).hash = _
      split
      · rfl
      · rfl

end Threads

end Tptfs
