import LearningKernels.Tptfs.NodeHash

/-!
# Calls that nobody overtakes

What the threads of `tpt_nodeget` and `tpt_reclaim` do when a call runs through with no other step
in between: one lemma for each way out of it.
-/

namespace Tptfs

namespace Threads

variable {nhash : VnodeId → Nat} {threads : Threads} {mp : MountId} {lowervp vp : VnodeId}
  {node : TptNode} {nodes after : Nodes} {call next : Nodeget} {calls : List Nodeget}
  {reclaims : List TptNode} {answers : Answers} {events : List Event}

/-- The call that came last goes on. -/
theorem run_head (moved : call.step nhash answers nodes = some (after, next)) :
    run nhash ⟨nodes, call :: calls, reclaims⟩ (.run 0 answers :: events) =
      run nhash ⟨after, next :: calls, reclaims⟩ events := by
  simp only [run, step, List.getElem?_cons_zero, Option.bind_eq_bind, Option.bind_some, moved,
    List.set_cons_zero, pure]

theorem run_append {middle last : Threads} {more : List Event}
    (first : threads.run nhash events = some middle) (second : middle.run nhash more = some last) :
    threads.run nhash (events ++ more) = some last := by
  induction events generalizing threads with
  | nil =>
      obtain rfl := Option.some.inj first
      exact second
  | cons event events ih =>
      obtain ⟨between, stepped, rest⟩ := Option.bind_eq_some_iff.mp first
      exact Option.bind_eq_some_iff.mpr ⟨between, stepped, ih rest⟩

/-- `tpt_hashrem`, and the release behind it. -/
theorem run_reclaim {index : Nat} (found : threads.nodes.hash[index]? = some node) :
    threads.run nhash [.hashrem index, .dropLower 0 0] =
      some { threads with nodes := Nodes.vput { threads.nodes with
        hash := threads.nodes.hash.eraseIdx index } node.tptLowervp } := by
  simp only [run, step, found, Option.bind_eq_bind, Option.bind_some, List.getElem?_cons_zero,
    List.eraseIdx_cons_zero, pure]
  rfl

/-- The nodes when a call has come with its spare reference. -/
def enter (threads : Threads) (lowervp : VnodeId) : Nodes :=
  { threads.nodes with outside := addAt threads.nodes.outside lowervp (-1) }

/-- A call comes. -/
theorem run_nodeget (spare : 0 < threads.nodes.outside lowervp) :
    threads.run nhash (.nodeget mp lowervp :: events) =
      run nhash ⟨threads.enter lowervp, ⟨mp, lowervp, .hashget, 0⟩ :: threads.calls,
        threads.reclaims⟩ events := by
  simp only [run, step, if_pos spare, Option.bind_eq_bind, Option.bind_some, enter]

/-- The first step of a call that finds a node. -/
theorem hashget_found (found : nodeSearch nodes.hash mp lowervp = some node) (consumed : Nat) :
    Nodeget.step nhash answers nodes ⟨mp, lowervp, .hashget, consumed⟩ =
      some (nodes.vref node.tptVnode, ⟨mp, lowervp, .found node.tptVnode, consumed⟩) := by
  simp only [Nodeget.step, Nodes.tptHashget, Nodes.search_eq, found]

/-- The first step of a call that finds none. -/
theorem hashget_absent (absent : nodeSearch nodes.hash mp lowervp = none) (consumed : Nat) :
    Nodeget.step nhash answers nodes ⟨mp, lowervp, .hashget, consumed⟩ =
      some (nodes, ⟨mp, lowervp, .upgrade, consumed⟩) := by
  simp only [Nodeget.step, Nodes.tptHashget, Nodes.search_eq, absent]

section Nodeget

variable (spare : 0 < threads.nodes.outside lowervp)

include spare

/-- A call of `tpt_nodeget` that finds a node. -/
theorem run_nodeget_found (found : nodeSearch threads.nodes.hash mp lowervp = some node)
    (answers : Answers) :
    threads.run nhash [.nodeget mp lowervp, .run 0 answers, .run 0 answers] =
      some ⟨((threads.enter lowervp).vref node.tptVnode).vrele lowervp,
        ⟨mp, lowervp, .returned (.ok node.tptVnode), 1⟩ :: threads.calls, threads.reclaims⟩ := by
  have there : nodeSearch (threads.enter lowervp).hash mp lowervp = some node := found
  rw [run_nodeget spare, run_head (hashget_found there 0), run_head rfl]
  rfl

/-- A call of `tpt_nodeget` that gets no vnode. -/
theorem run_nodeget_noVnode (absent : nodeSearch threads.nodes.hash mp lowervp = none)
    (error : Nat) :
    threads.run nhash (.nodeget mp lowervp ::
        List.replicate 4 (.run 0 ⟨true, false, .error error, 0⟩)) =
      some ⟨(threads.enter lowervp).vput lowervp,
        ⟨mp, lowervp, .returned (.error error), 1⟩ :: threads.calls, threads.reclaims⟩ := by
  have missed : nodeSearch (threads.enter lowervp).hash mp lowervp = none := absent
  rw [run_nodeget spare, List.replicate, run_head (hashget_absent missed 0), List.replicate,
    run_head rfl, List.replicate, run_head rfl, List.replicate, run_head rfl]
  rfl

/-- A call of `tpt_nodeget` that makes a node. -/
theorem run_nodeget_made (absent : nodeSearch threads.nodes.hash mp lowervp = none)
    (unused : threads.nodes.useCount vp = 0) :
    threads.run nhash (.nodeget mp lowervp :: List.replicate 5 (.run 0 (willing vp))) =
      some ⟨{ (threads.enter lowervp).vref vp with
          hash := ⟨lowervp, vp, mp⟩ :: threads.nodes.hash },
        ⟨mp, lowervp, .returned (.ok vp), 1⟩ :: threads.calls, threads.reclaims⟩ := by
  have missed : nodeSearch (threads.enter lowervp).hash mp lowervp = none := absent
  have fresh : Nodeget.step nhash (willing vp) (threads.enter lowervp)
      ⟨mp, lowervp, .getnewvnode, 0⟩ =
      some ((threads.enter lowervp).vref vp, ⟨mp, lowervp, .insmntque vp, 0⟩) := if_pos unused
  have made : Nodeget.step nhash (willing vp) ((threads.enter lowervp).vref vp)
      ⟨mp, lowervp, .hashins vp, 0⟩ =
      some ({ (threads.enter lowervp).vref vp with
        hash := ⟨lowervp, vp, mp⟩ :: threads.nodes.hash },
        ⟨mp, lowervp, .returned (.ok vp), 1⟩) := by
    have again : nodeSearch ((threads.enter lowervp).vref vp).hash mp lowervp = none := absent
    simp only [Nodeget.step, Nodes.tptHashins, Nodes.search_eq, again]
    rfl
  rw [run_nodeget spare, List.replicate, run_head (hashget_absent missed 0), List.replicate,
    run_head rfl, List.replicate, run_head fresh, List.replicate, run_head rfl, List.replicate,
    run_head made]
  rfl

end Nodeget

end Threads

end Tptfs
