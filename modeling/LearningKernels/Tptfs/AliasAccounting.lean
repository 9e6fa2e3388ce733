import LearningKernels.Tptfs.Alias

/-!
# Aliases are unique and references balanced

Whatever a call of `tpt_nodeget` does, it does one of five things to the nodes
(`Tptfs.Nodeget.Effect`); each keeps the keys of the hash distinct and the use counts
equal to what the outside, the calls, the hash and the reclamations hold. Both therefore
hold after every sequence of events (`Tptfs.Threads.run_accounting`).
-/

namespace Tptfs

section Counting

variable {α : Type} {list : List α} {index : Nat} {old : α}

/-- Replacing an element exchanges its contribution to a count. -/
theorem countP_set_add (found : list[index]? = some old) (new : α) (p : α → Bool) :
    (list.set index new).countP p + (if p old then 1 else 0) =
      list.countP p + if p new then 1 else 0 := by
  obtain ⟨bounded, rfl⟩ := List.getElem?_eq_some_iff.mp found
  have counted := List.boole_getElem_le_countP (p := p) bounded
  rw [List.countP_set bounded]
  omega

/-- Removing an element takes its contribution from a count. -/
theorem countP_eraseIdx_add (found : list[index]? = some old) (p : α → Bool) :
    (list.eraseIdx index).countP p + (if p old then 1 else 0) = list.countP p := by
  induction list generalizing index with
  | nil => cases found
  | cons first rest ih =>
      cases index with
      | zero =>
          cases found
          rw [List.eraseIdx_cons_zero, List.countP_cons]
      | succ index =>
          have shorter := ih found
          rw [List.eraseIdx_cons_succ, List.countP_cons, List.countP_cons]
          omega

end Counting

theorem addAt_apply (counts : VnodeId → Int) (vp : VnodeId) (change : Int) (query : VnodeId) :
    addAt counts vp change query = counts query + if query = vp then change else 0 := by
  by_cases same : query = vp
  · subst same
    rw [addAt, Function.update_self, if_pos rfl]
  · rw [addAt, Function.update_of_ne same, if_neg same, Int.add_zero]

/-- What a node is unique for. -/
def TptNode.key (node : TptNode) : MountId × VnodeId := (node.vMount, node.tptLowervp)

/-- A search that finds nothing leaves no node with its key. -/
theorem Nodes.key_absent {nhash : VnodeId → Nat} {nodes : Nodes} {mp : MountId}
    {lowervp : VnodeId} (absent : nodes.search nhash mp lowervp = none) :
    (mp, lowervp) ∉ nodes.hash.map TptNode.key := by
  intro member
  obtain ⟨node, hashed, same⟩ := List.mem_map.mp member
  obtain ⟨mount, lower⟩ := Prod.mk.inj same
  have inBucket : node ∈ nodes.bucket nhash lowervp := by
    rw [Nodes.bucket, List.mem_filter, lower]
    exact ⟨hashed, by simp⟩
  have missed := List.find?_eq_none.mp absent node inBucket
  exact missed (by simp [mount, lower])

/-- Whether the call is past the point where its reference is consumed. -/
def Stage.settled : Stage → Bool
  | .destroyProto _ _ => true
  | .returned _ => true
  | _ => false

namespace Nodeget

variable {nhash : VnodeId → Nat} {answers : Answers} {nodes after : Nodes} {call next : Nodeget}

/-- **The effects of a step**: none on the nodes, a reference handed out, the spare reference
released, the spare reference left to a new node in the hash, or the call's own vnode given
up. -/
inductive Effect (nhash : VnodeId → Nat) (nodes : Nodes) (call : Nodeget) :
    Nodes → Nodeget → Prop where
  | quiet (stage : Stage) (before : call.stage.settled = false) (later : stage.settled = false) :
      Effect nhash nodes call nodes { call with stage := stage }
  | refer (vp : VnodeId) (stage : Stage) (before : call.stage.settled = false)
      (later : stage.settled = false) :
      Effect nhash nodes call (nodes.vref vp) { call with stage := stage }
  | release (stage : Stage) (before : call.stage.settled = false) (later : stage.settled = true) :
      Effect nhash nodes call (nodes.vrele call.lowervp)
        { call with stage := stage, consumed := call.consumed + 1 }
  | insert (vp : VnodeId) (before : call.stage.settled = false)
      (absent : nodes.search nhash call.mp call.lowervp = none) :
      Effect nhash nodes call
        { nodes with hash := ⟨call.lowervp, vp, call.mp⟩ :: nodes.hash }
        { call with stage := .returned (.ok vp), consumed := call.consumed + 1 }
  | destroy (vp : VnodeId) (result : Except Nat VnodeId) (before : call.stage.settled = true) :
      Effect nhash nodes call (nodes.destroyProto vp) { call with stage := .returned result }

theorem step_effect (stepped : call.step nhash answers nodes = some (after, next)) :
    Effect nhash nodes call after next := by
  obtain ⟨mp, lowervp, stage, consumed⟩ := call
  cases stage with
  | hashget =>
      simp only [step, Nodes.tptHashget] at stepped
      cases found : nodes.search nhash mp lowervp with
      | some node =>
          rw [found] at stepped
          cases stepped
          exact .refer _ _ rfl rfl
      | none =>
          rw [found] at stepped
          cases stepped
          exact .quiet _ rfl rfl
  | found vp =>
      cases stepped
      exact .release _ rfl rfl
  | upgrade =>
      simp only [step] at stepped
      split at stepped
      · cases stepped
        exact .quiet _ rfl rfl
      · cases stepped
        exact .quiet _ rfl rfl
  | doomed =>
      cases stepped
      exact .release _ rfl rfl
  | getnewvnode =>
      simp only [step] at stepped
      cases made : answers.getnewvnode with
      | error error =>
          rw [made] at stepped
          cases stepped
          exact .quiet _ rfl rfl
      | ok vp =>
          simp only [made] at stepped
          split at stepped
          · cases stepped
            exact .refer _ _ rfl rfl
          · cases stepped
  | noVnode error =>
      cases stepped
      exact .release _ rfl rfl
  | insmntque vp =>
      simp only [step] at stepped
      split at stepped
      · cases stepped
        exact .quiet _ rfl rfl
      · cases stepped
        exact .quiet _ rfl rfl
  | destructor vp error =>
      cases stepped
      exact .release _ rfl rfl
  | hashins vp =>
      simp only [step, Nodes.tptHashins] at stepped
      cases found : nodes.search nhash mp lowervp with
      | some node =>
          rw [found] at stepped
          cases stepped
          exact .refer _ _ rfl rfl
      | none =>
          rw [found] at stepped
          cases stepped
          exact .insert vp rfl found
  | lost vp ovp =>
      cases stepped
      exact .release _ rfl rfl
  | destroyProto vp result =>
      cases stepped
      exact .destroy vp result rfl
  | returned result => cases stepped

/-- The references a call in its stage has consumed. -/
def Settles (call : Nodeget) : Prop := call.consumed = if call.stage.settled then 1 else 0

/-- The spare reference of a call on a vnode. -/
def owed (call : Nodeget) (vp : VnodeId) : Nat :=
  if call.lowervp = vp ∧ call.consumed = 0 then 1 else 0

theorem Settles.unsettled (settles : call.Settles) (before : call.stage.settled = false) :
    call.consumed = 0 := by
  rw [Settles, before] at settles
  exact settles

theorem Settles.settled (settles : call.Settles) (before : call.stage.settled = true) :
    call.consumed = 1 := by
  rw [Settles, before] at settles
  exact settles

theorem owed_of_zero (unspent : call.consumed = 0) (vp : VnodeId) :
    call.owed vp = if call.lowervp = vp then 1 else 0 := by
  simp only [owed, unspent, and_true]

theorem owed_of_succ {count : Nat} (spent : call.consumed = count + 1) (vp : VnodeId) :
    call.owed vp = 0 := by
  simp only [owed, spent, Nat.add_one_ne_zero, and_false, ↓reduceIte]

/-- A call consumes its reference once, when it settles. -/
theorem Effect.settles (effect : Effect nhash nodes call after next) (settles : call.Settles) :
    next.Settles := by
  cases effect with
  | quiet stage before later =>
      rw [Settles, later]
      exact settles.unsettled before
  | refer vp stage before later =>
      rw [Settles, later]
      exact settles.unsettled before
  | release stage before later =>
      simp only [Settles, later, settles.unsettled before, ↓reduceIte]
  | insert vp before absent =>
      simp only [Settles, Stage.settled, settles.unsettled before, ↓reduceIte]
  | destroy vp result before => exact settles.settled before

/-- No key comes into the hash twice. -/
theorem Effect.unique (effect : Effect nhash nodes call after next)
    (unique : (nodes.hash.map TptNode.key).Nodup) : (after.hash.map TptNode.key).Nodup := by
  cases effect with
  | quiet => exact unique
  | refer => exact unique
  | release => exact unique
  | insert vp before absent =>
      rw [List.map_cons, List.nodup_cons]
      exact ⟨Nodes.key_absent absent, unique⟩
  | destroy => exact unique

/-- A step moves references, it neither makes nor loses any: use count, outside references,
nodes in the hash and the spare reference of the call change together. -/
theorem Effect.balance (effect : Effect nhash nodes call after next) (settles : call.Settles)
    (vp : VnodeId) :
    after.useCount vp + nodes.outside vp +
        (nodes.hash.countP (fun node => node.tptLowervp = vp) : Nat) + (call.owed vp : Nat) =
      nodes.useCount vp + after.outside vp +
        (after.hash.countP (fun node => node.tptLowervp = vp) : Nat) + (next.owed vp : Nat) := by
  cases effect with
  | quiet stage before later => rfl
  | refer other stage before later =>
      simp only [Nodes.vref, addAt_apply, owed]
      omega
  | release stage before later =>
      rw [owed_of_zero (settles.unsettled before), owed_of_succ rfl]
      simp only [Nodes.vrele, addAt_apply]
      by_cases same : vp = call.lowervp
      · rw [if_pos same, if_pos same.symm]
        omega
      · rw [if_neg same, if_neg (Ne.symm same)]
        omega
  | insert other before absent =>
      rw [owed_of_zero (settles.unsettled before), owed_of_succ rfl]
      simp only [List.countP_cons, decide_eq_true_eq]
      omega
  | destroy other result before =>
      simp only [Nodes.destroyProto, Nodes.vput, Nodes.vrele, addAt_apply, owed]
      omega

end Nodeget

namespace Threads

variable {nhash : VnodeId → Nat} {threads next : Threads}

/-- **The invariant**: the keys in the hash are distinct, every call has consumed what its
stage says, and every use count is accounted for. -/
structure Sound (threads : Threads) : Prop where
  unique : (threads.nodes.hash.map TptNode.key).Nodup
  settles : ∀ call ∈ threads.calls, call.Settles
  balanced : ∀ vp, threads.nodes.useCount vp = threads.nodes.outside vp + threads.pending vp +
    threads.hashed vp + threads.reclaiming vp

theorem initial_sound (outside : VnodeId → Nat) : (initial outside).Sound where
  unique := List.nodup_nil
  settles _ member := by cases member
  balanced vp := by simp [initial, pending, hashed, reclaiming]

theorem Sound.outside_changed (sound : threads.Sound) (vp : VnodeId) (change : Int) :
    Sound { threads with
      nodes := { threads.nodes with
        useCount := addAt threads.nodes.useCount vp change
        outside := addAt threads.nodes.outside vp change } } where
  unique := sound.unique
  settles := sound.settles
  balanced query := by
    have balanced := sound.balanced query
    simp only [pending, hashed, reclaiming, addAt_apply] at balanced ⊢
    omega

/-- A new call brings a reference from outside. -/
theorem Sound.called (sound : threads.Sound) (mp : MountId) (lowervp : VnodeId) :
    Sound { threads with
      nodes := { threads.nodes with outside := addAt threads.nodes.outside lowervp (-1) }
      calls := ⟨mp, lowervp, .hashget, 0⟩ :: threads.calls } where
  unique := sound.unique
  settles call member := by
    rcases List.mem_cons.mp member with rfl | earlier
    · rfl
    · exact sound.settles call earlier
  balanced query := by
    have balanced := sound.balanced query
    simp only [pending, hashed, reclaiming, addAt_apply, List.countP_cons] at balanced ⊢
    by_cases same : lowervp = query
    · simp only [same, and_self, decide_true, ↓reduceIte]
      omega
    · simp only [same, Ne.symm same, false_and, decide_false, Bool.false_eq_true, ↓reduceIte]
      omega

theorem Sound.ran (sound : threads.Sound) {index : Nat} {call after : Nodeget} {nodes : Nodes}
    (found : threads.calls[index]? = some call)
    (effect : Nodeget.Effect nhash threads.nodes call nodes after) :
    Sound { threads with nodes := nodes, calls := threads.calls.set index after } where
  unique := effect.unique sound.unique
  settles other member := by
    rcases List.mem_or_eq_of_mem_set member with earlier | rfl
    · exact sound.settles other earlier
    · exact effect.settles (sound.settles call (List.mem_of_getElem? found))
  balanced query := by
    have balanced := sound.balanced query
    have moved := effect.balance (sound.settles call (List.mem_of_getElem? found)) query
    have counted := countP_set_add found after fun call => call.lowervp = query ∧ call.consumed = 0
    simp only [Nodeget.owed] at moved
    simp only [decide_eq_true_eq] at counted
    simp only [pending, hashed, reclaiming] at balanced ⊢
    omega

/-- A node taken out of the hash keeps its reference until it is dropped. -/
theorem Sound.removed (sound : threads.Sound) {index : Nat} {node : TptNode}
    (found : threads.nodes.hash[index]? = some node) :
    Sound { threads with
      nodes := { threads.nodes with hash := threads.nodes.hash.eraseIdx index }
      reclaims := node :: threads.reclaims } where
  unique := sound.unique.sublist ((List.eraseIdx_sublist _ _).map _)
  settles := sound.settles
  balanced query := by
    have balanced := sound.balanced query
    have counted := countP_eraseIdx_add found fun node => node.tptLowervp = query
    simp only [pending, hashed, reclaiming, List.countP_cons] at balanced ⊢
    omega

/-- The reference of a node that left the hash is dropped. -/
theorem Sound.dropped (sound : threads.Sound) {index : Nat} {node : TptNode}
    (found : threads.reclaims[index]? = some node) :
    Sound { threads with
      nodes := threads.nodes.vrele node.tptLowervp
      reclaims := threads.reclaims.eraseIdx index } where
  unique := sound.unique
  settles := sound.settles
  balanced query := by
    have balanced := sound.balanced query
    have counted := countP_eraseIdx_add found fun node => node.tptLowervp = query
    simp only [decide_eq_true_eq] at counted
    simp only [pending, hashed, reclaiming, Nodes.vrele, addAt_apply] at balanced ⊢
    by_cases same : query = node.tptLowervp
    · rw [if_pos same.symm] at counted
      rw [if_pos same]
      omega
    · rw [if_neg (Ne.symm same)] at counted
      rw [if_neg same]
      omega

/-- **One event** keeps the invariant. -/
theorem Sound.step (sound : threads.Sound) {event : Event}
    (stepped : threads.step nhash event = some next) : next.Sound := by
  cases event with
  | acquire vp =>
      cases stepped
      exact sound.outside_changed vp 1
  | release vp =>
      simp only [Threads.step] at stepped
      split at stepped
      · cases stepped
        exact sound.outside_changed vp (-1)
      · cases stepped
  | nodeget mp lowervp =>
      simp only [Threads.step] at stepped
      split at stepped
      · cases stepped
        exact sound.called mp lowervp
      · cases stepped
  | run index answers =>
      obtain ⟨call, found, stepped⟩ := Option.bind_eq_some_iff.mp stepped
      obtain ⟨⟨nodes, after⟩, moved, ended⟩ := Option.bind_eq_some_iff.mp stepped
      cases ended
      exact sound.ran found (Nodeget.step_effect moved)
  | hashrem index =>
      obtain ⟨node, found, ended⟩ := Option.bind_eq_some_iff.mp stepped
      cases ended
      exact sound.removed found
  | dropLower index tptFlags =>
      obtain ⟨node, found, ended⟩ := Option.bind_eq_some_iff.mp stepped
      cases ended
      -- `vunref` and `vput` differ in the lock only.
      simpa only [Nodes.vunref, Nodes.vput, ite_self] using sound.dropped found

/-- **Any sequence of events** keeps the invariant. -/
theorem Sound.run (sound : threads.Sound) {events : List Event}
    (ran : threads.run nhash events = some next) : next.Sound := by
  induction events generalizing threads with
  | nil =>
      cases ran
      exact sound
  | cons event rest ih =>
      obtain ⟨middle, stepped, later⟩ := Option.bind_eq_some_iff.mp ran
      exact ih (sound.step stepped) later

/-- Whatever the calls of `tpt_nodeget` and `tpt_reclaim` do and in whatever order: the hash
holds at most one node for each mount and lower vnode, the use count of every vnode is the
outside references, the spare references of calls, the nodes in the hash and the nodes under
reclamation, and a call that has returned has consumed exactly one reference. -/
theorem run_accounting (nhash : VnodeId → Nat) (outside : VnodeId → Nat) (events : List Event)
    (threads : Threads) (ran : (initial outside).run nhash events = some threads) :
    (∀ mp lowervp, threads.nodes.hash.countP (fun node =>
        node.vMount = mp ∧ node.tptLowervp = lowervp) ≤ 1) ∧
      (∀ vp, threads.nodes.useCount vp = threads.nodes.outside vp + threads.pending vp +
        threads.hashed vp + threads.reclaiming vp) ∧
      ∀ call ∈ threads.calls, ∀ result, call.stage = .returned result → call.consumed = 1 := by
  have sound := (initial_sound outside).run ran
  refine ⟨?_, sound.balanced, ?_⟩
  · intro mp lowervp
    have once := List.nodup_iff_count_le_one.mp sound.unique (mp, lowervp)
    rw [List.count, List.countP_map] at once
    refine le_trans (le_of_eq ?_) once
    apply List.countP_congr
    intro node _
    simp [TptNode.key]
  · intro call member result stage
    apply (sound.settles call member).settled
    rw [stage]
    rfl

/-- Answers that let a call through, with this vnode as the new one. -/
def willing (vp : VnodeId) : Answers := ⟨true, false, .ok vp, 0⟩

/-- Two calls on mount 0 and lower vnode 1 miss each other in the hash; the second insertion
loses, and the alias of the first is reclaimed. -/
def raceEvents : List Event :=
  [.nodeget 0 1, .nodeget 0 1, .run 0 (willing 7), .run 1 (willing 8), .run 0 (willing 7),
   .run 1 (willing 8), .run 0 (willing 7), .run 1 (willing 8), .run 0 (willing 7),
   .run 1 (willing 8), .run 1 (willing 8), .run 0 (willing 7), .run 0 (willing 7),
   .run 0 (willing 7), .hashrem 0, .dropLower 0 0]

theorem run_accounting_race :
    ∃ threads, (initial fun vp => if vp = 1 then 2 else 0).run id raceEvents = some threads ∧
      (∀ mp lowervp, threads.nodes.hash.countP (fun node =>
          node.vMount = mp ∧ node.tptLowervp = lowervp) ≤ 1) ∧
        (∀ vp, threads.nodes.useCount vp = threads.nodes.outside vp + threads.pending vp +
          threads.hashed vp + threads.reclaiming vp) ∧
        ∀ call ∈ threads.calls, ∀ result, call.stage = .returned result → call.consumed = 1 := by
  have goesThrough :
      ((initial fun vp => if vp = 1 then 2 else 0).run id raceEvents).isSome = true := by decide
  obtain ⟨threads, ran⟩ := Option.isSome_iff_exists.mp goesThrough
  exact ⟨threads, ran, run_accounting id _ raceEvents threads ran⟩

end Threads

end Tptfs
