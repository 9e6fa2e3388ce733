import Mathlib.Data.List.Basic
import LearningKernels.Tptfs.AliasAccounting

/-!
# The bypass operation

`tpt_bypass` of `tpt_vnops.c`, which hands an operation down with the lower vnodes in the
argument structure and puts the upper ones back afterwards. The references that an
operation drops on its arguments are taken on the lower vnodes beforehand and given up on
the upper ones afterwards, so that both layers are in balance
(`Tptfs.bypassCall_balanced`). The lower operation is a parameter, and so is the wrapping of
a vnode that comes out of it.
-/

namespace Tptfs

/-- A vnode field of an argument structure, or `NULLVP`. -/
abbrev Slot := Option VnodeId

/-- What the bypass sees of the vnodes: their use counts, whether their operations are
`tpt_vnodeops`, the lower vnode of the live ones of these, the lock each one uses, and the
locks this thread holds exclusively. -/
structure Vnodes where
  useCount : VnodeId → Int
  isTptfs : VnodeId → Bool
  lowervp : VnodeId → Option VnodeId
  vnlock : VnodeId → Nat
  exclusive : Nat → Bool

namespace Vnodes

/-- `VREF`. -/
def vref (vnodes : Vnodes) (vp : VnodeId) : Vnodes :=
  { vnodes with useCount := addAt vnodes.useCount vp 1 }

/-- `vrele`, on a vnode that stays in use. -/
def vrele (vnodes : Vnodes) (vp : VnodeId) : Vnodes :=
  { vnodes with useCount := addAt vnodes.useCount vp (-1) }

/-- `VOP_UNLOCK`. -/
def vopUnlock (vnodes : Vnodes) (vp : VnodeId) : Vnodes :=
  { vnodes with exclusive := Function.update vnodes.exclusive (vnodes.vnlock vp) false }

/-- `VOP_LOCK` with `LK_EXCLUSIVE | LK_RETRY`. -/
def vopLock (vnodes : Vnodes) (vp : VnodeId) : Vnodes :=
  { vnodes with exclusive := Function.update vnodes.exclusive (vnodes.vnlock vp) true }

end Vnodes

/-- `VDESC_MAX_VPS`. -/
def vdescMaxVps : Nat := 16

/-- `VDESC_VP0_WILLRELE`. -/
def vdescVp0Willrele : BitVec 32 := 1

/-- What the bypass reads of a `struct vnodeop_desc` beside the vnode offsets: the flags, and
whether a vnode comes out. -/
structure VnodeopDesc where
  vdescFlags : BitVec 32
  vppOffset : Bool
  deriving DecidableEq, Repr

/-- The loop that maps the vnodes going in, from the slot of index `i` on: the new slots, the
old vnodes of those that are mapped, and the vnodes. It fails where the lower vnode is asked
of something that is no live tptfs vnode. -/
def mapIn : (i : Nat) → (reles : BitVec 32) → List Slot → Vnodes →
    Option (List Slot × List Slot × Vnodes)
  | _, _, [], vnodes => some ([], [], vnodes)
  | i, reles, slot :: rest, vnodes =>
      if vdescMaxVps ≤ i then some (slot :: rest, [], vnodes)
      else if i ≠ 0 ∧ (slot.all fun vp => !vnodes.isTptfs vp) then do
        let (slots, oldVps, vnodes) ← mapIn (i + 1) (reles.sshiftRight 1) rest vnodes
        some (slot :: slots, none :: oldVps, vnodes)
      else do
        let vp ← slot
        let lower ← vnodes.lowervp vp
        let vnodes := if reles &&& vdescVp0Willrele ≠ 0 then vnodes.vref lower else vnodes
        let (slots, oldVps, vnodes) ← mapIn (i + 1) (reles.sshiftRight 1) rest vnodes
        some (some lower :: slots, some vp :: oldVps, vnodes)

/-- The lock goes from a lower vnode to its upper one when that one has a lock of its own by
now. -/
def moveLock (old : VnodeId) (slot : Slot) (vnodes : Vnodes) : Vnodes :=
  match slot with
  | none => vnodes
  | some lvp =>
      if vnodes.exclusive (vnodes.vnlock lvp) ∧ vnodes.vnlock old ≠ vnodes.vnlock lvp then
        (vnodes.vopUnlock lvp).vopLock old
      else vnodes

/-- The loop that puts the vnodes back. -/
def restore : (reles : BitVec 32) → (oldVps slots : List Slot) → Vnodes → List Slot × Vnodes
  | _, [], slots, vnodes => (slots, vnodes)
  | _, _, [], vnodes => ([], vnodes)
  | reles, none :: oldVps, slot :: slots, vnodes =>
      let (slots, vnodes) := restore (reles.sshiftRight 1) oldVps slots vnodes
      (slot :: slots, vnodes)
  | reles, some old :: oldVps, slot :: slots, vnodes =>
      let vnodes := moveLock old slot vnodes
      let vnodes := if reles &&& vdescVp0Willrele ≠ 0 then vnodes.vrele old else vnodes
      let (slots, vnodes) := restore (reles.sshiftRight 1) oldVps slots vnodes
      (some old :: slots, vnodes)

/-- What an operation leaves: its error number, the slots, the vnode that comes out and the
vnodes. -/
structure Outcome where
  error : Int
  slots : List Slot
  outgoing : Slot
  vnodes : Vnodes

/-- `tpt_bypass` until the arguments are restored, with the old vnodes it keeps. -/
def bypassCall (desc : VnodeopDesc) (lower : List Slot → Vnodes → Outcome) (slots : List Slot)
    (vnodes : Vnodes) : Option (Outcome × List Slot) := do
  let (mapped, oldVps, vnodes) ← mapIn 0 desc.vdescFlags slots vnodes
  let outcome := match mapped with
    | some _ :: _ => lower mapped vnodes
    | _ => ⟨einval, mapped, none, vnodes⟩
  let (slots, vnodes) := restore desc.vdescFlags oldVps outcome.slots outcome.vnodes
  some ({ outcome with slots, vnodes }, oldVps)

/-- `tpt_bypass`. `vppp` says whether the caller asks for the vnode that comes out; `nodeget`
is `tpt_nodeget` on the mount of a vnode. -/
def tptBypass (desc : VnodeopDesc) (lower : List Slot → Vnodes → Outcome)
    (nodeget : VnodeId → Slot → Vnodes → Int × Slot × Vnodes) (vppp : Bool) (slots : List Slot)
    (vnodes : Vnodes) : Option Outcome := do
  let (outcome, oldVps) ← bypassCall desc lower slots vnodes
  if desc.vppOffset ∧ outcome.error = 0 ∧ vppp then
    let first ← oldVps.head?.join
    let (error, outgoing, vnodes) := nodeget first outcome.outgoing outcome.vnodes
    some { outcome with error, outgoing, vnodes }
  else some outcome

/-- The number of slots that hold a vnode and have their bit `VDESC_VP0_WILLRELE << i` set,
where the first slot has the index `i`. -/
def released (flags : BitVec 32) (i : Nat) (slots : List Slot) (vp : VnodeId) : Nat :=
  (slots.zipIdx i).countP fun entry => entry.1 = some vp ∧ flags.getLsbD entry.2 = true

/-- What the lower operation is to find in a slot: the lower vnode of a tptfs vnode in one of
the first sixteen slots. -/
def lowerSlot (vnodes : Vnodes) (i : Nat) (slot : Slot) : Slot :=
  if i < vdescMaxVps ∧ slot.any vnodes.isTptfs then slot.bind vnodes.lowervp else slot

/-- The slots that the lower operation is to be called with. -/
def lowerSlots (vnodes : Vnodes) (i : Nat) (slots : List Slot) : List Slot :=
  (slots.zipIdx i).map fun entry => lowerSlot vnodes entry.2 entry.1

/-- The references on a lower vnode that the lower operation may drop: one for each slot with its
bit set that it stands in for the upper one. -/
def lent (flags : BitVec 32) (i : Nat) (slots : List Slot) (vnodes : Vnodes) (vp : VnodeId) : Nat :=
  (slots.zipIdx i).countP fun entry =>
    flags.getLsbD entry.2 = true ∧ entry.2 < vdescMaxVps ∧ entry.1.any vnodes.isTptfs ∧
      lowerSlot vnodes entry.2 entry.1 = some vp

section Loops

variable {flags : BitVec 32} {i : Nat} {slots oldVps mapped : List Slot} {slot : Slot}
  {vnodes : Vnodes} {vp : VnodeId}

/-- The test on the shifted flags is one for the bit of the index. -/
theorem and_willrele (inside : i < 32) :
    flags.sshiftRight i &&& vdescVp0Willrele ≠ 0 ↔ flags.getLsbD i = true := by
  have bit : (flags.sshiftRight i).getLsbD 0 = flags.getLsbD i := by
    rw [BitVec.getLsbD_sshiftRight]
    simp [inside]
  have mask : flags.sshiftRight i &&& vdescVp0Willrele =
      (BitVec.ofBool ((flags.sshiftRight i).getLsbD 0)).setWidth 32 :=
    BitVec.and_one_eq_setWidth_ofBool_getLsbD
  rw [mask, bit]
  cases flags.getLsbD i with
  | false => decide
  | true => decide

theorem sshiftRight_one : (flags.sshiftRight i).sshiftRight 1 = flags.sshiftRight (i + 1) :=
  BitVec.sshiftRight_add.symm

theorem released_nil : released flags i [] vp = 0 := rfl

theorem released_cons :
    released flags i (slot :: slots) vp =
      released flags (i + 1) slots vp +
        if slot = some vp ∧ flags.getLsbD i = true then 1 else 0 := by
  rw [released, List.zipIdx_cons, List.countP_cons]
  simp only [decide_eq_true_eq]
  rfl

theorem released_none : released flags i (none :: slots) vp = released flags (i + 1) slots vp := by
  rw [released_cons, if_neg (fun hit => nomatch hit.1), Nat.add_zero]

/-- A vnode in none of the slots is released by none. -/
theorem released_of_not_mem (absent : some vp ∉ slots) : released flags i slots vp = 0 := by
  rw [released, List.countP_eq_zero]
  intro entry member hit
  obtain ⟨same, -⟩ := of_decide_eq_true hit
  exact absent (same ▸ List.fst_mem_of_mem_zipIdx member)

/-- The slots with the old vnodes in the places that have one. -/
def putBack : (oldVps slots : List Slot) → List Slot
  | [], slots => slots
  | _, [] => []
  | old :: oldVps, slot :: slots => old.or slot :: putBack oldVps slots

theorem moveLock_useCount (old : VnodeId) (slot : Slot) (vnodes : Vnodes) :
    (moveLock old slot vnodes).useCount = vnodes.useCount := by
  cases slot with
  | none => rfl
  | some lvp =>
      rw [moveLock]
      split <;> rfl

/-- A reference given up, or taken, on one vnode under a condition. -/
theorem useCount_marked (marked : Prop) [Decidable marked] (vnodes : Vnodes) (target vp : VnodeId) :
    ((if marked then vnodes.vrele target else vnodes).useCount vp =
      vnodes.useCount vp - ((if some target = some vp ∧ marked then 1 else 0 : Nat) : Int)) ∧
    ((if marked then vnodes.vref target else vnodes).useCount vp =
      vnodes.useCount vp + ((if some target = some vp ∧ marked then 1 else 0 : Nat) : Int)) := by
  by_cases set : marked
  · by_cases same : target = vp
    · simp only [set, same, and_self, ↓reduceIte, Vnodes.vrele, Vnodes.vref, addAt_apply]
      omega
    · have apart : ¬ vp = target := fun equal => same equal.symm
      simp only [set, same, apart, Option.some.injEq, false_and, ↓reduceIte, Vnodes.vrele,
        Vnodes.vref, addAt_apply]
      omega
  · simp only [set, and_false, ↓reduceIte]
    omega

/-- Putting the vnodes back gives up the marked references on the old ones. -/
theorem restore_spec (few : i + oldVps.length ≤ vdescMaxVps)
    (aligned : oldVps.length ≤ slots.length) :
    (restore (flags.sshiftRight i) oldVps slots vnodes).1 = putBack oldVps slots ∧
      ∀ vp, (restore (flags.sshiftRight i) oldVps slots vnodes).2.useCount vp =
        vnodes.useCount vp - released flags i oldVps vp := by
  induction oldVps generalizing i slots vnodes with
  | nil =>
      refine ⟨by rw [restore, putBack], ?_⟩
      intro vp
      rw [restore, released_nil, Int.natCast_zero, Int.sub_zero]
  | cons old oldVps ih =>
      cases slots with
      | nil => exact absurd aligned (Nat.not_succ_le_zero _)
      | cons slot slots =>
          rw [List.length_cons] at few
          have shorter : oldVps.length ≤ slots.length := Nat.le_of_succ_le_succ aligned
          cases old with
          | none =>
              obtain ⟨rest, counts⟩ := @ih (i + 1) slots vnodes (by omega) shorter
              rw [restore, sshiftRight_one]
              refine ⟨congrArg (slot :: ·) rest, ?_⟩
              intro vp
              rw [released_none]
              exact counts vp
          | some old =>
              have bit := @and_willrele flags i (by
                rw [vdescMaxVps] at few
                omega)
              rw [restore, sshiftRight_one]
              simp only [bit]
              obtain ⟨rest, counts⟩ := @ih (i + 1) slots (if flags.getLsbD i = true then
                (moveLock old slot vnodes).vrele old else moveLock old slot vnodes)
                (by omega) shorter
              refine ⟨congrArg (some old :: ·) rest, ?_⟩
              intro vp
              have here := (useCount_marked (flags.getLsbD i = true) (moveLock old slot vnodes)
                old vp).1
              rw [moveLock_useCount] at here
              rw [released_cons]
              exact (counts vp).trans (by rw [here]; omega)

/-- The slots that `tpt_bypass` accepts: the first one holds a tptfs vnode, and the tptfs
vnodes among them are live. -/
structure Live (i : Nat) (slots : List Slot) (vnodes : Vnodes) : Prop where
  first : i = 0 → ∃ vp, slots.head? = some (some vp) ∧ vnodes.isTptfs vp = true
  lower : ∀ vp, some vp ∈ slots → vnodes.isTptfs vp = true → ∃ lower, vnodes.lowervp vp = some lower

theorem Live.tail (live : Live i (slot :: slots) vnodes) : Live (i + 1) slots vnodes where
  first zero := absurd zero (Nat.succ_ne_zero i)
  lower vp member := live.lower vp (List.mem_cons_of_mem slot member)

/-- A reference more changes nothing. -/
theorem Live.marked (live : Live i slots vnodes) (marked : Prop) [Decidable marked]
    (lower : VnodeId) : Live i slots (if marked then vnodes.vref lower else vnodes) := by
  split
  · exact { first := live.first, lower := live.lower }
  · exact live

/-- A slot that is mapped holds a live tptfs vnode. -/
theorem Live.lowered (live : Live i (slot :: slots) vnodes)
    (taken : ¬ (i ≠ 0 ∧ (slot.all fun vp => !vnodes.isTptfs vp) = true)) :
    ∃ vp lower, slot = some vp ∧ vnodes.isTptfs vp = true ∧ vnodes.lowervp vp = some lower := by
  have own : ∃ vp, slot = some vp ∧ vnodes.isTptfs vp = true := by
    by_cases zero : i = 0
    · obtain ⟨vp, head, tptfs⟩ := live.first zero
      exact ⟨vp, Option.some.inj head, tptfs⟩
    · cases slot with
      | none => exact absurd ⟨zero, rfl⟩ taken
      | some vp =>
          refine ⟨vp, rfl, ?_⟩
          by_contra foreign
          refine taken ⟨zero, ?_⟩
          rw [Bool.not_eq_true] at foreign
          rw [Option.all_some, foreign, Bool.not_false]
  obtain ⟨vp, rfl, tptfs⟩ := own
  obtain ⟨lower, lowered⟩ := live.lower vp List.mem_cons_self tptfs
  exact ⟨vp, lower, rfl, tptfs, lowered⟩

theorem lowerSlots_cons :
    lowerSlots vnodes i (slot :: slots) =
      lowerSlot vnodes i slot :: lowerSlots vnodes (i + 1) slots := by
  rw [lowerSlots, List.zipIdx_cons, List.map_cons, lowerSlots]

theorem lent_cons :
    lent flags i (slot :: slots) vnodes vp =
      lent flags (i + 1) slots vnodes vp +
        if flags.getLsbD i = true ∧ i < vdescMaxVps ∧ slot.any vnodes.isTptfs ∧
          lowerSlot vnodes i slot = some vp then 1 else 0 := by
  rw [lent, List.zipIdx_cons, List.countP_cons]
  simp only [decide_eq_true_eq]
  rfl

/-- From the index sixteen on nothing is mapped. -/
theorem lowerSlots_rest (full : vdescMaxVps ≤ i) :
    lowerSlots vnodes i slots = slots ∧ lent flags i slots vnodes vp = 0 := by
  induction slots generalizing i with
  | nil => exact ⟨rfl, rfl⟩
  | cons slot slots ih =>
      obtain ⟨same, none⟩ := @ih (i + 1) (by omega)
      have beyond : ¬ i < vdescMaxVps := Nat.not_lt_of_le full
      rw [lowerSlots_cons, lent_cons, same, none, lowerSlot, if_neg fun both => beyond both.1,
        if_neg fun all => beyond all.2.1]
      exact ⟨rfl, rfl⟩

/-- What mapping the slots from the index `i` on leaves. The slots are those for the lower
layer and can be put back, and a reference is taken on each lower vnode in a marked slot. -/
structure Mapped (flags : BitVec 32) (i : Nat) (slots : List Slot) (vnodes : Vnodes)
    (mapped oldVps : List Slot) (held : Vnodes) : Prop where
  few : i + oldVps.length ≤ max i vdescMaxVps
  aligned : oldVps.length ≤ mapped.length
  back : putBack oldVps mapped = slots
  lowered : mapped = lowerSlots vnodes i slots
  taken : ∀ vp, held.useCount vp = vnodes.useCount vp + lent flags i slots vnodes vp
  counts : ∀ vp, held.useCount vp + released flags i slots vp =
    vnodes.useCount vp + released flags i mapped vp + released flags i oldVps vp

theorem Mapped.stop (rest : slots = [] ∨ vdescMaxVps ≤ i) :
    Mapped flags i slots vnodes slots [] vnodes where
  few := Nat.le_max_left i _
  aligned := Nat.zero_le _
  back := by rw [putBack]
  lowered := by
    obtain rfl | full := rest
    · rfl
    · exact (@lowerSlots_rest flags i slots vnodes 0 full).1.symm
  taken vp := by
    obtain rfl | full := rest
    · exact (Int.add_zero _).symm
    · rw [(lowerSlots_rest full).2, Int.natCast_zero, Int.add_zero]
  counts vp := by
    rw [released_nil]
    omega

variable {held : Vnodes}

/-- A slot that is not mapped counts on both sides. -/
theorem Mapped.skip (done : Mapped flags (i + 1) slots vnodes mapped oldVps held)
    (inside : i < vdescMaxVps) (foreign : slot.any vnodes.isTptfs = false) :
    Mapped flags i (slot :: slots) vnodes (slot :: mapped) (none :: oldVps) held where
  few := by
    have few := done.few
    rw [List.length_cons]
    omega
  aligned := Nat.succ_le_succ done.aligned
  back := congrArg (slot :: ·) done.back
  lowered := by
    rw [lowerSlots_cons, lowerSlot, foreign, if_neg (fun both => nomatch both.2), ← done.lowered]
  taken vp := by
    rw [lent_cons, foreign, if_neg (fun all => nomatch all.2.2.1), Nat.add_zero]
    exact done.taken vp
  counts vp := by
    have counts := done.counts vp
    rw [released_none]
    simp only [@released_cons flags i _ slot vp]
    omega

/-- The reference on a lower vnode stands against the slot that holds it by now. -/
theorem Mapped.lower {lower : VnodeId}
    (done : Mapped flags (i + 1) slots
      (if flags.getLsbD i = true then vnodes.vref lower else vnodes) mapped oldVps held)
    (inside : i < vdescMaxVps) (tptfs : vnodes.isTptfs vp = true)
    (lowered : vnodes.lowervp vp = some lower) :
    Mapped flags i (some vp :: slots) vnodes (some lower :: mapped) (some vp :: oldVps) held where
  few := by
    have few := done.few
    rw [List.length_cons]
    omega
  aligned := Nat.succ_le_succ done.aligned
  back := congrArg (some vp :: ·) done.back
  lowered := by
    have here : lowerSlot vnodes i (some vp) = some lower := by
      rw [lowerSlot, if_pos ⟨inside, tptfs⟩]
      exact lowered
    have rest : lowerSlots (if flags.getLsbD i = true then vnodes.vref lower else vnodes) (i + 1)
        slots = lowerSlots vnodes (i + 1) slots := by
      split
      · rfl
      · rfl
    rw [lowerSlots_cons, here, done.lowered, rest]
  taken other := by
    have here : lowerSlot vnodes i (some vp) = some lower := by
      rw [lowerSlot, if_pos ⟨inside, tptfs⟩]
      exact lowered
    have rest : lent flags (i + 1) slots
        (if flags.getLsbD i = true then vnodes.vref lower else vnodes) other =
        lent flags (i + 1) slots vnodes other := by
      split
      · rfl
      · rfl
    have taken := done.taken other
    rw [(useCount_marked (flags.getLsbD i = true) vnodes lower other).2, rest] at taken
    rw [lent_cons, here, taken]
    simp only [inside, Option.any_some, tptfs, true_and, and_comm]
    omega
  counts other := by
    have counts := done.counts other
    rw [(useCount_marked (flags.getLsbD i = true) vnodes lower other).2] at counts
    simp only [released_cons]
    omega

/-- Slots that are accepted can be mapped, and the first one is. -/
theorem mapIn_spec (live : Live i slots vnodes) :
    ∃ mapped oldVps held,
      mapIn i (flags.sshiftRight i) slots vnodes = some (mapped, oldVps, held) ∧
      (i = 0 → ∃ lower vp restMapped restOld, mapped = some lower :: restMapped ∧
        oldVps = some vp :: restOld) ∧
      Mapped flags i slots vnodes mapped oldVps held := by
  induction slots generalizing i vnodes with
  | nil =>
      refine ⟨[], [], vnodes, rfl, ?_, Mapped.stop (.inl rfl)⟩
      intro zero
      obtain ⟨vp, head, -⟩ := live.first zero
      cases head
  | cons slot slots ih =>
      rw [mapIn, sshiftRight_one]
      by_cases full : vdescMaxVps ≤ i
      · refine ⟨slot :: slots, [], vnodes, if_pos full, ?_, Mapped.stop (.inr full)⟩
        intro zero
        rw [zero] at full
        exact absurd full (by decide)
      · rw [if_neg full]
        have inside : i < vdescMaxVps := Nat.lt_of_not_le full
        by_cases skipped : i ≠ 0 ∧ (slot.all fun vp => !vnodes.isTptfs vp) = true
        · rw [if_pos skipped]
          obtain ⟨mapped, oldVps, held, run, -, done⟩ := ih live.tail
          have foreign : slot.any vnodes.isTptfs = false := by
            cases slot with
            | none => rfl
            | some vp => simpa using skipped.2
          refine ⟨slot :: mapped, none :: oldVps, held, ?_, ?_, done.skip inside foreign⟩
          · rw [run]
            rfl
          · intro zero
            exact absurd zero skipped.1
        · rw [if_neg skipped]
          obtain ⟨vp, lower, rfl, tptfs, lowered⟩ := live.lowered skipped
          have bit := @and_willrele flags i (Nat.lt_trans inside (by decide))
          simp only [bit]
          obtain ⟨mapped, oldVps, held, run, -, done⟩ :=
            ih (live.tail.marked (flags.getLsbD i = true) lower)
          refine ⟨some lower :: mapped, some vp :: oldVps, held, ?_, ?_,
            done.lower inside tptfs lowered⟩
          · simp only [lowered, run, Option.bind_eq_bind, Option.bind_some]
          · intro _
            exact ⟨lower, vp, mapped, oldVps, rfl, rfl⟩

end Loops

section Call

variable {desc : VnodeopDesc} {lower : List Slot → Vnodes → Outcome} {slots : List Slot}
  {vnodes : Vnodes}

/-- The call on the lower layer, with the slots and the vnodes it is made with. -/
theorem bypassCall_spec (live : Live 0 slots vnodes)
    (untouched : ∀ mapped oldVps held,
      mapIn 0 desc.vdescFlags slots vnodes = some (mapped, oldVps, held) →
        (lower mapped held).slots = mapped) :
    ∃ mapped vp rest held outcome,
      mapIn 0 desc.vdescFlags slots vnodes = some (mapped, some vp :: rest, held) ∧
      mapped = lowerSlots vnodes 0 slots ∧
      (∀ other, held.useCount other =
        vnodes.useCount other + lent desc.vdescFlags 0 slots vnodes other) ∧
      bypassCall desc lower slots vnodes = some (outcome, some vp :: rest) ∧
      outcome.error = (lower mapped held).error ∧
      outcome.outgoing = (lower mapped held).outgoing ∧ outcome.slots = slots ∧
      ∀ other, outcome.vnodes.useCount other + held.useCount other +
          released desc.vdescFlags 0 slots other =
        (lower mapped held).vnodes.useCount other + vnodes.useCount other +
          released desc.vdescFlags 0 mapped other := by
  obtain ⟨mapped, oldVps, held, run, head, done⟩ := @mapIn_spec desc.vdescFlags _ _ _ live
  rw [BitVec.sshiftRight_zero] at run
  obtain ⟨first, vp, restMapped, rest, rfl, rfl⟩ := head rfl
  have same := untouched _ _ _ run
  obtain ⟨restored, given⟩ := @restore_spec desc.vdescFlags _ _ _
    (lower (some first :: restMapped) held).vnodes done.few done.aligned
  rw [BitVec.sshiftRight_zero] at restored given
  generalize ended : restore desc.vdescFlags (some vp :: rest) (some first :: restMapped)
    (lower (some first :: restMapped) held).vnodes = finished at restored given
  refine ⟨_, vp, rest, held,
    { lower (some first :: restMapped) held with slots := finished.1, vnodes := finished.2 },
    run, done.lowered, done.taken, ?_, rfl, rfl, ?_, ?_⟩
  · rw [bypassCall, run]
    simp only [Option.bind_eq_bind, Option.bind_some, same, ended]
  · exact restored.trans done.back
  · intro other
    have before := done.counts other
    have after := given other
    simp only [after]
    omega

/-- The slots hold their vnodes again however the vnode that comes out is wrapped. -/
theorem tptBypass_slots (nodeget : VnodeId → Slot → Vnodes → Int × Slot × Vnodes) (vppp : Bool)
    (live : Live 0 slots vnodes)
    (untouched : ∀ mapped oldVps held,
      mapIn 0 desc.vdescFlags slots vnodes = some (mapped, oldVps, held) →
        (lower mapped held).slots = mapped) :
    ∃ outcome, tptBypass desc lower nodeget vppp slots vnodes = some outcome ∧
      outcome.slots = slots := by
  obtain ⟨mapped, vp, rest, held, outcome, -, -, -, called, -, -, restored, -⟩ :=
    bypassCall_spec live untouched
  rw [tptBypass, called]
  by_cases wrapped : desc.vppOffset ∧ outcome.error = 0 ∧ vppp
  · generalize wrap : nodeget vp outcome.outgoing outcome.vnodes = result
    refine ⟨⟨result.1, outcome.slots, result.2.1, result.2.2⟩, ?_, restored⟩
    simp only [Option.bind_eq_bind, Option.bind_some, wrapped, List.head?_cons,
      Option.join_some, and_self, ↓reduceIte, wrap]
  · exact ⟨outcome, by simp only [Option.bind_eq_bind, Option.bind_some, wrapped, ↓reduceIte],
      restored⟩

/-- The vnodes a call is about: those in its slots, and the lower ones of these. -/
def Concerns (slots : List Slot) (vnodes : Vnodes) (vp : VnodeId) : Prop :=
  some vp ∈ slots ∨ ∃ upper, some upper ∈ slots ∧ vnodes.lowervp upper = some vp

/-- An operation on `slots` leaves them alone, and drops a reference on the vnode of each
slot that has its bit set: among the vnodes of `about`, no other use count changes. -/
def DropsMarked (flags : BitVec 32) (about : VnodeId → Prop) (slots : List Slot)
    (vnodes : Vnodes) (outcome : Outcome) : Prop :=
  outcome.slots = slots ∧
    ∀ vp, about vp →
      outcome.vnodes.useCount vp = vnodes.useCount vp - released flags 0 slots vp

/-- The lower operation gets the lower vnodes, and a reference more on each for each slot that it
drops one on. When the arguments are restored, each vnode in a slot has lost the references that
the operation drops on it, and a lower vnode that is in none has lost none. -/
theorem bypassCall_balanced (live : Live 0 slots vnodes)
    (drops : ∀ mapped oldVps held,
      mapIn 0 desc.vdescFlags slots vnodes = some (mapped, oldVps, held) →
        DropsMarked desc.vdescFlags (Concerns slots vnodes) mapped held (lower mapped held)) :
    ∃ held outcome oldVps, bypassCall desc lower slots vnodes = some (outcome, oldVps) ∧
      (∀ vp, held.useCount vp =
        vnodes.useCount vp + lent desc.vdescFlags 0 slots vnodes vp) ∧
      outcome.error = (lower (lowerSlots vnodes 0 slots) held).error ∧
      outcome.outgoing = (lower (lowerSlots vnodes 0 slots) held).outgoing ∧
      outcome.slots = slots ∧
      (∀ vp, some vp ∈ slots →
        outcome.vnodes.useCount vp =
          vnodes.useCount vp - released desc.vdescFlags 0 slots vp) ∧
      ∀ upper vp, some upper ∈ slots → vnodes.lowervp upper = some vp → some vp ∉ slots →
        outcome.vnodes.useCount vp = vnodes.useCount vp := by
  obtain ⟨mapped, first, rest, held, outcome, run, rfl, taken, called, error, outgoing, restored,
    counts⟩ := bypassCall_spec live fun mapped oldVps held run => (drops mapped oldVps held run).1
  have dropped := (drops _ _ _ run).2
  have balance : ∀ vp, Concerns slots vnodes vp →
      outcome.vnodes.useCount vp =
        vnodes.useCount vp - released desc.vdescFlags 0 slots vp := by
    intro vp concerned
    have total := counts vp
    have lost := dropped vp concerned
    omega
  refine ⟨held, outcome, _, called, taken, error, outgoing, restored, ?_, ?_⟩
  · intro vp member
    exact balance vp (.inl member)
  · intro upper vp member lowered absent
    have total := balance vp (.inr ⟨upper, member, lowered⟩)
    rw [released_of_not_mem absent] at total
    rw [total, Int.natCast_zero, Int.sub_zero]

end Call

/-- A rename within one tptfs directory, vnode 1 over vnode 11, of a vnode of another file
system to a name that is not there. -/
def renameSlots : List Slot := [some 1, some 9, some 1, none]

def renameVnodes : Vnodes where
  useCount _ := 5
  isTptfs vp := vp = 1
  lowervp vp := if vp = 1 then some 11 else none
  vnlock _ := 0
  exclusive _ := false

/-- `vop_rename_desc`, which drops its four vnodes. -/
def renameDesc : VnodeopDesc where
  vdescFlags := 0b1111
  vppOffset := false

/-- A lower file system's rename, as far as references go: it tells whether its directory is
vnode 11. -/
def renameLower (slots : List Slot) (vnodes : Vnodes) : Outcome where
  error := if slots.head? = some (some 11) then 0 else einval
  slots := slots
  outgoing := none
  vnodes :=
    { vnodes with useCount := fun vp =>
        vnodes.useCount vp - released renameDesc.vdescFlags 0 slots vp }

/-- The lower operation gets the lower directory twice, with a reference more for each. The
directory loses the references of its two slots, the foreign vnode that of its one, and the lower
directory none. -/
theorem bypassCall_balanced_rename :
    ∃ (held : Vnodes) (outcome : Outcome) (oldVps : List Slot),
      bypassCall renameDesc renameLower renameSlots renameVnodes = some (outcome, oldVps) ∧
      held.useCount 11 = 7 ∧ outcome.error = 0 ∧ outcome.slots = renameSlots ∧
      outcome.vnodes.useCount 1 = 3 ∧ outcome.vnodes.useCount 9 = 4 ∧
      outcome.vnodes.useCount 11 = 5 := by
  have live : Live 0 renameSlots renameVnodes := by
    refine ⟨fun _ => ⟨1, rfl, rfl⟩, ?_⟩
    intro vp _ tptfs
    have directory : vp = 1 := of_decide_eq_true tptfs
    exact ⟨11, if_pos directory⟩
  obtain ⟨held, outcome, oldVps, called, taken, error, -, restored, upper, lowered⟩ :=
    @bypassCall_balanced renameDesc renameLower renameSlots renameVnodes live
      fun mapped oldVps held _ => ⟨rfl, fun vp _ => rfl⟩
  have two : released renameDesc.vdescFlags 0 renameSlots 1 = 2 := by decide
  have one : released renameDesc.vdescFlags 0 renameSlots 9 = 1 := by decide
  have more : lent renameDesc.vdescFlags 0 renameSlots renameVnodes 11 = 2 := by decide
  refine ⟨held, outcome, oldVps, called, ?_, error, restored, ?_, ?_, ?_⟩
  · rw [taken, more]
    rfl
  · rw [upper 1 (by decide), two]
    rfl
  · rw [upper 9 (by decide), one]
    rfl
  · exact lowered 1 11 (by decide) rfl (by decide)

end Tptfs
