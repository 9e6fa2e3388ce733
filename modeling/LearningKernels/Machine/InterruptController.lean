import Mathlib.Data.List.Basic
import Mathlib.Logic.Function.Basic

/-!
# A priority interrupt controller

The 8259A as its data sheet describes it: the sequence of initialization command words, the
mask, the end-of-interrupt commands with their rotations, eight edge-triggered inputs, and the
level that wins an acknowledgement. An input must stay high until it is acknowledged; a
request that is withdrawn before that is acknowledged as level 7, with nothing in service.
The first initialization word also ends all services. Special fully nested mode, the polling
and the reading commands are left out.
-/

namespace Machine

/-- The word that is expected at the data port. -/
inductive InitStage where
  | ready
  | icw2
  | icw3
  | icw4
  deriving DecidableEq, Repr

/-- What the ports of a controller program, and the levels in service. -/
structure Setup where
  stage : InitStage
  single : Bool
  needIcw4 : Bool
  base : BitVec 8
  cascade : BitVec 8
  autoEoi : Bool
  specialMask : Bool
  lowest : Fin 8
  imr : Fin 8 → Bool
  isr : Fin 8 → Bool

namespace Setup

/-- The levels from the highest priority to the lowest. -/
def order (setup : Setup) : List (Fin 8) :=
  (List.finRange 8).map fun rank => setup.lowest + 1 + rank

/-- The first initialization word. -/
def icw1 (word : BitVec 8) (setup : Setup) : Setup :=
  { setup with
    stage := .icw2
    single := word.getLsbD 1
    needIcw4 := word.getLsbD 0
    autoEoi := if word.getLsbD 0 then setup.autoEoi else false
    specialMask := false
    lowest := 7
    imr := fun _ => false
    isr := fun _ => false }

/-- What follows the second word, or the third one. -/
def stageAfterIcw3 (setup : Setup) : InitStage := if setup.needIcw4 then .icw4 else .ready

/-- A byte at the data port. -/
def data (word : BitVec 8) (setup : Setup) : Setup :=
  match setup.stage with
  | .icw2 =>
      { setup with
        base := word &&& 0xf8
        stage := if setup.single then setup.stageAfterIcw3 else .icw3 }
  | .icw3 => { setup with cascade := word, stage := setup.stageAfterIcw3 }
  | .icw4 => { setup with autoEoi := word.getLsbD 1, stage := .ready }
  | .ready => { setup with imr := fun level => word.getLsbD level.val }

/-- The service of a level ends, and it may become the lowest one. -/
def endService (level : Fin 8) (rotate : Bool) (setup : Setup) : Setup :=
  { setup with
    isr := Function.update setup.isr level false
    lowest := if rotate then level else setup.lowest }

/-- The second operation command word. -/
def ocw2 (word : BitVec 8) (setup : Setup) : Setup :=
  let named : Fin 8 := ⟨(word &&& 7).toNat % 8, Nat.mod_lt _ (by decide)⟩
  let rotate := word.getLsbD 7
  if word.getLsbD 5 then
    if word.getLsbD 6 then setup.endService named rotate
    else
      match setup.order.find? setup.isr with
      | some level => setup.endService level rotate
      | none => setup
  else if rotate && word.getLsbD 6 then { setup with lowest := named }
  else setup

/-- A byte at the control port. -/
def control (word : BitVec 8) (setup : Setup) : Setup :=
  if word.getLsbD 4 then setup.icw1 word
  else if word.getLsbD 3 then
    if word.getLsbD 6 then { setup with specialMask := word.getLsbD 5 } else setup
  else setup.ocw2 word

/-- A level in service keeps the levels from its own on waiting. -/
def blocks (setup : Setup) (level : Fin 8) : Bool :=
  setup.isr level && !(setup.specialMask && setup.imr level)

/-- The first level of a list that asks, up to one that blocks. -/
def select (setup : Setup) (asks : Fin 8 → Bool) : List (Fin 8) → Option (Fin 8)
  | [] => none
  | level :: rest =>
      if setup.blocks level then none
      else if asks level && !setup.imr level then some level
      else setup.select asks rest

/-- A level goes into service, unless services end by themselves. -/
def beginService (level : Fin 8) (setup : Setup) : Setup :=
  { setup with
    isr := if setup.autoEoi then setup.isr else Function.update setup.isr level true }

variable {setup : Setup} {level : Fin 8} {asks : Fin 8 → Bool} {levels : List (Fin 8)}

theorem mem_order (setup : Setup) (level : Fin 8) : level ∈ setup.order := by
  have every : ∀ lowest level : Fin 8,
      level ∈ (List.finRange 8).map fun rank => lowest + 1 + rank := by decide
  exact every setup.lowest level

/-- Without an unmasked request nothing is selected. -/
theorem select_quiet (quiet : ∀ level, (asks level && !setup.imr level) = false) :
    setup.select asks levels = none := by
  induction levels with
  | nil => rfl
  | cons level levels ih =>
      rw [select, quiet level]
      split
      · rfl
      · exact ih

/-- One level is not masked, and no other one is in service. -/
structure Single (setup : Setup) (level : Fin 8) : Prop where
  opened : setup.imr level = false
  masked : ∀ other, other ≠ level → setup.imr other = true
  idle : ∀ other, other ≠ level → setup.isr other = false

theorem Single.select (single : setup.Single level) (member : level ∈ levels) :
    setup.select asks levels =
      if setup.isr level then none else if asks level then some level else none := by
  induction levels with
  | nil => exact absurd member List.not_mem_nil
  | cons first levels ih =>
      rw [Setup.select, blocks]
      by_cases here : first = level
      · subst here
        rw [single.opened, Bool.and_false, Bool.not_false, Bool.and_true, Bool.and_true]
        cases setup.isr first with
        | true => rfl
        | false =>
            cases asked : asks first with
            | true => rfl
            | false =>
                refine select_quiet ?_
                intro other
                by_cases same : other = first
                · rw [same, asked, Bool.false_and]
                · rw [single.masked other same, Bool.not_true, Bool.and_false]
      · have later : level ∈ levels := (List.mem_cons.mp member).resolve_left (Ne.symm here)
        rw [single.idle first here, single.masked first here, Bool.false_and, Bool.not_true,
          Bool.and_false]
        exact ih later

/-- The command `0x20` ends the service of a level that is alone in service, if it is. -/
theorem ocw2_end (idle : ∀ other, other ≠ level → setup.isr other = false) :
    setup.ocw2 0x20 = { setup with isr := fun _ => false } := by
  have command : setup.ocw2 0x20 = match setup.order.find? setup.isr with
      | some level => setup.endService level false
      | none => setup := rfl
  rw [command]
  cases found : setup.order.find? setup.isr with
  | none =>
      have none : setup.isr = fun _ => false := by
        funext other
        exact Bool.eq_false_iff.mpr (List.find?_eq_none.mp found other (setup.mem_order other))
      simp only
      rw [← none]
  | some first =>
      have served : setup.isr first = true := List.find?_some found
      have cleared : Function.update setup.isr first false = fun _ => false := by
        funext other
        by_cases same : other = first
        · rw [same, Function.update_self]
        · rw [Function.update_of_ne same]
          by_cases here : other = level
          · -- two levels would be in service
            have alone : first = level := by
              by_contra apart
              rw [idle first apart] at served
              cases served
            exact absurd (here.trans alone.symm) same
          · exact idle other here
      simp only [endService, cleared, Bool.false_eq_true, ↓reduceIte]

end Setup

/-- A controller with its requests and the levels of its inputs. -/
structure Controller where
  setup : Setup
  irr : Fin 8 → Bool
  inputs : Fin 8 → Bool

namespace Controller

/-- A byte at the control port. The first initialization word forgets the requests. -/
def control (word : BitVec 8) (chip : Controller) : Controller :=
  { chip with
    setup := chip.setup.control word
    irr := if word.getLsbD 4 then fun _ => false else chip.irr }

/-- A byte at the data port. -/
def data (word : BitVec 8) (chip : Controller) : Controller :=
  { chip with setup := chip.setup.data word }

/-- An input takes a level: a rising edge is a request, and a low input is none. -/
def drive (level : Fin 8) (high : Bool) (chip : Controller) : Controller :=
  { chip with
    inputs := Function.update chip.inputs level high
    irr :=
      if high then
        if chip.inputs level then chip.irr else Function.update chip.irr level true
      else Function.update chip.irr level false }

/-- The level that an acknowledgement would get. -/
def pending (chip : Controller) : Option (Fin 8) :=
  chip.setup.select chip.irr chip.setup.order

/-- The interrupt output. -/
def output (chip : Controller) : Bool := chip.pending.isSome

/-- A level is acknowledged. -/
def serve (level : Fin 8) (chip : Controller) : Controller :=
  { chip with
    setup := chip.setup.beginService level
    irr := Function.update chip.irr level false }

theorem drive_inputs (chip : Controller) (level : Fin 8) (high : Bool) :
    (chip.drive level high).inputs level = high := Function.update_self _ _ _

theorem drive_low (chip : Controller) (level : Fin 8) :
    (chip.drive level false).irr level = false := Function.update_self _ _ _

theorem serve_irr (chip : Controller) (level : Fin 8) :
    (chip.serve level).irr level = false := Function.update_self _ _ _

/-- The vector of a level. -/
def vector (chip : Controller) (level : Fin 8) : BitVec 8 :=
  chip.setup.base + BitVec.ofNat 8 level.val

end Controller

/-- Two controllers, the second one on an input of the first. -/
structure Cascade where
  master : Controller
  slave : Controller

namespace Cascade

/-- The input of the master that the slave drives. -/
def slaveLine : Fin 8 := 2

/-- The output of the slave reaches the master. -/
def settle (chips : Cascade) : Cascade :=
  { chips with master := chips.master.drive slaveLine chips.slave.output }

/-- A device drives an input of one of the two; the input of the slave is not for devices. -/
inductive Signal where
  | master (level : Fin 8) (high : Bool)
  | slave (level : Fin 8) (high : Bool)
  deriving DecidableEq, Repr

/-- One signal of a device. -/
def signal (chips : Cascade) : Signal → Cascade
  | .master level high =>
      if level = slaveLine then chips
      else { chips with master := chips.master.drive level high }
  | .slave level high => settle { chips with slave := chips.slave.drive level high }

/-- The acknowledgement of the processor, with the vector that it gets. -/
def acknowledge (chips : Cascade) : BitVec 8 × Cascade :=
  match chips.master.pending with
  | none => (chips.master.vector 7, chips)
  | some level =>
      let master := chips.master.serve level
      if chips.master.setup.cascade.getLsbD level.val then
        match chips.slave.pending with
        | none => (chips.slave.vector 7, settle { chips with master })
        | some lower =>
            (chips.slave.vector lower, settle { master, slave := chips.slave.serve lower })
      else (chips.master.vector level, { chips with master })

end Cascade

end Machine
