import LearningKernels.Machine.InterruptController
import LearningKernels.OsElephant.Interrupt

/-!
# Programming the interrupt controllers

`pic_init` of `interrupt.c` against the two controllers it writes to, and the end-of-interrupt
commands of the stubs. Whatever the firmware left in the controllers, and whatever the devices
do between two writes, in the end the timer is the only input that is not masked, with the
vector `0x20` (`OsElephant.picInit_setups`).
-/

namespace OsElephant

open Machine

/-- `PIC_M_CTRL`. -/
def picMCtrl : BitVec 16 := 0x20

/-- `PIC_M_DATA`. -/
def picMData : BitVec 16 := 0x21

/-- `PIC_S_CTRL`. -/
def picSCtrl : BitVec 16 := 0xa0

/-- `PIC_S_DATA`. -/
def picSData : BitVec 16 := 0xa1

/-- `outb` to a port of the controllers. -/
def picOutb (chips : Cascade) (write : BitVec 16 × BitVec 8) : Cascade :=
  if write.1 = picMCtrl then { chips with master := chips.master.control write.2 }
  else if write.1 = picMData then { chips with master := chips.master.data write.2 }
  else if write.1 = picSCtrl then
    Cascade.settle { chips with slave := chips.slave.control write.2 }
  else if write.1 = picSData then Cascade.settle { chips with slave := chips.slave.data write.2 }
  else chips

/-- The bytes that `pic_init` puts out, with their ports. -/
def picInit : List (BitVec 16 × BitVec 8) :=
  [(picMCtrl, 0x11), (picMData, 0x20), (picMData, 0x04), (picMData, 0x01),
   (picSCtrl, 0x11), (picSData, 0x28), (picSData, 0x02), (picSData, 0x01),
   (picMData, 0xfe), (picSData, 0xff)]

/-- The bytes that a stub of `kernel.S` puts out before it calls the handler. -/
def eoiWrites : List (BitVec 16 × BitVec 8) := [(picSCtrl, 0x20), (picMCtrl, 0x20)]

namespace Cpu

theorem push_ports (word : BitVec 32) (cpu : Cpu) : (cpu.push word).ports = cpu.ports := rfl

theorem pushSegment_ports (segment : BitVec 16) (cpu : Cpu) :
    (cpu.pushSegment segment).ports = cpu.ports := rfl

theorem pushad_ports (cpu : Cpu) : cpu.pushad.ports = cpu.ports := by
  simp only [pushad, push_ports]

/-- The two commands of a stub. -/
theorem outAl_eoi_ports (cpu : Cpu) :
    (((cpu.movAl 0x20).outAl 0xa0).outAl 0x20).ports =
      (0x20, 0x20) :: (0xa0, 0x20) :: cpu.ports := by
  have low (value : BitVec 8) :
      (cpu.regs.eax.extractLsb' 8 24 ++ value).setWidth 8 = value := by
    apply BitVec.eq_of_getLsbD_eq
    intro bit inside
    rw [BitVec.getLsbD_setWidth, BitVec.getLsbD_append]
    simp only [inside, decide_true, Bool.true_and, ↓reduceIte]
  simp only [outAl, movAl, low]

theorem saveContext_ports (vector : Fin 0x21) (returnAddress : BitVec 32) (cpu : Cpu) :
    (cpu.saveContext vector returnAddress).ports = (0x20, 0x20) :: (0xa0, 0x20) :: cpu.ports := by
  simp only [saveContext, push_ports, outAl_eoi_ports, pushad_ports, pushSegment_ports]

/-- The list of port writes, the last one first, of a stub. -/
theorem enter_ports (vector : Fin 0x21) (returnAddress : BitVec 32) (cpu : Cpu) :
    (cpu.enter vector returnAddress).ports.map (fun write => (write.1.setWidth 16, write.2)) =
      eoiWrites.reverse ++ cpu.ports.map fun write => (write.1.setWidth 16, write.2) := by
  rw [enter]
  split
  · rw [saveContext_ports, push_ports]
    rfl
  · rw [saveContext_ports]
    rfl

end Cpu

/-- The writes of `pic_init`, each one followed by signals of the devices. -/
def picInitRun (noise : Nat → List Cascade.Signal) (chips : Cascade) : Cascade :=
  picInit.zipIdx.foldl
    (fun chips write => (noise write.2).foldl Cascade.signal (picOutb chips write.1)) chips

/-- What `pic_init` makes of the first controller. -/
def masterSetup : Setup where
  stage := .ready
  single := false
  needIcw4 := true
  base := 0x20
  cascade := 0x04
  autoEoi := false
  specialMask := false
  lowest := Fin.last 7
  imr level := (0xfe#8).getLsbD level.val
  isr _ := false

/-- What it makes of the second one. -/
def slaveSetup : Setup where
  stage := .ready
  single := false
  needIcw4 := true
  base := 0x28
  cascade := 0x02
  autoEoi := false
  specialMask := false
  lowest := Fin.last 7
  imr level := (0xff#8).getLsbD level.val
  isr _ := false

section Setups

variable {chips : Cascade}

/-- The two setups. -/
def setups (chips : Cascade) : Setup × Setup := (chips.master.setup, chips.slave.setup)

theorem signal_setups (chips : Cascade) (signal : Cascade.Signal) :
    setups (chips.signal signal) = setups chips := by
  cases signal with
  | master level high =>
      rw [Cascade.signal]
      split <;> rfl
  | slave level high => rfl

theorem signals_setups (chips : Cascade) (signals : List Cascade.Signal) :
    setups (signals.foldl Cascade.signal chips) = setups chips := by
  induction signals generalizing chips with
  | nil => rfl
  | cons signal signals ih => exact (ih _).trans (signal_setups chips signal)

/-- A write does to the setups what it does without the inputs. -/
def setupsOutb (pair : Setup × Setup) (write : BitVec 16 × BitVec 8) : Setup × Setup :=
  if write.1 = picMCtrl then (pair.1.control write.2, pair.2)
  else if write.1 = picMData then (pair.1.data write.2, pair.2)
  else if write.1 = picSCtrl then (pair.1, pair.2.control write.2)
  else if write.1 = picSData then (pair.1, pair.2.data write.2)
  else pair

theorem picOutb_setups (chips : Cascade) (write : BitVec 16 × BitVec 8) :
    setups (picOutb chips write) = setupsOutb (setups chips) write := by
  rw [picOutb, setupsOutb]
  split_ifs <;> rfl

/-- **`pic_init` programs both controllers**, from any state, with any signals in between. -/
theorem picInit_setups (noise : Nat → List Cascade.Signal) (chips : Cascade) :
    setups (picInitRun noise chips) = (masterSetup, slaveSetup) := by
  have fold (writes : List ((BitVec 16 × BitVec 8) × Nat)) (chips : Cascade) :
      setups (writes.foldl (fun chips write =>
        (noise write.2).foldl Cascade.signal (picOutb chips write.1)) chips) =
        writes.foldl (fun pair write => setupsOutb pair write.1) (setups chips) := by
    induction writes generalizing chips with
    | nil => rfl
    | cons write writes ih =>
        rw [List.foldl_cons, List.foldl_cons, ih, signals_setups, picOutb_setups]
  rw [picInitRun, fold]
  rfl

end Setups

/-- The input of the timer. -/
def timerLine : Fin 8 := ⟨0, Nat.zero_lt_succ 7⟩

/-- A request of the timer has its input high. -/
def Latched (chips : Cascade) : Prop :=
  chips.master.irr timerLine = true → chips.master.inputs timerLine = true

section Inputs

variable {chips : Cascade} {chip : Controller} {level : Fin 8} {high : Bool}

theorem drive_other (other : level ≠ timerLine) :
    (chip.drive level high).irr timerLine = chip.irr timerLine ∧
      (chip.drive level high).inputs timerLine = chip.inputs timerLine := by
  refine ⟨?_, Function.update_of_ne (Ne.symm other) _ _⟩
  simp only [Controller.drive]
  split_ifs with up seen
  · rfl
  · exact Function.update_of_ne (Ne.symm other) _ _
  · exact Function.update_of_ne (Ne.symm other) _ _

theorem settle_timer (chips : Cascade) :
    chips.settle.master.irr timerLine = chips.master.irr timerLine ∧
      chips.settle.master.inputs timerLine = chips.master.inputs timerLine :=
  drive_other (by decide)

theorem signal_latched (latched : Latched chips) (signal : Cascade.Signal) :
    Latched (chips.signal signal) := by
  cases signal with
  | slave level high =>
      obtain ⟨irr, inputs⟩ := settle_timer { chips with slave := chips.slave.drive level high }
      intro asked
      exact inputs.trans (latched (irr.symm.trans asked))
  | master level high =>
      rw [Cascade.signal]
      split
      · exact latched
      · by_cases timer : level = timerLine
        · subst timer
          intro asked
          cases high with
          | true => exact chips.master.drive_inputs timerLine true
          | false =>
              have low : (chips.master.drive timerLine false).irr timerLine = true := asked
              rw [Controller.drive_low] at low
              cases low
        · obtain ⟨irr, inputs⟩ := @drive_other chips.master level high timer
          intro asked
          exact inputs.trans (latched (irr.symm.trans asked))

theorem signals_latched (latched : Latched chips) (signals : List Cascade.Signal) :
    Latched (signals.foldl Cascade.signal chips) := by
  induction signals generalizing chips with
  | nil => exact latched
  | cons signal signals ih => exact ih (signal_latched latched signal)

/-- A write forgets the requests or leaves them. -/
theorem picOutb_latched (latched : Latched chips) (write : BitVec 16 × BitVec 8) :
    Latched (picOutb chips write) := by
  have settled (slave : Controller) : Latched (Cascade.settle { chips with slave }) := by
    obtain ⟨irr, inputs⟩ := settle_timer { chips with slave }
    intro asked
    exact inputs.trans (latched (irr.symm.trans asked))
  rw [picOutb]
  split_ifs
  · intro asked
    simp only [Controller.control] at asked ⊢
    split at asked
    · cases asked
    · exact latched asked
  · exact latched
  · exact settled _
  · exact settled _
  · exact latched

/-- The first word of `pic_init` makes a fresh start. -/
theorem picInitRun_latched (noise : Nat → List Cascade.Signal) (chips : Cascade) :
    Latched (picInitRun noise chips) := by
  have kept (writes : List ((BitVec 16 × BitVec 8) × Nat)) {chips : Cascade}
      (latched : Latched chips) :
      Latched (writes.foldl (fun chips write =>
        (noise write.2).foldl Cascade.signal (picOutb chips write.1)) chips) := by
    induction writes generalizing chips with
    | nil => exact latched
    | cons write writes ih =>
        exact ih (signals_latched (picOutb_latched latched write.1) (noise write.2))
  have fresh : Latched (picOutb chips (picMCtrl, 0x11)) := by
    intro asked
    cases asked
  have split : picInit.zipIdx = ((picMCtrl, 0x11), 0) :: picInit.zipIdx.tail := rfl
  rw [picInitRun, split, List.foldl_cons]
  exact kept picInit.zipIdx.tail (signals_latched fresh (noise 0))

end Inputs

/-- The controllers as `pic_init` leaves them, with the timer in service or not. -/
structure Programmed (chips : Cascade) : Prop where
  base : chips.master.setup.base = 0x20
  cascade : chips.master.setup.cascade = 0x04
  autoEoi : chips.master.setup.autoEoi = false
  imr : chips.master.setup.imr = masterSetup.imr
  alone : ∀ level, level ≠ timerLine → chips.master.setup.isr level = false
  latched : Latched chips

theorem programmed_picInitRun (noise : Nat → List Cascade.Signal) (chips : Cascade) :
    Programmed (picInitRun noise chips) ∧
      (picInitRun noise chips).master.setup.isr timerLine = false := by
  have both := picInit_setups noise chips
  have first : (picInitRun noise chips).master.setup = masterSetup := congrArg Prod.fst both
  refine ⟨⟨?_, ?_, ?_, ?_, ?_, picInitRun_latched noise chips⟩, ?_⟩
  · rw [first, masterSetup]
  · rw [first, masterSetup]
  · rw [first, masterSetup]
  · rw [first]
  · intro level _
    rw [first, masterSetup]
  · rw [first, masterSetup]

namespace Programmed

variable {chips : Cascade}

theorem single (programmed : Programmed chips) : chips.master.setup.Single timerLine := by
  have masks : ∀ other, other ≠ timerLine → masterSetup.imr other = true := by decide
  refine ⟨?_, ?_, programmed.alone⟩
  · rw [programmed.imr]
    decide
  · rwa [programmed.imr]

/-- The first controller waits for the timer only. -/
theorem pending (programmed : Programmed chips) :
    chips.master.pending =
      if chips.master.setup.isr timerLine then none
      else if chips.master.irr timerLine then some timerLine else none :=
  programmed.single.select (Setup.mem_order _ _)

theorem output (programmed : Programmed chips)
    (free : chips.master.setup.isr timerLine = false) :
    chips.master.output = chips.master.irr timerLine := by
  rw [Controller.output, programmed.pending, free]
  cases chips.master.irr timerLine with
  | true => rfl
  | false => rfl

theorem signal (programmed : Programmed chips) (signal : Cascade.Signal) :
    Programmed (chips.signal signal) ∧
      (chips.signal signal).master.setup.isr = chips.master.setup.isr := by
  have both := signal_setups chips signal
  have first : (chips.signal signal).master.setup = chips.master.setup := congrArg Prod.fst both
  obtain ⟨base, cascade, autoEoi, imr, alone, latched⟩ := programmed
  refine ⟨⟨?_, ?_, ?_, ?_, ?_, signal_latched latched signal⟩, ?_⟩
  · rwa [first]
  · rwa [first]
  · rwa [first]
  · rwa [first]
  · rwa [first]
  · rw [first]

/-- The vector of an acknowledgement: that of the timer, which goes into service, or the
spurious one. -/
theorem acknowledge_cases (programmed : Programmed chips)
    (free : chips.master.setup.isr timerLine = false) :
    (chips.master.irr timerLine = true ∧
        chips.acknowledge = (0x20, { chips with master := chips.master.serve timerLine })) ∨
      (chips.master.irr timerLine = false ∧ chips.acknowledge = (0x27, chips)) := by
  have timer : chips.master.vector timerLine = 0x20 := by
    rw [Controller.vector, programmed.base]
    rfl
  have spurious : chips.master.vector 7 = 0x27 := by
    rw [Controller.vector, programmed.base]
    rfl
  have apart : chips.master.setup.cascade.getLsbD timerLine.val = false := by
    rw [programmed.cascade]
    decide
  rw [Cascade.acknowledge, programmed.pending, free]
  cases asked : chips.master.irr timerLine with
  | true =>
      refine .inl ⟨rfl, ?_⟩
      simp only [Bool.false_eq_true, ↓reduceIte, apart, timer]
  | false =>
      refine .inr ⟨rfl, ?_⟩
      simp only [Bool.false_eq_true, ↓reduceIte, spurious]

/-- The timer goes into service, and its request is over. -/
theorem serve (programmed : Programmed chips) :
    Programmed { chips with master := chips.master.serve timerLine } := by
  obtain ⟨base, cascade, autoEoi, imr, alone, latched⟩ := programmed
  refine ⟨base, cascade, autoEoi, imr, ?_, ?_⟩
  · intro level other
    simp only [Controller.serve, Setup.beginService, autoEoi, Bool.false_eq_true, ↓reduceIte]
    rw [Function.update_of_ne other]
    exact alone level other
  · intro asked
    have low : (chips.master.serve timerLine).irr timerLine = true := asked
    rw [Controller.serve_irr] at low
    cases low

/-- The command for the second controller leaves the first one alone. -/
theorem eoi_slave (programmed : Programmed chips) :
    Programmed (picOutb chips (picSCtrl, 0x20)) ∧
      (picOutb chips (picSCtrl, 0x20)).master.irr timerLine = chips.master.irr timerLine := by
  obtain ⟨base, cascade, autoEoi, imr, alone, latched⟩ := programmed
  exact ⟨⟨base, cascade, autoEoi, imr, alone, picOutb_latched latched _⟩,
    (settle_timer { chips with slave := chips.slave.control 0x20 }).1⟩

/-- The command for the first one ends what is in service, and leaves the requests. -/
theorem eoi_master (programmed : Programmed chips) :
    Programmed (picOutb chips (picMCtrl, 0x20)) ∧
      (picOutb chips (picMCtrl, 0x20)).master.setup.isr timerLine = false ∧
      (picOutb chips (picMCtrl, 0x20)).master.irr timerLine = chips.master.irr timerLine := by
  obtain ⟨base, cascade, autoEoi, imr, alone, latched⟩ := programmed
  have first : (picOutb chips (picMCtrl, 0x20)).master.setup =
      { chips.master.setup with isr := fun _ => false } := Setup.ocw2_end alone
  refine ⟨⟨?_, ?_, ?_, ?_, ?_, picOutb_latched latched _⟩, ?_, rfl⟩
  · rwa [first]
  · rwa [first]
  · rwa [first]
  · rwa [first]
  · intro level _
    rw [first]
  · rw [first]

end Programmed

end OsElephant
