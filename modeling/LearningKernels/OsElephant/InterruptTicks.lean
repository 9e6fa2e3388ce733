import LearningKernels.OsElephant.InterruptRuns
import LearningKernels.OsElephant.Reports

/-!
# Ticks and handlers

In every run each request of the timer is served once or withdrawn
(`OsElephant.Board.ticks_balance`), and between two handlers nothing stays in service
(`OsElephant.Board.ready_at_rest`). Every handler that is called prints its line, and the test
for spurious vectors in `general_intr_handler` is never met
(`OsElephant.Board.handlers_report`).
-/

namespace OsElephant

open Machine

namespace Board

/-- The requests of the timer: each edge is one, and each is acknowledged, withdrawn or still
there. -/
def Tallied (first : Nat) (board : Board) : Prop :=
  board.ticks + board.withdrawn + (board.chips.master.irr timerLine).toNat = board.edges + first

section Steps

variable {board next : Board} {first : Nat}

/-- Another input is neither an edge of the timer nor the end of one. -/
theorem signal_other {chips : Cascade} {signal : Cascade.Signal}
    (other : ∀ high, signal ≠ .master timerLine high) :
    (chips.signal signal).master.irr timerLine = chips.master.irr timerLine ∧
      risesTimer chips signal = false ∧ withdrawsTimer chips signal = false := by
  refine ⟨?_, ?_, ?_⟩
  · cases signal with
    | slave level high =>
        exact (settle_timer { chips with slave := chips.slave.drive level high }).1
    | master level high =>
        rw [Cascade.signal]
        split
        · rfl
        · exact (drive_other fun same => other high (by rw [same])).1
  · rw [risesTimer, decide_eq_false (other true), Bool.false_and]
  · rw [withdrawsTimer, decide_eq_false (other false), Bool.false_and]

theorem Tallied.signal (tallied : Tallied first board) (latched : Latched board.chips)
    (signal : Cascade.Signal) (stepped : board.step (.signal signal) = some next) :
    Tallied first next := by
  cases stepped
  rw [Tallied] at tallied ⊢
  by_cases timer : ∃ high, signal = .master timerLine high
  · obtain ⟨high, rfl⟩ := timer
    have driven : (board.chips.signal (.master timerLine high)).master =
        board.chips.master.drive timerLine high := rfl
    simp only [driven]
    cases high with
    | false =>
        rw [Controller.drive_low, risesTimer, withdrawsTimer]
        simp only [Cascade.Signal.master.injEq, Bool.false_eq_true, and_false, decide_false,
          Bool.false_and, decide_true, Bool.true_and, Bool.toNat_false]
        omega
    | true =>
        rw [risesTimer, withdrawsTimer]
        cases inputs : board.chips.master.inputs timerLine with
        | true =>
            have same : (board.chips.master.drive timerLine true).irr timerLine =
                board.chips.master.irr timerLine := by
              simp only [Controller.drive, inputs, ↓reduceIte]
            rw [same]
            simp only [Cascade.Signal.master.injEq, Bool.true_eq_false, and_false, decide_false,
              Bool.false_and, Bool.toNat_false, decide_true, Bool.not_true, Bool.and_false]
            omega
        | false =>
            -- the input was low, so there was no request
            have none : board.chips.master.irr timerLine = false := by
              apply Bool.eq_false_iff.mpr
              intro asked
              rw [latched asked] at inputs
              cases inputs
            have some : (board.chips.master.drive timerLine true).irr timerLine = true := by
              simp only [Controller.drive, inputs, Bool.false_eq_true, ↓reduceIte,
                Function.update_self]
            rw [none] at tallied
            rw [some]
            simp only [Bool.toNat_false, Cascade.Signal.master.injEq, Bool.true_eq_false,
              and_false, decide_false, Bool.false_and, Bool.toNat_true, decide_true,
              Bool.not_false, Bool.and_self] at tallied ⊢
            omega
  · obtain ⟨same, noEdge, noEnd⟩ :=
      @signal_other board.chips signal fun high equal => timer ⟨high, equal⟩
    simp only [same, noEdge, noEnd, Bool.toNat_false, Nat.add_zero]
    exact tallied

theorem Tallied.step (tallied : Tallied first board) (sound : Sound board) {event : BoardEvent}
    (stepped : board.step event = some next) : Tallied first next := by
  cases event with
  | signal signal => exact tallied.signal sound.programmed.latched signal stepped
  | sti =>
      rw [Board.step] at stepped
      split at stepped
      · cases stepped
        exact tallied
      · cases stepped
  | cli =>
      rw [Board.step] at stepped
      split at stepped
      · cases stepped
        exact tallied
      · cases stepped
  | accept =>
      rw [Board.step] at stepped
      split at stepped
      · cases stepped
        exact tallied
      · cases stepped
  | acknowledge =>
      rw [Board.step] at stepped
      split at stepped
      · next accepting =>
          have free := sound.free (sound.outside (sound.accepted accepting))
          rw [Tallied] at tallied
          obtain ⟨asked, timer⟩ | ⟨asked, spurious⟩ := sound.programmed.acknowledge_cases free
          · rw [timer] at stepped
            cases stepped
            rw [asked, Bool.toNat_true] at tallied
            rw [Tallied]
            simp only [Controller.serve_irr, Bool.toNat_false, decide_true, Bool.toNat_true]
            omega
          · rw [spurious] at stepped
            cases stepped
            exact tallied
      · cases stepped
  | exception vector =>
      rw [Board.step] at stepped
      split at stepped
      · cases stepped
        exact tallied
      · cases stepped
  | eoi =>
      rw [Board.step] at stepped
      split at stepped
      · cases stepped
      next frame rest frames =>
      split at stepped
      · cases stepped
      next write found =>
      cases stepped
      have same : (picOutb board.chips write).master.irr timerLine =
          board.chips.master.irr timerLine := by
        obtain ⟨-, rfl⟩ | ⟨-, rfl⟩ := eoiWrites_cases found
        · exact sound.programmed.eoi_slave.2
        · exact sound.programmed.eoi_master.2.2
      rw [Tallied, same]
      exact tallied
  | iretd =>
      rw [Board.step] at stepped
      split at stepped
      · cases stepped
      · split at stepped
        · cases stepped
          exact tallied
        · cases stepped

/-- The run lemma. -/
theorem run_keeps (sound : Sound board) (tallied : Tallied first board)
    {events : List BoardEvent} (ran : board.run events = some next) :
    Sound next ∧ Tallied first next := by
  induction events generalizing board with
  | nil =>
      cases ran
      exact ⟨sound, tallied⟩
  | cons event events ih =>
      rw [run] at ran
      obtain ⟨middle, stepped, rest⟩ := Option.bind_eq_some_iff.mp ran
      exact ih (sound.step stepped) (tallied.step sound stepped) rest

end Steps

/-- The state in which `pic_init` returns. -/
def initial (noise : Nat → List Cascade.Signal) (chips : Cascade) : Board :=
  start (picInitRun noise chips)

theorem sound_initial (noise : Nat → List Cascade.Signal) (chips : Cascade) :
    Sound (initial noise chips) := by
  obtain ⟨programmed, free⟩ := programmed_picInitRun noise chips
  refine ⟨programmed, ?_, fun _ => rfl, ?_, trivial, ?_⟩
  · intro busy
    exact absurd (free.symm.trans busy) (by decide)
  · intro accepting
    cases accepting
  · intro frame member
    cases member

theorem tallied_initial (noise : Nat → List Cascade.Signal) (chips : Cascade) :
    Tallied ((picInitRun noise chips).master.irr timerLine).toNat (initial noise chips) := by
  have counts : 0 + 0 + ((picInitRun noise chips).master.irr timerLine).toNat =
      0 + ((picInitRun noise chips).master.irr timerLine).toNat := by omega
  exact counts

section Results

variable (noise : Nat → List Cascade.Signal) (chips : Cascade) (events : List BoardEvent)
  (board : Board)

/-- **No tick is lost or served twice.** In every run, the edges of the timer, with the request
`pic_init` may have left, are acknowledged, withdrawn or waiting. -/
theorem ticks_balance (ran : (initial noise chips).run events = some board) :
    board.ticks + board.withdrawn + (board.chips.master.irr timerLine).toNat =
      board.edges + ((picInitRun noise chips).master.irr timerLine).toNat :=
  (run_keeps (sound_initial noise chips) (tallied_initial noise chips) ran).2

/-- **Between handlers the controller is ready.** When every stub has sent its commands, no
level is in service. So with the interrupts on, the processor can accept one exactly when the
timer asks. -/
theorem ready_at_rest (ran : (initial noise chips).run events = some board) :
    ((∀ frame ∈ board.frames, frame.ended = true) →
        ∀ level, board.chips.master.setup.isr level = false) ∧
      (board.interruptFlag = true → board.accepting = false →
        ((board.step .accept).isSome = true ↔ board.chips.master.irr timerLine = true)) := by
  obtain ⟨sound, -⟩ := run_keeps (sound_initial noise chips) (tallied_initial noise chips) ran
  refine ⟨?_, ?_⟩
  · intro ended level
    by_cases timer : level = timerLine
    · subst timer
      apply Bool.eq_false_iff.mpr
      intro busy
      obtain ⟨frame, member, waiting⟩ := sound.served busy
      rw [ended frame member] at waiting
      cases waiting
    · exact sound.programmed.alone level timer
  · intro flag quiet
    have free := sound.free (sound.outside flag)
    rw [step, sound.programmed.output free]
    by_cases asked : board.chips.master.irr timerLine = true
    · rw [if_pos ⟨flag, quiet, asked⟩]
      exact iff_of_true rfl asked
    · rw [if_neg fun all => asked all.2.2]
      exact iff_of_false (fun some => by cases some) asked

end Results

end Board

namespace Reporter

/-- What `general_intr_handler` prints for a vector that has a gate. -/
theorem generalIntrHandler_eq_say {image : Image} {fuel : Nat} {reporter : Reporter}
    (linked : image.Linked reporter.ram) (enough : 14 < fuel) (gate : Fin 0x21) :
    reporter.generalIntrHandler image fuel (BitVec.ofNat 8 gate.val) =
      (reporter.numbered image (BitVec.ofNat 32 gate.val)).say
        (Literal.bytes .vector ++ hexText gate.val ++ [0x0a]) := by
  have ordinary : ∀ gate : Fin 0x21,
      ¬ (BitVec.ofNat 8 gate.val = 0x27 ∨ BitVec.ofNat 8 gate.val = 0x2f) := by decide
  have wide : (BitVec.ofNat 8 gate.val).setWidth 32 = BitVec.ofNat 32 gate.val := by
    apply BitVec.eq_of_toNat_eq
    rw [BitVec.toNat_setWidth, BitVec.toNat_ofNat, BitVec.toNat_ofNat]
    omega
  have number : (BitVec.ofNat 32 gate.val).toNat = gate.val := by
    rw [BitVec.toNat_ofNat]
    omega
  rw [generalIntrHandler, if_neg (ordinary gate), wide]
  simp only [← bind_assoc]
  rw [putStr_eq_say (linked .vector) enough, say_putInt, say_putChar, number]

end Reporter

/-- **Every handler reports.** The calls that a run makes come from exceptions, from the timer,
or from spurious interrupts; these have no gate and arrive as general-protection faults. So
the branch of `general_intr_handler` for spurious vectors is never taken. -/
theorem Board.handlers_report (noise : Nat → List Cascade.Signal) (chips : Cascade)
    (events : List BoardEvent) (board : Board)
    (ran : (initial noise chips).run events = some board) (image : Image) (reporter : Reporter)
    (linked : image.Linked reporter.ram) (fuel : Nat) (enough : 14 < fuel) :
    ∀ frame ∈ board.called, Sourced frame ∧
      reporter.generalIntrHandler image fuel (BitVec.ofNat 8 frame.gate.val) =
        (reporter.numbered image (BitVec.ofNat 32 frame.gate.val)).say
          (Literal.bytes .vector ++ hexText frame.gate.val ++ [0x0a]) := by
  obtain ⟨sound, -⟩ := run_keeps (sound_initial noise chips) (tallied_initial noise chips) ran
  intro frame member
  refine ⟨sound.sourced frame (List.mem_append_right _ member), ?_⟩
  exact Reporter.generalIntrHandler_eq_say linked enough frame.gate

namespace Board

/-- Controllers in some state, all inputs high and everything in service. -/
def powerOn : Cascade :=
  let chip : Controller :=
    ⟨⟨.icw3, true, false, 0x08, 0x00, true, true, Cascade.slaveLine, fun _ => true, fun _ => true⟩,
      fun _ => true, fun _ => true⟩
  ⟨chip, chip⟩

/-- A tick with its handler, and one that is withdrawn when it has been accepted. -/
def twoTicks : List BoardEvent :=
  [.signal (.master timerLine false), .sti, .signal (.master timerLine true), .accept,
    .acknowledge, .eoi, .eoi, .iretd, .signal (.master timerLine false),
    .signal (.master timerLine true), .accept, .signal (.master timerLine false), .acknowledge,
    .eoi, .eoi]

theorem ticks_balance_twoTicks :
    ∃ board, (initial (fun _ => []) powerOn).run twoTicks = some board ∧
      board.ticks + board.withdrawn + (board.chips.master.irr timerLine).toNat =
        board.edges + ((picInitRun (fun _ => []) powerOn).master.irr timerLine).toNat :=
  ⟨_, rfl, ticks_balance (fun _ => []) powerOn twoTicks _ rfl⟩

/-- Behind the two ticks nothing is in service; and back in the kernel, the processor can accept
the tick that has come meanwhile. -/
theorem ready_at_rest_twoTicks :
    (∃ board, (initial (fun _ => []) powerOn).run twoTicks = some board ∧
      ∀ level, board.chips.master.setup.isr level = false) ∧
    ∃ board, (initial (fun _ => []) powerOn).run
        (twoTicks ++ [.signal (.master timerLine true), .iretd]) = some board ∧
      (board.step .accept).isSome = true :=
  ⟨⟨_, rfl, (ready_at_rest (fun _ => []) powerOn twoTicks _ rfl).1 (by decide)⟩, _, rfl,
    ((ready_at_rest (fun _ => []) powerOn (twoTicks ++ [.signal (.master timerLine true), .iretd]) _
      rfl).2 rfl rfl).mpr rfl⟩

/-- The second interrupt is reported as a general-protection fault. -/
theorem handlers_report_twoTicks :
    ∃ board, (initial (fun _ => []) powerOn).run twoTicks = some board ∧
      board.called.map Frame.gate = [13, 0x20] ∧
      ∀ frame ∈ board.called, Sourced frame ∧
        linkedReporter.generalIntrHandler linkedImage 15 (BitVec.ofNat 8 frame.gate.val) =
          (linkedReporter.numbered linkedImage (BitVec.ofNat 32 frame.gate.val)).say
            (Literal.bytes .vector ++ hexText frame.gate.val ++ [0x0a]) :=
  ⟨_, rfl, rfl, handlers_report (fun _ => []) powerOn twoTicks _ rfl linkedImage linkedReporter
    linkedImage_linked 15 (by decide)⟩

end Board

end OsElephant
