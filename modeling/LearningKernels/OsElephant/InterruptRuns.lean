import LearningKernels.OsElephant.InterruptBoard

/-!
# Interrupts from the devices to the stubs

The controllers, the processor and the stubs of `kernel.S` together, from the end of
`pic_init` on. Devices may change their inputs at any time, also between the moment the
processor accepts an interrupt and its acknowledgement. Handlers run with the interrupts off,
and none of `idt_table` turns them on. The table has `0x21` gates, so that a spurious interrupt
ends in a general-protection fault. What every event keeps is `OsElephant.Board.Sound`.
-/

namespace OsElephant

open Machine

/-- The limit in the operand of `lidt`: `sizeof(idt) - 1`. -/
def idtLimit : Nat := 0x21 * 8 - 1

/-- The gate the processor takes for a vector: its own, or that of the general-protection
fault when its descriptor is not inside the limit. -/
def gateOf (vector : BitVec 8) : Fin 0x21 :=
  if inside : vector.toNat * 8 + 7 ≤ idtLimit then
    ⟨vector.toNat, by
      rw [idtLimit] at inside
      omega⟩
  else 13

/-- A stub that has not returned: the vector that was acknowledged, if it was no exception, the
gate, the interrupt flag to be restored, and how many end-of-interrupt commands are out. -/
structure Frame where
  source : Option (BitVec 8)
  gate : Fin 0x21
  saved : Bool
  eois : Nat
  deriving DecidableEq, Repr

/-- Both commands are out. -/
def Frame.ended (frame : Frame) : Bool := frame.eois = eoiWrites.length

/-- The controllers, the interrupt flag, whether the processor has accepted an interrupt that it
has not acknowledged, the stubs, and the handlers called so far. The last three count the
edges of the timer, the requests it withdrew and the ones that were acknowledged. -/
structure Board where
  chips : Cascade
  interruptFlag : Bool
  accepting : Bool
  frames : List Frame
  called : List Frame
  edges : Nat
  withdrawn : Nat
  ticks : Nat

/-- What can happen next. -/
inductive BoardEvent where
  | signal (signal : Cascade.Signal)
  | sti
  | cli
  | accept
  | acknowledge
  | exception (vector : Fin 0x20)
  | eoi
  | iretd
  deriving DecidableEq, Repr

namespace Board

/-- After `pic_init`, with the interrupts off. -/
def start (chips : Cascade) : Board where
  chips := chips
  interruptFlag := false
  accepting := false
  frames := []
  called := []
  edges := 0
  withdrawn := 0
  ticks := 0

/-- The signal is a rising edge of the timer. -/
def risesTimer (chips : Cascade) (signal : Cascade.Signal) : Bool :=
  signal = .master timerLine true && !chips.master.inputs timerLine

/-- The signal takes back a request of the timer. -/
def withdrawsTimer (chips : Cascade) (signal : Cascade.Signal) : Bool :=
  signal = .master timerLine false && chips.master.irr timerLine

/-- One event. The interrupt flag is changed by code outside the handlers only. -/
def step (board : Board) : BoardEvent → Option Board
  | .signal signal =>
      some { board with
        chips := board.chips.signal signal
        edges := board.edges + (risesTimer board.chips signal).toNat
        withdrawn := board.withdrawn + (withdrawsTimer board.chips signal).toNat }
  | .sti =>
      if board.frames = [] ∧ board.accepting = false then
        some { board with interruptFlag := true }
      else none
  | .cli =>
      if board.frames = [] ∧ board.accepting = false then
        some { board with interruptFlag := false }
      else none
  | .accept =>
      if board.interruptFlag = true ∧ board.accepting = false ∧ board.chips.master.output = true
      then some { board with accepting := true }
      else none
  | .acknowledge =>
      if board.accepting = true then
        let (vector, chips) := board.chips.acknowledge
        some { board with
          chips
          interruptFlag := false
          accepting := false
          frames := ⟨some vector, gateOf vector, board.interruptFlag, 0⟩ :: board.frames
          ticks := board.ticks + (vector = 0x20 : Bool).toNat }
      else none
  | .exception vector =>
      if board.accepting = false then
        some { board with
          interruptFlag := false
          frames := ⟨none, vector.castSucc, board.interruptFlag, 0⟩ :: board.frames }
      else none
  -- the next command of the stub; the handler is called behind the second one
  | .eoi =>
      match board.frames with
      | [] => none
      | frame :: rest =>
          match eoiWrites[frame.eois]? with
          | none => none
          | some write =>
              let frame := { frame with eois := frame.eois + 1 }
              some { board with
                chips := picOutb board.chips write
                frames := frame :: rest
                called := if frame.ended then frame :: board.called else board.called }
  | .iretd =>
      match board.frames with
      | [] => none
      | frame :: rest =>
          if frame.ended = true ∧ board.accepting = false then
            some { board with interruptFlag := frame.saved, frames := rest }
          else none

/-- A sequence of events. -/
def run (board : Board) : List BoardEvent → Option Board
  | [] => some board
  | event :: events => (board.step event).bind fun next => next.run events

/-- Only the outermost stub may return to code with the interrupts on. -/
def Nested : List Frame → Prop
  | [] => True
  | [_] => True
  | frame :: next :: rest => frame.saved = false ∧ Nested (next :: rest)

/-- Where the stub of a gate comes from: an exception, the timer, or a spurious interrupt that
became a general-protection fault. -/
def Sourced (frame : Frame) : Prop :=
  (frame.source = none ∧ frame.gate.val < 0x20) ∨
    (frame.source = some 0x20 ∧ frame.gate = 0x20) ∨
    (frame.source = some 0x27 ∧ frame.gate = 13)

/-- **What every event keeps.** -/
structure Sound (board : Board) : Prop where
  programmed : Programmed board.chips
  served : board.chips.master.setup.isr timerLine = true →
    ∃ frame ∈ board.frames, frame.ended = false
  outside : board.interruptFlag = true → board.frames = []
  accepted : board.accepting = true → board.interruptFlag = true
  nested : Nested board.frames
  sourced : ∀ frame ∈ board.frames ++ board.called, Sourced frame

section Steps

variable {board next : Board}

theorem nested_of_saved {frames other : List Frame}
    (same : frames.map Frame.saved = other.map Frame.saved) (nested : Nested frames) :
    Nested other := by
  induction frames generalizing other with
  | nil =>
      cases other with
      | nil => trivial
      | cons frame rest => cases same
  | cons frame frames ih =>
      cases other with
      | nil => cases same
      | cons frame' other =>
          obtain ⟨saved, rest⟩ := List.cons.inj same
          cases frames with
          | nil =>
              cases other with
              | nil => trivial
              | cons _ _ => cases rest
          | cons second frames =>
              cases other with
              | nil => cases rest
              | cons second' other => exact ⟨saved ▸ nested.1, ih rest nested.2⟩

theorem Nested.tail {frame : Frame} {rest : List Frame} (nested : Nested (frame :: rest)) :
    Nested rest ∧ (rest ≠ [] → frame.saved = false) := by
  cases rest with
  | nil => exact ⟨trivial, fun some => absurd rfl some⟩
  | cons second rest => exact ⟨nested.2, fun _ => nested.1⟩

/-- Without stubs nothing is in service. -/
theorem Sound.free (sound : Sound board) (alone : board.frames = []) :
    board.chips.master.setup.isr timerLine = false := by
  apply Bool.eq_false_iff.mpr
  intro busy
  obtain ⟨frame, member, -⟩ := sound.served busy
  rw [alone] at member
  cases member

theorem Sound.signal (sound : Sound board) (signal : Cascade.Signal)
    (stepped : board.step (.signal signal) = some next) : Sound next := by
  cases stepped
  obtain ⟨programmed, same⟩ := sound.programmed.signal signal
  refine ⟨programmed, ?_, sound.outside, sound.accepted, sound.nested, sound.sourced⟩
  intro busy
  exact sound.served (by rwa [← same])

theorem sourced_of_acknowledged {vector : BitVec 8} (vectors : vector = 0x20 ∨ vector = 0x27)
    (saved : Bool) (eois : Nat) : Sourced ⟨some vector, gateOf vector, saved, eois⟩ := by
  have timer : gateOf 0x20 = 0x20 := by decide
  have spurious : gateOf 0x27 = 13 := by decide
  obtain rfl | rfl := vectors
  · exact .inr (.inl ⟨rfl, timer⟩)
  · exact .inr (.inr ⟨rfl, spurious⟩)

theorem Sound.acknowledge (sound : Sound board)
    (stepped : board.step .acknowledge = some next) : Sound next := by
  rw [step] at stepped
  split at stepped
  · next accepting =>
      have alone := sound.outside (sound.accepted accepting)
      cases answer : board.chips.acknowledge with
      | mk vector chips =>
          rw [answer] at stepped
          cases stepped
          -- what the controllers answer, and what they become
          have reply : Programmed chips ∧ (vector = 0x20 ∨ vector = 0x27) := by
            obtain ⟨-, timer⟩ | ⟨-, spurious⟩ :=
              sound.programmed.acknowledge_cases (sound.free alone)
            · obtain ⟨rfl, rfl⟩ := Prod.mk.inj (answer.symm.trans timer)
              exact ⟨sound.programmed.serve, .inl rfl⟩
            · obtain ⟨rfl, rfl⟩ := Prod.mk.inj (answer.symm.trans spurious)
              exact ⟨sound.programmed, .inr rfl⟩
          refine ⟨reply.1, fun _ => ⟨_, List.mem_cons_self, rfl⟩, ?_, ?_, ?_, ?_⟩
          · intro flag
            cases flag
          · intro flag
            cases flag
          · rw [alone]
            trivial
          · exact List.forall_mem_cons.mpr
              ⟨sourced_of_acknowledged reply.2 _ _, sound.sourced⟩
  · cases stepped

theorem Sound.exception (sound : Sound board) {vector : Fin 0x20}
    (stepped : board.step (.exception vector) = some next) : Sound next := by
  rw [step] at stepped
  split at stepped
  · next quiet =>
      cases stepped
      refine ⟨sound.programmed, fun _ => ⟨_, List.mem_cons_self, rfl⟩, ?_, ?_, ?_, ?_⟩
      · intro flag
        cases flag
      · intro flag
        rw [quiet] at flag
        cases flag
      · cases frames : board.frames with
        | nil => trivial
        | cons frame rest =>
            -- inside a handler the interrupts are off
            have off : board.interruptFlag = false := by
              apply Bool.eq_false_iff.mpr
              intro flag
              rw [sound.outside flag] at frames
              cases frames
            refine ⟨off, ?_⟩
            rw [← frames]
            exact sound.nested
      · exact List.forall_mem_cons.mpr ⟨.inl ⟨rfl, vector.isLt⟩, sound.sourced⟩
  · cases stepped

/-- The stub of a command that is on its way. -/
theorem eoiWrites_cases {frame : Frame} {write : BitVec 16 × BitVec 8}
    (found : eoiWrites[frame.eois]? = some write) :
    (frame.eois = 0 ∧ write = (picSCtrl, 0x20)) ∨ (frame.eois = 1 ∧ write = (picMCtrl, 0x20)) := by
  obtain ⟨inside, same⟩ := List.getElem?_eq_some_iff.mp found
  have few : frame.eois < 2 := inside
  obtain first | second : frame.eois = 0 ∨ frame.eois = 1 := by omega
  · simp only [first] at same
    exact .inl ⟨first, same.symm⟩
  · simp only [second] at same
    exact .inr ⟨second, same.symm⟩

theorem Sound.eoi (sound : Sound board) (stepped : board.step .eoi = some next) : Sound next := by
  rw [step] at stepped
  split at stepped
  · cases stepped
  next frame rest frames =>
  split at stepped
  · cases stepped
  next write found =>
  cases stepped
  have sourced := sound.sourced
  rw [frames] at sourced
  have entered : Sourced { frame with eois := frame.eois + 1 } := sourced frame List.mem_cons_self
  have flag : board.interruptFlag = false := by
    apply Bool.eq_false_iff.mpr
    intro flag
    rw [sound.outside flag] at frames
    cases frames
  have chips : Programmed (picOutb board.chips write) ∧
      ((picOutb board.chips write).master.setup.isr timerLine = true →
        ({ frame with eois := frame.eois + 1 } : Frame).ended = false) := by
    obtain ⟨first, rfl⟩ | ⟨second, rfl⟩ := eoiWrites_cases found
    · refine ⟨sound.programmed.eoi_slave.1, fun _ => ?_⟩
      rw [Frame.ended, first]
      rfl
    · obtain ⟨programmed, free, -⟩ := sound.programmed.eoi_master
      refine ⟨programmed, fun busy => ?_⟩
      rw [free] at busy
      cases busy
  refine ⟨chips.1, fun busy => ⟨_, List.mem_cons_self, chips.2 busy⟩, ?_, sound.accepted, ?_, ?_⟩
  · intro set
    rw [flag] at set
    cases set
  · refine nested_of_saved ?_ sound.nested
    rw [frames]
    rfl
  · intro other member
    obtain first | later := List.mem_append.mp member
    · obtain rfl | among := List.mem_cons.mp first
      · exact entered
      · exact sourced other (List.mem_append_left _ (List.mem_cons_of_mem _ among))
    · simp only at later
      split at later
      · obtain rfl | among := List.mem_cons.mp later
        · exact entered
        · exact sourced other (List.mem_append_right _ among)
      · exact sourced other (List.mem_append_right _ later)

theorem Sound.iretd (sound : Sound board) (stepped : board.step .iretd = some next) :
    Sound next := by
  rw [step] at stepped
  split at stepped
  · cases stepped
  next frame rest frames =>
  split at stepped
  · next quiet =>
      cases stepped
      have nested := sound.nested
      rw [frames] at nested
      obtain ⟨inner, restored⟩ := nested.tail
      refine ⟨sound.programmed, ?_, ?_, ?_, inner, ?_⟩
      · intro busy
        obtain ⟨frame, member, waiting⟩ := sound.served busy
        rw [frames] at member
        obtain rfl | among := List.mem_cons.mp member
        · rw [quiet.1] at waiting
          cases waiting
        · exact ⟨frame, among, waiting⟩
      · intro flag
        by_contra more
        exact absurd (flag.symm.trans (restored more)) (by decide)
      · intro accepting
        rw [quiet.2] at accepting
        cases accepting
      · intro frame member
        apply sound.sourced
        rw [frames]
        exact List.mem_cons_of_mem _ member
  · cases stepped

/-- The step lemma. -/
theorem Sound.step (sound : Sound board) {event : BoardEvent}
    (stepped : board.step event = some next) : Sound next := by
  cases event with
  | signal signal => exact sound.signal signal stepped
  | sti =>
      rw [Board.step] at stepped
      split at stepped
      · next still =>
          cases stepped
          exact { sound with outside := fun _ => still.1, accepted := fun _ => rfl }
      · cases stepped
  | cli =>
      rw [Board.step] at stepped
      split at stepped
      · next still =>
          cases stepped
          refine { sound with outside := fun _ => still.1, accepted := ?_ }
          intro accepting
          rw [still.2] at accepting
          cases accepting
      · cases stepped
  | accept =>
      rw [Board.step] at stepped
      split at stepped
      · next asked =>
          cases stepped
          exact { sound with accepted := fun _ => asked.1 }
      · cases stepped
  | acknowledge => exact sound.acknowledge stepped
  | exception vector => exact sound.exception stepped
  | eoi => exact sound.eoi stepped
  | iretd => exact sound.iretd stepped

end Steps

end Board

end OsElephant
