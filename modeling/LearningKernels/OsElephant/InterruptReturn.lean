import LearningKernels.OsElephant.Interrupt

/-!
# Returning from an interrupt

What lies on the stack when a handler starts, and what `intr_exit` makes of it when the
handler has left it alone. With one word between the saved segment registers and the
return frame the interrupted context comes back; with none or two the stack pointer alone
is already off by a word.
-/

namespace OsElephant

open Machine

/-- The gate of a stub leads to the stub. -/
theorem offset_makeIdtDesc (attr : BitVec 8) (function : BitVec 32) :
    (makeIdtDesc attr function).offset = function := by
  apply BitVec.eq_of_getLsbD_eq
  intro bit inside
  have low (small : bit < 16) : (0x0000ffff#32).getLsbD bit = true := by
    have every : ∀ bit : Fin 16, (0x0000ffff#32).getLsbD bit.val = true := by decide
    exact every ⟨bit, small⟩
  have high (large : ¬ bit < 16) : (0xffff0000#32).getLsbD bit = true := by
    have every : ∀ bit : Fin 16, (0xffff0000#32).getLsbD (16 + bit.val) = true := by decide
    have shifted := every ⟨bit - 16, by omega⟩
    rwa [show 16 + (bit - 16) = bit by omega] at shifted
  rw [GateDesc.offset, makeIdtDesc, BitVec.getLsbD_append]
  by_cases small : bit < 16
  · have kept := low small
    rw [if_pos small, BitVec.getLsbD_setWidth, BitVec.getLsbD_and, kept]
    simp [small]
  · have within : bit - 16 < 16 := by omega
    have place : 16 + (bit - 16) = bit := by omega
    simp [small, within, place, high small]

/-- The words the processor pushes, from the last one on. -/
def returnFrame (vector : Fin 0x21) (errorCode : BitVec 32) (regs : Context) :
    List (BitVec 32) :=
  (if PushesErrorCode vector then [errorCode] else []) ++
    [regs.eip, regs.cs.setWidth 32, regs.eflags]

/-- The word the stub pushes in front of them, if any. -/
def fillerFrame (vector : Fin 0x21) : List (BitVec 32) :=
  match errorPush vector with
  | .zero => [0]
  | .errorCode => []

/-- The registers the stub saves, from the last one pushed on. -/
def registerFrame (esp : BitVec 32) (regs : Context) : List (BitVec 32) :=
  [regs.edi, regs.esi, regs.ebp, esp, regs.ebx, regs.edx, regs.ecx, regs.eax,
   regs.gs.setWidth 32, regs.fs.setWidth 32, regs.es.setWidth 32, regs.ds.setWidth 32]

/-- The number of bytes pushed between the interrupt and the argument of the handler. -/
def savedBytes (vector : Fin 0x21) : Nat :=
  48 + (if errorPush vector = .zero then 4 else 0) + (if PushesErrorCode vector then 4 else 0) + 12

/-- **The contract of a handler**: it returns to its caller with the stack pointer behind
the return address, keeps the registers that `cdecl` says it keeps, and leaves alone the
`saved` bytes behind its argument. -/
structure Cdecl (saved : Nat) (before after : Cpu) : Prop where
  eip : after.regs.eip = loadWord before.ram before.regs.esp
  esp : after.regs.esp = before.regs.esp + 4#32
  ebx : after.regs.ebx = before.regs.ebx
  ebp : after.regs.ebp = before.regs.ebp
  esi : after.regs.esi = before.regs.esi
  edi : after.regs.edi = before.regs.edi
  frame : ∀ offset, 8 ≤ offset → offset < 8 + saved →
    after.ram (before.regs.esp + BitVec.ofNat 32 offset) =
      before.ram (before.regs.esp + BitVec.ofNat 32 offset)

namespace Cpu

variable {cpu : Cpu} {words : List (BitVec 32)}

/-- The words on the stack of a processor. -/
def Holds (cpu : Cpu) (words : List (BitVec 32)) : Prop := Stacked cpu.ram cpu.regs.esp words

/-- Pushing words puts them in front, the last one pushed first. -/
theorem Holds.pushAll (holds : cpu.Holds words) (pushed : List (BitVec 32))
    (short : pushed.length + words.length ≤ 32) :
    Holds (pushed.foldr push cpu) (pushed ++ words) := by
  induction pushed with
  | nil => exact holds
  | cons word rest ih =>
      rw [List.length_cons] at short
      apply Stacked.push (ih (by omega))
      rw [List.length_append]
      omega

theorem push_regs (word : BitVec 32) (cpu : Cpu) :
    (cpu.push word).regs = { cpu.regs with esp := cpu.regs.esp - 4#32 } := rfl

theorem pushad_eq (cpu : Cpu) :
    cpu.pushad = [cpu.regs.edi, cpu.regs.esi, cpu.regs.ebp, cpu.regs.esp, cpu.regs.ebx,
      cpu.regs.edx, cpu.regs.ecx, cpu.regs.eax].foldr push cpu := by
  simp only [pushad, push_regs, List.foldr_cons, List.foldr_nil]

theorem deliver_holds (vector : Fin 0x21) (gate : GateDesc) (errorCode : BitVec 32) (cpu : Cpu) :
    (cpu.deliver vector gate errorCode).Holds (returnFrame vector errorCode cpu.regs) := by
  have none : cpu.Holds [] := trivial
  by_cases pushes : PushesErrorCode vector
  · simp only [deliver, returnFrame, pushes, ↓reduceIte]
    exact none.pushAll [errorCode, cpu.regs.eip, cpu.regs.cs.setWidth 32, cpu.regs.eflags]
      (by simp)
  · simp only [deliver, returnFrame, pushes, ↓reduceIte]
    exact none.pushAll [cpu.regs.eip, cpu.regs.cs.setWidth 32, cpu.regs.eflags] (by simp)

theorem deliver_esp (vector : Fin 0x21) (gate : GateDesc) (errorCode : BitVec 32) (cpu : Cpu) :
    (cpu.deliver vector gate errorCode).regs.esp =
      cpu.regs.esp - (12#32 + if PushesErrorCode vector then 4#32 else 0#32) := by
  by_cases pushes : PushesErrorCode vector
  · simp only [deliver, pushSegment, push_regs, pushes, ↓reduceIte]
    bv_omega
  · simp only [deliver, pushSegment, push_regs, pushes, ↓reduceIte]
    bv_omega

/-- The frame the stub makes, with the handler's argument and return address on top. -/
theorem Holds.saveContext (holds : cpu.Holds words) (short : words.length ≤ 8)
    (vector : Fin 0x21) (returnAddress : BitVec 32) :
    ∃ esp, (cpu.saveContext vector returnAddress).Holds (returnAddress ::
      BitVec.ofNat 32 vector.val :: (registerFrame esp cpu.regs ++ words)) := by
  have segments := holds.pushAll [cpu.regs.gs.setWidth 32, cpu.regs.fs.setWidth 32,
    cpu.regs.es.setWidth 32, cpu.regs.ds.setWidth 32]
    (by simp only [List.length_cons, List.length_nil]; omega)
  have general := segments.pushAll [cpu.regs.edi, cpu.regs.esi, cpu.regs.ebp,
    cpu.regs.esp - 4#32 - 4#32 - 4#32 - 4#32, cpu.regs.ebx, cpu.regs.edx, cpu.regs.ecx,
    cpu.regs.eax] (by simp only [List.length_append, List.length_cons, List.length_nil]; omega)
  have argument := general.pushAll [returnAddress, BitVec.ofNat 32 vector.val]
    (by simp only [List.length_append, List.length_cons, List.length_nil]; omega)
  refine ⟨cpu.regs.esp - 4#32 - 4#32 - 4#32 - 4#32, ?_⟩
  simp only [Cpu.saveContext, pushSegment, pushad_eq, push_regs]
  exact argument

theorem saveContext_esp (vector : Fin 0x21) (returnAddress : BitVec 32) (cpu : Cpu) :
    (cpu.saveContext vector returnAddress).regs.esp = cpu.regs.esp - 56#32 := by
  simp only [saveContext, pushSegment, pushad, movAl, outAl, push_regs]
  bv_omega

theorem Holds.enter (holds : cpu.Holds words) (short : words.length ≤ 4) (vector : Fin 0x21)
    (returnAddress : BitVec 32) :
    ∃ esp, (cpu.enter vector returnAddress).Holds (returnAddress :: BitVec.ofNat 32 vector.val ::
      (registerFrame esp cpu.regs ++ (fillerFrame vector ++ words))) := by
  cases filler : errorPush vector with
  | zero =>
      simp only [Cpu.enter, fillerFrame, filler]
      have filled := holds.pushAll [0] (by simp only [List.length_cons, List.length_nil]; omega)
      apply filled.saveContext
      simp only [List.length_append, List.length_cons, List.length_nil]
      omega
  | errorCode =>
      simp only [Cpu.enter, fillerFrame, filler]
      exact holds.saveContext (by omega) _ _

theorem enter_esp (vector : Fin 0x21) (returnAddress : BitVec 32) (cpu : Cpu) :
    (cpu.enter vector returnAddress).regs.esp =
      cpu.regs.esp - (56#32 + if errorPush vector = .zero then 4#32 else 0#32) := by
  cases filler : errorPush vector with
  | zero =>
      simp only [enter, saveContext_esp, push_regs, filler, ↓reduceIte]
      bv_omega
  | errorCode =>
      simp only [enter, saveContext_esp, filler, reduceCtorEq, ↓reduceIte]
      bv_omega

theorem intrExit_esp (cpu : Cpu) : cpu.intrExit.regs.esp = cpu.regs.esp + 68#32 := by
  simp only [intrExit, popad, pop, iretd, addEsp]
  bv_omega

/-- Over a frame with one word in front of the return frame, `intr_exit` restores. -/
theorem intrExit_restores {regs : Context} {esp filler : BitVec 32}
    (frame : Stacked cpu.ram (cpu.regs.esp + 4#32) (registerFrame esp regs ++
      [filler, regs.eip, regs.cs.setWidth 32, regs.eflags]))
    (bottom : cpu.regs.esp + 68#32 = regs.esp) : cpu.intrExit.regs = regs := by
  obtain ⟨edi, esi, ebp, -, ebx, edx, ecx, eax, gs, fs, es, ds, -, eip, cs, eflags, -⟩ := frame
  have narrow (segment : BitVec 16) : (segment.setWidth 32).setWidth 16 = segment := by simp
  have restored : cpu.intrExit.regs.esp = regs.esp := by rw [intrExit_esp, bottom]
  simp only [intrExit, popad, pop, iretd, addEsp] at restored ⊢
  simp only [edi, esi, ebp, ebx, edx, ecx, eax, gs, fs, es, ds, eip, cs, eflags, narrow, restored]

end Cpu

namespace Handlers

variable (handlers : Handlers) (vector : Fin 0x21) (cpu : Cpu)

/-- The stack pointer when the handler starts, by the two decisions about the error code. -/
theorem atCall_esp :
    (handlers.atCall vector cpu).regs.esp = cpu.regs.esp - (68#32 +
      ((if errorPush vector = .zero then 4#32 else 0#32) +
        if PushesErrorCode vector then 4#32 else 0#32)) := by
  rw [atCall, Cpu.enter_esp, Cpu.deliver_esp]
  generalize (if errorPush vector = .zero then 4#32 else 0#32) = filler
  generalize (if PushesErrorCode vector then 4#32 else 0#32) = code
  bv_omega

/-- The stack when the handler starts: its return address, its argument, the saved
registers, the word of the stub and what the processor pushed. -/
theorem atCall_holds :
    ∃ esp, (handlers.atCall vector cpu).Holds (handlers.returnAddress vector ::
      BitVec.ofNat 32 vector.val :: (registerFrame esp cpu.regs ++
        (fillerFrame vector ++ returnFrame vector handlers.errorCode cpu.regs))) := by
  have delivered := cpu.deliver_holds vector (idtDescInit handlers.intrEntryTable vector)
    handlers.errorCode
  have short : (returnFrame vector handlers.errorCode cpu.regs).length ≤ 4 := by
    unfold returnFrame
    split <;> simp
  obtain ⟨esp, holds⟩ := delivered.enter short vector (handlers.returnAddress vector)
  refine ⟨esp, ?_⟩
  have same : registerFrame esp (cpu.deliver vector (idtDescInit handlers.intrEntryTable vector)
      handlers.errorCode).regs = registerFrame esp cpu.regs := by
    by_cases pushes : PushesErrorCode vector
    · simp only [Cpu.deliver, Cpu.pushSegment, Cpu.push_regs, pushes, ↓reduceIte, registerFrame]
    · simp only [Cpu.deliver, Cpu.pushSegment, Cpu.push_regs, pushes, ↓reduceIte, registerFrame]
  rwa [same] at holds

/-- The stub pushes a word exactly when the processor does not. -/
def Agrees (vector : Fin 0x21) : Prop := errorPush vector = .zero ↔ ¬ PushesErrorCode vector

instance (vector : Fin 0x21) : Decidable (Agrees vector) :=
  inferInstanceAs (Decidable (_ ↔ _))

/-- The stubs that disagree with the processor are those of the stack fault and of five
reserved vectors. -/
theorem agrees_iff (vector : Fin 0x21) :
    Agrees vector ↔ vector.val ∉ [0x0c, 0x18, 0x1a, 0x1b, 0x1d, 0x1e] := by
  revert vector
  decide

variable {vector cpu}

theorem frame_of_agrees (agrees : Agrees vector) (errorCode : BitVec 32) (regs : Context) :
    ∃ filler, fillerFrame vector ++ returnFrame vector errorCode regs =
      [filler, regs.eip, regs.cs.setWidth 32, regs.eflags] := by
  by_cases pushes : PushesErrorCode vector
  · have kind : errorPush vector = .errorCode := by
      cases filler : errorPush vector with
      | zero => exact absurd pushes (agrees.mp filler)
      | errorCode => rfl
    simp only [fillerFrame, returnFrame, kind, pushes, ↓reduceIte]
    exact ⟨errorCode, rfl⟩
  · simp only [fillerFrame, returnFrame, agrees.mpr pushes, pushes, ↓reduceIte]
    exact ⟨0, rfl⟩

theorem savedBytes_eq (errorCode esp : BitVec 32) (regs : Context) :
    4 * (registerFrame esp regs ++ (fillerFrame vector ++ returnFrame vector errorCode
      regs)).length = savedBytes vector := by
  by_cases pushes : PushesErrorCode vector
  · cases filler : errorPush vector <;>
      simp [registerFrame, fillerFrame, returnFrame, savedBytes, filler, pushes]
  · cases filler : errorPush vector <;>
      simp [registerFrame, fillerFrame, returnFrame, savedBytes, filler, pushes]

/-- With one word between the saved registers and the return frame, the context comes
back. -/
theorem restores_of_agrees (agrees : Agrees vector)
    (cdecl : Cdecl (savedBytes vector) (handlers.atCall vector cpu)
      (handlers.idtTable vector (handlers.atCall vector cpu))) :
    (handlers.interrupt vector cpu).regs = cpu.regs := by
  obtain ⟨esp, -, -, frame⟩ := handlers.atCall_holds vector cpu
  have bottom := handlers.atCall_esp vector cpu
  have kept : Stacked (handlers.idtTable vector (handlers.atCall vector cpu)).ram
      ((handlers.idtTable vector (handlers.atCall vector cpu)).regs.esp + 4#32)
      (registerFrame esp cpu.regs ++
        (fillerFrame vector ++ returnFrame vector handlers.errorCode cpu.regs)) := by
    rw [cdecl.esp]
    apply frame.congr
    intro offset bound
    rw [savedBytes_eq] at bound
    have same := cdecl.frame (8 + offset) (by omega) (by omega)
    rwa [BitVec.ofNat_add, ← BitVec.add_assoc,
      show (handlers.atCall vector cpu).regs.esp + 8#32 =
        (handlers.atCall vector cpu).regs.esp + 4#32 + 4#32 by bv_omega] at same
  obtain ⟨filler, shape⟩ := frame_of_agrees agrees handlers.errorCode cpu.regs
  rw [shape] at kept
  apply Cpu.intrExit_restores kept
  rw [cdecl.esp, bottom]
  by_cases pushes : PushesErrorCode vector
  · have kind : errorPush vector ≠ .zero := fun zero => agrees.mp zero pushes
    simp only [pushes, kind, ↓reduceIte]
    bv_omega
  · simp only [pushes, agrees.mpr pushes, ↓reduceIte]
    bv_omega

/-- With no word or two words there, the stack pointer does not come back. -/
theorem esp_of_disagrees (disagrees : ¬ Agrees vector)
    (returned : (handlers.idtTable vector (handlers.atCall vector cpu)).regs.esp =
      (handlers.atCall vector cpu).regs.esp + 4#32) :
    (handlers.interrupt vector cpu).regs.esp ≠ cpu.regs.esp := by
  rw [interrupt, Cpu.intrExit_esp, returned, handlers.atCall_esp vector cpu]
  by_cases pushes : PushesErrorCode vector
  · have kind : errorPush vector = .zero := by
      by_contra other
      exact disagrees ⟨fun zero => absurd zero other, fun absent => absurd pushes absent⟩
    simp only [pushes, kind, ↓reduceIte]
    bv_omega
  · have kind : errorPush vector ≠ .zero := fun zero =>
      disagrees ⟨fun _ => pushes, fun _ => zero⟩
    simp only [pushes, kind, ↓reduceIte]
    bv_omega

/-- An interrupt goes to the stub of its vector and, through any handler that keeps its
contract, comes back with the interrupted context exactly for the vectors whose stub
agrees with the processor about the error code. -/
theorem interrupt_restores_iff (handlers : Handlers) (vector : Fin 0x21) (cpu : Cpu)
    (cdecl : Cdecl (savedBytes vector) (handlers.atCall vector cpu)
      (handlers.idtTable vector (handlers.atCall vector cpu))) :
    (idtDescInit handlers.intrEntryTable vector).offset = handlers.intrEntryTable vector ∧
      ((handlers.interrupt vector cpu).regs = cpu.regs ↔
        vector.val ∉ [0x0c, 0x18, 0x1a, 0x1b, 0x1d, 0x1e]) := by
  refine ⟨offset_makeIdtDesc _ _, ?_⟩
  rw [← agrees_iff]
  constructor
  · intro restored
    by_contra disagrees
    exact handlers.esp_of_disagrees disagrees cdecl.esp (by rw [restored])
  · exact fun agrees => handlers.restores_of_agrees agrees cdecl

/-- Handlers that return at once. -/
def returning : Handlers where
  intrEntryTable vector := BitVec.ofNat 32 (0xc0001500 + 64 * vector.val)
  returnAddress vector := BitVec.ofNat 32 (0xc0001500 + 64 * vector.val + 40)
  idtTable _ cpu :=
    { cpu with
      regs := { cpu.regs with
        eip := loadWord cpu.ram cpu.regs.esp
        esp := cpu.regs.esp + 4#32 } }
  errorCode := 0

/-- A processor in the kernel's code, with its stack at `0xc009f000`. -/
def inKernel : Cpu where
  regs := ⟨1, 2, 3, 4, 0xc009f000, 5, 6, 7, 0x10, 0x10, 0x10, 0x18, 0x08, 0xc0001600, 0x202⟩
  ram := fun _ => 0
  ports := []

theorem returning_cdecl (saved : Nat) (vector : Fin 0x21) (cpu : Cpu) :
    Cdecl saved cpu (returning.idtTable vector cpu) :=
  ⟨rfl, rfl, rfl, rfl, rfl, rfl, fun _ _ _ => rfl⟩

theorem interrupt_restores_iff_timer :
    (idtDescInit returning.intrEntryTable 0x20).offset = returning.intrEntryTable 0x20 ∧
      (returning.interrupt 0x20 inKernel).regs = inKernel.regs := by
  obtain ⟨offset, restored⟩ :=
    interrupt_restores_iff returning 0x20 inKernel (returning_cdecl _ _ _)
  exact ⟨offset, restored.mpr (by decide)⟩

/-- After a stack fault the context does not come back. -/
theorem stackFault_not_restored :
    Cdecl (savedBytes 0x0c) (returning.atCall 0x0c inKernel)
        (returning.idtTable 0x0c (returning.atCall 0x0c inKernel)) ∧
      (returning.interrupt 0x0c inKernel).regs ≠ inKernel.regs := by
  refine ⟨returning_cdecl _ _ _, fun restored => ?_⟩
  exact esp_of_disagrees returning (by decide) rfl (congrArg Context.esp restored)

end Handlers

end OsElephant
