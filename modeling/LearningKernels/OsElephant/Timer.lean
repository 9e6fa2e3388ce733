import Mathlib.Data.List.Induction
import Mathlib.Logic.Function.Basic

/-!
# Programming the timer

`frequency_set` of `timer.c` against the 8253 it writes to. The last line shifts after the
cast, `(uint8_t)counter_value >> 8`, so the second byte is always zero: a counter keeps the
low byte of the value only. Sequences of calls come out as intended exactly where the last
value of each counter fits in a byte (`OsElephant.Pit.roundTrips_iff`).
-/

namespace OsElephant

/-- `PIT_CONTROL_PORT`. -/
def pitControlPort : BitVec 16 := 0x43

/-- The bytes `frequency_set` puts out, with their ports. -/
def frequencySet (counterPort counterNo rwl counterMode : BitVec 8) (counterValue : BitVec 16) :
    List (BitVec 16 × BitVec 8) :=
  let int (byte : BitVec 8) : BitVec 32 := byte.setWidth 32
  [(pitControlPort, (int counterNo <<< 6 ||| int rwl <<< 4 ||| int counterMode <<< 1).setWidth 8),
   (counterPort.setWidth 16, counterValue.setWidth 8),
   (counterPort.setWidth 16, (int (counterValue.setWidth 8) >>> 8).setWidth 8)]

/-- A counter of the 8253: its mode, its read/write field, the byte written first of a pair
that is not complete, and the value it reloads. -/
structure Counter where
  mode : BitVec 3
  readWrite : BitVec 2
  pending : Option (BitVec 8)
  reload : BitVec 16
  deriving DecidableEq, Repr

/-- A byte written to the port of a counter: the low byte, the high byte, or the one and
then the other. -/
def Counter.write (value : BitVec 8) (counter : Counter) : Counter :=
  if counter.readWrite = 1 then { counter with reload := 0#8 ++ value }
  else if counter.readWrite = 2 then { counter with reload := value ++ 0#8 }
  else if counter.readWrite = 3 then
    match counter.pending with
    | none => { counter with pending := some value }
    | some low => { counter with pending := none, reload := value ++ low }
  else counter

/-- Two bytes to a counter that takes both make its value. -/
theorem Counter.write_write {counter : Counter} (both : counter.readWrite = 3)
    (fresh : counter.pending = none) (low high : BitVec 8) :
    (counter.write low).write high = { counter with pending := none, reload := high ++ low } := by
  simp only [write, both, fresh]
  rfl

/-- The three counters of an 8253. -/
abbrev Pit := Fin 3 → Counter

namespace Pit

/-- A control word: bits 7 and 6 name the counter, bits 5 and 4 how it is written, bits 3 to
1 the mode. A zero in bits 5 and 4 only latches the count, and there is no fourth
counter. -/
def control (word : BitVec 8) (pit : Pit) : Pit :=
  if inside : (word.extractLsb' 6 2).toNat < 3 then
    if word.extractLsb' 4 2 = 0 then pit
    else
      Function.update pit ⟨(word.extractLsb' 6 2).toNat, inside⟩
        { pit ⟨(word.extractLsb' 6 2).toNat, inside⟩ with
          mode := word.extractLsb' 1 3
          readWrite := word.extractLsb' 4 2
          pending := none }
  else pit

/-- `outb` to a port of the chip. -/
def outb (pit : Pit) (write : BitVec 16 × BitVec 8) : Pit :=
  if write.1 = pitControlPort then pit.control write.2
  else if write.1 = 0x40 then Function.update pit 0 ((pit 0).write write.2)
  else if write.1 = 0x41 then Function.update pit 1 ((pit 1).write write.2)
  else if write.1 = 0x42 then Function.update pit 2 ((pit 2).write write.2)
  else pit

end Pit

/-- A call `frequency_set(0x40 + counter, counter, 3, mode, value)`. -/
structure TimerCall where
  counter : Fin 3
  mode : Fin 6
  value : BitVec 16
  deriving DecidableEq, Repr

/-- The bytes of a call. -/
def TimerCall.writes (call : TimerCall) : List (BitVec 16 × BitVec 8) :=
  frequencySet (0x40 + BitVec.ofNat 8 call.counter) (BitVec.ofNat 8 call.counter) 3
    (BitVec.ofNat 8 call.mode) call.value

namespace Pit

/-- The chip after a call. -/
def call (pit : Pit) (request : TimerCall) : Pit := request.writes.foldl outb pit

/-- The chip after calls in a row. -/
def calls (pit : Pit) (requests : List TimerCall) : Pit := requests.foldl call pit

end Pit

/-- The last call made for a counter. -/
def lastCall (requests : List TimerCall) (counter : Fin 3) : Option TimerCall :=
  requests.reverse.find? fun request => request.counter = counter

namespace Pit

/-- **The intended effect of a sequence of calls.** Each counter has the mode and the value of
the last call made for it, and its state is that after its own calls alone. -/
def RoundTrips (pit : Pit) (requests : List TimerCall) : Prop :=
  ∀ counter,
    (∀ request, lastCall requests counter = some request →
      (pit.calls requests counter).mode = BitVec.ofNat 3 request.mode ∧
        (pit.calls requests counter).reload = request.value) ∧
      pit.calls requests counter =
        pit.calls (requests.filter fun request => request.counter = counter) counter

/-- The fields of the control word of a call. -/
theorem control_fields (counter : Fin 3) (mode : Fin 6) :
    let word := ((BitVec.ofNat 8 counter).setWidth 32 <<< 6 ||| (3 : BitVec 8).setWidth 32 <<< 4 |||
      (BitVec.ofNat 8 mode).setWidth 32 <<< 1 : BitVec 32).setWidth 8
    (word.extractLsb' 6 2).toNat = counter ∧ word.extractLsb' 4 2 = 3 ∧
      word.extractLsb' 1 3 = BitVec.ofNat 3 mode := by
  revert counter mode
  decide

theorem control_of_fields {word : BitVec 8} {counter : Fin 3} {mode : BitVec 3} (pit : Pit)
    (number : (word.extractLsb' 6 2).toNat = counter) (both : word.extractLsb' 4 2 = 3)
    (field : word.extractLsb' 1 3 = mode) :
    pit.control word =
      Function.update pit counter { pit counter with mode, readWrite := 3, pending := none } := by
  have inside : (word.extractLsb' 6 2).toNat < 3 := number ▸ counter.isLt
  have named : (⟨(word.extractLsb' 6 2).toNat, inside⟩ : Fin 3) = counter := Fin.ext number
  have writes : (3 : BitVec 2) ≠ 0 := by decide
  simp only [control, inside, ↓reduceDIte, both, writes, ↓reduceIte, named, field]

/-- A byte to the port of a counter. -/
theorem outb_counter (pit : Pit) (counter : Fin 3) (value : BitVec 8) :
    pit.outb ((0x40 + BitVec.ofNat 8 counter : BitVec 8).setWidth 16, value) =
      Function.update pit counter ((pit counter).write value) := by
  match counter with
  | 0 => rfl
  | 1 => rfl
  | 2 => rfl

/-- The shift comes after the cast. -/
theorem high_byte (value : BitVec 16) :
    (((value.setWidth 8).setWidth 32 >>> 8 : BitVec 32)).setWidth 8 = 0#8 := by
  apply BitVec.eq_of_toNat_eq
  simp only [BitVec.toNat_setWidth, BitVec.toNat_ushiftRight, Nat.shiftRight_eq_div_pow,
    BitVec.toNat_ofNat]
  omega

/-- What a call does: to one counter, and with the low byte of the value. -/
theorem call_eq (pit : Pit) (request : TimerCall) :
    pit.call request = Function.update pit request.counter
      { mode := BitVec.ofNat 3 request.mode
        readWrite := 3
        pending := none
        reload := 0#8 ++ request.value.setWidth 8 } := by
  obtain ⟨number, both, field⟩ := control_fields request.counter request.mode
  have first (word : BitVec 8) : pit.outb (pitControlPort, word) = pit.control word := rfl
  simp only [call, TimerCall.writes, frequencySet, List.foldl_cons, List.foldl_nil, first,
    control_of_fields pit number both field, outb_counter, Function.update_self,
    Function.update_idem, high_byte]
  rw [Counter.write_write rfl rfl]

theorem calls_append (pit : Pit) (requests : List TimerCall) (request : TimerCall) :
    pit.calls (requests ++ [request]) = (pit.calls requests).call request := by
  rw [calls, List.foldl_append]
  rfl

theorem lastCall_append (requests : List TimerCall) (request : TimerCall) (counter : Fin 3) :
    lastCall (requests ++ [request]) counter =
      if request.counter = counter then some request else lastCall requests counter := by
  rw [lastCall, List.reverse_append, List.reverse_singleton, List.singleton_append, List.find?_cons]
  by_cases named : request.counter = counter
  · simp only [named, decide_true, ↓reduceIte]
  · simp only [named, decide_false, ↓reduceIte]
    rfl

/-- A sequence leaves each counter as the last call for it does. -/
theorem calls_eq (pit : Pit) (requests : List TimerCall) (counter : Fin 3) :
    pit.calls requests counter =
      match lastCall requests counter with
      | none => pit counter
      | some request =>
          { mode := BitVec.ofNat 3 request.mode
            readWrite := 3
            pending := none
            reload := 0#8 ++ request.value.setWidth 8 } := by
  induction requests using List.reverseRecOn with
  | nil => rfl
  | append_singleton requests request ih =>
      rw [calls_append, lastCall_append, call_eq]
      by_cases named : request.counter = counter
      · rw [if_pos named, ← named, Function.update_self]
      · rw [if_neg named, Function.update_of_ne (Ne.symm named), ih]

/-- The last call for a counter is the last one of its own calls. -/
theorem lastCall_filter (requests : List TimerCall) (counter : Fin 3) :
    lastCall (requests.filter fun request => request.counter = counter) counter =
      lastCall requests counter := by
  rw [lastCall, lastCall, ← List.filter_reverse, List.find?_filter]
  simp only [decide_eq_true_eq, and_self]

/-- A value comes through if and only if it is its own low byte. -/
theorem low_byte_iff (value : BitVec 16) : 0#8 ++ value.setWidth 8 = value ↔ value.toNat < 256 := by
  have number : (0#8 ++ value.setWidth 8 : BitVec 16).toNat = value.toNat % 256 := by
    rw [BitVec.toNat_append, BitVec.toNat_setWidth]
    simp
  constructor
  · intro same
    rw [← same, number]
    exact Nat.mod_lt _ (by decide)
  · intro small
    apply BitVec.eq_of_toNat_eq
    rw [number, Nat.mod_eq_of_lt small]

/-- **Where the timer is programmed as intended.** The modes and the separation of the
counters always come out; the values do exactly if the last one for each counter fits in
a byte. -/
theorem roundTrips_iff (pit : Pit) (requests : List TimerCall) :
    pit.RoundTrips requests ↔
      ∀ counter request, lastCall requests counter = some request → request.value.toNat < 256 := by
  constructor
  · intro intended counter request last
    obtain ⟨-, value⟩ := (intended counter).1 request last
    rw [calls_eq, last] at value
    exact (low_byte_iff request.value).mp value
  · intro small counter
    refine ⟨?_, ?_⟩
    · intro request last
      rw [calls_eq, last]
      exact ⟨rfl, (low_byte_iff request.value).mpr (small counter request last)⟩
    · rw [calls_eq, calls_eq, lastCall_filter]

/-- The call of `timer_init`: 1193180 / 100 is 11931, and the counter reloads 155. -/
def timerInit : TimerCall where
  counter := 0
  mode := 2
  value := 11931

theorem not_roundTrips_timerInit :
    ¬ RoundTrips (fun _ => ⟨0, 0, none, 0⟩) [timerInit] := by
  intro intended
  obtain ⟨-, value⟩ := (intended 0).1 timerInit (by decide)
  exact absurd value (by decide)

end Pit

end OsElephant
