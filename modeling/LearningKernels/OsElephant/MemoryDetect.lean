import LearningKernels.OsElephant.AllocatorRuns

/-!
# Memory detection

The part of `loader.S` that asks the BIOS for the memory map and stores one number, the
size of memory, and `mem_init`, which reads that number back with paging on. The search
takes the highest end of any entry, usable or not, in signed 32-bit arithmetic; what it
stores is `OsElephant.highestEnd` of the map (`OsElephant.detectMemory_total`).
-/

namespace OsElephant

open Machine

/-- An address range descriptor of the BIOS. -/
structure Ards where
  base : BitVec 64
  length : BitVec 64
  type : BitVec 32
  deriving DecidableEq, Repr

/-- The address of `total_mem_bytes`. -/
def totalMemBytes : Nat := 0xb00

/-- The address of `ards_buf`. -/
def ardsBuf : Nat := 0xb0a

/-- The address of `ards_nr`. -/
def ardsNr : Nat := 0xbfe

/-- The data of the loader as it is assembled. -/
def loaderData (memory : Memory) : Memory :=
  clearBytes (clearBytes memory totalMemBytes 4) ardsBuf 246

/-- What `int 0x15` stores for one entry. -/
def storeArds (memory : Memory) (di : Nat) (entry : Ards) : Memory :=
  let memory := write32 memory di (entry.base.toNat % 2 ^ 32)
  let memory := write32 memory (di + 4) (entry.base.toNat / 2 ^ 32)
  let memory := write32 memory (di + 8) (entry.length.toNat % 2 ^ 32)
  let memory := write32 memory (di + 12) (entry.length.toNat / 2 ^ 32)
  write32 memory (di + 16) entry.type.toNat

/-- The loop at `.e820_mem_get_loop`, over the answers of the BIOS. -/
def e820MemGetLoop : List Ards → (di : Nat) → Memory → Memory
  | [], _, memory => memory
  | entry :: rest, di, memory =>
      let memory := storeArds memory di entry
      let di := (di + 20) % 2 ^ 16
      let memory := write16 memory ardsNr ((read16 memory ardsNr + 1) % 2 ^ 16)
      e820MemGetLoop rest di memory

/-- A doubleword as `jge` takes it. -/
def signed32 (value : Nat) : Int := if value < 2 ^ 31 then value else (value : Int) - 2 ^ 32

/-- The loop at `.find_max_mem_area`. -/
def findMaxMemArea (memory : Memory) : (cx ebx edx : Nat) → Nat
  | 0, _, edx => edx
  | cx + 1, ebx, edx =>
      let eax := (read32 memory ebx + read32 memory (ebx + 8)) % 2 ^ 32
      let edx := if signed32 edx ≥ signed32 eax then edx else eax
      findMaxMemArea memory cx (ebx + 20) edx

/-- From `loader_start` to `.mem_get_ok`, on a BIOS without errors. `loop` with a zero
count goes round 65536 times. -/
def detectMemory (map : List Ards) (memory : Memory) : Memory :=
  let memory := e820MemGetLoop map ardsBuf memory
  let cx := read16 memory ardsNr
  let edx := findMaxMemArea memory (if cx = 0 then 65536 else cx) ardsBuf 0
  write32 memory totalMemBytes edx

/-- `mem_init`. -/
def memInit : Path Kernel Unit := do
  let memBytesTotal ← load32 totalMemBytes
  memPoolInit memBytesTotal

/-- The kernel after the loader and `mem_init`, for a memory map. -/
def bootOn (map : List Ards) (before : Kernel) : Except Halt Kernel :=
  (memInit.run (boot { before with ram := detectMemory map (loaderData before.ram) })).map
    Prod.snd

/-- The end of an entry in 32 bits. -/
def Ards.end32 (entry : Ards) : Nat := (entry.base.toNat + entry.length.toNat) % 2 ^ 32

/-- The highest end below two gigabytes. -/
def highestEnd (map : List Ards) : Nat :=
  ((map.map Ards.end32).filter (· < 2 ^ 31)).foldl max 0

/-- Memory holds an entry. -/
structure HoldsArds (memory : Memory) (addr : Nat) (entry : Ards) : Prop where
  baseLow : read32 memory addr = entry.base.toNat % 2 ^ 32
  baseHigh : read32 memory (addr + 4) = entry.base.toNat / 2 ^ 32
  lengthLow : read32 memory (addr + 8) = entry.length.toNat % 2 ^ 32
  lengthHigh : read32 memory (addr + 12) = entry.length.toNat / 2 ^ 32
  type : read32 memory (addr + 16) = entry.type.toNat

/-- Memory holds a map, one entry behind the other. -/
def HoldsMap (memory : Memory) : Nat → List Ards → Prop
  | _, [] => True
  | addr, entry :: rest => HoldsArds memory addr entry ∧ HoldsMap memory (addr + 20) rest

section Collection

variable {memory other : Memory} {addr : Nat} {entry : Ards}

theorem HoldsArds.congr (holds : HoldsArds memory addr entry)
    (same : ∀ query, addr ≤ query → query < addr + 20 → other query = memory query) :
    HoldsArds other addr entry := by
  have same32 (offset : Nat) (inside : offset + 4 ≤ 20) :
      read32 other (addr + offset) = read32 memory (addr + offset) :=
    read32_congr fun query lower upper => same query (by omega) (by omega)
  exact ⟨(same32 0 (by decide)).trans holds.baseLow, (same32 4 (by decide)).trans holds.baseHigh,
    (same32 8 (by decide)).trans holds.lengthLow, (same32 12 (by decide)).trans holds.lengthHigh,
    (same32 16 (by decide)).trans holds.type⟩

theorem storeArds_of_outside (memory : Memory) (addr : Nat) (entry : Ards) {query : Nat}
    (outside : query < addr ∨ addr + 20 ≤ query) :
    storeArds memory addr entry query = memory query := by
  simp only [storeArds]
  rw [write32_of_outside _ _ _ _ (by omega), write32_of_outside _ _ _ _ (by omega),
    write32_of_outside _ _ _ _ (by omega), write32_of_outside _ _ _ _ (by omega),
    write32_of_outside _ _ _ _ (by omega)]

theorem storeArds_holds (memory : Memory) (addr : Nat) (entry : Ards) :
    HoldsArds (storeArds memory addr entry) addr entry := by
  have base := entry.base.isLt
  have length := entry.length.isLt
  constructor
  · simp only [storeArds]
    rw [read32_write32_of_apart _ _ _ _ (by omega), read32_write32_of_apart _ _ _ _ (by omega),
      read32_write32_of_apart _ _ _ _ (by omega), read32_write32_of_apart _ _ _ _ (by omega),
      read32_write32 _ _ _ (by omega)]
  · simp only [storeArds]
    rw [read32_write32_of_apart _ _ _ _ (by omega), read32_write32_of_apart _ _ _ _ (by omega),
      read32_write32_of_apart _ _ _ _ (by omega), read32_write32 _ _ _ (by omega)]
  · simp only [storeArds]
    rw [read32_write32_of_apart _ _ _ _ (by omega), read32_write32_of_apart _ _ _ _ (by omega),
      read32_write32 _ _ _ (by omega)]
  · simp only [storeArds]
    rw [read32_write32_of_apart _ _ _ _ (by omega), read32_write32 _ _ _ (by omega)]
  · simp only [storeArds]
    rw [read32_write32 _ _ _ entry.type.isLt]

/-- The collection loop stores the entries one behind the other and counts them, as long
as they fit in the buffer. -/
theorem e820MemGetLoop_run (rest : List Ards) {count : Nat}
    (counted : read16 memory ardsNr = count) (fits : count + rest.length ≤ 12) :
    read16 (e820MemGetLoop rest (ardsBuf + 20 * count) memory) ardsNr = count + rest.length ∧
      HoldsMap (e820MemGetLoop rest (ardsBuf + 20 * count) memory) (ardsBuf + 20 * count) rest ∧
      ∀ query < ardsBuf + 20 * count,
        e820MemGetLoop rest (ardsBuf + 20 * count) memory query = memory query := by
  induction rest generalizing memory count with
  | nil => exact ⟨counted, trivial, fun _ _ => rfl⟩
  | cons entry rest ih =>
      rw [List.length_cons] at fits ⊢
      have bufferEnd : ardsBuf + 20 * count + 20 ≤ ardsNr := by
        unfold ardsBuf ardsNr
        omega
      have small : ardsBuf + 20 * count + 20 < 2 ^ 16 := by
        unfold ardsBuf
        omega
      let stored := storeArds memory (ardsBuf + 20 * count) entry
      let next := write16 stored ardsNr ((read16 stored ardsNr + 1) % 2 ^ 16)
      have kept : read16 stored ardsNr = count := by
        rw [← counted]
        exact read16_congr fun query lower upper => storeArds_of_outside _ _ _ (by omega)
      have increased : read16 next ardsNr = count + 1 := by
        rw [read16_write16 _ _ _ (Nat.mod_lt _ (by decide)), kept]
        omega
      have entered : HoldsArds next (ardsBuf + 20 * count) entry :=
        (storeArds_holds memory _ entry).congr fun query lower upper =>
          write16_of_outside _ _ _ _ (by omega)
      have step : e820MemGetLoop (entry :: rest) (ardsBuf + 20 * count) memory =
          e820MemGetLoop rest (ardsBuf + 20 * (count + 1)) next := by
        rw [e820MemGetLoop, Nat.mod_eq_of_lt small, Nat.add_assoc, ← Nat.mul_add_one]
      obtain ⟨total, held, below⟩ := ih increased (by omega)
      rw [step]
      refine ⟨by omega, ⟨?_, ?_⟩, ?_⟩
      · exact entered.congr fun query lower upper => below query (by omega)
      · rwa [Nat.add_assoc, ← Nat.mul_add_one]
      · intro query inside
        rw [below query (by omega)]
        change write16 stored ardsNr _ query = _
        rw [write16_of_outside _ _ _ _ (by omega)]
        exact storeArds_of_outside _ _ _ (by omega)

end Collection

section Search

variable {memory : Memory}

theorem Ards.end32_eq {ebx : Nat} {entry : Ards} (holds : HoldsArds memory ebx entry) :
    (read32 memory ebx + read32 memory (ebx + 8)) % 2 ^ 32 = entry.end32 := by
  rw [holds.baseLow, holds.lengthLow, Ards.end32]
  omega

/-- One round of the search: ends from two gigabytes on are negative and never win. -/
theorem later_eq_max {edx eax : Nat} (positive : edx < 2 ^ 31) (word : eax < 2 ^ 32) :
    (if signed32 edx ≥ signed32 eax then edx else eax) =
      if eax < 2 ^ 31 then max edx eax else edx := by
  unfold signed32
  rw [if_pos positive]
  by_cases low : eax < 2 ^ 31
  · rw [if_pos low, if_pos low]
    split <;> omega
  · rw [if_neg low, if_neg low, if_pos (by omega)]

/-- The search returns the highest end below two gigabytes. -/
theorem findMaxMemArea_run (map : List Ards) {ebx edx : Nat} (holds : HoldsMap memory ebx map)
    (positive : edx < 2 ^ 31) :
    findMaxMemArea memory map.length ebx edx =
      ((map.map Ards.end32).filter (· < 2 ^ 31)).foldl max edx := by
  induction map generalizing ebx edx with
  | nil => rfl
  | cons entry rest ih =>
      obtain ⟨here, later⟩ := holds
      have word : entry.end32 < 2 ^ 32 := Nat.mod_lt _ (by decide)
      rw [List.length_cons, findMaxMemArea]
      simp only [Ards.end32_eq here, later_eq_max positive word]
      by_cases low : entry.end32 < 2 ^ 31
      · rw [if_pos low, ih later (by omega), List.map_cons,
          List.filter_cons_of_pos (by simpa using low), List.foldl_cons]
      · rw [if_neg low, ih later positive, List.map_cons,
          List.filter_cons_of_neg (by simpa using low)]

theorem highestEnd_lt (map : List Ards) : highestEnd map < 2 ^ 31 := by
  have bounded (ends : List Nat) (edx : Nat) (positive : edx < 2 ^ 31) :
      (ends.filter (· < 2 ^ 31)).foldl max edx < 2 ^ 31 := by
    induction ends generalizing edx with
    | nil => exact positive
    | cons first rest ih =>
        by_cases low : first < 2 ^ 31
        · rw [List.filter_cons_of_pos (by simpa using low), List.foldl_cons]
          exact ih _ (by omega)
        · rw [List.filter_cons_of_neg (by simpa using low)]
          exact ih _ positive
  exact bounded _ 0 (by decide)

theorem read16_loaderData (memory : Memory) : read16 (loaderData memory) ardsNr = 0 := by
  simp only [read16, loaderData, clearBytes, ardsNr, ardsBuf]
  rfl

theorem detectMemory_total (map : List Ards) (memory : Memory) (nonempty : 1 ≤ map.length)
    (few : map.length ≤ 12) :
    read32 (detectMemory map (loaderData memory)) totalMemBytes = highestEnd map := by
  obtain ⟨count, held, -⟩ :=
    @e820MemGetLoop_run (loaderData memory) map 0 (read16_loaderData memory) (by omega)
  simp only [Nat.mul_zero, Nat.add_zero, Nat.zero_add] at count held
  have small := highestEnd_lt map
  rw [detectMemory]
  simp only [count]
  rw [if_neg (by omega), findMaxMemArea_run map held (by decide)]
  exact read32_write32 _ _ _ (Nat.lt_trans small (by decide))

end Search

/-- With the loader's number, start-up is that of a memory as high as the highest end. -/
theorem bootOn_eq_start (map : List Ards) (before : Kernel) (nonempty : 1 ≤ map.length)
    (few : map.length ≤ 12) :
    bootOn map before =
      start { before with ram := detectMemory map (loaderData before.ram) } (highestEnd map) := by
  let detected : Kernel := { before with ram := detectMemory map (loaderData before.ram) }
  have found : walk (boot detected).ram (boot detected).cr3 totalMemBytes = some 0xb00 := by
    simp only [boot]
    exact (setupPage_bootTables detected.ram).walk_identity 0xb00 (by decide)
  have kept : read32 (boot detected).ram 0xb00 = highestEnd map := by
    rw [← detectMemory_total map before.ram nonempty few]
    simp only [boot]
    exact read32_congr fun query lower upper => setupPage_of_outside _ _ (by omega)
  rw [bootOn, start, memInit, Path.run_bind_of_ok (load32_run found), kept]

end OsElephant
