import LearningKernels.OsElephant.MemoryDetect

/-!
# The buffer of the memory map

The BIOS decides how many entries `.e820_mem_get_loop` stores; the buffer has room for
twelve, and behind it stand the counter and the code of the loader. The loop stays in its
buffer exactly for maps of at most twelve entries (`OsElephant.staysInBuffer_iff`). On
such a map the search then stores the highest end of all entries exactly when no end
reaches the sign bit of its comparison (`OsElephant.detectMemory_maximum_iff`).
-/

namespace OsElephant

open Machine

/-- The size of `ards_buf`. -/
def ardsBufSize : Nat := 244

/-- The address of `loader_start`, behind `ards_nr`. -/
def loaderStart : Nat := 0xc00

/-- The addresses the BIOS stores to through `di`, one entry after the other. -/
def storedThroughDi : List Ards → (di : Nat) → List Nat
  | [], _ => []
  | _ :: rest, di => List.range' di 20 ++ storedThroughDi rest ((di + 20) % 2 ^ 16)

/-- The collection loop stores through `di` inside the buffer, counts the entries and leaves
the code of the loader alone. -/
structure StaysInBuffer (memory : Memory) (map : List Ards) : Prop where
  inside : ∀ addr ∈ storedThroughDi map ardsBuf, ardsBuf ≤ addr ∧ addr < ardsBuf + ardsBufSize
  counted : read16 (e820MemGetLoop map ardsBuf memory) ardsNr = map.length
  codeKept : ∀ addr, loaderStart ≤ addr → e820MemGetLoop map ardsBuf memory addr = memory addr

/-- The loop stores through `di` and to the counter, and nowhere else. -/
theorem e820MemGetLoop_of_outside (map : List Ards) {di : Nat} {memory : Memory} {query : Nat}
    (apart : query ∉ storedThroughDi map di) (counter : query < ardsNr ∨ ardsNr + 2 ≤ query) :
    e820MemGetLoop map di memory query = memory query := by
  induction map generalizing di memory with
  | nil => rfl
  | cons entry rest ih =>
      rw [storedThroughDi, List.mem_append, List.mem_range'_1, not_or] at apart
      rw [e820MemGetLoop, ih apart.2, write16_of_outside _ _ _ _ counter]
      exact storeArds_of_outside _ _ _ (by omega)

/-- While the entries fit, they stand one behind the other. -/
theorem storedThroughDi_bounds (rest : List Ards) {count : Nat} (fits : count + rest.length ≤ 12)
    {addr : Nat} (stored : addr ∈ storedThroughDi rest (ardsBuf + 20 * count)) :
    ardsBuf ≤ addr ∧ addr < ardsBuf + 240 := by
  induction rest generalizing count with
  | nil => cases stored
  | cons entry rest ih =>
      rw [List.length_cons] at fits
      have small : ardsBuf + 20 * count + 20 < 2 ^ 16 := by
        unfold ardsBuf
        omega
      rw [storedThroughDi, List.mem_append, List.mem_range'_1, Nat.mod_eq_of_lt small,
        Nat.add_assoc, ← Nat.mul_add_one] at stored
      rcases stored with here | later
      · omega
      · exact ih (by omega) later

/-- The thirteenth entry begins inside the buffer and covers the counter. -/
theorem ardsNr_mem_storedThroughDi (rest : List Ards) {count : Nat} (within : count ≤ 12)
    (many : 12 < count + rest.length) :
    ardsNr ∈ storedThroughDi rest (ardsBuf + 20 * count) := by
  induction rest generalizing count with
  | nil =>
      rw [List.length_nil] at many
      omega
  | cons entry rest ih =>
      rw [List.length_cons] at many
      have small : ardsBuf + 20 * count + 20 < 2 ^ 16 := by
        unfold ardsBuf
        omega
      rw [storedThroughDi, List.mem_append, List.mem_range'_1, Nat.mod_eq_of_lt small,
        Nat.add_assoc, ← Nat.mul_add_one]
      by_cases last : count = 12
      · left
        unfold ardsNr ardsBuf
        omega
      · exact .inr (ih (by omega) (by omega))

/-- The collection loop stays in its buffer exactly when the BIOS gives at most twelve
entries. -/
theorem staysInBuffer_iff (memory : Memory) (map : List Ards) :
    StaysInBuffer (loaderData memory) map ↔ map.length ≤ 12 := by
  constructor
  · intro stays
    by_contra many
    have reached := @ardsNr_mem_storedThroughDi map 0 (by decide) (by omega)
    exact absurd (stays.inside ardsNr reached).2 (by decide)
  · intro few
    have bounds {addr : Nat} (stored : addr ∈ storedThroughDi map ardsBuf) :=
      @storedThroughDi_bounds map 0 (by omega) addr stored
    obtain ⟨count, -, -⟩ :=
      @e820MemGetLoop_run (loaderData memory) map 0 (read16_loaderData memory) (by omega)
    refine ⟨?_, ?_, ?_⟩
    · intro addr stored
      have inside := bounds stored
      unfold ardsBufSize
      omega
    · rwa [Nat.zero_add] at count
    · intro addr behind
      apply e820MemGetLoop_of_outside
      · intro stored
        have inside := (bounds stored).2
        unfold ardsBuf at inside
        unfold loaderStart at behind
        omega
      · right
        unfold loaderStart at behind
        unfold ardsNr
        omega

/-- Thirteen times the same entry, a usable megabyte at zero. -/
def thirteenEntries : List Ards := List.replicate 13 ⟨0, 0x100000, 1⟩

/-- A map of thirteen entries leaves the buffer. -/
theorem not_staysInBuffer_thirteen : ¬ StaysInBuffer (loaderData fun _ => 0) thirteenEntries := by
  intro stays
  have reached := @ardsNr_mem_storedThroughDi thirteenEntries 0 (by decide) (by decide)
  exact absurd (stays.inside ardsNr reached).2 (by decide)

section Maximum

/-- With all ends below two gigabytes the search misses none. -/
theorem highestEnd_of_small {map : List Ards} (small : ∀ entry ∈ map, entry.end32 < 2 ^ 31) :
    highestEnd map = (map.map Ards.end32).foldl max 0 := by
  have kept : (map.map Ards.end32).filter (· < 2 ^ 31) = map.map Ards.end32 := by
    rw [List.filter_eq_self, List.forall_mem_map]
    intro entry member
    exact decide_eq_true (small entry member)
  rw [highestEnd, kept]

/-- The number in `total_mem_bytes` is the highest end of the map exactly when every end is
below two gigabytes. -/
theorem detectMemory_maximum_iff (map : List Ards) (memory : Memory) (nonempty : 1 ≤ map.length)
    (few : map.length ≤ 12) :
    (map.map Ards.end32).max? =
        some (read32 (detectMemory map (loaderData memory)) totalMemBytes) ↔
      ∀ entry ∈ map, entry.end32 < 2 ^ 31 := by
  rw [detectMemory_total map memory nonempty few]
  constructor
  · intro maximum entry member
    obtain ⟨-, upper⟩ := List.max?_eq_some_iff.mp maximum
    exact (upper _ (List.mem_map_of_mem member)).trans_lt (highestEnd_lt map)
  · intro small
    rw [highestEnd_of_small small]
    cases map with
    | nil => cases nonempty
    | cons first rest => rw [List.map_cons, List.max?_cons', List.foldl_cons, Nat.zero_max]

/-- A machine with three gigabytes: its second entry ends at `0xc0000000`. -/
def threeGigabytes : List Ards := [⟨0, 0x9f000, 1⟩, ⟨0x100000, 0xbff00000, 1⟩]

/-- A machine with thirty-two megabytes. -/
def thirtyTwoMegabytes : List Ards := [⟨0, 0x9f000, 1⟩, ⟨0x100000, 0x1f00000, 1⟩]

theorem detectMemory_maximum_iff_thirtyTwo :
    (thirtyTwoMegabytes.map Ards.end32).max? =
      some (read32 (detectMemory thirtyTwoMegabytes (loaderData fun _ => 0)) totalMemBytes) :=
  (detectMemory_maximum_iff thirtyTwoMegabytes (fun _ => 0) (by decide) (by decide)).mpr
    (by decide)

/-- With three gigabytes the number is the end of the first entry, `0x9f000`. -/
theorem detectMemory_not_maximum :
    (threeGigabytes.map Ards.end32).max? ≠
      some (read32 (detectMemory threeGigabytes (loaderData fun _ => 0)) totalMemBytes) := by
  rw [detectMemory_total _ _ (by decide) (by decide)]
  decide

end Maximum

end OsElephant
