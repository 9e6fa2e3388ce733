import LearningKernels.Machine.ForwardCopy
import LearningKernels.OsElephant.StringOrder

/-!
# Copying strings

The functions of `string.c` that write. All of them copy upwards, byte by byte, so a target
that starts inside the source gets the bytes in front of it over and over. `memcpy` still
returns, and `memcmp` does not notice (`OsElephant.memcpy_memcmp`). `strcpy` and `strcat`
overwrite the terminator they wait for, and do not return (`OsElephant.strcpy_returns_iff`,
`OsElephant.strcat_returns_iff`).
-/

namespace OsElephant

open Machine

section Code

variable {σ : Type} [AddressSpace σ]

/-- The loop of `memcpy`. -/
def memcpyLoop : (size dst src : Nat) → Path σ Unit
  | 0, _, _ => pure ()
  | size + 1, dst, src => do
      let byte ← Path.load8 src
      Path.store8 dst byte
      memcpyLoop size (dst + 1) (src + 1)

/-- `memcpy`. -/
def memcpy (dst src size : Nat) : Path σ Unit := do
  Path.require (dst ≠ 0 ∧ src ≠ 0) .assertFailed
  memcpyLoop size dst src

/-- The loop of `strcpy`, which is also the second loop of `strcat`. -/
def strcpyLoop : (fuel dst src : Nat) → Path σ Unit
  | 0, _, _ => Path.halt .unfinished
  | fuel + 1, dst, src => do
      let char ← Path.load8 src
      Path.store8 dst char
      if char.toInt ≠ 0 then strcpyLoop fuel (dst + 1) (src + 1) else pure ()

/-- `strcpy`. -/
def strcpy (fuel dst src : Nat) : Path σ Nat := do
  Path.require (dst ≠ 0 ∧ src ≠ 0) .assertFailed
  strcpyLoop fuel dst src
  return dst

/-- `strcat`. Its first loop is the one of `strlen`. -/
def strcat (fuel dst src : Nat) : Path σ Nat := do
  Path.require (dst ≠ 0 ∧ src ≠ 0) .assertFailed
  let str ← strlenLoop fuel dst
  strcpyLoop fuel (str - 1) src
  return dst

end Code

/-- All bytes of a block may be touched. -/
def Covers (fenced : Fenced) (addr size : Nat) : Prop :=
  ∀ index < size, fenced.Within (addr + index)

/-- A pointer to a block: it is not null, and the whole block has addresses. -/
structure RoomAt (fenced : Fenced) (addr size : Nat) : Prop where
  covered : Covers fenced addr size
  present : addr ≠ 0
  fits : addr + size ≤ 2 ^ 32

section Blocks

variable {fenced : Fenced} {dst src addr size fuel : Nat}

theorem Covers.head (covered : Covers fenced addr (size + 1)) : fenced.Within addr :=
  covered 0 (Nat.succ_pos size)

/-- The bytes behind the first one, also after a store. -/
theorem Covers.tail (covered : Covers fenced addr (size + 1)) (memory : Memory) :
    Covers { fenced with memory } (addr + 1) size := by
  intro index inside
  have place : addr + 1 + index = addr + (index + 1) := by omega
  rw [place]
  exact covered (index + 1) (Nat.succ_lt_succ inside)

theorem run_store8_within (inside : fenced.Within addr) (byte : Byte) :
    (Path.store8 addr byte : Path Fenced Unit).run fenced =
      .ok ((), { fenced with memory := Function.update fenced.memory addr byte }) :=
  Path.run_store8_of_ok (if_pos inside)

theorem run_load8_within (inside : fenced.Within addr) :
    (Path.load8 addr : Path Fenced Byte).run fenced = .ok (fenced.memory addr, fenced) :=
  Path.run_load8_of_ok (Fenced.load8_within inside)

theorem memcpyLoop_run (target : Covers fenced dst size) (source : Covers fenced src size) :
    (memcpyLoop size dst src : Path Fenced Unit).run fenced =
      .ok ((), { fenced with memory := copyForward size dst src fenced.memory }) := by
  induction size generalizing fenced dst src with
  | zero => rfl
  | succ size ih =>
      rw [memcpyLoop, Path.run_bind_of_ok (run_load8_within source.head),
        Path.run_bind_of_ok (run_store8_within target.head _), ih (target.tail _) (source.tail _)]
      rfl

/-- `memcmp` tells whether two blocks are the same. -/
theorem memcmpLoop_decides {a b : Nat} (first : Covers fenced a size)
    (second : Covers fenced b size) :
    ∃ order, (memcmpLoop size a b : Path Fenced Int).run fenced = .ok (order, fenced) ∧
      (order = 0 ↔ ∀ index < size, fenced.memory (a + index) = fenced.memory (b + index)) := by
  induction size generalizing a b with
  | zero => exact ⟨0, rfl, iff_of_true rfl fun index below => absurd below (Nat.not_lt_zero _)⟩
  | succ size ih =>
      have shift (start index : Nat) : start + 1 + index = start + (index + 1) := by omega
      obtain ⟨order, ran, decides⟩ := ih (first.tail fenced.memory) (second.tail fenced.memory)
      rw [memcmpLoop, Path.run_bind_of_ok (run_load8_within first.head),
        Path.run_bind_of_ok (run_load8_within second.head)]
      by_cases same : fenced.memory a = fenced.memory b
      · rw [if_neg (by rw [same]; exact fun differ => differ rfl)]
        refine ⟨order, ran, decides.trans ?_⟩
        rw [Nat.forall_lt_succ_left]
        simp only [shift, Nat.add_zero, same, true_and]
      · rw [if_pos (BitVec.toInt_ne.mpr same)]
        refine ⟨_, rfl, iff_of_false ?_ fun all => same (all 0 (Nat.succ_pos size))⟩
        split <;> decide

/-- **What `memcpy` leaves, and what `memcmp` says of it.** The copy is right when the source
repeats by the distance to a target above it; `memcmp` finds no difference when the source
repeats by the distance to a target below it. -/
theorem memcpy_memcmp (fenced : Fenced) (dst src size : Nat) (target : RoomAt fenced dst size)
    (source : RoomAt fenced src size) :
    ∃ after order, (memcpy dst src size : Path Fenced Unit).run fenced = .ok ((), after) ∧
      (memcmp dst src size : Path Fenced Int).run after = .ok (order, after) ∧
      (∀ addr, addr < dst ∨ dst + size ≤ addr → after.memory addr = fenced.memory addr) ∧
      ((∀ index < size, after.memory (dst + index) = fenced.memory (src + index)) ↔
        Repeats fenced.memory src size (dst - src)) ∧
      (order = 0 ↔ Repeats fenced.memory src size (src - dst)) := by
  obtain ⟨order, ran, decides⟩ := @memcmpLoop_decides
    { fenced with memory := copyForward size dst src fenced.memory } size dst src
    target.covered source.covered
  refine ⟨{ fenced with memory := copyForward size dst src fenced.memory }, order, ?_, ?_, ?_,
    copyForward_faithful_iff, decides.trans copyForward_same_iff⟩
  · rw [memcpy, Path.run_bind_of_ok (Path.run_require_of_true ⟨target.present, source.present⟩ _)]
    exact memcpyLoop_run target.covered source.covered
  · rw [memcmp, Path.run_bind_of_ok (Path.run_require_of_true (.inl target.present) _)]
    exact ran
  · intro addr outside
    exact copyForward_of_outside outside

theorem threeStrings_roomAt (lower : 0x1000 ≤ addr) (upper : addr + size ≤ 0x2000) :
    RoomAt threeStrings addr size where
  covered index inside := by
    change 0x1000 ≤ addr + index ∧ addr + index < 0x1000 + 0x1000
    omega
  present := by omega
  fits := by omega

/-- Moved up by one byte, `aba` becomes `aaa`, and `memcmp` finds it right. -/
theorem memcpy_memcmp_aba :
    ∃ after order, (memcpy 0x1001 0x1000 3 : Path Fenced Unit).run threeStrings =
        .ok ((), after) ∧
      (memcmp 0x1001 0x1000 3 : Path Fenced Int).run after = .ok (order, after) ∧
      ¬ (∀ index < 3, after.memory (0x1001 + index) = threeStrings.memory (0x1000 + index)) ∧
      order = 0 := by
  obtain ⟨after, order, copied, compared, -, faithful, same⟩ :=
    memcpy_memcmp threeStrings 0x1001 0x1000 3 (threeStrings_roomAt (by decide) (by decide))
      (threeStrings_roomAt (by decide) (by decide))
  refine ⟨after, order, copied, compared, fun all => ?_, same.mpr fun index _ => rfl⟩
  exact absurd (faithful.mp all 0 (by decide)) (by decide)

end Blocks

section Texts

variable {fenced other : Fenced} {dst src addr count fuel : Nat} {text head tail : List Byte}

/-- A text behind a fence, byte by byte. -/
structure Spelled (fenced : Fenced) (addr : Nat) (text : List Byte) : Prop where
  covered : Covers fenced addr (text.length + 1)
  shown : ∀ index < text.length, fenced.memory (addr + index) ≠ 0
  ended : fenced.memory (addr + text.length) = 0

theorem load8_eq_ok {byte : Byte} (read : AddressSpace.load8 fenced addr = .ok byte) :
    fenced.Within addr ∧ fenced.memory addr = byte := by
  by_cases inside : fenced.Within addr
  · rw [Fenced.load8_within inside] at read
    exact ⟨inside, Except.ok.inj read⟩
  · rw [Fenced.load8_outside inside] at read
    cases read

theorem store8_eq_ok {byte : Byte} (written : AddressSpace.store8 fenced addr byte = .ok other) :
    fenced.Within addr ∧
      other = { fenced with memory := Function.update fenced.memory addr byte } := by
  by_cases inside : fenced.Within addr
  · exact ⟨inside, (Except.ok.inj ((if_pos inside).symm.trans written)).symm⟩
  · exact absurd ((if_neg inside).symm.trans written) (fun same => by cases same)

theorem spelled_of_textAt (held : TextAt fenced addr text) : Spelled fenced addr text := by
  induction text generalizing addr with
  | nil =>
      obtain ⟨inside, ended⟩ := load8_eq_ok held
      refine ⟨?_, fun index below => absurd below (Nat.not_lt_zero index), ended⟩
      intro index below
      obtain rfl : index = 0 := Nat.lt_one_iff.mp below
      exact inside
  | cons char text ih =>
      obtain ⟨shown, read, rest⟩ := held
      obtain ⟨inside, here⟩ := load8_eq_ok read
      obtain ⟨covered, chars, ended⟩ := ih rest
      have shift (index : Nat) : addr + (index + 1) = addr + 1 + index := by omega
      refine ⟨?_, ?_, ?_⟩
      · intro index below
        cases index with
        | zero => exact inside
        | succ index =>
            rw [shift]
            exact covered index (Nat.lt_of_succ_lt_succ below)
      · intro index below
        cases index with
        | zero => rwa [Nat.add_zero, here]
        | succ index =>
            rw [shift]
            exact chars index (Nat.lt_of_succ_lt_succ below)
      · rwa [List.length_cons, shift]

/-- A text whose bytes stand elsewhere too. -/
theorem textAt_moved (held : TextAt fenced src text) (covered : Covers other dst (text.length + 1))
    (same : ∀ index ≤ text.length, other.memory (dst + index) = fenced.memory (src + index)) :
    TextAt other dst text := by
  induction text generalizing src dst with
  | nil =>
      have here := same 0 (Nat.zero_le _)
      rw [Nat.add_zero, Nat.add_zero, (load8_eq_ok held).2] at here
      rw [TextAt, Fenced.load8_within covered.head, here]
  | cons char text ih =>
      obtain ⟨shown, read, rest⟩ := held
      have here := same 0 (Nat.zero_le _)
      rw [Nat.add_zero, Nat.add_zero, (load8_eq_ok read).2] at here
      refine ⟨shown, ?_, ih rest (covered.tail other.memory) ?_⟩
      · rw [Fenced.load8_within covered.head, here]
      · intro index below
        have shift (start : Nat) : start + 1 + index = start + (index + 1) := by omega
        rw [shift, shift]
        exact same (index + 1) (Nat.succ_le_succ below)

/-- A text goes on where the terminator of its first part was. -/
theorem textAt_append (held : TextAt fenced addr head)
    (fence : ∀ place, fenced.Within place → other.Within place)
    (same : ∀ index < head.length, other.memory (addr + index) = fenced.memory (addr + index))
    (rest : TextAt other (addr + head.length) tail) : TextAt other addr (head ++ tail) := by
  induction head generalizing addr with
  | nil => exact rest
  | cons char head ih =>
      obtain ⟨shown, read, behind⟩ := held
      obtain ⟨inside, here⟩ := load8_eq_ok read
      have first := same 0 (Nat.succ_pos _)
      rw [Nat.add_zero, here] at first
      have shift (index : Nat) : addr + 1 + index = addr + (index + 1) := by omega
      refine ⟨shown, ?_, ih behind ?_ ?_⟩
      · rw [Fenced.load8_within (fence addr inside), first]
      · intro index below
        rw [shift]
        exact same (index + 1) (Nat.succ_lt_succ below)
      · rwa [shift]

/-- The loop ends with the first zero that it reads. -/
theorem strcpyLoop_ends (target : Covers fenced dst (count + 1))
    (source : Covers fenced src (count + 1)) (enough : count < fuel)
    (shown : ∀ index < count, copyForward index dst src fenced.memory (src + index) ≠ 0)
    (ended : copyForward count dst src fenced.memory (src + count) = 0) :
    (strcpyLoop fuel dst src : Path Fenced Unit).run fenced =
      .ok ((), { fenced with memory := copyForward (count + 1) dst src fenced.memory }) := by
  induction count generalizing fenced dst src fuel with
  | zero =>
      obtain ⟨fuel, rfl⟩ : ∃ more, fuel = more + 1 := ⟨fuel - 1, by omega⟩
      have zero : fenced.memory src = 0 := ended
      rw [strcpyLoop, Path.run_bind_of_ok (run_load8_within source.head),
        Path.run_bind_of_ok (run_store8_within target.head _), zero]
      rw [copyForward, copyForward, zero]
      rfl
  | succ count ih =>
      obtain ⟨fuel, rfl⟩ : ∃ more, fuel = more + 1 := ⟨fuel - 1, by omega⟩
      have shift (index : Nat) : src + 1 + index = src + (index + 1) := by omega
      have first : fenced.memory src ≠ 0 := shown 0 (Nat.succ_pos count)
      rw [strcpyLoop, Path.run_bind_of_ok (run_load8_within source.head),
        Path.run_bind_of_ok (run_store8_within target.head _), if_pos (toInt_ne_zero first),
        ih (target.tail _) (source.tail _) (Nat.lt_of_succ_lt_succ enough) ?_ ?_]
      · rfl
      · intro index below
        rw [shift]
        exact shown (index + 1) (Nat.succ_lt_succ below)
      · rw [shift]
        exact ended

/-- The loop does not return when it reads no zero, whatever stops it. -/
theorem strcpyLoop_never
    (shown : ∀ index, copyForward index dst src fenced.memory (src + index) ≠ 0)
    (result : Unit × Fenced) :
    (strcpyLoop fuel dst src : Path Fenced Unit).run fenced ≠ .ok result := by
  induction fuel generalizing fenced dst src with
  | zero =>
      intro ran
      cases ran
  | succ fuel ih =>
      intro ran
      rw [strcpyLoop] at ran
      obtain ⟨char, middle, loaded, ran⟩ := Path.run_bind_eq_ok ran
      obtain ⟨⟨⟩, next, stored, ran⟩ := Path.run_bind_eq_ok ran
      obtain ⟨byte, read, same⟩ := map_eq_ok loaded
      cases same
      obtain ⟨-, rfl⟩ := load8_eq_ok read
      obtain ⟨after, written, same⟩ := map_eq_ok stored
      cases same
      obtain ⟨-, rfl⟩ := store8_eq_ok written
      have first : fenced.memory src ≠ 0 := shown 0
      rw [if_pos (toInt_ne_zero first)] at ran
      refine ih ?_ ran
      intro index
      have shift : src + 1 + index = src + (index + 1) := by omega
      rw [shift]
      exact shown (index + 1)

/-- The target starts behind the first byte of the source and not behind its terminator. -/
def Chases (dst src length : Nat) : Prop := src < dst ∧ dst ≤ src + length

/-- Up to the terminator, nothing comes again. -/
theorem mod_of_not_chases {length index : Nat} (free : ¬ Chases dst src length)
    (below : index ≤ length) : index % (dst - src) = index := by
  rw [Chases] at free
  by_cases above : dst ≤ src
  · rw [Nat.sub_eq_zero_of_le above, Nat.mod_zero]
  · exact Nat.mod_eq_of_lt (by omega)

/-- What the loop leaves when it returns. -/
theorem strcpyLoop_of_not_chases (held : TextAt fenced src text)
    (target : Covers fenced dst (text.length + 1)) (free : ¬ Chases dst src text.length)
    (enough : text.length < fuel) :
    (strcpyLoop fuel dst src : Path Fenced Unit).run fenced =
        .ok ((), { fenced with memory := copyForward (text.length + 1) dst src fenced.memory }) ∧
      TextAt { fenced with memory := copyForward (text.length + 1) dst src fenced.memory }
        dst text := by
  have spelled := spelled_of_textAt held
  refine ⟨strcpyLoop_ends target spelled.covered enough ?_ ?_, textAt_moved held target ?_⟩
  · intro index below
    rw [copyForward_read, mod_of_not_chases free (Nat.le_of_lt below)]
    exact spelled.shown index below
  · rw [copyForward_read, mod_of_not_chases free (Nat.le_refl _)]
    exact spelled.ended
  · intro index below
    exact (copyForward_target (Nat.lt_succ_of_le below)).trans
      (by rw [mod_of_not_chases free below])

/-- A target inside the source: the terminator is overwritten before it is read. -/
theorem strcpyLoop_of_chases (held : TextAt fenced src text) (chases : Chases dst src text.length)
    (result : Unit × Fenced) :
    (strcpyLoop fuel dst src : Path Fenced Unit).run fenced ≠ .ok result := by
  obtain ⟨behind, before⟩ := chases
  refine strcpyLoop_never ?_ result
  intro index
  rw [copyForward_read]
  have small : index % (dst - src) < dst - src := Nat.mod_lt _ (by omega)
  exact (spelled_of_textAt held).shown _ (by omega)

/-- **`strcpy` returns when the target does not start inside the source.** Then it leaves the
text there and nothing else changes. -/
theorem strcpy_returns_iff (fenced : Fenced) (dst src : Nat) (text : List Byte)
    (string : StringAt fenced src text) (room : RoomAt fenced dst (text.length + 1)) :
    ((∃ fuel result, (strcpy fuel dst src : Path Fenced Nat).run fenced = .ok result) ↔
        ¬ Chases dst src text.length) ∧
      (¬ Chases dst src text.length → ∃ after : Fenced,
        (∀ fuel, text.length < fuel →
          (strcpy fuel dst src : Path Fenced Nat).run fenced = .ok (dst, after)) ∧
        StringAt after dst text ∧
        ∀ addr, addr < dst ∨ dst + text.length < addr →
          after.memory addr = fenced.memory addr) := by
  have go : (Path.require (dst ≠ 0 ∧ src ≠ 0) .assertFailed : Path Fenced Unit).run fenced =
      .ok ((), fenced) := Path.run_require_of_true ⟨room.present, string.present⟩ _
  have returns (free : ¬ Chases dst src text.length) (fuel : Nat) (enough : text.length < fuel) :
      (strcpy fuel dst src : Path Fenced Nat).run fenced = .ok
        (dst, { fenced with memory := copyForward (text.length + 1) dst src fenced.memory }) := by
    rw [strcpy, Path.run_bind_of_ok go, Path.run_bind_of_ok
      (strcpyLoop_of_not_chases string.held room.covered free enough).1]
    rfl
  refine ⟨⟨?_, ?_⟩, ?_⟩
  · rintro ⟨fuel, result, ran⟩ chases
    rw [strcpy, Path.run_bind_of_ok go] at ran
    obtain ⟨⟨⟩, middle, copied, -⟩ := Path.run_bind_eq_ok ran
    exact strcpyLoop_of_chases string.held chases _ copied
  · intro free
    exact ⟨text.length + 1, _, returns free _ (Nat.lt_succ_self _)⟩
  · intro free
    have fits := room.fits
    refine ⟨_, returns free, ⟨?_, room.present, by omega⟩, ?_⟩
    · exact (strcpyLoop_of_not_chases string.held room.covered free (Nat.lt_succ_self _)).2
    · intro addr outside
      exact copyForward_of_outside (by omega)

/-- `aba` is copied behind the strings, but not to its own second byte. -/
theorem strcpy_returns_iff_aba :
    (∃ fuel result, (strcpy fuel 0x1010 0x1000 : Path Fenced Nat).run threeStrings =
        .ok result) ∧
      ¬ ∃ fuel result, (strcpy fuel 0x1001 0x1000 : Path Fenced Nat).run threeStrings =
        .ok result := by
  have string : StringAt threeStrings 0x1000 [0x61, 0x62, 0x61] :=
    ⟨⟨by decide, rfl, by decide, rfl, by decide, rfl, rfl⟩, by decide, by decide⟩
  refine ⟨(strcpy_returns_iff threeStrings 0x1010 0x1000 _ string
    (threeStrings_roomAt (by decide) (by decide))).1.mpr ?_, fun returns => ?_⟩
  · exact fun chases => absurd chases.2 (by decide)
  · exact (strcpy_returns_iff threeStrings 0x1001 0x1000 _ string
      (threeStrings_roomAt (by decide) (by decide))).1.mp returns ⟨by decide, by decide⟩

/-- The first loop of `strcat` returns nothing else, whatever its fuel. -/
theorem strlenLoop_eq_ok {str : Nat} (held : TextAt fenced dst head)
    (ran : (strlenLoop fuel dst : Path Fenced Nat).run fenced = .ok (str, other)) :
    str = dst + head.length + 1 ∧ other = fenced := by
  induction head generalizing dst fuel with
  | nil =>
      cases fuel with
      | zero => cases ran
      | succ fuel =>
          rw [strlenLoop, Path.run_bind_of_ok (Path.run_load8_of_ok held)] at ran
          cases ran
          exact ⟨rfl, rfl⟩
  | cons char head ih =>
      obtain ⟨shown, read, rest⟩ := held
      cases fuel with
      | zero => cases ran
      | succ fuel =>
          rw [strlenLoop, Path.run_bind_of_ok (Path.run_load8_of_ok read),
            if_pos (toInt_ne_zero shown)] at ran
          obtain ⟨rfl, rfl⟩ := ih rest ran
          exact ⟨by rw [List.length_cons]; omega, rfl⟩

/-- The end of one string lies inside another one only when they end together. -/
theorem chases_end_iff (first : TextAt fenced dst head) (second : TextAt fenced src tail) :
    Chases (dst + head.length) src tail.length ↔
      tail ≠ [] ∧ dst + head.length = src + tail.length := by
  have ended := (spelled_of_textAt first).ended
  have shown := (spelled_of_textAt second).shown
  rw [Chases, ← List.length_pos_iff]
  constructor
  · rintro ⟨behind, before⟩
    obtain ⟨index, place⟩ := Nat.exists_eq_add_of_lt behind
    by_cases inside : index + 1 < tail.length
    · -- a byte of the source would be zero
      rw [place, Nat.add_assoc] at ended
      exact absurd ended (shown (index + 1) inside)
    · omega
  · rintro ⟨some, together⟩
    omega

/-- **`strcat` returns when the source is empty or has a terminator of its own.** Then the
target holds the two texts, one behind the other. In particular `strcat (s, s)` never returns,
but for the empty string. -/
theorem strcat_returns_iff (fenced : Fenced) (dst src : Nat) (head tail : List Byte)
    (first : StringAt fenced dst head) (second : StringAt fenced src tail)
    (room : RoomAt fenced (dst + head.length) (tail.length + 1)) :
    ((∃ fuel result, (strcat fuel dst src : Path Fenced Nat).run fenced = .ok result) ↔
        tail = [] ∨ dst + head.length ≠ src + tail.length) ∧
      (tail = [] ∨ dst + head.length ≠ src + tail.length → ∃ after : Fenced,
        (∀ fuel, head.length + tail.length < fuel →
          (strcat fuel dst src : Path Fenced Nat).run fenced = .ok (dst, after)) ∧
        StringAt after dst (head ++ tail) ∧
        Returns (fun fuel => strlen fuel dst) after (head.length + tail.length) ∧
        ∀ addr, addr < dst + head.length ∨ dst + head.length + tail.length < addr →
          after.memory addr = fenced.memory addr) := by
  have go : (Path.require (dst ≠ 0 ∧ src ≠ 0) .assertFailed : Path Fenced Unit).run fenced =
      .ok ((), fenced) := Path.run_require_of_true ⟨first.present, second.present⟩ _
  have free_iff : ¬ Chases (dst + head.length) src tail.length ↔
      tail = [] ∨ dst + head.length ≠ src + tail.length := by
    rw [chases_end_iff first.held second.held, not_and_or, not_not]
  rw [← free_iff]
  have returns (free : ¬ Chases (dst + head.length) src tail.length) (fuel : Nat)
      (enough : head.length + tail.length < fuel) :
      (strcat fuel dst src : Path Fenced Nat).run fenced = .ok (dst, { fenced with
        memory := copyForward (tail.length + 1) (dst + head.length) src fenced.memory }) := by
    have copied := (strcpyLoop_of_not_chases second.held room.covered free
      (show tail.length < fuel by omega)).1
    rw [strcat, Path.run_bind_of_ok go,
      Path.run_bind_of_ok (strlenLoop_run (first.held.walk (by omega))), Nat.add_sub_cancel,
      Path.run_bind_of_ok copied]
    rfl
  refine ⟨⟨?_, ?_⟩, ?_⟩
  · rintro ⟨fuel, result, ran⟩ chases
    rw [strcat, Path.run_bind_of_ok go] at ran
    obtain ⟨str, middle, ended, rest⟩ := Path.run_bind_eq_ok ran
    obtain ⟨rfl, rfl⟩ := strlenLoop_eq_ok first.held ended
    obtain ⟨⟨⟩, last, copied, -⟩ := Path.run_bind_eq_ok rest
    exact strcpyLoop_of_chases second.held chases _ copied
  · intro free
    exact ⟨_, _, returns free _ (Nat.lt_succ_self _)⟩
  · intro free
    have fits := room.fits
    have held : TextAt { fenced with
        memory := copyForward (tail.length + 1) (dst + head.length) src fenced.memory } dst
          (head ++ tail) := by
      refine textAt_append first.held (fun _ inside => inside) ?_
        (strcpyLoop_of_not_chases second.held room.covered free (Nat.lt_succ_self _)).2
      intro index below
      exact copyForward_of_outside (by omega)
    have string : StringAt { fenced with
        memory := copyForward (tail.length + 1) (dst + head.length) src fenced.memory } dst
          (head ++ tail) := by
      refine ⟨held, first.present, ?_⟩
      rw [List.length_append]
      omega
    refine ⟨_, returns free, string, ?_, ?_⟩
    · rw [← List.length_append]
      exact strlen_returns string
    · intro addr outside
      exact copyForward_of_outside (by omega)

/-- `aba` can be put behind `ab`, but not behind itself. -/
theorem strcat_returns_iff_aba :
    (∃ fuel result, (strcat fuel 0x1006 0x1000 : Path Fenced Nat).run threeStrings =
        .ok result) ∧
      ¬ ∃ fuel result, (strcat fuel 0x1000 0x1000 : Path Fenced Nat).run threeStrings =
        .ok result := by
  have short : StringAt threeStrings 0x1006 [0x61, 0x62] :=
    ⟨⟨by decide, rfl, by decide, rfl, rfl⟩, by decide, by decide⟩
  have long : StringAt threeStrings 0x1000 [0x61, 0x62, 0x61] :=
    ⟨⟨by decide, rfl, by decide, rfl, by decide, rfl, rfl⟩, by decide, by decide⟩
  refine ⟨(strcat_returns_iff threeStrings 0x1006 0x1000 _ _ short long
    (threeStrings_roomAt (by decide) (by decide))).1.mpr (.inr (by decide)), fun returns => ?_⟩
  obtain empty | apart := (strcat_returns_iff threeStrings 0x1000 0x1000 _ _ long long
    (threeStrings_roomAt (by decide) (by decide))).1.mp returns
  · cases empty
  · exact apart rfl

end Texts

end OsElephant
