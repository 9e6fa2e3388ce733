import LearningKernels.Toyos.Printk

/-!
# C strings in a buffer

`strlen`, `strcpy`, `backspace`, `append` and `strcat` of `libc/string.cpp`. A pointer is
seen as the bytes of its object from there on, and an access behind them fails. The four
operations that write are compared with the operations on lists they stand for. `strcat`
writes no terminator, so that it depends on what earlier contents have left in the buffer:
a run follows the lists exactly when each `strcat` finds a zero where its result ends
(`Toyos.Libc.refines_iff`).
-/

namespace Toyos.Libc

open Machine

/-- The bytes of an object from a pointer on. -/
abbrev Cells := List Byte

/-- `strlen`. -/
def strlen : Cells → Option Nat
  | [] => none
  | char :: str => if char ≠ 0 then (strlen str).map (· + 1) else some 0

/-- `strcpy`, with what `dest` points to afterwards. -/
def strcpy : (dest src : Cells) → Option Cells
  | _ :: dest, char :: src =>
      if char ≠ 0 then (strcpy dest src).map (char :: ·) else some (char :: dest)
  | _, _ => none

/-- An assignment to one byte of an object. -/
def store (cells : Cells) (index : Nat) (char : Byte) : Option Cells :=
  if index < cells.length then some (cells.set index char) else none

/-- `backspace`. In an empty string the index wraps around, to a byte that is not in the
object. -/
def backspace (src : Cells) : Option Cells := do
  match ← strlen src with
  | 0 => none
  | last + 1 => store src last 0

/-- `append`. -/
def append (src : Cells) (dest : Byte) : Option Cells := do
  let len ← strlen src
  let src ← store src len dest
  store src (len + 1) 0

/-- The second loop of `strcat`. -/
def catBytes : (dest src : Cells) → Option Cells
  | _, [] => none
  | [], char :: _ => if char ≠ 0 then none else some []
  | old :: dest, char :: src =>
      if char ≠ 0 then (catBytes dest src).map (char :: ·) else some (old :: dest)

/-- The first loop of `strcat`, and what follows it. -/
def catFrom : (dest src : Cells) → Option Cells
  | [], _ => none
  | char :: dest, src =>
      if char ≠ 0 then (catFrom dest src).map (char :: ·) else catBytes (char :: dest) src

/-- `strcat`, where `none` is the null pointer. -/
def strcat : (dest src : Option Cells) → Option (Option Cells)
  | some dest, some src => (catFrom dest src).map some
  | dest, _ => some dest

/-- The string that an object holds, as far as `strlen` measures it. -/
def contents (cells : Cells) : Option (List Byte) := (strlen cells).map cells.take

/-- A C string: its characters, and the bytes behind its terminator. -/
structure CString where
  text : List Byte
  visible : 0 ∉ text
  behind : List Byte

def CString.cells (string : CString) : Cells := string.text ++ 0 :: string.behind

/-- The operations on a buffer. The source of a copy is another object. -/
inductive BufferOp where
  | strcpy (src : CString)
  | strcat (src : CString)
  | append (char : Byte) (visible : char ≠ 0)
  | backspace

namespace BufferOp

/-- The call of an operation. -/
def exec (cells : Cells) : BufferOp → Option Cells
  | .strcpy src => Libc.strcpy cells src.cells
  | .strcat src => (Libc.strcat (some cells) (some src.cells)).bind id
  | .append char _ => Libc.append cells char
  | .backspace => Libc.backspace cells

/-- What an operation stands for on lists. Without a string, only `strcpy` means something. -/
def meaning (list : Option (List Byte)) : BufferOp → Option (List Byte)
  | .strcpy src => some src.text
  | .strcat src => list.map (· ++ src.text)
  | .append char _ => list.map (· ++ [char])
  | .backspace => list.bind fun list => if list = [] then none else some list.dropLast

/-- The byte on which a `strcat` relies: the zero that ends its result is there before. -/
def Terminated (cells : Cells) : BufferOp → Prop
  | .strcat src =>
      ∀ text, contents cells = some text → cells[text.length + src.text.length]? = some 0
  | _ => True

end BufferOp

/-- A sequence of calls. -/
def execAll (cells : Cells) (ops : List BufferOp) : Option Cells :=
  ops.foldlM BufferOp.exec cells

/-- What a sequence of operations stands for. -/
def meaningAll (list : Option (List Byte)) (ops : List BufferOp) : Option (List Byte) :=
  ops.foldl BufferOp.meaning list

/-- Each operation means something, and its result has room in the buffer. -/
def Fits (capacity : Nat) : (list : Option (List Byte)) → List BufferOp → Prop
  | _, [] => True
  | list, op :: ops =>
      ∃ text, op.meaning list = some text ∧ text.length < capacity ∧
        Fits capacity (some text) ops

/-- After each step the buffer holds the string that the list says. -/
def Refines (cells : Cells) (ops : List BufferOp) : Prop :=
  ∀ before after, ops = before ++ after →
    ∃ reached, execAll cells before = some reached ∧
      contents reached = meaningAll (contents cells) before

/-- In each state the run reaches, the next operation finds the zero it relies on. -/
def AllTerminated (cells : Cells) (ops : List BufferOp) : Prop :=
  ∀ before op after, ops = before ++ op :: after →
    ∀ reached, execAll cells before = some reached → op.Terminated reached

section Strings

variable {cells rest stale text behind : List Byte}

/-- The `strlen` on a whole memory is the one on the bytes it may look at. -/
theorem strlen_memory (str : Memory) (fuel len : Nat) :
    Toyos.strlen str fuel len =
      ((strlen ((List.range' len fuel).map str)).elim (.error .unfinished)
        fun found => .ok (len + found)) := by
  induction fuel generalizing len with
  | zero => rfl
  | succ fuel ih =>
      rw [Toyos.strlen, List.range'_succ, List.map_cons, strlen]
      by_cases zero : str len = 0
      · rw [if_pos zero, if_neg (not_not_intro zero)]
        rfl
      · rw [if_neg zero, if_pos zero, ih]
        cases strlen ((List.range' (len + 1) fuel).map str) with
        | none => rfl
        | some found =>
            simp only [Option.map_some, Option.elim_some]
            congr 1
            omega

theorem visible_cons {char : Byte} : 0 ∉ char :: text ↔ char ≠ 0 ∧ 0 ∉ text := by
  rw [List.mem_cons, not_or, ne_comm]

theorem contents_cons (char : Byte) :
    contents (char :: cells) =
      if char ≠ 0 then (contents cells).map (char :: ·) else some [] := by
  rw [contents, strlen]
  by_cases zero : char = 0
  · rw [if_neg (not_not_intro zero), if_neg (not_not_intro zero)]
    rfl
  · rw [if_pos zero, if_pos zero, contents, Option.map_map, Option.map_map]
    rfl

theorem contents_append (visible : 0 ∉ text) :
    contents (text ++ rest) = (contents rest).map (text ++ ·) := by
  induction text with
  | nil => exact Option.map_id'.symm
  | cons char text ih =>
      obtain ⟨here, later⟩ := visible_cons.mp visible
      rw [List.cons_append, contents_cons, if_pos here, ih later, Option.map_map]
      rfl

/-- A text in front of `rest` is the whole string exactly when a zero comes next. -/
theorem contents_append_iff (visible : 0 ∉ text) :
    contents (text ++ rest) = some text ↔ rest[0]? = some 0 := by
  rw [contents_append visible]
  cases rest with
  | nil =>
      refine ⟨?_, ?_⟩
      · intro absent
        cases absent
      · intro absent
        cases absent
  | cons char rest =>
      rw [contents_cons, List.getElem?_cons_zero]
      by_cases zero : char = 0
      · simp only [zero, ne_eq, not_true_eq_false, ↓reduceIte, Option.map_some, List.append_nil]
      · simp only [ne_eq, zero, not_false_eq_true, ↓reduceIte, Option.map_map,
          Option.map_eq_some_iff, Function.comp_apply, List.append_right_eq_self, reduceCtorEq,
          and_false, exists_false, Option.some.injEq]

/-- An object that holds a string is the string, a zero and what is behind it. -/
theorem eq_of_contents (held : contents cells = some text) :
    0 ∉ text ∧ ∃ stale, cells = text ++ 0 :: stale := by
  induction cells generalizing text with
  | nil => cases held
  | cons char cells ih =>
      rw [contents_cons] at held
      by_cases zero : char = 0
      · rw [if_neg (not_not_intro zero)] at held
        cases held
        exact ⟨List.not_mem_nil, cells, by rw [zero, List.nil_append]⟩
      · rw [if_pos zero] at held
        obtain ⟨later, found, rfl⟩ := Option.map_eq_some_iff.mp held
        obtain ⟨visible, stale, rfl⟩ := ih found
        exact ⟨visible_cons.mpr ⟨zero, visible⟩, stale, rfl⟩

theorem strlen_append (visible : 0 ∉ text) : strlen (text ++ 0 :: stale) = some text.length := by
  induction text with
  | nil => rfl
  | cons char text ih =>
      obtain ⟨here, later⟩ := visible_cons.mp visible
      rw [List.cons_append, strlen, if_pos here, ih later]
      rfl

theorem strcpy_spec (visible : 0 ∉ text) (room : text.length < cells.length) :
    strcpy cells (text ++ 0 :: behind) = some (text ++ 0 :: cells.drop (text.length + 1)) := by
  induction text generalizing cells with
  | nil =>
      cases cells with
      | nil => exact absurd room (Nat.not_lt_zero _)
      | cons old cells => rfl
  | cons char text ih =>
      cases cells with
      | nil => exact absurd room (Nat.not_lt_zero _)
      | cons old cells =>
          obtain ⟨here, later⟩ := visible_cons.mp visible
          rw [List.cons_append, strcpy, if_pos here,
            ih later (Nat.lt_of_succ_lt_succ room)]
          rfl

theorem catBytes_spec (visible : 0 ∉ text) (room : text.length ≤ cells.length) :
    catBytes cells (text ++ 0 :: behind) = some (text ++ cells.drop text.length) := by
  induction text generalizing cells with
  | nil =>
      cases cells with
      | nil => rfl
      | cons old cells => rfl
  | cons char text ih =>
      cases cells with
      | nil => exact absurd room (Nat.not_succ_le_zero _)
      | cons old cells =>
          obtain ⟨here, later⟩ := visible_cons.mp visible
          rw [List.cons_append, catBytes, if_pos here, ih later (Nat.le_of_succ_le_succ room)]
          rfl

theorem catFrom_append (visible : 0 ∉ text) (src : Cells) :
    catFrom (text ++ 0 :: stale) src = (catBytes (0 :: stale) src).map (text ++ ·) := by
  induction text with
  | nil => exact Option.map_id'.symm
  | cons char text ih =>
      obtain ⟨here, later⟩ := visible_cons.mp visible
      rw [List.cons_append, catFrom, if_pos here, ih later, Option.map_map]
      rfl

theorem store_append (char old : Byte) :
    store (text ++ old :: rest) text.length char = some (text ++ char :: rest) := by
  have inside : text.length < (text ++ old :: rest).length := by
    rw [List.length_append, List.length_cons]
    omega
  rw [store, if_pos inside, List.set_append_right _ _ (Nat.le_refl _), Nat.sub_self]
  rfl

theorem append_spec (visible : 0 ∉ text) (char old : Byte) :
    append (text ++ 0 :: old :: stale) char = some (text ++ char :: 0 :: stale) := by
  have second := @store_append stale (text ++ [char]) 0 old
  rw [List.length_append, List.length_singleton, List.append_assoc, List.append_assoc] at second
  rw [append, strlen_append visible]
  simp only [Option.bind_eq_bind, Option.bind_some, store_append]
  exact second

theorem backspace_spec (visible : 0 ∉ text) (last : Byte) (shown : last ≠ 0) :
    backspace (text ++ last :: 0 :: stale) = some (text ++ 0 :: 0 :: stale) := by
  have longer : 0 ∉ text ++ [last] := by
    rw [List.mem_append, List.mem_singleton]
    exact not_or.mpr ⟨visible, Ne.symm shown⟩
  have measured := @strlen_append stale _ longer
  rw [List.append_assoc, List.singleton_append, List.length_append, List.length_singleton]
    at measured
  rw [backspace, measured]
  simp only [Option.bind_eq_bind, Option.bind_some, store_append]

end Strings

section Steps

variable {cells text : List Byte}

/-- What an operation does that has room for its result: the buffer holds the result when
the condition on the state before is met, and only then. -/
def Leads (op : BufferOp) (cells : Cells) (text : List Byte) : Prop :=
  ∃ next, op.exec cells = some next ∧ next.length = cells.length ∧
    (contents next = some text ↔ op.Terminated cells)

theorem strcpy_leads (src : CString) (room : src.text.length < cells.length) :
    Leads (.strcpy src) cells src.text := by
  refine ⟨_, strcpy_spec src.visible room, ?_, ?_⟩
  · rw [List.length_append, List.length_cons, List.length_drop]
    omega
  · rw [contents_append_iff src.visible]
    exact iff_of_true rfl trivial

theorem strcat_leads (src : CString) (held : contents cells = some text)
    (room : (text ++ src.text).length < cells.length) :
    Leads (.strcat src) cells (text ++ src.text) := by
  obtain ⟨visible, stale, rfl⟩ := eq_of_contents held
  rw [List.length_append, List.length_append, List.length_cons] at room
  have both : 0 ∉ text ++ src.text := by
    rw [List.mem_append]
    exact not_or.mpr ⟨visible, src.visible⟩
  have copied := @catBytes_spec (0 :: stale) _ src.behind src.visible (by
    rw [List.length_cons]
    omega)
  have called := @catFrom_append stale _ visible src.cells
  rw [CString.cells, copied] at called
  -- the byte behind the result is the one that stood there before
  have kept : ((0 :: stale).drop src.text.length)[0]? =
      (text ++ 0 :: stale)[text.length + src.text.length]? := by
    rw [List.getElem?_drop, List.getElem?_append_right (Nat.le_add_right _ _),
      Nat.add_sub_cancel_left, Nat.add_zero]
  refine ⟨text ++ (src.text ++ (0 :: stale).drop src.text.length), ?_, ?_, ?_⟩
  · rw [BufferOp.exec, strcat, CString.cells, called]
    rfl
  · simp only [List.length_append, List.length_drop, List.length_cons]
    omega
  · rw [← List.append_assoc, contents_append_iff both, kept, BufferOp.Terminated]
    refine ⟨?_, fun finds => finds text held⟩
    intro zero other same
    cases held.symm.trans same
    exact zero

theorem append_leads (char : Byte) (shown : char ≠ 0) (held : contents cells = some text)
    (room : (text ++ [char]).length < cells.length) :
    Leads (.append char shown) cells (text ++ [char]) := by
  obtain ⟨visible, stale, rfl⟩ := eq_of_contents held
  have longer : 0 ∉ text ++ [char] := by
    rw [List.mem_append, List.mem_singleton]
    exact not_or.mpr ⟨visible, Ne.symm shown⟩
  cases stale with
  | nil =>
      rw [List.length_append, List.length_append] at room
      exact absurd room (Nat.lt_irrefl _)
  | cons old stale =>
      refine ⟨_, append_spec visible char old, ?_, ?_⟩
      · simp only [List.length_append, List.length_cons]
      · rw [List.append_cons, contents_append_iff longer]
        exact iff_of_true rfl trivial

theorem backspace_leads (held : contents cells = some text) (some : text ≠ []) :
    Leads .backspace cells text.dropLast := by
  obtain ⟨visible, stale, rfl⟩ := eq_of_contents held
  have front : 0 ∉ text.dropLast := fun zero => visible (List.mem_of_mem_dropLast zero)
  have shown : text.getLast some ≠ 0 := fun zero => visible (zero ▸ List.getLast_mem some)
  have called := @backspace_spec stale _ front _ shown
  rw [List.append_cons, List.dropLast_append_getLast some] at called
  have positive := List.length_pos_iff.mpr some
  refine ⟨_, called, ?_, ?_⟩
  · simp only [List.length_append, List.length_dropLast, List.length_cons]
    omega
  · rw [contents_append_iff front]
    exact iff_of_true rfl trivial

/-- One operation on a buffer that has room for its result. -/
theorem BufferOp.exec_leads {op : BufferOp} (means : op.meaning (contents cells) = some text)
    (room : text.length < cells.length) : Leads op cells text := by
  cases op with
  | strcpy src =>
      cases means
      exact strcpy_leads src room
  | strcat src =>
      obtain ⟨old, held, rfl⟩ := Option.map_eq_some_iff.mp means
      exact strcat_leads src held room
  | append char shown =>
      obtain ⟨old, held, rfl⟩ := Option.map_eq_some_iff.mp means
      exact append_leads char shown held room
  | backspace =>
      obtain ⟨old, held, shortened⟩ := Option.bind_eq_some_iff.mp means
      by_cases empty : old = []
      · rw [if_pos empty] at shortened
        cases shortened
      · rw [if_neg empty] at shortened
        cases shortened
        exact backspace_leads held empty

variable {op : BufferOp} {ops : List BufferOp}

theorem execAll_cons {next : Cells} (called : op.exec cells = some next) (ops : List BufferOp) :
    execAll cells (op :: ops) = execAll next ops := by
  rw [execAll, List.foldlM_cons, called]
  rfl

/-- The first step and the ones after it. -/
theorem refines_cons {next : Cells} (called : op.exec cells = some next) :
    Refines cells (op :: ops) ↔
      contents next = op.meaning (contents cells) ∧ Refines next ops := by
  refine ⟨?_, ?_⟩
  · intro refines
    have first : contents next = op.meaning (contents cells) := by
      obtain ⟨reached, ran, holds⟩ := refines [op] ops rfl
      cases (execAll_cons called []).symm.trans ran
      exact holds
    refine ⟨first, ?_⟩
    intro before after split
    obtain ⟨reached, ran, holds⟩ := refines (op :: before) after (congrArg (op :: ·) split)
    refine ⟨reached, (execAll_cons called before).symm.trans ran, ?_⟩
    rw [first]
    exact holds
  · rintro ⟨first, later⟩ before after split
    cases before with
    | nil => exact ⟨cells, rfl, rfl⟩
    | cons head before =>
        obtain ⟨rfl, rest⟩ := List.cons_eq_cons.mp split
        obtain ⟨reached, ran, holds⟩ := later before after rest
        refine ⟨reached, (execAll_cons called before).trans ran, ?_⟩
        rw [holds, first]
        rfl

theorem allTerminated_nil (cells : Cells) : AllTerminated cells [] := by
  intro before op after split
  obtain ⟨-, impossible⟩ := List.append_eq_nil_iff.mp split.symm
  cases impossible

theorem allTerminated_cons {next : Cells} (called : op.exec cells = some next) :
    AllTerminated cells (op :: ops) ↔ op.Terminated cells ∧ AllTerminated next ops := by
  refine ⟨?_, ?_⟩
  · intro terminated
    refine ⟨terminated [] op ops rfl cells rfl, ?_⟩
    intro before other after split reached ran
    exact terminated (op :: before) other after (congrArg (op :: ·) split) reached
      ((execAll_cons called before).trans ran)
  · rintro ⟨first, later⟩ before other after split reached ran
    cases before with
    | nil =>
        obtain ⟨rfl, -⟩ := List.cons_eq_cons.mp split
        cases ran
        exact first
    | cons head before =>
        obtain ⟨rfl, rest⟩ := List.cons_eq_cons.mp split
        exact later before other after rest reached ((execAll_cons called before).symm.trans ran)

/-- A run follows the lists exactly when each `strcat` finds a zero where its result ends. -/
theorem refines_iff (cells : Cells) (ops : List BufferOp)
    (fits : Fits cells.length (contents cells) ops) :
    Refines cells ops ↔ AllTerminated cells ops := by
  induction ops generalizing cells with
  | nil =>
      refine iff_of_true ?_ (allTerminated_nil cells)
      intro before after split
      obtain ⟨rfl, -⟩ := List.append_eq_nil_iff.mp split.symm
      exact ⟨cells, rfl, rfl⟩
  | cons op ops ih =>
      obtain ⟨text, means, room, fitting⟩ := fits
      obtain ⟨next, called, sized, exactly⟩ := op.exec_leads means room
      rw [refines_cons called, allTerminated_cons called, means, ← exactly]
      refine and_congr_right ?_
      intro holds
      refine ih next ?_
      rw [sized, holds]
      exact fitting

end Steps

def CString.ofText (text : List Byte) (visible : 0 ∉ text) : CString := ⟨text, visible, []⟩

/-- "ab", then "cd" behind it, and a letter less and one more. -/
def zeroedOps : List BufferOp :=
  [.strcpy (.ofText [97, 98] (by decide)), .strcat (.ofText [99, 100] (by decide)), .backspace,
   .append 101 (by decide)]

/-- In a buffer that was zeroed, the operations follow the lists. -/
theorem refines_iff_zeroed :
    Fits 8 (contents (List.replicate 8 0)) zeroedOps ∧
      Refines (List.replicate 8 0) zeroedOps ∧
      (execAll (List.replicate 8 0) zeroedOps).bind contents = some [97, 98, 99, 101] := by
  have fits : Fits 8 (contents (List.replicate 8 0)) zeroedOps :=
    ⟨_, rfl, by decide, _, rfl, by decide, _, rfl, by decide, _, rfl, by decide, trivial⟩
  have zero : BufferOp.Terminated ([97, 98] ++ List.replicate 6 0)
      (.strcat (.ofText [99, 100] (by decide))) := by
    intro text held
    have measured : contents ([97, 98] ++ List.replicate 6 0) = some [97, 98] := by decide
    cases measured.symm.trans held
    rfl
  refine ⟨fits, (refines_iff (List.replicate 8 0) zeroedOps fits).mpr ?_, by decide⟩
  refine (allTerminated_cons rfl).mpr ⟨trivial, ?_⟩
  refine (allTerminated_cons rfl).mpr ⟨zero, ?_⟩
  refine (allTerminated_cons rfl).mpr ⟨trivial, ?_⟩
  exact (allTerminated_cons rfl).mpr ⟨trivial, allTerminated_nil _⟩

/-- "abc", then "a", then "x" behind it. -/
def staleOps : List BufferOp :=
  [.strcpy (.ofText [97, 98, 99] (by decide)), .strcpy (.ofText [97] (by decide)),
   .strcat (.ofText [120] (by decide))]

/-- The buffer holds "axc", where the list is "ax". -/
theorem not_refines_stale :
    Fits 8 (contents (List.replicate 8 0)) staleOps ∧
      ¬ Refines (List.replicate 8 0) staleOps := by
  refine ⟨⟨_, rfl, by decide, _, rfl, by decide, _, rfl, by decide, trivial⟩, ?_⟩
  intro refines
  obtain ⟨reached, ran, holds⟩ := refines staleOps [] rfl
  have held : (execAll (List.replicate 8 0) staleOps).map contents = some (some [97, 120, 99]) := by
    decide
  rw [ran, Option.map_some, holds] at held
  exact absurd held (by decide)

end Toyos.Libc
