import Mathlib.Data.List.Infix
import LearningKernels.Toyos.Vsprintf

/-!
# Formats as lists of items

What `vsprintf` does is said in two steps that the source interleaves: the format
alone determines a list of items, literal characters and directives, and the
items then consume the arguments one after the other. `Toyos.vsprintf_eq_render`
connects the two readings; it also says that the scanner never runs past the end
of the format and always ends.
-/

namespace Toyos

open Machine

/-- A field width or a precision as the format gives it. -/
inductive Amount where
  | absent
  | literal (value : Int)
  | star
  deriving DecidableEq, Repr

/-- A directive of the format. At the end of the format the conversion is zero. -/
structure Directive where
  flags : Flags
  fieldWidth : Amount
  precision : Amount
  conversion : Byte
  deriving DecidableEq, Repr

/-- A literal character or a directive. -/
inductive Item where
  | literal (char : Byte)
  | directive (spec : Directive)
  deriving DecidableEq, Repr

section Scan

/-- The flags, and the format behind them. -/
def scanFlags : List Byte → Flags → Flags × List Byte
  | [], flags => (flags, [])
  | char :: fmt, flags =>
      match setFlag flags char with
      | some more => scanFlags fmt more
      | none => (flags, char :: fmt)

/-- The value of a numeral, and the format behind it. -/
def scanAtoi : List Byte → Int → Int × List Byte
  | [], i => (i, [])
  | char :: fmt, i =>
      if isDigit char then scanAtoi fmt (wrap32 (i * 10 + char.toNat - 48)) else (i, char :: fmt)

/-- A numeral or a star. -/
def scanAmount (none : Amount) (fmt : List Byte) : Amount × List Byte :=
  if isDigit (fmt.headD 0) then (.literal (scanAtoi fmt 0).1, (scanAtoi fmt 0).2)
  else if fmt.headD 0 = chr '*' then (.star, fmt)
  else (none, fmt)

/-- The precision, if there is one. -/
def scanPrecision (fmt : List Byte) : Amount × List Byte :=
  if fmt.headD 0 = chr '.' then scanAmount (.literal 0) fmt.tail else (.absent, fmt)

/-- The format behind a length qualifier. -/
def scanQualifier (fmt : List Byte) : List Byte :=
  if fmt.headD 0 = chr 'h' ∨ fmt.headD 0 = chr 'l' ∨ fmt.headD 0 = chr 'L' then fmt.tail else fmt

/-- The directive behind a `%`, and the format behind the directive. -/
def scanDirective (fmt : List Byte) : Directive × List Byte :=
  let flags := scanFlags fmt {}
  let fieldWidth := scanAmount .absent flags.2
  let precision := scanPrecision fieldWidth.2
  let rest := scanQualifier precision.2
  (⟨flags.1, fieldWidth.1, precision.1, rest.headD 0⟩, rest.tail)

variable (fmt : List Byte)

theorem scanFlags_suffix (flags : Flags) : (scanFlags fmt flags).2 <:+ fmt := by
  fun_induction scanFlags fmt flags with
  | case1 flags => exact List.suffix_rfl
  | case2 flags char fmt more found ih => exact ih.trans (List.suffix_cons _ _)
  | case3 flags char fmt found => exact List.suffix_rfl

theorem scanAtoi_suffix (i : Int) : (scanAtoi fmt i).2 <:+ fmt := by
  fun_induction scanAtoi fmt i with
  | case1 i => exact List.suffix_rfl
  | case2 i char fmt digit ih => exact ih.trans (List.suffix_cons _ _)
  | case3 i char fmt digit => exact List.suffix_rfl

theorem scanAmount_suffix (none : Amount) : (scanAmount none fmt).2 <:+ fmt := by
  unfold scanAmount
  split_ifs
  · exact scanAtoi_suffix fmt 0
  · exact List.suffix_rfl
  · exact List.suffix_rfl

theorem scanPrecision_suffix : (scanPrecision fmt).2 <:+ fmt := by
  unfold scanPrecision
  split_ifs
  · exact (scanAmount_suffix _ _).trans (List.tail_suffix fmt)
  · exact List.suffix_rfl

theorem scanQualifier_suffix : scanQualifier fmt <:+ fmt := by
  unfold scanQualifier
  split_ifs
  · exact List.tail_suffix fmt
  · exact List.suffix_rfl

theorem scanDirective_suffix : (scanDirective fmt).2 <:+ fmt :=
  (List.tail_suffix _).trans <| (scanQualifier_suffix _).trans <|
    (scanPrecision_suffix _).trans <| (scanAmount_suffix _ _).trans <| scanFlags_suffix _ _

end Scan

/-- The items of a format. -/
def scan : List Byte → List Item
  | [] => []
  | char :: fmt =>
      if char ≠ chr '%' then .literal char :: scan fmt
      else .directive (scanDirective fmt).1 :: scan (scanDirective fmt).2
termination_by fmt => fmt.length
decreasing_by
  · exact Nat.lt_succ_self _
  · exact Nat.lt_succ_of_le (scanDirective_suffix fmt).length_le

theorem scan_literal {char : Byte} (literal : char ≠ chr '%') (fmt : List Byte) :
    scan (char :: fmt) = .literal char :: scan fmt := by
  rw [scan, if_pos literal]

theorem scan_directive (fmt : List Byte) :
    scan (chr '%' :: fmt) = .directive (scanDirective fmt).1 :: scan (scanDirective fmt).2 := by
  rw [scan, if_neg fun different => different rfl]

/-- What a conversion character stands for. The conversions that call `number` differ in
the type options, the base and the width they pass. -/
inductive Conversion where
  | char
  | str
  | number (type : Flags) (base : Nat) (size : Int)
  | cell
  | other
  deriving DecidableEq, Repr

/-- The conversion switch as a table. -/
def conversionOf (flags : Flags) (fieldWidth : Int) (char : Byte) : Conversion :=
  if char = chr 'c' then .char
  else if char = chr 's' then .str
  else if char = chr 'o' then .number flags 8 fieldWidth
  else if char = chr 'p' then
    if fieldWidth = -1 then .number { flags with zeropad := true } 16 8
    else .number flags 16 fieldWidth
  else if char = chr 'x' then .number { flags with small := true } 16 fieldWidth
  else if char = chr 'X' then .number flags 16 fieldWidth
  else if char = chr 'd' ∨ char = chr 'i' then .number { flags with sign := true } 10 fieldWidth
  else if char = chr 'u' then .number flags 10 fieldWidth
  else if char = chr 'n' then .cell
  else .other

/-- What a conversion does with its argument. -/
def Conversion.run (stray : Stray) (flags : Flags) (fieldWidth precision : Int) (char : Byte)
    (args : List Arg) (position : Nat) : Conversion → Except Fault (Printed × List Arg)
  | .char => vaArgInt args >>= fun found =>
      .ok (convertChar flags fieldWidth found.1, found.2)
  | .str => vaArgStr args >>= fun found =>
      .ok (convertStr flags fieldWidth precision found.1, found.2)
  | .number type base size => convertNumber stray type size precision base args
  | .cell => vaArgCell args >>= fun found =>
      .ok ({ text := [], cells := [(found.1, wrap32 position)] }, found.2)
  | .other => .ok (convertOther char, args)

/-- The switch runs what the table says. -/
theorem convert_eq (stray : Stray) (flags : Flags) (fieldWidth precision : Int) (char : Byte)
    (args : List Arg) (position : Nat) :
    convert stray flags fieldWidth precision char args position =
      (conversionOf flags fieldWidth char).run stray flags fieldWidth precision char args
        position := by
  rw [conversionOf]
  simp only [apply_ite (Conversion.run stray flags fieldWidth precision char args position)]
  rfl

/-- A number is read, and what is printed for it is returned. -/
theorem convertNumber_eq (stray : Stray) (flags : Flags) (fieldWidth precision base : Int) :
    convertNumber stray flags fieldWidth precision base = fun args =>
      vaArgInt args >>= fun found =>
        (number stray found.1 base fieldWidth precision flags).elim (.error .nullStr)
          fun printed => .ok (printed, found.2) := by
  funext args
  rw [convertNumber]
  refine congrArg (vaArgInt args >>= ·) ?_
  funext found
  obtain ⟨value, rest⟩ := found
  dsimp only
  cases number stray value base fieldWidth precision flags with
  | none => rfl
  | some printed => rfl

/-- A field width with its argument, if it needs one. -/
def Amount.resolveWidth (amount : Amount) (flags : Flags) (args : List Arg) :
    Except Fault (Int × Flags × List Arg) :=
  match amount with
  | .absent => .ok (-1, flags, args)
  | .literal value => .ok (value, flags, args)
  | .star => do
      let (value, args) ← vaArgInt args
      if value < 0 then pure (wrap32 (-value), { flags with left := true }, args)
      else pure (value, flags, args)

/-- A precision with its argument, if it needs one. -/
def Amount.resolvePrecision (amount : Amount) (args : List Arg) :
    Except Fault (Int × List Arg) :=
  match amount with
  | .absent => .ok (-1, args)
  | .literal value => .ok (if value < 0 then 0 else value, args)
  | .star => do
      let (value, args) ← vaArgInt args
      pure (if value < 0 then 0 else value, args)

/-- What a directive does at a position of the buffer. -/
def Directive.print (stray : Stray) (spec : Directive) (args : List Arg) (position : Nat) :
    Except Fault (Printed × List Arg) := do
  let (fieldWidth, flags, args) ← spec.fieldWidth.resolveWidth spec.flags args
  let (precision, args) ← spec.precision.resolvePrecision args
  convert stray flags fieldWidth precision spec.conversion args position

/-- What an item does at a position of the buffer. -/
def Item.print (stray : Stray) (item : Item) (args : List Arg) (position : Nat) :
    Except Fault (Printed × List Arg) :=
  match item with
  | .literal char => .ok ({ text := [char] }, args)
  | .directive spec => spec.print stray args position

/-- What a list of items does, after what is done already. -/
def render (stray : Stray) : List Item → List Arg → Printed → Except Fault (Printed × List Arg)
  | [], args, done => .ok (done, args)
  | item :: items, args, done => do
      let (printed, args) ← item.print stray args done.text.length
      render stray items args (done.append printed)

section Refinement

variable (fmt : List Byte) (flags : Flags) (args : List Arg)

theorem peek_terminated : peek (fmt ++ [0]) = .ok (fmt.headD 0) := by
  cases fmt <;> rfl

theorem getFlags_terminated :
    getFlags (fmt ++ [0]) flags =
      .ok ((scanFlags fmt flags).1, (scanFlags fmt flags).2 ++ [0]) := by
  fun_induction scanFlags fmt flags with
  | case1 flags => rfl
  | case2 flags char fmt more found ih =>
      rw [List.cons_append, getFlags, found]
      exact ih
  | case3 flags char fmt found =>
      rw [List.cons_append, getFlags, found]

theorem skipAtoi_terminated (i : Int) :
    skipAtoi (fmt ++ [0]) i = .ok ((scanAtoi fmt i).1, (scanAtoi fmt i).2 ++ [0]) := by
  fun_induction scanAtoi fmt i with
  | case1 i => rfl
  | case2 i char fmt digit ih =>
      rw [List.cons_append, skipAtoi, if_pos digit]
      exact ih
  | case3 i char fmt digit =>
      rw [List.cons_append, skipAtoi, if_neg digit]

theorem getFieldWidth_terminated :
    getFieldWidth (fmt ++ [0]) flags args =
      ((scanAmount .absent fmt).1.resolveWidth flags args).map fun found =>
        (found.1, found.2.1, (scanAmount .absent fmt).2 ++ [0], found.2.2) := by
  rw [getFieldWidth, peek_terminated, scanAmount]
  simp only [bind, Except.bind]
  by_cases digit : isDigit (fmt.headD 0)
  · simp only [digit, ↓reduceIte, skipAtoi_terminated]
    rfl
  · simp only [if_neg digit]
    by_cases star : fmt.headD 0 = chr '*'
    · simp only [if_pos star, Amount.resolveWidth, bind, Except.bind]
      cases vaArgInt args with
      | error reason => rfl
      | ok found =>
          obtain ⟨value, args⟩ := found
          simp only
          split_ifs <;> rfl
    · simp only [if_neg star]
      rfl

theorem getPrecision_terminated :
    getPrecision (fmt ++ [0]) args =
      ((scanPrecision fmt).1.resolvePrecision args).map fun found =>
        (found.1, (scanPrecision fmt).2 ++ [0], found.2) := by
  rw [getPrecision, peek_terminated, scanPrecision]
  simp only [bind, Except.bind]
  by_cases dot : fmt.headD 0 = chr '.'
  · simp only [if_pos dot]
    cases fmt with
    | nil => cases dot
    | cons char fmt =>
        simp only [List.cons_append, advance, peek_terminated, List.tail_cons]
        simp only [scanAmount]
        by_cases digit : isDigit (fmt.headD 0)
        · simp only [digit, ↓reduceIte, skipAtoi_terminated]
          rfl
        · simp only [if_neg digit]
          by_cases star : fmt.headD 0 = chr '*'
          · simp only [if_pos star, Amount.resolvePrecision, bind, Except.bind]
            cases vaArgInt args with
            | error reason => rfl
            | ok found => rfl
          · simp only [if_neg star]
            rfl
  · simp only [if_neg dot]
    rfl

theorem skipQualifier_terminated :
    skipQualifier (fmt ++ [0]) = .ok (scanQualifier fmt ++ [0]) := by
  rw [skipQualifier, peek_terminated, scanQualifier]
  simp only [bind, Except.bind]
  cases fmt with
  | nil => rfl
  | cons char fmt =>
      change (if char = chr 'h' ∨ char = chr 'l' ∨ char = chr 'L' then
          Except.ok (fmt ++ [0]) else .ok (char :: fmt ++ [0])) =
        .ok ((if char = chr 'h' ∨ char = chr 'l' ∨ char = chr 'L' then fmt else char :: fmt) ++ [0])
      split_ifs <;> rfl

variable {fmt}

/-- The step behind a conversion. At the end of the format it stays there. -/
theorem nextRound_terminated (nulFree : 0 ∉ fmt) :
    nextRound (fmt.headD 0) (fmt ++ [0]) = .ok (fmt.tail ++ [0]) := by
  cases fmt with
  | nil => rfl
  | cons char fmt =>
      have visible : (char :: fmt).headD 0 ≠ 0 := fun zero => nulFree (zero ▸ List.mem_cons_self)
      rw [nextRound, if_neg visible]
      rfl

theorem scanDirective_rest_nulFree (nulFree : 0 ∉ fmt) : 0 ∉ (scanDirective fmt).2 :=
  fun member => nulFree ((scanDirective_suffix fmt).subset member)

/-- A round at a directive prints it and goes on behind it. -/
theorem vsprintfRound_directive (stray : Stray) (done : Printed) (nulFree : 0 ∉ fmt) :
    vsprintfRound stray ⟨(chr '%' :: fmt) ++ [0], args, done⟩ =
      ((scanDirective fmt).1.print stray args done.text.length).map fun found =>
        some ⟨(scanDirective fmt).2 ++ [0], found.2, done.append found.1⟩ := by
  have restFree : 0 ∉ scanQualifier (scanPrecision (scanAmount .absent
      (scanFlags fmt {}).2).2).2 := fun member => nulFree <|
    ((scanQualifier_suffix _).trans <| (scanPrecision_suffix _).trans <|
      (scanAmount_suffix _ _).trans <| scanFlags_suffix _ _).subset member
  have first : peek (chr '%' :: fmt ++ [0]) = .ok (chr '%') := rfl
  have second : advance (chr '%' :: fmt ++ [0]) = .ok (fmt ++ [0]) := rfl
  rw [vsprintfRound, Directive.print, scanDirective]
  simp only [first, second, bind, Except.bind, getFlags_terminated,
    getFieldWidth_terminated, ne_eq, not_true_eq_false, ↓reduceIte]
  rw [if_neg (by decide)]
  cases (scanAmount .absent (scanFlags fmt {}).2).1.resolveWidth (scanFlags fmt {}).1 args with
  | error reason => rfl
  | ok found =>
      obtain ⟨fieldWidth, flags, args⟩ := found
      simp only [Except.map, getPrecision_terminated]
      cases (scanPrecision (scanAmount .absent (scanFlags fmt {}).2).2).1.resolvePrecision
          args with
      | error reason => rfl
      | ok found =>
          obtain ⟨precision, args⟩ := found
          simp only [skipQualifier_terminated, peek_terminated, nextRound_terminated restFree]
          generalize convert _ _ _ _ _ _ _ = converted
          cases converted <;> rfl

/-- A round at a character copies it. -/
theorem vsprintfRound_literal (stray : Stray) (done : Printed) {char : Byte}
    (visible : char ≠ 0) (literal : char ≠ chr '%') :
    vsprintfRound stray ⟨(char :: fmt) ++ [0], args, done⟩ =
      .ok (some ⟨fmt ++ [0], args, done.append { text := [char] }⟩) := by
  rw [vsprintfRound]
  simp only [List.cons_append, peek, advance, bind, Except.bind]
  rw [if_neg visible, if_pos literal]
  rfl

theorem vsprintfLoop_directive (stray : Stray) (fuel : Nat) (done : Printed)
    (nulFree : 0 ∉ fmt) :
    vsprintfLoop stray (fuel + 1) ((chr '%' :: fmt) ++ [0]) args done =
      (do
        let (printed, args) ← (scanDirective fmt).1.print stray args done.text.length
        vsprintfLoop stray fuel ((scanDirective fmt).2 ++ [0]) args (done.append printed)) := by
  have round := vsprintfLoop_succ stray fuel ⟨(chr '%' :: fmt) ++ [0], args, done⟩
  rw [vsprintfRound_directive args stray done nulFree] at round
  rw [round]
  cases (scanDirective fmt).1.print stray args done.text.length <;> rfl

theorem vsprintfLoop_literal (stray : Stray) (fuel : Nat) (done : Printed) {char : Byte}
    (visible : char ≠ 0) (literal : char ≠ chr '%') :
    vsprintfLoop stray (fuel + 1) ((char :: fmt) ++ [0]) args done =
      vsprintfLoop stray fuel (fmt ++ [0]) args (done.append { text := [char] }) := by
  have round := vsprintfLoop_succ stray fuel ⟨(char :: fmt) ++ [0], args, done⟩
  rw [vsprintfRound_literal args stray done visible literal] at round
  exact round

/-- The loop renders the items of the format, and fuel for each character is enough. -/
theorem vsprintfLoop_eq_render (stray : Stray) (fuel : Nat) (enough : fmt.length < fuel)
    (nulFree : 0 ∉ fmt) (done : Printed) :
    vsprintfLoop stray fuel (fmt ++ [0]) args done = render stray (scan fmt) args done := by
  induction fuel generalizing fmt args done with
  | zero => omega
  | succ fuel ih =>
      cases fmt with
      | nil =>
          rw [scan, render]
          rfl
      | cons char fmt =>
          have visible : char ≠ 0 := fun zero => nulFree (zero ▸ List.mem_cons_self)
          have tailFree : 0 ∉ fmt := fun member => nulFree (List.mem_cons_of_mem _ member)
          rw [List.length_cons] at enough
          by_cases literal : char = chr '%'
          · subst literal
            have shorter := (scanDirective_suffix fmt).length_le
            rw [vsprintfLoop_directive _ _ _ _ tailFree, scan_directive, render]
            simp only [Item.print]
            congr 1
            funext found
            exact ih found.2 (by omega) (scanDirective_rest_nulFree tailFree) _
          · rw [vsprintfLoop_literal _ _ _ _ visible literal, scan_literal literal, render]
            exact ih args (by omega) tailFree _

end Refinement

/-- **The scanner refines the items.** On a format without a zero inside, `vsprintf`
renders the items of the format. -/
theorem vsprintf_eq_render (stray : Stray) {fmt : List Byte} (nulFree : 0 ∉ fmt)
    (args : List Arg) :
    vsprintf stray fmt args =
      (render stray (scan fmt) args ⟨[], [], []⟩).map fun found => ⟨found.1, found.2⟩ := by
  rw [vsprintf, vsprintfLoop_eq_render args stray _ (Nat.lt_succ_self _) nulFree]
  cases render stray (scan fmt) args ⟨[], [], []⟩ with
  | error reason => rfl
  | ok found => rfl

/-- A format that is a single directive does what the directive does. -/
theorem vsprintf_single (stray : Stray) {fmt : List Byte} (nulFree : 0 ∉ fmt) {spec : Directive}
    (scanned : scan fmt = [.directive spec]) (args : List Arg) :
    vsprintf stray fmt args =
      (spec.print stray args 0).map fun found => ⟨found.1, found.2⟩ := by
  rw [vsprintf_eq_render stray nulFree, scanned, render]
  simp only [Item.print, List.length_nil, bind, Except.bind]
  cases spec.print stray args 0 with
  | error reason => rfl
  | ok found => rfl

end Toyos
