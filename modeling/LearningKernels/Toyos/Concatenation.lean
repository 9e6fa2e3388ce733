import LearningKernels.Toyos.Format

/-!
# Formats one after the other

A format is complete when the scanner does not reach its end inside a directive.
The items of a complete format and anything behind it are the items of the two,
and the items of the first part read the front of the arguments and print the same
at every position. So `vsprintf` turns concatenation of formats into concatenation
of outputs (`Toyos.vsprintf_concatenation`).
-/

namespace Toyos

open Machine

/-- The scanner has seen the conversion of the item. -/
def Item.Whole : Item → Prop
  | .literal _ => True
  | .directive spec => spec.conversion ≠ 0

instance : DecidablePred Item.Whole
  | .literal _ => .isTrue trivial
  | .directive spec => inferInstanceAs (Decidable (spec.conversion ≠ 0))

/-- The scanner does not reach the end of the format inside a directive. -/
def Complete (fmt : List Byte) : Prop := ∀ item ∈ scan fmt, item.Whole

instance (fmt : List Byte) : Decidable (Complete fmt) :=
  inferInstanceAs (Decidable (∀ item ∈ scan fmt, item.Whole))

section Scan

variable (more : List Byte) {fmt : List Byte}

theorem headD_append (inside : fmt ≠ []) : (fmt ++ more).headD 0 = fmt.headD 0 := by
  cases fmt with
  | nil => exact absurd rfl inside
  | cons char fmt => rfl

theorem tail_append (inside : fmt ≠ []) : (fmt ++ more).tail = fmt.tail ++ more := by
  cases fmt with
  | nil => exact absurd rfl inside
  | cons char fmt => rfl

/-- A format is not empty when something is left of it. -/
theorem ne_nil_of_suffix {rest : List Byte} (part : rest <:+ fmt) (left : rest ≠ []) :
    fmt ≠ [] := by
  rintro rfl
  exact left (List.suffix_nil.mp part)

theorem scanFlags_append (flags : Flags) (left : (scanFlags fmt flags).2 ≠ []) :
    scanFlags (fmt ++ more) flags =
      ((scanFlags fmt flags).1, (scanFlags fmt flags).2 ++ more) := by
  fun_induction scanFlags fmt flags with
  | case1 flags => exact absurd rfl left
  | case2 flags char fmt next found ih =>
      rw [List.cons_append, scanFlags, found]
      exact ih left
  | case3 flags char fmt found =>
      rw [List.cons_append, scanFlags, found]

theorem scanAtoi_append (i : Int) (left : (scanAtoi fmt i).2 ≠ []) :
    scanAtoi (fmt ++ more) i = ((scanAtoi fmt i).1, (scanAtoi fmt i).2 ++ more) := by
  fun_induction scanAtoi fmt i with
  | case1 i => exact absurd rfl left
  | case2 i char fmt digit ih =>
      rw [List.cons_append, scanAtoi, if_pos digit]
      exact ih left
  | case3 i char fmt digit =>
      rw [List.cons_append, scanAtoi, if_neg digit]

theorem scanAmount_append (none : Amount) (left : (scanAmount none fmt).2 ≠ []) :
    scanAmount none (fmt ++ more) =
      ((scanAmount none fmt).1, (scanAmount none fmt).2 ++ more) := by
  have inside : fmt ≠ [] := ne_nil_of_suffix (scanAmount_suffix fmt none) left
  simp only [scanAmount, headD_append more inside] at left ⊢
  split_ifs at left ⊢ with digit star
  · rw [scanAtoi_append more 0 left]
  · rfl
  · rfl

theorem scanPrecision_append (left : (scanPrecision fmt).2 ≠ []) :
    scanPrecision (fmt ++ more) = ((scanPrecision fmt).1, (scanPrecision fmt).2 ++ more) := by
  have inside : fmt ≠ [] := ne_nil_of_suffix (scanPrecision_suffix fmt) left
  simp only [scanPrecision, headD_append more inside, tail_append more inside] at left ⊢
  split_ifs at left ⊢ with dot
  · exact scanAmount_append more _ left
  · rfl

theorem scanQualifier_append (left : scanQualifier fmt ≠ []) :
    scanQualifier (fmt ++ more) = scanQualifier fmt ++ more := by
  have inside : fmt ≠ [] := ne_nil_of_suffix (scanQualifier_suffix fmt) left
  simp only [scanQualifier, headD_append more inside, tail_append more inside]
  split_ifs <;> rfl

/-- A directive whose conversion is there is scanned without a look behind it. -/
theorem scanDirective_append (whole : (scanDirective fmt).1.conversion ≠ 0) :
    scanDirective (fmt ++ more) = ((scanDirective fmt).1, (scanDirective fmt).2 ++ more) := by
  simp only [scanDirective] at whole ⊢
  have rest : scanQualifier (scanPrecision (scanAmount .absent (scanFlags fmt {}).2).2).2 ≠ [] := by
    intro empty
    rw [empty] at whole
    exact whole rfl
  have precision := ne_nil_of_suffix (scanQualifier_suffix _) rest
  have width := ne_nil_of_suffix (scanPrecision_suffix _) precision
  have flags := ne_nil_of_suffix (scanAmount_suffix _ _) width
  rw [scanFlags_append more _ flags, scanAmount_append more _ width,
    scanPrecision_append more precision, scanQualifier_append more rest,
    headD_append more rest, tail_append more rest]

theorem complete_literal {char : Byte} (literal : char ≠ chr '%') :
    Complete (char :: fmt) ↔ Complete fmt := by
  rw [Complete, scan_literal literal, List.forall_mem_cons]
  exact ⟨fun both => both.2, fun rest => ⟨trivial, rest⟩⟩

theorem complete_directive : Complete (chr '%' :: fmt) ↔
    (scanDirective fmt).1.conversion ≠ 0 ∧ Complete (scanDirective fmt).2 := by
  rw [Complete, scan_directive, List.forall_mem_cons]
  rfl

/-- The items of a complete format come in front of those of anything behind it. -/
theorem scan_append (complete : Complete fmt) : scan (fmt ++ more) = scan fmt ++ scan more := by
  induction size : fmt.length using Nat.strong_induction_on generalizing fmt with
  | _ length ih =>
      subst size
      cases fmt with
      | nil =>
          rw [scan]
          rfl
      | cons char fmt =>
          by_cases literal : char = chr '%'
          · subst literal
            obtain ⟨whole, rest⟩ := complete_directive.mp complete
            have shorter := Nat.lt_succ_of_le (scanDirective_suffix fmt).length_le
            rw [List.cons_append, scan_directive, scan_directive,
              scanDirective_append more whole, ih _ shorter rest rfl, List.cons_append]
          · rw [List.cons_append, scan_literal literal, scan_literal literal,
              ih _ (Nat.lt_succ_self _) ((complete_literal literal).mp complete) rfl,
              List.cons_append]

end Scan

section Render

variable {stray : Stray}

/-- Reading the front of the arguments only. -/
structure ReadsFront {α : Type} (read : List Arg → Except Fault (α × List Arg)) : Prop where
  frame : ∀ {args found rest} (more : List Arg), read args = .ok (found, rest) →
    read (args ++ more) = .ok (found, rest ++ more)

theorem vaArgInt_readsFront : ReadsFront vaArgInt where
  frame := by
    rintro (_ | ⟨_ | _, args⟩) found rest more ran <;> cases ran
    rfl

theorem vaArgStr_readsFront : ReadsFront vaArgStr where
  frame := by
    rintro (_ | ⟨_ | _, args⟩) found rest more ran <;> cases ran
    rfl

theorem vaArgCell_readsFront : ReadsFront vaArgCell where
  frame := by
    rintro (_ | ⟨_ | _, args⟩) found rest more ran <;> cases ran
    rfl

theorem ReadsFront.bind {α β : Type} {read : List Arg → Except Fault (α × List Arg)}
    {use : α → List Arg → Except Fault (β × List Arg)} (first : ReadsFront read)
    (second : ∀ value, ReadsFront (use value)) :
    ReadsFront fun args => read args >>= fun found => use found.1 found.2 where
  frame := by
    intro args found rest more ran
    obtain ⟨pair, readFront, used⟩ := bind_eq_ok ran
    rw [first.frame more readFront]
    exact (second pair.1).frame more used

theorem readsFront_pure {α : Type} (value : α) : ReadsFront fun args => .ok (value, args) where
  frame := by
    intro args found rest more ran
    cases ran
    rfl

theorem readsFront_error {α : Type} (reason : Fault) :
    ReadsFront fun _ => (.error reason : Except Fault (α × List Arg)) where
  frame := by
    intro args found rest more ran
    cases ran

theorem convertNumber_readsFront (flags : Flags) (fieldWidth precision base : Int) :
    ReadsFront (convertNumber stray flags fieldWidth precision base) := by
  have print (value : Int) : ReadsFront fun args =>
      (number stray value base fieldWidth precision flags).elim (.error .nullStr)
        fun printed => .ok (printed, args) := by
    cases number stray value base fieldWidth precision flags with
    | none => exact readsFront_error .nullStr
    | some printed => exact readsFront_pure printed
  rw [convertNumber_eq]
  exact vaArgInt_readsFront.bind print

theorem convert_readsFront (flags : Flags) (fieldWidth precision : Int) (char : Byte)
    (position : Nat) :
    ReadsFront fun args => convert stray flags fieldWidth precision char args position := by
  simp only [convert_eq]
  cases conversionOf flags fieldWidth char with
  | char =>
      exact vaArgInt_readsFront.bind fun value =>
        readsFront_pure (convertChar flags fieldWidth value)
  | str =>
      exact vaArgStr_readsFront.bind fun text =>
        readsFront_pure (convertStr flags fieldWidth precision text)
  | number type base size => exact convertNumber_readsFront type size precision base
  | cell =>
      exact vaArgCell_readsFront.bind fun address =>
        readsFront_pure ({ text := [], cells := [(address, wrap32 position)] } : Printed)
  | other => exact readsFront_pure _

theorem resolveWidth_frame {amount : Amount} {flags next : Flags} {args rest : List Arg}
    {value : Int} (more : List Arg)
    (ran : amount.resolveWidth flags args = .ok (value, next, rest)) :
    amount.resolveWidth flags (args ++ more) = .ok (value, next, rest ++ more) := by
  cases amount with
  | absent =>
      cases ran
      rfl
  | literal width =>
      cases ran
      rfl
  | star =>
      obtain ⟨pair, read, resolved⟩ := bind_eq_ok ran
      rw [Amount.resolveWidth, vaArgInt_readsFront.frame more read]
      simp only [bind, Except.bind] at resolved ⊢
      split_ifs at resolved ⊢ <;> cases resolved <;> rfl

theorem resolvePrecision_readsFront (amount : Amount) :
    ReadsFront amount.resolvePrecision := by
  cases amount with
  | absent => exact readsFront_pure (-1)
  | literal value => exact readsFront_pure _
  | star =>
      exact vaArgInt_readsFront.bind fun value => readsFront_pure (if value < 0 then 0 else value)

theorem Directive.print_readsFront (spec : Directive) (position : Nat) :
    ReadsFront fun args => spec.print stray args position where
  frame := by
    intro args found rest more ran
    obtain ⟨⟨fieldWidth, flags, behind⟩, width, printed⟩ := bind_eq_ok ran
    have later := (resolvePrecision_readsFront spec.precision).bind fun precision =>
      @convert_readsFront stray flags fieldWidth precision spec.conversion position
    rw [Directive.print, resolveWidth_frame more width]
    exact later.frame more printed

theorem Item.print_readsFront (item : Item) (position : Nat) :
    ReadsFront fun args => item.print stray args position := by
  cases item with
  | literal char => exact readsFront_pure _
  | directive spec => exact spec.print_readsFront position

theorem render_readsFront (items : List Item) (done : Printed) :
    ReadsFront fun args => render stray items args done := by
  induction items generalizing done with
  | nil => exact readsFront_pure done
  | cons item items ih =>
      exact (item.print_readsFront done.text.length).bind fun printed => ih (done.append printed)

theorem render_append (first second : List Item) (args : List Arg) (done : Printed) :
    render stray (first ++ second) args done =
      render stray first args done >>= fun found => render stray second found.2 found.1 := by
  induction first generalizing args done with
  | nil => rfl
  | cons item first ih =>
      simp only [List.cons_append, render, bind, Except.bind] at ih ⊢
      cases item.print stray args done.text.length with
      | error reason => rfl
      | ok found => exact ih found.2 (done.append found.1)

/-- Only the cells of `%n` depend on the position. -/
theorem convert_position {flags : Flags} {fieldWidth precision : Int} {char : Byte}
    {args rest : List Arg} {position : Nat} {printed : Printed} (other : Nat)
    (ran : convert stray flags fieldWidth precision char args position = .ok (printed, rest)) :
    ∃ cells, convert stray flags fieldWidth precision char args other =
      .ok ({ printed with cells := cells }, rest) := by
  rw [convert_eq] at ran ⊢
  generalize conversionOf flags fieldWidth char = conversion at ran ⊢
  cases conversion with
  | cell =>
      obtain ⟨pair, read, stored⟩ := bind_eq_ok ran
      cases stored
      rw [Conversion.run, read]
      exact ⟨_, rfl⟩
  | char => exact ⟨printed.cells, ran⟩
  | str => exact ⟨printed.cells, ran⟩
  | number type base size => exact ⟨printed.cells, ran⟩
  | other => exact ⟨printed.cells, ran⟩

theorem Item.print_position {item : Item} {args rest : List Arg} {position : Nat}
    {printed : Printed} (other : Nat)
    (ran : item.print stray args position = .ok (printed, rest)) :
    ∃ cells, item.print stray args other = .ok ({ printed with cells := cells }, rest) := by
  cases item with
  | literal char => exact ⟨printed.cells, ran⟩
  | directive spec =>
      obtain ⟨fieldWidth, width, behindWidth⟩ := bind_eq_ok ran
      obtain ⟨digits, precision, converted⟩ := bind_eq_ok behindWidth
      obtain ⟨cells, again⟩ := convert_position other converted
      refine ⟨cells, ?_⟩
      simp only [Item.print, Directive.print, width, precision, bind, Except.bind]
      exact again

/-- What items print does not depend on what is there already. -/
theorem render_shift {items : List Item} {args rest : List Arg} {done printed : Printed}
    (ran : render stray items args done = .ok (printed, rest)) :
    ∃ text, printed.text = done.text ++ text ∧ ∀ before : Printed, ∃ after : Printed,
      render stray items args before = .ok (after, rest) ∧ after.text = before.text ++ text := by
  induction items generalizing args done with
  | nil =>
      cases ran
      exact ⟨[], (List.append_nil _).symm, fun before => ⟨before, rfl, (List.append_nil _).symm⟩⟩
  | cons item items ih =>
      obtain ⟨found, first, others⟩ := bind_eq_ok ran
      obtain ⟨text, printedText, again⟩ := ih others
      refine ⟨found.1.text ++ text, by rw [printedText, Printed.append, List.append_assoc], ?_⟩
      intro before
      obtain ⟨cells, same⟩ := Item.print_position before.text.length first
      obtain ⟨after, later, afterText⟩ := again (before.append { found.1 with cells := cells })
      refine ⟨after, ?_, by rw [afterText, Printed.append, List.append_assoc]⟩
      rw [render, same]
      exact later

end Render

section Law

variable {stray : Stray}

/-- What a returning call says about the items of its format. -/
theorem render_of_vsprintf {fmt : List Byte} (nulFree : 0 ∉ fmt) {args : List Arg}
    {formatted : Formatted} (ran : vsprintf stray fmt args = .ok formatted) :
    render stray (scan fmt) args ⟨[], [], []⟩ = .ok (formatted.printed, formatted.rest) := by
  rw [vsprintf_eq_render stray nulFree] at ran
  obtain ⟨found, rendered, rfl⟩ := map_eq_ok ran
  exact rendered

/-- A complete format and one behind it, each with its own arguments. -/
theorem vsprintf_append {first second : List Byte} {firstArgs secondArgs : List Arg}
    {one two : Formatted} (firstFree : 0 ∉ first) (secondFree : 0 ∉ second)
    (complete : Complete first) (firstRan : vsprintf stray first firstArgs = .ok one)
    (consumed : one.rest = []) (secondRan : vsprintf stray second secondArgs = .ok two) :
    ∃ both, vsprintf stray (first ++ second) (firstArgs ++ secondArgs) = .ok both ∧
      both.printed.text = one.printed.text ++ two.printed.text ∧
      both.ret = wrap32 (one.ret + two.ret) ∧ both.rest = two.rest := by
  have front := (render_readsFront (scan first) ⟨[], [], []⟩).frame secondArgs
    (render_of_vsprintf firstFree firstRan)
  obtain ⟨text, secondText, again⟩ := render_shift (render_of_vsprintf secondFree secondRan)
  obtain ⟨after, rendered, afterText⟩ := again one.printed
  rw [List.nil_append] at secondText
  have joined : after.text = one.printed.text ++ two.printed.text := by rw [afterText, secondText]
  have free : 0 ∉ first ++ second := by
    rw [List.mem_append]
    exact fun member => member.elim firstFree secondFree
  refine ⟨⟨after, two.rest⟩, ?_, joined, ?_, rfl⟩
  · rw [vsprintf_eq_render stray free, scan_append second complete, render_append, front, consumed]
    simp only [bind, Except.bind, List.nil_append, rendered]
    rfl
  · simp only [Formatted.ret, joined, List.length_append, wrap32_add_wrap32, Nat.cast_add]

theorem render_literal {text : List Byte} (literal : chr '%' ∉ text) (args : List Arg)
    (done : Printed) :
    render stray (scan text) args done = .ok ({ done with text := done.text ++ text }, args) := by
  induction text generalizing done with
  | nil => rw [scan, render, List.append_nil]
  | cons char text ih =>
      have different : char ≠ chr '%' := fun same => literal (same ▸ List.mem_cons_self)
      rw [scan_literal different, render]
      simp only [Item.print, bind, Except.bind]
      rw [ih fun member => literal (List.mem_cons_of_mem _ member)]
      simp only [Printed.append, List.append_nil, List.append_assoc, List.singleton_append]

end Law

/-- **Concatenation law.** The output for a complete format and a second one is the
output for the first followed by the output for the second, each on its own
arguments. Literal text is copied and `%%` yields one `%`. -/
theorem vsprintf_concatenation (stray : Stray) :
    (∀ (first second : List Byte) (firstArgs secondArgs : List Arg) (one two : Formatted),
      0 ∉ first → 0 ∉ second → Complete first →
      vsprintf stray first firstArgs = .ok one → one.rest = [] →
      vsprintf stray second secondArgs = .ok two →
      ∃ both, vsprintf stray (first ++ second) (firstArgs ++ secondArgs) = .ok both ∧
        both.printed.text = one.printed.text ++ two.printed.text ∧
        both.ret = wrap32 (one.ret + two.ret) ∧ both.rest = two.rest) ∧
    (∀ text args, 0 ∉ text → chr '%' ∉ text →
      vsprintf stray text args = .ok ⟨⟨text, [], []⟩, args⟩) ∧
    ∀ args, vsprintf stray [chr '%', chr '%'] args = .ok ⟨⟨[chr '%'], [], []⟩, args⟩ := by
  refine ⟨?_, ?_, fun args => rfl⟩
  · intro first second firstArgs secondArgs one two firstFree secondFree complete firstRan
      consumed secondRan
    exact vsprintf_append firstFree secondFree complete firstRan consumed secondRan
  · intro text args nulFree literal
    rw [vsprintf_eq_render stray nulFree, render_literal literal]
    rfl

/-- A width in the first directive does not reach the second. -/
theorem vsprintf_concatenation_widths :
    ∃ both, vsprintf (fun _ _ => 0) ([chr '%', chr '3', chr 'c'] ++ [chr '%', chr 'c'])
        ([.word 65] ++ [.word 66]) = .ok both ∧
      both.printed.text = [chr ' ', chr ' ', chr 'A', chr 'B'] := by
  obtain ⟨both, ran, text, _⟩ := (vsprintf_concatenation fun _ _ => 0).1
    [chr '%', chr '3', chr 'c'] [chr '%', chr 'c'] [.word 65] [.word 66]
    ⟨⟨[chr ' ', chr ' ', chr 'A'], [], []⟩, []⟩ ⟨⟨[chr 'B'], [], []⟩, []⟩
    (by decide) (by decide) (by decide +kernel) (by decide +kernel) rfl (by decide +kernel)
  exact ⟨both, ran, text⟩

end Toyos
