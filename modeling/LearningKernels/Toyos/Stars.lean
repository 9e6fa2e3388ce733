import LearningKernels.Toyos.Arguments
import LearningKernels.Toyos.Field
import LearningKernels.Toyos.TextFields

/-!
# Stars for literals

A `*` for the width or the precision should do what the literal of its argument does. The
scanner takes the argument but stays at the star, where the source itself notes that a step
is missing, so that the star becomes the conversion and the rest of the directive is copied.
For every directive, every amount and every format behind it some arguments tell the two
apart (`Toyos.star_never_agrees`).
-/

namespace Toyos

open Machine

/-- Whenever the second call returns, the first one returns with the same output. -/
def Reproduces (star literal : Except Fault Formatted) : Prop :=
  ∀ formatted, literal = .ok formatted → ∃ other, star = .ok other ∧
    other.printed.text = formatted.printed.text ∧ other.ret = formatted.ret

section Continuation

variable (stray : Stray)

theorem complete_plain {text : List Byte} (literal : chr '%' ∉ text) : Complete text := by
  induction text with
  | nil =>
      rw [Complete, scan]
      exact List.forall_mem_nil _
  | cons char text ih =>
      rw [List.mem_cons, not_or] at literal
      exact (complete_literal (Ne.symm literal.1)).mpr (ih literal.2)

/-- Formats that differ on their own arguments differ in front of every other format. The
arguments behind are alike, so that they match it in both calls or the first does not
return. -/
theorem not_reproduces {star literal rest : List Byte} (starFree : 0 ∉ star)
    (literalFree : 0 ∉ literal) (restFree : 0 ∉ rest) (starComplete : Complete star)
    (literalComplete : Complete literal) {starArgs literalArgs : List Arg}
    {starPrinted literalPrinted : Printed}
    (starRan : vsprintf stray star starArgs = .ok ⟨starPrinted, []⟩)
    (literalRan : vsprintf stray literal literalArgs = .ok ⟨literalPrinted, []⟩)
    (different : starPrinted.text ≠ literalPrinted.text) (value : Int) (kind : Kind) :
    ∃ args, ¬ Reproduces (vsprintf stray (star ++ rest) (starArgs ++ kind.fill value :: args))
      (vsprintf stray (literal ++ rest) (literalArgs ++ args)) := by
  obtain ⟨last, lastRan, _⟩ := vsprintf_columns stray restFree
    (supplies_fill value ((scan rest).flatMap Item.kinds))
  refine ⟨((scan rest).flatMap Item.kinds).map (Kind.fill value), fun reproduces => ?_⟩
  obtain ⟨both, bothRan, bothText, _⟩ :=
    vsprintf_append literalFree restFree literalComplete literalRan rfl lastRan
  obtain ⟨other, otherRan, otherText, _⟩ := reproduces both bothRan
  have free : 0 ∉ star ++ rest := by
    rw [List.mem_append]
    exact fun member => member.elim starFree restFree
  -- what the star leaves to the format behind it
  have front := (render_readsFront (scan star) ⟨[], [], []⟩).frame
    (kind.fill value :: ((scan rest).flatMap Item.kinds).map (Kind.fill value))
    (render_of_vsprintf starFree starRan)
  have behind := render_of_vsprintf free otherRan
  rw [scan_append rest starComplete, render_append, front] at behind
  simp only [bind, Except.bind, List.nil_append] at behind
  obtain ⟨consumed, kinds, split⟩ := (render_consumes (scan rest) starPrinted).split behind
  have supplies : Supplies (kind.fill value :: ((scan rest).flatMap Item.kinds).map
      (Kind.fill value)) ((scan rest).flatMap Item.kinds) := by
    refine ⟨other.rest.map Arg.kind, ?_⟩
    rw [split, List.map_append, kinds]
  -- it prints the same there as behind the literal
  obtain ⟨text, lastText, again⟩ := render_shift (render_of_vsprintf restFree lastRan)
  obtain ⟨after, rendered, afterText⟩ := again starPrinted
  rw [render_shifted supplies rendered] at behind
  have same : after = other.printed := congrArg Prod.fst (Except.ok.inj behind)
  rw [List.nil_append] at lastText
  rw [← same, afterText, bothText, lastText] at otherText
  exact different (List.append_cancel_right otherText)

end Continuation

section Directives

variable (stray : Stray) (frame : Frame)

section Stopped

variable {width : WidthText} {precision : PrecisionText} {spec : Directive} {tail : List Byte}
  (scanned : scanDirective (frame.body width precision ++ []) = (spec, tail))

include scanned

/-- Where the scanner stops inside a directive, plain text is left. -/
theorem percent_not_mem_tail : chr '%' ∉ tail := by
  intro member
  have part := scanDirective_suffix (frame.body width precision)
  rw [List.append_nil] at scanned
  rw [scanned] at part
  exact frame.not_mem_body width precision (by decide) (by decide) (part.subset member)

/-- From where the scanner stops the directive is copied. -/
theorem vsprintf_stopped {args : List Arg} {printed : Printed}
    (ran : spec.print stray args 0 = .ok (printed, [])) :
    vsprintf stray (frame.text width precision) args =
      .ok ⟨{ printed with text := printed.text ++ tail }, []⟩ := by
  have plain := percent_not_mem_tail frame scanned
  rw [List.append_nil] at scanned
  rw [vsprintf_eq_render stray (frame.nulFree _ _), Frame.text, scan_directive, scanned, render]
  simp only [Item.print, List.length_nil, ran, bind, Except.bind, render_literal plain]
  rfl

theorem complete_stopped (conversion : spec.conversion ≠ 0) :
    Complete (frame.text width precision) := by
  have plain := percent_not_mem_tail frame scanned
  rw [List.append_nil] at scanned
  rw [Frame.text, complete_directive, scanned]
  exact ⟨conversion, complete_plain plain⟩

end Stopped

/-- A star for the width is printed, with what is behind it. -/
theorem vsprintf_starWidth (precision : PrecisionText) (w : Int) :
    vsprintf stray (frame.text .star precision) [.word w] =
      .ok ⟨{ text := chr '%' :: chr '*' :: (precision.text ++ frame.ending) }, []⟩ := by
  have printed : Directive.print stray ⟨flagsOf frame.flags, .star, .absent, chr '*'⟩
      [.word w] 0 = .ok ({ text := [chr '%', chr '*'] }, []) := by
    simp only [Directive.print, Amount.resolveWidth, vaArgInt, bind, Except.bind]
    split_ifs <;> rfl
  rw [vsprintf_stopped stray frame (frame.scanDirective_starWidth precision []) printed,
    List.append_nil]
  rfl

variable {text : List Byte} (all : ∀ char ∈ text, isDigit char) (head : text.headD 0 ≠ chr '0')

/-- A width of digits takes no argument. -/
theorem resolveWidth_digits_ok (flags : Flags) :
    ∃ value, ∀ args, (WidthText.digits text all head).amount.resolveWidth flags args =
      .ok (value, flags, args) := by
  simp only [WidthText.amount]
  split_ifs <;> exact ⟨_, fun args => rfl⟩

/-- A precision that is no star takes no argument. -/
theorem resolvePrecision_digits_ok {precision : PrecisionText} (literal : precision ≠ .star) :
    ∃ value, ∀ args, precision.amount.resolvePrecision args = .ok (value, args) := by
  cases precision with
  | absent => exact ⟨_, fun args => rfl⟩
  | digits text all =>
      simp only [PrecisionText.amount]
      split_ifs <;> exact ⟨_, fun args => rfl⟩
  | star => exact absurd rfl literal

/-- A star for the precision is printed, with what is behind it. -/
theorem vsprintf_starPrecision (p : Int) :
    vsprintf stray (frame.text (.digits text all head) .star) [.word p] =
      .ok ⟨{ text := chr '%' :: chr '*' :: frame.ending }, []⟩ := by
  obtain ⟨value, resolved⟩ := resolveWidth_digits_ok all head (flagsOf frame.flags)
  have printed : Directive.print stray ⟨flagsOf frame.flags,
      (WidthText.digits text all head).amount, .star, chr '*'⟩ [.word p] 0 =
        .ok ({ text := [chr '%', chr '*'] }, []) := by
    simp only [Directive.print, resolved, bind, Except.bind]
    rfl
  rw [vsprintf_stopped stray frame (frame.scanDirective_starPrecision all head []) printed,
    List.append_nil]
  rfl

/-- The field of a zero has no `%`. -/
theorem number_zero_plain (type : Flags) {base : Nat} (lower : 2 ≤ base) (upper : base ≤ 36)
    (size precision : Int) :
    ∃ printed, number stray 0 base size precision type = some printed ∧
      chr '%' ∉ printed.text := by
  obtain ⟨_, value⟩ := splitSign_natCast type.masked 0
  obtain ⟨printed, written, _⟩ := number_columns stray type 0 lower upper size precision
  refine ⟨printed, written, ?_⟩
  rw [mem_number _ _ _ _ _ _ written (by omega) (by omega) (by decide)]
  rw [Nat.cast_zero] at value
  rw [value]
  exact (by decide : chr '%' ∉ [chr '0'])

/-- What the conversions of a directive are. -/
theorem Frame.conversionOf_known (flags : Flags) (fieldWidth : Int) :
    conversionOf flags fieldWidth frame.conversion = .char ∨
    conversionOf flags fieldWidth frame.conversion = .str ∨
    ∃ type base, 2 ≤ base ∧ base ≤ 36 ∧
      conversionOf flags fieldWidth frame.conversion = .number type base fieldWidth := by
  have known := frame.conversion_known
  simp only [List.map_cons, List.map_nil, List.mem_cons, List.not_mem_nil, or_false] at known
  rcases known with same | same | same | same | same | same | same | same
  · exact .inl (by rw [same]; rfl)
  · exact .inr (.inl (by rw [same]; rfl))
  all_goals
    refine .inr (.inr ⟨_, _, ?_, ?_, by rw [same]; rfl⟩)
    · decide
    · decide

/-- On a zero or an empty string a conversion prints no `%`. -/
theorem convert_fill_plain (flags : Flags) (fieldWidth precision : Int) :
    ∃ kind printed, convert stray flags fieldWidth precision frame.conversion
        [Kind.fill 0 kind] 0 = .ok (printed, []) ∧ chr '%' ∉ printed.text := by
  simp only [convert_eq]
  rcases frame.conversionOf_known flags fieldWidth with char | str | ⟨type, base, lower, upper, num⟩
  · refine ⟨.word, convertChar flags fieldWidth 0, by rw [char]; rfl, ?_⟩
    rw [mem_convertChar flags fieldWidth (by decide)]
    decide
  · refine ⟨.str, convertStr flags fieldWidth precision [], by rw [str]; rfl, ?_⟩
    intro member
    exact absurd (mem_of_mem_convertStr flags fieldWidth precision (by decide) member)
      List.not_mem_nil
  · obtain ⟨printed, written, plain⟩ :=
      number_zero_plain stray type lower upper fieldWidth precision
    refine ⟨.word, printed, ?_, plain⟩
    rw [num, Conversion.run, convertNumber_eq]
    change (number stray 0 base fieldWidth precision type).elim _ _ = _
    rw [written]
    rfl

/-- Without a star some argument is printed without a `%`. -/
theorem vsprintf_literal_plain {precision : PrecisionText} (literal : precision ≠ .star) :
    ∃ kind printed, vsprintf stray (frame.text (.digits text all head) precision)
        [Kind.fill 0 kind] = .ok ⟨printed, []⟩ ∧ chr '%' ∉ printed.text := by
  obtain ⟨fieldWidth, width⟩ := resolveWidth_digits_ok all head (flagsOf frame.flags)
  obtain ⟨digits, precise⟩ := resolvePrecision_digits_ok literal
  obtain ⟨kind, printed, converted, plain⟩ :=
    convert_fill_plain stray frame (flagsOf frame.flags) fieldWidth digits
  have printedAll : Directive.print stray ⟨flagsOf frame.flags,
      (WidthText.digits text all head).amount, precision.amount, frame.conversion⟩
      [Kind.fill 0 kind] 0 = .ok (printed, []) := by
    simp only [Directive.print, width, precise, bind, Except.bind]
    exact converted
  refine ⟨kind, printed, ?_, plain⟩
  rw [vsprintf_stopped stray frame (frame.scanDirective_literal all head literal []) printedAll,
    List.append_nil]

/-- The scanner sees the conversion, if only in a star. -/
theorem complete_text (width : WidthText) (precision : PrecisionText) :
    Complete (frame.text width precision) := by
  have starred : chr '*' ≠ 0 := by decide
  cases width with
  | star => exact complete_stopped frame (frame.scanDirective_starWidth precision []) starred
  | digits text all head =>
      by_cases star : precision = .star
      · subst star
        exact complete_stopped frame (frame.scanDirective_starPrecision all head []) starred
      · have visible : frame.conversion ≠ 0 := fun zero =>
          absurd (zero ▸ frame.conversion_known) (by decide)
        exact complete_stopped frame (frame.scanDirective_literal all head star []) visible

end Directives

/-- The decimal literal of a width. -/
def WidthText.decimal (value : Nat) (positive : 1 ≤ value) : WidthText :=
  .digits (Toyos.decimal value) (decimal_literal value).1 (decimal_headD positive)

/-- The decimal literal of a precision. -/
def PrecisionText.decimal (value : Nat) : PrecisionText :=
  .digits (Toyos.decimal value) (decimal_literal value).1

namespace Frame

variable (frame : Frame)

/-- The directive with the flag `-` added. -/
def adjusted : Frame where
  flags := frame.flags ++ [chr '-']
  qualifier := frame.qualifier
  conversion := frame.conversion
  flags_known := by
    intro char member
    rcases List.mem_append.mp member with old | added
    · exact frame.flags_known char old
    · rw [List.mem_singleton.mp added]
      decide
  qualifier_known := frame.qualifier_known
  conversion_known := frame.conversion_known

/-- The directive that a width `w` for the star should amount to: with the literal of `w`, or
with the flag `-` and the literal of `-w`. -/
def literalWidth (precision : PrecisionText) {w : Int} (nonzero : w ≠ 0) : List Byte :=
  (if w < 0 then frame.adjusted else frame).text
    (.decimal w.natAbs (Int.natAbs_pos.mpr nonzero)) precision

/-- A star for the width with the argument `w`, against the literal. -/
def StarWidthAgrees (stray : Stray) (precision : PrecisionText) {w : Int} (nonzero : w ≠ 0)
    (rest : List Byte) : Prop :=
  ∀ args, Reproduces (vsprintf stray (frame.text .star precision ++ rest) (.word w :: args))
    (vsprintf stray (frame.literalWidth precision nonzero ++ rest) args)

/-- A star for the precision with the argument `p`, against the literal. The slots `front`
are those of the width. -/
def StarPrecisionAgrees (stray : Stray) (width : WidthText) (p : Nat) (rest : List Byte) : Prop :=
  ∀ front args, front.map Arg.kind = width.amount.kinds →
    Reproduces (vsprintf stray (frame.text width .star ++ rest) (front ++ .word p :: args))
      (vsprintf stray (frame.text width (.decimal p) ++ rest) (front ++ args))

variable (stray : Stray) {rest : List Byte} (nulFree : 0 ∉ rest)

include nulFree

theorem not_starWidthAgrees (precision : PrecisionText) {w : Int} (nonzero : w ≠ 0) :
    ¬ frame.StarWidthAgrees stray precision nonzero rest := by
  intro agrees
  unfold StarWidthAgrees literalWidth at agrees
  generalize (if w < 0 then frame.adjusted else frame) = literal at agrees
  have starRan := vsprintf_starWidth stray frame precision w
  have positive := Int.natAbs_pos.mpr nonzero
  have differs (kind : Kind) {printed : Printed}
      (literalRan : vsprintf stray (literal.text (.decimal w.natAbs positive) precision)
        [Kind.fill 0 kind] = .ok ⟨printed, []⟩)
      (different : chr '%' :: chr '*' :: (precision.text ++ frame.ending) ≠ printed.text) :
      False := by
    obtain ⟨args, distinct⟩ := not_reproduces stray (frame.nulFree _ _) (literal.nulFree _ _)
      nulFree (complete_text frame _ _) (complete_text literal _ _) starRan literalRan different
      0 kind
    exact distinct (agrees (Kind.fill 0 kind :: args))
  by_cases star : precision = .star
  · -- the precision of the literal directive is taken for its conversion as well
    subst star
    refine differs .word (vsprintf_starPrecision stray literal _ _ 0) ?_
    intro same
    have tail : chr '.' :: chr '*' :: frame.ending = literal.ending :=
      (List.cons.inj (List.cons.inj same).2).2
    have head := (literal.ending_head []).2
    rw [List.append_nil, ← tail] at head
    exact head rfl
  · obtain ⟨kind, printed, literalRan, plain⟩ := vsprintf_literal_plain stray literal _ _ star
    refine differs kind literalRan ?_
    intro same
    exact plain (same ▸ List.mem_cons_self)

theorem not_starPrecisionAgrees (width : WidthText) (p : Nat) :
    ¬ frame.StarPrecisionAgrees stray width p rest := by
  intro agrees
  cases width with
  | star =>
      -- the width is the conversion in both directives, and the precisions are copied
      have different : chr '%' :: chr '*' :: (PrecisionText.star.text ++ frame.ending) ≠
          chr '%' :: chr '*' :: ((PrecisionText.decimal p).text ++ frame.ending) := by
        intro same
        have texts := List.append_cancel_right (List.cons.inj (List.cons.inj same).2).2
        have digits : [chr '*'] = decimal p := (List.cons.inj texts).2
        exact absurd ((decimal_literal p).1 (chr '*') (digits ▸ List.mem_cons_self)) (by decide)
      obtain ⟨args, distinct⟩ := not_reproduces stray (frame.nulFree _ _) (frame.nulFree _ _)
        nulFree (complete_text frame _ _) (complete_text frame _ _)
        (vsprintf_starWidth stray frame .star 0)
        (vsprintf_starWidth stray frame (.decimal p) 0) different p .word
      exact distinct (agrees [.word 0] args rfl)
  | digits text all head =>
      obtain ⟨kind, printed, literalRan, plain⟩ :=
        @vsprintf_literal_plain stray frame text all head (.decimal p) PrecisionText.noConfusion
      have different : chr '%' :: chr '*' :: frame.ending ≠ printed.text := fun same =>
        plain (same ▸ List.mem_cons_self)
      obtain ⟨args, distinct⟩ := not_reproduces stray (frame.nulFree _ _) (frame.nulFree _ _)
        nulFree (complete_text frame _ _) (complete_text frame _ _)
        (vsprintf_starPrecision stray frame all head p) literalRan different 0 kind
      have noSlots :
          ([] : List Arg).map Arg.kind = (WidthText.digits text all head).amount.kinds := by
        simp only [WidthText.amount]
        split_ifs <;> rfl
      exact distinct (agrees [] (Kind.fill 0 kind :: args) noSlots)

end Frame

/-- **Stars.** For no directive, no amount and no format behind it does a star do what the
literal of its argument does on all arguments. -/
theorem star_never_agrees (stray : Stray) (frame : Frame) {rest : List Byte}
    (nulFree : 0 ∉ rest) :
    (∀ (precision : PrecisionText) {w : Int} (nonzero : w ≠ 0),
      ¬ frame.StarWidthAgrees stray precision nonzero rest) ∧
    ∀ (width : WidthText) (p : Nat), ¬ frame.StarPrecisionAgrees stray width p rest :=
  ⟨fun precision _ nonzero => frame.not_starWidthAgrees stray nulFree precision nonzero,
    fun width p => frame.not_starPrecisionAgrees stray nulFree width p⟩

/-- `%*d` in front of a line feed, with a width of five. -/
theorem star_never_agrees_decimal :
    ¬ Frame.StarWidthAgrees ⟨[], [], chr 'd', by decide, by decide, by decide⟩ (fun _ _ => 0)
      .absent (w := 5) (by decide) [chr '\n'] :=
  (star_never_agrees _ _ (by decide)).1 .absent (by decide)

/-- `%*d` of the width 5 and the value 7 prints `%*d`, where `%5d` prints the value. -/
theorem star_differs_from_literal :
    ¬ Reproduces (vsprintf (fun _ _ => 0) [chr '%', chr '*', chr 'd'] [.word 5, .word 7])
      (vsprintf (fun _ _ => 0) [chr '%', chr '5', chr 'd'] [.word 7]) := by
  have literal : vsprintf (fun _ _ => 0) [chr '%', chr '5', chr 'd'] [.word 7] =
      .ok ⟨⟨[chr ' ', chr ' ', chr ' ', chr ' ', chr '7'], [7], []⟩, []⟩ := by decide +kernel
  have star : vsprintf (fun _ _ => 0) [chr '%', chr '*', chr 'd'] [.word 5, .word 7] =
      .ok ⟨⟨[chr '%', chr '*', chr 'd'], [], []⟩, [.word 7]⟩ := by decide +kernel
  intro reproduces
  obtain ⟨other, ran, text, _⟩ := reproduces _ literal
  cases star.symm.trans ran
  exact absurd text (by decide)

end Toyos
