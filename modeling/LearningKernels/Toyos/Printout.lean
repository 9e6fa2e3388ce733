import LearningKernels.Toyos.Arguments
import LearningKernels.Toyos.TextFields

/-!
# What `printk` shows

`printk` has the length of the text from `vsprintf` and measures it once more with `strlen`.
The two agree when there is no zero byte in the text. Where a zero byte comes from is known
before anything is formatted: from the argument of a `%c`, or from the memory in front of the
digit table when an unsigned conversion gets a negative `int` (`Toyos.printk_shows_iff`).
-/

namespace Toyos

open Machine

section Zeros

variable (stray : Stray)

/-- The conversion writes a zero byte for its argument. -/
def Conversion.EmitsZero (args : List Arg) : Conversion → Prop
  | .char => BitVec.ofInt 8 (intAt args) = 0
  | .number type base _ => type.sign = false ∧ ZeroDigit stray type.small base (intAt args)
  | _ => False

instance (args : List Arg) : DecidablePred (Conversion.EmitsZero stray args)
  | .char => inferInstanceAs (Decidable (BitVec.ofInt 8 (intAt args) = 0))
  | .number type base _ => inferInstanceAs (Decidable (type.sign = false ∧
      ZeroDigit stray type.small base (intAt args)))
  | .str => .isFalse id
  | .cell => .isFalse id
  | .other => .isFalse id

/-- The item writes a zero byte for its arguments. -/
def Item.EmitsZero (item : Item) (args : List Arg) : Prop :=
  match item with
  | .literal _ => False
  | .directive spec =>
      let (fieldWidth, flags) := spec.fieldWidth.widthOf spec.flags args
      let args := args.drop (spec.fieldWidth.kinds.length + spec.precision.kinds.length)
      (conversionOf flags fieldWidth spec.conversion).EmitsZero stray args

instance (item : Item) (args : List Arg) : Decidable (item.EmitsZero stray args) :=
  match item with
  | .literal _ => .isFalse id
  | .directive spec => inferInstanceAs (Decidable (Conversion.EmitsZero stray
      (args.drop (spec.fieldWidth.kinds.length + spec.precision.kinds.length))
      (conversionOf (spec.fieldWidth.widthOf spec.flags args).2
        (spec.fieldWidth.widthOf spec.flags args).1 spec.conversion)))

/-- The items write a zero byte for their arguments. -/
def EmitsZero : List Item → List Arg → Prop
  | [], _ => False
  | item :: items, args =>
      item.EmitsZero stray args ∨ EmitsZero items (args.drop item.kinds.length)

instance decidableEmitsZero : (items : List Item) → (args : List Arg) →
    Decidable (EmitsZero stray items args)
  | [], _ => .isFalse id
  | item :: items, args =>
      have := decidableEmitsZero items (args.drop item.kinds.length)
      inferInstanceAs (Decidable (item.EmitsZero stray args ∨
        EmitsZero stray items (args.drop item.kinds.length)))

end Zeros

/-- The strings among the arguments are C strings. -/
def Terminated (args : List Arg) : Prop := ∀ text, .str text ∈ args → 0 ∉ text

section Text

variable {stray : Stray} {args : List Arg} {kinds : List Kind}

theorem Terminated.drop (terminated : Terminated args) (count : Nat) :
    Terminated (args.drop count) :=
  fun text member => terminated text (List.mem_of_mem_drop member)

theorem Terminated.strAt (terminated : Terminated args) : 0 ∉ strAt args := by
  rcases args with _ | ⟨value | text, args⟩
  · exact List.not_mem_nil
  · exact List.not_mem_nil
  · exact terminated text List.mem_cons_self

/-- A number has a zero byte for a stray digit of a value without a sign. -/
theorem zero_mem_number {type : Flags} {base : Nat} (lower : 2 ≤ base) (upper : base ≤ 36)
    {num size precision : Int} {printed : Printed}
    (written : number stray num base size precision type = some printed) :
    0 ∈ printed.text ↔ type.sign = false ∧ ZeroDigit stray type.small base num := by
  have masked : type.masked.sign = type.sign ∧ type.masked.small = type.small := by
    unfold Flags.masked
    split_ifs <;> exact ⟨rfl, rfl⟩
  rw [mem_number _ _ _ _ _ _ written (by omega) (by omega) (by decide),
    zero_mem_tmpChars _ _ lower upper, masked.2, splitSign, masked.1]
  by_cases negative : type.sign ∧ num < 0
  · rw [if_pos negative, Int.sub_self, negative.1]
    refine ⟨fun zero => absurd zero.1 (by decide), fun both => absurd both.1 (by decide)⟩
  · rw [if_neg negative]
    refine ⟨fun zero => ⟨?_, zero⟩, fun both => both.2⟩
    have positive := zero.1
    cases sign : type.sign with
    | false => rfl
    | true => exact absurd ⟨sign, positive⟩ negative

theorem zero_not_mem_convertOther (char : Byte) : 0 ∉ (convertOther char).text := by
  rw [convertOther]
  intro member
  rcases List.mem_append.mp member with percent | copied
  · split_ifs at percent
    · exact absurd percent (by decide)
    · exact absurd percent List.not_mem_nil
  · split_ifs at copied with visible
    · exact visible (List.mem_singleton.mp copied).symm
    · exact absurd copied List.not_mem_nil

/-- A conversion with its argument. -/
theorem zero_mem_convert {char : Byte} (supplies : Supplies args (conversionKinds char ++ kinds))
    (terminated : Terminated args) {flags : Flags} {fieldWidth precision : Int} {position : Nat}
    {printed : Printed} {rest : List Arg}
    (ran : convert stray flags fieldWidth precision char args position = .ok (printed, rest)) :
    0 ∈ printed.text ↔ (conversionOf flags fieldWidth char).EmitsZero stray args := by
  have bounds := conversionOf_hasBase flags fieldWidth char
  rw [← conversionOf_kinds flags fieldWidth] at supplies
  rw [convert_eq] at ran
  generalize conversionOf flags fieldWidth char = conversion at bounds supplies ran ⊢
  cases conversion with
  | char =>
      rw [Conversion.run, vaArgInt_supplied supplies] at ran
      cases ran
      rw [mem_convertChar _ _ (by decide)]
      exact eq_comm
  | str =>
      rw [Conversion.run, vaArgStr_supplied supplies] at ran
      cases ran
      refine ⟨fun member => ?_, False.elim⟩
      exact terminated.strAt (mem_of_mem_convertStr _ _ _ (by decide) member)
  | number type base size =>
      obtain ⟨written, number, _⟩ :=
        number_columns stray type (intAt args) bounds.1 bounds.2 size precision
      simp only [Conversion.run, convertNumber, vaArgInt_supplied supplies, bind, Except.bind,
        number] at ran
      cases ran
      exact zero_mem_number bounds.1 bounds.2 number
  | cell =>
      obtain ⟨address, read⟩ := vaArgCell_supplied supplies
      rw [Conversion.run, read] at ran
      cases ran
      exact ⟨List.not_mem_nil.elim, False.elim⟩
  | other =>
      cases ran
      exact ⟨fun member => zero_not_mem_convertOther char member, False.elim⟩

/-- An item with its arguments; a literal character is not zero. -/
theorem zero_mem_print {item : Item} (visible : item ≠ .literal 0)
    (supplies : Supplies args (item.kinds ++ kinds)) (terminated : Terminated args)
    {position : Nat} {printed : Printed} {rest : List Arg}
    (ran : item.print stray args position = .ok (printed, rest)) :
    0 ∈ printed.text ↔ item.EmitsZero stray args := by
  cases item with
  | literal char =>
      cases ran
      refine ⟨fun member => visible ?_, False.elim⟩
      rw [List.mem_singleton.mp member]
  | directive spec =>
      rw [Item.kinds, List.append_assoc] at supplies
      have behindWidth := supplies.drop
      rw [List.append_assoc] at behindWidth
      have behindPrecision := behindWidth.drop
      simp only [Item.print, Directive.print, resolveWidth_supplied supplies,
        resolvePrecision_supplied behindWidth, bind, Except.bind] at ran
      rw [List.drop_drop] at ran behindPrecision
      exact zero_mem_convert behindPrecision (terminated.drop _) ran

theorem zero_mem_render {items : List Item} (visible : .literal 0 ∉ items)
    (supplies : Supplies args (items.flatMap Item.kinds)) (terminated : Terminated args)
    {done printed : Printed} {rest : List Arg}
    (ran : render stray items args done = .ok (printed, rest)) :
    0 ∈ printed.text ↔ 0 ∈ done.text ∨ EmitsZero stray items args := by
  induction items generalizing args done with
  | nil =>
      cases ran
      exact ⟨.inl, fun either => either.elim id False.elim⟩
  | cons item items ih =>
      rw [List.flatMap_cons] at supplies
      rw [List.mem_cons, not_or] at visible
      obtain ⟨first, print, _⟩ := item.print_columns stray supplies done.text.length
      simp only [render, print, bind, Except.bind] at ran
      rw [ih visible.2 supplies.drop (terminated.drop _) ran, Printed.append, List.mem_append,
        zero_mem_print (Ne.symm visible.1) supplies terminated print, EmitsZero, or_assoc]

end Text

/-- A literal character is one of the format. -/
theorem mem_of_literal_mem_scan {fmt : List Byte} {char : Byte}
    (member : .literal char ∈ scan fmt) : char ∈ fmt := by
  induction size : fmt.length using Nat.strong_induction_on generalizing fmt with
  | _ length ih =>
      subst size
      cases fmt with
      | nil =>
          rw [scan] at member
          cases member
      | cons first fmt =>
          by_cases literal : first = chr '%'
          · subst literal
            have part := scanDirective_suffix fmt
            rw [scan_directive, List.mem_cons] at member
            have later : Item.literal char ∈ scan (scanDirective fmt).2 :=
              member.resolve_left Item.noConfusion
            have shorter := Nat.lt_succ_of_le part.length_le
            exact List.mem_cons_of_mem _ (part.subset (ih _ shorter later rfl))
          · rw [scan_literal literal, List.mem_cons, Item.literal.injEq] at member
            rcases member with same | later
            · exact List.mem_cons.mpr (.inl same)
            · exact List.mem_cons_of_mem _ (ih _ (Nat.lt_succ_self _) later rfl)

/-- The console gets the text that `vsprintf` formatted, and its length is returned. -/
def Shows (stray : Stray) (buf : Memory) (fmt : List Byte) (args : List Arg)
    (formatted : Formatted) : Prop :=
  ∃ printout, printk stray buf fmt args = .ok printout ∧
    printout.console = formatted.printed.text ∧
    printout.ret = formatted.printed.text.length

section Shown

variable (stray : Stray) (buf : Memory) {fmt : List Byte} {args : List Arg} {formatted : Formatted}

/-- The console gets the text exactly when there is no zero in it. -/
theorem shows_iff_nulFree (ran : vsprintf stray fmt args = .ok formatted)
    (short : formatted.printed.text.length < bufSize) :
    Shows stray buf fmt args formatted ↔ 0 ∉ formatted.printed.text := by
  have small : formatted.printed.text.length < 1024 := short
  obtain ⟨printout, printed, _, ret, console⟩ := printk_eq stray buf ran
  have length : printout.ret = formatted.printed.text.length := by
    rw [ret, Formatted.ret, wrap32_of_range (by omega) (by omega)]
  have shown := console (by omega)
  constructor
  · rintro ⟨other, again, text, _⟩ zero
    cases printed.symm.trans again
    rw [shown, List.takeWhile_eq_self_iff] at text
    exact absurd (text 0 zero) (by decide)
  · intro nulFree
    refine ⟨printout, printed, ?_, length⟩
    rw [shown, List.takeWhile_eq_self_iff]
    intro byte member
    have visible : byte ≠ 0 := fun zero => nulFree (zero ▸ member)
    exact decide_eq_true visible

/-- **The console of `printk`.** What fits into the buffer is shown as `vsprintf` formatted it,
and its length is returned, exactly when no `%c` gets a zero byte and no unsigned conversion of
a negative `int` finds one in front of the digit table. -/
theorem printk_shows_iff (nulFree : 0 ∉ fmt) (terminated : Terminated args)
    (ran : vsprintf stray fmt args = .ok formatted)
    (short : formatted.printed.text.length < bufSize) :
    Shows stray buf fmt args formatted ↔ ¬ EmitsZero stray (scan fmt) args := by
  have matching := (vsprintf_returns_iff stray nulFree args).mp ⟨formatted, ran⟩
  have visible : Item.literal 0 ∉ scan fmt := fun member => nulFree (mem_of_literal_mem_scan member)
  have zero := zero_mem_render visible matching terminated (render_of_vsprintf nulFree ran)
  rw [shows_iff_nulFree stray buf ran short, zero]
  simp only [List.not_mem_nil, false_or]

end Shown

/-- `printk("%c", 'A')` shows its character. -/
theorem printk_shows_letter : Shows (fun _ _ => 0) (fun _ => 0) [chr '%', chr 'c'] [.word 65]
    ⟨⟨[chr 'A'], [], []⟩, []⟩ := by
  refine (printk_shows_iff _ _ (by decide) ?_ (by decide +kernel) (by decide)).mpr
    (by decide +kernel)
  intro text member
  cases List.mem_singleton.mp member

/-- `printk("%c", 0)` shows nothing and returns 1. -/
theorem printk_hides_zero : ¬ ∀ formatted,
    vsprintf (fun _ _ => 0) [chr '%', chr 'c'] [.word 0] = .ok formatted →
      Shows (fun _ _ => 0) (fun _ => 0) [chr '%', chr 'c'] [.word 0] formatted := by
  intro shows
  have ran : vsprintf (fun _ _ => 0) [chr '%', chr 'c'] [.word 0] =
      .ok ⟨⟨[0], [], []⟩, []⟩ := by decide +kernel
  exact (shows_iff_nulFree _ _ ran (by decide)).mp (shows _ ran) List.mem_cons_self

end Toyos
