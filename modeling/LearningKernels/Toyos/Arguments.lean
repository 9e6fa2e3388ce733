import LearningKernels.Toyos.Printk

/-!
# The arguments a call reads

A call of `vsprintf` returns exactly when its argument list begins with a slot of the right
kind for each star and for each conversion of the format (`Toyos.vsprintf_returns_iff`). An
argument list in which all words are alike and all strings are empty can be shifted by a
slot: if the call still returns, its output is the same (`Toyos.render_shifted`).
-/

namespace Toyos

open Machine

section Consumed

variable {stray : Stray}

/-- A fault of the argument list. -/
def Fault.OfArgs (reason : Fault) : Prop := reason = .noArg ∨ reason = .badArg

theorem Fault.OfArgs.elsewhere {reason : Fault} (starved : reason.OfArgs) :
    reason ≠ .overrun ∧ reason ≠ .unfinished := by
  rcases starved with rfl | rfl <;> exact ⟨Fault.noConfusion, Fault.noConfusion⟩

/-- Reading slots of these kinds from the front, which fails only for the lack of one. -/
structure Consumes {α : Type} (kinds : List Kind)
    (read : List Arg → Except Fault (α × List Arg)) : Prop where
  split : ∀ {args found rest}, read args = .ok (found, rest) →
    ∃ front : List Arg, front.map Arg.kind = kinds ∧ args = front ++ rest
  starved : ∀ {args reason}, read args = .error reason → reason.OfArgs

theorem vaArgInt_consumes : Consumes [.word] vaArgInt where
  split := by
    rintro (_ | ⟨value | text, args⟩) found rest ran <;> cases ran
    exact ⟨[.word value], rfl, rfl⟩
  starved := by
    rintro (_ | ⟨value | text, args⟩) reason failed <;> cases failed
    · exact .inl rfl
    · exact .inr rfl

theorem vaArgStr_consumes : Consumes [.str] vaArgStr where
  split := by
    rintro (_ | ⟨value | text, args⟩) found rest ran <;> cases ran
    exact ⟨[.str text], rfl, rfl⟩
  starved := by
    rintro (_ | ⟨value | text, args⟩) reason failed <;> cases failed
    · exact .inl rfl
    · exact .inr rfl

theorem vaArgCell_consumes : Consumes [.word] vaArgCell where
  split := by
    rintro (_ | ⟨value | text, args⟩) found rest ran <;> cases ran
    exact ⟨[.word value], rfl, rfl⟩
  starved := by
    rintro (_ | ⟨value | text, args⟩) reason failed <;> cases failed
    · exact .inl rfl
    · exact .inr rfl

theorem consumes_pure {α : Type} (value : α) : Consumes [] fun args => .ok (value, args) where
  split := by
    intro args found rest ran
    cases ran
    exact ⟨[], rfl, rfl⟩
  starved := by
    intro args reason failed
    cases failed

theorem Consumes.bind {α β : Type} {first second : List Kind}
    {read : List Arg → Except Fault (α × List Arg)}
    {use : α → List Arg → Except Fault (β × List Arg)} (reads : Consumes first read)
    (uses : ∀ value, Consumes second (use value)) :
    Consumes (first ++ second) fun args => read args >>= fun found => use found.1 found.2 where
  split := by
    intro args found rest ran
    obtain ⟨pair, readFront, used⟩ := bind_eq_ok ran
    obtain ⟨front, frontKinds, frontSplit⟩ := reads.split readFront
    obtain ⟨middle, middleKinds, middleSplit⟩ := (uses pair.1).split used
    refine ⟨front ++ middle, ?_, ?_⟩
    · rw [List.map_append, frontKinds, middleKinds]
    · rw [frontSplit, middleSplit, List.append_assoc]
  starved := by
    intro args reason failed
    rcases bind_eq_error failed with inFirst | ⟨pair, _, inSecond⟩
    · exact reads.starved inFirst
    · exact (uses pair.1).starved inSecond

theorem Consumes.of_eq {α : Type} {kinds : List Kind}
    {read other : List Arg → Except Fault (α × List Arg)} (reads : Consumes kinds read)
    (same : ∀ args, other args = read args) : Consumes kinds other := by
  rwa [funext same]

theorem convertNumber_consumes (flags : Flags) (fieldWidth precision : Int) {base : Nat}
    (lower : 2 ≤ base) (upper : base ≤ 36) :
    Consumes [.word] (convertNumber stray flags fieldWidth precision base) := by
  have print (value : Int) : Consumes [] fun args =>
      (number stray value base fieldWidth precision flags).elim (.error .nullStr)
        fun printed => .ok (printed, args) := by
    obtain ⟨printed, written, _⟩ :=
      number_columns stray flags value lower upper fieldWidth precision
    rw [written]
    exact consumes_pure printed
  rw [convertNumber_eq]
  exact vaArgInt_consumes.bind print

theorem convert_consumes (flags : Flags) (fieldWidth precision : Int) (char : Byte)
    (position : Nat) :
    Consumes (conversionKinds char) fun args =>
      convert stray flags fieldWidth precision char args position := by
  have bounds := conversionOf_hasBase flags fieldWidth char
  rw [← conversionOf_kinds flags fieldWidth]
  simp only [convert_eq]
  generalize conversionOf flags fieldWidth char = conversion at bounds ⊢
  cases conversion with
  | char =>
      exact vaArgInt_consumes.bind fun value =>
        consumes_pure (convertChar flags fieldWidth value)
  | str =>
      exact vaArgStr_consumes.bind fun text =>
        consumes_pure (convertStr flags fieldWidth precision text)
  | number type base size => exact convertNumber_consumes type size precision bounds.1 bounds.2
  | cell =>
      exact vaArgCell_consumes.bind fun address =>
        consumes_pure ({ text := [], cells := [(address, wrap32 position)] } : Printed)
  | other => exact consumes_pure _

/-- The width with the flags it leaves, as one value. -/
theorem resolveWidth_consumes (amount : Amount) (flags : Flags) :
    Consumes amount.kinds fun args => (amount.resolveWidth flags args).map fun found =>
      ((found.1, found.2.1), found.2.2) := by
  cases amount with
  | absent => exact consumes_pure (-1, flags)
  | literal width => exact consumes_pure (width, flags)
  | star =>
      refine (vaArgInt_consumes.bind fun value => consumes_pure
        (if value < 0 then (wrap32 (-value), { flags with left := true })
          else (value, flags))).of_eq fun args => ?_
      simp only [Amount.resolveWidth, bind, Except.bind]
      cases vaArgInt args with
      | error reason => rfl
      | ok found =>
          simp only
          split_ifs <;> rfl

theorem resolvePrecision_consumes (amount : Amount) :
    Consumes amount.kinds amount.resolvePrecision := by
  cases amount with
  | absent => exact consumes_pure (-1)
  | literal value => exact consumes_pure _
  | star =>
      exact vaArgInt_consumes.bind fun value => consumes_pure (if value < 0 then 0 else value)

theorem Item.print_consumes (item : Item) (position : Nat) :
    Consumes item.kinds fun args => item.print stray args position := by
  cases item with
  | literal char => exact consumes_pure _
  | directive spec =>
      refine ((resolveWidth_consumes spec.fieldWidth spec.flags).bind fun width =>
        (resolvePrecision_consumes spec.precision).bind fun precision =>
          @convert_consumes stray width.2 width.1 precision spec.conversion
            position).of_eq fun args => ?_
      rw [Item.print, Directive.print]
      cases spec.fieldWidth.resolveWidth spec.flags args <;> rfl

theorem render_consumes (items : List Item) (done : Printed) :
    Consumes (items.flatMap Item.kinds) fun args => render stray items args done := by
  induction items generalizing done with
  | nil => exact consumes_pure done
  | cons item items ih =>
      exact (item.print_consumes done.text.length).bind fun printed => ih (done.append printed)

end Consumed

/-- A call fails for its arguments only. -/
theorem vsprintf_faults {stray : Stray} {fmt : List Byte} (nulFree : 0 ∉ fmt) {args : List Arg}
    {reason : Fault} (failed : vsprintf stray fmt args = .error reason) : reason.OfArgs := by
  rw [vsprintf_eq_render stray nulFree] at failed
  cases ran : render stray (scan fmt) args ⟨[], [], []⟩ with
  | ok found =>
      rw [ran] at failed
      cases failed
  | error other =>
      rw [ran] at failed
      cases failed
      exact (render_consumes (scan fmt) _).starved ran

/-- A call returns exactly when its arguments match the format. -/
theorem vsprintf_returns_iff (stray : Stray) {fmt : List Byte} (nulFree : 0 ∉ fmt)
    (args : List Arg) :
    (∃ formatted, vsprintf stray fmt args = .ok formatted) ↔ Matching fmt args := by
  constructor
  · rintro ⟨formatted, ran⟩
    obtain ⟨front, kinds, split⟩ :=
      (render_consumes (scan fmt) _).split (render_of_vsprintf nulFree ran)
    refine ⟨formatted.rest.map Arg.kind, ?_⟩
    rw [split, List.map_append, kinds]
  · intro matching
    obtain ⟨formatted, ran, _⟩ := vsprintf_columns stray nulFree matching
    exact ⟨formatted, ran⟩

section Shift

variable {stray : Stray}

/-- A slot of a kind: the given word, or the empty string. -/
def Kind.fill (value : Int) : Kind → Arg
  | .word => .word value
  | .str => .str []

theorem map_kind_fill (value : Int) (kinds : List Kind) :
    (kinds.map (Kind.fill value)).map Arg.kind = kinds := by
  induction kinds with
  | nil => rfl
  | cons kind kinds ih =>
      rw [List.map_cons, List.map_cons, ih]
      cases kind <;> rfl

theorem supplies_fill (value : Int) (kinds : List Kind) :
    Supplies (kinds.map (Kind.fill value)) kinds := by
  rw [Supplies, map_kind_fill]

/-- A list that begins one place later as well has one element only, over and over. -/
theorem append_singleton_of_prefix_cons {α : Type} {first : α} {list : List α}
    (shifted : list <+: first :: list) : first :: list = list ++ [first] := by
  induction list generalizing first with
  | nil => rfl
  | cons next list ih =>
      obtain ⟨same, tail⟩ := List.cons_prefix_cons.mp shifted
      subst same
      rw [List.cons_append, ih tail]

/-- On a shifted list of filled slots, items that still find their arguments print the same. -/
theorem render_shifted {items : List Item} {value : Int} {kind : Kind}
    (supplies : Supplies (kind.fill value :: (items.flatMap Item.kinds).map (Kind.fill value))
      (items.flatMap Item.kinds)) {printed : Printed} {rest : List Arg} {done : Printed}
    (ran : render stray items ((items.flatMap Item.kinds).map (Kind.fill value)) done =
      .ok (printed, rest)) :
    render stray items (kind.fill value :: (items.flatMap Item.kinds).map (Kind.fill value))
      done = .ok (printed, rest ++ [kind.fill value]) := by
  have kinds := map_kind_fill value (kind :: items.flatMap Item.kinds)
  rw [Supplies, ← List.map_cons, kinds] at supplies
  have moved := congrArg (List.map (Kind.fill value)) (append_singleton_of_prefix_cons supplies)
  rw [List.map_cons, List.map_append, List.map_singleton] at moved
  rw [moved]
  exact (render_readsFront items done).frame [kind.fill value] ran

end Shift

end Toyos
