import LearningKernels.Toyos.Numeral

/-!
# How a directive is spelled

A directive is a `%`, flag characters, a width, a precision, a length qualifier and a
conversion. The width and the precision are rows of digits or a star. Behind digits the
scanner goes on where the directive does; a star it reads as the amount and then again as
the conversion, so the rest of the directive is left to be copied as plain text.
-/

namespace Toyos

open Machine

section Literals

/-- The value of a row of decimal digits, behind a value read already. -/
def literalValue (digits : List Byte) (start : Nat) : Nat :=
  digits.foldl (fun value char => value * 10 + (char.toNat - 48)) start

theorem literalValue_cons (char : Byte) (digits : List Byte) (start : Nat) :
    literalValue (char :: digits) start = literalValue digits (start * 10 + (char.toNat - 48)) := by
  rw [literalValue, List.foldl_cons, ← literalValue]

theorem le_literalValue (digits : List Byte) (start : Nat) :
    start ≤ literalValue digits start := by
  induction digits generalizing start with
  | nil => exact le_rfl
  | cons char digits ih =>
      have later := ih (start * 10 + (char.toNat - 48))
      rw [literalValue_cons]
      omega

/-- `skip_atoi` stops behind a row of digits. -/
theorem scanAtoi_digits {digits rest : List Byte} (all : ∀ char ∈ digits, isDigit char)
    (ends : ¬ isDigit (rest.headD 0)) (start : Int) :
    scanAtoi (digits ++ rest) start = ((scanAtoi digits start).1, rest) := by
  induction digits generalizing start with
  | nil =>
      cases rest with
      | nil => rfl
      | cons char rest =>
          have other : ¬ isDigit char := ends
          exact if_neg other
  | cons char digits ih =>
      have digit := all char List.mem_cons_self
      rw [List.cons_append, scanAtoi, if_pos digit, scanAtoi, if_pos digit]
      exact ih (fun other member => all other (List.mem_cons_of_mem _ member)) _

/-- The value of a row of digits that does not overflow. -/
theorem scanAtoi_value {digits : List Byte} (all : ∀ char ∈ digits, isDigit char) {start : Nat}
    (small : literalValue digits start < 2 ^ 31) :
    (scanAtoi digits start).1 = literalValue digits start := by
  induction digits generalizing start with
  | nil => rfl
  | cons char digits ih =>
      have digit := all char List.mem_cons_self
      have range : 48 ≤ char.toNat := by
        simp only [isDigit, Bool.and_eq_true, decide_eq_true_eq] at digit
        exact digit.1
      rw [literalValue_cons] at small ⊢
      have bound := le_literalValue digits (start * 10 + (char.toNat - 48))
      have next : wrap32 ((start : Int) * 10 + char.toNat - 48) =
          ((start * 10 + (char.toNat - 48) : Nat) : Int) := by
        rw [wrap32_of_range (by omega) (by omega)]
        omega
      rw [scanAtoi, if_pos digit, next]
      exact ih (fun other member => all other (List.mem_cons_of_mem _ member)) small

/-- A row of digits, which may be empty, in front of something else. -/
theorem scanAmount_digits {none : Amount} {digits rest : List Byte}
    (all : ∀ char ∈ digits, isDigit char) (ends : ¬ isDigit (rest.headD 0))
    (noStar : rest.headD 0 ≠ chr '*') :
    scanAmount none (digits ++ rest) =
      (if digits = [] then none else .literal (scanAtoi digits 0).1, rest) := by
  cases digits with
  | nil =>
      rw [List.nil_append, scanAmount, if_neg ends, if_neg noStar, if_pos rfl]
  | cons char digits =>
      have digit : isDigit ((char :: digits ++ rest).headD 0) := all char List.mem_cons_self
      rw [scanAmount, if_pos digit, if_neg (List.cons_ne_nil char digits),
        scanAtoi_digits all ends]

theorem setFlag_of_digit (flags : Flags) {char : Byte} (digit : isDigit char)
    (nonzero : char ≠ chr '0') : setFlag flags char = none := by
  have other (known : Byte) (letter : isDigit known = false) : char ≠ known := by
    rintro rfl
    rw [letter] at digit
    cases digit
  rw [setFlag, if_neg (other _ (by decide)), if_neg (other _ (by decide)),
    if_neg (other _ (by decide)), if_neg (other _ (by decide)), if_neg nonzero]

end Literals

section FlagCharacters

/-- The flag characters. -/
def flagChars : List Byte := [chr '-', chr '+', chr ' ', chr '#', chr '0']

/-- The flags with one more character, if it stands for a flag. -/
def applyFlag (flags : Flags) (char : Byte) : Flags := (setFlag flags char).getD flags

/-- The flags that a row of characters stands for. -/
def flagsOf (chars : List Byte) : Flags := chars.foldl applyFlag {}

variable {chars rest : List Byte}

/-- A row of flag characters is read to its end. -/
theorem scanFlags_chars (known : ∀ char ∈ chars, char ∈ flagChars)
    (ends : ∀ flags, setFlag flags (rest.headD 0) = none) (flags : Flags) :
    scanFlags (chars ++ rest) flags = (chars.foldl applyFlag flags, rest) := by
  induction chars generalizing flags with
  | nil =>
      cases rest with
      | nil => rfl
      | cons char rest =>
          have other : setFlag flags char = none := ends flags
          rw [List.nil_append, scanFlags, other, List.foldl_nil]
  | cons char chars ih =>
      have set : setFlag flags char = some (applyFlag flags char) := by
        have member := known char List.mem_cons_self
        simp only [flagChars, List.mem_cons, List.not_mem_nil, or_false] at member
        rcases member with rfl | rfl | rfl | rfl | rfl <;> rfl
      rw [List.cons_append, scanFlags, set, List.foldl_cons]
      exact ih (fun other member => known other (List.mem_cons_of_mem _ member)) _

/-- A flag that one character sets is set by a row that has the character. -/
theorem foldl_applyFlag {flag : Flags → Bool} {char : Byte}
    (sets : ∀ flags other, flag (applyFlag flags other) = (flag flags || decide (char = other)))
    (chars : List Byte) (flags : Flags) :
    flag (chars.foldl applyFlag flags) = (flag flags || decide (char ∈ chars)) := by
  induction chars generalizing flags with
  | nil => simp only [List.foldl_nil, List.not_mem_nil, decide_false, Bool.or_false]
  | cons other chars ih =>
      rw [List.foldl_cons, ih, sets, Bool.or_assoc, ← Bool.decide_or]
      simp only [List.mem_cons]

theorem left_flagsOf (chars : List Byte) : (flagsOf chars).left = decide (chr '-' ∈ chars) := by
  have sets (flags : Flags) (other : Byte) :
      (applyFlag flags other).left = (flags.left || decide (chr '-' = other)) := by
    by_cases minus : chr '-' = other
    · subst minus
      simp [applyFlag, setFlag]
    · rw [applyFlag, setFlag, if_neg (Ne.symm minus), decide_eq_false minus, Bool.or_false]
      split_ifs <;> rfl
  exact foldl_applyFlag sets chars {}

theorem special_flagsOf (chars : List Byte) :
    (flagsOf chars).special = decide (chr '#' ∈ chars) := by
  have sets (flags : Flags) (other : Byte) :
      (applyFlag flags other).special = (flags.special || decide (chr '#' = other)) := by
    by_cases hash : chr '#' = other
    · subst hash
      simp [applyFlag, setFlag, chr]
    · rw [applyFlag, setFlag, if_neg (Ne.symm hash), decide_eq_false hash, Bool.or_false]
      split_ifs <;> rfl
  exact foldl_applyFlag sets chars {}

end FlagCharacters

section Decimals

/-- The decimal literal of a number. -/
def decimal (value : Nat) : List Byte := numeral (fun _ _ => 0) false 10 value

/-- A row of decimal digits that has a value has this value as a literal. -/
theorem literalValue_of_readDigits {text : List Byte} {start value : Nat}
    (read : readDigits 10 text start = some value) :
    (∀ char ∈ text, isDigit char) ∧ literalValue text start = value := by
  induction text generalizing start with
  | nil => exact ⟨fun char member => absurd member List.not_mem_nil, Option.some.inj read⟩
  | cons char text ih =>
      rw [readDigits] at read
      obtain ⟨digit, found, rest⟩ := Option.bind_eq_some_iff.mp read
      split_ifs at rest with small
      obtain ⟨later, total⟩ := ih rest
      have range : 48 ≤ char.toNat ∧ char.toNat ≤ 57 ∧ digit = char.toNat - 48 := by
        unfold digitValue at found
        split_ifs at found with decimal capital letter
        all_goals cases found; omega
      have isDigit : isDigit char := by simp [isDigit, range.1, range.2.1]
      rw [List.forall_mem_cons, literalValue_cons, ← range.2.2]
      exact ⟨⟨isDigit, later⟩, total⟩

theorem decimal_literal (value : Nat) :
    (∀ char ∈ decimal value, isDigit char) ∧ literalValue (decimal value) 0 = value :=
  literalValue_of_readDigits (readDigits_numeral _ _ value (by decide) (by decide))

theorem decimal_ne_nil (value : Nat) : decimal value ≠ [] := numeral_ne_nil _ _ value

/-- A decimal literal begins with a zero only for zero. -/
theorem decimal_headD {value : Nat} (positive : 1 ≤ value) : (decimal value).headD 0 ≠ chr '0' := by
  intro leading
  have first : (decimal value).head? = some (chr '0') := by
    cases split : decimal value with
    | nil => exact absurd split (decimal_ne_nil value)
    | cons char rest =>
        rw [split] at leading
        exact congrArg some leading
  have zero := numeral_head _ _ value (by decide) (by decide) first
  omega

end Decimals

/-- A width: a row of digits, which may be empty, or a star. Zeros in front of a width are
flags. -/
inductive WidthText where
  | digits (text : List Byte) (all : ∀ char ∈ text, isDigit char) (head : text.headD 0 ≠ chr '0')
  | star

/-- A precision: none, a row of digits behind the point, which may be empty, or a star. -/
inductive PrecisionText where
  | absent
  | digits (text : List Byte) (all : ∀ char ∈ text, isDigit char)
  | star

/-- The characters of a width. -/
def WidthText.text : WidthText → List Byte
  | .digits text _ _ => text
  | .star => [chr '*']

/-- The characters of a precision. -/
def PrecisionText.text : PrecisionText → List Byte
  | .absent => []
  | .digits text _ => chr '.' :: text
  | .star => [chr '.', chr '*']

/-- What stands around the width and the precision of a directive. -/
structure Frame where
  flags : List Byte
  qualifier : List Byte
  conversion : Byte
  flags_known : ∀ char ∈ flags, char ∈ flagChars
  qualifier_known : qualifier ∈ [[], [chr 'h'], [chr 'l'], [chr 'L']]
  conversion_known : conversion ∈ ['c', 's', 'd', 'i', 'u', 'o', 'x', 'X'].map chr

/-- The amount a width stands for. -/
def WidthText.amount : WidthText → Amount
  | .digits text _ _ => if text = [] then .absent else .literal (scanAtoi text 0).1
  | .star => .star

/-- The amount a precision stands for. -/
def PrecisionText.amount : PrecisionText → Amount
  | .absent => .absent
  | .digits text _ => if text = [] then .literal 0 else .literal (scanAtoi text 0).1
  | .star => .star

theorem resolveWidth_digits {text : List Byte} (all : ∀ char ∈ text, isDigit char)
    (head : text.headD 0 ≠ chr '0') (small : literalValue text 0 < 2 ^ 31) (flags : Flags)
    (args : List Arg) :
    (WidthText.digits text all head).amount.resolveWidth flags args =
      .ok (if text = [] then -1 else (literalValue text 0 : Int), flags, args) := by
  have value := scanAtoi_value all small
  rw [Nat.cast_zero] at value
  by_cases empty : text = []
  · simp only [WidthText.amount, empty, ↓reduceIte]
    rfl
  · simp only [WidthText.amount, empty, ↓reduceIte, value]
    rfl

theorem resolvePrecision_digits {text : List Byte} (all : ∀ char ∈ text, isDigit char)
    (small : literalValue text 0 < 2 ^ 31) (args : List Arg) :
    (PrecisionText.digits text all).amount.resolvePrecision args =
      .ok ((literalValue text 0 : Int), args) := by
  have value := scanAtoi_value all small
  rw [Nat.cast_zero] at value
  by_cases empty : text = []
  · subst empty
    rfl
  · simp only [PrecisionText.amount, empty, ↓reduceIte, value]
    rw [Amount.resolvePrecision, if_neg (by omega)]

/-- The characters that end the flags and the amounts of a directive. -/
def endChars : List Byte := ['.', 'h', 'l', 'L', 'c', 's', 'd', 'i', 'u', 'o', 'x', 'X'].map chr

theorem ends_of_mem {char : Byte} (member : char ∈ endChars) :
    ¬ isDigit char ∧ char ≠ chr '*' ∧ ∀ flags, setFlag flags char = none := by
  simp only [endChars, List.map_cons, List.map_nil, List.mem_cons, List.not_mem_nil,
    or_false] at member
  rcases member with rfl | rfl | rfl | rfl | rfl | rfl | rfl | rfl | rfl | rfl | rfl | rfl <;>
    exact ⟨by decide, by decide, fun flags => rfl⟩

/-- The characters of a length qualifier. -/
def Qualifies (char : Byte) : Prop := char = chr 'h' ∨ char = chr 'l' ∨ char = chr 'L'

instance : DecidablePred Qualifies := fun char =>
  inferInstanceAs (Decidable (char = chr 'h' ∨ char = chr 'l' ∨ char = chr 'L'))

theorem conversion_ends {char : Byte}
    (known : char ∈ ['c', 's', 'd', 'i', 'u', 'o', 'x', 'X'].map chr) :
    char ∈ endChars ∧ char ≠ chr '.' ∧ ¬ Qualifies char := by
  simp only [List.map_cons, List.map_nil, List.mem_cons, List.not_mem_nil, or_false] at known
  rcases known with rfl | rfl | rfl | rfl | rfl | rfl | rfl | rfl <;> decide

/-- A qualifier is empty or a single character. -/
theorem qualifier_ends {text : List Byte} (known : text ∈ [[], [chr 'h'], [chr 'l'], [chr 'L']]) :
    text = [] ∨ ∃ char, text = [char] ∧ char ∈ endChars ∧ char ≠ chr '.' ∧ Qualifies char := by
  simp only [List.mem_cons, List.not_mem_nil, or_false] at known
  rcases known with none | half | long | longer
  · exact .inl none
  · exact .inr ⟨chr 'h', half, by decide⟩
  · exact .inr ⟨chr 'l', long, by decide⟩
  · exact .inr ⟨chr 'L', longer, by decide⟩

namespace Frame

variable (frame : Frame)

/-- The end of a directive, from its qualifier on. -/
def ending : List Byte := frame.qualifier ++ [frame.conversion]

/-- The directive with this width and precision, behind its `%`. -/
def body (width : WidthText) (precision : PrecisionText) : List Byte :=
  frame.flags ++ (width.text ++ (precision.text ++ frame.ending))

/-- The directive with this width and precision. -/
def text (width : WidthText) (precision : PrecisionText) : List Byte :=
  chr '%' :: frame.body width precision

theorem ending_head (rest : List Byte) :
    (frame.ending ++ rest).headD 0 ∈ endChars ∧ (frame.ending ++ rest).headD 0 ≠ chr '.' := by
  have conversion := conversion_ends frame.conversion_known
  rw [ending]
  rcases qualifier_ends frame.qualifier_known with none | ⟨char, single, ends, point, _⟩
  · rw [none]
    exact ⟨conversion.1, conversion.2.1⟩
  · rw [single]
    exact ⟨ends, point⟩

theorem scanQualifier_ending (rest : List Byte) :
    scanQualifier (frame.ending ++ rest) = frame.conversion :: rest := by
  have conversion := conversion_ends frame.conversion_known
  rw [ending, scanQualifier]
  rcases qualifier_ends frame.qualifier_known with none | ⟨char, single, _, _, qualifies⟩
  · rw [none]
    exact if_neg conversion.2.2
  · rw [single]
    exact if_pos qualifies

/-- A width of digits ends in front of the precision or of the end of the directive. -/
theorem behindWidth {precision : PrecisionText} (rest : List Byte) :
    (precision.text ++ (frame.ending ++ rest)).headD 0 ∈ endChars := by
  cases precision with
  | absent => exact (frame.ending_head rest).1
  | digits text all =>
      change chr '.' ∈ endChars
      decide
  | star =>
      change chr '.' ∈ endChars
      decide

/-- What follows the flags is not a flag. -/
theorem behindFlags (width : WidthText) (precision : PrecisionText) (rest : List Byte)
    (flags : Flags) :
    setFlag flags ((width.text ++ (precision.text ++ (frame.ending ++ rest))).headD 0) = none := by
  cases width with
  | star => rfl
  | digits text all head =>
      cases text with
      | nil => exact (ends_of_mem (frame.behindWidth rest)).2.2 flags
      | cons char text => exact setFlag_of_digit flags (all char List.mem_cons_self) head

theorem scanFlags_body (width : WidthText) (precision : PrecisionText) (rest : List Byte) :
    scanFlags (frame.body width precision ++ rest) {} =
      (flagsOf frame.flags, width.text ++ (precision.text ++ (frame.ending ++ rest))) := by
  simp only [body, List.append_assoc]
  exact scanFlags_chars frame.flags_known (frame.behindFlags width precision rest) {}

/-- A row of digits behind a point is the precision. -/
theorem scanPrecision_digits {precision : PrecisionText} (literal : precision ≠ .star)
    (rest : List Byte) :
    scanPrecision (precision.text ++ (frame.ending ++ rest)) =
      (precision.amount, frame.ending ++ rest) := by
  have head := frame.ending_head rest
  have ends := ends_of_mem head.1
  cases precision with
  | absent =>
      change scanPrecision (frame.ending ++ rest) = _
      rw [scanPrecision, if_neg head.2]
      rfl
  | digits text all =>
      have point : (chr '.' :: text ++ (frame.ending ++ rest)).headD 0 = chr '.' := rfl
      exact (if_pos point).trans (scanAmount_digits all ends.1 ends.2.1)
  | star => exact absurd rfl literal

/-- A directive without a star is scanned whole. -/
theorem scanDirective_literal {text : List Byte} (all : ∀ char ∈ text, isDigit char)
    (head : text.headD 0 ≠ chr '0') {precision : PrecisionText} (literal : precision ≠ .star)
    (rest : List Byte) :
    scanDirective (frame.body (.digits text all head) precision ++ rest) =
      (⟨flagsOf frame.flags, (WidthText.digits text all head).amount, precision.amount,
        frame.conversion⟩, rest) := by
  have ends := ends_of_mem (@behindWidth frame precision rest)
  have width : scanAmount .absent (text ++ (precision.text ++ (frame.ending ++ rest))) =
      ((WidthText.digits text all head).amount, precision.text ++ (frame.ending ++ rest)) :=
    scanAmount_digits all ends.1 ends.2.1
  rw [scanDirective, frame.scanFlags_body]
  simp only [WidthText.text]
  rw [width, frame.scanPrecision_digits literal, frame.scanQualifier_ending]
  rfl

/-- A star for the width is the conversion as well, and the directive ends there. -/
theorem scanDirective_starWidth (precision : PrecisionText) (rest : List Byte) :
    scanDirective (frame.body .star precision ++ rest) =
      (⟨flagsOf frame.flags, .star, .absent, chr '*'⟩,
        precision.text ++ (frame.ending ++ rest)) := by
  rw [scanDirective, frame.scanFlags_body]
  rfl

/-- A star for the precision is the conversion as well. -/
theorem scanDirective_starPrecision {text : List Byte} (all : ∀ char ∈ text, isDigit char)
    (head : text.headD 0 ≠ chr '0') (rest : List Byte) :
    scanDirective (frame.body (.digits text all head) .star ++ rest) =
      (⟨flagsOf frame.flags, (WidthText.digits text all head).amount, .star, chr '*'⟩,
        frame.ending ++ rest) := by
  have ends := ends_of_mem (@behindWidth frame .star rest)
  have width : scanAmount .absent (text ++ (PrecisionText.star.text ++ (frame.ending ++ rest))) =
      ((WidthText.digits text all head).amount,
        PrecisionText.star.text ++ (frame.ending ++ rest)) :=
    scanAmount_digits all ends.1 ends.2.1
  rw [scanDirective, frame.scanFlags_body]
  simp only [WidthText.text]
  rw [width]
  rfl

theorem mem_ending {char : Byte} (member : char ∈ frame.ending) : char ∈ endChars := by
  rw [ending, List.mem_append, List.mem_singleton] at member
  rcases member with inside | last
  · rcases qualifier_ends frame.qualifier_known with none | ⟨other, single, ends, _⟩
    · rw [none] at inside
      cases inside
    · rw [single, List.mem_singleton] at inside
      rwa [inside]
  · rw [last]
    exact (conversion_ends frame.conversion_known).1

/-- Behind its `%` a directive is made of digits and a few other characters. -/
theorem mem_body {width : WidthText} {precision : PrecisionText} {char : Byte}
    (member : char ∈ frame.body width precision) :
    isDigit char ∨ char ∈ flagChars ++ chr '*' :: endChars := by
  rw [body, List.mem_append, List.mem_append, List.mem_append] at member
  rcases member with flag | inWidth | inPrecision | atEnd
  · exact .inr (List.mem_append_left _ (frame.flags_known char flag))
  · cases width with
    | digits text all head => exact .inl (all char inWidth)
    | star => exact .inr (List.mem_append_right _ (by rw [List.mem_singleton.mp inWidth]; decide))
  · cases precision with
    | absent => cases inPrecision
    | digits text all =>
        rcases List.mem_cons.mp inPrecision with point | digit
        · exact .inr (List.mem_append_right _ (by rw [point]; decide))
        · exact .inl (all char digit)
    | star =>
        refine .inr (List.mem_append_right _ ?_)
        rw [PrecisionText.text, List.mem_cons, List.mem_singleton] at inPrecision
        rcases inPrecision with rfl | rfl <;> decide
  · exact .inr (List.mem_append_right _ (List.mem_cons_of_mem _ (frame.mem_ending atEnd)))

/-- Other characters do not occur in a directive. -/
theorem not_mem_body (width : WidthText) (precision : PrecisionText) {char : Byte}
    (digit : isDigit char = false) (other : char ∉ flagChars ++ chr '*' :: endChars) :
    char ∉ frame.body width precision := by
  intro member
  rcases frame.mem_body member with isDigit | known
  · rw [digit] at isDigit
    cases isDigit
  · exact other known

theorem nulFree (width : WidthText) (precision : PrecisionText) :
    0 ∉ frame.text width precision := by
  rw [text, List.mem_cons, not_or]
  exact ⟨by decide, frame.not_mem_body width precision (by decide) (by decide)⟩

end Frame

/-- A literal precision as it is spelled. -/
def spellPrecision : (precision : Option (List Byte)) →
    (∀ digits ∈ precision, ∀ char ∈ digits, isDigit char) → PrecisionText
  | none, _ => .absent
  | some digits, all => .digits digits (all digits rfl)

theorem spellPrecision_ne_star (precision : Option (List Byte))
    (all : ∀ digits ∈ precision, ∀ char ∈ digits, isDigit char) :
    spellPrecision precision all ≠ .star := by
  cases precision <;> exact PrecisionText.noConfusion

/-- A directive whose width and precision are literals that do not overflow, or are not
given. -/
structure LiteralDirective extends Frame where
  width : List Byte
  precision : Option (List Byte)
  width_digits : ∀ char ∈ width, isDigit char
  width_head : width.headD 0 ≠ chr '0'
  width_small : literalValue width 0 < 2 ^ 31
  precision_digits : ∀ digits ∈ precision, ∀ char ∈ digits, isDigit char
  precision_small : ∀ digits ∈ precision, literalValue digits 0 < 2 ^ 31

namespace LiteralDirective

variable (directive : LiteralDirective)

/-- The width as it is spelled. -/
def widthText : WidthText := .digits directive.width directive.width_digits directive.width_head

/-- The precision as it is spelled. -/
def precisionText : PrecisionText := spellPrecision directive.precision directive.precision_digits

/-- The text of the directive. -/
def text : List Byte := directive.toFrame.text directive.widthText directive.precisionText

/-- The field width, -1 for none. -/
def fieldWidth : Int := if directive.width = [] then -1 else literalValue directive.width 0

/-- The precision, -1 for none. -/
def precisionValue : Int :=
  match directive.precision with
  | none => -1
  | some digits => literalValue digits 0

theorem resolveWidth_widthText (flags : Flags) (args : List Arg) :
    directive.widthText.amount.resolveWidth flags args = .ok (directive.fieldWidth, flags, args) :=
  resolveWidth_digits directive.width_digits directive.width_head directive.width_small flags args

theorem resolvePrecision_precisionText (args : List Arg) :
    directive.precisionText.amount.resolvePrecision args =
      .ok (directive.precisionValue, args) := by
  have small := directive.precision_small
  unfold precisionText precisionValue
  generalize directive.precision_digits = all
  revert all small
  cases directive.precision with
  | none => exact fun _ _ => rfl
  | some digits =>
      intro small all
      exact resolvePrecision_digits (all digits rfl) (small digits rfl) args

theorem scan_text : scan directive.text =
    [.directive ⟨flagsOf directive.flags, directive.widthText.amount,
      directive.precisionText.amount, directive.conversion⟩] := by
  have scanned := directive.scanDirective_literal directive.width_digits directive.width_head
    (spellPrecision_ne_star directive.precision directive.precision_digits) []
  rw [List.append_nil] at scanned
  rw [text, Frame.text, scan_directive, widthText, precisionText, scanned, scan]

/-- The directive alone does its conversion with the literals. -/
theorem vsprintf_eq (stray : Stray) (args : List Arg) :
    vsprintf stray directive.text args =
      (convert stray (flagsOf directive.flags) directive.fieldWidth directive.precisionValue
        directive.conversion args 0).map fun found => ⟨found.1, found.2⟩ := by
  have nulFree : 0 ∉ directive.text := directive.toFrame.nulFree _ _
  rw [vsprintf_single stray nulFree directive.scan_text, Directive.print]
  simp only [directive.resolveWidth_widthText, directive.resolvePrecision_precisionText, bind,
    Except.bind]

end LiteralDirective

end Toyos
