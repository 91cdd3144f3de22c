import MetricWire.Packet
import MetricWire.Proofs.Decimal.Reader

/-!
What formats do to a text, to an integer and to an error.

A format may be ignored, obeyed as texts obey it, or obeyed as integers do. Which one it is depends on what is printed:
what is put together from parts ignores formats, and so does the text of a value, which goes into packets.

  1. `Format.fills_iff` — padding, by what stands on the two sides of the text.
  2. `Format.printsText_layText`, `Format.printsInteger_layNumber` — the two ways to obey a format.
  3. `MetricError.prints` — which errors obey a format.
  4. `formats_obeyed` — values, names and errors, each in its way.
-/

namespace MetricWire

open Numeral

/-! ## Padding -/

/-- The numbers of fill characters before a text and behind it. -/
inductive Alignment.Splits : Alignment → Nat → Nat → Prop
  | left (behind : Nat) : Splits .left 0 behind
  | right (before : Nat) : Splits .right before 0
  | even (half : Nat) : Splits .centre half half
  | odd (half : Nat) : Splits .centre half (half + 1)

namespace Format

theorem splits_leading (a : Alignment) (missing : Nat) :
    a.Splits (leading a missing) (missing - leading a missing) := by
  cases a with
  | left => exact .left missing
  | right =>
    rw [leading, Nat.sub_self]
    exact .right missing
  | centre =>
    rw [leading]
    rcases Nat.mod_two_eq_zero_or_one missing with heven | hodd
    · have hbehind : missing - missing / 2 = missing / 2 := by omega
      rw [hbehind]
      exact .even _
    · have hbehind : missing - missing / 2 = missing / 2 + 1 := by omega
      rw [hbehind]
      exact .odd _

theorem leading_le (a : Alignment) (missing : Nat) : leading a missing ≤ missing := by
  cases a with
  | left => exact Nat.zero_le _
  | right => exact Nat.le_refl _
  | centre => exact Nat.div_le_self _ _

theorem leading_eq_of_splits {a : Alignment} {before behind : Nat} (h : a.Splits before behind) :
    leading a (before + behind) = before := by
  cases h with
  | left | right => rfl
  | even | odd =>
    rw [leading]
    omega

/-- The text is filled up to the width, and stands where the format says, or as usual. -/
def Fills (fmt : Format) (usual : Alignment) (text shown : List Char) : Prop :=
  ∃ before behind, (fmt.alignment.getD usual).Splits before behind ∧ before + behind = fmt.width - text.length ∧
    shown = List.replicate before fmt.fill ++ text ++ List.replicate behind fmt.fill

variable {fmt : Format} {usual : Alignment} {text shown : List Char}

theorem fills_iff : fmt.Fills usual text shown ↔ shown = fmt.pad usual text := by
  constructor
  · rintro ⟨before, behind, hsplits, hsum, hshown⟩
    -- alignment and sum leave only one way to split
    have hbefore := leading_eq_of_splits hsplits
    have hbehind : fmt.width - text.length - before = behind := by omega
    rw [hsum] at hbefore
    simp only [pad, hbefore, hbehind, hshown]
  · intro hshown
    have hsplits := splits_leading (fmt.alignment.getD usual) (fmt.width - text.length)
    exact ⟨_, _, hsplits, Nat.add_sub_cancel' (leading_le _ _), hshown⟩

theorem Fills.length (h : fmt.Fills usual text shown) : shown.length = max fmt.width text.length := by
  obtain ⟨before, behind, -, hsum, hshown⟩ := h
  rw [hshown]
  simp only [List.length_append, List.length_replicate]
  omega

end Format

/-! ## Three ways to take a format -/

section
variable (print : Format → String)

/-- What is shown is the same under every format. -/
structure PrintsVerbatim (text : String) : Prop where
  plain : print {} = text
  ignored : ∀ fmt, print fmt = print {}

/-- What is shown is a text, cut to the precision and then padded. It stands on the left unless the format says
otherwise, and the flags have no effect. -/
structure PrintsText (text : String) : Prop where
  plain : print {} = text
  padded : ∀ fmt : Format, ∃ kept, kept <+: text.toList ∧
    kept.length = min (fmt.precision.getD text.length) text.length ∧ fmt.Fills .left kept (print fmt).toList
  length : ∀ fmt : Format, (print fmt).length = max fmt.width (min (fmt.precision.getD text.length) text.length)
  flags : ∀ (fmt : Format) plus zeros, print { fmt with plus := plus, zeros := zeros } = print fmt

/-- An integer with the sign that a format asks for. -/
def Format.signed (fmt : Format) (n : Int) : String := (if fmt.plus ∧ 0 ≤ n then "+" else "") ++ toString n

/-- What is shown is an integer, whole at any precision. It stands on the right unless the format says otherwise; with
the zero flag, its sign comes first, zeros take the place of the fill, and it is still the text of the integer. -/
structure PrintsInteger (n : Int) : Prop where
  plain : print {} = toString n
  precision : ∀ (fmt : Format) precision, print { fmt with precision := precision } = print fmt
  length : ∀ fmt : Format, (print fmt).length = max fmt.width (fmt.signed n).length
  padded : ∀ fmt : Format, fmt.zeros = false → fmt.Fills .right (fmt.signed n).toList (print fmt).toList
  extended : ∀ fmt : Format, fmt.zeros = true → ∃ zeros, (print fmt).toList =
    fmt.sign (n < 0) ++ List.replicate zeros '0' ++ (toString n.natAbs).toList
  read : ∀ fmt : Format, fmt.zeros = true → readInt? (print fmt).toList = some n
  zeros : ∀ (fmt : Format) fill alignment, fmt.zeros = true →
    print { fmt with fill := fill, alignment := alignment } = print fmt

end

/-! ## Texts -/

namespace Format

theorem pad_of_width_eq_zero {fmt : Format} (h : fmt.width = 0) (usual : Alignment) (text : List Char) :
    fmt.pad usual text = text := by
  have hleading : leading (fmt.alignment.getD usual) 0 = 0 := by cases fmt.alignment.getD usual <;> rfl
  simp only [pad, h, Nat.zero_sub, hleading, List.replicate_zero, List.nil_append, List.append_nil]

theorem exists_kept (fmt : Format) (text : String) : ∃ kept, fmt.layText text = .ofList (fmt.pad .left kept) ∧
    kept <+: text.toList ∧ kept.length = min (fmt.precision.getD text.length) text.length := by
  rw [layText]
  cases fmt.precision with
  | none =>
    refine ⟨text.toList, rfl, List.prefix_rfl, ?_⟩
    rw [Option.getD_none, Nat.min_self, String.length_toList]
  | some p =>
    refine ⟨text.toList.take p, rfl, List.take_prefix p _, ?_⟩
    rw [Option.getD_some, List.length_take, String.length_toList]

theorem printsText_layText (text : String) : PrintsText (layText · text) text := by
  have hpadded : ∀ fmt : Format, ∃ kept, kept <+: text.toList ∧
      kept.length = min (fmt.precision.getD text.length) text.length ∧
      fmt.Fills .left kept (fmt.layText text).toList := by
    intro fmt
    obtain ⟨kept, hshown, hprefix, hlength⟩ := exists_kept fmt text
    refine ⟨kept, hprefix, hlength, fills_iff.mpr ?_⟩
    rw [hshown, String.toList_ofList]
  constructor
  case plain =>
    change String.ofList (pad {} .left text.toList) = text
    rw [pad_of_width_eq_zero rfl, String.ofList_toList]
  case padded => exact hpadded
  case length =>
    intro fmt
    obtain ⟨kept, -, hlength, hfills⟩ := hpadded fmt
    rw [← String.length_toList, hfills.length, hlength]
  case flags => exact fun _ _ _ => rfl

/-! ## Integers -/

theorem toList_signed (fmt : Format) (n : Int) :
    (fmt.signed n).toList = fmt.sign (n < 0) ++ Decimal.digits n.natAbs := by
  rw [signed, String.toList_append, toList_toString, sign]
  rcases lt_or_ge n 0 with hneg | hpos
  · rw [if_neg (by omega), if_pos hneg, if_pos (by simpa using hneg)]
    rfl
  · have hsign : ¬ decide (n < 0) = true := by simpa using hpos
    rw [if_neg hsign, if_neg (not_lt.mpr hpos)]
    cases fmt.plus <;> simp [hpos]

theorem layNumber_zeros {fmt : Format} (h : fmt.zeros = true) (sign body : List Char) : fmt.layNumber sign body =
    .ofList (sign ++ List.replicate (fmt.width - (sign.length + body.length)) '0' ++ body) := if_pos h

theorem layNumber_fills {fmt : Format} (h : fmt.zeros = false) (sign body : List Char) :
    fmt.Fills .right (sign ++ body) (fmt.layNumber sign body).toList := by
  rw [fills_iff, layNumber, h, if_neg Bool.false_ne_true, String.toList_ofList]

theorem length_layNumber (fmt : Format) (sign body : List Char) :
    (fmt.layNumber sign body).length = max fmt.width (sign.length + body.length) := by
  rw [← String.length_toList]
  cases hzeros : fmt.zeros with
  | true =>
    rw [layNumber_zeros hzeros, String.toList_ofList]
    simp only [List.length_append, List.length_replicate]
    omega
  | false => rw [(layNumber_fills hzeros sign body).length, List.length_append]

theorem readInt?_sign (fmt : Format) (negative : Bool) {ds : List Char} (hne : ds ≠ [])
    (hds : ∀ c ∈ ds, c.isDigit = true) : readInt? (fmt.sign negative ++ ds) = some (toInt ⟨negative, ds, []⟩) := by
  have hread : ofChars? (fmt.sign negative ++ ds) = some ⟨negative, ds, []⟩ := by
    cases negative with
    | true => exact ofUnsigned?_digits true hne hds
    | false =>
      cases hplus : fmt.plus with
      | true =>
        rw [sign, if_neg Bool.false_ne_true, if_pos hplus]
        exact ofUnsigned?_digits false hne hds
      | false =>
        obtain ⟨c, rest, rfl⟩ := List.exists_cons_of_ne_nil hne
        rw [sign, if_neg Bool.false_ne_true, hplus, if_neg Bool.false_ne_true, List.nil_append,
          ofChars?_of_isDigit (hds c List.mem_cons_self), ofUnsigned?_digits false hne hds]
  rw [readInt?, hread, Option.bind_some, if_pos rfl]

theorem readInt?_extended (fmt : Format) (n : Int) (zeros : Nat) :
    readInt? (fmt.sign (n < 0) ++ List.replicate zeros '0' ++ Decimal.digits n.natAbs) = some n := by
  have hds : ∀ c ∈ List.replicate zeros '0' ++ Decimal.digits n.natAbs, c.isDigit = true := by
    intro c hc
    rcases List.mem_append.mp hc with hc | hc
    · rw [List.eq_of_mem_replicate hc]
      rfl
    · exact Decimal.isDigit_digits c hc
  have hvalue : Nat.ofDigitChars 10 (List.replicate zeros '0' ++ Decimal.digits n.natAbs) 0 = n.natAbs := by
    rw [ofDigitChars_append, Nat.ofDigitChars_replicate_zero, Nat.mul_zero, Nat.mul_zero, Nat.zero_add]
    exact Nat.ofDigitChars_toDigits (by decide) (by decide)
  have hne : Decimal.digits n.natAbs ≠ [] := Nat.toDigits_ne_nil
  rw [List.append_assoc, readInt?_sign fmt _ (List.append_ne_nil_of_right_ne_nil _ hne) hds]
  simp only [toInt, digits, List.append_nil, hvalue, decide_eq_true_eq, Option.some.injEq]
  split <;> omega

theorem printsInteger_layNumber (n : Int) :
    PrintsInteger (fun fmt => fmt.layNumber (fmt.sign (n < 0)) (Decimal.digits n.natAbs)) n := by
  have hdigits : (toString n.natAbs).toList = Decimal.digits n.natAbs := String.toList_ofList
  constructor
  case plain =>
    change String.ofList (pad {} .right _) = toString n
    rw [pad_of_width_eq_zero rfl, ← toList_signed, String.ofList_toList]
    exact String.empty_append
  case precision => exact fun _ _ => rfl
  case length =>
    intro fmt
    rw [length_layNumber, ← String.length_toList, toList_signed, List.length_append]
  case padded =>
    intro fmt hzeros
    rw [toList_signed]
    exact layNumber_fills hzeros _ _
  case extended =>
    intro fmt hzeros
    rw [layNumber_zeros hzeros, String.toList_ofList, hdigits]
    exact ⟨_, rfl⟩
  case read =>
    intro fmt hzeros
    rw [layNumber_zeros hzeros, String.toList_ofList]
    exact readInt?_extended fmt n _
  case zeros =>
    intro fmt fill alignment hzeros
    have hother : ({ fmt with fill := fill, alignment := alignment } : Format).zeros = true := hzeros
    exact (layNumber_zeros hother _ _).trans (layNumber_zeros hzeros _ _).symm

end Format

/-! ## What is printed -/

/-- Errors that are put together from a cause, and failures of a transport without a message of their own. -/
def MetricError.isComposed : MetricError → Bool
  | unresolvable _ | unprepared .. | transport (.system _) | transport (.bare _) => true
  | _ => false

theorem printsVerbatim_const (text : String) : PrintsVerbatim (fun _ => text) text := ⟨rfl, fun _ => rfl⟩

theorem MetricError.prints (e : MetricError) :
    if e.isComposed then PrintsVerbatim (format · e) e.text else PrintsText (format · e) e.text := by
  cases e with
  | unresolvable | unprepared => exact printsVerbatim_const _
  | rejected | unknownTagFormat | noAddress | described => exact Format.printsText_layText _
  | transport cause =>
    cases cause with
    | system | bare => exact printsVerbatim_const _
    | stated => exact Format.printsText_layText _

/-- **Formats are obeyed one way or not at all.** Texts among values look the same under every format, and integers are
padded as numbers and lose no digit. The names of categories and of dialects are cut and padded as texts, and so are
errors with a description or a message of their own; all other errors look the same under every format. -/
theorem formats_obeyed :
    (∀ s, PrintsVerbatim (Value.format · (.text s)) s) ∧
    (∀ n : Int64, PrintsInteger (Value.format · (.int n)) n.toInt) ∧
    (∀ kind, PrintsText (ErrorKind.format · kind) kind.text) ∧
    (∀ dialect : TagFormat, PrintsText dialect.format dialect.text) ∧
    ∀ e : MetricError, if e.isComposed then PrintsVerbatim (MetricError.format · e) e.text
      else PrintsText (MetricError.format · e) e.text := by
  refine ⟨printsVerbatim_const, ?_, fun kind => Format.printsText_layText _,
    fun dialect => Format.printsText_layText _, MetricError.prints⟩
  intro n
  have hsign : decide (n < 0) = decide (n.toInt < 0) := decide_eq_decide.mpr Int64.lt_iff_toInt_lt
  simp only [Value.format, hsign]
  exact Format.printsInteger_layNumber n.toInt

/-- Fill, alignment and precision were asked for, and have no effect beside the zero flag. -/
example : Value.format ⟨'*', some .centre, false, true, 6, some 1⟩ (.int (-42)) = "-00042" := by decide

end MetricWire
