import Mathlib.Algebra.Order.Field.Power
import Mathlib.Data.List.DropRight
import Mathlib.Data.List.TakeWhile
import Mathlib.Data.Rat.Cast.Order
import Mathlib.Tactic.FieldSimp
import Mathlib.Tactic.Ring
import MetricWire.Proofs.Decimal.Shortest

/-!
Numerals and the decimals they are the text of.

A numeral is the text of a number taken apart: a sign, digits, and digits behind a point. `Numeral.Plain` says that
no zero could be left out of it, `Numeral.value` is the number it denotes and `Numeral.significant` counts its
digits from the first to the last that is not zero. The text of a decimal is that of a plain numeral
(`Decimal.numeral_plain`), and a number has as many significant digits as its coefficient needs, however it is
written (`Numeral.significant_le`, `Numeral.exists_coefficient`).
-/

namespace MetricWire

/-! ## Cutting a text where a class of characters ends -/

namespace Span

variable {p : Char → Bool} {s rest : List Char}

theorem takeWhile_eq_nil (h : ∀ c, rest.head? = some c → p c = false) : rest.takeWhile p = [] := by
  cases rest with
  | nil => rfl
  | cons c rest => simp [h c rfl]

theorem dropWhile_eq_self (h : ∀ c, rest.head? = some c → p c = false) : rest.dropWhile p = rest := by
  cases rest with
  | nil => rfl
  | cons c rest => simp [h c rfl]

theorem append (hs : ∀ c ∈ s, p c = true) (h : ∀ c, rest.head? = some c → p c = false) :
    (s ++ rest).takeWhile p = s ∧ (s ++ rest).dropWhile p = rest := by
  rw [List.takeWhile_append_of_pos hs, List.dropWhile_append_of_pos hs, takeWhile_eq_nil h, dropWhile_eq_self h]
  exact ⟨List.append_nil s, rfl⟩

end Span

/-! ## Digits -/

theorem digit_bounds {c : Char} (h : c.isDigit = true) : 48 ≤ c.toNat ∧ c.toNat ≤ 57 := by
  simpa [Char.isDigit, UInt32.le_iff_toNat_le] using h

theorem digit_eq_zero {c : Char} (h : c.isDigit = true) (hc : c.toNat - '0'.toNat = 0) : c = '0' := by
  have hbounds := digit_bounds h
  have hzero : '0'.toNat = 48 := rfl
  exact Char.toNat_inj.mp (by omega)

theorem ofDigitChars_lt {ds : List Char} (hds : ∀ c ∈ ds, c.isDigit = true) :
    Nat.ofDigitChars 10 ds 0 < 10 ^ ds.length := by
  induction ds with
  | nil => decide
  | cons c ds ih =>
    have hbounds := digit_bounds (hds c List.mem_cons_self)
    have hzero : '0'.toNat = 48 := rfl
    have hrest := ih fun d hd => hds d (List.mem_cons_of_mem c hd)
    have hfirst : 10 ^ ds.length * (c.toNat - '0'.toNat) ≤ 10 ^ ds.length * 9 := Nat.mul_le_mul_left _ (by omega)
    rw [Nat.ofDigitChars_cons, Nat.mul_zero, Nat.zero_add, Nat.ofDigitChars_eq_ofDigitChars_zero, List.length_cons,
      Nat.pow_succ]
    omega

theorem ofDigitChars_append (ds es : List Char) : Nat.ofDigitChars 10 (ds ++ es) 0 =
    10 ^ es.length * Nat.ofDigitChars 10 ds 0 + Nat.ofDigitChars 10 es 0 := by
  rw [Nat.ofDigitChars_append, Nat.ofDigitChars_eq_ofDigitChars_zero]

theorem le_ofDigitChars {c : Char} {ds : List Char} (hc : c.isDigit = true) (hne : c ≠ '0') :
    10 ^ ds.length ≤ Nat.ofDigitChars 10 (c :: ds) 0 := by
  have hpos : 0 < c.toNat - '0'.toNat := Nat.pos_of_ne_zero fun h => hne (digit_eq_zero hc h)
  rw [Nat.ofDigitChars_cons, Nat.mul_zero, Nat.zero_add, Nat.ofDigitChars_eq_ofDigitChars_zero]
  exact Nat.le_trans (Nat.le_mul_of_pos_right _ hpos) (Nat.le_add_right _ _)

theorem ofDigitChars_mod_ten {c : Char} {ds : List Char} (hc : c.isDigit = true) (hne : c ≠ '0') :
    Nat.ofDigitChars 10 (ds ++ [c]) 0 % 10 ≠ 0 := by
  have hbounds := digit_bounds hc
  have hzero : '0'.toNat = 48 := rfl
  have hpos : c.toNat - '0'.toNat ≠ 0 := fun h => hne (digit_eq_zero hc h)
  rw [Nat.ofDigitChars_append, Nat.ofDigitChars_cons, Nat.ofDigitChars_nil]
  omega

theorem Decimal.isDigit_digits {n : Nat} : ∀ c ∈ digits n, c.isDigit = true :=
  fun _ => Nat.isDigit_of_mem_toDigits (by decide) (by decide)

theorem Decimal.getLast?_digits (n : Nat) : (digits n).getLast? = some (n % 10).digitChar := by
  rw [digits, Nat.toDigits_eq_if (by decide)]
  split
  · rename_i h
    rw [Nat.mod_eq_of_lt h]
    rfl
  · exact List.getLast?_concat

/-- Only the digits of zero start with a zero. -/
theorem Decimal.head?_digits {n : Nat} (h : (digits n).head? = some '0') : n = 0 := by
  induction n using Nat.strongRecOn with
  | ind n ih =>
    rw [digits, Nat.toDigits_eq_if (by decide)] at h
    split at h
    · simpa using h
    · have hhead : (digits (n / 10)).head? = some '0' := by
        rwa [List.head?_append_of_ne_nil _ Nat.toDigits_ne_nil] at h
      have := ih (n / 10) (by omega) hhead
      omega

/-! ## Numerals -/

/-- The text of a number, taken apart at the sign and at the point. -/
structure Numeral where
  negative : Bool
  whole : List Char
  /-- The digits behind the point; without any there is no point. -/
  places : List Char
deriving DecidableEq, Repr

namespace Numeral

def text (w : Numeral) : List Char :=
  (if w.negative then ['-'] else []) ++ w.whole ++ if w.places = [] then [] else '.' :: w.places

def digits (w : Numeral) : List Char := w.whole ++ w.places

/-- The absolute value of the number that the numeral denotes. -/
def value (w : Numeral) : ℚ := Nat.ofDigitChars 10 w.digits 0 / 10 ^ w.places.length

/-- The digits from the first to the last one that is not zero. -/
def core (ds : List Char) : List Char := (ds.dropWhile (· == '0')).rdropWhile (· == '0')

/-- The number of significant digits. -/
def significant (w : Numeral) : Nat := (core w.digits).length

/-- There are digits only, at least one before the point, and no zero that could be left out. -/
structure Plain (w : Numeral) : Prop where
  digit : ∀ c ∈ w.digits, c.isDigit = true
  whole_ne : w.whole ≠ []
  first : w.whole.head? = some '0' → w.whole = ['0']
  last : w.places.getLast? ≠ some '0'

theorem Plain.isDigit_whole {w : Numeral} (hw : w.Plain) : ∀ c ∈ w.whole, c.isDigit = true :=
  fun c hc => hw.digit c (List.mem_append_left _ hc)

theorem Plain.isDigit_places {w : Numeral} (hw : w.Plain) : ∀ c ∈ w.places, c.isDigit = true :=
  fun c hc => hw.digit c (List.mem_append_right _ hc)

/-! ## The text determines the numeral -/

/-- A text starts with the sign, and without one with a digit. -/
theorem Plain.text_head {w : Numeral} (hw : w.Plain) : w.negative = true ∧ w.text.head? = some '-' ∨
    w.negative = false ∧ ∃ c, c.isDigit = true ∧ w.text.head? = some c := by
  cases hsign : w.negative with
  | true => exact .inl ⟨rfl, by simp [text, hsign]⟩
  | false =>
    obtain ⟨c, ds, hwhole⟩ := List.exists_cons_of_ne_nil hw.whole_ne
    exact .inr ⟨rfl, c, hw.digit c (by simp [digits, hwhole]), by simp [text, hsign, hwhole]⟩

theorem Plain.text_head_minus {w : Numeral} (hw : w.Plain) : w.text.head? = some '-' ↔ w.negative = true := by
  rcases hw.text_head with ⟨hsign, hhead⟩ | ⟨hsign, c, hc, hhead⟩
  · simp [hsign, hhead]
  · have hne : c ≠ '-' := fun h => absurd (h ▸ hc) (by decide)
    simp [hsign, hhead, hne]

theorem Plain.text_head_ne_plus {w : Numeral} (hw : w.Plain) : w.text.head? ≠ some '+' := by
  rcases hw.text_head with ⟨-, hhead⟩ | ⟨-, c, hc, hhead⟩
  · simp [hhead]
  · have hne : c ≠ '+' := fun h => absurd (h ▸ hc) (by decide)
    simp [hhead, hne]

theorem span_text {whole : List Char} (places : List Char) (h : ∀ c ∈ whole, c.isDigit = true) :
    (whole ++ if places = [] then [] else '.' :: places).takeWhile Char.isDigit = whole ∧
      (whole ++ if places = [] then [] else '.' :: places).dropWhile Char.isDigit =
        if places = [] then [] else '.' :: places := by
  refine Span.append h ?_
  split
  · rintro c ⟨⟩
  · rintro c ⟨⟩
    decide

theorem Plain.text_injective {v w : Numeral} (hv : v.Plain) (hw : w.Plain) (h : v.text = w.text) : v = w := by
  have hsign : v.negative = w.negative := by
    rw [Bool.eq_iff_iff, ← hv.text_head_minus, ← hw.text_head_minus, h]
  simp only [text, hsign, List.append_assoc, List.append_cancel_left_eq] at h
  have hwhole : v.whole = w.whole := by
    have htake := congrArg (List.takeWhile Char.isDigit) h
    rwa [(span_text _ hv.isDigit_whole).1, (span_text _ hw.isDigit_whole).1] at htake
  have hplaces : v.places = w.places := by
    rw [hwhole, List.append_cancel_left_eq] at h
    split at h <;> split at h <;> simp_all
  cases v
  cases w
  simp_all

/-! ## Significant digits -/

theorem eq_replicate_of_all {ds : List Char} (h : ds.all (· == '0') = true) : ds = List.replicate ds.length '0' :=
  List.eq_replicate_iff.mpr ⟨rfl, fun c hc => beq_iff_eq.mp (List.all_eq_true.mp h c hc)⟩

theorem exists_rdropWhile (ds : List Char) : ∃ b, ds = ds.rdropWhile (· == '0') ++ List.replicate b '0' := by
  have hsplit := List.rdropWhile_append_rtakeWhile (p := (· == '0')) (l := ds)
  refine ⟨(ds.rtakeWhile (· == '0')).length, ?_⟩
  rw [← eq_replicate_of_all, hsplit]
  exact List.all_eq_true.mpr fun c hc => List.mem_rtakeWhile_imp (p := (· == '0')) hc

theorem getLast?_rdropWhile (ds : List Char) : (ds.rdropWhile (· == '0')).getLast? ≠ some '0' := by
  intro h
  have hne : ds.rdropWhile (· == '0') ≠ [] := fun hnil => by rw [hnil] at h; cases h
  rw [List.getLast?_eq_some_getLast hne, Option.some.injEq] at h
  exact List.rdropWhile_last_not _ _ hne (beq_iff_eq.mpr h)

/-- Around the significant digits there are only zeros. -/
theorem exists_core (ds : List Char) :
    ∃ a b, ds = List.replicate a '0' ++ core ds ++ List.replicate b '0' := by
  have hleft := List.takeWhile_append_dropWhile (p := (· == '0')) (l := ds)
  obtain ⟨b, hright⟩ := exists_rdropWhile (ds.dropWhile (· == '0'))
  refine ⟨(ds.takeWhile (· == '0')).length, b, ?_⟩
  rw [← eq_replicate_of_all List.all_takeWhile, List.append_assoc, core, ← hright, hleft]

/-- The zeros in front do not count, those behind are powers of ten. -/
theorem ofDigitChars_core (ds : List Char) :
    ∃ b, Nat.ofDigitChars 10 ds 0 = Nat.ofDigitChars 10 (core ds) 0 * 10 ^ b := by
  obtain ⟨a, b, h⟩ := exists_core ds
  refine ⟨b, ?_⟩
  conv => lhs; rw [h]
  rw [Nat.ofDigitChars_append, Nat.ofDigitChars_append, Nat.ofDigitChars_replicate_zero,
    Nat.ofDigitChars_replicate_zero, Nat.mul_zero, Nat.mul_comm]

theorem mem_of_mem_core {ds : List Char} {c : Char} (h : c ∈ core ds) : c ∈ ds :=
  (List.dropWhile_suffix _).subset ((List.rdropWhile_prefix _ _).subset h)

theorem core_head? (ds : List Char) : (core ds).head? ≠ some '0' := by
  intro h
  obtain ⟨rest, hrest⟩ := List.rdropWhile_prefix (· == '0') (ds.dropWhile (· == '0'))
  have hhead : (ds.dropWhile (· == '0')).head? = some '0' := by
    rw [← hrest, ← core, List.head?_append, h]
    rfl
  have hnot := List.head?_dropWhile_not (· == '0') ds
  rw [hhead] at hnot
  exact absurd hnot (by decide)

theorem core_getLast? (ds : List Char) : (core ds).getLast? ≠ some '0' := getLast?_rdropWhile _

/-- A coefficient that does not end in zero is the least one: any other is that times a power of ten. -/
theorem exists_mul_pow {n c b j : Nat} (hn : n % 10 ≠ 0) (h : n * 10 ^ b = c * 10 ^ j) : ∃ k, c = n * 10 ^ k := by
  rcases Nat.lt_or_ge b j with hlt | hle
  · obtain ⟨k, rfl⟩ := Nat.exists_eq_add_of_lt hlt
    have hten : n = c * 10 ^ k * 10 := by
      refine Nat.eq_of_mul_eq_mul_right (Nat.pow_pos (n := b) (by decide : 0 < 10)) ?_
      rw [h]
      ring
    exact absurd (by rw [hten]; exact Nat.mul_mod_left _ _) hn
  · obtain ⟨k, rfl⟩ := Nat.exists_eq_add_of_le hle
    refine ⟨k, Nat.eq_of_mul_eq_mul_right (Nat.pow_pos (n := j) (by decide : 0 < 10)) ?_⟩
    rw [← h]
    ring

theorem core_length_le {ds : List Char} (hds : ∀ c ∈ ds, c.isDigit = true) {c j s : Nat}
    (h : Nat.ofDigitChars 10 ds 0 = c * 10 ^ j) (hc : c < 10 ^ s) : (core ds).length ≤ s := by
  obtain ⟨b, hb⟩ := ofDigitChars_core ds
  have hdigit : ∀ d ∈ core ds, d.isDigit = true := fun d hd => hds d (mem_of_mem_core hd)
  have hfirst := core_head? ds
  have hlast := core_getLast? ds
  rw [hb] at h
  generalize core ds = t at *
  cases t with
  | nil => exact Nat.zero_le s
  | cons d t =>
    obtain ⟨e, u, hu⟩ : ∃ e u, d :: t = u ++ [e] :=
      ⟨_, _, (List.dropLast_concat_getLast (List.cons_ne_nil d t)).symm⟩
    have hmod : Nat.ofDigitChars 10 (u ++ [e]) 0 % 10 ≠ 0 :=
      ofDigitChars_mod_ten (hdigit e (by simp [hu])) fun he => hlast (by rw [hu, he, List.getLast?_concat])
    rw [← hu] at hmod
    obtain ⟨k, hk⟩ := exists_mul_pow hmod h
    have hpow : 10 ^ t.length < 10 ^ s :=
      calc 10 ^ t.length ≤ Nat.ofDigitChars 10 (d :: t) 0 :=
            le_ofDigitChars (hdigit d List.mem_cons_self) fun hd => hfirst (by rw [hd]; rfl)
        _ ≤ c := by rw [hk]; exact Nat.le_mul_of_pos_right _ (Nat.pow_pos (by decide))
        _ < 10 ^ s := hc
    exact (Nat.pow_lt_pow_iff_right (by decide)).mp hpow

theorem exists_coefficient {w : Numeral} (hw : ∀ c ∈ w.digits, c.isDigit = true) :
    ∃ (c : Nat) (e : ℤ), c < 10 ^ w.significant ∧ w.value = c * 10 ^ e := by
  obtain ⟨b, hb⟩ := ofDigitChars_core w.digits
  refine ⟨Nat.ofDigitChars 10 (core w.digits) 0, b - w.places.length,
    ofDigitChars_lt fun c hc => hw c (mem_of_mem_core hc), ?_⟩
  rw [value, hb, zpow_sub₀ (by norm_num), zpow_natCast, zpow_natCast]
  push_cast
  ring

end Numeral

/-! ## The text of a decimal -/

namespace Decimal

/-- The numeral of a decimal. -/
def numeral (d : Decimal) (negative : Bool) : Numeral where
  negative := negative
  whole := if 0 ≤ d.exponent then digits (d.coefficient * 10 ^ d.exponent.toNat)
    else digits (d.coefficient / 10 ^ d.places)
  places := if 0 ≤ d.exponent then [] else (digits (d.coefficient % 10 ^ d.places)).leftpad d.places '0'

variable (d : Decimal) (negative : Bool)

theorem places_eq_zero (h : 0 ≤ d.exponent) : d.places = 0 := by
  unfold places
  omega

theorem places_pos (h : ¬ 0 ≤ d.exponent) : 0 < d.places := by
  unfold places
  omega

theorem length_places : (d.numeral negative).places.length = d.places := by
  unfold numeral
  split
  · rename_i h
    rw [places_eq_zero d h]
    rfl
  · rename_i h
    have hlength := (Nat.length_toDigits_le_iff (by decide) (places_pos d h)).mpr
      (Nat.mod_lt d.coefficient (Nat.pow_pos (by decide) : 0 < 10 ^ d.places))
    rw [List.length_leftpad, digits]
    exact Nat.max_eq_left hlength

theorem numeral_text : (d.numeral negative).text = (if negative then ['-'] else []) ++ d.positional := by
  unfold Numeral.text positional
  rw [List.append_assoc]
  congr 1
  by_cases h : 0 ≤ d.exponent
  · simp [numeral, h]
  · have hne : (d.numeral negative).places ≠ [] := fun hnil => by
      have hpos := places_pos d h
      rw [← length_places d negative, hnil] at hpos
      exact absurd hpos (Nat.lt_irrefl 0)
    rw [if_neg hne, if_neg h]
    simp [numeral, h]

theorem ofDigitChars_numeral :
    Nat.ofDigitChars 10 (d.numeral negative).digits 0 = d.coefficient * 10 ^ d.exponent.toNat := by
  unfold Numeral.digits
  rw [ofDigitChars_append, length_places]
  by_cases h : 0 ≤ d.exponent
  · simp [numeral, h, digits, places_eq_zero d h]
  · have hexponent : d.exponent.toNat = 0 := by omega
    simp [numeral, h, digits, List.leftpad, Nat.ofDigitChars_append, hexponent, Nat.div_add_mod]

theorem numeral_value : (d.numeral negative).value = d.value := by
  rw [Numeral.value, ofDigitChars_numeral, length_places, Decimal.value, places]
  push_cast
  rw [← zpow_mul_pow_toNat (b := 10) (by norm_num) d.exponent]
  field_simp

theorem isDigit_numeral : ∀ c ∈ (d.numeral negative).digits, c.isDigit = true := by
  intro c hc
  rcases List.mem_append.mp hc with hw | hp
  · simp only [numeral] at hw
    split at hw <;> exact isDigit_digits c hw
  · simp only [numeral] at hp
    split at hp
    · cases hp
    · rcases List.mem_append.mp hp with hz | hd
      · rw [(List.mem_replicate.mp hz).2]
        decide
      · exact isDigit_digits c hd

theorem whole_numeral_ne : (d.numeral negative).whole ≠ [] := by
  simp only [numeral]
  split <;> exact Nat.toDigits_ne_nil

theorem whole_numeral_first (h : (d.numeral negative).whole.head? = some '0') :
    (d.numeral negative).whole = ['0'] := by
  simp only [numeral] at h ⊢
  split at h <;> rename_i hexponent <;> simp only [hexponent, if_true, if_false] <;> rw [head?_digits h] <;> rfl

/-- Without a zero at the end of the coefficient there is none to leave out. -/
theorem numeral_plain (h : d.exponent < 0 → d.coefficient % 10 ≠ 0) : (d.numeral negative).Plain where
  digit := isDigit_numeral d negative
  whole_ne := whole_numeral_ne d negative
  first := whole_numeral_first d negative
  last := by
    simp only [numeral]
    split
    · simp
    · rename_i hexponent
      have hpos := places_pos d hexponent
      rw [List.leftpad, List.getLast?_append, getLast?_digits, Option.some_or, ne_eq, Option.some.injEq,
        Nat.digitChar_eq_zero, Nat.mod_mod_of_dvd _ (dvd_pow_self 10 (by omega))]
      exact h (by omega)

theorem significant_numeral_le {s : Nat} (h : d.coefficient < 10 ^ s) : (d.numeral negative).significant ≤ s :=
  Numeral.core_length_le (isDigit_numeral d negative) (ofDigitChars_numeral d negative) h

end Decimal

end MetricWire
