import MetricWire.Proofs.Decimal.Positional

/-!
Decimal expansions. A plain numeral is determined by its sign and its value, so a number has one plain text at most:
the last place is not zero, so the value fixes how many places there are, and the first digit is not zero, so it
fixes how many digits there are before the point. A natural divided by a power of ten has such a text, which is found
by leaving out the zeros at its end (`Numeral.trim`).
-/

namespace MetricWire

/-! ## A number has one plain text -/

/-- What digits denote tells what its last digits do, if it is known how many they are. -/
theorem ofDigitChars_append_inj {ds es ds' es' : List Char} (hes : ∀ c ∈ es, c.isDigit = true)
    (hes' : ∀ c ∈ es', c.isDigit = true) (hlength : es.length = es'.length)
    (h : Nat.ofDigitChars 10 (ds ++ es) 0 = Nat.ofDigitChars 10 (ds' ++ es') 0) :
    Nat.ofDigitChars 10 ds 0 = Nat.ofDigitChars 10 ds' 0 ∧ Nat.ofDigitChars 10 es 0 = Nat.ofDigitChars 10 es' 0 := by
  have hlt := ofDigitChars_lt hes
  have hlt' := ofDigitChars_lt hes'
  have hP : 0 < 10 ^ es'.length := Nat.pow_pos (by decide)
  rw [ofDigitChars_append, ofDigitChars_append, hlength] at h
  rw [hlength] at hlt
  -- whole part and rest in a division by the power of ten
  obtain ⟨hdiv, hmod⟩ := (Nat.div_mod_unique hP).mpr ⟨Nat.add_comm _ _, hlt⟩
  obtain ⟨hdiv', hmod'⟩ := (Nat.div_mod_unique hP).mpr ⟨Nat.add_comm _ _, hlt'⟩
  rw [h] at hdiv hmod
  exact ⟨hdiv.symm.trans hdiv', hmod.symm.trans hmod'⟩

theorem ofDigitChars_injective {ds es : List Char} (hds : ∀ c ∈ ds, c.isDigit = true)
    (hes : ∀ c ∈ es, c.isDigit = true) (hlength : ds.length = es.length)
    (h : Nat.ofDigitChars 10 ds 0 = Nat.ofDigitChars 10 es 0) : ds = es := by
  induction ds generalizing es with
  | nil => exact (List.length_eq_zero_iff.mp hlength.symm).symm
  | cons c ds ih =>
    obtain ⟨d, es, rfl⟩ := List.exists_cons_of_length_eq_add_one hlength.symm
    have hlengths : ds.length = es.length := Nat.succ.inj hlength
    have hrestd := fun e he => hds e (List.mem_cons_of_mem _ he)
    have hreste := fun e he => hes e (List.mem_cons_of_mem _ he)
    have hsplit : Nat.ofDigitChars 10 ([c] ++ ds) 0 = Nat.ofDigitChars 10 ([d] ++ es) 0 := h
    obtain ⟨hfirst, hrest⟩ := ofDigitChars_append_inj hrestd hreste hlengths hsplit
    simp only [Nat.ofDigitChars_cons, Nat.ofDigitChars_nil, Nat.mul_zero, Nat.zero_add] at hfirst
    have hcbounds := digit_bounds (hds c List.mem_cons_self)
    have hdbounds := digit_bounds (hes d List.mem_cons_self)
    have hzero : '0'.toNat = 48 := rfl
    have hcd : c = d := Char.toNat_inj.mp (by omega)
    rw [hcd, ih hrestd hreste hlengths hrest]

/-- Digits without a zero in front have the length that their value needs. -/
theorem length_le_of_ofDigitChars_le {ds es : List Char} (hds : ∀ c ∈ ds, c.isDigit = true)
    (hes : ∀ c ∈ es, c.isDigit = true) (hes_ne : es ≠ []) (hfirst : ds.head? = some '0' → ds = ['0'])
    (h : Nat.ofDigitChars 10 ds 0 ≤ Nat.ofDigitChars 10 es 0) : ds.length ≤ es.length := by
  have hpos : 0 < es.length := List.length_pos_iff.mpr hes_ne
  cases ds with
  | nil => exact Nat.zero_le _
  | cons c ds =>
    by_cases hc : c = '0'
    · rw [hfirst (by rw [hc]; rfl)]
      exact hpos
    · have hpow : 10 ^ ds.length < 10 ^ es.length :=
        calc 10 ^ ds.length ≤ Nat.ofDigitChars 10 (c :: ds) 0 := le_ofDigitChars (hds c List.mem_cons_self) hc
          _ ≤ Nat.ofDigitChars 10 es 0 := h
          _ < 10 ^ es.length := ofDigitChars_lt hes
      exact (Nat.pow_lt_pow_iff_right (by decide)).mp hpow

namespace Numeral

theorem Plain.places_le {v w : Numeral} (hv : v.Plain) (h : v.value = w.value) :
    v.places.length ≤ w.places.length := by
  by_contra hlt
  obtain ⟨t, ht⟩ := Nat.exists_eq_add_of_lt (Nat.lt_of_not_le hlt)
  -- the digits are then a multiple of ten
  have hdigits : Nat.ofDigitChars 10 v.digits 0 = Nat.ofDigitChars 10 w.digits 0 * 10 ^ t * 10 := by
    have hpow : (0 : ℚ) < 10 ^ w.places.length := by positivity
    rw [value, value, ht, pow_succ, pow_add, div_eq_div_iff (by positivity) hpow.ne'] at h
    have hcancel : (Nat.ofDigitChars 10 v.digits 0 : ℚ) * 10 ^ w.places.length =
        Nat.ofDigitChars 10 w.digits 0 * 10 ^ t * 10 * 10 ^ w.places.length := by
      rw [h]
      ring
    exact_mod_cast mul_right_cancel₀ hpow.ne' hcancel
  have hne : v.places ≠ [] := List.ne_nil_of_length_pos (by omega)
  obtain ⟨init, c, hplaces⟩ : ∃ init c, v.places = init ++ [c] :=
    ⟨_, _, (List.dropLast_concat_getLast hne).symm⟩
  have hc : c ≠ '0' := fun hzero => hv.last (by rw [hplaces, hzero, List.getLast?_concat])
  have hsplit : v.digits = (v.whole ++ init) ++ [c] := by rw [digits, hplaces, List.append_assoc]
  have hmod : Nat.ofDigitChars 10 v.digits 0 % 10 ≠ 0 := by
    rw [hsplit]
    exact ofDigitChars_mod_ten (hv.digit c (by simp [hsplit])) hc
  rw [hdigits] at hmod
  exact hmod (Nat.mul_mod_left _ _)

/-- A number has one plain numeral. -/
theorem Plain.eq_of_value {v w : Numeral} (hv : v.Plain) (hw : w.Plain) (hsign : v.negative = w.negative)
    (h : v.value = w.value) : v = w := by
  have hlength : v.places.length = w.places.length := Nat.le_antisymm (hv.places_le h) (hw.places_le h.symm)
  have hdigits : Nat.ofDigitChars 10 v.digits 0 = Nat.ofDigitChars 10 w.digits 0 := by
    have hpow : (10 : ℚ) ^ w.places.length ≠ 0 := by positivity
    rw [value, value, hlength, div_left_inj' hpow] at h
    exact_mod_cast h
  obtain ⟨hwholeValue, hplacesValue⟩ := ofDigitChars_append_inj hv.isDigit_places hw.isDigit_places hlength hdigits
  have hwhole : v.whole = w.whole := by
    refine ofDigitChars_injective hv.isDigit_whole hw.isDigit_whole (Nat.le_antisymm ?_ ?_) hwholeValue
    · exact length_le_of_ofDigitChars_le hv.isDigit_whole hw.isDigit_whole hw.whole_ne hv.first hwholeValue.le
    · exact length_le_of_ofDigitChars_le hw.isDigit_whole hv.isDigit_whole hv.whole_ne hw.first hwholeValue.ge
  have hplaces : v.places = w.places := ofDigitChars_injective hv.isDigit_places hw.isDigit_places hlength hplacesValue
  cases v
  cases w
  simp_all

theorem Plain.places_eq_nil_iff {w : Numeral} (hw : w.Plain) : w.places = [] ↔ ∃ m : Nat, w.value = m := by
  constructor
  · intro h
    exact ⟨Nat.ofDigitChars 10 w.digits 0, by rw [value, h, List.length_nil, pow_zero, div_one]⟩
  · rintro ⟨m, hm⟩
    have hplain : (Decimal.numeral ⟨m, 0⟩ w.negative).Plain :=
      Decimal.numeral_plain _ _ fun h => absurd h (lt_irrefl 0)
    have hvalue : w.value = (Decimal.numeral ⟨m, 0⟩ w.negative).value := by
      rw [hm, Decimal.numeral_value, Decimal.value, zpow_zero, mul_one]
    rw [hw.eq_of_value hplain rfl hvalue]
    rfl

/-! ## The expansion of a natural divided by a power of ten -/

/-- The numeral without the zeros at its end, and without a point where nothing is left behind it. -/
def trim (w : Numeral) : Numeral := { w with places := w.places.rdropWhile (· == '0') }

theorem trim_value (w : Numeral) : w.trim.value = w.value := by
  obtain ⟨b, hb⟩ : ∃ b, w.places = w.trim.places ++ List.replicate b '0' := exists_rdropWhile w.places
  have hdigits : w.digits = w.trim.digits ++ List.replicate b '0' := by
    rw [digits, hb, ← List.append_assoc]
    rfl
  rw [value, value, hdigits, hb, Nat.ofDigitChars_append, Nat.ofDigitChars_replicate_zero, List.length_append,
    List.length_replicate, pow_add]
  push_cast
  rw [mul_comm, mul_div_mul_right _ _ (by positivity)]

theorem trim_plain {w : Numeral} (hdigit : ∀ c ∈ w.digits, c.isDigit = true) (hne : w.whole ≠ [])
    (hfirst : w.whole.head? = some '0' → w.whole = ['0']) : w.trim.Plain where
  digit c hc := by
    rcases List.mem_append.mp hc with hc | hc
    · exact hdigit c (List.mem_append_left _ hc)
    · exact hdigit c (List.mem_append_right _ ((List.rdropWhile_prefix _ _).subset hc))
  whole_ne := hne
  first := hfirst
  last := getLast?_rdropWhile _

/-- The decimal expansion of `n / 10 ^ places`. -/
def expansion (n places : Nat) : Numeral := (Decimal.numeral ⟨n, -places⟩ false).trim

theorem expansion_value (n places : Nat) : (expansion n places).value = n / 10 ^ places := by
  rw [expansion, trim_value, Decimal.numeral_value, Decimal.value, zpow_neg, zpow_natCast, div_eq_mul_inv]

theorem expansion_plain (n places : Nat) : (expansion n places).Plain :=
  trim_plain (Decimal.isDigit_numeral _ _) (Decimal.whole_numeral_ne _ _) (Decimal.whole_numeral_first _ _)

theorem expansion_places_eq_nil_iff (n places : Nat) : (expansion n places).places = [] ↔ 10 ^ places ∣ n := by
  have hpow : (10 : ℚ) ^ places ≠ 0 := by positivity
  rw [(expansion_plain n places).places_eq_nil_iff, expansion_value]
  constructor
  · rintro ⟨m, hm⟩
    rw [div_eq_iff hpow, mul_comm] at hm
    exact ⟨m, by exact_mod_cast hm⟩
  · rintro ⟨m, rfl⟩
    refine ⟨m, ?_⟩
    rw [div_eq_iff hpow, mul_comm]
    push_cast
    rfl

end Numeral

end MetricWire
