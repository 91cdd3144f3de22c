import MetricWire.Proofs.Binary.Grid
import MetricWire.Proofs.Decimal.Shortest

/-!
Rounding finds the nearest number, and comparisons are those of the values.

The exponent of the rounding puts a quotient into one row of the numbers: those of one exponent, `2 ^ exponent` apart.
There the whole part of the quotient is the number below it, the next number is the one above, and what
`roundHalfEven` chooses between the two is what `Binary.Rounds` asks for.

  1. `log2Ratio_spec` — the exponent of the leading bit.
  2. `Layout.exists_row`, `Layout.row_spec` — the row of a quotient, and its two neighbours there.
  3. `Binary.rounds_ofRatio` — the result of the rounding, on overflow infinity; `Binary.rounds_divNat` — one division.
  4. `Binary.Rounds.magnitude_le`, `Binary.Rounds.le_magnitude` — rounding does not pass a number.
  5. `Binary.value_ofRatio`, `Binary.value_convertAbs` — conversions without an error.
  6. `Binary.place_le_iff`, `Binary.atMost_iff` — numbers are compared by their bits, as signed integers. The bits
     without the sign grow with the absolute value, and both zeros have the same place. Patterns that are no numbers
     are at most nothing.
-/

namespace MetricWire

theorem log2Ratio_spec {num den : Nat} (hn : 0 < num) (hd : 0 < den) :
    (2 : ℚ) ^ log2Ratio num den ≤ num / den ∧ (num : ℚ) / den < 2 ^ (log2Ratio num den + 1) := by
  have hden : (0 : ℚ) < den := by exact_mod_cast hd
  have htwo : (0 : ℚ) < 2 := by norm_num
  rw [le_div_iff₀ hden, div_lt_iff₀ hden]
  -- both logarithms are off by less than one
  have hnum_le : (2 : ℚ) ^ num.log2 ≤ num := by exact_mod_cast Nat.log2_self_le (by omega)
  have hnum_lt : (num : ℚ) < 2 ^ (num.log2 + 1) := by exact_mod_cast Nat.lt_log2_self
  have hden_le : (2 : ℚ) ^ den.log2 ≤ den := by exact_mod_cast Nat.log2_self_le (by omega)
  have hden_lt : (den : ℚ) < 2 ^ (den.log2 + 1) := by exact_mod_cast Nat.lt_log2_self
  let guess : ℤ := num.log2 - den.log2
  have habove : (num : ℚ) < 2 ^ (guess + 1) * den :=
    calc (num : ℚ) < 2 ^ (num.log2 + 1) := hnum_lt
      _ = 2 ^ (guess + 1) * 2 ^ den.log2 := by
          rw [← zpow_natCast, ← zpow_natCast, ← zpow_add₀ htwo.ne']
          congr 1
          simp only [guess]
          push_cast
          ring
      _ ≤ 2 ^ (guess + 1) * den := mul_le_mul_of_nonneg_left hden_le (zpow_pos htwo _).le
  have hbelow : (2 : ℚ) ^ (guess - 1) * den ≤ num :=
    calc (2 : ℚ) ^ (guess - 1) * den ≤ 2 ^ (guess - 1) * 2 ^ (den.log2 + 1) :=
          mul_le_mul_of_nonneg_left hden_lt.le (zpow_pos htwo _).le
      _ = 2 ^ num.log2 := by
          rw [← zpow_natCast, ← zpow_natCast, ← zpow_add₀ htwo.ne']
          congr 1
          simp only [guess]
          push_cast
          ring
      _ ≤ num := hnum_le
  have htest : den * 2 ^ guess.toNat ≤ num * 2 ^ (-guess).toNat ↔ (2 : ℚ) ^ guess * den ≤ num := by
    have hscale : ((den * 2 ^ guess.toNat : Nat) : ℚ) = 2 ^ guess * den * 2 ^ (-guess).toNat := by
      push_cast
      rw [← zpow_mul_pow_toNat htwo.ne' guess]
      ring
    rw [← Nat.cast_le (α := ℚ), hscale]
    push_cast
    rw [mul_le_mul_iff_of_pos_right (pow_pos htwo _)]
  have hlog : log2Ratio num den =
      if den * 2 ^ guess.toNat ≤ num * 2 ^ (-guess).toNat then guess else guess - 1 := rfl
  rw [hlog]
  split
  · exact ⟨htest.mp ‹_›, habove⟩
  · rename_i h
    rw [htest, not_le] at h
    exact ⟨hbelow, by rwa [sub_add_cancel]⟩

/-- Of the two neighbours the nearer is chosen, and of two equally near the even one. -/
theorem roundHalfEven_spec (num : Nat) {den : Nat} (hd : 0 < den) :
    roundHalfEven num den = num / den ∧
      ((num : ℚ) / den < (num / den : Nat) + 1 / 2 ∨
        (num : ℚ) / den = (num / den : Nat) + 1 / 2 ∧ num / den % 2 = 0) ∨
    roundHalfEven num den = num / den + 1 ∧
      ((num / den : Nat) + 1 / 2 < (num : ℚ) / den ∨
        (num / den : Nat) + 1 / 2 = (num : ℚ) / den ∧ (num / den + 1) % 2 = 0) := by
  have hden : (0 : ℚ) < den := by exact_mod_cast hd
  have hnum : (num : ℚ) = den * (num / den : Nat) + (num % den : Nat) := by
    exact_mod_cast (Nat.div_add_mod num den).symm
  have hlow : 2 * (num % den) < den ↔ (num : ℚ) / den < (num / den : Nat) + 1 / 2 := by
    rw [div_lt_iff₀ hden, ← Nat.cast_lt (α := ℚ)]
    push_cast
    constructor <;> intro h <;> linarith
  have hhigh : den < 2 * (num % den) ↔ ((num / den : Nat) : ℚ) + 1 / 2 < num / den := by
    rw [lt_div_iff₀ hden, ← Nat.cast_lt (α := ℚ)]
    push_cast
    constructor <;> intro h <;> linarith
  simp only [roundHalfEven, hlow, hhigh]
  rcases lt_trichotomy ((num : ℚ) / den) ((num / den : Nat) + 1 / 2) with h | h | h
  · left
    exact ⟨if_pos h, .inl h⟩
  · rw [if_neg h.not_lt, if_neg h.not_gt]
    rcases Nat.mod_two_eq_zero_or_one (num / den) with heven | hodd
    · left
      exact ⟨by rw [heven, Nat.add_zero], .inr ⟨h, heven⟩⟩
    · right
      exact ⟨by rw [hodd], .inr ⟨h.symm, by omega⟩⟩
  · right
    exact ⟨by rw [if_neg h.not_gt, if_pos h], .inl h⟩

theorem scaled_div (num den : Nat) (e : ℤ) :
    ((num * 2 ^ (-e).toNat : Nat) : ℚ) / (den * 2 ^ e.toNat : Nat) = num / den / 2 ^ e := by
  have hpow : (2 : ℚ) ^ e * 2 ^ (-e).toNat = 2 ^ e.toNat := zpow_mul_pow_toNat (by norm_num) e
  push_cast
  rw [← hpow, div_div, ← mul_assoc, mul_div_mul_right _ _ (by positivity)]

namespace Layout

variable (f : Layout) {k j : Nat}

/-- A row is made of the numbers of one exponent: `j` is a significand for the `k`-th exponent. Only in the lowest row
there are significands without a leading one. -/
structure Row (k j : Nat) : Prop where
  full : k = 0 ∨ 2 ^ f.fractionBits ≤ j
  lt : j < 2 * 2 ^ f.fractionBits

theorem gap_row (h : f.Row k j) : f.gap (k * 2 ^ f.fractionBits + j) = 2 ^ (f.minExponent + k) := by
  obtain ⟨hfull, hj⟩ := h
  have hP : 0 < 2 ^ f.fractionBits := Nat.two_pow_pos _
  unfold gap
  generalize 2 ^ f.fractionBits = P at *
  rcases Nat.lt_or_ge j P with hlt | hge
  · obtain rfl : k = 0 := by omega
    rw [Nat.zero_mul, Nat.zero_add, Nat.div_eq_of_lt hlt]
  · have hdiv : (k * P + j) / P = k + 1 := by
      refine Nat.div_eq_of_lt_le ?_ ?_
      · rw [Nat.succ_mul]
        omega
      · rw [Nat.succ_mul, Nat.succ_mul]
        omega
    rw [hdiv, Nat.add_sub_cancel]

theorem point_row (h : f.Row k j) : f.point (k * 2 ^ f.fractionBits + j) = j * 2 ^ (f.minExponent + k) := by
  have hP : 0 < 2 ^ f.fractionBits := Nat.two_pow_pos _
  rw [point, f.gap_row h]
  obtain ⟨hfull, hj⟩ := h
  congr 2
  generalize 2 ^ f.fractionBits = P at *
  rcases Nat.lt_or_ge j P with hlt | hge
  · obtain rfl : k = 0 := by omega
    rw [Nat.zero_mul, Nat.zero_add, Nat.div_eq_of_lt hlt, if_pos rfl, Nat.mod_eq_of_lt hlt]
  · obtain ⟨hdiv, hmod⟩ := (Nat.div_mod_unique (a := k * P + j) (d := k + 1) (c := j - P) hP).mpr
      ⟨by rw [Nat.mul_succ, Nat.mul_comm]; omega, by omega⟩
    rw [hdiv, hmod, if_neg (Nat.succ_ne_zero k)]
    omega

theorem point_binade (k : Nat) :
    f.point ((k + 1) * 2 ^ f.fractionBits) = 2 ^ f.fractionBits * 2 ^ (f.minExponent + k) := by
  have hP : 0 < 2 ^ f.fractionBits := Nat.two_pow_pos _
  rw [Nat.succ_mul, f.point_row ⟨.inr le_rfl, by omega⟩]
  push_cast
  rfl

theorem point_one (hb : 0 < f.bias) : f.point (f.bias * 2 ^ f.fractionBits) = 1 := by
  obtain ⟨k, hk⟩ : ∃ k, f.bias = k + 1 := ⟨f.bias - 1, by omega⟩
  have hexponent : f.minExponent + (k : ℤ) = -(f.fractionBits : ℤ) := by
    rw [minExponent, hk]
    push_cast
    ring
  rw [hk, f.point_binade, hexponent, zpow_neg, zpow_natCast, mul_inv_cancel₀ (by positivity)]

/-- Every significand has a number at every exponent, in a lower row if it has no leading one. -/
theorem exists_point (k : Nat) {m : Nat} (hm : m < 2 * 2 ^ f.fractionBits) :
    ∃ n, f.point n = m * 2 ^ (f.minExponent + k) := by
  induction k generalizing m with
  | zero => exact ⟨_, f.point_row ⟨.inl rfl, hm⟩⟩
  | succ k ih =>
    rcases Nat.lt_or_ge m (2 ^ f.fractionBits) with hlt | hge
    · obtain ⟨n, hn⟩ := ih (m := 2 * m) (by omega)
      refine ⟨n, hn.trans ?_⟩
      rw [Nat.cast_succ, ← add_assoc, zpow_add_one₀ (by norm_num)]
      push_cast
      ring
    · exact ⟨_, f.point_row ⟨.inr hge, hm⟩⟩

/-- The exponent of the rounding puts a quotient into a row: counted in the gaps of the row, its whole part is a
significand there. -/
theorem exists_row {num den : Nat} (hn : 0 < num) (hd : 0 < den) :
    let e := f.roundingExponent num den
    let whole := num * 2 ^ (-e).toNat / (den * 2 ^ e.toNat)
    ∃ k : Nat, e = f.minExponent + k ∧ f.Row k whole := by
  intro e whole
  have he : e = max (log2Ratio num den - f.fractionBits) f.minExponent := rfl
  have hB : 0 < den * 2 ^ e.toNat := Nat.mul_pos hd (Nat.two_pow_pos _)
  have hBq : (0 : ℚ) < (den * 2 ^ e.toNat : Nat) := by exact_mod_cast hB
  have hunit : (0 : ℚ) < 2 ^ e := zpow_pos (by norm_num) _
  obtain ⟨hle, hlt⟩ := log2Ratio_spec hn hd
  refine ⟨(e - f.minExponent).toNat, by omega, ?_, ?_⟩
  · by_cases hk : e = f.minExponent
    · left
      omega
    · right
      -- above the smallest exponent the leading bit is the leading bit of the significand
      have hleading : log2Ratio num den = f.fractionBits + e := by omega
      rw [Nat.le_div_iff_mul_le hB, ← Nat.cast_le (α := ℚ), Nat.cast_mul, ← le_div_iff₀ hBq, scaled_div,
        le_div_iff₀ hunit]
      rw [hleading, zpow_add₀ (by norm_num), zpow_natCast] at hle
      exact_mod_cast hle
  · have hleading : log2Ratio num den + 1 ≤ (f.fractionBits + 1 : Nat) + e := by omega
    have hpow : (2 : ℚ) ^ (log2Ratio num den + 1) ≤ 2 ^ (f.fractionBits + 1) * 2 ^ e := by
      rw [← zpow_natCast, ← zpow_add₀ (by norm_num)]
      exact zpow_le_zpow_right₀ (by norm_num) hleading
    rw [Nat.div_lt_iff_lt_mul hB, ← Nat.cast_lt (α := ℚ), Nat.cast_mul (2 * 2 ^ f.fractionBits),
      ← div_lt_iff₀ hBq, scaled_div, div_lt_iff₀ hunit]
    refine lt_of_lt_of_le hlt (hpow.trans_eq ?_)
    push_cast
    ring

end Layout

namespace Binary

variable {f : Layout} {x : Binary f} {q : ℚ}

/-- What is not below the largest number rounds to it. -/
theorem rounds_infinity (hle : f.point f.infinity ≤ q) (hx : x.magnitude = f.infinity) : Rounds q x := by
  refine ⟨isNaN_eq_false.mpr hx.le, fun y hy hne => ?_⟩
  have hbelow : f.point y.magnitude < f.point x.magnitude := by
    have hym := isNaN_eq_false.mp hy
    exact f.strictMono_point (by omega)
  left
  rw [value_eq_point, value_eq_point, dist_gt_iff hbelow]
  rw [hx] at hbelow ⊢
  linarith

end Binary

namespace Layout

variable (f : Layout)

theorem nearest_le_infinity (num den : Nat) : f.nearest num den ≤ f.infinity := by
  unfold nearest
  split
  · exact Nat.zero_le _
  · exact Nat.min_le_left _ _

/-- In a row the numbers are as far apart as the naturals, but for the gap, so a quotient of naturals decides. -/
theorem row_spec (hf : 0 < f.fractionBits) {k num den : Nat} {q : ℚ} (hd : 0 < den) (hrow : f.Row k (num / den))
    (hq : (num : ℚ) / den = q / 2 ^ (f.minExponent + k)) :
    let n := k * 2 ^ f.fractionBits + num / den
    let m := k * 2 ^ f.fractionBits + roundHalfEven num den
    f.point n ≤ q ∧ q < f.point (n + 1) ∧
      (m = n ∧ (q < f.middle n ∨ q = f.middle n ∧ n % 2 = 0) ∨
        m = n + 1 ∧ (f.middle n < q ∨ f.middle n = q ∧ (n + 1) % 2 = 0)) := by
  intro n m
  have hden : (0 : ℚ) < den := by exact_mod_cast hd
  have hgap : (0 : ℚ) < 2 ^ (f.minExponent + k) := zpow_pos (by norm_num) _
  have hpoint : f.point n = (num / den : Nat) * 2 ^ (f.minExponent + k) := f.point_row hrow
  have hnext : f.point (n + 1) = ((num / den : Nat) + 1) * 2 ^ (f.minExponent + k) := by
    rw [f.point_succ, hpoint, f.gap_row hrow]
    ring
  have hmiddle : f.middle n = ((num / den : Nat) + 1 / 2) * 2 ^ (f.minExponent + k) := by
    rw [middle, hpoint, f.gap_row hrow]
    ring
  have heven : n % 2 = num / den % 2 := by
    obtain ⟨p, hp⟩ : ∃ p, f.fractionBits = p + 1 := ⟨f.fractionBits - 1, by omega⟩
    have hn : n = 2 * (k * 2 ^ p) + num / den := by
      simp only [n, hp, Nat.pow_succ]
      ring
    rw [hn, Nat.mul_add_mod]
  have hround := roundHalfEven_spec num hd
  rw [hq, div_lt_iff₀ hgap, lt_div_iff₀ hgap, div_eq_iff hgap.ne', eq_div_iff hgap.ne', ← hmiddle] at hround
  refine ⟨?_, ?_, ?_⟩
  · rw [hpoint, ← le_div_iff₀ hgap, ← hq, le_div_iff₀ hden]
    exact_mod_cast Nat.div_mul_le_self num den
  · rw [hnext, ← div_lt_iff₀ hgap, ← hq, div_lt_iff₀ hden]
    exact_mod_cast Nat.lt_mul_of_div_lt (Nat.lt_succ_self _) hd
  · rcases hround with ⟨hm, h⟩ | ⟨hm, h⟩
    · left
      exact ⟨by simp only [m, n, hm], by rwa [heven]⟩
    · right
      refine ⟨by simp only [m, n, hm]; omega, ?_⟩
      rwa [Nat.add_mod, heven, ← Nat.add_mod]

/-- The number below a quotient and the one above it, and which of the two is found. -/
theorem nearest_spec (hf : 0 < f.fractionBits) {num den : Nat} (hn : 0 < num) (hd : 0 < den) :
    ∃ n : Nat, f.point n ≤ num / den ∧ (num : ℚ) / den < f.point (n + 1) ∧
      (f.nearest num den = min f.infinity n ∧
          ((num : ℚ) / den < f.middle n ∨ (num : ℚ) / den = f.middle n ∧ n % 2 = 0) ∨
        f.nearest num den = min f.infinity (n + 1) ∧
          (f.middle n < num / den ∨ f.middle n = num / den ∧ (n + 1) % 2 = 0)) := by
  obtain ⟨k, he, hrow⟩ := f.exists_row hn hd
  have hden : 0 < den * 2 ^ (f.roundingExponent num den).toNat := Nat.mul_pos hd (Nat.two_pow_pos _)
  have hquotient : ((num * 2 ^ (-f.roundingExponent num den).toNat : Nat) : ℚ) /
      (den * 2 ^ (f.roundingExponent num den).toNat : Nat) = num / den / 2 ^ (f.minExponent + k) := by
    rw [← he]
    exact scaled_div num den _
  have hk : (f.roundingExponent num den - f.minExponent).toNat = k := by omega
  have hnearest : f.nearest num den = min f.infinity (k * 2 ^ f.fractionBits + roundHalfEven
      (num * 2 ^ (-f.roundingExponent num den).toNat) (den * 2 ^ (f.roundingExponent num den).toNat)) := by
    rw [Layout.nearest, if_neg (by omega)]
    simp only [hk]
  obtain ⟨hle, hlt, h⟩ := f.row_spec hf hden hrow hquotient
  refine ⟨_, hle, hlt, ?_⟩
  rw [hnearest]
  rcases h with ⟨hm, h⟩ | ⟨hm, h⟩
  · left
    exact ⟨by rw [hm], h⟩
  · right
    exact ⟨by rw [hm], h⟩

end Layout

namespace Binary

variable {f : Layout}

theorem magnitude_ofRatio (num den : Nat) : (ofRatio num den : Binary f).magnitude = f.nearest num den :=
  magnitude_ofBits (Nat.lt_of_le_of_lt (f.nearest_le_infinity num den) (infinity_lt f))

theorem isNegative_ofRatio (num den : Nat) : (ofRatio num den : Binary f).isNegative = false :=
  isNegative_ofBits (Nat.lt_of_le_of_lt (f.nearest_le_infinity num den) (infinity_lt f))

theorem isNaN_ofRatio (num den : Nat) : (ofRatio num den : Binary f).isNaN = false := by
  rw [isNaN_eq_false, magnitude_ofRatio]
  exact f.nearest_le_infinity num den

/-- **Rounding is correct.** -/
theorem rounds_ofRatio (hf : 0 < f.fractionBits) (num : Nat) {den : Nat} (hd : 0 < den) :
    Rounds (num / den) (ofRatio num den : Binary f) := by
  have hnumber := isNaN_ofRatio (f := f) num den
  have hmagnitude := magnitude_ofRatio (f := f) num den
  rcases Nat.eq_zero_or_pos num with rfl | hn
  · rw [Nat.cast_zero, zero_div]
    exact rounds_zero hmagnitude
  obtain ⟨n, hle, hlt, hnearest⟩ := f.nearest_spec hf hn hd
  rw [← hmagnitude] at hnearest
  rcases Nat.lt_or_ge n f.infinity with hfinite | hoverflow
  · rw [Nat.min_eq_right (by omega), Nat.min_eq_right (by omega)] at hnearest
    refine rounds_of_between hle hlt hnumber ?_
    rw [significand_mod_two hf]
    rcases hnearest with ⟨hm, h⟩ | ⟨hm, h⟩
    · exact .inl ⟨hm, by rwa [hm]⟩
    · exact .inr ⟨hm, by rwa [hm]⟩
  · rw [Nat.min_eq_left hoverflow, Nat.min_eq_left (by omega)] at hnearest
    refine rounds_infinity ((f.strictMono_point.monotone hoverflow).trans hle) ?_
    rcases hnearest with h | h <;> exact h.1

theorem value_eq_div (x : Binary f) : x.value = x.numerator / x.denominator := by
  have hpow : (2 : ℚ) ^ x.exponent * 2 ^ (-x.exponent).toNat = 2 ^ x.exponent.toNat :=
    zpow_mul_pow_toNat (by norm_num) x.exponent
  simp only [numerator, denominator]
  push_cast
  rw [← hpow, ← mul_assoc, mul_div_cancel_right₀ _ (by positivity), value]

/-- A division rounds once. -/
theorem rounds_divNat (hf : 0 < f.fractionBits) (x : Binary f) {d : Nat} (hd : 0 < d) :
    Rounds (x.value / d) (x.divNat d) := by
  have hden : 0 < x.denominator * d := Nat.mul_pos (Nat.two_pow_pos _) hd
  have hrounds := rounds_ofRatio (f := f) hf x.numerator hden
  rw [value_eq_div, div_div]
  exact_mod_cast hrounds

namespace Rounds
variable {x : Binary f} {q : ℚ} {n : Nat}

theorem magnitude_le (h : Rounds q x) (hq : q ≤ f.point n) (hn : n ≤ f.infinity) : x.magnitude ≤ n := by
  by_contra hlt
  obtain ⟨y, hy, hym⟩ := exists_magnitude hn
  have hbelow : f.point n < f.point x.magnitude := f.strictMono_point (by omega)
  have hnear := h.2 y hy (by omega)
  rw [value_eq_point, value_eq_point, hym, dist_gt_iff hbelow, eq_comm (a := |q - _|), dist_eq_iff hbelow] at hnear
  rcases hnear with h | ⟨h, -⟩ <;> linarith

theorem le_magnitude (h : Rounds q x) (hq : f.point n ≤ q) (hn : n ≤ f.infinity) : n ≤ x.magnitude := by
  by_contra hlt
  obtain ⟨y, hy, hym⟩ := exists_magnitude hn
  have habove : f.point x.magnitude < f.point n := f.strictMono_point (by omega)
  have hnear := h.2 y hy (by omega)
  rw [value_eq_point, value_eq_point, hym, dist_lt_iff habove, dist_eq_iff habove] at hnear
  rcases hnear with h | ⟨h, -⟩ <;> linarith

theorem value_eq (h : Rounds q x) (hq : q = f.point n) (hn : n ≤ f.infinity) : x.value = q := by
  have hle := h.magnitude_le hq.le hn
  have hge := h.le_magnitude hq.ge hn
  rw [value_eq_point, hq, Nat.le_antisymm hle hge]

end Rounds

/-! ## Exact conversions -/

theorem significand_lt (x : Binary f) : x.significand < 2 * 2 ^ f.fractionBits := by
  have hfraction : x.fraction < 2 ^ f.fractionBits := Nat.mod_lt _ (Nat.two_pow_pos _)
  unfold significand
  split <;> omega

/-- A quotient that a significand and an exponent of the layout express is converted without an error. -/
theorem value_ofRatio (hf : 0 < f.fractionBits) {num den m k : Nat} (hd : 0 < den) (hm : m < 2 * 2 ^ f.fractionBits)
    (hq : (num : ℚ) / den = m * 2 ^ (f.minExponent + k)) (hmax : (num : ℚ) / den ≤ f.point f.infinity) :
    (ofRatio num den : Binary f).value = num / den := by
  obtain ⟨n, hn⟩ := f.exists_point k hm
  rw [← hq] at hn
  rw [← hn, f.strictMono_point.le_iff_le] at hmax
  exact (rounds_ofRatio hf num hd).value_eq hn.symm hmax

theorem value_ofRatio_natCast (hf : 0 < f.fractionBits) {n : Nat} (hn : n < 2 ^ (f.fractionBits + 1))
    (hmin : f.minExponent ≤ 0) (hmax : (n : ℚ) < f.point f.infinity) : (ofRatio n 1 : Binary f).value = n := by
  have hzero : f.minExponent + ((-f.minExponent).toNat : ℤ) = 0 := by omega
  have hq : (n : ℚ) / (1 : Nat) = n * 2 ^ (f.minExponent + ((-f.minExponent).toNat : ℤ)) := by
    rw [hzero, zpow_zero, Nat.cast_one, div_one, mul_one]
  have hvalue := value_ofRatio hf Nat.one_pos (by rwa [Nat.pow_succ'] at hn) hq (by simpa using hmax.le)
  rwa [Nat.cast_one, div_one] at hvalue

/-- **Widening is exact.** A layout with as many fraction bits and exponents that reach as far down has every number of
another one, if it is not too large. -/
theorem value_convertAbs {g : Layout} (hg : 0 < g.fractionBits) (hbits : f.fractionBits ≤ g.fractionBits)
    (hmin : g.minExponent ≤ f.minExponent) {x : Binary f} (hmax : x.value ≤ g.point g.infinity) :
    (x.convertAbs : Binary g).value = x.value := by
  have hexponent : g.minExponent + ((x.exponent - g.minExponent).toNat : ℤ) = x.exponent := by
    rw [exponent]
    omega
  have hm : x.significand < 2 * 2 ^ g.fractionBits :=
    x.significand_lt.trans_le (Nat.mul_le_mul_left 2 (Nat.pow_le_pow_right Nat.two_pos hbits))
  have hq : (x.numerator : ℚ) / x.denominator =
      x.significand * 2 ^ (g.minExponent + ((x.exponent - g.minExponent).toNat : ℤ)) := by
    rw [hexponent, ← value_eq_div, value]
  have hd : 0 < x.denominator := Nat.two_pow_pos _
  rw [value_eq_div] at hmax
  rw [convertAbs, value_ofRatio hg hd hm hq hmax, ← value_eq_div]

end Binary

/-! ## Comparison -/

namespace Binary

variable {f : Layout}

/-- The exact value, with its sign. -/
def signed (x : Binary f) : ℚ := if x.isNegative then -x.value else x.value

theorem value_nonneg (x : Binary f) : 0 ≤ x.value := mul_nonneg (Nat.cast_nonneg _) (zpow_nonneg (by norm_num) _)

theorem value_le_iff {x y : Binary f} : x.value ≤ y.value ↔ x.magnitude ≤ y.magnitude :=
  f.strictMono_point.le_iff_le

theorem value_eq_zero_iff {x : Binary f} : x.value = 0 ↔ x.magnitude = 0 := by
  rw [value_eq_point, ← f.point_zero]
  exact f.strictMono_point.injective.eq_iff

theorem place_le_iff {x y : Binary f} : x.place ≤ y.place ↔ x.signed ≤ y.signed := by
  have hx := x.value_nonneg
  have hy := y.value_nonneg
  unfold place signed
  cases x.isNegative <;> cases y.isNegative <;> simp only [Bool.false_eq_true, if_false, if_true]
  case false.false => rw [value_le_iff, Nat.cast_le]
  case true.true => rw [neg_le_neg_iff, neg_le_neg_iff, value_le_iff, Nat.cast_le]
  case true.false => exact iff_of_true (by omega) (by linarith)
  case false.true =>
    -- only zero is as small as a number with a sign
    have hplaces : (x.magnitude : ℤ) ≤ -(y.magnitude : ℤ) ↔ x.magnitude = 0 ∧ y.magnitude = 0 := by omega
    have hvalues : x.value ≤ -y.value ↔ x.value = 0 ∧ y.value = 0 := by
      constructor
      · intro h
        exact ⟨by linarith, by linarith⟩
      · rintro ⟨hxz, hyz⟩
        rw [hxz, hyz, neg_zero]
    rw [hplaces, hvalues, value_eq_zero_iff, value_eq_zero_iff]

theorem atMost_iff {x y : Binary f} :
    x.atMost y = true ↔ x.isNaN = false ∧ y.isNaN = false ∧ x.signed ≤ y.signed := by
  simp [atMost, comparable, place_le_iff, and_assoc]

/-! ## Zero and one -/

theorem isNaN_ofBits {n : Nat} (h : n ≤ f.infinity) : (ofBits n : Binary f).isNaN = false := by
  rw [isNaN_eq_false, magnitude_ofBits (Nat.lt_of_le_of_lt h (infinity_lt f))]
  exact h

theorem signed_ofBits {n : Nat} (h : n ≤ f.infinity) : (ofBits n : Binary f).signed = f.point n := by
  have hlt := Nat.lt_of_le_of_lt h (infinity_lt f)
  rw [signed, isNegative_ofBits hlt, if_neg Bool.false_ne_true, value_eq_point, magnitude_ofBits hlt]

theorem bias_le_infinity (f : Layout) : f.bias * 2 ^ f.fractionBits ≤ f.infinity := by
  have hpow : 2 ^ (f.exponentBits - 1) ≤ 2 ^ f.exponentBits := Nat.pow_le_pow_right Nat.two_pos (Nat.sub_le _ _)
  rw [Layout.infinity, Layout.bias]
  exact Nat.mul_le_mul_right _ (Nat.sub_le_sub_right hpow 1)

theorem isNaN_one : (one : Binary f).isNaN = false := isNaN_ofBits (bias_le_infinity f)

theorem signed_one (hb : 0 < f.bias) : (one : Binary f).signed = 1 :=
  (signed_ofBits (bias_le_infinity f)).trans (f.point_one hb)

theorem isNaN_zero : (ofBits 0 : Binary f).isNaN = false := isNaN_ofBits (Nat.zero_le _)

theorem signed_zero : (ofBits 0 : Binary f).signed = 0 := (signed_ofBits (Nat.zero_le _)).trans f.point_zero

end Binary

end MetricWire
