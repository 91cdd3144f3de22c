import MetricWire.Proofs.Binary.Round
import MetricWire.Proofs.Binary.Text

/-!
How far rounding moves a rational, and in which order it leaves two of them.

  1. `Binary.Rounds.magnitude_mono`, `Binary.Rounds.value_mono` — rounding keeps the order;
     `Binary.numeral_value_mono` — and so does the numeral that is written.
  2. `Binary.Rounds.abs_sub_le` — a number with a full significand is within half a unit of its last bit of what
     rounds to it, so the error is a fixed part of the number.
  3. `roundings_error` — what is left of three such errors, one after the other.
-/

namespace MetricWire

namespace Layout

variable (f : Layout)

theorem gap_mono {m n : Nat} (h : m ≤ n) : f.gap m ≤ f.gap n := by
  have hfield : m / 2 ^ f.fractionBits ≤ n / 2 ^ f.fractionBits := Nat.div_le_div_right h
  unfold gap
  apply zpow_le_zpow_right₀ (by norm_num)
  omega

end Layout

namespace Binary

variable {f : Layout} {x y : Binary f} {q r : ℚ}

/-- Of two rationals in order, the lower one does not round to the higher number. -/
theorem Rounds.magnitude_mono (hf : 0 < f.fractionBits) (hx : Rounds q x) (hy : Rounds r y) (h : q ≤ r) :
    x.magnitude ≤ y.magnitude := by
  by_contra hlt
  have hvalue : y.value < x.value := f.strictMono_point (by omega)
  have hq := hx.2 y hy.1 (by omega)
  have hr := hy.2 x hx.1 (by omega)
  rw [dist_gt_iff hvalue, eq_comm, dist_eq_iff hvalue] at hq
  rw [dist_lt_iff hvalue, dist_eq_iff hvalue] at hr
  -- they are on either side of the middle, so both are the middle, which rounds to one number only
  have hmiddle : q = r := by
    rcases hq with hq | ⟨hq, -⟩ <;> rcases hr with hr | ⟨hr, -⟩ <;> linarith
  rw [hmiddle] at hx
  have := hx.magnitude_eq hf hy
  omega

theorem Rounds.value_mono (hf : 0 < f.fractionBits) (hx : Rounds q x) (hy : Rounds r y) (h : q ≤ r) :
    x.value ≤ y.value :=
  f.strictMono_point.monotone (hx.magnitude_mono hf hy h)

/-- Sign aside, the digits that are written depend on the magnitude alone. -/
theorem shortest_congr (h : x.magnitude = y.magnitude) : x.shortest = y.shortest := by
  have hfield : x.exponentField = y.exponentField := by rw [exponentField, exponentField, h]
  have hfraction : x.fraction = y.fraction := by rw [fraction, fraction, h]
  have hsignificand : x.significand = y.significand := by rw [significand, significand, hfield, hfraction]
  have hinterval : x.roundingInterval = y.roundingInterval := by
    rw [roundingInterval, roundingInterval, isLowestOfBinade, isLowestOfBinade, exponent, exponent, hsignificand,
      hfield, hfraction]
  rw [shortest, shortest, isZero, isZero, h, hinterval]

theorem numeral_value_mono (hf : 0 < f.fractionBits) (hx : x.isFinite = true) (hy : y.isFinite = true)
    (h : x.magnitude ≤ y.magnitude) : x.numeral.value ≤ y.numeral.value := by
  by_contra hlt
  -- in the other order the two numerals would round to numbers in the other order
  have hge := (isShortest_numeral hy).rounds.magnitude_mono hf (isShortest_numeral hx).rounds (not_le.mp hlt).le
  refine hlt (le_of_eq ?_)
  rw [numeral, numeral, Decimal.numeral_value, Decimal.numeral_value, shortest_congr (Nat.le_antisymm h hge)]

theorem le_significand (hx : 2 ^ f.fractionBits ≤ x.magnitude) : 2 ^ f.fractionBits ≤ x.significand := by
  have hfield : 0 < x.exponentField := Nat.div_pos hx (Nat.two_pow_pos _)
  rw [significand, if_neg (by omega)]
  exact Nat.le_add_right _ _

/-- **The error of one rounding.** -/
theorem Rounds.abs_sub_le (h : Rounds q x) (hfinite : x.isFinite = true) (hx : 2 ^ f.fractionBits ≤ x.magnitude) :
    |q - x.value| ≤ x.value * (1 / 2 ^ (f.fractionBits + 1)) := by
  obtain ⟨n, hn⟩ : ∃ n, x.magnitude = n + 1 :=
    ⟨x.magnitude - 1, by have := Nat.two_pow_pos f.fractionBits; omega⟩
  obtain ⟨hbelow, habove⟩ := (rounds_iff hfinite hn q).mp h
  have hlow : f.middle n ≤ q := hbelow.elim le_of_lt fun h => h.1.le
  have hhigh : q ≤ f.middle (n + 1) := habove.elim le_of_lt fun h => h.1.le
  have hpoint : x.value = f.point n + f.gap n := by rw [value_eq_point, hn, f.point_succ]
  have hgap : f.gap n ≤ f.gap (n + 1) := f.gap_mono (Nat.le_succ n)
  have hhalf : f.gap (n + 1) / 2 ≤ x.value * (1 / 2 ^ (f.fractionBits + 1)) := by
    have hfull : (2 : ℚ) ^ f.fractionBits ≤ x.significand := by exact_mod_cast le_significand hx
    rw [← hn, gap_magnitude, value, mul_one_div, pow_succ, div_le_div_iff₀ (by norm_num) (by positivity)]
    calc (2 : ℚ) ^ x.exponent * (2 ^ f.fractionBits * 2)
        = 2 ^ f.fractionBits * 2 ^ x.exponent * 2 := by ring
      _ ≤ x.significand * 2 ^ x.exponent * 2 := by gcongr
  rw [Layout.middle] at hlow hhigh
  rw [f.point_succ] at hhigh
  rw [abs_le]
  constructor <;> linarith

end Binary

/-- Three errors of a part `u` add up to less than four of them, if `u` is small. -/
theorem roundings_error {u exact converted divided written : ℚ} (hu : 0 ≤ u) (hsmall : 7 * u ≤ 1)
    (hexact : |exact - converted| ≤ converted * u) (hconverted : |converted - divided| ≤ divided * u)
    (hwritten : |written - divided| ≤ divided * u) (hdivided : 0 ≤ divided) : |written - exact| ≤ 4 * u * exact := by
  rw [abs_le] at hexact hconverted hwritten
  have hhigh : written ≤ (1 + 4 * u) * exact :=
    calc written ≤ (1 + u) * divided := by linarith
      _ ≤ (1 + 4 * u) * ((1 - u) * ((1 - u) * divided)) := by
          have hgain : 0 ≤ u * (1 - 7 * u + 4 * u ^ 2) * divided := by
            have : 0 ≤ 1 - 7 * u + 4 * u ^ 2 := by nlinarith only [hsmall, sq_nonneg u]
            positivity
          linarith only [hgain]
      _ ≤ (1 + 4 * u) * ((1 - u) * converted) := by
          have : 0 ≤ 1 - u := by linarith
          gcongr
          linarith
      _ ≤ (1 + 4 * u) * exact := by
          gcongr
          linarith
  have hlow : (1 - 4 * u) * exact ≤ written :=
    calc (1 - 4 * u) * exact ≤ (1 - 4 * u) * ((1 + u) * converted) := by
          have : 0 ≤ 1 - 4 * u := by linarith
          gcongr
          linarith
      _ ≤ (1 - 4 * u) * ((1 + u) * ((1 + u) * divided)) := by
          have : 0 ≤ 1 - 4 * u := by linarith
          gcongr
          linarith
      _ ≤ (1 - u) * divided := by
          have hgain : 0 ≤ u * (1 + 7 * u + 4 * u ^ 2) * divided := by positivity
          linarith only [hgain]
      _ ≤ written := by linarith
  rw [abs_le]
  constructor <;> linarith

end MetricWire
