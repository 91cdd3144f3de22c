import MetricWire.Proofs.Binary.Grid
import MetricWire.Proofs.Decimal.Positional

/-!
The text of a finite number is the shortest numeral that reads as it.

The rounding interval of a number holds the rationals that round to it, so what the search finds there is what
`Binary.IsShortest` asks for. It says so with no word of the search: the numeral is plain, its sign is the sign
bit, its exact value rounds to the number, and no numeral that rounds to it needs fewer digits. A numeral rounds to
one number only, so two numbers share no text (`Binary.IsShortest.unique`).
-/

namespace MetricWire

/-! ## The rounding interval -/

namespace Binary

variable {f : Layout} {x : Binary f} {n : Nat}

theorem significand_pos (hn : x.magnitude = n + 1) : 0 < x.significand := by
  have hmagnitude := Nat.div_add_mod x.magnitude (2 ^ f.fractionBits)
  have hP := Nat.two_pow_pos f.fractionBits
  unfold significand
  split
  · rename_i hfield
    rw [exponentField] at hfield
    rw [hfield, Nat.mul_zero, Nat.zero_add] at hmagnitude
    rw [fraction]
    omega
  · omega

theorem gap_magnitude (x : Binary f) : f.gap x.magnitude = 2 ^ x.exponent := rfl

/-- The gap below a number is as wide as the gap above it, but half as wide below the lowest number of a binade. -/
theorem gap_below (hn : x.magnitude = n + 1) :
    f.gap n = 2 ^ (x.exponent - if x.isLowestOfBinade then 1 else 0) := by
  have hP := Nat.two_pow_pos f.fractionBits
  have hmagnitude : 2 ^ f.fractionBits * x.exponentField + x.fraction = n + 1 := by
    rw [← hn]
    exact Nat.div_add_mod _ _
  have hfraction : x.fraction < 2 ^ f.fractionBits := Nat.mod_lt _ hP
  rw [Layout.gap, exponent]
  congr 1
  by_cases hzero : x.fraction = 0
  · -- the bits before those of the first fraction are of the binade below
    have hfield : 0 < x.exponentField := by
      rcases Nat.eq_zero_or_pos x.exponentField with h | h
      · rw [h] at hmagnitude
        omega
      · exact h
    have hprevious : n / 2 ^ f.fractionBits = x.exponentField - 1 := by
      refine Nat.div_eq_of_lt_le ?_ ?_
      · rw [Nat.sub_mul, Nat.mul_comm]
        omega
      · rw [Nat.sub_add_cancel hfield, Nat.mul_comm]
        omega
    rw [hprevious]
    simp only [isLowestOfBinade, hzero, beq_self_eq_true, Bool.true_and, decide_eq_true_eq]
    split <;> omega
  · have hsame : n / 2 ^ f.fractionBits = x.exponentField := by
      refine Nat.div_eq_of_lt_le ?_ ?_
      · rw [Nat.mul_comm]
        omega
      · rw [Nat.succ_mul, Nat.mul_comm]
        omega
    simp [hsame, isLowestOfBinade, hzero]

theorem roundingInterval_proper (hn : x.magnitude = n + 1) : x.roundingInterval.Proper := by
  have hpos := significand_pos hn
  constructor <;> simp only [roundingInterval]
  · split <;> omega
  · split <;> omega
  · omega

/-- The ends of the interval are the middles of the gaps. -/
theorem roundingInterval_ends (hn : x.magnitude = n + 1) :
    (x.roundingInterval.lower : ℚ) * 2 ^ x.roundingInterval.unit = f.middle n ∧
      (x.roundingInterval.upper : ℚ) * 2 ^ x.roundingInterval.unit = f.middle (n + 1) := by
  have hpos := significand_pos hn
  have hvalue : f.point (n + 1) = x.significand * 2 ^ x.exponent := by rw [← hn]; rfl
  have hquarter : (2 : ℚ) ^ (x.exponent - 2) = 2 ^ x.exponent / 4 := by
    rw [zpow_sub₀ (by norm_num)]
    norm_num
  simp only [roundingInterval, hquarter]
  constructor
  · rw [f.middle_eq n, f.point_succ n] at *
    rw [show f.point n = x.significand * 2 ^ x.exponent - f.gap n by linarith, gap_below hn]
    split
    · rw [zpow_sub_one₀ (by norm_num), Nat.cast_sub (by omega)]
      push_cast
      ring
    · rw [sub_zero, Nat.cast_sub (by omega)]
      push_cast
      ring
  · rw [Layout.middle, hvalue, ← hn, gap_magnitude]
    push_cast
    ring

/-- The interval holds what rounds to the number. -/
theorem mem_roundingInterval_iff (hx : x.isFinite = true) (hn : x.magnitude = n + 1) (q : ℚ) :
    x.roundingInterval.Mem q ↔ x.Rounds q := by
  obtain ⟨hlower, hupper⟩ := roundingInterval_ends hn
  rw [rounds_iff hx hn, RoundingInterval.Mem, hlower, hupper]
  simp only [roundingInterval, beq_iff_eq]
  split
  · rename_i heven
    simp only [heven, and_true, le_iff_lt_or_eq]
  · rename_i hodd
    simp only [hodd, and_false, or_false]

theorem roundingInterval_width (x : Binary f) :
    (x.roundingInterval.upper : ℚ) * 2 ^ x.roundingInterval.unit -
      x.roundingInterval.lower * 2 ^ x.roundingInterval.unit ≤ 2 ^ x.exponent := by
  have hwidth : (x.roundingInterval.upper : ℚ) ≤ x.roundingInterval.lower + 4 := by
    have hnat : x.roundingInterval.upper ≤ x.roundingInterval.lower + 4 := by
      simp only [roundingInterval]
      split <;> omega
    exact_mod_cast hnat
  have hunit : (2 : ℚ) ^ x.exponent = 4 * 2 ^ x.roundingInterval.unit := by
    rw [roundingInterval, zpow_sub₀ (by norm_num)]
    ring
  rw [hunit, ← sub_mul]
  exact mul_le_mul_of_nonneg_right (by linarith) (RoundingInterval.two_zpow_pos _).le

theorem shortest_eq (hn : x.magnitude = n + 1) : x.shortest = x.roundingInterval.shortest :=
  if_neg (by simp [isZero, hn])

/-- A decimal that rounds to a number, from a grid wider than the gap above it, is written back exactly. -/
theorem shortest_value_eq (hx : x.isFinite = true) (hn : x.magnitude = n + 1) {k : Nat} {g : ℤ}
    (hround : x.Rounds (k * 10 ^ g)) (hgap : (2 : ℚ) ^ x.exponent < 10 ^ g) : x.shortest.value = k * 10 ^ g := by
  rw [← mem_roundingInterval_iff hx hn] at hround
  rw [shortest_eq hn]
  exact RoundingInterval.shortest_value_eq (roundingInterval_proper hn) hround
    (lt_of_le_of_lt x.roundingInterval_width hgap)

end Binary

/-! ## The shortest numeral -/

namespace Binary

variable {f : Layout}

/-- A numeral reads as the number, and none that does has fewer significant digits. -/
structure IsShortest (x : Binary f) (w : Numeral) : Prop where
  plain : w.Plain
  sign : w.negative = x.isNegative
  rounds : Rounds w.value x
  fewest : ∀ v : Numeral, (∀ c ∈ v.digits, c.isDigit = true) → Rounds v.value x → w.significant ≤ v.significant

theorem eq_of_sign_magnitude {x y : Binary f} (hs : x.isNegative = y.isNegative) (hm : x.magnitude = y.magnitude) :
    x = y := by
  have hhalf : 2 ^ f.width = 2 * 2 ^ (f.exponentBits + f.fractionBits) := by rw [Layout.width, Nat.pow_add, Nat.pow_one]
  have hx := x.bits.isLt
  have hy := y.bits.isLt
  simp only [isNegative, BitVec.msb_eq_decide, Layout.width, Nat.add_sub_cancel_left, decide_eq_decide] at hs
  have hbits : x.bits.toNat = y.bits.toNat := by
    unfold magnitude at hm
    rw [hhalf] at hx hy
    generalize 2 ^ (f.exponentBits + f.fractionBits) = P at *
    have hxm := Nat.div_add_mod x.bits.toNat P
    have hym := Nat.div_add_mod y.bits.toNat P
    have hxy : x.bits.toNat / P = y.bits.toNat / P := by
      rcases Nat.lt_or_ge x.bits.toNat P with h | h
      · rw [Nat.div_eq_of_lt h, Nat.div_eq_of_lt (by omega)]
      · have hone : ∀ n, P ≤ n → n < 2 * P → n / P = 1 := fun n hle hlt =>
          Nat.div_eq_of_lt_le (by omega) (by omega)
        rw [hone _ h hx, hone _ (hs.mp h) hy]
    rw [← hxm, ← hym, hxy, hm]
  cases x
  cases y
  exact congrArg Binary.mk (BitVec.eq_of_toNat_eq hbits)

theorem IsShortest.unique (hf : 0 < f.fractionBits) {x y : Binary f} {v w : Numeral} (hv : x.IsShortest v)
    (hw : y.IsShortest w) (h : v.text = w.text) : x = y := by
  obtain rfl := hv.plain.text_injective hw.plain h
  exact eq_of_sign_magnitude (hv.sign.symm.trans hw.sign) (hv.rounds.magnitude_eq hf hw.rounds)

/-! ## The numeral that is written -/

def numeral (x : Binary f) : Numeral := x.shortest.numeral x.isNegative

variable {x : Binary f}

theorem isNaN_of_isFinite (hx : x.isFinite = true) : x.isNaN = false := by
  simp only [isFinite, isNaN, decide_eq_true_eq, decide_eq_false_iff_not] at *
  omega

theorem isInfinite_of_isFinite (hx : x.isFinite = true) : x.isInfinite = false := by
  simp only [isFinite, isInfinite, decide_eq_true_eq, beq_eq_false_iff_ne] at *
  omega

theorem text_of_isFinite (hx : x.isFinite = true) : x.text = .ofList x.numeral.text := by
  rw [numeral, Decimal.numeral_text, text, signText, body]
  simp only [isNaN_of_isFinite hx, isInfinite_of_isFinite hx, Bool.false_eq_true, if_false, Format.sign]

theorem isShortest_of_zero (hx : x.magnitude = 0) : x.IsShortest x.numeral := by
  have hshortest : x.shortest = ⟨0, 0⟩ := if_pos (by simp [isZero, hx])
  rw [numeral, hshortest]
  refine ⟨Decimal.numeral_plain _ _ (by decide), rfl, ?_, fun v _ _ => ?_⟩
  · rw [Decimal.numeral_value, Decimal.value, Nat.cast_zero, zero_mul]
    exact rounds_zero hx
  · exact Nat.le_trans (Decimal.significant_numeral_le _ _ (s := 0) (by decide)) (Nat.zero_le _)

theorem isShortest_numeral (hx : x.isFinite = true) : x.IsShortest x.numeral := by
  cases hn : x.magnitude with
  | zero => exact isShortest_of_zero hn
  | succ n =>
    have hproper := roundingInterval_proper hn
    have hmem := mem_roundingInterval_iff hx hn
    rw [numeral, shortest_eq hn]
    refine ⟨Decimal.numeral_plain _ _ fun _ => RoundingInterval.shortest_coefficient_mod_ten hproper, rfl, ?_,
      fun v hdigits hv => ?_⟩
    · rw [Decimal.numeral_value, ← hmem]
      exact RoundingInterval.shortest_mem hproper
    · obtain ⟨c, e, hc, hvalue⟩ := Numeral.exists_coefficient hdigits
      rw [hvalue, ← hmem] at hv
      exact Decimal.significant_numeral_le _ _ (RoundingInterval.shortest_coefficient_lt hproper hc hv)

end Binary

end MetricWire
