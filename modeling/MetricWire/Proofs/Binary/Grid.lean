import Mathlib.Algebra.Order.Field.Power
import Mathlib.Data.Rat.Cast.Order
import Mathlib.Tactic.Linarith
import Mathlib.Tactic.Ring
import MetricWire.Number.Basic

/-!
The numbers of a layout as points on the line.

`Binary.value` is the exact absolute value of a number, and `Binary.Rounds` says which rationals round to it: those
that no other number is as near to, a tie going to the even significand. By the bits without sign the numbers are
the points `Layout.point 0`, `Layout.point 1`, … in increasing order, so rounding is a matter of the two neighbours.

  1. `Layout.point_succ`, `Layout.strictMono_point` — the gap to the next point.
  2. `Binary.rounds_of_between` — of two neighbours the nearer; `Binary.rounds_iff` — what rounds to a number lies
     between the middles of its two gaps.
  3. `Binary.Rounds.magnitude_eq` — a rational rounds to one number only.
-/

namespace MetricWire

namespace Layout

variable (f : Layout)

/-- The distance from the number with these bits to the next one. -/
def gap (n : Nat) : ℚ := 2 ^ (f.minExponent + ((n / 2 ^ f.fractionBits - 1 : Nat) : ℤ))

/-- The number with these bits without sign. -/
def point (n : Nat) : ℚ :=
  ((if n / 2 ^ f.fractionBits = 0 then n % 2 ^ f.fractionBits
    else 2 ^ f.fractionBits + n % 2 ^ f.fractionBits : Nat) : ℚ) * f.gap n

theorem gap_pos (n : Nat) : 0 < f.gap n := zpow_pos (by norm_num) _

theorem point_zero : f.point 0 = 0 := by simp [point]

/-- Behind the last fraction of a binade comes the first one of the next binade, with a gap twice as wide. -/
theorem point_succ (n : Nat) : f.point (n + 1) = f.point n + f.gap n := by
  have hP : 0 < 2 ^ f.fractionBits := Nat.two_pow_pos _
  have hn := Nat.div_add_mod n (2 ^ f.fractionBits)
  have hr := Nat.mod_lt n hP
  unfold point gap
  generalize 2 ^ f.fractionBits = P at *
  generalize n / P = a at *
  generalize n % P = r at *
  rcases Nat.lt_or_ge (r + 1) P with hlt | hge
  · obtain ⟨hdiv, hmod⟩ := (Nat.div_mod_unique (a := n + 1) (d := a) (c := r + 1) hP).mpr ⟨by omega, hlt⟩
    rw [hdiv, hmod]
    split <;> push_cast <;> ring
  · have hlast : r + 1 = P := by omega
    have hnext : 0 + P * (a + 1) = n + 1 := by rw [Nat.mul_succ]; omega
    obtain ⟨hdiv, hmod⟩ := (Nat.div_mod_unique hP).mpr ⟨hnext, hP⟩
    rw [hdiv, hmod, if_neg (Nat.succ_ne_zero a), ← hlast]
    cases a with
    | zero => simp; ring
    | succ a =>
      have hdouble : (2 : ℚ) ^ (f.minExponent + ((a + 1 : Nat) : ℤ)) = 2 * 2 ^ (f.minExponent + (a : ℤ)) := by
        rw [Nat.cast_succ, ← add_assoc, zpow_add_one₀ (by norm_num)]
        ring
      simp only [Nat.add_sub_cancel, if_neg (Nat.succ_ne_zero a), hdouble]
      push_cast
      ring

theorem strictMono_point : StrictMono f.point :=
  strictMono_nat_of_lt_succ fun n => by
    rw [point_succ]
    linarith [f.gap_pos n]

/-- The middle between the number with these bits and the next one. -/
def middle (n : Nat) : ℚ := f.point n + f.gap n / 2

theorem middle_eq (n : Nat) : f.middle n = (f.point n + f.point (n + 1)) / 2 := by
  rw [middle, point_succ]
  ring

end Layout

/-! ## Rounding -/

namespace Binary

variable {f : Layout}

/-- The exact absolute value. Infinity stands for the first power of two behind the finite numbers. -/
def value (x : Binary f) : ℚ := x.significand * 2 ^ x.exponent

/-- A rational rounds to `x`: no other number is as near to it, unless two are equally near and the significand of
`x` is the even one. Signs are left aside. -/
def Rounds (q : ℚ) (x : Binary f) : Prop :=
  x.isNaN = false ∧ ∀ y : Binary f, y.isNaN = false → y.magnitude ≠ x.magnitude →
    |q - x.value| < |q - y.value| ∨ |q - x.value| = |q - y.value| ∧ x.significand % 2 = 0

theorem value_eq_point (x : Binary f) : x.value = f.point x.magnitude := rfl

theorem infinity_lt (f : Layout) : f.infinity < 2 ^ (f.exponentBits + f.fractionBits) := by
  rw [Layout.infinity, Nat.pow_add]
  exact Nat.mul_lt_mul_of_pos_right (Nat.sub_lt (Nat.two_pow_pos _) Nat.one_pos) (Nat.two_pow_pos _)

theorem ofBits_signed (negative : Bool) {n : Nat} (hn : n < 2 ^ (f.exponentBits + f.fractionBits)) :
    let x : Binary f := ofBits ((if negative then 2 ^ (f.exponentBits + f.fractionBits) else 0) + n)
    x.isNegative = negative ∧ x.magnitude = n := by
  intro x
  have hwidth : 2 ^ f.width = 2 * 2 ^ (f.exponentBits + f.fractionBits) := by
    rw [Layout.width, Nat.pow_add, Nat.pow_one]
  have hbits : x.bits.toNat = (if negative then 2 ^ (f.exponentBits + f.fractionBits) else 0) + n := by
    simp only [x, ofBits, BitVec.toNat_ofNat, hwidth]
    apply Nat.mod_eq_of_lt
    split <;> omega
  rw [isNegative, BitVec.msb_eq_decide, magnitude, hbits, Layout.width, Nat.add_sub_cancel_left]
  cases negative with
  | true => simp [Nat.mod_eq_of_lt hn]
  | false => simp [Nat.mod_eq_of_lt hn, hn]

theorem magnitude_ofBits {n : Nat} (h : n < 2 ^ (f.exponentBits + f.fractionBits)) :
    (ofBits n : Binary f).magnitude = n := by
  simpa using (ofBits_signed (f := f) false h).2

theorem isNegative_ofBits {n : Nat} (h : n < 2 ^ (f.exponentBits + f.fractionBits)) :
    (ofBits n : Binary f).isNegative = false := by
  simpa using (ofBits_signed (f := f) false h).1

theorem exists_magnitude {n : Nat} (h : n ≤ f.infinity) : ∃ y : Binary f, y.isNaN = false ∧ y.magnitude = n := by
  have hn := magnitude_ofBits (Nat.lt_of_le_of_lt h (infinity_lt f))
  refine ⟨ofBits n, ?_, hn⟩
  rw [isNaN, hn]
  simpa using h

theorem isNaN_eq_false {x : Binary f} : x.isNaN = false ↔ x.magnitude ≤ f.infinity := by
  simp [isNaN]

theorem significand_mod_two (hf : 0 < f.fractionBits) (x : Binary f) : x.significand % 2 = x.magnitude % 2 := by
  obtain ⟨k, hk⟩ : ∃ k, f.fractionBits = k + 1 := ⟨f.fractionBits - 1, by omega⟩
  have heven : 2 ^ f.fractionBits = 2 * 2 ^ k := by rw [hk, Nat.pow_succ, Nat.mul_comm]
  have hfraction : x.fraction % 2 = x.magnitude % 2 := by
    rw [fraction, heven, Nat.mod_mul_right_mod]
  unfold significand
  split <;> omega

end Binary

/-- Which of two points is nearer is a matter of the side of their middle. -/
theorem dist_lt_iff {a b q : ℚ} (h : a < b) : |q - a| < |q - b| ↔ q < (a + b) / 2 := by
  rw [← sq_lt_sq, ← sub_pos, show (q - b) ^ 2 - (q - a) ^ 2 = (b - a) * (a + b - 2 * q) by ring,
    mul_pos_iff_of_pos_left (sub_pos.mpr h)]
  constructor <;> intro h <;> linarith

theorem dist_gt_iff {a b q : ℚ} (h : a < b) : |q - b| < |q - a| ↔ (a + b) / 2 < q := by
  rw [← sq_lt_sq, ← sub_pos, show (q - a) ^ 2 - (q - b) ^ 2 = (b - a) * (2 * q - (a + b)) by ring,
    mul_pos_iff_of_pos_left (sub_pos.mpr h)]
  constructor <;> intro h <;> linarith

theorem dist_eq_iff {a b q : ℚ} (h : a < b) : |q - a| = |q - b| ↔ q = (a + b) / 2 := by
  have hlt := dist_lt_iff (q := q) h
  have hgt := dist_gt_iff (q := q) h
  constructor
  · intro heq
    rw [heq, lt_self_iff_false, false_iff, not_lt] at hlt
    rw [heq, lt_self_iff_false, false_iff, not_lt] at hgt
    exact le_antisymm hgt hlt
  · rintro rfl
    rw [lt_self_iff_false, iff_false, not_lt] at hlt hgt
    exact le_antisymm hgt hlt

namespace Binary

variable {f : Layout}

/-- What lies between two neighbours rounds to the nearer of them; the middle belongs to the even significand. -/
theorem rounds_of_between {x : Binary f} {n : Nat} {q : ℚ} (hle : f.point n ≤ q) (hlt : q < f.point (n + 1))
    (hx : x.isNaN = false)
    (h : x.magnitude = n ∧ (q < f.middle n ∨ q = f.middle n ∧ x.significand % 2 = 0) ∨
      x.magnitude = n + 1 ∧ (f.middle n < q ∨ f.middle n = q ∧ x.significand % 2 = 0)) : Rounds q x := by
  have hpoint := f.strictMono_point
  rw [f.middle_eq n] at h
  refine ⟨hx, fun y _ hy => ?_⟩
  rw [value_eq_point, value_eq_point]
  -- beyond the two neighbours the numbers are no nearer
  rcases h with ⟨hm, hnear⟩ | ⟨hm, hnear⟩ <;> rw [hm] at hy ⊢
  · rcases Nat.lt_or_gt_of_ne hy with hbelow | habove
    · left
      rw [dist_gt_iff (hpoint hbelow)]
      linarith [hpoint hbelow]
    · have hfar : f.point (n + 1) ≤ f.point y.magnitude := hpoint.monotone habove
      rw [dist_lt_iff (hpoint habove), dist_eq_iff (hpoint habove)]
      rcases hnear with hnear | ⟨hnear, heven⟩
      · exact .inl (by linarith)
      · rcases hfar.lt_or_eq with hfar | hfar
        · exact .inl (by linarith)
        · exact .inr ⟨by rw [hnear, hfar], heven⟩
  · rcases Nat.lt_or_gt_of_ne hy with hbelow | habove
    · have hfar : f.point y.magnitude ≤ f.point n := hpoint.monotone (by omega)
      rw [dist_gt_iff (hpoint hbelow), eq_comm, dist_eq_iff (hpoint hbelow)]
      rcases hnear with hnear | ⟨hnear, heven⟩
      · exact .inl (by linarith)
      · rcases hfar.lt_or_eq with hfar | hfar
        · exact .inl (by linarith)
        · exact .inr ⟨by rw [← hnear, hfar], heven⟩
    · left
      rw [dist_lt_iff (hpoint habove)]
      linarith [hpoint habove]

/-- What rounds to a number is above the middle of the gap below it and below the middle of the gap above it; the
middles themselves belong to even significands. -/
theorem rounds_iff {x : Binary f} {n : Nat} (hx : x.isFinite = true) (hn : x.magnitude = n + 1) (q : ℚ) :
    Rounds q x ↔ (f.middle n < q ∨ f.middle n = q ∧ x.significand % 2 = 0) ∧
      (q < f.middle (n + 1) ∨ q = f.middle (n + 1) ∧ x.significand % 2 = 0) := by
  have hfinite : n + 1 < f.infinity := by simpa [isFinite, hn] using hx
  have hpoint := f.strictMono_point
  have hbelow : f.point n < f.point (n + 1) := hpoint (Nat.lt_succ_self n)
  have habove : f.point (n + 1) < f.point (n + 2) := hpoint (Nat.lt_succ_self _)
  constructor
  · -- the two neighbours
    rintro ⟨-, h⟩
    rw [value_eq_point, hn] at h
    obtain ⟨y, hy, hyn⟩ := exists_magnitude (f := f) (n := n) (by omega)
    obtain ⟨z, hz, hzn⟩ := exists_magnitude (f := f) (n := n + 2) (by omega)
    have hleft := h y hy (by omega)
    have hright := h z hz (by omega)
    rw [value_eq_point, hyn, dist_gt_iff hbelow, eq_comm, dist_eq_iff hbelow, eq_comm] at hleft
    rw [value_eq_point, hzn, dist_lt_iff habove, dist_eq_iff habove] at hright
    rw [f.middle_eq n, f.middle_eq (n + 1)]
    exact ⟨hleft, hright⟩
  · rintro ⟨hleft, hright⟩
    have hnumber : x.isNaN = false := isNaN_eq_false.mpr (by omega)
    have hfirst : f.middle n ≤ q := hleft.elim le_of_lt fun h => h.1.le
    have hlast : q ≤ f.middle (n + 1) := hright.elim le_of_lt fun h => h.1.le
    rw [f.middle_eq n] at hfirst
    rw [f.middle_eq (n + 1)] at hlast
    rcases lt_or_ge q (f.point (n + 1)) with hlt | hge
    · exact rounds_of_between (by linarith) hlt hnumber (.inr ⟨hn, hleft⟩)
    · exact rounds_of_between hge (by linarith) hnumber (.inl ⟨hn, hright⟩)

theorem rounds_zero {x : Binary f} (hx : x.magnitude = 0) : Rounds 0 x := by
  refine ⟨isNaN_eq_false.mpr (by omega), fun y _ hy => .inl ?_⟩
  have hpos : f.point 0 < f.point y.magnitude := f.strictMono_point (by omega)
  rw [value_eq_point, value_eq_point, hx, dist_lt_iff hpos]
  rw [f.point_zero] at hpos ⊢
  linarith

/-- A rational does not round to two numbers. -/
theorem Rounds.magnitude_eq (hf : 0 < f.fractionBits) {x y : Binary f} {q : ℚ} (hx : Rounds q x) (hy : Rounds q y) :
    x.magnitude = y.magnitude := by
  wlog hlt : x.magnitude < y.magnitude generalizing x y
  · rcases Nat.lt_or_ge y.magnitude x.magnitude with h | h
    · exact (this hy hx h).symm
    · omega
  exfalso
  obtain ⟨hxn, hx⟩ := hx
  obtain ⟨hyn, hy⟩ := hy
  -- both are equally near and even, so there is a number between them, and that is nearer
  have hxy := hx y hyn (by omega)
  have hyx := hy x hxn (by omega)
  have heq : |q - x.value| = |q - y.value| := by
    rcases hxy with h | h
    · rcases hyx with h' | h'
      · exact absurd h (not_lt.mpr h'.le)
      · exact h'.1.symm
    · exact h.1
  have hevenx : x.magnitude % 2 = 0 := by
    rw [← significand_mod_two hf]
    exact (hxy.resolve_left (by rw [heq]; exact lt_irrefl _)).2
  have heveny : y.magnitude % 2 = 0 := by
    rw [← significand_mod_two hf]
    exact (hyx.resolve_left (by rw [heq]; exact lt_irrefl _)).2
  obtain ⟨z, hzn, hzm⟩ := exists_magnitude (f := f) (n := x.magnitude + 1)
    (by have := isNaN_eq_false.mp hyn; omega)
  have hxz : x.value < z.value := f.strictMono_point (by omega)
  have hzy : z.value < y.value := f.strictMono_point (by omega)
  have hq := (dist_eq_iff (hxz.trans hzy)).mp heq
  rcases hx z hzn (by omega) with h | ⟨h, -⟩
  · rw [dist_lt_iff hxz] at h
    linarith
  · rw [dist_eq_iff hxz] at h
    linarith

end Binary

end MetricWire
