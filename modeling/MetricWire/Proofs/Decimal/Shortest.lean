import Mathlib.Algebra.Order.Field.Power
import Mathlib.Data.Rat.Cast.Order
import Mathlib.Tactic.FieldSimp
import Mathlib.Tactic.Linarith
import Mathlib.Tactic.Positivity
import Mathlib.Tactic.Ring
import MetricWire.Number.Text

/-!
The search for the shortest decimal of a rounding interval.

The arithmetic of the search is on naturals; `RoundingInterval.Mem` says of a rational that it lies in the interval,
and each step of the search is a fact about the points `k * 10 ^ grid` that do. The search ends on the coarsest grid
that has such a point, and this is all that is needed: a decimal of fewer digits would put a power of ten, and so a
point of a still coarser grid, between itself and the result.

  1. `contains_iff` — the test of a grid point.
  2. `hit?_some`, `hit?_none` — one grid: if any of its points lies in the interval, a neighbour of the centre does.
  3. `search_spec` — the walk over the grids, by induction on the grids that are left.
  4. `shortest_mem`, `shortest_coarsest`, `shortest_value_eq`, `shortest_coefficient_lt` — the result.
-/

namespace MetricWire

def Decimal.value (d : Decimal) : ℚ := d.coefficient * 10 ^ d.exponent

theorem zpow_mul_pow_toNat {b : ℚ} (hb : b ≠ 0) (z : ℤ) : b ^ z * b ^ (-z).toNat = b ^ z.toNat := by
  rw [← zpow_natCast, ← zpow_natCast, ← zpow_add₀ hb]
  congr 1
  omega

namespace RoundingInterval

variable (i : RoundingInterval)

/-- The rational lies in the interval. -/
def Mem (q : ℚ) : Prop :=
  if i.closed then i.lower * 2 ^ i.unit ≤ q ∧ q ≤ i.upper * 2 ^ i.unit
  else i.lower * 2 ^ i.unit < q ∧ q < i.upper * 2 ^ i.unit

/-- The points are in order, and zero lies outside. -/
structure Proper : Prop where
  lower_pos : 0 < i.lower
  lower_lt : i.lower < i.centre
  lt_upper : i.centre < i.upper

variable {i}

theorem two_zpow_pos (z : ℤ) : (0 : ℚ) < 2 ^ z := zpow_pos (by norm_num) z

theorem ten_zpow_pos (z : ℤ) : (0 : ℚ) < 10 ^ z := zpow_pos (by norm_num) z

theorem Mem.le {q : ℚ} (h : i.Mem q) : i.lower * 2 ^ i.unit ≤ q ∧ q ≤ i.upper * 2 ^ i.unit := by
  unfold Mem at h
  split at h
  · exact h
  · exact ⟨h.1.le, h.2.le⟩

theorem Mem.between {a b c : ℚ} (ha : i.Mem a) (hc : i.Mem c) (hab : a ≤ b) (hbc : b ≤ c) : i.Mem b := by
  unfold Mem at *
  cases hclosed : i.closed <;> simp only [hclosed, Bool.false_eq_true, if_true, if_false] at *
  · exact ⟨ha.1.trans_le hab, hbc.trans_lt hc.2⟩
  · exact ⟨ha.1.trans hab, hbc.trans hc.2⟩

theorem mem_centre (hi : i.Proper) : i.Mem (i.centre * 2 ^ i.unit) := by
  have hunit := two_zpow_pos i.unit
  have hlower : (i.lower : ℚ) * 2 ^ i.unit < i.centre * 2 ^ i.unit :=
    mul_lt_mul_of_pos_right (by exact_mod_cast hi.lower_lt) hunit
  have hupper : (i.centre : ℚ) * 2 ^ i.unit < i.upper * 2 ^ i.unit :=
    mul_lt_mul_of_pos_right (by exact_mod_cast hi.lt_upper) hunit
  unfold Mem
  split
  · exact ⟨hlower.le, hupper.le⟩
  · exact ⟨hlower, hupper⟩

theorem not_mem_zero (hi : i.Proper) : ¬ i.Mem 0 := by
  intro h
  have hlower : (0 : ℚ) < i.lower * 2 ^ i.unit :=
    mul_pos (by exact_mod_cast hi.lower_pos) (two_zpow_pos i.unit)
  linarith [h.le.1]

/-! ## One grid -/

/-- The factor that makes both the points of a grid and the points of the interval whole. -/
def common (i : RoundingInterval) (grid : ℤ) : ℚ := 2 ^ (-i.unit).toNat * 10 ^ (-grid).toNat

theorem common_pos (grid : ℤ) : 0 < i.common grid := by
  unfold common
  positivity

theorem scaled_eq (grid : ℤ) (point : Nat) :
    (i.scaled grid point : ℚ) = point * 2 ^ i.unit * i.common grid := by
  have htwo := zpow_mul_pow_toNat (b := 2) (by norm_num) i.unit
  simp only [scaled, common]
  push_cast
  rw [← htwo]
  ring

theorem mul_divisor_eq (grid : ℤ) (k : Nat) : ((k * i.divisor grid : Nat) : ℚ) = k * 10 ^ grid * i.common grid := by
  have hten := zpow_mul_pow_toNat (b := 10) (by norm_num) grid
  simp only [divisor, common]
  push_cast
  rw [← hten]
  ring

theorem divisor_pos (grid : ℤ) : 0 < i.divisor grid := Nat.mul_pos (Nat.two_pow_pos _) (Nat.pow_pos (by decide))

theorem scaled_le_iff (grid : ℤ) (point k : Nat) :
    i.scaled grid point ≤ k * i.divisor grid ↔ (point : ℚ) * 2 ^ i.unit ≤ k * 10 ^ grid := by
  rw [← Nat.cast_le (α := ℚ), scaled_eq, mul_divisor_eq, mul_le_mul_iff_of_pos_right (common_pos grid)]

theorem le_scaled_iff (grid : ℤ) (point k : Nat) :
    k * i.divisor grid ≤ i.scaled grid point ↔ (k : ℚ) * 10 ^ grid ≤ point * 2 ^ i.unit := by
  rw [← Nat.cast_le (α := ℚ), scaled_eq, mul_divisor_eq, mul_le_mul_iff_of_pos_right (common_pos grid)]

theorem contains_iff (grid : ℤ) (k : Nat) : i.contains grid k = true ↔ i.Mem (k * 10 ^ grid) := by
  unfold contains Mem
  split
  · simp [scaled_le_iff, le_scaled_iff]
  · simp [← not_le, scaled_le_iff, le_scaled_iff]

theorem below_le (grid : ℤ) : (i.below grid : ℚ) * 10 ^ grid ≤ i.centre * 2 ^ i.unit :=
  (le_scaled_iff grid i.centre _).mp (Nat.div_mul_le_self _ _)

theorem lt_below_succ (grid : ℤ) : (i.centre : ℚ) * 2 ^ i.unit < ((i.below grid + 1 : Nat) : ℚ) * 10 ^ grid := by
  rw [← not_le, ← le_scaled_iff, Nat.not_le]
  exact Nat.lt_mul_of_div_lt (Nat.lt_succ_self _) (divisor_pos grid)

theorem hit?_some {grid : ℤ} {k : Nat} (h : i.hit? grid = some k) : i.Mem (k * 10 ^ grid) := by
  rw [← contains_iff]
  cases hbelow : i.contains grid (i.below grid) <;> cases habove : i.contains grid (i.below grid + 1) <;>
    simp only [hit?, hbelow, habove] at h
  case false.false => cases h
  case true.true => split at h <;> cases h <;> assumption
  all_goals cases h; assumption

/-- If any point of a grid lies in the interval, one of the two neighbours of the centre does. -/
theorem hit?_none (hi : i.Proper) {grid : ℤ} (h : i.hit? grid = none) (k : Nat) : ¬ i.Mem (k * 10 ^ grid) := by
  have hgrid := ten_zpow_pos grid
  have hneighbours : i.contains grid (i.below grid) = false ∧ i.contains grid (i.below grid + 1) = false := by
    cases hbelow : i.contains grid (i.below grid) <;> cases habove : i.contains grid (i.below grid + 1) <;>
      simp only [hit?, hbelow, habove] at h
    case false.false => exact ⟨rfl, rfl⟩
    case true.true => split at h <;> cases h
    all_goals cases h
  intro hk
  rcases Nat.lt_or_ge (i.below grid) k with hlt | hge
  · have hstep : ((i.below grid + 1 : Nat) : ℚ) * 10 ^ grid ≤ k * 10 ^ grid :=
      mul_le_mul_of_nonneg_right (by exact_mod_cast hlt) hgrid.le
    have hmem := (mem_centre hi).between hk (lt_below_succ grid).le hstep
    rw [← contains_iff, hneighbours.2] at hmem
    cases hmem
  · have hstep : (k : ℚ) * 10 ^ grid ≤ i.below grid * 10 ^ grid :=
      mul_le_mul_of_nonneg_right (by exact_mod_cast hge) hgrid.le
    have hmem := hk.between (mem_centre hi) hstep (below_le grid)
    rw [← contains_iff, hneighbours.1] at hmem
    cases hmem

/-! ## The walk -/

/-- The walk ends at a point of the interval, and passes no grid that has one. The centre is a point of the last
grid, so there is an end. -/
theorem search_spec (hi : i.Proper) (finer : Nat) (grid : ℤ)
    (hlast : ∃ k : Nat, (i.centre : ℚ) * 2 ^ i.unit = k * 10 ^ (grid - finer)) :
    i.Mem (i.search grid finer).value ∧
      ∀ g, (i.search grid finer).exponent < g → g ≤ grid → ∀ k : Nat, ¬ i.Mem (k * 10 ^ g) := by
  induction finer generalizing grid with
  | zero =>
    obtain ⟨k, hk⟩ := hlast
    rw [Nat.cast_zero, sub_zero] at hk
    refine ⟨?_, fun g hg hle => absurd hg (by simp only [search]; omega)⟩
    -- the centre is its own neighbour from below
    have hle := below_le (i := i) grid
    have hlt := lt_below_succ (i := i) grid
    have hgrid := ten_zpow_pos grid
    rw [hk, mul_le_mul_iff_of_pos_right hgrid, Nat.cast_le] at hle
    rw [hk, mul_lt_mul_iff_of_pos_right hgrid, Nat.cast_lt] at hlt
    have hbelow : i.below grid = k := by omega
    rw [search, Decimal.value, hbelow, ← hk]
    exact mem_centre hi
  | succ finer ih =>
    unfold search
    split
    · rename_i k hk
      exact ⟨hit?_some hk, fun g hg hle => absurd hg (not_lt.mpr hle)⟩
    · rename_i hnone
      have hgrids : grid - 1 - (finer : ℤ) = grid - ((finer + 1 : Nat) : ℤ) := by push_cast; ring
      obtain ⟨hmem, hpassed⟩ := ih (grid - 1) (by rw [hgrids]; exact hlast)
      refine ⟨hmem, fun g hg hle k => ?_⟩
      rcases hle.lt_or_eq with hlt | rfl
      · exact hpassed g hg (by omega) k
      · exact hit?_none hi hnone k

theorem upper_lt_coarsest (i : RoundingInterval) : (i.upper : ℚ) * 2 ^ i.unit < 10 ^ i.coarsest := by
  have hdigits : i.scaled 0 i.upper / i.divisor 0 < 10 ^ (Decimal.digits (i.scaled 0 i.upper / i.divisor 0)).length :=
    (Nat.length_toDigits_le_iff (by decide) Nat.length_toDigits_pos).mp le_rfl
  have hlt := Nat.lt_mul_of_div_lt hdigits (divisor_pos 0)
  rw [← Nat.not_le, le_scaled_iff, not_le, zpow_zero, mul_one] at hlt
  rw [coarsest, zpow_natCast]
  exact_mod_cast hlt

theorem coarsest_nonneg (i : RoundingInterval) : 0 ≤ i.coarsest := Int.natCast_nonneg _

/-- No grid from the coarsest one on has a point in the interval. -/
theorem not_mem_of_coarsest_le (hi : i.Proper) {g : ℤ} (hg : i.coarsest ≤ g) (k : Nat) : ¬ i.Mem (k * 10 ^ g) := by
  intro h
  have hpow : (10 : ℚ) ^ i.coarsest ≤ 10 ^ g := zpow_le_zpow_right₀ (by norm_num) hg
  have hlt : (k : ℚ) * 10 ^ g < 1 * 10 ^ g := by linarith [h.le.2, i.upper_lt_coarsest]
  rw [mul_lt_mul_iff_of_pos_right (ten_zpow_pos g)] at hlt
  have hk : k = 0 := by
    have : k < 1 := by exact_mod_cast hlt
    omega
  rw [hk, Nat.cast_zero, zero_mul] at h
  exact not_mem_zero hi h

/-- Powers of two are whole, or have as many places as binary ones. -/
theorem centre_on_finest (i : RoundingInterval) : ∃ k : Nat, (i.centre : ℚ) * 2 ^ i.unit = k * 10 ^ i.finest := by
  have htwo := zpow_mul_pow_toNat (b := 2) (by norm_num) i.unit
  rcases le_total 0 i.unit with h | h
  · refine ⟨i.centre * 2 ^ i.unit.toNat, ?_⟩
    rw [finest, min_eq_right h, zpow_zero, mul_one]
    push_cast
    rw [← htwo, Int.toNat_eq_zero.mpr (by omega), pow_zero, mul_one]
  · refine ⟨i.centre * 5 ^ (-i.unit).toNat, ?_⟩
    have hfive := zpow_mul_pow_toNat (b := 5) (by norm_num) i.unit
    rw [Int.toNat_eq_zero.mpr h, pow_zero] at hfive
    have hten : (10 : ℚ) ^ i.unit = 2 ^ i.unit * 5 ^ i.unit := by rw [← mul_zpow]; norm_num
    rw [finest, min_eq_left h, hten]
    push_cast
    calc (i.centre : ℚ) * 2 ^ i.unit
        = i.centre * 2 ^ i.unit * (5 ^ i.unit * 5 ^ (-i.unit).toNat) := by rw [hfive, mul_one]
      _ = i.centre * 5 ^ (-i.unit).toNat * (2 ^ i.unit * 5 ^ i.unit) := by ring

/-! ## The result -/

theorem shortest_spec (hi : i.Proper) : i.Mem i.shortest.value ∧
    ∀ g, i.shortest.exponent < g → g ≤ i.coarsest → ∀ k : Nat, ¬ i.Mem (k * 10 ^ g) := by
  refine search_spec hi _ _ ?_
  have hle : i.finest ≤ i.coarsest := le_trans (min_le_right _ _) i.coarsest_nonneg
  rw [Int.toNat_of_nonneg (by omega), sub_sub_cancel]
  exact i.centre_on_finest

theorem shortest_mem (hi : i.Proper) : i.Mem i.shortest.value := (shortest_spec hi).1

theorem shortest_coarsest (hi : i.Proper) {g : ℤ} (hg : i.shortest.exponent < g) (k : Nat) :
    ¬ i.Mem (k * 10 ^ g) := by
  rcases le_total g i.coarsest with h | h
  · exact (shortest_spec hi).2 g hg h k
  · exact not_mem_of_coarsest_le hi h k

theorem shortest_coefficient_mod_ten (hi : i.Proper) : i.shortest.coefficient % 10 ≠ 0 := by
  intro h
  have hmem := shortest_mem hi
  have hcoefficient : (i.shortest.coefficient : ℚ) = (i.shortest.coefficient / 10 : Nat) * 10 := by
    exact_mod_cast (Nat.div_mul_cancel (Nat.dvd_of_mod_eq_zero h)).symm
  rw [Decimal.value, hcoefficient, mul_assoc, ← zpow_one_add₀ (by norm_num)] at hmem
  exact shortest_coarsest hi (by omega) _ hmem

/-- A grid as coarse as the interval is wide has one point in it at most, and the result is that one. -/
theorem shortest_value_eq (hi : i.Proper) {k : Nat} {g : ℤ} (hmem : i.Mem (k * 10 ^ g))
    (hwidth : (i.upper : ℚ) * 2 ^ i.unit - i.lower * 2 ^ i.unit < 10 ^ g) : i.shortest.value = k * 10 ^ g := by
  have hgrid := ten_zpow_pos g
  have hle : g ≤ i.shortest.exponent := by
    by_contra h
    exact shortest_coarsest hi (not_le.mp h) k hmem
  obtain ⟨t, ht⟩ := Int.le.dest hle
  have hvalue : i.shortest.value = ((i.shortest.coefficient * 10 ^ t : Nat) : ℚ) * 10 ^ g := by
    rw [Decimal.value, ← ht, zpow_add₀ (by norm_num), zpow_natCast]
    push_cast
    ring
  obtain ⟨hlow, hhigh⟩ := hmem.le
  obtain ⟨hlow', hhigh'⟩ := (shortest_mem hi).le
  rw [hvalue] at hlow' hhigh' ⊢
  -- two points of the grid are no nearer to each other than the interval is wide
  have hnear : ∀ a b : Nat, i.lower * 2 ^ i.unit ≤ (a : ℚ) * 10 ^ g → (b : ℚ) * 10 ^ g ≤ i.upper * 2 ^ i.unit →
      b ≤ a := by
    intro a b ha hb
    have hlt : (b : ℚ) * 10 ^ g < (a + 1 : Nat) * 10 ^ g := by
      push_cast
      linarith
    rw [mul_lt_mul_iff_of_pos_right hgrid, Nat.cast_lt] at hlt
    omega
  rw [Nat.le_antisymm (hnear _ _ hlow hhigh') (hnear _ _ hlow' hhigh)]

theorem shortest_coefficient_lt (hi : i.Proper) {c s : Nat} {e : ℤ} (hc : c < 10 ^ s) (hmem : i.Mem (c * 10 ^ e)) :
    i.shortest.coefficient < 10 ^ s := by
  by_contra hlong
  have hle : e ≤ i.shortest.exponent := by
    by_contra h
    exact shortest_coarsest hi (not_le.mp h) c hmem
  cases s with
  | zero =>
    rw [Nat.pow_zero, Nat.lt_one_iff] at hc
    rw [hc, Nat.cast_zero, zero_mul] at hmem
    exact not_mem_zero hi hmem
  | succ s =>
    -- a power of ten lies between the shorter decimal and the result, on a coarser grid
    have hpower : (10 : ℚ) ^ (i.shortest.exponent + ((s + 1 : Nat) : ℤ)) =
        ((10 ^ (s + 1) : Nat) : ℚ) * 10 ^ i.shortest.exponent := by
      rw [zpow_add₀ (by norm_num), zpow_natCast, mul_comm]
      push_cast
      rfl
    have hbelow : (c : ℚ) * 10 ^ e ≤ (1 : Nat) * 10 ^ (i.shortest.exponent + ((s + 1 : Nat) : ℤ)) := by
      rw [Nat.cast_one, one_mul, hpower]
      exact mul_le_mul (by exact_mod_cast hc.le) (zpow_le_zpow_right₀ (by norm_num) hle) (ten_zpow_pos e).le
        (Nat.cast_nonneg _)
    have habove : ((1 : Nat) : ℚ) * 10 ^ (i.shortest.exponent + ((s + 1 : Nat) : ℤ)) ≤ i.shortest.value := by
      rw [Nat.cast_one, one_mul, hpower, Decimal.value]
      exact mul_le_mul_of_nonneg_right (by exact_mod_cast not_lt.mp hlong) (ten_zpow_pos _).le
    exact shortest_coarsest hi (by omega) 1 (hmem.between (shortest_mem hi) hbelow habove)

end RoundingInterval

end MetricWire
