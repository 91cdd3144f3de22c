import MetricWire.Proofs.Binary.Accuracy
import MetricWire.Proofs.Client.Outcome
import MetricWire.Proofs.Client.Traffic
import MetricWire.Proofs.Decimal.Expansion
import MetricWire.Proofs.Packet.Float

/-!
Durations in packets.

A duration has less than `2 ^ 94` nanoseconds, so both roundings on the way to its milliseconds as a float stay far
below infinity; and a nanosecond is far above the least numbers with a full significand, so each rounding is off by
half a unit of the last bit at most. The decimal that is written rounds to the float and is off by no more. All three
keep the order.

  1. `Duration.le_iff_totalNanos` — durations are in the order of their nanoseconds.
  2. `Duration.rounds_converted`, `Duration.rounds_millis_converted` — the two roundings.
  3. `Duration.isFinite_millis`, `Duration.numeral_millis_mono`, `Duration.numeral_millis_error` — the numeral that is
     written exists, grows with the duration, and is near the exact quotient.
  4. `Duration.numeral_millis` — a short duration is written exactly. Below `10 ^ 15` nanoseconds the first rounding
     does nothing, since so many nanoseconds fit into a significand; the second one is then the rounding of the exact
     quotient. The gaps between floats are smaller there than a nanosecond, so no other number of nanoseconds rounds
     to the same float, and the shortest decimal of the float is the exact one again.
  5. `Family.step_timingDuration` — an active client never refuses a duration.
  6. `short_durations_exact`, `durations_ordered_accurate` — what comes of this at any moment of any run.
-/

namespace MetricWire

/-! ## Any duration -/

open Binary

theorem minExponent_binary64 : Layout.binary64.minExponent = -1074 := by decide

theorem infinity_binary64 : Layout.binary64.infinity = (2046 + 1) * 2 ^ 52 := by decide

theorem point_binary64 (k : Nat) : Layout.binary64.point ((k + 1) * 2 ^ 52) = 2 ^ 52 * 2 ^ (-1074 + (k : ℤ)) := by
  rw [← minExponent_binary64]
  exact Layout.binary64.point_binade k

namespace Duration

variable {d e : Duration}

/-- Seconds come first, and then the nanoseconds beyond them. -/
instance : LE Duration := ⟨fun d e => d.seconds < e.seconds ∨ d.seconds = e.seconds ∧ d.nanos ≤ e.nanos⟩

theorem le_iff_totalNanos : d ≤ e ↔ d.totalNanos ≤ e.totalNanos := by
  have hd := d.nanos.isLt
  have he := e.nanos.isLt
  change d.seconds < e.seconds ∨ d.seconds = e.seconds ∧ d.nanos ≤ e.nanos ↔ _
  rw [UInt64.lt_iff_toNat_lt, ← UInt64.toNat_inj, Fin.le_def, totalNanos, totalNanos]
  omega

theorem totalNanos_lt (d : Duration) : d.totalNanos < 2 ^ 94 := by
  have hseconds := d.seconds.toNat_lt
  have hnanos := d.nanos.isLt
  rw [totalNanos]
  omega

/-- The nanoseconds as a float, before the division. -/
def converted (d : Duration) : Binary64 := ofRatio d.totalNanos 1

theorem rounds_converted (d : Duration) : d.converted.Rounds d.totalNanos := by
  have hrounds := rounds_ofRatio (f := .binary64) (by decide) d.totalNanos Nat.one_pos
  rwa [Nat.cast_one, div_one] at hrounds

theorem rounds_millis_converted (d : Duration) : d.millis.Rounds (d.converted.value / 10 ^ 6) := by
  have hrounds := rounds_divNat (f := .binary64) (by decide) d.converted (d := 1000000) (by decide)
  have hmillion : ((1000000 : Nat) : ℚ) = 10 ^ 6 := by norm_num
  rwa [hmillion] at hrounds

theorem isNegative_millis (d : Duration) : d.millis.isNegative = false := isNegative_ofRatio _ _

/-! ## The range -/

theorem point_limit : Layout.binary64.point ((1116 + 1) * 2 ^ 52) = 2 ^ 94 := by
  rw [point_binary64]
  norm_num

theorem magnitude_converted_le (d : Duration) : d.converted.magnitude ≤ (1116 + 1) * 2 ^ 52 := by
  refine d.rounds_converted.magnitude_le ?_ (by decide)
  rw [point_limit]
  exact_mod_cast d.totalNanos_lt.le

theorem value_converted_le (d : Duration) : d.converted.value ≤ 2 ^ 94 := by
  rw [← point_limit]
  exact Layout.binary64.strictMono_point.monotone d.magnitude_converted_le

theorem magnitude_millis_le_limit (d : Duration) : d.millis.magnitude ≤ (1116 + 1) * 2 ^ 52 := by
  refine d.rounds_millis_converted.magnitude_le ?_ (by decide)
  rw [point_limit]
  linarith [d.value_converted_le]

theorem isFinite_of_magnitude_le {x : Binary64} (h : x.magnitude ≤ (1116 + 1) * 2 ^ 52) : x.isFinite = true := by
  have hlt : (1116 + 1) * 2 ^ 52 < Layout.binary64.infinity := by decide
  exact decide_eq_true (Nat.lt_of_le_of_lt h hlt)

theorem isFinite_millis (d : Duration) : d.millis.isFinite = true :=
  isFinite_of_magnitude_le d.magnitude_millis_le_limit

/-! ## The order -/

theorem magnitude_millis_mono (h : d ≤ e) : d.millis.magnitude ≤ e.millis.magnitude := by
  have hnanos : (d.totalNanos : ℚ) ≤ e.totalNanos := by exact_mod_cast le_iff_totalNanos.mp h
  have hvalue := d.rounds_converted.value_mono (by decide) e.rounds_converted hnanos
  refine d.rounds_millis_converted.magnitude_mono (by decide) e.rounds_millis_converted ?_
  gcongr

theorem numeral_millis_mono (h : d ≤ e) : d.millis.numeral.value ≤ e.millis.numeral.value :=
  numeral_value_mono (by decide) d.isFinite_millis e.isFinite_millis (magnitude_millis_mono h)

/-! ## The error -/

theorem point_one : Layout.binary64.point ((1022 + 1) * 2 ^ 52) = 1 := Layout.binary64.point_one (by decide)

/-- From a nanosecond on, the conversion has a full significand. -/
theorem le_magnitude_converted (h : 0 < d.totalNanos) : (1022 + 1) * 2 ^ 52 ≤ d.converted.magnitude := by
  refine d.rounds_converted.le_magnitude ?_ (by decide)
  rw [point_one]
  exact_mod_cast h

theorem le_magnitude_millis (h : 0 < d.totalNanos) : (1002 + 1) * 2 ^ 52 ≤ d.millis.magnitude := by
  refine d.rounds_millis_converted.le_magnitude ?_ (by decide)
  have hleast : Layout.binary64.point ((1002 + 1) * 2 ^ 52) ≤ 1 / 10 ^ 6 := by
    rw [point_binary64]
    norm_num
  have hone : 1 ≤ d.converted.value := by
    rw [← point_one]
    exact Layout.binary64.strictMono_point.monotone (le_magnitude_converted h)
  refine hleast.trans ?_
  gcongr

theorem numeral_millis_error (d : Duration) :
    |d.millis.numeral.value - (d.totalNanos : ℚ) / 10 ^ 6| ≤ 1 / 2 ^ 51 * ((d.totalNanos : ℚ) / 10 ^ 6) := by
  have hconverted := d.rounds_converted
  have hmillis := d.rounds_millis_converted
  have hwritten := (isShortest_numeral d.isFinite_millis).rounds
  rcases Nat.eq_zero_or_pos d.totalNanos with hzero | hpos
  · -- zero is converted, divided and written without an error
    have hnumeral : d.millis.numeral.value = 0 := by
      have hmillis_zero : d.millis.magnitude = 0 := by rw [millis, hzero]; decide +kernel
      rw [numeral, Decimal.numeral_value, shortest, if_pos (by simp [isZero, hmillis_zero]), Decimal.value]
      simp
    rw [hnumeral, hzero]
    simp
  · have hpart : (1 : ℚ) / 2 ^ (Layout.binary64.fractionBits + 1) = 1 / 2 ^ 53 := by rfl
    have hconverted_error := hconverted.abs_sub_le (isFinite_of_magnitude_le d.magnitude_converted_le)
      (le_trans (by decide) (le_magnitude_converted hpos))
    have hfull : 2 ^ Layout.binary64.fractionBits ≤ d.millis.magnitude :=
      le_trans (by decide) (le_magnitude_millis hpos)
    have hmillis_error := hmillis.abs_sub_le d.isFinite_millis hfull
    have hwritten_error := hwritten.abs_sub_le d.isFinite_millis hfull
    rw [hpart] at hconverted_error hmillis_error hwritten_error
    have hscaled : |(d.totalNanos : ℚ) / 10 ^ 6 - d.converted.value / 10 ^ 6| ≤
        d.converted.value / 10 ^ 6 * (1 / 2 ^ 53) := by
      rw [← sub_div, abs_div, abs_of_pos (by norm_num : (0 : ℚ) < 10 ^ 6), div_mul_eq_mul_div]
      gcongr
    have hnonneg : 0 ≤ d.millis.value := by
      rw [value]
      positivity
    have herror := roundings_error (by norm_num) (by norm_num) hscaled hmillis_error hwritten_error hnonneg
    have hfour : (1 : ℚ) / 2 ^ 51 = 4 * (1 / 2 ^ 53) := by norm_num
    rwa [hfour]

end Duration

/-! ## Short durations -/

namespace Duration

variable {d : Duration}

theorem value_converted (h : d.totalNanos < 10 ^ 15) : d.converted.value = d.totalNanos := by
  refine value_ofRatio_natCast (by decide) ?_ (by decide) ?_
  · exact Nat.lt_trans h (by decide)
  · have hlast : (1 : ℚ) ≤ 2 ^ (-1074 + ((2046 : Nat) : ℤ)) := one_le_zpow₀ (by norm_num) (by norm_num)
    have hnanos : (d.totalNanos : ℚ) < 10 ^ 15 := by exact_mod_cast h
    rw [infinity_binary64, point_binary64]
    calc (d.totalNanos : ℚ) < 10 ^ 15 := hnanos
      _ ≤ 2 ^ 52 * 1 := by norm_num
      _ ≤ 2 ^ 52 * 2 ^ (-1074 + ((2046 : Nat) : ℤ)) := mul_le_mul_of_nonneg_left hlast (by norm_num)

/-- All in all there is one rounding. -/
theorem rounds_millis (h : d.totalNanos < 10 ^ 15) : d.millis.Rounds (d.totalNanos * 10 ^ (-6 : ℤ)) := by
  have hrounds := d.rounds_millis_converted
  rw [value_converted h] at hrounds
  have hquotient : (d.totalNanos : ℚ) * 10 ^ (-6 : ℤ) = d.totalNanos / 10 ^ 6 := by
    rw [zpow_neg, div_eq_mul_inv]
    rfl
  rwa [hquotient]

theorem magnitude_millis_le (h : d.totalNanos < 10 ^ 15) : d.millis.magnitude ≤ (1052 + 1) * 2 ^ 52 := by
  have hnanos : (d.totalNanos : ℚ) < 10 ^ 15 := by exact_mod_cast h
  refine (rounds_millis h).magnitude_le ?_ (by decide)
  rw [point_binary64]
  calc (d.totalNanos : ℚ) * 10 ^ (-6 : ℤ) ≤ 10 ^ 15 * 10 ^ (-6 : ℤ) :=
        mul_le_mul_of_nonneg_right hnanos.le (by positivity)
    _ ≤ 2 ^ 52 * 2 ^ (-1074 + ((1052 : Nat) : ℤ)) := by norm_num

/-- The gap above the milliseconds is less than a nanosecond. -/
theorem exponent_millis (h : d.totalNanos < 10 ^ 15) : (2 : ℚ) ^ d.millis.exponent < 10 ^ (-6 : ℤ) := by
  have hfield : d.millis.exponentField ≤ 1053 := Nat.div_le_of_le_mul (by
    rw [Nat.mul_comm]
    exact magnitude_millis_le h)
  have hexponent : d.millis.exponent ≤ -22 := by
    rw [exponent, minExponent_binary64]
    omega
  calc (2 : ℚ) ^ d.millis.exponent ≤ 2 ^ (-22 : ℤ) := zpow_le_zpow_right₀ (by norm_num) hexponent
    _ < 10 ^ (-6 : ℤ) := by norm_num

/-- The shortest decimal is the exact one. -/
theorem shortest_millis (h : d.totalNanos < 10 ^ 15) :
    d.millis.shortest.value = d.totalNanos * 10 ^ (-6 : ℤ) := by
  have hrounds := rounds_millis h
  cases hm : d.millis.magnitude with
  | succ n => exact shortest_value_eq d.isFinite_millis hm hrounds (exponent_millis h)
  | zero =>
    -- a nanosecond is far above the least number, so only none at all rounds to zero
    have hnone : d.totalNanos = 0 := by
      by_contra hne
      have hone : (1 : ℚ) ≤ d.totalNanos := by exact_mod_cast Nat.one_le_iff_ne_zero.mpr hne
      have hleast : Layout.binary64.point 1 ≤ d.totalNanos * 10 ^ (-6 : ℤ) := by
        have hpoint : Layout.binary64.point 1 = 2 ^ (-1074 : ℤ) := by
          have hrow := Layout.binary64.point_row (k := 0) (j := 1) ⟨.inl rfl, by decide⟩
          rw [Nat.zero_mul, Nat.zero_add, minExponent_binary64] at hrow
          rw [hrow]
          norm_num
        calc Layout.binary64.point 1 = 2 ^ (-1074 : ℤ) := hpoint
          _ ≤ 2 ^ (-22 : ℤ) := zpow_le_zpow_right₀ (by norm_num) (by norm_num)
          _ ≤ 1 * 10 ^ (-6 : ℤ) := by norm_num
          _ ≤ d.totalNanos * 10 ^ (-6 : ℤ) := mul_le_mul_of_nonneg_right hone (by positivity)
      have hpos := hrounds.le_magnitude hleast (by decide)
      omega
    have hzero : d.millis.shortest = ⟨0, 0⟩ := if_pos (by simp [isZero, hm])
    rw [hzero, hnone, Decimal.value, Nat.cast_zero, zero_mul, zero_mul]

theorem token_millis (d : Duration) : Kind.timing.token (.float d.millis) = .ofList d.millis.numeral.text := by
  rw [Kind.timing.token_float d.isFinite_millis, if_neg (fun h => absurd h.1 (by decide)), String.empty_append]

theorem numeral_millis (h : d.totalNanos < 10 ^ 15) : d.millis.numeral = Numeral.expansion d.totalNanos 6 := by
  have hvalue : d.millis.numeral.value = (Numeral.expansion d.totalNanos 6).value := by
    rw [numeral, Decimal.numeral_value, shortest_millis h, Numeral.expansion_value, zpow_neg, div_eq_mul_inv]
    rfl
  exact (isShortest_numeral d.isFinite_millis).plain.eq_of_value (Numeral.expansion_plain _ _) (isNegative_millis d)
    hvalue

end Duration

/-! ## Recording a duration -/

theorem observation?_timingDuration {r : Reporter} {scope : String} (hc : r.inside = .active scope) (d : Duration)
    (key : String) (rate : Binary32) (tags defaults : List Tag) :
    r.observation? defaults ⟨key, .timingDuration d, rate, tags⟩ =
      some ⟨scope, key, .timing, .float d.millis, rate, defaults ++ tags⟩ := by
  let call : Call := ⟨key, .timingDuration d, rate, tags⟩
  have hvalid : ¬ call.measurement.IsInvalid := by
    rintro (hleast | ⟨kind, value, ho, hbad⟩)
    · cases hleast
    · obtain ⟨rfl, rfl⟩ := Prod.mk.inj (Except.ok.inj ho)
      exact hbad ⟨d.isFinite_millis, by decide, by decide⟩
  obtain ⟨kind, value, ho, -, hobservation⟩ := Reporter.observation?_of_valid hc hvalid defaults
  obtain ⟨rfl, rfl⟩ := Prod.mk.inj (Except.ok.inj ho)
  exact hobservation

/-- An active member fails at most to send a duration, and its packet holds the numeral of the milliseconds. -/
theorem Family.step_timingDuration {f : Family} {i : Nat} {r : Reporter} {scope : String} (hi : f.member? i = some r)
    (hc : r.inside = .active scope) (d : Duration) (key : String) (rate : Binary32) (tags : List Tag) :
    let turn := f.step (.record i ⟨key, .timingDuration d, rate, tags⟩)
    let o : Observation := ⟨scope, key, .timing, .float d.millis, rate, f.hub.options.tags ++ tags⟩
    let format := f.hub.options.tagFormat
    (turn.events.filterMap Event.emitted? =
      if f.hub.options.sampler.admits f.hub.asked rate then
        [scopedName scope key ++ o.nameTags format ++ ":" ++ .ofList d.millis.numeral.text ++ "|ms" ++
          rateClause rate ++ o.endTags format]
      else []) ∧
    ∀ e, turn.result = .outcome (.error e) → e.kind = .ioError := by
  intro turn o format
  have hobservation : r.observation? f.hub.options.tags ⟨key, .timingDuration d, rate, tags⟩ = some o :=
    observation?_timingDuration hc d key rate tags _
  have hrecord := Reporter.record_of_observation hobservation
  have hturn : turn = ⟨.outcome (f.hub.pass o).result, { f with hub := (f.hub.pass o).state },
      (f.hub.pass o).events⟩ := by
    simp only [turn, Family.step, hi, hrecord]
  have hpacket : o.packet format = scopedName scope key ++ o.nameTags format ++ ":" ++
      .ofList d.millis.numeral.text ++ "|ms" ++ rateClause rate ++ o.endTags format := by
    rw [Observation.packet, Duration.token_millis d]
    rfl
  constructor
  · rw [hturn, Hub.pass_emitted, ← hpacket]
  · intro e hresult
    rw [hturn] at hresult
    obtain ⟨-, cause, -, rfl⟩ := Hub.pass_result_error_iff.mp (Reply.outcome.inj hresult)
    rfl

/-- **Short durations are written exactly.** Below `10 ^ 15` nanoseconds an active client never refuses a duration,
and the value in the packet is the decimal expansion of its milliseconds: a plain numeral, with no exponent and no zero
at the end, of just this value, and with a point only where the milliseconds are not whole. -/
theorem short_durations_exact {f : Family} {i : Nat} {r : Reporter} {scope : String} (hi : f.member? i = some r)
    (hc : r.inside = .active scope) {d : Duration} (h : d.totalNanos < 10 ^ 15) (key : String) (rate : Binary32)
    (tags : List Tag) :
    let turn := f.step (.record i ⟨key, .timingDuration d, rate, tags⟩)
    let o : Observation := ⟨scope, key, .timing, .float d.millis, rate, f.hub.options.tags ++ tags⟩
    let format := f.hub.options.tagFormat
    let w := Numeral.expansion d.totalNanos 6
    (turn.events.filterMap Event.emitted? =
      if f.hub.options.sampler.admits f.hub.asked rate then
        [scopedName scope key ++ o.nameTags format ++ ":" ++ .ofList w.text ++ "|ms" ++ rateClause rate ++
          o.endTags format]
      else []) ∧
    (∀ fault, turn.result ≠ .outcome (.error (.rejected fault))) ∧
    w.Plain ∧ w.negative = false ∧ w.value = d.totalNanos / 10 ^ 6 ∧ (w.places = [] ↔ 10 ^ 6 ∣ d.totalNanos) := by
  intro turn o format w
  obtain ⟨hemitted, haccepted⟩ := Family.step_timingDuration hi hc d key rate tags
  rw [Duration.numeral_millis h] at hemitted
  have hnever : ∀ fault, turn.result ≠ .outcome (.error (.rejected fault)) := by
    intro fault hresult
    cases haccepted _ hresult
  exact ⟨hemitted, hnever, Numeral.expansion_plain _ _, rfl, Numeral.expansion_value _ _,
    Numeral.expansion_places_eq_nil_iff _ _⟩

/-- A nanosecond, one and a half milliseconds, seven seconds, and a duration just short of the limit. -/
theorem short_durations_exact_nanosecond :
    let emitted := fun d : Duration =>
      ((Family.ofClient "app" .discard {}).step (.record 0 ⟨"t", .timingDuration d, .one, []⟩)).events.filterMap
        Event.emitted?
    emitted ⟨0, 1⟩ = ["app.t:0.000001|ms"] ∧ emitted ⟨0, 1500000⟩ = ["app.t:1.5|ms"] ∧
    emitted ⟨7, 0⟩ = ["app.t:7000|ms"] ∧ emitted ⟨999999, 999999999⟩ = ["app.t:999999999.999999|ms"] := by
  intro emitted
  have hi : (Family.ofClient "app" .discard {}).member? 0 = some (.client (.active "app")) := rfl
  have hexact := fun d h => (short_durations_exact (d := d) hi rfl h "t" .one []).1
  exact ⟨(hexact ⟨0, 1⟩ (by decide)).trans (by decide +kernel),
    (hexact ⟨0, 1500000⟩ (by decide)).trans (by decide +kernel),
    (hexact ⟨7, 0⟩ (by decide)).trans (by decide +kernel),
    (hexact ⟨999999, 999999999⟩ (by decide)).trans (by decide +kernel)⟩

/-- **Durations are never refused, and are written in order and accurately.** Take any duration. Its milliseconds are
the nanoseconds rounded to a float, divided by a million and rounded again; they are finite and not negative, so an
active client never refuses them, and no sign is written before them. A longer duration is never written as a smaller
number, and the number that is written differs from the exact one by at most its `2 ^ 51`st part. -/
theorem durations_ordered_accurate (d : Duration) :
    let w := d.millis.numeral
    (∃ nanos : Binary64, nanos.Rounds d.totalNanos ∧ d.millis.Rounds (nanos.value / 10 ^ 6)) ∧
    d.millis.isFinite = true ∧ d.millis.isNegative = false ∧ d.millis.IsShortest w ∧ w.text.head? ≠ some '-' ∧
    (∀ (f : Family) (i : Nat) (r : Reporter) (scope : String), f.member? i = some r → r.inside = .active scope →
      ∀ (key : String) (rate : Binary32) (tags : List Tag),
        let turn := f.step (.record i ⟨key, .timingDuration d, rate, tags⟩)
        let o : Observation := ⟨scope, key, .timing, .float d.millis, rate, f.hub.options.tags ++ tags⟩
        let format := f.hub.options.tagFormat
        (turn.events.filterMap Event.emitted? =
          if f.hub.options.sampler.admits f.hub.asked rate then
            [scopedName scope key ++ o.nameTags format ++ ":" ++ .ofList w.text ++ "|ms" ++ rateClause rate ++
              o.endTags format]
          else []) ∧
        ∀ e, turn.result = .outcome (.error e) → e.kind = .ioError) ∧
    (∀ e : Duration, d ≤ e → w.value ≤ e.millis.numeral.value) ∧
    |w.value - (d.totalNanos : ℚ) / 10 ^ 6| ≤ 1 / 2 ^ 51 * ((d.totalNanos : ℚ) / 10 ^ 6) := by
  intro w
  have hshortest := isShortest_numeral d.isFinite_millis
  have hsign : w.text.head? ≠ some '-' := by
    rw [ne_eq, hshortest.plain.text_head_minus, hshortest.sign, d.isNegative_millis]
    decide
  exact ⟨⟨d.converted, d.rounds_converted, d.rounds_millis_converted⟩, d.isFinite_millis, d.isNegative_millis,
    hshortest, hsign, fun f i r scope hi hc key rate tags => Family.step_timingDuration hi hc d key rate tags,
    fun e => Duration.numeral_millis_mono, d.numeral_millis_error⟩

/-- The longest duration, and the one that is a nanosecond shorter. -/
theorem durations_ordered_accurate_longest :
    let longest : Duration := ⟨0xffffffffffffffff, 999999999⟩
    let shorter : Duration := ⟨0xffffffffffffffff, 999999998⟩
    (((Family.ofClient "app" .discard {}).step (.record 0 ⟨"t", .timingDuration longest, .one, []⟩)).events.filterMap
      Event.emitted? = ["app.t:18446744073709552000000|ms"]) ∧
    shorter ≤ longest ∧ shorter.millis.numeral.value ≤ longest.millis.numeral.value := by
  intro longest shorter
  have hi : (Family.ofClient "app" .discard {}).member? 0 = some (.client (.active "app")) := rfl
  have hle : shorter ≤ longest := .inr ⟨rfl, by decide⟩
  obtain ⟨-, -, -, -, -, hrecord, -⟩ := durations_ordered_accurate longest
  obtain ⟨-, -, -, -, -, -, hmono, -⟩ := durations_ordered_accurate shorter
  exact ⟨(hrecord _ _ _ _ hi rfl "t" .one []).1.trans (by decide +kernel), hle, hmono longest hle⟩

end MetricWire
