import MetricWire.Proofs.Client.Outcome
import MetricWire.Proofs.Decimal.Reader
import MetricWire.Proofs.Packet.Clauses
import MetricWire.Proofs.Packet.Float

/-!
Gauges and changes of gauges.

Both kinds have the same type in a packet, so a receiver tells a change from an absolute value by its sign alone. A
change always has one; an absolute value has one only if it is negative, and then it cannot be told from a change.

  1. `Value.written_int`, `Value.written_float` — the sign and the digits of a number come from one numeral.
  2. `Value.Written.token_gaugeDelta` — the text of a change: its sign, its first digit, and how it is read back.
  3. `encode_gauge_eq_iff` — the packets of a gauge and of a change are told apart by their values alone.
  4. `gauge_signs` — all of it.
-/

namespace MetricWire

open Numeral

namespace Value

variable {v : Value} {w : Numeral}

/-- The number is written as a plain numeral of its sign. -/
structure Written (v : Value) (w : Numeral) : Prop where
  plain : w.Plain
  sign : w.negative = v.isNegative
  text : v.plain.toList = w.text

theorem written_int (n : Int64) : (int n).Written (ofInt n.toInt) where
  plain := ofInt_plain _
  sign := by
    have hsign : n < 0 ↔ n.toInt < 0 := Int64.lt_iff_toInt_lt
    simp only [ofInt, Decimal.numeral, isNegative, hsign]
  text := ofInt_text _

theorem written_float {x : Binary64} (hx : x.isFinite = true) : (float x).Written x.numeral where
  plain := (Binary.isShortest_numeral hx).plain
  sign := rfl
  text := by rw [plain, Binary.text_of_isFinite hx, String.toList_ofList]

theorem exists_written (hv : Kind.gauge.Takes v) : ∃ w, v.Written w := by
  cases v with
  | int n => exact ⟨_, written_int n⟩
  | float x => exact ⟨_, written_float hv.1⟩
  | text s => simp [Kind.Takes] at hv

namespace Written

theorem head_minus_iff (h : v.Written w) : v.plain.toList.head? = some '-' ↔ v.isNegative = true := by
  rw [h.text, h.plain.text_head_minus, h.sign]

/-- A change is written behind a plus, unless it brings a minus of its own. -/
theorem token_gaugeDelta (h : v.Written w) :
    (Kind.gaugeDelta.token v).toList = if v.isNegative then w.text else '+' :: w.text := by
  rw [← h.text, Kind.token]
  cases v.isNegative with
  | true => rfl
  | false => exact String.toList_append

theorem token_gaugeDelta_head (h : v.Written w) : ∃ digit rest, digit.isDigit = true ∧
    (Kind.gaugeDelta.token v).toList = (if v.isNegative then '-' else '+') :: digit :: rest := by
  obtain ⟨c, ds, hwhole⟩ := List.exists_cons_of_ne_nil h.plain.whole_ne
  refine ⟨c, ds ++ if w.places = [] then [] else '.' :: w.places, h.plain.isDigit_whole c (by simp [hwhole]), ?_⟩
  rw [h.token_gaugeDelta, Numeral.text, hwhole, h.sign]
  cases v.isNegative with
  | true => rfl
  | false => rfl

theorem ofChars?_token_gaugeDelta (h : v.Written w) : ofChars? (Kind.gaugeDelta.token v).toList = some w := by
  have hsign := h.sign
  rw [h.token_gaugeDelta]
  cases hneg : v.isNegative with
  | true => exact ofChars?_text h.plain
  | false => exact ofChars?_plus h.plain (hsign.trans hneg)

end Written

end Value

/-- An absolute value has the text of a change just if the change is negative and both are written alike. -/
theorem Kind.token_gauge_eq_iff {v w : Value} (hv : Kind.gauge.Takes v) :
    Kind.gauge.token v = Kind.gaugeDelta.token w ↔ w.isNegative = true ∧ v.plain = w.plain := by
  cases hw : w.isNegative with
  | true => simp [token, hw]
  | false =>
    obtain ⟨n, hn⟩ := Value.exists_written hv
    -- no number starts with a plus
    have hplus : v.plain ≠ "+" ++ w.plain := fun h => hn.plain.text_head_ne_plus (by rw [← hn.text, h]; simp)
    simpa [token, hw] using hplus

theorem encode_gauge_eq_iff {v w : Value} (hv : Kind.gauge.Takes v) (hw : Kind.gauge.Takes w) (name : String)
    (rate : Binary32) (tags : List Tag) (format : TagFormat) :
    encode name .gauge v rate tags format = encode name .gaugeDelta w rate tags format ↔
      w.isNegative = true ∧ v.plain = w.plain := by
  have hgauge : Kind.gauge.fault? v = none := (Kind.fault?_eq_none_iff _ _).mpr hv
  have hdelta : Kind.gaugeDelta.fault? w = none := by
    rw [Kind.fault?_eq_none_iff]
    cases w <;> simp_all [Kind.Takes]
  have hmeasured : measured .gauge v rate = measured .gaugeDelta w rate ↔
      Kind.gauge.token v = Kind.gaugeDelta.token w := by
    rw [measured, measured, show typeClause .gauge = typeClause .gaugeDelta from rfl, String.append_left_inj,
      String.append_left_inj, String.append_right_inj]
  rw [encode_of_accepted hgauge, encode_of_accepted hdelta, Except.ok.injEq, String.append_left_inj,
    String.append_right_inj, hmeasured, Kind.token_gauge_eq_iff hv]

/-- **Signs of gauges.** A change of a gauge is written with one sign before its first digit, a minus exactly for
negative integers and for floats whose sign bit is set, and is read back as the number it was. An absolute value has
the packet of a change exactly if the change is negative and both have the same text; so the values that can be taken
for changes are the negative ones. -/
theorem gauge_signs :
    (∀ n : Int64,
      (∃ digit rest, digit.isDigit = true ∧
        (Kind.gaugeDelta.token (.int n)).toList = (if n.toInt < 0 then '-' else '+') :: digit :: rest) ∧
      readInt? (Kind.gaugeDelta.token (.int n)).toList = some n.toInt) ∧
    (∀ x : Binary64, x.isFinite = true →
      (∃ digit rest, digit.isDigit = true ∧
        (Kind.gaugeDelta.token (.float x)).toList = (if x.bits.msb then '-' else '+') :: digit :: rest) ∧
      readBinary? (Kind.gaugeDelta.token (.float x)).toList = some x) ∧
    (∀ v w : Value, Kind.gauge.Takes v → Kind.gauge.Takes w →
      ∀ (name : String) (rate : Binary32) (tags : List Tag) (format : TagFormat),
        encode name .gauge v rate tags format = encode name .gaugeDelta w rate tags format ↔
          w.isNegative = true ∧ v.plain = w.plain) ∧
    (∀ v : Value, Kind.gauge.Takes v → ∀ (name : String) (rate : Binary32) (tags : List Tag) (format : TagFormat),
      (∃ w, Kind.gauge.Takes w ∧
        encode name .gauge v rate tags format = encode name .gaugeDelta w rate tags format) ↔ v.isNegative = true) := by
  refine ⟨fun n => ⟨?_, ?_⟩, fun x hx => ⟨?_, ?_⟩, fun v w hv hw => encode_gauge_eq_iff hv hw,
    fun v hv name rate tags format => ⟨?_, ?_⟩⟩
  · have hsign : (Value.int n).isNegative = decide (n.toInt < 0) := (Value.written_int n).sign.symm
    obtain ⟨digit, rest, hdigit, htoken⟩ := (Value.written_int n).token_gaugeDelta_head
    refine ⟨digit, rest, hdigit, htoken.trans ?_⟩
    simp only [hsign, decide_eq_true_eq]
  · rw [readInt?, (Value.written_int n).ofChars?_token_gaugeDelta]
    exact congrArg some (toInt_ofInt _)
  · exact (Value.written_float hx).token_gaugeDelta_head
  · rw [readBinary?, (Value.written_float hx).ofChars?_token_gaugeDelta]
    exact congrArg some ((Binary.isShortest_numeral hx).toBinary_eq (by decide))
  · rintro ⟨w, hw, hpackets⟩
    obtain ⟨hneg, hplain⟩ := (encode_gauge_eq_iff hv hw name rate tags format).mp hpackets
    -- both texts start with the minus of the change
    obtain ⟨n, hn⟩ := Value.exists_written hv
    obtain ⟨m, hm⟩ := Value.exists_written hw
    rw [← hn.head_minus_iff, hplain, hm.head_minus_iff, hneg]
  · intro hneg
    exact ⟨v, hv, (encode_gauge_eq_iff hv hv name rate tags format).mpr ⟨hneg, rfl⟩⟩

/-- Minus zero as a float, the least integer, and two numbers of different types with one text. -/
theorem gauge_signs_minus_zero :
    readBinary? "-0".toList = some (Binary.ofBits 0x8000000000000000 : Binary64) ∧
    (∃ digit rest, digit.isDigit = true ∧ "-9223372036854775808".toList = '-' :: digit :: rest) ∧
    encode "load" .gauge (.float (.ofBits 0xbff0000000000000)) .one [] .infixComma =
      encode "load" .gaugeDelta (.int (-1)) .one [] .infixComma ∧
    encode "load" .gauge (.int 0) .one [] .infixComma ≠ encode "load" .gaugeDelta (.int 0) .one [] .infixComma := by
  obtain ⟨hints, hfloats, hpairs, -⟩ := gauge_signs
  refine ⟨?_, ?_, ?_, fun h => ?_⟩
  · have hzero := (hfloats (.ofBits 0x8000000000000000) (by decide +kernel)).2
    rwa [show Kind.gaugeDelta.token (.float (.ofBits 0x8000000000000000)) = "-0" by decide +kernel] at hzero
  · have hleast := (hints Int64.minValue).1
    rwa [show Kind.gaugeDelta.token (.int Int64.minValue) = "-9223372036854775808" by decide +kernel,
      if_pos (by decide)] at hleast
  · exact (hpairs _ _ (by decide +kernel) (by decide +kernel) _ _ _ _).mpr ⟨by decide +kernel, by decide +kernel⟩
  · exact absurd ((hpairs _ _ (by decide +kernel) (by decide +kernel) _ _ _ _).mp h).1 (by decide +kernel)

end MetricWire
