import MetricWire.Packet
import MetricWire.Proofs.Binary.Text

/-!
Floats in packets: the value of a kind that takes floats, and the rate.
-/

namespace MetricWire

open Binary

theorem Kind.isFinite_of_fault? {k : Kind} {x : Binary64} (h : k.fault? (.float x) = none) : x.isFinite = true := by
  cases k <;> simp_all [Kind.fault?]

/-- Only changes of gauges put a sign before a number that has none. -/
theorem Kind.token_float (k : Kind) {x : Binary64} (hx : x.isFinite = true) :
    k.token (.float x) = (if k = .gaugeDelta ∧ x.isNegative = false then "+" else "") ++ .ofList x.numeral.text := by
  rw [← text_of_isFinite hx]
  by_cases h : k = .gaugeDelta ∧ x.isNegative = false
  · rw [if_pos h, token, if_pos (by simp [h, Value.isNegative])]
    rfl
  · rw [if_neg h, token, if_neg (by simpa [Value.isNegative] using h), String.empty_append]
    rfl

theorem Kind.token_float_injective {k l : Kind} {x y : Binary64} (hx : x.isFinite = true) (hy : y.isFinite = true)
    (h : k.token (.float x) = l.token (.float y)) : x = y := by
  have hxs := isShortest_numeral hx
  have hys := isShortest_numeral hy
  have hlist := congrArg String.toList h
  rw [k.token_float hx, l.token_float hy, String.toList_append, String.toList_append, String.toList_ofList,
    String.toList_ofList] at hlist
  have htext : x.numeral.text = y.numeral.text := by
    split at hlist <;> split at hlist
    · exact List.tail_eq_of_cons_eq hlist
    · exact absurd (congrArg List.head? hlist).symm hys.plain.text_head_ne_plus
    · exact absurd (congrArg List.head? hlist) hxs.plain.text_head_ne_plus
    · exact hlist
  exact hxs.unique (by decide) hys htext

/-- A finite rate that equals one is one, bit for bit. -/
theorem eq_one_of_equals {r : Binary32} (h : r.equals .one = true) : r = .one := by
  have hone : (one : Binary32).place = 0x3f800000 := by decide +kernel
  have hplace : r.place = 0x3f800000 := by
    rw [← hone]
    simpa using (Bool.and_eq_true_iff.mp h).2
  unfold place at hplace
  split at hplace
  · omega
  · rename_i hsign
    refine eq_of_sign_magnitude ?_ ?_
    · rw [Bool.eq_false_of_not_eq_true hsign]
      decide +kernel
    · have : (one : Binary32).magnitude = 0x3f800000 := by decide +kernel
      omega

theorem rateClause_of_ne {r : Binary32} (h : r ≠ .one) : rateClause r = "|@" ++ r.text :=
  if_neg fun hone => h (eq_one_of_equals hone)

theorem rateClause_one : rateClause .one = "" := if_pos (by decide +kernel)

/-- The clause tells the rate, one by its absence. -/
theorem rateClause_injective {r s : Binary32} (hr : r.isFinite = true) (hs : s.isFinite = true)
    (h : rateClause r = rateClause s) : r = s := by
  by_cases hrone : r = .one <;> by_cases hsone : s = .one
  · rw [hrone, hsone]
  · rw [hrone, rateClause_one, rateClause_of_ne hsone] at h
    exact absurd (congrArg String.toList h) (by simp)
  · rw [hsone, rateClause_one, rateClause_of_ne hrone] at h
    exact absurd (congrArg String.toList h) (by simp)
  · rw [rateClause_of_ne hrone, rateClause_of_ne hsone, text_of_isFinite hr, text_of_isFinite hs] at h
    have htext : r.numeral.text = s.numeral.text := by
      simpa using congrArg String.toList h
    exact (isShortest_numeral hr).unique (by decide) (isShortest_numeral hs) htext

theorem rateClause_of_not_isFinite {r : Binary32} (hr : r.isFinite = false) :
    rateClause r = if r.isNaN then "|@NaN" else if r.isNegative then "|@-inf" else "|@inf" := by
  have hone : r ≠ .one := fun h => by
    rw [h] at hr
    exact absurd hr (by decide +kernel)
  rw [rateClause_of_ne hone, text, signText, body]
  cases hnan : r.isNaN with
  | true => rfl
  | false =>
    have hinfinite : r.isInfinite = true := by
      simp only [isFinite, isNaN, isInfinite, decide_eq_false_iff_not, beq_iff_eq] at *
      omega
    cases hsign : r.isNegative <;> simp [hinfinite, Format.sign]

/-- **Floats are written exactly and in the fewest digits.** The value of a packet and its rate are the shortest
numerals that read as the number, behind the plus of a change of a gauge and behind the mark of the rate; only
rates can be infinite or no numbers, and these are written by name. So the texts tell finite floats apart. -/
theorem floats_shortest :
    (∀ (o : Observation) (format : TagFormat) (x : Binary64), o.value = .float x → o.kind.fault? o.value = none →
      ∃ w : Numeral, x.IsShortest w ∧ o.packet format =
        scopedName o.scope o.key ++ o.nameTags format ++ ":" ++
          ((if o.kind = .gaugeDelta ∧ x.isNegative = false then "+" else "") ++ .ofList w.text) ++
          typeClause o.kind ++ rateClause o.rate ++ o.endTags format) ∧
    (∀ r : Binary32, r.isFinite = true → r ≠ .one →
      ∃ w : Numeral, r.IsShortest w ∧ rateClause r = "|@" ++ .ofList w.text) ∧
    (∀ r : Binary32, r.isFinite = false →
      rateClause r = if r.isNaN then "|@NaN" else if r.isNegative then "|@-inf" else "|@inf") ∧
    (∀ (k l : Kind) (x y : Binary64), x.isFinite = true → y.isFinite = true →
      k.token (.float x) = l.token (.float y) → x = y) ∧
    (∀ r s : Binary32, r.isFinite = true → s.isFinite = true → rateClause r = rateClause s → r = s) := by
  refine ⟨fun o format x hv hfault => ?_, fun r hr hone => ?_, fun _ => rateClause_of_not_isFinite,
    fun _ _ _ _ => Kind.token_float_injective, fun _ _ => rateClause_injective⟩
  · rw [hv] at hfault
    have hx := Kind.isFinite_of_fault? hfault
    refine ⟨x.numeral, isShortest_numeral hx, ?_⟩
    rw [Observation.packet, hv, o.kind.token_float hx]
  · exact ⟨r.numeral, isShortest_numeral hr, by rw [rateClause_of_ne hone, text_of_isFinite hr]⟩

/-- A tenth, minus a quarter, the infinity below, and the neighbour of a tenth. -/
theorem floats_shortest_tenth :
    (∃ w : Numeral, (ofBits 0x3fb999999999999a : Binary64).IsShortest w ∧
      "load:+0.1|g" = "load:" ++ ("+" ++ .ofList w.text) ++ "|g") ∧
    (∃ w : Numeral, (ofBits 0xbe800000 : Binary32).IsShortest w ∧ "|@-0.25" = "|@" ++ .ofList w.text) ∧
    rateClause (ofBits 0xff800000) = "|@-inf" ∧
    Kind.token .gauge (.float (ofBits 0x3fb999999999999a)) ≠ Kind.token .timing (.float (ofBits 0x3fb999999999999b)) ∧
    rateClause .one ≠ rateClause (ofBits 0x3f800001) := by
  refine ⟨?_, ?_, ?_, fun h => ?_, fun h => ?_⟩
  · obtain ⟨w, hw, hpacket⟩ := floats_shortest.1
      ⟨"", "load", .gaugeDelta, .float (ofBits 0x3fb999999999999a), .one, []⟩ .suffixOctothorpe _ rfl (by decide +kernel)
    have hleft : Observation.packet
        ⟨"", "load", .gaugeDelta, .float (ofBits 0x3fb999999999999a), .one, []⟩ .suffixOctothorpe = "load:+0.1|g" := by
      decide +kernel
    rw [hleft, if_pos (by decide +kernel), rateClause_one] at hpacket
    refine ⟨w, hw, ?_⟩
    simpa [scopedName, Observation.nameTags, Observation.endTags, suffixTags, typeClause, Kind.suffix?] using hpacket
  · obtain ⟨w, hw, hclause⟩ := floats_shortest.2.1 (ofBits 0xbe800000) (by decide +kernel) (by decide +kernel)
    exact ⟨w, hw, by rw [← hclause]; decide +kernel⟩
  · rw [floats_shortest.2.2.1 _ (by decide +kernel)]
    decide +kernel
  · exact absurd (floats_shortest.2.2.2.1 _ _ _ _ (by decide +kernel) (by decide +kernel) h) (by decide +kernel)
  · exact absurd (floats_shortest.2.2.2.2 _ _ (by decide +kernel) (by decide +kernel) h) (by decide +kernel)

end MetricWire
