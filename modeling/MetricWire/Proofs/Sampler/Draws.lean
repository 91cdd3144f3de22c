import MetricWire.Proofs.Binary.Round
import MetricWire.Proofs.Client.Traffic

/-!
Sampling at random stops no program.

A coin decides at a probability, and may stop the program at a number that is none. The random sampler settles all rates
from one on, all up to zero, and what is no number. So whatever rates its clients are given, it tosses the coin only
strictly between zero and one, at just the rate.

  1. `Chance.decides` — which rates are settled, and at what the coin is tossed for the others.
  2. `Coin.Honest.exists_sample`, `Coin.Honest.answers_eq` — one question, and any questions in a row.
  3. `Coin.honest_ofWords`, `Coin.sample_ofWords` — the coin that the random sampler follows.
  4. `sampling_never_stops` — every run of clients that follow a coin.
-/

namespace MetricWire

open Binary

/-! ## Rates -/

/-- A number strictly between zero and one. -/
structure Binary.Fractional {f : Layout} (x : Binary f) : Prop where
  number : x.isNaN = false
  pos : 0 < x.signed
  lt_one : x.signed < 1

namespace Binary.Fractional
variable {f : Layout} {x : Binary f}

theorem isNegative_eq_false (h : x.Fractional) : x.isNegative = false := by
  by_contra hsign
  have hneg : x.signed = -x.value := if_pos (by simpa using hsign)
  linarith [h.pos, x.value_nonneg]

theorem signed_eq_value (h : x.Fractional) : x.signed = x.value := by
  rw [signed, h.isNegative_eq_false, if_neg Bool.false_ne_true]

theorem signed_convertAbs {g : Layout} (h : x.Fractional) (hg : 0 < g.fractionBits)
    (hbits : f.fractionBits ≤ g.fractionBits) (hmin : g.minExponent ≤ f.minExponent) (hb : 0 < g.bias) :
    (x.convertAbs : Binary g).signed = x.signed := by
  have hmax : x.value ≤ g.point g.infinity :=
    calc x.value = x.signed := h.signed_eq_value.symm
      _ ≤ 1 := h.lt_one.le
      _ = g.point (g.bias * 2 ^ g.fractionBits) := (g.point_one hb).symm
      _ ≤ g.point g.infinity := g.strictMono_point.monotone (bias_le_infinity g)
  have hsign : (x.convertAbs : Binary g).isNegative = false := isNegative_ofRatio _ _
  rw [signed, hsign, if_neg Bool.false_ne_true, value_convertAbs hg hbits hmin hmax, h.signed_eq_value]

end Binary.Fractional

namespace Chance
variable {rate : Binary32}

theorem one_atMost_iff : Binary.atMost .one rate = true ↔ rate.isNaN = false ∧ 1 ≤ rate.signed := by
  rw [atMost_iff, isNaN_one, signed_one (by decide)]
  exact and_iff_right rfl

theorem atMost_zero_iff : rate.atMost (.ofBits 0) = true ↔ rate.isNaN = false ∧ rate.signed ≤ 0 := by
  rw [atMost_iff, isNaN_zero, signed_zero]
  exact and_congr_right' (and_iff_right rfl)

theorem ofRate_of_one_le (h : rate.isNaN = false ∧ 1 ≤ rate.signed) : ofRate rate = .settled true :=
  if_pos (one_atMost_iff.mpr h)

theorem ofRate_of_le_zero (h : rate.isNaN = true ∨ rate.signed ≤ 0) : ofRate rate = .settled false := by
  have hone : ¬ Binary.atMost .one rate = true := by
    rw [one_atMost_iff]
    rintro ⟨hnumber, hle⟩
    rcases h with h | h
    · exact Bool.noConfusion (hnumber.symm.trans h)
    · linarith
  have hrefused : (rate.atMost (.ofBits 0) || rate.isNaN) = true := by
    cases hnumber : rate.isNaN with
    | true => exact Bool.or_true _
    | false => rw [atMost_zero_iff.mpr ⟨hnumber, h.resolve_left (by simp [hnumber])⟩, Bool.true_or]
  rw [ofRate, if_neg hone, if_pos hrefused]

theorem ofRate_of_fractional (h : rate.Fractional) : ofRate rate = .draw rate.convertAbs := by
  have hone : ¬ Binary.atMost .one rate = true := fun hone => h.lt_one.not_ge (one_atMost_iff.mp hone).2
  have hzero : rate.atMost (.ofBits 0) = false :=
    Bool.eq_false_iff.mpr fun hzero => h.pos.not_ge (atMost_zero_iff.mp hzero).2
  rw [ofRate, if_neg hone, hzero, h.number, Bool.or_false, if_neg Bool.false_ne_true]

/-- What is to be done about a rate: all from one on are admitted, and all up to zero refused, like what is no number.
For any other rate, a coin is tossed at the same number in the wider layout. -/
structure Decides (rate : Binary32) (chance : Chance) : Prop where
  admitted : chance = .settled true ↔ rate.isNaN = false ∧ 1 ≤ rate.signed
  refused : chance = .settled false ↔ rate.isNaN = true ∨ rate.signed ≤ 0
  drawn : ∀ p, chance = .draw p → p.Fractional ∧ p.signed = rate.signed

theorem decides (rate : Binary32) : Decides rate (ofRate rate) := by
  by_cases hone : rate.isNaN = false ∧ 1 ≤ rate.signed
  · have hpos : ¬ (rate.isNaN = true ∨ rate.signed ≤ 0) := by
      rintro (h | h)
      · exact Bool.noConfusion (hone.1.symm.trans h)
      · linarith [hone.2]
    rw [ofRate_of_one_le hone]
    exact ⟨iff_of_true rfl hone, iff_of_false nofun hpos, nofun⟩
  by_cases hzero : rate.isNaN = true ∨ rate.signed ≤ 0
  · rw [ofRate_of_le_zero hzero]
    exact ⟨iff_of_false nofun hone, iff_of_true rfl hzero, nofun⟩
  have hopen : rate.Fractional := by
    have hnumber : rate.isNaN = false := Bool.eq_false_iff.mpr fun h => hzero (.inl h)
    exact ⟨hnumber, not_le.mp fun h => hzero (.inr h), not_le.mp fun h => hone ⟨hnumber, h⟩⟩
  have hsigned : (rate.convertAbs : Binary64).signed = rate.signed :=
    hopen.signed_convertAbs (by decide) (by decide) (by decide) (by decide)
  have hwidened : (rate.convertAbs : Binary64).Fractional :=
    ⟨isNaN_ofRatio _ _, hsigned.symm ▸ hopen.pos, hsigned.symm ▸ hopen.lt_one⟩
  rw [ofRate_of_fractional hopen]
  refine ⟨iff_of_false nofun hone, iff_of_false nofun hzero, ?_⟩
  rintro p ⟨⟩
  exact ⟨hwidened, hsigned⟩

/-- The number that a coin is tossed at, if one is. -/
def probability? : Chance → Option Binary64
  | settled _ => none
  | draw p => some p

end Chance

/-! ## Coins -/

/-- A source of decisions at random: what is decided at a probability, given those of the earlier decisions, the latest
first. Nothing is decided where the program stops. -/
structure Coin where
  toss : List Binary64 → Binary64 → Option Bool

namespace Coin

/-- The coin stops the program only at what is no probability. -/
def Honest (c : Coin) : Prop :=
  ∀ past p, c.toss past p = none → p.isNaN = true ∨ p.signed < 0 ∨ 1 < p.signed

/-- The probabilities that a coin is tossed at, the latest first, if it is asked about these rates. -/
def drawn (asked : List Binary32) : List Binary64 := asked.filterMap fun rate => (Chance.ofRate rate).probability?

/-- The answer to a rate, if the coin has one where it is tossed. -/
def sample (c : Coin) (asked : List Binary32) (rate : Binary32) : Option Bool :=
  match Chance.ofRate rate with
  | .settled admitted => some admitted
  | .draw p => c.toss (drawn asked) p

/-- The answers to rates asked one after another, if the program is never stopped. -/
def answers (c : Coin) : List Binary32 → List Binary32 → Option (List Bool)
  | _, [] => some []
  | asked, rate :: rest =>
    (c.sample asked rate).bind fun admitted => (c.answers (rate :: asked) rest).map (admitted :: ·)

theorem fractional_of_mem_drawn {asked : List Binary32} {p : Binary64} (h : p ∈ drawn asked) : p.Fractional := by
  obtain ⟨rate, -, hp⟩ := List.mem_filterMap.mp h
  cases hrate : Chance.ofRate rate with
  | settled admitted =>
    rw [hrate] at hp
    cases hp
  | draw q =>
    rw [hrate] at hp
    cases hp
    exact ((Chance.decides rate).drawn p hrate).1

theorem Honest.exists_sample {c : Coin} (h : c.Honest) (asked : List Binary32) (rate : Binary32) :
    ∃ admitted, c.sample asked rate = some admitted := by
  rw [sample]
  cases hrate : Chance.ofRate rate with
  | settled admitted => exact ⟨admitted, rfl⟩
  | draw p =>
    obtain ⟨hp, -⟩ := (Chance.decides rate).drawn p hrate
    -- the coin may stop only where the probability cannot be
    refine Option.ne_none_iff_exists'.mp fun hstop => ?_
    rcases h _ p hstop with hnumber | hneg | hlarge
    · exact Bool.noConfusion (hp.number.symm.trans hnumber)
    · exact hneg.not_gt hp.pos
    · exact hlarge.not_gt hp.lt_one

end Coin

/-- The sampler answers as the coin decides. -/
def Sampler.Follows (s : Sampler) (c : Coin) : Prop :=
  ∀ asked rate admitted, c.sample asked rate = some admitted → s.admits asked rate = admitted

theorem Coin.Honest.answers_eq {c : Coin} {s : Sampler} (h : c.Honest) (hs : s.Follows c)
    (asked rates : List Binary32) : c.answers asked rates = some (s.answers asked rates) := by
  -- one more rate was asked about when the rest is
  induction rates generalizing asked with
  | nil => rfl
  | cons rate rest ih =>
    obtain ⟨admitted, hsample⟩ := h.exists_sample asked rate
    rw [answers, hsample, ih, Sampler.answers, hs asked rate admitted hsample]
    rfl

/-! ## The coin of the random sampler -/

namespace Coin

/-- The coin that holds words, one for each toss, against a probability. It stops the program outside the interval from
zero to one. -/
def ofWords (words : Nat → UInt64) : Coin where
  toss past p :=
    if Binary.atMost (.ofBits 0) p && p.atMost .one then some ((words past.length).toNat < Chance.favourable p)
    else none

theorem toss_ofWords (words : Nat → UInt64) (past : List Binary64) {p : Binary64} (hnumber : p.isNaN = false)
    (hzero : 0 ≤ p.signed) (hone : p.signed ≤ 1) :
    (ofWords words).toss past p = some (decide ((words past.length).toNat < Chance.favourable p)) := by
  have hfirst : Binary.atMost (.ofBits 0) p = true := atMost_iff.mpr ⟨isNaN_zero, hnumber, signed_zero.trans_le hzero⟩
  have hlast : p.atMost .one = true :=
    atMost_iff.mpr ⟨hnumber, isNaN_one, hone.trans_eq (signed_one (by decide)).symm⟩
  simp only [ofWords, hfirst, hlast, Bool.and_self, if_true]

theorem honest_ofWords (words : Nat → UInt64) : (ofWords words).Honest := by
  intro past p hstop
  by_contra hinside
  push Not at hinside
  obtain ⟨hnumber, hzero, hone⟩ := hinside
  rw [toss_ofWords words past (Bool.eq_false_iff.mpr hnumber) hzero hone] at hstop
  cases hstop

theorem length_drawn (asked : List Binary32) : (drawn asked).length = asked.countP Sampler.needsDraw := by
  rw [drawn, List.length_filterMap_eq_countP]
  congr 1
  funext rate
  rw [Sampler.needsDraw]
  cases Chance.ofRate rate <;> rfl

theorem sample_ofWords (words : Nat → UInt64) (asked : List Binary32) (rate : Binary32) :
    (ofWords words).sample asked rate = some ((Sampler.random words).admits asked rate) := by
  rw [sample, Sampler.random]
  cases hrate : Chance.ofRate rate with
  | settled admitted => simp only [hrate]
  | draw p =>
    obtain ⟨hp, -⟩ := (Chance.decides rate).drawn p hrate
    simp only [hrate, toss_ofWords words _ hp.number hp.pos.le hp.lt_one.le, length_drawn]

end Coin

theorem Sampler.random_follows (words : Nat → UInt64) : (random words).Follows (.ofWords words) := by
  intro asked rate admitted hsample
  rw [Coin.sample_ofWords] at hsample
  exact Option.some.inj hsample

/-! ## Runs -/

/-- **Sampling at random never stops the program.** Rates from one on are admitted and rates up to zero refused without
a toss, and so is what is no number. The coin is tossed for the rates between, at the same number in the wider layout,
and there a coin that keeps its word decides. So in every run of every family that samples by such a coin, whatever
rates its members are given, all questions are answered as the coin decides, and every toss is strictly between zero
and one. The random sampler follows a coin of this kind. -/
theorem sampling_never_stops :
    (∀ rate, Chance.Decides rate (Chance.ofRate rate)) ∧
    (∀ coin : Coin, coin.Honest → ∀ asked rate, ∃ admitted, coin.sample asked rate = some admitted) ∧
    (∀ coin : Coin, coin.Honest → ∀ (f : Family) (actions : List Action), f.hub.options.sampler.Follows coin →
      let questions := (f.run actions).events.filterMap Event.query?
      coin.answers f.hub.asked (questions.map (·.1)) = some (questions.map (·.2)) ∧
      ∀ p ∈ Coin.drawn (questions.map (·.1)), p.Fractional) ∧
    ∀ words, (Coin.ofWords words).Honest ∧ (Sampler.random words).Follows (.ofWords words) := by
  refine ⟨Chance.decides, fun coin hcoin => hcoin.exists_sample, ?_,
    fun words => ⟨Coin.honest_ofWords words, Sampler.random_follows words⟩⟩
  intro coin hcoin f actions hfollows questions
  have hquestions : questions = ((f.observations actions).map (·.rate)).zip (f.answers actions) := f.run_queries actions
  have hlength : ((f.observations actions).map (·.rate)).length = (f.answers actions).length :=
    (Sampler.length_answers _ _ _).symm
  refine ⟨?_, fun p => Coin.fractional_of_mem_drawn⟩
  rw [hquestions, List.map_fst_zip hlength.le, List.map_snd_zip hlength.ge]
  exact hcoin.answers_eq hfollows _ _

/-- A half, what is no number with a sign, zero with a sign, and the last number below one, by words that are all in the
middle. -/
theorem sampling_never_stops_halves :
    let words : Nat → UInt64 := fun _ => 0x8000000000000000
    let coin := Coin.ofWords words
    let f := Family.ofClient "app" .discard { sampler := .random words }
    let ask (bits : Nat) : Action := .record 0 ⟨"n", .increment 1, .ofBits bits, []⟩
    let actions := [ask 0x3f000000, ask 0xff800001, ask 0x80000000, ask 0x3f7fffff]
    let questions := (f.run actions).events.filterMap Event.query?
    coin.Honest ∧ f.hub.options.sampler.Follows coin ∧
    questions.map (·.2) = [false, false, false, true] ∧
    coin.answers [] (questions.map (·.1)) = some [false, false, false, true] ∧
    Coin.drawn (questions.map (·.1)) = [.ofBits 0x3fe0000000000000, .ofBits 0x3fefffffe0000000] ∧
    (∀ p ∈ Coin.drawn (questions.map (·.1)), p.Fractional) ∧
    ∃ admitted, coin.sample [] (.ofBits 0x3f7fffff) = some admitted := by
  intro words coin f ask actions questions
  obtain ⟨-, hsample, hrun, hrandom⟩ := sampling_never_stops
  obtain ⟨hcoin, hfollows⟩ := hrandom words
  obtain ⟨hanswers, hfractional⟩ := hrun coin hcoin f actions hfollows
  have hadmitted : questions.map (·.2) = [false, false, false, true] := by decide +kernel
  have hdrawn : Coin.drawn (questions.map (·.1)) = [.ofBits 0x3fe0000000000000, .ofBits 0x3fefffffe0000000] := by
    decide +kernel
  refine ⟨hcoin, hfollows, hadmitted, ?_, hdrawn, hfractional, hsample coin hcoin [] _⟩
  rw [← hadmitted]
  exact hanswers

end MetricWire
