import MetricWire.Proofs.Binary.Round
import MetricWire.Proofs.Binary.Text

/-!
Reading numbers back from their text.

`Numeral.ofChars?` takes the text of a number apart: a sign or none, digits, and behind a point more digits. A numeral
without a point is an integer, and any numeral is the float that its value rounds to, with its sign.

  1. `Numeral.ofChars?_text`, `Numeral.ofChars?_plus` — a plain numeral is read from its text, also behind a plus.
  2. `Numeral.toInt_ofInt` — the numeral of an integer stands for the integer.
  3. `Binary.IsShortest.toBinary_eq` — the shortest numeral of a float stands for the float, bit for bit.
-/

namespace MetricWire

namespace Numeral

/-- The digits before the point and those behind it. A point has digits on both sides. -/
def ofUnsigned? (negative : Bool) (s : List Char) : Option Numeral :=
  match s.takeWhile Char.isDigit, s.dropWhile Char.isDigit with
  | [], _ => none
  | whole, [] => some ⟨negative, whole, []⟩
  | whole, point :: places =>
    if point = '.' ∧ places ≠ [] ∧ places.all Char.isDigit then some ⟨negative, whole, places⟩ else none

def ofChars? : List Char → Option Numeral
  | '-' :: s => ofUnsigned? true s
  | '+' :: s => ofUnsigned? false s
  | s => ofUnsigned? false s

def toInt (w : Numeral) : Int :=
  if w.negative then -(Nat.ofDigitChars 10 w.digits 0 : Int) else Nat.ofDigitChars 10 w.digits 0

def toBinary {f : Layout} (w : Numeral) : Binary f :=
  .ofBits ((if w.negative then 2 ^ (f.exponentBits + f.fractionBits) else 0) +
    f.nearest (Nat.ofDigitChars 10 w.digits 0) (10 ^ w.places.length))

/-- The integer in a text, if it is one. -/
def readInt? (s : List Char) : Option Int := (ofChars? s).bind fun w => if w.places = [] then some w.toInt else none

/-- The float nearest to the number in a text. -/
def readBinary? {f : Layout} (s : List Char) : Option (Binary f) := (ofChars? s).map toBinary

/-! ## Texts -/

theorem ofUnsigned?_text {w : Numeral} (hw : w.Plain) :
    ofUnsigned? w.negative (w.whole ++ if w.places = [] then [] else '.' :: w.places) = some w := by
  obtain ⟨c, ds, hwhole⟩ := List.exists_cons_of_ne_nil hw.whole_ne
  obtain ⟨htake, hdrop⟩ := span_text w.places hw.isDigit_whole
  have hplaces : w.places.all Char.isDigit = true := List.all_eq_true.mpr hw.isDigit_places
  rw [ofUnsigned?, htake, hdrop, hwhole]
  by_cases hnone : w.places = []
  · rw [if_pos hnone]
    simp only [← hwhole, ← hnone]
  · rw [if_neg hnone]
    simp only [hplaces, ← hwhole]
    rw [if_pos ⟨trivial, hnone, trivial⟩]

theorem ofUnsigned?_digits (negative : Bool) {ds : List Char} (hne : ds ≠ []) (hds : ∀ c ∈ ds, c.isDigit = true) :
    ofUnsigned? negative ds = some ⟨negative, ds, []⟩ := by
  obtain ⟨htake, hdrop⟩ := span_text [] hds
  rw [if_pos rfl, List.append_nil] at htake hdrop
  obtain ⟨c, rest, hcons⟩ := List.exists_cons_of_ne_nil hne
  rw [ofUnsigned?, htake, hdrop, hcons]

theorem ofChars?_of_isDigit {c : Char} (hc : c.isDigit = true) (s : List Char) :
    ofChars? (c :: s) = ofUnsigned? false (c :: s) := by
  have hminus : c ≠ '-' := fun h => absurd (h ▸ hc) (by decide)
  have hplus : c ≠ '+' := fun h => absurd (h ▸ hc) (by decide)
  rw [ofChars?] <;> simp_all

theorem ofChars?_text {w : Numeral} (hw : w.Plain) : ofChars? w.text = some w := by
  have hunsigned := ofUnsigned?_text hw
  rw [text, List.append_assoc]
  cases hsign : w.negative with
  | true =>
    rw [hsign] at hunsigned
    exact hunsigned
  | false =>
    rw [hsign] at hunsigned
    obtain ⟨c, ds, hwhole⟩ := List.exists_cons_of_ne_nil hw.whole_ne
    have hc : c.isDigit = true := hw.isDigit_whole c (by simp [hwhole])
    rw [hwhole] at hunsigned ⊢
    simp only [Bool.false_eq_true, if_false, List.nil_append, List.cons_append] at hunsigned ⊢
    rw [ofChars?_of_isDigit hc, hunsigned]

theorem ofChars?_plus {w : Numeral} (hw : w.Plain) (hsign : w.negative = false) :
    ofChars? ('+' :: w.text) = some w := by
  have hunsigned := ofUnsigned?_text hw
  rw [hsign] at hunsigned
  rw [text, hsign]
  exact hunsigned

/-! ## Integers -/

def ofInt (n : Int) : Numeral := Decimal.numeral ⟨n.natAbs, 0⟩ (decide (n < 0))

theorem ofInt_plain (n : Int) : (ofInt n).Plain := Decimal.numeral_plain _ _ fun h => absurd h (lt_irrefl 0)

/-- An integer is written as a sign, if it is negative, and the digits of its absolute value. -/
theorem toList_toString (n : Int) :
    (toString n).toList = (if n < 0 then ['-'] else []) ++ Decimal.digits n.natAbs := by
  have hrepr : n.natAbs.repr.toList = Decimal.digits n.natAbs := String.toList_ofList
  rw [← hrepr, Int.toString_eq_repr, Int.repr_eq_if]
  rcases lt_or_ge n 0 with hneg | hpos
  · have habs : (-n).toNat = n.natAbs := by omega
    rw [if_neg (by omega), if_pos hneg, String.toList_append, habs]
    rfl
  · have habs : n.toNat = n.natAbs := by omega
    rw [if_pos hpos, if_neg (by omega), habs]
    rfl

theorem ofInt_text (n : Int) : (toString n).toList = (ofInt n).text := by
  have hdigits : Decimal.positional ⟨n.natAbs, 0⟩ = Decimal.digits n.natAbs := by
    rw [Decimal.positional, if_pos le_rfl, Int.toNat_zero, Nat.pow_zero, Nat.mul_one]
  rw [ofInt, Decimal.numeral_text, hdigits, toList_toString]
  simp only [decide_eq_true_eq]

theorem toInt_ofInt (n : Int) : (ofInt n).toInt = n := by
  rw [toInt, ofInt, Decimal.ofDigitChars_numeral]
  simp only [Decimal.numeral, Int.toNat_zero, Nat.pow_zero, Nat.mul_one, decide_eq_true_eq]
  split <;> omega

end Numeral

/-! ## Floats -/

namespace Binary

variable {f : Layout}

/-- The shortest numeral of a float stands for no other float. -/
theorem IsShortest.toBinary_eq (hf : 0 < f.fractionBits) {x : Binary f} {w : Numeral} (hw : x.IsShortest w) :
    w.toBinary = x := by
  have hpos : 0 < 10 ^ w.places.length := Nat.pow_pos (by decide)
  have hlt := Nat.lt_of_le_of_lt
    (f.nearest_le_infinity (Nat.ofDigitChars 10 w.digits 0) (10 ^ w.places.length)) (infinity_lt f)
  obtain ⟨hsign, hmagnitude⟩ := ofBits_signed w.negative hlt
  refine eq_of_sign_magnitude (hsign.trans hw.sign) ?_
  have hrounds := rounds_ofRatio (f := f) hf (Nat.ofDigitChars 10 w.digits 0) hpos
  rw [Nat.cast_pow] at hrounds
  rw [← hrounds.magnitude_eq hf hw.rounds, magnitude_ofRatio]
  exact hmagnitude

end Binary

end MetricWire
