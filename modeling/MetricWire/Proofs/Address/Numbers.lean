import MetricWire.Address.Basic
import MetricWire.Proofs.Decimal.Positional

/-!
Reading the numbers of an address.

A number is read from its digits up to the first character that is no digit; what follows is left over. Each of the
lemmas here is about written digits with any text behind them that does not go on with a digit, so they can be put one
behind the other.

  1. `Reading.value_toDigits` — digits denote the number that they were made of.
  2. `Reading.number_toDigits` — a number below its bound is read back.
  3. `Reading.octet_digits`, `Reading.group_hex` — the numbers of IPv4 and IPv6 addresses, which have few digits.
-/

namespace MetricWire

namespace Reading

/-- The text does not go on with a digit. -/
def Stops (base : Nat) (rest : List Char) : Prop := ∀ c, rest.head? = some c → isDigit base c = false

theorem Stops.nil (base : Nat) : Stops base [] := by
  rintro c ⟨⟩

theorem Stops.cons {base : Nat} {c : Char} (rest : List Char) (h : isDigit base c = false) :
    Stops base (c :: rest) := by
  rintro d ⟨⟩
  exact h

/-- The numbers of an address are decimal or hexadecimal. -/
theorem digit?_digitChar {base d : Nat} (hbase : base = 10 ∨ base = 16) (hd : d < base) :
    digit? base d.digitChar = some d := by
  rcases hbase with rfl | rfl
  · revert d
    decide
  · revert d
    decide

theorem isDigit_toDigits {base : Nat} (hbase : base = 10 ∨ base = 16) (n : Nat) :
    ∀ c ∈ Nat.toDigits base n, isDigit base c = true := by
  have hone : 1 < base := by omega
  induction n using Nat.strongRecOn with
  | ind n ih =>
    intro c hc
    rw [Nat.toDigits_eq_if hone] at hc
    split at hc
    · rename_i hlt
      rw [List.mem_singleton.mp hc, isDigit, digit?_digitChar hbase hlt]
      rfl
    · rename_i hge
      rcases List.mem_append.mp hc with hc | hc
      · exact ih (n / base) (Nat.div_lt_self (by omega) hone) c hc
      · rw [List.mem_singleton.mp hc, isDigit, digit?_digitChar hbase (Nat.mod_lt _ (by omega))]
        rfl

theorem value_toDigits {base : Nat} (hbase : base = 10 ∨ base = 16) (n : Nat) :
    value base (Nat.toDigits base n) = n := by
  have hone : 1 < base := by omega
  induction n using Nat.strongRecOn with
  | ind n ih =>
    rw [Nat.toDigits_eq_if hone]
    split
    · rename_i hlt
      simp [value, digit?_digitChar hbase hlt]
    · rename_i hge
      have hprefix := ih (n / base) (Nat.div_lt_self (by omega) hone)
      have hlast := digit?_digitChar hbase (Nat.mod_lt n (show 0 < base by omega))
      rw [value] at hprefix ⊢
      rw [List.foldl_append, hprefix, List.foldl_cons, List.foldl_nil, hlast, Option.getD_some, Nat.div_add_mod]

/-- The digits of a number end where they were written to end. -/
theorem span_toDigits {base : Nat} (hbase : base = 10 ∨ base = 16) (n : Nat) {rest : List Char}
    (hrest : Stops base rest) :
    (Nat.toDigits base n ++ rest).takeWhile (isDigit base) = Nat.toDigits base n ∧
      (Nat.toDigits base n ++ rest).dropWhile (isDigit base) = rest :=
  Span.append (isDigit_toDigits hbase n) hrest

theorem number_toDigits {base bound n : Nat} (hbase : base = 10 ∨ base = 16) (hn : n < bound) {rest : List Char}
    (hrest : Stops base rest) : number base bound (Nat.toDigits base n ++ rest) = some (n, rest) := by
  obtain ⟨htake, hdrop⟩ := span_toDigits hbase n hrest
  simp only [number, htake, hdrop, value_toDigits hbase]
  rw [if_neg]
  rintro (hnil | hbound)
  · exact Nat.toDigits_ne_nil hnil
  · omega

theorem number_of_stops {base bound : Nat} {s : List Char} (hs : Stops base s) : number base bound s = none := by
  rw [number, Span.takeWhile_eq_nil hs]
  simp

theorem number_digits (bound : Nat) {n : Nat} (hn : n < bound) {rest : List Char} (hrest : Stops 10 rest) :
    number 10 bound (Decimal.digits n ++ rest) = some (n, rest) :=
  number_toDigits (.inl rfl) hn hrest

/-! ## Octets and groups -/

theorem hasLeadingZero_digits (n : Nat) : hasLeadingZero (Decimal.digits n) = false := by
  unfold hasLeadingZero
  split
  · rename_i hdigits
    -- digits that start with a zero are those of zero, and that is one digit only
    have hzero : n = 0 := Decimal.head?_digits (by rw [hdigits]; rfl)
    rw [hzero] at hdigits
    cases hdigits
  · rfl

theorem octet_digits (b : UInt8) {rest : List Char} (hrest : Stops 10 rest) :
    octet (Decimal.digits b.toNat ++ rest) = some (b, rest) := by
  have hlt := b.toNat_lt
  have hlength : (Decimal.digits b.toNat).length ≤ 3 :=
    (Nat.length_toDigits_le_iff (by decide) (by decide)).mpr (by omega)
  have htake := (span_toDigits (.inl rfl) b.toNat hrest).1
  have hnumber := number_digits 256 hlt hrest
  rw [← Decimal.digits] at htake
  simp only [octet, htake, hasLeadingZero_digits, hnumber, Bool.or_false, decide_eq_true_eq]
  rw [if_neg (by omega), Option.map_some, UInt8.ofNat_toNat]

theorem group_hex (g : UInt16) {rest : List Char} (hrest : Stops 16 rest) :
    group (Nat.toDigits 16 g.toNat ++ rest) = some (g, rest) := by
  have hlt := g.toNat_lt
  have hlength : (Nat.toDigits 16 g.toNat).length ≤ 4 :=
    (Nat.length_toDigits_le_iff (by decide) (by decide)).mpr (by omega)
  have htake := (span_toDigits (.inr rfl) g.toNat hrest).1
  rw [group, htake, if_neg (by omega), number_toDigits (.inr rfl) (by omega) hrest, Option.map_some,
    UInt16.ofNat_toNat]

theorem group_of_stops {s : List Char} (hs : Stops 16 s) : group s = none := by
  rw [group, number_of_stops hs]
  split <;> rfl

theorem octet_rest {s rest : List Char} {b : UInt8} (h : octet s = some (b, rest)) :
    rest = s.dropWhile (isDigit 10) := by
  simp only [octet, number] at h
  split at h
  · cases h
  · split at h
    · cases h
    · exact (congrArg Prod.snd (Option.some.inj h)).symm

end Reading

end MetricWire
