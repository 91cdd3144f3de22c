import MetricWire.Proofs.Address.Canonical
import MetricWire.Proofs.Address.Numbers

/-!
Canonical texts of addresses are read back.

The groups of an IPv6 address are read in rows, and at each group an IPv4 address is tried first, which may end the
row. So a row is read back only in front of a text that goes on with neither a digit nor a point, `Ends`; under this
no group is the start of an IPv4 address, and one group after the other is read, by induction on the row.

  1. `Reading.ipv4_text` — IPv4 addresses.
  2. `Reading.groups_cons`, `Reading.groups_further`, `Reading.groups_row` — one group, and rows of them.
  3. `Reading.ipv6_canonical` — IPv6 addresses, by the three forms of their text.
  4. `Reading.ipv4_took`, `Reading.ipv6_took` — nothing but digits, points and colons is taken for an address.
  5. `SocketAddress.ofChars?_canonical` — socket addresses.
-/

namespace MetricWire

namespace Reading

theorem ipv4_text (ip : IPv4) {rest : List Char} (hrest : Stops 10 rest) :
    ipv4 (ip.text ++ rest) = some (ip, rest) := by
  have point (rest : List Char) : Stops 10 ('.' :: rest) := .cons rest (by decide)
  simp [ipv4, IPv4.text, char, octet_digits, point, hrest]

/-! ## Rows of groups -/

/-- The text goes on neither with a hexadecimal digit nor with the point of an IPv4 address. -/
def Ends (rest : List Char) : Prop := Stops 16 rest ∧ rest.head? ≠ some '.'

theorem Ends.cons {c : Char} (rest : List Char) (h : isDigit 16 c = false ∧ c ≠ '.') : Ends (c :: rest) :=
  ⟨.cons rest h.1, by simpa using h.2⟩

theorem isDigit_hex {c : Char} (h : isDigit 10 c = true) : isDigit 16 c = true := by
  unfold isDigit digit? at h ⊢
  obtain ⟨d, hd⟩ := Option.isSome_iff_exists.mp h
  obtain ⟨hvalue, hlt⟩ := Option.filter_eq_some_iff.mp hd
  rw [hvalue, Option.filter_some_pos]
  · rfl
  · simp only [decide_eq_true_eq] at hlt ⊢
    omega

theorem Stops.decimal {rest : List Char} (h : Stops 16 rest) : Stops 10 rest := fun c hc => by
  have hhex := h c hc
  cases hdigit : isDigit 10 c with
  | false => rfl
  | true => rw [isDigit_hex hdigit] at hhex; cases hhex

/-- An IPv4 address needs a point behind its first number. -/
theorem ipv4_eq_none {s : List Char} (h : (s.dropWhile (isDigit 10)).head? ≠ some '.') : ipv4 s = none := by
  unfold ipv4
  cases hoctet : octet s with
  | none => rfl
  | some r =>
    obtain ⟨b, rest⟩ := r
    rw [← octet_rest hoctet] at h
    have hchar : char '.' rest = none := by
      cases rest with
      | nil => rfl
      | cons c rest => exact if_neg fun hc => h (congrArg some hc)
    simp [hchar]

/-- A group in hexadecimal does not begin an IPv4 address. -/
theorem ipv4_hex (g : UInt16) {rest : List Char} (hrest : Ends rest) :
    ipv4 (Nat.toDigits 16 g.toNat ++ rest) = none := by
  refine ipv4_eq_none ?_
  rw [List.dropWhile_append]
  split
  · rw [Span.dropWhile_eq_self hrest.1.decimal]
    exact hrest.2
  · rename_i hletters
    -- what is left of the group is a hexadecimal digit
    cases hleft : (Nat.toDigits 16 g.toNat).dropWhile (isDigit 10) with
    | nil => simp [hleft] at hletters
    | cons c left =>
      have hmem : c ∈ Nat.toDigits 16 g.toNat := by
        refine (List.dropWhile_sublist (isDigit 10)).subset ?_
        rw [hleft]
        exact List.mem_cons_self
      have hdigit := isDigit_toDigits (.inr rfl) _ c hmem
      rintro ⟨⟩
      revert hdigit
      decide

theorem ipv4_of_ends {s : List Char} (hs : Ends s) : ipv4 s = none := by
  refine ipv4_eq_none ?_
  rw [Span.dropWhile_eq_self hs.1.decimal]
  exact hs.2

def lead (isFirst : Bool) : List Char := if isFirst then [] else [':']

theorem afterColon_lead {α : Type} (isFirst : Bool) (read : List Char → Option (α × List Char)) (s : List Char) :
    afterColon isFirst read (lead isFirst ++ s) = read s := by
  cases isFirst <;> rfl

/-- Where neither an address nor a group can be read, the row is over. -/
theorem groups_stop {room : Nat} {isFirst : Bool} {s : List Char} (hipv4 : afterColon isFirst ipv4 s = none)
    (hgroup : afterColon isFirst group s = none) : groups room isFirst s = ([], false, s) := by
  cases room with
  | zero => rfl
  | succ room => rw [groups, hipv4, hgroup, ite_self]

theorem groups_cons (room : Nat) (isFirst : Bool) (g : UInt16) (rest : List Char) (hrest : Ends rest) :
    groups (room + 1) isFirst (lead isFirst ++ (Nat.toDigits 16 g.toNat ++ rest)) =
      (g :: (groups room false rest).1, (groups room false rest).2) := by
  rw [groups, afterColon_lead, afterColon_lead, ipv4_hex g hrest, group_hex g hrest.1, ite_self]

/-- An IPv4 address ends the row with two groups. -/
theorem groups_ipv4 (room : Nat) (ip : IPv4) {rest : List Char} (hrest : Stops 10 rest) :
    groups (room + 2) false (':' :: (ip.text ++ rest)) = ([ip.groups.1, ip.groups.2], true, rest) := by
  have hread : afterColon false ipv4 (':' :: (ip.text ++ rest)) = some (ip, rest) :=
    (afterColon_lead false ipv4 _).trans (ipv4_text ip hrest)
  rw [groups, if_neg (Nat.succ_ne_zero room), hread]

def further (gs : List UInt16) : List Char := gs.flatMap fun g => ':' :: Nat.toDigits 16 g.toNat

theorem groupsText_cons (g : UInt16) (gs : List UInt16) :
    IPv6.groupsText (g :: gs) = Nat.toDigits 16 g.toNat ++ further gs := by
  induction gs generalizing g with
  | nil => simp [IPv6.groupsText, further]
  | cons h gs ih => rw [IPv6.groupsText, ih, further, further, List.flatMap_cons, List.cons_append]; simp

theorem Ends.further {rest : List Char} (hrest : Ends rest) : ∀ gs, Ends (further gs ++ rest)
  | [] => hrest
  | _ :: _ => .cons _ (by decide)

theorem groups_further (gs : List UInt16) {room : Nat} {rest : List Char} (hrest : Ends rest)
    (hend : groups room false rest = ([], false, rest)) :
    groups (gs.length + room) false (further gs ++ rest) = (gs, false, rest) := by
  induction gs with
  | nil => simpa [further] using hend
  | cons g gs ih =>
    have htext : further (g :: gs) ++ rest = lead false ++ (Nat.toDigits 16 g.toNat ++ (further gs ++ rest)) := by
      simp [further, lead]
    have hroom : (g :: gs).length + room = gs.length + room + 1 := Nat.add_right_comm _ 1 room
    rw [htext, hroom, groups_cons _ _ _ _ (hrest.further gs), ih]

/-- A row is read back, where what follows it is no further group or there is no room for one. -/
theorem groups_row (gs : List UInt16) (room : Nat) (rest : List Char) (hrest : Ends rest)
    (hend : groups room false rest = ([], false, rest)) :
    groups (gs.length + room) true (IPv6.groupsText gs ++ rest) = (gs, false, rest) := by
  cases gs with
  | nil => exact groups_stop (ipv4_of_ends hrest) (group_of_stops hrest.1)
  | cons g gs =>
    have htext : IPv6.groupsText (g :: gs) ++ rest =
        lead true ++ (Nat.toDigits 16 g.toNat ++ (further gs ++ rest)) := by
      simp [groupsText_cons, lead]
    have hroom : (g :: gs).length + room = gs.length + room + 1 := Nat.add_right_comm _ 1 room
    rw [htext, hroom, groups_cons _ _ _ _ (hrest.further gs), groups_further gs hrest hend]

theorem groups_colons (room : Nat) (rest : List Char) :
    groups room false (':' :: ':' :: rest) = ([], false, ':' :: ':' :: rest) := by
  have hends : Ends (':' :: rest) := .cons rest (by decide)
  exact groups_stop (ipv4_of_ends hends) (group_of_stops hends.1)

theorem groups_no_colon (room : Nat) {c : Char} (rest : List Char) (hc : c ≠ ':') :
    groups room false (c :: rest) = ([], false, c :: rest) := by
  have hchar : char ':' (c :: rest) = none := if_neg hc
  refine groups_stop ?_ ?_ <;> simp [afterColon, hchar]

/-! ## Addresses -/

theorem ofGroups?_groups (ip : IPv6) : IPv6.ofGroups? ip.groups = some ip := dif_pos ip.length_eq

/-- Two rows around `::` and the zeros between them are an address. -/
theorem ipv6_rows {ip : IPv6} {s s' rest : List Char} {head tail : List UInt16} {run : Nat} {ended : Bool}
    (hgroups : ip.groups = head ++ List.replicate run 0 ++ tail) (hhead : head.length < 8)
    (hfirst : groups 8 true s = (head, false, ':' :: ':' :: s'))
    (hsecond : groups (7 - head.length) true s' = (tail, ended, rest)) : ipv6 s = some (ip, rest) := by
  have hrun : 8 - head.length - tail.length = run := by
    have hlength := ip.length_eq
    rw [hgroups, List.length_append, List.length_append, List.length_replicate] at hlength
    omega
  simp only [ipv6, hfirst, if_neg (Nat.ne_of_lt hhead), char, if_true, Option.bind_eq_bind, Option.bind_some, hsecond,
    hrun, ← hgroups, ofGroups?_groups]
  rfl

theorem ipv6_mapped {ip : IPv6} {v4 : IPv4} (h : ip.groups = [0, 0, 0, 0, 0, 0xffff, v4.groups.1, v4.groups.2])
    {rest : List Char} (hrest : Ends rest) : ipv6 ("::ffff:".toList ++ v4.text ++ rest) = some (ip, rest) := by
  have htext : "::ffff:".toList ++ v4.text ++ rest =
      ':' :: ':' :: (Nat.toDigits 16 (0xffff : UInt16).toNat ++ ':' :: (v4.text ++ rest)) := by
    rw [List.append_assoc]
    rfl
  have hgroups : ip.groups = [] ++ List.replicate 5 0 ++ [0xffff, v4.groups.1, v4.groups.2] := h
  have hsecond := groups_cons 6 true 0xffff (':' :: (v4.text ++ rest)) (.cons _ (by decide))
  rw [groups_ipv4 4 v4 hrest.1.decimal] at hsecond
  rw [htext]
  exact ipv6_rows hgroups (by decide) (groups_row [] 8 _ (.cons _ (by decide)) (groups_colons 8 _)) hsecond

theorem ipv6_compressed {ip : IPv6} {start run : Nat} (hlong : 1 < run) (hrun : IPv6.ZeroRun ip.groups start run)
    {c : Char} {rest : List Char} (hrest : Ends (c :: rest)) (hc : c ≠ ':') :
    ipv6 (IPv6.groupsText (ip.groups.take start) ++ "::".toList ++ IPv6.groupsText (ip.groups.drop (start + run)) ++
      c :: rest) = some (ip, c :: rest) := by
  have hle := hrun.add_le_length (by omega)
  rw [ip.length_eq] at hle
  have hhead : (ip.groups.take start).length = start := by rw [List.length_take, ip.length_eq]; omega
  have htail : (ip.groups.drop (start + run)).length = 8 - (start + run) := by rw [List.length_drop, ip.length_eq]
  have hfirst := groups_row (ip.groups.take start) (8 - start)
    (':' :: ':' :: (IPv6.groupsText (ip.groups.drop (start + run)) ++ c :: rest)) (.cons _ (by decide))
    (groups_colons _ _)
  rw [hhead, Nat.add_sub_cancel' (by omega)] at hfirst
  -- behind `::` there is room for one group less than there are zeros
  have hsecond := groups_row (ip.groups.drop (start + run)) (run - 1) (c :: rest) hrest (groups_no_colon _ _ hc)
  have hroom : 8 - (start + run) + (run - 1) = 7 - (ip.groups.take start).length := by omega
  rw [htail, hroom] at hsecond
  rw [List.append_assoc, List.append_assoc]
  exact ipv6_rows hrun.groups_eq (by omega) hfirst hsecond

theorem ipv6_full (ip : IPv6) {rest : List Char} (hrest : Ends rest) :
    ipv6 (IPv6.groupsText ip.groups ++ rest) = some (ip, rest) := by
  have hrow := groups_row ip.groups 0 rest hrest rfl
  rw [ip.length_eq] at hrow
  simp only [ipv6, hrow, if_pos ip.length_eq, ofGroups?_groups]
  rfl

theorem ipv6_canonical {ip : IPv6} {t : List Char} (h : ip.Canonical t) {c : Char} {rest : List Char}
    (hrest : Ends (c :: rest)) (hc : c ≠ ':') : ipv6 (t ++ c :: rest) = some (ip, c :: rest) := by
  cases h with
  | mapped hgroups => exact ipv6_mapped hgroups hrest
  | compressed _ hlong hrun _ => exact ipv6_compressed hlong hrun hrest hc
  | full _ _ => exact ipv6_full ip hrest

/-! ## The characters of an address -/

/-- A hexadecimal digit, or one of the marks between the numbers of an address. -/
def IsAddressChar (c : Char) : Prop := isDigit 16 c = true ∨ c = '.' ∨ c = ':'

/-- The text is `rest` behind such characters. -/
def Took (s rest : List Char) : Prop := ∃ taken, s = taken ++ rest ∧ ∀ c ∈ taken, IsAddressChar c

theorem Took.refl (s : List Char) : Took s s := ⟨[], rfl, fun c hc => by cases hc⟩

theorem Took.trans {s t rest : List Char} (h₁ : Took s t) (h₂ : Took t rest) : Took s rest := by
  obtain ⟨a, rfl, ha⟩ := h₁
  obtain ⟨b, rfl, hb⟩ := h₂
  refine ⟨a ++ b, (List.append_assoc a b rest).symm, ?_⟩
  intro c hc
  rcases List.mem_append.mp hc with h | h
  · exact ha c h
  · exact hb c h

theorem char_took {c : Char} (hc : IsAddressChar c) {s rest : List Char} (h : char c s = some rest) :
    Took s rest := by
  cases s with
  | nil => cases h
  | cons x s =>
    rw [char] at h
    split at h
    · next hx =>
      cases h
      refine ⟨[x], rfl, ?_⟩
      intro d hd
      rw [List.mem_singleton.mp hd, hx]
      exact hc
    · cases h

theorem number_took {base bound n : Nat} (hbase : base = 10 ∨ base = 16) {s rest : List Char}
    (h : number base bound s = some (n, rest)) : Took s rest := by
  simp only [number] at h
  split at h
  · cases h
  · cases h
    refine ⟨s.takeWhile (isDigit base), List.takeWhile_append_dropWhile.symm, ?_⟩
    intro c hc
    have hdigit := List.mem_takeWhile_imp hc
    rcases hbase with rfl | rfl
    · exact .inl (isDigit_hex hdigit)
    · exact .inl hdigit

theorem octet_took {s rest : List Char} {b : UInt8} (h : octet s = some (b, rest)) : Took s rest := by
  simp only [octet] at h
  split at h
  · cases h
  · obtain ⟨⟨n, left⟩, hnumber, heq⟩ := Option.map_eq_some_iff.mp h
    cases heq
    exact number_took (.inl rfl) hnumber

theorem group_took {s rest : List Char} {g : UInt16} (h : group s = some (g, rest)) : Took s rest := by
  unfold group at h
  split at h
  · cases h
  · obtain ⟨⟨n, left⟩, hnumber, heq⟩ := Option.map_eq_some_iff.mp h
    cases heq
    exact number_took (.inr rfl) hnumber

theorem point_took {s rest : List Char} (h : char '.' s = some rest) : Took s rest := char_took (.inr (.inl rfl)) h

theorem colon_took {s rest : List Char} (h : char ':' s = some rest) : Took s rest := char_took (.inr (.inr rfl)) h

theorem ipv4_took {s rest : List Char} {ip : IPv4} (h : ipv4 s = some (ip, rest)) : Took s rest := by
  simp only [ipv4, Option.bind_eq_bind, Option.bind_eq_some_iff, Option.pure_def, Option.some.injEq,
    Prod.mk.injEq] at h
  obtain ⟨⟨a, s₁⟩, ha, s₂, hp, ⟨b, s₃⟩, hb, s₄, hq, ⟨c, s₅⟩, hc, s₆, hr, ⟨d, s₇⟩, hd, -, rfl⟩ := h
  have hfirst := (octet_took ha).trans (point_took hp)
  have hsecond := (octet_took hb).trans (point_took hq)
  have hthird := (octet_took hc).trans (point_took hr)
  exact ((hfirst.trans hsecond).trans hthird).trans (octet_took hd)

theorem afterColon_took {α : Type} {read : List Char → Option (α × List Char)}
    (hread : ∀ {s x rest}, read s = some (x, rest) → Took s rest) {isFirst : Bool} {s rest : List Char} {x : α}
    (h : afterColon isFirst read s = some (x, rest)) : Took s rest := by
  cases isFirst with
  | true => exact hread h
  | false =>
    obtain ⟨t, hcolon, ht⟩ := Option.bind_eq_some_iff.mp h
    exact (colon_took hcolon).trans (hread ht)

theorem groups_took (room : Nat) (isFirst : Bool) (s : List Char) : Took s (groups room isFirst s).2.2 := by
  induction room generalizing isFirst s with
  | zero => exact .refl s
  | succ room ih =>
    rw [groups]
    split
    · next ip rest h =>
      split at h
      · cases h
      · exact afterColon_took ipv4_took h
    · split
      · exact .refl s
      · next g rest h => exact (afterColon_took group_took h).trans (ih false rest)

theorem ipv6_took {s rest : List Char} {ip : IPv6} (h : ipv6 s = some (ip, rest)) : Took s rest := by
  have hhead := groups_took 8 true s
  unfold ipv6 at h
  generalize groups 8 true s = row at h hhead
  obtain ⟨head, ended, left⟩ := row
  simp only at h hhead
  split at h
  · obtain ⟨x, -, heq⟩ := Option.map_eq_some_iff.mp h
    cases heq
    exact hhead
  · split at h
    · cases h
    · simp only [Option.bind_eq_bind, Option.bind_eq_some_iff, Option.pure_def, Option.some.injEq,
        Prod.mk.injEq] at h
      obtain ⟨s₁, h₁, s₂, h₂, x, -, -, rfl⟩ := h
      have hcolons := (colon_took h₁).trans (colon_took h₂)
      exact (hhead.trans hcolons).trans (groups_took _ true s₂)

theorem whole?_eq_some {α : Type} {r : Option (α × List Char)} {x : α} (h : whole? r = some x) : r = some (x, []) := by
  unfold whole? at h
  split at h
  · cases h
    rfl
  · cases h

theorem Took.whole {s : List Char} (h : Took s []) : ∀ c ∈ s, IsAddressChar c := by
  obtain ⟨taken, rfl, htaken⟩ := h
  rw [List.append_nil]
  exact htaken

/-! ## Socket addresses -/

theorem port_text (p : UInt16) : port (':' :: Decimal.digits p.toNat) = some (p, []) := by
  have hnumber := number_digits 65536 p.toNat_lt (.nil 10)
  rw [List.append_nil] at hnumber
  simp [port, char, hnumber]

theorem scope_text (scope : UInt32) (rest : List Char) :
    Reading.scope (SocketAddress.scopeText scope ++ ']' :: rest) = (scope, ']' :: rest) := by
  unfold SocketAddress.scopeText
  split
  · rename_i hzero
    rw [hzero]
    rfl
  · have hbracket : Stops 10 (']' :: rest) := .cons rest (by decide)
    simp [Reading.scope, char, number_digits 4294967296 scope.toNat_lt hbracket]

theorem socketV4_text (ip : IPv4) (p : UInt16) :
    socketV4 (ip.text ++ ':' :: Decimal.digits p.toNat) = some (.v4 ip p, []) := by
  have hcolon : Stops 10 (':' :: Decimal.digits p.toNat) := .cons _ (by decide)
  simp [socketV4, ipv4_text ip hcolon, port_text]

theorem socketV6_text {ip : IPv6} {t : List Char} (ht : ip.Canonical t) (scope : UInt32) (p : UInt16) :
    socketV6 ('[' :: (t ++ (SocketAddress.scopeText scope ++ ']' :: ':' :: Decimal.digits p.toNat))) =
      some (.v6 ip scope p, []) := by
  have hip : ipv6 (t ++ (SocketAddress.scopeText scope ++ ']' :: ':' :: Decimal.digits p.toNat)) =
      some (ip, SocketAddress.scopeText scope ++ ']' :: ':' :: Decimal.digits p.toNat) := by
    unfold SocketAddress.scopeText
    split
    · exact ipv6_canonical ht (.cons _ (by decide)) (by decide)
    · exact ipv6_canonical ht (.cons _ (by decide)) (by decide)
  simp [socketV6, char, hip, scope_text, port_text]

theorem socketV4_bracket (rest : List Char) : socketV4 ('[' :: rest) = none := by
  have hends : Ends ('[' :: rest) := .cons rest (by decide)
  rw [socketV4, ipv4_of_ends hends]
  rfl

end Reading

namespace SocketAddress

theorem ofChars?_v6 {ip : IPv6} {t : List Char} (ht : ip.Canonical t) (scope : UInt32) (p : UInt16) :
    ofChars? ('[' :: (t ++ (scopeText scope ++ ']' :: ':' :: Decimal.digits p.toNat))) = some (.v6 ip scope p) := by
  rw [ofChars?, Reading.socketV4_bracket, Reading.socketV6_text ht]
  rfl

theorem ofChars?_canonical {a : SocketAddress} {t : List Char} (h : a.Canonical t) : ofChars? t = some a := by
  cases h with
  | v4 ip p =>
    have hread := Reading.socketV4_text ip p
    rw [List.append_assoc, ofChars?]
    exact congrArg (fun r => Reading.whole? (r <|> _)) hread
  | @v6 ip t p ht =>
    have hread := ofChars?_v6 ht 0 p
    simpa [scopeText] using hread
  | @v6Scope ip scope t p ht hscope =>
    have hread := ofChars?_v6 ht scope p
    simpa [scopeText, hscope] using hread

end SocketAddress

end MetricWire
