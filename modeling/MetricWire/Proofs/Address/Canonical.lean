import MetricWire.Address.Basic

/-!
The canonical text of an address.

`IPv6.Canonical` and `SocketAddress.Canonical` say which text an address is written as, without the search for the run
of zeros that `::` stands for: it is a run that no other one is longer than, and that no other one as long comes before.

  1. `IPv6.longestZeros_run`, `IPv6.longestZeros_longest` — the search finds this run.
  2. `IPv4.groups_ofGroups` — the two groups of a mapped address hold all of it.
  3. `IPv6.text_canonical`, `SocketAddress.text_canonical` — every address is written in its canonical text.
-/

namespace MetricWire

namespace IPv6

/-- So many groups from this one on are zero. -/
def ZeroRun (groups : List UInt16) (start run : Nat) : Prop := List.replicate run 0 <+: groups.drop start

/-- No run of zeros is longer than this one, and none as long comes before it. -/
def FirstLongest (groups : List UInt16) (start run : Nat) : Prop :=
  ∀ start' run', ZeroRun groups start' run' → run' ≤ run ∧ (run' = run → start ≤ start')

/-- The text of an IPv6 address. -/
inductive Canonical (ip : IPv6) : List Char → Prop
  /-- A mapped IPv4 address stays in its own notation. -/
  | mapped {v4 : IPv4} : ip.groups = [0, 0, 0, 0, 0, 0xffff, v4.groups.1, v4.groups.2] →
      Canonical ip ("::ffff:".toList ++ v4.text)
  /-- The first of the longest runs of at least two zero groups is left out. -/
  | compressed {start run : Nat} : ip.mapped? = none → 1 < run → ZeroRun ip.groups start run →
      FirstLongest ip.groups start run →
      Canonical ip (groupsText (ip.groups.take start) ++ "::".toList ++ groupsText (ip.groups.drop (start + run)))
  /-- Without two zero groups in a row all groups are written. -/
  | full : ip.mapped? = none → (∀ start run, ZeroRun ip.groups start run → run ≤ 1) →
      Canonical ip (groupsText ip.groups)

/-! ## The run of zeros -/

theorem zeroRun_zero_iff (groups : List UInt16) (run : Nat) : ZeroRun groups 0 run ↔ run ≤ leadingZeros groups := by
  rw [ZeroRun, List.drop_zero, leadingZeros]
  induction groups generalizing run with
  | nil => cases run <;> simp [List.replicate_succ]
  | cons g gs ih =>
    cases run with
    | zero => simp
    | succ run =>
      rw [List.replicate_succ, List.cons_prefix_cons, ih]
      by_cases hg : g = 0
      · simp [hg]
      · simp [hg, Ne.symm hg]

theorem zeroRun_cons_succ (g : UInt16) (groups : List UInt16) (start run : Nat) :
    ZeroRun (g :: groups) (start + 1) run ↔ ZeroRun groups start run := by
  rw [ZeroRun, ZeroRun, List.drop_succ_cons]

theorem longestZeros_run (groups : List UInt16) : ZeroRun groups (longestZeros groups).1 (longestZeros groups).2 := by
  induction groups with
  | nil => exact (zeroRun_zero_iff [] 0).mpr (Nat.zero_le _)
  | cons g gs ih =>
    simp only [longestZeros]
    split
    · exact (zeroRun_zero_iff (g :: gs) _).mpr (Nat.le_refl _)
    · exact (zeroRun_cons_succ g gs _ _).mpr ih

theorem longestZeros_longest (groups : List UInt16) :
    FirstLongest groups (longestZeros groups).1 (longestZeros groups).2 := by
  induction groups with
  | nil =>
    intro start run hrun
    have hzero : run ≤ 0 := by simpa [ZeroRun] using hrun.length_le
    exact ⟨hzero, fun _ => Nat.zero_le _⟩
  | cons g gs ih =>
    intro start run hrun
    simp only [longestZeros]
    cases start with
    | zero =>
      -- a run from the start is no longer than the leading zeros
      have hle := (zeroRun_zero_iff (g :: gs) run).mp hrun
      split
      · exact ⟨hle, fun _ => Nat.le_refl 0⟩
      · constructor <;> omega
    | succ start =>
      obtain ⟨hle, hfirst⟩ := ih start run ((zeroRun_cons_succ g gs start run).mp hrun)
      split
      · exact ⟨by omega, fun _ => Nat.zero_le _⟩
      · exact ⟨hle, fun h => by have := hfirst h; omega⟩

theorem ZeroRun.groups_eq {groups : List UInt16} {start run : Nat} (h : ZeroRun groups start run) :
    groups = groups.take start ++ List.replicate run 0 ++ groups.drop (start + run) := by
  obtain ⟨behind, hbehind⟩ := h
  have hdrop : groups.drop (start + run) = behind := by
    rw [← List.drop_drop, ← hbehind, List.drop_left' List.length_replicate]
  rw [hdrop, List.append_assoc, hbehind, List.take_append_drop]

theorem ZeroRun.add_le_length {groups : List UInt16} {start run : Nat} (h : ZeroRun groups start run)
    (hrun : 0 < run) : start + run ≤ groups.length := by
  have hle := h.length_le
  rw [List.length_replicate, List.length_drop] at hle
  omega

end IPv6

/-! ## Mapped addresses -/

theorem IPv4.groups_ofGroups (high low : UInt16) : (ofGroups high low).groups = (high, low) := by
  have halves (g : UInt16) :
      UInt16.ofNat ((UInt8.ofNat (g.toNat / 256)).toNat * 256 + (UInt8.ofNat (g.toNat % 256)).toNat) = g := by
    have hlt := g.toNat_lt
    rw [UInt8.toNat_ofNat_of_lt' (by change _ < 256; omega), UInt8.toNat_ofNat_of_lt' (by change _ < 256; omega),
      Nat.mul_comm, Nat.div_add_mod, UInt16.ofNat_toNat]
  rw [groups, ofGroups, halves, halves]

namespace IPv6

theorem mapped?_eq_some {ip : IPv6} {v4 : IPv4} (h : ip.mapped? = some v4) :
    ip.groups = [0, 0, 0, 0, 0, 0xffff, v4.groups.1, v4.groups.2] := by
  unfold mapped? at h
  split at h
  · rename_i high low hgroups
    rw [← Option.some.inj h, IPv4.groups_ofGroups, hgroups]
  · cases h

theorem text_canonical (ip : IPv6) : ip.Canonical ip.text := by
  unfold text
  cases hmapped : ip.mapped? with
  | some v4 => exact .mapped (mapped?_eq_some hmapped)
  | none =>
    have hrun := longestZeros_run ip.groups
    have hlongest := longestZeros_longest ip.groups
    generalize longestZeros ip.groups = found at hrun hlongest
    obtain ⟨start, run⟩ := found
    simp only
    split
    · rename_i hlong
      have hcanonical := Canonical.compressed hmapped hlong hrun hlongest
      rwa [List.append_assoc] at hcanonical
    · rename_i hshort
      refine .full hmapped fun start' run' hrun' => ?_
      have hle := (hlongest start' run' hrun').1
      omega

-- the longer run of zeros is left out, and not the first one
example : (IPv6.mk [0, 0, 1, 0, 0, 0, 0xab, 1] rfl).text = "0:0:1::ab:1".toList := by decide +kernel

end IPv6

namespace SocketAddress

/-- The text of a socket address. -/
inductive Canonical : SocketAddress → List Char → Prop
  | v4 (ip : IPv4) (port : UInt16) : Canonical (.v4 ip port) (ip.text ++ ":".toList ++ Decimal.digits port.toNat)
  | v6 {ip : IPv6} {t : List Char} (port : UInt16) : ip.Canonical t →
      Canonical (.v6 ip 0 port) ("[".toList ++ t ++ "]:".toList ++ Decimal.digits port.toNat)
  /-- A scope other than zero follows a percent sign. -/
  | v6Scope {ip : IPv6} {scope : UInt32} {t : List Char} (port : UInt16) : ip.Canonical t → scope ≠ 0 →
      Canonical (.v6 ip scope port)
        ("[".toList ++ t ++ "%".toList ++ Decimal.digits scope.toNat ++ "]:".toList ++ Decimal.digits port.toNat)

theorem text_canonical (a : SocketAddress) : a.Canonical a.text.toList := by
  rw [text, String.toList_ofList]
  cases a with
  | v4 ip port =>
    have h := Canonical.v4 ip port
    rwa [List.append_assoc] at h
  | v6 ip scope port =>
    by_cases hscope : scope = 0
    · have h := Canonical.v6 port ip.text_canonical
      simpa [chars, scopeText, hscope] using h
    · have h := Canonical.v6Scope port ip.text_canonical hscope
      simpa [chars, scopeText, hscope] using h

end SocketAddress

end MetricWire
