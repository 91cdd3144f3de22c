import MetricWire.Proofs.Address.Literal
import MetricWire.Sink.Basic

/-!
The three ways to make a sink for the destination that a text stands for.

All that they have in common is the lookup, which one of them makes for the text, one for the text and then for the
address that came of it, and one before a resolver is set up. So what the lookup of a text ends in decides how all
three end, whatever the machine answers to the names of hosts.

Some texts have no name in them that a server would have to be asked for: literal socket addresses, texts without a
port, hosts with a NUL in them, and hosts that are literal addresses. `Lookup.Immediate` says for each of these what
it comes to.

  1. `splitAtLast?_append` — a text is divided at its last colon.
  2. `Lookup.addresses_of_immediate` — what the lookup of such a text comes to.
  3. `Lookup.addresses_text` — the canonical text of an address stands for it.
  4. `UdpSink.made_agree` — from the lookup to the sinks.
  5. `constructors_agree` — all of it together.
-/

namespace MetricWire

theorem splitAtLast?_eq_none {c : Char} : ∀ {s : List Char}, c ∉ s → splitAtLast? c s = none
  | [], _ => rfl
  | x :: s, h => by
    have hx : x ≠ c := fun hc => h (by rw [hc]; exact List.mem_cons_self)
    have hs : c ∉ s := fun hc => h (List.mem_cons_of_mem x hc)
    simp only [splitAtLast?, splitAtLast?_eq_none hs, if_neg hx]

theorem splitAtLast?_append {c : Char} {behind : List Char} (h : c ∉ behind) :
    ∀ before, splitAtLast? c (before ++ c :: behind) = some (before, behind)
  | [] => by
    show splitAtLast? c (c :: behind) = some ([], behind)
    simp only [splitAtLast?, splitAtLast?_eq_none h, if_true]
  | x :: before => by
    show splitAtLast? c (x :: (before ++ c :: behind)) = some (x :: before, behind)
    simp only [splitAtLast?, splitAtLast?_append h before]

/-- A literal address holds nothing but digits, points and colons. -/
theorem HostAddress.isAddressChar_of_ofChars? {s : List Char} {a : HostAddress} (h : ofChars? s = some a) :
    ∀ c ∈ s, Reading.IsAddressChar c := by
  unfold ofChars? at h
  cases h4 : Reading.whole? (Reading.ipv4 s) with
  | some ip => exact (Reading.ipv4_took (Reading.whole?_eq_some h4)).whole
  | none =>
    rw [h4] at h
    obtain ⟨ip, h6, -⟩ := Option.map_eq_some_iff.mp h
    exact (Reading.ipv6_took (Reading.whole?_eq_some h6)).whole

theorem HostAddress.nul_not_mem {s : List Char} {a : HostAddress} (h : ofChars? s = some a) : '\x00' ∉ s := by
  intro hnul
  rcases isAddressChar_of_ofChars? h _ hnul with hdigit | hpoint | hcolon
  · revert hdigit
    decide
  · cases hpoint
  · cases hcolon

/-- Literal addresses are not asked for: the machine takes them as they stand. -/
def NameService.TakesLiterals (names : NameService) : Prop :=
  ∀ name a, HostAddress.ofChars? name = some a → names.find name = .ok [a]

theorem NameService.offline_takesLiterals : offline.TakesLiterals := by
  intro name a h
  simp only [offline, h]

namespace Lookup

/-- What a text comes to that holds no name to be asked for. Port and host are looked at in this order. -/
inductive Immediate : List Char → Except IoError SocketAddress → Prop
  | literal {s a} : SocketAddress.ofChars? s = some a → Immediate s (.ok a)
  | noPort {s} : SocketAddress.ofChars? s = none → ':' ∉ s → Immediate s (.error .notASocketAddress)
  | badPort {host p} : SocketAddress.ofChars? (host ++ ':' :: p) = none → ':' ∉ p → port? p = none →
      Immediate (host ++ ':' :: p) (.error .notAPort)
  | nul {host p port} : SocketAddress.ofChars? (host ++ ':' :: p) = none → ':' ∉ p → port? p = some port →
      '\x00' ∈ host → Immediate (host ++ ':' :: p) (.error .nulInHost)
  | host {host p port a} : SocketAddress.ofChars? (host ++ ':' :: p) = none → ':' ∉ p → port? p = some port →
      HostAddress.ofChars? host = some a → Immediate (host ++ ':' :: p) (.ok (a.withPort port))

variable {names : NameService} {s : List Char}

theorem addresses_literal {a : SocketAddress} (h : SocketAddress.ofChars? s = some a) : addresses s names = .ok [a] := by
  rw [addresses, h]

theorem addresses_noPort (hs : SocketAddress.ofChars? s = none) (hcolon : ':' ∉ s) :
    addresses s names = .error .notASocketAddress := by
  simp only [addresses, hs, splitAtLast?_eq_none hcolon]

theorem addresses_badPort {name p : List Char} (hs : SocketAddress.ofChars? (name ++ ':' :: p) = none) (hp : ':' ∉ p)
    (hport : port? p = none) : addresses (name ++ ':' :: p) names = .error .notAPort := by
  simp only [addresses, hs, splitAtLast?_append hp, hport]

theorem addresses_host {name p : List Char} (hs : SocketAddress.ofChars? (name ++ ':' :: p) = none) (hp : ':' ∉ p)
    {port : UInt16} (hport : port? p = some port) : addresses (name ++ ':' :: p) names = host name port names := by
  simp only [addresses, hs, splitAtLast?_append hp, hport]

theorem host_literal (hnames : names.TakesLiterals) {name : List Char} {a : HostAddress}
    (h : HostAddress.ofChars? name = some a) (port : UInt16) : host name port names = .ok [a.withPort port] := by
  rw [host, if_neg (HostAddress.nul_not_mem h), hnames name a h]
  rfl

theorem addresses_of_immediate (hnames : names.TakesLiterals) {found : Except IoError SocketAddress}
    (h : Immediate s found) : addresses s names = found.map fun a => [a] := by
  cases h with
  | literal h => exact addresses_literal h
  | noPort hs hcolon => exact addresses_noPort hs hcolon
  | badPort hs hp hport => exact addresses_badPort hs hp hport
  | nul hs hp hport hnul =>
    rw [addresses_host hs hp hport]
    exact if_pos hnul
  | host hs hp hport hhost =>
    rw [addresses_host hs hp hport]
    exact host_literal hnames hhost _

theorem addresses_text (a : SocketAddress) (names : NameService) : addresses a.text.toList names = .ok [a] := by
  have hread := SocketAddress.ofChars?_canonical a.text_canonical
  exact addresses_literal hread

theorem destination_eq_error {s : String} {e : MetricError} (h : destination s names = .error e) :
    e = .noAddress ∨ ∃ cause, e = .unresolvable cause := by
  unfold destination at h
  cases haddresses : addresses s.toList names with
  | error cause =>
    rw [haddresses] at h
    cases h
    exact .inr ⟨cause, rfl⟩
  | ok found =>
    rw [haddresses] at h
    cases found with
    | nil =>
      cases h
      exact .inl rfl
    | cons a found => cases h

end Lookup

namespace UdpSink

/-- What the constructors make of a text: a sink that binds its own socket, one with a socket that is already bound
for a family, and one that looks the text up again from time to time. -/
def made (names : NameService) (transport : Transport) (family : AddressFamily) (s : String) :
    List (Except MetricError UdpSink) :=
  [toText transport s names, onSocket transport family (Lookup.addresses s.toList names), resolving transport s names]

/-- A new sink that sends to this address, with all counters at zero. -/
def IsNew (u : UdpSink) (a : SocketAddress) : Prop := u.address = a ∧ u.sent = [] ∧ u.telemetry = ⟨0, 0, 0, 0⟩

/-- All of them are new sinks for the address that was found, or all end with the error of the lookup. -/
def Agree (outcomes : List (Except MetricError UdpSink)) : Except MetricError SocketAddress → Prop
  | .ok a => ∀ outcome ∈ outcomes, ∃ u, outcome = .ok u ∧ u.IsNew a
  | .error e => ∀ outcome ∈ outcomes, outcome = .error e

theorem made_agree (names : NameService) (transport : Transport) (family : AddressFamily) (s : String) :
    Agree (made names transport family s) (Lookup.destination s names) := by
  unfold made toText toAddresses onSocket resolving Lookup.destination
  cases Lookup.first (Lookup.addresses s.toList names) with
  | error e => simp [Agree, bind, Except.bind]
  | ok a => simp [Agree, IsNew, Lookup.first, address, Destination.address, bind, Except.bind, pure, Except.pure]

end UdpSink

/-- **The constructors agree, and addresses are canonical.** For every text, and whatever the machine answers to the
names of hosts, the three constructors make new sinks for the address that the lookup found, or they all end with the
error of the lookup, which is of the category of invalid configurations and has the failure as its source. A text with
no name in it to be asked for comes to what `Lookup.Immediate` says, if the machine takes literal addresses as they
stand. Every address has a canonical text, from which all three make sinks for this address. -/
theorem constructors_agree (names : NameService) (transport : Transport) (family : AddressFamily) (s : String) :
    UdpSink.Agree (UdpSink.made names transport family s) (Lookup.destination s names) ∧
    (∀ e, Lookup.destination s names = .error e → e.kind = .invalidConfig ∧
      (e.text = "No socket addresses yielded" ∧ e.source? = none ∨
        ∃ cause, e.text = "Unable to resolve statsd address: " ++ cause.text ∧ e.source? = some cause)) ∧
    (names.TakesLiterals → ∀ found, Lookup.Immediate s.toList found →
      Lookup.destination s names = found.mapError .unresolvable) ∧
    ∀ a : SocketAddress, a.Canonical a.text.toList ∧
      UdpSink.Agree (UdpSink.made names transport family a.text) (.ok a) := by
  refine ⟨UdpSink.made_agree names transport family s, ?_, ?_, ?_⟩
  · intro e he
    rcases Lookup.destination_eq_error he with rfl | ⟨cause, rfl⟩
    · exact ⟨rfl, .inl ⟨rfl, rfl⟩⟩
    · exact ⟨rfl, .inr ⟨cause, rfl, rfl⟩⟩
  · intro hnames found hfound
    rw [Lookup.destination, Lookup.addresses_of_immediate hnames hfound]
    cases found <;> rfl
  · intro a
    have hmade := UdpSink.made_agree names transport family a.text
    rw [Lookup.destination, Lookup.addresses_text] at hmade
    exact ⟨a.text_canonical, hmade⟩

/-- A host without brackets, which maps an IPv4 address, and a port with a sign. -/
theorem constructors_agree_mapped :
    let s := "0:0::ffff:1.2.3.4:+80"
    let a : SocketAddress := .v6 ⟨[0, 0, 0, 0, 0, 0xffff, 0x102, 0x304], rfl⟩ 0 80
    NameService.offline.TakesLiterals ∧ Lookup.Immediate s.toList (.ok a) ∧ Lookup.destination s .offline = .ok a ∧
    a.text = "[::ffff:1.2.3.4]:80" ∧
    UdpSink.Agree (UdpSink.made .offline Network.isolated.transport .v4 s) (.ok a) := by
  intro s a
  have htext : s.toList = "0:0::ffff:1.2.3.4".toList ++ ':' :: "+80".toList := by decide
  have hhost : HostAddress.ofChars? "0:0::ffff:1.2.3.4".toList =
      some (.v6 ⟨[0, 0, 0, 0, 0, 0xffff, 0x102, 0x304], rfl⟩ 0) := by decide +kernel
  have hport : Lookup.port? "+80".toList = some 80 := by decide +kernel
  have hfound : Lookup.Immediate s.toList (.ok a) := by
    rw [htext]
    exact .host (by decide +kernel) (by decide) hport hhost
  obtain ⟨hagree, -, himmediate, -⟩ := constructors_agree .offline Network.isolated.transport .v4 s
  have hdestination := himmediate NameService.offline_takesLiterals _ hfound
  rw [hdestination] at hagree
  exact ⟨NameService.offline_takesLiterals, hfound, hdestination, by decide +kernel, hagree⟩

end MetricWire
