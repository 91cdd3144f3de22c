import Mathlib.Data.List.Induction
import MetricWire.Proofs.Sink.Accounting

/-!
Where a resolving sink sends to.

A lookup is compared with the current address and not with the first one, so all that is known of a resolver at some
moment is carried there through the lookups before. `Resolver.settled` says what they lead to, without the resolver:
the last address that was found of the family of the first one.

  1. `Resolver.update_cases` — the four ways in which a lookup can end.
  2. `Resolver.after_current`, `Resolver.settled_family` — any number of lookups, whatever they find.
  3. `Resolver.logged`, `Resolver.update_again` — what a lookup writes to the log, and what the same lookup writes again.
  4. `Family.step_follows`, `Family.run_follows` — the sink of a family, among all that its members do.
  5. `destination_run` — all of it together.
-/

namespace MetricWire

/-- The address that a lookup found, if it is of this family. -/
def AddressFamily.found? (family : AddressFamily) : Except MetricError SocketAddress → Option SocketAddress
  | .ok a => if a.family = family then some a else none
  | .error _ => none

def Action.lookup? : Action → Option (Except MetricError SocketAddress)
  | .lookedUp outcome => some outcome
  | _ => none

namespace Resolver

/-- The address that lookups lead to: the last one found of the family of the first address. -/
def settled (first : SocketAddress) (outcomes : List (Except MetricError SocketAddress)) : SocketAddress :=
  (outcomes.filterMap first.family.found?).getLast?.getD first

/-- The resolver behind these lookups. -/
def after (r : Resolver) (outcomes : List (Except MetricError SocketAddress)) : Resolver :=
  outcomes.foldl (fun r outcome => (r.update outcome).1) r

/-- What a lookup writes to the log. -/
def lines (r : Resolver) (outcome : Except MetricError SocketAddress) : List LogLine :=
  ((r.update outcome).2.map .resolution).toList

/-! ## One lookup -/

/-- A lookup finds the current address, another one of its family, or one of the other family, or it fails. -/
theorem update_cases (r : Resolver) (outcome : Except MetricError SocketAddress) :
    outcome = .ok r.current ∧ r.update outcome = (r, none) ∨
    (∃ a, outcome = .ok a ∧ a ≠ r.current ∧ a.family = r.current.family ∧
      r.update outcome = ({ r with current := a }, some (.moved r.host r.current a))) ∨
    (∃ a, outcome = .ok a ∧ a.family ≠ r.current.family ∧
      r.update outcome = (r, some (.otherFamily r.host r.current a))) ∨
    ∃ e, outcome = .error e ∧ r.update outcome = (r, some (.failed r.host r.current e)) := by
  cases outcome with
  | error e => exact .inr (.inr (.inr ⟨e, rfl, rfl⟩))
  | ok a =>
    by_cases hsame : a = r.current
    · exact .inl ⟨congrArg _ hsame, if_pos hsame⟩
    · by_cases hfamily : a.family = r.current.family
      · refine .inr (.inl ⟨a, rfl, hsame, hfamily, ?_⟩)
        simp only [update, if_neg hsame, if_pos hfamily]
      · refine .inr (.inr (.inl ⟨a, rfl, hfamily, ?_⟩))
        simp only [update, if_neg hsame, if_neg hfamily]

theorem update_host (r : Resolver) (outcome : Except MetricError SocketAddress) :
    (r.update outcome).1.host = r.host := by
  rcases r.update_cases outcome with ⟨-, h⟩ | ⟨a, -, -, -, h⟩ | ⟨a, -, -, h⟩ | ⟨e, -, h⟩ <;> rw [h]

theorem update_current (r : Resolver) (outcome : Except MetricError SocketAddress) :
    (r.update outcome).1.current = (r.current.family.found? outcome).getD r.current := by
  rcases r.update_cases outcome with ⟨rfl, h⟩ | ⟨a, rfl, -, hf, h⟩ | ⟨a, rfl, hf, h⟩ | ⟨e, rfl, h⟩ <;> rw [h]
  · simp [AddressFamily.found?]
  · simp [AddressFamily.found?, hf]
  · simp [AddressFamily.found?, hf]
  · rfl

/-- What the log tells of a lookup that found `old` as the current address and left `new`. -/
structure Logged (host : String) (old : SocketAddress) (outcome : Except MetricError SocketAddress)
    (new : SocketAddress) (lines : List LogLine) : Prop where
  length_le : lines.length ≤ 1
  /-- Nothing is written just if the current address was found. -/
  silent_iff : lines = [] ↔ outcome = .ok old
  moved_iff : (∃ line ∈ lines, line.level = .debug) ↔ new ≠ old
  moved_text : ∀ line ∈ lines, line.level = .debug →
    line.text = "statsd address for " ++ host ++ " changed from " ++ old.text ++ " to " ++ new.text
  kept_iff : (∃ line ∈ lines, line.level = .warn) ↔
    (∃ e, outcome = .error e) ∨ ∃ a, outcome = .ok a ∧ a.family ≠ old.family
  kept_text : ∀ line ∈ lines, line.level = .warn → new = old ∧
    ((∃ e, outcome = .error e ∧
        line.text = "unable to re-resolve statsd address " ++ host ++ ", keeping " ++ old.text ++ ": " ++ e.text) ∨
      ∃ a, outcome = .ok a ∧ line.text =
        "statsd address for " ++ host ++ " moved to " ++ a.text ++ " of another family, keeping " ++ old.text)

theorem Logged.silent (host : String) (old : SocketAddress) : Logged host old (.ok old) old [] := by
  constructor <;> simp

theorem Logged.moved (host : String) {old new : SocketAddress} (hne : new ≠ old) (hf : new.family = old.family) :
    Logged host old (.ok new) new [.resolution (.moved host old new)] where
  length_le := Nat.le_refl 1
  silent_iff := by simp [hne]
  moved_iff := by simp [LogLine.level, hne]
  moved_text := by
    intro line hline _
    rw [List.mem_singleton.mp hline]
    rfl
  kept_iff := by simp [LogLine.level, hf]
  kept_text := by
    intro line hline hwarn
    rw [List.mem_singleton.mp hline] at hwarn
    cases hwarn

/-- The two warnings differ in their texts only. -/
theorem Logged.kept {host : String} {old : SocketAddress} {outcome : Except MetricError SocketAddress} {line : LogLine}
    (hwarn : line.level = .warn)
    (hcause : (∃ e, outcome = .error e) ∨ ∃ a, outcome = .ok a ∧ a.family ≠ old.family)
    (htext : (∃ e, outcome = .error e ∧
        line.text = "unable to re-resolve statsd address " ++ host ++ ", keeping " ++ old.text ++ ": " ++ e.text) ∨
      ∃ a, outcome = .ok a ∧ line.text =
        "statsd address for " ++ host ++ " moved to " ++ a.text ++ " of another family, keeping " ++ old.text) :
    Logged host old outcome old [line] where
  length_le := Nat.le_refl 1
  silent_iff := by
    refine ⟨fun h => absurd h (List.cons_ne_nil _ _), ?_⟩
    rintro rfl
    rcases hcause with ⟨e, h⟩ | ⟨a, h, hf⟩
    · cases h
    · cases h
      exact absurd rfl hf
  moved_iff := by simp [hwarn]
  moved_text := by
    intro line' hline hdebug
    rw [List.mem_singleton.mp hline, hwarn] at hdebug
    cases hdebug
  kept_iff := ⟨fun _ => hcause, fun _ => ⟨line, List.mem_singleton_self line, hwarn⟩⟩
  kept_text := by
    intro line' hline _
    rw [List.mem_singleton.mp hline]
    exact ⟨rfl, htext⟩

theorem logged (r : Resolver) (outcome : Except MetricError SocketAddress) :
    Logged r.host r.current outcome (r.update outcome).1.current (r.lines outcome) := by
  unfold lines
  rcases r.update_cases outcome with ⟨rfl, h⟩ | ⟨a, rfl, hne, hf, h⟩ | ⟨a, rfl, hf, h⟩ | ⟨e, rfl, h⟩ <;> rw [h]
  · exact .silent r.host r.current
  · exact .moved r.host hne hf
  · exact .kept rfl (.inr ⟨a, rfl, hf⟩) (.inr ⟨a, rfl, rfl⟩)
  · exact .kept rfl (.inl ⟨e, rfl⟩) (.inl ⟨e, rfl, rfl⟩)

theorem update_again (r : Resolver) (outcome : Except MetricError SocketAddress) :
    ((r.update outcome).1.update outcome).1 = (r.update outcome).1 ∧
    ∀ line ∈ (r.update outcome).1.lines outcome, line.level = .warn ∧ line ∈ r.lines outcome := by
  unfold lines
  rcases r.update_cases outcome with ⟨rfl, h⟩ | ⟨a, rfl, hne, hf, h⟩ | ⟨a, rfl, hf, h⟩ | ⟨e, rfl, h⟩ <;> rw [h]
  · simp [h]
  · simp [update]
  · simp [h, LogLine.level]
  · simp [h, LogLine.level]

/-! ## Any number of lookups -/

theorem settled_concat (first : SocketAddress) (outcomes : List (Except MetricError SocketAddress))
    (outcome : Except MetricError SocketAddress) :
    settled first (outcomes ++ [outcome]) = (first.family.found? outcome).getD (settled first outcomes) := by
  rw [settled, List.filterMap_append, List.getLast?_append]
  cases h : first.family.found? outcome <;> simp [h, settled]

theorem after_concat (r : Resolver) (outcomes : List (Except MetricError SocketAddress))
    (outcome : Except MetricError SocketAddress) :
    r.after (outcomes ++ [outcome]) = ((r.after outcomes).update outcome).1 := by
  simp [after]

theorem after_host (r : Resolver) (outcomes : List (Except MetricError SocketAddress)) :
    (r.after outcomes).host = r.host := by
  induction outcomes using List.reverseRecOn with
  | nil => rfl
  | append_singleton outcomes outcome ih => rw [after_concat, update_host, ih]

theorem settled_family (first : SocketAddress) (outcomes : List (Except MetricError SocketAddress)) :
    (settled first outcomes).family = first.family := by
  unfold settled
  cases h : (outcomes.filterMap first.family.found?).getLast? with
  | none => rfl
  | some a =>
    obtain ⟨outcome, -, hfound⟩ := List.mem_filterMap.mp (List.mem_of_getLast? h)
    cases outcome with
    | error e => cases hfound
    | ok b =>
      rw [AddressFamily.found?] at hfound
      split at hfound
      · rename_i hfamily
        rw [Option.getD_some, ← Option.some.inj hfound, hfamily]
      · cases hfound

/-- Whatever the lookups find, the current address is the settled one. -/
theorem after_current (r : Resolver) (outcomes : List (Except MetricError SocketAddress)) :
    (r.after outcomes).current = settled r.current outcomes := by
  induction outcomes using List.reverseRecOn with
  | nil => rfl
  | append_singleton outcomes outcome ih =>
    -- the lookup is compared with the current address, which is of the first one's family
    rw [after_concat, update_current, settled_concat, ih, settled_family]

theorem after_eq (host : String) (first : SocketAddress) (outcomes : List (Except MetricError SocketAddress)) :
    after ⟨host, first⟩ outcomes = ⟨host, settled first outcomes⟩ := by
  have hhost := after_host ⟨host, first⟩ outcomes
  have hcurrent := after_current ⟨host, first⟩ outcomes
  generalize after ⟨host, first⟩ outcomes = r at *
  cases r
  rw [Resolver.mk.injEq]
  exact ⟨hhost, hcurrent⟩

theorem after_replicate (r : Resolver) (outcome : Except MetricError SocketAddress) (n : Nat) :
    r.after (List.replicate (n + 1) outcome) = (r.update outcome).1 := by
  induction n with
  | zero => rfl
  | succ n ih => rw [List.replicate_succ', after_concat, ih, (r.update_again outcome).1]

end Resolver

/-! ## The sink of a family -/

/-- A sink that looks up this host, beginning with this address. -/
def UdpSink.tracking (transport : Transport) (host : String) (first : SocketAddress) : UdpSink :=
  { destination := .resolving ⟨host, first⟩, socketFamily := first.family, transport := transport }

theorem UdpSink.resolving_eq (names : NameService) (transport : Transport) (host : String) :
    UdpSink.resolving transport host names =
      (Lookup.destination host names).map (UdpSink.tracking transport host) := by
  unfold resolving
  cases Lookup.destination host names <;> rfl

/-- The sink sends to the address of this resolver, and all that it sent went to the family of its socket. -/
structure UdpSink.Follows (u : UdpSink) (transport : Transport) (family : AddressFamily) (r : Resolver) : Prop where
  transport : u.transport = transport
  socketFamily : u.socketFamily = family
  destination : u.destination = .resolving r
  sent : ∀ d ∈ u.sent, d.destination.family = family

namespace UdpSink.Follows
variable {u : UdpSink} {transport : Transport} {family : AddressFamily} {r : Resolver}

theorem address (h : u.Follows transport family r) : u.address = r.current := by
  rw [UdpSink.address, h.destination, Destination.address]

theorem emit (h : u.Follows transport family r) (hr : r.current.family = family) (packet : String) :
    (u.emit packet).2.Follows transport family r := by
  refine ⟨h.transport, h.socketFamily, h.destination, fun d hd => ?_⟩
  rcases List.mem_cons.mp hd with rfl | hd
  · exact (congrArg SocketAddress.family h.address).trans hr
  · exact h.sent d hd

theorem update (h : u.Follows transport family r) (outcome : Except MetricError SocketAddress) :
    (u.update outcome).1.Follows transport family (r.update outcome).1 ∧
      (u.update outcome).2 = (r.update outcome).2 := by
  simp only [UdpSink.update, h.destination]
  exact ⟨⟨h.transport, h.socketFamily, rfl, h.sent⟩, trivial⟩

end UdpSink.Follows

namespace Family
variable {f : Family} {u : UdpSink} {transport : Transport} {family : AddressFamily} {r : Resolver}

theorem step_lookedUp (hs : f.hub.sink = .udp u) (outcome : Except MetricError SocketAddress) :
    f.step (.lookedUp outcome) = ⟨.outcome (.ok ()), f.withSink (.udp (u.update outcome).1),
      ((u.update outcome).2.map fun finding => Event.log (.resolution finding)).toList⟩ := by
  simp only [step, lookedUp, hs]

theorem Effect.follows {a : Action} {h : Hub} {es : List Event} (e : f.Effect a h es) (hs : f.hub.sink = .udp u)
    (hu : u.Follows transport family r) (hr : r.current.family = family) (ha : a.member? ≠ none) :
    ∃ v, h.sink = .udp v ∧ v.Follows transport family r := by
  rcases e.sink_cases (by rw [hs]; rfl) ha with ⟨hsink, -⟩ | ⟨rate, packet, hsink, -⟩ | ⟨hsink, -⟩ <;> rw [hs] at hsink
  · exact ⟨u, hsink, hu⟩
  · exact ⟨_, hsink, hu.emit hr packet⟩
  · exact ⟨u, hsink, hu⟩

theorem step_follows (hs : f.hub.sink = .udp u) (hu : u.Follows transport family r) (hr : r.current.family = family)
    (a : Action) : ∃ v, (f.step a).state.hub.sink = .udp v ∧ v.Follows transport family (r.after a.lookup?.toList) := by
  cases ha : a.member? with
  | none =>
    cases a <;> cases ha
    · exact ⟨u, by simp only [step, receive, hs], hu⟩
    · exact ⟨u, by simp only [step, hangUp, hs], hu⟩
    · rw [step_lookedUp hs]
      exact ⟨_, rfl, (hu.update _).1⟩
  | some i =>
    have hlookup : a.lookup? = none := by cases a <;> cases ha <;> rfl
    rw [hlookup]
    exact (f.step_effect a).follows hs hu hr (by simp [ha])

theorem run_follows (hs : f.hub.sink = .udp u) (hu : u.Follows transport family r) (hr : r.current.family = family)
    (actions : List Action) : ∃ v, (f.run actions).state.hub.sink = .udp v ∧
      v.Follows transport family (r.after (actions.filterMap Action.lookup?)) := by
  induction actions generalizing f u r with
  | nil => exact ⟨u, hs, hu⟩
  | cons a rest ih =>
    obtain ⟨v, hv, hfollows⟩ := step_follows hs hu hr a
    have hfamily : (r.after a.lookup?.toList).current.family = family := by
      rw [Resolver.after_current, Resolver.settled_family, hr]
    obtain ⟨w, hw, hlater⟩ := ih hv hfollows hfamily
    refine ⟨w, hw, ?_⟩
    have hlookups : r.after ((a :: rest).filterMap Action.lookup?) =
        (r.after a.lookup?.toList).after (rest.filterMap Action.lookup?) := by
      cases h : a.lookup? <;> simp [h, Resolver.after]
    rw [hlookups]
    exact hlater

end Family

/-- What holds of a resolving sink at every moment; `current` is the address that the lookups so far lead to. -/
structure Tracked (f : Family) (transport : Transport) (host : String) (first current : SocketAddress)
    (u : UdpSink) : Prop where
  address : u.address = current
  /-- The socket was bound for the first address, and can send to the current one. -/
  socketFamily : u.socketFamily = first.family ∧ current.family = u.socketFamily
  sent : ∀ d ∈ u.sent, d.destination.family = u.socketFamily
  /-- An emit is one datagram to the current address. -/
  emits : ∀ a packet outcome, .emit packet outcome ∈ (f.step a).events →
    outcome = transport.send u.sent ⟨current, packet⟩ ∧
      ∃ v, (f.step a).state.hub.sink = .udp v ∧ v.sent = ⟨current, packet⟩ :: u.sent
  /-- Nothing but log lines is seen of a lookup. -/
  logs : ∀ outcome, ∃ lines v, (f.step (.lookedUp outcome)).events = lines.map .log ∧
    (f.step (.lookedUp outcome)).state.hub.sink = .udp v ∧ Resolver.Logged host current outcome v.address lines

/-- **The destination of a resolving sink.** Whatever the lookups of a host find, the current address is the last one
found of the family of the first address; each lookup writes what `Resolver.Logged` says, and where all end the same
way, those behind the first change nothing and at most repeat its warning. A sink that looks its destination up
reports this address and sends to it at every moment of every run, so to the family that its socket was bound for. -/
theorem destination_run (host : String) (first : SocketAddress) :
    (∀ outcomes, let r := Resolver.after ⟨host, first⟩ outcomes
      r.current = Resolver.settled first outcomes ∧ r.current.family = first.family ∧
      ∀ outcome, Resolver.Logged host r.current outcome (r.update outcome).1.current (r.lines outcome)) ∧
    (∀ outcome n, let r := Resolver.after ⟨host, first⟩ (List.replicate (n + 1) outcome)
      r = (Resolver.update ⟨host, first⟩ outcome).1 ∧ (r.update outcome).1 = r ∧
      ∀ line ∈ r.lines outcome, line.level = .warn ∧ line ∈ Resolver.lines ⟨host, first⟩ outcome) ∧
    (∀ names transport, UdpSink.resolving transport host names =
      (Lookup.destination host names).map (UdpSink.tracking transport host)) ∧
    ∀ transport scope options actions,
      let turn := (Family.ofClient scope (.udp (.tracking transport host first)) options).run actions
      let current := Resolver.settled first (actions.filterMap Action.lookup?)
      ∃ u, turn.state.hub.sink = .udp u ∧ Tracked turn.state transport host first current u := by
  refine ⟨?_, ?_, fun names transport => UdpSink.resolving_eq names transport host, ?_⟩
  · intro outcomes r
    have hr : r = ⟨host, Resolver.settled first outcomes⟩ := Resolver.after_eq host first outcomes
    rw [hr]
    exact ⟨rfl, Resolver.settled_family first outcomes, Resolver.logged ⟨host, Resolver.settled first outcomes⟩⟩
  · intro outcome n r
    have hr : r = (Resolver.update ⟨host, first⟩ outcome).1 := Resolver.after_replicate _ outcome n
    rw [hr]
    exact ⟨rfl, Resolver.update_again _ outcome⟩
  · intro transport scope options actions turn current
    have hstart : (UdpSink.tracking transport host first).Follows transport first.family ⟨host, first⟩ :=
      ⟨rfl, rfl, rfl, fun d hd => by cases hd⟩
    let start := Family.ofClient scope (.udp (.tracking transport host first)) options
    obtain ⟨u, hs, hu⟩ := Family.run_follows (f := start) rfl hstart rfl actions
    rw [Resolver.after_eq] at hu
    change u.Follows transport first.family ⟨host, current⟩ at hu
    refine ⟨u, hs, ?_⟩
    constructor
    case address => exact hu.address
    case socketFamily =>
      refine ⟨hu.socketFamily, ?_⟩
      rw [hu.socketFamily]
      exact Resolver.settled_family first _
    case sent =>
      intro d hd
      rw [hu.socketFamily]
      exact hu.sent d hd
    case emits =>
      intro a packet outcome he
      have hemit := (turn.state.step_effect a).of_emit he
      rw [hs, Sink.emit, UdpSink.emit, hu.address, hu.transport] at hemit
      obtain ⟨houtcome, hsink⟩ := Prod.mk.inj hemit
      exact ⟨houtcome.symm, _, hsink.symm, rfl⟩
    case logs =>
      intro outcome
      obtain ⟨hnext, hfinding⟩ := hu.update outcome
      rw [Family.step_lookedUp hs, hfinding]
      refine ⟨Resolver.lines ⟨host, current⟩ outcome, _, ?_, rfl, ?_⟩
      · unfold Resolver.lines
        cases (Resolver.update ⟨host, current⟩ outcome).2 <;> rfl
      · rw [hnext.address]
        exact Resolver.logged ⟨host, current⟩ outcome

end MetricWire
