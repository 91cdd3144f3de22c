import Mathlib.Algebra.GroupWithZero.Nat
import MetricWire.Proofs.Client.Lifetime
import MetricWire.Proofs.Client.Traffic

/-!
The counters of a sink against the emits of a run.

A counting sink keeps a sum of what it took and of what it lost. `Tallies` says what the counters have to be after
a list of events, as sums over these events. Each step adds its own events to the sum, whichever of its emits fail
and whatever else it does.

  1. `Tallies.note` — one event more is counted once.
  2. `Effect.telemetry`, `Family.run_tallies` — the counters follow the events of a step, and of a run.
  3. `Effect.wholes`, `Family.run_wholes` — a sink that takes packets whole reports their sizes.
  4. `telemetry_run` — what an active member reports at any moment.
-/

namespace MetricWire

/-- The bytes that the sink reported for a packet that it took. -/
def Event.sent? : Event → Option Nat
  | .emit _ (.ok written) => some written
  | _ => none

/-- The size of a packet that was lost. -/
def Event.lost? : Event → Option Nat
  | .emit packet (.error _) => some packet.utf8ByteSize
  | _ => none

/-- A packet that the sink took. -/
def Event.delivered? : Event → Option String
  | .emit packet (.ok _) => some packet
  | _ => none

theorem Event.filterMap_concat {α : Type} (g : Event → Option α) (past : List Event) (e : Event) :
    (past ++ [e]).filterMap g = past.filterMap g ++ (g e).toList := by
  cases h : g e <;> simp [h]

namespace Telemetry

/-- The counters are the sums over these events, up to multiples of the size of a counter. -/
structure Tallies (t : Telemetry) (es : List Event) : Prop where
  bytesSent : t.bytesSent.toNat = (es.filterMap Event.sent?).sum % UInt64.size
  packetsSent : t.packetsSent.toNat = (es.filterMap Event.sent?).length % UInt64.size
  bytesDropped : t.bytesDropped.toNat = (es.filterMap Event.lost?).sum % UInt64.size
  packetsDropped : t.packetsDropped.toNat = (es.filterMap Event.lost?).length % UInt64.size

def note (t : Telemetry) : Event → Telemetry
  | .emit packet outcome => t.count packet.utf8ByteSize outcome
  | _ => t

theorem tallies_nil : Tallies {} [] := ⟨rfl, rfl, rfl, rfl⟩

theorem Tallies.note {t : Telemetry} {past : List Event} (h : t.Tallies past) (e : Event) :
    (t.note e).Tallies (past ++ [e]) := by
  obtain ⟨hbs, hps, hbd, hpd⟩ := h
  -- an emit adds to two of the sums, modulo the size of the counters; the other two stay
  cases e with
  | emit packet outcome =>
    cases outcome <;> constructor <;> rw [Event.filterMap_concat] <;>
      simp [Telemetry.note, count, Event.sent?, Event.lost?, UInt64.toNat_add, UInt64.size, *]
  | query | flush | release | log =>
    constructor <;> rw [Event.filterMap_concat] <;> simp [Telemetry.note, Event.sent?, Event.lost?, *]

theorem Tallies.notes {t : Telemetry} {past : List Event} (h : t.Tallies past) (es : List Event) :
    (es.foldl Telemetry.note t).Tallies (past ++ es) := by
  induction es generalizing t past with
  | nil => simpa using h
  | cons e rest ih =>
    have hrest := ih (h.note e)
    simpa using hrest

end Telemetry

namespace Sink

/-- Sinks that count what becomes of the packets. -/
def isCounting : Sink → Bool
  | channel .. | udp _ => true
  | _ => false

/-- The sink takes packets whole or not at all. A channel does; of a transport it has to be known. -/
def TakesWhole : Sink → Prop
  | channel .. => True
  | udp u => ∀ earlier d written, u.transport.send earlier d = .ok written → written = d.payload.utf8ByteSize
  | _ => False

variable {s : Sink}

theorem emit_counting (h : s.isCounting = true) (packet : String) :
    (s.emit packet).2.isCounting = true ∧
      (s.emit packet).2.telemetry = s.telemetry.count packet.utf8ByteSize (s.emit packet).1 := by
  cases s <;> cases h <;> exact ⟨rfl, rfl⟩

theorem flush_counting (h : s.isCounting = true) : s.flush = (.ok (), s) := by
  cases s <;> cases h <;> rfl

theorem release_counting (h : s.isCounting = true) :
    s.release.isCounting = true ∧ s.release.telemetry = s.telemetry := by
  cases s <;> cases h <;> exact ⟨rfl, rfl⟩

theorem emit_takesWhole (h : s.TakesWhole) (packet : String) : (s.emit packet).2.TakesWhole ∧
    ∀ written, (s.emit packet).1 = .ok written → written = packet.utf8ByteSize := by
  cases s with
  | channel c t =>
    refine ⟨trivial, fun written hw => ?_⟩
    simp only [emit, Channel.send] at hw
    split at hw
    · cases hw
    · split at hw
      · cases hw
      · exact (Except.ok.inj hw).symm
  | udp u => exact ⟨h, fun written hw => h _ _ _ hw⟩
  | discard | refusing | scripted => exact h.elim

theorem flush_takesWhole (h : s.TakesWhole) : s.flush.2.TakesWhole := by
  cases s <;> exact h

theorem release_takesWhole (h : s.TakesWhole) : s.release.TakesWhole := by
  cases s <;> exact h

end Sink

theorem UdpSink.update_telemetry (u : UdpSink) (outcome : Except MetricError SocketAddress) :
    (u.update outcome).1.telemetry = u.telemetry := by
  unfold update
  split <;> rfl

theorem UdpSink.update_transport (u : UdpSink) (outcome : Except MetricError SocketAddress) :
    (u.update outcome).1.transport = u.transport := by
  unfold update
  split <;> rfl

/-! ## One step -/

namespace Family.Effect
variable {f : Family} {a : Action} {h : Hub} {es : List Event}

/-- An emit is what the sink makes of the packet. -/
theorem of_emit (e : f.Effect a h es) {packet : String} {outcome : Except IoError Nat}
    (he : .emit packet outcome ∈ es) : f.hub.sink.emit packet = (outcome, h.sink) := by
  cases e with
  | pass ho =>
    simp only [Hub.pass] at he ⊢
    split at he
    · simp only [List.mem_cons, List.not_mem_nil, reduceCtorEq, Event.emit.injEq, false_or, or_false] at he
      obtain ⟨rfl, rfl⟩ := he
      simp [*]
    · simp at he
  | close | drop => simp only [Hub.close_events, Hub.letGo_events] at he; split at he <;> simp at he
  | idle | flush | derive | receive | hangUp | lookedUp => simp at he

/-- An action on a member leaves a counting sink alone, or hands it one packet, or releases it. -/
theorem sink_cases (e : f.Effect a h es) (hc : f.hub.sink.isCounting = true) (ha : a.member? ≠ none) :
    (h.sink = f.hub.sink ∧ es.filterMap Event.delivered? = [] ∧ es.any Event.isRelease = false) ∨
    (∃ rate packet, h.sink = (f.hub.sink.emit packet).2 ∧
      es = [.query rate true, .emit packet (f.hub.sink.emit packet).1]) ∨
    (h.sink = f.hub.sink.release ∧ es.filterMap Event.delivered? = [] ∧ es.any Event.isRelease = true) := by
  have hflush := Sink.flush_counting hc
  cases e with
  | idle | derive => exact .inl ⟨rfl, rfl, rfl⟩
  | pass ho =>
    simp only [Hub.pass]
    split
    · exact .inr (.inl ⟨_, _, rfl, rfl⟩)
    · exact .inl ⟨rfl, rfl, rfl⟩
  | close =>
    simp only [Hub.close_state, Hub.letGo_state, Hub.flush_state, Hub.close_events, hflush]
    split
    · exact .inr (.inr ⟨rfl, rfl, rfl⟩)
    · exact .inl ⟨rfl, rfl, rfl⟩
  | drop =>
    simp only [Hub.letGo_state, Hub.letGo_events]
    split
    · exact .inr (.inr ⟨rfl, rfl, rfl⟩)
    · exact .inl ⟨rfl, rfl, rfl⟩
  | flush =>
    rw [Hub.flush_state, Hub.flush_events, hflush]
    exact .inl ⟨rfl, rfl, rfl⟩
  | receive | hangUp | lookedUp => exact absurd rfl ha

theorem telemetry (e : f.Effect a h es) (hc : f.hub.sink.isCounting = true) :
    h.sink.isCounting = true ∧ h.sink.telemetry = es.foldl Telemetry.note f.hub.sink.telemetry := by
  have hrelease := Sink.release_counting hc
  have hflush := Sink.flush_counting hc
  cases e with
  | idle | derive => exact ⟨hc, rfl⟩
  | pass ho =>
    simp only [Hub.pass]
    split
    · exact Sink.emit_counting hc _
    · exact ⟨hc, rfl⟩
  | close hi hr =>
    simp only [Hub.close_state, Hub.letGo_state, Hub.flush_state, Hub.close_events, hflush]
    split <;> simp [Telemetry.note, hc, hrelease]
  | drop hi hr =>
    simp only [Hub.letGo_state, Hub.letGo_events]
    split <;> simp [Telemetry.note, hc, hrelease]
  | flush hi hr =>
    simp only [Hub.flush_state, Hub.flush_events, hflush]
    exact ⟨hc, rfl⟩
  | receive hk | hangUp hk => exact ⟨rfl, by rw [hk]; rfl⟩
  | lookedUp hk =>
    refine ⟨rfl, ?_⟩
    rw [hk]
    -- a lookup leaves at most a log line
    cases Prod.snd _ <;> exact UdpSink.update_telemetry _ _

/-- What a sink reports of a packet that it took whole is the packet's size. -/
theorem wholes (e : f.Effect a h es) (hw : f.hub.sink.TakesWhole) : h.sink.TakesWhole ∧
    es.filterMap Event.sent? = (es.filterMap Event.delivered?).map String.utf8ByteSize := by
  have hflush := Sink.flush_takesWhole hw
  cases e with
  | idle | derive => exact ⟨hw, rfl⟩
  | pass ho =>
    simp only [Hub.pass]
    split
    · obtain ⟨hnext, hsize⟩ := Sink.emit_takesWhole hw (Observation.packet _ f.hub.options.tagFormat)
      refine ⟨hnext, ?_⟩
      cases ho : (f.hub.sink.emit (Observation.packet _ f.hub.options.tagFormat)).1 with
      | ok written => rw [hsize written ho]; rfl
      | error cause => rfl
    · exact ⟨hw, rfl⟩
  | close hi hr =>
    simp only [Hub.close_state, Hub.letGo_state, Hub.flush_state, Hub.close_events]
    split <;> exact ⟨by first | exact hflush | exact Sink.release_takesWhole hflush, rfl⟩
  | drop hi hr =>
    simp only [Hub.letGo_state, Hub.letGo_events]
    split <;> exact ⟨by first | exact hw | exact Sink.release_takesWhole hw, rfl⟩
  | flush hi hr => exact ⟨hflush, rfl⟩
  | receive hk | hangUp hk => exact ⟨trivial, rfl⟩
  | lookedUp hk =>
    rw [hk] at hw
    refine ⟨?_, ?_⟩
    · simpa [Sink.TakesWhole, UdpSink.update_transport] using hw
    · cases Prod.snd _ <;> rfl

end Family.Effect

/-! ## A whole run -/

namespace Family

theorem run_counting {f : Family} (hc : f.hub.sink.isCounting = true) (actions : List Action) :
    (f.run actions).state.hub.sink.isCounting = true := by
  induction actions generalizing f with
  | nil => exact hc
  | cons a rest ih => exact ih ((f.step_effect a).telemetry hc).1

theorem run_tallies {f : Family} {past : List Event} (hc : f.hub.sink.isCounting = true)
    (ht : f.hub.sink.telemetry.Tallies past) (actions : List Action) :
    (f.run actions).state.hub.sink.telemetry.Tallies (past ++ (f.run actions).events) := by
  induction actions generalizing f past with
  | nil => simpa [run] using ht
  | cons a rest ih =>
    obtain ⟨hnext, hstep⟩ := (f.step_effect a).telemetry hc
    have hrest := ih hnext (hstep ▸ ht.notes (f.step a).events)
    simpa only [run, List.append_assoc] using hrest

theorem run_wholes {f : Family} (hw : f.hub.sink.TakesWhole) (actions : List Action) :
    (f.run actions).events.filterMap Event.sent? =
      ((f.run actions).events.filterMap Event.delivered?).map String.utf8ByteSize := by
  induction actions generalizing f with
  | nil => rfl
  | cons a rest ih =>
    obtain ⟨hnext, hstep⟩ := (f.step_effect a).wholes hw
    have hrest := ih hnext
    simp only [run, List.filterMap_append, List.map_append, hstep, hrest]

theorem length_emitted (es : List Event) : (es.filterMap Event.emitted?).length =
    (es.filterMap Event.sent?).length + (es.filterMap Event.lost?).length := by
  induction es with
  | nil => rfl
  | cons e rest ih =>
    rw [← List.singleton_append, List.filterMap_append, List.filterMap_append, List.filterMap_append]
    simp only [List.length_append, ih]
    have hone : ([e].filterMap Event.emitted?).length =
        ([e].filterMap Event.sent?).length + ([e].filterMap Event.lost?).length := by
      rcases e with _ | ⟨packet, _ | _⟩ | _ | _ | _ <;> rfl
    omega

theorem step_telemetry_of_no_emit {f : Family} {a : Action} (hc : f.hub.sink.isCounting = true)
    (hn : (f.step a).events.filterMap Event.emitted? = []) :
    (f.step a).state.hub.sink.telemetry = f.hub.sink.telemetry := by
  rw [((f.step_effect a).telemetry hc).2]
  have hnote : ∀ e ∈ (f.step a).events, ∀ t : Telemetry, t.note e = t := by
    intro e he t
    have hnone := List.filterMap_eq_nil_iff.mp hn e he
    cases e <;> first | rfl | cases hnone
  exact List.foldlRecOn (motive := (· = _)) (f.step a).events _ rfl fun t ht e he => (hnote e he t).trans ht

theorem step_ask_telemetry {f : Family} {i : Nat} {r : Reporter} (hi : f.member? i = some r)
    (hr : r.isActive = true) : (f.step (.ask i .telemetry)).result = .telemetry f.hub.sink.telemetry := by
  obtain ⟨scope, hc⟩ := (Reporter.isActive_iff r).mp hr
  simp only [step, hi, Reporter.answer, hc, Client.telemetry]

end Family

/-- **The counters of a sink.** At every moment of every run of the family of a new client on a new counting sink,
all active members report the same counters. These are the sums over the emits of the run, taken and lost, modulo
the size of a counter. Together they count the calls that the sampler admitted, and an action that emits nothing
leaves them as they are. A sink that takes packets whole has sent the bytes of the packets that it took. -/
theorem telemetry_run (scope : String) {sink : Sink} (options : ClientOptions) (actions : List Action)
    (hc : sink.isCounting = true) (hz : sink.telemetry = {}) :
    let f := Family.ofClient scope sink options
    let turn := f.run actions
    ∃ t : Telemetry,
      (∀ i r, turn.state.member? i = some r → r.isActive = true →
        (turn.state.step (.ask i .telemetry)).result = .telemetry t) ∧
      t.Tallies turn.events ∧
      (sink.TakesWhole → t.bytesSent.toNat =
        ((turn.events.filterMap Event.delivered?).map String.utf8ByteSize).sum % UInt64.size) ∧
      (t.packetsSent + t.packetsDropped).toNat =
        (((f.observations actions).zip (f.answers actions)).filter (·.2)).length % UInt64.size ∧
      ∀ a, (turn.state.step a).events.filterMap Event.emitted? = [] →
        ∀ i r, (turn.state.step a).state.member? i = some r → r.isActive = true →
          ((turn.state.step a).state.step (.ask i .telemetry)).result = .telemetry t := by
  intro f turn
  have hcounting : turn.state.hub.sink.isCounting = true := Family.run_counting (f := f) hc actions
  have hstart : f.hub.sink.telemetry.Tallies [] := by
    change sink.telemetry.Tallies []
    rw [hz]
    exact Telemetry.tallies_nil
  have htallies : turn.state.hub.sink.telemetry.Tallies turn.events := Family.run_tallies hc hstart actions
  refine ⟨turn.state.hub.sink.telemetry, fun i r => Family.step_ask_telemetry, htallies, ?_, ?_, ?_⟩
  · intro hw
    have hsizes : turn.events.filterMap Event.sent? = _ := Family.run_wholes (f := f) hw actions
    rw [htallies.bytesSent, hsizes]
  · have hemitted : turn.events.filterMap Event.emitted? = _ := Family.run_emitted f actions
    have hlength := Family.length_emitted turn.events
    rw [hemitted, List.length_map] at hlength
    rw [UInt64.toNat_add, htallies.packetsSent, htallies.packetsDropped, hlength]
    exact (Nat.add_mod _ _ _).symm
  · intro a hn i r hi hr
    rw [Family.step_ask_telemetry hi hr, Family.step_telemetry_of_no_emit hcounting hn]

/-- A full channel loses two packets of nine bytes together; the rejected call is not counted. -/
theorem telemetry_run_full :
    let calls : List Action := [.record 0 ⟨"a", .increment 1, .one, []⟩, .derive 0 "x",
      .record 0 ⟨"b", .raw "1", .one, []⟩, .record 1 ⟨"c", .histogram (.ofBits 0x7ff0000000000000), .one, []⟩,
      .record 0 ⟨"é", .setInt 7, .one, []⟩]
    let turn := (Family.ofClient "" (.ofCapacity (some 1)) {}).run calls
    (Sink.ofCapacity (some 1)).isCounting = true ∧ (Sink.ofCapacity (some 1)).telemetry = {} ∧
    (turn.state.step (.ask 1 .telemetry)).result = .telemetry ⟨5, 1, 9, 2⟩ ∧
    Telemetry.Tallies ⟨5, 1, 9, 2⟩ turn.events := by
  intro calls turn
  obtain ⟨t, hask, htallies, -⟩ := @telemetry_run "" (.ofCapacity (some 1)) {} calls rfl rfl
  have ht : t = ⟨5, 1, 9, 2⟩ := by
    have hsink : turn.state.hub.sink.telemetry = ⟨5, 1, 9, 2⟩ := by decide +kernel
    have hreply := hask 0 (.client (.active "")) (by decide +kernel) rfl
    exact (Reply.telemetry.inj hreply).symm.trans hsink
  subst ht
  exact ⟨rfl, rfl, hask 1 (.client (.active "x")) (by decide +kernel) rfl, htallies⟩

end MetricWire
