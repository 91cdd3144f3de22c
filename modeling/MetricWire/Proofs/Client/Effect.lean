import MetricWire.Proofs.Client.Roster

/-!
What one step of a family does to the hub.

A call counts when its member is active and its measurement is accepted: such a call gets past all checks, and
`Hub.pass` is what it does then. `Family.Effect` lists everything that an action can do to the hub, with the
events that it leaves, and `Family.step_effect` proves the list complete: what a run keeps is read off it
without looking at the step again.
-/

namespace MetricWire

/-! ## The calls that count -/

/-- The kind and value of a measurement that passes every check: it can be expressed, and the kind takes the
    value. -/
def Measurement.accepted? (m : Measurement) : Option (Kind × Value) :=
  match m.observation with
  | .ok (kind, value) => if kind.fault? value = none then some (kind, value) else none
  | .error _ => none

theorem Measurement.fault?_of_accepted? {m : Measurement} {kind : Kind} {value : Value}
    (h : m.accepted? = some (kind, value)) : kind.fault? value = none := by
  unfold accepted? at h
  split at h
  · split at h
    · rename_i hf
      cases h
      exact hf
    · cases h
  · cases h

/-- What a call reports if it counts: on an active reporter, with an accepted measurement. -/
def Reporter.observation? (r : Reporter) (defaults : List Tag) (call : Call) : Option Observation :=
  match r.inside, call.measurement.accepted? with
  | .active scope, some (kind, value) => some ⟨scope, call.key, kind, value, call.rate, defaults ++ call.tags⟩
  | _, _ => none

namespace Roster

def observation? (m : Roster) (defaults : List Tag) : Action → Option Observation
  | .record i call => (m.member? i).bind fun r => r.observation? defaults call
  | _ => none

end Roster

/-- One accepted observation on its way: a question to the sampler, and an emit if the answer is yes. -/
def Hub.pass (h : Hub) (o : Observation) : Turn Hub (Except MetricError Unit) :=
  let packet := o.packet h.options.tagFormat
  if h.options.sampler.admits h.asked o.rate then
    ⟨(h.sink.emit packet).1.map (fun _ => ()) |>.mapError .transport,
      { h with asked := o.rate :: h.asked, sink := (h.sink.emit packet).2 },
      [.query o.rate true, .emit packet (h.sink.emit packet).1]⟩
  else ⟨.ok (), { h with asked := o.rate :: h.asked }, [.query o.rate false]⟩

namespace Hub

theorem submit_of_fault {kind : Kind} {value : Value} {fault : ValueFault}
    (hf : kind.fault? value = some fault) (h : Hub) (scope key : String) (rate : Binary32) (tags : List Tag) :
    h.submit scope key kind value rate tags = ⟨.error (.rejected fault), h, []⟩ := by
  simp only [submit, hf]

theorem submit_eq_pass {kind : Kind} {value : Value} (hf : kind.fault? value = none) (h : Hub)
    (scope key : String) (rate : Binary32) (tags : List Tag) :
    h.submit scope key kind value rate tags =
      h.pass ⟨scope, key, kind, value, rate, h.options.tags ++ tags⟩ := by
  simp only [submit, hf, pass]
  split
  · cases (h.sink.emit _).1 <;> rfl
  · rfl

/-- Only the rate and the packet of an observation matter. -/
theorem pass_congr {h : Hub} {o o' : Observation} (hrate : o.rate = o'.rate)
    (hpacket : o.packet h.options.tagFormat = o'.packet h.options.tagFormat) : h.pass o = h.pass o' := by
  simp only [pass, hrate, hpacket]

/-! What each step of the hub leaves and shows. -/

variable (h : Hub)

@[simp] theorem pass_options (o : Observation) : (h.pass o).state.options = h.options := by
  simp only [pass]; split <;> rfl

@[simp] theorem pass_asked (o : Observation) : (h.pass o).state.asked = o.rate :: h.asked := by
  simp only [pass]; split <;> rfl

@[simp] theorem pass_holders (o : Observation) : (h.pass o).state.holders = h.holders := by
  simp only [pass]; split <;> rfl

@[simp] theorem flush_state : h.flush.state = { h with sink := h.sink.flush.2 } := rfl

@[simp] theorem flush_events : h.flush.events = [.flush h.sink.flush.1] := rfl

@[simp] theorem hold_eq : h.hold = { h with holders := h.holders + 1 } := rfl

@[simp] theorem letGo_state : h.letGo.state =
    { h with holders := h.holders - 1, sink := if h.holders - 1 = 0 then h.sink.release else h.sink } := by
  simp only [letGo]
  split <;> simp [*]

@[simp] theorem letGo_events : h.letGo.events = if h.holders - 1 = 0 then [.release] else [] := by
  simp only [letGo]
  split <;> rfl

@[simp] theorem close_state (scope : String) : (h.close scope).state = h.flush.state.letGo.state := rfl

@[simp] theorem close_events (scope : String) : (h.close scope).events =
    .log (.closing scope) :: .flush h.sink.flush.1 :: if h.holders - 1 = 0 then [.release] else [] := by
  simp [close]

end Hub

/-- A call that counts is passed on. -/
theorem Reporter.record_of_observation {r : Reporter} {h : Hub} {call : Call} {o : Observation}
    (ho : r.observation? h.options.tags call = some o) : r.record h call = h.pass o := by
  unfold observation? Measurement.accepted? at ho
  -- all but an active client with an accepted measurement contradict the observation
  rw [record_eq]
  cases hi : r.inside with
  | active scope =>
    cases hm : call.measurement.observation with
    | error fault => simp [hi, hm] at ho
    | ok kv =>
      obtain ⟨kind, value⟩ := kv
      by_cases hf : kind.fault? value = none
      · simp only [hi, hm, hf, if_true, Option.some.injEq] at ho
        subst ho
        simp only [record, hm, submit, Client.submit, Hub.submit_eq_pass hf]
      · simp [hi, hm, hf] at ho
  | absent => simp [hi] at ho
  | closed => simp [hi] at ho

/-- A call that does not count is not seen outside. -/
theorem Reporter.record_of_no_observation {r : Reporter} {h : Hub} {call : Call}
    (ho : r.observation? h.options.tags call = none) :
    (r.record h call).state = h ∧ (r.record h call).events = [] := by
  cases hr : r.isActive with
  | false => rw [record_inactive hr]; exact ⟨rfl, rfl⟩
  | true =>
    obtain ⟨scope, hi⟩ := (isActive_iff r).mp hr
    rw [record_eq, hi]
    unfold observation? Measurement.accepted? at ho
    cases hm : call.measurement.observation with
    | error fault => simp only [record, hm, and_self]
    | ok kv =>
      obtain ⟨kind, value⟩ := kv
      cases hf : kind.fault? value with
      | none => simp [hi, hm, hf] at ho
      | some fault => simp only [record, hm, submit, Client.submit, Hub.submit_of_fault hf, and_self]

/-! ## Everything that a step can do -/

namespace Roster

def isActive (m : Roster) (i : Nat) : Bool := (m.member? i).any Reporter.isActive

/-- Whether an action gets as far as the hub. -/
def reaches (m : Roster) (defaults : List Tag) : Action → Bool
  | .record i call => (m.observation? defaults (.record i call)).isSome
  | .close i | .flush i | .drop i | .derive i _ => m.isActive i
  | _ => false

theorem isActive_of_some {m : Roster} {i : Nat} {r : Reporter} (h : m.member? i = some r) :
    m.isActive i = r.isActive := by
  rw [isActive, h, Option.any_some]

theorem reaches_eq_false {m : Roster} {defaults : List Tag} {a : Action} {i : Nat} (ha : a.member? = some i)
    (hm : m.isActive i = false) : m.reaches defaults a = false := by
  cases a <;> cases ha <;> try exact hm
  · -- only a call looks at more than the activity
    simp only [reaches, observation?]
    cases hi : m.member? i with
    | none => rfl
    | some r =>
      have hr : r.isActive = false := (isActive_of_some hi).symm.trans hm
      rcases Reporter.inside_of_inactive hr with hc | hc <;> simp [Reporter.observation?, hc]
  · rfl
  · rfl

end Roster

/-- What an action can make of the hub, and the events that come with it. -/
inductive Family.Effect (f : Family) : Action → Hub → List Event → Prop
  /-- The action does not get as far as the hub. -/
  | idle {a} : Roster.reaches f.members f.hub.options.tags a = false → Effect f a f.hub []
  | pass {i call o} : Roster.observation? f.members f.hub.options.tags (.record i call) = some o →
      Effect f (.record i call) (f.hub.pass o).state (f.hub.pass o).events
  | close {i r scope} : f.member? i = some r → r.inside = .active scope →
      Effect f (.close i) (f.hub.close scope).state (f.hub.close scope).events
  | flush {i r scope} : f.member? i = some r → r.inside = .active scope →
      Effect f (.flush i) f.hub.flush.state f.hub.flush.events
  | drop {i r scope} : f.member? i = some r → r.inside = .active scope →
      Effect f (.drop i) f.hub.letGo.state f.hub.letGo.events
  | derive {i r parent scope} : f.member? i = some r → r.inside = .active parent →
      Effect f (.derive i scope) f.hub.hold []
  | receive {c t} : f.hub.sink = .channel c t →
      Effect f .receive { f.hub with sink := .channel c.receive.2 t } []
  | hangUp {c t} : f.hub.sink = .channel c t → Effect f .hangUp { f.hub with sink := .channel c.hangUp t } []
  | lookedUp {u outcome} : f.hub.sink = .udp u →
      Effect f (.lookedUp outcome) { f.hub with sink := .udp (u.update outcome).1 }
        (((u.update outcome).2.map fun r => Event.log (.resolution r)).toList)

namespace Family

theorem step_of_inactive {f : Family} {a : Action} {i : Nat} {r : Reporter} (ha : a.member? = some i)
    (hi : f.member? i = some r) (hr : r.isActive = false) :
    (f.step a).state.hub = f.hub ∧ (f.step a).events = [] := by
  have hc := Reporter.inside_of_inactive hr
  cases a <;> cases ha <;> simp only [step, hi, and_self]
  · simp [Reporter.record_inactive hr]
  · rcases hc with hc | hc <;> simp [Reporter.close_eq, hc, Client.close]
  · rcases hc with hc | hc <;> simp [hc, Client.flush]
  · rcases hc with hc | hc <;> simp [hc, Client.drop]
  · rcases hc with hc | hc <;> simp [hc, Client.derive]

/-- **The list is complete.** What an action makes of the hub is one of the effects. -/
theorem step_effect (f : Family) (a : Action) : f.Effect a (f.step a).state.hub (f.step a).events := by
  cases hm : a.member? with
  | none =>
    cases a <;> cases hm
    · -- the far side of the sink
      simp only [step, Family.receive]
      split
      · exact .receive ‹_›
      · exact .idle rfl
    · simp only [step, Family.hangUp]
      split
      · exact .hangUp ‹_›
      · exact .idle rfl
    · simp only [step, Family.lookedUp]
      split
      · exact .lookedUp ‹_›
      · exact .idle rfl
  | some i =>
    cases hi : f.member? i with
    | none =>
      rw [step_of_none hm hi]
      exact .idle (Roster.reaches_eq_false hm (by simp [Roster.isActive, ← member?_eq, hi]))
    | some r =>
      cases hr : r.isActive with
      | false =>
        obtain ⟨hh, he⟩ := step_of_inactive hm hi hr
        rw [hh, he]
        exact .idle (Roster.reaches_eq_false hm ((Roster.isActive_of_some hi).trans hr))
      | true =>
        obtain ⟨scope, hc⟩ := (Reporter.isActive_iff r).mp hr
        cases a <;> cases hm <;> simp only [step, hi]
        · -- a call, which counts or not
          cases ho : r.observation? f.hub.options.tags _ with
          | some o =>
            rw [Reporter.record_of_observation ho]
            exact .pass (by simp [Roster.observation?, ← member?_eq, hi, ho])
          | none =>
            obtain ⟨hs, he⟩ := Reporter.record_of_no_observation ho
            rw [hs, he]
            exact .idle (by simp [Roster.reaches, Roster.observation?, ← member?_eq, hi, ho])
        · simp only [Reporter.close_eq, hc, Client.close]
          exact .close hi hc
        · simp only [hc, Client.flush]
          exact .flush hi hc
        · simp only [hc, Client.drop]
          exact .drop hi hc
        · simp only [hc, Client.derive]
          exact .derive hi hc
        · exact .idle rfl
        · exact .idle rfl

end Family

end MetricWire
