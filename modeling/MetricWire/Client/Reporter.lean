import MetricWire.Client.Basic

/-!
Reporters: a client, or an optional reporter. Every kind of measurement is turned into one observation and
sent by `submit`, the one way in which a reporter sends anything.
-/

namespace MetricWire

/-! ## Durations -/

structure Duration where
  seconds : UInt64
  /-- The nanoseconds beyond the whole seconds. -/
  nanos : Fin 1000000000
deriving DecidableEq, Repr

namespace Duration

def totalNanos (d : Duration) : Nat := d.seconds.toNat * 1000000000 + d.nanos.val

def millis (d : Duration) : Binary64 := (Binary.ofRatio d.totalNanos 1 : Binary64).divNat 1000000

end Duration

/-! ## Reporters -/

inductive Reporter
  | client (client : Client)
  /-- An option without a reporter. -/
  | vacant
  /-- An option with a reporter inside. -/
  | wrapped (inner : Reporter)
deriving DecidableEq, Repr

inductive Measurement
  | gauge (value : Int64)
  | gaugeFloat (value : Binary64)
  | gaugeDelta (change : Int64)
  | gaugeFloatDelta (change : Binary64)
  | increment (amount : Int64)
  | decrement (amount : Int64)
  | timing (millis : Int64)
  | timingDuration (time : Duration)
  | setText (member : String)
  | setInt (member : Int64)
  | setFloat (member : Binary64)
  | histogram (value : Binary64)
  /-- A text that brings its own type. -/
  | raw (text : String)
  | stat (kind : Kind) (value : Value)
deriving DecidableEq, Repr

/-- Kind and value of a measurement. The least integer has no negation, so it cannot be decremented by. -/
def Measurement.observation : Measurement → Except ValueFault (Kind × Value)
  | gauge v => .ok (.gauge, .int v)
  | gaugeFloat v => .ok (.gauge, .float v)
  | gaugeDelta v => .ok (.gaugeDelta, .int v)
  | gaugeFloatDelta v => .ok (.gaugeDelta, .float v)
  | increment v => .ok (.counter, .int v)
  | decrement v => if v = Int64.minValue then .error .decrementOverflow else .ok (.counter, .int (-v))
  | timing v => .ok (.timing, .int v)
  | timingDuration d => .ok (.timing, .float d.millis)
  | setText s => .ok (.set, .text s)
  | setInt v => .ok (.set, .int v)
  | setFloat v => .ok (.set, .float v)
  | histogram v => .ok (.histogram, .float v)
  | raw s => .ok (.raw, .text s)
  | stat kind value => .ok (kind, value)

structure Call where
  key : String
  measurement : Measurement
  rate : Binary32 := .one
  tags : List Tag := []
deriving DecidableEq, Repr

namespace Reporter

/-- The client inside; an empty option has an absent one. -/
def inside : Reporter → Client
  | client c => c
  | vacant => .absent
  | wrapped r => r.inside

/-- Makes a client an option; options stay as they are. -/
def wrap : Reporter → Reporter
  | client c => wrapped (client c)
  | r => r

def isActive : Reporter → Bool
  | client c => c.isActive
  | vacant => false
  | wrapped r => r.isActive

def submit (r : Reporter) (h : Hub) (key : String) (kind : Kind) (value : Value) (rate : Binary32)
    (tags : List Tag) : Turn Hub (Except MetricError Unit) :=
  match r with
  | client c => c.submit h key kind value rate tags
  | vacant => ⟨.ok (), h, []⟩
  | wrapped r => r.submit h key kind value rate tags

/-- Reports one measurement. A measurement without an observation is an error of active reporters only. -/
def record (r : Reporter) (h : Hub) (call : Call) : Turn Hub (Except MetricError Unit) :=
  match call.measurement.observation with
  | .ok (kind, value) => r.submit h call.key kind value call.rate call.tags
  | .error fault => ⟨if r.isActive then .error (.rejected fault) else .ok (), h, []⟩

def close (r : Reporter) (h : Hub) : Turn (Reporter × Hub) (Except MetricError Unit) :=
  match r with
  | client c =>
    let turn := c.close h
    ⟨turn.result, (client turn.state.1, turn.state.2), turn.events⟩
  | vacant => ⟨.ok (), (vacant, h), []⟩
  | wrapped r =>
    let turn := r.close h
    ⟨turn.result, (wrapped turn.state.1, turn.state.2), turn.events⟩

end Reporter

end MetricWire
