import MetricWire.Packet
import MetricWire.Sink.Basic
import MetricWire.Text.Quoted

/-!
A client and what it shares with all clients derived from it: sink, sampler, tag dialect and default tags,
the hub. The hub counts the clients that hold it and releases the sink with the last of them. Absent and
closed clients accept everything and do nothing.

Samplers decide whether an observation is written. A sampler is asked about a rate and may remember the
rates that it was asked about before, so it is a function of both.
-/

namespace MetricWire

/-! ## Samplers -/

/-- The answer to a rate, given the rates asked about before, the latest first. -/
structure Sampler where
  admits : List Binary32 → Binary32 → Bool

/-- How the random sampler settles a rate. -/
inductive Chance
  | settled (admitted : Bool)
  /-- A draw decides, with this probability. -/
  | draw (probability : Binary64)
deriving DecidableEq, Repr

/-- Rates from one on are always admitted; rates up to zero and patterns that are no numbers never. Any
    other rate is the probability of a draw. -/
def Chance.ofRate (rate : Binary32) : Chance :=
  if Binary.atMost .one rate then .settled true
  else if rate.atMost (.ofBits 0) || rate.isNaN then .settled false
  else .draw rate.convertAbs

/-- The number of 64-bit draws that admit an observation: the probability times `2 ^ 64`, rounded down. -/
def Chance.favourable (probability : Binary64) : Nat :=
  probability.numerator * 2 ^ (64 : Nat) / probability.denominator

namespace Sampler

def always : Sampler := ⟨fun _ _ => true⟩

def never : Sampler := ⟨fun _ _ => false⟩

def atLeast (least : Binary32) : Sampler := ⟨fun _ rate => least.atMost rate⟩

def every (n : Nat) : Sampler := ⟨fun asked _ => asked.length % n == 0⟩

def needsDraw (rate : Binary32) : Bool :=
  match Chance.ofRate rate with
  | .settled _ => false
  | .draw _ => true

/-- Admits an observation with its rate as probability, using up the draws in order. -/
def random (draws : Nat → UInt64) : Sampler where
  admits asked rate :=
    match Chance.ofRate rate with
    | .settled admitted => admitted
    | .draw p => (draws (asked.countP needsDraw)).toNat < Chance.favourable p

end Sampler

/-! ## What can be seen from outside -/

inductive LogLevel
  | debug | warn
deriving DecidableEq, Repr

inductive LogLine
  | connecting (address scope : String) (format : TagFormat)
  | closing (scope : String)
  | resolution (finding : Resolution)
deriving DecidableEq, Repr

def LogLevel.text : LogLevel → String
  | debug => "DEBUG"
  | warn => "WARN"

namespace LogLine

/-- Only a lookup that could not be followed is a warning. -/
def level : LogLine → LogLevel
  | resolution (.otherFamily ..) | resolution (.failed ..) => .warn
  | _ => .debug

def text : LogLine → String
  | connecting address scope format =>
    "sending stats to " ++ address ++ " with prefix " ++ Quoted.text scope ++ " and " ++ format.text ++ " tags"
  | closing scope => "closing statsd client with prefix " ++ Quoted.text scope
  | resolution (.moved host old new) =>
    "statsd address for " ++ host ++ " changed from " ++ old.text ++ " to " ++ new.text
  | resolution (.otherFamily host kept refused) =>
    "statsd address for " ++ host ++ " moved to " ++ refused.text ++ " of another family, keeping " ++ kept.text
  | resolution (.failed host kept error) =>
    "unable to re-resolve statsd address " ++ host ++ ", keeping " ++ kept.text ++ ": " ++ error.text

end LogLine

inductive Event
  /-- The sampler was asked about a rate. -/
  | query (rate : Binary32) (admitted : Bool)
  | emit (packet : String) (outcome : Except IoError Nat)
  | flush (outcome : Except IoError Unit)
  /-- The sink was released. -/
  | release
  | log (line : LogLine)

/-- What one step answers, what it leaves, and what could be seen meanwhile. -/
structure Turn (σ α : Type) where
  result : α
  state : σ
  events : List Event

/-! ## The hub -/

structure ClientOptions where
  sampler : Sampler := .always
  tagFormat : TagFormat := .suffixOctothorpe
  tags : List Tag := []

namespace ClientOptions

def withSampler (o : ClientOptions) (sampler : Sampler) : ClientOptions := { o with sampler := sampler }

def withTagFormat (o : ClientOptions) (format : TagFormat) : ClientOptions := { o with tagFormat := format }

def withTag (o : ClientOptions) (tag : Tag) : ClientOptions := { o with tags := o.tags ++ [tag] }

end ClientOptions

structure Hub where
  sink : Sink
  options : ClientOptions
  /-- The rates that the sampler was asked about, the latest first. -/
  asked : List Binary32 := []
  /-- How many clients hold the hub. -/
  holders : Nat := 1

namespace Hub

/-- A hub that no client holds. -/
def idle : Hub := { sink := .discard, options := {}, holders := 0 }

def isAlive (h : Hub) : Bool := 0 < h.holders

/-- Sends one observation: its value is checked first, then the sampler is asked, and only then the packet
    is written and handed to the sink, the default tags before the tags of the call. -/
def submit (h : Hub) (scope key : String) (kind : Kind) (value : Value) (rate : Binary32) (tags : List Tag) :
    Turn Hub (Except MetricError Unit) :=
  match kind.fault? value with
  | some fault => ⟨.error (.rejected fault), h, []⟩
  | none =>
    let admitted := h.options.sampler.admits h.asked rate
    let h := { h with asked := rate :: h.asked }
    if admitted then
      let packet :=
        Observation.packet ⟨scope, key, kind, value, rate, h.options.tags ++ tags⟩ h.options.tagFormat
      let (outcome, sink) := h.sink.emit packet
      ⟨match outcome with
        | .ok _ => .ok ()
        | .error e => .error (.transport e),
        { h with sink := sink }, [.query rate true, .emit packet outcome]⟩
    else ⟨.ok (), h, [.query rate false]⟩

def flush (h : Hub) : Turn Hub (Except MetricError Unit) :=
  let (outcome, sink) := h.sink.flush
  ⟨match outcome with
    | .ok _ => .ok ()
    | .error e => .error (.transport e),
    { h with sink := sink }, [.flush outcome]⟩

def hold (h : Hub) : Hub := { h with holders := h.holders + 1 }

/-- One client lets the hub go; the last one releases the sink. -/
def letGo (h : Hub) : Turn Hub Unit :=
  let holders := h.holders - 1
  if holders = 0 then ⟨(), { h with holders := 0, sink := h.sink.release }, [.release]⟩
  else ⟨(), { h with holders := holders }, []⟩

/-- A client with this scope is closed: it says so, flushes the sink and lets the hub go, even if the flush
    failed. -/
def close (h : Hub) (scope : String) : Turn Hub (Except MetricError Unit) :=
  let flushed := h.flush
  let released := flushed.state.letGo
  ⟨flushed.result, released.state, .log (.closing scope) :: flushed.events ++ released.events⟩

end Hub

/-! ## Clients -/

inductive Client
  /-- Never had a sink. -/
  | absent
  /-- Sends to its hub, with its scope before all names. -/
  | active (scope : String)
  /-- Was active once. -/
  | closed
deriving DecidableEq, Repr

/-- The scope of a derived client. Empty scopes add nothing. -/
def joinScopes (parent child : String) : String :=
  if parent = "" then child else if child = "" then parent else parent ++ "." ++ child

def describeTags : List Tag → String
  | [] => ""
  | [t] => "(" ++ Quoted.text t.key ++ ", " ++ Quoted.text t.value ++ ")"
  | t :: ts => "(" ++ Quoted.text t.key ++ ", " ++ Quoted.text t.value ++ "), " ++ describeTags ts

namespace Client

def isActive : Client → Bool
  | active _ => true
  | _ => false

def scope? : Client → Option String
  | active scope => some scope
  | _ => none

def tagFormat? (c : Client) (h : Hub) : Option TagFormat :=
  match c with
  | active _ => some h.options.tagFormat
  | _ => none

/-- The counters of the sink; zeros unless the client is active. -/
def telemetry (c : Client) (h : Hub) : Telemetry :=
  match c with
  | active _ => h.sink.telemetry
  | _ => {}

def submit (c : Client) (h : Hub) (key : String) (kind : Kind) (value : Value) (rate : Binary32)
    (tags : List Tag) : Turn Hub (Except MetricError Unit) :=
  match c with
  | active scope => h.submit scope key kind value rate tags
  | _ => ⟨.ok (), h, []⟩

def flush (c : Client) (h : Hub) : Turn Hub (Except MetricError Unit) :=
  match c with
  | active _ => h.flush
  | _ => ⟨.ok (), h, []⟩

/-- Closing makes an active client closed and leaves any other as it is. -/
def close (c : Client) (h : Hub) : Turn (Client × Hub) (Except MetricError Unit) :=
  match c with
  | active scope =>
    let turn := h.close scope
    ⟨turn.result, (closed, turn.state), turn.events⟩
  | c => ⟨.ok (), (c, h), []⟩

/-- The client goes away without being closed. -/
def drop (c : Client) (h : Hub) : Turn Hub Unit :=
  match c with
  | active _ => h.letGo
  | _ => ⟨(), h, []⟩

/-- A client below this one, which shares its hub. Absent and closed clients have absent ones below. -/
def derive (c : Client) (h : Hub) (scope : String) : Client × Hub :=
  match c with
  | active parent => (active (joinScopes parent scope), h.hold)
  | _ => (absent, h)

def describe (c : Client) (h : Hub) : String :=
  match c with
  | active scope =>
    "StatsdClient \x7b prefix: " ++ Quoted.text scope ++ ", sink: ..., sampler: ..., tag_format: " ++
      h.options.tagFormat.label ++ ", tags: [" ++ describeTags h.options.tags ++ "] \x7d"
  | absent => "StatsdClient \x7b absent \x7d"
  | closed => "StatsdClient \x7b closed \x7d"

end Client

end MetricWire
