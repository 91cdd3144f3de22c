import MetricWire.Client.Reporter

/-!
A family: one hub and the reporters that share it, in the order in which they were made. Runs of a family
are lists of actions, each on one member or on the far side of the sink.
-/

namespace MetricWire

structure Family where
  hub : Hub
  /-- The reporters by their number; none is one that was dropped. -/
  members : List (Option Reporter)

inductive Question
  | isActive
  | scope
  | tagFormat
  | telemetry
  | describe
deriving DecidableEq, Repr

inductive Action
  | record (member : Nat) (call : Call)
  | close (member : Nat)
  | flush (member : Nat)
  | drop (member : Nat)
  /-- Adds a member below another one. -/
  | derive (member : Nat) (scope : String)
  | wrap (member : Nat)
  | ask (member : Nat) (question : Question)
  /-- The receiver of the sink's channel takes a packet. -/
  | receive
  /-- The receiver of the sink's channel goes away. -/
  | hangUp
  /-- A lookup of the sink's destination ended. -/
  | lookedUp (outcome : Except MetricError SocketAddress)

inductive Reply
  | outcome (result : Except MetricError Unit)
  | received (what : Received)
  | flag (b : Bool)
  | text (s : Option String)
  | tagFormat (format : Option TagFormat)
  | telemetry (t : Telemetry)

/-- The answer to a question. All but the activity is that of the client inside. -/
def Reporter.answer (r : Reporter) (h : Hub) : Question → Reply
  | .isActive => .flag r.isActive
  | .scope => .text r.inside.scope?
  | .tagFormat => .tagFormat (r.inside.tagFormat? h)
  | .telemetry => .telemetry (r.inside.telemetry h)
  | .describe => .text (some (r.inside.describe h))

namespace Family

/-- A family of one active client. -/
def ofClient (scope : String) (sink : Sink) (options : ClientOptions) : Family :=
  ⟨{ sink := sink, options := options }, [some (.client (.active scope))]⟩

/-- A family without a sink. -/
def ofReporter (r : Reporter) : Family := ⟨.idle, [some r]⟩

def member? (f : Family) (i : Nat) : Option Reporter := (f.members[i]?).join

/-- How many members hold the hub. -/
def activeMembers (f : Family) : Nat := f.members.countP fun m => m.any Reporter.isActive

def withSink (f : Family) (sink : Sink) : Family := { f with hub := { f.hub with sink := sink } }

def receive (f : Family) : Received × Family :=
  match f.hub.sink with
  | .channel c t =>
    let (what, c) := c.receive
    (what, f.withSink (.channel c t))
  | _ => (.empty, f)

def hangUp (f : Family) : Family :=
  match f.hub.sink with
  | .channel c t => f.withSink (.channel c.hangUp t)
  | _ => f

def lookedUp (f : Family) (outcome : Except MetricError SocketAddress) : Turn Family Unit :=
  match f.hub.sink with
  | .udp u =>
    let (u, finding) := u.update outcome
    ⟨(), f.withSink (.udp u), (finding.map fun r => Event.log (.resolution r)).toList⟩
  | _ => ⟨(), f, []⟩

/-- An action on a member that is not there does nothing. -/
def step (f : Family) (action : Action) : Turn Family Reply :=
  match action with
  | .record i call =>
    match f.member? i with
    | none => ⟨.outcome (.ok ()), f, []⟩
    | some r =>
      let turn := r.record f.hub call
      ⟨.outcome turn.result, { f with hub := turn.state }, turn.events⟩
  | .close i =>
    match f.member? i with
    | none => ⟨.outcome (.ok ()), f, []⟩
    | some r =>
      let turn := r.close f.hub
      ⟨.outcome turn.result, ⟨turn.state.2, f.members.set i (some turn.state.1)⟩, turn.events⟩
  | .flush i =>
    match f.member? i with
    | none => ⟨.outcome (.ok ()), f, []⟩
    | some r =>
      let turn := r.inside.flush f.hub
      ⟨.outcome turn.result, { f with hub := turn.state }, turn.events⟩
  | .drop i =>
    match f.member? i with
    | none => ⟨.outcome (.ok ()), f, []⟩
    | some r =>
      let turn := r.inside.drop f.hub
      ⟨.outcome (.ok ()), ⟨turn.state, f.members.set i none⟩, turn.events⟩
  | .derive i scope =>
    match f.member? i with
    | none => ⟨.outcome (.ok ()), f, []⟩
    | some r =>
      let (c, hub) := r.inside.derive f.hub scope
      ⟨.outcome (.ok ()), ⟨hub, f.members ++ [some (.client c)]⟩, []⟩
  | .wrap i =>
    ⟨.outcome (.ok ()), { f with members := f.members.modify i (·.map Reporter.wrap) }, []⟩
  | .ask i question =>
    match f.member? i with
    | none => ⟨.outcome (.ok ()), f, []⟩
    | some r => ⟨r.answer f.hub question, f, []⟩
  | .receive =>
    let (what, f) := f.receive
    ⟨.received what, f, []⟩
  | .hangUp => ⟨.outcome (.ok ()), f.hangUp, []⟩
  | .lookedUp outcome =>
    let turn := f.lookedUp outcome
    ⟨.outcome (.ok ()), turn.state, turn.events⟩

/-- A run: the replies in order, the family at the end, and all that could be seen. -/
def run (f : Family) : List Action → Turn Family (List Reply)
  | [] => ⟨[], f, []⟩
  | action :: rest =>
    let first := f.step action
    let later := run first.state rest
    ⟨first.result :: later.result, later.state, first.events ++ later.events⟩

end Family

/-! ## Clients that send datagrams -/

structure ClientConfig where
  /-- The destination as host and port. -/
  address : String := ""
  scope : String := ""
  tagFormat : TagFormat := .suffixOctothorpe
  /-- The milliseconds between lookups of the address; none looks it up only once. -/
  resolveInterval : Option Nat := none
deriving DecidableEq, Repr

namespace ClientConfig

def sink (config : ClientConfig) (transport : Transport) (names : NameService) : Except MetricError UdpSink :=
  match config.resolveInterval with
  | some _ => UdpSink.resolving transport config.address names
  | none => UdpSink.toText transport config.address names

def connect (config : ClientConfig) (transport : Transport) (names : NameService) :
    Except MetricError (Turn Family Unit) := do
  let sink ← config.sink transport names
  return ⟨(), .ofClient config.scope (.udp sink) { tagFormat := config.tagFormat },
    [.log (.connecting config.address config.scope config.tagFormat)]⟩

end ClientConfig

end MetricWire
