import MetricWire.Client.Family

/-!
A session: named clients, the sinks behind them, and named listeners for datagrams, all on one network.
Steps name the client they are about; answers tell how the step ended, what could be seen, and how the
client stands afterwards. A step about a client that is not there is refused.
-/

namespace MetricWire

/-- One thing that could be seen during a step, under the name of the client that the sink or sampler was
    made with. -/
inductive Notice
  | log (level : LogLevel) (text : String)
  | sample (name : String) (rate : Binary32)
  | emit (name packet : String)
  | flush (name : String)
  | drop (name : String)
  | packet (name text : String)
  | disconnected (name : String)
  | datagram (listener text : String)

/-- A family under the name of its first client, and what of it is shown. -/
structure Exhibit where
  name : String
  family : Family
  showsQueries : Bool := false
  showsCalls : Bool := false
  /-- Whether it was shown that the sink's channel has ended. -/
  ended : Bool := false

/-- The client of a name, by its family and its number there. -/
structure Slot where
  name : String
  family : Nat
  member : Nat
deriving DecidableEq, Repr

structure Listener where
  name : String
  address : SocketAddress
deriving DecidableEq, Repr

structure Session where
  network : Network
  exhibits : List Exhibit := []
  slots : List Slot := []
  listeners : List Listener := []

inductive Step
  /-- A client with a sink of its own. -/
  | create (name scope : String) (sink : Sink) (options : ClientOptions) (tagFormat : Option String)
      (showsQueries showsCalls : Bool)
  /-- A client that sends datagrams, or an absent one if that fails. -/
  | connect (name address scope : String) (tagFormat : Option String) (resolveInterval : Option Nat)
  | listen (name : String)
  | absent (name : String)
  | vacant (name : String)
  | wrap (name : String)
  | derive (name target scope : String)
  | drop (name : String)
  | record (name : String) (call : Call)
  | close (name : String)
  | flush (name : String)
  | isActive (name : String)
  | scope (name : String)
  | tagFormat (name : String)
  | telemetry (name : String)
  | describe (name : String)
  /-- Reads packets from the channel of a sink, at most so many. -/
  | receive (name : String) (most : Option Nat)
  | hangUp (name : String)

def Step.name : Step → String
  | create n .. | connect n .. | listen n | absent n | vacant n | wrap n | derive n .. | drop n
  | record n .. | close n | flush n | isActive n | scope n | tagFormat n | telemetry n | describe n
  | receive n .. | hangUp n => n

inductive Ending
  | ok
  | error (e : MetricError)
  | flag (b : Bool)
  | text (s : Option String)
  | telemetry (t : Telemetry)

/-- The answer to a step; the standing is that of the client of the step's name, if there is one. -/
structure Answer where
  ending : Ending
  notices : List Notice
  standing : Option (Bool × Telemetry)

def Ending.ofResult : Except MetricError Unit → Ending
  | .ok _ => ok
  | .error e => error e

def Ending.ofReply : Reply → Ending
  | .outcome r => ofResult r
  | .received _ => ok
  | .flag b => flag b
  | .text s => text s
  | .tagFormat format => text (format.map TagFormat.text)
  | .telemetry t => telemetry t

/-! ## What is shown of a family -/

namespace Exhibit

def channel? (e : Exhibit) : Option Channel :=
  match e.family.hub.sink with
  | .channel c _ => some c
  | _ => none

/-- Packets of an unbounded channel are read after every step; a bounded one is read on demand. -/
def isDrained (e : Exhibit) : Bool := e.channel?.any fun c => c.capacity.isNone

/-- Reads so often at most, until there is nothing to read. The end of the channel is shown once, and
    nothing is read after the receiver went away. -/
def read (e : Exhibit) : Nat → List Notice × Exhibit
  | 0 => ([], e)
  | n + 1 =>
    if !e.channel?.any Channel.hasReceiver then ([], e)
    else
      match e.family.receive with
      | (.packet p, family) =>
        let (later, e) := read { e with family := family } n
        (.packet e.name p :: later, e)
      | (.empty, _) => ([], e)
      | (.disconnected, _) => if e.ended then ([], e) else ([.disconnected e.name], { e with ended := true })

def readAll (e : Exhibit) : List Notice × Exhibit :=
  e.read ((e.channel?.map fun c => c.queue.length).getD 0 + 1)

def destination? (e : Exhibit) : Option SocketAddress :=
  match e.family.hub.sink with
  | .udp u => some u.address
  | _ => none

end Exhibit

/-! ## Running step by step -/

namespace Session

def slot? (s : Session) (name : String) : Option Slot := s.slots.find? (·.name = name)

def exhibit? (s : Session) (slot : Slot) : Option Exhibit := s.exhibits[slot.family]?

/-- The listener of a name; a later one takes the name over. -/
def listener? (s : Session) (name : String) : Option Listener := s.listeners.reverse.find? (·.name = name)

/-- The number of the latest family with a channel under a name. -/
def channelOwner? (s : Session) (name : String) : Option Nat :=
  let owned := (List.range s.exhibits.length).filter fun i =>
    s.exhibits[i]?.any fun e => e.name = name && e.channel?.isSome
  owned.getLast?

def shownAddress (s : Session) (address : String) : String :=
  match s.listeners.find? (·.address.text = address) with
  | some l => "@" ++ l.name
  | none => address

/-- The address that a step means: `@` stands before the name of a listener. -/
def meantAddress (s : Session) (address : String) : String :=
  match address.toList with
  | '@' :: name =>
    match s.listener? (.ofList name) with
    | some l => l.address.text
    | none => address
  | _ => address

def notice? (s : Session) (e : Exhibit) : Event → Option Notice
  | .query rate _ => if e.showsQueries then some (.sample e.name rate) else none
  | .emit packet _ => if e.showsCalls then some (.emit e.name packet) else none
  | .flush _ => if e.showsCalls then some (.flush e.name) else none
  | .release => if e.showsCalls then some (.drop e.name) else none
  | .log (.connecting address scope format) =>
    let line := LogLine.connecting (s.shownAddress address) scope format
    some (.log line.level line.text)
  | .log line => some (.log line.level line.text)

/-- The datagram that an event brought to a listener. -/
def delivery? (s : Session) (e : Exhibit) : Event → Option Notice
  | .emit packet (.ok _) => do
    let address ← e.destination?
    let l ← s.listeners.find? (·.address = address)
    return .datagram l.name packet
  | _ => none

/-- Acts on a member of a family. Datagrams are read from the listeners after the action. -/
def act (s : Session) (slot : Slot) (action : Action) : Option (Reply × List Notice × Session) := do
  let e ← s.exhibit? slot
  let turn := e.family.step action
  let notices := turn.events.filterMap (s.notice? e) ++ turn.events.filterMap (s.delivery? e)
  return (turn.result, notices, { s with exhibits := s.exhibits.set slot.family { e with family := turn.state } })

/-- Gives a name to a client that was just made. The client that had the name is dropped. -/
def assign (s : Session) (slot : Slot) : List Notice × Session :=
  let named := { s with slots := s.slots.filter (·.name ≠ slot.name) ++ [slot] }
  match s.slot? slot.name with
  | none => ([], named)
  | some old =>
    match named.act old (.drop old.member) with
    | some (_, notices, s) => (notices, s)
    | none => ([], named)

def add (s : Session) (e : Exhibit) : List Notice × Session :=
  { s with exhibits := s.exhibits ++ [e] }.assign ⟨e.name, s.exhibits.length, 0⟩

def freeAddress (s : Session) : SocketAddress := .v4 ⟨127, 0, 0, 1⟩ (.ofNat (49152 + s.listeners.length))

/-- Reads everything from the unbounded channels, in the order in which their sinks were made. -/
def drain (s : Session) : List Notice × Session :=
  let drained := s.exhibits.map fun e => if e.isDrained then e.readAll else ([], e)
  (drained.flatMap (·.1), { s with exhibits := drained.map (·.2) })

def standing? (s : Session) (name : String) : Option (Bool × Telemetry) := do
  let slot ← s.slot? name
  let e ← s.exhibit? slot
  let r ← e.family.member? slot.member
  return (r.isActive, r.inside.telemetry e.family.hub)

/-- An action on a named client that answers what the action does. -/
def actOn (s : Session) (name : String) (action : Nat → Action) : Option (Ending × List Notice × Session) := do
  let slot ← s.slot? name
  let (reply, notices, s) ← s.act slot (action slot.member)
  return (.ofReply reply, notices, s)

def connect (s : Session) (name address scope : String) (format : TagFormat) (interval : Option Nat) :
    Ending × List Notice × Session :=
  let config : ClientConfig := ⟨s.meantAddress address, scope, format, interval⟩
  match config.connect s.network.transport s.network.names with
  | .ok turn =>
    let e : Exhibit := { name := name, family := turn.state }
    let (notices, after) := s.add e
    (.ok, turn.events.filterMap (s.notice? e) ++ notices, after)
  | .error error =>
    let (notices, after) := s.add { name := name, family := .ofReporter (.client .absent) }
    (.error error, notices, after)

/-- A step without the readings that follow every step. -/
def effect? (s : Session) : Step → Option (Ending × List Notice × Session)
  | .create name scope sink options format showsQueries showsCalls =>
    match TagFormat.ofSetting format with
    | .error e => some (.error e, [], s)
    | .ok format =>
      let family := Family.ofClient scope sink (options.withTagFormat format)
      some (.ok, s.add ⟨name, family, showsQueries, showsCalls, false⟩)
  | .connect name address scope format interval =>
    match TagFormat.ofSetting format with
    | .error e => some (.error e, [], s)
    | .ok format => some (s.connect name address scope format interval)
  | .listen name => some (.ok, [], { s with listeners := s.listeners ++ [⟨name, s.freeAddress⟩] })
  | .absent name => some (.ok, s.add { name := name, family := .ofReporter (.client .absent) })
  | .vacant name => some (.ok, s.add { name := name, family := .ofReporter .vacant })
  | .wrap name => s.actOn name .wrap
  | .derive name target scope => do
    let slot ← s.slot? name
    let e ← s.exhibit? slot
    let (_, notices, s) ← s.act slot (.derive slot.member scope)
    let (more, s) := s.assign ⟨target, slot.family, e.family.members.length⟩
    return (.ok, notices ++ more, s)
  | .drop name => do
    let (ending, notices, s) ← s.actOn name .drop
    return (ending, notices, { s with slots := s.slots.filter (·.name ≠ name) })
  | .record name call => s.actOn name (.record · call)
  | .close name => s.actOn name .close
  | .flush name => s.actOn name .flush
  | .isActive name => s.actOn name (.ask · .isActive)
  | .scope name => s.actOn name (.ask · .scope)
  | .tagFormat name => s.actOn name (.ask · .tagFormat)
  | .telemetry name => s.actOn name (.ask · .telemetry)
  | .describe name => s.actOn name (.ask · .describe)
  | .receive name most => do
    let i ← s.channelOwner? name
    let e ← s.exhibits[i]?
    let (notices, e) := match most with
      | some n => e.read n
      | none => e.readAll
    return (.ok, notices, { s with exhibits := s.exhibits.set i e })
  | .hangUp name => do
    let i ← s.channelOwner? name
    let e ← s.exhibits[i]?
    return (.ok, [], { s with exhibits := s.exhibits.set i { e with family := e.family.hangUp } })

def step (s : Session) (step : Step) : Option (Answer × Session) := do
  let (ending, notices, s) ← s.effect? step
  let (read, s) := s.drain
  return (⟨ending, notices ++ read, s.standing? step.name⟩, s)

/-- The answers to all steps, or nothing if one of them is refused. -/
def run (s : Session) : List Step → Option (List Answer)
  | [] => some []
  | first :: rest => do
    let (answer, s) ← s.step first
    return answer :: (← run s rest)

end Session

end MetricWire
