import MetricWire.Address.Lookup

/-!
Sinks: what takes the packets of a client.

One sends each packet as a datagram. What becomes of a datagram is up to the transport, which may depend on
everything that was sent before it; a network is a transport that only asks whether a destination can be
reached. The destination is looked up once, or again from time to time; the local socket is bound for the
family of the first address.

Another one is a channel to a receiver, first in first out. A bounded channel refuses packets while it is
full. Without a receiver every packet is refused; without a sender the receiver still gets the packets that
are queued.
-/

namespace MetricWire

/-! ## Datagrams -/

structure Telemetry where
  bytesSent : UInt64 := 0
  packetsSent : UInt64 := 0
  bytesDropped : UInt64 := 0
  packetsDropped : UInt64 := 0
deriving DecidableEq, Repr

namespace Telemetry

/-- Counts one packet. A packet that was taken counts the bytes that the transport reported, a lost one its
    own size. -/
def count (t : Telemetry) (size : Nat) : Except IoError Nat → Telemetry
  | .ok written =>
    { t with bytesSent := t.bytesSent + .ofNat written, packetsSent := t.packetsSent + 1 }
  | .error _ =>
    { t with bytesDropped := t.bytesDropped + .ofNat size, packetsDropped := t.packetsDropped + 1 }

end Telemetry

structure Datagram where
  destination : SocketAddress
  payload : String
deriving DecidableEq, Repr

/-- The bytes taken or the failure, given the datagrams of earlier calls, the latest first. -/
structure Transport where
  send : List Datagram → Datagram → Except IoError Nat

/-- The destinations that a machine has a route to, and its name service. -/
structure Network where
  reaches : SocketAddress → Bool
  names : NameService := .offline

namespace Network

/-- A host whose interfaces are all down. Sockets can be bound, but nothing can be reached. -/
def isolated : Network := { reaches := fun _ => false }

/-- The largest length that the datagram header can tell. -/
def maxDatagram : Nat := 65535

/-- The largest payload that fits into one packet of the network layer. -/
def maxPayload : Nat := 65507

/-- Checks in the order of the host: the header's length field, the port, the route, the size of the
    packet. -/
def send (n : Network) (d : Datagram) : Except IoError Nat :=
  let size := d.payload.utf8ByteSize
  if d.destination.family = .v4 ∧ maxDatagram < size then .error .messageTooLong
  else if d.destination.port = 0 then .error .invalidArgument
  else if !n.reaches d.destination then .error .networkUnreachable
  else if maxPayload < size then .error .messageTooLong
  else .ok size

def transport (n : Network) : Transport := ⟨fun _ d => n.send d⟩

end Network

inductive Destination
  | fixed (address : SocketAddress)
  | resolving (resolver : Resolver)
deriving DecidableEq, Repr

def Destination.address : Destination → SocketAddress
  | fixed address => address
  | resolving resolver => resolver.current

structure UdpSink where
  destination : Destination
  /-- The family that the local socket was bound for. -/
  socketFamily : AddressFamily
  transport : Transport
  /-- The datagrams of earlier calls, the latest first. -/
  sent : List Datagram := []
  telemetry : Telemetry := {}

namespace UdpSink

def address (u : UdpSink) : SocketAddress := u.destination.address

/-- A sink that sends to the first of the addresses, from a socket that is already bound. -/
def onSocket (transport : Transport) (family : AddressFamily)
    (addresses : Except IoError (List SocketAddress)) : Except MetricError UdpSink := do
  let address ← Lookup.first addresses
  return { destination := .fixed address, socketFamily := family, transport := transport }

/-- A sink that binds a socket for the family of the first of the addresses. -/
def toAddresses (transport : Transport) (addresses : Except IoError (List SocketAddress)) :
    Except MetricError UdpSink := do
  let address ← Lookup.first addresses
  onSocket transport address.family (.ok [address])

/-- A sink that binds a socket for the destination that a text stands for. -/
def toText (transport : Transport) (text : String) (names : NameService := .offline) :
    Except MetricError UdpSink :=
  toAddresses transport (Lookup.addresses text.toList names)

/-- A sink whose destination is looked up again from time to time. -/
def resolving (transport : Transport) (text : String) (names : NameService := .offline) :
    Except MetricError UdpSink := do
  let address ← Lookup.destination text names
  return { destination := .resolving ⟨text, address⟩, socketFamily := address.family, transport := transport }

def emit (u : UdpSink) (packet : String) : Except IoError Nat × UdpSink :=
  let datagram : Datagram := ⟨u.address, packet⟩
  let outcome := u.transport.send u.sent datagram
  (outcome,
    { u with sent := datagram :: u.sent, telemetry := u.telemetry.count packet.utf8ByteSize outcome })

/-- Takes in the outcome of a lookup, which only a resolving sink makes. -/
def update (u : UdpSink) (outcome : Except MetricError SocketAddress) : UdpSink × Option Resolution :=
  match u.destination with
  | .fixed _ => (u, none)
  | .resolving r =>
    let (r, finding) := r.update outcome
    ({ u with destination := .resolving r }, finding)

end UdpSink

/-! ## Channels, and sinks of every sort -/

structure Channel where
  /-- How many packets may be queued; none is no limit. -/
  capacity : Option Nat
  queue : List String := []
  hasSender : Bool := true
  hasReceiver : Bool := true
deriving DecidableEq, Repr

/-- What a receiver finds without waiting. -/
inductive Received
  | packet (text : String)
  | empty
  | disconnected
deriving DecidableEq, Repr

namespace Channel

def isFull (c : Channel) : Bool :=
  match c.capacity with
  | none => false
  | some n => n ≤ c.queue.length

/-- Queues a packet and reports its size. A missing receiver is noticed before a full queue. -/
def send (c : Channel) (packet : String) : Except IoError Nat × Channel :=
  if !c.hasReceiver then (.error .channelDisconnected, c)
  else if c.isFull then (.error .channelFull, c)
  else (.ok packet.utf8ByteSize, { c with queue := c.queue ++ [packet] })

def receive (c : Channel) : Received × Channel :=
  match c.queue with
  | p :: rest => (.packet p, { c with queue := rest })
  | [] => (if c.hasSender then .empty else .disconnected, c)

/-- The receiver goes away, and the queued packets with it. -/
def hangUp (c : Channel) : Channel := { c with queue := [], hasReceiver := false }

def close (c : Channel) : Channel := { c with hasSender := false }

end Channel

inductive SinkCall
  | emit (packet : String)
  | flush
deriving DecidableEq, Repr

/-- The outcomes of a sink's calls, given the earlier calls, the latest first. -/
structure Script where
  emit : List SinkCall → String → Except IoError Nat
  flush : List SinkCall → Except IoError Unit

/-- Emits that succeed at first and fail from then on, if there is an error to fail with, and flushes that
    always end the same way. -/
def Script.failing (emit flush : Option IoError) (okFirst : Nat) : Script where
  emit calls packet :=
    let earlier := calls.countP fun call => call matches .emit _
    match emit with
    | some e => if earlier < okFirst then .ok packet.utf8ByteSize else .error e
    | none => .ok packet.utf8ByteSize
  flush _ :=
    match flush with
    | some e => .error e
    | none => .ok ()

inductive Sink
  /-- Takes every packet and keeps none. -/
  | discard
  /-- Fails every call. -/
  | refusing (kind : IoKind)
  | channel (channel : Channel) (telemetry : Telemetry)
  | udp (udp : UdpSink)
  /-- Any sink, given by the outcomes of its calls. -/
  | scripted (script : Script) (calls : List SinkCall)

namespace Sink

def ofCapacity (capacity : Option Nat) : Sink := channel { capacity := capacity } {}

/-- Hands over one packet; the outcome is the number of bytes written. -/
def emit : Sink → String → Except IoError Nat × Sink
  | discard, _ => (.ok 0, discard)
  | refusing kind, _ => (.error (.bare kind), refusing kind)
  | channel c t, packet =>
    let (outcome, c) := c.send packet
    (outcome, channel c (t.count packet.utf8ByteSize outcome))
  | udp u, packet =>
    let (outcome, u) := u.emit packet
    (outcome, udp u)
  | scripted script calls, packet =>
    (script.emit calls packet, scripted script (.emit packet :: calls))

/-- Only a failing or scripted sink does anything on a flush: all others send at once. -/
def flush : Sink → Except IoError Unit × Sink
  | refusing kind => (.error (.bare kind), refusing kind)
  | scripted script calls => (script.flush calls, scripted script (.flush :: calls))
  | s => (.ok (), s)

/-- Sinks without counters report zeros. -/
def telemetry : Sink → Telemetry
  | channel _ t => t
  | udp u => u.telemetry
  | _ => {}

def release : Sink → Sink
  | channel c t => channel c.close t
  | s => s

end Sink

end MetricWire
