/-!
A server that reads datagrams into one buffer and hands on those that hold text. A datagram longer than the
buffer loses its end before it is looked at. Only a wait that was in vain makes the server look whether it is
asked to stop, so what has arrived by then is still handed on.
-/

namespace MetricWire.Server

def bufferSize : Nat := 1024

/-- Writes a datagram to the front of the buffer; what does not fit is lost. The number of bytes written
    comes with the buffer. -/
def fill (buffer datagram : List UInt8) : Nat × List UInt8 :=
  let written := datagram.take bufferSize
  (written.length, written ++ buffer.drop written.length)

def text? (bytes : List UInt8) : Option String := String.fromUTF8? ⟨bytes.toArray⟩

/-- How a wait for a datagram ends. -/
inductive Wait
  | datagram (bytes : List UInt8)
  /-- Nothing came in time; by now the server is asked to stop, or not yet. -/
  | timeout (stopping : Bool)
  /-- The socket failed. -/
  | failure
deriving DecidableEq, Repr

/-- The texts that are handed on, in order, when the waits end like this one after the other. -/
def accepted (buffer : List UInt8) : List Wait → List String
  | [] => []
  | .datagram bytes :: later =>
    let (n, buffer) := fill buffer bytes
    (text? (buffer.take n)).toList ++ accepted buffer later
  | .timeout stopping :: later => if stopping then [] else accepted buffer later
  | .failure :: later => accepted buffer later

def serve (waits : List Wait) : List String := accepted (List.replicate bufferSize 0) waits

/-- The texts handed on by a server that is asked to stop when the datagrams are sent. -/
def run (datagrams : List (List UInt8)) : List String := serve (datagrams.map .datagram ++ [.timeout true])

end MetricWire.Server
