import MetricWire.Address.Basic
import MetricWire.Error.Basic

/-!
From the text of a destination to its socket address, once or from time to time.

A literal socket address is taken as it stands. Any other text is divided at its last colon into a host and a
port, and the machine is asked for the addresses of the host. What the machine answers is not up to this
library, so its name service is a parameter of every lookup.

A destination that is looked up again takes a new address only if it is of the family that the local socket
was bound for; failed lookups and addresses of the other family leave the old one.
-/

namespace MetricWire

/-- The parts before and behind the last `c`. -/
def splitAtLast? (c : Char) : List Char → Option (List Char × List Char)
  | [] => none
  | x :: rest =>
    match splitAtLast? c rest with
    | some (before, behind) => some (x :: before, behind)
    | none => if x = c then some ([], rest) else none

/-- An address without a port. -/
inductive HostAddress
  | v4 (ip : IPv4)
  | v6 (ip : IPv6) (scope : UInt32)
deriving DecidableEq, Repr

namespace HostAddress

def withPort (port : UInt16) : HostAddress → SocketAddress
  | v4 ip => .v4 ip port
  | v6 ip scope => .v6 ip scope port

def ofChars? (s : List Char) : Option HostAddress :=
  (Reading.whole? (Reading.ipv4 s)).map v4 <|> (Reading.whole? (Reading.ipv6 s)).map (v6 · 0)

end HostAddress

/-- What the machine answers to the names of hosts at one time. -/
structure NameService where
  find : List Char → Except IoError (List HostAddress)

/-- Finds literal addresses and no names. -/
def NameService.offline : NameService where
  find name :=
    match HostAddress.ofChars? name with
    | some a => .ok [a]
    | none => .error .unknownHost

namespace Lookup

/-- A port, which may have a plus sign. -/
def port? (s : List Char) : Option UInt16 :=
  let digits := match s with
    | '+' :: rest => rest
    | s => s
  match Reading.number 10 65536 digits with
  | some (n, []) => some (.ofNat n)
  | _ => none

/-- The addresses of a host. The name is handed to the machine as a C string. -/
def host (name : List Char) (port : UInt16) (names : NameService) : Except IoError (List SocketAddress) :=
  if '\x00' ∈ name then .error .nulInHost
  else (names.find name).map fun found => found.map (HostAddress.withPort port)

def addresses (s : List Char) (names : NameService := .offline) : Except IoError (List SocketAddress) :=
  match SocketAddress.ofChars? s with
  | some a => .ok [a]
  | none =>
    match splitAtLast? ':' s with
    | none => .error .notASocketAddress
    | some (name, p) =>
      match port? p with
      | none => .error .notAPort
      | some p => host name p names

def first : Except IoError (List SocketAddress) → Except MetricError SocketAddress
  | .error e => .error (.unresolvable e)
  | .ok [] => .error .noAddress
  | .ok (a :: _) => .ok a

/-- The destination that a text stands for. -/
def destination (s : String) (names : NameService := .offline) : Except MetricError SocketAddress :=
  first (addresses s.toList names)

end Lookup

structure Resolver where
  /-- The text that is looked up. -/
  host : String
  current : SocketAddress
deriving DecidableEq, Repr

/-- What a lookup that is worth a log line came to. -/
inductive Resolution
  | moved (host : String) (old new : SocketAddress)
  | otherFamily (host : String) (kept refused : SocketAddress)
  | failed (host : String) (kept : SocketAddress) (error : MetricError)
deriving DecidableEq, Repr

namespace Resolver

def update (r : Resolver) (outcome : Except MetricError SocketAddress) : Resolver × Option Resolution :=
  match outcome with
  | .error e => (r, some (.failed r.host r.current e))
  | .ok a =>
    if a = r.current then (r, none)
    else if a.family = r.current.family then
      ({ r with current := a }, some (.moved r.host r.current a))
    else (r, some (.otherFamily r.host r.current a))

def refresh (r : Resolver) (names : NameService := .offline) : Resolver × Option Resolution :=
  r.update (Lookup.destination r.host names)

def refreshes (r : Resolver) (n : Nat) (names : NameService := .offline) :
    List (SocketAddress × Option Resolution) :=
  match n with
  | 0 => []
  | n + 1 =>
    let (r, finding) := r.refresh names
    (r.current, finding) :: refreshes r n names

end Resolver

end MetricWire
