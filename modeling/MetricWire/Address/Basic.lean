import MetricWire.Number.Basic

/-!
Internet socket addresses: their canonical text, and reading one.

The longest run of at least two zero groups of an IPv6 address is written as `::`, the first of several
equally long ones. An address that maps an IPv4 address keeps that address in its own notation, and a scope
other than zero follows a percent sign. Every reader takes the longest text that it can and gives back the
rest, or refuses and takes nothing.
-/

namespace MetricWire

structure IPv4 where
  a : UInt8
  b : UInt8
  c : UInt8
  d : UInt8
deriving DecidableEq, Repr

structure IPv6 where
  groups : List UInt16
  length_eq : groups.length = 8
deriving DecidableEq, Repr

inductive AddressFamily
  | v4 | v6
deriving DecidableEq, Repr

inductive SocketAddress
  | v4 (ip : IPv4) (port : UInt16)
  | v6 (ip : IPv6) (scope : UInt32) (port : UInt16)
deriving DecidableEq, Repr

namespace IPv4

def text (ip : IPv4) : List Char :=
  Decimal.digits ip.a.toNat ++ '.' :: Decimal.digits ip.b.toNat ++ '.' :: Decimal.digits ip.c.toNat ++
    '.' :: Decimal.digits ip.d.toNat

/-- The two groups that hold the address inside an IPv6 address. -/
def groups (ip : IPv4) : UInt16 × UInt16 :=
  (.ofNat (ip.a.toNat * 256 + ip.b.toNat), .ofNat (ip.c.toNat * 256 + ip.d.toNat))

def ofGroups (high low : UInt16) : IPv4 :=
  ⟨.ofNat (high.toNat / 256), .ofNat (high.toNat % 256), .ofNat (low.toNat / 256), .ofNat (low.toNat % 256)⟩

end IPv4

namespace IPv6

def ofGroups? (groups : List UInt16) : Option IPv6 :=
  if h : groups.length = 8 then some ⟨groups, h⟩ else none

/-- Groups in lower-case hexadecimal, divided by colons. -/
def groupsText : List UInt16 → List Char
  | [] => []
  | [g] => Nat.toDigits 16 g.toNat
  | g :: gs => Nat.toDigits 16 g.toNat ++ ':' :: groupsText gs

def leadingZeros (groups : List UInt16) : Nat := (groups.takeWhile (· == 0)).length

/-- Start and length of the first of the longest runs of zero groups. -/
def longestZeros : List UInt16 → Nat × Nat
  | [] => (0, 0)
  | g :: gs =>
    let later := longestZeros gs
    if later.2 ≤ leadingZeros (g :: gs) then (0, leadingZeros (g :: gs)) else (later.1 + 1, later.2)

/-- The IPv4 address that this one maps. -/
def mapped? (ip : IPv6) : Option IPv4 :=
  match ip.groups with
  | [0, 0, 0, 0, 0, 0xffff, high, low] => some (.ofGroups high low)
  | _ => none

def text (ip : IPv6) : List Char :=
  match ip.mapped? with
  | some v4 => "::ffff:".toList ++ v4.text
  | none =>
    let (start, run) := longestZeros ip.groups
    if 1 < run then
      groupsText (ip.groups.take start) ++ ':' :: ':' :: groupsText (ip.groups.drop (start + run))
    else groupsText ip.groups

end IPv6

namespace SocketAddress

def family : SocketAddress → AddressFamily
  | v4 .. => .v4
  | v6 .. => .v6

def port : SocketAddress → UInt16
  | v4 _ port => port
  | v6 _ _ port => port

def scopeText (scope : UInt32) : List Char := if scope = 0 then [] else '%' :: Decimal.digits scope.toNat

def chars : SocketAddress → List Char
  | v4 ip port => ip.text ++ ':' :: Decimal.digits port.toNat
  | v6 ip scope port => '[' :: ip.text ++ scopeText scope ++ ']' :: ':' :: Decimal.digits port.toNat

def text (a : SocketAddress) : String := .ofList a.chars

end SocketAddress

/-! ## Reading -/

namespace Reading

def char (c : Char) : List Char → Option (List Char)
  | x :: rest => if x = c then some rest else none
  | [] => none

def digit? (base : Nat) (c : Char) : Option Nat :=
  let value :=
    if '0' ≤ c && c ≤ '9' then some (c.toNat - '0'.toNat)
    else if 'a' ≤ c && c ≤ 'f' then some (c.toNat - 'a'.toNat + 10)
    else if 'A' ≤ c && c ≤ 'F' then some (c.toNat - 'A'.toNat + 10)
    else none
  value.filter (· < base)

def isDigit (base : Nat) (c : Char) : Bool := (digit? base c).isSome

/-- The number that digits stand for. -/
def value (base : Nat) (digits : List Char) : Nat :=
  digits.foldl (fun n c => base * n + (digit? base c).getD 0) 0

def hasLeadingZero : List Char → Bool
  | '0' :: _ :: _ => true
  | _ => false

/-- A number below `bound`, of all the digits that follow. -/
def number (base bound : Nat) (s : List Char) : Option (Nat × List Char) :=
  let digits := s.takeWhile (isDigit base)
  if digits = [] ∨ bound ≤ value base digits then none
  else some (value base digits, s.dropWhile (isDigit base))

/-- A number of an IPv4 address: at most three digits, and no zero before other digits. -/
def octet (s : List Char) : Option (UInt8 × List Char) :=
  let digits := s.takeWhile (isDigit 10)
  if 3 < digits.length || hasLeadingZero digits then none
  else (number 10 256 s).map fun r => (.ofNat r.1, r.2)

/-- A group of an IPv6 address: at most four hexadecimal digits. -/
def group (s : List Char) : Option (UInt16 × List Char) :=
  if 4 < (s.takeWhile (isDigit 16)).length then none
  else (number 16 65536 s).map fun r => (.ofNat r.1, r.2)

def ipv4 (s : List Char) : Option (IPv4 × List Char) := do
  let (a, s) ← octet s
  let s ← char '.' s
  let (b, s) ← octet s
  let s ← char '.' s
  let (c, s) ← octet s
  let s ← char '.' s
  let (d, s) ← octet s
  return (⟨a, b, c, d⟩, s)

/-- What follows a colon, or anything at the start of a row. -/
def afterColon {α : Type} (isFirst : Bool) (read : List Char → Option (α × List Char))
    (s : List Char) : Option (α × List Char) :=
  if isFirst then read s else (char ':' s).bind read

/-- A row of at most so many groups, whether an IPv4 address ended it, and the rest. An IPv4 address takes
    the place of two groups. -/
def groups : Nat → Bool → List Char → List UInt16 × Bool × List Char
  | 0, _, s => ([], false, s)
  | room + 1, isFirst, s =>
    match if room = 0 then none else afterColon isFirst ipv4 s with
    | some (ip, rest) => ([ip.groups.1, ip.groups.2], true, rest)
    | none =>
      match afterColon isFirst group s with
      | none => ([], false, s)
      | some (g, rest) =>
        let (gs, ended, rest) := groups room false rest
        (g :: gs, ended, rest)

/-- Eight groups, or two rows around `::`, which stands for at least one group of zeros. The row before it
    does not end in an IPv4 address. -/
def ipv6 (s : List Char) : Option (IPv6 × List Char) :=
  let (head, ended, rest) := groups 8 true s
  if head.length = 8 then (IPv6.ofGroups? head).map (·, rest)
  else if ended then none
  else do
    let rest ← char ':' rest
    let rest ← char ':' rest
    let (tail, _, rest) := groups (7 - head.length) true rest
    let ip ← IPv6.ofGroups? (head ++ List.replicate (8 - head.length - tail.length) 0 ++ tail)
    return (ip, rest)

def port (s : List Char) : Option (UInt16 × List Char) := do
  let s ← char ':' s
  let (n, s) ← number 10 65536 s
  return (.ofNat n, s)

/-- The scope behind a percent sign; nothing is scope zero. -/
def scope (s : List Char) : UInt32 × List Char :=
  match (char '%' s).bind (number 10 4294967296) with
  | some (n, rest) => (.ofNat n, rest)
  | none => (0, s)

def socketV4 (s : List Char) : Option (SocketAddress × List Char) := do
  let (ip, s) ← ipv4 s
  let (p, s) ← port s
  return (.v4 ip p, s)

def socketV6 (s : List Char) : Option (SocketAddress × List Char) := do
  let s ← char '[' s
  let (ip, s) ← ipv6 s
  let (scope, s) := scope s
  let s ← char ']' s
  let (p, s) ← port s
  return (.v6 ip scope p, s)

def whole? {α : Type} : Option (α × List Char) → Option α
  | some (x, []) => some x
  | _ => none

end Reading

def SocketAddress.ofChars? (s : List Char) : Option SocketAddress :=
  Reading.whole? (Reading.socketV4 s <|> Reading.socketV6 s)

end MetricWire
