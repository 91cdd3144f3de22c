/-!
Padding of texts and numbers to a width, and the written form of a format.

A text is first cut to the precision and then filled up, standing on the left unless the format says
otherwise. A number stands on the right; with the zero flag its sign comes first and zeros take the place
of the fill, whatever fill and alignment were asked for. Lengths count characters.
-/

namespace MetricWire

inductive Alignment
  | left | centre | right
deriving DecidableEq, Repr

structure Format where
  fill : Char := ' '
  alignment : Option Alignment := none
  /-- Write a sign on numbers that are not negative. -/
  plus : Bool := false
  /-- Fill numbers with zeros behind the sign. -/
  zeros : Bool := false
  width : Nat := 0
  precision : Option Nat := none
deriving DecidableEq, Repr

namespace Format

/-- How many of `missing` fill characters stand before the text. In the centre the smaller half does. -/
def leading (alignment : Alignment) (missing : Nat) : Nat :=
  match alignment with
  | .left => 0
  | .centre => missing / 2
  | .right => missing

/-- Fills `text` up to the width, standing as `usual` where the format does not say. -/
def pad (fmt : Format) (usual : Alignment) (text : List Char) : List Char :=
  let missing := fmt.width - text.length
  let before := leading (fmt.alignment.getD usual) missing
  List.replicate before fmt.fill ++ text ++ List.replicate (missing - before) fmt.fill

/-- A text, cut to the precision and padded. Sign and zero flag have no effect. -/
def layText (fmt : Format) (text : String) : String :=
  let kept := match fmt.precision with
    | some n => text.toList.take n
    | none => text.toList
  .ofList (fmt.pad .left kept)

/-- A number given by its sign and the text behind the sign. -/
def layNumber (fmt : Format) (sign body : List Char) : String :=
  if fmt.zeros then
    .ofList (sign ++ List.replicate (fmt.width - (sign.length + body.length)) '0' ++ body)
  else .ofList (fmt.pad .right (sign ++ body))

def sign (fmt : Format) (negative : Bool) : List Char :=
  if negative then ['-'] else if fmt.plus then ['+'] else []

end Format

/-! ## Reading a format -/

def Alignment.ofChar? : Char → Option Alignment
  | '<' => some .left
  | '^' => some .centre
  | '>' => some .right
  | _ => none

namespace Format

/-- Reads fill and alignment. A character before an alignment mark is the fill, even a mark itself. -/
def readAlignment : List Char → Format × List Char
  | fill :: mark :: rest =>
    match Alignment.ofChar? mark with
    | some a => ({ fill := fill, alignment := some a }, rest)
    | none =>
      match Alignment.ofChar? fill with
      | some a => ({ alignment := some a }, mark :: rest)
      | none => ({}, fill :: mark :: rest)
  | [mark] =>
    match Alignment.ofChar? mark with
    | some a => ({ alignment := some a }, [])
    | none => ({}, [mark])
  | [] => ({}, [])

/-- Whether the text goes on with `flag`, and what follows. -/
def readFlag (flag : Char) : List Char → Bool × List Char
  | c :: rest => if c = flag then (true, rest) else (false, c :: rest)
  | [] => (false, [])

def readNumber (s : List Char) : Option Nat × List Char :=
  match s.takeWhile Char.isDigit with
  | [] => (none, s)
  | ds => (some (Nat.ofDigitChars 10 ds 0), s.dropWhile Char.isDigit)

def readPrecision : List Char → Option (Option Nat)
  | [] => some none
  | '.' :: rest =>
    match readNumber rest with
    | (some n, []) => some (some n)
    | _ => none
  | _ => none

def ofText? (s : String) : Option Format :=
  let (fmt, s) := readAlignment s.toList
  let (plus, s) := readFlag '+' s
  let (zeros, s) := readFlag '0' s
  let (width, s) := readNumber s
  (readPrecision s).map fun precision =>
    { fmt with plus := plus, zeros := zeros, width := width.getD 0, precision := precision }

end Format

end MetricWire
