/-!
Decimal numbers and their positional text, and binary floating-point numbers as bit patterns of any layout:
sign, exponent field, fraction. Sample rates use the 32-bit layout and metric values the 64-bit one; every
definition here serves both. A finite number is read exactly, as `significand * 2 ^ exponent`, and exact
quotients are rounded to numbers, a tie going to the even neighbour. Conversion, division and widening are
all this one rounding.
-/

namespace MetricWire

/-! ## Rounding -/

-- Powers of naturals are those of the core library here, whatever else a file imports.
attribute [instance (2000)] instPowNat

/-- The natural nearest to `num / den`; a half goes to the even neighbour. -/
def roundHalfEven (num den : Nat) : Nat :=
  let floor := num / den
  let rest := num % den
  if 2 * rest < den then floor
  else if den < 2 * rest then floor + 1
  else floor + floor % 2

/-! ## Decimals -/

/-- The number `coefficient * 10 ^ exponent`. -/
structure Decimal where
  coefficient : Nat
  exponent : Int
deriving DecidableEq, Repr

namespace Decimal

/-- The decimal digits of a natural, the highest first. -/
def digits (n : Nat) : List Char := Nat.toDigits 10 n

def places (d : Decimal) : Nat := (-d.exponent).toNat

/-- The text without a sign. A coefficient with fewer digits than there are places is filled with zeros. -/
def positional (d : Decimal) : List Char :=
  if 0 ≤ d.exponent then digits (d.coefficient * 10 ^ d.exponent.toNat)
  else
    digits (d.coefficient / 10 ^ d.places) ++
      '.' :: (digits (d.coefficient % 10 ^ d.places)).leftpad d.places '0'

end Decimal

/-! ## Bit patterns -/

/-- The field widths of a binary floating-point layout; the sign takes one more bit. -/
structure Layout where
  exponentBits : Nat
  fractionBits : Nat
deriving DecidableEq, Repr

namespace Layout

def binary32 : Layout := ⟨8, 23⟩

def binary64 : Layout := ⟨11, 52⟩

abbrev width (f : Layout) : Nat := 1 + (f.exponentBits + f.fractionBits)

/-- The exponent field of `1`. -/
def bias (f : Layout) : Nat := 2 ^ (f.exponentBits - 1) - 1

/-- The power of two that the last fraction bit stands for in the smallest numbers. -/
def minExponent (f : Layout) : Int := 1 - (f.bias : Int) - (f.fractionBits : Int)

/-- The bits of infinity without the sign. Smaller bits are finite numbers, larger ones are not numbers. -/
def infinity (f : Layout) : Nat := (2 ^ f.exponentBits - 1) * 2 ^ f.fractionBits

end Layout

structure Binary (f : Layout) where
  bits : BitVec f.width
deriving DecidableEq, Repr

abbrev Binary32 := Binary .binary32

abbrev Binary64 := Binary .binary64

namespace Binary

variable {f : Layout}

def ofBits (n : Nat) : Binary f := ⟨BitVec.ofNat _ n⟩

def one : Binary f := ofBits (f.bias * 2 ^ f.fractionBits)

/-- The sign bit; it is set on `-0` too. -/
def isNegative (x : Binary f) : Bool := x.bits.msb

/-- The bits without the sign. Among finite numbers they grow with the absolute value. -/
def magnitude (x : Binary f) : Nat := x.bits.toNat % 2 ^ (f.exponentBits + f.fractionBits)

def isFinite (x : Binary f) : Bool := x.magnitude < f.infinity

def isInfinite (x : Binary f) : Bool := x.magnitude == f.infinity

def isNaN (x : Binary f) : Bool := f.infinity < x.magnitude

def exponentField (x : Binary f) : Nat := x.magnitude / 2 ^ f.fractionBits

def fraction (x : Binary f) : Nat := x.magnitude % 2 ^ f.fractionBits

/-- The integer that a finite number scales; numbers of the lowest exponent field have no leading one. -/
def significand (x : Binary f) : Nat :=
  if x.exponentField = 0 then x.fraction else 2 ^ f.fractionBits + x.fraction

def exponent (x : Binary f) : Int := f.minExponent + ((x.exponentField - 1 : Nat) : Int)

/-- The absolute value of a finite number as a quotient: `significand * 2 ^ exponent`. -/
def numerator (x : Binary f) : Nat := x.significand * 2 ^ x.exponent.toNat

def denominator (x : Binary f) : Nat := 2 ^ (-x.exponent).toNat

def isZero (x : Binary f) : Bool := x.magnitude == 0

end Binary

/-! ## Comparison -/

namespace Binary

variable {f : Layout}

/-- The position of a number on the line, as an integer: both zeros are at `0`. -/
def place (x : Binary f) : Int :=
  if x.isNegative then -(x.magnitude : Int) else (x.magnitude : Int)

def comparable (x y : Binary f) : Bool := !x.isNaN && !y.isNaN

def atMost (x y : Binary f) : Bool := comparable x y && decide (x.place ≤ y.place)

def equals (x y : Binary f) : Bool := comparable x y && decide (x.place = y.place)

end Binary

/-! ## The nearest number -/

/-- The whole part of the base-two logarithm of `num / den`, for positive `num` and `den`. -/
def log2Ratio (num den : Nat) : Int :=
  let guess : Int := (num.log2 : Int) - (den.log2 : Int)
  if den * 2 ^ guess.toNat ≤ num * 2 ^ (-guess).toNat then guess else guess - 1

namespace Layout

/-- The exponent at which `num / den` is rounded: its leading bit becomes the leading bit of a full
    significand, unless that would fall below the smallest exponent. -/
def roundingExponent (f : Layout) (num den : Nat) : Int :=
  max (log2Ratio num den - (f.fractionBits : Int)) f.minExponent

/-- The bits without sign of the number nearest to `num / den`. A significand that rounds up to the next
    power of two carries into the exponent field by the addition. -/
def nearest (f : Layout) (num den : Nat) : Nat :=
  if num = 0 then 0
  else
    let e := f.roundingExponent num den
    let m := roundHalfEven (num * 2 ^ (-e).toNat) (den * 2 ^ e.toNat)
    min f.infinity ((e - f.minExponent).toNat * 2 ^ f.fractionBits + m)

end Layout

namespace Binary

/-- The number nearest to `num / den`, without sign. -/
def ofRatio {f : Layout} (num den : Nat) : Binary f := ofBits (f.nearest num den)

/-- A non-negative finite number divided by a natural. -/
def divNat {f : Layout} (x : Binary f) (d : Nat) : Binary f := ofRatio x.numerator (x.denominator * d)

/-- The absolute value in another layout; exact when the other layout is wider. -/
def convertAbs {f g : Layout} (x : Binary f) : Binary g := ofRatio x.numerator x.denominator

end Binary

end MetricWire
