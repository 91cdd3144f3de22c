import MetricWire.Number.Basic
import MetricWire.Text.FormatSpec

/-!
The text of a floating-point number: the shortest digits that read back, or a given number of places.

The reals that round to a number form an interval around it. The search walks the decimal grids from a
coarse one to finer ones and stops at the first that has a point in the interval; on that grid one of the
two neighbours of the number lies in the interval, and of two the nearer is taken. A number lies itself on
the grid of its own last binary digit, so the walk ends.

A `-` is written exactly when the sign bit is set, so on `-0` too, but never on a pattern that is not a
number.
-/

namespace MetricWire

/-- The reals that round to one number. All three points are counted in units of `2 ^ unit`. -/
structure RoundingInterval where
  lower : Nat
  centre : Nat
  upper : Nat
  unit : Int
  /-- Whether the two ends round to the number as well. -/
  closed : Bool
deriving DecidableEq, Repr

namespace Binary

variable {f : Layout}

/-- Whether the next smaller number is only half as far away as the next larger one. -/
def isLowestOfBinade (x : Binary f) : Bool := x.fraction == 0 && decide (1 < x.exponentField)

/-- Half of the gap to each neighbour belongs to the number. Ends belong to the even significand. -/
def roundingInterval (x : Binary f) : RoundingInterval where
  lower := 4 * x.significand - (if x.isLowestOfBinade then 1 else 2)
  centre := 4 * x.significand
  upper := 4 * x.significand + 2
  unit := x.exponent - 2
  closed := x.significand % 2 == 0

end Binary

namespace RoundingInterval

variable (i : RoundingInterval)

/-- A point as a multiple of `10 ^ grid`, times `divisor grid`. -/
def scaled (grid : Int) (point : Nat) : Nat := point * 2 ^ i.unit.toNat * 10 ^ (-grid).toNat

def divisor (grid : Int) : Nat := 2 ^ (-i.unit).toNat * 10 ^ grid.toNat

def contains (grid : Int) (k : Nat) : Bool :=
  let point := k * i.divisor grid
  if i.closed then i.scaled grid i.lower ≤ point && point ≤ i.scaled grid i.upper
  else i.scaled grid i.lower < point && point < i.scaled grid i.upper

/-- The largest grid point that is not above the centre. -/
def below (grid : Int) : Nat := i.scaled grid i.centre / i.divisor grid

/-- The neighbour of the centre that lies in the interval; of two the nearer, of two equally near the
    upper one. -/
def hit? (grid : Int) : Option Nat :=
  let k := i.below grid
  match i.contains grid k, i.contains grid (k + 1) with
  | true, true =>
    if 2 * (i.scaled grid i.centre % i.divisor grid) < i.divisor grid then some k else some (k + 1)
  | true, false => some k
  | false, true => some (k + 1)
  | false, false => none

/-- Walks from `grid` through `finer` more grids; the last grid is taken to hold the centre itself. -/
def search (grid : Int) : Nat → Decimal
  | 0 => ⟨i.below grid, grid⟩
  | finer + 1 =>
    match i.hit? grid with
    | some k => ⟨k, grid⟩
    | none => search (grid - 1) finer

/-- A grid on which the whole interval lies below the first point. -/
def coarsest : Int := (Decimal.digits (i.scaled 0 i.upper / i.divisor 0)).length

/-- The finest grid that is needed: powers of two are whole, or have as many places as binary ones. -/
def finest : Int := min i.unit 0

def shortest : Decimal := i.search i.coarsest (i.coarsest - i.finest).toNat

end RoundingInterval

/-- The decimal of fewest digits that reads back as the absolute value of a finite number. -/
def Binary.shortest {f : Layout} (x : Binary f) : Decimal :=
  if x.isZero then ⟨0, 0⟩ else x.roundingInterval.shortest

def Binary.toPlaces {f : Layout} (x : Binary f) (places : Nat) : Decimal :=
  ⟨roundHalfEven (x.numerator * 10 ^ places) x.denominator, -(places : Int)⟩

/-! ## Texts -/

namespace Binary

variable {f : Layout}

/-- The text behind the sign. A precision fixes the number of places and does not touch the names. -/
def body (x : Binary f) (precision : Option Nat) : List Char :=
  if x.isNaN then "NaN".toList
  else if x.isInfinite then "inf".toList
  else match precision with
    | none => x.shortest.positional
    | some p => (x.toPlaces p).positional

/-- The sign under a format; a pattern that is not a number has none. -/
def signText (x : Binary f) (fmt : Format) : List Char := if x.isNaN then [] else fmt.sign x.isNegative

/-- The text as it stands in a packet. -/
def text (x : Binary f) : String := .ofList (x.signText {} ++ x.body none)

def format (x : Binary f) (fmt : Format) : String := fmt.layNumber (x.signText fmt) (x.body fmt.precision)

end Binary

end MetricWire
