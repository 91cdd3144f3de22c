import MetricWire.Error.Basic
import MetricWire.Number.Text

/-!
The packet of one observation:

`name[tags]:value[|type][|@rate][|#tags]`

The rate is written unless it is one, and the tags where their dialect puts them.
-/

namespace MetricWire

/-! ## Tags -/

structure Tag where
  key : String
  value : String
deriving DecidableEq, Repr

inductive TagFormat
  /-- At the end, `|#key:value,key:value`. -/
  | suffixOctothorpe
  /-- After the name, `,key=value,key=value`. -/
  | infixComma
  /-- After the name, `;key=value;key=value`. -/
  | infixSemicolon
deriving DecidableEq, Repr, Inhabited

namespace TagFormat

/-- The name in configurations and log lines. -/
def text : TagFormat → String
  | suffixOctothorpe => "suffix-octothorpe"
  | infixComma => "infix-comma"
  | infixSemicolon => "infix-semicolon"

/-- The name in descriptions of clients. -/
def label : TagFormat → String
  | suffixOctothorpe => "SuffixOctothorpe"
  | infixComma => "InfixComma"
  | infixSemicolon => "InfixSemicolon"

/-- Reads a name as configurations write it, to the letter. -/
def ofText (s : String) : Except MetricError TagFormat :=
  if s = suffixOctothorpe.text then .ok suffixOctothorpe
  else if s = infixComma.text then .ok infixComma
  else if s = infixSemicolon.text then .ok infixSemicolon
  else .error .unknownTagFormat

/-- The dialect that a setting asks for; without a setting, tags are written at the end. -/
def ofSetting (setting : Option String) : Except MetricError TagFormat :=
  match setting with
  | some name => ofText name
  | none => .ok suffixOctothorpe

def format (t : TagFormat) (fmt : Format) : String := fmt.layText t.text

theorem ofText_text (t : TagFormat) : ofText t.text = .ok t := by cases t <;> rfl

end TagFormat

/-! ## Values and kinds -/

inductive Value
  | int (v : Int64)
  | float (v : Binary64)
  | text (s : String)
deriving DecidableEq, Repr

namespace Value

/-- Whether the number's text starts with `-`; a text is never negative. -/
def isNegative : Value → Bool
  | int v => v < 0
  | float v => Binary.isNegative v
  | text _ => false

/-- The text of a value as a packet holds it, before a kind forces a sign. -/
def plain : Value → String
  | int v => toString v.toInt
  | float v => Binary.text v
  | text s => s

/-- The text laid out by a format. Integers ignore the precision, and texts the whole format. -/
def format (fmt : Format) : Value → String
  | int v => fmt.layNumber (fmt.sign (v < 0)) (Decimal.digits v.toInt.natAbs)
  | float v => Binary.format v fmt
  | text s => s

end Value

inductive Kind
  | counter
  | gauge
  /-- A change of a gauge; its sign is always written. -/
  | gaugeDelta
  | timing
  | set
  | histogram
  /-- A text that brings its own type. -/
  | raw
deriving DecidableEq, Repr

namespace Kind

def suffix? : Kind → Option String
  | counter => some "c"
  | gauge | gaugeDelta => some "g"
  | timing => some "ms"
  | set => some "s"
  | histogram => some "h"
  | raw => none

/-- What is wrong with a value for this kind. Texts are for sets and raw metrics only, raw metrics take
    nothing else, counters count whole numbers, and a float has to be finite. -/
def fault? : Kind → Value → Option ValueFault
  | set, .text _ | raw, .text _ => none
  | raw, _ => some .rawNeedsText
  | _, .text _ => some .textOutsideSet
  | counter, .float _ => some .fractionalCounter
  | _, .float v => if v.isFinite then none else some .notFinite
  | _, .int _ => none

def token (k : Kind) (v : Value) : String :=
  if k = gaugeDelta && !v.isNegative then "+" ++ v.plain else v.plain

end Kind

/-! ## Observations -/

/-- Puts a scope before a name; an empty scope adds nothing. -/
def scopedName (scope key : String) : String := if scope = "" then key else scope ++ "." ++ key

def infixTags (separator : Char) : List Tag → String
  | [] => ""
  | t :: ts => String.singleton separator ++ t.key ++ "=" ++ t.value ++ infixTags separator ts

/-- The tags after the first one at the end of a packet. -/
def furtherTags : List Tag → String
  | [] => ""
  | t :: ts => "," ++ t.key ++ ":" ++ t.value ++ furtherTags ts

def suffixTags : List Tag → String
  | [] => ""
  | t :: ts => "|#" ++ t.key ++ ":" ++ t.value ++ furtherTags ts

/-- The sample rate, written unless it is one. A rate that is not a number differs from one too. -/
def rateClause (rate : Binary32) : String := if rate.equals .one then "" else "|@" ++ rate.text

def typeClause (kind : Kind) : String :=
  match kind.suffix? with
  | some s => "|" ++ s
  | none => ""

structure Observation where
  scope : String
  key : String
  kind : Kind
  value : Value
  rate : Binary32
  tags : List Tag
deriving DecidableEq, Repr

namespace Observation

/-- What stands between the name and the colon. -/
def nameTags (o : Observation) : TagFormat → String
  | .suffixOctothorpe => ""
  | .infixComma => infixTags ',' o.tags
  | .infixSemicolon => infixTags ';' o.tags

def endTags (o : Observation) : TagFormat → String
  | .suffixOctothorpe => suffixTags o.tags
  | .infixComma | .infixSemicolon => ""

def packet (o : Observation) (format : TagFormat) : String :=
  scopedName o.scope o.key ++ o.nameTags format ++ ":" ++ o.kind.token o.value ++ typeClause o.kind ++
    rateClause o.rate ++ o.endTags format

end Observation

/-- The packet of a single metric with its full name, or what is wrong with the value. -/
def encode (name : String) (kind : Kind) (value : Value) (rate : Binary32) (tags : List Tag)
    (format : TagFormat) : Except MetricError String :=
  match kind.fault? value with
  | some fault => .error (.rejected fault)
  | none => .ok (Observation.packet ⟨"", name, kind, value, rate, tags⟩ format)

end MetricWire
