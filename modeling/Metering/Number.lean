import Metering.Binary64
import Metering.Text.Json

/-!
# Measured numbers

A measurement is a signed 64-bit integer or a binary64, and every aggregate keeps to the kind of
number it was made for. Integers add up to the limits of their range and stay there; as soon as
one of two numbers is a float, both are taken as floats.
-/

namespace Metering

/-- The kinds of number that can be measured. -/
inductive NumberKind
  | int64
  | float64
deriving DecidableEq, Repr, Inhabited

/-- The name of a kind of number. -/
def NumberKind.name : NumberKind → String
  | .int64 => "i64"
  | .float64 => "f64"

/-- A measurement, or a quantity aggregated from measurements. -/
inductive Number
  | integer (v : Int64)
  | float (x : Float)
deriving DecidableEq, Inhabited

namespace Number

/-- The kind of a number. -/
def kind : Number → NumberKind
  | integer _ => .int64
  | float _ => .float64

/-- Nothing measured. -/
def zero : NumberKind → Number
  | .int64 => integer 0
  | .float64 => float 0.0

/-- The number above all others, from which a minimum starts. -/
def greatest : NumberKind → Number
  | .int64 => integer Int64.maxValue
  | .float64 => float (1.0 / 0.0)

/-- The number below all others, from which a maximum starts. -/
def least : NumberKind → Number
  | .int64 => integer Int64.minValue
  | .float64 => float (-1.0 / 0.0)

/-- The nearest binary64. -/
def toFloat : Number → Float
  | integer v => Binary64.ofInt64 v
  | float x => x

/-- Whether the number is below zero. -/
def isNegative : Number → Bool
  | integer v => v < 0
  | float x => x < 0.0

/-- Whether the number can be aggregated: integers always, floats when finite. -/
def isFinite : Number → Bool
  | integer _ => true
  | float x => x.isFinite

/-- The number in the given kind; a float loses its fraction when it becomes an integer. -/
def convert (n : Number) (kind : NumberKind) : Number :=
  match n, kind with
  | float x, .int64 => integer (Binary64.toInt64 x)
  | integer v, .float64 => float (Binary64.ofInt64 v)
  | same, _ => same

theorem kind_convert (n : Number) (kind : NumberKind) : (n.convert kind).kind = kind := by
  cases n <;> cases kind <;> rfl

theorem convert_kind (n : Number) : n.convert n.kind = n := by
  cases n <;> rfl

/-- The sum of two numbers. A sum of integers stays within their range. -/
def add : Number → Number → Number
  | integer a, integer b => integer (Int64.ofIntClamp (a.toInt + b.toInt))
  | float a, float b => float (a + b)
  | a, b => float (a.toFloat + b.toFloat)

/-- How two floats compare, unless one of them is not a number. -/
def compareFloats? (a b : Float) : Option Ordering :=
  if a < b then some .lt else if a == b then some .eq else if b < a then some .gt else none

/-- How two numbers compare, unless one of them is not a number. Numbers of two kinds compare as
floats. -/
def compare? : Number → Number → Option Ordering
  | integer a, integer b => some (compare a.toInt b.toInt)
  | a, b => compareFloats? a.toFloat b.toFloat

/-- The smaller of two numbers; the first one unless the second is known to be smaller. -/
def min (a b : Number) : Number := if a.compare? b = some .gt then b else a

/-- The larger of two numbers; the first one unless the second is known to be larger. -/
def max (a b : Number) : Number := if a.compare? b = some .lt then b else a

/-- Whether two numbers are of one kind and equal. Zeros of both signs are equal, and what is not
a number equals nothing. -/
def agrees : Number → Number → Bool
  | integer a, integer b => a == b
  | float a, float b => a == b
  | _, _ => false

/-- The number in plain text. -/
def text : Number → String
  | integer v => toString v.toInt
  | float x => Decimal.plain.write x

/-- The number in JSON. -/
def json : Number → String
  | integer v => Text.Json.integer v.toInt
  | float x => Text.Json.float x

/-- The number with its kind, for diagnostics. -/
def diagnostic : Number → String
  | integer v => s!"I64({v.toInt})"
  | float x => s!"F64({Decimal.diagnostic.write x})"

end Number

end Metering
