import Metering.Number

/-!
# Least, greatest, sum and count

A summary that keeps the bounds, the sum and the number of its values. While it is empty its
bounds are the numbers that any value replaces.
-/

namespace Metering

/-- The bounds, sum and number of some values. -/
structure MinMaxSumCount where
  least : Number
  greatest : Number
  sum : Number
  count : Nat
deriving DecidableEq, Inhabited

namespace MinMaxSumCount

/-- The summary of no values. -/
def empty (kind : NumberKind) : MinMaxSumCount :=
  ⟨Number.greatest kind, Number.least kind, Number.zero kind, 0⟩

/-- The summary with one more value. -/
def update (m : MinMaxSumCount) (value : Number) : MinMaxSumCount :=
  { least := m.least.min value
    greatest := m.greatest.max value
    sum := m.sum.add value
    count := m.count + 1 }

/-- The summary of the values of both. -/
def merge (m other : MinMaxSumCount) : MinMaxSumCount :=
  { least := m.least.min other.least
    greatest := m.greatest.max other.greatest
    sum := m.sum.add other.sum
    count := m.count + other.count }

/-- The empty summary of the same kind of number. -/
def reset (m : MinMaxSumCount) : MinMaxSumCount := empty m.sum.kind

/-- Whether there are no values. -/
def isEmpty (m : MinMaxSumCount) : Bool := m.count = 0

/-- Whether two summaries agree number by number. -/
def agrees (m other : MinMaxSumCount) : Bool :=
  m.least.agrees other.least && m.greatest.agrees other.greatest && m.sum.agrees other.sum
    && m.count == other.count

/-- The summary in JSON; the bounds of an empty one are `null`. -/
def json (m : MinMaxSumCount) : String :=
  let bound (n : Number) : String := if m.isEmpty then "null" else n.json
  Text.Json.object
    [Text.Json.member "min" (bound m.least), Text.Json.member "max" (bound m.greatest),
      Text.Json.member "sum" m.sum.json, Text.Json.member "count" (Text.Json.integer m.count)]

end MinMaxSumCount

end Metering
