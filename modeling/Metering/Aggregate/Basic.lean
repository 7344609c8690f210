import Metering.Aggregate.MinMaxSumCount
import Metering.Aggregate.Histogram
import Metering.Aggregate.Sketch

/-!
# Aggregates

What is kept of a stream of values, in one of four families. An aggregate is updated value by
value, merged with another of its family and configuration, and reset to the empty aggregate of
the same shape.
-/

namespace Metering

/-- An aggregated value. -/
inductive Aggregate
  | sum (total : Number)
  | minMaxSumCount (summary : MinMaxSumCount)
  | histogram (histogram : Histogram)
  | sketch (sketch : Sketch)
deriving DecidableEq, Inhabited

/-- Refuses configurations from which no aggregate should be built. Whether boundaries ascend is
left to the caller. -/
def Aggregation.validate : Aggregation → Except ArgumentFault Unit
  | sum => .ok ()
  | minMaxSumCount => .ok ()
  | histogram boundaries =>
    if boundaries.all Float.isFinite then .ok () else .error .boundaryNotFinite
  | sketch accuracy =>
    if 0.0 < accuracy && accuracy < 1.0 then .ok () else .error (.accuracyOutOfRange accuracy)

namespace Aggregate

/-- The aggregate of no values. -/
def empty (kind : NumberKind) : Aggregation → Aggregate
  | .sum => sum (Number.zero kind)
  | .minMaxSumCount => minMaxSumCount (.empty kind)
  | .histogram boundaries => histogram (.empty boundaries kind)
  | .sketch accuracy => sketch (.empty accuracy kind)

/-- The family of an aggregate. -/
def kind : Aggregate → AggregateKind
  | sum _ => .sum
  | minMaxSumCount _ => .minMaxSumCount
  | histogram _ => .histogram
  | sketch _ => .sketch

/-- The kind of number that is aggregated. -/
def numberKind : Aggregate → NumberKind
  | sum total => total.kind
  | minMaxSumCount m => m.sum.kind
  | histogram h => h.sum.kind
  | sketch s => s.sum.kind

/-- The aggregate with one more value. -/
def update (a : Aggregate) (value : Number) : Aggregate :=
  match a with
  | sum total => sum (total.add value)
  | minMaxSumCount m => minMaxSumCount (m.update value)
  | histogram h => histogram (h.update value)
  | sketch s => sketch (s.update value)

/-- The aggregate of the values of both, if they are of one family and configuration. -/
def merge : Aggregate → Aggregate → Except Error Aggregate
  | sum a, sum b => .ok (sum (a.add b))
  | minMaxSumCount a, minMaxSumCount b => .ok (minMaxSumCount (a.merge b))
  | histogram a, histogram b =>
    match a.merge b with
    | .ok h => .ok (histogram h)
    | .error d => .error (.incompatible d)
  | sketch a, sketch b =>
    match a.merge b with
    | .ok s => .ok (sketch s)
    | .error d => .error (.incompatible d)
  | a, b => .error (.kindMismatch a.kind b.kind)

/-- The empty aggregate of the same shape. -/
def reset : Aggregate → Aggregate
  | sum total => sum (Number.zero total.kind)
  | minMaxSumCount m => minMaxSumCount m.reset
  | histogram h => histogram h.reset
  | sketch s => sketch s.reset

/-- Whether two aggregates agree number by number. -/
def agrees : Aggregate → Aggregate → Bool
  | sum a, sum b => a.agrees b
  | minMaxSumCount a, minMaxSumCount b => a.agrees b
  | histogram a, histogram b => a.agrees b
  | sketch a, sketch b => a.agrees b
  | _, _ => false

/-- The contents of an aggregate in JSON. -/
def contentsJson : Aggregate → String
  | sum total => total.json
  | minMaxSumCount m => m.json
  | histogram h => h.json
  | sketch s => s.json

/-- The aggregate in JSON: its family and its contents. -/
def json (a : Aggregate) : String :=
  Text.Json.object
    [Text.Json.member "kind" (Text.Json.text a.kind.name),
      Text.Json.member "value" a.contentsJson]

end Aggregate

end Metering
