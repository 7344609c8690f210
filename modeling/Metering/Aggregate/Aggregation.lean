/-!
# Choices of aggregation

What an instrument keeps of its values, with the configuration that choice needs.
-/

namespace Metering

/-- The families of aggregates. -/
inductive AggregateKind
  | sum
  | minMaxSumCount
  | histogram
  | sketch
deriving DecidableEq, Repr, Inhabited

/-- The name of a family. -/
def AggregateKind.name : AggregateKind → String
  | sum => "sum"
  | minMaxSumCount => "min_max_sum_count"
  | histogram => "histogram"
  | sketch => "sketch"

/-- The name of a family, for diagnostics. -/
def AggregateKind.diagnostic : AggregateKind → String
  | sum => "Sum"
  | minMaxSumCount => "MinMaxSumCount"
  | histogram => "Histogram"
  | sketch => "Sketch"

/-- A choice of aggregation. -/
inductive Aggregation
  | sum
  | minMaxSumCount
  /-- Counts of the values between ascending boundaries. -/
  | histogram (boundaries : List Float)
  /-- Quantiles up to a relative error. -/
  | sketch (accuracy : Float)
deriving DecidableEq, Inhabited

namespace Aggregation

/-- The accuracy of a sketch for which none is given. -/
def defaultAccuracy : Float := 0.01

/-- The family of the aggregates that are made by this choice. -/
def kind : Aggregation → AggregateKind
  | sum => .sum
  | minMaxSumCount => .minMaxSumCount
  | histogram _ => .histogram
  | sketch _ => .sketch

end Aggregation

end Metering
