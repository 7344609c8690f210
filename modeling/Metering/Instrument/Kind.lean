import Metering.Aggregate.Aggregation

/-!
# The kinds of instrument

A kind says who reports values, whether they may be negative and how they are aggregated unless
the caller chooses otherwise.
-/

namespace Metering

/-- The kinds of instrument that a meter can create. -/
inductive InstrumentKind
  | counter
  | upDownCounter
  | valueRecorder
  | sumObserver
  | upDownSumObserver
  | valueObserver
deriving DecidableEq, Repr, Inhabited

namespace InstrumentKind

/-- The name of a kind. -/
def name : InstrumentKind → String
  | counter => "counter"
  | upDownCounter => "up_down_counter"
  | valueRecorder => "value_recorder"
  | sumObserver => "sum_observer"
  | upDownSumObserver => "up_down_sum_observer"
  | valueObserver => "value_observer"

/-- Whether values are pushed by the application, rather than asked for at collection. -/
def isSynchronous : InstrumentKind → Bool
  | counter | upDownCounter | valueRecorder => true
  | _ => false

/-- Whether negative values are refused. -/
def isMonotonic : InstrumentKind → Bool
  | counter | sumObserver => true
  | _ => false

/-- The aggregation of an instrument of this kind, unless the caller picks another. -/
def aggregation : InstrumentKind → Aggregation
  | counter | upDownCounter | sumObserver | upDownSumObserver => .sum
  | valueRecorder | valueObserver => .minMaxSumCount

end InstrumentKind

end Metering
