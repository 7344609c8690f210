import Metering.Labels

/-!
# Workloads

A workload is a list of steps. Each step gives one of three instruments a value under some labels.
-/

namespace Metering.Workload

/-- The instruments of a workload. -/
inductive Target
  | counter
  | upDownCounter
  | valueRecorder
deriving DecidableEq, Repr, Inhabited

/-- One step of a workload. -/
structure Step where
  target : Target
  value : Float
  labels : LabelSet
deriving DecidableEq, Inhabited

/-- The name of a target. -/
def Target.name : Target → String
  | .counter => "counter"
  | .upDownCounter => "up_down_counter"
  | .valueRecorder => "value_recorder"

end Metering.Workload
