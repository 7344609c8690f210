import Metering.Generator
import Metering.Provider.Collection

/-!
# Sample meters

Meters of several sizes that hold a counter and a histogram with one value in every series.
-/

namespace Metering.Sample

/-- How many label sets a sample has. -/
inductive Scale
  | small
  | medium
  | large
deriving DecidableEq, Repr

/-- The name of a scale. -/
def Scale.name : Scale → String
  | .small => "small"
  | .medium => "medium"
  | .large => "large"

/-- The number of series of each instrument. -/
def Scale.series : Scale → Nat
  | .small => 10
  | .medium => 100
  | .large => 1000

/-- Different label sets, each with a route and a shard. -/
def labelSets (count : Nat) : List LabelSet :=
  (List.range count).map fun i =>
    LabelSet.ofList [("route", s!"/r{i % 97}"), ("shard", toString i)]

/-- Boundaries for latencies. -/
def latencyBoundaries : List Float := [1.0, 2.5, 5.0, 10.0, 25.0, 50.0, 100.0, 250.0]

/-- The name of the sample meter. -/
def meterName : String := "bench"

variable [Generator]

/-- Records a drawn value in each series of an instrument. -/
def fill (draw : Generator.State → Number × Generator.State) (id : InstrumentId)
    (start : Provider × Generator.State) (labels : List LabelSet) : Provider × Generator.State :=
  labels.foldl (fun (p, s) l =>
    let (value, s) := draw s
    ((p.record ⟨id, value, l⟩).2, s)) start

/-- A provider with a sample meter. -/
def populated (scale : Scale) : Provider :=
  let requests : Descriptor := ⟨"requests", "", "1", .counter, .int64, true⟩
  let latency : Descriptor := ⟨"latency", "", "ms", .valueRecorder, .float64, true⟩
  let p := (Provider.empty.create "requests" meterName requests none []).2
  let p := (p.create "latency" meterName latency (some (.histogram latencyBoundaries)) []).2
  let labels := labelSets scale.series
  let count (s : Generator.State) : Number × Generator.State :=
    let (n, s) := Generator.integer 1 100 s
    (.integer (Int64.ofInt n), s)
  let time (s : Generator.State) : Number × Generator.State :=
    let (x, s) := Generator.float 0.1 300.0 s
    (.float x, s)
  let filled := fill count ⟨meterName, "requests"⟩ (p, Generator.ofSeed 42) labels
  (fill time ⟨meterName, "latency"⟩ filled labels).1

/-- Whether a record is a histogram of one value. -/
def isSingleHistogram (r : Record) : Bool :=
  match r.value with
  | .histogram h => h.count = 1
  | _ => false

end Metering.Sample
