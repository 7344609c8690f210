import Metering.Controller
import Metering.Export.Stream
import Metering.Workload.Basic

/-!
# Running workloads

A run has a meter with the instruments of a workload and an observer of its progress, and a
controller that exports to a stream. The observer reports the steps that were applied since the
collection before, so a processor with memory shows the running total.
-/

namespace Metering

instance : Exporter TextStream := ⟨fun s batch => s.send none batch⟩

namespace Workload

/-- A workload under way. -/
structure Run where
  meter : String
  provider : Provider
  controller : Controller TextStream
  /-- The number of steps that were applied. -/
  applied : Nat

/-- The name of the instrument of a target. -/
def Target.instrument : Target → String
  | .counter => "requests"
  | .upDownCounter => "in_flight"
  | .valueRecorder => "latency"

/-- The name of the observer of progress. -/
def progressName : String := "operations_applied"

/-- The aggregation of recorded values: a histogram if there are boundaries. -/
def recorderAggregation (boundaries : List Float) : Aggregation :=
  if boundaries.isEmpty then .minMaxSumCount else .histogram boundaries

/-- The description of the instrument of a target. -/
def Target.descriptor (t : Target) : Descriptor :=
  match t with
  | .counter => ⟨t.instrument, "Requests served", "1", .counter, .int64, true⟩
  | .upDownCounter => ⟨t.instrument, "Requests in progress", "1", .upDownCounter, .int64, true⟩
  | .valueRecorder => ⟨t.instrument, "Request latency", "ms", .valueRecorder, .float64, true⟩

/-- The description of the observer of progress. -/
def progressDescriptor : Descriptor :=
  ⟨progressName, "Workload operations applied", "1", .sumObserver, .int64, true⟩

/-- The callback of the observer of progress. -/
def progressCallback : Callback := ⟨progressName, 0, .backlog 0⟩

/-- The instruments of a workload and the observer of its progress, on a meter that has none of
them. -/
def register (boundaries : List Float) (m : Meter) : Except Error Meter := do
  let m ← m.register Target.counter.descriptor .sum none
  let m ← m.register Target.upDownCounter.descriptor .sum none
  let m ← m.register Target.valueRecorder.descriptor (recorderAggregation boundaries) none
  m.register progressDescriptor .sum (some progressCallback)

/-- What a step asks its instrument to record; counters take the value as an integer. -/
def Step.number (s : Step) : Number :=
  match s.target with
  | .counter | .upDownCounter => .integer (Binary64.toInt64 s.value)
  | .valueRecorder => .float s.value

namespace Run

/-- A run on a meter of its own, with a controller that is not running. -/
def start (meter : String) (boundaries : List Float) (mode : Processor.Mode)
    (format : TextStream.Format) (schedule : Schedule) : Except Error Run := do
  let m ← register boundaries .empty
  let controller ← Controller.make meter mode (TextStream.empty format) schedule
  let provider := Provider.empty.use meter
  .ok ⟨meter, { provider with meters := provider.meters.insert meter m }, controller, 0⟩

/-- Applies a step. One that is accepted counts as progress. -/
def apply (r : Run) (s : Step) : Except Error Unit × Run :=
  match r.provider.record ⟨⟨r.meter, s.target.instrument⟩, s.number, s.labels⟩ with
  | (.ok _, provider) =>
    let provider := provider.modify ⟨r.meter, progressName⟩ fun i =>
      { i with callback := i.callback.map Callback.addPending }
    (.ok (), { r with provider, applied := r.applied + 1 })
  | (.error e, provider) => (.error e, { r with provider })

/-- Ticks once. -/
def tick (clock : Nat → Timestamp) (r : Run) : Tick × Run :=
  let (t, controller, provider) := r.controller.tick clock r.provider
  (t, { r with controller, provider })

/-- What a run does: a step with its result, or a tick. -/
inductive Event
  | applied (result : Except Error Unit)
  | ticked (t : Tick)

/-- Applies steps, of which `done` came before, and ticks after every `period` of them. -/
def play (clock : Nat → Timestamp) (period done : Nat) (r : Run) :
    List Step → List Event × Run
  | [] => ([], r)
  | s :: rest =>
    let (result, r) := r.apply s
    let (ticks, r) :=
      if 0 < period && (done + 1) % period = 0 then
        let (t, r) := r.tick clock
        ([.ticked t], r)
      else ([], r)
    let (more, r) := r.play clock period (done + 1) rest
    (.applied result :: (ticks ++ more), r)

/-- Applies a whole workload, ticks after every `period` steps, and ticks once more at the end. -/
def playAll (clock : Nat → Timestamp) (period : Nat) (r : Run) (steps : List Step) :
    List Event × Run :=
  let (events, r) := r.play clock period 0 steps
  let (t, r) := r.tick clock
  (events ++ [.ticked t], r)

/-- What has been written. -/
def output (r : Run) : String := r.controller.exporter.output

end Run

end Workload

end Metering
