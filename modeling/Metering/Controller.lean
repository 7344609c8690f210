import Metering.Export.Basic
import Metering.Processor
import Metering.Provider.Collection
import Metering.Schedule

/-!
# Controllers

A controller ticks: it collects a meter, hands the records to its processor, and exports what the
processor reports. It can be started, after which ticks come from its schedule, and stopping it
ends with one more tick. A failed export is reported and changes nothing else.
-/

namespace Metering

/-- Whether the schedule of a controller is running. -/
inductive Controller.Phase
  | idle
  | running
  /-- The controller has been dropped. -/
  | dropped
deriving DecidableEq, Repr, Inhabited

/-- A controller of one meter. -/
structure Controller (ε : Type) where
  meter : String
  schedule : Schedule
  processor : Processor
  exporter : ε
  phase : Controller.Phase
deriving DecidableEq

/-- What a tick came to. -/
structure Tick where
  /-- The records that were collected. -/
  collected : List Record
  /-- The series of records that the processor refused, with its reasons. -/
  rejected : List (SeriesKey × Error)
  /-- The series whose cycle did not fit their total, with the reasons. -/
  misfits : List (SeriesKey × Error)
  /-- The batch that was handed to the exporter. -/
  batch : List Record
  /-- What the export came to. -/
  outcome : Except Error Unit

namespace Controller

variable {ε : Type}

/-- A controller that is not running. Schedules with empty durations are refused. -/
def make (meter : String) (mode : Processor.Mode) (exporter : ε) (schedule : Schedule) :
    Except Error (Controller ε) :=
  match schedule.validate with
  | .ok _ => .ok ⟨meter, schedule, .empty mode, exporter, .idle⟩
  | .error fault => .error (.configuration fault)

/-- Whether the schedule is running. -/
def isActive (c : Controller ε) : Bool := c.phase = .running

/-- Hands records to a processor one by one, and lists those that it refuses. -/
def processAll (p : Processor) : List Record → List (SeriesKey × Error) × Processor
  | [] => ([], p)
  | r :: rest =>
    let (result, p) := p.process r
    let (rejected, p) := processAll p rest
    match result with
    | .ok _ => (rejected, p)
    | .error e => ((r.key, e) :: rejected, p)

/-- Collects, processes and exports. -/
def tick [Exporter ε] (clock : Nat → Timestamp) (c : Controller ε) (p : Provider) :
    Tick × Controller ε × Provider :=
  let (collected, p) := p.collect clock c.meter
  let (rejected, processor) := processAll c.processor collected
  let misfits := processor.misfits
  let (batch, processor) := processor.checkpoint
  let (outcome, exporter) := Exporter.send c.exporter batch
  ({ collected, rejected, misfits, batch, outcome },
    { c with processor := processor.finish, exporter }, p)

/-- Starts the schedule. Answers whether it was idle. -/
def start (c : Controller ε) : Bool × Controller ε :=
  match c.phase with
  | .idle => (true, { c with phase := .running })
  | _ => (false, c)

/-- Stops the schedule and ticks once more. Answers whether it was running. -/
def stop [Exporter ε] (clock : Nat → Timestamp) (c : Controller ε) (p : Provider) :
    Bool × Controller ε × Provider :=
  match c.phase with
  | .running => (true, ({ c with phase := .idle }.tick clock p).2)
  | _ => (false, c, p)

/-- Stops the schedule for good. -/
def drop [Exporter ε] (clock : Nat → Timestamp) (c : Controller ε) (p : Provider) :
    Controller ε × Provider :=
  let (_, c, p) := c.stop clock p
  ({ c with phase := .dropped }, p)

end Controller

end Metering
