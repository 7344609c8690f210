import Metering.Aggregate.Aggregator
import Metering.Keyed.Basic
import Metering.Record

/-!
# Processors

A processor merges the records of a cycle series by series. At the end of the cycle a checkpoint
reports one record per series: without memory what the cycle brought, with memory everything since
the processor was made.
-/

namespace Metering

/-- What a processor keeps of a series. -/
structure Tracked where
  /-- The descriptor of the first record. -/
  descriptor : Descriptor
  /-- The time of the latest record. -/
  timestamp : Timestamp
  /-- What the present cycle brought, and at the last checkpoint the cycle before it. -/
  current : Aggregator
  /-- What all cycles up to the last checkpoint brought, in a processor with memory. -/
  total : Option Aggregate
  /-- Whether the present cycle brought a record. -/
  updated : Bool
deriving DecidableEq, Inhabited

/-- Whether a processor forgets what earlier cycles brought. -/
inductive Processor.Mode
  | stateless
  | stateful
deriving DecidableEq, Repr, Inhabited

/-- A processor and the series that it keeps. -/
structure Processor where
  mode : Processor.Mode
  series : Keyed SeriesKey Tracked
deriving DecidableEq, Inhabited

namespace Tracked

/-- An empty entry for the series of a record. -/
def start (mode : Processor.Mode) (r : Record) : Tracked :=
  { descriptor := r.descriptor
    timestamp := r.timestamp
    current := Aggregator.like r.value
    total := match mode with
      | .stateful => some r.value.reset
      | .stateless => none
    updated := false }

/-- The entry with the value of a record merged into it. -/
def merge (t : Tracked) (r : Record) : Except Error Tracked :=
  match t.current.mergeValue r.value with
  | .ok current =>
    .ok { t with current, timestamp := t.timestamp.latest r.timestamp, updated := true }
  | .error e => .error e

/-- Why what the cycle brought cannot be merged into the total, if it cannot. -/
def misfit? (t : Tracked) : Option Error :=
  t.total.bind fun total =>
    match total.merge t.current.live with
    | .ok _ => none
    | .error e => some e

/-- Closes the cycle: what it brought is held and merged into the total, unless it does not
fit. -/
def settle (t : Tracked) : Tracked :=
  let current := t.current.checkpoint
  { t with current, total := t.total.map fun total => ((total.merge current.held).toOption).getD total }

/-- What a closed cycle has to report: the total, or without memory what the cycle brought. -/
def report? (t : Tracked) : Option Aggregate :=
  match t.total with
  | some total => some total
  | none => if t.updated then some t.current.held else none

end Tracked

namespace Processor

/-- The name of a mode. -/
def Mode.name : Mode → String
  | .stateless => "stateless"
  | .stateful => "stateful"

/-- The mode with memory or the one without. -/
def Mode.ofBool (stateful : Bool) : Mode := if stateful then .stateful else .stateless

/-- A processor that has seen no records. -/
def empty (mode : Mode) : Processor := ⟨mode, ∅⟩

/-- The entry for the series of a record: the one that is kept, or a new one. -/
def entry (p : Processor) (r : Record) : Tracked := (p.series.get? r.key).getD (Tracked.start p.mode r)

/-- Merges a record into the entry of its series. A record that does not fit changes no entry that
was there. -/
def process (p : Processor) (r : Record) : Except Error Unit × Processor :=
  match (p.entry r).merge r with
  | .ok entry => (.ok (), { p with series := p.series.insert r.key entry })
  | .error e => (.error e, { p with series := p.series.insert r.key (p.entry r) })

/-- The series whose cycle does not fit their total, with the reasons. -/
def misfits (p : Processor) : List (SeriesKey × Error) :=
  p.series.toList.filterMap fun e => e.2.misfit?.map fun error => (e.1, error)

/-- The record to report of a series. -/
def recordOf (key : SeriesKey) (t : Tracked) : Option Record :=
  t.report?.map fun value =>
    { descriptor := t.descriptor, labels := key.labels, value, timestamp := t.timestamp }

/-- Closes the cycle of every series and reports them in order. -/
def checkpoint (p : Processor) : List Record × Processor :=
  let series := p.series.map Tracked.settle
  (series.toList.filterMap fun e => recordOf e.1 e.2, { p with series })

/-- Makes ready for the next cycle: without memory, every series is forgotten. -/
def finish (p : Processor) : Processor :=
  match p.mode with
  | .stateless => { p with series := ∅ }
  | .stateful => { p with series := p.series.map fun t => { t with updated := false } }

/-- The processor by its mode and number of series, for diagnostics. -/
def diagnostic (p : Processor) : String :=
  let mode := match p.mode with
    | .stateless => "Stateless"
    | .stateful => "Stateful"
  "UngroupedProcessor \x7b mode: " ++ mode ++ s!", series: {p.series.size}" ++ " \x7d"

end Processor

end Metering
