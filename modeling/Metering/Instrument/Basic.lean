import Metering.Aggregate.Aggregator
import Metering.Instrument.Callback
import Metering.Keyed.Basic
import Metering.Record

/-!
# Instruments and their series

An instrument has one series for each label set that it was given values for. A handle on a series
counts as a reference. A collection drains every series into a record and then drops the series
without references that have received nothing since.
-/

namespace Metering

/-- One series of an instrument. -/
structure Series where
  labels : LabelSet
  aggregator : Aggregator
  /-- The number of handles on the series. -/
  refs : Nat
  /-- The number of collections of the instrument before the series was created. With its labels
  it tells the series from every other, because series are dropped by collections only. -/
  born : Nat
deriving DecidableEq, Inhabited

/-- A reference to one series. -/
structure Handle where
  instrument : InstrumentId
  /-- The labels of the series in canonical form. -/
  labels : String
  /-- When the series was created. -/
  born : Nat
deriving DecidableEq, Repr, Inhabited

/-- An instrument. -/
structure Instrument where
  descriptor : Descriptor
  aggregation : Aggregation
  /-- The series by their labels in canonical form. -/
  series : Keyed String Series
  /-- The callback of an observer. -/
  callback : Option Callback
  /-- The number of collections so far. -/
  sweeps : Nat

namespace Series

/-- Adds a value. -/
def update (s : Series) (value : Number) : Series :=
  { s with aggregator := s.aggregator.update value }

/-- One reference more. -/
def retain (s : Series) : Series := { s with refs := s.refs + 1 }

/-- One reference less. -/
def release (s : Series) : Series := { s with refs := s.refs - 1 }

/-- Whether a collection keeps the series: it is referenced, or has received something since it
was drained. -/
def isKept (s : Series) : Bool := 0 < s.refs || s.aggregator.dirty

end Series

namespace Instrument

/-- An instrument without series. -/
def new (descriptor : Descriptor) (aggregation : Aggregation) (callback : Option Callback) :
    Instrument := ⟨descriptor, aggregation, ∅, callback, 0⟩

/-- A new series for some labels, without references. -/
def newSeries (i : Instrument) (labels : LabelSet) : Series :=
  { labels
    aggregator := Aggregator.ofAggregation i.aggregation i.descriptor.numberKind
    refs := 0
    born := i.sweeps }

/-- Takes a reference to the series of some labels, which is created if there is none. -/
def bind (i : Instrument) (labels : LabelSet) : Instrument :=
  { i with
    series := i.series.upsert labels.canonical fun s => (s.getD (i.newSeries labels)).retain }

/-- When the series of some labels was created; now, if there is none. -/
def bornOf (i : Instrument) (labels : LabelSet) : Nat :=
  ((i.series.get? labels.canonical).map Series.born).getD i.sweeps

/-- Changes the series under some canonical labels. -/
def modifySeries (i : Instrument) (labels : String) (f : Series → Series) : Instrument :=
  { i with series := i.series.modify labels f }

/-- The series to which a handle refers, while it is kept. -/
def seriesOf? (i : Instrument) (h : Handle) : Option Series :=
  (i.series.get? h.labels).filter fun s => s.born = h.born

/-- Changes the series to which a handle refers. -/
def modifyHeld (i : Instrument) (h : Handle) (f : Series → Series) : Instrument :=
  i.modifySeries h.labels fun s => if s.born = h.born then f s else s

/-- Adds a value that has been checked: takes a reference to the series, updates it and gives the
reference back. A disabled instrument records nothing. -/
def recordChecked (i : Instrument) (value : Number) (labels : LabelSet) : Instrument :=
  if i.descriptor.enabled then
    let value := i.descriptor.number value
    ((i.bind labels).modifySeries labels.canonical fun s => s.update value).modifySeries
      labels.canonical Series.release
  else i

/-- Checks a value and adds it. -/
def record (i : Instrument) (value : Number) (labels : LabelSet) : Except Error Instrument :=
  match i.descriptor.check value with
  | .ok _ => .ok (i.recordChecked value labels)
  | .error e => .error e

/-- Checks a value and adds it to the series of a handle. -/
def recordHeld (i : Instrument) (h : Handle) (value : Number) : Except Error Instrument :=
  match i.descriptor.check value with
  | .ok _ =>
    let value := i.descriptor.number value
    .ok (if i.descriptor.enabled then i.modifyHeld h fun s => s.update value else i)
  | .error e => .error e

/-- A record for what is live in a series. -/
def recordOf (i : Instrument) (time : Timestamp) (s : Series) : Record :=
  { descriptor := i.descriptor
    labels := s.labels.canonical
    value := s.aggregator.live
    timestamp := time }

/-- Takes a record from every series, then drops the series that are not kept. -/
def sweep (i : Instrument) (time : Timestamp) : List Record × Instrument :=
  let drained := i.series.map fun s => { s with aggregator := s.aggregator.drain.2 }
  (i.series.values.map (i.recordOf time),
    { i with series := drained.filter (fun _ s => s.isKept), sweeps := i.sweeps + 1 })

end Instrument

end Metering
