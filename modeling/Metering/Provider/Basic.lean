import Metering.Meter

/-!
# Providers

A provider holds meters by name, and the tags under which a program knows its instruments. A
meter is made when its name is first used. Values reach a series by its labels, by a handle on it,
or in a batch that is refused as a whole if one of its measurements is.
-/

namespace Metering

/-- A value for a series of an instrument. -/
structure Update where
  instrument : InstrumentId
  value : Number
  labels : LabelSet
deriving DecidableEq, Inhabited

/-- A value for an instrument, under labels that it shares with others. -/
structure Measurement where
  instrument : InstrumentId
  value : Number
deriving DecidableEq, Inhabited

/-- What an action of a callback came to. -/
inductive Done
  | recorded (update : Update) (result : Except Error Unit)
  | created (result : Except Error Descriptor)
  | collected (records : List Record)
  /-- There is no instrument with the tag. -/
  | untagged (tag : String)

/-- One run of a callback. -/
structure CallbackRun where
  tag : String
  /-- The number of runs of this callback before this one. -/
  call : Nat
  /-- The clock reading of the collection that ran the callback. -/
  reading : Nat
  instrument : InstrumentId
  /-- What each action came to. -/
  did : List Done

/-- What happened to the series of an instrument. -/
inductive Event
  /-- A value for the series of some canonical labels was accepted. -/
  | accepted (instrument : InstrumentId) (labels : String) (value : Number)
  /-- The collection that took a clock reading took records from the series. -/
  | swept (reading : Nat) (instrument : InstrumentId) (records : List Record)

/-- Meters by name. -/
structure Provider where
  meters : Keyed String Meter
  /-- The instruments that a program knows by tags. -/
  tags : Keyed String InstrumentId
  /-- The runs of callbacks, in the order in which they ended. -/
  journal : List CallbackRun
  /-- How often the clock has been read. -/
  readings : Nat
  /-- What happened to the series, latest first. No operation looks at it; it is what the
  statements about whole runs speak of. -/
  history : List Event

namespace Provider

/-- A provider without meters. -/
def empty : Provider := ⟨∅, ∅, [], 0, []⟩

/-- The meter with a name. -/
def meter (p : Provider) (name : String) : Meter := (p.meters.get? name).getD .empty

/-- Makes sure that there is a meter with a name. -/
def use (p : Provider) (name : String) : Provider :=
  { p with meters := p.meters.upsert name fun m => m.getD .empty }

/-- The instrument at a place. -/
def instrument? (p : Provider) (id : InstrumentId) : Option Instrument :=
  (p.meter id.meter).get? id.name

/-- The instrument with a tag. -/
def tagged? (p : Provider) (tag : String) : Option (InstrumentId × Instrument) :=
  (p.tags.get? tag).bind fun id => (p.instrument? id).map fun i => (id, i)

/-- Changes the instrument at a place. -/
def modify (p : Provider) (id : InstrumentId) (f : Instrument → Instrument) : Provider :=
  { p with meters := p.meters.modify id.meter fun m => m.modify id.name f }

/-- Adds an event to the history. -/
def note (p : Provider) (e : Event) : Provider := { p with history := e :: p.history }

/-- Gives an instrument a tag. -/
def setTag (p : Provider) (tag : String) (id : InstrumentId) : Provider :=
  { p with tags := p.tags.insert tag id }

/-- The aggregation of a new instrument. Only value recorders let the caller choose. -/
def aggregationFor (kind : InstrumentKind) (choice : Option Aggregation) : Aggregation :=
  match kind with
  | .valueRecorder => choice.getD kind.aggregation
  | _ => kind.aggregation

/-- Creates an instrument on a meter and gives it a tag. -/
def create (p : Provider) (tag meter : String) (d : Descriptor) (choice : Option Aggregation)
    (script : List (List Action)) : Except Error Descriptor × Provider :=
  let callback := if d.kind.isSynchronous then none else some (Callback.ofScript tag script)
  let p := p.use meter
  match (p.meter meter).register d (aggregationFor d.kind choice) callback with
  | .ok m => (.ok d, { p with meters := p.meters.insert meter m }.setTag tag ⟨meter, d.name⟩)
  | .error e => (.error e, p)

/-! ## Values -/

/-- Checks a value and adds it to a series of an instrument. -/
def record (p : Provider) (u : Update) : Except Error Unit × Provider :=
  match p.instrument? u.instrument with
  | none => (.error (.unknownInstrument u.instrument.meter u.instrument.name), p)
  | some i =>
    match i.record u.value u.labels with
    | .ok i =>
      (.ok (), (p.modify u.instrument fun _ => i).note
        (.accepted u.instrument u.labels.canonical u.value))
    | .error e => (.error e, p)

/-- Refuses measurements of instruments that are not this meter's, and values that their
instrument refuses. -/
def checkMeasurement (p : Provider) (meter : String) (m : Measurement) : Except Error Unit :=
  match if m.instrument.meter = meter then p.instrument? m.instrument else none with
  | some i => i.descriptor.check m.value
  | none => .error (.unknownInstrument meter m.instrument.name)

/-- Adds the values of measurements that have been checked. -/
def recordAll (p : Provider) (labels : LabelSet) (ms : List Measurement) : Provider :=
  ms.foldl (fun p m => (p.modify m.instrument fun i => i.recordChecked m.value labels).note
    (.accepted m.instrument labels.canonical m.value)) p

/-- Adds a value for each of some instruments under shared labels, or nothing if one of the
measurements is refused. -/
def recordBatch (p : Provider) (meter : String) (labels : LabelSet) (ms : List Measurement) :
    Except Error Unit × Provider :=
  match ms.forM (p.checkMeasurement meter) with
  | .ok _ => (.ok (), p.recordAll labels ms)
  | .error e => (.error e, p)

/-! ## Handles -/

/-- The series to which a handle refers. -/
def seriesOf? (p : Provider) (h : Handle) : Option Series :=
  (p.instrument? h.instrument).bind fun i => i.seriesOf? h

/-- Changes the series to which a handle refers. -/
def modifyHeld (p : Provider) (h : Handle) (f : Series → Series) : Provider :=
  p.modify h.instrument fun i => i.modifyHeld h f

/-- Takes a handle on the series of some labels, which is created if there is none. -/
def bind (p : Provider) (id : InstrumentId) (labels : LabelSet) : Handle × Provider :=
  let p := p.modify id fun i => i.bind labels
  let born := ((p.instrument? id).map fun i => i.bornOf labels).getD 0
  (⟨id, labels.canonical, born⟩, p)

/-- Takes one more reference to the series of a handle. -/
def retain (p : Provider) (h : Handle) : Provider := p.modifyHeld h Series.retain

/-- Gives the reference of a handle back. -/
def release (p : Provider) (h : Handle) : Provider := p.modifyHeld h Series.release

/-- Checks a value and adds it to the series of a handle. -/
def recordHeld (p : Provider) (h : Handle) (value : Number) : Except Error Unit × Provider :=
  match p.instrument? h.instrument with
  | none => (.error (.unknownInstrument h.instrument.meter h.instrument.name), p)
  | some i =>
    match i.recordHeld h value with
    | .ok i =>
      (.ok (), (p.modify h.instrument fun _ => i).note (.accepted h.instrument h.labels value))
    | .error e => (.error e, p)

end Provider

end Metering
