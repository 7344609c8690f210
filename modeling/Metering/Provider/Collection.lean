import Metering.Provider.Basic

/-!
# Collections

Collecting a meter runs the callbacks of its observers and takes a record from every series.
Because callbacks may collect again, a collection is defined by the depth to which collections are
nested. `Provider.depth` is deep enough: each callback that collects uses up one of the collections
that were laid down in scripts.
-/

namespace Metering.Provider

/-- A collection of the meter with a name. -/
abbrev Collection := String → Provider → List Record × Provider

/-- Does one action of the callback of an observer. -/
def act (nested : Collection) (owner : InstrumentId) (p : Provider) : Action → Done × Provider
  | .observe value labels =>
    let (result, p) := p.record ⟨owner, value, labels⟩
    (.recorded ⟨owner, value, labels⟩ result, p)
  | .update tag value labels =>
    match p.tags.get? tag with
    | some id =>
      let (result, p) := p.record ⟨id, value, labels⟩
      (.recorded ⟨id, value, labels⟩ result, p)
    | none => (.untagged tag, p)
  | .create tag meter d choice script =>
    let (result, p) := p.create tag meter d choice script
    (.created result, p)
  | .collect meter =>
    let (records, p) := nested meter p
    (.collected records, p)

/-- Does the actions of one call in order. -/
def actAll (nested : Collection) (owner : InstrumentId) (p : Provider) :
    List Action → List Done × Provider
  | [] => ([], p)
  | a :: rest =>
    let (done, p) := p.act nested owner a
    let (more, p) := p.actAll nested owner rest
    (done :: more, p)

/-- Runs the callback of an instrument, if it has one, for the collection that took the given
clock reading. -/
def runCallback (nested : Collection) (reading : Nat) (id : InstrumentId) (p : Provider) :
    Provider :=
  match (p.instrument? id).bind Instrument.callback with
  | none => p
  | some c =>
    let (actions, after) := c.next
    let (did, p) := (p.modify id fun i => { i with callback := some after }).actAll nested id actions
    { p with journal := p.journal ++ [⟨c.tag, c.calls, reading, id, did⟩] }

/-- Takes a record from each series of an instrument, for the collection that took the given
clock reading. -/
def sweep (clock : Nat → Timestamp) (reading : Nat) (id : InstrumentId) (p : Provider) :
    List Record × Provider :=
  match p.instrument? id with
  | none => ([], p)
  | some i =>
    let (records, i) := i.sweep (clock reading)
    (records, (p.modify id fun _ => i).note (.swept reading id records))

/-- Runs the callback of an instrument and takes a record from each of its series. Disabled
instruments are passed over. -/
def collectInstrument (clock : Nat → Timestamp) (nested : Collection) (reading : Nat)
    (id : InstrumentId) (p : Provider) : List Record × Provider :=
  if (p.instrument? id).any (·.descriptor.enabled) then
    (p.runCallback nested reading id).sweep clock reading id
  else ([], p)

/-- Collects instruments of a meter one after the other. -/
def collectEach (clock : Nat → Timestamp) (nested : Collection) (reading : Nat) (meter : String)
    (p : Provider) : List String → List Record × Provider
  | [] => ([], p)
  | name :: rest =>
    let (records, p) := p.collectInstrument clock nested reading ⟨meter, name⟩
    let (more, p) := p.collectEach clock nested reading meter rest
    (records ++ more, p)

/-- Reads the clock once, then collects the instruments that the meter has at this moment. -/
def collectMeter (clock : Nat → Timestamp) (nested : Collection) : Collection := fun meter p =>
  let p := p.use meter
  { p with readings := p.readings + 1 }.collectEach clock nested p.readings meter
    (p.meter meter).names

/-- A collection in which collections are nested at most `depth` deep. -/
def collectWithin (clock : Nat → Timestamp) : Nat → Collection
  | 0 => fun _ p => ([], p)
  | depth + 1 => collectMeter clock (collectWithin clock depth)

/-- How deep collections can be nested: every callback that collects once more uses up one of the
collections that were laid down. -/
def depth (p : Provider) : Nat := (p.meters.values.map Meter.collections).foldr (· + ·) 0 + 1

/-- Runs the callbacks of a meter and takes a record from every series, in the order of the names
of instruments and of labels. All records have the same time. -/
def collect (clock : Nat → Timestamp) (meter : String) (p : Provider) : List Record × Provider :=
  collectWithin clock p.depth meter p

end Metering.Provider
