import Metering.Instrument.Basic

/-!
# Meters

A meter holds instruments by name. Registering an instrument refuses what no instrument can be
made of and names that are taken, and then changes nothing.
-/

namespace Metering

/-- A registry of instruments by their names. -/
structure Meter where
  instruments : Keyed String Instrument

namespace Meter

/-- A meter without instruments. -/
def empty : Meter := ⟨∅⟩

/-- Refuses descriptions and aggregations of which no instrument can be made. -/
def check (d : Descriptor) (a : Aggregation) : Except ArgumentFault Unit :=
  if d.kind = .valueRecorder && a = .sum then .error (.sumForRecorder d.name)
  else if d.name.isEmpty then .error .emptyName
  else a.validate

/-- Adds an instrument under a name that is not taken. -/
def register (m : Meter) (d : Descriptor) (a : Aggregation) (callback : Option Callback) :
    Except Error Meter :=
  match check d a with
  | .error fault => .error (.invalidArgument fault)
  | .ok _ =>
    if m.instruments.contains d.name then .error (.duplicateInstrument d.name)
    else .ok ⟨m.instruments.insert d.name (.new d a callback)⟩

/-- The names of the instruments in order. -/
def names (m : Meter) : List String := m.instruments.keys

/-- The instrument with a name. -/
def get? (m : Meter) (name : String) : Option Instrument := m.instruments.get? name

/-- Changes the instrument with a name. -/
def modify (m : Meter) (name : String) (f : Instrument → Instrument) : Meter :=
  ⟨m.instruments.modify name f⟩

/-- The collections that the callbacks of the meter can still lead to. -/
def collections (m : Meter) : Nat :=
  (m.instruments.values.map fun i => (i.callback.map Callback.collections).getD 0).foldr (· + ·) 0

end Meter

end Metering
