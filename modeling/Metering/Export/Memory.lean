import Metering.Export.Basic

/-!
# Export to memory

Keeps every batch. It can be set to fail, and then takes nothing.
-/

namespace Metering

/-- The batches exported so far, oldest first. -/
structure MemoryExporter where
  batches : List (List Record)
  /-- Whether exports fail. -/
  failing : Bool
deriving DecidableEq, Inhabited

namespace MemoryExporter

/-- An exporter that has taken nothing. -/
def empty : MemoryExporter := ⟨[], false⟩

/-- Takes a batch, unless it is set to fail. -/
def send (e : MemoryExporter) (batch : List Record) : Except Error Unit × MemoryExporter :=
  if e.failing then (.error (.exportFailed .setToFail), e)
  else (.ok (), { e with batches := e.batches ++ [batch] })

instance : Exporter MemoryExporter := ⟨send⟩

/-- The exporter without its batches. -/
def clear (e : MemoryExporter) : MemoryExporter := { e with batches := [] }

end MemoryExporter

end Metering
