import Metering.Record

/-!
# Exporters

An exporter takes the batch of records of each tick. Whether it succeeds or fails, the exporter
may have changed.
-/

namespace Metering

/-- A destination for batches of records. -/
class Exporter (ε : Type) where
  /-- Takes a batch. -/
  send : ε → List Record → Except Error Unit × ε

end Metering
