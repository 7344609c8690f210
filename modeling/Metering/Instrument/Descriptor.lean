import Metering.Instrument.Kind
import Metering.Error

/-!
# Descriptions of instruments

What identifies an instrument and does not change: its name and kind, and which values it takes.
-/

namespace Metering

/-- What identifies an instrument. -/
structure Descriptor where
  name : String
  description : String
  unit : String
  kind : InstrumentKind
  numberKind : NumberKind
  /-- Whether values are recorded; a disabled instrument takes them and records nothing. -/
  enabled : Bool
deriving DecidableEq, Repr, Inhabited

namespace Descriptor

/-- A value in the kind of number that the instrument records. -/
def number (d : Descriptor) (value : Number) : Number := value.convert d.numberKind

theorem kind_number (d : Descriptor) (value : Number) : (d.number value).kind = d.numberKind :=
  value.kind_convert d.numberKind

theorem number_eq_self {d : Descriptor} {value : Number} (same : value.kind = d.numberKind) :
    d.number value = value := by
  rw [number, ← same, Number.convert_kind]

/-- Refuses values that are not finite, and for monotonic kinds those below zero. The value is
looked at in the kind of number that the instrument records. -/
def check (d : Descriptor) (value : Number) : Except Error Unit :=
  let value := d.number value
  if !value.isFinite then .error (.invalidArgument (.valueNotFinite d.kind d.name value))
  else if d.kind.isMonotonic && value.isNegative then
    .error (.invalidArgument (.valueNegative d.kind d.name value))
  else .ok ()

/-- The values that are not refused: finite ones, and for monotonic kinds none below zero. -/
def Takes (d : Descriptor) (value : Number) : Prop :=
  (d.number value).isFinite = true ∧
    (d.kind.isMonotonic = true → (d.number value).isNegative = false)

theorem check_eq_ok_iff {d : Descriptor} {value : Number} :
    d.check value = .ok () ↔ d.Takes value := by
  rw [check, Takes]
  cases (d.number value).isFinite <;> cases d.kind.isMonotonic <;>
    cases (d.number value).isNegative <;> simp

end Descriptor

end Metering
