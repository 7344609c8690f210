import Metering.Instrument.Kind
import Metering.Number
import Metering.Duration

/-!
# Errors

An error is its cause; `Error.message` words it.
-/

namespace Metering

/-- Why an argument is refused. -/
inductive ArgumentFault
  /-- A reason in the caller's words. -/
  | stated (text : String)
  | emptyName
  | boundaryNotFinite
  | accuracyOutOfRange (accuracy : Float)
  | sumForRecorder (name : String)
  | valueNotFinite (kind : InstrumentKind) (name : String) (value : Number)
  | valueNegative (kind : InstrumentKind) (name : String) (value : Number)
deriving DecidableEq

/-- In what the configurations of two aggregates differ. -/
inductive Difference
  /-- A difference in the caller's words. -/
  | stated (text : String)
  | boundaries (own other : List Float)
  | accuracy (own other : Float)
deriving DecidableEq

/-- Why a batch could not be exported. -/
inductive ExportFault
  /-- A reason in the words of the destination. -/
  | stated (text : String)
  | setToFail
  | beforeEpoch
deriving DecidableEq

/-- Why a schedule is refused. -/
inductive ScheduleFault
  /-- A reason in the caller's words. -/
  | stated (text : String)
  | periodNotPositive (period : Float)
  | zeroPeriod
  | zeroTimeout
deriving DecidableEq

/-- What can go wrong between a measurement and its export. -/
inductive Error
  | invalidArgument (fault : ArgumentFault)
  | duplicateInstrument (name : String)
  | kindMismatch (expected found : AggregateKind)
  | incompatible (difference : Difference)
  | unknownInstrument (meter instrument : String)
  | exportFailed (fault : ExportFault)
  | configuration (fault : ScheduleFault)
  | providerInPlace
deriving DecidableEq

/-- The words for a refused argument. -/
def ArgumentFault.message : ArgumentFault → String
  | stated text => text
  | emptyName => "instrument name must not be empty"
  | boundaryNotFinite => "histogram boundaries must be finite"
  | accuracyOutOfRange accuracy =>
    s!"sketch relative accuracy must be in (0, 1), got {Decimal.plain.write accuracy}"
  | sumForRecorder name => s!"value recorder {name} cannot use a sum aggregation"
  | valueNotFinite kind name value =>
    s!"{kind.name} {name}: value must be finite, got {value.text}"
  | valueNegative kind name value =>
    s!"{kind.name} {name}: updates must be non-negative, got {value.text}"

/-- A list of floats, for diagnostics. -/
def diagnosticFloats (xs : List Float) : String :=
  "[" ++ ", ".intercalate (xs.map Decimal.diagnostic.write) ++ "]"

/-- The words for a difference in configuration. -/
def Difference.message : Difference → String
  | stated text => text
  | boundaries own other =>
    s!"histogram boundaries differ: {diagnosticFloats own} vs {diagnosticFloats other}"
  | accuracy own other =>
    s!"sketch accuracy differs: {Decimal.plain.write own} vs {Decimal.plain.write other}"

/-- The words for a failed export. -/
def ExportFault.message : ExportFault → String
  | stated text => text
  | setToFail => "in-memory exporter set to fail"
  | beforeEpoch => "SystemTime must be later than UNIX_EPOCH"

/-- The words for a refused schedule. -/
def ScheduleFault.message : ScheduleFault → String
  | stated text => text
  | periodNotPositive period =>
    s!"period must be a positive number of seconds, got {Decimal.plain.write period}"
  | zeroPeriod => "period must be non-zero"
  | zeroTimeout => "timeout must be non-zero"

/-- The words for an error. -/
def Error.message : Error → String
  | invalidArgument fault => s!"invalid argument: {fault.message}"
  | duplicateInstrument name => s!"instrument already registered: {name}"
  | kindMismatch expected found =>
    s!"aggregator kind mismatch: expected {expected.name}, found {found.name}"
  | incompatible difference => s!"incompatible aggregators: {difference.message}"
  | unknownInstrument meter instrument =>
    s!"instrument {instrument} is not registered with meter {meter}"
  | exportFailed fault => s!"export error: {fault.message}"
  | configuration fault => s!"configuration error: {fault.message}"
  | providerInPlace => "meter provider already initialized"

end Metering
