import Metering.Controller
import Metering.Text.Quoted

/-!
# Diagnostic texts

How instruments, meters, measurements and controllers show themselves to a programmer.
-/

namespace Metering.Diagnostic

/-- A structure by its name alone. -/
def named (type name : String) : String :=
  type ++ " \x7b name: " ++ Text.Quoted.quote name ++ " \x7d"

/-- An instrument by its kind and name. -/
def instrument (d : Descriptor) : String :=
  let type := match d.kind with
    | .counter => "Counter"
    | .upDownCounter => "UpDownCounter"
    | .valueRecorder => "ValueRecorder"
    | _ => "Observer"
  named type d.name

/-- A meter by its name and number of instruments. -/
def meter (name : String) (m : Meter) : String :=
  "Meter \x7b name: " ++ Text.Quoted.quote name ++ s!", instruments: {m.instruments.size}" ++ " \x7d"

/-- A measurement. -/
def measurement (m : Measurement) : String :=
  "Measurement \x7b instrument: " ++ Text.Quoted.quote m.instrument.name ++ ", value: "
    ++ m.value.diagnostic ++ " \x7d"

/-- A controller by its meter and schedule, and whether it is running. -/
def controller {ε : Type} (c : Controller ε) : String :=
  "PushController \x7b meter: " ++ Text.Quoted.quote c.meter
    ++ ", config: ControllerConfig \x7b period: " ++ c.schedule.period.diagnostic ++ ", timeout: "
    ++ c.schedule.timeout.diagnostic ++ " \x7d, active: " ++ toString c.isActive ++ " \x7d"

end Metering.Diagnostic
