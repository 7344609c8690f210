import Metering.Error

/-!
# Schedules

How often a controller ticks and how long an export may take. `Schedule.ofPeriod` reads a period
in seconds, and `Schedule.validate` refuses empty durations.
-/

namespace Metering

/-- The timing of a controller. -/
structure Schedule where
  /-- The time between two ticks. -/
  period : Duration
  /-- The time that one export may take. -/
  timeout : Duration
deriving DecidableEq, Inhabited

namespace Schedule

/-- The period of a controller for which none is given. -/
def defaultPeriod : Duration := .ofSeconds 5

/-- The timeout of a controller for which none is given, in seconds. -/
def defaultTimeoutSeconds : Nat := 30

/-- A schedule with the given period. -/
def every (period : Duration) : Schedule := ⟨period, .ofSeconds defaultTimeoutSeconds⟩

/-- The schedule for which nothing is given. -/
def default : Schedule := every defaultPeriod

/-- What becomes of a period given in seconds. -/
inductive Reading
  | schedule (s : Schedule)
  | refused (fault : ScheduleFault)
  /-- The period is positive but longer than any duration. -/
  | unrepresentable
deriving DecidableEq

/-- The schedule of a period in seconds. -/
def ofPeriod (period : Float) : Reading :=
  if !period.isFinite || period ≤ 0.0 then .refused (.periodNotPositive period)
  else match Duration.ofSeconds? period with
    | some d => .schedule (every d)
    | none => .unrepresentable

/-- Refuses a schedule in which a duration is empty. -/
def validate (s : Schedule) : Except ScheduleFault Unit :=
  if s.period.isZero then .error .zeroPeriod
  else if s.timeout.isZero then .error .zeroTimeout
  else .ok ()

end Schedule

end Metering
