import Metering.Arguments
import Metering.Workload.Reader
import Metering.Workload.Run
import Metering.Workload.Synthetic

/-!
# The command line

What the program does with its arguments, apart from reading files, waiting and printing. `prepare`
checks everything that can be refused before a workload starts; `run` plays a workload to its end
with one tick.
-/

namespace Metering.CommandLine

/-- The name and version of the program. -/
def version : String := "tally 0.1.0"

/-- How the program ends. -/
inductive Outcome
  /-- The arguments ask for help or for the version. -/
  | shown (text : String)
  /-- The arguments are not understood. -/
  | misused (fault : Arguments.Fault)
  /-- The program reports an error. -/
  | failed (message : String)
  /-- The period is longer than any duration. -/
  | aborted
  /-- The workload was played, and this was written. -/
  | finished (output : String)
deriving DecidableEq

/-- The exit code of an outcome. -/
def Outcome.exitCode : Outcome → UInt8
  | shown _ => 0
  | misused _ => 2
  | failed _ => 1
  | aborted => 101
  | finished _ => 0

/-- What is written to the error stream. -/
def Outcome.errorText : Outcome → String
  | failed message => s!"Error: {message}\n"
  | _ => ""

/-- A workload that is ready to be played. -/
structure Plan where
  run : Workload.Run
  steps : List Workload.Step
  intervalMs : Nat

/-- Help on the arguments. -/
def help : String :=
  "Drive a workload through the Tally metrics pipeline\n\nUsage: tally [OPTIONS]\n"

/-- What reads the file at a path. -/
abbrev Reader := String → Except FileFault ByteArray

/-- The text of the file at a path. -/
def readText (reader : Reader) (path : String) : Except Workload.Fault String :=
  match reader path with
  | .error fault => .error (.unreadable fault)
  | .ok bytes =>
    match String.fromUTF8? bytes with
    | some text => .ok text
    | none => .error .notText

variable [Generator]

/-- The steps to play: those of the input file, or made-up ones. Without a seed the entropy is one. -/
def steps (reader : Reader) (entropy : UInt64) (a : Arguments) :
    Except Workload.Fault (List Workload.Step) :=
  match a.input with
  | some path => do Workload.read (← readText reader path)
  | none => .ok (Workload.synthetic ((a.seed.map Nat.toUInt64).getD entropy) a.iterations)

/-- The run of arguments and steps. -/
def start (a : Arguments) (schedule : Schedule) (steps : List Workload.Step) : Except Error Plan := do
  let run ← Workload.Run.start a.meter a.boundaries (.ofBool a.stateful) a.format schedule
  .ok ⟨run, steps, a.intervalMs⟩

/-- Checks arguments and makes ready to play. -/
def prepare (reader : Reader) (entropy : UInt64) (a : Arguments) : Except Outcome Plan :=
  match a.validate with
  | .error fault => .error (.failed fault.message)
  | .ok _ =>
    match Schedule.ofPeriod a.period with
    | .unrepresentable => .error .aborted
    | .refused fault => .error (.failed (Error.configuration fault).message)
    | .schedule s =>
      match steps reader entropy a with
      | .error fault => .error (.failed fault.message)
      | .ok steps =>
        match start a { s with timeout := .ofSeconds a.timeout } steps with
        | .error e => .error (.failed e.message)
        | .ok plan => .ok plan

/-- What the program does when its arguments are not those of a run. -/
def outcomeOf : Arguments.Fault → Outcome
  | .showHelp => .shown help
  | .showVersion => .shown (version ++ "\n")
  | fault => .misused fault

/-- Plays a workload with one tick at its end. -/
def run (clock : Nat → Timestamp) (reader : Reader) (entropy : UInt64) (texts : List String) :
    Outcome :=
  match Arguments.read texts with
  | .error fault => outcomeOf fault
  | .ok a =>
    match prepare reader entropy a with
    | .error outcome => outcome
    | .ok plan => .finished (plan.run.playAll clock 0 plan.steps).2.output

end Metering.CommandLine
