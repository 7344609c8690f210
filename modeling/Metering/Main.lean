import Metering.CommandLine
import Std.Time.DateTime.Timestamp

/-!
# The program

Reads the input file, plays the workload at its pace, ticks when a period has passed, and prints
what is exported.
-/

namespace Metering.Main

/-- The reason that the system gives. It may be numbered downwards from zero. -/
def faultOf (e : IO.Error) : FileFault :=
  let number (code : UInt32) : Nat := code.toInt32.toInt.natAbs
  let numbered := match e with
    | .noFileOrDirectory _ code _ => FileFault.ofNumber? (number code)
    | .permissionDenied _ code _ => FileFault.ofNumber? (number code)
    | .inappropriateType _ code _ => FileFault.ofNumber? (number code)
    | .invalidArgument _ code _ => FileFault.ofNumber? (number code)
    | _ => none
  numbered.getD (.stated (toString e))

/-- The content of a file, or why it cannot be read. -/
def readContent (path : String) : IO (Except FileFault ByteArray) := do
  try
    pure (.ok (← IO.FS.readBinFile path))
  catch e => pure (.error (faultOf e))

/-- The clock as it stands now. -/
def readClock : IO (Nat → Timestamp) := do
  let now ← Std.Time.Timestamp.now
  pure fun _ => ⟨now.toNanosecondsSinceUnixEpoch.toInt⟩

/-- Ticks at this moment and prints what that exports. -/
def tick (r : Workload.Run) : IO Workload.Run := do
  let (_, after) := r.tick (← readClock)
  let out ← IO.getStdout
  out.putStr (String.ofList (after.output.toList.drop r.output.length))
  out.flush
  pure after

/-- Applies steps with pauses, and ticks whenever a period has passed since the tick before. -/
def play (intervalMs due : Nat) (r : Workload.Run) : List Workload.Step → IO Workload.Run
  | [] => pure r
  | s :: rest => do
    let (_, r) := r.apply s
    if 0 < intervalMs then IO.sleep intervalMs.toUInt32
    if due ≤ (← IO.monoNanosNow) then
      let r ← tick r
      let due := (← IO.monoNanosNow) + r.controller.schedule.period.nanoseconds
      play intervalMs due r rest
    else play intervalMs due r rest

/-- Ends the program as an outcome says. -/
def finish (outcome : CommandLine.Outcome) : IO UInt32 := do
  match outcome with
  | .shown text => IO.print text
  | .misused _ => IO.eprint "error: the arguments are not understood\n"
  | other => IO.eprint other.errorText
  pure outcome.exitCode.toUInt32

/-- Plays the workload of some arguments. -/
def run (texts : List String) : IO UInt32 := do
  match Arguments.read texts with
  | .error fault => finish (CommandLine.outcomeOf fault)
  | .ok a =>
    let content ← match a.input with
      | some path => readContent path
      | none => pure (.error .notFound)
    let now ← IO.monoNanosNow
    match CommandLine.prepare (fun _ => content) now.toUInt64 a with
    | .error outcome => finish outcome
    | .ok plan =>
      let due := now + plan.run.controller.schedule.period.nanoseconds
      let _ ← tick (← play plan.intervalMs due plan.run plan.steps)
      pure 0

end Metering.Main

/-- Runs the program with its arguments. -/
def main (texts : List String) : IO UInt32 := Metering.Main.run texts
