import Metering.Binary64
import Metering.Decimal.Reader
import Metering.File.Fault
import Metering.Text.Blank
import Metering.Text.Fields
import Metering.Workload.Basic

/-!
# Reading workloads

A workload has one step a line: a target, a value and labels, divided by the first two commas of
the line. Labels are `key=value` pairs divided by semicolons, and quotes around them are left out.
Lines that are blank or start with `#` are passed over, and a bad line is reported under its number
in the whole text.
-/

namespace Metering.Workload

/-- What is wrong with the labels of a line. -/
inductive LabelFault
  | notPair (text : String)
  | emptyKey (text : String)
deriving DecidableEq, Repr

/-- What is wrong with a line. -/
inductive LineFault
  | unknownTarget (text : String)
  | missingValue
  | invalidValue (text : String)
  | valueNotFinite (text : String)
  | valueNotInteger (text : String)
  | labels (fault : LabelFault)
deriving DecidableEq, Repr

/-- Why there is no workload. -/
inductive Fault
  /-- The file could not be read. -/
  | unreadable (fault : FileFault)
  /-- The bytes of the file are not those of a text. -/
  | notText
  /-- The line with the given number, counted from one, is bad. -/
  | line (number : Nat) (fault : LineFault)
deriving DecidableEq, Repr

/-- The words for bad labels. -/
def LabelFault.message : LabelFault → String
  | notPair text => s!"label '{text}' is not key=value"
  | emptyKey text => s!"label '{text}' has an empty key"

/-- The words for a bad line. -/
def LineFault.message : LineFault → String
  | unknownTarget text => s!"unknown instrument '{text}'"
  | missingValue => "missing value"
  | invalidValue text => s!"invalid value '{text}'"
  | valueNotFinite text => s!"value '{text}' is not finite"
  | valueNotInteger text => s!"counter values must be integers, got '{text}'"
  | labels fault => fault.message

/-- The words for a workload that cannot be used. -/
def Fault.message : Fault → String
  | unreadable fault => s!"failed to read workload: {fault.message}"
  | notText => "failed to read workload: stream did not contain valid UTF-8"
  | line number fault => s!"line {number}: {fault.message}"

/-- The target of a name. -/
def Target.read (text : List Char) : Except LineFault Target :=
  match String.ofList text with
  | "counter" | "ctr" => .ok .counter
  | "up_down_counter" | "updown" => .ok .upDownCounter
  | "value_recorder" | "recorder" => .ok .valueRecorder
  | other => .error (.unknownTarget other)

/-- One label, without blanks around it. -/
def readPair (text : List Char) : Except LabelFault (String × String) :=
  match Text.cut '=' text with
  | (_, none) => .error (.notPair (String.ofList text))
  | (key, some value) =>
    if (Text.trim key).isEmpty then .error (.emptyKey (String.ofList text))
    else .ok (String.ofList (Text.trim key), String.ofList (Text.trim value))

/-- The labels of a text. -/
def readLabels (text : List Char) : Except LabelFault LabelSet :=
  let unquoted := Text.trimWhile (· = '"') (Text.trim text)
  let pairs := ((Text.split ';' unquoted).map Text.trim).filter fun p => !p.isEmpty
  (pairs.mapM readPair).map LabelSet.ofList

/-- The value of a text for a target. -/
def readValue (target : Target) (text : List Char) : Except LineFault Float :=
  match Decimal.read? text with
  | none => .error (.invalidValue (String.ofList text))
  | some x =>
    if !x.isFinite then .error (.valueNotFinite (String.ofList text))
    else if target ≠ .valueRecorder && !Binary64.isIntegral x then
      .error (.valueNotInteger (String.ofList text))
    else .ok x

/-- The step of a line. -/
def readLine (line : List Char) : Except LineFault Step :=
  let (name, afterName) := Text.cut ',' line
  match Target.read (Text.trim name) with
  | .error fault => .error fault
  | .ok target =>
    match afterName.map (Text.cut ',') with
    | none => .error .missingValue
    | some (value, afterValue) =>
      match readValue target (Text.trim value) with
      | .error fault => .error fault
      | .ok value =>
        match readLabels (afterValue.getD []) with
        | .error fault => .error (.labels fault)
        | .ok labels => .ok ⟨target, value, labels⟩

/-- Whether a line, without blanks at its ends, holds no step. -/
def isSkipped (line : List Char) : Bool := line.isEmpty || line.head? = some '#'

/-- The steps of lines, of which the first has the given number. -/
def readLines (number : Nat) : List (List Char) → Except Fault (List Step)
  | [] => .ok []
  | line :: rest =>
    if isSkipped (Text.trim line) then readLines (number + 1) rest
    else
      match readLine (Text.trim line) with
      | .error fault => .error (.line number fault)
      | .ok step => (readLines (number + 1) rest).map (step :: ·)

/-- The steps of a text. -/
def read (text : String) : Except Fault (List Step) :=
  readLines 1 (Text.split '\n' text.toList)

end Metering.Workload
