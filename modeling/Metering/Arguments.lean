import Metering.Decimal.Reader
import Metering.Export.Stream
import Metering.Schedule
import Metering.Text.Fields

/-!
# Arguments

The arguments of the command line. An option may be written `--name value`, `--name=value` or, if
it has a letter, `-n value`, `-nvalue` or `-n=value`. What an option is given is looked at when the
next option begins or the arguments end; an argument that belongs to nothing is reported before
that.
-/

namespace Metering

/-- The arguments of the command line. -/
structure Arguments where
  /-- Seconds between ticks. -/
  period : Float
  /-- Seconds that an export may take. -/
  timeout : Nat
  /-- Whether totals are reported, rather than what each tick brought. -/
  stateful : Bool
  /-- The boundaries of the histogram of recorded values. -/
  boundaries : List Float
  format : TextStream.Format
  /-- The file of the workload. -/
  input : Option String
  /-- The number of steps of a made-up workload. -/
  iterations : Nat
  /-- The seed of a made-up workload. -/
  seed : Option Nat
  /-- Milliseconds between steps. -/
  intervalMs : Nat
  meter : String
deriving DecidableEq

namespace Arguments

/-- The arguments for which nothing is given. -/
def default : Arguments :=
  { period := 0.05
    timeout := Schedule.defaultTimeoutSeconds
    stateful := false
    boundaries := []
    format := .text
    input := none
    iterations := 20
    seed := none
    intervalMs := 10
    meter := "tally" }

/-- Why arguments are not understood, or what is shown instead of running. -/
inductive Fault
  /-- A value is not of the form that its option needs. -/
  | malformedValue
  /-- A value is missing, or is not one of those that its option admits. -/
  | invalidValue
  | unknownArgument
  /-- An option or flag is given twice. -/
  | repeated
  /-- A flag is given a value. -/
  | valueForFlag
  | showHelp
  | showVersion
deriving DecidableEq, Repr

/-- The options that take a value. -/
inductive Setting
  | period
  | timeout
  | boundaries
  | format
  | input
  | iterations
  | seed
  | intervalMs
  | meter
deriving DecidableEq, Repr

/-- What a name or letter stands for. -/
inductive Switch
  | setting (s : Setting)
  | stateful
  | help
  | version
deriving DecidableEq, Repr

/-- What a long name stands for. -/
def Switch.ofName? (name : List Char) : Option Switch :=
  match String.ofList name with
  | "period" => some (.setting .period)
  | "timeout" => some (.setting .timeout)
  | "boundaries" => some (.setting .boundaries)
  | "format" => some (.setting .format)
  | "input" => some (.setting .input)
  | "iterations" => some (.setting .iterations)
  | "seed" => some (.setting .seed)
  | "interval-ms" => some (.setting .intervalMs)
  | "meter" => some (.setting .meter)
  | "stateful" => some .stateful
  | "help" => some .help
  | "version" => some .version
  | _ => none

/-- What a letter stands for. -/
def Switch.ofLetter? : Char → Option Switch
  | 'p' => some (.setting .period)
  | 'b' => some (.setting .boundaries)
  | 'i' => some (.setting .input)
  | 'n' => some (.setting .iterations)
  | 'm' => some (.setting .meter)
  | 'h' => some .help
  | 'V' => some .version
  | _ => none

/-- How far the arguments have been read. -/
structure State where
  arguments : Arguments
  /-- The options that have been given. -/
  given : List Switch
  /-- The option that was begun last, with its value if that has been met. -/
  pending : Option (Setting × Option (List Char))

/-- A count of 64 bits, with an optional plus. -/
def readCount? (text : List Char) : Option Nat :=
  let ds := match text with
    | '+' :: rest => rest
    | ds => ds
  if !ds.isEmpty && ds.all Char.isDigit && Decimal.natOfDigits 0 ds < UInt64.size then
    some (Decimal.natOfDigits 0 ds)
  else none

/-- A value of the form that an option needs. -/
def wellFormed {α : Type} : Option α → Except Fault α
  | some a => .ok a
  | none => .error .malformedValue

/-- The arguments with the value of an option. -/
def set (a : Arguments) (s : Setting) (text : List Char) : Except Fault Arguments :=
  match s with
  | .period => do .ok { a with period := ← wellFormed (Decimal.read? text) }
  | .timeout => do .ok { a with timeout := ← wellFormed (readCount? text) }
  | .boundaries => do
    let more ← wellFormed ((Text.split ',' text).mapM Decimal.read?)
    .ok { a with boundaries := a.boundaries ++ more }
  | .format =>
    match String.ofList text with
    | "text" => .ok { a with format := .text }
    | "json" => .ok { a with format := .json }
    | _ => .error .invalidValue
  | .input =>
    if text.isEmpty then .error .invalidValue
    else .ok { a with input := some (String.ofList text) }
  | .iterations => do .ok { a with iterations := ← wellFormed (readCount? text) }
  | .seed => do .ok { a with seed := some (← wellFormed (readCount? text)) }
  | .intervalMs => do .ok { a with intervalMs := ← wellFormed (readCount? text) }
  | .meter => .ok { a with meter := String.ofList text }

namespace State

/-- Takes note that a switch is given. Only boundaries may be given more than once. -/
def note (st : State) (s : Switch) : Except Fault State :=
  if s ≠ .setting .boundaries && st.given.contains s then .error .repeated
  else .ok { st with given := s :: st.given }

/-- Gives an option its value. -/
def assign (st : State) (s : Setting) (text : List Char) : Except Fault State := do
  let st ← st.note (.setting s)
  .ok { st with arguments := ← st.arguments.set s text }

/-- Settles the option that was begun last. -/
def resolve (st : State) : Except Fault State :=
  match st.pending with
  | none => .ok st
  | some (_, none) => .error .invalidValue
  | some (s, some text) => { st with pending := none }.assign s text

/-- Begins an option whose value is to come. -/
def await (st : State) (s : Setting) : Except Fault State := do
  let st ← st.resolve
  .ok { st with pending := some (s, none) }

/-- Gives an option a value that was attached to it. -/
def attach (st : State) (s : Setting) (text : List Char) : Except Fault State := do
  let st ← st.resolve
  st.assign s text

/-- Sets a flag. -/
def raise (st : State) : Switch → Except Fault State
  | .setting s => st.await s
  | .help => do
    let _ ← st.resolve
    .error .showHelp
  | .version => do
    let _ ← st.resolve
    .error .showVersion
  | .stateful => do
    let st ← (← st.resolve).note .stateful
    .ok { st with arguments := { st.arguments with stateful := true } }

/-- Takes letters after one dash. -/
def letters (st : State) : List Char → Except Fault State
  | [] => .ok st
  | c :: rest =>
    match Switch.ofLetter? c, rest with
    | none, _ => .error .unknownArgument
    | some (.setting s), [] => st.await s
    | some (.setting s), '=' :: value => st.attach s value
    | some (.setting s), value => st.attach s value
    | some flag, _ => do (← st.raise flag).letters rest

/-- Takes a name after two dashes. -/
def long (st : State) (text : List Char) : Except Fault State :=
  match Text.cut '=' text with
  | (name, value) =>
    match Switch.ofName? name, value with
    | none, _ => .error .unknownArgument
    | some (.setting s), some value => st.attach s value
    | some _, some _ => .error .valueForFlag
    | some switch, none => st.raise switch

/-- Takes an argument that is neither a name nor letters: the value that is awaited. -/
def value (st : State) (text : List Char) : Except Fault State :=
  match st.pending with
  | some (s, none) => .ok { st with pending := some (s, some text) }
  | _ => .error .unknownArgument

/-- Takes the arguments one by one. -/
def readAll (st : State) : List (List Char) → Except Fault State
  | [] => st.resolve
  | ['-', '-'] :: rest => if rest.isEmpty then st.resolve else .error .unknownArgument
  | ('-' :: '-' :: text) :: rest => do (← st.long text).readAll rest
  | ('-' :: c :: text) :: rest => do (← st.letters (c :: text)).readAll rest
  | text :: rest => do (← st.value text).readAll rest

end State

/-- Reads arguments. -/
def read (texts : List String) : Except Fault Arguments :=
  ((⟨default, [], none⟩ : State).readAll (texts.map String.toList)).map State.arguments

/-- What is wrong with boundaries. -/
inductive BoundaryFault
  | notFinite
  | notIncreasing
deriving DecidableEq, Repr

/-- The words for bad boundaries. -/
def BoundaryFault.message : BoundaryFault → String
  | notFinite => "histogram boundaries must be finite"
  | notIncreasing => "histogram boundaries must be strictly increasing"

/-- Whether each float is below the next one. -/
def isIncreasing : List Float → Bool
  | a :: b :: rest => !(b ≤ a) && isIncreasing (b :: rest)
  | _ => true

/-- Refuses boundaries that are not finite or do not increase. -/
def validate (a : Arguments) : Except BoundaryFault Unit :=
  if !a.boundaries.all Float.isFinite then .error .notFinite
  else if !isIncreasing a.boundaries then .error .notIncreasing
  else .ok ()

end Arguments

end Metering
