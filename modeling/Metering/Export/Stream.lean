import Metering.Export.Line

/-!
# Export to a stream of text

Batches are written one after another: as text under a heading that numbers them, or as one JSON
object per line. A sink either takes everything or refuses, and then nothing of the batch reaches
it; a batch that writes nothing cannot be refused.
-/

namespace Metering

/-- How records are written. -/
inductive TextStream.Format
  | text
  | json
deriving DecidableEq, Repr, Inhabited

/-- A stream with what has been written to it. -/
structure TextStream where
  format : TextStream.Format
  /-- The number of batches so far, refused ones included. -/
  batches : Nat
  output : String
deriving DecidableEq, Repr, Inhabited

namespace TextStream

/-- The name of a format. -/
def Format.name : Format → String
  | .text => "text"
  | .json => "json"

/-- A stream to which nothing has been written. -/
def empty (format : Format) : TextStream := ⟨format, 0, ""⟩

/-- What a batch writes, and why it ends early if it does. -/
structure Written where
  text : String
  fault : Option ExportFault

/-- The heading of the batch with the given number. -/
def heading (number size : Nat) : String := s!"--- export #{number} ({size} records)"

/-- A batch as text: the heading and a line for each record. -/
def writeText (number : Nat) (records : List Record) : Written :=
  ⟨String.join ((heading number records.length :: records.map Record.line).map (· ++ "\n")), none⟩

/-- A batch as JSON: a line for each record, up to the first whose time has no JSON. -/
def writeJson : List Record → Written
  | [] => ⟨"", none⟩
  | r :: rest =>
    match r.json with
    | .ok text =>
      let more := writeJson rest
      ⟨text ++ "\n" ++ more.text, more.fault⟩
    | .error fault => ⟨r.jsonBeforeTime, some fault⟩

/-- What the next batch writes. -/
def write (s : TextStream) (records : List Record) : Written :=
  match s.format with
  | .text => writeText (s.batches + 1) records
  | .json => writeJson records

/-- Sends a batch to a sink, which refuses it for the given reason if there is one. -/
def send (s : TextStream) (refusal : Option String) (records : List Record) :
    Except Error Unit × TextStream :=
  let written := s.write records
  let counted := { s with batches := s.batches + 1 }
  match refusal with
  | some reason =>
    if written.text.isEmpty then (.ok (), counted)
    else (.error (.exportFailed (.stated reason)), counted)
  | none =>
    let sent := { counted with output := s.output ++ written.text }
    match written.fault with
    | some fault => (.error (.exportFailed fault), sent)
    | none => (.ok (), sent)

end TextStream

end Metering
