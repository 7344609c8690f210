import Metering.Decimal.Layout

/-!
# JSON texts

Writers of compact JSON. A member of an array or object is given by its own JSON text, so the
text of a value is built from the texts of its parts.
-/

namespace Metering.Text.Json

/-- A character inside a JSON string: quotes, backslashes and control characters are escaped. -/
def escape (c : Char) : List Char :=
  match c with
  | '"' => ['\\', '"']
  | '\\' => ['\\', '\\']
  | '\n' => ['\\', 'n']
  | '\r' => ['\\', 'r']
  | '\t' => ['\\', 't']
  | '\x08' => ['\\', 'b']
  | '\x0c' => ['\\', 'f']
  | c =>
    if c.toNat < 32 then
      ['\\', 'u', '0', '0', Nat.digitChar (c.toNat / 16), Nat.digitChar (c.toNat % 16)]
    else [c]

/-- A JSON string. -/
def text (s : String) : String := String.ofList ('"' :: (s.toList.flatMap escape ++ ['"']))

/-- An integer. -/
def integer (n : Int) : String := toString n

/-- Numbers have a point or an exponent, which is used from `10 ^ 16` on and below `10 ^ -5`. -/
def layout : Decimal.Layout := ⟨some 16, some (-5), true, true, .even⟩

/-- A number, or `null` when it is not finite. -/
def float (x : Float) : String := if x.isFinite then layout.write x else "null"

/-- An array of the given items. -/
def array (items : List String) : String := "[" ++ ",".intercalate items ++ "]"

/-- A member of an object: its key and the text of its value. -/
def member (key value : String) : String := text key ++ ":" ++ value

/-- An object with the given members, each the text of a key and its value. -/
def object (members : List String) : String := "\x7b" ++ ",".intercalate members ++ "\x7d"

end Metering.Text.Json
