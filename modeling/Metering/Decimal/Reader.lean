/-!
# Reading decimal texts

`read?` accepts an optional sign followed by `inf`, `infinity` or `nan` in any case, or by digits
with at most one point, at least one digit, and an optional exponent. The value is the nearest
binary64.
-/

namespace Metering.Decimal

/-- The value of decimal digits, read from the left after `n`. -/
def natOfDigits (n : Nat) (ds : List Char) : Nat :=
  ds.foldl (fun n d => 10 * n + (d.toNat - '0'.toNat)) n

/-- An optional sign and the rest: whether it is a minus. -/
def splitSign : List Char → Bool × List Char
  | '+' :: rest => (false, rest)
  | '-' :: rest => (true, rest)
  | text => (false, text)

/-- The exponent at the end of a number: nothing, or `e` with an optional sign and digits. -/
def exponent? : List Char → Option Int
  | [] => some 0
  | c :: text =>
    if c = 'e' || c = 'E' then
      let (negative, ds) := splitSign text
      if !ds.isEmpty && ds.all Char.isDigit then
        let n : Int := natOfDigits 0 ds
        some (if negative then -n else n)
      else none
    else none

/-- The binary64 nearest to `digits · 10 ^ exponent`, where `digits` was written with `length`
digits. Values far outside the range are settled by their length. -/
def ofScientific (digits length : Nat) (exponent : Int) : Float :=
  if digits = 0 || length + exponent < -400 then 0.0
  else if 400 < exponent then 1.0 / 0.0
  else Float.ofScientific digits (exponent < 0) exponent.natAbs

/-- The value of an unsigned number: digits around an optional point, then an exponent. -/
def unsigned? (text : List Char) : Option Float :=
  let whole := text.takeWhile Char.isDigit
  let afterWhole := text.dropWhile Char.isDigit
  let (fraction, rest) := match afterWhole with
    | '.' :: more => (more.takeWhile Char.isDigit, more.dropWhile Char.isDigit)
    | more => ([], more)
  if whole.isEmpty && fraction.isEmpty then none
  else (exponent? rest).map fun e =>
    ofScientific (natOfDigits 0 (whole ++ fraction)) (whole.length + fraction.length)
      (e - fraction.length)

/-- The value of a text of the form above. -/
def read? (text : List Char) : Option Float :=
  let (negative, rest) := splitSign text
  let magnitude :=
    match String.ofList (rest.map Char.toLower) with
    | "inf" | "infinity" => some (1.0 / 0.0)
    | "nan" => some (0.0 / 0.0)
    | _ => unsigned? rest
  magnitude.map fun x => if negative then -x else x

end Metering.Decimal
