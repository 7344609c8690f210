import Metering.Decimal.Shortest
import Metering.Binary64

/-!
# Decimal texts of binary values

`Layout.write` lays out the fewest digits that read back, `fixed` writes the exact value rounded
to a given number of places.
-/

namespace Metering.Decimal

/-- How the digits of a value are laid out. -/
structure Layout where
  /-- The least decimal exponent that is written as one; without it large values are written out. -/
  exponentFrom : Option Int
  /-- Exponents below this are written as such; without it small values are written out. -/
  exponentBelow : Option Int
  /-- Whether an integer that is written out ends in `.0`. -/
  pointZero : Bool
  /-- Whether a positive exponent has its sign. -/
  plus : Bool
  /-- Which of two equally near shortest texts is taken. -/
  tie : Tie

/-- Digits with the point after the first `p` of them, zeros filled in. -/
def positional (pointZero : Bool) (ds : List Char) (p : Int) : List Char :=
  if p ≤ 0 then '0' :: '.' :: (List.replicate (-p).toNat '0' ++ ds)
  else
    let whole := p.toNat
    if ds.length ≤ whole then
      ds ++ List.replicate (whole - ds.length) '0' ++ if pointZero then ['.', '0'] else []
    else ds.take whole ++ '.' :: ds.drop whole

/-- One digit before the point, the others after it, and the exponent. -/
def scientific (plus : Bool) (ds : List Char) (e : Int) : List Char :=
  let mantissa := match ds with
    | [] => ['0']
    | [d] => [d]
    | d :: rest => d :: '.' :: rest
  let sign := if e < 0 then ['-'] else if plus then ['+'] else []
  mantissa ++ 'e' :: (sign ++ Nat.toDigits 10 e.natAbs)

namespace Layout

/-- The text of a decimal. -/
def writeDecimal (l : Layout) (d : Decimal) : List Char :=
  let ds := Nat.toDigits 10 d.digits
  let e := ds.length + d.exponent - 1
  let large := match l.exponentFrom with
    | some least => decide (least ≤ e)
    | none => false
  let small := match l.exponentBelow with
    | some bound => decide (e < bound)
    | none => false
  if large || small then scientific l.plus ds e else positional l.pointZero ds (e + 1)

/-- The text of a value: the fewest digits that read back. -/
def write (l : Layout) (x : Float) : String :=
  let signed (negative : Bool) (text : List Char) : String :=
    String.ofList (if negative then '-' :: text else text)
  match x.toModel.unpack with
  | .notANumber => "NaN"
  | .infinity s => signed (s matches .negative) ['i', 'n', 'f']
  | .zero s => signed (s matches .negative) ('0' :: if l.pointZero then ['.', '0'] else [])
  | .finite s m e _ => signed (s matches .negative) (l.writeDecimal (shortest l.tie m e))

end Layout

/-- Plain text: no exponent, and no point in an integer. -/
def plain : Layout := ⟨none, none, false, false, .up⟩

/-- Diagnostic text: always a point or an exponent, which is used from `10 ^ 16` on and below
`10 ^ -4`. -/
def diagnostic : Layout := ⟨some 16, some (-4), true, false, .up⟩

/-- The quotient `n / d` rounded to the nearest integer, a half to the even neighbour. -/
def roundHalfEven (n d : Nat) : Nat :=
  let below := n / d
  let rest := n % d
  if 2 * rest < d then below
  else if d < 2 * rest then below + 1
  else if below % 2 = 0 then below else below + 1

/-- The exact value rounded to `places` digits after the point, a half to the even neighbour. -/
def fixed (places : Nat) (x : Float) : String :=
  let text (negative : Bool) (scaled : Nat) : String :=
    let ds := Nat.toDigits 10 scaled
    let padded := List.replicate (places + 1 - ds.length) '0' ++ ds
    let whole := padded.length - places
    let unsigned := padded.take whole ++ if places = 0 then [] else '.' :: padded.drop whole
    String.ofList (if negative then '-' :: unsigned else unsigned)
  match x.toModel.unpack with
  | .notANumber => "NaN"
  | .infinity s => if s matches .negative then "-inf" else "inf"
  | .zero s => text (s matches .negative) 0
  | .finite s m e _ =>
    text (s matches .negative)
      (roundHalfEven (m * Nat.pow 10 places * Nat.pow 2 e.toNat) (Nat.pow 2 (-e).toNat))

end Metering.Decimal
