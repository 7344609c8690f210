/-!
# Binary64 beside the integers

Exact passages between `Float` and the integers. Each is defined on the sign, significand and
exponent that a value stands for, so its rounding and its limits can be read off.
-/

namespace Metering.Binary64

open Float.Model (UnpackedFloat)

/-- The binary64 nearest to an integer; a tie goes to the even significand. -/
def ofInt64 (v : Int64) : Float := Float.ofModel (Float.Model.ofInt64 v)

/-- The integer part of `x`, kept to the 64-bit range; not a number gives zero. -/
def toInt64 (x : Float) : Int64 := x.toModel.toInt64

/-- The binary64 nearest to a count; a tie goes to the even significand. -/
def ofCount (n : Nat) : Float := Float.ofNat n

/-- The integer part of `x`, kept to the counts of 64 bits; not a number gives zero. -/
def toCount (x : Float) : Nat := x.toUInt64.toNat

/-- The least integer not below `n · 2 ^ e`. -/
def ceilScaled (n : Int) : Int → Int
  | .ofNat e => n * Int.pow 2 e
  | .negSucc e => -((-n) / Int.pow 2 (e + 1))

/-- The least integer not below `x`, kept between `low` and `high`; not a number gives zero. -/
def ceilBetween (low high : Int) (x : Float) : Int :=
  match x.toModel.unpack with
  | .notANumber => 0
  | .zero _ => 0
  | .infinity .negative => low
  | .infinity .positive => high
  | .finite .negative m e _ => max low (min high (ceilScaled (-m) e))
  | .finite .positive m e _ => max low (min high (ceilScaled m e))

/-- Whether `x` is an integer. -/
def isIntegral (x : Float) : Bool :=
  match x.toModel.unpack with
  | .notANumber => false
  | .infinity _ => false
  | .zero _ => true
  | .finite _ _ (.ofNat _) _ => true
  | .finite _ m (.negSucc e) _ => m % Nat.pow 2 (e + 1) = 0

/-- The power `a ^ n` by squaring, in the order in which the bits of `n` are met from the lowest. -/
def powAccumulate (r a : Float) (n : Nat) : Float :=
  let r' := if n % 2 = 1 then r * a else r
  if n / 2 = 0 then r' else powAccumulate r' (a * a) (n / 2)
termination_by n
decreasing_by omega

/-- The power `a ^ k` by squaring; a negative power is the reciprocal of the positive one. -/
def pow (a : Float) (k : Int) : Float :=
  let r := powAccumulate 1.0 a k.natAbs
  if k < 0 then 1.0 / r else r

/-- Keeps `x` between `low` and `high`. -/
def clamp (low high x : Float) : Float :=
  if x < low then low else if high < x then high else x

end Metering.Binary64
