/-!
# The fewest digits that read back

A finite binary value is the nearest one to every number of an interval around it. Of the
decimals in that interval `shortest` takes one with the fewest digits, and of those the one
nearest to the value. All arithmetic is exact.
-/

namespace Metering

/-- The number `digits · 10 ^ exponent`. -/
structure Decimal where
  digits : Nat
  exponent : Int
deriving DecidableEq, Repr

namespace Decimal

/-- Which of two equally near numbers is taken. -/
inductive Tie
  | up
  | even
deriving DecidableEq, Repr

/-- The numbers that round to one binary value: those from `low` to `high` around `value`, all
three in units of `1 / denominator`. -/
structure Interval where
  low : Nat
  value : Nat
  high : Nat
  denominator : Nat
  /-- Whether the ends belong to the interval. -/
  closed : Bool

/-- The interval of the value `m · 2 ^ e` of 53 bits. Its ends are half a step away, and a
quarter of a step below a power of two, where the steps get smaller; they round to the value
when its significand is even. -/
def Interval.ofBinary (m : Nat) (e : Int) : Interval :=
  let unit := Nat.pow 2 (e - 2).toNat
  let narrow := m = Nat.pow 2 52 && -1074 < e
  { low := (4 * m - if narrow then 1 else 2) * unit
    value := 4 * m * unit
    high := (4 * m + 2) * unit
    denominator := Nat.pow 2 (2 - e).toNat
    closed := m % 2 = 0 }

/-- Whether `d · 10 ^ k` lies in the interval. -/
def Interval.contains (i : Interval) (d : Nat) (k : Int) : Bool :=
  let x := d * Nat.pow 10 k.toNat * i.denominator
  let scale := Nat.pow 10 (-k).toNat
  if i.closed then i.low * scale ≤ x && x ≤ i.high * scale
  else i.low * scale < x && x < i.high * scale

/-- The number of digits before the point, less the zeros after it: the least `p` with
`value < 10 ^ p`. -/
def Interval.magnitude (i : Interval) : Int :=
  if i.denominator ≤ i.value then (Nat.toDigits 10 (i.value / i.denominator)).length
  else 1 - (Nat.toDigits 10 ((i.denominator - 1) / i.value)).length

/-- The multiple of `10 ^ k` in the interval that is nearest to the value, if there is one. -/
def Interval.nearest? (i : Interval) (tie : Tie) (k : Int) : Option Nat :=
  let step := Nat.pow 10 k.toNat * i.denominator
  let value := i.value * Nat.pow 10 (-k).toNat
  let below := value / step
  let rest := value % step
  match i.contains below k, i.contains (below + 1) k with
  | false, false => none
  | true, false => some below
  | false, true => some (below + 1)
  | true, true =>
    if 2 * rest < step then some below
    else if step < 2 * rest then some (below + 1)
    else match tie with
      | .up => some (below + 1)
      | .even => some (if below % 2 = 0 then below else below + 1)

/-- Tries the multiples of `10 ^ k`, then of smaller powers of ten, at most `more` of them. -/
def Interval.search (i : Interval) (tie : Tie) : Nat → Int → Decimal
  | 0, k => ⟨i.value * Nat.pow 10 (-k).toNat / (Nat.pow 10 k.toNat * i.denominator), k⟩
  | more + 1, k =>
    match i.nearest? tie k with
    | some d => ⟨d, k⟩
    | none => i.search tie more (k - 1)

/-- Drops trailing zeros, at most `more` of them. -/
def trim : Nat → Decimal → Decimal
  | 0, d => d
  | more + 1, d => if d.digits % 10 = 0 then trim more ⟨d.digits / 10, d.exponent + 1⟩ else d

/-- The decimal of fewest digits that rounds to `m · 2 ^ e`, and the nearest of those. Seventeen
digits always suffice. -/
def shortest (tie : Tie) (m : Nat) (e : Int) : Decimal :=
  let i := Interval.ofBinary m e
  trim 17 (i.search tie 17 (i.magnitude - 1))

end Decimal

end Metering
