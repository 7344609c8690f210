import Metering.Error
import Metering.Keyed.Basic

/-!
# Sketches

A sketch estimates quantiles up to a relative error. With `gamma = (1 + a) / (1 - a)` for the
accuracy `a`, a positive value `v` is counted in the bucket `⌈ln v / ln gamma⌉`, negative values in
a second store by their magnitude, and values too close to zero together.
-/

namespace Metering

/-- Counts of values in buckets whose width grows with their magnitude. -/
structure Sketch where
  accuracy : Float
  /-- The number of positive values in each bucket that has some. -/
  positive : Keyed Int Nat
  /-- The number of negative values in each bucket that has some. -/
  negative : Keyed Int Nat
  /-- The number of values too close to zero to have a bucket. -/
  zeros : Nat
  sum : Number
  count : Nat
  least : Number
  greatest : Number
deriving DecidableEq, Inhabited

namespace Sketch

/-- Magnitudes up to this one count as zero. -/
def leastMagnitude : Float := 1e-9

/-- The ratio of the bounds of a bucket, for an accuracy. -/
def ratio (accuracy : Float) : Float := (1.0 + accuracy) / (1.0 - accuracy)

/-- The sketch of no values. -/
def empty (accuracy : Float) (kind : NumberKind) : Sketch :=
  { accuracy
    positive := ∅
    negative := ∅
    zeros := 0
    sum := Number.zero kind
    count := 0
    least := Number.greatest kind
    greatest := Number.least kind }

/-- The ratio of the bounds of a bucket. -/
def gamma (s : Sketch) : Float := ratio s.accuracy

/-- The natural logarithm of `gamma`. -/
def gammaLog (s : Sketch) : Float := s.gamma.log

/-- The bucket of a magnitude, kept to the range of 32 bits. -/
def key (s : Sketch) (magnitude : Float) : Int :=
  Binary64.ceilBetween Int32.minValue.toInt Int32.maxValue.toInt (magnitude.log / s.gammaLog)

/-- The magnitude that stands for a bucket. -/
def bucketValue (s : Sketch) (key : Int) : Float :=
  2.0 * Binary64.pow s.gamma key / (s.gamma + 1.0)

/-- Adds `n` to the count of a bucket. -/
def addCount (n : Nat) (count : Option Nat) : Nat := count.getD 0 + n

/-- The sketch with one more value. What is not finite is left out. -/
def update (s : Sketch) (value : Number) : Sketch :=
  let x := value.toFloat
  if !x.isFinite then s
  else
    let counted :=
      if leastMagnitude < x then { s with positive := s.positive.upsert (s.key x) (addCount 1) }
      else if x < -leastMagnitude then
        { s with negative := s.negative.upsert (s.key (-x)) (addCount 1) }
      else { s with zeros := s.zeros + 1 }
    { counted with
      sum := s.sum.add value
      count := s.count + 1
      least := s.least.min value
      greatest := s.greatest.max value }

/-- Adds the counts of one store to another. -/
def mergeStores (store other : Keyed Int Nat) : Keyed Int Nat :=
  other.toList.foldl (fun store e => store.upsert e.1 (addCount e.2)) store

/-- The distance from one to the next float. -/
def epsilon : Float := 2.220446049250313e-16

/-- The sketch of the values of both, if their accuracies are equal. -/
def merge (s other : Sketch) : Except Difference Sketch :=
  if epsilon < (s.accuracy - other.accuracy).abs then .error (.accuracy s.accuracy other.accuracy)
  else
    .ok { s with
      positive := mergeStores s.positive other.positive
      negative := mergeStores s.negative other.negative
      zeros := s.zeros + other.zeros
      sum := s.sum.add other.sum
      count := s.count + other.count
      least := s.least.min other.least
      greatest := s.greatest.max other.greatest }

/-- The empty sketch with the same accuracy and kind of number. -/
def reset (s : Sketch) : Sketch := empty s.accuracy s.sum.kind

/-- The buckets with what stands for each and their counts, in ascending order of the values. -/
def buckets (s : Sketch) : List (Float × Nat) :=
  (s.negative.toList.reverse.map fun e => (-s.bucketValue e.1, e.2))
    ++ (0.0, s.zeros) :: s.positive.toList.map fun e => (s.bucketValue e.1, e.2)

/-- The first value whose counts, added up from `seen`, exceed `rank`. -/
def valueOfRank (rank : Nat) : Nat → List (Float × Nat) → Option Float
  | _, [] => none
  | seen, (x, n) :: rest => if rank < seen + n then some x else valueOfRank rank (seen + n) rest

/-- The rank of the `q`-quantile of `count` values, from zero. -/
def rankOf (count : Nat) (q : Float) : Nat :=
  Binary64.toCount (q * Binary64.ofCount (count - 1))

/-- The estimate of the `q`-quantile, for `q` between zero and one. It lies between the bounds;
there is none while the sketch is empty or its bounds are out of order. -/
def quantile (s : Sketch) (q : Float) : Option Float :=
  if s.count = 0 || !(0.0 ≤ q && q ≤ 1.0) then none
  else
    let low := s.least.toFloat
    let high := s.greatest.toFloat
    if low.isNaN || high.isNaN || high < low then none
    else
      match valueOfRank (rankOf s.count q) 0 s.buckets with
      | some x => some (Binary64.clamp low high x)
      | none => some high

/-- Whether two sketches agree number by number. -/
def agrees (s other : Sketch) : Bool :=
  s.accuracy == other.accuracy && s.gamma == other.gamma && s.gammaLog == other.gammaLog
    && s.positive.entries == other.positive.entries && s.negative.entries == other.negative.entries
    && s.zeros == other.zeros && s.sum.agrees other.sum && s.count == other.count
    && s.least.agrees other.least && s.greatest.agrees other.greatest

/-- A store in JSON: an object from buckets to counts. -/
def storeJson (store : Keyed Int Nat) : String :=
  Text.Json.object
    (store.toList.map fun e => Text.Json.member (toString e.1) (Text.Json.integer e.2))

/-- The sketch in JSON. -/
def json (s : Sketch) : String :=
  Text.Json.object
    [Text.Json.member "relative_accuracy" (Text.Json.float s.accuracy),
      Text.Json.member "positive" (storeJson s.positive),
      Text.Json.member "negative" (storeJson s.negative),
      Text.Json.member "zero_count" (Text.Json.integer s.zeros),
      Text.Json.member "sum" s.sum.json, Text.Json.member "count" (Text.Json.integer s.count),
      Text.Json.member "min" s.least.json, Text.Json.member "max" s.greatest.json]

end Sketch

end Metering
