import Metering.Error

/-!
# Histograms

A histogram counts the values between ascending boundaries. A value belongs to the bucket of the
first boundary above it, and to one more bucket after the last boundary if there is none. The
bucket is found by halving the list of boundaries, so on boundaries that do not ascend the search
still ends in some bucket.
-/

namespace Metering

/-- Counts of values between boundaries, with their sum and number. -/
structure Histogram where
  boundaries : List Float
  /-- The number of values in each bucket, one bucket more than there are boundaries. -/
  counts : List Nat
  sum : Number
  count : Nat
deriving DecidableEq, Inhabited

namespace Histogram

/-- The histogram of no values. -/
def empty (boundaries : List Float) (kind : NumberKind) : Histogram :=
  { boundaries
    counts := List.replicate (boundaries.length + 1) 0
    sum := Number.zero kind
    count := 0 }

/-- Whether there is a boundary at `i` and it is at most `x`. -/
def reaches (boundaries : List Float) (x : Float) (i : Nat) : Bool :=
  match boundaries[i]? with
  | some b => b ≤ x
  | none => false

/-- The bucket of `x` among the `size` boundaries from `base` on, by halving. -/
def search (boundaries : List Float) (x : Float) (base size : Nat) : Nat :=
  if size ≤ 1 then if reaches boundaries x base then base + 1 else base
  else
    let half := size / 2
    if reaches boundaries x (base + half) then search boundaries x (base + half) (size - half)
    else search boundaries x base (size - half)
termination_by size
decreasing_by all_goals omega

/-- The bucket to which `x` belongs. -/
def bucketIndex (h : Histogram) (x : Float) : Nat := search h.boundaries x 0 h.boundaries.length

/-- The histogram with one more value. -/
def update (h : Histogram) (value : Number) : Histogram :=
  { h with
    counts := h.counts.modify (h.bucketIndex value.toFloat) (· + 1)
    sum := h.sum.add value
    count := h.count + 1 }

/-- Whether two lists of floats are equal place by place. -/
def sameFloats : List Float → List Float → Bool
  | [], [] => true
  | a :: as, b :: bs => a == b && sameFloats as bs
  | _, _ => false

/-- The histogram of the values of both, if their boundaries are equal. -/
def merge (h other : Histogram) : Except Difference Histogram :=
  if sameFloats h.boundaries other.boundaries then
    .ok { h with
      counts := List.zipWith (· + ·) h.counts other.counts
      sum := h.sum.add other.sum
      count := h.count + other.count }
  else .error (.boundaries h.boundaries other.boundaries)

/-- The empty histogram with the same boundaries and kind of number. -/
def reset (h : Histogram) : Histogram :=
  { h with counts := h.counts.map fun _ => 0, sum := Number.zero h.sum.kind, count := 0 }

/-- The first bucket at which the counts, added up from `seen`, reach `target`. -/
def bucketOfRank (target : Nat) : Nat → List Nat → Option Nat
  | _, [] => none
  | seen, n :: rest =>
    if target ≤ seen + n then some 0 else (bucketOfRank target (seen + n) rest).map (· + 1)

/-- The rank of the value that stands for the fraction `p` of `count` values, at least one. -/
def rankOf (count : Nat) (p : Float) : Nat :=
  max 1 (Binary64.ceilBetween 0 (UInt64.size - 1) (Binary64.ofCount count * p)).toNat

/-- The boundary above the bucket in which the fraction `p` of the values is reached; the last
boundary if there is none above it. Nothing is known of an empty histogram or without
boundaries. -/
def percentile (h : Histogram) (p : Float) : Option Float :=
  if h.count = 0 then none
  else
    match bucketOfRank (rankOf h.count p) 0 h.counts with
    | some i => (h.boundaries[i]?).or h.boundaries.getLast?
    | none => h.boundaries.getLast?

/-- Whether two histograms agree number by number. -/
def agrees (h other : Histogram) : Bool :=
  sameFloats h.boundaries other.boundaries && h.counts == other.counts && h.sum.agrees other.sum
    && h.count == other.count

/-- The histogram in JSON. -/
def json (h : Histogram) : String :=
  Text.Json.object
    [Text.Json.member "boundaries" (Text.Json.array (h.boundaries.map Text.Json.float)),
      Text.Json.member "counts"
        (Text.Json.array (h.counts.map fun (n : Nat) => Text.Json.integer n)),
      Text.Json.member "sum" h.sum.json, Text.Json.member "count" (Text.Json.integer h.count)]

end Histogram

end Metering
