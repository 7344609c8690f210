import Metering.Decimal.Layout

/-!
# Durations and points in time

Both are counted in nanoseconds. A duration has fewer than `2 ^ 64` whole seconds; a number of
seconds beyond that has no duration.
-/

namespace Metering

/-- A length of time. -/
structure Duration where
  nanoseconds : Nat
deriving DecidableEq, Repr, Inhabited

/-- A point in time, by its distance from the epoch. -/
structure Timestamp where
  nanoseconds : Int
deriving DecidableEq, Repr, Inhabited

namespace Duration

/-- The nanoseconds of a second. -/
def second : Nat := 1000000000

/-- A duration of whole seconds. -/
def ofSeconds (n : Nat) : Duration := ⟨n * second⟩

/-- The number of seconds that no duration reaches. -/
def secondsLimit : Nat := UInt64.size

/-- The duration of a number of nanoseconds, unless it is too long. -/
def ofNanoseconds? (n : Nat) : Option Duration :=
  if n < secondsLimit * second then some ⟨n⟩ else none

/-- The duration of whole seconds and nanoseconds, unless it is too long. -/
def ofParts? (seconds nanoseconds : Nat) : Option Duration :=
  ofNanoseconds? (seconds * second + nanoseconds)

/-- The whole seconds. -/
def seconds (d : Duration) : Nat := d.nanoseconds / second

/-- The nanoseconds after the last whole second. -/
def subsecond (d : Duration) : Nat := d.nanoseconds % second

/-- Whether the duration is empty. -/
def isZero (d : Duration) : Bool := d.nanoseconds = 0

/-- The duration of a number of seconds, to the nearest nanosecond and on a tie to the even one.
There is none for negative numbers, for what is not finite and for too many seconds. -/
def ofSeconds? (x : Float) : Option Duration :=
  match x.toModel.unpack with
  | .zero _ => some ⟨0⟩
  | .finite .positive m e _ =>
    ofNanoseconds?
      (Decimal.roundHalfEven (m * second * Nat.pow 2 e.toNat) (Nat.pow 2 (-e).toNat))
  | _ => none

/-- A number of `unit`s with the fraction `part / 10 ^ places`, trailing zeros dropped. -/
def withFraction (whole part places : Nat) (unit : String) : String :=
  let ds := Nat.toDigits 10 part
  let padded := List.replicate (places - ds.length) '0' ++ ds
  let kept := (padded.reverse.dropWhile (· = '0')).reverse
  if kept.isEmpty then s!"{whole}{unit}" else s!"{whole}.{String.ofList kept}{unit}"

/-- The duration in the largest unit of which it has a whole one. -/
def diagnostic (d : Duration) : String :=
  let n := d.nanoseconds
  if second ≤ n then withFraction (n / second) (n % second) 9 "s"
  else if 1000000 ≤ n then withFraction (n / 1000000) (n % 1000000) 6 "ms"
  else if 1000 ≤ n then withFraction (n / 1000) (n % 1000) 3 "µs"
  else s!"{n}ns"

end Duration

namespace Timestamp

/-- The epoch itself. -/
def epoch : Timestamp := ⟨0⟩

/-- The later of two points in time. -/
def latest (a b : Timestamp) : Timestamp := if a.nanoseconds < b.nanoseconds then b else a

/-- The whole seconds since the epoch, rounded down. -/
def seconds (t : Timestamp) : Int := t.nanoseconds.fdiv Duration.second

/-- The nanoseconds after the last whole second. -/
def subsecond (t : Timestamp) : Int := t.nanoseconds.fmod Duration.second

/-- Whether the time is before the epoch. -/
def isBeforeEpoch (t : Timestamp) : Bool := t.nanoseconds < 0

/-- The whole milliseconds since the epoch; none before it. -/
def milliseconds (t : Timestamp) : Nat := t.nanoseconds.toNat / 1000000

end Timestamp

end Metering
