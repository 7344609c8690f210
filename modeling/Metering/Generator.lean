import Metering.Binary64

/-!
# Drawing numbers

Whoever draws numbers draws them from a generator, which is left open: it has a state, which a seed
starts, and each draw from a range gives a number and the state after it.
-/

namespace Metering

/-- A generator of drawn numbers. A range has its lower bound, and does not have its upper one. -/
class Generator where
  /-- What is kept from one draw to the next. -/
  State : Type
  /-- The state that a seed starts. -/
  ofSeed : UInt64 → State
  /-- Draws an integer of a range. -/
  integer (low high : Int) (s : State) : Int × State
  /-- Draws a float of a range. -/
  float (low high : Float) (s : State) : Float × State

namespace Generator

/-- Draws an integer of a range with the standard library. -/
def standardInteger (low high : Int) (s : StdGen) : Int × StdGen :=
  let (n, s) := randNat s 0 (high - low - 1).toNat
  (low + n, s)

/-- Draws a float of a range with the standard library: one of `2 ^ 52` that are evenly spaced, or
the lower bound where that is rounded out of the range. -/
def standardFloat (low high : Float) (s : StdGen) : Float × StdGen :=
  let (n, s) := randNat s 0 (Nat.pow 2 52 - 1)
  let x := low + (high - low) * (Binary64.ofCount n / Binary64.ofCount (Nat.pow 2 52))
  (if low ≤ x ∧ x < high then x else low, s)

/-- The generator from which the program draws when it is run. -/
instance standard : Generator where
  State := StdGen
  ofSeed seed := mkStdGen seed.toNat
  integer := standardInteger
  float := standardFloat

end Generator

end Metering
