import Metering.Generator
import Metering.Workload.Basic

/-!
# Made-up workloads

Steps with drawn routes and values, the three targets taking turns. The draws come from a generator
that a seed starts, so the same seed gives the same workload.
-/

namespace Metering.Workload

variable [Generator]

/-- The routes under which made-up requests are recorded. -/
def routes : List String := ["/", "/api", "/login", "/static"]

/-- The labels of a route. -/
def routeLabels (route : String) : LabelSet := LabelSet.ofList [("route", route)]

/-- Draws the step with the given place in a made-up workload. -/
def draw (place : Nat) (s : Generator.State) : Step × Generator.State :=
  let (route, s) := Generator.integer 0 routes.length s
  let labels := routeLabels (routes.getD route.toNat "/")
  match place % 3 with
  | 0 =>
    let (n, s) := Generator.integer 0 10 s
    (⟨.counter, Float.ofInt n, labels⟩, s)
  | 1 =>
    let (n, s) := Generator.integer (-5) 6 s
    (⟨.upDownCounter, Float.ofInt n, labels⟩, s)
  | _ =>
    let (x, s) := Generator.float 0.5 250.0 s
    (⟨.valueRecorder, x, labels⟩, s)

/-- Draws steps, of which the first has the given place. -/
def drawFrom (place : Nat) (s : Generator.State) : Nat → List Step
  | 0 => []
  | more + 1 =>
    let (step, s) := draw place s
    step :: drawFrom (place + 1) s more

/-- A made-up workload of `count` steps. -/
def synthetic (seed : UInt64) (count : Nat) : List Step :=
  drawFrom 0 (Generator.ofSeed seed) count

/-- Whether a step is one that can be drawn: its value is in range and its only label is a
route. -/
def Step.isDrawable (s : Step) : Bool :=
  let inRange := match s.target with
    | .counter => Binary64.isIntegral s.value && 0.0 ≤ s.value && s.value < 10.0
    | .upDownCounter => Binary64.isIntegral s.value && -5.0 ≤ s.value && s.value ≤ 5.0
    | .valueRecorder => 0.5 ≤ s.value && s.value < 250.0
  inRange && routes.any fun route => s.labels = routeLabels route

end Metering.Workload
