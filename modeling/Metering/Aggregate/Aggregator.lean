import Metering.Aggregate.Basic

/-!
# Aggregators

An aggregator has a live aggregate, which updates and merges change, and a held one, which only a
checkpoint replaces. Its mark `dirty` says whether the live one has changed since it was last
taken. It keeps to one kind of number.
-/

namespace Metering

/-- A live and a held aggregate. -/
structure Aggregator where
  /-- The kind of number to which updates are converted. -/
  numberKind : NumberKind
  live : Aggregate
  /-- The live aggregate as it was at the last checkpoint. -/
  held : Aggregate
  /-- Whether the live aggregate has changed since it was last taken. -/
  dirty : Bool
deriving DecidableEq, Inhabited

namespace Aggregator

/-- The aggregator that starts from an empty aggregate. -/
def ofEmpty (empty : Aggregate) : Aggregator := ⟨empty.numberKind, empty, empty, false⟩

/-- The aggregator of a choice of aggregation. -/
def ofAggregation (aggregation : Aggregation) (kind : NumberKind) : Aggregator :=
  ofEmpty (Aggregate.empty kind aggregation)

/-- The empty aggregator for aggregates of the shape of `template`. -/
def like (template : Aggregate) : Aggregator := ofEmpty template.reset

/-- The family of the aggregates. -/
def kind (a : Aggregator) : AggregateKind := a.live.kind

/-- Adds a value, converted to the kind of number. What is not finite is left out. -/
def update (a : Aggregator) (value : Number) : Aggregator :=
  if value.isFinite then
    { a with live := a.live.update (value.convert a.numberKind), dirty := true }
  else a

/-- Moves the live aggregate to the held one and starts anew. -/
def checkpoint (a : Aggregator) : Aggregator :=
  { a with live := a.live.reset, held := a.live, dirty := false }

/-- Takes the live aggregate away. -/
def drain (a : Aggregator) : Aggregate × Aggregator :=
  (a.live, { a with live := a.live.reset, dirty := false })

/-- Merges an aggregate into the live one. -/
def mergeValue (a : Aggregator) (value : Aggregate) : Except Error Aggregator :=
  match a.live.merge value with
  | .ok live => .ok { a with live, dirty := true }
  | .error e => .error e

/-- Merges the live aggregate of another aggregator into the live one. -/
def merge (a other : Aggregator) : Except Error Aggregator :=
  if a.kind = other.kind then a.mergeValue other.live
  else .error (.kindMismatch a.kind other.kind)

/-- The aggregator by its family and kind of number, for diagnostics. -/
def diagnostic (a : Aggregator) : String :=
  let number := match a.numberKind with
    | .int64 => "I64"
    | .float64 => "F64"
  "Aggregator \x7b kind: " ++ a.kind.diagnostic ++ ", number_kind: " ++ number ++ ", .. \x7d"

end Aggregator

end Metering
