import Metering.Record

/-!
# Records as log events

A log event has the series of a record and a short rendering of its aggregate.
-/

namespace Metering

/-- What is logged of a record. -/
structure LogEvent where
  instrument : String
  kind : String
  labels : String
  aggregator : String
  value : String
deriving DecidableEq, Repr

namespace Aggregate

/-- A short rendering of an aggregate. -/
def summary : Aggregate → String
  | sum total => s!"sum={total.text}"
  | minMaxSumCount m =>
    if m.isEmpty then "count=0"
    else s!"min={m.least.text} max={m.greatest.text} sum={m.sum.text} count={m.count}"
  | histogram h =>
    s!"sum={h.sum.text} count={h.count} buckets=[" ++ ", ".intercalate (h.counts.map toString) ++ "]"
  | sketch s =>
    match s.quantile 0.5, s.quantile 0.99 with
    | some median, some high =>
      s!"sum={s.sum.text} count={s.count} p50={Decimal.plain.write median} "
        ++ s!"p99={Decimal.plain.write high}"
    | _, _ => "count=0"

end Aggregate

/-- The log event of a record. -/
def Record.event (r : Record) : LogEvent :=
  { instrument := r.name
    kind := r.descriptor.kind.name
    labels := r.labels
    aggregator := r.value.kind.name
    value := r.value.summary }

end Metering
