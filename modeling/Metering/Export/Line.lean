import Metering.Record

/-!
# Records as lines

A record is written as one line of text for people, or as one JSON object. The text leaves out the
trailing commas of the canonical labels. A time before the epoch has no JSON; what precedes it in
the object is written all the same.
-/

namespace Metering

/-- The parts of a summary, `least` and `greatest` first, for a summary that is not empty. -/
def MinMaxSumCount.text (m : MinMaxSumCount) : String :=
  if m.isEmpty then "count=0"
  else s!"min={m.least.text} max={m.greatest.text} sum={m.sum.text} count={m.count}"

/-- The sum, the number of values and each bucket by the boundary above it. -/
def Histogram.text (h : Histogram) : String :=
  let bounds := h.boundaries.map (fun b => "<" ++ Decimal.plain.write b) ++ ["+inf"]
  let buckets := List.zipWith (fun bound (n : Nat) => s!"{bound}:{n}") bounds h.counts
  s!"sum={h.sum.text} count={h.count} [" ++ " ".intercalate buckets ++ "]"

/-- The sum, the number of values, the median and the 99th percentile to three places. -/
def Sketch.text (s : Sketch) : String :=
  match s.quantile 0.5 with
  | none => "count=0"
  | some median =>
    let high := (s.quantile 0.99).getD median
    s!"sum={s.sum.text} count={s.count} p50={Decimal.fixed 3 median} p99={Decimal.fixed 3 high}"

/-- The aggregate as it stands in a line of text. -/
def Aggregate.text : Aggregate → String
  | sum total => total.text
  | minMaxSumCount m => m.text
  | histogram h => h.text
  | sketch s => s.text

namespace Record

/-- A text without the commas at its end. -/
def withoutTrailingCommas (s : String) : String :=
  String.ofList ((s.toList.reverse.dropWhile (· = ',')).reverse)

/-- The name of the instrument with the labels in braces. -/
def series (r : Record) : String :=
  r.name ++ "\x7b" ++ withoutTrailingCommas r.labels ++ "\x7d"

/-- The record as a line of text, with the time in milliseconds. -/
def line (r : Record) : String :=
  r.series ++ s!" {r.value.kind.name} {r.value.text} @ {r.timestamp.milliseconds}"

/-- The members of a record in JSON up to its time. -/
def membersBeforeTime (r : Record) : List String :=
  let words (key value : String) := Text.Json.member key (Text.Json.text value)
  [words "name" r.name, words "description" r.descriptor.description,
    words "unit" r.descriptor.unit, words "kind" r.descriptor.kind.name,
    words "number_kind" r.descriptor.numberKind.name,
    Text.Json.member "enabled" (if r.descriptor.enabled then "true" else "false"),
    words "labels" r.labels, words "aggregator" r.value.kind.name,
    Text.Json.member "value" r.value.json]

/-- A time in JSON. -/
def timeJson (t : Timestamp) : String :=
  Text.Json.object
    [Text.Json.member "secs_since_epoch" (Text.Json.integer t.seconds),
      Text.Json.member "nanos_since_epoch" (Text.Json.integer t.subsecond)]

/-- The text of a record in JSON up to the value of its time. -/
def jsonBeforeTime (r : Record) : String :=
  "\x7b" ++ ",".intercalate (r.membersBeforeTime ++ [Text.Json.text "timestamp" ++ ":"])

/-- The record as a JSON object. -/
def json (r : Record) : Except ExportFault String :=
  if r.timestamp.isBeforeEpoch then .error .beforeEpoch
  else .ok (r.jsonBeforeTime ++ timeJson r.timestamp ++ "\x7d")

end Record

end Metering
