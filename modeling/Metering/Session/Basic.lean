import Metering.Diagnostic
import Metering.Session.Operation

/-!
# Sessions

A session is a program that uses one provider and performs one operation after another. An
operation that fails answers its error, and the session goes on.
-/

namespace Metering

/-- The state of a session. -/
structure Session where
  provider : Provider
  handles : Keyed String Handle
  kept : Keyed String (List Record)
  processors : Keyed String Processor
  controllers : Keyed String (Controller MemoryExporter)

namespace Session

/-- A session that has done nothing. -/
def empty : Session := ⟨.empty, ∅, ∅, ∅, ∅⟩

/-- Names a handle. A handle that had the name before is released. -/
def setHandle (s : Session) (name : String) (h : Handle) : Session :=
  let provider := match s.handles.get? name with
    | some old => s.provider.release old
    | none => s.provider
  { s with provider, handles := s.handles.insert name h }

/-- The number of references to the series of a handle. -/
def references (s : Session) (h : Handle) : Nat := ((s.provider.seriesOf? h).map Series.refs).getD 0

/-- The measurements that are given by tags. -/
def measurements? (s : Session) (ms : List (String × Number)) : Option (List Measurement) :=
  ms.mapM fun m => (s.provider.tags.get? m.1).map fun id => ⟨id, m.2⟩

/-- Does something with a handle and its series, if there is one. -/
def withHeld (s : Session) (name : String) (f : Handle → Series → Answer × Session) :
    Answer × Session :=
  match (s.handles.get? name).bind fun h => (s.provider.seriesOf? h).map fun series => (h, series) with
  | some (h, series) => f h series
  | none => (.unknown name, s)

/-- Changes the aggregator of a handle's series. -/
def setAggregator (s : Session) (h : Handle) (a : Aggregator) : Session :=
  { s with provider := s.provider.modifyHeld h fun series => { series with aggregator := a } }

/-- Does something with an instrument, if there is one. -/
def withTagged (s : Session) (tag : String) (f : InstrumentId → Instrument → Answer × Session) :
    Answer × Session :=
  match s.provider.tagged? tag with
  | some (id, i) => f id i
  | none => (.unknown tag, s)

/-- Does something with a controller, if there is one, and puts it back. -/
def withController (s : Session) (name : String)
    (f : Controller MemoryExporter → Answer × Controller MemoryExporter × Provider) :
    Answer × Session :=
  match s.controllers.get? name with
  | some c =>
    let (answer, c, provider) := f c
    (answer, { s with provider, controllers := s.controllers.insert name c })
  | none => (.unknown name, s)

/-- Hands records to a processor one by one. -/
def processEach (p : Processor) : List Record → List (Except Error Unit) × Processor
  | [] => ([], p)
  | r :: rest =>
    let (result, p) := p.process r
    let (more, p) := processEach p rest
    (result :: more, p)

/-- Performs one operation. -/
def perform (clock : Nat → Timestamp) (s : Session) : Operation → Answer × Session
  | .create tag meter d choice script =>
    let (result, provider) := s.provider.create tag meter d choice script
    (.descriptor result, { s with provider })
  | .update tag value labels =>
    s.withTagged tag fun id _ =>
      let (result, provider) := s.provider.record ⟨id, value, labels⟩
      (.result result, { s with provider })
  | .copy tag second =>
    s.withTagged tag fun id _ =>
      (.result (.ok ()), { s with provider := s.provider.setTag second id })
  | .describe tag => s.withTagged tag fun _ i => (.descriptor (.ok i.descriptor), s)
  | .series tag => s.withTagged tag fun _ i => (.series i.series.toList, s)
  | .names meter =>
    let provider := s.provider.use meter
    (.names meter (provider.meter meter).names, { s with provider })
  | .meters => (.meters s.provider.meters.keys, s)
  | .batch meter labels ms =>
    match s.measurements? ms with
    | some ms =>
      let (result, provider) := (s.provider.use meter).recordBatch meter labels ms
      (.result result, { s with provider })
    | none => (.unknown meter, s)
  | .measure tag value =>
    s.withTagged tag fun id i =>
      let value := i.descriptor.number value
      (.measurement id.name value (Diagnostic.measurement ⟨id, value⟩), s)
  | .debugInstrument tag => s.withTagged tag fun _ i => (.text (Diagnostic.instrument i.descriptor), s)
  | .debugMeter meter =>
    let provider := s.provider.use meter
    (.text (Diagnostic.meter meter (provider.meter meter)), { s with provider })
  | .collect meter keep =>
    let (records, provider) := s.provider.collect clock meter
    let kept := match keep with
      | some name => s.kept.insert name records
      | none => s.kept
    (.records records, { s with provider, kept })
  | .bind tag labels name =>
    s.withTagged tag fun id _ =>
      let (h, provider) := s.provider.bind id labels
      let s := { s with provider }
      (.references (s.references h), s.setHandle name h)
  | .clone name second =>
    s.withHeld name fun h _ =>
      let s := { s with provider := s.provider.retain h }
      (.references (s.references h), s.setHandle second h)
  | .release name =>
    s.withHeld name fun h _ =>
      (.result (.ok ()),
        { s with provider := s.provider.release h, handles := s.handles.erase name })
  | .boundUpdate name value =>
    s.withHeld name fun h _ =>
      let (result, provider) := s.provider.recordHeld h value
      (.result result, { s with provider })
  | .boundRaw name value =>
    s.withHeld name fun h series =>
      let a := series.aggregator.update value
      (.aggregator a, s.setAggregator h a)
  | .boundMerge name value =>
    s.withHeld name fun h series =>
      match series.aggregator.mergeValue value with
      | .ok a => (.result (.ok ()), s.setAggregator h a)
      | .error e => (.result (.error e), s)
  | .boundCheckpoint name =>
    s.withHeld name fun h series =>
      let a := series.aggregator.checkpoint
      (.aggregator a, s.setAggregator h a)
  | .boundDrain name =>
    s.withHeld name fun h series =>
      let (drained, a) := series.aggregator.drain
      (.aggregate drained, s.setAggregator h a)
  | .bound name => s.withHeld name fun h series => (.bound h.labels series, s)
  | .processor name mode =>
    (.result (.ok ()), { s with processors := s.processors.insert name (.empty mode) })
  | .process name records =>
    match s.processors.get? name, s.kept.get? records with
    | some p, some rs =>
      let (results, p) := processEach p rs
      (.processed results p.series.size, { s with processors := s.processors.insert name p })
    | _, _ => (.unknown name, s)
  | .checkpoint name =>
    match s.processors.get? name with
    | some p =>
      let (records, p) := p.checkpoint
      (.records records, { s with processors := s.processors.insert name p })
    | none => (.unknown name, s)
  | .finish name =>
    match s.processors.get? name with
    | some p =>
      (.tracked p.finish.series.size, { s with processors := s.processors.insert name p.finish })
    | none => (.unknown name, s)
  | .controller name meter mode schedule =>
    let provider := s.provider.use meter
    match Controller.make meter mode MemoryExporter.empty schedule with
    | .ok c =>
      let provider := match s.controllers.get? name with
        | some old => (old.drop clock provider).2
        | none => provider
      (.controller (.ok c), { s with provider, controllers := s.controllers.insert name c })
    | .error e => (.controller (.error e), { s with provider })
  | .tick name =>
    s.withController name fun c =>
      let (t, after) := c.tick clock s.provider
      (.exported t.batch.length, after)
  | .start name =>
    s.withController name fun c =>
      let (started, c) := c.start
      (.flag started, c, s.provider)
  | .stop name =>
    s.withController name fun c =>
      let (stopped, after) := c.stop clock s.provider
      (.flag stopped, after)
  | .drop name => s.withController name fun c => (.result (.ok ()), c.drop clock s.provider)
  | .active name => s.withController name fun c => (.flag c.isActive, c, s.provider)
  | .failing name fail =>
    s.withController name fun c =>
      (.result (.ok ()), { c with exporter := { c.exporter with failing := fail } }, s.provider)
  | .clear name =>
    s.withController name fun c =>
      (.result (.ok ()), { c with exporter := c.exporter.clear }, s.provider)
  | .batches name => s.withController name fun c => (.batches c.exporter.batches, c, s.provider)
  | .debugController name =>
    s.withController name fun c => (.text (Diagnostic.controller c), c, s.provider)

/-- Performs operations one after the other. -/
def run (clock : Nat → Timestamp) (s : Session) : List Operation → List Answer × Session
  | [] => ([], s)
  | o :: rest =>
    let (answer, s) := s.perform clock o
    let (more, s) := s.run clock rest
    (answer :: more, s)

end Session

end Metering
