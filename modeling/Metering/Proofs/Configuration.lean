import Metering.Proofs.Aggregate.Shape
import Metering.Proofs.Lasting
import Metering.Proofs.Provider.Readings

/-!
# Configurations last

A meter makes instruments only of aggregations whose aggregates merge with each other, and nothing
that is done to a series, whether through its instrument or to its aggregator directly, changes how
its aggregates are configured. The records of an instrument are therefore configured as the
instrument is: `Client.Configured` says so of everything that was ever collected.
-/

namespace Metering

/-- Using an aggregator leaves the configuration of what is live. -/
theorem Aggregator.Use.shape {a b : Aggregator} (use : a.Use b) :
    b.live.shape = a.live.shape := by
  cases use with
  | update value =>
    rw [Aggregator.update]
    split
    · exact a.live.shape_update _
    · rfl
  | @merge value _ merged =>
    rw [Aggregator.mergeValue] at merged
    split at merged
    · rename_i live into
      cases merged
      exact (Aggregate.merge_keeps into).1
    · cases merged
  | checkpoint => exact a.live.shape_reset
  | drain => exact a.live.shape_reset

/-- A new aggregator is configured as it was chosen. -/
theorem Aggregator.shape_ofAggregation (aggregation : Aggregation) (kind : NumberKind) :
    (Aggregator.ofAggregation aggregation kind).live.shape = aggregation :=
  Aggregate.shape_empty kind aggregation

/-- Meters refuse aggregations whose aggregates do not merge. -/
theorem Meter.fits_of_check {d : Descriptor} {a : Aggregation} (checked : check d a = .ok ()) :
    a.Fits a := by
  rw [check] at checked
  split at checked
  · cases checked
  · split at checked
    · cases checked
    · exact Aggregation.fits_self checked

namespace Instrument

/-- Aggregates of the instrument merge, and what is live in its series is configured as the
instrument is. -/
structure Configured (i : Instrument) : Prop where
  fits : i.aggregation.Fits i.aggregation
  live : ∀ l, (i.aggregator l).live.shape = i.aggregation

variable {i j : Instrument}

theorem configured_new {d : Descriptor} {a : Aggregation} (checked : Meter.check d a = .ok ())
    (callback : Option Callback) : (Instrument.new d a callback).Configured where
  fits := Meter.fits_of_check checked
  live _ := Aggregator.shape_ofAggregation a d.numberKind

theorem Turn.configured {clock : Nat → Timestamp} {meters : String → Prop} {raw : Prop}
    {id : InstrumentId} {e : Option Event} (turn : i.Turn clock meters raw id j e)
    (configured : i.Configured) : j.Configured := by
  refine ⟨turn.aggregation ▸ configured.fits, fun l => ?_⟩
  rw [turn.aggregation]
  cases turn with
  | kept keeps same => rw [same, configured.live]
  | @used _ l' a _ keeps use aggregator =>
    rw [aggregator]
    split
    · rw [use.shape, configured.live]
    · exact configured.live l
  | accepted l' value _ keeps _ aggregator =>
    rw [aggregator]
    split
    · rw [(Aggregator.Use.update _).shape, configured.live]
    · exact configured.live l
  | swept reading _ _ =>
    rcases i.aggregator_sweep (clock reading) l with drained | new
    · rw [drained, Aggregator.Use.drain.shape, configured.live]
    · rw [new, Aggregator.shape_ofAggregation]

theorem Configured.records (configured : i.Configured) {time : Timestamp} {r : Record}
    (member : r ∈ (i.sweep time).1) : r.value.shape = i.aggregation := by
  obtain ⟨l, s, found, rfl⟩ := (i.mem_records_sweep_iff time r).1 member
  rw [← configured.live l, aggregator_of_some found]
  rfl

end Instrument

namespace Provider

/-- The aggregation of the instrument of a meter with a name. -/
def aggregation? (p : Provider) (meter name : String) : Option Aggregation :=
  (p.instrument? ⟨meter, name⟩).map Instrument.aggregation

theorem Later.aggregation? {meters : String → Prop} {p q : Provider} (later : Later meters p q)
    {meter name : String} {a : Aggregation} (known : p.aggregation? meter name = some a) :
    q.aggregation? meter name = some a := by
  obtain ⟨i, found, rfl⟩ := Option.map_eq_some_iff.1 known
  obtain ⟨j, present, -, aggregation⟩ := later.instruments _ i found
  exact Option.map_eq_some_iff.2 ⟨j, present, aggregation⟩

end Provider

namespace Client

variable {clock : Nat → Timestamp} {meters : String → Prop} {raw : Prop} {c c' : Client}
  {p : Provider} {hs : List Handle}

/-- Instruments are configured as their aggregations say, and so is everything that was collected of
them. -/
structure Configured (c : Client) : Prop where
  linked : c.Linked
  regular : c.Regular
  instruments : ∀ id i, c.provider.instrument? id = some i → i.Configured
  records : ∀ reading id records, .swept reading id records ∈ c.provider.notes id →
    ∀ r ∈ records, ∃ i, c.provider.instrument? id = some i ∧ r.value.shape = i.aggregation

theorem configured_empty : Configured ⟨.empty, []⟩ where
  linked := linked_empty
  regular := regular_empty
  instruments _ _ found := nomatch found
  records _ _ _ swept := nomatch swept

theorem Configured.step (configured : c.Configured) (step : Step clock meters raw c c') :
    c'.Configured where
  linked := configured.linked.step step
  regular := configured.regular.step configured.linked step
  instruments := (configured.linked.move step).instruments
    (fun _ _ _ callback checked _ => Instrument.configured_new checked callback)
    (fun _ _ _ _ turn => turn.configured) configured.instruments
  records := (configured.linked.move step).records
    (fun id i _ found _ member => (configured.instruments id i found).records member)
    (fun _ _ _ _ aggregation shape => shape.trans aggregation.symm) configured.records

theorem Configured.reach (configured : c.Configured) (reach : Reach clock meters raw c c') :
    c'.Configured := by
  induction reach with
  | refl => exact configured
  | tail _ step ih => exact ih.step step

/-- Aggregates of an instrument merge with each other. -/
theorem Configured.fits (configured : c.Configured) (meter : String) :
    ∀ name a, c.provider.aggregation? meter name = some a → a.Fits a := by
  intro name a known
  obtain ⟨i, found, rfl⟩ := Option.map_eq_some_iff.1 known
  exact (configured.instruments _ i found).fits

theorem Configured.collect (configured : Configured ⟨p, hs⟩) (clock : Nat → Timestamp)
    (meter : String) : Configured ⟨(p.collect clock meter).2, hs⟩ := by
  have reach : Reach clock (fun _ => True) True ⟨p, hs⟩ ⟨(p.collect clock meter).2, hs⟩ :=
    reach_of_provider (Provider.reach_collect clock trivial p.within_all)
  exact configured.reach reach

/-- What is collected of a meter is configured as the instruments of the meter are. -/
theorem Configured.collected (configured : Configured ⟨p, hs⟩) (clock : Nat → Timestamp)
    {meter : String} {r : Record} (member : r ∈ (p.collect clock meter).1) :
    (p.collect clock meter).2.aggregation? meter r.name = some r.value.shape := by
  have after := configured.collect clock meter
  obtain ⟨-, events, noted, taken, own⟩ := Provider.takes_collect clock meter p
  rw [← taken] at member
  obtain ⟨id, records, swept, among⟩ := swept_of_mem_recordsAt member
  have here : id.meter = meter := by
    rcases own _ id records swept with ⟨-, here⟩ | later
    · exact here
    · exact absurd later (Nat.lt_irrefl _)
  have noted' : .swept p.readings id records ∈ (p.collect clock meter).2.history := by
    rw [noted]
    exact List.mem_append_left _ swept
  obtain ⟨i, found, shape⟩ := after.records _ id records
    (List.mem_filter.2 ⟨noted', decide_eq_true rfl⟩) r among
  have place : (⟨meter, r.name⟩ : InstrumentId) = id := by
    rw [after.regular.name noted' among, ← here]
  exact Option.map_eq_some_iff.2 ⟨i, place ▸ found, shape.symm⟩

end Client

end Metering
