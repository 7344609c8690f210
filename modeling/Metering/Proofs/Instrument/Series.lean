import Metering.Instrument.Basic
import Metering.Proofs.Keyed

/-!
# What the operations of an instrument do to its series

An instrument is seen through `series.get?`. Adding a value leaves the number of references as it
was, because the reference that is taken for it is given back. A sweep keeps exactly the series with
references: once a series is drained, nothing has been received since.
-/

namespace Metering

/-- A series whose live aggregate has been taken. -/
def Series.drained (s : Series) : Series := { s with aggregator := s.aggregator.drain.2 }

/-- A reference that is taken and given back leaves the series as it is. -/
theorem Series.release_update_retain (s : Series) (value : Number) :
    ((s.retain.update value).release) = s.update value := by
  simp [retain, update, release]

namespace Instrument

variable {i : Instrument} {labels : LabelSet} {l : String} {s : Series}

/-- The series of some labels, which is a new one if there is none. -/
def seriesFor (i : Instrument) (labels : LabelSet) : Series :=
  (i.series.get? labels.canonical).getD (i.newSeries labels)

theorem seriesFor_of_some (found : i.series.get? labels.canonical = some s) :
    i.seriesFor labels = s := by
  rw [seriesFor, found]
  rfl

theorem seriesFor_of_none (absent : i.series.get? labels.canonical = none) :
    i.seriesFor labels = i.newSeries labels := by
  rw [seriesFor, absent]
  rfl

/-! ## Binding -/

theorem get?_bind_self (i : Instrument) (labels : LabelSet) :
    (i.bind labels).series.get? labels.canonical = some (i.seriesFor labels).retain :=
  Keyed.get?_upsert_self ..

theorem get?_bind_of_ne (i : Instrument) (labels : LabelSet) (other : labels.canonical ≠ l) :
    (i.bind labels).series.get? l = i.series.get? l :=
  Keyed.get?_upsert_of_ne _ _ other

theorem bornOf_bind (i : Instrument) (labels : LabelSet) :
    (i.bind labels).bornOf labels = (i.seriesFor labels).born := by
  rw [bornOf, get?_bind_self]
  rfl

/-! ## Adding a value -/

@[simp] theorem descriptor_recordChecked (i : Instrument) (value : Number) (labels : LabelSet) :
    (i.recordChecked value labels).descriptor = i.descriptor := by
  unfold recordChecked
  split <;> rfl

@[simp] theorem aggregation_recordChecked (i : Instrument) (value : Number) (labels : LabelSet) :
    (i.recordChecked value labels).aggregation = i.aggregation := by
  unfold recordChecked
  split <;> rfl

@[simp] theorem sweeps_recordChecked (i : Instrument) (value : Number) (labels : LabelSet) :
    (i.recordChecked value labels).sweeps = i.sweeps := by
  unfold recordChecked
  split <;> rfl

@[simp] theorem callback_recordChecked (i : Instrument) (value : Number) (labels : LabelSet) :
    (i.recordChecked value labels).callback = i.callback := by
  unfold recordChecked
  split <;> rfl

theorem recordChecked_of_disabled (disabled : i.descriptor.enabled = false) (value : Number)
    (labels : LabelSet) : i.recordChecked value labels = i := by
  rw [recordChecked, disabled]
  rfl

theorem get?_recordChecked_self (enabled : i.descriptor.enabled = true) (value : Number)
    (labels : LabelSet) :
    (i.recordChecked value labels).series.get? labels.canonical =
      some ((i.seriesFor labels).update (i.descriptor.number value)) := by
  rw [recordChecked, if_pos enabled]
  simp only [modifySeries, Keyed.get?_modify_self, get?_bind_self, Option.map_some,
    Series.release_update_retain]

theorem get?_recordChecked_of_ne (i : Instrument) (value : Number)
    (other : labels.canonical ≠ l) :
    (i.recordChecked value labels).series.get? l = i.series.get? l := by
  unfold recordChecked
  split
  · simp only [modifySeries, Keyed.get?_modify_of_ne _ _ other, get?_bind_of_ne i labels other]
  · rfl

/-! ## Changing the series of a handle -/

theorem seriesOf?_eq_some_iff {h : Handle} :
    i.seriesOf? h = some s ↔ i.series.get? h.labels = some s ∧ s.born = h.born := by
  rw [seriesOf?, Option.filter_eq_some_iff]
  simp

theorem get?_modifyHeld_self {h : Handle} (found : i.seriesOf? h = some s) (f : Series → Series) :
    (i.modifyHeld h f).series.get? h.labels = some (f s) := by
  obtain ⟨present, born⟩ := seriesOf?_eq_some_iff.1 found
  rw [modifyHeld, modifySeries, Keyed.get?_modify_self, present, Option.map_some, if_pos born]

theorem get?_modifyHeld_of_ne {h : Handle} (i : Instrument) (f : Series → Series)
    (other : h.labels ≠ l) : (i.modifyHeld h f).series.get? l = i.series.get? l := by
  rw [modifyHeld, modifySeries, Keyed.get?_modify_of_ne _ _ other]

theorem series_modifyHeld_of_none {h : Handle} (absent : i.seriesOf? h = none)
    (f : Series → Series) : (i.modifyHeld h f).series = i.series := by
  refine Keyed.ext_get? fun l => ?_
  by_cases at_ : h.labels = l
  · subst at_
    rw [modifyHeld, modifySeries, Keyed.get?_modify_self]
    cases found : i.series.get? h.labels with
    | none => rfl
    | some s =>
      have other : s.born ≠ h.born := fun born => by
        rw [seriesOf?_eq_some_iff.2 ⟨found, born⟩] at absent
        cases absent
      rw [Option.map_some, if_neg other]
  · exact get?_modifyHeld_of_ne i f at_

/-- Adds a value that has been checked to the series of a handle. A disabled instrument records
nothing. -/
def addHeld (i : Instrument) (h : Handle) (value : Number) : Instrument :=
  if i.descriptor.enabled then i.modifyHeld h fun s => s.update (i.descriptor.number value) else i

/-! ## Sweeps -/

/-- A drained series has received nothing since, so only its references keep it. -/
theorem isKept_drained (s : Series) : s.drained.isKept = decide (0 < s.refs) := by
  exact Bool.or_false _

theorem get?_sweep (i : Instrument) (time : Timestamp) (l : String) :
    (i.sweep time).2.series.get? l =
      ((i.series.get? l).filter fun s => 0 < s.refs).map Series.drained := by
  have swept : (i.sweep time).2.series =
      (i.series.map Series.drained).filter fun _ s => s.isKept := rfl
  rw [swept, Keyed.get?_filter, Keyed.get?_map]
  cases i.series.get? l with
  | none => rfl
  | some s =>
    simp only [Option.map_some, Option.filter_some, isKept_drained]
    split <;> rfl

theorem mem_records_sweep_iff (i : Instrument) (time : Timestamp) (r : Record) :
    r ∈ (i.sweep time).1 ↔ ∃ l s, i.series.get? l = some s ∧ r = i.recordOf time s := by
  simp only [sweep, List.mem_map, Keyed.mem_values_iff]
  constructor
  · rintro ⟨s, ⟨l, found⟩, rfl⟩
    exact ⟨l, s, found, rfl⟩
  · rintro ⟨l, s, found, rfl⟩
    exact ⟨s, ⟨l, found⟩, rfl⟩

end Instrument

end Metering
