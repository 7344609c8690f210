import Metering.Proofs.Aggregate.Shape
import Metering.Proofs.Instrument.Series

/-!
# What came since the last sweep

An instrument whose series nothing refers to has just the series that were given values since the
last sweep, and each holds the aggregate of its values: `Instrument.Recent`. A sweep takes a record of
each of these series and leaves none.
-/

namespace Metering

/-- Of some values with their labels, those under some canonical labels. -/
def valuesUnder (updates : List (LabelSet × Number)) (l : String) : List Number :=
  (updates.filter fun u => u.1.canonical = l).map Prod.snd

/-- What a sweep takes of the series of some canonical labels that was given some values. -/
def recordOfValues (d : Descriptor) (a : Aggregation) (time : Timestamp) (l : String)
    (values : List Number) : List Record :=
  if values = [] then [] else [⟨d, l, Aggregate.ofValues d.numberKind a values, time⟩]

variable {updates : List (LabelSet × Number)} {labels : LabelSet} {l : String} {v : Number}

theorem valuesUnder_concat_self (updates : List (LabelSet × Number)) (labels : LabelSet)
    (v : Number) : valuesUnder (updates ++ [(labels, v)]) labels.canonical =
      valuesUnder updates labels.canonical ++ [v] := by
  rw [valuesUnder, List.filter_append, List.filter_cons_of_pos (by simp), List.map_append]
  rfl

theorem valuesUnder_concat_of_ne (other : labels.canonical ≠ l) :
    valuesUnder (updates ++ [(labels, v)]) l = valuesUnder updates l := by
  rw [valuesUnder, List.filter_append, List.filter_cons_of_neg (by simpa using other),
    List.filter_nil, List.append_nil, valuesUnder]

/-- A series of some canonical labels to which nothing refers, and which holds some values. -/
structure Series.Holds (s : Series) (d : Descriptor) (a : Aggregation) (l : String)
    (values : List Number) : Prop where
  labels : s.labels.canonical = l
  refs : s.refs = 0
  numberKind : s.aggregator.numberKind = d.numberKind
  live : s.aggregator.live = Aggregate.ofValues d.numberKind a values

/-- A finite value of the kind of the instrument is held after the others. -/
theorem Series.Holds.update {s : Series} {d : Descriptor} {a : Aggregation} {values : List Number}
    (holds : s.Holds d a l values) (kind : v.kind = d.numberKind) (finite : v.isFinite = true) :
    (s.update v).Holds d a l (values ++ [v]) := by
  have same : v.convert s.aggregator.numberKind = v := by
    rw [holds.numberKind, ← kind, Number.convert_kind]
  have updated : s.aggregator.update v =
      { s.aggregator with live := s.aggregator.live.update v, dirty := true } := by
    rw [Aggregator.update, if_pos finite, same]
  refine ⟨holds.labels, holds.refs, ?_, ?_⟩
  · rw [Series.update, updated]
    exact holds.numberKind
  · rw [Series.update, updated, Aggregate.ofValues_concat, ← holds.live]

namespace Instrument

variable {i : Instrument}

theorem holds_newSeries (i : Instrument) (labels : LabelSet) :
    (i.newSeries labels).Holds i.descriptor i.aggregation labels.canonical [] where
  labels := rfl
  refs := rfl
  numberKind := Aggregate.numberKind_empty i.descriptor.numberKind i.aggregation
  live := rfl

/-- The instrument has just the series of some values, and they hold these. -/
def Recent (i : Instrument) (updates : List (LabelSet × Number)) : Prop :=
  ∀ l, (i.series.get? l = none ∧ valuesUnder updates l = []) ∨
    ∃ s, i.series.get? l = some s ∧ valuesUnder updates l ≠ [] ∧
      s.Holds i.descriptor i.aggregation l (valuesUnder updates l)

theorem recent_of_empty (empty : ∀ l, i.series.get? l = none) : i.Recent [] :=
  fun l => .inl ⟨empty l, rfl⟩

/-- A finite value of the kind of the instrument comes to the others of its labels. -/
theorem Recent.recordChecked (recent : i.Recent updates) (enabled : i.descriptor.enabled = true)
    (kind : v.kind = i.descriptor.numberKind) (finite : v.isFinite = true) (labels : LabelSet) :
    (i.recordChecked v labels).Recent (updates ++ [(labels, v)]) := by
  intro l
  rw [descriptor_recordChecked, aggregation_recordChecked]
  by_cases at_ : labels.canonical = l
  · subst at_
    have before : (i.seriesFor labels).Holds i.descriptor i.aggregation labels.canonical
        (valuesUnder updates labels.canonical) := by
      rcases recent labels.canonical with ⟨absent, none_⟩ | ⟨s, found, -, holds⟩
      · rw [seriesFor_of_none absent, none_]
        exact i.holds_newSeries labels
      · rw [seriesFor_of_some found]
        exact holds
    have same : i.descriptor.number v = v := Descriptor.number_eq_self kind
    rw [valuesUnder_concat_self, get?_recordChecked_self enabled, same]
    exact .inr ⟨_, rfl, List.append_ne_nil_of_right_ne_nil _ (List.cons_ne_nil v []),
      before.update kind finite⟩
  · rw [valuesUnder_concat_of_ne at_, get?_recordChecked_of_ne i v at_]
    exact recent l

/-- A sweep leaves no series. -/
theorem Recent.sweep (recent : i.Recent updates) (time : Timestamp) : (i.sweep time).2.Recent [] := by
  refine recent_of_empty fun l => ?_
  rw [get?_sweep]
  rcases recent l with ⟨absent, -⟩ | ⟨s, found, -, holds⟩
  · rw [absent]
    rfl
  · have unused : ¬ decide (0 < s.refs) = true := by rw [holds.refs]; decide
    rw [found, Option.filter_some, if_neg unused, Option.map_none]

/-- A sweep takes of each series what it holds. -/
theorem Recent.records (recent : i.Recent updates) (time : Timestamp) (l : String) :
    (i.sweep time).1.filter (fun r => r.labels = l) =
      recordOfValues i.descriptor i.aggregation time l (valuesUnder updates l) := by
  have tells : ∀ l' s, i.series.get? l' = some s →
      ((fun s : Series => decide (s.labels.canonical = l)) s = true ↔ l' = l) := by
    intro l' s found
    rcases recent l' with ⟨absent, -⟩ | ⟨s', found', -, holds⟩
    · rw [found] at absent
      cases absent
    · rw [found] at found'
      cases found'
      rw [decide_eq_true_eq, holds.labels]
  have own : (i.sweep time).1.filter (fun r => r.labels = l) =
      (i.series.get? l).toList.map (i.recordOf time) := by
    have taken : (i.sweep time).1 = i.series.values.map (i.recordOf time) := rfl
    rw [taken, List.filter_map, ← Keyed.filter_values tells]
    rfl
  rw [own, recordOfValues]
  rcases recent l with ⟨absent, none_⟩ | ⟨s, found, some_, holds⟩
  · rw [absent, if_pos none_]
    rfl
  · rw [found, if_neg some_, ← holds.live, Option.toList_some, List.map_singleton, recordOf,
      holds.labels]

/-- What a sweep takes is of the instrument, and configured as it is. -/
theorem Recent.shape (recent : i.Recent updates) {time : Timestamp} {r : Record}
    (member : r ∈ (i.sweep time).1) :
    r.descriptor = i.descriptor ∧ r.value.shape = i.aggregation := by
  obtain ⟨l, s, found, rfl⟩ := (i.mem_records_sweep_iff time r).1 member
  refine ⟨rfl, ?_⟩
  rcases recent l with ⟨absent, -⟩ | ⟨s', found', -, holds⟩
  · rw [found] at absent
    cases absent
  · rw [found] at found'
    cases found'
    have live : (i.recordOf time s).value = Aggregate.ofValues _ _ _ := holds.live
    rw [live, Aggregate.shape_ofValues]

end Instrument

end Metering
