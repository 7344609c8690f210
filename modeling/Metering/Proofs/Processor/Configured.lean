import Metering.Proofs.Aggregate.Shape
import Metering.Proofs.Processor.Running

/-!
# Processors that refuse nothing

A processor can refuse a record, and at the end of a cycle can fail to merge what the cycle brought
into a total. Neither happens as long as all records of an instrument are configured alike, and
merge with each other: the entry of a series has the configuration of the record that it was made
of, and cycles keep it. Nothing is assumed of numbers, which may be floats and may saturate.
-/

namespace Metering

namespace Tracked

/-- What an entry keeps is configured alike. -/
structure Shaped (t : Tracked) (shape : Aggregation) : Prop where
  live : t.current.live.shape = shape
  total : ∀ total, t.total = some total → total.shape = shape

variable {t : Tracked} {shape : Aggregation} {r : Record}

/-- A new entry has the configuration of its record. -/
theorem shaped_start (mode : Processor.Mode) (r : Record) :
    (start mode r).Shaped r.value.shape where
  live := r.value.shape_reset
  total total kept := by
    cases mode with
    | stateless => cases kept
    | stateful =>
      cases kept
      exact r.value.shape_reset

/-- A record of the configuration of an entry merges into it. -/
theorem Shaped.merge (shaped : t.Shaped shape) (fits : shape.Fits shape)
    (same : r.value.shape = shape) : ∃ t', t.merge r = .ok t' ∧ t'.Shaped shape := by
  obtain ⟨live, merged, keeps⟩ := Aggregate.merge_of_fits (a := t.current.live) (b := r.value)
    (by rw [shaped.live, same]; exact fits)
  have merges : t.merge r = .ok
      { t with
        current := { t.current with live, dirty := true }
        timestamp := t.timestamp.latest r.timestamp
        updated := true } := by
    rw [Tracked.merge, Aggregator.mergeValue, merged]
  exact ⟨_, merges, keeps.trans shaped.live, shaped.total⟩

/-- What a cycle brought merges into the total. -/
theorem Shaped.merge_total (shaped : t.Shaped shape) (fits : shape.Fits shape) {total : Aggregate}
    (kept : t.total = some total) :
    ∃ merged, total.merge t.current.live = .ok merged ∧ merged.shape = shape := by
  obtain ⟨merged, into, same⟩ := Aggregate.merge_of_fits (a := total) (b := t.current.live)
    (by rw [shaped.total total kept, shaped.live]; exact fits)
  exact ⟨merged, into, same.trans (shaped.total total kept)⟩

theorem Shaped.misfit?_eq_none (shaped : t.Shaped shape) (fits : shape.Fits shape) :
    t.misfit? = none := by
  rw [misfit?]
  cases kept : t.total with
  | none => rfl
  | some total =>
    obtain ⟨merged, into, -⟩ := shaped.merge_total fits kept
    simp only [Option.bind_some, into]

theorem Shaped.settle (shaped : t.Shaped shape) (fits : shape.Fits shape) :
    t.settle.Shaped shape := by
  have live : t.settle.current.live.shape = shape :=
    (t.current.live.shape_reset).trans shaped.live
  refine ⟨live, fun next settled => ?_⟩
  cases kept : t.total with
  | none =>
    simp only [Tracked.settle, kept, Option.map_none] at settled
    cases settled
  | some total =>
    obtain ⟨merged, into, same⟩ := shaped.merge_total fits kept
    rw [settle_of_merge kept into] at settled
    cases settled
    exact same

/-- The value that is reported of a series takes in records of it: one after the other they merge
into what is live in the entry, and that merges into the total, if there is one. -/
def TakesIn (t : Tracked) (rs : List Record) (value : Aggregate) : Prop :=
  ∃ live, t.current.live.mergeAll (rs.map Record.value) = .ok live ∧
    match t.total with
    | some total => total.merge live = .ok value
    | none => value = live

/-- A record that has come is reported. -/
theorem Shaped.takesIn (shaped : t.Shaped shape) (fits : shape.Fits shape) {rs : List Record}
    (some_ : rs ≠ []) (same : ∀ r ∈ rs, r.value.shape = shape) :
    ∃ value, (rs.foldl absorb t).settle.report? = some value ∧ t.TakesIn rs value := by
  obtain ⟨live, merged, keeps⟩ := Aggregate.mergeAll_of_fits (rs.map Record.value)
    (a := t.current.live) (by
      intro b member
      obtain ⟨r, among, rfl⟩ := List.mem_map.1 member
      rw [shaped.live, same r among]
      exact fits)
  obtain ⟨live', -, total, -, updated⟩ := foldl_absorb rs merged
  cases kept : t.total with
  | none =>
    have told : (rs.foldl absorb t).settle.report? =
        if (rs.foldl absorb t).updated then some (rs.foldl absorb t).current.live else none := by
      simp only [report?, Tracked.settle, total, kept, Option.map_none]
      rfl
    refine ⟨live, ?_, live, merged, by rw [kept]⟩
    rw [told, updated, live', if_pos (by simp [some_])]
  | some old =>
    have absorbed : (rs.foldl absorb t).Shaped shape :=
      ⟨by rw [live', keeps, shaped.live], total ▸ shaped.total⟩
    obtain ⟨next, into, -⟩ := absorbed.merge_total fits (total.trans kept)
    refine ⟨next, ?_, live, merged, by rw [kept, ← live']; exact into⟩
    rw [settle_of_merge (total.trans kept) into]
    rfl

end Tracked

namespace Processor

/-- Every entry is configured as is said for the instrument of its key. -/
def Configured (aggregations : String → Option Aggregation) (p : Processor) : Prop :=
  ∀ k t, p.series.get? k = some t → ∃ a, aggregations k.name = some a ∧ t.Shaped a

theorem configured_empty (aggregations : String → Option Aggregation) (mode : Mode) :
    (empty mode).Configured aggregations :=
  fun _ _ found => nomatch found

theorem Configured.mono {aggregations more : String → Option Aggregation} {p : Processor}
    (configured : p.Configured aggregations)
    (lasts : ∀ name a, aggregations name = some a → more name = some a) : p.Configured more := by
  intro k t found
  obtain ⟨a, known, shaped⟩ := configured k t found
  exact ⟨a, lasts k.name a known, shaped⟩

section Cycle

variable {aggregations : String → Option Aggregation} {p : Processor} {rs : List Record}
  (fits : ∀ name a, aggregations name = some a → a.Fits a)
  (known : ∀ r ∈ rs, aggregations r.name = some r.value.shape)

/-- The entry for a record is configured as the record is. -/
theorem Configured.entry (configured : p.Configured aggregations) {r : Record}
    (known : aggregations r.name = some r.value.shape) : (p.entry r).Shaped r.value.shape := by
  rw [Processor.entry]
  cases found : p.series.get? r.key with
  | none => exact Tracked.shaped_start p.mode r
  | some t =>
    obtain ⟨a, given, shaped⟩ := configured r.key t found
    cases given.symm.trans known
    exact shaped

include fits in
theorem Configured.process (configured : p.Configured aggregations) {r : Record}
    (known : aggregations r.name = some r.value.shape) :
    (p.process r).1 = .ok () ∧ (p.process r).2.Configured aggregations := by
  obtain ⟨t, merged, shaped⟩ :=
    (configured.entry known).merge (fits _ _ known) rfl
  rw [Processor.process, merged]
  refine ⟨rfl, fun k t' found => ?_⟩
  by_cases at_ : r.key = k
  · subst at_
    rw [Keyed.get?_insert_self] at found
    cases found
    exact ⟨r.value.shape, known, shaped⟩
  · rw [Keyed.get?_insert_of_ne _ _ at_] at found
    exact configured k t' found

include fits known in
/-- Records that are configured as is said for their instruments are not refused. -/
theorem Configured.processAll (configured : p.Configured aggregations) :
    (Controller.processAll p rs).1 = [] ∧
      (Controller.processAll p rs).2.Configured aggregations := by
  induction rs generalizing p with
  | nil => exact ⟨rfl, configured⟩
  | cons r rest ih =>
    obtain ⟨accepted, next⟩ := configured.process fits (known r List.mem_cons_self)
    obtain ⟨none_, after⟩ := ih (fun r' member => known r' (List.mem_cons_of_mem _ member)) next
    rw [Controller.processAll]
    simp only [accepted]
    exact ⟨none_, after⟩

include fits in
/-- No cycle fails to merge into a total. -/
theorem Configured.misfits (configured : p.Configured aggregations) : p.misfits = [] := by
  refine List.filterMap_eq_nil_iff.2 fun ⟨k, t⟩ member => ?_
  obtain ⟨a, known, shaped⟩ := configured k t ((p.series.mem_entries_iff k t).1 member)
  rw [shaped.misfit?_eq_none (fits _ a known), Option.map_none]

include fits known in
theorem Configured.cycle (configured : p.Configured aggregations) :
    (p.cycle rs).2.Configured aggregations := by
  have processed := (configured.processAll fits known).2
  intro k t found
  simp only [Processor.cycle, checkpoint, finish] at found
  split at found
  · cases found
  · rw [Keyed.get?_map, Keyed.get?_map] at found
    obtain ⟨t', settled, rfl⟩ := Option.map_eq_some_iff.1 found
    obtain ⟨t'', present, rfl⟩ := Option.map_eq_some_iff.1 settled
    obtain ⟨a, given, shaped⟩ := processed k t'' present
    obtain ⟨live, total⟩ := shaped.settle (fits _ a given)
    exact ⟨a, given, live, total⟩

include fits known in
/-- Of every series with records a cycle reports a value that takes in all of them. -/
theorem Configured.reports (configured : p.Configured aggregations) (labelled : p.Labelled)
    {k : SeriesKey} {first : Record} {rest : List Record}
    (own : rs.filter (fun r => r.key = k) = first :: rest) :
    ∃ report ∈ (p.cycle rs).1, report.key = k ∧
      (p.entry first).TakesIn (first :: rest) report.value := by
  have mine : ∀ r ∈ first :: rest, r ∈ rs ∧ r.key = k := by
    intro r member
    rw [← own] at member
    exact ⟨(List.mem_filter.1 member).1, of_decide_eq_true (List.mem_filter.1 member).2⟩
  have given := known first (mine first List.mem_cons_self).1
  have same : ∀ r ∈ first :: rest, r.value.shape = first.value.shape := by
    intro r member
    have name : r.name = first.name := congrArg SeriesKey.name
      ((mine r member).2.trans (mine first List.mem_cons_self).2.symm)
    have also := known r (mine r member).1
    rw [name, given] at also
    exact (Option.some.inj also).symm
  obtain ⟨value, told, takes⟩ :=
    (configured.entry given).takesIn (fits _ _ given) (List.cons_ne_nil first rest) same
  have entry : (Controller.processAll p rs).2.series.get? k =
      some ((first :: rest).foldl Tracked.absorb (p.entry first)) := by
    rw [get?_processAll, own, absorbAll_cons, Processor.entry,
      (mine first List.mem_cons_self).2]
  have batch := filter_cycle labelled rs k
  rw [reported, entry, Option.bind_some, recordOf, told] at batch
  have member := List.mem_of_mem_head? (congrArg List.head? batch)
  obtain ⟨among, at_⟩ := List.mem_filter.1 member
  exact ⟨_, among, of_decide_eq_true at_, takes⟩

end Cycle

end Processor

end Metering
