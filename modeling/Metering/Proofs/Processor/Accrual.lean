import Mathlib.Data.List.TakeWhile
import Metering.Proofs.Processor.Configured
import Metering.Proofs.Processor.Sums

/-!
# What a processor with memory accrues

The values of a series accrue cycle by cycle: those of a cycle are merged one after the other into
what is live, which at the end of the cycle is merged into the total and reset.
`Aggregate.accrue` says what this comes to, from the values alone. As long as all records of an
instrument are configured alike, a processor with memory reports of every series just what accrued
of it, whatever the numbers are. Numbers of values add up exactly, and so do sums of integers within
the range.
-/

namespace Metering

namespace Aggregate

variable {a b c start total live : Aggregate} {values : List Aggregate}
  {cycles : List (List Aggregate)}

/-! ## Totals and what is live -/

/-- A cycle of a series with a total and what is live: both of them after it. -/
def accrueCycle (s : Aggregate × Aggregate) (values : List Aggregate) :
    Except Error (Aggregate × Aggregate) := do
  let live ← s.2.mergeAll values
  let total ← s.1.merge live
  .ok (total, live.reset)

/-- The total of a series, and what is live, after some cycles. -/
def accrue (start : Aggregate) (cycles : List (List Aggregate)) :
    Except Error (Aggregate × Aggregate) := cycles.foldlM accrueCycle (start, start)

theorem accrue_concat (before : accrue start cycles = .ok (total, live))
    (merged : live.mergeAll values = .ok a) (into : total.merge a = .ok b) :
    accrue start (cycles ++ [values]) = .ok (b, a.reset) := by
  have cycle : accrueCycle (total, live) values = .ok (b, a.reset) := by
    rw [accrueCycle, merged]
    change (do let total ← total.merge a; Except.ok (total, a.reset)) = _
    rw [into]
    rfl
  rw [accrue, List.foldlM_append]
  change (do let s ← accrue start cycles; [values].foldlM accrueCycle s) = _
  rw [before]
  change (do let s ← accrueCycle (total, live) values; Except.ok s) = _
  rw [cycle]
  rfl

/-- What accrued before the last cycle, and in it. -/
theorem of_accrue_concat (after : accrue start (cycles ++ [values]) = .ok (b, c)) :
    ∃ total live a, accrue start cycles = .ok (total, live) ∧ live.mergeAll values = .ok a ∧
      total.merge a = .ok b ∧ c = a.reset := by
  rw [accrue, List.foldlM_append] at after
  change (do let s ← accrue start cycles; [values].foldlM accrueCycle s) = _ at after
  cases before : accrue start cycles with
  | error e =>
    rw [before] at after
    cases after
  | ok s =>
    obtain ⟨total, live⟩ := s
    rw [before] at after
    change (do let s ← accrueCycle (total, live) values; Except.ok s) = _ at after
    rw [accrueCycle] at after
    cases merged : live.mergeAll values with
    | error e =>
      rw [merged] at after
      cases after
    | ok a =>
      rw [merged] at after
      cases into : total.merge a with
      | error e =>
        simp only [into, bind, Except.bind] at after
        cases after
      | ok b' =>
        simp only [into, bind, Except.bind] at after
        cases after
        exact ⟨total, live, a, rfl, merged, into, rfl⟩

/-! ## Numbers of values -/

theorem number_reset (a : Aggregate) : a.reset.number?.getD 0 = 0 := by
  cases a <;> rfl

theorem number_mergeAll (values : List Aggregate) : ∀ {a : Aggregate}, a.mergeAll values = .ok c →
    c.number?.getD 0 = a.number?.getD 0 + (values.map fun v => v.number?.getD 0).sum := by
  induction values with
  | nil =>
    intro a merged
    cases merged
    rfl
  | cons v rest ih =>
    intro a merged
    cases first : a.merge v with
    | error e =>
      rw [mergeAll, List.foldlM_cons, first] at merged
      cases merged
    | ok next =>
      rw [mergeAll_cons first] at merged
      rw [ih merged, number_merge first, List.map_cons, List.sum_cons, Nat.add_assoc]

/-- The numbers of the values of all cycles add up. -/
theorem number_accrue (cycles : List (List Aggregate)) :
    ∀ {total live : Aggregate}, accrue a.reset cycles = .ok (total, live) →
      total.number?.getD 0 = (cycles.flatten.map fun v => v.number?.getD 0).sum ∧
        live.number?.getD 0 = 0 := by
  induction cycles using List.reverseRecOn with
  | nil =>
    intro total live accrued
    cases accrued
    exact ⟨number_reset a, number_reset a⟩
  | append_singleton cycles values ih =>
    intro total live accrued
    obtain ⟨old, blank, new, before, merged, into, rfl⟩ := of_accrue_concat accrued
    obtain ⟨total_, none_⟩ := ih before
    rw [number_merge into, total_, number_mergeAll values merged, none_, Nat.zero_add,
      List.flatten_append, List.flatten_singleton, List.map_append, List.sum_append]
    exact ⟨rfl, number_reset new⟩

/-! ## Sums within the range -/

/-- Sums of integers within the range accrue to their sum. -/
theorem accrue_integerSums (cycles : List (List Aggregate)) :
    ∀ {total live : Aggregate}, (∀ v ∈ cycles.flatten, v.IntegerSum) →
      Number.magnitude (cycles.flatten.map Aggregate.total) ≤ Number.limit →
      accrue (empty .int64 .sum) cycles = .ok (total, live) →
      total.IntegerSum ∧ total.total.amount = exactSum cycles.flatten ∧
        live = empty .int64 .sum := by
  induction cycles using List.reverseRecOn with
  | nil =>
    intro total live _ _ accrued
    cases accrued
    exact ⟨⟨rfl, rfl⟩, rfl, rfl⟩
  | append_singleton cycles values ih =>
    intro total live each bound accrued
    rw [List.flatten_append, List.flatten_singleton] at each bound ⊢
    rw [List.map_append, Number.magnitude_append] at bound
    have := Number.magnitude_nonneg (cycles.flatten.map Aggregate.total)
    have := Number.magnitude_nonneg (values.map Aggregate.total)
    obtain ⟨old, blank, new, before, merged, into, rfl⟩ := of_accrue_concat accrued
    obtain ⟨sums, amount, rfl⟩ :=
      ih (fun v member => each v (List.mem_append_left _ member)) (by omega) before
    have own : ∀ v ∈ values, v.IntegerSum := fun v member => each v (List.mem_append_right _ member)
    have brought := mergeAll_integerSums own (by omega) merged
    have newest := integerSum_mergeAll own merged
    have blank := newest.reset
    rw [sums.eq, newest.eq] at into
    cases into
    have old_ := Number.natAbs_exactSum_le (cycles.flatten.map Aggregate.total)
    have new_ := Number.natAbs_exactSum_le (values.map Aggregate.total)
    rw [exactSum] at amount brought
    have added := Number.amount_add sums.integral newest.integral
    refine ⟨⟨rfl, kind_add_int64 sums.integral newest.integral⟩, ?_, blank⟩
    rw [exactSum_append, exactSum, exactSum]
    change (old.total.add new.total).amount = _
    omega

end Aggregate

namespace Tracked

variable {t : Tracked} {shape : Aggregation} {total : Aggregate} {rs : List Record}

/-- A cycle of a series, of which records came that are configured as its entry is, or none. -/
theorem Shaped.close (shaped : t.Shaped shape) (fits : shape.Fits shape)
    (kept : t.total = some total) (same : ∀ r ∈ rs, r.value.shape = shape) :
    ∃ live next, t.current.live.mergeAll (rs.map Record.value) = .ok live ∧
      total.merge live = .ok next ∧ (rs.foldl absorb t).settle.total = some next ∧
      (rs.foldl absorb t).settle.current.live = live.reset ∧
      (rs.foldl absorb t).settle.descriptor = t.descriptor ∧
      (rs.foldl absorb t).settle.timestamp =
        (rs.map Record.timestamp).foldl .latest t.timestamp := by
  obtain ⟨live, merged, keeps⟩ := Aggregate.mergeAll_of_fits (rs.map Record.value)
    (a := t.current.live) (by
      intro b member
      obtain ⟨r, among, rfl⟩ := List.mem_map.1 member
      rw [shaped.live, same r among]
      exact fits)
  obtain ⟨live', descriptor, total', timestamp, -⟩ := foldl_absorb rs merged
  have absorbed : (rs.foldl absorb t).Shaped shape :=
    ⟨by rw [live', keeps, shaped.live], total' ▸ shaped.total⟩
  obtain ⟨next, into, -⟩ := absorbed.merge_total fits (total'.trans kept)
  have settled := settle_of_merge (total'.trans kept) into
  rw [live'] at into
  refine ⟨live, next, merged, into, ?_⟩
  rw [settled]
  exact ⟨rfl, congrArg Aggregate.reset live', descriptor, timestamp⟩

end Tracked

namespace Processor

variable {p : Processor} {k : SeriesKey} {rs : List Record} {cs : List (List Record)}

/-! ## Series -/

/-- The values of a key in some cycles, from the first cycle on that has any. -/
def valuesOf (cs : List (List Record)) (k : SeriesKey) : List (List Aggregate) :=
  (cs.map fun rs => (rs.filter fun r => r.key = k).map Record.value).dropWhile List.isEmpty

theorem flatten_dropWhile_isEmpty {α : Type} (xs : List (List α)) :
    (xs.dropWhile List.isEmpty).flatten = xs.flatten := by
  induction xs with
  | nil => rfl
  | cons x rest ih =>
    cases x with
    | nil => exact ih
    | cons y more => rfl

theorem flatten_valuesOf (cs : List (List Record)) (k : SeriesKey) :
    (valuesOf cs k).flatten = (seen cs k).map Record.value := by
  rw [valuesOf, flatten_dropWhile_isEmpty, seen]
  induction cs with
  | nil => rfl
  | cons rs rest ih =>
    rw [List.map_cons, List.flatten_cons, ih, List.flatten_cons, List.filter_append, List.map_append]

theorem valuesOf_eq_nil_iff : valuesOf cs k = [] ↔ seen cs k = [] := by
  simp only [valuesOf, seen, List.dropWhile_eq_nil_iff, List.mem_map, List.isEmpty_iff,
    List.filter_eq_nil_iff, List.mem_flatten]
  constructor
  · rintro none_ r ⟨rs, cycle, member⟩
    have none_ := List.map_eq_nil_iff.1 (none_ _ ⟨rs, cycle, rfl⟩)
    exact List.filter_eq_nil_iff.1 none_ r member
  · rintro none_ values ⟨rs, cycle, rfl⟩
    exact List.map_eq_nil_iff.2 (List.filter_eq_nil_iff.2 fun r member => none_ r ⟨rs, cycle, member⟩)

/-- From its first record on, every cycle counts, also one without records. -/
theorem valuesOf_concat (seen_ : seen cs k ≠ []) (rs : List Record) :
    valuesOf (cs ++ [rs]) k =
      valuesOf cs k ++ [(rs.filter fun r => r.key = k).map Record.value] := by
  have some_ : ¬ (valuesOf cs k).isEmpty = true :=
    fun none_ => seen_ (valuesOf_eq_nil_iff.1 (List.isEmpty_iff.1 none_))
  rw [valuesOf] at some_
  rw [valuesOf, List.map_append, List.map_singleton, List.dropWhile_append, if_neg some_, valuesOf]

theorem valuesOf_concat_of_unseen (unseen : seen cs k = []) {first : Record} {rest : List Record}
    (own : rs.filter (fun r => r.key = k) = first :: rest) :
    valuesOf (cs ++ [rs]) k = [(first :: rest).map Record.value] := by
  have none_ := valuesOf_eq_nil_iff.2 unseen
  rw [valuesOf] at none_
  rw [valuesOf, List.map_append, List.map_singleton, List.dropWhile_append, none_, own]
  rfl

/-- An entry between two cycles: what accrued of its series since the first record, with the
descriptor of that and the latest time. -/
structure Accrues (cs : List (List Record)) (k : SeriesKey) (first : Record) (t : Tracked)
    (total : Aggregate) : Prop where
  earliest : (seen cs k).head? = some first
  descriptor : t.descriptor = first.descriptor
  timestamp : t.timestamp.IsLatest ((seen cs k).map Record.timestamp)
  kept : t.total = some total
  accrued : Aggregate.accrue first.value.reset (valuesOf cs k) = .ok (total, t.current.live)

/-- A cycle, with or without records of the series. -/
theorem Accrues.cycle {first : Record} {t : Tracked} {total : Aggregate} {shape : Aggregation}
    (accrues : Accrues cs k first t total) (shaped : t.Shaped shape) (fits : shape.Fits shape)
    (same : ∀ r ∈ rs.filter (fun r => r.key = k), r.value.shape = shape) :
    ∃ next, Accrues (cs ++ [rs]) k first
      { ((rs.filter fun r => r.key = k).foldl Tracked.absorb t).settle with updated := false }
      next := by
  obtain ⟨live, next, merged, into, kept, blank, descriptor, timestamp⟩ :=
    shaped.close fits accrues.kept same
  have seen_ : seen cs k ≠ [] := List.ne_nil_of_mem (List.mem_of_head? accrues.earliest)
  have latest := Timestamp.isLatest_foldl ((rs.filter fun r => r.key = k).map Record.timestamp)
    accrues.timestamp
  rw [← timestamp, ← List.map_append, ← seen_concat] at latest
  refine ⟨next, ?_, descriptor.trans accrues.descriptor, latest, kept, ?_⟩
  · rw [seen_concat, List.head?_append, accrues.earliest]
    rfl
  · rw [valuesOf_concat seen_]
    exact (Aggregate.accrue_concat accrues.accrued merged into).trans (by rw [← blank])

/-- The first cycle with records of the series. -/
theorem accrues_first (unseen : seen cs k = []) {first : Record} {rest : List Record}
    (own : rs.filter (fun r => r.key = k) = first :: rest)
    (fits : first.value.shape.Fits first.value.shape)
    (same : ∀ r ∈ first :: rest, r.value.shape = first.value.shape) :
    ∃ next, Accrues (cs ++ [rs]) k first
      { ((first :: rest).foldl Tracked.absorb (Tracked.start .stateful first)).settle with
        updated := false } next := by
  obtain ⟨live, next, merged, into, kept, blank, descriptor, timestamp⟩ :=
    (Tracked.shaped_start .stateful first).close fits rfl same
  have times : ((first :: rest).map Record.timestamp).foldl .latest first.timestamp =
      (rest.map Record.timestamp).foldl .latest first.timestamp := by
    rw [List.map_cons, List.foldl_cons, Timestamp.latest_self]
  have latest := Timestamp.isLatest_foldl (rest.map Record.timestamp)
    (Timestamp.isLatest_singleton first.timestamp)
  rw [← timestamp.trans times, List.singleton_append, ← List.map_cons] at latest
  have seen_ : seen (cs ++ [rs]) k = first :: rest := by rw [seen_concat, unseen, own]; rfl
  refine ⟨next, by rw [seen_]; rfl, descriptor, by rw [seen_]; exact latest, kept, ?_⟩
  rw [valuesOf_concat_of_unseen unseen own, ← List.nil_append [_]]
  exact (Aggregate.accrue_concat rfl merged into).trans (by rw [← blank])

section Run

variable {aggregations : String → Option Aggregation}
  (fits : ∀ name a, aggregations name = some a → a.Fits a)

include fits in
theorem Configured.after (cs : List (List Record)) : ∀ {p : Processor}, p.Configured aggregations →
    (∀ r ∈ cs.flatten, aggregations r.name = some r.value.shape) →
    (p.after cs).Configured aggregations := by
  induction cs with
  | nil => exact fun configured _ => configured
  | cons rs rest ih =>
    intro p configured known
    rw [List.flatten_cons] at known
    exact ih (configured.cycle fits fun r member => known r (List.mem_append_left _ member))
      fun r member => known r (List.mem_append_right _ member)

include fits in
/-- With memory, the entry of a series is what accrued of it. -/
theorem accrues_after (cs : List (List Record))
    (known : ∀ r ∈ cs.flatten, aggregations r.name = some r.value.shape) (k : SeriesKey) :
    (seen cs k = [] ∧ ((empty .stateful).after cs).series.get? k = none) ∨
    ∃ first t total, ((empty .stateful).after cs).series.get? k = some t ∧
      Accrues cs k first t total := by
  induction cs using List.reverseRecOn with
  | nil => exact Or.inl ⟨rfl, rfl⟩
  | append_singleton cs rs ih =>
    rw [List.flatten_append, List.flatten_singleton] at known
    have before := fun r member => known r (List.mem_append_left _ member)
    have now := fun r member => known r (List.mem_append_right _ member)
    have configured := (configured_empty aggregations .stateful).after fits cs before
    have entry := get?_cycle_stateful (mode_after cs (empty .stateful)) k rs
    rw [get?_processAll, mode_after] at entry
    rw [after_concat, seen_concat]
    generalize (empty .stateful).after cs = p at ih configured entry ⊢
    have given : ∀ r ∈ rs.filter (fun r => r.key = k), aggregations k.name = some r.value.shape := by
      intro r member
      obtain ⟨among, at_⟩ := List.mem_filter.1 member
      rw [← of_decide_eq_true at_]
      exact now r among
    rcases ih before with ⟨unseen, absent⟩ | ⟨first, t, total, present, accrues⟩
    · rw [absent] at entry
      cases own : rs.filter fun r => r.key = k with
      | nil =>
        rw [own] at entry
        exact Or.inl ⟨by rw [unseen]; rfl, entry⟩
      | cons first rest =>
        rw [own] at entry given
        rw [absorbAll_cons, Option.getD_none, Option.map_some] at entry
        have known_ := given first List.mem_cons_self
        obtain ⟨next, accrues⟩ := accrues_first unseen own (fits _ _ known_) fun r member =>
          Option.some.inj ((given r member).symm.trans known_)
        exact Or.inr ⟨first, _, next, entry, accrues⟩
    · obtain ⟨shape, known_, shaped⟩ := configured k t present
      obtain ⟨next, after⟩ := accrues.cycle shaped (fits _ _ known_) fun r member =>
        Option.some.inj ((given r member).symm.trans known_)
      have kept : absorbAll .stateful (some t) (rs.filter fun r => r.key = k) =
          some ((rs.filter fun r => r.key = k).foldl Tracked.absorb t) := by
        cases rs.filter fun r => r.key = k with
        | nil => rfl
        | cons first rest => exact absorbAll_cons .stateful (some t) first rest
      rw [present, show (empty .stateful).mode = .stateful from rfl, kept, Option.map_some] at entry
      exact Or.inr ⟨first, _, next, entry, after⟩

include fits in
/-- With memory, a cycle reports of a key what accrued of it, that cycle included. -/
theorem reported_of_configured (cs : List (List Record)) (rs : List Record)
    (known : ∀ r ∈ (cs ++ [rs]).flatten, aggregations r.name = some r.value.shape)
    (k : SeriesKey) :
    let batch := (((empty .stateful).after cs).cycle rs).1
    (seen (cs ++ [rs]) k = [] ∧ batch.filter (fun r => r.key = k) = []) ∨
    ∃ first t total, batch.filter (fun r => r.key = k) =
        [⟨t.descriptor, k.labels, total, t.timestamp⟩] ∧
      Accrues (cs ++ [rs]) k first t total := by
  intro batch
  have mode := mode_after cs (empty .stateful)
  have labelled := labelled_after cs (labelled_empty .stateful)
  have after := accrues_after fits (cs ++ [rs]) known k
  rw [after_concat] at after
  rcases after with ⟨unseen, absent⟩ | ⟨first, t, total, present, accrues⟩
  · exact Or.inl ⟨unseen, filter_cycle_of_none mode labelled absent⟩
  · exact Or.inr ⟨first, t, total, filter_cycle_of_some mode labelled present accrues.kept, accrues⟩

end Run

/-- A batch takes in all records of some cycles: it reports just their keys, in ascending order, and
of each key what accrued of it, with the descriptor of its first record and the time of its latest. -/
structure Covers (cs : List (List Record)) (batch : List Record) : Prop where
  ascending : (batch.map Record.key).Pairwise fun a b => compare a b = .lt
  keys : ∀ k, k ∈ batch.map Record.key ↔ ∃ r ∈ cs.flatten, r.key = k
  reports : ∀ report ∈ batch, ∃ first live, (seen cs report.key).head? = some first ∧
    report.descriptor = first.descriptor ∧
    Aggregate.accrue first.value.reset (valuesOf cs report.key) = .ok (report.value, live) ∧
    report.timestamp.IsLatest ((seen cs report.key).map Record.timestamp)

/-- The last batch of a processor with memory takes in the records of all cycles. -/
theorem covers_cycle {aggregations : String → Option Aggregation}
    (fits : ∀ name a, aggregations name = some a → a.Fits a) (cs : List (List Record))
    (rs : List Record)
    (known : ∀ r ∈ (cs ++ [rs]).flatten, aggregations r.name = some r.value.shape) :
    Covers (cs ++ [rs]) (((empty .stateful).after cs).cycle rs).1 where
  ascending := ascending_cycle (labelled_after cs (labelled_empty .stateful)) rs
  keys k := by
    rw [List.mem_map, exists_key_iff, exists_key_iff]
    rcases reported_of_configured fits cs rs known k with
      ⟨unseen, silent⟩ | ⟨first, t, total, told, accrues⟩
    · exact iff_of_false (fun some_ => some_ silent) fun some_ => some_ unseen
    · exact iff_of_true (told ▸ List.cons_ne_nil _ _)
        (List.ne_nil_of_mem (List.mem_of_head? accrues.earliest))
  reports report member := by
    have own : report ∈ (((empty .stateful).after cs).cycle rs).1.filter
        fun r => r.key = report.key := List.mem_filter.2 ⟨member, decide_eq_true rfl⟩
    rcases reported_of_configured fits cs rs known report.key with
      ⟨-, silent⟩ | ⟨first, t, total, told, accrues⟩
    · rw [silent] at own
      cases own
    · rw [told] at own
      have same := List.mem_singleton.1 own
      refine ⟨first, t.current.live, accrues.earliest, ?_, ?_, ?_⟩
      · rw [congrArg Record.descriptor same]
        exact accrues.descriptor
      · rw [congrArg Record.value same]
        exact accrues.accrued
      · rw [congrArg Record.timestamp same]
        exact accrues.timestamp

/-- Of families that keep it, the number of the values that a batch takes in is that of all
records. -/
theorem Covers.number {batch : List Record} (covers : Covers cs batch) {report : Record}
    (member : report ∈ batch) : report.value.number?.getD 0 =
      ((seen cs report.key).map fun r => r.value.number?.getD 0).sum := by
  obtain ⟨first, live, -, -, accrued, -⟩ := covers.reports report member
  rw [(Aggregate.number_accrue _ accrued).1, flatten_valuesOf, List.map_map]
  rfl

/-- Sums of integers that a batch takes in are one, which is theirs within the range. -/
theorem Covers.integerSum {batch : List Record} (covers : Covers cs batch) {report : Record}
    (member : report ∈ batch) (sums : ∀ r ∈ seen cs report.key, r.value.IntegerSum)
    (bound : Number.magnitude ((seen cs report.key).map fun r => r.value.total) ≤ Number.limit) :
    report.value.IntegerSum ∧ report.value.total.amount =
      Aggregate.exactSum ((seen cs report.key).map Record.value) := by
  obtain ⟨first, live, earliest, -, accrued, -⟩ := covers.reports report member
  have blank := (sums first (List.mem_of_head? earliest)).reset
  have each : ∀ v ∈ (valuesOf cs report.key).flatten, v.IntegerSum := by
    intro v value
    rw [flatten_valuesOf] at value
    obtain ⟨r, among, rfl⟩ := List.mem_map.1 value
    exact sums r among
  have totals : (valuesOf cs report.key).flatten.map Aggregate.total =
      (seen cs report.key).map fun r => r.value.total := by
    rw [flatten_valuesOf, List.map_map]
    rfl
  rw [blank] at accrued
  obtain ⟨sum, amount, -⟩ := Aggregate.accrue_integerSums _ each (by rw [totals]; exact bound) accrued
  rw [flatten_valuesOf] at amount
  exact ⟨sum, amount⟩

end Processor

end Metering
