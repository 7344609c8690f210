import Metering.Proofs.Processor.Accrual

/-!
# What is exported in the end

What a processor exports of a series in the end is the last batch of one with memory, and all batches
together of one without. In both modes the numbers of values of a series, and sums of integers within
the range, are those of all records that were collected of it: no record is counted twice or left out
at the end of a cycle.
-/

namespace Metering.Processor

variable {k : SeriesKey} {d : Descriptor} {rs : List Record} {cs : List (List Record)}

/-- What the records of a key sum up to; without any this is zero. -/
def amountAt (rs : List Record) (k : SeriesKey) : Int :=
  Aggregate.exactSum ((rs.filter fun r => r.key = k).map Record.value)

/-- The number of the values of a key, for the families that keep it. -/
def numberAt (rs : List Record) (k : SeriesKey) : Nat :=
  ((rs.filter fun r => r.key = k).map fun r => r.value.number?.getD 0).sum

/-- The records of a key are sums of integers, which come to some amount together. -/
structure SumsTo (rs : List Record) (k : SeriesKey) (n : Int) : Prop where
  sums : ∀ r ∈ rs.filter (fun r => r.key = k), r.value.IntegerSum
  amount : amountAt rs k = n

/-- What some batches report in the end. -/
def final (mode : Mode) (batches : List (List Record)) : List Record :=
  match mode with
  | .stateful => batches.getLast?.getD []
  | .stateless => batches.flatten

theorem final_singleton (mode : Mode) (batch : List Record) : final mode [batch] = batch := by
  cases mode with
  | stateful => rfl
  | stateless => exact List.append_nil batch

theorem numberAt_append (rs more : List Record) (k : SeriesKey) :
    numberAt (rs ++ more) k = numberAt rs k + numberAt more k := by
  rw [numberAt, List.filter_append, List.map_append, List.sum_append]
  rfl

/-! ## Without memory -/

section Configured

variable {aggregations : String → Option Aggregation}
  (fits : ∀ name a, aggregations name = some a → a.Fits a)

include fits in
/-- Without memory, a cycle reports of a key what its records merge to. -/
theorem cycle_stateless_of_configured
    (known : ∀ r ∈ rs, aggregations r.name = some r.value.shape) (k : SeriesKey) :
    (rs.filter (fun r => r.key = k) = [] ∧
      ((empty .stateless).cycle rs).1.filter (fun r => r.key = k) = []) ∨
    ∃ first rest report, rs.filter (fun r => r.key = k) = first :: rest ∧
      ((empty .stateless).cycle rs).1.filter (fun r => r.key = k) = [report] ∧
      first.value.reset.mergeAll ((first :: rest).map Record.value) = .ok report.value := by
  have labelled := labelled_empty .stateless
  have batch := filter_cycle labelled rs k
  cases own : rs.filter fun r => r.key = k with
  | nil =>
    refine Or.inl ⟨rfl, ?_⟩
    rw [batch, reported, get?_processAll, own]
    rfl
  | cons first rest =>
    obtain ⟨report, member, at_, live, merged, value⟩ :=
      (configured_empty aggregations .stateless).reports fits known labelled own
    have told : report ∈ ((empty .stateless).cycle rs).1.filter fun r => r.key = k :=
      List.mem_filter.2 ⟨member, decide_eq_true at_⟩
    refine Or.inr ⟨first, rest, report, rfl, ?_, ?_⟩
    · rw [batch, Option.mem_toList] at told
      rw [batch, told]
      rfl
    · have same : report.value = live := value
      rw [same]
      exact merged

include fits in
/-- What the processor without memory reports has the number of all records. -/
theorem numberAt_batches_stateless (cs : List (List Record))
    (known : ∀ r ∈ cs.flatten, aggregations r.name = some r.value.shape) (k : SeriesKey) :
    numberAt ((empty .stateless).batches cs).flatten k = numberAt cs.flatten k := by
  rw [batches_stateless]
  induction cs with
  | nil => rfl
  | cons rs rest ih =>
    rw [List.flatten_cons] at known
    have others := ih fun r member => known r (List.mem_append_right _ member)
    rw [List.map_cons, List.flatten_cons, numberAt_append, others, List.flatten_cons,
      numberAt_append]
    refine congrArg (· + numberAt rest.flatten k) ?_
    rcases cycle_stateless_of_configured fits
      (fun r member => known r (List.mem_append_left _ member)) k with
      ⟨idle, quiet⟩ | ⟨first, more, report, busy, told, merged⟩
    · rw [numberAt, quiet, numberAt, idle]
    · have number := Aggregate.number_mergeAll _ merged
      rw [Aggregate.number_reset, Nat.zero_add, List.map_map] at number
      rw [numberAt, told, numberAt, busy, List.map_singleton, List.sum_singleton, number]
      rfl

include fits in
/-- Of sums of integers, the processor without memory reports sums of integers. -/
theorem integerSum_batches_stateless (cs : List (List Record))
    (known : ∀ r ∈ cs.flatten, aggregations r.name = some r.value.shape)
    (sums : ∀ r ∈ seen cs k, r.value.IntegerSum) :
    ∀ r ∈ ((empty .stateless).batches cs).flatten.filter (fun r => r.key = k),
      r.value.IntegerSum := by
  intro r member
  obtain ⟨exported, at_⟩ := List.mem_filter.1 member
  rw [batches_stateless] at exported
  obtain ⟨batch, held, among⟩ := List.mem_flatten.1 exported
  obtain ⟨rs, cycle, rfl⟩ := List.mem_map.1 held
  have within : ∀ r ∈ rs, r ∈ cs.flatten := fun r member => List.mem_flatten.2 ⟨rs, cycle, member⟩
  have own : r ∈ ((empty .stateless).cycle rs).1.filter fun r => r.key = k :=
    List.mem_filter.2 ⟨among, at_⟩
  rcases cycle_stateless_of_configured fits (fun r member => known r (within r member)) k with
    ⟨-, quiet⟩ | ⟨first, rest, report, busy, told, merged⟩
  · rw [quiet] at own
    cases own
  · rw [told] at own
    rw [List.mem_singleton.1 own]
    have each : ∀ a ∈ (first :: rest).map Record.value, a.IntegerSum := by
      intro a value
      obtain ⟨r, among, rfl⟩ := List.mem_map.1 value
      rw [← busy] at among
      obtain ⟨here, key⟩ := List.mem_filter.1 among
      exact sums r (List.mem_filter.2 ⟨within r here, key⟩)
    rw [(each first.value (List.mem_map_of_mem List.mem_cons_self)).reset] at merged
    exact Aggregate.integerSum_mergeAll each merged

/-! ## With memory -/

include fits in
/-- With memory, a batch has the number of all records so far. -/
theorem numberAt_cycle (cs : List (List Record)) (rs : List Record)
    (known : ∀ r ∈ (cs ++ [rs]).flatten, aggregations r.name = some r.value.shape)
    (k : SeriesKey) : numberAt (((empty .stateful).after cs).cycle rs).1 k =
      numberAt (cs ++ [rs]).flatten k := by
  have all : numberAt (cs ++ [rs]).flatten k =
      ((seen (cs ++ [rs]) k).map fun r => r.value.number?.getD 0).sum := rfl
  rw [all, numberAt]
  rcases reported_of_configured fits cs rs known k with
    ⟨unseen, silent⟩ | ⟨first, t, total, told, accrues⟩
  · rw [silent, unseen]
  · have number := (Aggregate.number_accrue _ accrues.accrued).1
    rw [flatten_valuesOf, List.map_map] at number
    rw [told, List.map_singleton, List.sum_singleton, number]
    rfl

include fits in
/-- With memory, a batch has the sums of all records so far. -/
theorem sumsTo_cycle (cs : List (List Record)) (rs : List Record)
    (known : ∀ r ∈ (cs ++ [rs]).flatten, aggregations r.name = some r.value.shape)
    (sums : ∀ r ∈ seen (cs ++ [rs]) k, r.value.IntegerSum)
    (bound : Number.magnitude ((seen (cs ++ [rs]) k).map fun r => r.value.total) ≤ Number.limit) :
    SumsTo (((empty .stateful).after cs).cycle rs).1 k (amountAt (cs ++ [rs]).flatten k) := by
  have covers := covers_cycle fits cs rs known
  have each : ∀ r ∈ (((empty .stateful).after cs).cycle rs).1.filter (fun r => r.key = k),
      r.value.IntegerSum ∧ r.value.total.amount = amountAt (cs ++ [rs]).flatten k := by
    intro r member
    obtain ⟨among, at_⟩ := List.mem_filter.1 member
    have key := of_decide_eq_true at_
    subst key
    exact covers.integerSum among sums bound
  refine ⟨fun r member => (each r member).1, ?_⟩
  rcases reported_of_configured fits cs rs known k with
    ⟨unseen, silent⟩ | ⟨first, t, total, told, -⟩
  · have nothing : amountAt (cs ++ [rs]).flatten k =
        Aggregate.exactSum ((seen (cs ++ [rs]) k).map Record.value) := rfl
    rw [nothing, unseen, amountAt, silent]
  · have own := (each ⟨t.descriptor, k.labels, total, t.timestamp⟩ (by
      rw [told]
      exact List.mem_singleton_self _)).2
    rw [← own, amountAt, told]
    exact Int.add_zero _

/-! ## In the end -/

/-- After at least one cycle there is a last one. -/
theorem final_stateful_concat (cs : List (List Record)) (rs : List Record) :
    final .stateful ((empty .stateful).batches (cs ++ [rs])) =
      (((empty .stateful).after cs).cycle rs).1 := by
  rw [final, batches_concat, List.getLast?_concat]
  rfl

/-- With memory, each batch is the end of the cycles up to its own. -/
theorem final_stateful_take (cs : List (List Record)) {n : Nat} {batch : List Record}
    (told : ((empty .stateful).batches cs)[n]? = some batch) :
    final .stateful ((empty .stateful).batches (cs.take (n + 1))) = batch := by
  rw [getElem?_batches] at told
  obtain ⟨rs, cycle, rfl⟩ := Option.map_eq_some_iff.1 told
  rw [List.take_add_one, cycle]
  exact final_stateful_concat (cs.take n) rs

/-- Every batch reports the keys in ascending order. -/
theorem ascending_batches (cs : List (List Record)) : ∀ {p : Processor}, p.Labelled →
    ∀ batch ∈ p.batches cs, (batch.map Record.key).Pairwise fun a b => compare a b = .lt := by
  induction cs with
  | nil => exact fun _ _ none_ => nomatch none_
  | cons rs rest ih =>
    intro p labelled batch member
    rcases List.mem_cons.1 member with rfl | later
    · exact ascending_cycle labelled rs
    · exact ih (labelled_cycle labelled rs) batch later

/-- No batch reports a key twice. -/
theorem nodup_batches (cs : List (List Record)) {p : Processor} (labelled : p.Labelled) :
    ∀ batch ∈ p.batches cs, (batch.map Record.key).Nodup := by
  intro batch member
  refine (ascending_batches cs labelled batch member).imp fun {k k'} order same => ?_
  have equal : compare k' k' = .eq := Std.ReflCmp.compare_self
  rw [same, equal] at order
  cases order

include fits in
/-- In both modes the number in the end is that of all records. -/
theorem numberAt_final (mode : Mode) {cs : List (List Record)} (some_ : cs ≠ [])
    (known : ∀ r ∈ cs.flatten, aggregations r.name = some r.value.shape) (k : SeriesKey) :
    numberAt (final mode ((empty mode).batches cs)) k = numberAt cs.flatten k := by
  cases mode with
  | stateless => exact numberAt_batches_stateless fits cs known k
  | stateful =>
    obtain ⟨before, rs, rfl⟩ := (List.eq_nil_or_concat' cs).resolve_left some_
    rw [final_stateful_concat]
    exact numberAt_cycle fits before rs known k

include fits in
/-- In both modes sums of integers in the end are those of all records. -/
theorem sumsTo_final (mode : Mode) {cs : List (List Record)} (some_ : cs ≠ [])
    (known : ∀ r ∈ cs.flatten, aggregations r.name = some r.value.shape)
    (sums : ∀ r ∈ seen cs k, r.descriptor = d ∧ r.value.IntegerSum)
    (bound : Number.magnitude ((seen cs k).map fun r => r.value.total) ≤ Number.limit) :
    SumsTo (final mode ((empty mode).batches cs)) k (amountAt cs.flatten k) := by
  cases mode with
  | stateless =>
    exact ⟨integerSum_batches_stateless fits cs known fun r member => (sums r member).2,
      exactSum_reports cs sums bound⟩
  | stateful =>
    obtain ⟨before, rs, rfl⟩ := (List.eq_nil_or_concat' cs).resolve_left some_
    rw [final_stateful_concat]
    exact sumsTo_cycle fits before rs known (fun r member => (sums r member).2) bound

end Configured

end Metering.Processor
