import Metering.Proofs.Processor.Counts

/-!
# Totals within the range

Integers of either sign may be merged in any portions as long as their magnitudes together stay
within the range, because then no sum of some of them is cut off. What a processor without memory
reports of them in its cycles therefore adds up to what they add up to.
-/

namespace Metering

namespace Aggregate

variable {a b c : Aggregate}

/-- A sum of integers. -/
structure IntegerSum (a : Aggregate) : Prop where
  eq : a = .sum a.total
  integral : a.total.kind = .int64

theorem integerSum_ofValues {ns : List Number} (kinds : ∀ n ∈ ns, n.kind = .int64) :
    (ofValues .int64 .sum ns).IntegerSum := by
  have sums : ofValues .int64 .sum ns = sum (ns.foldl Number.add (.zero .int64)) :=
    foldl_update_sum ns _
  rw [sums]
  exact ⟨rfl, Number.kind_foldl_add kinds rfl⟩

/-- Sums of integers are reset to the empty one. -/
theorem IntegerSum.reset (sum : a.IntegerSum) : a.reset = empty .int64 .sum := by
  rw [sum.eq, Aggregate.reset, sum.integral]
  rfl

theorem kind_of_integerSums {sums : List Aggregate} (each : ∀ b ∈ sums, b.IntegerSum) :
    ∀ n ∈ sums.map total, n.kind = .int64 := by
  intro n member
  obtain ⟨b, among, rfl⟩ := List.mem_map.1 member
  exact (each b among).integral

theorem integerSum_mergeAll {sums : List Aggregate} (each : ∀ b ∈ sums, b.IntegerSum)
    (merged : (empty .int64 .sum).mergeAll sums = .ok c) : c.IntegerSum := by
  rw [ofValues_of_mergeAll (fun b among => (each b among).eq) merged]
  exact integerSum_ofValues (kind_of_integerSums each)

/-- Sums within the range merge to their sum. -/
theorem mergeAll_integerSums {sums : List Aggregate} (each : ∀ b ∈ sums, b.IntegerSum)
    (bound : Number.magnitude (sums.map total) ≤ Number.limit)
    (merged : (empty .int64 .sum).mergeAll sums = .ok c) : c.total.amount = exactSum sums := by
  have kinds := kind_of_integerSums each
  rw [ofValues_of_mergeAll (fun b among => (each b among).eq) merged]
  exact amount_ofValues .sum kinds (fun n member => Number.isFinite_of_integer (kinds n member)) bound

/-- The sums of portions are together no greater than what is in the portions. -/
theorem magnitude_portions (aggregation : Aggregation) {portions : List (List Number)}
    (kinds : ∀ n ∈ portions.flatten, n.kind = .int64)
    (bound : Number.magnitude portions.flatten ≤ Number.limit) :
    Number.magnitude ((portions.map (ofValues .int64 aggregation)).map total) ≤
      Number.magnitude portions.flatten := by
  induction portions with
  | nil => exact Int.le_refl _
  | cons ns rest ih =>
    rw [List.flatten_cons] at kinds bound ⊢
    rw [Number.magnitude_append] at bound ⊢
    have here := fun n member => kinds n (List.mem_append_left _ member)
    have nonneg := Number.magnitude_nonneg ns
    have nonneg' := Number.magnitude_nonneg rest.flatten
    have others := ih (fun n member => kinds n (List.mem_append_right _ member)) (by omega)
    have amount := amount_ofValues aggregation here
      (fun n member => Number.isFinite_of_integer (here n member)) (by omega)
    have near := Number.natAbs_exactSum_le ns
    rw [← amount] at near
    exact Int.add_le_add near others

end Aggregate

namespace Processor

variable {k : SeriesKey} {d : Descriptor}

/-- Sums of integers of one descriptor are records of one series of integers. -/
theorem uniform_of_sums {rs : List Record}
    (sums : ∀ r ∈ rs, r.descriptor = d ∧ r.value.IntegerSum) : Uniform rs where
  descriptor r member r' member' := (sums r member).1.trans (sums r' member').1.symm
  integral r member := by
    rw [(sums r member).2.eq]
    exact (sums r member).2.integral
  fits r member r' member' := by
    rw [(sums r member).2.eq, (sums r' member').2.eq]
    trivial

/-- What the processor without memory reports of sums within the range adds up to what they do. -/
theorem exactSum_reports (cs : List (List Record))
    (sums : ∀ r ∈ seen cs k, r.descriptor = d ∧ r.value.IntegerSum)
    (bound : Number.magnitude ((seen cs k).map fun r => r.value.total) ≤ Number.limit) :
    Aggregate.exactSum (reports cs k) = Aggregate.exactSum ((seen cs k).map Record.value) := by
  induction cs using List.reverseRecOn with
  | nil => rfl
  | append_singleton cs rs ih =>
    rw [seen_concat] at sums bound
    rw [List.map_append, Number.magnitude_append] at bound
    have old := Number.magnitude_nonneg ((seen cs k).map fun r => r.value.total)
    have new := Number.magnitude_nonneg ((rs.filter fun r => r.key = k).map fun r => r.value.total)
    have before := ih (fun r member => sums r (List.mem_append_left _ member)) (by omega)
    have own : ∀ r ∈ rs.filter (fun r => r.key = k), r.descriptor = d ∧ r.value.IntegerSum :=
      fun r member => sums r (List.mem_append_right _ member)
    rw [reports_concat, seen_concat, List.map_append, Aggregate.exactSum_append,
      Aggregate.exactSum_append, before]
    refine congrArg (Aggregate.exactSum ((seen cs k).map Record.value) + ·) ?_
    rcases cycle_stateless (uniform_of_sums own) with
      ⟨idle, quiet⟩ | ⟨first, rest, report, busy, told, merged⟩
    · rw [idle, quiet]
    · rw [busy] at own new bound
      have shape : first.value.shape = .sum := by
        rw [(own first List.mem_cons_self).2.eq]
        rfl
      have each : ∀ b ∈ (first :: rest).map Record.value, b.IntegerSum := by
        intro b member
        obtain ⟨r, among, rfl⟩ := List.mem_map.1 member
        exact (own r among).2
      have totals : ((first :: rest).map Record.value).map Aggregate.total =
          (first :: rest).map fun r => r.value.total := List.map_map
      rw [shape] at merged
      have amount := Aggregate.mergeAll_integerSums each (by rw [totals]; omega) merged
      rw [told, busy, ← amount]
      exact Int.add_zero _

end Processor

end Metering
