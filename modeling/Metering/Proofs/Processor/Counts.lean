import Metering.Proofs.Aggregate.Fold
import Metering.Proofs.Processor.Running

/-!
# Totals that only grow

Sums of integers that are not negative may be merged in any portions, cut off at the limit wherever
it is reached: what a processor with memory reports of them is their sum, cut off at the limit once.
-/

namespace Metering

namespace Aggregate

variable {a b c : Aggregate}

/-- A sum of integers that is not negative. -/
structure Count (a : Aggregate) : Prop where
  eq : a = .sum a.total
  integral : a.total.kind = .int64
  nonneg : 0 ≤ a.total.amount

/-- The exact sum of some counts. -/
def exactSum (counts : List Aggregate) : Int := Number.exactSum (counts.map total)

theorem exactSum_append (counts counts' : List Aggregate) :
    exactSum (counts ++ counts') = exactSum counts + exactSum counts' := by
  rw [exactSum, List.map_append, Number.exactSum_append]
  rfl

theorem exactSum_nonneg {counts : List Aggregate} (nonneg : ∀ b ∈ counts, b.Count) :
    0 ≤ exactSum counts := by
  refine Number.exactSum_nonneg fun n member => ?_
  obtain ⟨b, among, rfl⟩ := List.mem_map.1 member
  exact (nonneg b among).nonneg

theorem foldl_update_sum (ns : List Number) : ∀ n : Number,
    ns.foldl update (sum n) = sum (ns.foldl Number.add n) := by
  induction ns with
  | nil => exact fun _ => rfl
  | cons m rest ih => exact fun n => ih (n.add m)

/-- Integers that are not negative are counted up to the limit. -/
theorem count_ofValues {ns : List Number} (kinds : ∀ n ∈ ns, n.kind = .int64)
    (signs : ∀ n ∈ ns, 0 ≤ n.amount) :
    (ofValues .int64 .sum ns).Count ∧
      (ofValues .int64 .sum ns).total.amount = Min.min Number.limit (Number.exactSum ns) := by
  have start : 0 ≤ (Number.zero .int64).amount := Int.le_refl 0
  have sums : ofValues .int64 .sum ns = sum (ns.foldl Number.add (.zero .int64)) :=
    foldl_update_sum ns _
  have amount : (ns.foldl Number.add (.zero .int64)).amount =
      Min.min Number.limit (Number.exactSum ns) := by
    rw [Number.amount_foldl_add_of_nonneg kinds signs rfl start]
    exact congrArg (Min.min Number.limit) (Int.zero_add _)
  have nonneg : 0 ≤ (ns.foldl Number.add (.zero .int64)).amount := by
    have := Number.limit_pos
    have := Number.exactSum_nonneg signs
    omega
  rw [sums]
  exact ⟨⟨rfl, Number.kind_foldl_add kinds rfl, nonneg⟩, amount⟩

theorem mergeAll_sum (ns : List Number) : ∀ n : Number,
    (sum n).mergeAll (ns.map sum) = .ok (ns.foldl update (sum n)) := by
  induction ns with
  | nil => exact fun _ => rfl
  | cons m rest ih => exact fun n => ih (n.add m)

/-- Sums merge to what their totals add up to. -/
theorem ofValues_of_mergeAll {sums : List Aggregate} (each : ∀ b ∈ sums, b = .sum b.total)
    (merged : (empty .int64 .sum).mergeAll sums = .ok c) :
    c = ofValues .int64 .sum (sums.map total) := by
  have same : sums = (sums.map total).map sum := by
    rw [List.map_map]
    calc sums = sums.map id := (List.map_id sums).symm
      _ = sums.map (sum ∘ total) := List.map_congr_left fun b among => each b among
  rw [same] at merged
  exact (Except.ok.inj ((mergeAll_sum (sums.map total) (.zero .int64)).symm.trans merged)).symm

/-- Counts merge to their sum, or to the limit. -/
theorem mergeAll_counts (counts : List Aggregate) (each : ∀ b ∈ counts, b.Count)
    (merged : (empty .int64 .sum).mergeAll counts = .ok c) :
    c.Count ∧ c.total.amount = Min.min Number.limit (exactSum counts) := by
  have totals : ∀ n ∈ counts.map total, n.kind = .int64 ∧ 0 ≤ n.amount := by
    intro n member
    obtain ⟨b, among, rfl⟩ := List.mem_map.1 member
    exact ⟨(each b among).integral, (each b among).nonneg⟩
  rw [ofValues_of_mergeAll (fun b among => (each b among).eq) merged]
  exact count_ofValues (fun n member => (totals n member).1) fun n member => (totals n member).2

/-- Portions of integers that are not negative are counted, portion by portion, to their sum or to
the limit. -/
theorem exactSum_portions {portions : List (List Number)}
    (kinds : ∀ n ∈ portions.flatten, n.kind = .int64)
    (signs : ∀ n ∈ portions.flatten, 0 ≤ n.amount) :
    Min.min Number.limit (exactSum (portions.map (ofValues .int64 .sum))) =
      Min.min Number.limit (Number.exactSum portions.flatten) := by
  induction portions with
  | nil => rfl
  | cons ns rest ih =>
    rw [List.flatten_cons] at kinds signs ⊢
    have here := fun n member => signs n (List.mem_append_left _ member)
    have there := fun n member => signs n (List.mem_append_right _ member)
    obtain ⟨count, amount⟩ :=
      count_ofValues (fun n member => kinds n (List.mem_append_left _ member)) here
    have others := ih (fun n member => kinds n (List.mem_append_right _ member)) there
    have cut : exactSum ((ns :: rest).map (ofValues .int64 .sum)) =
        (ofValues .int64 .sum ns).total.amount + exactSum (rest.map (ofValues .int64 .sum)) := rfl
    have := Number.exactSum_nonneg here
    have := Number.exactSum_nonneg there
    have : 0 ≤ exactSum (rest.map (ofValues .int64 .sum)) := by
      refine exactSum_nonneg fun b member => ?_
      obtain ⟨ms, among, rfl⟩ := List.mem_map.1 member
      exact (count_ofValues
        (fun n held => kinds n (List.mem_append_right _ (List.mem_flatten.2 ⟨ms, among, held⟩)))
        fun n held => there n (List.mem_flatten.2 ⟨ms, among, held⟩)).1
    rw [cut, amount, Number.exactSum_append]
    omega

end Aggregate

namespace Processor

variable {k : SeriesKey} {d : Descriptor}

/-- Counts of one descriptor are records of one series of integers. -/
theorem uniform_of_counts {rs : List Record}
    (counts : ∀ r ∈ rs, r.descriptor = d ∧ r.value.Count) : Uniform rs where
  descriptor r member r' member' := (counts r member).1.trans (counts r' member').1.symm
  integral r member := by
    rw [(counts r member).2.eq]
    exact (counts r member).2.integral
  fits r member r' member' := by
    rw [(counts r member).2.eq, (counts r' member').2.eq]
    trivial

/-- What the processor without memory reports of counts adds up to what they do. -/
theorem reports_of_counts (cs : List (List Record))
    (counts : ∀ r ∈ seen cs k, r.descriptor = d ∧ r.value.Count) :
    (∀ a ∈ reports cs k, a.Count) ∧
      Min.min Number.limit (Aggregate.exactSum (reports cs k)) =
        Min.min Number.limit (Aggregate.exactSum ((seen cs k).map Record.value)) := by
  induction cs using List.reverseRecOn with
  | nil => exact ⟨fun _ none_ => (nomatch none_), rfl⟩
  | append_singleton cs rs ih =>
    rw [seen_concat] at counts
    obtain ⟨each, alike⟩ := ih fun r member => counts r (List.mem_append_left _ member)
    have new : ∀ r ∈ rs.filter (fun r => r.key = k), r.descriptor = d ∧ r.value.Count :=
      fun r member => counts r (List.mem_append_right _ member)
    rw [reports_concat, seen_concat]
    rcases cycle_stateless (uniform_of_counts new) with
      ⟨idle, quiet⟩ | ⟨first, rest, report, busy, told, merged⟩
    · rw [idle, quiet, List.map_nil, List.append_nil, List.append_nil]
      exact ⟨each, alike⟩
    · rw [busy] at new ⊢
      have values : ∀ b ∈ (first :: rest).map Record.value, b.Count := by
        intro b member
        obtain ⟨r, among, rfl⟩ := List.mem_map.1 member
        exact (new r among).2
      have shape : first.value.shape = .sum := by
        rw [(new first List.mem_cons_self).2.eq]
        rfl
      rw [shape] at merged
      obtain ⟨count, amount⟩ := Aggregate.mergeAll_counts _ values merged
      rw [told, List.map_singleton, List.map_append, Aggregate.exactSum_append,
        Aggregate.exactSum_append]
      refine ⟨fun a member => ?_, ?_⟩
      · rcases List.mem_append.1 member with old | last
        · exact each a old
        · rw [List.mem_singleton.1 last]
          exact count
      · have single : Aggregate.exactSum [report.value] = report.value.total.amount :=
          Int.add_zero _
        have := Aggregate.exactSum_nonneg each
        have := Aggregate.exactSum_nonneg values
        have old : ∀ b ∈ (seen cs k).map Record.value, b.Count := by
          intro b member
          obtain ⟨r, among, rfl⟩ := List.mem_map.1 member
          exact (counts r (List.mem_append_left _ among)).2
        have := Aggregate.exactSum_nonneg old
        rw [single, amount]
        omega

/-- With memory, a series of counts is reported once in every batch, from its first record on, with
their sum or the limit. -/
theorem reported_of_counts (cs : List (List Record)) (rs : List Record)
    (counts : ∀ r ∈ seen (cs ++ [rs]) k, r.descriptor = d ∧ r.value.Count) :
    let batch := (((empty .stateful).after cs).cycle rs).1
    (seen (cs ++ [rs]) k = [] ∧ batch.filter (fun r => r.key = k) = []) ∨
    (seen (cs ++ [rs]) k ≠ [] ∧ ∃ report, batch.filter (fun r => r.key = k) = [report] ∧
      report.value.Count ∧ report.value.total.amount =
        Min.min Number.limit (Aggregate.exactSum ((seen (cs ++ [rs]) k).map Record.value))) := by
  intro batch
  rcases reported_of_uniform cs rs (uniform_of_counts counts) with
    silent | ⟨first, report, t, told, holds, -, -⟩
  · exact Or.inl silent
  · obtain ⟨each, alike⟩ := reports_of_counts (cs ++ [rs]) counts
    have shape : first.value.shape = .sum := by
      rw [(counts first holds.first_mem).2.eq]
      rfl
    have merged := holds.merged
    rw [shape] at merged
    obtain ⟨count, amount⟩ := Aggregate.mergeAll_counts _ each merged
    exact Or.inr ⟨List.ne_nil_of_mem holds.first_mem, report, told, count, amount.trans alike⟩

end Processor

end Metering
