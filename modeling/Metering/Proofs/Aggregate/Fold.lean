import Mathlib.Data.List.Induction
import Metering.Aggregate.Aggregator
import Metering.Proofs.Number

/-!
# Aggregates of lists of values

`Aggregate.ofValues` is what an aggregate comes to that is updated with some values one after the
other. Its number and its sum can be read off the values, and a reset takes it back to the empty
aggregate that it started from.
-/

namespace Metering.Aggregate

variable {a : Aggregate} {kind : NumberKind} {aggregation : Aggregation} {v : Number}
  {vs : List Number}

/-- The aggregate of some values. -/
def ofValues (kind : NumberKind) (aggregation : Aggregation) (vs : List Number) : Aggregate :=
  vs.foldl update (empty kind aggregation)

/-- The number of the values, for the families that keep it. -/
def number? : Aggregate → Option Nat
  | sum _ => none
  | minMaxSumCount m => some m.count
  | histogram h => some h.count
  | sketch s => some s.count

/-- The sum of the values. -/
def total : Aggregate → Number
  | sum total => total
  | minMaxSumCount m => m.sum
  | histogram h => h.sum
  | sketch s => s.sum

theorem ofValues_concat (vs : List Number) (v : Number) :
    ofValues kind aggregation (vs ++ [v]) = (ofValues kind aggregation vs).update v := by
  rw [ofValues, List.foldl_append]
  rfl

/-! ## What an update leaves as it is -/

theorem numberKind_eq_kind_total (a : Aggregate) : a.numberKind = a.total.kind := by
  cases a <;> rfl

theorem total_empty (kind : NumberKind) (aggregation : Aggregation) :
    (empty kind aggregation).total = .zero kind := by
  cases aggregation <;> rfl

theorem numberKind_empty (kind : NumberKind) (aggregation : Aggregation) :
    (empty kind aggregation).numberKind = kind := by
  rw [numberKind_eq_kind_total, total_empty, Number.kind_zero]

theorem reset_empty (kind : NumberKind) (aggregation : Aggregation) :
    (empty kind aggregation).reset = empty kind aggregation := by
  cases aggregation with
  | sum => exact congrArg sum (congrArg Number.zero (Number.kind_zero kind))
  | minMaxSumCount =>
    exact congrArg minMaxSumCount (congrArg MinMaxSumCount.empty (Number.kind_zero kind))
  | histogram boundaries =>
    have zero : Number.zero (Number.zero kind).kind = Number.zero kind := by rw [Number.kind_zero]
    simp only [empty, reset, Histogram.reset, Histogram.empty, List.map_replicate, zero]
  | sketch accuracy =>
    exact congrArg sketch (congrArg (Sketch.empty accuracy) (Number.kind_zero kind))

theorem total_update (finite : v.isFinite = true) : (a.update v).total = a.total.add v := by
  cases a with
  | sum total => rfl
  | minMaxSumCount m => rfl
  | histogram h => rfl
  | sketch s =>
    have held := Number.isFinite_toFloat finite
    simp only [update, Sketch.update, held]
    rfl

theorem number?_update (finite : v.isFinite = true) :
    (a.update v).number? = a.number?.map (· + 1) := by
  cases a with
  | sum total => rfl
  | minMaxSumCount m => rfl
  | histogram h => rfl
  | sketch s =>
    have held := Number.isFinite_toFloat finite
    simp only [update, Sketch.update, held]
    rfl

theorem numberKind_update (same : v.kind = a.numberKind) :
    (a.update v).numberKind = a.numberKind := by
  cases a with
  | sum total => exact Number.kind_add same
  | minMaxSumCount m => exact Number.kind_add same
  | histogram h => exact Number.kind_add same
  | sketch s =>
    simp only [update, Sketch.update]
    split
    · rfl
    · exact Number.kind_add same

theorem accuracy_update (s : Sketch) (v : Number) : (s.update v).accuracy = s.accuracy := by
  unfold Sketch.update
  simp only
  split
  · rfl
  · split
    · rfl
    · split <;> rfl

/-- An update keeps the configuration, so a reset does not see it. -/
theorem reset_update (same : v.kind = a.numberKind) : (a.update v).reset = a.reset := by
  cases a with
  | sum total => exact congrArg (fun k => sum (Number.zero k)) (Number.kind_add same)
  | minMaxSumCount m =>
    exact congrArg (fun k => minMaxSumCount (MinMaxSumCount.empty k)) (Number.kind_add same)
  | histogram h =>
    have kinds : (h.sum.add v).kind = h.sum.kind := Number.kind_add same
    simp only [update, reset, Histogram.reset, Histogram.update, List.map_const',
      List.length_modify, kinds]
  | sketch s =>
    have kinds : (s.update v).sum.kind = s.sum.kind := numberKind_update (a := sketch s) same
    simp only [update, reset, Sketch.reset, accuracy_update, kinds]

/-! ## Values of one kind -/

theorem numberKind_ofValues (aggregation : Aggregation) (kinds : ∀ v ∈ vs, v.kind = kind) :
    (ofValues kind aggregation vs).numberKind = kind := by
  induction vs using List.reverseRecOn with
  | nil => exact numberKind_empty kind aggregation
  | append_singleton vs v ih =>
    have before := ih fun v' member => kinds v' (List.mem_append_left _ member)
    have here : v.kind = kind := kinds v (List.mem_append_right _ (List.mem_singleton_self v))
    rw [ofValues_concat, numberKind_update (here.trans before.symm), before]

/-- After a reset, an aggregate of values is as it was before the first one. -/
theorem reset_ofValues (aggregation : Aggregation) (kinds : ∀ v ∈ vs, v.kind = kind) :
    (ofValues kind aggregation vs).reset = empty kind aggregation := by
  induction vs using List.reverseRecOn with
  | nil => exact reset_empty kind aggregation
  | append_singleton vs v ih =>
    have before : ∀ v' ∈ vs, v'.kind = kind :=
      fun v' member => kinds v' (List.mem_append_left _ member)
    have here : v.kind = kind := kinds v (List.mem_append_right _ (List.mem_singleton_self v))
    rw [ofValues_concat,
      reset_update (here.trans (numberKind_ofValues aggregation before).symm), ih before]

theorem total_ofValues (kind : NumberKind) (aggregation : Aggregation)
    (finite : ∀ v ∈ vs, v.isFinite = true) :
    (ofValues kind aggregation vs).total = vs.foldl Number.add (.zero kind) := by
  induction vs using List.reverseRecOn with
  | nil => exact total_empty kind aggregation
  | append_singleton vs v ih =>
    have here : v.isFinite = true := finite v (List.mem_append_right _ (List.mem_singleton_self v))
    rw [ofValues_concat, total_update here,
      ih fun v' member => finite v' (List.mem_append_left _ member), List.foldl_append]
    rfl

theorem number?_empty (kind : NumberKind) (aggregation : Aggregation) :
    (empty kind aggregation).number? = if aggregation.kind = .sum then none else some 0 := by
  cases aggregation <;> rfl

/-- An aggregate that keeps the number of its values has the right one. -/
theorem number?_ofValues (kind : NumberKind) (aggregation : Aggregation)
    (finite : ∀ v ∈ vs, v.isFinite = true) :
    (ofValues kind aggregation vs).number? =
      if aggregation.kind = .sum then none else some vs.length := by
  induction vs using List.reverseRecOn with
  | nil => exact number?_empty kind aggregation
  | append_singleton vs v ih =>
    have here : v.isFinite = true := finite v (List.mem_append_right _ (List.mem_singleton_self v))
    rw [ofValues_concat, number?_update here,
      ih fun v' member => finite v' (List.mem_append_left _ member), List.length_append]
    split <;> rfl

/-! ## Portions -/

theorem number_ofValues (kind : NumberKind) (other : aggregation ≠ .sum)
    (finite : ∀ v ∈ vs, v.isFinite = true) :
    (ofValues kind aggregation vs).number?.getD 0 = vs.length := by
  have counts : aggregation.kind ≠ .sum := by
    cases aggregation <;> first | exact absurd rfl other | exact AggregateKind.noConfusion
  rw [number?_ofValues kind aggregation finite, if_neg counts]
  rfl

theorem amount_ofValues (aggregation : Aggregation) (kinds : ∀ v ∈ vs, v.kind = .int64)
    (finite : ∀ v ∈ vs, v.isFinite = true) (bound : Number.magnitude vs ≤ Number.limit) :
    (ofValues .int64 aggregation vs).total.amount = Number.exactSum vs := by
  rw [total_ofValues .int64 aggregation finite, Number.amount_foldl_add kinds rfl]
  · exact Int.zero_add _
  · simpa [Number.zero, Number.amount] using bound

/-- The numbers of the values of some portions add up. -/
theorem sum_number_portions (kind : NumberKind) (other : aggregation ≠ .sum)
    {portions : List (List Number)} (finite : ∀ v ∈ portions.flatten, v.isFinite = true) :
    ((portions.map (ofValues kind aggregation)).map fun a => a.number?.getD 0).sum =
      portions.flatten.length := by
  induction portions with
  | nil => rfl
  | cons vs rest ih =>
    rw [List.flatten_cons] at finite
    rw [List.map_cons, List.map_cons, List.sum_cons, List.flatten_cons, List.length_append,
      number_ofValues kind other fun v member => finite v (List.mem_append_left _ member),
      ih fun v member => finite v (List.mem_append_right _ member)]

/-- While all values together stay within the range, the sums of some portions add up. -/
theorem sum_amount_portions (aggregation : Aggregation) {portions : List (List Number)}
    (kinds : ∀ v ∈ portions.flatten, v.kind = .int64)
    (finite : ∀ v ∈ portions.flatten, v.isFinite = true)
    (bound : Number.magnitude portions.flatten ≤ Number.limit) :
    ((portions.map (ofValues .int64 aggregation)).map fun a => a.total.amount).sum =
      Number.exactSum portions.flatten := by
  induction portions with
  | nil => rfl
  | cons vs rest ih =>
    rw [List.flatten_cons] at kinds finite bound
    rw [Number.magnitude_append] at bound
    have first := Number.magnitude_nonneg vs
    have others := Number.magnitude_nonneg rest.flatten
    rw [List.map_cons, List.map_cons, List.sum_cons, List.flatten_cons, Number.exactSum_append,
      amount_ofValues aggregation (fun v member => kinds v (List.mem_append_left _ member))
        (fun v member => finite v (List.mem_append_left _ member)) (by omega),
      ih (fun v member => kinds v (List.mem_append_right _ member))
        (fun v member => finite v (List.mem_append_right _ member)) (by omega)]

end Metering.Aggregate
