import Metering.Proofs.Aggregate.Tally

/-!
# Aggregating in parts

Values may be aggregated in parts that are merged afterwards, part with part, in any tree. What
comes of it tallies the values of all parts, and while their magnitudes together stay within the
range it has their sum; so it is the aggregate of the values taken one after the other, in whatever
order. Beyond the range only the sums may differ, because a sum that is cut off does not go back.
-/

namespace Metering.Aggregate

/-- Values that are aggregated part by part, and how the parts are merged. -/
inductive Parts
  | part (vs : List Number)
  | merged (left right : Parts)

namespace Parts

/-- The values of all parts. -/
def values : Parts → List Number
  | part vs => vs
  | merged left right => left.values ++ right.values

/-- What the aggregates of the parts are merged to. -/
def aggregate (kind : NumberKind) (aggregation : Aggregation) : Parts → Except Error Aggregate
  | part vs => .ok (ofValues kind aggregation vs)
  | merged left right =>
    match left.aggregate kind aggregation, right.aggregate kind aggregation with
    | .ok a, .ok b => a.merge b
    | .error e, _ => .error e
    | _, .error e => .error e

end Parts

variable {a b c : Aggregate} {vs ws : List Number}

theorem kind_total (integral : a.Integral) : a.total.kind = .int64 := by
  cases a with
  | sum total => exact integral
  | minMaxSumCount m => exact integral.2.2
  | histogram h => exact integral.2
  | sketch s => exact integral.2.2

/-- What is known of an aggregate that some integers came to in parts. -/
structure Gathers (a : Aggregate) (aggregation : Aggregation) (vs : List Number) : Prop where
  integral : a.Integral
  shape : a.shape = aggregation
  tallies : a.Tallies vs
  total : Number.magnitude vs ≤ Number.limit → a.total.amount = Number.exactSum vs

theorem gathers_ofValues (aggregation : Aggregation) (integers : ∀ v ∈ vs, v.kind = .int64) :
    (ofValues .int64 aggregation vs).Gathers aggregation vs := by
  have finite : ∀ v ∈ vs, v.isFinite = true :=
    fun v member => Number.isFinite_of_integer (integers v member)
  exact ⟨integral_ofValues aggregation integers, shape_ofValues .int64 aggregation vs,
    tallies_ofValues aggregation integers finite, amount_ofValues aggregation integers finite⟩

/-- Two parts merge to what gathers the values of both. -/
theorem Gathers.merge {aggregation : Aggregation} (fits : aggregation.Fits aggregation)
    (left : a.Gathers aggregation vs) (right : b.Gathers aggregation ws)
    (integers : ∀ v ∈ vs, v.kind = .int64) (integers' : ∀ v ∈ ws, v.kind = .int64) :
    ∃ c, a.merge b = .ok c ∧ c.Gathers aggregation (vs ++ ws) := by
  obtain ⟨c, merged, integral, shape⟩ :=
    merge_spec left.integral right.integral (by rw [left.shape, right.shape]; exact fits)
  have same : a.shape = b.shape := left.shape.trans right.shape.symm
  refine ⟨c, merged, integral, shape.trans left.shape,
    left.tallies.merge right.tallies same integers integers' merged, fun bound => ?_⟩
  rw [Number.magnitude_append] at bound
  have := Number.magnitude_nonneg vs
  have := Number.magnitude_nonneg ws
  have first := left.total (by omega)
  have second := right.total (by omega)
  have := Number.natAbs_exactSum_le vs
  have := Number.natAbs_exactSum_le ws
  rw [(merge_keeps merged).2,
    Number.amount_add (kind_total left.integral) (kind_total right.integral),
    Number.exactSum_append, first, second]
  omega

/-- Whatever the tree, the parts merge. -/
theorem gathers_aggregate {aggregation : Aggregation} (fits : aggregation.Fits aggregation)
    (parts : Parts) (integers : ∀ v ∈ parts.values, v.kind = .int64) :
    ∃ a, parts.aggregate .int64 aggregation = .ok a ∧ a.Gathers aggregation parts.values := by
  induction parts with
  | part vs => exact ⟨_, rfl, gathers_ofValues aggregation integers⟩
  | merged left right ihLeft ihRight =>
    have integersLeft : ∀ v ∈ left.values, v.kind = .int64 :=
      fun v member => integers v (List.mem_append_left _ member)
    have integersRight : ∀ v ∈ right.values, v.kind = .int64 :=
      fun v member => integers v (List.mem_append_right _ member)
    obtain ⟨a, first, gathersLeft⟩ := ihLeft integersLeft
    obtain ⟨b, second, gathersRight⟩ := ihRight integersRight
    obtain ⟨c, merged, gathers⟩ := gathersLeft.merge fits gathersRight integersLeft integersRight
    refine ⟨c, ?_, gathers⟩
    rw [Parts.aggregate, first, second]
    exact merged

/-- What gathers the same integers is the same but for the sum, and the same if the integers do not
leave the range. -/
theorem Gathers.eq {aggregation : Aggregation} (left : a.Gathers aggregation vs)
    (right : b.Gathers aggregation ws) (perm : vs.Perm ws)
    (integers : ∀ v ∈ vs, v.kind = .int64) :
    a = b.withTotal a.total ∧ (Number.magnitude ws ≤ Number.limit → a = b) := by
  have alike : a = b.withTotal a.total :=
    tallies_unique left.tallies (right.tallies.perm perm.symm) (left.shape.trans right.shape.symm)
      integers
  refine ⟨alike, fun bound => ?_⟩
  have amounts : a.total.amount = b.total.amount := by
    rw [left.total (by rw [Number.magnitude_perm perm]; exact bound), right.total bound,
      Number.exactSum_perm perm]
  have totals : a.total = b.total :=
    Number.eq_of_amount (kind_total left.integral) (kind_total right.integral) amounts
  rw [alike, totals, withTotal_total]

/-- Integers that are aggregated in parts, however they are split among the parts and in whatever
tree and order the parts are merged, come to the aggregate of all of them but for the sum; and to its
sum as well, if their magnitudes together stay within the range. -/
theorem parts_merge_to_whole (aggregation : Aggregation) (accepted : aggregation.validate = .ok ())
    (vs : List Int64) (parts : Parts) (split : parts.values.Perm (vs.map .integer)) :
    ∃ a, parts.aggregate .int64 aggregation = .ok a ∧
      (∃ total, a = (ofValues .int64 aggregation (vs.map .integer)).withTotal total) ∧
      (Number.magnitude (vs.map .integer) ≤ Number.limit →
        a = ofValues .int64 aggregation (vs.map .integer)) := by
  have whole : ∀ v ∈ vs.map Number.integer, v.kind = .int64 := by
    intro v member
    obtain ⟨x, -, rfl⟩ := List.mem_map.1 member
    rfl
  have integers : ∀ v ∈ parts.values, v.kind = .int64 :=
    fun v member => whole v (split.mem_iff.1 member)
  obtain ⟨a, merged, gathers⟩ :=
    gathers_aggregate (Aggregation.fits_self accepted) parts integers
  obtain ⟨alike, same⟩ := gathers.eq (gathers_ofValues aggregation whole) split integers
  exact ⟨a, merged, ⟨a.total, alike⟩, same⟩

/-- Four integers in three parts, of which one is empty, merged in another order than they came. -/
theorem histogram_parts_merge :
    let parts := Parts.merged (.merged (.part [.integer 12, .integer 5]) (.part []))
      (.part [.integer (-3), .integer 5])
    (Aggregation.histogram [0.0, 10.0]).validate = .ok () ∧
      parts.values.Perm ([5, -3, 5, 12].map .integer) ∧
      ∃ h, parts.aggregate .int64 (.histogram [0.0, 10.0]) = .ok (.histogram h) ∧
        h.counts = [1, 2, 1] ∧ h.sum = .integer 19 := by
  intro parts
  have accepted : (Aggregation.histogram [0.0, 10.0]).validate = .ok () := by rfl
  have split : parts.values.Perm ([5, -3, 5, 12].map .integer) := by decide
  obtain ⟨a, merged, -, same⟩ := parts_merge_to_whole _ accepted _ parts split
  have whole : ofValues .int64 (.histogram [0.0, 10.0]) ([5, -3, 5, 12].map .integer) =
      .histogram ⟨[0.0, 10.0], [1, 2, 1], .integer 19, 4⟩ := by decide +kernel
  rw [same (by decide), whole] at merged
  exact ⟨accepted, split, _, merged, rfl, rfl⟩

end Metering.Aggregate
