import Metering.Proofs.Aggregate.Parts

/-!
# The order of merges

Two aggregators of integers merge to the same aggregate in either order, and of three only the sum
can depend on which two are merged first. It does where the sum of two is cut off at a limit of the
range and the third leads away from that limit: what was cut off is then missing.
-/

namespace Metering

namespace Number

variable {a b c : Number}

/-- A third amount does not lead a sum of two back that is cut off. -/
def StaysCut (x y z : Int) : Prop := (limit < x + y → 0 ≤ z) ∧ (x + y < -limit - 1 → z ≤ 0)

theorem add_comm_integers (left : a.kind = .int64) (right : b.kind = .int64) :
    a.add b = b.add a := by
  refine eq_of_amount ((kind_add (right.trans left.symm)).trans left)
    ((kind_add (left.trans right.symm)).trans right) ?_
  rw [amount_add left right, amount_add right left, Int.add_comm]

/-- The sum of two integers is exact, or it is the limit that is passed. -/
theorem amount_add_cases (left : a.kind = .int64) (right : b.kind = .int64) :
    -limit - 1 ≤ a.amount + b.amount ∧ a.amount + b.amount ≤ limit ∧
        (a.add b).amount = a.amount + b.amount ∨
      limit < a.amount + b.amount ∧ (a.add b).amount = limit ∨
      a.amount + b.amount < -limit - 1 ∧ (a.add b).amount = -limit - 1 := by
  have := amount_add left right
  have := limit_pos
  omega

/-- Three integers add up to the same in both ways exactly if neither way cuts off what the third
would have led back. -/
theorem add_assoc_iff (first : a.kind = .int64) (second : b.kind = .int64)
    (third : c.kind = .int64) :
    (a.add b).add c = a.add (b.add c) ↔
      StaysCut a.amount b.amount c.amount ∧ StaysCut c.amount b.amount a.amount := by
  have kindLeft : (a.add b).kind = .int64 := (kind_add (second.trans first.symm)).trans first
  have kindRight : (b.add c).kind = .int64 := (kind_add (third.trans second.symm)).trans second
  have amounts : (a.add b).add c = a.add (b.add c) ↔
      ((a.add b).add c).amount = (a.add (b.add c)).amount :=
    ⟨congrArg amount, eq_of_amount ((kind_add (third.trans kindLeft.symm)).trans kindLeft)
      ((kind_add (kindRight.trans first.symm)).trans first)⟩
  rw [amounts, amount_add kindLeft third, amount_add first kindRight, StaysCut, StaysCut]
  have := a.neg_limit_le_amount
  have := a.amount_le_limit
  have := b.neg_limit_le_amount
  have := b.amount_le_limit
  have := c.neg_limit_le_amount
  have := c.amount_le_limit
  -- What is added last matters only where the first sum is cut off.
  rcases amount_add_cases first second with ⟨_, _, firstTwo⟩ | ⟨_, firstTwo⟩ | ⟨_, firstTwo⟩ <;>
    rcases amount_add_cases second third with ⟨_, _, lastTwo⟩ | ⟨_, lastTwo⟩ | ⟨_, lastTwo⟩ <;>
    rw [firstTwo, lastTwo] <;> omega

end Number

/-! ## Aggregates -/

namespace Aggregate

variable {a b c ab ba bc left right : Aggregate} {aggregation : Aggregation}
  {us vs ws : List Number}

/-- Aggregates of integers merge to the same in either order. -/
theorem Gathers.merge_comm (first : a.Gathers aggregation us) (second : b.Gathers aggregation vs)
    (integers : ∀ v ∈ us, v.kind = .int64) (integers' : ∀ v ∈ vs, v.kind = .int64)
    (merged : a.merge b = .ok ab) (merged' : b.merge a = .ok ba) : ab = ba := by
  have same : a.shape = b.shape := first.shape.trans second.shape.symm
  obtain ⟨shape, total⟩ := merge_keeps merged
  obtain ⟨shape', total'⟩ := merge_keeps merged'
  have tallies : ab.Tallies (us ++ vs) :=
    first.tallies.merge second.tallies same integers integers' merged
  have tallies' : ba.Tallies (us ++ vs) :=
    (second.tallies.merge first.tallies same.symm integers' integers merged').perm
      List.perm_append_comm
  have both : ∀ v ∈ us ++ vs, v.kind = .int64 :=
    fun v member => (List.mem_append.1 member).elim (integers v) (integers' v)
  have totals : ab.total = ba.total := by
    rw [total, total', Number.add_comm_integers (kind_total first.integral)
      (kind_total second.integral)]
  have alike : ab = ba.withTotal ab.total :=
    tallies_unique tallies tallies' (shape.trans (same.trans shape'.symm)) both
  rw [alike, totals, withTotal_total]

/-- Aggregates that differ at most in their sums are equal if their sums are. -/
theorem eq_iff_total_eq (alike : a = b.withTotal a.total) : a = b ↔ a.total = b.total := by
  refine ⟨congrArg total, fun same => ?_⟩
  rw [alike, same, withTotal_total]

/-- Which two of three aggregates of integers are merged first shows at most in the sum. -/
theorem Gathers.merge_assoc (first : a.Gathers aggregation us) (second : b.Gathers aggregation vs)
    (third : c.Gathers aggregation ws) (integers : ∀ v ∈ us ++ vs ++ ws, v.kind = .int64)
    (firstTwo : a.merge b = .ok ab) (withThird : ab.merge c = .ok left)
    (lastTwo : b.merge c = .ok bc) (withFirst : a.merge bc = .ok right) :
    left = right.withTotal left.total ∧
      left.total = (a.total.add b.total).add c.total ∧
      right.total = a.total.add (b.total.add c.total) := by
  have ofFirst : ∀ v ∈ us, v.kind = .int64 :=
    fun v member => integers v (List.mem_append_left _ (List.mem_append_left _ member))
  have ofSecond : ∀ v ∈ vs, v.kind = .int64 :=
    fun v member => integers v (List.mem_append_left _ (List.mem_append_right _ member))
  have ofThird : ∀ v ∈ ws, v.kind = .int64 :=
    fun v member => integers v (List.mem_append_right _ member)
  obtain ⟨shapeAb, totalAb⟩ := merge_keeps firstTwo
  obtain ⟨shapeLeft, totalLeft⟩ := merge_keeps withThird
  obtain ⟨shapeBc, totalBc⟩ := merge_keeps lastTwo
  obtain ⟨shapeRight, totalRight⟩ := merge_keeps withFirst
  have same : a.shape = b.shape := first.shape.trans second.shape.symm
  have same' : b.shape = c.shape := second.shape.trans third.shape.symm
  have talliesLeft : left.Tallies (us ++ vs ++ ws) :=
    (first.tallies.merge second.tallies same ofFirst ofSecond firstTwo).merge third.tallies
      (shapeAb.trans (same.trans same'))
      (fun v member => integers v (List.mem_append_left _ member)) ofThird withThird
  have talliesRight : right.Tallies (us ++ vs ++ ws) := by
    rw [List.append_assoc] at integers ⊢
    exact first.tallies.merge (second.tallies.merge third.tallies same' ofSecond ofThird lastTwo)
      (same.trans shapeBc.symm) ofFirst
      (fun v member => integers v (List.mem_append_right _ member)) withFirst
  refine ⟨tallies_unique talliesLeft talliesRight ?_ integers, ?_, ?_⟩
  · rw [shapeLeft, shapeAb, shapeRight]
  · rw [totalLeft, totalAb]
  · rw [totalRight, totalBc]

end Aggregate

/-! ## Aggregators -/

namespace Aggregator

variable {aggregation : Aggregation}

/-- The aggregator of integers to which some are added. -/
def ofUpdates (aggregation : Aggregation) (vs : List Int64) : Aggregator :=
  vs.foldl (fun a v => a.update (.integer v)) (ofAggregation aggregation .int64)

theorem ofUpdates_concat (vs : List Int64) (v : Int64) :
    ofUpdates aggregation (vs ++ [v]) = (ofUpdates aggregation vs).update (.integer v) := by
  rw [ofUpdates, List.foldl_append]
  rfl

theorem live_ofUpdates (aggregation : Aggregation) (vs : List Int64) :
    (ofUpdates aggregation vs).live = .ofValues .int64 aggregation (vs.map .integer) ∧
      (ofUpdates aggregation vs).numberKind = .int64 := by
  induction vs using List.reverseRecOn with
  | nil => exact ⟨rfl, Aggregate.numberKind_empty .int64 aggregation⟩
  | append_singleton vs v ih =>
    obtain ⟨live, kind⟩ := ih
    rw [ofUpdates_concat, List.map_append, List.map_singleton, Aggregate.ofValues_concat, ← live]
    exact ⟨congrArg (Aggregate.update _) (congrArg (Number.convert (.integer v)) kind), kind⟩

theorem kind_integers (vs : List Int64) : ∀ v ∈ vs.map Number.integer, v.kind = .int64 := by
  intro v member
  obtain ⟨x, -, rfl⟩ := List.mem_map.1 member
  rfl

theorem gathers_ofUpdates (aggregation : Aggregation) (vs : List Int64) :
    (ofUpdates aggregation vs).live.Gathers aggregation (vs.map .integer) := by
  rw [(live_ofUpdates aggregation vs).1]
  exact Aggregate.gathers_ofValues aggregation (kind_integers vs)

theorem kind_eq_of_shape {a b : Aggregate} (same : a.shape = b.shape) : a.kind = b.kind := by
  cases a <;> cases b <;> first | rfl | cases same

/-- Aggregators merge as their live aggregates do. -/
theorem merge_of_live {a b : Aggregator} {c : Aggregate} (same : a.live.shape = b.live.shape)
    (merged : a.live.merge b.live = .ok c) : a.merge b = .ok { a with live := c, dirty := true } := by
  have kinds : a.kind = b.kind := kind_eq_of_shape same
  rw [merge, if_pos kinds, mergeValue, merged]

/-- Aggregators to which any integers are added merge. Two come to the same in either order. Three
come to the same but for the sum, whichever two are merged first, and to the same sum exactly if
nothing is cut off from the sum of two that the third would have led back. -/
theorem merge_in_any_order (accepted : aggregation.validate = .ok ()) (us vs ws : List Int64) :
    let a := ofUpdates aggregation us
    let b := ofUpdates aggregation vs
    let c := ofUpdates aggregation ws
    ∃ ab ba bc left right, a.merge b = .ok ab ∧ b.merge a = .ok ba ∧ b.merge c = .ok bc ∧
      ab.merge c = .ok left ∧ a.merge bc = .ok right ∧
      ab.checkpoint.held = ba.checkpoint.held ∧
      (∃ total, left.checkpoint.held = right.checkpoint.held.withTotal total) ∧
      (left.checkpoint.held = right.checkpoint.held ↔
        Number.StaysCut a.live.total.amount b.live.total.amount c.live.total.amount ∧
          Number.StaysCut c.live.total.amount b.live.total.amount a.live.total.amount) := by
  intro a b c
  have fits := Aggregation.fits_self accepted
  have first : a.live.Gathers aggregation _ := gathers_ofUpdates aggregation us
  have second : b.live.Gathers aggregation _ := gathers_ofUpdates aggregation vs
  have third : c.live.Gathers aggregation _ := gathers_ofUpdates aggregation ws
  have ofFirst := kind_integers us
  have ofSecond := kind_integers vs
  have ofThird := kind_integers ws
  have ofFirstTwo := List.forall_mem_append.2 ⟨ofFirst, ofSecond⟩
  obtain ⟨ab, mergedAb, gathersAb⟩ := first.merge fits second ofFirst ofSecond
  obtain ⟨ba, mergedBa, -⟩ := second.merge fits first ofSecond ofFirst
  obtain ⟨bc, mergedBc, gathersBc⟩ := second.merge fits third ofSecond ofThird
  obtain ⟨left, mergedLeft, -⟩ := gathersAb.merge fits third ofFirstTwo ofThird
  obtain ⟨right, mergedRight, -⟩ :=
    first.merge fits gathersBc ofFirst (List.forall_mem_append.2 ⟨ofSecond, ofThird⟩)
  obtain ⟨alike, totalLeft, totalRight⟩ :=
    first.merge_assoc second third (List.forall_mem_append.2 ⟨ofFirstTwo, ofThird⟩)
      mergedAb mergedLeft mergedBc mergedRight
  refine ⟨{ a with live := ab, dirty := true }, { b with live := ba, dirty := true },
    { b with live := bc, dirty := true }, { a with live := left, dirty := true },
    { a with live := right, dirty := true }, ?_, ?_, ?_, ?_, ?_, ?_, ⟨left.total, alike⟩, ?_⟩
  · exact merge_of_live (first.shape.trans second.shape.symm) mergedAb
  · exact merge_of_live (second.shape.trans first.shape.symm) mergedBa
  · exact merge_of_live (second.shape.trans third.shape.symm) mergedBc
  · exact merge_of_live (gathersAb.shape.trans third.shape.symm) mergedLeft
  · exact merge_of_live (first.shape.trans gathersBc.shape.symm) mergedRight
  · exact first.merge_comm second ofFirst ofSecond mergedAb mergedBa
  · change left = right ↔ _
    rw [Aggregate.eq_iff_total_eq alike, totalLeft, totalRight]
    exact Number.add_assoc_iff (Aggregate.kind_total first.integral)
      (Aggregate.kind_total second.integral) (Aggregate.kind_total third.integral)

/-- Totals of six, four and thirteen stay far from the limits. -/
theorem summaries_merge_in_any_order :
    Aggregation.minMaxSumCount.validate = .ok () ∧
      ∃ ab bc left right,
        (ofUpdates .minMaxSumCount [1, 9, -4]).merge (ofUpdates .minMaxSumCount [4]) = .ok ab ∧
          (ofUpdates .minMaxSumCount [4]).merge (ofUpdates .minMaxSumCount [-7, 20]) = .ok bc ∧
          ab.merge (ofUpdates .minMaxSumCount [-7, 20]) = .ok left ∧
          (ofUpdates .minMaxSumCount [1, 9, -4]).merge bc = .ok right ∧
          left.checkpoint.held = right.checkpoint.held := by
  have accepted : Aggregation.minMaxSumCount.validate = .ok () := by rfl
  obtain ⟨ab, -, bc, left, right, first, -, last, withThird, withFirst, -, -, same⟩ :=
    merge_in_any_order accepted [1, 9, -4] [4] [-7, 20]
  refine ⟨accepted, ab, bc, left, right, first, last, withThird, withFirst, same.2 ?_⟩
  have totals : (ofUpdates .minMaxSumCount [1, 9, -4]).live.total.amount = 6 ∧
      (ofUpdates .minMaxSumCount [4]).live.total.amount = 4 ∧
      (ofUpdates .minMaxSumCount [-7, 20]).live.total.amount = 13 := by decide +kernel
  obtain ⟨six, four, thirteen⟩ := totals
  rw [six, four, thirteen]
  refine ⟨⟨fun _ => by decide, fun below => ?_⟩, ⟨fun _ => by decide, fun below => ?_⟩⟩
  · exact absurd below (by decide)
  · exact absurd below (by decide)

/-- At the upper limit, one is cut off before it can be taken away again. -/
theorem merge_not_associative_at_limit :
    let a := ofUpdates .sum [Int64.maxValue]
    let b := ofUpdates .sum [1]
    let c := ofUpdates .sum [-1]
    ∃ ab bc left right, a.merge b = .ok ab ∧ b.merge c = .ok bc ∧
      ab.merge c = .ok left ∧ a.merge bc = .ok right ∧
      left.checkpoint.held = .sum (.integer (Int64.maxValue - 1)) ∧
      right.checkpoint.held = .sum (.integer Int64.maxValue) ∧
      left.checkpoint.held ≠ right.checkpoint.held := by
  intro a b c
  refine ⟨{ a with live := .sum (.integer Int64.maxValue) },
    { b with live := .sum (.integer 0) },
    { a with live := .sum (.integer (Int64.maxValue - 1)) },
    { a with live := .sum (.integer Int64.maxValue) }, ?_, ?_, ?_, ?_, rfl, rfl, ?_⟩
  · decide +kernel
  · decide +kernel
  · decide +kernel
  · decide +kernel
  · decide +kernel

end Aggregator

end Metering
