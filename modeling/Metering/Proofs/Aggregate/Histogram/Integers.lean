import Mathlib.Algebra.Order.BigOperators.Group.List
import Metering.Proofs.Aggregate.Histogram.Buckets
import Metering.Proofs.Decimal.Nearest

/-!
# The buckets of integers

A histogram looks for the bucket of the float nearest to an integer. A boundary is a float itself,
so an integer that reaches it still does when it is rounded. But an integer just below a boundary
may be rounded up onto it (`RoundsUpOnto`), and is then counted in a later bucket than its own. No
integer comes to a wrong bucket in another way, so the counts are exact as long as that does not
happen, and no longer (`exact_buckets_iff`).
-/

namespace Metering.Histogram

open Binary64 (nearestTo value)

variable {boundaries : List Float} {h : Histogram} {vs : List Number} {n : Number} {v : Int64}
  {b : Float} {q : ℚ} {i j : Nat}

/-! ## Exact buckets -/

/-- The bucket of a rational, exactly: that of the first boundary above it. -/
def exactBucket (boundaries : List Float) (q : ℚ) : Nat :=
  boundaries.findIdx fun b => q < value b

theorem exactBucket_le_length (boundaries : List Float) (q : ℚ) :
    exactBucket boundaries q ≤ boundaries.length :=
  List.findIdx_le_length

/-- Bucket `i` covers the rationals from the boundary before it, if there is one, up to the boundary
after it, if there is one. -/
def Covers (boundaries : List Float) (i : Nat) (q : ℚ) : Prop :=
  (i = 0 ∨ ∀ b ∈ boundaries[i - 1]?, value b ≤ q) ∧ ∀ b ∈ boundaries[i]?, q < value b

instance : DecidablePred (Covers boundaries i) := fun q =>
  inferInstanceAs (Decidable ((i = 0 ∨ ∀ b ∈ boundaries[i - 1]?, value b ≤ q) ∧
    ∀ b ∈ boundaries[i]?, q < value b))

/-- Finite boundaries, each at most those after it. -/
structure Grid (boundaries : List Float) : Prop where
  finite : ∀ b ∈ boundaries, b.isFinite = true
  sorted : boundaries.Pairwise (· ≤ ·)

theorem Grid.ascending (grid : Grid boundaries) : Ascending boundaries :=
  ⟨fun b member => Binary64.number_of_isFinite (grid.finite b member), grid.sorted⟩

theorem Grid.getElem_le (grid : Grid boundaries) (inside : j < boundaries.length) (le : i ≤ j) :
    boundaries[i] ≤ boundaries[j] := by
  rcases Nat.eq_or_lt_of_le le with rfl | less
  · exact Binary64.le_refl (grid.ascending.numbers _ (List.getElem_mem inside))
  · exact List.pairwise_iff_getElem.1 grid.sorted i j _ inside less

theorem Grid.value_le (grid : Grid boundaries) (inside : j < boundaries.length) (le : i ≤ j) :
    value boundaries[i] ≤ value boundaries[j] := by
  have denotes (k : Nat) (inside : k < boundaries.length) :=
    Binary64.denotes_of_isFinite (grid.finite boundaries[k] (List.getElem_mem inside))
  exact ((denotes i _).le_iff (denotes j inside)).1 (grid.getElem_le inside le)

/-- The bucket of a rational covers it. -/
theorem covers_exactBucket (boundaries : List Float) (q : ℚ) :
    Covers boundaries (exactBucket boundaries q) q := by
  constructor
  · rcases Nat.eq_zero_or_pos (exactBucket boundaries q) with none_ | some_
    · exact .inl none_
    · refine .inr fun b found => ?_
      obtain ⟨inside, rfl⟩ := List.getElem?_eq_some_iff.1 found
      have before : exactBucket boundaries q - 1 < exactBucket boundaries q := by omega
      exact not_lt.1 (of_decide_eq_false (List.not_of_lt_findIdx before))
  · intro b found
    obtain ⟨inside, rfl⟩ := List.getElem?_eq_some_iff.1 found
    exact of_decide_eq_true (List.findIdx_getElem (w := inside))

/-- No other bucket does. -/
theorem Grid.eq_of_covers (grid : Grid boundaries) (index : i ≤ boundaries.length)
    (covers : Covers boundaries i q) : exactBucket boundaries q = i := by
  obtain ⟨from_, upTo⟩ := covers
  rcases Nat.lt_trichotomy (exactBucket boundaries q) i with less | same | greater
  · -- The boundary after the bucket of `q` is at most the one before bucket `i`.
    have inside : i - 1 < boundaries.length := by omega
    have above := (covers_exactBucket boundaries q).2 _
      (List.getElem?_eq_getElem (less.trans_le index))
    have below := from_.resolve_left (by omega) _ (List.getElem?_eq_getElem inside)
    exact absurd (above.trans_le (grid.value_le inside (by omega))) below.not_gt
  · exact same
  · have inside := greater.trans_le List.findIdx_le_length
    have above := upTo _ (List.getElem?_eq_getElem inside)
    exact absurd above (of_decide_eq_false (List.not_of_lt_findIdx greater))

theorem Grid.covers_iff (grid : Grid boundaries) (index : i ≤ boundaries.length) :
    Covers boundaries i q ↔ exactBucket boundaries q = i := by
  constructor
  · exact grid.eq_of_covers index
  · rintro rfl
    exact covers_exactBucket boundaries q

/-! ## Rounding onto a boundary -/

/-- The integer is below the boundary, and becomes the boundary when it becomes a float. -/
def RoundsUpOnto (v : Int64) (b : Float) : Prop :=
  (v.toInt : ℚ) < value b ∧ (Binary64.ofInt64 v == b) = true

instance : Decidable (RoundsUpOnto v b) :=
  inferInstanceAs (Decidable ((v.toInt : ℚ) < value b ∧ (Binary64.ofInt64 v == b) = true))

/-- An integer becomes a float below a boundary if it is below the boundary and not rounded up onto
it. -/
theorem ofInt64_lt_iff (finite : b.isFinite = true) :
    Binary64.ofInt64 v < b ↔ (v.toInt : ℚ) < value b ∧ ¬ RoundsUpOnto v b := by
  have boundary := Binary64.denotes_of_isFinite finite
  have denotes := Binary64.denotes_ofInt64 v
  rw [Binary64.nearestInt_eq_nearestTo] at denotes
  have onto : (Binary64.ofInt64 v == b) = true ↔ nearestTo v.toInt = value b := by
    rw [Binary64.beq_iff, denotes.place, boundary.place, WithBot.coe_inj, WithTop.coe_inj]
    exact ⟨fun both => both.2.2, fun same => ⟨denotes.number, boundary.number, same⟩⟩
  rw [denotes.lt_iff boundary, RoundsUpOnto, onto]
  constructor
  · intro less
    have below : (v.toInt : ℚ) < value b := by
      by_contra reached
      have still := Binary64.nearestTo_mono (not_lt.1 reached)
      rw [boundary.nearestTo_eq] at still
      exact less.not_ge still
    exact ⟨below, fun rounds => less.ne rounds.2⟩
  · rintro ⟨below, not_⟩
    have most := Binary64.nearestTo_mono below.le
    rw [boundary.nearestTo_eq] at most
    exact lt_of_le_of_ne most fun same => not_ ⟨below, same⟩

/-- Integers up to `2 ^ 53` are not rounded at all. -/
theorem not_roundsUpOnto (digits : v.toInt.natAbs ≤ 2 ^ 53) (finite : b.isFinite = true) :
    ¬ RoundsUpOnto v b := by
  rintro ⟨below, same⟩
  have denotes := Binary64.denotes_ofInt64 v
  rw [Binary64.nearestInt_eq_nearestTo, Binary64.nearestTo_intCast digits] at denotes
  have boundary := Binary64.denotes_of_isFinite finite
  have equal := (Binary64.beq_iff.1 same).2.2
  rw [denotes.place, boundary.place, WithBot.coe_inj, WithTop.coe_inj] at equal
  exact below.ne equal

/-- An integer is counted in its own bucket or in a later one. -/
theorem Grid.exactBucket_le (grid : Grid h.boundaries) (v : Int64) :
    exactBucket h.boundaries v.toInt ≤ h.bucketIndex (Binary64.ofInt64 v) := by
  rw [bucketIndex_eq_findIdx grid.ascending (Binary64.denotes_ofInt64 v).number]
  refine List.findIdx_le_findIdx fun b member below => ?_
  exact decide_eq_true ((ofInt64_lt_iff (grid.finite b member)).1 (of_decide_eq_true below)).1

/-- It is counted in its own bucket exactly if it is not rounded up onto a boundary. -/
theorem Grid.bucketIndex_eq_iff (grid : Grid h.boundaries) (v : Int64) :
    h.bucketIndex (Binary64.ofInt64 v) = exactBucket h.boundaries v.toInt ↔
      ∀ b ∈ h.boundaries, ¬ RoundsUpOnto v b := by
  have found := bucketIndex_eq_findIdx grid.ascending (Binary64.denotes_ofInt64 v).number
  constructor
  · intro same b member rounds
    -- The first boundary above the integer is above it as a float, and so are those after it.
    have inside : exactBucket h.boundaries v.toInt < h.boundaries.length :=
      List.findIdx_lt_length_of_exists ⟨b, member, decide_eq_true rounds.1⟩
    have first : Binary64.ofInt64 v < h.boundaries[exactBucket h.boundaries v.toInt] := by
      have at_ := found.symm.trans same
      have inside' : h.boundaries.findIdx (Binary64.ofInt64 v < ·) < h.boundaries.length :=
        at_.trans_lt inside
      have above := of_decide_eq_true (List.findIdx_getElem (w := inside'))
      simpa only [at_] using above
    obtain ⟨k, within, rfl⟩ := List.mem_iff_getElem.1 member
    have later : exactBucket h.boundaries v.toInt ≤ k := by
      by_contra before
      exact of_decide_eq_false (List.not_of_lt_findIdx (not_le.1 before)) rounds.1
    have above := Binary64.lt_of_lt_of_le first (grid.getElem_le within later)
    exact ((ofInt64_lt_iff (grid.finite _ member)).1 above).2 rounds
  · intro plain
    refine le_antisymm ?_ (grid.exactBucket_le v)
    rw [found]
    refine List.findIdx_le_findIdx fun b member below => ?_
    exact decide_eq_true ((ofInt64_lt_iff (grid.finite b member)).2
      ⟨of_decide_eq_true below, plain b member⟩)

/-! ## The counts -/

/-- One more value in one place or in another makes different counts. -/
theorem modify_succ_inj {counts : List Nat} (inside : i < counts.length) :
    counts.modify i (· + 1) = counts.modify j (· + 1) ↔ i = j := by
  refine ⟨fun same => ?_, congrArg (counts.modify · (· + 1))⟩
  by_contra apart
  have at_ : (counts.modify i (· + 1))[i]? = (counts.modify j (· + 1))[i]? := by rw [same]
  simp only [List.getElem?_modify, List.getElem?_eq_getElem inside, if_neg (Ne.symm apart)] at at_
  exact Nat.succ_ne_self _ (Option.some.inj at_)

/-- Of two ways to put values into numbered buckets, one of which never chooses the lower bucket,
the counts agree only if the ways do. -/
theorem eq_of_countP_eq {α : Type} {f g : α → Nat} {xs : List α} (le : ∀ x ∈ xs, f x ≤ g x)
    (counts : ∀ i, (xs.countP fun x => g x = i) = xs.countP fun x => f x = i) :
    ∀ x ∈ xs, f x = g x := by
  have perm : (xs.map f).Perm (xs.map g) := by
    refine List.perm_iff_count.2 fun i => ?_
    rw [List.count_eq_countP, List.count_eq_countP, List.countP_map, List.countP_map]
    exact (counts i).symm
  by_contra! apart
  obtain ⟨x, member, differ⟩ := apart
  have less := List.sum_lt_sum f g le ⟨x, member, lt_of_le_of_ne (le x member) differ⟩
  exact less.ne perm.sum_eq

theorem Grid.countP_covers (grid : Grid boundaries) (index : i ≤ boundaries.length)
    (vs : List Number) : (vs.countP fun n => Covers boundaries i n.rational) =
      vs.countP fun n => exactBucket boundaries n.rational = i := by
  refine List.countP_congr fun n _ => ?_
  rw [decide_eq_true_iff, decide_eq_true_iff, grid.covers_iff index]

/-- The counts of integers are exact if each of them is counted in its own bucket, and only then. -/
theorem Tallies.exact_iff (tallies : h.Tallies vs) (grid : Grid h.boundaries)
    (integers : ∀ n ∈ vs, n.kind = .int64) :
    (∀ i (inside : i < h.counts.length),
        h.counts[i] = vs.countP fun n => Covers h.boundaries i n.rational) ↔
      ∀ n ∈ vs, exactBucket h.boundaries n.rational = h.bucketIndex n.toFloat := by
  have buckets := tallies.buckets
  constructor
  · intro exact_
    refine eq_of_countP_eq (fun n member => ?_) fun i => ?_
    · cases n with
      | integer v => exact grid.exactBucket_le v
      | float x => exact absurd (integers _ member) NumberKind.noConfusion
    · rcases Nat.lt_or_ge i h.counts.length with inside | outside
      · rw [← tallies.counts i inside, exact_ i inside, grid.countP_covers (by omega)]
      · -- There are no buckets past the last one.
        have none_ (f : Number → Nat) (most : ∀ n, f n ≤ h.boundaries.length) :
            (vs.countP fun n => f n = i) = 0 := by
          refine List.countP_eq_zero.2 fun n _ at_ => ?_
          have same := of_decide_eq_true at_
          have := most n
          omega
        rw [none_ _ fun n => h.bucketIndex_le_length n.toFloat,
          none_ _ fun n => exactBucket_le_length h.boundaries n.rational]
  · intro same i inside
    rw [tallies.counts i inside, grid.countP_covers (by omega)]
    refine List.countP_congr fun n member => ?_
    rw [same n member]

/-- A histogram of integers with finite boundaries, however it came to be, counts one more integer
in the bucket of the first boundary above it exactly if the integer is not rounded up onto a
boundary, and up to `2 ^ 53` none is. Each count is the number of recorded integers that the bucket
covers exactly if none of them was rounded up onto a boundary. -/
theorem exact_buckets_iff (history : History (List Float)) (integers : history.OfKind .int64)
    (grid : Grid history.configuration) :
    (∀ v : Int64, ((ofHistory history).update (.integer v)).counts =
        (ofHistory history).counts.modify (exactBucket (ofHistory history).boundaries v.toInt)
          (· + 1) ↔
      ∀ b ∈ (ofHistory history).boundaries, ¬ RoundsUpOnto v b) ∧
    (∀ v : Int64, v.toInt.natAbs ≤ 2 ^ 53 →
      ∀ b ∈ (ofHistory history).boundaries, ¬ RoundsUpOnto v b) ∧
    ((∀ i (inside : i < (ofHistory history).counts.length), (ofHistory history).counts[i] =
        (recorded history).countP fun n => Covers (ofHistory history).boundaries i n.rational) ↔
      ∀ v, .integer v ∈ recorded history →
        ∀ b ∈ (ofHistory history).boundaries, ¬ RoundsUpOnto v b) := by
  rw [← boundaries_ofHistory] at grid
  have tallies := tallies_ofHistory history
  have kinds : ∀ n ∈ recorded history, n.kind = .int64 := fun n member =>
    (integers.of_mem_values member).1
  generalize ofHistory history = h at grid tallies ⊢
  refine ⟨fun v => ?_, fun v digits b member => not_roundsUpOnto digits (grid.finite b member),
    (tallies.exact_iff grid kinds).trans ⟨fun same v member => ?_, fun plain n member => ?_⟩⟩
  · have inside : h.bucketIndex (Binary64.ofInt64 v) < h.counts.length := by
      rw [tallies.buckets]
      exact Nat.lt_succ_of_le (h.bucketIndex_le_length _)
    rw [← grid.bucketIndex_eq_iff]
    exact modify_succ_inj inside
  · exact (grid.bucketIndex_eq_iff v).1 (same _ member).symm
  · cases n with
    | integer v => exact ((grid.bucketIndex_eq_iff v).2 (plain v member)).symm
    | float x => exact absurd (kinds _ member) NumberKind.noConfusion

/-- Of the integers that become `2 ^ 53 + 4`, the one below it is counted above that boundary. -/
theorem five_and_three_above_two_pow_53 :
    let history : History (List Float) := .updated (.updated (.made [1.0, 9007199254740996.0] .int64)
      (.integer 5)) (.integer 9007199254740995)
    ((ofHistory history).update (.integer 7)).counts = (ofHistory history).counts.modify
        (exactBucket (ofHistory history).boundaries (7 : Int64).toInt) (· + 1) ∧
      ¬ ∀ i (inside : i < (ofHistory history).counts.length), (ofHistory history).counts[i] =
        (recorded history).countP fun n => Covers (ofHistory history).boundaries i n.rational := by
  intro history
  have integers : history.OfKind .int64 := ⟨⟨rfl, rfl⟩, rfl⟩
  have grid : Grid history.configuration := ⟨by decide +kernel, by decide +kernel⟩
  obtain ⟨one_more, few, counts⟩ := exact_buckets_iff history integers grid
  refine ⟨(one_more 7).2 (few 7 (by decide)), fun exact_ => ?_⟩
  have among : .integer 9007199254740995 ∈ recorded history :=
    List.mem_append_right _ (List.mem_singleton_self _)
  exact counts.1 exact_ _ among 9007199254740996.0
    (List.mem_cons_of_mem _ (List.mem_singleton_self _)) (by decide +kernel)

/-- The integer below `2 ^ 53 + 4` is not counted below that boundary. -/
theorem integer_below_boundary_counted_above :
    ((empty [9007199254740996.0] .int64).update (.integer 9007199254740995)).counts = [0, 1] ∧
      exactBucket [9007199254740996.0] (9007199254740995 : Int64).toInt = 0 ∧
      ((empty [9007199254740996.0] .int64).update (.integer 9007199254740995)).counts ≠
        (empty [9007199254740996.0] .int64).counts.modify
          (exactBucket [9007199254740996.0] (9007199254740995 : Int64).toInt) (· + 1) := by
  decide +kernel

end Metering.Histogram
