import Mathlib.Data.Prod.Lex
import Metering.Proofs.Aggregate.Ranks
import Metering.Proofs.Aggregate.Tally
import Metering.Proofs.Number.Order

/-!
# The buckets of a sketch

The two stores of a sketch and its count of zeros are one ascending row of buckets: the negative
ones, the further from zero the earlier, then that of zero, then the positive ones. What follows
depends on the logarithm only through the function that gives a magnitude its key, so that function
is a parameter here (`updateBy`). If keys ascend on the magnitudes that were recorded, a rank leads
to the bucket of the value of that rank (`TalliesBy.valueOfRank`).
-/

namespace Metering.Sketch

open Number (Numeric Ranking Spans)

/-- A bucket, below, at or above zero. -/
inductive Bucket
  | negative (k : Int)
  | zero
  | positive (k : Int)

namespace Bucket

/-- Where a bucket stands in the row. -/
def place : Bucket → ℤ ×ₗ ℤ
  | negative k => toLex (-1, -k)
  | zero => toLex (0, 0)
  | positive k => toLex (1, k)

theorem place_injective : Function.Injective place := by
  intro a b same
  have parts := congrArg ofLex same
  cases a <;> cases b <;> simp_all [place]

instance : LinearOrder Bucket := LinearOrder.lift' place place_injective

variable {j k : Int}

theorem negative_lt_negative : negative j < negative k ↔ k < j := by
  change place _ < place _ ↔ _
  rw [place, place, Prod.Lex.toLex_lt_toLex]
  simp

theorem positive_lt_positive : positive j < positive k ↔ j < k := by
  change place _ < place _ ↔ _
  rw [place, place, Prod.Lex.toLex_lt_toLex]
  simp

theorem negative_lt_zero : negative k < zero := by
  change place _ < place _
  rw [place, place, Prod.Lex.toLex_lt_toLex]
  simp

theorem zero_lt_positive : zero < positive k := by
  change place _ < place _
  rw [place, place, Prod.Lex.toLex_lt_toLex]
  simp

theorem negative_lt_positive : negative j < positive k :=
  negative_lt_zero.trans zero_lt_positive

theorem negative_le_negative (le : k ≤ j) : negative j ≤ negative k := by
  rw [← not_lt, negative_lt_negative]
  exact le.not_gt

theorem positive_le_positive (le : j ≤ k) : positive j ≤ positive k := by
  rw [← not_lt, positive_lt_positive]
  exact le.not_gt

/-- Above a positive bucket there are positive ones only. -/
theorem exists_positive {b : Bucket} (le : positive j ≤ b) : ∃ k, b = positive k ∧ j ≤ k := by
  cases b with
  | negative k => exact absurd negative_lt_positive le.not_gt
  | zero => exact absurd zero_lt_positive le.not_gt
  | positive k => exact ⟨k, rfl, Int.not_lt.1 fun less => (positive_lt_positive.2 less).not_ge le⟩

/-- Below a negative bucket there are negative ones only. -/
theorem exists_negative {b : Bucket} (le : b ≤ negative j) : ∃ k, b = negative k ∧ j ≤ k := by
  cases b with
  | negative k => exact ⟨k, rfl, Int.not_lt.1 fun less => (negative_lt_negative.2 less).not_ge le⟩
  | zero => exact absurd negative_lt_zero le.not_gt
  | positive k => exact absurd negative_lt_positive le.not_gt

end Bucket

variable {key : Float → Int} {s t u : Sketch} {kind : NumberKind} {vs ws ranked : List Number}
  {v : Number} {x y : Float} {rank seen : Nat} {store : Keyed Int Nat}

/-- The bucket of a value, where `key` gives the key of a magnitude. -/
def bucketBy (key : Float → Int) (x : Float) : Bucket :=
  if leastMagnitude < x then .positive (key x)
  else if x < -leastMagnitude then .negative (key (-x))
  else .zero

/-- The value that stands for a bucket. -/
def representative (s : Sketch) : Bucket → Float
  | .negative k => -s.bucketValue k
  | .zero => 0.0
  | .positive k => s.bucketValue k

/-- The magnitudes of values, and the values with the other sign. -/
def magnitudes (vs : List Number) : List Float :=
  vs.map Number.toFloat ++ vs.map fun v => -v.toFloat

/-- Of the magnitudes that were recorded, none has a larger key than a larger one. -/
def KeysAscend (key : Float → Int) (vs : List Number) : Prop :=
  ∀ x ∈ magnitudes vs, ∀ y ∈ magnitudes vs, leastMagnitude < x → x ≤ y → key x ≤ key y

theorem mem_magnitudes (member : v ∈ vs) :
    v.toFloat ∈ magnitudes vs ∧ -v.toFloat ∈ magnitudes vs :=
  ⟨List.mem_append_left _ (List.mem_map_of_mem member),
    List.mem_append_right _ (List.mem_map_of_mem member)⟩

/-- No value is both above and below zero. -/
theorem not_lt_of_lt_neg (below : x < -leastMagnitude) : ¬ leastMagnitude < x := by
  intro above
  have order : -leastMagnitude ≤ leastMagnitude := by decide +kernel
  have less := Binary64.lt_of_lt_of_le below order
  exact lt_asymm (Binary64.lt_iff.1 less).2.2 (Binary64.lt_iff.1 above).2.2

theorem lt_neg_of_lt_neg (below : x < -leastMagnitude) : leastMagnitude < -x := by
  have negated := Binary64.neg_lt_neg below
  have twice : -(-leastMagnitude) = leastMagnitude := by decide +kernel
  rwa [twice] at negated

/-- Where keys ascend, a larger value has no earlier bucket. -/
theorem KeysAscend.bucketBy_le {w : Number} (keys : KeysAscend key vs) (member : v ∈ vs)
    (member' : w ∈ vs) (le : v.toFloat ≤ w.toFloat) :
    bucketBy key v.toFloat ≤ bucketBy key w.toFloat := by
  obtain ⟨plus, minus⟩ := mem_magnitudes member
  obtain ⟨plus', minus'⟩ := mem_magnitudes member'
  by_cases positive : leastMagnitude < v.toFloat
  · rw [bucketBy, if_pos positive, bucketBy, if_pos (Binary64.lt_of_lt_of_le positive le)]
    exact Bucket.positive_le_positive (keys _ plus _ plus' positive le)
  · by_cases positive' : leastMagnitude < w.toFloat
    · rw [bucketBy, if_neg positive, bucketBy, if_pos positive']
      split
      · exact Bucket.negative_lt_positive.le
      · exact Bucket.zero_lt_positive.le
    · rw [bucketBy, if_neg positive, bucketBy, if_neg positive']
      by_cases negative' : w.toFloat < -leastMagnitude
      · rw [if_pos (Binary64.lt_of_le_of_lt le negative'), if_pos negative']
        exact Bucket.negative_le_negative
          (keys _ minus' _ minus (lt_neg_of_lt_neg negative') (Binary64.neg_le_neg le))
      · rw [if_neg negative']
        split
        · exact Bucket.negative_lt_zero.le
        · exact le_rfl

theorem bucketBy_eq_positive {k : Int} :
    bucketBy key x = .positive k ↔ leastMagnitude < x ∧ key x = k := by
  rw [bucketBy]
  split
  · rename_i above
    simp [above]
  · rename_i above
    split <;> simp [above]

theorem bucketBy_eq_negative {k : Int} :
    bucketBy key x = .negative k ↔ x < -leastMagnitude ∧ key (-x) = k := by
  rw [bucketBy]
  split
  · rename_i above
    have not_ : ¬ x < -leastMagnitude := fun below => not_lt_of_lt_neg below above
    simp [not_]
  · split
    · rename_i below
      simp [below]
    · rename_i below
      simp [below]

/-! ## What the stores count -/

/-- The key of a value among the positive ones. -/
def positiveKeyBy (key : Float → Int) (v : Number) : Option Int :=
  match bucketBy key v.toFloat with
  | .positive k => some k
  | _ => none

/-- The key of a value among the negative ones. -/
def negativeKeyBy (key : Float → Int) (v : Number) : Option Int :=
  match bucketBy key v.toFloat with
  | .negative k => some k
  | _ => none

theorem positiveKeyBy_eq_some {k : Int} :
    positiveKeyBy key v = some k ↔ bucketBy key v.toFloat = .positive k := by
  rw [positiveKeyBy]
  split <;> simp_all

theorem negativeKeyBy_eq_some {k : Int} :
    negativeKeyBy key v = some k ↔ bucketBy key v.toFloat = .negative k := by
  rw [negativeKeyBy]
  split <;> simp_all

/-- The sketch with one more value, where `key` gives the key of a magnitude. -/
def updateBy (key : Float → Int) (s : Sketch) (value : Number) : Sketch :=
  let x := value.toFloat
  if !x.isFinite then s
  else
    let counted :=
      if leastMagnitude < x then { s with positive := s.positive.upsert (key x) (addCount 1) }
      else if x < -leastMagnitude then
        { s with negative := s.negative.upsert (key (-x)) (addCount 1) }
      else { s with zeros := s.zeros + 1 }
    { counted with
      sum := s.sum.add value
      count := s.count + 1
      least := s.least.min value
      greatest := s.greatest.max value }

theorem update_eq_updateBy (s : Sketch) (v : Number) : s.update v = s.updateBy s.key v := rfl

/-- A finite value goes to its bucket. -/
theorem updateBy_of_finite (key : Float → Int) (s : Sketch) (finite : v.isFinite = true) :
    s.updateBy key v =
      { s with
        positive := putIn (positiveKeyBy key v) s.positive
        negative := putIn (negativeKeyBy key v) s.negative
        zeros := if bucketBy key v.toFloat = .zero then s.zeros + 1 else s.zeros
        sum := s.sum.add v
        count := s.count + 1
        least := s.least.min v
        greatest := s.greatest.max v } := by
  have held := Number.isFinite_toFloat finite
  simp only [updateBy, held, positiveKeyBy, negativeKeyBy, bucketBy]
  split
  · rename_i impossible
    cases impossible
  · split
    · rfl
    · split <;> rfl

/-- The stores of the sketch count the values by their buckets, and it has their number and their
bounds. -/
structure TalliesBy (key : Float → Int) (kind : NumberKind) (s : Sketch) (vs : List Number) :
    Prop where
  positive : Counts (positiveKeyBy key) s.positive vs
  negative : Counts (negativeKeyBy key) s.negative vs
  zeros : s.zeros = vs.countP fun v => bucketBy key v.toFloat = .zero
  count : s.count = vs.length
  bounds : Spans kind s.least s.greatest vs

theorem talliesBy_empty (key : Float → Int) (kind : NumberKind) (accuracy : Float) :
    TalliesBy key kind (empty accuracy kind) [] :=
  ⟨counts_empty _, counts_empty _, rfl, rfl, Number.spans_nil kind⟩

theorem TalliesBy.update (tallies : TalliesBy key kind s vs) (numeric : Numeric kind vs)
    (same : v.kind = kind) (finite : v.isFinite = true) :
    TalliesBy key kind (s.updateBy key v) (vs ++ [v]) := by
  rw [updateBy_of_finite key s finite]
  refine ⟨tallies.positive.putIn v, tallies.negative.putIn v, ?_, ?_, ?_⟩
  · rw [List.countP_append, List.countP_singleton, ← tallies.zeros]
    simp only [decide_eq_true_eq]
    split <;> rfl
  · rw [List.length_append, List.length_singleton, ← tallies.count]
  · refine tallies.bounds.append (Number.spans_singleton v) numeric fun w member => ?_
    rw [List.mem_singleton.1 member]
    exact ⟨same, Binary64.number_of_isFinite (Number.isFinite_toFloat finite)⟩

theorem TalliesBy.merge (tallies : TalliesBy key kind s vs) (tallies' : TalliesBy key kind t ws)
    (numeric : Numeric kind vs) (numeric' : Numeric kind ws) :
    TalliesBy key kind (Aggregate.addSketch s t) (vs ++ ws) := by
  refine ⟨tallies.positive.merge tallies'.positive, tallies.negative.merge tallies'.negative, ?_,
    ?_, tallies.bounds.append tallies'.bounds numeric numeric'⟩
  · rw [List.countP_append, ← tallies.zeros, ← tallies'.zeros]
    rfl
  · rw [List.length_append, ← tallies.count, ← tallies'.count]
    rfl

/-! ## The row of buckets -/

/-- The buckets in ascending order with their counts. -/
def row (s : Sketch) : List (Bucket × Nat) :=
  (s.negative.toList.reverse.map fun e => (Bucket.negative e.1, e.2))
    ++ (.zero, s.zeros) :: s.positive.toList.map fun e => (Bucket.positive e.1, e.2)

theorem buckets_eq (s : Sketch) :
    s.buckets = s.row.map fun c => (s.representative c.1, c.2) := by
  simp only [buckets, row, List.map_append, List.map_cons, List.map_map]
  rfl

theorem valueOfRank_map (f : Bucket → Float) (rank : Nat) :
    ∀ (seen : Nat) (row : List (Bucket × Nat)),
      valueOfRank rank seen (row.map fun c => (f c.1, c.2)) = (labelOfRank rank seen row).map f
  | seen, [] => rfl
  | seen, (b, n) :: rest => by
    rw [List.map_cons, valueOfRank, labelOfRank]
    split
    · rfl
    · exact valueOfRank_map f rank (seen + n) rest

/-- What a store lists under a key is the number of values that have it. -/
theorem Counts.mem {place : Number → Option Int} (counts : Counts place store vs) {e : Int × Nat}
    (member : e ∈ store.toList) : e.2 = vs.countP fun v => place v = some e.1 := by
  have listed := (store.mem_entries_iff e.1 e.2).1 member
  rw [counts e.1, tally] at listed
  split at listed
  · cases listed
  · exact (Option.some.inj listed).symm

/-- A value with a key is listed. -/
theorem Counts.listed {place : Number → Option Int} (counts : Counts place store vs)
    (member : v ∈ vs) {k : Int} (at_ : place v = some k) : ∃ n, (k, n) ∈ store.toList := by
  have some_ : 0 < vs.countP fun v => place v = some k :=
    List.countP_pos_iff.2 ⟨v, member, decide_eq_true at_⟩
  exact ⟨_, (store.mem_entries_iff k _).2 ((counts k).trans (tally_of_pos some_))⟩

theorem keys_lt (store : Keyed Int Nat) : store.toList.Pairwise fun a b => a.1 < b.1 :=
  store.ascending.imp fun less => Int.compare_eq_lt.1 less

/-- The row of buckets ascends. -/
theorem ascending_row (s : Sketch) : (s.row.map Prod.fst).Pairwise (· < ·) := by
  rw [row, List.map_append, List.map_cons, List.map_map, List.map_map, List.pairwise_append,
    List.pairwise_cons, List.pairwise_map, List.pairwise_reverse, List.pairwise_map]
  refine ⟨(keys_lt s.negative).imp fun less => Bucket.negative_lt_negative.2 less,
    ⟨fun b later => ?_, (keys_lt s.positive).imp fun less => Bucket.positive_lt_positive.2 less⟩,
    fun a first b second => ?_⟩
  · obtain ⟨e, -, rfl⟩ := List.mem_map.1 later
    exact Bucket.zero_lt_positive
  · obtain ⟨e, -, rfl⟩ := List.mem_map.1 first
    rcases List.mem_cons.1 second with rfl | later
    · exact Bucket.negative_lt_zero
    · obtain ⟨e', -, rfl⟩ := List.mem_map.1 later
      exact Bucket.negative_lt_positive

/-- The row of buckets distributes the values. -/
theorem TalliesBy.distribution (tallies : TalliesBy key kind s vs) :
    Distribution (fun v : Number => bucketBy key v.toFloat) s.row vs := by
  refine ⟨ascending_row s, fun c member => ?_, fun v member => ?_⟩
  · rcases List.mem_append.1 member with first | second
    · obtain ⟨e, listed, rfl⟩ := List.mem_map.1 first
      rw [tallies.negative.mem (List.mem_reverse.1 listed)]
      simp only [negativeKeyBy_eq_some]
    · rcases List.mem_cons.1 second with rfl | later
      · exact tallies.zeros
      · obtain ⟨e, listed, rfl⟩ := List.mem_map.1 later
        rw [tallies.positive.mem listed]
        simp only [positiveKeyBy_eq_some]
  · cases at_ : bucketBy key v.toFloat with
    | negative k =>
      obtain ⟨n, listed⟩ := tallies.negative.listed member (negativeKeyBy_eq_some.2 at_)
      refine List.mem_map.2 ⟨(.negative k, n), List.mem_append_left _ ?_, rfl⟩
      exact List.mem_map.2 ⟨(k, n), List.mem_reverse.2 listed, rfl⟩
    | zero =>
      refine List.mem_map.2 ⟨(.zero, s.zeros), List.mem_append_right _ ?_, rfl⟩
      exact List.mem_cons_self
    | positive k =>
      obtain ⟨n, listed⟩ := tallies.positive.listed member (positiveKeyBy_eq_some.2 at_)
      refine List.mem_map.2 ⟨(.positive k, n), List.mem_append_right _ ?_, rfl⟩
      exact List.mem_cons_of_mem _ (List.mem_map.2 ⟨(k, n), listed, rfl⟩)

/-- Walking along the buckets finds that of the value of a rank. -/
theorem TalliesBy.valueOfRank (tallies : TalliesBy key kind s vs) (keys : KeysAscend key vs)
    (numeric : Numeric kind vs) (ranking : Ranking vs ranked) (found : ranked[rank]? = some v) :
    valueOfRank rank 0 s.buckets = some (s.representative (bucketBy key v.toFloat)) := by
  have sorted : ranked.Pairwise fun a b => bucketBy key a.toFloat ≤ bucketBy key b.toFloat :=
    (ranking.toFloat numeric).imp_of_mem fun first second le =>
      keys.bucketBy_le (ranking.perm.mem_iff.1 first) (ranking.perm.mem_iff.1 second) le
  have label := (tallies.distribution.perm ranking.perm.symm).labelOfRank sorted found
  rw [buckets_eq, valueOfRank_map, label, Option.map_some]

/-- Whichever order the keys are in, walking along the buckets ends between those of a value not
above that of the rank and of one not below it. -/
theorem TalliesBy.between (tallies : TalliesBy key kind s vs) (numeric : Numeric kind vs)
    (ranking : Ranking vs ranked) (found : ranked[rank]? = some v) :
    ∃ b, Sketch.valueOfRank rank 0 s.buckets = some (s.representative b) ∧
      (∃ w ∈ vs, w.toFloat ≤ v.toFloat ∧ b ≤ bucketBy key w.toFloat) ∧
        ∃ w ∈ vs, v.toFloat ≤ w.toFloat ∧ bucketBy key w.toFloat ≤ b := by
  obtain ⟨inside, -⟩ := List.getElem?_eq_some_iff.1 found
  have number := (ranking.numeric numeric v (List.mem_of_getElem? found)).2
  obtain ⟨upTo, onward⟩ :=
    around_of_sorted (ranking.toFloat numeric) (Binary64.le_refl number) found
  obtain ⟨b, reached, ⟨w, first, low⟩, w', last, high⟩ :=
    (tallies.distribution.perm ranking.perm.symm).between inside
  refine ⟨b, ?_, ⟨w, ?_, upTo w first, low⟩, w', ?_, onward w' last, high⟩
  · rw [buckets_eq, valueOfRank_map, reached, Option.map_some]
  · exact ranking.perm.mem_iff.1 (List.mem_of_mem_take first)
  · exact ranking.perm.mem_iff.1 (List.mem_of_mem_drop last)

/-- Beyond all values, walking along the buckets finds nothing. -/
theorem TalliesBy.valueOfRank_eq_none (tallies : TalliesBy key kind s vs)
    (beyond : vs.length ≤ rank) : Sketch.valueOfRank rank 0 s.buckets = none := by
  have total := tallies.distribution.sum_eq
  rw [buckets_eq, valueOfRank_map, labelOfRank_eq_none (by omega), Option.map_none]

/-! ## The estimate -/

/-- The bounds of some values are numbers, and in order. -/
theorem TalliesBy.bounds_le (tallies : TalliesBy key kind s vs) (numeric : Numeric kind vs)
    (some_ : vs ≠ []) : s.least.toFloat.isNaN = false ∧ s.greatest.toFloat.isNaN = false ∧
      s.least.toFloat ≤ s.greatest.toFloat := by
  obtain ⟨⟨-, low⟩, -, high⟩ := tallies.bounds.numbers numeric
  obtain ⟨v, member⟩ := List.exists_mem_of_ne_nil vs some_
  obtain ⟨above, below⟩ := tallies.bounds.toFloat numeric member
  exact ⟨low, high, Binary64.le_trans above below⟩

/-- Of some values, there is an estimate of every quantile from zero to one, kept to the bounds. -/
theorem TalliesBy.quantile_eq (tallies : TalliesBy key kind s vs) (numeric : Numeric kind vs)
    (some_ : vs ≠ []) {q : Float} (low : 0.0 ≤ q) (high : q ≤ 1.0) :
    s.quantile q = some (((Sketch.valueOfRank (rankOf s.count q) 0 s.buckets).map
      (Binary64.clamp s.least.toFloat s.greatest.toFloat)).getD s.greatest.toFloat) := by
  have count : s.count ≠ 0 := by
    rw [tallies.count]
    exact fun none_ => some_ (List.eq_nil_of_length_eq_zero none_)
  obtain ⟨number, number', le⟩ := tallies.bounds_le numeric some_
  have ordered : ¬ s.greatest.toFloat < s.least.toFloat := fun less =>
    (Binary64.not_le number number').2 less le
  rw [quantile]
  simp only [count, low, high, number, number', ordered, decide_true, decide_false, Bool.and_self,
    Bool.not_true, Bool.or_self, Bool.false_eq_true, if_false]
  cases Sketch.valueOfRank (rankOf s.count q) 0 s.buckets <;> rfl

end Metering.Sketch
