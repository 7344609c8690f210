import Metering.Proofs.Aggregate.Sketch.Quantile
import Metering.Proofs.Aggregate.Sketch.Representative

/-!
# The accuracy of quantiles

The estimate of a quantile is off from the value of its rank by the accuracy of the sketch at most,
relative to that value, as long as the accuracy is not too small and the values are far from
overflow (`quantile_accuracy`). All that is asked of the logarithm is that it is nearly exact: keys
that do not ascend with the magnitudes are those of magnitudes next to a bound between buckets, so
they do no harm. For the smallest accuracies nothing is left of the estimate: all values of a sign
share one bucket (`tiny_accuracy_merges_buckets`).
-/

namespace Metering.Sketch

open Binary64
open Number (Numeric Ranking)

variable {log : Float → Float} {key : Float → Int} {s : Sketch} {accuracy x y low high : Float}
  {kind : NumberKind} {vs ws ranked : List Number} {v : Number} {rank : Nat} {k : Int} {p r : ℚ}

/-! ## Recorded values -/

/-- The sketch of some values, where `log` gives logarithms. -/
def recordBy (log : Float → Float) (accuracy : Float) (kind : NumberKind) (vs : List Number) :
    Sketch :=
  vs.foldl (updateBy (keyBy log accuracy)) (empty accuracy kind)

theorem accuracy_updateBy (key : Float → Int) (s : Sketch) (v : Number) :
    (s.updateBy key v).accuracy = s.accuracy := by
  simp only [updateBy]
  repeat' split
  all_goals rfl

theorem key_eq_keyBy (same : s.accuracy = accuracy) : s.key = keyBy Float.log accuracy := by
  funext x
  rw [Sketch.key, keyBy, gammaLog, gamma, same]

/-- With the logarithm of floats, values are recorded by updates. -/
theorem recordBy_log (accuracy : Float) (kind : NumberKind) (vs : List Number) :
    recordBy Float.log accuracy kind vs = vs.foldl update (empty accuracy kind) := by
  have steps : ∀ s : Sketch, s.accuracy = accuracy →
      vs.foldl (updateBy (keyBy Float.log accuracy)) s = vs.foldl update s := by
    induction vs with
    | nil =>
      intro s _
      rw [List.foldl_nil, List.foldl_nil]
    | cons v rest ih =>
      intro s same
      rw [List.foldl_cons, List.foldl_cons, update_eq_updateBy, key_eq_keyBy same]
      exact ih _ ((accuracy_updateBy _ s v).trans same)
  exact steps _ rfl

theorem TalliesBy.foldl (tallies : TalliesBy key kind s ws) (numeric : Numeric kind ws)
    (recordable : Recordable kind vs) :
    TalliesBy key kind (vs.foldl (updateBy key) s) (ws ++ vs) := by
  induction vs generalizing s ws with
  | nil => rwa [List.append_nil]
  | cons v rest ih =>
    obtain ⟨⟨same, finite⟩, others⟩ := List.forall_mem_cons.1 recordable
    have one : Recordable kind [v] := List.forall_mem_singleton.2 ⟨same, finite⟩
    rw [List.append_cons]
    exact ih (tallies.update numeric same finite) (numeric.append one.numeric) others

theorem talliesBy_recordBy (log : Float → Float) (accuracy : Float)
    (recordable : Recordable kind vs) :
    TalliesBy (keyBy log accuracy) kind (recordBy log accuracy kind vs) vs :=
  (talliesBy_empty _ kind accuracy).foldl (List.forall_mem_nil _) recordable

theorem accuracy_recordBy (log : Float → Float) (accuracy : Float) (kind : NumberKind)
    (vs : List Number) : (recordBy log accuracy kind vs).accuracy = accuracy :=
  List.foldlRecOn vs _ (motive := fun s => s.accuracy = accuracy) rfl fun s same v _ =>
    (accuracy_updateBy _ s v).trans same

/-! ## Keeping to the bounds -/

/-- An estimate that is kept to the bounds of a value gets no further from it. -/
theorem abs_clamp_sub_le (denotes : Denotes x p) (denotes' : Denotes y r) (above : low ≤ x)
    (below : x ≤ high) : Denotes (clamp low high y) (value (clamp low high y)) ∧
      |value (clamp low high y) - p| ≤ |r - p| := by
  rw [clamp]
  split
  · rename_i less
    have within := denotes_of_between (Binary64.le_of_lt less) above denotes' denotes
    have first := (denotes'.lt_iff within).1 less
    have second := (within.le_iff denotes).1 above
    refine ⟨within, ?_⟩
    rw [abs_of_nonpos (by linarith), abs_of_nonpos (by linarith)]
    linarith
  · split
    · rename_i less
      have within := denotes_of_between below (Binary64.le_of_lt less) denotes denotes'
      have first := (within.lt_iff denotes').1 less
      have second := (denotes.le_iff within).1 below
      refine ⟨within, ?_⟩
      rw [abs_of_nonneg (by linarith), abs_of_nonneg (by linarith)]
      linarith
    · rw [denotes'.value.symm]
      exact ⟨⟨denotes'.finite, rfl⟩, le_rfl⟩

/-! ## The bucket that is found -/

/-- Of the magnitudes recorded, one not smaller has no larger key, and one not larger has no smaller
key. -/
structure Encloses (key : Float → Int) (vs : List Number) (x : Float) (k : Int) : Prop where
  above : ∃ y ∈ magnitudes vs, leastMagnitude < y ∧ x ≤ y ∧ key y ≤ k
  below : ∃ y ∈ magnitudes vs, leastMagnitude < y ∧ y ≤ x ∧ k ≤ key y

theorem TalliesBy.encloses_positive (tallies : TalliesBy key kind s vs) (numeric : Numeric kind vs)
    (ranking : Ranking vs ranked) (found : ranked[rank]? = some v)
    (above : leastMagnitude < v.toFloat) :
    ∃ k, Sketch.valueOfRank rank 0 s.buckets = some (s.bucketValue k) ∧
      Encloses key vs v.toFloat k := by
  obtain ⟨b, reached, ⟨w, member, le, low⟩, w', member', le', high⟩ :=
    tallies.between numeric ranking found
  have above' := Binary64.lt_of_lt_of_le above le'
  rw [bucketBy_eq_positive.2 ⟨above', rfl⟩] at high
  obtain ⟨k, rfl, few⟩ := Bucket.exists_positive high
  obtain ⟨j, bucket, most⟩ := Bucket.exists_positive low
  obtain ⟨above'', rfl⟩ := bucketBy_eq_positive.1 bucket
  exact ⟨k, reached, ⟨_, (mem_magnitudes member').1, above', le', few⟩,
    _, (mem_magnitudes member).1, above'', le, most⟩

theorem TalliesBy.encloses_negative (tallies : TalliesBy key kind s vs) (numeric : Numeric kind vs)
    (ranking : Ranking vs ranked) (found : ranked[rank]? = some v)
    (below : v.toFloat < -leastMagnitude) :
    ∃ k, Sketch.valueOfRank rank 0 s.buckets = some (-s.bucketValue k) ∧
      Encloses key vs (-v.toFloat) k := by
  obtain ⟨b, reached, ⟨w, member, le, low⟩, w', member', le', high⟩ :=
    tallies.between numeric ranking found
  have below' := Binary64.lt_of_le_of_lt le below
  rw [bucketBy_eq_negative.2 ⟨below', rfl⟩] at low
  obtain ⟨k, rfl, few⟩ := Bucket.exists_negative low
  obtain ⟨j, bucket, most⟩ := Bucket.exists_negative high
  obtain ⟨below'', rfl⟩ := bucketBy_eq_negative.1 bucket
  exact ⟨k, reached, ⟨_, (mem_magnitudes member).2, lt_neg_of_lt_neg below', neg_le_neg le, few⟩,
    _, (mem_magnitudes member').2, lt_neg_of_lt_neg below'', neg_le_neg le', most⟩

/-- What is asked of an accuracy, of the values and of their logarithms: the accuracy is not too
small, the values are far from overflow, and the logarithms are nearly exact. -/
structure Moderate (log : Float → Float) (accuracy : Float) (vs : List Number) : Prop where
  enough : 1 / 10000 ≤ value accuracy
  far : ∀ x ∈ magnitudes vs, value x ≤ 2 ^ 900
  ratio : Logarithm (log (ratio accuracy)) (ratio accuracy)
  magnitudes : ∀ x ∈ magnitudes vs, leastMagnitude < x → Logarithm (log x) x

theorem low_of_lt (above : leastMagnitude < x) (denotes : Denotes x p) : 2 ^ (-30 : Int) ≤ p := by
  have finite : Denotes leastMagnitude (value leastMagnitude) :=
    denotes_of_isFinite (by decide +kernel)
  have least : 2 ^ (-30 : Int) ≤ value leastMagnitude := by decide +kernel
  exact least.trans ((finite.lt_iff denotes).1 above).le

theorem positive_of_lt (above : leastMagnitude < x) (denotes : Denotes x p) : 0 < p := by
  have small : (0 : ℚ) < 2 ^ (-30 : Int) := by positivity
  exact small.trans_le (low_of_lt above denotes)

theorem denotes_magnitudes (recordable : Recordable kind vs) :
    ∀ x ∈ magnitudes vs, Denotes x (value x) := by
  intro x member
  rcases List.mem_append.1 member with plus | minus
  · obtain ⟨v, held, rfl⟩ := List.mem_map.1 plus
    exact Number.denotes_toFloat (recordable v held).2
  · obtain ⟨v, held, rfl⟩ := List.mem_map.1 minus
    have negated := (Number.denotes_toFloat (recordable v held).2).neg
    exact ⟨negated.finite, rfl⟩

theorem power_mono (accepted : (Aggregation.sketch accuracy).validate = .ok ()) {j k : Int}
    (le : j ≤ k) : power accuracy j ≤ power accuracy k :=
  zpow_le_zpow_right₀ (one_le_ratio accepted) le

/-- The bucket that is found suits the magnitude that was asked for, though its own key may be the
next one. -/
theorem Encloses.close (encloses : Encloses (keyBy log accuracy) vs x k)
    (accepted : (Aggregation.sketch accuracy).validate = .ok ()) (recordable : Recordable kind vs)
    (moderate : Moderate log accuracy vs) (denotes : Denotes x p) (same : s.accuracy = accuracy) :
    Denotes (s.bucketValue k) (value (s.bucketValue k)) ∧
      |value (s.bucketValue k) - p| ≤ (value accuracy + 963 / 10 ^ 12) * p := by
  obtain ⟨⟨y, member, above, le, few⟩, z, member', above', le', most⟩ := encloses
  have upper := denotes_magnitudes recordable y member
  have lower := denotes_magnitudes recordable z member'
  have order := (denotes.le_iff upper).1 le
  have order' := (lower.le_iff denotes).1 le'
  have wide : 0 ≤ width := by norm_num [width]
  obtain ⟨size, -, enclosed⟩ := keyBy_spec accepted moderate.enough (low_of_lt above upper)
    (moderate.far y member) (moderate.magnitudes y member above) moderate.ratio
  obtain ⟨size', enclosed', -⟩ := keyBy_spec accepted moderate.enough (low_of_lt above' lower)
    (moderate.far z member') (moderate.magnitudes z member' above') moderate.ratio
  have range : |k| ≤ 2 ^ 22 := by
    rw [abs_le] at size size' ⊢
    omega
  subst same
  refine abs_bucketValue_sub_le accepted range ((low_of_lt above' lower).trans order')
    (order.trans (moderate.far y member)) ?_ ?_
  · calc power s.accuracy (k - 1) ≤ power s.accuracy (keyBy log s.accuracy z - 1) :=
          power_mono accepted (Int.sub_le_sub_right most 1)
      _ ≤ value z * width := enclosed'
      _ ≤ p * width := mul_le_mul_of_nonneg_right order' wide
  · calc p ≤ value y := order
      _ ≤ power s.accuracy (keyBy log s.accuracy y) * width := enclosed
      _ ≤ power s.accuracy k * width :=
        mul_le_mul_of_nonneg_right (power_mono accepted few) wide

/-- What stands for the bucket of a rank is close to the value of the rank. -/
theorem exists_close (accepted : (Aggregation.sketch accuracy).validate = .ok ())
    (recordable : Recordable kind vs) (moderate : Moderate log accuracy vs)
    (ranking : Ranking vs ranked) (found : ranked[rank]? = some v)
    (away : leastMagnitude < v.toFloat ∨ v.toFloat < -leastMagnitude) :
    ∃ y r, valueOfRank rank 0 (recordBy log accuracy kind vs).buckets = some y ∧ Denotes y r ∧
      |r - value v.toFloat| ≤ (value accuracy + 963 / 10 ^ 12) * |value v.toFloat| := by
  have tallies := talliesBy_recordBy log accuracy recordable
  have same := accuracy_recordBy log accuracy kind vs
  have member := ranking.perm.mem_iff.1 (List.mem_of_getElem? found)
  have denotes := Number.denotes_toFloat (recordable v member).2
  rcases away with above | below
  · obtain ⟨k, reached, encloses⟩ :=
      tallies.encloses_positive recordable.numeric ranking found above
    obtain ⟨finite, error⟩ := encloses.close accepted recordable moderate denotes same
    have positive : 0 < value v.toFloat := positive_of_lt above denotes
    rw [abs_of_pos positive]
    exact ⟨_, _, reached, finite, error⟩
  · obtain ⟨k, reached, encloses⟩ :=
      tallies.encloses_negative recordable.numeric ranking found below
    obtain ⟨finite, error⟩ := encloses.close accepted recordable moderate denotes.neg same
    have positive : 0 < -value v.toFloat := positive_of_lt (lt_neg_of_lt_neg below) denotes.neg
    rw [abs_of_neg (neg_pos.1 positive)]
    refine ⟨_, _, reached, finite.neg, ?_⟩
    rwa [neg_sub_left, abs_neg, add_comm, ← sub_neg_eq_add]

/-! ## Quantiles -/

/-- An estimate that is close to a value as a float is close to the value. -/
theorem abs_sub_le_of_float {a c t x : ℚ} (nonneg : 0 ≤ a) (less : a < 1)
    (estimate : |c - x| ≤ (a + 963 / 10 ^ 12) * |x|) (rounded : |x - t| ≤ |t| * 2 ^ (-53 : Int)) :
    |c - t| ≤ (a + 1 / 10 ^ 9) * |t| := by
  have size : |x| ≤ |t| * (1 + 2 ^ (-53 : Int)) := by
    have triangle := abs_add_le (x - t) t
    rw [sub_add_cancel] at triangle
    linarith
  have part : a * (|t| * 2 ^ (-53 : Int)) ≤ |t| * 2 ^ (-53 : Int) :=
    mul_le_of_le_one_left (by positivity) less.le
  have scaled : (a + 963 / 10 ^ 12) * |x| ≤ (a + 963 / 10 ^ 12) * (|t| * (1 + 2 ^ (-53 : Int))) :=
    mul_le_mul_of_nonneg_left size (by linarith)
  have digits : |t| * (2 * 2 ^ (-53 : Int) + 963 / 10 ^ 12 * (1 + 2 ^ (-53 : Int))) ≤
      |t| * (1 / 10 ^ 9) := mul_le_mul_of_nonneg_left (by norm_num) (abs_nonneg t)
  calc |c - t| ≤ |c - x| + |x - t| := abs_sub_le c x t
    _ ≤ (a + 963 / 10 ^ 12) * (|t| * (1 + 2 ^ (-53 : Int))) + |t| * 2 ^ (-53 : Int) :=
      add_le_add (estimate.trans scaled) rounded
    _ = a * |t| + a * (|t| * 2 ^ (-53 : Int)) +
        |t| * (2 ^ (-53 : Int) + 963 / 10 ^ 12 * (1 + 2 ^ (-53 : Int))) := by ring
    _ ≤ a * |t| + |t| * 2 ^ (-53 : Int) +
        |t| * (2 ^ (-53 : Int) + 963 / 10 ^ 12 * (1 + 2 ^ (-53 : Int))) :=
      add_le_add_left (add_le_add_right part _) _
    _ = a * |t| + |t| * (2 * 2 ^ (-53 : Int) + 963 / 10 ^ 12 * (1 + 2 ^ (-53 : Int))) := by ring
    _ ≤ a * |t| + |t| * (1 / 10 ^ 9) := add_le_add_right digits _
    _ = (a + 1 / 10 ^ 9) * |t| := by ring

/-- The logarithm of the ratio is zero for the smallest accuracies only. -/
theorem value_log_ratio_eq_zero_iff (accepted : (Aggregation.sketch accuracy).validate = .ok ())
    (logarithm : Logarithm (log (ratio accuracy)) (ratio accuracy)) :
    value (log (ratio accuracy)) = 0 ↔ value accuracy ≤ 2 ^ (-54 : Int) := by
  have one := one_le_ratio accepted
  have error := logarithm.error
  rw [← not_lt, ← one_lt_ratio_iff accepted, not_lt]
  constructor
  · intro none_
    by_contra above
    have less : (1 : ℝ) < value (ratio accuracy) := by exact_mod_cast not_le.1 above
    have positive := Real.log_pos less
    rw [none_, Rat.cast_zero, zero_sub, abs_neg, abs_of_pos positive] at error
    norm_num at error
    linarith
  · intro least
    have same : value (ratio accuracy) = 1 := le_antisymm least one
    rw [same, Rat.cast_one, Real.log_one, sub_zero, abs_zero, mul_zero] at error
    exact_mod_cast abs_nonpos_iff.1 error

/-- The estimate of a quantile is close to the value of its rank, or to the last value if there is
none of that rank. -/
theorem exists_quantile_close (accepted : (Aggregation.sketch accuracy).validate = .ok ())
    (some_ : vs ≠ []) (recordable : Recordable kind vs) (moderate : Moderate log accuracy vs)
    (ranking : Ranking vs ranked) {q : Float} (nonneg : 0.0 ≤ q) (one : q ≤ 1.0) :
    ∃ v, ranked[min (rankOf vs.length q) (vs.length - 1)]? = some v ∧
      ∃ e, (recordBy log accuracy kind vs).quantile q = some e ∧
        (leastMagnitude < v.toFloat ∨ v.toFloat < -leastMagnitude →
          Denotes e (value e) ∧
            |value e - v.rational| ≤ (value accuracy + 1 / 10 ^ 9) * |v.rational|) := by
  obtain ⟨-, positive, less⟩ := denotes_accuracy accepted
  have tallies := talliesBy_recordBy log accuracy recordable
  have numeric := recordable.numeric
  have length := ranking.perm.length_eq
  have filled := List.length_pos_of_ne_nil some_
  have answer := tallies.quantile_eq numeric some_ nonneg one
  rw [tallies.count] at answer
  have inside : min (rankOf vs.length q) (vs.length - 1) < ranked.length := by omega
  have found := List.getElem?_eq_getElem inside
  generalize ranked[min (rankOf vs.length q) (vs.length - 1)] = v at found
  have member := ranking.perm.mem_iff.1 (List.mem_of_getElem? found)
  have denotes := Number.denotes_toFloat (recordable v member).2
  refine ⟨v, found, _, answer, fun away => ?_⟩
  rcases Nat.lt_or_ge (rankOf vs.length q) vs.length with within | beyond
  · have rank : min (rankOf vs.length q) (vs.length - 1) = rankOf vs.length q := by omega
    rw [rank] at found
    obtain ⟨y, r, reached, denotes', error⟩ :=
      exists_close accepted recordable moderate ranking found away
    obtain ⟨above, below⟩ := tallies.bounds.toFloat numeric member
    obtain ⟨finite, closer⟩ := abs_clamp_sub_le denotes denotes' above below
    rw [reached]
    exact ⟨finite, abs_sub_le_of_float positive.le less (closer.trans error)
      (Number.abs_toFloat_sub_le v)⟩
  · have rank : min (rankOf vs.length q) (vs.length - 1) = ranked.length - 1 := by omega
    rw [rank] at found
    have last := ranking.place_last tallies.bounds numeric found
    obtain ⟨-, kinds, highest⟩ := tallies.bounds.numbers numeric
    obtain ⟨same, number⟩ := numeric v member
    have greatest := Number.denotes_toFloat_of_place_eq (same.trans kinds.symm) number highest
      last.symm denotes
    rw [tallies.valueOfRank_eq_none beyond]
    refine ⟨⟨greatest.finite, rfl⟩,
      abs_sub_le_of_float positive.le less ?_ (Number.abs_toFloat_sub_le v)⟩
    have equal : value (recordBy log accuracy kind vs).greatest.toFloat = value v.toFloat :=
      greatest.value
    change |value (recordBy log accuracy kind vs).greatest.toFloat - _| ≤ _
    rw [equal, sub_self, abs_zero]
    positivity

/-- The accuracy of a sketch. The ratio is never below one, and above one unless the accuracy is too
small to change one at all; only then the logarithm of the ratio is zero. With an accuracy of
at least a ten-thousandth and with values far from overflow, the estimate of a quantile is off from
the value of its rank by the accuracy at most and a billionth more, relative to that value. -/
theorem quantile_accuracy (accepted : (Aggregation.sketch accuracy).validate = .ok ()) :
    1 ≤ value (ratio accuracy) ∧
      (1 < value (ratio accuracy) ↔ 2 ^ (-54 : Int) < value accuracy) ∧
      (∀ kind vs, recordBy Float.log accuracy kind vs = vs.foldl update (empty accuracy kind)) ∧
      ∀ log : Float → Float,
        (Logarithm (log (ratio accuracy)) (ratio accuracy) →
          (value (log (ratio accuracy)) = 0 ↔ value accuracy ≤ 2 ^ (-54 : Int))) ∧
        ∀ kind vs, vs ≠ [] → Recordable kind vs → Moderate log accuracy vs →
          ∀ ranked, Ranking vs ranked → ∀ q : Float, 0.0 ≤ q → q ≤ 1.0 →
            ∃ v, ranked[min (rankOf vs.length q) (vs.length - 1)]? = some v ∧
              ∃ e, (recordBy log accuracy kind vs).quantile q = some e ∧
                (leastMagnitude < v.toFloat ∨ v.toFloat < -leastMagnitude →
                  Denotes e (value e) ∧
                    |value e - v.rational| ≤ (value accuracy + 1 / 10 ^ 9) * |v.rational|) := by
  refine ⟨one_le_ratio accepted, one_lt_ratio_iff accepted, recordBy_log accuracy, fun log =>
    ⟨value_log_ratio_eq_zero_iff accepted, ?_⟩⟩
  intro kind vs some_ recordable moderate ranked ranking q nonneg one
  exact exists_quantile_close accepted some_ recordable moderate ranking nonneg one

/-- The logarithms of three and nine, correctly rounded, and that of one. -/
def tabulated (x : Float) : Float :=
  if x == 9.0 then 2.1972245773362196 else if x == 3.0 then 1.0986122886681098 else 0.0

theorem abs_log_three_sub_le :
    |4947709893870347 / 2 ^ 52 - Real.log 3| ≤ (2 ^ (-52 : Int) : ℝ) := by
  have half : |(1 / 2 : ℝ)| < 1 := by norm_num
  have series := Real.sum_range_sub_log_div_le half 27
  have quotient : ((1 : ℝ) + 1 / 2) / (1 - 1 / 2) = 3 := by norm_num
  rw [quotient] at series
  obtain ⟨low, high⟩ := abs_le.1 series
  norm_num [Finset.sum_range_succ] at low high
  rw [abs_le]
  norm_num
  constructor <;> linarith

theorem logarithm_three : Logarithm 1.0986122886681098 3.0 := by
  have rounded : value 1.0986122886681098 = 4947709893870347 / 2 ^ 52 := by decide +kernel
  have three : value 3.0 = 3 := by decide +kernel
  have large : (1 : ℝ) / 2 ≤ Real.log 3 := by
    have := Real.one_sub_inv_le_log_of_pos (show (0 : ℝ) < 3 by norm_num)
    norm_num at this
    linarith
  refine ⟨denotes_of_isFinite (by decide +kernel), ?_⟩
  rw [rounded, three]
  push_cast
  rw [abs_of_pos (by linarith : 0 < Real.log 3)]
  refine abs_log_three_sub_le.trans ?_
  norm_num
  linarith

theorem logarithm_nine : Logarithm 2.1972245773362196 9.0 := by
  have double : value 2.1972245773362196 = 2 * value 1.0986122886681098 := by decide +kernel
  have nine : value 9.0 = value 3.0 ^ 2 := by decide +kernel
  have error := logarithm_three.error
  refine ⟨denotes_of_isFinite (by decide +kernel), ?_⟩
  rw [double, nine]
  push_cast
  rw [Real.log_pow, Nat.cast_ofNat, ← mul_sub, abs_mul, abs_mul, abs_two]
  linarith

theorem logarithm_one : Logarithm 0.0 1.0 := by
  have zero : value 0.0 = 0 := by decide +kernel
  have one : value 1.0 = 1 := denotes_one.value
  refine ⟨denotes_of_isFinite (by decide +kernel), ?_⟩
  rw [zero, one, Rat.cast_zero, Rat.cast_one, Real.log_one, sub_zero, abs_zero, mul_zero]

theorem moderate_of_half :
    Moderate tabulated 0.5 [.integer 1, .integer 3, .integer (-9), .integer 9] := by
  have only : ∀ x ∈ magnitudes [.integer 1, .integer 3, .integer (-9), .integer 9],
      leastMagnitude < x → x = 1.0 ∨ x = 3.0 ∨ x = 9.0 := by decide +kernel
  have three : ratio 0.5 = 3.0 := by decide +kernel
  have first : tabulated 1.0 = 0.0 := by decide +kernel
  have third : tabulated 3.0 = 1.0986122886681098 := by decide +kernel
  have ninth : tabulated 9.0 = 2.1972245773362196 := by decide +kernel
  refine ⟨by decide +kernel, by decide +kernel, ?_, fun x member above => ?_⟩
  · rw [three, third]
    exact logarithm_three
  · rcases only x member above with rfl | rfl | rfl
    · rw [first]
      exact logarithm_one
    · rw [third]
      exact logarithm_three
    · rw [ninth]
      exact logarithm_nine

/-- With an accuracy of a half, the ratio is three. Three and nine are the upper bounds of their
buckets, so half of each stands for it, and the estimates are off by no less than the accuracy. -/
theorem quantiles_of_half_accuracy :
    let s := recordBy tabulated 0.5 .int64 [.integer 1, .integer 3, .integer (-9), .integer 9]
    (s.quantile 0.0 = some (-4.5) ∧ |value (-4.5) - (-9)| ≤ (value 0.5 + 1 / 10 ^ 9) * |-9|) ∧
      s.quantile 0.7 = some 1.5 ∧ |value 1.5 - 3| ≤ (value 0.5 + 1 / 10 ^ 9) * |3| := by
  intro s
  have accepted : (Aggregation.sketch 0.5).validate = .ok () := by decide +kernel
  have recordable : Recordable .int64 [.integer 1, .integer 3, .integer (-9), .integer 9] := by
    unfold Recordable
    decide +kernel
  have ranking : Ranking [.integer 1, .integer 3, .integer (-9), .integer 9]
      [.integer (-9), .integer 1, .integer 3, .integer 9] :=
    ⟨by decide +kernel, by decide +kernel⟩
  obtain ⟨-, -, -, accurate⟩ := quantile_accuracy accepted
  have answers := (accurate tabulated).2 .int64 _ (List.cons_ne_nil _ _) recordable
    moderate_of_half _ ranking
  have first : s.quantile 0.0 = some (-4.5) := by decide +kernel
  have third : s.quantile 0.7 = some 1.5 := by decide +kernel
  constructor
  · obtain ⟨v, found, e, answer, close⟩ := answers 0.0 (by decide +kernel) (by decide +kernel)
    have rank : min (rankOf 4 0.0) (4 - 1) = 0 := by decide +kernel
    obtain rfl := Option.some.inj (answer.symm.trans first)
    change [_, _, _, _][min (rankOf 4 0.0) (4 - 1)]? = some v at found
    rw [rank] at found
    obtain rfl := Option.some.inj found
    exact ⟨first, (close (.inr (by decide +kernel))).2⟩
  · obtain ⟨v, found, e, answer, close⟩ := answers 0.7 (by decide +kernel) (by decide +kernel)
    have rank : min (rankOf 4 0.7) (4 - 1) = 2 := by decide +kernel
    obtain rfl := Option.some.inj (answer.symm.trans third)
    change [_, _, _, _][min (rankOf 4 0.7) (4 - 1)]? = some v at found
    rw [rank] at found
    obtain rfl := Option.some.inj found
    exact ⟨third, (close (.inl (by decide +kernel))).2⟩

/-! ## The smallest accuracies -/

theorem powAccumulate_one (n : Nat) : powAccumulate 1.0 1.0 n = 1.0 := by
  have square : (1.0 : Float) * 1.0 = 1.0 := by decide +kernel
  induction n using Nat.strongRecOn with
  | _ n ih =>
    rw [powAccumulate, square, ite_self]
    by_cases last : n / 2 = 0
    · rw [if_pos last]
    · rw [if_neg last, ih (n / 2) (by omega)]

/-- If the ratio is one, so is what stands for every bucket. -/
theorem bucketValue_of_ratio_one (one : ratio s.accuracy = 1.0) (k : Int) :
    s.bucketValue k = 1.0 := by
  have powers : pow 1.0 k = 1.0 := by
    rw [pow, powAccumulate_one]
    split
    · decide +kernel
    · rfl
  rw [bucketValue, gamma, one, powers]
  decide +kernel

/-- A sketch of the smallest accuracies puts all values of a sign into one bucket, for which one
stands, so the estimate of the middle of some values above one is the least of them. -/
theorem tiny_accuracy_merges_buckets :
    (Aggregation.sketch 1e-17).validate = .ok () ∧ ratio 1e-17 = 1.0 ∧
      Ranking [.integer 2, .integer 4, .integer 8] [.integer 2, .integer 4, .integer 8] ∧
      [Number.integer 2, .integer 4, .integer 8][rankOf 3 0.5]? = some (.integer 4) ∧
      ([Number.integer 2, .integer 4, .integer 8].foldl update (empty 1e-17 .int64)).quantile 0.5 =
        some 2.0 ∧
      ¬ |value 2.0 - (Number.integer 4).rational| ≤
        (value 1e-17 + 1 / 10 ^ 9) * |(Number.integer 4).rational| := by
  have ranking : Ranking [.integer 2, .integer 4, .integer 8]
      [.integer 2, .integer 4, .integer 8] := ⟨by decide +kernel, by decide +kernel⟩
  have second : [Number.integer 2, .integer 4, .integer 8][rankOf 3 0.5]? = some (.integer 4) := by
    decide +kernel
  have one : ratio 1e-17 = 1.0 := by decide +kernel
  have recordable : Recordable .int64 [.integer 2, .integer 4, .integer 8] := by
    unfold Recordable
    decide +kernel
  have far : ¬ |value 2.0 - (Number.integer 4).rational| ≤
        (value 1e-17 + 1 / 10 ^ 9) * |(Number.integer 4).rational| := by decide +kernel
  refine ⟨by decide +kernel, one, ranking, second, ?_, far⟩
  rw [← recordBy_log]
  have tallies := talliesBy_recordBy Float.log 1e-17 recordable
  have same := accuracy_recordBy Float.log 1e-17 .int64 [.integer 2, .integer 4, .integer 8]
  have bounds : (recordBy Float.log 1e-17 .int64 [.integer 2, .integer 4, .integer 8]).least =
      .integer 2 ∧ (recordBy Float.log 1e-17 .int64 [.integer 2, .integer 4, .integer 8]).greatest =
        .integer 8 := by decide +kernel
  have away : leastMagnitude < (Number.integer 4).toFloat := by decide +kernel
  obtain ⟨k, reached, -⟩ :=
    tallies.encloses_positive recordable.numeric ranking second away
  generalize recordBy Float.log 1e-17 .int64 [.integer 2, .integer 4, .integer 8] = s at *
  have one' : ratio s.accuracy = 1.0 := by rw [same, one]
  have count : s.count = 3 := tallies.count
  have answer := tallies.quantile_eq recordable.numeric (List.cons_ne_nil _ _)
    (by decide +kernel : 0.0 ≤ 0.5) (by decide +kernel)
  rw [bucketValue_of_ratio_one one'] at reached
  rw [count, reached, bounds.1, bounds.2] at answer
  rw [answer]
  decide +kernel

end Metering.Sketch
