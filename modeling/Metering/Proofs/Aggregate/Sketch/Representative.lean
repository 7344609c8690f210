import Metering.Proofs.Aggregate.Sketch.Keys

/-!
# What stands for a bucket

The magnitude that stands for a bucket lies between the powers of the ratio that bound the bucket,
as far from the one as from the other relative to it. So it is off from every magnitude between them
by at most the accuracy, but for the roundings: one for each unit of the key and a few more
(`near_bucketValue`), and those of the key itself (`abs_bucketValue_sub_le`).
-/

namespace Metering.Sketch

open Binary64

variable {s : Sketch} {accuracy : Float} {m : ℚ} {k : Int}

theorem denotes_two : Denotes 2.0 2 := by
  have two : value 2.0 = 2 := by decide +kernel
  rw [← two]
  exact denotes_of_isFinite (by decide +kernel)

/-- What stands for a bucket is computed with one rounding for each unit of the key and four
more. -/
theorem near_bucketValue (accepted : (Aggregation.sketch s.accuracy).validate = .ok ())
    (few : k.natAbs ≤ 2 ^ 22)
    (high : 2 * value (ratio s.accuracy) ^ (k.natAbs + 1) ≤ reach) :
    Near (s.bucketValue k)
      (2 * power s.accuracy k / (value (ratio s.accuracy) + 1)) (k.natAbs + 4) := by
  have one := one_le_ratio accepted
  have denotes := (near_ratio accepted).denotes
  rw [power]
  change Near (2.0 * pow (ratio s.accuracy) k / (ratio s.accuracy + 1.0)) _ _
  generalize ratio s.accuracy = gamma at *
  generalize value gamma = g at *
  have positive : 0 < g := zero_lt_one.trans_le one
  have growth : g ^ k.natAbs ≤ g ^ (k.natAbs + 1) := pow_le_pow_right₀ one (Nat.le_succ _)
  have base : g ≤ g ^ (k.natAbs + 1) := le_self_pow₀ one (Nat.succ_ne_zero _)
  have most : g ^ k ≤ g ^ k.natAbs := by
    rw [← zpow_natCast]
    exact zpow_le_zpow_right₀ one (by omega)
  have least : (g ^ (k.natAbs + 1))⁻¹ ≤ g ^ k / g := by
    rw [← zpow_natCast, ← zpow_neg, div_eq_mul_inv, ← zpow_sub_one₀ positive.ne']
    exact zpow_le_zpow_right₀ one (by omega)
  have small : reach⁻¹ ≤ g ^ k / g := by
    refine le_trans (inv_anti₀ (pow_pos positive _) ?_) least
    linarith [pow_pos positive (k.natAbs + 1)]
  have above := zpow_pos positive k
  have shrunk : g ^ k / g ≤ 2 * g ^ k / (g + 1) := by
    rw [div_le_div_iff₀ positive (by linarith)]
    linarith [mul_nonneg above.le (sub_nonneg.2 one)]
  have powered := near_pow denotes one (by linarith) (by omega : k.natAbs < 2 ^ 52)
  have doubled := denotes_two.near.mul powered two_pos above
    (by linarith [div_le_self above.le one]) (by linarith) (by omega)
  have sum := denotes.near_add denotes_one positive zero_lt_one (low_of_one_le (by linarith))
    (by linarith)
  have quotient := doubled.div sum (by linarith) (by linarith) (small.trans shrunk)
    ((div_le_self (by linarith) (by linarith)).trans (by linarith)) (by omega)
  have count : 0 + (k.natAbs + 1) + 1 + 1 + 1 = k.natAbs + 4 := by omega
  rwa [count] at quotient

theorem width_le_two : width ≤ 2 := by norm_num [width]

/-- A magnitude far from overflow keeps the powers of larger keys from it. -/
theorem two_mul_pow_le_of_pos {g : ℚ} (one : 1 ≤ g) (most : g ≤ 2 ^ 55) (high : m ≤ 2 ^ 900)
    (below : g ^ (k - 1) ≤ m * width) (up : 0 < k) : 2 * g ^ (k.natAbs + 1) ≤ 2 ^ 1012 := by
  have positive : 0 < g := zero_lt_one.trans_le one
  have exponent : ((k.natAbs + 1 : Nat) : Int) = k - 1 + 2 := by omega
  have split_ : g ^ (k.natAbs + 1) = g ^ (k - 1) * g ^ 2 := by
    rw [← zpow_natCast, exponent, zpow_add₀ positive.ne']
    rfl
  have wide : 0 ≤ width := by norm_num [width]
  have part : g ^ (k - 1) ≤ 2 ^ 900 * 2 :=
    calc g ^ (k - 1) ≤ m * width := below
      _ ≤ 2 ^ 900 * width := mul_le_mul_of_nonneg_right high wide
      _ ≤ 2 ^ 900 * 2 := mul_le_mul_of_nonneg_left width_le_two (pow_nonneg two_pos.le 900)
  calc 2 * g ^ (k.natAbs + 1) = 2 * (g ^ (k - 1) * g ^ 2) := by rw [split_]
    _ ≤ 2 * (2 ^ 900 * 2 * (2 ^ 55) ^ 2) := by
      refine mul_le_mul_of_nonneg_left ?_ two_pos.le
      exact mul_le_mul part (pow_le_pow_left₀ positive.le most 2) (by positivity) (by positivity)
    _ = 2 ^ 1012 := by rw [← pow_mul, ← pow_succ, ← pow_add, ← pow_succ']

/-- A magnitude far from zero keeps the inverse powers of smaller keys from overflow. -/
theorem two_mul_pow_le_of_nonpos {g : ℚ} (one : 1 ≤ g) (most : g ≤ 2 ^ 55)
    (low : 2 ^ (-30 : Int) ≤ m) (above : m ≤ g ^ k * width) (down : k ≤ 0) :
    2 * g ^ (k.natAbs + 1) ≤ 2 ^ 1012 := by
  have positive : 0 < g := zero_lt_one.trans_le one
  have inverse : g ^ k * g ^ k.natAbs = 1 := by
    rw [← zpow_natCast, ← zpow_add₀ positive.ne', Int.natCast_natAbs, abs_of_nonpos down,
      add_neg_cancel, zpow_zero]
  have part : g ^ k.natAbs ≤ 2 ^ 31 := by
    have less : 2 ^ (-30 : Int) ≤ g ^ k * 2 :=
      low.trans (above.trans (mul_le_mul_of_nonneg_left width_le_two (zpow_pos positive k).le))
    have product := mul_le_mul_of_nonneg_right less (pow_pos positive k.natAbs).le
    rw [mul_right_comm, inverse] at product
    norm_num at product ⊢
    linarith
  calc 2 * g ^ (k.natAbs + 1) = 2 * (g ^ k.natAbs * g) := by rw [pow_succ]
    _ ≤ 2 * (2 ^ 31 * 2 ^ 55) :=
      mul_le_mul_of_nonneg_left (mul_le_mul part most positive.le (by positivity)) two_pos.le
    _ = 2 ^ 87 := by norm_num
    _ ≤ 2 ^ 1012 := pow_le_pow_right₀ one_le_two (by norm_num)

/-- The magnitudes that a bucket stands for keep the power of its key far from overflow. -/
theorem two_mul_pow_le_reach (accepted : (Aggregation.sketch accuracy).validate = .ok ())
    (low : 2 ^ (-30 : Int) ≤ m) (high : m ≤ 2 ^ 900) (below : power accuracy (k - 1) ≤ m * width)
    (above : m ≤ power accuracy k * width) :
    2 * value (ratio accuracy) ^ (k.natAbs + 1) ≤ reach := by
  have one := one_le_ratio accepted
  have most := ratio_le accepted
  have large : 2 * value (ratio accuracy) ^ (k.natAbs + 1) ≤ 2 ^ 1012 := by
    rcases Int.lt_or_le 0 k with up | down
    · exact two_mul_pow_le_of_pos one most high below up
    · exact two_mul_pow_le_of_nonpos one most low above down
  exact large.trans (pow_le_reach (by norm_num))

/-- Between two bounds of ratio `g`, but for the factor `w`, a magnitude is close to their middle,
also if that is off by the factor `c`. -/
theorem abs_middle_sub_le {g a r w c t : ℚ} (one : 1 ≤ g) (positive : 0 < m) (below : a ≤ m * w)
    (above : m ≤ a * g * w) (wide : 1 ≤ w) (scale : 1 ≤ c) (factors : w * c ≤ 1 + t)
    (least : 2 * (a * g) / (g + 1) / c ≤ r) (most : r ≤ 2 * (a * g) / (g + 1) * c) :
    |r - m| ≤ ((g - 1) / (g + 1) + 2 * t) * m := by
  have base : 0 < g + 1 := by linarith
  have whole : 0 ≤ (g - 1) / (g + 1) := div_nonneg (by linarith) base.le
  have less : (g - 1) / (g + 1) ≤ 1 := (div_le_one base).2 (by linarith)
  have factor : 1 ≤ w * c := one_le_mul_of_one_le_of_one_le wide scale
  have fromBelow : 2 * (a * g) / (g + 1) = (1 + (g - 1) / (g + 1)) * a := by
    field_simp
    ring
  have fromAbove : 2 * (a * g) / (g + 1) = (1 - (g - 1) / (g + 1)) * (a * g) := by
    field_simp
    ring
  generalize (g - 1) / (g + 1) = b at *
  have excess : (1 + b) * (w * c) ≤ 1 + (b + 2 * t) := by
    have product := mul_le_mul_of_nonneg_left factors (show 0 ≤ 1 + b by linarith)
    have part : b * t ≤ t := mul_le_of_le_one_left (by linarith) less
    linarith
  have upper : r ≤ m * (1 + (b + 2 * t)) :=
    calc r ≤ (1 + b) * a * c := fromBelow ▸ most
      _ ≤ (1 + b) * (m * w) * c := by
        refine mul_le_mul_of_nonneg_right ?_ (by linarith)
        exact mul_le_mul_of_nonneg_left below (by linarith)
      _ = m * ((1 + b) * (w * c)) := by ring
      _ ≤ m * (1 + (b + 2 * t)) := mul_le_mul_of_nonneg_left excess positive.le
  have lower : m * (1 - (b + 2 * t)) ≤ r := by
    have lost : (1 - (b + 2 * t)) * (w * c) ≤ 1 - b := by
      have product := mul_le_mul_of_nonneg_left factors (show 0 ≤ 1 - b by linarith)
      have part : 0 ≤ b * t := mul_nonneg whole (by linarith)
      have part' : t ≤ t * (w * c) := le_mul_of_one_le_right (by linarith) factor
      linarith
    have scaled : m * (1 - b) ≤ r * (w * c) :=
      calc m * (1 - b) ≤ a * g * w * (1 - b) := mul_le_mul_of_nonneg_right above (by linarith)
        _ = (1 - b) * (a * g) / c * (w * c) := by
          field_simp
        _ ≤ r * (w * c) := mul_le_mul_of_nonneg_right (fromAbove ▸ least) (by linarith)
    have product := mul_le_mul_of_nonneg_left lost positive.le
    refine le_of_mul_le_mul_right ?_ (zero_lt_one.trans_le factor)
    linarith
  rw [abs_le]
  constructor <;> linarith

/-- The roundings of what stands for a bucket, and of the keys of the magnitudes in it. -/
theorem width_mul_slack_pow_le {n : Nat} (few : n ≤ 2 ^ 22 + 4) :
    width * slack ^ n ≤ 1 + 481 / 10 ^ 12 := by
  have many := slack_pow_mul_le (2 ^ 22 + 4)
  have most : slack ^ n ≤ slack ^ (2 ^ 22 + 4) := slack_pow_mono few
  have left : (0 : ℚ) < 1 - (2 ^ 22 + 4 : Nat) * 2 ^ (-53 : Int) := by norm_num
  rw [← le_div_iff₀ left] at many
  calc width * slack ^ n ≤ width * (1 / (1 - (2 ^ 22 + 4 : Nat) * 2 ^ (-53 : Int))) :=
        mul_le_mul_of_nonneg_left (most.trans many) (by norm_num [width])
    _ ≤ 1 + 481 / 10 ^ 12 := by norm_num [width]

/-- What stands for a bucket is off from a magnitude between its bounds by little more than the
accuracy. -/
theorem abs_bucketValue_sub_le (accepted : (Aggregation.sketch s.accuracy).validate = .ok ())
    (few : |k| ≤ 2 ^ 22) (low : 2 ^ (-30 : Int) ≤ m) (high : m ≤ 2 ^ 900)
    (below : power s.accuracy (k - 1) ≤ m * width) (above : m ≤ power s.accuracy k * width) :
    Denotes (s.bucketValue k) (value (s.bucketValue k)) ∧
      |value (s.bucketValue k) - m| ≤ (value s.accuracy + 963 / 10 ^ 12) * m := by
  have one := one_le_ratio accepted
  have positive : 0 < m := lt_of_lt_of_le (by positivity) low
  have few' : k.natAbs ≤ 2 ^ 22 := by
    rw [Int.abs_eq_natAbs] at few
    omega
  have near := near_bucketValue accepted few'
    (two_mul_pow_le_reach accepted low high below above)
  have next : power s.accuracy k = power s.accuracy (k - 1) * value (ratio s.accuracy) := by
    rw [power, power, ← zpow_add_one₀ (zero_lt_one.trans_le one).ne', sub_add_cancel]
  have error := abs_middle_sub_le one positive below (next ▸ above) (by norm_num [width])
    (one_le_slack_pow (k.natAbs + 4)) (width_mul_slack_pow_le (by omega)) (next ▸ near.lower)
    (next ▸ near.upper)
  refine ⟨near.denotes, error.trans (mul_le_mul_of_nonneg_right ?_ positive.le)⟩
  have rounded : slack ^ 3 - 1 ≤ 1 / 10 ^ 12 := by norm_num [slack]
  linarith [ratio_excess accepted]

end Metering.Sketch
