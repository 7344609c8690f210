import Metering.Aggregate.Basic
import Metering.Proofs.Binary64.AroundOne
import Metering.Proofs.Binary64.RoundingError

/-!
# The ratio of the buckets

The ratio of the bounds of a bucket is computed from the accuracy with three roundings. It is at
least one for every accuracy that is accepted, but for the smallest of them it is exactly one
(`one_lt_ratio_iff`): both `1 + a` and `1 - a` are then rounded to one, and there is only one bucket
on either side of zero.
-/

namespace Metering.Sketch

open Binary64

variable {accuracy : Float}

/-- An accuracy that is accepted stands for a rational between zero and one. -/
theorem denotes_accuracy (accepted : (Aggregation.sketch accuracy).validate = .ok ()) :
    Denotes accuracy (value accuracy) ∧ 0 < value accuracy ∧ value accuracy < 1 := by
  rw [Aggregation.validate] at accepted
  split at accepted
  · rename_i inside
    rw [Bool.and_eq_true, decide_eq_true_eq, decide_eq_true_eq] at inside
    obtain ⟨above, below⟩ := inside
    have zero : Denotes 0.0 0 := ⟨trivial, rfl⟩
    have denotes := denotes_of_between (Binary64.le_of_lt above) (Binary64.le_of_lt below) zero
      denotes_one
    exact ⟨denotes, (zero.lt_iff denotes).1 above, (denotes.lt_iff denotes_one).1 below⟩
  · cases accepted

/-- The two terms of the ratio, each with one rounding. -/
theorem terms_of_ratio (accepted : (Aggregation.sketch accuracy).validate = .ok ()) :
    Near (1.0 + accuracy) (1 + value accuracy) 1 ∧ Near (1.0 - accuracy) (1 - value accuracy) 1 ∧
      2 ^ (-53 : Int) ≤ 1 - value accuracy := by
  obtain ⟨denotes, positive, less⟩ := denotes_accuracy accepted
  have gap : (2 : ℚ) ^ (-53 : Int) ≤ 1 - value accuracy := by
    have := denotes.le_of_lt_one positive less
    linarith
  have apart : 0 < 1 - value accuracy := sub_pos.2 less
  have narrow : (1 - value accuracy)⁻¹ ≤ reach :=
    calc (1 - value accuracy)⁻¹ ≤ (2 ^ (-53 : Int))⁻¹ := inv_anti₀ (by positivity) gap
      _ = 2 ^ 53 := by norm_num
      _ ≤ reach := pow_le_reach (by norm_num)
  have two : (2 : ℚ) ≤ reach := (pow_one (2 : ℚ)).symm.trans_le (pow_le_reach (by norm_num))
  have sum := denotes_one.near_add denotes zero_lt_one positive (low_of_one_le (by linarith))
    (by linarith)
  have difference := denotes_one.near_sub denotes positive less (inv_reach_le apart narrow)
    (by linarith)
  exact ⟨sum, difference, gap⟩

theorem exact_ratio_le (accepted : (Aggregation.sketch accuracy).validate = .ok ()) :
    (1 + value accuracy) / (1 - value accuracy) ≤ 2 ^ 54 := by
  obtain ⟨-, positive, less⟩ := denotes_accuracy accepted
  obtain ⟨-, -, gap⟩ := terms_of_ratio accepted
  calc (1 + value accuracy) / (1 - value accuracy) ≤ 2 / 2 ^ (-53 : Int) :=
        div_le_div₀ two_pos.le (by linarith) (by positivity) gap
    _ = 2 ^ 54 := by norm_num

/-- The ratio is that of the terms, but for three roundings. -/
theorem near_ratio (accepted : (Aggregation.sketch accuracy).validate = .ok ()) :
    Near (ratio accuracy) ((1 + value accuracy) / (1 - value accuracy)) 3 := by
  obtain ⟨-, positive, less⟩ := denotes_accuracy accepted
  obtain ⟨sum, difference, gap⟩ := terms_of_ratio accepted
  have apart : 0 < 1 - value accuracy := sub_pos.2 less
  have one : 1 ≤ (1 + value accuracy) / (1 - value accuracy) := by
    rw [one_le_div apart]
    linarith
  have high : (1 + value accuracy) / (1 - value accuracy) ≤ reach :=
    (exact_ratio_le accepted).trans (pow_le_reach (by norm_num))
  exact sum.div difference (by linarith) apart (low_of_one_le one) high (by norm_num)

/-- The ratio as it is rounded. -/
theorem value_ratio (accepted : (Aggregation.sketch accuracy).validate = .ok ()) :
    value (ratio accuracy) =
      nearest (nearest (1 + value accuracy) / nearest (1 - value accuracy)) ∧
        nearest (1 - value accuracy) ≤ nearest (1 + value accuracy) ∧
          0 < nearest (1 - value accuracy) := by
  obtain ⟨denotes, positive, less⟩ := denotes_accuracy accepted
  obtain ⟨sum, difference, gap⟩ := terms_of_ratio accepted
  have apart : 0 < 1 - value accuracy := sub_pos.2 less
  have one : (1 : ℚ) ≤ reach := one_le_reach
  have narrow : reach⁻¹ ≤ 1 - value accuracy := by
    refine (inv_reach_le (by positivity) ?_).trans gap
    calc ((2 : ℚ) ^ (-53 : Int))⁻¹ = 2 ^ 53 := by norm_num
      _ ≤ reach := pow_le_reach (by norm_num)
  have first : Denotes (1.0 + accuracy) (nearest (1 + value accuracy)) :=
    denotes_one.add denotes zero_lt_one positive
      (nearest_lt_of_le (normal_of_inv_reach_le (low_of_one_le (by linarith))) (by linarith))
  have second : Denotes (1.0 - accuracy) (nearest (1 - value accuracy)) :=
    denotes_one.sub denotes positive less
      (nearest_lt_of_le (normal_of_inv_reach_le narrow) (by linarith))
  have ordered : nearest (1 - value accuracy) ≤ nearest (1 + value accuracy) :=
    nearest_mono apart (by linarith)
  have large := sum.upper
  have small := difference.lower
  have above := sum.pos (by linarith)
  have below := difference.pos apart
  rw [sum.denotes.unique first, pow_one] at large
  rw [difference.denotes.unique second, pow_one] at small
  rw [sum.denotes.unique first] at above
  rw [difference.denotes.unique second] at below
  refine ⟨?_, ordered, below⟩
  have high : nearest (1 + value accuracy) / nearest (1 - value accuracy) ≤ reach :=
    calc nearest (1 + value accuracy) / nearest (1 - value accuracy)
        ≤ 2 * slack / (2 ^ (-53 : Int) / slack) := by
          have scale := slack_pos
          refine div_le_div₀ (by positivity) (large.trans ?_) (by positivity) (le_trans ?_ small)
          · exact mul_le_mul_of_nonneg_right (by linarith) slack_pos.le
          · exact div_le_div_of_nonneg_right gap slack_pos.le
      _ ≤ 2 ^ 55 := by norm_num [slack]
      _ ≤ reach := pow_le_reach (by norm_num)
  have low : 1 ≤ nearest (1 + value accuracy) / nearest (1 - value accuracy) :=
    (one_le_div below).2 ordered
  exact (first.div second above below
    (nearest_lt_of_le (normal_of_inv_reach_le (low_of_one_le low)) (by linarith))).value

/-- The ratio is at least one. -/
theorem one_le_ratio (accepted : (Aggregation.sketch accuracy).validate = .ok ()) :
    1 ≤ value (ratio accuracy) := by
  obtain ⟨rounded, ordered, below⟩ := value_ratio accepted
  have quotient := (one_le_div below).2 ordered
  rw [rounded]
  exact nearest_one.symm.trans_le (nearest_mono zero_lt_one quotient)

/-- For the smallest accuracies there is no ratio between the bounds of a bucket. -/
theorem one_lt_ratio_iff (accepted : (Aggregation.sketch accuracy).validate = .ok ()) :
    1 < value (ratio accuracy) ↔ 2 ^ (-54 : Int) < value accuracy := by
  obtain ⟨-, positive, less⟩ := denotes_accuracy accepted
  obtain ⟨rounded, -, below⟩ := value_ratio accepted
  have double : (2 : ℚ) ^ (-54 : Int) * 2 = 2 ^ (-53 : Int) := by norm_num
  rw [rounded]
  constructor
  · intro above
    by_contra small
    rw [not_lt] at small
    have first : nearest (1 + value accuracy) = 1 :=
      nearest_above_one (by linarith) (by linarith)
    have second : nearest (1 - value accuracy) = 1 :=
      nearest_below_one (by linarith) (by linarith)
    rw [first, second, div_one, nearest_one] at above
    exact lt_irrefl _ above
  · intro large
    have first : 1 ≤ nearest (1 + value accuracy) :=
      nearest_one.symm.trans_le (nearest_mono zero_lt_one (by linarith))
    have second : nearest (1 - value accuracy) ≤ 1 - 2 ^ (-53 : Int) :=
      nearest_lt_one (sub_pos.2 less) (by linarith)
    apply one_lt_nearest
    calc (1 : ℚ) + 2 ^ (-53 : Int) < 1 / (1 - 2 ^ (-53 : Int)) := by norm_num
      _ ≤ nearest (1 + value accuracy) / nearest (1 - value accuracy) :=
        div_le_div₀ (by linarith) first below second

/-- Half the width of a bucket, relative to its middle, is the accuracy but for the roundings of the
ratio. -/
theorem ratio_excess (accepted : (Aggregation.sketch accuracy).validate = .ok ()) :
    (value (ratio accuracy) - 1) / (value (ratio accuracy) + 1) ≤
      value accuracy + (slack ^ 3 - 1) := by
  obtain ⟨-, positive, less⟩ := denotes_accuracy accepted
  have upper := (near_ratio accepted).upper
  have one := one_le_ratio accepted
  have scale := one_le_slack_pow 3
  have apart : 0 < 1 - value accuracy := sub_pos.2 less
  rw [div_mul_eq_mul_div, le_div_iff₀ apart] at upper
  rw [div_le_iff₀ (by linarith)]
  have error : (1 + value accuracy) * (slack ^ 3 - 1) ≤
      (value (ratio accuracy) + 1) * (slack ^ 3 - 1) :=
    mul_le_mul_of_nonneg_right (by linarith) (by linarith)
  linarith

/-- The ratio is far from overflow. -/
theorem ratio_le (accepted : (Aggregation.sketch accuracy).validate = .ok ()) :
    value (ratio accuracy) ≤ 2 ^ 55 := by
  calc value (ratio accuracy) ≤ (1 + value accuracy) / (1 - value accuracy) * slack ^ 3 :=
        (near_ratio accepted).upper
    _ ≤ 2 ^ 54 * 2 := mul_le_mul (exact_ratio_le accepted) (slack_pow_le_two (by norm_num))
        (slack_pow_pos 3).le (by positivity)
    _ = 2 ^ 55 := by norm_num

/-- For accuracies that are not too small, the ratio is clearly larger than one. -/
theorem inv_ratio_le (accepted : (Aggregation.sketch accuracy).validate = .ok ())
    (enough : 1 / 10000 ≤ value accuracy) :
    (value (ratio accuracy))⁻¹ ≤ 1 - 199 / 1000000 := by
  obtain ⟨-, positive, less⟩ := denotes_accuracy accepted
  have apart : 0 < 1 - value accuracy := sub_pos.2 less
  have one := zero_lt_one.trans_le (one_le_ratio accepted)
  have lower := (near_ratio accepted).lower
  have exact_ : (10001 / 9999 : ℚ) ≤ (1 + value accuracy) / (1 - value accuracy) := by
    rw [div_le_div_iff₀ (by norm_num) apart]
    linarith
  rw [inv_le_comm₀ one (by norm_num)]
  calc ((1 : ℚ) - 199 / 1000000)⁻¹ ≤ 10001 / 9999 / slack ^ 3 := by norm_num [slack]
    _ ≤ (1 + value accuracy) / (1 - value accuracy) / slack ^ 3 :=
      div_le_div_of_nonneg_right exact_ (slack_pow_pos 3).le
    _ ≤ value (ratio accuracy) := lower

end Metering.Sketch
