import Mathlib.Analysis.Complex.ExponentialBounds
import Metering.Proofs.Aggregate.Sketch.Ratio
import Metering.Proofs.Binary64.Quotient

/-!
# Keys

The key of a magnitude is the quotient of its logarithm by that of the ratio, rounded up. The
logarithm is a parameter here, and all that is asked of it is a small relative error on the few
magnitudes it is applied to (`Logarithm`). Then the powers of the ratio at a key and below it
enclose the magnitude but for a factor close to one (`keyBy_spec`).
-/

namespace Metering.Sketch

open Binary64

variable {log : Float → Float} {accuracy l x : Float} {m r : ℚ} {k : Int}

/-- The float stands for the natural logarithm of the other, but for a relative error of
`2 ^ -50`. -/
structure Logarithm (l x : Float) : Prop where
  denotes : Denotes l (value l)
  error : |(value l : ℝ) - Real.log (value x)| ≤ 2 ^ (-50 : Int) * |Real.log (value x)|

/-- The key of a magnitude, where `log` gives logarithms. -/
def keyBy (log : Float → Float) (accuracy magnitude : Float) : Int :=
  ceilBetween Int32.minValue.toInt Int32.maxValue.toInt (log magnitude / log (ratio accuracy))

/-- The power of the ratio that belongs to a key. -/
def power (accuracy : Float) (k : Int) : ℚ := value (ratio accuracy) ^ k

/-- How much larger than the power of its key a magnitude can be. -/
def width : ℚ := 1 + 2 ^ (-36 : Int)

/-! ## Real logarithms -/

/-- The quotient of two logarithms that are nearly exact. -/
theorem abs_quotient_mul_le {l g a b : ℝ} (positive : 0 < b)
    (dividend : |l - a| ≤ 2 ^ (-50 : Int) * |a|) (divisor : |g - b| ≤ 2 ^ (-50 : Int) * b) :
    0 < g ∧ |l / g| * b ≤ 2 * |a| := by
  have nonneg := abs_nonneg a
  have low : b * (1 - 2 ^ (-50 : Int)) ≤ g := by linarith [(abs_le.1 divisor).1]
  have above : 0 < g := lt_of_lt_of_le (mul_pos positive (by norm_num)) low
  have size : |l| ≤ |a| * (1 + 2 ^ (-50 : Int)) := by
    have triangle := abs_add_le (l - a) a
    rw [sub_add_cancel] at triangle
    linarith
  refine ⟨above, ?_⟩
  rw [abs_div, abs_of_pos above, div_mul_eq_mul_div, div_le_iff₀ above]
  calc |l| * b ≤ |a| * (1 + 2 ^ (-50 : Int)) * b := mul_le_mul_of_nonneg_right size positive.le
    _ = |a| * b * (1 + 2 ^ (-50 : Int)) := by ring
    _ ≤ |a| * b * (2 * (1 - 2 ^ (-50 : Int))) :=
      mul_le_mul_of_nonneg_left (by norm_num) (mul_nonneg nonneg positive.le)
    _ = 2 * |a| * (b * (1 - 2 ^ (-50 : Int))) := by ring
    _ ≤ 2 * |a| * g := mul_le_mul_of_nonneg_left low (by positivity)

/-- That quotient rounded. -/
theorem abs_quotient_sub_le {l g r a b : ℝ} (positive : 0 < b)
    (dividend : |l - a| ≤ 2 ^ (-50 : Int) * |a|) (divisor : |g - b| ≤ 2 ^ (-50 : Int) * b)
    (rounded : |r - l / g| ≤ |l / g| * 2 ^ (-53 : Int) + 2 ^ (-60 : Int)) :
    |r * b - a| ≤ 2 ^ (-48 : Int) * |a| + 2 ^ (-60 : Int) * b := by
  obtain ⟨above, part⟩ := abs_quotient_mul_le positive dividend divisor
  have nonneg := abs_nonneg a
  have first : |r - l / g| * b ≤ 2 * |a| * 2 ^ (-53 : Int) + 2 ^ (-60 : Int) * b := by
    calc |r - l / g| * b ≤ (|l / g| * 2 ^ (-53 : Int) + 2 ^ (-60 : Int)) * b :=
          mul_le_mul_of_nonneg_right rounded positive.le
      _ = |l / g| * b * 2 ^ (-53 : Int) + 2 ^ (-60 : Int) * b := by ring
      _ ≤ 2 * |a| * 2 ^ (-53 : Int) + 2 ^ (-60 : Int) * b := by
        have := mul_le_mul_of_nonneg_right part (show (0 : ℝ) ≤ 2 ^ (-53 : Int) by positivity)
        linarith
  have second : |l / g| * |b - g| ≤ 2 * |a| * 2 ^ (-50 : Int) := by
    calc |l / g| * |b - g| ≤ |l / g| * (2 ^ (-50 : Int) * b) := by
          rw [abs_sub_comm]
          exact mul_le_mul_of_nonneg_left divisor (abs_nonneg _)
      _ = |l / g| * b * 2 ^ (-50 : Int) := by ring
      _ ≤ 2 * |a| * 2 ^ (-50 : Int) := mul_le_mul_of_nonneg_right part (by positivity)
  have whole : r * b - a = (r - l / g) * b + l / g * (b - g) + (l - a) := by
    rw [mul_sub, div_mul_cancel₀ l above.ne']
    ring
  have sum : |r * b - a| ≤ |r - l / g| * b + |l / g| * |b - g| + |l - a| := by
    rw [whole]
    refine (abs_add_le _ _).trans (add_le_add_left ((abs_add_le _ _).trans ?_) _)
    rw [abs_mul, abs_mul, abs_of_pos positive]
  have factor : (2 : ℝ) * 2 ^ (-53 : Int) + 2 * 2 ^ (-50 : Int) + 2 ^ (-50 : Int) ≤
      2 ^ (-48 : Int) := by
    norm_num
  calc |r * b - a| ≤ |r - l / g| * b + |l / g| * |b - g| + |l - a| := sum
    _ ≤ 2 * |a| * 2 ^ (-53 : Int) + 2 ^ (-60 : Int) * b + 2 * |a| * 2 ^ (-50 : Int) +
        2 ^ (-50 : Int) * |a| := add_le_add (add_le_add first second) dividend
    _ = (2 * 2 ^ (-53 : Int) + 2 * 2 ^ (-50 : Int) + 2 ^ (-50 : Int)) * |a| +
        2 ^ (-60 : Int) * b := by ring
    _ ≤ 2 ^ (-48 : Int) * |a| + 2 ^ (-60 : Int) * b :=
      add_le_add_left (mul_le_mul_of_nonneg_right factor nonneg) _

theorem width_pos : (0 : ℝ) < width := by norm_num [width]

theorem log_width : 2 ^ (-37 : Int) ≤ Real.log width := by
  refine le_trans ?_ (Real.one_sub_inv_le_log_of_pos width_pos)
  norm_num [width]

theorem ratio_pos (accepted : (Aggregation.sketch accuracy).validate = .ok ()) :
    (0 : ℝ) < value (ratio accuracy) := by
  exact_mod_cast zero_lt_one.trans_le (one_le_ratio accepted)

/-- The logarithm of the ratio. -/
theorem log_ratio_bounds (accepted : (Aggregation.sketch accuracy).validate = .ok ())
    (enough : 1 / 10000 ≤ value accuracy) :
    (199 / 1000000 : ℝ) ≤ Real.log (value (ratio accuracy)) ∧
      Real.log (value (ratio accuracy)) ≤ 2 ^ 6 := by
  have positive := ratio_pos accepted
  have inverse : (value (ratio accuracy) : ℝ)⁻¹ ≤ 1 - 199 / 1000000 := by
    have rational := (Rat.cast_le (K := ℝ)).2 (inv_ratio_le accepted enough)
    push_cast at rational
    exact rational
  have high : (value (ratio accuracy) : ℝ) ≤ 2 ^ 55 := by exact_mod_cast ratio_le accepted
  constructor
  · linarith [Real.one_sub_inv_le_log_of_pos positive]
  · calc Real.log (value (ratio accuracy)) ≤ Real.log (2 ^ 55) := Real.log_le_log positive high
      _ = 55 * Real.log 2 := by rw [Real.log_pow]; norm_num
      _ ≤ 2 ^ 6 := by linarith [Real.log_two_lt_d9]

/-- The logarithm of a magnitude. -/
theorem abs_log_le (low : 2 ^ (-30 : Int) ≤ m) (high : m ≤ 2 ^ 900) : |Real.log m| ≤ 624 := by
  have low' : (2 : ℝ) ^ (-30 : Int) ≤ m := by
    have rational := (Rat.cast_le (K := ℝ)).2 low
    push_cast at rational
    exact rational
  have high' : (m : ℝ) ≤ 2 ^ 900 := by exact_mod_cast high
  have positive : (0 : ℝ) < m := lt_of_lt_of_le (by positivity) low'
  have two := Real.log_two_lt_d9
  have above := Real.log_le_log (by positivity) low'
  have below := Real.log_le_log positive high'
  rw [Real.log_zpow] at above
  rw [Real.log_pow] at below
  push_cast at above below
  rw [abs_le]
  constructor <;> linarith

/-- A power is bounded by a magnitude as their logarithms are. -/
theorem power_le_of_log (accepted : (Aggregation.sketch accuracy).validate = .ok ())
    (positive : 0 < m)
    (le : k * Real.log (value (ratio accuracy)) ≤ Real.log m + 2 ^ (-37 : Int)) :
    power accuracy k ≤ m * width := by
  have above := ratio_pos accepted
  have positive' : (0 : ℝ) < m := by exact_mod_cast positive
  have logs : Real.log ((value (ratio accuracy) : ℝ) ^ k) ≤ Real.log (m * width) := by
    rw [Real.log_zpow, Real.log_mul positive'.ne' width_pos.ne']
    linarith [log_width]
  have real := (Real.log_le_log_iff (zpow_pos above k) (mul_pos positive' width_pos)).1 logs
  rw [power]
  exact_mod_cast real

theorem le_power_of_log (accepted : (Aggregation.sketch accuracy).validate = .ok ())
    (positive : 0 < m)
    (le : Real.log m ≤ k * Real.log (value (ratio accuracy)) + 2 ^ (-37 : Int)) :
    m ≤ power accuracy k * width := by
  have above := ratio_pos accepted
  have positive' : (0 : ℝ) < m := by exact_mod_cast positive
  have logs : Real.log m ≤ Real.log ((value (ratio accuracy) : ℝ) ^ k * width) := by
    rw [Real.log_mul (zpow_pos above k).ne' width_pos.ne', Real.log_zpow]
    linarith [log_width]
  have real := (Real.log_le_log_iff positive' (mul_pos (zpow_pos above k) width_pos)).1 logs
  rw [power]
  exact_mod_cast real

/-! ## The key of a magnitude -/

/-- The quotient of which the key is the integer next above. -/
theorem exists_quotient (accepted : (Aggregation.sketch accuracy).validate = .ok ())
    (enough : 1 / 10000 ≤ value accuracy) (low : 2 ^ (-30 : Int) ≤ value x)
    (high : value x ≤ 2 ^ 900) (logarithm : Logarithm (log x) x)
    (logarithm' : Logarithm (log (ratio accuracy)) (ratio accuracy)) :
    ∃ r : ℚ, Denotes (log x / log (ratio accuracy)) r ∧
      |r * Real.log (value (ratio accuracy)) - Real.log (value x)| ≤ 2 ^ (-37 : Int) := by
  obtain ⟨few, large⟩ := log_ratio_bounds accepted enough
  have size := abs_log_le low high
  have positive : 0 < Real.log (value (ratio accuracy)) := lt_of_lt_of_le (by norm_num) few
  have dividend := logarithm.error
  have divisor := logarithm'.error
  rw [abs_of_pos positive] at divisor
  obtain ⟨above, part⟩ := abs_quotient_mul_le positive dividend divisor
  have within : |value (log x) / value (log (ratio accuracy))| ≤ reach := by
    have real : |(value (log x) / value (log (ratio accuracy)) : ℝ)| ≤ 2 ^ 23 := by
      have least := mul_le_mul_of_nonneg_left few
        (abs_nonneg (value (log x) / value (log (ratio accuracy)) : ℝ))
      linarith
    have rational : |value (log x) / value (log (ratio accuracy))| ≤ 2 ^ 23 := by
      exact_mod_cast real
    exact rational.trans (pow_le_reach (by norm_num))
  obtain ⟨r, denotes, rounded⟩ := logarithm.denotes.quotient logarithm'.denotes
    (by exact_mod_cast above) within
  have rounded' : |(r - value (log x) / value (log (ratio accuracy)) : ℝ)| ≤
      |(value (log x) / value (log (ratio accuracy)) : ℝ)| * 2 ^ (-53 : Int) + 2 ^ (-60 : Int) := by
    have rational := (Rat.cast_le (K := ℝ)).2 rounded
    push_cast at rational
    exact rational
  refine ⟨r, denotes, (abs_quotient_sub_le positive dividend divisor rounded').trans ?_⟩
  calc (2 : ℝ) ^ (-48 : Int) * |Real.log (value x)| +
        2 ^ (-60 : Int) * Real.log (value (ratio accuracy))
      ≤ 2 ^ (-48 : Int) * 624 + 2 ^ (-60 : Int) * 2 ^ 6 :=
        add_le_add (mul_le_mul_of_nonneg_left size (by positivity))
          (mul_le_mul_of_nonneg_left large (by positivity))
    _ ≤ 2 ^ (-37 : Int) := by norm_num

theorem abs_ceil_le {r : ℚ} {n : Int} (le : |r| ≤ n - 1) : |⌈r⌉| ≤ n := by
  obtain ⟨least, most⟩ := abs_le.1 le
  rw [abs_le]
  constructor
  · have low : (-n : ℚ) ≤ ⌈r⌉ := le_trans (by linarith) (Int.le_ceil r)
    exact_mod_cast low
  · exact Int.ceil_le.2 (by linarith)

/-- A quotient far from the bounds of 32 bits is rounded up to the key. -/
theorem keyBy_eq_ceil (denotes : Denotes (log x / log (ratio accuracy)) r)
    (few : |⌈r⌉| ≤ 2 ^ 22) : keyBy log accuracy x = ⌈r⌉ := by
  have range : Int32.minValue.toInt = -2 ^ 31 ∧ Int32.maxValue.toInt = 2 ^ 31 - 1 := by decide
  rw [keyBy, ceilBetween_eq denotes (by decide) (by decide)]
  rw [abs_le] at few
  omega

/-- The powers at the key of a magnitude and below it enclose the magnitude, but for `width`. -/
theorem keyBy_spec (accepted : (Aggregation.sketch accuracy).validate = .ok ())
    (enough : 1 / 10000 ≤ value accuracy) (low : 2 ^ (-30 : Int) ≤ value x)
    (high : value x ≤ 2 ^ 900) (logarithm : Logarithm (log x) x)
    (logarithm' : Logarithm (log (ratio accuracy)) (ratio accuracy)) :
    |keyBy log accuracy x| ≤ 2 ^ 22 ∧
      power accuracy (keyBy log accuracy x - 1) ≤ value x * width ∧
        value x ≤ power accuracy (keyBy log accuracy x) * width := by
  obtain ⟨r, denotes, error⟩ := exists_quotient accepted enough low high logarithm logarithm'
  obtain ⟨few, -⟩ := log_ratio_bounds accepted enough
  obtain ⟨least, most⟩ := abs_le.1 (abs_log_le low high)
  obtain ⟨below, above⟩ := abs_le.1 error
  have nonneg : 0 ≤ Real.log (value (ratio accuracy)) := le_trans (by norm_num) few
  have positive : 0 < value x := lt_of_lt_of_le (by positivity) low
  have size : |(r : ℝ)| ≤ 2 ^ 22 - 1 := by
    have product : |(r : ℝ)| * Real.log (value (ratio accuracy)) ≤ 625 := by
      rw [← abs_of_nonneg nonneg, ← abs_mul, abs_le]
      constructor <;> norm_num at below above ⊢ <;> linarith
    have least := mul_le_mul_of_nonneg_left few (abs_nonneg (r : ℝ))
    linarith
  have ceiling : |⌈r⌉| ≤ 2 ^ 22 := abs_ceil_le (by exact_mod_cast size)
  rw [keyBy_eq_ceil denotes ceiling]
  refine ⟨ceiling, ?_, ?_⟩
  · apply power_le_of_log accepted positive
    have before : ((⌈r⌉ - 1 : Int) : ℝ) ≤ r := by
      have rational : ((⌈r⌉ - 1 : Int) : ℚ) ≤ r := by
        push_cast
        linarith [Int.ceil_lt_add_one r]
      exact_mod_cast rational
    have product := mul_le_mul_of_nonneg_right before nonneg
    linarith
  · apply le_power_of_log accepted positive
    have beyond : (r : ℝ) ≤ (⌈r⌉ : Int) := by exact_mod_cast Int.le_ceil r
    have product := mul_le_mul_of_nonneg_right beyond nonneg
    linarith

end Metering.Sketch
