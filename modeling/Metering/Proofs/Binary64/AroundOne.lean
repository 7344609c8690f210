import Metering.Proofs.Binary64.Arithmetic

/-!
# Rounding around one

Below one the digits of floats are half as wide as above it. So one is the float nearest to what is
up to `2 ^ -53` above it, but only to what is up to `2 ^ -54` below it.
-/

namespace Metering.Binary64

variable {x : Float} {p r : ℚ} {n e : Int}

theorem log_eq (low : 2 ^ e ≤ r) (high : r < 2 ^ (e + 1)) : Int.log 2 r = e := by
  have positive : 0 < r := lt_of_lt_of_le (by positivity) low
  apply le_antisymm
  · rw [← Int.lt_add_one_iff]
    exact (Int.lt_zpow_iff_log_lt one_lt_two positive).1 (by exact_mod_cast high)
  · exact (Int.zpow_le_iff_le_log one_lt_two positive).1 (by exact_mod_cast low)

/-- From one to two, the last digit stands for `2 ^ -52`. -/
theorem unit_from_one (low : 1 ≤ r) (high : r < 2) : unit r = -52 := by
  rw [unit, log_eq (e := 0) (by simpa using low) (by simpa using high)]
  rfl

/-- From a half to one, the last digit stands for `2 ^ -53`. -/
theorem unit_below_one (low : 1 / 2 ≤ r) (high : r < 1) : unit r = -53 := by
  rw [unit, log_eq (e := -1) (by simpa using low) (by simpa using high)]
  rfl

theorem halfEven_le_of_lt (less : r < n - 1 / 2) : halfEven r ≤ n - 1 := by
  have error := (abs_le.1 (abs_halfEven_sub_le r)).2
  have below : (halfEven r : ℚ) < n := by linarith
  have below' : halfEven r < n := by exact_mod_cast below
  omega

theorem le_halfEven_of_lt (less : n + 1 / 2 < r) : n + 1 ≤ halfEven r := by
  have error := (abs_le.1 (abs_halfEven_sub_le r)).1
  have above : (n : ℚ) < halfEven r := by linarith
  exact_mod_cast above

/-- A half more than an even integer is rounded down to it. -/
theorem halfEven_add_half (even : n % 2 = 0) : halfEven (n + 1 / 2) = n := by
  have floor : ⌊(n : ℚ) + 1 / 2⌋ = n := by
    rw [Int.floor_intCast_add]
    norm_num
  have fraction : Int.fract ((n : ℚ) + 1 / 2) = 1 / 2 := by
    rw [Int.fract, floor]
    ring
  rw [halfEven, floor, fraction, if_pos (.inr ⟨rfl, even⟩)]

/-- A half less than an even integer is rounded up to it. -/
theorem halfEven_sub_half (even : n % 2 = 0) : halfEven (n - 1 / 2) = n := by
  have split_ : (n : ℚ) - 1 / 2 = (n - 1 : Int) + 1 / 2 := by
    push_cast
    ring
  have floor : ⌊(n : ℚ) - 1 / 2⌋ = n - 1 := by
    rw [split_, Int.floor_intCast_add]
    norm_num
  have fraction : Int.fract ((n : ℚ) - 1 / 2) = 1 / 2 := by
    rw [Int.fract, floor]
    push_cast
    ring
  rw [halfEven, floor, fraction, if_neg]
  · omega
  · rintro (less | ⟨-, even'⟩)
    · exact lt_irrefl _ less
    · omega

theorem nearest_one : nearest 1 = 1 := by
  have scaled : (1 : ℚ) / 2 ^ (-52 : Int) = (2 ^ 52 : Int) := by norm_num
  rw [nearest, unit_from_one le_rfl one_lt_two, scaled, halfEven_intCast]
  norm_num

/-- Up to half a digit above one, one is the nearest. -/
theorem nearest_above_one (low : 1 ≤ r) (high : r ≤ 1 + 2 ^ (-53 : Int)) : nearest r = 1 := by
  have tie : nearest (1 + 2 ^ (-53 : Int)) = 1 := by
    have scaled : (1 + 2 ^ (-53 : Int) : ℚ) / 2 ^ (-52 : Int) = (2 ^ 52 : Int) + 1 / 2 := by
      norm_num
    rw [nearest, unit_from_one (by norm_num) (by norm_num), scaled,
      halfEven_add_half (by norm_num)]
    norm_num
  exact le_antisymm (tie ▸ nearest_mono (zero_lt_one.trans_le low) high)
    (nearest_one ▸ nearest_mono zero_lt_one low)

/-- Up to half a digit below one, one is the nearest. -/
theorem nearest_below_one (low : 1 - 2 ^ (-54 : Int) ≤ r) (high : r ≤ 1) : nearest r = 1 := by
  have tie : nearest (1 - 2 ^ (-54 : Int)) = 1 := by
    have scaled : (1 - 2 ^ (-54 : Int) : ℚ) / 2 ^ (-53 : Int) = (2 ^ 53 : Int) - 1 / 2 := by
      norm_num
    rw [nearest, unit_below_one (by norm_num) (by norm_num), scaled,
      halfEven_sub_half (by norm_num)]
    norm_num
  have positive : (0 : ℚ) < 1 - 2 ^ (-54 : Int) := by norm_num
  exact le_antisymm (nearest_one ▸ nearest_mono (positive.trans_le low) high)
    (tie ▸ nearest_mono positive low)

/-- Further below one, at most the largest float below it is the nearest. -/
theorem nearest_lt_one (positive : 0 < r) (high : r < 1 - 2 ^ (-54 : Int)) :
    nearest r ≤ 1 - 2 ^ (-53 : Int) := by
  have below : max r (3 / 4) < 1 - 2 ^ (-54 : Int) := max_lt high (by norm_num)
  have half : 1 / 2 ≤ max r (3 / 4) := le_max_of_le_right (by norm_num)
  have one : max r (3 / 4) < 1 := below.trans (by norm_num)
  have digits : halfEven (max r (3 / 4) / 2 ^ (-53 : Int)) ≤ 2 ^ 53 - 1 := by
    refine halfEven_le_of_lt ?_
    rw [div_lt_iff₀ (by positivity)]
    exact below.trans_eq (by norm_num)
  have digits' : (halfEven (max r (3 / 4) / 2 ^ (-53 : Int)) : ℚ) ≤ 2 ^ 53 - 1 := by
    exact_mod_cast digits
  calc nearest r ≤ nearest (max r (3 / 4)) := nearest_mono positive (le_max_left _ _)
    _ ≤ (2 ^ 53 - 1) * 2 ^ (-53 : Int) := by
      rw [nearest, unit_below_one half one]
      exact mul_le_mul_of_nonneg_right digits' (by positivity)
    _ = 1 - 2 ^ (-53 : Int) := by norm_num

/-- Further above one, at least the least float above it is the nearest. -/
theorem one_lt_nearest (low : 1 + 2 ^ (-53 : Int) < r) : 1 < nearest r := by
  have above : 1 + 2 ^ (-53 : Int) < min r (3 / 2) := lt_min low (by norm_num)
  have one : 1 ≤ min r (3 / 2) := le_trans (by norm_num) above.le
  have two : min r (3 / 2) < 2 := (min_le_right _ _).trans_lt (by norm_num)
  have digits : 2 ^ 52 + 1 ≤ halfEven (min r (3 / 2) / 2 ^ (-52 : Int)) := by
    refine le_halfEven_of_lt ?_
    rw [lt_div_iff₀ (by positivity)]
    exact lt_of_eq_of_lt (by norm_num) above
  have digits' : (2 ^ 52 + 1 : ℚ) ≤ halfEven (min r (3 / 2) / 2 ^ (-52 : Int)) := by
    exact_mod_cast digits
  calc (1 : ℚ) < (2 ^ 52 + 1) * 2 ^ (-52 : Int) := by norm_num
    _ ≤ nearest (min r (3 / 2)) := by
      rw [nearest, unit_from_one one two]
      exact mul_le_mul_of_nonneg_right digits' (by positivity)
    _ ≤ nearest r := nearest_mono (zero_lt_one.trans_le one) (min_le_left _ _)

/-- The largest float below one. -/
theorem Denotes.le_of_lt_one (denotes : Denotes x p) (positive : 0 < p) (less : p < 1) :
    p ≤ 1 - 2 ^ (-53 : Int) := by
  obtain ⟨m, e, h, parts, rfl⟩ := denotes.parts positive
  obtain ⟨digits, low, -, normal⟩ := parts ▸ canonical x
  have few : (m : ℚ) ≤ 2 ^ 53 - 1 := by
    have : m + 1 ≤ 2 ^ 53 := digits
    have : (m : ℚ) + 1 ≤ 2 ^ 53 := by exact_mod_cast this
    linarith
  rcases Int.lt_or_le e (-52) with small | large
  · have scale : (2 : ℚ) ^ e ≤ 2 ^ (-53 : Int) := zpow_le_zpow_right₀ one_le_two (by omega)
    calc (m : ℚ) * 2 ^ e ≤ (2 ^ 53 - 1) * 2 ^ (-53 : Int) :=
          mul_le_mul few scale (by positivity) (by norm_num)
      _ = 1 - 2 ^ (-53 : Int) := by norm_num
  · have many : (2 : ℚ) ^ 52 ≤ m := by exact_mod_cast normal.resolve_right (by omega)
    have scale : (2 : ℚ) ^ (-52 : Int) ≤ 2 ^ e := zpow_le_zpow_right₀ one_le_two large
    have one : (1 : ℚ) ≤ m * 2 ^ e :=
      calc (1 : ℚ) = 2 ^ 52 * 2 ^ (-52 : Int) := by norm_num
        _ ≤ (m : ℚ) * 2 ^ e := mul_le_mul many scale (by positivity) (by positivity)
    exact absurd less one.not_gt

end Metering.Binary64
