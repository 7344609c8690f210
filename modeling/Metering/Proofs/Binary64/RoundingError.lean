import Mathlib.Algebra.Order.Ring.Pow
import Metering.Proofs.Binary64.Arithmetic

/-!
# Accumulated rounding errors

Away from the ends of the range of floats, a rounding changes a rational by a factor of at most
`slack`, up or down. So a float that comes of `n` roundings is within the `n`-th power of that
factor of what exact arithmetic gives (`Near`). For a power by squaring the number of roundings is
the exponent (`near_pow`).
-/

namespace Metering.Binary64

variable {x y r a : Float} {p q s t z : ℚ} {i j k m n : Nat}

/-- The factor by which a rounding changes a rational at most. -/
def slack : ℚ := 2 ^ 53 / (2 ^ 53 - 1)

theorem slack_pos : 0 < slack := by norm_num [slack]

theorem one_le_slack : 1 ≤ slack := by norm_num [slack]

theorem inv_slack : slack⁻¹ = 1 - 2 ^ (-53 : Int) := by norm_num [slack]

theorem one_le_slack_pow (n : Nat) : 1 ≤ slack ^ n := one_le_pow₀ one_le_slack

theorem slack_pow_pos (n : Nat) : 0 < slack ^ n := pow_pos slack_pos n

theorem slack_pow_mono (le : m ≤ n) : slack ^ m ≤ slack ^ n := pow_le_pow_right₀ one_le_slack le

/-- Many roundings together change a rational little. -/
theorem slack_pow_mul_le (n : Nat) : slack ^ n * (1 - n * 2 ^ (-53 : Int)) ≤ 1 := by
  have bernoulli : 1 + (n : ℚ) * (-2 ^ (-53 : Int)) ≤ (1 + -2 ^ (-53 : Int)) ^ n :=
    one_add_mul_le_pow (by norm_num) n
  have inverse : slack ^ n * (1 + -2 ^ (-53 : Int)) ^ n = 1 := by
    rw [← mul_pow, ← sub_eq_add_neg, ← inv_slack, mul_inv_cancel₀ slack_pos.ne', one_pow]
  calc slack ^ n * (1 - n * 2 ^ (-53 : Int)) = slack ^ n * (1 + n * (-2 ^ (-53 : Int))) := by ring
    _ ≤ slack ^ n * (1 + -2 ^ (-53 : Int)) ^ n :=
      mul_le_mul_of_nonneg_left bernoulli (slack_pow_pos n).le
    _ = 1 := inverse

theorem slack_pow_le_two (few : n ≤ 2 ^ 52) : slack ^ n ≤ 2 := by
  have bound := slack_pow_mul_le n
  have part : (n : ℚ) * 2 ^ (-53 : Int) ≤ 1 / 2 := by
    have few' : (n : ℚ) ≤ 2 ^ 52 := by exact_mod_cast few
    calc (n : ℚ) * 2 ^ (-53 : Int) ≤ 2 ^ 52 * 2 ^ (-53 : Int) :=
          mul_le_mul_of_nonneg_right few' (by positivity)
      _ = 1 / 2 := by norm_num
  have half : slack ^ n * (1 / 2) ≤ slack ^ n * (1 - n * 2 ^ (-53 : Int)) :=
    mul_le_mul_of_nonneg_left (by linarith) (slack_pow_pos n).le
  linarith [half.trans bound]

/-- A rational far from overflow, whose inverse is far from the subnormal range. -/
@[irreducible] def reach : ℚ := 2 ^ 1020

theorem one_le_reach : 1 ≤ reach := by
  unfold reach
  exact one_le_pow₀ one_le_two

theorem reach_pos : 0 < reach := zero_lt_one.trans_le one_le_reach

theorem four_mul_reach_lt : 2 * (reach * 2) < 2 ^ 1024 := by
  unfold reach
  calc (2 : ℚ) * (2 ^ 1020 * 2) = 2 ^ 1022 := by rw [← pow_succ, ← pow_succ']
    _ < 2 ^ 1024 := pow_lt_pow_right₀ one_lt_two (by norm_num)

theorem normal_mul_two_le : 2 ^ (-1022 : Int) * 2 ≤ reach⁻¹ := by
  unfold reach
  calc (2 : ℚ) ^ (-1022 : Int) * 2 = 2 ^ (-1021 : Int) := (zpow_add_one₀ two_ne_zero _).symm
    _ ≤ 2 ^ (-1020 : Int) := zpow_le_zpow_right₀ one_le_two (by norm_num)
    _ = (2 ^ 1020)⁻¹ := by rw [zpow_neg, zpow_ofNat]

theorem pow_le_reach (le : n ≤ 1020) : 2 ^ n ≤ reach := by
  unfold reach
  exact pow_le_pow_right₀ one_le_two le

theorem inv_reach_le (positive : 0 < t) (le : t⁻¹ ≤ reach) : reach⁻¹ ≤ t :=
  inv_le_of_inv_le₀ positive le

theorem normal_of_inv_reach_le (low : reach⁻¹ ≤ z) : 2 ^ (-1022 : Int) ≤ z := by
  have double : (2 : ℚ) ^ (-1022 : Int) ≤ 2 ^ (-1022 : Int) * 2 :=
    le_mul_of_one_le_right (by positivity) one_le_two
  exact double.trans (normal_mul_two_le.trans low)

/-- What is rounded far from overflow does not overflow. -/
theorem nearest_lt_of_le (normal : 2 ^ (-1022 : Int) ≤ z) (high : z ≤ reach * 2) :
    nearest z < 2 ^ 1024 :=
  calc nearest z ≤ 2 * z := nearest_le_two_mul normal
    _ ≤ 2 * (reach * 2) := mul_le_mul_of_nonneg_left high two_pos.le
    _ < 2 ^ 1024 := four_mul_reach_lt

/-- The float is the rational but for `n` roundings. -/
structure Near (x : Float) (t : ℚ) (n : Nat) : Prop where
  denotes : Denotes x (value x)
  lower : t / slack ^ n ≤ Binary64.value x
  upper : Binary64.value x ≤ t * slack ^ n

theorem Denotes.near (denotes : Denotes x p) : Near x p 0 := by
  have same : Binary64.value x = p := denotes.value
  refine ⟨⟨denotes.finite, rfl⟩, ?_, ?_⟩ <;> rw [same]
  · rw [pow_zero, div_one]
  · rw [pow_zero, mul_one]

theorem Near.mono (near : Near x t m) (nonneg : 0 ≤ t) (le : m ≤ n) : Near x t n :=
  ⟨near.denotes,
    (div_le_div_of_nonneg_left nonneg (slack_pow_pos m) (slack_pow_mono le)).trans near.lower,
    near.upper.trans (mul_le_mul_of_nonneg_left (slack_pow_mono le) nonneg)⟩

theorem Near.pos (near : Near x t n) (positive : 0 < t) : 0 < value x :=
  (div_pos positive (slack_pow_pos n)).trans_le near.lower

/-- One more rounding. The bounds keep clear of the subnormal range and of overflow. -/
theorem near_of_nearest (lower : t / slack ^ n ≤ z) (upper : z ≤ t * slack ^ n)
    (low : reach⁻¹ ≤ t) (high : t ≤ reach) (few : n ≤ 2 ^ 52)
    (denotes : nearest z < 2 ^ 1024 → Denotes x (nearest z)) : Near x t (n + 1) := by
  have positive : 0 < t := (inv_pos.2 reach_pos).trans_le low
  have two := slack_pow_le_two few
  have scale := slack_pow_pos n
  have normal : 2 ^ (-1022 : Int) ≤ z := by
    refine le_trans ?_ lower
    rw [le_div_iff₀ scale]
    calc (2 : ℚ) ^ (-1022 : Int) * slack ^ n ≤ 2 ^ (-1022 : Int) * 2 :=
          mul_le_mul_of_nonneg_left two (by positivity)
      _ ≤ reach⁻¹ := normal_mul_two_le
      _ ≤ t := low
  have nonneg : 0 ≤ z := le_trans (by positivity) normal
  have small : nearest z < 2 ^ 1024 :=
    nearest_lt_of_le normal (upper.trans (mul_le_mul high two scale.le reach_pos.le))
  have error := abs_le.1 (abs_nearest_sub_le_mul normal)
  have rounded := denotes small
  have same : value x = nearest z := rounded.value
  have up : nearest z ≤ z * slack := by
    have factor : 1 + 2 ^ (-53 : Int) ≤ slack := by norm_num [slack]
    calc nearest z ≤ z * (1 + 2 ^ (-53 : Int)) := by linarith
      _ ≤ z * slack := mul_le_mul_of_nonneg_left factor nonneg
  have down : z / slack ≤ nearest z := by
    rw [div_eq_mul_inv, inv_slack]
    linarith
  refine ⟨⟨rounded.finite, rfl⟩, ?_, ?_⟩ <;> rw [same]
  · calc t / slack ^ (n + 1) = t / slack ^ n / slack := by rw [pow_succ, div_div]
      _ ≤ z / slack := div_le_div_of_nonneg_right lower slack_pos.le
      _ ≤ nearest z := down
  · calc nearest z ≤ z * slack := up
      _ ≤ t * slack ^ n * slack := mul_le_mul_of_nonneg_right upper slack_pos.le
      _ = t * slack ^ (n + 1) := by rw [pow_succ, mul_assoc]

theorem Near.mul (left : Near x s m) (right : Near y t n) (positive : 0 < s) (positive' : 0 < t)
    (low : reach⁻¹ ≤ s * t) (high : s * t ≤ reach) (few : m + n ≤ 2 ^ 52) :
    Near (x * y) (s * t) (m + n + 1) := by
  have first := left.pos positive
  have second := right.pos positive'
  refine near_of_nearest ?_ ?_ low high few
    (left.denotes.mul right.denotes first second)
  · calc s * t / slack ^ (m + n) = s / slack ^ m * (t / slack ^ n) := by
          rw [pow_add, div_mul_div_comm]
      _ ≤ value x * value y := mul_le_mul left.lower right.lower
          (div_pos positive' (slack_pow_pos n)).le first.le
  · calc value x * value y ≤ s * slack ^ m * (t * slack ^ n) := mul_le_mul left.upper right.upper
          second.le (mul_pos positive (slack_pow_pos m)).le
      _ = s * t * slack ^ (m + n) := by ring

theorem Near.div (left : Near x s m) (right : Near y t n) (positive : 0 < s) (positive' : 0 < t)
    (low : reach⁻¹ ≤ s / t) (high : s / t ≤ reach) (few : m + n ≤ 2 ^ 52) :
    Near (x / y) (s / t) (m + n + 1) := by
  have first := left.pos positive
  have second := right.pos positive'
  refine near_of_nearest ?_ ?_ low high few
    (left.denotes.div right.denotes first second)
  · calc s / t / slack ^ (m + n) = s / slack ^ m / (t * slack ^ n) := by
          rw [pow_add, div_div, div_div]
          ring
      _ ≤ value x / value y := div_le_div₀ first.le left.lower second right.upper
  · calc value x / value y ≤ s * slack ^ m / (t / slack ^ n) :=
          div_le_div₀ (mul_pos positive (slack_pow_pos m)).le left.upper
            (div_pos positive' (slack_pow_pos n)) right.lower
      _ = s / t * slack ^ (m + n) := by
        have scale := (slack_pow_pos n).ne'
        have divisor := positive'.ne'
        field_simp
        ring

theorem Denotes.near_add (left : Denotes x p) (right : Denotes y q) (positive : 0 < p)
    (positive' : 0 < q) (low : reach⁻¹ ≤ p + q) (high : p + q ≤ reach) :
    Near (x + y) (p + q) 1 := by
  refine near_of_nearest (n := 0) ?_ ?_ low high (Nat.zero_le _) (left.add right positive positive')
  · rw [pow_zero, div_one]
  · rw [pow_zero, mul_one]

theorem Denotes.near_sub (left : Denotes x p) (right : Denotes y q) (positive : 0 < q)
    (less : q < p) (low : reach⁻¹ ≤ p - q) (high : p - q ≤ reach) :
    Near (x - y) (p - q) 1 := by
  refine near_of_nearest (n := 0) ?_ ?_ low high (Nat.zero_le _) (left.sub right positive less)
  · rw [pow_zero, div_one]
  · rw [pow_zero, mul_one]

/-! ## Powers -/

theorem low_of_one_le (le : 1 ≤ t) : reach⁻¹ ≤ t := (inv_le_one_of_one_le₀ one_le_reach).trans le

/-- What is accumulated takes in the base if the last bit of the exponent is set. -/
theorem near_bit (nearR : Near r s i) (nearA : Near a t j) (one : 1 ≤ s) (one' : 1 ≤ t)
    (high : s * t ^ n ≤ reach) (few : i + (j + 1) * n ≤ 2 ^ 52) :
    Near (if n % 2 = 1 then r * a else r) (s * t ^ (n % 2)) (i + (j + 1) * (n % 2)) := by
  rcases Nat.mod_two_eq_zero_or_one n with even | odd
  · rw [even, if_neg (by decide), pow_zero, mul_one, Nat.mul_zero, Nat.add_zero]
    exact nearR
  · rw [odd, if_pos rfl, pow_one, Nat.mul_one, ← Nat.add_assoc]
    have positive : 0 < s := zero_lt_one.trans_le one
    have within : s * t ≤ s * t ^ n :=
      mul_le_mul_of_nonneg_left (le_self_pow₀ one' (by omega)) positive.le
    have counts : i + (j + 1) * 1 ≤ i + (j + 1) * n :=
      Nat.add_le_add_left (Nat.mul_le_mul_left _ (by omega)) _
    have least : 1 ≤ s * t := one_le_mul_of_one_le_of_one_le one one'
    exact nearR.mul nearA positive (zero_lt_one.trans_le one') (low_of_one_le least)
      (within.trans high) (by omega)

/-- The power by squaring of a base of `j` roundings, times what is accumulated: every squaring
doubles the roundings of the base, and every bit of the exponent that is set adds those of the base
and one more. -/
theorem near_powAccumulate (nearR : Near r s i) (nearA : Near a t j) (one : 1 ≤ s) (one' : 1 ≤ t)
    (high : s * t ^ n ≤ reach) (few : i + (j + 1) * n ≤ 2 ^ 52) :
    Near (powAccumulate r a n) (s * t ^ n) (i + (j + 1) * n) := by
  induction n using Nat.strongRecOn generalizing r a s t i j with
  | _ n ih =>
    have step := near_bit nearR nearA one one' high few
    have halves : n = n % 2 + 2 * (n / 2) := (Nat.mod_add_div n 2).symm
    rw [powAccumulate]
    by_cases last : n / 2 = 0
    · rw [if_pos last]
      have whole : n % 2 = n := by omega
      simpa only [whole] using step
    · rw [if_neg last]
      have positive : 0 < t := zero_lt_one.trans_le one'
      have power : s * t ^ n = s * t ^ (n % 2) * (t * t) ^ (n / 2) := by
        rw [← pow_two, ← pow_mul, mul_assoc, ← pow_add, ← halves]
      have count : i + (j + 1) * n = i + (j + 1) * (n % 2) + (j + j + 1 + 1) * (n / 2) := by
        conv_lhs => rw [halves]
        ring
      have one'' : 1 ≤ t * t := one_le_mul_of_one_le_of_one_le one' one'
      have square : Near (a * a) (t * t) (j + j + 1) := by
        have within : t * t ≤ s * t ^ n := by
          rw [← pow_two]
          calc t ^ 2 ≤ t ^ n := pow_le_pow_right₀ one' (by omega)
            _ ≤ s * t ^ n := le_mul_of_one_le_left (pow_pos positive n).le one
        have counts : (j + 1) * 2 ≤ (j + 1) * n := Nat.mul_le_mul_left _ (by omega)
        exact nearA.mul nearA positive positive (low_of_one_le one'') (within.trans high)
          (by omega)
      rw [power, count]
      rw [power] at high
      rw [count] at few
      exact ih (n / 2) (by omega) step square
        (one_le_mul_of_one_le_of_one_le one (one_le_pow₀ one')) one'' high few

theorem denotes_one : Denotes 1.0 1 := by
  have one : value 1.0 = 1 := by decide +kernel
  rw [← one]
  exact denotes_of_isFinite (by decide +kernel)

/-- The power of a float that is at least one. -/
theorem near_pow {k : Int} (denotes : Denotes a t) (one : 1 ≤ t) (high : t ^ k.natAbs ≤ reach)
    (few : k.natAbs < 2 ^ 52) : Near (pow a k) (t ^ k) (k.natAbs + 1) := by
  have positive : 0 < t := zero_lt_one.trans_le one
  have power : Near (powAccumulate 1.0 a k.natAbs) (t ^ k.natAbs) k.natAbs := by
    have accumulated := near_powAccumulate (n := k.natAbs) denotes_one.near denotes.near le_rfl one
      (by rwa [one_mul]) (by omega)
    simpa using accumulated
  unfold pow
  dsimp only
  by_cases negative : k < 0
  · rw [if_pos negative]
    have inverse : t ^ k = 1 / t ^ k.natAbs := by
      rw [one_div, ← zpow_natCast, ← zpow_neg]
      congr 1
      omega
    have low : reach⁻¹ ≤ 1 / t ^ k.natAbs := by
      rw [one_div]
      exact inv_anti₀ (pow_pos positive _) high
    have top : 1 / t ^ k.natAbs ≤ reach :=
      ((div_le_one₀ (pow_pos positive _)).2 (one_le_pow₀ one)).trans one_le_reach
    have reciprocal := denotes_one.near.div power zero_lt_one (pow_pos positive _) low top
      (by omega)
    rw [inverse]
    rwa [Nat.zero_add] at reciprocal
  · rw [if_neg negative]
    have same : t ^ k = t ^ k.natAbs := by
      rw [← zpow_natCast]
      congr 1
      omega
    rw [same]
    exact power.mono (pow_pos positive _).le (Nat.le_succ _)

end Metering.Binary64
