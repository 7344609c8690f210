import Mathlib.Algebra.Order.Floor.Ring
import Mathlib.Data.Int.Log
import Mathlib.Data.Rat.Floor
import Mathlib.Tactic.FieldSimp
import Metering.Proofs.Binary64.Order

/-!
# Rounding

Operations on floats are exact but for one rounding at their end, which takes a rational to the
nearest multiple of a unit in the last of 53 digits (`nearest`). Rounding keeps the order, and
above the subnormal range it changes a rational by at most one part in `2 ^ 53`. A significand with
its round bit and its sticky bit tells as much of a rational as rounding needs (`Represents`).
-/

namespace Metering.Binary64

open Float.Model Float.Model.UnpackedFloat

/-! ## To the nearest integer -/

/-- The integer nearest to `y`; a tie goes to the even one. -/
def halfEven (y : ℚ) : Int :=
  if Int.fract y < 1 / 2 ∨ Int.fract y = 1 / 2 ∧ ⌊y⌋ % 2 = 0 then ⌊y⌋ else ⌊y⌋ + 1

variable {x y z : ℚ} {m n : Nat} {e f : Int}

theorem floor_le_halfEven (y : ℚ) : ⌊y⌋ ≤ halfEven y := by
  rw [halfEven]
  split <;> omega

theorem halfEven_le_floor_add_one (y : ℚ) : halfEven y ≤ ⌊y⌋ + 1 := by
  rw [halfEven]
  split <;> omega

theorem halfEven_mono (le : y ≤ z) : halfEven y ≤ halfEven z := by
  rcases Int.lt_or_eq_of_le (Int.floor_le_floor le) with less | same
  · calc halfEven y ≤ ⌊y⌋ + 1 := halfEven_le_floor_add_one y
      _ ≤ ⌊z⌋ := less
      _ ≤ halfEven z := floor_le_halfEven z
  · have fractions : Int.fract y ≤ Int.fract z := by
      rw [Int.fract, Int.fract, same]
      exact sub_le_sub_right le _
    rw [halfEven, halfEven, same]
    split
    · split <;> omega
    · rename_i up
      rw [if_neg]
      rintro (below | ⟨half, even⟩)
      · exact up (.inl (fractions.trans_lt below))
      · rcases fractions.lt_or_eq with less | equal
        · exact up (.inl (less.trans_eq half))
        · exact up (.inr ⟨equal.trans half, even⟩)

theorem halfEven_intCast (n : Int) : halfEven n = n := by
  rw [halfEven, if_pos]
  · exact Int.floor_intCast n
  · rw [Int.fract_intCast]
    norm_num

theorem abs_halfEven_sub_le (y : ℚ) : |(halfEven y : ℚ) - y| ≤ 1 / 2 := by
  have parts := Int.floor_add_fract y
  have low := Int.fract_nonneg y
  have high := Int.fract_lt_one y
  rw [halfEven, abs_le]
  split
  · rename_i down
    have below : Int.fract y ≤ 1 / 2 := by
      rcases down with less | ⟨half, -⟩
      · exact less.le
      · exact half.le
    constructor <;> linarith
  · rename_i up
    have above : 1 / 2 ≤ Int.fract y := by
      rw [← not_lt]
      exact fun less => up (.inl less)
    push_cast
    constructor <;> linarith

/-- Just what is at most a half is rounded to nothing. -/
theorem halfEven_eq_zero_iff (nonneg : 0 ≤ y) : halfEven y = 0 ↔ y ≤ 1 / 2 := by
  have parts := Int.floor_add_fract y
  have whole := Int.floor_nonneg.2 nonneg
  have low := Int.fract_nonneg y
  constructor
  · intro none_
    have error := (abs_le.1 (abs_halfEven_sub_le y)).1
    rw [none_, Int.cast_zero] at error
    linarith
  · intro small
    have floor : ⌊y⌋ = 0 := Int.floor_eq_zero_iff.2 ⟨nonneg, by linarith⟩
    rw [floor, Int.cast_zero, zero_add] at parts
    rw [halfEven, floor, parts, if_pos]
    rcases small.lt_or_eq with less | same
    · exact .inl less
    · exact .inr ⟨same, rfl⟩

/-! ## To 53 digits -/

/-- The exponent of the last digit that a float near `x` keeps. -/
def unit (x : ℚ) : Int := max (Int.log 2 x - 52) (-1074)

/-- The float nearest to the positive rational `x`, as if there were no largest one. -/
def nearest (x : ℚ) : ℚ := halfEven (x / 2 ^ unit x) * 2 ^ unit x

theorem zpow_unit_pos (x : ℚ) : (0 : ℚ) < 2 ^ unit x := by positivity

theorem unit_mono (positive : 0 < x) (le : x ≤ y) : unit x ≤ unit y := by
  have logs : Int.log 2 x ≤ Int.log 2 y := Int.log_mono_right positive le
  unfold unit
  omega

/-- Scaled to its unit, a rational has at most 53 digits before the point. -/
theorem div_unit_lt (x : ℚ) : x / 2 ^ unit x < 2 ^ 53 := by
  have below : x < 2 ^ (Int.log 2 x + 1) := by exact_mod_cast Int.lt_zpow_succ_log_self one_lt_two x
  have digits : (2 : ℚ) ^ (Int.log 2 x + 1) ≤ 2 ^ (53 + unit x) := by
    refine zpow_le_zpow_right₀ one_le_two ?_
    unfold unit
    omega
  rw [div_lt_iff₀ (zpow_unit_pos x)]
  calc x < 2 ^ (53 + unit x) := below.trans_le digits
    _ = 2 ^ 53 * 2 ^ unit x := by rw [zpow_add₀ two_ne_zero]; norm_cast

/-- Above the least unit, a rational scaled to its unit has 53 digits before the point. -/
theorem le_div_unit (positive : 0 < x) (normal : -1074 < unit x) : 2 ^ 52 ≤ x / 2 ^ unit x := by
  have above : 2 ^ Int.log 2 x ≤ x := by exact_mod_cast Int.zpow_log_le_self one_lt_two positive
  have exponent : Int.log 2 x = 52 + unit x := by
    unfold unit at normal ⊢
    omega
  rw [le_div_iff₀ (zpow_unit_pos x)]
  calc (2 : ℚ) ^ 52 * 2 ^ unit x = 2 ^ Int.log 2 x := by
        rw [exponent, zpow_add₀ two_ne_zero]; norm_cast
    _ ≤ x := above

theorem halfEven_le_digits (x : ℚ) : halfEven (x / 2 ^ unit x) ≤ 2 ^ 53 := by
  have bound := halfEven_mono (div_unit_lt x).le
  rw [show ((2 : ℚ) ^ 53) = ((2 ^ 53 : Int) : ℚ) by norm_num, halfEven_intCast] at bound
  exact bound

theorem digits_le_halfEven (positive : 0 < x) (normal : -1074 < unit x) :
    2 ^ 52 ≤ halfEven (x / 2 ^ unit x) := by
  have bound := halfEven_mono (le_div_unit positive normal)
  rw [show ((2 : ℚ) ^ 52) = ((2 ^ 52 : Int) : ℚ) by norm_num, halfEven_intCast] at bound
  exact bound

theorem halfEven_nonneg (nonneg : 0 ≤ y) : 0 ≤ halfEven y :=
  (Int.floor_nonneg.2 nonneg).trans (floor_le_halfEven y)

theorem nearest_nonneg (positive : 0 < x) : 0 ≤ nearest x := by
  have scaled : 0 ≤ x / 2 ^ unit x := by positivity
  have digits : (0 : ℚ) ≤ halfEven (x / 2 ^ unit x) := by exact_mod_cast halfEven_nonneg scaled
  rw [nearest]
  positivity

/-- Rounding keeps the order. Where the unit grows, a power of two lies between the two. -/
theorem nearest_mono (positive : 0 < x) (le : x ≤ y) : nearest x ≤ nearest y := by
  have positive' : 0 < y := positive.trans_le le
  rcases Int.lt_or_eq_of_le (unit_mono positive le) with less | same
  · have normal : -1074 < unit y := by
      refine Int.lt_of_le_of_lt ?_ less
      unfold unit
      omega
    have low : (halfEven (x / 2 ^ unit x) : ℚ) ≤ 2 ^ 53 := by
      exact_mod_cast halfEven_le_digits x
    have high : (2 : ℚ) ^ 52 ≤ halfEven (y / 2 ^ unit y) := by
      exact_mod_cast digits_le_halfEven positive' normal
    have units : (2 : ℚ) * 2 ^ unit x ≤ 2 ^ unit y := by
      rw [mul_comm, ← zpow_add_one₀ two_ne_zero]
      exact zpow_le_zpow_right₀ one_le_two less
    calc nearest x ≤ 2 ^ 53 * 2 ^ unit x := mul_le_mul_of_nonneg_right low (zpow_unit_pos x).le
      _ = 2 ^ 52 * (2 * 2 ^ unit x) := by ring
      _ ≤ 2 ^ 52 * 2 ^ unit y := mul_le_mul_of_nonneg_left units (by positivity)
      _ ≤ nearest y := mul_le_mul_of_nonneg_right high (zpow_unit_pos y).le
  · have digits : halfEven (x / 2 ^ unit x) ≤ halfEven (y / 2 ^ unit y) := by
      rw [same]
      exact halfEven_mono (div_le_div_of_nonneg_right le (zpow_unit_pos y).le)
    have digits' : (halfEven (x / 2 ^ unit x) : ℚ) ≤ halfEven (y / 2 ^ unit y) := by
      exact_mod_cast digits
    calc nearest x ≤ halfEven (y / 2 ^ unit y) * 2 ^ unit x :=
          mul_le_mul_of_nonneg_right digits' (zpow_unit_pos x).le
      _ = nearest y := by rw [nearest, same]

theorem abs_nearest_sub_le (x : ℚ) : |nearest x - x| ≤ 2 ^ unit x / 2 := by
  have scale := zpow_unit_pos x
  have error := abs_halfEven_sub_le (x / 2 ^ unit x)
  have split_ : nearest x - x = (halfEven (x / 2 ^ unit x) - x / 2 ^ unit x) * 2 ^ unit x := by
    rw [nearest, sub_mul, div_mul_cancel₀ _ scale.ne']
  calc |nearest x - x| = |halfEven (x / 2 ^ unit x) - x / 2 ^ unit x| * 2 ^ unit x := by
        rw [split_, abs_mul, abs_of_pos scale]
    _ ≤ 1 / 2 * 2 ^ unit x := mul_le_mul_of_nonneg_right error scale.le
    _ = 2 ^ unit x / 2 := by ring

/-- Above the subnormal range, rounding changes a rational by one part in `2 ^ 53` at most. -/
theorem abs_nearest_sub_le_mul (normal : 2 ^ (-1022 : Int) ≤ x) :
    |nearest x - x| ≤ x * 2 ^ (-53 : Int) := by
  have positive : 0 < x := lt_of_lt_of_le (by positivity) normal
  have log : -1022 ≤ Int.log 2 x :=
    (Int.zpow_le_iff_le_log one_lt_two positive).1 (by exact_mod_cast normal)
  have above : 2 ^ Int.log 2 x ≤ x := by exact_mod_cast Int.zpow_log_le_self one_lt_two positive
  have exponent : unit x = Int.log 2 x - 52 := by
    unfold unit
    omega
  calc |nearest x - x| ≤ 2 ^ unit x / 2 := abs_nearest_sub_le x
    _ = 2 ^ Int.log 2 x * 2 ^ (-53 : Int) := by
      rw [exponent, div_eq_mul_inv, ← zpow_neg_one, ← zpow_add₀ two_ne_zero,
        ← zpow_add₀ two_ne_zero]
      congr 1
      ring
    _ ≤ x * 2 ^ (-53 : Int) := mul_le_mul_of_nonneg_right above (by positivity)

theorem nearest_le_two_mul (normal : 2 ^ (-1022 : Int) ≤ x) : nearest x ≤ 2 * x := by
  have nonneg : 0 ≤ x := le_trans (by positivity) normal
  have error := (abs_le.1 (abs_nearest_sub_le_mul normal)).2
  have small : x * 2 ^ (-53 : Int) ≤ x * 1 :=
    mul_le_mul_of_nonneg_left (zpow_le_one_of_nonpos₀ one_le_two (by norm_num)) nonneg
  linarith

/-! ## Significands with a round bit and a sticky bit -/

/-- The significand is the integer part of `y`, the round bit tells whether the fraction is at least
a half, and the sticky bit whether there is anything besides. -/
def Represents (em : ExtendedMantissa) (y : ℚ) : Prop :=
  ∃ rest : ℚ, y = em.mantissa + (if em.roundBit then 1 / 2 else 0) + rest ∧
    if em.stickyBit then 0 < rest ∧ rest < 1 / 2 else rest = 0

theorem represents_exact (m : Nat) :
    Represents (ExtendedMantissa.ofMantissaAndAccuracy m .exact) m :=
  ⟨0, by simp [ExtendedMantissa.ofMantissaAndAccuracy]⟩

/-- What is represented lies within the next significand. -/
theorem Represents.bounds {em : ExtendedMantissa} (represents : Represents em y) :
    (em.mantissa : ℚ) ≤ y ∧ y < em.mantissa + 1 := by
  obtain ⟨rest, rfl, sticky⟩ := represents
  have within : 0 ≤ rest ∧ rest < 1 / 2 := by
    split at sticky
    · exact ⟨sticky.1.le, sticky.2⟩
    · rw [sticky]
      norm_num
  obtain ⟨low, high⟩ := within
  split <;> constructor <;> linarith

theorem Represents.floor {em : ExtendedMantissa} (represents : Represents em y) :
    ⌊y⌋ = em.mantissa := by
  obtain ⟨low, high⟩ := represents.bounds
  rw [Int.floor_eq_iff]
  exact ⟨by exact_mod_cast low, by exact_mod_cast high⟩

/-- Shifting out a digit makes it the round bit, and collects the others in the sticky bit. -/
theorem Represents.shiftRightOne {em : ExtendedMantissa} (represents : Represents em y) :
    Represents em.shiftRightOne (y / 2) := by
  obtain ⟨m, r, s⟩ := em
  obtain ⟨rest, rfl, sticky⟩ := represents
  simp only at sticky ⊢
  have halves : (m : ℚ) = 2 * (m / 2 : Nat) + (m % 2 : Nat) := by
    exact_mod_cast (Nat.div_add_mod m 2).symm
  refine ⟨(if r then 1 / 4 else 0) + rest / 2, ?_, ?_⟩
  · rw [ExtendedMantissa.shiftRightOne, halves]
    rcases Nat.mod_two_eq_zero_or_one m with even | odd
    · simp only [even]
      cases r <;> simp <;> ring
    · simp only [odd]
      cases r <;> simp <;> ring
  · rw [ExtendedMantissa.shiftRightOne]
    cases s with
    | true =>
      obtain ⟨low, high⟩ := sticky
      rw [Bool.or_true, if_pos rfl]
      cases r <;> simp <;> constructor <;> linarith
    | false =>
      have none_ : rest = 0 := sticky
      cases r <;> simp [none_]
      norm_num

theorem Represents.shiftRight {em : ExtendedMantissa} (represents : Represents em y) (n : Nat) :
    Represents (em >>> n) (y / 2 ^ n) := by
  change Represents (n.repeat ExtendedMantissa.shiftRightOne em) (y / 2 ^ n)
  induction n with
  | zero => simpa [Nat.repeat] using represents
  | succ n ih =>
    have next := ih.shiftRightOne
    rwa [div_div, ← pow_succ] at next

theorem Represents.roundedMantissa {em : ExtendedMantissa} (represents : Represents em y) :
    (em.roundedMantissa : Int) = halfEven y := by
  have floor := represents.floor
  obtain ⟨m, r, s⟩ := em
  obtain ⟨rest, parts, sticky⟩ := represents
  simp only at floor parts sticky
  have fraction : Int.fract y = (if r then 1 / 2 else 0) + rest := by
    rw [Int.fract, floor, parts]
    push_cast
    ring
  rw [halfEven, floor, fraction]
  cases r with
  | false =>
    have below : (if false = true then (1 : ℚ) / 2 else 0) + rest < 1 / 2 := by
      cases s with
      | true =>
        rw [if_neg Bool.false_ne_true, zero_add]
        exact sticky.2
      | false =>
        have none_ : rest = 0 := sticky
        rw [none_]
        norm_num
    rw [if_pos (.inl below)]
    cases s <;> rfl
  | true =>
    cases s with
    | true =>
      have positive : 0 < rest := sticky.1
      rw [if_neg]
      · rfl
      · rw [if_pos rfl]
        rintro (less | ⟨half, -⟩) <;> linarith
    | false =>
      have none_ : rest = 0 := sticky
      rw [none_, if_pos rfl, add_zero]
      change ((m + m % 2 : Nat) : Int) = _
      rcases Nat.mod_two_eq_zero_or_one m with even | odd
      · rw [if_pos (.inr ⟨rfl, by omega⟩), even, Nat.add_zero]
      · rw [if_neg, odd]
        · rfl
        · rintro (less | ⟨-, even⟩)
          · exact lt_irrefl _ less
          · omega

/-! ## Rounding a significand -/

/-- An unpacked float as rounding leaves it, of whatever size. -/
def Rounded : UnpackedFloat → Prop
  | .finite _ m e _ => m < 2 ^ 53 ∧ -1074 ≤ e ∧ (2 ^ 52 ≤ m ∨ e = -1074)
  | .zero _ => True
  | _ => False

/-- The rational of a sign and a magnitude. -/
def signed : Sign → ℚ → ℚ
  | .positive, x => x
  | .negative, x => -x

/-- The significand and its exponent tell as much of `x` as rounding needs: there are 53 digits, or
none below the least unit is missing. -/
structure Held (m : Nat) (e : Int) (a : Accuracy) (x : ℚ) : Prop where
  represents : Represents (ExtendedMantissa.ofMantissaAndAccuracy m a) (x / 2 ^ e)
  enough : 2 ^ 52 ≤ m ∨ e ≤ -1074

theorem mantissa_ofMantissaAndAccuracy (m : Nat) (a : Accuracy) :
    (ExtendedMantissa.ofMantissaAndAccuracy m a).mantissa = m := by
  cases a with
  | exact => rfl
  | inexact o => cases o <;> rfl

variable {s : Sign} {a : Accuracy}

theorem Held.bounds (held : Held m e a x) : m * 2 ^ e ≤ x ∧ x < (m + 1) * 2 ^ e := by
  have scale : (0 : ℚ) < 2 ^ e := by positivity
  obtain ⟨low, high⟩ := held.represents.bounds
  rw [mantissa_ofMantissaAndAccuracy] at low high
  exact ⟨(le_div_iff₀ scale).1 low, (div_lt_iff₀ scale).1 high⟩

/-- The digits of the significand before and after the point are those of the rational. -/
theorem Held.log (held : Held m e a x) (some_ : 0 < m) : Int.log 2 x = m.log2 + e := by
  have scale : (0 : ℚ) < 2 ^ e := by positivity
  obtain ⟨low, high⟩ := held.bounds
  have positive : 0 < x := (mul_pos (by exact_mod_cast some_) scale).trans_le low
  have below : 2 ^ m.log2 ≤ m := Nat.log2_self_le some_.ne'
  have above : m + 1 ≤ 2 ^ (m.log2 + 1) := Nat.lt_log2_self
  apply le_antisymm
  · rw [← Int.lt_add_one_iff, ← Int.lt_zpow_iff_log_lt one_lt_two positive]
    calc x < (m + 1) * 2 ^ e := high
      _ ≤ 2 ^ (m.log2 + 1) * 2 ^ e :=
        mul_le_mul_of_nonneg_right (by exact_mod_cast above) scale.le
      _ = ((2 : Nat) : ℚ) ^ (m.log2 + e + 1 : Int) := by
        rw [Nat.cast_ofNat, add_right_comm, zpow_add₀ two_ne_zero]
        norm_cast
  · rw [← Int.zpow_le_iff_le_log one_lt_two positive]
    calc ((2 : Nat) : ℚ) ^ (m.log2 + e : Int) = 2 ^ m.log2 * 2 ^ e := by
          rw [Nat.cast_ofNat, zpow_add₀ two_ne_zero]
          norm_cast
      _ ≤ m * 2 ^ e := mul_le_mul_of_nonneg_right (by exact_mod_cast below) scale.le
      _ ≤ x := low

/-- The exponent for which a significand is rounded is that of the rational's unit. -/
theorem Held.targetExponent (held : Held m e a x) (positive : 0 < x) :
    Format.binary64.targetExponent (totalExponent m e) = unit x ∧ e ≤ unit x := by
  rw [targetExponent_eq, totalExponent, unit]
  rcases Nat.eq_zero_or_pos m with none_ | some_
  · subst none_
    have small : e ≤ -1074 := held.enough.resolve_left (by norm_num)
    have below : x < ((2 : Nat) : ℚ) ^ e := by simpa using held.bounds.2
    have log := (Int.lt_zpow_iff_log_lt one_lt_two positive).1 below
    rw [Nat.log2_zero]
    omega
  · have log := held.log some_
    have digits : 2 ^ 52 ≤ m → 52 ≤ m.log2 := (Nat.le_log2 some_.ne').2
    rcases held.enough with many | small <;> omega

/-- The first shift leaves the rational, scaled to its unit. -/
theorem Held.shift (held : Held m e a x) (positive : 0 < x) :
    ∃ em, shiftToTargetExponent Format.binary64 m e a = (em, unit x) ∧
      Represents em (x / 2 ^ unit x) := by
  obtain ⟨target, below⟩ := held.targetExponent positive
  have exponent : e + ((unit x - e).toNat : Int) = unit x := by omega
  refine ⟨ExtendedMantissa.ofMantissaAndAccuracy m a >>> (unit x - e).toNat, ?_, ?_⟩
  · rw [shiftToTargetExponent, target, shiftToExponent]
    exact Prod.ext rfl exponent
  · have shifted := held.represents.shiftRight (unit x - e).toNat
    rwa [div_div, ← zpow_natCast, ← zpow_add₀ two_ne_zero, exponent] at shifted

/-- A significand of at most 53 digits under its unit is not shifted again; the next larger one is
a power of two. -/
theorem shift_rounded {r : Nat} {t : Int} (digits : r ≤ 2 ^ 53) (least : -1074 ≤ t)
    (normal : 2 ^ 52 ≤ r ∨ t = -1074) :
    ∃ em f, shiftToTargetExponent Format.binary64 r t .exact = (em, f) ∧
      (em.mantissa : ℚ) * 2 ^ f = r * 2 ^ t ∧ em.mantissa < 2 ^ 53 ∧ -1074 ≤ f ∧
        (2 ^ 52 ≤ em.mantissa ∨ f = -1074) := by
  rw [shiftToTargetExponent, shiftToExponent, targetExponent_eq, totalExponent]
  rcases Nat.eq_or_lt_of_le digits with rfl | fits
  · have log : (2 ^ 53).log2 = 53 := Nat.log2_two_pow
    have amount : (max ((2 ^ 53).log2 + 1 + t - 53) (-1074) - t).toNat = 1 := by
      rw [log]
      omega
    refine ⟨_, _, rfl, ?_⟩
    rw [amount]
    change ((2 ^ 53 / 2 : Nat) : ℚ) * 2 ^ (t + 1) = _ ∧ 2 ^ 53 / 2 < 2 ^ 53 ∧ -1074 ≤ t + 1 ∧
      (2 ^ 52 ≤ 2 ^ 53 / 2 ∨ t + 1 = -1074)
    refine ⟨?_, by norm_num, by omega, .inl (by norm_num)⟩
    rw [zpow_add_one₀ two_ne_zero]
    norm_num
    ring
  · have log : r.log2 ≤ 52 := by
      rcases Nat.eq_zero_or_pos r with rfl | some_
      · rw [Nat.log2_zero]
        omega
      · exact Nat.lt_succ_iff.1 ((Nat.log2_lt some_.ne').2 fits)
    have amount : (max (r.log2 + 1 + t - 53) (-1074) - t).toNat = 0 := by omega
    refine ⟨_, _, rfl, ?_⟩
    rw [amount]
    change (r : ℚ) * 2 ^ (t + 0) = _ ∧ r < 2 ^ 53 ∧ -1074 ≤ t + 0 ∧ (2 ^ 52 ≤ r ∨ t + 0 = -1074)
    rw [Int.add_zero]
    exact ⟨rfl, fits, least, normal⟩

/-- What a significand is rounded to stands for the nearest rational. -/
theorem roundWithAccuracy_spec (held : Held m e a x) (positive : 0 < x) (s : Sign) :
    Rounded (roundWithAccuracy Format.binary64 s m e a) ∧
      rational (roundWithAccuracy Format.binary64 s m e a) = signed s (nearest x) := by
  obtain ⟨em, shifted, represents⟩ := held.shift positive
  have rounded := represents.roundedMantissa
  have least : -1074 ≤ unit x := le_max_right _ _
  have digits : em.roundedMantissa ≤ 2 ^ 53 := by
    have := halfEven_le_digits x
    omega
  have normal : 2 ^ 52 ≤ em.roundedMantissa ∨ unit x = -1074 := by
    rcases Int.lt_or_eq_of_le least with above | same
    · have := digits_le_halfEven positive above
      exact .inl (by omega)
    · exact .inr same.symm
  obtain ⟨em', f, shifted', same, fits, low, normal'⟩ := shift_rounded digits least normal
  have value : (em'.mantissa : ℚ) * 2 ^ f = nearest x := by
    rw [same, nearest, ← rounded]
    norm_cast
  unfold roundWithAccuracy
  rw [shifted]
  dsimp only
  rw [shifted']
  dsimp only
  by_cases none_ : em'.mantissa = 0
  · rw [dif_pos none_]
    rw [none_, Nat.cast_zero, zero_mul] at value
    refine ⟨trivial, ?_⟩
    rw [← value]
    cases s with
    | positive => rfl
    | negative => exact neg_zero.symm
  · rw [dif_neg none_]
    refine ⟨⟨fits, low, normal'⟩, ?_⟩
    rw [← value]
    cases s with
    | positive => exact rational_positive _ f _
    | negative => exact rational_negative _ f _

end Metering.Binary64
