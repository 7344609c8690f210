import Mathlib.Data.Rat.Floor
import Metering.Proofs.Binary64.RoundingError

/-!
# Quotients of any sign

A quotient may be so small that its rounding has no bounded relative error, and the dividend may be
zero or negative. The bound on the error is then that of a relative and an absolute error together
(`Denotes.quotient`). The integer next above what a float stands for is exact (`ceilBetween_eq`).
-/

namespace Metering.Binary64

open Float.Model Float.Model.UnpackedFloat

variable {x y : Float} {p q r z : ℚ}

/-- A rounding changes a rational by a small factor and, where it is subnormal, by a little more. -/
theorem abs_nearest_sub_le_add (positive : 0 < z) :
    |nearest z - z| ≤ z * 2 ^ (-53 : Int) + 2 ^ (-60 : Int) := by
  rcases le_or_gt (2 ^ (-1022 : Int)) z with normal | small
  · have extra : (0 : ℚ) ≤ 2 ^ (-60 : Int) := by positivity
    linarith [abs_nearest_sub_le_mul normal]
  · have log : Int.log 2 z < -1022 :=
      (Int.lt_zpow_iff_log_lt one_lt_two positive).1 (by exact_mod_cast small)
    have least : unit z = -1074 := by
      rw [unit]
      omega
    have error := abs_nearest_sub_le z
    rw [least] at error
    have half : (2 : ℚ) ^ (-1074 : Int) / 2 ≤ 2 ^ (-60 : Int) :=
      (half_le_self (by positivity)).trans (zpow_le_zpow_right₀ one_le_two (by norm_num))
    exact error.trans (half.trans (le_add_of_nonneg_left (by positivity)))

/-- A float that stands for zero is a zero. -/
theorem Denotes.zero_parts (denotes : Denotes x 0) : ∃ s, x.toModel.unpack = .zero s := by
  obtain ⟨finite, value⟩ := denotes
  cases parts : x.toModel.unpack with
  | zero s => exact ⟨s, rfl⟩
  | finite s m e h =>
    rw [parts] at value
    have positive := scaled_pos e h
    cases s with
    | positive => exact absurd ((rational_positive m e h).symm.trans value) positive.ne'
    | negative =>
      have opposite := (rational_negative m e h).symm.trans value
      linarith
  | _ =>
    rw [parts] at finite
    cases finite

theorem denotes_zero_div (left : Denotes x 0) (right : Denotes y q) (positive : 0 < q) :
    Denotes (x / y) 0 := by
  obtain ⟨s, parts⟩ := left.zero_parts
  obtain ⟨n, f, h, parts', -⟩ := right.parts positive
  have quotient : x / y = Float.ofModel (Float.Model.pack (.zero (s / .positive))) := by
    change Float.ofModel (Float.Model.pack (UnpackedFloat.div _ _ _)) = _
    rw [parts, parts']
    rfl
  have small : |rational (.zero (s / .positive))| < 2 ^ 1024 := by
    change |(0 : ℚ)| < _
    rw [abs_zero]
    positivity
  rw [quotient]
  exact denotes_pack trivial small

/-- A float that stands for a negative rational. -/
theorem Denotes.negative_parts (denotes : Denotes x (-p)) (positive : 0 < p) :
    ∃ m e h, x.toModel.unpack = .finite .negative m e h ∧ p = m * 2 ^ e := by
  have opposite := denotes.neg
  rw [neg_neg] at opposite
  obtain ⟨m, e, h, parts, value⟩ := opposite.parts positive
  rw [unpack_neg] at parts
  refine ⟨m, e, h, ?_, value⟩
  cases whole : x.toModel.unpack with
  | finite s n f h' =>
    rw [whole] at parts
    cases s with
    | negative => injection parts with _ same same' ; subst same same'; rfl
    | positive => cases parts
  | _ =>
    rw [whole] at parts
    cases parts

theorem nearest_lt_of_le_reach (positive : 0 < z) (high : z ≤ reach) : nearest z < 2 ^ 1024 := by
  have normal : 2 ^ (-1022 : Int) ≤ reach := normal_of_inv_reach_le (low_of_one_le one_le_reach)
  have double : reach ≤ reach * 2 := by linarith [reach_pos]
  exact (nearest_mono positive high).trans_lt (nearest_lt_of_le normal double)

/-- The quotient by a positive float. -/
theorem Denotes.quotient (left : Denotes x p) (right : Denotes y q) (positive : 0 < q)
    (high : |p / q| ≤ reach) : ∃ r, Denotes (x / y) r ∧
      |r - p / q| ≤ |p / q| * 2 ^ (-53 : Int) + 2 ^ (-60 : Int) := by
  rcases lt_trichotomy p 0 with negative | rfl | positive'
  · obtain ⟨p, rfl⟩ : ∃ p', p = -p' := ⟨-p, (neg_neg p).symm⟩
    have above : 0 < p / q := div_pos (neg_lt_zero.1 negative) positive
    rw [neg_div, abs_neg, abs_of_pos above] at high ⊢
    obtain ⟨m, e, h, parts, rfl⟩ := left.negative_parts (neg_lt_zero.1 negative)
    obtain ⟨n, f, h', parts', rfl⟩ := right.parts positive
    refine ⟨_, denotes_div parts parts' (nearest_lt_of_le_reach above high), ?_⟩
    rw [signed, neg_sub_neg, abs_sub_comm]
    exact abs_nearest_sub_le_add above
  · refine ⟨0, denotes_zero_div left right positive, ?_⟩
    rw [zero_div, sub_zero, abs_zero, zero_mul, zero_add]
    positivity
  · have above : 0 < p / q := div_pos positive' positive
    rw [abs_of_pos above] at high ⊢
    exact ⟨_, left.div right positive' positive (nearest_lt_of_le_reach above high),
      abs_nearest_sub_le_add above⟩

/-! ## The integer next above -/

theorem ceilScaled_eq (n e : Int) : ceilScaled n e = ⌈(n : ℚ) * 2 ^ e⌉ := by
  cases e with
  | ofNat e =>
    have whole : (n : ℚ) * 2 ^ (Int.ofNat e) = (n * 2 ^ e : Int) := by
      rw [Int.ofNat_eq_natCast, zpow_natCast]
      push_cast
      rfl
    rw [whole, Int.ceil_intCast]
    rfl
  | negSucc e =>
    have part : (n : ℚ) * 2 ^ (Int.negSucc e) = -((-n : Int) / (2 ^ (e + 1) : Nat)) := by
      rw [zpow_negSucc, Int.cast_neg, neg_div, neg_neg, div_eq_mul_inv]
      push_cast
      rfl
    rw [ceilScaled, part, Int.ceil_neg, Rat.floor_intCast_div_natCast]
    push_cast
    rfl

/-- The integer next above is kept to a range that has zero. -/
theorem ceilBetween_eq {low high : Int} (denotes : Denotes x r) (nonpos : low ≤ 0)
    (nonneg : 0 ≤ high) : ceilBetween low high x = max low (min high ⌈r⌉) := by
  obtain ⟨finite, rfl⟩ := denotes
  rw [ceilBetween]
  cases parts : x.toModel.unpack with
  | zero s =>
    change 0 = max low (min high ⌈(0 : ℚ)⌉)
    rw [Int.ceil_zero]
    omega
  | finite s m e h =>
    cases s with
    | positive =>
      rw [rational_positive]
      exact congrArg (max low <| min high ·) (by rw [ceilScaled_eq, Int.cast_natCast])
    | negative =>
      rw [rational_negative]
      exact congrArg (max low <| min high ·)
        (by rw [ceilScaled_eq, Int.cast_neg, Int.cast_natCast, neg_mul])
  | _ =>
    rw [parts] at finite
    cases finite

end Metering.Binary64
