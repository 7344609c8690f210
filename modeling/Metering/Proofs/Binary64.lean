import Mathlib.Algebra.GroupWithZero.Nat
import Mathlib.Algebra.Ring.Int.Defs
import Metering.Binary64

/-!
# What is known of floats

The binary64 nearest to a 64-bit integer is a finite number: rounding moves the exponent of an
integer by a few places only, far from where a binary64 overflows. Every float but what is not a
number equals itself. The difference of two equal floats is a zero, or not a number if they are
infinite.
-/

namespace Metering.Binary64

open Float.Model Float.Model.UnpackedFloat

/-- The exponents that rounding to binary64 aims at. -/
theorem targetExponent_eq (t : Int) :
    Format.binary64.targetExponent t = max (t - 53) (-1074) := by
  simp only [Format.targetExponent]
  rfl

/-- Only the exponent of all ones stands for what is not finite. -/
theorem isFinite_unpack {b : BitVec Format.binary64.numBits}
    (exponent : unpackExponent b ≠ -1#_) : (UnpackedFloat.unpack Format.binary64 b).isFinite = true := by
  unfold UnpackedFloat.unpack
  dsimp only
  rw [if_neg exponent]
  by_cases subnormal : unpackExponent b = 0#_
  · rw [if_pos subnormal]
    by_cases zero : unpackMantissa b = 0#_
    · rw [dif_pos zero]
      rfl
    · rw [dif_neg zero]
      rfl
  · rw [if_neg subnormal]
    rfl

/-- What has a small enough exponent does not overflow when it is packed. -/
theorem isFinite_pack {u : UnpackedFloat} (finite : u.isFinite = true)
    (exponent : ∀ s m e h, u = .finite s m e h → e < 972) :
    (Float.Model.pack u).isFinite = true := by
  refine isFinite_unpack ?_
  unfold Float.Model.pack UnpackedFloat.pack
  cases u with
  | infinity s => cases finite
  | notANumber => cases finite
  | zero s =>
    simp only [packedZero, unpackExponent_packComponents]
    decide
  | finite s m e h =>
    have small := exponent s m e h rfl
    have bias : Format.binary64.exponentBias = 1023 := by decide
    simp only [bias]
    have fits : ¬ 2 ^ 11 ≤ (e + (1023 : Nat) + (52 : Nat)).toNat + 1 := by omega
    rw [if_neg fits]
    split
    · simp only [unpackExponent_packComponents]
      intro all
      have numbers := congrArg BitVec.toNat all
      simp only [BitVec.toNat_ofNat] at numbers
      change _ % 2 ^ 11 = 2 ^ 11 - 1 at numbers
      omega
    · simp only [unpackExponent_packComponents]
      decide

/-! ## Rounding -/

theorem log2_le {m k : Nat} (bound : m ≤ 2 ^ k) : m.log2 ≤ k := by
  by_cases zero : m = 0
  · rw [zero]
    exact Nat.zero_le k
  · have low := Nat.log2_self_le zero
    exact (Nat.pow_le_pow_iff_right (by decide)).1 (Nat.le_trans low bound)

/-- Shifting to the right makes no mantissa larger. -/
theorem mantissa_shiftRight_le (em : ExtendedMantissa) (n : Nat) :
    (em >>> n).mantissa ≤ em.mantissa := by
  induction n with
  | zero => exact Nat.le_refl _
  | succ n ih =>
    change (em >>> n).mantissa / 2 ≤ em.mantissa
    omega

theorem roundToNearestEven_le (m : Nat) (a : Accuracy) : a.roundToNearestEven m ≤ m + 1 := by
  cases a with
  | exact => exact Nat.le_succ m
  | inexact o =>
    cases o with
    | lt => exact Nat.le_succ m
    | eq =>
      change m + m % 2 ≤ m + 1
      omega
    | gt => exact Nat.le_refl _

/-- A shift to the target exponent does not go beyond it. -/
theorem shiftToTargetExponent_spec {m k : Nat} {e : Int} {a : Accuracy} (bound : m ≤ 2 ^ k) :
    (shiftToTargetExponent Format.binary64 m e a).1.mantissa ≤ m ∧
      (shiftToTargetExponent Format.binary64 m e a).2 ≤ max e (max (k + 1 + e - 53) (-1074)) := by
  unfold shiftToTargetExponent shiftToExponent
  have digits := log2_le bound
  simp only [targetExponent_eq, totalExponent]
  refine ⟨?_, by omega⟩
  have start : (ExtendedMantissa.ofMantissaAndAccuracy m a).mantissa = m := by
    cases a with
    | exact => rfl
    | inexact o => cases o <;> rfl
  refine Nat.le_trans (mantissa_shiftRight_le _ _) (Nat.le_of_eq start)

/-- A value is rounded by two shifts to the target exponent: the mantissa that is rounded after the
first one may have a digit more. -/
theorem roundWithAccuracy_cases (s : Sign) (m : Nat) (e : Int) (a : Accuracy) :
    roundWithAccuracy Format.binary64 s m e a = .zero s ∨
      ∃ positive, roundWithAccuracy Format.binary64 s m e a = .finite s
        (shiftToTargetExponent Format.binary64
          (shiftToTargetExponent Format.binary64 m e a).1.roundedMantissa
          (shiftToTargetExponent Format.binary64 m e a).2 .exact).1.mantissa
        (shiftToTargetExponent Format.binary64
          (shiftToTargetExponent Format.binary64 m e a).1.roundedMantissa
          (shiftToTargetExponent Format.binary64 m e a).2 .exact).2 positive := by
  by_cases nothing : (shiftToTargetExponent Format.binary64
      (shiftToTargetExponent Format.binary64 m e a).1.roundedMantissa
      (shiftToTargetExponent Format.binary64 m e a).2 .exact).1.mantissa = 0
  · exact Or.inl (dif_pos nothing)
  · exact Or.inr ⟨Nat.pos_of_ne_zero nothing, dif_neg nothing⟩

/-- Rounding a mantissa of at most `k` digits leaves the exponent near to where it was. -/
theorem exponent_roundWithAccuracy_le {s s' : Sign} {m m' k : Nat} {e e' : Int} {a : Accuracy}
    {h : 0 < m'} (bound : m + 1 ≤ 2 ^ k)
    (rounded : roundWithAccuracy Format.binary64 s m e a = .finite s' m' e' h) :
    e' ≤ max (e + k + k) k := by
  obtain ⟨shifted, first⟩ := shiftToTargetExponent_spec (a := a) (e := e) (Nat.le_of_succ_le bound)
  have again : (shiftToTargetExponent Format.binary64 m e a).1.roundedMantissa ≤ 2 ^ k :=
    Nat.le_trans (roundToNearestEven_le _ _) (Nat.le_trans (Nat.succ_le_succ shifted) bound)
  obtain ⟨-, second⟩ := shiftToTargetExponent_spec
    (e := (shiftToTargetExponent Format.binary64 m e a).2) (a := .exact) again
  rcases roundWithAccuracy_cases s m e a with zero | ⟨positive, finite⟩
  · cases zero.symm.trans rounded
  · cases finite.symm.trans rounded
    omega

theorem isFinite_roundWithAccuracy (s : Sign) (m : Nat) (e : Int) (a : Accuracy) :
    (roundWithAccuracy Format.binary64 s m e a).isFinite = true := by
  rcases roundWithAccuracy_cases s m e a with zero | ⟨positive, finite⟩
  · rw [zero]
    rfl
  · rw [finite]
    rfl

/-- An integer of 64 bits is far from where rounding overflows. -/
theorem isFinite_pack_round (s : Sign) {m : Nat} (bound : m < 2 ^ 64) :
    (Float.Model.pack (UnpackedFloat.round Format.binary64 s m 0)).isFinite = true := by
  have digits : m.log2 ≤ 64 := log2_le (Nat.le_of_lt bound)
  unfold UnpackedFloat.round decreaseExponent
  simp only [targetExponent_eq, totalExponent]
  have few : ((0 : Int) - max ((m.log2 : Int) + 1 + 0 - 53) (-1074)).toNat ≤ 52 := by omega
  generalize ((0 : Int) - max ((m.log2 : Int) + 1 + 0 - 53) (-1074)).toNat = k at few
  refine isFinite_pack (isFinite_roundWithAccuracy _ _ _ _) fun s' m' e' h rounded => ?_
  have shifted : m <<< k + 1 ≤ 2 ^ 116 := by
    have small : m * 2 ^ k ≤ m * 2 ^ 52 := Nat.mul_le_mul_left m (Nat.pow_le_pow_right (by decide) few)
    rw [Nat.shiftLeft_eq]
    omega
  have near := exponent_roundWithAccuracy_le shifted rounded
  omega

/-- Every integer of 64 bits is a finite float. -/
theorem isFinite_ofInt64 (v : Int64) : (ofInt64 v).isFinite = true := by
  have range : v.toInt < 2 ^ 63 ∧ -2 ^ 63 ≤ v.toInt := ⟨v.toInt_lt, v.le_toInt⟩
  change (Float.Model.pack (UnpackedFloat.normalize Format.binary64 v.toInt 0 .positive)).isFinite = true
  unfold UnpackedFloat.normalize
  split
  · exact isFinite_pack_round _ (by omega)
  · exact isFinite_pack rfl fun _ _ _ _ same => nomatch same
  · exact isFinite_pack_round _ (by omega)

/-! ## Equal floats -/

theorem finite_of_compare_eq {s : Sign} {m n : Nat} {e f : Int} (h : 0 < m) (h' : 0 < n)
    (same : (UnpackedFloat.finite s m e h).compare (.finite s n f h') = some .eq) :
    e = f ∧ m = n := by
  have parts : (compare e f).then (compare m n) = .eq := by
    cases s with
    | positive => exact Option.some.inj same
    | negative => exact Ordering.swap_eq_eq.1 (Option.some.inj same)
  obtain ⟨exponents, mantissas⟩ := Ordering.then_eq_eq.1 parts
  exact ⟨Int.compare_eq_eq.1 exponents, Nat.compare_eq_eq.1 mantissas⟩

theorem sub_of_compare_eq {u v : UnpackedFloat} (same : u.compare v = some .eq) :
    UnpackedFloat.sub Format.binary64 u v = .notANumber ∨
      ∃ s, UnpackedFloat.sub Format.binary64 u v = .zero s := by
  cases u with
  | notANumber => cases same
  | infinity s =>
    cases v with
    | infinity s' =>
      cases s <;> cases s' <;> first | exact Or.inl rfl | cases same
    | notANumber => cases s <;> cases same
    | zero s' => cases s <;> cases same
    | finite s' n f h' => cases s <;> cases same
  | zero s =>
    cases v with
    | zero s' =>
      by_cases opposite : (s == -s') = true
      · exact Or.inr ⟨s, if_pos opposite⟩
      · exact Or.inr ⟨.positive, if_neg opposite⟩
    | infinity s' => cases s' <;> cases same
    | notANumber => cases same
    | finite s' n f h' => cases s' <;> cases same
  | finite s m e h =>
    cases v with
    | finite s' n f h' =>
      by_cases signs : s = s'
      · subst signs
        obtain ⟨rfl, rfl⟩ := finite_of_compare_eq h h' same
        refine Or.inr ⟨.positive, ?_⟩
        change UnpackedFloat.normalize _ (s.apply (decreaseExponent m e (min e e)).1 -
          s.apply (decreaseExponent m e (min e e)).1) (min e e) .positive = _
        rw [Int.sub_self]
        rfl
      · cases s <;> cases s' <;> first | exact absurd rfl signs | cases same
    | infinity s' => cases s <;> cases s' <;> cases same
    | notANumber => cases s <;> cases same
    | zero s' => cases s <;> cases same

/-- Every float but what is not a number equals itself. -/
theorem beq_self {x : Float} (number : x.toModel.unpack ≠ .notANumber) : (x == x) = true := by
  have same : x.toModel.unpack.compare x.toModel.unpack = some .eq := by
    cases parts : x.toModel.unpack with
    | notANumber => exact absurd parts number
    | infinity s => cases s <;> rfl
    | zero s => rfl
    | finite s m e h =>
      have equal : (compare e e).then (compare m m) = .eq :=
        Ordering.then_eq_eq.2 ⟨Std.ReflCmp.compare_self, Std.ReflCmp.compare_self⟩
      cases s with
      | positive => exact congrArg some equal
      | negative => exact congrArg some (Ordering.swap_eq_eq.2 equal)
  have compared : (x.toModel.unpack.compare x.toModel.unpack == some .eq) = true := beq_of_eq same
  exact compared

theorem beq_self_of_isFinite {x : Float} (finite : x.isFinite = true) : (x == x) = true := by
  refine beq_self fun parts => ?_
  have whole : x.toModel.unpack.isFinite = true := finite
  rw [parts] at whole
  cases whole

theorem beq_self_of_lt {x y : Float} (less : x < y) : (y == y) = true := by
  refine beq_self fun parts => ?_
  have order : (x.toModel.unpack.compare y.toModel.unpack == some .lt) = true :=
    of_decide_eq_true less
  rw [parts] at order
  cases first : x.toModel.unpack with
  | _ => rw [first] at order; cases order

/-- Floats that are equal are not a positive distance apart. -/
theorem not_lt_abs_sub {a b distance : Float} (same : (a == b) = true)
    (zero : ∀ s, ¬ distance < (Float.ofModel (Float.Model.pack (.zero s))).abs)
    (nan : ¬ distance < (Float.ofModel (Float.Model.pack .notANumber)).abs) :
    ¬ distance < (a - b).abs := by
  have difference : a - b = Float.ofModel (Float.Model.pack
      (UnpackedFloat.sub Format.binary64 a.toModel.unpack b.toModel.unpack)) := rfl
  have compared : a.toModel.unpack.compare b.toModel.unpack = some .eq := by
    have beq : (a.toModel.unpack.compare b.toModel.unpack == some .eq) = true := same
    exact eq_of_beq beq
  rw [difference]
  rcases sub_of_compare_eq compared with none_ | ⟨s, zero_⟩
  · rw [none_]
    exact nan
  · rw [zero_]
    exact zero s

/-- A float is not a positive distance apart from itself, whatever it is. -/
theorem not_lt_abs_sub_self (a : Float) {distance : Float}
    (zero : ∀ s, ¬ distance < (Float.ofModel (Float.Model.pack (.zero s))).abs)
    (nan : ¬ distance < (Float.ofModel (Float.Model.pack .notANumber)).abs) :
    ¬ distance < (a - a).abs := by
  by_cases parts : a.toModel.unpack = .notANumber
  · have difference : a - a = Float.ofModel (Float.Model.pack
        (UnpackedFloat.sub Format.binary64 a.toModel.unpack a.toModel.unpack)) := rfl
    rw [difference, parts]
    exact nan
  · exact not_lt_abs_sub (beq_self parts) zero nan

end Metering.Binary64
