import Mathlib.Algebra.Order.Field.Power
import Mathlib.Data.Rat.Cast.Order
import Mathlib.Order.WithBot
import Mathlib.Tactic.Linarith
import Mathlib.Tactic.NormNum.Basic
import Mathlib.Tactic.Positivity
import Mathlib.Tactic.Ring
import Metering.Proofs.Binary64

/-!
# The order of floats

A float that is a number stands for a rational or for one of the infinities (`place`), and floats
compare as what they stand for. What a float is unpacked to is canonical: its significand has 53
digits unless its exponent is the least one. Only so does comparing exponents before significands
compare the rationals.
-/

namespace Metering.Binary64

open Float.Model Float.Model.UnpackedFloat

/-- The rational that an unpacked float stands for; zero if it is none. -/
def rational : UnpackedFloat → ℚ
  | .finite s m e _ => s.apply m * 2 ^ e
  | _ => 0

/-- Where an unpacked float stands among the rationals and the infinities. -/
def placeOf : UnpackedFloat → WithBot (WithTop ℚ)
  | .infinity .negative => ⊥
  | .infinity .positive => (⊤ : WithTop ℚ)
  | u => (rational u : WithTop ℚ)

/-- Where a float stands among the rationals and the infinities. -/
def place (x : Float) : WithBot (WithTop ℚ) := placeOf x.toModel.unpack

/-- An unpacked float as it comes from 64 bits. -/
def Canonical : UnpackedFloat → Prop
  | .finite _ m e _ => m < 2 ^ 53 ∧ -1074 ≤ e ∧ e ≤ 971 ∧ (2 ^ 52 ≤ m ∨ e = -1074)
  | _ => True

theorem exponentBias_eq : Format.binary64.exponentBias = 1023 := rfl

/-- A leading one before 52 digits. -/
theorem toNat_one_append (mantissa : BitVec 52) :
    (1#1 ++ mantissa).toNat = 2 ^ 52 + mantissa.toNat := by
  rw [BitVec.toNat_append, ← Nat.shiftLeft_add_eq_or_of_lt mantissa.isLt]
  rfl

theorem canonical_unpack (b : BitVec Format.binary64.numBits) :
    Canonical (UnpackedFloat.unpack Format.binary64 b) := by
  have digits : (unpackMantissa b).toNat < 2 ^ 52 := (unpackMantissa b).isLt
  have exponents : (unpackExponent b).toNat < 2 ^ 11 := (unpackExponent b).isLt
  unfold UnpackedFloat.unpack
  dsimp only
  by_cases all : unpackExponent b = -1#_
  · rw [if_pos all]
    by_cases zero : unpackMantissa b = 0#_
    · rw [if_pos zero]
      trivial
    · rw [if_neg zero]
      trivial
  · rw [if_neg all]
    by_cases subnormal : unpackExponent b = 0#_
    · rw [if_pos subnormal]
      by_cases zero : unpackMantissa b = 0#_
      · rw [dif_pos zero]
        trivial
      · have none_ : (unpackExponent b).toNat = 0 := congrArg BitVec.toNat subnormal
        rw [dif_neg zero]
        refine ⟨by omega, ?_, ?_, .inr ?_⟩ <;> rw [none_, exponentBias_eq] <;> decide
    · have low : (unpackExponent b).toNat ≠ 0 := fun none_ => subnormal (BitVec.eq_of_toNat_eq none_)
      have high : (unpackExponent b).toNat ≠ 2047 := fun top => all (BitVec.eq_of_toNat_eq top)
      have significand : (1#1 ++ unpackMantissa b).toNat = 2 ^ 52 + (unpackMantissa b).toNat :=
        toNat_one_append _
      rw [if_neg subnormal]
      refine ⟨?_, ?_, ?_, .inl ?_⟩
      · omega
      · rw [exponentBias_eq]
        omega
      · rw [exponentBias_eq]
        omega
      · omega

theorem canonical (x : Float) : Canonical x.toModel.unpack := canonical_unpack _

/-! ## Comparing is comparing places -/

/-- Of canonical significands under different exponents, the one under the larger exponent stands
for the larger rational. -/
theorem scaled_lt_scaled {m n : Nat} {e f : Int} (small : m < 2 ^ 53) (low : -1074 ≤ e)
    (normal : 2 ^ 52 ≤ n ∨ f = -1074) (less : e < f) : (m : ℚ) * 2 ^ e < n * 2 ^ f := by
  have digits : 2 ^ 52 ≤ n := by omega
  have step : (2 : ℚ) * 2 ^ e ≤ 2 ^ f := by
    rw [mul_comm, ← zpow_add_one₀ two_ne_zero]
    exact zpow_le_zpow_right₀ one_le_two less
  have small' : (m : ℚ) < 2 ^ 53 := by exact_mod_cast small
  have digits' : (2 : ℚ) ^ 52 ≤ n := by exact_mod_cast digits
  have positive : (0 : ℚ) < 2 ^ e := by positivity
  calc (m : ℚ) * 2 ^ e < 2 ^ 53 * 2 ^ e := mul_lt_mul_of_pos_right small' positive
    _ = 2 ^ 52 * (2 * 2 ^ e) := by ring
    _ ≤ n * 2 ^ f := mul_le_mul digits' step (by positivity) (by positivity)

/-- Exponents and then significands compare as the rationals they stand for. -/
theorem compare_scaled {s s' : Sign} {m n : Nat} {e f : Int} {h : 0 < m} {h' : 0 < n}
    (left : Canonical (.finite s m e h)) (right : Canonical (.finite s' n f h')) :
    (compare e f).then (compare m n) = compare ((m : ℚ) * 2 ^ e) (n * 2 ^ f) := by
  rcases lt_trichotomy e f with less | rfl | greater
  · rw [Int.compare_eq_lt.2 less]
    exact (compare_lt_iff_lt.2 (scaled_lt_scaled left.1 left.2.1 right.2.2.2 less)).symm
  · have positive : (0 : ℚ) < 2 ^ e := by positivity
    rw [Int.compare_eq_eq.2 rfl]
    change compare m n = _
    rcases lt_trichotomy m n with less | rfl | greater
    · rw [compare_lt_iff_lt.2 less, eq_comm, compare_lt_iff_lt]
      exact mul_lt_mul_of_pos_right (Nat.cast_lt.2 less) positive
    · rw [compare_eq_iff_eq.2 rfl, eq_comm, compare_eq_iff_eq]
    · rw [compare_gt_iff_gt.2 greater, eq_comm, compare_gt_iff_gt]
      exact mul_lt_mul_of_pos_right (Nat.cast_lt.2 greater) positive
  · rw [Int.compare_eq_gt.2 greater]
    exact (compare_gt_iff_gt.2 (scaled_lt_scaled right.1 right.2.1 left.2.2.2 greater)).symm

theorem rational_positive (m : Nat) (e : Int) (h : 0 < m) :
    rational (.finite .positive m e h) = m * 2 ^ e := by
  change ((m : Int) : ℚ) * 2 ^ e = m * 2 ^ e
  rw [Int.cast_natCast]

theorem rational_negative (m : Nat) (e : Int) (h : 0 < m) :
    rational (.finite .negative m e h) = -(m * 2 ^ e) := by
  change ((-m : Int) : ℚ) * 2 ^ e = -(m * 2 ^ e)
  rw [Int.cast_neg, Int.cast_natCast, neg_mul]

theorem scaled_pos {m : Nat} (e : Int) (h : 0 < m) : (0 : ℚ) < m * 2 ^ e := by
  have digits : (0 : ℚ) < m := by exact_mod_cast h
  positivity

/-- Whether an unpacked float stands for a rational. -/
def IsRational : UnpackedFloat → Prop
  | .finite .. => True
  | .zero _ => True
  | _ => False

theorem placeOf_rational {u : UnpackedFloat} (finite : IsRational u) :
    placeOf u = (rational u : WithTop ℚ) := by
  cases u with
  | finite s m e h => rfl
  | zero s => rfl
  | infinity s => cases finite
  | notANumber => cases finite

theorem swap_compare (p q : ℚ) : (compare p q).swap = compare (-p) (-q) := by
  have falls : StrictAnti fun r : ℚ => -r := fun _ _ => neg_lt_neg
  rw [← cmp_eq_compare, ← cmp_eq_compare, cmp_swap]
  exact (falls.cmp_map_eq p q).symm

/-- Rational floats compare as the rationals. -/
theorem compare_rational {u v : UnpackedFloat} (left : Canonical u) (right : Canonical v)
    (finite : IsRational u) (finite' : IsRational v) :
    u.compare v = some (compare (rational u) (rational v)) := by
  cases u with
  | infinity s => cases finite
  | notANumber => cases finite
  | zero s =>
    cases v with
    | infinity s' => cases finite'
    | notANumber => cases finite'
    | zero s' => rfl
    | finite s' n f h' =>
      have positive := scaled_pos f h'
      cases s' with
      | positive =>
        rw [rational_positive]
        exact congrArg some (compare_lt_iff_lt.2 positive).symm
      | negative =>
        rw [rational_negative]
        exact congrArg some (compare_gt_iff_gt.2 (neg_lt_zero.2 positive)).symm
  | finite s m e h =>
    have positive := scaled_pos e h
    cases v with
    | infinity s' => cases finite'
    | notANumber => cases finite'
    | zero s' =>
      cases s with
      | positive =>
        rw [rational_positive]
        exact congrArg some (compare_gt_iff_gt.2 positive).symm
      | negative =>
        rw [rational_negative]
        exact congrArg some (compare_lt_iff_lt.2 (neg_lt_zero.2 positive)).symm
    | finite s' n f h' =>
      have positive' := scaled_pos f h'
      cases s with
      | positive =>
        cases s' with
        | positive =>
          rw [rational_positive, rational_positive]
          exact congrArg some (compare_scaled left right)
        | negative =>
          rw [rational_positive, rational_negative]
          exact congrArg some (compare_gt_iff_gt.2 (by linarith)).symm
      | negative =>
        cases s' with
        | positive =>
          rw [rational_negative, rational_positive]
          exact congrArg some (compare_lt_iff_lt.2 (by linarith)).symm
        | negative =>
          rw [rational_negative, rational_negative]
          change some ((compare e f).then (compare m n)).swap = _
          rw [compare_scaled left right, swap_compare]

theorem compare_coe (p q : ℚ) :
    compare ((p : WithTop ℚ) : WithBot (WithTop ℚ)) (q : WithTop ℚ) = compare p q := by
  rw [← cmp_eq_compare, ← cmp_eq_compare]
  exact (WithBot.coe_strictMono.comp WithTop.coe_strictMono).cmp_map_eq p q

theorem bot_lt_rational (q : ℚ) : (⊥ : WithBot (WithTop ℚ)) < (q : WithTop ℚ) :=
  WithBot.bot_lt_coe _

theorem rational_lt_top (q : ℚ) :
    ((q : WithTop ℚ) : WithBot (WithTop ℚ)) < ((⊤ : WithTop ℚ) : WithBot (WithTop ℚ)) :=
  WithBot.coe_lt_coe.2 (WithTop.coe_lt_top q)

/-- An unpacked float is negative or positive infinity, or rational, or not a number. -/
theorem kinds (u : UnpackedFloat) :
    u = .infinity .negative ∨ u = .infinity .positive ∨ IsRational u ∨ u = .notANumber := by
  cases u with
  | infinity s =>
    cases s with
    | positive => exact .inr (.inl rfl)
    | negative => exact .inl rfl
  | notANumber => exact .inr (.inr (.inr rfl))
  | zero s => exact .inr (.inr (.inl trivial))
  | finite s m e h => exact .inr (.inr (.inl trivial))

/-- Floats that are numbers compare as their places. -/
theorem compare_placeOf {u v : UnpackedFloat} (left : Canonical u) (right : Canonical v)
    (number : u ≠ .notANumber) (number' : v ≠ .notANumber) :
    u.compare v = some (compare (placeOf u) (placeOf v)) := by
  have infinities : (⊥ : WithBot (WithTop ℚ)) < ((⊤ : WithTop ℚ) : WithBot (WithTop ℚ)) :=
    WithBot.bot_lt_coe _
  rcases kinds u with rfl | rfl | finite | none_
  · rcases kinds v with rfl | rfl | finite' | none_
    · exact congrArg some (compare_eq_iff_eq.2 rfl).symm
    · exact congrArg some (compare_lt_iff_lt.2 infinities).symm
    · rw [placeOf_rational finite']
      have below := (compare_lt_iff_lt.2 (bot_lt_rational (rational v))).symm
      cases v <;> first | exact congrArg some below | cases finite'
    · exact absurd none_ number'
  · rcases kinds v with rfl | rfl | finite' | none_
    · exact congrArg some (compare_gt_iff_gt.2 infinities).symm
    · exact congrArg some (compare_eq_iff_eq.2 rfl).symm
    · rw [placeOf_rational finite']
      have above := (compare_gt_iff_gt.2 (rational_lt_top (rational v))).symm
      cases v <;> first | exact congrArg some above | cases finite'
    · exact absurd none_ number'
  · rcases kinds v with rfl | rfl | finite' | none_
    · rw [placeOf_rational finite]
      have above := (compare_gt_iff_gt.2 (bot_lt_rational (rational u))).symm
      cases u <;> first | exact congrArg some above | cases finite
    · rw [placeOf_rational finite]
      have below := (compare_lt_iff_lt.2 (rational_lt_top (rational u))).symm
      cases u <;> first | exact congrArg some below | cases finite
    · rw [placeOf_rational finite, placeOf_rational finite', compare_coe]
      exact compare_rational left right finite finite'
    · exact absurd none_ number'
  · exact absurd none_ number

/-! ## Floats that are numbers -/

variable {x y z : Float}

theorem isNaN_iff : x.isNaN = true ↔ x.toModel.unpack = .notANumber := by
  change x.toModel.unpack.isNaN = true ↔ _
  cases x.toModel.unpack with
  | notANumber => exact iff_of_true rfl rfl
  | infinity s => constructor <;> intro none_ <;> cases none_
  | zero s => constructor <;> intro none_ <;> cases none_
  | finite s m e h => constructor <;> intro none_ <;> cases none_

theorem isNaN_eq_false_iff : x.isNaN = false ↔ x.toModel.unpack ≠ .notANumber := by
  rw [← Bool.not_eq_true, isNaN_iff]

theorem compare_notANumber_right (u : UnpackedFloat) : u.compare .notANumber = none := by
  cases u <;> rfl

theorem number_of_compare {o : Ordering}
    (compared : x.toModel.unpack.compare y.toModel.unpack = some o) :
    x.isNaN = false ∧ y.isNaN = false := by
  rw [isNaN_eq_false_iff, isNaN_eq_false_iff]
  constructor <;> intro none_ <;> rw [none_] at compared
  · cases compared
  · rw [compare_notANumber_right] at compared
    cases compared

theorem compare_place (number : x.isNaN = false) (number' : y.isNaN = false) :
    x.toModel.unpack.compare y.toModel.unpack = some (compare (place x) (place y)) :=
  compare_placeOf (canonical x) (canonical y) (isNaN_eq_false_iff.1 number)
    (isNaN_eq_false_iff.1 number')

theorem lt_iff_compare : x < y ↔ x.toModel.unpack.compare y.toModel.unpack = some .lt := by
  change x.lt y = true ↔ _
  rw [Float.lt, decide_eq_true_iff]
  exact beq_iff_eq

theorem le_iff_compare :
    x ≤ y ↔ (x.toModel.unpack.compare y.toModel.unpack).any (·.isLE) = true := by
  change x.le y = true ↔ _
  rw [Float.le, decide_eq_true_iff]
  rfl

theorem beq_iff_compare :
    (x == y) = true ↔ x.toModel.unpack.compare y.toModel.unpack = some .eq := by
  change (x.toModel.unpack.compare y.toModel.unpack == some .eq) = true ↔ _
  rw [beq_iff_eq]

theorem number_of_isFinite (finite : x.isFinite = true) : x.isNaN = false := by
  rw [isNaN_eq_false_iff]
  intro none_
  change x.toModel.unpack.isFinite = true at finite
  rw [none_] at finite
  cases finite

/-- Less than is: both are numbers, in this order. -/
theorem lt_iff : x < y ↔ x.isNaN = false ∧ y.isNaN = false ∧ place x < place y := by
  rw [lt_iff_compare]
  constructor
  · intro compared
    obtain ⟨number, number'⟩ := number_of_compare compared
    rw [compare_place number number', Option.some.injEq] at compared
    exact ⟨number, number', compare_lt_iff_lt.1 compared⟩
  · rintro ⟨number, number', less⟩
    rw [compare_place number number', compare_lt_iff_lt.2 less]

theorem le_iff : x ≤ y ↔ x.isNaN = false ∧ y.isNaN = false ∧ place x ≤ place y := by
  rw [le_iff_compare]
  constructor
  · intro compared
    cases found : x.toModel.unpack.compare y.toModel.unpack with
    | none =>
      rw [found] at compared
      cases compared
    | some o =>
      obtain ⟨number, number'⟩ := number_of_compare found
      rw [compare_place number number'] at compared
      exact ⟨number, number', compare_le_iff_le.1 (Ordering.isLE_iff_ne_gt.1 compared)⟩
  · rintro ⟨number, number', less⟩
    rw [compare_place number number']
    exact Ordering.isLE_iff_ne_gt.2 (compare_le_iff_le.2 less)

theorem beq_iff : (x == y) = true ↔ x.isNaN = false ∧ y.isNaN = false ∧ place x = place y := by
  rw [beq_iff_compare]
  constructor
  · intro compared
    obtain ⟨number, number'⟩ := number_of_compare compared
    rw [compare_place number number', Option.some.injEq] at compared
    exact ⟨number, number', compare_eq_iff_eq.1 compared⟩
  · rintro ⟨number, number', same⟩
    rw [compare_place number number', compare_eq_iff_eq.2 same]

protected theorem le_refl (number : x.isNaN = false) : x ≤ x := le_iff.2 ⟨number, number, le_rfl⟩

protected theorem le_trans (first : x ≤ y) (second : y ≤ z) : x ≤ z := by
  obtain ⟨number, -, below⟩ := le_iff.1 first
  obtain ⟨-, number', above⟩ := le_iff.1 second
  exact le_iff.2 ⟨number, number', below.trans above⟩

protected theorem le_of_lt (less : x < y) : x ≤ y := by
  obtain ⟨number, number', below⟩ := lt_iff.1 less
  exact le_iff.2 ⟨number, number', below.le⟩

protected theorem lt_of_lt_of_le (less : x < y) (le : y ≤ z) : x < z := by
  obtain ⟨number, -, below⟩ := lt_iff.1 less
  obtain ⟨-, number', above⟩ := le_iff.1 le
  exact lt_iff.2 ⟨number, number', below.trans_le above⟩

protected theorem lt_of_le_of_lt (le : x ≤ y) (less : y < z) : x < z := by
  obtain ⟨number, -, below⟩ := le_iff.1 le
  obtain ⟨-, number', above⟩ := lt_iff.1 less
  exact lt_iff.2 ⟨number, number', below.trans_lt above⟩

protected theorem le_total (number : x.isNaN = false) (number' : y.isNaN = false) :
    x ≤ y ∨ y ≤ x := by
  rcases le_total (place x) (place y) with below | above
  · exact .inl (le_iff.2 ⟨number, number', below⟩)
  · exact .inr (le_iff.2 ⟨number', number, above⟩)

protected theorem not_le (number : x.isNaN = false) (number' : y.isNaN = false) :
    ¬ x ≤ y ↔ y < x := by
  rw [le_iff, lt_iff]
  simp only [number, number', true_and, not_le]

end Metering.Binary64
