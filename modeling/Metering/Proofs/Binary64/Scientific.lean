import Metering.Proofs.Binary64.Quotient

/-!
# Floats of powers of ten

What a significand times a power of ten becomes is the float nearest to it, however it is found: by
one operation on a significand and a power of ten that are floats themselves, or by an exact product
or quotient that is rounded at the end (`denotes_ofScientific`).
-/

namespace Metering.Binary64

open Float.Model Float.Model.UnpackedFloat

variable {u : UnpackedFloat} {x y : Float} {p q : ℚ} {m n : Nat} {e : Int}

/-! ## Packing -/

/-- What is too large for a float is packed as an infinity. -/
theorem unpack_pack_large (s : Sign) (h : 0 < m) (large : 972 ≤ e) :
    (Float.Model.pack (.finite s m e h)).unpack = .infinity s := by
  have overflow : 2 ^ 11 ≤ (e + (1023 : Nat) + (52 : Nat)).toNat + 1 := by omega
  have packed : UnpackedFloat.pack Format.binary64 (.finite s m e h) =
      packedInfinity Format.binary64 s := by
    unfold UnpackedFloat.pack
    rw [exponentBias_eq]
    exact if_pos overflow
  change UnpackedFloat.unpack Format.binary64 (UnpackedFloat.pack Format.binary64 _) = _
  rw [packed]
  cases s <;> rfl

/-- What is rounded stands for a rational, if it is packed as a finite float. -/
theorem denotes_pack_of_isFinite (rounded : Rounded u)
    (finite : (Float.ofModel (Float.Model.pack u)).isFinite = true) :
    Denotes (Float.ofModel (Float.Model.pack u)) (rational u) := by
  refine denotes_pack_of_canonical ?_ rounded.isRational
  cases u with
  | finite s m e h =>
    obtain ⟨digits, low, normal⟩ := rounded
    refine ⟨digits, low, ?_, normal⟩
    by_contra large
    change (Float.Model.pack (.finite s m e h)).unpack.isFinite = true at finite
    rw [unpack_pack_large s h (by omega)] at finite
    cases finite
  | _ => trivial

/-! ## Rationals at the ends of the range -/

/-- A rational of up to 53 digits is the float nearest to itself. -/
theorem nearest_scaled (digits : m < 2 ^ 53) (low : -1074 ≤ e) :
    nearest (m * 2 ^ e) = m * 2 ^ e := by
  rcases Nat.eq_zero_or_pos m with rfl | some_
  · have zero : halfEven 0 = 0 := by exact_mod_cast halfEven_intCast 0
    rw [Nat.cast_zero, zero_mul, nearest, zero_div, zero, Int.cast_zero, zero_mul]
  have positive := scaled_pos e some_
  generalize at_ : (m * 2 ^ e : ℚ) = q at positive
  have below : q < 2 ^ (53 + e) := by
    rw [← at_, zpow_add₀ two_ne_zero]
    refine mul_lt_mul_of_pos_right ?_ (by positivity)
    exact_mod_cast digits
  have log : Int.log 2 q < 53 + e := (Int.lt_zpow_iff_log_lt one_lt_two positive).1 below
  have shift : unit q ≤ e := by
    unfold unit
    omega
  have amount : (((e - unit q).toNat : Nat) : Int) = e - unit q := by omega
  have scaled : q / 2 ^ unit q = ((m * 2 ^ (e - unit q).toNat : Nat) : Int) := by
    rw [Int.cast_natCast, Nat.cast_mul, Nat.cast_pow, Nat.cast_ofNat, ← zpow_natCast (2 : ℚ), amount,
      zpow_sub₀ two_ne_zero, ← mul_div_assoc, at_]
  rw [nearest, scaled, halfEven_intCast, ← scaled, div_mul_cancel₀ _ (by positivity)]

/-- An integer of up to 53 digits is the float nearest to itself. -/
theorem nearest_natCast (digits : m ≤ 2 ^ 53) : nearest m = m := by
  rcases digits.lt_or_eq with less | rfl
  · have scaled := nearest_scaled less (e := 0) (by norm_num)
    rwa [zpow_zero, mul_one] at scaled
  · have scaled := nearest_scaled (m := 1) (e := 53) (by norm_num) (by norm_num)
    rw [Nat.cast_one, one_mul] at scaled
    exact_mod_cast scaled

/-- Up to half of the least float, nothing is left. -/
theorem nearest_eq_zero (positive : 0 < q) (tiny : q ≤ 2 ^ (-1075 : Int)) : nearest q = 0 := by
  have below : q < 2 ^ (-1074 : Int) := tiny.trans_lt (zpow_lt_zpow_right₀ one_lt_two (by norm_num))
  have log : Int.log 2 q < -1074 := (Int.lt_zpow_iff_log_lt one_lt_two positive).1 below
  have least : unit q = -1074 := by
    unfold unit
    omega
  have small : q / 2 ^ (-1074 : Int) ≤ 1 / 2 := by
    rw [div_le_iff₀ (by positivity)]
    calc q ≤ 2 ^ (-1075 : Int) := tiny
      _ = 1 / 2 * 2 ^ (-1074 : Int) := by
        rw [show (-1074 : Int) = 1 + (-1075) by norm_num, zpow_add₀ two_ne_zero, zpow_one,
          ← mul_assoc, one_div, inv_mul_cancel₀ two_ne_zero, one_mul]
  rw [nearest, least, (halfEven_eq_zero_iff (by positivity)).2 small, Int.cast_zero, zero_mul]

/-! ## Operands of one operation -/

theorem denotes_toFloat (some_ : 0 < m) (digits : m < 2 ^ 53) : Denotes m.toUInt64.toFloat m := by
  have same : m.toUInt64.toNat = m := Nat.mod_eq_of_lt (by omega)
  have exact_ : nearest (m : ℚ) = m := nearest_natCast digits.le
  have small : nearest (m : ℚ) < 2 ^ 1024 := by
    rw [exact_]
    exact_mod_cast digits.trans (Nat.pow_lt_pow_right one_lt_two (by norm_num))
  have denotes := denotes_normalize_of_pos (n := m) (e := 0) (p := m)
    (by exact_mod_cast some_) (by simp) small
  rw [exact_] at denotes
  change Denotes (Float.ofModel (Float.Model.pack
    (normalize Format.binary64 (m.toUInt64.toNat : Nat) 0 .positive))) _
  rwa [same]

/-- Whether a value is a given positive integer, told by its parts without a fraction. -/
def isNat (n : Nat) : UnpackedFloat → Bool
  | .finite .positive m e _ => -52 ≤ e && m * 2 ^ (e + 52).toNat = n * 2 ^ 52
  | _ => false

theorem denotes_of_isNat (parts : isNat n x.toModel.unpack = true) : Denotes x n := by
  unfold isNat at parts
  split at parts
  · rename_i m e h unpacked
    rw [Bool.and_eq_true, decide_eq_true_iff, decide_eq_true_iff] at parts
    obtain ⟨low, same⟩ := parts
    have amount : (((e + 52).toNat : Nat) : Int) = e + 52 := by omega
    have scaled : (m : ℚ) * 2 ^ (e + 52) = n * 2 ^ 52 := by
      rw [← amount, zpow_natCast]
      exact_mod_cast same
    rw [zpow_add₀ two_ne_zero, ← mul_assoc] at scaled
    refine ⟨unpacked ▸ trivial, ?_⟩
    rw [unpacked, rational_positive]
    exact mul_right_cancel₀ (pow_ne_zero 52 two_ne_zero) (by exact_mod_cast scaled)
  · cases parts

theorem isNat_powersOfTen (i : Fin Float.exactlyRepresentablePowersOfTen.size) :
    isNat (10 ^ i.val) Float.exactlyRepresentablePowersOfTen[i].toModel.unpack = true := by
  decide +kernel +revert

/-- The table of powers of ten has what it says. -/
theorem denotes_powerOfTen (few : n < Float.exactlyRepresentablePowersOfTen.size) :
    Denotes Float.exactlyRepresentablePowersOfTen[n] (10 ^ n) := by
  have denotes := denotes_of_isNat (isNat_powersOfTen ⟨n, few⟩)
  rw [Nat.cast_pow, Nat.cast_ofNat] at denotes
  exact denotes

/-! ## Significands and powers of ten -/

/-- A tenth is less than three binary digits. -/
theorem ten_zpow_le (nonpos : e ≤ 0) : (10 : ℚ) ^ e ≤ 2 ^ (3 * e) := by
  have inverse : (8 : ℚ) ^ (-e) ≤ 10 ^ (-e) :=
    zpow_le_zpow_left₀ (by omega) (by norm_num) (by norm_num)
  rw [zpow_neg, zpow_neg] at inverse
  calc (10 : ℚ) ^ e ≤ 8 ^ e := (inv_le_inv₀ (by positivity) (by positivity)).1 inverse
    _ = 2 ^ (3 * e) := by rw [zpow_mul]; norm_num

/-- Far below the least float, nothing is left of a significand under a power of ten. -/
theorem nearest_of_low (some_ : 0 < m) (low : e < -(2 ^ 11 + m.log2)) :
    nearest (m * 10 ^ e) = 0 := by
  refine nearest_eq_zero (by positivity) ?_
  have digits : (m : ℚ) ≤ 2 ^ ((m.log2 : Int) + 1) := by
    rw [← Nat.cast_succ, zpow_natCast]
    exact_mod_cast Nat.lt_log2_self.le
  calc (m : ℚ) * 10 ^ e ≤ 2 ^ ((m.log2 : Int) + 1) * 2 ^ (3 * e) :=
        mul_le_mul digits (ten_zpow_le (by omega)) (by positivity) (by positivity)
    _ = 2 ^ ((m.log2 : Int) + 1 + 3 * e) := (zpow_add₀ two_ne_zero _ _).symm
    _ ≤ 2 ^ (-1075 : Int) := zpow_le_zpow_right₀ one_le_two (by omega)

theorem held_exact (enough : 2 ^ 52 ≤ m) (e : Int) : Held m e .exact (m * 2 ^ e) := by
  refine ⟨?_, .inl enough⟩
  rw [mul_div_cancel_right₀ _ (by positivity)]
  exact represents_exact m

/-- An exact product that is rounded at the end. -/
theorem denotes_exact_mul {s : 0 < m} (h : 0 < n) (large : 2 ^ 52 ≤ m)
    (finite : (Float.ofModel (Float.Model.pack (UnpackedFloat.mul Format.binary64
      (.finite .positive m e s) (.finite .positive n 0 h)))).isFinite = true) :
    Denotes (Float.ofModel (Float.Model.pack (UnpackedFloat.mul Format.binary64
      (.finite .positive m e s) (.finite .positive n 0 h)))) (nearest (m * 2 ^ e * n)) := by
  have product : UnpackedFloat.mul Format.binary64 (.finite .positive m e s)
      (.finite .positive n 0 h) =
        roundWithAccuracy Format.binary64 .positive (m * n) (e + 0) .exact := rfl
  have held := held_exact (large.trans (Nat.le_mul_of_pos_right m h)) (e + 0)
  obtain ⟨rounded, value⟩ := roundWithAccuracy_spec held (scaled_pos _ (Nat.mul_pos s h)) .positive
  have same : ((m * n : Nat) * 2 ^ (e + 0) : ℚ) = m * 2 ^ e * n := by
    rw [add_zero, Nat.cast_mul, mul_right_comm]
  rw [product] at finite ⊢
  rw [same] at value
  rw [← show rational _ = nearest _ from value]
  exact denotes_pack_of_isFinite rounded finite

/-- An exact quotient that is rounded at the end. -/
theorem denotes_exact_div {h : 0 < m} {h' : 0 < n}
    (finite : (Float.ofModel (Float.Model.pack (UnpackedFloat.div Format.binary64
      (.finite .positive m 0 h) (.finite .positive n 0 h')))).isFinite = true) :
    Denotes (Float.ofModel (Float.Model.pack (UnpackedFloat.div Format.binary64
      (.finite .positive m 0 h) (.finite .positive n 0 h')))) (nearest (m / n)) := by
  obtain ⟨d, g, a, core, held⟩ := held_div (e := 0) (f := 0) h h'
  have quotient : UnpackedFloat.div Format.binary64 (.finite .positive m 0 h)
      (.finite .positive n 0 h') = roundWithAccuracy Format.binary64 .positive d g a := by
    change (match divCore Format.binary64 m 0 n 0 with
      | (d, g, a) => roundWithAccuracy Format.binary64 (Sign.positive / Sign.positive) d g a) = _
    rw [core]
    rfl
  obtain ⟨rounded, value⟩ := roundWithAccuracy_spec held
    (div_pos (scaled_pos 0 h) (scaled_pos 0 h')) .positive
  rw [zpow_zero, mul_one, mul_one] at value
  rw [quotient] at finite ⊢
  rw [← show rational _ = nearest _ from value]
  exact denotes_pack_of_isFinite rounded finite

/-- With a significand and a power of ten that are floats themselves, one operation is enough. -/
theorem denotes_ofScientific_of_few (some_ : 0 < m) (digits : m < 2 ^ 53) (few : n ≤ 22)
    (negative : Bool) : Denotes (Float.ofScientific m negative n)
      (nearest (m * 10 ^ (if negative then -n else n : Int))) := by
  have inside : n < Float.exactlyRepresentablePowersOfTen.size := Nat.lt_succ_of_le few
  have power := denotes_powerOfTen inside
  have left := denotes_toFloat some_ digits
  have positive : (0 : ℚ) < m := by exact_mod_cast some_
  have positive' : (0 : ℚ) < 10 ^ n := by positivity
  have size : (m : ℚ) ≤ 2 ^ 53 := by exact_mod_cast digits.le
  have one : (1 : ℚ) ≤ 10 ^ n := one_le_pow₀ (by norm_num)
  cases negative with
  | true =>
    have quotient : Float.ofScientific m true n =
        m.toUInt64.toFloat / Float.exactlyRepresentablePowersOfTen[n] :=
      dif_pos ⟨digits, few⟩
    have value : (m * 10 ^ (if true then -n else n : Int) : ℚ) = m / 10 ^ n := by
      rw [if_pos rfl, zpow_neg, zpow_natCast, div_eq_mul_inv]
    have high : (m : ℚ) / 10 ^ n ≤ reach :=
      (div_le_self positive.le one).trans (size.trans (pow_le_reach (by norm_num)))
    rw [quotient, value]
    exact left.div power positive positive' (nearest_lt_of_le_reach (by positivity) high)
  | false =>
    have product : Float.ofScientific m false n =
        m.toUInt64.toFloat * Float.exactlyRepresentablePowersOfTen[n] :=
      dif_pos ⟨digits, few⟩
    have value : (m * 10 ^ (if false then -n else n : Int) : ℚ) = m * 10 ^ n := by
      rw [if_neg (by decide), zpow_natCast]
    have high : (m : ℚ) * 10 ^ n ≤ reach :=
      calc (m : ℚ) * 10 ^ n ≤ 2 ^ 53 * 10 ^ 22 :=
            mul_le_mul size (pow_le_pow_right₀ (by norm_num) few) (by positivity) (by positivity)
        _ ≤ 2 ^ 127 := by norm_num
        _ ≤ reach := pow_le_reach (by norm_num)
    rw [product, value]
    exact left.mul power positive positive' (nearest_lt_of_le_reach (by positivity) high)

/-- Otherwise the rational is found exactly and rounded, unless its exponent alone tells that it is
out of range. -/
theorem denotes_model_ofScientific (some_ : 0 < m)
    (finite : (Float.ofModel (Float.Model.ofScientific m e)).isFinite = true) :
    Denotes (Float.ofModel (Float.Model.ofScientific m e)) (nearest (m * 10 ^ e)) := by
  rcases lt_or_ge (2 ^ 11) e with high | low
  · have overflows : UnpackedFloat.ofScientific Format.binary64 m e = .infinity .positive :=
      (dif_neg some_.ne').trans (if_pos high)
    change (Float.Model.pack (UnpackedFloat.ofScientific Format.binary64 m e)).unpack.isFinite = true
      at finite
    rw [overflows] at finite
    cases finite
  rcases lt_or_ge e (-(2 ^ 11 + m.log2)) with tiny | inside
  · have vanishes : UnpackedFloat.ofScientific Format.binary64 m e = .zero .positive :=
      (dif_neg some_.ne').trans ((if_neg low.not_gt).trans (if_pos tiny))
    rw [nearest_of_low some_ tiny]
    change Denotes (Float.ofModel (Float.Model.pack (UnpackedFloat.ofScientific Format.binary64 m e))) 0
    rw [vanishes]
    exact denotes_pack_of_canonical (u := .zero .positive) trivial trivial
  change (Float.ofModel (Float.Model.pack
    (UnpackedFloat.ofScientific Format.binary64 m e))).isFinite = true at finite
  change Denotes (Float.ofModel (Float.Model.pack (UnpackedFloat.ofScientific Format.binary64 m e))) _
  have shifted : 0 < m <<< 53 := by
    rw [Nat.shiftLeft_eq]
    positivity
  have power (n : Nat) : 0 < 10 ^ n := by positivity
  rcases le_or_gt 0 e with up | down
  · have product : UnpackedFloat.ofScientific Format.binary64 m e =
        .mul Format.binary64 (.finite .positive (m <<< 53) (-53) shifted)
          (.finite .positive (10 ^ e.toNat) 0 (power e.toNat)) :=
      (dif_neg some_.ne').trans
        ((if_neg low.not_gt).trans ((if_neg inside.not_gt).trans (if_pos up)))
    have enough : 2 ^ 52 ≤ m <<< 53 := by
      rw [Nat.shiftLeft_eq]
      omega
    have value : ((m <<< 53 : Nat) * 2 ^ (-53 : Int) * (10 ^ e.toNat : Nat) : ℚ) = m * 10 ^ e := by
      have exponent : ((e.toNat : Nat) : Int) = e := Int.toNat_of_nonneg up
      rw [← exponent, zpow_natCast, Nat.shiftLeft_eq, exponent]
      push_cast
      rw [mul_assoc (m : ℚ)]
      norm_num
    rw [product] at finite ⊢
    rw [← value]
    exact denotes_exact_mul _ enough finite
  · have quotient : UnpackedFloat.ofScientific Format.binary64 m e =
        .div Format.binary64 (.finite .positive m 0 some_)
          (.finite .positive (10 ^ (-e).toNat) 0 (power (-e).toNat)) :=
      (dif_neg some_.ne').trans
        ((if_neg low.not_gt).trans ((if_neg inside.not_gt).trans (if_neg down.not_ge)))
    have value : (m / (10 ^ (-e).toNat : Nat) : ℚ) = m * 10 ^ e := by
      have exponent : (((-e).toNat : Nat) : Int) = -e := Int.toNat_of_nonneg (by omega)
      rw [Nat.cast_pow, Nat.cast_ofNat, ← zpow_natCast, exponent, zpow_neg, div_inv_eq_mul]
    rw [quotient] at finite ⊢
    rw [← value]
    exact denotes_exact_div finite

/-- A significand under a power of ten becomes the float nearest to it. -/
theorem denotes_ofScientific (some_ : 0 < m) (negative : Bool) (n : Nat)
    (finite : (Float.ofScientific m negative n).isFinite = true) :
    Denotes (Float.ofScientific m negative n)
      (nearest (m * 10 ^ (if negative then -n else n : Int))) := by
  by_cases fast : m < 2 ^ 53 ∧ n ≤ 22
  · exact denotes_ofScientific_of_few some_ fast.1 fast.2 negative
  · have slow : Float.ofScientific m negative n = Float.ofModel
        (Float.Model.ofScientific m (if negative then Int.negOfNat n else Int.ofNat n)) :=
      dif_neg fast
    have exponent : (if negative then Int.negOfNat n else Int.ofNat n) =
        if negative then -(n : Int) else n := by
      cases negative with
      | true => exact Int.negOfNat_eq
      | false => rfl
    rw [slow, exponent] at finite ⊢
    exact denotes_model_ofScientific some_ finite

end Metering.Binary64
