import Metering.Proofs.Binary64.Rounding

/-!
# Arithmetic of floats

Packing loses nothing of what rounding leaves, unless it is too large. So a float that an operation
gives stands for the nearest to what the operation gives on rationals (`Denotes.mul`,
`Denotes.div`, `Denotes.add`, `Denotes.sub`), and integers of 64 bits become floats without
changing their order (`ofInt64_mono`).
-/

namespace Metering.Binary64

open Float.Model Float.Model.UnpackedFloat

variable {u v : UnpackedFloat} {x y z : Float} {p q : ℚ} {m n : Nat} {e f : Int}

/-! ## Packing -/

theorem unpackSign_packComponents (format : Format) (s : Sign)
    (exponent : BitVec format.exponentBits)
    (mantissa : BitVec format.mantissaBitsWithoutImplicit) :
    unpackSign (packComponents format s exponent mantissa) = s.toBitVec := by
  have parts : unpackSign (packComponents format s exponent mantissa) =
      BitVec.cast (by omega) (BitVec.extractLsb
        (format.mantissaBitsWithoutImplicit + format.exponentBits)
        (format.mantissaBitsWithoutImplicit + format.exponentBits)
        (s.toBitVec ++ exponent ++ mantissa)) := rfl
  rw [parts]
  apply BitVec.eq_of_getLsbD_eq
  intro i inside
  obtain rfl : i = 0 := by omega
  simp [BitVec.getLsbD_append, BitVec.getElem_append]

theorem ofBitVec_toBitVec (s : Sign) : Sign.ofBitVec s.toBitVec = s := by
  cases s <;> rfl

theorem finite_congr {s s' : Sign} {h : 0 < m} {h' : 0 < n} (sign : s = s') (digits : m = n)
    (exponent : e = f) : UnpackedFloat.finite s m e h = .finite s' n f h' := by
  subst sign digits exponent
  rfl

/-- What 53 digits are without the leading one. -/
theorem one_append_ofNat (digits : m < 2 ^ 53) (normal : 2 ^ 52 ≤ m) :
    (1#1 ++ BitVec.ofNat 52 m).toNat = m := by
  rw [toNat_one_append, BitVec.toNat_ofNat]
  omega

theorem unpack_pack_normal (s : Sign) (h : 0 < m) (digits : m < 2 ^ 53) (normal : 2 ^ 52 ≤ m)
    (low : -1074 ≤ e) (high : e ≤ 971) :
    UnpackedFloat.unpack Format.binary64 (UnpackedFloat.pack Format.binary64 (.finite s m e h)) =
      .finite s m e h := by
  have log : m.log2 + 1 = Format.binary64.mantissaBits := by
    have above := (Nat.le_log2 h.ne').2 normal
    have below := (Nat.log2_lt h.ne').2 digits
    change m.log2 + 1 = 53
    omega
  have fits : ¬ 2 ^ 11 ≤ (e + (1023 : Nat) + (52 : Nat)).toNat + 1 := by omega
  have exponent : (BitVec.ofNat 11 (e + (1023 : Nat) + (52 : Nat)).toNat).toNat =
      (e + (1023 : Nat) + (52 : Nat)).toNat := by
    rw [BitVec.toNat_ofNat, Nat.mod_eq_of_lt (by omega)]
  have notAll : BitVec.ofNat 11 (e + (1023 : Nat) + (52 : Nat)).toNat ≠ -1#_ := by
    intro all
    rw [all] at exponent
    change 2047 = _ at exponent
    omega
  have notNone : BitVec.ofNat 11 (e + (1023 : Nat) + (52 : Nat)).toNat ≠ 0#_ := by
    intro none_
    rw [none_] at exponent
    change 0 = _ at exponent
    omega
  have packed : UnpackedFloat.pack Format.binary64 (.finite s m e h) =
      packComponents Format.binary64 s (BitVec.ofNat 11 (e + (1023 : Nat) + (52 : Nat)).toNat)
        (BitVec.ofNat 52 m) := by
    unfold UnpackedFloat.pack
    rw [exponentBias_eq]
    exact (if_neg fits).trans (if_pos log)
  rw [packed]
  unfold UnpackedFloat.unpack
  dsimp only
  rw [unpackExponent_packComponents, if_neg notAll, if_neg notNone]
  refine finite_congr ?_ ?_ ?_
  · rw [unpackSign_packComponents, ofBitVec_toBitVec]
  · rw [unpackMantissa_packComponents, one_append_ofNat digits normal]
  · rw [exponent, exponentBias_eq]
    omega

theorem unpack_pack_subnormal (s : Sign) (h : 0 < m) (digits : m < 2 ^ 52) :
    UnpackedFloat.unpack Format.binary64
        (UnpackedFloat.pack Format.binary64 (.finite s m (-1074) h)) =
      .finite s m (-1074) h := by
  have log : ¬ m.log2 + 1 = Format.binary64.mantissaBits := by
    have below := (Nat.log2_lt h.ne').2 digits
    change ¬ m.log2 + 1 = 53
    omega
  have packed : UnpackedFloat.pack Format.binary64 (.finite s m (-1074) h) =
      packComponents Format.binary64 s 0#_ (BitVec.ofNat 52 m) := by
    unfold UnpackedFloat.pack
    exact (if_neg (by decide)).trans (if_neg log)
  have mantissa : (BitVec.ofNat 52 m).toNat = m := by
    rw [BitVec.toNat_ofNat, Nat.mod_eq_of_lt digits]
  have some_ : BitVec.ofNat 52 m ≠ 0#_ := by
    intro none_
    rw [none_] at mantissa
    exact h.ne mantissa
  rw [packed]
  unfold UnpackedFloat.unpack
  dsimp only
  rw [unpackExponent_packComponents, if_neg (by decide), if_pos rfl,
    dif_neg (unpackMantissa_packComponents ▸ some_)]
  refine finite_congr ?_ ?_ rfl
  · rw [unpackSign_packComponents, ofBitVec_toBitVec]
  · rw [unpackMantissa_packComponents, mantissa]

/-- Packing loses nothing. -/
theorem unpack_pack (canonical : Canonical u) : (Float.Model.pack u).unpack = u := by
  change UnpackedFloat.unpack Format.binary64 (UnpackedFloat.pack Format.binary64 u) = u
  cases u with
  | infinity s => cases s <;> rfl
  | notANumber => rfl
  | zero s => cases s <;> rfl
  | finite s m e h =>
    obtain ⟨digits, low, high, normal⟩ := canonical
    rcases Nat.lt_or_ge m (2 ^ 52) with few | many
    · obtain rfl : e = -1074 := normal.resolve_left (by omega)
      exact unpack_pack_subnormal s h few
    · exact unpack_pack_normal s h digits many low high

/-! ## Negation -/

theorem canonical_neg (canonical : Canonical u) : Canonical u.neg := by
  cases u with
  | finite s m e h => exact canonical
  | _ => trivial

theorem unpack_neg (x : Float) : (-x).toModel.unpack = x.toModel.unpack.neg :=
  unpack_pack (canonical_neg (canonical x))

theorem compare_neg (u v : UnpackedFloat) : u.neg.compare v.neg = v.compare u := by
  have swapped : ∀ (m n : Nat) (e f : Int), ((compare e f).then (compare m n)).swap =
      (compare f e).then (compare n m) := by
    intro m n e f
    rw [Ordering.swap_then, ← Std.OrientedCmp.eq_swap, ← Std.OrientedCmp.eq_swap]
  cases u with
  | notANumber => cases v <;> rfl
  | infinity s =>
    cases v with
    | notANumber => cases s <;> rfl
    | infinity s' => cases s <;> cases s' <;> rfl
    | zero s' => cases s <;> rfl
    | finite s' n f h' => cases s <;> rfl
  | zero s =>
    cases v with
    | notANumber => rfl
    | infinity s' => cases s' <;> rfl
    | zero s' => rfl
    | finite s' n f h' => cases s' <;> rfl
  | finite s m e h =>
    cases v with
    | notANumber => cases s <;> rfl
    | infinity s' => cases s <;> cases s' <;> rfl
    | zero s' => cases s <;> rfl
    | finite s' n f h' =>
      cases s with
      | positive =>
        cases s' with
        | positive => exact congrArg some (swapped m n e f)
        | negative => rfl
      | negative =>
        cases s' with
        | positive => rfl
        | negative => exact congrArg some (swapped n m f e).symm

/-- Negation turns the order around. -/
theorem neg_le_neg (le : x ≤ y) : -y ≤ -x := by
  rw [le_iff_compare, unpack_neg, unpack_neg, compare_neg]
  exact le_iff_compare.1 le

theorem neg_lt_neg (less : x < y) : -y < -x := by
  rw [lt_iff_compare, unpack_neg, unpack_neg, compare_neg]
  exact lt_iff_compare.1 less

/-! ## Floats that stand for a rational -/

/-- The float stands for the rational. -/
structure Denotes (x : Float) (q : ℚ) : Prop where
  finite : IsRational x.toModel.unpack
  value : rational x.toModel.unpack = q

/-- The rational that a float stands for; zero if it is none. -/
def value (x : Float) : ℚ := rational x.toModel.unpack

theorem denotes_of_isFinite (finite : x.isFinite = true) : Denotes x (value x) := by
  refine ⟨?_, rfl⟩
  change x.toModel.unpack.isFinite = true at finite
  cases parts : x.toModel.unpack with
  | finite s m e h => trivial
  | zero s => trivial
  | infinity s =>
    rw [parts] at finite
    cases finite
  | notANumber =>
    rw [parts] at finite
    cases finite

theorem Denotes.isFinite (denotes : Denotes x p) : x.isFinite = true := by
  have finite := denotes.finite
  change x.toModel.unpack.isFinite = true
  cases parts : x.toModel.unpack with
  | finite s m e h => rfl
  | zero s => rfl
  | infinity s =>
    rw [parts] at finite
    cases finite
  | notANumber =>
    rw [parts] at finite
    cases finite

theorem Denotes.number (denotes : Denotes x p) : x.isNaN = false :=
  number_of_isFinite denotes.isFinite

theorem Denotes.place (denotes : Denotes x p) : place x = (p : WithTop ℚ) := by
  rw [Binary64.place, placeOf_rational denotes.finite, denotes.value]

theorem Denotes.le_iff (left : Denotes x p) (right : Denotes y q) : x ≤ y ↔ p ≤ q := by
  rw [Binary64.le_iff, left.place, right.place, WithBot.coe_le_coe, WithTop.coe_le_coe]
  simp only [left.number, right.number, true_and]

theorem Denotes.lt_iff (left : Denotes x p) (right : Denotes y q) : x < y ↔ p < q := by
  rw [Binary64.lt_iff, left.place, right.place, WithBot.coe_lt_coe, WithTop.coe_lt_coe]
  simp only [left.number, right.number, true_and]

theorem Denotes.unique (left : Denotes x p) (right : Denotes x q) : p = q :=
  left.value.symm.trans right.value

theorem Denotes.neg (denotes : Denotes x p) : Denotes (-x) (-p) := by
  obtain ⟨finite, value⟩ := denotes
  refine ⟨?_, ?_⟩ <;> rw [unpack_neg]
  · cases parts : x.toModel.unpack with
    | finite s m e h => trivial
    | zero s => trivial
    | _ =>
      rw [parts] at finite
      exact finite
  · rw [← value]
    cases parts : x.toModel.unpack with
    | finite s m e h =>
      cases s with
      | positive =>
        rw [rational_positive]
        exact rational_negative m e h
      | negative =>
        rw [rational_negative, neg_neg]
        exact rational_positive m e h
    | _ => exact neg_zero.symm

/-- What lies between floats that are finite is finite. -/
theorem denotes_of_between (low : x ≤ y) (high : y ≤ z) (left : Denotes x p) (right : Denotes z q) :
    Denotes y (value y) := by
  obtain ⟨-, number, above⟩ := le_iff.1 low
  obtain ⟨-, -, below⟩ := le_iff.1 high
  refine ⟨?_, rfl⟩
  rw [left.place] at above
  rw [right.place] at below
  unfold place at above below
  rcases kinds y.toModel.unpack with lowest | highest | finite | none_
  · rw [lowest] at above
    exact absurd above (bot_lt_rational p).not_ge
  · rw [highest] at below
    exact absurd below (rational_lt_top q).not_ge
  · exact finite
  · exact absurd none_ (isNaN_eq_false_iff.1 number)

theorem isFinite_of_between (low : x ≤ y) (high : y ≤ z) (left : x.isFinite = true)
    (right : z.isFinite = true) : y.isFinite = true :=
  (denotes_of_between low high (denotes_of_isFinite left) (denotes_of_isFinite right)).isFinite

/-- What rounding leaves below `2 ^ 1024` fits into a float. -/
theorem canonical_of_rounded (rounded : Rounded u) (small : |rational u| < 2 ^ 1024) :
    Canonical u := by
  cases u with
  | finite s m e h =>
    obtain ⟨digits, low, normal⟩ := rounded
    refine ⟨digits, low, ?_, normal⟩
    rw [← Int.not_lt]
    intro high
    have digits' : (2 : ℚ) ^ 52 ≤ m := by
      have many : 2 ^ 52 ≤ m := normal.resolve_right (by omega)
      exact_mod_cast many
    have scale : (2 : ℚ) ^ (972 : Int) ≤ 2 ^ e := zpow_le_zpow_right₀ one_le_two high
    have large : (2 : ℚ) ^ 1024 ≤ m * 2 ^ e :=
      calc (2 : ℚ) ^ 1024 = (2 : ℚ) ^ 52 * 2 ^ (972 : Int) := by rw [zpow_ofNat, ← pow_add]
        _ ≤ (m : ℚ) * 2 ^ e := mul_le_mul digits' scale (by positivity) (by positivity)
    have size : |rational (.finite s m e h)| = m * 2 ^ e := by
      have positive := (scaled_pos e h).le
      cases s with
      | positive => rw [rational_positive, abs_of_nonneg positive]
      | negative => rw [rational_negative, abs_neg, abs_of_nonneg positive]
    rw [size] at small
    exact absurd small large.not_gt
  | _ => trivial

theorem denotes_pack_of_canonical (canonical : Canonical u) (finite : IsRational u) :
    Denotes (Float.ofModel (Float.Model.pack u)) (rational u) := by
  have same : (Float.Model.pack u).unpack = u := unpack_pack canonical
  refine ⟨?_, congrArg rational same⟩
  change IsRational (Float.Model.pack u).unpack
  rwa [same]

theorem Rounded.isRational (rounded : Rounded u) : IsRational u := by
  cases u with
  | finite s m e h => trivial
  | zero s => trivial
  | infinity s => exact rounded
  | notANumber => exact rounded

theorem denotes_pack (rounded : Rounded u) (small : |rational u| < 2 ^ 1024) :
    Denotes (Float.ofModel (Float.Model.pack u)) (rational u) :=
  denotes_pack_of_canonical (canonical_of_rounded rounded small) rounded.isRational

theorem abs_signed (s : Sign) (nonneg : 0 ≤ p) : |signed s p| = p := by
  cases s with
  | positive => exact abs_of_nonneg nonneg
  | negative => exact (abs_neg p).trans (abs_of_nonneg nonneg)

/-- A float that stands for a positive rational. -/
theorem Denotes.parts (denotes : Denotes x p) (positive : 0 < p) :
    ∃ m e h, x.toModel.unpack = .finite .positive m e h ∧ p = m * 2 ^ e := by
  obtain ⟨finite, value⟩ := denotes
  cases parts : x.toModel.unpack with
  | infinity s =>
    rw [parts] at finite
    cases finite
  | notANumber =>
    rw [parts] at finite
    cases finite
  | zero s =>
    rw [parts] at value
    exact absurd value positive.ne
  | finite s m e h =>
    rw [parts] at value
    cases s with
    | positive => exact ⟨m, e, h, rfl, by rw [← value, rational_positive]⟩
    | negative =>
      rw [rational_negative] at value
      have := scaled_pos e h
      linarith

/-! ## Operations -/

theorem held_mul {s s' : Sign} {h : 0 < m} {h' : 0 < n} (left : Canonical (.finite s m e h))
    (right : Canonical (.finite s' n f h')) :
    Held (m * n) (e + f) .exact (m * 2 ^ e * (n * 2 ^ f)) := by
  refine ⟨?_, ?_⟩
  · have scaled : (m * 2 ^ e * (n * 2 ^ f) : ℚ) / 2 ^ (e + f) = (m * n : Nat) := by
      rw [zpow_add₀ two_ne_zero]
      push_cast
      field_simp
    rw [scaled]
    exact represents_exact _
  · rcases left.2.2.2 with many | least
    · exact .inl (many.trans (Nat.le_mul_of_pos_right m h'))
    · rcases right.2.2.2 with many | least'
      · exact .inl (many.trans (Nat.le_mul_of_pos_left n h))
      · exact .inr (by omega)

/-- A quotient with its remainder, as what is rounded. -/
theorem represents_div (m : Nat) {d : Nat} (some_ : 0 < d) :
    Represents (ExtendedMantissa.ofMantissaAndAccuracy (m / d) (accuracyOfFraction (m % d) d))
      (m / d) := by
  have divisor : (0 : ℚ) < d := by exact_mod_cast some_
  have whole : (m : ℚ) / d = (m / d : Nat) + (m % d : Nat) / d := by
    have split_ : (m : ℚ) = d * (m / d : Nat) + (m % d : Nat) := by
      exact_mod_cast (Nat.div_add_mod m d).symm
    rw [div_eq_iff divisor.ne', add_mul, div_mul_cancel₀ _ divisor.ne', mul_comm]
    exact split_
  have below : ((m % d : Nat) : ℚ) / d < 1 := by
    rw [div_lt_one divisor]
    exact_mod_cast Nat.mod_lt m some_
  rw [whole, accuracyOfFraction]
  generalize m % d = rest at below
  split
  · rename_i none_
    rw [none_, Nat.cast_zero, zero_div, add_zero]
    exact represents_exact _
  · rename_i some_'
    have positive : (0 : ℚ) < rest / d := by
      have : (0 : ℚ) < rest := by exact_mod_cast Nat.pos_of_ne_zero some_'
      positivity
    rcases Nat.lt_trichotomy (2 * rest) d with less | same | greater
    · rw [compare_lt_iff_lt.2 less]
      refine ⟨rest / d, by simp [ExtendedMantissa.ofMantissaAndAccuracy], positive, ?_⟩
      rw [div_lt_div_iff₀ divisor two_pos, mul_comm, one_mul]
      exact_mod_cast less
    · rw [compare_eq_iff_eq.2 same]
      have half : (rest : ℚ) / d = 1 / 2 := by
        rw [div_eq_div_iff divisor.ne' two_ne_zero, mul_comm, one_mul]
        exact_mod_cast same
      exact ⟨0, by simp [ExtendedMantissa.ofMantissaAndAccuracy, half], rfl⟩
    · rw [compare_gt_iff_gt.2 greater]
      have half : (1 : ℚ) / 2 < rest / d := by
        rw [div_lt_div_iff₀ two_pos divisor, one_mul, mul_comm]
        exact_mod_cast greater
      refine ⟨rest / d - 1 / 2, ?_, by linarith, by linarith⟩
      simp only [ExtendedMantissa.ofMantissaAndAccuracy, if_pos]
      ring

/-- The quotient of two significands has enough digits. -/
theorem held_div (h : 0 < m) (h' : 0 < n) :
    ∃ d g a, divCore Format.binary64 m e n f = (d, g, a) ∧
      Held d g a (m * 2 ^ e / (n * 2 ^ f)) := by
  have divisor : (0 : ℚ) < n := by exact_mod_cast h'
  refine ⟨_, _, _, rfl, ?_⟩
  rw [targetExponent_eq, totalExponent, totalExponent]
  generalize target : min (e - f) (max ((m.log2 : Int) + 1 + e - (n.log2 + 1 + f) - 53) (-1074)) = t
  have amount : (((e - f - t).toNat : Nat) : Int) = e - f - t := by omega
  have scaled : (m * 2 ^ e / (n * 2 ^ f) : ℚ) / 2 ^ t =
      ((m <<< (e - f - t).toNat : Nat) : ℚ) / n := by
    rw [Nat.shiftLeft_eq, Nat.cast_mul, Nat.cast_pow, Nat.cast_ofNat, ← zpow_natCast (2 : ℚ),
      amount, zpow_sub₀ two_ne_zero, zpow_sub₀ two_ne_zero]
    field_simp
  refine ⟨?_, ?_⟩
  · rw [scaled]
    exact represents_div _ h'
  · -- A quotient of significands of `a` and `b` digits has at least `a - b` digits.
    rcases lt_or_ge (-1074) t with above | least
    · left
      have digits : n.log2 + 53 ≤ m.log2 + (e - f - t).toNat := by omega
      have low := Nat.log2_self_le h.ne'
      have high : n < 2 ^ (n.log2 + 1) := Nat.lt_log2_self
      rw [Nat.le_div_iff_mul_le h', Nat.shiftLeft_eq]
      calc 2 ^ 52 * n ≤ 2 ^ 52 * 2 ^ (n.log2 + 1) := Nat.mul_le_mul_left _ high.le
        _ = 2 ^ (n.log2 + 53) := by rw [← pow_add]; congr 1; omega
        _ ≤ 2 ^ (m.log2 + (e - f - t).toNat) := Nat.pow_le_pow_right two_pos digits
        _ = 2 ^ m.log2 * 2 ^ (e - f - t).toNat := pow_add ..
        _ ≤ m * 2 ^ (e - f - t).toNat := Nat.mul_le_mul_right _ low
    · exact .inr least

/-- A significand is rounded to the nearest rational, with as many digits as it has. -/
theorem round_spec (h : 0 < m) (e : Int) (s : Sign) :
    Rounded (UnpackedFloat.round Format.binary64 s m e) ∧
      rational (UnpackedFloat.round Format.binary64 s m e) = signed s (nearest (m * 2 ^ e)) := by
  unfold UnpackedFloat.round decreaseExponent
  rw [targetExponent_eq, totalExponent]
  dsimp only
  generalize amount : (e - max ((m.log2 : Int) + 1 + e - 53) (-1074)).toNat = k
  refine roundWithAccuracy_spec ⟨?_, ?_⟩ (scaled_pos e h) s
  · have scaled : (m * 2 ^ e : ℚ) / 2 ^ (e - k) = (m <<< k : Nat) := by
      rw [Nat.shiftLeft_eq, zpow_sub₀ two_ne_zero, zpow_natCast]
      push_cast
      field_simp
    rw [scaled]
    exact represents_exact _
  · have low := Nat.log2_self_le h.ne'
    rcases lt_or_ge (-1074) (e - k) with above | least
    · left
      have digits : 52 ≤ m.log2 + k := by omega
      calc 2 ^ 52 ≤ 2 ^ (m.log2 + k) := Nat.pow_le_pow_right two_pos digits
        _ = 2 ^ m.log2 * 2 ^ k := pow_add ..
        _ ≤ m * 2 ^ k := Nat.mul_le_mul_right _ low
        _ = m <<< k := (Nat.shiftLeft_eq m k).symm
    · exact .inr least

theorem Denotes.mul (left : Denotes x p) (right : Denotes y q) (positive : 0 < p)
    (positive' : 0 < q) (small : nearest (p * q) < 2 ^ 1024) :
    Denotes (x * y) (nearest (p * q)) := by
  obtain ⟨m, e, h, parts, rfl⟩ := left.parts positive
  obtain ⟨n, f, h', parts', rfl⟩ := right.parts positive'
  have held := held_mul (parts ▸ canonical x) (parts' ▸ canonical y)
  obtain ⟨rounded, value⟩ := roundWithAccuracy_spec held (mul_pos positive positive') .positive
  have product : x * y = Float.ofModel (Float.Model.pack
      (roundWithAccuracy Format.binary64 .positive (m * n) (e + f) .exact)) := by
    change Float.ofModel (Float.Model.pack (UnpackedFloat.mul _ _ _)) = _
    rw [parts, parts']
    rfl
  have size : |rational (roundWithAccuracy Format.binary64 .positive (m * n) (e + f) .exact)| <
      2 ^ 1024 := by
    rw [value, abs_signed _ (nearest_nonneg (mul_pos positive positive'))]
    exact small
  have packed := denotes_pack rounded size
  rw [value] at packed
  rw [product]
  exact packed

/-- The quotient by a positive float has the sign of the dividend. -/
theorem denotes_div {s : Sign} {h : 0 < m} {h' : 0 < n} (left : x.toModel.unpack = .finite s m e h)
    (right : y.toModel.unpack = .finite .positive n f h')
    (small : nearest (m * 2 ^ e / (n * 2 ^ f)) < 2 ^ 1024) :
    Denotes (x / y) (signed s (nearest (m * 2 ^ e / (n * 2 ^ f)))) := by
  obtain ⟨d, g, a, core, held⟩ := held_div (e := e) (f := f) h h'
  have positive := div_pos (scaled_pos e h) (scaled_pos f h')
  obtain ⟨rounded, value⟩ := roundWithAccuracy_spec held positive s
  have sign : s / .positive = s := by cases s <;> rfl
  have quotient : x / y = Float.ofModel (Float.Model.pack
      (roundWithAccuracy Format.binary64 s d g a)) := by
    change Float.ofModel (Float.Model.pack (UnpackedFloat.div _ _ _)) = _
    rw [left, right]
    change Float.ofModel (Float.Model.pack (match divCore Format.binary64 m e n f with
      | (d, g, a) => roundWithAccuracy Format.binary64 (s / .positive) d g a)) = _
    rw [core, sign]
  have size : |rational (roundWithAccuracy Format.binary64 s d g a)| < 2 ^ 1024 := by
    rw [value, abs_signed _ (nearest_nonneg positive)]
    exact small
  rw [quotient, ← value]
  exact denotes_pack rounded size

theorem Denotes.div (left : Denotes x p) (right : Denotes y q) (positive : 0 < p)
    (positive' : 0 < q) (small : nearest (p / q) < 2 ^ 1024) :
    Denotes (x / y) (nearest (p / q)) := by
  obtain ⟨m, e, h, parts, rfl⟩ := left.parts positive
  obtain ⟨n, f, h', parts', rfl⟩ := right.parts positive'
  exact denotes_div parts parts' small

/-- Two significands under their smaller exponent. -/
theorem decreaseExponent_eq (m : Nat) {e f : Int} (le : f ≤ e) :
    (((decreaseExponent m e f).1 : Nat) : ℚ) * 2 ^ f = m * 2 ^ e := by
  have amount : f + ((e - f).toNat : Int) = e := by omega
  rw [decreaseExponent, Nat.shiftLeft_eq, Nat.cast_mul, Nat.cast_pow, Nat.cast_ofNat, mul_assoc,
    ← zpow_natCast, ← zpow_add₀ two_ne_zero, add_comm, amount]

/-- An integer under an exponent is rounded by its sign and its magnitude. -/
theorem normalize_spec {n : Int} (some_ : n ≠ 0) (e : Int) (zeroSign : Sign) :
    Rounded (normalize Format.binary64 n e zeroSign) ∧
      rational (normalize Format.binary64 n e zeroSign) =
        if n < 0 then -nearest ((-n : Int) * 2 ^ e) else nearest (n * 2 ^ e) := by
  unfold UnpackedFloat.normalize
  rcases Int.lt_trichotomy n 0 with negative | none_ | positive
  · rw [compare_lt_iff_lt.2 negative, if_pos negative]
    have magnitude : (((-n).toNat : Nat) : ℚ) = (-n : Int) := by
      exact_mod_cast Int.toNat_of_nonneg (by omega)
    have spec := round_spec (m := (-n).toNat) (by omega) e .negative
    rw [magnitude] at spec
    exact spec
  · exact absurd none_ some_
  · rw [compare_gt_iff_gt.2 positive, if_neg (by omega)]
    have magnitude : ((n.toNat : Nat) : ℚ) = n := by
      exact_mod_cast Int.toNat_of_nonneg positive.le
    have spec := round_spec (m := n.toNat) (by omega) e .positive
    rw [magnitude] at spec
    exact spec

theorem denotes_normalize {n : Int} (some_ : n ≠ 0) (e : Int) (zeroSign : Sign)
    (small : nearest ((|n| : Int) * 2 ^ e) < 2 ^ 1024) :
    Denotes (Float.ofModel (Float.Model.pack (normalize Format.binary64 n e zeroSign)))
      (if n < 0 then -nearest ((-n : Int) * 2 ^ e) else nearest (n * 2 ^ e)) := by
  obtain ⟨rounded, value⟩ := normalize_spec some_ e zeroSign
  have scale : (0 : ℚ) < 2 ^ e := by positivity
  have magnitude : (0 : ℚ) < (|n| : Int) * 2 ^ e :=
    mul_pos (by exact_mod_cast abs_pos.2 some_) scale
  have size : |rational (normalize Format.binary64 n e zeroSign)| =
      nearest ((|n| : Int) * 2 ^ e) := by
    rw [value]
    rcases lt_or_gt_of_ne some_ with negative | positive
    · rw [if_pos negative, abs_neg, ← abs_of_neg negative, abs_of_nonneg (nearest_nonneg magnitude)]
    · rw [abs_of_pos positive] at magnitude ⊢
      rw [if_neg positive.not_gt, abs_of_nonneg (nearest_nonneg magnitude)]
  rw [← value]
  exact denotes_pack rounded (size ▸ small)

theorem denotes_normalize_of_pos {n : Int} {e : Int} (positive : 0 < n)
    (value : (n : ℚ) * 2 ^ e = p) (small : nearest p < 2 ^ 1024) :
    Denotes (Float.ofModel (Float.Model.pack (normalize Format.binary64 n e .positive)))
      (nearest p) := by
  have denotes := denotes_normalize positive.ne' e .positive
  rw [abs_of_pos positive, if_neg positive.not_gt, value] at denotes
  exact denotes small

theorem Denotes.add (left : Denotes x p) (right : Denotes y q) (positive : 0 < p)
    (positive' : 0 < q) (small : nearest (p + q) < 2 ^ 1024) :
    Denotes (x + y) (nearest (p + q)) := by
  obtain ⟨m, e, h, parts, rfl⟩ := left.parts positive
  obtain ⟨n, f, h', parts', rfl⟩ := right.parts positive'
  have sum : x + y = Float.ofModel (Float.Model.pack (normalize Format.binary64
      ((decreaseExponent m e (min e f)).1 + (decreaseExponent n f (min e f)).1 : Nat) (min e f)
        .positive)) := by
    change Float.ofModel (Float.Model.pack (UnpackedFloat.add _ _ _)) = _
    rw [parts, parts']
    rfl
  have value : ((((decreaseExponent m e (min e f)).1 +
      (decreaseExponent n f (min e f)).1 : Nat) : Int) : ℚ) * 2 ^ min e f =
        m * 2 ^ e + n * 2 ^ f := by
    rw [Int.cast_natCast, Nat.cast_add, add_mul, decreaseExponent_eq m (min_le_left e f),
      decreaseExponent_eq n (min_le_right e f)]
  rw [sum]
  refine denotes_normalize_of_pos ?_ value small
  have scale : (0 : ℚ) < 2 ^ min e f := by positivity
  have total : (0 : ℚ) < m * 2 ^ e + n * 2 ^ f := add_pos positive positive'
  rw [← value] at total
  exact_mod_cast (mul_pos_iff_of_pos_right scale).1 total

theorem Denotes.sub (left : Denotes x p) (right : Denotes y q) (positive : 0 < q) (less : q < p)
    (small : nearest (p - q) < 2 ^ 1024) : Denotes (x - y) (nearest (p - q)) := by
  obtain ⟨m, e, h, parts, rfl⟩ := left.parts (positive.trans less)
  obtain ⟨n, f, h', parts', rfl⟩ := right.parts positive
  have difference : x - y = Float.ofModel (Float.Model.pack (normalize Format.binary64
      ((decreaseExponent m e (min e f)).1 - (decreaseExponent n f (min e f)).1 : Int) (min e f)
        .positive)) := by
    change Float.ofModel (Float.Model.pack (UnpackedFloat.sub _ _ _)) = _
    rw [parts, parts']
    rfl
  have value : ((((decreaseExponent m e (min e f)).1 -
      (decreaseExponent n f (min e f)).1 : Int) : Int) : ℚ) * 2 ^ min e f =
        m * 2 ^ e - n * 2 ^ f := by
    rw [Int.cast_sub, Int.cast_natCast, Int.cast_natCast, sub_mul,
      decreaseExponent_eq m (min_le_left e f), decreaseExponent_eq n (min_le_right e f)]
  rw [difference]
  refine denotes_normalize_of_pos ?_ value small
  have scale : (0 : ℚ) < 2 ^ min e f := by positivity
  have total : (0 : ℚ) < m * 2 ^ e - n * 2 ^ f := sub_pos.2 less
  rw [← value] at total
  exact_mod_cast (mul_pos_iff_of_pos_right scale).1 total

/-! ## Integers -/

/-- The float nearest to an integer, by its sign and its magnitude. -/
def nearestInt (n : Int) : ℚ :=
  if n < 0 then -nearest (-n : Int) else if n = 0 then 0 else nearest n

theorem nearestInt_mono {m n : Int} (le : m ≤ n) : nearestInt m ≤ nearestInt n := by
  have nonneg : ∀ {k : Int}, 0 < k → 0 ≤ nearest k := fun {k} positive =>
    nearest_nonneg (by exact_mod_cast positive)
  rcases Int.lt_trichotomy m 0 with negative | rfl | positive
  · rw [nearestInt, if_pos negative]
    have low := nonneg (Int.neg_pos_of_neg negative)
    rcases Int.lt_trichotomy n 0 with negative' | rfl | positive'
    · rw [nearestInt, if_pos negative']
      refine neg_le_neg_iff.2 (nearest_mono ?_ ?_)
      · exact_mod_cast Int.neg_pos_of_neg negative'
      · exact_mod_cast Int.neg_le_neg le
    · rw [nearestInt, if_neg (lt_irrefl _), if_pos rfl]
      linarith
    · rw [nearestInt, if_neg positive'.not_gt, if_neg positive'.ne']
      have high := nonneg positive'
      linarith
  · rw [nearestInt, if_neg (lt_irrefl _), if_pos rfl]
    rcases Int.lt_or_eq_of_le le with positive | rfl
    · rw [nearestInt, if_neg positive.not_gt, if_neg positive.ne']
      exact nonneg positive
    · exact le_refl _
  · rw [nearestInt, if_neg positive.not_gt, if_neg positive.ne', nearestInt,
      if_neg (positive.trans_le le).not_gt, if_neg (positive.trans_le le).ne']
    exact nearest_mono (by exact_mod_cast positive) (by exact_mod_cast le)

/-- An integer of 64 bits becomes the float nearest to it. -/
theorem denotes_ofInt64 (v : Int64) : Denotes (ofInt64 v) (nearestInt v.toInt) := by
  have range : v.toInt < 2 ^ 63 ∧ -2 ^ 63 ≤ v.toInt := ⟨v.toInt_lt, v.le_toInt⟩
  change Denotes
    (Float.ofModel (Float.Model.pack (normalize Format.binary64 v.toInt 0 .positive))) _
  generalize v.toInt = n at range
  by_cases none_ : n = 0
  · rw [none_]
    exact ⟨trivial, rfl⟩
  · have magnitude : 1 ≤ |n| := Int.one_le_abs none_
    have few : |n| ≤ 2 ^ 63 := abs_le.2 ⟨range.2, range.1.le⟩
    have low : (1 : ℚ) ≤ (|n| : Int) * 2 ^ (0 : Int) := by
      rw [zpow_zero, mul_one]
      exact_mod_cast magnitude
    have high : ((|n| : Int) : ℚ) * 2 ^ (0 : Int) ≤ 2 ^ 63 := by
      rw [zpow_zero, mul_one]
      exact_mod_cast few
    have normal : (2 : ℚ) ^ (-1022 : Int) ≤ (|n| : Int) * 2 ^ (0 : Int) :=
      (zpow_le_one_of_nonpos₀ one_le_two (by norm_num)).trans low
    have small : nearest ((|n| : Int) * 2 ^ (0 : Int)) < 2 ^ 1024 :=
      calc nearest ((|n| : Int) * 2 ^ (0 : Int)) ≤ 2 * ((|n| : Int) * 2 ^ (0 : Int)) :=
            nearest_le_two_mul normal
        _ ≤ 2 * 2 ^ 63 := mul_le_mul_of_nonneg_left high two_pos.le
        _ = (2 : ℚ) ^ 64 := (pow_succ' _ _).symm
        _ < (2 : ℚ) ^ 1024 := pow_lt_pow_right₀ one_lt_two (by norm_num)
    have denotes := denotes_normalize none_ 0 .positive small
    rw [zpow_zero, mul_one, mul_one] at denotes
    rwa [nearestInt, if_neg none_]

/-- Larger integers become larger floats, or the same. -/
theorem ofInt64_mono {v w : Int64} (le : v.toInt ≤ w.toInt) : ofInt64 v ≤ ofInt64 w :=
  ((denotes_ofInt64 v).le_iff (denotes_ofInt64 w)).2 (nearestInt_mono le)

end Metering.Binary64
