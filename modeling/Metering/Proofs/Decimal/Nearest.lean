import Mathlib.Data.List.TakeWhile
import Metering.Decimal.Reader
import Metering.Proofs.Binary64.Scientific

/-!
# Decimal texts and the rationals they write

A decimal text writes a rational: its digits under a power of ten, with a sign (`written?`). The
reader finds the float that is nearest to it, however many digits there are and wherever the point
and the exponent put them (`denotes_read?`).
-/

namespace Metering

namespace Binary64

/-- The float nearest to a rational, by its sign and its magnitude. -/
def nearestTo (q : ℚ) : ℚ := if q < 0 then -nearest (-q) else nearest q

variable {x : Float} {q r : ℚ}

theorem nearest_zero : nearest 0 = 0 := by
  have none_ := nearest_scaled (m := 0) (e := 0) (by norm_num) (by norm_num)
  rwa [Nat.cast_zero, zero_mul] at none_

theorem nearestTo_of_nonneg (nonneg : 0 ≤ q) : nearestTo q = nearest q := if_neg nonneg.not_gt

theorem nearestTo_neg (nonneg : 0 ≤ q) : nearestTo (-q) = -nearest q := by
  rcases nonneg.eq_or_lt with rfl | positive
  · rw [neg_zero, nearestTo_of_nonneg le_rfl, nearest_zero, neg_zero]
  · rw [nearestTo, if_pos (neg_neg_of_pos positive), neg_neg]

/-- Integers of up to 53 digits are floats. -/
theorem nearestTo_intCast {z : Int} (digits : z.natAbs ≤ 2 ^ 53) : nearestTo z = z := by
  have magnitude : nearest (z.natAbs : ℚ) = z.natAbs := nearest_natCast digits
  rcases z.natAbs_eq with same | opposite
  · rw [same, Int.cast_natCast, nearestTo_of_nonneg (Nat.cast_nonneg _), magnitude]
  · rw [opposite, Int.cast_neg, Int.cast_natCast, nearestTo_neg (Nat.cast_nonneg _), magnitude]

theorem nearestInt_eq_nearestTo (n : Int) : nearestInt n = nearestTo n := by
  rcases Int.lt_trichotomy n 0 with negative | rfl | positive
  · have sign : (n : ℚ) < 0 := by exact_mod_cast negative
    rw [nearestInt, if_pos negative, nearestTo, if_pos sign, Int.cast_neg]
  · rw [nearestInt, if_neg (lt_irrefl _), if_pos rfl, Int.cast_zero,
      nearestTo_of_nonneg le_rfl, nearest_zero]
  · have sign : (0 : ℚ) ≤ n := by exact_mod_cast positive.le
    rw [nearestInt, if_neg positive.not_gt, if_neg positive.ne', nearestTo_of_nonneg sign]

theorem nearest_le_nearest (nonneg : 0 ≤ q) (le : q ≤ r) : nearest q ≤ nearest r := by
  rcases nonneg.lt_or_eq with positive | rfl
  · exact nearest_mono positive le
  · rw [nearest_zero]
    rcases le.lt_or_eq with positive | rfl
    · exact nearest_nonneg positive
    · exact nearest_zero.ge

/-- Rounding keeps the order, on both sides of zero. -/
theorem nearestTo_mono (le : q ≤ r) : nearestTo q ≤ nearestTo r := by
  have nonneg {p : ℚ} (sign : 0 ≤ p) : 0 ≤ nearest p :=
    nearest_zero.ge.trans (nearest_le_nearest le_rfl sign)
  rcases lt_or_ge q 0 with negative | positive
  · rw [nearestTo, if_pos negative]
    rcases lt_or_ge r 0 with negative' | positive'
    · rw [nearestTo, if_pos negative']
      exact neg_le_neg_iff.2
        (nearest_le_nearest (neg_nonneg.2 negative'.le) (neg_le_neg_iff.2 le))
    · rw [nearestTo_of_nonneg positive']
      exact (neg_nonpos.2 (nonneg (neg_nonneg.2 negative.le))).trans (nonneg positive')
  · rw [nearestTo_of_nonneg positive, nearestTo_of_nonneg (positive.trans le)]
    exact nearest_le_nearest positive le

/-- A float is the float nearest to itself. -/
theorem Denotes.nearestTo_eq (denotes : Denotes x q) : nearestTo q = q := by
  have magnitude {y : Float} {p : ℚ} (denotes : Denotes y p) (positive : 0 < p) :
      nearest p = p := by
    obtain ⟨m, e, h, parts, rfl⟩ := denotes.parts positive
    obtain ⟨digits, low, -, -⟩ := parts ▸ canonical y
    exact nearest_scaled digits low
  rcases lt_trichotomy q 0 with negative | rfl | positive
  · rw [nearestTo, if_pos negative, magnitude denotes.neg (neg_pos.2 negative), neg_neg]
  · rw [nearestTo_of_nonneg le_rfl, nearest_zero]
  · rw [nearestTo_of_nonneg positive.le, magnitude denotes positive]

theorem isFinite_neg (x : Float) : (-x).isFinite = x.isFinite := by
  change (-x).toModel.unpack.isFinite = x.toModel.unpack.isFinite
  rw [unpack_neg]
  cases x.toModel.unpack <;> rfl

end Binary64

namespace Decimal

open Binary64

variable {text ds : List Char} {x : Float}

/-! ## What is written -/

/-- A decimal number as it is written. -/
structure Written where
  negative : Bool
  /-- The digits before and after the point. -/
  digits : List Char
  /-- The number of digits after the point. -/
  places : Nat
  exponent : Int

/-- The number without its sign. -/
def Written.magnitude (w : Written) : ℚ := natOfDigits 0 w.digits * 10 ^ (w.exponent - w.places)

/-- The number that is written. -/
def Written.value (w : Written) : ℚ := if w.negative then -w.magnitude else w.magnitude

/-- The digits after a point, if there is a point, and the rest. -/
def afterPoint : List Char → List Char × List Char
  | '.' :: text => (text.takeWhile Char.isDigit, text.dropWhile Char.isDigit)
  | text => ([], text)

/-- The number that a text without a sign writes: digits with at most one point among them, at least
one digit, and an optional exponent. -/
def writtenUnsigned? (negative : Bool) (text : List Char) : Option Written :=
  let whole := text.takeWhile Char.isDigit
  let (fraction, rest) := afterPoint (text.dropWhile Char.isDigit)
  if whole.isEmpty && fraction.isEmpty then none
  else (exponent? rest).map fun e => ⟨negative, whole ++ fraction, fraction.length, e⟩

/-- The number that a text writes, with an optional sign. -/
def written? (text : List Char) : Option Written :=
  writtenUnsigned? (splitSign text).1 (splitSign text).2

/-- A number without a sign is read by its digits and its exponent. -/
theorem unsigned?_eq (negative : Bool) (text : List Char) : unsigned? text =
    (writtenUnsigned? negative text).map fun w =>
      ofScientific (natOfDigits 0 w.digits) w.digits.length (w.exponent - w.places) := by
  have same : unsigned? text =
      if (text.takeWhile Char.isDigit).isEmpty &&
        (afterPoint (text.dropWhile Char.isDigit)).1.isEmpty then none
      else (exponent? (afterPoint (text.dropWhile Char.isDigit)).2).map fun e =>
        ofScientific
          (natOfDigits 0 (text.takeWhile Char.isDigit ++
            (afterPoint (text.dropWhile Char.isDigit)).1))
          ((text.takeWhile Char.isDigit).length +
            (afterPoint (text.dropWhile Char.isDigit)).1.length)
          (e - (afterPoint (text.dropWhile Char.isDigit)).1.length) := rfl
  rw [same, writtenUnsigned?]
  dsimp only
  split
  · rfl
  · rw [Option.map_map]
    refine congrArg (fun f => Option.map f _) (funext fun e => ?_)
    rw [Function.comp, List.length_append]

theorem isDigit_of_afterPoint (text : List Char) :
    ∀ c ∈ (afterPoint text).1, c.isDigit = true := by
  unfold afterPoint
  split
  · exact fun c member => List.mem_takeWhile_imp member
  · exact fun c member => by cases member

theorem of_writtenUnsigned? {negative : Bool} {w : Written}
    (written : writtenUnsigned? negative text = some w) :
    w.negative = negative ∧ ∀ c ∈ w.digits, c.isDigit = true := by
  rw [writtenUnsigned?] at written
  dsimp only at written
  split at written
  · cases written
  · obtain ⟨e, -, rfl⟩ := Option.map_eq_some_iff.1 written
    exact ⟨rfl, List.forall_mem_append.2
      ⟨fun c member => List.mem_takeWhile_imp member, isDigit_of_afterPoint _⟩⟩

theorem natOfDigits_lt (digits : ∀ c ∈ ds, c.isDigit = true) :
    natOfDigits 0 ds < 10 ^ ds.length := by
  induction ds using List.reverseRecOn with
  | nil => exact Nat.one_pos
  | append_singleton ds c ih =>
    have before := ih fun d member => digits d (List.mem_append_left _ member)
    have last := digits c (List.mem_append_right _ (List.mem_singleton_self c))
    have nine : c.toNat - '0'.toNat ≤ 9 := by
      have zero : '0'.toNat = 48 := rfl
      simp [Char.isDigit, UInt32.le_iff_toNat_le] at last
      omega
    rw [natOfDigits, List.foldl_append, List.foldl_cons, List.foldl_nil, List.length_append,
      List.length_singleton, pow_succ]
    rw [natOfDigits] at before
    omega

/-! ## What is read -/

/-- Digits that are far behind the point are lost. -/
theorem nearest_of_short {n length : Nat} {e : Int} (few : n < 10 ^ length) (some_ : 0 < n)
    (low : length + e < -400) : nearest (n * 10 ^ e) = 0 := by
  refine nearest_eq_zero (by positivity) ?_
  have digits : (n : ℚ) ≤ 10 ^ (length : Int) := by
    rw [zpow_natCast]
    exact_mod_cast few.le
  calc (n : ℚ) * 10 ^ e ≤ 10 ^ (length : Int) * 10 ^ e :=
        mul_le_mul_of_nonneg_right digits (by positivity)
    _ = 10 ^ (length + e) := (zpow_add₀ (by norm_num) _ _).symm
    _ ≤ 2 ^ (3 * (length + e)) := ten_zpow_le (by omega)
    _ ≤ 2 ^ (-1075 : Int) := zpow_le_zpow_right₀ one_le_two (by omega)

/-- Digits under a power of ten become the float nearest to them, if it is finite. -/
theorem denotes_ofScientific {n length : Nat} {e : Int} (few : n < 10 ^ length)
    (finite : (ofScientific n length e).isFinite = true) :
    Denotes (ofScientific n length e) (nearest (n * 10 ^ e)) := by
  rw [ofScientific] at finite ⊢
  by_cases small : (n = 0 || length + e < -400) = true
  · rw [if_pos small]
    have none_ : nearest (n * 10 ^ e) = 0 := by
      rcases Nat.eq_zero_or_pos n with rfl | some_
      · rw [Nat.cast_zero, zero_mul, nearest_zero]
      · have low : length + e < -400 := by simpa [some_.ne'] using small
        exact nearest_of_short few some_ low
    rw [none_]
    exact ⟨trivial, rfl⟩
  · rw [if_neg small] at finite ⊢
    by_cases large : 400 < e
    · rw [if_pos large] at finite
      exact absurd finite (by decide +kernel)
    · rw [if_neg large] at finite ⊢
      have some_ : 0 < n := by
        refine Nat.pos_of_ne_zero fun none_ => small ?_
        simp [none_]
      have denotes := Binary64.denotes_ofScientific some_ (decide (e < 0)) e.natAbs finite
      have exponent : (if decide (e < 0) then -(e.natAbs : Int) else e.natAbs) = e := by
        simp only [decide_eq_true_iff]
        split <;> omega
      rwa [exponent] at denotes

/-- A finite float that is read is the one nearest to what is written. -/
theorem denotes_read? (given : read? text = some x) (finite : x.isFinite = true) :
    ∃ w, written? text = some w ∧ Denotes x (nearestTo w.value) := by
  rw [read?] at given
  dsimp only at given
  obtain ⟨magnitude, found, rfl⟩ := Option.map_eq_some_iff.1 given
  have finite' : magnitude.isFinite = true := by
    split at finite
    · rwa [isFinite_neg] at finite
    · exact finite
  have unsigned : unsigned? (splitSign text).2 = some magnitude := by
    split at found
    · cases found
      exact absurd finite' (by decide +kernel)
    · cases found
      exact absurd finite' (by decide +kernel)
    · cases found
      exact absurd finite' (by decide +kernel)
    · exact found
  rw [unsigned?_eq (splitSign text).1] at unsigned
  obtain ⟨w, written, rfl⟩ := Option.map_eq_some_iff.1 unsigned
  obtain ⟨sign, digits⟩ := of_writtenUnsigned? written
  have denotes := denotes_ofScientific (natOfDigits_lt digits) finite'
  have nonneg : 0 ≤ w.magnitude := by
    rw [Written.magnitude]
    positivity
  refine ⟨w, written, ?_⟩
  rw [← sign, Written.value]
  split
  · rw [nearestTo_neg nonneg]
    exact denotes.neg
  · rw [nearestTo_of_nonneg nonneg]
    exact denotes

end Decimal

end Metering
