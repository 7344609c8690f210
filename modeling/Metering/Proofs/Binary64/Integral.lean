import Metering.Proofs.Binary64.Quotient

/-!
# Floats that are integers

Whether a float is an integer can be told from its parts, and the passage to 64 bits cuts off the
fraction. So an integer that is a float passes as it is, if 64 bits hold it (`toInt64_of_denotes`).
-/

namespace Metering.Binary64

open Float.Model Float.Model.UnpackedFloat

variable {x : Float} {q : ℚ} {m : Nat} {e : Int}

/-- The fraction of a significand is cut off. -/
theorem roundToInt_eq (s : Sign) (m : Nat) (e : Int) :
    roundToInt s m e = s.apply ⌊(m : ℚ) * 2 ^ e⌋ := by
  have held := (represents_exact (m <<< (e - 0).toNat)).shiftRight
    (0 - (e - ((e - 0).toNat : Int))).toNat
  have scaled : ((m <<< (e - 0).toNat : Nat) : ℚ) / 2 ^ (0 - (e - ((e - 0).toNat : Int))).toNat =
      m * 2 ^ e := by
    rw [Nat.shiftLeft_eq, Nat.cast_mul, Nat.cast_pow, Nat.cast_ofNat, mul_div_assoc,
      ← zpow_natCast, ← zpow_natCast, ← zpow_sub₀ two_ne_zero]
    congr 2
    omega
  rw [scaled] at held
  rw [held.floor]
  rfl

/-- A finite float is a zero, or has a sign, a significand and an exponent. -/
theorem Denotes.unpack_cases (denotes : Denotes x q) :
    (∃ s, x.toModel.unpack = .zero s ∧ q = 0) ∨
      ∃ s m e h, x.toModel.unpack = .finite s m e h ∧ q = (s.apply m : Int) * 2 ^ e := by
  obtain ⟨finite, rfl⟩ := denotes
  cases parts : x.toModel.unpack with
  | infinity s =>
    rw [parts] at finite
    cases finite
  | notANumber =>
    rw [parts] at finite
    cases finite
  | zero s => exact .inl ⟨s, rfl, rfl⟩
  | finite s m e h => exact .inr ⟨s, m, e, h, rfl, rfl⟩

theorem isIntegral_iff (denotes : Denotes x q) : isIntegral x = true ↔ ∃ n : Int, q = n := by
  rcases denotes.unpack_cases with ⟨s, parts, rfl⟩ | ⟨s, m, e, h, parts, rfl⟩
  · rw [isIntegral, parts]
    exact iff_of_true rfl ⟨0, Int.cast_zero.symm⟩
  rw [isIntegral, parts]
  cases e with
  | ofNat k =>
    refine iff_of_true rfl ⟨s.apply m * 2 ^ k, ?_⟩
    rw [Int.ofNat_eq_natCast, zpow_natCast]
    push_cast
    rfl
  | negSucc k =>
    have divides : m % 2 ^ (k + 1) = 0 ↔ ((2 ^ (k + 1) : Nat) : Int) ∣ s.apply m := by
      rw [← Nat.dvd_iff_mod_eq_zero]
      cases s with
      | positive => exact Int.natCast_dvd_natCast.symm
      | negative => exact Int.natCast_dvd_natCast.symm.trans Int.dvd_neg.symm
    have quotient (n : Int) : ((s.apply m : Int) : ℚ) * 2 ^ Int.negSucc k = n ↔
        s.apply m = ((2 ^ (k + 1) : Nat) : Int) * n := by
      rw [zpow_negSucc, ← div_eq_mul_inv, div_eq_iff (by positivity), mul_comm]
      exact_mod_cast Iff.rfl
    change decide (m % 2 ^ (k + 1) = 0) = true ↔ ∃ n : Int, (s.apply m : ℚ) * 2 ^ _ = n
    rw [decide_eq_true_iff, divides]
    exact exists_congr fun n => (quotient n).symm

theorem toInt64_of_denotes {n : Int} (denotes : Denotes x n) : toInt64 x = Int64.ofIntClamp n := by
  change Int64.ofIntClamp (toInt _ _ x.toModel.unpack) = _
  congr 1
  rcases denotes.unpack_cases with ⟨s, parts, zero⟩ | ⟨s, m, e, h, parts, value⟩
  · rw [parts]
    exact (Int.cast_eq_zero.1 zero).symm
  · rw [parts]
    change roundToInt s m e = n
    rw [roundToInt_eq]
    cases s with
    | positive =>
      have same : (m : ℚ) * 2 ^ e = n := value.symm
      rw [same, Int.floor_intCast]
      rfl
    | negative =>
      have opposite : (m : ℚ) * 2 ^ e = (-n : Int) := by
        rw [Int.cast_neg, value]
        change (m : ℚ) * 2 ^ e = -(((-m : Int) : ℚ) * 2 ^ e)
        push_cast
        ring
      rw [opposite, Int.floor_intCast]
      exact neg_neg n

end Metering.Binary64
