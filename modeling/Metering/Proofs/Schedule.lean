import Metering.Controller
import Metering.Proofs.Binary64.Arithmetic

/-!
# Periods in seconds

A period that is given in seconds becomes the nearest number of nanoseconds. What is not a positive
number is refused, and all else is taken, so a period is neither refused nor of use to a controller
in two cases: up to half a nanosecond it becomes an empty duration, and from `2 ^ 64` seconds on
there is no duration for it (`refused_or_usable_iff`).
-/

namespace Metering

open Binary64

variable {x : Float} {p q y : ℚ}

/-! ## Nanoseconds -/

/-- A fraction is rounded to the integer nearest to it. -/
theorem Decimal.roundHalfEven_eq (n : Nat) {d : Nat} (some_ : 0 < d) :
    (Decimal.roundHalfEven n d : Int) = halfEven (n / d) := by
  have divisor : (0 : ℚ) < d := by exact_mod_cast some_
  have floor : ⌊(n : ℚ) / d⌋ = (n / d : Nat) := Rat.floor_natCast_div_natCast n d
  have fraction : Int.fract ((n : ℚ) / d) = (n % d : Nat) / d :=
    Int.fract_div_natCast_eq_div_natCast_mod
  have below : ((n % d : Nat) : ℚ) / d < 1 / 2 ↔ 2 * (n % d) < d := by
    rw [div_lt_div_iff₀ divisor two_pos, one_mul, mul_comm]
    exact_mod_cast Iff.rfl
  have half : ((n % d : Nat) : ℚ) / d = 1 / 2 ↔ 2 * (n % d) = d := by
    rw [div_eq_div_iff divisor.ne' two_ne_zero, one_mul, mul_comm]
    exact_mod_cast Iff.rfl
  simp only [halfEven, floor, fraction, below, half, roundHalfEven]
  split_ifs <;> omega

/-- A float below `2 ^ 64` is below it by more than nanoseconds: it has 53 digits only. -/
theorem Binary64.Denotes.le_of_lt_limit (denotes : Denotes x q) (positive : 0 < q)
    (small : q < 2 ^ 64) : q ≤ 2 ^ 64 - 1 := by
  obtain ⟨m, e, h, parts, rfl⟩ := denotes.parts positive
  have held := canonical x
  rw [parts] at held
  obtain ⟨digits, -, -, normal⟩ := held
  have low : e ≤ 11 := by
    rw [← Int.not_lt]
    intro high
    have many : (2 : ℚ) ^ 52 ≤ m := by
      have many : 2 ^ 52 ≤ m := normal.resolve_right (by omega)
      exact_mod_cast many
    have scale : (2 : ℚ) ^ (12 : Int) ≤ 2 ^ e := zpow_le_zpow_right₀ one_le_two high
    have large : (2 : ℚ) ^ 64 ≤ m * 2 ^ e :=
      calc (2 : ℚ) ^ 64 = (2 : ℚ) ^ 52 * 2 ^ (12 : Int) := by norm_num
        _ ≤ (m : ℚ) * 2 ^ e := mul_le_mul many scale (by positivity) (by positivity)
    exact small.not_ge large
  have few : (m : ℚ) ≤ 2 ^ 53 - 1 := by
    have few : m + 1 ≤ 2 ^ 53 := digits
    have : (m : ℚ) + 1 ≤ 2 ^ 53 := by exact_mod_cast few
    linarith
  calc (m : ℚ) * 2 ^ e ≤ (2 ^ 53 - 1) * 2 ^ (11 : Int) :=
        mul_le_mul few (zpow_le_zpow_right₀ one_le_two low) (by positivity) (by norm_num)
    _ ≤ 2 ^ 64 - 1 := by norm_num

namespace Duration

theorem ofNanoseconds?_eq_none_iff (n : Nat) :
    ofNanoseconds? n = none ↔ 2 ^ 64 * 10 ^ 9 ≤ n := by
  have limit : secondsLimit * second = 2 ^ 64 * 10 ^ 9 := rfl
  rw [ofNanoseconds?, limit]
  split
  · exact iff_of_false (by simp) (by omega)
  · exact iff_of_true rfl (by omega)

/-- A positive number of seconds is taken as the nearest number of nanoseconds. -/
theorem ofSeconds?_of_pos (denotes : Denotes x q) (positive : 0 < q) :
    ofSeconds? x = ofNanoseconds? (halfEven (q * 10 ^ 9)).toNat := by
  obtain ⟨m, e, h, parts, rfl⟩ := denotes.parts positive
  have scaled : ((m * second * Nat.pow 2 e.toNat : Nat) : ℚ) / (Nat.pow 2 (-e).toNat : Nat) =
      m * 2 ^ e * 10 ^ 9 := by
    have power : (2 : ℚ) ^ e.toNat / 2 ^ (-e).toNat = 2 ^ e := by
      rw [← zpow_natCast, ← zpow_natCast, ← zpow_sub₀ two_ne_zero]
      congr 1
      omega
    have units : (second : ℚ) = 10 ^ 9 := by norm_num [second]
    rw [Nat.cast_mul, Nat.cast_mul, units, Nat.pow_eq, Nat.pow_eq, Nat.cast_pow, Nat.cast_pow,
      Nat.cast_ofNat, mul_div_assoc, power]
    ring
  have rounded := Decimal.roundHalfEven_eq (m * second * Nat.pow 2 e.toNat)
    (d := Nat.pow 2 (-e).toNat) (Nat.two_pow_pos _)
  rw [scaled] at rounded
  rw [ofSeconds?, parts, ← rounded, Int.toNat_natCast]

/-- There is no duration for a positive number of seconds just if it is too large. -/
theorem ofSeconds?_eq_none_iff (denotes : Denotes x q) (positive : 0 < q) :
    ofSeconds? x = none ↔ 2 ^ 64 ≤ q := by
  have nonneg : 0 ≤ halfEven (q * 10 ^ 9) := halfEven_nonneg (by positivity)
  rw [ofSeconds?_of_pos denotes positive, ofNanoseconds?_eq_none_iff]
  constructor
  · intro long
    rw [← not_lt]
    intro small
    have below : q * 10 ^ 9 ≤ ((2 ^ 64 * 10 ^ 9 - 10 ^ 9 : Int) : ℚ) := by
      have room := denotes.le_of_lt_limit positive small
      push_cast
      linarith
    have rounded := halfEven_mono below
    rw [halfEven_intCast] at rounded
    omega
  · intro large
    have above : ((2 ^ 64 * 10 ^ 9 : Int) : ℚ) ≤ q * 10 ^ 9 := by
      push_cast
      linarith
    have rounded := halfEven_mono above
    rw [halfEven_intCast] at rounded
    omega

end Duration

/-! ## Periods -/

namespace Schedule

/-- The timeout for which nothing is given is not empty, so it depends on the period alone whether
such a schedule is valid. -/
theorem validate_every (d : Duration) :
    (every d).validate = if d.isZero then .error .zeroPeriod else .ok () := by
  have timeout : (every d).timeout.isZero = false := rfl
  rw [validate, timeout]
  rfl

/-- A period that controllers take. -/
def Reading.Usable (r : Reading) : Prop :=
  ∃ s, r = .schedule s ∧ s.validate = .ok () ∧
    ∀ {ε : Type} (meter : String) (mode : Processor.Mode) (exporter : ε),
      ∃ c, Controller.make meter mode exporter s = .ok c

theorem usable_schedule_iff {s : Schedule} :
    (Reading.schedule s).Usable ↔ s.validate = .ok () := by
  constructor
  · rintro ⟨_, same, valid, -⟩
    cases same
    exact valid
  · intro valid
    exact ⟨s, rfl, valid, fun meter mode exporter => ⟨_, by rw [Controller.make, valid]⟩⟩

theorem ofPeriod_of_not_pos (bad : x.isFinite = false ∨ value x ≤ 0) :
    ofPeriod x = .refused (.periodNotPositive x) := by
  have zero : Denotes 0.0 0 := ⟨trivial, rfl⟩
  rw [ofPeriod, if_pos]
  rw [Bool.or_eq_true, Bool.not_eq_true', decide_eq_true_iff]
  cases finite : x.isFinite with
  | false => exact .inl rfl
  | true =>
    rw [finite] at bad
    exact .inr (((denotes_of_isFinite finite).le_iff zero).2 (bad.resolve_left nofun))

/-- What becomes of a period that is a positive number. -/
theorem ofPeriod_of_pos (finite : x.isFinite = true) (positive : 0 < value x) :
    ofPeriod x = if 2 ^ 64 ≤ value x then .unrepresentable
      else .schedule (every ⟨(halfEven (value x * 10 ^ 9)).toNat⟩) := by
  have denotes := denotes_of_isFinite finite
  have zero : Denotes 0.0 0 := ⟨trivial, rfl⟩
  have above : ¬ x ≤ 0.0 := by
    rw [denotes.le_iff zero, not_le]
    exact positive
  rw [ofPeriod, finite, Bool.not_true, Bool.false_or, decide_eq_false above,
    if_neg Bool.false_ne_true]
  by_cases large : 2 ^ 64 ≤ value x
  · rw [(Duration.ofSeconds?_eq_none_iff denotes positive).2 large, if_pos large]
  · have some_ := mt (Duration.ofSeconds?_eq_none_iff denotes positive).1 large
    rw [Duration.ofSeconds?_of_pos denotes positive, Duration.ofNanoseconds?] at some_ ⊢
    split at some_
    · rename_i fits
      rw [if_pos fits, if_neg large]
    · exact absurd rfl some_

/-- A positive period that is not too large becomes the nearest number of nanoseconds, and this is
none just up to half a nanosecond. -/
theorem validate_nanoseconds (positive : 0 < q) :
    (every ⟨(halfEven (q * 10 ^ 9)).toNat⟩).validate =
      if q ≤ 1 / (2 * 10 ^ 9) then .error .zeroPeriod else .ok () := by
  have nonneg : 0 ≤ q * 10 ^ 9 := by positivity
  have rounded := halfEven_nonneg nonneg
  have small : q * 10 ^ 9 ≤ 1 / 2 ↔ q ≤ 1 / (2 * 10 ^ 9) := by
    rw [le_div_iff₀ (by norm_num), le_div_iff₀ (by norm_num), mul_assoc, mul_comm (10 ^ 9 : ℚ)]
  have nothing : (Duration.mk (halfEven (q * 10 ^ 9)).toNat).isZero = true ↔
      q ≤ 1 / (2 * 10 ^ 9) := by
    rw [Duration.isZero, decide_eq_true_iff, ← small, ← halfEven_eq_zero_iff nonneg]
    dsimp only
    omega
  rw [validate_every]
  simp only [nothing]

/-- A period in seconds is refused, or becomes a schedule that controllers take, unless it is
positive but at most half a nanosecond, or at least `2 ^ 64` seconds. It is refused just if it is not
a positive number. A schedule has the period rounded to the nearest nanosecond, and validation
refuses it just if nothing is left of the period; and from `2 ^ 64` seconds on there is no answer. -/
theorem refused_or_usable_iff (x : Float) :
    ((ofPeriod x = .refused (.periodNotPositive x) ∨ (ofPeriod x).Usable) ↔
      ¬ (x.isFinite = true ∧ (0 < value x ∧ value x ≤ 1 / (2 * 10 ^ 9) ∨ 2 ^ 64 ≤ value x))) ∧
    ((∃ fault, ofPeriod x = .refused fault) ↔ x.isFinite = false ∨ value x ≤ 0) ∧
    (∀ s, ofPeriod x = .schedule s →
      s.period.nanoseconds = halfEven (value x * 10 ^ 9) ∧ s.timeout = .ofSeconds 30 ∧
        s.validate = if value x ≤ 1 / (2 * 10 ^ 9) then .error .zeroPeriod else .ok ()) ∧
    (ofPeriod x = .unrepresentable ↔ x.isFinite = true ∧ 2 ^ 64 ≤ value x) := by
  by_cases bad : x.isFinite = false ∨ value x ≤ 0
  · have good : ¬ (x.isFinite = true ∧ 0 < value x) := by
      rintro ⟨finite, positive⟩
      rcases bad with infinite | nonpos
      · exact Bool.false_ne_true (infinite.symm.trans finite)
      · exact nonpos.not_gt positive
    have large : 2 ^ 64 ≤ value x → 0 < value x := lt_of_lt_of_le (by norm_num)
    rw [ofPeriod_of_not_pos bad]
    refine ⟨iff_of_true (.inl rfl) ?_, iff_of_true ⟨_, rfl⟩ bad, nofun, iff_of_false nofun ?_⟩
    · rintro ⟨finite, ⟨positive, -⟩ | huge⟩
      · exact good ⟨finite, positive⟩
      · exact good ⟨finite, large huge⟩
    · exact fun ⟨finite, huge⟩ => good ⟨finite, large huge⟩
  · obtain ⟨finite, positive⟩ := not_or.1 bad
    rw [Bool.not_eq_false] at finite
    rw [not_le] at positive
    rw [ofPeriod_of_pos finite positive]
    by_cases large : 2 ^ 64 ≤ value x
    · rw [if_pos large]
      refine ⟨iff_of_false ?_ (not_not.2 ⟨finite, .inr large⟩), iff_of_false nofun bad, nofun,
        iff_of_true rfl ⟨finite, large⟩⟩
      rintro (refused | ⟨s, schedule, -⟩)
      · cases refused
      · cases schedule
    · have nonneg : 0 ≤ value x * 10 ^ 9 := by positivity
      rw [if_neg large, usable_schedule_iff, validate_nanoseconds positive]
      refine ⟨?_, iff_of_false nofun bad, fun s same => ?_, iff_of_false nofun (large ·.2)⟩
      · have usable : (if value x ≤ 1 / (2 * 10 ^ 9) then .error .zeroPeriod
            else .ok () : Except ScheduleFault Unit) = .ok () ↔ ¬ value x ≤ 1 / (2 * 10 ^ 9) := by
          split
          · rename_i tiny
            exact iff_of_false nofun (not_not.2 tiny)
          · rename_i ordinary
            exact iff_of_true rfl ordinary
        rw [usable]
        simp [finite, positive, large]
      · cases same
        exact ⟨Int.toNat_of_nonneg (halfEven_nonneg nonneg), rfl, validate_nanoseconds positive⟩

/-- A period of which no nanosecond is left becomes a schedule that validation refuses, and for one
of more seconds than a duration can have there is no answer at all. -/
theorem period_neither_refused_nor_usable :
    (ofPeriod 4e-10 = .schedule (every ⟨0⟩) ∧ (every ⟨0⟩).validate = .error .zeroPeriod) ∧
      ofPeriod 1e20 = .unrepresentable ∧
        ∀ x ∈ [4e-10, 1e20], ¬ ((∃ fault, ofPeriod x = .refused fault) ∨ (ofPeriod x).Usable) := by
  have tiny : ofPeriod 4e-10 = .schedule (every ⟨0⟩) := by decide +kernel
  have huge : ofPeriod 1e20 = .unrepresentable := by decide +kernel
  have nothing : (every ⟨0⟩).validate = .error .zeroPeriod := rfl
  refine ⟨⟨tiny, nothing⟩, huge, List.forall_mem_cons.2 ⟨?_, List.forall_mem_singleton.2 ?_⟩⟩
  · rw [tiny, usable_schedule_iff, nothing]
    rintro (⟨fault, refused⟩ | valid)
    · cases refused
    · cases valid
  · rw [huge]
    rintro (⟨fault, refused⟩ | ⟨s, schedule, -⟩)
    · cases refused
    · cases schedule

end Schedule

end Metering
