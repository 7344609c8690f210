import Mathlib.Algebra.GroupWithZero.Nat
import Mathlib.Algebra.Order.BigOperators.Group.List
import Mathlib.Algebra.Order.Group.Int
import Mathlib.Algebra.Ring.Int.Defs
import Metering.Number
import Metering.Proofs.Binary64

/-!
# Sums of numbers

Integers add up exactly as long as the sum of their magnitudes stays within the range; integers that
are not negative add up to their sum or to the limit of the range, in whatever portions they are
added.
-/

namespace Metering.Number

/-- The integer that a number is; floats are none. -/
def amount : Number → Int
  | integer v => v.toInt
  | float _ => 0

/-- The largest amount. -/
def limit : Int := Int64.maxValue.toInt

theorem limit_pos : 0 < limit := by decide

theorem amount_le_limit (n : Number) : n.amount ≤ limit := by
  cases n with
  | integer v => exact v.toInt_le
  | float x => exact Int.le_of_lt limit_pos

/-- A number is finite exactly if it is as a float. -/
theorem toFloat_isFinite (n : Number) : n.toFloat.isFinite = n.isFinite := by
  cases n with
  | integer v => exact Binary64.isFinite_ofInt64 v
  | float x => rfl

theorem isFinite_toFloat {n : Number} (finite : n.isFinite = true) : n.toFloat.isFinite = true :=
  (toFloat_isFinite n).trans finite

theorem isFinite_of_integer {n : Number} (integer_ : n.kind = .int64) : n.isFinite = true := by
  cases n with
  | integer v => rfl
  | float x => cases integer_

theorem kind_zero (kind : NumberKind) : (zero kind).kind = kind := by
  cases kind <;> rfl

theorem kind_add {a b : Number} (same : b.kind = a.kind) : (a.add b).kind = a.kind := by
  cases a <;> cases b <;> first | rfl | cases same

theorem toInt_ofIntClamp (x : Int) :
    (Int64.ofIntClamp x).toInt = Max.max (-limit - 1) (Min.min limit x) := by
  have high : Int64.maxValue.toInt = limit := rfl
  have low : Int64.minValue.toInt = -limit - 1 := rfl
  have := limit_pos
  unfold Int64.ofIntClamp
  split
  · split
    · rename_i above below
      rw [Int64.toInt_ofIntLE]
      omega
    · omega
  · omega

theorem amount_add {a b : Number} (left : a.kind = .int64) (right : b.kind = .int64) :
    (a.add b).amount = Max.max (-limit - 1) (Min.min limit (a.amount + b.amount)) := by
  cases a with
  | float x => cases left
  | integer v =>
    cases b with
    | float y => cases right
    | integer w => exact toInt_ofIntClamp _

/-! ## Nothing measured -/

theorem add_zero {n : Number} (integer_ : n.kind = .int64) : n.add (zero .int64) = n := by
  cases n with
  | float x => cases integer_
  | integer v =>
    change integer (Int64.ofIntClamp (v.toInt + 0)) = integer v
    rw [Int.add_zero, Int64.ofIntClamp_toInt]

theorem min_greatest {n : Number} (integer_ : n.kind = .int64) : n.min (greatest .int64) = n := by
  cases n with
  | float x => cases integer_
  | integer v =>
    refine if_neg fun above => ?_
    have order : compare v.toInt Int64.maxValue.toInt = .gt := Option.some.inj above
    have := Int.compare_eq_gt.1 order
    have := v.toInt_le
    omega

theorem max_least {n : Number} (integer_ : n.kind = .int64) : n.max (least .int64) = n := by
  cases n with
  | float x => cases integer_
  | integer v =>
    refine if_neg fun below => ?_
    have order : compare v.toInt Int64.minValue.toInt = .lt := Option.some.inj below
    have := Int.compare_eq_lt.1 order
    have := v.minValue_le_toInt
    omega

theorem kind_min {a b : Number} {kind : NumberKind} (left : a.kind = kind) (right : b.kind = kind) :
    (a.min b).kind = kind := by
  unfold min
  split <;> assumption

theorem kind_max {a b : Number} {kind : NumberKind} (left : a.kind = kind) (right : b.kind = kind) :
    (a.max b).kind = kind := by
  unfold max
  split <;> assumption

/-! ## Sums of many numbers -/

/-- The sum of the magnitudes of some numbers. -/
def magnitude (ns : List Number) : Int := (ns.map fun n => (n.amount.natAbs : Int)).sum

/-- The exact sum of some integers. -/
def exactSum (ns : List Number) : Int := (ns.map amount).sum

theorem magnitude_nonneg (ns : List Number) : 0 ≤ magnitude ns := by
  refine List.sum_nonneg fun x member => ?_
  obtain ⟨n, -, rfl⟩ := List.mem_map.1 member
  exact Int.natCast_nonneg _

theorem exactSum_nonneg {ns : List Number} (signs : ∀ n ∈ ns, 0 ≤ n.amount) : 0 ≤ exactSum ns := by
  refine List.sum_nonneg fun x member => ?_
  obtain ⟨n, summand, rfl⟩ := List.mem_map.1 member
  exact signs n summand

theorem magnitude_append (ns ms : List Number) :
    magnitude (ns ++ ms) = magnitude ns + magnitude ms := by
  rw [magnitude, List.map_append, List.sum_append]
  rfl

theorem exactSum_append (ns ms : List Number) : exactSum (ns ++ ms) = exactSum ns + exactSum ms := by
  rw [exactSum, List.map_append, List.sum_append]
  rfl

theorem magnitude_perm {ns ms : List Number} (perm : ns.Perm ms) : magnitude ns = magnitude ms :=
  (perm.map _).sum_eq

theorem exactSum_perm {ns ms : List Number} (perm : ns.Perm ms) : exactSum ns = exactSum ms :=
  (perm.map _).sum_eq

/-- The sum of some integers is no further from zero than their magnitudes together. -/
theorem natAbs_exactSum_le (ns : List Number) : ((exactSum ns).natAbs : Int) ≤ magnitude ns := by
  induction ns with
  | nil => exact Int.le_refl _
  | cons n rest ih =>
    have total : magnitude (n :: rest) = n.amount.natAbs + magnitude rest := rfl
    have exact_ : exactSum (n :: rest) = n.amount + exactSum rest := rfl
    rw [total, exact_]
    omega

theorem kind_foldl_add {kind : NumberKind} {ns : List Number} (kinds : ∀ n ∈ ns, n.kind = kind) :
    ∀ {a : Number}, a.kind = kind → (ns.foldl add a).kind = kind := by
  induction ns with
  | nil => exact fun start => start
  | cons n rest ih =>
    intro a start
    have here : n.kind = a.kind := (kinds n List.mem_cons_self).trans start.symm
    exact ih (fun m member => kinds m (List.mem_cons_of_mem _ member)) ((kind_add here).trans start)

/-- While the magnitudes stay within the range, nothing is cut off. -/
theorem amount_foldl_add {ns : List Number} (kinds : ∀ n ∈ ns, n.kind = .int64) :
    ∀ {a : Number}, a.kind = .int64 → a.amount.natAbs + magnitude ns ≤ limit →
      (ns.foldl add a).amount = a.amount + exactSum ns := by
  induction ns with
  | nil => exact fun _ _ => (Int.add_zero _).symm
  | cons n rest ih =>
    intro a start bound
    have here : n.kind = a.kind := (kinds n List.mem_cons_self).trans start.symm
    have sum := amount_add start (here.trans start)
    have total : magnitude (n :: rest) = n.amount.natAbs + magnitude rest := rfl
    have exact_ : exactSum (n :: rest) = n.amount + exactSum rest := rfl
    have := magnitude_nonneg rest
    have within : (a.add n).amount = a.amount + n.amount := by omega
    have others := ih (fun m member => kinds m (List.mem_cons_of_mem _ member))
      ((kind_add here).trans start) (by omega)
    rw [List.foldl_cons, others, within, exact_]
    omega

/-- Integers that are not negative add up to their sum, or to the limit. -/
theorem amount_foldl_add_of_nonneg {ns : List Number} (kinds : ∀ n ∈ ns, n.kind = .int64)
    (signs : ∀ n ∈ ns, 0 ≤ n.amount) :
    ∀ {a : Number}, a.kind = .int64 → 0 ≤ a.amount →
      (ns.foldl add a).amount = Min.min limit (a.amount + exactSum ns) := by
  induction ns with
  | nil =>
    intro a _ _
    have top := a.amount_le_limit
    change a.amount = Min.min limit (a.amount + 0)
    omega
  | cons n rest ih =>
    intro a start sign
    have here : n.kind = a.kind := (kinds n List.mem_cons_self).trans start.symm
    have sum := amount_add start (here.trans start)
    have exact_ : exactSum (n :: rest) = n.amount + exactSum rest := rfl
    have positive := signs n List.mem_cons_self
    have := limit_pos
    have others := ih (fun m member => kinds m (List.mem_cons_of_mem _ member))
      (fun m member => signs m (List.mem_cons_of_mem _ member)) ((kind_add here).trans start)
      (by omega)
    have := exactSum_nonneg fun m member => signs m (List.mem_cons_of_mem _ member)
    rw [List.foldl_cons, others, exact_]
    omega

end Metering.Number
