import Mathlib.Data.List.Sort
import Metering.Proofs.Aggregate.Ranks
import Metering.Proofs.Binary64.Arithmetic
import Metering.Proofs.Number

/-!
# The order of numbers

Numbers of one kind compare as the rationals and infinities that they stand for (`place`), and what
is no number compares with nothing. Becoming floats they may become equal, but never change their
order. A ranking of some numbers lists them from the least to the greatest.
-/

namespace Metering.Number

open Binary64 (IsRational)

variable {a b v low high low' high' : Number} {vs ws ranked : List Number} {kind : NumberKind}
  {x y : Float}

/-- Where a number stands among the rationals and the infinities. -/
def place : Number → WithBot (WithTop ℚ)
  | integer v => ((v.toInt : ℚ) : WithTop ℚ)
  | float x => Binary64.place x

/-- Numbers of one kind, none of which is a float that is not a number. -/
def Numeric (kind : NumberKind) (vs : List Number) : Prop :=
  ∀ v ∈ vs, v.kind = kind ∧ v.toFloat.isNaN = false

theorem Numeric.append (numeric : Numeric kind vs) (numeric' : Numeric kind ws) :
    Numeric kind (vs ++ ws) := by
  intro v member
  rcases List.mem_append.1 member with first | second
  · exact numeric v first
  · exact numeric' v second

theorem compareFloats?_eq (number : x.isNaN = false) (number' : y.isNaN = false) :
    compareFloats? x y = some (compare (Binary64.place x) (Binary64.place y)) := by
  unfold compareFloats?
  rcases lt_trichotomy (Binary64.place x) (Binary64.place y) with less | same | greater
  · rw [if_pos (Binary64.lt_iff.2 ⟨number, number', less⟩), compare_lt_iff_lt.2 less]
  · have not_ : ¬ x < y := fun below => (Binary64.lt_iff.1 below).2.2.ne same
    rw [if_neg not_, if_pos (Binary64.beq_iff.2 ⟨number, number', same⟩), compare_eq_iff_eq.2 same]
  · have not_ : ¬ x < y := fun below => (Binary64.lt_iff.1 below).2.2.not_gt greater
    have not_' : ¬ (x == y) = true := fun equal => (Binary64.beq_iff.1 equal).2.2.not_gt greater
    rw [if_neg not_, if_neg not_', if_pos (Binary64.lt_iff.2 ⟨number', number, greater⟩),
      compare_gt_iff_gt.2 greater]

theorem compare_intCast (m n : Int) : compare (m : ℚ) (n : ℚ) = compare m n := by
  rw [← cmp_eq_compare, ← cmp_eq_compare]
  exact Int.cast_strictMono.cmp_map_eq m n

/-- Numbers of one kind compare as their places. -/
theorem compare?_eq (same : a.kind = b.kind) (number : a.toFloat.isNaN = false)
    (number' : b.toFloat.isNaN = false) : a.compare? b = some (compare a.place b.place) := by
  cases a with
  | integer v =>
    cases b with
    | integer w =>
      rw [place, place, Binary64.compare_coe, compare_intCast]
      rfl
    | float y => cases same
  | float x =>
    cases b with
    | integer w => cases same
    | float y => exact compareFloats?_eq number number'

/-- Numbers of one kind keep their order when they become floats. -/
theorem toFloat_mono (same : a.kind = b.kind) (number : a.toFloat.isNaN = false)
    (number' : b.toFloat.isNaN = false) (le : a.place ≤ b.place) : a.toFloat ≤ b.toFloat := by
  cases a with
  | integer v =>
    cases b with
    | integer w =>
      refine Binary64.ofInt64_mono ?_
      have le' : (v.toInt : ℚ) ≤ w.toInt := WithTop.coe_le_coe.1 (WithBot.coe_le_coe.1 le)
      exact_mod_cast le'
    | float y => cases same
  | float x =>
    cases b with
    | integer w => cases same
    | float y => exact Binary64.le_iff.2 ⟨number, number', le⟩

/-! ## Bounds -/

theorem place_min (same : a.kind = b.kind) (number : a.toFloat.isNaN = false)
    (number' : b.toFloat.isNaN = false) : (a.min b).place = Min.min a.place b.place := by
  rw [min, compare?_eq same number number']
  split
  · rename_i above
    have greater := compare_gt_iff_gt.1 (Option.some.inj above)
    exact (min_eq_right greater.le).symm
  · rename_i within
    rw [Option.some.injEq, compare_gt_iff_gt] at within
    exact (min_eq_left (not_lt.1 within)).symm

theorem place_max (same : a.kind = b.kind) (number : a.toFloat.isNaN = false)
    (number' : b.toFloat.isNaN = false) : (a.max b).place = Max.max a.place b.place := by
  rw [max, compare?_eq same number number']
  split
  · rename_i below
    have less := compare_lt_iff_lt.1 (Option.some.inj below)
    exact (max_eq_right less.le).symm
  · rename_i within
    rw [Option.some.injEq, compare_lt_iff_lt] at within
    exact (max_eq_left (not_lt.1 within)).symm

theorem number_greatest (kind : NumberKind) :
    (greatest kind).kind = kind ∧ (greatest kind).toFloat.isNaN = false := by
  cases kind <;> decide +kernel

theorem number_least (kind : NumberKind) :
    (least kind).kind = kind ∧ (least kind).toFloat.isNaN = false := by
  cases kind <;> decide +kernel

/-- The bounds of some numbers. Those of none are the numbers from which a minimum and a maximum
start. -/
structure Spans (kind : NumberKind) (low high : Number) (vs : List Number) : Prop where
  lowest : low ∈ greatest kind :: vs
  highest : high ∈ least kind :: vs
  within : ∀ v ∈ vs, low.place ≤ v.place ∧ v.place ≤ high.place

theorem spans_nil (kind : NumberKind) : Spans kind (greatest kind) (least kind) [] :=
  ⟨List.mem_cons_self, List.mem_cons_self, fun _ none_ => nomatch none_⟩

theorem spans_singleton (v : Number) : Spans kind v v [v] := by
  refine ⟨List.mem_cons_of_mem _ (List.mem_singleton_self v),
    List.mem_cons_of_mem _ (List.mem_singleton_self v), fun w member => ?_⟩
  rw [List.mem_singleton.1 member]
  exact ⟨le_rfl, le_rfl⟩

theorem Spans.numbers (spans : Spans kind low high vs) (numeric : Numeric kind vs) :
    (low.kind = kind ∧ low.toFloat.isNaN = false) ∧ high.kind = kind ∧
      high.toFloat.isNaN = false := by
  constructor
  · rcases List.mem_cons.1 spans.lowest with rfl | member
    · exact number_greatest kind
    · exact numeric low member
  · rcases List.mem_cons.1 spans.highest with rfl | member
    · exact number_least kind
    · exact numeric high member

/-- The smaller and the larger of the bounds of two parts are the bounds of both. -/
theorem Spans.append (spans : Spans kind low high vs) (spans' : Spans kind low' high' ws)
    (numeric : Numeric kind vs) (numeric' : Numeric kind ws) :
    Spans kind (low.min low') (high.max high') (vs ++ ws) := by
  obtain ⟨⟨lowKind, lowNumber⟩, highKind, highNumber⟩ := spans.numbers numeric
  obtain ⟨⟨lowKind', lowNumber'⟩, highKind', highNumber'⟩ := spans'.numbers numeric'
  refine ⟨?_, ?_, fun v member => ?_⟩
  · have left : low ∈ greatest kind :: (vs ++ ws) :=
      List.cons_subset_cons _ (List.subset_append_left vs ws) spans.lowest
    have right : low' ∈ greatest kind :: (vs ++ ws) :=
      List.cons_subset_cons _ (List.subset_append_right vs ws) spans'.lowest
    unfold min
    split
    · exact right
    · exact left
  · have left : high ∈ least kind :: (vs ++ ws) :=
      List.cons_subset_cons _ (List.subset_append_left vs ws) spans.highest
    have right : high' ∈ least kind :: (vs ++ ws) :=
      List.cons_subset_cons _ (List.subset_append_right vs ws) spans'.highest
    unfold max
    split
    · exact right
    · exact left
  · rw [place_min (lowKind.trans lowKind'.symm) lowNumber lowNumber',
      place_max (highKind.trans highKind'.symm) highNumber highNumber']
    rcases List.mem_append.1 member with first | second
    · obtain ⟨above, below⟩ := spans.within v first
      exact ⟨(min_le_left _ _).trans above, below.trans (le_max_left _ _)⟩
    · obtain ⟨above, below⟩ := spans'.within v second
      exact ⟨(min_le_right _ _).trans above, below.trans (le_max_right _ _)⟩

/-- As floats, the bounds of some numbers are in order, and each of the numbers is between them. -/
theorem Spans.toFloat (spans : Spans kind low high vs) (numeric : Numeric kind vs)
    (member : v ∈ vs) : low.toFloat ≤ v.toFloat ∧ v.toFloat ≤ high.toFloat := by
  obtain ⟨⟨lowKind, lowNumber⟩, highKind, highNumber⟩ := spans.numbers numeric
  obtain ⟨above, below⟩ := spans.within v member
  obtain ⟨same, number⟩ := numeric v member
  exact ⟨toFloat_mono (lowKind.trans same.symm) lowNumber number above,
    toFloat_mono (same.trans highKind.symm) number highNumber below⟩

theorem place_least_le (same : v.kind = kind) : (least kind).place ≤ v.place := by
  cases v with
  | integer w =>
    obtain rfl : NumberKind.int64 = kind := same
    refine WithBot.coe_le_coe.2 (WithTop.coe_le_coe.2 ?_)
    exact_mod_cast w.minValue_le_toInt
  | float x =>
    obtain rfl : NumberKind.float64 = kind := same
    have lowest : (least .float64).place = ⊥ := by decide +kernel
    rw [lowest]
    exact bot_le

/-- No finite number is above all others but the largest integer. -/
theorem eq_greatest_of_le (same : v.kind = kind) (finite : v.isFinite = true)
    (le : (greatest kind).place ≤ v.place) : v = greatest kind := by
  cases v with
  | integer w =>
    obtain rfl : NumberKind.int64 = kind := same
    have most : (Int64.maxValue.toInt : ℚ) ≤ w.toInt := WithTop.coe_le_coe.1 (WithBot.coe_le_coe.1 le)
    have most' : Int64.maxValue.toInt ≤ w.toInt := by exact_mod_cast most
    exact congrArg integer (Int64.toInt_inj.1 (le_antisymm w.toInt_le most'))
  | float x =>
    obtain rfl : NumberKind.float64 = kind := same
    have highest : (greatest .float64).place = (⊤ : WithTop ℚ) := by decide +kernel
    have place : (float x).place = (Binary64.value x : WithTop ℚ) :=
      (Binary64.denotes_of_isFinite finite).place
    rw [highest, place, WithBot.coe_le_coe] at le
    exact absurd le (WithTop.coe_lt_top _).not_ge

/-- No finite number is below all others but the least integer. -/
theorem eq_least_of_le (same : v.kind = kind) (finite : v.isFinite = true)
    (le : v.place ≤ (least kind).place) : v = least kind := by
  cases v with
  | integer w =>
    obtain rfl : NumberKind.int64 = kind := same
    have most : (w.toInt : ℚ) ≤ Int64.minValue.toInt := WithTop.coe_le_coe.1 (WithBot.coe_le_coe.1 le)
    have most' : w.toInt ≤ Int64.minValue.toInt := by exact_mod_cast most
    exact congrArg integer (Int64.toInt_inj.1 (le_antisymm most' w.minValue_le_toInt))
  | float x =>
    obtain rfl : NumberKind.float64 = kind := same
    have lowest : (least .float64).place = ⊥ := by decide +kernel
    have place : (float x).place = (Binary64.value x : WithTop ℚ) :=
      (Binary64.denotes_of_isFinite finite).place
    rw [lowest, place] at le
    exact absurd le (WithBot.bot_lt_coe _).not_ge

/-- The bounds of some finite numbers are among them. -/
theorem Spans.mem (spans : Spans kind low high vs)
    (finite : ∀ v ∈ vs, v.kind = kind ∧ v.isFinite = true) (some_ : vs ≠ []) :
    low ∈ vs ∧ high ∈ vs := by
  obtain ⟨v, member⟩ := List.exists_mem_of_ne_nil vs some_
  obtain ⟨same, finite_⟩ := finite v member
  obtain ⟨above, below⟩ := spans.within v member
  constructor
  · rcases List.mem_cons.1 spans.lowest with rfl | among
    · exact eq_greatest_of_le same finite_ above ▸ member
    · exact among
  · rcases List.mem_cons.1 spans.highest with rfl | among
    · exact eq_least_of_le same finite_ below ▸ member
    · exact among

/-! ## What numbers stand for -/

/-- The rational that a finite number stands for. -/
def rational : Number → ℚ
  | integer v => v.toInt
  | float x => Binary64.value x

theorem denotes_toFloat (finite : v.isFinite = true) :
    Binary64.Denotes v.toFloat (Binary64.value v.toFloat) :=
  Binary64.denotes_of_isFinite (isFinite_toFloat finite)

/-- Numbers of one kind in one place become floats that stand for one rational. -/
theorem denotes_toFloat_of_place_eq {p : ℚ} (same : a.kind = b.kind)
    (number : a.toFloat.isNaN = false) (number' : b.toFloat.isNaN = false)
    (equal : a.place = b.place) (denotes : Binary64.Denotes a.toFloat p) :
    Binary64.Denotes b.toFloat p := by
  have above := toFloat_mono same number number' equal.le
  have below := toFloat_mono same.symm number' number equal.ge
  have finite := Binary64.denotes_of_between above below denotes denotes
  have value := le_antisymm ((denotes.le_iff finite).1 above) ((finite.le_iff denotes).1 below)
  exact value ▸ finite

/-- A number that becomes a float changes by a rounding at most. -/
theorem abs_toFloat_sub_le (v : Number) :
    |Binary64.value v.toFloat - v.rational| ≤ |v.rational| * 2 ^ (-53 : Int) := by
  cases v with
  | float x =>
    change |Binary64.value x - Binary64.value x| ≤ |Binary64.value x| * 2 ^ (-53 : Int)
    rw [sub_self, abs_zero]
    positivity
  | integer w =>
    change |Binary64.value (Binary64.ofInt64 w) - (w.toInt : ℚ)| ≤ |(w.toInt : ℚ)| * 2 ^ (-53 : Int)
    have whole : Binary64.value (Binary64.ofInt64 w) = Binary64.nearestInt w.toInt :=
      (Binary64.denotes_ofInt64 w).value
    rw [whole, Binary64.nearestInt]
    generalize w.toInt = n
    have close : ∀ {n : Int}, 0 < n → |Binary64.nearest n - n| ≤ n * 2 ^ (-53 : Int) := by
      intro n positive
      have one : (1 : ℚ) ≤ n := by exact_mod_cast positive
      exact Binary64.abs_nearest_sub_le_mul
        ((zpow_le_one_of_nonpos₀ one_le_two (by norm_num)).trans one)
    rcases Int.lt_trichotomy n 0 with negative | rfl | positive
    · have error := close (Int.neg_pos_of_neg negative)
      have sign : (n : ℚ) < 0 := by exact_mod_cast negative
      rw [if_pos negative, abs_of_neg sign, ← abs_neg]
      push_cast at error ⊢
      rwa [neg_sub, sub_neg_eq_add, add_comm, ← sub_neg_eq_add]
    · norm_num
    · have sign : (0 : ℚ) < n := by exact_mod_cast positive
      rw [if_neg positive.not_gt, if_neg positive.ne', abs_of_pos sign]
      exact close positive

/-! ## Rankings -/

/-- The numbers from the least to the greatest. -/
structure Ranking (vs ranked : List Number) : Prop where
  perm : ranked.Perm vs
  sorted : ranked.Pairwise fun a b => a.place ≤ b.place

theorem Ranking.numeric (ranking : Ranking vs ranked) (numeric : Numeric kind vs) :
    Numeric kind ranked :=
  fun v member => numeric v (ranking.perm.mem_iff.1 member)

/-- The upper bound stands where the last of the ranked numbers does. -/
theorem Ranking.place_last (ranking : Ranking vs ranked) (spans : Spans kind low high vs)
    (numeric : Numeric kind vs) (found : ranked[ranked.length - 1]? = some v) :
    high.place = v.place := by
  have member : v ∈ ranked := List.mem_of_getElem? found
  have held := ranking.perm.mem_iff.1 member
  apply le_antisymm
  · rcases List.mem_cons.1 spans.highest with rfl | some_
    · exact place_least_le (numeric v held).1
    · have among := ranking.perm.mem_iff.2 some_
      refine (around_of_sorted ranking.sorted le_rfl found).1 high ?_
      rwa [List.take_of_length_le (by omega)]
  · exact (spans.within v held).2

/-- Ranked numbers ascend as floats. -/
theorem Ranking.toFloat (ranking : Ranking vs ranked) (numeric : Numeric kind vs) :
    ranked.Pairwise fun a b => a.toFloat ≤ b.toFloat := by
  have numbers := ranking.numeric numeric
  refine ranking.sorted.imp_of_mem fun {a b} first second le => ?_
  obtain ⟨same, number⟩ := numbers a first
  obtain ⟨same', number'⟩ := numbers b second
  exact toFloat_mono (same.trans same'.symm) number number' le

end Metering.Number
