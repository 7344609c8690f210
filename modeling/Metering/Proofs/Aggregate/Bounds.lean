import Metering.Aggregate.Basic
import Metering.Proofs.Number.Comparison

/-!
# Bounds of mixed values

A summary and a sketch keep the smaller and the larger of the bound so far and each value. If values
of both kinds arrive, the bounds compare as equal in whatever order they do, though it may depend on
the order which of an integer and an equal float is kept. This is all that is left to order: what
the comparison of numbers loses, it loses where two integers become one float
(`lawful_but_for_blurred_integers`).
-/

namespace Metering

variable {vs ws : List Number}

namespace MinMaxSumCount

variable {m : MinMaxSumCount}

theorem least_foldl_update (m : MinMaxSumCount) (vs : List Number) :
    (vs.foldl update m).least = vs.foldl Number.min m.least :=
  (List.foldl_hom least fun _ _ => rfl).symm

theorem greatest_foldl_update (m : MinMaxSumCount) (vs : List Number) :
    (vs.foldl update m).greatest = vs.foldl Number.max m.greatest :=
  (List.foldl_hom greatest fun _ _ => rfl).symm

/-- In whatever order values arrive, the bounds compare as equal. -/
theorem bounds_of_perm (perm : vs.Perm ws) (low : m.least.toFloat.isNaN = false)
    (high : m.greatest.toFloat.isNaN = false) (numbers : ∀ v ∈ vs, v.toFloat.isNaN = false) :
    (vs.foldl update m).least.compare? (ws.foldl update m).least = some .eq ∧
      (vs.foldl update m).greatest.compare? (ws.foldl update m).greatest = some .eq := by
  rw [least_foldl_update, least_foldl_update, greatest_foldl_update, greatest_foldl_update,
    Number.min_eq_choose, Number.max_eq_choose]
  exact ⟨Number.ranks_lt.compare?_foldl low numbers perm,
    Number.ranks_gt.compare?_foldl high numbers perm⟩

end MinMaxSumCount

namespace Sketch

variable {s : Sketch}

theorem bounds_update (s : Sketch) (v : Number) :
    (s.update v).least = (if v.isFinite then s.least.min v else s.least) ∧
      (s.update v).greatest = (if v.isFinite then s.greatest.max v else s.greatest) := by
  rw [update, Number.toFloat_isFinite]
  cases v.isFinite with
  | true => exact ⟨rfl, rfl⟩
  | false => exact ⟨rfl, rfl⟩

/-- What is not finite leaves the bounds as they are. -/
theorem bounds_foldl_update (s : Sketch) (vs : List Number) :
    (vs.foldl update s).least = (vs.filter Number.isFinite).foldl Number.min s.least ∧
      (vs.foldl update s).greatest = (vs.filter Number.isFinite).foldl Number.max s.greatest := by
  rw [List.foldl_filter, List.foldl_filter]
  exact ⟨(List.foldl_hom least fun s v => (bounds_update s v).1.symm).symm,
    (List.foldl_hom greatest fun s v => (bounds_update s v).2.symm).symm⟩

/-- In whatever order values arrive, the bounds compare as equal. -/
theorem bounds_of_perm (perm : vs.Perm ws) (low : s.least.toFloat.isNaN = false)
    (high : s.greatest.toFloat.isNaN = false) :
    (vs.foldl update s).least.compare? (ws.foldl update s).least = some .eq ∧
      (vs.foldl update s).greatest.compare? (ws.foldl update s).greatest = some .eq := by
  have numbers : ∀ v ∈ vs.filter Number.isFinite, v.toFloat.isNaN = false := fun v member =>
    Binary64.number_of_isFinite (Number.isFinite_toFloat (List.of_mem_filter member))
  rw [(bounds_foldl_update s vs).1, (bounds_foldl_update s vs).2, (bounds_foldl_update s ws).1,
    (bounds_foldl_update s ws).2, Number.min_eq_choose, Number.max_eq_choose]
  exact ⟨Number.ranks_lt.compare?_foldl low numbers (perm.filter _),
    Number.ranks_gt.compare?_foldl high numbers (perm.filter _)⟩

end Sketch

namespace Number

/-- Numbers are equal exactly if they are of one kind and compare as equal. Less than is transitive;
at most is, but for two integers that become the float between them. The smaller and the larger of
numbers do not depend on which comes first but for an integer and a float that compare as equal, when
each order gives its first, nor on which two are taken first but for such integers. The bounds of a summary and of a sketch compare
as equal in whatever order values of both kinds arrive. -/
theorem lawful_but_for_blurred_integers :
    (∀ a b : Number, a.agrees b = true ↔ a.kind = b.kind ∧ a.compare? b = some .eq) ∧
    (∀ a b c : Number, a < b → b < c → a < c) ∧
    (∀ a b c : Number, (a ≤ b ∧ b ≤ c ∧ ¬ a ≤ c) ↔ Blurs a b c) ∧
    (∀ a b : Number, a.toFloat.isNaN = false → b.toFloat.isNaN = false →
      ((a.min b).agrees (b.min a) = true ↔ (a.compare? b = some .eq → a.kind = b.kind)) ∧
      ((a.max b).agrees (b.max a) = true ↔ (a.compare? b = some .eq → a.kind = b.kind))) ∧
    (∀ a b : Number, a.compare? b = some .eq →
      (a.min b = a ∧ b.min a = b) ∧ (a.max b = a ∧ b.max a = b)) ∧
    (∀ a b c : Number, a.toFloat.isNaN = false → b.toFloat.isNaN = false →
      c.toFloat.isNaN = false →
      (((a.min b).min c).agrees (a.min (b.min c)) = true ↔ ¬ Blurs a b c) ∧
      (((a.max b).max c).agrees (a.max (b.max c)) = true ↔ ¬ Blurs c b a)) ∧
    (∀ (m : MinMaxSumCount) (vs ws : List Number), vs.Perm ws → m.least.toFloat.isNaN = false →
      m.greatest.toFloat.isNaN = false → (∀ v ∈ vs, v.toFloat.isNaN = false) →
      (vs.foldl .update m).least.compare? (ws.foldl .update m).least = some .eq ∧
      (vs.foldl .update m).greatest.compare? (ws.foldl .update m).greatest = some .eq) ∧
    (∀ (s : Sketch) (vs ws : List Number), vs.Perm ws → s.least.toFloat.isNaN = false →
      s.greatest.toFloat.isNaN = false →
      (vs.foldl .update s).least.compare? (ws.foldl .update s).least = some .eq ∧
      (vs.foldl .update s).greatest.compare? (ws.foldl .update s).greatest = some .eq) := by
  refine ⟨agrees_iff, fun a b c => lt_trans, not_le_of_le_of_le_iff, fun a b number number' => ?_,
    fun a b same => ?_, fun a b c number number' number'' => ?_,
    fun m vs ws perm low high numbers => MinMaxSumCount.bounds_of_perm perm low high numbers,
    fun s vs ws perm low high => Sketch.bounds_of_perm perm low high⟩
  · rw [min_eq_choose, max_eq_choose]
    exact ⟨ranks_lt.agrees_comm_iff number number', ranks_gt.agrees_comm_iff number number'⟩
  · rw [min_eq_choose, max_eq_choose]
    exact ⟨ranks_lt.choose_first same, ranks_gt.choose_first same⟩
  · rw [min_eq_choose, max_eq_choose, ranks_lt.agrees_assoc_iff number number' number'',
      ranks_gt.agrees_assoc_iff number number' number'']
    exact ⟨not_congr (not_lt_and_not_lt_and_lt_iff number'),
      not_congr (and_left_comm.trans (not_lt_and_not_lt_and_lt_iff number'))⟩

/-- One, as an integer and as a float, in both orders, and the integers around `2 ^ 53` that are one
float. -/
theorem lawful_for_ones_and_blurred_integers :
    ((integer 1).agrees (integer 1) = true ∧ integer 1 < integer 2) ∧
    (integer 9007199254740993 ≤ float 9007199254740992.0 ∧
      float 9007199254740992.0 ≤ integer 9007199254740992 ∧
      ¬ integer 9007199254740993 ≤ integer 9007199254740992) ∧
    ((integer 1).min (float 1.5)).agrees ((float 1.5).min (integer 1)) = true ∧
    ((integer 1).min (float 1.0) = integer 1 ∧ (float 1.0).min (integer 1) = float 1.0) ∧
    (((integer 1).max (integer 2)).max (float 1.5)).agrees
      ((integer 1).max ((integer 2).max (float 1.5))) = true ∧
    ([integer 1, float 1.0].foldl MinMaxSumCount.update (.empty .int64)).least.compare?
      ([float 1.0, integer 1].foldl MinMaxSumCount.update (.empty .int64)).least = some .eq ∧
    ([integer 1, float 1.0].foldl Sketch.update (.empty 0.01 .int64)).greatest.compare?
      ([float 1.0, integer 1].foldl Sketch.update (.empty 0.01 .int64)).greatest = some .eq := by
  obtain ⟨equal, trans, blurs, commutes, first, associates, summaries, sketches⟩ :=
    lawful_but_for_blurred_integers
  have swapped : [integer 1, float 1.0].Perm [float 1.0, integer 1] := .swap _ _ _
  refine ⟨⟨(equal _ _).2 ⟨rfl, by decide⟩, trans _ (float 1.5) _ (by decide +kernel)
    (by decide +kernel)⟩, ?_, ?_, (first _ _ (by decide +kernel)).1, ?_, ?_, ?_⟩
  · exact (blurs _ _ _).2
      ⟨rfl, rfl, rfl, by decide, by decide +kernel, by decide +kernel⟩
  · exact ((commutes _ _ (by decide +kernel) (by decide +kernel)).1).2 (by decide +kernel)
  · exact ((associates _ _ _ (by decide +kernel) (by decide +kernel) (by decide +kernel)).2).2
      fun blurred => NumberKind.noConfusion blurred.between
  · exact (summaries _ _ _ swapped (by decide +kernel) (by decide +kernel) (by decide +kernel)).1
  · exact (sketches _ _ _ swapped (by decide +kernel) (by decide +kernel)).2

/-- One, as an integer and as a float, compares as equal and is not, so that the smaller of both
depends on which is first, and a bound on which arrives first. Two integers may become the float
between them. -/
theorem unlawful_for_ones_and_blurred_integers :
    ((integer 1).compare? (float 1.0) = some .eq ∧ (integer 1).agrees (float 1.0) = false) ∧
    (integer 9007199254740993 ≤ float 9007199254740992.0 ∧
      float 9007199254740992.0 ≤ integer 9007199254740992 ∧
      ¬ integer 9007199254740993 ≤ integer 9007199254740992) ∧
    ((integer 1).min (float 1.0)).agrees ((float 1.0).min (integer 1)) = false ∧
    (((integer 9007199254740993).min (float 9007199254740992.0)).min
      (integer 9007199254740992)).agrees ((integer 9007199254740993).min
        ((float 9007199254740992.0).min (integer 9007199254740992))) = false ∧
    ([integer 1, float 1.0].foldl MinMaxSumCount.update (.empty .int64)).least.agrees
      ([float 1.0, integer 1].foldl MinMaxSumCount.update (.empty .int64)).least = false ∧
    ([integer 1, float 1.0].foldl Sketch.update (.empty 0.01 .int64)).least.agrees
      ([float 1.0, integer 1].foldl Sketch.update (.empty 0.01 .int64)).least = false := by
  refine ⟨?_, ?_, ?_, ?_, ?_, ?_⟩ <;> decide +kernel

end Number

end Metering
