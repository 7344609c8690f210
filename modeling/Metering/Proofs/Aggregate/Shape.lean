import Metering.Proofs.Aggregate.Fold
import Metering.Proofs.Aggregate.Merge

/-!
# Aggregates keep their configuration

Whatever is done to an aggregate, its family and configuration stay, so aggregates of one
configuration always merge. No kind of number matters to this.
-/

namespace Metering.Aggregate

variable {a b c : Aggregate}

theorem shape_reset (a : Aggregate) : a.reset.shape = a.shape := by
  cases a <;> rfl

theorem shape_update (a : Aggregate) (v : Number) : (a.update v).shape = a.shape := by
  cases a with
  | sketch s => exact congrArg Aggregation.sketch (accuracy_update s v)
  | _ => rfl

theorem shape_ofValues (kind : NumberKind) (aggregation : Aggregation) (vs : List Number) :
    (ofValues kind aggregation vs).shape = aggregation := by
  induction vs using List.reverseRecOn with
  | nil => exact shape_empty kind aggregation
  | append_singleton vs v ih => rw [ofValues_concat, shape_update, ih]

/-- Aggregates that merge are of one family; what they merge to is configured as the first, and the
totals are added. -/
theorem merge_keeps (merged : a.merge b = .ok c) :
    c.shape = a.shape ∧ c.total = a.total.add b.total := by
  cases a with
  | sum x =>
    cases b with
    | sum y => cases merged; exact ⟨rfl, rfl⟩
    | _ => cases merged
  | minMaxSumCount m =>
    cases b with
    | minMaxSumCount n => cases merged; exact ⟨rfl, rfl⟩
    | _ => cases merged
  | histogram h =>
    cases b with
    | histogram k =>
      rw [merge_histogram] at merged
      split at merged
      · cases merged; exact ⟨rfl, rfl⟩
      · cases merged
    | _ => cases merged
  | sketch s =>
    cases b with
    | sketch t =>
      rw [merge_sketch] at merged
      split at merged
      · cases merged
      · cases merged; exact ⟨rfl, rfl⟩
    | _ => cases merged

/-- The numbers of the values of aggregates that merge are added, in families that keep them. -/
theorem number_merge (merged : a.merge b = .ok c) :
    c.number?.getD 0 = a.number?.getD 0 + b.number?.getD 0 := by
  cases a with
  | sum x =>
    cases b with
    | sum y => cases merged; rfl
    | _ => cases merged
  | minMaxSumCount m =>
    cases b with
    | minMaxSumCount n => cases merged; rfl
    | _ => cases merged
  | histogram h =>
    cases b with
    | histogram k =>
      rw [merge_histogram] at merged
      split at merged
      · cases merged; rfl
      · cases merged
    | _ => cases merged
  | sketch s =>
    cases b with
    | sketch t =>
      rw [merge_sketch] at merged
      split at merged
      · cases merged
      · cases merged; rfl
    | _ => cases merged

/-- Aggregates whose configurations are equal merge, whatever numbers they are of. -/
theorem merge_of_fits (fits : a.shape.Fits b.shape) :
    ∃ c, a.merge b = .ok c ∧ c.shape = a.shape := by
  have merges : ∃ c, a.merge b = .ok c := by
    cases a with
    | sum x =>
      cases b with
      | sum y => exact ⟨_, rfl⟩
      | _ => exact fits.elim
    | minMaxSumCount m =>
      cases b with
      | minMaxSumCount n => exact ⟨_, rfl⟩
      | _ => exact fits.elim
    | histogram h =>
      cases b with
      | histogram k => exact ⟨_, by rw [merge_histogram, if_pos (show _ = true from fits)]⟩
      | _ => exact fits.elim
    | sketch s =>
      cases b with
      | sketch t => exact ⟨_, by rw [merge_sketch, if_neg (not_epsilon_lt fits)]⟩
      | _ => exact fits.elim
  obtain ⟨c, merged⟩ := merges
  exact ⟨c, merged, (merge_keeps merged).1⟩

/-- Aggregates whose configurations are equal merge, however many there are. -/
theorem mergeAll_of_fits (others : List Aggregate) :
    ∀ {a : Aggregate}, (∀ b ∈ others, a.shape.Fits b.shape) →
      ∃ c, a.mergeAll others = .ok c ∧ c.shape = a.shape := by
  induction others with
  | nil => exact fun _ => ⟨_, rfl, rfl⟩
  | cons b rest ih =>
    intro a fits
    obtain ⟨c, merged, same⟩ := merge_of_fits (fits b List.mem_cons_self)
    obtain ⟨d, all, same'⟩ := ih (a := c) fun b' member =>
      same ▸ fits b' (List.mem_cons_of_mem _ member)
    exact ⟨d, (mergeAll_cons merged).trans all, same'.trans same⟩

/-- An integer leaves an aggregate one of integers. -/
theorem integral_update {v : Number} (integral : a.Integral) (integer : v.kind = .int64) :
    (a.update v).Integral := by
  cases a with
  | sum x => exact kind_add_int64 integral integer
  | minMaxSumCount m =>
    exact ⟨Number.kind_min integral.1 integer, Number.kind_max integral.2.1 integer,
      kind_add_int64 integral.2.2 integer⟩
  | histogram h =>
    refine ⟨?_, kind_add_int64 integral.2 integer⟩
    rw [Histogram.update, List.length_modify]
    exact integral.1
  | sketch s =>
    simp only [update, Sketch.update]
    split
    · exact integral
    · exact ⟨Number.kind_min integral.1 integer, Number.kind_max integral.2.1 integer,
        kind_add_int64 integral.2.2 integer⟩

theorem integral_ofValues (aggregation : Aggregation) {vs : List Number}
    (integers : ∀ v ∈ vs, v.kind = .int64) : (ofValues .int64 aggregation vs).Integral := by
  induction vs using List.reverseRecOn with
  | nil => exact integral_empty aggregation
  | append_singleton vs v ih =>
    rw [ofValues_concat]
    exact integral_update (ih fun v' member => integers v' (List.mem_append_left _ member))
      (integers v (List.mem_append_right _ (List.mem_singleton_self v)))

end Metering.Aggregate
