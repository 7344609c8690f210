import Metering.Proofs.Aggregate.History
import Metering.Proofs.Aggregate.Run
import Metering.Proofs.Aggregate.Sketch.Quantile
import Metering.Proofs.Number.Comparison

/-!
# The bookkeeping of every sketch

A sketch enters each value in several places: in one of two stores or among the zeros, in the number
of values, and in the bounds. Whatever is done to the sketch, the entries agree with each other and
with the finite values since the last reset (`entries_balance`). Where a value is stored does not
matter for that, so the sketches that are merged need not have the same keys: two accuracies that
merge may differ a little.
-/

namespace Metering.Sketch

open Number (Spans)

variable {kind : NumberKind} {s t u : Sketch} {vs ws : List Number} {v : Number}
  {store other : Keyed Int Nat}

/-! ## Stores -/

/-- The number of values in a store. -/
def stored (store : Keyed Int Nat) : Nat := store.values.sum

/-- A store that keeps no bucket without values. -/
def Occupied (store : Keyed Int Nat) : Prop := ∀ n ∈ store.values, 0 < n

theorem stored_upsert (store : Keyed Int Nat) (k : Int) (n : Nat) :
    stored (store.upsert k (addCount n)) = stored store + n := by
  have sums := store.sum_values_insert k (addCount n (store.get? k)) id
  rw [List.map_id, List.map_id, Option.map_id, id, id, addCount] at sums
  rw [Keyed.upsert_eq_insert, stored, stored, addCount]
  omega

theorem Occupied.upsert (occupied : Occupied store) (k : Int) {n : Nat} (some_ : 0 < n) :
    Occupied (store.upsert k (addCount n)) := by
  intro m member
  obtain ⟨k', found⟩ := (Keyed.mem_values_iff _ m).1 member
  by_cases at_ : k = k'
  · subst at_
    rw [Keyed.get?_upsert_self, Option.some.injEq, addCount] at found
    omega
  · rw [Keyed.get?_upsert_of_ne _ _ at_] at found
    exact occupied m ((Keyed.mem_values_iff _ m).2 ⟨k', found⟩)

theorem stored_mergeStores (store other : Keyed Int Nat) :
    stored (mergeStores store other) = stored store + stored other := by
  obtain ⟨entries, ascending⟩ := other
  change stored (entries.foldl (fun store e => store.upsert e.1 (addCount e.2)) store) =
    stored store + (entries.map (·.2)).sum
  clear ascending
  induction entries generalizing store with
  | nil => rfl
  | cons e rest ih =>
    rw [List.foldl_cons, ih, stored_upsert, List.map_cons, List.sum_cons, Nat.add_assoc]

theorem Occupied.merge (occupied : Occupied store) (occupied' : Occupied other) :
    Occupied (mergeStores store other) := by
  obtain ⟨entries, ascending⟩ := other
  change ∀ n ∈ entries.map (·.2), 0 < n at occupied'
  change Occupied (entries.foldl (fun store e => store.upsert e.1 (addCount e.2)) store)
  clear ascending
  induction entries generalizing store with
  | nil => exact occupied
  | cons e rest ih =>
    obtain ⟨first, others⟩ := List.forall_mem_cons.1 occupied'
    exact ih (occupied.upsert e.1 first) others

/-- A store without values is empty, if it keeps no bucket without values. -/
theorem Occupied.eq_empty (occupied : Occupied store) (none_ : stored store = 0) : store = ∅ := by
  obtain ⟨entries, ascending⟩ := store
  cases entries with
  | nil => rfl
  | cons e rest =>
    have first := occupied e.2 List.mem_cons_self
    change (e.2 :: rest.map (·.2)).sum = 0 at none_
    rw [List.sum_cons] at none_
    omega

theorem Occupied.putIn (occupied : Occupied store) (k : Option Int) : Occupied (putIn k store) := by
  cases k with
  | none => exact occupied
  | some k => exact occupied.upsert k one_pos

theorem stored_putIn (k : Option Int) (store : Keyed Int Nat) :
    stored (putIn k store) = stored store + if k.isSome then 1 else 0 := by
  cases k with
  | none => rfl
  | some k => exact stored_upsert store k 1

/-- A value has one place. -/
theorem one_place (key : Float → Int) (v : Number) :
    (if bucketBy key v.toFloat = .zero then 1 else 0) +
      (if (positiveKeyBy key v).isSome then 1 else 0) +
        (if (negativeKeyBy key v).isSome then 1 else 0) = 1 := by
  rw [positiveKeyBy, negativeKeyBy]
  cases bucketBy key v.toFloat <;> rfl

/-! ## The invariant -/

/-- What every sketch of finite values keeps, wherever its values are stored. -/
structure Balanced (kind : NumberKind) (s : Sketch) (vs : List Number) : Prop where
  sameKind : s.sum.kind = kind
  recordable : Recordable kind vs
  total : s.count = s.zeros + stored s.positive + stored s.negative
  count : s.count = vs.length
  positive : Occupied s.positive
  negative : Occupied s.negative
  bounds : Spans kind s.least s.greatest vs

theorem balanced_empty (accuracy : Float) (kind : NumberKind) :
    Balanced kind (empty accuracy kind) [] :=
  ⟨Number.kind_zero kind, List.forall_mem_nil _, rfl, rfl, List.forall_mem_nil _,
    List.forall_mem_nil _, Number.spans_nil kind⟩

/-- A finite value goes to one of the stores or to the zeros. -/
theorem Balanced.update (balanced : Balanced kind s vs) (same : v.kind = kind)
    (finite : v.isFinite = true) : Balanced kind (s.update v) (vs ++ [v]) := by
  have recordable : Recordable kind [v] := List.forall_mem_singleton.2 ⟨same, finite⟩
  rw [update_eq_updateBy, updateBy_of_finite s.key s finite]
  refine ⟨?_, List.forall_mem_append.2 ⟨balanced.recordable, recordable⟩, ?_, ?_,
    balanced.positive.putIn _, balanced.negative.putIn _, ?_⟩
  · exact (Number.kind_add (same.trans balanced.sameKind.symm)).trans balanced.sameKind
  · -- The number of zeros or of the values in one of the stores grows, whatever the key is.
    have total := balanced.total
    have one := one_place s.key v
    dsimp only
    rw [stored_putIn, stored_putIn]
    by_cases zero : bucketBy s.key v.toFloat = .zero
    · rw [if_pos zero] at one ⊢
      omega
    · rw [if_neg zero] at one ⊢
      omega
  · rw [List.length_append, List.length_singleton, ← balanced.count]
  · exact balanced.bounds.append (Number.spans_singleton v) balanced.recordable.numeric
      recordable.numeric

theorem Balanced.merge (balanced : Balanced kind s vs) (balanced' : Balanced kind t ws)
    (merged : s.merge t = .ok u) : Balanced kind u (vs ++ ws) := by
  rw [merge_eq_ok merged]
  refine ⟨?_, List.forall_mem_append.2 ⟨balanced.recordable, balanced'.recordable⟩, ?_, ?_,
    balanced.positive.merge balanced'.positive, balanced.negative.merge balanced'.negative, ?_⟩
  · have same := balanced'.sameKind.trans balanced.sameKind.symm
    exact (Number.kind_add same).trans balanced.sameKind
  · have total := balanced.total
    have total' := balanced'.total
    simp only [Aggregate.addSketch, stored_mergeStores]
    omega
  · rw [List.length_append, ← balanced.count, ← balanced'.count]
    rfl
  · exact balanced.bounds.append balanced'.bounds balanced.recordable.numeric
      balanced'.recordable.numeric

theorem Balanced.reset (balanced : Balanced kind s vs) : Balanced kind s.reset [] := by
  rw [Sketch.reset, balanced.sameKind]
  exact balanced_empty s.accuracy kind

/-! ## Every history -/

/-- The sketch that came to be in this way. -/
def ofHistory (history : History Float) : Sketch := history.build empty update merge reset

/-- The finite values that were recorded since the last reset. -/
def recorded (history : History Float) : List Number :=
  history.values Number.isFinite fun a b => (Aggregation.sketch a).joins (.sketch b)

/-- Sketches merge exactly if their accuracies are hardly apart. -/
theorem merge_cases (s t : Sketch) :
    ((Aggregation.sketch s.accuracy).joins (.sketch t.accuracy) = true ∧ ∃ u, s.merge t = .ok u) ∨
      (Aggregation.sketch s.accuracy).joins (.sketch t.accuracy) = false ∧
        ∃ d, s.merge t = .error d := by
  by_cases apart : epsilon < (s.accuracy - t.accuracy).abs
  · exact .inr ⟨by simp [Aggregation.joins, apart], _, if_pos apart⟩
  · exact .inl ⟨by simp [Aggregation.joins, apart], _, if_neg apart⟩

theorem accuracy_of_merge (merged : s.merge t = .ok u) : u.accuracy = s.accuracy := by
  rw [merge_eq_ok merged]
  rfl

/-- What is done to a sketch leaves its accuracy as it was made. -/
theorem accuracy_ofHistory (history : History Float) :
    (ofHistory history).accuracy = history.configuration := by
  induction history with
  | made accuracy kind => rfl
  | updated before value ih => exact (Aggregate.accuracy_update _ value).trans ih
  | merged before other ih ih' =>
    rcases merge_cases (ofHistory before) (ofHistory other) with ⟨-, u, merged⟩ | ⟨-, d, refused⟩
    · rw [ofHistory, History.build_merged_of_ok merged, accuracy_of_merge merged]
      exact ih
    · rw [ofHistory, History.build_merged_of_error refused]
      exact ih
  | reset before ih => exact ih

/-- A merge brings the values of the other sketch, or it is refused and changes nothing. -/
theorem merged_or_refused (history other : History Float) :
    (∃ u, (ofHistory history).merge (ofHistory other) = .ok u ∧
        ofHistory (history.merged other) = u ∧
        recorded (history.merged other) = recorded history ++ recorded other) ∨
      ∃ d, (ofHistory history).merge (ofHistory other) = .error d ∧
        ofHistory (history.merged other) = ofHistory history ∧
        recorded (history.merged other) = recorded history :=
  History.merged_cases merge_cases (accuracy_ofHistory history) (accuracy_ofHistory other)

theorem balanced_ofHistory (history : History Float) (kinds : history.OfKind kind) :
    Balanced kind (ofHistory history) (recorded history) := by
  induction history with
  | made accuracy kind' =>
    obtain rfl : kind' = kind := kinds
    exact balanced_empty accuracy kind'
  | updated before value ih =>
    have balanced := ih kinds.1
    change Balanced kind ((ofHistory before).update value) _
    rw [recorded, History.values]
    cases finite : value.isFinite with
    | true => exact balanced.update kinds.2 finite
    | false =>
      rw [update_of_not_finite finite]
      exact balanced
  | merged before other ih ih' =>
    rcases merged_or_refused before other with ⟨u, merged, built, grown⟩ | ⟨d, -, built, same⟩
    · rw [built, grown]
      exact (ih kinds.1).merge (ih' kinds.2) merged
    · rw [built, same]
      exact ih kinds.1
  | reset before ih => exact (ih kinds).reset

/-- A sketch of no values is as it was made. -/
theorem Balanced.of_count_eq_zero (balanced : Balanced kind s vs) (none_ : s.count = 0) :
    s.positive = ∅ ∧ s.negative = ∅ ∧ s.least = Number.greatest kind ∧
      s.greatest = Number.least kind := by
  have total := balanced.total
  have length := balanced.count
  obtain rfl : vs = [] := List.eq_nil_of_length_eq_zero (length.symm.trans none_)
  exact ⟨balanced.positive.eq_empty (by omega), balanced.negative.eq_empty (by omega),
    List.mem_singleton.1 balanced.bounds.lowest, List.mem_singleton.1 balanced.bounds.highest⟩

/-- The bounds of a sketch of some values are the least and the greatest of them. -/
theorem Balanced.of_count_ne_zero (balanced : Balanced kind s vs) (some_ : s.count ≠ 0) :
    s.least ∈ vs ∧ s.greatest ∈ vs ∧ (∀ v ∈ vs, s.least ≤ v ∧ v ≤ s.greatest) ∧
      s.least ≤ s.greatest := by
  have filled : vs ≠ [] := by
    rintro rfl
    exact some_ balanced.count
  have numeric := balanced.recordable.numeric
  obtain ⟨low, high⟩ := balanced.bounds.mem balanced.recordable filled
  have within : ∀ v ∈ vs, s.least ≤ v ∧ v ≤ s.greatest := by
    intro v member
    obtain ⟨above, below⟩ := balanced.bounds.within v member
    obtain ⟨same, number⟩ := numeric v member
    exact ⟨(Number.le_iff_place_le ((numeric _ low).1.trans same.symm) (numeric _ low).2 number).2
        above,
      (Number.le_iff_place_le (same.trans (numeric _ high).1.symm) number (numeric _ high).2).2
        below⟩
  exact ⟨low, high, within, (within _ low).2⟩

/-- Whatever was done to a sketch of one kind of number: its accuracy and what follows from it are
as it was made. Its count is that of the zeros and of both stores together, in which no count is
zero, and it is the number of the finite values since the last reset. A merge brings those of the
other sketch, or it is refused and changes nothing. Without values the sketch has empty stores and
the bounds it was made with, otherwise its bounds are the least and the greatest of its values. -/
theorem entries_balance (history : History Float) (kinds : history.OfKind kind) :
    ((ofHistory history).accuracy = history.configuration ∧
      (ofHistory history).gamma = ratio history.configuration ∧
      (ofHistory history).gammaLog = (ratio history.configuration).log) ∧
    (ofHistory history).count = (ofHistory history).zeros +
      (ofHistory history).positive.values.sum + (ofHistory history).negative.values.sum ∧
    (ofHistory history).count = (recorded history).length ∧
    (0 ∉ (ofHistory history).positive.values ∧ 0 ∉ (ofHistory history).negative.values) ∧
    (∀ other, (∃ u, (ofHistory history).merge (ofHistory other) = .ok u ∧
        ofHistory (history.merged other) = u ∧
        recorded (history.merged other) = recorded history ++ recorded other) ∨
      ∃ d, (ofHistory history).merge (ofHistory other) = .error d ∧
        ofHistory (history.merged other) = ofHistory history ∧
        recorded (history.merged other) = recorded history) ∧
    ((ofHistory history).count = 0 →
      (ofHistory history).positive = ∅ ∧ (ofHistory history).negative = ∅ ∧
      (ofHistory history).least = Number.greatest kind ∧
      (ofHistory history).greatest = Number.least kind) ∧
    ((ofHistory history).count ≠ 0 →
      (ofHistory history).least ∈ recorded history ∧
      (ofHistory history).greatest ∈ recorded history ∧
      (∀ v ∈ recorded history, (ofHistory history).least ≤ v ∧ v ≤ (ofHistory history).greatest) ∧
      (ofHistory history).least ≤ (ofHistory history).greatest) := by
  have balanced := balanced_ofHistory history kinds
  have accuracy := accuracy_ofHistory history
  have gamma : (ofHistory history).gamma = ratio history.configuration := congrArg ratio accuracy
  exact ⟨⟨accuracy, gamma, congrArg Float.log gamma⟩, balanced.total, balanced.count,
    ⟨fun zero => Nat.lt_irrefl 0 (balanced.positive 0 zero),
      fun zero => Nat.lt_irrefl 0 (balanced.negative 0 zero)⟩, merged_or_refused history,
    balanced.of_count_eq_zero, balanced.of_count_ne_zero⟩

/-- Minus eight, infinity and a merge that brings zero: two finite values. After a reset, none. -/
theorem entries_of_eight_and_zero :
    let history : History Float :=
      .merged (.updated (.updated (.made 0.02 .float64) (.float (-8.0))) (.float (1.0 / 0.0)))
        (.updated (.made 0.02 .float64) (.float 0.0))
    (ofHistory history).count = 2 ∧
      2 = 1 + (ofHistory history).positive.values.sum + (ofHistory history).negative.values.sum ∧
      (∀ v ∈ recorded history, (ofHistory history).least ≤ v ∧ v ≤ (ofHistory history).greatest) ∧
      (ofHistory history).least ≤ (ofHistory history).greatest ∧
      (ofHistory history.reset).positive = ∅ ∧
      (ofHistory history.reset).least = .float (1.0 / 0.0) := by
  intro history
  have kinds : history.OfKind .float64 := ⟨⟨⟨rfl, rfl⟩, rfl⟩, rfl, rfl⟩
  obtain ⟨-, total, -, -, -, -, some_⟩ := entries_balance history kinds
  obtain ⟨-, -, -, -, -, none_, -⟩ := entries_balance history.reset kinds
  have count : (ofHistory history).count = 2 := by decide +kernel
  have zeros : (ofHistory history).zeros = 1 := by decide +kernel
  rw [count, zeros] at total
  obtain ⟨-, -, within, ordered⟩ := some_ (by rw [count]; exact two_ne_zero)
  obtain ⟨empty_, -, least, -⟩ := none_ rfl
  exact ⟨count, total, within, ordered, empty_, least⟩

end Metering.Sketch
