import Metering.Aggregate.Aggregator
import Metering.Proofs.Number

/-!
# Merging aggregates of integers

Aggregates merge if their configurations are equal as floats are; the result has the configuration
of the first. The empty aggregate adds nothing. What an aggregate adds to another does not depend on
how its configuration is written: `Matches` compares two aggregates up to that.
-/

namespace Metering

/-- Whether aggregates of two configurations merge. -/
def Aggregation.Fits : Aggregation → Aggregation → Prop
  | .sum, .sum => True
  | .minMaxSumCount, .minMaxSumCount => True
  | .histogram bs, .histogram cs => Histogram.sameFloats bs cs = true
  | .sketch a, .sketch b => (a == b) = true
  | _, _ => False

theorem Histogram.sameFloats_self {bs : List Float} (finite : ∀ b ∈ bs, b.isFinite = true) :
    sameFloats bs bs = true := by
  induction bs with
  | nil => rfl
  | cons b rest ih =>
    rw [sameFloats, Binary64.beq_self_of_isFinite (finite b List.mem_cons_self), Bool.true_and]
    exact ih fun b' member => finite b' (List.mem_cons_of_mem _ member)

/-- Aggregates of a configuration that is accepted merge with each other. -/
theorem Aggregation.fits_self {aggregation : Aggregation} (accepted : aggregation.validate = .ok ()) :
    aggregation.Fits aggregation := by
  cases aggregation with
  | sum => exact trivial
  | minMaxSumCount => exact trivial
  | histogram boundaries =>
    rw [validate] at accepted
    split at accepted
    · rename_i finite
      exact Histogram.sameFloats_self (List.all_eq_true.1 finite)
    · cases accepted
  | sketch accuracy =>
    rw [validate] at accepted
    split at accepted
    · rename_i inside
      have positive := ((Bool.and_eq_true _ _).mp inside).1
      exact Binary64.beq_self_of_lt (of_decide_eq_true positive)
    · cases accepted

namespace Aggregate

variable {a b c : Aggregate}

/-- The configuration of an aggregate. -/
def shape : Aggregate → Aggregation
  | sum _ => .sum
  | minMaxSumCount _ => .minMaxSumCount
  | histogram h => .histogram h.boundaries
  | sketch s => .sketch s.accuracy

/-- An aggregate of integers; a histogram has one count more than boundaries. -/
def Integral : Aggregate → Prop
  | sum total => total.kind = .int64
  | minMaxSumCount m => m.least.kind = .int64 ∧ m.greatest.kind = .int64 ∧ m.sum.kind = .int64
  | histogram h => h.counts.length = h.boundaries.length + 1 ∧ h.sum.kind = .int64
  | sketch s => s.least.kind = .int64 ∧ s.greatest.kind = .int64 ∧ s.sum.kind = .int64

theorem shape_empty (kind : NumberKind) (shape : Aggregation) :
    (empty kind shape).shape = shape := by
  cases shape <;> rfl

theorem integral_empty (shape : Aggregation) : (empty .int64 shape).Integral := by
  cases shape with
  | sum => rfl
  | minMaxSumCount => exact ⟨rfl, rfl, rfl⟩
  | histogram boundaries => exact ⟨List.length_replicate, rfl⟩
  | sketch accuracy => exact ⟨rfl, rfl, rfl⟩

theorem reset_of_integral (integral : a.Integral) : a.reset = empty .int64 a.shape := by
  cases a with
  | sum total =>
    have kind : total.kind = .int64 := integral
    simp only [reset, shape, empty, kind]
  | minMaxSumCount m => simp only [reset, shape, empty, MinMaxSumCount.reset, integral.2.2]
  | histogram h =>
    simp only [reset, shape, empty, Histogram.reset, Histogram.empty, List.map_const', integral.1,
      integral.2]
  | sketch s => simp only [reset, shape, empty, Sketch.reset, integral.2.2]

theorem length_of_sameFloats : ∀ {bs cs : List Float}, Histogram.sameFloats bs cs = true →
    bs.length = cs.length
  | [], [], _ => rfl
  | b :: bs, c :: cs, same => by
    rw [Histogram.sameFloats, Bool.and_eq_true] at same
    rw [List.length_cons, List.length_cons, length_of_sameFloats same.2]

/-- Equal accuracies are not told apart. -/
theorem not_epsilon_lt {x y : Float} (same : (x == y) = true) :
    ¬ Sketch.epsilon < (x - y).abs := by
  refine Binary64.not_lt_abs_sub same (fun s => ?_) ?_
  · cases s <;> decide +kernel
  · decide +kernel

theorem kind_add_int64 {x y : Number} (left : x.kind = .int64) (right : y.kind = .int64) :
    (x.add y).kind = .int64 :=
  (Number.kind_add (right.trans left.symm)).trans left

/-- The histogram of the values of both, if their boundaries do not tell otherwise. -/
def addHistogram (h k : Histogram) : Histogram :=
  { h with
    counts := List.zipWith (· + ·) h.counts k.counts
    sum := h.sum.add k.sum
    count := h.count + k.count }

/-- The sketch of the values of both, if their accuracies do not tell otherwise. -/
def addSketch (s t : Sketch) : Sketch :=
  { s with
    positive := Sketch.mergeStores s.positive t.positive
    negative := Sketch.mergeStores s.negative t.negative
    zeros := s.zeros + t.zeros
    sum := s.sum.add t.sum
    count := s.count + t.count
    least := s.least.min t.least
    greatest := s.greatest.max t.greatest }

theorem merge_histogram (h k : Histogram) : (histogram h).merge (histogram k) =
    if Histogram.sameFloats h.boundaries k.boundaries then .ok (histogram (addHistogram h k))
    else .error (.incompatible (.boundaries h.boundaries k.boundaries)) := by
  simp only [merge, Histogram.merge]
  split <;> rename_i found <;> split at found <;> cases found <;> simp_all [addHistogram]

theorem merge_sketch (s t : Sketch) : (sketch s).merge (sketch t) =
    if Sketch.epsilon < (s.accuracy - t.accuracy).abs
    then .error (.incompatible (.accuracy s.accuracy t.accuracy))
    else .ok (sketch (addSketch s t)) := by
  simp only [merge, Sketch.merge]
  split <;> rename_i found <;> split at found <;> cases found <;> simp_all [addSketch]

/-- Aggregates of integers with equal configurations merge into one of integers. -/
theorem merge_spec (left : a.Integral) (right : b.Integral) (fits : a.shape.Fits b.shape) :
    ∃ c, a.merge b = .ok c ∧ c.Integral ∧ c.shape = a.shape := by
  cases a with
  | sum x =>
    cases b with
    | sum y => exact ⟨_, rfl, kind_add_int64 left right, rfl⟩
    | _ => exact fits.elim
  | minMaxSumCount m =>
    cases b with
    | minMaxSumCount n =>
      exact ⟨_, rfl, ⟨Number.kind_min left.1 right.1, Number.kind_max left.2.1 right.2.1,
        kind_add_int64 left.2.2 right.2.2⟩, rfl⟩
    | _ => exact fits.elim
  | histogram h =>
    cases b with
    | histogram k =>
      have same : Histogram.sameFloats h.boundaries k.boundaries = true := fits
      have lengths : h.counts.length = k.counts.length := by
        rw [left.1, right.1, length_of_sameFloats same]
      refine ⟨.histogram (addHistogram h k), by rw [merge_histogram, if_pos same], ⟨?_, ?_⟩, rfl⟩
      · rw [addHistogram, List.length_zipWith, ← lengths, Nat.min_self, left.1]
      · exact kind_add_int64 left.2 right.2
    | _ => exact fits.elim
  | sketch s =>
    cases b with
    | sketch t =>
      exact ⟨.sketch (addSketch s t), by rw [merge_sketch, if_neg (not_epsilon_lt fits)],
        ⟨Number.kind_min left.1 right.1, Number.kind_max left.2.1 right.2.1,
          kind_add_int64 left.2.2 right.2.2⟩, rfl⟩
    | _ => exact fits.elim

theorem zipWith_zeros (counts : List Nat) :
    ∀ {n : Nat}, counts.length = n → List.zipWith (· + ·) counts (List.replicate n 0) = counts := by
  induction counts with
  | nil => exact fun _ => rfl
  | cons count rest ih =>
    rintro _ rfl
    rw [List.length_cons, List.replicate_succ, List.zipWith_cons_cons, ih rfl, Nat.add_zero]

/-- The empty aggregate adds nothing, at whatever value the integers are. -/
theorem merge_empty (left : a.Integral) {shape : Aggregation} (fits : a.shape.Fits shape) :
    a.merge (empty .int64 shape) = .ok a := by
  cases a with
  | sum x =>
    cases shape with
    | sum => exact congrArg (fun n => Except.ok (sum n)) (Number.add_zero left)
    | _ => exact fits.elim
  | minMaxSumCount m =>
    cases shape with
    | minMaxSumCount =>
      simp only [merge, empty, MinMaxSumCount.merge, MinMaxSumCount.empty,
        Number.min_greatest left.1, Number.max_least left.2.1, Number.add_zero left.2.2,
        Nat.add_zero]
    | _ => exact fits.elim
  | histogram h =>
    cases shape with
    | histogram boundaries =>
      have same : Histogram.sameFloats h.boundaries boundaries = true := fits
      have lengths : h.counts.length = boundaries.length + 1 := by
        rw [left.1, length_of_sameFloats same]
      rw [empty, merge_histogram, Histogram.empty, if_pos same]
      simp only [addHistogram, zipWith_zeros h.counts lengths, Number.add_zero left.2, Nat.add_zero]
    | _ => exact fits.elim
  | sketch s =>
    cases shape with
    | sketch accuracy =>
      have close := not_epsilon_lt (show (s.accuracy == accuracy) = true from fits)
      have stores : ∀ store : Keyed Int Nat, Sketch.mergeStores store ∅ = store := fun _ => rfl
      rw [empty, merge_sketch, Sketch.empty, if_neg close]
      simp only [addSketch, stores, Number.min_greatest left.1, Number.max_least left.2.1,
        Number.add_zero left.2.2, Nat.add_zero]
    | _ => exact fits.elim

/-! ## Aggregates that differ in how their configuration is written -/

/-- The same values, under a configuration that may be another. -/
inductive Matches : Aggregate → Aggregate → Prop
  | sum (total : Number) : Matches (.sum total) (.sum total)
  | minMaxSumCount (m : MinMaxSumCount) : Matches (.minMaxSumCount m) (.minMaxSumCount m)
  | histogram (h : Histogram) (boundaries : List Float) :
    Matches (.histogram h) (.histogram { h with boundaries })
  | sketch (s : Sketch) (accuracy : Float) : Matches (.sketch s) (.sketch { s with accuracy })

theorem matches_empty {shape shape' : Aggregation} (fits : shape.Fits shape') :
    Matches (empty .int64 shape) (empty .int64 shape') := by
  cases shape with
  | sum =>
    cases shape' with
    | sum => exact .sum _
    | _ => exact fits.elim
  | minMaxSumCount =>
    cases shape' with
    | minMaxSumCount => exact .minMaxSumCount _
    | _ => exact fits.elim
  | histogram bs =>
    cases shape' with
    | histogram cs =>
      have same : bs.length = cs.length := length_of_sameFloats fits
      have alike := Matches.histogram (.empty bs .int64) cs
      simp only [Histogram.empty, same] at alike
      simp only [empty, Histogram.empty, same]
      exact alike
    | _ => exact fits.elim
  | sketch x =>
    cases shape' with
    | sketch y => exact .sketch (.empty x .int64) y
    | _ => exact fits.elim

/-- What matches goes on to match, whatever is merged into both. -/
theorem Matches.merge_left {a' c' : Aggregate} (alike : Matches a a') (left : a.merge b = .ok c)
    (right : a'.merge b = .ok c') : Matches c c' := by
  cases alike with
  | sum total =>
    rw [left] at right
    cases right
    cases b with
    | sum y => cases left; exact .sum _
    | _ => cases left
  | minMaxSumCount m =>
    rw [left] at right
    cases right
    cases b with
    | minMaxSumCount y => cases left; exact .minMaxSumCount _
    | _ => cases left
  | histogram h boundaries =>
    cases b with
    | histogram k =>
      rw [merge_histogram] at left right
      split at left
      · split at right
        · cases left
          cases right
          exact .histogram (addHistogram h k) boundaries
        · cases right
      · cases left
    | _ => cases left
  | sketch s accuracy =>
    cases b with
    | sketch t =>
      rw [merge_sketch] at left right
      split at left
      · cases left
      · split at right
        · cases right
        · cases left
          cases right
          exact .sketch (addSketch s t) accuracy
    | _ => cases left

/-- What matches adds the same. -/
theorem Matches.merge_right {b' c' : Aggregate} (alike : Matches b b') (left : a.merge b = .ok c)
    (right : a.merge b' = .ok c') : c = c' := by
  cases alike with
  | sum total => exact Except.ok.inj (left.symm.trans right)
  | minMaxSumCount m => exact Except.ok.inj (left.symm.trans right)
  | histogram k boundaries =>
    cases a with
    | histogram h =>
      rw [merge_histogram] at left right
      split at left
      · split at right
        · cases left
          cases right
          rfl
        · cases right
      · cases left
    | _ => cases left
  | sketch t accuracy =>
    cases a with
    | sketch s =>
      rw [merge_sketch] at left right
      split at left
      · cases left
      · split at right
        · cases right
        · cases left
          cases right
          rfl
    | _ => cases left

/-! ## Merging many aggregates -/

/-- An aggregate with others merged into it, one after the other. -/
def mergeAll (a : Aggregate) (others : List Aggregate) : Except Error Aggregate :=
  others.foldlM merge a

theorem mergeAll_cons {others : List Aggregate} (first : a.merge b = .ok c) :
    a.mergeAll (b :: others) = c.mergeAll others := by
  rw [mergeAll, List.foldlM_cons, first]
  rfl

theorem mergeAll_append {others more : List Aggregate} (first : a.mergeAll others = .ok c) :
    a.mergeAll (others ++ more) = c.mergeAll more := by
  rw [mergeAll, List.foldlM_append]
  change (a.mergeAll others >>= fun c => more.foldlM merge c) = _
  rw [first]
  rfl

/-- Aggregates of integers with equal configurations merge, however many there are. -/
theorem mergeAll_spec (others : List Aggregate) (integral : ∀ b ∈ others, b.Integral) :
    ∀ {a : Aggregate}, a.Integral → (∀ b ∈ others, a.shape.Fits b.shape) →
      ∃ c, a.mergeAll others = .ok c ∧ c.Integral ∧ c.shape = a.shape := by
  induction others with
  | nil => exact fun start _ => ⟨_, rfl, start, rfl⟩
  | cons b rest ih =>
    intro a start fits
    obtain ⟨c, merged, whole, same⟩ :=
      merge_spec start (integral b List.mem_cons_self) (fits b List.mem_cons_self)
    obtain ⟨d, all, whole', same'⟩ :=
      ih (fun b' member => integral b' (List.mem_cons_of_mem _ member)) whole
        fun b' member => same ▸ fits b' (List.mem_cons_of_mem _ member)
    exact ⟨d, (mergeAll_cons merged).trans all, whole', same'.trans same⟩

theorem Matches.mergeAll {others : List Aggregate} : ∀ {a a' c c' : Aggregate}, Matches a a' →
    a.mergeAll others = .ok c → a'.mergeAll others = .ok c' → Matches c c' := by
  induction others with
  | nil =>
    intro a a' c c' alike left right
    cases left
    cases right
    exact alike
  | cons b rest ih =>
    intro a a' c c' alike left right
    cases first : a.merge b with
    | error e =>
      rw [Aggregate.mergeAll, List.foldlM_cons, first] at left
      cases left
    | ok d =>
      cases first' : a'.merge b with
      | error e =>
        rw [Aggregate.mergeAll, List.foldlM_cons, first'] at right
        cases right
      | ok d' =>
        rw [mergeAll_cons first] at left
        rw [mergeAll_cons first'] at right
        exact ih (alike.merge_left first first') left right

end Aggregate

end Metering
