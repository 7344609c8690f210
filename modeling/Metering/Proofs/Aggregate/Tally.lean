import Metering.Proofs.Aggregate.Shape
import Metering.Proofs.Keyed

/-!
# What an aggregate tells of its values

But for its sum, an aggregate tells the number of its values, their bounds and how many of them each
bucket has. None of this depends on the order of the values, or on how they came together.
`Aggregate.Tallies` says that an aggregate tells it of some integers. Updates and merges keep it so,
and two aggregates of one configuration that tally the same integers differ at most in their sums
(`tallies_unique`).
-/

namespace Metering

/-! ## Bounds -/

namespace Number

variable {a b low high low' high' : Number} {vs ws : List Number}

theorem eq_of_amount (left : a.kind = .int64) (right : b.kind = .int64)
    (same : a.amount = b.amount) : a = b := by
  cases a with
  | float x => cases left
  | integer v =>
    cases b with
    | float y => cases right
    | integer w => exact congrArg integer (Int64.toInt_inj.1 same)

theorem neg_limit_le_amount (n : Number) : -limit - 1 ≤ n.amount := by
  cases n with
  | integer v => exact v.le_toInt
  | float x =>
    have := limit_pos
    change -limit - 1 ≤ 0
    omega

theorem compare?_integers (left : a.kind = .int64) (right : b.kind = .int64) :
    a.compare? b = some (compare a.amount b.amount) := by
  cases a with
  | float x => cases left
  | integer v =>
    cases b with
    | float y => cases right
    | integer w => rfl

theorem amount_min (left : a.kind = .int64) (right : b.kind = .int64) :
    (a.min b).amount = Min.min a.amount b.amount := by
  unfold min
  split
  · rename_i above
    rw [compare?_integers left right] at above
    have := Int.compare_eq_gt.1 (Option.some.inj above)
    omega
  · rename_i within
    rw [compare?_integers left right, Option.some.injEq] at within
    have := Int.compare_ne_gt.1 within
    omega

theorem amount_max (left : a.kind = .int64) (right : b.kind = .int64) :
    (a.max b).amount = Max.max a.amount b.amount := by
  unfold max
  split
  · rename_i below
    rw [compare?_integers left right] at below
    have := Int.compare_eq_lt.1 (Option.some.inj below)
    omega
  · rename_i within
    rw [compare?_integers left right, Option.some.injEq] at within
    have := Int.compare_ne_lt.1 within
    omega

/-- The bounds of some integers. Those of none are the numbers from which a minimum and a maximum
start. -/
structure Bounds (low high : Number) (vs : List Number) : Prop where
  lowest : low ∈ greatest .int64 :: vs
  highest : high ∈ least .int64 :: vs
  within : ∀ v ∈ vs, low.amount ≤ v.amount ∧ v.amount ≤ high.amount

theorem bounds_nil : Bounds (greatest .int64) (least .int64) [] :=
  ⟨List.mem_cons_self, List.mem_cons_self, fun _ none_ => nomatch none_⟩

theorem bounds_singleton (v : Number) : Bounds v v [v] := by
  refine ⟨List.mem_cons_of_mem _ (List.mem_singleton_self v),
    List.mem_cons_of_mem _ (List.mem_singleton_self v), fun w member => ?_⟩
  rw [List.mem_singleton.1 member]
  exact ⟨Int.le_refl _, Int.le_refl _⟩

theorem Bounds.perm (bounds : Bounds low high vs) (perm : vs.Perm ws) : Bounds low high ws :=
  ⟨(perm.cons _).mem_iff.1 bounds.lowest, (perm.cons _).mem_iff.1 bounds.highest,
    fun v member => bounds.within v (perm.mem_iff.2 member)⟩

theorem Bounds.kinds (bounds : Bounds low high vs) (integers : ∀ v ∈ vs, v.kind = .int64) :
    low.kind = .int64 ∧ high.kind = .int64 := by
  constructor
  · rcases List.mem_cons.1 bounds.lowest with rfl | member
    · rfl
    · exact integers low member
  · rcases List.mem_cons.1 bounds.highest with rfl | member
    · rfl
    · exact integers high member

/-- The smaller and the larger of the bounds of two parts are the bounds of both. -/
theorem Bounds.append (bounds : Bounds low high vs) (bounds' : Bounds low' high' ws)
    (integers : ∀ v ∈ vs, v.kind = .int64) (integers' : ∀ v ∈ ws, v.kind = .int64) :
    Bounds (low.min low') (high.max high') (vs ++ ws) := by
  obtain ⟨lowKind, highKind⟩ := bounds.kinds integers
  obtain ⟨lowKind', highKind'⟩ := bounds'.kinds integers'
  have left : ∀ {start}, start :: vs ⊆ start :: (vs ++ ws) :=
    fun {_} => List.cons_subset_cons _ (List.subset_append_left vs ws)
  have right : ∀ {start}, start :: ws ⊆ start :: (vs ++ ws) :=
    fun {_} => List.cons_subset_cons _ (List.subset_append_right vs ws)
  refine ⟨?_, ?_, fun v member => ?_⟩
  · unfold min
    split
    · exact right bounds'.lowest
    · exact left bounds.lowest
  · unfold max
    split
    · exact right bounds'.highest
    · exact left bounds.highest
  · rw [amount_min lowKind lowKind', amount_max highKind highKind']
    rcases List.mem_append.1 member with first | second
    · have := bounds.within v first
      omega
    · have := bounds'.within v second
      omega

/-- The bounds are at most as far as any that are among the values. -/
theorem Bounds.le (bounds : Bounds low high vs) (bounds' : Bounds low' high' vs) :
    low.amount ≤ low'.amount ∧ high'.amount ≤ high.amount := by
  constructor
  · rcases List.mem_cons.1 bounds'.lowest with rfl | member
    · exact low.amount_le_limit
    · exact (bounds.within low' member).1
  · rcases List.mem_cons.1 bounds'.highest with rfl | member
    · exact high.neg_limit_le_amount
    · exact (bounds.within high' member).2

theorem bounds_unique (bounds : Bounds low high vs) (bounds' : Bounds low' high' vs)
    (integers : ∀ v ∈ vs, v.kind = .int64) : low = low' ∧ high = high' := by
  obtain ⟨lowKind, highKind⟩ := bounds.kinds integers
  obtain ⟨lowKind', highKind'⟩ := bounds'.kinds integers
  have := bounds.le bounds'
  have := bounds'.le bounds
  exact ⟨eq_of_amount lowKind lowKind' (by omega), eq_of_amount highKind highKind' (by omega)⟩

end Number

/-! ## Histograms -/

namespace Histogram

variable {h k : Histogram} {vs ws : List Number}

/-- Each bucket of the histogram counts the values that belong to it. -/
structure Tallies (h : Histogram) (vs : List Number) : Prop where
  buckets : h.counts.length = h.boundaries.length + 1
  counts : ∀ j (inside : j < h.counts.length),
    h.counts[j] = vs.countP fun v => h.bucketIndex v.toFloat = j
  count : h.count = vs.length

theorem tallies_empty (boundaries : List Float) (kind : NumberKind) :
    (empty boundaries kind).Tallies [] := by
  refine ⟨List.length_replicate, fun j inside => ?_, rfl⟩
  rw [List.countP_nil]
  exact List.getElem_replicate _

theorem Tallies.update (tallies : h.Tallies vs) (v : Number) : (h.update v).Tallies (vs ++ [v]) := by
  have buckets : (h.update v).counts.length = h.counts.length := List.length_modify ..
  refine ⟨buckets.trans tallies.buckets, fun j inside => ?_, ?_⟩
  · have before := tallies.counts j (buckets ▸ inside)
    have same : (h.update v).bucketIndex = h.bucketIndex := rfl
    rw [same, List.countP_append, List.countP_singleton, ← before]
    simp only [Histogram.update, List.getElem_modify, decide_eq_true_eq]
    split <;> rfl
  · rw [List.length_append, List.length_singleton, ← tallies.count]
    rfl

/-- The counts of two histograms with the same boundaries add up. -/
theorem Tallies.add (tallies : h.Tallies vs) (tallies' : k.Tallies ws)
    (same : h.boundaries = k.boundaries) :
    (Aggregate.addHistogram h k).Tallies (vs ++ ws) := by
  have indices : k.bucketIndex = h.bucketIndex := by
    funext x
    rw [bucketIndex, bucketIndex, same]
  have lengths : (List.zipWith (· + ·) h.counts k.counts).length = h.counts.length := by
    rw [List.length_zipWith, tallies.buckets, tallies'.buckets, same, Nat.min_self]
  refine ⟨lengths.trans tallies.buckets, fun j inside => ?_, ?_⟩
  · have left : j < h.counts.length := lengths ▸ inside
    have right : j < k.counts.length := by
      rw [tallies'.buckets, ← same, ← tallies.buckets]
      exact left
    have first := tallies.counts j left
    have second := tallies'.counts j right
    rw [indices] at second
    have both : (Aggregate.addHistogram h k).counts[j] = h.counts[j] + k.counts[j] :=
      List.getElem_zipWith
    rw [both, first, second, List.countP_append]
    rfl
  · rw [List.length_append, ← tallies.count, ← tallies'.count]
    rfl

theorem Tallies.perm (tallies : h.Tallies vs) (perm : vs.Perm ws) : h.Tallies ws :=
  ⟨tallies.buckets, fun j inside => (tallies.counts j inside).trans (perm.countP_eq _),
    tallies.count.trans perm.length_eq⟩

theorem tallies_unique (tallies : h.Tallies vs) (tallies' : k.Tallies vs)
    (same : h.boundaries = k.boundaries) : h = { k with sum := h.sum } := by
  have indices : k.bucketIndex = h.bucketIndex := by
    funext x
    rw [bucketIndex, bucketIndex, same]
  have counts : h.counts = k.counts := by
    refine List.ext_getElem (by rw [tallies.buckets, tallies'.buckets, same]) fun j left right => ?_
    rw [tallies.counts j left, tallies'.counts j right, indices]
  have count : h.count = k.count := tallies.count.trans tallies'.count.symm
  cases h
  cases k
  simp only at same counts count
  rw [same, counts, count]

end Histogram

/-! ## Sketches -/

namespace Sketch

variable {s t : Sketch} {vs ws : List Number} {place : Number → Option Int} {v : Number}
  {store other : Keyed Int Nat}

/-- What a store keeps for a bucket of `n` values: nothing for one that has none. -/
def tally (n : Nat) : Option Nat := if n = 0 then none else some n

theorem tally_of_pos {n : Nat} (some_ : 0 < n) : tally n = some n :=
  if_neg (Nat.ne_of_gt some_)

theorem addCount_tally (n m : Nat) : addCount n (tally m) = m + n := by
  cases m with
  | zero => rfl
  | succ m => rfl

/-- A store that counts some values, each in the bucket where it has its place. -/
def Counts (place : Number → Option Int) (store : Keyed Int Nat) (vs : List Number) : Prop :=
  ∀ k, store.get? k = tally (vs.countP fun v => place v = some k)

theorem counts_empty (place : Number → Option Int) : Counts place ∅ [] := fun _ => rfl

theorem Counts.perm (counts : Counts place store vs) (perm : vs.Perm ws) : Counts place store ws :=
  fun k => (counts k).trans (congrArg tally (perm.countP_eq _))

theorem counts_unique (counts : Counts place store vs) (counts' : Counts place other vs) :
    store = other :=
  Keyed.ext_get? fun k => (counts k).trans (counts' k).symm

/-- A store with one more value in its bucket, if it has one. -/
def putIn (k : Option Int) (store : Keyed Int Nat) : Keyed Int Nat :=
  match k with
  | some k => store.upsert k (addCount 1)
  | none => store

theorem Counts.putIn (counts : Counts place store vs) (v : Number) :
    Counts place (putIn (place v) store) (vs ++ [v]) := by
  intro k
  rw [List.countP_append, List.countP_singleton]
  cases found : place v with
  | none =>
    rw [Sketch.putIn, counts k]
    simp
  | some k' =>
    by_cases at_ : k' = k
    · subst at_
      rw [Sketch.putIn, Keyed.get?_upsert_self, counts k', addCount_tally]
      simp [tally]
    · rw [Sketch.putIn, Keyed.get?_upsert_of_ne _ _ at_, counts k]
      simp [at_]

/-- Adding one store to another adds count to count. -/
theorem get?_mergeStores (store other : Keyed Int Nat) (k : Int) :
    (mergeStores store other).get? k =
      ((other.get? k).map fun n => addCount n (store.get? k)).or (store.get? k) := by
  obtain ⟨entries, ascending⟩ := other
  simp only [mergeStores, Keyed.toList, Keyed.get?]
  induction entries generalizing store with
  | nil => rfl
  | cons e rest ih =>
    obtain ⟨first, others⟩ := List.pairwise_cons.1 ascending
    have after := ih (store.upsert e.1 (addCount e.2)) others
    rw [List.foldl_cons]
    refine after.trans ?_
    by_cases at_ : e.1 = k
    · subst at_
      have once : Keyed.find? e.1 rest = none := Keyed.find?_eq_none first
      have upserted := Keyed.get?_upsert_self store e.1 (addCount e.2)
      simp only [Keyed.get?] at upserted
      rw [once, Keyed.find?, if_pos Std.ReflCmp.compare_self, upserted]
      rfl
    · have apart : compare k e.1 ≠ .eq := fun same => at_ (Std.LawfulEqOrd.eq_of_compare same).symm
      have upserted := Keyed.get?_upsert_of_ne store (addCount e.2) at_
      simp only [Keyed.get?] at upserted
      rw [Keyed.find?, if_neg apart, upserted]

theorem Counts.merge (counts : Counts place store vs) (counts' : Counts place other ws) :
    Counts place (mergeStores store other) (vs ++ ws) := by
  intro k
  rw [get?_mergeStores, counts k, counts' k, List.countP_append]
  generalize vs.countP (fun v => place v = some k) = m
  generalize ws.countP (fun v => place v = some k) = n
  cases n with
  | zero => rfl
  | succ n =>
    rw [tally_of_pos (Nat.succ_pos n), Option.map_some, Option.some_or, addCount_tally,
      tally_of_pos (by omega)]

/-- The bucket of a value among the positive ones. -/
def positiveKey? (s : Sketch) (v : Number) : Option Int :=
  if leastMagnitude < v.toFloat then some (s.key v.toFloat) else none

/-- The bucket of a value among the negative ones. -/
def negativeKey? (s : Sketch) (v : Number) : Option Int :=
  if leastMagnitude < v.toFloat then none
  else if v.toFloat < -leastMagnitude then some (s.key (-v.toFloat)) else none

/-- Whether a value is too close to zero to have a bucket. -/
def isZero (s : Sketch) (v : Number) : Bool :=
  (s.positiveKey? v).isNone && (s.negativeKey? v).isNone

/-- The places of values depend on the accuracy only. -/
theorem places_eq (same : s.accuracy = t.accuracy) :
    s.positiveKey? = t.positiveKey? ∧ s.negativeKey? = t.negativeKey? ∧ s.isZero = t.isZero := by
  have keys : s.key = t.key := by
    funext x
    simp only [key, gammaLog, gamma, same]
  have positive : s.positiveKey? = t.positiveKey? := by
    funext v
    rw [positiveKey?, positiveKey?, keys]
  have negative : s.negativeKey? = t.negativeKey? := by
    funext v
    rw [negativeKey?, negativeKey?, keys]
  refine ⟨positive, negative, ?_⟩
  funext v
  rw [isZero, isZero, positive, negative]

/-- A finite value goes to its bucket, or to those close to zero. -/
theorem update_of_finite (s : Sketch) (finite : v.isFinite = true) :
    s.update v =
      { s with
        positive := putIn (s.positiveKey? v) s.positive
        negative := putIn (s.negativeKey? v) s.negative
        zeros := if s.isZero v then s.zeros + 1 else s.zeros
        sum := s.sum.add v
        count := s.count + 1
        least := s.least.min v
        greatest := s.greatest.max v } := by
  have held := Number.isFinite_toFloat finite
  simp only [update, held, isZero, positiveKey?, negativeKey?]
  split
  · rename_i impossible
    cases impossible
  · split
    · rfl
    · split <;> rfl

/-- The stores of the sketch count the values by their buckets, and it has their number and their
bounds. -/
structure Tallies (s : Sketch) (vs : List Number) : Prop where
  positive : Counts s.positiveKey? s.positive vs
  negative : Counts s.negativeKey? s.negative vs
  zeros : s.zeros = vs.countP s.isZero
  count : s.count = vs.length
  bounds : Number.Bounds s.least s.greatest vs

theorem tallies_empty (accuracy : Float) : (empty accuracy .int64).Tallies [] :=
  ⟨counts_empty _, counts_empty _, rfl, rfl, Number.bounds_nil⟩

theorem Tallies.update (tallies : s.Tallies vs) (integers : ∀ w ∈ vs, w.kind = .int64)
    (integer : v.kind = .int64) (finite : v.isFinite = true) : (s.update v).Tallies (vs ++ [v]) := by
  obtain ⟨positive, negative, zeros⟩ := places_eq (Aggregate.accuracy_update s v)
  refine ⟨?_, ?_, ?_, ?_, ?_⟩ <;> rw [s.update_of_finite finite] at *
  · rw [positive]
    exact tallies.positive.putIn v
  · rw [negative]
    exact tallies.negative.putIn v
  · rw [zeros, List.countP_append, List.countP_singleton, ← tallies.zeros]
    split <;> rfl
  · rw [List.length_append, List.length_singleton, ← tallies.count]
  · refine tallies.bounds.append (Number.bounds_singleton v) integers fun w member => ?_
    rw [List.mem_singleton.1 member]
    exact integer

theorem Tallies.add (tallies : s.Tallies vs) (tallies' : t.Tallies ws)
    (same : s.accuracy = t.accuracy) (integers : ∀ v ∈ vs, v.kind = .int64)
    (integers' : ∀ v ∈ ws, v.kind = .int64) : (Aggregate.addSketch s t).Tallies (vs ++ ws) := by
  obtain ⟨positive, negative, zeros⟩ := places_eq same
  refine ⟨tallies.positive.merge (positive ▸ tallies'.positive),
    tallies.negative.merge (negative ▸ tallies'.negative), ?_, ?_,
    tallies.bounds.append tallies'.bounds integers integers'⟩
  · have added : (Aggregate.addSketch s t).zeros = s.zeros + t.zeros := rfl
    rw [added, tallies.zeros, tallies'.zeros, ← zeros, ← List.countP_append]
    rfl
  · rw [List.length_append, ← tallies.count, ← tallies'.count]
    rfl

theorem Tallies.perm (tallies : s.Tallies vs) (perm : vs.Perm ws) : s.Tallies ws :=
  ⟨tallies.positive.perm perm, tallies.negative.perm perm,
    tallies.zeros.trans (perm.countP_eq _), tallies.count.trans perm.length_eq,
    tallies.bounds.perm perm⟩

theorem tallies_unique (tallies : s.Tallies vs) (tallies' : t.Tallies vs)
    (same : s.accuracy = t.accuracy) (integers : ∀ v ∈ vs, v.kind = .int64) :
    s = { t with sum := s.sum } := by
  obtain ⟨positives, negatives, zeros⟩ := places_eq same
  have positive : s.positive = t.positive :=
    counts_unique tallies.positive (positives ▸ tallies'.positive)
  have negative : s.negative = t.negative :=
    counts_unique tallies.negative (negatives ▸ tallies'.negative)
  have zero : s.zeros = t.zeros := by rw [tallies.zeros, tallies'.zeros, zeros]
  have count : s.count = t.count := tallies.count.trans tallies'.count.symm
  obtain ⟨low, high⟩ := Number.bounds_unique tallies.bounds tallies'.bounds integers
  cases s
  cases t
  simp only at same positive negative zero count low high
  rw [same, positive, negative, zero, count, low, high]

end Sketch

/-! ## Aggregates -/

namespace Aggregate

variable {a b c : Aggregate} {vs ws : List Number}

/-- But for its sum, the aggregate is that of some integers. -/
def Tallies : Aggregate → List Number → Prop
  | sum _, _ => True
  | minMaxSumCount m, vs => m.count = vs.length ∧ Number.Bounds m.least m.greatest vs
  | histogram h, vs => h.Tallies vs
  | sketch s, vs => s.Tallies vs

/-- The aggregate with another sum. -/
def withTotal (a : Aggregate) (total : Number) : Aggregate :=
  match a with
  | sum _ => sum total
  | minMaxSumCount m => minMaxSumCount { m with sum := total }
  | histogram h => histogram { h with sum := total }
  | sketch s => sketch { s with sum := total }

theorem withTotal_total (a : Aggregate) : a.withTotal a.total = a := by
  cases a <;> rfl

theorem tallies_empty (aggregation : Aggregation) : (empty .int64 aggregation).Tallies [] := by
  cases aggregation with
  | sum => exact trivial
  | minMaxSumCount => exact ⟨rfl, Number.bounds_nil⟩
  | histogram boundaries => exact Histogram.tallies_empty boundaries .int64
  | sketch accuracy => exact Sketch.tallies_empty accuracy

theorem Tallies.update (tallies : a.Tallies vs) (integers : ∀ w ∈ vs, w.kind = .int64) {v : Number}
    (integer : v.kind = .int64) (finite : v.isFinite = true) : (a.update v).Tallies (vs ++ [v]) := by
  cases a with
  | sum total => exact trivial
  | minMaxSumCount m =>
    obtain ⟨count, bounds⟩ := tallies
    refine ⟨?_, bounds.append (Number.bounds_singleton v) integers fun w member => ?_⟩
    · rw [List.length_append, List.length_singleton, ← count]
      rfl
    · rw [List.mem_singleton.1 member]
      exact integer
  | histogram h => exact Histogram.Tallies.update tallies v
  | sketch s => exact Sketch.Tallies.update tallies integers integer finite

theorem tallies_ofValues (aggregation : Aggregation) (integers : ∀ v ∈ vs, v.kind = .int64)
    (finite : ∀ v ∈ vs, v.isFinite = true) : (ofValues .int64 aggregation vs).Tallies vs := by
  induction vs using List.reverseRecOn with
  | nil => exact tallies_empty aggregation
  | append_singleton vs v ih =>
    have before : ∀ w ∈ vs, w.kind = .int64 :=
      fun w member => integers w (List.mem_append_left _ member)
    rw [ofValues_concat]
    refine (ih before fun w member => finite w (List.mem_append_left _ member)).update before ?_ ?_
    · exact integers v (List.mem_append_right _ (List.mem_singleton_self v))
    · exact finite v (List.mem_append_right _ (List.mem_singleton_self v))

theorem Tallies.merge (tallies : a.Tallies vs) (tallies' : b.Tallies ws) (same : a.shape = b.shape)
    (integers : ∀ v ∈ vs, v.kind = .int64) (integers' : ∀ v ∈ ws, v.kind = .int64)
    (merged : a.merge b = .ok c) : c.Tallies (vs ++ ws) := by
  cases a with
  | sum x =>
    cases b with
    | sum y => cases merged; exact trivial
    | _ => cases merged
  | minMaxSumCount m =>
    cases b with
    | minMaxSumCount n =>
      cases merged
      obtain ⟨count, bounds⟩ := tallies
      obtain ⟨count', bounds'⟩ := tallies'
      refine ⟨?_, bounds.append bounds' integers integers'⟩
      rw [List.length_append, ← count, ← count']
      rfl
    | _ => cases merged
  | histogram h =>
    cases b with
    | histogram k =>
      rw [merge_histogram] at merged
      split at merged
      · cases merged
        exact Histogram.Tallies.add tallies tallies' (Aggregation.histogram.inj same)
      · cases merged
    | _ => cases merged
  | sketch s =>
    cases b with
    | sketch t =>
      rw [merge_sketch] at merged
      split at merged
      · cases merged
      · cases merged
        exact Sketch.Tallies.add tallies tallies' (Aggregation.sketch.inj same) integers integers'
    | _ => cases merged

theorem Tallies.perm (tallies : a.Tallies vs) (perm : vs.Perm ws) : a.Tallies ws := by
  cases a with
  | sum total => exact trivial
  | minMaxSumCount m => exact ⟨tallies.1.trans perm.length_eq, tallies.2.perm perm⟩
  | histogram h => exact Histogram.Tallies.perm tallies perm
  | sketch s => exact Sketch.Tallies.perm tallies perm

/-- Aggregates of one configuration that tally the same integers differ at most in their sums. -/
theorem tallies_unique (tallies : a.Tallies vs) (tallies' : b.Tallies vs)
    (same : a.shape = b.shape) (integers : ∀ v ∈ vs, v.kind = .int64) :
    a = b.withTotal a.total := by
  cases a with
  | sum x =>
    cases b with
    | sum y => rfl
    | _ => cases same
  | minMaxSumCount m =>
    cases b with
    | minMaxSumCount n =>
      obtain ⟨low, high⟩ := Number.bounds_unique tallies.2 tallies'.2 integers
      have count : m.count = n.count := tallies.1.trans tallies'.1.symm
      cases m
      cases n
      simp only at low high count
      rw [low, high, count]
      rfl
    | _ => cases same
  | histogram h =>
    cases b with
    | histogram k =>
      exact congrArg histogram
        (Histogram.tallies_unique tallies tallies' (Aggregation.histogram.inj same))
    | _ => cases same
  | sketch s =>
    cases b with
    | sketch t =>
      exact congrArg sketch
        (Sketch.tallies_unique tallies tallies' (Aggregation.sketch.inj same) integers)
    | _ => cases same

end Aggregate

end Metering
