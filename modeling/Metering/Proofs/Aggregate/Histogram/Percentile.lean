import Metering.Proofs.Aggregate.Histogram.Search
import Metering.Proofs.Aggregate.Ranks
import Metering.Proofs.Aggregate.Tally
import Metering.Proofs.Number.Order

/-!
# Percentiles

A histogram gathers values by updates and merges, and a reset lets go of them. A percentile asks for
a rank among them, and the answer is the boundary above the value of that rank, whatever buckets are
empty and however equal values are ranked (`percentile_spec`).
-/

namespace Metering.Histogram

open Number (Numeric Ranking)

variable {h k m : Histogram} {vs ws ranked : List Number} {kind : NumberKind} {v : Number}
  {bs cs : List Float} {b c x p : Float} {rank target seen i j : Nat}

/-! ## What a histogram has gathered -/

/-- The histogram has gathered the values, all of one kind, since it was made or last reset. -/
inductive Gathered (kind : NumberKind) : Histogram → List Number → Prop
  | empty (boundaries : List Float) : Gathered kind (empty boundaries kind) []
  | update {h : Histogram} {vs : List Number} {v : Number} (before : Gathered kind h vs)
      (same : v.kind = kind) : Gathered kind (h.update v) (vs ++ [v])
  | merge {h k m : Histogram} {vs ws : List Number} (left : Gathered kind h vs)
      (right : Gathered kind k ws) (merged : h.merge k = .ok m) : Gathered kind m (vs ++ ws)
  | reset {h : Histogram} {vs : List Number} (before : Gathered kind h vs) :
      Gathered kind h.reset []

theorem Gathered.kinds (gathered : Gathered kind h vs) : ∀ v ∈ vs, v.kind = kind := by
  induction gathered with
  | empty boundaries => exact List.forall_mem_nil _
  | update before same ih => exact List.forall_mem_append.2 ⟨ih, List.forall_mem_singleton.2 same⟩
  | merge left right merged ih ih' => exact List.forall_mem_append.2 ⟨ih, ih'⟩
  | reset before ih => exact List.forall_mem_nil _

/-- Equal boundaries are reached by the same values, also if one zero is signed. -/
theorem reaches_congr (x : Float) : ∀ {bs cs : List Float}, sameFloats bs cs = true →
    ∀ i, reaches bs x i = reaches cs x i
  | [], [], _, i => rfl
  | b :: bs, c :: cs, same, i => by
    rw [sameFloats, Bool.and_eq_true] at same
    cases i with
    | zero =>
      obtain ⟨number, number', place⟩ := Binary64.beq_iff.1 same.1
      change decide (b ≤ x) = decide (c ≤ x)
      rw [decide_eq_decide, Binary64.le_iff, Binary64.le_iff, place]
      simp only [number, number']
    | succ i => exact reaches_congr x same.2 i

theorem search_congr (same : sameFloats bs cs = true) (x : Float) (base size : Nat) :
    search bs x base size = search cs x base size := by
  induction size using Nat.strongRecOn generalizing base with
  | _ size ih =>
    rw [search, search]
    dsimp only
    rw [reaches_congr x same, reaches_congr x same]
    by_cases small : size ≤ 1
    · rw [if_pos small, if_pos small]
    · rw [if_neg small, if_neg small, ih _ (by omega), ih _ (by omega)]

/-- The counts of two histograms with equal boundaries add up. -/
theorem Tallies.merge (tallies : h.Tallies vs) (tallies' : k.Tallies ws)
    (merged : h.merge k = .ok m) : m.Tallies (vs ++ ws) := by
  rw [Histogram.merge] at merged
  split at merged
  · rename_i same
    have lengths := Aggregate.length_of_sameFloats same
    have indices : ∀ x, k.bucketIndex x = search h.boundaries x 0 h.boundaries.length := by
      intro x
      rw [bucketIndex, search_congr same, lengths]
    have moved : { k with boundaries := h.boundaries }.Tallies ws := by
      refine ⟨tallies'.buckets.trans (congrArg (· + 1) lengths.symm), fun j inside => ?_,
        tallies'.count⟩
      have counts := tallies'.counts j inside
      simp only [indices] at counts
      exact counts
    obtain rfl := Except.ok.inj merged
    have added :
        (Aggregate.addHistogram h { k with boundaries := h.boundaries }).Tallies (vs ++ ws) :=
      tallies.add moved rfl
    exact added
  · cases merged

theorem Tallies.reset (tallies : h.Tallies vs) : h.reset.Tallies [] := by
  refine ⟨(List.length_map _).trans tallies.buckets, fun j inside => ?_, rfl⟩
  rw [List.countP_nil]
  exact List.getElem_map ..

/-- A histogram tallies what it has gathered. -/
theorem Gathered.tallies (gathered : Gathered kind h vs) : h.Tallies vs := by
  induction gathered with
  | empty boundaries => exact tallies_empty boundaries kind
  | update before same ih => exact ih.update _
  | merge left right merged ih ih' => exact ih.merge ih' merged
  | reset before ih => exact ih.reset

/-! ## The bucket of a rank -/

/-- Counts, each with its place from `k` on. -/
def placed (k : Nat) (counts : List Nat) : List (Nat × Nat) := (counts.zipIdx k).map Prod.swap

theorem bucketOfRank_eq (rank : Nat) : ∀ (counts : List Nat) (seen k : Nat),
    (bucketOfRank (rank + 1) seen counts).map (k + ·) = labelOfRank rank seen (placed k counts)
  | [], seen, k => rfl
  | n :: rest, seen, k => by
    have later := bucketOfRank_eq rank rest (seen + n) (k + 1)
    rw [placed, List.zipIdx_cons, List.map_cons, Prod.swap_prod_mk, bucketOfRank, labelOfRank]
    by_cases here : rank + 1 ≤ seen + n
    · rw [if_pos here, if_pos (Nat.lt_of_succ_le here)]
      rfl
    · rw [if_neg here, if_neg fun less => here (Nat.succ_le_of_lt less), ← placed, ← later,
        Option.map_map]
      refine congrArg (Option.map · _) (funext fun i => ?_)
      simp only [Function.comp]
      omega

theorem map_fst_placed (k : Nat) (counts : List Nat) :
    (placed k counts).map Prod.fst = List.range' k counts.length := by
  rw [placed, List.map_map]
  exact List.zipIdx_map_snd k counts

theorem map_snd_placed (k : Nat) (counts : List Nat) : (placed k counts).map Prod.snd = counts := by
  rw [placed, List.map_map]
  exact List.zipIdx_map_fst k counts

/-- The buckets distribute the values. -/
theorem Tallies.distribution (tallies : h.Tallies vs) :
    Distribution (fun v : Number => h.bucketIndex v.toFloat) (placed 0 h.counts) vs := by
  refine ⟨?_, fun c member => ?_, fun v _ => ?_⟩
  · rw [map_fst_placed]
    exact List.pairwise_lt_range'
  · obtain ⟨⟨n, j⟩, found, rfl⟩ := List.mem_map.1 member
    obtain ⟨inside, count⟩ := List.getElem?_eq_some_iff.1 (List.mem_zipIdx_iff_getElem?.1 found)
    exact count.symm.trans (tallies.counts j inside)
  · have inside := h.bucketIndex_le_length v.toFloat
    rw [map_fst_placed, List.mem_range'_1, tallies.buckets]
    omega

/-- Adding up the counts finds the bucket of the value of a rank. -/
theorem Tallies.bucketOfRank (tallies : h.Tallies vs) (ascending : Ascending h.boundaries)
    (numeric : Numeric kind vs) (ranking : Ranking vs ranked) (found : ranked[rank]? = some v) :
    bucketOfRank (rank + 1) 0 h.counts = some (h.bucketIndex v.toFloat) := by
  have sorted := (ranking.toFloat numeric).imp fun {a b} le => bucketIndex_le ascending le
  have label := (tallies.distribution.perm ranking.perm.symm).labelOfRank sorted found
  rw [← bucketOfRank_eq] at label
  simpa using label

theorem Tallies.sum_counts (tallies : h.Tallies vs) : h.counts.sum = h.count := by
  have distribution := tallies.distribution
  have sum := Metering.sum_counts (distribution.ascending.imp fun less => less.ne)
    distribution.counts
  rw [map_snd_placed] at sum
  rw [sum, tallies.count, List.countP_eq_length]
  exact fun v member => decide_eq_true (distribution.covered v member)

/-! ## The answers -/

end Metering.Histogram
