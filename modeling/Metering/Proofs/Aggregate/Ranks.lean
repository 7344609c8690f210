import Mathlib.Algebra.BigOperators.Group.List.Basic
import Mathlib.Algebra.GroupWithZero.Nat
import Mathlib.Order.Lattice

/-!
# Ranks among counted values

Histograms and sketches keep no values, only how many of them there are in each of some ascending
buckets. Adding the counts up until they exceed a rank ends at the bucket of the value of that rank
(`Distribution.labelOfRank`), whichever way equal values are ranked. If the buckets do not ascend
with the values, it still ends between the buckets of a value that is not above that of the rank and
of one that is not below it (`Distribution.between`).
-/

namespace Metering

variable {α L : Type}

/-- The first label at which the counts, added up from `seen`, exceed `rank`. -/
def labelOfRank (rank : Nat) : Nat → List (L × Nat) → Option L
  | _, [] => none
  | seen, (label, n) :: rest =>
    if rank < seen + n then some label else labelOfRank rank (seen + n) rest

/-- Counts that do not exceed the rank lead nowhere. -/
theorem labelOfRank_eq_none {rank : Nat} : ∀ {counted : List (L × Nat)} {seen : Nat},
    seen + (counted.map Prod.snd).sum ≤ rank → labelOfRank rank seen counted = none
  | [], seen, _ => rfl
  | (label, n) :: rest, seen, few => by
    rw [List.map_cons, List.sum_cons] at few
    rw [labelOfRank, if_neg (by omega)]
    exact labelOfRank_eq_none (by omega)

/-- Counts that exceed the rank do so at some label. -/
theorem exists_labelOfRank {rank : Nat} : ∀ {counted : List (L × Nat)} {seen : Nat}, seen ≤ rank →
    rank < seen + (counted.map Prod.snd).sum →
      ∃ before c after, counted = before ++ c :: after ∧ labelOfRank rank seen counted = some c.1 ∧
        seen + (before.map Prod.snd).sum ≤ rank ∧ rank < seen + (before.map Prod.snd).sum + c.2
  | [], seen, few, enough => absurd enough few.not_gt
  | (label, n) :: rest, seen, few, enough => by
    rw [List.map_cons, List.sum_cons, ← Nat.add_assoc] at enough
    by_cases here : rank < seen + n
    · exact ⟨[], (label, n), rest, rfl, if_pos here, few, here⟩
    · obtain ⟨before, c, after, rfl, found, below, above⟩ :=
        exists_labelOfRank (Nat.le_of_not_lt here) enough
      refine ⟨(label, n) :: before, c, after, rfl, ?_, ?_, ?_⟩
      · rw [labelOfRank, if_neg here, found]
      · rw [List.map_cons, List.sum_cons, ← Nat.add_assoc]
        exact below
      · rw [List.map_cons, List.sum_cons, ← Nat.add_assoc]
        exact above

/-- More than `rank` values of a kind are not all before the rank. -/
theorem exists_mem_drop {p : α → Bool} {ranked : List α} {rank : Nat}
    (many : rank < ranked.countP p) : ∃ v ∈ ranked.drop rank, p v = true := by
  have parts : ranked.countP p = (ranked.take rank).countP p + (ranked.drop rank).countP p := by
    rw [← List.countP_append, List.take_append_drop]
  have few := (ranked.take rank).countP_le_length (p := p)
  have length := ranked.length_take_le rank
  exact List.countP_pos_iff.1 (by omega)

/-- At most `rank` values of a kind are not all up to the rank. -/
theorem exists_mem_take {p : α → Bool} {ranked : List α} {rank : Nat}
    (few : ranked.countP p ≤ rank) (inside : rank < ranked.length) :
    ∃ v ∈ ranked.take (rank + 1), p v = false := by
  by_contra! all
  have kind : ∀ v ∈ ranked.take (rank + 1), p v = true := fun v member =>
    Bool.eq_true_of_not_eq_false (all v member)
  have many := List.countP_eq_length.2 kind
  have part := (List.take_sublist (rank + 1) ranked).countP_le (p := p)
  rw [List.length_take_of_le (Nat.succ_le_of_lt inside)] at many
  omega

/-- Sorted values up to a rank are not above the one of that rank, and those from it on are not
below it. -/
theorem around_of_sorted {r : α → α → Prop} {ranked : List α} {rank : Nat} {x : α}
    (sorted : ranked.Pairwise r) (refl : r x x) (found : ranked[rank]? = some x) :
    (∀ v ∈ ranked.take (rank + 1), r v x) ∧ ∀ v ∈ ranked.drop rank, r x v := by
  obtain ⟨inside, rfl⟩ := List.getElem?_eq_some_iff.1 found
  have parts : ranked = ranked.take rank ++ ranked[rank] :: ranked.drop (rank + 1) := by
    rw [← List.drop_eq_getElem_cons inside, List.take_append_drop]
  rw [List.take_succ_eq_append_getElem inside, List.drop_eq_getElem_cons inside]
  generalize ranked[rank] = x at parts refl
  generalize ranked.take rank = before at parts
  generalize ranked.drop (rank + 1) = after at parts
  subst parts
  obtain ⟨-, sorted', across⟩ := List.pairwise_append.1 sorted
  constructor
  · intro v member
    rcases List.mem_append.1 member with first | last
    · exact across v first x List.mem_cons_self
    · exact List.mem_singleton.1 last ▸ refl
  · intro v member
    rcases List.mem_cons.1 member with rfl | later
    · exact refl
    · exact (List.pairwise_cons.1 sorted').1 v later

theorem countP_or {p q : α → Prop} [DecidablePred p] [DecidablePred q]
    (disjoint : ∀ v, p v → ¬ q v) (vs : List α) :
    vs.countP (fun v => p v ∨ q v) = vs.countP (fun v => p v) + vs.countP (fun v => q v) := by
  induction vs with
  | nil => rfl
  | cons v rest ih =>
    rw [List.countP_cons, List.countP_cons, List.countP_cons, ih]
    by_cases first : p v
    · simp only [first, disjoint v first, true_or, decide_true, decide_false, if_true,
        Bool.false_eq_true, if_false]
      omega
    · simp only [first, false_or, decide_false, Bool.false_eq_true, if_false]
      omega

variable [LinearOrder L] {f : α → L} {counted : List (L × Nat)} {vs ranked : List α} {x : α}
  {rank : Nat}

/-- Ascending labels, each with the number of the values that have it; every value has one of
them. -/
structure Distribution (f : α → L) (counted : List (L × Nat)) (vs : List α) : Prop where
  ascending : (counted.map Prod.fst).Pairwise (· < ·)
  counts : ∀ c ∈ counted, c.2 = vs.countP fun v => f v = c.1
  covered : ∀ v ∈ vs, f v ∈ counted.map Prod.fst

theorem Distribution.perm (distribution : Distribution f counted vs) (perm : vs.Perm ranked) :
    Distribution f counted ranked :=
  ⟨distribution.ascending, fun c member => (distribution.counts c member).trans (perm.countP_eq _),
    fun v member => distribution.covered v (perm.mem_iff.2 member)⟩

/-- The counts of different labels add up to the number of values that have one of them. -/
theorem sum_counts : ∀ {counted : List (L × Nat)}, (counted.map Prod.fst).Nodup →
    (∀ c ∈ counted, c.2 = vs.countP fun v => f v = c.1) →
      (counted.map Prod.snd).sum = vs.countP fun v => f v ∈ counted.map Prod.fst
  | [], _, _ => by simp
  | c :: rest, distinct, counts => by
    rw [List.map_cons, List.nodup_cons] at distinct
    have others := sum_counts distinct.2 fun d member => counts d (List.mem_cons_of_mem _ member)
    have apart : ∀ v, f v = c.1 → ¬ f v ∈ rest.map Prod.fst := fun v same member =>
      distinct.1 (same ▸ member)
    rw [List.map_cons, List.sum_cons, others, counts c List.mem_cons_self, ← countP_or apart]
    simp only [List.map_cons, List.mem_cons]

/-- All values are counted. -/
theorem Distribution.sum_eq (distribution : Distribution f counted vs) :
    (counted.map Prod.snd).sum = vs.length := by
  rw [sum_counts (distribution.ascending.imp fun less => less.ne) distribution.counts,
    List.countP_eq_length]
  exact fun v member => decide_eq_true (distribution.covered v member)

/-- Adding up the counts ends between the labels of a value up to the rank and of one from it on. -/
theorem Distribution.between (distribution : Distribution f counted ranked)
    (inside : rank < ranked.length) : ∃ label, labelOfRank rank 0 counted = some label ∧
      (∃ v ∈ ranked.take (rank + 1), label ≤ f v) ∧ ∃ v ∈ ranked.drop rank, f v ≤ label := by
  obtain ⟨before, c, after, rfl, found, seen, exceeded⟩ := exists_labelOfRank (Nat.zero_le rank)
    (inside.trans_eq (distribution.sum_eq.symm.trans (Nat.zero_add _).symm))
  refine ⟨c.1, found, ?_⟩
  have ascending := distribution.ascending
  rw [List.map_append, List.map_cons, List.pairwise_append, List.pairwise_cons] at ascending
  obtain ⟨ascending, ⟨above, -⟩, below⟩ := ascending
  have sum := sum_counts (ascending.imp fun less => less.ne) fun d first =>
    distribution.counts d (List.mem_append_left _ first)
  have here := distribution.counts c (List.mem_append_right _ List.mem_cons_self)
  have covered : ∀ v ∈ ranked,
      f v ∈ before.map Prod.fst ∨ f v = c.1 ∨ f v ∈ after.map Prod.fst := by
    intro v member
    have label := distribution.covered v member
    rwa [List.map_append, List.map_cons, List.mem_append, List.mem_cons] at label
  rw [Nat.zero_add, sum] at seen exceeded
  constructor
  · have few : ranked.countP (fun v => f v < c.1) ≤ rank := by
      refine (List.countP_mono_left fun v some_ less => decide_eq_true ?_).trans seen
      rcases covered v some_ with first | same | last
      · exact first
      · exact absurd same (of_decide_eq_true less).ne
      · exact absurd (above _ last) (of_decide_eq_true less).not_gt
    obtain ⟨v, member, not_⟩ := exists_mem_take few inside
    exact ⟨v, member, not_lt.1 (of_decide_eq_false not_)⟩
  · have many : rank < ranked.countP fun v => f v ≤ c.1 := by
      have apart : ∀ v, f v ∈ before.map Prod.fst → ¬ f v = c.1 := fun v first =>
        (below _ first _ List.mem_cons_self).ne
      rw [here, ← countP_or apart] at exceeded
      refine exceeded.trans_le (List.countP_mono_left fun v some_ label => decide_eq_true ?_)
      rcases of_decide_eq_true label with first | same
      · exact (below _ first _ List.mem_cons_self).le
      · exact same.le
    obtain ⟨v, member, le⟩ := exists_mem_drop many
    exact ⟨v, member, of_decide_eq_true le⟩

/-- If labels ascend with the values, adding up the counts finds the label of the value of a
rank. -/
theorem Distribution.labelOfRank (distribution : Distribution f counted ranked)
    (sorted : ranked.Pairwise fun a b => f a ≤ f b) (found : ranked[rank]? = some x) :
    labelOfRank rank 0 counted = some (f x) := by
  obtain ⟨inside, -⟩ := List.getElem?_eq_some_iff.1 found
  obtain ⟨upTo, onward⟩ := around_of_sorted sorted le_rfl found
  obtain ⟨label, reached, ⟨v, first, low⟩, w, last, high⟩ := distribution.between inside
  rw [reached, le_antisymm (low.trans (upTo v first)) ((onward w last).trans high)]

end Metering
