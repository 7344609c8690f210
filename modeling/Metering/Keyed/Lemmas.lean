import Metering.Keyed.Basic

/-!
# What the operations on maps do to `get?`

A map is seen through `get?`. `get?_upsert_self` and `get?_upsert_of_ne` say what an update
changes and what it leaves, `get?_modify`, `get?_map` and `get?_filter` do so for the other
operations, and `ext_get?` says that two maps which answer every key alike are equal.
-/

namespace Metering.Keyed

variable {κ ν μ : Type} [Ord κ]

@[simp] theorem get?_empty (k : κ) : (∅ : Keyed κ ν).get? k = none := rfl

/-- A key that precedes every entry has no value. -/
theorem find?_eq_none {k : κ} {l : List (κ × ν)} (beyond : ∀ y ∈ l, compare k y.1 = .lt) :
    find? k l = none := by
  induction l with
  | nil => rfl
  | cons y ys ih =>
    have first := beyond y List.mem_cons_self
    simp only [find?, first, reduceCtorEq, if_false]
    exact ih fun z hz => beyond z (List.mem_cons_of_mem _ hz)

@[simp] theorem get?_modify_self (m : Keyed κ ν) (k : κ) (f : ν → ν) :
    (m.modify k f).get? k = (m.get? k).map f := by
  obtain ⟨l, ascending⟩ := m
  simp only [get?, modify]
  clear ascending
  induction l with
  | nil => rfl
  | cons head rest ih =>
    simp only [List.map_cons, find?]
    split
    · rename_i same
      simp
    · rename_i apart
      simpa [apart] using ih

@[simp] theorem get?_map (m : Keyed κ ν) (f : ν → μ) (k : κ) :
    (m.map f).get? k = (m.get? k).map f := by
  obtain ⟨l, ascending⟩ := m
  simp only [get?, map]
  clear ascending
  induction l with
  | nil => rfl
  | cons head rest ih =>
    simp only [List.map_cons, find?]
    split
    · rfl
    · exact ih

section
variable [Std.LawfulEqOrd κ]

theorem mem_entries_iff (m : Keyed κ ν) (k : κ) (v : ν) :
    (k, v) ∈ m.entries ↔ m.get? k = some v := by
  obtain ⟨l, ascending⟩ := m
  simp only [get?]
  induction l with
  | nil => simp [find?]
  | cons head rest ih =>
    obtain ⟨k', v'⟩ := head
    obtain ⟨first, others⟩ := List.pairwise_cons.1 ascending
    simp only [List.mem_cons, Prod.mk.injEq, find?]
    split
    · rename_i same
      have : k = k' := Std.LawfulEqOrd.eq_of_compare same
      subst this
      constructor
      · rintro (⟨-, rfl⟩ | tail)
        · rfl
        · simpa using first _ tail
      · rintro ⟨⟩
        exact Or.inl ⟨rfl, rfl⟩
    · rename_i apart
      rw [← ih others]
      constructor
      · rintro (⟨rfl, -⟩ | tail)
        · simp at apart
        · exact tail
      · exact Or.inr

@[simp] theorem get?_modify_of_ne (m : Keyed κ ν) {k k' : κ} (f : ν → ν) (other : k ≠ k') :
    (m.modify k f).get? k' = m.get? k' := by
  obtain ⟨l, ascending⟩ := m
  simp only [get?, modify]
  clear ascending
  induction l with
  | nil => rfl
  | cons head rest ih =>
    simp only [List.map_cons, find?]
    split
    · rename_i same
      have hit : k = head.1 := Std.LawfulEqOrd.eq_of_compare same
      have miss : compare k' head.1 ≠ .eq := fun eq =>
        other (hit.trans (Std.LawfulEqOrd.eq_of_compare eq).symm)
      simpa [miss] using ih
    · simp only [ih]

theorem get?_filter (m : Keyed κ ν) (p : κ → ν → Bool) (k : κ) :
    (m.filter p).get? k = (m.get? k).filter (p k) := by
  apply Option.ext
  intro v
  rw [← mem_entries_iff, filter, List.mem_filter, mem_entries_iff, Option.filter_eq_some_iff]

end

section
variable [Std.TransOrd κ] [Std.LawfulEqOrd κ]

@[simp] theorem get?_upsert_self (m : Keyed κ ν) (k : κ) (f : Option ν → ν) :
    (m.upsert k f).get? k = some (f (m.get? k)) := by
  obtain ⟨l, ascending⟩ := m
  simp only [get?, upsert]
  induction l with
  | nil => simp [upsertEntries, find?]
  | cons head rest ih =>
    obtain ⟨k', v⟩ := head
    obtain ⟨first, others⟩ := List.pairwise_cons.1 ascending
    unfold upsertEntries
    split
    · rename_i less
      have absent : find? k ((k', v) :: rest) = none := by
        refine find?_eq_none fun y hy => ?_
        rcases List.mem_cons.1 hy with rfl | tail
        · exact less
        · exact Std.TransCmp.lt_trans less (first y tail)
      rw [absent]
      simp [find?]
    · rename_i same
      simp [find?, same]
    · rename_i greater
      simp only [find?, greater, reduceCtorEq, if_false]
      exact ih others

@[simp] theorem get?_upsert_of_ne (m : Keyed κ ν) {k k' : κ} (f : Option ν → ν) (other : k ≠ k') :
    (m.upsert k f).get? k' = m.get? k' := by
  obtain ⟨l, ascending⟩ := m
  simp only [get?, upsert]
  have apart : compare k' k ≠ .eq := fun same => other (Std.LawfulEqOrd.eq_of_compare same).symm
  clear ascending
  induction l with
  | nil => simp [upsertEntries, find?, apart]
  | cons head rest ih =>
    obtain ⟨k'', v⟩ := head
    unfold upsertEntries
    split
    · simp [find?, apart]
    · rename_i same
      have : k = k'' := Std.LawfulEqOrd.eq_of_compare same
      subst this
      simp [find?, apart]
    · simp only [find?]
      split
      · rfl
      · exact ih

@[simp] theorem get?_insert_self (m : Keyed κ ν) (k : κ) (v : ν) :
    (m.insert k v).get? k = some v := get?_upsert_self m k fun _ => v

@[simp] theorem get?_insert_of_ne (m : Keyed κ ν) {k k' : κ} (v : ν) (other : k ≠ k') :
    (m.insert k v).get? k' = m.get? k' := get?_upsert_of_ne m (fun _ => v) other

theorem ext_get? {m n : Keyed κ ν} (same : ∀ k, m.get? k = n.get? k) : m = n := by
  have both : ∀ e, e ∈ m.entries ↔ e ∈ n.entries := by
    rintro ⟨k, v⟩
    rw [mem_entries_iff, mem_entries_iff, same k]
  obtain ⟨l, ascendingLeft⟩ := m
  obtain ⟨r, ascendingRight⟩ := n
  have : l = r := by
    clear same
    simp only at both
    induction l generalizing r with
    | nil =>
      cases r with
      | nil => rfl
      | cons y ys => exact absurd ((both y).2 List.mem_cons_self) (by simp)
    | cons x xs ih =>
      cases r with
      | nil => exact absurd ((both x).1 List.mem_cons_self) (by simp)
      | cons y ys =>
        obtain ⟨firstLeft, restLeft⟩ := List.pairwise_cons.1 ascendingLeft
        obtain ⟨firstRight, restRight⟩ := List.pairwise_cons.1 ascendingRight
        have heads : x = y := by
          rcases List.mem_cons.1 ((both x).1 List.mem_cons_self) with same | inRight
          · exact same
          rcases List.mem_cons.1 ((both y).2 List.mem_cons_self) with same | inLeft
          · exact same.symm
          have up := firstLeft y inLeft
          have down := firstRight x inRight
          have swapped : compare x.1 y.1 = (compare y.1 x.1).swap := Std.OrientedCmp.eq_swap
          rw [swapped, down] at up
          cases up
        subst heads
        congr 1
        refine ih restLeft ys restRight fun e => ?_
        have apart : ∀ {l : List (κ × ν)}, (∀ y ∈ l, compare x.1 y.1 = .lt) → x ∉ l := by
          intro l beyond inside
          simpa using beyond x inside
        constructor
        · intro inLeft
          rcases List.mem_cons.1 ((both e).1 (List.mem_cons_of_mem _ inLeft)) with rfl | tail
          · exact absurd inLeft (apart firstLeft)
          · exact tail
        · intro inRight
          rcases List.mem_cons.1 ((both e).2 (List.mem_cons_of_mem _ inRight)) with rfl | tail
          · exact absurd inRight (apart firstRight)
          · exact tail
  subst this
  rfl

end

end Metering.Keyed
