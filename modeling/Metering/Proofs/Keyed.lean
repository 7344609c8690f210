import Mathlib.Algebra.GroupWithZero.Nat
import Mathlib.Data.List.Induction
import Mathlib.Data.List.Nodup
import Mathlib.Data.List.Perm.Basic
import Metering.Keyed.Lemmas

/-!
# Maps as bags of entries

The values of a map are listed in key order, but what is counted over them does not depend on that
order. `values_perm_of_get?` takes one entry out of the bag and `values_insert_perm` puts one in, so
that a statement about all values of a map follows one insertion or removal at a time.
-/

namespace Metering.Keyed

variable {κ ν μ : Type} [Ord κ]

theorem keys_modify (m : Keyed κ ν) (k : κ) (f : ν → ν) : (m.modify k f).keys = m.keys := by
  rw [keys, modify, List.map_map, keys]
  refine List.map_congr_left fun e _ => ?_
  simp only [Function.comp]
  split <;> rfl

theorem keys_map (m : Keyed κ ν) (f : ν → μ) : (m.map f).keys = m.keys := by
  rw [keys, map, List.map_map, keys]
  rfl

/-- Changes every value, with its key at hand. -/
def mapWithKey (m : Keyed κ ν) (f : κ → ν → μ) : Keyed κ μ where
  entries := m.entries.map fun e => (e.1, f e.1 e.2)
  ascending := m.ascending.map _ fun _ _ less => less

theorem keys_mapWithKey (m : Keyed κ ν) (f : κ → ν → μ) : (m.mapWithKey f).keys = m.keys := by
  rw [keys, mapWithKey, List.map_map, keys]
  rfl

section Lookup

variable [Std.LawfulEqOrd κ]

theorem get?_mapWithKey (m : Keyed κ ν) (f : κ → ν → μ) (k : κ) :
    (m.mapWithKey f).get? k = (m.get? k).map (f k) := by
  obtain ⟨l, ascending⟩ := m
  simp only [get?, mapWithKey]
  clear ascending
  induction l with
  | nil => rfl
  | cons head rest ih =>
    simp only [List.map_cons, find?]
    split
    · rename_i same
      rw [← Std.LawfulEqOrd.eq_of_compare same, Option.map_some]
    · exact ih

theorem mem_values_iff (m : Keyed κ ν) (v : ν) : v ∈ m.values ↔ ∃ k, m.get? k = some v := by
  simp only [values, List.mem_map]
  constructor
  · rintro ⟨⟨k, w⟩, member, rfl⟩
    exact ⟨k, (m.mem_entries_iff k w).1 member⟩
  · rintro ⟨k, found⟩
    exact ⟨(k, v), (m.mem_entries_iff k v).2 found, rfl⟩

theorem get?_erase_self (m : Keyed κ ν) (k : κ) : (m.erase k).get? k = none := by
  rw [erase, get?_filter]
  simp

theorem get?_erase_of_ne (m : Keyed κ ν) {k k' : κ} (other : k ≠ k') :
    (m.erase k).get? k' = m.get? k' := by
  rw [erase, get?_filter]
  have apart : compare k k' ≠ .eq := fun same => other (Std.LawfulEqOrd.eq_of_compare same)
  cases m.get? k' with
  | none => rfl
  | some v => simp [Option.filter, apart]

theorem nodup_entries (m : Keyed κ ν) : m.entries.Nodup := by
  refine m.ascending.imp fun {a b} less same => ?_
  subst same
  simp at less

theorem nodup_keys (m : Keyed κ ν) : m.keys.Nodup := by
  refine List.pairwise_map.2 (m.ascending.imp fun {a b} less same => ?_)
  rw [same] at less
  simp at less

/-- The entry under a key can be taken out of the bag of entries. -/
theorem entries_perm_of_get? {m : Keyed κ ν} {k : κ} {v : ν} (found : m.get? k = some v) :
    m.entries.Perm ((k, v) :: (m.erase k).entries) := by
  have fresh : (k, v) ∉ (m.erase k).entries := by
    rw [mem_entries_iff, get?_erase_self]
    simp
  refine (List.perm_ext_iff_of_nodup m.nodup_entries
    (List.nodup_cons.2 ⟨fresh, (m.erase k).nodup_entries⟩)).2 ?_
  rintro ⟨k', w⟩
  rw [List.mem_cons, mem_entries_iff, mem_entries_iff, Prod.mk.injEq]
  by_cases same : k = k'
  · subst same
    rw [get?_erase_self, found]
    simp [eq_comm]
  · rw [get?_erase_of_ne m same]
    simp [Ne.symm same]

theorem values_perm_of_get? {m : Keyed κ ν} {k : κ} {v : ν} (found : m.get? k = some v) :
    m.values.Perm (v :: (m.erase k).values) :=
  (entries_perm_of_get? found).map Prod.snd

/-- Of what is made of the entries of a map, what tells that it is of a key is what is made of the
entry under that key. -/
theorem filter_filterMap {m : Keyed κ ν} {k : κ} {f : κ × ν → Option μ} {p : μ → Bool}
    (tells : ∀ k' v x, m.get? k' = some v → f (k', v) = some x → (p x = true ↔ k' = k)) :
    (m.toList.filterMap f).filter p = ((m.get? k).bind fun v => f (k, v)).toList := by
  have others : ∀ n : Keyed κ ν, n.get? k = none →
      (∀ k' v, n.get? k' = some v → m.get? k' = some v) →
      (n.toList.filterMap f).filter p = [] := by
    intro n absent within
    refine List.filter_eq_nil_iff.2 fun x member told => ?_
    obtain ⟨⟨k', v⟩, entry, made⟩ := List.mem_filterMap.1 member
    have present := (n.mem_entries_iff k' v).1 entry
    rw [(tells k' v x (within k' v present) made).1 told, absent] at present
    cases present
  cases found : m.get? k with
  | none => exact others m found fun _ _ present => present
  | some v =>
    have rest := others (m.erase k) (get?_erase_self m k) fun k' v' present => by
      by_cases same : k = k'
      · rw [← same, get?_erase_self] at present
        cases present
      · rwa [get?_erase_of_ne m same] at present
    have one := ((entries_perm_of_get? found).filterMap f).filter p
    cases made : f (k, v) with
    | none =>
      rw [List.filterMap_cons_none made] at one
      rw [Option.bind_some, made]
      exact List.perm_nil.1 (one.trans (.of_eq rest))
    | some x =>
      rw [List.filterMap_cons_some made,
        List.filter_cons_of_pos ((tells k v x found made).2 rfl)] at one
      rw [Option.bind_some, made]
      exact List.perm_singleton.1 (one.trans (.of_eq (congrArg (x :: ·) rest)))

/-- The values that tell that they are under a key are the value under that key. -/
theorem filter_values {m : Keyed κ ν} {k : κ} {p : ν → Bool}
    (tells : ∀ k' v, m.get? k' = some v → (p v = true ↔ k' = k)) :
    m.values.filter p = (m.get? k).toList := by
  have values : m.values = m.toList.filterMap fun e => some e.2 :=
    (congrFun List.filterMap_eq_map m.toList).symm
  rw [values, filter_filterMap fun k' v x present made => by
    cases made
    exact tells k' v present]
  cases m.get? k <;> rfl

end Lookup

variable [Std.TransOrd κ] [Std.LawfulEqOrd κ]

/-- A map without the entry under a key is the map itself if there is no such entry. -/
theorem erase_of_get?_none {m : Keyed κ ν} {k : κ} (absent : m.get? k = none) : m.erase k = m := by
  refine ext_get? fun k' => ?_
  by_cases same : k = k'
  · subst same
    rw [get?_erase_self, absent]
  · exact get?_erase_of_ne m same

/-- To put under a key what is there changes nothing. -/
theorem insert_of_get? {m : Keyed κ ν} {k : κ} {v : ν} (found : m.get? k = some v) :
    m.insert k v = m := by
  refine ext_get? fun k' => ?_
  by_cases same : k = k'
  · subst same
    rw [get?_insert_self, found]
  · exact get?_insert_of_ne m v same

theorem erase_insert (m : Keyed κ ν) (k : κ) (v : ν) : (m.insert k v).erase k = m.erase k := by
  refine ext_get? fun k' => ?_
  by_cases same : k = k'
  · subst same
    rw [get?_erase_self, get?_erase_self]
  · rw [get?_erase_of_ne _ same, get?_erase_of_ne _ same, get?_insert_of_ne _ _ same]

/-- Putting a value under a key adds it to the bag and takes out what was under the key. -/
theorem values_insert_perm (m : Keyed κ ν) (k : κ) (v : ν) :
    (m.insert k v).values.Perm (v :: (m.erase k).values) := by
  have taken := values_perm_of_get? (get?_insert_self m k v)
  rwa [erase_insert] at taken

/-- What is summed over the values of a map changes with a value by that value. -/
theorem sum_values_insert (m : Keyed κ ν) (k : κ) (v : ν) (weight : ν → Nat) :
    ((m.insert k v).values.map weight).sum + ((m.get? k).map weight).getD 0 =
      (m.values.map weight).sum + weight v := by
  rw [((values_insert_perm m k v).map weight).sum_nat, List.map_cons, List.sum_cons]
  cases found : m.get? k with
  | none =>
    rw [erase_of_get?_none found, Option.map_none, Option.getD_none]
    omega
  | some w =>
    rw [((values_perm_of_get? found).map weight).sum_nat, List.map_cons, List.sum_cons,
      Option.map_some, Option.getD_some]
    omega

theorem upsert_eq_insert (m : Keyed κ ν) (k : κ) (f : Option ν → ν) :
    m.upsert k f = m.insert k (f (m.get? k)) := by
  refine ext_get? fun k' => ?_
  by_cases at_ : k = k'
  · subst at_
    rw [get?_upsert_self, get?_insert_self]
  · rw [get?_upsert_of_ne _ _ at_, get?_insert_of_ne _ _ at_]

theorem modify_eq_insert {m : Keyed κ ν} {k : κ} {v : ν} (found : m.get? k = some v)
    (f : ν → ν) : m.modify k f = m.insert k (f v) := by
  refine ext_get? fun k' => ?_
  by_cases at_ : k = k'
  · subst at_
    rw [get?_modify_self, get?_insert_self, found, Option.map_some]
  · rw [get?_modify_of_ne _ _ at_, get?_insert_of_ne _ _ at_]

theorem mapWithKey_insert (m : Keyed κ ν) (f : κ → ν → μ) (k : κ) (v : ν) :
    (m.insert k v).mapWithKey f = (m.mapWithKey f).insert k (f k v) := by
  refine ext_get? fun k' => ?_
  by_cases at_ : k = k'
  · subst at_
    rw [get?_mapWithKey, get?_insert_self, get?_insert_self, Option.map_some]
  · rw [get?_mapWithKey, get?_insert_of_ne _ _ at_, get?_insert_of_ne _ _ at_, get?_mapWithKey]

/-- A map of some entries has under a key what comes last under it. -/
theorem get?_ofList [DecidableEq κ] (l : List (κ × ν)) (k : κ) :
    (ofList l).get? k = (l.filter fun e => e.1 = k).getLast?.map Prod.snd := by
  induction l using List.reverseRecOn with
  | nil => rfl
  | append_singleton rest e ih =>
    have last : ofList (rest ++ [e]) = (ofList rest).insert e.1 e.2 := by
      rw [ofList, List.foldl_append]
      rfl
    rw [last, List.filter_append]
    by_cases at_ : e.1 = k
    · subst at_
      rw [get?_insert_self, List.filter_cons_of_pos (by simp), List.filter_nil,
        List.getLast?_concat, Option.map_some]
    · rw [get?_insert_of_ne _ _ at_, ih, List.filter_cons_of_neg (by simpa using at_),
        List.filter_nil, List.append_nil]

end Metering.Keyed
