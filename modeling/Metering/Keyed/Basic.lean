/-!
# Finite maps in ascending key order

`Keyed κ ν` is a list of entries whose keys strictly ascend, so a map has one representation and
its order is the order in which it is listed. What each operation does to `get?` is said in
`Metering.Keyed.Lemmas`.
-/

namespace Metering

/-- A finite map, listed with its keys in strictly ascending order. -/
structure Keyed (κ ν : Type) [Ord κ] where
  /-- The entries, smallest key first. -/
  entries : List (κ × ν) := []
  /-- The keys strictly ascend, so no key occurs twice. -/
  ascending : entries.Pairwise (fun a b => compare a.1 b.1 = .lt) := by simp
deriving DecidableEq

namespace Keyed

variable {κ ν μ : Type} [Ord κ]

instance : EmptyCollection (Keyed κ ν) := ⟨{}⟩

instance : Inhabited (Keyed κ ν) := ⟨∅⟩

/-- The value of the first entry under `k`. -/
def find? (k : κ) : List (κ × ν) → Option ν
  | [] => none
  | (k', v) :: rest => if compare k k' = .eq then some v else find? k rest

/-- The value under `k`, if there is one. -/
def get? (m : Keyed κ ν) (k : κ) : Option ν := find? k m.entries

/-- Whether there is a value under `k`. -/
def contains (m : Keyed κ ν) (k : κ) : Bool := (m.get? k).isSome

/-- The entries in key order. -/
def toList (m : Keyed κ ν) : List (κ × ν) := m.entries

/-- The keys in order. -/
def keys (m : Keyed κ ν) : List κ := m.entries.map (·.1)

/-- The values in key order. -/
def values (m : Keyed κ ν) : List ν := m.entries.map (·.2)

/-- The number of entries. -/
def size (m : Keyed κ ν) : Nat := m.entries.length

/-- Whether there are no entries. -/
def isEmpty (m : Keyed κ ν) : Bool := m.entries.isEmpty

/-- Puts `f` of the value under `k`, or of `none`, at the place of `k`. -/
def upsertEntries (k : κ) (f : Option ν → ν) : List (κ × ν) → List (κ × ν)
  | [] => [(k, f none)]
  | (k', v) :: rest =>
    match compare k k' with
    | .lt => (k, f none) :: (k', v) :: rest
    | .eq => (k', f (some v)) :: rest
    | .gt => (k', v) :: upsertEntries k f rest

theorem compare_of_mem_upsertEntries {k : κ} {f : Option ν → ν} {l : List (κ × ν)} {x : κ × ν}
    {c : κ} (later : ∀ y ∈ l, compare c y.1 = .lt) (before : compare c k = .lt)
    (member : x ∈ upsertEntries k f l) : compare c x.1 = .lt := by
  induction l with
  | nil =>
    simp only [upsertEntries, List.mem_singleton] at member
    subst member; exact before
  | cons head rest ih =>
    obtain ⟨k', v⟩ := head
    have first : compare c k' = .lt := later (k', v) List.mem_cons_self
    have others : ∀ y ∈ rest, compare c y.1 = .lt :=
      fun y hy => later y (List.mem_cons_of_mem _ hy)
    unfold upsertEntries at member
    split at member <;> simp only [List.mem_cons] at member
    · rcases member with rfl | rfl | tail
      · exact before
      · exact first
      · exact others x tail
    · rcases member with rfl | tail
      · exact first
      · exact others x tail
    · rcases member with rfl | tail
      · exact first
      · exact ih others tail

section
variable [Std.TransOrd κ]

theorem ascending_upsertEntries (k : κ) (f : Option ν → ν) {l : List (κ × ν)}
    (ascending : l.Pairwise (fun a b => compare a.1 b.1 = .lt)) :
    (upsertEntries k f l).Pairwise (fun a b => compare a.1 b.1 = .lt) := by
  induction l with
  | nil => simp [upsertEntries]
  | cons head rest ih =>
    obtain ⟨k', v⟩ := head
    obtain ⟨first, others⟩ := List.pairwise_cons.1 ascending
    unfold upsertEntries
    split
    · rename_i less
      refine List.pairwise_cons.2 ⟨fun y hy => ?_, ascending⟩
      rcases List.mem_cons.1 hy with rfl | tail
      · exact less
      · exact Std.TransCmp.lt_trans less (first y tail)
    · exact List.pairwise_cons.2 ⟨first, others⟩
    · rename_i greater
      have less : compare k' k = .lt := Std.OrientedCmp.lt_of_gt greater
      exact List.pairwise_cons.2
        ⟨fun y hy => compare_of_mem_upsertEntries first less hy, ih others⟩

/-- Puts `f` of the value under `k`, or of `none` if there is none, under `k`. -/
def upsert (m : Keyed κ ν) (k : κ) (f : Option ν → ν) : Keyed κ ν where
  entries := upsertEntries k f m.entries
  ascending := ascending_upsertEntries k f m.ascending

/-- Puts `v` under `k`, whatever was there. -/
def insert (m : Keyed κ ν) (k : κ) (v : ν) : Keyed κ ν := m.upsert k fun _ => v

/-- The map of a list of entries; a later entry under the same key wins. -/
def ofList (l : List (κ × ν)) : Keyed κ ν := l.foldl (fun m e => m.insert e.1 e.2) ∅

end

/-- Changes the value under `k`, if there is one. -/
def modify (m : Keyed κ ν) (k : κ) (f : ν → ν) : Keyed κ ν where
  entries := m.entries.map fun e => if compare k e.1 = .eq then (e.1, f e.2) else e
  ascending := by
    refine m.ascending.map _ fun a b less => ?_
    split <;> split <;> simpa using less

/-- Changes every value. -/
def map (m : Keyed κ ν) (f : ν → μ) : Keyed κ μ where
  entries := m.entries.map fun e => (e.1, f e.2)
  ascending := m.ascending.map _ fun _ _ less => less

/-- Keeps the entries that satisfy `p`. -/
def filter (m : Keyed κ ν) (p : κ → ν → Bool) : Keyed κ ν where
  entries := m.entries.filter fun e => p e.1 e.2
  ascending := m.ascending.filter _

/-- Removes the entry under `k`, if there is one. -/
def erase (m : Keyed κ ν) (k : κ) : Keyed κ ν := m.filter fun k' _ => compare k k' != .eq

end Keyed

end Metering
