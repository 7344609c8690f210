import Metering.Proofs.Binary64.Arithmetic
import Metering.Proofs.Text
import Metering.Proofs.Workload.Run
import Metering.Workload.Synthetic

/-!
# What made-up workloads hold

Of a generator nothing is asked but that what it draws is in the range that it is drawn from
(`Generator.Lawful`). Then a made-up workload has as many steps as are asked for, each of them one
that can be drawn, and a run accepts them all.
-/

namespace Metering

/-! ## Generators -/

namespace Generator

/-- What is drawn is in its range, unless the range is empty. -/
class Lawful [Generator] : Prop where
  integer_mem (s : State) {low high : Int} (some_ : low < high) :
    low ≤ (integer low high s).1 ∧ (integer low high s).1 < high
  float_mem (s : State) {low high : Float} (some_ : low < high) :
    low ≤ (float low high s).1 ∧ (float low high s).1 < high

theorem randNat_le (s : StdGen) (n : Nat) : (randNat s 0 n).1 ≤ n := by
  have below : ∀ v, 0 + v % (n - 0 + 1) ≤ n := by
    intro v
    rw [Nat.zero_add, Nat.sub_zero]
    exact Nat.le_of_lt_succ (Nat.mod_lt v (Nat.succ_pos n))
  rw [randNat]
  dsimp only
  rw [if_neg (Nat.not_lt_zero _), if_neg (Nat.not_lt_zero _)]
  exact below _

theorem standardInteger_mem (s : StdGen) {low high : Int} (some_ : low < high) :
    low ≤ (standardInteger low high s).1 ∧ (standardInteger low high s).1 < high := by
  have most := randNat_le s (high - low - 1).toNat
  rw [standardInteger]
  dsimp only
  omega

theorem standardFloat_mem (s : StdGen) {low high : Float} (some_ : low < high) :
    low ≤ (standardFloat low high s).1 ∧ (standardFloat low high s).1 < high := by
  obtain ⟨number, -, -⟩ := Binary64.lt_iff.1 some_
  rw [standardFloat]
  dsimp only
  split
  · rename_i inside
    exact inside
  · exact ⟨Binary64.le_iff.2 ⟨number, number, le_rfl⟩, some_⟩

instance : @Lawful standard where
  integer_mem s _ _ some_ := standardInteger_mem s some_
  float_mem s _ _ some_ := standardFloat_mem s some_

end Generator

namespace Workload

/-! ## Steps that can be drawn -/

/-- The value of a step that can be drawn is finite. -/
theorem Step.isFinite_of_isDrawable {s : Step} (drawable : s.isDrawable = true) :
    s.value.isFinite = true := by
  obtain ⟨target, x, labels⟩ := s
  have ranged := (Bool.and_eq_true_iff.1 drawable).1
  cases target with
  | counter =>
    simp only [Bool.and_eq_true, decide_eq_true_eq] at ranged
    exact Binary64.isFinite_of_between ranged.1.2 (Binary64.le_of_lt ranged.2) (by decide +kernel)
      (by decide +kernel)
  | upDownCounter =>
    simp only [Bool.and_eq_true, decide_eq_true_eq] at ranged
    exact Binary64.isFinite_of_between ranged.1.2 ranged.2 (by decide +kernel) (by decide +kernel)
  | valueRecorder =>
    simp only [Bool.and_eq_true, decide_eq_true_eq] at ranged
    exact Binary64.isFinite_of_between ranged.1 (Binary64.le_of_lt ranged.2) (by decide +kernel)
      (by decide +kernel)

/-- Its labels fit on a line. -/
theorem Step.oneLine_of_isDrawable {s : Step} (drawable : s.isDrawable = true) :
    Text.OneLine s.labels.canonical := by
  have each : ∀ route ∈ routes, Text.OneLine (routeLabels route).canonical := by decide +kernel
  obtain ⟨route, member, labels⟩ := List.any_eq_true.1 (Bool.and_eq_true_iff.1 drawable).2
  rw [of_decide_eq_true labels]
  exact each route member

theorem any_routes (place : Nat) :
    (routes.any fun route => routeLabels (routes.getD place "/") = routeLabels route) = true := by
  refine List.any_eq_true.2 ⟨routes.getD place "/", ?_, decide_eq_true rfl⟩
  rw [List.getD_eq_getElem?_getD]
  cases found : routes[place]? with
  | none => exact List.mem_cons_self
  | some route => exact List.mem_of_getElem? found

/-- The integers that are drawn for counters can be added to them. -/
theorem counts_in_range {n : Int} (low : 0 ≤ n) (high : n < 10) :
    (Binary64.isIntegral (Float.ofInt n) && 0.0 ≤ Float.ofInt n && Float.ofInt n < 10.0) = true ∧
      ¬ Binary64.toInt64 (Float.ofInt n) < 0 := by
  have each : ∀ k < 10, (Binary64.isIntegral (Float.ofInt (k : Nat)) &&
      0.0 ≤ Float.ofInt k && Float.ofInt k < 10.0) = true ∧
        ¬ Binary64.toInt64 (Float.ofInt k) < 0 := by decide +kernel
  obtain ⟨k, rfl⟩ := Int.eq_ofNat_of_zero_le low
  exact each k (by omega)

theorem changes_in_range {n : Int} (low : -5 ≤ n) (high : n < 6) :
    (Binary64.isIntegral (Float.ofInt n) && -5.0 ≤ Float.ofInt n && Float.ofInt n ≤ 5.0) =
      true := by
  have each : ∀ k < 11, (Binary64.isIntegral (Float.ofInt ((k : Nat) - 5)) &&
      -5.0 ≤ Float.ofInt (k - 5) && Float.ofInt (k - 5) ≤ 5.0) = true := by decide +kernel
  obtain ⟨k, same⟩ := Int.eq_ofNat_of_zero_le (by omega : 0 ≤ n + 5)
  have ranged := each k (by omega)
  rwa [← same, Int.add_sub_cancel] at ranged

/-! ## Drawing -/

variable [Generator]

theorem length_drawFrom (count : Nat) : ∀ (place : Nat) (s : Generator.State),
    (drawFrom place s count).length = count := by
  induction count with
  | zero => exact fun _ _ => rfl
  | succ count ih => exact fun place s => congrArg (· + 1) (ih (place + 1) _)

/-- What holds of every step that is drawn holds of all. -/
theorem forall_drawFrom {holds : Step → Prop} (each : ∀ place s, holds (draw place s).1)
    (count : Nat) : ∀ place s, ∀ step ∈ drawFrom place s count, holds step := by
  induction count with
  | zero => exact fun _ _ _ none_ => nomatch none_
  | succ count ih =>
    intro place s
    exact List.forall_mem_cons.2 ⟨each place s, ih (place + 1) _⟩

variable [Generator.Lawful]

/-- Every step that is drawn is one that can be drawn, and adds no negative number to a counter. -/
theorem isDrawable_draw (place : Nat) (s : Generator.State) :
    (draw place s).1.isDrawable = true ∧ (draw place s).1.accepted = true := by
  rw [draw]
  dsimp only
  generalize Generator.integer 0 routes.length s = first
  obtain ⟨route, s⟩ := first
  have labels := any_routes route.toNat
  generalize routeLabels (routes.getD route.toNat "/") = l at labels
  split
  · obtain ⟨low, high⟩ := Generator.Lawful.integer_mem s (by decide : (0 : Int) < 10)
    obtain ⟨ranged, positive⟩ := counts_in_range low high
    refine ⟨Bool.and_eq_true_iff.2 ⟨ranged, labels⟩, ?_⟩
    rw [Step.accepted, decide_eq_false positive, Bool.and_false]
    rfl
  · obtain ⟨low, high⟩ := Generator.Lawful.integer_mem s (by decide : (-5 : Int) < 6)
    exact ⟨Bool.and_eq_true_iff.2 ⟨changes_in_range low high, labels⟩, rfl⟩
  · obtain ⟨low, high⟩ := Generator.Lawful.float_mem s (by decide +kernel : (0.5 : Float) < 250.0)
    have ranged := Bool.and_eq_true_iff.2 ⟨decide_eq_true low, decide_eq_true high⟩
    exact ⟨Bool.and_eq_true_iff.2 ⟨ranged, labels⟩, rfl⟩

/-- A made-up workload has as many steps as are asked for. All of them can be drawn, so their values
and labels are those of the three targets, and a run accepts them. -/
theorem synthetic_drawable (seed : UInt64) (count : Nat) :
    (synthetic seed count).length = count ∧
      ∀ s ∈ synthetic seed count, s.isDrawable = true ∧ s.accepted = true :=
  ⟨length_drawFrom count 0 _, forall_drawFrom isDrawable_draw count 0 _⟩

end Workload

end Metering
