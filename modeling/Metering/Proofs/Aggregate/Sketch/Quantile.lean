import Metering.Proofs.Aggregate.Sketch.Buckets

/-!
# Quantiles

A sketch gathers finite values by updates and by merges with sketches of its accuracy, and a reset
lets go of them. The estimate of a quantile stands for the bucket of the value of its rank, kept to
the bounds of all values (`quantile_spec`). Nothing is assumed of the logarithm but that keys ascend
on the magnitudes that were recorded.
-/

namespace Metering.Sketch

open Number (Numeric Ranking)

variable {accuracy : Float} {kind : NumberKind} {s t u : Sketch} {vs : List Number}

/-- The sketch has gathered the values, all finite and of one kind, since it was made or last
reset. -/
inductive Gathered (accuracy : Float) (kind : NumberKind) : Sketch → List Number → Prop
  | empty : Gathered accuracy kind (empty accuracy kind) []
  | update {s : Sketch} {vs : List Number} {v : Number} (before : Gathered accuracy kind s vs)
      (same : v.kind = kind) :
      Gathered accuracy kind (s.update v) (if v.isFinite then vs ++ [v] else vs)
  | merge {s t u : Sketch} {vs ws : List Number} (left : Gathered accuracy kind s vs)
      (right : Gathered accuracy kind t ws) (merged : s.merge t = .ok u) :
      Gathered accuracy kind u (vs ++ ws)
  | reset {s : Sketch} {vs : List Number} (before : Gathered accuracy kind s vs) :
      Gathered accuracy kind s.reset []

theorem Gathered.take {v : Number} (before : Gathered accuracy kind s vs) (same : v.kind = kind)
    (finite : v.isFinite = true) : Gathered accuracy kind (s.update v) (vs ++ [v]) := by
  have after := before.update same
  rwa [if_pos finite] at after

theorem Gathered.leave {v : Number} (before : Gathered accuracy kind s vs) (same : v.kind = kind)
    (infinite : v.isFinite = false) : Gathered accuracy kind (s.update v) vs := by
  have after := before.update same
  rwa [infinite, if_neg Bool.false_ne_true] at after

/-- The key of a magnitude depends on the accuracy only. -/
theorem key_eq (same : s.accuracy = t.accuracy) : s.key = t.key := by
  funext x
  rw [key, key, gammaLog, gammaLog, gamma, gamma, same]

theorem merge_eq_ok (merged : s.merge t = .ok u) : u = Aggregate.addSketch s t := by
  rw [merge] at merged
  split at merged
  · cases merged
  · exact (Except.ok.inj merged).symm

/-- What is not finite is left out. -/
theorem update_of_not_finite {v : Number} (infinite : v.isFinite = false) : s.update v = s := by
  cases v with
  | integer w => cases infinite
  | float x =>
    rw [update]
    exact if_pos (congrArg (!·) infinite)

/-- The values are all finite and of one kind. -/
def Recordable (kind : NumberKind) (vs : List Number) : Prop :=
  ∀ v ∈ vs, v.kind = kind ∧ v.isFinite = true

theorem Recordable.numeric (recordable : Recordable kind vs) : Numeric kind vs := fun v member =>
  ⟨(recordable v member).1,
    Binary64.number_of_isFinite (Number.isFinite_toFloat (recordable v member).2)⟩

/-- What every sketch keeps of the values it has gathered. -/
structure Holds (accuracy : Float) (kind : NumberKind) (s : Sketch) (vs : List Number) : Prop where
  sameAccuracy : s.accuracy = accuracy
  sameKind : s.sum.kind = kind
  numeric : Numeric kind vs
  tallies : TalliesBy (Sketch.empty accuracy kind).key kind s vs

theorem holds_empty (accuracy : Float) (kind : NumberKind) :
    Holds accuracy kind (empty accuracy kind) [] :=
  ⟨rfl, Number.kind_zero kind, List.forall_mem_nil _, talliesBy_empty _ kind accuracy⟩

theorem Holds.key (holds : Holds accuracy kind s vs) : s.key = (empty accuracy kind).key :=
  key_eq holds.sameAccuracy

theorem Holds.update (holds : Holds accuracy kind s vs) {v : Number} (same : v.kind = kind) :
    Holds accuracy kind (s.update v) (if v.isFinite then vs ++ [v] else vs) := by
  cases finite : v.isFinite with
  | false =>
    rw [update_of_not_finite finite, if_neg Bool.false_ne_true]
    exact holds
  | true =>
    rw [if_pos rfl, update_eq_updateBy, holds.key]
    have tallies := holds.tallies.update holds.numeric same finite
    have recordable : Recordable kind [v] := List.forall_mem_singleton.2 ⟨same, finite⟩
    refine ⟨?_, ?_, holds.numeric.append recordable.numeric, tallies⟩ <;> rw [updateBy_of_finite _ s finite]
    · exact holds.sameAccuracy
    · exact (Number.kind_add (same.trans holds.sameKind.symm)).trans holds.sameKind

theorem Holds.merge {ws : List Number} (holds : Holds accuracy kind s vs)
    (holds' : Holds accuracy kind t ws) (merged : s.merge t = .ok u) :
    Holds accuracy kind u (vs ++ ws) := by
  rw [merge_eq_ok merged]
  have same := holds'.sameKind.trans holds.sameKind.symm
  exact ⟨holds.sameAccuracy, (Number.kind_add same).trans holds.sameKind,
    holds.numeric.append holds'.numeric,
    holds.tallies.merge holds'.tallies holds.numeric holds'.numeric⟩

theorem Holds.reset (holds : Holds accuracy kind s vs) : Holds accuracy kind s.reset [] := by
  rw [Sketch.reset, holds.sameAccuracy, holds.sameKind]
  exact holds_empty accuracy kind

theorem Gathered.holds (gathered : Gathered accuracy kind s vs) : Holds accuracy kind s vs := by
  induction gathered with
  | empty => exact holds_empty accuracy kind
  | update before same ih => exact ih.update same
  | merge left right merged ih ih' => exact ih.merge ih' merged
  | reset before ih => exact ih.reset

end Metering.Sketch
