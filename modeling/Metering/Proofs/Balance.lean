import Metering.Proofs.Aggregate.Fold
import Metering.Proofs.Turn

/-!
# What becomes of the values that are accepted

The events of an instrument say which values each of its series accepted and which records were
taken from it. `Instrument.Balanced` compares the two: the accepted values, in their order, are cut
into portions, one for each record, and a rest that the live aggregate holds. Every turn keeps this.
-/

namespace Metering

/-! ## The values and records of one series -/

/-- The values that were accepted for some canonical labels, in their order. Events are listed
latest first. -/
def valuesOf (l : String) : List Event → List Number
  | [] => []
  | .accepted _ l' v :: rest => if l' = l then valuesOf l rest ++ [v] else valuesOf l rest
  | .swept _ _ _ :: rest => valuesOf l rest

/-- Those of the values that were accepted after the latest sweep. -/
def pendingOf (l : String) : List Event → List Number
  | [] => []
  | .accepted _ l' v :: rest => if l' = l then pendingOf l rest ++ [v] else pendingOf l rest
  | .swept _ _ _ :: _ => []

/-- The records that were taken from the series of some canonical labels, in their order. -/
def recordsOf (l : String) : List Event → List Record
  | [] => []
  | .accepted _ _ _ :: rest => recordsOf l rest
  | .swept _ _ records :: rest => recordsOf l rest ++ records.filter fun r => r.labels = l

/-- Records of one name belong to a series by their labels. -/
theorem filter_key {records : List Record} {name : String} (names : ∀ r ∈ records, r.name = name)
    (n l : String) : (records.filter fun r => r.key = ⟨n, l⟩) =
      if name = n then records.filter fun r => r.labels = l else [] := by
  split
  · rename_i same
    exact List.filter_congr fun r member => by simp [Record.key, names r member, same]
  · rename_i other
    refine List.filter_eq_nil_iff.2 fun r member key => other ?_
    rw [← names r member]
    exact congrArg SeriesKey.name (of_decide_eq_true key)

namespace Instrument

/-- The aggregate of some values that the instrument accepted. -/
def ofValues (i : Instrument) (vs : List Number) : Aggregate :=
  Aggregate.ofValues i.descriptor.numberKind i.aggregation (vs.map i.descriptor.number)

/-- The values that a series accepted are cut into the portions of its records and the rest that it
still holds. -/
structure Balanced (i : Instrument) (notes : List Event) (l : String) : Prop where
  checked : ∀ v ∈ valuesOf l notes, i.descriptor.check v = .ok ()
  numberKind : (i.aggregator l).numberKind = i.descriptor.numberKind
  live : (i.aggregator l).live = i.ofValues (pendingOf l notes)
  registered : pendingOf l notes ≠ [] → ∃ s, i.series.get? l = some s
  portions : ∃ portions : List (List Number),
    valuesOf l notes = portions.flatten ++ pendingOf l notes ∧
    (recordsOf l notes).map Record.value = portions.map i.ofValues

variable {i j : Instrument} {notes : List Event} {l : String}

theorem kinds_number (d : Descriptor) (vs : List Number) :
    ∀ v ∈ vs.map d.number, v.kind = d.numberKind := by
  intro v member
  obtain ⟨v', -, rfl⟩ := List.mem_map.1 member
  exact d.kind_number v'

theorem ofValues_concat (i : Instrument) (vs : List Number) (v : Number) :
    i.ofValues (vs ++ [v]) = (i.ofValues vs).update (i.descriptor.number v) := by
  rw [ofValues, List.map_append]
  exact Aggregate.ofValues_concat _ _

theorem reset_ofValues (i : Instrument) (vs : List Number) :
    (i.ofValues vs).reset = i.ofValues [] :=
  Aggregate.reset_ofValues i.aggregation (kinds_number i.descriptor vs)

/-- A value that passed the checks is added to the live aggregate. -/
theorem live_update {a : Aggregator} {v : Number} (kind : a.numberKind = i.descriptor.numberKind)
    (checked : i.descriptor.check v = .ok ()) :
    (a.update (i.descriptor.number v)).numberKind = a.numberKind ∧
      (a.update (i.descriptor.number v)).live = a.live.update (i.descriptor.number v) := by
  have same : (i.descriptor.number v).convert a.numberKind = i.descriptor.number v := by
    rw [kind, ← i.descriptor.kind_number v, Number.convert_kind]
  have finite := (Descriptor.check_eq_ok_iff.1 checked).1
  rw [Aggregator.update, if_pos finite, same]
  exact ⟨rfl, rfl⟩

theorem balanced_of_same (balanced : i.Balanced notes l) (keeps : i.Keeps j)
    (same : j.aggregator l = i.aggregator l) : j.Balanced notes l where
  checked v member := keeps.descriptor ▸ balanced.checked v member
  numberKind := by rw [same, keeps.descriptor, balanced.numberKind]
  live := by rw [same, balanced.live, ofValues, ofValues, keeps.descriptor, keeps.aggregation]
  registered pending := by
    obtain ⟨s, found⟩ := balanced.registered pending
    obtain ⟨s', found', -⟩ := keeps.kept l s found
    exact ⟨s', found'⟩
  portions := by
    have alike : j.ofValues = i.ofValues := by
      funext vs
      rw [ofValues, ofValues, keeps.descriptor, keeps.aggregation]
    rw [alike]
    exact balanced.portions

/-! ## Turns -/

theorem balanced_new (d : Descriptor) (aggregation : Aggregation) (callback : Option Callback)
    (l : String) : (Instrument.new d aggregation callback).Balanced [] l where
  checked _ member := nomatch member
  numberKind := Aggregate.numberKind_empty d.numberKind aggregation
  live := rfl
  registered pending := absurd rfl pending
  portions := ⟨[], rfl, rfl⟩

theorem balanced_accepted {id : InstrumentId} {l' : String} {v : Number}
    (balanced : i.Balanced notes l) (checked : i.descriptor.check v = .ok ())
    (keeps : i.Keeps j) (registered : ∃ s, j.series.get? l' = some s)
    (aggregator : j.aggregator l =
      if l' = l then (i.aggregator l).update (i.descriptor.number v) else i.aggregator l) :
    j.Balanced (.accepted id l' v :: notes) l := by
  by_cases at_ : l' = l
  · subst at_
    rw [if_pos rfl] at aggregator
    obtain ⟨kind, live⟩ := live_update balanced.numberKind checked
    have alike : j.ofValues = i.ofValues := by
      funext vs
      rw [ofValues, ofValues, keeps.descriptor, keeps.aggregation]
    refine ⟨fun v' member => ?_, ?_, ?_, fun _ => registered, ?_⟩
    · rw [valuesOf, if_pos rfl] at member
      rw [keeps.descriptor]
      rcases List.mem_append.1 member with earlier | last
      · exact balanced.checked v' earlier
      · rw [List.mem_singleton.1 last]
        exact checked
    · rw [aggregator, kind, balanced.numberKind, keeps.descriptor]
    · rw [aggregator, live, balanced.live, pendingOf, if_pos rfl, alike, ofValues_concat]
    · obtain ⟨portions, values, records⟩ := balanced.portions
      refine ⟨portions, ?_, ?_⟩
      · rw [valuesOf, if_pos rfl, pendingOf, if_pos rfl, values, List.append_assoc]
      · rw [recordsOf, alike, records]
  · rw [if_neg at_] at aggregator
    obtain ⟨checked', kind, live, registered', portions⟩ := balanced_of_same balanced keeps aggregator
    refine ⟨?_, kind, ?_, ?_, ?_⟩
    · rw [valuesOf, if_neg at_]
      exact checked'
    · rw [pendingOf, if_neg at_]
      exact live
    · rw [pendingOf, if_neg at_]
      exact registered'
    · rw [valuesOf, if_neg at_, pendingOf, if_neg at_]
      exact portions

/-- A sweep takes one record from the series of some labels, if there is one. -/
theorem records_sweep {id : InstrumentId} {hs : List Handle} (linked : i.Linked id hs)
    (time : Timestamp) (l : String) :
    (i.sweep time).1.filter (fun r => r.labels = l) =
      ((i.series.get? l).map (i.recordOf time)).toList := by
  have records : (i.sweep time).1 = i.series.values.map (i.recordOf time) := rfl
  rw [records, List.filter_map, Option.toList_map]
  refine congrArg (List.map (i.recordOf time)) (Keyed.filter_values fun k s found => ?_)
  have labels : (i.recordOf time s).labels = k := linked.labels k s found
  simp [labels]

theorem balanced_swept {id : InstrumentId} {hs : List Handle} (linked : i.Linked id hs)
    (clock : Nat → Timestamp) (reading : Nat) (balanced : i.Balanced notes l) :
    (i.sweep (clock reading)).2.Balanced
      (.swept reading id (i.sweep (clock reading)).1 :: notes) l := by
  have fresh : ((i.sweep (clock reading)).2.aggregator l).numberKind = i.descriptor.numberKind ∧
      ((i.sweep (clock reading)).2.aggregator l).live = i.ofValues [] := by
    rcases i.aggregator_sweep (clock reading) l with drained | new
    · rw [drained]
      refine ⟨balanced.numberKind, ?_⟩
      change (i.aggregator l).live.reset = _
      rw [balanced.live, reset_ofValues]
    · rw [new]
      exact ⟨(balanced_new i.descriptor i.aggregation none l).numberKind, rfl⟩
  obtain ⟨portions, values, records⟩ := balanced.portions
  refine ⟨balanced.checked, fresh.1, fresh.2, fun pending => absurd rfl pending, ?_⟩
  simp only [valuesOf, pendingOf, recordsOf, List.append_nil, List.map_append,
    records_sweep linked]
  cases found : i.series.get? l with
  | none =>
    have nothing : pendingOf l notes = [] := by
      by_contra pending
      obtain ⟨s, found'⟩ := balanced.registered pending
      rw [found] at found'
      cases found'
    refine ⟨portions, ?_, ?_⟩
    · rw [values, nothing, List.append_nil]
    · rw [records]
      exact List.append_nil _
  | some s =>
    have live : s.aggregator.live = i.ofValues (pendingOf l notes) := by
      rw [← aggregator_of_some found, balanced.live]
    refine ⟨portions ++ [pendingOf l notes], ?_, ?_⟩
    · rw [values, List.flatten_append, List.flatten_singleton]
    · rw [records, List.map_append, List.map_singleton]
      exact congrArg (fun value => portions.map i.ofValues ++ [value]) live

/-- Every turn of an enabled instrument that leaves aggregators alone keeps the balance. -/
theorem Turn.balanced {clock : Nat → Timestamp} {meters : String → Prop} {id : InstrumentId}
    {hs : List Handle} {e : Option Event} (turn : i.Turn clock meters False id j e)
    (linked : i.Linked id hs) (enabled : i.descriptor.enabled = true)
    (balanced : i.Balanced notes l) : j.Balanced (e.toList ++ notes) l := by
  cases turn with
  | kept keeps same => exact balanced_of_same balanced keeps (congrFun same l)
  | used raw _ => exact raw.elim
  | accepted l' v checked keeps registered aggregator =>
    refine balanced_accepted balanced checked keeps (registered enabled) ?_
    rw [aggregator l]
    simp only [enabled, and_true]
  | swept reading _ _ => exact balanced_swept linked clock reading balanced

end Instrument

/-! ## Programs -/

namespace Client

variable {clock : Nat → Timestamp} {meters : String → Prop} {c c' : Client}

/-- The handles of a program are linked, nothing is noted of instruments that do not exist, and the
series of enabled instruments are balanced. -/
structure Balanced (c : Client) : Prop where
  linked : c.Linked
  absent : ∀ id, c.provider.instrument? id = none → c.provider.notes id = []
  balanced : ∀ id i, c.provider.instrument? id = some i → i.descriptor.enabled = true →
    ∀ l, i.Balanced (c.provider.notes id) l

theorem balanced_empty : Balanced ⟨.empty, []⟩ where
  linked := linked_empty
  absent _ _ := rfl
  balanced _ _ found := nomatch found

theorem Balanced.step (balanced : c.Balanced) (step : Step clock meters False c c') :
    c'.Balanced := by
  have move := balanced.linked.move step
  refine ⟨balanced.linked.step step, fun id absent => ?_, fun id j found enabled l => ?_⟩
  · cases before : c.provider.instrument? id with
    | none => rw [(move.opens before).1, balanced.absent id before]
    | some i =>
      obtain ⟨j, e, after, -, -⟩ := move.turn before
      rw [absent] at after
      cases after
  · cases before : c.provider.instrument? id with
    | none =>
      obtain ⟨notes, still | ⟨d, choice, callback, -, -, new⟩⟩ := move.opens before
      · rw [found] at still
        cases still
      · rw [found] at new
        cases new
        rw [notes, balanced.absent id before]
        exact Instrument.balanced_new d _ callback l
    | some i =>
      obtain ⟨j', e, after, turn, notes⟩ := move.turn before
      rw [found] at after
      cases after
      have same : j.descriptor = i.descriptor := turn.descriptor
      rw [same] at enabled
      rw [notes]
      exact turn.balanced (balanced.linked.linked id i before) enabled
        (balanced.balanced id i before enabled l)

theorem Balanced.reach (balanced : c.Balanced) (reach : Reach clock meters False c c') :
    c'.Balanced := by
  induction reach with
  | refl => exact balanced
  | tail _ step ih => exact ih.step step

end Client

end Metering
