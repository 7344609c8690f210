import Metering.Proofs.Instrument.Series
import Metering.Provider.Collection

/-!
# What the operations of a provider do to its instruments

A provider is seen through `instrument?` and `history`. `Puts p q id i` says that `q` has the
instruments of `p` except that `i` stands at the place `id`; each operation that touches an
instrument is described by one such statement and one about the history.
-/

namespace Metering

theorem Meter.get?_modify (m : Meter) (name name' : String) (f : Instrument → Instrument) :
    (m.modify name f).get? name' = if name' = name then (m.get? name').map f else m.get? name' := by
  rw [Meter.get?, Meter.modify]
  by_cases same : name = name'
  · subst same
    rw [Keyed.get?_modify_self, if_pos rfl]
    rfl
  · rw [Keyed.get?_modify_of_ne _ _ same, if_neg (Ne.symm same)]
    rfl

namespace Provider

variable {p q : Provider} {id id' : InstrumentId} {i : Instrument}

theorem meter_use (p : Provider) (name name' : String) : (p.use name).meter name' = p.meter name' := by
  rw [meter, use]
  by_cases same : name = name'
  · subst same
    rw [Keyed.get?_upsert_self]
    rfl
  · rw [Keyed.get?_upsert_of_ne _ _ same]
    rfl

@[simp] theorem instrument?_use (p : Provider) (name : String) :
    (p.use name).instrument? = p.instrument? := by
  funext id
  rw [instrument?, meter_use, instrument?]

theorem meter_modify (p : Provider) (id : InstrumentId) (f : Instrument → Instrument)
    (name : String) : (p.modify id f).meter name =
      if name = id.meter then (p.meter name).modify id.name f else p.meter name := by
  rw [meter, modify]
  by_cases same : id.meter = name
  · subst same
    rw [Keyed.get?_modify_self, if_pos rfl, meter]
    cases p.meters.get? id.meter with
    | none => rfl
    | some m => rfl
  · rw [Keyed.get?_modify_of_ne _ _ same, if_neg (Ne.symm same)]
    rfl

theorem names_modify (p : Provider) (id : InstrumentId) (f : Instrument → Instrument)
    (name : String) : ((p.modify id f).meter name).names = (p.meter name).names := by
  rw [meter_modify]
  split
  · exact Keyed.keys_modify _ _ _
  · rfl

theorem instrument?_modify (p : Provider) (id id' : InstrumentId) (f : Instrument → Instrument) :
    (p.modify id f).instrument? id' =
      if id' = id then (p.instrument? id').map f else p.instrument? id' := by
  rw [instrument?, meter_modify]
  by_cases meters : id'.meter = id.meter
  · rw [if_pos meters, Meter.get?_modify]
    by_cases names : id'.name = id.name
    · have same : id' = id := by
        cases id
        cases id'
        simp only at meters names
        rw [meters, names]
      rw [if_pos names, if_pos same]
      rfl
    · have other : id' ≠ id := fun same => names (congrArg InstrumentId.name same)
      rw [if_neg names, if_neg other]
      rfl
  · have other : id' ≠ id := fun same => meters (congrArg InstrumentId.meter same)
    rw [if_neg meters, if_neg other]
    rfl

@[simp] theorem instrument?_note (p : Provider) (e : Event) :
    (p.note e).instrument? = p.instrument? := rfl

/-- The meters of two providers are equal if the same ones are in use and they have the same
instruments. -/
theorem meters_eq (used : ∀ name, (p.meters.get? name).isSome = (q.meters.get? name).isSome)
    (instruments : ∀ id, p.instrument? id = q.instrument? id) : p.meters = q.meters := by
  refine Keyed.ext_get? fun name => ?_
  have used := used name
  cases left : p.meters.get? name with
  | none =>
    rw [left] at used
    exact (Option.isSome_eq_false_iff.1 used.symm |> Option.isNone_iff_eq_none.1).symm
  | some m =>
    rw [left] at used
    obtain ⟨n, right⟩ := Option.isSome_iff_exists.1 used.symm
    have same : m.instruments = n.instruments := by
      refine Keyed.ext_get? fun inner => ?_
      have found := instruments ⟨name, inner⟩
      rw [instrument?, instrument?, meter, meter, left, right] at found
      exact found
    rw [right]
    exact congrArg some (congrArg Meter.mk same)

theorem isSome_modify (p : Provider) (id : InstrumentId) (f : Instrument → Instrument)
    (name : String) :
    ((p.modify id f).meters.get? name).isSome = (p.meters.get? name).isSome := by
  rw [modify]
  by_cases same : id.meter = name
  · subst same
    rw [Keyed.get?_modify_self, Option.isSome_map]
  · rw [Keyed.get?_modify_of_ne _ _ same]

/-- Only what is made of the instrument that stands there matters to a change. -/
theorem modify_congr {f g : Instrument → Instrument}
    (same : ∀ i, p.instrument? id = some i → f i = g i) : p.modify id f = p.modify id g := by
  have meters : (p.modify id f).meters = (p.modify id g).meters := by
    refine meters_eq (fun name => ?_) fun id' => ?_
    · rw [isSome_modify, isSome_modify]
    · rw [instrument?_modify, instrument?_modify]
      split
      · rename_i at_
        subst at_
        exact Option.map_congr fun i found => same i found
      · rfl
  exact congrArg (fun ms => { p with meters := ms }) meters

theorem modify_const (found : p.instrument? id = some i) (f : Instrument → Instrument) :
    (p.modify id fun _ => f i) = p.modify id f := by
  refine modify_congr fun j found' => ?_
  obtain rfl := Option.some.inj (found.symm.trans found')
  rfl

/-- A change that leaves the instrument as it is leaves the provider as it is. -/
theorem modify_of_fixed {f : Instrument → Instrument}
    (fixed : ∀ i, p.instrument? id = some i → f i = i) : p.modify id f = p := by
  have meters : (p.modify id f).meters = p.meters := by
    refine meters_eq (fun name => isSome_modify p id f name) fun id' => ?_
    rw [instrument?_modify]
    split
    · rename_i at_
      subst at_
      cases found : p.instrument? id' with
      | none => rfl
      | some i => rw [Option.map_some, fixed i found]
    · rfl
  exact congrArg (fun ms => { p with meters := ms }) meters

theorem modify_of_absent (absent : p.instrument? id = none) (f : Instrument → Instrument) :
    p.modify id f = p := by
  refine modify_of_fixed fun i found => ?_
  rw [absent] at found
  cases found

theorem modify_modify (p : Provider) (id : InstrumentId) (f g : Instrument → Instrument) :
    (p.modify id f).modify id g = p.modify id fun i => g (f i) := by
  have meters : ((p.modify id f).modify id g).meters = (p.modify id fun i => g (f i)).meters := by
    refine meters_eq (fun name => ?_) fun id' => ?_
    · rw [isSome_modify, isSome_modify, isSome_modify]
    · rw [instrument?_modify, instrument?_modify, instrument?_modify]
      split
      · rw [Option.map_map]
        rfl
      · rfl
  exact congrArg (fun ms => { p with meters := ms }) meters

/-- Every instrument is on a meter that there is. -/
theorem meter_mem_keys (found : p.instrument? id = some i) : id.meter ∈ p.meters.keys := by
  cases held : p.meters.get? id.meter with
  | none =>
    rw [instrument?, meter, held] at found
    cases found
  | some m => exact List.mem_map_of_mem (f := Prod.fst) ((Keyed.mem_entries_iff ..).2 held)

/-- `q` has the instruments of `p`, with `i` at the place `id`. -/
def Puts (p q : Provider) (id : InstrumentId) (i : Instrument) : Prop :=
  ∀ id', q.instrument? id' = if id' = id then some i else p.instrument? id'

theorem Puts.self (puts : Puts p q id i) : q.instrument? id = some i := by
  rw [puts id, if_pos rfl]

theorem Puts.other (puts : Puts p q id i) (other : id' ≠ id) :
    q.instrument? id' = p.instrument? id' := by
  rw [puts id', if_neg other]

/-- The series of an instrument under some canonical labels. -/
def series? (p : Provider) (id : InstrumentId) (l : String) : Option Series :=
  (p.instrument? id).bind fun i => i.series.get? l

theorem series?_eq_some_iff {l : String} {s : Series} :
    p.series? id l = some s ↔ ∃ i, p.instrument? id = some i ∧ i.series.get? l = some s := by
  rw [series?, Option.bind_eq_some_iff]

theorem seriesOf?_of_some {h : Handle} (found : p.instrument? h.instrument = some i) :
    p.seriesOf? h = i.seriesOf? h := by
  rw [seriesOf?, found]
  rfl

/-- Taking a handle answers where and when its series was created. -/
theorem bind_of_some (found : p.instrument? id = some i) (labels : LabelSet) :
    p.bind id labels =
      (⟨id, labels.canonical, (i.seriesFor labels).born⟩, p.modify id fun i => i.bind labels) := by
  have present : (p.modify id fun i => i.bind labels).instrument? id = some (i.bind labels) := by
    rw [instrument?_modify, if_pos rfl, found]
    rfl
  rw [bind, present, Option.map_some, Option.getD_some, Instrument.bornOf_bind]

theorem puts_modify (found : p.instrument? id = some i) (f : Instrument → Instrument) :
    Puts p (p.modify id f) id (f i) := by
  intro id'
  rw [instrument?_modify]
  by_cases same : id' = id
  · rw [if_pos same, if_pos same, same, found]
    rfl
  · rw [if_neg same, if_neg same]

/-! ## Creating an instrument -/

theorem instrument?_insert_meter (p : Provider) (name : String) (m : Meter) (id : InstrumentId) :
    instrument? { p with meters := p.meters.insert name m } id =
      if id.meter = name then m.get? id.name else p.instrument? id := by
  rw [instrument?, meter]
  by_cases same : name = id.meter
  · rw [if_pos same.symm, same, Keyed.get?_insert_self]
    rfl
  · rw [if_neg (Ne.symm same), Keyed.get?_insert_of_ne _ _ same]
    rfl

/-- A creation that is refused changes no instrument and no history. One that succeeds puts a new
instrument at a free place. -/
theorem create_spec (p : Provider) (tag meter : String) (d : Descriptor)
    (choice : Option Aggregation) (script : List (List Action)) :
    (∃ e, (p.create tag meter d choice script).1 = .error e ∧
      (p.create tag meter d choice script).2 = p.use meter) ∨
    (p.create tag meter d choice script).1 = .ok d ∧
      Meter.check d (aggregationFor d.kind choice) = .ok () ∧
      p.instrument? ⟨meter, d.name⟩ = none ∧
      Puts p (p.create tag meter d choice script).2 ⟨meter, d.name⟩
        (.new d (aggregationFor d.kind choice)
          (if d.kind.isSynchronous then none else some (Callback.ofScript tag script))) ∧
      (p.create tag meter d choice script).2.history = p.history := by
  unfold create
  simp only [meter_use]
  unfold Meter.register
  cases checked : Meter.check d (aggregationFor d.kind choice) with
  | error fault => exact Or.inl ⟨_, rfl, rfl⟩
  | ok =>
    by_cases taken : (p.meter meter).instruments.contains d.name = true
    · rw [if_pos taken]
      exact Or.inl ⟨_, rfl, rfl⟩
    · rw [if_neg taken]
      have absent : p.instrument? ⟨meter, d.name⟩ = none := by
        simpa [Keyed.contains, instrument?, Meter.get?] using taken
      refine Or.inr ⟨rfl, rfl, absent, fun id => ?_, rfl⟩
      refine (instrument?_insert_meter (p.use meter) meter _ id).trans ?_
      rw [instrument?_use, Meter.get?]
      by_cases meters : id.meter = meter
      · by_cases names : id.name = d.name
        · have same : id = ⟨meter, d.name⟩ := by rw [← meters, ← names]
          rw [if_pos meters, if_pos same, names, Keyed.get?_insert_self]
        · have other : id ≠ ⟨meter, d.name⟩ :=
            fun same => names (congrArg InstrumentId.name same)
          rw [if_pos meters, if_neg other, Keyed.get?_insert_of_ne _ _ (Ne.symm names), ← meters]
          rfl
      · have other : id ≠ ⟨meter, d.name⟩ :=
          fun same => meters (congrArg InstrumentId.meter same)
        rw [if_neg meters, if_neg other]

/-! ## Values and sweeps -/

theorem record_of_absent {u : Update} (absent : p.instrument? u.instrument = none) :
    p.record u = (.error (.unknownInstrument u.instrument.meter u.instrument.name), p) := by
  rw [record, absent]

theorem record_of_error {u : Update} {e : Error} (found : p.instrument? u.instrument = some i)
    (checked : i.descriptor.check u.value = .error e) : p.record u = (.error e, p) := by
  simp only [record, found, Instrument.record, checked]

theorem record_of_ok {u : Update} (found : p.instrument? u.instrument = some i)
    (checked : i.descriptor.check u.value = .ok ()) :
    p.record u = (.ok (), (p.modify u.instrument fun i => i.recordChecked u.value u.labels).note
      (.accepted u.instrument u.labels.canonical u.value)) := by
  simp only [record, found, Instrument.record, checked]
  rw [modify_const found fun i => i.recordChecked u.value u.labels]

theorem recordHeld_of_absent {h : Handle} (absent : p.instrument? h.instrument = none)
    (value : Number) :
    p.recordHeld h value =
      (.error (.unknownInstrument h.instrument.meter h.instrument.name), p) := by
  rw [recordHeld, absent]

theorem recordHeld_of_error {h : Handle} {value : Number} {e : Error}
    (found : p.instrument? h.instrument = some i) (checked : i.descriptor.check value = .error e) :
    p.recordHeld h value = (.error e, p) := by
  simp only [recordHeld, found, Instrument.recordHeld, checked]

theorem recordHeld_of_ok {h : Handle} {value : Number}
    (found : p.instrument? h.instrument = some i) (checked : i.descriptor.check value = .ok ()) :
    p.recordHeld h value = (.ok (), (p.modify h.instrument fun i => i.addHeld h value).note
      (.accepted h.instrument h.labels value)) := by
  simp only [recordHeld, found, Instrument.recordHeld, checked]
  rw [← modify_const found fun i => i.addHeld h value]
  rfl

/-- A value for an instrument is either refused, which changes nothing, or passes its checks and is
recorded and noted. -/
theorem record_spec (p : Provider) (u : Update) :
    (∃ e, p.record u = (.error e, p)) ∨
    ∃ i, p.instrument? u.instrument = some i ∧ i.descriptor.check u.value = .ok () ∧
      (p.record u).1 = .ok () ∧
      Puts p (p.record u).2 u.instrument (i.recordChecked u.value u.labels) ∧
      (p.record u).2.history =
        .accepted u.instrument u.labels.canonical u.value :: p.history := by
  cases found : p.instrument? u.instrument with
  | none => exact Or.inl ⟨_, record_of_absent found⟩
  | some i =>
    cases checked : i.descriptor.check u.value with
    | error e => exact Or.inl ⟨e, record_of_error found checked⟩
    | ok =>
      rw [record_of_ok found checked]
      exact Or.inr ⟨i, rfl, checked, rfl, puts_modify found _, rfl⟩

/-- A sweep takes the records of the instrument at a place, if there is one. -/
theorem sweep_of_some (clock : Nat → Timestamp) (reading : Nat)
    (found : p.instrument? id = some i) :
    (p.sweep clock reading id).1 = (i.sweep (clock reading)).1 ∧
      Puts p (p.sweep clock reading id).2 id (i.sweep (clock reading)).2 ∧
      (p.sweep clock reading id).2.history =
        .swept reading id (i.sweep (clock reading)).1 :: p.history := by
  rw [sweep, found]
  exact ⟨rfl, puts_modify found _, rfl⟩

/-- A value for the series of a handle is either refused, which changes nothing, or passes the
checks of its instrument and is added and noted. -/
theorem recordHeld_spec (p : Provider) (h : Handle) (value : Number) :
    (∃ e, p.recordHeld h value = (.error e, p)) ∨
    ∃ i, p.instrument? h.instrument = some i ∧ i.descriptor.check value = .ok () ∧
      (p.recordHeld h value).1 = .ok () ∧
      Puts p (p.recordHeld h value).2 h.instrument
        (if i.descriptor.enabled then
          i.modifyHeld h fun s => s.update (i.descriptor.number value) else i) ∧
      (p.recordHeld h value).2.history = .accepted h.instrument h.labels value :: p.history := by
  cases found : p.instrument? h.instrument with
  | none => exact Or.inl ⟨_, recordHeld_of_absent found value⟩
  | some i =>
    cases checked : i.descriptor.check value with
    | error e => exact Or.inl ⟨e, recordHeld_of_error found checked⟩
    | ok =>
      rw [recordHeld_of_ok found checked]
      exact Or.inr ⟨i, rfl, checked, rfl, puts_modify found _, rfl⟩

end Provider

end Metering
