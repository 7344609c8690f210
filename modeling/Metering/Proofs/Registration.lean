import Metering.Proofs.Configuration
import Metering.Proofs.Provider.Readings
import Metering.Proofs.Session

/-!
# Registration is atomic and final

A creation is refused just if the name is empty or taken or the aggregation does not suit the kind of
instrument (`create_refused_iff`). A refused one leaves every meter as it was, and any other adds one
instrument and changes nothing else (`Provider.Adds`). Instruments last, so the place of an
instrument was free exactly until the first creation that succeeded there; `Reach.made` finds that
creation in the run, and whatever was ever collected at the place is as it says.
-/

namespace Metering

/-- The aggregations that an instrument of a kind can have: boundaries are finite, accuracies lie
between zero and one, and what is recorded is not just added up. -/
def Aggregation.Admitted (kind : InstrumentKind) : Aggregation → Prop
  | sum => kind ≠ .valueRecorder
  | minMaxSumCount => True
  | histogram boundaries => ∀ b ∈ boundaries, b.isFinite = true
  | sketch accuracy => 0.0 < accuracy ∧ accuracy < 1.0

namespace Meter

theorem check_eq_ok_iff {d : Descriptor} {a : Aggregation} :
    check d a = .ok () ↔ d.name ≠ "" ∧ a.Admitted d.kind := by
  rw [check, ne_eq, ← String.isEmpty_iff]
  cases a with
  | sum =>
    by_cases recorder : d.kind = .valueRecorder
    · simp [recorder, Aggregation.Admitted]
    · cases empty : d.name.isEmpty <;> simp [recorder, Aggregation.validate, Aggregation.Admitted]
  | minMaxSumCount =>
    cases empty : d.name.isEmpty <;> simp [Aggregation.validate, Aggregation.Admitted]
  | histogram boundaries =>
    cases empty : d.name.isEmpty <;> simp [Aggregation.validate, Aggregation.Admitted]
  | sketch accuracy =>
    cases empty : d.name.isEmpty <;> simp [Aggregation.validate, Aggregation.Admitted]

end Meter

namespace Provider

variable {p q : Provider} {tag meter : String} {d : Descriptor} {choice : Option Aggregation}
  {script : List (List Action)} {id : InstrumentId} {i : Instrument}

/-- `q` is `p` with one more instrument, at a place that was free and under a tag. -/
structure Adds (p q : Provider) (tag : String) (id : InstrumentId) (i : Instrument) : Prop where
  free : p.instrument? id = none
  registered : q.meter id.meter = ⟨(p.meter id.meter).instruments.insert id.name i⟩
  others : ∀ name, name ≠ id.meter → q.meter name = p.meter name
  tags : q.tags = p.tags.insert tag id
  journal : q.journal = p.journal
  readings : q.readings = p.readings
  history : q.history = p.history

theorem meter_insert (p : Provider) (name : String) (m : Meter) (name' : String) :
    Provider.meter { p with meters := p.meters.insert name m } name' =
      if name' = name then m else p.meter name' := by
  rw [Provider.meter]
  by_cases same : name = name'
  · rw [if_pos same.symm, same, Keyed.get?_insert_self, Option.getD_some]
  · rw [if_neg (Ne.symm same), Keyed.get?_insert_of_ne _ _ same, Provider.meter]

/-- A creation is refused, which only puts the meter to use, or adds its instrument. -/
theorem create_cases (p : Provider) (tag meter : String) (d : Descriptor)
    (choice : Option Aggregation) (script : List (List Action)) :
    (∃ e, p.create tag meter d choice script = (.error e, p.use meter) ∧
      (d.name = "" ∨ ¬ (aggregationFor d.kind choice).Admitted d.kind ∨
        (p.instrument? ⟨meter, d.name⟩).isSome = true)) ∨
    ((p.create tag meter d choice script).1 = .ok d ∧
      (d.name ≠ "" ∧ (aggregationFor d.kind choice).Admitted d.kind) ∧
      p.Adds (p.create tag meter d choice script).2 tag ⟨meter, d.name⟩
        (.new d (aggregationFor d.kind choice)
          (if d.kind.isSynchronous then none else some (Callback.ofScript tag script)))) := by
  unfold create
  simp only [meter_use]
  unfold Meter.register
  cases checked : Meter.check d (aggregationFor d.kind choice) with
  | error fault =>
    refine Or.inl ⟨_, rfl, ?_⟩
    have refused : ¬ Meter.check d (aggregationFor d.kind choice) = .ok () := by
      rw [checked]
      intro same
      cases same
    rw [Meter.check_eq_ok_iff, not_and_or, not_not] at refused
    rcases refused with unnamed | unsuited
    · exact Or.inl unnamed
    · exact Or.inr (Or.inl unsuited)
  | ok =>
    have taken_iff : (p.meter meter).instruments.contains d.name =
        (p.instrument? ⟨meter, d.name⟩).isSome := rfl
    rw [taken_iff]
    cases there : p.instrument? ⟨meter, d.name⟩ with
    | some i => exact Or.inl ⟨_, rfl, Or.inr (Or.inr rfl)⟩
    | none =>
      refine Or.inr ⟨rfl, Meter.check_eq_ok_iff.1 checked, there, ?_, fun name other => ?_,
        rfl, rfl, rfl, rfl⟩
      · exact ((p.use meter).meter_insert meter _ meter).trans (if_pos rfl)
      · exact (((p.use meter).meter_insert meter _ name).trans (if_neg other)).trans
          (p.meter_use meter name)

/-- The name is empty or taken, or the aggregation does not suit the kind of instrument. -/
theorem create_refused_iff :
    (∃ e, (p.create tag meter d choice script).1 = .error e) ↔
      d.name = "" ∨ ¬ (aggregationFor d.kind choice).Admitted d.kind ∨
        (p.instrument? ⟨meter, d.name⟩).isSome = true := by
  rcases p.create_cases tag meter d choice script with ⟨e, refused, why⟩ | ⟨made, sound, adds⟩
  · rw [refused]
    exact ⟨fun _ => why, fun _ => ⟨e, rfl⟩⟩
  · rw [made, adds.free]
    refine ⟨fun failed => ?_, fun why => ?_⟩
    · obtain ⟨e, same⟩ := failed
      cases same
    · rcases why with unnamed | unsuited | taken
      · exact absurd unnamed sound.1
      · exact absurd sound.2 unsuited
      · cases taken

/-- Changing an instrument puts none at a free place. -/
theorem absent_modify {id' : InstrumentId} (absent : p.instrument? id = none)
    (f : Instrument → Instrument) : (p.modify id' f).instrument? id = none := by
  rw [instrument?_modify, absent]
  split <;> rfl

theorem absent_record (absent : p.instrument? id = none) (u : Update) :
    (p.record u).2.instrument? id = none := by
  unfold record
  split
  · exact absent
  · split
    · exact absent_modify absent _
    · exact absent

theorem absent_recordHeld (absent : p.instrument? id = none) (h : Handle) (value : Number) :
    (p.recordHeld h value).2.instrument? id = none := by
  unfold recordHeld
  split
  · exact absent
  · split
    · exact absent_modify absent _
    · exact absent

theorem absent_sweep (absent : p.instrument? id = none) (clock : Nat → Timestamp) (reading : Nat)
    (id' : InstrumentId) : (p.sweep clock reading id').2.instrument? id = none := by
  unfold sweep
  split
  · exact absent
  · exact absent_modify absent _

end Provider

namespace Client

variable {clock : Nat → Timestamp} {meters : String → Prop} {raw : Prop} {start c c' : Client}
  {id : InstrumentId} {i : Instrument} {d : Descriptor} {a : Aggregation}

/-- An instrument appears by a creation that succeeds. -/
theorem Step.creates (step : Step clock meters raw c c')
    (absent : c.provider.instrument? id = none) (found : c'.provider.instrument? id = some i) :
    ∃ tag d choice script,
      d.name = id.name ∧ (c.provider.create tag id.meter d choice script).1 = .ok d ∧
      c' = ⟨(c.provider.create tag id.meter d choice script).2, c.handles⟩ ∧
      i.descriptor = d ∧ i.aggregation = Provider.aggregationFor d.kind choice := by
  have nowhere : c'.provider.instrument? id = none → False := fun gone => by
    rw [gone] at found
    cases found
  cases step with
  | @provider p q hs step =>
    cases step with
    | create tag meter d choice script _ =>
      rcases p.create_spec tag meter d choice script with
        ⟨e, -, unchanged⟩ | ⟨made, -, free, puts, -⟩
      · refine (nowhere ?_).elim
        rw [unchanged, Provider.instrument?_use]
        exact absent
      · by_cases here : id = ⟨meter, d.name⟩
        · subst here
          rw [puts.self] at found
          cases found
          exact ⟨tag, d, choice, script, rfl, made, rfl, rfl, rfl⟩
        · exact (nowhere ((puts.other here).trans absent)).elim
    | use name => exact (nowhere (by rw [Provider.instrument?_use]; exact absent)).elim
    | record u => exact (nowhere (Provider.absent_record absent u)).elim
    | advance _ _ => exact (nowhere (Provider.absent_modify absent _)).elim
    | journal run => exact (nowhere absent).elim
    | read => exact (nowhere absent).elim
    | sweep reading _ _ _ => exact (nowhere (Provider.absent_sweep absent clock reading _)).elim
  | tag tag id' => exact (nowhere absent).elim
  | bind labels _ => exact (nowhere (Provider.absent_modify absent _)).elim
  | clone _ => exact (nowhere (Provider.absent_modify absent _)).elim
  | release h => exact (nowhere (Provider.absent_modify absent _)).elim
  | update value _ => exact (nowhere (Provider.absent_recordHeld absent _ value)).elim
  | raw _ _ _ _ => exact (nowhere (Provider.absent_modify absent _)).elim
  | order _ => exact (nowhere absent).elim

/-- Between `start` and `c` an instrument was created: its place was free until then, and the
creation gave it this descriptor and this aggregation. -/
def Made (clock : Nat → Timestamp) (meters : String → Prop) (raw : Prop) (start c : Client)
    (id : InstrumentId) (d : Descriptor) (a : Aggregation) : Prop :=
  ∃ (before : Client) (tag : String) (choice : Option Aggregation) (script : List (List Action)),
    Reach clock meters raw start before ∧ before.provider.instrument? id = none ∧
    d.name = id.name ∧ a = Provider.aggregationFor d.kind choice ∧
    (before.provider.create tag id.meter d choice script).1 = .ok d ∧
    Reach clock meters raw
      ⟨(before.provider.create tag id.meter d choice script).2, before.handles⟩ c

theorem Made.step (made : Made clock meters raw start c id d a)
    (step : Step clock meters raw c c') : Made clock meters raw start c' id d a := by
  obtain ⟨before, tag, choice, script, first, free, name, aggregation, created, later⟩ := made
  exact ⟨before, tag, choice, script, first, free, name, aggregation, created, later.tail step⟩

/-- Every instrument that was not there from the start was created. -/
theorem Reach.made (linked : start.Linked) (nothing : start.provider.instrument? id = none)
    (reach : Reach clock meters raw start c) :
    ∀ {i : Instrument}, c.provider.instrument? id = some i →
      Made clock meters raw start c id i.descriptor i.aggregation := by
  induction reach with
  | refl =>
    intro i found
    rw [nothing] at found
    cases found
  | @tail before after earlier step ih =>
    intro i found
    cases there : before.provider.instrument? id with
    | some i' =>
      obtain ⟨j, e, found', turn, -⟩ := ((linked.reach earlier).move step).turn there
      rw [found] at found'
      cases found'
      rw [turn.descriptor, turn.aggregation]
      exact (ih there).step step
    | none =>
      obtain ⟨tag, d, choice, script, name, created, rfl, rfl, aggregation⟩ :=
        step.creates there found
      exact ⟨before, tag, choice, script, earlier, there, name, aggregation, created, .refl⟩

/-- Where there is an instrument, every later creation is refused. -/
theorem Linked.refuses (linked : c.Linked) (found : c.provider.instrument? id = some i)
    (reach : Reach clock meters raw c c') (name : d.name = id.name) (tag : String)
    (choice : Option Aggregation) (script : List (List Action)) :
    ∃ e, (c'.provider.create tag id.meter d choice script).1 = .error e := by
  obtain ⟨j, present, -, -⟩ := (linked.later reach).instruments id i found
  rw [Provider.create_refused_iff, name]
  exact Or.inr (Or.inr (by rw [present]; rfl))

/-- What was collected at a place is of the instrument there, and configured as it is. -/
theorem Configured.collected_at (configured : c.Configured) {reading : Nat} {records : List Record}
    (swept : .swept reading id records ∈ c.provider.history) {r : Record} (member : r ∈ records) :
    ∃ i, c.provider.instrument? id = some i ∧ r.name = id.name ∧ r.descriptor = i.descriptor ∧
      r.value.kind = i.aggregation.kind ∧ r.value.shape = i.aggregation := by
  have noted : .swept reading id records ∈ c.provider.notes id :=
    List.mem_filter.2 ⟨swept, decide_eq_true rfl⟩
  obtain ⟨i, found, descriptor⟩ := configured.regular.records reading id records noted r member
  obtain ⟨j, found', shape⟩ := configured.records reading id records noted r member
  rw [found] at found'
  cases found'
  refine ⟨i, found, configured.regular.name swept member, descriptor, ?_, shape⟩
  rw [← shape]
  cases r.value <;> rfl

end Client

/-- At every moment of a session, and whatever was done before: a creation is refused exactly if the
name is empty, the aggregation does not suit the kind of instrument, or the name is taken. A refused
creation leaves every meter as it is; any other adds one instrument and changes nothing else. Every
instrument was made by the first creation that succeeded at its place, every later one is refused,
and whatever was ever collected at the place has the name, the descriptor and the family and
configuration of aggregates of that creation. What is collected at some place has an instrument there,
and collections return just what they note. -/
theorem Session.registration_atomic_and_final (clock : Nat → Timestamp) (ops : List Operation)
    (c : Client)
    (reach : Client.Reach clock (fun _ => True) True (Session.empty.run clock ops).2.client c) :
    (∀ tag meter d choice script,
      let a := Provider.aggregationFor d.kind choice
      let created := c.provider.create tag meter d choice script
      ((∃ e, created.1 = .error e) ↔ d.name = "" ∨ ¬ a.Admitted d.kind ∨
        (c.provider.instrument? ⟨meter, d.name⟩).isSome = true) ∧
      (∀ e, created.1 = .error e → created.2 = c.provider.use meter ∧
        ∀ name, created.2.meter name = c.provider.meter name) ∧
      (∀ d', created.1 = .ok d' → d' = d ∧
        ∃ callback, c.provider.Adds created.2 tag ⟨meter, d.name⟩ (.new d a callback))) ∧
    (∀ id i, c.provider.instrument? id = some i →
      Client.Made clock (fun _ => True) True ⟨.empty, []⟩ c id i.descriptor i.aggregation ∧
      (∀ c', Client.Reach clock (fun _ => True) True c c' →
        ∀ tag (d : Descriptor) choice script, d.name = id.name →
          ∃ e, (c'.provider.create tag id.meter d choice script).1 = .error e) ∧
      ∀ reading records, .swept reading id records ∈ c.provider.history → ∀ r ∈ records,
        r.name = id.name ∧ r.descriptor = i.descriptor ∧ r.value.kind = i.aggregation.kind ∧
          r.value.shape = i.aggregation) ∧
    (∀ reading id records, .swept reading id records ∈ c.provider.history → records ≠ [] →
      (c.provider.instrument? id).isSome = true) ∧
    (∀ depth meter, c.provider.Takes meter c.provider.readings
      (Provider.collectWithin clock depth meter c.provider).1
      (Provider.collectWithin clock depth meter c.provider).2) := by
  have whole : Client.Reach clock (fun _ => True) True ⟨.empty, []⟩ c :=
    (Session.empty.reach_run_all ops).trans reach
  have configured : c.Configured := Client.configured_empty.reach whole
  refine ⟨fun tag meter d choice script => ⟨Provider.create_refused_iff, fun e failed => ?_,
      fun d' succeeded => ?_⟩,
    fun id i found => ⟨whole.made Client.linked_empty rfl found,
      fun c' later tag d choice script name =>
        configured.linked.refuses found later name tag choice script,
      fun reading records swept r member => ?_⟩,
    fun reading id records swept some_ => ?_,
    fun depth meter => Provider.exact_collectWithin clock depth meter c.provider⟩
  · rcases c.provider.create_cases tag meter d choice script with ⟨e', refused, -⟩ | ⟨made, -⟩
    · rw [refused]
      exact ⟨rfl, c.provider.meter_use meter⟩
    · rw [made] at failed
      cases failed
  · rcases c.provider.create_cases tag meter d choice script with ⟨e, refused, -⟩ | ⟨made, -, adds⟩
    · rw [refused] at succeeded
      cases succeeded
    · rw [made] at succeeded
      cases succeeded
      exact ⟨rfl, _, adds⟩
  · obtain ⟨i', found', facts⟩ := configured.collected_at swept member
    rw [found] at found'
    cases found'
    exact facts
  · obtain ⟨r, member⟩ := List.exists_mem_of_ne_nil records some_
    obtain ⟨i, found, -⟩ := configured.collected_at swept member
    rw [found]
    rfl

/-- A name that two creations want: the recorder came first, so the counter is refused, and what is
collected under the name is of the recorder. -/
theorem Session.first_creation_names_the_records :
    let recorder : Descriptor := ⟨"size", "", "By", .valueRecorder, .int64, true⟩
    let counter : Descriptor := ⟨"size", "", "1", .counter, .int64, true⟩
    let c := (Session.empty.run (fun _ => default)
      [.create "r" "m" recorder (some (.histogram [1.0])) [], .create "c" "m" counter none [],
        .update "r" (.integer 2) .empty, .collect "m" none]).2.client
    Client.Made (fun _ => default) (fun _ => True) True ⟨.empty, []⟩ c ⟨"m", "size"⟩ recorder
      (.histogram [1.0]) ∧
    (∃ e, (c.provider.create "c" "m" counter none []).1 = .error e) ∧
    (recordsAt 0 c.provider.history).map (fun r => (r.descriptor, r.value.shape)) =
      [(recorder, .histogram [1.0])] := by
  intro recorder counter c
  have placed : (c.provider.instrument? ⟨"m", "size"⟩).map
      (fun i => (i.descriptor, i.aggregation)) = some (recorder, .histogram [1.0]) := by
    decide +kernel
  obtain ⟨i, found, same⟩ := Option.map_eq_some_iff.1 placed
  obtain ⟨descriptor, aggregation⟩ := Prod.mk.inj same
  obtain ⟨-, lasts, -⟩ := Session.registration_atomic_and_final (fun _ => default)
    [.create "r" "m" recorder (some (.histogram [1.0])) [], .create "c" "m" counter none [],
      .update "r" (.integer 2) .empty, .collect "m" none] c .refl
  obtain ⟨made, refused, -⟩ := lasts _ i found
  rw [descriptor, aggregation] at made
  exact ⟨made, refused c .refl "c" counter none [] rfl, by decide +kernel⟩

end Metering
