import Metering.Proofs.Provider.Step

/-!
# Batches

A batch is checked as a whole before any of it is recorded. The check stops at the first
measurement that is refused (`recordBatch_cases`), and what passes it can be recorded measurement
by measurement, because recording a value leaves the checks of the others as they are. A batch
therefore does what one-shot updates in its order would do, or nothing.
-/

namespace Metering

/-- A check of a list ends well or at the first element that is refused. -/
theorem forM_cases {α ε : Type} (f : α → Except ε Unit) (xs : List α) :
    (xs.forM f = .ok () ∧ ∀ x ∈ xs, f x = .ok ()) ∨
      ∃ before x after e, xs = before ++ x :: after ∧ (∀ y ∈ before, f y = .ok ()) ∧
        f x = .error e ∧ xs.forM f = .error e := by
  induction xs with
  | nil => exact Or.inl ⟨rfl, fun _ member => nomatch member⟩
  | cons x rest ih =>
    have unfolded : (x :: rest).forM f = (f x >>= fun _ => rest.forM f) := rfl
    cases first : f x with
    | error e =>
      rw [first] at unfolded
      exact Or.inr ⟨[], x, rest, e, rfl, fun _ member => (nomatch member), first, unfolded⟩
    | ok =>
      rw [first] at unfolded
      have passed : ∀ {ys : List α}, (∀ y ∈ ys, f y = .ok ()) → ∀ y ∈ x :: ys, f y = .ok () := by
        intro ys others y member
        rcases List.mem_cons.1 member with rfl | tail
        · exact first
        · exact others y tail
      rcases ih with ⟨done, others⟩ | ⟨before, y, after, e, rfl, others, refused, stopped⟩
      · exact Or.inl ⟨unfolded.trans done, passed others⟩
      · exact Or.inr ⟨x :: before, y, after, e, rfl, passed others, refused,
          unfolded.trans stopped⟩

namespace Provider

variable {clock : Nat → Timestamp} {meters : String → Prop} {p : Provider} {id : InstrumentId}
  {i : Instrument} {meter : String} {m : Measurement}

/-! ## Which measurements a meter accepts -/

/-- The instrument of a measurement is the one that the meter has under its name, and takes the
value. -/
def Accepts (p : Provider) (meter : String) (m : Measurement) : Prop :=
  m.instrument.meter = meter ∧
    ∃ i, (p.meter meter).get? m.instrument.name = some i ∧ i.descriptor.Takes m.value

/-- Why a meter refuses a measurement. -/
inductive Refuses (p : Provider) (meter : String) (m : Measurement) : Error → Prop
  /-- The instrument is of another meter, or there is none. -/
  | foreign :
    (m.instrument.meter = meter → (p.meter meter).get? m.instrument.name = none) →
    Refuses p meter m (.unknownInstrument meter m.instrument.name)
  | notFinite {i : Instrument} :
    m.instrument.meter = meter → (p.meter meter).get? m.instrument.name = some i →
    (i.descriptor.number m.value).isFinite = false →
    Refuses p meter m (.invalidArgument (.valueNotFinite i.descriptor.kind i.descriptor.name
      (i.descriptor.number m.value)))
  | negative {i : Instrument} :
    m.instrument.meter = meter → (p.meter meter).get? m.instrument.name = some i →
    (i.descriptor.number m.value).isFinite = true → i.descriptor.kind.isMonotonic = true →
    (i.descriptor.number m.value).isNegative = true →
    Refuses p meter m (.invalidArgument (.valueNegative i.descriptor.kind i.descriptor.name
      (i.descriptor.number m.value)))

/-- A measurement of an instrument that is not the meter's is unknown to it. -/
theorem checkMeasurement_of_foreign
    (foreign : m.instrument.meter = meter → (p.meter meter).get? m.instrument.name = none) :
    p.checkMeasurement meter m = .error (.unknownInstrument meter m.instrument.name) := by
  unfold checkMeasurement
  by_cases own : m.instrument.meter = meter
  · have absent : p.instrument? m.instrument = none := by
      rw [instrument?, own, foreign own]
    rw [if_pos own, absent]
  · rw [if_neg own]

/-- A measurement of an instrument of the meter is checked by the instrument. -/
theorem checkMeasurement_of_own (own : m.instrument.meter = meter)
    (found : (p.meter meter).get? m.instrument.name = some i) :
    p.checkMeasurement meter m = i.descriptor.check m.value := by
  have present : p.instrument? m.instrument = some i := by rw [instrument?, own, found]
  unfold checkMeasurement
  rw [if_pos own, present]

theorem checkMeasurement_eq_ok_iff :
    p.checkMeasurement meter m = .ok () ↔ p.Accepts meter m := by
  constructor
  · intro checked
    by_cases own : m.instrument.meter = meter
    · cases found : (p.meter meter).get? m.instrument.name with
      | none =>
        rw [checkMeasurement_of_foreign fun _ => found] at checked
        cases checked
      | some i =>
        rw [checkMeasurement_of_own own found] at checked
        exact ⟨own, i, found, Descriptor.check_eq_ok_iff.1 checked⟩
    · rw [checkMeasurement_of_foreign fun here => absurd here own] at checked
      cases checked
  · rintro ⟨own, i, found, takes⟩
    rw [checkMeasurement_of_own own found]
    exact Descriptor.check_eq_ok_iff.2 takes

theorem refuses_of_checkMeasurement {e : Error} (checked : p.checkMeasurement meter m = .error e) :
    p.Refuses meter m e := by
  by_cases own : m.instrument.meter = meter
  · cases found : (p.meter meter).get? m.instrument.name with
    | none =>
      rw [checkMeasurement_of_foreign fun _ => found] at checked
      cases checked
      exact .foreign fun _ => found
    | some i =>
      rw [checkMeasurement_of_own own found, Descriptor.check] at checked
      cases finite : (i.descriptor.number m.value).isFinite with
      | false =>
        simp only [finite, Bool.not_false, if_true, Except.error.injEq] at checked
        subst checked
        exact .notFinite own found finite
      | true =>
        simp only [finite, Bool.not_true, Bool.false_eq_true, if_false, Bool.and_eq_true] at checked
        split at checked
        · rename_i both
          cases checked
          exact .negative own found finite both.1 both.2
        · cases checked
  · rw [checkMeasurement_of_foreign fun here => absurd here own] at checked
    cases checked
    exact .foreign fun here => absurd here own

/-! ## Recording measurement by measurement -/

/-- Whether a measurement passes the checks of an instrument that the provider has. -/
def Passes (p : Provider) (m : Measurement) : Prop :=
  ∃ i, p.instrument? m.instrument = some i ∧ i.descriptor.check m.value = .ok ()

theorem Accepts.passes (accepts : p.Accepts meter m) : p.Passes m := by
  obtain ⟨rfl, i, found, takes⟩ := accepts
  exact ⟨i, found, Descriptor.check_eq_ok_iff.2 takes⟩

/-- A one-shot update records a measurement that passes. -/
theorem record_of_passes (labels : LabelSet) (passes : p.Passes m) :
    p.record ⟨m.instrument, m.value, labels⟩ =
      (.ok (), (p.modify m.instrument fun i => i.recordChecked m.value labels).note
        (.accepted m.instrument labels.canonical m.value)) := by
  obtain ⟨i, found, checked⟩ := passes
  exact record_of_ok (u := ⟨m.instrument, m.value, labels⟩) found checked

/-- No update makes a measurement fail that passed before it. -/
theorem Passes.record (passes : p.Passes m) (u : Update) : (p.record u).2.Passes m := by
  obtain ⟨i, found, checked⟩ := passes
  have step : p.Reach (fun _ => default) (fun _ => True) (p.record u).2 := .single (.record p u)
  obtain ⟨j, present, descriptor, -⟩ := step.descriptor found
  exact ⟨j, present, descriptor ▸ checked⟩

/-- One-shot updates with the values of measurements, one after the other, and what each answers. -/
def recordEach (p : Provider) (labels : LabelSet) :
    List Measurement → List (Except Error Unit) × Provider
  | [] => ([], p)
  | m :: rest =>
    let (result, p) := p.record ⟨m.instrument, m.value, labels⟩
    let (more, p) := p.recordEach labels rest
    (result :: more, p)

/-- What passes can be recorded measurement by measurement. -/
theorem recordEach_of_passes (labels : LabelSet) (ms : List Measurement) :
    ∀ {p : Provider}, (∀ m ∈ ms, p.Passes m) →
      p.recordEach labels ms = (ms.map fun _ => .ok (), p.recordAll labels ms) := by
  induction ms with
  | nil => exact fun _ => rfl
  | cons m rest ih =>
    intro p passes
    have first := record_of_passes labels (passes m List.mem_cons_self)
    have others := ih (p := (p.record ⟨m.instrument, m.value, labels⟩).2) fun m' member =>
      (passes m' (List.mem_cons_of_mem _ member)).record _
    rw [recordEach]
    simp only [others]
    rw [first]
    rfl

theorem reach_recordEach (labels : LabelSet) (ms : List Measurement) :
    ∀ p : Provider, p.Reach clock meters (p.recordEach labels ms).2 := by
  induction ms with
  | nil => exact fun _ => .refl
  | cons m rest ih =>
    intro p
    have first : p.Reach clock meters (p.record ⟨m.instrument, m.value, labels⟩).2 :=
      .single (.record p _)
    exact first.trans (ih _)

/-! ## Batches -/

/-- A batch is accepted and recorded measurement by measurement, or the first measurement that is
refused stops it. -/
theorem recordBatch_cases (p : Provider) (meter : String) (labels : LabelSet)
    (ms : List Measurement) :
    ((∀ m ∈ ms, p.Accepts meter m) ∧
      p.recordEach labels ms = (ms.map fun _ => .ok (), (p.recordBatch meter labels ms).2) ∧
      (p.recordBatch meter labels ms).1 = .ok ()) ∨
    ∃ before m after e, ms = before ++ m :: after ∧ (∀ m' ∈ before, p.Accepts meter m') ∧
      p.Refuses meter m e ∧ ¬p.Accepts meter m ∧ p.recordBatch meter labels ms = (.error e, p) := by
  unfold recordBatch
  rcases forM_cases (p.checkMeasurement meter) ms with
    ⟨checked, passed⟩ | ⟨before, m, after, e, cut, passed, refused, stopped⟩
  · have accepted : ∀ m ∈ ms, p.Accepts meter m := fun m member =>
      checkMeasurement_eq_ok_iff.1 (passed m member)
    rw [checked]
    exact Or.inl ⟨accepted,
      recordEach_of_passes labels ms fun m member => (accepted m member).passes, rfl⟩
  · rw [stopped]
    refine Or.inr ⟨before, m, after, e, cut,
      fun m' member => checkMeasurement_eq_ok_iff.1 (passed m' member),
      refuses_of_checkMeasurement refused, fun accepts => ?_, rfl⟩
    rw [checkMeasurement_eq_ok_iff.2 accepts] at refused
    cases refused

theorem reach_recordBatch (p : Provider) (meter : String) (labels : LabelSet)
    (ms : List Measurement) : p.Reach clock meters (p.recordBatch meter labels ms).2 := by
  rcases recordBatch_cases p meter labels ms with
    ⟨-, each, -⟩ | ⟨_, _, _, _, -, -, -, -, unchanged⟩
  · have reach : p.Reach clock meters (p.recordEach labels ms).2 := reach_recordEach labels ms p
    rw [each] at reach
    exact reach
  · rw [unchanged]

/-- A batch succeeds just when the meter accepts every measurement. It then leaves the provider as
one-shot updates in its order would, each of which succeeds. Otherwise it answers why the first
measurement that the meter does not accept is refused, and nothing changes. -/
theorem recordBatch_all_or_nothing (p : Provider) (meter : String) (labels : LabelSet)
    (ms : List Measurement) :
    ((p.recordBatch meter labels ms).1 = .ok () ↔ ∀ m ∈ ms, p.Accepts meter m) ∧
    (∀ q, p.recordBatch meter labels ms = (.ok (), q) →
      p.recordEach labels ms = (ms.map fun _ => .ok (), q)) ∧
    ∀ e q, p.recordBatch meter labels ms = (.error e, q) →
      q = p ∧ ∃ before m after, ms = before ++ m :: after ∧
        (∀ m' ∈ before, p.Accepts meter m') ∧ ¬p.Accepts meter m ∧ p.Refuses meter m e := by
  rcases recordBatch_cases p meter labels ms with
    ⟨accepted, each, done⟩ | ⟨before, m, after, e, cut, accepted, refuses, refused, stopped⟩
  · refine ⟨iff_of_true done accepted, fun q here => ?_, fun e q here => ?_⟩
    · rw [each, here]
    · rw [here] at done
      cases done
  · rw [stopped]
    refine ⟨iff_of_false (fun done => nomatch done) fun all => ?_, fun q here => (nomatch here),
      fun e' q here => ?_⟩
    · exact refused (all m (cut ▸ List.mem_append_right _ List.mem_cons_self))
    · cases here
      exact ⟨rfl, before, m, after, cut, accepted, refused, refuses⟩

/-- A value for a counter with a good one before it: nothing is recorded if the second counter is
that of another meter, although it has the name of the first. -/
theorem batch_with_foreign_counter :
    let d : Descriptor := ⟨"hits", "", "", .counter, .int64, true⟩
    let p := ((empty.create "a" "m" d none []).2.create "b" "other" d none []).2
    let own : Measurement := ⟨⟨"m", "hits"⟩, .integer 3⟩
    let foreign : Measurement := ⟨⟨"other", "hits"⟩, .integer 4⟩
    p.recordEach .empty [own, own] = ([.ok (), .ok ()], (p.recordBatch "m" .empty [own, own]).2) ∧
    p.recordBatch "m" .empty [own, foreign] = (.error (.unknownInstrument "m" "hits"), p) := by
  intro d p own foreign
  have accepted : (p.recordBatch "m" .empty [own, own]).1 = .ok () := by decide +kernel
  have refused : (p.recordBatch "m" .empty [own, foreign]).1 =
      .error (.unknownInstrument "m" "hits") := by decide +kernel
  refine ⟨(recordBatch_all_or_nothing p "m" .empty [own, own]).2.1 _ ?_, ?_⟩
  · rw [← accepted]
  · have unchanged := (recordBatch_all_or_nothing p "m" .empty [own, foreign]).2.2
      (.unknownInstrument "m" "hits") (p.recordBatch "m" .empty [own, foreign]).2 (by rw [← refused])
    exact Prod.ext refused unchanged.1

end Provider

end Metering
