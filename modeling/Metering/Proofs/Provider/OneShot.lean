import Metering.Proofs.Instrument.Local
import Metering.Proofs.Provider.View

/-!
# Updates at once and by a handle

A value can be added at once, or by a handle that is taken for it and given back. Both answer alike,
and while the value is recorded, or the series was there before, they lead to the same state. A value
that is not recorded, because it is refused or the instrument is disabled, tells them apart: what is
added at once is checked before there is anything to do with its series, and leaves none, while
taking the handle has created a series, which is left without references and empty.
-/

namespace Metering

namespace Instrument

variable {i : Instrument} {labels : LabelSet} {value : Number} {s : Series} {h : Handle} {l : String}

/-- Makes sure that there is a series of some labels. -/
def ensure (i : Instrument) (labels : LabelSet) : Instrument :=
  { i with series := i.series.upsert labels.canonical fun s => s.getD (i.newSeries labels) }

theorem get?_ensure_self (i : Instrument) (labels : LabelSet) :
    (i.ensure labels).series.get? labels.canonical = some (i.seriesFor labels) :=
  Keyed.get?_upsert_self ..

theorem get?_ensure_of_ne (i : Instrument) (other : labels.canonical ≠ l) :
    (i.ensure labels).series.get? l = i.series.get? l :=
  Keyed.get?_upsert_of_ne _ _ other

/-- A series that is there is left as it is. -/
theorem ensure_of_some (found : i.series.get? labels.canonical = some s) : i.ensure labels = i := by
  refine eq_of_bare rfl fun l => ?_
  by_cases at_ : labels.canonical = l
  · subst at_
    rw [get?_ensure_self, seriesFor_of_some found, found]
  · exact get?_ensure_of_ne i at_

/-- A series that is not there is put there as a new one. -/
theorem ensure_of_none (absent : i.series.get? labels.canonical = none) :
    i.ensure labels =
      { i with series := i.series.insert labels.canonical (i.newSeries labels) } := by
  refine eq_of_bare rfl fun l => ?_
  by_cases at_ : labels.canonical = l
  · subst at_
    rw [get?_ensure_self, seriesFor_of_none absent, Keyed.get?_insert_self]
  · rw [get?_ensure_of_ne i at_, Keyed.get?_insert_of_ne _ _ at_]

theorem ensure_ne_self (absent : i.series.get? labels.canonical = none) : i.ensure labels ≠ i := by
  intro same
  have found := i.get?_ensure_self labels
  rw [same, absent] at found
  cases found

/-- A handle that has just been taken is on the series of its labels. -/
theorem seriesOf?_bind (at_ : h.labels = labels.canonical)
    (born : h.born = (i.seriesFor labels).born) :
    (i.bind labels).seriesOf? h = some (i.seriesFor labels).retain := by
  rw [seriesOf?_eq_some_iff, at_, get?_bind_self]
  exact ⟨rfl, born.symm⟩

/-- Taking a handle and giving it back makes sure that there is the series. -/
theorem release_bind (at_ : h.labels = labels.canonical)
    (born : h.born = (i.seriesFor labels).born) :
    (i.bind labels).modifyHeld h Series.release = i.ensure labels := by
  refine eq_of_bare rfl fun l => ?_
  by_cases here : labels.canonical = l
  · subst here
    rw [get?_ensure_self, ← at_, get?_modifyHeld_self (seriesOf?_bind at_ born)]
    rfl
  · rw [get?_ensure_of_ne i here, get?_modifyHeld_of_ne _ _ (at_ ▸ here),
      get?_bind_of_ne i labels here]

/-- Adding a value by a handle that is taken for it and given back is adding it at once, and making
sure that there is the series. -/
theorem release_addHeld_bind (at_ : h.labels = labels.canonical)
    (born : h.born = (i.seriesFor labels).born) :
    ((i.bind labels).addHeld h value).modifyHeld h Series.release =
      (i.recordChecked value labels).ensure labels := by
  cases enabled : i.descriptor.enabled with
  | false =>
    have disabled : ¬(i.bind labels).descriptor.enabled = true := Bool.eq_false_iff.1 enabled
    rw [recordChecked_of_disabled enabled, addHeld, if_neg disabled]
    exact release_bind at_ born
  | true =>
    have recorded := get?_recordChecked_self enabled value labels
    have enabled' : (i.bind labels).descriptor.enabled = true := enabled
    rw [ensure_of_some recorded, addHeld, if_pos enabled']
    refine eq_of_bare ?_ fun l => ?_
    · exact ((local_recordChecked value labels).bare i).symm
    · by_cases here : labels.canonical = l
      · subst here
        have updated := get?_modifyHeld_self (seriesOf?_bind at_ born)
          fun s => s.update (i.descriptor.number value)
        have held := seriesOf?_eq_some_iff.2 ⟨updated, born.symm⟩
        rw [recorded, ← at_]
        exact (get?_modifyHeld_self held _).trans (congrArg some (Series.release_update_retain _ _))
      · rw [get?_recordChecked_of_ne i value here, get?_modifyHeld_of_ne _ _ (at_ ▸ here),
          get?_modifyHeld_of_ne _ _ (at_ ▸ here), get?_bind_of_ne i labels here]

/-- A value that is refused, or that a disabled instrument takes, changes nothing. -/
theorem recorded_of_not (unrecorded : ¬(i.descriptor.enabled = true ∧ i.descriptor.Takes value)) :
    (i.ifTakes value fun i => i.recordChecked value labels) = i := by
  cases checked : i.descriptor.check value with
  | error e => exact ifTakes_of_error checked _
  | ok =>
    have takes := Descriptor.check_eq_ok_iff.1 checked
    have disabled : i.descriptor.enabled = false :=
      Bool.eq_false_iff.2 fun enabled => unrecorded ⟨enabled, takes⟩
    rw [ifTakes_of_ok checked, recordChecked_of_disabled disabled]

/-- After a value that is recorded, and if there was one before, there is a series of the labels. -/
theorem exists_recorded (registered : (i.series.get? labels.canonical).isSome = true ∨
      i.descriptor.enabled = true ∧ i.descriptor.Takes value) :
    ∃ s, (i.ifTakes value fun i => i.recordChecked value labels).series.get? labels.canonical =
      some s := by
  by_cases recorded : i.descriptor.enabled = true ∧ i.descriptor.Takes value
  · rw [ifTakes_of_ok (Descriptor.check_eq_ok_iff.2 recorded.2),
      get?_recordChecked_self recorded.1]
    exact ⟨_, rfl⟩
  · rw [recorded_of_not recorded]
    exact Option.isSome_iff_exists.1 (registered.resolve_right recorded)

end Instrument

namespace Provider

variable {p : Provider} {u : Update} {i : Instrument}

/-- Adds a value by a handle that is taken for it and given back. -/
def recordBound (p : Provider) (u : Update) : Except Error Unit × Provider :=
  let bound := p.bind u.instrument u.labels
  let held := bound.2.recordHeld bound.1 u.value
  (held.1, held.2.release bound.1)

theorem modify_note (p : Provider) (e : Event) (id : InstrumentId) (f : Instrument → Instrument) :
    (p.note e).modify id f = (p.modify id f).note e := rfl

/-- Adding a value by a handle is adding it at once and making sure that there is the series. -/
theorem recordBound_eq (found : p.instrument? u.instrument = some i) :
    p.recordBound u =
      ((p.record u).1, (p.record u).2.modify u.instrument fun i => i.ensure u.labels) := by
  have only_ : ∀ j, p.instrument? u.instrument = some j → i = j :=
    fun j found' => Option.some.inj (found.symm.trans found')
  obtain ⟨h, at_⟩ : ∃ h : Handle,
    h = ⟨u.instrument, u.labels.canonical, (i.seriesFor u.labels).born⟩ := ⟨_, rfl⟩
  have place : h.instrument = u.instrument := by rw [at_]
  have labels : h.labels = u.labels.canonical := by rw [at_]
  have born : h.born = (i.seriesFor u.labels).born := by rw [at_]
  have present : (p.modify u.instrument fun i => i.bind u.labels).instrument? h.instrument =
      some (i.bind u.labels) := by
    rw [place]
    exact (puts_modify found _).self
  -- Either way only this instrument is changed, so the two are compared there.
  simp only [recordBound, bind_of_some found, ← at_]
  cases checked : i.descriptor.check u.value with
  | error e =>
    have refused : (i.bind u.labels).descriptor.check u.value = .error e := checked
    rw [recordHeld_of_error present refused, record_of_error found checked]
    refine congrArg (Prod.mk _) ?_
    rw [release, modifyHeld, place, modify_modify]
    refine modify_congr fun j found' => ?_
    obtain rfl := only_ j found'
    exact Instrument.release_bind labels born
  | ok =>
    have accepted : (i.bind u.labels).descriptor.check u.value = .ok () := checked
    rw [recordHeld_of_ok present accepted, record_of_ok found checked]
    refine congrArg (Prod.mk _) ?_
    rw [release, modifyHeld, modify_note, modify_note, place, labels, modify_modify, modify_modify,
      modify_modify]
    refine congrArg (fun q : Provider => q.note _) (modify_congr fun j found' => ?_)
    obtain rfl := only_ j found'
    exact Instrument.release_addHeld_bind labels born

theorem puts_record (found : p.instrument? u.instrument = some i) :
    Puts p (p.record u).2 u.instrument
      (i.ifTakes u.value fun i => i.recordChecked u.value u.labels) := by
  cases checked : i.descriptor.check u.value with
  | error e =>
    rw [record_of_error found checked, Instrument.ifTakes_of_error checked]
    intro id
    split
    · rename_i at_
      rw [at_, found]
    · rfl
  | ok =>
    rw [record_of_ok found checked, Instrument.ifTakes_of_ok checked]
    exact puts_modify found _

/-- A value that is added at once and one that is added by a handle, which is taken for it and given
back, are answered alike. They lead to the same state exactly if the value is recorded or there was
the series before. Otherwise the value that is added at once leaves every instrument as it was, and
the handle leaves one more series, which is new: empty, not marked and without references. -/
theorem one_shot_update_eq_bound (found : p.instrument? u.instrument = some i) :
    (p.recordBound u).1 = (p.record u).1 ∧
    ((p.recordBound u).2 = (p.record u).2 ↔
      (i.series.get? u.labels.canonical).isSome = true ∨
        i.descriptor.enabled = true ∧ i.descriptor.Takes u.value) ∧
    (i.series.get? u.labels.canonical = none →
      ¬(i.descriptor.enabled = true ∧ i.descriptor.Takes u.value) →
        (∀ id, (p.record u).2.instrument? id = p.instrument? id) ∧
        Puts p (p.recordBound u).2 u.instrument
          { i with series := i.series.insert u.labels.canonical (i.newSeries u.labels) }) := by
  have direct := puts_record found
  have unchanged : ¬(i.descriptor.enabled = true ∧ i.descriptor.Takes u.value) →
      ∀ id, (p.record u).2.instrument? id = p.instrument? id := by
    intro unrecorded id
    rw [Instrument.recorded_of_not unrecorded] at direct
    rw [direct id]
    split
    · rename_i at_
      rw [at_, found]
    · rfl
  rw [recordBound_eq found]
  refine ⟨rfl, ⟨fun same => ?_, fun registered => ?_⟩, fun absent unrecorded => ?_⟩
  · by_contra apart
    rw [not_or] at apart
    have absent := Option.not_isSome_iff_eq_none.1 apart.1
    have still := (unchanged apart.2 u.instrument).trans found
    have ensured := (puts_modify still fun i => i.ensure u.labels).self
    have same : (p.record u).2.modify u.instrument (fun i => i.ensure u.labels) = (p.record u).2 :=
      same
    rw [same, still] at ensured
    exact Instrument.ensure_ne_self absent (Option.some.inj ensured).symm
  · obtain ⟨s, present⟩ := Instrument.exists_recorded registered
    refine modify_of_fixed fun j found' => ?_
    obtain rfl := Option.some.inj (direct.self.symm.trans found')
    exact Instrument.ensure_of_some present
  · refine ⟨unchanged unrecorded, fun id => ?_⟩
    have still := (unchanged unrecorded u.instrument).trans found
    rw [← Instrument.ensure_of_none absent]
    refine (puts_modify still (fun i => i.ensure u.labels) id).trans ?_
    rw [unchanged unrecorded id]

/-- A hit that is counted by a handle, which is taken for it and given back, might have been counted
at once. -/
theorem counted_hit_eq_bound :
    let hits : Descriptor := ⟨"hits", "", "", .counter, .int64, true⟩
    let p := (empty.create "c" "m" hits none []).2
    let hit : Update := ⟨⟨"m", "hits"⟩, .integer 3, .ofList [("color", "red")]⟩
    (∃ i, p.instrument? hit.instrument = some i) ∧ p.recordBound hit = p.record hit := by
  intro hits p hit
  have described : (p.instrument? hit.instrument).map Instrument.descriptor = some hits := by
    decide +kernel
  obtain ⟨i, found, descriptor⟩ := Option.map_eq_some_iff.1 described
  have takes : i.descriptor.Takes hit.value := by
    rw [descriptor, ← Descriptor.check_eq_ok_iff]
    rfl
  obtain ⟨answers, states, -⟩ := one_shot_update_eq_bound found
  exact ⟨⟨i, found⟩, Prod.ext answers (states.2 (.inr ⟨by rw [descriptor], takes⟩))⟩

/-- A counter refuses a negative value. At once it leaves no series and nothing is reported; by a
handle, which is given back, it leaves one, which is reported. A disabled counter takes a value, and
the handle leaves a series too. -/
theorem refused_value_leaves_series_of_handle :
    let hits : Descriptor := ⟨"hits", "", "", .counter, .int64, true⟩
    let misses : Descriptor := ⟨"misses", "", "", .counter, .int64, false⟩
    let p := ((empty.create "c" "m" hits none []).2.create "d" "m" misses none []).2
    let red := LabelSet.ofList [("color", "red")]
    let refused : Update := ⟨⟨"m", "hits"⟩, .integer (-1), red⟩
    let unheard : Update := ⟨⟨"m", "misses"⟩, .integer 1, red⟩
    let clock : Nat → Timestamp := fun _ => default
    (p.recordBound refused).1 = (p.record refused).1 ∧
      (p.record refused).2.series? ⟨"m", "hits"⟩ red.canonical = none ∧
      ((p.recordBound refused).2.series? ⟨"m", "hits"⟩ red.canonical).isSome = true ∧
      ((p.record refused).2.collect clock "m").1 = [] ∧
      ((p.recordBound refused).2.collect clock "m").1.map Record.value = [.sum (.integer 0)] ∧
      (p.recordBound unheard).1 = .ok () ∧ (p.record unheard).1 = .ok () ∧
      (p.record unheard).2.series? ⟨"m", "misses"⟩ red.canonical = none ∧
      ((p.recordBound unheard).2.series? ⟨"m", "misses"⟩ red.canonical).isSome = true := by
  decide +kernel

end Provider

end Metering
