import Metering.Proofs.Instrument.Series

/-!
# Operations on one series of an instrument

What an instrument is besides its series, and its series one by one, make up the whole instrument:
`Instrument.only` shows it with a single series. An operation is local to the series of some labels
if that is all it looks at and changes. Taking a handle, using it and adding a value are local.
-/

namespace Metering.Instrument

variable {i j : Instrument} {l l' : String} {f : Instrument → Instrument}
  {value : Number}

/-- The instrument without its series. -/
def bare (i : Instrument) : Instrument := { i with series := ∅ }

/-- The instrument with no other series than the one of some canonical labels. -/
def only (i : Instrument) (l : String) : Instrument :=
  { i with series := i.series.filter fun l' _ => l' = l }

theorem get?_only (i : Instrument) (l l' : String) :
    (i.only l).series.get? l' = if l' = l then i.series.get? l' else none := by
  rw [only, Keyed.get?_filter]
  by_cases same : l' = l <;> cases i.series.get? l' <;> simp [same]

theorem get?_only_self (i : Instrument) (l : String) :
    (i.only l).series.get? l = i.series.get? l := by
  rw [get?_only, if_pos rfl]

theorem bare_only (i : Instrument) (l : String) : (i.only l).bare = i.bare := rfl

theorem eq_of_bare (bare : i.bare = j.bare) (series : ∀ l, i.series.get? l = j.series.get? l) :
    i = j := by
  have same : i.series = j.series := Keyed.ext_get? series
  cases i
  cases j
  cases same
  cases bare
  rfl

/-- Instruments that show the same series, one by one, are equal. -/
theorem eq_of_only (same : ∀ l, i.only l = j.only l) : i = j := by
  refine eq_of_bare ?_ fun l => ?_
  · rw [← bare_only i "", same, bare_only]
  · rw [← get?_only_self, same, get?_only_self]

/-- An operation that looks at no other series than one, and changes no other. -/
structure Local (l : String) (f : Instrument → Instrument) : Prop where
  bare : ∀ i, (f i).bare = i.bare
  own : ∀ i, (f i).only l = f (i.only l)
  other : ∀ i {l'}, l' ≠ l → (f i).only l' = i.only l'

theorem local_of (bare : ∀ i, (f i).bare = i.bare)
    (own : ∀ i, (f i).series.get? l = (f (i.only l)).series.get? l)
    (other : ∀ i {l'}, l' ≠ l → (f i).series.get? l' = i.series.get? l') : Local l f := by
  refine ⟨bare, fun i => ?_, fun i l' apart => ?_⟩
  · refine eq_of_bare ?_ fun l' => ?_
    · rw [bare_only, bare, bare, bare_only]
    · rw [get?_only]
      split
      · rename_i at_
        rw [at_, own]
      · rename_i apart
        rw [other _ apart, get?_only, if_neg apart]
  · refine eq_of_bare ?_ fun l'' => ?_
    · rw [bare_only, bare, bare_only]
    · rw [get?_only, get?_only]
      split
      · rename_i at_
        rw [at_, other i apart]
      · rfl

theorem seriesFor_only (i : Instrument) (labels : LabelSet) :
    (i.only labels.canonical).seriesFor labels = i.seriesFor labels := by
  rw [seriesFor, seriesFor, get?_only_self]
  rfl

theorem local_bind (labels : LabelSet) : Local labels.canonical fun i => i.bind labels := by
  refine local_of (fun _ => rfl) (fun i => ?_) fun i l' apart => get?_bind_of_ne i labels apart.symm
  rw [get?_bind_self, get?_bind_self, seriesFor_only]

theorem local_modifyHeld (h : Handle) (f : Series → Series) :
    Local h.labels fun i => i.modifyHeld h f := by
  refine local_of (fun _ => rfl) (fun i => ?_) fun i l' apart => get?_modifyHeld_of_ne i f apart.symm
  rw [modifyHeld, modifySeries, Keyed.get?_modify_self, modifyHeld, modifySeries,
    Keyed.get?_modify_self, get?_only_self]

theorem local_recordChecked (value : Number) (labels : LabelSet) :
    Local labels.canonical fun i => i.recordChecked value labels := by
  refine local_of (fun i => ?_) (fun i => ?_)
    fun i l' apart => get?_recordChecked_of_ne i value apart.symm
  · unfold recordChecked
    split <;> rfl
  · cases enabled : i.descriptor.enabled with
    | true =>
      have enabled' : (i.only labels.canonical).descriptor.enabled = true := enabled
      rw [get?_recordChecked_self enabled, get?_recordChecked_self enabled', seriesFor_only]
      rfl
    | false =>
      have disabled : (i.only labels.canonical).descriptor.enabled = false := enabled
      rw [recordChecked_of_disabled enabled, recordChecked_of_disabled disabled, get?_only_self]

theorem local_addHeld (h : Handle) (value : Number) :
    Local h.labels fun i => i.addHeld h value := by
  refine ⟨fun i => ?_, fun i => ?_, fun i l' apart => ?_⟩
  · unfold addHeld
    split <;> rfl
  · have same : (i.only h.labels).descriptor = i.descriptor := rfl
    rw [addHeld, addHeld, same]
    split
    · exact (local_modifyHeld h _).own i
    · rfl
  · unfold addHeld
    split
    · exact (local_modifyHeld h _).other i apart
    · rfl

/-- Does something with an instrument that takes a value, and nothing with others. -/
def ifTakes (i : Instrument) (value : Number) (f : Instrument → Instrument) : Instrument :=
  match i.descriptor.check value with
  | .ok _ => f i
  | .error _ => i

theorem ifTakes_of_ok (checked : i.descriptor.check value = .ok ()) (f : Instrument → Instrument) :
    i.ifTakes value f = f i := by
  rw [ifTakes, checked]

theorem ifTakes_of_error {e : Error} (checked : i.descriptor.check value = .error e)
    (f : Instrument → Instrument) : i.ifTakes value f = i := by
  rw [ifTakes, checked]

theorem Local.ifTakes (local_ : Local l f) (value : Number) : Local l fun i => i.ifTakes value f := by
  refine ⟨fun i => ?_, fun i => ?_, fun i l' apart => ?_⟩ <;>
    cases checked : i.descriptor.check value
  · rw [ifTakes_of_error checked]
  · rw [ifTakes_of_ok checked, local_.bare]
  · rw [ifTakes_of_error checked, ifTakes_of_error (i := i.only l) checked]
  · rw [ifTakes_of_ok checked, ifTakes_of_ok (i := i.only l) checked, local_.own]
  · rw [ifTakes_of_error checked]
  · rw [ifTakes_of_ok checked, local_.other i apart]

end Metering.Instrument
