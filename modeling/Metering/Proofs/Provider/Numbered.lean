import Metering.Proofs.Provider.View

/-!
# The calls of a callback are numbered

Each callback counts its calls, and the journal notes a run with the number of the call. Callbacks may
be called again while they run, and the runs are noted in the order in which they end, but no number
is used twice: `Numbers` follows the numbers through nested collections, so the instrument and the
number tell a run of the journal from every other.
-/

namespace Metering.Provider

variable {nested : Collection} {p q r : Provider} {id : InstrumentId}

/-- How often the callback of an instrument has been called. -/
def called (p : Provider) (id : InstrumentId) : Nat :=
  (((p.instrument? id).bind Instrument.callback).map Callback.calls).getD 0

/-- From `p` to `q`, the runs of callbacks that ended are those of calls made in between, each noted
once. -/
def Numbers (p q : Provider) : Prop :=
  (∀ id, p.called id ≤ q.called id) ∧ ∃ runs, q.journal = p.journal ++ runs ∧
    (∀ run ∈ runs, p.called run.instrument ≤ run.call ∧ run.call < q.called run.instrument) ∧
    runs.Pairwise fun run run' => run.instrument = run'.instrument → run.call ≠ run'.call

theorem numbers_of_called (called : ∀ id, q.called id = p.called id)
    (journal : q.journal = p.journal) : Numbers p q :=
  ⟨fun id => Nat.le_of_eq (called id).symm, [], by rw [journal, List.append_nil], nofun, .nil⟩

theorem Numbers.refl (p : Provider) : Numbers p p := numbers_of_called (fun _ => rfl) rfl

theorem Numbers.trans (first : Numbers p q) (second : Numbers q r) : Numbers p r := by
  obtain ⟨more, runs, journal, within, apart⟩ := first
  obtain ⟨more', runs', journal', within', apart'⟩ := second
  refine ⟨fun id => Nat.le_trans (more id) (more' id), runs ++ runs', ?_, fun run member => ?_, ?_⟩
  · rw [journal', journal, List.append_assoc]
  · rcases List.mem_append.1 member with early | late
    · have bounds := within run early
      exact ⟨bounds.1, Nat.lt_of_lt_of_le bounds.2 (more' run.instrument)⟩
    · have bounds := within' run late
      exact ⟨Nat.le_trans (more run.instrument) bounds.1, bounds.2⟩
  · refine List.pairwise_append.2 ⟨apart, apart', fun run early run' late same => ?_⟩
    have before := (within run early).2
    have after := (within' run' late).1
    rw [← same] at after
    omega

/-! ## What calls no callback -/

theorem called_of_instrument? (same : q.instrument? = p.instrument?) (id : InstrumentId) :
    q.called id = p.called id := by
  rw [called, same, called]

theorem called_modify {f : Instrument → Instrument}
    (callback : ∀ i, p.instrument? id = some i → (f i).callback = i.callback)
    (id' : InstrumentId) : (p.modify id f).called id' = p.called id' := by
  rw [called, instrument?_modify, called]
  split
  · rename_i here
    rw [here]
    cases found : p.instrument? id with
    | none => rfl
    | some i => rw [Option.map_some, Option.bind_some, Option.bind_some, callback i found]
  · rfl

theorem numbers_modify {f : Instrument → Instrument}
    (callback : ∀ i, p.instrument? id = some i → (f i).callback = i.callback) :
    Numbers p (p.modify id f) :=
  numbers_of_called (called_modify callback) rfl

theorem numbers_use (p : Provider) (name : String) : Numbers p (p.use name) :=
  numbers_of_called (called_of_instrument? (p.instrument?_use name)) rfl

theorem numbers_record (p : Provider) (u : Update) : Numbers p (p.record u).2 := by
  cases found : p.instrument? u.instrument with
  | none =>
    rw [record_of_absent found]
    exact .refl p
  | some i =>
    cases checked : i.descriptor.check u.value with
    | error e =>
      rw [record_of_error found checked]
      exact .refl p
    | ok =>
      rw [record_of_ok found checked]
      exact numbers_of_called (called_modify fun _ _ => Instrument.callback_recordChecked ..) rfl

theorem numbers_recordHeld (p : Provider) (h : Handle) (value : Number) :
    Numbers p (p.recordHeld h value).2 := by
  cases found : p.instrument? h.instrument with
  | none =>
    rw [recordHeld_of_absent found]
    exact .refl p
  | some i =>
    cases checked : i.descriptor.check value with
    | error e =>
      rw [recordHeld_of_error found checked]
      exact .refl p
    | ok =>
      rw [recordHeld_of_ok found checked]
      refine numbers_of_called (called_modify fun i _ => ?_) rfl
      unfold Instrument.addHeld
      split <;> rfl

theorem numbers_recordAll (labels : LabelSet) (ms : List Measurement) :
    ∀ p : Provider, Numbers p (p.recordAll labels ms) := by
  induction ms with
  | nil => exact Numbers.refl
  | cons m rest ih =>
    intro p
    have first : Numbers p ((p.modify m.instrument fun i => i.recordChecked m.value labels).note
        (.accepted m.instrument labels.canonical m.value)) :=
      numbers_of_called (called_modify fun _ _ => Instrument.callback_recordChecked ..) rfl
    exact first.trans (ih _)

/-- A new callback has not been called. -/
theorem numbers_create (p : Provider) (tag meter : String) (d : Descriptor)
    (choice : Option Aggregation) (script : List (List Action)) :
    Numbers p (p.create tag meter d choice script).2 := by
  have journal : (p.create tag meter d choice script).2.journal = p.journal := by
    unfold create
    simp only
    split <;> rfl
  refine numbers_of_called (fun id => ?_) journal
  rcases p.create_spec tag meter d choice script with
    ⟨e, -, unchanged⟩ | ⟨-, -, free, puts, -⟩
  · rw [unchanged]
    exact called_of_instrument? (p.instrument?_use meter) id
  · rw [called, puts id, called]
    split
    · rename_i here
      rw [here, free, Option.bind_some]
      unfold Instrument.new
      split <;> rfl
    · rfl

/-! ## Collections -/

/-- Collections that use each number once. -/
def Numbering (nested : Collection) : Prop := ∀ meter p, Numbers p (nested meter p).2

theorem numbers_act (numbering : Numbering nested) (owner : InstrumentId) (p : Provider)
    (a : Action) : Numbers p (p.act nested owner a).2 := by
  cases a with
  | observe value labels => exact numbers_record p _
  | update tag value labels =>
    simp only [act]
    cases p.tags.get? tag with
    | none => exact .refl p
    | some id => exact numbers_record p ⟨id, value, labels⟩
  | create tag meter d choice script => exact numbers_create p tag meter d choice script
  | collect meter => exact numbering meter p

theorem numbers_actAll (numbering : Numbering nested) (owner : InstrumentId)
    (actions : List Action) : ∀ p : Provider, Numbers p (p.actAll nested owner actions).2 := by
  induction actions with
  | nil => exact Numbers.refl
  | cons a rest ih => exact fun p => (numbers_act numbering owner p a).trans (ih _)

/-- A run that took the next number is noted after what was called in the meantime. -/
theorem Numbers.noted {p' : Provider} (run : CallbackRun) (first : p.called run.instrument = run.call)
    (taken : ∀ id, p'.called id = if id = run.instrument then run.call + 1 else p.called id)
    (journal : p'.journal = p.journal) (meantime : Numbers p' q) :
    Numbers p { q with journal := q.journal ++ [run] } := by
  obtain ⟨more, runs, noted, within, apart⟩ := meantime
  have grown : ∀ id, p.called id ≤ p'.called id := by
    intro id
    rw [taken id]
    split
    · rename_i here
      rw [here]
      omega
    · exact Nat.le_refl _
  refine ⟨fun id => Nat.le_trans (grown id) (more id), runs ++ [run], ?_, fun run' member => ?_, ?_⟩
  · change q.journal ++ [run] = _
    rw [noted, journal, List.append_assoc]
  · rcases List.mem_append.1 member with inner | last
    · have bounds := within run' inner
      exact ⟨Nat.le_trans (grown run'.instrument) bounds.1, bounds.2⟩
    · cases List.mem_singleton.1 last
      have own := more run.instrument
      rw [taken, if_pos rfl] at own
      exact ⟨Nat.le_of_eq first, own⟩
  · refine List.pairwise_append.2 ⟨apart, List.pairwise_singleton .., fun run' inner last only => ?_⟩
    cases List.mem_singleton.1 only
    intro here
    have bound := (within run' inner).1
    rw [taken, if_pos here] at bound
    exact Nat.ne_of_gt bound

theorem called_advance {i : Instrument} {c : Callback} (found : p.instrument? id = some i)
    (id' : InstrumentId) :
    (p.modify id fun i => { i with callback := some c.next.2 }).called id' =
      if id' = id then c.calls + 1 else p.called id' := by
  rw [called, instrument?_modify, called]
  split
  · rename_i here
    rw [here, found]
    change c.next.2.calls = _
    unfold Callback.next
    split <;> rfl
  · rfl

theorem numbers_runCallback (numbering : Numbering nested) (reading : Nat) (id : InstrumentId)
    (p : Provider) : Numbers p (p.runCallback nested reading id) := by
  unfold runCallback
  cases found : p.instrument? id with
  | none => exact .refl p
  | some i =>
    cases observer : i.callback with
    | none =>
      rw [Option.bind_some, observer]
      exact .refl p
    | some c =>
      rw [Option.bind_some, observer]
      have first : p.called id = c.calls := by
        rw [called, found, Option.bind_some, observer]
        rfl
      exact Numbers.noted ⟨c.tag, c.calls, reading, id, _⟩ first (called_advance found) rfl
        (numbers_actAll numbering id c.next.1 _)

theorem numbers_sweep (clock : Nat → Timestamp) (reading : Nat) (id : InstrumentId)
    (p : Provider) : Numbers p (p.sweep clock reading id).2 := by
  unfold sweep
  cases found : p.instrument? id with
  | none => exact .refl p
  | some i =>
    refine numbers_of_called (called_modify fun j found' => ?_) rfl
    cases found.symm.trans found'
    rfl

theorem numbers_collectInstrument (clock : Nat → Timestamp) (numbering : Numbering nested)
    (reading : Nat) (id : InstrumentId) (p : Provider) :
    Numbers p (p.collectInstrument clock nested reading id).2 := by
  unfold collectInstrument
  split
  · exact (numbers_runCallback numbering reading id p).trans (numbers_sweep clock reading id _)
  · exact .refl p

theorem numbers_collectEach (clock : Nat → Timestamp) (numbering : Numbering nested)
    (reading : Nat) (meter : String) (names : List String) :
    ∀ p : Provider, Numbers p (p.collectEach clock nested reading meter names).2 := by
  induction names with
  | nil => exact Numbers.refl
  | cons name rest ih =>
    exact fun p => (numbers_collectInstrument clock numbering reading ⟨meter, name⟩ p).trans (ih _)

theorem numbering_collectMeter (clock : Nat → Timestamp) (numbering : Numbering nested) :
    Numbering (collectMeter clock nested) := by
  intro meter p
  have used : Numbers p { p.use meter with readings := p.readings + 1 } := numbers_use p meter
  exact used.trans (numbers_collectEach clock numbering p.readings meter _ _)

/-- However deep collections are nested, no number of a call is used twice. -/
theorem numbering_collectWithin (clock : Nat → Timestamp) (depth : Nat) :
    Numbering (collectWithin clock depth) := by
  induction depth with
  | zero => exact fun _ p => .refl p
  | succ depth ih => exact numbering_collectMeter clock ih

theorem numbers_collect (clock : Nat → Timestamp) (meter : String) (p : Provider) :
    Numbers p (p.collect clock meter).2 :=
  numbering_collectWithin clock p.depth meter p

end Metering.Provider
