import Mathlib.Data.List.Perm.Basic
import Metering.Proofs.Provider.View

/-!
# What a program learns

A program learns of each update whether it was accepted, and is given the records of the collections
that it asks for; callbacks learn the same in their runs, which the journal lists. `Yields` compares
this with what happened to the series: nothing that happened is kept back or told twice.
-/

namespace Metering

/-- What can be learnt of a series: that a value was accepted, or what was collected. -/
inductive Outcome
  | accepted (instrument : InstrumentId) (labels : String) (value : Number)
  | collected (record : Record)

/-- What the answer to an update says. -/
def Outcome.ofResult (id : InstrumentId) (l : String) (v : Number) :
    Except Error Unit → List Outcome
  | .ok () => [.accepted id l v]
  | .error _ => []

/-- What the action of a callback brought. -/
def Done.outcomes : Done → List Outcome
  | .recorded u result => Outcome.ofResult u.instrument u.labels.canonical u.value result
  | .collected records => records.map .collected
  | _ => []

/-- What the actions of a run of a callback brought. -/
def CallbackRun.outcomes (run : CallbackRun) : List Outcome := run.did.flatMap Done.outcomes

/-- What there is to learn of an event. -/
def Event.outcomes : Event → List Outcome
  | .accepted id l v => [.accepted id l v]
  | .swept _ _ records => records.map .collected

namespace Provider

variable {nested : Collection} {p q r : Provider} {os os' : List Outcome}

/-- From `p` to `q`, what happened to the series is told by `os` and by the runs of callbacks that
ended. -/
def Yields (p : Provider) (os : List Outcome) (q : Provider) : Prop :=
  ∃ runs events, q.journal = p.journal ++ runs ∧ q.history = events ++ p.history ∧
    (os ++ runs.flatMap CallbackRun.outcomes).Perm (events.flatMap Event.outcomes)

theorem yields_of_same (journal : q.journal = p.journal) (history : q.history = p.history) :
    Yields p [] q :=
  ⟨[], [], by rw [journal, List.append_nil], history, .nil⟩

theorem yields_of_event {e : Event} (journal : q.journal = p.journal)
    (history : q.history = e :: p.history) : Yields p e.outcomes q := by
  refine ⟨[], [e], by rw [journal, List.append_nil], history, ?_⟩
  rw [List.flatMap_nil, List.append_nil, List.flatMap_singleton]

theorem Yields.trans (first : Yields p os q) (second : Yields q os' r) :
    Yields p (os ++ os') r := by
  obtain ⟨runs, events, journal, history, told⟩ := first
  obtain ⟨runs', events', journal', history', told'⟩ := second
  refine ⟨runs ++ runs', events' ++ events, ?_, ?_, ?_⟩
  · rw [journal', journal, List.append_assoc]
  · rw [history', history, List.append_assoc]
  · rw [List.flatMap_append, List.flatMap_append]
    refine .trans ?_ ((told.append told').trans List.perm_append_comm)
    simp only [List.append_assoc]
    refine .append_left os ?_
    simp only [← List.append_assoc]
    exact .append_right _ List.perm_append_comm

/-- What a callback learnt goes to the journal when its run ends. -/
theorem Yields.ended (run : CallbackRun) (learnt : Yields p run.outcomes q) :
    Yields p [] { q with journal := q.journal ++ [run] } := by
  obtain ⟨runs, events, journal, history, told⟩ := learnt
  refine ⟨runs ++ [run], events, ?_, history, ?_⟩
  · change q.journal ++ [run] = _
    rw [journal, List.append_assoc]
  · rw [List.flatMap_append, List.flatMap_singleton, List.nil_append]
    exact List.perm_append_comm.trans told

/-! ## Values -/

theorem yields_record (p : Provider) (u : Update) :
    Yields p (Done.recorded u (p.record u).1).outcomes (p.record u).2 := by
  have journal : (p.record u).2.journal = p.journal := by
    unfold record
    split
    · rfl
    · split <;> rfl
  rcases p.record_spec u with ⟨e, refused⟩ | ⟨i, -, -, accepted, -, history⟩
  · rw [refused]
    exact yields_of_same rfl rfl
  · rw [accepted]
    exact yields_of_event journal history

theorem yields_recordHeld (p : Provider) (h : Handle) (value : Number) :
    Yields p (Outcome.ofResult h.instrument h.labels value (p.recordHeld h value).1)
      (p.recordHeld h value).2 := by
  have journal : (p.recordHeld h value).2.journal = p.journal := by
    unfold recordHeld
    split
    · rfl
    · split <;> rfl
  rcases p.recordHeld_spec h value with ⟨e, refused⟩ | ⟨i, -, -, accepted, -, history⟩
  · rw [refused]
    exact yields_of_same rfl rfl
  · rw [accepted]
    exact yields_of_event journal history

theorem yields_create (p : Provider) (tag meter : String) (d : Descriptor)
    (choice : Option Aggregation) (script : List (List Action)) :
    Yields p [] (p.create tag meter d choice script).2 := by
  unfold create
  simp only
  split <;> exact yields_of_same rfl rfl

theorem yields_recordAll (labels : LabelSet) (ms : List Measurement) : ∀ p : Provider,
    Yields p (ms.map fun m => .accepted m.instrument labels.canonical m.value)
      (p.recordAll labels ms) := by
  induction ms with
  | nil => exact fun _ => yields_of_same rfl rfl
  | cons m rest ih =>
    intro p
    have first : Yields p [.accepted m.instrument labels.canonical m.value]
        ((p.modify m.instrument fun i => i.recordChecked m.value labels).note
          (.accepted m.instrument labels.canonical m.value)) :=
      yields_of_event (e := .accepted m.instrument labels.canonical m.value) rfl rfl
    exact first.trans (ih _)

/-! ## Collections -/

/-- A collection that returns every record that it takes, or gives it to a callback. -/
def Lossless (nested : Collection) : Prop :=
  ∀ meter p, Yields p ((nested meter p).1.map .collected) (nested meter p).2

theorem yields_act (lossless : Lossless nested) (owner : InstrumentId) (p : Provider) (a : Action) :
    Yields p (p.act nested owner a).1.outcomes (p.act nested owner a).2 := by
  cases a with
  | observe value labels => exact yields_record p _
  | update tag value labels =>
    simp only [act]
    cases p.tags.get? tag with
    | none => exact yields_of_same rfl rfl
    | some id => exact yields_record p ⟨id, value, labels⟩
  | create tag meter d choice script => exact yields_create p tag meter d choice script
  | collect meter => exact lossless meter p

theorem yields_actAll (lossless : Lossless nested) (owner : InstrumentId) (actions : List Action) :
    ∀ p : Provider, Yields p ((p.actAll nested owner actions).1.flatMap Done.outcomes)
      (p.actAll nested owner actions).2 := by
  induction actions with
  | nil => exact fun _ => yields_of_same rfl rfl
  | cons a rest ih => exact fun p => (yields_act lossless owner p a).trans (ih _)

theorem yields_runCallback (lossless : Lossless nested) (reading : Nat) (id : InstrumentId)
    (p : Provider) : Yields p [] (p.runCallback nested reading id) := by
  unfold runCallback
  cases (p.instrument? id).bind Instrument.callback with
  | none => exact yields_of_same rfl rfl
  | some c =>
    have learnt := yields_actAll lossless id c.next.1
      (p.modify id fun i => { i with callback := some c.next.2 })
    exact Yields.ended (p := p) ⟨c.tag, c.calls, reading, id, _⟩ learnt

theorem yields_sweep (clock : Nat → Timestamp) (reading : Nat) (id : InstrumentId) (p : Provider) :
    Yields p ((p.sweep clock reading id).1.map .collected) (p.sweep clock reading id).2 := by
  unfold sweep
  cases p.instrument? id with
  | none => exact yields_of_same rfl rfl
  | some i => exact yields_of_event (e := .swept reading id (i.sweep (clock reading)).1) rfl rfl

theorem yields_collectInstrument (clock : Nat → Timestamp) (lossless : Lossless nested)
    (reading : Nat) (id : InstrumentId) (p : Provider) :
    Yields p ((p.collectInstrument clock nested reading id).1.map .collected)
      (p.collectInstrument clock nested reading id).2 := by
  unfold collectInstrument
  split
  · exact (yields_runCallback lossless reading id p).trans (yields_sweep clock reading id _)
  · exact yields_of_same rfl rfl

theorem yields_collectEach (clock : Nat → Timestamp) (lossless : Lossless nested) (reading : Nat)
    (meter : String) (names : List String) : ∀ p : Provider,
      Yields p ((p.collectEach clock nested reading meter names).1.map .collected)
        (p.collectEach clock nested reading meter names).2 := by
  induction names with
  | nil => exact fun _ => yields_of_same rfl rfl
  | cons name rest ih =>
    intro p
    have first := yields_collectInstrument clock lossless reading ⟨meter, name⟩ p
    simp only [collectEach, List.map_append]
    exact first.trans (ih _)

/-- However deep collections are nested, no record is lost. -/
theorem lossless_collectWithin (clock : Nat → Timestamp) (depth : Nat) :
    Lossless (collectWithin clock depth) := by
  induction depth with
  | zero => exact fun _ _ => yields_of_same rfl rfl
  | succ depth ih => exact fun meter p => yields_collectEach clock ih p.readings meter _ _

theorem yields_collect (clock : Nat → Timestamp) (meter : String) (p : Provider) :
    Yields p ((p.collect clock meter).1.map .collected) (p.collect clock meter).2 :=
  lossless_collectWithin clock p.depth meter p

end Provider

end Metering
