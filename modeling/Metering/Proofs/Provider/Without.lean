import Mathlib.Algebra.Order.BigOperators.Group.List
import Metering.Proofs.Provider.Batch
import Metering.Proofs.Provider.Depth
import Metering.Proofs.Provider.Numbered
import Metering.Proofs.Turn

/-!
# Leaving an instrument out

`Provider.without` is what a provider would be if one instrument had been created but never used: it
has no series and its callback does nothing, what came to it is struck from the journal and the
history, and the actions with which other callbacks used it are struck from their scripts. Which
actions these are is known once the callbacks have run, so it is read off a `Course`, what every action
of every call came to.

While the instrument is disabled, what is done to it changes nothing besides (`without_record_self`
and its like), and everything else does the same with it and without it, and answers the same. So a
collection of a provider without the instrument is that collection without the instrument
(`collect_without`).
-/

namespace Metering

/-- What the actions of each call of each callback came to, by instrument and number of the call. -/
abbrev Course := InstrumentId → Nat → List Done

/-- The course that a journal tells. -/
def Provider.course (p : Provider) : Course := fun id n =>
  ((p.journal.find? fun run => run.instrument = id ∧ run.call = n).map CallbackRun.did).getD []

/-- Whether an action brought a value to an instrument, be it accepted or refused. -/
def Done.isOn (out : InstrumentId) : Done → Bool
  | .recorded u _ => u.instrument = out
  | _ => false

/-! ## Scripts -/

section Scripts

variable (course : Course) (out : InstrumentId)

mutual

/-- An action without the use that the scripts in it make of an instrument, which does nothing
itself when it is called. -/
def Action.without : Action → Action
  | .observe value labels => .observe value labels
  | .update tag value labels => .update tag value labels
  | .create tag meter d choice script =>
    .create tag meter d choice
      (if (⟨meter, d.name⟩ : InstrumentId) = out then [] else scriptWithout ⟨meter, d.name⟩ 0 script)
  | .collect meter => .collect meter

/-- The actions of one call without those that brought a value to an instrument. -/
def callWithout : List Done → List Action → List Action
  | _, [] => []
  | did, a :: rest =>
    if did.head?.any (Done.isOn out) then callWithout did.tail rest
    else a.without :: callWithout did.tail rest

/-- The calls to come of the callback of an instrument, the first of them with number `n`, without
what they brought to another instrument. -/
def scriptWithout : InstrumentId → Nat → List (List Action) → List (List Action)
  | _, _, [] => []
  | id, n, call :: rest => callWithout (course id n) call :: scriptWithout id (n + 1) rest

end

/-- The script with which an instrument is created: nothing, if it is to be left out. -/
def scriptLeft (id : InstrumentId) (script : List (List Action)) : List (List Action) :=
  if id = out then [] else scriptWithout course out id 0 script

/-- The callback of another instrument without the use that it makes of this one. -/
def Callback.without (id : InstrumentId) (c : Callback) : Callback :=
  match c.source with
  | .script calls => { c with source := .script (scriptWithout course out id c.calls calls) }
  | .backlog _ => c

/-- An instrument, as it would be without the use of the one that is left out. -/
def Instrument.without (id : InstrumentId) (i : Instrument) : Instrument :=
  if id = out then
    .new i.descriptor i.aggregation (i.callback.map fun c => .ofScript c.tag [])
  else { i with callback := i.callback.map (Callback.without course out id) }

/-- A run of a callback without what it brought to an instrument. -/
def CallbackRun.without (run : CallbackRun) : CallbackRun :=
  { run with did := run.did.filter fun done => !done.isOn out }

def Meter.without (name : String) (m : Meter) : Meter :=
  ⟨m.instruments.mapWithKey fun inner i => i.without course out ⟨name, inner⟩⟩

/-- A provider in which an instrument has not been used. -/
def Provider.without (p : Provider) : Provider where
  meters := p.meters.mapWithKey fun name m => m.without course out name
  tags := p.tags
  journal := p.journal.map (CallbackRun.without out)
  readings := p.readings
  history := p.history.filter fun e => e.instrument ≠ out

end Scripts

variable {course : Course} {out : InstrumentId}

theorem callWithout_cons_self {done : Done} (here : done.isOn out = true) (did : List Done)
    (a : Action) (rest : List Action) : callWithout course out (done :: did) (a :: rest) =
      callWithout course out did rest := by
  rw [callWithout]
  exact if_pos here

theorem callWithout_cons_of_not {done : Done} (other : ¬ done.isOn out = true) (did : List Done)
    (a : Action) (rest : List Action) : callWithout course out (done :: did) (a :: rest) =
      a.without course out :: callWithout course out did rest := by
  rw [callWithout]
  exact if_neg other

/-! ### Scripts are not longer without it -/

mutual

theorem Action.collections_without (a : Action) :
    (a.without course out).collections ≤ a.collections := by
  cases a with
  | observe value labels => exact Nat.le_refl _
  | update tag value labels => exact Nat.le_refl _
  | create tag meter d choice script =>
    simp only [Action.without, Action.collections]
    split
    · exact Nat.zero_le _
    · exact scriptCollections_without _ _ script
  | collect meter => exact Nat.le_refl _

theorem callCollections_without (did : List Done) (actions : List Action) :
    callCollections (callWithout course out did actions) ≤ callCollections actions := by
  cases actions with
  | nil => rw [callWithout]
  | cons a rest =>
    have first := Action.collections_without a
    have others := callCollections_without did.tail rest
    rw [callWithout]
    split
    · exact Nat.le_trans others (Nat.le_add_left _ _)
    · exact Nat.add_le_add first others

theorem scriptCollections_without (id : InstrumentId) (n : Nat) (script : List (List Action)) :
    scriptCollections (scriptWithout course out id n script) ≤ scriptCollections script := by
  cases script with
  | nil => rw [scriptWithout]
  | cons call rest =>
    rw [scriptWithout]
    exact Nat.add_le_add (callCollections_without (course id n) call)
      (scriptCollections_without id (n + 1) rest)

end

theorem Callback.collections_without (id : InstrumentId) (c : Callback) :
    (c.without course out id).collections ≤ c.collections := by
  obtain ⟨tag, calls, source⟩ := c
  cases source with
  | script calls => exact scriptCollections_without ..
  | backlog pending => exact Nat.le_refl _

@[simp] theorem Callback.tag_without (id : InstrumentId) (c : Callback) :
    (c.without course out id).tag = c.tag := by
  unfold without
  split <;> rfl

@[simp] theorem Callback.calls_without (id : InstrumentId) (c : Callback) :
    (c.without course out id).calls = c.calls := by
  unfold without
  split <;> rfl

/-- The calls after the next one are thinned as they were. -/
theorem Callback.next_without (id : InstrumentId) (c : Callback) :
    (c.without course out id).next.2 = c.next.2.without course out id := by
  obtain ⟨tag, calls, source⟩ := c
  cases source with
  | script calls =>
    cases calls with
    | nil => rfl
    | cons call rest => rfl
  | backlog pending => rfl

namespace Instrument

variable {i : Instrument} {id : InstrumentId}

theorem without_self (i : Instrument) : i.without course out out =
    .new i.descriptor i.aggregation (i.callback.map fun c => .ofScript c.tag []) :=
  if_pos rfl

theorem without_of_ne (other : id ≠ out) (i : Instrument) : i.without course out id =
    { i with callback := i.callback.map (Callback.without course out id) } :=
  if_neg other

@[simp] theorem descriptor_without (id : InstrumentId) (i : Instrument) :
    (i.without course out id).descriptor = i.descriptor := by
  unfold without
  split <;> rfl

theorem collections_without (id : InstrumentId) (i : Instrument) :
    (i.without course out id).collections ≤ i.collections := by
  unfold without collections
  cases i.callback with
  | none =>
    split <;> exact Nat.le_refl _
  | some c =>
    split
    · exact Nat.zero_le _
    · exact c.collections_without id

/-- What is done to another instrument apart from its callback is done to it without this one. -/
theorem recordChecked_without (other : id ≠ out) (i : Instrument) (value : Number)
    (labels : LabelSet) : (i.recordChecked value labels).without course out id =
      (i.without course out id).recordChecked value labels := by
  rw [without_of_ne other, without_of_ne other]
  unfold recordChecked
  split <;> rfl

theorem addHeld_without (other : id ≠ out) (i : Instrument) (h : Handle) (value : Number) :
    (i.addHeld h value).without course out id = (i.without course out id).addHeld h value := by
  rw [without_of_ne other, without_of_ne other]
  unfold addHeld
  split <;> rfl

theorem addHeld_of_disabled (disabled : i.descriptor.enabled = false) (h : Handle)
    (value : Number) : i.addHeld h value = i := by
  rw [addHeld, disabled]
  rfl

end Instrument

theorem Meter.without_insert (name inner : String) (m : Meter) (i : Instrument) :
    (Meter.mk (m.instruments.insert inner i)).without course out name =
      ⟨(m.without course out name).instruments.insert inner (i.without course out ⟨name, inner⟩)⟩ :=
  congrArg Meter.mk (Keyed.mapWithKey_insert ..)

theorem Meter.size_without (name : String) (m : Meter) :
    (m.without course out name).instruments.size = m.instruments.size := by
  rw [Keyed.size, without, Keyed.mapWithKey, List.length_map]
  rfl

namespace Provider

variable {clock : Nat → Timestamp} {nested : Collection} {p q : Provider} {id : InstrumentId}
  {i : Instrument}

/-! ## What is left of a provider -/

theorem meter_without (p : Provider) (name : String) :
    (p.without course out).meter name = (p.meter name).without course out name := by
  rw [meter, meter, without, Keyed.get?_mapWithKey]
  cases p.meters.get? name <;> rfl

theorem instrument?_without (course : Course) (out : InstrumentId) (p : Provider)
    (id : InstrumentId) :
    (p.without course out).instrument? id =
      (p.instrument? id).map (Instrument.without course out id) := by
  rw [instrument?, meter_without, Meter.without, Meter.get?, Keyed.get?_mapWithKey]
  rfl

theorem names_without (p : Provider) (name : String) :
    ((p.without course out).meter name).names = (p.meter name).names := by
  rw [meter_without]
  exact Keyed.keys_mapWithKey _ _

theorem isSome_without (p : Provider) (name : String) :
    ((p.without course out).meters.get? name).isSome = (p.meters.get? name).isSome := by
  rw [without, Keyed.get?_mapWithKey, Option.isSome_map]

theorem tagged?_without (p : Provider) (tag : String) :
    (p.without course out).tagged? tag =
      (p.tagged? tag).map fun found => (found.1, found.2.without course out found.1) := by
  rw [tagged?, tagged?]
  change (p.tags.get? tag).bind _ = _
  cases p.tags.get? tag with
  | none => rfl
  | some id =>
    rw [Option.bind_some, Option.bind_some, instrument?_without]
    cases p.instrument? id <;> rfl

/-! ## Changes of instruments -/

/-- A change of an instrument with a counterpart for what is left of it. -/
theorem without_modify {f g : Instrument → Instrument}
    (same : ∀ i, p.instrument? id = some i →
      (f i).without course out id = g (i.without course out id)) :
    (p.modify id f).without course out = (p.without course out).modify id g := by
  have meters : ((p.modify id f).without course out).meters =
      ((p.without course out).modify id g).meters := by
    refine meters_eq (fun name => ?_) fun id' => ?_
    · rw [isSome_without, isSome_modify, isSome_modify, isSome_without]
    · rw [instrument?_without, instrument?_modify, instrument?_modify, instrument?_without]
      split
      · rename_i here
        rw [here]
        cases found : p.instrument? id with
        | none => rfl
        | some i => exact congrArg some (same i found)
      · rfl
  exact congrArg (fun ms => { p.without course out with meters := ms }) meters

/-- A change that is not seen without the instrument. -/
theorem without_modify_of_unseen {f : Instrument → Instrument}
    (unseen : ∀ i, p.instrument? id = some i →
      (f i).without course out id = i.without course out id) :
    (p.modify id f).without course out = p.without course out := by
  rw [without_modify (g := fun i => i) unseen]
  exact modify_of_fixed fun _ _ => rfl

theorem without_note_self (p : Provider) {e : Event} (here : e.instrument = out) :
    (p.note e).without course out = p.without course out := by
  rw [without, note, List.filter_cons_of_neg (by simpa using here)]
  rfl

theorem without_note_of_ne (p : Provider) {e : Event} (other : e.instrument ≠ out) :
    (p.note e).without course out = (p.without course out).note e := by
  rw [without, note, List.filter_cons_of_pos (by simpa using other)]
  rfl

theorem without_use (p : Provider) (name : String) :
    (p.use name).without course out = (p.without course out).use name := by
  have meters : ((p.use name).without course out).meters =
      ((p.without course out).use name).meters := by
    refine meters_eq (fun name' => ?_) fun id => ?_
    · rw [isSome_without, use, use]
      by_cases here : name = name'
      · subst here
        rw [Keyed.get?_upsert_self, Keyed.get?_upsert_self]
        rfl
      · rw [Keyed.get?_upsert_of_ne _ _ here, Keyed.get?_upsert_of_ne _ _ here]
        exact (isSome_without p name').symm
    · rw [instrument?_without, instrument?_use, instrument?_use, instrument?_without]
  exact congrArg (fun ms => { p.without course out with meters := ms }) meters

/-- A creation is not affected, whatever the script becomes. -/
theorem create_without (course : Course) (out : InstrumentId) (p : Provider)
    (tag meter : String) (d : Descriptor) (choice : Option Aggregation) (script : List (List Action)) :
    (p.without course out).create tag meter d choice (scriptLeft course out ⟨meter, d.name⟩ script) =
      ((p.create tag meter d choice script).1,
        (p.create tag meter d choice script).2.without course out) := by
  have made : (Instrument.new d (aggregationFor d.kind choice)
      (if d.kind.isSynchronous then none else some (Callback.ofScript tag script))).without
        course out ⟨meter, d.name⟩ =
      .new d (aggregationFor d.kind choice) (if d.kind.isSynchronous then none else
        some (Callback.ofScript tag (scriptLeft course out ⟨meter, d.name⟩ script))) := by
    unfold Instrument.without scriptLeft Instrument.new
    split
    · split <;> rfl
    · split <;> rfl
  have taken : ((p.meter meter).without course out meter).instruments.contains d.name =
      (p.meter meter).instruments.contains d.name := by
    rw [Keyed.contains, Meter.without, Keyed.get?_mapWithKey, Option.isSome_map]
    rfl
  have meters := Keyed.mapWithKey_insert (p.use meter).meters
    (fun name m => m.without course out name) meter
    ⟨(p.meter meter).instruments.insert d.name (.new d (aggregationFor d.kind choice)
      (if d.kind.isSynchronous then none else some (Callback.ofScript tag script)))⟩
  rw [Meter.without_insert, made] at meters
  unfold create
  simp only [← without_use, meter_without, meter_use]
  unfold Meter.register
  rw [taken]
  cases Meter.check d (aggregationFor d.kind choice) with
  | error fault => rfl
  | ok =>
    by_cases there : (p.meter meter).instruments.contains d.name = true
    · rw [if_pos there, if_pos there]
    · rw [if_neg there, if_neg there]
      exact congrArg (fun ms => (Except.ok d, { (p.use meter).without course out with
        meters := ms, tags := p.tags.insert tag ⟨meter, d.name⟩ })) meters.symm

/-! ## Values -/

/-- While it is disabled, the instrument records nothing. -/
def Off (out : InstrumentId) (p : Provider) : Prop :=
  ∀ i, p.instrument? out = some i → i.descriptor.enabled = false

theorem without_record_self (off : p.Off out) {u : Update} (here : u.instrument = out) :
    (p.record u).2.without course out = p.without course out := by
  cases found : p.instrument? u.instrument with
  | none => rw [record_of_absent found]
  | some i =>
    cases checked : i.descriptor.check u.value with
    | error e => rw [record_of_error found checked]
    | ok =>
      rw [record_of_ok found checked,
        without_note_self _ (e := .accepted u.instrument u.labels.canonical u.value) here]
      refine without_modify_of_unseen fun j found' => ?_
      rw [Instrument.recordChecked_of_disabled (off j (here ▸ found'))]

theorem record_without (p : Provider) {u : Update} (other : u.instrument ≠ out) :
    (p.without course out).record u = ((p.record u).1, (p.record u).2.without course out) := by
  have left := instrument?_without course out p u.instrument
  cases found : p.instrument? u.instrument with
  | none =>
    rw [found] at left
    rw [record_of_absent left, record_of_absent found]
  | some i =>
    rw [found] at left
    cases checked : i.descriptor.check u.value with
    | error e =>
      rw [record_of_error left (by rwa [Instrument.descriptor_without]),
        record_of_error found checked]
    | ok =>
      rw [record_of_ok left (by rwa [Instrument.descriptor_without]), record_of_ok found checked,
        without_note_of_ne _ (e := .accepted u.instrument u.labels.canonical u.value) other,
        without_modify (g := fun i => i.recordChecked u.value u.labels) fun j _ =>
          Instrument.recordChecked_without other j u.value u.labels]

theorem without_recordHeld_self (off : p.Off out) {h : Handle} (here : h.instrument = out)
    (value : Number) : (p.recordHeld h value).2.without course out = p.without course out := by
  cases found : p.instrument? h.instrument with
  | none => rw [recordHeld_of_absent found]
  | some i =>
    cases checked : i.descriptor.check value with
    | error e => rw [recordHeld_of_error found checked]
    | ok =>
      rw [recordHeld_of_ok found checked,
        without_note_self _ (e := .accepted h.instrument h.labels value) here]
      refine without_modify_of_unseen fun j found' => ?_
      rw [Instrument.addHeld_of_disabled (off j (here ▸ found'))]

theorem recordHeld_without (p : Provider) {h : Handle} (other : h.instrument ≠ out)
    (value : Number) : (p.without course out).recordHeld h value =
      ((p.recordHeld h value).1, (p.recordHeld h value).2.without course out) := by
  have left := instrument?_without course out p h.instrument
  cases found : p.instrument? h.instrument with
  | none =>
    rw [found] at left
    rw [recordHeld_of_absent left, recordHeld_of_absent found]
  | some i =>
    rw [found] at left
    cases checked : i.descriptor.check value with
    | error e =>
      rw [recordHeld_of_error left (by rwa [Instrument.descriptor_without]),
        recordHeld_of_error found checked]
    | ok =>
      rw [recordHeld_of_ok left (by rwa [Instrument.descriptor_without]),
        recordHeld_of_ok found checked,
        without_note_of_ne _ (e := .accepted h.instrument h.labels value) other,
        without_modify (g := fun i => i.addHeld h value) fun j _ =>
          Instrument.addHeld_without other j h value]

/-! ## Handles -/

theorem without_bind_self (p : Provider) (labels : LabelSet) :
    (p.bind out labels).2.without course out = p.without course out := by
  refine without_modify_of_unseen fun i _ => ?_
  rw [Instrument.without_self, Instrument.without_self]
  rfl

theorem bind_without (p : Provider) (other : id ≠ out) (labels : LabelSet) :
    (p.without course out).bind id labels =
      ((p.bind id labels).1, (p.bind id labels).2.without course out) := by
  have changed : (p.modify id fun i => i.bind labels).without course out =
      (p.without course out).modify id fun i => i.bind labels := by
    refine without_modify fun i _ => ?_
    rw [Instrument.without_of_ne other, Instrument.without_of_ne other]
    rfl
  have born : ((((p.without course out).modify id fun i => i.bind labels).instrument? id).map
      fun i => i.bornOf labels) =
      (((p.modify id fun i => i.bind labels).instrument? id).map fun i => i.bornOf labels) := by
    rw [← changed, instrument?_without, Option.map_map]
    refine Option.map_congr fun i _ => ?_
    rw [Function.comp, Instrument.without_of_ne other]
    rfl
  simp only [bind]
  rw [born, changed]

theorem without_modifyHeld_self (p : Provider) {h : Handle} (here : h.instrument = out)
    (f : Series → Series) : (p.modifyHeld h f).without course out = p.without course out := by
  refine without_modify_of_unseen fun i _ => ?_
  rw [here, Instrument.without_self, Instrument.without_self]
  rfl

theorem modifyHeld_without (p : Provider) {h : Handle} (other : h.instrument ≠ out)
    (f : Series → Series) : (p.without course out).modifyHeld h f =
      (p.modifyHeld h f).without course out := by
  refine (without_modify fun i _ => ?_).symm
  rw [Instrument.without_of_ne other, Instrument.without_of_ne other]
  rfl

theorem seriesOf?_without (p : Provider) {h : Handle} (other : h.instrument ≠ out) :
    (p.without course out).seriesOf? h = p.seriesOf? h := by
  rw [seriesOf?, instrument?_without, seriesOf?]
  cases p.instrument? h.instrument with
  | none => rfl
  | some i =>
    rw [Option.map_some, Option.bind_some, Option.bind_some, Instrument.without_of_ne other]
    rfl

/-! ## Batches -/

theorem checkMeasurement_without (p : Provider) (meter : String) (m : Measurement) :
    (p.without course out).checkMeasurement meter m = p.checkMeasurement meter m := by
  unfold checkMeasurement
  rw [instrument?_without]
  by_cases own : m.instrument.meter = meter
  · rw [if_pos own, if_pos own]
    cases p.instrument? m.instrument with
    | none => rfl
    | some i =>
      rw [Option.map_some]
      simp only [Instrument.descriptor_without]
  · rw [if_neg own, if_neg own]

theorem Off.use (off : p.Off out) (name : String) : (p.use name).Off out := by
  intro i found
  rw [instrument?_use] at found
  exact off i found

theorem Off.recordChecked (off : p.Off out) (id : InstrumentId) (value : Number)
    (labels : LabelSet) : (p.modify id fun i => i.recordChecked value labels).Off out := by
  intro i found
  rw [instrument?_modify] at found
  split at found
  · obtain ⟨j, present, rfl⟩ := Option.map_eq_some_iff.1 found
    rw [Instrument.descriptor_recordChecked]
    exact off j present
  · exact off i found

/-- Of the values of a batch, those for the instrument make no difference. -/
theorem recordAll_without (labels : LabelSet) (ms : List Measurement) :
    ∀ {p : Provider}, p.Off out → (p.recordAll labels ms).without course out =
      (p.without course out).recordAll labels (ms.filter fun m => m.instrument ≠ out) := by
  induction ms with
  | nil => exact fun _ => rfl
  | cons m rest ih =>
    intro p off
    have still : ((p.modify m.instrument fun i => i.recordChecked m.value labels).note
        (.accepted m.instrument labels.canonical m.value)).Off out :=
      off.recordChecked m.instrument m.value labels
    refine (ih still).trans ?_
    by_cases here : m.instrument = out
    · rw [List.filter_cons_of_neg (by simpa using here),
        without_note_self _ (e := .accepted m.instrument labels.canonical m.value) here,
        without_modify_of_unseen fun i found => by
          rw [Instrument.recordChecked_of_disabled (off i (here ▸ found))]]
    · rw [List.filter_cons_of_pos (by simpa using here),
        without_note_of_ne _ (e := .accepted m.instrument labels.canonical m.value) here,
        without_modify (g := fun i => i.recordChecked m.value labels) fun i _ =>
          Instrument.recordChecked_without here i m.value labels]
      rfl

/-- What is left of the measurements of a batch: those for the instrument go, unless one of them is
refused, and the batch with it. -/
def measurementsLeft (out : InstrumentId) (p : Provider) (meter : String) (ms : List Measurement) :
    List Measurement :=
  if ∀ m ∈ ms, m.instrument = out → p.checkMeasurement meter m = .ok () then
    ms.filter fun m => m.instrument ≠ out
  else ms

theorem measurementsLeft_use (p : Provider) (name meter : String) :
    measurementsLeft out (p.use name) meter = measurementsLeft out p meter := by
  have checks : (p.use name).checkMeasurement meter = p.checkMeasurement meter := by
    funext m
    rw [checkMeasurement, instrument?_use, checkMeasurement]
  funext ms
  unfold measurementsLeft
  simp only [checks]

/-- A check that some elements pass can be left out for them. -/
theorem forM_filter {α ε : Type} (f : α → Except ε Unit) (keep : α → Bool) (xs : List α)
    (passed : ∀ x ∈ xs, ¬ keep x = true → f x = .ok ()) : (xs.filter keep).forM f = xs.forM f := by
  induction xs with
  | nil => rfl
  | cons x rest ih =>
    have others := ih fun y member => passed y (List.mem_cons_of_mem _ member)
    have unfolded : (x :: rest).forM f = (f x >>= fun _ => rest.forM f) := rfl
    rw [unfolded]
    by_cases kept : keep x = true
    · rw [List.filter_cons_of_pos kept, ← others]
      rfl
    · rw [List.filter_cons_of_neg kept, others, passed x List.mem_cons_self kept]
      rfl

theorem recordBatch_without (off : p.Off out) (meter : String) (labels : LabelSet)
    (ms : List Measurement) :
    (p.without course out).recordBatch meter labels (measurementsLeft out p meter ms) =
      ((p.recordBatch meter labels ms).1, (p.recordBatch meter labels ms).2.without course out) := by
  have checks : (p.without course out).checkMeasurement meter = p.checkMeasurement meter :=
    funext (checkMeasurement_without p meter)
  have left : (measurementsLeft out p meter ms).forM (p.checkMeasurement meter) =
      ms.forM (p.checkMeasurement meter) := by
    unfold measurementsLeft
    split
    · rename_i passed
      exact forM_filter _ _ ms fun m member here => passed m member (by simpa using here)
    · rfl
  unfold recordBatch
  rw [checks, left]
  rcases forM_cases (p.checkMeasurement meter) ms with ⟨passed, each⟩ | ⟨-, -, -, e, -, -, -, refused⟩
  · rw [passed, measurementsLeft, if_pos fun m member _ => each m member]
    exact congrArg (Prod.mk (Except.ok ())) (recordAll_without labels ms off).symm
  · rw [refused]

end Provider

end Metering
