import Metering.Proofs.Balance
import Metering.Proofs.Instrument.Recent
import Metering.Proofs.Moments
import Metering.Workload.Run

/-!
# What the ticks of a run collect

A run has four instruments: one for each target of a step, and the observer of progress. Between two
ticks each holds what the accepted steps since the last tick gave it, and nothing else (`Run.Holds`):
applying a step adds to one of them and to the backlog of the observer, and a tick takes it all. What
a tick collects can therefore be told from the steps before it (`Gives`).
-/

namespace Metering

namespace Workload

variable {boundaries : List Float} {m : String} {p q : Provider} {recent : List Step}

/-! ## The instruments of a run -/

/-- Whether a step is accepted. -/
def Step.accepted (s : Step) : Bool := !(s.target = .counter && Binary64.toInt64 s.value < 0)

/-- An instrument of a run. -/
inductive Part
  /-- The instrument of a target. -/
  | of (t : Target)
  /-- The observer of progress. -/
  | progress
deriving DecidableEq

namespace Part

/-- The name of the instrument. -/
def name : Part → String
  | of t => t.instrument
  | progress => progressName

/-- The description of the instrument. -/
def descriptor : Part → Descriptor
  | of t => t.descriptor
  | progress => progressDescriptor

/-- The aggregation of the instrument. -/
def aggregation (boundaries : List Float) : Part → Aggregation
  | of .valueRecorder => recorderAggregation boundaries
  | _ => .sum

/-- What the accepted steps since a tick give the instrument until the next tick. -/
def updates (recent : List Step) : Part → List (LabelSet × Number)
  | of t => (recent.filter fun s => s.target = t).map fun s => (s.labels, s.number)
  | progress => [(.empty, .integer (Int64.ofIntClamp recent.length))]

/-- Those of them that it holds before it is collected: an observer has its callback first. -/
def held (recent : List Step) : Part → List (LabelSet × Number)
  | of t => updates recent (of t)
  | progress => []

/-- The instruments of a run in the order of their names. -/
def all : List Part := [of .upDownCounter, of .valueRecorder, progress, of .counter]

theorem mem_all (part : Part) : part ∈ all := by
  cases part with
  | of t => cases t <;> decide
  | progress => decide

theorem name_inj (part part' : Part) (same : part.name = part'.name) : part = part' := by
  have distinct : ∀ a ∈ all, ∀ b ∈ all, a.name = b.name → a = b := by decide
  exact distinct part part.mem_all part' part'.mem_all same

theorem place_inj {part part' : Part}
    (same : (⟨m, part.name⟩ : InstrumentId) = ⟨m, part'.name⟩) : part = part' :=
  part.name_inj part' (congrArg InstrumentId.name same)

theorem descriptor_name (part : Part) : part.descriptor.name = part.name := by
  cases part with
  | of t => cases t <;> rfl
  | progress => rfl

theorem enabled (part : Part) : part.descriptor.enabled = true := by
  cases part with
  | of t => cases t <;> rfl
  | progress => rfl

/-- Just the observer has a callback, which reports a backlog. -/
def Calls (backlog : Nat) (callback : Option Callback) : Part → Prop
  | of _ => callback = none
  | progress => ∃ calls, callback = some ⟨progressName, calls, .backlog backlog⟩

/-- The instrument holds some values and nothing else; the observer has a backlog besides. -/
structure Stands (part : Part) (boundaries : List Float) (backlog : Nat)
    (values : List (LabelSet × Number)) (i : Instrument) : Prop where
  descriptor : i.descriptor = part.descriptor
  aggregation : i.aggregation = part.aggregation boundaries
  callback : part.Calls backlog i.callback
  recent : i.Recent values

/-- A finite value of the kind of the instrument comes to the others. -/
theorem Stands.recordChecked {part : Part} {backlog : Nat} {values : List (LabelSet × Number)}
    {i : Instrument} (stands : part.Stands boundaries backlog values i) {v : Number}
    (kind : v.kind = part.descriptor.numberKind) (finite : v.isFinite = true) (labels : LabelSet) :
    part.Stands boundaries backlog (values ++ [(labels, v)]) (i.recordChecked v labels) where
  descriptor := (i.descriptor_recordChecked v labels).trans stands.descriptor
  aggregation := (i.aggregation_recordChecked v labels).trans stands.aggregation
  callback := by
    rw [Instrument.callback_recordChecked]
    exact stands.callback
  recent := by
    rw [← stands.descriptor] at kind
    have enabled : i.descriptor.enabled = true := by
      rw [stands.descriptor]
      exact part.enabled
    exact stands.recent.recordChecked enabled kind finite labels

/-- The instrument on a meter after the steps since the last tick. -/
def On (part : Part) (m : String) (boundaries : List Float) (recent : List Step) (p : Provider) :
    Prop := ∃ i, p.instrument? ⟨m, part.name⟩ = some i ∧
      part.Stands boundaries recent.length (part.held recent) i

theorem held_nil (part : Part) : part.held [] = [] := by
  cases part <;> rfl

/-- What leaves the instrument where it is leaves it as it stands. -/
theorem On.congr {part : Part} (on : part.On m boundaries recent p)
    (same : q.instrument? ⟨m, part.name⟩ = p.instrument? ⟨m, part.name⟩) :
    part.On m boundaries recent q := by
  obtain ⟨i, found, stands⟩ := on
  exact ⟨i, same.trans found, stands⟩

end Part

/-! ## Steps -/

/-- The number that a step records is of the kind that its instrument records. -/
theorem Step.kind_number (s : Step) : s.number.kind = s.target.descriptor.numberKind := by
  obtain ⟨target, value, labels⟩ := s
  cases target <;> rfl

theorem Step.isFinite_number {s : Step} (finite : s.value.isFinite = true) :
    s.number.isFinite = true := by
  obtain ⟨target, value, labels⟩ := s
  cases target with
  | counter => rfl
  | upDownCounter => rfl
  | valueRecorder => exact finite

/-- Just the steps of a counter with a negative number are refused. -/
theorem Step.check_eq_ok_iff {s : Step} (finite : s.value.isFinite = true) :
    s.target.descriptor.check s.number = .ok () ↔ s.accepted = true := by
  rw [Descriptor.check_eq_ok_iff, Descriptor.Takes, Descriptor.number_eq_self s.kind_number]
  simp only [isFinite_number finite, true_and]
  obtain ⟨target, value, labels⟩ := s
  cases target <;> simp [accepted, number, Number.isNegative, Target.descriptor,
    InstrumentKind.isMonotonic]

/-- What a step gives to the instrument of its target. -/
theorem Part.updates_concat_self (recent : List Step) (s : Step) :
    updates (recent ++ [s]) (of s.target) =
      updates recent (of s.target) ++ [(s.labels, s.number)] := by
  rw [updates, List.filter_append, List.filter_cons_of_pos (by simp), List.map_append]
  rfl

theorem Part.updates_concat_of_ne {s : Step} {t : Target} (other : s.target ≠ t)
    (recent : List Step) : updates (recent ++ [s]) (of t) = updates recent (of t) := by
  rw [updates, List.filter_append, List.filter_cons_of_neg (by simpa using other), List.filter_nil,
    List.append_nil, updates]

/-- An accepted value is recorded and noted. -/
theorem record_of_check {u : Update} {i : Instrument} (found : p.instrument? u.instrument = some i)
    (checked : i.descriptor.check u.value = .ok ()) :
    p.record u = (.ok (), (p.modify u.instrument fun _ => i.recordChecked u.value u.labels).note
      (.accepted u.instrument u.labels.canonical u.value)) := by
  rw [Provider.record, found]
  simp only [Instrument.record, checked]

/-- What a run holds after the steps since the last tick. -/
structure Run.Holds (boundaries : List Float) (recent : List Step) (r : Run) : Prop where
  meter : r.controller.meter = r.meter
  names : (r.provider.meter r.meter).names = Part.all.map Part.name
  parts : ∀ part : Part, part.On r.meter boundaries recent r.provider

/-- A step that is accepted is added to what the run holds. -/
theorem Run.Holds.accept {r : Run} (holds : r.Holds boundaries recent) {s : Step}
    (finite : s.value.isFinite = true) (accepted : s.accepted = true) :
    (r.apply s).1 = .ok () ∧ (r.apply s).2.Holds boundaries (recent ++ [s]) ∧
      (r.apply s).2.controller = r.controller := by
  obtain ⟨i, found, stands⟩ := holds.parts (.of s.target)
  have checked : i.descriptor.check s.number = .ok () := by
    rw [stands.descriptor]
    exact (Step.check_eq_ok_iff finite).2 accepted
  have recorded := record_of_check (u := ⟨⟨r.meter, s.target.instrument⟩, s.number, s.labels⟩) found
    checked
  have applied : r.apply s = (.ok (), { r with
      provider := ((r.provider.modify ⟨r.meter, s.target.instrument⟩
        fun _ => i.recordChecked s.number s.labels).note
          (.accepted ⟨r.meter, s.target.instrument⟩ s.labels.canonical s.number)).modify
        ⟨r.meter, progressName⟩ fun i => { i with callback := i.callback.map Callback.addPending }
      applied := r.applied + 1 }) := by
    rw [Run.apply, recorded]
  have puts := Provider.puts_modify found fun _ => i.recordChecked s.number s.labels
  have apart : ∀ t : Target, (⟨r.meter, t.instrument⟩ : InstrumentId) ≠ ⟨r.meter, progressName⟩ :=
    fun t same => nomatch (Part.place_inj same : Part.of t = .progress)
  rw [applied]
  refine ⟨rfl, ⟨holds.meter, ?_, fun part => ?_⟩, rfl⟩
  · exact (Provider.names_modify _ _ _ _).trans
      ((Provider.names_modify _ _ _ _).trans holds.names)
  cases part with
  | of t =>
    by_cases mine : s.target = t
    · subst mine
      refine ⟨i.recordChecked s.number s.labels, ?_, ?_⟩
      · rw [Provider.instrument?_modify]
        exact (if_neg (apart s.target)).trans puts.self
      · rw [Part.held, Part.updates_concat_self]
        have after := stands.recordChecked s.kind_number (Step.isFinite_number finite) s.labels
        exact ⟨after.descriptor, after.aggregation, after.callback, after.recent⟩
    · obtain ⟨j, present, other⟩ := holds.parts (.of t)
      have elsewhere : (⟨r.meter, t.instrument⟩ : InstrumentId) ≠ ⟨r.meter, s.target.instrument⟩ :=
        fun same => mine (Part.of.inj (Part.place_inj same : Part.of t = .of s.target)).symm
      refine ⟨j, ?_, other.descriptor, other.aggregation, other.callback, ?_⟩
      · rw [Provider.instrument?_modify]
        exact (if_neg (apart t)).trans ((puts.other elsewhere).trans present)
      · rw [Part.held, Part.updates_concat_of_ne mine]
        exact other.recent
  | progress =>
    obtain ⟨j, present, other⟩ := holds.parts .progress
    obtain ⟨calls, backlog⟩ := other.callback
    refine ⟨{ j with callback := j.callback.map Callback.addPending }, ?_, other.descriptor,
      other.aggregation, ⟨calls, ?_⟩, other.recent⟩
    · rw [Provider.instrument?_modify]
      have still := (puts.other (apart s.target).symm).trans present
      exact (if_pos rfl).trans (congrArg (Option.map _) still)
    · rw [backlog, List.length_append]
      rfl

/-- A step that is refused changes nothing. -/
theorem Run.Holds.refuse {r : Run} (holds : r.Holds boundaries recent) {s : Step}
    (finite : s.value.isFinite = true) (refused : s.accepted = false) :
    ∃ e, r.apply s = (.error e, r) := by
  obtain ⟨i, found, stands⟩ := holds.parts (.of s.target)
  have failed : i.descriptor.check s.number ≠ .ok () := by
    rw [stands.descriptor]
    intro checked
    have accepted := (Step.check_eq_ok_iff finite).1 checked
    rw [refused] at accepted
    cases accepted
  cases checked : i.descriptor.check s.number with
  | ok => exact absurd checked failed
  | error e =>
    have recorded : r.provider.record ⟨⟨r.meter, s.target.instrument⟩, s.number, s.labels⟩ =
        (.error e, r.provider) := by
      have there : r.provider.instrument? ⟨r.meter, s.target.instrument⟩ = some i := found
      rw [Provider.record, there]
      simp only [Instrument.record, checked]
    exact ⟨e, by rw [Run.apply, recorded]⟩

/-! ## Ticks -/

/-- What was collected after the steps since the last tick: of each instrument a record for each of
its labels that came, all with one time. -/
structure Gives (boundaries : List Float) (recent : List Step) (rs : List Record) : Prop where
  records : ∃ time, ∀ (part : Part) (l : String),
    rs.filter (fun r => r.key = ⟨part.name, l⟩) =
      recordOfValues part.descriptor (part.aggregation boundaries) time l
        (valuesUnder (part.updates recent) l)
  shapes : ∀ r ∈ rs, ∃ part : Part,
    r.descriptor = part.descriptor ∧ r.value.shape = part.aggregation boundaries

section Collection

variable {part : Part}

/-- A callback with a backlog reports it, and has none after that. -/
theorem runCallback_of_backlog (nested : Provider.Collection) (reading : Nat) {id : InstrumentId}
    {i : Instrument} (found : p.instrument? id = some i) {tag : String} {calls n : Nat}
    (backlog : i.callback = some ⟨tag, calls, .backlog n⟩) :
    let called := p.modify id fun i => { i with callback := some ⟨tag, calls + 1, .backlog 0⟩ }
    let reported := called.record ⟨id, .integer (Int64.ofIntClamp n), .empty⟩
    p.runCallback nested reading id =
      { reported.2 with
        journal := reported.2.journal ++ [⟨tag, calls, reading, id,
          [.recorded ⟨id, .integer (Int64.ofIntClamp n), .empty⟩ reported.1]⟩] } := by
  rw [Provider.runCallback, found, Option.bind_some, backlog]
  rfl

/-- What is reported is recorded as any other value, if the observer takes it. -/
theorem puts_runCallback_of_backlog (nested : Provider.Collection) (reading : Nat)
    {id : InstrumentId} {i : Instrument} (found : p.instrument? id = some i) {tag : String}
    {calls n : Nat} (backlog : i.callback = some ⟨tag, calls, .backlog n⟩)
    (checked : i.descriptor.check (.integer (Int64.ofIntClamp n)) = .ok ()) :
    p.Puts (p.runCallback nested reading id) id
        (({ i with callback := some ⟨tag, calls + 1, .backlog 0⟩ } : Instrument).recordChecked
          (.integer (Int64.ofIntClamp n)) .empty) ∧
      ∀ name, ((p.runCallback nested reading id).meter name).names = (p.meter name).names := by
  have run := runCallback_of_backlog nested reading found backlog
  generalize Number.integer (Int64.ofIntClamp n) = value at checked run ⊢
  have puts := Provider.puts_modify found fun i =>
    { i with callback := some ⟨tag, calls + 1, .backlog 0⟩ }
  have recorded := record_of_check (u := ⟨id, value, .empty⟩) puts.self checked
  have again := Provider.puts_modify puts.self fun _ =>
    ({ i with callback := some ⟨tag, calls + 1, .backlog 0⟩ } : Instrument).recordChecked value .empty
  rw [run, recorded]
  refine ⟨fun id' => ?_, fun name => ?_⟩
  · refine (again id').trans ?_
    split
    · rfl
    · rename_i other
      exact puts.other other
  · exact (Provider.names_modify _ _ _ _).trans (Provider.names_modify _ _ _ _)

/-- The observer of progress reports its backlog, which is a number that it takes. -/
theorem check_progress (n : Nat) :
    progressDescriptor.check (.integer (Int64.ofIntClamp n)) = .ok () := by
  refine Descriptor.check_eq_ok_iff.2 ⟨rfl, fun _ => ?_⟩
  have amount := Number.toInt_ofIntClamp n
  have top := Number.limit_pos
  have sign : ¬ Int64.ofIntClamp n < 0 := by
    rw [Int64.lt_iff_toInt_lt, amount, Int64.toInt_zero]
    omega
  exact decide_eq_false sign

/-- Before an instrument is swept, the observer of progress reports its backlog. -/
theorem runCallback_part (nested : Provider.Collection) (reading : Nat)
    (on : part.On m boundaries recent p) :
    ∃ i, part.Stands boundaries 0 (part.updates recent) i ∧
      p.Puts (p.runCallback nested reading ⟨m, part.name⟩) ⟨m, part.name⟩ i ∧
      ∀ name, ((p.runCallback nested reading ⟨m, part.name⟩).meter name).names =
        (p.meter name).names := by
  obtain ⟨i, found, stands⟩ := on
  cases part with
  | of t =>
    have none_ : i.callback = none := stands.callback
    have quiet : p.runCallback nested reading ⟨m, (Part.of t).name⟩ = p := by
      rw [Provider.runCallback, found, Option.bind_some, none_]
    rw [quiet]
    refine ⟨i, ⟨stands.descriptor, stands.aggregation, none_, stands.recent⟩, fun id => ?_,
      fun _ => rfl⟩
    split
    · rename_i same
      rw [same]
      exact found
    · rfl
  | progress =>
    obtain ⟨calls, backlog⟩ := stands.callback
    have checked : i.descriptor.check (.integer (Int64.ofIntClamp recent.length)) = .ok () := by
      rw [stands.descriptor]
      exact check_progress recent.length
    have emptied : Part.progress.Stands boundaries 0 []
        { i with callback := some ⟨progressName, calls + 1, .backlog 0⟩ } :=
      ⟨stands.descriptor, stands.aggregation, ⟨calls + 1, rfl⟩, stands.recent⟩
    exact ⟨_, emptied.recordChecked rfl rfl .empty,
      puts_runCallback_of_backlog nested reading found backlog checked⟩

/-- What was collected of some instruments that held what recent steps gave them, and the provider
after it: of each of them a record for each of its labels that came, and they hold nothing more. -/
structure Collects (m : String) (boundaries : List Float) (recent : List Step) (time : Timestamp)
    (parts : List Part) (p q : Provider) (rs : List Record) : Prop where
  records : ∀ (part : Part) (l : String), rs.filter (fun r => r.key = ⟨part.name, l⟩) =
    if part ∈ parts then recordOfValues part.descriptor (part.aggregation boundaries) time l
      (valuesUnder (part.updates recent) l) else []
  shapes : ∀ r ∈ rs, ∃ part : Part,
    r.descriptor = part.descriptor ∧ r.value.shape = part.aggregation boundaries
  swept : ∀ part ∈ parts, part.On m boundaries [] q
  others : ∀ part ∉ parts, q.instrument? ⟨m, part.name⟩ = p.instrument? ⟨m, part.name⟩
  names : ∀ name, (q.meter name).names = (p.meter name).names

theorem collects_nil (time : Timestamp) (p : Provider) :
    Collects m boundaries recent time [] p p [] where
  records _ _ := rfl
  shapes _ none_ := nomatch none_
  swept _ none_ := nomatch none_
  others _ _ := rfl
  names _ := rfl

/-- One instrument is collected. -/
theorem collects_singleton (clock : Nat → Timestamp) (nested : Provider.Collection) (reading : Nat)
    (on : part.On m boundaries recent p) :
    Collects m boundaries recent (clock reading) [part] p
      (p.collectInstrument clock nested reading ⟨m, part.name⟩).2
      (p.collectInstrument clock nested reading ⟨m, part.name⟩).1 := by
  have enabled : p.isEnabled ⟨m, part.name⟩ = true := by
    obtain ⟨i, found, stands⟩ := on
    rw [Provider.isEnabled, found, Option.any_some, stands.descriptor]
    exact part.enabled
  obtain ⟨i, ready, called, names⟩ := runCallback_part nested reading on
  rw [Provider.collectInstrument_of_enabled enabled]
  generalize p.runCallback nested reading ⟨m, part.name⟩ = p' at called names ⊢
  obtain ⟨taken, puts, -⟩ := Provider.sweep_of_some clock reading called.self
  have own : ∀ r ∈ (i.sweep (clock reading)).1,
      r.descriptor = part.descriptor ∧ r.value.shape = part.aggregation boundaries := by
    intro r member
    rw [← ready.descriptor, ← ready.aggregation]
    exact ready.recent.shape member
  refine ⟨fun part' l => ?_, fun r member => ⟨part, ?_⟩, ?_, fun part' other => ?_, fun name => ?_⟩
  · have named : ∀ r ∈ (i.sweep (clock reading)).1, r.name = part.name := by
      intro r member
      rw [Record.name, (own r member).1, part.descriptor_name]
    rw [taken, filter_key named, ready.recent.records, ready.descriptor, ready.aggregation]
    by_cases same : part' = part
    · rw [same, if_pos rfl, if_pos (List.mem_singleton_self part)]
    · rw [if_neg fun names => same (part.name_inj part' names).symm,
        if_neg fun member => same (List.mem_singleton.1 member)]
  · rw [taken] at member
    exact own r member
  · intro part' member
    rw [List.mem_singleton.1 member]
    refine ⟨_, puts.self, ready.descriptor, ready.aggregation, ready.callback, ?_⟩
    rw [part.held_nil]
    exact ready.recent.sweep (clock reading)
  · have elsewhere : (⟨m, part'.name⟩ : InstrumentId) ≠ ⟨m, part.name⟩ := fun same =>
      other (List.mem_singleton.2 (part'.name_inj part (congrArg InstrumentId.name same)))
    rw [puts.other elsewhere, called.other elsewhere]
  · have kept : ((p'.sweep clock reading ⟨m, part.name⟩).2.meter name).names =
        (p'.meter name).names := by
      rw [Provider.sweep, called.self]
      exact Provider.names_modify _ _ _ _
    exact kept.trans (names name)

/-- One instrument is collected before others. -/
theorem Collects.cons {time : Timestamp} {parts : List Part} {r : Provider} {rs more : List Record}
    (first : Collects m boundaries recent time [part] p q rs)
    (rest : Collects m boundaries recent time parts q r more) (fresh : part ∉ parts) :
    Collects m boundaries recent time (part :: parts) p r (rs ++ more) where
  records part' l := by
    rw [List.filter_append, first.records, rest.records]
    by_cases same : part' = part
    · subst same
      rw [if_pos (List.mem_singleton_self _), if_neg fresh, if_pos List.mem_cons_self,
        List.append_nil]
    · rw [if_neg fun member => same (List.mem_singleton.1 member), List.nil_append]
      simp only [List.mem_cons, same, false_or]
  shapes r member := (List.mem_append.1 member).elim (first.shapes r) (rest.shapes r)
  swept part' member := by
    rcases List.mem_cons.1 member with rfl | later
    · exact (first.swept _ (List.mem_singleton_self _)).congr (rest.others _ fresh)
    · exact rest.swept part' later
  others part' other := by
    rw [List.mem_cons, not_or] at other
    rw [rest.others part' other.2, first.others part' fun member =>
      other.1 (List.mem_singleton.1 member)]
  names name := (rest.names name).trans (first.names name)

/-- Instruments are collected one after the other. -/
theorem collects_each (clock : Nat → Timestamp) (nested : Provider.Collection) (reading : Nat)
    (parts : List Part) : ∀ {p : Provider}, parts.Nodup →
    (∀ part ∈ parts, part.On m boundaries recent p) →
      Collects m boundaries recent (clock reading) parts p
        (p.collectEach clock nested reading m (parts.map Part.name)).2
        (p.collectEach clock nested reading m (parts.map Part.name)).1 := by
  induction parts with
  | nil => exact fun _ _ => collects_nil _ _
  | cons part rest ih =>
    intro p distinct on
    obtain ⟨fresh, others⟩ := List.nodup_cons.1 distinct
    have first := collects_singleton clock nested reading (on part List.mem_cons_self)
    refine first.cons (ih others fun part' member => ?_) fresh
    refine (on part' (List.mem_cons_of_mem _ member)).congr (first.others part' fun same => fresh ?_)
    rw [← List.mem_singleton.1 same]
    exact member

end Collection

/-- A tick takes what the steps since the tick before it gave, and leaves nothing. -/
theorem Run.Holds.tick {r : Run} (holds : r.Holds boundaries recent) (clock : Nat → Timestamp) :
    Gives boundaries recent (r.tick clock).1.collected ∧ (r.tick clock).2.Holds boundaries [] := by
  have collected : (r.tick clock).1.collected = (r.provider.collect clock r.meter).1 := by
    rw [← holds.meter]
    rfl
  have provider : (r.tick clock).2.provider = (r.provider.collect clock r.meter).2 := by
    rw [← holds.meter]
    rfl
  have begun : ∀ part ∈ Part.all, part.On r.meter boundaries recent (r.provider.begun r.meter) :=
    fun part _ => (holds.parts part).congr (by rw [Provider.instrument?_begun])
  have each := collects_each clock (Provider.collect clock) r.provider.readings Part.all
    (by decide) begun
  rw [← holds.names, ← Provider.collect_eq_collectEach] at each
  have kept : ((r.provider.begun r.meter).meter r.meter).names = Part.all.map Part.name :=
    (congrArg Meter.names (r.provider.meter_use r.meter r.meter)).trans holds.names
  refine ⟨⟨⟨clock r.provider.readings, fun part l => ?_⟩, ?_⟩, holds.meter, ?_, fun part => ?_⟩
  · rw [collected, each.records, if_pos part.mem_all]
  · rw [collected]
    exact each.shapes
  · rw [provider]
    exact (each.names r.meter).trans kept
  · rw [provider]
    exact each.swept part part.mem_all

end Workload

end Metering
