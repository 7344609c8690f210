import Metering.Proofs.Lasting
import Metering.Proofs.Provider.Thinned
import Metering.Proofs.Session

/-!
# Disabled instruments are inert

A run of a session is compared with what remains of it when the use of one instrument is taken out:
its updates, the handles on it and what is done with them, its callback, what other callbacks bring
to it, and its share in batches. `remainder` lists the operations that remain, each with the answer
that it had. If the instrument is disabled, the remaining operations are answered just so when they
are run by themselves, and they end in the same session but for the instrument (`run_without`).

What tells a run with the use of a disabled instrument from one without is only a look at its own
series, because binding creates them.
-/

namespace Metering

variable {clock : Nat → Timestamp} {course : Course} {out : InstrumentId}

namespace Controller

variable {ε : Type} [Exporter ε] {c : Controller ε} {p : Provider}

theorem tick_without (foretells : Provider.Foretells course out (c.tick clock p).2.2) :
    c.tick clock (p.without course out) =
      ((c.tick clock p).1, (c.tick clock p).2.1, (c.tick clock p).2.2.without course out) := by
  unfold tick
  rw [Provider.collect_without clock c.meter foretells]

theorem stop_without (foretells : Provider.Foretells course out (c.stop clock p).2.2) :
    c.stop clock (p.without course out) =
      ((c.stop clock p).1, (c.stop clock p).2.1, (c.stop clock p).2.2.without course out) := by
  unfold stop at foretells ⊢
  cases phase : c.phase with
  | running =>
    rw [phase] at foretells
    simp only
    rw [tick_without foretells]
  | idle => rfl
  | dropped => rfl

theorem drop_without (foretells : Provider.Foretells course out (c.drop clock p).2) :
    c.drop clock (p.without course out) =
      ((c.drop clock p).1, (c.drop clock p).2.without course out) := by
  unfold drop
  rw [stop_without foretells]

end Controller

namespace Session

variable {s : Session}

/-! ## The numbers of calls in a session -/

theorem numbers_withTagged {tag : String} {f : InstrumentId → Instrument → Answer × Session}
    (known : ∀ id i, s.provider.Numbers (f id i).2.provider) :
    s.provider.Numbers (s.withTagged tag f).2.provider := by
  rcases s.withTagged_cases tag f with unknown | ⟨id, i, -, done⟩
  · rw [unknown]
    exact .refl _
  · rw [done]
    exact known id i

theorem numbers_withHeld {name : String} {f : Handle → Series → Answer × Session}
    (known : ∀ h series, s.provider.Numbers (f h series).2.provider) :
    s.provider.Numbers (s.withHeld name f).2.provider := by
  rcases s.withHeld_cases name f with unknown | ⟨h, series, -, -, done⟩
  · rw [unknown]
    exact .refl _
  · rw [done]
    exact known h series

theorem numbers_withController {name : String}
    {f : Controller MemoryExporter → Answer × Controller MemoryExporter × Provider}
    (known : ∀ c, s.provider.Numbers (f c).2.2) :
    s.provider.Numbers (s.withController name f).2.provider := by
  rcases s.withController_cases name f with unknown | ⟨c, -, done⟩
  · rw [unknown]
    exact .refl _
  · rw [done]
    exact known c

theorem numbers_modifyHeld (p : Provider) (h : Handle) (f : Series → Series) :
    p.Numbers (p.modifyHeld h f) :=
  Provider.numbers_modify fun _ _ => rfl

theorem numbers_setHandle (s : Session) (name : String) (h : Handle) :
    s.provider.Numbers (s.setHandle name h).provider := by
  unfold setHandle
  cases s.handles.get? name with
  | none => exact .refl _
  | some old => exact numbers_modifyHeld s.provider old _

theorem numbers_stop (c : Controller MemoryExporter) (p : Provider) :
    p.Numbers (c.stop clock p).2.2 := by
  unfold Controller.stop
  split
  · exact Provider.numbers_collect clock c.meter p
  · exact .refl p

theorem numbers_perform (clock : Nat → Timestamp) (s : Session) (o : Operation) :
    s.provider.Numbers (s.perform clock o).2.provider := by
  cases o with
  | create tag meter d choice script => exact s.provider.numbers_create tag meter d choice script
  | update tag value labels =>
    exact numbers_withTagged fun id _ => s.provider.numbers_record ⟨id, value, labels⟩
  | copy _ _ => exact numbers_withTagged fun _ _ => Provider.numbers_of_called (fun _ => rfl) rfl
  | describe _ | series _ | measure _ _ | debugInstrument _ =>
    exact numbers_withTagged fun _ _ => .refl _
  | names meter => exact s.provider.numbers_use meter
  | debugMeter meter => exact s.provider.numbers_use meter
  | batch meter labels ms =>
    simp only [perform]
    split
    · have used := s.provider.numbers_use meter
      refine used.trans ?_
      unfold Provider.recordBatch
      split
      · exact Provider.numbers_recordAll labels _ _
      · exact .refl _
    · exact .refl _
  | collect meter keep => exact Provider.numbers_collect clock meter s.provider
  | bind tag labels name =>
    refine numbers_withTagged fun id _ => ?_
    have bound : s.provider.Numbers (s.provider.bind id labels).2 :=
      Provider.numbers_modify fun _ _ => rfl
    exact bound.trans (numbers_setHandle { s with provider := (s.provider.bind id labels).2 } name _)
  | clone _ second =>
    refine numbers_withHeld fun h _ => ?_
    exact (numbers_modifyHeld s.provider h _).trans
      (numbers_setHandle { s with provider := s.provider.retain h } second h)
  | release _ => exact numbers_withHeld fun h _ => numbers_modifyHeld s.provider h _
  | boundUpdate _ value => exact numbers_withHeld fun h _ => s.provider.numbers_recordHeld h value
  | boundRaw _ _ | boundCheckpoint _ | boundDrain _ =>
    exact numbers_withHeld fun h _ => numbers_modifyHeld s.provider h _
  | boundMerge _ value =>
    refine numbers_withHeld fun h series => ?_
    cases series.aggregator.mergeValue value with
    | ok a => exact numbers_modifyHeld s.provider h _
    | error e => exact .refl _
  | bound _ => exact numbers_withHeld fun _ _ => .refl _
  | meters | processor _ _ => exact .refl _
  | process _ _ | checkpoint _ | finish _ =>
    simp only [perform]
    split <;> exact .refl _
  | controller name meter mode schedule =>
    simp only [perform]
    cases Controller.make meter mode MemoryExporter.empty schedule with
    | error e => exact s.provider.numbers_use meter
    | ok c =>
      cases s.controllers.get? name with
      | none => exact s.provider.numbers_use meter
      | some old => exact (s.provider.numbers_use meter).trans (numbers_stop old _)
  | tick _ => exact numbers_withController fun c => Provider.numbers_collect clock c.meter s.provider
  | stop _ | drop _ => exact numbers_withController fun c => numbers_stop c s.provider
  | start _ | active _ | failing _ _ | clear _ | batches _ | debugController _ =>
    exact numbers_withController fun _ => .refl _

/-- No two runs of the journal are the same call. -/
theorem numbers_run (clock : Nat → Timestamp) (ops : List Operation) : ∀ s : Session,
    s.provider.Numbers (s.run clock ops).2.provider := by
  induction ops with
  | nil => exact fun s => .refl s.provider
  | cons o rest ih => exact fun s => (numbers_perform clock s o).trans (ih _)

/-! ## What remains of a run -/

/-- A session in which an instrument has not been used. -/
def without (course : Course) (out : InstrumentId) (s : Session) : Session :=
  { s with
    provider := s.provider.without course out
    handles := s.handles.filter fun _ h => h.instrument ≠ out }

/-- The instrument whose series an operation is about: one that is updated, bound or listed, or the
one that a handle is on. -/
def subject? (s : Session) : Operation → Option InstrumentId
  | .update tag _ _ | .series tag | .bind tag _ _ => (s.provider.tagged? tag).map Prod.fst
  | .clone name _ | .release name | .boundUpdate name _ | .boundRaw name _ | .boundMerge name _
  | .boundCheckpoint name | .boundDrain name | .bound name =>
    (s.handles.get? name).map Handle.instrument
  | _ => none

/-- What remains of the measurements of a batch: those for the instrument go, unless the meter
refuses one of them. -/
def batchLeft (out : InstrumentId) (s : Session) (meter : String) (ms : List (String × Number)) :
    List (String × Number) :=
  match s.measurements? ms with
  | some known =>
    if ∀ m ∈ known, m.instrument = out → s.provider.checkMeasurement meter m = .ok () then
      ms.filter fun m => s.provider.tags.get? m.1 ≠ some out
    else ms
  | none => ms

/-- What remains of an operation that is not about the instrument: a script loses what its calls came
to bring to it, a batch its measurements. -/
def left (course : Course) (out : InstrumentId) (s : Session) : Operation → Operation
  | .create tag meter d choice script =>
    .create tag meter d choice (scriptLeft course out ⟨meter, d.name⟩ script)
  | .batch meter labels ms => .batch meter labels (s.batchLeft out meter ms)
  | o => o

/-- The handle on another instrument that gives up its name to a new handle. -/
def displaced (out : InstrumentId) (s : Session) : Operation → List String
  | .bind _ _ name | .clone _ name =>
    if (s.handles.get? name).any fun h => h.instrument ≠ out then [name] else []
  | _ => []

/-- What remains of an operation, with the answers that it had. Of an operation about the instrument
remains the release of a handle on another one whose name is taken. -/
def remains (clock : Nat → Timestamp) (course : Course) (out : InstrumentId) (s : Session)
    (o : Operation) : List (Operation × Answer) :=
  if s.subject? o = some out then
    (s.displaced out o).map fun name => (.release name, .result (.ok ()))
  else [(s.left course out o, (s.perform clock o).1)]

/-- What remains of a run. -/
def remainder (clock : Nat → Timestamp) (course : Course) (out : InstrumentId) :
    Session → List Operation → List (Operation × Answer)
  | _, [] => []
  | s, o :: rest =>
    s.remains clock course out o ++ remainder clock course out (s.perform clock o).2 rest

/-! ## Handles that are left -/

theorem handles_without (course : Course) (out : InstrumentId) (s : Session) (name : String) :
    (s.without course out).handles.get? name =
      (s.handles.get? name).filter fun h => h.instrument ≠ out :=
  Keyed.get?_filter ..

theorem references_without {h : Handle} (other : h.instrument ≠ out) :
    (s.without course out).references h = s.references h := by
  rw [references, references]
  exact congrArg (fun found => (found.map Series.refs).getD 0)
    (Provider.seriesOf?_without s.provider other)

theorem setHandle_of_none {name : String} (free : s.handles.get? name = none) (h : Handle) :
    s.setHandle name h = { s with handles := s.handles.insert name h } := by
  rw [setHandle, free]

theorem setHandle_of_some {name : String} {old : Handle} (taken : s.handles.get? name = some old)
    (h : Handle) : s.setHandle name h =
      { s with provider := s.provider.release old, handles := s.handles.insert name h } := by
  rw [setHandle, taken]

/-- Handles on the instrument do not show in what is left. -/
theorem filter_insert_of_ne (handles : Keyed String Handle) (name : String) {h : Handle}
    (other : h.instrument ≠ out) : (handles.insert name h).filter (fun _ h => h.instrument ≠ out) =
      (handles.filter fun _ h => h.instrument ≠ out).insert name h := by
  refine Keyed.ext_get? fun name' => ?_
  rw [Keyed.get?_filter]
  by_cases here : name = name'
  · subst here
    rw [Keyed.get?_insert_self, Keyed.get?_insert_self, Option.filter_some,
      if_pos (by simpa using other)]
  · rw [Keyed.get?_insert_of_ne _ _ here, Keyed.get?_insert_of_ne _ _ here, Keyed.get?_filter]

theorem filter_insert_self (handles : Keyed String Handle) (name : String) {h : Handle}
    (here : h.instrument = out) : (handles.insert name h).filter (fun _ h => h.instrument ≠ out) =
      (handles.filter fun _ h => h.instrument ≠ out).erase name := by
  refine Keyed.ext_get? fun name' => ?_
  rw [Keyed.get?_filter]
  by_cases same : name = name'
  · subst same
    rw [Keyed.get?_insert_self, Keyed.get?_erase_self, Option.filter_some,
      if_neg (by simpa using here)]
  · rw [Keyed.get?_insert_of_ne _ _ same, Keyed.get?_erase_of_ne _ same, Keyed.get?_filter]

/-- Naming a handle on another instrument. -/
theorem setHandle_without (s : Session) (name : String) {h : Handle} (other : h.instrument ≠ out) :
    (s.without course out).setHandle name h = (s.setHandle name h).without course out := by
  have named := handles_without course out s name
  cases taken : s.handles.get? name with
  | none =>
    rw [taken] at named
    rw [setHandle_of_none taken, setHandle_of_none named, without, without,
      filter_insert_of_ne s.handles name other]
  | some old =>
    rw [taken] at named
    by_cases here : old.instrument = out
    · rw [Option.filter_some, if_neg (by simpa using here)] at named
      rw [setHandle_of_some taken, setHandle_of_none named, without, without,
        filter_insert_of_ne s.handles name other, Provider.release,
        Provider.without_modifyHeld_self s.provider here]
    · rw [Option.filter_some, if_pos (by simpa using here)] at named
      rw [setHandle_of_some taken, setHandle_of_some named, without, without,
        filter_insert_of_ne s.handles name other, Provider.release, Provider.release,
        Provider.modifyHeld_without s.provider here]

theorem filter_erase (handles : Keyed String Handle) (name : String) :
    (handles.erase name).filter (fun _ h => h.instrument ≠ out) =
      (handles.filter fun _ h => h.instrument ≠ out).erase name := by
  refine Keyed.ext_get? fun name' => ?_
  rw [Keyed.get?_filter]
  by_cases same : name = name'
  · subst same
    rw [Keyed.get?_erase_self, Keyed.get?_erase_self]
    rfl
  · rw [Keyed.get?_erase_of_ne _ same, Keyed.get?_erase_of_ne _ same, Keyed.get?_filter]

theorem withTagged_of_some {tag : String} {id : InstrumentId} {i : Instrument}
    (tagged : s.provider.tagged? tag = some (id, i))
    (f : InstrumentId → Instrument → Answer × Session) : s.withTagged tag f = f id i := by
  rw [withTagged, tagged]

theorem withHeld_of_some {name : String} {h : Handle} {series : Series}
    (named : s.handles.get? name = some h) (found : s.provider.seriesOf? h = some series)
    (f : Handle → Series → Answer × Session) : s.withHeld name f = f h series := by
  rw [withHeld, named, Option.bind_some, found, Option.map_some]

/-! ## Operations about the instrument -/

/-- A change of the provider that is not seen without the instrument. -/
theorem without_provider {p : Provider}
    (unseen : p.without course out = s.provider.without course out) :
    ({ s with provider := p } : Session).without course out = s.without course out := by
  rw [without, unseen, without]

theorem exists_series (linked : s.client.Linked) {name : String} {h : Handle}
    (named : s.handles.get? name = some h) : ∃ series, s.provider.seriesOf? h = some series := by
  obtain ⟨i, series, found, present⟩ := linked.series (mem_handles named)
  exact ⟨series, (Provider.seriesOf?_of_some found).trans present⟩

/-- Naming a handle on the instrument. Of a handle on another one that had the name remains its
release. -/
theorem run_displaced (clock : Nat → Timestamp) (linked : s.client.Linked) {p : Provider}
    (unseen : p.without course out = s.provider.without course out) {o : Operation} {name : String}
    (names : s.displaced out o =
      if (s.handles.get? name).any fun h => h.instrument ≠ out then [name] else [])
    {h : Handle} (here : h.instrument = out) :
    (s.without course out).run clock ((s.displaced out o).map Operation.release) =
      ((s.displaced out o).map fun _ => .result (.ok ()),
        (({ s with provider := p } : Session).setHandle name h).without course out) := by
  have named := handles_without course out s name
  have unnamed := filter_insert_self s.handles name here
  rw [names]
  cases taken : s.handles.get? name with
  | none =>
    rw [taken] at named
    have free : (s.handles.filter fun _ h => h.instrument ≠ out).get? name = none := named
    rw [Option.any_none, if_neg Bool.false_ne_true,
      setHandle_of_none (s := { s with provider := p }) taken, without, without, unnamed,
      Keyed.erase_of_get?_none free, unseen]
    rfl
  | some old =>
    rw [taken] at named
    by_cases own : old.instrument = out
    · rw [Option.filter_some, if_neg (by simpa using own)] at named
      have free : (s.handles.filter fun _ h => h.instrument ≠ out).get? name = none := named
      rw [Option.any_some, if_neg (by simpa using own),
        setHandle_of_some (s := { s with provider := p }) taken, without, without, unnamed,
        Keyed.erase_of_get?_none free, Provider.release, Provider.without_modifyHeld_self p own,
        unseen]
      rfl
    · rw [Option.filter_some, if_pos (by simpa using own)] at named
      obtain ⟨series, found⟩ := exists_series linked taken
      have left : (s.without course out).provider.seriesOf? old = some series :=
        (Provider.seriesOf?_without s.provider own).trans found
      rw [Option.any_some, if_pos (by simpa using own),
        setHandle_of_some (s := { s with provider := p }) taken]
      simp only [List.map_cons, List.map_nil, run, perform]
      rw [withHeld_of_some named left, without, without, unnamed, Provider.release,
        Provider.release, ← Provider.modifyHeld_without p own, unseen]

/-- What an operation about the instrument does is not seen without it. -/
theorem run_remains_self (clock : Nat → Timestamp) (linked : s.client.Linked)
    (off : s.provider.Off out) {o : Operation} (here : s.subject? o = some out) :
    (s.without course out).run clock ((s.displaced out o).map Operation.release) =
      ((s.displaced out o).map fun _ => .result (.ok ()),
        (s.perform clock o).2.without course out) := by
  have known : ∀ {name}, (s.handles.get? name).map Handle.instrument = some out →
      ∃ h series, s.handles.get? name = some h ∧ s.provider.seriesOf? h = some series ∧
        h.instrument = out := by
    intro name on
    obtain ⟨h, named, on⟩ := Option.map_eq_some_iff.1 on
    obtain ⟨series, found⟩ := exists_series linked named
    exact ⟨h, series, named, found, on⟩
  have unseen : ∀ {p : Provider}, p.without course out = s.provider.without course out →
      (s.without course out).run clock [] =
        ([], ({ s with provider := p } : Session).without course out) := by
    intro p same
    rw [without_provider same]
    rfl
  cases o with
  | update tag value labels =>
    obtain ⟨⟨id, i⟩, tagged, rfl⟩ := Option.map_eq_some_iff.1 here
    simp only [perform]
    rw [withTagged_of_some tagged]
    exact unseen (Provider.without_record_self off rfl)
  | series tag =>
    obtain ⟨⟨id, i⟩, tagged, rfl⟩ := Option.map_eq_some_iff.1 here
    simp only [perform]
    rw [withTagged_of_some tagged]
    rfl
  | bind tag labels name =>
    obtain ⟨⟨id, i⟩, tagged, rfl⟩ := Option.map_eq_some_iff.1 here
    simp only [perform]
    rw [withTagged_of_some tagged]
    exact run_displaced clock linked (Provider.without_bind_self s.provider labels) rfl rfl
  | clone name second =>
    obtain ⟨h, series, named, found, on⟩ := known here
    simp only [perform]
    rw [withHeld_of_some named found]
    exact run_displaced clock linked (Provider.without_modifyHeld_self s.provider on _) rfl on
  | release name =>
    obtain ⟨h, series, named, found, on⟩ := known here
    simp only [perform]
    rw [withHeld_of_some named found]
    have free : (s.handles.filter fun _ h => h.instrument ≠ out).get? name = none := by
      rw [Keyed.get?_filter, named, Option.filter_some, if_neg (by simpa using on)]
    have released : ({ s with provider := s.provider.release h, handles := s.handles.erase name } :
        Session).without course out = s.without course out := by
      rw [without, without, filter_erase, Keyed.erase_of_get?_none free, Provider.release,
        Provider.without_modifyHeld_self s.provider on]
    exact congrArg (Prod.mk []) released.symm
  | boundUpdate name value =>
    obtain ⟨h, series, named, found, on⟩ := known here
    simp only [perform]
    rw [withHeld_of_some named found]
    exact unseen (Provider.without_recordHeld_self off on value)
  | boundRaw name value =>
    obtain ⟨h, series, named, found, on⟩ := known here
    simp only [perform]
    rw [withHeld_of_some named found]
    exact unseen (Provider.without_modifyHeld_self s.provider on _)
  | boundMerge name value =>
    obtain ⟨h, series, named, found, on⟩ := known here
    simp only [perform]
    rw [withHeld_of_some named found]
    cases series.aggregator.mergeValue value with
    | ok a => exact unseen (Provider.without_modifyHeld_self s.provider on _)
    | error e => rfl
  | boundCheckpoint name =>
    obtain ⟨h, series, named, found, on⟩ := known here
    simp only [perform]
    rw [withHeld_of_some named found]
    exact unseen (Provider.without_modifyHeld_self s.provider on _)
  | boundDrain name =>
    obtain ⟨h, series, named, found, on⟩ := known here
    simp only [perform]
    rw [withHeld_of_some named found]
    exact unseen (Provider.without_modifyHeld_self s.provider on _)
  | bound name =>
    obtain ⟨h, series, named, found, on⟩ := known here
    simp only [perform]
    rw [withHeld_of_some named found]
    rfl
  | _ => cases here

/-! ## Operations about other instruments -/

theorem withTagged_without {tag : String} {f f' : InstrumentId → Instrument → Answer × Session}
    (same : ∀ id i, s.provider.tagged? tag = some (id, i) →
      f' id (i.without course out id) = ((f id i).1, (f id i).2.without course out)) :
    (s.without course out).withTagged tag f' =
      ((s.withTagged tag f).1, (s.withTagged tag f).2.without course out) := by
  have left : (s.without course out).provider.tagged? tag = _ :=
    Provider.tagged?_without s.provider tag
  unfold withTagged
  cases tagged : s.provider.tagged? tag with
  | none =>
    rw [tagged] at left
    rw [left]
    rfl
  | some found =>
    rw [tagged] at left
    rw [left]
    exact same found.1 found.2 tagged

theorem withHeld_without {name : String} {f f' : Handle → Series → Answer × Session}
    (other : ¬ (s.handles.get? name).map Handle.instrument = some out)
    (same : ∀ h series, s.handles.get? name = some h → h.instrument ≠ out →
      f' h series = ((f h series).1, (f h series).2.without course out)) :
    (s.without course out).withHeld name f' =
      ((s.withHeld name f).1, (s.withHeld name f).2.without course out) := by
  have named := handles_without course out s name
  unfold withHeld
  cases taken : s.handles.get? name with
  | none =>
    rw [taken] at named
    rw [named]
    rfl
  | some h =>
    have on : h.instrument ≠ out := fun here => other (by rw [taken, Option.map_some, here])
    rw [taken, Option.filter_some, if_pos (by simpa using on)] at named
    have found : (s.without course out).provider.seriesOf? h = s.provider.seriesOf? h :=
      Provider.seriesOf?_without s.provider on
    rw [named, Option.bind_some, Option.bind_some, found]
    cases s.provider.seriesOf? h with
    | none => rfl
    | some series => exact same h series taken on

theorem withController_without {name : String}
    {f f' : Controller MemoryExporter → Answer × Controller MemoryExporter × Provider}
    (foretells : Provider.Foretells course out (s.withController name f).2.provider)
    (same : ∀ c, Provider.Foretells course out (f c).2.2 →
      f' c = ((f c).1, (f c).2.1, (f c).2.2.without course out)) :
    (s.without course out).withController name f' =
      ((s.withController name f).1, (s.withController name f).2.without course out) := by
  have kept : (s.without course out).controllers = s.controllers := rfl
  unfold withController at foretells ⊢
  rw [kept]
  cases named : s.controllers.get? name with
  | none => rfl
  | some c =>
    rw [named] at foretells
    simp only
    rw [same c foretells]
    rfl

theorem measurements?_filter (ms : List (String × Number)) :
    s.measurements? (ms.filter fun m => s.provider.tags.get? m.1 ≠ some out) =
      (s.measurements? ms).map fun known => known.filter fun m => m.instrument ≠ out := by
  induction ms with
  | nil => rfl
  | cons m rest ih =>
    unfold measurements? at ih ⊢
    rw [List.mapM_cons]
    cases tagged : s.provider.tags.get? m.1 with
    | none =>
      rw [List.filter_cons_of_pos (by simp [tagged]), List.mapM_cons, tagged]
      rfl
    | some id =>
      by_cases here : id = out
      · subst here
        rw [List.filter_cons_of_neg (by simp [tagged]), ih]
        cases (rest.mapM fun m =>
            (s.provider.tags.get? m.1).map fun id => (⟨id, m.2⟩ : Measurement)) with
        | none => rfl
        | some known => simp
      · rw [List.filter_cons_of_pos (by simp [tagged, here]), List.mapM_cons, tagged, ih]
        cases (rest.mapM fun m =>
            (s.provider.tags.get? m.1).map fun id => (⟨id, m.2⟩ : Measurement)) with
        | none => rfl
        | some known => simp [here]

/-- Of a batch remain the measurements that remain. -/
theorem measurements?_batchLeft (meter : String) (ms : List (String × Number)) :
    s.measurements? (s.batchLeft out meter ms) =
      (s.measurements? ms).map (Provider.measurementsLeft out s.provider meter) := by
  unfold batchLeft
  cases known : s.measurements? ms with
  | none => exact known
  | some known_ =>
    simp only [Option.map_some]
    unfold Provider.measurementsLeft
    split
    · rw [measurements?_filter, known, Option.map_some]
    · exact known

theorem setAggregator_without (s : Session) {h : Handle} (other : h.instrument ≠ out)
    (a : Aggregator) :
    (s.without course out).setAggregator h a = (s.setAggregator h a).without course out :=
  congrArg (fun p => ({ s.without course out with provider := p } : Session))
    (Provider.modifyHeld_without s.provider other _)

theorem provider_without (s : Session) :
    (s.without course out).provider = s.provider.without course out := rfl

theorem kept_without (s : Session) : (s.without course out).kept = s.kept := rfl

theorem processors_without (s : Session) : (s.without course out).processors = s.processors := rfl

theorem controllers_without (s : Session) :
    (s.without course out).controllers = s.controllers := rfl

theorem bind_without {id : InstrumentId} (other : id ≠ out) (labels : LabelSet) (name : String) :
    let bound := s.provider.bind id labels
    let left := (s.provider.without course out).bind id labels
    (Answer.references (references { s.without course out with provider := left.2 } left.1),
        setHandle { s.without course out with provider := left.2 } name left.1) =
      (Answer.references (references { s with provider := bound.2 } bound.1),
        (setHandle { s with provider := bound.2 } name bound.1).without course out) := by
  intro bound left
  have same : left = (bound.1, bound.2.without course out) :=
    s.provider.bind_without other labels
  have on : bound.1.instrument ≠ out := other
  rw [same]
  exact Prod.ext
    (congrArg Answer.references (references_without (s := { s with provider := bound.2 }) on))
    (setHandle_without { s with provider := bound.2 } name on)

/-- What remains of an operation that is not about the instrument is answered as the operation was,
and does to what is left of the session what the operation did. -/
theorem perform_left (clock : Nat → Timestamp) {o : Operation} (off : s.provider.Off out)
    (foretells : Provider.Foretells course out (s.perform clock o).2.provider)
    (other : ¬ s.subject? o = some out) :
    (s.without course out).perform clock (s.left course out o) =
      ((s.perform clock o).1, (s.perform clock o).2.without course out) := by
  have elsewhere : ∀ {tag id i}, ¬ (s.provider.tagged? tag).map Prod.fst = some out →
      s.provider.tagged? tag = some (id, i) → id ≠ out := by
    intro tag id i other tagged here
    exact other (by rw [tagged, Option.map_some, here])
  cases o with
  | create tag meter d choice script =>
    simp only [left, perform, provider_without]
    rw [Provider.create_without]
    rfl
  | update tag value labels =>
    simp only [left, perform, provider_without]
    refine withTagged_without fun id i tagged => ?_
    rw [Provider.record_without s.provider (u := ⟨id, value, labels⟩) (elsewhere other tagged)]
    rfl
  | copy tag second => exact withTagged_without fun id i _ => rfl
  | describe tag => exact withTagged_without fun id i _ => by simp
  | series tag =>
    refine withTagged_without fun id i tagged => ?_
    rw [Instrument.without_of_ne (elsewhere other tagged)]
  | names meter =>
    simp only [left, perform, provider_without]
    rw [← Provider.without_use, Provider.names_without]
    rfl
  | meters =>
    simp only [left, perform, provider_without]
    rw [Provider.without, Keyed.keys_mapWithKey]
  | batch meter labels ms =>
    simp only [left, perform]
    have same : (s.without course out).measurements? = s.measurements? := rfl
    rw [same, measurements?_batchLeft]
    cases s.measurements? ms with
    | none => rfl
    | some known =>
      have batched : ((s.provider.use meter).without course out).recordBatch meter labels _ = _ :=
        Provider.recordBatch_without (off.use meter) meter labels known
      rw [Provider.measurementsLeft_use, Provider.without_use] at batched
      simp only [Option.map_some, provider_without]
      rw [batched]
      rfl
  | measure tag value => exact withTagged_without fun id i _ => by simp
  | debugInstrument tag => exact withTagged_without fun id i _ => by simp
  | debugMeter meter =>
    simp only [left, perform, provider_without]
    rw [← Provider.without_use, Provider.meter_without]
    delta Diagnostic.meter
    rw [Meter.size_without]
    rfl
  | collect meter keep =>
    simp only [left, perform, provider_without]
    rw [Provider.collect_without clock meter foretells]
    rfl
  | bind tag labels name =>
    simp only [left, perform, provider_without]
    exact withTagged_without fun id i tagged => bind_without (elsewhere other tagged) labels name
  | clone name second =>
    simp only [left, perform, provider_without]
    refine withHeld_without other fun h series _ on => ?_
    rw [Provider.retain, Provider.modifyHeld_without s.provider on]
    exact Prod.ext
      (congrArg Answer.references
        (references_without (s := { s with provider := s.provider.retain h }) on))
      (setHandle_without { s with provider := s.provider.retain h } second on)
  | release name =>
    simp only [left, perform, provider_without]
    refine withHeld_without other fun h series _ on => ?_
    rw [Provider.release, Provider.modifyHeld_without s.provider on]
    exact congrArg (fun handles => (Answer.result (.ok ()), ({ s.without course out with
      provider := (s.provider.release h).without course out, handles := handles } : Session)))
      (filter_erase s.handles name).symm
  | boundUpdate name value =>
    simp only [left, perform, provider_without]
    refine withHeld_without other fun h series _ on => ?_
    rw [Provider.recordHeld_without s.provider on]
    rfl
  | boundRaw name value =>
    exact withHeld_without other fun h series _ on =>
      congrArg (Prod.mk _) (setAggregator_without s on _)
  | boundMerge name value =>
    refine withHeld_without other fun h series _ on => ?_
    cases series.aggregator.mergeValue value with
    | ok a => exact congrArg (Prod.mk _) (setAggregator_without s on _)
    | error e => rfl
  | boundCheckpoint name =>
    exact withHeld_without other fun h series _ on =>
      congrArg (Prod.mk _) (setAggregator_without s on _)
  | boundDrain name =>
    exact withHeld_without other fun h series _ on =>
      congrArg (Prod.mk _) (setAggregator_without s on _)
  | bound name => exact withHeld_without other fun _ _ _ _ => rfl
  | processor name mode => rfl
  | process name records =>
    simp only [left, perform, processors_without, kept_without]
    cases s.processors.get? name with
    | none => rfl
    | some p =>
      cases s.kept.get? records <;> rfl
  | checkpoint name =>
    simp only [left, perform, processors_without]
    cases s.processors.get? name <;> rfl
  | finish name =>
    simp only [left, perform, processors_without]
    cases s.processors.get? name <;> rfl
  | controller name meter mode schedule =>
    simp only [left, perform, provider_without, controllers_without] at foretells ⊢
    rw [← Provider.without_use]
    cases made : Controller.make meter mode MemoryExporter.empty schedule with
    | error e => rfl
    | ok c =>
      cases named : s.controllers.get? name with
      | none => rfl
      | some old =>
        rw [made, named] at foretells
        simp only
        rw [Controller.drop_without foretells]
        rfl
  | tick name =>
    simp only [left, perform, provider_without]
    refine withController_without foretells fun c foretells => ?_
    rw [Controller.tick_without foretells]
  | start name => exact withController_without foretells fun _ _ => rfl
  | stop name =>
    simp only [left, perform, provider_without]
    refine withController_without foretells fun c foretells => ?_
    rw [Controller.stop_without foretells]
  | drop name =>
    simp only [left, perform, provider_without]
    refine withController_without foretells fun c foretells => ?_
    rw [Controller.drop_without foretells]
  | active name => exact withController_without foretells fun _ _ => rfl
  | failing name fail => exact withController_without foretells fun _ _ => rfl
  | clear name => exact withController_without foretells fun _ _ => rfl
  | batches name => exact withController_without foretells fun _ _ => rfl
  | debugController name => exact withController_without foretells fun _ _ => rfl

/-! ## Runs -/

theorem run_remains (clock : Nat → Timestamp) (linked : s.client.Linked) {o : Operation}
    (off : s.provider.Off out)
    (foretells : Provider.Foretells course out (s.perform clock o).2.provider) :
    (s.without course out).run clock ((s.remains clock course out o).map Prod.fst) =
      ((s.remains clock course out o).map Prod.snd, (s.perform clock o).2.without course out) := by
  unfold remains
  by_cases here : s.subject? o = some out
  · rw [if_pos here, List.map_map, List.map_map]
    exact run_remains_self clock linked off here
  · rw [if_neg here]
    simp only [List.map_cons, List.map_nil, run]
    rw [perform_left clock off foretells here]

/-- What remains of a run does to what is left of the session what the run did, and its operations
are answered as they were. -/
theorem run_remainder (clock : Nat → Timestamp) (ops : List Operation) :
    ∀ {s : Session}, s.client.Linked →
      Provider.Foretells course out (s.run clock ops).2.provider →
      (s.without course out).run clock ((remainder clock course out s ops).map Prod.fst) =
        ((remainder clock course out s ops).map Prod.snd,
          (s.run clock ops).2.without course out) := by
  induction ops with
  | nil => exact fun _ _ => rfl
  | cons o rest ih =>
    intro s linked foretells
    have before : ∀ (t : Session) (more : List Operation), t.client.Linked →
        Provider.Foretells course out (t.run clock more).2.provider →
        Provider.Foretells course out t.provider := by
      intro t more linked foretells
      have reach : Client.Reach clock _ _ t.client (t.run clock more).2.client :=
        t.reach_run_all more
      have later := linked.later reach
      exact foretells.before (numbers_run clock more t) fun i found =>
        (later.instruments out i found).imp fun _ facts => ⟨facts.1, facts.2.1⟩
    have still : (s.perform clock o).2.client.Linked :=
      linked.reach (s.reach_run_all [o])
    have after := before (s.perform clock o).2 rest still foretells
    have first := run_remains clock linked (before s (o :: rest) linked foretells).off after
    have others := ih still foretells
    rw [remainder, List.map_append, List.map_append, run_append, first, others]
    rfl

/-- The use of a disabled instrument makes no difference to a run. Take out of it every update of the
instrument, every handle on it and what is done with these, its callback, what other callbacks bring
to it, and its measurements from the batches in which its meter accepts all of them: then every
operation that remains is answered as it was, and the run ends with the same records kept, the same
processors and controllers, with all that these exported, and the same instruments, but for the
disabled one, which is unused, and the scripts of the callbacks that used it. -/
theorem disabled_instruments_are_inert (clock : Nat → Timestamp) (ops : List Operation)
    (out : InstrumentId) (i : Instrument)
    (found : (empty.run clock ops).2.provider.instrument? out = some i)
    (disabled : i.descriptor.enabled = false) :
    let final := (empty.run clock ops).2
    let course := final.provider.course
    let rest := remainder clock course out empty ops
    empty.run clock (rest.map Prod.fst) = (rest.map Prod.snd, final.without course out) ∧
    (final.without course out).provider.instrument? out =
      some (.new i.descriptor i.aggregation (i.callback.map fun c => .ofScript c.tag [])) ∧
    ∀ id j, id ≠ out → final.provider.instrument? id = some j →
      (final.without course out).provider.instrument? id =
        some { j with callback := j.callback.map (Callback.without course out id) } := by
  intro final course rest
  have off : final.provider.Off out := by
    intro j present
    cases found.symm.trans present
    exact disabled
  have foretells : Provider.Foretells course out final.provider :=
    Provider.foretells_course (numbers_run clock ops empty) off
  refine ⟨run_remainder (s := empty) clock ops Client.linked_empty foretells, ?_,
    fun id j other present => ?_⟩
  · rw [provider_without, Provider.instrument?_without, found, Option.map_some,
      Instrument.without_self]
  · rw [provider_without, Provider.instrument?_without, present, Option.map_some,
      Instrument.without_of_ne other]

/-- The use of a disabled counter, taken out of a run with a controller: its handle goes and the
update by it, so that six of eight operations remain, and an observer loses one of two actions. -/
theorem run_without_disabled_counter :
    let hits : Descriptor := ⟨"hits", "", "1", .counter, .int64, false⟩
    let size : Descriptor := ⟨"size", "", "By", .valueRecorder, .int64, true⟩
    let load : Descriptor := ⟨"load", "", "1", .valueObserver, .int64, true⟩
    let ops : List Operation := [.create "c" "m" hits none [], .create "r" "m" size none [],
      .create "o" "m" load none [[.observe (.integer 1) .empty, .update "c" (.integer 2) .empty]],
      .controller "p" "m" .stateful .default, .bind "c" .empty "h", .boundUpdate "h" (.integer 3),
      .batch "m" .empty [("c", .integer 4), ("r", .integer 5)], .tick "p"]
    let final := (empty.run (fun _ => default) ops).2
    let rest := remainder (fun _ => default) final.provider.course ⟨"m", "hits"⟩ empty ops
    let rerun := empty.run (fun _ => default) (rest.map Prod.fst)
    (final.provider.tagged? "c").map (fun found => found.2.series.keys) = some [""] ∧
    final.provider.journal.map (fun run => run.did.length) = [2] ∧
    rest.length = 6 ∧ rerun.1 = rest.map Prod.snd ∧
    rerun.2.provider.journal.map (fun run => run.did.length) = [1] ∧
    (rerun.2.provider.tagged? "c").map (fun found => found.2.series.keys) = some [] ∧
    rerun.2.controllers = final.controllers := by
  intro hits size load ops final rest rerun
  have known : (final.provider.instrument? ⟨"m", "hits"⟩).map Instrument.descriptor = some hits := by
    decide +kernel
  obtain ⟨i, found, described⟩ := Option.map_eq_some_iff.1 known
  obtain ⟨same, -⟩ := disabled_instruments_are_inert (fun _ => default) ops ⟨"m", "hits"⟩ i found
    (by rw [described])
  have last : rerun = (rest.map Prod.snd, final.without final.provider.course ⟨"m", "hits"⟩) := same
  refine ⟨by decide +kernel, by decide +kernel, by decide +kernel, congrArg Prod.fst last, ?_, ?_, ?_⟩
  · rw [last]
    decide +kernel
  · rw [last]
    decide +kernel
  · rw [last]
    exact controllers_without _

/-- What is seen of a disabled instrument itself tells: binding creates a series. -/
theorem binding_disabled_instrument_creates_series :
    let hits : Descriptor := ⟨"hits", "", "1", .counter, .int64, false⟩
    let labels := LabelSet.ofList [("k", "v")]
    (∃ s, ((empty.run (fun _ => default) [.create "c" "m" hits none [], .bind "c" labels "h",
      .series "c"]).1.getLast?) = some (.series [("k:v,", s)])) ∧
    ((empty.run (fun _ => default) [.create "c" "m" hits none [], .series "c"]).1.getLast?) =
      some (.series []) := by
  exact ⟨⟨_, rfl⟩, rfl⟩

end Session

end Metering
