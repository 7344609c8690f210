import Metering.Proofs.Client
import Metering.Proofs.Provider.Batch

/-!
# Sessions as sequences of client steps

`reach_perform` follows every operation of a session through the provider and the handles that the
session holds. `reach_run` is the same for whole runs, for any meters and any use of aggregators;
the statements about sessions that hold at every moment are proved of `Client.Reach` and brought
over by it.
-/

namespace Metering

/-- The name of the controller that an operation is about. -/
def Operation.controller? : Operation → Option String
  | .controller name _ _ _ | .tick name | .start name | .stop name | .drop name | .active name
  | .failing name _ | .clear name | .batches name | .debugController name => some name
  | _ => none

namespace Session

variable {clock : Nat → Timestamp} {meters : String → Prop} {raw : Prop} {s : Session}

/-- The provider and the handles of a session. -/
def client (s : Session) : Client := ⟨s.provider, s.handles.values⟩

/-- Whether an operation collects only the given meters and leaves aggregators alone, unless `raw`
allows their use. -/
def Allows (meters : String → Prop) (raw : Prop) (s : Session) : Operation → Prop
  | .create _ _ _ _ script => ∀ m ∈ scriptTargets script, meters m
  | .collect meter _ => meters meter
  | .controller name _ _ _ | .tick name | .stop name | .drop name =>
    ∀ c, s.controllers.get? name = some c → meters c.meter
  | .boundRaw _ _ | .boundMerge _ _ | .boundCheckpoint _ | .boundDrain _ => raw
  | _ => True

/-! ## The branches of an operation -/

theorem withTagged_cases (s : Session) (tag : String)
    (f : InstrumentId → Instrument → Answer × Session) :
    (s.withTagged tag f).2 = s ∨
      ∃ id i, s.provider.instrument? id = some i ∧ (s.withTagged tag f).2 = (f id i).2 := by
  unfold withTagged
  split
  · rename_i id i tagged
    obtain ⟨id', _, present⟩ := Option.bind_eq_some_iff.1 tagged
    obtain ⟨i', found, same⟩ := Option.map_eq_some_iff.1 present
    cases same
    exact Or.inr ⟨id, i, found, rfl⟩
  · exact Or.inl rfl

theorem withHeld_cases (s : Session) (name : String) (f : Handle → Series → Answer × Session) :
    (s.withHeld name f).2 = s ∨
      ∃ h series, s.handles.get? name = some h ∧ s.provider.seriesOf? h = some series ∧
        (s.withHeld name f).2 = (f h series).2 := by
  unfold withHeld
  split
  · rename_i h series held
    obtain ⟨h', named, present⟩ := Option.bind_eq_some_iff.1 held
    obtain ⟨series', found, same⟩ := Option.map_eq_some_iff.1 present
    cases same
    exact Or.inr ⟨h, series, named, found, rfl⟩
  · exact Or.inl rfl

theorem withController_cases (s : Session) (name : String)
    (f : Controller MemoryExporter → Answer × Controller MemoryExporter × Provider) :
    (s.withController name f).2 = s ∨
      ∃ c, s.controllers.get? name = some c ∧ (s.withController name f).2 =
        { s with provider := (f c).2.2, controllers := s.controllers.insert name (f c).2.1 } := by
  unfold withController
  split
  · rename_i c named
    exact Or.inr ⟨c, named, rfl⟩
  · exact Or.inl rfl

theorem reach_withTagged {tag : String} {f : InstrumentId → Instrument → Answer × Session}
    (known : ∀ id i, s.provider.instrument? id = some i →
      Client.Reach clock meters raw s.client (f id i).2.client) :
    Client.Reach clock meters raw s.client (s.withTagged tag f).2.client := by
  rcases s.withTagged_cases tag f with unknown | ⟨id, i, found, done⟩
  · rw [unknown]
  · rw [done]
    exact known id i found

theorem reach_withHeld {name : String} {f : Handle → Series → Answer × Session}
    (known : ∀ h series, s.handles.get? name = some h → s.provider.seriesOf? h = some series →
      Client.Reach clock meters raw s.client (f h series).2.client) :
    Client.Reach clock meters raw s.client (s.withHeld name f).2.client := by
  rcases s.withHeld_cases name f with unknown | ⟨h, series, named, found, done⟩
  · rw [unknown]
  · rw [done]
    exact known h series named found

theorem reach_withController {name : String}
    {f : Controller MemoryExporter → Answer × Controller MemoryExporter × Provider}
    (known : ∀ c, s.controllers.get? name = some c →
      s.provider.Reach clock meters (f c).2.2) :
    Client.Reach clock meters raw s.client (s.withController name f).2.client := by
  rcases s.withController_cases name f with unknown | ⟨c, named, done⟩
  · rw [unknown]
  · rw [done]
    exact Client.reach_of_provider (known c named)

/-- Operations that are not about controllers leave them as they are. -/
theorem controllers_perform (clock : Nat → Timestamp) (s : Session) {o : Operation}
    (other : o.controller? = none) : (s.perform clock o).2.controllers = s.controllers := by
  cases o with
  | controller _ _ _ _ | tick _ | start _ | stop _ | drop _ | active _ | failing _ _ | clear _
  | batches _ | debugController _ => cases other
  | create _ _ _ _ _ | names _ | meters | debugMeter _ | collect _ _ | processor _ _ => rfl
  | update _ _ _ | copy _ _ | describe _ | series _ | measure _ _ | debugInstrument _ | bind _ _ _ =>
    simp only [perform, withTagged, setHandle]
    split <;> rfl
  | clone _ _ | release _ | boundUpdate _ _ | boundRaw _ _ | boundCheckpoint _ | boundDrain _
  | bound _ =>
    simp only [perform, withHeld, setHandle, setAggregator]
    split <;> rfl
  | boundMerge _ _ =>
    simp only [perform, withHeld, setAggregator]
    split
    · split <;> rfl
    · rfl
  | batch _ _ _ | process _ _ | checkpoint _ | finish _ =>
    simp only [perform]
    split <;> rfl

theorem mem_handles {name : String} {h : Handle} (named : s.handles.get? name = some h) :
    h ∈ s.handles.values :=
  (Keyed.mem_values_iff _ _).2 ⟨name, named⟩

/-! ## Handles -/

/-- Naming a new handle releases the one that had the name. -/
theorem reach_setHandle (s : Session) (name : String) (h : Handle) :
    Client.Reach clock meters raw ⟨s.provider, h :: s.handles.values⟩ (s.setHandle name h).client := by
  have renamed := (Keyed.values_insert_perm s.handles name h).symm
  unfold setHandle client
  cases named : s.handles.get? name with
  | none =>
    rw [Keyed.erase_of_get?_none named] at renamed
    exact .single (.order renamed)
  | some old =>
    have taken : (h :: s.handles.values).Perm (old :: h :: (s.handles.erase name).values) :=
      ((Keyed.values_perm_of_get? named).cons h).trans (.swap old h _)
    exact ((Relation.ReflTransGen.single (.order taken)).tail (.release old)).tail (.order renamed)

theorem reach_release {name : String} {h : Handle} (named : s.handles.get? name = some h) :
    Client.Reach clock meters raw s.client
      ⟨s.provider.release h, (s.handles.erase name).values⟩ :=
  (Relation.ReflTransGen.single (.order (Keyed.values_perm_of_get? named))).tail (.release h)

theorem reach_setAggregator {name : String} {h : Handle} {series : Series} {a : Aggregator}
    (allowed : raw) (named : s.handles.get? name = some h)
    (found : s.provider.seriesOf? h = some series) (use : series.aggregator.Use a) :
    Client.Reach clock meters raw s.client (s.setAggregator h a).client :=
  .single (.raw allowed (mem_handles named) found use)

/-! ## Ticks -/

theorem reach_tick {c : Controller MemoryExporter} {p : Provider} (allowed : meters c.meter)
    (inside : p.Within meters) : p.Reach clock meters (c.tick clock p).2.2 :=
  Provider.reach_collect clock allowed inside

theorem reach_stop {c : Controller MemoryExporter} {p : Provider} (allowed : meters c.meter)
    (inside : p.Within meters) : p.Reach clock meters (c.stop clock p).2.2 := by
  unfold Controller.stop
  cases c.phase with
  | running => exact reach_tick allowed inside
  | idle => exact .refl
  | dropped => exact .refl

theorem reach_drop {c : Controller MemoryExporter} {p : Provider} (allowed : meters c.meter)
    (inside : p.Within meters) : p.Reach clock meters (c.drop clock p).2 :=
  reach_stop allowed inside

/-! ## Operations -/

/-- Every operation is a sequence of steps of the session's client. -/
theorem reach_perform (inside : s.provider.Within meters) (o : Operation)
    (allowed : s.Allows meters raw o) :
    Client.Reach clock meters raw s.client (s.perform clock o).2.client := by
  cases o with
  | create tag meter d choice script =>
    exact Client.reach_of_provider (.single (.create _ tag meter d choice script allowed))
  | update tag value labels =>
    exact reach_withTagged fun id i _ =>
      Client.reach_of_provider (.single (.record _ ⟨id, value, labels⟩))
  | copy tag second =>
    exact reach_withTagged fun id i _ => .single (.tag second id)
  | describe tag => exact reach_withTagged fun _ _ _ => .refl
  | series tag => exact reach_withTagged fun _ _ _ => .refl
  | names meter => exact Client.reach_of_provider (.single (.use _ meter))
  | meters => exact .refl
  | batch meter labels ms =>
    simp only [perform]
    cases s.measurements? ms with
    | none => exact .refl
    | some ms =>
      have used : s.provider.Reach clock meters (s.provider.use meter) := .single (.use _ meter)
      exact Client.reach_of_provider
        (used.trans (Provider.reach_recordBatch (s.provider.use meter) meter labels ms))
  | measure tag value => exact reach_withTagged fun _ _ _ => .refl
  | debugInstrument tag => exact reach_withTagged fun _ _ _ => .refl
  | debugMeter meter => exact Client.reach_of_provider (.single (.use _ meter))
  | collect meter keep =>
    exact Client.reach_of_provider (Provider.reach_collect clock allowed inside)
  | bind tag labels name =>
    refine reach_withTagged fun id i found => ?_
    have bound : Client.Reach clock meters raw s.client
        ⟨(s.provider.bind id labels).2, (s.provider.bind id labels).1 :: s.handles.values⟩ :=
      .single (.bind labels found)
    exact bound.trans (reach_setHandle { s with provider := (s.provider.bind id labels).2 } name _)
  | clone name second =>
    refine reach_withHeld fun h series named _ => ?_
    have cloned : Client.Reach clock meters raw s.client
        ⟨s.provider.retain h, h :: s.handles.values⟩ := .single (.clone (mem_handles named))
    exact cloned.trans (reach_setHandle { s with provider := s.provider.retain h } second h)
  | release name => exact reach_withHeld fun h series named _ => reach_release named
  | boundUpdate name value =>
    exact reach_withHeld fun h series named _ => .single (.update value (mem_handles named))
  | boundRaw name value =>
    exact reach_withHeld fun h series named found =>
      reach_setAggregator allowed named found (.update value)
  | boundMerge name value =>
    refine reach_withHeld fun h series named found => ?_
    cases merged : series.aggregator.mergeValue value with
    | ok a => exact reach_setAggregator allowed named found (.merge merged)
    | error e => exact .refl
  | boundCheckpoint name =>
    exact reach_withHeld fun h series named found =>
      reach_setAggregator allowed named found .checkpoint
  | boundDrain name =>
    exact reach_withHeld fun h series named found =>
      reach_setAggregator allowed named found .drain
  | bound name => exact reach_withHeld fun _ _ _ _ => .refl
  | processor name mode => exact .refl
  | process name records =>
    simp only [perform]
    split <;> exact .refl
  | checkpoint name =>
    simp only [perform]
    split <;> exact .refl
  | finish name =>
    simp only [perform]
    split <;> exact .refl
  | controller name meter mode schedule =>
    have used : s.provider.Reach clock meters (s.provider.use meter) := .single (.use _ meter)
    simp only [perform]
    cases Controller.make meter mode MemoryExporter.empty schedule with
    | error e => exact Client.reach_of_provider used
    | ok c =>
      cases old : s.controllers.get? name with
      | none => exact Client.reach_of_provider used
      | some c' =>
        exact Client.reach_of_provider
          (used.trans (reach_drop (allowed c' old) (used.within inside)))
  | tick name =>
    exact reach_withController fun c named => reach_tick (allowed c named) inside
  | start name => exact reach_withController fun _ _ => .refl
  | stop name =>
    exact reach_withController fun c named => reach_stop (allowed c named) inside
  | drop name =>
    exact reach_withController fun c named => reach_drop (allowed c named) inside
  | active name => exact reach_withController fun _ _ => .refl
  | failing name fail => exact reach_withController fun _ _ => .refl
  | clear name => exact reach_withController fun _ _ => .refl
  | batches name => exact reach_withController fun _ _ => .refl
  | debugController name => exact reach_withController fun _ _ => .refl

/-! ## Runs -/

theorem allows_all (s : Session) (o : Operation) : s.Allows (fun _ => True) True o := by
  cases o with
  | create tag meter d choice script => exact fun _ _ => trivial
  | _ => simp [Allows]

/-- A run that is allowed as long as `inv` holds, which its operations keep, is a sequence of steps
of the session's client. -/
theorem reach_run (inv : Session → Prop) (ops : List Operation)
    (kept : ∀ s, inv s → ∀ o ∈ ops, inv (s.perform clock o).2)
    (allowed : ∀ s, inv s → ∀ o ∈ ops, s.Allows meters raw o) :
    ∀ {s : Session}, inv s → s.provider.Within meters →
      Client.Reach clock meters raw s.client (s.run clock ops).2.client := by
  induction ops with
  | nil => exact fun _ _ => .refl
  | cons o rest ih =>
    intro s holds inside
    have first : Client.Reach clock meters raw s.client (s.perform clock o).2.client :=
      reach_perform inside o (allowed s holds o List.mem_cons_self)
    have others := ih (fun s holds o member => kept s holds o (List.mem_cons_of_mem _ member))
      (fun s holds o member => allowed s holds o (List.mem_cons_of_mem _ member))
      (kept s holds o List.mem_cons_self) (first.within inside)
    exact first.trans others

/-- A run goes on from where it stands. -/
theorem run_append (clock : Nat → Timestamp) (ops more : List Operation) : ∀ s : Session,
    s.run clock (ops ++ more) = ((s.run clock ops).1 ++ ((s.run clock ops).2.run clock more).1,
      ((s.run clock ops).2.run clock more).2) := by
  induction ops with
  | nil => exact fun _ => rfl
  | cons o rest ih =>
    intro s
    simp only [List.cons_append, run]
    rw [ih]

/-- Every run is a sequence of steps of the session's client. -/
theorem reach_run_all (s : Session) (ops : List Operation) :
    Client.Reach clock (fun _ => True) True s.client (s.run clock ops).2.client :=
  reach_run (fun _ => True) ops (fun _ _ _ _ => trivial) (fun s _ o _ => s.allows_all o) trivial
    s.provider.within_all

end Session

end Metering
