import Metering.Proofs.Collector
import Metering.Proofs.Session

/-!
# Totals of a meter with one controller

A meter that is collected by nothing but one controller with memory reports each counter, at every
tick, with all that it accepted before the tick swept it. The totals therefore never go down from
one tick to the next, and it makes no difference to them when the ticks before were.
-/

namespace Metering

/-- An operation that does not collect a meter, makes no controller and no callback that does, and
uses no aggregator directly. Ticks are allowed. -/
def Operation.Spares (m : String) : Operation → Prop
  | .boundRaw _ _ | .boundMerge _ _ | .boundCheckpoint _ | .boundDrain _ => False
  | .create _ _ _ _ script => m ∉ scriptTargets script
  | .collect meter _ => meter ≠ m
  | .controller _ meter _ _ => meter ≠ m
  | _ => True

/-- A tick: the controller that ticks, and the provider that it collects. -/
structure Due where
  controller : Controller MemoryExporter
  provider : Provider

namespace Due

/-- What the tick collects from its meter. -/
def collected (clock : Nat → Timestamp) (d : Due) : List Record :=
  (d.controller.tick clock d.provider).1.collected

/-- What the tick hands to the exporter. -/
def batch (clock : Nat → Timestamp) (d : Due) : List Record :=
  (d.controller.tick clock d.provider).1.batch

/-- The provider after the tick. -/
def after (clock : Nat → Timestamp) (d : Due) : Provider :=
  (d.controller.tick clock d.provider).2.2

/-- What a series of the meter accepted before the tick swept its instrument. -/
def accepted (clock : Nat → Timestamp) (d : Due) (k : SeriesKey) : List Number :=
  valuesBefore d.provider.readings k.labels
    ((d.after clock).notes ⟨d.controller.meter, k.name⟩)

/-- What the tick reports of a series. -/
def exported (clock : Nat → Timestamp) (d : Due) (k : SeriesKey) : List Record :=
  (d.batch clock).filter fun r => r.key = k

theorem later (clock : Nat → Timestamp) (d : Due) :
    Provider.Later (fun _ => True) d.provider (d.after clock) :=
  (Provider.reach_collect clock trivial d.provider.within_all).later

end Due

namespace Session

variable {clock : Nat → Timestamp} {m : String} {cs cs' : List (List Record)} {s : Session}
  {owner : Option String} {name : String} {c c' : Controller MemoryExporter} {p : Provider}

/-- The controller with a name, if it is one of a meter. -/
def controllerOf? (s : Session) (m name : String) : Option (Controller MemoryExporter) :=
  (s.controllers.get? name).filter fun c => c.meter = m

/-- The last tick of a controller of a meter, if it has been running. -/
def ending (m : String) (s : Session) (name : String) (p : Provider) : Option Due :=
  ((s.controllerOf? m name).filter Controller.isActive).map fun c => ⟨{ c with phase := .idle }, p⟩

/-- The tick of a controller of a meter that an operation brings about. -/
def due (m : String) (s : Session) : Operation → Option Due
  | .tick name => (s.controllerOf? m name).map fun c => ⟨c, s.provider⟩
  | .stop name | .drop name => s.ending m name s.provider
  | .controller name meter mode schedule =>
    match Controller.make meter mode MemoryExporter.empty schedule with
    | .ok _ => s.ending m name (s.provider.use meter)
    | .error _ => none
  | _ => none

/-- The ticks of controllers of a meter in a run. -/
def dues (clock : Nat → Timestamp) (m : String) (s : Session) : List Operation → List Due
  | [] => []
  | o :: rest => (s.due m o).toList ++ (s.perform clock o).2.dues clock m rest

theorem controllerOf?_eq_some_iff :
    s.controllerOf? m name = some c ↔ s.controllers.get? name = some c ∧ c.meter = m := by
  rw [controllerOf?, Option.filter_eq_some_iff, decide_eq_true_iff]

/-- The records `cs` are all that was collected of a meter. The only controller that it may have is
that with the name `owner`, which has memory of them. -/
structure Sole (m : String) (owner : Option String) (cs : List (List Record)) (s : Session) :
    Prop where
  collected : s.client.Collected m cs
  owner : ∀ name c, s.controllerOf? m name = some c → owner = some name
  processor : ∀ name c, s.controllerOf? m name = some c →
    c.processor = (Processor.empty .stateful).after cs

/-- A controller goes on with the records that were collected. -/
theorem Sole.put (sole : s.Sole m owner cs) (found : s.controllers.get? name = some c)
    (collected : Client.Collected m cs' ⟨p, s.handles.values⟩) (meter : c'.meter = c.meter)
    (own : c.meter = m → c'.processor = (Processor.empty .stateful).after cs')
    (other : c.meter ≠ m → cs' = cs) :
    Sole m owner cs' { s with provider := p, controllers := s.controllers.insert name c' } := by
  have before : ∀ {name' c''}, controllerOf?
      { s with provider := p, controllers := s.controllers.insert name c' } m name' = some c'' →
      (name' = name ∧ c'' = c' ∧ s.controllerOf? m name = some c) ∨
        (name' ≠ name ∧ s.controllerOf? m name' = some c'') := by
    intro name' c'' there
    obtain ⟨held, here⟩ := controllerOf?_eq_some_iff.1 there
    by_cases same : name = name'
    · subst same
      rw [Keyed.get?_insert_self] at held
      cases held
      exact Or.inl ⟨rfl, rfl, controllerOf?_eq_some_iff.2 ⟨found, meter.symm.trans here⟩⟩
    · rw [Keyed.get?_insert_of_ne _ _ same] at held
      exact Or.inr ⟨Ne.symm same, controllerOf?_eq_some_iff.2 ⟨held, here⟩⟩
  refine ⟨collected, fun name' c'' there => ?_, fun name' c'' there => ?_⟩
  · rcases before there with ⟨rfl, -, mine⟩ | ⟨-, old⟩
    · exact sole.owner _ c mine
    · exact sole.owner name' c'' old
  · rcases before there with ⟨-, rfl, mine⟩ | ⟨apart, old⟩
    · exact own (controllerOf?_eq_some_iff.1 mine).2
    · have foreign : c.meter ≠ m := by
        intro here
        have mine := sole.owner name c (controllerOf?_eq_some_iff.2 ⟨found, here⟩)
        rw [sole.owner name' c'' old] at mine
        exact apart (Option.some.inj mine)
      rw [other foreign]
      exact sole.processor name' c'' old

/-- A name may be given to a controller of another meter. -/
theorem Sole.discard (sole : s.Sole m owner cs)
    {controllers : Keyed String (Controller MemoryExporter)}
    (same : ∀ name', name ≠ name' → controllers.get? name' = s.controllers.get? name')
    (foreign : ∀ c, controllers.get? name = some c → c.meter ≠ m) :
    Sole m owner cs { s with controllers } := by
  have before : ∀ {name' c}, controllerOf? { s with controllers } m name' = some c →
      s.controllerOf? m name' = some c := by
    intro name' c there
    obtain ⟨held, here⟩ := controllerOf?_eq_some_iff.1 there
    by_cases at_ : name = name'
    · subst at_
      exact absurd here (foreign c held)
    · exact controllerOf?_eq_some_iff.2 ⟨(same name' at_).symm.trans held, here⟩
  exact ⟨sole.collected, fun name c there => sole.owner name c (before there),
    fun name c there => sole.processor name c (before there)⟩

theorem Sole.reach (sole : s.Sole m owner cs) {s' : Session}
    (reach : Client.Reach clock (· ≠ m) False s.client s'.client)
    (controllers : s'.controllers = s.controllers) : s'.Sole m owner cs := by
  have same : ∀ name, s.controllerOf? m name = s'.controllerOf? m name := by
    intro name
    rw [controllerOf?, controllerOf?, controllers]
  exact ⟨sole.collected.reach reach,
    fun name c there => sole.owner name c ((same name).trans there),
    fun name c there => sole.processor name c ((same name).trans there)⟩

/-! ## Ticks -/

/-- The records that ticks collected. -/
def collections (clock : Nat → Timestamp) (ds : List Due) : List (List Record) :=
  ds.map (Due.collected clock)

theorem Sole.quiet (sole : s.Sole m owner cs) (clock : Nat → Timestamp) :
    s.Sole m owner (cs ++ collections clock []) := by
  have nothing : cs ++ collections clock [] = cs := List.append_nil cs
  rw [nothing]
  exact sole

/-- A tick of a controller, whatever becomes of its phase and exporter. -/
theorem Sole.tick (sole : s.Sole m owner cs) (found : s.controllers.get? name = some c)
    (before : Client.Collected m cs ⟨p, s.handles.values⟩) {d : Due}
    (here : d.controller.meter = c.meter ∧ d.controller.processor = c.processor ∧ d.provider = p)
    (meter : c'.meter = c.meter)
    (processor : c'.processor = (d.controller.tick clock p).2.1.processor) :
    Sole m owner (cs ++ collections clock (if c.meter = m then [d] else []))
      { s with provider := d.after clock, controllers := s.controllers.insert name c' } := by
  obtain ⟨controller, provider⟩ := d
  obtain ⟨sameMeter, sameProcessor, rfl⟩ := here
  by_cases mine : c.meter = m
  · rw [if_pos mine]
    subst mine
    have own := sole.processor name c (controllerOf?_eq_some_iff.2 ⟨found, rfl⟩)
    have taken : Due.collected clock ⟨controller, provider⟩ = (provider.collect clock c.meter).1 :=
      congrArg (fun m => (provider.collect clock m).1) sameMeter
    have left : Due.after clock ⟨controller, provider⟩ = (provider.collect clock c.meter).2 :=
      congrArg (fun m => (provider.collect clock m).2) sameMeter
    refine sole.put found ?_ meter (fun _ => ?_) fun other => absurd rfl other
    · rw [collections, List.map_singleton, taken, left]
      exact before.collect clock
    · rw [processor, (Processor.tick_cycle clock controller provider).2, sameProcessor, own,
        ← Processor.after_concat]
      rfl
  · rw [if_neg mine]
    have reach : Client.Reach clock (· ≠ m) False ⟨provider, s.handles.values⟩
        ⟨Due.after clock ⟨controller, provider⟩, s.handles.values⟩ :=
      Client.reach_of_provider (reach_tick (sameMeter ▸ mine) before.within)
    exact (sole.put found (before.reach reach) meter (fun own => absurd own mine)
      fun _ => rfl).quiet clock

theorem ending_of_some (found : s.controllers.get? name = some c) (p : Provider) :
    (s.ending m name p).toList =
      if c.meter = m ∧ c.isActive = true then [⟨{ c with phase := .idle }, p⟩] else [] := by
  rw [ending, controllerOf?, found]
  by_cases mine : c.meter = m
  · by_cases active : c.isActive = true
    · simp [mine, active]
    · simp [mine, active]
  · simp [mine]

theorem meter_stop (clock : Nat → Timestamp) (c : Controller MemoryExporter) (p : Provider) :
    (c.stop clock p).2.1.meter = c.meter := by
  unfold Controller.stop
  split <;> rfl

/-- Stopping a controller ticks it, if it has been running. -/
theorem Sole.stop (sole : s.Sole m owner cs) (found : s.controllers.get? name = some c)
    (before : Client.Collected m cs ⟨p, s.handles.values⟩)
    (meter : c'.meter = c.meter) (processor : c'.processor = (c.stop clock p).2.1.processor) :
    Sole m owner (cs ++ collections clock (s.ending m name p).toList)
      { s with provider := (c.stop clock p).2.2, controllers := s.controllers.insert name c' } := by
  rw [ending_of_some found]
  cases phase : c.phase with
  | running =>
    have active : c.isActive = true := by rw [Controller.isActive, phase]; rfl
    have stopped : (c.stop clock p).2 = ({ c with phase := .idle }.tick clock p).2 := by
      rw [Controller.stop, phase]
    simp only [active, and_true, stopped] at processor ⊢
    exact sole.tick (d := ⟨{ c with phase := .idle }, p⟩) found before ⟨rfl, rfl, rfl⟩ meter
      processor
  | _ =>
    have still : (c.stop clock p).2 = (c, p) := by rw [Controller.stop, phase]
    have idle : c.isActive ≠ true := by rw [Controller.isActive, phase]; decide
    rw [if_neg fun both => idle both.2]
    simp only [still] at processor ⊢
    refine (sole.put found before meter (fun mine => ?_) fun _ => rfl).quiet clock
    exact processor.trans (sole.processor name c (controllerOf?_eq_some_iff.2 ⟨found, mine⟩))

/-! ## Operations -/

theorem allows_of_spares {o : Operation} (spares : o.Spares m) (other : o.controller? = none) :
    s.Allows (· ≠ m) False o := by
  cases o with
  | create tag meter d choice script => exact fun m' target same => spares (same ▸ target)
  | collect meter keep => exact spares
  | boundRaw _ _ | boundMerge _ _ | boundCheckpoint _ | boundDrain _ => exact spares
  | controller _ _ _ _ | tick _ | stop _ | drop _ => cases other
  | _ => trivial

/-- What is done with a controller, if there is one, goes on with the records that its tick
collected. -/
theorem Sole.withController (sole : s.Sole m owner cs)
    {f : Controller MemoryExporter → Answer × Controller MemoryExporter × Provider}
    {due : Option Due} (none_ : s.controllers.get? name = none → due = none)
    (some_ : ∀ c, s.controllers.get? name = some c →
      Sole m owner (cs ++ collections clock due.toList)
        { s with provider := (f c).2.2, controllers := s.controllers.insert name (f c).2.1 }) :
    (s.withController name f).2.Sole m owner (cs ++ collections clock due.toList) := by
  unfold Session.withController
  cases found : s.controllers.get? name with
  | none =>
    rw [none_ found]
    exact sole.quiet clock
  | some c => exact some_ c found

/-- Nothing is collected by what leaves meter and processor of a controller as they are. -/
theorem Sole.same (sole : s.Sole m owner cs)
    {f : Controller MemoryExporter → Answer × Controller MemoryExporter × Provider}
    (same : ∀ c, (f c).2.1.meter = c.meter ∧ (f c).2.1.processor = c.processor ∧
      (f c).2.2 = s.provider) :
    (s.withController name f).2.Sole m owner (cs ++ collections clock []) := by
  have none_ : s.controllers.get? name = none → (none : Option Due) = none := fun _ => rfl
  refine sole.withController none_ fun c found => ?_
  obtain ⟨meter, processor, provider⟩ := same c
  rw [provider]
  refine (sole.put found sole.collected meter (fun mine => ?_) fun _ => rfl).quiet clock
  exact processor.trans (sole.processor name c (controllerOf?_eq_some_iff.2 ⟨found, mine⟩))

theorem ending_of_none (absent : s.controllers.get? name = none) (p : Provider) :
    s.ending m name p = none := by
  rw [ending, controllerOf?, absent]
  rfl

/-- A controller of another meter takes the place of one, which stops. -/
theorem Sole.replace (sole : s.Sole m owner cs) {meter : String} {mode : Processor.Mode}
    {schedule : Schedule} (other : meter ≠ m) :
    (s.perform clock (.controller name meter mode schedule)).2.Sole m owner
      (cs ++ collections clock (s.due m (.controller name meter mode schedule)).toList) := by
  have reach : s.provider.Reach clock (· ≠ m) (s.provider.use meter) := .single (.use _ meter)
  have used : Sole m owner cs { s with provider := s.provider.use meter } :=
    sole.reach (Client.reach_of_provider reach) rfl
  simp only [perform, due]
  cases made : Controller.make meter mode MemoryExporter.empty schedule with
  | error e => exact used.quiet clock
  | ok new =>
    have apart : new.meter ≠ m := by
      unfold Controller.make at made
      split at made <;> cases made
      exact other
    have foreign : ∀ c, (s.controllers.insert name new).get? name = some c → c.meter ≠ m := by
      intro c there
      rw [Keyed.get?_insert_self] at there
      cases there
      exact apart
    cases found : s.controllers.get? name with
    | none =>
      rw [ending_of_none found]
      exact (used.discard (fun _ at_ => Keyed.get?_insert_of_ne _ _ at_) foreign).quiet clock
    | some old =>
      have after := sole.stop found used.collected (meter_stop clock old (s.provider.use meter)) rfl
      refine after.discard (fun name' at_ => ?_) foreign
      rw [Keyed.get?_insert_of_ne _ _ at_, Keyed.get?_insert_of_ne _ _ at_]

/-- An operation that spares a meter collects it by the tick that is due, if one is. -/
theorem Sole.perform (sole : s.Sole m owner cs) {o : Operation} (spares : o.Spares m) :
    (s.perform clock o).2.Sole m owner (cs ++ collections clock (s.due m o).toList) := by
  have elsewhere : o.controller? = none → s.due m o = none →
      (s.perform clock o).2.Sole m owner (cs ++ collections clock (s.due m o).toList) := by
    intro other none_
    rw [none_]
    exact (sole.reach (reach_perform sole.collected.within o (allows_of_spares spares other))
      (controllers_perform clock s other)).quiet clock
  cases o with
  | controller name meter mode schedule => exact sole.replace spares
  | tick name =>
    refine sole.withController (fun absent => ?_) fun c found => ?_
    · rw [due, controllerOf?, absent]
      rfl
    · have fires : (s.due m (.tick name)).toList =
          if c.meter = m then [⟨c, s.provider⟩] else [] := by
        rw [due, controllerOf?, found]
        by_cases mine : c.meter = m
        · simp [mine]
        · simp [mine]
      rw [fires]
      exact sole.tick (d := ⟨c, s.provider⟩) found sole.collected ⟨rfl, rfl, rfl⟩ rfl rfl
  | stop name =>
    refine sole.withController (fun absent => ending_of_none absent _) fun c found => ?_
    exact sole.stop found sole.collected (meter_stop clock c s.provider) rfl
  | drop name =>
    refine sole.withController (fun absent => ending_of_none absent _) fun c found => ?_
    exact sole.stop found sole.collected (meter_stop clock c s.provider) rfl
  | start name =>
    refine sole.same fun c => ?_
    unfold Controller.start
    cases c.phase <;> exact ⟨rfl, rfl, rfl⟩
  | active name => exact sole.same fun c => ⟨rfl, rfl, rfl⟩
  | failing name fail => exact sole.same fun c => ⟨rfl, rfl, rfl⟩
  | clear name => exact sole.same fun c => ⟨rfl, rfl, rfl⟩
  | batches name => exact sole.same fun c => ⟨rfl, rfl, rfl⟩
  | debugController name => exact sole.same fun c => ⟨rfl, rfl, rfl⟩
  | _ => exact elsewhere rfl rfl

/-! ## Runs -/

theorem of_ending {d : Due} (ended : s.ending m name p = some d) :
    ∃ c, s.controllerOf? m name = some c ∧ c.phase = .running ∧
      d = ⟨{ c with phase := .idle }, p⟩ := by
  obtain ⟨c, active, rfl⟩ := Option.map_eq_some_iff.1 ended
  obtain ⟨mine, running⟩ := Option.filter_eq_some_iff.1 active
  exact ⟨c, mine, of_decide_eq_true running, rfl⟩

theorem Sole.of_ending (sole : s.Sole m owner cs) {d : Due} (ended : s.ending m name p = some d) :
    ∃ c, s.controllers.get? name = some c ∧ c.phase = .running ∧
      d = ⟨{ c with phase := .idle }, p⟩ ∧ c.meter = m ∧
      c.processor = (Processor.empty .stateful).after cs := by
  obtain ⟨c, mine, running, rfl⟩ := Session.of_ending ended
  obtain ⟨held, here⟩ := controllerOf?_eq_some_iff.1 mine
  exact ⟨c, held, running, rfl, here, sole.processor name c mine⟩

/-- The tick that is due is one of the controller with memory of all records, and it is all that the
operation does to the provider, except that it may name a meter before. -/
theorem Sole.of_due (sole : s.Sole m owner cs) (clock : Nat → Timestamp) {o : Operation} {d : Due}
    (fires : s.due m o = some d) :
    Client.Collected m cs ⟨d.provider, s.handles.values⟩ ∧ d.controller.meter = m ∧
      d.controller.processor = (Processor.empty .stateful).after cs ∧
      Provider.Later (fun _ => True) s.provider d.provider ∧
      (s.perform clock o).2.provider = d.after clock := by
  have still := Provider.later_refl (fun _ => True) s.provider
  cases o with
  | tick name =>
    obtain ⟨c, mine, rfl⟩ := Option.map_eq_some_iff.1 fires
    obtain ⟨held, here⟩ := controllerOf?_eq_some_iff.1 mine
    refine ⟨sole.collected, here, sole.processor name c mine, still, ?_⟩
    simp only [Session.perform, Session.withController, held]
    rfl
  | stop name =>
    obtain ⟨c, held, running, rfl, here, memory⟩ := sole.of_ending fires
    refine ⟨sole.collected, here, memory, still, ?_⟩
    simp only [Session.perform, Session.withController, held, Controller.stop, running]
    rfl
  | drop name =>
    obtain ⟨c, held, running, rfl, here, memory⟩ := sole.of_ending fires
    refine ⟨sole.collected, here, memory, still, ?_⟩
    simp only [Session.perform, Session.withController, held, Controller.drop, Controller.stop,
      running]
    rfl
  | controller name meter mode schedule =>
    rw [due] at fires
    cases made : Controller.make meter mode MemoryExporter.empty schedule with
    | error e =>
      rw [made] at fires
      cases fires
    | ok new =>
      rw [made] at fires
      obtain ⟨c, held, running, rfl, here, memory⟩ := sole.of_ending fires
      have reach : ∀ meters, s.provider.Reach clock meters (s.provider.use meter) :=
        fun _ => .single (.use _ meter)
      refine ⟨sole.collected.reach (Client.reach_of_provider (reach _)), here, memory,
        (reach _).later, ?_⟩
      simp only [Session.perform, made, held, Controller.drop, Controller.stop, running]
      rfl
  | _ => cases fires

/-- The tick is of a controller of a meter with memory of all that was collected of the meter. -/
def Ready (m : String) (d : Due) : Prop :=
  ∃ cs hs, Client.Collected m cs ⟨d.provider, hs⟩ ∧ d.controller.meter = m ∧
    d.controller.processor = (Processor.empty .stateful).after cs

/-- The ticks of a run are all that collects the meter. -/
theorem Sole.run (clock : Nat → Timestamp) (ops : List Operation) :
    ∀ {s : Session} {cs : List (List Record)}, s.Sole m owner cs → (∀ o ∈ ops, o.Spares m) →
      (s.run clock ops).2.Sole m owner (cs ++ collections clock (s.dues clock m ops)) := by
  induction ops with
  | nil => exact fun sole _ => sole.quiet clock
  | cons o rest ih =>
    intro s cs sole spares
    have next : (s.perform clock o).2.Sole m owner (cs ++ collections clock (s.due m o).toList) :=
      sole.perform (spares o List.mem_cons_self)
    have others := ih next fun o' member => spares o' (List.mem_cons_of_mem _ member)
    rw [List.append_assoc, collections, collections, ← List.map_append] at others
    exact others

theorem Sole.later (sole : s.Sole m owner cs) (clock : Nat → Timestamp) (ops : List Operation) :
    Provider.Later (fun _ => True) s.provider (s.run clock ops).2.provider :=
  sole.collected.balanced.linked.later (s.reach_run_all ops)

/-- Every tick of a run finds all that was collected in memory, and begins after the ticks before it
are over. -/
theorem Sole.ready (clock : Nat → Timestamp) (ops : List Operation) :
    ∀ {s : Session} {cs : List (List Record)}, s.Sole m owner cs → (∀ o ∈ ops, o.Spares m) →
      (∀ d ∈ s.dues clock m ops, Ready m d ∧
        Provider.Later (fun _ => True) s.provider d.provider ∧
        Provider.Later (fun _ => True) (d.after clock) (s.run clock ops).2.provider) ∧
      (s.dues clock m ops).Pairwise fun d d' =>
        Provider.Later (fun _ => True) (d.after clock) d'.provider := by
  induction ops with
  | nil => exact fun _ _ => ⟨fun _ none_ => (nomatch none_), .nil⟩
  | cons o rest ih =>
    intro s cs sole spares
    have next : (s.perform clock o).2.Sole m owner (cs ++ collections clock (s.due m o).toList) :=
      sole.perform (spares o List.mem_cons_self)
    obtain ⟨each, order⟩ := ih next fun o' member => spares o' (List.mem_cons_of_mem _ member)
    have first : Provider.Later (fun _ => True) s.provider (s.perform clock o).2.provider :=
      sole.later clock [o]
    have after := fun d member => first.trans (each d member).2.1
    rw [Session.dues]
    cases fires : s.due m o with
    | none =>
      exact ⟨fun d member => ⟨(each d member).1, after d member, (each d member).2.2⟩, order⟩
    | some d =>
      obtain ⟨collected, meter, memory, before, left⟩ := sole.of_due clock fires
      refine ⟨fun d' member => ?_, List.pairwise_cons.2 ⟨fun d' member => ?_, order⟩⟩
      · rcases List.mem_cons.1 member with rfl | later
        · exact ⟨⟨cs, _, collected, meter, memory⟩, before, left ▸ next.later clock rest⟩
        · exact ⟨(each d' later).1, after d' later, (each d' later).2.2⟩
      · exact left ▸ (each d' member).2.1

/-- Only controllers tick. -/
theorem Sole.due_eq_none (sole : s.Sole m none cs) (o : Operation) : s.due m o = none := by
  have nobody : ∀ name, s.controllerOf? m name = none := by
    intro name
    cases held : s.controllerOf? m name with
    | none => rfl
    | some c => cases sole.owner name c held
  cases o with
  | tick name => rw [due, nobody, Option.map_none]
  | stop name | drop name => rw [due, ending, nobody, Option.filter_none, Option.map_none]
  | controller name meter mode schedule =>
    rw [due]
    split
    · rw [ending, nobody, Option.filter_none, Option.map_none]
    · rfl
  | _ => rfl

/-- Before there is a controller, there are no ticks. -/
theorem Sole.dues_eq_nil (clock : Nat → Timestamp) (ops : List Operation) : ∀ {s : Session},
    s.Sole m none cs → (∀ o ∈ ops, o.Spares m) → s.dues clock m ops = [] := by
  induction ops with
  | nil => exact fun _ _ => rfl
  | cons o rest ih =>
    intro s sole spares
    have next : (s.perform clock o).2.Sole m none (cs ++ collections clock (s.due m o).toList) :=
      sole.perform (spares o List.mem_cons_self)
    rw [sole.due_eq_none, Option.toList_none, collections, List.map_nil, List.append_nil] at next
    rw [dues, sole.due_eq_none]
    exact ih next fun o' member => spares o' (List.mem_cons_of_mem _ member)

theorem Sole.foreign (sole : s.Sole m none cs) :
    ∀ name c, s.controllers.get? name = some c → c.meter ≠ m :=
  fun name c held here => nomatch sole.owner name c (controllerOf?_eq_some_iff.2 ⟨held, here⟩)

/-- A meter without controllers, of which nothing was collected, is given to a new controller. -/
theorem Sole.adopt (sole : s.Sole m none [])
    (reach : s.provider.Reach clock (· ≠ m) p) (memory : c.processor = .empty .stateful) :
    Sole m (some name) []
      { s with provider := p, controllers := s.controllers.insert name c } := by
  have owned : ∀ name' c', controllerOf?
      { s with provider := p, controllers := s.controllers.insert name c } m name' = some c' →
      name = name' ∧ c' = c := by
    intro name' c' there
    obtain ⟨held, here⟩ := controllerOf?_eq_some_iff.1 there
    by_cases same : name = name'
    · subst same
      rw [Keyed.get?_insert_self] at held
      exact ⟨rfl, (Option.some.inj held).symm⟩
    · rw [Keyed.get?_insert_of_ne _ _ same] at held
      exact absurd here (sole.foreign name' c' held)
  exact ⟨sole.collected.reach (Client.reach_of_provider reach),
    fun name' c' there => congrArg some (owned name' c' there).1,
    fun name' c' there => (owned name' c' there).2 ▸ memory⟩

/-- The controller that is made has nothing to remember yet. -/
theorem Sole.make (sole : s.Sole m none []) (clock : Nat → Timestamp) (name : String)
    (schedule : Schedule) :
    (s.perform clock (.controller name m .stateful schedule)).2.Sole m (some name) [] := by
  have reach : s.provider.Reach clock (· ≠ m) (s.provider.use m) := .single (.use _ m)
  simp only [Session.perform]
  cases made : Controller.make m .stateful MemoryExporter.empty schedule with
  | error e =>
    have nobody : ∀ name' c, s.controllerOf? m name' ≠ some c := fun name' c held =>
      Option.some_ne_none name' (sole.owner name' c held).symm
    exact ⟨sole.collected.reach (Client.reach_of_provider reach),
      fun name' c held => absurd held (nobody name' c),
      fun name' c held => absurd held (nobody name' c)⟩
  | ok c =>
    have memory : c.processor = .empty .stateful := by
      unfold Controller.make at made
      split at made <;> cases made
      rfl
    cases held : s.controllers.get? name with
    | none => exact sole.adopt reach memory
    | some old =>
      have inside := reach.within sole.collected.within
      exact sole.adopt (reach.trans (reach_drop (sole.foreign name old held) inside)) memory

theorem dues_append (clock : Nat → Timestamp) (ops more : List Operation) : ∀ s : Session,
    s.dues clock m (ops ++ more) =
      s.dues clock m ops ++ (s.run clock ops).2.dues clock m more := by
  induction ops with
  | nil => exact fun _ => rfl
  | cons o rest ih =>
    intro s
    rw [List.cons_append, dues, ih, dues, List.append_assoc]
    rfl

theorem sole_empty (m : String) : Sole m none [] empty where
  collected := Client.collected_empty m
  owner _ _ held := nomatch held
  processor _ _ held := nomatch held

/-- The ticks of a run in which a meter has one controller, which has memory. -/
theorem ready_run (clock : Nat → Timestamp) (before after : List Operation) (name : String)
    (schedule : Schedule) (spares : ∀ o ∈ before ++ after, o.Spares m) :
    let ops := before ++ .controller name m .stateful schedule :: after
    (∀ d ∈ empty.dues clock m ops, Ready m d ∧
      Provider.Later (fun _ => True) (d.after clock) (empty.run clock ops).2.provider) ∧
    (empty.dues clock m ops).Pairwise (fun d d' =>
      Provider.Later (fun _ => True) (d.after clock) d'.provider) ∧
    (empty.run clock ops).2.Sole m (some name) (collections clock (empty.dues clock m ops)) := by
  intro ops
  have early : ∀ o ∈ before, o.Spares m := fun o member => spares o (List.mem_append_left _ member)
  have late : ∀ o ∈ after, o.Spares m := fun o member => spares o (List.mem_append_right _ member)
  have quiet := (sole_empty m).dues_eq_nil clock before early
  have sole := (sole_empty m).run clock before early
  rw [quiet, collections, List.map_nil, List.append_nil] at sole
  have left := congrArg Prod.snd
    (run_append clock before (.controller name m .stateful schedule :: after) empty)
  have ticks := dues_append (m := m) clock before
    (.controller name m .stateful schedule :: after) empty
  have made := sole.make clock name schedule
  obtain ⟨each, order⟩ := made.ready clock after late
  have whole := made.run clock after late
  rw [quiet, List.nil_append, dues, sole.due_eq_none, Option.toList_none, List.nil_append] at ticks
  rw [ticks, left]
  exact ⟨fun d member => ⟨(each d member).1, (each d member).2.2⟩, order, whole⟩

section Counter

variable {d d' : Due} {k : SeriesKey} {descriptor : Descriptor}

/-- The instrument of a series is an enabled counter of integers, if there is one by the end of a
tick. -/
structure Counter (clock : Nat → Timestamp) (descriptor : Descriptor) (k : SeriesKey) (d : Due) :
    Prop where
  known : ∀ i, (d.after clock).instrument? ⟨d.controller.meter, k.name⟩ = some i →
    i.descriptor = descriptor
  enabled : descriptor.enabled = true
  integers : descriptor.numberKind = .int64
  monotonic : descriptor.kind.isMonotonic = true

/-- All that a series accepted before a tick, it accepted before it was swept. -/
theorem Ready.accepted (ready : Ready m d) (counter : Counter clock descriptor k d) :
    valuesOf k.labels (d.provider.notes ⟨m, k.name⟩) <+: d.accepted clock k ∧
      d.accepted clock k <+: valuesOf k.labels ((d.after clock).notes ⟨m, k.name⟩) := by
  obtain ⟨cs, hs, collected, rfl, -⟩ := ready
  obtain ⟨whole, earlier⟩ :=
    collected.valuesBefore clock counter.known counter.enabled k.labels
  exact ⟨earlier, whole ▸ List.prefix_append _ _⟩

/-- A counter accepts nothing below zero. -/
theorem Ready.nonneg (ready : Ready m d) (counter : Counter clock descriptor k d) :
    ∀ n ∈ (d.accepted clock k).map descriptor.number, 0 ≤ n.amount := by
  intro n member
  obtain ⟨v, held, rfl⟩ := List.mem_map.1 member
  have among := (ready.accepted counter).2.subset held
  obtain ⟨cs, hs, collected, rfl, -⟩ := ready
  have after := (collected.collect clock).balanced
  cases found : (d.after clock).instrument? ⟨d.controller.meter, k.name⟩ with
  | none =>
    have unknown : (d.after clock).notes ⟨d.controller.meter, k.name⟩ = [] := after.absent _ found
    rw [unknown] at among
    cases among
  | some i =>
    have same := counter.known i found
    subst same
    exact Instrument.nonneg_of_check counter.monotonic
      ((after.balanced _ i found counter.enabled k.labels).checked v among) counter.integers

/-- A tick reports a series of a counter that records were taken from, and with all that it accepted
before it was swept. -/
theorem Ready.exported (ready : Ready m d) (counter : Counter clock descriptor k d) :
    (recordsOf k.labels ((d.after clock).notes ⟨m, k.name⟩) = [] ∧ d.accepted clock k = [] ∧
      d.exported clock k = []) ∨
    (recordsOf k.labels ((d.after clock).notes ⟨m, k.name⟩) ≠ [] ∧
      ∃ r x, d.exported clock k = [r] ∧ r.value = .sum (.integer x) ∧ 0 ≤ x.toInt ∧
        x.toInt = Min.min Number.limit
          (Number.exactSum ((d.accepted clock k).map descriptor.number))) := by
  obtain ⟨cs, hs, collected, rfl, memory⟩ := ready
  have batch : d.batch clock = _ := (Processor.tick_cycle clock d.controller d.provider).1
  rw [memory] at batch
  rw [Due.exported, batch]
  rcases collected.reported clock counter.known counter.enabled counter.integers
    counter.monotonic k.labels with silent | ⟨some_, r, told, count, amount⟩
  · exact Or.inl silent
  · cases total : r.value.total with
    | float x =>
      have integral := count.integral
      rw [total] at integral
      cases integral
    | integer x =>
      have nonneg := count.nonneg
      rw [total] at amount nonneg
      exact Or.inr ⟨some_, r, x, told, count.eq.trans (congrArg Aggregate.sum total), nonneg,
        amount⟩

/-- What was exported at a tick is exported at every later one, with no less. -/
theorem Ready.grows (ready : Ready m d) (ready' : Ready m d')
    (counter : Counter clock descriptor k d) (counter' : Counter clock descriptor k d')
    (later : Provider.Later (fun _ => True) (d.after clock) d'.provider) :
    d.accepted clock k <+: d'.accepted clock k ∧
      ∀ r ∈ d.exported clock k, ∃ r' ∈ d'.exported clock k,
        r.value.total.amount ≤ r'.value.total.amount := by
  obtain ⟨events, noted, -⟩ := later.notes ⟨m, k.name⟩
  have grows : d.accepted clock k <+: d'.accepted clock k := by
    refine ((ready.accepted counter).2.trans ?_).trans (ready'.accepted counter').1
    rw [noted, valuesOf_append]
    exact List.prefix_append _ _
  refine ⟨grows, fun r member => ?_⟩
  rcases ready.exported counter with ⟨-, -, silent⟩ | ⟨some_, r₁, x, told, value, -, amount⟩
  · rw [silent] at member
    cases member
  rcases ready'.exported counter' with ⟨none_, -, -⟩ | ⟨-, r₂, x', told', value', -, amount'⟩
  · obtain ⟨more, noted', -⟩ := (d'.later clock).notes ⟨m, k.name⟩
    rw [noted', recordsOf_append, noted, recordsOf_append] at none_
    exact absurd (List.append_eq_nil_iff.1 (List.append_eq_nil_iff.1 none_).1).1 some_
  · have nonneg := ready'.nonneg counter'
    obtain ⟨extra, split_⟩ := grows
    rw [← split_, List.map_append] at nonneg
    have rest := Number.exactSum_nonneg fun n held => nonneg n (List.mem_append_right _ held)
    rw [← split_, List.map_append, Number.exactSum_append] at amount'
    rw [told] at member
    refine ⟨r₂, by rw [told']; exact List.mem_singleton_self _, ?_⟩
    rw [List.mem_singleton.1 member, value, value']
    change x.toInt ≤ x'.toInt
    omega

end Counter

/-- While a meter is collected by one controller with memory only, each tick reports a series of an
enabled counter of integers once, if it accepted anything before the tick swept it, and with the sum
of all that it accepted before, or with the limit. So the totals are not negative, and from one tick
to the next they stay and do not go down. The ticks are all that takes records of the series. -/
theorem totals_of_one_controller (clock : Nat → Timestamp) (before after : List Operation)
    (name m : String) (schedule : Schedule) (spares : ∀ o ∈ before ++ after, o.Spares m)
    (n l : String) (i : Instrument)
    (found : (empty.run clock (before ++ .controller name m .stateful schedule ::
      after)).2.provider.instrument? ⟨m, n⟩ = some i)
    (enabled : i.descriptor.enabled = true) (integers : i.descriptor.numberKind = .int64)
    (monotonic : i.descriptor.kind.isMonotonic = true) :
    let ops := before ++ .controller name m .stateful schedule :: after
    let ticks := empty.dues clock m ops
    (∀ d ∈ ticks,
      valuesOf l (d.provider.notes ⟨m, n⟩) <+: d.accepted clock ⟨n, l⟩ ∧
      ((d.accepted clock ⟨n, l⟩ = [] ∧ d.exported clock ⟨n, l⟩ = []) ∨
        ∃ r x, d.exported clock ⟨n, l⟩ = [r] ∧ r.value = .sum (.integer x) ∧ 0 ≤ x.toInt ∧
          x.toInt = Min.min Number.limit
            (Number.exactSum ((d.accepted clock ⟨n, l⟩).map i.descriptor.number)))) ∧
    ticks.Pairwise (fun d d' => d.accepted clock ⟨n, l⟩ <+: d'.accepted clock ⟨n, l⟩ ∧
      ∀ r ∈ d.exported clock ⟨n, l⟩, ∃ r' ∈ d'.exported clock ⟨n, l⟩,
        r.value.total.amount ≤ r'.value.total.amount) ∧
    ((collections clock ticks).flatten.filter fun r => r.key = ⟨n, l⟩) =
      recordsOf l ((empty.run clock ops).2.provider.notes ⟨m, n⟩) := by
  intro ops ticks
  obtain ⟨each, order, sole⟩ := ready_run clock before after name schedule spares
  have counter : ∀ d ∈ ticks, Counter clock i.descriptor ⟨n, l⟩ d := by
    intro d member
    refine ⟨fun j present => ?_, enabled, integers, monotonic⟩
    obtain ⟨-, -, -, here, -⟩ := (each d member).1
    rw [here] at present
    obtain ⟨i', found', descriptor, -⟩ := (each d member).2.instruments _ j present
    rw [found] at found'
    cases found'
    exact descriptor.symm
  refine ⟨fun d member => ⟨((each d member).1.accepted (counter d member)).1, ?_⟩,
    order.imp_of_mem fun {d d'} member member' later => (each d member).1.grows (each d' member').1
      (counter d member) (counter d' member') later, sole.collected.taken n l⟩
  rcases (each d member).1.exported (counter d member) with ⟨-, silent⟩ | ⟨-, reported⟩
  · exact Or.inl silent
  · exact Or.inr reported

/-- A callback that runs after the counter was swept adds to it: this counts at the next tick, where
the total reaches the limit. -/
theorem late_update_counts_next :
    let before : List Operation := [
      .create "c" "m" ⟨"hits", "", "", .counter, .int64, true⟩ none [],
      .create "z" "m" ⟨"late", "", "", .valueObserver, .int64, true⟩ none
        [[.update "c" (.integer 1) .empty]],
      .update "c" (.integer 5) .empty]
    let after : List Operation :=
      [.tick "p", .update "c" (.integer Int64.maxValue) .empty, .start "p", .stop "p"]
    ∃ d d' r r', empty.dues (fun _ => default) "m"
        (before ++ .controller "p" "m" .stateful .default :: after) = [d, d'] ∧
      d.exported (fun _ => default) ⟨"hits", ""⟩ = [r] ∧ r.value.total.amount = 5 ∧
      d'.exported (fun _ => default) ⟨"hits", ""⟩ = [r'] ∧
      r'.value.total.amount = Number.limit := by
  intro before after
  have known : ((empty.run (fun _ => default) (before ++ .controller "p" "m" .stateful .default ::
      after)).2.provider.instrument? ⟨"m", "hits"⟩).map Instrument.descriptor =
      some ⟨"hits", "", "", .counter, .int64, true⟩ := by decide +kernel
  have values : (empty.dues (fun _ => default) "m"
      (before ++ .controller "p" "m" .stateful .default :: after)).map
      (fun d => d.accepted (fun _ => default) ⟨"hits", ""⟩) =
      [[.integer 5], [.integer 5, .integer 1, .integer Int64.maxValue]] := by decide +kernel
  have spares : ∀ o ∈ before ++ after, o.Spares "m" := by
    simp [before, after, Operation.Spares, scriptTargets, callTargets, Action.targets]
  obtain ⟨i, found, descriptor⟩ := Option.map_eq_some_iff.1 known
  have each := (totals_of_one_controller (fun _ => default) before after "p" "m" .default
    spares "hits" "" i found (by rw [descriptor]) (by rw [descriptor]) (by rw [descriptor]; rfl)).1
  generalize empty.dues (fun _ => default) "m"
    (before ++ .controller "p" "m" .stateful .default :: after) = ticks at values each ⊢
  obtain ⟨d, rest, rfl, first, others⟩ := List.map_eq_cons_iff.1 values
  obtain ⟨d', rest', rfl, second, none_⟩ := List.map_eq_cons_iff.1 others
  rw [List.map_eq_nil_iff.1 none_] at each ⊢
  have five := (each d List.mem_cons_self).2
  have limit := (each d' (List.mem_cons_of_mem _ List.mem_cons_self)).2
  rw [first, descriptor] at five
  rw [second, descriptor] at limit
  rcases five with ⟨none_, -⟩ | ⟨r, x, told, value, -, amount⟩
  · cases none_
  rcases limit with ⟨none_, -⟩ | ⟨r', x', told', value', -, amount'⟩
  · cases none_
  refine ⟨d, d', r, r', rfl, told, ?_, told', ?_⟩
  · rw [value]
    exact amount.trans (by decide +kernel)
  · rw [value']
    exact amount'.trans (by decide +kernel)

end Session

end Metering
