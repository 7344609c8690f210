import Metering.Proofs.Lasting
import Metering.Proofs.Provider.Calls
import Metering.Proofs.Provider.Depth
import Metering.Proofs.Session

/-!
# What a collection reports

A collection comes to the enabled instruments of its meter one after the other. `Provider.moments`
lists the provider as it is at each of them, right after the callback of that instrument and before
its records are taken. The records of a collection are what is live at these moments: one for each
series that is then registered, all with one time and in the order of their keys. Whatever callbacks
do, the instruments are those that were registered when the collection began, and each observer among
them is called once.
-/

namespace Metering

namespace Provider

variable {clock : Nat → Timestamp} {nested : Collection} {meter name : String} {reading : Nat}
  {p q : Provider} {id : InstrumentId} {i : Instrument} {names : List String}

/-! ## Moments -/

/-- Whether there is an enabled instrument at a place. -/
def isEnabled (p : Provider) (id : InstrumentId) : Bool :=
  (p.instrument? id).any (·.descriptor.enabled)

/-- Whether there is an observer at a place. -/
def isObserver (p : Provider) (id : InstrumentId) : Bool :=
  (p.instrument? id).any fun i => !i.descriptor.kind.isSynchronous

/-- The enabled instruments of a meter in the order of their names. -/
def enabled (p : Provider) (meter : String) : List InstrumentId :=
  ((p.meter meter).names.map (InstrumentId.mk meter)).filter p.isEnabled

/-- What is live in the series at a place, a record for each in the order of their labels. -/
def snapshot (p : Provider) (time : Timestamp) (id : InstrumentId) : List Record :=
  ((p.instrument? id).map fun i => i.series.values.map (i.recordOf time)).getD []

/-- The enabled instruments among some of a meter, each with the provider as the collection that
takes a clock reading finds it right after their own callback. -/
def moments (clock : Nat → Timestamp) (nested : Collection) (reading : Nat) (meter : String)
    (p : Provider) : List String → List (InstrumentId × Provider)
  | [] => []
  | name :: rest =>
    if p.isEnabled ⟨meter, name⟩ then
      let called := p.runCallback nested reading ⟨meter, name⟩
      (⟨meter, name⟩, called) ::
        moments clock nested reading meter (called.sweep clock reading ⟨meter, name⟩).2 rest
    else moments clock nested reading meter p rest

/-- The provider when a collection has looked up its meter and read the clock. -/
def begun (p : Provider) (meter : String) : Provider :=
  { p.use meter with readings := p.readings + 1 }

/-- The moments of a collection of a meter. -/
def momentsOf (clock : Nat → Timestamp) (meter : String) (p : Provider) :
    List (InstrumentId × Provider) :=
  moments clock (collect clock) p.readings meter (p.begun meter) (p.meter meter).names

theorem instrument?_begun (p : Provider) (meter : String) :
    (p.begun meter).instrument? = p.instrument? := p.instrument?_use meter

theorem reach_begun (clock : Nat → Timestamp) (p : Provider) (meter : String) :
    Reach clock (fun _ => True) p (p.begun meter) :=
  (Relation.ReflTransGen.single (.use p meter)).tail (.read _)

theorem collect_eq_collectEach (clock : Nat → Timestamp) (meter : String) (p : Provider) :
    p.collect clock meter = (p.begun meter).collectEach clock (collect clock) p.readings meter
      (p.meter meter).names := by
  rw [collect_eq, ← meter_use p meter meter]
  rfl

theorem sound_collect (clock : Nat → Timestamp) : Sound clock (fun _ => True) (collect clock) :=
  fun _ _ allowed inside => reach_collect clock allowed inside

theorem collectInstrument_of_enabled (on : p.isEnabled id = true) :
    p.collectInstrument clock nested reading id =
      (p.runCallback nested reading id).sweep clock reading id :=
  if_pos on

theorem collectInstrument_of_disabled (off : ¬ p.isEnabled id = true) :
    p.collectInstrument clock nested reading id = ([], p) :=
  if_neg off

theorem moments_of_enabled (on : p.isEnabled ⟨meter, name⟩ = true) :
    moments clock nested reading meter p (name :: names) =
      (⟨meter, name⟩, p.runCallback nested reading ⟨meter, name⟩) ::
        moments clock nested reading meter
          (p.collectInstrument clock nested reading ⟨meter, name⟩).2 names := by
  rw [collectInstrument_of_enabled on]
  exact if_pos on

theorem moments_of_disabled (off : ¬ p.isEnabled ⟨meter, name⟩ = true) :
    moments clock nested reading meter p (name :: names) =
      moments clock nested reading meter p names :=
  if_neg off

theorem sweep_eq_snapshot (clock : Nat → Timestamp) (reading : Nat) (id : InstrumentId)
    (p : Provider) : (p.sweep clock reading id).1 = p.snapshot (clock reading) id := by
  unfold sweep snapshot
  cases p.instrument? id <;> rfl

/-- A collection returns what is live at its moments. -/
theorem records_collectEach (clock : Nat → Timestamp) (nested : Collection) (reading : Nat)
    (meter : String) (names : List String) : ∀ p : Provider,
      (p.collectEach clock nested reading meter names).1 =
        (moments clock nested reading meter p names).flatMap fun m =>
          m.2.snapshot (clock reading) m.1 := by
  induction names with
  | nil => exact fun _ => rfl
  | cons name rest ih =>
    intro p
    rw [collectEach]
    by_cases on : p.isEnabled ⟨meter, name⟩ = true
    · have taken : (p.collectInstrument clock nested reading ⟨meter, name⟩).1 =
          (p.runCallback nested reading ⟨meter, name⟩).snapshot (clock reading) ⟨meter, name⟩ := by
        rw [collectInstrument_of_enabled on, sweep_eq_snapshot]
      rw [moments_of_enabled on, List.flatMap_cons, ← ih, ← taken]
    · rw [moments_of_disabled on, collectInstrument_of_disabled on, ← ih]
      rfl

/-- What a collection does lies between its moments. -/
theorem reach_moments (sound : Sound clock (fun _ => True) nested) (reading : Nat) (meter : String)
    (names : List String) : ∀ {p : Provider}, ∀ m ∈ moments clock nested reading meter p names,
      Reach clock (fun _ => True) p m.2 := by
  induction names with
  | nil => exact fun _ none_ => nomatch none_
  | cons name rest ih =>
    intro p m member
    by_cases on : p.isEnabled ⟨meter, name⟩ = true
    · rw [moments_of_enabled on] at member
      rcases List.mem_cons.1 member with rfl | later
      · exact reach_runCallback sound p.within_all reading ⟨meter, name⟩
      · exact (reach_collectInstrument sound p.within_all reading ⟨meter, name⟩ trivial).trans
          (ih m later)
    · rw [moments_of_disabled on] at member
      exact ih m member

/-- An instrument stays enabled or disabled, and an observer or none. -/
theorem same_of_reach (reach : Reach clock (fun _ => True) p q)
    (registered : (p.instrument? id).isSome = true) :
    (q.instrument? id).isSome = true ∧ q.isEnabled id = p.isEnabled id ∧
      q.isObserver id = p.isObserver id := by
  obtain ⟨i, found⟩ := Option.isSome_iff_exists.1 registered
  obtain ⟨j, present, descriptor, -⟩ := reach.descriptor found
  refine ⟨by rw [present]; rfl, ?_, ?_⟩
  · rw [isEnabled, isEnabled, found, present, Option.any_some, Option.any_some, descriptor]
  · rw [isObserver, isObserver, found, present, Option.any_some, Option.any_some, descriptor]

theorem isSome_of_mem_names (member : name ∈ (p.meter meter).names) :
    (p.instrument? ⟨meter, name⟩).isSome = true := by
  obtain ⟨e, entry, rfl⟩ := List.mem_map.1 member
  rw [instrument?, Meter.get?, (Keyed.mem_entries_iff _ e.1 e.2).1 entry]
  rfl

/-- Whatever happens to registered instruments, the same ones are enabled, and the same ones of these
are observers. -/
theorem filter_of_reach (reach : Reach clock (fun _ => True) p q)
    (registered : ∀ name ∈ names, (p.instrument? ⟨meter, name⟩).isSome = true) :
    (∀ name ∈ names, (q.instrument? ⟨meter, name⟩).isSome = true) ∧
      (names.map (InstrumentId.mk meter)).filter q.isEnabled =
        (names.map (InstrumentId.mk meter)).filter p.isEnabled ∧
      ((names.map (InstrumentId.mk meter)).filter fun id => q.isEnabled id && q.isObserver id) =
        (names.map (InstrumentId.mk meter)).filter fun id => p.isEnabled id && p.isObserver id := by
  have same : ∀ id ∈ names.map (InstrumentId.mk meter), (q.instrument? id).isSome = true ∧
      q.isEnabled id = p.isEnabled id ∧ q.isObserver id = p.isObserver id := by
    intro id member
    obtain ⟨name, among, rfl⟩ := List.mem_map.1 member
    exact same_of_reach reach (registered name among)
  refine ⟨fun name among => (same _ (List.mem_map_of_mem among)).1,
    List.filter_congr fun id member => (same id member).2.1,
    List.filter_congr fun id member => ?_⟩
  rw [(same id member).2.1, (same id member).2.2]

/-- The moments of a collection are at the instruments that were registered and enabled when it
began. -/
theorem ids_moments (sound : Sound clock (fun _ => True) nested) (reading : Nat) (meter : String)
    (names : List String) : ∀ {p : Provider},
      (∀ name ∈ names, (p.instrument? ⟨meter, name⟩).isSome = true) →
        (moments clock nested reading meter p names).map Prod.fst =
          (names.map (InstrumentId.mk meter)).filter p.isEnabled := by
  induction names with
  | nil => exact fun _ => rfl
  | cons name rest ih =>
    intro p registered
    have others : ∀ name ∈ rest, (p.instrument? ⟨meter, name⟩).isSome = true :=
      fun name member => registered name (List.mem_cons_of_mem _ member)
    rw [List.map_cons]
    by_cases on : p.isEnabled ⟨meter, name⟩ = true
    · have swept := reach_collectInstrument sound p.within_all reading ⟨meter, name⟩ trivial
      obtain ⟨still, same, -⟩ := filter_of_reach swept others
      rw [moments_of_enabled on, List.filter_cons_of_pos on, List.map_cons, ih still, same]
    · rw [moments_of_disabled on, List.filter_cons_of_neg on, ih others]

/-! ## Observers -/

/-- The instruments with a callback are the observers. -/
def Observing (p : Provider) : Prop :=
  ∀ id i, p.instrument? id = some i → i.callback.isSome = !i.descriptor.kind.isSynchronous

theorem Observing.puts (observing : p.Observing) (puts : Puts p q id i)
    (own : i.callback.isSome = !i.descriptor.kind.isSynchronous) : q.Observing := by
  intro id' j found
  by_cases at_ : id' = id
  · subst at_
    rw [puts.self] at found
    cases found
    exact own
  · rw [puts.other at_] at found
    exact observing id' j found

/-- An instrument that is changed stays what it is. -/
theorem Observing.modify (observing : p.Observing) (id : InstrumentId) {f : Instrument → Instrument}
    (descriptor : ∀ i, (f i).descriptor = i.descriptor)
    (callback : ∀ i, (f i).callback.isSome = i.callback.isSome) : (p.modify id f).Observing := by
  intro id' j found
  rw [instrument?_modify] at found
  split at found
  · obtain ⟨i, present, rfl⟩ := Option.map_eq_some_iff.1 found
    rw [descriptor, callback]
    exact observing id' i present
  · exact observing id' j found

theorem Observing.step (observing : p.Observing) (step : Step clock (fun _ => True) p q) :
    q.Observing := by
  cases step with
  | use name => exact fun id i found => observing id i (p.instrument?_use name ▸ found)
  | create tag meter d choice script _ =>
    rcases p.create_spec tag meter d choice script with ⟨e, -, unchanged⟩ | ⟨-, -, -, puts, -⟩
    · rw [unchanged]
      exact fun id i found => observing id i (p.instrument?_use meter ▸ found)
    · refine observing.puts puts ?_
      change (if d.kind.isSynchronous then none else _ : Option Callback).isSome =
        !d.kind.isSynchronous
      cases d.kind.isSynchronous <;> rfl
  | record u =>
    rcases p.record_spec u with ⟨e, refused⟩ | ⟨i, found, -, -, puts, -⟩
    · rw [refused]
      exact observing
    · refine observing.puts puts ?_
      rw [Instrument.callback_recordChecked, Instrument.descriptor_recordChecked]
      exact observing _ i found
  | @advance id i c found called =>
    refine observing.puts (puts_modify found _) ?_
    have before := observing id i found
    rw [called] at before
    exact before
  | journal run => exact observing
  | read => exact observing
  | @sweep id i reading found _ _ =>
    exact observing.puts (sweep_of_some clock reading found).2.1 (observing id i found)

theorem Observing.reach (observing : p.Observing) (reach : Reach clock (fun _ => True) p q) :
    q.Observing := by
  induction reach with
  | refl => exact observing
  | tail _ step ih => exact ih.step step

theorem Observing.isSome_callback (observing : p.Observing) (id : InstrumentId) :
    ((p.instrument? id).any fun i => i.descriptor.enabled && i.callback.isSome) =
      (p.isEnabled id && p.isObserver id) := by
  rw [isEnabled, isObserver]
  cases found : p.instrument? id with
  | none => rfl
  | some i =>
    rw [Option.any_some, Option.any_some, Option.any_some, observing id i found]

/-- A collection calls the observers among the enabled instruments, in their order. -/
theorem calls_observers (sound : Sound clock (fun _ => True) nested) (paced : Paced nested)
    (meter : String) (names : List String) :
    ∀ {p : Provider}, p.Observing → reading < p.readings →
      (∀ name ∈ names, (p.instrument? ⟨meter, name⟩).isSome = true) →
        Calls reading p
          ((names.map (InstrumentId.mk meter)).filter fun id => p.isEnabled id && p.isObserver id)
          (p.collectEach clock nested reading meter names).2 := by
  induction names with
  | nil => exact fun _ _ _ => calls_of_same rfl rfl
  | cons name rest ih =>
    intro p observing earlier registered
    have swept := reach_collectInstrument sound p.within_all reading ⟨meter, name⟩ trivial
    obtain ⟨still, -, same⟩ := filter_of_reach swept fun name member =>
      registered name (List.mem_cons_of_mem _ member)
    have first := calls_collectInstrument clock paced earlier ⟨meter, name⟩
    have others := ih (observing.reach swept) (Nat.lt_of_lt_of_le earlier first.1) still
    rw [observing.isSome_callback] at first
    rw [same] at others
    have both := first.trans others
    rw [List.map_cons, List.filter_cons]
    split at both
    · rename_i called
      rw [if_pos called]
      exact both
    · rename_i silent
      rw [if_neg silent]
      exact both

/-- At the moment of an observer, the last run that has ended is its own. -/
theorem called_moments (sound : Sound clock (fun _ => True) nested) (paced : Paced nested)
    (meter : String) (names : List String) :
    ∀ {p : Provider}, p.Observing → reading < p.readings →
      ∀ m ∈ moments clock nested reading meter p names, m.2.isObserver m.1 = true →
        ∃ run, m.2.journal.getLast? = some run ∧ run.instrument = m.1 ∧ run.reading = reading := by
  induction names with
  | nil => exact fun _ _ _ none_ => nomatch none_
  | cons name rest ih =>
    intro p observing earlier m member observer
    by_cases on : p.isEnabled ⟨meter, name⟩ = true
    · rw [moments_of_enabled on] at member
      rcases List.mem_cons.1 member with rfl | later
      · obtain ⟨i, found, -⟩ := (Option.any_eq_true _ _).1 on
        have called := reach_runCallback sound p.within_all reading ⟨meter, name⟩
        have same := (same_of_reach called (by rw [found]; rfl)).2.2
        rw [same, isObserver, found, Option.any_some, ← observing _ i found] at observer
        exact (calls_runCallback paced earlier found observer).2
      · have swept := reach_collectInstrument sound p.within_all reading ⟨meter, name⟩ trivial
        have first := calls_collectInstrument clock paced earlier ⟨meter, name⟩
        exact ih (observing.reach swept) (Nat.lt_of_lt_of_le earlier first.1) m later observer
    · rw [moments_of_disabled on] at member
      exact ih observing earlier m member observer

/-! ## The moments of one collection -/

theorem isEnabled_begun (p : Provider) (meter : String) : (p.begun meter).isEnabled = p.isEnabled := by
  funext id
  rw [isEnabled, isEnabled, instrument?_begun]

theorem isObserver_begun (p : Provider) (meter : String) :
    (p.begun meter).isObserver = p.isObserver := by
  funext id
  rw [isObserver, isObserver, instrument?_begun]

theorem registered_begun (p : Provider) (meter : String) :
    ∀ name ∈ (p.meter meter).names, ((p.begun meter).instrument? ⟨meter, name⟩).isSome = true := by
  intro name member
  rw [instrument?_begun]
  exact isSome_of_mem_names member

/-- A collection returns what is live at its moments. -/
theorem records_collect (clock : Nat → Timestamp) (meter : String) (p : Provider) :
    (p.collect clock meter).1 =
      (p.momentsOf clock meter).flatMap fun m => m.2.snapshot (clock p.readings) m.1 := by
  rw [collect_eq_collectEach]
  exact records_collectEach clock (collect clock) p.readings meter _ (p.begun meter)

/-- There is a moment for each enabled instrument that is registered when the collection begins. -/
theorem ids_momentsOf (clock : Nat → Timestamp) (meter : String) (p : Provider) :
    (p.momentsOf clock meter).map Prod.fst = p.enabled meter := by
  rw [enabled, ← isEnabled_begun p meter]
  exact ids_moments (sound_collect clock) p.readings meter _ (registered_begun p meter)

theorem reach_momentsOf (clock : Nat → Timestamp) (meter : String) (p : Provider) :
    ∀ m ∈ p.momentsOf clock meter, Reach clock (fun _ => True) p m.2 := fun m member =>
  (reach_begun clock p meter).trans (reach_moments (sound_collect clock) p.readings meter _ m member)

theorem ascending_enabled (p : Provider) (meter : String) :
    (p.enabled meter).Pairwise fun a b => compare a.name b.name = .lt := by
  refine List.Pairwise.filter _ ?_
  rw [Meter.names, Keyed.keys, List.map_map, List.pairwise_map]
  exact (p.meter meter).instruments.ascending

/-- A collection calls the enabled observers that are registered when it begins, once each, and any
callbacks that are called for collections nested in it are called at later readings. -/
theorem calls_collect (clock : Nat → Timestamp) (meter : String) (observing : p.Observing) :
    ∃ runs, (p.collect clock meter).2.journal = p.journal ++ runs ∧
      (∀ run ∈ runs, p.readings ≤ run.reading) ∧
      (runs.filter fun run => run.reading = p.readings).map CallbackRun.instrument =
        (p.enabled meter).filter p.isObserver := by
  have begun := observing.reach (reach_begun clock p meter)
  obtain ⟨-, runs, noted, called, readings⟩ := calls_observers (sound_collect clock)
    (paced_collect clock) meter (p.meter meter).names begun (Nat.lt_succ_self p.readings)
    (registered_begun p meter)
  refine ⟨runs, by rw [collect_eq_collectEach]; exact noted, readings, called.trans ?_⟩
  rw [enabled, List.filter_filter, isEnabled_begun, isObserver_begun]
  exact List.filter_congr fun id _ => Bool.and_comm _ _

end Provider

/-! ## The order of records -/

theorem SeriesKey.compare_eq_lt {a b : SeriesKey} :
    compare a b = .lt ↔
      compare a.name b.name = .lt ∨ a.name = b.name ∧ compare a.labels b.labels = .lt := by
  change (compare a.name b.name).then (compare a.labels b.labels) = .lt ↔ _
  rw [Ordering.then_eq_lt, Std.LawfulEqOrd.compare_eq_iff_eq]

namespace Client

variable {clock : Nat → Timestamp} {c : Client} {id : InstrumentId}

/-- What is live in the series of an instrument is listed in the order of their keys. -/
theorem ascending_snapshot (linked : c.Linked) (regular : c.Regular) (time : Timestamp)
    (id : InstrumentId) :
    (∀ r ∈ c.provider.snapshot time id, r.name = id.name ∧ r.timestamp = time) ∧
      (c.provider.snapshot time id).Pairwise fun a b => compare a.key b.key = .lt := by
  rw [Provider.snapshot]
  cases found : c.provider.instrument? id with
  | none => exact ⟨fun _ none_ => (nomatch none_), .nil⟩
  | some i =>
    rw [Option.map_some, Option.getD_some]
    refine ⟨fun r member => ?_, ?_⟩
    · obtain ⟨s, -, rfl⟩ := List.mem_map.1 member
      exact ⟨regular.names id i found, rfl⟩
    · rw [Keyed.values, List.map_map, List.pairwise_map]
      refine i.series.ascending.imp_of_mem fun {e e'} first second less => ?_
      have labels : ∀ e ∈ i.series.entries, e.2.labels.canonical = e.1 := fun e entry =>
        (linked.linked id i found).labels e.1 e.2 ((Keyed.mem_entries_iff ..).1 entry)
      refine SeriesKey.compare_eq_lt.2 (.inr ⟨rfl, ?_⟩)
      change compare e.2.labels.canonical e'.2.labels.canonical = .lt
      rw [labels e first, labels e' second]
      exact less

/-- What is live at the moments of a collection is listed in the order of the keys. -/
theorem ascending_moments (linked : c.Linked) (regular : c.Regular) (clock : Nat → Timestamp)
    (meter : String) (time : Timestamp) :
    let records := (c.provider.momentsOf clock meter).flatMap fun m => m.2.snapshot time m.1
    (∀ r ∈ records, r.timestamp = time) ∧
      records.Pairwise fun a b => compare a.key b.key = .lt := by
  intro records
  have at_ : ∀ m ∈ c.provider.momentsOf clock meter,
      (∀ r ∈ m.2.snapshot time m.1, r.name = m.1.name ∧ r.timestamp = time) ∧
      (m.2.snapshot time m.1).Pairwise fun a b => compare a.key b.key = .lt := by
    intro m member
    have later : Client.Reach clock (fun _ => True) True c ⟨m.2, c.handles⟩ :=
      Client.reach_of_provider (Provider.reach_momentsOf clock meter c.provider m member)
    exact ascending_snapshot (linked.reach later) (regular.reach linked later) time m.1
  have names := c.provider.ascending_enabled meter
  rw [← Provider.ids_momentsOf clock, List.pairwise_map] at names
  refine ⟨fun r member => ?_,
    List.pairwise_flatMap.2 ⟨fun m member => (at_ m member).2, ?_⟩⟩
  · obtain ⟨m, among, inside⟩ := List.mem_flatMap.1 member
    exact ((at_ m among).1 r inside).2
  · -- Records of two moments differ in the names of their instruments.
    refine names.imp_of_mem fun {m m'} first second less r member r' member' => ?_
    refine SeriesKey.compare_eq_lt.2 (.inl ?_)
    change compare r.name r'.name = .lt
    rw [((at_ m first).1 r member).1, ((at_ m' second).1 r' member').1]
    exact less

theorem observing_empty : Provider.Observing .empty := fun _ _ found => nomatch found

theorem observing_step {c' : Client} (observing : c.provider.Observing)
    (step : Step clock (fun _ => True) True c c') : c'.provider.Observing := by
  cases step with
  | provider step => exact observing.step step
  | tag tag id => exact observing
  | bind labels found =>
    rw [Provider.bind_of_some found]
    exact observing.modify _ (fun _ => rfl) fun _ => rfl
  | clone held => exact observing.modify _ (fun _ => rfl) fun _ => rfl
  | release h => exact observing.modify _ (fun _ => rfl) fun _ => rfl
  | @update p hs h value held =>
    rcases p.recordHeld_spec h value with ⟨e, refused⟩ | ⟨i, found, -, -, puts, -⟩
    · rw [refused]
      exact observing
    · refine observing.puts puts ?_
      have before := observing _ i found
      split <;> exact before
  | raw _ _ _ _ => exact observing.modify _ (fun _ => rfl) fun _ => rfl
  | order _ => exact observing

theorem observing_reach {c' : Client} (observing : c.provider.Observing)
    (reach : Reach clock (fun _ => True) True c c') : c'.provider.Observing := by
  induction reach with
  | refl => exact observing
  | tail _ step ih => exact observing_step ih step

end Client

/-! ## Collections -/

/-- Whatever a session did, and at every moment of what it does next, a collection reports each
series once. The records strictly ascend by the name of the instrument and the labels, and have one
time. They are what is live, right after the callback of their instrument, in the series that are
then registered, for the instruments that were registered and enabled when the collection began. Each
observer among these is called exactly once for the collection, in the order of their names; runs of
callbacks for nested collections have later readings. -/
theorem Session.collection_reports_once (clock : Nat → Timestamp) (ops : List Operation) (c : Client)
    (reach : Client.Reach clock (fun _ => True) True (Session.empty.run clock ops).2.client c)
    (meter : String) :
    let p := c.provider
    let records := (p.collect clock meter).1
    let moments := p.momentsOf clock meter
    (records.Pairwise fun a b => compare a.key b.key = .lt) ∧
    (∀ r ∈ records, r.timestamp = clock p.readings) ∧
    records = (moments.flatMap fun m => m.2.snapshot (clock p.readings) m.1) ∧
    moments.map Prod.fst = p.enabled meter ∧
    (∀ m ∈ moments, m.2.isObserver m.1 = true → ∃ run, m.2.journal.getLast? = some run ∧
      run.instrument = m.1 ∧ run.reading = p.readings) ∧
    ((p.enabled meter).Pairwise fun a b => compare a.name b.name = .lt) ∧
    ∃ runs, (p.collect clock meter).2.journal = p.journal ++ runs ∧
      (∀ run ∈ runs, p.readings ≤ run.reading) ∧
      (runs.filter fun run => run.reading = p.readings).map CallbackRun.instrument =
        (p.enabled meter).filter p.isObserver := by
  intro p records moments
  have fromStart : Client.Reach clock (fun _ => True) True ⟨.empty, []⟩ c :=
    (Session.empty.reach_run_all ops).trans reach
  have linked : c.Linked := Client.linked_empty.reach fromStart
  have regular : c.Regular := Client.regular_empty.reach Client.linked_empty fromStart
  have observing : p.Observing := Client.observing_reach Client.observing_empty fromStart
  have taken : records = moments.flatMap fun m => m.2.snapshot (clock p.readings) m.1 :=
    Provider.records_collect clock meter p
  have ascending := Client.ascending_moments linked regular clock meter (clock p.readings)
  have called := Provider.called_moments (Provider.sound_collect clock) (Provider.paced_collect clock)
    meter (p.meter meter).names (observing.reach (Provider.reach_begun clock p meter))
    (Nat.lt_succ_self p.readings)
  exact ⟨taken ▸ ascending.2, taken ▸ ascending.1, taken, Provider.ids_momentsOf clock meter p, called,
    p.ascending_enabled meter, Provider.calls_collect clock meter observing⟩

/-- An observer that collects its meter, observes, adds to a counter and creates another one is
called once, and the new counter is left out. -/
theorem Session.nested_collection_reports_once :
    let ops : List Operation :=
      [.create "b" "m" ⟨"hits", "", "", .counter, .int64, true⟩ none [],
        .create "a" "m" ⟨"depth", "", "", .sumObserver, .int64, true⟩ none
          [[.collect "m", .observe (.integer 7) .empty, .update "b" (.integer 2) .empty,
            .create "z" "m" ⟨"late", "", "", .counter, .int64, true⟩ none [],
            .update "z" (.integer 1) .empty]]]
    let c := (Session.empty.run (fun _ => default) ops).2.client
    Client.Reach (fun _ => default) (fun _ => True) True
        (Session.empty.run (fun _ => default) ops).2.client c ∧
      (c.provider.collect (fun _ => default) "m").1.map (fun r => (r.key, r.value)) =
        [(⟨"depth", ""⟩, .sum (.integer 7)), (⟨"hits", ""⟩, .sum (.integer 2))] ∧
      c.provider.enabled "m" = [⟨"m", "depth"⟩, ⟨"m", "hits"⟩] ∧
      ∃ runs, (c.provider.collect (fun _ => default) "m").2.journal = c.provider.journal ++ runs ∧
        (runs.filter fun run => run.reading = c.provider.readings).map CallbackRun.instrument =
          [⟨"m", "depth"⟩] := by
  intro ops c
  obtain ⟨-, -, -, -, -, -, runs, noted, -, called⟩ :=
    Session.collection_reports_once (fun _ => default) ops c .refl "m"
  have enabled : c.provider.enabled "m" = [⟨"m", "depth"⟩, ⟨"m", "hits"⟩] := by decide +kernel
  have observers : [⟨"m", "depth"⟩, ⟨"m", "hits"⟩].filter c.provider.isObserver =
      [(⟨"m", "depth"⟩ : InstrumentId)] := by decide +kernel
  rw [enabled, observers] at called
  exact ⟨.refl, by decide +kernel, enabled, runs, noted, called⟩

end Metering
