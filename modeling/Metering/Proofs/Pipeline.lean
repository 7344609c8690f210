import Metering.Proofs.Configuration
import Metering.Proofs.Processor.Configured
import Metering.Proofs.Totals

/-!
# The pipeline from a meter to an exporter

A controller hands what it collects of its meter to its processor. `Controller.Suits` says that the
entries of the processor are of instruments of the meter and configured as these are. Every
operation of a session keeps it, ticks of this and of other controllers included
(`Session.Orderly.perform`), and while it holds no record is refused and no cycle fails to merge into
a total (`Controller.Suits.tick_complete`).
-/

namespace Metering

namespace Controller

variable {ε : Type} {clock : Nat → Timestamp} {c c' : Controller ε} {p q : Provider}
  {hs : List Handle}

/-- The entries of the processor are of instruments of the controller's meter, and configured as
these are. -/
structure Suits (c : Controller ε) (p : Provider) : Prop where
  labelled : c.processor.Labelled
  configured : c.processor.Configured (p.aggregation? c.meter)

theorem suits_make {meter : String} {mode : Processor.Mode} {exporter : ε} {schedule : Schedule}
    (made : make meter mode exporter schedule = .ok c) (p : Provider) : c.Suits p := by
  unfold make at made
  split at made <;> cases made
  exact ⟨Processor.labelled_empty mode, Processor.configured_empty _ mode⟩

/-- The phase and the exporter of a controller make no difference. -/
theorem Suits.congr (suits : c.Suits p) (meter : c'.meter = c.meter)
    (processor : c'.processor = c.processor) : c'.Suits p where
  labelled := processor ▸ suits.labelled
  configured := by
    rw [processor, meter]
    exact suits.configured

theorem Suits.later {meters : String → Prop} (suits : c.Suits p)
    (later : Provider.Later meters p q) : c.Suits q where
  labelled := suits.labelled
  configured := suits.configured.mono fun _ _ known => later.aggregation? known

/-- Collecting the meter leaves its controller suitable. -/
theorem Suits.collect (suits : c.Suits p) (clock : Nat → Timestamp) :
    c.Suits (p.collect clock c.meter).2 := by
  have reach : p.Reach clock (fun _ => True) (p.collect clock c.meter).2 :=
    Provider.reach_collect clock trivial p.within_all
  exact suits.later reach.later

section Tick

variable [Exporter ε]

/-- A tick refuses no record, drops no cycle, and reports of every series a value that takes in all
records of it that were collected. -/
theorem Suits.tick_complete (suits : c.Suits p) (configured : Client.Configured ⟨p, hs⟩)
    (clock : Nat → Timestamp) :
    let tick := (c.tick clock p).1
    tick.rejected = [] ∧ tick.misfits = [] ∧
      ∀ k first rest, tick.collected.filter (fun r => r.key = k) = first :: rest →
        ∃ report ∈ tick.batch, report.key = k ∧
          (c.processor.entry first).TakesIn (first :: rest) report.value := by
  intro tick
  have fits := (configured.collect clock c.meter).fits c.meter
  have entries := (suits.collect clock).configured
  have known := fun r (member : r ∈ tick.collected) => configured.collected clock member
  obtain ⟨accepted, processed⟩ := entries.processAll fits known
  exact ⟨accepted, processed.misfits fits,
    fun k first rest own => entries.reports fits known suits.labelled own⟩

/-- A tick keeps a controller suitable. -/
theorem Suits.tick (suits : c.Suits p) (configured : Client.Configured ⟨p, hs⟩)
    (clock : Nat → Timestamp) : (c.tick clock p).2.1.Suits (c.tick clock p).2.2 where
  labelled := Processor.labelled_cycle suits.labelled _
  configured := (suits.collect clock).configured.cycle ((configured.collect clock c.meter).fits c.meter)
    fun _ member => configured.collected clock member

theorem Suits.stop (suits : c.Suits p) (configured : Client.Configured ⟨p, hs⟩)
    (clock : Nat → Timestamp) : (c.stop clock p).2.1.Suits (c.stop clock p).2.2 := by
  unfold Controller.stop
  cases c.phase with
  | running =>
    have idle : { c with phase := .idle }.Suits p := suits.congr rfl rfl
    exact idle.tick configured clock
  | idle => exact suits
  | dropped => exact suits

theorem Suits.drop (suits : c.Suits p) (configured : Client.Configured ⟨p, hs⟩)
    (clock : Nat → Timestamp) : (c.drop clock p).1.Suits (c.drop clock p).2 :=
  (suits.stop configured clock).congr rfl rfl

end Tick

end Controller

/-- The controller that is to tick suits its provider, where everything is configured as its
instrument is. -/
structure Due.Orderly (d : Due) : Prop where
  suits : d.controller.Suits d.provider
  configured : ∃ hs, Client.Configured ⟨d.provider, hs⟩

namespace Session

variable {clock : Nat → Timestamp} {s : Session} {name : String} {p : Provider}
  {c : Controller MemoryExporter}

/-- Everything is configured as its instrument is: what was collected, and what controllers keep. -/
structure Orderly (s : Session) : Prop where
  configured : s.client.Configured
  suits : ∀ name c, s.controllers.get? name = some c → c.Suits s.provider

theorem orderly_empty : empty.Orderly where
  configured := Client.configured_empty
  suits _ _ found := nomatch found

/-- Collections leave everything orderly. -/
theorem Orderly.reach (orderly : s.Orderly) (reach : s.provider.Reach clock (fun _ => True) p) :
    Orderly { s with provider := p } where
  configured := by
    have whole : Client.Reach clock (fun _ => True) True s.client ⟨p, s.handles.values⟩ :=
      Client.reach_of_provider reach
    exact orderly.configured.reach whole
  suits name c found := (orderly.suits name c found).later reach.later

/-- A controller that suits the provider may be put under any name. -/
theorem Orderly.insert (orderly : s.Orderly) (suits : c.Suits s.provider) (name : String) :
    Orderly { s with controllers := s.controllers.insert name c } where
  configured := orderly.configured
  suits name' c' found := by
    by_cases at_ : name = name'
    · subst at_
      rw [Keyed.get?_insert_self] at found
      cases found
      exact suits
    · rw [Keyed.get?_insert_of_ne _ _ at_] at found
      exact orderly.suits name' c' found

/-- What is done with a controller leaves everything orderly if the controller still suits. -/
theorem Orderly.withController (orderly : s.Orderly) (clock : Nat → Timestamp)
    {f : Controller MemoryExporter → Answer × Controller MemoryExporter × Provider}
    (keeps : ∀ c, s.controllers.get? name = some c → c.Suits s.provider →
      s.provider.Reach clock (fun _ => True) (f c).2.2 ∧ (f c).2.1.Suits (f c).2.2) :
    (s.withController name f).2.Orderly := by
  rcases s.withController_cases name f with unknown | ⟨c, found, done⟩
  · rw [unknown]
    exact orderly
  · obtain ⟨reach, suits⟩ := keeps c found (orderly.suits name c found)
    rw [done]
    exact (orderly.reach reach).insert suits name

/-- What leaves meter and processor of a controller as they are leaves everything orderly. -/
theorem Orderly.same (orderly : s.Orderly)
    {f : Controller MemoryExporter → Answer × Controller MemoryExporter × Provider}
    (same : ∀ c, (f c).2.1.meter = c.meter ∧ (f c).2.1.processor = c.processor ∧
      (f c).2.2 = s.provider) : (s.withController name f).2.Orderly := by
  refine orderly.withController (fun _ => default) fun c _ suits => ?_
  obtain ⟨meter, processor, provider⟩ := same c
  have still : s.provider.Reach (fun _ => default) (fun _ => True) (f c).2.2 := by rw [provider]
  exact ⟨still, provider ▸ suits.congr meter processor⟩

theorem Orderly.perform (orderly : s.Orderly) (clock : Nat → Timestamp) (o : Operation) :
    (s.perform clock o).2.Orderly := by
  have elsewhere : o.controller? = none → (s.perform clock o).2.Orderly := by
    intro other
    have reach : Client.Reach clock (fun _ => True) True s.client (s.perform clock o).2.client :=
      reach_perform s.provider.within_all o (s.allows_all o)
    refine ⟨orderly.configured.reach reach, fun name c found => ?_⟩
    rw [controllers_perform clock s other] at found
    exact (orderly.suits name c found).later (orderly.configured.linked.later reach)
  cases o with
  | controller name meter mode schedule =>
    have use : s.provider.Reach clock (fun _ => True) (s.provider.use meter) :=
      .single (.use _ meter)
    have used := orderly.reach use
    simp only [Session.perform]
    cases made : Controller.make meter mode MemoryExporter.empty schedule with
    | error e => exact used
    | ok new =>
      cases held : s.controllers.get? name with
      | none => exact used.insert (Controller.suits_make made _) name
      | some old =>
        have drop : (s.provider.use meter).Reach clock (fun _ => True)
            (old.drop clock (s.provider.use meter)).2 := reach_drop trivial (Provider.within_all _)
        exact (used.reach drop).insert (Controller.suits_make made _) name
  | tick name =>
    exact orderly.withController clock fun c _ suits =>
      ⟨reach_tick trivial s.provider.within_all, suits.tick orderly.configured clock⟩
  | stop name =>
    exact orderly.withController clock fun c _ suits =>
      ⟨reach_stop trivial s.provider.within_all, suits.stop orderly.configured clock⟩
  | drop name =>
    exact orderly.withController clock fun c _ suits =>
      ⟨reach_drop trivial s.provider.within_all, suits.drop orderly.configured clock⟩
  | start name =>
    refine orderly.same fun c => ?_
    unfold Controller.start
    cases c.phase <;> exact ⟨rfl, rfl, rfl⟩
  | active name => exact orderly.same fun c => ⟨rfl, rfl, rfl⟩
  | failing name fail => exact orderly.same fun c => ⟨rfl, rfl, rfl⟩
  | clear name => exact orderly.same fun c => ⟨rfl, rfl, rfl⟩
  | batches name => exact orderly.same fun c => ⟨rfl, rfl, rfl⟩
  | debugController name => exact orderly.same fun c => ⟨rfl, rfl, rfl⟩
  | _ => exact elsewhere rfl

theorem Orderly.of_due (orderly : s.Orderly) {m : String} {o : Operation} {d : Due}
    (fires : s.due m o = some d) : d.Orderly := by
  have ending : ∀ {s' : Session} {name}, s'.Orderly → s'.controllers = s.controllers →
      s.ending m name s'.provider = some d → d.Orderly := by
    intro s' name orderly' controllers ended
    obtain ⟨c, mine, -, rfl⟩ := of_ending ended
    obtain ⟨held, -⟩ := controllerOf?_eq_some_iff.1 mine
    exact ⟨(orderly'.suits name c (controllers ▸ held)).congr rfl rfl, _, orderly'.configured⟩
  cases o with
  | tick name =>
    obtain ⟨c, mine, rfl⟩ := Option.map_eq_some_iff.1 fires
    obtain ⟨held, -⟩ := controllerOf?_eq_some_iff.1 mine
    exact ⟨orderly.suits name c held, _, orderly.configured⟩
  | stop name => exact ending orderly rfl fires
  | drop name => exact ending orderly rfl fires
  | controller name meter mode schedule =>
    rw [due] at fires
    split at fires
    · have use : s.provider.Reach (fun _ => default) (fun _ => True) (s.provider.use meter) :=
        .single (.use _ meter)
      exact ending (orderly.reach use) rfl fires
    · cases fires
  | _ => cases fires

/-- Every tick of a run begins in order. -/
theorem Orderly.dues (clock : Nat → Timestamp) (m : String) (ops : List Operation) :
    ∀ {s : Session}, s.Orderly → ∀ d ∈ s.dues clock m ops, d.Orderly := by
  induction ops with
  | nil => exact fun _ _ none_ => nomatch none_
  | cons o rest ih =>
    intro s orderly d member
    rcases List.mem_append.1 member with now | later
    · exact orderly.of_due (Option.mem_toList.1 now)
    · exact ih (orderly.perform clock o) d later

/-- Whatever a program does, no tick of a controller refuses a record or drops a cycle: of every
series of which records were collected it reports a value that takes in all of them. -/
theorem ticks_take_in_everything (clock : Nat → Timestamp) (ops : List Operation) (m : String)
    (d : Due) (fires : d ∈ empty.dues clock m ops) :
    let tick := (d.controller.tick clock d.provider).1
    tick.rejected = [] ∧ tick.misfits = [] ∧
      ∀ k first rest, tick.collected.filter (fun r => r.key = k) = first :: rest →
        ∃ report ∈ tick.batch, report.key = k ∧
          (d.controller.processor.entry first).TakesIn (first :: rest) report.value := by
  obtain ⟨suits, hs, configured⟩ := orderly_empty.dues clock m ops d fires
  exact suits.tick_complete configured clock

/-- The name of a histogram is asked for a second time, an aggregate of another family is merged
into its series and then one that fits: the totals are those of what fits and of the updates. -/
theorem merged_histogram_is_exported :
    let latency : Descriptor := ⟨"latency", "", "", .valueRecorder, .int64, true⟩
    let ops : List Operation :=
      [.create "a" "m" latency (some (.histogram [0.0, 10.0])) [], .create "b" "m" latency none [],
        .bind "a" .empty "h", .controller "p" "m" .stateful .default,
        .boundMerge "h" (.sum (.integer 7)),
        .boundMerge "h" (.histogram ⟨[0.0, 10.0], [0, 2, 0], .integer 9, 2⟩), .tick "p",
        .boundUpdate "h" (.integer 12), .tick "p"]
    ∃ d d', empty.dues (fun _ => default) "m" ops = [d, d'] ∧
      (d'.controller.tick (fun _ => default) d'.provider).1.rejected = [] ∧
      (d'.controller.tick (fun _ => default) d'.provider).1.misfits = [] ∧
      ∃ report ∈ d'.batch (fun _ => default), report.key = ⟨"latency", ""⟩ ∧
        report.value = .histogram ⟨[0.0, 10.0], [0, 2, 1], .integer 21, 3⟩ := by
  intro latency ops
  let record : Record :=
    ⟨latency, "", .histogram ⟨[0.0, 10.0], [0, 0, 1], .integer 12, 1⟩, default⟩
  have seen : (empty.dues (fun _ => default) "m" ops).map (fun d =>
      ((d.collected fun _ => default).filter fun r => r.key = ⟨"latency", ""⟩,
        (d.controller.processor.entry record).current.live,
        (d.controller.processor.entry record).total)) =
      [([⟨latency, "", .histogram ⟨[0.0, 10.0], [0, 2, 0], .integer 9, 2⟩, default⟩],
        .histogram ⟨[0.0, 10.0], [0, 0, 0], .integer 0, 0⟩,
        some (.histogram ⟨[0.0, 10.0], [0, 0, 0], .integer 0, 0⟩)),
      ([record], .histogram ⟨[0.0, 10.0], [0, 0, 0], .integer 0, 0⟩,
        some (.histogram ⟨[0.0, 10.0], [0, 2, 0], .integer 9, 2⟩))] := by decide +kernel
  have each := ticks_take_in_everything (fun _ => default) ops "m"
  generalize empty.dues (fun _ => default) "m" ops = ticks at seen each ⊢
  obtain ⟨d, rest, rfl, -, others⟩ := List.map_eq_cons_iff.1 seen
  obtain ⟨d', rest', rfl, second, none_⟩ := List.map_eq_cons_iff.1 others
  rw [List.map_eq_nil_iff.1 none_] at each ⊢
  simp only [Prod.mk.injEq] at second
  obtain ⟨own, empty_, total⟩ := second
  obtain ⟨accepted, fits, reports⟩ := each d' (List.mem_cons_of_mem _ List.mem_cons_self)
  obtain ⟨report, member, at_, live, merged, into⟩ := reports _ record [] own
  refine ⟨d, d', rfl, accepted, fits, report, member, at_, ?_⟩
  rw [empty_] at merged
  rw [total] at into
  have cycle : Except.ok live = .ok record.value := merged.symm.trans (by decide +kernel)
  cases cycle
  exact Except.ok.inj (into.symm.trans (by decide +kernel))

end Session

end Metering
