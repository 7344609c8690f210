import Metering.Proofs.Pending
import Metering.Proofs.Totals
import Metering.Pusher

/-!
# The life of a controller

A program makes a controller, starts and stops it as it likes, ticks it by hand, and goes on with its
own work, while the loop of the controller wakes now and then. `Lifecycle.happen` is one step of this,
in any order. Each step either ticks once or leaves the controller as it is (`happen_cases`), so
ticks can be counted, and what holds from tick to tick holds throughout (`Attends`). The tick that
ends a running schedule leaves nothing behind in the instruments.
-/

namespace Metering

variable {ε : Type} {clock : Nat → Timestamp}

/-! ## The thread -/

namespace Pusher

/-- The schedule is running just when there is a thread in the loop, which nothing tells to leave. -/
structure Tidy (x : Pusher ε) : Prop where
  phase : x.controller.phase = if x.looping then .running else .idle
  leave : x.looping = true → x.leave = false

variable {x : Pusher ε}

/-- Starting makes a thread, unless there is one. -/
theorem Tidy.start_eq (tidy : x.Tidy) :
    x.start = (!x.looping, ⟨{ x.controller with phase := .running }, false, true⟩) := by
  obtain ⟨⟨meter, schedule, processor, exporter, phase⟩, leave, looping⟩ := x
  obtain ⟨same, clear⟩ := tidy
  cases looping with
  | true =>
    cases (same : phase = .running)
    cases (clear rfl : leave = false)
    rfl
  | false =>
    cases (same : phase = .idle)
    rfl

variable [Exporter ε]

/-- The thread ticks whenever it wakes, if there is one. -/
theorem Tidy.wake_eq (tidy : x.Tidy) (clock : Nat → Timestamp) (p : Provider) :
    x.wake clock p = (x.looping, if x.looping then x.tick clock p else (x, p)) := by
  unfold wake
  cases looping : x.looping with
  | true => rw [if_pos rfl, tidy.leave looping]; rfl
  | false => rfl

/-- The last tick of a running schedule, whose thread has left. -/
def flush (clock : Nat → Timestamp) (x : Pusher ε) (p : Provider) : Pusher ε × Provider :=
  let (_, c, p) := { x.controller with phase := .idle }.tick clock p
  (⟨c, true, false⟩, p)

/-- Stopping a running schedule waits for its thread, which does not tick again, and ticks once. -/
theorem Tidy.stop_eq (tidy : x.Tidy) (clock : Nat → Timestamp) (p : Provider) :
    x.stop clock p = (x.looping, if x.looping then x.flush clock p else (x, p)) := by
  obtain ⟨⟨meter, schedule, processor, exporter, phase⟩, leave, looping⟩ := x
  cases looping with
  | true =>
    cases (tidy.phase : phase = .running)
    rfl
  | false =>
    cases (tidy.phase : phase = .idle)
    rfl

theorem Tidy.drop_eq (tidy : x.Tidy) (clock : Nat → Timestamp) (p : Provider) :
    let (y, q) := if x.looping then x.flush clock p else (x, p)
    x.drop clock p = ({ y with controller := { y.controller with phase := .dropped } }, q) := by
  obtain ⟨⟨meter, schedule, processor, exporter, phase⟩, leave, looping⟩ := x
  cases looping with
  | true =>
    cases (tidy.phase : phase = .running)
    rfl
  | false =>
    cases (tidy.phase : phase = .idle)
    rfl

/-- Nothing is different for want of a thread that has to leave first: with its thread, a controller
answers and does what it would do without. -/
theorem Tidy.agrees (tidy : x.Tidy) (clock : Nat → Timestamp) (p : Provider) :
    (x.start.1, x.start.2.controller) = x.controller.start ∧
      ((x.stop clock p).1, (x.stop clock p).2.1.controller, (x.stop clock p).2.2) =
        x.controller.stop clock p ∧
      ((x.drop clock p).1.controller, (x.drop clock p).2) = x.controller.drop clock p := by
  obtain ⟨⟨meter, schedule, processor, exporter, phase⟩, leave, looping⟩ := x
  cases looping with
  | true =>
    cases (tidy.phase : phase = .running)
    exact ⟨rfl, rfl, rfl⟩
  | false =>
    cases (tidy.phase : phase = .idle)
    exact ⟨rfl, rfl, rfl⟩

end Pusher

/-! ## Steps -/

/-- An exporter with a note of every batch that it was handed, whatever became of it. -/
structure Noting (ε : Type) where
  inner : ε
  handed : List (List Record)

instance [Exporter ε] : Exporter (Noting ε) where
  send e batch :=
    let (outcome, inner) := Exporter.send e.inner batch
    (outcome, ⟨inner, e.handed ++ [batch]⟩)

/-- What can happen around a controller. -/
inductive Happening
  /-- The program does something else. -/
  | program (o : Operation)
  | start
  | stop
  | tick
  /-- The thread of the controller wakes, if there is one. -/
  | wake

/-- What comes of it. -/
inductive Effect
  | performed
  | started (b : Bool)
  | stopped (b : Bool)
  | ticked
  | woken (ticked : Bool)
deriving DecidableEq

/-- The number of exports that there should have been. -/
def Effect.exports (es : List Effect) : Nat :=
  es.count .ticked + es.count (.woken true) + es.count (.stopped true)

/-- Whether a schedule is to be running after something happened. -/
def Happening.after (running : Bool) : Happening → Bool
  | .start => true
  | .stop => false
  | _ => running

/-- Whether a schedule is to be running: it was started, and not stopped since. -/
def Happening.running (hs : List Happening) : Bool := hs.foldl after false

/-- A program and a controller that it has made. -/
structure Lifecycle (ε : Type) where
  session : Session
  pusher : Pusher (Noting ε)

namespace Lifecycle

variable {x y : Lifecycle ε} {mode : Processor.Mode} {m n l : String} {cs : List (List Record)}

/-- The provider that the program and the controller share. -/
def provider (x : Lifecycle ε) : Provider := x.session.provider

/-- The batches that were handed to the exporter. -/
def handed (x : Lifecycle ε) : List (List Record) := x.pusher.controller.exporter.handed

/-- Goes on with what the controller left. -/
def put (x : Lifecycle ε) (after : Pusher (Noting ε) × Provider) : Lifecycle ε :=
  ⟨{ x.session with provider := after.2 }, after.1⟩

/-- The program makes the controller. -/
def begin (clock : Nat → Timestamp) (before : List Operation) (c : Controller (Noting ε)) :
    Lifecycle ε := ⟨(Session.empty.run clock before).2, .ofController c⟩

/-! ## Ticks -/

/-- From `x` to `y` there is one tick, after which the processor and the exporter have gone on by one
cycle of what was collected. -/
structure Ticked (clock : Nat → Timestamp) (x y : Lifecycle ε) : Prop where
  session : y.session =
    { x.session with provider := (x.provider.collect clock x.pusher.controller.meter).2 }
  meter : y.pusher.controller.meter = x.pusher.controller.meter
  processor : y.pusher.controller.processor = (x.pusher.controller.processor.cycle
    (x.provider.collect clock x.pusher.controller.meter).1).2
  handed : y.handed = x.handed ++ [(x.pusher.controller.processor.cycle
    (x.provider.collect clock x.pusher.controller.meter).1).1]

/-- From `x` to `y` nothing is collected for the controller, and nothing is exported. -/
structure Rested (x y : Lifecycle ε) : Prop where
  meter : y.pusher.controller.meter = x.pusher.controller.meter
  processor : y.pusher.controller.processor = x.pusher.controller.processor
  handed : y.handed = x.handed

/-- The controller is the one collector of its meter: `cs` is all that was collected of the meter, the
controller has gone on by a cycle for each of these collections, and what was handed to the exporter
are their batches. -/
structure Attends (clock : Nat → Timestamp) (m : String) (mode : Processor.Mode)
    (cs : List (List Record)) (x : Lifecycle ε) : Prop where
  sole : x.session.Sole m none cs
  reach : Client.Reach clock (fun _ => True) False ⟨.empty, []⟩ x.session.client
  meter : x.pusher.controller.meter = m
  processor : x.pusher.controller.processor = (Processor.empty mode).after cs
  handed : x.handed = (Processor.empty mode).batches cs

theorem Attends.ticked (attends : Attends clock m mode cs x) (ticked : Ticked clock x y) :
    Attends clock m mode (cs ++ [(x.provider.collect clock m).1]) y where
  sole := by
    rw [ticked.session, attends.meter]
    exact ⟨attends.sole.collected.collect clock, attends.sole.owner,
      fun name c held => nomatch attends.sole.owner name c held⟩
  reach := by
    rw [ticked.session]
    exact attends.reach.trans
      (Client.reach_of_provider (Provider.reach_collect clock trivial x.provider.within_all))
  meter := ticked.meter.trans attends.meter
  processor := by
    rw [ticked.processor, attends.processor, attends.meter, Processor.after_concat]
  handed := by
    rw [ticked.handed, attends.handed, attends.processor, attends.meter, Processor.batches_concat]

/-- When a tick returns of the one collector of a meter, while callbacks observe for their own
instruments only, nothing is pending of the enabled instruments. Without memory, what was handed to
the exporter of a series of integers adds up to what the series accepted. -/
theorem Attends.reported (attends : Attends clock m mode cs x) (ticked : Ticked clock x y)
    (observing : y.provider.SelfObserving) {i : Instrument}
    (found : y.provider.instrument? ⟨m, n⟩ = some i) (enabled : i.descriptor.enabled = true)
    (l : String) :
    pendingOf l (y.provider.notes ⟨m, n⟩) = [] ∧ (i.aggregator l).dirty = false ∧
      (mode = .stateless → i.aggregation = .sum → i.descriptor.numberKind = .int64 →
        Number.magnitude ((valuesOf l (y.provider.notes ⟨m, n⟩)).map i.descriptor.number) ≤
          Number.limit →
        ((y.handed.flatten.filter fun r => r.key = ⟨n, l⟩).map fun r => r.value.total.amount).sum =
          Number.exactSum ((valuesOf l (y.provider.notes ⟨m, n⟩)).map i.descriptor.number)) := by
  have after := attends.ticked ticked
  have left : y.provider = (x.provider.collect clock m).2 := by
    rw [provider, ticked.session, attends.meter]
  have nothing : pendingOf l (y.provider.notes ⟨m, n⟩) = [] := by
    rw [left] at observing found ⊢
    exact attends.sole.collected.pending_collect clock observing found enabled l
  have marked := Client.marked_empty.reach Client.linked_empty after.reach
  refine ⟨nothing, marked _ i found l nothing, fun stateless aggregation integers bound => ?_⟩
  subst stateless
  have total := after.sole.collected.exactSum_reports found enabled integers aggregation nothing bound
  rw [Aggregate.exactSum, Number.exactSum, Processor.reports, ← after.handed, List.map_map,
    List.map_map] at total
  exact total

/-- An operation that spares the meter of a controller uses no aggregator directly. -/
theorem allows_of_spares {o : Operation} (spares : o.Spares m) (s : Session) :
    s.Allows (fun _ => True) False o := by
  cases o with
  | create tag meter d choice script => exact fun _ _ => trivial
  | boundRaw _ _ | boundMerge _ _ | boundCheckpoint _ | boundDrain _ => exact spares
  | _ => simp [Session.Allows]

/-- A new controller has nothing to go on from. -/
theorem attends_begin (clock : Nat → Timestamp) {before : List Operation} {inner : ε}
    {schedule : Schedule} {c : Controller (Noting ε)}
    (made : Controller.make m mode ⟨inner, []⟩ schedule = .ok c) :
    (begin clock before c).pusher.Tidy ∧ (begin clock before c).pusher.looping = false ∧
      (begin clock before c).handed = [] ∧
      ((∀ o ∈ before, o.Spares m) → Attends clock m mode [] (begin clock before c)) := by
  unfold Controller.make at made
  split at made <;> cases made
  refine ⟨⟨rfl, fun none_ => nomatch none_⟩, rfl, rfl, fun spares => ?_⟩
  have sole := (Session.sole_empty m).run clock before spares
  rw [(Session.sole_empty m).dues_eq_nil clock before spares, Session.collections, List.map_nil,
    List.append_nil] at sole
  have reach : Client.Reach clock (fun _ => True) False Session.empty.client
      (Session.empty.run clock before).2.client :=
    Session.reach_run (fun _ => True) before (fun _ _ _ _ => trivial)
      (fun s _ o member => allows_of_spares (spares o member) s) trivial
      Session.empty.provider.within_all
  exact ⟨sole, reach, rfl, rfl, rfl⟩

/-! ## Steps -/

variable [Exporter ε]

/-- One step. -/
def happen (clock : Nat → Timestamp) (x : Lifecycle ε) : Happening → Effect × Lifecycle ε
  | .program o => (.performed, { x with session := (x.session.perform clock o).2 })
  | .start =>
    let (started, pusher) := x.pusher.start
    (.started started, { x with pusher })
  | .stop =>
    let (stopped, after) := x.pusher.stop clock x.provider
    (.stopped stopped, x.put after)
  | .tick => (.ticked, x.put (x.pusher.tick clock x.provider))
  | .wake =>
    let (ticked, after) := x.pusher.wake clock x.provider
    (.woken ticked, x.put after)

/-- Steps one after the other. -/
def run (clock : Nat → Timestamp) (x : Lifecycle ε) : List Happening → List Effect × Lifecycle ε
  | [] => ([], x)
  | h :: rest =>
    let (e, x) := x.happen clock h
    let (more, x) := x.run clock rest
    (e :: more, x)

/-- The controller is dropped. -/
def drop (clock : Nat → Timestamp) (x : Lifecycle ε) : Lifecycle ε :=
  x.put (x.pusher.drop clock x.provider)

theorem ticked_tick (clock : Nat → Timestamp) (x : Lifecycle ε) :
    Ticked clock x (x.put (x.pusher.tick clock x.provider)) := ⟨rfl, rfl, rfl, rfl⟩

theorem ticked_flush (clock : Nat → Timestamp) (x : Lifecycle ε) :
    Ticked clock x (x.put (x.pusher.flush clock x.provider)) := ⟨rfl, rfl, rfl, rfl⟩

/-- A step ticks once, and is counted as an export, or it leaves the controller as it is but for its
schedule. The thread is there just when the schedule was started last, and not stopped. -/
theorem happen_cases (clock : Nat → Timestamp) (tidy : x.pusher.Tidy) (h : Happening) :
    (x.happen clock h).2.pusher.Tidy ∧
    (x.happen clock h).2.pusher.looping = h.after x.pusher.looping ∧
    (Effect.exports [(x.happen clock h).1] = 1 ∧ Ticked clock x (x.happen clock h).2 ∨
      Effect.exports [(x.happen clock h).1] = 0 ∧ Rested x (x.happen clock h).2 ∧
        ((x.happen clock h).2.session = x.session ∨
          ∃ o, h = .program o ∧ (x.happen clock h).2.session = (x.session.perform clock o).2)) := by
  cases h with
  | program o => exact ⟨tidy, rfl, .inr ⟨rfl, ⟨rfl, rfl, rfl⟩, .inr ⟨o, rfl, rfl⟩⟩⟩
  | start =>
    simp only [happen, tidy.start_eq]
    refine ⟨⟨rfl, fun _ => rfl⟩, rfl, .inr ⟨?_, ⟨rfl, rfl, rfl⟩, .inl trivial⟩⟩
    cases x.pusher.looping <;> rfl
  | stop =>
    simp only [happen, tidy.stop_eq]
    cases looping : x.pusher.looping with
    | true => exact ⟨⟨rfl, fun none_ => nomatch none_⟩, rfl, .inl ⟨rfl, ticked_flush clock x⟩⟩
    | false => exact ⟨tidy, looping, .inr ⟨rfl, ⟨rfl, rfl, rfl⟩, .inl rfl⟩⟩
  | tick => exact ⟨⟨tidy.phase, tidy.leave⟩, rfl, .inl ⟨rfl, ticked_tick clock x⟩⟩
  | wake =>
    simp only [happen, tidy.wake_eq]
    cases looping : x.pusher.looping with
    | true => exact ⟨⟨tidy.phase, tidy.leave⟩, looping, .inl ⟨rfl, ticked_tick clock x⟩⟩
    | false => exact ⟨tidy, looping, .inr ⟨rfl, ⟨rfl, rfl, rfl⟩, .inl rfl⟩⟩

/-- A controller that is dropped ticks once more if it is running. -/
theorem drop_cases (clock : Nat → Timestamp) (tidy : x.pusher.Tidy) :
    (x.drop clock).pusher.looping = false ∧
    (x.pusher.looping = true ∧ Ticked clock x (x.drop clock) ∨
      x.pusher.looping = false ∧ Rested x (x.drop clock)) := by
  have dropped := tidy.drop_eq clock x.provider
  unfold drop
  cases looping : x.pusher.looping with
  | true =>
    rw [looping] at dropped
    rw [dropped]
    exact ⟨rfl, .inl ⟨rfl, rfl, rfl, rfl, rfl⟩⟩
  | false =>
    rw [looping] at dropped
    rw [dropped]
    exact ⟨looping, .inr ⟨rfl, rfl, rfl, rfl⟩⟩

/-- What the controller answers tells whether there is a thread. -/
theorem answers (clock : Nat → Timestamp) (tidy : x.pusher.Tidy) :
    (x.happen clock .start).1 = .started (!x.pusher.looping) ∧
      (x.happen clock .stop).1 = .stopped x.pusher.looping ∧
      (x.happen clock .wake).1 = .woken x.pusher.looping := by
  simp only [happen, tidy.start_eq, tidy.stop_eq, tidy.wake_eq, and_self]

theorem length_drop (clock : Nat → Timestamp) (tidy : x.pusher.Tidy) :
    (x.drop clock).handed.length = x.handed.length + if x.pusher.looping then 1 else 0 := by
  rcases (drop_cases clock tidy).2 with ⟨looping, ticked⟩ | ⟨still, rested⟩
  · rw [ticked.handed, List.length_append, looping]
    rfl
  · rw [rested.handed, still]
    rfl

/-- The end of a running schedule is a tick. -/
theorem ticked_of_ending (clock : Nat → Timestamp) (tidy : x.pusher.Tidy)
    (looping : x.pusher.looping = true)
    (ends : y = (x.happen clock .stop).2 ∨ y = x.drop clock) : Ticked clock x y := by
  rcases ends with rfl | rfl
  · rcases (happen_cases clock tidy .stop).2.2 with ⟨-, ticked⟩ | ⟨zero, -⟩
    · exact ticked
    · rw [(answers clock tidy).2.1, looping] at zero
      cases zero
  · rcases (drop_cases clock tidy).2 with ⟨-, ticked⟩ | ⟨still, -⟩
    · exact ticked
    · rw [looping] at still
      cases still

/-! ## Runs -/

theorem exports_cons (e : Effect) (es : List Effect) :
    Effect.exports (e :: es) = Effect.exports [e] + Effect.exports es := by
  simp only [Effect.exports, List.count_cons, List.count_nil]
  omega

/-- In any run, the thread is there just when the schedule was started last, and every export is
counted. -/
theorem run_counts (clock : Nat → Timestamp) (hs : List Happening) :
    ∀ {x : Lifecycle ε}, x.pusher.Tidy →
      (x.run clock hs).2.pusher.Tidy ∧
      (x.run clock hs).2.pusher.looping = hs.foldl Happening.after x.pusher.looping ∧
      (x.run clock hs).2.handed.length = x.handed.length + Effect.exports (x.run clock hs).1 := by
  induction hs with
  | nil => exact fun tidy => ⟨tidy, rfl, rfl⟩
  | cons h rest ih =>
    intro x tidy
    obtain ⟨next, looping, step⟩ := happen_cases clock tidy h
    obtain ⟨after, loops, counted⟩ := ih next
    have more : (x.happen clock h).2.handed.length =
        x.handed.length + Effect.exports [(x.happen clock h).1] := by
      rcases step with ⟨one, ticked⟩ | ⟨none_, rested, -⟩
      · rw [one, ticked.handed, List.length_append, List.length_singleton]
      · rw [none_, rested.handed, Nat.add_zero]
    refine ⟨after, ?_, ?_⟩
    · rw [List.foldl_cons, ← looping]
      exact loops
    · rw [run, exports_cons, ← Nat.add_assoc, ← more]
      exact counted

theorem Attends.happen (attends : Attends clock m mode cs x) (tidy : x.pusher.Tidy) (h : Happening)
    (spares : ∀ o, h = .program o → o.Spares m) :
    ∃ cs', Attends clock m mode cs' (x.happen clock h).2 := by
  obtain ⟨-, -, ⟨-, ticked⟩ | ⟨-, rested, same⟩⟩ := happen_cases clock tidy h
  · exact ⟨_, attends.ticked ticked⟩
  · have meter := rested.meter.trans attends.meter
    have processor := rested.processor.trans attends.processor
    have handed := rested.handed.trans attends.handed
    rcases same with still | ⟨o, rfl, performed⟩
    · exact ⟨cs, still ▸ attends.sole, still ▸ attends.reach, meter, processor, handed⟩
    · have own := spares o rfl
      have sole : (x.session.perform clock o).2.Sole m none _ := attends.sole.perform own
      rw [attends.sole.due_eq_none, Option.toList_none, Session.collections, List.map_nil,
        List.append_nil] at sole
      have reach := attends.reach.trans
        (Session.reach_perform x.session.provider.within_all o (allows_of_spares own x.session))
      exact ⟨cs, performed ▸ sole, performed ▸ reach, meter, processor, handed⟩

theorem Attends.run (hs : List Happening) :
    ∀ {x : Lifecycle ε} {cs : List (List Record)}, Attends clock m mode cs x → x.pusher.Tidy →
      (∀ o, .program o ∈ hs → o.Spares m) → ∃ cs', Attends clock m mode cs' (x.run clock hs).2 := by
  induction hs with
  | nil => exact fun attends _ _ => ⟨_, attends⟩
  | cons h rest ih =>
    intro x cs attends tidy spares
    obtain ⟨cs', next⟩ := attends.happen tidy h fun o here => spares o (here ▸ List.mem_cons_self)
    exact ih next (happen_cases clock tidy h).1 fun o member =>
      spares o (List.mem_cons_of_mem _ member)

/-- Whatever is done around a controller, and whatever its exporter answers: starting it succeeds just
when there is no thread in its loop, and stopping it just when there is one, which is so after the
schedule was started last and not stopped. A batch is handed to the exporter for each tick by hand,
each tick of the loop, each stop that succeeds, and when a running controller is dropped, and for
nothing else.

When such a stop or drop returns, the controller being the one collector of its meter and callbacks
having observed for their own instruments only, no series of an enabled instrument holds a value that
was not collected. Without memory, the batches of a series of sums of integers then add up to all that
the series accepted, if its magnitude is within the range. -/
theorem last_tick_reports_everything (clock : Nat → Timestamp) (before : List Operation) (m : String)
    (mode : Processor.Mode) (inner : ε) (schedule : Schedule) (c : Controller (Noting ε))
    (made : Controller.make m mode ⟨inner, []⟩ schedule = .ok c) (hs : List Happening) :
    let effects := ((begin clock before c).run clock hs).1
    let x := ((begin clock before c).run clock hs).2
    let running := x.pusher.looping
    running = Happening.running hs ∧
    (x.happen clock .start).1 = .started (!running) ∧
    (x.happen clock .stop).1 = .stopped running ∧
    (x.happen clock .wake).1 = .woken running ∧
    x.handed.length = Effect.exports effects ∧
    (x.drop clock).handed.length = Effect.exports effects + (if running then 1 else 0) ∧
    (x.happen clock .stop).2.pusher.looping = false ∧ (x.drop clock).pusher.looping = false ∧
    (running = true → (∀ o ∈ before, o.Spares m) → (∀ o, .program o ∈ hs → o.Spares m) →
      ∀ y, y = (x.happen clock .stop).2 ∨ y = x.drop clock → y.provider.SelfObserving →
      ∀ n i, y.provider.instrument? ⟨m, n⟩ = some i → i.descriptor.enabled = true → ∀ l,
        let accepted := (valuesOf l (y.provider.notes ⟨m, n⟩)).map i.descriptor.number
        pendingOf l (y.provider.notes ⟨m, n⟩) = [] ∧ (i.aggregator l).dirty = false ∧
        (mode = .stateless → i.aggregation = .sum → i.descriptor.numberKind = .int64 →
          Number.magnitude accepted ≤ Number.limit →
          ((y.handed.flatten.filter fun r => r.key = ⟨n, l⟩).map
            fun r => r.value.total.amount).sum = Number.exactSum accepted)) := by
  intro effects x running
  obtain ⟨idle, silent, none_, start⟩ := attends_begin clock made
  obtain ⟨tidy, loops, counted⟩ := run_counts clock hs idle
  rw [silent] at loops
  rw [none_, List.length_nil, Nat.zero_add] at counted
  obtain ⟨started, stopped, woken⟩ := answers clock tidy
  refine ⟨loops, started, stopped, woken, counted, counted ▸ length_drop clock tidy,
    (happen_cases clock tidy .stop).2.1, (drop_cases clock tidy).1, ?_⟩
  intro looping early late y ends observing n i found enabled l
  obtain ⟨cs, attends⟩ := (start early).run hs idle late
  exact attends.reported (ticked_of_ending clock tidy looping ends) observing found enabled l

/-- A gauge that goes up and down and an observer beside it, a controller without memory that is
started, stopped and started again, and an exporter that always fails: when the controller is dropped,
it has handed out four batches, with the whole of the gauge. -/
theorem dropped_controller_reports_everything :
    let clock : Nat → Timestamp := fun _ => default
    let before : List Operation := [
      .create "g" "m" ⟨"load", "", "", .upDownCounter, .int64, true⟩ none [],
      .create "o" "m" ⟨"depth", "", "", .sumObserver, .int64, true⟩ none
        [[.observe (.integer 7) .empty]],
      .update "g" (.integer 5) .empty]
    let c : Controller (Noting MemoryExporter) :=
      ⟨"m", .default, .empty .stateless, ⟨⟨[], true⟩, []⟩, .idle⟩
    let hs : List Happening := [.wake, .start, .program (.update "g" (.integer (-3)) .empty), .wake,
      .start, .tick, .program (.update "g" (.integer 4) .empty), .stop, .stop, .wake, .start,
      .program (.update "g" (.integer 2) .empty)]
    let x := ((begin clock before c).run clock hs).2
    Controller.make "m" .stateless ⟨⟨[], true⟩, []⟩ .default = .ok c ∧
      Happening.running hs = true ∧ (∀ o ∈ before, o.Spares "m") ∧
      (∀ o, .program o ∈ hs → o.Spares "m") ∧ (x.drop clock).provider.SelfObserving ∧
      x.handed.length = 3 ∧ (x.drop clock).handed.length = 4 ∧
      ∃ i, (x.drop clock).provider.instrument? ⟨"m", "load"⟩ = some i ∧
        (i.aggregator "").dirty = false ∧
        (((x.drop clock).handed.flatten.filter fun r => r.key = ⟨"load", ""⟩).map
          fun r => r.value.total.amount).sum = 8 := by
  intro clock before c hs x
  have made : Controller.make "m" .stateless ⟨⟨[], true⟩, []⟩ .default = .ok c := rfl
  have early : ∀ o ∈ before, o.Spares "m" := by
    simp [before, Operation.Spares, scriptTargets, callTargets, Action.targets]
  have late : ∀ o, .program o ∈ hs → o.Spares "m" := by
    intro o member
    simp only [hs, List.mem_cons, Happening.program.injEq, reduceCtorEq, List.not_mem_nil, or_false,
      false_or] at member
    rcases member with rfl | rfl | rfl <;> trivial
  have effects : ((begin clock before c).run clock hs).1 =
      [.woken false, .started true, .performed, .woken true, .started false, .ticked, .performed,
        .stopped true, .stopped false, .woken false, .started true, .performed] := by
    decide +kernel
  have observing : (x.drop clock).provider.SelfObserving := by decide +kernel
  have known : ((x.drop clock).provider.instrument? ⟨"m", "load"⟩).map
      (fun i => (i.descriptor, i.aggregation)) =
      some (⟨"load", "", "", .upDownCounter, .int64, true⟩, .sum) := by decide +kernel
  have values : valuesOf "" ((x.drop clock).provider.notes ⟨"m", "load"⟩) =
      [.integer 5, .integer (-3), .integer 4, .integer 2] := by decide +kernel
  have scheduled : Happening.running hs = true := by decide
  obtain ⟨looping, -, -, -, counted, dropped, -, -, reported⟩ :=
    last_tick_reports_everything clock before "m" .stateless ⟨[], true⟩ .default c made hs
  rw [scheduled] at looping
  rw [effects] at counted dropped
  rw [if_pos looping] at dropped
  obtain ⟨i, found, same⟩ := Option.map_eq_some_iff.1 known
  have descriptor : i.descriptor = ⟨"load", "", "", .upDownCounter, .int64, true⟩ :=
    congrArg Prod.fst same
  have aggregation : i.aggregation = .sum := congrArg Prod.snd same
  obtain ⟨-, clean, total⟩ := reported looping early late (x.drop clock) (.inr rfl) observing "load" i
    found (by rw [descriptor]) ""
  rw [values, descriptor] at total
  refine ⟨made, scheduled, early, late, observing, counted, dropped, i, found, clean, ?_⟩
  exact (total rfl aggregation rfl (by decide +kernel)).trans (by decide +kernel)

end Lifecycle

end Metering
