import Mathlib.Data.List.Induction
import Metering.Proofs.Lifecycle
import Metering.Proofs.Pipeline
import Metering.Proofs.Processor.Accrual

/-!
# Exports that fail

Nothing that a controller does depends on what its exports come to. A run is therefore the run of a
controller that learns nothing of its exporter (`Lifecycle.blind`), and runs that differ in their
exporters only are one and the same run, but for the exporters and the outcomes of exports.

A failed export loses nothing with memory: the next batch takes in what was collected for all ticks
before it.
-/

namespace Metering

variable {ε : Type} {clock : Nat → Timestamp}

/-! ## Runs do not see their exporter -/

/-- An exporter of which nothing is known. -/
instance : Exporter Unit := ⟨fun _ _ => (.ok (), ())⟩

/-- The tick, but for what the export came to. -/
def Tick.blind (t : Tick) : Tick := { t with outcome := .ok () }

/-- The controller with nothing of its exporter but the batches that were handed to it. -/
def Controller.blind (c : Controller (Noting ε)) : Controller (Noting Unit) :=
  ⟨c.meter, c.schedule, c.processor, ⟨(), c.exporter.handed⟩, c.phase⟩

/-- The thread and its controller with nothing of the exporter. -/
def Pusher.blind (x : Pusher (Noting ε)) : Pusher (Noting Unit) :=
  ⟨x.controller.blind, x.leave, x.looping⟩

namespace Controller

variable (c : Controller (Noting ε)) (p : Provider)

variable [Exporter ε]

/-- A tick does not see the exporter. -/
theorem blind_tick (clock : Nat → Timestamp) : c.blind.tick clock p =
    ((c.tick clock p).1.blind, (c.tick clock p).2.1.blind, (c.tick clock p).2.2) := rfl

theorem blind_stop (clock : Nat → Timestamp) : c.blind.stop clock p =
    ((c.stop clock p).1, (c.stop clock p).2.1.blind, (c.stop clock p).2.2) := by
  obtain ⟨meter, schedule, processor, exporter, phase⟩ := c
  cases phase <;> rfl

theorem blind_drop (clock : Nat → Timestamp) : c.blind.drop clock p =
    ((c.drop clock p).1.blind, (c.drop clock p).2) := by
  rw [Controller.drop, blind_stop]
  rfl

end Controller

namespace Pusher

variable (x : Pusher (Noting ε)) (p : Provider)

theorem blind_start : x.blind.start = (x.start.1, x.start.2.blind) := by
  obtain ⟨⟨meter, schedule, processor, exporter, phase⟩, leave, looping⟩ := x
  cases phase <;> rfl

variable [Exporter ε]

theorem blind_wake (clock : Nat → Timestamp) : x.blind.wake clock p =
    ((x.wake clock p).1, (x.wake clock p).2.1.blind, (x.wake clock p).2.2) := by
  obtain ⟨c, leave, looping⟩ := x
  cases looping <;> cases leave <;> rfl

theorem blind_join (clock : Nat → Timestamp) : x.blind.join clock p =
    ((x.join clock p).1.blind, (x.join clock p).2) := by
  obtain ⟨⟨meter, schedule, processor, exporter, phase⟩, leave, looping⟩ := x
  cases phase <;> cases looping <;> rfl

theorem blind_stop (clock : Nat → Timestamp) : x.blind.stop clock p =
    ((x.stop clock p).1, (x.stop clock p).2.1.blind, (x.stop clock p).2.2) := by
  rw [Pusher.stop, blind_join, Pusher.stop]
  generalize x.join clock p = joined
  obtain ⟨y, q⟩ := joined
  have stopped := y.controller.blind_stop q clock
  change (let (stopped, c, p) := y.controller.blind.stop clock q;
    (stopped, ({ y.blind with controller := c } : Pusher (Noting Unit)), p)) = _
  rw [stopped]
  rfl

theorem blind_drop (clock : Nat → Timestamp) : x.blind.drop clock p =
    ((x.drop clock p).1.blind, (x.drop clock p).2) := by
  rw [Pusher.drop, blind_join, Pusher.drop]
  generalize x.join clock p = joined
  obtain ⟨y, q⟩ := joined
  have dropped := y.controller.blind_drop q clock
  change (let (c, p) := y.controller.blind.drop clock q;
    (({ y.blind with controller := c } : Pusher (Noting Unit)), p)) = _
  rw [dropped]
  rfl

end Pusher

namespace Lifecycle

variable {x y : Lifecycle ε} {m : String} {mode : Processor.Mode}

/-! ## Ticks and their batches -/

/-- The ticks of a controller so far: each collected the meter, and handed out what a processor
reports that has processed the collections in order. What was collected is configured as its
instruments are. -/
structure Gathered (m : String) (mode : Processor.Mode) (ts : List Tick) (x : Lifecycle ε) : Prop where
  configured : x.session.client.Configured
  meter : x.pusher.controller.meter = m
  processor : x.pusher.controller.processor = (Processor.empty mode).after (ts.map Tick.collected)
  batches : ts.map Tick.batch = (Processor.empty mode).batches (ts.map Tick.collected)
  handed : x.handed = ts.map Tick.batch
  known : ∀ r ∈ (ts.map Tick.collected).flatten,
    x.provider.aggregation? m r.name = some r.value.shape

/-- With memory, every batch takes in all that was collected for the ticks so far. -/
theorem Gathered.covers {ts : List Tick} (gathered : Gathered m .stateful ts x) {n : Nat} {t : Tick}
    (number : ts[n]? = some t) :
    Processor.Covers ((ts.take (n + 1)).map Tick.collected) t.batch := by
  obtain ⟨within, rfl⟩ := List.getElem?_eq_some_iff.1 number
  have batch := congrArg (·[n]?) gathered.batches
  simp only [Processor.getElem?_batches, List.getElem?_map, List.getElem?_eq_getElem within,
    Option.map_some, Option.some.injEq] at batch
  rw [batch, List.take_succ_eq_append_getElem within, List.map_append, List.map_singleton,
    List.map_take]
  refine Processor.covers_cycle (gathered.configured.fits m) _ _ fun r member => ?_
  rw [List.flatten_append, List.flatten_singleton] at member
  refine gathered.known r (List.mem_flatten.2 ?_)
  rcases List.mem_append.1 member with old | new
  · obtain ⟨rs, cycle, among⟩ := List.mem_flatten.1 old
    exact ⟨rs, List.mem_of_mem_take cycle, among⟩
  · exact ⟨_, List.mem_map_of_mem (List.getElem_mem within), new⟩

theorem gathered_begin (clock : Nat → Timestamp) (before : List Operation) {inner : ε}
    {schedule : Schedule} {c : Controller (Noting ε)}
    (made : Controller.make m mode ⟨inner, []⟩ schedule = .ok c) :
    Gathered m mode [] (begin clock before c) := by
  unfold Controller.make at made
  split at made <;> cases made
  have reach : Client.Reach clock (fun _ => True) True Session.empty.client
      (Session.empty.run clock before).2.client :=
    Session.reach_run_all _ before
  exact ⟨Client.configured_empty.reach reach, rfl, rfl, rfl, rfl, fun _ none_ => nomatch none_⟩

/-! ## Steps do not see the exporter -/

/-- The program and its controller with nothing of the exporter. -/
def blind (x : Lifecycle ε) : Lifecycle Unit := ⟨x.session, x.pusher.blind⟩

variable [Exporter ε]

/-- A step does not see the exporter. -/
theorem blind_happen (clock : Nat → Timestamp) (x : Lifecycle ε) (h : Happening) :
    x.blind.happen clock h = ((x.happen clock h).1, (x.happen clock h).2.blind) := by
  have session : x.blind.provider = x.provider := rfl
  cases h with
  | program o => rfl
  | start =>
    have started : x.blind.pusher.start = _ := x.pusher.blind_start
    simp only [happen, started]
    rfl
  | stop =>
    have stopped : x.blind.pusher.stop clock x.provider = _ := x.pusher.blind_stop x.provider clock
    simp only [happen, session, stopped]
    rfl
  | tick => rfl
  | wake =>
    have woken : x.blind.pusher.wake clock x.provider = _ := x.pusher.blind_wake x.provider clock
    simp only [happen, session, woken]
    rfl

/-- The tick that there is in a step, if there is one. -/
def tick? (clock : Nat → Timestamp) (x : Lifecycle ε) (h : Happening) : Option Tick :=
  if Effect.exports [(x.happen clock h).1] = 0 then none
  else some (x.pusher.controller.tick clock x.provider).1

/-- The ticks that there are in some steps. -/
def ticks (clock : Nat → Timestamp) (x : Lifecycle ε) : List Happening → List Tick
  | [] => []
  | h :: rest => (x.tick? clock h).toList ++ (x.happen clock h).2.ticks clock rest

theorem blind_tick? (clock : Nat → Timestamp) (x : Lifecycle ε) (h : Happening) :
    x.blind.tick? clock h = (x.tick? clock h).map Tick.blind := by
  rw [tick?, blind_happen, tick?]
  have ticked := x.pusher.controller.blind_tick x.provider clock
  split
  · rfl
  · exact congrArg (fun t => some t.1) ticked

theorem run_cons (clock : Nat → Timestamp) (x : Lifecycle ε) (h : Happening)
    (rest : List Happening) : x.run clock (h :: rest) =
      ((x.happen clock h).1 :: ((x.happen clock h).2.run clock rest).1,
        ((x.happen clock h).2.run clock rest).2) := rfl

/-- A run does not see the exporter. -/
theorem blind_run (clock : Nat → Timestamp) (hs : List Happening) : ∀ x : Lifecycle ε,
    x.blind.run clock hs = ((x.run clock hs).1, (x.run clock hs).2.blind) ∧
      x.blind.ticks clock hs = (x.ticks clock hs).map Tick.blind := by
  induction hs with
  | nil => exact fun _ => ⟨rfl, rfl⟩
  | cons h rest ih =>
    intro x
    obtain ⟨ran, ticked⟩ := ih (x.happen clock h).2
    have step := blind_happen clock x h
    constructor
    · rw [run_cons, run_cons, step, ran]
    · rw [ticks, ticks, List.map_append, ← ticked, step, blind_tick?]
      cases x.tick? clock h <;> rfl

theorem blind_drop (clock : Nat → Timestamp) (x : Lifecycle ε) :
    x.blind.drop clock = (x.drop clock).blind := by
  have dropped : x.blind.pusher.drop clock x.provider = _ := x.pusher.blind_drop x.provider clock
  have session : x.blind.provider = x.provider := rfl
  rw [drop, session, dropped]
  rfl

/-! ## Ticks of a run -/

/-- A step is a tick and hands its batch to the exporter, or the exporter is as it was. -/
theorem exporter_happen (clock : Nat → Timestamp) (tidy : x.pusher.Tidy) (h : Happening) :
    (x.happen clock h).2.pusher.controller.exporter =
      match x.tick? clock h with
      | some t => (Exporter.send x.pusher.controller.exporter t.batch).2
      | none => x.pusher.controller.exporter := by
  cases h with
  | program o => rfl
  | start =>
    simp only [tick?, happen, tidy.start_eq]
    cases x.pusher.looping <;> rfl
  | stop =>
    simp only [tick?, happen, tidy.stop_eq]
    cases x.pusher.looping <;> rfl
  | tick => rfl
  | wake =>
    simp only [tick?, happen, tidy.wake_eq]
    cases x.pusher.looping <;> rfl

/-- A step is a tick, or the controller rests. -/
theorem tick?_cases (clock : Nat → Timestamp) (tidy : x.pusher.Tidy) (h : Happening) :
    (x.tick? clock h = some (x.pusher.controller.tick clock x.provider).1 ∧
      Ticked clock x (x.happen clock h).2) ∨
    (x.tick? clock h = none ∧ Rested x (x.happen clock h).2 ∧
      ((x.happen clock h).2.session = x.session ∨
        ∃ o, (x.happen clock h).2.session = (x.session.perform clock o).2)) := by
  obtain ⟨-, -, ⟨one, ticked⟩ | ⟨none_, rested, same⟩⟩ := happen_cases clock tidy h
  · exact .inl ⟨if_neg (by rw [one]; exact Nat.one_ne_zero), ticked⟩
  · refine .inr ⟨if_pos none_, rested, ?_⟩
    rcases same with still | ⟨o, -, performed⟩
    · exact .inl still
    · exact .inr ⟨o, performed⟩

theorem Gathered.happen {ts : List Tick} (gathered : Gathered m mode ts x) (tidy : x.pusher.Tidy)
    (h : Happening) :
    Gathered m mode (ts ++ (x.tick? clock h).toList) (x.happen clock h).2 := by
  rcases tick?_cases clock tidy h with ⟨now, ticked⟩ | ⟨none_, rested, same⟩
  · have left : (x.happen clock h).2.provider = (x.provider.collect clock m).2 := by
      rw [provider, ticked.session, gathered.meter]
    have reach : Client.Reach clock (fun _ => True) True x.session.client
        (x.happen clock h).2.session.client := by
      rw [ticked.session]
      exact Client.reach_of_provider (Provider.reach_collect clock trivial x.provider.within_all)
    have later := gathered.configured.linked.later reach
    rw [now, Option.toList_some]
    refine ⟨gathered.configured.reach reach, ticked.meter.trans gathered.meter, ?_, ?_, ?_, ?_⟩
    · rw [ticked.processor, gathered.processor, List.map_append, List.map_singleton,
        Processor.after_concat]
      rfl
    · rw [List.map_append, List.map_singleton, List.map_append, List.map_singleton,
        Processor.batches_concat, gathered.batches, ← gathered.processor]
      rfl
    · rw [ticked.handed, gathered.handed, List.map_append]
      rfl
    · intro r member
      rw [List.map_append, List.flatten_append, List.map_singleton, List.flatten_singleton] at member
      rcases List.mem_append.1 member with old | new
      · exact later.aggregation? (gathered.known r old)
      · have collected : r ∈ (x.provider.collect clock m).1 := gathered.meter ▸ new
        rw [left]
        exact gathered.configured.collected clock collected
  · have reach : Client.Reach clock (fun _ => True) True x.session.client
        (x.happen clock h).2.session.client := by
      rcases same with still | ⟨o, performed⟩
      · rw [still]
      · rw [performed]
        exact Session.reach_perform x.session.provider.within_all o (x.session.allows_all o)
    have later := gathered.configured.linked.later reach
    rw [none_, Option.toList_none, List.append_nil]
    exact ⟨gathered.configured.reach reach, rested.meter.trans gathered.meter,
      rested.processor.trans gathered.processor, gathered.batches,
      rested.handed.trans gathered.handed, fun r member => later.aggregation? (gathered.known r member)⟩

theorem Gathered.run (hs : List Happening) : ∀ {x : Lifecycle ε} {ts : List Tick},
    Gathered m mode ts x → x.pusher.Tidy →
      Gathered m mode (ts ++ x.ticks clock hs) (x.run clock hs).2 := by
  induction hs with
  | nil =>
    intro x ts gathered _
    rw [ticks, List.append_nil]
    exact gathered
  | cons h rest ih =>
    intro x ts gathered tidy
    rw [ticks, ← List.append_assoc]
    exact ih (gathered.happen tidy h) (happen_cases clock tidy h).1

end Lifecycle

/-! ## Exports to memory that fail now and then -/

/-- An exporter to memory that is set to fail, or not to, before every export: by a pattern that says
of each export, counted from zero, whether it is to fail. -/
structure FaultyExporter where
  memory : MemoryExporter
  fails : Nat → Bool
  /-- The number of exports so far. -/
  exports : Nat

namespace FaultyExporter

/-- An exporter that has taken nothing. -/
def ofPattern (fails : Nat → Bool) : FaultyExporter := ⟨.empty, fails, 0⟩

/-- Takes a batch, unless the export is to fail. -/
def send (e : FaultyExporter) (batch : List Record) : Except Error Unit × FaultyExporter :=
  let (outcome, memory) := { e.memory with failing := e.fails e.exports }.send batch
  (outcome, { e with memory, exports := e.exports + 1 })

instance : Exporter FaultyExporter := ⟨send⟩

/-- Of some batches, those whose exports do not fail. -/
def surviving (fails : Nat → Bool) (batches : List (List Record)) : List (List Record) :=
  (batches.zipIdx.filter fun b => !fails b.2).map Prod.fst

/-- What an export comes to. -/
def outcome (fails : Nat → Bool) (n : Nat) : Except Error Unit :=
  if fails n then .error (.exportFailed .setToFail) else .ok ()

theorem surviving_concat (fails : Nat → Bool) (batches : List (List Record)) (batch : List Record) :
    surviving fails (batches ++ [batch]) =
      surviving fails batches ++ if fails batches.length then [] else [batch] := by
  simp only [surviving, List.zipIdx_append, List.zipIdx_singleton, Nat.zero_add, List.filter_append,
    List.map_append]
  cases broken : fails batches.length with
  | true => rw [List.filter_cons_of_neg (by simp [broken])]; rfl
  | false => rw [List.filter_cons_of_pos (by simp [broken])]; rfl

theorem surviving_of_never {fails : Nat → Bool} (never : ∀ n, fails n = false)
    (batches : List (List Record)) : surviving fails batches = batches := by
  induction batches using List.reverseRecOn with
  | nil => rfl
  | append_singleton batches batch ih => rw [surviving_concat, ih, never]; rfl

theorem length_surviving (fails : Nat → Bool) (batches : List (List Record)) :
    (surviving fails batches).length = (List.range batches.length).countP fun n => !fails n := by
  induction batches using List.reverseRecOn with
  | nil => rfl
  | append_singleton batches batch ih =>
    rw [surviving_concat, List.length_append, ih, List.length_append, List.length_singleton,
      List.range_succ, List.countP_append]
    cases broken : fails batches.length <;> simp [broken]

/-- A batch whose export does not fail stands behind as many batches as there were such exports
before. -/
theorem getElem?_surviving {fails : Nat → Bool} {batches : List (List Record)} {batch : List Record}
    {n : Nat} (number : batches[n]? = some batch) (works : fails n = false) :
    (surviving fails batches)[(List.range n).countP fun j => !fails j]? = some batch := by
  induction batches using List.reverseRecOn with
  | nil => cases number
  | append_singleton batches last ih =>
    rw [surviving_concat]
    rcases Nat.lt_or_ge n batches.length with before | here
    · rw [List.getElem?_append_left before] at number
      have found := ih number
      rw [List.getElem?_append_left (List.getElem?_eq_some_iff.1 found).1]
      exact found
    · rw [List.getElem?_append_right here] at number
      have zero : n = batches.length := by
        have := (List.getElem?_eq_some_iff.1 number).1
        rw [List.length_singleton] at this
        omega
      subst zero
      rw [Nat.sub_self] at number
      rw [← length_surviving, List.getElem?_append_right (Nat.le_refl _), Nat.sub_self, works]
      exact number

/-- The exporter has been handed some batches, and has kept those whose exports do not fail. -/
structure Kept (fails : Nat → Bool) (handed : List (List Record)) (e : FaultyExporter) : Prop where
  pattern : e.fails = fails
  number : e.exports = handed.length
  batches : e.memory.batches = surviving fails handed

theorem kept_ofPattern (fails : Nat → Bool) : Kept fails [] (ofPattern fails) := ⟨rfl, rfl, rfl⟩

theorem Kept.send {fails : Nat → Bool} {handed : List (List Record)} {e : FaultyExporter}
    (kept : Kept fails handed e) (batch : List Record) :
    (e.send batch).1 = outcome fails handed.length ∧
      Kept fails (handed ++ [batch]) (e.send batch).2 := by
  have number : handed.length + 1 = (handed ++ [batch]).length := by
    rw [List.length_append, List.length_singleton]
  have taken := surviving_concat fails handed batch
  rw [FaultyExporter.send, MemoryExporter.send, outcome, kept.pattern, kept.number]
  cases broken : fails handed.length with
  | true =>
    rw [broken, if_pos rfl, List.append_nil] at taken
    exact ⟨rfl, rfl, number, kept.batches.trans taken.symm⟩
  | false =>
    rw [broken, if_neg Bool.false_ne_true] at taken
    refine ⟨rfl, rfl, number, Eq.trans ?_ taken.symm⟩
    exact congrArg (· ++ [batch]) kept.batches

end FaultyExporter

namespace Lifecycle

variable {x : Lifecycle FaultyExporter} {fails : Nat → Bool}

/-- What became of the ticks so far: their exports came to what the pattern says, and the exporter
keeps their batches accordingly. -/
structure Exported (fails : Nat → Bool) (ts : List Tick) (x : Lifecycle FaultyExporter) : Prop where
  handed : x.handed = ts.map Tick.batch
  kept : FaultyExporter.Kept fails x.handed x.pusher.controller.exporter.inner
  outcomes : ∀ n t, ts[n]? = some t → t.outcome = FaultyExporter.outcome fails n

theorem exported_begin (clock : Nat → Timestamp) (before : List Operation) {m : String}
    {mode : Processor.Mode} {schedule : Schedule} {c : Controller (Noting FaultyExporter)}
    (made : Controller.make m mode ⟨.ofPattern fails, []⟩ schedule = .ok c) :
    Exported fails [] (begin clock before c) := by
  unfold Controller.make at made
  split at made <;> cases made
  exact ⟨rfl, FaultyExporter.kept_ofPattern fails, fun _ _ none_ => nomatch none_⟩

theorem Exported.happen {ts : List Tick} (exported : Exported fails ts x) (tidy : x.pusher.Tidy)
    (h : Happening) :
    Exported fails (ts ++ (x.tick? clock h).toList) (x.happen clock h).2 := by
  have exporter := exporter_happen clock tidy h
  rcases tick?_cases clock tidy h with ⟨now, ticked⟩ | ⟨none_, rested, -⟩
  · rw [now] at exporter
    obtain ⟨came, kept⟩ :=
      exported.kept.send (x.pusher.controller.tick clock x.provider).1.batch
    have inner : (x.happen clock h).2.pusher.controller.exporter.inner = _ :=
      congrArg Noting.inner exporter
    have length : x.handed.length = ts.length := by rw [exported.handed, List.length_map]
    rw [now, Option.toList_some]
    refine ⟨?_, ?_, fun n t found => ?_⟩
    · rw [ticked.handed, exported.handed, List.map_append]
      rfl
    · rw [inner, ticked.handed]
      exact kept
    · rcases Nat.lt_or_ge n ts.length with before | here
      · rw [List.getElem?_append_left before] at found
        exact exported.outcomes n t found
      · have last : n = ts.length := by
          have := (List.getElem?_eq_some_iff.1 found).1
          rw [List.length_append, List.length_singleton] at this
          omega
        rw [last, List.getElem?_concat_length] at found
        cases found
        rw [last, ← length]
        exact came
  · rw [none_] at exporter
    rw [none_, Option.toList_none, List.append_nil]
    refine ⟨rested.handed.trans exported.handed, ?_, exported.outcomes⟩
    rw [rested.handed, congrArg Noting.inner exporter]
    exact exported.kept

theorem Exported.run (hs : List Happening) : ∀ {x : Lifecycle FaultyExporter} {ts : List Tick},
    Exported fails ts x → x.pusher.Tidy →
      Exported fails (ts ++ x.ticks clock hs) (x.run clock hs).2 := by
  induction hs with
  | nil =>
    intro x ts exported _
    rw [ticks, List.append_nil]
    exact exported
  | cons h rest ih =>
    intro x ts exported tidy
    rw [ticks, ← List.append_assoc]
    exact ih (exported.happen tidy h) (happen_cases clock tidy h).1

/-- Two runs of the same program and the same controller, whose exports to memory fail by any two
patterns, have the same answers from every step and the same ticks, which hand out the same batches,
return the same numbers and differ only in what their exports come to; they leave the same session,
with all its meters, and the same processor, also if the controller is then dropped.

An export fails just when its pattern says so, and the batches in memory are the others: of those
that a run keeps whose exports never fail, those at the ticks whose exports do not fail. With memory,
each of these takes in all that was collected for the ticks before it and for its own, and it is
found in its place among those that are kept. -/
theorem failures_change_nothing (clock : Nat → Timestamp) (before : List Operation) (m : String)
    (mode : Processor.Mode) (schedule : Schedule) (fails fails' : Nat → Bool)
    (c c' : Controller (Noting FaultyExporter))
    (made : Controller.make m mode ⟨.ofPattern fails, []⟩ schedule = .ok c)
    (made' : Controller.make m mode ⟨.ofPattern fails', []⟩ schedule = .ok c')
    (hs : List Happening) :
    let ticks := (begin clock before c).ticks clock hs
    let ticks' := (begin clock before c').ticks clock hs
    let y := ((begin clock before c).run clock hs).2
    let y' := ((begin clock before c').run clock hs).2
    let kept := y.pusher.controller.exporter.inner.memory.batches
    let kept' := y'.pusher.controller.exporter.inner.memory.batches
    ((begin clock before c).run clock hs).1 = ((begin clock before c').run clock hs).1 ∧
    ticks.map Tick.blind = ticks'.map Tick.blind ∧
    ticks.map (fun t => t.batch.length) = ticks'.map (fun t => t.batch.length) ∧
    y.handed = ticks.map Tick.batch ∧ y'.handed = y.handed ∧
    y.session = y'.session ∧
    y.pusher.controller.processor = y'.pusher.controller.processor ∧
    (y.drop clock).session = (y'.drop clock).session ∧
    (y.drop clock).handed = (y'.drop clock).handed ∧
    (∀ n t, ticks[n]? = some t → t.outcome = FaultyExporter.outcome fails n) ∧
    kept = FaultyExporter.surviving fails y.handed ∧
    ((∀ n, fails' n = false) → kept = FaultyExporter.surviving fails kept') ∧
    (mode = .stateful → ∀ n t, ticks[n]? = some t →
      Processor.Covers ((ticks.take (n + 1)).map Tick.collected) t.batch ∧
      (fails n = false → kept[(List.range n).countP fun j => !fails j]? = some t.batch)) := by
  intro ticks ticks' y y' kept kept'
  have alike : (begin clock before c).blind = (begin clock before c').blind := by
    unfold Controller.make at made made'
    split at made <;> cases made
    split at made' <;> cases made'
    rfl
  obtain ⟨ran, ticked⟩ := blind_run clock hs (begin clock before c)
  obtain ⟨ran', ticked'⟩ := blind_run clock hs (begin clock before c')
  rw [alike] at ran ticked
  have same := ran.symm.trans ran'
  have left : y.blind = y'.blind := (Prod.mk.inj same).2
  have traces : ticks.map Tick.blind = ticks'.map Tick.blind := ticked.symm.trans ticked'
  have session : y.session = y'.session := congrArg (fun x : Lifecycle Unit => x.session) left
  have handed : y.handed = y'.handed :=
    congrArg (fun x : Lifecycle Unit => x.pusher.controller.exporter.handed) left
  have processor : y.pusher.controller.processor = y'.pusher.controller.processor :=
    congrArg (fun x : Lifecycle Unit => x.pusher.controller.processor) left
  have dropped : (y.drop clock).blind = (y'.drop clock).blind := by
    rw [← blind_drop, ← blind_drop, left]
  have tidy : (begin clock before c).pusher.Tidy := (attends_begin clock made).1
  have tidy' : (begin clock before c').pusher.Tidy := (attends_begin clock made').1
  have exported : Exported fails ticks y := (exported_begin clock before made).run hs tidy
  have exported' : Exported fails' ticks' y' := (exported_begin clock before made').run hs tidy'
  refine ⟨(Prod.mk.inj same).1, traces, ?_, exported.handed, handed.symm, session, processor,
    congrArg (fun x : Lifecycle Unit => x.session) dropped,
    congrArg (fun x : Lifecycle Unit => x.pusher.controller.exporter.handed) dropped,
    exported.outcomes, exported.kept.batches, fun never => ?_, fun stateful n t number => ⟨?_, ?_⟩⟩
  · have lengths := congrArg (List.map fun t : Tick => t.batch.length) traces
    rw [List.map_map, List.map_map] at lengths
    exact lengths
  · have all : kept' = y'.handed :=
      exported'.kept.batches.trans (FaultyExporter.surviving_of_never never _)
    rw [all, ← handed]
    exact exported.kept.batches
  · subst stateful
    have gathered : Gathered m .stateful ticks y := (gathered_begin clock before made).run hs tidy
    exact gathered.covers number
  · intro works
    have batch : y.handed[n]? = some t.batch := by
      rw [exported.handed, List.getElem?_map, number]
      rfl
    rw [show kept = FaultyExporter.surviving fails y.handed from exported.kept.batches]
    exact FaultyExporter.getElem?_surviving batch works

/-- A counter is updated before and between four ticks, of which the loop takes one and the end of the
schedule another. The first two exports fail: the third batch, the first that is kept, has the updates
before them too. -/
theorem first_kept_batch_makes_up :
    let clock : Nat → Timestamp := fun n => ⟨n⟩
    let before : List Operation :=
      [.create "g" "m" ⟨"hits", "", "", .counter, .int64, true⟩ none []]
    let fails : Nat → Bool := fun n => n < 2
    let controller : (Nat → Bool) → Controller (Noting FaultyExporter) := fun fails =>
      ⟨"m", .default, .empty .stateful, ⟨.ofPattern fails, []⟩, .idle⟩
    let hs : List Happening := [.program (.update "g" (.integer 5) .empty), .tick, .start,
      .program (.update "g" (.integer 3) .empty), .wake,
      .program (.update "g" (.integer 4) .empty), .tick, .stop]
    let ticks := (begin clock before (controller fails)).ticks clock hs
    let kept := ((begin clock before (controller fails)).run clock hs).2
      |>.pusher.controller.exporter.inner.memory.batches
    let kept' := ((begin clock before (controller fun _ => false)).run clock hs).2
      |>.pusher.controller.exporter.inner.memory.batches
    ticks.map (fun t => t.batch.map Record.value) =
        [[.sum (.integer 5)], [.sum (.integer 8)], [.sum (.integer 12)], [.sum (.integer 12)]] ∧
      kept = FaultyExporter.surviving fails kept' ∧
      ∃ t, ticks[2]? = some t ∧ kept[0]? = some t.batch ∧
        Processor.Covers ((ticks.take 3).map Tick.collected) t.batch := by
  intro clock before fails controller hs ticks kept kept'
  have values : ticks.map (fun t => t.batch.map Record.value) =
      [[.sum (.integer 5)], [.sum (.integer 8)], [.sum (.integer 12)], [.sum (.integer 12)]] := by
    decide +kernel
  obtain ⟨-, -, -, -, -, -, -, -, -, -, -, clean, each⟩ :=
    failures_change_nothing clock before "m" .stateful .default fails (fun _ => false)
      (controller fails) (controller fun _ => false) rfl rfl hs
  have three : 2 < ticks.length := by
    have length := congrArg List.length values
    rw [List.length_map] at length
    rw [length]
    decide
  have third := List.getElem?_eq_getElem three
  obtain ⟨covers, found⟩ := each rfl 2 _ third
  exact ⟨values, clean fun _ => rfl, _, third, found rfl, covers⟩

end Lifecycle

end Metering
