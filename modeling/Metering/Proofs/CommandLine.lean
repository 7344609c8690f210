import Metering.CommandLine
import Metering.Proofs.Workload.Output
import Metering.Proofs.Workload.Synthetic
import Metering.Proofs.Workload.Totals

/-!
# What the program prints

The program plays a workload exactly if its arguments are understood and nothing in them is refused
(`finished_iff`). It then ticks once, and whatever the workload is read or made up from, what it
prints tells of all steps that were accepted (`finished_tells`).
-/

namespace Metering.CommandLine

open Text Workload

section Finished

variable [Generator] {clock : Nat → Timestamp} {reader : Reader} {entropy : UInt64}
  {texts : List String} {output : String} {a : Arguments} {schedule : Schedule}
  {given : List Step} {r : Workload.Run}

/-! ## Running to the end -/

/-- Nothing in the arguments is refused, and there are steps to play. -/
structure Ready (reader : Reader) (entropy : UInt64) (a : Arguments) (schedule : Schedule)
    (given : List Step) : Prop where
  valid : a.validate = .ok ()
  period : Schedule.ofPeriod a.period = .schedule schedule
  timing : { schedule with timeout := .ofSeconds a.timeout }.validate = .ok ()
  steps : CommandLine.steps reader entropy a = .ok given

/-- A run starts as the arguments say. -/
def Starts (a : Arguments) (schedule : Schedule) (r : Workload.Run) : Prop :=
  Run.start a.meter a.boundaries (.ofBool a.stateful) a.format
    { schedule with timeout := .ofSeconds a.timeout } = .ok r

theorem prepare_of_ready (ready : Ready reader entropy a schedule given)
    (starts : Starts a schedule r) : prepare reader entropy a = .ok ⟨r, given, a.intervalMs⟩ := by
  rw [prepare, ready.valid, ready.period, ready.steps]
  dsimp only
  rw [start, starts]
  rfl

/-- A run starts, or there is another outcome than that of a run. -/
theorem ready_or_refused (reader : Reader) (entropy : UInt64) (a : Arguments) :
    (∃ schedule given r, Ready reader entropy a schedule given ∧ Starts a schedule r) ∨
      ∃ outcome, prepare reader entropy a = .error outcome ∧
        ∀ output, outcome ≠ .finished output := by
  rw [prepare]
  cases valid : a.validate with
  | error fault => exact .inr ⟨_, rfl, nofun⟩
  | ok _ =>
    cases period : Schedule.ofPeriod a.period with
    | refused fault => exact .inr ⟨_, rfl, nofun⟩
    | unrepresentable => exact .inr ⟨_, rfl, nofun⟩
    | schedule s =>
      cases loaded : steps reader entropy a with
      | error fault => exact .inr ⟨_, rfl, nofun⟩
      | ok given =>
        cases starts : Run.start a.meter a.boundaries (.ofBool a.stateful) a.format
            { s with timeout := .ofSeconds a.timeout } with
        | error e =>
          dsimp only
          rw [start, starts]
          exact .inr ⟨_, rfl, nofun⟩
        | ok r =>
          exact .inl ⟨s, given, r, ⟨valid, period, (Run.of_start starts).1, loaded⟩, starts⟩

/-- The program finishes by playing all steps with one tick at the end. -/
theorem run_of_ready (understood : Arguments.read texts = .ok a)
    (ready : Ready reader entropy a schedule given) (starts : Starts a schedule r) :
    run clock reader entropy texts = .finished (r.playAll clock 0 given).2.output := by
  rw [run, understood]
  dsimp only
  rw [prepare_of_ready ready starts]

theorem ready_of_finished (finished : run clock reader entropy texts = .finished output) :
    ∃ a schedule given r, Arguments.read texts = .ok a ∧ Ready reader entropy a schedule given ∧
      Starts a schedule r ∧ output = (r.playAll clock 0 given).2.output := by
  cases understood : Arguments.read texts with
  | error fault =>
    rw [run, understood] at finished
    cases fault <;> cases finished
  | ok a =>
    rcases ready_or_refused reader entropy a with ⟨schedule, given, r, ready, starts⟩ | refused
    · rw [run_of_ready understood ready starts] at finished
      exact ⟨a, schedule, given, r, rfl, ready, starts, (Outcome.finished.inj finished).symm⟩
    · obtain ⟨outcome, prepared, other⟩ := refused
      rw [run, understood] at finished
      dsimp only at finished
      rw [prepared] at finished
      exact absurd finished (other output)

/-- A run starts whenever nothing is refused. -/
theorem starts_of_ready (ready : Ready reader entropy a schedule given) :
    ∃ r, Starts a schedule r := by
  obtain ⟨r, starts, -⟩ := Run.start_of_validate (validate_of_arguments ready.valid) ready.timing
    a.meter (.ofBool a.stateful) a.format
  exact ⟨r, starts⟩

/-- The program plays a workload to its end exactly if its arguments are understood, nothing in them
is refused, and there are steps to play. -/
theorem finished_iff : (∃ output, run clock reader entropy texts = .finished output) ↔
    ∃ a schedule given, Arguments.read texts = .ok a ∧ Ready reader entropy a schedule given := by
  constructor
  · rintro ⟨output, finished⟩
    obtain ⟨a, schedule, given, r, understood, ready, -⟩ := ready_of_finished finished
    exact ⟨a, schedule, given, understood, ready⟩
  · rintro ⟨a, schedule, given, understood, ready⟩
    obtain ⟨r, starts⟩ := starts_of_ready ready
    exact ⟨_, run_of_ready understood ready starts⟩

/-! ## What is told in the end -/

variable [Generator.Lawful]

/-- Steps that are read or made up have finite values, and labels that fit on a line. -/
theorem fit_of_steps (loaded : steps reader entropy a = .ok given) :
    ∀ s ∈ given, s.value.isFinite = true ∧ OneLine s.labels.canonical := by
  rw [steps] at loaded
  cases input : a.input with
  | none =>
    rw [input] at loaded
    cases loaded
    intro s member
    have drawable := ((synthetic_drawable _ _).2 s member).1
    exact ⟨Step.isFinite_of_isDrawable drawable, Step.oneLine_of_isDrawable drawable⟩
  | some path =>
    rw [input] at loaded
    dsimp only at loaded
    cases text : readText reader path with
    | error fault =>
      rw [text] at loaded
      cases loaded
    | ok text_ =>
      rw [text] at loaded
      exact fun s member => ⟨(of_read loaded).1 s member, oneLine_of_read loaded s member⟩

/-- A program that finishes has played the steps of its arguments with one tick. If they are few
enough to be counted, the batch of that tick tells of all that were accepted. As text it is printed
framed. -/
theorem finished_tells (finished : run clock reader entropy texts = .finished output) :
    ∃ a schedule given r t, Arguments.read texts = .ok a ∧
      Ready reader entropy a schedule given ∧ Starts a schedule r ∧
      (r.playAll clock 0 given).1.filterMap Run.Event.tick? = [t] ∧
      output = (r.playAll clock 0 given).2.output ∧
      ((given.length : Int) ≤ Number.limit → Tells (given.filter Step.accepted) t.batch) ∧
      (a.format = .text → Framed [t] output) := by
  obtain ⟨a, schedule, given, r, understood, ready, starts, rfl⟩ := ready_of_finished finished
  have fit := fit_of_steps ready.steps
  have valid := validate_of_arguments ready.valid
  have one : ((r.playAll clock 0 given).1.filterMap Run.Event.tick?).length = 1 := by
    rw [Run.playAll_eq_rounds, Run.length_ticks, Run.length_groups, Nat.div_zero, Nat.div_zero]
  obtain ⟨t, ticks⟩ := List.length_eq_one_iff.1 one
  refine ⟨a, schedule, given, r, t, understood, ready, starts, ticks, rfl, fun short => ?_,
    fun text => ?_⟩
  · obtain ⟨r', started, -, -, -, tells, -⟩ := totals_of_playAll (fun s member => (fit s member).1)
      short valid ready.timing a.meter (.ofBool a.stateful) a.format clock 0
    rw [Except.ok.inj (started.symm.trans starts), ticks] at tells
    rwa [List.map_singleton, Processor.final_singleton] at tells
  · rw [Starts, text] at starts
    obtain ⟨r', started, -, framed⟩ := framed_of_playAll (fun s member => (fit s member).1)
      (fun s member => (fit s member).2) valid ready.timing a.meter (.ofBool a.stateful) clock 0
    rw [Except.ok.inj (started.symm.trans starts), ticks] at framed
    exact framed

end Finished

/-- Without steps the program tells that none was applied. -/
theorem finished_without_steps :
    let output := "--- export #1 (1 records)\noperations_applied\x7b\x7d sum 0 @ 0\n"
    run (fun _ => default) (fun _ => .error .notFound) 0 ["-n0"] = .finished output ∧
      ∃ t : Tick, Tells [] t.batch ∧ Framed [t] output := by
  intro output
  have finished : run (fun _ => default) (fun _ => .error .notFound) 0 ["-n0"] =
      .finished output := by decide +kernel
  have understood : Arguments.read ["-n0"] = .ok { Arguments.default with iterations := 0 } := by
    decide +kernel
  obtain ⟨a, schedule, given, r, t, same, ready, -, -, -, tells, framed⟩ := finished_tells finished
  cases same.symm.trans understood
  have none_ : given = [] := (Except.ok.inj ready.steps).symm
  subst none_
  exact ⟨finished, t, tells (by decide), framed rfl⟩

end Metering.CommandLine
