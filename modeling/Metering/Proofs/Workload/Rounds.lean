import Metering.Proofs.Processor.Cycle
import Metering.Proofs.Workload.Run

/-!
# Rounds of a run

However ticks are placed among the steps of a workload, if one comes at the end then the steps fall
into groups with a tick after each: `Run.rounds`. A run starts holding nothing, so each tick collects
what the steps of its group gave, and the batches are those of a processor for what was collected.
-/

namespace Metering

namespace Workload

variable {boundaries : List Float} {clock : Nat → Timestamp} {recent : List Step}

/-! ## The start of a run -/

namespace Part

/-- The callback with which the instrument is registered. -/
def callback : Part → Option Callback
  | of _ => none
  | progress => some progressCallback

/-- The instrument when it is registered. -/
def new (boundaries : List Float) (part : Part) : Instrument :=
  .new part.descriptor (part.aggregation boundaries) part.callback

/-- The instruments of a run in the order in which they are registered. -/
def inTurn : List Part := [of .counter, of .upDownCounter, of .valueRecorder, progress]

/-- Instruments of a run by their names. -/
def register (taken : Keyed String Part) (parts : List Part) : Keyed String Part :=
  parts.foldl (fun m part => m.insert part.name part) taken

/-- All of them. -/
def registered : Keyed String Part := register ∅ inTurn

theorem keys_registered : registered.keys = all.map name := by decide +kernel

theorem get?_registered (part : Part) : registered.get? part.name = some part := by
  have each : ∀ part ∈ all, registered.get? part.name = some part := by decide +kernel
  exact each part part.mem_all

theorem recorderAggregation_ne_sum (boundaries : List Float) :
    recorderAggregation boundaries ≠ .sum := by
  unfold recorderAggregation
  split <;> exact fun same => nomatch same

/-- The boundaries of the recorder are all that can be refused of an instrument. -/
theorem check_of_validate (valid : (recorderAggregation boundaries).validate = .ok ())
    (part : Part) : Meter.check part.descriptor (part.aggregation boundaries) = .ok () := by
  cases part with
  | of t =>
    cases t with
    | counter => rfl
    | upDownCounter => rfl
    | valueRecorder =>
      have named : Target.valueRecorder.descriptor.name.isEmpty = false := by decide
      have free : ¬ (decide (Target.valueRecorder.descriptor.kind = .valueRecorder) &&
          decide (recorderAggregation boundaries = .sum)) = true := by
        rw [decide_eq_false (recorderAggregation_ne_sum boundaries), Bool.and_false]
        exact Bool.false_ne_true
      change Meter.check Target.valueRecorder.descriptor (recorderAggregation boundaries) = _
      rw [Meter.check, if_neg free, named, if_neg Bool.false_ne_true, valid]
  | progress => rfl

end Part

/-- An instrument whose name is free is registered. -/
theorem register_part (valid : (recorderAggregation boundaries).validate = .ok ())
    (taken : Keyed String Part) (part : Part) (free : taken.contains part.name = false) :
    (⟨taken.map (Part.new boundaries)⟩ : Meter).register part.descriptor
        (part.aggregation boundaries) part.callback =
      .ok ⟨(taken.insert part.name part).map (Part.new boundaries)⟩ := by
  have absent : (taken.map (Part.new boundaries)).contains part.descriptor.name = false := by
    rw [part.descriptor_name, Keyed.contains, Keyed.get?_map, Option.isSome_map]
    exact free
  have inserted : (taken.map (Part.new boundaries)).insert part.name (part.new boundaries) =
      (taken.insert part.name part).map (Part.new boundaries) := by
    refine Keyed.ext_get? fun k => ?_
    rw [Keyed.get?_map]
    by_cases at_ : part.name = k
    · rw [at_, Keyed.get?_insert_self, Keyed.get?_insert_self, Option.map_some]
    · rw [Keyed.get?_insert_of_ne _ _ at_, Keyed.get?_insert_of_ne _ _ at_, Keyed.get?_map]
  rw [Meter.register, Part.check_of_validate valid part]
  dsimp only
  rw [absent, if_neg Bool.false_ne_true, ← inserted, part.descriptor_name]
  rfl

/-- Instruments are registered one after the other. -/
theorem register_parts (valid : (recorderAggregation boundaries).validate = .ok ())
    (parts : List Part) : ∀ taken : Keyed String Part, parts.Nodup →
      (∀ part ∈ parts, taken.contains part.name = false) →
        parts.foldlM (fun m part => m.register part.descriptor (part.aggregation boundaries)
            part.callback) (⟨taken.map (Part.new boundaries)⟩ : Meter) =
          .ok ⟨(Part.register taken parts).map (Part.new boundaries)⟩ := by
  induction parts with
  | nil => exact fun _ _ _ => rfl
  | cons part rest ih =>
    intro taken distinct free
    obtain ⟨fresh, others⟩ := List.nodup_cons.1 distinct
    rw [List.foldlM_cons, register_part valid taken part (free part List.mem_cons_self)]
    refine ih _ others fun part' member => ?_
    have other : part.name ≠ part'.name := by
      intro same
      rw [part.name_inj part' same] at fresh
      exact fresh member
    rw [Keyed.contains, Keyed.get?_insert_of_ne _ _ other]
    exact free part' (List.mem_cons_of_mem _ member)

theorem register_of_validate (valid : (recorderAggregation boundaries).validate = .ok ()) :
    register boundaries .empty = .ok ⟨Part.registered.map (Part.new boundaries)⟩ := by
  have each : register boundaries .empty = Part.inTurn.foldlM (fun m part =>
      m.register part.descriptor (part.aggregation boundaries) part.callback) .empty := by
    simp only [register, Part.inTurn, List.foldlM_cons, List.foldlM_nil, bind_pure]
    rfl
  rw [each]
  exact register_parts valid Part.inTurn ∅ (by decide) fun _ _ => rfl

/-- A run starts with its instruments, which hold nothing, and with a processor that has seen no
records. -/
theorem Run.start_of_validate (valid : (recorderAggregation boundaries).validate = .ok ())
    {schedule : Schedule} (timing : schedule.validate = .ok ()) (meter : String)
    (mode : Processor.Mode) (format : TextStream.Format) :
    ∃ r, Run.start meter boundaries mode format schedule = .ok r ∧ r.Holds boundaries [] ∧
      r.controller.processor = .empty mode := by
  let kept : Meter := ⟨Part.registered.map (Part.new boundaries)⟩
  let provider := Provider.empty.use meter
  let controller : Controller TextStream := ⟨meter, schedule, .empty mode, .empty format, .idle⟩
  have started : Run.start meter boundaries mode format schedule =
      .ok ⟨meter, { provider with meters := provider.meters.insert meter kept }, controller, 0⟩ := by
    rw [Run.start, register_of_validate valid, Controller.make, timing]
    rfl
  have there : ∀ name, Provider.instrument? { provider with
      meters := provider.meters.insert meter kept } ⟨meter, name⟩ = kept.get? name :=
    fun name => (Provider.instrument?_insert_meter provider meter kept ⟨meter, name⟩).trans
      (if_pos rfl)
  refine ⟨_, started, ⟨rfl, ?_, fun part => ⟨part.new boundaries, ?_, ?_⟩⟩, rfl⟩
  · have found : Provider.meter { provider with meters := provider.meters.insert meter kept } meter =
        kept := by
      rw [Provider.meter, Keyed.get?_insert_self]
      rfl
    have keys : kept.names = Part.registered.keys := Keyed.keys_map _ _
    exact (congrArg Meter.names found).trans (keys.trans Part.keys_registered)
  · rw [there, Meter.get?, Keyed.get?_map, part.get?_registered, Option.map_some]
  · refine ⟨rfl, rfl, ?_, ?_⟩
    · cases part with
      | of t => rfl
      | progress => exact ⟨0, rfl⟩
    · rw [part.held_nil]
      exact Instrument.recent_of_empty fun l => rfl

/-! ## Rounds -/

namespace Run

/-- What a step came to, if the event is one. -/
def Event.result? : Event → Option (Except Error Unit)
  | applied result => some result
  | ticked _ => none

/-- What a tick came to, if the event is one. -/
def Event.tick? : Event → Option Tick
  | applied _ => none
  | ticked t => some t

/-- Applies steps one after the other. -/
def applyAll (r : Run) : List Step → List (Except Error Unit) × Run
  | [] => ([], r)
  | s :: rest =>
    let (result, r) := r.apply s
    let (more, r) := r.applyAll rest
    (result :: more, r)

/-- Applies groups of steps, and ticks after each of them. -/
def rounds (clock : Nat → Timestamp) (r : Run) : List (List Step) → List Event × Run
  | [] => ([], r)
  | g :: rest =>
    let (results, r) := r.applyAll g
    let (t, r) := r.tick clock
    let (more, r) := r.rounds clock rest
    (results.map .applied ++ .ticked t :: more, r)

/-- A step in front of the first of some groups. -/
def inFront (s : Step) : List (List Step) → List (List Step)
  | [] => [[s]]
  | g :: more => (s :: g) :: more

/-- The groups of a workload of which `done` steps came before, if there is a tick after every
`period` steps, and one at the end. -/
def groups (period done : Nat) : List Step → List (List Step)
  | [] => [[]]
  | s :: rest =>
    if 0 < period && (done + 1) % period = 0 then [s] :: groups period (done + 1) rest
    else inFront s (groups period (done + 1) rest)

theorem groups_ne_nil (period done : Nat) (steps : List Step) : groups period done steps ≠ [] := by
  cases steps with
  | nil => exact List.cons_ne_nil _ _
  | cons s rest =>
    rw [groups]
    split
    · exact List.cons_ne_nil _ _
    · cases groups period (done + 1) rest <;> exact List.cons_ne_nil _ _

theorem flatten_inFront (s : Step) (gs : List (List Step)) :
    (inFront s gs).flatten = s :: gs.flatten := by
  cases gs <;> rfl

theorem flatten_groups (period : Nat) (steps : List Step) : ∀ done,
    (groups period done steps).flatten = steps := by
  induction steps with
  | nil => exact fun _ => rfl
  | cons s rest ih =>
    intro done
    rw [groups]
    split
    · rw [List.flatten_cons, ih]
      rfl
    · rw [flatten_inFront, ih]

theorem length_inFront (s : Step) {gs : List (List Step)} (some_ : gs ≠ []) :
    (inFront s gs).length = gs.length := by
  cases gs with
  | nil => exact absurd rfl some_
  | cons g more => rfl

theorem flatten_take_inFront (s : Step) {gs : List (List Step)} (some_ : gs ≠ []) (n : Nat) :
    ((inFront s gs).take (n + 1)).flatten = s :: (gs.take (n + 1)).flatten := by
  cases gs with
  | nil => exact absurd rfl some_
  | cons g more => rfl

theorem due_iff (period done : Nat) :
    (0 < period && (done + 1) % period = 0) = true ↔ period ∣ done + 1 := by
  rw [Bool.and_eq_true, decide_eq_true_eq, decide_eq_true_eq, ← Nat.dvd_iff_mod_eq_zero]
  exact and_iff_right_of_imp fun divides => Nat.pos_of_dvd_of_pos divides (Nat.succ_pos done)

/-- There is a group for each step after which a tick is due, and one for the end. -/
theorem length_groups (period : Nat) (steps : List Step) : ∀ done,
    (groups period done steps).length = (done + steps.length) / period - done / period + 1 := by
  induction steps with
  | nil => exact fun done => (congrArg (· + 1) (Nat.sub_self (done / period))).symm
  | cons s rest ih =>
    intro done
    have later : (done + 1) / period ≤ (done + 1 + rest.length) / period :=
      Nat.div_le_div_right (Nat.le_add_right _ _)
    rw [List.length_cons, ← Nat.add_assoc, Nat.add_right_comm, groups]
    split
    · rename_i due
      have next := Nat.succ_div_of_dvd ((due_iff period done).1 due)
      rw [List.length_cons, ih]
      omega
    · rename_i quiet
      have next := Nat.succ_div_of_not_dvd (mt (due_iff period done).2 quiet)
      rw [length_inFront s (groups_ne_nil period (done + 1) rest), ih, next]

/-- The groups up to a tick have the steps before it. -/
theorem flatten_take_groups {period : Nat} (pos : 0 < period) (steps : List Step) : ∀ done n,
    ((groups period done steps).take (n + 1)).flatten =
      steps.take ((done / period + 1 + n) * period - done) := by
  induction steps with
  | nil =>
    intro done n
    rw [groups, List.take_succ_cons, List.take_nil, List.take_nil]
    rfl
  | cons s rest ih =>
    intro done n
    have ahead : done < (done / period + 1) * period := Nat.lt_mul_of_div_lt (Nat.lt_succ_self _) pos
    have cut : (done / period + 1 + n) * period - done =
        (done / period + 1 + n) * period - (done + 1) + 1 := by
      rw [Nat.add_mul]
      omega
    rw [cut, List.take_succ_cons, groups]
    split
    · rename_i due
      have divides := (due_iff period done).1 due
      have next := Nat.succ_div_of_dvd divides
      have whole := Nat.div_mul_cancel divides
      rw [next] at whole
      cases n with
      | zero =>
        rw [Nat.add_zero, whole, Nat.sub_self]
        rfl
      | succ n =>
        rw [List.take_succ_cons, List.flatten_cons, ih, next, ← Nat.add_assoc,
          Nat.add_right_comm _ n 1]
        rfl
    · rename_i quiet
      have next := Nat.succ_div_of_not_dvd (mt (due_iff period done).2 quiet)
      rw [flatten_take_inFront s (groups_ne_nil period (done + 1) rest), ih, next]

theorem rounds_inFront (clock : Nat → Timestamp) (r : Run) (s : Step) {gs : List (List Step)}
    (some_ : gs ≠ []) : r.rounds clock (inFront s gs) =
      (.applied (r.apply s).1 :: ((r.apply s).2.rounds clock gs).1,
        ((r.apply s).2.rounds clock gs).2) := by
  cases gs with
  | nil => exact absurd rfl some_
  | cons g more => rfl

theorem rounds_singleton_cons (clock : Nat → Timestamp) (r : Run) (s : Step)
    (gs : List (List Step)) :
    let ticked := (r.apply s).2.tick clock
    r.rounds clock ([s] :: gs) =
      ([Event.applied (r.apply s).1, Event.ticked ticked.1] ++ (ticked.2.rounds clock gs).1,
        (ticked.2.rounds clock gs).2) := by
  simp only [rounds, applyAll, List.map_cons, List.map_nil, List.cons_append, List.nil_append]

theorem play_tick_eq_rounds (clock : Nat → Timestamp) (period : Nat) (steps : List Step) :
    ∀ (done : Nat) (r : Run),
      ((r.play clock period done steps).1 ++
          [.ticked ((r.play clock period done steps).2.tick clock).1],
        ((r.play clock period done steps).2.tick clock).2) =
        r.rounds clock (groups period done steps) := by
  induction steps with
  | nil => exact fun _ _ => rfl
  | cons s rest ih =>
    intro done r
    rw [play, groups]
    by_cases due : (0 < period && (done + 1) % period = 0) = true
    · simp only [if_pos due]
      rw [rounds_singleton_cons, ← ih]
      rfl
    · simp only [if_neg due]
      rw [rounds_inFront clock r s (groups_ne_nil period (done + 1) rest), ← ih]
      rfl

/-- Playing a workload to its end is rounds of its steps. -/
theorem playAll_eq_rounds (clock : Nat → Timestamp) (period : Nat) (r : Run) (steps : List Step) :
    r.playAll clock period steps = r.rounds clock (groups period 0 steps) :=
  play_tick_eq_rounds clock period steps 0 r

/-! ## What rounds come to -/

theorem filterMap_tick?_applied (results : List (Except Error Unit)) :
    (results.map Event.applied).filterMap Event.tick? = [] := by
  rw [List.filterMap_map]
  exact List.filterMap_eq_nil_iff.2 fun _ _ => rfl

theorem filterMap_result?_applied (results : List (Except Error Unit)) :
    (results.map Event.applied).filterMap Event.result? = results := by
  rw [List.filterMap_map]
  exact List.filterMap_some

/-- There is one tick for each group. -/
theorem length_ticks (clock : Nat → Timestamp) (gs : List (List Step)) : ∀ r : Run,
    ((r.rounds clock gs).1.filterMap Event.tick?).length = gs.length := by
  induction gs with
  | nil => exact fun _ => rfl
  | cons g rest ih =>
    intro r
    change ((((r.applyAll g).1.map Event.applied) ++ _ :: _).filterMap Event.tick?).length = _
    rw [List.filterMap_append, filterMap_tick?_applied]
    exact congrArg (· + 1) (ih _)

/-- Just the steps that are accepted add to what the run holds. -/
theorem Holds.applyAll (g : List Step) : ∀ {r : Run} {recent : List Step},
    r.Holds boundaries recent → (∀ s ∈ g, s.value.isFinite = true) →
      (r.applyAll g).1.map Except.isOk = g.map Step.accepted ∧
        (r.applyAll g).2.Holds boundaries (recent ++ g.filter Step.accepted) ∧
        (r.applyAll g).2.controller = r.controller := by
  induction g with
  | nil =>
    intro r recent holds _
    rw [List.filter_nil, List.append_nil]
    exact ⟨rfl, holds, rfl⟩
  | cons s rest ih =>
    intro r recent holds finite
    have later := fun s' member => finite s' (List.mem_cons_of_mem s member)
    rw [Run.applyAll]
    cases accepted : s.accepted with
    | true =>
      obtain ⟨ok, next, same⟩ := holds.accept (finite s List.mem_cons_self) accepted
      obtain ⟨results, after, kept⟩ := ih next later
      rw [List.filter_cons_of_pos accepted, List.append_cons]
      refine ⟨?_, after, kept.trans same⟩
      rw [List.map_cons, results, List.map_cons, accepted, ok]
      rfl
    | false =>
      obtain ⟨e, refused⟩ := holds.refuse (finite s List.mem_cons_self) accepted
      obtain ⟨results, after, kept⟩ := ih holds later
      rw [List.filter_cons_of_neg (by rw [accepted]; exact Bool.false_ne_true), refused]
      refine ⟨?_, after, kept⟩
      rw [List.map_cons, results, List.map_cons, accepted]
      rfl

/-- Every tick collects what the accepted steps of its group gave, and the batches are those of the
processor. -/
theorem Holds.rounds (clock : Nat → Timestamp) (gs : List (List Step)) : ∀ {r : Run},
    r.Holds boundaries [] → (∀ s ∈ gs.flatten, s.value.isFinite = true) →
      let events := (r.rounds clock gs).1
      let ticks := events.filterMap Event.tick?
      (events.filterMap Event.result?).map Except.isOk = gs.flatten.map Step.accepted ∧
      List.Forall₂ (Gives boundaries) (gs.map (List.filter Step.accepted))
        (ticks.map Tick.collected) ∧
      ticks.map Tick.batch = r.controller.processor.batches (ticks.map Tick.collected) := by
  induction gs with
  | nil => exact fun _ _ => ⟨rfl, .nil, rfl⟩
  | cons g rest ih =>
    intro r holds finite
    rw [List.flatten_cons] at finite
    obtain ⟨results, held, same⟩ := holds.applyAll g fun s member =>
      finite s (List.mem_append_left _ member)
    obtain ⟨gives, after⟩ := held.tick clock
    obtain ⟨more, given, batches⟩ := ih after fun s member =>
      finite s (List.mem_append_right _ member)
    intro events ticks
    have ticked : ticks = ((r.applyAll g).2.tick clock).1 ::
        (((r.applyAll g).2.tick clock).2.rounds clock rest).1.filterMap Event.tick? := by
      change (((r.applyAll g).1.map Event.applied) ++ _ :: _).filterMap Event.tick? = _
      rw [List.filterMap_append, filterMap_tick?_applied]
      rfl
    have resulted : events.filterMap Event.result? = (r.applyAll g).1 ++
        (((r.applyAll g).2.tick clock).2.rounds clock rest).1.filterMap Event.result? := by
      change (((r.applyAll g).1.map Event.applied) ++ _ :: _).filterMap Event.result? = _
      rw [List.filterMap_append, filterMap_result?_applied]
      rfl
    rw [resulted, ticked, List.map_append, results, more, List.flatten_cons, List.map_append]
    refine ⟨rfl, .cons gives given, ?_⟩
    rw [List.map_cons, batches, ← same]
    rfl

end Run

end Workload

end Metering
