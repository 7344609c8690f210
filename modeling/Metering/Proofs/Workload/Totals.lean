import Metering.Proofs.Configuration
import Metering.Proofs.Labels
import Metering.Proofs.Processor.Final
import Metering.Proofs.Workload.Reader
import Metering.Proofs.Workload.Rounds

/-!
# Totals of workloads

What is exported of a workload in the end is what its steps add up to, wherever ticks fall among
them: under all labels the sums of the values of both counters, the number of the recorded values,
and the number of the steps that were accepted.
-/

namespace Metering.Workload

open Processor (seen final numberAt amountAt SumsTo)

variable {boundaries : List Float} {given : List (List Step)} {cs : List (List Record)}
  {part : Part} {l : String}

/-! ## What is collected of one series -/

/-- What some groups of steps give an instrument under some canonical labels. -/
def Part.valuesOf (part : Part) (l : String) (given : List (List Step)) : List Number :=
  (given.map fun g => valuesUnder (part.updates g) l).flatten

/-- The configuration of an instrument of a run, by its name. -/
def Part.aggregationOf (boundaries : List Float) (name : String) : Option Aggregation :=
  (Part.registered.get? name).map (Part.aggregation boundaries)

theorem Part.fits_aggregationOf (valid : (recorderAggregation boundaries).validate = .ok ())
    (name : String) (a : Aggregation) (known : Part.aggregationOf boundaries name = some a) :
    a.Fits a := by
  obtain ⟨part, -, rfl⟩ := Option.map_eq_some_iff.1 known
  exact Meter.fits_of_check (Part.check_of_validate valid part)

theorem mem_of_gives (gives : List.Forall₂ (Gives boundaries) given cs) {r : Record}
    (member : r ∈ cs.flatten) : ∃ part : Part,
      r.descriptor = part.descriptor ∧ r.value.shape = part.aggregation boundaries := by
  induction gives with
  | nil => cases member
  | cons first _ ih =>
    rcases List.mem_append.1 member with here | later
    · exact first.shapes r here
    · exact ih later

/-- All records of an instrument are configured as it is. -/
theorem known_of_gives (gives : List.Forall₂ (Gives boundaries) given cs) :
    ∀ r ∈ cs.flatten, Part.aggregationOf boundaries r.name = some r.value.shape := by
  intro r member
  obtain ⟨part, descriptor, shape⟩ := mem_of_gives gives member
  rw [Record.name, descriptor, part.descriptor_name, Part.aggregationOf, part.get?_registered,
    Option.map_some, shape]

theorem descriptor_of_gives (gives : List.Forall₂ (Gives boundaries) given cs) :
    ∀ r ∈ seen cs ⟨part.name, l⟩, r.descriptor = part.descriptor := by
  intro r member
  obtain ⟨among, at_⟩ := List.mem_filter.1 member
  obtain ⟨part', descriptor, -⟩ := mem_of_gives gives among
  have name : r.descriptor.name = part.name := congrArg SeriesKey.name (of_decide_eq_true at_)
  rw [descriptor, part'.descriptor_name] at name
  rw [descriptor, part'.name_inj part name]

/-- The records of a series take in what the groups gave it, in portions. -/
theorem portions_of_gives (gives : List.Forall₂ (Gives boundaries) given cs) (part : Part)
    (l : String) : ∃ portions : List (List Number), portions.flatten = part.valuesOf l given ∧
      (seen cs ⟨part.name, l⟩).map Record.value = portions.map
        (Aggregate.ofValues part.descriptor.numberKind (part.aggregation boundaries)) := by
  induction gives with
  | nil => exact ⟨[], rfl, rfl⟩
  | @cons g rs given cs first _ ih =>
    obtain ⟨portions, flat, values⟩ := ih
    obtain ⟨time, records⟩ := first.records
    have both : seen (rs :: cs) ⟨part.name, l⟩ =
        recordOfValues part.descriptor (part.aggregation boundaries) time l
          (valuesUnder (part.updates g) l) ++ seen cs ⟨part.name, l⟩ := by
      rw [seen, List.flatten_cons, List.filter_append, records]
      rfl
    have cut : part.valuesOf l (g :: given) =
        valuesUnder (part.updates g) l ++ part.valuesOf l given := rfl
    rw [both, List.map_append, values, cut, recordOfValues]
    split
    · rename_i none_
      exact ⟨portions, by rw [flat, none_, List.nil_append], rfl⟩
    · exact ⟨valuesUnder (part.updates g) l :: portions, by rw [List.flatten_cons, flat], rfl⟩

section Exported

variable (valid : (recorderAggregation boundaries).validate = .ok ())
  (gives : List.Forall₂ (Gives boundaries) given cs) (some_ : cs ≠ []) (mode : Processor.Mode)

include valid gives some_ in
/-- What is exported in the end of an instrument of integers is the sum of what it was given. -/
theorem sumsTo_of_gives (part : Part) (l : String)
    (integers : part.descriptor.numberKind = .int64)
    (sum : part.aggregation boundaries = .sum)
    (kinds : ∀ v ∈ part.valuesOf l given, v.kind = .int64)
    (bound : Number.magnitude (part.valuesOf l given) ≤ Number.limit) :
    SumsTo (final mode ((Processor.empty mode).batches cs)) ⟨part.name, l⟩
      (Number.exactSum (part.valuesOf l given)) := by
  obtain ⟨portions, flat, values⟩ := portions_of_gives gives part l
  rw [integers, sum] at values
  rw [← flat] at kinds bound ⊢
  have each : ∀ a ∈ portions.map (Aggregate.ofValues .int64 .sum), a.IntegerSum := by
    intro a member
    obtain ⟨vs, portion, rfl⟩ := List.mem_map.1 member
    exact Aggregate.integerSum_ofValues fun v held =>
      kinds v (List.mem_flatten.2 ⟨vs, portion, held⟩)
  have sums : ∀ r ∈ seen cs ⟨part.name, l⟩,
      r.descriptor = part.descriptor ∧ r.value.IntegerSum := by
    refine fun r member => ⟨descriptor_of_gives gives r member, each _ ?_⟩
    rw [← values]
    exact List.mem_map_of_mem member
  have totals : ((seen cs ⟨part.name, l⟩).map fun r => r.value.total) =
      (portions.map (Aggregate.ofValues .int64 .sum)).map Aggregate.total := by
    rw [← values, List.map_map]
    rfl
  have small := (Aggregate.magnitude_portions .sum kinds bound).trans bound
  rw [← totals] at small
  have amount : amountAt cs.flatten ⟨part.name, l⟩ = Number.exactSum portions.flatten := by
    have finite : ∀ v ∈ portions.flatten, v.isFinite = true :=
      fun v member => Number.isFinite_of_integer (kinds v member)
    have records : amountAt cs.flatten ⟨part.name, l⟩ =
        Aggregate.exactSum ((seen cs ⟨part.name, l⟩).map Record.value) := rfl
    rw [records, values, ← Aggregate.sum_amount_portions .sum kinds finite bound,
      Aggregate.exactSum, Number.exactSum, List.map_map]
    rfl
  rw [← amount]
  exact Processor.sumsTo_final (Part.fits_aggregationOf valid) mode some_ (known_of_gives gives) sums
    small

include valid gives some_ in
/-- What is exported in the end of an instrument that counts its values has the number of them. -/
theorem numberAt_of_gives (part : Part) (l : String)
    (other : part.aggregation boundaries ≠ .sum)
    (finite : ∀ v ∈ part.valuesOf l given, v.isFinite = true) :
    numberAt (final mode ((Processor.empty mode).batches cs)) ⟨part.name, l⟩ =
      (part.valuesOf l given).length := by
  obtain ⟨portions, flat, values⟩ := portions_of_gives gives part l
  rw [Processor.numberAt_final (Part.fits_aggregationOf valid) mode some_ (known_of_gives gives),
    ← flat]
  rw [← flat] at finite
  rw [← Aggregate.sum_number_portions part.descriptor.numberKind other finite, ← values,
    List.map_map]
  rfl

end Exported

/-! ## What steps add up to -/

/-- The value of a step as an integer. -/
def Step.integer (s : Step) : Int := (Binary64.toInt64 s.value).toInt

/-- Of some steps, those for the instrument of a target under some labels. -/
def stepsOf (t : Target) (labels : LabelSet) (steps : List Step) : List Step :=
  steps.filter fun s => s.target = t ∧ s.labels = labels

theorem valuesUnder_updates (t : Target) (labels : LabelSet) (steps : List Step) :
    valuesUnder ((Part.of t).updates steps) labels.canonical =
      (stepsOf t labels steps).map Step.number := by
  rw [valuesUnder, Part.updates, List.filter_map, List.map_map, List.filter_filter, stepsOf]
  refine congrArg (List.map Step.number) (List.filter_congr fun s _ => ?_)
  simp only [Function.comp, LabelSet.canonical_inj, Bool.decide_and, Bool.and_comm]

theorem valuesOf_target (t : Target) (labels : LabelSet) (given : List (List Step)) :
    (Part.of t).valuesOf labels.canonical given =
      (stepsOf t labels given.flatten).map Step.number := by
  rw [Part.valuesOf, stepsOf, List.filter_flatten, List.map_flatten, List.map_map]
  exact congrArg List.flatten (List.map_congr_left fun g _ => valuesUnder_updates t labels g)

theorem valuesOf_progress (given : List (List Step)) :
    Part.progress.valuesOf LabelSet.empty.canonical given =
      given.map fun g => .integer (Int64.ofIntClamp g.length) := by
  induction given with
  | nil => rfl
  | cons g rest ih => exact congrArg (Number.integer (Int64.ofIntClamp g.length) :: ·) ih

/-- Backlogs within the range add up to the number of all steps. -/
theorem exactSum_backlogs (given : List (List Step))
    (short : (given.flatten.length : Int) ≤ Number.limit) :
    let backlogs := given.map fun g => Number.integer (Int64.ofIntClamp g.length)
    Number.exactSum backlogs = given.flatten.length ∧
      Number.magnitude backlogs = given.flatten.length := by
  induction given with
  | nil => exact ⟨rfl, rfl⟩
  | cons g rest ih =>
    rw [List.flatten_cons, List.length_append, Int.natCast_add] at short ⊢
    obtain ⟨sum, magnitude⟩ := ih (by omega)
    have amount := Number.toInt_ofIntClamp g.length
    have := Number.limit_pos
    refine ⟨?_, ?_⟩
    · change (Int64.ofIntClamp g.length).toInt + Number.exactSum _ = _
      rw [sum]
      omega
    · change ((Int64.ofIntClamp g.length).toInt.natAbs : Int) + Number.magnitude _ = _
      rw [magnitude]
      omega

/-- What is exported tells of some steps, under all labels: what the values for either counter add up
to, as long as their magnitudes stay within the range, the number of recorded values, and the number
of steps. -/
structure Tells (steps : List Step) (exported : List Record) : Prop where
  requests : ∀ labels : LabelSet,
    Number.magnitude ((stepsOf .counter labels steps).map Step.number) ≤ Number.limit →
      SumsTo exported ⟨"requests", labels.canonical⟩
        ((stepsOf .counter labels steps).map Step.integer).sum
  inFlight : ∀ labels : LabelSet,
    Number.magnitude ((stepsOf .upDownCounter labels steps).map Step.number) ≤ Number.limit →
      SumsTo exported ⟨"in_flight", labels.canonical⟩
        ((stepsOf .upDownCounter labels steps).map Step.integer).sum
  latency : ∀ labels : LabelSet, numberAt exported ⟨"latency", labels.canonical⟩ =
    (stepsOf .valueRecorder labels steps).length
  progress : SumsTo exported ⟨"operations_applied", LabelSet.empty.canonical⟩ steps.length

theorem kind_stepsOf {t : Target} (labels : LabelSet) (steps : List Step) :
    ∀ v ∈ (stepsOf t labels steps).map Step.number, v.kind = t.descriptor.numberKind := by
  intro v member
  obtain ⟨s, among, rfl⟩ := List.mem_map.1 member
  obtain ⟨target, -⟩ := of_decide_eq_true (List.mem_filter.1 among).2
  rw [s.kind_number, target]

/-- The numbers of steps for a counter are their values as integers. -/
theorem exactSum_stepsOf {t : Target} (counts : t ≠ .valueRecorder) (labels : LabelSet)
    (steps : List Step) : Number.exactSum ((stepsOf t labels steps).map Step.number) =
      ((stepsOf t labels steps).map Step.integer).sum := by
  rw [Number.exactSum, List.map_map]
  refine congrArg List.sum (List.map_congr_left fun s among => ?_)
  obtain ⟨target, -⟩ := of_decide_eq_true (List.mem_filter.1 among).2
  rw [Function.comp_apply, Step.number, target]
  cases t with
  | counter => rfl
  | upDownCounter => rfl
  | valueRecorder => exact absurd rfl counts

section Exported

variable (valid : (recorderAggregation boundaries).validate = .ok ())
  (gives : List.Forall₂ (Gives boundaries) given cs) (some_ : cs ≠ []) (mode : Processor.Mode)

include valid gives some_ in
theorem sumsTo_counter {t : Target} (counts : t ≠ .valueRecorder) (labels : LabelSet)
    (bound : Number.magnitude ((stepsOf t labels given.flatten).map Step.number) ≤ Number.limit) :
    SumsTo (final mode ((Processor.empty mode).batches cs)) ⟨t.instrument, labels.canonical⟩
      ((stepsOf t labels given.flatten).map Step.integer).sum := by
  have integers : (Part.of t).descriptor.numberKind = .int64 := by
    cases t <;> first | rfl | exact absurd rfl counts
  have sum : (Part.of t).aggregation boundaries = .sum := by
    cases t <;> first | rfl | exact absurd rfl counts
  have kinds := kind_stepsOf (t := t) labels given.flatten
  rw [← valuesOf_target] at kinds bound
  rw [← exactSum_stepsOf counts labels given.flatten, ← valuesOf_target]
  exact sumsTo_of_gives valid gives some_ mode (.of t) labels.canonical integers sum
    (fun v member => (kinds v member).trans integers) bound

include valid gives some_ in
/-- What is exported in the end tells of all steps. -/
theorem tells_of_gives (finite : ∀ s ∈ given.flatten, s.value.isFinite = true)
    (short : (given.flatten.length : Int) ≤ Number.limit) :
    Tells given.flatten (final mode ((Processor.empty mode).batches cs)) where
  requests := sumsTo_counter valid gives some_ mode (t := .counter) fun same => nomatch same
  inFlight := sumsTo_counter valid gives some_ mode (t := .upDownCounter) fun same => nomatch same
  latency labels := by
    have other : (Part.of .valueRecorder).aggregation boundaries ≠ .sum :=
      Part.recorderAggregation_ne_sum boundaries
    have numbers := numberAt_of_gives valid gives some_ mode (.of .valueRecorder) labels.canonical
      other
    rw [valuesOf_target, List.length_map] at numbers
    refine numbers fun v member => ?_
    obtain ⟨s, among, rfl⟩ := List.mem_map.1 member
    exact Step.isFinite_number (finite s (List.mem_filter.1 among).1)
  progress := by
    obtain ⟨sum, magnitude⟩ := exactSum_backlogs given short
    have told := sumsTo_of_gives valid gives some_ mode .progress LabelSet.empty.canonical rfl rfl
    rw [valuesOf_progress, sum, magnitude] at told
    refine told (fun v member => ?_) short
    obtain ⟨g, -, rfl⟩ := List.mem_map.1 member
    rfl

end Exported

/-- What rounds of a run that starts empty come to, if there are any. -/
theorem Run.Holds.totals {r : Run} (holds : r.Holds boundaries []) {mode : Processor.Mode}
    (processor : r.controller.processor = .empty mode)
    (valid : (recorderAggregation boundaries).validate = .ok ()) (clock : Nat → Timestamp)
    {groups : List (List Step)} (some_ : groups ≠ [])
    (finite : ∀ s ∈ groups.flatten, s.value.isFinite = true)
    (short : (groups.flatten.length : Int) ≤ Number.limit) :
    let events := (r.rounds clock groups).1
    let batches := (events.filterMap Run.Event.tick?).map Tick.batch
    (events.filterMap Run.Event.result?).map Except.isOk = groups.flatten.map Step.accepted ∧
    batches.length = groups.length ∧
    (∀ batch ∈ batches, (batch.map Record.key).Pairwise fun a b => compare a b = .lt) ∧
    Tells (groups.flatten.filter Step.accepted) (final mode batches) ∧
    (mode = .stateful → ∀ n batch, batches[n]? = some batch →
      Tells ((groups.take (n + 1)).flatten.filter Step.accepted) batch) := by
  obtain ⟨results, gives, told⟩ := holds.rounds clock groups finite
  rw [processor] at told
  have same := Run.length_ticks clock groups r
  refine ⟨results, ?_⟩
  generalize (r.rounds clock groups).1.filterMap Run.Event.tick? = ticks at gives told same ⊢
  have ticked : ticks.map Tick.collected ≠ [] := by
    rw [ne_eq, List.map_eq_nil_iff, ← List.length_eq_zero_iff, same, List.length_eq_zero_iff]
    exact some_
  -- Some ticks with the steps before them are a run as well: of the end of this one, and with memory
  -- of each of its batches, the same is told.
  have upTo : ∀ n, 0 < n → Tells ((groups.take n).flatten.filter Step.accepted)
      (final mode ((Processor.empty mode).batches ((ticks.map Tick.collected).take n))) := by
    intro n pos
    have before : ((groups.map (List.filter Step.accepted)).take n).flatten =
        (groups.take n).flatten.filter Step.accepted := by
      rw [← List.map_take, List.filter_flatten]
    have within : ((groups.take n).flatten.filter Step.accepted).Sublist groups.flatten := by
      nth_rewrite 2 [← List.take_append_drop n groups]
      rw [List.flatten_append]
      exact List.filter_sublist.trans (List.sublist_append_left _ _)
    have some' : (ticks.map Tick.collected).take n ≠ [] := fun none_ =>
      (List.take_eq_nil_iff.1 none_).elim (Nat.ne_of_gt pos) ticked
    have tells := tells_of_gives valid (List.forall₂_take n gives) some' mode
    rw [before] at tells
    have := within.length_le
    exact tells (fun s member => finite s (within.subset member)) (by omega)
  rw [told]
  refine ⟨?_, Processor.ascending_batches _ (Processor.labelled_empty mode), ?_, ?_⟩
  · rw [← told, List.length_map, same]
  · have whole := upTo groups.length (List.length_pos_iff.2 some_)
    rw [List.take_length, List.take_of_length_le (by rw [List.length_map, same])] at whole
    exact whole
  · rintro rfl n batch nth
    have part := upTo (n + 1) (Nat.succ_pos n)
    rw [Processor.final_stateful_take _ nth] at part
    exact part

/-- Wherever ticks fall among the steps of a workload, as long as one comes at the end: the steps that
are refused are just those that add a negative number to a counter. In the end, what is exported
tells of the other steps, and with memory every batch tells of those before it. Nothing is asked of
the text but that it is short enough to be held. -/
theorem totals_of_workload {text : String} {steps : List Step} (given : read text = .ok steps)
    (short : (text.length : Int) ≤ Number.limit)
    (valid : (recorderAggregation boundaries).validate = .ok ()) {schedule : Schedule}
    (timing : schedule.validate = .ok ()) (meter : String) (mode : Processor.Mode)
    (format : TextStream.Format) (clock : Nat → Timestamp) {groups : List (List Step)}
    (some_ : groups ≠ []) (all : groups.flatten = steps) :
    ∃ r, Run.start meter boundaries mode format schedule = .ok r ∧
      let events := (r.rounds clock groups).1
      let batches := (events.filterMap Run.Event.tick?).map Tick.batch
      (events.filterMap Run.Event.result?).map Except.isOk = steps.map Step.accepted ∧
      batches.length = groups.length ∧
      (∀ batch ∈ batches, (batch.map Record.key).Pairwise fun a b => compare a b = .lt) ∧
      Tells (steps.filter Step.accepted) (final mode batches) ∧
      (mode = .stateful → ∀ n batch, batches[n]? = some batch →
        Tells ((groups.take (n + 1)).flatten.filter Step.accepted) batch) := by
  obtain ⟨finite, length⟩ := of_read given
  obtain ⟨r, started, holds, processor⟩ := Run.start_of_validate valid timing meter mode format
  subst all
  exact ⟨r, started, holds.totals processor valid clock some_ finite (by omega)⟩

/-- A tick between two steps of one series, two ticks in turn, and a step that is refused. -/
theorem ticks_between_steps_lose_nothing :
    let text := "ctr,2,route=/a\nctr,-3\nupdown,-1\nctr,4,route=/a\nrecorder,0.5,route=/a\nctr,7"
    let route := LabelSet.ofList [("route", "/a")]
    let groups : List (List Step) :=
      [[⟨.counter, 2.0, route⟩, ⟨.counter, -3.0, .empty⟩], [],
        [⟨.upDownCounter, -1.0, .empty⟩, ⟨.counter, 4.0, route⟩, ⟨.valueRecorder, 0.5, route⟩,
          ⟨.counter, 7.0, .empty⟩]]
    read text = .ok groups.flatten ∧
    ∀ mode : Processor.Mode, ∃ r, Run.start "m" [1.0, 5.0] mode .json .default = .ok r ∧
      let events := (r.rounds (fun _ => default) groups).1
      let exported := final mode ((events.filterMap Run.Event.tick?).map Tick.batch)
      (events.filterMap Run.Event.result?).map Except.isOk = [true, false, true, true, true, true] ∧
      SumsTo exported ⟨"requests", route.canonical⟩ 6 ∧
      SumsTo exported ⟨"in_flight", LabelSet.empty.canonical⟩ (-1) ∧
      numberAt exported ⟨"latency", route.canonical⟩ = 1 ∧
      SumsTo exported ⟨"operations_applied", LabelSet.empty.canonical⟩ 5 := by
  intro text route groups
  have given : read text = .ok groups.flatten := by decide +kernel
  refine ⟨given, fun mode => ?_⟩
  have valid : (recorderAggregation [1.0, 5.0]).validate = .ok () := by decide +kernel
  have timing : Schedule.default.validate = .ok () := by decide +kernel
  have some_ : groups ≠ [] := List.cons_ne_nil _ _
  obtain ⟨r, started, results, -, -, tells, -⟩ := totals_of_workload given (by decide +kernel)
    valid timing "m" mode .json (fun _ => default) some_ rfl
  have accepted : groups.flatten.map Step.accepted = [true, false, true, true, true, true] := by
    decide +kernel
  have requests : ((stepsOf .counter route (groups.flatten.filter Step.accepted)).map
      Step.integer).sum = 6 := by decide +kernel
  have inFlight : ((stepsOf .upDownCounter .empty (groups.flatten.filter Step.accepted)).map
      Step.integer).sum = -1 := by decide +kernel
  have latency : (stepsOf .valueRecorder route (groups.flatten.filter Step.accepted)).length = 1 := by
    decide +kernel
  have progress : (groups.flatten.filter Step.accepted).length = 5 := by decide +kernel
  refine ⟨r, started, results.trans accepted, ?_, ?_, ?_, ?_⟩
  · rw [← requests]
    exact tells.requests route (by decide +kernel)
  · rw [← inFlight]
    exact tells.inFlight .empty (by decide +kernel)
  · rw [← latency]
    exact tells.latency route
  · have told := tells.progress
    rw [progress] at told
    exact told

/-- This is so of steps that are played to their end, be they read or made up: a run ticks after every
`period` of them, if the period is not zero, and once more. With memory a batch tells of the steps
before its tick, and the last one of all. -/
theorem totals_of_playAll {steps : List Step} (finite : ∀ s ∈ steps, s.value.isFinite = true)
    (short : (steps.length : Int) ≤ Number.limit)
    (valid : (recorderAggregation boundaries).validate = .ok ()) {schedule : Schedule}
    (timing : schedule.validate = .ok ()) (meter : String) (mode : Processor.Mode)
    (format : TextStream.Format) (clock : Nat → Timestamp) (period : Nat) :
    ∃ r, Run.start meter boundaries mode format schedule = .ok r ∧
      let events := (r.playAll clock period steps).1
      let batches := (events.filterMap Run.Event.tick?).map Tick.batch
      (events.filterMap Run.Event.result?).map Except.isOk = steps.map Step.accepted ∧
      batches.length = steps.length / period + 1 ∧
      (∀ batch ∈ batches, (batch.map Record.key).Pairwise fun a b => compare a b = .lt) ∧
      Tells (steps.filter Step.accepted) (final mode batches) ∧
      (mode = .stateful → 0 < period → ∀ n batch, batches[n]? = some batch →
        Tells ((steps.take ((n + 1) * period)).filter Step.accepted) batch) := by
  obtain ⟨r, started, holds, processor⟩ := Run.start_of_validate valid timing meter mode format
  have all := Run.flatten_groups period steps 0
  obtain ⟨results, count, ascending, total, upTo⟩ := holds.totals processor valid clock
    (Run.groups_ne_nil period 0 steps) (all.symm ▸ finite) (all.symm ▸ short)
  rw [Run.length_groups, Nat.zero_add, Nat.zero_div, Nat.sub_zero] at count
  rw [all] at results total
  rw [← Run.playAll_eq_rounds] at results count ascending total upTo
  refine ⟨r, started, results, count, ascending, total, fun stateful pos n batch nth => ?_⟩
  have part := upTo stateful n batch nth
  rw [Run.flatten_take_groups pos, Nat.zero_div, Nat.zero_add, Nat.add_comm 1] at part
  exact part

end Metering.Workload
