import Metering.Arguments
import Metering.Proofs.Export.Line
import Metering.Proofs.Processor.Final
import Metering.Proofs.Workload.Reader
import Metering.Proofs.Workload.Rounds

/-!
# What a workload prints

Every tick of a run adds the lines of its batch to the text that is printed: a heading with the
number of the tick and of the records, and as many lines. Labels that are read from a workload are
parts of one of its lines, so they break none of these, and the series of a batch can be told apart
by what precedes the last brace of their lines.
-/

namespace Metering.Workload

open Text
open TextStream (textLines)

variable {boundaries : List Float} {recent : List Step} {rs : List Record}

/-! ## The series of a run -/

/-- A series of an instrument of a run, with labels that fit on one line. -/
structure Prints (k : SeriesKey) (d : Descriptor) : Prop where
  part : ∃ part : Part, d = part.descriptor
  labels : ∃ l : LabelSet, k.labels = l.canonical ∧ OneLine l.canonical

/-- What is collected has the labels of a step, or none. -/
theorem Gives.prints (gives : Gives boundaries recent rs)
    (fit : ∀ s ∈ recent, OneLine s.labels.canonical) : ∀ r ∈ rs, Prints r.key r.descriptor := by
  intro r member
  obtain ⟨time, records⟩ := gives.records
  obtain ⟨part, descriptor, -⟩ := gives.shapes r member
  refine ⟨⟨part, descriptor⟩, ?_⟩
  have name : r.name = part.name := by rw [Record.name, descriptor, part.descriptor_name]
  have own : r ∈ rs.filter fun x => x.key = ⟨part.name, r.labels⟩ :=
    List.mem_filter.2 ⟨member, decide_eq_true (congrArg (SeriesKey.mk · r.labels) name)⟩
  rw [records] at own
  have some_ : valuesUnder (part.updates recent) r.labels ≠ [] := by
    intro none_
    rw [none_] at own
    cases own
  obtain ⟨v, held⟩ := List.exists_mem_of_ne_nil _ some_
  obtain ⟨e, among, -⟩ := List.mem_map.1 held
  obtain ⟨update, labels⟩ := List.mem_filter.1 among
  refine ⟨e.1, (of_decide_eq_true labels).symm, ?_⟩
  cases part with
  | of t =>
    obtain ⟨s, step, rfl⟩ := List.mem_map.1 update
    exact fit s (List.mem_filter.1 step).1
  | progress =>
    have bare : OneLine LabelSet.empty.canonical := by decide
    rw [List.mem_singleton.1 update]
    exact bare

/-- So has everything that is collected in rounds of steps whose labels fit on a line. -/
theorem prints_of_gives {given : List (List Step)} {cs : List (List Record)}
    (gives : List.Forall₂ (Gives boundaries) given cs)
    (fit : ∀ s ∈ given.flatten, OneLine s.labels.canonical) :
    ∀ r ∈ cs.flatten, Prints r.key r.descriptor := by
  induction gives with
  | nil => exact fun _ none_ => nomatch none_
  | cons first _ ih =>
    rw [List.flatten_cons, List.forall_mem_append] at fit
    exact List.forall_mem_append.2 ⟨first.prints fit.1, ih fit.2⟩

theorem Part.name_plain (part : Part) : OneLine part.name ∧ '\x7b' ∉ part.name.toList := by
  have each : ∀ part ∈ all, OneLine part.name ∧ '\x7b' ∉ part.name.toList := by decide
  exact each part part.mem_all

/-! ## Ticks -/

namespace Run

theorem controller_apply (r : Run) (s : Step) : (r.apply s).2.controller = r.controller := by
  unfold apply
  split <;> rfl

theorem controller_applyAll (g : List Step) : ∀ r : Run,
    (r.applyAll g).2.controller = r.controller := by
  induction g with
  | nil => exact fun _ => rfl
  | cons s rest ih => exact fun r => (ih (r.apply s).2).trans (r.controller_apply s)

/-- Every tick prints its batch. -/
theorem rounds_text (clock : Nat → Timestamp) (gs : List (List Step)) : ∀ {r : Run},
    r.controller.exporter.format = .text →
      let ticks := (r.rounds clock gs).1.filterMap Event.tick?
      (∀ t ∈ ticks, t.outcome = .ok ()) ∧
      (r.rounds clock gs).2.output = r.output ++
        ofLines (((ticks.map Tick.batch).zipIdx (r.controller.exporter.batches + 1)).flatMap
          fun e => textLines e.2 e.1) := by
  induction gs with
  | nil =>
    intro r _ ticks
    exact ⟨List.forall_mem_nil _, String.append_empty.symm⟩
  | cons g rest ih =>
    intro r text ticks
    let stepped := (r.applyAll g).2
    let ticked := (stepped.tick clock).2
    have same : stepped.controller = r.controller := r.controller_applyAll g
    have ticks_ : ticks = (stepped.tick clock).1 ::
        (ticked.rounds clock rest).1.filterMap Event.tick? := by
      change (((r.applyAll g).1.map Event.applied) ++ _ :: _).filterMap Event.tick? = _
      rw [List.filterMap_append, filterMap_tick?_applied]
      rfl
    have sent := TextStream.send_text (s := stepped.controller.exporter) (same ▸ text)
      (stepped.tick clock).1.batch
    have outcome : (stepped.tick clock).1.outcome = .ok () := congrArg Prod.fst sent
    have exporter : ticked.controller.exporter = _ := congrArg Prod.snd sent
    rw [same] at exporter
    obtain ⟨outcomes, output⟩ := ih (r := ticked) (by rw [exporter]; exact text)
    rw [exporter] at output
    refine ⟨?_, ?_⟩
    · rw [ticks_]
      exact List.forall_mem_cons.2 ⟨outcome, outcomes⟩
    · rw [ticks_, List.map_cons, List.zipIdx_cons, List.flatMap_cons, ofLines_append,
        ← String.append_assoc]
      refine output.trans ?_
      rw [Run.output, exporter]
      rfl

/-- What starts has a schedule that is not refused, and has written nothing. -/
theorem of_start {meter : String} {mode : Processor.Mode} {format : TextStream.Format}
    {schedule : Schedule} {r : Run}
    (started : start meter boundaries mode format schedule = .ok r) :
    schedule.validate = .ok () ∧ r.controller.exporter = .empty format := by
  rw [start, Controller.make] at started
  cases made : register boundaries .empty with
  | error e =>
    rw [made] at started
    cases started
  | ok m =>
    cases timing : schedule.validate with
    | error fault =>
      rw [made, timing] at started
      cases started
    | ok _ =>
      rw [made, timing] at started
      cases started
      exact ⟨rfl, rfl⟩

end Run

/-! ## The printed text -/

/-- Boundaries that are accepted as arguments are those of a histogram, or there are none. -/
theorem validate_of_arguments {a : Arguments} (valid : a.validate = .ok ()) :
    (recorderAggregation a.boundaries).validate = .ok () := by
  have finite : a.boundaries.all Float.isFinite = true := by
    rw [Arguments.validate] at valid
    cases finite : a.boundaries.all Float.isFinite with
    | true => rfl
    | false =>
      rw [finite] at valid
      cases valid
  rw [recorderAggregation]
  split
  · rfl
  · rw [Aggregation.validate, if_pos finite]

/-- A record of a series of a run. -/
def PrintsRecord (r : Record) : Prop := ∃ k, r.labels = k.labels ∧ Prints k r.descriptor

theorem PrintsRecord.name {r : Record} (prints : PrintsRecord r) :
    OneLine r.name ∧ '\x7b' ∉ r.name.toList := by
  obtain ⟨k, -, ⟨part, descriptor⟩, -⟩ := prints
  rw [Record.name, descriptor, part.descriptor_name]
  exact part.name_plain

theorem PrintsRecord.labels {r : Record} (prints : PrintsRecord r) :
    ∃ l : LabelSet, r.labels = l.canonical ∧ OneLine l.canonical := by
  obtain ⟨k, labels, -, l, canonical, fits⟩ := prints
  exact ⟨l, labels.trans canonical, fits⟩

/-- The heading and the records of a batch have one line each. -/
theorem oneLine_textLines {batch : List Record} (prints : ∀ r ∈ batch, PrintsRecord r)
    (number : Nat) : ∀ line ∈ textLines number batch, OneLine line := by
  refine List.forall_mem_cons.2 ⟨TextStream.oneLine_heading _ _, List.forall_mem_map.2 ?_⟩
  intro r member
  obtain ⟨l, labels, fits⟩ := (prints r member).labels
  rw [← labels] at fits
  exact Record.oneLine_line (prints r member).name.1 fits

/-- Records of one batch that are printed alike before their last brace are one record. -/
theorem nodup_series {batch : List Record} (keys : (batch.map Record.key).Nodup)
    (prints : ∀ r ∈ batch, PrintsRecord r) : (batch.map Record.series).Nodup := by
  rw [List.Nodup, List.pairwise_map] at keys ⊢
  refine keys.imp_of_mem fun {r r'} member member' other same => other ?_
  obtain ⟨l, labels, -⟩ := (prints r member).labels
  obtain ⟨l', labels', -⟩ := (prints r' member').labels
  exact Record.key_of_series (prints r member).name.2 (prints r' member').name.2 labels labels' same

/-- The lines of some batches, each with a heading before its records. -/
def printedLines (batches : List (List Record)) : List String :=
  (batches.zipIdx 1).flatMap fun e => textLines e.2 e.1

/-- All ticks succeeded, what they wrote is cut into just the lines of their batches, and the lines
of one batch differ before their last brace. -/
structure Framed (ticks : List Tick) (output : String) : Prop where
  outcomes : ∀ t ∈ ticks, t.outcome = .ok ()
  written : output = ofLines (printedLines (ticks.map Tick.batch))
  lines : split '\n' output.toList =
    (printedLines (ticks.map Tick.batch)).map String.toList ++ [[]]
  series : ∀ t ∈ ticks,
    (t.batch.map Record.line).map Record.seriesOf = t.batch.map Record.series ∧
      (t.batch.map Record.series).Nodup

/-- What rounds of a run that starts empty print is framed, if the labels of all steps fit on a
line. -/
theorem Run.Holds.framed {r : Run} (holds : r.Holds boundaries []) {mode : Processor.Mode}
    (processor : r.controller.processor = .empty mode)
    (stream : r.controller.exporter = .empty .text) (clock : Nat → Timestamp)
    {groups : List (List Step)} (finite : ∀ s ∈ groups.flatten, s.value.isFinite = true)
    (fit : ∀ s ∈ groups.flatten, OneLine s.labels.canonical) :
    let ticks := (r.rounds clock groups).1.filterMap Run.Event.tick?
    ticks.length = groups.length ∧ Framed ticks (r.rounds clock groups).2.output := by
  obtain ⟨-, gives, told⟩ := holds.rounds clock groups finite
  obtain ⟨outcomes, output⟩ := Run.rounds_text clock groups (r := r) (by rw [stream]; rfl)
  rw [processor] at told
  intro ticks
  have prints : ∀ t ∈ ticks, ∀ r ∈ t.batch, PrintsRecord r := by
    have collected := prints_of_gives gives fun s member => by
      rw [← List.filter_flatten] at member
      exact fit s (List.mem_filter.1 member).1
    intro t member
    refine Processor.described_batches _ (Processor.described_empty Prints mode) collected t.batch ?_
    rw [← told]
    exact List.mem_map_of_mem member
  have keys : ∀ t ∈ ticks, (t.batch.map Record.key).Nodup := fun t member =>
    Processor.nodup_batches _ (Processor.labelled_empty mode) t.batch
      (told ▸ List.mem_map_of_mem member)
  have written : (r.rounds clock groups).2.output =
      ofLines (printedLines (ticks.map Tick.batch)) := by
    refine output.trans ?_
    rw [Run.output, stream]
    exact String.empty_append
  have each : ∀ line ∈ printedLines (ticks.map Tick.batch), OneLine line := by
    intro line member
    obtain ⟨e, among, here⟩ := List.mem_flatMap.1 member
    obtain ⟨t, tick, batch⟩ := List.mem_map.1 (List.fst_mem_of_mem_zipIdx among)
    exact oneLine_textLines (batch ▸ prints t tick) e.2 line here
  have parts := split_ofLines_append each (by decide : OneLine "")
  rw [String.append_empty, ← written] at parts
  refine ⟨Run.length_ticks clock groups r, outcomes, written, parts, fun t member => ⟨?_, ?_⟩⟩
  · rw [List.map_map]
    exact List.map_congr_left fun x _ => x.seriesOf_line
  · exact nodup_series (keys t member) (prints t member)

/-- This is so of steps that are played to their end, be they read or made up: a run ticks after every
`period` of them, if the period is not zero, and once more. -/
theorem framed_of_playAll {steps : List Step} (finite : ∀ s ∈ steps, s.value.isFinite = true)
    (fit : ∀ s ∈ steps, OneLine s.labels.canonical)
    (valid : (recorderAggregation boundaries).validate = .ok ()) {schedule : Schedule}
    (timing : schedule.validate = .ok ()) (meter : String) (mode : Processor.Mode)
    (clock : Nat → Timestamp) (period : Nat) :
    ∃ r, Run.start meter boundaries mode .text schedule = .ok r ∧
      let ticks := (r.playAll clock period steps).1.filterMap Run.Event.tick?
      ticks.length = steps.length / period + 1 ∧
        Framed ticks (r.playAll clock period steps).2.output := by
  obtain ⟨r, started, holds, processor⟩ := Run.start_of_validate valid timing meter mode .text
  have all := Run.flatten_groups period steps 0
  obtain ⟨length, framed⟩ := holds.framed processor (Run.of_start started).2 clock
    (all.symm ▸ finite) (all.symm ▸ fit)
  rw [Run.length_groups, Nat.zero_add, Nat.zero_div, Nat.sub_zero] at length
  rw [← Run.playAll_eq_rounds] at length framed
  exact ⟨r, started, length, framed⟩

end Metering.Workload
