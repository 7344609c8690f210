import Metering.Proofs.Balance
import Metering.Proofs.Lasting
import Metering.Proofs.Provider.Outcome
import Metering.Proofs.Session

/-!
# Conservation of updates

Every update that a program or a callback was told is accepted is part of exactly one record that
one of them was given, or of what is still live in its series. The counts and sums of the records
and of the live aggregate therefore add up to those of the updates.

This is about programs that leave the aggregators of series alone, and that ask for their
collections themselves: what a controller collects goes to its exporter.
-/

namespace Metering

/-- An operation that uses no aggregator directly and makes no controller. -/
def Operation.Plain : Operation → Prop
  | .boundRaw _ _ | .boundMerge _ _ | .boundCheckpoint _ | .boundDrain _ => False
  | .controller _ _ _ _ => False
  | _ => True

/-! ## The outcomes of one series -/

/-- The value, if the outcome is that one was accepted for some labels of an instrument. -/
def Outcome.value? (id : InstrumentId) (l : String) : Outcome → Option Number
  | .accepted id' l' v => if id' = id ∧ l' = l then some v else none
  | .collected _ => none

/-- The record, if the outcome is one of a series. -/
def Outcome.record? (key : SeriesKey) : Outcome → Option Record
  | .accepted _ _ _ => none
  | .collected r => if r.key = key then some r else none

theorem Outcome.filterMap_value?_collected (id : InstrumentId) (l : String) (rs : List Record) :
    (rs.map Outcome.collected).filterMap (Outcome.value? id l) = [] := by
  rw [List.filterMap_map]
  exact List.filterMap_eq_nil_iff.2 fun _ _ => rfl

theorem Outcome.filterMap_record?_collected (key : SeriesKey) (rs : List Record) :
    (rs.map Outcome.collected).filterMap (Outcome.record? key) = rs.filter fun r => r.key = key := by
  induction rs with
  | nil => rfl
  | cons r rest ih =>
    rw [List.map_cons]
    by_cases at_ : r.key = key
    · rw [List.filterMap_cons_some (show record? key (.collected r) = some r from if_pos at_), ih,
        List.filter_cons_of_pos (by simpa using at_)]
    · rw [List.filterMap_cons_none (show record? key (.collected r) = none from if_neg at_), ih,
        List.filter_cons_of_neg (by simpa using at_)]

/-- The accepted values of a series that are told are those of its events. -/
theorem values_perm (id : InstrumentId) (l : String) (events : List Event) :
    ((events.flatMap Event.outcomes).filterMap (Outcome.value? id l)).Perm
      (valuesOf l (events.filter fun e => e.instrument = id)) := by
  induction events with
  | nil => exact .nil
  | cons e rest ih =>
    rw [List.flatMap_cons, List.filterMap_append]
    cases e with
    | accepted id' l' v =>
      by_cases at_ : id' = id
      · subst at_
        rw [List.filter_cons_of_pos (by simp [Event.instrument]), valuesOf]
        by_cases here : l' = l
        · subst here
          rw [if_pos rfl]
          refine .trans ?_ (List.perm_append_singleton v _).symm
          simpa [Event.outcomes, Outcome.value?] using ih
        · rw [if_neg here]
          simpa [Event.outcomes, Outcome.value?, here] using ih
      · rw [List.filter_cons_of_neg (by simp [Event.instrument, at_])]
        simpa [Event.outcomes, Outcome.value?, at_] using ih
    | swept reading id' records =>
      have none_ : (Event.swept reading id' records).outcomes.filterMap (Outcome.value? id l) = [] :=
        Outcome.filterMap_value?_collected id l records
      rw [none_, List.nil_append]
      by_cases at_ : id' = id
      · rw [List.filter_cons_of_pos (by simp [Event.instrument, at_]), valuesOf]
        exact ih
      · rw [List.filter_cons_of_neg (by simp [Event.instrument, at_])]
        exact ih

/-- Records carry the name of their instrument, as far as some events tell. -/
def Named (events : List Event) : Prop :=
  ∀ reading id records, .swept reading id records ∈ events → ∀ r ∈ records, r.name = id.name

/-- The records of a series that are told are those of its events, if all events are about one
meter: records do not say of which meter they are. -/
theorem records_perm {m : String} (n l : String) {events : List Event} (named : Named events)
    (one : ∀ e ∈ events, e.instrument.meter = m) :
    ((events.flatMap Event.outcomes).filterMap (Outcome.record? ⟨n, l⟩)).Perm
      (recordsOf l (events.filter fun e => e.instrument = ⟨m, n⟩)) := by
  induction events with
  | nil => exact .nil
  | cons e rest ih =>
    have after := ih (fun reading id records member =>
      named reading id records (List.mem_cons_of_mem _ member))
      fun e' member => one e' (List.mem_cons_of_mem _ member)
    rw [List.flatMap_cons, List.filterMap_append]
    cases e with
    | accepted id l' v =>
      have skip : recordsOf l ((Event.accepted id l' v :: rest).filter fun e =>
          e.instrument = ⟨m, n⟩) = recordsOf l (rest.filter fun e => e.instrument = ⟨m, n⟩) := by
        by_cases at_ : id = ⟨m, n⟩
        · rw [List.filter_cons_of_pos (by simp [Event.instrument, at_]), recordsOf]
        · rw [List.filter_cons_of_neg (by simp [Event.instrument, at_])]
      rw [skip]
      exact after
    | swept reading id records =>
      have names := named reading id records List.mem_cons_self
      have meter : id.meter = m := one _ List.mem_cons_self
      have told : (Event.swept reading id records).outcomes.filterMap (Outcome.record? ⟨n, l⟩) =
          records.filter fun r => r.key = ⟨n, l⟩ := Outcome.filterMap_record?_collected ⟨n, l⟩ records
      rw [told]
      by_cases at_ : id = ⟨m, n⟩
      · subst at_
        rw [List.filter_cons_of_pos (by simp [Event.instrument]), recordsOf,
          filter_key names, if_pos rfl]
        exact (after.append_left _).trans List.perm_append_comm
      · have other : id.name ≠ n := by
          rintro rfl
          exact at_ (by rw [← meter])
        rw [List.filter_cons_of_neg (by simp [Event.instrument, at_]), filter_key names,
          if_neg other, List.nil_append]
        exact after

namespace Session

variable {clock : Nat → Timestamp} {s : Session}

/-- What an operation brought, by its answer. -/
def outcome (s : Session) : Operation → Answer → List Outcome
  | .update tag value labels, .result r =>
    (s.provider.tags.get? tag).elim [] fun id => Outcome.ofResult id labels.canonical value r
  | .batch _ labels ms, .result (.ok ()) =>
    ((s.measurements? ms).getD []).map fun m => .accepted m.instrument labels.canonical m.value
  | .boundUpdate name value, .result r =>
    (s.handles.get? name).elim [] fun h => Outcome.ofResult h.instrument h.labels value r
  | .collect _ _, .records rs => rs.map .collected
  | _, _ => []

/-- What the operations of a run brought. -/
def outcomes (clock : Nat → Timestamp) (s : Session) : List Operation → List Outcome
  | [] => []
  | o :: rest => s.outcome o (s.perform clock o).1 ++ (s.perform clock o).2.outcomes clock rest

/-- What a program and its callbacks learnt in a run from the start. -/
def learnt (clock : Nat → Timestamp) (ops : List Operation) : List Outcome :=
  empty.outcomes clock ops ++
    (empty.run clock ops).2.provider.journal.flatMap CallbackRun.outcomes

/-! ## Operations -/

theorem yields_update (s : Session) (tag : String) (value : Number) (labels : LabelSet) :
    s.provider.Yields (s.outcome (.update tag value labels)
      (s.perform clock (.update tag value labels)).1)
      (s.perform clock (.update tag value labels)).2.provider := by
  simp only [perform, withTagged]
  split
  · rename_i id i tagged
    obtain ⟨id', named, present⟩ := Option.bind_eq_some_iff.1 tagged
    obtain ⟨i', -, same⟩ := Option.map_eq_some_iff.1 present
    cases same
    simp only [outcome, named]
    exact s.provider.yields_record ⟨id, value, labels⟩
  · exact Provider.yields_of_same rfl rfl

theorem yields_batch (s : Session) (meter : String) (labels : LabelSet)
    (ms : List (String × Number)) :
    s.provider.Yields (s.outcome (.batch meter labels ms)
      (s.perform clock (.batch meter labels ms)).1)
      (s.perform clock (.batch meter labels ms)).2.provider := by
  simp only [perform]
  cases tagged : s.measurements? ms with
  | none => exact Provider.yields_of_same rfl rfl
  | some ms' =>
    simp only [Provider.recordBatch]
    split
    · simp only [outcome, tagged]
      exact Provider.yields_recordAll labels ms' (s.provider.use meter)
    · exact Provider.yields_of_same rfl rfl

theorem yields_boundUpdate (s : Session) (name : String) (value : Number) :
    s.provider.Yields (s.outcome (.boundUpdate name value)
      (s.perform clock (.boundUpdate name value)).1)
      (s.perform clock (.boundUpdate name value)).2.provider := by
  simp only [perform, withHeld]
  split
  · rename_i h series held
    obtain ⟨h', named, present⟩ := Option.bind_eq_some_iff.1 held
    obtain ⟨series', -, same⟩ := Option.map_eq_some_iff.1 present
    cases same
    simp only [outcome, named]
    exact s.provider.yields_recordHeld h value
  · exact Provider.yields_of_same rfl rfl

/-! ## Operations that bring nothing -/

/-- Nothing happened to any series, and no run of a callback ended. -/
def Quiet (s s' : Session) : Prop :=
  s'.provider.journal = s.provider.journal ∧ s'.provider.history = s.provider.history

theorem quiet_withTagged {tag : String} {f : InstrumentId → Instrument → Answer × Session}
    (known : ∀ id i, s.provider.instrument? id = some i → s.Quiet (f id i).2) :
    s.Quiet (s.withTagged tag f).2 := by
  rcases s.withTagged_cases tag f with unknown | ⟨id, i, found, done⟩
  · rw [unknown]
    exact ⟨rfl, rfl⟩
  · rw [done]
    exact known id i found

theorem quiet_withHeld {name : String} {f : Handle → Series → Answer × Session}
    (known : ∀ h series, s.Quiet (f h series).2) : s.Quiet (s.withHeld name f).2 := by
  rcases s.withHeld_cases name f with unknown | ⟨h, series, -, -, done⟩
  · rw [unknown]
    exact ⟨rfl, rfl⟩
  · rw [done]
    exact known h series

theorem quiet_setHandle (s : Session) (name : String) (h : Handle) :
    s.Quiet (s.setHandle name h) := by
  unfold setHandle
  cases s.handles.get? name with
  | none => exact ⟨rfl, rfl⟩
  | some old => exact ⟨rfl, rfl⟩

theorem quiet_withController {name : String}
    {f : Controller MemoryExporter → Answer × Controller MemoryExporter × Provider}
    (none_ : s.controllers.get? name = none) : s.Quiet (s.withController name f).2 := by
  unfold withController
  rw [none_]
  exact ⟨rfl, rfl⟩

theorem yields_perform (clock : Nat → Timestamp) (alone : ∀ name, s.controllers.get? name = none)
    (o : Operation) (plain : o.Plain) :
    s.provider.Yields (s.outcome o (s.perform clock o).1) (s.perform clock o).2.provider := by
  have quiet : ∀ {s' : Session}, s.Quiet s' → s.provider.Yields [] s'.provider :=
    fun same => Provider.yields_of_same same.1 same.2
  cases o with
  | create tag meter d choice script => exact s.provider.yields_create tag meter d choice script
  | update tag value labels => exact s.yields_update tag value labels
  | batch meter labels ms => exact s.yields_batch meter labels ms
  | boundUpdate name value => exact s.yields_boundUpdate name value
  | collect meter keep => exact Provider.yields_collect clock meter s.provider
  | copy tag second => exact quiet (quiet_withTagged fun _ _ _ => ⟨rfl, rfl⟩)
  | describe tag => exact quiet (quiet_withTagged fun _ _ _ => ⟨rfl, rfl⟩)
  | series tag => exact quiet (quiet_withTagged fun _ _ _ => ⟨rfl, rfl⟩)
  | names meter => exact quiet ⟨rfl, rfl⟩
  | meters => exact quiet ⟨rfl, rfl⟩
  | measure tag value => exact quiet (quiet_withTagged fun _ _ _ => ⟨rfl, rfl⟩)
  | debugInstrument tag => exact quiet (quiet_withTagged fun _ _ _ => ⟨rfl, rfl⟩)
  | debugMeter meter => exact quiet ⟨rfl, rfl⟩
  | bind tag labels name =>
    refine quiet (quiet_withTagged fun id i _ => ?_)
    exact quiet_setHandle { s with provider := (s.provider.bind id labels).2 } name _
  | clone name second =>
    refine quiet (quiet_withHeld fun h _ => ?_)
    exact quiet_setHandle { s with provider := s.provider.retain h } second h
  | release name => exact quiet (quiet_withHeld fun _ _ => ⟨rfl, rfl⟩)
  | boundRaw _ _ => exact plain.elim
  | boundMerge _ _ => exact plain.elim
  | boundCheckpoint _ => exact plain.elim
  | boundDrain _ => exact plain.elim
  | bound name => exact quiet (quiet_withHeld fun _ _ => ⟨rfl, rfl⟩)
  | processor name mode => exact quiet ⟨rfl, rfl⟩
  | process name records =>
    refine quiet ?_
    simp only [perform]
    split <;> exact ⟨rfl, rfl⟩
  | checkpoint name =>
    refine quiet ?_
    simp only [perform]
    split <;> exact ⟨rfl, rfl⟩
  | finish name =>
    refine quiet ?_
    simp only [perform]
    split <;> exact ⟨rfl, rfl⟩
  | controller _ _ _ _ => exact plain.elim
  | tick name => exact quiet (quiet_withController (alone name))
  | start name => exact quiet (quiet_withController (alone name))
  | stop name => exact quiet (quiet_withController (alone name))
  | drop name => exact quiet (quiet_withController (alone name))
  | active name => exact quiet (quiet_withController (alone name))
  | failing name fail => exact quiet (quiet_withController (alone name))
  | clear name => exact quiet (quiet_withController (alone name))
  | batches name => exact quiet (quiet_withController (alone name))
  | debugController name => exact quiet (quiet_withController (alone name))

/-- Plain operations make no controllers. -/
theorem controllers_perform_of_plain (alone : ∀ name, s.controllers.get? name = none)
    {o : Operation} (plain : o.Plain) : (s.perform clock o).2.controllers = s.controllers := by
  cases o with
  | controller _ _ _ _ => exact plain.elim
  | tick _ | start _ | stop _ | drop _ | active _ | failing _ _ | clear _ | batches _
  | debugController _ => simp only [perform, withController, alone]
  | _ => exact controllers_perform clock s rfl

/-! ## Runs -/

theorem yields_run (clock : Nat → Timestamp) (ops : List Operation) (plain : ∀ o ∈ ops, o.Plain) :
    ∀ {s : Session}, (∀ name, s.controllers.get? name = none) →
      s.provider.Yields (s.outcomes clock ops) (s.run clock ops).2.provider := by
  induction ops with
  | nil => exact fun _ => Provider.yields_of_same rfl rfl
  | cons o rest ih =>
    intro s alone
    have first := yields_perform clock alone o (plain o List.mem_cons_self)
    have still : ∀ name, (s.perform clock o).2.controllers.get? name = none := by
      rw [controllers_perform_of_plain alone (plain o List.mem_cons_self)]
      exact alone
    exact first.trans (ih (fun o' member => plain o' (List.mem_cons_of_mem _ member)) still)

/-- A program and its callbacks learn what happened, each event once. -/
theorem learnt_perm (clock : Nat → Timestamp) (ops : List Operation)
    (plain : ∀ o ∈ ops, o.Plain) :
    (learnt clock ops).Perm
      ((empty.run clock ops).2.provider.history.flatMap Event.outcomes) := by
  obtain ⟨runs, events, journal, history, told⟩ :=
    yields_run clock (s := empty) ops plain fun _ => rfl
  have from_ : empty.provider.history = [] := rfl
  have runs_ : empty.provider.journal = [] := rfl
  rw [from_, List.append_nil] at history
  rw [runs_, List.nil_append] at journal
  rw [learnt, journal, history]
  exact told

/-- A plain run is a sequence of steps that use no aggregator. -/
theorem reach_run_plain (clock : Nat → Timestamp) (s : Session) (ops : List Operation)
    (plain : ∀ o ∈ ops, o.Plain) :
    Client.Reach clock (fun _ => True) False s.client (s.run clock ops).2.client := by
  refine reach_run (fun _ => True) ops (fun _ _ _ _ => trivial) (fun s _ o member => ?_) trivial
    s.provider.within_all
  have direct := plain o member
  cases o with
  | create tag meter d choice script => exact fun _ _ => trivial
  | _ => simp_all [Allows, Operation.Plain]

end Session

/-! ## Conservation -/

namespace Session

/-- The series of a plain run are balanced, and what was learnt of one of them is what its events
say. -/
theorem learnt_of_series (clock : Nat → Timestamp) (ops : List Operation)
    (plain : ∀ o ∈ ops, o.Plain) (m : String)
    (one : ∀ id i, (empty.run clock ops).2.provider.instrument? id = some i → id.meter = m)
    (n l : String) (i : Instrument)
    (found : (empty.run clock ops).2.provider.instrument? ⟨m, n⟩ = some i)
    (enabled : i.descriptor.enabled = true) :
    i.Balanced ((empty.run clock ops).2.provider.notes ⟨m, n⟩) l ∧
      ((learnt clock ops).filterMap (Outcome.value? ⟨m, n⟩ l)).Perm
        (valuesOf l ((empty.run clock ops).2.provider.notes ⟨m, n⟩)) ∧
      ((learnt clock ops).filterMap (Outcome.record? ⟨n, l⟩)).Perm
        (recordsOf l ((empty.run clock ops).2.provider.notes ⟨m, n⟩)) := by
  have reach := reach_run_plain clock empty ops plain
  have balanced := Client.balanced_empty.reach reach
  have regular := Client.regular_empty.reach Client.linked_empty reach
  have told := learnt_perm clock ops plain
  have meters : ∀ e ∈ (empty.run clock ops).2.provider.history, e.instrument.meter = m := by
    intro e member
    cases present : (empty.run clock ops).2.provider.instrument? e.instrument with
    | some j => exact one e.instrument j present
    | none =>
      have noted : e ∈ (empty.run clock ops).2.provider.notes e.instrument :=
        List.mem_filter.2 ⟨member, decide_eq_true rfl⟩
      have nothing : (empty.run clock ops).2.provider.notes e.instrument = [] :=
        balanced.absent e.instrument present
      rw [nothing] at noted
      cases noted
  have names : Named (empty.run clock ops).2.provider.history :=
    fun reading id records swept r member => regular.name swept member
  exact ⟨balanced.balanced ⟨m, n⟩ i found enabled l,
    (told.filterMap _).trans (values_perm ⟨m, n⟩ l _),
    (told.filterMap _).trans (records_perm n l names meters)⟩

/-- What was accepted for a series in a run of plain operations on one meter is cut into portions,
each of which is what one collected record of the series aggregates, and a rest, which the series
still holds. So the numbers of values add up, and the sums of integers too, if no partial sum can
leave the range. -/
theorem updates_conserved (clock : Nat → Timestamp) (ops : List Operation)
    (plain : ∀ o ∈ ops, o.Plain) (m : String)
    (one : ∀ id i, (empty.run clock ops).2.provider.instrument? id = some i → id.meter = m)
    (n l : String) (i : Instrument)
    (found : (empty.run clock ops).2.provider.instrument? ⟨m, n⟩ = some i)
    (enabled : i.descriptor.enabled = true) (integers : i.descriptor.numberKind = .int64) :
    let accepted :=
      ((learnt clock ops).filterMap (Outcome.value? ⟨m, n⟩ l)).map i.descriptor.number
    let collected :=
      ((learnt clock ops).filterMap (Outcome.record? ⟨n, l⟩)).map Record.value
    let live := (i.aggregator l).live
    (∃ (portions : List (List Number)) (pending : List Number),
      accepted.Perm (portions.flatten ++ pending) ∧
      collected.Perm (portions.map (Aggregate.ofValues .int64 i.aggregation)) ∧
      live = Aggregate.ofValues .int64 i.aggregation pending ∧
      (pending ≠ [] → ∃ s, i.series.get? l = some s)) ∧
    (i.aggregation ≠ .sum →
      (collected.map fun a => a.number?.getD 0).sum + live.number?.getD 0 = accepted.length) ∧
    (Number.magnitude accepted ≤ Number.limit →
      (collected.map fun a => a.total.amount).sum + live.total.amount = Number.exactSum accepted) := by
  intro accepted collected live
  obtain ⟨balanced, values, records⟩ := learnt_of_series clock ops plain m one n l i found enabled
  obtain ⟨portions, valued, recorded⟩ := balanced.portions
  have ofValues : ∀ vs, i.ofValues vs =
      Aggregate.ofValues .int64 i.aggregation (vs.map i.descriptor.number) := by
    intro vs
    rw [Instrument.ofValues, integers]
  -- The portions as the instrument counts them, in its kind of number.
  have cut : accepted.Perm ((portions.map (List.map i.descriptor.number)).flatten ++
      (pendingOf l ((empty.run clock ops).2.provider.notes ⟨m, n⟩)).map i.descriptor.number) := by
    have numbers := values.map i.descriptor.number
    rw [valued, List.map_append, List.map_flatten] at numbers
    exact numbers
  have taken : collected.Perm ((portions.map (List.map i.descriptor.number)).map
      (Aggregate.ofValues .int64 i.aggregation)) := by
    have aggregates := records.map Record.value
    rw [recorded] at aggregates
    rw [List.map_map]
    exact aggregates.trans (.of_eq (List.map_congr_left fun vs _ => ofValues vs))
  have held : live = Aggregate.ofValues .int64 i.aggregation
      ((pendingOf l ((empty.run clock ops).2.provider.notes ⟨m, n⟩)).map i.descriptor.number) :=
    balanced.live.trans (ofValues _)
  have kinds : ∀ v ∈ accepted, v.kind = .int64 := by
    intro v member
    rw [← integers]
    exact Instrument.kinds_number i.descriptor _ v member
  have finite : ∀ v ∈ accepted, v.isFinite = true := by
    intro v member
    have integer := kinds v member
    cases v with
    | integer x => rfl
    | float x => cases integer
  generalize portions.map (List.map i.descriptor.number) = portions' at cut taken
  refine ⟨⟨portions', _, cut, taken, held, fun pending => balanced.registered fun none_ => ?_⟩,
    fun other => ?_, fun bound => ?_⟩
  · rw [none_] at pending
    exact pending rfl
  · rw [(taken.map _).sum_eq, held, cut.length_eq, List.length_append,
      Aggregate.sum_number_portions .int64 other fun v member =>
        finite v (cut.mem_iff.2 (List.mem_append_left _ member)),
      Aggregate.number_ofValues .int64 other fun v member =>
        finite v (cut.mem_iff.2 (List.mem_append_right _ member))]
  · rw [Number.magnitude_perm cut, Number.magnitude_append] at bound
    have inside := Number.magnitude_nonneg portions'.flatten
    have rest := Number.magnitude_nonneg
      ((pendingOf l ((empty.run clock ops).2.provider.notes ⟨m, n⟩)).map i.descriptor.number)
    rw [(taken.map _).sum_eq, held, Number.exactSum_perm cut, Number.exactSum_append,
      Aggregate.sum_amount_portions i.aggregation
        (fun v member => kinds v (cut.mem_iff.2 (List.mem_append_left _ member)))
        (fun v member => finite v (cut.mem_iff.2 (List.mem_append_left _ member))) (by omega),
      Aggregate.amount_ofValues i.aggregation
        (fun v member => kinds v (cut.mem_iff.2 (List.mem_append_right _ member)))
        (fun v member => finite v (cut.mem_iff.2 (List.mem_append_right _ member))) (by omega)]

/-- A callback that updates a recorder, collects its meter and updates it again: with a bound update
before it, three values are counted. -/
theorem nested_collection_conserves :
    let ops : List Operation := [
      .create "lat" "m" ⟨"lat", "", "", .valueRecorder, .int64, true⟩ none [],
      .create "obs" "m" ⟨"obs", "", "", .valueObserver, .int64, true⟩ none
        [[.observe (.integer 1) .empty, .update "lat" (.integer 7) .empty, .collect "m",
          .update "lat" (.integer 8) .empty]],
      .bind "lat" .empty "h", .boundUpdate "h" (.integer 5), .release "h", .collect "m" none]
    ∃ i, (empty.run (fun _ => default) ops).2.provider.instrument? ⟨"m", "lat"⟩ = some i ∧
      ((((learnt (fun _ => default) ops).filterMap (Outcome.record? ⟨"lat", ""⟩)).map
        Record.value).map fun a => a.number?.getD 0).sum +
        (i.aggregator "").live.number?.getD 0 = 3 := by
  intro ops
  have plain : ∀ o ∈ ops, o.Plain := by simp [ops, Operation.Plain]
  have meters : (empty.run (fun _ => default) ops).2.provider.meters.keys = ["m"] := by
    decide +kernel
  have known : ((empty.run (fun _ => default) ops).2.provider.instrument? ⟨"m", "lat"⟩).map
      (fun i => (i.descriptor.enabled, i.descriptor.numberKind, i.aggregation)) =
      some (true, .int64, .minMaxSumCount) := by decide +kernel
  have three : ((learnt (fun _ => default) ops).filterMap
      (Outcome.value? ⟨"m", "lat"⟩ "")).length = 3 := by decide +kernel
  obtain ⟨i, found, same⟩ := Option.map_eq_some_iff.1 known
  have enabled : i.descriptor.enabled = true := congrArg Prod.fst same
  have integers : i.descriptor.numberKind = .int64 := congrArg (fun x => x.2.1) same
  have aggregation : i.aggregation = .minMaxSumCount := congrArg (fun x => x.2.2) same
  have one : ∀ id i, (empty.run (fun _ => default) ops).2.provider.instrument? id = some i →
      id.meter = "m" := by
    intro id i found
    have member := Provider.meter_mem_keys found
    rw [meters] at member
    exact List.mem_singleton.1 member
  obtain ⟨-, counts, -⟩ := updates_conserved (fun _ => default) ops plain "m" one "lat" "" i found
    enabled integers
  refine ⟨i, found, (counts (by rw [aggregation]; exact Aggregation.noConfusion)).trans ?_⟩
  rw [List.length_map, three]

end Session

end Metering
