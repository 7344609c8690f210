import Metering.Proofs.Instrument.Local
import Metering.Proofs.Moments

/-!
# Operations on different series

An operation on a series answers from that series alone and changes it alone. So what happens to a
series in a run is told by the operations on it, in their order, whatever is done to other series in
between: runs that agree series by series answer alike and end in the same state. Of the state only
the history tells in which order the operations on different series came, and no operation looks at
it.
-/

namespace Metering

/-- What can be done to one series of an instrument. -/
inductive SeriesOperation
  | record (update : Update)
  | bind (instrument : InstrumentId) (labels : LabelSet)
  | clone (handle : Handle)
  | unbind (handle : Handle)
  | recordHeld (handle : Handle) (value : Number)
deriving DecidableEq

namespace SeriesOperation

/-- What an operation answers. -/
inductive Answer
  | result (result : Except Error Unit)
  | handle (handle : Handle)
  | done

/-- The series that an operation is meant for: its instrument and its canonical labels. -/
def target : SeriesOperation → InstrumentId × String
  | record u => (u.instrument, u.labels.canonical)
  | bind id labels => (id, labels.canonical)
  | clone h => (h.instrument, h.labels)
  | unbind h => (h.instrument, h.labels)
  | recordHeld h _ => (h.instrument, h.labels)

/-- Does an operation. -/
def perform (op : SeriesOperation) (p : Provider) : Answer × Provider :=
  match op with
  | record u => (.result (p.record u).1, (p.record u).2)
  | bind id labels => (.handle (p.bind id labels).1, (p.bind id labels).2)
  | clone h => (.handle h, p.retain h)
  | unbind h => (.done, p.release h)
  | recordHeld h value => (.result (p.recordHeld h value).1, (p.recordHeld h value).2)

/-- Does some operations in order, and lists them with what each answers. -/
def performAll (p : Provider) : List SeriesOperation → List (SeriesOperation × Answer) × Provider
  | [] => ([], p)
  | op :: rest =>
    ((op, (op.perform p).1) :: (performAll (op.perform p).2 rest).1,
      (performAll (op.perform p).2 rest).2)

/-- What becomes of the instrument that an operation is meant for. -/
def effect (op : SeriesOperation) (i : Instrument) : Instrument :=
  match op with
  | record u => i.ifTakes u.value fun i => i.recordChecked u.value u.labels
  | bind _ labels => i.bind labels
  | clone h => i.modifyHeld h Series.retain
  | unbind h => i.modifyHeld h Series.release
  | recordHeld h value => i.ifTakes value fun i => i.addHeld h value

/-- What the instrument at a place says to a value. -/
def verdict (id : InstrumentId) (value : Number) : Option Instrument → Except Error Unit
  | none => .error (.unknownInstrument id.meter id.name)
  | some i => i.descriptor.check value

/-- What an operation answers, told from the instrument that it finds. -/
def answer (op : SeriesOperation) (found : Option Instrument) : Answer :=
  match op with
  | record u => .result (verdict u.instrument u.value found)
  | bind id labels =>
    .handle ⟨id, labels.canonical, (found.map fun i => (i.seriesFor labels).born).getD 0⟩
  | clone h => .handle h
  | unbind _ => .done
  | recordHeld h value => .result (verdict h.instrument value found)

theorem local_effect (op : SeriesOperation) : Instrument.Local op.target.2 op.effect := by
  cases op with
  | record u => exact (Instrument.local_recordChecked u.value u.labels).ifTakes u.value
  | bind id labels => exact Instrument.local_bind labels
  | clone h => exact Instrument.local_modifyHeld h Series.retain
  | unbind h => exact Instrument.local_modifyHeld h Series.release
  | recordHeld h value => exact (Instrument.local_addHeld h value).ifTakes value

/-- An operation answers from the series that it is meant for. -/
theorem answer_only (op : SeriesOperation) (found : Option Instrument) :
    op.answer (found.map fun i => i.only op.target.2) = op.answer found := by
  cases found with
  | none => rfl
  | some i =>
    cases op with
    | bind id labels => simp only [answer, target, Option.map_some, Instrument.seriesFor_only]
    | _ => rfl

end SeriesOperation

/-- What a record tells besides its time. -/
def Record.untimed (r : Record) : Descriptor × String × Aggregate := (r.descriptor, r.labels, r.value)

namespace Provider

open SeriesOperation (verdict)

variable {p q : Provider} {id : InstrumentId} {i : Instrument}

/-- The provider without its history, which no operation looks at. -/
def unlogged (p : Provider) : Provider := { p with history := [] }

theorem modify_ifTakes_of_ok {value : Number} (found : p.instrument? id = some i)
    (checked : i.descriptor.check value = .ok ()) (f : Instrument → Instrument) :
    (p.modify id fun i => i.ifTakes value f) = p.modify id f := by
  refine modify_congr fun j found' => ?_
  obtain rfl := Option.some.inj (found.symm.trans found')
  exact Instrument.ifTakes_of_ok checked f

theorem modify_ifTakes_of_error {value : Number} {e : Error} (found : p.instrument? id = some i)
    (checked : i.descriptor.check value = .error e) (f : Instrument → Instrument) :
    (p.modify id fun i => i.ifTakes value f) = p := by
  refine modify_of_fixed fun j found' => ?_
  obtain rfl := Option.some.inj (found.symm.trans found')
  exact Instrument.ifTakes_of_error checked f

theorem record_eq (p : Provider) (u : Update) :
    (p.record u).1 = verdict u.instrument u.value (p.instrument? u.instrument) ∧
    (p.record u).2.unlogged = (p.modify u.instrument fun i =>
      i.ifTakes u.value fun i => i.recordChecked u.value u.labels).unlogged := by
  cases found : p.instrument? u.instrument with
  | none =>
    rw [record_of_absent found, modify_of_absent found]
    exact ⟨rfl, rfl⟩
  | some i =>
    cases checked : i.descriptor.check u.value with
    | error e =>
      rw [record_of_error found checked, modify_ifTakes_of_error found checked]
      exact ⟨checked.symm, rfl⟩
    | ok =>
      rw [record_of_ok found checked, modify_ifTakes_of_ok found checked]
      exact ⟨checked.symm, rfl⟩

theorem recordHeld_eq (p : Provider) (h : Handle) (value : Number) :
    (p.recordHeld h value).1 = verdict h.instrument value (p.instrument? h.instrument) ∧
    (p.recordHeld h value).2.unlogged = (p.modify h.instrument fun i =>
      i.ifTakes value fun i => i.addHeld h value).unlogged := by
  cases found : p.instrument? h.instrument with
  | none =>
    rw [recordHeld_of_absent found, modify_of_absent found]
    exact ⟨rfl, rfl⟩
  | some i =>
    cases checked : i.descriptor.check value with
    | error e =>
      rw [recordHeld_of_error found checked, modify_ifTakes_of_error found checked]
      exact ⟨checked.symm, rfl⟩
    | ok =>
      rw [recordHeld_of_ok found checked, modify_ifTakes_of_ok found checked]
      exact ⟨checked.symm, rfl⟩

theorem bind_eq (p : Provider) (id : InstrumentId) (labels : LabelSet) :
    (p.bind id labels).1 = ⟨id, labels.canonical,
      ((p.instrument? id).map fun i => (i.seriesFor labels).born).getD 0⟩ := by
  cases found : p.instrument? id with
  | none => rw [bind, modify_of_absent found, found]; rfl
  | some i => rw [bind_of_some found]; rfl

/-- An operation answers from the instrument that it is meant for, and changes that instrument. -/
theorem perform_eq (p : Provider) (op : SeriesOperation) :
    (op.perform p).1 = op.answer (p.instrument? op.target.1) ∧
      (op.perform p).2.unlogged = (p.modify op.target.1 op.effect).unlogged := by
  cases op with
  | record u =>
    obtain ⟨answers, leaves⟩ := p.record_eq u
    exact ⟨congrArg SeriesOperation.Answer.result answers, leaves⟩
  | bind id labels => exact ⟨congrArg SeriesOperation.Answer.handle (p.bind_eq id labels), rfl⟩
  | clone h => exact ⟨rfl, rfl⟩
  | unbind h => exact ⟨rfl, rfl⟩
  | recordHeld h value =>
    obtain ⟨answers, leaves⟩ := p.recordHeld_eq h value
    exact ⟨congrArg SeriesOperation.Answer.result answers, leaves⟩

/-! ## Series by series -/

/-- What a provider shows of one series: its instrument, without the other series. -/
def seen (p : Provider) (t : InstrumentId × String) : Option Instrument :=
  (p.instrument? t.1).map fun i => i.only t.2

theorem instrument?_perform (p : Provider) (op : SeriesOperation) :
    (op.perform p).2.instrument? = (p.modify op.target.1 op.effect).instrument? := by
  change (op.perform p).2.unlogged.instrument? = _
  rw [(p.perform_eq op).2]
  rfl

theorem seen_perform_self (p : Provider) (op : SeriesOperation) :
    (op.perform p).2.seen op.target = (p.seen op.target).map op.effect := by
  rw [seen, instrument?_perform, instrument?_modify, if_pos rfl, seen, Option.map_map, Option.map_map]
  refine Option.map_congr fun i _ => ?_
  exact op.local_effect.own i

theorem seen_perform_of_ne (p : Provider) {op : SeriesOperation} {t : InstrumentId × String}
    (other : op.target ≠ t) : (op.perform p).2.seen t = p.seen t := by
  rw [seen, instrument?_perform, instrument?_modify, seen]
  split
  · rename_i same
    rw [Option.map_map]
    refine Option.map_congr fun i _ => op.local_effect.other i fun labels => other ?_
    exact Prod.ext same.symm labels.symm
  · rfl

theorem answer_perform (p : Provider) (op : SeriesOperation) :
    (op.perform p).1 = op.answer (p.seen op.target) := by
  rw [(p.perform_eq op).1, seen, op.answer_only]

/-- Two providers that are alike besides the instruments that their meters have. -/
structure Beside (p q : Provider) : Prop where
  used : ∀ name, (p.meters.get? name).isSome = (q.meters.get? name).isSome
  tags : p.tags = q.tags
  journal : p.journal = q.journal
  readings : p.readings = q.readings

theorem Beside.symm (beside : Beside p q) : Beside q p :=
  ⟨fun name => (beside.used name).symm, beside.tags.symm, beside.journal.symm, beside.readings.symm⟩

theorem Beside.trans {r : Provider} (first : Beside p q) (second : Beside q r) : Beside p r :=
  ⟨fun name => (first.used name).trans (second.used name), first.tags.trans second.tags,
    first.journal.trans second.journal, first.readings.trans second.readings⟩

theorem beside_perform (p : Provider) (op : SeriesOperation) : Beside p (op.perform p).2 := by
  obtain ⟨-, leaves⟩ := p.perform_eq op
  simp only [unlogged, modify, mk.injEq, and_true] at leaves
  obtain ⟨meters, tags, journal, readings⟩ := leaves
  refine ⟨fun name => ?_, tags.symm, journal.symm, readings.symm⟩
  rw [meters]
  exact (isSome_modify p op.target.1 op.effect name).symm

/-- Providers that show the same series, one by one, are equal but for their histories. -/
theorem unlogged_eq_of_seen (beside : Beside p q) (same : ∀ t, p.seen t = q.seen t) :
    p.unlogged = q.unlogged := by
  have instruments : ∀ id, p.instrument? id = q.instrument? id := by
    intro id
    have shown : ∀ l, (p.instrument? id).map (fun i => i.only l) =
        (q.instrument? id).map fun i => i.only l := fun l => same (id, l)
    cases left : p.instrument? id with
    | none =>
      have right := shown ""
      rw [left] at right
      exact (Option.map_eq_none_iff.1 right.symm).symm
    | some i =>
      rw [left] at shown
      cases right : q.instrument? id with
      | none =>
        have none_ := shown ""
        rw [right] at none_
        cases none_
      | some j =>
        rw [right] at shown
        exact congrArg some (Instrument.eq_of_only fun l => Option.some.inj (shown l))
  obtain ⟨used, tags, journal, readings⟩ := beside
  have meters := meters_eq used instruments
  unfold unlogged
  rw [meters, tags, journal, readings]

/-! ## Runs, series by series -/

/-- What a series comes to by the operations on it alone, and what these answer. -/
def replay (found : Option Instrument) :
    List SeriesOperation → List (SeriesOperation × SeriesOperation.Answer) × Option Instrument
  | [] => ([], found)
  | op :: rest =>
    ((op, op.answer found) :: (replay (found.map op.effect) rest).1,
      (replay (found.map op.effect) rest).2)

open SeriesOperation (performAll)

/-- Whatever is done to other series, a series comes to what the operations on it make of it, and
these answer as if they were alone. -/
theorem performAll_at (t : InstrumentId × String) (ops : List SeriesOperation) :
    ∀ p : Provider,
      ((performAll p ops).1.filter fun e => e.1.target = t) =
        (replay (p.seen t) (ops.filter fun op => op.target = t)).1 ∧
      (performAll p ops).2.seen t =
        (replay (p.seen t) (ops.filter fun op => op.target = t)).2 := by
  induction ops with
  | nil => exact fun p => ⟨rfl, rfl⟩
  | cons op rest ih =>
    intro p
    obtain ⟨answers, shows⟩ := ih (op.perform p).2
    rw [performAll]
    -- An operation on another series drops out on both sides.
    by_cases at_ : op.target = t
    · subst at_
      rw [seen_perform_self] at answers shows
      rw [List.filter_cons_of_pos (by simp), List.filter_cons_of_pos (by simp), replay, answers,
        shows, answer_perform]
      exact ⟨rfl, rfl⟩
    · rw [seen_perform_of_ne p at_] at answers shows
      rw [List.filter_cons_of_neg (by simpa using at_), List.filter_cons_of_neg (by simpa using at_)]
      exact ⟨answers, shows⟩

theorem beside_performAll (ops : List SeriesOperation) :
    ∀ p : Provider, Beside p (performAll p ops).2 := by
  induction ops with
  | nil => exact fun p => ⟨fun _ => rfl, rfl, rfl, rfl⟩
  | cons op rest ih => exact fun p => (beside_perform p op).trans (ih (op.perform p).2)

/-- Runs that agree series by series end in the same state, but for the history. -/
theorem unlogged_performAll (p : Provider) {ops ops' : List SeriesOperation}
    (agree : ∀ t, ops.filter (fun op => op.target = t) = ops'.filter fun op => op.target = t) :
    (performAll p ops).2.unlogged = (performAll p ops').2.unlogged := by
  refine unlogged_eq_of_seen ((beside_performAll ops p).symm.trans (beside_performAll ops' p)) ?_
  intro t
  rw [(performAll_at t ops p).2, (performAll_at t ops' p).2, agree t]

/-! ## The next collection -/

/-- A meter whose instruments have no callbacks. -/
def Unobserved (p : Provider) (meter : String) : Prop :=
  ∀ name i, p.instrument? ⟨meter, name⟩ = some i → i.callback = none

theorem Unobserved.perform {meter : String} (unobserved : p.Unobserved meter)
    (op : SeriesOperation) : (op.perform p).2.Unobserved meter := by
  intro name j found
  rw [instrument?_perform, instrument?_modify] at found
  split at found
  · obtain ⟨i, present, rfl⟩ := Option.map_eq_some_iff.1 found
    have same : (op.effect i).bare.callback = i.bare.callback := by rw [op.local_effect.bare i]
    exact same.trans (unobserved name i present)
  · exact unobserved name j found

theorem Unobserved.performAll {meter : String} (ops : List SeriesOperation) :
    ∀ {p : Provider}, p.Unobserved meter → (SeriesOperation.performAll p ops).2.Unobserved meter := by
  induction ops with
  | nil => exact id
  | cons op rest ih => exact fun unobserved => ih (unobserved.perform op)

/-- Without callbacks each enabled instrument is found as the collection finds it at its begin,
because the sweeps before are of other instruments. -/
theorem records_collectEach_unobserved {clock : Nat → Timestamp} {nested : Collection}
    {reading : Nat} {meter : String} {names : List String} (distinct : names.Nodup)
    (unobserved : p.Unobserved meter) : ∀ {q : Provider},
      (∀ name ∈ names, q.instrument? ⟨meter, name⟩ = p.instrument? ⟨meter, name⟩) →
        (q.collectEach clock nested reading meter names).1 =
          ((names.map (InstrumentId.mk meter)).filter p.isEnabled).flatMap
            (p.snapshot (clock reading)) := by
  induction names with
  | nil => exact fun _ => rfl
  | cons name rest ih =>
    intro q same
    obtain ⟨fresh, distinct⟩ := List.nodup_cons.1 distinct
    have here : q.instrument? ⟨meter, name⟩ = p.instrument? ⟨meter, name⟩ :=
      same name List.mem_cons_self
    have later : ∀ other ∈ rest, q.instrument? ⟨meter, other⟩ = p.instrument? ⟨meter, other⟩ :=
      fun other member => same other (List.mem_cons_of_mem _ member)
    have enabled : q.isEnabled ⟨meter, name⟩ = p.isEnabled ⟨meter, name⟩ := by
      rw [isEnabled, here, isEnabled]
    change (q.collectInstrument clock nested reading ⟨meter, name⟩).1 ++
      ((q.collectInstrument clock nested reading ⟨meter, name⟩).2.collectEach clock nested reading
        meter rest).1 = _
    rw [List.map_cons]
    by_cases on : p.isEnabled ⟨meter, name⟩ = true
    · obtain ⟨i, found, -⟩ := (Option.any_eq_true _ _).1 on
      have silent : (q.instrument? ⟨meter, name⟩).bind Instrument.callback = none := by
        rw [here, found]
        exact unobserved name i found
      have puts := (sweep_of_some clock reading (here.trans found)).2.1
      rw [collectInstrument_of_enabled (enabled.trans on), runCallback_of_none nested reading silent,
        List.filter_cons_of_pos on, List.flatMap_cons, sweep_eq_snapshot]
      rw [ih distinct fun other member => ?_]
      · rw [snapshot, here, snapshot]
      · rw [puts.other fun at_ => fresh (InstrumentId.mk.inj at_ |>.2 ▸ member)]
        exact later other member
    · rw [collectInstrument_of_disabled (enabled ▸ on), List.filter_cons_of_neg on]
      exact ih distinct later

theorem records_collect_unobserved {clock : Nat → Timestamp} {meter : String}
    (unobserved : p.Unobserved meter) :
    (p.collect clock meter).1 = (p.enabled meter).flatMap (p.snapshot (clock p.readings)) := by
  rw [collect_eq_collectEach]
  refine records_collectEach_unobserved ?_ unobserved fun name _ => ?_
  · exact (p.meter meter).instruments.nodup_keys
  · rw [instrument?_begun]

/-- Meters without callbacks are told by their instruments. -/
theorem unobserved_of_values {meter : String}
    (silent : ∀ i ∈ (p.meter meter).instruments.values, i.callback.isNone = true) :
    p.Unobserved meter := by
  intro name i found
  exact Option.isNone_iff_eq_none.1 (silent i ((Keyed.mem_values_iff _ i).2 ⟨name, found⟩))

theorem untimed_snapshot (p : Provider) (time time' : Timestamp) (id : InstrumentId) :
    (p.snapshot time id).map Record.untimed = (p.snapshot time' id).map Record.untimed := by
  rw [snapshot, snapshot]
  cases p.instrument? id with
  | none => rfl
  | some i =>
    simp only [Option.map_some, Option.getD_some, List.map_map]
    rfl

/-- What a meter without callbacks reports does not depend on the history, and only the time of the
records on the clock. -/
theorem untimed_collect {meter : String} (same : p.unlogged = q.unlogged)
    (unobserved : p.Unobserved meter) (unobserved' : q.Unobserved meter)
    (clock clock' : Nat → Timestamp) :
    (p.collect clock meter).1.map Record.untimed = (q.collect clock' meter).1.map Record.untimed := by
  have enabled : p.enabled meter = q.enabled meter := by
    change p.unlogged.enabled meter = q.unlogged.enabled meter
    rw [same]
  have snapshots : p.snapshot = q.snapshot := by
    change p.unlogged.snapshot = q.unlogged.snapshot
    rw [same]
  rw [records_collect_unobserved unobserved, records_collect_unobserved unobserved', enabled,
    snapshots, List.map_flatMap, List.map_flatMap]
  exact congrArg (fun f => List.flatMap f _) (funext fun id => q.untimed_snapshot _ _ id)

/-- Two operations that are next to each other and on different series may be exchanged without a
series noticing. -/
theorem filter_exchange {a b : SeriesOperation} (apart : a.target ≠ b.target)
    (before after : List SeriesOperation) (t : InstrumentId × String) :
    (before ++ a :: b :: after).filter (fun op => op.target = t) =
      (before ++ b :: a :: after).filter fun op => op.target = t := by
  rw [List.filter_append, List.filter_append]
  refine congrArg _ ?_
  by_cases first : a.target = t
  · have second : b.target ≠ t := fun second => apart (first.trans second.symm)
    simp [first, second]
  · simp [List.filter_cons, first]

/-- Operations on different series commute: each answers as if the other had not come before, and
they lead to the same state in either order. So runs that agree on the operations on every single
series give the same answers, lead to the same state and are followed by the same collection, but
for the time of its records, of any meter without callbacks. -/
theorem series_operations_commute (p : Provider) :
    (∀ a b : SeriesOperation, a.target ≠ b.target →
      (b.perform (a.perform p).2).1 = (b.perform p).1 ∧
      (a.perform (b.perform p).2).1 = (a.perform p).1 ∧
      (b.perform (a.perform p).2).2.unlogged = (a.perform (b.perform p).2).2.unlogged) ∧
    ∀ ops ops' : List SeriesOperation,
      (∀ t, ops.filter (fun op => op.target = t) = ops'.filter fun op => op.target = t) →
      (∀ t, (performAll p ops).1.filter (fun e => e.1.target = t) =
        (performAll p ops').1.filter fun e => e.1.target = t) ∧
      (performAll p ops).2.unlogged = (performAll p ops').2.unlogged ∧
      ∀ meter, p.Unobserved meter → ∀ clock clock',
        ((performAll p ops).2.collect clock meter).1.map Record.untimed =
          ((performAll p ops').2.collect clock' meter).1.map Record.untimed := by
  refine ⟨fun a b apart => ⟨?_, ?_, ?_⟩, fun ops ops' agree => ⟨fun t => ?_, ?_, ?_⟩⟩
  · rw [answer_perform, answer_perform, seen_perform_of_ne p apart]
  · rw [answer_perform, answer_perform, seen_perform_of_ne p apart.symm]
  · exact p.unlogged_performAll (filter_exchange apart [] [])
  · rw [(performAll_at t ops p).1, (performAll_at t ops' p).1, agree t]
  · exact p.unlogged_performAll agree
  · intro meter unobserved clock clock'
    exact untimed_collect (p.unlogged_performAll agree) (unobserved.performAll ops)
      (unobserved.performAll ops') clock clock'

/-- A counter takes values under two label sets and a handle, a recorder takes one, in two orders. -/
theorem exchanged_operations_collect_alike :
    let hits : Descriptor := ⟨"hits", "", "", .counter, .int64, true⟩
    let sizes : Descriptor := ⟨"sizes", "", "", .valueRecorder, .float64, true⟩
    let p := ((empty.create "a" "m" hits none []).2.create "b" "m" sizes none []).2
    let red := LabelSet.ofList [("color", "red")]
    let bind := SeriesOperation.bind ⟨"m", "hits"⟩ red
    let held := SeriesOperation.recordHeld ⟨⟨"m", "hits"⟩, red.canonical, 0⟩ (.integer 2)
    let size := SeriesOperation.record ⟨⟨"m", "sizes"⟩, .float 0.5, red⟩
    let hit := SeriesOperation.record ⟨⟨"m", "hits"⟩, .integer 3, .empty⟩
    held.target ≠ size.target ∧ p.Unobserved "m" ∧
      (hit.perform (bind.perform p).2).2.unlogged = (bind.perform (hit.perform p).2).2.unlogged ∧
      ∀ clock clock',
        ((performAll p [bind, held, size, hit]).2.collect clock "m").1.map Record.untimed =
          ((performAll p [bind, size, held, hit]).2.collect clock' "m").1.map Record.untimed := by
  intro hits sizes p red bind held size hit
  have apart : held.target ≠ size.target := by decide +kernel
  have apart' : bind.target ≠ hit.target := by decide +kernel
  have unobserved : p.Unobserved "m" := unobserved_of_values (by decide +kernel)
  obtain ⟨exchange, runs⟩ := p.series_operations_commute
  obtain ⟨-, -, collects⟩ := runs [bind, held, size, hit] [bind, size, held, hit]
    (filter_exchange apart [bind] [hit])
  exact ⟨apart, unobserved, (exchange bind hit apart').2.2, collects "m" unobserved⟩

end Provider

end Metering
