import Metering.Proofs.Balance
import Metering.Proofs.Lasting
import Metering.Proofs.Processor.Counts
import Metering.Proofs.Provider.Drain
import Metering.Proofs.Provider.Readings

/-!
# A meter with one collector

While only one program collects a meter, the records that it was given of a series are all that were
taken from the series. `Client.Collected` says this of the collections `cs`; what a processor with
memory then reports of a counter is what the counter accepted.
-/

namespace Metering

/-! ## Events of one instrument -/

theorem valuesOf_append (l : String) (new old : List Event) :
    valuesOf l (new ++ old) = valuesOf l old ++ valuesOf l new := by
  induction new with
  | nil => exact (List.append_nil _).symm
  | cons e rest ih =>
    cases e with
    | accepted id l' v =>
      rw [List.cons_append, valuesOf, valuesOf, ih]
      split
      · rw [List.append_assoc]
      · rfl
    | swept reading id records => exact ih

theorem recordsOf_append (l : String) (new old : List Event) :
    recordsOf l (new ++ old) = recordsOf l old ++ recordsOf l new := by
  induction new with
  | nil => exact (List.append_nil _).symm
  | cons e rest ih =>
    cases e with
    | accepted id l' v => exact ih
    | swept reading id records =>
      rw [List.cons_append, recordsOf, recordsOf, ih, List.append_assoc]

theorem recordsOf_eq_nil {l : String} {events : List Event}
    (unswept : ∀ reading id records, .swept reading id records ∉ events) :
    recordsOf l events = [] := by
  induction events with
  | nil => rfl
  | cons e rest ih =>
    cases e with
    | accepted id l' v =>
      exact ih fun reading id records member =>
        unswept reading id records (List.mem_cons_of_mem _ member)
    | swept reading id records => exact absurd List.mem_cons_self (unswept reading id records)

theorem swept_of_mem_recordsOf {l : String} {events : List Event} {r : Record}
    (member : r ∈ recordsOf l events) :
    ∃ reading id records, .swept reading id records ∈ events ∧ r ∈ records := by
  induction events with
  | nil => cases member
  | cons e rest ih =>
    cases e with
    | accepted id l' v =>
      obtain ⟨reading, id', records, swept, among⟩ := ih member
      exact ⟨reading, id', records, List.mem_cons_of_mem _ swept, among⟩
    | swept reading id records =>
      rcases List.mem_append.1 member with old | new
      · obtain ⟨reading', id', records', swept, among⟩ := ih old
        exact ⟨reading', id', records', List.mem_cons_of_mem _ swept, among⟩
      · exact ⟨reading, id, records, List.mem_cons_self, (List.mem_filter.1 new).1⟩

/-- The values that were accepted for some canonical labels before the latest sweep that took a
reading. -/
def valuesBefore (reading : Nat) (l : String) : List Event → List Number
  | [] => []
  | .accepted _ _ _ :: rest => valuesBefore reading l rest
  | .swept r _ _ :: rest => if r = reading then valuesOf l rest else valuesBefore reading l rest

/-- All values were accepted before the sweep with a reading or are pending, if no sweep with
another reading came after it. -/
theorem valuesBefore_append_pending {reading : Nat} {l : String} {new old : List Event}
    (readings : ∀ r id records, .swept r id records ∈ new → r = reading)
    (swept : (∃ r id records, .swept r id records ∈ new) ∨ old = []) :
    valuesBefore reading l (new ++ old) ++ pendingOf l (new ++ old) = valuesOf l (new ++ old) ∧
      valuesOf l old <+: valuesBefore reading l (new ++ old) := by
  induction new with
  | nil =>
    rcases swept with ⟨r, id, records, none_⟩ | rfl
    · cases none_
    · exact ⟨rfl, List.prefix_refl _⟩
  | cons e rest ih =>
    cases e with
    | accepted id l' v =>
      have after := ih (fun r id records member => readings r id records
        (List.mem_cons_of_mem _ member)) (by
        rcases swept with ⟨r, id', records, member⟩ | none_
        · rcases List.mem_cons.1 member with here | there
          · cases here
          · exact Or.inl ⟨r, id', records, there⟩
        · exact Or.inr none_)
      refine ⟨?_, after.2⟩
      rw [List.cons_append, valuesBefore, pendingOf, valuesOf]
      split
      · rw [← List.append_assoc, after.1]
      · exact after.1
    | swept r id records =>
      have here : valuesBefore reading l (.swept r id records :: (rest ++ old)) =
          valuesOf l (rest ++ old) := if_pos (readings r id records List.mem_cons_self)
      rw [List.cons_append, here, pendingOf, List.append_nil, valuesOf, valuesOf_append]
      exact ⟨rfl, List.prefix_append _ _⟩

/-- What a collection of a meter takes from one of its series. -/
theorem filter_recordsAt {m n l : String} {reading : Nat} {events : List Event}
    (own : ∀ r id records, .swept r id records ∈ events → (r = reading ↔ id.meter = m))
    (named : ∀ r id records, .swept r id records ∈ events → ∀ r ∈ records, r.name = id.name) :
    (recordsAt reading events).filter (fun r => r.key = ⟨n, l⟩) =
      recordsOf l (events.filter fun e => e.instrument = ⟨m, n⟩) := by
  induction events with
  | nil => rfl
  | cons e rest ih =>
    have after := ih (fun r id records member => own r id records (List.mem_cons_of_mem _ member))
      fun r id records member => named r id records (List.mem_cons_of_mem _ member)
    cases e with
    | accepted id l' v =>
      rw [recordsAt, after]
      by_cases at_ : id = ⟨m, n⟩
      · rw [List.filter_cons_of_pos (by simp [Event.instrument, at_]), recordsOf]
      · rw [List.filter_cons_of_neg (by simp [Event.instrument, at_])]
    | swept r id records =>
      have meter := own r id records List.mem_cons_self
      have names := named r id records List.mem_cons_self
      by_cases at_ : id = ⟨m, n⟩
      · subst at_
        rw [List.filter_cons_of_pos (by simp [Event.instrument]), recordsOf, recordsAt,
          if_pos (meter.2 rfl), List.filter_append, after, filter_key names, if_pos rfl]
      · rw [List.filter_cons_of_neg (by simp [Event.instrument, at_]), recordsAt]
        split
        · rename_i here
          have other : id.name ≠ n := by
            rintro rfl
            exact at_ (by rw [← meter.1 here])
          rw [List.filter_append, after, filter_key names, if_neg other, List.append_nil]
        · exact after

/-! ## Counters -/

namespace Instrument

variable {i : Instrument} {notes : List Event} {l : String} {choice : Option Aggregation}

theorem aggregation_of_monotonic (monotonic : i.descriptor.kind.isMonotonic = true)
    (made : i.aggregation = Provider.aggregationFor i.descriptor.kind choice) :
    i.aggregation = .sum := by
  rw [made]
  cases kind : i.descriptor.kind <;> rw [kind] at monotonic <;> first | rfl | cases monotonic

/-- A counter of integers accepts none below zero. -/
theorem nonneg_of_check {d : Descriptor} {v : Number} (monotonic : d.kind.isMonotonic = true)
    (checked : d.check v = .ok ()) (integers : d.numberKind = .int64) :
    0 ≤ (d.number v).amount := by
  have kind : (d.number v).kind = .int64 := (d.kind_number v).trans integers
  have sign := (Descriptor.check_eq_ok_iff.1 checked).2 monotonic
  cases amount : d.number v with
  | float x =>
    rw [amount] at kind
    cases kind
  | integer x =>
    rw [amount] at sign
    have order : ¬x < 0 := of_decide_eq_false sign
    rw [Int64.lt_iff_toInt_lt] at order
    exact Int.not_lt.1 order

/-- The records of a counter of integers are counts, and add up to the values before the latest
sweep or to the limit. -/
theorem Balanced.counts (balanced : i.Balanced notes l) {accepted : List Number}
    (taken : accepted ++ pendingOf l notes = valuesOf l notes)
    (aggregation : i.aggregation = .sum) (integers : i.descriptor.numberKind = .int64)
    (monotonic : i.descriptor.kind.isMonotonic = true) :
    (∀ r ∈ recordsOf l notes, r.value.Count) ∧
      Min.min Number.limit (Aggregate.exactSum ((recordsOf l notes).map Record.value)) =
        Min.min Number.limit (Number.exactSum (accepted.map i.descriptor.number)) ∧
      (recordsOf l notes = [] → accepted = []) := by
  obtain ⟨portions, values, records⟩ := balanced.portions
  rw [values] at taken
  have whole : accepted = portions.flatten := List.append_cancel_right taken
  have ofValues : ∀ vs, i.ofValues vs =
      Aggregate.ofValues .int64 .sum (vs.map i.descriptor.number) := by
    intro vs
    rw [Instrument.ofValues, integers, aggregation]
  have checked : ∀ v ∈ portions.flatten, i.descriptor.check v = .ok () := fun v member =>
    balanced.checked v (by rw [values]; exact List.mem_append_left _ member)
  have kinds : ∀ n ∈ portions.flatten.map i.descriptor.number, n.kind = .int64 := by
    rw [← integers]
    exact kinds_number i.descriptor portions.flatten
  have signs : ∀ n ∈ portions.flatten.map i.descriptor.number, 0 ≤ n.amount := by
    intro n member
    obtain ⟨v, among, rfl⟩ := List.mem_map.1 member
    exact nonneg_of_check monotonic (checked v among) integers
  have cut : portions.map i.ofValues =
      (portions.map (List.map i.descriptor.number)).map (Aggregate.ofValues .int64 .sum) := by
    rw [List.map_map]
    exact List.map_congr_left fun vs _ => ofValues vs
  rw [List.map_flatten] at kinds signs
  refine ⟨fun r member => ?_, ?_, fun none_ => ?_⟩
  · have told : r.value ∈ portions.map i.ofValues := by
      rw [← records]
      exact List.mem_map_of_mem member
    rw [cut] at told
    obtain ⟨ns, among, same⟩ := List.mem_map.1 told
    rw [← same]
    exact (Aggregate.count_ofValues
      (fun n held => kinds n (List.mem_flatten.2 ⟨ns, among, held⟩))
      fun n held => signs n (List.mem_flatten.2 ⟨ns, among, held⟩)).1
  · rw [records, cut, whole, List.map_flatten]
    exact Aggregate.exactSum_portions kinds signs
  · rw [none_, List.map_nil] at records
    rw [whole, List.map_eq_nil_iff.1 records.symm]
    rfl

end Instrument

/-! ## Programs -/

namespace Client

variable {clock : Nat → Timestamp} {m : String} {cs : List (List Record)} {c c' : Client}
  {p : Provider} {hs : List Handle}

/-- The records `cs` are all that was collected of a meter, which callbacks leave alone. -/
structure Collected (m : String) (cs : List (List Record)) (c : Client) : Prop where
  balanced : c.Balanced
  regular : c.Regular
  within : c.provider.Within (· ≠ m)
  taken : ∀ n l, Processor.seen cs ⟨n, l⟩ = recordsOf l (c.provider.notes ⟨m, n⟩)

theorem collected_empty (m : String) : Collected m [] ⟨.empty, []⟩ where
  balanced := balanced_empty
  regular := regular_empty
  within _ _ _ found := nomatch found
  taken _ _ := rfl

/-- What leaves a meter alone leaves its records alone. -/
theorem Collected.reach (collected : Collected m cs c) (reach : Reach clock (· ≠ m) False c c') :
    Collected m cs c' where
  balanced := collected.balanced.reach reach
  regular := collected.regular.reach collected.balanced.linked reach
  within := reach.within collected.within
  taken n l := by
    obtain ⟨events, noted, -, others⟩ := (collected.balanced.linked.later reach).notes ⟨m, n⟩
    have unswept : recordsOf l events = [] :=
      recordsOf_eq_nil fun reading id records member => others reading id records member rfl
    rw [noted, recordsOf_append, unswept, List.append_nil]
    exact collected.taken n l

/-- The events of a collection: sweeps of the meter take the reading of the collection, and are the
only ones that do; the instruments that are enabled are swept. -/
theorem Collected.events (clock : Nat → Timestamp) (collected : Collected m cs ⟨p, hs⟩) :
    ∃ events, (p.collect clock m).2.history = events ++ p.history ∧
      recordsAt p.readings events = (p.collect clock m).1 ∧
      (∀ r id records, .swept r id records ∈ events → (r = p.readings ↔ id.meter = m)) ∧
      ∀ n i, p.instrument? ⟨m, n⟩ = some i → i.descriptor.enabled = true →
        ∃ records, .swept p.readings ⟨m, n⟩ records ∈ events := by
  obtain ⟨-, events, noted, taken, readings⟩ := Provider.takes_collect clock m p
  obtain ⟨events', noted', own, all⟩ := (Provider.drains_collect clock collected.within).swept
  rw [noted] at noted'
  cases List.append_cancel_right noted'
  refine ⟨events, noted, taken,
    fun r id records member => ⟨fun here => ?_, own r id records member⟩,
    fun n i found => all n (Provider.mem_names_of_instrument? found) i found⟩
  rcases readings r id records member with ⟨-, meter⟩ | later
  · exact meter
  · omega

theorem Collected.collect (clock : Nat → Timestamp) (collected : Collected m cs ⟨p, hs⟩) :
    Collected m (cs ++ [(p.collect clock m).1]) ⟨(p.collect clock m).2, hs⟩ := by
  have linked := collected.balanced.linked
  have reach : Reach clock (fun _ => True) False ⟨p, hs⟩ ⟨(p.collect clock m).2, hs⟩ :=
    reach_of_provider (Provider.reach_collect clock trivial p.within_all)
  have regular := collected.regular.reach linked reach
  refine ⟨collected.balanced.reach reach, regular,
    (Provider.drains_collect clock collected.within).within, fun n l => ?_⟩
  obtain ⟨events, noted, taken, own, -⟩ := collected.events clock
  have named : ∀ reading id records, .swept reading id records ∈ events →
      ∀ r ∈ records, r.name = id.name := by
    intro reading id records swept r member
    have noted' : .swept reading id records ∈ (p.collect clock m).2.history := by
      rw [noted]
      exact List.mem_append_left _ swept
    exact regular.name noted' member
  rw [Processor.seen_concat, collected.taken, ← taken, filter_recordsAt own named,
    Provider.notes_of_history events noted, recordsOf_append]

section Reported

variable {n : String} {d : Descriptor}

/-- What is collected of an enabled instrument comes of one sweep, with the reading of the
collection: what was accepted before the collection was accepted before that sweep, and what was not
is pending after it. -/
theorem Collected.valuesBefore (clock : Nat → Timestamp) (collected : Collected m cs ⟨p, hs⟩)
    (known : ∀ i, (p.collect clock m).2.instrument? ⟨m, n⟩ = some i → i.descriptor = d)
    (enabled : d.enabled = true) (l : String) :
    let notes := (p.collect clock m).2.notes ⟨m, n⟩
    valuesBefore p.readings l notes ++ pendingOf l notes = valuesOf l notes ∧
      valuesOf l (p.notes ⟨m, n⟩) <+: valuesBefore p.readings l notes := by
  intro notes
  obtain ⟨events, noted, -, own, all⟩ := collected.events clock
  have split_ : notes = events.filter (fun e => e.instrument = ⟨m, n⟩) ++ p.notes ⟨m, n⟩ :=
    Provider.notes_of_history events noted
  rw [split_]
  refine valuesBefore_append_pending (fun r id records member => ?_) ?_
  · obtain ⟨among, at_⟩ := List.mem_filter.1 member
    have here : id = ⟨m, n⟩ := of_decide_eq_true at_
    exact (own r id records among).2 (congrArg InstrumentId.meter here)
  · cases before : p.instrument? ⟨m, n⟩ with
    | none => exact Or.inr (collected.balanced.absent _ before)
    | some i =>
      have later := (Provider.drains_collect clock collected.within).later
      obtain ⟨j, present, descriptor, -⟩ := later.instruments _ i before
      have on : i.descriptor.enabled = true := by rw [← descriptor, known j present, enabled]
      obtain ⟨records, member⟩ := all n i before on
      exact Or.inl ⟨_, _, records, List.mem_filter.2 ⟨member, decide_eq_true rfl⟩⟩

/-- The records of a series of a counter are counts, and add up to what it accepted before it was
swept. -/
theorem Collected.counts (clock : Nat → Timestamp) (collected : Collected m cs ⟨p, hs⟩)
    (known : ∀ i, (p.collect clock m).2.instrument? ⟨m, n⟩ = some i → i.descriptor = d)
    (enabled : d.enabled = true) (integers : d.numberKind = .int64)
    (monotonic : d.kind.isMonotonic = true) (l : String) :
    let accepted := Metering.valuesBefore p.readings l ((p.collect clock m).2.notes ⟨m, n⟩)
    let seen := Processor.seen (cs ++ [(p.collect clock m).1]) ⟨n, l⟩
    (∀ r ∈ seen, r.descriptor = d ∧ r.value.Count) ∧
      Min.min Number.limit (Aggregate.exactSum (seen.map Record.value)) =
        Min.min Number.limit (Number.exactSum (accepted.map d.number)) ∧
      (seen = [] → accepted = []) := by
  intro accepted seen
  have after := collected.collect clock
  have taken : seen = recordsOf l ((p.collect clock m).2.notes ⟨m, n⟩) := after.taken n l
  rw [taken]
  cases found : (p.collect clock m).2.instrument? ⟨m, n⟩ with
  | none =>
    have unknown : (p.collect clock m).2.notes ⟨m, n⟩ = [] := after.balanced.absent _ found
    simp only [accepted, unknown]
    exact ⟨fun _ none_ => (nomatch none_), rfl, fun _ => rfl⟩
  | some i =>
    have same := known i found
    subst same
    obtain ⟨choice, made⟩ := after.regular.aggregations _ i found
    obtain ⟨counts, sum, none_⟩ := (after.balanced.balanced _ i found enabled l).counts
      (collected.valuesBefore clock known enabled l).1
      (Instrument.aggregation_of_monotonic monotonic made) integers monotonic
    refine ⟨fun r member => ⟨?_, counts r member⟩, sum, none_⟩
    obtain ⟨reading, id, records, swept, among⟩ := swept_of_mem_recordsOf member
    have here : id = ⟨m, n⟩ := of_decide_eq_true (List.mem_filter.1 swept).2
    subst here
    obtain ⟨i', found', descriptor⟩ := after.regular.records reading _ records swept r among
    rw [found] at found'
    cases found'
    exact descriptor

/-- With memory, what is reported of a series of a counter is what it accepted before it was
swept. -/
theorem Collected.reported (clock : Nat → Timestamp) (collected : Collected m cs ⟨p, hs⟩)
    (known : ∀ i, (p.collect clock m).2.instrument? ⟨m, n⟩ = some i → i.descriptor = d)
    (enabled : d.enabled = true) (integers : d.numberKind = .int64)
    (monotonic : d.kind.isMonotonic = true) (l : String) :
    let notes := (p.collect clock m).2.notes ⟨m, n⟩
    let accepted := Metering.valuesBefore p.readings l notes
    let batch := (((Processor.empty .stateful).after cs).cycle (p.collect clock m).1).1
    (recordsOf l notes = [] ∧ accepted = [] ∧ batch.filter (fun r => r.key = ⟨n, l⟩) = []) ∨
      (recordsOf l notes ≠ [] ∧ ∃ r, batch.filter (fun r => r.key = ⟨n, l⟩) = [r] ∧
        r.value.Count ∧ r.value.total.amount =
          Min.min Number.limit (Number.exactSum (accepted.map d.number))) := by
  intro notes accepted batch
  obtain ⟨counts, sum, none_⟩ := collected.counts clock known enabled integers monotonic l
  have taken : Processor.seen (cs ++ [(p.collect clock m).1]) ⟨n, l⟩ = recordsOf l notes :=
    (collected.collect clock).taken n l
  rcases Processor.reported_of_counts cs _ counts with
    ⟨unseen, silent⟩ | ⟨some_, r, told, count, amount⟩
  · exact Or.inl ⟨taken.symm.trans unseen, none_ unseen, silent⟩
  · exact Or.inr ⟨taken ▸ some_, r, told, count, amount.trans sum⟩

end Reported

end Client

end Metering
