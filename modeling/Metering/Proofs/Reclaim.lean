import Metering.Proofs.Moments
import Metering.Proofs.Pending

/-!
# Series that are reclaimed

A sweep drops the series without references, and while callbacks observe for their own instruments
only, none comes after it: a callback runs before its instrument is swept. So after a collection an
enabled instrument of the meter has exactly the series that handles are on. A disabled instrument is
never swept, and keeps for good what was ever bound.
-/

namespace Metering

/-- What a series is besides its aggregator. -/
def Series.standing (s : Series) : LabelSet × Nat × Nat := (s.labels, s.refs, s.born)

/-! ## One instrument -/

namespace Instrument

variable {i j k : Instrument} {l : String}

/-- The series of some canonical labels, without its aggregator, if it has references. -/
def referenced (i : Instrument) (l : String) : Option (LabelSet × Nat × Nat) :=
  ((i.series.get? l).filter fun s => 0 < s.refs).map Series.standing

/-- All series have references. -/
def Settled (i : Instrument) : Prop := ∀ l s, i.series.get? l = some s → 0 < s.refs

theorem settled_new (d : Descriptor) (a : Aggregation) (callback : Option Callback) :
    (Instrument.new d a callback).Settled :=
  fun _ _ found => nomatch found

theorem settled_sweep (i : Instrument) (time : Timestamp) : (i.sweep time).2.Settled := by
  intro l s found
  rw [get?_sweep] at found
  obtain ⟨s', kept, rfl⟩ := Option.map_eq_some_iff.1 found
  exact of_decide_eq_true (Option.filter_eq_some_iff.1 kept).2

theorem Settled.standing (settled : i.Settled) (l : String) :
    (i.series.get? l).map Series.standing = i.referenced l := by
  rw [referenced]
  cases found : i.series.get? l with
  | none => rfl
  | some s => rw [Option.filter_some, if_pos (by simpa using settled l s found)]

theorem Settled.eq_empty (settled : i.Settled)
    (unused : ∀ l s, i.series.get? l = some s → s.refs = 0) : i.series = ∅ := by
  refine Keyed.ext_get? fun l => ?_
  cases found : i.series.get? l with
  | none => rfl
  | some s =>
    have := settled l s found
    have := unused l s found
    omega

theorem referenced_sweep (i : Instrument) (time : Timestamp) (l : String) :
    (i.sweep time).2.referenced l = i.referenced l := by
  rw [← (i.settled_sweep time).standing, get?_sweep, Option.map_map]
  rfl

/-- A value leaves the references as they are, and a series that it creates has none. -/
theorem referenced_recordChecked (i : Instrument) (value : Number) (labels : LabelSet) (l : String) :
    (i.recordChecked value labels).referenced l = i.referenced l := by
  cases enabled : i.descriptor.enabled with
  | false => rw [recordChecked_of_disabled enabled]
  | true =>
    by_cases at_ : labels.canonical = l
    · subst at_
      rw [referenced, get?_recordChecked_self enabled, referenced]
      cases found : i.series.get? labels.canonical with
      | none => rw [seriesFor_of_none found]; rfl
      | some s =>
        rw [seriesFor_of_some found, Option.filter_some, Option.filter_some]
        change Option.map _ (if decide (0 < s.refs) = true then _ else _) = _
        split <;> rfl
    · rw [referenced, get?_recordChecked_of_ne i value at_, referenced]

/-- What no collection changes of an instrument: its description, which series are referenced, and
all of its series if it is disabled. -/
structure Retains (i j : Instrument) : Prop where
  descriptor : j.descriptor = i.descriptor
  referenced : ∀ l, j.referenced l = i.referenced l
  disabled : i.descriptor.enabled = false → j.series = i.series

theorem retains_refl (i : Instrument) : i.Retains i := ⟨rfl, fun _ => rfl, fun _ => rfl⟩

theorem Retains.trans (first : i.Retains j) (second : j.Retains k) : i.Retains k := by
  refine ⟨second.descriptor.trans first.descriptor,
    fun l => (second.referenced l).trans (first.referenced l), fun off => ?_⟩
  exact (second.disabled (first.descriptor ▸ off)).trans (first.disabled off)

end Instrument

namespace Provider

variable {clock : Nat → Timestamp} {meters : String → Prop} {nested : Collection}
  {p q r : Provider} {id id' : InstrumentId} {i : Instrument} {meter name : String}
  {names : List String} {reading : Nat}

/-! ## What a collection retains -/

theorem Change.retains (change : Change clock meters p q) (found : p.instrument? id = some i) :
    ∃ j, q.instrument? id = some j ∧ i.Retains j := by
  have spread : ∀ {id' i' j}, p.instrument? id' = some i' → Puts p q id' j → i'.Retains j →
      ∃ j, q.instrument? id = some j ∧ i.Retains j := by
    intro id' i' j present puts retains
    by_cases at_ : id = id'
    · subst at_
      rw [found] at present
      cases present
      exact ⟨j, puts.self, retains⟩
    · exact ⟨i, (puts.other at_).trans found, i.retains_refl⟩
  cases change with
  | same instruments _ => exact ⟨i, instruments ▸ found, i.retains_refl⟩
  | created meter d choice callback _ _ free puts _ =>
    have other : id ≠ ⟨meter, d.name⟩ := by
      rintro rfl
      rw [found] at free
      cases free
    exact ⟨i, (puts.other other).trans found, i.retains_refl⟩
  | advanced id' i' c present _ puts _ =>
    exact spread present puts ⟨rfl, fun _ => rfl, fun _ => rfl⟩
  | accepted id' i' value labels present _ puts _ =>
    refine spread present puts ⟨by simp, i'.referenced_recordChecked value labels, fun off => ?_⟩
    rw [Instrument.recordChecked_of_disabled off]
  | swept reading id' i' present on _ puts _ =>
    refine spread present puts ⟨rfl, i'.referenced_sweep (clock reading), fun off => ?_⟩
    rw [on] at off
    cases off

theorem Reach.retains (reach : Reach clock meters p q) (found : p.instrument? id = some i) :
    ∃ j, q.instrument? id = some j ∧ i.Retains j := by
  induction reach with
  | refl => exact ⟨i, found, i.retains_refl⟩
  | tail _ step ih =>
    obtain ⟨j, present, retains⟩ := ih
    obtain ⟨k, after, retains'⟩ := step.change.retains present
    exact ⟨k, after, retains.trans retains'⟩

/-! ## Callbacks that observe for their own instruments -/

/-- From `p` to `q`, callbacks observed for their own instruments only. -/
def ObservesOwn (p q : Provider) : Prop :=
  ∀ run ∈ q.journal.drop p.journal.length, ∀ done ∈ run.did, done.isFor run.instrument = true

instance : Decidable (ObservesOwn p q) :=
  inferInstanceAs (Decidable (∀ run ∈ q.journal.drop p.journal.length, ∀ done ∈ run.did,
    done.isFor run.instrument = true))

theorem observesOwn_iff {runs : List CallbackRun} (journal : q.journal = p.journal ++ runs) :
    ObservesOwn p q ↔ ∀ run ∈ runs, ∀ done ∈ run.did, done.isFor run.instrument = true := by
  rw [ObservesOwn, journal, List.drop_left]

theorem ObservesOwn.split {os os' : List Outcome} (own : ObservesOwn p r) (first : Yields p os q)
    (second : Yields q os' r) : ObservesOwn p q ∧ ObservesOwn q r := by
  obtain ⟨runs, -, journal, -⟩ := first
  obtain ⟨runs', -, journal', -⟩ := second
  have whole : r.journal = p.journal ++ (runs ++ runs') := by
    rw [journal', journal, List.append_assoc]
  rw [observesOwn_iff whole] at own
  rw [observesOwn_iff journal, observesOwn_iff journal']
  exact ⟨fun run member => own run (List.mem_append_left _ member),
    fun run member => own run (List.mem_append_right _ member)⟩

/-- The run of a callback is noted after the runs that its actions led to. -/
theorem ObservesOwn.ended {os : List Outcome} {run : CallbackRun} (learnt : Yields p os q)
    (own : ObservesOwn p { q with journal := q.journal ++ [run] }) :
    (∀ done ∈ run.did, done.isFor run.instrument = true) ∧ ObservesOwn p q := by
  obtain ⟨runs, -, journal, -⟩ := learnt
  have whole : q.journal ++ [run] = p.journal ++ (runs ++ [run]) := by
    rw [journal, List.append_assoc]
  have told := (observesOwn_iff whole).1 own
  exact ⟨told run (List.mem_append_right _ (List.mem_singleton_self _)),
    (observesOwn_iff journal).2 fun run' member => told run' (List.mem_append_left _ member)⟩

/-! ## What a collection settles -/

/-- The instrument at a place, if there is an enabled one, has no series without references. -/
def Settled (p : Provider) (id : InstrumentId) : Prop :=
  ∀ i, p.instrument? id = some i → i.descriptor.enabled = true → i.Settled

theorem Settled.put_of_ne (settled : p.Settled id) (puts : Puts p q id' i) (other : id ≠ id') :
    q.Settled id :=
  fun j found => settled j ((puts.other other).symm.trans found)

theorem Settled.record (settled : p.Settled id) {u : Update} (other : id ≠ u.instrument) :
    (p.record u).2.Settled id := by
  rcases p.record_spec u with ⟨e, refused⟩ | ⟨i, -, -, -, puts, -⟩
  · rw [refused]
    exact settled
  · exact settled.put_of_ne puts other

theorem Settled.create (settled : p.Settled id) (tag meter : String) (d : Descriptor)
    (choice : Option Aggregation) (script : List (List Action)) :
    (p.create tag meter d choice script).2.Settled id := by
  rcases p.create_spec tag meter d choice script with ⟨e, -, unchanged⟩ | ⟨-, -, -, puts, -⟩
  · rw [unchanged]
    exact fun i found => settled i (p.instrument?_use meter ▸ found)
  · by_cases at_ : id = ⟨meter, d.name⟩
    · subst at_
      intro i found _
      rw [puts.self] at found
      cases found
      exact Instrument.settled_new _ _ _
    · exact settled.put_of_ne puts at_

/-- A collection that leaves settled what is settled, while callbacks observe for their own
instruments only. -/
def Settling (nested : Collection) : Prop :=
  ∀ meter p id, ObservesOwn p (nested meter p).2 → p.Settled id → (nested meter p).2.Settled id

theorem Settled.act (settled : p.Settled id) (settling : Settling nested) {owner : InstrumentId}
    (other : id ≠ owner) (a : Action) (isFor : (p.act nested owner a).1.isFor owner = true)
    (own : ObservesOwn p (p.act nested owner a).2) : (p.act nested owner a).2.Settled id := by
  cases a with
  | observe value labels => exact settled.record other
  | update tag value labels =>
    simp only [Provider.act] at isFor ⊢
    cases tagged : p.tags.get? tag with
    | none => exact settled
    | some target =>
      rw [tagged] at isFor
      have at_ : target = owner := by simpa [Done.isFor] using isFor
      exact settled.record (u := ⟨target, value, labels⟩) (at_ ▸ other)
  | create tag meter d choice script => exact settled.create tag meter d choice script
  | collect meter => exact settling meter p id own settled

theorem Settled.actAll (settling : Settling nested) (lossless : Lossless nested)
    {owner : InstrumentId} (other : id ≠ owner) (actions : List Action) :
    ∀ {p : Provider}, p.Settled id →
      (∀ done ∈ (p.actAll nested owner actions).1, done.isFor owner = true) →
      ObservesOwn p (p.actAll nested owner actions).2 →
        (p.actAll nested owner actions).2.Settled id := by
  induction actions with
  | nil => exact fun settled _ _ => settled
  | cons a rest ih =>
    intro p settled isFor own
    obtain ⟨first, later⟩ := own.split (yields_act lossless owner p a)
      (yields_actAll lossless owner rest (p.act nested owner a).2)
    refine ih (settled.act settling other a ?_ first)
      (fun done member => isFor done (List.mem_cons_of_mem _ member)) later
    exact isFor _ List.mem_cons_self

theorem Settled.runCallback (settled : p.Settled id) (settling : Settling nested)
    (lossless : Lossless nested) (reading : Nat) {owner : InstrumentId} (other : id ≠ owner)
    (own : ObservesOwn p (p.runCallback nested reading owner)) :
    (p.runCallback nested reading owner).Settled id := by
  unfold Provider.runCallback at own ⊢
  cases found : p.instrument? owner with
  | none => exact settled
  | some i =>
    cases called : i.callback with
    | none =>
      rw [Option.bind_some, called]
      exact settled
    | some c =>
      rw [found, Option.bind_some, called] at own
      rw [Option.bind_some, called]
      have start := settled.put_of_ne
        (puts_modify found fun i => { i with callback := some c.next.2 }) other
      have learnt := yields_actAll lossless owner c.next.1
        (p.modify owner fun i => { i with callback := some c.next.2 })
      obtain ⟨isFor, acted⟩ := ObservesOwn.ended learnt own
      exact Settled.actAll settling lossless other c.next.1 start isFor acted

/-- A sweep settles its instrument. -/
theorem settled_sweep (clock : Nat → Timestamp) (reading : Nat) (id : InstrumentId) (p : Provider) :
    (p.sweep clock reading id).2.Settled id := by
  intro j found _
  cases present : p.instrument? id with
  | none =>
    rw [sweep, present] at found
    rw [present] at found
    cases found
  | some i =>
    rw [(sweep_of_some clock reading present).2.1.self] at found
    cases found
    exact i.settled_sweep (clock reading)

theorem Settled.sweep (settled : p.Settled id) (clock : Nat → Timestamp) (reading : Nat)
    (id' : InstrumentId) : (p.sweep clock reading id').2.Settled id := by
  by_cases at_ : id = id'
  · rw [at_]
    exact settled_sweep clock reading id' p
  · cases present : p.instrument? id' with
    | none =>
      rw [Provider.sweep, present]
      exact settled
    | some i => exact settled.put_of_ne (sweep_of_some clock reading present).2.1 at_

/-- Collecting an instrument settles it, and leaves settled what is. -/
theorem settled_collectInstrument (clock : Nat → Timestamp) (settling : Settling nested)
    (lossless : Lossless nested) (reading : Nat) (id' : InstrumentId)
    (own : ObservesOwn p (p.collectInstrument clock nested reading id').2)
    (start : id = id' ∨ p.Settled id) :
    (p.collectInstrument clock nested reading id').2.Settled id := by
  by_cases on : p.isEnabled id' = true
  · rw [collectInstrument_of_enabled on] at own ⊢
    by_cases at_ : id = id'
    · rw [at_]
      exact settled_sweep clock reading id' _
    · obtain ⟨called, -⟩ := own.split (yields_runCallback lossless reading id' p)
        (yields_sweep clock reading id' _)
      exact ((start.resolve_left at_).runCallback settling lossless reading at_ called).sweep clock
        reading id'
  · rw [collectInstrument_of_disabled on]
    rcases start with rfl | settled
    · intro i found enabled
      rw [isEnabled, found, Option.any_some] at on
      exact (on enabled).elim
    · exact settled

theorem settled_collectEach (clock : Nat → Timestamp) (settling : Settling nested)
    (lossless : Lossless nested) (reading : Nat) (meter : String) (names : List String) :
    ∀ {p : Provider}, ObservesOwn p (p.collectEach clock nested reading meter names).2 →
      (id ∈ names.map (InstrumentId.mk meter) ∨ p.Settled id) →
        (p.collectEach clock nested reading meter names).2.Settled id := by
  induction names with
  | nil => exact fun _ start => start.resolve_left (List.not_mem_nil)
  | cons name rest ih =>
    intro p own start
    obtain ⟨first, later⟩ := own.split
      (yields_collectInstrument clock lossless reading ⟨meter, name⟩ p)
      (yields_collectEach clock lossless reading meter rest _)
    refine ih later ?_
    rw [List.map_cons, List.mem_cons, or_assoc] at start
    -- What the first sweep settles, and what was settled before, the later ones leave so.
    rcases start with head | tail | settled
    · exact .inr (settled_collectInstrument clock settling lossless reading _ first (.inl head))
    · exact .inl tail
    · exact .inr (settled_collectInstrument clock settling lossless reading _ first (.inr settled))

theorem settled_begun (meter : String) (settled : p.Settled id) : (p.begun meter).Settled id :=
  fun i found => settled i (p.instrument?_begun meter ▸ found)

/-- However deep collections are nested, they leave settled what is. -/
theorem settling_collectWithin (clock : Nat → Timestamp) (depth : Nat) :
    Settling (collectWithin clock depth) := by
  induction depth with
  | zero => exact fun _ _ _ _ settled => settled
  | succ depth ih =>
    intro meter p id own settled
    exact settled_collectEach clock ih (lossless_collectWithin clock depth) p.readings meter _
      (p := p.begun meter) own (.inr (settled_begun meter settled))

/-- A collection settles every instrument of its meter: those that there were by a sweep of their
own, and those that callbacks created because nothing else leaves series without references. -/
theorem settled_collect (clock : Nat → Timestamp) (meter : String) (p : Provider)
    (own : ObservesOwn p (p.collect clock meter).2) (name : String) :
    (p.collect clock meter).2.Settled ⟨meter, name⟩ := by
  have settling : Settling (collect clock) := fun meter p id =>
    settling_collectWithin clock p.depth meter p id
  rw [collect_eq_collectEach] at own ⊢
  refine settled_collectEach clock settling (yields_collect clock) p.readings meter _
    (p := p.begun meter) own ?_
  by_cases member : name ∈ (p.meter meter).names
  · exact .inl (List.mem_map_of_mem member)
  · refine .inr (settled_begun meter fun i found => (member ?_).elim)
    exact List.mem_map_of_mem (f := Prod.fst) ((Keyed.mem_entries_iff ..).2 found)

end Provider

/-! ## Sessions -/

/-- Whatever a session did, and at every moment of what it does next: a collection whose callbacks
observe for their own instruments leaves an enabled instrument of the meter exactly the series that
had references, and each of its registered label sets has a handle; so once its handles are released
it has no series. A disabled instrument keeps all of its series, referenced or not. -/
theorem Session.unreferenced_series_reclaimed (clock : Nat → Timestamp) (ops : List Operation)
    (c : Client)
    (reach : Client.Reach clock (fun _ => True) True (Session.empty.run clock ops).2.client c)
    (meter : String) (own : c.provider.ObservesOwn (c.provider.collect clock meter).2) :
    let q := (c.provider.collect clock meter).2
    (∀ name i, c.provider.instrument? ⟨meter, name⟩ = some i →
      ∃ j, q.instrument? ⟨meter, name⟩ = some j ∧ j.descriptor = i.descriptor ∧
        (i.descriptor.enabled = true →
          ∀ l, (j.series.get? l).map Series.standing = i.referenced l) ∧
        (i.descriptor.enabled = false → j.series = i.series)) ∧
    (∀ name j, q.instrument? ⟨meter, name⟩ = some j → j.descriptor.enabled = true →
      (∀ l, (j.series.get? l).isSome = true ↔
        ∃ h ∈ c.handles, h.instrument = ⟨meter, name⟩ ∧ h.labels = l) ∧
      ((∀ h ∈ c.handles, h.instrument ≠ ⟨meter, name⟩) → j.series = ∅)) := by
  intro q
  have collected : c.provider.Reach clock (fun _ => True) q :=
    Provider.reach_collect clock trivial c.provider.within_all
  have whole : Client.Reach clock (fun _ => True) True c ⟨q, c.handles⟩ :=
    Client.reach_of_provider collected
  have linked : Client.Linked ⟨q, c.handles⟩ :=
    ((Client.linked_empty.reach (Session.empty.reach_run_all ops)).reach reach).reach whole
  have settled := Provider.settled_collect clock meter c.provider own
  refine ⟨fun name i found => ?_, fun name j found enabled => ?_⟩
  · obtain ⟨j, present, retains⟩ := collected.retains found
    refine ⟨j, present, retains.descriptor, fun enabled l => ?_, retains.disabled⟩
    rw [(settled name j present (retains.descriptor ▸ enabled)).standing, retains.referenced]
  · have links := linked.linked _ j found
    have positive := settled name j found enabled
    refine ⟨fun l => ⟨fun registered => ?_, ?_⟩, fun unused => ?_⟩
    · obtain ⟨s, present⟩ := Option.isSome_iff_exists.1 registered
      have counted := positive l s present
      rw [links.refs l s present] at counted
      exact exists_of_holders_pos counted
    · rintro ⟨h, held, on, rfl⟩
      obtain ⟨s, present⟩ := links.held h held on
      exact Option.isSome_iff_exists.2 ⟨s, (Instrument.seriesOf?_eq_some_iff.1 present).1⟩
    · refine positive.eq_empty fun l s present => ?_
      rw [links.refs l s present]
      refine Nat.eq_zero_of_not_pos fun counted => ?_
      obtain ⟨h, held, on, -⟩ := exists_of_holders_pos counted
      exact unused h held on

/-- A counter with two label sets, of which one is released, keeps the other; an observer that
observed keeps none. -/
theorem Session.released_series_reclaimed :
    let clock : Nat → Timestamp := fun _ => default
    let red := LabelSet.ofList [("color", "red")]
    let hits : Descriptor := ⟨"hits", "", "", .counter, .int64, true⟩
    let load : Descriptor := ⟨"load", "", "", .valueObserver, .int64, true⟩
    let c := (Session.empty.run clock [.create "c" "m" hits none [],
      .create "o" "m" load none [[.observe (.integer 4) red]], .bind "c" .empty "h",
      .bind "c" red "g", .boundUpdate "g" (.integer 5), .release "g"]).2.client
    let q := (c.provider.collect clock "m").2
    c.provider.ObservesOwn q ∧
      (c.provider.series? ⟨"m", "hits"⟩ red.canonical).map Series.refs = some 0 ∧
      (∃ j, q.instrument? ⟨"m", "hits"⟩ = some j ∧ (j.series.get? "").isSome = true ∧
        ¬(j.series.get? red.canonical).isSome = true) ∧
      ∃ j, q.instrument? ⟨"m", "load"⟩ = some j ∧ j.series = ∅ := by
  intro clock red hits load c q
  have own : c.provider.ObservesOwn q := by decide +kernel
  have handles : c.handles = [⟨⟨"m", "hits"⟩, "", 0⟩] := by decide +kernel
  obtain ⟨-, kept⟩ := Session.unreferenced_series_reclaimed clock [.create "c" "m" hits none [],
    .create "o" "m" load none [[.observe (.integer 4) red]], .bind "c" .empty "h",
    .bind "c" red "g", .boundUpdate "g" (.integer 5), .release "g"] c .refl "m" own
  have counter : (q.instrument? ⟨"m", "hits"⟩).map Instrument.descriptor = some hits := by
    decide +kernel
  have observer : (q.instrument? ⟨"m", "load"⟩).map Instrument.descriptor = some load := by
    decide +kernel
  obtain ⟨i, found, described⟩ := Option.map_eq_some_iff.1 counter
  obtain ⟨j, found', described'⟩ := Option.map_eq_some_iff.1 observer
  obtain ⟨registered, -⟩ := kept "hits" i found (by rw [described])
  obtain ⟨-, reclaimed⟩ := kept "load" j found' (by rw [described'])
  rw [handles] at registered reclaimed
  refine ⟨own, by decide +kernel, ⟨i, found, ?_, ?_⟩, j, found', reclaimed (by decide)⟩
  · exact (registered "").2 ⟨_, List.mem_singleton_self _, rfl, rfl⟩
  · rw [registered]
    decide +kernel

/-- A disabled counter keeps a series that was bound and released, whatever is collected. -/
theorem Session.disabled_counter_keeps_released_series :
    let clock : Nat → Timestamp := fun _ => default
    let hits : Descriptor := ⟨"hits", "", "", .counter, .int64, false⟩
    let c := (Session.empty.run clock [.create "c" "m" hits none [], .bind "c" .empty "h",
      .release "h", .collect "m" none]).2.client
    c.handles = [] ∧
      ((c.provider.collect clock "m").2.series? ⟨"m", "hits"⟩ "").map Series.refs = some 0 := by
  decide +kernel

end Metering
