import Metering.Proofs.Collector
import Metering.Proofs.Processor.Sums
import Metering.Proofs.Provider.Outcome

/-!
# What a collection leaves behind

A value that an instrument accepts after it was swept waits for the next collection. While the
callbacks of a program observe for their own instruments only, this does not happen within a
collection: a callback runs before its instrument is swept, and no other callback comes near it.
So no value of an enabled instrument is pending when a collection of its meter returns
(`Collected.pending_collect`), and its aggregators are not marked as changed. The records that were
taken of it then hold all that it accepted.
-/

namespace Metering

theorem pendingOf_append {l : String} {new old : List Event} (nothing : pendingOf l old = [])
    (unaccepted : ∀ id v, .accepted id l v ∉ new) : pendingOf l (new ++ old) = [] := by
  induction new with
  | nil => exact nothing
  | cons e rest ih =>
    cases e with
    | accepted id l' v =>
      have other : l' ≠ l := by
        rintro rfl
        exact unaccepted id v List.mem_cons_self
      rw [List.cons_append, pendingOf, if_neg other]
      exact ih fun id v member => unaccepted id v (List.mem_cons_of_mem _ member)
    | swept reading id records => rfl

/-- Whether an action brought no value to another instrument. -/
def Done.isFor (id : InstrumentId) : Done → Bool
  | .recorded u _ => u.instrument = id
  | _ => true

namespace Provider

variable {clock : Nat → Timestamp} {nested : Collection} {m n l : String} {reading : Nat}
  {p q r : Provider} {id id' : InstrumentId} {names : List String} {rs : List Record}

/-! ## Callbacks of other instruments -/

/-- Callbacks that have run observed for their own instruments only. -/
def SelfObserving (p : Provider) : Prop :=
  ∀ run ∈ p.journal, ∀ done ∈ run.did, done.isFor run.instrument = true

instance (p : Provider) : Decidable p.SelfObserving :=
  inferInstanceAs (Decidable (∀ run ∈ p.journal, ∀ done ∈ run.did, done.isFor run.instrument = true))

/-- From `p` to `q`, the callback of an instrument was not run. -/
def Silent (id : InstrumentId) (p q : Provider) : Prop :=
  ∃ runs, q.journal = p.journal ++ runs ∧ ∀ run ∈ runs, run.instrument ≠ id

theorem silent_of_same (journal : q.journal = p.journal) : Silent id p q :=
  ⟨[], by rw [journal, List.append_nil], fun _ none_ => nomatch none_⟩

theorem Silent.trans (first : Silent id p q) (second : Silent id q r) : Silent id p r := by
  obtain ⟨runs, journal, others⟩ := first
  obtain ⟨runs', journal', others'⟩ := second
  refine ⟨runs ++ runs', by rw [journal', journal, List.append_assoc], fun run member => ?_⟩
  exact (List.mem_append.1 member).elim (others run) (others' run)

/-- Collecting other meters does not run the callback of an instrument of this one. -/
def Apart (m : String) (nested : Collection) : Prop :=
  ∀ meter p, meter ≠ m → p.Within (· ≠ m) → ∀ n, Silent ⟨m, n⟩ p (nested meter p).2

theorem silent_act (apart : Apart m nested) (inside : p.Within (· ≠ m)) (owner : InstrumentId)
    (a : Action) (allowed : ∀ t ∈ a.targets, t ≠ m) : Silent ⟨m, n⟩ p (p.act nested owner a).2 := by
  have recorded : ∀ u, Silent ⟨m, n⟩ p (p.record u).2 := by
    intro u
    unfold record
    split
    · exact silent_of_same rfl
    · split <;> exact silent_of_same rfl
  cases a with
  | observe value labels => exact recorded _
  | update tag value labels =>
    simp only [act]
    cases p.tags.get? tag with
    | none => exact silent_of_same rfl
    | some id => exact recorded ⟨id, value, labels⟩
  | create tag meter d choice script =>
    simp only [act, create]
    split <;> exact silent_of_same rfl
  | collect meter =>
    exact apart meter p (allowed meter (by rw [Action.targets]; exact List.mem_singleton_self _))
      inside n

theorem silent_actAll (sound : Sound clock (· ≠ m) nested) (apart : Apart m nested)
    (owner : InstrumentId) (actions : List Action) :
    ∀ {p : Provider}, p.Within (· ≠ m) → (∀ t ∈ callTargets actions, t ≠ m) →
      Silent ⟨m, n⟩ p (p.actAll nested owner actions).2 := by
  induction actions with
  | nil => exact fun _ _ => silent_of_same rfl
  | cons a rest ih =>
    intro p inside allowed
    have own : ∀ t ∈ a.targets, t ≠ m := fun t target =>
      allowed t (by rw [callTargets]; exact List.mem_append_left _ target)
    have others : ∀ t ∈ callTargets rest, t ≠ m := fun t target =>
      allowed t (by rw [callTargets]; exact List.mem_append_right _ target)
    have first : Silent ⟨m, n⟩ p (p.act nested owner a).2 := silent_act apart inside owner a own
    exact first.trans (ih ((reach_act sound inside owner a own).within inside) others)

theorem silent_runCallback (sound : Sound clock (· ≠ m) nested) (apart : Apart m nested)
    (inside : p.Within (· ≠ m)) (reading : Nat) (other : id ≠ ⟨m, n⟩) :
    Silent ⟨m, n⟩ p (p.runCallback nested reading id) := by
  unfold runCallback
  cases found : p.instrument? id with
  | none => exact silent_of_same rfl
  | some i =>
    cases called : i.callback with
    | none =>
      rw [Option.bind_some, called]
      exact silent_of_same rfl
    | some c =>
      rw [Option.bind_some, called]
      have advanced : Reach clock (· ≠ m) p
          (p.modify id fun i => { i with callback := some c.next.2 }) :=
        .single (.advance found called)
      have acted := silent_actAll (n := n) sound apart id c.next.1 (advanced.within inside)
        fun t target => inside id i c found called t (Callback.targets_next (Or.inl target))
      have ended : ∀ run : CallbackRun, run.instrument = id → ∀ q : Provider,
          Silent ⟨m, n⟩ q { q with journal := q.journal ++ [run] } := by
        intro run own q
        refine ⟨[run], rfl, fun run' member => ?_⟩
        rw [List.mem_singleton.1 member, own]
        exact other
      have begun : Silent ⟨m, n⟩ p (p.modify id fun i => { i with callback := some c.next.2 }) :=
        silent_of_same rfl
      exact (begun.trans acted).trans (ended _ rfl _)

theorem silent_collectInstrument (sound : Sound clock (· ≠ m) nested) (apart : Apart m nested)
    (inside : p.Within (· ≠ m)) (reading : Nat) (other : id ≠ ⟨m, n⟩) :
    Silent ⟨m, n⟩ p (p.collectInstrument clock nested reading id).2 := by
  have swept : ∀ q : Provider, Silent ⟨m, n⟩ q (q.sweep clock reading id).2 := by
    intro q
    unfold sweep
    split <;> exact silent_of_same rfl
  unfold collectInstrument
  split
  · exact (silent_runCallback sound apart inside reading other).trans (swept _)
  · exact silent_of_same rfl

theorem silent_collectEach (sound : Sound clock (· ≠ m) nested) (apart : Apart m nested)
    (reading : Nat) {meter : String} (foreign : meter ≠ m) (names : List String) :
    ∀ {p : Provider}, p.Within (· ≠ m) →
      Silent ⟨m, n⟩ p (p.collectEach clock nested reading meter names).2 := by
  induction names with
  | nil => exact fun _ => silent_of_same rfl
  | cons name rest ih =>
    intro p inside
    have other : (⟨meter, name⟩ : InstrumentId) ≠ ⟨m, n⟩ :=
      fun same => foreign (congrArg InstrumentId.meter same)
    have first := silent_collectInstrument sound apart inside reading other
    have reach := reach_collectInstrument sound inside reading ⟨meter, name⟩ foreign
    exact first.trans (ih (reach.within inside))

theorem apart_collectWithin (clock : Nat → Timestamp) (m : String) (depth : Nat) :
    Apart m (collectWithin clock depth) := by
  induction depth with
  | zero => exact fun _ _ _ _ _ => silent_of_same rfl
  | succ depth ih =>
    intro meter p foreign inside n
    have used : Reach clock (· ≠ m) p { p.use meter with readings := p.readings + 1 } :=
      (Relation.ReflTransGen.single (.use p meter)).tail (.read _)
    have begun : Silent ⟨m, n⟩ p { p.use meter with readings := p.readings + 1 } :=
      silent_of_same rfl
    exact begun.trans (silent_collectEach (sound_collectWithin clock _ depth) ih p.readings foreign _
      (used.within inside))

/-! ## Pending values -/

/-- What a callback observes for its own instrument only is no news to another one. -/
theorem pendingOf_of_silent (yields : Yields p (rs.map .collected) q) (silent : Silent id p q)
    (observing : q.SelfObserving) (nothing : pendingOf l (p.notes id) = []) :
    pendingOf l (q.notes id) = [] := by
  obtain ⟨runs, events, journal, history, told⟩ := yields
  obtain ⟨runs', journal', others⟩ := silent
  rw [journal] at journal'
  cases List.append_cancel_left journal'
  rw [notes_of_history events history]
  refine pendingOf_append nothing fun id' v member => ?_
  obtain ⟨among, at_⟩ := List.mem_filter.1 member
  have here : id' = id := of_decide_eq_true at_
  subst here
  have learnt : Outcome.accepted id' l v ∈
      rs.map .collected ++ runs.flatMap CallbackRun.outcomes :=
    told.mem_iff.2 (List.mem_flatMap.2 ⟨_, among, List.mem_singleton_self _⟩)
  rcases List.mem_append.1 learnt with collected | observed
  · obtain ⟨r, -, none_⟩ := List.mem_map.1 collected
    cases none_
  · obtain ⟨run, ran, brought⟩ := List.mem_flatMap.1 observed
    obtain ⟨done, did, what⟩ := List.mem_flatMap.1 brought
    refine others run ran ?_
    cases done with
    | recorded u result =>
      have own : u.instrument = run.instrument :=
        of_decide_eq_true (observing run (journal ▸ List.mem_append_right _ ran) _ did)
      cases result with
      | error e => cases what
      | ok x =>
        cases List.mem_singleton.1 what
        exact own.symm
    | created result => cases what
    | collected records =>
      obtain ⟨r, -, none_⟩ := List.mem_map.1 what
      cases none_
    | untagged tag => cases what

/-- Right after its sweep nothing is pending. -/
theorem pendingOf_sweep (clock : Nat → Timestamp) (reading : Nat) (id : InstrumentId)
    (present : (p.instrument? id).isSome = true) (l : String) :
    pendingOf l ((p.sweep clock reading id).2.notes id) = [] := by
  obtain ⟨i, found⟩ := Option.isSome_iff_exists.1 present
  obtain ⟨-, -, history⟩ := sweep_of_some clock reading found
  rw [notes, history, List.filter_cons_of_pos (by simp [Event.instrument])]
  rfl

theorem SelfObserving.of_yields {os : List Outcome} (observing : q.SelfObserving)
    (yields : Yields p os q) : p.SelfObserving := by
  obtain ⟨runs, events, journal, -, -⟩ := yields
  exact fun run member => observing run (journal ▸ List.mem_append_left _ member)

/-- Collecting an instrument leaves nothing pending of it, if it is enabled, and nothing new of
others. -/
theorem pendingOf_collectInstrument (sound : Sound clock (· ≠ m) nested) (apart : Apart m nested)
    (lossless : Lossless nested) (inside : p.Within (· ≠ m)) (reading : Nat) (name : String)
    (observing : (p.collectInstrument clock nested reading ⟨m, name⟩).2.SelfObserving)
    (start : name = n ∧ (p.instrument? ⟨m, n⟩).any (·.descriptor.enabled) = true ∨
      pendingOf l (p.notes ⟨m, n⟩) = []) :
    pendingOf l ((p.collectInstrument clock nested reading ⟨m, name⟩).2.notes ⟨m, n⟩) = [] := by
  by_cases same : name = n
  · subst same
    by_cases on : (p.instrument? ⟨m, name⟩).any (·.descriptor.enabled) = true
    · rw [collectInstrument, if_pos on]
      obtain ⟨i, found, -⟩ := (Option.any_eq_true _ _).1 on
      obtain ⟨j, present, -⟩ :=
        (reach_runCallback sound inside reading ⟨m, name⟩).descriptor found
      exact pendingOf_sweep clock reading _ (by rw [present]; rfl) l
    · rw [collectInstrument, if_neg on]
      exact start.resolve_left fun both => on both.2
  · have other : (⟨m, name⟩ : InstrumentId) ≠ ⟨m, n⟩ :=
      fun here => same (congrArg InstrumentId.name here)
    exact pendingOf_of_silent (yields_collectInstrument clock lossless reading ⟨m, name⟩ p)
      (silent_collectInstrument sound apart inside reading other) observing
      (start.resolve_left fun both => same both.1)

/-- Collecting instruments leaves nothing pending of those that are enabled, and nothing new of
others. -/
theorem pendingOf_collectEach (sound : Sound clock (· ≠ m) nested) (apart : Apart m nested)
    (lossless : Lossless nested) (reading : Nat) (names : List String) :
    ∀ {p : Provider}, p.Within (· ≠ m) →
      (p.collectEach clock nested reading m names).2.SelfObserving →
      (n ∈ names ∧ (p.instrument? ⟨m, n⟩).any (·.descriptor.enabled) = true ∨
        pendingOf l (p.notes ⟨m, n⟩) = []) →
      pendingOf l ((p.collectEach clock nested reading m names).2.notes ⟨m, n⟩) = [] := by
  induction names with
  | nil => exact fun _ _ start => start.resolve_left fun both => nomatch both.1
  | cons name rest ih =>
    intro p inside observing start
    have drains : Drains m reading [name] p _ := drains_collectInstrument sound inside name
    have yields := yields_collectEach clock lossless reading m rest
      (p.collectInstrument clock nested reading ⟨m, name⟩).2
    have first := pendingOf_collectInstrument (n := n) (l := l) sound apart lossless inside reading
      name (observing.of_yields yields)
    refine ih (p := (p.collectInstrument clock nested reading ⟨m, name⟩).2) drains.within observing ?_
    rcases start with ⟨member, on⟩ | nothing
    · rcases List.mem_cons.1 member with rfl | later
      · exact Or.inr (first (Or.inl ⟨rfl, on⟩))
      · obtain ⟨i, found, enabled⟩ := (Option.any_eq_true _ _).1 on
        obtain ⟨j, present, descriptor, -⟩ := drains.later.instruments _ i found
        refine Or.inl ⟨later, ?_⟩
        rw [present, Option.any_some, descriptor]
        exact enabled
    · exact Or.inr (first (Or.inr nothing))

end Provider

/-! ## Marks of change -/

/-- The aggregators of an instrument are marked as changed only while something is pending. -/
def Instrument.Marked (i : Instrument) (notes : List Event) : Prop :=
  ∀ l, pendingOf l notes = [] → (i.aggregator l).dirty = false

/-- Turns that leave aggregators alone keep the marks right. -/
theorem Instrument.Turn.marked {clock : Nat → Timestamp} {meters : String → Prop}
    {id : InstrumentId} {i j : Instrument} {e : Option Event} {notes : List Event}
    (turn : i.Turn clock meters False id j e) (marked : i.Marked notes) :
    j.Marked (e.toList ++ notes) := by
  intro l nothing
  cases turn with
  | kept _ same =>
    rw [same]
    exact marked l nothing
  | used raw _ => exact raw.elim
  | accepted l' v _ _ _ aggregator =>
    rw [Option.toList_some, List.singleton_append, pendingOf] at nothing
    split at nothing
    · cases (List.append_eq_nil_iff.1 nothing).2
    · rename_i other
      rw [aggregator l, if_neg fun both => other both.1]
      exact marked l nothing
  | swept reading _ _ =>
    rcases i.aggregator_sweep (clock reading) l with drained | new
    · rw [drained]
      rfl
    · rw [new]
      rfl

/-- While the values of a series stay within the range, and none of them is pending, its records add
up to them. -/
theorem Instrument.Balanced.integerSums {i : Instrument} {notes : List Event} {l : String}
    (balanced : i.Balanced notes l) (integers : i.descriptor.numberKind = .int64)
    (aggregation : i.aggregation = .sum) (nothing : pendingOf l notes = [])
    (bound : Number.magnitude ((valuesOf l notes).map i.descriptor.number) ≤ Number.limit) :
    (∀ r ∈ recordsOf l notes, r.value.IntegerSum) ∧
      Number.magnitude ((recordsOf l notes).map fun r => r.value.total) ≤ Number.limit ∧
      Aggregate.exactSum ((recordsOf l notes).map Record.value) =
        Number.exactSum ((valuesOf l notes).map i.descriptor.number) := by
  obtain ⟨portions, values, records⟩ := balanced.portions
  have whole : (valuesOf l notes).map i.descriptor.number =
      (portions.map (List.map i.descriptor.number)).flatten := by
    rw [values, nothing, List.append_nil, List.map_flatten]
  have cut : (recordsOf l notes).map Record.value =
      (portions.map (List.map i.descriptor.number)).map (Aggregate.ofValues .int64 .sum) := by
    rw [records, List.map_map]
    refine List.map_congr_left fun vs _ => ?_
    rw [ofValues, integers, aggregation]
    rfl
  have kinds : ∀ v ∈ (valuesOf l notes).map i.descriptor.number, v.kind = .int64 := by
    rw [← integers]
    exact kinds_number i.descriptor _
  have totals : (recordsOf l notes).map (fun r => r.value.total) =
      ((recordsOf l notes).map Record.value).map Aggregate.total := by
    rw [List.map_map]
    rfl
  rw [whole] at kinds bound ⊢
  rw [totals, cut]
  refine ⟨fun r member => ?_, ?_, ?_⟩
  · have told : r.value ∈ (recordsOf l notes).map Record.value := List.mem_map_of_mem member
    rw [cut] at told
    obtain ⟨ns, among, same⟩ := List.mem_map.1 told
    rw [← same]
    exact Aggregate.integerSum_ofValues fun v held => kinds v (List.mem_flatten.2 ⟨ns, among, held⟩)
  · exact Int.le_trans (Aggregate.magnitude_portions .sum kinds bound) bound
  · rw [Aggregate.exactSum, Number.exactSum, List.map_map]
    exact Aggregate.sum_amount_portions .sum kinds
      (fun v member => Number.isFinite_of_integer (kinds v member)) bound

namespace Client

variable {clock : Nat → Timestamp} {meters : String → Prop} {m n : String} {c c' : Client}
  {cs : List (List Record)} {p : Provider} {hs : List Handle}

/-- The marks of all instruments are right. -/
def Marked (c : Client) : Prop :=
  ∀ id i, c.provider.instrument? id = some i → i.Marked (c.provider.notes id)

theorem marked_empty : Marked ⟨.empty, []⟩ := fun _ _ found => nomatch found

theorem Marked.step (marked : c.Marked) (linked : c.Linked) (step : Step clock meters False c c') :
    c'.Marked := by
  have move := linked.move step
  intro id j found
  cases before : c.provider.instrument? id with
  | none =>
    obtain ⟨-, still | ⟨d, choice, callback, -, -, new⟩⟩ := move.opens before
    · rw [found] at still
      cases still
    · rw [found] at new
      cases new
      exact fun _ _ => rfl
  | some i =>
    obtain ⟨j', e, after, turn, notes⟩ := move.turn before
    rw [found] at after
    cases after
    rw [notes]
    exact turn.marked (marked id i before)

theorem Marked.reach (marked : c.Marked) (linked : c.Linked)
    (reach : Reach clock meters False c c') : c'.Marked := by
  induction reach with
  | refl => exact marked
  | tail earlier step ih => exact ih.step (linked.reach earlier) step

/-! ## Collections -/

/-- When the one collector of a meter is done, and callbacks observe for their own instruments only,
nothing is pending of an enabled instrument. -/
theorem Collected.pending_collect (clock : Nat → Timestamp) (collected : Collected m cs ⟨p, hs⟩)
    (observing : (p.collect clock m).2.SelfObserving) {i : Instrument}
    (found : (p.collect clock m).2.instrument? ⟨m, n⟩ = some i)
    (enabled : i.descriptor.enabled = true) (l : String) :
    pendingOf l ((p.collect clock m).2.notes ⟨m, n⟩) = [] := by
  have used : Provider.Reach clock (· ≠ m) p { p.use m with readings := p.readings + 1 } :=
    (Relation.ReflTransGen.single (.use p m)).tail (.read _)
  refine Provider.pendingOf_collectEach (Provider.sound_collectWithin clock _ (p.depth - 1))
    (Provider.apart_collectWithin clock m _) (Provider.lossless_collectWithin clock _) p.readings
    ((p.use m).meter m).names (used.within collected.within) observing ?_
  cases before : p.instrument? ⟨m, n⟩ with
  | none =>
    have unknown : p.notes ⟨m, n⟩ = [] := collected.balanced.absent _ before
    refine Or.inr ?_
    change pendingOf l (p.notes ⟨m, n⟩) = []
    rw [unknown]
    rfl
  | some j =>
    have later := (Provider.drains_collect clock collected.within).later
    obtain ⟨i', found', descriptor, -⟩ := later.instruments _ j before
    rw [found] at found'
    cases found'
    have present : (p.use m).instrument? ⟨m, n⟩ = some j := by
      rw [Provider.instrument?_use, before]
    refine Or.inl ⟨Provider.mem_names_of_instrument? present, ?_⟩
    change ((p.use m).instrument? ⟨m, n⟩).any _ = true
    rw [present, Option.any_some, ← descriptor]
    exact enabled

/-- When nothing of a series is pending and its values stay within the range, what a processor without
memory reported of it adds up to all that it accepted. -/
theorem Collected.exactSum_reports (collected : Collected m cs c) {i : Instrument}
    (found : c.provider.instrument? ⟨m, n⟩ = some i) (enabled : i.descriptor.enabled = true)
    (integers : i.descriptor.numberKind = .int64) (aggregation : i.aggregation = .sum) {l : String}
    (nothing : pendingOf l (c.provider.notes ⟨m, n⟩) = [])
    (bound : Number.magnitude ((valuesOf l (c.provider.notes ⟨m, n⟩)).map i.descriptor.number) ≤
      Number.limit) :
    Aggregate.exactSum (Processor.reports cs ⟨n, l⟩) =
      Number.exactSum ((valuesOf l (c.provider.notes ⟨m, n⟩)).map i.descriptor.number) := by
  obtain ⟨sums, magnitude, total⟩ := (collected.balanced.balanced _ i found enabled l).integerSums
    integers aggregation nothing bound
  rw [← collected.taken] at sums magnitude total
  refine (Processor.exactSum_reports (d := i.descriptor) cs (fun r member => ⟨?_, sums r member⟩)
    magnitude).trans total
  rw [collected.taken] at member
  obtain ⟨reading, id, records, swept, among⟩ := swept_of_mem_recordsOf member
  have here : id = ⟨m, n⟩ := of_decide_eq_true (List.mem_filter.1 swept).2
  subst here
  obtain ⟨i', found', descriptor⟩ := collected.regular.records reading _ records swept r among
  rw [found] at found'
  cases found'
  exact descriptor

end Client

end Metering
