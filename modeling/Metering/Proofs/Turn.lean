import Metering.Proofs.Handles

/-!
# What a step does to one instrument

Seen from one instrument, a step of a program leaves its series alone, or adds one value to one of
them, or sweeps it. `Client.Linked.move` reads this off every step, together with the event that is
noted; what holds of an instrument after every run is proved from its turns.
-/

namespace Metering

/-- The instrument to whose series something happened. -/
def Event.instrument : Event → InstrumentId
  | .accepted id _ _ => id
  | .swept _ id _ => id

/-- What happened to the series of one instrument, latest first. -/
def Provider.notes (p : Provider) (id : InstrumentId) : List Event :=
  p.history.filter fun e => e.instrument = id

namespace Instrument

/-- The aggregator of the series of some canonical labels, which is a new one if there is none. -/
def aggregator (i : Instrument) (l : String) : Aggregator :=
  ((i.series.get? l).map Series.aggregator).getD
    (.ofAggregation i.aggregation i.descriptor.numberKind)

/-- `j` has every series that `i` has, made when that was. Its other series are new. -/
structure Keeps (i j : Instrument) : Prop where
  descriptor : j.descriptor = i.descriptor
  aggregation : j.aggregation = i.aggregation
  sweeps : j.sweeps = i.sweeps
  kept : ∀ l s, i.series.get? l = some s → ∃ s', j.series.get? l = some s' ∧ s'.born = s.born
  made : ∀ l s', j.series.get? l = some s' → i.series.get? l = none → s'.born = i.sweeps

/-- What a step does to an instrument, and the event that it notes of it. -/
inductive Turn (clock : Nat → Timestamp) (meters : String → Prop) (raw : Prop) (id : InstrumentId)
    (i : Instrument) : Instrument → Option Event → Prop
  | kept {j : Instrument} :
    i.Keeps j → j.aggregator = i.aggregator → Turn clock meters raw id i j none
  /-- An aggregator was used directly. -/
  | used {j : Instrument} {l : String} {a : Aggregator} : raw → i.Keeps j →
    (i.aggregator l).Use a → (∀ l', j.aggregator l' = if l = l' then a else i.aggregator l') →
    Turn clock meters raw id i j none
  | accepted {j : Instrument} (l : String) (value : Number) :
    i.descriptor.check value = .ok () → i.Keeps j →
    (i.descriptor.enabled = true → ∃ s, j.series.get? l = some s) →
    (∀ l', j.aggregator l' = if l = l' ∧ i.descriptor.enabled = true
      then (i.aggregator l').update (i.descriptor.number value) else i.aggregator l') →
    Turn clock meters raw id i j (some (.accepted id l value))
  | swept (reading : Nat) :
    i.descriptor.enabled = true → meters id.meter →
    Turn clock meters raw id i (i.sweep (clock reading)).2
      (some (.swept reading id (i.sweep (clock reading)).1))

variable {i j : Instrument} {l : String} {s : Series} {labels : LabelSet}

theorem aggregator_of_some (found : i.series.get? l = some s) : i.aggregator l = s.aggregator := by
  rw [aggregator, found]
  rfl

theorem aggregator_of_none (absent : i.series.get? l = none) :
    i.aggregator l = .ofAggregation i.aggregation i.descriptor.numberKind := by
  rw [aggregator, absent]
  rfl

theorem aggregator_seriesFor (i : Instrument) (labels : LabelSet) :
    (i.seriesFor labels).aggregator = i.aggregator labels.canonical := by
  cases found : i.series.get? labels.canonical with
  | none => rw [seriesFor_of_none found, aggregator_of_none found]; rfl
  | some s => rw [seriesFor_of_some found, aggregator_of_some found]

theorem aggregator_congr (descriptor : j.descriptor = i.descriptor)
    (aggregation : j.aggregation = i.aggregation) (same : j.series.get? l = i.series.get? l) :
    j.aggregator l = i.aggregator l := by
  rw [aggregator, aggregator, descriptor, aggregation, same]

/-! ## Keeping series -/

theorem keeps_of_series (descriptor : j.descriptor = i.descriptor)
    (aggregation : j.aggregation = i.aggregation) (sweeps : j.sweeps = i.sweeps)
    (series : j.series = i.series) : i.Keeps j where
  descriptor := descriptor
  aggregation := aggregation
  sweeps := sweeps
  kept l s found := ⟨s, series ▸ found, rfl⟩
  made l s found absent := by
    rw [series, absent] at found
    cases found

theorem keeps_put (descriptor : j.descriptor = i.descriptor)
    (aggregation : j.aggregation = i.aggregation) (sweeps : j.sweeps = i.sweeps)
    (self : j.series.get? l = some s)
    (born : ∀ s', i.series.get? l = some s' → s.born = s'.born)
    (made : i.series.get? l = none → s.born = i.sweeps)
    (other : ∀ l', l ≠ l' → j.series.get? l' = i.series.get? l') : i.Keeps j where
  descriptor := descriptor
  aggregation := aggregation
  sweeps := sweeps
  kept l' s' found := by
    by_cases at_ : l = l'
    · subst at_
      exact ⟨s, self, born s' found⟩
    · exact ⟨s', (other l' at_).trans found, rfl⟩
  made l' s' found absent := by
    by_cases at_ : l = l'
    · subst at_
      rw [self] at found
      cases found
      exact made absent
    · rw [other l' at_, absent] at found
      cases found

theorem keeps_seriesFor (descriptor : j.descriptor = i.descriptor)
    (aggregation : j.aggregation = i.aggregation) (sweeps : j.sweeps = i.sweeps)
    (self : j.series.get? labels.canonical = some s) (born : s.born = (i.seriesFor labels).born)
    (other : ∀ l', labels.canonical ≠ l' → j.series.get? l' = i.series.get? l') : i.Keeps j :=
  keeps_put descriptor aggregation sweeps self
    (fun s found => by rw [born, seriesFor_of_some found])
    (fun absent => by rw [born, seriesFor_of_none absent]; rfl) other

theorem keeps_bind (i : Instrument) (labels : LabelSet) : i.Keeps (i.bind labels) :=
  keeps_seriesFor rfl rfl rfl (get?_bind_self i labels) rfl
    fun _ other => get?_bind_of_ne i labels other

theorem keeps_recordChecked (i : Instrument) (value : Number) (labels : LabelSet) :
    i.Keeps (i.recordChecked value labels) := by
  cases enabled : i.descriptor.enabled with
  | false =>
    rw [recordChecked_of_disabled enabled]
    exact keeps_of_series rfl rfl rfl rfl
  | true =>
    exact keeps_seriesFor (by simp) (by simp) (by simp)
      (get?_recordChecked_self enabled value labels) rfl
      fun _ other => get?_recordChecked_of_ne i value other

theorem keeps_modifyHeld (i : Instrument) (h : Handle) {f : Series → Series}
    (born : ∀ s, (f s).born = s.born) : i.Keeps (i.modifyHeld h f) := by
  cases present : i.seriesOf? h with
  | some s =>
    have found := (seriesOf?_eq_some_iff.1 present).1
    refine keeps_put rfl rfl rfl (get?_modifyHeld_self present f)
      (fun s' found' => ?_) (fun absent => ?_) fun l other => get?_modifyHeld_of_ne i f other
    · rw [found] at found'
      cases found'
      exact born s
    · rw [found] at absent
      cases absent
  | none => exact keeps_of_series rfl rfl rfl (series_modifyHeld_of_none present f)

/-! ## Aggregators -/

theorem aggregator_bind (i : Instrument) (labels : LabelSet) :
    (i.bind labels).aggregator = i.aggregator := by
  funext l
  by_cases at_ : labels.canonical = l
  · subst at_
    rw [aggregator_of_some (get?_bind_self i labels), ← aggregator_seriesFor]
    rfl
  · exact aggregator_congr rfl rfl (get?_bind_of_ne i labels at_)

theorem aggregator_recordChecked (i : Instrument) (value : Number) (labels : LabelSet) (l : String) :
    (i.recordChecked value labels).aggregator l =
      if labels.canonical = l ∧ i.descriptor.enabled = true
      then (i.aggregator l).update (i.descriptor.number value) else i.aggregator l := by
  cases enabled : i.descriptor.enabled with
  | false => rw [recordChecked_of_disabled enabled, if_neg (by simp)]
  | true =>
    by_cases at_ : labels.canonical = l
    · subst at_
      rw [if_pos ⟨rfl, rfl⟩, aggregator_of_some (get?_recordChecked_self enabled value labels),
        ← aggregator_seriesFor]
      rfl
    · rw [if_neg fun both => at_ both.1]
      exact aggregator_congr (by simp) (by simp) (get?_recordChecked_of_ne i value at_)

/-- Changing the series of a handle changes the aggregator of its labels. -/
theorem aggregator_modifyHeld_of_some {h : Handle} (present : i.seriesOf? h = some s)
    (f : Series → Series) (l : String) :
    (i.modifyHeld h f).aggregator l =
      if h.labels = l then (f s).aggregator else i.aggregator l := by
  by_cases at_ : h.labels = l
  · subst at_
    rw [if_pos rfl, aggregator_of_some (get?_modifyHeld_self present f)]
  · rw [if_neg at_]
    exact aggregator_congr rfl rfl (get?_modifyHeld_of_ne i f at_)

theorem aggregator_of_held {h : Handle} (present : i.seriesOf? h = some s) :
    i.aggregator h.labels = s.aggregator :=
  aggregator_of_some (seriesOf?_eq_some_iff.1 present).1

/-- Changing references changes no aggregator. -/
theorem aggregator_modifyHeld (i : Instrument) (h : Handle) {f : Series → Series}
    (same : ∀ s, (f s).aggregator = s.aggregator) :
    (i.modifyHeld h f).aggregator = i.aggregator := by
  funext l
  cases present : i.seriesOf? h with
  | some s =>
    rw [aggregator_modifyHeld_of_some present, same, ← aggregator_of_held present]
    split
    · rename_i at_
      rw [at_]
    · rfl
  | none => exact aggregator_congr rfl rfl (by rw [series_modifyHeld_of_none present f])

theorem aggregator_modifyHeld_update {h : Handle} (present : i.seriesOf? h = some s)
    (value : Number) (l : String) :
    (i.modifyHeld h fun s => s.update value).aggregator l =
      if h.labels = l then (i.aggregator l).update value else i.aggregator l := by
  rw [aggregator_modifyHeld_of_some present]
  by_cases at_ : h.labels = l
  · subst at_
    rw [if_pos rfl, if_pos rfl, aggregator_of_held present]
    rfl
  · rw [if_neg at_, if_neg at_]

/-- After a sweep every series is as it was before its first value. -/
theorem aggregator_sweep (i : Instrument) (time : Timestamp) (l : String) :
    (i.sweep time).2.aggregator l = (i.aggregator l).drain.2 ∨
      (i.sweep time).2.aggregator l =
        .ofAggregation i.aggregation i.descriptor.numberKind := by
  cases found : i.series.get? l with
  | none =>
    refine Or.inr (aggregator_of_none ?_)
    rw [get?_sweep, found]
    rfl
  | some s =>
    by_cases used : 0 < s.refs
    · refine Or.inl ?_
      rw [aggregator_of_some found]
      refine aggregator_of_some (s := s.drained) ?_
      rw [get?_sweep, found, Option.filter_some, if_pos (by simpa using used), Option.map_some]
    · refine Or.inr (aggregator_of_none ?_)
      rw [get?_sweep, found, Option.filter_some, if_neg (by simpa using used), Option.map_none]

/-! ## Steps -/

theorem Turn.event {clock : Nat → Timestamp} {meters : String → Prop} {raw : Prop}
    {id : InstrumentId} {e : Option Event} (turn : i.Turn clock meters raw id j e) :
    ∀ ev, e = some ev → ev.instrument = id := by
  intro ev noted
  cases turn with
  | kept _ _ => cases noted
  | used _ _ => cases noted
  | accepted l value _ _ _ _ => cases noted; rfl
  | swept reading _ _ => cases noted; rfl

theorem Turn.descriptor {clock : Nat → Timestamp} {meters : String → Prop} {raw : Prop}
    {id : InstrumentId} {e : Option Event} (turn : i.Turn clock meters raw id j e) :
    j.descriptor = i.descriptor := by
  cases turn with
  | kept keeps _ => exact keeps.descriptor
  | used _ keeps => exact keeps.descriptor
  | accepted _ _ _ keeps _ _ => exact keeps.descriptor
  | swept _ _ _ => rfl

end Instrument

namespace Provider

variable {clock : Nat → Timestamp} {meters : String → Prop} {raw : Prop} {p q : Provider}
  {id id' : InstrumentId} {i j : Instrument} {e : Option Event}

/-- What a step does to a provider: nothing that is seen, or it puts a new instrument at a free
place, or it is a turn of one instrument. -/
inductive Move (clock : Nat → Timestamp) (meters : String → Prop) (raw : Prop) (p q : Provider) :
    Prop
  | same : q.instrument? = p.instrument? → q.history = p.history → Move clock meters raw p q
  | created (meter : String) (d : Descriptor) (choice : Option Aggregation)
    (callback : Option Callback) :
    Meter.check d (aggregationFor d.kind choice) = .ok () →
    p.instrument? ⟨meter, d.name⟩ = none →
    Puts p q ⟨meter, d.name⟩ (.new d (aggregationFor d.kind choice) callback) →
    q.history = p.history → Move clock meters raw p q
  | turned (id : InstrumentId) (i j : Instrument) (e : Option Event) :
    p.instrument? id = some i → Puts p q id j → i.Turn clock meters raw id j e →
    q.history = e.toList ++ p.history → Move clock meters raw p q

theorem Change.move (change : Change clock meters p q) : Move clock meters raw p q := by
  cases change with
  | same instruments history => exact .same instruments history
  | created meter d choice callback checked _ free puts history =>
    exact .created meter d choice callback checked free puts history
  | advanced id i c found _ puts history =>
    exact .turned id i _ none found puts
      (.kept (Instrument.keeps_of_series rfl rfl rfl rfl) rfl) history
  | accepted id i value labels found checked puts history =>
    refine .turned id i _ (some (.accepted id labels.canonical value)) found puts
      (.accepted labels.canonical value checked (i.keeps_recordChecked value labels)
        (fun enabled => ?_) (i.aggregator_recordChecked value labels)) history
    exact ⟨_, Instrument.get?_recordChecked_self enabled value labels⟩
  | swept reading id i found enabled allowed puts history =>
    exact .turned id i _ (some (.swept reading id (i.sweep (clock reading)).1)) found puts
      (.swept reading enabled allowed) history

/-! ## Moves as seen from one place -/

theorem notes_of_history (new : List Event) (history : q.history = new ++ p.history) :
    q.notes id = new.filter (fun e => e.instrument = id) ++ p.notes id := by
  rw [notes, history, List.filter_append]
  rfl

theorem notes_of_own (history : q.history = e.toList ++ p.history)
    (own : ∀ ev, e = some ev → ev.instrument = id) : q.notes id = e.toList ++ p.notes id := by
  rw [notes_of_history e.toList history]
  cases e with
  | none => rfl
  | some ev =>
    rw [Option.toList_some, List.filter_cons_of_pos (by simpa using own ev rfl), List.filter_nil]

theorem notes_of_other (history : q.history = e.toList ++ p.history)
    (own : ∀ ev, e = some ev → ev.instrument = id') (other : id ≠ id') :
    q.notes id = p.notes id := by
  rw [notes_of_history e.toList history]
  cases e with
  | none => rfl
  | some ev =>
    have elsewhere : ev.instrument ≠ id := fun here => other (here.symm.trans (own ev rfl))
    rw [Option.toList_some, List.filter_cons_of_neg (by simpa using elsewhere), List.filter_nil,
      List.nil_append]

/-- A move is a turn of every instrument that there is. -/
theorem Move.turn (move : Move clock meters raw p q) (found : p.instrument? id = some i) :
    ∃ j e, q.instrument? id = some j ∧ i.Turn clock meters raw id j e ∧
      q.notes id = e.toList ++ p.notes id := by
  have still : i.Turn clock meters raw id i none :=
    .kept (Instrument.keeps_of_series rfl rfl rfl rfl) rfl
  cases move with
  | same instruments history =>
    exact ⟨i, none, instruments ▸ found, still, notes_of_history [] history⟩
  | created meter d choice callback _ free puts history =>
    have other : id ≠ ⟨meter, d.name⟩ := by
      rintro rfl
      rw [found] at free
      cases free
    exact ⟨i, none, (puts.other other).trans found, still, notes_of_history [] history⟩
  | turned id' i' j e at_ puts turn history =>
    by_cases same : id = id'
    · subst same
      rw [at_] at found
      cases found
      exact ⟨j, e, puts.self, turn, notes_of_own history turn.event⟩
    · exact ⟨i, none, (puts.other same).trans found, still,
        notes_of_other history turn.event same⟩

/-- Nothing is noted of a place where there is no instrument, and one that appears there is new. -/
theorem Move.opens (move : Move clock meters raw p q) (absent : p.instrument? id = none) :
    q.notes id = p.notes id ∧ (q.instrument? id = none ∨
      ∃ d choice callback, Meter.check d (aggregationFor d.kind choice) = .ok () ∧
        d.name = id.name ∧
        q.instrument? id = some (.new d (aggregationFor d.kind choice) callback)) := by
  cases move with
  | same instruments history =>
    exact ⟨notes_of_history [] history, Or.inl (instruments ▸ absent)⟩
  | created meter d choice callback checked free puts history =>
    refine ⟨notes_of_history [] history, ?_⟩
    by_cases same : id = ⟨meter, d.name⟩
    · subst same
      exact Or.inr ⟨d, choice, callback, checked, rfl, puts.self⟩
    · exact Or.inl ((puts.other same).trans absent)
  | turned id' i' j e at_ puts turn history =>
    have other : id ≠ id' := by
      rintro rfl
      rw [at_] at absent
      cases absent
    exact ⟨notes_of_other history turn.event other, Or.inl ((puts.other other).trans absent)⟩

end Provider

namespace Client

variable {clock : Nat → Timestamp} {meters : String → Prop} {raw : Prop} {c c' : Client}
  {p : Provider} {hs : List Handle} {h : Handle}

/-- Changing the series of a handle without its aggregator is a turn that changes nothing. -/
theorem Linked.move_modifyHeld (linked : Linked ⟨p, hs⟩) (held : h ∈ hs)
    {f : Series → Series} (born : ∀ s, (f s).born = s.born)
    (same : ∀ s, (f s).aggregator = s.aggregator) :
    p.Move clock meters raw (p.modifyHeld h f) := by
  obtain ⟨i, s, found, -⟩ := linked.series held
  exact .turned _ i _ none found (Provider.puts_modify found fun i => i.modifyHeld h f)
    (.kept (i.keeps_modifyHeld h born) (i.aggregator_modifyHeld h same)) rfl

theorem Linked.move_recordHeld (linked : Linked ⟨p, hs⟩) (held : h ∈ hs) (value : Number) :
    p.Move clock meters raw (p.recordHeld h value).2 := by
  rcases p.recordHeld_spec h value with ⟨e, refused⟩ | ⟨i, found, checked, _, puts, history⟩
  · rw [refused]
    exact .same rfl rfl
  · obtain ⟨i', s, found', present⟩ := linked.series held
    rw [found] at found'
    cases found'
    refine .turned _ i _ (some (.accepted h.instrument h.labels value)) found puts
      (.accepted h.labels value checked ?_ (fun enabled => ?_) fun l => ?_) history
    · split
      · exact i.keeps_modifyHeld h fun _ => rfl
      · exact Instrument.keeps_of_series rfl rfl rfl rfl
    · rw [if_pos enabled]
      exact ⟨_, Instrument.get?_modifyHeld_self present _⟩
    · cases enabled : i.descriptor.enabled with
      | false => rw [if_neg Bool.false_ne_true, if_neg fun both => Bool.false_ne_true both.2]
      | true =>
        rw [if_pos rfl, Instrument.aggregator_modifyHeld_update present]
        simp only [and_true]

/-- Every step of a program whose handles are linked is a move. -/
theorem Linked.move (linked : c.Linked) (step : Step clock meters raw c c') :
    c.provider.Move clock meters raw c'.provider := by
  cases step with
  | provider step => exact step.change.move
  | tag tag id => exact .same rfl rfl
  | @bind p hs id i labels found =>
    rw [Provider.bind_of_some found]
    exact .turned id i _ none found (Provider.puts_modify found fun i => i.bind labels)
      (.kept (i.keeps_bind labels) (i.aggregator_bind labels)) rfl
  | clone held => exact linked.move_modifyHeld held (fun _ => rfl) fun _ => rfl
  | release h => exact linked.move_modifyHeld List.mem_cons_self (fun _ => rfl) fun _ => rfl
  | update value held => exact linked.move_recordHeld held value
  | @raw p hs h s a allowed held at_ use =>
    obtain ⟨i, -, found, -⟩ := linked.series held
    rw [Provider.seriesOf?_of_some found] at at_
    rw [← Instrument.aggregator_of_held at_] at use
    exact .turned _ i _ none found (Provider.puts_modify found fun i => i.modifyHeld h _)
      (.used allowed (i.keeps_modifyHeld h fun _ => rfl) use
        (Instrument.aggregator_modifyHeld_of_some at_ _)) rfl
  | order _ => exact .same rfl rfl

end Client

end Metering
