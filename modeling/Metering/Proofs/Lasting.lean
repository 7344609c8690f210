import Metering.Proofs.Turn

/-!
# What lasts

Instruments stay with the descriptor and aggregation that they were made with, and the history only
grows. `Provider.Later` says this of two providers of one run, with the meters of which instruments
may have been swept in between; `Client.Regular` says what is true of every instrument because it
was true when it was made.
-/

namespace Metering

namespace Instrument

variable {clock : Nat → Timestamp} {meters : String → Prop} {raw : Prop} {id : InstrumentId}
  {i j : Instrument} {e : Option Event}

theorem Turn.aggregation (turn : i.Turn clock meters raw id j e) :
    j.aggregation = i.aggregation := by
  cases turn with
  | kept keeps _ => exact keeps.aggregation
  | used _ keeps => exact keeps.aggregation
  | accepted _ _ _ keeps _ _ => exact keeps.aggregation
  | swept _ _ _ => rfl

/-- Only the given meters are swept. -/
theorem Turn.allowed (turn : i.Turn clock meters raw id j e) {reading : Nat} {id' : InstrumentId}
    {records : List Record} (swept : e = some (.swept reading id' records)) : meters id'.meter := by
  cases turn with
  | kept _ _ => cases swept
  | used _ _ => cases swept
  | accepted _ _ _ _ _ _ => cases swept
  | swept _ _ allowed =>
    cases swept
    exact allowed

end Instrument

namespace Provider

variable {clock : Nat → Timestamp} {meters : String → Prop} {raw : Prop} {p q r : Provider}

/-- `q` comes after `p`, and in between only instruments of the given meters were swept. -/
structure Later (meters : String → Prop) (p q : Provider) : Prop where
  history : ∃ events, q.history = events ++ p.history ∧
    ∀ reading id records, .swept reading id records ∈ events → meters id.meter
  instruments : ∀ id i, p.instrument? id = some i →
    ∃ j, q.instrument? id = some j ∧ j.descriptor = i.descriptor ∧ j.aggregation = i.aggregation

theorem later_refl (meters : String → Prop) (p : Provider) : Later meters p p where
  history := ⟨[], rfl, fun _ _ _ member => nomatch member⟩
  instruments _ i found := ⟨i, found, rfl, rfl⟩

theorem Later.trans (first : Later meters p q) (second : Later meters q r) : Later meters p r where
  history := by
    obtain ⟨events, noted, allowed⟩ := first.history
    obtain ⟨events', noted', allowed'⟩ := second.history
    refine ⟨events' ++ events, by rw [noted', noted, List.append_assoc],
      fun reading id records member => ?_⟩
    rcases List.mem_append.1 member with new | old
    · exact allowed' reading id records new
    · exact allowed reading id records old
  instruments id i found := by
    obtain ⟨j, present, descriptor, aggregation⟩ := first.instruments id i found
    obtain ⟨k, present', descriptor', aggregation'⟩ := second.instruments id j present
    exact ⟨k, present', descriptor'.trans descriptor, aggregation'.trans aggregation⟩

theorem Later.mono {meters' : String → Prop} (later : Later meters p q)
    (more : ∀ m, meters m → meters' m) : Later meters' p q where
  history := by
    obtain ⟨events, noted, allowed⟩ := later.history
    exact ⟨events, noted, fun reading id records member =>
      more _ (allowed reading id records member)⟩
  instruments := later.instruments

/-- The notes on an instrument only grow. -/
theorem Later.notes (later : Later meters p q) (id : InstrumentId) :
    ∃ events, q.notes id = events ++ p.notes id ∧ (∀ e ∈ events, e.instrument = id) ∧
      ∀ reading id' records, .swept reading id' records ∈ events → meters id.meter := by
  obtain ⟨events, noted, allowed⟩ := later.history
  refine ⟨_, notes_of_history events noted,
    fun e member => of_decide_eq_true (List.mem_filter.1 member).2,
    fun reading id' records member => ?_⟩
  obtain ⟨among, own⟩ := List.mem_filter.1 member
  have same : id' = id := of_decide_eq_true own
  exact same ▸ allowed reading id' records among

theorem Move.later (move : Move clock meters raw p q) : Later meters p q where
  history := by
    cases move with
    | same _ history => exact ⟨[], history, fun _ _ _ member => nomatch member⟩
    | created _ _ _ _ _ _ _ history => exact ⟨[], history, fun _ _ _ member => nomatch member⟩
    | turned id i j e _ _ turn history =>
      exact ⟨e.toList, history, fun reading id' records member =>
        turn.allowed (Option.mem_toList.1 member)⟩
  instruments id i found := by
    obtain ⟨j, e, present, turn, -⟩ := move.turn found
    exact ⟨j, present, turn.descriptor, turn.aggregation⟩

/-- What holds of new instruments and is kept by turns holds of the instruments after a move. -/
theorem Move.instruments {holds : InstrumentId → Instrument → Prop}
    (move : Move clock meters raw p q)
    (new : ∀ id d choice callback, Meter.check d (aggregationFor d.kind choice) = .ok () →
      d.name = id.name → holds id (.new d (aggregationFor d.kind choice) callback))
    (turns : ∀ id (i j : Instrument) e, i.Turn clock meters raw id j e → holds id i → holds id j)
    (before : ∀ id i, p.instrument? id = some i → holds id i) :
    ∀ id j, q.instrument? id = some j → holds id j := by
  intro id j found
  cases there : p.instrument? id with
  | none =>
    obtain ⟨-, still | ⟨d, choice, callback, checked, name, made⟩⟩ := move.opens there
    · rw [found] at still
      cases still
    · rw [found] at made
      cases made
      exact new id d choice callback checked name
  | some i =>
    obtain ⟨j', e, after, turn, -⟩ := move.turn there
    rw [found] at after
    cases after
    exact turns id i j e turn (before id i there)

/-- What holds of the records of a sweep, and depends only on the descriptor and aggregation of
their instrument, holds of all records that are noted after a move. -/
theorem Move.records {holds : Instrument → Record → Prop} (move : Move clock meters raw p q)
    (swept : ∀ id i time, p.instrument? id = some i → ∀ r ∈ (i.sweep time).1, holds i r)
    (lasts : ∀ (i j : Instrument) r, j.descriptor = i.descriptor → j.aggregation = i.aggregation →
      holds i r → holds j r)
    (before : ∀ reading id records, .swept reading id records ∈ p.notes id →
      ∀ r ∈ records, ∃ i, p.instrument? id = some i ∧ holds i r) :
    ∀ reading id records, .swept reading id records ∈ q.notes id →
      ∀ r ∈ records, ∃ j, q.instrument? id = some j ∧ holds j r := by
  intro reading id records noted r member
  cases there : p.instrument? id with
  | none =>
    rw [(move.opens there).1] at noted
    obtain ⟨i, found, -⟩ := before reading id records noted r member
    rw [there] at found
    cases found
  | some i =>
    obtain ⟨j, e, after, turn, notes⟩ := move.turn there
    refine ⟨j, after, lasts i j r turn.descriptor turn.aggregation ?_⟩
    rw [notes] at noted
    rcases List.mem_append.1 noted with new | old
    · cases turn with
      | kept _ _ => cases new
      | used _ _ => cases new
      | accepted _ _ _ _ _ _ => cases List.mem_singleton.1 new
      | swept reading' _ _ =>
        cases List.mem_singleton.1 new
        exact swept id i _ there r member
    · obtain ⟨i', found, known⟩ := before reading id records old r member
      rw [there] at found
      cases found
      exact known

theorem Reach.later (reach : Reach clock meters p q) : Later meters p q := by
  induction reach with
  | refl => exact later_refl meters p
  | tail _ step ih =>
    have move : Move clock meters True _ _ := step.change.move
    exact ih.trans move.later

end Provider

namespace Client

variable {clock : Nat → Timestamp} {meters : String → Prop} {raw : Prop} {c c' : Client}

theorem Linked.later (linked : c.Linked) (reach : Reach clock meters raw c c') :
    Provider.Later meters c.provider c'.provider := by
  induction reach with
  | refl => exact Provider.later_refl meters c.provider
  | tail earlier step ih => exact ih.trans ((linked.reach earlier).move step).later

/-- Instruments are found under their names and have an aggregation of their kind, and their records
carry their descriptors. -/
structure Regular (c : Client) : Prop where
  names : ∀ id i, c.provider.instrument? id = some i → i.descriptor.name = id.name
  aggregations : ∀ id i, c.provider.instrument? id = some i →
    ∃ choice, i.aggregation = Provider.aggregationFor i.descriptor.kind choice
  records : ∀ reading id records, .swept reading id records ∈ c.provider.notes id →
    ∀ r ∈ records, ∃ i, c.provider.instrument? id = some i ∧ r.descriptor = i.descriptor

/-- Records carry the names of their instruments. -/
theorem Regular.name (regular : c.Regular) {reading : Nat} {id : InstrumentId}
    {records : List Record} (swept : .swept reading id records ∈ c.provider.history) {r : Record}
    (member : r ∈ records) : r.name = id.name := by
  obtain ⟨i, found, descriptor⟩ := regular.records reading id records
    (List.mem_filter.2 ⟨swept, decide_eq_true rfl⟩) r member
  rw [Record.name, descriptor]
  exact regular.names id i found

theorem regular_empty : Regular ⟨.empty, []⟩ where
  names _ _ found := nomatch found
  aggregations _ _ found := nomatch found
  records _ _ _ swept := nomatch swept

theorem Regular.step (regular : c.Regular) (linked : c.Linked) (step : Step clock meters raw c c') :
    c'.Regular where
  names := (linked.move step).instruments (fun _ _ _ _ _ name => name)
    (fun _ _ _ _ turn name => by rw [turn.descriptor, name]) regular.names
  aggregations := (linked.move step).instruments (fun _ _ choice _ _ _ => ⟨choice, rfl⟩)
    (fun _ _ _ _ turn made => by rw [turn.descriptor, turn.aggregation]; exact made)
    regular.aggregations
  records := by
    refine (linked.move step).records (fun id i time _ r member => ?_)
      (fun i j r descriptor _ same => same.trans descriptor.symm) regular.records
    obtain ⟨l, s, -, rfl⟩ := (i.mem_records_sweep_iff time r).1 member
    rfl

theorem Regular.reach (regular : c.Regular) (linked : c.Linked)
    (reach : Reach clock meters raw c c') : c'.Regular := by
  induction reach with
  | refl => exact regular
  | tail earlier step ih => exact ih.step (linked.reach earlier) step

end Client

end Metering
