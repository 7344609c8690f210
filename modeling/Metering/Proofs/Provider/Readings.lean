import Metering.Proofs.Provider.View

/-!
# Which records a collection returns

A collection is known by the clock reading that it takes. Callbacks may collect again while it
runs, but nested collections take later readings; so a collection returns exactly the records of
the sweeps that are noted with its own reading, in their order, and these are sweeps of its meter.
-/

namespace Metering

/-- The records of the sweeps with a clock reading, in their order, for events that are listed
latest first. -/
def recordsAt (reading : Nat) : List Event → List Record
  | [] => []
  | .accepted _ _ _ :: rest => recordsAt reading rest
  | .swept r _ records :: rest =>
    if r = reading then recordsAt reading rest ++ records else recordsAt reading rest

theorem recordsAt_append (reading : Nat) (new old : List Event) :
    recordsAt reading (new ++ old) = recordsAt reading old ++ recordsAt reading new := by
  induction new with
  | nil => rw [List.nil_append, recordsAt, List.append_nil]
  | cons e rest ih =>
    cases e with
    | accepted id l v => rw [List.cons_append, recordsAt, recordsAt, ih]
    | swept r id records =>
      rw [List.cons_append, recordsAt, recordsAt, ih]
      split
      · rw [List.append_assoc]
      · rfl

theorem recordsAt_eq_nil {reading : Nat} {events : List Event}
    (other : ∀ r id records, .swept r id records ∈ events → r ≠ reading) :
    recordsAt reading events = [] := by
  induction events with
  | nil => rfl
  | cons e rest ih =>
    have after := ih fun r id records member => other r id records (List.mem_cons_of_mem _ member)
    cases e with
    | accepted id l v => rw [recordsAt, after]
    | swept r id records =>
      rw [recordsAt, if_neg (other r id records List.mem_cons_self), after]

theorem swept_of_mem_recordsAt {reading : Nat} {events : List Event} {r : Record}
    (member : r ∈ recordsAt reading events) :
    ∃ id records, .swept reading id records ∈ events ∧ r ∈ records := by
  induction events with
  | nil => cases member
  | cons e rest ih =>
    have earlier : r ∈ recordsAt reading rest →
        ∃ id records, .swept reading id records ∈ e :: rest ∧ r ∈ records := by
      intro old
      obtain ⟨id, records, swept, among⟩ := ih old
      exact ⟨id, records, List.mem_cons_of_mem _ swept, among⟩
    cases e with
    | accepted id l v => exact earlier member
    | swept reading' id records =>
      rw [recordsAt] at member
      split at member
      · rename_i here
        subst here
        rcases List.mem_append.1 member with old | new
        · exact earlier old
        · exact ⟨id, records, List.mem_cons_self, new⟩
      · exact earlier member

namespace Provider

variable {clock : Nat → Timestamp} {nested : Collection} {meter : String} {reading : Nat}
  {p q r : Provider} {rs rs' : List Record}

/-- From `p` to `q`, the collection of a meter with a reading takes the records `rs`, by sweeps of
that meter; all other sweeps belong to collections that begin after it. -/
def Takes (meter : String) (reading : Nat) (p : Provider) (rs : List Record) (q : Provider) :
    Prop :=
  p.readings ≤ q.readings ∧ ∃ events, q.history = events ++ p.history ∧
    recordsAt reading events = rs ∧
    ∀ r id records, .swept r id records ∈ events → r = reading ∧ id.meter = meter ∨ reading < r

theorem takes_of_same (readings : q.readings = p.readings) (history : q.history = p.history) :
    Takes meter reading p [] q :=
  ⟨Nat.le_of_eq readings.symm, [], history, rfl, fun _ _ _ member => nomatch member⟩

theorem Takes.trans (first : Takes meter reading p rs q) (second : Takes meter reading q rs' r) :
    Takes meter reading p (rs ++ rs') r := by
  obtain ⟨more, events, noted, taken, readings⟩ := first
  obtain ⟨more', events', noted', taken', readings'⟩ := second
  refine ⟨Nat.le_trans more more', events' ++ events, ?_, ?_, fun r' id records member => ?_⟩
  · rw [noted', noted, List.append_assoc]
  · rw [recordsAt_append, taken, taken']
  · rcases List.mem_append.1 member with later | earlier
    · exact readings' r' id records later
    · exact readings r' id records earlier

/-- What begins after the collection with a reading takes nothing for it. -/
theorem Takes.of_later {meter' : String} (earlier : reading < p.readings)
    (whole : Takes meter' p.readings p rs q) : Takes meter reading p [] q := by
  obtain ⟨more, events, noted, -, readings⟩ := whole
  have after : ∀ r id records, .swept r id records ∈ events → reading < r := by
    intro r id records member
    rcases readings r id records member with ⟨own, -⟩ | after
    · rw [own]
      exact earlier
    · exact Nat.lt_trans earlier after
  refine ⟨more, events, noted, recordsAt_eq_nil fun r id records member => ?_,
    fun r id records member => Or.inr (after r id records member)⟩
  exact (Nat.ne_of_lt (after r id records member)).symm

/-- A collection that returns what it takes. -/
def Exact (nested : Collection) : Prop :=
  ∀ meter p, Takes meter p.readings p (nested meter p).1 (nested meter p).2

theorem takes_record (meter : String) (reading : Nat) (p : Provider) (u : Update) :
    Takes meter reading p [] (p.record u).2 := by
  unfold record
  split
  · exact takes_of_same rfl rfl
  · split
    · refine ⟨Nat.le_refl _, [_], rfl, rfl, fun r id records member => ?_⟩
      cases List.mem_singleton.1 member
    · exact takes_of_same rfl rfl

theorem takes_create (meter' : String) (reading : Nat) (p : Provider) (tag meter : String)
    (d : Descriptor) (choice : Option Aggregation) (script : List (List Action)) :
    Takes meter' reading p [] (p.create tag meter d choice script).2 := by
  unfold create
  simp only
  split <;> exact takes_of_same rfl rfl

theorem takes_act (exact_ : Exact nested) (earlier : reading < p.readings) (owner : InstrumentId)
    (a : Action) : Takes meter reading p [] (p.act nested owner a).2 := by
  cases a with
  | observe value labels => exact takes_record meter reading p _
  | update tag value labels =>
    simp only [act]
    cases p.tags.get? tag with
    | none => exact takes_of_same rfl rfl
    | some id => exact takes_record meter reading p ⟨id, value, labels⟩
  | create tag meter' d choice script =>
    exact takes_create meter reading p tag meter' d choice script
  | collect meter' => exact (exact_ meter' p).of_later earlier

theorem takes_actAll (exact_ : Exact nested) (owner : InstrumentId) (actions : List Action) :
    ∀ {p : Provider}, reading < p.readings →
      Takes meter reading p [] (p.actAll nested owner actions).2 := by
  induction actions with
  | nil => exact fun _ => takes_of_same rfl rfl
  | cons a rest ih =>
    intro p earlier
    have first : Takes meter reading p [] (p.act nested owner a).2 :=
      takes_act exact_ earlier owner a
    have still : reading < (p.act nested owner a).2.readings := Nat.lt_of_lt_of_le earlier first.1
    exact first.trans (ih still)

theorem takes_runCallback (exact_ : Exact nested) (earlier : reading < p.readings)
    (id : InstrumentId) : Takes meter reading p [] (p.runCallback nested reading id) := by
  unfold runCallback
  cases (p.instrument? id).bind Instrument.callback with
  | none => exact takes_of_same rfl rfl
  | some c =>
    have called : Takes meter reading _ [] _ :=
      takes_actAll (p := p.modify id fun i => { i with callback := some c.next.2 })
        exact_ id c.next.1 earlier
    exact called

theorem takes_sweep (clock : Nat → Timestamp) (reading : Nat) (id : InstrumentId) (p : Provider) :
    Takes id.meter reading p (p.sweep clock reading id).1 (p.sweep clock reading id).2 := by
  unfold sweep
  cases p.instrument? id with
  | none => exact takes_of_same rfl rfl
  | some i =>
    refine ⟨Nat.le_refl _, [.swept reading id (i.sweep (clock reading)).1], rfl, ?_,
      fun r id records member => ?_⟩
    · rw [recordsAt, if_pos rfl, recordsAt, List.nil_append]
    · cases List.mem_singleton.1 member
      exact Or.inl ⟨rfl, rfl⟩

theorem takes_collectInstrument (clock : Nat → Timestamp) (exact_ : Exact nested)
    (earlier : reading < p.readings) (id : InstrumentId) :
    Takes id.meter reading p (p.collectInstrument clock nested reading id).1
      (p.collectInstrument clock nested reading id).2 := by
  unfold collectInstrument
  split
  · exact (takes_runCallback exact_ earlier id).trans (takes_sweep clock reading id _)
  · exact takes_of_same rfl rfl

theorem takes_collectEach (clock : Nat → Timestamp) (exact_ : Exact nested) (meter : String)
    (names : List String) : ∀ {p : Provider}, reading < p.readings →
      Takes meter reading p (p.collectEach clock nested reading meter names).1
        (p.collectEach clock nested reading meter names).2 := by
  induction names with
  | nil => exact fun _ => takes_of_same rfl rfl
  | cons name rest ih =>
    intro p earlier
    have first := takes_collectInstrument clock exact_ earlier ⟨meter, name⟩
    exact first.trans (ih (Nat.lt_of_lt_of_le earlier first.1))

theorem exact_collectMeter (clock : Nat → Timestamp) (exact_ : Exact nested) :
    Exact (collectMeter clock nested) := by
  intro meter p
  have after : p.readings < { p.use meter with readings := p.readings + 1 }.readings :=
    Nat.lt_succ_self _
  obtain ⟨more, events, noted, taken, readings⟩ :=
    takes_collectEach clock exact_ meter ((p.use meter).meter meter).names after
  exact ⟨Nat.le_of_succ_le more, events, noted, taken, readings⟩

/-- At every depth, a collection returns the records of the sweeps with its reading. -/
theorem exact_collectWithin (clock : Nat → Timestamp) (depth : Nat) :
    Exact (collectWithin clock depth) := by
  induction depth with
  | zero => exact fun _ _ => takes_of_same rfl rfl
  | succ depth ih => exact exact_collectMeter clock ih

theorem takes_collect (clock : Nat → Timestamp) (meter : String) (p : Provider) :
    Takes meter p.readings p (p.collect clock meter).1 (p.collect clock meter).2 :=
  exact_collectWithin clock p.depth meter p

end Provider

end Metering
