import Metering.Proofs.Provider.Step

/-!
# Which callbacks a collection runs

The runs of callbacks are noted in the order in which they end, each with the clock reading of the
collection that asked for it. Nested collections take later readings, so the runs with the reading of
a collection are its own: one for each enabled observer that it comes to, in the order in which it
comes to them.
-/

namespace Metering.Provider

variable {clock : Nat → Timestamp} {nested : Collection} {meter : String} {reading : Nat}
  {p q r : Provider} {ids ids' : List InstrumentId} {id : InstrumentId} {i : Instrument}

/-- From `p` to `q`, the collection with a reading runs the callbacks of the given instruments; all
other runs of callbacks belong to collections that begin after it. -/
def Calls (reading : Nat) (p : Provider) (ids : List InstrumentId) (q : Provider) : Prop :=
  p.readings ≤ q.readings ∧ ∃ runs, q.journal = p.journal ++ runs ∧
    (runs.filter fun run => run.reading = reading).map CallbackRun.instrument = ids ∧
    ∀ run ∈ runs, reading ≤ run.reading

theorem calls_of_same (readings : q.readings = p.readings) (journal : q.journal = p.journal) :
    Calls reading p [] q :=
  ⟨Nat.le_of_eq readings.symm, [], by rw [journal, List.append_nil], rfl, nofun⟩

theorem Calls.trans (first : Calls reading p ids q) (second : Calls reading q ids' r) :
    Calls reading p (ids ++ ids') r := by
  obtain ⟨more, runs, noted, called, readings⟩ := first
  obtain ⟨more', runs', noted', called', readings'⟩ := second
  refine ⟨Nat.le_trans more more', runs ++ runs', ?_, ?_, fun run member => ?_⟩
  · rw [noted', noted, List.append_assoc]
  · rw [List.filter_append, List.map_append, called, called']
  · exact (List.mem_append.1 member).elim (readings run) (readings' run)

/-- What begins after the collection with a reading runs nothing for it. -/
theorem Calls.of_later (earlier : reading < p.readings) (whole : Calls p.readings p ids q) :
    Calls reading p [] q := by
  obtain ⟨more, runs, noted, -, readings⟩ := whole
  have after : ∀ run ∈ runs, reading < run.reading :=
    fun run member => Nat.lt_of_lt_of_le earlier (readings run member)
  refine ⟨more, runs, noted, ?_, fun run member => Nat.le_of_lt (after run member)⟩
  rw [List.filter_eq_nil_iff.2 fun run member same =>
    Nat.ne_of_gt (after run member) (of_decide_eq_true same), List.map_nil]

/-- Collections that run callbacks for themselves and for what they nest. -/
def Paced (nested : Collection) : Prop :=
  ∀ meter p, ∃ ids, Calls p.readings p ids (nested meter p).2

theorem calls_record (reading : Nat) (p : Provider) (u : Update) :
    Calls reading p [] (p.record u).2 := by
  unfold record
  split
  · exact calls_of_same rfl rfl
  · split <;> exact calls_of_same rfl rfl

theorem calls_act (paced : Paced nested) (earlier : reading < p.readings) (owner : InstrumentId)
    (a : Action) : Calls reading p [] (p.act nested owner a).2 := by
  cases a with
  | observe value labels => exact calls_record reading p _
  | update tag value labels =>
    simp only [act]
    cases p.tags.get? tag with
    | none => exact calls_of_same rfl rfl
    | some id => exact calls_record reading p ⟨id, value, labels⟩
  | create tag meter d choice script =>
    simp only [act, create]
    split <;> exact calls_of_same rfl rfl
  | collect meter =>
    obtain ⟨ids, called⟩ := paced meter p
    exact called.of_later earlier

theorem calls_actAll (paced : Paced nested) (owner : InstrumentId) (actions : List Action) :
    ∀ {p : Provider}, reading < p.readings →
      Calls reading p [] (p.actAll nested owner actions).2 := by
  induction actions with
  | nil => exact fun _ => calls_of_same rfl rfl
  | cons a rest ih =>
    intro p earlier
    have first : Calls reading p [] (p.act nested owner a).2 := calls_act paced earlier owner a
    exact first.trans (ih (Nat.lt_of_lt_of_le earlier first.1))

/-- Without a callback nothing is run. -/
theorem runCallback_of_none (nested : Collection) (reading : Nat)
    (none_ : (p.instrument? id).bind Instrument.callback = none) :
    p.runCallback nested reading id = p := by
  rw [runCallback, none_]

/-- The run of a callback is noted after all that it led to. -/
theorem calls_runCallback (paced : Paced nested) (earlier : reading < p.readings)
    (found : p.instrument? id = some i) (observer : i.callback.isSome = true) :
    Calls reading p [id] (p.runCallback nested reading id) ∧
      ∃ run, (p.runCallback nested reading id).journal.getLast? = some run ∧
        run.instrument = id ∧ run.reading = reading := by
  obtain ⟨c, called⟩ := Option.isSome_iff_exists.1 observer
  have acted : Calls reading p []
      ((p.modify id fun i => { i with callback := some c.next.2 }).actAll nested id c.next.1).2 :=
    calls_actAll (p := p.modify id fun i => { i with callback := some c.next.2 }) paced id c.next.1
      earlier
  unfold runCallback
  rw [found, Option.bind_some, called]
  refine ⟨acted.trans ⟨Nat.le_refl _, [⟨c.tag, c.calls, reading, id, _⟩], rfl, ?_, ?_⟩,
    _, List.getLast?_concat, rfl, rfl⟩
  · simp
  · intro run member
    cases List.mem_singleton.1 member
    exact Nat.le_refl _

theorem calls_sweep (clock : Nat → Timestamp) (reading reading' : Nat) (id : InstrumentId)
    (p : Provider) : Calls reading p [] (p.sweep clock reading' id).2 := by
  unfold sweep
  split <;> exact calls_of_same rfl rfl

theorem calls_collectInstrument (clock : Nat → Timestamp) (paced : Paced nested)
    (earlier : reading < p.readings) (id : InstrumentId) :
    Calls reading p
      (if (p.instrument? id).any fun i => i.descriptor.enabled && i.callback.isSome then [id] else [])
      (p.collectInstrument clock nested reading id).2 := by
  unfold collectInstrument
  cases found : p.instrument? id with
  | none => exact calls_of_same rfl rfl
  | some i =>
    rw [Option.any_some, Option.any_some]
    cases enabled : i.descriptor.enabled with
    | false => exact calls_of_same rfl rfl
    | true =>
      cases observer : i.callback.isSome with
      | true => exact (calls_runCallback paced earlier found observer).1.trans (calls_sweep ..)
      | false =>
        have none_ : (p.instrument? id).bind Instrument.callback = none := by
          rw [found]
          exact Option.isNone_iff_eq_none.1 (Option.isSome_eq_false_iff.1 observer)
        rw [runCallback_of_none nested reading none_]
        exact calls_sweep ..

/-- However the names are chosen, runs are paced. -/
theorem calls_collectEach (clock : Nat → Timestamp) (paced : Paced nested) (meter : String)
    (names : List String) : ∀ {p : Provider}, reading < p.readings →
      ∃ ids, Calls reading p ids (p.collectEach clock nested reading meter names).2 := by
  induction names with
  | nil => exact fun _ => ⟨[], calls_of_same rfl rfl⟩
  | cons name rest ih =>
    intro p earlier
    have first := calls_collectInstrument clock paced earlier ⟨meter, name⟩
    obtain ⟨ids, others⟩ := ih (Nat.lt_of_lt_of_le earlier first.1)
    exact ⟨_, first.trans others⟩

theorem paced_collectWithin (clock : Nat → Timestamp) (depth : Nat) :
    Paced (collectWithin clock depth) := by
  induction depth with
  | zero => exact fun _ _ => ⟨[], calls_of_same rfl rfl⟩
  | succ depth ih =>
    intro meter p
    have after : p.readings < { p.use meter with readings := p.readings + 1 }.readings :=
      Nat.lt_succ_self _
    obtain ⟨ids, more, runs, noted, called, readings⟩ :=
      calls_collectEach clock ih meter ((p.use meter).meter meter).names after
    exact ⟨ids, Nat.le_of_succ_le more, runs, noted, called, readings⟩

theorem paced_collect (clock : Nat → Timestamp) : Paced (collect clock) :=
  fun meter p => paced_collectWithin clock p.depth meter p

end Metering.Provider
