import Metering.Proofs.Lasting

/-!
# Collecting a meter that callbacks leave alone

As long as no callback leads to collecting a meter, a collection of it sweeps every enabled
instrument that the meter has, and all sweeps of its instruments take the reading of that
collection.
-/

namespace Metering.Provider

variable {clock : Nat → Timestamp} {nested : Collection} {meter : String} {reading : Nat}
  {names names' : List String} {p q r : Provider}

/-- From `p` to `q`, instruments of a meter are swept with one reading only, and those with the
given names are swept if they are enabled. Afterwards callbacks still leave the meter alone. -/
structure Drains (meter : String) (reading : Nat) (names : List String) (p q : Provider) :
    Prop where
  within : q.Within (· ≠ meter)
  later : Later (fun _ => True) p q
  swept : ∃ events, q.history = events ++ p.history ∧
    (∀ r id records, .swept r id records ∈ events → id.meter = meter → r = reading) ∧
    ∀ name ∈ names, ∀ i, p.instrument? ⟨meter, name⟩ = some i → i.descriptor.enabled = true →
      ∃ records, .swept reading ⟨meter, name⟩ records ∈ events

theorem drains_of_reach (inside : p.Within (· ≠ meter)) (reach : Reach clock (· ≠ meter) p q) :
    Drains meter reading [] p q where
  within := reach.within inside
  later := reach.later.mono fun _ _ => trivial
  swept := by
    obtain ⟨events, noted, others⟩ := reach.later.history
    exact ⟨events, noted, fun r id records member here => absurd here (others r id records member),
      fun _ none_ => nomatch none_⟩

theorem Drains.trans (first : Drains meter reading names p q)
    (second : Drains meter reading names' q r) : Drains meter reading (names ++ names') p r where
  within := second.within
  later := first.later.trans second.later
  swept := by
    obtain ⟨events, noted, own, all⟩ := first.swept
    obtain ⟨events', noted', own', all'⟩ := second.swept
    refine ⟨events' ++ events, by rw [noted', noted, List.append_assoc],
      fun r id records member => ?_, fun name among i found enabled => ?_⟩
    · rcases List.mem_append.1 member with new | old
      · exact own' r id records new
      · exact own r id records old
    · rcases List.mem_append.1 among with left | right
      · obtain ⟨records, member⟩ := all name left i found enabled
        exact ⟨records, List.mem_append_right _ member⟩
      · obtain ⟨j, present, descriptor, -⟩ := first.later.instruments _ i found
        obtain ⟨records, member⟩ := all' name right j present (descriptor ▸ enabled)
        exact ⟨records, List.mem_append_left _ member⟩

theorem drains_sweep (inside : p.Within (· ≠ meter)) {name : String} {i : Instrument}
    (found : p.instrument? ⟨meter, name⟩ = some i) (enabled : i.descriptor.enabled = true) :
    Drains meter reading [name] p (p.sweep clock reading ⟨meter, name⟩).2 := by
  obtain ⟨-, puts, noted⟩ := sweep_of_some clock reading found
  refine ⟨fun id j c found' called => ?_,
    Reach.later (.single (.sweep reading found enabled trivial)), [_], noted,
    fun r id records member _ => ?_, fun name' among _ _ _ => ?_⟩
  · by_cases at_ : id = ⟨meter, name⟩
    · subst at_
      rw [puts.self] at found'
      cases found'
      exact inside _ i c found called
    · rw [puts.other at_] at found'
      exact inside id j c found' called
  · cases List.mem_singleton.1 member
    rfl
  · cases List.mem_singleton.1 among
    exact ⟨_, List.mem_singleton_self _⟩

theorem drains_collectInstrument (sound : Sound clock (· ≠ meter) nested)
    (inside : p.Within (· ≠ meter)) (name : String) :
    Drains meter reading [name] p (p.collectInstrument clock nested reading ⟨meter, name⟩).2 := by
  unfold collectInstrument
  by_cases enabled : (p.instrument? ⟨meter, name⟩).any (·.descriptor.enabled) = true
  · rw [if_pos enabled]
    have called := reach_runCallback sound inside reading ⟨meter, name⟩
    obtain ⟨i, found, on⟩ := (Option.any_eq_true _ _).1 enabled
    obtain ⟨j, present, descriptor, -⟩ := called.descriptor found
    exact (drains_of_reach inside called).trans
      (drains_sweep (called.within inside) present (descriptor ▸ on))
  · rw [if_neg enabled]
    refine ⟨inside, later_refl _ p, [], rfl, fun _ _ _ none_ => (nomatch none_),
      fun name' among i found on => ?_⟩
    cases List.mem_singleton.1 among
    exact absurd ((Option.any_eq_true _ _).2 ⟨i, found, on⟩) enabled

theorem drains_collectEach (reading : Nat) (sound : Sound clock (· ≠ meter) nested)
    (names : List String) :
    ∀ {p : Provider}, p.Within (· ≠ meter) →
      Drains meter reading names p (p.collectEach clock nested reading meter names).2 := by
  induction names with
  | nil => exact fun inside => ⟨inside, later_refl _ _, [], rfl, fun _ _ _ none_ => (nomatch none_),
      fun _ none_ => nomatch none_⟩
  | cons name rest ih =>
    intro p inside
    have first : Drains meter reading [name] p _ := drains_collectInstrument sound inside name
    exact first.trans (ih first.within)

/-- A collection of a meter that callbacks leave alone sweeps every instrument that is enabled. -/
theorem drains_collect (clock : Nat → Timestamp) (inside : p.Within (· ≠ meter)) :
    Drains meter p.readings (p.meter meter).names p (p.collect clock meter).2 := by
  have used : Reach clock (· ≠ meter) p { p.use meter with readings := p.readings + 1 } :=
    (Relation.ReflTransGen.single (.use p meter)).tail (.read _)
  have sound := sound_collectWithin clock (· ≠ meter) (p.depth - 1)
  have each := drains_collectEach p.readings sound (p.meter meter).names
    (used.within inside)
  rw [← meter_use p meter meter] at each ⊢
  exact (drains_of_reach inside used).trans each

theorem mem_names_of_instrument? {name : String} {i : Instrument}
    (found : p.instrument? ⟨meter, name⟩ = some i) : name ∈ (p.meter meter).names :=
  List.mem_map_of_mem ((Keyed.mem_entries_iff ..).2 found)

end Metering.Provider
